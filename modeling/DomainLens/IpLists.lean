import DomainLens.Library.OrderedDict
import DomainLens.Library.Table
import DomainLens.Python.IpNetwork
import DomainLens.Python.Json

/-!
# Lists of blocked addresses

The lists are downloaded whole from their maintainers, and an address is looked up among the ranges
that are stored.  The file says what is stored after any downloads, and which lists a look-up names.
-/

namespace DomainLens
namespace IpLists

open Python

/-! ## Reading a list -/

/-- What `json.loads` makes of a line: a value, a `ValueError` or another exception. -/
inductive Loaded where
  | value (json : Json)
  | invalid
  | raised (reason : Text)

/-- The functions of the standard library by which a list is read: `ip_network` of a stripped text,
`json.loads`, decoding, and what an exception says of a value that is no text. -/
structure Readers where
  network : Text → Option IpNetwork
  loads : Text → Loaded
  decode : List UInt8 → Text
  unlike : Json → Text

inductive Kind where
  | spamhaus
  | dshield
  | plain
deriving DecidableEq

/-- `_MAX_RANGES`. -/
def maxRanges : Nat := 2000000

/-- `_MAX_BYTES`. -/
def maxBytes : Nat := 32 * 1024 * 1024

section Reading

variable (readers : Readers)

/-- `_network`, of a value that should be a text. -/
def networkOf : Json → Except Text (Option IpNetwork)
  | .str text => .ok (readers.network (strip text))
  | value => .error (readers.unlike value)

/-- The network of a line of Spamhaus, one object. -/
def spamhausLine (line : Text) : Except Text (Option (IpNetwork × Json)) :=
  match readers.loads line with
  | .invalid => .ok none
  | .raised reason => .error reason
  | .value entry =>
      if entry.isObject then
        (networkOf readers ((getItem entry.entries "cidr").or (.str []))).map fun network =>
          network.map fun network => (network, (getItem entry.entries "sblid").or (.str []))
      else .ok none

/-- The network of a line of DShield: start, end, prefix length, targets, name, country, contact. -/
def dshieldLine (line : Text) : Option (IpNetwork × Json) :=
  match line.splitOn '\t' with
  | start :: _ :: length :: rest =>
      if strip length ≠ [] ∧ (strip length).all isDigit then
        (readers.network (strip (start ++ '/' :: length))).map fun network =>
          (network, .str ([' '].intercalate
            ((((rest.drop 1).take 2).map strip).filter fun cell => cell ≠ [])))
      else none
  | _ => none

/-- The network of a line of a plain list; a comment without a word before it raises. -/
def plainLine (line : Text) : Except Text (Option (IpNetwork × Json)) :=
  let found (word : Text) := (readers.network (strip word)).map fun network => (network, .str [])
  if split line = [] then .ok (found [])
  else
    match split ((line.takeWhile (· ≠ ';')).takeWhile (· ≠ '#')) with
    | [] => .error "list index out of range".toList
    | word :: _ => .ok (found word)

/-- The network of a line that is no comment. -/
def lineOf (kind : Kind) (line : Text) : Except Text (Option (IpNetwork × Json)) :=
  match kind with
  | .spamhaus => spamhausLine readers line
  | .dshield => .ok (dshieldLine readers line)
  | .plain => plainLine readers line

/-- The loop of `parse`. -/
def parseLines (kind : Kind) :
    List Text → List (IpNetwork × Json) → Except Text (List (IpNetwork × Json))
  | [], out => .ok out
  | line :: lines, out =>
      let line := strip line
      if line.head?.all fun char => char = '#' || char = ';' then parseLines kind lines out
      else
        match lineOf readers kind line with
        | .error reason => .error reason
        | .ok found =>
            let out := out ++ found.toList
            if maxRanges ≤ out.length then .ok out else parseLines kind lines out

/-- `parse`. -/
def parse (kind : Kind) (text : Text) : Except Text (List (IpNetwork × Json)) :=
  parseLines readers kind (splitLines text) []

end Reading

/-! ## Downloads -/

/-- What a maintainer answers: nothing, or the pieces of a body, which may break off. -/
inductive Answer where
  | failed (reason : Text)
  | body (chunks : List (List UInt8)) (broken : Option Text)

/-- The loop over the pieces of a body. -/
def readBody (broken : Option Text) : List (List UInt8) → List UInt8 → Except Text (List UInt8)
  | [], body =>
      match broken with
      | none => .ok body
      | some reason => .error reason
  | chunk :: chunks, body =>
      let body := body ++ chunk
      if maxBytes < body.length then .error "list larger than 32 MB".toList
      else readBody broken chunks body

/-- A list as it is downloaded: its name, the addresses with what each answers, and its format. -/
structure Source where
  name : Text
  urls : List (Text × Answer)
  kind : Kind
  named : name ≠ []

section Downloading

variable (readers : Readers)

def fetch (kind : Kind) (url : Text) (answer : Answer) : Except Text (List (IpNetwork × Json)) :=
  if "https://".toList.isPrefixOf url then
    match answer with
    | .failed reason => .error reason
    | .body chunks broken =>
        match readBody broken chunks [] with
        | .error reason => .error reason
        | .ok body => parse readers kind (readers.decode body)
  else .error "only https:// lists are fetched".toList

/-- The loop over the addresses of a list. -/
def fetchAll (kind : Kind) :
    List (Text × Answer) → List (IpNetwork × Json) → Except Text (List (IpNetwork × Json))
  | [], ranges => .ok ranges
  | (url, answer) :: urls, ranges =>
      match fetch readers kind url answer with
      | .error reason => .error reason
      | .ok more => fetchAll kind urls (ranges ++ more)

/-- The start of a detail; a value that is no text raises. -/
def detailOf (network : IpNetwork) : Json → Except Text (IpNetwork × Text)
  | .str text => .ok (network, text.take 100)
  | value => .error (readers.unlike value)

def detailsOf : List (IpNetwork × Json) → Except Text (List (IpNetwork × Text))
  | [] => .ok []
  | (network, detail) :: ranges =>
      match detailOf readers network detail with
      | .error reason => .error reason
      | .ok first => (detailsOf ranges).map fun rest => first :: rest

/-- A complete download: every address answered, and the list holds addresses. -/
def download (source : Source) : Except Text (List (IpNetwork × Text)) :=
  match fetchAll readers source.kind source.urls [] with
  | .error reason => .error reason
  | .ok [] => .error "the list held no addresses".toList
  | .ok ranges => detailsOf readers ranges

end Downloading

/-! ## The tables -/

/-- A row of `ip_list_ranges`. -/
structure Range where
  version : Nat
  first : Text
  last : Text
  source : Text
  detail : Text
deriving DecidableEq

/-- A row of `ip_list_meta`. -/
structure Meta where
  source : Text
  refreshedAt : Option Text
  entries : Option Nat
  error : Option Text

structure Store where
  ranges : List Range
  metas : Table Meta.source

/-- The tables as `init_schema` makes them. -/
def Store.empty : Store := ⟨[], Table.empty⟩

/-- `_hex`. -/
def hex (version value : Nat) : Text := hexDigits (if version = 4 then 8 else 32) value

def rangeOf (source : Text) (entry : IpNetwork × Text) : Range :=
  match entry.1 with
  | .v4 block => ⟨4, hex 4 block.networkAddress, hex 4 block.broadcastAddress, source, entry.2⟩
  | .v6 block => ⟨6, hex 6 block.networkAddress, hex 6 block.broadcastAddress, source, entry.2⟩

/-! ## Refreshing -/

def Store.replace (store : Store) (name now : Text) (ranges : List (IpNetwork × Text)) : Store where
  ranges := store.ranges.filter (·.source ≠ name) ++ ranges.map (rangeOf name)
  metas := store.metas.put ⟨name, some now, some ranges.length, none⟩

def Store.fail (store : Store) (name reason : Text) : Store where
  ranges := store.ranges
  metas := store.metas.upsert ⟨name, none, none, some reason⟩
    (fun row => { row with error := some reason }) fun _ => rfl

/-- What `refresh` reports of a list: its number of ranges, or the error. -/
abbrev Report := List (Text × Except Text Nat)

/-- One list of `refresh`. -/
def refreshOne (readers : Readers) (now : Text) (state : Store × Report) (source : Source) :
    Store × Report :=
  match download readers source with
  | .ok ranges =>
      (state.1.replace source.name now ranges,
        OrderedDict.assign source.name (.ok ranges.length) state.2)
  | .error reason =>
      let text := reason.take 200
      (state.1.fail source.name text, OrderedDict.assign source.name (.error text) state.2)

/-- `source NOT IN (...)` does not hold; without names the empty one stands there. -/
def remains (names : List Text) (source : Text) : Bool :=
  if names = [] then source = [] else source ∈ names

/-- Forget the lists that are not among these. -/
def Store.keep (store : Store) (names : List Text) : Store where
  ranges := store.ranges.filter fun range => remains names range.source
  metas := store.metas.filter fun row => remains names row.source

/-- A refresh: the lists in use, with what their maintainers answer, and its time. -/
structure Refresh where
  sources : List Source
  now : Text

/-- `refresh`. -/
def refresh (readers : Readers) (store : Store) (event : Refresh) : Store × Report :=
  let done := event.sources.foldl (refreshOne readers event.now) (store, [])
  (done.1.keep (event.sources.map Source.name), done.2)

def stored (readers : Readers) (events : List Refresh) : Store :=
  events.foldl (fun store event => (refresh readers store event).1) .empty

/-! ## Looking up -/

inductive State where
  | listed
  | notListed
  | notChecked
  | notPublic
deriving DecidableEq

/-- `credit`. -/
def credit (name : Text) : Text :=
  if name = "Spamhaus DROP".toList then "© The Spamhaus Project SLU".toList
  else if name = "DShield block list (SANS ISC)".toList then
    "SANS Technology Institute, Internet Storm Center, https://isc.sans.edu".toList
  else []

structure Naming where
  source : Text
  detail : Text
  credit : Text
deriving DecidableEq

/-- The hexadecimal number of an address. -/
def hexOf : IpAddress → Text
  | .v4 value => hex 4 value.toNat
  | .v6 value => hex 6 value.toNat

/-- The ranges around an address, compared as texts. -/
def Store.around (store : Store) (address : IpAddress) : List Range :=
  store.ranges.filter fun range =>
    range.version = address.version ∧ range.first ≤ hexOf address ∧ hexOf address ≤ range.last

/-- `check`, of what `ip_address` makes of the text. -/
def check (store : Store) (address : Option IpAddress) : State × List Naming :=
  match address with
  | none => (.notChecked, [])
  | some address =>
      if !address.isGlobal then (.notPublic, [])
      else if store.metas.rows.all fun row => row.entries.isNone then (.notChecked, [])
      else
        let rows := fromKeys ((store.around address).map fun range => (range.source, range.detail))
        let lists := rows.map fun row => ⟨row.1, row.2, credit row.1⟩
        (if lists = [] then .notListed else .listed, lists)

/-! ## The latest good downloads -/

section Latest

variable (readers : Readers)

/-- The last complete download of a list in one refresh. -/
def goodIn (event : Refresh) (name : Text) : Option (List (IpNetwork × Text)) :=
  event.sources.reverse.findSome? fun source =>
    if source.name = name then (download readers source).toOption else none

/-- The latest complete download of a list. -/
def lastGood (events : List Refresh) (name : Text) : Option (List (IpNetwork × Text)) :=
  events.foldl (fun held event => (goodIn readers event name).or held) none

/-- The latest complete download of a list since it was last not among the lists in use. -/
def latest (events : List Refresh) (name : Text) : Option (List (IpNetwork × Text)) :=
  events.foldl (fun held event =>
    if name ∈ event.sources.map Source.name then (goodIn readers event name).or held else none) none

end Latest

def Store.rangesOf (store : Store) (name : Text) : List Range :=
  store.ranges.filter fun range => range.source = name

/-- The number of entries noted for a list. -/
def Store.entriesOf (store : Store) (name : Text) : Option Nat :=
  (store.metas.find name).bind Meta.entries

/-- The tables hold, for every list, what was kept of it. -/
structure Holds (store : Store) (held : Text → Option (List (IpNetwork × Text))) : Prop where
  ranges : ∀ name, store.rangesOf name = ((held name).getD []).map (rangeOf name)
  entries : ∀ name, store.entriesOf name = (held name).map List.length
  named : held [] = none

/-! ## Refreshes keep the good downloads -/

@[simp] theorem source_rangeOf (name : Text) (entry : IpNetwork × Text) :
    (rangeOf name entry).source = name := by
  unfold rangeOf
  split <;> rfl

private theorem filter_rangeOf (name other : Text) (entries : List (IpNetwork × Text)) :
    (entries.map (rangeOf name)).filter (fun range => range.source = other) =
      if name = other then entries.map (rangeOf name) else [] := by
  rw [List.filter_map]
  split
  · rename_i same
    rw [List.filter_eq_self.mpr fun entry _ => by simp [same]]
  · rename_i differs
    rw [List.filter_eq_nil_iff.mpr fun entry _ => by simp [differs], List.map_nil]

theorem rangesOf_replace (store : Store) (name now other : Text)
    (entries : List (IpNetwork × Text)) :
    (store.replace name now entries).rangesOf other =
      if name = other then entries.map (rangeOf name) else store.rangesOf other := by
  simp only [Store.replace, Store.rangesOf, List.filter_append, filter_rangeOf, List.filter_filter]
  split
  · rename_i same
    rw [List.filter_eq_nil_iff.mpr fun range _ => by simp [same], List.nil_append]
  · rename_i differs
    rw [List.append_nil]
    refine List.filter_congr fun range _ => ?_
    by_cases isOther : range.source = other
    · simp [isOther, Ne.symm differs]
    · simp [isOther]

theorem entriesOf_replace (store : Store) (name now other : Text)
    (entries : List (IpNetwork × Text)) :
    (store.replace name now entries).entriesOf other =
      if other = name then some entries.length else store.entriesOf other := by
  simp only [Store.replace, Store.entriesOf, Table.find_put]
  split <;> rfl

theorem entriesOf_fail (store : Store) (name reason other : Text) :
    (store.fail name reason).entriesOf other = store.entriesOf other := by
  simp only [Store.fail, Store.entriesOf, Table.find_upsert]
  split
  · rename_i same
    subst same
    cases store.metas.find other <;> rfl
  · rfl

theorem holds_refreshOne {readers : Readers} {now : Text} {state : Store × Report} {source : Source}
    {held : Text → Option (List (IpNetwork × Text))} (holds : Holds state.1 held) :
    Holds (refreshOne readers now state source).1 fun name =>
      if source.name = name then (download readers source).toOption.or (held name)
      else held name := by
  unfold refreshOne
  cases answer : download readers source with
  | error reason =>
      have same : (fun name => if source.name = name then (Except.error reason :
          Except Text (List (IpNetwork × Text))).toOption.or (held name) else held name) = held := by
        funext name
        split <;> rfl
      rw [same]
      exact ⟨holds.ranges, fun name => (entriesOf_fail _ _ _ _).trans (holds.entries name),
        holds.named⟩
  | ok entries =>
      constructor
      · intro name
        rw [rangesOf_replace]
        split
        · rename_i same
          subst same
          rfl
        · exact holds.ranges name
      · intro name
        rw [entriesOf_replace]
        by_cases same : source.name = name
        · rw [if_pos same.symm, if_pos same]
          rfl
        · rw [if_neg (Ne.symm same), if_neg same]
          exact holds.entries name
      · rw [if_neg source.named]
        exact holds.named

private theorem findSome?_or (readers : Readers) (name : Text) (sources : List Source)
    (held : Option (List (IpNetwork × Text))) :
    sources.foldl (fun held source =>
        if source.name = name then (download readers source).toOption.or held else held) held =
      (sources.reverse.findSome? fun source =>
        if source.name = name then (download readers source).toOption else none).or held := by
  induction sources generalizing held with
  | nil => rfl
  | cons source sources induction =>
      rw [List.foldl_cons, induction, List.reverse_cons, List.findSome?_append, Option.or_assoc]
      congr 1
      by_cases same : source.name = name <;> simp [same]

theorem holds_sources {readers : Readers} {now : Text} (sources : List Source)
    {state : Store × Report} {held : Text → Option (List (IpNetwork × Text))}
    (holds : Holds state.1 held) :
    Holds (sources.foldl (refreshOne readers now) state).1 fun name =>
      sources.foldl (fun held source =>
        if source.name = name then (download readers source).toOption.or held else held)
        (held name) := by
  induction sources generalizing state held with
  | nil => exact holds
  | cons source sources induction => exact induction (holds_refreshOne holds)

theorem rangesOf_keep (store : Store) (names : List Text) (name : Text) :
    (store.keep names).rangesOf name = if remains names name then store.rangesOf name else [] := by
  simp only [Store.keep, Store.rangesOf, List.filter_filter]
  split
  · rename_i kept
    refine List.filter_congr fun range _ => ?_
    by_cases same : range.source = name
    · rw [same, kept, Bool.and_true]
    · simp [same]
  · rename_i left
    refine List.filter_eq_nil_iff.mpr fun range _ => ?_
    by_cases same : range.source = name
    · rw [same, Bool.eq_false_iff.mpr left, Bool.and_false]
      exact Bool.false_ne_true
    · simp [same]

theorem entriesOf_keep (store : Store) (names : List Text) (name : Text) :
    (store.keep names).entriesOf name =
      if remains names name then store.entriesOf name else none := by
  simp only [Store.keep, Store.entriesOf, Table.find_filter]
  cases found : store.metas.find name with
  | none => exact (ite_self _).symm
  | some row =>
      have same : row.source = name := Table.key_of_find found
      rw [Option.filter_some, same]
      cases remains names name <;> rfl

theorem holds_keep {store : Store} {held : Text → Option (List (IpNetwork × Text))}
    (holds : Holds store held) (sources : List Source) :
    Holds (store.keep (sources.map Source.name)) fun name =>
      if name ∈ sources.map Source.name then held name else none := by
  have unnamed : [] ∉ sources.map Source.name := fun member => by
    obtain ⟨source, _, same⟩ := List.mem_map.mp member
    exact source.named same
  have kept : ∀ name, name ≠ [] →
      remains (sources.map Source.name) name = decide (name ∈ sources.map Source.name) := by
    intro name named
    unfold remains
    split
    · rename_i empty
      simp [empty, named]
    · rfl
  constructor
  · intro name
    rw [rangesOf_keep]
    by_cases named : name = []
    · subst named
      rw [if_neg unnamed, holds.ranges, holds.named]
      exact ite_self _
    · simp only [kept name named, decide_eq_true_eq, holds.ranges]
      split <;> rfl
  · intro name
    rw [entriesOf_keep]
    by_cases named : name = []
    · subst named
      rw [if_neg unnamed, holds.entries, holds.named]
      exact ite_self _
    · simp only [kept name named, decide_eq_true_eq, holds.entries]
      split <;> rfl
  · exact if_neg unnamed

theorem holds_refresh {readers : Readers} {store : Store}
    {held : Text → Option (List (IpNetwork × Text))} (holds : Holds store held) (event : Refresh) :
    Holds (refresh readers store event).1 fun name =>
      if name ∈ event.sources.map Source.name then (goodIn readers event name).or (held name)
      else none := by
  have gone := @holds_sources readers event.now event.sources (store, []) held holds
  have done := holds_keep gone event.sources
  simp only [findSome?_or] at done
  exact done

theorem holds_empty : Holds .empty fun _ => none where
  ranges _ := rfl
  entries _ := rfl
  named := rfl

/-- After any refreshes the tables hold the latest complete downloads of the lists in use. -/
theorem holds_stored (readers : Readers) (events : List Refresh) :
    Holds (stored readers events) (latest readers events) := by
  have following : ∀ (events : List Refresh) (store : Store)
      (held : Text → Option (List (IpNetwork × Text))), Holds store held →
      Holds (events.foldl (fun store event => (refresh readers store event).1) store) fun name =>
        events.foldl (fun held event =>
          if name ∈ event.sources.map Source.name then (goodIn readers event name).or held else none)
          (held name) := by
    intro events
    induction events with
    | nil => exact fun store held holds => holds
    | cons event events induction =>
        exact fun store held holds => induction _ _ (holds_refresh holds event)
  exact following events .empty (fun _ => none) holds_empty

/-! ## Which lists a look-up names -/

theorem around_rangeOf (name : Text) (entry : IpNetwork × Text) (address : IpAddress) :
    ((rangeOf name entry).version = address.version ∧ (rangeOf name entry).first ≤ hexOf address ∧
        hexOf address ≤ (rangeOf name entry).last) ↔ entry.1.contains address := by
  obtain ⟨network, detail⟩ := entry
  cases network with
  | v4 block =>
      cases address with
      | v4 value =>
          simp only [rangeOf, IpAddress.version, hexOf, hex, if_pos, true_and, IpNetwork.contains]
          rw [hexDigits_le_iff block.base.isLt value.isLt,
            hexDigits_le_iff value.isLt block.broadcastAddress_lt, block.contains_iff,
            Block.networkAddress]
      | v6 value => simp [rangeOf, IpAddress.version, IpNetwork.contains]
  | v6 block =>
      cases address with
      | v4 value => simp [rangeOf, IpAddress.version, IpNetwork.contains]
      | v6 value =>
          simp only [rangeOf, IpAddress.version, hexOf, hex, true_and, IpNetwork.contains]
          rw [if_neg (by decide), hexDigits_le_iff block.base.isLt value.isLt,
            hexDigits_le_iff value.isLt block.broadcastAddress_lt, block.contains_iff,
            Block.networkAddress]

/-- The ranges of a list around an address are those of its networks that contain it. -/
theorem mem_around {store : Store} {held : Text → Option (List (IpNetwork × Text))}
    (holds : Holds store held) (address : IpAddress) (name : Text) :
    (∃ range ∈ store.around address, range.source = name) ↔
      ∃ entry ∈ (held name).getD [], entry.1.contains address := by
  have stored : ∀ range, (range ∈ store.ranges ∧ range.source = name) ↔
      ∃ entry ∈ (held name).getD [], rangeOf name entry = range := by
    intro range
    have listed := congrArg (range ∈ ·) (holds.ranges name)
    simpa [Store.rangesOf] using listed
  constructor
  · rintro ⟨range, member, same⟩
    obtain ⟨inside, between⟩ := List.mem_filter.mp member
    obtain ⟨entry, isHeld, rfl⟩ := (stored range).mp ⟨inside, same⟩
    exact ⟨entry, isHeld, (around_rangeOf name entry address).mp (of_decide_eq_true between)⟩
  · rintro ⟨entry, isHeld, contains⟩
    obtain ⟨inside, same⟩ := (stored _).mpr ⟨entry, isHeld, rfl⟩
    exact ⟨rangeOf name entry, List.mem_filter.mpr ⟨inside,
      decide_eq_true ((around_rangeOf name entry address).mpr contains)⟩, same⟩

private theorem held_eq_none {store : Store} {held : Text → Option (List (IpNetwork × Text))}
    (holds : Holds store held)
    (unloaded : (store.metas.rows.all fun row => row.entries.isNone) = true) (name : Text) :
    held name = none := by
  have entries := holds.entries name
  cases found : store.metas.find name with
  | none =>
      rw [Store.entriesOf, found] at entries
      exact Option.map_eq_none_iff.mp entries.symm
  | some row =>
      have absent := List.all_eq_true.mp unloaded row (Table.mem_of_find found)
      rw [Store.entriesOf, found, Option.bind_some, Option.isNone_iff_eq_none.mp absent] at entries
      exact Option.map_eq_none_iff.mp entries.symm

theorem check_names {store : Store} {held : Text → Option (List (IpNetwork × Text))}
    (holds : Holds store held) (address : IpAddress) (name : Text) :
    (∃ naming ∈ (check store (some address)).2, naming.source = name) ↔
      address.isGlobal ∧ ∃ entry ∈ (held name).getD [], entry.1.contains address := by
  rw [← mem_around holds]
  simp only [check]
  cases isGlobal : address.isGlobal with
  | false => simp
  | true =>
      simp only [Bool.not_true, Bool.false_eq_true, if_false, true_and]
      split
      · rename_i unloaded
        have empty := held_eq_none holds unloaded name
        rw [mem_around holds, empty]
        simp
      · simp

/-- After any refreshes every list holds the ranges of its latest complete download and as many
entries, and a look-up names a list just when the address is public and in a network of it. -/
theorem lists_of_refreshes (readers : Readers) (events : List Refresh) :
    (∀ name,
      (stored readers events).rangesOf name =
          ((latest readers events name).getD []).map (rangeOf name) ∧
        (stored readers events).entriesOf name = (latest readers events name).map List.length) ∧
      ∀ address name,
        (∃ naming ∈ (check (stored readers events) (some address)).2, naming.source = name) ↔
          address.isGlobal ∧
            ∃ entry ∈ (latest readers events name).getD [], entry.1.contains address :=
  have holds := holds_stored readers events
  ⟨fun name => ⟨holds.ranges name, holds.entries name⟩, check_names holds⟩

/-! ## Addresses that are not public -/

private theorem eight_le_32 : 8 ≤ 32 := by decide

private theorem ten_aligned : 2 ^ (32 - 8) ∣ (0x0A000000 : BitVec 32).toNat := by decide

def tenNetwork : IpNetwork := .v4 ⟨0x0A000000, 8, eight_le_32, ten_aligned⟩

/-- Functions that read the text of one network. -/
def oneNetwork : Readers where
  network text := if text = "10.0.0.0/8".toList then some tenNetwork else none
  loads _ := .invalid
  decode bytes := bytes.map fun byte => Char.ofNat byte.toNat
  unlike _ := []

private theorem listAddress_ne_nil : "https://lists.nl/ten.txt".toList ≠ [] := by decide

/-- A list of an admin that holds one private network. -/
def privateList : Source where
  name := "https://lists.nl/ten.txt".toList
  urls := [("https://lists.nl/ten.txt".toList,
    .body [[49, 48, 46, 48, 46, 48, 46, 48, 47, 56, 10]] none)]
  kind := .plain
  named := listAddress_ne_nil

/-- A private address in a network of a list is not named. -/
theorem private_not_named :
    ¬ ∀ (readers : Readers) (events : List Refresh),
      (∀ name,
        (stored readers events).rangesOf name =
            ((lastGood readers events name).getD []).map (rangeOf name) ∧
          (stored readers events).entriesOf name = (lastGood readers events name).map List.length) ∧
        ∀ address name,
          (∃ naming ∈ (check (stored readers events) (some address)).2, naming.source = name) ↔
            ∃ entry ∈ (lastGood readers events name).getD [], entry.1.contains address := by
  intro claim
  obtain ⟨_, names⟩ := claim oneNetwork [⟨[privateList], []⟩]
  have contained : ∃ entry ∈ (lastGood oneNetwork [⟨[privateList], []⟩] privateList.name).getD [],
      entry.1.contains (.quad 10 0 0 1) := by decide +kernel
  obtain ⟨naming, member, _⟩ := (names (.quad 10 0 0 1) privateList.name).mpr contained
  have unnamed : (check (stored oneNetwork [⟨[privateList], []⟩]) (some (.quad 10 0 0 1))).2 = [] := by
    have isPrivate : (IpAddress.quad 10 0 0 1).isGlobal = false := by decide
    simp only [check, isPrivate, Bool.not_false, if_true]
  rw [unnamed] at member
  cases member

end IpLists
end DomainLens
