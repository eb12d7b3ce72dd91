import DomainLens.DomainPortfolio.Books
import DomainLens.Library.Sql

/-!
# Reading the change log

The rows of the change log that match some filters are read page by page, with the number of all of them and
what choosing one kind or one source would show.  The file settles when those numbers are what a choice
shows.
-/

namespace DomainLens
namespace DomainPortfolio
namespace Events

open Python Sql

/-! ## Rows -/

/-- A row of `portfolio_events`. -/
structure EventRow where
  id : ℕ
  domain : Text
  atTime : Text
  kind : Text
  detail : Option Text
  severity : Option Text
  before : Option Text
  after : Option Text
  source : Option Text
  actor : Option Text
deriving DecidableEq

/-- `EVENT_KIND_TEXT`. -/
def eventKindText : List (Text × Text) :=
  [("phase", "Registration phase"), ("registrar", "Registrar"), ("reseller", "Reseller"),
    ("nameservers", "Name servers"), ("expiry", "Expiry"), ("dns", "DNS answers"), ("added", "Added"),
    ("removed", "Removed"), ("unit", "Unit"), ("decision", "Decision"),
    ("threat_intel", "Threat intel"), ("contact", "Contact")].map fun entry =>
      (entry.1.toList, entry.2.toList)

/-- `EVENT_SOURCE_TEXT`. -/
def eventSourceText : List (Text × Text) :=
  [("registry", "Registry lookup"), ("edit", "Changed by hand"), ("import", "Import")].map fun entry =>
    (entry.1.toList, entry.2.toList)

/-- `_KIND_SEVERITY`. -/
def kindSeverity : List (Text × Text) :=
  [("registrar", "high"), ("reseller", "high"), ("nameservers", "high"), ("phase", "medium"),
    ("expiry", "medium"), ("dns", "medium")].map fun entry => (entry.1.toList, entry.2.toList)

/-! ## The sentences of older rows -/

/-- Every place where a mark stands in a text, with what is in front of it and behind it. -/
def splitsAt (mark : Text) (text : Text) : List (Text × Text) :=
  (List.range (text.length + 1)).filterMap fun index =>
    if mark <+: text.drop index then some (text.take index, text.drop (index + mark.length)) else none

/-- A text in front of the end of a sentence, which a newline may follow. -/
def sentenceIn (ending : Text) (text : Text) : Option Text :=
  let whole := if text.getLast? = some '\n' then text.dropLast else text
  if ending <:+ whole ∧ '\n' ∉ whole then some (whole.take (whole.length - ending.length)) else none

/-- What stands behind a mark, wherever it first leads to something. -/
def searchBehind {α : Type} (mark : Text) (read : Text → Option α) (text : Text) : Option α :=
  (splitsAt mark text).findSome? fun place => read place.2

/-- `(?P<before>.*) -> (?P<after>.*)\.$`. -/
def readArrow (text : Text) : Option (Text × Text) :=
  (sentenceIn ['.'] text).bind fun sentence => (splitsAt " -> ".toList sentence).getLast?

/-- `(?P<after>.*) \(was (?P<before>.*)\)\.$`. -/
def readWas (text : Text) : Option (Text × Text) :=
  (sentenceIn ").".toList text).bind fun sentence =>
    (splitsAt " (was ".toList sentence).getLast?.map Prod.swap

/-- `(?P<after>.*?)(?: \(.*\))?\.$`. -/
def readPhase (text : Text) : Option Text :=
  (sentenceIn ['.'] text).map fun sentence =>
    match splitsAt " (".toList sentence with
    | [] => sentence
    | place :: _ => if place.2.getLast? = some ')' then place.1 else sentence

/-- `^[^ ]+: (?P<before>.*?) -> `, with what `readPhase` makes of the rest. -/
def readPhases (text : Text) : Option (Text × Text) :=
  let name := text.takeWhile (· ≠ ' ')
  if 2 ≤ name.length ∧ name.getLast? = some ':' ∧ name.length < text.length then
    (splitsAt " -> ".toList (text.drop (name.length + 1))).findSome? fun place =>
      if '\n' ∈ place.1 then none else (readPhase place.2).map fun after => (place.1, after)
  else none

/-- `_legacy_values`. -/
def legacyValues (kind : Text) (detail : Option Text) : Option Text × Option Text :=
  let text := detail.getD []
  let found :=
    if kind = "registrar".toList then searchBehind " changed registrar: ".toList readArrow text
    else if kind = "reseller".toList then searchBehind " changed reseller: ".toList readArrow text
    else if kind = "nameservers".toList then searchBehind " has new name servers: ".toList readWas text
    else if kind = "phase".toList then readPhases text
    else none
  (found.map Prod.fst, found.map Prod.snd)

example : legacyValues "registrar".toList (some "a.nl changed registrar: X -> Y.".toList) =
    (some ['X'], some ['Y']) := by decide

/-! ## What the page shows -/

structure Shown where
  row : EventRow
  severity : Text
  source : Text
  before : Option Text
  after : Option Text
  kindText : Text
  sourceText : Text
  unitId : Option GroupId
  unit : Option Text
deriving DecidableEq

/-- The severity of a row, for an older one that of its kind. -/
def EventRow.severityOf (row : EventRow) : Text :=
  (truthyText row.severity).getD ((kindSeverity.lookup row.kind).getD "info".toList)

/-- `_event`, and the unit that the domain is in now. -/
def event (units : List (Text × GroupId)) (paths : List (GroupId × Text)) (row : EventRow) : Shown :=
  let source := (truthyText row.source).getD "registry".toList
  let values :=
    if row.before = none ∧ row.after = none then legacyValues row.kind row.detail
    else (row.before, row.after)
  let unitId := units.lookup row.domain
  { row
    severity := row.severityOf
    source
    before := values.1
    after := values.2
    kindText := (eventKindText.lookup row.kind).getD row.kind
    sourceText := (eventSourceText.lookup source).getD source
    unitId
    unit := unitId.bind fun unit => paths.lookup unit }

/-- `units_by_domain`. -/
def unitsByDomain (books : Books) : List (Text × GroupId) :=
  books.portfolio.domains.filterMap fun row => row.groupId.map fun unit => (row.domain, unit)

/-! ## Filters -/

/-- The filters of `query_events`; an empty one is none, but for the domains. -/
structure Filters where
  kinds : List Text
  sources : List Text
  domains : Option (List Text)
  text : Text
  since : Text
  till : Text
  severities : List Text
deriving DecidableEq

/-- `LIKE ? ESCAPE '\\'`: letters of ASCII are the same in either case. -/
def likeReading : Reading Char := ⟨'_', '%', some '\\', Char.toLower⟩

/-- The pattern of a text that stands anywhere. -/
def likePattern (text : Text) : Text :=
  '%' :: (text.flatMap fun char => if char ∈ ['\\', '%', '_'] then ['\\', char] else [char]) ++ ['%']

/-- The columns that a text is looked for in. -/
def EventRow.columns (row : EventRow) : List Text :=
  [row.domain, row.detail.getD [], row.before.getD [], row.after.getD [], row.actor.getD []]

/-- The clauses that do not name a kind or a source. -/
def Filters.base (filters : Filters) (row : EventRow) : Bool :=
  (filters.since = [] || filters.since ≤ row.atTime) &&
    (filters.till = [] || row.atTime ≤ filters.till) &&
    filters.domains.all (row.domain ∈ ·) &&
    (filters.text = [] || row.columns.any (likeReading.like (likePattern filters.text)))

private theorem itemsFrom_escaped (text rest : Text) {items : List (Item Char)}
    (read : likeReading.itemsFrom false rest = some items) :
    likeReading.itemsFrom false
      ((text.flatMap fun char => if char ∈ ['\\', '%', '_'] then ['\\', char] else [char]) ++ rest) =
        some (text.map .same ++ items) := by
  induction text with
  | nil => exact read
  | cons char text induction =>
      rw [List.flatMap_cons, List.append_assoc]
      by_cases special : char ∈ ['\\', '%', '_']
      · rw [if_pos special, List.cons_append, List.singleton_append, Reading.itemsFrom,
          if_pos (by rfl), Reading.itemsFrom, induction]
        rfl
      · have plain : likeReading.item char = .same char := by
          rw [Reading.item, if_neg fun same => special (by rw [same]; decide),
            if_neg fun same => special (by rw [same]; decide)]
        have unescaped : ¬ some char = likeReading.escape := fun same =>
          special (by rw [Option.some.inj same]; decide)
        rw [if_neg special, List.singleton_append, Reading.itemsFrom, if_neg unescaped, induction, plain]
        rfl

/-- A text is found wherever it stands, whatever the case of its letters in ASCII. -/
theorem like_likePattern (text column : Text) : likeReading.like (likePattern text) column = true ↔
    text.map Char.toLower <:+: column.map Char.toLower := by
  have items := @itemsFrom_escaped text ['%'] [.many] rfl
  rw [Reading.like, likePattern, List.cons_append, Reading.itemsFrom, if_neg (by decide), items]
  exact Reading.fits_infix

/-- `COALESCE(source, 'registry')`. -/
def EventRow.storedSource (row : EventRow) : Text := row.source.getD "registry".toList

def Filters.ofKind (filters : Filters) (row : EventRow) : Bool :=
  filters.kinds = [] || row.kind ∈ filters.kinds

def Filters.ofSource (filters : Filters) (row : EventRow) : Bool :=
  filters.sources = [] || row.storedSource ∈ filters.sources

def Filters.ofSeverity (filters : Filters) (row : EventRow) : Bool :=
  filters.severities = [] || row.severityOf ∈ filters.severities

/-! ## The query -/

/-- The rows of the change log; an id is that of one row. -/
structure ChangeLog where
  rows : List EventRow
  keyed : (rows.map EventRow.id).Nodup

/-- `ORDER BY at DESC, id DESC`. -/
def newer (first second : EventRow) : Bool :=
  second.atTime < first.atTime || (second.atTime = first.atTime && second.id ≤ first.id)

/-- `COUNT(*)` with `GROUP BY`. -/
def counts (key : EventRow → Text) (rows : List EventRow) : List (Text × ℕ) :=
  (fromKeys (rows.map key)).map fun value => (value, rows.countP (key · = value))

/-- The number for a value, zero where it is not among the counts. -/
def countOf (counts : List (Text × ℕ)) (value : Text) : ℕ := (counts.lookup value).getD 0

/-- `xs[start:stop]`. -/
def slice {α : Type} (start stop : ℤ) (values : List α) : List α :=
  let place (index : ℤ) : ℕ := if 0 ≤ index then index.toNat else (values.length + index).toNat
  (values.take (place stop)).drop (place start)

/-- What `query_events` returns. -/
structure Answer where
  events : List Shown
  total : ℕ
  kinds : List (Text × ℕ)
  sources : List (Text × ℕ)
deriving DecidableEq

/-- `query_events`. -/
def queryEvents (log : ChangeLog) (books : Books) (filters : Filters) (limit offset : ℤ) : Answer :=
  if filters.domains = some [] then ⟨[], 0, [], []⟩
  else
    let view := event (unitsByDomain books) books.paths
    let based := log.rows.filter filters.base
    let rows := (based.filter fun row => filters.ofKind row && filters.ofSource row).mergeSort newer
    let kinds := counts EventRow.kind (based.filter filters.ofSource)
    let sources := counts EventRow.storedSource (based.filter filters.ofKind)
    -- A severity is not stored on older rows, so it is not part of the query.
    if filters.severities = [] then ⟨(Sql.page limit offset rows).map view, rows.length, kinds, sources⟩
    else
      let rows := (rows.map view).filter (·.severity ∈ filters.severities)
      ⟨slice offset (offset + limit) rows, rows.length, kinds, sources⟩

/-! ## What the numbers say -/

def Filters.matches (filters : Filters) (row : EventRow) : Bool :=
  filters.base row && filters.ofKind row && filters.ofSource row && filters.ofSeverity row

/-- The numbers are what choosing a kind or a source shows, and the pages of a size are the rows that match,
    each once and the newest first. -/
structure Told (log : ChangeLog) (books : Books) (filters : Filters) : Prop where
  kinds : ∀ limit offset kind, countOf (queryEvents log books filters limit offset).kinds kind =
    (queryEvents log books { filters with kinds := [kind] } limit offset).total
  sources : ∀ limit offset source, countOf (queryEvents log books filters limit offset).sources source =
    (queryEvents log books { filters with sources := [source] } limit offset).total
  total : ∀ limit offset,
    (queryEvents log books filters limit offset).total = log.rows.countP filters.matches
  pages : ∀ size count : ℕ, log.rows.countP filters.matches ≤ count * size →
    ∃ rows : List EventRow, rows.Perm (log.rows.filter filters.matches) ∧
      rows.Pairwise (fun first second => newer first second = true) ∧ (rows.map EventRow.id).Nodup ∧
      ((List.range count).flatMap fun page =>
        (queryEvents log books filters size ((page * size : ℕ) : ℤ)).events) =
          rows.map (event (unitsByDomain books) books.paths)

section Query

variable {log : ChangeLog} {books : Books} {filters : Filters}

theorem countOf_counts (key : EventRow → Text) (rows : List EventRow) (value : Text) :
    countOf (counts key rows) value = rows.countP (key · = value) := by
  have found : ∀ values : List Text,
      (values.map fun value => (value, rows.countP (key · = value))).lookup value =
        if value ∈ values then some (rows.countP (key · = value)) else none := by
    intro values
    induction values with
    | nil => rfl
    | cons head values induction =>
        rw [List.map_cons, List.lookup_cons]
        by_cases same : value = head
        · subst same
          simp
        · simp [beq_false_of_ne same, same, induction]
  rw [countOf, counts, found]
  by_cases member : value ∈ fromKeys (rows.map key)
  · rw [if_pos member, Option.getD_some]
  · rw [if_neg member, Option.getD_none]
    symm
    rw [List.countP_eq_zero]
    intro row isRow same
    exact member (mem_fromKeys.mpr (List.mem_map.mpr ⟨row, isRow, of_decide_eq_true same⟩))

theorem base_of_no_domains (none : filters.domains = some []) (row : EventRow) :
    filters.base row = false := by
  simp [Filters.base, none]

/-- The rows that match, the newest first. -/
def matching (log : ChangeLog) (filters : Filters) : List EventRow :=
  (((log.rows.filter filters.base).filter fun row => filters.ofKind row && filters.ofSource row).mergeSort
    newer).filter filters.ofSeverity

private theorem matching_of_no_domains (none : filters.domains = some []) :
    matching log filters = [] := by
  have empty : log.rows.filter filters.base = [] :=
    List.filter_eq_nil_iff.mpr fun row _ => Bool.eq_false_iff.mp (base_of_no_domains none row)
  rw [matching, empty, List.filter_nil, List.mergeSort_nil, List.filter_nil]

theorem counts_queryEvents (some : filters.domains ≠ some []) (limit offset : ℤ) :
    (queryEvents log books filters limit offset).kinds =
        counts EventRow.kind ((log.rows.filter filters.base).filter filters.ofSource) ∧
      (queryEvents log books filters limit offset).sources =
        counts EventRow.storedSource ((log.rows.filter filters.base).filter filters.ofKind) := by
  rw [queryEvents, if_neg some]
  dsimp only
  split_ifs <;> exact ⟨rfl, rfl⟩

private theorem filter_map_event (units : List (Text × GroupId)) (paths : List (GroupId × Text))
    (given : filters.severities ≠ []) (rows : List EventRow) :
    (rows.map (event units paths)).filter (·.severity ∈ filters.severities) =
      (rows.filter filters.ofSeverity).map (event units paths) := by
  rw [List.filter_map]
  congr 1
  refine List.filter_congr fun row _ => ?_
  rw [Filters.ofSeverity, decide_eq_false given, Bool.false_or]
  rfl

private theorem filter_ofSeverity_of_none (none : filters.severities = []) (rows : List EventRow) :
    rows.filter filters.ofSeverity = rows :=
  List.filter_eq_self.mpr fun row _ => by simp [Filters.ofSeverity, none]

/-- The answer counts the rows that match, whichever way the severity is looked at. -/
theorem total_queryEvents (limit offset : ℤ) :
    (queryEvents log books filters limit offset).total = (matching log filters).length := by
  by_cases none : filters.domains = some []
  · rw [matching_of_no_domains none, queryEvents, if_pos none]
    rfl
  · rw [queryEvents, if_neg none, matching]
    dsimp only
    split_ifs with free
    · rw [filter_ofSeverity_of_none free]
    · dsimp only
      rw [filter_map_event _ _ free, List.length_map]

theorem events_queryEvents (size start : ℕ) :
    (queryEvents log books filters size start).events =
      (((matching log filters).drop start).take size).map (event (unitsByDomain books) books.paths) := by
  by_cases none : filters.domains = some []
  · rw [matching_of_no_domains none, queryEvents, if_pos none, List.drop_nil, List.take_nil]
    rfl
  · rw [queryEvents, if_neg none, matching]
    dsimp only
    split_ifs with free
    · rw [filter_ofSeverity_of_none free, Sql.page, if_pos (Int.natCast_nonneg size)]
      rfl
    · dsimp only
      rw [filter_map_event _ _ free, slice, List.map_take, List.map_drop]
      dsimp only
      rw [if_pos (Int.natCast_nonneg start), if_pos (by omega), List.drop_take]
      congr 1
      omega

theorem matching_perm : (matching log filters).Perm (log.rows.filter filters.matches) := by
  refine ((List.mergeSort_perm _ _).filter _).trans (List.Perm.of_eq ?_)
  rw [List.filter_filter, List.filter_filter]
  refine List.filter_congr fun row _ => ?_
  rw [Filters.matches]
  cases filters.base row <;> cases filters.ofKind row <;> cases filters.ofSource row <;>
    cases filters.ofSeverity row <;> rfl

private theorem newer_iff {first second : EventRow} : newer first second = true ↔
    second.atTime < first.atTime ∨ second.atTime = first.atTime ∧ second.id ≤ first.id := by
  rw [newer, Bool.or_eq_true, Bool.and_eq_true, decide_eq_true_eq, decide_eq_true_eq, decide_eq_true_eq]

theorem matching_pairwise :
    (matching log filters).Pairwise fun first second => newer first second = true := by
  refine (List.pairwise_mergeSort (fun first second third => ?_) (fun first second => ?_) _).filter _
  · rw [newer_iff, newer_iff, newer_iff]
    rintro (later | ⟨same, after⟩) (later' | ⟨same', after'⟩)
    · exact .inl (lt_trans later' later)
    · exact .inl (same' ▸ later)
    · exact .inl (same ▸ later')
    · exact .inr ⟨same'.trans same, after'.trans after⟩
  · rw [Bool.or_eq_true, newer_iff, newer_iff]
    rcases lt_trichotomy first.atTime second.atTime with later | same | later
    · exact .inr (.inl later)
    · exact (le_total second.id first.id).imp (fun after => .inr ⟨same.symm, after⟩) fun after =>
        .inr ⟨same, after⟩
    · exact .inl (.inl later)

theorem total_eq_countP (limit offset : ℤ) :
    (queryEvents log books filters limit offset).total = log.rows.countP filters.matches := by
  rw [total_queryEvents, matching_perm.length_eq, List.countP_eq_length_filter]

theorem countOf_kinds (limit offset : ℤ) (kind : Text) :
    countOf (queryEvents log books filters limit offset).kinds kind =
      log.rows.countP fun row => filters.base row && filters.ofSource row && (row.kind = kind : Bool) := by
  by_cases none : filters.domains = some []
  · rw [queryEvents, if_pos none]
    exact (List.countP_eq_zero.mpr fun row _ => by simp [base_of_no_domains none]).symm
  · rw [(counts_queryEvents none limit offset).1, countOf_counts, List.filter_filter, List.countP_filter]
    refine List.countP_congr fun row _ => ?_
    cases filters.base row <;> cases filters.ofSource row <;> simp

theorem countOf_sources (limit offset : ℤ) (source : Text) :
    countOf (queryEvents log books filters limit offset).sources source =
      log.rows.countP fun row =>
        filters.base row && filters.ofKind row && (row.storedSource = source : Bool) := by
  by_cases none : filters.domains = some []
  · rw [queryEvents, if_pos none]
    exact (List.countP_eq_zero.mpr fun row _ => by simp [base_of_no_domains none]).symm
  · rw [(counts_queryEvents none limit offset).2, countOf_counts, List.filter_filter, List.countP_filter]
    refine List.countP_congr fun row _ => ?_
    cases filters.base row <;> cases filters.ofKind row <;> simp

private theorem countP_and_iff {first second : EventRow → Bool} (rows : List EventRow) :
    rows.countP first = rows.countP (fun row => first row && second row) ↔
      ∀ row ∈ rows, first row = true → second row = true := by
  have parts : rows.countP (fun row => first row && second row) =
      ((rows.filter first).filter second).length := by
    rw [List.filter_filter, List.countP_eq_length_filter]
    congr 1
    exact List.filter_congr fun row _ => Bool.and_comm _ _
  rw [parts, List.countP_eq_length_filter, eq_comm, List.length_filter_eq_length_iff]
  constructor
  · exact fun every row member holds => every row (List.mem_filter.mpr ⟨member, holds⟩)
  · exact fun every row member =>
      every row (List.mem_filter.mp member).1 (List.mem_filter.mp member).2

theorem pages_queryEvents {size count : ℕ} (enough : log.rows.countP filters.matches ≤ count * size) :
    ((List.range count).flatMap fun page =>
      (queryEvents log books filters size ((page * size : ℕ) : ℤ)).events) =
        (matching log filters).map (event (unitsByDomain books) books.paths) := by
  have short : (matching log filters).length ≤ count * size := by
    rw [matching_perm.length_eq, ← List.countP_eq_length_filter]
    exact enough
  have pages := Sql.flatMap_pages (matching log filters) size count
  rw [List.take_of_length_le short] at pages
  calc ((List.range count).flatMap fun page =>
        (queryEvents log books filters size ((page * size : ℕ) : ℤ)).events)
      = (List.range count).flatMap fun page =>
          (((matching log filters).drop (page * size)).take size).map
            (event (unitsByDomain books) books.paths) :=
        List.flatMap_congr fun page _ => events_queryEvents size (page * size)
    _ = ((List.range count).flatMap fun page =>
          ((matching log filters).drop (page * size)).take size).map
            (event (unitsByDomain books) books.paths) := List.map_flatMap.symm
    _ = (matching log filters).map (event (unitsByDomain books) books.paths) := by rw [pages]

end Query

/-- The numbers for kinds and sources are what choosing one shows exactly if every row that passes the other
    filters, and that on kinds or that on sources, has one of the severities asked for. -/
theorem queryEvents_told (log : ChangeLog) (books : Books) (filters : Filters) :
    Told log books filters ↔ ∀ row ∈ log.rows, filters.base row = true →
      filters.ofKind row = true ∨ filters.ofSource row = true → filters.ofSeverity row = true := by
  have byKind : ∀ kind row, ({ filters with kinds := [kind] } : Filters).matches row =
      (filters.base row && filters.ofSource row && (row.kind = kind : Bool) &&
        filters.ofSeverity row) := by
    intro kind row
    have chosen : ({ filters with kinds := [kind] } : Filters).ofKind row = (row.kind = kind : Bool) := by
      simp [Filters.ofKind]
    rw [Filters.matches, chosen, Bool.and_right_comm (filters.base row)]
    rfl
  have bySource : ∀ source row, ({ filters with sources := [source] } : Filters).matches row =
      (filters.base row && filters.ofKind row && (row.storedSource = source : Bool) &&
        filters.ofSeverity row) := by
    intro source row
    have chosen : ({ filters with sources := [source] } : Filters).ofSource row =
        (row.storedSource = source : Bool) := by
      simp [Filters.ofSource]
    rw [Filters.matches, chosen]
    rfl
  constructor
  · intro told row member based chosen
    rcases chosen with ofKind | ofSource
    · have same := told.sources 0 0 row.storedSource
      rw [countOf_sources, total_eq_countP, funext (bySource row.storedSource), countP_and_iff] at same
      exact same row member (by rw [based, ofKind]; simp)
    · have same := told.kinds 0 0 row.kind
      rw [countOf_kinds, total_eq_countP, funext (byKind row.kind), countP_and_iff] at same
      exact same row member (by rw [based, ofSource]; simp)
  · intro every
    constructor
    · intro limit offset kind
      rw [countOf_kinds, total_eq_countP, funext (byKind kind), countP_and_iff]
      intro row member holds
      simp only [Bool.and_eq_true] at holds
      exact every row member holds.1.1 (.inr holds.1.2)
    · intro limit offset source
      rw [countOf_sources, total_eq_countP, funext (bySource source), countP_and_iff]
      intro row member holds
      simp only [Bool.and_eq_true] at holds
      exact every row member holds.1.1 (.inl holds.1.2)
    · exact fun limit offset => total_eq_countP limit offset
    · intro size count enough
      refine ⟨matching log filters, matching_perm, matching_pairwise, ?_, pages_queryEvents enough⟩
      exact (matching_perm.map EventRow.id).nodup_iff.mpr (log.keyed.sublist (List.filter_sublist.map _))

/-- A change of high severity is counted with its kind, though only medium ones are asked for. -/
theorem severity_uncounted :
    ¬ Told ⟨[⟨1, "example.nl".toList, "2026-01-01".toList, "registrar".toList, none, none, none, none, none,
        none⟩], List.nodup_singleton _⟩ Books.empty
      ⟨[], [], none, [], [], [], ["medium".toList]⟩ := by
  intro told
  have same := told.kinds 100 0 "registrar".toList
  rw [countOf_kinds, total_eq_countP] at same
  exact absurd same (by decide)

end Events
end DomainPortfolio
end DomainLens
