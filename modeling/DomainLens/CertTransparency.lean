import DomainLens.JsScan
import DomainLens.Library.Counting

/-!
# Certificates in the public logs

The logs tell which authorities issued certificates for a domain, the CAA records which ones may.  The file
embeds how the two are compared, and settles when an authority is told of exactly if it issued what the
records forbid, and when the certificates are counted right.
-/

namespace DomainLens
namespace CertTransparency

open Counting JsScan Python

/-! ## The issuers -/

/-- `_ISSUER_TO_CAA`. -/
def issuerToCaa : List (Text × List Text) :=
  [("let's encrypt", ["letsencrypt.org"]),
    ("google trust services", ["pki.goog"]),
    ("digicert", ["digicert.com"]),
    ("sectigo", ["sectigo.com"]),
    ("comodo", ["sectigo.com", "comodoca.com"]),
    ("globalsign", ["globalsign.com"]),
    ("godaddy", ["godaddy.com"]),
    ("starfield", ["starfieldtech.com"]),
    ("amazon", ["amazon.com", "amazontrust.com", "awstrust.com"]),
    ("buypass", ["buypass.com"]),
    ("zerossl", ["sectigo.com", "zerossl.com"]),
    ("entrust", ["entrust.net"]),
    ("actalis", ["actalis.it"]),
    ("certum", ["certum.pl"]),
    ("quovadis", ["quovadisglobal.com"]),
    ("microsoft", ["microsoft.com"]),
    ("apple public ev", ["apple.com"]),
    ("cloudflare", ["pki.goog", "digicert.com", "letsencrypt.org"])].map fun entry =>
      (entry.1.toList, entry.2.map String.toList)

/-- `_issuer_caa_domains`. -/
def issuerCaaDomains (issuer : Text) : Option (List Text) :=
  (issuerToCaa.find? fun entry => decide (entry.1 <:+: lower issuer)).map Prod.snd

/-! ## The records -/

/-- What `_CAA_ISSUE_RE` finds in a record: which of the two properties it is, and its first group. -/
structure Property where
  wild : Bool
  value : Text
deriving DecidableEq

/-- What follows a word that is at the front, without regard to case. -/
def afterWord : Text → Text → Option Text
  | [], text => some text
  | _ :: _, [] => none
  | letter :: word, char :: text =>
      if char ∈ caseVariants letter then afterWord word text else none

/-- What follows white space that is at the front. -/
def afterSpace (text : Text) : Option Text :=
  if text.head?.any isSpace then some (lstrip text) else none

/-- `\s+"([^"]*)"` at the front. -/
def quotedValue (text : Text) : Option Text :=
  match afterSpace text with
  | some ('"' :: quoted) => if '"' ∈ quoted then some (quoted.takeWhile (· ≠ '"')) else none
  | _ => none

/-- `_CAA_ISSUE_RE.match`. -/
def matchIssue (record : Text) : Option Property := do
  let (_, flagged) ← digitsAt (lstrip record)
  let tagged ← afterSpace flagged
  let rest ← afterWord "issue".toList tagged
  match afterWord "wild".toList rest with
  | some rest => (quotedValue rest).map (⟨true, ·⟩)
  | none => (quotedValue rest).map (⟨false, ·⟩)

/-- The issue properties of some records. -/
def properties (records : List Text) : List Property :=
  records.filterMap fun record => matchIssue (strip record)

/-- The identifier that is added for a property, if one is. -/
def Property.identifier (property : Property) : Option Text :=
  let value := strip property.value
  if value ≠ [] ∧ value ≠ [';'] then some (lower (strip (value.takeWhile (· ≠ ';')))) else none

/-- `caa_allowed_issuers`. -/
def caaAllowedIssuers (records : List Text) : Option (List Text) :=
  if properties records = [] then none
  else some (fromKeys ((properties records).filterMap Property.identifier))

example : caaAllowedIssuers ["0 issue \"ca.test; account=7\"".toList, "0 issuewild \";\"".toList] =
    some ["ca.test".toList] := by decide +kernel

/-! ## The rows -/

structure Row where
  issuerName : Option Text
  commonName : Option Text
  nameValue : Option Text
  notBefore : Option Text
  notAfter : Option Text
  serialNumber : Option Text
  id : Option Int

/-- What tells a certificate from the others. -/
inductive Number where
  | serial (number : Text)
  | id (number : Int)
deriving DecidableEq

/-- `row.get("serial_number") or row.get("id")`. -/
def Row.number (row : Row) : Option Number :=
  match row.serialNumber.filter (· ≠ []) with
  | some serial => some (.serial serial)
  | none => row.id.map .id

/-- `(row.get("issuer_name") or "").strip()`. -/
def Row.issuer (row : Row) : Text := strip (row.issuerName.getD [])

/-- Microseconds since the beginning of the year 1. -/
abbrev Time := Int

def day : Time := 24 * 60 * 60 * 1000000

variable (fromisoformat : Text → Option Time)

/-- `_parse_ts`; `fromisoformat` is what the clock shows that `datetime.fromisoformat` reads. -/
def parseTs (value : Option Text) : Option Time :=
  fromisoformat ((value.getD "None".toList).flatMap fun char =>
    if char = 'Z' then "+00:00".toList else [char])

/-- Whether a row is passed over for when it was issued. -/
def Row.isRecent (cutoff : Time) (row : Row) : Bool :=
  match parseTs fromisoformat row.notBefore with
  | none => false
  | some issued => !(issued < cutoff)

/-! ## The analysis -/

/-- An entry of `recent`. -/
structure Entry where
  issuer : Text
  commonName : Option Text
  notBefore : Option Text
  notAfter : Option Text
  serial : Option Text

def Row.entry (row : Row) : Entry :=
  ⟨row.issuer, row.commonName, row.notBefore, row.notAfter, row.serialNumber⟩

/-- An entry of `issuers`. -/
structure Issued where
  issuer : Text
  certificates : Nat

/-- An entry of `unexpected`. -/
structure Unexpected where
  issuer : Text
  certificates : Nat
  caaIdentifier : Text

inductive State where
  | measured
  | unmeasured
deriving DecidableEq

/-- The result of `analyse`. -/
structure Analysis where
  state : State
  days : Int
  recent : List Entry
  issuers : List Issued
  unexpected : List Unexpected
  unrecognisedIssuers : List Text
  caaAllowed : Option (List Text)
  reason : Option Text

/-- The variables of the loop over the rows. -/
structure Tally where
  seenSerial : List (Option Number)
  recent : List Entry
  byIssuer : List (Text × Nat)

/-- One turn of the loop over the rows. -/
def Tally.add (cutoff : Time) (tally : Tally) (row : Row) : Tally :=
  if !row.isRecent fromisoformat cutoff then tally
  else if row.number ∈ tally.seenSerial then tally
  else {
    seenSerial := row.number :: tally.seenSerial
    recent := tally.recent ++ [row.entry]
    byIssuer := raise tally.byIssuer row.issuer }

/-- What is told of an issuer that the allowed ones do not have. -/
def unexpectedOf (allowed : List Text) (issued : Text × Nat) : Option Unexpected :=
  (issuerCaaDomains issued.1).bind fun domains =>
    if domains.any (· ∈ allowed) then none
    else some ⟨issued.1, issued.2, (domains.insertionSort (· ≤ ·)).headI⟩

/-- What there is before the rows are read. -/
def Analysis.start (days : Int) (reason : Text) : Analysis :=
  ⟨.unmeasured, days, [], [], [], [], none, some reason⟩

/-- What is made of the rows that were read. -/
def Analysis.measured (tally : Tally) (records : List Text) (days : Int) : Analysis :=
  let summary : Analysis := {
    state := .measured
    days
    recent := tally.recent
    issuers := (tally.byIssuer.insertionSort fun left right => right.2 ≤ left.2).map
      fun issued => ⟨issued.1, issued.2⟩
    unexpected := []
    unrecognisedIssuers := []
    caaAllowed := (caaAllowedIssuers records).map (·.insertionSort (· ≤ ·))
    reason := none }
  match caaAllowedIssuers records with
  | none => { summary with
      reason := some ("No CAA issue property, so any authority may issue and " ++
        "no certificate here is unexpected").toList }
  | some allowed => { summary with
      unexpected := tally.byIssuer.filterMap (unexpectedOf allowed)
      unrecognisedIssuers := (tally.byIssuer.filter fun issued =>
        (issuerCaaDomains issued.1).isNone).map Prod.fst }

/-- `analyse`; nothing where the window begins before the calendar does. -/
def analyse (rows : Option (List Row)) (records : List Text) (days : Int) (now : Time)
    (sourceError : Option Text) : Option Analysis :=
  let cutoff := now - max 1 days * day
  if cutoff < 0 then none
  else match sourceError.filter (· ≠ []), rows with
    | some error, _ => some (.start days error)
    | none, none => some (.start days "Certificate Transparency logs could not be read".toList)
    | none, some rows =>
        some (.measured (rows.foldl (Tally.add fromisoformat cutoff) ⟨[], [], []⟩) records days)

/-! ## What the records say -/

/-- The names a row's certificate is for. -/
def Row.names (row : Row) : List Text :=
  (((row.nameValue.getD []).splitOn '\n' ++ [row.commonName.getD []]).map strip).filter (· ≠ [])

/-- A name of the form `*.…`. -/
def isWildcard (name : Text) : Bool := "*.".toList.isPrefixOf name

/-- Whether the records have the property for ordinary names, or the one for wildcard names. -/
def hasProperty (records : List Text) (wild : Bool) : Bool :=
  (properties records).any (·.wild == wild)

/-- The identifiers that the properties of one kind name. -/
def identifiersOf (records : List Text) (wild : Bool) : List Text :=
  ((properties records).filter (·.wild == wild)).filterMap Property.identifier

/-- The identifiers that may issue for names of a kind, where these are restricted. -/
def governing (records : List Text) (wild : Bool) : Option (List Text) :=
  if wild ∧ hasProperty records true then some (identifiersOf records true)
  else if hasProperty records false then some (identifiersOf records false)
  else none

/-- An authority with some identifiers may not issue for a name. -/
def Forbids (records : List Text) (domains : List Text) (name : Text) : Prop :=
  ∃ allowed ∈ governing records (isWildcard name), ∀ domain ∈ domains, domain ∉ allowed

/-- A property of one kind names one of the identifiers. -/
def Names (records : List Text) (wild : Bool) (domains : List Text) : Prop :=
  ∃ domain ∈ domains, domain ∈ identifiersOf records wild

section Records

variable {records domains : List Text} {name : Text} {wild : Bool}

private theorem not_names_of_absent (absent : hasProperty records wild = false) :
    ¬ Names records wild domains := by
  rintro ⟨domain, -, member⟩
  obtain ⟨property, isProperty, -⟩ := List.mem_filterMap.mp member
  obtain ⟨isProperty, isKind⟩ := List.mem_filter.mp isProperty
  exact absurd isKind (by simpa [hasProperty] using List.any_eq_false.mp absent property isProperty)

private theorem forbids_iff : Forbids records domains name ↔
    if isWildcard name ∧ hasProperty records true then ¬ Names records true domains
    else hasProperty records false ∧ ¬ Names records false domains := by
  rw [Forbids, governing]
  split
  · simp [Names]
  · split
    · rename_i present
      simp [Names, present]
    · rename_i absent
      simp [absent]

private theorem forbids_iff_of_both (ordinary : hasProperty records false = true)
    (wildcard : hasProperty records true = true) :
    Forbids records domains name ↔ ¬ Names records (isWildcard name) domains := by
  rw [forbids_iff]
  cases isWildcard name <;> simp [ordinary, wildcard]

private theorem forbids_of_unnamed (present : hasProperty records false ∨ hasProperty records true)
    (notFalse : ¬ Names records false domains) (notTrue : ¬ Names records true domains)
    (restricted : hasProperty records false ∨ isWildcard name) : Forbids records domains name := by
  rw [forbids_iff]
  split
  · exact notTrue
  · rename_i unwild
    refine ⟨restricted.elim id fun wildcard => ?_, notFalse⟩
    exact present.resolve_right fun wild => unwild ⟨wildcard, wild⟩

private theorem unnamed_of_forbids (forbidden : Forbids records domains name)
    (apart : hasProperty records false → hasProperty records true →
      Names records (!isWildcard name) domains → Names records (isWildcard name) domains) :
    (hasProperty records false ∨ hasProperty records true) ∧
      ¬ Names records false domains ∧ ¬ Names records true domains := by
  cases ordinary : hasProperty records false with
  | false =>
      rw [forbids_iff, ordinary] at forbidden
      split at forbidden
      · rename_i wildcard
        exact ⟨.inr wildcard.2, not_names_of_absent ordinary, forbidden⟩
      · cases forbidden.1
  | true =>
      refine ⟨.inl rfl, ?_⟩
      cases wildcard : hasProperty records true with
      | false =>
          rw [forbids_iff, wildcard, if_neg (by simp)] at forbidden
          exact ⟨forbidden.2, not_names_of_absent wildcard⟩
      | true =>
          have unnamed := (forbids_iff_of_both ordinary wildcard).mp forbidden
          have other := mt (apart ordinary wildcard) unnamed
          cases kind : isWildcard name with
          | false =>
              rw [kind] at unnamed other
              exact ⟨unnamed, other⟩
          | true =>
              rw [kind] at unnamed other
              exact ⟨other, unnamed⟩

private theorem properties_ne_nil_iff :
    properties records ≠ [] ↔ hasProperty records false = true ∨ hasProperty records true = true := by
  constructor
  · intro some
    obtain ⟨property, isProperty⟩ := List.exists_mem_of_ne_nil _ some
    cases kind : property.wild with
    | false => exact .inl (List.any_eq_true.mpr ⟨property, isProperty, by simp [kind]⟩)
    | true => exact .inr (List.any_eq_true.mpr ⟨property, isProperty, by simp [kind]⟩)
  · rintro (present | present) none <;> simp [hasProperty, none] at present

private theorem any_mem_allowed_iff {allowed : List Text}
    (found : caaAllowedIssuers records = some allowed) :
    domains.any (· ∈ allowed) ↔ Names records false domains ∨ Names records true domains := by
  have merged (domain : Text) : domain ∈ allowed ↔
      domain ∈ identifiersOf records false ∨ domain ∈ identifiersOf records true := by
    rw [caaAllowedIssuers] at found
    split at found
    · cases found
    · obtain rfl := Option.some.inj found
      simp only [mem_fromKeys, identifiersOf, List.mem_filterMap, List.mem_filter, beq_iff_eq]
      constructor
      · rintro ⟨property, isProperty, named⟩
        cases kind : property.wild with
        | false => exact .inl ⟨property, ⟨isProperty, kind⟩, named⟩
        | true => exact .inr ⟨property, ⟨isProperty, kind⟩, named⟩
      · rintro (⟨property, ⟨isProperty, -⟩, named⟩ | ⟨property, ⟨isProperty, -⟩, named⟩)
        · exact ⟨property, isProperty, named⟩
        · exact ⟨property, isProperty, named⟩
  simp only [List.any_eq_true, decide_eq_true_eq, merged, Names, and_or_left, exists_or]

end Records

/-! ## The rows that count -/

variable {fromisoformat}

section Loop

variable {cutoff : Time}

/-- The rows that are counted: the first of every number among those in the window. -/
def keptRows (fromisoformat : Text → Option Time) (cutoff : Time) (seen : List (Option Number))
    (rows : List Row) : List Row :=
  firsts Row.number seen (rows.filter (Row.isRecent fromisoformat cutoff))

private theorem foldl_add (rows : List Row) (tally : Tally) :
    (rows.foldl (Tally.add fromisoformat cutoff) tally).recent = tally.recent ++
        (keptRows fromisoformat cutoff tally.seenSerial rows).map Row.entry ∧
      (rows.foldl (Tally.add fromisoformat cutoff) tally).byIssuer =
        ((keptRows fromisoformat cutoff tally.seenSerial rows).map Row.issuer).foldl raise
          tally.byIssuer := by
  induction rows generalizing tally with
  | nil => exact ⟨(List.append_nil _).symm, rfl⟩
  | cons row rows induction =>
      rw [List.foldl_cons, keptRows]
      by_cases recent : row.isRecent fromisoformat cutoff
      · rw [List.filter_cons_of_pos recent, firsts]
        by_cases old : row.number ∈ tally.seenSerial
        · rw [if_pos old, Tally.add, recent, if_neg (by decide), if_pos old]
          exact induction tally
        · rw [if_neg old, Tally.add, recent, if_neg (by decide), if_neg old]
          refine (induction _).imp (fun told => told.trans ?_) fun told => told.trans ?_
          · exact List.append_assoc _ _ _
          · rfl
      · rw [List.filter_cons_of_neg recent, Tally.add, Bool.eq_false_of_not_eq_true recent]
        exact induction tally

end Loop

/-! ## When the analysis is right -/

def windowStart (days : Int) (now : Time) : Time := now - max 1 days * day

/-- How many certificates an issuer has in the window. -/
def certificates (fromisoformat : Text → Option Time) (cutoff : Time) (rows : List Row)
    (issuer : Text) : Nat :=
  keysIn Row.number Row.issuer (rows.filter (Row.isRecent fromisoformat cutoff)) issuer

/-- An analysis tells of the recognised issuers that issued in the window what the records forbid, and
counts every certificate in the window once. -/
structure Judges (fromisoformat : Text → Option Time) (cutoff : Time) (rows : List Row)
    (records : List Text) (analysis : Analysis) : Prop where
  listed : ∀ issuer domains, issuerCaaDomains issuer = some domains →
    ((∃ told ∈ analysis.unexpected, told.issuer = issuer) ↔
      ∃ row ∈ rows, row.isRecent fromisoformat cutoff ∧ row.issuer = issuer ∧
        ∃ name ∈ row.names, Forbids records domains name)
  counted : ∀ issuer number, ⟨issuer, number⟩ ∈ analysis.issuers ↔
    0 < number ∧ number = certificates fromisoformat cutoff rows issuer
  once : (analysis.issuers.map Issued.issuer).Nodup
  told : ∀ told ∈ analysis.unexpected,
    told.certificates = certificates fromisoformat cutoff rows told.issuer

/-- What the rows and the records are like where the analysis is right: the window begins within the
calendar, no two issuers share a number, and the issuers that only one property names, or none, are those
for which the kind of name does not matter. -/
structure Plain (fromisoformat : Text → Option Time) (days : Int) (now : Time) (rows : List Row)
    (records : List Text) : Prop where
  begins : 0 ≤ windowStart days now
  numbered : ∀ left ∈ rows, left.isRecent fromisoformat (windowStart days now) →
    ∀ right ∈ rows, right.isRecent fromisoformat (windowStart days now) →
      left.number = right.number → left.issuer = right.issuer
  apart : hasProperty records false → hasProperty records true →
    ∀ row ∈ rows, row.isRecent fromisoformat (windowStart days now) →
      ∀ domains, issuerCaaDomains row.issuer = some domains → ∀ name ∈ row.names,
        Names records (!isWildcard name) domains → Names records (isWildcard name) domains
  governed : (hasProperty records false ∨ hasProperty records true) →
    ∀ row ∈ rows, row.isRecent fromisoformat (windowStart days now) →
      ∀ domains, issuerCaaDomains row.issuer = some domains →
        ¬ Names records false domains → ¬ Names records true domains →
          ∃ other ∈ rows, other.isRecent fromisoformat (windowStart days now) ∧
            other.issuer = row.issuer ∧
              ∃ name ∈ other.names, hasProperty records false ∨ isWildcard name

section Verdict

variable {rows : List Row} {records : List Text} {days : Int} {now : Time}

/-- The issuers of the rows that are counted, one for each row. -/
private def keptIssuers (fromisoformat : Text → Option Time) (cutoff : Time) (rows : List Row) :
    List Text :=
  (keptRows fromisoformat cutoff [] rows).map Row.issuer

private theorem issuers_measured (tally : Tally) :
    (Analysis.measured tally records days).issuers =
      (tally.byIssuer.insertionSort fun left right => right.2 ≤ left.2).map
        fun issued => ⟨issued.1, issued.2⟩ := by
  rw [Analysis.measured]
  cases caaAllowedIssuers records <;> rfl

private theorem unexpected_measured (tally : Tally) :
    (Analysis.measured tally records days).unexpected = (caaAllowedIssuers records).elim []
      fun allowed => tally.byIssuer.filterMap (unexpectedOf allowed) := by
  rw [Analysis.measured]
  cases caaAllowedIssuers records <;> rfl

private theorem analyse_of_begins (begins : 0 ≤ windowStart days now) :
    ∃ counts, counts.byIssuer = tally (keptIssuers fromisoformat (windowStart days now) rows) ∧
      analyse fromisoformat (some rows) records days now none =
        some (.measured counts records days) :=
  ⟨_, (foldl_add rows ⟨[], [], []⟩).2, if_neg (not_lt_of_ge begins)⟩

private theorem begins_of_analyse {analysis : Analysis}
    (analysed : analyse fromisoformat (some rows) records days now none = some analysis) :
    0 ≤ windowStart days now := by
  by_contra early
  have raised : analyse fromisoformat (some rows) records days now none = none :=
    if_pos (lt_of_not_ge early)
  cases raised.symm.trans analysed

variable {cutoff : Time} {issuer : Text} {domains : List Text}

private theorem mem_issuers_iff {number : Nat} {groups : List Text} :
    (⟨issuer, number⟩ : Issued) ∈ ((tally groups).insertionSort
        fun left right => right.2 ≤ left.2).map (fun issued => ⟨issued.1, issued.2⟩) ↔
      issuer ∈ groups ∧ number = groups.count issuer := by
  refine Iff.trans ?_ mem_tally
  rw [List.mem_map]
  constructor
  · rintro ⟨issued, member, same⟩
    obtain ⟨rfl, rfl⟩ := Issued.mk.inj same
    exact (List.mem_insertionSort _).mp member
  · exact fun member => ⟨_, (List.mem_insertionSort _).mpr member, rfl⟩

private theorem forall_count_iff :
    (∀ issuer, (keptIssuers fromisoformat cutoff rows).count issuer =
      certificates fromisoformat cutoff rows issuer) ↔
      ∀ left ∈ rows, left.isRecent fromisoformat cutoff → ∀ right ∈ rows,
        right.isRecent fromisoformat cutoff →
          left.number = right.number → left.issuer = right.issuer := by
  refine Iff.trans forall_count_firsts_eq_iff ?_
  simp only [List.mem_filter, and_imp]

private theorem mem_unexpected_iff (recognised : issuerCaaDomains issuer = some domains)
    {groups : List Text} :
    (∃ told ∈ (caaAllowedIssuers records).elim [] fun allowed =>
        (tally groups).filterMap (unexpectedOf allowed), told.issuer = issuer) ↔
      issuer ∈ groups ∧ (hasProperty records false ∨ hasProperty records true) ∧
        ¬ Names records false domains ∧ ¬ Names records true domains := by
  rw [← properties_ne_nil_iff, ← not_or]
  cases found : caaAllowedIssuers records with
  | none =>
      have none : properties records = [] := by
        by_contra some
        rw [caaAllowedIssuers, if_neg some] at found
        cases found
      simp [none]
  | some allowed =>
      have some : properties records ≠ [] := by
        intro none
        rw [caaAllowedIssuers, if_pos none] at found
        cases found
      rw [← any_mem_allowed_iff found, Option.elim_some]
      constructor
      · rintro ⟨told, member, rfl⟩
        obtain ⟨issued, isIssued, member⟩ := List.mem_filterMap.mp member
        obtain ⟨known, isKnown, member⟩ := Option.bind_eq_some_iff.mp member
        split at member
        · cases member
        · rename_i apart
          obtain rfl := Option.some.inj member
          obtain rfl := Option.some.inj (isKnown.symm.trans recognised)
          exact ⟨(mem_tally.mp isIssued).1, some, apart⟩
      · rintro ⟨isGroup, -, apart⟩
        exact ⟨_, List.mem_filterMap.mpr ⟨_, mem_tally.mpr ⟨isGroup, rfl⟩,
          Option.bind_eq_some_iff.mpr ⟨domains, recognised, if_neg apart⟩⟩, rfl⟩

private theorem certificates_of_mem_unexpected {groups : List Text} {told : Unexpected}
    (member : told ∈ (caaAllowedIssuers records).elim [] fun allowed =>
      (tally groups).filterMap (unexpectedOf allowed)) :
    told.certificates = groups.count told.issuer := by
  cases found : caaAllowedIssuers records with
  | none =>
      rw [found] at member
      cases member
  | some allowed =>
      rw [found] at member
      obtain ⟨issued, isIssued, member⟩ := List.mem_filterMap.mp member
      obtain ⟨known, -, member⟩ := Option.bind_eq_some_iff.mp member
      split at member
      · cases member
      · obtain rfl := Option.some.inj member
        exact (mem_tally.mp isIssued).2

private theorem nodup_issuers {groups : List Text} :
    (((((tally groups).insertionSort fun left right => right.2 ≤ left.2).map
      fun issued => (⟨issued.1, issued.2⟩ : Issued))).map Issued.issuer).Nodup := by
  rw [List.map_map]
  exact (((List.perm_insertionSort _ _).map Prod.fst).nodup_iff).mpr nodup_tally

private theorem mem_keptIssuers_iff (numbered : ∀ left ∈ rows, left.isRecent fromisoformat cutoff →
      ∀ right ∈ rows, right.isRecent fromisoformat cutoff → left.number = right.number →
        left.issuer = right.issuer) :
    issuer ∈ keptIssuers fromisoformat cutoff rows ↔
      ∃ row ∈ rows, row.isRecent fromisoformat cutoff ∧ row.issuer = issuer := by
  rw [keptIssuers, List.mem_map]
  constructor
  · rintro ⟨row, isKept, rfl⟩
    obtain ⟨isRow, recent⟩ := List.mem_filter.mp (mem_of_mem_firsts isKept)
    exact ⟨row, isRow, recent, rfl⟩
  · rintro ⟨row, isRow, recent, rfl⟩
    obtain ⟨first, isFirst, sameNumber⟩ := exists_mem_firsts (List.mem_filter.mpr ⟨isRow, recent⟩)
      (List.not_mem_nil (a := row.number))
    obtain ⟨isOther, otherRecent⟩ := List.mem_filter.mp (mem_of_mem_firsts isFirst)
    exact ⟨first, isFirst, numbered first isOther otherRecent row isRow recent sameNumber⟩

private theorem listed_iff {rows : List Row} (recent : Row → Prop) :
    (∀ issuer domains, issuerCaaDomains issuer = some domains →
      (((∃ row ∈ rows, recent row ∧ row.issuer = issuer) ∧
          (hasProperty records false ∨ hasProperty records true) ∧
            ¬ Names records false domains ∧ ¬ Names records true domains) ↔
        ∃ row ∈ rows, recent row ∧ row.issuer = issuer ∧
          ∃ name ∈ row.names, Forbids records domains name)) ↔
      (hasProperty records false → hasProperty records true → ∀ row ∈ rows, recent row →
        ∀ domains, issuerCaaDomains row.issuer = some domains → ∀ name ∈ row.names,
          Names records (!isWildcard name) domains → Names records (isWildcard name) domains) ∧
      ((hasProperty records false ∨ hasProperty records true) → ∀ row ∈ rows, recent row →
        ∀ domains, issuerCaaDomains row.issuer = some domains →
          ¬ Names records false domains → ¬ Names records true domains →
            ∃ other ∈ rows, recent other ∧ other.issuer = row.issuer ∧
              ∃ name ∈ other.names, hasProperty records false ∨ isWildcard name) := by
  constructor
  · intro listed
    refine ⟨fun ordinary wildcard row isRow isRecent domains recognised name isName named => ?_,
      fun present row isRow isRecent domains recognised notFalse notTrue => ?_⟩
    · by_contra unnamed
      have forbidden := (forbids_iff_of_both ordinary wildcard).mpr unnamed
      obtain ⟨-, -, notFalse, notTrue⟩ := (listed row.issuer domains recognised).mpr
        ⟨row, isRow, isRecent, rfl, name, isName, forbidden⟩
      cases kind : isWildcard name with
      | false => exact notTrue (by rwa [kind] at named)
      | true => exact notFalse (by rwa [kind] at named)
    · obtain ⟨other, isOther, otherRecent, same, name, isName, forbidden⟩ :=
        (listed row.issuer domains recognised).mp
          ⟨⟨row, isRow, isRecent, rfl⟩, present, notFalse, notTrue⟩
      refine ⟨other, isOther, otherRecent, same, name, isName, ?_⟩
      rw [forbids_iff] at forbidden
      split at forbidden
      · rename_i wildcard
        exact .inr wildcard.1
      · exact .inl forbidden.1
  · rintro ⟨apart, governed⟩ issuer domains recognised
    constructor
    · rintro ⟨⟨row, isRow, isRecent, rfl⟩, present, notFalse, notTrue⟩
      obtain ⟨other, isOther, otherRecent, same, name, isName, restricted⟩ :=
        governed present row isRow isRecent domains recognised notFalse notTrue
      exact ⟨other, isOther, otherRecent, same, name, isName,
        forbids_of_unnamed present notFalse notTrue restricted⟩
    · rintro ⟨row, isRow, isRecent, rfl, name, isName, forbidden⟩
      exact ⟨⟨row, isRow, isRecent, rfl⟩, unnamed_of_forbids forbidden fun ordinary wildcard =>
        apart ordinary wildcard row isRow isRecent domains recognised name isName⟩

private theorem counted_iff {groups : List Text} (expected : Text → Nat) :
    (∀ issuer number, (issuer ∈ groups ∧ number = groups.count issuer) ↔
      0 < number ∧ number = expected issuer) ↔ ∀ issuer, groups.count issuer = expected issuer := by
  constructor
  · intro counted issuer
    by_cases isGroup : issuer ∈ groups
    · exact ((counted issuer _).mp ⟨isGroup, rfl⟩).2
    · rw [List.count_eq_zero_of_not_mem isGroup]
      by_contra differs
      exact isGroup ((counted issuer _).mpr ⟨Nat.pos_of_ne_zero (Ne.symm differs), rfl⟩).1
  · intro same issuer number
    rw [← same issuer]
    refine and_congr_left fun isCount => ?_
    rw [isCount, List.count_pos_iff]

/-- The analysis is right exactly where the certificates tell their issuers apart and the issuers the two
kinds of name do not. -/
theorem analyse_judges_iff (fromisoformat : Text → Option Time) (rows : List Row)
    (records : List Text) (days : Int) (now : Time) :
    (∃ analysis, analyse fromisoformat (some rows) records days now none = some analysis ∧
      Judges fromisoformat (windowStart days now) rows records analysis) ↔
      Plain fromisoformat days now rows records := by
  constructor
  · rintro ⟨analysis, analysed, judges⟩
    have begins := begins_of_analyse analysed
    obtain ⟨counts, byIssuer, measured⟩ := @analyse_of_begins _ rows records _ _ begins
    obtain rfl := Option.some.inj (analysed.symm.trans measured)
    have counted := judges.counted
    simp only [issuers_measured, byIssuer, mem_issuers_iff] at counted
    have numbered := forall_count_iff.mp ((counted_iff _).mp counted)
    have listed := judges.listed
    simp only [unexpected_measured, byIssuer] at listed
    obtain ⟨apart, governed⟩ := (listed_iff _).mp fun issuer domains recognised => by
      rw [← mem_keptIssuers_iff numbered, ← mem_unexpected_iff recognised]
      exact listed issuer domains recognised
    exact ⟨begins, numbered, apart, governed⟩
  · rintro ⟨begins, numbered, apart, governed⟩
    obtain ⟨counts, byIssuer, measured⟩ := @analyse_of_begins _ rows records _ _ begins
    have counted := forall_count_iff.mpr numbered
    refine ⟨_, measured, fun issuer domains recognised => ?_, ?_, ?_, fun told isTold => ?_⟩
    · rw [unexpected_measured, byIssuer, mem_unexpected_iff recognised, mem_keptIssuers_iff numbered]
      exact (listed_iff _).mpr ⟨apart, governed⟩ issuer domains recognised
    · simp only [issuers_measured, byIssuer, mem_issuers_iff]
      exact (counted_iff _).mpr counted
    · rw [issuers_measured, byIssuer]
      exact nodup_issuers
    · rw [unexpected_measured, byIssuer] at isTold
      rw [certificates_of_mem_unexpected isTold, counted]

/-- Records that let one authority issue for ordinary names and another one for wildcards, and a
certificate of the first for a wildcard. -/
def wildcardRow : Row where
  issuerName := some "C=US, O=Let's Encrypt, CN=R11".toList
  commonName := some "*.example.com".toList
  nameValue := some "*.example.com".toList
  notBefore := some "2026-09-01T00:00:00".toList
  notAfter := none
  serialNumber := some "1".toList
  id := some 1

def splitRecords : List Text :=
  ["0 issue \"letsencrypt.org\"".toList, "0 issuewild \"digicert.com\"".toList]

/-- What one authority may issue for ordinary names is let pass for wildcards. -/
theorem wildcard_passed : ¬ ∃ analysis,
    analyse (fun _ => some (40 * day)) (some [wildcardRow]) splitRecords 30 (45 * day) none =
        some analysis ∧
      Judges (fun _ => some (40 * day)) (windowStart 30 (45 * day)) [wildcardRow] splitRecords
        analysis := by
  rintro ⟨analysis, analysed, judges⟩
  have recognised : issuerCaaDomains wildcardRow.issuer = some ["letsencrypt.org".toList] := by
    decide +kernel
  have forbidden : Forbids splitRecords ["letsencrypt.org".toList] "*.example.com".toList :=
    ⟨["digicert.com".toList], by decide +kernel, by decide +kernel⟩
  obtain ⟨told, isTold, -⟩ := (judges.listed _ _ recognised).mpr
    ⟨wildcardRow, List.mem_singleton_self _, by decide +kernel, rfl, "*.example.com".toList,
      by decide +kernel, forbidden⟩
  have none : analysis.unexpected = [] := by
    have found : (analyse (fun _ => some (40 * day)) (some [wildcardRow]) splitRecords 30 (45 * day)
        none).map (fun analysis => analysis.unexpected.map Unexpected.issuer) = some [] := by
      decide +kernel
    rw [analysed] at found
    exact List.map_eq_nil_iff.mp (Option.some.inj found)
  rw [none] at isTold
  cases isTold

end Verdict

end CertTransparency
end DomainLens
