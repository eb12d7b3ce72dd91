import DomainLens.Library.Words
import DomainLens.Python.CaseMapping
import DomainLens.Python.Date

/-!
# Answers over port 43

A registry without RDAP answers in a text of its own layout.  The text is read into fields, and the fields
into a registration, the news that there is none, or nothing that was measured.  The file settles when the
news that a domain is free is what the registry said.
-/

namespace DomainLens
namespace WhoisPort43

open Python

/-! ## Dates -/

/-- A part of a format of `strptime`. -/
inductive Directive where
  | number (forms : List (List (Char → Bool)))
  | name (names : List Text)
  | blank
  | mark (char : Char)

/-- `[first-last]`. -/
def between (first last char : Char) : Bool := first ≤ char && char ≤ last

def directiveYear : Directive := .number [[isDecimal, isDecimal, isDecimal, isDecimal]]

def directiveMonth : Directive :=
  .number [[(· = '1'), between '0' '2'], [(· = '0'), between '1' '9'], [between '1' '9']]

def directiveDay : Directive :=
  .number [[(· = '3'), between '0' '1'], [between '1' '2', isDecimal], [(· = '0'), between '1' '9'],
    [between '1' '9'], [(· = ' '), between '1' '9']]

def directiveHour : Directive :=
  .number [[(· = '2'), between '0' '3'], [between '0' '1', isDecimal], [isDecimal]]

def directiveMinute : Directive := .number [[between '0' '5', isDecimal], [isDecimal]]

def directiveSecond : Directive :=
  .number [[(· = '6'), between '0' '1'], [between '0' '5', isDecimal], [isDecimal]]

def directiveWeekday : Directive :=
  .name (["mon", "tue", "wed", "thu", "fri", "sat", "sun"].map String.toList)

def directiveMonthName : Directive :=
  .name (["jan", "feb", "mar", "apr", "may", "jun", "jul", "aug", "sep", "oct", "nov", "dec"].map
    String.toList)

/-- The ways to read a part at the front of a text, the first one first, with the value and the rest. -/
def Directive.ways (text : Text) : Directive → List (ℕ × Text)
  | .number forms => forms.filterMap fun form =>
      if form.length ≤ text.length ∧ (form.zip text).all fun both => both.1 both.2 then
        some (intOf (text.take form.length), text.drop form.length)
      else none
  | .name names => names.zipIdx.filterMap fun entry =>
      if (text.take entry.1.length).map Char.toLower = entry.1 then
        some (entry.2 + 1, text.drop entry.1.length)
      else none
  | .blank =>
      (List.range (text.takeWhile isSpace).length).reverse.map fun less => (0, text.drop (less + 1))
  | .mark char => if text.head? = some char then [(0, text.drop 1)] else []

/-- The ways to read a whole format at the front of a text. -/
def waysOf : List Directive → Text → List (List ℕ × Text)
  | [], text => [([], text)]
  | directive :: directives, text =>
      (directive.ways text).flatMap fun way =>
        (waysOf directives way.2).map fun later => (way.1 :: later.1, later.2)

/-- The year, month and day among the values of a format, with the second where there is one. -/
structure Places where
  year : ℕ
  month : ℕ
  day : ℕ
  second : Option ℕ

/-- `date().isoformat()`. -/
def isoDate (year month day : ℕ) : Text :=
  let padded (width value : ℕ) : Text := List.replicate (width - (strOf value).length) '0' ++ strOf value
  padded 4 year ++ '-' :: padded 2 month ++ '-' :: padded 2 day

/-- `datetime.strptime(value, fmt).date().isoformat()`, unless it ends with a `ValueError`. -/
def strptime (format : List Directive × Places) (text : Text) : Option Text :=
  (waysOf format.1 text).head?.bind fun way =>
    let value (place : ℕ) : ℕ := way.1.getD place 0
    let year := value format.2.year
    let month := value format.2.month
    let day := value format.2.day
    if way.2 = [] ∧ 1 ≤ year ∧ day ≤ daysInMonth year month ∧ format.2.second.all (value · < 60) then
      some (isoDate year month day)
    else none

def formats : List (List Directive × Places) :=
  [([directiveYear, directiveMonth, directiveDay, .blank, directiveHour, .mark ':', directiveMinute,
      .mark ':', directiveSecond], ⟨0, 1, 2, some 8⟩),
    ([directiveYear, directiveMonth, directiveDay], ⟨0, 1, 2, none⟩),
    ([directiveWeekday, .blank, directiveMonthName, .blank, directiveDay, .blank, directiveYear],
      ⟨6, 2, 4, none⟩),
    ([directiveDay, .mark '.', directiveMonth, .mark '.', directiveYear], ⟨4, 2, 0, none⟩),
    ([directiveDay, .mark '/', directiveMonth, .mark '/', directiveYear], ⟨4, 2, 0, none⟩),
    ([directiveDay, .mark '-', directiveMonthName, .mark '-', directiveYear], ⟨4, 2, 0, none⟩)]

/-- `(\d{4})-(\d{2})-(\d{2})` at the front. -/
def isoFront (text : Text) : Bool :=
  let front := text.take 10
  front.length = 10 && front.zipIdx.all fun entry =>
    if entry.2 = 4 ∨ entry.2 = 7 then entry.1 = '-' else isDecimal entry.1

/-- `_date`. -/
def date (value : Option Text) : Option Text :=
  let value := joinWords (split (value.getD []))
  if value = [] then none
  else if isoFront value then some (value.take 10)
  else formats.findSome? fun format => strptime format value

example : date (some "Wed Jun 13 2012".toList) = some "2012-06-13".toList := by decide

/-! ## Fields -/

/-- What a line says, under a heading or under none. -/
structure Field where
  section_ : Text
  key : Text
  value : Text
deriving DecidableEq

/-- The headings whose lines are not read as keys and values. -/
def listSections : List Text :=
  ["nameservers", "name servers", "flags", "keys", "status"].map String.toList

def isComment (line : Text) : Bool :=
  [['%'], ['#'], ['>', '>', '>']].any fun mark => mark.isPrefixOf (lstrip line)

/-- The front of `str.partition(":")`, whether there is a colon, and what is behind it. -/
def partition (line : Text) : Text × Bool × Text :=
  (line.takeWhile (· ≠ ':'), ':' ∈ line, (line.dropWhile (· ≠ ':')).drop 1)

/-- One line: the section after it, and its field if it has one. -/
def lineOf (section_ raw : Text) : Text × Option Field :=
  if strip raw = [] ∨ isComment raw then (section_, none)
  else
    let line := strip raw
    let (key, found, value) := partition line
    if raw.head? = some ' ' ∨ raw.head? = some '\t' then
      if section_ ∈ listSections then (section_, some ⟨section_, [], line⟩)
      else (section_, some ⟨section_, lower (strip key), strip value⟩)
    else if found = false ∨ strip value = [] then (lower (strip key), none)
    else ([], some ⟨[], lower (strip key), strip value⟩)

/-- The fields of lines under a heading. -/
def fieldsFrom (section_ : Text) : List Text → List Field
  | [] => []
  | raw :: rest => (lineOf section_ raw).2.toList ++ fieldsFrom (lineOf section_ raw).1 rest

/-- `_lines`. -/
def fieldsOf (text : Text) : List Field := fieldsFrom [] (splitLines text)

/-- `_first`. -/
def first (fields : List Field) (keys : List String) (section_ : Text) : Option Text :=
  (fields.find? fun field =>
    field.section_ = section_ && field.key ∈ keys.map String.toList && field.value ≠ []).map Field.value

/-! ## Answers -/

/-- `_FREE_STATUS`. -/
def freeStatus : List Text := ["available", "free", "no object found"].map String.toList

/-- `_FREE_LINES`. -/
def freeLines : List Text :=
  ["nothing found", "no match", "not found", "no entries found", "no data found", "domain not found",
    "object does not exist", "no such domain"].map String.toList

/-- `_LIMIT_MARKERS`. -/
def limitMarkers : List Text :=
  ["limit exceeded", "limit reached", "too many", "access control limit", "quota exceeded",
    "try again later"].map String.toList

/-- `_STATUS_WORDS`. -/
def statusWords : List (Text × Text) :=
  [("not available", "Registered"), ("connect", "Registered, in DNS")].map fun entry =>
    (entry.1.toList, entry.2.toList)

inductive Phase where
  | registered
  | quarantine
  | redemption
  | pendingDelete
deriving DecidableEq

/-- What is read of a registration. -/
structure Registration where
  domain : Text
  registrar : Option Text
  nameservers : List Text
  registered : Option Text
  updated : Option Text
  expires : Option Text
  status : List Text
  dnssec : Option Bool
  phase : Phase
deriving DecidableEq

/-- The three outcomes; what was not measured may be so for a limit on the rate. -/
inductive Outcome where
  | free
  | unmeasured (rateLimited : Bool)
  | registered (registration : Registration)
deriving DecidableEq

def statusesOf (fields : List Field) : List Text :=
  (fields.filter fun field =>
    (field.section_ = [] && field.key ∈ ["status", "domain status", "state"].map String.toList) ||
      field.section_ ∈ ["flags", "status"].map String.toList).map Field.value

/-- Whether one of some phrases stands in a text. -/
def holdsAny (phrases : List Text) (text : Text) : Bool := phrases.any fun phrase => phrase <:+: text

def namesDomain (fields : List Field) : Bool :=
  fields.any fun field => field.key ∈ ["domain", "domain name"].map String.toList

/-- The status values in lower case, each once. -/
def statusSet (fields : List Field) : List Text :=
  fromKeys ((statusesOf fields).map fun status => lower (strip status))

/-- The phase, of the words that stand in the status values. -/
def phaseOf (joined : Text) : Phase :=
  if "quarantine".toList <:+: joined then .quarantine
  else if "redemption".toList <:+: joined then .redemption
  else if "pendingdelete".toList <:+: joined ∨ "pending delete".toList <:+: joined then .pendingDelete
  else .registered

def nameserversOf (fields : List Field) : List Text :=
  let listed := fields.filter fun field =>
    field.section_ ∈ ["nameservers", "name servers"].map String.toList ||
      field.key ∈ ["nserver", "name server", "nameserver", "name servers", "nameservers"].map String.toList
  let hosts := listed.map fun field => lower (((split field.value).headD []).rdropWhile (· = '.'))
  fromKeys (hosts.filter fun host => host ≠ [] && '.' ∈ host)

/-- Whether the zone is signed, where the answer says so. -/
def dnssecOf (fields : List Field) : Option Bool :=
  let word := lower ((first fields ["dnssec", "signed"] []).getD [])
  if (fields.any fun field => field.section_ = "keys".toList || field.key = "dnskey".toList) ||
      word ∈ ["signed", "yes", "signeddelegation", "true"].map String.toList then some true
  else if word ∈ ["unsigned", "no", "false"].map String.toList then some false
  else none

section Parse

-- The order in which a set goes through its members.
variable (arrange : List Text → List Text)

/-- The registration in the fields of an answer. -/
def registrationOf (fields : List Field) (domain : Text) : Registration where
  domain
  registrar :=
    (first fields ["organization", "organisation", "name"] "registrar".toList).or
      (first fields ["registrar", "sponsoring registrar", "registrar name"] [])
  nameservers := nameserversOf fields
  registered :=
    date (first fields ["registered", "created", "creation date", "registration date",
      "domain record activated"] [])
  updated := date (first fields ["changed", "last update", "updated date", "last modified"] [])
  expires :=
    date (first fields ["expires", "expiry date", "expire date", "registry expiry date",
      "expiration date", "paid-till"] [])
  status := (statusesOf fields).map fun status => (statusWords.lookup (lower (strip status))).getD status
  dnssec := dnssecOf fields
  phase := phaseOf (joinWords (arrange (statusSet fields)))

/-- `parse`. -/
def parse (text domain : Text) : Outcome :=
  let lowered := lower text
  let fields := fieldsOf text
  if (statusSet fields).any (· ∈ freeStatus) ||
      (!namesDomain fields && holdsAny freeLines lowered) then .free
  else if fields = [] || holdsAny limitMarkers lowered then .unmeasured (holdsAny limitMarkers lowered)
  else .registered (registrationOf arrange fields domain)

end Parse

/-! ## What the registry said -/

/-- A line without the marks of a comment in front of it. -/
def uncommented (line : Text) : Text := lstrip ((lstrip line).dropWhile (· ∈ ['%', '#', '>']))

def HasFreeStatus (text : Text) : Prop :=
  ∃ status ∈ statusesOf (fieldsOf text), lower (strip status) ∈ freeStatus

/-- The registry says that the domain is free: by a status, or at the beginning of a line. -/
def SaysFree (text : Text) : Prop :=
  HasFreeStatus text ∨
    ∃ line ∈ splitLines text, ∃ phrase ∈ freeLines, phrase <+: lower (uncommented line)

/-- A free phrase stands in a line, at its beginning or not. -/
def HoldsPhrase (text : Text) : Prop :=
  ∃ line ∈ splitLines text, ∃ phrase ∈ freeLines, phrase <:+: lower line

def IsLimitNotice (text : Text) : Prop := ∃ marker ∈ limitMarkers, marker <:+: lower text

/-- A domain is free only where the registry says so, and a notice of a limit is no measurement. -/
structure Sound (arrange : List Text → List Text) (text domain : Text) : Prop where
  free : parse arrange text domain = .free → SaysFree text
  limited : IsLimitNotice text → parse arrange text domain = .unmeasured true

/-- Where the answer names no domain, a free phrase stands inside a line only where the registry says that
    the domain is free; and a notice of a limit has neither that nor a free status. -/
structure Plain (text : Text) : Prop where
  phrases : namesDomain (fieldsOf text) = false → HoldsPhrase text → SaysFree text
  limited : IsLimitNotice text →
    ¬ HasFreeStatus text ∧ (HoldsPhrase text → namesDomain (fieldsOf text) = true)

/-! ## Lines -/

section Lines

def oneSigma (char : Char) : Char := if char = 'ς' then 'σ' else char

/-- The lower case of a character wherever it stands. -/
def lowerPlain (char : Char) : Text := if char = 'Σ' then ['σ'] else (lowerChar char).map oneSigma

theorem map_lowerFrom (before text : Text) :
    (lowerFrom before text).map oneSigma = text.flatMap lowerPlain := by
  induction text generalizing before with
  | nil => rfl
  | cons char text induction =>
      rw [lowerFrom, List.map_append, induction, List.flatMap_cons]
      congr 1
      unfold lowerAt lowerPlain
      split_ifs <;> rfl

/-- A word without a sigma stands in a text whichever small sigmas are in it. -/
theorem infix_map_oneSigma {word text : Text} (free : ∀ char ∈ word, char ≠ 'σ' ∧ char ≠ 'ς') :
    word <:+: text.map oneSigma ↔ word <:+: text := by
  constructor
  · rintro ⟨front, back, whole⟩
    rw [List.append_assoc] at whole
    obtain ⟨start, rest, rfl, -, isRest⟩ := List.map_eq_append_iff.mp whole.symm
    obtain ⟨middle, behind, rfl, isWord, -⟩ := List.map_eq_append_iff.mp isRest
    have fixed : middle.map oneSigma = middle := by
      conv_rhs => rw [← List.map_id middle]
      refine List.map_congr_left fun char member => if_neg ?_
      rintro rfl
      exact (free 'σ' (isWord ▸ List.mem_map_of_mem member)).1 rfl
    rw [← isWord, fixed]
    exact ⟨start, behind, List.append_assoc _ _ _⟩
  · intro inside
    have fixed : word.map oneSigma = word := by
      conv_rhs => rw [← List.map_id word]
      exact List.map_congr_left fun char member => if_neg (free char member).2
    rw [← fixed]
    exact inside.map oneSigma

private theorem lowerPlain_break {char : Char} (breaks : isLineBreak char = true) :
    lowerPlain char = [char] := by
  have checked : ∀ code ∈ [10, 11, 12, 13, 28, 29, 30, 133, 8232, 8233],
      lowerPlain (Char.ofNat code) = [Char.ofNat code] := by decide
  have listed := checked char.toNat (of_decide_eq_true breaks)
  rwa [Char.ofNat_toNat] at listed

variable {word : Text}

private theorem infix_splitLinesFrom (filled : word ≠ [])
    (unbroken : ∀ char ∈ word, isLineBreak char = false) (line text : Text) :
    word <:+: (line.reverse ++ text).flatMap lowerPlain ↔
      ∃ part ∈ splitLinesFrom line text, word <:+: part.flatMap lowerPlain := by
  have apart : ∀ {mark : Char}, isLineBreak mark = true → ∀ front back : Text,
      word <:+: (front ++ mark :: back).flatMap lowerPlain ↔
        word <:+: front.flatMap lowerPlain ∨ word <:+: back.flatMap lowerPlain := by
    intro mark breaks front back
    rw [List.flatMap_append, List.flatMap_cons, lowerPlain_break breaks, List.singleton_append]
    refine Words.infix_append_cons_iff fun member => ?_
    rw [unbroken mark member] at breaks
    cases breaks
  induction line, text using splitLinesFrom.induct with
  | case1 => simp [splitLinesFrom, filled]
  | case2 line nonempty => simp [splitLinesFrom, nonempty]
  | case3 line rest induction =>
      rw [splitLinesFrom, apart (by decide), List.exists_mem_cons_iff]
      have inner := @apart '\n' (by decide) [] rest
      rw [List.nil_append] at inner
      rw [inner]
      have none : ¬ word <:+: ([] : Text).flatMap lowerPlain := by simp [filled]
      exact or_congr Iff.rfl ((or_iff_right none).trans induction)
  | case4 line char rest notPair breaks induction =>
      rw [splitLinesFrom, if_pos breaks, apart breaks, List.exists_mem_cons_iff]
      · exact or_congr Iff.rfl induction
      · exact notPair
  | case5 line char rest notPair solid induction =>
      rw [List.reverse_cons, List.append_assoc, List.singleton_append] at induction
      rw [splitLinesFrom, if_neg solid]
      · exact induction
      · exact notPair

/-- A word in small letters of ASCII stands in the lower case of a text exactly if it does in that of one of
    its lines. -/
theorem infix_lower_iff (filled : word ≠ []) (unbroken : ∀ char ∈ word, isLineBreak char = false)
    (free : ∀ char ∈ word, char ≠ 'σ' ∧ char ≠ 'ς') (text : Text) :
    word <:+: lower text ↔ ∃ line ∈ splitLines text, word <:+: lower line := by
  have plain : ∀ text : Text, word <:+: lower text ↔ word <:+: text.flatMap lowerPlain := by
    intro text
    rw [← infix_map_oneSigma free, lower, map_lowerFrom]
  rw [plain]
  have lines := infix_splitLinesFrom filled unbroken [] text
  rw [List.reverse_nil, List.nil_append] at lines
  rw [lines]
  exact exists_congr fun line => and_congr_right fun _ => (plain line).symm

end Lines

/-! ## The outcomes -/

section Outcomes

variable {arrange : List Text → List Text} {text domain : Text}

private theorem freeLines_checked : freeLines.all (fun phrase => phrase != [] &&
    phrase.all fun char => !isLineBreak char && (char != 'σ' && char != 'ς')) = true := by decide

private theorem freeLines_small {phrase : Text} (isPhrase : phrase ∈ freeLines) :
    phrase ≠ [] ∧ (∀ char ∈ phrase, isLineBreak char = false) ∧
      ∀ char ∈ phrase, char ≠ 'σ' ∧ char ≠ 'ς' := by
  have checked := List.all_eq_true.mp freeLines_checked phrase isPhrase
  simp only [Bool.and_eq_true, bne_iff_ne, List.all_eq_true, Bool.not_eq_true'] at checked
  exact ⟨checked.1, fun char member => (checked.2 char member).1, fun char member =>
    (checked.2 char member).2⟩

theorem holdsAny_freeLines : holdsAny freeLines (lower text) = true ↔ HoldsPhrase text := by
  rw [holdsAny, List.any_eq_true]
  simp only [decide_eq_true_eq]
  constructor
  · rintro ⟨phrase, isPhrase, inside⟩
    obtain ⟨filled, unbroken, free⟩ := freeLines_small isPhrase
    obtain ⟨line, isLine, held⟩ := (infix_lower_iff filled unbroken free text).mp inside
    exact ⟨line, isLine, phrase, isPhrase, held⟩
  · rintro ⟨line, isLine, phrase, isPhrase, held⟩
    obtain ⟨filled, unbroken, free⟩ := freeLines_small isPhrase
    exact ⟨phrase, isPhrase, (infix_lower_iff filled unbroken free text).mpr ⟨line, isLine, held⟩⟩

theorem any_statusSet : (statusSet (fieldsOf text)).any (· ∈ freeStatus) = true ↔ HasFreeStatus text := by
  simp [statusSet, HasFreeStatus, List.any_eq_true]

theorem parse_eq_free_iff : parse arrange text domain = .free ↔
    HasFreeStatus text ∨ namesDomain (fieldsOf text) = false ∧ HoldsPhrase text := by
  have test : ((statusSet (fieldsOf text)).any (· ∈ freeStatus) ||
      (!namesDomain (fieldsOf text) && holdsAny freeLines (lower text))) = true ↔
        HasFreeStatus text ∨ namesDomain (fieldsOf text) = false ∧ HoldsPhrase text := by
    rw [Bool.or_eq_true, Bool.and_eq_true, any_statusSet, holdsAny_freeLines, Bool.not_eq_true']
  rw [← test, parse]
  split_ifs with free none
  · exact iff_of_true rfl free
  · exact iff_of_false (by simp) free
  · exact iff_of_false (by simp) free

/-- A notice of a limit that is not taken for news of a free domain is no measurement. -/
theorem parse_of_limited (limited : IsLimitNotice text) (other : parse arrange text domain ≠ .free) :
    parse arrange text domain = .unmeasured true := by
  have marked : holdsAny limitMarkers (lower text) = true := by
    obtain ⟨marker, isMarker, inside⟩ := limited
    exact List.any_eq_true.mpr ⟨marker, isMarker, decide_eq_true inside⟩
  rw [parse] at other ⊢
  split_ifs at other ⊢ with free none
  · exact absurd rfl other
  · rw [marked]
  · exact absurd (by rw [marked, Bool.or_true]) none

end Outcomes

/-- A domain is free only where the registry says so, and a notice of a limit is no measurement, exactly if
    no free phrase stands only inside of lines, but for answers that name the domain, and no notice of a
    limit is taken for news of a free domain. -/
theorem parse_sound (arrange : List Text → List Text) (text domain : Text) :
    Sound arrange text domain ↔ Plain text := by
  constructor
  · intro sound
    constructor
    · exact fun unnamed holds => sound.free (parse_eq_free_iff.mpr (.inr ⟨unnamed, holds⟩))
    · intro limited
      have other : parse arrange text domain ≠ .free := by
        rw [sound.limited limited]
        exact fun same => Outcome.noConfusion same
      rw [ne_eq, parse_eq_free_iff, not_or] at other
      refine ⟨other.1, fun holds => ?_⟩
      by_contra unnamed
      exact other.2 ⟨Bool.eq_false_iff.mpr unnamed, holds⟩
  · intro plain
    constructor
    · intro free
      rcases parse_eq_free_iff.mp free with status | ⟨unnamed, holds⟩
      · exact .inl status
      · exact plain.phrases unnamed holds
    · intro limited
      obtain ⟨status, named⟩ := plain.limited limited
      refine parse_of_limited limited fun free => ?_
      rcases parse_eq_free_iff.mp free with isStatus | ⟨unnamed, holds⟩
      · exact status isStatus
      · exact absurd (named holds) (Bool.eq_false_iff.mp unnamed)

/-- A registered domain whose holder is called so is taken for free. -/
theorem holder_name_free :
    ¬ Sound id "Status: active\nRegistrant: Not Found Ltd\n".toList "example.it".toList := by
  intro sound
  have free : parse id "Status: active\nRegistrant: Not Found Ltd\n".toList "example.it".toList =
      .free := by decide +kernel
  rcases sound.free free with ⟨status, member, isFree⟩ | ⟨line, isLine, phrase, isPhrase, starts⟩
  · have none : ∀ status ∈ statusesOf (fieldsOf "Status: active\nRegistrant: Not Found Ltd\n".toList),
        lower (strip status) ∉ freeStatus := by decide +kernel
    exact none status member isFree
  · have none : ∀ line ∈ splitLines "Status: active\nRegistrant: Not Found Ltd\n".toList,
        ∀ phrase ∈ freeLines, ¬ phrase <+: lower (uncommented line) := by decide +kernel
    exact none line isLine phrase isPhrase starts

end WhoisPort43
end DomainLens
