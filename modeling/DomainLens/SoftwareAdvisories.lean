import DomainLens.Python.CaseMapping
import DomainLens.Python.Date
import Mathlib

/-!
# Advisory rules

A rule is data an administrator wrote; compiling it puts every field into its normal form, collects
every reason against it, and derives what the engine matches with.
-/

namespace DomainLens
namespace SoftwareAdvisories

open Python

/-! ## Patterns -/

/-- `SEVERITIES`. -/
def severities : List Text :=
  ["critical".toList, "high".toList, "medium".toList, "low".toList]

/-- `GENERATOR`: the version is read from the page's generator tag. -/
def generator : Text := "meta:generator".toList

/-- `OLDER_UNFIXED`: an older branch no longer gets fixes. -/
def olderUnfixed : Text := "unfixed".toList

/-- `OLDER_NOT_AFFECTED`: an older branch never had the flaw. -/
def olderNotAffected : Text := "not_affected".toList

/-- `_HEADERS_NOT_READ`. -/
def headersNotRead : List Text :=
  ["set-cookie".toList, "cookie".toList, "authorization".toList]

/-- `[a-z0-9]`. -/
def isSmall (char : Char) : Bool := char.isLower || char.isDigit

/-- `_SLUG`. -/
def slug : Text → Bool := dollar (wholeClass isSmall (fun char => isSmall char || char == '-') 1 39)

/-- `_TOKEN`. -/
def tokenPattern : Text → Bool :=
  dollar (wholeClass Char.isAlphanum
    (fun char => char.isAlphanum || char ∈ ['.', '_', '+', '-']) 0 39)

/-- `_HEADER`. -/
def header : Text → Bool :=
  dollar (wholeClass isSmall (fun char => isSmall char || char == '-') 0 39)

/-- `[A-Za-z0-9_.-]`. -/
def isCookieChar (char : Char) : Bool := char.isAlphanum || char ∈ ['_', '.', '-']

/-- `_COOKIE`. -/
def cookie : Text → Bool := dollar (wholeClass isCookieChar isCookieChar 1 39)

/-- `[^\s<>"']`. -/
def isAddressChar (char : Char) : Bool := !isSpace char && char ∉ ['<', '>', '"', '\'']

/-- `_PATH`. -/
def path : Text → Bool := dollar (wholeClass isAddressChar isAddressChar 1 39)

/-- The rest of an address after its scheme. -/
def afterScheme (text : Text) : Option Text :=
  match text with
  | 'h' :: 't' :: 't' :: 'p' :: ':' :: '/' :: '/' :: rest => some rest
  | 'h' :: 't' :: 't' :: 'p' :: 's' :: ':' :: '/' :: '/' :: rest => some rest
  | _ => none

/-- `_URL`. -/
def url : Text → Bool :=
  dollar fun text => (afterScheme text).any (wholeClass isAddressChar isAddressChar 2 299)

/-- `_CVE`. -/
def cve : Text → Bool :=
  dollar fun text =>
    match text with
    | 'C' :: 'V' :: 'E' :: '-' :: a :: b :: c :: d :: '-' :: serial =>
        [a, b, c, d].all isDecimal && serial.all isDecimal && 4 ≤ serial.length &&
          serial.length ≤ 7
    | _ => false

/-! ## Releases -/

/-- A release, `major.minor.patch`. -/
structure Release where
  major : Nat
  minor : Nat
  patch : Nat
  deriving DecidableEq

namespace Release

/-- A release belongs to a later branch than another. -/
def LaterBranch (left right : Release) : Prop :=
  right.major < left.major ∨ right.major = left.major ∧ right.minor < left.minor

instance (left right : Release) : Decidable (left.LaterBranch right) :=
  inferInstanceAs (Decidable (_ ∨ _))

def SameBranch (left right : Release) : Prop :=
  left.major = right.major ∧ left.minor = right.minor

instance (left right : Release) : Decidable (left.SameBranch right) :=
  inferInstanceAs (Decidable (_ ∧ _))

/-- A release is at least another, as tuples compare. -/
def AtLeast (left right : Release) : Prop :=
  left.LaterBranch right ∨ left.SameBranch right ∧ right.patch ≤ left.patch

instance (left right : Release) : Decidable (left.AtLeast right) :=
  inferInstanceAs (Decidable (_ ∨ _))

/-- `_fmt` of a release. -/
def fmt (release : Release) : Text :=
  strOf release.major ++ '.' :: strOf release.minor ++ '.' :: strOf release.patch

/-- `_fmt` of the branch of a release. -/
def fmtBranch (release : Release) : Text := strOf release.major ++ '.' :: strOf release.minor

end Release

/-- `\d{1,most}` at the start of a text: the number, and what follows its digits. -/
def number (most : Nat) (text : Text) : Option (Nat × Text) :=
  let digits := text.takeWhile isDecimal
  if digits ≠ [] ∧ digits.length ≤ most then some (intOf digits, text.dropWhile isDecimal) else none

/-- `\.` at the start of a text. -/
def afterDot (text : Text) : Option Text :=
  match text with
  | '.' :: rest => some rest
  | _ => none

/-- `_RELEASE`, with the numbers it captures. -/
def releaseOf (text : Text) : Option Release := do
  let (major, text) ← number 4 text
  let text ← afterDot text
  let (minor, text) ← number 4 text
  let text ← afterDot text
  let (patch, text) ← number 6 text
  if text = [] ∨ text = ['\n'] then some { major, minor, patch } else none

/-- `fixed[version[:2]] = version`, the branches kept newest first. -/
def setBranch (release : Release) : List Release → List Release
  | [] => [release]
  | other :: fixed =>
      if release.LaterBranch other then release :: other :: fixed
      else if release.SameBranch other then release :: fixed
      else other :: setBranch release fixed

/-! ## Documents -/

/-- A value where a text is expected: a text, or anything else by what `str` shows of it and whether
it is truthy.  A key left out is `None`. -/
inductive Value where
  | text (value : Text)
  | other (shown : Text) (truthy : Bool)
  deriving DecidableEq

def Value.truthy : Value → Bool
  | .text value => value ≠ []
  | .other _ truthy => truthy

/-- `str(value or "")`. -/
def Value.orEmpty : Value → Text
  | .text value => value
  | .other shown truthy => if truthy then shown else []

/-- A value where a list of texts is expected. -/
inductive Entries where
  | texts (values : List Text)
  | other (truthy : Bool)
  deriving DecidableEq

/-- A value where true or false is expected. -/
inductive Switch where
  | absent
  | given (on : Bool)
  | other
  deriving DecidableEq

/-- The object a rule is written as. -/
structure RawRule where
  id : Value
  name : Value
  product : Value
  token : Value
  severity : Value
  published : Value
  summary : Value
  impact : Value
  fix : Value
  check : Value
  sources : Entries
  seenCookies : Entries
  seenPaths : Entries
  cves : Entries
  references : Entries
  fixed : Entries
  olderBranches : Value
  introduced : Value
  enabled : Switch
  deriving DecidableEq

/-- What stands where a rule is expected. -/
inductive Document where
  | object (raw : RawRule)
  | other
  deriving DecidableEq

/-! ## Compiling -/

/-- How a product numbers its releases. -/
inductive Trait where
  | letters
  | bundled
  | wholeMinor
  deriving DecidableEq

/-- `traits`. -/
def traits (token : Text) : List Trait :=
  if lower token = "openssl".toList then [.letters, .bundled]
  else if lower token = "wordpress".toList then [.wholeMinor]
  else []

/-- The data of a rule as written, each field in its normal form. -/
structure PublicRule where
  id : Text
  name : Text
  product : Text
  token : Text
  cves : List Text
  severity : Text
  published : Text
  summary : Text
  impact : Text
  fix : Text
  check : Text
  sources : List Text
  seenCookies : List Text
  seenPaths : List Text
  fixed : List Text
  olderBranches : Text
  introduced : Text
  references : List Text
  deriving DecidableEq

/-- A rule as the engine uses it.  Its three patterns are compiled from the token alone. -/
structure Rule where
  publicForm : PublicRule
  builtin : Bool
  pattern : Text
  traits : List Trait
  fixed : List Release
  introduced : Option Release
  deriving DecidableEq

/-- `problems.append` where a check fails. -/
def refuse (held : Bool) (problem : Text) : List Text := if held then [] else [problem]

/-- The normal form `_text` gives. -/
def textOf (value : Value) : Text := joinWords (split value.orEmpty)

/-- The problems `_text` finds. -/
def textProblems (key : Text) (limit : Nat) (required : Bool) (value : Value) : List Text :=
  refuse (!(required && (textOf value).isEmpty)) (key ++ " is required.".toList) ++
    refuse ((textOf value).length ≤ limit)
      (key ++ " is longer than ".toList ++ strOf limit ++ " characters.".toList)

/-- The normal form `_list` gives. -/
def listOf (entries : Entries) : List Text :=
  match entries with
  | .texts values => fromKeys ((values.filter fun value => strip value ≠ []).map strip)
  | .other _ => []

/-- The problems `_list` finds. -/
def listProblems (key : Text) (most : Nat) (entries : Entries) : List Text :=
  match entries with
  | .other true => [key ++ " must be a list of texts.".toList]
  | entries =>
      refuse ((listOf entries).length ≤ most)
        (key ++ " has more than ".toList ++ strOf most ++ " entries.".toList)

/-- A problem for each entry that fails a check. -/
def entryProblems (accepted : Text → Bool) (told : Text) (entries : List Text) : List Text :=
  entries.flatMap fun entry => refuse (accepted entry) (entry ++ told)

def idOf (raw : RawRule) : Text := lower (strip raw.id.orEmpty)

def severityOf (raw : RawRule) : Text := lower (strip raw.severity.orEmpty)

def sourcesOf (raw : RawRule) : List Text := (listOf raw.sources).map lower

def seenCookiesOf (raw : RawRule) : List Text := (listOf raw.seenCookies).map lower

def seenPathsOf (raw : RawRule) : List Text := (listOf raw.seenPaths).map lower

def cvesOf (raw : RawRule) : List Text := (listOf raw.cves).map upper

def isRead (source : Text) : Bool :=
  source == generator || (header source && source ∉ headersNotRead)

/-- The releases with the fix, by branch and newest first. -/
def fixedOf : List Release → List Text → List Release
  | fixed, [] => fixed
  | fixed, text :: texts =>
      match releaseOf text with
      | none => fixedOf fixed texts
      | some release => fixedOf (setBranch release fixed) texts

/-- The problems of the releases with the fix. -/
def fixedProblems : List Release → List Text → List Text
  | _, [] => []
  | fixed, text :: texts =>
      match releaseOf text with
      | none =>
          (text ++ " is not a release (major.minor.patch, such as 8.4.27).".toList) ::
            fixedProblems fixed texts
      | some release =>
          refuse (fixed.all fun other => !decide (release.SameBranch other))
              ("Two releases are given for branch ".toList ++ release.fmtBranch ++ ['.']) ++
            fixedProblems (setBranch release fixed) texts

def olderOf (raw : RawRule) : Text :=
  strip (if raw.olderBranches.orEmpty = [] then olderUnfixed else raw.olderBranches.orEmpty)

/-- The release the flaw came in with, as written. -/
def introducedText (raw : RawRule) : Text := strip raw.introduced.orEmpty

/-- The problems of the release the flaw came in with. -/
def introducedProblems (fixed : List Release) (text : Text) : List Text :=
  if text = [] then [] else
    match releaseOf text with
    | none => ["introduced ".toList ++ text ++ " is not a release (major.minor.patch).".toList]
    | some introduced =>
        refuse (fixed == [] || fixed.any fun release => !decide (introduced.AtLeast release))
          "introduced must be older than the newest release with the fix.".toList

/-- Every reason against a rule, in the order of the checks. -/
def problems (raw : RawRule) : List Text :=
  refuse (slug (idOf raw)) ("id must be 2 to 40 lower-case letters, digits or dashes, ".toList ++
      "starting with a letter or digit.".toList) ++
    textProblems "name".toList 80 true raw.name ++
    textProblems "product".toList 60 true raw.product ++
    refuse (tokenPattern (strip raw.token.orEmpty))
      ("token must be the name the software shows itself by, such as PHP, Apache or nginx ".toList ++
        "(letters, digits, . _ + -).".toList) ++
    refuse (severityOf raw ∈ severities)
      "severity must be one of critical, high, medium, low.".toList ++
    refuse (strip raw.published.orEmpty == [] || (fromIsoFormat (strip raw.published.orEmpty)).isSome)
      "published must be a date (YYYY-MM-DD).".toList ++
    textProblems "summary".toList 600 true raw.summary ++
    textProblems "impact".toList 400 false raw.impact ++
    textProblems "fix".toList 400 false raw.fix ++
    textProblems "check".toList 400 false raw.check ++
    listProblems "sources".toList 5 raw.sources ++
    refuse (sourcesOf raw ≠ []) "sources needs at least one header name, or meta:generator.".toList ++
    entryProblems isRead " is not a header the check reads.".toList (sourcesOf raw) ++
    listProblems "seen_cookies".toList 10 raw.seenCookies ++
    entryProblems cookie " is not a cookie name.".toList (seenCookiesOf raw) ++
    listProblems "seen_paths".toList 5 raw.seenPaths ++
    entryProblems path " is not part of an address.".toList (seenPathsOf raw) ++
    listProblems "cves".toList 20 raw.cves ++
    refuse (cvesOf raw ≠ []) "cves needs at least one CVE.".toList ++
    entryProblems cve " is not a CVE id (CVE-2026-12345).".toList (cvesOf raw) ++
    listProblems "references".toList 10 raw.references ++
    entryProblems url " is not an http(s) address.".toList (listOf raw.references) ++
    listProblems "fixed".toList 30 raw.fixed ++
    fixedProblems [] (listOf raw.fixed) ++
    refuse (listOf raw.fixed ≠ [])
      "fixed needs the release with the fix for at least one branch.".toList ++
    refuse (olderOf raw ∈ [olderUnfixed, olderNotAffected])
      "older_branches must be unfixed or not_affected.".toList ++
    introducedProblems (fixedOf [] (listOf raw.fixed)) (introducedText raw)

/-- The data of a rule in its normal form. -/
def publicOf (raw : RawRule) : PublicRule where
  id := idOf raw
  name := textOf raw.name
  product := textOf raw.product
  token := strip raw.token.orEmpty
  cves := cvesOf raw
  severity := severityOf raw
  published := strip raw.published.orEmpty
  summary := textOf raw.summary
  impact := textOf raw.impact
  fix := textOf raw.fix
  check := textOf raw.check
  sources := sourcesOf raw
  seenCookies := seenCookiesOf raw
  seenPaths := seenPathsOf raw
  fixed := (fixedOf [] (listOf raw.fixed)).map Release.fmt
  olderBranches := olderOf raw
  introduced := (releaseOf (introducedText raw)).elim [] Release.fmt
  references := listOf raw.references

/-- `compile_rule`, the problems being those `RuleError` lists. -/
def compileRule (document : Document) (builtin : Bool) : Except (List Text) Rule :=
  match document with
  | .other => .error ["A rule is an object.".toList]
  | .object raw =>
      if problems raw ≠ [] then .error (problems raw) else
        .ok
          { publicForm := publicOf raw
            builtin
            pattern := strip raw.token.orEmpty
            traits := traits (strip raw.token.orEmpty)
            fixed := fixedOf [] (listOf raw.fixed)
            introduced := releaseOf (introducedText raw) }

/-- The object a rule's data is written as. -/
def PublicRule.toRaw (rule : PublicRule) (enabled : Switch) : RawRule where
  id := .text rule.id
  name := .text rule.name
  product := .text rule.product
  token := .text rule.token
  severity := .text rule.severity
  published := .text rule.published
  summary := .text rule.summary
  impact := .text rule.impact
  fix := .text rule.fix
  check := .text rule.check
  sources := .texts rule.sources
  seenCookies := .texts rule.seenCookies
  seenPaths := .texts rule.seenPaths
  cves := .texts rule.cves
  references := .texts rule.references
  fixed := .texts rule.fixed
  olderBranches := .text rule.olderBranches
  introduced := .text rule.introduced
  enabled

/-! ## Releases read back -/

namespace Release

/-- The numbers of a release have the digits its pattern allows. -/
structure Fits (release : Release) : Prop where
  major : release.major < 10 ^ 4
  minor : release.minor < 10 ^ 4
  patch : release.patch < 10 ^ 6

end Release

private theorem number_eq_some {most value : Nat} {text rest : Text}
    (found : number most text = some (value, rest)) : value < 10 ^ most := by
  simp only [number, Option.ite_none_right_eq_some, Option.some.injEq, Prod.mk.injEq] at found
  obtain ⟨⟨_, short⟩, rfl, _⟩ := found
  exact Nat.lt_of_lt_of_le (intOf_lt _) (Nat.pow_le_pow_right (by decide) short)

theorem fits_of_releaseOf {text : Text} {release : Release}
    (found : releaseOf text = some release) : release.Fits := by
  simp only [releaseOf, Option.bind_eq_bind, Option.bind_eq_some_iff, Prod.exists,
    Option.ite_none_right_eq_some, Option.some.injEq] at found
  obtain ⟨major, _, isMajor, _, _, minor, _, isMinor, _, _, patch, _, isPatch, _, rfl⟩ := found
  exact ⟨number_eq_some isMajor, number_eq_some isMinor, number_eq_some isPatch⟩

private theorem number_strOf {most value : Nat} (rest : Text) (positive : 0 < most)
    (bound : value < 10 ^ most) (stops : rest.head?.all fun char => !isDecimal char) :
    number most (strOf value ++ rest) = some (value, rest) := by
  have digits : ∀ char ∈ strOf value, isDecimal char = true := fun _ => isDecimal_of_mem_strOf
  have stopped : rest.takeWhile isDecimal = [] ∧ rest.dropWhile isDecimal = rest := by
    cases rest with
    | nil => exact ⟨rfl, rfl⟩
    | cons head rest =>
        have plain : isDecimal head = false := by simpa using stops
        simp [plain]
  rw [number, List.takeWhile_append_of_pos digits, List.dropWhile_append_of_pos digits,
    stopped.1, stopped.2, List.append_nil, if_pos ⟨strOf_ne_nil value,
      length_strOf_le positive bound⟩, intOf_strOf]

theorem releaseOf_fmt {release : Release} (fits : release.Fits) :
    releaseOf release.fmt = some release := by
  have dot : isDecimal '.' = false := by decide +kernel
  have first := number_strOf ('.' :: (strOf release.minor ++ '.' :: strOf release.patch))
    (by decide) fits.major (by simp [dot])
  have second := number_strOf ('.' :: strOf release.patch) (by decide) fits.minor (by simp [dot])
  have third := number_strOf [] (by decide) fits.patch rfl
  rw [List.append_nil] at third
  simp [releaseOf, Release.fmt, first, second, third, afterDot]

private theorem solid_fmt (release : Release) : ∀ char ∈ release.fmt, isSpace char = false := by
  have solid : ∀ value, ∀ char ∈ strOf value, isSpace char = false := fun _ _ => isSpace_of_mem_strOf
  intro char member
  simp only [Release.fmt, List.append_assoc, List.cons_append, List.mem_append,
    List.mem_cons] at member
  rcases member with major | rfl | minor | rfl | patch
  · exact solid _ char major
  · decide
  · exact solid _ char minor
  · decide
  · exact solid _ char patch

private theorem fmt_ne_nil (release : Release) : release.fmt ≠ [] := by
  simp [Release.fmt, strOf_ne_nil]

/-! ## Branches -/

/-- Releases of different branches, the newest first. -/
def NewestFirst (fixed : List Release) : Prop := fixed.Pairwise Release.LaterBranch

private theorem mem_setBranch {release other : Release} {fixed : List Release}
    (member : other ∈ setBranch release fixed) : other = release ∨ other ∈ fixed := by
  induction fixed with
  | nil => exact .inl (List.mem_singleton.mp member)
  | cons head fixed induction =>
      unfold setBranch at member
      split_ifs at member with later same
      · exact List.mem_cons.mp member
      · rcases List.mem_cons.mp member with rfl | old
        · exact .inl rfl
        · exact .inr (List.mem_cons_of_mem head old)
      · rcases List.mem_cons.mp member with rfl | old
        · exact .inr List.mem_cons_self
        · exact (induction old).imp_right (List.mem_cons_of_mem head)

private theorem newestFirst_setBranch {release : Release} {fixed : List Release}
    (sorted : NewestFirst fixed) : NewestFirst (setBranch release fixed) := by
  induction fixed with
  | nil => exact List.pairwise_singleton _ _
  | cons head fixed induction =>
      obtain ⟨first, rest⟩ := List.pairwise_cons.mp sorted
      unfold setBranch
      split_ifs with later same
      · refine List.pairwise_cons.mpr ⟨fun other member => ?_, sorted⟩
        rcases List.mem_cons.mp member with rfl | old
        · exact later
        · have := first other old
          unfold Release.LaterBranch at *
          omega
      · refine List.pairwise_cons.mpr ⟨fun other member => ?_, rest⟩
        have := first other member
        unfold Release.LaterBranch Release.SameBranch at *
        omega
      · refine List.pairwise_cons.mpr ⟨fun other member => ?_, induction rest⟩
        rcases mem_setBranch member with rfl | old
        · unfold Release.LaterBranch Release.SameBranch at *
          omega
        · exact first other old

private theorem fixedOf_invariant (inv : List Release → Prop) {texts : List Text}
    (keeps : ∀ fixed text release, inv fixed → releaseOf text = some release →
      inv (setBranch release fixed)) {fixed : List Release} (initial : inv fixed) :
    inv (fixedOf fixed texts) := by
  induction texts generalizing fixed with
  | nil => exact initial
  | cons text texts induction =>
      unfold fixedOf
      split
      · exact induction initial
      · rename_i release found
        exact induction (keeps fixed text release initial found)

theorem newestFirst_fixedOf (texts : List Text) : NewestFirst (fixedOf [] texts) :=
  fixedOf_invariant NewestFirst (fun _ _ _ sorted _ => newestFirst_setBranch sorted)
    List.Pairwise.nil

theorem fits_of_mem_fixedOf {texts : List Text} :
    ∀ release ∈ fixedOf [] texts, release.Fits := by
  refine fixedOf_invariant (fun fixed => ∀ release ∈ fixed, release.Fits)
    (fun fixed text release fits found other member => ?_) (by simp)
  rcases mem_setBranch member with rfl | old
  · exact fits_of_releaseOf found
  · exact fits other old

private theorem length_setBranch_le (release : Release) (fixed : List Release) :
    (setBranch release fixed).length ≤ fixed.length + 1 := by
  induction fixed with
  | nil => exact Nat.le_refl 1
  | cons head fixed induction =>
      unfold setBranch
      split_ifs <;> simp only [List.length_cons] <;> omega

private theorem setBranch_ne_nil (release : Release) (fixed : List Release) :
    setBranch release fixed ≠ [] := by
  cases fixed with
  | nil => simp [setBranch]
  | cons head fixed =>
      unfold setBranch
      split_ifs <;> simp

private theorem length_fixedOf_le {fixed : List Release} {texts : List Text} :
    (fixedOf fixed texts).length ≤ fixed.length + texts.length := by
  induction texts generalizing fixed with
  | nil => exact Nat.le_refl _
  | cons text texts induction =>
      unfold fixedOf
      split
      · exact Nat.le_trans induction (by simp)
      · rename_i release found
        have := length_setBranch_le release fixed
        exact Nat.le_trans induction (by simp only [List.length_cons]; omega)

private theorem fixedOf_ne_nil {texts : List Text} (nonempty : texts ≠ [])
    (sound : fixedProblems [] texts = []) : fixedOf [] texts ≠ [] := by
  cases texts with
  | nil => exact absurd rfl nonempty
  | cons text texts =>
      unfold fixedProblems at sound
      unfold fixedOf
      split at sound
      · cases sound
      · rename_i release found
        exact fixedOf_invariant (· ≠ []) (fun fixed _ release _ _ => setBranch_ne_nil release fixed)
          (setBranch_ne_nil release [])

private theorem setBranch_of_older {release : Release} {fixed : List Release}
    (older : ∀ other ∈ fixed, other.LaterBranch release) :
    setBranch release fixed = fixed ++ [release] := by
  induction fixed with
  | nil => rfl
  | cons head fixed induction =>
      have first := older head List.mem_cons_self
      rw [setBranch, if_neg, if_neg, induction fun other member =>
        older other (List.mem_cons_of_mem head member), List.cons_append]
      · unfold Release.LaterBranch Release.SameBranch at *
        omega
      · unfold Release.LaterBranch at *
        omega

private theorem fixedOf_fmt {done fixed : List Release} (sorted : NewestFirst (done ++ fixed))
    (fits : ∀ release ∈ fixed, release.Fits) :
    fixedOf done (fixed.map Release.fmt) = done ++ fixed ∧
      fixedProblems done (fixed.map Release.fmt) = [] := by
  induction fixed generalizing done with
  | nil => exact ⟨(List.append_nil done).symm, rfl⟩
  | cons release fixed induction =>
      have older : ∀ other ∈ done, other.LaterBranch release := fun other member =>
        (List.pairwise_append.mp sorted).2.2 other member release List.mem_cons_self
      have apart : (done.all fun other => !decide (release.SameBranch other)) = true := by
        rw [List.all_eq_true]
        intro other member
        have later := older other member
        simp only [Bool.not_eq_true', decide_eq_false_iff_not]
        unfold Release.LaterBranch Release.SameBranch at *
        omega
      have rest := @induction (done ++ [release]) (by simpa using sorted) fun other member =>
        fits other (List.mem_cons_of_mem release member)
      simp only [List.map_cons, fixedOf, fixedProblems,
        releaseOf_fmt (fits release List.mem_cons_self), setBranch_of_older older, apart, refuse,
        if_true, List.nil_append]
      simpa using rest

/-! ## Normal forms -/

private theorem strip_lower_strip (text : Text) :
    strip (lower (strip text)) = lower (strip text) :=
  strip_of_isStripped (isStripped_lower (isStripped_strip text))

@[simp] private theorem textOf_textOf (value : Value) : textOf (.text (textOf value)) = textOf value :=
  joinWords_split_joinWords value.orEmpty

/-- An entry a list keeps: not empty, and stripped. -/
private structure Kept (entry : Text) : Prop where
  ne_nil : entry ≠ []
  stripped : IsStripped entry

private theorem kept_of_mem_listOf {entries : Entries} {entry : Text}
    (member : entry ∈ listOf entries) : Kept entry := by
  cases entries with
  | other truthy => cases member
  | texts values =>
      simp only [listOf, mem_fromKeys, List.mem_map, List.mem_filter, decide_eq_true_eq] at member
      obtain ⟨value, ⟨_, nonempty⟩, rfl⟩ := member
      exact ⟨nonempty, isStripped_strip value⟩

private theorem listOf_texts {values : List Text} (kept : ∀ value ∈ values, Kept value) :
    listOf (.texts values) = fromKeys values := by
  have stripped : ∀ value ∈ values, strip value = value :=
    fun value member => strip_of_isStripped (kept value member).stripped
  rw [listOf, List.filter_eq_self.mpr, List.map_congr_left stripped, List.map_id']
  intro value member
  simpa [stripped value member] using (kept value member).ne_nil

private theorem length_listOf_le (values : List Text) :
    (listOf (.texts values)).length ≤ values.length := by
  refine Nat.le_trans (length_fromKeys_le _) ?_
  rw [List.length_map]
  exact List.length_filter_le _ values

private theorem nodup_listOf (entries : Entries) : (listOf entries).Nodup := by
  cases entries with
  | texts values => exact nodup_fromKeys _
  | other truthy => exact List.nodup_nil

@[simp] private theorem listOf_listOf (entries : Entries) :
    listOf (.texts (listOf entries)) = listOf entries := by
  rw [listOf_texts fun _ member => kept_of_mem_listOf member, fromKeys_of_nodup (nodup_listOf entries)]

private theorem kept_of_mem_map {fold : Text → Text} {entries : Entries}
    (nonempty : ∀ {text}, text ≠ [] → fold text ≠ [])
    (stripped : ∀ {text}, IsStripped text → IsStripped (fold text)) :
    ∀ entry ∈ (listOf entries).map fold, Kept entry := by
  intro entry member
  obtain ⟨original, held, rfl⟩ := List.mem_map.mp member
  have kept := kept_of_mem_listOf held
  exact ⟨nonempty kept.ne_nil, stripped kept.stripped⟩

private theorem listOf_lower (entries : Entries) :
    listOf (.texts ((listOf entries).map lower)) = fromKeys ((listOf entries).map lower) :=
  listOf_texts (kept_of_mem_map lower_ne_nil isStripped_lower)

private theorem listOf_upper (entries : Entries) :
    listOf (.texts ((listOf entries).map upper)) = fromKeys ((listOf entries).map upper) :=
  listOf_texts (kept_of_mem_map upper_ne_nil isStripped_upper)

private theorem map_fromKeys_eq_self {fold : Text → Text} {values : List Text}
    (fixed : ∀ value ∈ values, fold value = value) :
    (fromKeys values).map fold = fromKeys values := by
  rw [List.map_congr_left fun value member => fixed value (mem_fromKeys.mp member), List.map_id']

private theorem lower_of_mem_map {entries : Entries} :
    ∀ entry ∈ (listOf entries).map lower, lower entry = entry := by
  intro entry member
  obtain ⟨original, _, rfl⟩ := List.mem_map.mp member
  exact lower_lower original

private theorem cveLetters_caseless :
    ∀ code ∈ [67, 86, 69, 45], Unicode.upperExpansions.lookup code = none ∧
      findRun Unicode.upperRuns code = none := by
  decide +kernel

private theorem upper_of_isCve {text : Text} (stripped : IsStripped text) (isCve : cve text = true) :
    upper text = text := by
  have whole := isCve
  rw [cve, dollar_of_isStripped stripped] at whole
  split at whole
  · rename_i a b c d serial
    simp only [List.all_cons, List.all_nil, Bool.and_true, Bool.and_eq_true, List.all_eq_true]
      at whole
    obtain ⟨⟨⟨⟨isA, isB, isC, isD⟩, isSerial⟩, _⟩, _⟩ := whole
    have digits : serial.flatMap upperChar = serial := by
      rw [List.flatMap_congr fun char member => upperChar_of_isDecimal (isSerial char member)]
      simp
    have letter {char : Char} (listed : char.toNat ∈ [67, 86, 69, 45]) : upperChar char = [char] := by
      rw [upperChar, (cveLetters_caseless _ listed).1, (cveLetters_caseless _ listed).2]
    have letters : upperChar 'C' = ['C'] ∧ upperChar 'V' = ['V'] ∧ upperChar 'E' = ['E'] ∧
        upperChar '-' = ['-'] :=
      ⟨letter (by decide), letter (by decide), letter (by decide), letter (by decide)⟩
    simp [upper, letters, digits, upperChar_of_isDecimal isA, upperChar_of_isDecimal isB,
      upperChar_of_isDecimal isC, upperChar_of_isDecimal isD]
  · cases whole

/-! ## Accepted rules -/

private theorem refuse_eq_nil {held : Bool} {problem : Text} :
    refuse held problem = [] ↔ held = true := by
  cases held <;> simp [refuse]

/-- What the checks hold a rule to. -/
@[mk_iff] private structure Accepted (raw : RawRule) : Prop where
  id : slug (idOf raw) = true
  name : textProblems "name".toList 80 true raw.name = []
  product : textProblems "product".toList 60 true raw.product = []
  token : tokenPattern (strip raw.token.orEmpty) = true
  severity : decide (severityOf raw ∈ severities) = true
  published : (strip raw.published.orEmpty == [] ||
    (fromIsoFormat (strip raw.published.orEmpty)).isSome) = true
  summary : textProblems "summary".toList 600 true raw.summary = []
  impact : textProblems "impact".toList 400 false raw.impact = []
  fix : textProblems "fix".toList 400 false raw.fix = []
  check : textProblems "check".toList 400 false raw.check = []
  sources : listProblems "sources".toList 5 raw.sources = []
  someSource : decide (sourcesOf raw ≠ []) = true
  eachSource : entryProblems isRead " is not a header the check reads.".toList (sourcesOf raw) = []
  seenCookies : listProblems "seen_cookies".toList 10 raw.seenCookies = []
  eachCookie : entryProblems cookie " is not a cookie name.".toList (seenCookiesOf raw) = []
  seenPaths : listProblems "seen_paths".toList 5 raw.seenPaths = []
  eachPath : entryProblems path " is not part of an address.".toList (seenPathsOf raw) = []
  cves : listProblems "cves".toList 20 raw.cves = []
  someCve : decide (cvesOf raw ≠ []) = true
  eachCve : entryProblems cve " is not a CVE id (CVE-2026-12345).".toList (cvesOf raw) = []
  references : listProblems "references".toList 10 raw.references = []
  eachReference :
    entryProblems url " is not an http(s) address.".toList (listOf raw.references) = []
  fixed : listProblems "fixed".toList 30 raw.fixed = []
  eachFixed : fixedProblems [] (listOf raw.fixed) = []
  someFixed : decide (listOf raw.fixed ≠ []) = true
  older : decide (olderOf raw ∈ [olderUnfixed, olderNotAffected]) = true
  introduced : introducedProblems (fixedOf [] (listOf raw.fixed)) (introducedText raw) = []

private theorem problems_eq_nil {raw : RawRule} : problems raw = [] ↔ Accepted raw := by
  unfold problems
  simp only [List.append_eq_nil_iff, refuse_eq_nil, and_assoc]
  exact (accepted_iff raw).symm

private theorem textProblems_textOf (key : Text) (limit : Nat) (required : Bool) (value : Value) :
    textProblems key limit required (.text (textOf value)) =
      textProblems key limit required value := by
  simp only [textProblems, textOf_textOf]

private theorem length_le_of_listProblems {key : Text} {most : Nat} {entries : Entries}
    (sound : listProblems key most entries = []) : (listOf entries).length ≤ most := by
  unfold listProblems at sound
  split at sound
  · cases sound
  · simpa [refuse_eq_nil] using sound

private theorem listProblems_texts {key : Text} {most : Nat} {entries : Entries}
    {values : List Text} (sound : listProblems key most entries = [])
    (shorter : values.length ≤ (listOf entries).length) :
    listProblems key most (.texts values) = [] := by
  have bound := length_le_of_listProblems sound
  have kept := length_listOf_le values
  rw [listProblems]
  · simp only [refuse_eq_nil, decide_eq_true_eq]
    omega
  · simp

private theorem entryProblems_eq_nil {accepted : Text → Bool} {told : Text} {entries : List Text} :
    entryProblems accepted told entries = [] ↔ ∀ entry ∈ entries, accepted entry = true := by
  simp [entryProblems, refuse_eq_nil]

private theorem entryProblems_fromKeys {accepted : Text → Bool} {told : Text}
    {entries : List Text} (sound : entryProblems accepted told entries = []) :
    entryProblems accepted told (fromKeys entries) = [] := by
  rw [entryProblems_eq_nil] at sound ⊢
  exact fun entry member => sound entry (mem_fromKeys.mp member)

private theorem fromKeys_ne_nil {values : List Text} (nonempty : values ≠ []) :
    fromKeys values ≠ [] := by
  cases values with
  | nil => exact absurd rfl nonempty
  | cons head values => simp [fromKeys]

/-! ## Compiling a compiled rule -/

section Again

variable {raw : RawRule} {switch : Switch}

private theorem idOf_toRaw : idOf ((publicOf raw).toRaw switch) = idOf raw := by
  change lower (strip (lower (strip raw.id.orEmpty))) = _
  rw [strip_lower_strip, lower_lower]
  rfl

private theorem severityOf_toRaw : severityOf ((publicOf raw).toRaw switch) = severityOf raw := by
  change lower (strip (lower (strip raw.severity.orEmpty))) = _
  rw [strip_lower_strip, lower_lower]
  rfl

private theorem sourcesOf_toRaw :
    sourcesOf ((publicOf raw).toRaw switch) = fromKeys (sourcesOf raw) := by
  change (listOf (.texts ((listOf raw.sources).map lower))).map lower = _
  rw [listOf_lower, map_fromKeys_eq_self lower_of_mem_map]
  rfl

private theorem seenCookiesOf_toRaw :
    seenCookiesOf ((publicOf raw).toRaw switch) = fromKeys (seenCookiesOf raw) := by
  change (listOf (.texts ((listOf raw.seenCookies).map lower))).map lower = _
  rw [listOf_lower, map_fromKeys_eq_self lower_of_mem_map]
  rfl

private theorem seenPathsOf_toRaw :
    seenPathsOf ((publicOf raw).toRaw switch) = fromKeys (seenPathsOf raw) := by
  change (listOf (.texts ((listOf raw.seenPaths).map lower))).map lower = _
  rw [listOf_lower, map_fromKeys_eq_self lower_of_mem_map]
  rfl

private theorem cvesOf_toRaw (accepted : Accepted raw) :
    cvesOf ((publicOf raw).toRaw switch) = fromKeys (cvesOf raw) := by
  change (listOf (.texts ((listOf raw.cves).map upper))).map upper = _
  rw [listOf_upper, map_fromKeys_eq_self]
  · rfl
  · intro entry member
    have kept := kept_of_mem_map upper_ne_nil isStripped_upper entry member
    exact upper_of_isCve kept.stripped (entryProblems_eq_nil.mp accepted.eachCve entry member)

private theorem listOf_fixed_toRaw :
    listOf ((publicOf raw).toRaw switch).fixed =
      (fixedOf [] (listOf raw.fixed)).map Release.fmt := by
  change listOf (.texts ((fixedOf [] (listOf raw.fixed)).map Release.fmt)) = _
  rw [listOf_texts, fromKeys_of_nodup]
  · refine List.pairwise_map.mpr ((newestFirst_fixedOf (listOf raw.fixed)).imp_of_mem ?_)
    intro release other isRelease isOther later same
    have read := releaseOf_fmt (fits_of_mem_fixedOf release isRelease)
    rw [same, releaseOf_fmt (fits_of_mem_fixedOf other isOther)] at read
    obtain rfl := Option.some.inj read
    unfold Release.LaterBranch at later
    omega
  · intro entry member
    obtain ⟨release, _, rfl⟩ := List.mem_map.mp member
    exact ⟨fmt_ne_nil release, isStripped_of_solid (solid_fmt release)⟩

private theorem fixedOf_toRaw :
    fixedOf [] (listOf ((publicOf raw).toRaw switch).fixed) = fixedOf [] (listOf raw.fixed) ∧
      fixedProblems [] (listOf ((publicOf raw).toRaw switch).fixed) = [] := by
  rw [listOf_fixed_toRaw]
  exact fixedOf_fmt (newestFirst_fixedOf _) fits_of_mem_fixedOf

private theorem olderOf_toRaw (accepted : Accepted raw) :
    olderOf ((publicOf raw).toRaw switch) = olderOf raw := by
  have known := of_decide_eq_true accepted.older
  have nonempty : olderOf raw ≠ [] := by
    rcases List.mem_pair.mp known with same | same <;> rw [same] <;> decide
  change strip (if olderOf raw = [] then olderUnfixed else olderOf raw) = olderOf raw
  rw [if_neg nonempty, olderOf, strip_strip]

private theorem introduced_toRaw (accepted : Accepted raw) :
    releaseOf (introducedText ((publicOf raw).toRaw switch)) = releaseOf (introducedText raw) ∧
      introducedProblems (fixedOf [] (listOf raw.fixed))
        (introducedText ((publicOf raw).toRaw switch)) = [] := by
  change releaseOf (strip ((releaseOf (introducedText raw)).elim [] Release.fmt)) = _ ∧
    introducedProblems _ (strip ((releaseOf (introducedText raw)).elim [] Release.fmt)) = []
  have sound := accepted.introduced
  cases found : releaseOf (introducedText raw) with
  | none => exact ⟨rfl, rfl⟩
  | some introduced =>
      have fits := fits_of_releaseOf found
      have given : introducedText raw ≠ [] := by
        intro empty
        rw [empty] at found
        cases found
      rw [introducedProblems, if_neg given, found] at sound
      rw [Option.elim_some, strip_of_isStripped (isStripped_of_solid (solid_fmt introduced)),
        introducedProblems, if_neg (fmt_ne_nil introduced), releaseOf_fmt fits]
      exact ⟨rfl, sound⟩

private theorem accepted_toRaw (accepted : Accepted raw) :
    Accepted ((publicOf raw).toRaw switch) where
  id := by
    rw [idOf_toRaw]
    exact accepted.id
  name := (textProblems_textOf _ _ _ raw.name).trans accepted.name
  product := (textProblems_textOf _ _ _ raw.product).trans accepted.product
  token := by
    change tokenPattern (strip (strip raw.token.orEmpty)) = true
    rw [strip_strip]
    exact accepted.token
  severity := by
    rw [severityOf_toRaw]
    exact accepted.severity
  published := by
    change (strip (strip raw.published.orEmpty) == [] ||
      (fromIsoFormat (strip (strip raw.published.orEmpty))).isSome) = true
    rw [strip_strip]
    exact accepted.published
  summary := (textProblems_textOf _ _ _ raw.summary).trans accepted.summary
  impact := (textProblems_textOf _ _ _ raw.impact).trans accepted.impact
  fix := (textProblems_textOf _ _ _ raw.fix).trans accepted.fix
  check := (textProblems_textOf _ _ _ raw.check).trans accepted.check
  sources := listProblems_texts accepted.sources (Nat.le_of_eq (List.length_map lower))
  someSource := by
    rw [sourcesOf_toRaw]
    exact decide_eq_true (fromKeys_ne_nil (of_decide_eq_true accepted.someSource))
  eachSource := by
    rw [sourcesOf_toRaw]
    exact entryProblems_fromKeys accepted.eachSource
  seenCookies := listProblems_texts accepted.seenCookies (Nat.le_of_eq (List.length_map lower))
  eachCookie := by
    rw [seenCookiesOf_toRaw]
    exact entryProblems_fromKeys accepted.eachCookie
  seenPaths := listProblems_texts accepted.seenPaths (Nat.le_of_eq (List.length_map lower))
  eachPath := by
    rw [seenPathsOf_toRaw]
    exact entryProblems_fromKeys accepted.eachPath
  cves := listProblems_texts accepted.cves (Nat.le_of_eq (List.length_map upper))
  someCve := by
    rw [cvesOf_toRaw accepted]
    exact decide_eq_true (fromKeys_ne_nil (of_decide_eq_true accepted.someCve))
  eachCve := by
    rw [cvesOf_toRaw accepted]
    exact entryProblems_fromKeys accepted.eachCve
  references := listProblems_texts accepted.references (Nat.le_refl _)
  eachReference := by
    change entryProblems url _ (listOf (.texts (listOf raw.references))) = []
    rw [listOf_listOf]
    exact accepted.eachReference
  fixed := listProblems_texts accepted.fixed (by
    change ((fixedOf [] (listOf raw.fixed)).map Release.fmt).length ≤ _
    rw [List.length_map]
    exact Nat.le_trans length_fixedOf_le (by simp))
  eachFixed := fixedOf_toRaw.2
  someFixed := by
    rw [listOf_fixed_toRaw]
    have some := fixedOf_ne_nil (of_decide_eq_true accepted.someFixed) accepted.eachFixed
    exact decide_eq_true (by simpa using some)
  older := by
    rw [olderOf_toRaw accepted]
    exact accepted.older
  introduced := by
    rw [fixedOf_toRaw.1]
    exact (introduced_toRaw accepted).2

end Again

/-- Every entry of the lists that are folded to one case, once. -/
def PublicRule.distinct (rule : PublicRule) : PublicRule :=
  { rule with
    sources := fromKeys rule.sources
    seenCookies := fromKeys rule.seenCookies
    seenPaths := fromKeys rule.seenPaths
    cves := fromKeys rule.cves }

/-- No list that is folded to one case holds an entry twice. -/
def PublicRule.Distinct (rule : PublicRule) : Prop :=
  rule.sources.Nodup ∧ rule.seenCookies.Nodup ∧ rule.seenPaths.Nodup ∧ rule.cves.Nodup

instance (rule : PublicRule) : Decidable rule.Distinct :=
  inferInstanceAs (Decidable (_ ∧ _ ∧ _ ∧ _))

theorem PublicRule.distinct_of_distinct {rule : PublicRule} (held : rule.Distinct) :
    rule.distinct = rule := by
  obtain ⟨sources, seenCookies, seenPaths, cves⟩ := held
  simp [distinct, fromKeys_of_nodup, *]

theorem compileRule_eq_ok {document : Document} {builtin : Bool} {rule : Rule} :
    compileRule document builtin = .ok rule ↔
      ∃ raw, document = .object raw ∧ problems raw = [] ∧
        rule =
          { publicForm := publicOf raw
            builtin
            pattern := strip raw.token.orEmpty
            traits := traits (strip raw.token.orEmpty)
            fixed := fixedOf [] (listOf raw.fixed)
            introduced := releaseOf (introducedText raw) } := by
  cases document with
  | other => simp [compileRule]
  | object raw =>
      rw [compileRule]
      split
      · rename_i refused
        constructor
        · exact fun impossible => by cases impossible
        · rintro ⟨_, ⟨⟩, sound, _⟩
          exact absurd sound refused
      · rename_i sound
        rw [not_not] at sound
        constructor
        · rintro ⟨⟩
          exact ⟨raw, rfl, sound, rfl⟩
        · rintro ⟨_, ⟨⟩, _, rfl⟩
          rfl

/-- A compiled rule names a release with the fix, and the flaw came in before the newest of them. -/
theorem introduced_of_compiled {document : Document} {builtin : Bool} {rule : Rule}
    (compiled : compileRule document builtin = .ok rule) :
    rule.fixed ≠ [] ∧ ∀ introduced, rule.introduced = some introduced →
      ∃ release ∈ rule.fixed, ¬ introduced.AtLeast release := by
  obtain ⟨raw, rfl, sound, rfl⟩ := compileRule_eq_ok.mp compiled
  have accepted := problems_eq_nil.mp sound
  have some := fixedOf_ne_nil (of_decide_eq_true accepted.someFixed) accepted.eachFixed
  refine ⟨some, fun introduced isIntroduced => ?_⟩
  dsimp only at isIntroduced ⊢
  have checked := accepted.introduced
  have written : introducedText raw ≠ [] := by
    intro nothing
    rw [nothing] at isIntroduced
    cases isIntroduced
  rw [introducedProblems, if_neg written, isIntroduced, refuse_eq_nil, Bool.or_eq_true,
    beq_iff_eq, List.any_eq_true] at checked
  obtain ⟨release, member, later⟩ := checked.resolve_left some
  exact ⟨release, member, by simpa using later⟩

/-- The data of a compiled rule compiles to the same rule, the entries of its folded lists each
once. -/
theorem compileRule_toRaw {document : Document} {builtin : Bool} {rule : Rule}
    (compiled : compileRule document builtin = .ok rule) (switch : Switch) (again : Bool) :
    compileRule (.object (rule.publicForm.toRaw switch)) again =
      .ok { rule with publicForm := rule.publicForm.distinct, builtin := again } := by
  obtain ⟨raw, rfl, sound, rfl⟩ := compileRule_eq_ok.mp compiled
  have accepted := problems_eq_nil.mp sound
  refine compileRule_eq_ok.mpr
    ⟨(publicOf raw).toRaw switch, rfl, problems_eq_nil.mpr (accepted_toRaw accepted), ?_⟩
  have token : strip ((publicOf raw).toRaw switch).token.orEmpty = strip raw.token.orEmpty :=
    strip_strip raw.token.orEmpty
  have fixed : fixedOf [] (listOf ((publicOf raw).toRaw switch).fixed) =
      fixedOf [] (listOf raw.fixed) := fixedOf_toRaw.1
  have introduced : releaseOf (introducedText ((publicOf raw).toRaw switch)) =
      releaseOf (introducedText raw) := (introduced_toRaw accepted).1
  have published : publicOf ((publicOf raw).toRaw switch) = (publicOf raw).distinct := by
    rw [publicOf, idOf_toRaw, severityOf_toRaw, sourcesOf_toRaw, seenCookiesOf_toRaw,
      seenPathsOf_toRaw, cvesOf_toRaw accepted, olderOf_toRaw accepted, token, fixed, introduced]
    simp only [PublicRule.toRaw, publicOf, textOf_textOf, listOf_listOf, PublicRule.distinct,
      Value.orEmpty, strip_strip]
  rw [published, token, fixed, introduced]

/-! ## The built-in rules -/

/-- `BUILTIN_RULES`. -/
def builtinRules : List RawRule :=
  [{ id := .text "php2shell".toList
     name := .text "PHP2Shell".toList
     product := .text "PHP".toList
     token := .text "PHP".toList
     cves := .texts ["CVE-2026-109618".toList, "CVE-2026-109619".toList]
     severity := .text "critical".toList
     published := .text "2026-10-21".toList
     summary := .text ("Unauthenticated remote code execution in PHP itself (memory corruption ".toList ++
       "on running out of memory, and a use-after-free in state kept between requests); ".toList ++
       "exploited since the day of the fix.".toList)
     impact := .text "The flaw lets anyone run code on the server without signing in.".toList
     fix := .text ("Update PHP to the release with the fix (or the patched package from your ".toList ++
       "vendor) and restart the web server and PHP-FPM.".toList)
     check := .text ("On the server: php -v, or the package version (dpkg -l 'php*', ".toList ++
       "rpm -qa 'php*'), against the release with the fix.".toList)
     sources := .texts ["x-powered-by".toList, "server".toList]
     seenCookies := .texts ["phpsessid".toList, "laravel_session".toList, "ci_session".toList,
       "wordpress_".toList, "wp-settings".toList]
     seenPaths := .texts [".php".toList]
     fixed := .texts ["8.5.12".toList, "8.4.27".toList, "8.3.36".toList, "8.2.35".toList]
     olderBranches := .text olderUnfixed
     introduced := .other "None".toList false
     references := .texts
       [("https://www.rapid7.com/blog/post/etr-cve-2026-109618-and-cve-2026-109619-critical-".toList ++
         "unauthenticated-remote-code-execution-in-php/".toList),
        ("https://www.tenable.com/blog/php2shell-cve-2026-109618-cve-2026-109619-frequently-".toList ++
         "asked-questions-about-critical-php-remote".toList)]
     enabled := .absent }]

/-- `BUILTIN_IDS`. -/
def builtinIds : List Text := builtinRules.map idOf

end SoftwareAdvisories
end DomainLens
