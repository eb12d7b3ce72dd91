import DomainLens.Library.Decimal
import DomainLens.Python.Text

/-!
# The lookups of SPF records

The terms of an SPF record that cost a DNS lookup are counted through the records it includes and the one it
redirects to.  The count is compared with what an evaluation costs in which no mechanism matches.
-/

namespace DomainLens
namespace SecurityChecks
namespace Spf

open Python Decimal

/-! ## Records -/

/-- A zone has the strings of each TXT record of a domain. -/
abbrev Zone := Text → List (List Text)

/-- `to_text` of a character. -/
def shownChar (char : Char) : Text :=
  if char = '"' ∨ char = '\\' then ['\\', char]
  else if 32 ≤ char.toNat ∧ char.toNat < 127 then [char]
  else '\\' :: padded 3 char.toNat

/-- `to_text` of a TXT record: its strings in quotation marks. -/
def shownText (strings : List Text) : Text :=
  joinWords (strings.map fun string => '"' :: (string.flatMap shownChar ++ ['"']))

def isSpf (record : Text) : Bool := "v=spf1".toList <+: lower record

/-- The SPF record as it is read from what is shown. -/
def shownRecord (zone : Zone) (domain : Text) : Option Text :=
  ((zone domain).map fun strings => stripOf ['"'] (shownText strings)).find? isSpf

def recordOf (zone : Zone) (domain : Text) : Option Text := ((zone domain).map List.flatten).find? isSpf

/-! ## Counting -/

def behindMark (mark : Char) (term : Text) : Text := (term.dropWhile (· ≠ mark)).drop 1

def isCounted (m : Text) : Bool :=
  ["include:", "a:", "mx:", "ptr:", "exists:"].any (fun mark => mark.toList <+: m) ||
    m ∈ ["a", "mx", "ptr"].map String.toList

/-- The lookups of one term, and the domains seen behind it; `next` counts those of another domain. -/
def countTerm (next : Text → List Text → ℕ × List Text) (seen : List Text) (mech : Text) : ℕ × List Text :=
  let m := lower mech
  if isCounted m then
    if "include:".toList <+: m then
      let (found, seen) := next (behindMark ':' mech) seen
      (1 + found, seen)
    else (1, seen)
  else if "redirect=".toList <+: m then
    let (found, seen) := next (behindMark '=' mech) seen
    (1 + found, seen)
  else (0, seen)

def countStep (next : Text → List Text → ℕ × List Text) (state : ℕ × List Text) (mech : Text) : ℕ × List Text :=
  let (found, seen) := countTerm next state.2 mech
  (state.1 + found, seen)

/-- `_spf_lookup_count` by how many more records may be read in a row, with the domains seen behind it. -/
def lookupsFrom (zone : Zone) : ℕ → Text → List Text → ℕ × List Text
  | 0, _, seen => (0, seen)
  | left + 1, domain, seen =>
      if domain ∈ seen then (0, seen)
      else
        match shownRecord zone domain with
        | none => (0, domain :: seen)
        | some spf => (split spf).foldl (countStep (lookupsFrom zone left)) (0, domain :: seen)

/-- `_spf_lookup_count`: a depth of more than ten is not read. -/
def spfLookupCount (zone : Zone) (domain : Text) : ℕ := (lookupsFrom zone 11 domain []).1

/-- The entry `spf_lookups` of `check_dns_mail_gaps`: the count, and whether it is over the limit. -/
def spfLookups (zone : Zone) (domain : Text) : ℕ × Bool :=
  (spfLookupCount zone domain, 10 < spfLookupCount zone domain)

/-! ## Evaluation -/

def unqualified (m : Text) : Text :=
  match m with
  | char :: rest => if char ∈ ['+', '-', '?', '~'] then rest else m
  | [] => []

/-- A mechanism that costs a lookup, with or without a qualifier, a domain or a prefix length. -/
def isCostly (m : Text) : Bool :=
  ["include:", "exists:", "a:", "mx:", "ptr:", "a/", "mx/"].any (fun mark => mark.toList <+: unqualified m) ||
    unqualified m ∈ ["a", "mx", "ptr"].map String.toList

def isRedirect (m : Text) : Bool := "redirect=".toList <+: m

/-- A record with the mechanism `all` redirects nowhere. -/
def hasAll (spf : Text) : Bool := (split spf).any fun mech => unqualified (lower mech) = "all".toList

/-- The lookup of a term itself, by whether there is an `all`. -/
def ownCost (all : Bool) (mech : Text) : ℕ :=
  if isCostly (lower mech) || (!all && isRedirect (lower mech)) then 1 else 0

/-- The domain whose record is evaluated for a term. -/
def targetOf (all : Bool) (mech : Text) : Option Text :=
  if "include:".toList <+: unqualified (lower mech) then some (behindMark ':' mech)
  else if !all && isRedirect (lower mech) then some (behindMark '=' mech)
  else none

/-- The lookups of an evaluation in which no mechanism matches, through no more than so many records in a row. -/
def evaluationCost (zone : Zone) : ℕ → Text → ℕ
  | 0, _ => 0
  | height + 1, domain =>
      match recordOf zone domain with
      | none => 0
      | some spf =>
          ((split spf).map fun mech => ownCost (hasAll spf) mech +
            ((targetOf (hasAll spf) mech).map (evaluationCost zone height)).getD 0).sum

/-- All records of an evaluation resolve, and no more than so many are read in a row: there is no cycle. -/
def Resolves (zone : Zone) : ℕ → Text → Prop
  | 0, _ => False
  | height + 1, domain => ∃ spf, recordOf zone domain = some spf ∧
      ∀ mech ∈ split spf, ∀ target ∈ targetOf (hasAll spf) mech, Resolves zone height target

/-- The domains of an evaluation in order, each time they are evaluated, with how many more may be read there. -/
def visits (zone : Zone) : ℕ → ℕ → Text → List (ℕ × Text)
  | 0, _, _ => []
  | height + 1, left, domain =>
      (left, domain) ::
        match recordOf zone domain with
        | none => []
        | some spf => (split spf).flatMap fun mech =>
            ((targetOf (hasAll spf) mech).map (visits zone height (left - 1))).getD []

/-! ## What is counted right -/

/-- A domain whose record has a term that costs a lookup. -/
def isCostlyDomain (zone : Zone) (domain : Text) : Bool :=
  (recordOf zone domain).any fun spf => (split spf).any fun mech => ownCost (hasAll spf) mech ≠ 0

/-- What costs a lookup has no qualifier, and no prefix length without a domain. -/
def IsPlain (zone : Zone) (domain : Text) : Prop :=
  ∀ spf ∈ recordOf zone domain, ∀ mech ∈ split spf, isCostly (lower mech) = true → isCounted (lower mech) = true

/-- Every term that costs is plain, each domain that costs is evaluated once, and none of them too deep. -/
structure Countable (zone : Zone) (entries : List (ℕ × Text)) : Prop where
  plain : ∀ entry ∈ entries, IsPlain zone entry.2
  once : ((entries.map Prod.snd).filter (isCostlyDomain zone)).Nodup
  shallow : ∀ entry ∈ entries, isCostlyDomain zone entry.2 = true → 0 < entry.1

/-- A record is shown as it is, and does not redirect beside an `all`. -/
structure IsOrdinary (zone : Zone) (domain : Text) : Prop where
  shown : shownRecord zone domain = recordOf zone domain
  single : ∀ spf ∈ recordOf zone domain, hasAll spf = true → ∀ mech ∈ split spf, isRedirect (lower mech) = false

instance decidableResolves (zone : Zone) : ∀ height domain, Decidable (Resolves zone height domain)
  | 0, _ => .isFalse id
  | height + 1, domain =>
      match isRecord : recordOf zone domain with
      | none => .isFalse fun ⟨_, found, _⟩ => nomatch isRecord.symm.trans found
      | some spf =>
          have := decidableResolves zone height
          decidable_of_iff
            (∀ mech ∈ split spf, ∀ target ∈ targetOf (hasAll spf) mech, Resolves zone height target)
            ⟨fun targets => ⟨spf, isRecord, targets⟩, fun ⟨_, found, targets⟩ =>
              Option.some.inj (found.symm.trans isRecord) ▸ targets⟩

instance (zone : Zone) (domain : Text) : Decidable (IsPlain zone domain) :=
  inferInstanceAs (Decidable (∀ spf ∈ recordOf zone domain, ∀ mech ∈ split spf, _))

instance (zone : Zone) (entries : List (ℕ × Text)) : Decidable (Countable zone entries) :=
  decidable_of_iff ((∀ entry ∈ entries, IsPlain zone entry.2) ∧
      ((entries.map Prod.snd).filter (isCostlyDomain zone)).Nodup ∧
      ∀ entry ∈ entries, isCostlyDomain zone entry.2 = true → 0 < entry.1)
    ⟨fun ⟨plain, once, shallow⟩ => ⟨plain, once, shallow⟩,
      fun countable => ⟨countable.plain, countable.once, countable.shallow⟩⟩

instance (zone : Zone) (domain : Text) : Decidable (IsOrdinary zone domain) :=
  decidable_of_iff (shownRecord zone domain = recordOf zone domain ∧ ∀ spf ∈ recordOf zone domain,
      hasAll spf = true → ∀ mech ∈ split spf, isRedirect (lower mech) = false)
    ⟨fun ⟨shown, single⟩ => ⟨shown, single⟩, fun ordinary => ⟨ordinary.shown, ordinary.single⟩⟩

/-! ## Terms -/

section Terms

variable {all : Bool} {mech m : Text}

private theorem head_of_marks {marks words : List String}
    (heads : (marks ++ words).all (fun mark => mark.toList.head?.any (· ∈ ['i', 'a', 'm', 'p', 'e'])) = true)
    (found : (marks.any (fun mark => mark.toList <+: m) || m ∈ words.map String.toList) = true) :
    ∃ char rest, m = char :: rest ∧ char ∈ ['i', 'a', 'm', 'p', 'e'] := by
  have head : ∀ mark ∈ marks ++ words, ∃ char rest, mark.toList = char :: rest ∧
      char ∈ ['i', 'a', 'm', 'p', 'e'] := by
    intro mark member
    have isHead := List.all_eq_true.mp heads mark member
    obtain ⟨char, isChar, known⟩ := (Option.any_eq_true _ _).mp isHead
    obtain ⟨rest, same⟩ := List.head?_eq_some_iff.mp isChar
    exact ⟨char, rest, same, of_decide_eq_true known⟩
  rw [Bool.or_eq_true, List.any_eq_true, decide_eq_true_eq] at found
  rcases found with ⟨mark, isMark, starts⟩ | whole
  · obtain ⟨char, rest, isHead, known⟩ := head mark (List.mem_append_left _ isMark)
    obtain ⟨more, rfl⟩ := of_decide_eq_true starts
    exact ⟨char, rest ++ more, by rw [isHead]; rfl, known⟩
  · obtain ⟨word, isWord, rfl⟩ := List.mem_map.mp whole
    exact head word (List.mem_append_right _ isWord)

private theorem head_of_isCounted (counted : isCounted m = true) :
    ∃ char rest, m = char :: rest ∧ char ∈ ['i', 'a', 'm', 'p', 'e'] :=
  head_of_marks (by decide) counted

theorem unqualified_of_isCounted (counted : isCounted m = true) : unqualified m = m := by
  obtain ⟨char, rest, rfl, known⟩ := head_of_isCounted counted
  have plain : ∀ char ∈ ['i', 'a', 'm', 'p', 'e'], char ∉ ['+', '-', '?', '~'] := by simp
  exact if_neg (plain char known)

private theorem isRedirect_cons (redirects : isRedirect m = true) : ∃ rest, m = 'r' :: rest := by
  obtain ⟨rest, rfl⟩ := of_decide_eq_true redirects
  exact ⟨_, rfl⟩

theorem isRedirect_of_isCounted (counted : isCounted m = true) : isRedirect m = false := by
  obtain ⟨char, rest, rfl, known⟩ := head_of_isCounted counted
  by_contra redirects
  obtain ⟨other, same⟩ := isRedirect_cons (Bool.eq_true_of_not_eq_false redirects)
  obtain ⟨rfl, -⟩ := List.cons.inj same
  exact absurd known (by decide)

theorem isCostly_of_isCounted (counted : isCounted m = true) : isCostly m = true := by
  have plain := unqualified_of_isCounted counted
  rw [isCounted, Bool.or_eq_true, List.any_eq_true] at counted
  rw [isCostly, plain, Bool.or_eq_true, List.any_eq_true]
  refine counted.imp_left fun ⟨mark, isMark, starts⟩ => ⟨mark, ?_, starts⟩
  have listed : ∀ mark ∈ ["include:", "a:", "mx:", "ptr:", "exists:"],
      mark ∈ ["include:", "exists:", "a:", "mx:", "ptr:", "a/", "mx/"] := by decide
  exact listed mark isMark

theorem isCostly_of_include (includes : "include:".toList <+: unqualified m) : isCostly m = true := by
  rw [isCostly, Bool.or_eq_true, List.any_eq_true]
  exact .inl ⟨"include:", by decide, decide_eq_true includes⟩

theorem unqualified_of_isRedirect (redirects : isRedirect m = true) : unqualified m = m := by
  obtain ⟨rest, rfl⟩ := isRedirect_cons redirects
  rw [unqualified, if_neg (by decide)]

theorem isCostly_of_isRedirect (redirects : isRedirect m = true) : isCostly m = false := by
  have plain := unqualified_of_isRedirect redirects
  by_contra costly
  rw [isCostly, plain, Bool.not_eq_false] at costly
  obtain ⟨char, rest, same, known⟩ := head_of_marks (by decide) costly
  obtain ⟨other, isOther⟩ := isRedirect_cons redirects
  obtain ⟨rfl, -⟩ := List.cons.inj (same.symm.trans isOther)
  exact absurd known (by decide)

theorem ownCost_of_isCostly (costly : isCostly (lower mech) = true) : ownCost all mech = 1 := by
  rw [ownCost, costly, Bool.true_or, if_pos rfl]

theorem targetOf_of_include (includes : "include:".toList <+: unqualified (lower mech)) :
    targetOf all mech = some (behindMark ':' mech) :=
  if_pos includes

theorem targetOf_of_isCounted (counted : isCounted (lower mech) = true)
    (other : ¬"include:".toList <+: lower mech) : targetOf all mech = none := by
  rw [targetOf, unqualified_of_isCounted counted, if_neg other, isRedirect_of_isCounted counted, Bool.and_false,
    if_neg Bool.false_ne_true]

theorem redirect_cases (redirects : isRedirect (lower mech) = true) :
    ownCost false mech = 1 ∧ targetOf false mech = some (behindMark '=' mech) := by
  have other : ¬"include:".toList <+: unqualified (lower mech) := by
    rw [unqualified_of_isRedirect redirects]
    obtain ⟨rest, same⟩ := isRedirect_cons redirects
    rw [same]
    exact fun starts => absurd (List.cons_prefix_cons.mp starts).1 (by decide)
  refine ⟨?_, ?_⟩
  · rw [ownCost, redirects, Bool.not_false, Bool.and_self, Bool.or_true, if_pos rfl]
  · rw [targetOf, if_neg other, redirects, Bool.not_false, Bool.and_self, if_pos rfl]

theorem targetOf_of_ownCost (free : ownCost all mech = 0) : targetOf all mech = none := by
  rw [ownCost] at free
  split_ifs at free with costs
  rw [Bool.or_eq_true, not_or] at costs
  rw [targetOf, if_neg fun includes => costs.1 (isCostly_of_include includes), if_neg costs.2]

end Terms

/-! ## Counting with seen domains -/

/-- What is counted right, none of it seen before. -/
structure Good (zone : Zone) (seen : List Text) (entries : List (ℕ × Text)) : Prop
    extends Countable zone entries where
  fresh : ∀ entry ∈ entries, isCostlyDomain zone entry.2 = true → entry.2 ∉ seen

/-- A count with the domains seen behind it: it never is over the cost, and is the cost if and only if all of it is
counted right. -/
structure Follows (zone : Zone) (seen : List Text) (entries : List (ℕ × Text)) (cost : ℕ) (spelled : Prop)
    (result : ℕ × List Text) : Prop where
  le : result.1 ≤ cost
  grows : ∀ domain ∈ seen, domain ∈ result.2
  within : ∀ domain ∈ result.2, domain ∈ seen ∨ domain ∈ entries.map Prod.snd
  whole : result.1 = cost ↔ spelled ∧ Good zone seen entries
  visited : result.1 = cost → ∀ entry ∈ entries, isCostlyDomain zone entry.2 = true → entry.2 ∈ result.2

section Follow

variable {zone : Zone} {seen : List Text} {entries front behind : List (ℕ × Text)}

theorem good_nil : Good zone seen [] where
  plain _ member := absurd member List.not_mem_nil
  once := List.nodup_nil
  shallow _ member := absurd member List.not_mem_nil
  fresh _ member := absurd member List.not_mem_nil

theorem mem_costly {domain : Text} :
    domain ∈ (entries.map Prod.snd).filter (isCostlyDomain zone) ↔
      ∃ entry ∈ entries, isCostlyDomain zone entry.2 = true ∧ entry.2 = domain := by
  rw [List.mem_filter, List.mem_map]
  constructor
  · rintro ⟨⟨entry, member, rfl⟩, costly⟩
    exact ⟨entry, member, costly, rfl⟩
  · rintro ⟨entry, member, costly, rfl⟩
    exact ⟨⟨entry, member, rfl⟩, costly⟩

theorem Follows.append {between : List Text} {found later cost more : ℕ} {spelled other : Prop}
    {last : List Text} (first : Follows zone seen front cost spelled (found, between))
    (second : Follows zone between behind more other (later, last)) :
    Follows zone seen (front ++ behind) (cost + more) (spelled ∧ other) (found + later, last) where
  le := Nat.add_le_add first.le second.le
  grows domain member := second.grows domain (first.grows domain member)
  within domain member := by
    rw [List.map_append, List.mem_append]
    rcases second.within domain member with inBetween | inBehind
    · exact (first.within domain inBetween).imp_right .inl
    · exact .inr (.inr inBehind)
  whole := by
    have firstLe : found ≤ cost := first.le
    have secondLe : later ≤ more := second.le
    have both : found + later = cost + more ↔ found = cost ∧ later = more := by omega
    rw [both]
    constructor
    · rintro ⟨firstSame, secondSame⟩
      obtain ⟨firstSpelled, good⟩ := first.whole.mp firstSame
      obtain ⟨secondSpelled, goodBehind⟩ := second.whole.mp secondSame
      refine ⟨⟨firstSpelled, secondSpelled⟩, ⟨⟨?_, ?_, ?_⟩, ?_⟩⟩
      · exact List.forall_mem_append.mpr ⟨good.plain, goodBehind.plain⟩
      · rw [List.map_append, List.filter_append]
        refine good.once.append goodBehind.once fun domain inFront inBehind => ?_
        obtain ⟨entry, member, costly, rfl⟩ := mem_costly.mp inFront
        obtain ⟨again, memberAgain, costlyAgain, same⟩ := mem_costly.mp inBehind
        exact goodBehind.fresh again memberAgain costlyAgain
          (same ▸ first.visited firstSame entry member costly)
      · exact List.forall_mem_append.mpr ⟨good.shallow, goodBehind.shallow⟩
      · exact List.forall_mem_append.mpr ⟨good.fresh, fun entry member costly isSeen =>
          goodBehind.fresh entry member costly (first.grows _ isSeen)⟩
    · rintro ⟨⟨firstSpelled, secondSpelled⟩, good⟩
      have once := good.once
      rw [List.map_append, List.filter_append, List.nodup_append] at once
      obtain ⟨onceFront, onceBehind, apart⟩ := once
      have plain := List.forall_mem_append.mp good.plain
      have shallow := List.forall_mem_append.mp good.shallow
      have fresh := List.forall_mem_append.mp good.fresh
      refine ⟨first.whole.mpr ⟨firstSpelled, ⟨⟨plain.1, onceFront, shallow.1⟩, fresh.1⟩⟩,
        second.whole.mpr ⟨secondSpelled, ⟨⟨plain.2, onceBehind, shallow.2⟩, ?_⟩⟩⟩
      intro entry member costly isSeen
      rcases first.within entry.2 isSeen with before | inFront
      · exact fresh.2 entry member costly before
      · obtain ⟨earlier, isEarlier, same⟩ := List.mem_map.mp inFront
        exact apart entry.2 (mem_costly.mpr ⟨earlier, isEarlier, same ▸ costly, same⟩) entry.2
          (mem_costly.mpr ⟨entry, member, costly, rfl⟩) rfl
  visited same := by
    have firstLe : found ≤ cost := first.le
    have secondLe : later ≤ more := second.le
    have whole : found + later = cost + more := same
    exact List.forall_mem_append.mpr
      ⟨fun entry member costly => second.grows _ (first.visited (by omega) entry member costly),
        second.visited (by omega)⟩

/-- A term that is counted and leads nowhere, or is not counted and costs something or nothing. -/
theorem follows_leaf {found cost : ℕ} {spelled : Prop} (le : found ≤ cost) (whole : found = cost ↔ spelled) :
    Follows zone seen [] cost spelled (found, seen) where
  le
  grows _ member := member
  within _ member := .inl member
  whole := whole.trans (and_iff_left good_nil).symm
  visited _ _ member := absurd member List.not_mem_nil

theorem follows_missed {cost : ℕ} {spelled : Prop} (costs : 0 < cost)
    (wrong : spelled → ¬Good zone seen entries) : Follows zone seen entries cost spelled (0, seen) where
  le := costs.le
  grows _ member := member
  within _ member := .inl member
  whole := iff_of_false costs.ne fun right => wrong right.1 right.2
  visited same := absurd same costs.ne

theorem Follows.one {cost : ℕ} {spelled : Prop} {result : ℕ × List Text}
    (follows : Follows zone seen entries cost True result) (isSpelled : spelled) :
    Follows zone seen entries (1 + cost) spelled (1 + result.1, result.2) where
  le := Nat.add_le_add_left follows.le 1
  grows := follows.grows
  within := follows.within
  whole := by
    rw [Nat.add_left_cancel_iff, follows.whole]
    exact and_congr_left' (iff_of_true trivial isSpelled)
  visited same := follows.visited (Nat.add_left_cancel same)

theorem foldl_follows {next : Text → List Text → ℕ × List Text} {entriesOf : Text → List (ℕ × Text)}
    {costOf : Text → ℕ} {spelled : Text → Prop} {mechs : List Text}
    (each : ∀ mech ∈ mechs, ∀ seen,
      Follows zone seen (entriesOf mech) (costOf mech) (spelled mech) (countTerm next seen mech))
    (found : ℕ) (seen : List Text) :
    ∃ result, mechs.foldl (countStep next) (found, seen) = (found + result.1, result.2) ∧
      Follows zone seen (mechs.flatMap entriesOf) (mechs.map costOf).sum (∀ mech ∈ mechs, spelled mech)
        result := by
  induction mechs generalizing found seen with
  | nil =>
      exact ⟨(0, seen), rfl, follows_leaf le_rfl (iff_of_true rfl fun mech member =>
        absurd member List.not_mem_nil)⟩
  | cons mech mechs induction =>
      obtain ⟨here, later⟩ := List.forall_mem_cons.mp each
      obtain ⟨result, same, follows⟩ := induction later (found + (countTerm next seen mech).1)
        (countTerm next seen mech).2
      refine ⟨((countTerm next seen mech).1 + result.1, result.2), ?_, ?_⟩
      · rw [List.foldl_cons, ← Nat.add_assoc]
        exact same
      · rw [List.flatMap_cons, List.map_cons, List.sum_cons, List.forall_mem_cons]
        exact (here seen).append follows

/-- The count of a term follows its cost, given that of the domain it leads to. -/
theorem countTerm_follows {next : Text → List Text → ℕ × List Text} {visitsOf : Text → List (ℕ × Text)}
    {cost : Text → ℕ} {all : Bool} {mech : Text}
    (single : all = true → isRedirect (lower mech) = false)
    (nextFollows : ∀ target ∈ targetOf all mech, ∀ seen,
      Follows zone seen (visitsOf target) (cost target) True (next target seen)) (seen : List Text) :
    Follows zone seen (((targetOf all mech).map visitsOf).getD [])
      (ownCost all mech + ((targetOf all mech).map cost).getD 0)
      (isCostly (lower mech) = true → isCounted (lower mech) = true) (countTerm next seen mech) := by
  rw [countTerm]
  by_cases counted : isCounted (lower mech) = true
  · have own : ownCost all mech = 1 := ownCost_of_isCostly (isCostly_of_isCounted counted)
    by_cases includes : "include:".toList <+: lower mech
    · have target : targetOf all mech = some (behindMark ':' mech) :=
        targetOf_of_include (by rwa [unqualified_of_isCounted counted])
      rw [target] at nextFollows
      rw [own, target, if_pos counted, if_pos includes]
      exact (nextFollows _ rfl seen).one fun _ => counted
    · rw [own, targetOf_of_isCounted counted includes, if_pos counted, if_neg includes]
      exact follows_leaf le_rfl (iff_of_true rfl fun _ => counted)
  · by_cases redirects : isRedirect (lower mech) = true
    · have noAll : all = false := by
        by_contra isAll
        rw [single (Bool.eq_true_of_not_eq_false isAll)] at redirects
        cases redirects
      have starts : "redirect=".toList <+: lower mech := of_decide_eq_true redirects
      have plain : isCostly (lower mech) = true → isCounted (lower mech) = true := by
        rw [isCostly_of_isRedirect redirects]
        exact nofun
      subst noAll
      obtain ⟨own, target⟩ := redirect_cases redirects
      rw [target] at nextFollows
      rw [own, target, if_neg counted, if_pos starts]
      exact (nextFollows _ rfl seen).one plain
    · have starts : ¬"redirect=".toList <+: lower mech := fun starts => redirects (decide_eq_true starts)
      rw [if_neg counted, if_neg starts]
      by_cases costly : isCostly (lower mech) = true
      · rw [ownCost_of_isCostly costly]
        exact follows_missed (by omega) fun spelled => absurd (spelled costly) counted
      · have free : ownCost all mech = 0 := by
          rw [ownCost, if_neg (by simp [costly, redirects])]
        rw [free, targetOf_of_ownCost free]
        exact follows_leaf le_rfl (iff_of_true rfl fun isCostly => absurd isCostly costly)

theorem free_domain {height left : ℕ} {domain spf : Text} (isRecord : recordOf zone domain = some spf)
    (free : isCostlyDomain zone domain = false) :
    evaluationCost zone (height + 1) domain = 0 ∧ visits zone (height + 1) left domain = [(left, domain)] := by
  have own : ∀ mech ∈ split spf, ownCost (hasAll spf) mech = 0 := by
    intro mech member
    rw [isCostlyDomain, isRecord, Option.any_some, List.any_eq_false] at free
    simpa using free mech member
  rw [evaluationCost, visits, isRecord]
  refine ⟨List.sum_eq_zero fun cost isCost => ?_, ?_⟩
  · obtain ⟨mech, member, rfl⟩ := List.mem_map.mp isCost
    rw [own mech member, targetOf_of_ownCost (own mech member)]
    rfl
  · refine congrArg _ (List.flatMap_eq_nil_iff.mpr fun mech member => ?_)
    rw [targetOf_of_ownCost (own mech member)]
    rfl

theorem costly_domain {height : ℕ} {domain : Text} (costly : isCostlyDomain zone domain = true) :
    0 < evaluationCost zone (height + 1) domain := by
  obtain ⟨spf, isRecord, some⟩ := (Option.any_eq_true _ _).mp costly
  obtain ⟨mech, member, costs⟩ := List.any_eq_true.mp some
  rw [evaluationCost, isRecord]
  have isCost := List.mem_map_of_mem (f := fun mech => ownCost (hasAll spf) mech +
    ((targetOf (hasAll spf) mech).map (evaluationCost zone height)).getD 0) member
  have least := List.single_le_sum (fun _ _ => Nat.zero_le _) _ isCost
  have positive : 0 < ownCost (hasAll spf) mech := Nat.pos_of_ne_zero (of_decide_eq_true costs)
  dsimp only at least ⊢
  omega

theorem follows_pruned {height left : ℕ} {domain spf : Text} (isRecord : recordOf zone domain = some spf)
    (pruned : left = 0 ∨ domain ∈ seen) :
    Follows zone seen (visits zone (height + 1) left domain) (evaluationCost zone (height + 1) domain) True
      (0, seen) := by
  by_cases costly : isCostlyDomain zone domain = true
  · refine follows_missed (costly_domain costly) fun _ good => ?_
    have member : (left, domain) ∈ visits zone (height + 1) left domain := List.mem_cons_self
    rcases pruned with rfl | isSeen
    · exact absurd (good.shallow _ member costly) (Nat.lt_irrefl 0)
    · exact good.fresh _ member costly isSeen
  · have free := Bool.eq_false_of_not_eq_true costly
    obtain ⟨noCost, single⟩ := @free_domain _ height left domain spf isRecord free
    have plain : IsPlain zone domain := by
      intro record found mech member isCostly
      obtain rfl := Option.some.inj (isRecord.symm.trans found)
      rw [isCostlyDomain, isRecord, Option.any_some, List.any_eq_false] at free
      have own := free mech member
      rw [ownCost_of_isCostly isCostly] at own
      simp at own
    rw [noCost, single]
    refine ⟨le_rfl, fun _ member => member, fun _ member => .inl member, iff_of_true rfl ⟨trivial, ?_⟩, ?_⟩
    · refine ⟨⟨List.forall_mem_singleton.mpr plain, ?_, ?_⟩, ?_⟩
      · rw [List.map_singleton, List.filter_cons_of_neg costly]
        exact List.nodup_nil
      · exact List.forall_mem_singleton.mpr fun isCostly => absurd isCostly costly
      · exact List.forall_mem_singleton.mpr fun isCostly => absurd isCostly costly
    · exact fun _ => List.forall_mem_singleton.mpr fun isCostly => absurd isCostly costly

theorem Follows.domain {left cost : ℕ} {domain : Text} {spelled : Prop} {result : ℕ × List Text}
    (follows : Follows zone (domain :: seen) entries cost spelled result)
    (isPlain : spelled ↔ IsPlain zone domain) (unseen : domain ∉ seen) :
    Follows zone seen ((left + 1, domain) :: entries) cost True result where
  le := follows.le
  grows other member := follows.grows other (List.mem_cons_of_mem _ member)
  within other member := by
    rw [List.map_cons, List.mem_cons]
    rcases follows.within other member with before | inside
    · exact (List.mem_cons.mp before).elim (fun same => .inr (.inl same)) .inl
    · exact .inr (.inr inside)
  whole := by
    rw [follows.whole, isPlain, true_and]
    constructor
    · rintro ⟨plain, good⟩
      refine ⟨⟨List.forall_mem_cons.mpr ⟨plain, good.plain⟩, ?_, ?_⟩, ?_⟩
      · rw [List.map_cons, List.filter_cons]
        split_ifs
        · refine List.nodup_cons.mpr ⟨fun again => ?_, good.once⟩
          obtain ⟨entry, member, costly, same⟩ := mem_costly.mp again
          exact good.fresh entry member costly (same ▸ List.mem_cons_self)
        · exact good.once
      · exact List.forall_mem_cons.mpr ⟨fun _ => Nat.succ_pos left, good.shallow⟩
      · exact List.forall_mem_cons.mpr ⟨fun _ => unseen, fun entry member costly isSeen =>
          good.fresh entry member costly (List.mem_cons_of_mem _ isSeen)⟩
    · intro good
      have once := good.once
      rw [List.map_cons, List.filter_cons] at once
      have plain := List.forall_mem_cons.mp good.plain
      have shallow := List.forall_mem_cons.mp good.shallow
      have fresh := List.forall_mem_cons.mp good.fresh
      refine ⟨plain.1, ⟨⟨plain.2, ?_, shallow.2⟩, fun entry member costly isSeen => ?_⟩⟩
      · split_ifs at once
        · exact (List.nodup_cons.mp once).2
        · exact once
      · rcases List.mem_cons.mp isSeen with same | before
        · have isCostly : isCostlyDomain zone domain = true := same ▸ costly
          rw [if_pos isCostly] at once
          exact (List.nodup_cons.mp once).1 (mem_costly.mpr ⟨entry, member, costly, same⟩)
        · exact fresh.2 entry member costly before
  visited same := List.forall_mem_cons.mpr
    ⟨fun _ => follows.grows domain List.mem_cons_self, follows.visited same⟩

theorem lookupsFrom_follows {height left : ℕ} {domain : Text} (resolves : Resolves zone height domain)
    (ordinary : ∀ entry ∈ visits zone height left domain, IsOrdinary zone entry.2) (seen : List Text) :
    Follows zone seen (visits zone height left domain) (evaluationCost zone height domain) True
      (lookupsFrom zone left domain seen) := by
  induction height generalizing left domain seen with
  | zero => exact absurd resolves id
  | succ height induction =>
      obtain ⟨spf, isRecord, targets⟩ := resolves
      cases left with
      | zero => exact follows_pruned isRecord (.inl rfl)
      | succ left =>
          rw [lookupsFrom]
          by_cases isSeen : domain ∈ seen
          · rw [if_pos isSeen]
            exact follows_pruned isRecord (.inr isSeen)
          · have isOrdinary := ordinary (left + 1, domain) List.mem_cons_self
            rw [visits, isRecord] at ordinary ⊢
            rw [if_neg isSeen, isOrdinary.shown, isRecord, evaluationCost, isRecord]
            dsimp only [Nat.add_sub_cancel] at ordinary ⊢
            have each : ∀ mech ∈ split spf, ∀ seen, Follows zone seen
                (((targetOf (hasAll spf) mech).map (visits zone height left)).getD [])
                (ownCost (hasAll spf) mech +
                  ((targetOf (hasAll spf) mech).map (evaluationCost zone height)).getD 0)
                (isCostly (lower mech) = true → isCounted (lower mech) = true)
                (countTerm (lookupsFrom zone left) seen mech) := by
              intro mech member
              refine countTerm_follows (fun isAll => isOrdinary.single spf isRecord isAll mech member)
                fun target isTarget => induction (targets mech member target isTarget) fun entry inside => ?_
              refine ordinary entry (List.mem_cons_of_mem _ (List.mem_flatMap.mpr ⟨mech, member, ?_⟩))
              rw [Option.mem_def.mp isTarget]
              exact inside
            obtain ⟨result, same, follows⟩ := foldl_follows each 0 (domain :: seen)
            rw [same, Nat.zero_add]
            refine follows.domain ?_ isSeen
            rw [IsPlain, isRecord]
            exact ⟨fun spelled record found => Option.some.inj found ▸ spelled, fun plain => plain spf rfl⟩

end Follow

/-- The count of a domain whose records resolve without a cycle, are shown as they are and do not redirect beside
an `all`, is what an evaluation costs if and only if every term that costs is plain, no domain that costs is
evaluated twice, and none is too deep. -/
theorem spfLookupCount_iff {zone : Zone} {height : ℕ} {domain : Text} (resolves : Resolves zone height domain)
    (ordinary : ∀ entry ∈ visits zone height 11 domain, IsOrdinary zone entry.2) :
    spfLookupCount zone domain = evaluationCost zone height domain ↔
      Countable zone (visits zone height 11 domain) := by
  rw [spfLookupCount, (lookupsFrom_follows resolves ordinary []).whole, true_and]
  exact ⟨Good.toCountable, fun countable => ⟨countable, fun _ _ _ => List.not_mem_nil⟩⟩

private def sampleZone : Zone := fun domain =>
  if domain = "example.org".toList then [["v=spf1 include:a.example mx -all".toList]]
  else if domain = "a.example".toList then [["v=spf1 a ip4:192.0.2.1 -all".toList]]
  else if domain = "qualified.example".toList then [["v=spf1 ?mx a/24 -all".toList]]
  else if domain = "shared.example".toList then [["v=spf1 include:a.example include:a.example -all".toList]]
  else if domain = "spare.example".toList then [["v=spf1 -all redirect=a.example".toList]]
  else []

/-- An inclusion, what it includes and another mechanism are counted. -/
theorem inclusion_counted :
    spfLookupCount sampleZone "example.org".toList = evaluationCost sampleZone 2 "example.org".toList :=
  (spfLookupCount_iff (by decide +kernel) (by decide +kernel)).mpr (by decide +kernel)

/-- Qualifiers and prefix lengths hide what costs a lookup, what is included again is left out, and a redirection is
counted beside an `all`. -/
theorem qualified_not_counted :
    (Resolves sampleZone 1 "qualified.example".toList ∧
      spfLookupCount sampleZone "qualified.example".toList = 0 ∧
      evaluationCost sampleZone 1 "qualified.example".toList = 2) ∧
    (Resolves sampleZone 2 "shared.example".toList ∧
      spfLookupCount sampleZone "shared.example".toList = 3 ∧
      evaluationCost sampleZone 2 "shared.example".toList = 4) ∧
    (Resolves sampleZone 1 "spare.example".toList ∧
      spfLookupCount sampleZone "spare.example".toList = 2 ∧
      evaluationCost sampleZone 1 "spare.example".toList = 0) := by
  decide +kernel

end Spf
end SecurityChecks
end DomainLens
