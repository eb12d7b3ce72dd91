import DomainLens.SoftwareAdvisories

/-!
# What a rule says about a version

A version that a response shows is compared with the releases that a compiled rule names: the one the
flaw came in with, and the one with the fix in each branch.
-/

namespace DomainLens
namespace SoftwareAdvisories

open Python

/-! ## Versions that are shown -/

/-- What `parse_version` returns: the release, a patch letter behind it, and the text it was read from.
A version without its patch release has a zero for it. -/
structure Shown where
  release : Release
  letter : Option Nat
  patchKnown : Bool
  vendor : Bool
  raw : Text

namespace Release

def numbers (release : Release) : List Nat := [release.major, release.minor, release.patch]

def branch (release : Release) : List Nat := [release.major, release.minor]

end Release

/-- `shown["version"]`. -/
def Shown.version (shown : Shown) : List Nat := shown.release.numbers ++ shown.letter.toList

def Shown.branch (shown : Shown) : List Nat := shown.release.branch

/-- The same version at a known patch level. -/
def Shown.at (shown : Shown) (patch : Nat) (letter : Option Nat) : Shown :=
  { shown with
    release := { shown.release with patch := patch }
    letter := letter
    patchKnown := true }

@[simp] theorem Shown.at_branch (shown : Shown) (patch : Nat) (letter : Option Nat) :
    (shown.at patch letter).branch = shown.branch := rfl

@[simp] theorem Shown.at_patchKnown (shown : Shown) (patch : Nat) (letter : Option Nat) :
    (shown.at patch letter).patchKnown = true := rfl

@[simp] theorem Shown.at_vendor (shown : Shown) (patch : Nat) (letter : Option Nat) :
    (shown.at patch letter).vendor = shown.vendor := rfl

/-! ## Verdicts -/

inductive Verdict where
  | vulnerable
  | fixed
  | notAffected
  | cannotTell
deriving DecidableEq

/-- The version is older than the release the flaw came in with, as far as its patch release tells. -/
def beforeIntroduced (rule : Rule) (shown : Shown) : Bool :=
  rule.introduced.any fun introduced =>
    shown.branch < introduced.branch ∨
      shown.branch = introduced.branch ∧ shown.patchKnown = true ∧
        shown.version < introduced.numbers

/-- `verdict`: what it is, and why. -/
def verdict (rule : Rule) (shown : Option Shown) : Verdict × Text :=
  let product := rule.publicForm.product
  match shown with
  | none => (.cannotTell, "The ".toList ++ product ++ " version is not shown.".toList)
  | some shown =>
      let raw := shown.raw
      if beforeIntroduced rule shown then
        (.notAffected, raw ++ " is older than ".toList ++ rule.introduced.elim [] Release.fmt ++
          ", the release the flaw came in with.".toList)
      else
        match rule.fixed.find? fun release => release.branch = shown.branch with
        | none =>
            if rule.fixed.all fun release => release.branch < shown.branch then
              (.fixed, raw ++ " is newer than the releases the fix went into.".toList)
            else if rule.fixed.all fun release => shown.branch < release.branch then
              if rule.publicForm.olderBranches = olderNotAffected then
                (.notAffected, raw ++ " is older than the branches the flaw is in.".toList)
              else if shown.vendor then
                (.cannotTell, raw ++ " is a distribution build of a ".toList ++ product ++
                  (" branch that no longer gets upstream fixes; ".toList ++
                    "only its package says whether the fix was put in.".toList))
              else
                (.vulnerable, raw ++ " is ".toList ++ product ++ ' ' :: shown.release.fmtBranch ++
                  ", which no longer gets fixes; move to ".toList ++
                  ", ".toList.intercalate (rule.fixed.reverse.map Release.fmtBranch) ++
                  " at the fixed release or later.".toList)
            else
              (.cannotTell, raw ++ ": the rule names no release with the fix for ".toList ++
                product ++ ' ' :: shown.release.fmtBranch ++ ['.'])
        | some release =>
            if !shown.patchKnown then
              (.cannotTell, raw ++ " does not show its patch release; ".toList ++ release.fmt ++
                " has the fix.".toList)
            else if release.numbers ≤ shown.version then
              (.fixed, raw ++ " has the fix (".toList ++ release.fmt ++ " or later).".toList)
            else if shown.vendor then
              (.cannotTell, raw ++ (" is a distribution build; ".toList ++
                "its package may carry the fix without a new number. Upstream, ".toList) ++
                release.fmt ++ " has the fix.".toList)
            else
              (.vulnerable, raw ++ " is older than ".toList ++ release.fmt ++
                ", the release with the fix.".toList)

/-! ## The parts of a verdict -/

/-- The verdict on a version that is not older than the flaw. -/
def settled (rule : Rule) (shown : Shown) : Verdict :=
  match rule.fixed.find? fun release => release.branch = shown.branch with
  | none =>
      if rule.fixed.all fun release => release.branch < shown.branch then .fixed
      else if rule.fixed.all fun release => shown.branch < release.branch then
        if rule.publicForm.olderBranches = olderNotAffected then .notAffected
        else if shown.vendor then .cannotTell else .vulnerable
      else .cannotTell
  | some release =>
      if !shown.patchKnown then .cannotTell
      else if release.numbers ≤ shown.version then .fixed
      else if shown.vendor then .cannotTell else .vulnerable

theorem verdict_fst (rule : Rule) (shown : Shown) : (verdict rule (some shown)).1 =
    if beforeIntroduced rule shown then .notAffected else settled rule shown := by
  unfold verdict settled
  dsimp only
  split
  · rfl
  · split
    · split_ifs <;> rfl
    · split_ifs <;> rfl

/-! ## A growing patch level -/

/-- What a verdict may become as the patch level grows. -/
def Along (verdict later : Verdict) : Prop :=
  later = verdict ∨ verdict = .notAffected ∨ verdict = .vulnerable ∧ later = .fixed

/-- The verdicts of a rule move one way, and none calls a distribution build vulnerable. -/
structure Monotone (rule : Rule) : Prop where
  along : ∀ shown : Shown, shown.vendor = false → ∀ patch letter patch' letter',
    patch :: Option.toList letter ≤ patch' :: Option.toList letter' →
    Along (verdict rule (some (shown.at patch letter))).1
      (verdict rule (some (shown.at patch' letter'))).1
  vendor : ∀ shown : Shown, shown.vendor = true →
    (verdict rule (some shown)).1 ≠ .vulnerable

private theorem version_at (shown : Shown) (patch : Nat) (letter : Option Nat) :
    (shown.at patch letter).version =
      shown.release.major :: shown.release.minor :: patch :: letter.toList :=
  rfl

variable {rule : Rule} {shown : Shown} {patch patch' : Nat} {letter letter' : Option Nat}

private theorem version_at_le (le : patch :: letter.toList ≤ patch' :: letter'.toList) :
    (shown.at patch letter).version ≤ (shown.at patch' letter').version := by
  rw [version_at, version_at, ← not_lt]
  simpa using le

private theorem beforeIntroduced_of_le
    (le : patch :: letter.toList ≤ patch' :: letter'.toList)
    (before : beforeIntroduced rule (shown.at patch' letter') = true) :
    beforeIntroduced rule (shown.at patch letter) = true := by
  obtain ⟨introduced, isIntroduced, older⟩ := Option.any_eq_true _ _ |>.mp before
  refine Option.any_eq_true _ _ |>.mpr ⟨introduced, isIntroduced, decide_eq_true ?_⟩
  refine (of_decide_eq_true older).imp id fun ⟨branch, known, less⟩ => ⟨branch, known, ?_⟩
  exact lt_of_le_of_lt (version_at_le le) less

/-- The verdict on a version with its patch level that is not older than the flaw. -/
private def known (rule : Rule) (branch version : List Nat) (vendor : Bool) : Verdict :=
  match rule.fixed.find? fun release => release.branch = branch with
  | none =>
      if rule.fixed.all fun release => release.branch < branch then .fixed
      else if rule.fixed.all fun release => branch < release.branch then
        if rule.publicForm.olderBranches = olderNotAffected then .notAffected
        else if vendor then .cannotTell else .vulnerable
      else .cannotTell
  | some release =>
      if release.numbers ≤ version then .fixed else if vendor then .cannotTell else .vulnerable

private theorem settled_at : settled rule (shown.at patch letter) =
    known rule shown.branch (shown.at patch letter).version shown.vendor :=
  rfl

private theorem along_known {branch version later : List Nat} (le : version ≤ later) :
    Along (known rule branch version false) (known rule branch later false) := by
  unfold known
  cases rule.fixed.find? fun release => release.branch = branch with
  | none => exact .inl rfl
  | some release =>
      dsimp only
      by_cases hasFix : release.numbers ≤ version
      · rw [if_pos hasFix, if_pos (hasFix.trans le)]
        exact .inl rfl
      · rw [if_neg hasFix, if_neg Bool.false_ne_true]
        by_cases fixedLater : release.numbers ≤ later
        · exact .inr (.inr ⟨rfl, if_pos fixedLater⟩)
        · exact .inl (if_neg fixedLater)

/-- The version when the response shows only its branch. -/
def Shown.unpatched (shown : Shown) : Shown :=
  { shown with
    release := { shown.release with patch := 0 }
    letter := none
    patchKnown := false }

/-- A verdict on a branch is that on each of its releases, unless it cannot be told. -/
def HoldsOfBranch (rule : Rule) (shown : Shown) : Prop :=
  (verdict rule (some shown)).1 ≠ .cannotTell → ∀ patch letter,
    (verdict rule (some (shown.at patch letter))).1 = (verdict rule (some shown)).1

/-- The flaw came in at a later patch level of a branch that is older than every fix and counts as
vulnerable. -/
def IntroducedWithin (rule : Rule) (shown : Shown) : Prop :=
  shown.vendor = false ∧ rule.publicForm.olderBranches ≠ olderNotAffected ∧
    (∀ release ∈ rule.fixed, shown.branch < release.branch) ∧
    ∃ introduced, rule.introduced = some introduced ∧ introduced.branch = shown.branch ∧
      0 < introduced.patch

private theorem beforeIntroduced_unpatched : beforeIntroduced rule shown.unpatched = true ↔
    ∃ introduced, rule.introduced = some introduced ∧ shown.branch < introduced.branch := by
  rw [beforeIntroduced, Option.any_eq_true]
  refine exists_congr fun introduced => and_congr_right fun _ => ?_
  rw [decide_eq_true_iff]
  exact ⟨fun older => older.resolve_right fun both => Bool.false_ne_true both.2.1, .inl⟩

private theorem version_lt_numbers {release : Release} (branch : shown.branch = release.branch) :
    (shown.at patch letter).version < release.numbers ↔ patch < release.patch := by
  obtain ⟨major, minor⟩ : shown.release.major = release.major ∧
      shown.release.minor = release.minor := by
    simpa [Shown.branch, Release.branch] using branch
  rw [version_at, Release.numbers, major, minor]
  simp [List.cons_lt_cons_iff]

private theorem beforeIntroduced_at
    (notOlder : beforeIntroduced rule shown.unpatched = false) :
    beforeIntroduced rule (shown.at patch letter) = true ↔
      ∃ introduced, rule.introduced = some introduced ∧ introduced.branch = shown.branch ∧
        patch < introduced.patch := by
  rw [beforeIntroduced, Option.any_eq_true]
  refine exists_congr fun introduced => and_congr_right fun isIntroduced => ?_
  rw [decide_eq_true_iff]
  constructor
  · rintro (older | ⟨branch, -, less⟩)
    · have before := beforeIntroduced_unpatched.mpr ⟨introduced, isIntroduced, older⟩
      exact absurd (notOlder.symm.trans before) Bool.false_ne_true
    · exact ⟨branch.symm, (version_lt_numbers branch).mp less⟩
  · rintro ⟨branch, less⟩
    exact .inr ⟨branch.symm, rfl, (version_lt_numbers branch.symm).mpr less⟩

/-- The verdict on a branch for which the rule names no release. -/
private def unnamed (rule : Rule) (branch : List Nat) (vendor : Bool) : Verdict :=
  if rule.fixed.all fun release => release.branch < branch then .fixed
  else if rule.fixed.all fun release => branch < release.branch then
    if rule.publicForm.olderBranches = olderNotAffected then .notAffected
    else if vendor then .cannotTell else .vulnerable
  else .cannotTell

private theorem settled_of_unnamed
    (missing : rule.fixed.find? (fun release => release.branch = shown.branch) = none) :
    settled rule shown = unnamed rule shown.branch shown.vendor := by
  rw [settled, missing]
  rfl

private theorem holdsOfBranch_iff (notOlder : beforeIntroduced rule shown.unpatched = false)
    (missing : rule.fixed.find? (fun release => release.branch = shown.branch) = none)
    (told : unnamed rule shown.branch shown.vendor ≠ .cannotTell) :
    HoldsOfBranch rule shown.unpatched ↔
      unnamed rule shown.branch shown.vendor = .notAffected ∨
        ¬ ∃ introduced, rule.introduced = some introduced ∧ introduced.branch = shown.branch ∧
          0 < introduced.patch := by
  have bare : (verdict rule (some shown.unpatched)).1 = unnamed rule shown.branch shown.vendor := by
    rw [verdict_fst, if_neg (by simp [notOlder])]
    exact settled_of_unnamed missing
  have each (patch : Nat) (letter : Option Nat) :
      (verdict rule (some (shown.at patch letter))).1 =
        if beforeIntroduced rule (shown.at patch letter) then .notAffected
        else unnamed rule shown.branch shown.vendor := by
    have settledAt : settled rule (shown.at patch letter) =
        unnamed rule shown.branch shown.vendor := settled_of_unnamed missing
    rw [verdict_fst, settledAt]
  rw [HoldsOfBranch, bare]
  constructor
  · intro same
    by_cases unaffected : unnamed rule shown.branch shown.vendor = .notAffected
    · exact .inl unaffected
    · refine .inr fun within => unaffected ?_
      have zeroth := same told 0 none
      rw [← zeroth]
      exact (each 0 none).trans (if_pos ((beforeIntroduced_at notOlder).mpr within))
  · rintro apart - patch letter
    refine (each patch letter).trans ?_
    split_ifs with older
    · rcases apart with unaffected | never
      · exact unaffected.symm
      · obtain ⟨introduced, isIntroduced, branch, less⟩ := (beforeIntroduced_at notOlder).mp older
        exact absurd ⟨introduced, isIntroduced, branch, (Nat.zero_le _).trans_lt less⟩ never
    · rfl

private theorem unnamed_eq_vulnerable_iff {branch : List Nat} {vendor : Bool}
    (some : rule.fixed ≠ []) : unnamed rule branch vendor = .vulnerable ↔
      vendor = false ∧ rule.publicForm.olderBranches ≠ olderNotAffected ∧
        ∀ release ∈ rule.fixed, branch < release.branch := by
  obtain ⟨first, isFirst⟩ := List.exists_mem_of_ne_nil rule.fixed some
  rw [unnamed]
  split_ifs with later earlier unaffected built
  · refine iff_of_false (by decide) fun ⟨_, _, earlier⟩ => ?_
    exact lt_asymm (earlier first isFirst)
      (of_decide_eq_true (List.all_eq_true.mp later first isFirst))
  · exact iff_of_false (by decide) fun ⟨_, affected, _⟩ => affected unaffected
  · exact iff_of_false (by decide) fun ⟨upstream, _⟩ => Bool.false_ne_true (upstream.symm.trans built)
  · exact iff_of_true rfl ⟨Bool.eq_false_of_not_eq_true built, unaffected, fun release member =>
      of_decide_eq_true (List.all_eq_true.mp earlier release member)⟩
  · exact iff_of_false (by decide) fun ⟨_, _, all⟩ =>
      earlier (List.all_eq_true.mpr fun release member => decide_eq_true (all release member))

private theorem not_introduced_of_fixed {branch : List Nat} {vendor : Bool}
    (beforeFix : ∀ introduced, rule.introduced = some introduced →
      ∃ release ∈ rule.fixed, ¬ introduced.AtLeast release)
    (isFixed : unnamed rule branch vendor = .fixed) :
    ¬ ∃ introduced, rule.introduced = some introduced ∧ introduced.branch = branch ∧
      0 < introduced.patch := by
  rintro ⟨introduced, isIntroduced, rfl, -⟩
  obtain ⟨release, member, notAfter⟩ := beforeFix introduced isIntroduced
  have later : ∀ release ∈ rule.fixed, release.branch < introduced.branch := by
    rw [unnamed] at isFixed
    split_ifs at isFixed with later earlier unaffected built
    exact fun release member => of_decide_eq_true (List.all_eq_true.mp later release member)
  have less := later release member
  simp only [Release.branch, List.cons_lt_cons_iff, List.not_lt_nil, and_false, or_false] at less
  exact notAfter (.inl less)

/-- A verdict on a branch holds of each of its releases exactly when the flaw did not come in at a
later patch level of an old branch that counts as vulnerable. -/
theorem holdsOfBranch_unpatched_iff {document : Document} {builtin : Bool} {rule : Rule}
    (compiled : compileRule document builtin = .ok rule) (shown : Shown) :
    HoldsOfBranch rule shown.unpatched ↔ ¬ IntroducedWithin rule shown := by
  obtain ⟨some, beforeFix⟩ := introduced_of_compiled compiled
  by_cases older : beforeIntroduced rule shown.unpatched = true
  · refine iff_of_true (fun _ patch letter => ?_) ?_
    · rw [verdict_fst, verdict_fst, if_pos older, if_pos]
      obtain ⟨introduced, isIntroduced, less⟩ := beforeIntroduced_unpatched.mp older
      exact Option.any_eq_true _ _ |>.mpr ⟨introduced, isIntroduced, decide_eq_true (.inl less)⟩
    · rintro ⟨-, -, -, introduced, isIntroduced, branch, -⟩
      obtain ⟨other, isOther, less⟩ := beforeIntroduced_unpatched.mp older
      obtain rfl := Option.some.inj (isIntroduced.symm.trans isOther)
      exact less.ne branch.symm
  have notOlder := Bool.eq_false_of_not_eq_true older
  cases found : rule.fixed.find? fun release => decide (release.branch = shown.branch) with
  | some release =>
      refine iff_of_true (fun told => absurd ?_ told) ?_
      · have named : rule.fixed.find? (fun release =>
            decide (release.branch = shown.unpatched.branch)) = Option.some release := found
        rw [verdict_fst, if_neg older, settled, named]
        rfl
      · rintro ⟨-, -, earlier, -⟩
        have branch : release.branch = shown.branch := by simpa using List.find?_some found
        exact (earlier release (List.mem_of_find?_eq_some found)).ne branch.symm
  | none =>
      have within : IntroducedWithin rule shown ↔
          unnamed rule shown.branch shown.vendor = .vulnerable ∧
            ∃ introduced, rule.introduced = Option.some introduced ∧
              introduced.branch = shown.branch ∧ 0 < introduced.patch := by
        rw [unnamed_eq_vulnerable_iff some, and_assoc, and_assoc]
        rfl
      rw [within, not_and]
      by_cases told : unnamed rule shown.branch shown.vendor = .cannotTell
      · refine iff_of_true (fun other => absurd ?_ other) fun vulnerable => ?_
        · have settledBare : settled rule shown.unpatched =
              unnamed rule shown.branch shown.vendor := settled_of_unnamed found
          rw [verdict_fst, if_neg older, settledBare, told]
        · exact nomatch told.symm.trans vulnerable
      · rw [holdsOfBranch_iff notOlder found told]
        cases value : unnamed rule shown.branch shown.vendor with
        | vulnerable => simp
        | fixed => simpa using not_introduced_of_fixed beforeFix value
        | notAffected => simp
        | cannotTell => exact absurd value told

/-- A flaw that came into nginx with 1.20.1 and was fixed in 1.25.3. -/
def nginxFlaw : RawRule where
  id := .text "nginx-flaw".toList
  name := .text "nginx flaw".toList
  product := .text "nginx".toList
  token := .text "nginx".toList
  severity := .text "high".toList
  published := .text []
  summary := .text "Request smuggling.".toList
  impact := .text []
  fix := .text []
  check := .text []
  sources := .texts ["server".toList]
  seenCookies := .texts []
  seenPaths := .texts []
  cves := .texts ["CVE-2026-12345".toList]
  references := .texts []
  fixed := .texts ["1.25.3".toList]
  olderBranches := .text []
  introduced := .text "1.20.1".toList
  enabled := .absent

def nginxShown (minor : Nat) : Shown where
  release := { major := 1, minor := minor, patch := 0 }
  letter := none
  patchKnown := true
  vendor := false
  raw := "nginx".toList

def nginxFlawRule : Rule where
  publicForm := publicOf nginxFlaw
  builtin := false
  pattern := "nginx".toList
  traits := []
  fixed := [{ major := 1, minor := 25, patch := 3 }]
  introduced := some { major := 1, minor := 20, patch := 1 }

private theorem nginxFlaw_facts :
    compileRule (.object nginxFlaw) false = .ok nginxFlawRule ∧
      (verdict nginxFlawRule (some (nginxShown 20).unpatched)).1 = .vulnerable ∧
      (verdict nginxFlawRule (some ((nginxShown 20).at 0 none))).1 = .notAffected := by
  simp (disch := rfl) only [nginxFlaw, nginxFlawRule, publicOf, nginxShown, toList_literal]
  decide +kernel

/-- nginx 1.21 gets one verdict as a branch and in each of its releases. -/
theorem nginxFlaw_holds : compileRule (.object nginxFlaw) false = .ok nginxFlawRule ∧
    HoldsOfBranch nginxFlawRule (nginxShown 21).unpatched := by
  refine ⟨nginxFlaw_facts.1, (holdsOfBranch_unpatched_iff nginxFlaw_facts.1 _).mpr ?_⟩
  rintro ⟨-, -, -, introduced, isIntroduced, branch, -⟩
  obtain rfl := Option.some.inj isIntroduced
  exact absurd branch (by decide)

/-- nginx 1.20 is called vulnerable, and its release 1.20.0 is not affected. -/
theorem nginxFlaw_within : compileRule (.object nginxFlaw) false = .ok nginxFlawRule ∧
    ¬ HoldsOfBranch nginxFlawRule (nginxShown 20).unpatched := by
  obtain ⟨compiled, bare, first⟩ := nginxFlaw_facts
  refine ⟨compiled, fun holds => ?_⟩
  have same := holds (by rw [bare]; decide) 0 none
  exact nomatch first.symm.trans (same.trans bare)

end SoftwareAdvisories
end DomainLens
