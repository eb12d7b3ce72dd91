import DomainLens.CveFeed.Overview

/-!
# A version without its patch release

Of some products a response shows the branch only.  Whether a range takes in the releases of the
branch is then decided from two of them and from those around the bounds of the range.
-/

namespace DomainLens
namespace CveFeed

/-! ## Ranges as intervals -/

namespace VersionRange

variable {range : VersionRange}

/-- A version is taken in when it is between the bounds, or at one that is included. -/
theorem contains_iff_of_bounds (bounded : given range.exact = false) {version : Version} :
    range.contains version = true ↔
      (∀ start, range.startV = some start → place start ≤ place version ∧
        (place version = place start → range.startIncl = true)) ∧
      ∀ stop, range.stopV = some stop → place version ≤ place stop ∧
        (place version = place stop → range.stopIncl = true) := by
  rw [contains, bounded, if_neg Bool.false_ne_true, Bool.and_eq_true]
  refine and_congr ?_ ?_
  · cases isStart : range.startV with
    | none => simp [afterStart, isStart]
    | some start =>
        have isGiven : given range.start = true := by
          by_contra missing
          rw [range.unbegun (Bool.eq_false_of_not_eq_true missing)] at isStart
          cases isStart
        simp only [isGiven, Bool.not_true, Bool.false_or, afterStart, isStart, decide_eq_true_eq,
          not_or, not_and, Bool.not_eq_false, cmp_neg_iff, cmp_eq_zero_iff, Option.some.injEq,
          forall_eq']
        exact and_congr_left' not_lt
  · cases isStop : range.stopV with
    | none => simp [beforeStop, isStop]
    | some stop =>
        have isGiven : given range.stop = true := by
          by_contra missing
          rw [range.unended (Bool.eq_false_of_not_eq_true missing)] at isStop
          cases isStop
        simp only [isGiven, Bool.not_true, Bool.false_or, beforeStop, isStop, decide_eq_true_eq,
          not_or, not_and, Bool.not_eq_false, cmp_pos_iff, cmp_eq_zero_iff, Option.some.injEq,
          forall_eq']
        exact and_congr_left' not_lt

theorem contains_iff_of_exact (exactly : given range.exact = true) {version : Version} :
    range.contains version = true ↔
      ∃ exact, range.exactV = some exact ∧ place version = place exact := by
  rw [contains, if_pos exactly, Option.any_eq_true]
  simp only [decide_eq_true_eq, cmp_eq_zero_iff]

theorem contains_between {first version last : Version} (low : range.contains first = true)
    (high : range.contains last = true) (after : place first ≤ place version)
    (before : place version ≤ place last) : range.contains version = true := by
  cases exactly : given range.exact with
  | true =>
      rw [contains_iff_of_exact exactly] at low high ⊢
      obtain ⟨exact, isExact, same⟩ := low
      obtain ⟨other, isOther, sameLast⟩ := high
      obtain rfl := Option.some.inj (isExact.symm.trans isOther)
      exact ⟨exact, isExact, le_antisymm (sameLast ▸ before) (same ▸ after)⟩
  | false =>
      rw [contains_iff_of_bounds exactly] at low high ⊢
      refine ⟨fun start isStart => ?_, fun stop isStop => ?_⟩
      · obtain ⟨begun, included⟩ := low.1 start isStart
        exact ⟨begun.trans after, fun same =>
          included (le_antisymm (same ▸ after) begun)⟩
      · obtain ⟨unfinished, included⟩ := high.2 stop isStop
        exact ⟨before.trans unfinished, fun same =>
          included (le_antisymm unfinished (same ▸ before))⟩

end VersionRange

/-! ## Places -/

private theorem getD_le_of_place_le (index : Nat) {left right : Version}
    (le : place left ≤ place right)
    (same : ∀ earlier < index, left.getD earlier 0 = right.getD earlier 0) :
    left.getD index 0 ≤ right.getD index 0 := by
  by_contra greater
  exact le.not_gt (Padded.endless_lt_iff.mpr
    ⟨index, fun earlier before => (same earlier before).symm, not_le.mp greater⟩)

theorem place_lt_of_third {left right : Version} (major : left.getD 0 0 = right.getD 0 0)
    (minor : left.getD 1 0 = right.getD 1 0) (patch : left.getD 2 0 < right.getD 2 0) :
    place left < place right := by
  refine Padded.endless_lt_iff.mpr ⟨2, fun earlier before => ?_, patch⟩
  interval_cases earlier
  · exact major
  · exact minor

private theorem branch_of_between {major minor first last : Nat} {bound : Version}
    (after : place [major, minor, first] ≤ place bound)
    (before : place bound ≤ place [major, minor, last]) :
    bound.getD 0 0 = major ∧ bound.getD 1 0 = minor ∧ first ≤ bound.getD 2 0 ∧
      bound.getD 2 0 ≤ last := by
  have zeroth : bound.getD 0 0 = major :=
    le_antisymm (getD_le_of_place_le 0 before (by simp)) (getD_le_of_place_le 0 after (by simp))
  have first_same {other : Version} (same : other.getD 0 0 = major) (earlier : Nat)
      (inside : earlier < 1) : bound.getD earlier 0 = other.getD earlier 0 := by
    obtain rfl := Nat.lt_one_iff.mp inside
    rw [zeroth, same]
  have oneth : bound.getD 1 0 = minor :=
    le_antisymm (getD_le_of_place_le 1 before (first_same rfl))
      (getD_le_of_place_le 1 after fun earlier inside => (first_same rfl earlier inside).symm)
  have both_same {other : Version} (major : other.getD 0 0 = major) (minor : other.getD 1 0 = minor)
      (earlier : Nat) (inside : earlier < 2) : bound.getD earlier 0 = other.getD earlier 0 := by
    interval_cases earlier
    · rw [zeroth, major]
    · rw [oneth, minor]
  exact ⟨zeroth, oneth,
    getD_le_of_place_le 2 after fun earlier inside => (both_same rfl rfl earlier inside).symm,
    getD_le_of_place_le 2 before (both_same rfl rfl)⟩

theorem exists_release_after {major minor : Nat} {stop : Version}
    (before : place stop < place [major, minor + 1]) :
    ∃ patch, place stop < place [major, minor, patch] := by
  obtain ⟨index, same, less⟩ := Padded.endless_lt_iff.mp before
  match index with
  | 0 => exact ⟨0, Padded.endless_lt_iff.mpr ⟨0, by simp, less⟩⟩
  | 1 =>
      refine ⟨stop.getD 2 0 + 1, ?_⟩
      rcases Nat.lt_succ_iff_lt_or_eq.mp less with earlier | here
      · refine Padded.endless_lt_iff.mpr ⟨1, fun other inside => ?_, earlier⟩
        obtain rfl := Nat.lt_one_iff.mp inside
        exact same 0 inside
      · exact place_lt_of_third (same 0 Nat.one_pos) here (Nat.lt_succ_self _)
  | _ + 2 => exact absurd less (Nat.not_lt_zero _)

/-! ## The answer for a branch -/

private theorem numbers_unpatched (major minor : Nat) :
    ∃ first second patch letter, [major, minor, 0] = first :: second :: patch :: letter ∧
      (false = false → patch = 0 ∧ letter = []) :=
  ⟨major, minor, 0, [], rfl, fun _ => ⟨rfl, rfl⟩⟩

/-- A version of which the response shows only the branch. -/
def unpatched (major minor : Nat) (vendor : Bool) : Shown where
  version := [major, minor, 0]
  patchKnown := false
  vendor := vendor
  numbers := numbers_unpatched major minor

/-- A release of a branch: any patch level and, of a product whose releases have letters, with or
without one. -/
def IsRelease (letters : Bool) (major minor : Nat) (release : Version) : Prop :=
  ∃ patch, release = [major, minor, patch] ∨
    letters = true ∧ ∃ letter, 1 ≤ letter ∧ letter ≤ 26 ∧ release = [major, minor, patch, letter]

/-- The answer for a branch holds of each of its releases. -/
structure Sound (letters : Bool) (range : VersionRange) (major minor : Nat) (vendor : Bool) :
    Prop where
  yes : hits range (unpatched major minor vendor) = .yes →
    ∀ release, IsRelease letters major minor release → range.contains release = true
  no : hits range (unpatched major minor vendor) = .no →
    ∀ release, IsRelease letters major minor release → range.contains release = false

/-- The range takes the branch in from its first release and ends in it, past the highest patch level
that is looked at. -/
def EndsHigh (range : VersionRange) (major minor : Nat) : Prop :=
  given range.exact = false ∧ range.contains [major, minor, 0] = true ∧
    range.contains [major, minor, patchUnknownHigh] = true ∧
    ∃ stop, range.stopV = some stop ∧ cmp stop [major, minor + 1] < 0

/-- The range takes in a lettered release, but neither the release without the letter nor the next
one. -/
def BetweenPatches (range : VersionRange) (major minor : Nat) : Prop :=
  ∃ patch letter, 1 ≤ letter ∧ letter ≤ 26 ∧
    range.contains [major, minor, patch, letter] = true ∧
    range.contains [major, minor, patch] = false ∧
    range.contains [major, minor, patch + 1] = false

/-- The versions `_hits` looks at. -/
private def probes (range : VersionRange) (major minor : Nat) : List Version :=
  [major, minor, 0] :: [major, minor, patchUnknownHigh] ::
    (range.boundsIn [major, minor]).flatMap fun bound =>
      [[major, minor, bound.getD 2 0], [major, minor, bound.getD 2 0 - 1],
        [major, minor, bound.getD 2 0 + 1]]

variable {range : VersionRange} {major minor : Nat} {vendor : Bool}

private theorem hits_unpatched : hits range (unpatched major minor vendor) =
    if range.contains [major, minor, 0] && range.contains [major, minor, patchUnknownHigh] &&
        !given range.exact then .yes
      else if (probes range major minor).any range.contains then .maybe else .no :=
  rfl

private theorem hits_eq_yes_iff : hits range (unpatched major minor vendor) = .yes ↔
    given range.exact = false ∧ range.contains [major, minor, 0] = true ∧
      range.contains [major, minor, patchUnknownHigh] = true := by
  rw [hits_unpatched]
  split_ifs with around near
  · simpa [and_comm, and_assoc] using around
  · simpa [and_comm, and_assoc] using around
  · simpa [and_comm, and_assoc] using around

private theorem hits_eq_no_iff : hits range (unpatched major minor vendor) = .no ↔
    ∀ probe ∈ probes range major minor, range.contains probe = false := by
  rw [hits_unpatched]
  split_ifs with around near
  · refine iff_of_false (by simp) fun none => ?_
    rw [none [major, minor, 0] List.mem_cons_self] at around
    exact Bool.false_ne_true around
  · refine iff_of_false (by simp) fun none => ?_
    obtain ⟨probe, member, inside⟩ := List.any_eq_true.mp near
    exact Bool.false_ne_true ((none probe member).symm.trans inside)
  · exact iff_of_true rfl fun probe member => Bool.eq_false_of_not_eq_true
      (List.any_eq_false.mp (Bool.eq_false_of_not_eq_true near) probe member)

private theorem mem_boundsIn {bound : Version}
    (isBound : some bound ∈ [range.exactV, range.startV, range.stopV])
    (majorOf : bound.getD 0 0 = major) (minorOf : bound.getD 1 0 = minor)
    (wide : 2 ≤ bound.length) : bound ∈ range.boundsIn [major, minor] := by
  refine List.mem_filterMap.mpr ⟨some bound, isBound, ?_⟩
  obtain ⟨first, second, rest, rfl⟩ : ∃ first second rest, bound = first :: second :: rest := by
    match bound, wide with
    | first :: second :: rest, _ => exact ⟨first, second, rest, rfl⟩
  obtain rfl : first = major := majorOf
  obtain rfl : second = minor := minorOf
  simp

private theorem near_bound {bound : Version} (isBound : bound ∈ range.boundsIn [major, minor])
    {patch : Nat} (near : patch = bound.getD 2 0 ∨ patch = bound.getD 2 0 - 1 ∨
      patch = bound.getD 2 0 + 1) : [major, minor, patch] ∈ probes range major minor := by
  refine List.mem_cons_of_mem _ (List.mem_cons_of_mem _ (List.mem_flatMap.mpr ⟨bound, isBound, ?_⟩))
  rcases near with rfl | rfl | rfl <;> simp

private theorem start_of_not_contains (bounded : given range.exact = false)
    {earlier later : Version} (inside : range.contains later = true)
    (outside : range.contains earlier = false) (le : place earlier ≤ place later) :
    ∃ start, range.startV = some start ∧ place earlier ≤ place start ∧
      place start ≤ place later := by
  by_contra none
  obtain ⟨begun, unfinished⟩ := (range.contains_iff_of_bounds bounded).mp inside
  refine Bool.false_ne_true (outside.symm.trans ((range.contains_iff_of_bounds bounded).mpr
    ⟨fun start isStart => ?_, fun stop isStop => ?_⟩))
  · have before : place start < place earlier := not_le.mp fun after =>
      none ⟨start, isStart, after, (begun start isStart).1⟩
    exact ⟨before.le, fun same => absurd same before.ne'⟩
  · obtain ⟨below, included⟩ := unfinished stop isStop
    exact ⟨le.trans below, fun same => included (le_antisymm below (same ▸ le))⟩

private theorem stop_of_not_contains (bounded : given range.exact = false)
    {earlier later : Version} (inside : range.contains earlier = true)
    (outside : range.contains later = false) (le : place earlier ≤ place later) :
    ∃ stop, range.stopV = some stop ∧ place earlier ≤ place stop ∧
      place stop ≤ place later := by
  by_contra none
  obtain ⟨begun, unfinished⟩ := (range.contains_iff_of_bounds bounded).mp inside
  refine Bool.false_ne_true (outside.symm.trans ((range.contains_iff_of_bounds bounded).mpr
    ⟨fun start isStart => ?_, fun stop isStop => ?_⟩))
  · obtain ⟨above, included⟩ := begun start isStart
    exact ⟨above.trans le, fun same => included (le_antisymm (same ▸ le) above)⟩
  · have after : place later < place stop := not_le.mp fun before =>
      none ⟨stop, isStop, (unfinished stop isStop).1, before⟩
    exact ⟨after.le, fun same => absurd same after.ne⟩

private theorem contains_after_start (bounded : given range.exact = false)
    {start version later : Version} (isStart : range.startV = some start)
    (inside : range.contains later = true) (after : place start < place version)
    (le : place version ≤ place later) : range.contains version = true := by
  obtain ⟨-, unfinished⟩ := (range.contains_iff_of_bounds bounded).mp inside
  refine (range.contains_iff_of_bounds bounded).mpr ⟨fun other isOther => ?_, fun stop isStop => ?_⟩
  · obtain rfl := Option.some.inj (isStart.symm.trans isOther)
    exact ⟨after.le, fun same => absurd same after.ne'⟩
  · obtain ⟨below, included⟩ := unfinished stop isStop
    exact ⟨le.trans below, fun same => included (le_antisymm below (same ▸ le))⟩

private theorem contains_before_stop (bounded : given range.exact = false)
    {stop version earlier : Version} (isStop : range.stopV = some stop)
    (inside : range.contains earlier = true) (before : place version < place stop)
    (le : place earlier ≤ place version) : range.contains version = true := by
  obtain ⟨begun, -⟩ := (range.contains_iff_of_bounds bounded).mp inside
  refine (range.contains_iff_of_bounds bounded).mpr ⟨fun start isStart => ?_, fun other isOther => ?_⟩
  · obtain ⟨above, included⟩ := begun start isStart
    exact ⟨above.trans le, fun same => included (le_antisymm (same ▸ le) above)⟩
  · obtain rfl := Option.some.inj (isStop.symm.trans isOther)
    exact ⟨before.le, fun same => absurd same before.ne⟩

private theorem place_lt {major minor left right : Nat} (less : left < right) :
    place [major, minor, left] < place [major, minor, right] :=
  place_lt_of_third rfl rfl less

theorem place_le {major minor left right : Nat} (le : left ≤ right) :
    place [major, minor, left] ≤ place [major, minor, right] := by
  rcases le.lt_or_eq with less | rfl
  · exact (place_lt less).le
  · exact le_rfl

private theorem exists_probe {patch : Nat}
    (inside : range.contains [major, minor, patch] = true) :
    ∃ probe ∈ probes range major minor, range.contains probe = true := by
  by_contra none
  have outside (probe : Version) (member : probe ∈ probes range major minor) :
      range.contains probe = false :=
    Bool.eq_false_of_not_eq_true fun contains => none ⟨probe, member, contains⟩
  have low := outside [major, minor, 0] List.mem_cons_self
  cases exactly : given range.exact with
  | true =>
      obtain ⟨exact, isExact, same⟩ := (range.contains_iff_of_exact exactly).mp inside
      obtain ⟨majorOf, minorOf, above, below⟩ := branch_of_between same.le same.ge
      have isPatch : patch = exact.getD 2 0 := le_antisymm above below
      by_cases wide : 2 ≤ exact.length
      · have isNear : exact ∈ range.boundsIn [major, minor] :=
          mem_boundsIn (by simp [isExact]) majorOf minorOf wide
        exact Bool.false_ne_true ((outside _ (near_bound isNear (.inl isPatch))).symm.trans inside)
      · rw [List.getD_eq_default _ _ (by omega)] at isPatch
        exact Bool.false_ne_true (low.symm.trans (isPatch ▸ inside))
  | false =>
      obtain ⟨start, isStart, afterLow, beforePatch⟩ :=
        start_of_not_contains exactly inside low (place_le (Nat.zero_le patch))
      obtain ⟨majorOf, minorOf, -, below⟩ := branch_of_between afterLow beforePatch
      have after {version : Version} (patchOf : start.getD 2 0 < version.getD 2 0)
          (sameMajor : version.getD 0 0 = major) (sameMinor : version.getD 1 0 = minor) :
          place start < place version :=
        place_lt_of_third (majorOf.trans sameMajor.symm) (minorOf.trans sameMinor.symm) patchOf
      by_cases wide : 2 ≤ start.length
      · have isNear : start ∈ range.boundsIn [major, minor] :=
          mem_boundsIn (by simp [isStart]) majorOf minorOf wide
        rcases below.lt_or_eq with earlier | here
        · have next : range.contains [major, minor, start.getD 2 0 + 1] = true :=
            contains_after_start exactly isStart inside (after (Nat.lt_succ_self _) rfl rfl)
              (place_le earlier)
          exact Bool.false_ne_true ((outside _ (near_bound isNear (.inr (.inr rfl)))).symm.trans next)
        · exact Bool.false_ne_true
            ((outside _ (near_bound isNear (.inl here.symm))).symm.trans inside)
      · -- A start with one number is before the branch but for its first release.
        have startPatch : start.getD 2 0 = 0 := List.getD_eq_default _ _ (by omega)
        have high := outside [major, minor, patchUnknownHigh]
          (List.mem_cons_of_mem _ List.mem_cons_self)
        have positive : 0 < patch := by
          refine Nat.pos_of_ne_zero ?_
          rintro rfl
          exact Bool.false_ne_true (low.symm.trans inside)
        rcases Nat.lt_or_ge patch patchUnknownHigh with below | above
        · obtain ⟨stop, isStop, afterPatch, beforeHigh⟩ :=
            stop_of_not_contains exactly inside high (place_lt below).le
          obtain ⟨majorStop, minorStop, patchLe, -⟩ := branch_of_between afterPatch beforeHigh
          have stopWide : 2 ≤ stop.length := by
            by_contra narrow
            rw [List.getD_eq_default _ _ (by omega)] at patchLe
            omega
          have isNear : stop ∈ range.boundsIn [major, minor] :=
            mem_boundsIn (by simp [isStop]) majorStop minorStop stopWide
          rcases patchLe.lt_or_eq with later | here
          · have last : range.contains [major, minor, stop.getD 2 0 - 1] = true :=
              contains_before_stop exactly isStop inside
                (place_lt_of_third majorStop.symm minorStop.symm
                  (Nat.sub_lt (positive.trans later) Nat.one_pos))
                (place_le (Nat.le_sub_one_of_lt later))
            exact Bool.false_ne_true ((outside _ (near_bound isNear (.inr (.inl rfl)))).symm.trans last)
          · exact Bool.false_ne_true ((outside _ (near_bound isNear (.inl here))).symm.trans inside)
        · have inHigh : range.contains [major, minor, patchUnknownHigh] = true :=
            contains_after_start exactly isStart inside
              (after (by rw [startPatch]; exact Nat.succ_pos _) rfl rfl) (place_le above)
          exact Bool.false_ne_true (high.symm.trans inHigh)

private theorem place_lettered {major minor patch letter : Nat} (some : 1 ≤ letter) :
    place [major, minor, patch] < place [major, minor, patch, letter] ∧
      place [major, minor, patch, letter] < place [major, minor, patch + 1] := by
  constructor
  · refine Padded.endless_lt_iff.mpr ⟨3, fun earlier before => ?_, some⟩
    interval_cases earlier <;> rfl
  · exact place_lt_of_third rfl rfl (Nat.lt_succ_self patch)

private theorem place_release {letters : Bool} {release : Version}
    (isRelease : IsRelease letters major minor release) :
    place [major, minor, 0] ≤ place release ∧ place release < place [major, minor + 1] := by
  obtain ⟨patch, rfl | ⟨-, letter, some, -, rfl⟩⟩ := isRelease
  · exact ⟨place_le (Nat.zero_le patch), Padded.endless_lt_iff.mpr ⟨1, fun earlier before => by
      obtain rfl := Nat.lt_one_iff.mp before
      rfl, Nat.lt_succ_self minor⟩⟩
  · exact ⟨(place_le (Nat.zero_le patch)).trans (place_lettered some).1.le,
      Padded.endless_lt_iff.mpr ⟨1, fun earlier before => by
        obtain rfl := Nat.lt_one_iff.mp before
        rfl, Nat.lt_succ_self minor⟩⟩

private theorem outside_of_betweenPatches {patch letter : Nat} (some : 1 ≤ letter)
    (inside : range.contains [major, minor, patch, letter] = true)
    (bare : range.contains [major, minor, patch] = false)
    (next : range.contains [major, minor, patch + 1] = false) (other : Nat) :
    range.contains [major, minor, other] = false := by
  obtain ⟨above, below⟩ := @place_lettered major minor patch letter some
  by_contra contains
  rw [Bool.not_eq_false] at contains
  rcases Nat.lt_or_ge patch other with later | earlier
  · exact Bool.false_ne_true (next.symm.trans
      (VersionRange.contains_between inside contains below.le (place_le later)))
  · exact Bool.false_ne_true (bare.symm.trans
      (VersionRange.contains_between contains inside (place_le earlier) above.le))

private theorem probes_bare {probe : Version} (member : probe ∈ probes range major minor) :
    ∃ patch, probe = [major, minor, patch] := by
  rcases List.mem_cons.mp member with rfl | member
  · exact ⟨0, rfl⟩
  rcases List.mem_cons.mp member with rfl | member
  · exact ⟨patchUnknownHigh, rfl⟩
  obtain ⟨bound, -, near⟩ := List.mem_flatMap.mp member
  simp only [List.mem_cons, List.not_mem_nil, or_false] at near
  rcases near with rfl | rfl | rfl
  · exact ⟨_, rfl⟩
  · exact ⟨_, rfl⟩
  · exact ⟨_, rfl⟩

private theorem all_of_yes (endless : ¬ EndsHigh range major minor)
    (yes : hits range (unpatched major minor vendor) = .yes) {letters : Bool} {release : Version}
    (isRelease : IsRelease letters major minor release) : range.contains release = true := by
  obtain ⟨bounded, low, high⟩ := hits_eq_yes_iff.mp yes
  obtain ⟨afterLow, beforeNext⟩ := place_release isRelease
  by_contra outside
  obtain ⟨stop, isStop, -, before⟩ :=
    stop_of_not_contains bounded low (Bool.eq_false_of_not_eq_true outside) afterLow
  exact endless ⟨bounded, low, high, stop, isStop, cmp_neg_iff.mpr (before.trans_lt beforeNext)⟩

private theorem not_endsHigh_of_all {letters : Bool}
    (all : hits range (unpatched major minor vendor) = .yes →
      ∀ release, IsRelease letters major minor release → range.contains release = true) :
    ¬ EndsHigh range major minor := by
  rintro ⟨bounded, low, high, stop, isStop, before⟩
  obtain ⟨patch, after⟩ := exists_release_after (cmp_neg_iff.mp before)
  have inside := all (hits_eq_yes_iff.mpr ⟨bounded, low, high⟩) [major, minor, patch]
    ⟨patch, .inl rfl⟩
  exact (((range.contains_iff_of_bounds bounded).mp inside).2 stop isStop).1.not_gt after

/-- The answer for a branch is right exactly when the range does not end in the branch past the
highest patch level that is looked at and, of a product whose releases have letters, does not fall
between two patch levels. -/
theorem hits_sound_iff (letters : Bool) (range : VersionRange) (major minor : Nat) (vendor : Bool) :
    Sound letters range major minor vendor ↔
      ¬ EndsHigh range major minor ∧
        (letters = true → ¬ BetweenPatches range major minor) := by
  constructor
  · intro sound
    refine ⟨not_endsHigh_of_all sound.yes, ?_⟩
    rintro rfl ⟨patch, letter, some, small, inside, bare, next⟩
    have no : hits range (unpatched major minor vendor) = .no := by
      refine hits_eq_no_iff.mpr fun probe member => ?_
      obtain ⟨other, rfl⟩ := probes_bare member
      exact outside_of_betweenPatches some inside bare next other
    have outside := sound.no no [major, minor, patch, letter]
      ⟨patch, .inr ⟨rfl, letter, some, small, rfl⟩⟩
    exact Bool.false_ne_true (outside.symm.trans inside)
  · rintro ⟨endless, whole⟩
    refine ⟨fun yes release isRelease => all_of_yes endless yes isRelease,
      fun no release isRelease => ?_⟩
    have outside (patch : Nat) : range.contains [major, minor, patch] = false := by
      by_contra contains
      obtain ⟨probe, member, inside⟩ := exists_probe (Bool.not_eq_false _ |>.mp contains)
      exact Bool.false_ne_true ((hits_eq_no_iff.mp no probe member).symm.trans inside)
    obtain ⟨patch, rfl | ⟨lettered, letter, some, small, rfl⟩⟩ := isRelease
    · exact outside patch
    · by_contra contains
      exact whole lettered ⟨patch, letter, some, small, Bool.not_eq_false _ |>.mp contains,
        outside patch, outside (patch + 1)⟩

def oneLetter : VersionRange :=
  versionRange true ⟨some "1.1.1f".toList, none, false, none, false, false⟩

/-- OpenSSL 1.1 is not taken for affected, and its release 1.1.1f is. -/
theorem oneLetter_unsound : oneLetter.usable = true ∧ ¬ Sound true oneLetter 1 1 false := by
  have facts : oneLetter.usable = true ∧ hits oneLetter (unpatched 1 1 false) = .no ∧
      oneLetter.contains [1, 1, 1, 6] = true := by
    decide +kernel
  obtain ⟨usable, no, inside⟩ := facts
  refine ⟨usable, fun sound => ?_⟩
  have outside := sound.no no [1, 1, 1, 6] ⟨1, .inr ⟨rfl, 6, by decide, by decide, rfl⟩⟩
  exact Bool.false_ne_true (outside.symm.trans inside)

end CveFeed
end DomainLens
