import DomainLens.CveFeed.Branches

/-!
# The release that leaves the known CVEs behind

For a version with applicable CVEs the assessment names a release of its branch: the last end among
the ranges that take the version in.
-/

namespace DomainLens
namespace CveFeed

open Python

/-! ## The last end -/

/-- The ranges of a CVE, other than exact versions, that take a version in. -/
def Entry.taking (entry : Entry) (version : Version) : List VersionRange :=
  entry.ranges.filter fun range =>
    range.usable && !given range.exact && range.contains version

/-- The release of the branch before which a range ends. -/
def endIn (branch : Version) (range : VersionRange) : Option Version :=
  range.stopV.bind fun stop =>
    if range.stopIncl = true ∨ stop.take 2 ≠ branch then none else some stop

/-- The later of a release and the one known so far. -/
def laterOf (target : Option Version) (stop : Version) : Version :=
  match target with
  | none => stop
  | some known => if 0 < cmp stop known then stop else known

/-- The ends of some ranges, one after the other; none where a range has no end in the branch. -/
def lastEnd (branch : Version) (target : Option Version) (ranges : List VersionRange) :
    Option (Option Version) :=
  ranges.foldlM (fun target range => (endIn branch range).map fun stop => some (laterOf target stop))
    target

/-- `_fixed_in`, before it is written. -/
def fixedIn (applicable : List Entry) (shown : Shown) : Option Version :=
  (applicable.foldlM (fun target entry =>
    if entry.taking shown.version = [] then none
    else lastEnd (shown.version.take 2) target (entry.taking shown.version)) none).join

/-- `_fmt`: where releases have letters, a fourth number is one. -/
def fmtLetters (letters : Bool) (version : Version) : Text :=
  match letters, version with
  | true, [major, minor, patch, letter] =>
      if 1 ≤ letter ∧ letter ≤ 26 then fmt [major, minor, patch] ++ [Char.ofNat (96 + letter)]
      else fmt version
  | _, _ => fmt version

/-- The release `assess_product` names beside the applicable CVEs. -/
def assessFixed (letters : Bool) (entries : List Entry) (shown : Shown) : Option Text :=
  let applicable := (split shown entries).applicable
  if applicable = [] then none else (fixedIn applicable shown).map (fmtLetters letters)

/-! ## Writing a release -/

private theorem digit_of_numeric {text : Text} {numbers : Version}
    (isNumeric : numeric text = some numbers) {char : Char} (member : char ∈ text) :
    char = '.' ∨ isDecimal char = true := by
  have parts : ['.'].intercalate (text.splitOn '.') = text := List.intercalate_splitOn '.'
  rw [← parts] at member
  refine (mem_intercalate member).imp id fun ⟨part, isPart, inside⟩ => ?_
  simp only [numeric, Option.ite_none_right_eq_some] at isNumeric
  have digits := of_decide_eq_true (List.all_eq_true.mp isNumeric.1 part isPart)
  exact List.all_eq_true.mp digits.2 char inside

private theorem letters_checked : ∀ letter ∈ List.range' 1 26,
    letterNumber (Char.ofNat (96 + letter)) = some letter ∧
      isDecimal (Char.ofNat (96 + letter)) = false ∧ Char.ofNat (96 + letter) ≠ '.' ∧
      isSpace (Char.ofNat (96 + letter)) = false := by
  decide +kernel

private theorem version_lettered {release : Version} (nonempty : release ≠ []) {letter : Nat}
    (small : letter ∈ List.range' 1 26) :
    version true (some (fmt release ++ [Char.ofNat (96 + letter)])) = some (release ++ [letter]) := by
  obtain ⟨isLetter, notDigit, notPoint, solid⟩ := letters_checked letter small
  have stripped : strip (fmt release ++ [Char.ofNat (96 + letter)]) =
      fmt release ++ [Char.ofNat (96 + letter)] := by
    refine strip_of_isStripped (isStripped_of_solid fun char member => ?_)
    rcases List.mem_append.mp member with inRelease | isLast
    · exact solid_fmt release char inRelease
    · rw [List.mem_singleton.mp isLast]
      exact solid
  have notNumeric : numeric (fmt release ++ [Char.ofNat (96 + letter)]) = none := by
    cases read : numeric (fmt release ++ [Char.ofNat (96 + letter)]) with
    | none => rfl
    | some numbers =>
        rcases digit_of_numeric read (List.mem_append_right _ (List.mem_singleton_self _)) with
          point | digit
        · exact absurd point notPoint
        · exact absurd (notDigit.symm.trans digit) Bool.false_ne_true
  simp only [version, Option.getD_some, stripped, notNumeric, if_true, List.getLast?_concat,
    Option.bind_some, isLetter, List.dropLast_concat, numeric_fmt nonempty, Option.map_some]

theorem version_fmtLetters {letters : Bool} {release : Version} (nonempty : release ≠ []) :
    version letters (some (fmtLetters letters release)) = some release := by
  unfold fmtLetters
  split
  · rename_i major minor patch letter
    split_ifs with small
    · have inRange : letter ∈ List.range' 1 26 := by
        rw [List.mem_range'_1]
        omega
      exact version_lettered (by simp) inRange
    · exact version_fmt true (by simp)
  · exact version_fmt _ nonempty

/-! ## Which end is the last -/

/-- A version of a list that none of the list is later than, where there is one. -/
def IsLast (versions : List Version) : Option Version → Prop
  | none => versions = []
  | some last => last ∈ versions ∧ ∀ other ∈ versions, place other ≤ place last

private theorem isLast_laterOf (target : Option Version) (stop : Version) :
    IsLast (target.toList ++ [stop]) (some (laterOf target stop)) := by
  cases target with
  | none => exact ⟨List.mem_singleton_self stop, by simp [laterOf]⟩
  | some known =>
      rw [laterOf]
      split_ifs with later
      · have after := (cmp_pos_iff.mp later).le
        exact ⟨by simp, by simp [after]⟩
      · have before : place stop ≤ place known := not_lt.mp (mt cmp_pos_iff.mpr later)
        exact ⟨by simp, by simp [before]⟩

private theorem IsLast.trans {versions more : List Version} {target result : Option Version}
    (first : IsLast versions target) (second : IsLast (target.toList ++ more) result) :
    IsLast (versions ++ more) result := by
  cases target with
  | none =>
      obtain rfl : versions = [] := first
      exact second
  | some last =>
      cases result with
      | none => exact nomatch second
      | some result =>
          obtain ⟨isLast, latest⟩ := first
          obtain ⟨isResult, after⟩ := second
          have lastLe := after last (by simp)
          refine ⟨?_, fun other member => ?_⟩
          · rcases List.mem_cons.mp isResult with rfl | later
            · exact List.mem_append_left more isLast
            · exact List.mem_append_right versions later
          · rcases List.mem_append.mp member with old | new
            · exact (latest other old).trans lastLe
            · exact after other (List.mem_cons_of_mem last new)

variable {branch : Version}

private theorem lastEnd_spec {target result : Option Version} {ranges : List VersionRange}
    (found : lastEnd branch target ranges = some result) :
    (∀ range ∈ ranges, (endIn branch range).isSome) ∧
      IsLast (target.toList ++ ranges.filterMap (endIn branch)) result := by
  induction ranges generalizing target with
  | nil =>
      obtain rfl := Option.some.inj found
      cases target with
      | none => exact ⟨by simp, rfl⟩
      | some last => exact ⟨by simp, by simp [IsLast]⟩
  | cons range ranges induction =>
      rw [lastEnd, List.foldlM_cons] at found
      obtain ⟨next, taken, rest⟩ := Option.bind_eq_some_iff.mp found
      obtain ⟨stop, isEnd, rfl⟩ := Option.map_eq_some_iff.mp taken
      obtain ⟨all, last⟩ := induction rest
      refine ⟨?_, ?_⟩
      · intro other member
        rcases List.mem_cons.mp member with rfl | later
        · rw [isEnd]
          rfl
        · exact all other later
      · rw [List.filterMap_cons_some isEnd]
        have joined := (isLast_laterOf target stop).trans last
        rwa [List.append_assoc] at joined

private theorem lastEnd_isSome (target : Option Version) {ranges : List VersionRange}
    (all : ∀ range ∈ ranges, (endIn branch range).isSome) :
    (lastEnd branch target ranges).isSome := by
  induction ranges generalizing target with
  | nil => rfl
  | cons range ranges induction =>
      obtain ⟨stop, isEnd⟩ := Option.isSome_iff_exists.mp (all range List.mem_cons_self)
      rw [lastEnd, List.foldlM_cons, isEnd]
      exact induction _ fun other member => all other (List.mem_cons_of_mem range member)

/-! ## When the release leaves the CVEs behind -/

/-- The release that is named lies outside every range of the applicable CVEs that can be compared
and applies without a condition. -/
def LeavesBehind (letters : Bool) (entries : List Entry) (shown : Shown) : Prop :=
  ∀ text, assessFixed letters entries shown = some text →
    ∃ release, version letters (some text) = some release ∧
      ∀ entry ∈ (split shown entries).applicable, ∀ range ∈ entry.ranges,
        range.usable = true → range.conditional = false → range.contains release = false

/-- Every applicable CVE has ranges that take the version in, and they all end in its branch. -/
structure Fixable (applicable : List Entry) (shown : Shown) : Prop where
  taken : ∀ entry ∈ applicable, entry.taking shown.version ≠ []
  ended : ∀ entry ∈ applicable, ∀ range ∈ entry.taking shown.version,
    (endIn (shown.version.take 2) range).isSome

/-- Another range of an applicable CVE takes in the last of these ends. -/
def Reopened (applicable : List Entry) (shown : Shown) : Prop :=
  ∃ last, (∃ entry ∈ applicable, ∃ range ∈ entry.taking shown.version,
      endIn (shown.version.take 2) range = some last) ∧
    (∀ entry ∈ applicable, ∀ range ∈ entry.taking shown.version, ∀ stop,
      endIn (shown.version.take 2) range = some stop → cmp stop last ≤ 0) ∧
    ∃ entry ∈ applicable, ∃ range ∈ entry.ranges, range.usable = true ∧
      range.conditional = false ∧ range.contains shown.version = false ∧
      range.contains last = true

/-- The releases before which the ranges end that take the version in. -/
private def endsOf (applicable : List Entry) (shown : Shown) : List Version :=
  (applicable.flatMap fun entry => entry.taking shown.version).filterMap
    (endIn (shown.version.take 2))

private theorem mem_endsOf {applicable : List Entry} {shown : Shown} {last : Version} :
    last ∈ endsOf applicable shown ↔ ∃ entry ∈ applicable, ∃ range ∈ entry.taking shown.version,
      endIn (shown.version.take 2) range = some last := by
  rw [endsOf, List.mem_filterMap]
  simp only [List.mem_flatMap]
  constructor
  · rintro ⟨range, ⟨entry, isEntry, isTaking⟩, isEnd⟩
    exact ⟨entry, isEntry, range, isTaking, isEnd⟩
  · rintro ⟨entry, isEntry, range, isTaking, isEnd⟩
    exact ⟨range, ⟨entry, isEntry, isTaking⟩, isEnd⟩

private theorem fixedIn_loop {applicable : List Entry} {shown : Shown}
    {target result : Option Version}
    (found : applicable.foldlM (fun target entry =>
      if entry.taking shown.version = [] then none
      else lastEnd (shown.version.take 2) target (entry.taking shown.version)) target =
        some result) :
    Fixable applicable shown ∧ IsLast (target.toList ++ endsOf applicable shown) result := by
  induction applicable generalizing target with
  | nil =>
      obtain rfl := Option.some.inj found
      refine ⟨⟨by simp, by simp⟩, ?_⟩
      cases target with
      | none => rfl
      | some last => simp [IsLast, endsOf]
  | cons entry applicable induction =>
      rw [List.foldlM_cons] at found
      obtain ⟨next, taken, rest⟩ := Option.bind_eq_some_iff.mp found
      split_ifs at taken with nothing
      obtain ⟨ended, first⟩ := lastEnd_spec taken
      obtain ⟨fixable, last⟩ := induction rest
      refine ⟨⟨?_, ?_⟩, ?_⟩
      · intro other member
        rcases List.mem_cons.mp member with rfl | later
        · exact nothing
        · exact fixable.taken other later
      · intro other member
        rcases List.mem_cons.mp member with rfl | later
        · exact ended
        · exact fixable.ended other later
      · have joined := first.trans last
        rw [List.append_assoc] at joined
        rwa [endsOf, List.flatMap_cons, List.filterMap_append]

private theorem fixedIn_isSome {applicable : List Entry} {shown : Shown}
    (fixable : Fixable applicable shown) (target : Option Version) :
    (applicable.foldlM (fun target entry =>
      if entry.taking shown.version = [] then none
      else lastEnd (shown.version.take 2) target (entry.taking shown.version)) target).isSome := by
  induction applicable generalizing target with
  | nil => rfl
  | cons entry applicable induction =>
      obtain ⟨next, taken⟩ := Option.isSome_iff_exists.mp (lastEnd_isSome target
        (fixable.ended entry List.mem_cons_self))
      rw [List.foldlM_cons, if_neg (fixable.taken entry List.mem_cons_self), taken]
      exact induction ⟨fun other member => fixable.taken other (List.mem_cons_of_mem entry member),
        fun other member => fixable.ended other (List.mem_cons_of_mem entry member)⟩ next

private theorem fixedIn_eq_some {applicable : List Entry} {shown : Shown} {last : Version}
    (named : fixedIn applicable shown = some last) :
    Fixable applicable shown ∧ IsLast (endsOf applicable shown) (some last) := by
  obtain ⟨result, found, rfl⟩ : ∃ result, _ = some result ∧ result = some last := by
    simpa [fixedIn, Option.join_eq_some_iff] using named
  exact fixedIn_loop found

private theorem exists_fixedIn {applicable : List Entry} {shown : Shown} {last : Version}
    (fixable : Fixable applicable shown) (isEnd : last ∈ endsOf applicable shown) :
    ∃ named, fixedIn applicable shown = some named := by
  obtain ⟨result, found⟩ := Option.isSome_iff_exists.mp (fixedIn_isSome fixable none)
  obtain ⟨-, isLast⟩ := fixedIn_loop found
  cases result with
  | none =>
      rw [show endsOf applicable shown = [] from isLast] at isEnd
      cases isEnd
  | some named => exact ⟨named, by rw [fixedIn, found]; rfl⟩

private theorem endIn_eq_some {range : VersionRange} {stop : Version}
    (isEnd : endIn branch range = some stop) :
    range.stopV = some stop ∧ range.stopIncl = false ∧ stop.take 2 = branch := by
  obtain ⟨found, isStop, kept⟩ := Option.bind_eq_some_iff.mp isEnd
  split_ifs at kept with refused
  obtain rfl := Option.some.inj kept
  rw [not_or, Bool.not_eq_true, not_not] at refused
  exact ⟨isStop, refused⟩

private theorem contains_congr {range : VersionRange} {left right : Version}
    (same : place left = place right) : range.contains left = range.contains right := by
  rw [Bool.eq_iff_iff]
  exact ⟨fun inside => VersionRange.contains_between inside inside same.le same.ge,
    fun inside => VersionRange.contains_between inside inside same.ge same.le⟩

private theorem outside_of_taking {applicable : List Entry} {shown : Shown} {last : Version}
    (fixable : Fixable applicable shown) (isLast : IsLast (endsOf applicable shown) (some last))
    {entry : Entry} (isEntry : entry ∈ applicable) {range : VersionRange}
    (isRange : range ∈ entry.ranges) (usable : range.usable = true)
    (inside : range.contains shown.version = true) : range.contains last = false := by
  -- Any range that takes the version in ends after it, so the last end is after the version.
  have after {other : VersionRange} (isTaking : other ∈ entry.taking shown.version) :
      ∃ stop, other.stopV = some stop ∧ other.stopIncl = false ∧
        place shown.version < place stop ∧ place stop ≤ place last := by
    obtain ⟨stop, isEnd⟩ := Option.isSome_iff_exists.mp (fixable.ended entry isEntry other isTaking)
    obtain ⟨isStop, exclusive, -⟩ := endIn_eq_some isEnd
    have kept := (List.mem_filter.mp isTaking).2
    simp only [Bool.and_eq_true, Bool.not_eq_true'] at kept
    obtain ⟨below, included⟩ :=
      ((other.contains_iff_of_bounds kept.1.2).mp kept.2).2 stop isStop
    refine ⟨stop, isStop, exclusive, below.lt_of_ne fun same => ?_,
      isLast.2 stop (mem_endsOf.mpr ⟨entry, isEntry, other, isTaking, isEnd⟩)⟩
    exact Bool.false_ne_true (exclusive.symm.trans (included same))
  obtain ⟨some, isSome⟩ := List.exists_mem_of_ne_nil _ (fixable.taken entry isEntry)
  by_contra taken
  rw [Bool.not_eq_false] at taken
  cases exactly : given range.exact with
  | true =>
      obtain ⟨_, -, -, before, le⟩ := after isSome
      obtain ⟨exact, isExact, same⟩ := (range.contains_iff_of_exact exactly).mp inside
      obtain ⟨other, isOther, sameLast⟩ := (range.contains_iff_of_exact exactly).mp taken
      obtain rfl := Option.some.inj (isExact.symm.trans isOther)
      exact (before.trans_le le).ne (same.trans sameLast.symm)
  | false =>
      have isTaking : range ∈ entry.taking shown.version :=
        List.mem_filter.mpr ⟨isRange, by rw [usable, exactly, inside]; rfl⟩
      obtain ⟨stop, isStop, exclusive, -, le⟩ := after isTaking
      obtain ⟨below, included⟩ := ((range.contains_iff_of_bounds exactly).mp taken).2 stop isStop
      exact Bool.false_ne_true (exclusive.symm.trans (included (le_antisymm below le)))

/-- The release that is named leaves the applicable CVEs behind exactly when it names none, or no
other range of theirs takes in the last end. -/
theorem leavesBehind_iff (letters : Bool) (entries : List Entry) (shown : Shown) :
    LeavesBehind letters entries shown ↔
      ¬ (Fixable (split shown entries).applicable shown ∧
        Reopened (split shown entries).applicable shown) := by
  rw [LeavesBehind, assessFixed]
  generalize (split shown entries).applicable = applicable
  have wide {last : Version} (isEnd : last ∈ endsOf applicable shown) : last ≠ [] := by
    rintro rfl
    obtain ⟨_, -, _, -, found⟩ := mem_endsOf.mp isEnd
    obtain ⟨major, minor, patch, letter, numbers, -⟩ := shown.numbers
    have branch := (endIn_eq_some found).2.2
    rw [numbers] at branch
    cases branch
  constructor
  · rintro behind ⟨fixable, last, isEnd, latest, entry, isEntry, range, isRange, usable,
      unconditional, -, inside⟩
    have isLast := mem_endsOf.mpr isEnd
    obtain ⟨named, isNamed⟩ := exists_fixedIn fixable isLast
    obtain ⟨-, isNamedEnd, after⟩ := fixedIn_eq_some isNamed
    have some : applicable ≠ [] := List.ne_nil_of_mem isEntry
    obtain ⟨release, reads, outside⟩ := behind (fmtLetters letters named)
      (by rw [if_neg some, isNamed]; rfl)
    obtain rfl := Option.some.inj ((version_fmtLetters (wide isNamedEnd)).symm.trans reads)
    obtain ⟨other, isOther, otherRange, isTaking, found⟩ := mem_endsOf.mp isNamedEnd
    have before := latest other isOther otherRange isTaking named found
    have same : place named = place last := le_antisymm
      (not_lt.mp (mt cmp_pos_iff.mpr before.not_gt)) (after last isLast)
    have taken := outside entry isEntry range isRange usable unconditional
    rw [contains_congr same, inside] at taken
    exact Bool.false_ne_true taken.symm
  · intro closed text written
    split_ifs at written with nothing
    obtain ⟨named, isNamed, rfl⟩ := Option.map_eq_some_iff.mp written
    obtain ⟨fixable, isLast⟩ := fixedIn_eq_some isNamed
    refine ⟨named, version_fmtLetters (wide isLast.1),
      fun entry isEntry range isRange usable unconditional => ?_⟩
    cases inside : range.contains shown.version with
    | true => exact outside_of_taking fixable isLast isEntry isRange usable inside
    | false =>
        by_contra taken
        rw [Bool.not_eq_false] at taken
        refine closed ⟨fixable, named, mem_endsOf.mp isLast.1,
          fun other isOther otherRange isTaking stop isEnd => ?_,
          entry, isEntry, range, isRange, usable, unconditional, inside, taken⟩
        have le := isLast.2 stop (mem_endsOf.mpr ⟨other, isOther, otherRange, isTaking, isEnd⟩)
        exact not_lt.mp (mt cmp_pos_iff.mp le.not_gt)

/-- A flaw that came back in the release that had fixed it. -/
def returned : Entry where
  item := ⟨"CVE-2026-1".toList, none, 0, [], some 9, none, none, []⟩
  ranges := [versionRange false ⟨none, some "8.1.0".toList, true, some "8.1.5".toList, false, false⟩,
    versionRange false ⟨none, some "8.1.5".toList, true, some "8.1.9".toList, false, false⟩]

private theorem numbers_affected : ∃ major minor patch letter,
    [8, 1, 2] = major :: minor :: patch :: letter ∧ (true = false → patch = 0 ∧ letter = []) :=
  ⟨8, 1, 2, [], rfl, fun unknown => nomatch unknown⟩

def affectedShown : Shown where
  version := [8, 1, 2]
  patchKnown := true
  vendor := false
  numbers := numbers_affected

private theorem returned_facts :
    assessFixed false [returned] affectedShown = some "8.1.5".toList ∧
      version false (some "8.1.5".toList) = some [8, 1, 5] ∧
      Hit.yes ∈ returned.usable.map (verdict affectedShown) ∧
      ∃ range ∈ returned.ranges, range.usable = true ∧ range.conditional = false ∧
        range.contains [8, 1, 5] = true := by
  decide +kernel

/-- The update from 8.1.2 that is named, 8.1.5, is affected again. -/
theorem returned_not_left : ¬ LeavesBehind false [returned] affectedShown := by
  obtain ⟨written, reads, hit, range, isRange, usable, unconditional, inside⟩ := returned_facts
  intro behind
  obtain ⟨release, isRelease, outside⟩ := behind _ written
  obtain rfl := Option.some.inj (reads.symm.trans isRelease)
  have applicable : returned ∈ (split affectedShown [returned]).applicable := by
    have notVendor : affectedShown.vendor = false := rfl
    have versioned : returned.usable ≠ [] := by
      intro nothing
      rw [nothing] at hit
      cases hit
    simp only [split, notVendor, Bool.false_and, Bool.false_eq_true, if_false, List.mem_mergeSort]
    exact List.mem_filter.mpr ⟨List.mem_filter.mpr ⟨List.mem_singleton_self _,
      decide_eq_true versioned⟩, decide_eq_true hit⟩
  have left := outside returned applicable range isRange usable unconditional
  exact Bool.false_ne_true (left.symm.trans inside)

end CveFeed
end DomainLens
