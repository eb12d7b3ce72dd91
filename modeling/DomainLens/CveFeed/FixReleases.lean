import DomainLens.CveFeed.FixedIn
import DomainLens.Verdicts

/-!
# A rule drafted from the feed

For the CVEs of an advisory the feed says which release of each branch has the fix, and the release the
oldest of them came in with; a rule that starts from these compares versions with them.
-/

namespace DomainLens
namespace CveFeed

open Python

/-! ## The draft -/

/-- The ranges of a CVE that can be compared and apply without a condition. -/
def Entry.compared (entry : Entry) : List VersionRange :=
  entry.ranges.filter fun range => !range.conditional && range.usable

/-- The CVEs that are asked for and have ranges, in the order given. -/
def chosen (entries : List Entry) (cveIds : List Text) : List Entry :=
  ((fromKeys (cveIds.map Python.upper)).filterMap fun cveId =>
    entries.find? (·.item.cveId = cveId)).filter fun entry => entry.compared ≠ []

/-- A CVE with a range for which no release with the fix is given. -/
def Entry.withoutFix (entry : Entry) : Bool :=
  entry.compared.any fun range => (endOf range).isNone

/-- What `fix_releases` returns, before it is written. -/
structure Draft where
  cves : List Text
  fixed : List Version
  introduced : Option Version
  withoutFix : List Text

/-- The oldest release the flaws came in with, where every range has a start. -/
def oldestStart (starts : List (Option Version)) (fixed : List Version) : Option Version :=
  if starts.all Option.isSome then
    match (starts.filterMap id).min? with
    | none => none
    | some first =>
        if fixed ≠ [] ∧ fixed.all (· ≤ first) then none else some first
  else none

/-- The releases with the fix, the newest branch first. -/
def draftFixed (entries : List Entry) (cveIds : List Text) : List Version :=
  ((candidates ((chosen entries cveIds).flatMap Entry.compared)).mergeSort
    fun left right => decide (¬ left.1 < right.1)).map Prod.snd

/-- `fix_releases`. -/
def fixReleases (entries : List Entry) (cveIds : List Text) : Draft :=
  let picked := chosen entries cveIds
  let ended := (picked.flatMap Entry.compared).filter fun range => (endOf range).isSome
  { cves := picked.map fun entry => entry.item.cveId
    fixed := draftFixed entries cveIds
    introduced := oldestStart (ended.map fun range => release range.startV)
      (draftFixed entries cveIds)
    withoutFix := (picked.filter Entry.withoutFix).map fun entry => entry.item.cveId }

/-! ## When it clears no affected version -/

/-- A release the draft lists lies outside the ranges of every chosen CVE that is not reported as one
without a fix, and no rule with these releases calls a version fixed that such a CVE affects. -/
structure NeverClears (entries : List Entry) (cveIds : List Text) : Prop where
  outside : ∀ first ∈ (fixReleases entries cveIds).fixed, ∀ entry ∈ chosen entries cveIds,
    entry.item.cveId ∉ (fixReleases entries cveIds).withoutFix →
    ∀ range ∈ entry.compared, range.contains first = false
  verdict : ∀ rule : SoftwareAdvisories.Rule,
    rule.fixed.map SoftwareAdvisories.Release.fmt = (fixReleases entries cveIds).fixed.map fmt →
    ∀ shown, (SoftwareAdvisories.verdict rule (some shown)).1 = .fixed →
    ∀ entry ∈ chosen entries cveIds,
    entry.item.cveId ∉ (fixReleases entries cveIds).withoutFix →
    ∀ range ∈ entry.compared, range.contains shown.version = false

/-- A range begins in a branch or before it, and ends in a later one. -/
def Crosses (range : VersionRange) (branch : Version) : Prop :=
  (∃ last, endOf range = some last ∧ branch < last.take 2) ∧
    ∀ start, range.startV = some start →
      cmp start [branch.getD 0 0, branch.getD 1 0 + 1] < 0

/-- A range of a CVE with fixes in all its ranges crosses a branch in which another chosen range
ends. -/
def SomeCross (entries : List Entry) (cveIds : List Text) : Prop :=
  ∃ entry ∈ chosen entries cveIds, entry.withoutFix = false ∧ ∃ range ∈ entry.compared,
    ∃ other ∈ chosen entries cveIds, ∃ ended ∈ other.compared, ∃ last,
      endOf ended = some last ∧ Crosses range (last.take 2)

/-! ## The ends that are kept -/

/-- What is found of some ranges: the last end of each branch. -/
structure Ends (ranges : List VersionRange) (found : List (Version × Version)) : Prop where
  unique : ∀ entry ∈ found, ∀ other ∈ found, entry.1 = other.1 → entry = other
  ended : ∀ entry ∈ found,
    entry.2.take 2 = entry.1 ∧ ∃ range ∈ ranges, endOf range = some entry.2
  latest : ∀ range ∈ ranges, ∀ last, endOf range = some last →
    ∃ entry ∈ found, entry.1 = last.take 2 ∧ last ≤ entry.2

private theorem Ends.more {ranges : List VersionRange} {found : List (Version × Version)}
    (ends : Ends ranges found) {range : VersionRange} (none : endOf range = none) :
    Ends (ranges ++ [range]) found where
  unique := ends.unique
  ended entry member := by
    obtain ⟨branch, other, isRange, isEnd⟩ := ends.ended entry member
    exact ⟨branch, other, List.mem_append_left _ isRange, isEnd⟩
  latest other isRange last isEnd := by
    rcases List.mem_append.mp isRange with old | new
    · exact ends.latest other old last isEnd
    · rw [List.mem_singleton.mp new, none] at isEnd
      cases isEnd

section NoteEnd

variable {ranges : List VersionRange} {found : List (Version × Version)} {range : VersionRange}
  {last known : Version}

private theorem Ends.latest_append {kept : List (Version × Version)} (isEnd : endOf range = some last)
    (old : ∀ other ∈ ranges, ∀ stop, endOf other = some stop →
      ∃ entry ∈ kept, entry.1 = stop.take 2 ∧ stop ≤ entry.2)
    (new : ∃ entry ∈ kept, entry.1 = last.take 2 ∧ last ≤ entry.2) :
    ∀ other ∈ ranges ++ [range], ∀ stop, endOf other = some stop →
      ∃ entry ∈ kept, entry.1 = stop.take 2 ∧ stop ≤ entry.2 := by
  intro other member stop isStop
  rcases List.mem_append.mp member with earlier | here
  · exact old other earlier stop isStop
  · rw [List.mem_singleton.mp here, isEnd] at isStop
    obtain rfl := Option.some.inj isStop
    exact new

private theorem Ends.append (ends : Ends ranges found) (isEnd : endOf range = some last)
    (missing : found.lookup (last.take 2) = none) :
    Ends (ranges ++ [range]) (found ++ [(last.take 2, last)]) where
  unique entry isEntry other isOther same := by
    have fresh (old : Version × Version) (isOld : old ∈ found) : old.1 ≠ last.take 2 := by
      have differs := List.lookup_eq_none_iff.mp missing old isOld
      exact fun same => by simp [same] at differs
    rcases List.mem_append.mp isEntry with oldEntry | newEntry
    · rcases List.mem_append.mp isOther with oldOther | newOther
      · exact ends.unique entry oldEntry other oldOther same
      · obtain rfl := List.mem_singleton.mp newOther
        exact absurd same (fresh entry oldEntry)
    · obtain rfl := List.mem_singleton.mp newEntry
      rcases List.mem_append.mp isOther with oldOther | newOther
      · exact absurd same.symm (fresh other oldOther)
      · exact (List.mem_singleton.mp newOther).symm
  ended entry isEntry := by
    rcases List.mem_append.mp isEntry with old | new
    · obtain ⟨branch, other, isRange, isOther⟩ := ends.ended entry old
      exact ⟨branch, other, List.mem_append_left _ isRange, isOther⟩
    · obtain rfl := List.mem_singleton.mp new
      exact ⟨rfl, range, by simp, isEnd⟩
  latest := Ends.latest_append isEnd
    (fun other isRange stop isStop => by
      obtain ⟨entry, isEntry, kept⟩ := ends.latest other isRange stop isStop
      exact ⟨entry, List.mem_append_left _ isEntry, kept⟩)
    ⟨_, List.mem_append_right _ (List.mem_singleton_self _), rfl, le_rfl⟩

private theorem mem_of_lookup {branch : Version} (isKnown : found.lookup branch = some known) :
    (branch, known) ∈ found := by
  obtain ⟨front, back, split, -⟩ := List.lookup_eq_some_iff.mp isKnown
  rw [split]
  simp

private theorem Ends.keep (ends : Ends ranges found) (isEnd : endOf range = some last)
    (isKnown : found.lookup (last.take 2) = some known) (after : last ≤ known) :
    Ends (ranges ++ [range]) found where
  unique := ends.unique
  ended entry isEntry := by
    obtain ⟨branch, other, isRange, isOther⟩ := ends.ended entry isEntry
    exact ⟨branch, other, List.mem_append_left _ isRange, isOther⟩
  latest := Ends.latest_append isEnd ends.latest
    ⟨(last.take 2, known), mem_of_lookup isKnown, rfl, after⟩

private theorem Ends.replace (ends : Ends ranges found) (isEnd : endOf range = some last)
    (isKnown : found.lookup (last.take 2) = some known) (later : known < last) :
    Ends (ranges ++ [range]) (found.map fun entry =>
      if entry.1 = last.take 2 then (last.take 2, last) else entry) where
  unique entry isEntry other isOther same := by
    obtain ⟨first, isFirst, rfl⟩ := List.mem_map.mp isEntry
    obtain ⟨second, isSecond, rfl⟩ := List.mem_map.mp isOther
    have key (entry : Version × Version) :
        (if entry.1 = last.take 2 then (last.take 2, last) else entry).1 = entry.1 := by
      split_ifs with here
      · exact here.symm
      · rfl
    rw [key, key] at same
    rw [ends.unique first isFirst second isSecond same]
  ended entry isEntry := by
    obtain ⟨old, isOld, rfl⟩ := List.mem_map.mp isEntry
    split_ifs
    · exact ⟨rfl, range, by simp, isEnd⟩
    · obtain ⟨branch, other, isRange, isOther⟩ := ends.ended old isOld
      exact ⟨branch, other, List.mem_append_left _ isRange, isOther⟩
  latest := by
    have replaced : (last.take 2, last) ∈ found.map fun entry =>
        if entry.1 = last.take 2 then (last.take 2, last) else entry :=
      List.mem_map.mpr ⟨(last.take 2, known), mem_of_lookup isKnown, if_pos rfl⟩
    refine Ends.latest_append isEnd (fun other isRange stop isStop => ?_) ⟨_, replaced, rfl, le_rfl⟩
    obtain ⟨entry, isEntry, branch, after⟩ := ends.latest other isRange stop isStop
    by_cases here : entry.1 = last.take 2
    · have same := ends.unique entry isEntry _ (mem_of_lookup isKnown) here
      exact ⟨_, replaced, here ▸ branch, after.trans (same ▸ later.le)⟩
    · exact ⟨entry, List.mem_map.mpr ⟨entry, isEntry, if_neg here⟩, branch, after⟩

end NoteEnd

private theorem ends_noteEnd {ranges : List VersionRange} {found : List (Version × Version)}
    (ends : Ends ranges found) (range : VersionRange) :
    Ends (ranges ++ [range]) (noteEnd found range) := by
  unfold noteEnd
  split
  · rename_i none
    exact ends.more none
  · rename_i last isEnd
    split
    · rename_i missing
      exact ends.append isEnd missing
    · rename_i known isKnown
      split
      · rename_i later
        exact ends.replace isEnd isKnown later
      · rename_i notLater
        exact ends.keep isEnd isKnown (not_lt.mp notLater)

theorem ends_candidates (ranges : List VersionRange) : Ends ranges (candidates ranges) := by
  have kept (before : List VersionRange) (found : List (Version × Version))
      (ends : Ends before found) : Ends (before ++ ranges) (ranges.foldl noteEnd found) := by
    induction ranges generalizing before found with
    | nil => rwa [List.append_nil]
    | cons range ranges induction =>
        have rest := induction (before ++ [range]) (noteEnd found range) (ends_noteEnd ends range)
        rwa [List.append_assoc] at rest
  exact kept [] [] ⟨by simp, by simp, by simp⟩

/-! ## Releases and their places -/

private theorem place_append_replicate (numbers : Version) (count : Nat) :
    place (numbers ++ List.replicate count 0) = place numbers := by
  refine congrArg toLex (funext fun index => ?_)
  simp only [List.getD_eq_getElem?_getD, List.getElem?_append]
  split_ifs with inside
  · rfl
  · rw [List.getElem?_eq_none (not_lt.mp inside), List.getElem?_replicate]
    split_ifs <;> rfl

private theorem place_of_release {text : Option Version} {last : Version}
    (isRelease : release text = some last) :
    ∃ stop, text = some stop ∧ place last = place stop := by
  obtain ⟨stop, isStop, padded⟩ := Option.bind_eq_some_iff.mp isRelease
  split_ifs at padded
  obtain rfl := Option.some.inj padded
  exact ⟨stop, isStop, place_append_replicate stop _⟩

private theorem stop_of_endOf {range : VersionRange} {last : Version}
    (isEnd : endOf range = some last) : given range.exact = false ∧ range.stopIncl = false ∧
      ∃ stop, range.stopV = some stop ∧ place last = place stop := by
  unfold endOf at isEnd
  split_ifs at isEnd with ended
  obtain ⟨-, exclusive, bounded⟩ := ended
  exact ⟨by simpa using bounded, exclusive, place_of_release isEnd⟩

private theorem before_end {range : VersionRange} {last version : Version}
    (isEnd : endOf range = some last) (inside : range.contains version = true) :
    place version < place last := by
  obtain ⟨bounded, exclusive, stop, isStop, same⟩ := stop_of_endOf isEnd
  obtain ⟨below, included⟩ := ((range.contains_iff_of_bounds bounded).mp inside).2 stop isStop
  rw [same]
  exact below.lt_of_ne fun equal => Bool.false_ne_true (exclusive.symm.trans (included equal))

private theorem lt_iff_place_lt {left right : Version} (leftLength : left.length = 3)
    (rightLength : right.length = 3) : left < right ↔ place left < place right := by
  have whole {values : Version} (length : values.length = 3) : Padded.pad 0 3 values = values := by
    simp [Padded.pad, length]
  rw [← Padded.pad_lt_pad_iff leftLength.le rightLength.le, whole leftLength, whole rightLength]

private theorem place_lt_of_branch {left right : Version} (leftWide : 2 ≤ left.length)
    (rightWide : 2 ≤ right.length) (less : left.take 2 < right.take 2) :
    place left < place right := by
  obtain ⟨major, minor, rest, rfl⟩ : ∃ major minor rest, left = major :: minor :: rest := by
    match left, leftWide with
    | major :: minor :: rest, _ => exact ⟨major, minor, rest, rfl⟩
  obtain ⟨major', minor', rest', rfl⟩ : ∃ major minor rest, right = major :: minor :: rest := by
    match right, rightWide with
    | major :: minor :: rest, _ => exact ⟨major, minor, rest, rfl⟩
  simp only [List.take_succ_cons, List.take_zero, List.cons_lt_cons_iff, List.not_lt_nil, and_false,
    or_false] at less
  rcases less with less | ⟨rfl, less⟩
  · exact Padded.endless_lt_iff.mpr ⟨0, by simp, less⟩
  · refine Padded.endless_lt_iff.mpr ⟨1, fun earlier before => ?_, less⟩
    obtain rfl := Nat.lt_one_iff.mp before
    rfl

private theorem place_lt_next {version : Version} (wide : 2 ≤ version.length) :
    place version < place [version.getD 0 0, version.getD 1 0 + 1] := by
  obtain ⟨major, minor, rest, rfl⟩ : ∃ major minor rest, version = major :: minor :: rest := by
    match version, wide with
    | major :: minor :: rest, _ => exact ⟨major, minor, rest, rfl⟩
  refine Padded.endless_lt_iff.mpr ⟨1, fun earlier before => ?_, Nat.lt_succ_self minor⟩
  obtain rfl := Nat.lt_one_iff.mp before
  rfl

/-! ## The draft and its ranges -/

section Draft

variable {entries : List Entry} {cveIds : List Text}

private theorem ends_draft : Ends ((chosen entries cveIds).flatMap Entry.compared)
    (candidates ((chosen entries cveIds).flatMap Entry.compared)) :=
  ends_candidates _

private theorem mem_draftFixed {first : Version} : first ∈ draftFixed entries cveIds ↔
    (first.take 2, first) ∈ candidates ((chosen entries cveIds).flatMap Entry.compared) := by
  rw [draftFixed, List.mem_map]
  constructor
  · rintro ⟨entry, isEntry, rfl⟩
    have isCandidate := List.mem_mergeSort.mp isEntry
    rw [(ends_draft.ended entry isCandidate).1]
    exact isCandidate
  · exact fun isCandidate => ⟨_, List.mem_mergeSort.mpr isCandidate, rfl⟩

private theorem length_of_mem_draftFixed {first : Version}
    (listed : first ∈ draftFixed entries cveIds) : first.length = 3 :=
  length_of_mem_candidates _ (mem_draftFixed.mp listed)

private theorem ended_of_mem_draftFixed {first : Version}
    (listed : first ∈ draftFixed entries cveIds) :
    ∃ other ∈ chosen entries cveIds, ∃ range ∈ other.compared, endOf range = some first := by
  obtain ⟨-, range, isRange, isEnd⟩ := ends_draft.ended _ (mem_draftFixed.mp listed)
  obtain ⟨other, isOther, compared⟩ := List.mem_flatMap.mp isRange
  exact ⟨other, isOther, range, compared, isEnd⟩

private theorem exists_listed {entry : Entry} (isEntry : entry ∈ chosen entries cveIds)
    {range : VersionRange} (isRange : range ∈ entry.compared) {last : Version}
    (isEnd : endOf range = some last) :
    ∃ first ∈ draftFixed entries cveIds, first.take 2 = last.take 2 ∧ last ≤ first := by
  obtain ⟨⟨branch, first⟩, isCandidate, rfl, after⟩ := ends_draft.latest range
    (List.mem_flatMap.mpr ⟨entry, isEntry, isRange⟩) last isEnd
  have branch : first.take 2 = last.take 2 := (ends_draft.ended _ isCandidate).1
  exact ⟨first, mem_draftFixed.mpr (branch ▸ isCandidate), branch, after⟩

private theorem listed_unique {first other : Version} (isFirst : first ∈ draftFixed entries cveIds)
    (isOther : other ∈ draftFixed entries cveIds) (same : first.take 2 = other.take 2) :
    first = other :=
  congrArg Prod.snd (ends_draft.unique _ (mem_draftFixed.mp isFirst) _
    (mem_draftFixed.mp isOther) same)

private theorem end_of_withFix {entry : Entry} (withFix : entry.withoutFix = false)
    {range : VersionRange} (isRange : range ∈ entry.compared) : ∃ last, endOf range = some last := by
  have some := List.any_eq_false.mp withFix range isRange
  exact Option.ne_none_iff_exists'.mp (by simpa using some)

private theorem start_before_next {range : VersionRange} {version start : Version}
    (bounded : given range.exact = false) (inside : range.contains version = true)
    (isStart : range.startV = some start) (wide : 2 ≤ version.length) :
    cmp start [version.getD 0 0, version.getD 1 0 + 1] < 0 :=
  cmp_neg_iff.mpr ((((range.contains_iff_of_bounds bounded).mp inside).1 start isStart).1.trans_lt
    (place_lt_next wide))

private theorem not_contains_of_listed (apart : ¬ SomeCross entries cveIds) {entry : Entry}
    (isEntry : entry ∈ chosen entries cveIds) (withFix : entry.withoutFix = false)
    {range : VersionRange} (isRange : range ∈ entry.compared) {first version : Version}
    (listed : first ∈ draftFixed entries cveIds) (wide : 2 ≤ version.length)
    (branch : first.take 2 = version.take 2) (after : place first ≤ place version) :
    range.contains version = false := by
  by_contra contains
  rw [Bool.not_eq_false] at contains
  obtain ⟨last, isEnd⟩ := end_of_withFix withFix isRange
  have before := before_end isEnd contains
  have lastLength := length_of_endOf isEnd
  rcases lt_trichotomy (last.take 2) (version.take 2) with earlier | same | later
  · exact lt_asymm before (place_lt_of_branch (by omega) wide earlier)
  · obtain ⟨other, isOther, sameBranch, le⟩ := exists_listed isEntry isRange isEnd
    obtain rfl := listed_unique isOther listed (sameBranch.trans (same.trans branch.symm))
    have firstLength := length_of_mem_draftFixed listed
    have less := (lt_iff_place_lt firstLength lastLength).mpr (after.trans_lt before)
    exact (not_lt.mpr le) less
  · obtain ⟨other, isOther, ended, isEnded, isFirst⟩ := ended_of_mem_draftFixed listed
    refine apart ⟨entry, isEntry, withFix, range, isRange, other, isOther, ended, isEnded, first,
      isFirst, ⟨last, isEnd, branch ▸ later⟩, fun start isStart => ?_⟩
    obtain ⟨bounded, -⟩ := stop_of_endOf isEnd
    have next := start_before_next bounded contains isStart wide
    obtain ⟨major, minor, rest, rfl⟩ : ∃ major minor rest, version = major :: minor :: rest := by
      match version, wide with
      | major :: minor :: rest, _ => exact ⟨major, minor, rest, rfl⟩
    rw [branch]
    exact next

private theorem find_of_chosen {entry : Entry} (isEntry : entry ∈ chosen entries cveIds) :
    entries.find? (·.item.cveId = entry.item.cveId) = some entry := by
  obtain ⟨cveId, -, found⟩ := List.mem_filterMap.mp (List.mem_of_mem_filter isEntry)
  have same : entry.item.cveId = cveId := by simpa using List.find?_some found
  rw [same]
  exact found

private theorem mem_withoutFix {entry : Entry} (isEntry : entry ∈ chosen entries cveIds) :
    entry.item.cveId ∈ (fixReleases entries cveIds).withoutFix ↔ entry.withoutFix = true := by
  rw [fixReleases, List.mem_map]
  constructor
  · rintro ⟨other, isOther, same⟩
    obtain ⟨isChosen, withoutFix⟩ := List.mem_filter.mp isOther
    have found := find_of_chosen isChosen
    rw [same, find_of_chosen isEntry] at found
    rw [Option.some.inj found]
    exact withoutFix
  · exact fun withoutFix => ⟨entry, List.mem_filter.mpr ⟨isEntry, withoutFix⟩, rfl⟩

private theorem withFix_of_not_reported {entry : Entry} (isEntry : entry ∈ chosen entries cveIds)
    (unreported : entry.item.cveId ∉ (fixReleases entries cveIds).withoutFix) :
    entry.withoutFix = false :=
  Bool.eq_false_of_not_eq_true (mt (mem_withoutFix isEntry).mpr unreported)

/-! ## A rule with the releases of the draft -/

private theorem fmt_numbers (release : SoftwareAdvisories.Release) :
    release.fmt = fmt release.numbers := by
  simp [SoftwareAdvisories.Release.fmt, SoftwareAdvisories.Release.numbers, fmt,
    List.intercalate_cons_cons, List.intercalate_singleton]

private theorem numbers_of_written {rule : SoftwareAdvisories.Rule}
    (written : rule.fixed.map SoftwareAdvisories.Release.fmt =
      (fixReleases entries cveIds).fixed.map fmt) :
    rule.fixed.map SoftwareAdvisories.Release.numbers = draftFixed entries cveIds := by
  have read {versions : List Version} (nonempty : ∀ version ∈ versions, version ≠ []) :
      (versions.map fmt).map numeric = versions.map some := by
    rw [List.map_map]
    exact List.map_congr_left fun version member => numeric_fmt (nonempty version member)
  have numbers : rule.fixed.map SoftwareAdvisories.Release.fmt =
      (rule.fixed.map SoftwareAdvisories.Release.numbers).map fmt := by
    rw [List.map_map]
    exact List.map_congr_left fun release _ => fmt_numbers release
  have same := congrArg (List.map numeric) (numbers.symm.trans written)
  rw [read, read] at same
  · exact List.map_injective_iff.mpr (Option.some_injective _) same
  · rintro version listed rfl
    exact nomatch length_of_mem_draftFixed listed
  · rintro version isNumbers rfl
    obtain ⟨release, -, wrong⟩ := List.mem_map.mp isNumbers
    exact nomatch wrong

private theorem version_wide (shown : SoftwareAdvisories.Shown) : 2 ≤ shown.version.length ∧
    shown.version.take 2 = shown.branch := by
  simp [SoftwareAdvisories.Shown.version, SoftwareAdvisories.Release.numbers,
    SoftwareAdvisories.Shown.branch, SoftwareAdvisories.Release.branch]

private theorem place_le_version {release : SoftwareAdvisories.Release}
    {shown : SoftwareAdvisories.Shown} (branch : release.branch = shown.branch)
    (after : release.numbers ≤ shown.version) : place release.numbers ≤ place shown.version := by
  obtain ⟨⟨major, minor, patch⟩, letter, known, vendor, raw⟩ := shown
  obtain ⟨rfl, rfl⟩ : release.major = major ∧ release.minor = minor := by
    simpa [SoftwareAdvisories.Shown.branch, SoftwareAdvisories.Release.branch] using branch
  have patchLe : release.patch ≤ patch := by
    refine not_lt.mp fun less => (not_lt.mpr after) ?_
    simp [SoftwareAdvisories.Shown.version, SoftwareAdvisories.Release.numbers,
      List.cons_lt_cons_iff, less]
  refine not_lt.mp fun before => ?_
  obtain ⟨index, -, less⟩ := Padded.endless_lt_iff.mp before
  obtain rfl | rfl | rfl | ⟨later, rfl⟩ :
      index = 0 ∨ index = 1 ∨ index = 2 ∨ ∃ later, index = later + 3 := by
    by_cases few : index < 3
    · omega
    · exact .inr (.inr (.inr ⟨index - 3, by omega⟩))
  · exact lt_irrefl _ less
  · exact lt_irrefl _ less
  · exact (not_lt.mpr patchLe) less
  · exact Nat.not_lt_zero _ less

private theorem fixed_cases {rule : SoftwareAdvisories.Rule} {shown : SoftwareAdvisories.Shown}
    (isFixed : (SoftwareAdvisories.verdict rule (some shown)).1 = .fixed) :
    (∀ release ∈ rule.fixed, release.branch < shown.branch) ∨
      ∃ release ∈ rule.fixed, release.branch = shown.branch ∧
        release.numbers ≤ shown.version := by
  rw [SoftwareAdvisories.verdict_fst] at isFixed
  split_ifs at isFixed
  unfold SoftwareAdvisories.settled at isFixed
  split at isFixed
  · split_ifs at isFixed with later
    exact .inl fun release member => of_decide_eq_true (List.all_eq_true.mp later release member)
  · rename_i release found
    split_ifs at isFixed with unknown after
    exact .inr ⟨release, List.mem_of_find?_eq_some found, by simpa using List.find?_some found,
      after⟩

private theorem neverClears_of_apart (apart : ¬ SomeCross entries cveIds) :
    NeverClears entries cveIds where
  outside first listed entry isEntry unreported range isRange :=
    not_contains_of_listed apart isEntry (withFix_of_not_reported isEntry unreported) isRange listed
      (by rw [length_of_mem_draftFixed listed]; decide) rfl le_rfl
  verdict rule written shown isFixed entry isEntry unreported range isRange := by
    have withFix := withFix_of_not_reported isEntry unreported
    have numbers := numbers_of_written written
    obtain ⟨wide, shownBranch⟩ := version_wide shown
    rcases fixed_cases isFixed with later | ⟨release, isRelease, branch, after⟩
    · by_contra contains
      rw [Bool.not_eq_false] at contains
      obtain ⟨last, isEnd⟩ := end_of_withFix withFix isRange
      obtain ⟨first, isFirst, sameBranch, -⟩ := exists_listed isEntry isRange isEnd
      obtain ⟨release, isRelease, rfl⟩ := List.mem_map.mp (numbers.symm ▸ isFirst)
      have less : last.take 2 < shown.version.take 2 := by
        rw [← sameBranch, shownBranch]
        exact later release isRelease
      exact lt_asymm (before_end isEnd contains)
        (place_lt_of_branch (by rw [length_of_endOf isEnd]; decide) wide less)
    · have listed : release.numbers ∈ draftFixed entries cveIds :=
        numbers ▸ List.mem_map_of_mem isRelease
      exact not_contains_of_listed apart isEntry withFix isRange listed wide
        (shownBranch.symm ▸ branch) (place_le_version branch after)

/-- The releases of the draft as those of a rule. -/
private def asRelease (version : Version) : SoftwareAdvisories.Release where
  major := version.getD 0 0
  minor := version.getD 1 0
  patch := version.getD 2 0

private theorem numbers_asRelease {version : Version} (length : version.length = 3) :
    (asRelease version).numbers = version := by
  obtain ⟨major, minor, patch, rfl⟩ := List.length_eq_three.mp length
  rfl

/-- A rule that names nothing but the releases of the draft. -/
private def draftRule (fixed : List Version) : SoftwareAdvisories.Rule where
  publicForm :=
    { id := [], name := [], product := [], token := [], cves := [], severity := [], published := [],
      summary := [], impact := [], fix := [], check := [], sources := [], seenCookies := [],
      seenPaths := [], fixed := [], olderBranches := [], introduced := [], references := [] }
  builtin := false
  pattern := []
  traits := []
  fixed := fixed.map asRelease
  introduced := none

private theorem written_draftRule :
    (draftRule (draftFixed entries cveIds)).fixed.map SoftwareAdvisories.Release.fmt =
      (fixReleases entries cveIds).fixed.map fmt := by
  rw [draftRule, List.map_map]
  refine List.map_congr_left fun version listed => ?_
  rw [Function.comp_apply, fmt_numbers, numbers_asRelease (length_of_mem_draftFixed listed)]

private def shownAt (major minor patch : Nat) : SoftwareAdvisories.Shown where
  release := { major := major, minor := minor, patch := patch }
  letter := none
  patchKnown := true
  vendor := false
  raw := []

private theorem verdict_draftRule {major minor patch later : Nat}
    (listed : [major, minor, patch] ∈ draftFixed entries cveIds) (le : patch ≤ later) :
    (SoftwareAdvisories.verdict (draftRule (draftFixed entries cveIds))
      (some (shownAt major minor later))).1 = .fixed := by
  have young : SoftwareAdvisories.beforeIntroduced (draftRule (draftFixed entries cveIds))
      (shownAt major minor later) = false := rfl
  rw [SoftwareAdvisories.verdict_fst, if_neg (young ▸ Bool.false_ne_true),
    SoftwareAdvisories.settled]
  have isRelease := List.mem_map_of_mem (f := asRelease) listed
  cases found : (draftRule (draftFixed entries cveIds)).fixed.find? fun release =>
      decide (release.branch = (shownAt major minor later).branch) with
  | none => exact absurd (List.find?_eq_none.mp found _ isRelease) (by simp [asRelease,
      SoftwareAdvisories.Release.branch, SoftwareAdvisories.Shown.branch, shownAt])
  | some release =>
      obtain ⟨version, isVersion, rfl⟩ := List.mem_map.mp (List.mem_of_find?_eq_some found)
      have branch : (asRelease version).branch = [major, minor] := by
        simpa [SoftwareAdvisories.Shown.branch, shownAt, SoftwareAdvisories.Release.branch] using
          List.find?_some found
      have length := length_of_mem_draftFixed isVersion
      have same : version = [major, minor, patch] := by
        refine listed_unique isVersion listed ?_
        rw [← numbers_asRelease length]
        exact branch
      have after : (asRelease version).numbers ≤ (shownAt major minor later).version := by
        rw [numbers_asRelease length, same, ← not_lt]
        simpa [SoftwareAdvisories.Shown.version, SoftwareAdvisories.Release.numbers, shownAt,
          List.cons_lt_cons_iff] using le
      dsimp only
      rw [if_neg (by simp [shownAt]), if_pos after]

private theorem not_neverClears_of_cross (cross : SomeCross entries cveIds) :
    ¬ NeverClears entries cveIds := by
  obtain ⟨entry, isEntry, withFix, range, isRange, other, isOther, ended, isEnded, stop, isStop,
    ⟨last, isEnd, before⟩, begun⟩ := cross
  obtain ⟨first, listed, branch, -⟩ := exists_listed isOther isEnded isStop
  obtain ⟨major, minor, patch, rfl⟩ := List.length_eq_three.mp (length_of_mem_draftFixed listed)
  obtain ⟨bounded, -, finish, isFinish, same⟩ := stop_of_endOf isEnd
  rw [← branch] at before begun
  obtain ⟨early, begins⟩ : ∃ early, ∀ start, range.startV = some start →
      place start < place [major, minor, early] := by
    cases isStart : range.startV with
    | none => exact ⟨0, fun start wrong => nomatch wrong⟩
    | some start =>
        obtain ⟨early, less⟩ := exists_release_after (cmp_neg_iff.mp (begun start isStart))
        exact ⟨early, fun other isOther => Option.some.inj isOther ▸ less⟩
  have contains : range.contains [major, minor, max early patch] = true := by
    refine (range.contains_iff_of_bounds bounded).mpr ⟨fun start isStart => ?_,
      fun other isOther => ?_⟩
    · have less := (begins start isStart).trans_le (place_le (le_max_left early patch))
      exact ⟨less.le, fun equal => absurd equal less.ne'⟩
    · obtain rfl := Option.some.inj (isFinish.symm.trans isOther)
      have less : place [major, minor, max early patch] < place finish := same ▸
        place_lt_of_branch (Nat.le_add_left 2 1) (by rw [length_of_endOf isEnd]; decide) before
      exact ⟨less.le, fun equal => absurd equal less.ne⟩
  intro never
  have outside := never.verdict _ written_draftRule (shownAt major minor (max early patch))
    (verdict_draftRule listed (le_max_right early patch)) entry isEntry
    (fun reported => Bool.false_ne_true (withFix.symm.trans ((mem_withoutFix isEntry).mp reported)))
    range isRange
  exact Bool.false_ne_true (outside.symm.trans contains)

end Draft

/-- A rule drafted from the feed never clears an affected version exactly when no chosen range
crosses a branch in which another one ends. -/
theorem neverClears_iff (entries : List Entry) (cveIds : List Text) :
    NeverClears entries cveIds ↔ ¬ SomeCross entries cveIds :=
  ⟨fun never cross => not_neverClears_of_cross cross never, neverClears_of_apart⟩

/-- A flaw whose one range ends two branches on. -/
def acrossBranches : Entry where
  item := ⟨"CVE-2026-1".toList, none, 0, [], some 9, none, none, []⟩
  ranges := [versionRange false ⟨none, some "8.1.0".toList, true, some "8.3.5".toList, false, false⟩]

/-- A flaw with a fix in the branch it came in with. -/
def inOneBranch : Entry where
  item := ⟨"CVE-2026-2".toList, none, 0, [], some 9, none, none, []⟩
  ranges := [versionRange false ⟨none, some "8.1.0".toList, true, some "8.1.9".toList, false, false⟩]

private theorem acrossBranches_facts :
    let asked := ["CVE-2026-1".toList, "CVE-2026-2".toList]
    let entries := [acrossBranches, inOneBranch]
    ([8, 1], [8, 1, 9]) ∈ candidates ((chosen entries asked).flatMap Entry.compared) ∧
      (∃ entry ∈ chosen entries asked,
        entry.item.cveId ∉ (fixReleases entries asked).withoutFix ∧
        ∃ range ∈ entry.compared, range.contains [8, 1, 9] = true) := by
  decide +kernel

/-- The release listed for the branch of the one is still affected by the other. -/
theorem acrossBranches_cleared : ¬ NeverClears [acrossBranches, inOneBranch]
    ["CVE-2026-1".toList, "CVE-2026-2".toList] := by
  obtain ⟨isCandidate, entry, isEntry, unreported, range, isRange, inside⟩ := acrossBranches_facts
  have listed : [8, 1, 9] ∈ draftFixed [acrossBranches, inOneBranch]
      ["CVE-2026-1".toList, "CVE-2026-2".toList] := mem_draftFixed.mpr isCandidate
  intro never
  have outside := never.outside _ listed entry isEntry unreported range isRange
  exact Bool.false_ne_true (outside.symm.trans inside)

end CveFeed
end DomainLens
