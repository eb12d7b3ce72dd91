import DomainLens.CveFeed.Versions
import DomainLens.SoftwareAdvisories

/-!
# The releases no known CVE reaches

For each followed product the feed shows, per branch, a release to start from that none of its CVEs
reaches.  The file embeds that overview and compares it with the assessment of a version that is shown:
the one looks for the end of the last affected stretch, the other asks every range.
-/

namespace DomainLens
namespace CveFeed

open Python

/-! ## The overview -/

/-- A followed product, with the token it names itself by. -/
structure Followed where
  key : Text
  product : Text
  token : Text

/-- `PRODUCTS`. -/
def followed : List Followed :=
  [⟨"php".toList, "PHP".toList, "PHP".toList⟩,
    ⟨"nginx".toList, "nginx".toList, "nginx".toList⟩,
    ⟨"apache-httpd".toList, "Apache HTTP Server".toList, "Apache".toList⟩,
    ⟨"lighttpd".toList, "lighttpd".toList, "lighttpd".toList⟩,
    ⟨"openssl".toList, "OpenSSL".toList, "OpenSSL".toList⟩,
    ⟨"wordpress".toList, "WordPress".toList, "WordPress".toList⟩,
    ⟨"drupal".toList, "Drupal".toList, "Drupal".toList⟩]

/-- `_letters`. -/
def lettersOf (key : Text) : Bool :=
  (followed.find? (·.key = key)).any fun product =>
    .letters ∈ SoftwareAdvisories.traits product.token

/-- `_release`: a version as major, minor and patch. -/
def release (version : Option Version) : Option Version :=
  version.bind fun numbers =>
    if numbers.length < 2 ∨ 3 < numbers.length then none
    else some (numbers ++ List.replicate (3 - numbers.length) 0)

/-- The first release of the next branch. -/
def upper (release : Version) : Version := [release.getD 0 0, release.getD 1 0 + 1, 0]

/-- `_reaches`: a range takes in the release or anything later in its branch. -/
def reaches (range : VersionRange) (release : Version) : Bool :=
  if given range.exact then
    range.exactV.any fun exact => 0 ≤ cmp exact release ∧ cmp exact (upper release) < 0
  else
    (match range.stopV with
      | none => true
      | some stop => ¬(cmp stop release < 0 ∨ (cmp stop release = 0 ∧ range.stopIncl = false))) &&
      match range.startV with
      | none => true
      | some start => cmp start (upper release) < 0

def endOf (range : VersionRange) : Option Version :=
  if given range.stop ∧ range.stopIncl = false ∧ ¬ given range.exact then release range.stopV else none

/-- Keep the end of a range where it is the last of its branch so far. -/
def noteEnd (found : List (Version × Version)) (range : VersionRange) : List (Version × Version) :=
  match endOf range with
  | none => found
  | some last =>
      match found.lookup (last.take 2) with
      | none => found ++ [(last.take 2, last)]
      | some known =>
          if known < last then
            found.map fun entry => if entry.1 = last.take 2 then (last.take 2, last) else entry
          else found

/-- The last end in each branch, by branch. -/
def candidates (ranges : List VersionRange) : List (Version × Version) := ranges.foldl noteEnd []

/-- The unconditional ranges of some CVEs that a version can be compared with. -/
def compared (entries : List Entry) : List VersionRange :=
  (entries.flatMap Entry.ranges).filter fun range => range.usable && !range.conditional

/-- The releases to start from, the newest branch first. -/
def cleanFrom (branches : Nat) (entries : List Entry) : List Version :=
  let ranges := compared entries
  let newestFirst := (candidates ranges).mergeSort fun left right => decide (¬ left.1 < right.1)
  ((newestFirst.map Prod.snd).filter fun last => !ranges.any fun range => reaches range last).take branches

/-- `_fmt` of a release. -/
def fmt (release : Version) : Text := ['.'].intercalate (release.map strOf)

/-- The newest CVE: the last by its date, then by its id. -/
def newest (entries : List Entry) : Option Entry :=
  entries.foldl (fun best entry =>
    match best with
    | none => some entry
    | some known =>
        let published (entry : Entry) := entry.item.published.getD []
        if published known < published entry ∨
            (published known = published entry ∧ known.item.cveId < entry.item.cveId)
          then some entry else some known) none

/-- The newest CVE as it is shown. -/
structure Newest where
  cve : Text
  published : Text
  score : Option Rat
  kev : Bool

structure OverviewRow where
  key : Text
  product : Text
  cves : Nat
  exploited : Nat
  notVersioned : Nat
  cleanFrom : List Text
  newest : Option Newest

def overviewRow (branches : Nat) (store : Store) (product : Followed) : OverviewRow :=
  let entries := entriesOf (lettersOf product.key) store product.key
  { key := product.key
    product := product.product
    cves := entries.length
    exploited := (entries.filter Entry.kev).length
    notVersioned := (entries.filter fun entry => ¬ entry.ranges.any VersionRange.usable).length
    cleanFrom := (cleanFrom branches entries).map fmt
    newest := (newest entries).map fun entry =>
      { cve := entry.item.cveId
        published := (entry.item.published.getD []).take 10
        score := entry.item.score
        kev := entry.kev } }

/-- `_overview`. -/
def overview (branches : Nat) (store : Store) : List OverviewRow :=
  followed.map (overviewRow branches store)

/-! ## Ends of branches -/

theorem length_of_release {version : Option Version} {last : Version}
    (isRelease : release version = some last) : last.length = 3 := by
  obtain ⟨numbers, -, isLast⟩ := Option.bind_eq_some_iff.mp isRelease
  split at isLast
  · cases isLast
  · obtain rfl := Option.some.inj isLast
    simp only [List.length_append, List.length_replicate]
    omega

theorem length_of_endOf {range : VersionRange} {last : Version} (isEnd : endOf range = some last) :
    last.length = 3 := by
  unfold endOf at isEnd
  split at isEnd
  · exact length_of_release isEnd
  · cases isEnd

private theorem length_of_mem_noteEnd {found : List (Version × Version)} {range : VersionRange}
    (areReleases : ∀ entry ∈ found, entry.2.length = 3) :
    ∀ entry ∈ noteEnd found range, entry.2.length = 3 := by
  unfold noteEnd
  split
  · exact areReleases
  · rename_i last isEnd
    have width := length_of_endOf isEnd
    split
    · intro entry member
      rcases List.mem_append.mp member with old | new
      · exact areReleases entry old
      · obtain rfl := List.mem_singleton.mp new
        exact width
    · split
      · intro entry member
        obtain ⟨old, isOld, rfl⟩ := List.mem_map.mp member
        split
        · exact width
        · exact areReleases old isOld
      · exact areReleases

theorem length_of_mem_candidates {ranges : List VersionRange} :
    ∀ entry ∈ candidates ranges, entry.2.length = 3 := by
  unfold candidates
  suffices kept : ∀ found : List (Version × Version), (∀ entry ∈ found, entry.2.length = 3) →
      ∀ entry ∈ ranges.foldl noteEnd found, entry.2.length = 3 from kept [] (by simp)
  induction ranges with
  | nil => exact fun found areReleases => areReleases
  | cons range ranges induction =>
      exact fun found areReleases => induction _ (length_of_mem_noteEnd areReleases)

theorem of_mem_cleanFrom {branches : Nat} {entries : List Entry} {first : Version}
    (member : first ∈ cleanFrom branches entries) :
    first.length = 3 ∧ ∀ range ∈ compared entries, reaches range first = false := by
  obtain ⟨isCandidate, unreached⟩ := List.mem_filter.mp (List.mem_of_mem_take member)
  obtain ⟨entry, isEntry, rfl⟩ := List.mem_map.mp isCandidate
  refine ⟨length_of_mem_candidates entry (List.mem_mergeSort.mp isEntry), fun range isRange => ?_⟩
  have all := List.any_eq_false.mp (Bool.not_eq_true' _ |>.mp unreached) range isRange
  simpa using all

/-! ## Versions of a branch -/

theorem place_lt_upper {version first : Version} (isRelease : first.length = 3)
    (branch : version.take 2 = first.take 2) : place version < place (upper first) := by
  obtain ⟨major, minor, patch, rfl⟩ := List.length_eq_three.mp isRelease
  obtain ⟨rest, rfl⟩ : ∃ rest, version = major :: minor :: rest :=
    ⟨version.drop 2, by rw [← List.take_append_drop 2 version, branch]; rfl⟩
  refine Padded.endless_lt_iff.mpr ⟨1, fun earlier before => ?_, Nat.lt_succ_self minor⟩
  obtain rfl := Nat.lt_one_iff.mp before
  rfl

/-- A range that takes in a later version of the branch reaches the release. -/
theorem reaches_of_contains {range : VersionRange} {version first : Version}
    (isRelease : first.length = 3) (branch : version.take 2 = first.take 2)
    (later : place first ≤ place version)
    (contains : range.contains version = true) : reaches range first = true := by
  have below := place_lt_upper isRelease branch
  unfold reaches
  unfold VersionRange.contains at contains
  split
  · rename_i exactly
    rw [if_pos exactly] at contains
    obtain ⟨exact, isExact, same⟩ := Option.any_eq_true _ _ |>.mp contains
    have same := cmp_eq_zero_iff.mp (of_decide_eq_true same)
    rw [isExact, Option.any_some, decide_eq_true_iff, cmp_nonneg_iff, cmp_neg_iff, ← same]
    exact ⟨later, below⟩
  · rename_i bounded
    rw [if_neg bounded, Bool.and_eq_true, Bool.or_eq_true, Bool.or_eq_true] at contains
    obtain ⟨begun, unfinished⟩ := contains
    rw [Bool.and_eq_true]
    constructor
    · cases isStop : range.stopV with
      | none => rfl
      | some stop =>
          have isGiven : given range.stop = true := by
            by_contra missing
            rw [range.unended (Bool.eq_false_of_not_eq_true missing)] at isStop
            cases isStop
          simp only [isGiven, Bool.not_true, Bool.false_eq_true, false_or, VersionRange.beforeStop,
            isStop, not_or, decide_eq_true_iff] at unfinished ⊢
          obtain ⟨notPast, notAt⟩ := unfinished
          have within := not_lt.mp (cmp_pos_iff.not.mp notPast)
          refine ⟨fun before => ?_, fun ⟨same, excluded⟩ => notAt ⟨?_, excluded⟩⟩
          · exact (cmp_neg_iff.mp before).not_ge (later.trans within)
          · have same := cmp_eq_zero_iff.mp same
            exact cmp_eq_zero_iff.mpr (le_antisymm within (same ▸ later))
    · cases isStart : range.startV with
      | none => rfl
      | some start =>
          have isGiven : given range.start = true := by
            by_contra missing
            rw [range.unbegun (Bool.eq_false_of_not_eq_true missing)] at isStart
            cases isStart
          simp only [isGiven, Bool.not_true, Bool.false_eq_true, false_or, VersionRange.afterStart,
            isStart, not_or, decide_eq_true_iff] at begun ⊢
          have within := not_lt.mp (cmp_neg_iff.not.mp begun.1)
          exact cmp_neg_iff.mpr (within.trans_lt below)

theorem not_contains_of_cleanFrom {branches : Nat} {entries : List Entry} {first version : Version}
    (listed : first ∈ cleanFrom branches entries) (branch : version.take 2 = first.take 2)
    (later : place first ≤ place version) :
    ∀ range ∈ compared entries, range.contains version = false := by
  obtain ⟨isRelease, unreached⟩ := of_mem_cleanFrom listed
  intro range member
  by_contra contains
  rw [Bool.not_eq_false] at contains
  have reached := reaches_of_contains isRelease branch later contains
  rw [unreached range member] at reached
  cases reached

/-! ## The text of a release -/

private theorem point_not_mem_strOf (value : Nat) : '.' ∉ strOf value := by
  intro member
  have notDigit : isDecimal '.' = false := by decide +kernel
  rw [isDecimal_of_mem_strOf member] at notDigit
  cases notDigit

theorem numeric_fmt {release : Version} (nonempty : release ≠ []) :
    numeric (fmt release) = some release := by
  have parts : (fmt release).splitOn '.' = release.map strOf := by
    refine List.splitOn_intercalate '.' (fun part member => ?_) (by simpa using nonempty)
    obtain ⟨value, -, rfl⟩ := List.mem_map.mp member
    exact point_not_mem_strOf value
  have digits : ∀ part ∈ release.map strOf, part ≠ [] ∧ part.all isDecimal = true := by
    intro part member
    obtain ⟨value, -, rfl⟩ := List.mem_map.mp member
    exact ⟨strOf_ne_nil value, List.all_eq_true.mpr fun char => isDecimal_of_mem_strOf⟩
  simp only [numeric, parts]
  rw [if_pos (List.all_eq_true.mpr fun part member => decide_eq_true (digits part member)),
    List.map_map]
  simp [Function.comp_def]

theorem solid_fmt (release : Version) : ∀ char ∈ fmt release, isSpace char = false := by
  induction release with
  | nil => simp [fmt]
  | cons number numbers induction =>
      intro char member
      cases numbers with
      | nil =>
          rw [fmt, List.map_singleton, List.intercalate_singleton] at member
          exact isSpace_of_mem_strOf member
      | cons next numbers =>
          rw [fmt, List.map_cons, List.map_cons, List.intercalate_cons_cons, List.mem_append,
            List.mem_append] at member
          rcases member with (isNumber | isPoint) | later
          · exact isSpace_of_mem_strOf isNumber
          · obtain rfl := List.mem_singleton.mp isPoint
            decide
          · exact induction char later

theorem version_fmt (letters : Bool) {release : Version} (nonempty : release ≠ []) :
    version letters (some (fmt release)) = some release := by
  have stripped : strip (fmt release) = fmt release :=
    strip_of_isStripped (isStripped_of_solid (solid_fmt release))
  simp only [version, Option.getD_some, stripped, numeric_fmt nonempty]

/-! ## The assessment -/

/-- A version without its patch release that is surely inside a range is inside as it is read. -/
theorem contains_of_hits {range : VersionRange} {shown : Shown} (yes : hits range shown = .yes) :
    range.contains shown.version = true := by
  unfold hits at yes
  split at yes
  · split at yes
    · assumption
    · cases yes
  · rename_i unknown
    obtain ⟨major, minor, patch, letter, numbers, bare⟩ := shown.numbers
    obtain ⟨rfl, rfl⟩ := bare (Bool.eq_false_of_not_eq_true unknown)
    dsimp only at yes
    split at yes
    · rename_i around
      simp only [Bool.and_eq_true] at around
      rw [numbers] at around ⊢
      exact around.1.1
    · split at yes <;> cases yes

theorem applicable_eq_nil {shown : Shown} {entries : List Entry}
    (outside : ∀ range ∈ compared entries, range.contains shown.version = false) :
    (split shown entries).applicable = [] := by
  have none : ∀ entry ∈ entries, Hit.yes ∉ entry.usable.map (verdict shown) := by
    intro entry isEntry listed
    obtain ⟨range, isUsable, yes⟩ := List.mem_map.mp listed
    obtain ⟨isRange, usable⟩ := List.mem_filter.mp isUsable
    unfold verdict at yes
    split at yes
    · cases yes
    · rename_i unconditional
      have member : range ∈ compared entries := by
        refine List.mem_filter.mpr ⟨List.mem_flatMap.mpr ⟨entry, isEntry, isRange⟩, ?_⟩
        rw [usable, Bool.true_and, Bool.not_eq_true']
        by_contra conditional
        rw [Bool.not_eq_false] at conditional
        exact unconditional (by rw [conditional, yes]; rfl)
      have taken := contains_of_hits yes
      rw [outside range member] at taken
      cases taken
  have applicable : ((entries.filter fun entry => entry.usable ≠ []).filter fun entry =>
      Hit.yes ∈ entry.usable.map (verdict shown)) = [] := by
    rw [List.filter_eq_nil_iff]
    intro entry member
    simpa using none entry (List.mem_of_mem_filter member)
  simp only [split, applicable]
  split <;> exact List.mergeSort_nil

/-- From a release the overview lists on, in its branch, no unconditional range takes a version in,
and the assessment of the version names no CVE as applicable. -/
theorem clean_of_overview (branches : Nat) (store : Store) :
    ∀ row ∈ overview branches store, ∀ text ∈ row.cleanFrom, ∃ first,
      version (lettersOf row.key) (some text) = some first ∧
      ∀ later : Version, later.take 2 = first.take 2 → 0 ≤ cmp later first →
        (∀ entry ∈ entriesOf (lettersOf row.key) store row.key, ∀ range ∈ entry.ranges,
          range.usable = true → range.conditional = false → range.contains later = false) ∧
        ∀ shown : Shown, shown.version = later →
          (split shown (entriesOf (lettersOf row.key) store row.key)).applicable = [] := by
  intro row isRow text isText
  obtain ⟨product, -, rfl⟩ := List.mem_map.mp isRow
  obtain ⟨first, listed, rfl⟩ := List.mem_map.mp isText
  have nonempty : first ≠ [] := by
    rintro rfl
    cases (of_mem_cleanFrom listed).1
  refine ⟨first, version_fmt _ nonempty, fun later branch after => ?_⟩
  have outside := not_contains_of_cleanFrom listed branch (cmp_nonneg_iff.mp after)
  constructor
  · intro entry isEntry range isRange usable unconditional
    refine outside range (List.mem_filter.mpr ⟨List.mem_flatMap.mpr ⟨entry, isEntry, isRange⟩, ?_⟩)
    rw [usable, unconditional]
    rfl
  · rintro shown rfl
    exact applicable_eq_nil outside

/-- A flaw of PHP 8.1 up to its fifth release. -/
def beforePatch : Store where
  ranges :=
    [⟨"CVE-2026-1".toList, "php".toList,
      ⟨none, some "8.1.0".toList, true, some "8.1.5".toList, false, false⟩⟩]
  items := [⟨"CVE-2026-1".toList, none, 0, [], some 9, none, none, []⟩]

def followedPhp : Followed := ⟨"php".toList, "PHP".toList, "PHP".toList⟩

def patchedShown : Shown where
  version := [8, 1, 7]
  patchKnown := true
  vendor := false
  numbers := ⟨8, 1, 7, [], rfl, by simp⟩

theorem patchedShown_clean :
    "8.1.5".toList ∈ (overviewRow 4 beforePatch followedPhp).cleanFrom ∧
      (split patchedShown (entriesOf (lettersOf followedPhp.key) beforePatch followedPhp.key)).applicable = [] := by
  have facts : candidates (compared (entriesOf (lettersOf followedPhp.key) beforePatch followedPhp.key)) =
        [([8, 1], [8, 1, 5])] ∧
      ((compared (entriesOf (lettersOf followedPhp.key) beforePatch followedPhp.key)).any fun range =>
        reaches range [8, 1, 5]) = false ∧
      fmt [8, 1, 5] = "8.1.5".toList ∧
      version (lettersOf followedPhp.key) (some "8.1.5".toList) = some [8, 1, 5] := by
    decide +kernel
  obtain ⟨found, unreached, written, reads⟩ := facts
  have listed : "8.1.5".toList ∈ (overviewRow 4 beforePatch followedPhp).cleanFrom := by
    simp [overviewRow, cleanFrom, found, unreached, written]
  obtain ⟨first, isFirst, clean⟩ :=
    clean_of_overview 4 beforePatch (overviewRow 4 beforePatch followedPhp) List.mem_cons_self _ listed
  obtain rfl := Option.some.inj (reads.symm.trans isFirst)
  exact ⟨listed, (clean [8, 1, 7] rfl (by decide)).2 patchedShown rfl⟩

end CveFeed
end DomainLens
