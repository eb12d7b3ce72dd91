import DomainLens.CveFeed.Store
import DomainLens.Library.Padded

/-!
# Versions and the ranges that take them in

A version is read from its text as numbers, and compared with another as if the shorter were padded
with zeros.  The file embeds how a stored range is compared with a version that a response shows.
-/

namespace DomainLens
namespace CveFeed

open Python

/-! ## Versions -/

abbrev Version := List Nat

/-- `_NUMERIC`: decimal numbers with points between them. -/
def numeric (text : Text) : Option Version :=
  let parts := text.splitOn '.'
  if parts.all fun part => part ≠ [] ∧ part.all isDecimal then some (parts.map intOf) else none

/-- The number of a patch letter.  The pattern, which ignores case, takes a Kelvin sign, a dotless i
and a long s for letters as well. -/
def letterNumber (char : Char) : Option Nat :=
  match lowerChar char with
  | [small] =>
      if ('a' ≤ small ∧ small ≤ 'z') ∨ small = 'ı' ∨ small = 'ſ' then some (small.toNat - 96) else none
  | _ => none

/-- `_version`: `1.1.1` as its numbers and, where releases have letters, `1.1.1w` with a fourth. -/
def version (letters : Bool) (text : Option Text) : Option Version :=
  let text := strip (text.getD [])
  match numeric text with
  | some numbers => some numbers
  | none =>
      if letters then
        text.getLast?.bind fun last =>
          (letterNumber last).bind fun number =>
            (numeric text.dropLast).map (· ++ [number])
      else none

/-- `_cmp`. -/
def cmp (left right : Version) : Int :=
  let width := max left.length right.length
  let left := Padded.pad 0 width left
  let right := Padded.pad 0 width right
  (if right < left then 1 else 0) - (if left < right then 1 else 0)

/-- Where a version stands among the others. -/
abbrev place (version : Version) : Lex (Nat → Nat) := Padded.endless 0 version

theorem cmp_neg_iff {left right : Version} : cmp left right < 0 ↔ place left < place right := by
  rw [← Padded.pad_lt_pad_iff (le_max_left left.length right.length)
    (le_max_right left.length right.length)]
  simp only [cmp]
  generalize Padded.pad 0 _ left = left
  generalize Padded.pad 0 _ right = right
  by_cases less : left < right
  · simp [less, less.not_gt]
  · by_cases greater : right < left <;> simp [less, greater]

theorem cmp_swap (left right : Version) : cmp right left = -cmp left right := by
  simp only [cmp, max_comm right.length, neg_sub]

theorem cmp_pos_iff {left right : Version} : 0 < cmp left right ↔ place right < place left := by
  rw [← cmp_neg_iff, cmp_swap left right, neg_lt_zero]

theorem cmp_nonneg_iff {left right : Version} : 0 ≤ cmp left right ↔ place right ≤ place left :=
  not_lt.symm.trans ((not_congr cmp_neg_iff).trans not_lt)

theorem cmp_eq_zero_iff {left right : Version} : cmp left right = 0 ↔ place left = place right := by
  rw [le_antisymm_iff, cmp_nonneg_iff, le_antisymm_iff]
  exact and_congr_left' (not_lt.symm.trans ((not_congr cmp_pos_iff).trans not_lt))

/-! ## Ranges -/

/-- The value of a column counts when it is there and not empty. -/
def given (text : Option Text) : Bool := text.getD [] ≠ []

/-- `_Range`: a stored range with its versions read; a bound that is not given has none. -/
structure VersionRange extends Range where
  exactV : Option Version
  startV : Option Version
  stopV : Option Version
  unbegun : given start = false → startV = none
  unended : given stop = false → stopV = none
deriving DecidableEq

def versionRange (letters : Bool) (range : Range) : VersionRange where
  toRange := range
  exactV := if given range.exact then version letters range.exact else none
  startV := if given range.start then version letters range.start else none
  stopV := if given range.stop then version letters range.stop else none
  unbegun missing := by rw [missing]; rfl
  unended missing := by rw [missing]; rfl

namespace VersionRange

/-- A range a version can be compared with: numbers only, and some bound. -/
def usable (range : VersionRange) : Bool :=
  if given range.exact then range.exactV.isSome
  else if !given range.start && !given range.stop then false
  else (!given range.start || range.startV.isSome) && (!given range.stop || range.stopV.isSome)

/-- The version is not before the start. -/
def afterStart (range : VersionRange) (version : Version) : Bool :=
  match range.startV with
  | none => true
  | some start => ¬(cmp version start < 0 ∨ (cmp version start = 0 ∧ range.startIncl = false))

def beforeStop (range : VersionRange) (version : Version) : Bool :=
  match range.stopV with
  | none => true
  | some stop => ¬(0 < cmp version stop ∨ (cmp version stop = 0 ∧ range.stopIncl = false))

/-- `contains`, of a usable range. -/
def contains (range : VersionRange) (version : Version) : Bool :=
  if given range.exact then range.exactV.any fun exact => cmp version exact = 0
  else
    (!given range.start || range.afterStart version) && (!given range.stop || range.beforeStop version)

/-- `bounds_in`. -/
def boundsIn (range : VersionRange) (branch : Version) : List Version :=
  [range.exactV, range.startV, range.stopV].filterMap fun bound =>
    bound.filter fun version => version ≠ [] ∧ version.take 2 = branch

end VersionRange

/-! ## A version that is shown -/

/-- The version a response shows, as `parse_version` reads it.  A version without its patch release
has a zero for it. -/
structure Shown where
  version : Version
  patchKnown : Bool
  vendor : Bool
  numbers : ∃ major minor patch letter, version = major :: minor :: patch :: letter ∧
    (patchKnown = false → patch = 0 ∧ letter = [])

inductive Hit where
  | yes
  | maybe
  | no
deriving DecidableEq

/-- `_PATCH_UNKNOWN_HIGH`. -/
def patchUnknownHigh : Nat := 999999

/-- `_hits`. -/
def hits (range : VersionRange) (shown : Shown) : Hit :=
  if shown.patchKnown then if range.contains shown.version then .yes else .no
  else
    let branch := shown.version.take 2
    let low := branch ++ [0]
    let high := branch ++ [patchUnknownHigh]
    if range.contains low && range.contains high && !given range.exact then .yes
    else
      let near := (range.boundsIn branch).flatMap fun bound =>
        let patch := bound.getD 2 0
        [branch ++ [patch], branch ++ [patch - 1], branch ++ [patch + 1]]
      if (low :: high :: near).any range.contains then .maybe else .no

/-! ## The CVEs of a product -/

/-- A stored CVE with its ranges of one product. -/
structure Entry where
  item : Item
  ranges : List VersionRange

/-- A CVE that CISA lists as exploited. -/
def Entry.kev (entry : Entry) : Bool := given entry.item.kevAdded

/-- `_ranges`: the stored CVEs that have ranges of a product. -/
def entriesOf (letters : Bool) (store : Store) (product : Text) : List Entry :=
  let ids := (store.ranges.filter (·.product = product)).map RangeRow.cveId
  (fromKeys ids).filterMap fun cveId =>
    (store.items.find? (·.cveId = cveId)).map fun item =>
      ⟨item, (store.rangesOf product cveId).map (versionRange letters)⟩

/-- The order of `_rank`: the exploited first, then by score, then by id. -/
def rankLe (left right : Entry) : Bool :=
  if left.kev ≠ right.kev then left.kev
  else
    let leftScore := left.item.score.getD 0
    let rightScore := right.item.score.getD 0
    if leftScore ≠ rightScore then rightScore < leftScore
    else ¬ right.item.cveId < left.item.cveId

/-- What `_split` returns. -/
structure Split where
  applicable : List Entry
  uncertain : List Entry
  notVersioned : Nat

/-- A hit of a range that applies only together with something else is uncertain. -/
def verdict (shown : Shown) (range : VersionRange) : Hit :=
  if range.conditional && hits range shown = .yes then .maybe else hits range shown

def Entry.usable (entry : Entry) : List VersionRange := entry.ranges.filter VersionRange.usable

/-- `_split` of the CVEs of a product. -/
def split (shown : Shown) (entries : List Entry) : Split :=
  let verdicts (entry : Entry) := entry.usable.map (verdict shown)
  let versioned := entries.filter fun entry => entry.usable ≠ []
  let applicable := versioned.filter fun entry => .yes ∈ verdicts entry
  let uncertain := versioned.filter fun entry => .yes ∉ verdicts entry ∧ .maybe ∈ verdicts entry
  let built := shown.vendor && applicable ≠ []
  { applicable := (if built then [] else applicable).mergeSort rankLe
    uncertain := (if built then applicable ++ uncertain else uncertain).mergeSort rankLe
    notVersioned := (entries.filter fun entry => entry.usable = []).length }

end CveFeed
end DomainLens
