import DomainLens.Library.Double
import DomainLens.Library.EditDistance
import DomainLens.Python.CaseMapping

/-!
# How close two names are

A dossier says how many characters two labels differ by.  The rows of the table of the distances of their
fronts are kept one at a time, and its last entry is the edit distance.
-/

namespace DomainLens
namespace Evidence

open Python EditDistance

/-! ## The table -/

abbrev Row := List ℕ

/-- `current[j]`, from the row above and the row so far. -/
def cell (previous current : Row) (ca cb : Char) (j : ℕ) : ℕ :=
  min (min (previous.getD j 0 + 1) (current.getD (j - 1) 0 + 1))
    (previous.getD (j - 1) 0 + if ca = cb then 0 else 1)

/-- The row of the character at `i`. -/
def rowOf (b : Text) (previous : Row) (ca : Char) (i : ℕ) : Row :=
  (b.zipIdx 1).foldl (fun current entry => current ++ [cell previous current ca entry.1 entry.2]) [i]

/-- `_levenshtein`. -/
def levenshtein (a b : Text) : ℕ :=
  if a = b then 0
  else if a = [] then b.length
  else if b = [] then a.length
  else
    ((a.zipIdx 1).foldl (fun previous entry => rowOf b previous entry.1 entry.2)
      (List.range (b.length + 1))).getLastD 0

/-! ## The score -/

/-- How close a name is to a protected one. -/
structure Score where
  candidate : Text
  protected_ : Text
  sameLabel : Bool
  sameTld : Bool
  editDistance : ℕ
  similarity : ℚ
  containsProtected : Bool
  tldSwapOnly : Bool
deriving DecidableEq

/-- A name without white space around it, in small letters, without dots at its end. -/
def normalised (name : Option Text) : Text := (lower (strip (name.getD []))).rdropWhile (· = '.')

/-- The first label of a name and the rest. -/
def splitName (name : Text) : Text × Text :=
  match name.splitOn '.' with
  | label :: next :: rest => (label, ['.'].intercalate (next :: rest))
  | _ => (name, [])

/-- The longer length, and one for two labels that are empty. -/
def longest (label other : Text) : ℕ :=
  if max label.length other.length = 0 then 1 else max label.length other.length

def similarityOf (label other : Text) : ℚ :=
  Double.roundTo 3 (Double.nearest (1 - Double.nearest (levenshtein label other / longest label other)))

/-- `confusable_score`. -/
def confusableScore (candidate protected_ : Option Text) : Option Score :=
  if normalised candidate = [] ∨ normalised protected_ = [] then none
  else
    let cand := splitName (normalised candidate)
    let prot := splitName (normalised protected_)
    some
      { candidate := normalised candidate
        protected_ := normalised protected_
        sameLabel := cand.1 = prot.1
        sameTld := cand.2 = prot.2
        editDistance := levenshtein cand.1 prot.1
        similarity := similarityOf cand.1 prot.1
        containsProtected := prot.1 <:+: cand.1 ∧ cand.1 ≠ prot.1
        tldSwapOnly := cand.1 = prot.1 ∧ cand.2 ≠ prot.2 }

/-! ## The rows are distances -/

/-- The entries of a row are the distances of a front of one label from the fronts of the other. -/
structure Measures (front b : Text) (width : ℕ) (row : Row) : Prop where
  length_eq : row.length = width + 1
  isDistance : ∀ j ≤ width, IsDistance (row.getD j 0) front.reverse (b.take j).reverse

variable {front b : Text} {previous : Row} {ca : Char}

theorem measures_range (b : Text) : Measures [] b b.length (List.range (b.length + 1)) where
  length_eq := List.length_range
  isDistance j most := by
    have nothing := IsDistance.nil_left (b.take j).reverse
    rw [List.length_reverse, List.length_take, Nat.min_eq_left most] at nothing
    rwa [List.getD_eq_getElem _ _ (by simpa [Nat.lt_succ_iff] using most), List.getElem_range]

private theorem measures_snoc {done rest : Text} {cb : Char} {current : Row}
    (above : Measures front (done ++ cb :: rest) (done ++ cb :: rest).length previous)
    (sofar : Measures (front ++ [ca]) (done ++ cb :: rest) done.length current) :
    Measures (front ++ [ca]) (done ++ cb :: rest) (done.length + 1)
      (current ++ [cell previous current ca cb (done.length + 1)]) := by
  have inside : done.length + 1 ≤ (done ++ cb :: rest).length := by simp
  have fronts : (done ++ cb :: rest).take done.length = done ∧
      (done ++ cb :: rest).take (done.length + 1) = done ++ [cb] := by
    constructor <;> simp [List.take_append]
  refine ⟨by simp [sofar.length_eq], fun j most => ?_⟩
  rcases Nat.lt_or_ge done.length j with last | former
  · obtain rfl : j = done.length + 1 := by omega
    have up := above.isDistance (done.length + 1) inside
    have across := above.isDistance done.length (by omega)
    have aside := sofar.isDistance done.length le_rfl
    rw [fronts.1] at across aside
    rw [fronts.2] at up
    rw [List.getD_append_right _ _ _ _ (by rw [sofar.length_eq]), sofar.length_eq, Nat.sub_self,
      List.getD_cons_zero, fronts.2, List.reverse_append, List.reverse_append]
    rw [List.reverse_append] at up aside
    rw [cell, Nat.add_sub_cancel]
    exact up.cons aside across
  · rw [List.getD_append _ _ _ _ (by rw [sofar.length_eq]; omega)]
    exact sofar.isDistance j former

theorem measures_rowOf (above : Measures front b b.length previous) :
    Measures (front ++ [ca]) b b.length (rowOf b previous ca (front.length + 1)) := by
  have onward : ∀ (rest done : Text) (current : Row), b = done ++ rest →
      Measures (front ++ [ca]) b done.length current →
      Measures (front ++ [ca]) b b.length ((rest.zipIdx (done.length + 1)).foldl
        (fun current entry => current ++ [cell previous current ca entry.1 entry.2]) current) := by
    intro rest
    induction rest with
    | nil =>
        intro done current whole sofar
        rw [List.append_nil] at whole
        rwa [whole] at sofar ⊢
    | cons cb rest induction =>
        intro done current whole sofar
        subst whole
        have next := measures_snoc above sofar
        rw [List.zipIdx_cons, List.foldl_cons]
        have longer : (done ++ [cb]).length = done.length + 1 := List.length_append
        have later := induction (done ++ [cb]) _ (by simp) (longer.symm ▸ next)
        rw [longer] at later
        exact later
  refine onward b [] [front.length + 1] rfl ⟨rfl, fun j most => ?_⟩
  obtain rfl : j = 0 := Nat.le_zero.mp most
  have nothing := IsDistance.nil_right (front ++ [ca]).reverse
  rw [List.length_reverse, List.length_append, List.length_singleton] at nothing
  exact nothing

theorem measures_rows (a b : Text) : Measures a b b.length ((a.zipIdx 1).foldl
    (fun previous entry => rowOf b previous entry.1 entry.2) (List.range (b.length + 1))) := by
  have onward : ∀ (rest done : Text) (previous : Row), Measures done b b.length previous →
      Measures (done ++ rest) b b.length ((rest.zipIdx (done.length + 1)).foldl
        (fun previous entry => rowOf b previous entry.1 entry.2) previous) := by
    intro rest
    induction rest with
    | nil =>
        intro done previous above
        rwa [List.append_nil]
    | cons ca rest induction =>
        intro done previous above
        rw [List.zipIdx_cons, List.foldl_cons]
        have longer : (done ++ [ca]).length = done.length + 1 := List.length_append
        have later := induction (done ++ [ca]) _ (measures_rowOf above)
        rw [longer, List.append_assoc, List.singleton_append] at later
        exact later
  exact onward a [] _ (measures_range b)

/-- The last entry is the distance, and so is what is returned without the table. -/
theorem isDistance_levenshtein (a b : Text) : IsDistance (levenshtein a b) a b := by
  rw [levenshtein]
  split_ifs with same noLeft noRight
  · exact ⟨Turns.zero_iff.mpr same, fun _ _ => Nat.zero_le _⟩
  · rw [noLeft]
    exact .nil_left b
  · rw [noRight]
    exact .nil_right a
  · have measures := measures_rows a b
    have last := measures.isDistance b.length le_rfl
    rw [List.take_length, List.getD_eq_getElem?_getD] at last
    rw [List.getLastD_eq_getLast?, List.getLast?_eq_getElem?, measures.length_eq, Nat.add_sub_cancel]
    exact last.reverse

theorem similarityOf_bounds (label other : Text) :
    0 ≤ similarityOf label other ∧ similarityOf label other ≤ 1 := by
  have most : levenshtein label other ≤ longest label other := by
    refine (isDistance_levenshtein label other).le_max.trans ?_
    rw [longest]
    split_ifs <;> omega
  have positive : 0 < longest label other := by
    rw [longest]
    split_ifs <;> omega
  have ratio : (0 : ℚ) ≤ levenshtein label other / longest label other := by positivity
  have below : (levenshtein label other / longest label other : ℚ) ≤ 1 := by
    rw [div_le_one (by exact_mod_cast positive)]
    exact_mod_cast most
  have rounded := Double.nearest_nonneg ratio
  have roundedBelow := Double.nearest_le_one ratio below
  have difference : 0 ≤ 1 - Double.nearest (levenshtein label other / longest label other) := by linarith
  have differenceBelow : 1 - Double.nearest (levenshtein label other / longest label other) ≤ 1 := by
    linarith
  exact ⟨Double.roundTo_nonneg 3 (Double.nearest_nonneg difference),
    Double.roundTo_le_one 3 (Double.nearest_nonneg difference)
      (Double.nearest_le_one difference differenceBelow)⟩

/-- The distance of two labels is the least number of changes, which makes it a metric that is no more than
the longer length, and the similarity is between zero and one. -/
theorem levenshtein_least (a b : Text) :
    IsLeast {count | Turns count a b} (levenshtein a b) ∧
      levenshtein a b = levenshtein b a ∧
      (levenshtein a b = 0 ↔ a = b) ∧
      (∀ c, levenshtein a c ≤ levenshtein a b + levenshtein b c) ∧
      levenshtein a b ≤ max a.length b.length ∧
      ∀ candidate protected_, ∀ score ∈ confusableScore candidate protected_,
        0 ≤ score.similarity ∧ score.similarity ≤ 1 := by
  have isDistance := isDistance_levenshtein a b
  refine ⟨isDistance, isDistance.unique (isDistance_levenshtein b a).symm, isDistance.zero_iff,
    fun c => isDistance.triangle (isDistance_levenshtein b c) (isDistance_levenshtein a c),
    isDistance.le_max, ?_⟩
  intro candidate protected_ score isScore
  rw [confusableScore] at isScore
  split_ifs at isScore
  · cases isScore
  · obtain rfl := Option.some.inj isScore
    exact similarityOf_bounds _ _

example : levenshtein "paypa1".toList "paypal".toList = 1 := by decide

end Evidence
end DomainLens
