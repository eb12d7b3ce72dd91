import Mathlib

/-!
# Figures rolled up

Every item is added at some nodes.  What a node ends with is the sum over the items that are added at
it, and nodes that take each item once together have the sum over all items.
-/

namespace DomainLens
namespace Rollup

variable {Item Node Amount : Type*}

/-! ## Sums over some items -/

section Sums

variable [AddCommMonoid Amount]

open Classical in
/-- The sum over the items that are taken. -/
noncomputable def sumOf (share : Item → Amount) (takes : Item → Prop) (items : List Item) : Amount :=
  ((items.filter fun item => takes item).map share).sum

variable {share : Item → Amount} {takes other : Item → Prop}

theorem sumOf_nil : sumOf share takes [] = 0 := rfl

open Classical in
theorem sumOf_cons (item : Item) (items : List Item) : sumOf share takes (item :: items) =
    (if takes item then share item else 0) + sumOf share takes items := by
  by_cases taken : takes item <;> simp [sumOf, taken]

theorem sumOf_congr {items : List Item} (same : ∀ item ∈ items, (takes item ↔ other item)) :
    sumOf share takes items = sumOf share other items := by
  rw [sumOf, sumOf, List.filter_congr fun item member => decide_eq_decide.mpr (same item member)]

theorem sumOf_perm {items others : List Item} (perm : items.Perm others) :
    sumOf share takes items = sumOf share takes others :=
  ((perm.filter _).map share).sum_eq

theorem sum_sumOf {nodes : List Node} (distinct : nodes.Nodup) (at_ : Node → Item → Prop)
    {items : List Item}
    (once : ∀ item ∈ items, ∃ node ∈ nodes, ∀ other ∈ nodes, at_ other item ↔ other = node) :
    (nodes.map fun node => sumOf share (at_ node) items).sum = (items.map share).sum := by
  classical
  induction items with
  | nil => simp [sumOf_nil]
  | cons item items induction =>
      obtain ⟨node, isNode, only⟩ := once item List.mem_cons_self
      have first : (nodes.map fun node => if at_ node item then share item else 0).sum =
          share item := by
        have none (other : Node) (differs : other ≠ node) (isOther : other ∈ nodes) :
            (if at_ other item then share item else 0) = 0 :=
          if_neg (mt (only other isOther).mp differs)
        rw [List.sum_map_eq_nsmul_single node _ none, List.count_eq_one_of_mem distinct isNode,
          one_nsmul, if_pos ((only node isNode).mpr rfl)]
      have rest := induction fun other member => once other (List.mem_cons_of_mem item member)
      simp only [sumOf_cons, List.map_cons, List.sum_cons]
      rw [List.sum_map_add, first, rest]

end Sums

/-! ## Adding one after another -/

variable [DecidableEq Node]

/-- An amount is added at some nodes of a table. -/
def spread (add : Amount → Amount) (nodes : List Node) (table : Node → Amount) : Node → Amount :=
  nodes.foldl (fun table node => Function.update table node (add (table node))) table

def roll (nodes : Item → List Node) (add : Item → Amount → Amount) (items : List Item)
    (table : Node → Amount) : Node → Amount :=
  items.foldl (fun table item => spread (add item) (nodes item) table) table

theorem spread_apply (add : Amount → Amount) {nodes : List Node} (distinct : nodes.Nodup)
    (table : Node → Amount) (node : Node) :
    spread add nodes table node = if node ∈ nodes then add (table node) else table node := by
  induction nodes generalizing table with
  | nil => rfl
  | cons first nodes induction =>
      obtain ⟨new, distinct⟩ := List.nodup_cons.mp distinct
      have step : spread add (first :: nodes) table =
          spread add nodes (Function.update table first (add (table first))) := rfl
      rw [step, induction distinct]
      by_cases same : node = first
      · subst same
        simp [new]
      · simp [same]

/-- A node ends with what it began with and the shares of the items that are added at it. -/
theorem roll_apply [AddCommMonoid Amount] {nodes : Item → List Node}
    {add : Item → Amount → Amount} {share : Item → Amount} {items : List Item}
    (distinct : ∀ item ∈ items, (nodes item).Nodup)
    (adds : ∀ item amount, add item amount = amount + share item) (table : Node → Amount)
    (node : Node) :
    roll nodes add items table node = table node + sumOf share (node ∈ nodes ·) items := by
  induction items generalizing table with
  | nil => simp [roll, sumOf_nil]
  | cons item items induction =>
      have step : roll nodes add (item :: items) table =
          roll nodes add items (spread (add item) (nodes item) table) := rfl
      rw [step, induction fun other member => distinct other (List.mem_cons_of_mem item member),
        spread_apply _ (distinct item List.mem_cons_self), sumOf_cons]
      by_cases here : node ∈ nodes item <;> simp [here, adds, add_assoc]

end Rollup
end DomainLens
