import Mathlib

/-!
# Forests given by parents

Every node has at most one parent.  A rank that falls from a node to its parent excludes cycles, and
it survives removing edges and moving nodes under one that is below none of them.
-/

namespace DomainLens
namespace Forest

open Relation

variable {Node : Type*}

/-- One node is the other, or lies below it. -/
def Below (parent : Node → Option Node) : Node → Node → Prop :=
  ReflTransGen fun child up => parent child = some up

def Acyclic (parent : Node → Option Node) : Prop :=
  ∀ node, ¬ TransGen (fun child up => parent child = some up) node node

/-- Some rank falls from every node to its parent. -/
def Ranked (parent : Node → Option Node) : Prop :=
  ∃ rank : Node → Nat, ∀ child up, parent child = some up → rank up < rank child

variable {parent parent' : Node → Option Node}

namespace Below

@[refl] theorem refl (node : Node) : Below parent node node := ReflTransGen.refl

theorem step {child up : Node} (edge : parent child = some up) : Below parent child up :=
  ReflTransGen.single edge

theorem trans {low middle high : Node} (first : Below parent low middle)
    (second : Below parent middle high) : Below parent low high :=
  ReflTransGen.trans first second

theorem head {low high : Node} (below : Below parent low high) :
    low = high ∨ ∃ up, parent low = some up ∧ Below parent up high := by
  rcases ReflTransGen.cases_head below with same | ⟨up, edge, rest⟩
  · exact .inl same
  · exact .inr ⟨up, edge, rest⟩

theorem tail {low high : Node} (below : Below parent low high) :
    low = high ∨ ∃ child, Below parent low child ∧ parent child = some high := by
  rcases ReflTransGen.cases_tail below with same | ⟨child, rest, edge⟩
  · exact .inl same.symm
  · exact .inr ⟨child, rest, edge⟩

/-- What every node hands on to its parent is handed on to everything above. -/
theorem closed (held : Node → Prop)
    (upward : ∀ child up, held child → parent child = some up → held up) {low high : Node}
    (below : Below parent low high) (start : held low) : held high := by
  induction below with
  | refl => exact start
  | tail _ edge induction => exact upward _ _ induction edge

theorem total {low left right : Node} (first : Below parent low left)
    (second : Below parent low right) : Below parent left right ∨ Below parent right left :=
  ReflTransGen.total_of_right_unique
    (fun _ _ _ one other => Option.some.inj (one.symm.trans other)) first second

end Below

namespace Ranked

theorem not_below (ranked : Ranked parent) {child up : Node} (edge : parent child = some up) :
    ¬ Below parent up child := by
  obtain ⟨rank, falls⟩ := ranked
  intro below
  have climbs : rank child ≤ rank up := Below.closed (fun node => rank node ≤ rank up)
    (fun low high held edge => Nat.le_trans (Nat.le_of_lt (falls low high edge)) held) below
    (Nat.le_refl _)
  have := falls child up edge
  omega

theorem acyclic (ranked : Ranked parent) : Acyclic parent := by
  intro node cycle
  obtain ⟨up, edge, rest⟩ := TransGen.head'_iff.mp cycle
  exact ranked.not_below edge rest

theorem mono (ranked : Ranked parent)
    (fewer : ∀ child up, parent' child = some up → parent child = some up) : Ranked parent' := by
  obtain ⟨rank, falls⟩ := ranked
  exact ⟨rank, fun child up edge => falls child up (fewer child up edge)⟩

open Classical in
theorem move (ranked : Ranked parent) (moved : Node → Prop) (new : Node)
    (edges : ∀ child up, parent' child = some up →
      parent child = some up ∨ moved child ∧ up = new)
    (apart : ∀ node, moved node → ¬ Below parent new node) : Ranked parent' := by
  obtain ⟨rank, falls⟩ := ranked
  let carried (node : Node) : Prop := ∃ top, moved top ∧ Below parent node top
  refine ⟨fun node => if carried node then rank node + rank new + 1 else rank node, ?_⟩
  intro child up edge
  dsimp only
  rcases edges child up edge with old | ⟨isMoved, rfl⟩
  · have lower := falls child up old
    by_cases rides : carried child
    · rw [if_pos rides]
      split <;> omega
    · have stays : ¬ carried up := by
        rintro ⟨top, isMoved, below⟩
        exact rides ⟨top, isMoved, (Below.step old).trans below⟩
      rw [if_neg rides, if_neg stays]
      exact lower
  · have rides : carried child := ⟨child, isMoved, Below.refl child⟩
    have stays : ¬ carried up := fun ⟨top, isTop, below⟩ => apart top isTop below
    rw [if_pos rides, if_neg stays]
    omega

end Ranked

end Forest
end DomainLens
