import DomainLens.Library.Run

/-!
# Since when something holds

What holds where a run ends and did not where it began was brought about by a step, and has held in
every state since.
-/

namespace DomainLens
namespace Run

variable {State Label : Type*} {step : State → Label → Option State} {holds : State → Prop}

private theorem forall_reached {state final : State} {labels : List Label}
    (kept : Along step (fun _ _ next => holds next) state labels)
    (execution : run step state labels = some final) :
    ∀ label ∈ labels, ∃ before after, step before label = some after ∧ holds after := by
  induction labels generalizing state with
  | nil => simp
  | cons label labels induction =>
      obtain ⟨next, taken, rest⟩ := run_cons_eq_some.mp execution
      obtain ⟨here, later⟩ := kept next taken
      intro other member
      rcases List.mem_cons.mp member with rfl | member
      · exact ⟨state, next, taken, here⟩
      · exact induction later rest other member

private theorem exists_since_of_not_kept {state final : State} {labels : List Label}
    (broken : ¬ (holds state ∧ Along step (fun _ _ next => holds next) state labels))
    (held : holds final) (execution : run step state labels = some final) :
    ∃ earlier label later middle next, labels = earlier ++ label :: later ∧
      run step state earlier = some middle ∧ step middle label = some next ∧
      ¬ holds middle ∧ holds next ∧
      ∀ other ∈ later, ∃ before after, step before other = some after ∧ holds after := by
  induction labels generalizing state with
  | nil =>
      obtain rfl := Option.some.inj execution
      exact absurd ⟨held, trivial⟩ broken
  | cons label labels induction =>
      obtain ⟨next, taken, rest⟩ := run_cons_eq_some.mp execution
      by_cases kept : holds next ∧ Along step (fun _ _ next => holds next) next labels
      · -- From here on it holds, so it did not before.
        have absent : ¬ holds state := fun here => broken ⟨here, fun other reached =>
          Option.some.inj (taken.symm.trans reached) ▸ kept⟩
        exact ⟨[], label, labels, state, next, rfl, rfl, taken, absent, kept.1,
          forall_reached kept.2 rest⟩
      · obtain ⟨earlier, last, later, middle, reached, rfl, ran, made⟩ := induction kept rest
        exact ⟨label :: earlier, last, later, middle, reached, rfl,
          run_cons_eq_some.mpr ⟨next, taken, ran⟩, made⟩

/-- The step since which something holds where a run ends, and what it has been through since. -/
theorem exists_since {state final : State} {labels : List Label} (absent : ¬ holds state)
    (held : holds final) (execution : run step state labels = some final) :
    ∃ earlier label later middle next, labels = earlier ++ label :: later ∧
      run step state earlier = some middle ∧ step middle label = some next ∧
      ¬ holds middle ∧ holds next ∧
      ∀ other ∈ later, ∃ before after, step before other = some after ∧ holds after :=
  exists_since_of_not_kept (fun kept => absent kept.1) held execution

end Run
end DomainLens
