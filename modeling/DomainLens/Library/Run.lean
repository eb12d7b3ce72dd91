import Mathlib

/-!
# Runs of labelled systems

A system is a step function that may refuse a label.  An invariant of single steps holds in every
state a run reaches, and a run whose steps all meet a guard has whatever the guarded steps have.
-/

namespace DomainLens
namespace Run

variable {State Label : Type*}

/-- Take the labels in order, failing at the first one the system refuses. -/
def run (step : State → Label → Option State) : State → List Label → Option State
  | state, [] => some state
  | state, label :: labels => (step state label).bind fun next => run step next labels

/-- Every step the run takes has the property, a relation of the state before, the label and the
state after. -/
def Along (step : State → Label → Option State) (property : State → Label → State → Prop) :
    State → List Label → Prop
  | _, [] => True
  | state, label :: labels =>
      ∀ next, step state label = some next →
        property state label next ∧ Along step property next labels

instance Along.decidable (step : State → Label → Option State)
    (property : State → Label → State → Prop)
    [∀ state label next, Decidable (property state label next)] :
    ∀ state labels, Decidable (Along step property state labels)
  | _, [] => .isTrue trivial
  | state, label :: labels =>
      match taken : step state label with
      | none => .isTrue fun next found => by simp [taken] at found
      | some next =>
          have := Along.decidable step property next labels
          decidable_of_iff (property state label next ∧ Along step property next labels)
            (by simp [Along, taken])

variable {step : State → Label → Option State}

@[simp] theorem run_nil (state : State) : run step state [] = some state := rfl

theorem run_cons_eq_some {state final : State} {label : Label} {labels : List Label} :
    run step state (label :: labels) = some final ↔
      ∃ next, step state label = some next ∧ run step next labels = some final := by
  simp [run, Option.bind_eq_some_iff]

/-! ## Invariants -/

/-- An invariant that every guarded step keeps holds where a guarded run ends. -/
theorem run_guarded {inv : State → Prop} {guard : State → Label → State → Prop}
    (preserve : ∀ state label next, inv state → step state label = some next →
      guard state label next → inv next)
    {state final : State} {labels : List Label} (initial : inv state)
    (guarded : Along step guard state labels) (execution : run step state labels = some final) :
    inv final := by
  induction labels generalizing state with
  | nil => simpa using Option.some.inj execution ▸ initial
  | cons label labels induction =>
      obtain ⟨next, taken, rest⟩ := run_cons_eq_some.mp execution
      obtain ⟨met, later⟩ := guarded next taken
      exact induction (preserve state label next initial taken met) later rest

theorem run_invariant {inv : State → Prop}
    (preserve : ∀ state label next, inv state → step state label = some next → inv next)
    {state final : State} {labels : List Label} (initial : inv state)
    (execution : run step state labels = some final) : inv final := by
  induction labels generalizing state with
  | nil => simpa using Option.some.inj execution ▸ initial
  | cons label labels induction =>
      obtain ⟨next, taken, rest⟩ := run_cons_eq_some.mp execution
      exact induction (preserve state label next initial taken) rest

/-- Where every step can be taken, from what each of them keeps, every run can be. -/
theorem run_isSome {inv : State → Prop}
    (continues : ∀ state label, inv state → ∃ next, step state label = some next ∧ inv next)
    {state : State} {labels : List Label} (initial : inv state) :
    (run step state labels).isSome := by
  induction labels generalizing state with
  | nil => rfl
  | cons label labels induction =>
      obtain ⟨next, taken, kept⟩ := continues state label initial
      rw [run, taken]
      exact induction kept

/-! ## Properties of every step -/

/-- Guarded steps that keep an invariant and have a property give it to every step of a run. -/
theorem along_of_guarded {inv : State → Prop} {guard property : State → Label → State → Prop}
    (preserve : ∀ state label next, inv state → step state label = some next →
      guard state label next → inv next ∧ property state label next)
    {state : State} {labels : List Label} (initial : inv state)
    (guarded : Along step guard state labels) : Along step property state labels := by
  induction labels generalizing state with
  | nil => trivial
  | cons label labels induction =>
      intro next taken
      obtain ⟨met, later⟩ := guarded next taken
      obtain ⟨kept, had⟩ := preserve state label next initial taken met
      exact ⟨had, induction kept later⟩

/-- Steps that keep an invariant and have a property give it to every step of a run. -/
theorem along_of_invariant {inv : State → Prop} {property : State → Label → State → Prop}
    (preserve : ∀ state label next, inv state → step state label = some next →
      inv next ∧ property state label next)
    {state : State} {labels : List Label} (initial : inv state) :
    Along step property state labels := by
  induction labels generalizing state with
  | nil => trivial
  | cons label labels induction =>
      intro next taken
      obtain ⟨kept, had⟩ := preserve state label next initial taken
      exact ⟨had, induction kept⟩

/-- Two properties that agree under an invariant, which either of them keeps, hold along the same
runs. -/
theorem along_iff {inv : State → Prop} {left right : State → Label → State → Prop}
    (agree : ∀ state label next, inv state → step state label = some next →
      (left state label next ↔ right state label next))
    (preserve : ∀ state label next, inv state → step state label = some next →
      left state label next → inv next)
    {state : State} {labels : List Label} (initial : inv state) :
    Along step left state labels ↔ Along step right state labels := by
  constructor
  · exact along_of_guarded
      (fun state label next holds taken met =>
        ⟨preserve state label next holds taken met,
          (agree state label next holds taken).mp met⟩) initial
  · exact along_of_guarded
      (fun state label next holds taken met =>
        have had := (agree state label next holds taken).mpr met
        ⟨preserve state label next holds taken had, had⟩) initial

end Run
end DomainLens
