import Mathlib

/-!
# Computations with a log

A computation may read the log of everything done before it, and adds to it.  What holds of every
entry it adds, and of what it comes to, follows from its parts.
-/

namespace DomainLens

/-- From the log so far to a result and the entries added. -/
def Logged (Entry Result : Type) := List Entry → Result × List Entry

namespace Logged

variable {Entry Value Result State : Type}

def done (result : Result) : Logged Entry Result := fun _ => (result, [])

def andThen (first : Logged Entry Value) (next : Value → Logged Entry Result) :
    Logged Entry Result := fun log =>
  let (value, added) := first log
  let (result, later) := next value (log ++ added)
  (result, added ++ later)

instance : Monad (Logged Entry) where
  pure := done
  bind := andThen

/-- One pass over a list that carries a state. -/
def fold (step : State → Value → Logged Entry State) : State → List Value → Logged Entry State
  | state, [] => done state
  | state, value :: values => (step state value).andThen fun next => fold step next values

theorem pure_apply (result : Result) (log : List Entry) :
    (pure result : Logged Entry Result) log = (result, []) := rfl

theorem bind_apply (first : Logged Entry Value) (next : Value → Logged Entry Result)
    (log : List Entry) :
    (first >>= next) log =
      ((next (first log).1 (log ++ (first log).2)).1,
        (first log).2 ++ (next (first log).1 (log ++ (first log).2)).2) := rfl

/-- Every entry added is kept to, and the result is as promised. -/
def Yields (kept : Entry → Prop) (promised : Result → Prop) (act : Logged Entry Result) : Prop :=
  ∀ log, (∀ entry ∈ (act log).2, kept entry) ∧ promised (act log).1

variable {kept : Entry → Prop} {promised : Result → Prop}

theorem yields_pure {result : Result} (holds : promised result) :
    Yields kept promised (pure result : Logged Entry Result) := by
  intro log
  exact ⟨fun entry member => (List.not_mem_nil member).elim, holds⟩

theorem yields_bind {between : Value → Prop} {first : Logged Entry Value}
    {next : Value → Logged Entry Result} (start : Yields kept between first)
    (rest : ∀ value, between value → Yields kept promised (next value)) :
    Yields kept promised (first >>= next) := by
  intro log
  obtain ⟨before, middle⟩ := start log
  obtain ⟨after, final⟩ := rest _ middle (log ++ (first log).2)
  refine ⟨fun entry member => ?_, final⟩
  rcases List.mem_append.mp member with early | late
  · exact before entry early
  · exact after entry late

theorem Yields.weaken {wider : Entry → Prop} {act : Logged Entry Result}
    (yields : Yields kept promised act) (widen : ∀ entry, kept entry → wider entry) :
    Yields wider promised act :=
  fun log => ⟨fun entry member => widen entry ((yields log).1 entry member), (yields log).2⟩

theorem yields_fold {invariant : State → Prop} {values : List Value}
    {step : State → Value → Logged Entry State} {state : State} (start : invariant state)
    (preserved : ∀ state, invariant state → ∀ value ∈ values,
      Yields kept invariant (step state value)) :
    Yields kept invariant (fold step state values) := by
  induction values generalizing state with
  | nil => exact yields_pure start
  | cons value values induction =>
      refine yields_bind (preserved state start value List.mem_cons_self) fun next holds => ?_
      exact induction holds fun state holds value member =>
        preserved state holds value (List.mem_cons_of_mem _ member)

abbrev Adds (kept : Entry → Prop) (act : Logged Entry Result) : Prop :=
  Yields kept (fun _ => True) act

theorem adds_fold {values : List Value} {step : State → Value → Logged Entry State} {state : State}
    (adds : ∀ state, ∀ value ∈ values, Adds kept (step state value)) :
    Adds kept (fold step state values) :=
  yields_fold trivial fun state _ => adds state

end Logged
end DomainLens
