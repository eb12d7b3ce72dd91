import Mathlib

/-!
# Work that is planned anew after a stop

A job plans its writes from the state and makes them one by one.  A stop leaves what was written, and
the next attempt makes a new plan.  The new plan is what was left of the old one, less the writes of
some kind that come next: those are forgotten.  What the attempts write and what they forget is the
first plan.
-/

namespace DomainLens
namespace Resumed

variable {State Write Context : Type*}

/-- What a job writes, how a write changes the state, and which writes no later plan takes up. -/
structure Job (State Write Context : Type*) where
  plan : State → List Write
  apply : Context → State → Write → State
  forgets : Write → Bool
  /-- After a write the plan is what was left, less what is forgotten. -/
  resumes : ∀ context state write rest, plan state = (write :: rest).dropWhile forgets →
    plan (apply context state write) = rest.dropWhile forgets
  /-- A plan does not begin with a write that another plan would have forgotten. -/
  begins : ∀ state, (plan state).dropWhile forgets = plan state

variable (job : Job State Write Context)

/-- An attempt: its context, and after how many writes it stops. -/
structure Attempt (Context : Type*) where
  context : Context
  stop : Nat

def attempt (state : State) (start : Attempt Context) : State :=
  ((job.plan state).take start.stop).foldl (job.apply start.context) state

def finish (context : Context) (state : State) : State :=
  (job.plan state).foldl (job.apply context) state

/-- The writes that are forgotten after an attempt. -/
def forgotten (state : State) (start : Attempt Context) : List Write :=
  ((job.plan state).drop start.stop).takeWhile job.forgets

/-- All writes that some attempts make. -/
def performed : List (Attempt Context) → State → List Write
  | [], _ => []
  | start :: starts, state =>
      (job.plan state).take start.stop ++ performed starts (attempt job state start)

/-- All writes that are forgotten after some attempts. -/
def lost : List (Attempt Context) → State → List Write
  | [], _ => []
  | start :: starts, state => forgotten job state start ++ lost starts (attempt job state start)

variable {job}

theorem plan_foldl (context : Context) {done rest : List Write} {state : State}
    (planned : job.plan state = (done ++ rest).dropWhile job.forgets) :
    job.plan (done.foldl (job.apply context) state) = rest.dropWhile job.forgets := by
  induction done generalizing state with
  | nil => exact planned
  | cons write done induction => exact induction (job.resumes context state write _ planned)

theorem plan_attempt (state : State) (start : Attempt Context) :
    job.plan (attempt job state start) =
      ((job.plan state).drop start.stop).dropWhile job.forgets := by
  refine plan_foldl start.context ?_
  rw [List.take_append_drop, job.begins]

theorem plan_finish (context : Context) (state : State) : job.plan (finish job context state) = [] := by
  refine @plan_foldl _ _ _ job context (job.plan state) [] state ?_
  rw [List.append_nil, job.begins]

/-- What is written, what is forgotten and what is still planned is the first plan. -/
theorem performed_lost_perm (starts : List (Attempt Context)) (state : State) :
    (performed job starts state ++ lost job starts state ++
      job.plan (starts.foldl (attempt job) state)).Perm (job.plan state) := by
  induction starts generalizing state with
  | nil => exact List.Perm.refl _
  | cons start starts induction =>
      have later := induction (attempt job state start)
      rw [plan_attempt] at later
      have split := List.takeWhile_append_dropWhile (p := job.forgets)
        (l := (job.plan state).drop start.stop)
      calc
        performed job (start :: starts) state ++ lost job (start :: starts) state ++
              job.plan ((start :: starts).foldl (attempt job) state)
          = (job.plan state).take start.stop ++ performed job starts (attempt job state start) ++
              (forgotten job state start ++ lost job starts (attempt job state start)) ++
              job.plan (starts.foldl (attempt job) (attempt job state start)) := rfl
        List.Perm _ ((job.plan state).take start.stop ++ (forgotten job state start ++
              (performed job starts (attempt job state start) ++
                lost job starts (attempt job state start) ++
                job.plan (starts.foldl (attempt job) (attempt job state start))))) := by
          simp only [List.append_assoc]
          refine List.Perm.append_left _ ?_
          simp only [← List.append_assoc]
          exact (List.perm_append_comm.append_right _).append_right _
        List.Perm _ ((job.plan state).take start.stop ++ (forgotten job state start ++
              ((job.plan state).drop start.stop).dropWhile job.forgets)) :=
          (later.append_left _).append_left _
        _ = job.plan state := by rw [forgotten, split, List.take_append_drop]

theorem forgets_of_mem_lost {starts : List (Attempt Context)} {state : State} {write : Write}
    (member : write ∈ lost job starts state) : job.forgets write := by
  induction starts generalizing state with
  | nil => cases member
  | cons start starts induction =>
      rcases List.mem_append.mp member with here | later
      · exact List.mem_takeWhile_imp here
      · exact induction later

end Resumed
end DomainLens
