import DomainLens.Library.Run
import Mathlib

/-!
# Background scan jobs

A scan runs on a worker thread while the page polls it.  The worker keeps the job object it was
started with, also after a poll has declared the job stuck or a clean-up has dropped it from the
registry, and writes its outcome there.  The file embeds the registry with its polls and clean-up,
says what one step can do to one job, and settles when the status of a job is a one-way street.
-/

namespace DomainLens
namespace ScanJobs

open Run

/-- Instants and spans, in microseconds. -/
abbrev Time := Int

abbrev JobId := Nat

inductive Status where
  | running
  | done
  | error
deriving DecidableEq, Repr

/-- The result dict of a scan: the id it was saved under and everything else. -/
structure Result where
  scanId : Option Nat
  body : String
deriving DecidableEq, Repr

/-- What a runner hands back.  An empty value reads as the empty dict; any other value without
`get` makes the worker's own write raise. -/
inductive Returned where
  | nothing
  | dict (result : Result)
  | other (shown : String)
deriving DecidableEq, Repr

/-- A job object, shared by the registry and its worker. -/
structure Job where
  jobId : JobId
  domain : String
  status : Status
  done : Nat
  total : Nat
  percent : Nat
  current : Option String
  startedAt : Time
  finishedAt : Option Time
  result : Option Result
  error : Option String
  scanId : Option Nat
deriving DecidableEq, Repr

/-- How long a finished job stays queryable: 900 seconds. -/
def retention : Time := 900 * 1000000

/-- Ceiling on the run of a single job: 600 seconds. -/
def maxRuntime : Time := 600 * 1000000

/-- Text of a job the poller gives up on. -/
def abandonedText : String := "Scan exceeded the maximum runtime and was abandoned"

namespace Job

/-- Age of a job since a stamp, nothing when the stamp is missing. -/
def age (now : Time) (stamp : Option Time) : Time :=
  match stamp with
  | some moment => now - moment
  | none => 0

def isStale (job : Job) (now : Time) : Bool :=
  (job.status == .done || job.status == .error) && decide (retention < age now job.finishedAt)

def isStuck (job : Job) (now : Time) : Bool :=
  job.status == .running && decide (maxRuntime < age now (some job.startedAt))

def abandon (job : Job) (now : Time) : Job :=
  { job with status := .error, error := some abandonedText, finishedAt := some now }

/-- The progress callback.  `rounded` is the rounded percentage, a float computation. -/
def progress (job : Job) (done total rounded : Nat) (name : Option String) : Job :=
  { job with
    done := done
    total := total
    percent := if total = 0 then 0 else min 99 rounded
    current := name }

/-- The worker's write for an exception, its text cut to 300 characters. -/
def raised (job : Job) (text : String) (now : Time) : Job :=
  { job with status := .error, error := some ((text.take 300).toString), finishedAt := some now }

/-- The worker's write for the result of a dict, or of nothing. -/
def finish (job : Job) (result : Option Result) (now : Time) : Job :=
  { job with
    result := result
    scanId := result.bind Result.scanId
    status := .done
    percent := 100
    current := none
    finishedAt := some now }

/-- The worker's write once its runner returned.  Reading the scan id of a value without `get`
raises, and the exception is written instead. -/
def complete (job : Job) (returned : Returned) (now : Time) : Job :=
  match returned with
  | .nothing => job.finish none now
  | .dict result => job.finish (some result) now
  | .other shown => job.raised (shown ++ " object has no attribute 'get'") now

end Job

structure PublicView where
  jobId : JobId
  domain : String
  status : Status
  done : Nat
  total : Nat
  percent : Nat
  current : Option String
  startedAt : Time
  finishedAt : Option Time
  error : Option String
  scanId : Option Nat
  /-- The key `result` is there only for a done job whose result was asked for. -/
  result : Option (Option Result)
deriving DecidableEq, Repr

def publicView (job : Job) (includeResult : Bool) : PublicView where
  jobId := job.jobId
  domain := job.domain
  status := job.status
  done := job.done
  total := job.total
  percent := job.percent
  current := job.current
  startedAt := job.startedAt
  finishedAt := job.finishedAt
  error := job.error
  scanId := job.scanId
  result := if includeResult ∧ job.status = .done then some job.result else none

/-- The job objects, the registry in insertion order and the workers still alive. -/
structure World where
  objects : JobId → Option Job
  registry : List JobId
  working : List JobId
  /-- Next id `uuid4` gives; every job gets an id of its own. -/
  nextId : JobId

def World.empty : World where
  objects _ := none
  registry := []
  working := []
  nextId := 0

namespace World

def modify (world : World) (id : JobId) (write : Job → Job) : World :=
  { world with
    objects := fun other => if other = id then (world.objects id).map write else world.objects other }

/-- Drop the finished jobs past their retention. -/
def prune (world : World) (now : Time) : World :=
  { world with
    registry := world.registry.filter fun id =>
      match world.objects id with
      | some job => !job.isStale now
      | none => true }

/-- Register a job and start its worker. -/
def start (world : World) (domain : String) (now : Time) : World :=
  let pruned := world.prune now
  let job : Job :=
    { jobId := world.nextId, domain, status := .running, done := 0, total := 0, percent := 0,
      current := none, startedAt := now, finishedAt := none, result := none, error := none,
      scanId := none }
  { objects := fun id => if id = world.nextId then some job else pruned.objects id
    registry := pruned.registry ++ [world.nextId]
    working := world.nextId :: pruned.working
    nextId := world.nextId + 1 }

def get (world : World) (id : JobId) (includeResult : Bool) (now : Time) :
    World × Option PublicView :=
  if id ∈ world.registry then
    match world.objects id with
    | none => (world, none)
    | some job =>
        if job.isStuck now then
          (world.modify id fun job => job.abandon now,
            some (publicView (job.abandon now) includeResult))
        else
          (world, some (publicView job includeResult))
  else
    (world, none)

/-- The walk over the registry for a running job of the domain, giving up on stuck ones. -/
def findLoop (domain : String) (now : Time) : List JobId → World → World × Option PublicView
  | [], world => (world, none)
  | id :: ids, world =>
      match world.objects id with
      | none => findLoop domain now ids world
      | some job =>
          if job.domain = domain ∧ job.status = .running then
            if job.isStuck now then
              findLoop domain now ids (world.modify id fun job => job.abandon now)
            else
              (world, some (publicView job false))
          else
            findLoop domain now ids world

/-- The running job of a domain, if there is one. -/
def findActive (world : World) (domain : String) (now : Time) : World × Option PublicView :=
  findLoop domain now (world.prune now).registry (world.prune now)

end World

/-- One atomic step: each of them holds the lock of the registry. -/
inductive Event where
  | start (domain : String) (now : Time)
  | progress (id : JobId) (done total rounded : Nat) (name : Option String)
  | complete (id : JobId) (returned : Returned) (now : Time)
  | raised (id : JobId) (text : String) (now : Time)
  | get (id : JobId) (includeResult : Bool) (now : Time)
  | findActive (domain : String) (now : Time)
  | reset
deriving DecidableEq, Repr

/-- The worker of a job has written its outcome and ends. -/
def World.retire (world : World) (id : JobId) : World :=
  { world with working := world.working.filter (· ≠ id) }

/-- Take one step.  Only a living worker reports progress or an outcome. -/
def step (world : World) : Event → Option World
  | .start domain now => some (world.start domain now)
  | .progress id done total rounded name =>
      if id ∈ world.working then
        some (world.modify id fun job => job.progress done total rounded name)
      else none
  | .complete id returned now =>
      if id ∈ world.working then
        some ((world.modify id fun job => job.complete returned now).retire id)
      else none
  | .raised id text now =>
      if id ∈ world.working then
        some ((world.modify id fun job => job.raised text now).retire id)
      else none
  | .get id includeResult now => some (world.get id includeResult now).1
  | .findActive domain now => some (world.findActive domain now).1
  | .reset => some { world with registry := [] }

/-! ## What one step does to one job -/

/-- The change one event may make to one job object. -/
inductive Move (event : Event) (id : JobId) (job : Job) : Job → Prop where
  | kept : Move event id job job
  | progressed (done total rounded : Nat) (name : Option String) :
      Move event id job (job.progress done total rounded name)
  | abandoned (now : Time) (running : job.status = .running) : Move event id job (job.abandon now)
  | completed (returned : Returned) (now : Time) (called : event = .complete id returned now) :
      Move event id job (job.complete returned now)
  | raised (text : String) (now : Time) (called : event = .raised id text now) :
      Move event id job (job.raised text now)

/-- The change one event may make at one id: an object moves and never goes away, and a new one
is running, under the next id. -/
inductive Moves (event : Event) (nextId id : JobId) : Option Job → Option Job → Prop where
  | absent : Moves event nextId id none none
  | started {job : Job} {domain : String} {now : Time} (running : job.status = .running)
      (clean : job.error = none) (called : event = .start domain now) (new : id = nextId) :
      Moves event nextId id none (some job)
  | moved {job later : Job} (move : Move event id job later) :
      Moves event nextId id (some job) (some later)

private theorem Moves.refl {event : Event} {nextId id : JobId} (held : Option Job) :
    Moves event nextId id held held := by
  cases held with
  | none => exact .absent
  | some job => exact .moved .kept

theorem status_of_isStuck {job : Job} {now : Time} (stuck : job.isStuck now = true) :
    job.status = .running := by
  simp only [Job.isStuck, Bool.and_eq_true, beq_iff_eq] at stuck
  exact stuck.1

private theorem moves_modify {event : Event} {nextId : JobId} (world : World) (target id : JobId)
    {write : Job → Job}
    (moves : ∀ job, id = target → world.objects target = some job → Move event id job (write job)) :
    Moves event nextId id (world.objects id) ((world.modify target write).objects id) := by
  by_cases same : id = target
  · subst same
    cases held : world.objects id with
    | none => simpa [World.modify, held] using .absent
    | some job => simpa [World.modify, held] using Moves.moved (moves job rfl held)
  · simpa [World.modify, same] using .refl (world.objects id)

/-- The walk over the registry leaves each object as it is or gives up on it while it runs. -/
theorem findLoop_objects (domain : String) (now : Time) (ids : List JobId) (world : World)
    (id : JobId) :
    (World.findLoop domain now ids world).1.objects id = world.objects id ∨
      ∃ job, world.objects id = some job ∧ job.status = .running ∧
        (World.findLoop domain now ids world).1.objects id = some (job.abandon now) := by
  induction ids generalizing world with
  | nil => exact .inl rfl
  | cons head ids induction =>
      unfold World.findLoop
      split
      · exact induction world
      · rename_i held heldFound
        split_ifs with wanted stuck
        · rcases induction (world.modify head fun job => job.abandon now) with
            unchanged | ⟨job, found, running, abandoned⟩
          · by_cases same : id = head
            · subst same
              right
              exact ⟨held, heldFound, wanted.2, by
                rw [unchanged]
                simp [World.modify, heldFound]⟩
            · left
              rw [unchanged]
              simp [World.modify, same]
          · by_cases same : id = head
            · subst same
              obtain rfl : held.abandon now = job := by
                simpa [World.modify, heldFound] using found
              simp [Job.abandon] at running
            · right
              exact ⟨job, by simpa [World.modify, same] using found, running, abandoned⟩
        · exact .inl rfl
        · exact induction world

private theorem findActive_moves {event : Event} {nextId : JobId} (world : World) (domain : String)
    (now : Time) (id : JobId) :
    Moves event nextId id (world.objects id) ((world.findActive domain now).1.objects id) := by
  rcases findLoop_objects domain now (world.prune now).registry (world.prune now) id with
    unchanged | ⟨job, found, running, abandoned⟩
  · rw [World.findActive, unchanged]
    exact .refl _
  · rw [World.findActive, abandoned, show world.objects id = some job from found]
    exact .moved (.abandoned now running)

private theorem get_moves {event : Event} {nextId : JobId} (world : World) (target id : JobId)
    (includeResult : Bool) (now : Time) :
    Moves event nextId id (world.objects id) ((world.get target includeResult now).1.objects id) := by
  unfold World.get
  split_ifs
  · split
    · exact .refl _
    · rename_i held heldFound
      split_ifs with stuck
      · apply moves_modify
        intro job _ found
        obtain rfl : held = job := Option.some.inj (heldFound.symm.trans found)
        exact .abandoned now (status_of_isStuck stuck)
      · exact .refl _
  · exact .refl _

theorem step_moves {world next : World} {event : Event} (taken : step world event = some next)
    (fresh : world.objects world.nextId = none) (id : JobId) :
    Moves event world.nextId id (world.objects id) (next.objects id) := by
  cases event with
  | start domain now =>
      obtain rfl := Option.some.inj taken
      by_cases new : id = world.nextId
      · subst new
        simpa [World.start, fresh] using Moves.started rfl rfl rfl rfl
      · simpa [World.start, World.prune, new] using .refl (world.objects id)
  | progress target done total rounded name =>
      simp only [step, Option.ite_none_right_eq_some, Option.some.injEq] at taken
      obtain ⟨_, rfl⟩ := taken
      exact moves_modify world target id fun _ _ _ => .progressed done total rounded name
  | complete target returned now =>
      simp only [step, Option.ite_none_right_eq_some, Option.some.injEq] at taken
      obtain ⟨_, rfl⟩ := taken
      exact moves_modify world target id fun _ same _ => .completed returned now (by rw [same])
  | raised target text now =>
      simp only [step, Option.ite_none_right_eq_some, Option.some.injEq] at taken
      obtain ⟨_, rfl⟩ := taken
      exact moves_modify world target id fun _ same _ => .raised text now (by rw [same])
  | get target includeResult now =>
      obtain rfl := Option.some.inj taken
      exact get_moves world target id includeResult now
  | findActive domain now =>
      obtain rfl := Option.some.inj taken
      exact findActive_moves world domain now id
  | reset =>
      obtain rfl := Option.some.inj taken
      exact .refl _

private theorem findLoop_frame (domain : String) (now : Time) (ids : List JobId) (world : World) :
    (World.findLoop domain now ids world).1.working = world.working ∧
      (World.findLoop domain now ids world).1.nextId = world.nextId := by
  induction ids generalizing world with
  | nil => exact ⟨rfl, rfl⟩
  | cons head ids induction =>
      unfold World.findLoop
      split
      · exact induction world
      · split_ifs
        · exact induction (world.modify head fun job => job.abandon now)
        · exact ⟨rfl, rfl⟩
        · exact induction world

private theorem get_frame (world : World) (id : JobId) (includeResult : Bool) (now : Time) :
    (world.get id includeResult now).1.working = world.working ∧
      (world.get id includeResult now).1.nextId = world.nextId := by
  unfold World.get
  split_ifs
  · split
    · exact ⟨rfl, rfl⟩
    · split_ifs <;> exact ⟨rfl, rfl⟩
  · exact ⟨rfl, rfl⟩

/-- A worker alive after a step was alive before it and wrote no outcome in it, or was started by
it. -/
theorem step_working {world next : World} {event : Event} (taken : step world event = some next)
    {id : JobId} (alive : id ∈ next.working) :
    (id ∈ world.working ∧ (∀ returned now, event ≠ .complete id returned now) ∧
        ∀ text now, event ≠ .raised id text now) ∨
      id = world.nextId ∧ ∃ domain now, event = .start domain now := by
  cases event with
  | start domain now =>
      obtain rfl := Option.some.inj taken
      rcases List.mem_cons.mp alive with new | old
      · exact .inr ⟨new, domain, now, rfl⟩
      · exact .inl ⟨old, by simp, by simp⟩
  | progress target done total rounded name =>
      simp only [step, Option.ite_none_right_eq_some, Option.some.injEq] at taken
      obtain ⟨_, rfl⟩ := taken
      exact .inl ⟨alive, by simp, by simp⟩
  | complete target returned now =>
      simp only [step, Option.ite_none_right_eq_some, Option.some.injEq] at taken
      obtain ⟨_, rfl⟩ := taken
      obtain ⟨old, different⟩ : id ∈ world.working ∧ id ≠ target := by
        simpa [World.retire, World.modify] using alive
      exact .inl ⟨old, by simp [Ne.symm different], by simp⟩
  | raised target text now =>
      simp only [step, Option.ite_none_right_eq_some, Option.some.injEq] at taken
      obtain ⟨_, rfl⟩ := taken
      obtain ⟨old, different⟩ : id ∈ world.working ∧ id ≠ target := by
        simpa [World.retire, World.modify] using alive
      exact .inl ⟨old, by simp, by simp [Ne.symm different]⟩
  | get target includeResult now =>
      obtain rfl := Option.some.inj taken
      rw [(get_frame world target includeResult now).1] at alive
      exact .inl ⟨alive, by simp, by simp⟩
  | findActive domain now =>
      obtain rfl := Option.some.inj taken
      rw [World.findActive, (findLoop_frame domain now _ _).1] at alive
      exact .inl ⟨alive, by simp, by simp⟩
  | reset =>
      obtain rfl := Option.some.inj taken
      exact .inl ⟨alive, by simp, by simp⟩

theorem step_nextId {world next : World} {event : Event} (taken : step world event = some next) :
    (∃ domain now, event = .start domain now ∧ next.nextId = world.nextId + 1) ∨
      (∀ domain now, event ≠ .start domain now) ∧ next.nextId = world.nextId := by
  cases event with
  | start domain now =>
      obtain rfl := Option.some.inj taken
      exact .inl ⟨domain, now, rfl, rfl⟩
  | get target includeResult now =>
      obtain rfl := Option.some.inj taken
      exact .inr ⟨by simp, (get_frame world target includeResult now).2⟩
  | findActive domain now =>
      obtain rfl := Option.some.inj taken
      exact .inr ⟨by simp, (findLoop_frame domain now _ _).2⟩
  | reset =>
      obtain rfl := Option.some.inj taken
      exact .inr ⟨by simp, rfl⟩
  | progress | complete | raised =>
      simp only [step, Option.ite_none_right_eq_some, Option.some.injEq] at taken
      obtain ⟨_, rfl⟩ := taken
      exact .inr ⟨by simp, rfl⟩

/-! ## The status as a one-way street -/

/-- A status only moves away from running. -/
def MovesOneWay (world next : World) : Prop :=
  ∀ id job, world.objects id = some job →
    ∃ later, next.objects id = some later ∧ (later.status = job.status ∨ job.status = .running)

/-- A done job has a result and no error text. -/
def DoneCarriesResult (world : World) : Prop :=
  ∀ id job, world.objects id = some job → job.status = .done →
    job.result.isSome ∧ job.error = none

/-- What one step of the one-way street promises. -/
def OneWay (world : World) (_ : Event) (next : World) : Prop :=
  MovesOneWay world next ∧ DoneCarriesResult next

/-- A worker that has a result to write finds its job still running, and it does have one. -/
def Timely (world : World) (event : Event) (_ : World) : Prop :=
  match event with
  | .complete id (.dict _) _ => ∃ job, world.objects id = some job ∧ job.status = .running
  | .complete _ .nothing _ => False
  | _ => True

/-- Invariant of every run that has been one-way so far. -/
structure Sound (world : World) : Prop where
  fresh : ∀ id, world.nextId ≤ id → world.objects id = none
  clean : ∀ id job, world.objects id = some job → job.status = .running → job.error = none
  unfinished : ∀ id ∈ world.working, ∃ job, world.objects id = some job ∧ job.status ≠ .done
  carries : DoneCarriesResult world

theorem sound_empty : Sound World.empty where
  fresh _ _ := rfl
  clean _ _ found := by cases found
  unfinished _ member := by cases member
  carries _ _ found := by cases found

private theorem working_of_complete {world next : World} {id : JobId} {returned : Returned}
    {now : Time} (taken : step world (.complete id returned now) = some next) :
    id ∈ world.working ∧ next.objects id = (world.objects id).map fun job =>
      job.complete returned now := by
  simp only [step, Option.ite_none_right_eq_some, Option.some.injEq] at taken
  obtain ⟨alive, rfl⟩ := taken
  exact ⟨alive, by simp [World.retire, World.modify]⟩

private theorem working_of_raised {world next : World} {id : JobId} {text : String} {now : Time}
    (taken : step world (.raised id text now) = some next) : id ∈ world.working := by
  simp only [step, Option.ite_none_right_eq_some] at taken
  exact taken.1

theorem oneWay_iff_timely {world next : World} {event : Event} (sound : Sound world)
    (taken : step world event = some next) :
    OneWay world event next ↔ Timely world event next := by
  have moves := step_moves taken (sound.fresh _ (Nat.le_refl _))
  constructor
  · rintro ⟨oneWay, carries⟩
    cases event with
    | complete id returned now =>
        obtain ⟨alive, written⟩ := working_of_complete taken
        obtain ⟨job, found, notDone⟩ := sound.unfinished id alive
        rw [found] at written
        cases returned with
        | nothing => simpa [Job.complete, Job.finish] using (carries id _ written rfl).1
        | dict result =>
            obtain ⟨later, after, status⟩ := oneWay id job found
            obtain rfl := Option.some.inj (after.symm.trans written)
            refine ⟨job, found, status.resolve_left fun same => notDone ?_⟩
            simpa [Job.complete, Job.finish] using same.symm
        | other shown => trivial
    | _ => trivial
  · intro timely
    constructor
    · intro id job found
      have change := moves id
      rw [found] at change
      generalize afterwards : next.objects id = after at change
      cases change with
      | moved move =>
          refine ⟨_, rfl, ?_⟩
          cases move with
          | kept => exact .inl rfl
          | progressed => exact .inl rfl
          | abandoned now running => exact .inr running
          | completed returned now called =>
              subst called
              obtain ⟨job', found', notDone⟩ := sound.unfinished id (working_of_complete taken).1
              obtain rfl := Option.some.inj (found'.symm.trans found)
              cases returned with
              | nothing => exact timely.elim
              | dict result =>
                  obtain ⟨held, heldFound, running⟩ := timely
                  obtain rfl := Option.some.inj (heldFound.symm.trans found)
                  exact .inr running
              | other shown =>
                  cases status : job'.status <;> simp_all [Job.complete, Job.raised]
          | raised text now called =>
              subst called
              obtain ⟨job', found', notDone⟩ := sound.unfinished id (working_of_raised taken)
              obtain rfl := Option.some.inj (found'.symm.trans found)
              cases status : job'.status <;> simp_all [Job.raised]
    · intro id later found isDone
      have change := moves id
      rw [found] at change
      generalize beforehand : world.objects id = before at change
      cases change with
      | started running => simp [running] at isDone
      | @moved job _ move =>
          cases move with
          | kept => exact sound.carries id later beforehand isDone
          | progressed => exact sound.carries id job beforehand isDone
          | abandoned => cases isDone
          | raised => cases isDone
          | completed returned now called =>
              subst called
              cases returned with
              | nothing => exact timely.elim
              | other shown => cases isDone
              | dict result =>
                  obtain ⟨held, heldFound, running⟩ := timely
                  obtain rfl := Option.some.inj (heldFound.symm.trans beforehand)
                  exact ⟨rfl, sound.clean id held beforehand running⟩

theorem sound_step {world next : World} {event : Event} (sound : Sound world)
    (taken : step world event = some next) (oneWay : OneWay world event next) : Sound next where
  fresh id above := by
    have change := step_moves taken (sound.fresh _ (Nat.le_refl _)) id
    rcases step_nextId taken with ⟨_, _, _, grown⟩ | ⟨notStart, same⟩
    · have old : world.nextId < id := by
        rw [grown] at above
        exact above
      rw [sound.fresh id (Nat.le_of_lt old)] at change
      generalize next.objects id = after at change ⊢
      cases change with
      | absent => rfl
      | started _ _ _ new => exact (Nat.ne_of_gt old new).elim
    · rw [sound.fresh id (same ▸ above)] at change
      generalize next.objects id = after at change ⊢
      cases change with
      | absent => rfl
      | started _ _ called _ => exact (notStart _ _ called).elim
  clean id later found running := by
    have change := step_moves taken (sound.fresh _ (Nat.le_refl _)) id
    rw [found] at change
    generalize beforehand : world.objects id = before at change
    cases change with
    | started _ clean => exact clean
    | @moved job _ move =>
        cases move with
        | kept => exact sound.clean id later beforehand running
        | progressed => exact sound.clean id job beforehand running
        | abandoned => cases running
        | raised => cases running
        | completed returned => cases returned <;> cases running
  unfinished id alive := by
    have change := step_moves taken (sound.fresh _ (Nat.le_refl _)) id
    rcases step_working taken alive with ⟨old, notComplete, notRaised⟩ | ⟨rfl, domain, now, rfl⟩
    · obtain ⟨job, found, notDone⟩ := sound.unfinished id old
      rw [found] at change
      generalize next.objects id = after at change ⊢
      cases change with
      | moved move =>
          refine ⟨_, rfl, ?_⟩
          cases move with
          | kept => exact notDone
          | progressed => exact notDone
          | abandoned => simp [Job.abandon]
          | completed returned now called => exact (notComplete _ _ called).elim
          | raised text now called => exact (notRaised _ _ called).elim
    · obtain rfl := Option.some.inj taken
      refine ⟨_, if_pos rfl, ?_⟩
      exact Status.noConfusion
  carries := oneWay.2

/-- The status of every job is a one-way street along a run exactly when no worker writes a
result into a job that was given up on, and no runner comes back without one. -/
theorem along_oneWay_iff_timely (events : List Event) :
    Along step OneWay World.empty events ↔ Along step Timely World.empty events := by
  refine along_iff ?_ ?_ sound_empty
  · intro world event next sound taken
    exact oneWay_iff_timely sound taken
  · intro world event next sound taken oneWay
    exact sound_step sound taken oneWay

/-- A slow scan: the poll at 601 seconds gives up on it, the worker returns a second later. -/
def lateRun : List Event :=
  [.start "example.com" 0, .get 0 false 601000000,
    .complete 0 (.dict ⟨some 7, "{}"⟩) 602000000]

/-- The late run takes a job from error to done, with the text of the time-out still on it. -/
theorem lateRun_not_oneWay : ¬ Along step OneWay World.empty lateRun := by
  intro along
  obtain ⟨_, second⟩ := along _ rfl
  obtain ⟨_, third⟩ := second _ rfl
  obtain ⟨⟨oneWay, carries⟩, _⟩ := third _ rfl
  obtain ⟨later, found, status⟩ := oneWay 0 _ rfl
  obtain rfl := Option.some.inj found
  rcases status with same | running
  · cases same
  · cases running

end ScanJobs
end DomainLens
