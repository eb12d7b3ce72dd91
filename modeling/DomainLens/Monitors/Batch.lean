import DomainLens.Scheduler
import DomainLens.Library.Run
import DomainLens.Library.Table
import DomainLens.Python.Text
import Mathlib

/-!
# Batches of due monitors

A batch runs the monitors that are due, one after another or in a pool.  A run that fails is
recorded, stored as an event and sent out, and these calls are outside the `try` of the run.
-/

namespace DomainLens
namespace Monitors

open Python Run

abbrev MonitorId := Nat

/-! ## Monitors and events -/

/-- What the metadata of a monitor hold under `scheduler`; instants are in microseconds. -/
structure SchedulerMeta where
  consecutiveFailures : Nat
  backoffUntil : Option Int
  dnsRetries : Nat
  dnsUnansweredSince : Option Int
  lastError : Option Text
  lastFailedAt : Option Int
deriving DecidableEq

/-- A row of `monitors`, as far as a batch reads or writes it. -/
structure Monitor where
  id : MonitorId
  target : Text
  metadata : SchedulerMeta
  nextScanAt : Option Int
  scheduleMinutes : Option Int
  scanTime : Option Scheduler.HourMinute
  scanTz : Option Scheduler.Zone

/-- The section `scheduler` of the settings. -/
structure Settings where
  concurrency : Int
  failureBackoffMinutes : Int
  maxConsecutiveFailures : Int
  dnsRetryMinutes : Int
  dnsMaxRetries : Int

inductive Details where
  | scanFailed (error target : Text)
  | dnsUnanswered (target error : Text) (since : Int) (attempts : Nat) (nextScanAt : Int)
deriving DecidableEq

/-- A row of `monitor_events` that a batch writes. -/
structure Event where
  monitorId : MonitorId
  eventType : Text
  severity : Text
  summary : Text
  details : Details
deriving DecidableEq

structure Database where
  monitors : Table Monitor.id
  events : List Event

namespace Database

/-- `update_monitor`: a monitor that is gone is not an error. -/
def updateMonitor (database : Database) (id : MonitorId) (metadata : SchedulerMeta)
    (nextScanAt : Option Int) : Database :=
  { database with
    monitors := database.monitors.update id
      (fun row => { row with metadata, nextScanAt := nextScanAt.or row.nextScanAt }) fun _ => rfl }

/-- `create_monitor_event`, nothing where the foreign key refuses it. -/
def createMonitorEvent (database : Database) (event : Event) : Option Database :=
  (database.monitors.find event.monitorId).map fun _ =>
    { database with events := database.events ++ [event] }

end Database

/-! ## Results -/

inductive DnsState where
  | resolverDown
  | domainSilent
deriving DecidableEq

/-- The rest of a result, by its status. -/
inductive Status where
  | ok (scanId : Nat) (eventType : Text)
  | postponed (reason : DnsState) (eventType : Option Text)
  | error (error : Text)
deriving DecidableEq

structure Item where
  monitorId : MonitorId
  target : Text
  status : Status
deriving DecidableEq

def itemOf (monitor : Monitor) (status : Status) : Item where
  monitorId := monitor.id
  target := monitor.target
  status

/-! ## One run -/

/-- Where a run is: what it calls next. -/
inductive Stage where
  /-- `scan_monitor_fn`. -/
  | scanning
  /-- `_record_success`, the scan being done. -/
  | succeeded (scanId : Nat) (eventType : Text)
  /-- `_postpone_for_dns`. -/
  | unavailable (state : DnsState) (error : Text)
  /-- `_record_failure`. -/
  | failed (error : Text)
  /-- `create_monitor_event`, with the result of the run. -/
  | storing (event : Event) (item : Item)
  /-- `notify_fn`. -/
  | notifying (item : Item)

/-- What a call comes to, as far as others decide it. -/
inductive Reply where
  | returns
  | scanned (scanId : Nat) (eventType : Text)
  | dnsUnavailable (state : DnsState) (error : Text)
  | raises (problem : Text)
deriving DecidableEq

inductive Progress where
  | at (stage : Stage)
  | done (item : Item)
  | raised (problem : Text)

/-- `IntegrityError`. -/
def foreignKeyFailed : Text := "FOREIGN KEY constraint failed".toList

/-- The metadata after a scan that worked. -/
def afterSuccess (metadata : SchedulerMeta) : SchedulerMeta :=
  { metadata with
    consecutiveFailures := 0
    backoffUntil := none
    dnsRetries := 0
    dnsUnansweredSince := none }

/-- The metadata after one that did not. -/
def afterFailure (settings : Settings) (now : Int) (error : Text) (metadata : SchedulerMeta) :
    SchedulerMeta :=
  let failures := metadata.consecutiveFailures + 1
  { metadata with
    consecutiveFailures := failures
    lastError := some error
    lastFailedAt := some now
    backoffUntil :=
      if settings.maxConsecutiveFailures ≤ failures then
        some (now + settings.failureBackoffMinutes * Scheduler.minute)
      else metadata.backoffUntil }

def scanFailed (monitor : Monitor) (error : Text) : Event where
  monitorId := monitor.id
  eventType := "scan_failed".toList
  severity := "high".toList
  summary := "Scheduled scan failed for ".toList ++ monitor.target
  details := .scanFailed error monitor.target

/-- The event of name servers that stay silent. -/
def dnsUnanswered (monitor : Monitor) (error : Text) (since : Int) (attempts : Nat)
    (nextScanAt : Int) : Event where
  monitorId := monitor.id
  eventType := "dns_unanswered".toList
  severity := "medium".toList
  summary := "No answer from the name servers of ".toList ++ monitor.target ++
    ": not scanned, nothing judged".toList
  details := .dnsUnanswered monitor.target error since attempts nextScanAt

/-- `_postpone_for_dns`, up to the call that stores its event. -/
def postponeForDns (settings : Settings) (now : Int) (monitor : Monitor) (state : DnsState)
    (error : Text) (database : Database) : Database × Progress :=
  match state with
  | .resolverDown => (database, .done (itemOf monitor (.postponed state none)))
  | .domainSilent =>
      let retries := monitor.metadata.dnsRetries + 1
      if (retries : Int) < settings.dnsMaxRetries then
        let metadata :=
          { monitor.metadata with
            dnsRetries := retries
            dnsUnansweredSince := monitor.metadata.dnsUnansweredSince.or (some now) }
        (database.updateMonitor monitor.id metadata
            (some (now + settings.dnsRetryMinutes * Scheduler.minute)),
          .done (itemOf monitor (.postponed state none)))
      else
        let since := monitor.metadata.dnsUnansweredSince.getD now
        let fresh := (database.monitors.find monitor.id).getD monitor
        let following :=
          Scheduler.nextRun fresh.scheduleMinutes fresh.scanTime fresh.scanTz now false
        let metadata := { monitor.metadata with dnsRetries := 0, dnsUnansweredSince := none }
        let event := dnsUnanswered monitor error since retries following
        (database.updateMonitor monitor.id metadata (some following),
          .at (.storing event (itemOf monitor (.postponed state (some event.eventType)))))

variable (settings : Settings) (safeError : Text → Text)

/-- The next call of a run.  What is raised before the handlers is a failure of the run; what the
handlers raise themselves leaves it. -/
def advance (now : Int) (monitor : Monitor) (database : Database) :
    Stage → Reply → Option (Database × Progress)
  | .scanning, .scanned scanId eventType => some (database, .at (.succeeded scanId eventType))
  | .scanning, .dnsUnavailable state error => some (database, .at (.unavailable state error))
  | .scanning, .raises problem => some (database, .at (.failed (safeError problem)))
  | .succeeded scanId eventType, .returns =>
      some (database.updateMonitor monitor.id (afterSuccess monitor.metadata) none,
        .done (itemOf monitor (.ok scanId eventType)))
  | .succeeded _ _, .raises problem => some (database, .at (.failed (safeError problem)))
  | .unavailable state error, .returns =>
      some (postponeForDns settings now monitor state error database)
  | .failed error, .returns =>
      some (database.updateMonitor monitor.id (afterFailure settings now error monitor.metadata) none,
        .at (.storing (scanFailed monitor error) (itemOf monitor (.error error))))
  | .storing event item, .returns =>
      match database.createMonitorEvent event with
      | some database => some (database, .at (.notifying item))
      | none => some (database, .raised foreignKeyFailed)
  | .notifying item, .returns => some (database, .done item)
  | .unavailable .domainSilent _, .raises problem => some (database, .raised problem)
  | .failed _, .raises problem => some (database, .raised problem)
  | .storing _ _, .raises problem => some (database, .raised problem)
  | .notifying _, .raises problem => some (database, .raised problem)
  | _, _ => none

/-! ## The batch -/

/-- The runs of a batch; `finished` has them in the order they ended. -/
structure Batch where
  database : Database
  waiting : List Monitor
  running : List (Monitor × Stage)
  finished : List (MonitorId × Except Text Item)
  attempted : List MonitorId

namespace Batch

def start (database : Database) (runnable : List Monitor) : Batch where
  database
  waiting := runnable
  running := []
  finished := []
  attempted := []

def hasRaised (batch : Batch) : Bool := batch.finished.any fun run => !run.2.isOk

/-- The results, or the first exception. -/
def result (batch : Batch) : Except Text (List Item) := batch.finished.mapM Prod.snd

/-- The batch after a call of one of its runs. -/
def after (batch : Batch) (position : Nat) (monitor : Monitor) (database : Database) :
    Progress → Batch
  | .at stage => { batch with database, running := batch.running.set position (monitor, stage) }
  | .done item =>
      { batch with
        database
        running := batch.running.eraseIdx position
        finished := batch.finished ++ [(monitor.id, .ok item)] }
  | .raised problem =>
      { batch with
        database
        running := batch.running.eraseIdx position
        finished := batch.finished ++ [(monitor.id, .error problem)] }

end Batch

/-- Whether the monitors run one after another. -/
def Settings.isSequential : Bool := settings.concurrency ≤ 1

def Settings.workers : Nat := max 1 settings.concurrency.toNat

/-- What happens next: a run begins, a run makes its next call, or others write to the database. -/
inductive Label where
  | begin
  | call (position : Nat) (now : Int) (reply : Reply)
  | others (database : Database)

/-- Whether the batch itself takes the step. -/
def Label.own : Label → Bool
  | .begin | .call _ _ _ => true
  | .others _ => false

/-- One step.  The loop over the monitors ends at the first exception, the pool takes them all. -/
def step (batch : Batch) : Label → Option Batch
  | .begin =>
      match batch.waiting with
      | [] => none
      | monitor :: waiting =>
          if settings.workers ≤ batch.running.length ∨
              settings.isSequential = true ∧ batch.hasRaised = true then none
          else
            some { batch with
              waiting
              running := batch.running ++ [(monitor, .scanning)]
              attempted := batch.attempted ++ [monitor.id] }
  | .call position now reply =>
      match batch.running[position]? with
      | none => none
      | some (monitor, stage) =>
          (advance settings safeError now monitor batch.database stage reply).map
            fun (database, progress) =>
              batch.after position monitor database progress
  | .others database => some { batch with database }

/-- Nothing runs, and nothing begins any more. -/
def Over (batch : Batch) : Prop :=
  batch.running = [] ∧
    (batch.waiting = [] ∨ settings.isSequential = true ∧ batch.hasRaised = true)

/-! ## The due monitors -/

/-- `_in_backoff`. -/
def inBackoff (now : Int) (monitor : Monitor) : Bool :=
  monitor.metadata.backoffUntil.any fun backoffUntil => now < backoffUntil

/-- The due monitors once they are sorted out: the ones to run, and the results of those put off. -/
structure Plan where
  runnable : List Monitor
  putOff : List Item
  skippedBackoff : Nat

/-- What `process_due_monitors` does before its loop.  `resolverOk` is the answer of
`resolver_check_fn`, which is asked only for a batch that is not empty. -/
def plan (due : List Monitor) (now : Int) (resolverOk : Bool) : Plan :=
  let runnable := due.filter fun monitor => !inBackoff now monitor
  { runnable := if resolverOk then runnable else []
    putOff := if resolverOk then []
      else runnable.map fun monitor => itemOf monitor (.postponed .resolverDown none)
    skippedBackoff := (due.filter (inBackoff now)).length }

/-- The answer of `process_due_monitors` for a batch that is over. -/
def report (planned : Plan) (batch : Batch) : Except Text (List Item) :=
  batch.result.map fun items => planned.putOff ++ items

/-! ## Calls that are handled -/

/-- Whether a call is one that an exception of it does not leave the run: it is inside the `try`, or
it returns. -/
def Stage.handles (database : Database) : Stage → Reply → Bool
  | .scanning, _ | .succeeded _ _, _ => true
  | .storing event _, .returns => (database.monitors.find event.monitorId).isSome
  | _, .raises _ => false
  | _, _ => true

/-- No handler raises: it records and sends, and its monitor is still stored when it stores the
event. -/
def Handled (batch : Batch) (label : Label) (_ : Batch) : Prop :=
  match label with
  | .call position _ reply =>
      ∀ run ∈ batch.running[position]?, run.2.handles batch.database reply = true
  | .begin | .others _ => True

/-- Where a run goes, its results and events are those of its monitor. -/
def Stage.Belongs (id : MonitorId) : Stage → Prop
  | .storing event item => event.monitorId = id ∧ item.monitorId = id
  | .notifying item => item.monitorId = id
  | _ => True

def Progress.Belongs (id : MonitorId) : Progress → Prop
  | .at stage => stage.Belongs id
  | .done item => item.monitorId = id
  | .raised _ => True

/-- The calls a run still makes, at most. -/
def Stage.left : Stage → Nat
  | .scanning => 5
  | .succeeded _ _ => 4
  | .unavailable _ _ => 3
  | .failed _ => 3
  | .storing _ _ => 2
  | .notifying _ => 1

/-- The calls of a run after one of them. -/
def Progress.left : Progress → Nat
  | .at stage => stage.left
  | .done _ | .raised _ => 0

section Step

variable {settings safeError}

theorem belongs_postponeForDns (now : Int) (monitor : Monitor) (state : DnsState) (error : Text)
    (database : Database) :
    (postponeForDns settings now monitor state error database).2.Belongs monitor.id := by
  unfold postponeForDns
  cases state with
  | resolverDown => rfl
  | domainSilent =>
      dsimp only
      split
      · rfl
      · exact ⟨rfl, rfl⟩

theorem left_postponeForDns (now : Int) (monitor : Monitor) (state : DnsState) (error : Text)
    (database : Database) :
    (postponeForDns settings now monitor state error database).2.left ≤ 2 := by
  unfold postponeForDns
  cases state with
  | resolverDown => exact Nat.zero_le 2
  | domainSilent =>
      dsimp only
      split
      · exact Nat.zero_le 2
      · exact Nat.le_refl 2

theorem not_raised_postponeForDns (now : Int) (monitor : Monitor) (state : DnsState) (error : Text)
    (database : Database) (problem : Text) :
    (postponeForDns settings now monitor state error database).2 ≠ .raised problem := by
  unfold postponeForDns
  cases state with
  | resolverDown => simp
  | domainSilent =>
      dsimp only
      split <;> simp

/-- What a call does to its run: what it comes to is of the same monitor, fewer calls are left, and it
ends with an exception just where it is not handled. -/
theorem advance_spec {now : Int} {monitor : Monitor} {database next : Database} {stage : Stage}
    {reply : Reply} {progress : Progress} (belongs : stage.Belongs monitor.id)
    (taken : advance settings safeError now monitor database stage reply = some (next, progress)) :
    progress.Belongs monitor.id ∧ progress.left < stage.left ∧
      ((∃ problem, progress = .raised problem) ↔ stage.handles database reply = false) := by
  cases stage with
  | scanning =>
      cases reply <;> cases taken <;>
        simp [Progress.Belongs, Stage.Belongs, Progress.left, Stage.left, Stage.handles]
  | succeeded scanId eventType =>
      cases reply <;> cases taken <;>
        simp [Progress.Belongs, Stage.Belongs, Progress.left, Stage.left, Stage.handles, itemOf]
  | unavailable state error =>
      cases reply with
      | returns =>
          obtain rfl := congrArg Prod.snd (Option.some.inj taken)
          refine ⟨belongs_postponeForDns .., Nat.lt_of_le_of_lt (left_postponeForDns ..) ?_, ?_⟩
          · exact Nat.le_refl 3
          · simpa [Stage.handles] using not_raised_postponeForDns _ _ _ _ _
      | raises problem =>
          cases state <;> cases taken
          simp [Progress.Belongs, Progress.left, Stage.left, Stage.handles]
      | scanned _ _ => cases taken
      | dnsUnavailable _ _ => cases taken
  | failed error =>
      cases reply <;> cases taken <;>
        simp [Progress.Belongs, Stage.Belongs, Progress.left, Stage.left, Stage.handles, itemOf,
          scanFailed]
  | storing event item =>
      cases reply with
      | returns =>
          unfold advance Database.createMonitorEvent at taken
          cases found : database.monitors.find event.monitorId with
          | none =>
              simp only [found, Option.map_none, Option.some.injEq, Prod.mk.injEq] at taken
              obtain ⟨_, rfl⟩ := taken
              simp [Progress.Belongs, Progress.left, Stage.left, Stage.handles, found]
          | some row =>
              simp only [found, Option.map_some, Option.some.injEq, Prod.mk.injEq] at taken
              obtain ⟨_, rfl⟩ := taken
              simpa [Progress.Belongs, Stage.Belongs, Progress.left, Stage.left, Stage.handles, found]
                using belongs.2
      | raises problem =>
          cases taken
          simp [Progress.Belongs, Progress.left, Stage.left, Stage.handles]
      | scanned _ _ => cases taken
      | dnsUnavailable _ _ => cases taken
  | notifying item =>
      have own : item.monitorId = monitor.id := belongs
      cases reply <;> cases taken <;>
        simp [Progress.Belongs, Progress.left, Stage.left, Stage.handles, own]

/-! ## Steps and runs of a batch -/

theorem step_cases {batch next : Batch} {label : Label}
    (taken : step settings safeError batch label = some next) :
    (∃ monitor waiting, label = .begin ∧ batch.waiting = monitor :: waiting ∧
      ¬(settings.isSequential = true ∧ batch.hasRaised = true) ∧
      next = { batch with
        waiting
        running := batch.running ++ [(monitor, .scanning)]
        attempted := batch.attempted ++ [monitor.id] }) ∨
    (∃ position now reply monitor stage database progress, label = .call position now reply ∧
      batch.running[position]? = some (monitor, stage) ∧
      advance settings safeError now monitor batch.database stage reply = some (database, progress) ∧
      next = batch.after position monitor database progress) ∨
    ∃ database, label = .others database ∧ next = { batch with database } := by
  cases label with
  | begin =>
      unfold step at taken
      cases queue : batch.waiting with
      | nil => simp [queue] at taken
      | cons monitor waiting =>
          simp only [queue] at taken
          split at taken
          · cases taken
          · rename_i free
            exact .inl ⟨monitor, waiting, rfl, rfl, fun stopped => free (.inr stopped),
              (Option.some.inj taken).symm⟩
  | call position now reply =>
      unfold step at taken
      cases held : batch.running[position]? with
      | none => simp [held] at taken
      | some run =>
          obtain ⟨monitor, stage⟩ := run
          simp only [held] at taken
          obtain ⟨⟨database, progress⟩, called, rfl⟩ := Option.map_eq_some_iff.mp taken
          exact .inr (.inl ⟨position, now, reply, monitor, stage, database, progress, rfl, held, called,
            rfl⟩)
  | others database => exact .inr (.inr ⟨database, rfl, (Option.some.inj taken).symm⟩)

/-- Every monitor of the batch waits, runs or has ended, and what is kept of it names it. -/
structure Accounted (runnable : List Monitor) (batch : Batch) : Prop where
  begun : batch.attempted.Perm
    (batch.running.map (fun run => run.1.id) ++ batch.finished.map Prod.fst)
  all : batch.attempted ++ batch.waiting.map Monitor.id = runnable.map Monitor.id
  stages : ∀ run ∈ batch.running, run.2.Belongs run.1.id
  items : ∀ run ∈ batch.finished, ∀ item, run.2 = .ok item → item.monitorId = run.1

theorem accounted_start (database : Database) (runnable : List Monitor) :
    Accounted runnable (Batch.start database runnable) where
  begun := List.Perm.refl _
  all := rfl
  stages run member := by cases member
  items run member := by cases member

private theorem perm_of_getElem? {Value : Type*} {values : List Value} {position : Nat}
    {value : Value} (held : values[position]? = some value) :
    values.Perm (value :: values.eraseIdx position) := by
  obtain ⟨bound, rfl⟩ := List.getElem?_eq_some_iff.mp held
  exact (List.getElem_cons_eraseIdx_perm bound).symm

private theorem ids_set {running : List (Monitor × Stage)} {position : Nat} {monitor : Monitor}
    {stage other : Stage} (held : running[position]? = some (monitor, stage)) :
    (running.set position (monitor, other)).map (fun run => run.1.id) =
      running.map fun run => run.1.id := by
  obtain ⟨bound, same⟩ := List.getElem?_eq_some_iff.mp held
  rw [List.map_set]
  refine List.ext_getElem (by simp) fun index _ _ => ?_
  rw [List.getElem_set]
  split
  · rename_i here
    subst here
    simp [same]
  · rfl

private theorem accounted_end {runnable : List Monitor} {batch : Batch} {position : Nat}
    {monitor : Monitor} {stage : Stage} {outcome : Except Text Item} {database : Database}
    (accounted : Accounted runnable batch)
    (held : batch.running[position]? = some (monitor, stage))
    (belongs : ∀ item, outcome = .ok item → item.monitorId = monitor.id) :
    Accounted runnable
      { batch with
        database
        running := batch.running.eraseIdx position
        finished := batch.finished ++ [(monitor.id, outcome)] } where
  begun := by
    have first := (perm_of_getElem? held).map fun run : Monitor × Stage => run.1.id
    refine (accounted.begun.trans (first.append_right _)).trans ?_
    rw [List.map_append, ← List.append_assoc]
    exact (List.perm_append_singleton monitor.id _).symm
  all := accounted.all
  stages run member := accounted.stages run (List.mem_of_mem_eraseIdx member)
  items run member := by
    rcases List.mem_append.mp member with old | new
    · exact accounted.items run old
    · obtain rfl := List.mem_singleton.mp new
      exact belongs

theorem accounted_step {runnable : List Monitor} {batch next : Batch} {label : Label}
    (accounted : Accounted runnable batch)
    (taken : step settings safeError batch label = some next) : Accounted runnable next := by
  rcases step_cases taken with ⟨monitor, waiting, rfl, queue, _, rfl⟩ |
    ⟨position, now, reply, monitor, stage, database, progress, rfl, held, called, rfl⟩ |
    ⟨database, rfl, rfl⟩
  · refine ⟨?_, ?_, ?_, accounted.items⟩
    · rw [List.map_append, List.append_assoc]
      refine (accounted.begun.append_right [monitor.id]).trans ?_
      rw [List.append_assoc]
      exact List.perm_append_comm.append_left _
    · rw [List.append_assoc, ← accounted.all, queue]
      rfl
    · intro run member
      rcases List.mem_append.mp member with old | new
      · exact accounted.stages run old
      · rw [List.mem_singleton.mp new]
        trivial
  · have belongs := (advance_spec (accounted.stages _ (List.mem_of_getElem? held)) called).1
    cases progress with
    | «at» stage =>
        refine ⟨?_, accounted.all, ?_, accounted.items⟩
        · change batch.attempted.Perm (List.map _ (batch.running.set position _) ++ _)
          rw [ids_set held]
          exact accounted.begun
        · intro run member
          rcases List.mem_or_eq_of_mem_set member with old | rfl
          · exact accounted.stages run old
          · exact belongs
    | done item =>
        refine accounted_end accounted held fun other same => ?_
        obtain rfl := Except.ok.inj same
        exact belongs
    | raised problem => exact accounted_end accounted held fun other same => by cases same
  · exact ⟨accounted.begun, accounted.all, accounted.stages, accounted.items⟩

theorem hasRaised_step {runnable : List Monitor} {batch next : Batch} {label : Label}
    (accounted : Accounted runnable batch)
    (taken : step settings safeError batch label = some next) :
    next.hasRaised = false ↔ batch.hasRaised = false ∧ Handled batch label next := by
  rcases step_cases taken with ⟨monitor, waiting, rfl, _, _, rfl⟩ |
    ⟨position, now, reply, monitor, stage, database, progress, rfl, held, called, rfl⟩ |
    ⟨database, rfl, rfl⟩
  · exact (and_iff_left trivial).symm
  · obtain ⟨_, _, raises⟩ := advance_spec (accounted.stages _ (List.mem_of_getElem? held)) called
    have handled : ∀ next, Handled batch (.call position now reply) next ↔
        stage.handles batch.database reply = true := by simp [Handled, held]
    cases progress with
    | «at» after =>
        have inside : stage.handles batch.database reply = true := by
          rw [← Bool.not_eq_false, ← raises]
          simp
        exact (and_iff_left ((handled _).mpr inside)).symm
    | done item =>
        have inside : stage.handles batch.database reply = true := by
          rw [← Bool.not_eq_false, ← raises]
          simp
        have same : (batch.after position monitor database (.done item)).hasRaised =
            batch.hasRaised := by
          simp [Batch.after, Batch.hasRaised, Except.isOk, Except.toBool]
        rw [same]
        exact (and_iff_left ((handled _).mpr inside)).symm
    | raised problem =>
        have outside : stage.handles batch.database reply = false := raises.mp ⟨problem, rfl⟩
        have more : (batch.after position monitor database (.raised problem)).hasRaised = true := by
          simp [Batch.after, Batch.hasRaised, Except.isOk, Except.toBool]
        rw [more]
        refine iff_of_false (by simp) fun both => ?_
        have inside : stage.handles batch.database reply = true := (handled _).mp both.2
        rw [outside] at inside
        cases inside
  · exact (and_iff_left trivial).symm

theorem hasRaised_run {runnable : List Monitor} {batch final : Batch} {labels : List Label}
    (accounted : Accounted runnable batch)
    (execution : run (step settings safeError) batch labels = some final) :
    final.hasRaised = false ↔
      batch.hasRaised = false ∧ Along (step settings safeError) Handled batch labels := by
  induction labels generalizing batch with
  | nil =>
      obtain rfl := Option.some.inj execution
      exact (and_iff_left trivial).symm
  | cons label labels induction =>
      obtain ⟨next, taken, rest⟩ := run_cons_eq_some.mp execution
      rw [induction (accounted_step accounted taken) rest, hasRaised_step accounted taken, and_assoc]
      refine and_congr_right fun _ => ⟨fun later other same => ?_, fun along => along next taken⟩
      obtain rfl := Option.some.inj (taken.symm.trans same)
      exact later

theorem result_of_finished {batch : Batch} (clean : batch.hasRaised = false) :
    ∃ items, batch.result = .ok items ∧ batch.finished.map Prod.snd = items.map .ok := by
  unfold Batch.hasRaised at clean
  unfold Batch.result
  generalize batch.finished = finished at clean ⊢
  induction finished with
  | nil => exact ⟨[], rfl, rfl⟩
  | cons first rest induction =>
      rw [List.any_cons, Bool.or_eq_false_iff] at clean
      obtain ⟨items, result, same⟩ := induction clean.2
      obtain ⟨id, outcome⟩ := first
      cases outcome with
      | error problem => exact absurd clean.1 (by simp [Except.isOk, Except.toBool])
      | ok item =>
          refine ⟨item :: items, ?_, ?_⟩
          · rw [List.mapM_cons, result]
            rfl
          · rw [List.map_cons, same]
            rfl

theorem hasRaised_of_result {batch : Batch} {items : List Item} (result : batch.result = .ok items) :
    batch.hasRaised = false := by
  unfold Batch.result at result
  unfold Batch.hasRaised
  generalize batch.finished = finished at result ⊢
  induction finished generalizing items with
  | nil => rfl
  | cons first rest induction =>
      obtain ⟨id, outcome⟩ := first
      rw [List.mapM_cons] at result
      cases outcome with
      | error problem => cases result
      | ok item =>
          cases later : rest.mapM Prod.snd with
          | error problem =>
              rw [later] at result
              cases result
          | ok others => simpa [Except.isOk, Except.toBool] using induction later

/-! ## The end of a batch -/

/-- The calls a batch still makes, at most. -/
def Batch.left (batch : Batch) : Nat :=
  6 * batch.waiting.length + (batch.running.map fun run => run.2.left).sum

theorem left_step {runnable : List Monitor} {batch next : Batch} {label : Label}
    (accounted : Accounted runnable batch)
    (taken : step settings safeError batch label = some next) :
    next.left + (if label.own then 1 else 0) ≤ batch.left := by
  rcases step_cases taken with ⟨monitor, waiting, rfl, queue, _, rfl⟩ |
    ⟨position, now, reply, monitor, stage, database, progress, rfl, held, called, rfl⟩ |
    ⟨database, rfl, rfl⟩
  · simp only [Batch.left, queue, Label.own, List.map_append, List.sum_append, List.length_cons,
      List.map_cons, List.map_nil, List.sum_cons, List.sum_nil, Stage.left, if_true]
    omega
  · obtain ⟨_, fewer, _⟩ := advance_spec (accounted.stages _ (List.mem_of_getElem? held)) called
    have total : (batch.running.map fun run => run.2.left).sum =
        stage.left + ((batch.running.eraseIdx position).map fun run => run.2.left).sum :=
      ((perm_of_getElem? held).map fun run : Monitor × Stage => run.2.left).sum_nat
    cases progress with
    | «at» after =>
        have changed : ((batch.running.set position (monitor, after)).map
            fun run => run.2.left).sum =
            after.left + ((batch.running.eraseIdx position).map fun run => run.2.left).sum := by
          obtain ⟨bound, _⟩ := List.getElem?_eq_some_iff.mp held
          exact ((List.set_perm_cons_eraseIdx bound (monitor, after)).map
            fun run : Monitor × Stage => run.2.left).sum_nat
        simp only [Batch.left, Batch.after, Label.own, Progress.left, if_true] at fewer ⊢
        omega
    | done item =>
        simp only [Batch.left, Batch.after, Label.own, Progress.left, if_true] at fewer ⊢
        omega
    | raised problem =>
        simp only [Batch.left, Batch.after, Label.own, Progress.left, if_true] at fewer ⊢
        omega
  · exact Nat.le_refl _

theorem own_steps_le {runnable : List Monitor} {batch final : Batch} {labels : List Label}
    (accounted : Accounted runnable batch)
    (execution : run (step settings safeError) batch labels = some final) :
    (labels.filter Label.own).length ≤ batch.left := by
  induction labels generalizing batch with
  | nil => exact Nat.zero_le _
  | cons label labels induction =>
      obtain ⟨next, taken, rest⟩ := run_cons_eq_some.mp execution
      have later := induction (accounted_step accounted taken) rest
      have first := left_step accounted taken
      rw [List.filter_cons]
      cases own : label.own <;> simp only [own, if_true, if_false, Bool.false_eq_true,
        List.length_cons] at first ⊢ <;> omega

theorem advance_isSome (now : Int) (monitor : Monitor) (database : Database) (stage : Stage) :
    ∃ reply, (advance settings safeError now monitor database stage reply).isSome = true := by
  cases stage with
  | scanning => exact ⟨.raises [], rfl⟩
  | succeeded scanId eventType => exact ⟨.returns, rfl⟩
  | unavailable state error => exact ⟨.returns, rfl⟩
  | failed error => exact ⟨.returns, rfl⟩
  | storing event item => exact ⟨.raises [], rfl⟩
  | notifying item => exact ⟨.returns, rfl⟩

theorem exists_step {batch : Batch} (goes : ¬ Over settings batch) :
    ∃ label, label.own = true ∧ (step settings safeError batch label).isSome = true := by
  cases running : batch.running with
  | cons run runs =>
      obtain ⟨reply, accepted⟩ := @advance_isSome settings safeError 0 run.1 batch.database run.2
      refine ⟨.call 0 0 reply, rfl, ?_⟩
      simpa [step, running] using accepted
  | nil =>
      cases queue : batch.waiting with
      | nil => exact absurd ⟨running, .inl queue⟩ goes
      | cons monitor waiting =>
          refine ⟨.begin, rfl, ?_⟩
          have free : ¬(settings.workers ≤ batch.running.length ∨
              settings.isSequential = true ∧ batch.hasRaised = true) := by
            rintro (full | stopped)
            · rw [running] at full
              exact absurd full (by simp [Settings.workers])
            · exact goes ⟨running, .inr stopped⟩
          simp [step, queue, free]

/-- The results of a batch that raises nothing are those of the monitors that ended. -/
theorem ids_of_result {runnable : List Monitor} {batch : Batch} {items : List Item}
    (accounted : Accounted runnable batch)
    (same : batch.finished.map Prod.snd = items.map .ok) :
    items.map Item.monitorId = batch.finished.map Prod.fst := by
  have named := accounted.items
  generalize batch.finished = finished at named same ⊢
  induction finished generalizing items with
  | nil => rw [List.map_eq_nil_iff.mp same.symm]; rfl
  | cons entry finished induction =>
      cases items with
      | nil => cases same
      | cons item items =>
          obtain ⟨here, later⟩ := List.cons.inj same
          rw [List.map_cons, List.map_cons, named entry List.mem_cons_self item here,
            induction (fun other member => named other (List.mem_cons_of_mem _ member)) later]

/-- Where a batch is over and raised nothing, each of its monitors was attempted once and ended. -/
theorem perm_of_over {runnable : List Monitor} {batch : Batch} (accounted : Accounted runnable batch)
    (ended : Over settings batch) (clean : batch.hasRaised = false) :
    batch.attempted = runnable.map Monitor.id ∧
      (batch.finished.map Prod.fst).Perm (runnable.map Monitor.id) := by
  have nothing : batch.waiting = [] := ended.2.resolve_right fun stopped => by
    rw [clean] at stopped
    exact absurd stopped.2 (by decide)
  have all := accounted.all
  have begun := accounted.begun
  rw [nothing, List.map_nil, List.append_nil] at all
  rw [ended.1, List.map_nil, List.nil_append] at begun
  exact ⟨all, all ▸ begun.symm⟩

end Step

/-- Every monitor to be run is attempted once, and each due monitor that is not in backoff has one
result. -/
structure Whole (due : List Monitor) (now : Int) (resolverOk : Bool) (batch : Batch) : Prop where
  attempted : batch.attempted.Perm ((plan due now resolverOk).runnable.map Monitor.id)
  answered : ∃ items, report (plan due now resolverOk) batch = .ok items ∧
    (items.map Item.monitorId).Perm
      ((due.filter fun monitor => !inBackoff now monitor).map Monitor.id)

/-- The monitors put off and those to be run are the due ones that are not in backoff. -/
theorem ids_plan (due : List Monitor) (now : Int) (resolverOk : Bool) :
    (plan due now resolverOk).putOff.map Item.monitorId ++
        (plan due now resolverOk).runnable.map Monitor.id =
      (due.filter fun monitor => !inBackoff now monitor).map Monitor.id := by
  cases resolverOk <;> simp [plan, itemOf, Function.comp_def]

def sample (id : MonitorId) : Monitor where
  id
  target := "example.org".toList
  metadata :=
    { consecutiveFailures := 0, backoffUntil := none, dnsRetries := 0, dnsUnansweredSince := none,
      lastError := none, lastFailedAt := none }
  nextScanAt := some 0
  scheduleMinutes := some 1440
  scanTime := none
  scanTz := none

/-- Settings that run one monitor at a time. -/
def oneByOne : Settings where
  concurrency := 1
  failureBackoffMinutes := 15
  maxConsecutiveFailures := 8
  dnsRetryMinutes := 15
  dnsMaxRetries := 4

def succeeding : List Label :=
  [.begin, .call 0 0 (.scanned 7 "scan_unchanged".toList), .call 0 0 .returns]

end Monitors
end DomainLens
