import DomainLens.Library.Run
import DomainLens.Library.Table
import DomainLens.Python.Text
import Mathlib

/-!
# The baselines of a monitor

A run of a monitor compares its scan with the baseline of the row it was given, and makes the scan
the baseline afterwards.  Runs overlap, and the row may have been read long before.
-/

namespace DomainLens
namespace Monitors
namespace Baseline

open Python Run

abbrev ScanId := Nat

/-! ## Scans and events -/

/-- The columns of a monitor its runs read and write. -/
structure Row where
  lastScanId : Option ScanId
  lastStateHash : Option Text
deriving DecidableEq

inductive EventType where
  | baselineCreated
  | scanChanged
  | scanUnchanged
deriving DecidableEq

/-- What a scan is compared by: `_monitor_state_hash`, `monitor_changes` and
`_watched_record_transition`. -/
structure Comparison (Results : Type*) where
  stateHash : Results → Text
  changes : Results → Results → Bool
  recordTransition : Option Results → Results → Bool

/-- An event of a run, before it has its scan; `compared` is the scan it compares with. -/
structure Outcome where
  eventType : EventType
  compared : Option ScanId
deriving DecidableEq

variable {Results : Type*} (comparison : Comparison Results)

/-- `_monitor_event_from_results`. -/
def monitorEventFromResults (row : Row) (results : Results)
    (previousRecord : Option (ScanId × Results)) : Outcome :=
  match row.lastStateHash with
  | none => { eventType := .baselineCreated, compared := none }
  | some previousHash =>
      let differs := match previousRecord with
        | some previous => comparison.changes previous.2 results
        | none => previousHash ≠ comparison.stateHash results
      let transition := comparison.recordTransition (previousRecord.map Prod.snd) results
      { eventType := if differs || transition then .scanChanged else .scanUnchanged
        compared := previousRecord.map Prod.fst }

/-! ## Runs of one monitor -/

/-- Where a run is: what it does next. -/
inductive Stage (Results : Type*) where
  /-- The checks. -/
  | scanning
  /-- `save_scan`, the event being made. -/
  | saving (results : Results) (event : Outcome)
  /-- `mark_monitor_scanned`. -/
  | marking (scanId : ScanId) (hash : Text) (event : Outcome)
  /-- The new `last_state_hash`. -/
  | hashing (scanId : ScanId) (hash : Text) (event : Outcome)
  /-- `create_monitor_event`. -/
  | storing (scanId : ScanId) (event : Outcome)

/-- A run with the row it was given. -/
structure Task (Results : Type*) where
  given : Row
  stage : Stage Results

/-- The tables as far as they concern the monitor, with its runs and the scans that were its baseline,
in order. -/
structure State (Results : Type*) where
  row : Row
  scans : Table (Prod.fst : ScanId × Results → ScanId)
  lastScan : ScanId
  issued : ∀ scan ∈ scans.rows, scan.1 ≤ lastScan
  events : List (ScanId × Outcome)
  tasks : List (Task Results)
  baselines : List ScanId

namespace State

def start : State Results where
  row := { lastScanId := none, lastStateHash := none }
  scans := Table.empty
  lastScan := 0
  issued := by simp [Table.empty]
  events := []
  tasks := []
  baselines := []

/-- `save_scan`. -/
def save (state : State Results) (results : Results) : State Results :=
  { state with
    scans := state.scans.insert (state.lastScan + 1, results) (by
      rw [Table.find_eq_none]
      intro scan member same
      have known := state.issued scan member
      rw [same] at known
      exact absurd known (Nat.not_succ_le_self _))
    lastScan := state.lastScan + 1
    issued := by
      intro scan member
      rcases List.mem_append.mp member with old | new
      · exact Nat.le_succ_of_le (state.issued scan old)
      · rw [List.mem_singleton.mp new] }

/-- The scan a row has as its baseline. -/
def getScan (state : State Results) (row : Row) : Option (ScanId × Results) :=
  row.lastScanId.bind state.scans.find

end State

/-- What happens next: a run is given the row as it is, its checks end or fail, or it makes its next
write. -/
inductive Label (Results : Type*) where
  | give
  | scanned (position : Nat) (results : Results)
  | failed (position : Nat)
  | write (position : Nat)

/-- The next write of a run, with the run after it, unless that was its last. -/
def advance (state : State Results) :
    Stage Results → Option (State Results × Option (Stage Results))
  | .scanning => none
  | .saving results event =>
      some (state.save results,
        some (.marking (state.lastScan + 1) (comparison.stateHash results) event))
  | .marking scanId hash event =>
      some ({ state with
          row := { state.row with lastScanId := some scanId }
          baselines := state.baselines ++ [scanId] },
        some (.hashing scanId hash event))
  | .hashing scanId hash event =>
      some ({ state with row := { state.row with lastStateHash := some hash } },
        some (.storing scanId event))
  | .storing scanId event => some ({ state with events := state.events ++ [(scanId, event)] }, none)

def step (state : State Results) : Label Results → Option (State Results)
  | .give => some { state with tasks := state.tasks ++ [{ given := state.row, stage := .scanning }] }
  | .scanned position results =>
      match state.tasks[position]? with
      | some { given, stage := .scanning } =>
          let event := monitorEventFromResults comparison given results (state.getScan given)
          some { state with
            tasks := state.tasks.set position { given, stage := .saving results event } }
      | _ => none
  | .failed position =>
      match state.tasks[position]? with
      | some { stage := .scanning, .. } =>
          some { state with tasks := state.tasks.eraseIdx position }
      | _ => none
  | .write position =>
      match state.tasks[position]? with
      | none => none
      | some task =>
          (advance comparison state task.stage).map fun (next, stage) =>
            match stage with
            | some stage =>
                { next with tasks := state.tasks.set position { task with stage } }
            | none => { next with tasks := state.tasks.eraseIdx position }

/-! ## What the events are to be -/

/-- Each baseline with the one before it. -/
def replaced (baselines : List ScanId) : List (ScanId × Option ScanId) :=
  baselines.zip (none :: baselines.map some)

/-- The scan of an event with the one it compares with. -/
def pairOf (event : ScanId × Outcome) : ScanId × Option ScanId := (event.1, event.2.compared)

/-- The event that compares a scan with the one before it. -/
def eventOf (scans : Table (Prod.fst : ScanId × Results → ScanId))
    (pair : ScanId × Option ScanId) : ScanId × Outcome :=
  (pair.1,
    { eventType := match pair.2.bind scans.find, scans.find pair.1 with
        | some before, some after =>
            if comparison.changes before.2 after.2 ||
                comparison.recordTransition (some before.2) after.2 then .scanChanged
            else .scanUnchanged
        | _, _ => .baselineCreated
      compared := pair.2 })

/-- One event for each baseline, which compares it with the baseline before. -/
def due (state : State Results) : List (ScanId × Outcome) :=
  (replaced state.baselines).map (eventOf comparison state.scans)

/-- No run is between its scan and its event. -/
def Quiet (state : State Results) : Prop := ∀ task ∈ state.tasks, ∃ given, task = ⟨given, .scanning⟩

/-- A run that is to make its scan the baseline was given the baseline the row has, with its hash. -/
def UpToDate (row : Row) (task : Task Results) : Prop :=
  ∀ scanId hash event, task.stage = .marking scanId hash event →
    task.given.lastScanId = row.lastScanId ∧ (task.given.lastStateHash = none → row.lastScanId = none)

/-- A run makes its scan the baseline only of the row it was given. -/
def Current (state : State Results) (label : Label Results) (_ : State Results) : Prop :=
  match label with
  | .write position => ∀ task ∈ state.tasks[position]?, UpToDate state.row task
  | _ => True

/-! ## What a step keeps -/

/-- The scan that is to become the baseline. -/
def Task.waiting (task : Task Results) : List ScanId :=
  match task.stage with
  | .marking scanId _ _ => [scanId]
  | _ => []

/-- The event of a scan that is the baseline already. -/
def Task.pending (task : Task Results) : List (ScanId × Outcome) :=
  match task.stage with
  | .hashing scanId _ event | .storing scanId event => [(scanId, event)]
  | _ => []

/-- The events of the baselines, stored or pending. -/
def reports (state : State Results) (tasks : List (Task Results)) : List (ScanId × Outcome) :=
  state.events ++ tasks.flatMap Task.pending

/-- The scans that are to become the baseline and those that were. -/
def known (state : State Results) (tasks : List (Task Results)) : List ScanId :=
  tasks.flatMap Task.waiting ++ state.baselines

/-- The event of a run is made from the row it was given. -/
def Made (state : State Results) (task : Task Results) : Prop :=
  match task.stage with
  | .scanning => True
  | .saving results event =>
      event = monitorEventFromResults comparison task.given results (state.getScan task.given)
  | .marking scanId _ event | .hashing scanId _ event | .storing scanId event =>
      ∃ results, state.scans.find scanId = some (scanId, results) ∧
        event = monitorEventFromResults comparison task.given results (state.getScan task.given)

/-- What every step keeps, of a state with its runs in any order. -/
structure Consistent (state : State Results) (tasks : List (Task Results)) : Prop where
  last : state.row.lastScanId = state.baselines.getLast?
  hashed : state.row.lastStateHash ≠ none → state.row.lastScanId ≠ none
  held : ∀ task ∈ tasks, ∀ scanId ∈ task.given.lastScanId, scanId ∈ state.baselines
  given : ∀ task ∈ tasks, task.given.lastStateHash ≠ none → task.given.lastScanId ≠ none
  distinct : (known state tasks).Nodup
  saved : ∀ scanId ∈ known state tasks, ∃ results, state.scans.find scanId = some (scanId, results)
  made : ∀ task ∈ tasks, Made comparison state task
  reported : ((reports state tasks).map Prod.fst).Perm state.baselines

variable {comparison} {state next : State Results} {tasks rest : List (Task Results)}
  {task : Task Results}

theorem Consistent.perm {others : List (Task Results)} (holds : Consistent comparison state tasks)
    (same : tasks.Perm others) : Consistent comparison state others where
  last := holds.last
  hashed := holds.hashed
  held task member := holds.held task (same.mem_iff.mpr member)
  given task member := holds.given task (same.mem_iff.mpr member)
  distinct := ((same.flatMap_right _).append_right _).nodup_iff.mp holds.distinct
  saved scanId member := holds.saved scanId
    (((same.flatMap_right _).append_right _).mem_iff.mpr member)
  made task member := holds.made task (same.mem_iff.mpr member)
  reported := (((same.flatMap_right _).append_left _).map _).symm.trans holds.reported

theorem Consistent.withTasks (others : List (Task Results))
    (holds : Consistent comparison state tasks) :
    Consistent comparison { state with tasks := others } tasks where
  last := holds.last
  hashed := holds.hashed
  held := holds.held
  given := holds.given
  distinct := holds.distinct
  saved := holds.saved
  made := holds.made
  reported := holds.reported

theorem Consistent.tail (holds : Consistent comparison state (task :: rest))
    (idle : task.pending = []) : Consistent comparison state rest where
  last := holds.last
  hashed := holds.hashed
  held task member := holds.held task (List.mem_cons_of_mem _ member)
  given task member := holds.given task (List.mem_cons_of_mem _ member)
  distinct := by
    have distinct := holds.distinct
    rw [known, List.flatMap_cons, List.append_assoc] at distinct
    exact (List.nodup_append.mp distinct).2.1
  saved scanId member := holds.saved scanId (by
    rw [known, List.flatMap_cons, List.append_assoc]
    exact List.mem_append_right _ member)
  made task member := holds.made task (List.mem_cons_of_mem _ member)
  reported := by
    have reported := holds.reported
    rwa [reports, List.flatMap_cons, idle, List.nil_append] at reported

theorem Consistent.cons (holds : Consistent comparison state rest)
    (held : ∀ scanId ∈ task.given.lastScanId, scanId ∈ state.baselines)
    (given : task.given.lastStateHash ≠ none → task.given.lastScanId ≠ none)
    (made : Made comparison state task) (unmarked : task.waiting = []) (idle : task.pending = []) :
    Consistent comparison state (task :: rest) where
  last := holds.last
  hashed := holds.hashed
  held := List.forall_mem_cons.mpr ⟨held, holds.held⟩
  given := List.forall_mem_cons.mpr ⟨given, holds.given⟩
  distinct := by simpa [known, unmarked] using holds.distinct
  saved := by simpa [known, unmarked] using holds.saved
  made := List.forall_mem_cons.mpr ⟨made, holds.made⟩
  reported := by simpa [reports, idle] using holds.reported

theorem Consistent.give (holds : Consistent comparison state tasks) :
    Consistent comparison state (⟨state.row, .scanning⟩ :: tasks) :=
  holds.cons (fun _ member => List.mem_of_getLast? (holds.last ▸ member)) holds.hashed trivial
    rfl rfl

theorem Consistent.scanned {given : Row} {results : Results}
    (holds : Consistent comparison state (⟨given, .scanning⟩ :: rest)) :
    Consistent comparison state
      (⟨given, .saving results
        (monitorEventFromResults comparison given results (state.getScan given))⟩ :: rest) :=
  (holds.tail rfl).cons (List.forall_mem_cons.mp holds.held).1
    (List.forall_mem_cons.mp holds.given).1 rfl rfl rfl

/-! ## The writes of a run -/

theorem State.find_save {results : Results} {scanId : ScanId} {scan : ScanId × Results}
    (found : state.scans.find scanId = some scan) :
    (state.save results).scans.find scanId = some scan := by
  have issued := state.issued scan (Table.mem_of_find found)
  rw [Table.key_of_find found] at issued
  rw [save, Table.find_insert, if_neg (Nat.ne_of_lt (Nat.lt_succ_of_le issued)), found]

theorem Consistent.getScan_save {results : Results} (holds : Consistent comparison state tasks)
    (member : task ∈ tasks) : (state.save results).getScan task.given = state.getScan task.given := by
  cases given : task.given.lastScanId with
  | none => simp [State.getScan, given]
  | some scanId =>
      obtain ⟨results, found⟩ := holds.saved scanId
        (List.mem_append_right _ (holds.held task member scanId given))
      simp only [State.getScan, given, Option.bind_some, found, State.find_save found]

theorem Consistent.made_save {results : Results} (holds : Consistent comparison state tasks)
    (member : task ∈ tasks) : Made comparison (state.save results) task := by
  have made := holds.made task member
  unfold Made at made ⊢
  rw [holds.getScan_save member]
  split
  · trivial
  · simp_all
  all_goals
    rename_i stage
    rw [stage] at made
    obtain ⟨results, found, event⟩ := made
    exact ⟨results, State.find_save found, event⟩

/-- `save_scan`. -/
theorem Consistent.save {given : Row} {results : Results} {event : Outcome} {hash : Text}
    (holds : Consistent comparison state (⟨given, .saving results event⟩ :: rest)) :
    Consistent comparison (state.save results)
      (⟨given, .marking (state.lastScan + 1) hash event⟩ :: rest) where
  last := holds.last
  hashed := holds.hashed
  held := List.forall_mem_cons.mpr (List.forall_mem_cons.mp holds.held)
  given := List.forall_mem_cons.mpr (List.forall_mem_cons.mp holds.given)
  distinct := by
    refine List.nodup_cons.mpr ⟨?_, holds.distinct⟩
    intro member
    obtain ⟨results, found⟩ := holds.saved _ member
    exact absurd (state.issued _ (Table.mem_of_find found)) (Nat.not_succ_le_self _)
  saved := by
    refine List.forall_mem_cons.mpr ⟨⟨results, ?_⟩, fun scanId member => ?_⟩
    · rw [State.save, Table.find_insert, if_pos rfl]
    · obtain ⟨results, found⟩ := holds.saved scanId member
      exact ⟨results, State.find_save found⟩
  made := by
    refine List.forall_mem_cons.mpr ⟨⟨results, ?_, ?_⟩, fun task member =>
      holds.made_save (List.mem_cons_of_mem _ member)⟩
    · rw [State.save, Table.find_insert, if_pos rfl]
    · rw [show (state.save results).getScan given = state.getScan given from
        holds.getScan_save List.mem_cons_self]
      exact holds.made _ List.mem_cons_self
  reported := holds.reported

private theorem known_mark {given : Row} {scanId : ScanId} {hash : Text} {event : Outcome} {row : Row}
    (state : State Results) :
    (known { state with row, baselines := state.baselines ++ [scanId] }
      (⟨given, .hashing scanId hash event⟩ :: rest)).Perm
      (known state (⟨given, .marking scanId hash event⟩ :: rest)) := by
  have same : known { state with row, baselines := state.baselines ++ [scanId] }
      (⟨given, .hashing scanId hash event⟩ :: rest) = known state rest ++ [scanId] := by
    simp [known, Task.waiting]
  rw [same]
  exact List.perm_append_singleton scanId _

/-- `mark_monitor_scanned`. -/
theorem Consistent.mark {given : Row} {scanId : ScanId} {hash : Text} {event : Outcome}
    (holds : Consistent comparison state (⟨given, .marking scanId hash event⟩ :: rest)) :
    Consistent comparison
      { state with
        row := { state.row with lastScanId := some scanId }
        baselines := state.baselines ++ [scanId] }
      (⟨given, .hashing scanId hash event⟩ :: rest) where
  last := by simp
  hashed _ := by simp
  held := by
    refine List.forall_mem_cons.mpr ?_
    have held := List.forall_mem_cons.mp holds.held
    exact ⟨fun _ member => List.mem_append_left _ (held.1 _ member),
      fun task joined _ member => List.mem_append_left _ (held.2 task joined _ member)⟩
  given := List.forall_mem_cons.mpr (List.forall_mem_cons.mp holds.given)
  distinct := (known_mark state).nodup_iff.mpr holds.distinct
  saved other member := holds.saved other ((known_mark state).mem_iff.mp member)
  made := by
    obtain ⟨made, others⟩ := List.forall_mem_cons.mp holds.made
    exact List.forall_mem_cons.mpr ⟨made, others⟩
  reported := by
    refine List.Perm.trans ?_ ((holds.reported.cons scanId).trans
      (List.perm_append_singleton scanId _).symm)
    simp only [reports, List.flatMap_cons, Task.pending, List.nil_append, List.map_append,
      List.map_cons, List.map_nil]
    exact List.perm_middle

/-- The new `last_state_hash`. -/
theorem Consistent.hash {given : Row} {scanId : ScanId} {hash : Text} {event : Outcome}
    (holds : Consistent comparison state (⟨given, .hashing scanId hash event⟩ :: rest)) :
    Consistent comparison { state with row := { state.row with lastStateHash := some hash } }
      (⟨given, .storing scanId event⟩ :: rest) where
  last := holds.last
  hashed _ := by
    have marked : scanId ∈ state.baselines := holds.reported.mem_iff.mp (by simp [reports, Task.pending])
    rw [holds.last]
    simpa using List.ne_nil_of_mem marked
  held := List.forall_mem_cons.mpr (List.forall_mem_cons.mp holds.held)
  given := List.forall_mem_cons.mpr (List.forall_mem_cons.mp holds.given)
  distinct := holds.distinct
  saved := holds.saved
  made := by
    obtain ⟨made, others⟩ := List.forall_mem_cons.mp holds.made
    exact List.forall_mem_cons.mpr ⟨made, others⟩
  reported := holds.reported

/-- `create_monitor_event`. -/
theorem Consistent.store {given : Row} {scanId : ScanId} {event : Outcome}
    (holds : Consistent comparison state (⟨given, .storing scanId event⟩ :: rest)) :
    Consistent comparison { state with events := state.events ++ [(scanId, event)] } rest where
  last := holds.last
  hashed := holds.hashed
  held := (List.forall_mem_cons.mp holds.held).2
  given := (List.forall_mem_cons.mp holds.given).2
  distinct := holds.distinct
  saved := holds.saved
  made := (List.forall_mem_cons.mp holds.made).2
  reported := by simpa [reports, Task.pending] using holds.reported

theorem Consistent.advance {after : State Results} {stage : Option (Stage Results)}
    (holds : Consistent comparison state (task :: rest))
    (written : advance comparison state task.stage = some (after, stage)) :
    Consistent comparison after ((stage.map fun stage => { task with stage }).toList ++ rest) := by
  obtain ⟨given, stage⟩ := task
  cases stage with
  | scanning => simp [Baseline.advance] at written
  | saving results event => obtain ⟨rfl, rfl⟩ := written; exact holds.save
  | marking scanId hash event => obtain ⟨rfl, rfl⟩ := written; exact holds.mark
  | hashing scanId hash event => obtain ⟨rfl, rfl⟩ := written; exact holds.hash
  | storing scanId event => obtain ⟨rfl, rfl⟩ := written; exact holds.store

/-! ## Steps -/

/-- What a step does to the run it is about and to the tables. -/
inductive Moved (comparison : Comparison Results) (state : State Results) :
    Option (Task Results) → State Results → Option (Task Results) → Prop
  | given : Moved comparison state none state (some ⟨state.row, .scanning⟩)
  | scanned (given : Row) (results : Results) :
      Moved comparison state (some ⟨given, .scanning⟩) state
        (some ⟨given, .saving results
          (monitorEventFromResults comparison given results (state.getScan given))⟩)
  | failed (given : Row) : Moved comparison state (some ⟨given, .scanning⟩) state none
  | written (given : Row) {stage : Stage Results} {after : State Results}
      {later : Option (Stage Results)}
      (written : advance comparison state stage = some (after, later)) :
      Moved comparison state (some ⟨given, stage⟩) after (later.map (Task.mk given))

theorem step_moved {label : Label Results} (taken : step comparison state label = some next) :
    ∃ before after later rest, Moved comparison state before after later ∧
      state.tasks.Perm (before.toList ++ rest) ∧ next.tasks.Perm (later.toList ++ rest) ∧
      next = { after with tasks := next.tasks } ∧
      (Current state label next ↔ ∀ task ∈ before, UpToDate state.row task) := by
  cases label with
  | give =>
      obtain rfl := Option.some.inj taken
      exact ⟨none, state, _, state.tasks, .given, .refl _, List.perm_append_comm, rfl,
        by simp [Current]⟩
  | scanned position results =>
      simp only [step] at taken
      split at taken
      · rename_i given found
        obtain ⟨bound, here⟩ := List.getElem?_eq_some_iff.mp found
        obtain rfl := Option.some.inj taken
        exact ⟨_, state, _, _, .scanned given results,
          here ▸ (List.getElem_cons_eraseIdx_perm bound).symm, List.set_perm_cons_eraseIdx bound _,
          rfl, by simp [Current, UpToDate]⟩
      · simp at taken
  | failed position =>
      simp only [step] at taken
      split at taken
      · rename_i given found
        obtain ⟨bound, here⟩ := List.getElem?_eq_some_iff.mp found
        obtain rfl := Option.some.inj taken
        exact ⟨_, state, _, _, .failed given, here ▸ (List.getElem_cons_eraseIdx_perm bound).symm,
          .refl _, rfl, by simp [Current, UpToDate]⟩
      · simp at taken
  | write position =>
      simp only [step] at taken
      split at taken
      · simp at taken
      · rename_i task found
        obtain ⟨bound, here⟩ := List.getElem?_eq_some_iff.mp found
        obtain ⟨⟨after, later⟩, written, rfl⟩ := Option.map_eq_some_iff.mp taken
        refine ⟨_, after, _, state.tasks.eraseIdx position, .written task.given written,
          here ▸ (List.getElem_cons_eraseIdx_perm bound).symm, ?_, ?_, by simp [Current, found]⟩
        · cases later with
          | none => exact .refl _
          | some stage => exact List.set_perm_cons_eraseIdx bound _
        · cases later <;> rfl

theorem Moved.consistent {before later : Option (Task Results)} {after : State Results}
    (moved : Moved comparison state before after later)
    (holds : Consistent comparison state (before.toList ++ rest)) :
    Consistent comparison after (later.toList ++ rest) := by
  cases moved with
  | given => exact holds.give
  | scanned given results => exact holds.scanned
  | failed given => exact holds.tail rfl
  | written given written => exact holds.advance written

theorem step_consistent {label : Label Results}
    (holds : Consistent comparison state state.tasks)
    (taken : step comparison state label = some next) :
    Consistent comparison next next.tasks := by
  obtain ⟨before, after, later, rest, moved, here, there, written, -⟩ := step_moved taken
  rw [written]
  exact ((moved.consistent (holds.perm here)).perm there.symm).withTasks next.tasks

theorem start_consistent : Consistent comparison (State.start : State Results) [] where
  last := rfl
  hashed := by simp [State.start]
  held := by simp
  given := by simp
  distinct := by simp [known, State.start]
  saved := by simp [known, State.start]
  made := by simp
  reported := by simp [reports, State.start]

/-! ## Baselines and their events -/

private theorem zip_append_singleton (baselines : List ScanId) (scanId : ScanId)
    (first : Option ScanId) :
    (baselines ++ [scanId]).zip (first :: (baselines ++ [scanId]).map some) =
      baselines.zip (first :: baselines.map some) ++
        [(scanId, (baselines.getLast?.map some).getD first)] := by
  induction baselines generalizing first with
  | nil => simp
  | cons head baselines induction =>
      simp only [List.cons_append, List.map_cons, List.zip_cons_cons]
      rw [induction (some head), List.getLast?_cons]
      cases baselines.getLast? <;> simp

theorem replaced_append (baselines : List ScanId) (scanId : ScanId) :
    replaced (baselines ++ [scanId]) = replaced baselines ++ [(scanId, baselines.getLast?)] := by
  rw [replaced, zip_append_singleton, replaced]
  cases baselines.getLast? <;> simp

theorem map_fst_replaced (baselines : List ScanId) :
    (replaced baselines).map Prod.fst = baselines :=
  List.map_fst_zip (by simp)

theorem map_pairOf_due (state : State Results) :
    (due comparison state).map pairOf = replaced state.baselines := by
  simp only [due, List.map_map]
  exact List.map_id _

theorem due_congr {state after : State Results} (same : after.baselines = state.baselines)
    (found : ∀ scanId ∈ state.baselines, after.scans.find scanId = state.scans.find scanId) :
    due comparison after = due comparison state := by
  rw [due, due, same]
  refine List.map_congr_left fun pair member => ?_
  obtain ⟨first, second⟩ := List.of_mem_zip member
  have left := found pair.1 first
  have right : pair.2.bind after.scans.find = pair.2.bind state.scans.find := by
    cases previous : pair.2 with
    | none => rfl
    | some scanId => exact found scanId (by simpa [previous] using second)
  rw [eventOf, eventOf, left, right]

/-- A run compares with the scan of the row it was given, once that has a hash. -/
theorem Consistent.getScan_given (holds : Consistent comparison state tasks) (member : task ∈ tasks) :
    (state.getScan task.given).map Prod.fst = task.given.lastScanId := by
  cases previous : task.given.lastScanId with
  | none => simp [State.getScan, previous]
  | some scanId =>
      obtain ⟨results, found⟩ := holds.saved scanId
        (List.mem_append_right _ (holds.held task member scanId previous))
      simp [State.getScan, previous, found]

theorem Consistent.event_eq {given : Row} {scanId : ScanId} {hash : Text} {event : Outcome}
    (holds : Consistent comparison state (⟨given, .marking scanId hash event⟩ :: rest))
    (current : UpToDate state.row (⟨given, .marking scanId hash event⟩ : Task Results)) :
    (scanId, event) = eventOf comparison state.scans (scanId, state.baselines.getLast?) := by
  obtain ⟨same, hashless⟩ := current scanId hash event rfl
  obtain ⟨results, found, made⟩ := holds.made _ List.mem_cons_self
  have earlier := holds.getScan_given List.mem_cons_self
  simp only at made same hashless earlier
  rw [← holds.last, ← same, made]
  simp only [monitorEventFromResults, eventOf, found]
  cases hash : given.lastStateHash with
  | none => simp [same, hashless hash]
  | some previousHash =>
      have present := holds.given _ List.mem_cons_self (by simp [hash])
      obtain ⟨before, read⟩ : ∃ before, state.getScan given = some before := by
        rw [← Option.ne_none_iff_exists']
        intro absent
        simp [absent] at earlier
        exact present earlier.symm
      rw [earlier, read]
      have bound : given.lastScanId.bind state.scans.find = some before := read
      simp [bound]

theorem Consistent.compared_ne {given : Row} {scanId : ScanId} {hash : Text} {event : Outcome}
    (holds : Consistent comparison state (⟨given, .marking scanId hash event⟩ :: rest))
    (stale : ¬UpToDate state.row (⟨given, .marking scanId hash event⟩ : Task Results)) :
    event.compared ≠ state.baselines.getLast? := by
  obtain ⟨results, found, made⟩ := holds.made _ List.mem_cons_self
  have earlier := holds.getScan_given List.mem_cons_self
  have held := holds.held _ List.mem_cons_self
  simp only at made earlier held
  intro same
  rw [made, monitorEventFromResults] at same
  rw [UpToDate, holds.last] at stale
  refine stale fun _ _ _ _ => ?_
  cases hash : given.lastStateHash with
  | none =>
      simp only [hash] at same
      refine ⟨?_, fun _ => same.symm⟩
      have empty : state.baselines = [] := List.getLast?_eq_none_iff.mp same.symm
      cases previous : given.lastScanId with
      | none => exact same
      | some scanId => simpa [empty] using held scanId previous
  | some previousHash =>
      simp only [hash] at same
      exact ⟨earlier ▸ same, by simp⟩

/-- A step makes a scan the baseline, its event still to come, or leaves baselines and events. -/
theorem Moved.effect {before later : Option (Task Results)} {after : State Results}
    (moved : Moved comparison state before after later)
    (holds : Consistent comparison state (before.toList ++ rest)) :
    (after.baselines = state.baselines ∧ due comparison after = due comparison state ∧
        reports after (later.toList ++ rest) = reports state (before.toList ++ rest) ∧
        ∀ task ∈ before, UpToDate state.row task) ∨
      ∃ given scanId hash event, before = some ⟨given, .marking scanId hash event⟩ ∧
        after.baselines = state.baselines ++ [scanId] ∧
        due comparison after =
          due comparison state ++ [eventOf comparison state.scans (scanId, state.baselines.getLast?)] ∧
        (reports after (later.toList ++ rest)).Perm
          ((scanId, event) :: reports state (before.toList ++ rest)) := by
  cases moved with
  | given => exact .inl ⟨rfl, rfl, rfl, by simp⟩
  | scanned given results => exact .inl ⟨rfl, rfl, rfl, by simp [UpToDate]⟩
  | failed given => exact .inl ⟨rfl, rfl, rfl, by simp [UpToDate]⟩
  | @written given stage _ _ written =>
      cases stage with
      | scanning => simp [advance] at written
      | saving results event =>
          obtain ⟨rfl, rfl⟩ := written
          refine .inl ⟨rfl, due_congr rfl fun scanId member => ?_, rfl, by simp [UpToDate]⟩
          obtain ⟨results, found⟩ := holds.saved scanId (List.mem_append_right _ member)
          rw [State.find_save found, found]
      | marking scanId hash event =>
          obtain ⟨rfl, rfl⟩ := written
          refine .inr ⟨given, scanId, hash, event, rfl, rfl, ?_, ?_⟩
          · simp [due, replaced_append]
          · simp only [reports]
            exact List.perm_middle
      | hashing scanId hash event =>
          obtain ⟨rfl, rfl⟩ := written
          exact .inl ⟨rfl, rfl, rfl, by simp [UpToDate]⟩
      | storing scanId event =>
          obtain ⟨rfl, rfl⟩ := written
          refine .inl ⟨rfl, rfl, ?_, by simp [UpToDate]⟩
          simp [reports, Task.pending]

theorem step_due {label : Label Results} (holds : Consistent comparison state state.tasks)
    (told : (reports state state.tasks).Perm (due comparison state))
    (taken : step comparison state label = some next) (current : Current state label next) :
    (reports next next.tasks).Perm (due comparison next) := by
  obtain ⟨before, after, later, rest, moved, here, there, written, upToDate⟩ := step_moved taken
  have reordered : (reports state (before.toList ++ rest)).Perm (due comparison state) :=
    ((here.symm.flatMap_right _).append_left _).trans told
  have sameReports : (reports next next.tasks).Perm (reports after (later.toList ++ rest)) := by
    rw [written]
    exact (there.flatMap_right _).append_left _
  have sameDue : due comparison next = due comparison after := by rw [written]; rfl
  rw [sameDue]
  refine sameReports.trans ?_
  have holds := holds.perm here
  rcases moved.effect holds with ⟨-, due, reports, -⟩ | ⟨given, scanId, hash, event, rfl, -, due, reports⟩
  · rw [due, reports]
    exact reordered
  · have event_eq := Consistent.event_eq holds (upToDate.mp current _ rfl)
    rw [due, ← event_eq]
    exact reports.trans ((reordered.cons _).trans (List.perm_append_singleton _ _).symm)

/-- An event compares a baseline with a scan that was not the one before it. -/
def Mismatched (state : State Results) (tasks : List (Task Results)) : Prop :=
  ∃ scanId compared previous, (scanId, compared) ∈ (reports state tasks).map pairOf ∧
    (scanId, previous) ∈ replaced state.baselines ∧ compared ≠ previous

theorem Moved.mismatched {before later : Option (Task Results)} {after : State Results}
    (moved : Moved comparison state before after later)
    (holds : Consistent comparison state (before.toList ++ rest))
    (wrong : Mismatched state (before.toList ++ rest) ∨ ¬∀ task ∈ before, UpToDate state.row task) :
    Mismatched after (later.toList ++ rest) := by
  rcases moved.effect holds with
    ⟨baselines, -, reports, current⟩ | ⟨given, scanId, hash, event, rfl, baselines, -, reports⟩
  · have wrong := wrong.resolve_right (not_not_intro current)
    rwa [Mismatched, baselines, reports]
  · rw [Mismatched, baselines, replaced_append]
    rcases wrong with ⟨other, compared, previous, told, chained, different⟩ | stale
    · refine ⟨other, compared, previous, ?_, List.mem_append_left _ chained, different⟩
      exact (reports.map pairOf).mem_iff.mpr (List.mem_cons_of_mem _ told)
    · refine ⟨scanId, event.compared, state.baselines.getLast?, ?_,
        List.mem_append_right _ List.mem_cons_self, ?_⟩
      · exact (reports.map pairOf).mem_iff.mpr List.mem_cons_self
      · exact Consistent.compared_ne holds fun upToDate => stale (by simpa using upToDate)

theorem step_mismatched {label : Label Results} (holds : Consistent comparison state state.tasks)
    (taken : step comparison state label = some next)
    (wrong : Mismatched state state.tasks ∨ ¬Current state label next) :
    Mismatched next next.tasks := by
  obtain ⟨before, after, later, rest, moved, here, there, written, upToDate⟩ := step_moved taken
  have reordered : Mismatched state (before.toList ++ rest) ∨
      ¬∀ task ∈ before, UpToDate state.row task := by
    rw [← upToDate]
    refine wrong.imp_left ?_
    rintro ⟨scanId, compared, previous, told, rest⟩
    exact ⟨scanId, compared, previous,
      (((here.flatMap_right _).append_left _).map pairOf).mem_iff.mp told, rest⟩
  obtain ⟨scanId, compared, previous, told, chained, different⟩ :=
    moved.mismatched (holds.perm here) reordered
  rw [written]
  exact ⟨scanId, compared, previous,
    (((there.flatMap_right _).append_left _).map pairOf).mem_iff.mpr told, chained, different⟩

theorem Consistent.not_mismatched (holds : Consistent comparison state state.tasks)
    (told : (reports state state.tasks).Perm (due comparison state)) :
    ¬Mismatched state state.tasks := by
  rintro ⟨scanId, compared, previous, event, chained, different⟩
  have listed : (scanId, compared) ∈ replaced state.baselines := by
    rw [← @map_pairOf_due _ comparison]
    exact (told.map pairOf).mem_iff.mp event
  have distinct : ((replaced state.baselines).map Prod.fst).Nodup := by
    rw [map_fst_replaced]
    exact (List.nodup_append.mp holds.distinct).2.1
  exact different (congrArg Prod.snd (List.inj_on_of_nodup_map distinct listed chained rfl))

/-! ## Whole runs -/

theorem run_due {labels : List (Label Results)} {final : State Results}
    (current : Along (step comparison) Current State.start labels)
    (execution : run (step comparison) State.start labels = some final) :
    (reports final final.tasks).Perm (due comparison final) :=
  (@run_guarded _ _ _
    (fun state => Consistent comparison state state.tasks ∧
      (reports state state.tasks).Perm (due comparison state))
    Current
    (fun _ _ _ holds taken current =>
      ⟨step_consistent holds.1 taken, step_due holds.1 holds.2 taken current⟩)
    _ _ _ ⟨start_consistent, .refl _⟩ current execution).2

/-- A run after which every event is as due has made no scan the baseline of another row. -/
theorem along_current {labels : List (Label Results)} {state final : State Results}
    (holds : Consistent comparison state state.tasks)
    (execution : run (step comparison) state labels = some final)
    (told : (reports final final.tasks).Perm (due comparison final)) :
    Along (step comparison) Current state labels := by
  induction labels generalizing state with
  | nil => trivial
  | cons label labels induction =>
      intro next taken
      obtain ⟨_, same, rest⟩ := run_cons_eq_some.mp execution
      obtain rfl := Option.some.inj (taken.symm.trans same)
      have kept := step_consistent holds taken
      refine ⟨?_, induction kept rest⟩
      by_contra stale
      have wrong := step_mismatched holds taken (.inr stale)
      have final_wrong := @run_invariant _ _ _
        (fun state => Consistent comparison state state.tasks ∧ Mismatched state state.tasks)
        (fun _ _ _ holds taken =>
          ⟨step_consistent holds.1 taken, step_mismatched holds.1 taken (.inl holds.2)⟩)
        _ _ _ ⟨kept, wrong⟩ rest
      exact final_wrong.1.not_mismatched told final_wrong.2

theorem Quiet.reports_eq (quiet : Quiet state) : reports state state.tasks = state.events := by
  have none_pending : state.tasks.flatMap Task.pending = [] := by
    rw [List.flatMap_eq_nil_iff]
    intro task member
    obtain ⟨given, rfl⟩ := quiet task member
    rfl
  rw [reports, none_pending, List.append_nil]

/-- As long as runs make their scans the baseline only of the row they were given, the events are
among those due, each told once; and when no run is between its scan and its event, the events are
those due exactly if the runs did so. -/
theorem events_due_iff (comparison : Comparison Results) {labels : List (Label Results)}
    {final : State Results} (execution : run (step comparison) State.start labels = some final) :
    (Along (step comparison) Current State.start labels →
        final.events.Subperm (due comparison final)) ∧
      (Quiet final →
        (final.events.Perm (due comparison final) ↔
          Along (step comparison) Current State.start labels)) := by
  refine ⟨fun current => ?_, fun quiet => ?_⟩
  · exact (List.sublist_append_left _ _).subperm.trans (run_due current execution).subperm
  · rw [← quiet.reports_eq]
    exact ⟨along_current start_consistent execution, fun current => run_due current execution⟩

/-! ## Two runs at once -/

/-- Results that are their own hash, and change with it. -/
def byText : Comparison Text where
  stateHash results := results
  changes before after := before ≠ after
  recordTransition _ _ := false

/-- A first run, then two of one row: one sees the change, the other as well. -/
def overlapping : List (Label Text) :=
  let whole : List (Label Text) := [.write 0, .write 0, .write 0, .write 0]
  [.give, .scanned 0 "a".toList] ++ whole ++
    [.give, .give, .scanned 0 "b".toList, .scanned 1 "b".toList] ++ whole ++ whole

private theorem quiet_of_nil (done : state.tasks = []) : Quiet state := by
  simp [Quiet, done]

/-- Two runs of one row tell one change twice, and the step between their scans not at all. -/
theorem overlapping_events :
    ∃ final, run (step byText) State.start overlapping = some final ∧ Quiet final ∧
      final.events.map pairOf = [(1, none), (2, some 1), (3, some 1)] ∧
      due byText final = [(1, ⟨.baselineCreated, none⟩), (2, ⟨.scanChanged, some 1⟩),
        (3, ⟨.scanUnchanged, some 2⟩)] ∧
      ¬final.events.Perm (due byText final) :=
  ⟨_, rfl, quiet_of_nil rfl, rfl, by decide, by decide⟩

def successive : List (Label Text) :=
  let whole : List (Label Text) := [.write 0, .write 0, .write 0, .write 0]
  [.give, .scanned 0 "a".toList] ++ whole ++ [.give, .scanned 0 "b".toList] ++ whole

theorem successive_current :
    ∃ final, run (step byText) State.start successive = some final ∧
      final.events.Perm (due byText final) ∧
      Along (step byText) Current State.start successive :=
  have told : ∃ final, run (step byText) State.start successive = some final ∧ Quiet final ∧
      final.events.Perm (due byText final) := ⟨_, rfl, quiet_of_nil rfl, by decide⟩
  told.imp fun _ ⟨execution, quiet, events⟩ =>
    ⟨execution, events, ((events_due_iff byText execution).2 quiet).mp events⟩

end Baseline
end Monitors
end DomainLens
