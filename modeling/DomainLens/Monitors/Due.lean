import DomainLens.Monitors.Batch
import Mathlib

/-!
# The monitors a call takes

A call asks the table for the monitors that are enabled and due, the longest due first and no more
than its limit, and leaves out those in backoff.  How many it runs is settled by where the monitors
in backoff stand in that order.
-/

namespace DomainLens
namespace Monitors

open Python Run

/-! ## The query -/

/-- A row of `monitors` with the columns the query reads. -/
structure Stored extends Monitor where
  enabled : Bool
  createdAt : Int

/-- `next_scan_at IS NULL, next_scan_at ASC, created_at DESC`. -/
def comesBefore (first second : Stored) : Bool :=
  match first.nextScanAt, second.nextScanAt with
  | some early, some late => early < late || early == late && second.createdAt ≤ first.createdAt
  | some _, none => true
  | none, some _ => false
  | none, none => second.createdAt ≤ first.createdAt

/-- `next_scan_at IS NOT NULL AND next_scan_at <= ?`. -/
def isDue (asked : Int) (row : Stored) : Bool := row.nextScanAt.any fun planned => planned ≤ asked

/-- The rows of `list_monitors` in order, before its limit. -/
def orderedMonitors (rows : List Stored) (enabled : Option Bool) (dueOnly : Bool) (asked : Int) :
    List Stored :=
  ((rows.filter fun row => enabled.all (· == row.enabled)).filter fun row =>
    !dueOnly || isDue asked row).mergeSort comesBefore

/-- `LIMIT`: a negative one is none. -/
def limited {Value : Type*} (limit : Int) (values : List Value) : List Value :=
  if limit < 0 then values else values.take limit.toNat

def beyond {Value : Type*} (limit : Int) (values : List Value) : List Value :=
  if limit < 0 then [] else values.drop limit.toNat

def upTo (limit : Int) (number : Nat) : Nat := if limit < 0 then number else min limit.toNat number

/-- `list_monitors`. -/
def listMonitors (rows : List Stored) (enabled : Option Bool) (dueOnly : Bool) (asked limit : Int) :
    List Stored :=
  limited limit (orderedMonitors rows enabled dueOnly asked)

/-- `limit or max_monitors_per_run`. -/
def batchLimit (limit : Option Int) (maxMonitorsPerRun : Int) : Int :=
  (limit.filter (· ≠ 0)).getD maxMonitorsPerRun

/-- The monitors a call of `process_due_monitors` takes from the table. -/
def dueMonitors (rows : List Stored) (asked limit : Int) : List Monitor :=
  (listMonitors rows (some true) true asked limit).map Stored.toMonitor

/-! ## How many are run -/

def isReady (asked now : Int) (row : Stored) : Bool :=
  row.enabled && isDue asked row && !inBackoff now row.toMonitor

/-- As many as there are monitors ready, up to the limit. -/
def wanted (rows : List Stored) (asked now limit : Int) : Nat :=
  upTo limit (rows.filter (isReady asked now)).length

/-- No monitor in backoff is among the first due ones, or none that is not comes after them. -/
def Fits (rows : List Stored) (asked now limit : Int) : Prop :=
  (∀ row ∈ limited limit (orderedMonitors rows (some true) true asked),
    inBackoff now row.toMonitor = false) ∨
  ∀ row ∈ beyond limit (orderedMonitors rows (some true) true asked),
    inBackoff now row.toMonitor = true

/-- Where the monitors run one after another, no handler raises as long as monitors wait. -/
def Unbroken (settings : Settings) (batch : Batch) (label : Label) (next : Batch) : Prop :=
  settings.isSequential = true → batch.waiting ≠ [] → Handled batch label next

/-- What the first values have of a kind is all there is, up to their number, just where they have
nothing else or the values after them have none of it. -/
theorem length_filter_take_eq_min_iff {Value : Type*} (values : List Value) (count : Nat)
    (kind : Value → Bool) :
    ((values.take count).filter kind).length = min count (values.filter kind).length ↔
      (∀ value ∈ values.take count, kind value = true) ∨
        ∀ value ∈ values.drop count, kind value = false := by
  have split : (values.filter kind).length =
      ((values.take count).filter kind).length + ((values.drop count).filter kind).length := by
    rw [← List.length_append, ← List.filter_append, List.take_append_drop]
  have width : (values.take count).length = min count values.length := List.length_take
  have few := List.length_filter_le kind (values.take count)
  have fewer := List.length_filter_le kind (values.drop count)
  rw [List.length_drop] at fewer
  have absent : (∀ value ∈ values.drop count, kind value = false) ↔
      ((values.drop count).filter kind).length = 0 := by
    rw [List.length_eq_zero_iff, List.filter_eq_nil_iff]
    simp only [Bool.not_eq_true]
  rw [← List.length_filter_eq_length_iff, absent, split]
  omega

/-- The monitors that are ready are those the query gives that are not in backoff. -/
theorem perm_filter_isReady (rows : List Stored) (asked now : Int) :
    ((orderedMonitors rows (some true) true asked).filter
        fun row => !inBackoff now row.toMonitor).Perm
      (rows.filter (isReady asked now)) := by
  refine ((List.mergeSort_perm _ comesBefore).filter _).trans ?_
  rw [List.filter_filter, List.filter_filter]
  refine List.Perm.of_eq (List.filter_congr fun row _ => ?_)
  cases enabled : row.enabled <;> simp [isReady, enabled, Bool.and_comm]

private theorem length_runnable (rows : List Stored) (asked now limit : Int) :
    (plan (dueMonitors rows asked limit) now true).runnable.length =
      ((limited limit (orderedMonitors rows (some true) true asked)).filter
        fun row => !inBackoff now row.toMonitor).length := by
  simp [plan, dueMonitors, listMonitors, List.filter_map, Function.comp_def]

/-- The monitors a call runs, when nothing stops it, are as many as are wanted just where they
fit. -/
theorem length_runnable_iff (rows : List Stored) (asked now limit : Int) :
    (plan (dueMonitors rows asked limit) now true).runnable.length =
        wanted rows asked now limit ↔ Fits rows asked now limit := by
  have ready := (perm_filter_isReady rows asked now).length_eq
  rw [length_runnable, wanted, ← ready, Fits]
  unfold limited beyond upTo
  split
  · simp
  · rw [length_filter_take_eq_min_iff]
    simp only [Bool.not_eq_true', Bool.not_eq_false']

theorem length_runnable_le (rows : List Stored) (asked now limit : Int) :
    (plan (dueMonitors rows asked limit) now true).runnable.length ≤
      wanted rows asked now limit := by
  have ready := (perm_filter_isReady rows asked now).length_eq
  rw [length_runnable, wanted, ← ready]
  unfold limited upTo
  split
  · exact Nat.le_refl _
  · refine Nat.le_min.mpr ⟨(List.length_filter_le _ _).trans (List.length_take_le _ _), ?_⟩
    exact (List.Sublist.filter _ (List.take_sublist _ _)).length_le

/-! ## The loop -/

variable {settings : Settings} {safeError : Text → Text}

/-- No exception has ended the loop before its monitors. -/
def Unstopped (settings : Settings) (batch : Batch) : Prop :=
  settings.isSequential = true → batch.hasRaised = true → batch.waiting = []

theorem unstopped_step {runnable : List Monitor} {batch next : Batch} {label : Label}
    (accounted : Accounted runnable batch)
    (taken : step settings safeError batch label = some next) :
    Unstopped settings next ↔ Unstopped settings batch ∧ Unbroken settings batch label next := by
  have raised := hasRaised_step accounted taken
  rcases step_cases taken with ⟨monitor, waiting, rfl, queue, free, rfl⟩ |
    ⟨position, now, reply, monitor, stage, database, progress, rfl, held, called, rfl⟩ |
    ⟨database, rfl, rfl⟩
  · refine iff_of_true (fun sequential isRaised => ?_)
      ⟨fun sequential isRaised => ?_, fun _ _ => trivial⟩
    · exact absurd ⟨sequential, isRaised⟩ free
    · exact absurd ⟨sequential, isRaised⟩ free
  · have same : (batch.after position monitor database progress).waiting = batch.waiting := by
      cases progress <;> rfl
    unfold Unstopped Unbroken
    rw [same]
    by_cases sequential : settings.isSequential = true
    · by_cases empty : batch.waiting = []
      · simp [empty]
      · rw [← Bool.not_eq_true, ← Bool.not_eq_true] at raised
        simpa [sequential, empty] using raised
    · simp [sequential]
  · exact ⟨fun unstopped => ⟨unstopped, fun _ _ => trivial⟩, And.left⟩

theorem unstopped_run {runnable : List Monitor} {batch final : Batch} {labels : List Label}
    (accounted : Accounted runnable batch)
    (execution : run (step settings safeError) batch labels = some final) :
    Unstopped settings final ↔
      Unstopped settings batch ∧
        Along (step settings safeError) (Unbroken settings) batch labels := by
  induction labels generalizing batch with
  | nil =>
      obtain rfl := Option.some.inj execution
      exact (and_iff_left trivial).symm
  | cons label labels induction =>
      obtain ⟨next, taken, rest⟩ := run_cons_eq_some.mp execution
      rw [induction (accounted_step accounted taken) rest, unstopped_step accounted taken,
        and_assoc]
      refine and_congr_right fun _ => ⟨fun later other same => ?_, fun along => along next taken⟩
      obtain rfl := Option.some.inj (taken.symm.trans same)
      exact later

/-- In a batch that is over every monitor was attempted just where nothing stopped its loop. -/
theorem length_attempted_iff {runnable : List Monitor} {batch : Batch}
    (accounted : Accounted runnable batch) (ended : Over settings batch) :
    batch.attempted.length = runnable.length ↔ Unstopped settings batch := by
  have all := congrArg List.length accounted.all
  simp only [List.length_append, List.length_map] at all
  have none : batch.attempted.length = runnable.length ↔ batch.waiting = [] := by
    rw [← List.length_eq_zero_iff]
    omega
  rw [none]
  constructor
  · exact fun empty _ _ => empty
  · intro unstopped
    rcases ended.2 with empty | stopped
    · exact empty
    · exact unstopped stopped.1 stopped.2

/-- A monitor in backoff until a moment, long due. -/
def backedOff (id : MonitorId) (moment : Int) : Stored where
  toMonitor := { sample id with
    metadata := { (sample id).metadata with backoffUntil := some moment } }
  enabled := true
  createdAt := 0

def waitingOne (id : MonitorId) : Stored where
  toMonitor := { sample id with nextScanAt := some 1 }
  enabled := true
  createdAt := 0

private theorem ordered_pair :
    orderedMonitors [backedOff 1 9, waitingOne 2] (some true) true 5 =
      [backedOff 1 9, waitingOne 2] :=
  List.mergeSort_of_pairwise (by simp [comesBefore, isDue, backedOff, waitingOne, sample])

end Monitors
end DomainLens
