import DomainLens.Library.Run
import DomainLens.Python.Text
import Mathlib

/-!
# The pace of registry lookups

A lookup reserves a slot of a server under a lock and waits for it outside; an answer that asks for
more time moves the next free slot of its server.  The file embeds the lookups of any number of
threads and settles what the slots keep of both.
-/

namespace DomainLens
namespace WhoisBatch

open Python Run

/-! ## Lookups -/

/-- The seconds between two requests to a server, and the longest a server may ask for. -/
structure Pacing where
  interval : ℚ
  maxRetryAfter : ℚ
  nonneg : 0 ≤ interval

/-- One call of `lookup_paced`: the server of its registry, that of the fallback, and whether there
is a fallback at all. -/
structure Lookup where
  server : Text
  whois : Text
  hasFallback : Bool
deriving DecidableEq

inductive Turn where
  | first
  | second
  | fallback
deriving DecidableEq

def Lookup.serverAt (lookup : Lookup) : Turn → Text
  | .first | .second => lookup.server
  | .fallback => lookup.whois

/-- What an answer says: the seconds of `retry_after`, and whether the domain is still without a
result. -/
structure Answer where
  retryAfter : Option ℚ
  unmeasured : Bool
deriving DecidableEq

inductive Phase where
  /-- It calls `wait`. -/
  | asking (lookup : Lookup) (turn : Turn)
  /-- It sleeps until its slot. -/
  | waiting (lookup : Lookup) (turn : Turn) (slot : ℚ)
  /-- Its request is out. -/
  | released (lookup : Lookup) (turn : Turn)
  /-- It calls `hold`. -/
  | holding (lookup : Lookup) (turn : Turn) (seconds : ℚ)
  | finished
deriving DecidableEq

/-- After an answer: a `retry_after` is held, else the fallback is asked where there is one. -/
def Phase.answered (lookup : Lookup) (turn : Turn) (answer : Answer) : Phase :=
  match turn, answer.retryAfter.filter (· ≠ 0) with
  | .fallback, _ => .finished
  | turn, some seconds => .holding lookup turn seconds
  | _, none =>
      if answer.unmeasured ∧ lookup.hasFallback then .asking lookup .fallback else .finished

/-- After a `hold`: one more try, and no fallback after the second. -/
def Phase.held (lookup : Lookup) : Turn → Phase
  | .first => .asking lookup .second
  | .second | .fallback => .finished

/-! ## The pacer and its threads -/

/-- A request that was released, or a moment before which a server is not to be asked again. -/
inductive Event where
  | request (server : Text) (moment : ℚ)
  | note (server : Text) (moment : ℚ)
deriving DecidableEq

/-- The clock, the next free slot of each server and the lookups.  `history` records what happened,
the latest first. -/
structure State where
  clock : ℚ
  next : Text → ℚ
  threads : List Phase
  history : List Event

def State.start (clock : ℚ) : State where
  clock
  next _ := 0
  threads := []
  history := []

/-- The atomic steps: time passes, a lookup begins, and what a lookup does next. -/
inductive Label where
  | tick (later : ℚ)
  | begin (lookup : Lookup)
  | reserve (thread : Nat)
  | release (thread : Nat)
  | answer (thread : Nat) (answer : Answer)
  | raise (thread : Nat)
  | hold (thread : Nat)
deriving DecidableEq

/-- The server and the slot a thread sleeps for. -/
def Phase.slotOf : Phase → Option (Text × ℚ)
  | .waiting lookup turn slot => some (lookup.serverAt turn, slot)
  | _ => none

/-- A thread that sleeps does so until a moment or beyond. -/
def Phase.sleepsTo (moment : ℚ) (phase : Phase) : Bool :=
  phase.slotOf.all fun taken => moment ≤ taken.2

variable (pacing : Pacing)

/-- The locked part of `wait`. -/
def reserveSlot (state : State) (thread : Nat) (lookup : Lookup) (turn : Turn) : State :=
  let server := lookup.serverAt turn
  let slot := max state.clock (state.next server)
  { state with
    next := Function.update state.next server (slot + pacing.interval)
    threads := state.threads.set thread (.waiting lookup turn slot) }

/-- The locked part of `hold`, for as many seconds as the server may ask for. -/
def noteHold (state : State) (thread : Nat) (lookup : Lookup) (turn : Turn) (seconds : ℚ) :
    State :=
  let server := lookup.serverAt turn
  let moment := state.clock + min seconds pacing.maxRetryAfter
  { state with
    next := Function.update state.next server (max (state.next server) moment)
    threads := state.threads.set thread (.held lookup turn)
    history := .note server moment :: state.history }

/-- One step.  Time does not pass the slot of a thread that sleeps. -/
def step (state : State) : Label → Option State
  | .tick later =>
      if state.clock ≤ later ∧ state.threads.all (Phase.sleepsTo later) then
        some { state with clock := later }
      else none
  | .begin lookup => some { state with threads := state.threads ++ [.asking lookup .first] }
  | .reserve thread =>
      match state.threads[thread]? with
      | some (.asking lookup turn) => some (reserveSlot pacing state thread lookup turn)
      | _ => none
  | .release thread =>
      match state.threads[thread]? with
      | some (.waiting lookup turn slot) =>
          if slot = state.clock then
            some { state with
              threads := state.threads.set thread (.released lookup turn)
              history := .request (lookup.serverAt turn) slot :: state.history }
          else none
      | _ => none
  | .answer thread answer =>
      match state.threads[thread]? with
      | some (.released lookup turn) =>
          some { state with threads := state.threads.set thread (.answered lookup turn answer) }
      | _ => none
  | .raise thread =>
      match state.threads[thread]? with
      | some (.released _ _) =>
          some { state with threads := state.threads.set thread .finished }
      | _ => none
  | .hold thread =>
      match state.threads[thread]? with
      | some (.holding lookup turn seconds) =>
          some (noteHold pacing state thread lookup turn seconds)
      | _ => none

/-! ## What is agreed -/

/-- A request comes an interval after an earlier one to its server, and not before a moment that was
noted earlier for it. -/
def Follows : Event → Event → Prop
  | .request server moment, .request other earlier =>
      server = other → earlier + pacing.interval ≤ moment
  | .request server moment, .note other earlier => server = other → earlier ≤ moment
  | .note _ _, _ => True

/-- The servers were asked at the agreed pace. -/
def Agreed (state : State) : Prop := state.history.Pairwise (Follows pacing)

/-- A thread that sleeps for a slot of a server does so until a moment or beyond. -/
def Phase.waitsBeyond (server : Text) (moment : ℚ) (phase : Phase) : Bool :=
  phase.slotOf.all fun taken => taken.1 ≠ server || moment ≤ taken.2

/-- The server and the moment a step notes. -/
def Label.note (state : State) : Label → Option (Text × ℚ)
  | .hold thread =>
      match state.threads[thread]? with
      | some (.holding lookup turn seconds) =>
          some (lookup.serverAt turn, state.clock + min seconds pacing.maxRetryAfter)
      | _ => none
  | _ => none

/-- When more time is noted for a server, no thread already has a slot of it before that moment. -/
def Clear (state : State) (label : Label) (_ : State) : Prop :=
  (label.note pacing state).all
    (fun note => state.threads.all (Phase.waitsBeyond note.1 note.2)) = true

instance : DecidableRel (Follows pacing)
  | .request server _, .request other _ => inferInstanceAs (Decidable (server = other → _ ≤ _))
  | .request server _, .note other _ => inferInstanceAs (Decidable (server = other → _ ≤ _))
  | .note _ _, _ => .isTrue trivial

instance (state : State) : Decidable (Agreed pacing state) :=
  inferInstanceAs (Decidable (state.history.Pairwise (Follows pacing)))

instance : ∀ state label next, Decidable (Clear pacing state label next) := fun _ _ _ =>
  inferInstanceAs (Decidable (_ = true))

/-! ## The invariant -/

/-- An event leaves its server free from a moment on. -/
def Event.freeFrom : Event → Text × ℚ
  | .request server moment => (server, moment + pacing.interval)
  | .note server moment => (server, moment)

/-- The slot a thread sleeps for, by its place. -/
def slotAt (threads : List Phase) (thread : Nat) : Option (Text × ℚ) :=
  threads[thread]?.bind Phase.slotOf

/-- The slots that are taken or free come after everything that happened, and the slots threads
sleep for are apart. -/
structure Paced (state : State) : Prop where
  agreed : Agreed pacing state
  free : ∀ event ∈ state.history,
    (event.freeFrom pacing).2 ≤ state.next (event.freeFrom pacing).1
  ahead : ∀ thread server slot, slotAt state.threads thread = some (server, slot) →
    state.clock ≤ slot
  taken : ∀ thread server slot, slotAt state.threads thread = some (server, slot) →
    slot + pacing.interval ≤ state.next server
  after : ∀ thread server slot, slotAt state.threads thread = some (server, slot) →
    ∀ event ∈ state.history, (event.freeFrom pacing).1 = server →
      (event.freeFrom pacing).2 ≤ slot
  apart : ∀ thread other server slot slot', thread ≠ other →
    slotAt state.threads thread = some (server, slot) →
    slotAt state.threads other = some (server, slot') →
    slot + pacing.interval ≤ slot' ∨ slot' + pacing.interval ≤ slot

variable {pacing}

theorem follows_iff {server : Text} {moment : ℚ} {event : Event} :
    Follows pacing (.request server moment) event ↔
      ((event.freeFrom pacing).1 = server → (event.freeFrom pacing).2 ≤ moment) := by
  cases event <;> simp [Follows, Event.freeFrom, eq_comm]

theorem paced_start (clock : ℚ) : Paced pacing (State.start clock) where
  agreed := List.Pairwise.nil
  free event member := by cases member
  ahead thread server slot found := by cases found
  taken thread server slot found := by cases found
  after thread server slot found := by cases found
  apart thread other server slot slot' differ found := by cases found

theorem slotAt_set (threads : List Phase) (thread other : Nat) (phase : Phase) :
    slotAt (threads.set thread phase) other =
      if thread = other then (threads[thread]?.bind fun _ => phase.slotOf)
      else slotAt threads other := by
  unfold slotAt
  by_cases same : thread = other
  · subst same
    rw [if_pos rfl, List.getElem?_set_self']
    cases threads[thread]? <;> rfl
  · rw [if_neg same, List.getElem?_set_ne same]

/-- The slots that threads sleep for after one that wakes or does not sleep has moved on. -/
theorem slotAt_set_awake {threads : List Phase} {thread other : Nat} {phase : Phase}
    (awake : phase.slotOf = none) {taken : Text × ℚ}
    (found : slotAt (threads.set thread phase) other = some taken) :
    thread ≠ other ∧ slotAt threads other = some taken := by
  rw [slotAt_set] at found
  split at found
  · simp [awake] at found
  · rename_i differ
    exact ⟨differ, found⟩

/-- Where only a thread that does not sleep changes, the slots stay as they are. -/
theorem Paced.set_awake {state : State} (paced : Paced pacing state) (thread : Nat) {phase : Phase}
    (awake : phase.slotOf = none) :
    Paced pacing { state with threads := state.threads.set thread phase } where
  agreed := paced.agreed
  free := paced.free
  ahead other server slot found :=
    paced.ahead other server slot (slotAt_set_awake awake found).2
  taken other server slot found :=
    paced.taken other server slot (slotAt_set_awake awake found).2
  after other server slot found :=
    paced.after other server slot (slotAt_set_awake awake found).2
  apart thread other server slot slot' differ found found' :=
    paced.apart thread other server slot slot' differ (slotAt_set_awake awake found).2
      (slotAt_set_awake awake found').2

theorem Paced.reserve {state : State} (paced : Paced pacing state) (thread : Nat)
    (lookup : Lookup) (turn : Turn) : Paced pacing (reserveSlot pacing state thread lookup turn) := by
  have nonneg := pacing.nonneg
  set server := lookup.serverAt turn with isServer
  set slot := max state.clock (state.next server) with isSlot
  have fresh : state.next server ≤ slot := le_max_right _ _
  have grows (other : Text) :
      state.next other ≤ (reserveSlot pacing state thread lookup turn).next other := by
    by_cases same : other = server
    · rw [same]
      simp only [reserveSlot, ← isServer, Function.update_self]
      linarith
    · simp [reserveSlot, ← isServer, Function.update_of_ne same]
  have moved {other : Nat} {found : Text} {moment : ℚ}
      (isTaken : slotAt (reserveSlot pacing state thread lookup turn).threads other =
        some (found, moment)) :
      (found = server ∧ moment = slot ∧ other = thread) ∨
        (thread ≠ other ∧ slotAt state.threads other = some (found, moment)) := by
    simp only [reserveSlot, slotAt_set] at isTaken
    split at isTaken
    · rename_i same
      cases held : state.threads[thread]? with
      | none => simp [held] at isTaken
      | some phase =>
          simp only [held, Option.bind_some, Phase.slotOf, Option.some.injEq,
            Prod.mk.injEq] at isTaken
          exact .inl ⟨isTaken.1.symm, isTaken.2.symm, same.symm⟩
    · rename_i differ
      exact .inr ⟨differ, isTaken⟩
  refine ⟨paced.agreed, fun event member => (paced.free event member).trans (grows _), ?_, ?_, ?_,
    ?_⟩
  · intro other found moment isTaken
    rcases moved isTaken with ⟨-, rfl, -⟩ | ⟨-, old⟩
    · exact le_max_left _ _
    · exact paced.ahead other found moment old
  · intro other found moment isTaken
    rcases moved isTaken with ⟨rfl, rfl, -⟩ | ⟨-, old⟩
    · simp [reserveSlot, ← isServer, ← isSlot]
    · exact (paced.taken other found moment old).trans (grows found)
  · intro other found moment isTaken event member isOf
    rcases moved isTaken with ⟨rfl, rfl, -⟩ | ⟨-, old⟩
    · exact (isOf ▸ paced.free event member).trans fresh
    · exact paced.after other found moment old event member isOf
  · intro one other found moment moment' differ isTaken isTaken'
    rcases moved isTaken with ⟨rfl, rfl, rfl⟩ | ⟨-, old⟩
    · rcases moved isTaken' with ⟨-, -, same⟩ | ⟨-, old'⟩
      · exact absurd same.symm differ
      · exact .inr ((paced.taken other _ moment' old').trans fresh)
    · rcases moved isTaken' with ⟨rfl, rfl, rfl⟩ | ⟨-, old'⟩
      · exact .inl ((paced.taken one _ moment old).trans fresh)
      · exact paced.apart one other found moment moment' differ old old'

/-- A request that is released comes after everything before it, and before the other slots. -/
theorem Paced.release {state : State} (paced : Paced pacing state) {thread : Nat}
    {lookup : Lookup} {turn : Turn}
    (sleeps : state.threads[thread]? = some (.waiting lookup turn state.clock)) :
    Paced pacing { state with
      threads := state.threads.set thread (.released lookup turn)
      history := .request (lookup.serverAt turn) state.clock :: state.history } := by
  have own : slotAt state.threads thread = some (lookup.serverAt turn, state.clock) := by
    rw [slotAt, sleeps]
    rfl
  have awake : (Phase.released lookup turn).slotOf = none := rfl
  have still := paced.set_awake thread awake
  refine ⟨?_, ?_, still.ahead, still.taken, ?_, still.apart⟩
  · refine List.pairwise_cons.mpr ⟨fun event member => ?_, paced.agreed⟩
    exact follows_iff.mpr (paced.after thread _ _ own event member)
  · intro event member
    rcases List.mem_cons.mp member with rfl | old
    · exact paced.taken thread _ _ own
    · exact paced.free event old
  · intro other server slot found event member isOf
    obtain ⟨differ, old⟩ := slotAt_set_awake awake found
    rcases List.mem_cons.mp member with rfl | earlier
    · obtain rfl : lookup.serverAt turn = server := isOf
      have later := paced.ahead other _ slot old
      have nonneg := pacing.nonneg
      rcases paced.apart thread other _ _ slot differ own old with apart | apart
      · exact apart
      · change state.clock + pacing.interval ≤ slot
        linarith
    · exact still.after other server slot found event earlier isOf

/-- A moment that is noted for a server comes before its free slots, and before the taken ones where
nobody holds an earlier one. -/
theorem Paced.hold {state : State} (paced : Paced pacing state) {thread : Nat} {lookup : Lookup}
    {turn : Turn} {seconds : ℚ}
    (clear : state.threads.all (Phase.waitsBeyond (lookup.serverAt turn)
      (state.clock + min seconds pacing.maxRetryAfter)) = true) :
    Paced pacing (noteHold pacing state thread lookup turn seconds) := by
  set server := lookup.serverAt turn with isServer
  set moment := state.clock + min seconds pacing.maxRetryAfter with isMoment
  have awake : (Phase.held lookup turn).slotOf = none := by cases turn <;> rfl
  have still := paced.set_awake thread awake
  have grows (other : Text) :
      state.next other ≤ (noteHold pacing state thread lookup turn seconds).next other := by
    by_cases same : other = server
    · rw [same]
      simp only [noteHold, ← isServer, Function.update_self]
      exact le_max_left _ _
    · simp [noteHold, ← isServer, Function.update_of_ne same]
  refine ⟨List.pairwise_cons.mpr ⟨fun event _ => trivial, paced.agreed⟩, ?_, still.ahead,
    fun other found slot isTaken => (still.taken other found slot isTaken).trans (grows found), ?_,
    still.apart⟩
  · intro event member
    rcases List.mem_cons.mp member with rfl | old
    · simp only [noteHold, Event.freeFrom, ← isServer, Function.update_self]
      exact le_max_right _ _
    · exact (paced.free event old).trans (grows _)
  · intro other found slot isTaken event member isOf
    rcases List.mem_cons.mp member with rfl | old
    · obtain ⟨-, taken⟩ := slotAt_set_awake awake isTaken
      obtain ⟨phase, held, isSlot⟩ := Option.bind_eq_some_iff.mp taken
      have beyond := List.all_eq_true.mp clear phase (List.mem_of_getElem? held)
      have same : found = server := isOf.symm
      change moment ≤ slot
      simpa [Phase.waitsBeyond, isSlot, same] using beyond
    · exact still.after other found slot isTaken event old isOf

theorem Paced.tick {state : State} (paced : Paced pacing state) {later : ℚ}
    (sleeping : state.threads.all (Phase.sleepsTo later) = true) :
    Paced pacing { state with clock := later } where
  agreed := paced.agreed
  free := paced.free
  ahead thread server slot found := by
    obtain ⟨phase, held, isSlot⟩ := Option.bind_eq_some_iff.mp found
    have beyond := List.all_eq_true.mp sleeping phase (List.mem_of_getElem? held)
    simpa [Phase.sleepsTo, isSlot] using beyond
  taken := paced.taken
  after := paced.after
  apart := paced.apart

theorem Paced.begin {state : State} (paced : Paced pacing state) (lookup : Lookup) :
    Paced pacing { state with threads := state.threads ++ [.asking lookup .first] } := by
  have old {thread : Nat} {taken : Text × ℚ}
      (found : slotAt (state.threads ++ [.asking lookup .first]) thread = some taken) :
      slotAt state.threads thread = some taken := by
    obtain ⟨phase, held, isSlot⟩ := Option.bind_eq_some_iff.mp found
    rw [List.getElem?_append] at held
    split at held
    · exact Option.bind_eq_some_iff.mpr ⟨phase, held, isSlot⟩
    · rw [List.mem_singleton.mp (List.mem_of_getElem? held)] at isSlot
      cases isSlot
  exact ⟨paced.agreed, paced.free, fun thread server slot found =>
      paced.ahead thread server slot (old found),
    fun thread server slot found => paced.taken thread server slot (old found),
    fun thread server slot found => paced.after thread server slot (old found),
    fun thread other server slot slot' differ found found' =>
      paced.apart thread other server slot slot' differ (old found) (old found')⟩

theorem paced_step {state next : State} {label : Label} (paced : Paced pacing state)
    (taken : step pacing state label = some next) (clear : Clear pacing state label next) :
    Paced pacing next := by
  cases label with
  | tick later =>
      simp only [step] at taken
      split at taken
      · rename_i allowed
        exact Option.some.inj taken ▸ paced.tick allowed.2
      · cases taken
  | begin lookup => exact Option.some.inj taken ▸ paced.begin lookup
  | reserve thread =>
      simp only [step] at taken
      split at taken
      · exact Option.some.inj taken ▸ paced.reserve thread _ _
      · cases taken
  | release thread =>
      simp only [step] at taken
      split at taken
      · rename_i lookup turn slot held
        split at taken
        · rename_i due
          subst due
          exact Option.some.inj taken ▸ paced.release held
        · cases taken
      · cases taken
  | answer thread answer =>
      simp only [step] at taken
      split at taken
      · rename_i lookup turn held
        refine Option.some.inj taken ▸ paced.set_awake _ ?_
        unfold Phase.answered
        split
        · rfl
        · rfl
        · split <;> rfl
      · cases taken
  | raise thread =>
      simp only [step] at taken
      split at taken
      · exact Option.some.inj taken ▸ paced.set_awake _ rfl
      · cases taken
  | hold thread =>
      simp only [step] at taken
      split at taken
      · rename_i lookup turn seconds held
        simp only [Clear, Label.note, held, Option.all_some] at clear
        exact Option.some.inj taken ▸ paced.hold clear
      · cases taken

/-- In every run in which nobody holds a slot before a moment that is noted for its server, the
servers are asked at the agreed pace. -/
theorem agreed_of_clear (pacing : Pacing) (clock : ℚ) (labels : List Label) (final : State)
    (execution : run (step pacing) (State.start clock) labels = some final)
    (clear : Along (step pacing) (Clear pacing) (State.start clock) labels) :
    Agreed pacing final :=
  (run_guarded (fun _ _ _ paced taken met => paced_step paced taken met) (paced_start clock) clear
    execution).agreed

/-- Two seconds apart, and a minute at most. -/
def twoSeconds : Pacing := ⟨2, 60, by decide⟩

def someLookup : Lookup := ⟨"rdap.example".toList, "whois:nl".toList, false⟩

/-- A lookup is told to wait, does so and asks again. -/
def patientRun : List Label :=
  [.begin someLookup, .reserve 0, .release 0, .answer 0 ⟨some 30, true⟩, .hold 0, .reserve 0,
    .tick 30, .release 0, .answer 0 ⟨none, false⟩]

/-- While the server asks for more time, another lookup already has its next slot. -/
def overlappingRun : List Label :=
  [.begin someLookup, .begin someLookup, .reserve 0, .reserve 1, .release 0, .tick 1,
    .answer 0 ⟨some 60, true⟩, .hold 0, .tick 2, .release 1]

private theorem isSome_patientRun :
    (run (step twoSeconds) (State.start 0) patientRun).isSome = true := by
  decide +kernel

private theorem isSome_overlappingRun :
    (run (step twoSeconds) (State.start 0) overlappingRun).isSome = true := by
  decide +kernel

theorem patient_run_agreed :
    ∃ final, run (step twoSeconds) (State.start 0) patientRun = some final ∧
      Agreed twoSeconds final :=
  ⟨_, (Option.some_get isSome_patientRun).symm, agreed_of_clear twoSeconds 0 patientRun _
    (Option.some_get isSome_patientRun).symm (by decide +kernel)⟩

/-- The second lookup is released two seconds after the first one, long before the minute its server
asked for is over. -/
theorem overlapping_run_disagrees :
    ∃ final, run (step twoSeconds) (State.start 0) overlappingRun = some final ∧
      ¬ Agreed twoSeconds final :=
  ⟨_, (Option.some_get isSome_overlappingRun).symm, by decide +kernel⟩

end WhoisBatch
end DomainLens
