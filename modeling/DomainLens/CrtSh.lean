import DomainLens.Library.Run
import DomainLens.Python.Text
import Mathlib

/-!
# Shared lookups at crt.sh

A lookup that is under way is joined by the callers of the same domain.  The caller that registers it
asks, takes it off the register and wakes the others; whom a failure does not answer for begins again.
The file embeds the calls with their atomic steps and settles what every interleaving keeps.
-/

namespace DomainLens
namespace CrtSh

open Python Run

/-! ## Asking -/

structure Call where
  domain : Text
  timeout : ℚ
  attempts : Int
  force : Bool
deriving DecidableEq

def Call.key (call : Call) : Text := lower call.domain

/-- What a lookup found: the rows or an error, the last status and whether an older answer may stand
in. -/
structure Outcome (Rows : Type) where
  rows : Option Rows
  error : Option Text
  lastStatus : Option Nat
  mayFallBack : Bool

inductive Response (Rows : Type) where
  | rows (rows : Rows)
  | notJson
  | otherShape
  | status (code : Nat)
  | timedOut
  | failed (problem : Text)

variable {Rows : Type} (showTimeout : ℚ → Text)

/-- `_TRANSIENT_STATUS`. -/
def transientStatus : List Nat := [404, 429, 500, 502, 503, 504]

/-- `_OUTAGE_MESSAGE`. -/
def outageMessage (status : Nat) (attempts : Int) : Text :=
  "Certificate Transparency lookup unavailable — crt.sh answered HTTP ".toList ++ strOf status ++
    " after ".toList ++ (toString attempts).toList ++
    (" attempts. This is an outage at crt.sh, not a problem with " ++
      "the scanned domain; re-run the scan shortly.").toList

/-- `_TIMEOUT_MESSAGE`. -/
def timeoutMessage (timeout : ℚ) : Text :=
  "Certificate Transparency lookup unavailable — crt.sh did not answer within ".toList ++
    showTimeout timeout ++
    ("s. This is an outage at crt.sh, not a problem with the scanned " ++
      "domain; re-run the scan shortly.").toList

/-- The answer of a lookup whose tries are used up. -/
def exhausted (call : Call) (lastStatus : Option Nat) (lastError : Option Text) :
    Outcome Rows where
  rows := none
  error :=
    match lastError.filter (· ≠ []), lastStatus.filter (· ∈ transientStatus) with
    | some _, some status => some (outageMessage status call.attempts)
    | some problem, none => some problem
    | none, _ => some "crt.sh lookup failed".toList
  lastStatus
  mayFallBack := true

/-- The loop of `_ask`: so many tries are left, from one on. -/
def askFrom (call : Call) (responses : Nat → Response Rows) :
    Nat → Nat → Option Nat → Option Text → Outcome Rows
  | 0, _, lastStatus, lastError => exhausted call lastStatus lastError
  | left + 1, attempt, lastStatus, _ =>
      match responses attempt with
      | .rows rows => ⟨some rows, none, some 200, false⟩
      | .notJson =>
          askFrom call responses left (attempt + 1) (some 200)
            (some "crt.sh returned a non-JSON response".toList)
      | .otherShape =>
          askFrom call responses left (attempt + 1) (some 200)
            (some "crt.sh returned an unexpected response shape".toList)
      | .status code =>
          if code ∈ transientStatus then
            askFrom call responses left (attempt + 1) (some code)
              (some (outageMessage code call.attempts))
          else ⟨none, some ("crt.sh returned HTTP ".toList ++ strOf code), some code, false⟩
      | .timedOut => ⟨none, some (timeoutMessage showTimeout call.timeout), none, true⟩
      | .failed problem =>
          askFrom call responses left (attempt + 1) lastStatus
            (some ("crt.sh request failed: ".toList ++ problem.take 120))

/-- `_ask`. -/
def ask (call : Call) (responses : Nat → Response Rows) : Outcome Rows :=
  askFrom showTimeout call responses call.attempts.toNat 0 none none

/-! ## Answers -/

structure Meta where
  cached : Bool
  stale : Bool
  cacheAgeSeconds : Option Int
  cachedAt : Option Text
  outage : Option Text

structure Result (Rows : Type) where
  rows : Option Rows
  error : Option Text
  info : Meta

/-- An answer that is not from the cache. -/
def Meta.live : Meta := ⟨false, false, none, none, none⟩

/-- `_result`; `stale` is what the cache still has of an older answer. -/
def resultOf (outcome : Outcome Rows) (force : Bool) (stale : Option (Rows × Int × Text)) :
    Result Rows :=
  match outcome.rows with
  | some rows => ⟨some rows, none, .live⟩
  | none =>
      match stale.filter fun _ => outcome.mayFallBack && !force with
      | some (rows, age, createdAt) =>
          ⟨some rows, none, ⟨true, true, some age, some createdAt, outcome.error⟩⟩
      | none => ⟨none, outcome.error, .live⟩

/-! ## Lookups under way -/

/-- `_Flight`. -/
structure Flight (Rows : Type) where
  timeout : ℚ
  attempts : Int
  waiters : Nat
  done : Bool
  outcome : Outcome Rows

def Flight.start (call : Call) : Flight Rows where
  timeout := call.timeout
  attempts := call.attempts
  waiters := 0
  done := false
  outcome := ⟨none, some "crt.sh lookup failed".toList, none, true⟩

/-- The lookup is at least as patient as the caller. -/
def Flight.covers (flight : Flight Rows) (call : Call) : Bool :=
  call.timeout ≤ flight.timeout && call.attempts ≤ flight.attempts

/-- Where a call of `fetch_detailed` stands.  The lookup its answer is from is kept with it. -/
inductive Phase (Rows : Type) where
  | idle
  /-- It looks into the cache. -/
  | entering (call : Call)
  /-- It is at the top of the loop. -/
  | arriving (call : Call)
  /-- It waits for a lookup. -/
  | joined (call : Call) (flight : Nat)
  /-- It asks for a lookup it registered. -/
  | asking (call : Call) (flight : Nat)
  /-- The asking has returned or raised, and its lookup is still registered. -/
  | asked (call : Call) (flight : Nat) (raised : Bool)
  /-- Its lookup is off the register, and the others sleep still. -/
  | removed (call : Call) (flight : Nat) (raised : Bool)
  /-- A wait ran out, and it asks for itself. -/
  | askingAlone (call : Call)
  /-- It has an outcome, and calls `_result`. -/
  | answered (call : Call) (flight : Option Nat) (outcome : Outcome Rows)
  | returned (call : Call) (flight : Option Nat) (result : Result Rows)
  | raised (call : Call)

/-- The lookups and the register, with every call.  `past` records which lookups a call has joined. -/
structure World (Rows : Type) where
  flights : Nat → Flight Rows
  fresh : Nat
  register : Text → Option Nat
  phase : Nat → Phase Rows
  past : Nat → List Nat

def World.start (flight : Flight Rows) : World Rows where
  flights _ := flight
  fresh := 0
  register _ := none
  phase _ := .idle
  past _ := []

namespace World

def enter (world : World Rows) (caller : Nat) (phase : Phase Rows) : World Rows :=
  { world with phase := Function.update world.phase caller phase }

def setFlight (world : World Rows) (flight : Nat) (value : Flight Rows) : World Rows :=
  { world with flights := Function.update world.flights flight value }

/-- Take a lookup off the register, if it is still the one of its key. -/
def remove (world : World Rows) (key : Text) (flight : Nat) : World Rows :=
  if world.register key = some flight then
    { world with register := Function.update world.register key none }
  else world

/-- The locked part of the loop: register a lookup, or join the one that is registered. -/
def arrive (world : World Rows) (caller : Nat) (call : Call) : World Rows :=
  match world.register call.key with
  | none =>
      { world with
        flights := Function.update world.flights world.fresh (.start call)
        fresh := world.fresh + 1
        register := Function.update world.register call.key (some world.fresh)
        phase := Function.update world.phase caller (.asking call world.fresh) }
  | some flight =>
      { world with
        flights := Function.update world.flights flight
          { world.flights flight with waiters := (world.flights flight).waiters + 1 }
        phase := Function.update world.phase caller (.joined call flight)
        past := Function.update world.past caller (flight :: world.past caller) }

end World

/-- The atomic steps of the calls. -/
inductive Label (Rows : Type) where
  | call (caller : Nat) (call : Call)
  | lookUp (caller : Nat) (cached : Option (Rows × Int))
  | arrive (caller : Nat)
  | answer (caller : Nat) (responses : Nat → Response Rows)
  | raise (caller : Nat)
  | remove (caller : Nat)
  | signal (caller : Nat)
  | wake (caller : Nat)
  | runOut (caller : Nat)
  | finish (caller : Nat) (stale : Option (Rows × Int × Text))

def step (world : World Rows) : Label Rows → Option (World Rows)
  | .call caller call =>
      match world.phase caller with
      | .idle => some (world.enter caller (.entering call))
      | _ => none
  | .lookUp caller cached =>
      match world.phase caller with
      | .entering call =>
          match cached.filter fun _ => !call.force with
          | some (rows, age) =>
              some (world.enter caller (.returned call none
                ⟨some rows, none, ⟨true, false, some age, none, none⟩⟩))
          | none => some (world.enter caller (.arriving call))
      | _ => none
  | .arrive caller =>
      match world.phase caller with
      | .arriving call => some (world.arrive caller call)
      | _ => none
  | .answer caller responses =>
      match world.phase caller with
      | .asking call flight =>
          some ((world.setFlight flight
            { world.flights flight with outcome := ask showTimeout call responses }).enter caller
              (.asked call flight false))
      | .askingAlone call =>
          some (world.enter caller (.answered call none (ask showTimeout call responses)))
      | _ => none
  | .raise caller =>
      match world.phase caller with
      | .asking call flight => some (world.enter caller (.asked call flight true))
      | .askingAlone call => some (world.enter caller (.raised call))
      | _ => none
  | .remove caller =>
      match world.phase caller with
      | .asked call flight raised =>
          some ((world.remove call.key flight).enter caller (.removed call flight raised))
      | _ => none
  | .signal caller =>
      match world.phase caller with
      | .removed call flight raised =>
          some ((world.setFlight flight { world.flights flight with done := true }).enter caller
            (if raised then .raised call
              else .answered call (some flight) (world.flights flight).outcome))
      | _ => none
  | .wake caller =>
      match world.phase caller with
      | .joined call flight =>
          if (world.flights flight).done then
            some (world.enter caller
              (if (world.flights flight).outcome.rows.isSome || (world.flights flight).covers call
                then .answered call (some flight) (world.flights flight).outcome
                else .arriving call))
          else none
      | _ => none
  | .runOut caller =>
      match world.phase caller with
      | .joined call _ => some (world.enter caller (.askingAlone call))
      | _ => none
  | .finish caller stale =>
      match world.phase caller with
      | .answered call flight outcome =>
          some (world.enter caller (.returned call flight (resultOf outcome call.force stale)))
      | _ => none

/-! ## Who leads a lookup -/

/-- The lookup a call registered and has not finished, and whether it is still on the register. -/
def Phase.led : Phase Rows → Option (Call × Nat × Bool)
  | .asking call flight => some (call, flight, true)
  | .asked call flight _ => some (call, flight, true)
  | .removed call flight _ => some (call, flight, false)
  | _ => none

/-- Every lookup has one caller that finishes it, and those on the register have one still to take
them off. -/
structure Led (world : World Rows) : Prop where
  bounded : ∀ caller call flight held,
    (world.phase caller).led = some (call, flight, held) → flight < world.fresh
  unique : ∀ first second call call' flight held held',
    (world.phase first).led = some (call, flight, held) →
    (world.phase second).led = some (call', flight, held') → first = second
  faithful : ∀ caller call flight held,
    (world.phase caller).led = some (call, flight, held) →
      (world.flights flight).done = false ∧ (world.flights flight).timeout = call.timeout ∧
        (world.flights flight).attempts = call.attempts
  held : ∀ caller call flight,
    (world.phase caller).led = some (call, flight, true) → world.register call.key = some flight
  registered : ∀ key flight, world.register key = some flight →
    ∃ caller call, (world.phase caller).led = some (call, flight, true) ∧ call.key = key

theorem led_start (flight : Flight Rows) : Led (World.start flight) where
  bounded caller call flight held found := by cases found
  unique first second call call' flight held held' found := by cases found
  faithful caller call flight held found := by cases found
  held caller call flight found := by cases found
  registered key flight found := by cases found

theorem Led.of_same {world next : World Rows} (sound : Led world)
    (phase : ∀ caller, (next.phase caller).led = (world.phase caller).led)
    (register : next.register = world.register) (fresh : next.fresh = world.fresh)
    (flights : ∀ flight, (next.flights flight).done = (world.flights flight).done ∧
      (next.flights flight).timeout = (world.flights flight).timeout ∧
      (next.flights flight).attempts = (world.flights flight).attempts) : Led next where
  bounded caller call flight held found :=
    fresh ▸ sound.bounded caller call flight held (phase caller ▸ found)
  unique first second call call' flight held held' found found' :=
    sound.unique first second call call' flight held held' (phase first ▸ found)
      (phase second ▸ found')
  faithful caller call flight held found := by
    obtain ⟨done, timeout, attempts⟩ := flights flight
    rw [done, timeout, attempts]
    exact sound.faithful caller call flight held (phase caller ▸ found)
  held caller call flight found :=
    register ▸ sound.held caller call flight (phase caller ▸ found)
  registered key flight found := by
    obtain ⟨caller, call, leads, isKey⟩ := sound.registered key flight (register ▸ found)
    exact ⟨caller, call, (phase caller).trans leads, isKey⟩

private theorem led_enter {world : World Rows} {caller : Nat} {phase : Phase Rows}
    (same : phase.led = (world.phase caller).led) (other : Nat) :
    ((world.enter caller phase).phase other).led = (world.phase other).led := by
  by_cases equal : other = caller
  · rw [equal]
    simpa [World.enter] using same
  · simp [World.enter, Function.update_of_ne equal]

theorem Led.enter {world : World Rows} (sound : Led world) {caller : Nat} {phase : Phase Rows}
    (same : phase.led = (world.phase caller).led) : Led (world.enter caller phase) :=
  sound.of_same (led_enter same) rfl rfl fun _ => ⟨rfl, rfl, rfl⟩

/-- The outcome of a lookup and the number of its waiters are not what a call leads it by. -/
theorem Led.setFlight {world : World Rows} (sound : Led world) (flight : Nat) (value : Flight Rows)
    (same : value.done = (world.flights flight).done ∧
      value.timeout = (world.flights flight).timeout ∧
      value.attempts = (world.flights flight).attempts) : Led (world.setFlight flight value) := by
  refine sound.of_same (fun _ => rfl) rfl rfl fun other => ?_
  by_cases equal : other = flight
  · rw [equal]
    simpa [World.setFlight] using same
  · simp [World.setFlight, Function.update_of_ne equal]

theorem Led.arrive {world : World Rows} (sound : Led world) {caller : Nat} {call : Call}
    (arriving : world.phase caller = .arriving call) : Led (world.arrive caller call) := by
  unfold World.arrive
  cases found : world.register call.key with
  | some flight =>
      have waits := sound.setFlight flight
        { world.flights flight with waiters := (world.flights flight).waiters + 1 } ⟨rfl, rfl, rfl⟩
      have follows : (Phase.joined call flight : Phase Rows).led = (world.phase caller).led := by
        simp [arriving, Phase.led]
      have joined := waits.enter follows
      exact joined.of_same (fun _ => rfl) rfl rfl fun _ => ⟨rfl, rfl, rfl⟩
  | none =>
      -- The lookup is new, so no other call leads it and no other key has it.
      have moved {other : Nat} {call' : Call} {flight : Nat} {held : Bool}
          (leads : (Function.update world.phase caller (.asking call world.fresh) other).led =
            some (call', flight, held)) :
          (other = caller ∧ call' = call ∧ flight = world.fresh ∧ held = true) ∨
            (other ≠ caller ∧ flight < world.fresh ∧
              (world.phase other).led = some (call', flight, held)) := by
        by_cases equal : other = caller
        · subst equal
          simp only [Function.update_self, Phase.led, Option.some.injEq, Prod.mk.injEq] at leads
          exact .inl ⟨rfl, leads.1.symm, leads.2.1.symm, leads.2.2.symm⟩
        · rw [Function.update_of_ne equal] at leads
          exact .inr ⟨equal, sound.bounded other call' flight held leads, leads⟩
      refine ⟨?_, ?_, ?_, ?_, ?_⟩
      · intro other call' flight held leads
        rcases moved leads with ⟨-, -, rfl, -⟩ | ⟨-, below, -⟩
        · exact Nat.lt_succ_self _
        · exact Nat.lt_succ_of_lt below
      · intro first second call' call'' flight held held' leads leads'
        rcases moved leads with ⟨rfl, -, rfl, -⟩ | ⟨-, below, old⟩
        · rcases moved leads' with ⟨same, -⟩ | ⟨-, below, -⟩
          · exact same.symm
          · exact absurd below (Nat.lt_irrefl _)
        · rcases moved leads' with ⟨-, -, rfl, -⟩ | ⟨-, -, old'⟩
          · exact absurd below (Nat.lt_irrefl _)
          · exact sound.unique first second call' call'' flight held held' old old'
      · intro other call' flight held leads
        rcases moved leads with ⟨-, rfl, rfl, -⟩ | ⟨-, below, old⟩
        · simp [Flight.start]
        · simpa [Function.update_of_ne (Nat.ne_of_lt below)] using
            sound.faithful other call' flight held old
      · intro other call' flight leads
        rcases moved leads with ⟨-, rfl, rfl, -⟩ | ⟨-, -, old⟩
        · simp
        · have own := sound.held other call' flight old
          have apart : call'.key ≠ call.key := by
            intro same
            rw [same, found] at own
            cases own
          simpa [Function.update_of_ne apart] using own
      · intro key flight isRegistered
        by_cases same : key = call.key
        · subst same
          simp only [Function.update_self, Option.some.injEq] at isRegistered
          exact ⟨caller, call, by simp [Phase.led, isRegistered], rfl⟩
        · simp only [Function.update_of_ne same] at isRegistered
          obtain ⟨other, call', leads, isKey⟩ := sound.registered key flight isRegistered
          have apart : other ≠ caller := by
            rintro rfl
            simp [arriving, Phase.led] at leads
          exact ⟨other, call', by simpa [Function.update_of_ne apart] using leads, isKey⟩

theorem Led.remove {world : World Rows} (sound : Led world) {caller flight : Nat} {call : Call}
    {raised : Bool} (asked : world.phase caller = .asked call flight raised) :
    Led ((world.remove call.key flight).enter caller (.removed call flight raised)) := by
  have leads : (world.phase caller).led = some (call, flight, true) := by rw [asked]; rfl
  have own := sound.held caller call flight leads
  have register : (world.remove call.key flight).register =
      Function.update world.register call.key none := by
    rw [World.remove, if_pos own]
  have same : (world.remove call.key flight).flights = world.flights ∧
      (world.remove call.key flight).fresh = world.fresh ∧
      (world.remove call.key flight).phase = world.phase := by
    rw [World.remove, if_pos own]
    exact ⟨rfl, rfl, rfl⟩
  have moved {other : Nat} {call' : Call} {flight' : Nat} {held : Bool}
      (leads' : (Function.update world.phase caller (.removed call flight raised) other).led =
        some (call', flight', held)) :
      ∃ held', (held = true → held' = true ∧ other ≠ caller) ∧
        (world.phase other).led = some (call', flight', held') := by
    by_cases equal : other = caller
    · subst equal
      simp only [Function.update_self, Phase.led, Option.some.injEq, Prod.mk.injEq] at leads'
      obtain ⟨rfl, rfl, rfl⟩ := leads'
      exact ⟨true, by simp, leads⟩
    · rw [Function.update_of_ne equal] at leads'
      exact ⟨held, fun isHeld => ⟨isHeld, equal⟩, leads'⟩
  refine ⟨?_, ?_, ?_, ?_, ?_⟩
  · intro other call' flight' held leads'
    simp only [World.enter, same] at leads' ⊢
    obtain ⟨held', -, old⟩ := moved leads'
    exact sound.bounded other call' flight' held' old
  · intro first second call' call'' flight' held held' leads' leads''
    simp only [World.enter, same] at leads' leads''
    obtain ⟨_, -, old⟩ := moved leads'
    obtain ⟨_, -, old'⟩ := moved leads''
    exact sound.unique first second call' call'' flight' _ _ old old'
  · intro other call' flight' held leads'
    simp only [World.enter, same] at leads' ⊢
    obtain ⟨held', -, old⟩ := moved leads'
    exact sound.faithful other call' flight' held' old
  · intro other call' flight' leads'
    simp only [World.enter, same, register] at leads' ⊢
    obtain ⟨held', isHeld, old⟩ := moved leads'
    obtain ⟨rfl, differ⟩ := isHeld rfl
    have theirs := sound.held other call' flight' old
    have apart : call'.key ≠ call.key := by
      intro sameKey
      rw [sameKey, own] at theirs
      obtain rfl := Option.some.inj theirs
      exact differ (sound.unique other caller call' call flight true true old leads)
    rw [Function.update_of_ne apart]
    exact theirs
  · intro key flight' isRegistered
    simp only [World.enter, same, register] at isRegistered ⊢
    by_cases sameKey : key = call.key
    · rw [sameKey, Function.update_self] at isRegistered
      cases isRegistered
    · rw [Function.update_of_ne sameKey] at isRegistered
      obtain ⟨other, call', leads', isKey⟩ := sound.registered key flight' isRegistered
      have apart : other ≠ caller := by
        rintro rfl
        rw [leads] at leads'
        simp only [Option.some.injEq, Prod.mk.injEq] at leads'
        exact sameKey (leads'.1 ▸ isKey.symm)
      exact ⟨other, call', by rw [Function.update_of_ne apart]; exact leads', isKey⟩

theorem Led.signal {world : World Rows} (sound : Led world) {caller flight : Nat} {call : Call}
    {raised : Bool} (removed : world.phase caller = .removed call flight raised)
    {phase : Phase Rows} (ended : phase.led = none) :
    Led ((world.setFlight flight { world.flights flight with done := true }).enter caller phase) := by
  have leads : (world.phase caller).led = some (call, flight, false) := by rw [removed]; rfl
  have moved {other : Nat} {call' : Call} {flight' : Nat} {held : Bool}
      (leads' : (Function.update world.phase caller phase other).led =
        some (call', flight', held)) :
      other ≠ caller ∧ flight' ≠ flight ∧ (world.phase other).led = some (call', flight', held) := by
    by_cases equal : other = caller
    · subst equal
      rw [Function.update_self, ended] at leads'
      cases leads'
    · rw [Function.update_of_ne equal] at leads'
      refine ⟨equal, ?_, leads'⟩
      rintro rfl
      exact equal (sound.unique other caller call' call flight' held false leads' leads)
  refine ⟨?_, ?_, ?_, ?_, ?_⟩
  · intro other call' flight' held leads'
    exact sound.bounded other call' flight' held (moved leads').2.2
  · intro first second call' call'' flight' held held' leads' leads''
    exact sound.unique first second call' call'' flight' held held' (moved leads').2.2
      (moved leads'').2.2
  · intro other call' flight' held leads'
    obtain ⟨-, apart, old⟩ := moved leads'
    simpa [World.enter, World.setFlight, Function.update_of_ne apart] using
      sound.faithful other call' flight' held old
  · intro other call' flight' leads'
    exact sound.held other call' flight' (moved leads').2.2
  · intro key flight' isRegistered
    obtain ⟨other, call', leads', isKey⟩ := sound.registered key flight' isRegistered
    have apart : other ≠ caller := by
      rintro rfl
      rw [leads] at leads'
      simp at leads'
    refine ⟨other, call', ?_, isKey⟩
    simpa [World.enter, World.setFlight, Function.update_of_ne apart] using leads'

/-! ## What callers are told -/

def Phase.answersFrom : Phase Rows → Option Nat
  | .answered _ flight _ => flight
  | .returned _ flight _ => flight
  | _ => none

/-- What a caller is told of a failure, with or without older rows. -/
def Result.failure (result : Result Rows) : Option Text :=
  match result.rows with
  | none => result.error
  | some _ => result.info.outage

/-- A result gives the rows of an outcome, or its failure to a caller it answers for. -/
structure Gives (flight : Flight Rows) (call : Call) (result : Result Rows) : Prop where
  rows : ∀ rows, flight.outcome.rows = some rows → result.rows = some rows
  failure : result.rows = none ∨ result.info.stale = true → flight.outcome.rows = none ∧
    result.failure = flight.outcome.error ∧ flight.covers call = true

/-- What a call has been told is of lookups that are done, and of each it joined it waits for the
outcome, has its rows or was left without. -/
structure Told (world : World Rows) (phase : Phase Rows) (past : List Nat) : Prop where
  together : ∀ call, phase ≠ .askingAlone call
  answered : ∀ call flight outcome, phase = .answered call flight outcome →
    ∃ shared, flight = some shared ∧ shared < world.fresh ∧
      (world.flights shared).done = true ∧ outcome = (world.flights shared).outcome ∧
      (outcome.rows = none → (world.flights shared).covers call = true)
  returned : ∀ call flight result, phase = .returned call flight result →
    (flight = none ∧ result.rows ≠ none ∧ result.info.stale = false) ∨
      ∃ shared, flight = some shared ∧ shared < world.fresh ∧
        (world.flights shared).done = true ∧ Gives (world.flights shared) call result
  joined : ∀ call flight, phase = .joined call flight → flight ∈ past
  known : ∀ flight ∈ past, flight < world.fresh
  past : ∀ flight ∈ past, (∃ call, phase = .joined call flight) ∨
    (world.flights flight).done = true ∧
      ((world.flights flight).outcome.rows = none ∨ phase.answersFrom = some flight)

structure Extends (world next : World Rows) : Prop where
  fresh : world.fresh ≤ next.fresh
  settled : ∀ flight < world.fresh, (world.flights flight).done = true →
    (next.flights flight).done = true ∧
      (next.flights flight).outcome = (world.flights flight).outcome ∧
      (next.flights flight).timeout = (world.flights flight).timeout ∧
      (next.flights flight).attempts = (world.flights flight).attempts

theorem Told.mono {world next : World Rows} {phase : Phase Rows} {past : List Nat}
    (told : Told world phase past) (grown : Extends world next) : Told next phase past where
  together := told.together
  answered call flight outcome isPhase := by
    obtain ⟨shared, same, below, done, isOutcome, covers⟩ :=
      told.answered call flight outcome isPhase
    obtain ⟨done', outcome', timeout, attempts⟩ := grown.settled shared below done
    refine ⟨shared, same, below.trans_le grown.fresh, done', isOutcome.trans outcome'.symm,
      fun failed => ?_⟩
    rw [Flight.covers, timeout, attempts]
    exact covers failed
  returned call flight result isPhase := by
    refine (told.returned call flight result isPhase).imp id ?_
    rintro ⟨shared, same, below, done, gives⟩
    obtain ⟨done', outcome', timeout, attempts⟩ := grown.settled shared below done
    refine ⟨shared, same, below.trans_le grown.fresh, done', ?_, ?_⟩
    · rw [outcome']
      exact gives.rows
    · rw [outcome', Flight.covers, timeout, attempts]
      exact gives.failure
  joined := told.joined
  known flight member := (told.known flight member).trans_le grown.fresh
  past flight member := by
    refine (told.past flight member).imp id fun ⟨done, left⟩ => ?_
    obtain ⟨done', outcome', -, -⟩ := grown.settled flight (told.known flight member) done
    exact ⟨done', outcome' ▸ left⟩

/-- A phase in which a call waits for nothing and has no answer. -/
def Phase.isPlain : Phase Rows → Bool
  | .joined _ _ | .askingAlone _ | .answered _ _ _ | .returned _ _ _ => false
  | _ => true

private theorem isPlain_ne {phase : Phase Rows} (plain : phase.isPlain = true) :
    (∀ call flight, phase ≠ .joined call flight) ∧ (∀ call, phase ≠ .askingAlone call) ∧
      (∀ call flight outcome, phase ≠ .answered call flight outcome) ∧
      (∀ call flight result, phase ≠ .returned call flight result) ∧
      phase.answersFrom = none := by
  cases phase <;> simp [Phase.isPlain, Phase.answersFrom] at plain ⊢

/-- Of every lookup a call in such a phase has joined it was left without rows. -/
theorem Told.past_failed {world : World Rows} {phase : Phase Rows} {past : List Nat}
    (told : Told world phase past) (plain : phase.isPlain = true) :
    ∀ flight ∈ past, (world.flights flight).done = true ∧
      (world.flights flight).outcome.rows = none := by
  obtain ⟨notJoined, -, -, -, unanswered⟩ := isPlain_ne plain
  intro flight member
  rcases told.past flight member with ⟨call, isPhase⟩ | ⟨done, failed | answers⟩
  · exact absurd isPhase (notJoined call flight)
  · exact ⟨done, failed⟩
  · rw [unanswered] at answers
    cases answers

theorem Told.plain {world : World Rows} {phase other : Phase Rows} {past : List Nat}
    (told : Told world phase past) (before : phase.isPlain = true) (after : other.isPlain = true) :
    Told world other past := by
  obtain ⟨notJoined, together, unanswered, notReturned, -⟩ := isPlain_ne after
  exact ⟨together, fun call flight outcome isPhase => absurd isPhase (unanswered _ _ _),
    fun call flight result isPhase => absurd isPhase (notReturned _ _ _),
    fun call flight isPhase => absurd isPhase (notJoined _ _), told.known,
    fun flight member => .inr ⟨(told.past_failed before flight member).1,
      .inl (told.past_failed before flight member).2⟩⟩

theorem gives_resultOf {flight : Flight Rows} {call : Call}
    {stale : Option (Rows × Int × Text)}
    (covers : flight.outcome.rows = none → flight.covers call = true) :
    Gives flight call (resultOf flight.outcome call.force stale) where
  rows rows isRows := by simp [resultOf, isRows]
  failure isFailure := by
    cases isRows : flight.outcome.rows with
    | some rows => simp [resultOf, isRows, Meta.live] at isFailure
    | none =>
        refine ⟨rfl, ?_, covers isRows⟩
        simp only [resultOf, isRows]
        split
        · rfl
        · rfl

/-- What holds in every world that calls bring about without a wait running out. -/
structure Sound (world : World Rows) : Prop where
  led : Led world
  told : ∀ caller, Told world (world.phase caller) (world.past caller)

/-! ## Steps -/

theorem Extends.of_flights {world next : World Rows} (fresh : next.fresh = world.fresh)
    (settled : ∀ flight, (world.flights flight).done = true →
      (next.flights flight).done = true ∧
        (next.flights flight).outcome = (world.flights flight).outcome ∧
        (next.flights flight).timeout = (world.flights flight).timeout ∧
        (next.flights flight).attempts = (world.flights flight).attempts) : Extends world next where
  fresh := fresh.ge
  settled flight _ := settled flight

theorem Extends.enter (world : World Rows) (caller : Nat) (phase : Phase Rows) :
    Extends world (world.enter caller phase) :=
  .of_flights rfl fun _ done => ⟨done, rfl, rfl, rfl⟩

theorem Extends.setFlight {world : World Rows} {flight : Nat} {value : Flight Rows}
    (pending : (world.flights flight).done = false) : Extends world (world.setFlight flight value) := by
  refine .of_flights rfl fun other done => ?_
  have apart : other ≠ flight := by
    rintro rfl
    rw [pending] at done
    cases done
  simp [World.setFlight, Function.update_of_ne apart, done]

theorem Extends.arrive (world : World Rows) (caller : Nat) (call : Call) :
    Extends world (world.arrive caller call) := by
  unfold World.arrive
  cases world.register call.key with
  | none =>
      refine ⟨Nat.le_succ _, fun flight below done => ?_⟩
      simp [Function.update_of_ne (Nat.ne_of_lt below), done]
  | some shared =>
      refine .of_flights rfl fun flight done => ?_
      by_cases same : flight = shared
      · subst same
        simp [done]
      · simp [Function.update_of_ne same, done]

theorem Sound.move {world next : World Rows} (sound : Sound world) {caller : Nat}
    {phase : Phase Rows} (led : Led next) (grown : Extends world next)
    (phases : next.phase = Function.update world.phase caller phase)
    (others : ∀ other ≠ caller, next.past other = world.past other)
    (told : Told next phase (next.past caller)) : Sound next where
  led
  told other := by
    by_cases same : other = caller
    · subst same
      rw [phases, Function.update_self]
      exact told
    · rw [phases, Function.update_of_ne same, others other same]
      exact (sound.told other).mono grown

theorem Sound.move_plain {world next : World Rows} (sound : Sound world) {caller : Nat}
    {phase : Phase Rows} (led : Led next) (grown : Extends world next)
    (phases : next.phase = Function.update world.phase caller phase)
    (pasts : next.past = world.past) (before : (world.phase caller).isPlain = true)
    (after : phase.isPlain = true) : Sound next :=
  sound.move led grown phases (fun _ _ => by rw [pasts])
    (pasts ▸ ((sound.told caller).plain before after).mono grown)

/-- A call that reads the outcome of a lookup that is done, every other one it joined having left it
without rows. -/
theorem Told.read {world : World Rows} {past : List Nat} (call : Call) {flight : Nat}
    (known : ∀ other ∈ past, other < world.fresh) (below : flight < world.fresh)
    (done : (world.flights flight).done = true)
    (covers : (world.flights flight).outcome.rows = none →
      (world.flights flight).covers call = true)
    (failed : ∀ other ∈ past, other ≠ flight → (world.flights other).done = true ∧
      (world.flights other).outcome.rows = none) :
    Told world (.answered call (some flight) (world.flights flight).outcome) past where
  together call := by simp
  answered call' flight' outcome same := by
    cases same
    exact ⟨flight, rfl, below, done, rfl, covers⟩
  returned call flight result same := by cases same
  joined call flight same := by cases same
  known
  past other member := by
    by_cases same : other = flight
    · subst same
      exact .inr ⟨done, .inr rfl⟩
    · exact .inr ⟨(failed other member same).1, .inl (failed other member same).2⟩

theorem Told.cached {world : World Rows} {phase : Phase Rows} {past : List Nat}
    (told : Told world phase past) (plain : phase.isPlain = true) {call : Call}
    {result : Result Rows} (rows : result.rows ≠ none) (fresh : result.info.stale = false) :
    Told world (.returned call none result) past where
  together call := by simp
  answered call flight outcome same := by cases same
  returned call' flight' result' same := by
    cases same
    exact .inl ⟨rfl, rows, fresh⟩
  joined call flight same := by cases same
  known := told.known
  past flight member := .inr ⟨(told.past_failed plain flight member).1,
    .inl (told.past_failed plain flight member).2⟩

theorem Told.finish {world : World Rows} {past : List Nat} {call : Call} {flight : Option Nat}
    {outcome : Outcome Rows} (told : Told world (.answered call flight outcome) past)
    (stale : Option (Rows × Int × Text)) :
    Told world (.returned call flight (resultOf outcome call.force stale)) past where
  together call := by simp
  answered call flight outcome same := by cases same
  returned call' flight' result' same := by
    cases same
    obtain ⟨shared, isShared, below, done, isOutcome, covers⟩ := told.answered _ _ _ rfl
    subst isOutcome
    exact .inr ⟨shared, isShared, below, done, gives_resultOf covers⟩
  joined call flight same := by cases same
  known := told.known
  past other member := by
    refine .inr ?_
    rcases told.past other member with ⟨_, isJoined⟩ | settled
    · cases isJoined
    · exact settled

theorem Sound.join {world : World Rows} (sound : Sound world) {caller flight : Nat} {call : Call}
    (arriving : world.phase caller = .arriving call)
    (registered : world.register call.key = some flight) :
    Sound (world.arrive caller call) := by
  obtain ⟨leader, led, leads, -⟩ := sound.led.registered _ _ registered
  have below := sound.led.bounded _ _ _ _ leads
  have told := sound.told caller
  rw [arriving] at told
  have grown := Extends.arrive world caller call
  have after : (world.arrive caller call).past =
      Function.update world.past caller (flight :: world.past caller) := by
    simp only [World.arrive, registered]
  have phases : (world.arrive caller call).phase =
      Function.update world.phase caller (.joined call flight) := by
    simp only [World.arrive, registered]
  refine sound.move (sound.led.arrive arriving) grown phases
    (fun other apart => by rw [after, Function.update_of_ne apart]) ?_
  rw [after, Function.update_self]
  refine Told.mono ?_ grown
  refine ⟨by simp, by simp, by simp, ?_, ?_, ?_⟩
  · intro call' flight' same
    cases same
    exact List.mem_cons_self
  · intro other member
    rcases List.mem_cons.mp member with rfl | member
    · exact below
    · exact told.known other member
  · intro other member
    rcases List.mem_cons.mp member with rfl | member
    · exact .inl ⟨call, rfl⟩
    · obtain ⟨done, failed⟩ := told.past_failed rfl other member
      exact .inr ⟨done, .inl failed⟩

theorem Sound.wake {world : World Rows} (sound : Sound world) {caller flight : Nat} {call : Call}
    (joined : world.phase caller = .joined call flight)
    (done : (world.flights flight).done = true) :
    Sound (world.enter caller
      (if (world.flights flight).outcome.rows.isSome || (world.flights flight).covers call
        then .answered call (some flight) (world.flights flight).outcome
        else .arriving call)) := by
  have told := sound.told caller
  rw [joined] at told
  have below := told.known flight (told.joined call flight rfl)
  have failed : ∀ other ∈ world.past caller, other ≠ flight →
      (world.flights other).done = true ∧ (world.flights other).outcome.rows = none := by
    intro other member apart
    rcases told.past other member with ⟨call', same⟩ | ⟨isDone, failed | answers⟩
    · cases same
      exact absurd rfl apart
    · exact ⟨isDone, failed⟩
    · cases answers
  have unled (phase : Phase Rows) (free : phase.led = none) :
      phase.led = (world.phase caller).led := by
    rw [joined, free]
    rfl
  split
  · rename_i taken
    have covers (without : (world.flights flight).outcome.rows = none) :
        (world.flights flight).covers call = true := by simpa [without] using taken
    exact sound.move (sound.led.enter (unled _ rfl)) (.enter _ _ _) rfl (fun _ _ => rfl)
      ((Told.read _ told.known below done covers failed).mono (.enter _ _ _))
  · rename_i left
    have without : (world.flights flight).outcome.rows = none := by
      cases isRows : (world.flights flight).outcome.rows with
      | none => rfl
      | some rows => simp [isRows] at left
    refine sound.move (sound.led.enter (unled _ rfl)) (.enter _ _ _) rfl (fun _ _ => rfl)
      (Told.mono ⟨by simp, by simp, by simp, by simp, told.known, ?_⟩ (.enter _ _ _))
    intro other member
    by_cases same : other = flight
    · subst same
      exact .inr ⟨done, .inl without⟩
    · obtain ⟨isDone, failed⟩ := failed other member same
      exact .inr ⟨isDone, .inl failed⟩

theorem Sound.signal {world : World Rows} (sound : Sound world) {caller flight : Nat} {call : Call}
    {raised : Bool} (removed : world.phase caller = .removed call flight raised) :
    Sound ((world.setFlight flight { world.flights flight with done := true }).enter caller
      (if raised then .raised call
        else .answered call (some flight) (world.flights flight).outcome)) := by
  have leads : (world.phase caller).led = some (call, flight, false) := by rw [removed]; rfl
  have below := sound.led.bounded _ _ _ _ leads
  obtain ⟨pending, timeout, attempts⟩ := sound.led.faithful _ _ _ _ leads
  have grown : Extends world
      (world.setFlight flight { world.flights flight with done := true }) := .setFlight pending
  have plain : (world.phase caller).isPlain = true := by rw [removed]; rfl
  cases raised with
  | true =>
      exact sound.move_plain (sound.led.signal removed rfl) ⟨grown.fresh, grown.settled⟩ rfl rfl
        plain rfl
  | false =>
      refine sound.move (sound.led.signal removed rfl) ⟨grown.fresh, grown.settled⟩ rfl
        (fun _ _ => rfl) ?_
      have failed := ((sound.told caller).mono grown).past_failed plain
      have told : Told (world.setFlight flight { world.flights flight with done := true })
          (.answered call (some flight) (world.flights flight).outcome) (world.past caller) := by
        have own := Told.read call ((sound.told caller).mono grown).known below
          (by simp [World.setFlight]) (fun _ => by
            simp [World.setFlight, Flight.covers, timeout, attempts])
          (fun other member _ => failed other member)
        simpa [World.setFlight] using own
      exact told.mono (.enter _ _ _)

theorem Sound.kept {world next : World Rows} (sound : Sound world) {label : Label Rows}
    (patient : ∀ caller, label ≠ .runOut caller)
    (taken : step showTimeout world label = some next) : Sound next := by
  have unled {caller : Nat} {phase phase' : Phase Rows} (before : world.phase caller = phase')
      (same : phase.led = phase'.led) : phase.led = (world.phase caller).led := by
    rw [before, same]
  have plain {caller : Nat} {phase : Phase Rows} (before : world.phase caller = phase)
      (isPlain : phase.isPlain = true) : (world.phase caller).isPlain = true := by
    rw [before, isPlain]
  have alone {caller : Nat} {call : Call} (before : world.phase caller = .askingAlone call) :
      False := (sound.told caller).together call before
  cases label with
  | call caller call =>
      simp only [CrtSh.step] at taken
      split at taken
      · rename_i before
        cases taken
        exact sound.move_plain (sound.led.enter (unled before rfl)) (.enter _ _ _) rfl rfl
          (plain before rfl) rfl
      · cases taken
  | lookUp caller cached =>
      simp only [CrtSh.step] at taken
      split at taken
      · rename_i call before
        split at taken
        · cases taken
          exact sound.move (sound.led.enter (unled before rfl)) (.enter _ _ _) rfl (fun _ _ => rfl)
            (((sound.told caller).cached (plain before rfl) (by simp) rfl).mono (.enter _ _ _))
        · cases taken
          exact sound.move_plain (sound.led.enter (unled before rfl)) (.enter _ _ _) rfl rfl
            (plain before rfl) rfl
      · cases taken
  | arrive caller =>
      simp only [CrtSh.step] at taken
      split at taken
      · rename_i call before
        cases taken
        cases registered : world.register call.key with
        | some flight => exact sound.join before registered
        | none =>
            have phases : (world.arrive caller call).phase =
                Function.update world.phase caller (.asking call world.fresh) := by
              simp only [World.arrive, registered]
            exact sound.move_plain (sound.led.arrive before) (.arrive _ _ _) phases
              (by simp only [World.arrive, registered]) (plain before rfl) rfl
      · cases taken
  | answer caller responses =>
      simp only [CrtSh.step] at taken
      split at taken
      · rename_i call flight before
        cases taken
        have pending := (sound.led.faithful caller call flight true (by rw [before]; rfl)).1
        have grown : Extends world (world.setFlight flight
            { world.flights flight with outcome := ask showTimeout call responses }) :=
          .setFlight pending
        have led := sound.led.setFlight flight
          { world.flights flight with outcome := ask showTimeout call responses } ⟨rfl, rfl, rfl⟩
        exact sound.move_plain (led.enter (unled before rfl)) ⟨grown.fresh, grown.settled⟩ rfl rfl
          (plain before rfl) rfl
      · rename_i before
        exact (alone before).elim
      · cases taken
  | raise caller =>
      simp only [CrtSh.step] at taken
      split at taken
      · rename_i before
        cases taken
        exact sound.move_plain (sound.led.enter (unled before rfl)) (.enter _ _ _) rfl rfl
          (plain before rfl) rfl
      · rename_i before
        exact (alone before).elim
      · cases taken
  | remove caller =>
      simp only [CrtSh.step] at taken
      split at taken
      · rename_i call flight raised before
        cases taken
        have own := sound.led.held caller call flight (by rw [before]; rfl)
        have same : (world.remove call.key flight).flights = world.flights ∧
            (world.remove call.key flight).fresh = world.fresh ∧
            (world.remove call.key flight).phase = world.phase ∧
            (world.remove call.key flight).past = world.past := by
          rw [World.remove, if_pos own]
          exact ⟨rfl, rfl, rfl, rfl⟩
        obtain ⟨flights, fresh, phases, pasts⟩ := same
        have entered : ((world.remove call.key flight).enter caller
            (.removed call flight raised)).phase =
              Function.update world.phase caller (.removed call flight raised) := by
          simp only [World.enter, phases]
        exact sound.move_plain (sound.led.remove before)
          (.of_flights fresh fun other done => by simp [World.enter, flights, done])
          entered pasts (plain before rfl) rfl
      · cases taken
  | signal caller =>
      simp only [CrtSh.step] at taken
      split at taken
      · rename_i before
        cases taken
        exact sound.signal before
      · cases taken
  | wake caller =>
      simp only [CrtSh.step] at taken
      split at taken
      · rename_i before
        split at taken
        · rename_i done
          cases taken
          exact sound.wake before done
        · cases taken
      · cases taken
  | runOut caller => exact absurd rfl (patient caller)
  | finish caller stale =>
      simp only [CrtSh.step] at taken
      split at taken
      · rename_i call flight outcome before
        cases taken
        have told := sound.told caller
        rw [before] at told
        exact sound.move (sound.led.enter (unled before rfl)) (.enter _ _ _) rfl (fun _ _ => rfl)
          ((told.finish stale).mono (.enter _ _ _))
      · cases taken

theorem sound_start (flight : Flight Rows) : Sound (World.start flight) where
  led := led_start flight
  told _ := ⟨by simp [World.start], by simp [World.start], by simp [World.start],
    by simp [World.start], by simp [World.start], by simp [World.start]⟩

/-- Whatever calls do, what holds goes on to hold as long as no wait runs out. -/
theorem sound_run {world final : World Rows} (sound : Sound world) {labels : List (Label Rows)}
    (patient : ∀ caller, .runOut caller ∉ labels)
    (execution : run (step showTimeout) world labels = some final) : Sound final := by
  induction labels generalizing world with
  | nil =>
      obtain rfl := Option.some.inj execution
      exact sound
  | cons label labels induction =>
      obtain ⟨next, taken, rest⟩ := run_cons_eq_some.mp execution
      refine induction (sound.kept showTimeout (fun caller same => patient caller ?_) taken)
        (fun caller member => patient caller (List.mem_cons_of_mem _ member)) rest
      exact same ▸ List.mem_cons_self

/-! ## One lookup at a time -/

/-- What a call asks crt.sh for at the moment. -/
def Phase.asks : Phase Rows → Option Call
  | .asking call _ => some call
  | .askingAlone call => some call
  | _ => none

/-- One caller asks for a domain, failures come from lookups no less patient than the caller, whoever
joined a lookup has its rows, and lookups come off the register. -/
structure Shared (world : World Rows) : Prop where
  single : ∀ first second call call', (world.phase first).asks = some call →
    (world.phase second).asks = some call' → call.key = call'.key → first = second
  patient : ∀ caller call flight result, world.phase caller = .returned call flight result →
    result.rows = none ∨ result.info.stale = true →
    ∃ shared, flight = some shared ∧ (world.flights shared).done = true ∧
      (world.flights shared).outcome.rows = none ∧
      result.failure = (world.flights shared).outcome.error ∧
      call.timeout ≤ (world.flights shared).timeout ∧
      call.attempts ≤ (world.flights shared).attempts
  joiners : ∀ caller, ∀ flight ∈ world.past caller, ∀ rows,
    (world.flights flight).done = true → (world.flights flight).outcome.rows = some rows →
    (∃ call, world.phase caller = .joined call flight) ∨
      (∃ call outcome, world.phase caller = .answered call (some flight) outcome ∧
        outcome.rows = some rows) ∨
      ∃ call result, world.phase caller = .returned call (some flight) result ∧
        result.rows = some rows
  removed : ∀ key flight, world.register key = some flight →
    ∃ caller call, call.key = key ∧
      (world.phase caller = .asking call flight ∨
        ∃ raised next, world.phase caller = .asked call flight raised ∧
          step showTimeout world (.remove caller) = some next ∧ next.register key = none)
  comesOff : ∀ caller call flight, world.phase caller = .asking call flight →
    world.register call.key = some flight ∧
      (∀ responses, ∃ next, step showTimeout world (.answer caller responses) = some next ∧
        next.phase caller = .asked call flight false) ∧
      ∃ next, step showTimeout world (.raise caller) = some next ∧
        next.phase caller = .asked call flight true

theorem Told.asking {world : World Rows} {phase : Phase Rows} {past : List Nat}
    (told : Told world phase past) {call : Call} (asks : phase.asks = some call) :
    ∃ flight, phase = .asking call flight := by
  cases phase with
  | asking call' flight =>
      cases asks
      exact ⟨flight, rfl⟩
  | askingAlone call' => exact absurd rfl (told.together call')
  | _ => cases asks

theorem Sound.single {world : World Rows} (sound : Sound world) {first second : Nat}
    {call call' : Call} (asks : (world.phase first).asks = some call)
    (asks' : (world.phase second).asks = some call') (sameKey : call.key = call'.key) :
    first = second := by
  obtain ⟨flight, isPhase⟩ := (sound.told first).asking asks
  obtain ⟨flight', isPhase'⟩ := (sound.told second).asking asks'
  have leads : (world.phase first).led = some (call, flight, true) := by rw [isPhase]; rfl
  have leads' : (world.phase second).led = some (call', flight', true) := by rw [isPhase']; rfl
  have registered := sound.led.held first call flight leads
  rw [sameKey, sound.led.held second call' flight' leads'] at registered
  obtain rfl := Option.some.inj registered
  exact sound.led.unique first second call call' flight' true true leads leads'

theorem Sound.joiners {world : World Rows} (sound : Sound world) {caller flight : Nat}
    (member : flight ∈ world.past caller) {rows : Rows}
    (found : (world.flights flight).outcome.rows = some rows) :
    (∃ call, world.phase caller = .joined call flight) ∨
      (∃ call outcome, world.phase caller = .answered call (some flight) outcome ∧
        outcome.rows = some rows) ∨
      ∃ call result, world.phase caller = .returned call (some flight) result ∧
        result.rows = some rows := by
  rcases (sound.told caller).past flight member with joined | ⟨-, failed | answers⟩
  · exact .inl joined
  · rw [found] at failed
    cases failed
  · refine .inr ?_
    cases isPhase : world.phase caller with
    | answered call from' outcome =>
        rw [isPhase] at answers
        obtain rfl : from' = some flight := answers
        obtain ⟨shared, same, -, -, rfl, -⟩ := (sound.told caller).answered _ _ _ isPhase
        cases same
        exact .inl ⟨call, _, rfl, found⟩
    | returned call from' result =>
        rw [isPhase] at answers
        obtain rfl : from' = some flight := answers
        rcases (sound.told caller).returned _ _ _ isPhase with ⟨absent, -⟩ | ⟨shared, same, -, -, gives⟩
        · cases absent
        · cases same
          exact .inr ⟨call, result, rfl, gives.rows rows found⟩
    | _ =>
        rw [isPhase] at answers
        cases answers

theorem Sound.removed {world : World Rows} (sound : Sound world) {key : Text} {flight : Nat}
    (registered : world.register key = some flight) :
    ∃ caller call, call.key = key ∧
      (world.phase caller = .asking call flight ∨
        ∃ raised next, world.phase caller = .asked call flight raised ∧
          step showTimeout world (.remove caller) = some next ∧ next.register key = none) := by
  obtain ⟨caller, call, leads, rfl⟩ := sound.led.registered key flight registered
  refine ⟨caller, call, rfl, ?_⟩
  cases isPhase : world.phase caller with
  | asking call' flight' =>
      rw [isPhase] at leads
      cases leads
      exact .inl rfl
  | asked call' flight' raised =>
      rw [isPhase] at leads
      cases leads
      refine .inr ⟨raised, _, rfl, by simp only [step, isPhase]; rfl, ?_⟩
      simp [World.enter, World.remove, registered]
  | removed call' flight' raised =>
      rw [isPhase] at leads
      cases leads
  | _ =>
      rw [isPhase] at leads
      cases leads

theorem Sound.shared {world : World Rows} (sound : Sound world) : Shared showTimeout world where
  single _ _ _ _ := sound.single
  patient caller call flight result isPhase failed := by
    rcases (sound.told caller).returned call flight result isPhase with
      ⟨-, rows, fresh⟩ | ⟨shared, same, -, done, gives⟩
    · rcases failed with without | stale
      · exact absurd without rows
      · rw [fresh] at stale
        cases stale
    · obtain ⟨without, isFailure, covers⟩ := gives.failure failed
      simp only [Flight.covers, Bool.and_eq_true, decide_eq_true_eq] at covers
      exact ⟨shared, same, done, without, isFailure, covers⟩
  joiners _ _ member _ _ := sound.joiners member
  removed _ _ := sound.removed showTimeout
  comesOff caller call flight asking := by
    refine ⟨sound.led.held caller call flight (by rw [asking]; rfl), fun responses => ?_, ?_⟩
    · exact ⟨_, by simp only [step, asking]; rfl, by simp [World.enter]⟩
    · exact ⟨_, by simp only [step, asking]; rfl, by simp [World.enter]⟩

/-- Whatever order calls take their steps in, one caller asks for a domain at a time, and the others
are told what it found or ask in their turn. -/
theorem shared_of_run (flight : Flight Rows) {labels : List (Label Rows)} {final : World Rows}
    (patient : ∀ caller, .runOut caller ∉ labels)
    (execution : run (step showTimeout) (World.start flight) labels = some final) :
    Shared showTimeout final :=
  (sound_run showTimeout (sound_start flight) patient execution).shared showTimeout

/-- One try for a domain, and what it is to be answered by: HTTP 502 to the impatient caller, rows to
the patient one that joined it. -/
def handedOver : List (Label (List Text)) :=
  [.call 0 ⟨"ex.nl".toList, 20, 1, false⟩, .lookUp 0 none, .arrive 0,
    .call 1 ⟨"EX.nl".toList, 20, 3, false⟩, .lookUp 1 none, .arrive 1,
    .answer 0 fun _ => .status 502, .remove 0, .signal 0, .finish 0 none,
    .wake 1, .arrive 1, .answer 1 fun _ => .rows ["www.ex.nl".toList], .remove 1, .signal 1,
    .finish 1 none]

theorem handed_over_shared :
    ∃ final, run (step fun _ => "20".toList) (World.start (.start ⟨[], 0, 0, false⟩)) handedOver =
      some final ∧ Shared (fun _ => "20".toList) final := by
  have taken : (run (step fun _ => "20".toList) (World.start (.start ⟨[], 0, 0, false⟩))
      handedOver).isSome = true := by decide +kernel
  obtain ⟨final, execution⟩ := Option.isSome_iff_exists.mp taken
  exact ⟨final, execution, shared_of_run _ _ (by simp [handedOver]) execution⟩

end CrtSh
end DomainLens
