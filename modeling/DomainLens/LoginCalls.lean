import DomainLens.Auth
import Mathlib

/-!
# Overlapping password attempts

A call of `attempt_local_login` reads the account, checks the password and writes the count back.
Calls overlap, and each counts from what it has read.
-/

namespace DomainLens
namespace Auth
namespace Calls

open Python Run

/-! ## Calls with wrong passwords -/

inductive Stage where
  /-- `_is_locked` and `verify_password`. -/
  | checking (password : Text)
  /-- The new count, and the lock where that is reached. -/
  | counting
  /-- `update_user`. -/
  | storing (now : Time)

/-- A call with the row it has read; `before` are the failures stored by then. -/
structure Call where
  read : User
  before : List Time
  stage : Stage

/-- An evaluation of the password: the failures stored before its call, and when. -/
structure Evaluation where
  before : List Time
  now : Time
deriving DecidableEq

/-- The account and its calls.  Failures have the time they were counted at, the newest first. -/
structure State where
  user : User
  clock : Time
  calls : List Call
  failures : List Time
  evaluations : List Evaluation

def start (user : User) (clock : Time) : State where
  user := user
  clock := clock
  calls := []
  failures := []
  evaluations := []

/-- What happens next: time passes, or a call begins or goes on.  The database may refuse a write. -/
inductive Label where
  | wait (span : Nat)
  | call (password : Text)
  | check (position : Nat)
  | count (position : Nat)
  | store (position : Nat) (taken : Bool)

variable (config : LocalConfig) (crypto : Crypto)

/-- One step of the calls, which all have wrong passwords. -/
def step (state : State) : Label → Option State
  | .wait span => some { state with clock := state.clock + span }
  | .call password =>
      if !config.enabled || password = [] then some state
      else some { state with
        calls := state.calls ++ [⟨state.user, state.failures, .checking password⟩] }
  | .check position =>
      match state.calls[position]? with
      | some { read, before, stage := .checking password } =>
          let storedHash := read.passwordHash.getD []
          if !read.enabled || read.isLocked state.clock || storedHash = [] then
            some { state with calls := state.calls.eraseIdx position }
          else if crypto.verifyPassword password storedHash then none
          else some { state with
            calls := state.calls.set position ⟨read, before, .counting⟩
            evaluations := ⟨before, state.clock⟩ :: state.evaluations }
      | _ => none
  | .count position =>
      match state.calls[position]? with
      | some { read, before, stage := .counting } =>
          some { state with
            calls := state.calls.set position ⟨read, before, .storing state.clock⟩ }
      | _ => none
  | .store position taken =>
      match state.calls[position]? with
      | some { read, stage := .storing now, .. } =>
          if taken then
            some { state with
              user := state.user.countFailure config now read.failedLogins
              calls := state.calls.eraseIdx position
              failures := now :: state.failures }
          else some { state with calls := state.calls.eraseIdx position }
      | _ => none

def lockout : Time := config.lockoutMinutes * minute

/-- As many failures as the limit lie within one lock-out period, and the lock of the last one has
not expired. -/
def Spent (evaluation : Evaluation) : Prop :=
  ∃ burst : List Time, burst.Sublist evaluation.before ∧
    (burst.length : Int) = config.maxFailedAttempts ∧
    (∀ first ∈ burst, ∀ last ∈ burst, last - first < lockout config) ∧
    ∃ last ∈ burst, evaluation.now < last + lockout config

/-- A call stores its count over the columns it has read. -/
def Unchanged (state : State) (label : Label) (_ : State) : Prop :=
  match label with
  | .store position true =>
      ∀ call ∈ state.calls[position]?,
        call.read.failedLogins = state.user.failedLogins ∧
          call.read.lockedUntil = state.user.lockedUntil
  | _ => True

instance (state : State) : ∀ (label : Label) (next : State), Decidable (Unchanged state label next)
  | .store position true, _ =>
      inferInstanceAs (Decidable (∀ call ∈ state.calls[position]?,
        call.read.failedLogins = state.user.failedLogins ∧
          call.read.lockedUntil = state.user.lockedUntil))
  | .store _ false, _ | .wait _, _ | .call _, _ | .check _, _ | .count _, _ => .isTrue trivial

/-! ## What the columns say of the failures -/

/-- The failures since the last lock are counted, and came when it had expired. -/
def Counted (user : User) (failures : List Time) : Prop :=
  ∃ recent locked, failures = recent ++ locked ∧ recent.length ≤ user.failedLogins ∧
    (recent ≠ [] → (user.failedLogins : Int) < config.maxFailedAttempts) ∧
    ∀ failure ∈ locked, ∃ until_, user.lockedUntil = some until_ ∧
      failure + lockout config ≤ until_ ∧ ∀ later ∈ recent, until_ ≤ later

/-- The lock of a row, before all others where there is none. -/
def lockOf (user : User) : WithBot Time := user.lockedUntil

/-- A row with fewer failures than another: an earlier lock, or a lower count under the same one. -/
def Older (read user : User) : Prop :=
  lockOf read < lockOf user ∨ lockOf read = lockOf user ∧ read.failedLogins < user.failedLogins

theorem Older.trans {first second third : User} (left : Older first second)
    (right : Older second third) : Older first third := by
  rcases left with left | ⟨same, fewer⟩
  · rcases right with right | ⟨same, -⟩
    · exact .inl (left.trans right)
    · exact .inl (same ▸ left)
  · rcases right with right | ⟨also, less⟩
    · exact .inl (same ▸ right)
    · exact .inr ⟨same.trans also, fewer.trans less⟩

variable {config} {user : User} {failures : List Time} {now : Time}

private theorem lockout_pos : 0 < lockout config := by
  have bound := config.lockout_bound
  unfold lockout minute
  linarith

theorem Counted.not_spent (counted : Counted config user failures)
    (unlocked : user.isLocked now = false) : ¬Spent config ⟨failures, now⟩ := by
  rintro ⟨burst, part, full, close, last, member, early⟩
  obtain ⟨recent, locked, rfl, covered, below, expired⟩ := counted
  obtain ⟨late, old, rfl, ofRecent, ofLocked⟩ := List.sublist_append_iff.mp part
  -- fewer failures than the limit are recent, so one of the burst is older than the lock
  obtain ⟨oldest, isOld⟩ : ∃ oldest, oldest ∈ old := by
    by_contra none_old
    have empty : old = [] := List.eq_nil_iff_forall_not_mem.mpr fun time held => none_old ⟨time, held⟩
    subst empty
    have bound := config.attempts_bound
    have some_recent : recent ≠ [] := by
      rintro rfl
      simp [List.sublist_nil.mp ofRecent] at full
      omega
    have length := ofRecent.length_le
    have fewer := below some_recent
    rw [List.append_nil] at full
    omega
  obtain ⟨until_, isLocked, passed, came⟩ := expired oldest (ofLocked.subset isOld)
  have passed_lock : until_ ≤ now := by
    simpa [User.isLocked, isLocked] using unlocked
  have old_last : last ∈ old := by
    refine (List.mem_append.mp member).resolve_left fun isLate => ?_
    have within := close oldest (List.mem_append_right _ isOld) last member
    have after := came last (ofRecent.subset isLate)
    linarith
  obtain ⟨until', also, left, -⟩ := expired last (ofLocked.subset old_last)
  rw [isLocked] at also
  obtain rfl := Option.some.inj also
  simp only at early
  linarith

/-! ## What a stored failure changes -/

/-- A failure counted from the row as it is, when no lock holds, makes the row newer. -/
theorem older_countFailure {read : User} (failedLogins : read.failedLogins = user.failedLogins)
    (unlocked : ∀ until_ ∈ user.lockedUntil, until_ ≤ now) :
    Older user (user.countFailure config now read.failedLogins) := by
  unfold User.countFailure
  split
  · left
    have positive : 0 < lockout config := lockout_pos
    change lockOf user < ((now + lockout config : Time) : WithBot Time)
    unfold lockOf
    cases locked : user.lockedUntil with
    | none => exact WithBot.bot_lt_coe _
    | some until_ =>
        have passed := unlocked until_ locked
        exact WithBot.coe_lt_coe.mpr (by linarith)
  · right
    exact ⟨rfl, by simp [failedLogins]⟩

theorem Counted.countFailure {read : User} (counted : Counted config user failures)
    (failedLogins : read.failedLogins = user.failedLogins)
    (unlocked : ∀ until_ ∈ user.lockedUntil, until_ ≤ now) (past : ∀ failure ∈ failures, failure ≤ now) :
    Counted config (user.countFailure config now read.failedLogins) (now :: failures) := by
  unfold User.countFailure
  rw [failedLogins]
  split
  · rename_i reached
    refine ⟨[], now :: failures, rfl, Nat.zero_le _, by simp, fun failure member => ?_⟩
    refine ⟨now + lockout config, rfl, ?_, by simp⟩
    have notLater : failure ≤ now := by
      rcases List.mem_cons.mp member with rfl | stored
      · exact le_refl _
      · exact past failure stored
    linarith
  · rename_i below
    obtain ⟨recent, locked, rfl, covered, -, expired⟩ := counted
    refine ⟨now :: recent, locked, rfl, Nat.succ_le_succ covered, fun _ => not_le.mp below, ?_⟩
    intro failure member
    obtain ⟨until_, isLocked, passed, came⟩ := expired failure member
    exact ⟨until_, isLocked, passed, List.forall_mem_cons.mpr ⟨unlocked until_ isLocked, came⟩⟩

/-! ## What a step keeps -/

/-- What a call that goes on has found: the row it read was not locked, and no failure it knows of
is to come. -/
def Call.Admitted (call : Call) (now : Time) : Prop :=
  (∀ until_ ∈ call.read.lockedUntil, until_ ≤ now) ∧ ∀ failure ∈ call.before, failure ≤ now

def Call.Timely (call : Call) (clock : Time) : Prop :=
  match call.stage with
  | .checking _ => ∀ failure ∈ call.before, failure ≤ clock
  | .counting => call.Admitted clock
  | .storing now => call.Admitted now ∧ now ≤ clock

/-- What every step keeps that stores over the columns it has read. -/
structure Sound (config : LocalConfig) (state : State) : Prop where
  counted : Counted config state.user state.failures
  past : ∀ failure ∈ state.failures, failure ≤ state.clock
  read : ∀ call ∈ state.calls, Counted config call.read call.before ∧
    (call.before = state.failures ∧ call.read = state.user ∨ Older call.read state.user)
  timely : ∀ call ∈ state.calls, call.Timely state.clock
  bounded : ∀ evaluation ∈ state.evaluations, ¬Spent config evaluation

theorem sound_start (user : User) (clock : Time) : Sound config (start user clock) where
  counted := ⟨[], [], rfl, Nat.zero_le _, by simp, by simp⟩
  past := by simp [start]
  read := by simp [start]
  timely := by simp [start]
  bounded := by simp [start]

variable {state next : State} {label : Label}

theorem Call.Timely.mono {call : Call} {clock later : Time} (timely : call.Timely clock)
    (notLater : clock ≤ later) : call.Timely later := by
  unfold Call.Timely Call.Admitted at *
  cases stage : call.stage with
  | checking password =>
      simp only [stage] at timely ⊢
      exact fun failure member => (timely failure member).trans notLater
  | counting =>
      simp only [stage] at timely ⊢
      exact ⟨fun until_ held => (timely.1 until_ held).trans notLater,
        fun failure member => (timely.2 failure member).trans notLater⟩
  | storing now =>
      simp only [stage] at timely ⊢
      exact ⟨timely.1, timely.2.trans notLater⟩

theorem Sound.wait (sound : Sound config state) (span : Nat) :
    Sound config { state with clock := state.clock + span } where
  counted := sound.counted
  past failure member := (sound.past failure member).trans (by simp)
  read := sound.read
  timely call member := (sound.timely call member).mono (by simp)
  bounded := sound.bounded

theorem Sound.call (sound : Sound config state) (password : Text) :
    Sound config { state with
      calls := state.calls ++ [⟨state.user, state.failures, .checking password⟩] } where
  counted := sound.counted
  past := sound.past
  read call member := by
    rcases List.mem_append.mp member with old | new
    · exact sound.read call old
    · rw [List.mem_singleton.mp new]
      exact ⟨sound.counted, .inl ⟨rfl, rfl⟩⟩
  timely call member := by
    rcases List.mem_append.mp member with old | new
    · exact sound.timely call old
    · rw [List.mem_singleton.mp new]
      exact sound.past
  bounded := sound.bounded

theorem Sound.withCalls (sound : Sound config state) {calls : List Call}
    (from_ : ∀ call ∈ calls, call ∈ state.calls ∨
      (∃ old ∈ state.calls, call.read = old.read ∧ call.before = old.before) ∧
        call.Timely state.clock) :
    Sound config { state with calls } where
  counted := sound.counted
  past := sound.past
  read call member := by
    rcases from_ call member with old | ⟨⟨old, held, read, before⟩, -⟩
    · exact sound.read call old
    · rw [read, before]
      exact sound.read old held
  timely call member := (from_ call member).elim (sound.timely call) And.right
  bounded := sound.bounded

/-- A call that stores over the columns it has read knows of every failure. -/
theorem Sound.known (sound : Sound config state) {call : Call} (member : call ∈ state.calls)
    (failedLogins : call.read.failedLogins = state.user.failedLogins)
    (lockedUntil : call.read.lockedUntil = state.user.lockedUntil) :
    call.before = state.failures := by
  rcases (sound.read call member).2 with ⟨same, -⟩ | earlier | ⟨-, fewer⟩
  · exact same
  · exact absurd (show lockOf call.read = lockOf state.user from lockedUntil) (ne_of_lt earlier)
  · exact absurd failedLogins (Nat.ne_of_lt fewer)

theorem Sound.store (sound : Sound config state) {position : Nat} {call : Call} {now : Time}
    (here : state.calls[position]? = some call) (stage : call.stage = .storing now)
    (failedLogins : call.read.failedLogins = state.user.failedLogins)
    (lockedUntil : call.read.lockedUntil = state.user.lockedUntil) :
    Sound config { state with
      user := state.user.countFailure config now call.read.failedLogins
      calls := state.calls.eraseIdx position
      failures := now :: state.failures } := by
  have member := List.mem_of_getElem? here
  have timely := sound.timely call member
  simp only [Call.Timely, Call.Admitted, stage] at timely
  obtain ⟨⟨unlocked, past⟩, notLater⟩ := timely
  rw [lockedUntil] at unlocked
  rw [sound.known member failedLogins lockedUntil] at past
  have newer : Older state.user (state.user.countFailure config now call.read.failedLogins) :=
    older_countFailure failedLogins unlocked
  exact
    { counted := sound.counted.countFailure failedLogins unlocked past
      past := List.forall_mem_cons.mpr ⟨notLater, sound.past⟩
      read := by
        intro other held
        obtain ⟨counted, same | earlier⟩ := sound.read other (List.mem_of_mem_eraseIdx held)
        · exact ⟨counted, .inr (same.2 ▸ newer)⟩
        · exact ⟨counted, .inr (earlier.trans newer)⟩
      timely := fun other held => sound.timely other (List.mem_of_mem_eraseIdx held)
      bounded := sound.bounded }

theorem sound_step (sound : Sound config state) (taken : step config crypto state label = some next)
    (unchanged : Unchanged state label next) : Sound config next := by
  cases label with
  | wait span =>
      obtain rfl := Option.some.inj taken
      exact sound.wait span
  | call password =>
      simp only [step] at taken
      split at taken
      · obtain rfl := Option.some.inj taken
        exact sound
      · obtain rfl := Option.some.inj taken
        exact sound.call password
  | check position =>
      simp only [step] at taken
      split at taken
      · rename_i read before password here
        have member := List.mem_of_getElem? here
        split at taken
        · obtain rfl := Option.some.inj taken
          exact sound.withCalls fun call held => .inl (List.mem_of_mem_eraseIdx held)
        · rename_i admitted
          split at taken
          · simp at taken
          · obtain rfl := Option.some.inj taken
            have unlocked : read.isLocked state.clock = false := by
              cases locked : read.isLocked state.clock <;> simp [locked] at admitted ⊢
            have admits : Call.Admitted ⟨read, before, .counting⟩ state.clock := by
              refine ⟨fun until_ held => ?_, sound.timely _ member⟩
              have isLocked : read.lockedUntil = some until_ := held
              simpa [User.isLocked, isLocked] using unlocked
            have moved : Sound config
                { state with calls := state.calls.set position ⟨read, before, .counting⟩ } := by
              refine sound.withCalls fun call held => (List.mem_or_eq_of_mem_set held).imp_right ?_
              rintro rfl
              exact ⟨⟨_, member, rfl, rfl⟩, admits⟩
            have counted := (sound.read _ member).1
            exact
              { counted := moved.counted
                past := moved.past
                read := moved.read
                timely := moved.timely
                bounded := List.forall_mem_cons.mpr ⟨counted.not_spent unlocked, moved.bounded⟩ }
      · simp at taken
  | count position =>
      simp only [step] at taken
      split at taken
      · rename_i read before here
        have member := List.mem_of_getElem? here
        obtain rfl := Option.some.inj taken
        refine sound.withCalls fun call held => (List.mem_or_eq_of_mem_set held).imp_right ?_
        rintro rfl
        exact ⟨⟨_, member, rfl, rfl⟩, sound.timely _ member, le_refl _⟩
      · simp at taken
  | store position taken' =>
      simp only [step] at taken
      split at taken
      · rename_i read before now here
        split at taken
        · rename_i stored
          obtain rfl := Option.some.inj taken
          obtain rfl : taken' = true := stored
          obtain ⟨failedLogins, lockedUntil⟩ := unchanged _ here
          exact sound.store here rfl failedLogins lockedUntil
        · obtain rfl := Option.some.inj taken
          exact sound.withCalls fun call held => .inl (List.mem_of_mem_eraseIdx held)
      · simp at taken

/-! ## Whole runs -/

/-- While every failure is stored over the columns its call has read, no call that begins after as
many failures as the limit, all within one lock-out period, evaluates a password before the lock
has expired. -/
theorem evaluations_not_spent {user : User} {clock : Time} {labels : List Label} {final : State}
    (unchanged : Along (step config crypto) Unchanged (start user clock) labels)
    (execution : run (step config crypto) (start user clock) labels = some final) :
    ∀ evaluation ∈ final.evaluations, ¬Spent config evaluation :=
  (run_guarded (fun _ _ _ sound taken met => sound_step crypto sound taken met)
    (sound_start user clock) unchanged execution).bounded

/-! ## Three calls at once -/

/-- An account whose password is another. -/
def sampleUser : User := ⟨1, ['j', '@', 'x'], true, some ['p', 'w'], true, some ['S'], [], 0, none⟩

def successiveCalls : List Label :=
  let whole : List Label := [.call ['x'], .check 0, .count 0, .store 0 true]
  whole ++ whole ++ whole ++ [.call ['x'], .check 0]

theorem successiveCalls_not_spent :
    ∃ final, run (step sampleConfig sampleCrypto) (start sampleUser 0) successiveCalls = some final ∧
      final.evaluations.length = 3 ∧ final.user.isLocked final.clock = true ∧
      ∀ evaluation ∈ final.evaluations, ¬Spent sampleConfig evaluation :=
  have unchanged : Along (step sampleConfig sampleCrypto) Unchanged (start sampleUser 0)
      successiveCalls := by
    decide +kernel
  ⟨_, rfl, rfl, by decide, evaluations_not_spent sampleCrypto unchanged rfl⟩

/-- Three calls that all read the account before one of them has stored, then a fourth. -/
def overlappingCalls : List Label :=
  let whole : List Label := [.check 0, .count 0, .store 0 true]
  [.call ['x'], .call ['x'], .call ['x']] ++ whole ++ whole ++ whole ++ [.call ['x'], .check 0]

/-- Each of them stores one failure, and the fourth evaluates the password. -/
theorem overlappingCalls_spent :
    ∃ final, run (step sampleConfig sampleCrypto) (start sampleUser 0) overlappingCalls = some final ∧
      final.user.failedLogins = 1 ∧ ∃ evaluation ∈ final.evaluations, Spent sampleConfig evaluation :=
  ⟨_, rfl, rfl, ⟨[0, 0, 0], 0⟩, by decide, [0, 0, 0], .refl _, by decide, by decide, 0, by decide,
    by decide⟩

end Calls
end Auth
end DomainLens
