import DomainLens.Library.Run
import DomainLens.Python.Text
import Mathlib

/-!
# Stored credentials

All credentials lie in one section of the settings, encrypted, and their values in a cache.  A call
reads the section, changes its own entry and writes the section back; readers fill the cache.  Calls
overlap.
-/

namespace DomainLens
namespace Settings
namespace ApiKeys

open Python Run

/-! ## Encryption -/

def encPrefixV1 : Text := "enc:v1:".toList

def encPrefix : Text := "enc:v2:".toList

/-- Fernet under the key of the installation and a salt; `decryptV1` is without salt.  A token of
another key is no token. -/
structure Cipher (Salt Nonce : Type*) where
  encrypt : Salt → Nonce → Text → Text
  decrypt : Salt → Text → Option Text
  decryptV1 : Text → Option Text
  decrypt_encrypt : ∀ salt nonce value, decrypt salt (encrypt salt nonce value) = some value

variable {Key Salt Nonce : Type*} [DecidableEq Key] (cipher : Cipher Salt Nonce)

/-- Whether a stored text is read with the salt. -/
def salted (stored : Text) : Bool := encPrefix.isPrefixOf stored

/-- `_encrypt`. -/
def encrypt (salt : Salt) (nonce : Nonce) (value : Text) : Text :=
  encPrefix ++ cipher.encrypt salt nonce value

/-- `_decrypt`, with the salt if there is one. -/
def decrypt (salt : Option Salt) (stored : Text) : Text :=
  if salted stored then
    (salt.bind fun salt => cipher.decrypt salt (stored.drop encPrefix.length)).getD []
  else if encPrefixV1.isPrefixOf stored then
    (cipher.decryptV1 (stored.drop encPrefixV1.length)).getD []
  else stored

/-- The value of an entry; a missing one has none. -/
def valueOf (salt : Option Salt) (entry : Option Text) : Text := decrypt cipher salt (entry.getD [])

/-! ## Calls -/

/-- The section `api_keys`. -/
abbrev Section (Key : Type*) := Key → Option Text

/-- `set_key`, `clear_key` and `stored_value`. -/
inductive Request where
  | set (value : Text)
  | clear
  | get
deriving DecidableEq

def Request.value : Request → Text
  | .set value => value
  | .clear | .get => []

inductive Stage (Key Salt : Type*) where
  /-- The look into `_value_cache`. -/
  | looking
  /-- `_load`. -/
  | loading
  /-- `_get_salt`. -/
  | salting (stored : Section Key)
  /-- A new salt, of `_get_salt`. -/
  | newSalt (stored : Section Key) (salt : Salt)
  /-- `set_setting_section`. -/
  | writing (stored : Section Key) (entry : Option Text)
  /-- `_value_cache.clear()`. -/
  | emptying (entry : Option Text)
  /-- The value for `_value_cache`. -/
  | filling (entry : Option Text) (value : Text)

structure Call (Key Salt : Type*) where
  key : Key
  request : Request
  stage : Stage Key Salt

/-- The tables and the cache with the calls that go on.  `last` is what the last call to return has
set or cleared, `answers` is what `stored_value` has returned, the newest first. -/
structure State (Key Salt : Type*) where
  stored : Section Key
  salt : Option Salt
  cache : Key → Option Text
  calls : List (Call Key Salt)
  last : Key → Text
  answers : List (Key × Text)

/-- What happens next: a call begins, or one goes on.  The database may fail, and the random numbers
are those of `os.urandom` and Fernet. -/
inductive Label (Key Salt Nonce : Type*) where
  | setKey (key : Key) (value : Text)
  | clearKey (key : Key)
  | storedValue (key : Key)
  | next (position : Nat) (fails : Bool) (fresh : Salt) (nonce : Nonce)

/-- A call once it has its salt, or has none to be had. -/
def withSalt (call : Call Key Salt) (stored : Section Key) (salt : Option Salt) (nonce : Nonce) :
    Option (Stage Key Salt) :=
  match call.request with
  | .set value => salt.map fun salt => .writing stored (some (encrypt cipher salt nonce value))
  | .clear => some (.writing stored none)
  | .get => some (.filling (stored call.key) (valueOf cipher salt (stored call.key)))

/-- The next step of a call, with the call after it, unless it has returned. -/
def advance (state : State Key Salt) (call : Call Key Salt) (fails : Bool) (fresh : Salt)
    (nonce : Nonce) : State Key Salt × Option (Stage Key Salt) :=
  match call.stage with
  | .looking =>
      match state.cache call.key with
      | some value => ({ state with answers := (call.key, value) :: state.answers }, none)
      | none => (state, some .loading)
  | .loading =>
      let stored : Section Key := if fails then fun _ => none else state.stored
      match call.request with
      | .set _ => (state, some (.salting stored))
      | .clear => (state, some (.writing stored none))
      | .get =>
          if salted ((stored call.key).getD []) then (state, some (.salting stored))
          else (state, withSalt cipher call stored none nonce)
  | .salting stored =>
      if fails then (state, withSalt cipher call stored none nonce)
      else
        match state.salt with
        | some salt => (state, withSalt cipher call stored (some salt) nonce)
        | none => (state, some (.newSalt stored fresh))
  | .newSalt stored salt =>
      if fails then (state, withSalt cipher call stored none nonce)
      else ({ state with salt := some salt }, withSalt cipher call stored (some salt) nonce)
  | .writing stored entry =>
      if fails then (state, none)
      else ({ state with stored := Function.update stored call.key entry }, some (.emptying entry))
  | .emptying _ =>
      ({ state with
          cache := fun _ => none
          last := Function.update state.last call.key call.request.value }, none)
  | .filling _ value =>
      ({ state with
          cache := Function.update state.cache call.key (some value)
          answers := (call.key, value) :: state.answers }, none)

def State.begin (state : State Key Salt) (key : Key) (request : Request) (stage : Stage Key Salt) :
    State Key Salt :=
  { state with calls := state.calls ++ [⟨key, request, stage⟩] }

def step (state : State Key Salt) : Label Key Salt Nonce → Option (State Key Salt)
  | .setKey key value =>
      let value := strip value
      if value = [] ∨ 512 < value.length then some state
      else some (state.begin key (.set value) .loading)
  | .clearKey key => some (state.begin key .clear .loading)
  | .storedValue key => some (state.begin key .get .looking)
  | .next position fails fresh nonce =>
      (state.calls[position]?).map fun call =>
        match advance cipher state call fails fresh nonce with
        | (next, some stage) =>
            { next with calls := state.calls.set position { call with stage } }
        | (next, none) => { next with calls := state.calls.eraseIdx position }

/-- A database before any call of the process. -/
def start (stored : Section Key) (salt : Option Salt) : State Key Salt where
  stored := stored
  salt := salt
  cache := fun _ => none
  calls := []
  last key := valueOf cipher salt (stored key)
  answers := []

/-- What `stored_value` returns while nothing else goes on. -/
def storedValue (state : State Key Salt) (key : Key) : Text :=
  (state.cache key).getD (valueOf cipher state.salt (state.stored key))

/-! ## When nothing is lost -/

/-- A writer is still to empty the cache. -/
def Call.Emptying (call : Call Key Salt) : Prop :=
  match call.stage with
  | .emptying _ => True
  | _ => False

instance (call : Call Key Salt) : Decidable call.Emptying := by
  unfold Call.Emptying
  split <;> infer_instance

/-- The next step of a call rests on nothing that others have changed. -/
def Call.Steady (state : State Key Salt) (fails : Bool) (call : Call Key Salt) : Prop :=
  match call.stage with
  | .looking => True
  | .loading | .salting _ => call.request = .get → fails = false
  | .newSalt _ _ => (call.request = .get → fails = false) ∧ (fails = false → state.salt = none)
  | .writing stored _ => fails = false → ∀ other, other ≠ call.key → stored other = state.stored other
  | .emptying entry => state.stored call.key = entry
  | .filling entry _ => entry = state.stored call.key ∨ ∃ other ∈ state.calls, other.Emptying

instance [Fintype Key] (state : State Key Salt) (fails : Bool) (call : Call Key Salt) :
    Decidable (call.Steady state fails) := by
  unfold Call.Steady
  split <;> infer_instance

/-- Every call writes back the other entries as they are, puts no new salt in another's place,
returns while its entry is the stored one, and gives the cache a value read from the entry as it is,
unless the cache is still to be emptied. -/
def Steady (state : State Key Salt) (label : Label Key Salt Nonce) (_ : State Key Salt) : Prop :=
  match label with
  | .next position fails _ _ => ∀ call ∈ state.calls[position]?, call.Steady state fails
  | _ => True

instance [Fintype Key] (state : State Key Salt) :
    ∀ (label : Label Key Salt Nonce) (next : State Key Salt), Decidable (Steady state label next)
  | .next position fails _ _, _ =>
      inferInstanceAs (Decidable (∀ call ∈ state.calls[position]?, call.Steady state fails))
  | .setKey _ _, _ | .clearKey _, _ | .storedValue _, _ => .isTrue trivial

/-- No step on one credential changes the value of another. -/
def Apart (state : State Key Salt) (label : Label Key Salt Nonce) (next : State Key Salt) : Prop :=
  match label with
  | .next position _ _ _ =>
      ∀ call ∈ state.calls[position]?, ∀ other, other ≠ call.key →
        valueOf cipher next.salt (next.stored other) = valueOf cipher state.salt (state.stored other)
  | _ => next.stored = state.stored ∧ next.salt = state.salt

/-! ## Entries and their salt -/

variable {cipher} {state next : State Key Salt} {salt : Option Salt} {entry : Option Text}

def Readable (salt : Option Salt) (entry : Option Text) : Prop :=
  salted (entry.getD []) = true → salt.isSome = true

theorem readable_some (salt : Salt) (entry : Option Text) : Readable (some salt) entry := fun _ => rfl

theorem readable_none : Readable salt (none : Option Text) :=
  fun isSalted => absurd isSalted (by decide)

theorem valueOf_congr {other : Option Salt} (unsalted : salted (entry.getD []) = false) :
    valueOf cipher salt entry = valueOf cipher other entry := by
  simp [valueOf, decrypt, unsalted]

theorem valueOf_newSalt (readable : Readable (none : Option Salt) entry) (salt : Salt) :
    valueOf cipher (some salt) entry = valueOf cipher none entry := by
  refine valueOf_congr ?_
  cases isSalted : salted (entry.getD []) with
  | false => rfl
  | true => exact absurd (readable isSalted) (by simp)

theorem valueOf_encrypt (salt : Salt) (nonce : Nonce) (value : Text) :
    valueOf cipher (some salt) (some (encrypt cipher salt nonce value)) = value := by
  have isSalted : salted (encrypt cipher salt nonce value) = true := by
    simp [salted, encrypt]
  rw [valueOf, decrypt, Option.getD_some, if_pos isSalted]
  simp [encrypt, cipher.decrypt_encrypt]

theorem valueOf_none : valueOf cipher salt none = [] := by
  have first : salted [] = false := by decide
  have second : encPrefixV1.isPrefixOf [] = false := by decide
  simp only [valueOf, decrypt, Option.getD_none, first, second, Bool.false_eq_true, if_false]

/-! ## What a step keeps -/

/-- What a call has found is so under the salt stored. -/
def Sound (cipher : Cipher Salt Nonce) (salt : Option Salt) (call : Call Key Salt) : Prop :=
  match call.stage with
  | .looking | .loading | .salting _ | .newSalt _ _ => True
  | .writing _ entry | .emptying entry =>
      Readable salt entry ∧ valueOf cipher salt entry = call.request.value
  | .filling entry value => Readable salt entry ∧ value = valueOf cipher salt entry

/-- What every steady step keeps, of a state with its calls in any order. -/
structure Coherent (cipher : Cipher Salt Nonce) (state : State Key Salt)
    (calls : List (Call Key Salt)) : Prop where
  readable : ∀ key, Readable state.salt (state.stored key)
  sound : ∀ call ∈ calls, Sound cipher state.salt call
  current : ∀ key, valueOf cipher state.salt (state.stored key) = state.last key ∨
    ∃ call ∈ calls, call.key = key ∧ call.Emptying
  cached : (∃ call ∈ calls, call.Emptying) ∨ ∀ key, ∀ value ∈ state.cache key,
    value = valueOf cipher state.salt (state.stored key)

variable {calls rest : List (Call Key Salt)} {call : Call Key Salt}

section

omit [DecidableEq Key]

theorem Coherent.perm {others : List (Call Key Salt)} (holds : Coherent cipher state calls)
    (same : calls.Perm others) : Coherent cipher state others where
  readable := holds.readable
  sound call member := holds.sound call (same.mem_iff.mpr member)
  current key := (holds.current key).imp_right fun ⟨call, member, pending⟩ =>
    ⟨call, same.mem_iff.mp member, pending⟩
  cached := holds.cached.imp_left fun ⟨call, member, pending⟩ =>
    ⟨call, same.mem_iff.mp member, pending⟩

theorem Coherent.withCalls (others : List (Call Key Salt)) (holds : Coherent cipher state calls) :
    Coherent cipher { state with calls := others } calls where
  readable := holds.readable
  sound := holds.sound
  current := holds.current
  cached := holds.cached

theorem Coherent.replace (holds : Coherent cipher state (call :: rest)) (idle : ¬call.Emptying)
    {later : List (Call Key Salt)} (sound : ∀ call ∈ later, Sound cipher state.salt call) :
    Coherent cipher state (later ++ rest) where
  readable := holds.readable
  sound call member := (List.mem_append.mp member).elim (sound call)
    fun held => holds.sound call (List.mem_cons_of_mem _ held)
  current key := by
    refine (holds.current key).imp_right ?_
    rintro ⟨other, member, same, pending⟩
    rcases List.mem_cons.mp member with rfl | held
    · exact absurd pending idle
    · exact ⟨other, List.mem_append_right _ held, same, pending⟩
  cached := by
    refine holds.cached.imp_left ?_
    rintro ⟨other, member, pending⟩
    rcases List.mem_cons.mp member with rfl | held
    · exact absurd pending idle
    · exact ⟨other, List.mem_append_right _ held, pending⟩

theorem Coherent.ended (holds : Coherent cipher state (call :: rest)) (idle : ¬call.Emptying) :
    Coherent cipher state rest :=
  @Coherent.replace _ _ _ _ _ _ _ holds idle [] (by simp)

theorem Coherent.newSalt (holds : Coherent cipher state calls) (unset : state.salt = none)
    (salt : Salt) : Coherent cipher { state with salt := some salt } calls where
  readable key := readable_some salt _
  sound call member := by
    have sound := holds.sound call member
    rw [unset] at sound
    unfold Sound at sound ⊢
    split <;> simp_all [valueOf_newSalt, readable_some]
  current key := by
    have readable := holds.readable key
    have current := holds.current key
    rw [unset] at readable current
    rwa [valueOf_newSalt readable salt]
  cached := by
    refine holds.cached.imp_right fun cached key value member => ?_
    have readable := holds.readable key
    rw [unset] at readable
    rw [valueOf_newSalt readable salt, ← unset]
    exact cached key value member

end

/-- `set_setting_section`, of a section with the other entries as they are. -/
theorem Coherent.write (holds : Coherent cipher state (call :: rest)) {stored : Section Key}
    {entry : Option Text} (stage : call.stage = .writing stored entry)
    (others : ∀ other, other ≠ call.key → stored other = state.stored other) :
    Coherent cipher { state with stored := Function.update stored call.key entry }
      ({ call with stage := .emptying entry } :: rest) := by
  have same : Function.update stored call.key entry = Function.update state.stored call.key entry := by
    funext other
    by_cases own : other = call.key
    · simp [own]
    · simp [own, others other own]
  have sound := holds.sound call List.mem_cons_self
  rw [Sound, stage] at sound
  rw [same]
  exact
    { readable := fun key => by
        by_cases own : key = call.key
        · simpa [own] using sound.1
        · simpa [own] using holds.readable key
      sound := List.forall_mem_cons.mpr ⟨sound, (List.forall_mem_cons.mp holds.sound).2⟩
      current := fun key => by
        by_cases own : key = call.key
        · exact .inr ⟨_, List.mem_cons_self, own.symm, trivial⟩
        · simp only [Function.update_of_ne own]
          refine (holds.current key).imp_right ?_
          rintro ⟨other, member, also, pending⟩
          rcases List.mem_cons.mp member with rfl | held
          · exact absurd also.symm own
          · exact ⟨other, List.mem_cons_of_mem _ held, also, pending⟩
      cached := .inl ⟨_, List.mem_cons_self, trivial⟩ }

/-- `_value_cache.clear()`, of a call whose entry is the stored one. -/
theorem Coherent.empty (holds : Coherent cipher state (call :: rest)) {entry : Option Text}
    (stage : call.stage = .emptying entry) (own : state.stored call.key = entry) :
    Coherent cipher { state with
      cache := fun _ => none
      last := Function.update state.last call.key call.request.value } rest where
  readable := holds.readable
  sound := (List.forall_mem_cons.mp holds.sound).2
  current key := by
    have sound := holds.sound call List.mem_cons_self
    rw [Sound, stage] at sound
    by_cases same : key = call.key
    · left
      simp [same, own, sound.2]
    · simp only [Function.update_of_ne same]
      refine (holds.current key).imp_right ?_
      rintro ⟨other, member, also, pending⟩
      rcases List.mem_cons.mp member with rfl | held
      · exact absurd also.symm same
      · exact ⟨other, held, also, pending⟩
  cached := .inr (by simp)

theorem Coherent.fill (holds : Coherent cipher state rest) {key : Key} {value : Text}
    (answers : List (Key × Text))
    (current : value = valueOf cipher state.salt (state.stored key) ∨ ∃ call ∈ rest, call.Emptying) :
    Coherent cipher
      { state with cache := Function.update state.cache key (some value), answers } rest where
  readable := holds.readable
  sound := holds.sound
  current := holds.current
  cached := by
    rcases holds.cached with pending | cached
    · exact .inl pending
    · refine current.symm.imp_right fun read other held member => ?_
      by_cases same : other = key
      · subst same
        have isValue : value = held := by simpa using member
        rw [← isValue, read]
      · exact cached other held (by simpa [same] using member)

omit [DecidableEq Key] in
/-- With the salt stored, or without where none is needed, a call goes on soundly. -/
theorem sound_withSalt (stored : Section Key) (nonce : Nonce)
    (same : ∀ found, salt = some found → state.salt = some found)
    (unsalted : call.request = .get → salt = none → salted ((stored call.key).getD []) = false) :
    ∀ stage ∈ withSalt cipher call stored salt nonce, Sound cipher state.salt { call with stage } := by
  intro stage member
  cases request : call.request with
  | set value =>
      simp only [withSalt, request] at member
      obtain ⟨found, isSalt, rfl⟩ := Option.map_eq_some_iff.mp member
      rw [same found isSalt]
      exact ⟨readable_some _ _, valueOf_encrypt _ _ _⟩
  | clear =>
      simp only [withSalt, request, Option.mem_def, Option.some.injEq] at member
      obtain rfl := member
      exact ⟨readable_none, valueOf_none⟩
  | get =>
      simp only [withSalt, request, Option.mem_def, Option.some.injEq] at member
      obtain rfl := member
      cases found : salt with
      | some salt =>
          rw [same salt found]
          exact ⟨readable_some _ _, rfl⟩
      | none =>
          have unsalted := unsalted request found
          exact ⟨fun isSalted => by simp [unsalted] at isSalted, valueOf_congr unsalted⟩

/-- What comes of a step of a call that rests on nothing others have changed. -/
theorem Coherent.advance (holds : Coherent cipher state (call :: rest)) {fails : Bool}
    (among : state.calls.Perm (call :: rest)) (steady : call.Steady state fails) (fresh : Salt)
    (nonce : Nonce) :
    Coherent cipher (advance cipher state call fails fresh nonce).1
      (((advance cipher state call fails fresh nonce).2.map fun stage =>
        { call with stage }).toList ++ rest) := by
  have goes : ∀ {salt : Option Salt} (stored : Section Key), ¬call.Emptying →
      (∀ found, salt = some found → state.salt = some found) →
      (call.request = .get → salt = none → salted ((stored call.key).getD []) = false) →
      Coherent cipher state (((withSalt cipher call stored salt nonce).map fun stage =>
        { call with stage }).toList ++ rest) := by
    intro salt stored idle same unsalted
    refine holds.replace idle fun later member => ?_
    obtain ⟨stage, found, rfl⟩ := Option.map_eq_some_iff.mp (Option.mem_toList.mp member)
    exact sound_withSalt stored nonce same unsalted stage found
  unfold Call.Steady at steady
  cases stage : call.stage with
  | looking =>
      have idle : ¬call.Emptying := by simp [Call.Emptying, stage]
      simp only [ApiKeys.advance, stage]
      cases state.cache call.key with
      | some value =>
          have gone := holds.ended idle
          exact ⟨gone.readable, gone.sound, gone.current, gone.cached⟩
      | none => exact holds.replace idle (by simp [Sound])
  | loading =>
      have idle : ¬call.Emptying := by simp [Call.Emptying, stage]
      simp only [stage] at steady
      simp only [ApiKeys.advance, stage]
      cases request : call.request with
      | set value => exact holds.replace idle (by simp [Sound])
      | clear =>
          exact holds.replace idle (by simp [Sound, readable_none, valueOf_none, Request.value])
      | get =>
          have succeeds := steady request
          simp only [succeeds, Bool.false_eq_true, if_false]
          cases unsalted : salted ((state.stored call.key).getD []) with
          | true => exact holds.replace idle (by simp [Sound])
          | false => exact request ▸ goes state.stored idle (by simp) fun _ _ => unsalted
  | salting stored =>
      have idle : ¬call.Emptying := by simp [Call.Emptying, stage]
      simp only [stage] at steady
      simp only [ApiKeys.advance, stage]
      split
      · rename_i failed
        refine goes stored idle (by simp) fun request => ?_
        exact absurd failed (by simp [steady request])
      · cases salt : state.salt with
        | some salt =>
            exact goes stored idle (fun found same => by rw [salt, ← same]) (by simp)
        | none => exact holds.replace idle (by simp [Sound])
  | newSalt stored salt =>
      have idle : ¬call.Emptying := by simp [Call.Emptying, stage]
      simp only [stage] at steady
      simp only [ApiKeys.advance, stage]
      split
      · rename_i failed
        refine goes stored idle (by simp) fun request => ?_
        exact absurd failed (by simp [steady.1 request])
      · rename_i taken
        have salted := holds.newSalt (steady.2 (by simpa using taken)) salt
        refine salted.replace idle fun later member => ?_
        obtain ⟨stage, found, rfl⟩ := Option.map_eq_some_iff.mp (Option.mem_toList.mp member)
        exact sound_withSalt stored nonce (fun _ same => same) (by simp) stage found
  | writing stored entry =>
      have idle : ¬call.Emptying := by simp [Call.Emptying, stage]
      simp only [stage] at steady
      simp only [ApiKeys.advance, stage]
      split
      · exact holds.ended idle
      · rename_i taken
        exact holds.write stage (steady (by simpa using taken))
  | emptying entry =>
      simp only [stage] at steady
      simp only [ApiKeys.advance, stage]
      exact holds.empty stage steady
  | filling entry value =>
      have idle : ¬call.Emptying := by simp [Call.Emptying, stage]
      simp only [stage] at steady
      simp only [ApiKeys.advance, stage]
      have sound := holds.sound call List.mem_cons_self
      rw [Sound, stage] at sound
      have gone := holds.ended idle
      refine gone.fill _ (steady.imp (fun same => by rw [← same]; exact sound.2) ?_)
      rintro ⟨other, member, pending⟩
      rcases List.mem_cons.mp (among.mem_iff.mp member) with rfl | held
      · exact absurd pending idle
      · exact ⟨other, held, pending⟩

/-! ## Steps -/

variable {label : Label Key Salt Nonce}

omit [DecidableEq Key] in
theorem Coherent.begin (holds : Coherent cipher state state.calls) (key : Key) (request : Request)
    {stage : Stage Key Salt} (sound : Sound cipher state.salt ⟨key, request, stage⟩) :
    Coherent cipher (state.begin key request stage) (state.begin key request stage).calls where
  readable := holds.readable
  sound call member := by
    rcases List.mem_append.mp member with old | new
    · exact holds.sound call old
    · exact List.mem_singleton.mp new ▸ sound
  current key := (holds.current key).imp_right fun ⟨call, member, pending⟩ =>
    ⟨call, List.mem_append_left _ member, pending⟩
  cached := holds.cached.imp_left fun ⟨call, member, pending⟩ =>
    ⟨call, List.mem_append_left _ member, pending⟩

theorem step_next {position : Nat} {fails : Bool} {fresh : Salt} {nonce : Nonce}
    (taken : step cipher state (.next position fails fresh nonce) = some next) :
    ∃ call rest, state.calls[position]? = some call ∧ state.calls.Perm (call :: rest) ∧
      next.calls.Perm (((advance cipher state call fails fresh nonce).2.map fun stage =>
        { call with stage }).toList ++ rest) ∧
      next = { (advance cipher state call fails fresh nonce).1 with calls := next.calls } := by
  obtain ⟨call, found, made⟩ := Option.map_eq_some_iff.mp taken
  obtain ⟨bound, here⟩ := List.getElem?_eq_some_iff.mp found
  refine ⟨call, state.calls.eraseIdx position, found,
    here ▸ (List.getElem_cons_eraseIdx_perm bound).symm, ?_⟩
  split at made
  · rename_i after stage advanced
    subst made
    exact ⟨by simpa [advanced] using List.set_perm_cons_eraseIdx bound _, by rw [advanced]⟩
  · rename_i after advanced
    subst made
    exact ⟨by simp [advanced], by rw [advanced]⟩

theorem step_coherent (holds : Coherent cipher state state.calls)
    (taken : step cipher state label = some next) (steady : Steady state label next) :
    Coherent cipher next next.calls := by
  cases label with
  | setKey key value =>
      simp only [step] at taken
      split at taken
      · exact Option.some.inj taken ▸ holds
      · exact Option.some.inj taken ▸ holds.begin key _ trivial
  | clearKey key => exact Option.some.inj taken ▸ holds.begin key _ trivial
  | storedValue key => exact Option.some.inj taken ▸ holds.begin key _ trivial
  | next position fails fresh nonce =>
      obtain ⟨call, rest, here, among, after, written⟩ := step_next taken
      have advanced := (holds.perm among).advance among (steady call here) fresh nonce
      rw [written]
      exact (advanced.perm after.symm).withCalls next.calls

theorem Coherent.advance_apart (holds : Coherent cipher state calls) {fails : Bool}
    (steady : call.Steady state fails) (fresh : Salt) (nonce : Nonce) (other : Key)
    (different : other ≠ call.key) :
    valueOf cipher (ApiKeys.advance cipher state call fails fresh nonce).1.salt
        ((ApiKeys.advance cipher state call fails fresh nonce).1.stored other) =
      valueOf cipher state.salt (state.stored other) := by
  unfold Call.Steady at steady
  cases stage : call.stage with
  | looking =>
      simp only [ApiKeys.advance, stage]
      cases state.cache call.key <;> rfl
  | loading =>
      simp only [ApiKeys.advance, stage]
      cases call.request with
      | set value => rfl
      | clear => rfl
      | get => simp only; split_ifs <;> rfl
  | salting stored =>
      simp only [ApiKeys.advance, stage]
      split
      · rfl
      · cases salt : state.salt <;> simp [salt]
  | newSalt stored salt =>
      simp only [stage] at steady
      simp only [ApiKeys.advance, stage]
      split
      · rfl
      · rename_i taken
        have unset := steady.2 (by simpa using taken)
        have readable := holds.readable other
        rw [unset] at readable ⊢
        exact valueOf_newSalt readable salt
  | writing stored entry =>
      simp only [stage] at steady
      simp only [ApiKeys.advance, stage]
      split
      · rfl
      · rename_i taken
        have same := steady (by simpa using taken) other different
        simp [Function.update_of_ne different, same]
  | emptying entry => simp [ApiKeys.advance, stage]
  | filling entry value => simp [ApiKeys.advance, stage]

theorem step_apart (holds : Coherent cipher state state.calls)
    (taken : step cipher state label = some next) (steady : Steady state label next) :
    Apart cipher state label next := by
  cases label with
  | setKey key value =>
      simp only [step] at taken
      split at taken <;> exact Option.some.inj taken ▸ ⟨rfl, rfl⟩
  | clearKey key => exact Option.some.inj taken ▸ ⟨rfl, rfl⟩
  | storedValue key => exact Option.some.inj taken ▸ ⟨rfl, rfl⟩
  | next position fails fresh nonce =>
      obtain ⟨call, rest, here, -, -, written⟩ := step_next taken
      intro called found other different
      obtain rfl := Option.some.inj (here.symm.trans found)
      rw [written]
      exact holds.advance_apart (steady call here) fresh nonce other different

/-! ## Whole runs -/

omit [DecidableEq Key] in
theorem start_coherent {stored : Section Key} (readable : ∀ key, Readable salt (stored key)) :
    Coherent cipher (start cipher stored salt) (start cipher stored salt).calls where
  readable := readable
  sound := by simp [start]
  current _ := .inl rfl
  cached := .inr (by simp [start])

omit [DecidableEq Key] in
theorem Coherent.storedValue_eq (holds : Coherent cipher state state.calls)
    (returned : state.calls = []) (key : Key) : storedValue cipher state key = state.last key := by
  have current := (holds.current key).resolve_right (by simp [returned])
  have cached := holds.cached.resolve_left (by simp [returned])
  rw [storedValue, ← current]
  cases found : state.cache key with
  | none => rfl
  | some value => exact cached key value found

/-- While every step rests on nothing that others have changed: no step on one credential changes
the value of another, and when all calls have returned, the value of every credential is what the
last call on it to return has set or cleared. -/
theorem storedValue_last (cipher : Cipher Salt Nonce) {stored : Section Key} {salt : Option Salt}
    (readable : ∀ key, Readable salt (stored key)) {labels : List (Label Key Salt Nonce)}
    {final : State Key Salt} (steady : Along (step cipher) Steady (start cipher stored salt) labels)
    (execution : run (step cipher) (start cipher stored salt) labels = some final) :
    Along (step cipher) (Apart cipher) (start cipher stored salt) labels ∧
      (final.calls = [] → ∀ key, storedValue cipher final key = final.last key) := by
  constructor
  · exact along_of_guarded
      (fun state label next holds taken met =>
        ⟨step_coherent holds taken met, step_apart holds taken met⟩)
      (start_coherent readable) steady
  · have holds := @run_guarded _ _ _ (fun state => Coherent cipher state state.calls) Steady
      (fun _ _ _ holds taken met => step_coherent holds taken met) _ _ _ (start_coherent readable)
      steady execution
    exact holds.storedValue_eq

/-- Tokens that carry their salt and their value. -/
def sampleCipher : Cipher Char Unit where
  encrypt salt _ value := salt :: value
  decrypt salt token := if token.head? = some salt then some token.tail else none
  decryptV1 token := some token
  decrypt_encrypt := by simp

private def goOn (position : Nat) : Label Bool Char Unit := .next position false 's' ()

/-- One credential is set and read, then the other is, and the first is cleared. -/
def successiveKeys : List (Label Bool Char Unit) :=
  let writes := [goOn 0, goOn 0, goOn 0, goOn 0, goOn 0]
  [.setKey true ['a']] ++ writes ++ [.storedValue true] ++ [goOn 0, goOn 0, goOn 0, goOn 0] ++
    [.setKey false ['b'], goOn 0, goOn 0, goOn 0, goOn 0] ++
    [.clearKey true, goOn 0, goOn 0, goOn 0]

theorem successiveKeys_last :
    ∃ final, run (step sampleCipher) (start sampleCipher (fun _ => none) none) successiveKeys =
        some final ∧
      storedValue sampleCipher final false = ['b'] ∧ storedValue sampleCipher final true = [] ∧
      ∀ key, storedValue sampleCipher final key = final.last key := by
  have steady : Along (step sampleCipher) Steady (start sampleCipher (fun _ => none) none)
      successiveKeys := by
    decide +kernel
  refine ⟨_, rfl, by decide, by decide, ?_⟩
  exact (storedValue_last sampleCipher (fun _ => readable_none) steady rfl).2 rfl

/-- Two credentials are set at once: both calls read the section before one has written it. -/
def overlappingKeys : List (Label Bool Char Unit) :=
  [.setKey true ['a'], .setKey false ['b'], goOn 0, goOn 1] ++
    [goOn 0, goOn 0, goOn 0, goOn 0, goOn 0, goOn 0, goOn 0]

/-- The second call writes a section without the first credential. -/
theorem overlappingKeys_lost :
    ∃ final, run (step sampleCipher) (start sampleCipher (fun _ => none) none) overlappingKeys =
        some final ∧ final.calls = [] ∧ final.last true = ['a'] ∧
      storedValue sampleCipher final true = [] := by
  refine ⟨_, rfl, rfl, rfl, ?_⟩
  decide

end ApiKeys
end Settings
end DomainLens
