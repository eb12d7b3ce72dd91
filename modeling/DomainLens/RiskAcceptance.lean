import DomainLens.Library.Run
import DomainLens.Library.Table
import DomainLens.Python.Text

/-!
# Accepted risks

Findings are matched against the active acceptances, which are read once and kept until one is
created or revoked.  The file embeds the table with its readers and writers, each taking its
database step and its cache step apart from the others, and settles when a reader is shown what
every finished writer did.
-/

namespace DomainLens
namespace RiskAcceptance

open Python Run

abbrev Day := Int

abbrev Time := Int

abbrev AcceptanceId := Nat

abbrev Client := Nat

/-- Longest run of an acceptance, in days. -/
def maxDays : Day := 366

/-- A row of `finding_exceptions`. -/
structure Acceptance where
  id : AcceptanceId
  domain : Text
  findingKey : Text
  title : Text
  severity : Option Text
  reason : Text
  owner : Text
  createdBy : Option Text
  createdAt : Time
  expiresOn : Day
  ownerContactId : Option Nat
  revokedAt : Option Time
deriving DecidableEq

/-- The arguments of `create`.  An expiry that is no ISO date is missing. -/
structure Request where
  domain : Text
  findingKey : Text
  title : Text
  severity : Option Text
  reason : Option Text
  owner : Option Text
  expiresOn : Option Day
  createdBy : Option Text
  ownerContactId : Option Nat
deriving DecidableEq

/-- The reason and the expiry, checked. -/
def checkTerms (today : Day) (reason : Option Text) (expiresOn : Option Day) :
    Except String (Text × Day) :=
  let reason := strip (reason.getD [])
  if reason = [] then
    .error "State why the risk is accepted; that is what an auditor will ask"
  else
    match expiresOn with
    | none => .error "Expiry must be a date (YYYY-MM-DD)"
    | some expiry =>
        if expiry < today then .error "Expiry is in the past"
        else if today + maxDays < expiry then
          .error "Accept a risk for at most a year; renew it when it expires"
        else .ok (reason, expiry)

/-- The row of a request that passes its checks, its id and its moment still to come. -/
def checkRequest (today : Day) (request : Request) : Except String Acceptance :=
  match checkTerms today request.reason request.expiresOn with
  | .error text => .error text
  | .ok (reason, expiry) =>
      let owner := strip (request.owner.getD [])
      if owner = [] then .error "Name who owns the risk until it expires"
      else .ok
        { id := 0
          domain := lower (strip request.domain)
          findingKey := request.findingKey
          title := request.title
          severity := request.severity
          reason
          owner
          createdBy := request.createdBy
          createdAt := 0
          expiresOn := expiry
          ownerContactId := request.ownerContactId.filter (· ≠ 0)
          revokedAt := none }

/-- The table, with the next id `AUTOINCREMENT` gives. -/
structure Store where
  table : Table Acceptance.id
  nextId : AcceptanceId
  below : ∀ row ∈ table.rows, row.id < nextId

namespace Store

theorem find_nextId (store : Store) : store.table.find store.nextId = none :=
  Table.find_eq_none.mpr fun row member => Nat.ne_of_lt (store.below row member)

def insert (store : Store) (draft : Acceptance) (now : Time) : Store :=
  let row := { draft with id := store.nextId, createdAt := now }
  { table := store.table.insert row store.find_nextId
    nextId := store.nextId + 1
    below := by
      intro other member
      rcases List.mem_append.mp member with old | new
      · exact Nat.lt_succ_of_lt (store.below other old)
      · rw [List.mem_singleton.mp new]
        exact Nat.lt_succ_self _ }

def stamp (now : Time) (row : Acceptance) : Acceptance :=
  if row.revokedAt = none then { row with revokedAt := some now } else row

theorem stamp_id {now : Time} (row : Acceptance) : (stamp now row).id = row.id := by
  unfold stamp
  split <;> rfl

/-- Revoke the row under an id, unless that was done before. -/
def revoke (store : Store) (id : AcceptanceId) (now : Time) : Store where
  table := store.table.update id (stamp now) stamp_id
  nextId := store.nextId
  below := by
    intro row member
    obtain ⟨old, held, rfl⟩ := List.mem_map.mp member
    split
    · rw [stamp_id]
      exact store.below old held
    · exact store.below old held

def isActive (today : Day) (row : Acceptance) : Bool :=
  row.revokedAt.isNone && decide (today ≤ row.expiresOn)

/-- The rows of the query, the latest expiry first. -/
def selectActive (store : Store) (today : Day) : List Acceptance :=
  (store.table.rows.filter (isActive today)).mergeSort fun left right =>
    right.expiresOn ≤ left.expiresOn

/-- The acceptance under an id is active. -/
def Active (store : Store) (today : Day) (id : AcceptanceId) : Prop :=
  (store.table.find id).any (isActive today) = true

instance (store : Store) (today : Day) (id : AcceptanceId) :
    Decidable (store.Active today id) :=
  inferInstanceAs (Decidable (_ = true))

end Store

/-- What is cached goes by the database file and the day. -/
structure CacheKey where
  path : Text
  day : Day
deriving DecidableEq

/-- What had returned when a call began: the revokes and the creates, by acceptance. -/
structure Asked where
  revoked : List AcceptanceId
  created : List AcceptanceId
deriving DecidableEq

/-- What a writer did to the table. -/
inductive Wrote where
  | nothing
  | created (id : AcceptanceId)
  | revoked (id : AcceptanceId)
deriving DecidableEq

/-- Where a client stands between its atomic steps. -/
inductive Phase where
  | idle
  | creating (draft : Acceptance)
  | revoking (id : AcceptanceId)
  | invalidating (wrote : Wrote)
  | missed (asked : Asked)
  | fetched (rows : List Acceptance) (asked : Asked)
deriving DecidableEq

/-- The table, the cache, the clients and what has returned so far. -/
structure World where
  store : Store
  cacheKey : Option CacheKey
  cacheRows : List Acceptance
  phase : Client → Phase
  returned : Asked

namespace World

def enter (world : World) (client : Client) (phase : Phase) : World :=
  { world with phase := fun other => if other = client then phase else world.phase other }

/-- The write of a client to the table. -/
def write (world : World) (client : Client) (now : Time) : Option World :=
  match world.phase client with
  | .creating draft =>
      some ({ world with store := world.store.insert draft now }.enter client
        (.invalidating (.created world.store.nextId)))
  | .revoking id =>
      some ({ world with store := world.store.revoke id now }.enter client
        (.invalidating
          (if (world.store.table.find id).isSome then .revoked id else .nothing)))
  | _ => none

/-- The last step of a writer, after which it returns. -/
def invalidate (world : World) (client : Client) : Option World :=
  match world.phase client with
  | .invalidating wrote =>
      some ({ world with
        cacheKey := none
        returned :=
          match wrote with
          | .nothing => world.returned
          | .created id => { world.returned with created := id :: world.returned.created }
          | .revoked id => { world.returned with revoked := id :: world.returned.revoked }
        }.enter client .idle)
  | _ => none

/-- A reader looks in the cache and returns what it finds. -/
def lookUp (key : CacheKey) (world : World) (client : Client) : Option World :=
  match world.phase client with
  | .idle =>
      if world.cacheKey = some key then some world
      else some (world.enter client (.missed world.returned))
  | _ => none

/-- A reader that found nothing reads the table. -/
def fetch (key : CacheKey) (world : World) (client : Client) : Option World :=
  match world.phase client with
  | .missed asked =>
      some (world.enter client (.fetched (world.store.selectActive key.day) asked))
  | _ => none

/-- A reader caches its rows and returns them. -/
def publish (key : CacheKey) (world : World) (client : Client) : Option World :=
  match world.phase client with
  | .fetched rows _ =>
      some ({ world with cacheKey := some key, cacheRows := rows }.enter client .idle)
  | _ => none

end World

inductive Event where
  | create (client : Client) (request : Request)
  | revoke (client : Client) (id : AcceptanceId)
  | write (client : Client) (now : Time)
  | invalidate (client : Client)
  | lookUp (client : Client)
  | fetch (client : Client)
  | publish (client : Client)
deriving DecidableEq

/-- Take one step on the day and the file of a key. -/
def step (key : CacheKey) (world : World) : Event → Option World
  | .create client request =>
      if world.phase client = .idle then
        match checkRequest key.day request with
        | .error _ => some world
        | .ok draft => some (world.enter client (.creating draft))
      else none
  | .revoke client id =>
      if world.phase client = .idle then some (world.enter client (.revoking id)) else none
  | .write client now => world.write client now
  | .invalidate client => world.invalidate client
  | .lookUp client => world.lookUp key client
  | .fetch client => world.fetch key client
  | .publish client => world.publish key client

/-- What a call of `_all_active` returns at this step, with what had returned when it began. -/
def answer (key : CacheKey) (world : World) : Event → Option (List Acceptance × Asked)
  | .lookUp client =>
      if world.phase client = .idle ∧ world.cacheKey = some key then
        some (world.cacheRows, world.returned)
      else none
  | .publish client =>
      match world.phase client with
      | .fetched rows asked => some (rows, asked)
      | _ => none
  | _ => none

/-! ## What a write does to the active acceptances -/

namespace Store

variable {store : Store} {today : Day}

theorem active_iff {id : AcceptanceId} :
    store.Active today id ↔ ∃ row, store.table.find id = some row ∧ isActive today row = true := by
  unfold Active
  cases store.table.find id with
  | none => simp
  | some row => simp

theorem mem_selectActive {id : AcceptanceId} :
    id ∈ (store.selectActive today).map Acceptance.id ↔ store.Active today id := by
  simp only [active_iff, Table.find_eq_some, List.mem_map, selectActive, List.mem_mergeSort,
    List.mem_filter]
  constructor
  · rintro ⟨row, ⟨member, active⟩, same⟩
    exact ⟨row, ⟨member, same⟩, active⟩
  · rintro ⟨row, ⟨member, same⟩, active⟩
    exact ⟨row, ⟨member, active⟩, same⟩

theorem active_insert {draft : Acceptance} {now : Time} {id : AcceptanceId}
    (old : id < store.nextId) :
    (store.insert draft now).Active today id ↔ store.Active today id := by
  have different : id ≠ store.nextId := Nat.ne_of_lt old
  simp [Active, insert, Table.find_insert, different]

theorem active_of_revoke {target id : AcceptanceId} {now : Time}
    (active : (store.revoke target now).Active today id) : store.Active today id := by
  rw [Active, revoke, Table.find_update] at active
  split at active
  · rename_i same
    subst same
    rw [Option.any_map] at active
    rw [Active]
    cases found : store.table.find id with
    | none => simp [found] at active
    | some row =>
        simp only [found, Option.any_some, stamp] at active ⊢
        split at active
        · simp [isActive] at active
        · exact active
  · exact active

theorem not_active_revoke {id : AcceptanceId} {now : Time} :
    ¬ (store.revoke id now).Active today id := by
  rw [Active, revoke, Table.find_update, if_pos rfl, Option.any_map]
  cases store.table.find id with
  | none => simp
  | some row =>
      simp only [Option.any_some, stamp]
      split
      · simp [isActive]
      · rename_i revoked
        simp [isActive, Option.isNone_iff_eq_none, revoked]

theorem lt_nextId_of_isSome {id : AcceptanceId} (found : (store.table.find id).isSome) :
    id < store.nextId := by
  obtain ⟨row, found⟩ := Option.isSome_iff_exists.mp found
  exact Table.key_of_find found ▸ store.below row (Table.mem_of_find found)

end Store

/-! ## What a reader is owed -/

/-- Rows that hold no acceptance whose revoke had returned when the call began, and every active
one whose create had. -/
def Right (store : Store) (today : Day) (asked : Asked) (rows : List Acceptance) : Prop :=
  (∀ id ∈ asked.revoked, id ∉ rows.map Acceptance.id) ∧
    ∀ id ∈ asked.created, store.Active today id → id ∈ rows.map Acceptance.id

instance (store : Store) (today : Day) (asked : Asked) (rows : List Acceptance) :
    Decidable (Right store today asked rows) :=
  inferInstanceAs (Decidable (_ ∧ _))

/-- A call that returns at this step returns what it is owed. -/
def Answered (key : CacheKey) (world : World) (event : Event) (_ : World) : Prop :=
  ∀ answered ∈ answer key world event, Right world.store key.day answered.2 answered.1

instance (key : CacheKey) (world : World) (event : Event) (next : World) :
    Decidable (Answered key world event next) :=
  inferInstanceAs (Decidable (∀ answered ∈ answer key world event,
    Right world.store key.day answered.2 answered.1))

/-- A call that looks in the cache after this step, before any other, is answered right. -/
def Ready (key : CacheKey) (_ : World) (_ : Event) (next : World) : Prop :=
  next.cacheKey = some key → Right next.store key.day next.returned next.cacheRows

/-- What a step owes its readers, the one that returns and one that begins. -/
def Coherent (key : CacheKey) (world : World) (event : Event) (next : World) : Prop :=
  Answered key world event next ∧ Ready key world event next

/-- Where a reader caches rows that differ from what the table would give it now, no writer that
made the difference has returned. -/
def Timely (key : CacheKey) (world : World) (event : Event) (_ : World) : Prop :=
  match event with
  | .publish client =>
      match world.phase client with
      | .fetched rows _ =>
          let now := (world.store.selectActive key.day).map Acceptance.id
          let read := rows.map Acceptance.id
          (∀ id ∈ read, id ∉ now → id ∉ world.returned.revoked) ∧
            ∀ id ∈ now, id ∉ read → id ∉ world.returned.created
      | _ => True
  | _ => True

instance (key : CacheKey) (world : World) :
    ∀ (event : Event) (next : World), Decidable (Timely key world event next)
  | .publish client, _ =>
      match phase : world.phase client with
      | .fetched rows _ =>
          decidable_of_iff
            ((∀ id ∈ rows.map Acceptance.id,
                id ∉ (world.store.selectActive key.day).map Acceptance.id →
                  id ∉ world.returned.revoked) ∧
              ∀ id ∈ (world.store.selectActive key.day).map Acceptance.id,
                id ∉ rows.map Acceptance.id → id ∉ world.returned.created)
            (by simp only [Timely, phase])
      | .idle | .creating _ | .revoking _ | .invalidating _ | .missed _ =>
          .isTrue (by simp only [Timely, phase])
  | .create _ _, _ | .revoke _ _, _ | .write _ _, _ | .invalidate _, _ | .lookUp _, _
  | .fetch _, _ => .isTrue trivial

/-- What a client in some phase may count on. -/
def Phase.Sound (store : Store) (returned : Asked) (today : Day) : Phase → Prop
  | .idle | .creating _ | .revoking _ | .invalidating .nothing => True
  | .invalidating (.created id) => id < store.nextId
  | .invalidating (.revoked id) => id < store.nextId ∧ ¬ store.Active today id
  | .missed asked => asked.revoked ⊆ returned.revoked ∧ asked.created ⊆ returned.created
  | .fetched rows asked => asked.created ⊆ returned.created ∧ Right store today asked rows

structure Steady (key : CacheKey) (world : World) : Prop where
  gone : ∀ id ∈ world.returned.revoked,
    id < world.store.nextId ∧ ¬ world.store.Active key.day id
  old : ∀ id ∈ world.returned.created, id < world.store.nextId
  clients : ∀ client, (world.phase client).Sound world.store world.returned key.day

/-- Invariant of every run that has been coherent so far. -/
structure Sound (key : CacheKey) (world : World) : Prop extends Steady key world where
  cached : world.cacheKey = some key →
    Right world.store key.day world.returned world.cacheRows

/-- A day begins: nothing of it is cached and no call is under way. -/
structure Fresh (key : CacheKey) (world : World) : Prop where
  uncached : world.cacheKey ≠ some key
  idle : ∀ client, world.phase client = .idle
  returned : world.returned = ⟨[], []⟩

theorem sound_fresh {key : CacheKey} {world : World} (fresh : Fresh key world) :
    Sound key world where
  gone := by simp [fresh.returned]
  old := by simp [fresh.returned]
  clients client := by
    rw [fresh.idle client]
    trivial
  cached same := (fresh.uncached same).elim

/-! ## Steps -/

/-- What all clients see of a step: ids are handed out and not taken back, an acceptance once
inactive stays so, and calls return. -/
structure Later (today : Day) (world next : World) : Prop where
  nextId : world.store.nextId ≤ next.store.nextId
  active : ∀ id < world.store.nextId, next.store.Active today id → world.store.Active today id
  revoked : world.returned.revoked ⊆ next.returned.revoked
  created : world.returned.created ⊆ next.returned.created

private theorem Later.refl (today : Day) (world : World) : Later today world world where
  nextId := Nat.le_refl _
  active _ _ := id
  revoked := List.Subset.refl _
  created := List.Subset.refl _

private theorem right_of_later {today : Day} {world next : World} {asked : Asked}
    {rows : List Acceptance} (later : Later today world next)
    (old : ∀ id ∈ asked.created, id < world.store.nextId)
    (right : Right world.store today asked rows) : Right next.store today asked rows :=
  ⟨right.1, fun id member active => right.2 id member (later.active id (old id member) active)⟩

private theorem phase_sound_of_later {key : CacheKey} {world next : World} {phase : Phase}
    (steady : Steady key world) (later : Later key.day world next)
    (sound : phase.Sound world.store world.returned key.day) :
    phase.Sound next.store next.returned key.day := by
  cases phase with
  | idle | creating | revoking => trivial
  | invalidating wrote =>
      cases wrote with
      | nothing => trivial
      | created id => exact Nat.lt_of_lt_of_le sound later.nextId
      | revoked id =>
          exact ⟨Nat.lt_of_lt_of_le sound.1 later.nextId,
            fun active => sound.2 (later.active id sound.1 active)⟩
  | missed asked =>
      exact ⟨fun id member => later.revoked (sound.1 member),
        fun id member => later.created (sound.2 member)⟩
  | fetched rows asked =>
      exact ⟨fun id member => later.created (sound.1 member),
        right_of_later later (fun id member => steady.old id (sound.1 member)) sound.2⟩

private theorem steady_enter {key : CacheKey} {world next : World} {client : Client} {phase : Phase}
    (steady : Steady key world) (later : Later key.day world next)
    (samePhase : next.phase = world.phase)
    (gone : ∀ id ∈ next.returned.revoked, id < next.store.nextId ∧ ¬ next.store.Active key.day id)
    (old : ∀ id ∈ next.returned.created, id < next.store.nextId)
    (sound : phase.Sound next.store next.returned key.day) :
    Steady key (next.enter client phase) where
  gone := gone
  old := old
  clients other := by
    simp only [World.enter]
    split
    · exact sound
    · rw [samePhase]
      exact phase_sound_of_later steady later (steady.clients other)

private theorem steady_enter_self {key : CacheKey} {world : World} {client : Client} {phase : Phase}
    (steady : Steady key world) (sound : phase.Sound world.store world.returned key.day) :
    Steady key (world.enter client phase) :=
  steady_enter steady (.refl _ _) rfl steady.gone steady.old sound

private theorem steady_write {key : CacheKey} {world : World} {store : Store} {client : Client}
    {wrote : Wrote} (steady : Steady key world) (nextId : world.store.nextId ≤ store.nextId)
    (active : ∀ id < world.store.nextId,
      store.Active key.day id → world.store.Active key.day id)
    (sound : (Phase.invalidating wrote).Sound store world.returned key.day) :
    Steady key ({ world with store }.enter client (.invalidating wrote)) := by
  refine steady_enter steady ⟨nextId, active, List.Subset.refl _, List.Subset.refl _⟩ rfl ?_ ?_ sound
  · intro id member
    obtain ⟨below, inactive⟩ := steady.gone id member
    exact ⟨Nat.lt_of_lt_of_le below nextId, fun held => inactive (active id below held)⟩
  · intro id member
    exact Nat.lt_of_lt_of_le (steady.old id member) nextId

private theorem steady_return {key : CacheKey} {world : World} {client : Client} {wrote : Wrote}
    (steady : Steady key world)
    (sound : (Phase.invalidating wrote).Sound world.store world.returned key.day) {next : World}
    (taken : world.phase client = .invalidating wrote) (done : world.invalidate client = some next) :
    Steady key next := by
  rw [World.invalidate, taken] at done
  obtain rfl := Option.some.inj done
  cases wrote with
  | nothing =>
      refine steady_enter steady ?_ rfl steady.gone steady.old trivial
      exact ⟨Nat.le_refl _, fun _ _ held => held, List.Subset.refl _, List.Subset.refl _⟩
  | created id =>
      refine steady_enter steady ?_ rfl steady.gone ?_ trivial
      · exact ⟨Nat.le_refl _, fun _ _ held => held, List.Subset.refl _, List.subset_cons_self _ _⟩
      · intro other member
        rcases List.mem_cons.mp member with rfl | before
        · exact sound
        · exact steady.old other before
  | revoked id =>
      refine steady_enter steady ?_ rfl ?_ steady.old trivial
      · exact ⟨Nat.le_refl _, fun _ _ held => held, List.subset_cons_self _ _, List.Subset.refl _⟩
      · intro other member
        rcases List.mem_cons.mp member with rfl | before
        · exact sound
        · exact steady.gone other before

theorem steady_step {key : CacheKey} {world next : World} {event : Event}
    (steady : Steady key world) (taken : step key world event = some next) : Steady key next := by
  cases event with
  | create client request =>
      simp only [step, Option.ite_none_right_eq_some] at taken
      obtain ⟨_, taken⟩ := taken
      split at taken
      · exact Option.some.inj taken ▸ steady
      · exact Option.some.inj taken ▸ steady_enter_self steady trivial
  | revoke client id =>
      simp only [step, Option.ite_none_right_eq_some, Option.some.injEq] at taken
      exact taken.2 ▸ steady_enter_self steady trivial
  | write client now =>
      simp only [step, World.write] at taken
      split at taken
      · refine Option.some.inj taken ▸ steady_write steady (Nat.le_succ _) ?_ (Nat.lt_succ_self _)
        exact fun id old active => (Store.active_insert old).mp active
      · refine Option.some.inj taken ▸ steady_write steady (Nat.le_refl _) ?_ ?_
        · exact fun id _ active => Store.active_of_revoke active
        · split
          · rename_i found
            have below := Store.lt_nextId_of_isSome found
            exact ⟨below, Store.not_active_revoke⟩
          · trivial
      · cases taken
  | invalidate client =>
      have sound := steady.clients client
      cases phase : world.phase client with
      | invalidating wrote =>
          rw [phase] at sound
          exact steady_return steady sound phase taken
      | _ => simp [step, World.invalidate, phase] at taken
  | lookUp client =>
      simp only [step, World.lookUp] at taken
      split at taken
      · split at taken
        · exact Option.some.inj taken ▸ steady
        · refine Option.some.inj taken ▸ steady_enter_self steady ?_
          exact ⟨List.Subset.refl _, List.Subset.refl _⟩
      · cases taken
  | fetch client =>
      simp only [step, World.fetch] at taken
      split at taken
      · rename_i asked phase
        have sound := steady.clients client
        rw [phase] at sound
        refine Option.some.inj taken ▸ steady_enter_self steady ⟨sound.2, ?_, ?_⟩
        · intro id member held
          exact (steady.gone id (sound.1 member)).2 (Store.mem_selectActive.mp held)
        · exact fun id _ active => Store.mem_selectActive.mpr active
      · cases taken
  | publish client =>
      simp only [step, World.publish] at taken
      split at taken
      · refine Option.some.inj taken ▸ steady_enter steady ?_ rfl steady.gone steady.old trivial
        exact ⟨Nat.le_refl _, fun _ _ held => held, List.Subset.refl _, List.Subset.refl _⟩
      · cases taken

theorem answered_step {key : CacheKey} {world : World} (event : Event) (next : World)
    (sound : Sound key world) : Answered key world event next := by
  intro answered held
  cases event with
  | lookUp client =>
      simp only [answer, Option.mem_def, Option.ite_none_right_eq_some, Option.some.injEq] at held
      obtain ⟨⟨_, cached⟩, rfl⟩ := held
      exact sound.cached cached
  | publish client =>
      have client := sound.clients client
      simp only [answer, Option.mem_def] at held
      split at held
      · rename_i phase
        rw [phase] at client
        exact Option.some.inj held ▸ client.2
      · cases held
  | _ => cases held

private theorem ready_of_later {key : CacheKey} {world next : World} {event : Event}
    (sound : Sound key world) (later : Later key.day world next)
    (returned : next.returned = world.returned) (rows : next.cacheRows = world.cacheRows)
    (cacheKey : next.cacheKey = world.cacheKey) : Ready key world event next := by
  intro cached
  rw [returned, rows]
  exact right_of_later later sound.old (sound.cached (cacheKey ▸ cached))

private theorem ready_enter {key : CacheKey} {world : World} {event : Event} {client : Client}
    {phase : Phase} (sound : Sound key world) : Ready key world event (world.enter client phase) :=
  ready_of_later sound ⟨Nat.le_refl _, fun _ _ held => held, List.Subset.refl _, List.Subset.refl _⟩
    rfl rfl rfl

private theorem ready_step {key : CacheKey} {world next : World} {event : Event}
    (sound : Sound key world) (taken : step key world event = some next)
    (notPublish : ∀ client, event ≠ .publish client) : Ready key world event next := by
  cases event with
  | create client request =>
      simp only [step, Option.ite_none_right_eq_some] at taken
      obtain ⟨_, taken⟩ := taken
      split at taken
      · exact Option.some.inj taken ▸ sound.cached
      · exact Option.some.inj taken ▸ ready_enter sound
  | revoke client id =>
      simp only [step, Option.ite_none_right_eq_some, Option.some.injEq] at taken
      exact taken.2 ▸ ready_enter sound
  | write client now =>
      simp only [step, World.write] at taken
      split at taken
      · refine Option.some.inj taken ▸ ready_of_later sound ⟨Nat.le_succ _, ?_,
          List.Subset.refl _, List.Subset.refl _⟩ rfl rfl rfl
        exact fun id old active => (Store.active_insert old).mp active
      · refine Option.some.inj taken ▸ ready_of_later sound ⟨Nat.le_refl _, ?_,
          List.Subset.refl _, List.Subset.refl _⟩ rfl rfl rfl
        exact fun id _ active => Store.active_of_revoke active
      · cases taken
  | invalidate client =>
      simp only [step, World.invalidate] at taken
      split at taken
      · obtain rfl := Option.some.inj taken
        exact fun cached => by cases cached
      · cases taken
  | lookUp client =>
      simp only [step, World.lookUp] at taken
      split at taken
      · split at taken
        · exact Option.some.inj taken ▸ sound.cached
        · exact Option.some.inj taken ▸ ready_enter sound
      · cases taken
  | fetch client =>
      simp only [step, World.fetch] at taken
      split at taken
      · exact Option.some.inj taken ▸ ready_enter sound
      · cases taken
  | publish client => exact (notPublish client rfl).elim

theorem coherent_iff_timely {key : CacheKey} {world next : World} {event : Event}
    (sound : Sound key world) (taken : step key world event = some next) :
    Coherent key world event next ↔ Timely key world event next := by
  rw [Coherent, and_iff_right (answered_step event next sound)]
  cases event with
  | publish client =>
      simp only [step, World.publish] at taken
      split at taken
      · rename_i rows asked phase
        obtain rfl := Option.some.inj taken
        simp only [Timely, phase, Ready, World.enter, true_imp_iff, Right]
        constructor
        · rintro ⟨revoked, created⟩
          refine ⟨fun id member _ returned => revoked id returned member, ?_⟩
          intro id active missing returned
          exact missing (created id returned (Store.mem_selectActive.mp active))
        · rintro ⟨revoked, created⟩
          refine ⟨fun id returned member => ?_, fun id returned active => ?_⟩
          · have inactive := (sound.gone id returned).2
            exact revoked id member (fun held => inactive (Store.mem_selectActive.mp held)) returned
          · by_contra missing
            exact created id (Store.mem_selectActive.mpr active) missing returned
      · cases taken
  | _ => exact iff_of_true (ready_step sound taken (by simp)) trivial

theorem sound_step {key : CacheKey} {world next : World} {event : Event} (sound : Sound key world)
    (taken : step key world event = some next) (coherent : Coherent key world event next) :
    Sound key next where
  toSteady := steady_step sound.toSteady taken
  cached := coherent.2

/-- The readers of a day are shown what every finished create and revoke did exactly when no reader
caches rows that one of them, by then finished, has overtaken. -/
theorem along_coherent_iff_timely {key : CacheKey} {world : World} (fresh : Fresh key world)
    (events : List Event) :
    Along (step key) (Coherent key) world events ↔ Along (step key) (Timely key) world events := by
  refine along_iff ?_ ?_ (sound_fresh fresh)
  · intro world event next sound taken
    exact coherent_iff_timely sound taken
  · intro world event next sound taken coherent
    exact sound_step sound taken coherent

/-! ## One acceptance -/

/-- The day and the file of the runs below. -/
def sampleKey : CacheKey := ⟨['d', 'b'], 100⟩

/-- One acceptance that runs for ten more days. -/
def sampleWorld : World where
  store :=
    { table :=
        { rows := [⟨1, ['x'], ['k'], ['t'], none, ['r'], ['o'], none, 0, 110, none, none⟩]
          distinct := by decide }
      nextId := 2
      below := by decide }
  cacheKey := none
  cacheRows := []
  phase _ := .idle
  returned := ⟨[], []⟩

theorem sampleWorld_fresh : Fresh sampleKey sampleWorld where
  uncached := by decide
  idle _ := rfl
  returned := rfl

/-- A reader is done before the acceptance is revoked. -/
def orderlyRun : List Event :=
  [.lookUp 0, .fetch 0, .publish 0, .revoke 1 1, .write 1 0, .invalidate 1, .lookUp 2]

/-- A reader caches the rows it read before the acceptance was revoked. -/
def overtakenRun : List Event :=
  [.lookUp 0, .fetch 0, .revoke 1 1, .write 1 0, .invalidate 1, .publish 0, .lookUp 2]

/-- The orderly reader leaves the cache to be emptied, and the next one reads the table. -/
theorem orderlyRun_coherent : Along (step sampleKey) (Coherent sampleKey) sampleWorld orderlyRun := by
  rw [along_coherent_iff_timely sampleWorld_fresh orderlyRun]
  decide +kernel

/-- The overtaken reader makes a later one return the acceptance after its revoke has returned. -/
theorem overtakenRun_not_answered :
    ¬ Along (step sampleKey) (Answered sampleKey) sampleWorld overtakenRun := by
  decide +kernel

end RiskAcceptance
end DomainLens
