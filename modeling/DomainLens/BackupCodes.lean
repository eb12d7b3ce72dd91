import DomainLens.Auth
import DomainLens.Library.Run

/-!
# Backup codes

A call reads the account, takes one digest off the codes it has read and writes the rest back.  Other
calls may do the same in between.  The file settles when every code is used once.
-/

namespace DomainLens
namespace BackupCodes

open Python Run Auth

abbrev Client := Nat

/-- The account, what each call has read of it, and the digests that were accepted, last one
first. -/
structure World where
  user : User
  pending : Client → Option User
  accepted : List Text

inductive Label where
  /-- The account is read. -/
  | read (client : Client)
  /-- `consume_backup_code` on the account as it was read. -/
  | consume (client : Client) (code : Text)

namespace World

/-- What a call has read, or nothing once it is over. -/
def await (world : World) (client : Client) (user : Option User) : World :=
  { world with pending := fun other => if other = client then user else world.pending other }

/-- `consume_backup_code`: the codes that were read are written back without the accepted one. -/
def consumeBackupCode (crypto : Crypto) (world : World) (user : User) (code : Text) : World :=
  match backupDigest crypto user code with
  | none => world
  | some digest =>
      { world with
        user := { world.user with mfaBackupCodes := user.mfaBackupCodes.erase digest }
        accepted := digest :: world.accepted }

end World

def step (crypto : Crypto) (world : World) : Label → Option World
  | .read client =>
      match world.pending client with
      | some _ => none
      | none => some (world.await client (some world.user))
  | .consume client code =>
      match world.pending client with
      | none => none
      | some user => some ((world.consumeBackupCode crypto user code).await client none)

/-- An account whose codes no call has touched. -/
def World.start (user : User) : World where
  user
  pending := fun _ => none
  accepted := []

/-- Every code was accepted once at most, and none that was accepted is stored. -/
def SingleUse (_ : World) (_ : Label) (next : World) : Prop :=
  next.accepted.Nodup ∧ ∀ digest ∈ next.accepted, digest ∉ next.user.mfaBackupCodes

instance (world : World) (label : Label) (next : World) : Decidable (SingleUse world label next) :=
  inferInstanceAs (Decidable (_ ∧ _))

/-- A call that accepts a code writes to the codes it has read, among which the code is once. -/
def Timely (crypto : Crypto) (world : World) : Label → World → Prop
  | .read _, _ => True
  | .consume client code, _ =>
      ∀ user ∈ world.pending client, ∀ digest ∈ backupDigest crypto user code,
        user.mfaBackupCodes = world.user.mfaBackupCodes ∧ user.mfaBackupCodes.count digest = 1

/-! ## One step -/

/-- The codes that were accepted are gone, and a call that has read other codes than the stored ones
has read an accepted one. -/
private structure Sound (world : World) : Prop where
  once : world.accepted.Nodup
  gone : ∀ digest ∈ world.accepted, digest ∉ world.user.mfaBackupCodes
  stale : ∀ client user, world.pending client = some user →
    user.mfaBackupCodes = world.user.mfaBackupCodes ∨
      ∃ digest ∈ world.accepted, digest ∈ user.mfaBackupCodes

section Step

variable {crypto : Crypto} {world next : World} {label : Label}

private theorem mem_of_backupDigest {user : User} {code digest : Text}
    (accepted : backupDigest crypto user code = some digest) : digest ∈ user.mfaBackupCodes := by
  unfold backupDigest at accepted
  dsimp only at accepted
  split at accepted
  · cases accepted
  · split at accepted
    · rename_i held
      exact Option.some.inj accepted ▸ held
    · cases accepted

private theorem mem_erase_iff {codes : List Text} {digest : Text} (held : digest ∈ codes) :
    digest ∉ codes.erase digest ↔ codes.count digest = 1 := by
  rw [← List.count_eq_zero, List.count_erase_self]
  have positive := List.count_pos_iff.mpr held
  omega

private theorem Sound.await (sound : Sound world) {client : Client} {user : Option User}
    (fresh : ∀ read ∈ user, read.mfaBackupCodes = world.user.mfaBackupCodes) :
    Sound (world.await client user) where
  once := sound.once
  gone := sound.gone
  stale other read pending := by
    simp only [World.await] at pending
    split at pending
    · exact .inl (fresh read pending)
    · exact sound.stale other read pending

private theorem singleUse_iff_timely (sound : Sound world)
    (taken : step crypto world label = some next) :
    SingleUse world label next ↔ Timely crypto world label next := by
  cases label with
  | read client =>
      simp only [step] at taken
      split at taken
      · cases taken
      · obtain rfl := Option.some.inj taken
        exact iff_of_true ⟨sound.once, sound.gone⟩ trivial
  | consume client code =>
      simp only [step] at taken
      split at taken
      · cases taken
      · rename_i user pending
        obtain rfl := Option.some.inj taken
        cases found : backupDigest crypto user code with
        | none =>
            refine iff_of_true ?_ ?_
            · rw [World.consumeBackupCode, found]
              exact ⟨sound.once, sound.gone⟩
            · intro read isRead digest accepted
              obtain rfl := Option.some.inj (pending.symm.trans isRead)
              rw [found] at accepted
              cases accepted
        | some digest =>
            have held := mem_of_backupDigest found
            constructor
            · intro single read isRead other accepted
              obtain rfl := Option.some.inj (pending.symm.trans isRead)
              obtain rfl := Option.some.inj (found.symm.trans accepted)
              rw [World.consumeBackupCode, found] at single
              obtain ⟨once, gone⟩ := single
              refine ⟨(sound.stale client user pending).resolve_right ?_, ?_⟩
              · -- A code that was accepted in between is accepted again, or written back.
                rintro ⟨used, wasAccepted, wasRead⟩
                by_cases same : used = digest
                · exact (List.nodup_cons.mp once).1 (same ▸ wasAccepted)
                · exact gone used (List.mem_cons_of_mem digest wasAccepted)
                    ((List.mem_erase_of_ne same).mpr wasRead)
              · exact (mem_erase_iff held).mp (gone digest List.mem_cons_self)
            · intro timely
              obtain ⟨current, single⟩ := timely user pending digest found
              rw [World.consumeBackupCode, found]
              refine ⟨List.nodup_cons.mpr ⟨fun used => ?_, sound.once⟩, fun other accepted => ?_⟩
              · exact sound.gone digest used (current ▸ held)
              · rcases List.mem_cons.mp accepted with rfl | used
                · exact (mem_erase_iff held).mpr single
                · exact fun stays => sound.gone other used (current ▸ List.mem_of_mem_erase stays)

private theorem sound_step (sound : Sound world) (taken : step crypto world label = some next)
    (single : SingleUse world label next) : Sound next := by
  have timely := (singleUse_iff_timely sound taken).mp single
  cases label with
  | read client =>
      simp only [step] at taken
      split at taken
      · cases taken
      · obtain rfl := Option.some.inj taken
        refine sound.await ?_
        rintro read ⟨⟩
        rfl
  | consume client code =>
      simp only [step] at taken
      split at taken
      · cases taken
      · rename_i user pending
        obtain rfl := Option.some.inj taken
        cases found : backupDigest crypto user code with
        | none =>
            rw [World.consumeBackupCode, found]
            exact sound.await (by simp)
        | some digest =>
            obtain ⟨current, _⟩ := timely user pending digest found
            have held := mem_of_backupDigest found
            refine ⟨single.1, single.2, fun other read isPending => ?_⟩
            rw [World.consumeBackupCode, found] at isPending ⊢
            simp only [World.await] at isPending
            split at isPending
            · cases isPending
            · right
              rcases sound.stale other read isPending with same | ⟨used, accepted, wasRead⟩
              · exact ⟨digest, List.mem_cons_self, same ▸ current ▸ held⟩
              · exact ⟨used, List.mem_cons_of_mem digest accepted, wasRead⟩

end Step

/-! ## Runs -/

/-- Every code is used once along a run exactly when no call that accepts a code has read the account
before the last write, and the code is stored once. -/
theorem along_singleUse_iff_timely (crypto : Crypto) (user : User) (labels : List Label) :
    Along (step crypto) SingleUse (World.start user) labels ↔
      Along (step crypto) (Timely crypto) (World.start user) labels := by
  refine along_iff ?_ ?_ (⟨List.nodup_nil, by simp [World.start], by simp [World.start]⟩ :
    Sound (World.start user))
  · intro world label next sound taken
    exact singleUse_iff_timely sound taken
  · intro world label next sound taken single
    exact sound_step sound taken single

def sampleUser : User :=
  ⟨1, ['j', '@', 'x'], true, none, true, some ['S'], [['a', '1'], ['b', '2']], 0, none⟩

/-- Two calls read the account before either writes. -/
def overlappingRun : List Label :=
  [.read 0, .read 1, .consume 0 ['a', '1'], .consume 1 ['A', '1']]

/-- Both calls accept the one code. -/
theorem overlappingRun_not_singleUse :
    ¬ Along (step sampleCrypto) SingleUse (World.start sampleUser) overlappingRun := by
  decide +kernel

end BackupCodes
end DomainLens
