import DomainLens.Library.Run
import DomainLens.Python.Text
import Mathlib

/-!
# The audit log

Every entry carries the hash of the entry before it.  Entries are appended in the order of the
write lock and purged by a timestamp taken before it.  The file embeds the log with its concurrent
writers and settles which purges leave a chain that verifies.
-/

namespace DomainLens
namespace AuditLog

open Python Run

abbrev Client := Nat

/-- The columns of `audit_log` but the id and the hashes.  The time stamp is ISO text. -/
structure Entry where
  createdAt : Text
  actorId : Option Text
  actorEmail : Option Text
  actorRole : Option Text
  authMethod : Text
  ip : Option Text
  action : Text
  targetType : Option Text
  targetId : Option Text
  outcome : Text
  details : Text
deriving DecidableEq

namespace Entry

/-- The hashed values, in the order of the columns. -/
def values (entry : Entry) : List (Option Text) :=
  [some entry.createdAt, entry.actorId, entry.actorEmail, entry.actorRole, some entry.authMethod,
    entry.ip, some entry.action, entry.targetType, entry.targetId, some entry.outcome,
    some entry.details]

/-- The comparison of the purge, on text. -/
def isOlder (cutoff : Text) (entry : Entry) : Bool := decide (entry.createdAt < cutoff)

end Entry

/-- Actor, method and address of the current request, or of the system outside one. -/
structure Context where
  actorId : Option Text
  actorEmail : Option Text
  actorRole : Option Text
  method : Text
  ip : Option Text
deriving DecidableEq

/-- The arguments of `record`, an actor given among them taking the place of the context's. -/
structure Call where
  action : Text
  targetType : Option Text
  targetId : Option Text
  outcome : Text
  details : Text
  authMethod : Option Text
deriving DecidableEq

def stampEntry (context : Context) (call : Call) (createdAt : Text) : Entry where
  createdAt := createdAt
  actorId := context.actorId
  actorEmail := context.actorEmail
  actorRole := context.actorRole
  authMethod := (call.authMethod.filter (· ≠ [])).getD context.method
  ip := context.ip
  action := call.action
  targetType := call.targetType
  targetId := call.targetId
  outcome := call.outcome
  details := call.details

/-- The record a purge makes of itself. -/
def purgeCall (removed : Nat) (cutoff : Text) : Call where
  action := "audit.purge".toList
  targetType := none
  targetId := none
  outcome := "success".toList
  details :=
    "\x7b\"before\": ".toList ++ jsonString cutoff ++ ", \"removed\": ".toList ++ strOf removed ++
      ['\x7d']
  authMethod := some "system".toList

structure Row where
  id : Nat
  entry : Entry
  prevHash : Text
  rowHash : Text
deriving DecidableEq

/-- The hash of an entry after another: SHA-256 of a JSON list that begins with the hash before. -/
abbrev Digest := Text → List (Option Text) → Text

def genesis : Text := List.replicate 64 '0'

/-- The rows by id, with the next id `AUTOINCREMENT` gives. -/
structure Log where
  rows : List Row
  nextId : Nat
  ordered : (rows.map Row.id).Pairwise (· < ·)
  below : ∀ row ∈ rows, row.id < nextId

namespace Log

def empty : Log := ⟨[], 1, List.Pairwise.nil, by simp⟩

/-- Hash of the row with the largest id. -/
def lastHash (log : Log) : Text := (log.rows.getLast?.map Row.rowHash).getD genesis

/-- The locked part of `record`: read the last hash, write the row after it. -/
def append (digest : Digest) (log : Log) (entry : Entry) : Log where
  rows :=
    log.rows ++ [⟨log.nextId, entry, log.lastHash, digest log.lastHash entry.values⟩]
  nextId := log.nextId + 1
  ordered := by
    rw [List.map_append, List.pairwise_append]
    refine ⟨log.ordered, List.pairwise_singleton _ _, ?_⟩
    intro id member last isLast
    obtain ⟨row, held, rfl⟩ := List.mem_map.mp member
    rw [List.mem_singleton.mp isLast]
    exact log.below row held
  below := by
    intro row member
    rcases List.mem_append.mp member with old | new
    · exact Nat.lt_succ_of_lt (log.below row old)
    · rw [List.mem_singleton.mp new]
      exact Nat.lt_succ_self _

def keeps (cutoff : Text) (row : Row) : Bool := !row.entry.isOlder cutoff

def purge (log : Log) (cutoff : Text) : Log where
  rows := log.rows.filter (keeps cutoff)
  nextId := log.nextId
  ordered := log.ordered.sublist (List.filter_sublist.map Row.id)
  below row member := log.below row (List.mem_of_mem_filter member)

end Log

/-- What `verify` reports. -/
structure Report where
  intact : Bool
  checked : Nat
  brokenAt : Option Nat
  reason : Option String
deriving DecidableEq

/-- The walk over the rows, from the hash of the one before. -/
def verifyFrom (digest : Digest) (prev : Option Text) (checked : Nat) : List Row → Report
  | [] => ⟨true, checked, none, none⟩
  | row :: rows =>
      if prev.any (row.prevHash ≠ ·) then
        ⟨false, checked, some row.id, "previous-hash mismatch (a row was removed or reordered)"⟩
      else if digest row.prevHash row.entry.values ≠ row.rowHash then
        ⟨false, checked, some row.id,
          "row content does not match its hash (the row was edited)"⟩
      else verifyFrom digest (some row.rowHash) (checked + 1) rows

def verify (digest : Digest) (log : Log) : Report := verifyFrom digest none 0 log.rows

/-- Where a client stands between its atomic steps. -/
inductive Phase where
  | idle
  /-- A purge that removed rows has itself to record. -/
  | purged (removed : Nat) (cutoff : Text)
  /-- An entry is stamped and waits for the lock. -/
  | stamped (entry : Entry)
deriving DecidableEq

structure World where
  log : Log
  phase : Client → Phase

/-- One atomic step of a client.  A write may fail; that is logged and not raised. -/
inductive Event where
  | stamp (client : Client) (context : Context) (call : Call) (createdAt : Text)
  | stampPurge (client : Client) (context : Context) (createdAt : Text)
  | append (client : Client)
  | lose (client : Client)
  | purge (client : Client) (cutoff : Text)
deriving DecidableEq

namespace World

def enter (world : World) (client : Client) (phase : Phase) : World :=
  { world with phase := fun other => if other = client then phase else world.phase other }

end World

def step (digest : Digest) (world : World) : Event → Option World
  | .stamp client context call createdAt =>
      match world.phase client with
      | .idle => some (world.enter client (.stamped (stampEntry context call createdAt)))
      | _ => none
  | .stampPurge client context createdAt =>
      match world.phase client with
      | .purged removed cutoff =>
          some (world.enter client
            (.stamped (stampEntry context (purgeCall removed cutoff) createdAt)))
      | _ => none
  | .append client =>
      match world.phase client with
      | .stamped entry =>
          some ({ world with log := world.log.append digest entry }.enter client .idle)
      | _ => none
  | .lose client =>
      match world.phase client with
      | .stamped _ => some (world.enter client .idle)
      | _ => none
  | .purge client cutoff =>
      match world.phase client with
      | .idle =>
          let purged := world.log.purge cutoff
          let removed := world.log.rows.length - purged.rows.length
          some ({ world with log := purged }.enter client
            (if removed = 0 then .idle else .purged removed cutoff))
      | _ => none

/-! ## The chain -/

/-- Every row carries the hash of the row before it and its own. -/
structure Chained (digest : Digest) (rows : List Row) : Prop where
  linked : rows.IsChain fun row next => next.prevHash = row.rowHash
  hashed : ∀ row ∈ rows, digest row.prevHash row.entry.values = row.rowHash

variable {digest : Digest}

theorem chained_cons {row : Row} {rows : List Row} :
    Chained digest (row :: rows) ↔
      digest row.prevHash row.entry.values = row.rowHash ∧
        (∀ next ∈ rows.head?, next.prevHash = row.rowHash) ∧ Chained digest rows := by
  constructor
  · rintro ⟨linked, hashed⟩
    rw [List.isChain_cons] at linked
    exact ⟨hashed row List.mem_cons_self, linked.1, linked.2,
      fun other member => hashed other (List.mem_cons_of_mem row member)⟩
  · rintro ⟨own, next, linked, hashed⟩
    exact ⟨List.isChain_cons.mpr ⟨next, linked⟩, List.forall_mem_cons.mpr ⟨own, hashed⟩⟩

private theorem verifyFrom_intact (prev : Option Text) (checked : Nat) (rows : List Row) :
    (verifyFrom digest prev checked rows).intact = true ↔
      (∀ hash ∈ prev, ∀ row ∈ rows.head?, row.prevHash = hash) ∧ Chained digest rows := by
  induction rows generalizing prev checked with
  | nil => simpa [verifyFrom] using (⟨List.IsChain.nil, by simp⟩ : Chained digest [])
  | cons row rows induction =>
      rw [verifyFrom, chained_cons]
      split
      · rename_i differs
        simp only [Option.any_eq_true, decide_eq_true_eq] at differs
        obtain ⟨hash, held, different⟩ := differs
        simp only [Bool.false_eq_true, false_iff, not_and]
        exact fun same => (different (same hash held row rfl)).elim
      · rename_i same
        split
        · rename_i edited
          simp [edited]
        · rename_i own
          have prior : ∀ hash ∈ prev, row.prevHash = hash := by
            intro hash held
            by_contra different
            exact same (Option.any_eq_true_iff_get _ _ |>.mpr (by
              obtain rfl := Option.mem_def.mp held
              simpa using different))
          have own := not_not.mp own
          simpa [induction, own] using fun _ _ => prior

/-- `verify` accepts exactly the chains. -/
theorem verify_intact (log : Log) :
    (verify digest log).intact = true ↔ Chained digest log.rows := by
  simp [verify, verifyFrom_intact]

theorem chained_append {log : Log} (chained : Chained digest log.rows) (entry : Entry) :
    Chained digest (log.append digest entry).rows := by
  constructor
  · refine List.isChain_append.mpr ⟨chained.linked, List.isChain_singleton _, ?_⟩
    intro last isLast next isNext
    obtain rfl : _ = next := by simpa using isNext
    simp [Log.lastHash, Option.mem_def.mp isLast]
  · intro row member
    rcases List.mem_append.mp member with old | new
    · exact chained.hashed row old
    · rw [List.mem_singleton.mp new]

theorem chained_purge {log : Log} (chained : Chained digest log.rows) {cutoff : Text}
    (block : (log.purge cutoff).rows <:+: log.rows) : Chained digest (log.purge cutoff).rows where
  linked := chained.linked.infix block
  hashed row member := chained.hashed row (block.subset member)

private abbrev Follows (row next : Row) : Prop := next.prevHash = row.rowHash

private theorem prevHash_mem {first row : Row} {rows : List Row}
    (linked : (first :: rows).IsChain Follows) (member : row ∈ rows) :
    row.prevHash ∈ (first :: rows).map Row.rowHash := by
  induction rows generalizing first with
  | nil => cases member
  | cons next rows induction =>
      obtain ⟨follows, rest⟩ := List.isChain_cons_cons.mp linked
      rcases List.mem_cons.mp member with rfl | later
      · rw [follows]
        exact List.mem_cons_self
      · exact List.mem_cons_of_mem _ (induction rest later)

private theorem front_of_linked_filter {keep : Row → Bool} {first : Row} {rows : List Row}
    (linked : (first :: rows).IsChain Follows)
    (distinct : ((first :: rows).map Row.rowHash).Nodup)
    (kept : (first :: rows.filter keep).IsChain Follows) : rows.filter keep <+: rows := by
  induction rows generalizing first with
  | nil => exact List.prefix_rfl
  | cons next rows induction =>
      have rest := (List.isChain_cons_cons.mp linked).2
      obtain ⟨new, restDistinct⟩ := List.nodup_cons.mp distinct
      by_cases wanted : keep next = true
      · rw [List.filter_cons_of_pos wanted] at kept ⊢
        exact List.prefix_cons_inj next |>.mpr
          (induction rest restDistinct (List.isChain_cons_cons.mp kept).2)
      · rw [List.filter_cons_of_neg wanted] at kept ⊢
        cases remaining : rows.filter keep with
        | nil => exact List.nil_prefix
        | cons row others =>
            rw [remaining] at kept
            have member : row ∈ rows := List.mem_of_mem_filter (remaining ▸ List.mem_cons_self)
            have follows := (List.isChain_cons_cons.mp kept).1
            exact (new (follows ▸ prevHash_mem rest member)).elim

private theorem block_of_linked_filter {keep : Row → Bool} {rows : List Row}
    (linked : rows.IsChain Follows) (distinct : (rows.map Row.rowHash).Nodup)
    (kept : (rows.filter keep).IsChain Follows) : rows.filter keep <:+: rows := by
  induction rows with
  | nil => exact List.infix_rfl
  | cons first rows induction =>
      by_cases wanted : keep first = true
      · rw [List.filter_cons_of_pos wanted] at kept ⊢
        exact (List.prefix_cons_inj first |>.mpr (front_of_linked_filter linked distinct kept)).isInfix
      · rw [List.filter_cons_of_neg wanted] at kept ⊢
        exact List.infix_cons (induction linked.tail (List.nodup_cons.mp distinct).2 kept)

/-- Where no two rows share a hash, a purge leaves a chain only if it keeps one block. -/
theorem block_of_chained_purge {log : Log} (chained : Chained digest log.rows)
    (distinct : (log.rows.map Row.rowHash).Nodup) {cutoff : Text}
    (kept : Chained digest (log.purge cutoff).rows) : (log.purge cutoff).rows <:+: log.rows :=
  block_of_linked_filter chained.linked distinct kept.linked

/-! ## Verifying along a run -/

def Intact (digest : Digest) (_ : World) (_ : Event) (next : World) : Prop :=
  (verify digest next.log).intact = true

instance (world : World) (event : Event) (next : World) :
    Decidable (Intact digest world event next) :=
  inferInstanceAs (Decidable (_ = true))

/-- What a purge keeps is one block of the log, in the order of the ids. -/
def KeepsBlock (world : World) (event : Event) (_ : World) : Prop :=
  match event with
  | .purge _ cutoff => (world.log.purge cutoff).rows <:+: world.log.rows
  | _ => True

instance (world : World) : ∀ (event : Event) (next : World),
    Decidable (KeepsBlock world event next)
  | .purge _ cutoff, _ =>
      inferInstanceAs (Decidable ((world.log.purge cutoff).rows <:+: world.log.rows))
  | .stamp _ _ _ _, _ | .stampPurge _ _ _, _ | .append _, _ | .lose _, _ => .isTrue trivial

theorem chained_step {world next : World} {event : Event} (chained : Chained digest world.log.rows)
    (taken : step digest world event = some next) (keepsBlock : KeepsBlock world event next) :
    Chained digest next.log.rows := by
  cases event with
  | append client =>
      simp only [step] at taken
      split at taken
      · exact Option.some.inj taken ▸ chained_append chained _
      · cases taken
  | purge client cutoff =>
      simp only [step] at taken
      split at taken
      · exact Option.some.inj taken ▸ chained_purge chained keepsBlock
      · cases taken
  | stamp | stampPurge | lose =>
      simp only [step] at taken
      split at taken
      · exact Option.some.inj taken ▸ chained
      · cases taken

/-- A log that verifies keeps verifying, as long as every purge keeps one block of it. -/
theorem along_intact {world : World} {events : List Event}
    (intact : (verify digest world.log).intact = true)
    (keepsBlock : Along (step digest) KeepsBlock world events) :
    Along (step digest) (Intact digest) world events := by
  refine @along_of_guarded _ _ _ (fun world => Chained digest world.log.rows) _ _ ?_ _ _
    ((verify_intact world.log).mp intact) keepsBlock
  intro world event next chained taken guarded
  have kept := chained_step chained taken guarded
  exact ⟨kept, (verify_intact next.log).mpr kept⟩

/-! ## Two writers and a purge -/

/-- A digest that shows what it was given. -/
def shownDigest : Digest := fun prevHash values =>
  prevHash ++ values.flatMap fun value => '|' :: value.getD []

def World.empty : World := ⟨Log.empty, fun _ => .idle⟩

private def system : Context := ⟨none, none, none, "system".toList, none⟩

private def call : Call :=
  ⟨"scan.run".toList, none, none, "success".toList, "\x7b\x7d".toList, none⟩

private def moment (second : Char) : Text :=
  "2026-03-01T12:00:0".toList ++ second :: ".000000+00:00".toList

/-- Entries in the order of their stamps, purged up to the third. -/
def orderlyRun : List Event :=
  [.stamp 0 system call (moment '1'), .append 0, .stamp 1 system call (moment '2'), .append 1,
    .stamp 0 system call (moment '3'), .append 0, .purge 2 (moment '3'),
    .stampPurge 2 system (moment '4'), .append 2]

/-- The first writer is stamped first and gets the lock second. -/
def overtakenRun : List Event :=
  [.stamp 0 system call (moment '1'), .stamp 1 system call (moment '2'), .append 1, .append 0,
    .stamp 1 system call (moment '3'), .append 1, .purge 2 (moment '2')]

theorem orderlyRun_intact :
    Along (step shownDigest) (Intact shownDigest) World.empty orderlyRun :=
  along_intact (by decide +kernel) (by decide +kernel)

/-- A purge takes the row from the middle, and the log accuses itself. -/
theorem overtakenRun_not_intact :
    ¬ Along (step shownDigest) (Intact shownDigest) World.empty overtakenRun := by
  decide +kernel

/-! ## What a purge may take -/

/-- A purge of a log that verifies leaves one that verifies exactly if it keeps one block of it. -/
theorem verify_purge_iff {log : Log} (intact : (verify digest log).intact = true)
    (distinct : (log.rows.map Row.rowHash).Nodup) (cutoff : Text) :
    (verify digest (log.purge cutoff)).intact = true ↔ (log.purge cutoff).rows <:+: log.rows := by
  have chained := (verify_intact log).mp intact
  rw [verify_intact]
  exact ⟨block_of_chained_purge chained distinct, chained_purge chained⟩

/-- The first of two entries is purged. -/
theorem purged_intact :
    let entry (second : Char) := stampEntry system call (moment second)
    let log := (Log.empty.append shownDigest (entry '1')).append shownDigest (entry '2')
    (verify shownDigest (log.purge (moment '2'))).intact = true :=
  (verify_purge_iff (by decide +kernel) (by decide +kernel) (moment '2')).mpr (by decide +kernel)

end AuditLog
end DomainLens
