import DomainLens.CveFeed.Sync

/-!
# The feed as a mirror

Records of the NVD change while a product is synced now and then.  After a sync that succeeds, the
ranges stored for the product should be those its current records give.  The file says which syncs
leave a mirror, over every history of changes and syncs.
-/

namespace DomainLens
namespace CveFeed

open Python Run

/-- The NVD, the feed of one product and the time of the last event. -/
structure World where
  server : Server
  feed : Feed
  clock : Int

/-- A record changes, or the product is synced. -/
inductive Event where
  | edit (now : Int) (cve : Cve)
  | sync (now : Int) (stop : Option Stop) (fault : Option Fault)
deriving DecidableEq

variable (hasKey : Bool) (product : Product)

/-- The sync of an event, with what it reports. -/
def runSync (world : World) (now : Int) (stop : Option Stop) (fault : Option Fault) :
    Feed × Option Nat :=
  syncProduct hasKey product world.feed now (world.server.answers product now stop) fault

/-- Events come in the order of time.  A record that changes is stamped with the time. -/
def step (world : World) : Event → Option World
  | .edit now cve =>
      if named : cve.id ≠ [] ∧ world.clock ≤ now then
        some { world with
          server := world.server.edit { cve with lastModified := now } named.1
          clock := now }
      else none
  | .sync now stop fault =>
      if world.clock ≤ now then
        some { world with
          feed := (runSync hasKey product world now stop fault).1
          clock := now }
      else none

/-- What is stored for the product is what the current records give. -/
def Mirrors (world : World) : Prop :=
  ∀ cveId, world.feed.store.rangesOf product.key cveId = world.server.rangesOf product cveId

theorem mirrors_iff_forall_mem (world : World) :
    Mirrors product world ↔
      ∀ cveId ∈ world.feed.store.ranges.map RangeRow.cveId ++
          world.server.records.rows.map Cve.id,
        world.feed.store.rangesOf product.key cveId = world.server.rangesOf product cveId := by
  constructor
  · exact fun mirrors cveId _ => mirrors cveId
  · intro listed cveId
    by_cases member : cveId ∈ world.feed.store.ranges.map RangeRow.cveId ++
        world.server.records.rows.map Cve.id
    · exact listed cveId member
    · simp only [List.mem_append, List.mem_map, not_or, not_exists, not_and] at member
      have unstored : world.feed.store.rangesOf product.key cveId = [] := by
        by_contra stored
        obtain ⟨row, held, _, same⟩ := Store.rangesOf_ne_nil.mp stored
        exact member.1 row held same
      rw [unstored, Server.rangesOf, Table.find_eq_none.mpr member.2]

instance (world : World) : Decidable (Mirrors product world) :=
  decidable_of_iff _ (mirrors_iff_forall_mem product world).symm

/-- A sync that succeeds leaves a mirror. -/
def Mirrored (world : World) (event : Event) (next : World) : Prop :=
  match event with
  | .edit _ _ => True
  | .sync now stop fault =>
      (runSync hasKey product world now stop fault).2.isSome → Mirrors product next

instance (world : World) : ∀ (event : Event) (next : World),
    Decidable (Mirrored hasKey product world event next)
  | .edit _ _, _ => .isTrue trivial
  | .sync now stop fault, next =>
      inferInstanceAs (Decidable
        ((runSync hasKey product world now stop fault).2.isSome → Mirrors product next))

/-- What an increment does not ask for is stored as it is: every CVE with a range stored still has a
record that names the product, and so are the records changed within the second of the query, which
its window leaves out. -/
def LeavesNothing (world : World) (now : Int) : Prop :=
  (∀ row ∈ world.feed.store.ranges, row.product = product.key →
    (world.server.records.find row.cveId).any (names product.cpe) = true) ∧
  ∀ cve ∈ world.server.records.rows, names product.cpe cve = true →
    nvdTime now < cve.lastModified →
      world.feed.store.rangesOf product.key cve.id = Store.latest cve (rangesFor cve product.cpe)

instance (world : World) (now : Int) : Decidable (LeavesNothing product world now) :=
  inferInstanceAs (Decidable (_ ∧ _))

/-- An increment that succeeds leaves nothing behind. -/
def WithinReach (world : World) (event : Event) (_ : World) : Prop :=
  match event with
  | .edit _ _ => True
  | .sync now stop fault =>
      (runSync hasKey product world now stop fault).2.isSome →
        (sinceOf world.feed.state now).isSome → LeavesNothing product world now

instance (world : World) : ∀ (event : Event) (next : World),
    Decidable (WithinReach hasKey product world event next)
  | .edit _ _, _ => .isTrue trivial
  | .sync now stop fault, _ =>
      inferInstanceAs (Decidable ((runSync hasKey product world now stop fault).2.isSome →
        (sinceOf world.feed.state now).isSome → LeavesNothing product world now))

/-- Invariant of every run that has been a mirror so far: a record of the product that is not
stored as it is changed after the start of the window of the next increment. -/
def Tracked (world : World) : Prop :=
  ∀ cursor, world.feed.state.cursor = some cursor → cursor ≤ world.clock ∧
    ∀ cveId cve, world.server.records.find cveId = some cve → names product.cpe cve = true →
      world.feed.store.rangesOf product.key cveId ≠ Store.latest cve (rangesFor cve product.cpe) →
        nvdTime (cursor - overlap) ≤ cve.lastModified

theorem nvdTime_le (moment : Int) : nvdTime moment ≤ moment := by
  simp only [nvdTime, second]
  omega

theorem sinceOf_eq_some {state : State} {now since : Int} (found : sinceOf state now = some since) :
    ∃ cursor, state.cursor = some cursor ∧ since = cursor - overlap := by
  unfold sinceOf at found
  split at found
  · cases found
  · rename_i cursor held
    split at found
    · exact ⟨cursor, held, (Option.some.inj found).symm⟩
    · cases found

private theorem latest_of_not_names {cve : Cve} {cpe : Text} (unnamed : names cpe cve = false) :
    Store.latest cve (rangesFor cve cpe) = [] := by
  rw [Store.latest, rangesFor_of_not_names unnamed]
  split <;> rfl

private theorem mirrors_full (server : Server) (store : Store) (now : Int) (cveId : Text) :
    (store.write product.key
        ((server.query product none now).map fun cve => (cve, rangesFor cve product.cpe))
        true).1.rangesOf product.key cveId = server.rangesOf product cveId := by
  have written := rangesOf_write_query server product store none now cveId
  rw [Option.isNone_none] at written
  rw [written, Server.rangesOf]
  cases server.records.find cveId with
  | none => rfl
  | some cve =>
      by_cases asked : Server.asksFor product none now cve = true
      · simp [Option.filter, asked]
      · simp only [Option.filter, asked, Bool.false_eq_true, if_false, if_true]
        rw [Server.asksFor, Bool.and_eq_true, not_and_or] at asked
        rcases asked with unnamed | withdrawn
        · exact (latest_of_not_names (by simpa using unnamed)).symm
        · have gone : cve.vulnStatus = rejected := by simpa using withdrawn
          rw [Store.latest, if_pos gone]

private theorem rangesOf_increment (server : Server) (store : Store) (since now : Int)
    (cveId : Text) :
    (store.write product.key
        ((server.query product (some since) now).map fun cve => (cve, rangesFor cve product.cpe))
        false).1.rangesOf product.key cveId =
      if (server.records.find cveId).any (Server.asksFor product (some since) now) then
        server.rangesOf product cveId
      else store.rangesOf product.key cveId := by
  have written := rangesOf_write_query server product store (some since) now cveId
  rw [Option.isNone_some] at written
  rw [written, Server.rangesOf]
  cases server.records.find cveId with
  | none => rfl
  | some cve =>
      by_cases asked : Server.asksFor product (some since) now cve = true
      · simp [Option.filter, asked]
      · simp [Option.filter, asked]

private theorem outside_window {since now : Int} {cve : Cve} (named : names product.cpe cve = true)
    (outside : ¬ Server.asksFor product (some since) now cve = true) :
    cve.lastModified < nvdTime since ∨ nvdTime now < cve.lastModified := by
  simp only [Server.asksFor, named, Bool.true_and, Bool.and_eq_true, decide_eq_true_eq] at outside
  omega

private theorem mirrors_increment {world : World} (tracked : Tracked product world)
    {now since : Int} (increment : sinceOf world.feed.state now = some since) :
    (∀ cveId, (world.feed.store.write product.key
        ((world.server.query product (some since) now).map fun cve =>
          (cve, rangesFor cve product.cpe)) false).1.rangesOf product.key cveId =
            world.server.rangesOf product cveId) ↔
      LeavesNothing product world now := by
  obtain ⟨cursor, held, rfl⟩ := sinceOf_eq_some increment
  simp only [rangesOf_increment]
  constructor
  · intro mirrors
    constructor
    · intro row member same
      have stored : world.feed.store.rangesOf product.key row.cveId ≠ [] :=
        Store.rangesOf_ne_nil.mpr ⟨row, member, same, rfl⟩
      generalize row.cveId = cveId at stored ⊢
      have mirror := mirrors cveId
      cases found : world.server.records.find cveId with
      | none =>
          rw [found] at mirror
          simp only [Option.any_none, Bool.false_eq_true, if_false, Server.rangesOf, found] at mirror
          exact (stored mirror).elim
      | some cve =>
          rw [Option.any_some]
          by_contra unnamed
          have unnamed : names product.cpe cve = false := by simpa using unnamed
          have outside : Server.asksFor product (some (cursor - overlap)) now cve = false := by
            rw [Server.asksFor, unnamed, Bool.false_and]
          rw [found, Option.any_some, outside, if_neg (by decide), Server.rangesOf, found] at mirror
          exact stored (mirror.trans (latest_of_not_names unnamed))
    · intro cve member named late
      have mirror := mirrors cve.id
      have found := Table.find_of_mem member
      have outside : ¬ Server.asksFor product (some (cursor - overlap)) now cve = true := by
        simp only [Server.asksFor, Bool.and_eq_true, decide_eq_true_eq]
        omega
      rw [found, Option.any_some, if_neg outside, Server.rangesOf, found] at mirror
      exact mirror
  · rintro ⟨namedRows, late⟩ cveId
    have named : world.feed.store.rangesOf product.key cveId ≠ [] →
        (world.server.records.find cveId).any (names product.cpe) = true := by
      intro stored
      obtain ⟨row, member, same, rfl⟩ := Store.rangesOf_ne_nil.mp stored
      exact namedRows row member same
    split
    · rfl
    · rename_i outside
      rw [Server.rangesOf]
      cases found : world.server.records.find cveId with
      | none =>
          by_contra stored
          simpa [found] using named stored
      | some cve =>
          rw [found, Option.any_some] at outside
          by_cases isNamed : names product.cpe cve = true
          · rcases outside_window product isNamed outside with early | inSecond
            · by_contra stored
              have recent := (tracked cursor held).2 cveId cve found isNamed stored
              omega
            · have same := late cve (Table.mem_of_find found) isNamed inSecond
              rw [Table.key_of_find found] at same
              exact same
          · have unnamed : names product.cpe cve = false := by simpa using isNamed
            change _ = Store.latest cve (rangesFor cve product.cpe)
            rw [latest_of_not_names unnamed]
            by_contra stored
            have still := named stored
            rw [found, Option.any_some] at still
            exact isNamed still

private theorem runSync_of_isSome {world : World} {now : Int} {stop : Option Stop}
    {fault : Option Fault} (succeeded : (runSync hasKey product world now stop fault).2.isSome) :
    (runSync hasKey product world now stop fault).1.store =
        (world.feed.store.write product.key
          ((world.server.query product (sinceOf world.feed.state now) now).map fun cve =>
            (cve, rangesFor cve product.cpe)) (sinceOf world.feed.state now).isNone).1 ∧
      (runSync hasKey product world now stop fault).1.state.cursor = some now := by
  rcases syncProduct_cases hasKey product world.feed now (world.server.answers product now stop)
    fault with ⟨failed, _, _⟩ | ⟨records, fetched, stored, ⟨failed, _⟩ | ⟨_, cursor⟩⟩
  · rw [runSync, failed] at succeeded
    cases succeeded
  · rw [runSync, failed] at succeeded
    cases succeeded
  · obtain rfl := fetchProduct_eq fetched
    exact ⟨stored, cursor⟩

/-- From a tracked world, a sync leaves a mirror exactly when the changes are within its reach. -/
theorem mirrored_iff_withinReach {world next : World} {event : Event}
    (tracked : Tracked product world) (taken : step hasKey product world event = some next) :
    Mirrored hasKey product world event next ↔ WithinReach hasKey product world event next := by
  cases event with
  | edit => exact Iff.rfl
  | sync now stop fault =>
      simp only [step, Option.ite_none_right_eq_some, Option.some.injEq] at taken
      obtain ⟨_, rfl⟩ := taken
      refine imp_congr_right fun succeeded => ?_
      obtain ⟨stored, _⟩ := runSync_of_isSome hasKey product succeeded
      simp only [Mirrors, stored]
      cases since : sinceOf world.feed.state now with
      | none =>
          rw [Option.isNone_none]
          exact iff_of_true (mirrors_full product world.server world.feed.store now) (by simp)
      | some moment =>
          rw [Option.isNone_some, mirrors_increment product tracked since]
          simp

private theorem tracked_edit {world : World} (tracked : Tracked product world) {now : Int}
    {cve : Cve} (named : cve.id ≠ []) (later : world.clock ≤ now) :
    Tracked product
      { world with server := world.server.edit { cve with lastModified := now } named, clock := now }
    := by
  intro cursor held
  obtain ⟨before, recent⟩ := tracked cursor held
  refine ⟨Int.le_trans before later, fun cveId row found isNamed stored => ?_⟩
  rw [Server.edit, Table.find_put] at found
  split at found
  · obtain rfl := Option.some.inj found
    have start := nvdTime_le (cursor - overlap)
    simp only [overlap, second] at start ⊢
    omega
  · exact recent cveId row found isNamed stored

private theorem tracked_sync {world : World} (tracked : Tracked product world) {now : Int}
    {stop : Option Stop} {fault : Option Fault} (later : world.clock ≤ now)
    (mirrored : (runSync hasKey product world now stop fault).2.isSome →
      Mirrors product { world with
        feed := (runSync hasKey product world now stop fault).1, clock := now }) :
    Tracked product { world with
      feed := (runSync hasKey product world now stop fault).1, clock := now } := by
  intro cursor held
  rcases syncProduct_cases hasKey product world.feed now (world.server.answers product now stop)
    fault with ⟨_, stored, same⟩ | ⟨records, fetched, stored, ⟨_, same⟩ | ⟨succeeded, moved⟩⟩
  · obtain ⟨before, recent⟩ := tracked cursor (same.symm.trans held)
    refine ⟨Int.le_trans before later, fun cveId cve found isNamed differs => ?_⟩
    simp only [runSync, stored] at differs
    exact recent cveId cve found isNamed differs
  · obtain rfl := fetchProduct_eq fetched
    obtain ⟨before, recent⟩ := tracked cursor (same.symm.trans held)
    refine ⟨Int.le_trans before later, fun cveId cve found isNamed differs => ?_⟩
    simp only [runSync, stored] at differs
    cases since : sinceOf world.feed.state now with
    | none =>
        rw [since, Option.isNone_none, mirrors_full, Server.rangesOf, found] at differs
        exact (differs rfl).elim
    | some moment =>
        rw [since, Option.isNone_some, rangesOf_increment] at differs
        split at differs
        · rw [Server.rangesOf, found] at differs
          exact (differs rfl).elim
        · exact recent cveId cve found isNamed differs
  · obtain rfl : now = cursor := Option.some.inj (moved.symm.trans held)
    refine ⟨Int.le_refl now, fun cveId cve found isNamed differs => ?_⟩
    have mirror := mirrored succeeded cveId
    rw [Server.rangesOf, found] at mirror
    exact (differs mirror).elim

theorem tracked_step {world next : World} {event : Event} (tracked : Tracked product world)
    (taken : step hasKey product world event = some next)
    (mirrored : Mirrored hasKey product world event next) : Tracked product next := by
  cases event with
  | edit now cve =>
      simp only [step] at taken
      split at taken
      · rename_i named
        obtain rfl := Option.some.inj taken
        exact tracked_edit product tracked named.1 named.2
      · cases taken
  | sync now stop fault =>
      simp only [step, Option.ite_none_right_eq_some, Option.some.injEq] at taken
      obtain ⟨later, rfl⟩ := taken
      exact tracked_sync hasKey product tracked later mirrored

/-- Over every history of changes and syncs that begins before the first sync, each sync that
succeeds leaves a mirror exactly when the changes are within its reach. -/
theorem along_mirrored_iff_withinReach {world : World}
    (unsynced : world.feed.state.cursor = none) (events : List Event) :
    Along (step hasKey product) (Mirrored hasKey product) world events ↔
      Along (step hasKey product) (WithinReach hasKey product) world events := by
  refine @along_iff _ _ _ (Tracked product) _ _ ?_ ?_ _ _ fun cursor held => by
    rw [unsynced] at held
    cases held
  · intro world event next tracked taken
    exact mirrored_iff_withinReach hasKey product tracked taken
  · intro world event next tracked taken mirrored
    exact tracked_step hasKey product tracked taken mirrored

/-! ## A record that loses the product -/

def php : Product := ⟨"php".toList, "php:php".toList⟩

private def affected : Configuration where
  operator := none
  nodes :=
    [{ operator := some "OR".toList
       negate := false
       cpeMatch :=
        [{ vulnerable := true
           criteria := "cpe:2.3:a:php:php:*:*:*:*:*:*:*:*".toList
           versionStartIncluding := none
           versionStartExcluding := none
           versionEndIncluding := none
           versionEndExcluding := some "8.1.30".toList }] }]

private def record (status : String) (configurations : List Configuration) : Cve where
  id := "CVE-2026-10002".toList
  published := none
  lastModified := 0
  vulnStatus := status.toList
  metrics := ⟨[], [], [], []⟩
  cisaExploitAdd := none
  descriptions := []
  configurations := configurations

private def day : Int := 86400 * second

/-- Before the first sync, with no records. -/
def World.empty : World where
  server := ⟨Table.empty, by simp [Table.empty]⟩
  feed := ⟨Store.empty, ⟨none, none, none, none, none⟩⟩
  clock := 0

/-- A record is published, and its range changes between two syncs. -/
def changingRun : List Event :=
  [.edit day (record "Analyzed" [affected]), .sync (2 * day) none none,
    .edit (2 * day + 3600 * second) (record "Modified" [{ affected with operator := some "AND".toList }]),
    .sync (3 * day) none none]

/-- A record is published and then rejected, which empties its configuration. -/
def rejectedRun : List Event :=
  [.edit day (record "Analyzed" [affected]), .sync (2 * day) none none,
    .edit (2 * day + 3600 * second) (record "Rejected" []), .sync (3 * day) none none]

theorem changingRun_mirrored :
    Along (step false php) (Mirrored false php) World.empty changingRun := by
  rw [along_mirrored_iff_withinReach false php rfl changingRun]
  decide +kernel

/-- No query returns the rejected record, so its ranges stay. -/
theorem rejectedRun_not_mirrored :
    ¬ Along (step false php) (Mirrored false php) World.empty rejectedRun := by
  decide +kernel

end CveFeed
end DomainLens
