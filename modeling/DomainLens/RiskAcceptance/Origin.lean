import DomainLens.Library.Since
import DomainLens.RiskAcceptance

/-!
# Where an acceptance comes from

Whatever the order of the steps, a stored acceptance is one that passed its checks when it was asked for, and
nothing of it has changed since but that it may have been revoked.
-/

namespace DomainLens
namespace RiskAcceptance

open Run

/-- A row as it was inserted. -/
def Acceptance.inserted (row : Acceptance) : Acceptance := { row with revokedAt := none }

variable {key : CacheKey} {world next : World} {event : Event}

private theorem inserted_stamp (now : Time) : Acceptance.inserted ∘ Store.stamp now = Acceptance.inserted := by
  funext row
  simp only [Function.comp_apply, Store.stamp]
  split <;> rfl

/-- A step moves one client at most; only a write changes the table, and a client is to write only what it has
asked for: a request that passes the checks, or to revoke. -/
private theorem step_moves (taken : step key world event = some next) : next = world ∨
    ∃ client phase, next.phase = (world.enter client phase).phase ∧
      (next.store = world.store ∨ ∃ now, event = .write client now) ∧
        (∀ draft, phase = .creating draft →
          ∃ request, event = .create client request ∧ checkRequest key.day request = .ok draft) ∧
        ∀ id, phase = .revoking id → event = .revoke client id := by
  cases event with
  | create client request =>
      simp only [step, Option.ite_none_right_eq_some] at taken
      obtain ⟨-, taken⟩ := taken
      cases checked : checkRequest key.day request with
      | error text => exact .inl (by simpa [checked] using taken.symm)
      | ok draft =>
          rw [checked] at taken
          obtain rfl := Option.some.inj taken
          refine .inr ⟨client, _, rfl, .inl rfl, fun other same => ⟨request, rfl, ?_⟩, by simp⟩
          exact checked.trans (congrArg _ (Phase.creating.inj same))
  | revoke client id =>
      simp only [step, Option.ite_none_right_eq_some, Option.some.injEq] at taken
      obtain ⟨-, rfl⟩ := taken
      exact .inr ⟨client, _, rfl, .inl rfl, by simp, fun other same => Phase.revoking.inj same ▸ rfl⟩
  | write client now =>
      simp only [step, World.write] at taken
      split at taken <;> cases taken <;> exact .inr ⟨client, _, rfl, .inr ⟨now, rfl⟩, by simp, by simp⟩
  | invalidate client =>
      simp only [step, World.invalidate] at taken
      split at taken <;> cases taken
      exact .inr ⟨client, _, rfl, .inl rfl, by simp, by simp⟩
  | lookUp client =>
      simp only [step, World.lookUp] at taken
      split at taken
      · split at taken <;> cases taken
        · exact .inl rfl
        · exact .inr ⟨client, _, rfl, .inl rfl, by simp, by simp⟩
      · cases taken
  | fetch client =>
      simp only [step, World.fetch] at taken
      split at taken <;> cases taken
      exact .inr ⟨client, _, rfl, .inl rfl, by simp, by simp⟩
  | publish client =>
      simp only [step, World.publish] at taken
      split at taken <;> cases taken
      exact .inr ⟨client, _, rfl, .inl rfl, by simp, by simp⟩

/-- A row that a step brings into the table is the draft of a client that writes. -/
theorem writes_of_step {id : AcceptanceId} {row : Acceptance} (taken : step key world event = some next)
    (absent : (world.store.table.find id).map Acceptance.inserted ≠ some row)
    (found : (next.store.table.find id).map Acceptance.inserted = some row) :
    ∃ client now draft, event = .write client now ∧ world.phase client = .creating draft ∧
      row = Acceptance.inserted { draft with id, createdAt := now } := by
  rcases step_moves taken with rfl | ⟨client, phase, -, same | ⟨now, rfl⟩, -⟩
  · exact absurd found absent
  · exact absurd (same ▸ found) absent
  · simp only [step, World.write] at taken
    split at taken
    · rename_i draft phase
      obtain rfl := Option.some.inj taken
      simp only [World.enter, Store.insert, Table.find_insert] at found
      split at found
      · rename_i isNew
        exact ⟨client, now, draft, rfl, phase, isNew ▸ (Option.some.inj found).symm⟩
      · exact absurd found absent
    · obtain rfl := Option.some.inj taken
      simp only [World.enter, Store.revoke, Table.find_update] at found
      split at found
      · rename_i same
        rw [Option.map_map, inserted_stamp, ← same] at found
        exact absurd found absent
      · exact absurd found absent
    · cases taken

/-- A client that a step lets write has asked for what passes the checks, or to revoke. -/
theorem asks_of_step {client : Client} {phase : Phase} (taken : step key world event = some next)
    (absent : world.phase client ≠ phase) (held : next.phase client = phase) :
    (∀ draft, phase = .creating draft →
      ∃ request, event = .create client request ∧ checkRequest key.day request = .ok draft) ∧
      ∀ id, phase = .revoking id → event = .revoke client id := by
  rcases step_moves taken with rfl | ⟨mover, entered, moved, -, asks⟩
  · exact absurd held absent
  · rw [moved] at held
    simp only [World.enter] at held
    split at held
    · rename_i same
      exact same ▸ held ▸ asks
    · exact absurd held absent

/-- Every stored acceptance was asked for by a client that then wrote it, and passed the checks. -/
theorem requested_of_run {final : World} {events : List Event} {row : Acceptance}
    (idle : ∀ client, world.phase client = .idle)
    (empty : world.store.table.rows = []) (execution : run (step key) world events = some final)
    (member : row ∈ final.store.table.rows) :
    ∃ earlier client request between now later draft,
      events = earlier ++ .create client request :: (between ++ .write client now :: later) ∧
        checkRequest key.day request = .ok draft ∧
        row = { draft with id := row.id, createdAt := now, revokedAt := row.revokedAt } := by
  have found := Table.find_of_mem member
  obtain ⟨earlier, event, later, middle, next, rfl, ran, taken, absent, made, -⟩ :=
    @exists_since _ _ (step key)
      (fun world => (world.store.table.find row.id).map Acceptance.inserted = some row.inserted)
      _ _ events (by simp [Table.find, empty]) (by rw [found, Option.map_some]) execution
  obtain ⟨client, now, draft, rfl, phase, same⟩ := writes_of_step taken absent made
  obtain ⟨first, event, between, _, _, rfl, -, taken, absent, made, -⟩ :=
    @exists_since _ _ (step key) (fun world => world.phase client = .creating draft) _ _ earlier
      (by simp [idle]) phase ran
  obtain ⟨request, rfl, accepted⟩ := (asks_of_step taken absent made).1 draft rfl
  refine ⟨first, client, request, between, now, later, draft, by simp, accepted, ?_⟩
  have core := congrArg (fun other : Acceptance => { other with revokedAt := row.revokedAt }) same
  exact core

/-! ## What becomes of an acceptance -/

private theorem find_of_step {row : Acceptance} (taken : step key world event = some next)
    (found : world.store.table.find row.id = some row) :
    next.store.table.find row.id = some row ∨ row.revokedAt = none ∧ ∃ client now,
      event = .write client now ∧ world.phase client = .revoking row.id ∧
        next.store.table.find row.id = some { row with revokedAt := some now } := by
  rcases step_moves taken with rfl | ⟨client, phase, -, same | ⟨now, rfl⟩, -⟩
  · exact .inl found
  · exact .inl (same ▸ found)
  · simp only [step, World.write] at taken
    split at taken
    · obtain rfl := Option.some.inj taken
      have old : row.id ≠ world.store.nextId := fun same => by
        rw [same, world.store.find_nextId] at found
        cases found
      exact .inl (by simp [World.enter, Store.insert, Table.find_insert, old, found])
    · rename_i id phase
      obtain rfl := Option.some.inj taken
      simp only [World.enter, Store.revoke, Table.find_update]
      by_cases same : row.id = id
      · rw [if_pos same, ← same, found, Option.map_some, Store.stamp]
        by_cases fresh : row.revokedAt = none
        · exact .inr ⟨fresh, client, now, rfl, same ▸ phase, by rw [if_pos fresh]⟩
        · exact .inl (by rw [if_neg fresh])
      · rw [if_neg same]
        exact .inl found
    · cases taken

private theorem find_of_run {final : World} {events : List Event} {row : Acceptance}
    (found : world.store.table.find row.id = some row) (execution : run (step key) world events = some final) :
    final.store.table.find row.id = some row ∨ row.revokedAt = none ∧
      ∃ now, final.store.table.find row.id = some { row with revokedAt := some now } := by
  refine @run_invariant _ _ (step key) (fun world => world.store.table.find row.id = some row ∨
    row.revokedAt = none ∧ ∃ now, world.store.table.find row.id = some { row with revokedAt := some now })
    (fun world event next held taken => ?_) _ _ _ (.inl found) execution
  rcases held with held | ⟨fresh, now, held⟩
  · rcases find_of_step taken held with kept | ⟨fresh, -, now, -, -, revoked⟩
    exacts [.inl kept, .inr ⟨fresh, now, revoked⟩]
  · rcases @find_of_step key _ _ _ { row with revokedAt := some now } taken held with kept | ⟨fresh', -⟩
    exacts [.inr ⟨fresh, now, kept⟩, absurd fresh' (by simp)]

/-- A stored acceptance stays as it is until a client that has asked for it revokes it, once and for all. -/
theorem kept_of_run {final : World} {events : List Event} {row : Acceptance}
    (idle : ∀ client, world.phase client = .idle) (member : row ∈ world.store.table.rows)
    (execution : run (step key) world events = some final) :
    row ∈ final.store.table.rows ∨ row.revokedAt = none ∧ ∃ earlier client between now later,
      events = earlier ++ .revoke client row.id :: (between ++ .write client now :: later) ∧
        { row with revokedAt := some now } ∈ final.store.table.rows := by
  have found := Table.find_of_mem member
  refine (find_of_run found execution).imp Table.mem_of_find fun ⟨fresh, now, revoked⟩ => ⟨fresh, ?_⟩
  have different (moment : Time) : some row ≠ some { row with revokedAt := some moment } := fun same => by
    have clash := congrArg Acceptance.revokedAt (Option.some.inj same)
    simp [fresh] at clash
  obtain ⟨earlier, event, later, middle, next, rfl, ran, taken, absent, made, -⟩ :=
    @exists_since _ _ (step key)
      (fun world => world.store.table.find row.id = some { row with revokedAt := some now })
      _ _ events (found ▸ different now) revoked execution
  rcases find_of_run found ran with held | ⟨-, moment, held⟩
  · rcases find_of_step taken held with kept | ⟨-, client, moment, rfl, phase, done⟩
    · exact absurd (kept.symm.trans made) (different now)
    · obtain rfl : moment = now := by simpa using done.symm.trans made
      obtain ⟨first, event, between, _, _, rfl, -, taken, absent, entered, -⟩ :=
        @exists_since _ _ (step key) (fun world => world.phase client = .revoking row.id) _ _ earlier
          (by simp [idle]) phase ran
      obtain rfl := (asks_of_step taken absent entered).2 row.id rfl
      exact ⟨first, client, between, moment, later, by simp, Table.mem_of_find revoked⟩
  · rcases @find_of_step key _ _ _ { row with revokedAt := some moment } taken held with kept | ⟨fresh', -⟩
    · exact absurd (held.trans (kept.symm.trans made)) absent
    · cases fresh'

/-- A risk is accepted for ten days, and the acceptance is revoked. -/
def acceptedRun : List Event :=
  [.create 0 ⟨['x'], ['k'], ['t'], none, some ['r'], some ['o'], some 110, none, none⟩, .write 0 5,
    .invalidate 0, .revoke 1 1, .write 1 7]

theorem acceptedRun_requested : ∃ client request now, .create client request ∈ acceptedRun ∧
    .write client now ∈ acceptedRun ∧ (checkRequest sampleKey.day request).isOk = true := by
  let world : World := ⟨⟨Table.empty, 1, by decide⟩, none, [], fun _ => .idle, ⟨[], []⟩⟩
  obtain ⟨earlier, client, request, between, now, later, draft, split, accepted, -⟩ :=
    @requested_of_run sampleKey world _ acceptedRun
      ⟨1, ['x'], ['k'], ['t'], none, ['r'], ['o'], none, 5, 110, none, some 7⟩ (fun _ => rfl) rfl rfl
      (by decide)
  exact ⟨client, request, now, by simp [split], by simp [split], by rw [accepted]; rfl⟩

theorem sampleWorld_revoked : ∃ final, run (step sampleKey) sampleWorld
      [.revoke 0 1, .lookUp 1, .write 0 7] = some final ∧
    ∃ row ∈ final.store.table.rows, row.revokedAt ≠ none := by
  rcases @kept_of_run sampleKey sampleWorld _ [.revoke 0 1, .lookUp 1, .write 0 7]
    ⟨1, ['x'], ['k'], ['t'], none, ['r'], ['o'], none, 0, 110, none, none⟩ (fun _ => rfl) (.head _) rfl with
    same | ⟨-, -, -, -, now, -, -, member⟩
  · exact absurd same (by decide)
  · exact ⟨_, rfl, _, member, by simp⟩

end RiskAcceptance
end DomainLens
