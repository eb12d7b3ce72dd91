import DomainLens.DomainPortfolio.Hostnames
import DomainLens.Library.Resumed
import DomainLens.Library.Run

/-!
# The former watchlist

Wanted domains were a list of their own.  A start of the program moves them to the portfolio, row by
row and with their histories, and every statement is written on its own.  The file says when nothing is
lost by starts that stop at any statement.
-/

namespace DomainLens
namespace DomainPortfolio
namespace Adoption

open Python Run Resumed

/-! ## The tables -/

/-- A row of `watched_domains`. -/
structure Watched where
  id : Nat
  domain : Text
  note : Option Text
  createdBy : Option Text
  createdAt : Text
  phase : Text
  status : Text
  registeredOn : Option Text
  releasedFrom : Option Text
  lastCheckedAt : Option Text
  lastError : Option Text
  lastChangeAt : Option Text
  movedAt : Option Text
deriving DecidableEq

/-- A row of `watched_domain_events`, in the order of the ids. -/
structure WatchedEvent where
  domain : Text
  at_ : Text
  detail : Option Text
deriving DecidableEq

/-- A row of `portfolio_domains`, as far as the adoption writes it. -/
structure Entry where
  domain : Text
  note : Option Text
  createdBy : Option Text
  createdAt : Text
  phase : Text
  status : Text
  registeredOn : Option Text
  releasedFrom : Option Text
  lastCheckedAt : Option Text
  lastOkAt : Option Text
  lastError : Option Text
  lastChangeAt : Option Text
  lifecycle : Text
deriving DecidableEq

/-- A row of `portfolio_events`, as far as the adoption writes it. -/
structure Recorded where
  domain : Text
  at_ : Text
  kind : Text
  detail : Option Text
deriving DecidableEq

/-- The tables.  The ids of the watched rows and the names of the domains are unique. -/
structure Tables where
  watched : List Watched
  history : List WatchedEvent
  portfolio : List Entry
  log : List Recorded
  keyed : (watched.map Watched.id).Nodup
  named : (portfolio.map Entry.domain).Nodup

/-! ## One row -/

/-- The keys of `PHASE_TEXT`. -/
def phases : List Text :=
  ["registered", "quarantine", "pending_delete", "redemption", "not_in_dns", "not_registered",
    "unmeasured"].map String.toList

def domainOf (row : Watched) : Text := registrable (lower row.domain)

def phaseOf (row : Watched) : Text :=
  let phase := if row.phase = "available".toList then "not_registered".toList else row.phase
  if phase ∈ phases then phase else "unmeasured".toList

def answered (row : Watched) : Bool :=
  phaseOf row ≠ "unmeasured".toList && row.lastError.all fun problem => problem = []

/-- The domain with its last answer and the decision to claim it. -/
def entryOf (row : Watched) : Entry where
  domain := domainOf row
  note := row.note
  createdBy := row.createdBy
  createdAt := row.createdAt
  phase := phaseOf row
  status := if row.status = [] then "[]".toList else row.status
  registeredOn := row.registeredOn
  releasedFrom := row.releasedFrom
  lastCheckedAt := row.lastCheckedAt
  lastOkAt := if answered row then row.lastCheckedAt else none
  lastError := row.lastError
  lastChangeAt := row.lastChangeAt
  lifecycle := "claim".toList

def historyOf (history : List WatchedEvent) (row : Watched) : List Recorded :=
  (history.filter fun event => event.domain = row.domain).map fun event =>
    ⟨domainOf row, event.at_, "phase".toList, event.detail⟩

/-! ## The statements of the adoption -/

inductive Write where
  | add (entry : Entry)
  | record (event : Recorded)
  | mark (id : Nat)
deriving DecidableEq

def Write.isRecord : Write → Bool
  | .record _ => true
  | _ => false

/-- The loop of `_adopt_watchlist` over the rows, with the domains that are present. -/
def statementsFrom (history : List WatchedEvent) : List Text → List Watched → List Write
  | _, [] => []
  | present, row :: rows =>
      if domainOf row ∈ present then .mark row.id :: statementsFrom history present rows
      else
        .add (entryOf row) :: ((historyOf history row).map .record ++
          .mark row.id :: statementsFrom history (domainOf row :: present) rows)

namespace Tables

def pending (tables : Tables) : List Watched :=
  tables.watched.filter fun row => row.movedAt.isNone

def present (tables : Tables) : List Text := tables.portfolio.map Entry.domain

/-- The statements of `_adopt_watchlist`. -/
def statements (tables : Tables) : List Write :=
  statementsFrom tables.history tables.present tables.pending

/-- `INSERT INTO portfolio_domains`; a domain that is there is refused. -/
def add (tables : Tables) (entry : Entry) : Tables :=
  if fresh : entry.domain ∉ tables.portfolio.map Entry.domain then
    { tables with
      portfolio := tables.portfolio ++ [entry]
      named := by
        rw [List.map_append]
        exact List.nodup_append.mpr ⟨tables.named, List.nodup_singleton _, fun held member other single =>
          fun same => fresh (List.mem_singleton.mp single ▸ same ▸ member)⟩ }
  else tables

/-- `UPDATE watched_domains SET moved_to_portfolio_at`. -/
def mark (tables : Tables) (stamp : Text) (id : Nat) : Tables :=
  { tables with
    watched := tables.watched.map fun row =>
      if row.id = id then { row with movedAt := some stamp } else row
    keyed := by
      have same : (Watched.id ∘ fun row : Watched =>
          if row.id = id then { row with movedAt := some stamp } else row) = Watched.id := by
        funext row
        simp only [Function.comp_apply]
        split <;> rfl
      rw [List.map_map, same]
      exact tables.keyed }

/-- What a statement of an adoption with this time writes. -/
def write (stamp : Text) (tables : Tables) : Write → Tables
  | .add entry => tables.add entry
  | .record event => { tables with log := tables.log ++ [event] }
  | .mark id => tables.mark stamp id

@[simp] theorem statements_record (tables : Tables) (stamp : Text) (event : Recorded) :
    (tables.write stamp (.record event)).statements = tables.statements := rfl

theorem pending_mark (tables : Tables) (stamp : Text) (id : Nat) :
    (tables.mark stamp id).pending = tables.pending.filter fun row => row.id ≠ id := by
  simp only [pending, mark, List.filter_filter]
  induction tables.watched with
  | nil => rfl
  | cons row rows induction =>
      by_cases same : row.id = id
      · simp [same, induction]
      · by_cases moved : row.movedAt = none <;> simp [same, moved, induction]

end Tables

/-! ## Statements after statements -/

theorem statementsFrom_begins (history : List WatchedEvent) (present : List Text)
    (rows : List Watched) :
    (statementsFrom history present rows).dropWhile Write.isRecord =
      statementsFrom history present rows := by
  cases rows with
  | nil => rfl
  | cons row rows =>
      rw [statementsFrom]
      split <;> rfl

theorem statementsFrom_congr {history : List WatchedEvent} {present other : List Text}
    (same : ∀ domain, domain ∈ present ↔ domain ∈ other) (rows : List Watched) :
    statementsFrom history present rows = statementsFrom history other rows := by
  induction rows generalizing present other with
  | nil => rfl
  | cons row rows induction =>
      have later : statementsFrom history (domainOf row :: present) rows =
          statementsFrom history (domainOf row :: other) rows :=
        induction fun domain => by rw [List.mem_cons, List.mem_cons, same domain]
      simp only [statementsFrom, same, induction same, later]

private theorem dropWhile_history (history : List Recorded) (rest : List Write) :
    (history.map Write.record ++ rest).dropWhile Write.isRecord = rest.dropWhile Write.isRecord := by
  induction history with
  | nil => rfl
  | cons event history induction => exact induction

theorem statements_eq_add {tables : Tables} {entry : Entry} {rest : List Write}
    (planned : tables.statements = .add entry :: rest) :
    ∃ row rows, tables.pending = row :: rows ∧ domainOf row ∉ tables.present ∧
      entry = entryOf row ∧
      rest = (historyOf tables.history row).map .record ++
        .mark row.id :: statementsFrom tables.history (domainOf row :: tables.present) rows := by
  unfold Tables.statements at planned
  cases isPending : tables.pending with
  | nil =>
      rw [isPending] at planned
      cases planned
  | cons row rows =>
      rw [isPending, statementsFrom] at planned
      split at planned
      · cases planned
      · rename_i fresh
        obtain ⟨same, isRest⟩ := List.cons.inj planned
        exact ⟨row, rows, rfl, fresh, (Write.add.inj same).symm, isRest.symm⟩

theorem statements_eq_mark {tables : Tables} {id : Nat} {rest : List Write}
    (planned : tables.statements = .mark id :: rest) :
    ∃ row rows, tables.pending = row :: rows ∧ domainOf row ∈ tables.present ∧ id = row.id ∧
      rest = statementsFrom tables.history tables.present rows := by
  unfold Tables.statements at planned
  cases isPending : tables.pending with
  | nil =>
      rw [isPending] at planned
      cases planned
  | cons row rows =>
      rw [isPending, statementsFrom] at planned
      split at planned
      · rename_i there
        obtain ⟨same, isRest⟩ := List.cons.inj planned
        exact ⟨row, rows, rfl, there, (Write.mark.inj same).symm, isRest.symm⟩
      · cases planned

theorem add_of_fresh {tables : Tables} {entry : Entry} (fresh : entry.domain ∉ tables.present) :
    (tables.add entry).portfolio = tables.portfolio ++ [entry] ∧
      (tables.add entry).watched = tables.watched ∧ (tables.add entry).history = tables.history := by
  simp only [Tables.add, dif_pos (show entry.domain ∉ tables.portfolio.map Entry.domain from fresh),
    and_self]

/-- A new plan is what was left of the old one, without the history of the domain just added. -/
theorem statements_write (stamp : Text) (tables : Tables) (write : Write) (rest : List Write)
    (planned : tables.statements = (write :: rest).dropWhile Write.isRecord) :
    (tables.write stamp write).statements = rest.dropWhile Write.isRecord := by
  cases write with
  | record event => exact planned
  | add entry =>
      obtain ⟨row, rows, isPending, fresh, rfl, rfl⟩ := statements_eq_add planned
      obtain ⟨portfolio, watched, history⟩ := @add_of_fresh tables (entryOf row) fresh
      have isRow : (tables.add (entryOf row)).pending = row :: rows := by
        rw [Tables.pending, watched]
        exact isPending
      have isPresent : (tables.add (entryOf row)).present = tables.present ++ [domainOf row] := by
        rw [Tables.present, portfolio, List.map_append]
        rfl
      rw [dropWhile_history]
      simp only [Tables.write, Tables.statements, isRow, isPresent, history, statementsFrom]
      rw [if_pos (by simp)]
      refine congrArg (Write.mark row.id :: ·) (statementsFrom_congr (fun domain => ?_) rows)
      rw [List.mem_append, List.mem_singleton, List.mem_cons, or_comm]
  | mark id =>
      obtain ⟨row, rows, isPending, _, rfl, rfl⟩ := statements_eq_mark planned
      have distinct : (tables.pending.map Watched.id).Nodup :=
        (List.filter_sublist.map Watched.id).nodup tables.keyed
      rw [isPending] at distinct
      have others : ∀ other ∈ rows, other.id ≠ row.id := fun other member same =>
        (List.nodup_cons.mp distinct).1 (same ▸ List.mem_map_of_mem member)
      have isRows : (tables.mark stamp row.id).pending = rows := by
        rw [Tables.pending_mark, isPending, List.filter_cons_of_neg (by simp)]
        exact List.filter_eq_self.mpr fun other member => by simpa using others other member
      rw [statementsFrom_begins]
      exact congrArg (statementsFrom tables.history tables.present) isRows

/-- The adoption, whose attempts have a time. -/
def adoption : Job Tables Write Text where
  plan := Tables.statements
  apply stamp tables write := tables.write stamp write
  forgets := Write.isRecord
  resumes := statements_write
  begins _ := statementsFrom_begins _ _ _

/-! ## What the statements write -/

def Write.entry? : Write → Option Entry
  | .add entry => some entry
  | _ => none

def Write.record? : Write → Option Recorded
  | .record event => some event
  | _ => none

/-- The entries of a plan are all written, its records appended and the history of the old list left. -/
theorem foldl_write (stamp : Text) {done rest : List Write} {tables : Tables}
    (planned : tables.statements = (done ++ rest).dropWhile Write.isRecord) :
    (done.foldl (Tables.write stamp) tables).portfolio =
        tables.portfolio ++ done.filterMap Write.entry? ∧
      (done.foldl (Tables.write stamp) tables).log = tables.log ++ done.filterMap Write.record? ∧
      (done.foldl (Tables.write stamp) tables).history = tables.history := by
  induction done generalizing tables with
  | nil => exact ⟨(List.append_nil _).symm, (List.append_nil _).symm, rfl⟩
  | cons write done induction =>
      obtain ⟨portfolio, log, history⟩ := induction (statements_write stamp tables write _ planned)
      cases write with
      | record event =>
          exact ⟨portfolio, log.trans (List.append_assoc tables.log [event] _), history⟩
      | mark id => exact ⟨portfolio, log, history⟩
      | add entry =>
          obtain ⟨row, rows, _, fresh, rfl, _⟩ := statements_eq_add planned
          obtain ⟨added, _, sameHistory⟩ := @add_of_fresh tables (entryOf row) fresh
          have sameLog : (tables.add (entryOf row)).log = tables.log := by
            unfold Tables.add
            split <;> rfl
          refine ⟨portfolio.trans ?_, log.trans ?_, history.trans sameHistory⟩
          · exact (congrArg (· ++ _) added).trans (List.append_assoc tables.portfolio [entryOf row] _)
          · exact congrArg (· ++ _) sameLog

theorem attempts_write (starts : List (Attempt Text)) (tables : Tables) :
    (starts.foldl (attempt adoption) tables).portfolio =
        tables.portfolio ++ (performed adoption starts tables).filterMap Write.entry? ∧
      (starts.foldl (attempt adoption) tables).log =
        tables.log ++ (performed adoption starts tables).filterMap Write.record? ∧
      (starts.foldl (attempt adoption) tables).history = tables.history := by
  induction starts generalizing tables with
  | nil => exact ⟨(List.append_nil _).symm, (List.append_nil _).symm, rfl⟩
  | cons start starts induction =>
      obtain ⟨portfolio, log, history⟩ := induction (attempt adoption tables start)
      have planned : tables.statements = (tables.statements.take start.stop ++
          tables.statements.drop start.stop).dropWhile Write.isRecord := by
        rw [List.take_append_drop]
        exact (statementsFrom_begins _ _ _).symm
      obtain ⟨portfolio', log', history'⟩ := foldl_write start.context planned
      refine ⟨portfolio.trans ?_, log.trans ?_, history.trans history'⟩
      · rw [performed, List.filterMap_append, ← List.append_assoc]
        exact congrArg (· ++ _) portfolio'
      · rw [performed, List.filterMap_append, ← List.append_assoc]
        exact congrArg (· ++ _) log'

/-! ## The rows that move -/

/-- The first row of every domain that is not there. -/
def firsts : List Text → List Watched → List Watched
  | _, [] => []
  | present, row :: rows =>
      if domainOf row ∈ present then firsts present rows
      else row :: firsts (domainOf row :: present) rows

namespace Tables

/-- The rows to be moved: not marked, and of a domain that the portfolio does not have. -/
def moving (tables : Tables) : List Watched :=
  tables.pending.filter fun row => domainOf row ∉ tables.present

/-- The rows that are moved: the first of each domain. -/
def moved (tables : Tables) : List Watched := firsts tables.present tables.pending

end Tables

theorem firsts_sublist {present more : List Text} (fewer : present ⊆ more) (rows : List Watched) :
    (firsts more rows).Sublist (rows.filter fun row => domainOf row ∉ present) := by
  induction rows generalizing more with
  | nil => exact List.Sublist.slnil
  | cons row rows induction =>
      rw [firsts]
      by_cases there : domainOf row ∈ present
      · rw [if_pos (fewer there), List.filter_cons_of_neg (by simpa using there)]
        exact induction fewer
      · rw [List.filter_cons_of_pos (by simpa using there)]
        split
        · exact (induction fewer).cons row
        · exact (induction (List.subset_cons_of_subset _ fewer)).cons_cons row

theorem exists_firsts {present : List Text} {rows : List Watched} {row : Watched}
    (member : row ∈ rows) (absent : domainOf row ∉ present) :
    ∃ first ∈ firsts present rows, domainOf first = domainOf row := by
  induction rows generalizing present with
  | nil => cases member
  | cons head rows induction =>
      rw [firsts]
      split
      · rename_i there
        rcases List.mem_cons.mp member with rfl | later
        · exact absurd there absent
        · exact induction later absent
      · by_cases same : domainOf row = domainOf head
        · exact ⟨head, List.mem_cons_self, same.symm⟩
        · have later := (List.mem_cons.mp member).resolve_left fun equal =>
            same (congrArg domainOf equal)
          obtain ⟨first, isFirst, equal⟩ := induction later fun known =>
            (List.mem_cons.mp known).elim same absent
          exact ⟨first, List.mem_cons_of_mem head isFirst, equal⟩

private theorem filterMap_records (history : List Recorded) :
    (history.map Write.record).filterMap Write.entry? = [] ∧
      (history.map Write.record).filterMap Write.record? = history := by
  induction history with
  | nil => exact ⟨rfl, rfl⟩
  | cons event history induction => exact ⟨induction.1, congrArg (event :: ·) induction.2⟩

theorem statementsFrom_writes (history : List WatchedEvent) (present : List Text)
    (rows : List Watched) :
    (statementsFrom history present rows).filterMap Write.entry? =
        (firsts present rows).map entryOf ∧
      (statementsFrom history present rows).filterMap Write.record? =
        (firsts present rows).flatMap (historyOf history) := by
  induction rows generalizing present with
  | nil => exact ⟨rfl, rfl⟩
  | cons row rows induction =>
      rw [statementsFrom, firsts]
      split
      · exact induction present
      · obtain ⟨entries, records⟩ := induction (domainOf row :: present)
        obtain ⟨noEntries, sameRecords⟩ := filterMap_records (historyOf history row)
        constructor
        · refine congrArg (entryOf row :: ·) ?_
          rw [List.filterMap_append, noEntries]
          exact entries
        · rw [List.filterMap_cons_none rfl, List.filterMap_append, sameRecords]
          exact congrArg (historyOf history row ++ ·) records

/-! ## Starts -/

/-- A start of the program, which may stop. -/
def startStep (tables : Tables) (start : Attempt Text) : Option Tables :=
  some (attempt adoption tables start)

/-- The start does not stop between a domain and the last event of its history. -/
def StopsBetween (tables : Tables) (start : Attempt Text) : Prop :=
  ∀ write ∈ (tables.statements.drop start.stop).head?, write.isRecord = false

/-- No start stops between a domain and the last event of its history. -/
def Unbroken (before : Tables) (starts : List (Attempt Text)) : Prop :=
  Along startStep (fun tables start _ => StopsBetween tables start) before starts

/-- A row whose domain another row moves has no history, and the same entry. -/
def Apart (tables : Tables) : Prop :=
  ∀ row ∈ tables.moving, row ∉ tables.moved →
    historyOf tables.history row = [] ∧
      ∀ first ∈ tables.moved, domainOf first = domainOf row → entryOf first = entryOf row

/-- The tables after some starts that stop and one that runs to its end. -/
def adopted (before : Tables) (starts : List (Attempt Text)) (stamp : Text) : Tables :=
  finish adoption stamp (starts.foldl (attempt adoption) before)

/-- Every row is marked and its domain there once, what the portfolio had is there as it was, and every
other row is in the portfolio with each event of its history once. -/
structure Whole (before after : Tables) : Prop where
  marked : ∀ row ∈ after.watched, row.movedAt.isSome
  once : ∀ row ∈ before.pending, after.present.count (domainOf row) = 1
  kept : before.portfolio <+: after.portfolio
  moved : ∀ row ∈ before.moving, entryOf row ∈ after.portfolio
  history : after.log.Perm (before.log ++ before.moving.flatMap (historyOf before.history))

/-- After the adoption the program starts again, and people change the portfolio. -/
inductive Later where
  | start (start : Attempt Text)
  | edit (portfolio : List Entry) (log : List Recorded)
      (named : (portfolio.map Entry.domain).Nodup)

def laterStep (tables : Tables) : Later → Option Tables
  | .start start => some (attempt adoption tables start)
  | .edit portfolio log named => some { tables with portfolio, log, named }

def Unchanged (before : Tables) : Later → Tables → Prop
  | .start _, after => after = before
  | .edit .., _ => True

/-- What the starts leave is whole, and no later start changes anything. -/
def Adopted (before : Tables) (starts : List (Attempt Text)) (stamp : Text) : Prop :=
  Whole before (adopted before starts stamp) ∧
    ∀ later, Along laterStep Unchanged (adopted before starts stamp) later

/-! ## What is lost -/

theorem forgotten_eq_nil_iff {tables : Tables} {start : Attempt Text} :
    forgotten adoption tables start = [] ↔ StopsBetween tables start := by
  unfold forgotten StopsBetween
  change (tables.statements.drop start.stop).takeWhile Write.isRecord = [] ↔ _
  cases tables.statements.drop start.stop with
  | nil => exact iff_of_true rfl (by simp)
  | cons write rest => cases isRecord : write.isRecord <;> simp [isRecord]

theorem lost_eq_nil_iff {tables : Tables} {starts : List (Attempt Text)} :
    lost adoption starts tables = [] ↔ Unbroken tables starts := by
  induction starts generalizing tables with
  | nil => exact iff_of_true rfl trivial
  | cons start starts induction =>
      rw [lost, List.append_eq_nil_iff, forgotten_eq_nil_iff, induction]
      constructor
      · rintro ⟨here, later⟩ next taken
        obtain rfl := Option.some.inj taken
        exact ⟨here, later⟩
      · intro unbroken
        exact unbroken _ rfl

section Starts

variable (before : Tables) (starts : List (Attempt Text)) (stamp : Text)

/-- All statements that the starts run. -/
def allWrites : List Write :=
  performed adoption starts before ++ (starts.foldl (attempt adoption) before).statements

theorem allWrites_perm :
    (allWrites before starts ++ lost adoption starts before).Perm before.statements := by
  have together := @performed_lost_perm _ _ _ adoption starts before
  refine List.Perm.trans ?_ together
  rw [allWrites, List.append_assoc, List.append_assoc]
  exact List.perm_append_comm.append_left _

theorem adopted_writes :
    (adopted before starts stamp).portfolio =
        before.portfolio ++ (allWrites before starts).filterMap Write.entry? ∧
      (adopted before starts stamp).log =
        before.log ++ (allWrites before starts).filterMap Write.record? := by
  obtain ⟨portfolio, log, _⟩ := attempts_write starts before
  generalize reached : starts.foldl (attempt adoption) before = state at portfolio log
  have planned : state.statements = (state.statements ++ []).dropWhile Write.isRecord := by
    rw [List.append_nil]
    exact (statementsFrom_begins _ _ _).symm
  obtain ⟨portfolio', log', _⟩ := foldl_write stamp planned
  constructor
  · rw [allWrites, reached, List.filterMap_append, ← List.append_assoc, ← portfolio, adopted, reached]
    exact portfolio'
  · rw [allWrites, reached, List.filterMap_append, ← List.append_assoc, ← log, adopted, reached]
    exact log'

theorem entries_perm :
    ((allWrites before starts).filterMap Write.entry?).Perm (before.moved.map entryOf) := by
  have together := (allWrites_perm before starts).filterMap Write.entry?
  have none : (lost adoption starts before).filterMap Write.entry? = [] := by
    rw [List.filterMap_eq_nil_iff]
    intro write member
    have isRecord := forgets_of_mem_lost member
    cases write with
    | record event => rfl
    | _ => cases isRecord
  rwa [List.filterMap_append, none, List.append_nil,
    show before.statements.filterMap Write.entry? = _ from (statementsFrom_writes _ _ _).1] at together

/-- The records that are written, with those that are lost, are those of the first rows. -/
theorem records_perm :
    ((allWrites before starts).filterMap Write.record? ++
        (lost adoption starts before).filterMap Write.record?).Perm
      (before.moved.flatMap (historyOf before.history)) := by
  have together := (allWrites_perm before starts).filterMap Write.record?
  rwa [List.filterMap_append,
    show before.statements.filterMap Write.record? = _ from (statementsFrom_writes _ _ _).2] at together

theorem length_records_lost :
    ((lost adoption starts before).filterMap Write.record?).length =
      (lost adoption starts before).length := by
  have all : ∀ write ∈ lost adoption starts before, (Write.record? write).isSome := by
    intro write member
    have isRecord := forgets_of_mem_lost member
    cases write with
    | record event => rfl
    | _ => cases isRecord
  exact List.filterMap_length_eq_length.mpr all

theorem moved_sublist : before.moved.Sublist before.moving := firsts_sublist (List.Subset.refl _) _

theorem pending_adopted : (adopted before starts stamp).pending = [] := by
  have planned : (adopted before starts stamp).statements = [] :=
    @plan_finish _ _ _ adoption stamp _
  unfold Tables.statements at planned
  cases isPending : (adopted before starts stamp).pending with
  | nil => rfl
  | cons row rows =>
      rw [isPending, statementsFrom] at planned
      split at planned <;> cases planned

theorem marked_adopted : ∀ row ∈ (adopted before starts stamp).watched, row.movedAt.isSome := by
  intro row member
  by_contra unmarked
  have pending : row ∈ (adopted before starts stamp).pending :=
    List.mem_filter.mpr ⟨member, by simpa using unmarked⟩
  rw [pending_adopted] at pending
  cases pending

end Starts

/-! ## When nothing is lost -/

private theorem weight_eq_zero {α : Type*} [DecidableEq α] (weight : α → Nat) {some all : List α}
    (part : some.Sublist all) (equal : (all.map weight).sum ≤ (some.map weight).sum) {value : α}
    (member : value ∈ all) (left : value ∉ some) : weight value = 0 := by
  have rest : some.Sublist (all.erase value) := by
    simpa [List.erase_of_not_mem left] using part.erase value
  have smaller := (rest.map weight).sum_le_sum fun _ _ => Nat.zero_le _
  have split := ((List.perm_cons_erase member).map weight).sum_eq
  rw [List.map_cons, List.sum_cons] at split
  omega

private theorem flatMap_eq_of_silent {α β : Type*} {give : α → List β} {some all : List α}
    (part : some.Sublist all) (distinct : all.Nodup)
    (silent : ∀ value ∈ all, value ∉ some → give value = []) :
    all.flatMap give = some.flatMap give := by
  induction part with
  | slnil => rfl
  | cons value part induction =>
      obtain ⟨new, distinct⟩ := List.nodup_cons.mp distinct
      have left := fun member => new (part.subset member)
      rw [List.flatMap_cons, silent value List.mem_cons_self left, List.nil_append]
      exact induction distinct fun other member => silent other (List.mem_cons_of_mem value member)
  | cons_cons value part induction =>
      obtain ⟨new, distinct⟩ := List.nodup_cons.mp distinct
      rw [List.flatMap_cons, List.flatMap_cons]
      refine congrArg (give value ++ ·) (induction distinct fun other member left => ?_)
      refine silent other (List.mem_cons_of_mem value member) fun known => ?_
      rcases List.mem_cons.mp known with rfl | inside
      · exact new member
      · exact left inside

private theorem nodup_moving (tables : Tables) : tables.moving.Nodup :=
  ((List.Nodup.of_map Watched.id tables.keyed).filter _).filter _

private theorem count_present {before after : Tables} (kept : before.portfolio <+: after.portfolio)
    (moved : ∀ row ∈ before.moving, entryOf row ∈ after.portfolio) {row : Watched}
    (member : row ∈ before.pending) : after.present.count (domainOf row) = 1 := by
  refine List.count_eq_one_of_mem after.named ?_
  by_cases there : domainOf row ∈ before.present
  · exact (kept.map Entry.domain).subset there
  · have moving : row ∈ before.moving := List.mem_filter.mpr ⟨member, decide_eq_true there⟩
    exact List.mem_map.mpr ⟨entryOf row, moved row moving, rfl⟩

/-- Nothing is lost by starts that do not stop inside a history, where the rows are of different
domains. -/
theorem whole_of_unbroken {before : Tables} {starts : List (Attempt Text)} {stamp : Text}
    (unbroken : Unbroken before starts) (apart : Apart before) :
    Whole before (adopted before starts stamp) := by
  obtain ⟨portfolio, log⟩ := adopted_writes before starts stamp
  have kept : before.portfolio <+: (adopted before starts stamp).portfolio :=
    portfolio ▸ List.prefix_append _ _
  have moved : ∀ row ∈ before.moving, entryOf row ∈ (adopted before starts stamp).portfolio := by
    intro row member
    rw [portfolio]
    refine List.mem_append_right _ ((entries_perm before starts).mem_iff.mpr (List.mem_map.mpr ?_))
    by_cases isMoved : row ∈ before.moved
    · exact ⟨row, isMoved, rfl⟩
    · obtain ⟨pending, absent⟩ := List.mem_filter.mp member
      obtain ⟨first, isFirst, same⟩ := exists_firsts pending (of_decide_eq_true absent)
      exact ⟨first, isFirst, (apart row member isMoved).2 first isFirst same⟩
  refine ⟨marked_adopted before starts stamp, fun row => count_present kept moved, kept, moved, ?_⟩
  have records := records_perm before starts
  rw [lost_eq_nil_iff.mpr unbroken, List.filterMap_nil, List.append_nil] at records
  have same : before.moving.flatMap (historyOf before.history) =
      before.moved.flatMap (historyOf before.history) :=
    flatMap_eq_of_silent (moved_sublist before) (nodup_moving before)
      fun row member left => (apart row member left).1
  rw [log, same]
  exact records.append_left _

/-- Where nothing is lost, no start stopped inside a history and the rows are of different domains. -/
theorem unbroken_of_whole {before : Tables} {starts : List (Attempt Text)} {stamp : Text}
    (whole : Whole before (adopted before starts stamp)) :
    Unbroken before starts ∧ Apart before := by
  obtain ⟨portfolio, log⟩ := adopted_writes before starts stamp
  have part := moved_sublist before
  let weight (row : Watched) : Nat := (historyOf before.history row).length
  have written := whole.history.length_eq
  rw [log, List.length_append, List.length_append, List.length_flatMap] at written
  change _ = _ + (before.moving.map weight).sum at written
  have records := (records_perm before starts).length_eq
  rw [List.length_append, length_records_lost, List.length_flatMap] at records
  change _ = (before.moved.map weight).sum at records
  have fewer : (before.moved.map weight).sum ≤ (before.moving.map weight).sum :=
    (part.map weight).sum_le_sum fun _ _ => Nat.zero_le _
  have noneLost : (lost adoption starts before).length = 0 := by omega
  refine ⟨lost_eq_nil_iff.mp (List.length_eq_zero_iff.mp noneLost), fun row member left => ⟨?_, ?_⟩⟩
  · have equal : (before.moving.map weight).sum ≤ (before.moved.map weight).sum := by omega
    exact List.length_eq_zero_iff.mp (weight_eq_zero weight part equal member left)
  · intro first isFirst same
    have firstThere := whole.moved first (part.subset isFirst)
    have rowThere := whole.moved row member
    exact List.inj_on_of_nodup_map (adopted before starts stamp).named firstThere rowThere same

/-! ## Later starts -/

private theorem attempt_of_done {tables : Tables} (done : tables.pending = [])
    (start : Attempt Text) : attempt adoption tables start = tables := by
  have planned : adoption.plan tables = [] :=
    congrArg (statementsFrom tables.history tables.present) done
  rw [attempt, planned, List.take_nil]
  rfl

theorem unchanged_of_done {tables : Tables} (done : tables.pending = []) (later : List Later) :
    Along laterStep Unchanged tables later := by
  refine along_of_invariant (fun state event next (done : state.pending = []) taken => ?_) done
  cases event with
  | start start =>
      obtain rfl := Option.some.inj taken
      rw [attempt_of_done done]
      exact ⟨done, rfl⟩
  | edit portfolio log named =>
      obtain rfl := Option.some.inj taken
      exact ⟨done, trivial⟩

/-- The adoption is whole, and stays so, if and only if no start stops between a domain and the last
event of its history and no two rows with something to tell are of one domain. -/
theorem adopted_iff (before : Tables) (starts : List (Attempt Text)) (stamp : Text) :
    Adopted before starts stamp ↔ Unbroken before starts ∧ Apart before :=
  ⟨fun ⟨whole, _⟩ => unbroken_of_whole whole, fun ⟨unbroken, apart⟩ =>
    ⟨whole_of_unbroken unbroken apart, unchanged_of_done (pending_adopted before starts stamp)⟩⟩

def oneWatched : Tables where
  watched := [⟨1, "example.nl".toList, none, none, "2026-01-01".toList, "quarantine".toList,
    "[]".toList, none, none, none, none, none, none⟩]
  history := [⟨"example.nl".toList, "2026-01-02".toList, some "In quarantine.".toList⟩]
  portfolio := []
  log := []
  keyed := List.nodup_singleton 1
  named := List.nodup_nil

/-- A start that stops after the first statement loses the history. -/
theorem history_lost :
    ¬ ∀ (before : Tables) (starts : List (Attempt Text)) (stamp : Text),
      Adopted before starts stamp := by
  intro claim
  obtain ⟨whole, _⟩ := claim oneWatched [⟨[], 1⟩] []
  have empty : (adopted oneWatched [⟨[], 1⟩] []).log = [] := by decide
  have written := whole.history.length_eq
  rw [empty] at written
  exact absurd written (by decide)

end Adoption
end DomainPortfolio
end DomainLens
