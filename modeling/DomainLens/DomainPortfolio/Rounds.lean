import DomainLens.Rdap

/-!
# Whose turn it is

A run of the scheduler looks up the domains that are due, the longest not looked up first, and a
bounded number of them.  The file says when every domain gets its turn, whatever the registries answer.
-/

namespace DomainLens
namespace DomainPortfolio
namespace Rounds

open Python Run Registry Rdap

/-! ## A lookup -/

/-- What the registries and the database do with one domain: the replies to the first and the second
request, what `whois_port43.lookup` returns unless it raises, what the probe finds, and whether the row
cannot be stored. -/
structure Behaviour where
  first : Reply
  second : Reply
  whois : Option Result
  found : Found
  storeFails : Bool

/-- `result.get("retry_after")` is truthy. -/
def asksToWait (result : Result) : Bool :=
  match result.retryAfter with
  | some seconds => seconds.worth ≠ some 0
  | none => false

variable (str : Str)

/-- The result of RDAP, asked a second time after a 429. -/
def rdapResult (domain : Text) (behaviour : Behaviour) : Option Result :=
  (Rdap.lookup str domain behaviour.first).bind fun result =>
    if asksToWait result then Rdap.lookup str domain behaviour.second else some result

/-- Port 43 is asked for what RDAP does not say. -/
def needsWhois (result : Result) : Bool :=
  (result.state = some .notApplicable || result.state = some .unmeasured) && !asksToWait result

/-- `lookup_paced`; nothing where it raises. -/
def lookupPaced (domain : Text) (behaviour : Behaviour) : Option Result :=
  (rdapResult str domain behaviour).bind fun result =>
    if needsWhois result then
      behaviour.whois.map fun fallback =>
        if fallback.lookup.success ∨ fallback.lookup.registered = .no then fallback
        else if result.state = some .unmeasured then result
        else fallback
    else some result

/-- SQLite takes the value of a column. -/
def isStorable : Value → Bool
  | .list _ | .dict _ => false
  | .number (.int value) => -2 ^ 63 ≤ value && value < 2 ^ 63
  | _ => true

def stores (behaviour : Behaviour) (result : Result) : Bool :=
  !behaviour.storeFails && ((answer result.lookup).isNone || isStorable result.released)

/-- `check`: the row afterwards; nothing where it raises before the row is stored. -/
def checkRow (row : Row) (behaviour : Behaviour) (now : Time) : Option Row :=
  (lookupPaced str row.domain behaviour).bind fun result =>
    if stores behaviour result then some (Registry.check row result.lookup behaviour.found now).1
    else none

/-! ## Who is due -/

def second : Time := 1000000

def minute : Time := 60 * second

def hour : Time := 60 * minute

/-- The first moment that no `datetime` has. -/
def endOfTime : Time := 3652059 * (24 * hour)

/-- A `datetime`: what its clock shows, and how far it is ahead of UTC. -/
structure Moment where
  wall : Time
  offset : Time

/-- `datetime.fromisoformat`, of UTC where no offset is given. -/
abbrev ReadMoment := Text → Option Moment

variable (moment : ReadMoment)

/-- `released.replace("Z", "+00:00")`. -/
def withOffset (released : Text) : Text :=
  released.flatMap fun char => if char = 'Z' then "+00:00".toList else [char]

/-- `_release_window`; nothing where a sum leaves the calendar. -/
def releaseWindow (row : Row) (now : Time) : Option Bool :=
  match (truthyText row.releasedFrom).bind fun released => moment (withOffset released) with
  | none => some false
  | some released =>
      if released.wall - 5 * minute < 0 then none
      else if now < released.wall - released.offset - 5 * minute then some false
      else if endOfTime ≤ released.wall + 75 * minute then none
      else some (now ≤ released.wall - released.offset + 75 * minute)

/-- `is_due`; nothing where it raises. -/
def isDue (row : Row) (now : Time) : Option Bool :=
  match row.lastCheckedAt with
  | none => some true
  | some last =>
      let elapsed := now - last
      let wanted : Bool := row.lifecycle = .claim
      (if wanted then releaseWindow moment row now else some false).map fun inWindow =>
        if inWindow then 55 * second ≤ elapsed
        else if truthyText row.lastError ≠ none ∨
            row.phase ∈ [some .quarantine, some .pendingDelete, some .redemption, none] then
          hour ≤ elapsed
        else if wanted ∨ (daysLeft row.expires (dateOf now)).any (· ≤ 30) then 6 * hour ≤ elapsed
        else 24 * hour ≤ elapsed

/-! ## Runs -/

/-- `_PER_RUN`. -/
def perRun : Nat := 30

/-- The rows of `portfolio_domains` under their keys. -/
structure Portfolio where
  rows : List (Nat × Row)
  nodup : (rows.map Prod.fst).Nodup

/-- A run: its moment, the rows as the query lists them, and what becomes of the lookups. -/
structure Round where
  now : Time
  listed : List (Nat × Row)
  behaviour : Nat → Behaviour

/-- Not after the other in the order of the query: those never looked up come first. -/
def Earlier (left right : Row) : Prop :=
  match left.lastCheckedAt, right.lastCheckedAt with
  | none, _ => True
  | some _, none => False
  | some left, some right => left ≤ right

instance (left right : Row) : Decidable (Earlier left right) := by
  unfold Earlier
  split <;> infer_instance

/-- The rows in the order of the query; equals stand in any order. -/
def Round.Lists (round : Round) (portfolio : Portfolio) : Prop :=
  round.listed.Perm portfolio.rows ∧ round.listed.Pairwise fun left right => Earlier left.2 right.2

instance (round : Round) (portfolio : Portfolio) : Decidable (round.Lists portfolio) :=
  inferInstanceAs (Decidable (_ ∧ _))

/-- The rows that are due; none where one raises. -/
def Round.due (round : Round) : List (Nat × Row) :=
  if round.listed.all fun entry => (isDue moment entry.2 round.now).isSome then
    round.listed.filter fun entry => isDue moment entry.2 round.now = some true
  else []

def Round.chosen (round : Round) : List (Nat × Row) := (round.due moment).take perRun

/-- A row after the run: one that was looked up is written unless its check raises. -/
def Round.after (round : Round) (entry : Nat × Row) : Nat × Row :=
  if entry.1 ∈ (round.chosen moment).map Prod.fst then
    (entry.1, (checkRow str entry.2 (round.behaviour entry.1) round.now).getD entry.2)
  else entry

theorem Round.after_fst (round : Round) (entry : Nat × Row) :
    (round.after str moment entry).1 = entry.1 := by
  unfold after
  split <;> rfl

/-- `maybe_run`. -/
def step (portfolio : Portfolio) (round : Round) : Option Portfolio :=
  if round.Lists portfolio then
    some
      { rows := portfolio.rows.map (round.after str moment)
        nodup := by
          rw [List.map_map, show Prod.fst ∘ round.after str moment = Prod.fst from
            funext (round.after_fst str moment)]
          exact portfolio.nodup }
  else none

/-- The domain is looked up in one of the runs. -/
def LookedUp (id : Nat) : Portfolio → List Round → Prop
  | _, [] => False
  | portfolio, round :: rounds =>
      id ∈ (round.chosen moment).map Prod.fst ∨
        ∃ next, step str moment portfolio round = some next ∧ LookedUp id next rounds

/-- Every lookup of the run that gave no answer has left its moment and an error. -/
def Recorded (_ : Portfolio) (round : Round) (next : Portfolio) : Prop :=
  ∀ entry ∈ round.chosen moment,
    (∀ result ∈ lookupPaced str entry.2.domain (round.behaviour entry.1),
      answer result.lookup = none) →
    ∃ row, (entry.1, row) ∈ next.rows ∧ row.lastCheckedAt = some round.now ∧
      ∃ error, row.lastError = some error ∧ error ≠ []

/-! ## When every lookup is written down -/

/-- No lookup of the domain raises: the replies can be read, port 43 answers where it is asked, and the
row takes the result. -/
structure Behaviour.Clear (domain : Text) (behaviour : Behaviour) : Prop where
  first : behaviour.first.Readable str
  second : ∀ result ∈ Rdap.lookup str domain behaviour.first, asksToWait result →
    behaviour.second.Readable str
  whois : ∀ result ∈ rdapResult str domain behaviour, needsWhois result → behaviour.whois.isSome
  stored : behaviour.storeFails = false
  released : ∀ result ∈ lookupPaced str domain behaviour,
    (answer result.lookup).isSome → isStorable result.released

/-- No row leaves the calendar when it is asked whether it is due, and no lookup of the run raises. -/
def Clear (_ : Portfolio) (round : Round) (_ : Portfolio) : Prop :=
  (∀ entry ∈ round.listed, (isDue moment entry.2 round.now).isSome) ∧
    ∀ entry ∈ round.chosen moment, (round.behaviour entry.1).Clear str entry.2.domain

variable {str moment} {portfolio next : Portfolio} {round : Round} {row new : Row} {now : Time}
  {behaviour : Behaviour} {entry : Nat × Row} {id : Nat}

theorem Behaviour.Clear.checkRow_isSome (clear : behaviour.Clear str row.domain) (now : Time) :
    (checkRow str row behaviour now).isSome := by
  obtain ⟨first, isFirst⟩ := Option.isSome_iff_exists.mp
    (lookup_isSome_of_readable row.domain clear.first)
  obtain ⟨result, isResult⟩ : ∃ result, rdapResult str row.domain behaviour = some result := by
    rw [rdapResult, isFirst, Option.bind_some]
    split
    · rename_i waits
      exact Option.isSome_iff_exists.mp
        (lookup_isSome_of_readable row.domain (clear.second first isFirst waits))
    · exact ⟨first, rfl⟩
  obtain ⟨whole, isWhole⟩ : ∃ whole, lookupPaced str row.domain behaviour = some whole := by
    rw [lookupPaced, isResult, Option.bind_some]
    split
    · rename_i needs
      obtain ⟨fallback, isFallback⟩ := Option.isSome_iff_exists.mp (clear.whois result isResult needs)
      exact ⟨_, by rw [isFallback, Option.map_some]⟩
    · exact ⟨result, rfl⟩
  have stored : stores behaviour whole = true := by
    rw [stores, clear.stored]
    cases answered : answer whole.lookup with
    | none => rfl
    | some new => simpa using clear.released whole isWhole (by simp [answered])
  rw [checkRow, isWhole, Option.bind_some, if_pos stored]
  rfl

private theorem storeUsage_lastCheckedAt (row : Row) (phase : Phase) (found : Found) (now : Time) :
    (storeUsage row phase found now).1.lastCheckedAt = row.lastCheckedAt := by
  unfold storeUsage
  split_ifs <;> rfl

theorem checkRow_lastCheckedAt (checked : checkRow str row behaviour now = some new) :
    new.lastCheckedAt = some now := by
  obtain ⟨result, -, stored⟩ := Option.bind_eq_some_iff.mp checked
  split at stored
  · obtain rfl := Option.some.inj stored
    unfold Registry.check
    split
    · rfl
    · exact storeUsage_lastCheckedAt ..
  · cases stored

theorem checkRow_lastError (checked : checkRow str row behaviour now = some new)
    (unanswered : ∀ result ∈ lookupPaced str row.domain behaviour, answer result.lookup = none) :
    ∃ error, new.lastError = some error ∧ error ≠ [] := by
  obtain ⟨result, found, stored⟩ := Option.bind_eq_some_iff.mp checked
  split at stored
  · obtain rfl := Option.some.inj stored
    rw [Registry.check, unanswered result found]
    refine ⟨_, rfl, ?_⟩
    cases said : truthyText result.lookup.error with
    | none => exact List.cons_ne_nil _ _
    | some error => exact (Option.filter_eq_some_iff.mp said).2 |> of_decide_eq_true
  · cases stored

/-! ## Turns -/

theorem lt_of_isDue {last : Time} (checked : row.lastCheckedAt = some last)
    (due : isDue moment row now = some true) : last < now := by
  rw [isDue, checked] at due
  obtain ⟨inWindow, -, long⟩ := Option.map_eq_some_iff.mp due
  split_ifs at long <;>
    exact sub_pos.mp (lt_of_lt_of_le (by decide) (of_decide_eq_true long))

theorem not_earlier_of_isDue (checked : new.lastCheckedAt = some now)
    (due : isDue moment row now = some true) : ¬Earlier new row := by
  unfold Earlier
  rw [checked]
  cases last : row.lastCheckedAt with
  | none => exact id
  | some last => exact not_le.mpr (lt_of_isDue last due)

/-- The rows not looked up longer than a row, but for it. -/
def ahead (rows : List (Nat × Row)) (id : Nat) (row : Row) : Nat :=
  rows.countP fun entry => entry.1 ≠ id ∧ Earlier entry.2 row

theorem ahead_lt_length {rows : List (Nat × Row)} (member : (id, row) ∈ rows) :
    ahead rows id row < rows.length :=
  List.countP_lt_length_iff.mpr ⟨(id, row), member, by simp⟩

theorem chosen_sublist (moment : ReadMoment) (round : Round) :
    (round.chosen moment).Sublist round.listed := by
  refine (List.take_sublist _ _).trans ?_
  unfold Round.due
  split
  · exact List.filter_sublist
  · exact List.nil_sublist _

/-- A domain that is due and gets no turn leaves it to a full run of others, none of them looked up
after it. -/
theorem chosen_of_waiting (clear : ∀ entry ∈ round.listed, (isDue moment entry.2 round.now).isSome)
    (sorted : round.listed.Pairwise fun left right => Earlier left.2 right.2)
    (member : (id, row) ∈ round.listed) (due : isDue moment row round.now = some true)
    (waits : id ∉ (round.chosen moment).map Prod.fst) :
    (round.chosen moment).length = perRun ∧ ∀ entry ∈ round.chosen moment, Earlier entry.2 row := by
  have isDue_ : round.due moment =
      round.listed.filter fun entry => isDue moment entry.2 round.now = some true :=
    if_pos (List.all_eq_true.mpr clear)
  have inDue : (id, row) ∈ round.due moment := by
    rw [isDue_]
    exact List.mem_filter.mpr ⟨member, decide_eq_true due⟩
  have later : (id, row) ∈ (round.due moment).drop perRun := by
    rw [← List.take_append_drop perRun (round.due moment), List.mem_append] at inDue
    exact inDue.resolve_left fun taken => waits (List.mem_map_of_mem taken)
  constructor
  · have longer := List.length_pos_of_mem later
    rw [List.length_drop] at longer
    rw [Round.chosen, List.length_take]
    omega
  · intro entry taken
    have ordered : (round.due moment).Pairwise fun left right => Earlier left.2 right.2 := by
      rw [isDue_]
      exact sorted.sublist List.filter_sublist
    rw [← List.take_append_drop perRun (round.due moment), List.pairwise_append] at ordered
    exact ordered.2.2 entry taken _ later

private theorem countP_add_countP_le {α : Type*} {left right whole : α → Bool} {values : List α}
    (apart : ∀ value ∈ values, left value = true → whole value = true ∧ right value = false)
    (also : ∀ value ∈ values, right value = true → whole value = true) :
    values.countP right + values.countP left ≤ values.countP whole := by
  induction values with
  | nil => simp
  | cons value values induction =>
      obtain ⟨first, others⟩ := List.forall_mem_cons.mp apart
      obtain ⟨too, rest⟩ := List.forall_mem_cons.mp also
      have counted := induction others rest
      simp only [List.countP_cons]
      cases isLeft : left value with
      | true =>
          obtain ⟨isWhole, notRight⟩ := first isLeft
          simp only [isWhole, notRight, if_true, Bool.false_eq_true, if_false]
          omega
      | false =>
          cases isRight : right value with
          | true =>
              simp only [too isRight, if_true, Bool.false_eq_true, if_false]
              omega
          | false =>
              simp only [Bool.false_eq_true, if_false]
              omega

private theorem length_le_countP {rows : List (Nat × Row)} {ids : List Nat} (distinct : ids.Nodup)
    (among : ∀ id ∈ ids, id ∈ rows.map Prod.fst) :
    ids.length ≤ rows.countP fun entry => entry.1 ∈ ids := by
  have within : ids ⊆ (rows.map Prod.fst).filter (· ∈ ids) := fun id member =>
    List.mem_filter.mpr ⟨among id member, decide_eq_true member⟩
  have counted := (distinct.subperm within).length_le
  rwa [← List.countP_eq_length_filter, List.countP_map] at counted

theorem nodup_listed (lists : round.Lists portfolio) : (round.listed.map Prod.fst).Nodup :=
  (lists.1.map Prod.fst).nodup_iff.mpr portfolio.nodup

private theorem mem_chosen (lists : round.Lists portfolio) (member : entry ∈ portfolio.rows)
    (taken : entry.1 ∈ (round.chosen moment).map Prod.fst) : entry ∈ round.chosen moment := by
  obtain ⟨other, held, same⟩ := List.mem_map.mp taken
  have equal := List.inj_on_of_nodup_map (nodup_listed lists)
    ((chosen_sublist moment round).subset held) (lists.1.mem_iff.mpr member) same
  exact equal ▸ held

theorem ahead_after (clear : Clear str moment portfolio round next) (lists : round.Lists portfolio)
    (member : (id, row) ∈ portfolio.rows) (due : isDue moment row round.now = some true)
    (waits : id ∉ (round.chosen moment).map Prod.fst) :
    ahead (portfolio.rows.map (round.after str moment)) id row + perRun ≤
      ahead portfolio.rows id row := by
  obtain ⟨full, before⟩ := chosen_of_waiting clear.1 lists.2 (lists.1.mem_iff.mpr member) due waits
  have ids : perRun ≤ portfolio.rows.countP fun entry =>
      entry.1 ∈ (round.chosen moment).map Prod.fst := by
    rw [← full, ← List.length_map (f := Prod.fst)]
    refine length_le_countP
      ((nodup_listed lists).sublist ((chosen_sublist moment round).map Prod.fst)) fun id taken => ?_
    exact (lists.1.map Prod.fst).subset (((chosen_sublist moment round).map Prod.fst).subset taken)
  refine le_trans (Nat.add_le_add_left ids _) ?_
  rw [ahead, List.countP_map]
  refine countP_add_countP_le (fun entry listed taken => ?_) fun entry listed isAhead => ?_
  · have held := mem_chosen lists listed (of_decide_eq_true taken)
    have other : entry.1 ≠ id := fun same => waits (same ▸ of_decide_eq_true taken)
    obtain ⟨new, checked⟩ := Option.isSome_iff_exists.mp
      ((clear.2 entry held).checkRow_isSome round.now)
    have after : round.after str moment entry = (entry.1, new) := by
      rw [Round.after, if_pos (of_decide_eq_true taken), checked, Option.getD_some]
    refine ⟨decide_eq_true ⟨other, before entry held⟩, ?_⟩
    rw [Function.comp_apply, after, decide_eq_false_iff_not]
    exact fun ⟨_, earlier⟩ => not_earlier_of_isDue (checkRow_lastCheckedAt checked) due earlier
  · by_cases taken : entry.1 ∈ (round.chosen moment).map Prod.fst
    · have other : entry.1 ≠ id := fun same => waits (same ▸ taken)
      exact decide_eq_true ⟨other, before entry (mem_chosen lists listed taken)⟩
    · rwa [Function.comp_apply, Round.after, if_neg taken] at isAhead

/-- A domain that stays due is looked up within the runs that have room for those before it. -/
theorem lookedUp_of_ahead {rounds : List Round} {final : Portfolio}
    (clear : Along (step str moment) (Clear str moment) portfolio rounds)
    (execution : run (step str moment) portfolio rounds = some final)
    (member : (id, row) ∈ portfolio.rows)
    (due : ∀ round ∈ rounds, isDue moment row round.now = some true)
    (room : ahead portfolio.rows id row < perRun * rounds.length) :
    LookedUp str moment id portfolio rounds := by
  induction rounds generalizing portfolio with
  | nil => simp at room
  | cons round rounds induction =>
      obtain ⟨dueNow, dueLater⟩ := List.forall_mem_cons.mp due
      obtain ⟨next, taken, rest⟩ := run_cons_eq_some.mp execution
      obtain ⟨clearNow, clearLater⟩ := clear next taken
      by_cases waits : id ∈ (round.chosen moment).map Prod.fst
      · exact .inl waits
      · refine .inr ⟨next, taken, ?_⟩
        unfold step at taken
        split at taken
        · rename_i lists
          have isNext := Option.some.inj taken
          have rows : next.rows = portfolio.rows.map (round.after str moment) := by rw [← isNext]
          refine induction clearLater rest ?_ dueLater ?_
          · rw [rows]
            exact List.mem_map.mpr ⟨(id, row), member, by rw [Round.after, if_neg waits]⟩
          · have fewer := ahead_after clearNow lists member dueNow waits
            rw [← rows] at fewer
            rw [List.length_cons, Nat.mul_succ] at room
            omega
        · cases taken

theorem recorded_of_clear (clear : Clear str moment portfolio round next)
    (taken : step str moment portfolio round = some next) :
    Recorded str moment portfolio round next := by
  intro entry held unanswered
  obtain ⟨new, checked⟩ := Option.isSome_iff_exists.mp
    ((clear.2 entry held).checkRow_isSome round.now)
  unfold step at taken
  split at taken
  · rename_i lists
    obtain rfl := Option.some.inj taken
    have listed := lists.1.subset ((chosen_sublist moment round).subset held)
    refine ⟨new, List.mem_map.mpr ⟨entry, listed, ?_⟩, checkRow_lastCheckedAt checked,
      checkRow_lastError checked unanswered⟩
    rw [Round.after, if_pos (List.mem_map_of_mem held), checked, Option.getD_some]
  · cases taken

/-- While no lookup raises, every domain that stays due is looked up within as many runs as the
portfolio fills, and every lookup without an answer leaves its moment and an error. -/
theorem lookedUp_of_clear (str : Str) (moment : ReadMoment) {portfolio final : Portfolio}
    {rounds : List Round} (clear : Along (step str moment) (Clear str moment) portfolio rounds)
    (execution : run (step str moment) portfolio rounds = some final) :
    Along (step str moment) (Recorded str moment) portfolio rounds ∧
      ∀ id row, (id, row) ∈ portfolio.rows →
        (∀ round ∈ rounds, isDue moment row round.now = some true) →
        portfolio.rows.length ≤ perRun * rounds.length → LookedUp str moment id portfolio rounds := by
  constructor
  · exact @along_of_guarded _ _ (step str moment) (fun _ => True) (Clear str moment)
      (Recorded str moment) (fun _ _ _ _ taken met => ⟨trivial, recorded_of_clear met taken⟩) _ _
      trivial clear
  · intro id row member due room
    exact lookedUp_of_ahead clear execution member due
      ((ahead_lt_length member).trans_le room)

/-! ## A run filled by odd answers -/

/-- An answer of a registry that is a list. -/
private def odd : Behaviour :=
  ⟨.http 200 (.int 10) (.json (.list [])), .noServer, none, ⟨none, none, none⟩, false⟩

private def silent : Behaviour :=
  ⟨.failed "ConnectTimeout".toList, .noServer, some (.without .unmeasured .absent []),
    ⟨none, none, none⟩, false⟩

private def domains (count : Nat) : List (Nat × Row) :=
  (List.range count).map fun id => (id, Row.added [] .keep)

private theorem domains_nodup (count : Nat) : ((domains count).map Prod.fst).Nodup := by
  have ids : (domains count).map Prod.fst = List.range count := by
    simp [domains, Function.comp_def]
  rw [ids]
  exact List.nodup_range

def sample (count : Nat) : Portfolio := ⟨domains count, domains_nodup count⟩

/-- Every registry but that of the last domain answers with a list. -/
def oddRound : Round := ⟨0, domains 31, fun id => if id < 30 then odd else silent⟩

private def sampleStr : Str := fun _ => []

private def sampleMoment : ReadMoment := fun _ => none

private theorem step_of_same {portfolio : Portfolio} {round : Round}
    (lists : round.Lists portfolio)
    (same : portfolio.rows.map (round.after sampleStr sampleMoment) = portfolio.rows) :
    step sampleStr sampleMoment portfolio round = some portfolio := by
  rw [step, if_pos lists, Option.some.injEq]
  cases portfolio
  congr

private theorem oddRound_step : step sampleStr sampleMoment (sample 31) oddRound = some (sample 31) := by
  refine step_of_same ⟨List.Perm.refl _, ?_⟩ ?_
  · decide +kernel
  · decide +kernel

/-- Thirty domains with odd answers take every run, and the last domain never has its turn. -/
theorem oddRound_starves :
    isDue sampleMoment (Row.added [] .keep) oddRound.now = some true ∧
      (30, Row.added [] .keep) ∈ (sample 31).rows ∧
      ∀ count, run (step sampleStr sampleMoment) (sample 31) (List.replicate count oddRound) =
          some (sample 31) ∧
        ¬LookedUp sampleStr sampleMoment 30 (sample 31) (List.replicate count oddRound) := by
  refine ⟨rfl, by decide +kernel, fun count => ⟨?_, ?_⟩⟩
  · induction count with
    | zero => rfl
    | succ count induction =>
        rw [List.replicate_succ, run, oddRound_step, Option.bind_some, induction]
  · induction count with
    | zero => exact id
    | succ count induction =>
        rw [List.replicate_succ, LookedUp, oddRound_step]
        rintro (taken | ⟨next, same, later⟩)
        · exact absurd taken (by decide +kernel)
        · obtain rfl := Option.some.inj same
          exact induction later

def silentRound : Round := ⟨0, domains 2, fun _ => silent⟩

/-- Both of two domains have their turn, and what it came to is recorded. -/
theorem silentRound_lookedUp :
    LookedUp sampleStr sampleMoment 1 (sample 2) [silentRound] := by
  have lists : silentRound.Lists (sample 2) := by
    refine ⟨List.Perm.refl _, ?_⟩
    decide +kernel
  have clear : Along (step sampleStr sampleMoment) (Clear sampleStr sampleMoment) (sample 2)
      [silentRound] := by
    refine fun next _ => ⟨⟨by decide +kernel, fun entry _ => ?_⟩, trivial⟩
    exact
      { first := trivial
        second := fun result found waits => by
          obtain rfl := Option.some.inj found
          cases waits
        whois := fun _ _ _ => rfl
        stored := rfl
        released := fun result found answered => by
          obtain rfl := Option.some.inj found
          cases answered }
  obtain ⟨final, execution⟩ : ∃ final,
      run (step sampleStr sampleMoment) (sample 2) [silentRound] = some final :=
    ⟨_, by rw [run, step, if_pos lists, Option.bind_some, run_nil]⟩
  refine (lookedUp_of_clear sampleStr sampleMoment clear execution).2 1 (Row.added [] .keep)
    (by decide +kernel) ?_ (by decide)
  intro round member
  obtain rfl := List.mem_singleton.mp member
  rfl

end Rounds
end DomainPortfolio
end DomainLens
