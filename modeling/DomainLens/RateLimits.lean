import DomainLens.Library.Run
import DomainLens.Python.Text
import Mathlib

/-!
# Budgets of the third-party services

A lookup waits for a free slot in the minute of its service, and is not made where none comes in
time, the day is used up or the service asked for a pause.  Each turn of the waiting loop is one step
under the lock; the sleeps between are not.  The file bounds the lookups in every window and every
day, and says when a pause is kept.
-/

namespace DomainLens
namespace RateLimits

open Python Run

abbrev Time := Rat

abbrev Day := Int

abbrev Client := Nat

inductive Provider where
  | virustotal
  | ipApi
  | otx
  | abuseCh
  | wayback
  | other (name : String)
deriving DecidableEq

/-- `_name`. -/
def Provider.name : Provider → String
  | .virustotal => "VirusTotal"
  | .ipApi => "ip-api.com"
  | .otx => "AlienVault OTX"
  | .abuseCh => "abuse.ch"
  | .wayback => "the Internet Archive"
  | .other name => name

/-- The section `api_limits` of the settings. -/
structure Settings where
  virustotalPerMinute : Option Int
  virustotalPerDay : Option Int
  ipApiPerMinute : Option Int
  waitSeconds : Option Int
deriving DecidableEq

/-- `limits`: lookups in a minute and in a day, nothing where no budget is kept. -/
def limits (settings : Settings) : Provider → Option Int × Option Int
  | .virustotal =>
      (some ((settings.virustotalPerMinute.filter (· ≠ 0)).getD 4),
        some ((settings.virustotalPerDay.filter (· ≠ 0)).getD 500))
  | .ipApi => (some ((settings.ipApiPerMinute.filter (· ≠ 0)).getD 45), none)
  | _ => (none, none)

/-- `max_wait`. -/
def maxWait (settings : Settings) : Int := max 0 (settings.waitSeconds.getD 20)

/-- What the module keeps of one service. -/
structure Usage where
  /-- The times of the lookups in the last minute, first one first. -/
  minute : List Time
  /-- The day of the last lookup, and the lookups made on it. -/
  day : Option (Day × Nat)
  /-- Until when the service asked not to be asked, and what is said of it. -/
  cooldown : Time × Option String
deriving DecidableEq

/-- A service nobody has asked anything. -/
def Usage.fresh : Usage where
  minute := []
  day := none
  cooldown := (0, none)

/-! ## One turn -/

inductive Answer where
  | granted
  | refused (reason : Option String)
  /-- `calls[0]` of no calls. -/
  | raised
deriving DecidableEq

/-- What a turn of the loop comes to. -/
inductive Turn where
  | ended (answer : Answer)
  | pause (seconds : Time)
deriving DecidableEq

def dailyText (provider : Provider) (perDay : Int) : String :=
  "The daily limit for " ++ provider.name ++ " (" ++ toString perDay ++
    " lookups) is used up; it resets at 00:00 UTC. Not measured; try again later."

def minuteText (provider : Provider) (perMinute : Option Int) : String :=
  provider.name ++ " allows " ++ (perMinute.elim "None" toString) ++
    " lookups a minute and they were in use. Not measured; try again later."

def cooldownText (provider : Provider) : String :=
  provider.name ++ " asked to slow down (its rate limit was reached). Not measured; try again later."

def prune (calls : List Time) (now : Time) : List Time :=
  calls.dropWhile fun call => 60 ≤ now - call

/-- The day the counter stands for, and its count: it starts again each day. -/
def today (usage : Usage) (date : Day) : Day × Nat :=
  let (day, count) := usage.day.getD (date, 0)
  if day ≠ date then (date, 0) else (day, count)

/-- One turn of the loop of `acquire`, with the lock. -/
def turn (provider : Provider) (perMinute perDay : Option Int) (usage : Usage) (now : Time)
    (date : Day) : Usage × Turn :=
  if now < usage.cooldown.1 then (usage, .ended (.refused usage.cooldown.2))
  else
    let (day, count) := today usage date
    match perDay.filter fun (most : Int) => most ≠ 0 ∧ most ≤ count with
    | some most => (usage, .ended (.refused (dailyText provider most)))
    | none =>
        let calls := prune usage.minute now
        if (perMinute.filter fun (most : Int) => most ≠ 0 ∧ most ≤ calls.length).isNone then
          ({ usage with minute := calls ++ [now], day := some (day, count + 1) }, .ended .granted)
        else
          match calls with
          | [] => ({ usage with minute := calls }, .ended .raised)
          | first :: _ => ({ usage with minute := calls }, .pause (60 - (now - first) + 1 / 20))

/-- `int` of a header. -/
def intLiteral (text : Text) : Option Int :=
  let body := strip text
  let digits := if body.head? = some '-' ∨ body.head? = some '+' then body.tail else body
  if (digits.splitOnP (· == '_')).all (fun part => part ≠ [] && part.all isDecimal) ∧
      (digits.filter (· ≠ '_')).length ≤ 4300 then
    let value : Int := intOf (digits.filter (· ≠ '_'))
    some (if body.head? = some '-' then -value else value)
  else none

/-- The pause a response with status 429 asks for, from its header `Retry-After`. -/
def pauseOf (retryAfter : Option Text) : Int :=
  min (((retryAfter.filter (· ≠ [])).bind intLiteral).getD 60) (24 * 3600)

/-- `cooldown`, with the text it has unless one is given. -/
def Usage.cool (usage : Usage) (provider : Provider) (now : Time) (seconds : Int) : Usage :=
  { usage with cooldown := (now + (max 1 seconds : Int), some (cooldownText provider)) }

/-! ## Calls -/

/-- A call in its loop.  The times beside what the loop keeps say when it was called, how often it has
slept and how much later than it asked for it woke up. -/
structure Waiting where
  provider : Provider
  perMinute : Option Int
  perDay : Option Int
  budget : Time
  waited : Time
  started : Time
  wakeAt : Time
  sleeps : Nat
  late : Time
deriving DecidableEq

structure Grant where
  provider : Provider
  time : Time
  date : Day
deriving DecidableEq

structure Ask where
  provider : Provider
  lifts : Time
deriving DecidableEq

/-- The module, its callers with their last answers, and both clocks, with what was granted and asked
for so far, last one first. -/
structure World where
  usage : Provider → Usage
  waiting : Client → Option Waiting
  answers : Client → Option Answer
  clock : Time
  date : Day
  granted : List Grant
  asked : List Ask

inductive Label where
  | acquire (client : Client) (provider : Provider) (settings : Settings) (wait : Option Time)
      (now : Time) (date : Day)
  | turn (client : Client) (now : Time) (date : Day)
  | noteResponse (provider : Provider) (status : Option Int) (retryAfter : Option Text) (now : Time)
      (date : Day)

namespace Label

def now : Label → Time
  | acquire _ _ _ _ now _ | turn _ now _ | noteResponse _ _ _ now _ => now

def date : Label → Day
  | acquire _ _ _ _ _ date | turn _ _ date | noteResponse _ _ _ _ date => date

def Under (settings : Settings) : Label → Prop
  | acquire _ _ given _ _ _ => given = settings
  | turn _ _ _ | noteResponse _ _ _ _ _ => True

instance (settings : Settings) : DecidablePred (Under settings)
  | acquire _ _ given _ _ _ => inferInstanceAs (Decidable (given = settings))
  | turn _ _ _ | noteResponse _ _ _ _ _ => .isTrue trivial

end Label

namespace World

/-- Nobody has asked anything, at a time. -/
def start (clock : Time) (date : Day) : World where
  usage := fun _ => Usage.fresh
  waiting := fun _ => none
  answers := fun _ => none
  clock
  date
  granted := []
  asked := []

/-- What is kept of one service is written. -/
def setUsage (world : World) (provider : Provider) (usage : Usage) : World :=
  { world with usage := fun other => if other = provider then usage else world.usage other }

def await (world : World) (client : Client) (call : Waiting) : World :=
  { world with waiting := fun other => if other = client then some call else world.waiting other }

def finish (world : World) (client : Client) (answer : Answer) : World :=
  { world with
    waiting := fun other => if other = client then none else world.waiting other
    answers := fun other => if other = client then some answer else world.answers other }

/-- `acquire` is called. -/
def acquire (world : World) (client : Client) (provider : Provider) (settings : Settings)
    (wait : Option Time) (now : Time) : World :=
  world.await client
    { provider
      perMinute := (limits settings provider).1
      perDay := (limits settings provider).2
      budget := wait.getD (maxWait settings)
      waited := 0
      started := now
      wakeAt := now
      sleeps := 0
      late := 0 }

/-- A call takes its turn: it ends, or sleeps where its budget allows. -/
def takeTurn (world : World) (client : Client) (call : Waiting) (now : Time) (date : Day) : World :=
  let (usage, turn) :=
    turn call.provider call.perMinute call.perDay (world.usage call.provider) now date
  let world := world.setUsage call.provider usage
  match turn with
  | .ended .granted =>
      { world with
        granted := { provider := call.provider, time := now, date } :: world.granted }.finish client
          .granted
  | .ended answer => world.finish client answer
  | .pause seconds =>
      if call.budget < call.waited + seconds then
        world.finish client (.refused (minuteText call.provider call.perMinute))
      else
        world.await client
          { call with
            waited := call.waited + seconds
            wakeAt := now + seconds
            sleeps := call.sleeps + 1
            late := call.late + (now - call.wakeAt) }

/-- `note_response`. -/
def noteResponse (world : World) (provider : Provider) (status : Option Int)
    (retryAfter : Option Text) (now : Time) : World :=
  if status = some 429 then
    let seconds := pauseOf retryAfter
    { world.setUsage provider ((world.usage provider).cool provider now seconds) with
      asked := { provider, lifts := now + (seconds : Int) } :: world.asked }
  else world

def tick (world : World) (now : Time) (date : Day) : World := { world with clock := now, date }

end World

/-- One atomic step.  Neither clock goes back, and a call sleeps as long as it asked for at least. -/
def step (world : World) (label : Label) : Option World :=
  if label.now < world.clock ∨ label.date < world.date then none
  else
    let world := world.tick label.now label.date
    match label with
    | .acquire client provider settings wait now _ =>
        match world.waiting client with
        | some _ => none
        | none => some (world.acquire client provider settings wait now)
    | .turn client now date =>
        match world.waiting client with
        | none => none
        | some call => if now < call.wakeAt then none else some (world.takeTurn client call now date)
    | .noteResponse provider status retryAfter now _ =>
        some (world.noteResponse provider status retryAfter now)

/-! ## What a turn does -/

/-- A turn that grants a lookup records it; any other leaves the counters as they are. -/
private inductive Turned (perMinute perDay : Option Int) (usage : Usage) (now : Time) (date : Day) :
    Usage → Turn → Prop
  | granted (free : usage.cooldown.1 ≤ now)
      (inDay : ∀ most, perDay = some most → most ≠ 0 → (today usage date).2 < most)
      (inMinute : ∀ most, perMinute = some most → most ≠ 0 → (prune usage.minute now).length < most) :
      Turned perMinute perDay usage now date
        { usage with
          minute := prune usage.minute now ++ [now]
          day := some ((today usage date).1, (today usage date).2 + 1) }
        (.ended .granted)
  | kept {after : Usage} {turn : Turn} (day : after.day = usage.day)
      (cooldown : after.cooldown = usage.cooldown)
      (minute : after.minute = usage.minute ∨ after.minute = prune usage.minute now)
      (notGranted : turn ≠ .ended .granted)
      (long : ∀ seconds, turn = .pause seconds → 1 / 20 < seconds) :
      Turned perMinute perDay usage now date after turn

private theorem turn_turned (provider : Provider) (perMinute perDay : Option Int) (usage : Usage)
    (now : Time) (date : Day) :
    Turned perMinute perDay usage now date (turn provider perMinute perDay usage now date).1
      (turn provider perMinute perDay usage now date).2 := by
  unfold turn
  split
  · exact .kept rfl rfl (.inl rfl) (by simp) (by simp)
  · rename_i free
    dsimp only
    split
    · exact .kept rfl rfl (.inl rfl) (by simp) (by simp)
    · rename_i left
      split
      · rename_i room
        refine .granted (not_lt.mp free) (fun most isDay used => ?_) fun most isMinute used => ?_
        · simpa [isDay, used] using left
        · simpa [isMinute, used] using room
      · split
        · exact .kept rfl rfl (.inr rfl) (by simp) (by simp)
        · rename_i first rest found
          refine .kept rfl rfl (.inr rfl) (by simp) fun seconds same => ?_
          have young := List.head?_dropWhile_not (fun call => decide (60 ≤ now - call)) usage.minute
          rw [← prune, found] at young
          injection same with same
          have young : now - first < 60 := by simpa using young
          linarith

/-! ## The counters of one service -/

/-- The counters stand for the lookups that were granted: those left out of the minute are older, and
the day counted is the last one. -/
private structure Counts (usage : Usage) (grants : List Grant) (clock : Time) (date : Day) : Prop where
  minute : ∃ gone, grants.map Grant.time = usage.minute.reverse ++ gone ∧
    ∀ time ∈ gone, time + 60 ≤ clock
  unused : usage.day = none → grants = []
  used : ∀ day count, usage.day = some (day, count) →
    count = grants.countP (fun grant => grant.date = day) ∧ day ≤ date ∧
      ∀ grant ∈ grants, grant.date ≤ day

section Counts

variable {usage after : Usage} {grants : List Grant} {clock now : Time} {date : Day}

private theorem Counts.mono (counts : Counts usage grants clock date) {later : Time} {laterDate : Day}
    (ahead : clock ≤ later) (dateAhead : date ≤ laterDate) :
    Counts usage grants later laterDate where
  minute := by
    obtain ⟨gone, split, old⟩ := counts.minute
    exact ⟨gone, split, fun time member => (old time member).trans ahead⟩
  unused := counts.unused
  used day count held := by
    obtain ⟨same, before, last⟩ := counts.used day count held
    exact ⟨same, before.trans dateAhead, last⟩

private theorem reverse_prune (calls : List Time) (now : Time) :
    ∃ gone, calls.reverse = (prune calls now).reverse ++ gone ∧ ∀ time ∈ gone, time + 60 ≤ now := by
  refine ⟨(calls.takeWhile fun call => 60 ≤ now - call).reverse, ?_, fun time member => ?_⟩
  · rw [prune, ← List.reverse_append, List.takeWhile_append_dropWhile]
  · have old := List.mem_takeWhile_imp (List.mem_reverse.mp member)
    simp only [decide_eq_true_eq] at old
    linarith

private theorem Counts.kept (counts : Counts usage grants now date) (day : after.day = usage.day)
    (minute : after.minute = usage.minute ∨ after.minute = prune usage.minute now) :
    Counts after grants now date where
  minute := by
    obtain ⟨gone, split, old⟩ := counts.minute
    rcases minute with same | pruned
    · exact ⟨gone, same ▸ split, old⟩
    · obtain ⟨dropped, cut, older⟩ := reverse_prune usage.minute now
      refine ⟨dropped ++ gone, ?_, fun time member => ?_⟩
      · rw [pruned, ← List.append_assoc, ← cut, split]
      · exact (List.mem_append.mp member).elim (older time) (old time)
  unused := by
    rw [day]
    exact counts.unused
  used := by
    rw [day]
    exact counts.used

private theorem Counts.today_eq (counts : Counts usage grants now date) :
    today usage date = (date, grants.countP fun grant => grant.date = date) := by
  unfold today
  cases held : usage.day with
  | none => simp [counts.unused held]
  | some pair =>
      obtain ⟨day, count⟩ := pair
      obtain ⟨same, before, last⟩ := counts.used day count held
      by_cases differs : day = date
      · subst differs
        simp [same]
      · have none : ∀ grant ∈ grants, ¬ grant.date = date := fun grant member equal =>
          differs (le_antisymm before (equal ▸ last grant member))
        simp only [Option.getD_some, if_pos differs, ne_eq]
        rw [List.countP_eq_zero.mpr (by simpa using none)]

private theorem Counts.granted (counts : Counts usage grants now date) (provider : Provider) :
    Counts
      { usage with
        minute := prune usage.minute now ++ [now]
        day := some ((today usage date).1, (today usage date).2 + 1) }
      ({ provider, time := now, date } :: grants) now date where
  minute := by
    obtain ⟨gone, split, old⟩ := counts.minute
    obtain ⟨dropped, cut, older⟩ := reverse_prune usage.minute now
    refine ⟨dropped ++ gone, ?_, fun time member => ?_⟩
    · simp [split, cut]
    · exact (List.mem_append.mp member).elim (older time) (old time)
  unused held := by cases held
  used day count held := by
    rw [counts.today_eq] at held
    obtain ⟨rfl, rfl⟩ := Prod.mk.inj (Option.some.inj held)
    refine ⟨by simp, le_refl date, fun grant member => ?_⟩
    rcases List.mem_cons.mp member with rfl | old
    · exact le_refl date
    · cases before : usage.day with
      | none => simp [counts.unused before] at old
      | some pair =>
          obtain ⟨_, ahead, last⟩ := counts.used pair.1 pair.2 before
          exact (last grant old).trans ahead

private theorem Counts.window (counts : Counts usage grants now date) {start : Time}
    (reaches : now < start + 60) :
    (grants.countP fun grant => start ≤ grant.time ∧ grant.time < start + 60) ≤
      (prune usage.minute now).length := by
  obtain ⟨gone, split, old⟩ := counts.minute
  obtain ⟨dropped, cut, older⟩ := reverse_prune usage.minute now
  have times : (grants.countP fun grant => start ≤ grant.time ∧ grant.time < start + 60) =
      ((prune usage.minute now).reverse ++ (dropped ++ gone)).countP fun time =>
        start ≤ time ∧ time < start + 60 := by
    rw [← List.append_assoc, ← cut, ← split, List.countP_map]
    rfl
  have none : ((dropped ++ gone).countP fun time => start ≤ time ∧ time < start + 60) = 0 := by
    refine List.countP_eq_zero.mpr fun time member => ?_
    have far : time + 60 ≤ now := (List.mem_append.mp member).elim (older time) (old time)
    simp only [decide_eq_true_eq, not_and, not_lt]
    intro inside
    linarith
  rw [times, List.countP_append, none, Nat.add_zero]
  exact List.countP_le_length.trans_eq (List.length_reverse)

end Counts

/-! ## Runs -/

namespace World

/-- The lookups of one service that were granted, last one first. -/
def grantsOf (world : World) (provider : Provider) : List Grant :=
  world.granted.filter fun grant => grant.provider = provider

end World

/-- No minute and no day has more lookups than its budget, and no call is longer in its loop than its
own budget, counting what it overslept as late.  A negative budget allows none. -/
structure WithinBudget (settings : Settings) (world : World) (label : Label) (next : World) :
    Prop where
  minute : ∀ provider most, (limits settings provider).1 = some most → ∀ start,
    ((next.grantsOf provider).countP fun grant => start ≤ grant.time ∧ grant.time < start + 60) ≤
      most.toNat
  day : ∀ provider most, (limits settings provider).2 = some most → ∀ date,
    ((next.grantsOf provider).countP fun grant => grant.date = date) ≤ most.toNat
  elapsed : ∀ client now date, label = .turn client now date → ∀ call,
    world.waiting client = some call →
      now - call.started ≤ max 0 call.budget + (call.late + (now - call.wakeAt))
  sleeps : ∀ client call, next.waiting client = some call →
    (call.sleeps : Time) ≤ 20 * max 0 call.budget

/-- A call in its loop has slept within its budget, and knows the limits of its service. -/
private structure Patient (settings : Settings) (call : Waiting) : Prop where
  perMinute : call.perMinute = (limits settings call.provider).1
  perDay : call.perDay = (limits settings call.provider).2
  slept : call.waited ≤ max 0 call.budget
  often : (call.sleeps : Time) ≤ 20 * call.waited
  wakes : call.wakeAt = call.started + call.waited + call.late

private structure Sound (settings : Settings) (world : World) : Prop where
  counts : ∀ provider,
    Counts (world.usage provider) (world.grantsOf provider) world.clock world.date
  minute : ∀ provider most, (limits settings provider).1 = some most → ∀ start,
    ((world.grantsOf provider).countP fun grant => start ≤ grant.time ∧ grant.time < start + 60) ≤
      most.toNat
  day : ∀ provider most, (limits settings provider).2 = some most → ∀ date,
    ((world.grantsOf provider).countP fun grant => grant.date = date) ≤ most.toNat
  patient : ∀ client call, world.waiting client = some call → Patient settings call

section Step

variable {settings : Settings} {world next : World}

private theorem limits_ne_zero {provider : Provider} {most : Int}
    (limit : (limits settings provider).1 = some most ∨ (limits settings provider).2 = some most) :
    most ≠ 0 := by
  have chosen : ∀ (stored : Option Int) (default : Int), default ≠ 0 →
      (stored.filter (· ≠ 0)).getD default ≠ 0 := by
    intro stored default positive
    cases kept : stored.filter (· ≠ 0) with
    | none => exact positive
    | some value => simpa using (Option.filter_eq_some_iff.mp kept).2
  cases provider with
  | virustotal =>
      rcases limit with limit | limit <;> obtain rfl := Option.some.inj limit
      · exact chosen _ _ (by decide)
      · exact chosen _ _ (by decide)
  | ipApi =>
      rcases limit with limit | limit
      · obtain rfl := Option.some.inj limit
        exact chosen _ _ (by decide)
      · cases limit
  | otx | abuseCh | wayback | other => rcases limit with limit | limit <;> cases limit

private theorem Sound.tick (sound : Sound settings world) {now : Time} {date : Day}
    (ahead : world.clock ≤ now) (dateAhead : world.date ≤ date) :
    Sound settings (world.tick now date) where
  counts provider := (sound.counts provider).mono ahead dateAhead
  minute := sound.minute
  day := sound.day
  patient := sound.patient

private theorem Sound.finish (sound : Sound settings world) (client : Client) (answer : Answer) :
    Sound settings (world.finish client answer) where
  counts := sound.counts
  minute := sound.minute
  day := sound.day
  patient other call held := by
    simp only [World.finish] at held
    split at held
    · cases held
    · exact sound.patient other call held

private theorem Sound.await (sound : Sound settings world) (client : Client) {call : Waiting}
    (patient : Patient settings call) : Sound settings (world.await client call) where
  counts := sound.counts
  minute := sound.minute
  day := sound.day
  patient other held isHeld := by
    simp only [World.await] at isHeld
    split at isHeld
    · exact Option.some.inj isHeld ▸ patient
    · exact sound.patient other held isHeld

private theorem Sound.setUsage (sound : Sound settings world) {provider : Provider} {usage : Usage}
    (counts : Counts usage (world.grantsOf provider) world.clock world.date) :
    Sound settings (world.setUsage provider usage) where
  counts other := by
    simp only [World.setUsage]
    split
    · rename_i same
      exact same ▸ counts
    · exact sound.counts other
  minute := sound.minute
  day := sound.day
  patient := sound.patient

private theorem grantsOf_cons (world : World) (grant : Grant) (provider : Provider) :
    World.grantsOf { world with granted := grant :: world.granted } provider =
      if grant.provider = provider then grant :: world.grantsOf provider
      else world.grantsOf provider := by
  simp only [World.grantsOf, List.filter_cons, decide_eq_true_eq]

private theorem Sound.granted (sound : Sound settings world) {call : Waiting}
    (patient : Patient settings call) (client : Client)
    (inDay : ∀ most, call.perDay = some most → most ≠ 0 →
      (today (world.usage call.provider) world.date).2 < most)
    (inMinute : ∀ most, call.perMinute = some most → most ≠ 0 →
      (prune (world.usage call.provider).minute world.clock).length < most) :
    Sound settings (World.finish
      { world.setUsage call.provider
          { world.usage call.provider with
            minute := prune (world.usage call.provider).minute world.clock ++ [world.clock]
            day := some ((today (world.usage call.provider) world.date).1,
              (today (world.usage call.provider) world.date).2 + 1) } with
        granted := { provider := call.provider, time := world.clock, date := world.date } ::
          world.granted } client .granted) := by
  have counts := sound.counts call.provider
  have read : ∀ provider, World.grantsOf (World.finish
      { world.setUsage call.provider
          { world.usage call.provider with
            minute := prune (world.usage call.provider).minute world.clock ++ [world.clock]
            day := some ((today (world.usage call.provider) world.date).1,
              (today (world.usage call.provider) world.date).2 + 1) } with
        granted := { provider := call.provider, time := world.clock, date := world.date } ::
          world.granted } client .granted) provider =
      if call.provider = provider then
        { provider := call.provider, time := world.clock, date := world.date } ::
          world.grantsOf provider
      else world.grantsOf provider := fun provider => grantsOf_cons world _ provider
  refine ⟨fun provider => ?_, fun provider most limit start => ?_, fun provider most limit date => ?_,
    ?_⟩
  · rw [read]
    simp only [World.finish, World.setUsage]
    by_cases same : provider = call.provider
    · subst same
      rw [if_pos rfl, if_pos rfl]
      exact counts.granted call.provider
    · rw [if_neg same, if_neg (Ne.symm same)]
      exact sound.counts provider
  · have old := sound.minute provider most limit start
    rw [read]
    split
    · rename_i same
      subst same
      rw [List.countP_cons]
      split
      · rename_i inside
        simp only [decide_eq_true_eq] at inside
        have room := inMinute most (patient.perMinute.trans limit) (limits_ne_zero (.inl limit))
        have window := counts.window inside.2
        omega
      · exact old
    · exact old
  · have old := sound.day provider most limit date
    rw [read]
    split
    · rename_i same
      subst same
      rw [List.countP_cons]
      split
      · rename_i inside
        simp only [decide_eq_true_eq] at inside
        subst inside
        have room := inDay most (patient.perDay.trans limit) (limits_ne_zero (.inr limit))
        rw [counts.today_eq] at room
        dsimp only at room
        omega
      · exact old
    · exact old
  · intro other held isHeld
    simp only [World.finish] at isHeld
    split at isHeld
    · cases isHeld
    · exact sound.patient other held isHeld

private theorem sound_takeTurn (sound : Sound settings world) {client : Client} {call : Waiting}
    (held : world.waiting client = some call) :
    Sound settings (world.takeTurn client call world.clock world.date) := by
  have patient := sound.patient client call held
  have spec := turn_turned call.provider call.perMinute call.perDay (world.usage call.provider)
    world.clock world.date
  unfold World.takeTurn
  generalize turn call.provider call.perMinute call.perDay (world.usage call.provider) world.clock
    world.date = result at spec ⊢
  obtain ⟨usage, turn⟩ := result
  dsimp only at spec ⊢
  cases spec with
  | granted free inDay inMinute => exact sound.granted patient client inDay inMinute
  | kept day cooldown minute notGranted long =>
      have kept := sound.setUsage ((sound.counts call.provider).kept day minute)
      cases turn with
      | ended answer =>
          cases answer with
          | granted => exact absurd rfl notGranted
          | refused reason => exact kept.finish client _
          | raised => exact kept.finish client _
      | pause seconds =>
          dsimp only
          split
          · exact kept.finish client _
          · rename_i fits
            have sleeps := long seconds rfl
            refine kept.await client ⟨patient.perMinute, patient.perDay, ?_, ?_, ?_⟩
            · exact (not_lt.mp fits).trans (le_max_right 0 call.budget)
            · have often := patient.often
              push_cast
              linarith
            · have wakes := patient.wakes
              dsimp only
              linarith

private theorem sound_step {label : Label} (sound : Sound settings world)
    (taken : step world label = some next) (under : label.Under settings) :
    Sound settings next ∧ WithinBudget settings world label next := by
  have kept : ∀ {after : World}, Sound settings after →
      (∀ client now date, label = .turn client now date → ∀ call,
        world.waiting client = some call →
          now - call.started ≤ max 0 call.budget + (call.late + (now - call.wakeAt))) →
      Sound settings after ∧ WithinBudget settings world label after := by
    intro after sound elapsed
    refine ⟨sound, sound.minute, sound.day, elapsed, fun client call held => ?_⟩
    have patient := sound.patient client call held
    have slept := patient.slept
    have often := patient.often
    linarith
  unfold step at taken
  split at taken
  · cases taken
  · rename_i ahead
    rw [not_or, not_lt, not_lt] at ahead
    have ticked := sound.tick ahead.1 ahead.2
    cases label with
    | acquire client provider given wait now date =>
        dsimp only at taken
        split at taken
        · cases taken
        · obtain rfl := Option.some.inj taken
          obtain rfl : given = settings := under
          refine kept (ticked.await client ⟨rfl, rfl, le_max_left _ _, ?_, ?_⟩) (by simp)
          · simp
          · simp
    | turn client now date =>
        dsimp only at taken
        split at taken
        · cases taken
        · rename_i call held
          split at taken
          · cases taken
          · obtain rfl := Option.some.inj taken
            refine kept (sound_takeTurn ticked held) ?_
            rintro _ _ _ ⟨⟩ other isOther
            obtain rfl := Option.some.inj (isOther.symm.trans held)
            have patient := sound.patient client other isOther
            have slept := patient.slept
            have wakes := patient.wakes
            linarith
    | noteResponse provider status retryAfter now date =>
        obtain rfl := Option.some.inj taken
        refine kept ?_ (by simp)
        unfold World.noteResponse
        split
        · have counts := ticked.counts provider
          have cooled := @Sound.setUsage settings _ ticked provider
            ((world.usage provider).cool provider now (pauseOf retryAfter))
            ⟨counts.minute, counts.unused, counts.used⟩
          exact ⟨cooled.counts, cooled.minute, cooled.day, cooled.patient⟩
        · exact ticked

end Step

/-- With settings that stay as they are, every window and every day keeps to its budget, and so does
every call, in every run of any number of callers. -/
theorem along_withinBudget (settings : Settings) (clock : Time) (date : Day) (labels : List Label)
    (unchanged : Along step (fun _ label _ => label.Under settings) (World.start clock date) labels) :
    Along step (WithinBudget settings) (World.start clock date) labels := by
  have start : Sound settings (World.start clock date) := by
    refine ⟨fun provider => ⟨⟨[], rfl, by simp⟩, fun _ => rfl, ?_⟩, ?_, ?_, ?_⟩
    · intro day count held
      cases held
    · simp [World.grantsOf, World.start]
    · simp [World.grantsOf, World.start]
    · intro client call held
      cases held
  refine along_of_guarded ?_ start unchanged
  intro world label next sound taken under
  exact sound_step sound taken under

def sampleSettings : Settings := ⟨some 1, some 5, none, some 70⟩

/-- The second call sleeps until the first lookup is a minute old. -/
def waitingRun : List Label :=
  [.acquire 0 .virustotal sampleSettings none 100 3, .turn 0 100 3,
    .acquire 1 .virustotal sampleSettings none 110 3, .turn 1 110 3, .turn 1 161 3]

theorem waitingRun_withinBudget :
    Along step (WithinBudget sampleSettings) (World.start 100 3) waitingRun :=
  along_withinBudget sampleSettings 100 3 waitingRun (by decide +kernel)

/-! ## Pauses asked for -/

/-- A lookup is granted only once every pause its service asked for is over. -/
def Honoured (world : World) (_ : Label) (next : World) : Prop :=
  ∀ grant, next.granted = grant :: world.granted → ∀ ask ∈ world.asked,
    ask.provider = grant.provider → ask.lifts ≤ grant.time

/-- A response asks for a pause that does not end before the one that runs. -/
def Extends (world : World) : Label → World → Prop
  | .noteResponse provider status retryAfter now _, _ =>
      status = some 429 →
        (world.usage provider).cooldown.1 ≤ now + (max 1 (pauseOf retryAfter) : Int)
  | .acquire _ _ _ _ _ _, _ | .turn _ _ _, _ => True

instance (world : World) : ∀ label next, Decidable (Extends world label next)
  | .noteResponse _ _ _ _ _, _ => inferInstanceAs (Decidable (_ → _))
  | .acquire _ _ _ _ _ _, _ | .turn _ _ _, _ => .isTrue trivial

/-- Every pause that was asked for is within the one that is kept. -/
private def Covered (world : World) : Prop :=
  ∀ ask ∈ world.asked, ask.lifts ≤ (world.usage ask.provider).cooldown.1

private theorem honoured_takeTurn {world : World} (covered : Covered world) {client : Client}
    {call : Waiting} {now : Time} {date : Day} :
    Covered (world.takeTurn client call now date) ∧
      ∀ grant, (world.takeTurn client call now date).granted = grant :: world.granted →
        ∀ ask ∈ world.asked, ask.provider = grant.provider → ask.lifts ≤ grant.time := by
  have spec := turn_turned call.provider call.perMinute call.perDay (world.usage call.provider) now
    date
  have keeps : ∀ {usage : Usage}, usage.cooldown = (world.usage call.provider).cooldown →
      Covered (world.setUsage call.provider usage) := by
    intro usage same ask member
    simp only [World.setUsage]
    split
    · rename_i isProvider
      rw [same, ← isProvider]
      exact covered ask member
    · exact covered ask member
  have nothing : ∀ grant, world.granted = grant :: world.granted → ∀ ask ∈ world.asked,
      ask.provider = grant.provider → ask.lifts ≤ grant.time :=
    fun grant same => absurd same (List.cons_ne_self grant world.granted).symm
  unfold World.takeTurn
  generalize turn call.provider call.perMinute call.perDay (world.usage call.provider) now
    date = result at spec ⊢
  obtain ⟨usage, turn⟩ := result
  dsimp only at spec ⊢
  cases spec with
  | granted free _ _ =>
      refine ⟨keeps rfl, fun grant isGrant ask member same => ?_⟩
      obtain rfl := (List.cons.inj isGrant).1
      exact (covered ask member).trans (same ▸ free)
  | kept _ cooldown _ notGranted _ =>
      cases turn with
      | ended answer =>
          cases answer with
          | granted => exact absurd rfl notGranted
          | refused | raised => exact ⟨keeps cooldown, nothing⟩
      | pause seconds =>
          dsimp only
          split <;> exact ⟨keeps cooldown, nothing⟩

private theorem honoured_step {world next : World} {label : Label} (covered : Covered world)
    (taken : step world label = some next) (extend : Extends world label next) :
    Covered next ∧ Honoured world label next := by
  have nothing : ∀ {after : World}, after.granted = world.granted → Honoured world label after :=
    fun same grant isGrant =>
      absurd (same.symm.trans isGrant) (List.cons_ne_self grant world.granted).symm
  unfold step at taken
  split at taken
  · cases taken
  · cases label with
    | acquire client provider given wait now date =>
        dsimp only at taken
        split at taken
        · cases taken
        · obtain rfl := Option.some.inj taken
          exact ⟨covered, nothing rfl⟩
    | turn client now date =>
        dsimp only at taken
        split at taken
        · cases taken
        · split at taken
          · cases taken
          · obtain rfl := Option.some.inj taken
            exact @honoured_takeTurn (world.tick now date) covered _ _ _ _
    | noteResponse provider status retryAfter now date =>
        obtain rfl := Option.some.inj taken
        unfold World.noteResponse
        split
        · rename_i asks
          refine ⟨fun ask member => ?_, nothing rfl⟩
          simp only [World.setUsage, Usage.cool]
          rcases List.mem_cons.mp member with rfl | old
          · rw [if_pos rfl]
            have least : ((pauseOf retryAfter : Int) : Time) ≤ (max 1 (pauseOf retryAfter) : Int) := by
              exact_mod_cast le_max_right 1 (pauseOf retryAfter)
            dsimp only
            linarith
          · split
            · rename_i same
              have longer := extend asks
              rw [← same] at longer
              exact (covered ask old).trans longer
            · exact covered ask old
        · exact ⟨covered, nothing rfl⟩

/-- Where no response shortens a pause that runs, every pause is kept, in every order of calls and
responses. -/
theorem along_honoured (clock : Time) (date : Day) (labels : List Label)
    (extend : Along step Extends (World.start clock date) labels) :
    Along step Honoured (World.start clock date) labels := by
  have start : Covered (World.start clock date) := by
    intro ask member
    cases member
  refine along_of_guarded ?_ start extend
  intro world label next covered taken met
  exact honoured_step covered taken met

/-- A pause of half a minute, a lookup refused in it and one made after it. -/
def pausedRun : List Label :=
  [.noteResponse .otx (some 429) (some ['3', '0']) 100 3, .acquire 0 .otx sampleSettings none 110 3,
    .turn 0 110 3, .acquire 0 .otx sampleSettings none 130 3, .turn 0 130 3]

theorem pausedRun_honoured : Along step Honoured (World.start 100 3) pausedRun :=
  along_honoured 100 3 pausedRun (by decide +kernel)

/-- Two calls are answered 429, the second with the shorter pause. -/
def shortenedRun : List Label :=
  [.noteResponse .otx (some 429) (some ['9', '0']) 100 3,
    .noteResponse .otx (some 429) (some ['5']) 101 3, .acquire 0 .otx sampleSettings none 107 3,
    .turn 0 107 3]

/-- The lookup is granted 83 seconds early. -/
theorem shortenedRun_not_honoured : ¬ Along step Honoured (World.start 100 3) shortenedRun := by
  intro honoured
  obtain ⟨_, second⟩ := honoured _ rfl
  obtain ⟨_, third⟩ := second _ rfl
  obtain ⟨_, fourth⟩ := third _ rfl
  obtain ⟨kept, _⟩ := fourth _ rfl
  have late := kept ⟨.otx, 107, 3⟩ (by decide +kernel) ⟨.otx, 190⟩ (by decide +kernel) rfl
  exact absurd late (by decide +kernel)

end RateLimits
end DomainLens
