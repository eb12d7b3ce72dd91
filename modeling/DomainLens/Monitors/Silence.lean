import DomainLens.Monitors.Batch

/-!
# Silent name servers

A scheduled run whose scan gets no answer from the name servers of its domain is put off, and after so
many of them one event says so.  The runs of one monitor follow one another; the file says when the
event stands for as many unanswered runs in a row.
-/

namespace DomainLens
namespace Monitors
namespace Silence

open Python Run

/-! ## Scheduled runs -/

/-- What the scan of a run comes to. -/
inductive Attempt where
  | succeeded (scanId : Nat) (eventType : Text)
  | failed (problem : Text)
  | unanswered (error : Text)
  | resolverDown (error : Text)
deriving DecidableEq

namespace Attempt

/-- What `scan_monitor_fn` does. -/
def reply : Attempt → Reply
  | .succeeded scanId eventType => .scanned scanId eventType
  | .failed problem => .raises problem
  | .unanswered error => .dnsUnavailable .domainSilent error
  | .resolverDown error => .dnsUnavailable .resolverDown error

/-- Whether the name servers of the domain were silent. -/
def isSilent : Attempt → Bool
  | .unanswered _ => true
  | _ => false

/-- Whether the name servers of the domain were asked and not silent. -/
def isAnswered : Attempt → Bool
  | .succeeded _ _ | .failed _ => true
  | .unanswered _ | .resolverDown _ => false

/-- The unanswered runs in a row after one more; a run that could ask nobody is none of them. -/
def count (silent : Nat) : Attempt → Nat
  | .succeeded _ _ | .failed _ => 0
  | .unanswered _ => silent + 1
  | .resolverDown _ => silent

end Attempt

variable (settings : Settings) (safeError : Text → Text)

/-- The rest of a run, so many calls that all return. -/
def finish (now : Int) (monitor : Monitor) : Nat → Database × Progress → Option Database
  | _, (database, .done _) => some database
  | calls + 1, (database, .at stage) =>
      (advance settings safeError now monitor database stage .returns).bind (finish now monitor calls)
  | _, _ => none

def scheduledRun (id : MonitorId) (database : Database) (now : Int) (attempt : Attempt) :
    Option Database :=
  (database.monitors.find id).bind fun monitor =>
    (advance settings safeError now monitor database .scanning attempt.reply).bind
      (finish settings safeError now monitor 4)

/-- The tables, with the unanswered runs in a row so far. -/
structure Watched where
  database : Database
  silent : Nat

def watch (id : MonitorId) (watched : Watched) (label : Int × Attempt) : Option Watched :=
  (scheduledRun settings safeError id watched.database label.1 label.2).map fun database =>
    ⟨database, label.2.count watched.silent⟩

/-! ## What is told -/

/-- The stored retry count, of a monitor that is there. -/
def stored (id : MonitorId) (database : Database) : Option Nat :=
  (database.monitors.find id).map fun monitor => monitor.metadata.dnsRetries

/-- The events of silence of a monitor. -/
def raised (id : MonitorId) (database : Database) : Nat :=
  database.events.countP fun event =>
    event.monitorId = id ∧ event.eventType = "dns_unanswered".toList

/-- A run raises an event just where it makes a full series of unanswered runs, one that got an answer
resets the count, and the count stays below the limit. -/
structure ToldOnce (id : MonitorId) (before : Watched) (label : Int × Attempt) (after : Watched) :
    Prop where
  once : raised id after.database = raised id before.database +
    if label.2.isSilent ∧ settings.dnsMaxRetries ∣ after.silent then 1 else 0
  resets : label.2.isAnswered → stored id after.database = some 0
  below : ∃ retries, stored id after.database = some retries ∧ retries < settings.dnsMaxRetries

/-- A run fails only where no retry is stored. -/
def Unbroken (id : MonitorId) (before : Watched) (label : Int × Attempt) (_ : Watched) : Prop :=
  ∀ problem, label.2 = .failed problem → stored id before.database = some 0

instance (id : MonitorId) (before : Watched) (label : Int × Attempt) (after : Watched) :
    Decidable (Unbroken id before label after) :=
  match isAttempt : label.2 with
  | .failed _ =>
      decidable_of_iff (stored id before.database = some 0) (by simp [Unbroken, isAttempt])
  | .succeeded _ _ | .unanswered _ | .resolverDown _ =>
      .isTrue fun _ fails => nomatch isAttempt.symm.trans fails

variable {settings safeError} {id : MonitorId}

/-! ## One run -/

def Attempt.retries (settings : Settings) (before : Nat) : Attempt → Nat
  | .succeeded _ _ => 0
  | .failed _ | .resolverDown _ => before
  | .unanswered _ => if (before + 1 : Int) < settings.dnsMaxRetries then before + 1 else 0

def Attempt.raises (settings : Settings) (before : Nat) : Attempt → Bool
  | .unanswered _ => settings.dnsMaxRetries ≤ before + 1
  | _ => false

private theorem find_updateMonitor {database : Database} {monitor : Monitor}
    (found : database.monitors.find id = some monitor) (metadata : SchedulerMeta)
    (nextScanAt : Option Int) :
    (database.updateMonitor id metadata nextScanAt).monitors.find id =
      some { monitor with metadata, nextScanAt := nextScanAt.or monitor.nextScanAt } := by
  simp [Database.updateMonitor, Table.find_update, found]

private theorem stored_of_find {database : Database} {monitor : Monitor}
    (found : database.monitors.find id = some monitor) :
    stored id database = some monitor.metadata.dnsRetries := by
  rw [stored, found]
  rfl

private theorem stored_updateMonitor {database : Database} {monitor : Monitor}
    {metadata : SchedulerMeta} {nextScanAt : Option Int}
    (found : database.monitors.find id = some monitor) :
    stored id (database.updateMonitor id metadata nextScanAt) = some metadata.dnsRetries :=
  stored_of_find (find_updateMonitor found metadata nextScanAt)

private theorem stored_append (database : Database) (event : Event) :
    stored id { database with events := database.events ++ [event] } = stored id database := rfl

private theorem failed_ne_unanswered : "scan_failed".toList ≠ "dns_unanswered".toList := by
  decide

private theorem createMonitorEvent_of_find {database : Database} {monitor : Monitor} {event : Event}
    (found : database.monitors.find event.monitorId = some monitor) :
    database.createMonitorEvent event = some { database with events := database.events ++ [event] } := by
  rw [Database.createMonitorEvent, found]
  rfl

private theorem raised_append (database : Database) (event : Event) :
    raised id { database with events := database.events ++ [event] } =
      raised id database +
        if event.monitorId = id ∧ event.eventType = "dns_unanswered".toList then 1 else 0 := by
  rw [raised, List.countP_append, List.countP_singleton]
  simp only [decide_eq_true_eq]
  rfl

private theorem postponeForDns_more {monitor : Monitor} (now : Int) (error : Text)
    (database : Database) (more : (monitor.metadata.dnsRetries + 1 : Int) < settings.dnsMaxRetries) :
    ∃ metadata nextScanAt, metadata.dnsRetries = monitor.metadata.dnsRetries + 1 ∧
      postponeForDns settings now monitor .domainSilent error database =
        (database.updateMonitor monitor.id metadata nextScanAt,
          .done (itemOf monitor (.postponed .domainSilent none))) := by
  have more : ((monitor.metadata.dnsRetries + 1 : Nat) : Int) < settings.dnsMaxRetries := more
  refine ⟨_, _, ?_, if_pos more⟩
  rfl

private theorem postponeForDns_full {monitor : Monitor} (now : Int) (error : Text)
    (database : Database)
    (full : ¬(monitor.metadata.dnsRetries + 1 : Int) < settings.dnsMaxRetries) :
    ∃ metadata nextScanAt event item, metadata.dnsRetries = 0 ∧ event.monitorId = monitor.id ∧
      event.eventType = "dns_unanswered".toList ∧
      postponeForDns settings now monitor .domainSilent error database =
        (database.updateMonitor monitor.id metadata nextScanAt, .at (.storing event item)) := by
  have full : ¬((monitor.metadata.dnsRetries + 1 : Nat) : Int) < settings.dnsMaxRetries := full
  refine ⟨_, _, _, _, ?_, ?_, ?_, if_neg full⟩
  · rfl
  · rfl
  · rfl

theorem scheduledRun_spec {database : Database} {monitor : Monitor} (now : Int) (attempt : Attempt)
    (found : database.monitors.find id = some monitor) :
    ∃ next, scheduledRun settings safeError id database now attempt = some next ∧
      stored id next = some (attempt.retries settings monitor.metadata.dnsRetries) ∧
      raised id next = raised id database +
        if attempt.raises settings monitor.metadata.dnsRetries then 1 else 0 := by
  obtain rfl : monitor.id = id := Table.key_of_find found
  cases attempt with
  | succeeded scanId eventType =>
      refine ⟨database.updateMonitor monitor.id (afterSuccess monitor.metadata) none, ?_, ?_, rfl⟩
      · simp [scheduledRun, found, Attempt.reply, advance, finish]
      · exact stored_updateMonitor found
  | failed problem =>
      let written := database.updateMonitor monitor.id
        (afterFailure settings now (safeError problem) monitor.metadata) none
      let event := scanFailed monitor (safeError problem)
      refine ⟨{ written with events := written.events ++ [event] }, ?_, ?_, ?_⟩
      · simp only [scheduledRun, found, Attempt.reply, advance, finish, Option.bind_some]
        rw [createMonitorEvent_of_find (find_updateMonitor found _ _)]
        rfl
      · exact (stored_append written event).trans (stored_updateMonitor found)
      · rw [raised_append, if_neg fun told => failed_ne_unanswered told.2]
        rfl
  | unanswered error =>
      by_cases more : (monitor.metadata.dnsRetries + 1 : Int) < settings.dnsMaxRetries
      · have postponed : (Attempt.unanswered error).raises settings monitor.metadata.dnsRetries =
            false := decide_eq_false (not_le.mpr more)
        obtain ⟨metadata, nextScanAt, retries, wrote⟩ := postponeForDns_more now error database more
        refine ⟨database.updateMonitor monitor.id metadata nextScanAt, ?_, ?_, ?_⟩
        · simp only [scheduledRun, found, Attempt.reply, advance, finish, wrote, Option.bind_some]
        · rw [stored_updateMonitor found, retries, Attempt.retries, if_pos more]
        · rw [postponed]
          rfl
      · have told : (Attempt.unanswered error).raises settings monitor.metadata.dnsRetries =
            true := decide_eq_true (not_lt.mp more)
        obtain ⟨metadata, nextScanAt, event, item, retries, own, type, wrote⟩ :=
          postponeForDns_full now error database more
        let written := database.updateMonitor monitor.id metadata nextScanAt
        refine ⟨{ written with events := written.events ++ [event] }, ?_, ?_, ?_⟩
        · have there := find_updateMonitor found metadata nextScanAt
          have stores : (database.updateMonitor monitor.id metadata nextScanAt).createMonitorEvent
              event = some { written with events := written.events ++ [event] } :=
            createMonitorEvent_of_find (by rw [own]; exact there)
          simp only [scheduledRun, found, Attempt.reply, advance, finish, wrote, stores,
            Option.bind_some]
        · rw [stored_append written event, stored_updateMonitor found, retries, Attempt.retries,
            if_neg more]
        · rw [raised_append, told, if_pos ⟨own, type⟩]
          rfl
  | resolverDown error =>
      exact ⟨database, by simp [scheduledRun, found, Attempt.reply, advance, finish, postponeForDns],
        stored_of_find found, rfl⟩

private theorem succ_mod {silent limit : Nat} (positive : 0 < limit) :
    (silent + 1) % limit = if silent % limit + 1 < limit then silent % limit + 1 else 0 := by
  have below := Nat.mod_lt silent positive
  rw [← Nat.mod_add_mod]
  split
  · rename_i more
    exact Nat.mod_eq_of_lt more
  · rename_i full
    rw [show silent % limit + 1 = limit by omega, Nat.mod_self]

private theorem dvd_succ_iff {silent limit : Nat} (positive : 0 < limit) :
    limit ∣ silent + 1 ↔ limit ≤ silent % limit + 1 := by
  rw [Nat.dvd_iff_mod_eq_zero, succ_mod positive]
  split
  · omega
  · omega

private theorem watch_spec {limit : Nat} {before after : Watched} {label : Int × Attempt}
    (counted : stored id before.database = some (before.silent % limit))
    (taken : watch settings safeError id before label = some after) :
    after.silent = label.2.count before.silent ∧
      stored id after.database = some (label.2.retries settings (before.silent % limit)) ∧
      raised id after.database = raised id before.database +
        if label.2.raises settings (before.silent % limit) then 1 else 0 := by
  obtain ⟨monitor, found, isStored⟩ := Option.map_eq_some_iff.mp counted
  obtain ⟨database, ran, rfl⟩ := Option.map_eq_some_iff.mp taken
  obtain ⟨next, left, retries, events⟩ :=
    @scheduledRun_spec settings safeError id _ _ label.1 label.2 found
  obtain rfl := Option.some.inj (left.symm.trans ran)
  rw [isStored] at retries events
  exact ⟨rfl, retries, events⟩

/-! ## All the runs -/

private theorem toldOnce_iff_unbroken {limit : Nat} (isLimit : settings.dnsMaxRetries = limit)
    (positive : 0 < limit) {before after : Watched} {label : Int × Attempt}
    (counted : stored id before.database = some (before.silent % limit))
    (taken : watch settings safeError id before label = some after) :
    (ToldOnce settings id before label after ↔ Unbroken id before label after) ∧
      (ToldOnce settings id before label after →
        stored id after.database = some (after.silent % limit)) := by
  obtain ⟨silent, retries, events⟩ := watch_spec counted taken
  have below := Nat.mod_lt before.silent positive
  obtain ⟨now, attempt⟩ := label
  cases attempt with
  | succeeded scanId eventType =>
      have kept : stored id after.database = some 0 := retries
      refine ⟨⟨fun _ _ isFailed => (nomatch isFailed), fun _ => ?_⟩, fun _ => ?_⟩
      · exact
          { once := events
            resets := fun _ => kept
            below := ⟨0, kept, by omega⟩ }
      · rw [kept, silent, Attempt.count, Nat.zero_mod]
  | failed problem =>
      have kept : stored id after.database = some (before.silent % limit) := retries
      refine ⟨⟨fun told _ _ => ?_, fun unbroken => ?_⟩, fun told => ?_⟩
      · rw [counted, ← kept]
        exact told.resets rfl
      · exact
          { once := events
            resets := fun _ => by rw [kept, ← counted, unbroken problem rfl]
            below := ⟨_, kept, by omega⟩ }
      · rw [told.resets rfl, silent, Attempt.count, Nat.zero_mod]
  | unanswered error =>
      have grown : after.silent = before.silent + 1 := silent
      have kept : stored id after.database = some (after.silent % limit) := by
        rw [retries, Attempt.retries, grown, succ_mod positive, isLimit]
        norm_cast
      have full : (Attempt.unanswered error).raises settings (before.silent % limit) = true ↔
          (Attempt.unanswered error).isSilent = true ∧
            settings.dnsMaxRetries ∣ (after.silent : Int) := by
        rw [grown, isLimit, Int.natCast_dvd_natCast, dvd_succ_iff positive, Attempt.raises,
          decide_eq_true_eq, isLimit]
        exact ⟨fun most => ⟨rfl, by omega⟩, fun silence => by omega⟩
      refine ⟨⟨fun _ _ isFailed => (nomatch isFailed), fun _ => ?_⟩, fun _ => kept⟩
      exact
        { once := events.trans (congrArg _ (if_congr full rfl rfl))
          resets := fun impossible => nomatch impossible
          below := ⟨_, kept, isLimit ▸ Int.ofNat_lt.mpr (Nat.mod_lt _ positive)⟩ }
  | resolverDown error =>
      have kept : stored id after.database = some (after.silent % limit) := by
        rw [retries, Attempt.retries, silent, Attempt.count]
      refine ⟨⟨fun _ _ isFailed => (nomatch isFailed), fun _ => ?_⟩, fun _ => kept⟩
      exact
        { once := events
          resets := fun impossible => nomatch impossible
          below := ⟨_, kept, isLimit ▸ Int.ofNat_lt.mpr (Nat.mod_lt _ positive)⟩ }

private theorem watch_isSome {watched : Watched} (label : Int × Attempt)
    (there : (stored id watched.database).isSome) :
    ∃ next, watch settings safeError id watched label = some next ∧
      (stored id next.database).isSome := by
  obtain ⟨retries, isStored⟩ := Option.isSome_iff_exists.mp there
  obtain ⟨monitor, found, -⟩ := Option.map_eq_some_iff.mp isStored
  obtain ⟨next, ran, kept, -⟩ :=
    @scheduledRun_spec settings safeError id _ _ label.1 label.2 found
  exact ⟨⟨next, label.2.count watched.silent⟩, by rw [watch, ran]; rfl, kept ▸ rfl⟩

/-- From a monitor without a retry, whatever its runs come to: silence is told once for each full
series exactly if no run fails while retries are stored. -/
theorem along_toldOnce_iff (settings : Settings) (safeError : Text → Text) (id : MonitorId)
    (database : Database) (fresh : stored id database = some 0)
    (positive : 1 ≤ settings.dnsMaxRetries) (labels : List (Int × Attempt)) :
    (run (watch settings safeError id) ⟨database, 0⟩ labels).isSome ∧
      (Along (watch settings safeError id) (ToldOnce settings id) ⟨database, 0⟩ labels ↔
        Along (watch settings safeError id) (Unbroken id) ⟨database, 0⟩ labels) := by
  obtain ⟨limit, isLimit⟩ := Int.eq_ofNat_of_zero_le (show 0 ≤ settings.dnsMaxRetries by omega)
  have positive : 0 < limit := by omega
  have counted : stored id (⟨database, 0⟩ : Watched).database = some (0 % limit) :=
    fresh.trans (congrArg some (Nat.zero_mod limit).symm)
  refine ⟨?_, ?_⟩
  · exact run_isSome (fun _ label there => watch_isSome label there) (fresh ▸ rfl)
  · exact @along_iff _ _ _
      (fun watched => stored id watched.database = some (watched.silent % limit)) _ _
      (fun _ _ _ counted taken => (toldOnce_iff_unbroken isLimit positive counted taken).1)
      (fun _ _ _ counted taken => (toldOnce_iff_unbroken isLimit positive counted taken).2)
      _ _ counted

/-! ## A limit of two -/

/-- Two unanswered runs in a row are told. -/
def twoRetries : Settings := { oneByOne with dnsMaxRetries := 2 }

private def oneMonitor : Database where
  monitors := ⟨[sample 1], List.nodup_singleton _⟩
  events := []

private theorem oneMonitor_fresh : stored 1 oneMonitor = some 0 := by decide

/-- Two unanswered runs in a row, and one before and after a success; the run that fails comes when
no retry is stored. -/
def toldRuns : List (Int × Attempt) :=
  [(0, .unanswered []), (900, .unanswered []), (1800, .failed []), (2700, .unanswered []),
    (3600, .succeeded 7 []), (4500, .unanswered [])]

theorem toldRuns_toldOnce :
    (run (watch twoRetries (fun error => error) 1) ⟨oneMonitor, 0⟩ toldRuns).isSome ∧
      Along (watch twoRetries (fun error => error) 1) (ToldOnce twoRetries 1) ⟨oneMonitor, 0⟩
        toldRuns := by
  obtain ⟨goesOn, agree⟩ := along_toldOnce_iff twoRetries (fun error => error) 1 oneMonitor
    oneMonitor_fresh (by decide) toldRuns
  exact ⟨goesOn, agree.mpr (by decide +kernel)⟩

/-- An unanswered run, one that fails, and an unanswered run. -/
def brokenRuns : List (Int × Attempt) :=
  [(0, .unanswered []), (900, .failed []), (1800, .unanswered [])]

/-- The third run raises an event, with one unanswered run in a row. -/
theorem brokenRuns_not_toldOnce :
    stored 1 oneMonitor = some 0 ∧
      ¬ Along (watch twoRetries (fun error => error) 1) (ToldOnce twoRetries 1) ⟨oneMonitor, 0⟩
        brokenRuns := by
  refine ⟨oneMonitor_fresh, fun told => ?_⟩
  obtain ⟨_, second⟩ := told _ rfl
  obtain ⟨_, third⟩ := second _ rfl
  obtain ⟨last, _⟩ := third _ rfl
  exact absurd last.once (by decide +kernel)

end Silence
end Monitors
end DomainLens
