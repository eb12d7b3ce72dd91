import DomainLens.DnsTools
import DomainLens.Library.Run
import DomainLens.Library.Table

/-!
# The record a monitor watches

Every scan of a monitor resolves the record it watches, and its event tells of the record when it differs
from that of the scan before.  The file embeds the resolution, the event and what a scan stores, and
settles which runs of scans lose no change of the record.
-/

namespace DomainLens
namespace Monitors
namespace Watched

open DnsTools Python Run

abbrev ScanId := Nat

/-! ## The record -/

/-- What `_resolve_monitored_record` returns. -/
structure Reading where
  type : Text
  measured : Bool
  present : Bool
  records : List Text
  rcode : Option Text
  authenticated : Option Bool
  error : Option Text

def Reading.unmeasured (type : Text) (rcode : Option Text) (authenticated : Option Bool)
    (error : Text) : Reading where
  type
  measured := false
  present := false
  records := []
  rcode
  authenticated
  error := some error

/-- The results of a scan, as far as an event reads them one by one. -/
structure Results (Rest : Type*) where
  monitoredRecord : Option Reading
  warnings : Nat
  tlsGrade : Option Text
  blacklistListed : Bool
  weakCredentialsFound : Bool
  rest : Rest

/-- How many changes there are of each kind. -/
structure ChangeCounts where
  fields : Nat
  dimensions : Nat
  newFindings : Nat
  resolvedFindings : Nat

/-- What `monitor_changes` finds, with what `describe` says of it. -/
structure Changes where
  changed : Bool
  counts : ChangeCounts
  description : Text

/-- The resolver of the system, the forms of a domain, `_safe_error` by the class and the text of an
exception, `recommendations.generate` and `open_count`, the digest of `state_fingerprint`, and
`monitor_changes`. -/
structure Services (Rest Recs : Type*) where
  dns : DnsTools.Services
  normalizeDomain : Text → Text
  isValidDomain : Text → Bool
  safeError : Text → Text → Text
  generate : Results Rest → Recs
  openCount : Recs → Nat
  stateHash : Results Rest → Recs → Text
  stateHash_ne_nil : ∀ results recs, stateHash results recs ≠ []
  monitorChanges : Results Rest → Recs → Results Rest → Recs → Changes

variable {Rest Recs : Type*} (services : Services Rest Recs)

/-- `(record_type or "A").upper()`. -/
def typeOf (recordType : Text) : Text := upper (if recordType = [] then "A".toList else recordType)

/-- `dns_tools.query(target, rtype, resolver="system")`. -/
def lookUp (world : World) (target recordType : Text) : Except Failure Answer :=
  (query services.dns world target (typeOf recordType) "system".toList []).result

/-- `_resolve_monitored_record`. -/
def resolveMonitoredRecord (world : World) (target recordType : Text) : Reading :=
  let type := typeOf recordType
  if type ∉ recordTypes then
    .unmeasured type none none (type ++ " is not a resolvable record type here".toList)
  else match lookUp services world target recordType with
    | .error (.lookup message) => .unmeasured type none none message
    | .error (.raised className message) =>
        .unmeasured type none none (services.safeError className message)
    | .ok answer =>
        match answer.error.filter (· ≠ []) with
        | some error => .unmeasured type answer.rcode answer.authenticated error
        | none =>
            { type
              measured := true
              present := answer.records ≠ []
              records := sortTexts answer.records
              rcode := answer.rcode
              authenticated := answer.authenticated
              error := none }

/-! ## Events -/

/-- The columns of a monitor that a scan reads and writes. -/
structure Monitor where
  target : Text
  recordType : Text
  lastScanId : Option ScanId
  lastStateHash : Option Text
deriving DecidableEq

inductive Severity where
  | info
  | medium
  | high
  | critical
deriving DecidableEq

inductive EventType where
  | baselineCreated
  | scanChanged
  | scanUnchanged
deriving DecidableEq

/-- What an event has of the scan before. -/
structure Previous where
  tlsGrade : Option Text
  blacklistListed : Bool
  scanId : ScanId

structure Details where
  target : Text
  recordType : Text
  tlsGrade : Option Text
  recommendationCount : Nat
  blacklistListed : Bool
  warnings : Nat
  recordMeasured : Option Bool
  recordPresent : Option Bool
  recordValues : Option (List Text)
  recordRcode : Option Text
  baselineMissing : Bool
  previousRecordValues : Option (List Text)
  changes : Option ChangeCounts
  previous : Option Previous

structure Event where
  eventType : EventType
  severity : Severity
  summary : Text
  details : Details

/-- `", ".join(records) or "none"`. -/
def valuesText (records : List Text) : Text :=
  match ", ".toList.intercalate records with
  | [] => "none".toList
  | text => text

/-- `_watched_record_transition`. -/
def watchedRecordTransition (monitor : Monitor) (results : Results Rest)
    (previousResults : Option (Results Rest)) : Option (Severity × Text) :=
  match results.monitoredRecord, previousResults.bind Results.monitoredRecord with
  | some current, some previous =>
      if !current.measured || !previous.measured then none
      else if current.records = previous.records then none
      else
        let type := if current.type ≠ [] then current.type
          else if monitor.recordType ≠ [] then monitor.recordType else "record".toList
        let record := type ++ " record for ".toList ++ monitor.target
        if previous.present && !current.present then
          some (.high, record ++ " disappeared (now ".toList ++
            (current.rcode.filter (· ≠ [])).getD "empty".toList ++ ")".toList)
        else if !previous.present && current.present then
          some (.medium, record ++ " reappeared: ".toList ++ valuesText current.records)
        else some (.medium, record ++ " changed value: ".toList ++ valuesText previous.records ++
          " -> ".toList ++ valuesText current.records)
  | _, _ => none

/-- What the event of a change says, and how much it matters. -/
def changeTold (monitor : Monitor) (results : Results Rest)
    (previousRecord : Option (ScanId × Results Rest)) (transition : Option (Severity × Text))
    (changes : Option Changes) : Severity × Text :=
  let observed := "Observed changes for ".toList ++ monitor.target
  match previousRecord with
  | none => (.medium, observed)
  | some previous =>
      if results.blacklistListed && !previous.2.blacklistListed then
        (.critical, monitor.target ++ " is now listed on a DNS blacklist".toList)
      else if results.weakCredentialsFound && !previous.2.weakCredentialsFound then
        (.critical, monitor.target ++ " accepts weak/default credentials".toList)
      else match previous.2.tlsGrade.filter (· ∈ ["A+".toList, "A".toList, "B".toList]),
          results.tlsGrade.filter (· ∈ ["D".toList, "F".toList, "T".toList]), transition with
        | some before, some after, _ =>
            (.high, monitor.target ++ " TLS grade regressed from ".toList ++ before ++
              " to ".toList ++ after)
        | _, _, some told => told
        | _, _, none =>
            (.medium, match changes.filter Changes.changed with
              | some changes => observed ++ ": ".toList ++ changes.description
              | none => observed)

def detailsOf (monitor : Monitor) (results : Results Rest) (recs : Recs) : Details where
  target := monitor.target
  recordType := monitor.recordType
  tlsGrade := results.tlsGrade
  recommendationCount := services.openCount recs
  blacklistListed := results.blacklistListed
  warnings := results.warnings
  recordMeasured := results.monitoredRecord.map Reading.measured
  recordPresent := results.monitoredRecord.map Reading.present
  recordValues := results.monitoredRecord.map Reading.records
  recordRcode := results.monitoredRecord.bind Reading.rcode
  baselineMissing := false
  previousRecordValues := none
  changes := none
  previous := none

/-- Whether two scans differ: by their comparison, or by their hashes where the first one is gone. -/
def differs (changes : Option Changes) (previousHash currentHash : Text) : Bool :=
  match changes with
  | some changes => changes.changed
  | none => previousHash ≠ currentHash

/-- `_monitor_event_from_results`: the hash and the event. -/
def monitorEventFromResults (monitor : Monitor) (results : Results Rest)
    (previousRecord : Option (ScanId × Results Rest)) : Text × Event :=
  let recs := services.generate results
  let currentHash := services.stateHash results recs
  let details := detailsOf services monitor results recs
  match monitor.lastStateHash.filter (· ≠ []) with
  | none => (currentHash,
      { eventType := .baselineCreated
        severity := .info
        summary := "Baseline created for ".toList ++ monitor.target
        details })
  | some previousHash =>
      let transition := watchedRecordTransition monitor results (previousRecord.map Prod.snd)
      let changes := previousRecord.map fun previous =>
        services.monitorChanges previous.2 (services.generate previous.2) results recs
      if differs changes previousHash currentHash || transition.isSome then
        let told := changeTold monitor results previousRecord transition changes
        (currentHash,
          { eventType := .scanChanged
            severity := told.1
            summary := told.2
            details := { details with
              baselineMissing := previousRecord.isNone
              previousRecordValues := transition.map fun _ =>
                ((previousRecord.bind fun previous => previous.2.monitoredRecord).map
                  Reading.records).getD []
              changes := changes.map Changes.counts
              previous := previousRecord.map fun previous =>
                ⟨previous.2.tlsGrade, previous.2.blacklistListed, previous.1⟩ } })
      else (currentHash,
        { eventType := .scanUnchanged
          severity := .info
          summary := "No changes detected for ".toList ++ monitor.target
          details })

/-! ## Scans -/

/-- The answer that the watched record is read from, unless the lookup fails. -/
def answerFor (world : World) (target recordType : Text) : Option Answer :=
  if typeOf recordType ∉ recordTypes then none
  else (lookUp services world target recordType).toOption.filter fun answer =>
    (answer.error.filter (· ≠ [])).isNone

/-- An answer that says which records there are. -/
def Conclusive (answer : Answer) : Prop :=
  answer.rcode = some "NOERROR".toList ∨ answer.rcode = some "NXDOMAIN".toList

instance (answer : Answer) : Decidable (Conclusive answer) :=
  inferInstanceAs (Decidable (answer.rcode = some "NOERROR".toList ∨
    answer.rcode = some "NXDOMAIN".toList))

/-- The set of values that a lookup measures. -/
def measuredSet (world : World) (target recordType : Text) : Option (Finset Text) :=
  ((answerFor services world target recordType).filter fun answer => Conclusive answer).map
    fun answer => answer.records.toFinset

/-- The tables as far as they concern one monitor, with the set of its record that was measured last. -/
structure State (Rest : Type*) where
  monitor : Monitor
  scans : Table (Prod.fst : ScanId × Results Rest → ScanId)
  lastScan : ScanId
  issued : ∀ scan ∈ scans.rows, scan.1 ≤ lastScan
  events : List (ScanId × Event)
  lastMeasured : Option (Finset Text)

namespace State

def start (target recordType : Text) : State Rest where
  monitor := ⟨target, recordType, none, none⟩
  scans := Table.empty
  lastScan := 0
  issued := by simp [Table.empty]
  events := []
  lastMeasured := none

theorem find_next (state : State Rest) : state.scans.find (state.lastScan + 1) = none := by
  rw [Table.find_eq_none]
  intro scan member same
  have known := state.issued scan member
  rw [same] at known
  exact absurd known (Nat.not_succ_le_self _)

/-- `save_scan`. -/
def save (state : State Rest) (results : Results Rest) : State Rest :=
  { state with
    scans := state.scans.insert (state.lastScan + 1, results) state.find_next
    lastScan := state.lastScan + 1
    issued := by
      intro scan member
      rcases List.mem_append.mp member with old | new
      · exact Nat.le_succ_of_le (state.issued scan old)
      · rw [List.mem_singleton.mp new] }

/-- Deletes scans; the monitor loses its last scan with them. -/
def delete (state : State Rest) (gone : ScanId → Bool) : State Rest :=
  { state with
    monitor := { state.monitor with
      lastScanId := state.monitor.lastScanId.filter fun scanId => !gone scanId }
    scans := state.scans.filter fun scan => !gone scan.1
    issued := fun scan member => state.issued scan (List.mem_of_mem_filter member) }

/-- `get_scan` of the monitor's last scan. -/
def previousRecord (state : State Rest) : Option (ScanId × Results Rest) :=
  state.monitor.lastScanId.bind state.scans.find

end State

/-- What happens to the monitor and the history: `_scan_monitor`, with the DNS as it meets it and what the
other checks found, a scan that is not the monitor's, `delete_scan` and `clear_history`. -/
inductive Label (Rest : Type*) where
  | scan (world : World) (found : Results Rest)
  | saveOther (results : Results Rest)
  | deleteScan (scanId : ScanId)
  | clearHistory

/-- The reading of the record that a scan of the monitor makes. -/
def State.reading (state : State Rest) (world : World) : Reading :=
  resolveMonitoredRecord services world (services.normalizeDomain state.monitor.target)
    state.monitor.recordType

/-- The set that the record of the monitor is measured to be. -/
def State.measures (state : State Rest) (world : World) : Option (Finset Text) :=
  measuredSet services world (services.normalizeDomain state.monitor.target) state.monitor.recordType

/-- `_scan_monitor`, of a target that is valid. -/
def scanMonitor (state : State Rest) (world : World) (found : Results Rest) : State Rest :=
  let results := { found with monitoredRecord := some (state.reading services world) }
  let outcome := monitorEventFromResults services state.monitor results state.previousRecord
  { state.save results with
    monitor := { state.monitor with
      lastScanId := some (state.lastScan + 1)
      lastStateHash := some outcome.1 }
    events := state.events ++ [(state.lastScan + 1, outcome.2)]
    lastMeasured := (state.measures services world).or state.lastMeasured }

/-- One step; a target that is not valid is not scanned. -/
def step (state : State Rest) : Label Rest → Option (State Rest)
  | .scan world found =>
      if services.isValidDomain (services.normalizeDomain state.monitor.target) then
        some (scanMonitor services state world found)
      else none
  | .saveOther results => some (state.save results)
  | .deleteScan scanId => some (state.delete (· = scanId))
  | .clearHistory => some (state.delete fun _ => true)

/-! ## What the events are to tell -/

/-- A scan that measures another set than the one measured last has an event of the change, with both sets;
one that measures none or the same has no transition of the record in its event. -/
def Told (state : State Rest) (label : Label Rest) (next : State Rest) : Prop :=
  match label with
  | .scan world _ =>
      ∃ event, next.events = state.events ++ [(state.lastScan + 1, event)] ∧
        (∀ old ∈ state.lastMeasured, ∀ new ∈ state.measures services world, new ≠ old →
          event.eventType = .scanChanged ∧
            event.details.previousRecordValues.map List.toFinset = some old ∧
            event.details.recordValues.map List.toFinset = some new) ∧
        ((state.measures services world = none ∨
            state.measures services world = state.lastMeasured) →
          event.details.previousRecordValues = none)
  | _ => True

/-- Whether the scan that a monitor compares with is there and measured the record. -/
def State.comparable (state : State Rest) : Bool :=
  state.previousRecord.any fun scan => scan.2.monitoredRecord.any Reading.measured

/-- A scan whose answer says which records there are, each value once, and that measures another set than
the one measured last only right after a scan that is still there and measured the record. -/
def Unbroken (state : State Rest) (label : Label Rest) (_ : State Rest) : Prop :=
  match label with
  | .scan world _ =>
      (∀ answer ∈ answerFor services world (services.normalizeDomain state.monitor.target)
          state.monitor.recordType, Conclusive answer ∧ answer.records.Nodup) ∧
        ∀ old ∈ state.lastMeasured, ∀ new ∈ state.measures services world, new ≠ old →
          state.comparable
  | _ => True

variable {services}

/-! ## Readings -/

section Readings

variable {world : World} {target recordType : Text}

theorem resolveMonitoredRecord_of_answer {answer : Answer}
    (taken : answerFor services world target recordType = some answer) :
    (resolveMonitoredRecord services world target recordType).measured ∧
      (resolveMonitoredRecord services world target recordType).records =
        sortTexts answer.records := by
  rw [answerFor] at taken
  split at taken
  · cases taken
  · rename_i known
    obtain ⟨found, unfailed⟩ := Option.filter_eq_some_iff.mp taken
    rw [resolveMonitoredRecord, if_neg known]
    cases looked : lookUp services world target recordType with
    | error failure =>
        rw [looked] at found
        cases found
    | ok other =>
        rw [looked] at found
        obtain rfl := Option.some.inj found
        rw [Option.isNone_iff_eq_none] at unfailed
        simp only [unfailed, and_self]

theorem resolveMonitoredRecord_of_none
    (taken : answerFor services world target recordType = none) :
    (resolveMonitoredRecord services world target recordType).measured = false := by
  rw [answerFor] at taken
  rw [resolveMonitoredRecord]
  split at taken
  · rename_i unknown
    rw [if_pos unknown]
    rfl
  · rename_i known
    rw [if_neg known]
    cases looked : lookUp services world target recordType with
    | error failure => cases failure <;> rfl
    | ok answer =>
        rw [looked] at taken
        cases failed : answer.error.filter (· ≠ []) with
        | none =>
            rw [Except.toOption, Option.filter_some, if_pos (by rw [failed]; rfl)] at taken
            cases taken
        | some error => simp only [failed]; rfl

/-- What a lookup comes to whose answer, if there is one, says which records there are. -/
theorem measuredSet_of_conclusive (conclusive : ∀ answer ∈ answerFor services world target recordType,
      Conclusive answer ∧ answer.records.Nodup) :
    (measuredSet services world target recordType = none ∧
        (resolveMonitoredRecord services world target recordType).measured = false) ∨
      ∃ records : List Text, records.Nodup ∧
        measuredSet services world target recordType = some records.toFinset ∧
        (resolveMonitoredRecord services world target recordType).measured ∧
        (resolveMonitoredRecord services world target recordType).records = sortTexts records := by
  cases taken : answerFor services world target recordType with
  | none =>
      refine .inl ⟨?_, resolveMonitoredRecord_of_none taken⟩
      rw [measuredSet, taken]
      rfl
  | some answer =>
      obtain ⟨shown, distinct⟩ := conclusive answer taken
      refine .inr ⟨answer.records, distinct, ?_, resolveMonitoredRecord_of_answer taken⟩
      rw [measuredSet, taken, Option.filter_some, if_pos (by simpa using shown)]
      rfl

end Readings

private theorem sortTexts_eq_iff {left right : List Text} (leftDistinct : left.Nodup)
    (rightDistinct : right.Nodup) :
    sortTexts left = sortTexts right ↔ left.toFinset = right.toFinset := by
  rw [List.toFinset_eq_iff_perm_dedup, leftDistinct.dedup, rightDistinct.dedup]
  constructor
  · intro same
    exact ((List.perm_insertionSort _ left).symm.trans (List.Perm.of_eq same)).trans
      (List.perm_insertionSort _ right)
  · intro perm
    refine List.Perm.eq_of_pairwise' (List.pairwise_insertionSort _ left)
      (List.pairwise_insertionSort _ right) ?_
    exact ((List.perm_insertionSort _ left).trans perm).trans (List.perm_insertionSort _ right).symm

private theorem toFinset_sortTexts (texts : List Text) :
    (sortTexts texts).toFinset = texts.toFinset :=
  List.toFinset_eq_of_perm _ _ (List.perm_insertionSort _ texts)

/-! ## Transitions -/

section Transitions

variable {monitor : Monitor} {results : Results Rest} {previousRecord : Option (ScanId × Results Rest)}

theorem isSome_watchedRecordTransition {previousResults : Option (Results Rest)} :
    (watchedRecordTransition monitor results previousResults).isSome ↔
      ∃ current ∈ results.monitoredRecord, ∃ previous ∈ previousResults.bind Results.monitoredRecord,
        current.measured ∧ previous.measured ∧ current.records ≠ previous.records := by
  rw [watchedRecordTransition]
  cases results.monitoredRecord with
  | none => simp
  | some current =>
      cases previousResults.bind Results.monitoredRecord with
      | none => simp
      | some previous =>
          simp only [Option.mem_def, Option.some.injEq, exists_eq_left']
          by_cases measured : current.measured ∧ previous.measured
          · rw [if_neg (by simp [measured.1, measured.2])]
            by_cases same : current.records = previous.records
            · simp [same]
            · rw [if_neg same]
              simp only [measured, same, ne_eq, not_false_eq_true, and_self, iff_true]
              split
              · rfl
              · split <;> rfl
          · rw [if_pos (by simpa [or_iff_not_imp_left] using measured)]
            exact iff_of_false (by simp) fun all => measured ⟨all.1, all.2.1⟩

theorem fst_monitorEventFromResults : (monitorEventFromResults services monitor results previousRecord).1 =
    services.stateHash results (services.generate results) := by
  rw [monitorEventFromResults]
  split
  · rfl
  · dsimp only
    split <;> rfl

theorem recordValues_monitorEventFromResults :
    (monitorEventFromResults services monitor results previousRecord).2.details.recordValues =
      results.monitoredRecord.map Reading.records := by
  rw [monitorEventFromResults]
  split
  · rfl
  · dsimp only
    split <;> rfl

theorem previousRecordValues_of_none
    (same : watchedRecordTransition monitor results (previousRecord.map Prod.snd) = none) :
    (monitorEventFromResults services monitor results previousRecord).2.details.previousRecordValues =
      none := by
  rw [monitorEventFromResults]
  split
  · rfl
  · dsimp only
    split
    · rw [same]
      rfl
    · rfl

theorem event_of_transition
    (hashed : (monitor.lastStateHash.filter (· ≠ [])).isSome)
    (changed : (watchedRecordTransition monitor results (previousRecord.map Prod.snd)).isSome) :
    (monitorEventFromResults services monitor results previousRecord).2.eventType = .scanChanged ∧
      (monitorEventFromResults services monitor results previousRecord).2.details.previousRecordValues =
        some (((previousRecord.bind fun previous => previous.2.monitoredRecord).map
          Reading.records).getD []) := by
  obtain ⟨hash, hashed⟩ := Option.isSome_iff_exists.mp hashed
  obtain ⟨transition, changed⟩ := Option.isSome_iff_exists.mp changed
  simp only [monitorEventFromResults, hashed, changed, Option.isSome_some, Bool.or_true, if_true,
    Option.map_some, and_self]

end Transitions

/-! ## What a step keeps -/

/-- The scan before, if it measured the record, has the set that was measured last. -/
structure Follows (state : State Rest) : Prop where
  known : ∀ scanId ∈ state.monitor.lastScanId, scanId ≤ state.lastScan
  hashed : state.lastMeasured.isSome → (state.monitor.lastStateHash.filter (· ≠ [])).isSome
  baseline : ∀ scan ∈ state.previousRecord, ∀ reading ∈ scan.2.monitoredRecord, reading.measured →
    ∃ records : List Text, records.Nodup ∧ reading.records = sortTexts records ∧
      state.lastMeasured = some records.toFinset

theorem follows_start (target recordType : Text) :
    Follows (State.start target recordType : State Rest) where
  known := by simp [State.start]
  hashed := by simp [State.start]
  baseline := by simp [State.start, State.previousRecord]

section Steps

variable {state : State Rest}

theorem State.find_save {results : Results Rest} {scanId : ScanId} :
    (state.save results).scans.find scanId =
      if scanId = state.lastScan + 1 then some (state.lastScan + 1, results)
      else state.scans.find scanId :=
  Table.find_insert state.find_next

theorem State.previousRecord_save {results : Results Rest} (follows : Follows state) :
    (state.save results).previousRecord = state.previousRecord := by
  refine Option.bind_congr fun scanId last => ?_
  have old := follows.known scanId last
  exact find_save.trans (if_neg (Nat.ne_of_lt (Nat.lt_succ_of_le old)))

theorem State.mem_previousRecord_of_delete {gone : ScanId → Bool} {scan : ScanId × Results Rest}
    (found : scan ∈ (state.delete gone).previousRecord) : scan ∈ state.previousRecord := by
  obtain ⟨scanId, last, found⟩ := Option.bind_eq_some_iff.mp found
  obtain ⟨last, -⟩ := Option.filter_eq_some_iff.mp last
  rw [delete, Table.find_filter] at found
  exact Option.bind_eq_some_iff.mpr ⟨scanId, last, (Option.filter_eq_some_iff.mp found).1⟩

theorem Follows.save {results : Results Rest} (follows : Follows state) :
    Follows (state.save results) where
  known scanId last := Nat.le_succ_of_le (follows.known scanId last)
  hashed := follows.hashed
  baseline := by
    rw [State.previousRecord_save follows]
    exact follows.baseline

theorem Follows.delete {gone : ScanId → Bool} (follows : Follows state) :
    Follows (state.delete gone) where
  known scanId last := follows.known scanId (Option.filter_eq_some_iff.mp last).1
  hashed := follows.hashed
  baseline scan found := follows.baseline scan (State.mem_previousRecord_of_delete found)

variable {world : World} {found : Results Rest}

private theorem reading_of_conclusive (conclusive : ∀ answer ∈ answerFor services world
      (services.normalizeDomain state.monitor.target) state.monitor.recordType,
      Conclusive answer ∧ answer.records.Nodup) :
    (state.measures services world = none ∧ (state.reading services world).measured = false) ∨
      ∃ records : List Text, records.Nodup ∧ state.measures services world = some records.toFinset ∧
        (state.reading services world).measured ∧
        (state.reading services world).records = sortTexts records :=
  measuredSet_of_conclusive conclusive

private theorem previousRecord_scanMonitor :
    (scanMonitor services state world found).previousRecord =
      some (state.lastScan + 1, { found with monitoredRecord := some (state.reading services world) }) :=
  State.find_save.trans (if_pos rfl)

private theorem lastMeasured_scanMonitor : (scanMonitor services state world found).lastMeasured =
    (state.measures services world).or state.lastMeasured := rfl

theorem follows_scanMonitor
    (conclusive : ∀ answer ∈ answerFor services world (services.normalizeDomain state.monitor.target)
      state.monitor.recordType, Conclusive answer ∧ answer.records.Nodup) :
    Follows (scanMonitor services state world found) where
  known := by
    rintro scanId ⟨⟩
    exact le_rfl
  hashed _ := by
    have hash : (scanMonitor services state world found).monitor.lastStateHash =
        some (services.stateHash _ _) := congrArg some fst_monitorEventFromResults
    rw [hash, Option.filter_some, if_pos (by simpa using services.stateHash_ne_nil _ _)]
    rfl
  baseline := by
    rw [previousRecord_scanMonitor, lastMeasured_scanMonitor]
    rintro scan ⟨⟩ reading ⟨⟩ measured
    rcases reading_of_conclusive conclusive with
      ⟨-, unmeasured⟩ | ⟨records, distinct, set, -, values⟩
    · rw [unmeasured] at measured
      cases measured
    · exact ⟨records, distinct, values, by rw [set]; rfl⟩

/-- The event of a scan of the monitor. -/
def State.eventOf (services : Services Rest Recs) (state : State Rest) (world : World)
    (found : Results Rest) : Event :=
  (monitorEventFromResults services state.monitor
    { found with monitoredRecord := some (state.reading services world) } state.previousRecord).2

private theorem told_of_differs (follows : Follows state) (comparable : state.comparable)
    {old new : Finset Text} (isOld : old ∈ state.lastMeasured)
    (isNew : new ∈ state.measures services world) (differs : new ≠ old)
    (conclusive : ∀ answer ∈ answerFor services world (services.normalizeDomain state.monitor.target)
      state.monitor.recordType, Conclusive answer ∧ answer.records.Nodup) :
    (state.eventOf services world found).eventType = .scanChanged ∧
      (state.eventOf services world found).details.previousRecordValues.map List.toFinset = some old ∧
      (state.eventOf services world found).details.recordValues.map List.toFinset = some new := by
  obtain ⟨scan, isBefore, compared⟩ := (Option.any_eq_true _ _).mp comparable
  obtain ⟨reading, isReading, wasMeasured⟩ := (Option.any_eq_true _ _).mp compared
  obtain ⟨before, beforeDistinct, beforeSorted, wasLast⟩ :=
    follows.baseline scan isBefore reading isReading wasMeasured
  obtain rfl := Option.some.inj (wasLast.symm.trans isOld)
  rcases reading_of_conclusive conclusive with
    ⟨unmeasured, -⟩ | ⟨after, afterDistinct, set, isMeasured, afterSorted⟩
  · cases unmeasured.symm.trans isNew
  · obtain rfl := Option.some.inj (set.symm.trans isNew)
    have apart := mt (sortTexts_eq_iff afterDistinct beforeDistinct).mp differs
    have wasRead : reading ∈ (state.previousRecord.map Prod.snd).bind Results.monitoredRecord := by
      rw [isBefore]
      exact isReading
    have changed : (watchedRecordTransition state.monitor
        { found with monitoredRecord := some (state.reading services world) }
        (state.previousRecord.map Prod.snd)).isSome :=
      isSome_watchedRecordTransition.mpr ⟨_, rfl, reading, wasRead, isMeasured, wasMeasured, by
        rw [afterSorted, beforeSorted]
        exact apart⟩
    obtain ⟨isChange, values⟩ :
        (state.eventOf services world found).eventType = .scanChanged ∧
          (state.eventOf services world found).details.previousRecordValues =
            some (((state.previousRecord.bind fun previous => previous.2.monitoredRecord).map
              Reading.records).getD []) :=
      event_of_transition (follows.hashed (wasLast ▸ rfl)) changed
    refine ⟨isChange, ?_, ?_⟩
    · rw [values, isBefore, Option.bind_some, isReading, Option.map_some]
      exact congrArg some ((congrArg List.toFinset beforeSorted).trans (toFinset_sortTexts before))
    · rw [State.eventOf, recordValues_monitorEventFromResults]
      exact congrArg some ((congrArg List.toFinset afterSorted).trans (toFinset_sortTexts after))

private theorem told_of_same (follows : Follows state)
    (same : state.measures services world = none ∨
      state.measures services world = state.lastMeasured)
    (conclusive : ∀ answer ∈ answerFor services world (services.normalizeDomain state.monitor.target)
      state.monitor.recordType, Conclusive answer ∧ answer.records.Nodup) :
    (state.eventOf services world found).details.previousRecordValues = none := by
  refine previousRecordValues_of_none ?_
  by_contra changed
  obtain ⟨current, ⟨⟩, previous, isPrevious, isMeasured, wasMeasured, apart⟩ :=
    isSome_watchedRecordTransition.mp (Option.isSome_iff_ne_none.mpr changed)
  obtain ⟨results, wasRead, isReading⟩ := Option.bind_eq_some_iff.mp isPrevious
  obtain ⟨scan, isBefore, rfl⟩ := Option.map_eq_some_iff.mp wasRead
  obtain ⟨before, beforeDistinct, beforeSorted, wasLast⟩ :=
    follows.baseline scan isBefore previous isReading wasMeasured
  rcases reading_of_conclusive conclusive with
    ⟨-, unmeasured⟩ | ⟨after, afterDistinct, set, -, afterSorted⟩
  · cases unmeasured.symm.trans isMeasured
  · rw [set, wasLast] at same
    have equal := Option.some.inj (same.resolve_left (Option.some_ne_none _))
    exact apart (by rw [afterSorted, beforeSorted,
      (sortTexts_eq_iff afterDistinct beforeDistinct).mpr equal])

end Steps

/-! ## Runs -/

/-- In a run whose scans answer conclusively and, where they measure another set than the last one, come
right after one that measured the record and is still there, every event tells what it is to tell. -/
theorem told_of_unbroken (services : Services Rest Recs) (target recordType : Text)
    {labels : List (Label Rest)}
    (unbroken : Along (step services) (Unbroken services) (State.start target recordType) labels) :
    Along (step services) (Told services) (State.start target recordType) labels := by
  refine along_of_guarded (fun state label next follows taken met => ?_)
    (follows_start target recordType) unbroken
  cases label with
  | scan world found =>
      rw [step] at taken
      split at taken
      · obtain rfl := Option.some.inj taken
        exact ⟨follows_scanMonitor met.1, _, rfl,
          fun old isOld new isNew differs =>
            told_of_differs follows (met.2 old isOld new isNew differs) isOld isNew differs met.1,
          fun same => told_of_same follows same met.1⟩
      · cases taken
  | saveOther results =>
      obtain rfl := Option.some.inj taken
      exact ⟨follows.save, trivial⟩
  | deleteScan scanId =>
      obtain rfl := Option.some.inj taken
      exact ⟨follows.delete, trivial⟩
  | clearHistory =>
      obtain rfl := Option.some.inj taken
      exact ⟨follows.delete, trivial⟩

/-! ## A change that is lost -/

instance (state next : State Rest) : ∀ label, Decidable (Unbroken services state label next)
  | .scan world _ => inferInstanceAs (Decidable
      ((∀ answer ∈ answerFor services world (services.normalizeDomain state.monitor.target)
          state.monitor.recordType, Conclusive answer ∧ answer.records.Nodup) ∧
        ∀ old ∈ state.lastMeasured, ∀ new ∈ state.measures services world, new ≠ old →
          state.comparable))
  | .saveOther _ => .isTrue trivial
  | .deleteScan _ => .isTrue trivial
  | .clearHistory => .isTrue trivial

section Sample

/-- A resolver that takes every name, and checks that find nothing. -/
def sampleServices : Services Unit Unit where
  dns := {
    validName := fun _ => true
    ipAddress := fun _ => none
    repr := id
    systemServers := [.quad 127 0 0 53] }
  normalizeDomain := id
  isValidDomain _ := true
  safeError _ message := message
  generate _ := ()
  openCount _ := 0
  stateHash _ _ := "same".toList
  stateHash_ne_nil _ _ := by decide
  monitorChanges _ _ _ _ := ⟨false, ⟨0, 0, 0, 0⟩, []⟩

/-- The DNS with one address for every name. -/
def answering (address : Text) : World where
  nameServers _ := none
  addresses _ _ := none
  reply _ := .response ⟨"NOERROR".toList, false, [⟨false, 300, [address]⟩]⟩ false

def silent : World where
  nameServers _ := none
  addresses _ _ := none
  reply _ := .failed "The DNS operation timed out.".toList

def scanOf (world : World) : Label Unit := .scan world ⟨none, 0, none, false, false, ()⟩

theorem told_of_change :
    Along (step sampleServices) (Told sampleServices)
      (State.start "a.example".toList "A".toList)
      [scanOf (answering "192.0.2.1".toList), scanOf (answering "192.0.2.2".toList)] :=
  told_of_unbroken sampleServices _ _ (by decide +kernel)

/-- A lookup that fails between two others hides that the record changed. -/
theorem change_lost : ¬ Along (step sampleServices) (Told sampleServices)
    (State.start "a.example".toList "A".toList)
    [scanOf (answering "192.0.2.1".toList), scanOf silent, scanOf (answering "192.0.2.2".toList)] := by
  intro told
  obtain ⟨-, told⟩ := told _ rfl
  obtain ⟨-, told⟩ := told _ rfl
  obtain ⟨⟨event, events, changes, -⟩, -⟩ := told _ rfl
  obtain ⟨isChange, -⟩ := changes {"192.0.2.1".toList} (by decide +kernel) {"192.0.2.2".toList}
    (by decide +kernel) (by decide +kernel)
  have last := congrArg (fun events => events.getLast?.map fun entry => entry.2.eventType) events
  simp only [List.getLast?_append, List.getLast?_singleton, Option.some_or, Option.map_some,
    isChange] at last
  revert last
  decide +kernel

end Sample

end Watched
end Monitors
end DomainLens
