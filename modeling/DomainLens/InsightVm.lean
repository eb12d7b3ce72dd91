import DomainLens.Library.Paging
import DomainLens.Python.Value

/-!
# Vulnerability synchronisation

The console lists assets, the vulnerabilities of each and what a vulnerability is, each by a request of
its own; the cloud lists assets with their vulnerabilities.  A synchronisation keeps those that are
severe enough, up to three caps.
-/

namespace DomainLens
namespace InsightVm

open Python Paging

/-! ## Severities -/

inductive Severity where
  | critical
  | high
  | medium
  | low
  | info
deriving DecidableEq

/-- The place in `rank`. -/
def Severity.rank : Severity → Nat
  | .critical => 0
  | .high => 1
  | .medium => 2
  | .low => 3
  | .info => 4

/-- `_SEVERITY_MAP`. -/
def severityMap : List (Text × Severity) :=
  [
    ("critical".toList, .critical), ("severe".toList, .high), ("high".toList, .high),
    ("medium".toList, .medium), ("moderate".toList, .medium), ("low".toList, .low),
    ("info".toList, .info), ("informational".toList, .info), ("none".toList, .info)
  ]

/-- `number >= bound`. -/
def atLeast (number : Number) (bound : ℚ) : Bool :=
  match number with
  | .infinite negative => !negative
  | number => number.worth.any (bound ≤ ·)

/-- `severity_from_cvss`. -/
def severityFromCvss (score : Number) : Severity :=
  if atLeast score 9 then .critical
  else if atLeast score 7 then .high
  else if atLeast score 4 then .medium
  else if atLeast score 0 && score.worth ≠ some 0 then .low
  else .info

/-- `float` on a text. -/
abbrev ReadFloat := Text → Option Number

variable (float : ReadFloat)

/-- `normalize_severity`, without a score beside the text. -/
def normalizeSeverity (raw : Text) : Severity :=
  let text := lower (strip raw)
  match severityMap.lookup text with
  | some severity => severity
  | none =>
      match float (text.map fun char => if char = ',' then '.' else char) with
      | some score => severityFromCvss score
      | none => .info

/-- What the settings say of a synchronisation. -/
structure Config where
  minSeverity : Text
  maxAssets : ℤ
  maxFindingsPerAsset : ℤ
  maxRows : ℤ

/-- The names in `rank`. -/
def rankNames : List (Text × Severity) :=
  [
    ("critical".toList, .critical), ("high".toList, .high), ("medium".toList, .medium),
    ("low".toList, .low), ("info".toList, .info)
  ]

/-- `rank.get(min_sev, 1)`. -/
def Config.floor (config : Config) : Nat :=
  ((rankNames.lookup config.minSeverity).map Severity.rank).getD 1

/-- The severity is at or above the floor. -/
def Config.keeps (config : Config) (severity : Option Text) : Bool :=
  (normalizeSeverity float (severity.getD [])).rank ≤ config.floor

/-- The first of two texts that is not empty. -/
def firstOf (text other : Option Text) : Option Text :=
  (text.filter (· ≠ [])).or (other.filter (· ≠ []))

structure Finding where
  assetId : Option Text
  vulnId : Option Text
  title : Text
deriving DecidableEq

/-- The result of a synchronisation. -/
structure Result where
  assetsMatched : Nat
  findings : List Finding
  warnings : List Text

/-- As many findings as have room, which is one at least. -/
def Config.room (config : Config) : Nat := (max 1 config.maxRows).toNat

/-- The loop ends with a finding that fills the rows. -/
def Config.isFull (config : Config) (findings : List Finding) : Bool :=
  config.maxRows ≤ findings.length

theorem room_pos (config : Config) : 0 < config.room := by
  unfold Config.room
  omega

private theorem isFull_append {config : Config} {findings : List Finding} (short : findings.length < config.room)
    (finding : Finding) :
    config.isFull (findings ++ [finding]) = decide (config.room - findings.length = 1) := by
  unfold Config.isFull Config.room at *
  rw [List.length_append, List.length_singleton]
  congr 1
  push_cast
  apply propext
  omega

/-! ## The console -/

namespace Console

/-- An asset, as far as the synchronisation goes by it. -/
structure Asset where
  id : Option Text

/-- What the console says of a vulnerability of an asset. -/
structure Stub where
  id : Option Text
  vulnerabilityId : Option Text
  status : Option Text

/-- What the console says of a vulnerability. -/
structure Definition where
  title : Option Text
  vulnerabilityTitle : Option Text
  severity : Option Text

/-- A page as the console sends it. -/
structure Reply (Item : Type) where
  resources : List Item
  totalPages : Option Nat

/-- `page >= total_pages` ends the loop. -/
def Reply.toPage {Item : Type} (reply : Reply Item) (page : Nat) : Page Nat Item where
  items := reply.resources
  next := if ((reply.totalPages.filter (· ≠ 0)).getD 1) ≤ page + 1 then none else some (page + 1)

/-- A list that the console serves in pages. -/
structure Listing (Item : Type) where
  whole : List Item
  reply : Nat → Reply Item
  offset : Nat → Nat
  starts : offset 0 = 0
  serves : Serves (fun page => (reply page).toPage page) whole offset

def Listing.paged {Item : Type} (listing : Listing Item) : Paged Nat Item where
  whole := listing.whole
  page := fun page => (listing.reply page).toPage page
  first := 0
  offset := listing.offset
  starts := listing.starts
  serves := listing.serves

structure Api where
  assets : Listing Asset
  vulnerabilities : Text → Listing Stub
  definitions : Text → Definition

/-- The requests that fail, with the text of the error: those for a page of assets, for a page of the
vulnerabilities of the asset at a position, and for a definition. -/
structure Failures where
  assets : Nat → Option Text
  vulnerabilities : Nat → Nat → Option Text
  definitions : Text → Option Text

/-- `stub.get("id") or stub.get("vulnerability_id")`. -/
def Stub.vid (stub : Stub) : Option Text := firstOf stub.id stub.vulnerabilityId

def Stub.isExcepted (stub : Stub) : Bool :=
  lower (stub.status.getD []) ∈
    ["exception".toList, "invulnerable".toList, "false-positive".toList]

/-- `_vuln_meta_to_finding`. -/
def findingOf (asset : Asset) (vid : Text) (definition : Definition) : Finding where
  assetId := asset.id
  vulnId := some vid
  title := (firstOf definition.title definition.vulnerabilityTitle).getD vid

/-- What the loops carry: the findings, `vuln_cache` and the errors. -/
structure Progress where
  findings : List Finding
  cache : List (Text × Definition)
  errors : List Text

variable (config : Config) (api : Api) (failures : Failures)

/-- The definition of a vulnerability, from the cache if it was asked for before. -/
def definitionOf (progress : Progress) (vid : Text) : Definition × Progress :=
  match progress.cache.lookup vid with
  | some definition => (definition, progress)
  | none =>
      match failures.definitions vid with
      | none =>
          (api.definitions vid, { progress with cache := (vid, api.definitions vid) :: progress.cache })
      | some error =>
          let definition : Definition := ⟨some vid, none, none⟩
          (definition,
            { progress with
              cache := (vid, definition) :: progress.cache
              errors := progress.errors ++ ["vuln ".toList ++ vid ++ ": ".toList ++ error] })

/-- One vulnerability of an asset; whether it was kept. -/
def visitStub (asset : Asset) (progress : Progress) (stub : Stub) : Progress × Bool :=
  match stub.vid with
  | none => (progress, false)
  | some vid =>
      if stub.isExcepted then (progress, false)
      else
        let found := definitionOf api failures progress vid
        if config.keeps float found.1.severity then
          ({ found.2 with findings := found.2.findings ++ [findingOf asset vid found.1] }, true)
        else (found.2, false)

def visitStubs (asset : Asset) : List Stub → Progress → Progress
  | [], progress => progress
  | stub :: stubs, progress =>
      let next := visitStub float config api failures asset progress stub
      if next.2 && config.isFull next.1.findings then next.1 else visitStubs asset stubs next.1

/-- The assets, from the one at a position on. -/
def visitAssets : Nat → List Asset → Progress → Progress
  | _, [], progress => progress
  | position, asset :: assets, progress =>
      match asset.id with
      | none => visitAssets (position + 1) assets progress
      | some id =>
          match (api.vulnerabilities id).paged.collect (failures.vulnerabilities position)
            config.maxFindingsPerAsset with
          | .error error =>
              visitAssets (position + 1) assets
                { progress with
                  errors := progress.errors ++ ["asset ".toList ++ id ++ ": ".toList ++ error] }
          | .ok stubs =>
              let next := visitStubs float config api failures asset stubs progress
              if config.isFull next.findings then next else visitAssets (position + 1) assets next

/-- `sync_from_console_api`; a search that fails raises. -/
def sync : Except Text Result :=
  (api.assets.paged.collect failures.assets config.maxAssets).map fun assets =>
    let progress := visitAssets float config api failures 0 assets ⟨[], [], []⟩
    { assetsMatched := assets.length
      findings := progress.findings
      warnings := progress.errors.take 50 }

/-! ### What is to be kept, and what is -/

/-- The finding of a vulnerability that is not excepted and severe enough. -/
def dueFinding (asset : Asset) (stub : Stub) : Option Finding :=
  stub.vid.bind fun vid =>
    if !stub.isExcepted && config.keeps float (api.definitions vid).severity then
      some (findingOf asset vid (api.definitions vid))
    else none

/-- The vulnerabilities the console lists for an asset. -/
def Api.stubsOf (asset : Asset) : List Stub :=
  (asset.id.map fun id => (api.vulnerabilities id).whole).getD []

def due : List Finding :=
  api.assets.whole.flatMap fun asset => (api.stubsOf asset).filterMap (dueFinding float config api asset)

/-- The findings among the first vulnerabilities of an asset. -/
def keptOf (asset : Asset) : List Finding :=
  ((api.stubsOf asset).take config.maxFindingsPerAsset.toNat).filterMap
    (dueFinding float config api asset)

/-- The assets that can be asked for; without room for any row, the first of them. -/
def reached (assets : List Asset) : List Asset :=
  let named := assets.filter fun asset => asset.id.isSome
  if config.maxRows ≤ 0 then named.take 1 else named

/-- The findings within the caps: of the first assets, those among the first vulnerabilities of each,
and of these as many as there is room for. -/
def within : List Finding :=
  ((reached config (api.assets.whole.take config.maxAssets.toNat)).flatMap
    (keptOf float config api)).take config.room

def Told (result : Result) : Prop :=
  (∀ finding ∈ due float config api, finding ∈ result.findings) ∨ result.warnings ≠ []

/-! ### A synchronisation without failures -/

/-- Nothing has failed, and the cache has what the console says. -/
structure Clean (progress : Progress) : Prop where
  errors : progress.errors = []
  cache : ∀ entry ∈ progress.cache, entry.2 = api.definitions entry.1

variable {float config api failures} {asset : Asset} {progress : Progress} {vid : Text} {stub : Stub}

private theorem definitionOf_findings :
    (definitionOf api failures progress vid).2.findings = progress.findings := by
  unfold definitionOf
  split
  · rfl
  · split <;> rfl

private theorem errors_definitionOf :
    progress.errors <+: (definitionOf api failures progress vid).2.errors := by
  unfold definitionOf
  split
  · exact List.prefix_refl _
  · split
    · exact List.prefix_refl _
    · exact List.prefix_append _ _

private theorem errors_visitStub :
    progress.errors <+: (visitStub float config api failures asset progress stub).1.errors := by
  unfold visitStub
  split
  · exact List.prefix_refl _
  · split
    · exact List.prefix_refl _
    · dsimp only
      split <;> exact errors_definitionOf

private theorem errors_visitStubs (stubs : List Stub) (progress : Progress) :
    progress.errors <+: (visitStubs float config api failures asset stubs progress).errors := by
  induction stubs generalizing progress with
  | nil => exact List.prefix_refl _
  | cons stub stubs induction =>
      rw [visitStubs]
      split
      · exact errors_visitStub
      · exact errors_visitStub.trans (induction _)

private theorem errors_visitAssets (position : Nat) (assets : List Asset) (progress : Progress) :
    progress.errors <+: (visitAssets float config api failures position assets progress).errors := by
  induction assets generalizing position progress with
  | nil => exact List.prefix_refl _
  | cons asset assets induction =>
      rw [visitAssets]
      split
      · exact induction _ _
      · split
        · refine List.IsPrefix.trans ?_ (induction _ _)
          exact List.prefix_append _ _
        · dsimp only
          split
          · exact errors_visitStubs _ _
          · exact (errors_visitStubs _ _).trans (induction _ _)

private theorem clean_definitionOf (clean : Clean api progress)
    (noErrors : (definitionOf api failures progress vid).2.errors = []) :
    (definitionOf api failures progress vid).1 = api.definitions vid ∧
      Clean api (definitionOf api failures progress vid).2 := by
  unfold definitionOf at noErrors ⊢
  split
  · rename_i definition cached
    obtain ⟨front, back, isCache, -⟩ := List.lookup_eq_some_iff.mp cached
    exact ⟨clean.cache (vid, definition) (by simp [isCache]), clean⟩
  · split
    · exact ⟨rfl, { errors := clean.errors, cache := List.forall_mem_cons.mpr ⟨rfl, clean.cache⟩ }⟩
    · rename_i missing _ error failed
      simp only [missing, failed] at noErrors
      simp at noErrors

private theorem clean_visitStub (clean : Clean api progress)
    (noErrors : (visitStub float config api failures asset progress stub).1.errors = []) :
    Clean api (visitStub float config api failures asset progress stub).1 ∧
      (visitStub float config api failures asset progress stub).1.findings =
        progress.findings ++ (dueFinding float config api asset stub).toList ∧
      (visitStub float config api failures asset progress stub).2 =
        (dueFinding float config api asset stub).isSome := by
  unfold visitStub at noErrors ⊢
  unfold dueFinding
  cases named : stub.vid with
  | none => simp [clean]
  | some vid =>
      simp only [named] at noErrors
      cases excepted : stub.isExcepted with
      | true => simp [clean]
      | false =>
          simp only [excepted, Bool.false_eq_true, if_false] at noErrors ⊢
          have unfailing : (definitionOf api failures progress vid).2.errors = [] := by
            split at noErrors <;> exact noErrors
          obtain ⟨isDefinition, after⟩ := clean_definitionOf clean unfailing
          have kept : (definitionOf api failures progress vid).2.findings = progress.findings :=
            definitionOf_findings
          rw [isDefinition]
          split
          · rename_i severe
            refine ⟨⟨unfailing, after.cache⟩, ?_⟩
            simp [kept, severe]
          · rename_i severe
            refine ⟨after, ?_⟩
            simp [kept, severe]

private theorem clean_visitStubs (stubs : List Stub) (clean : Clean api progress)
    (short : progress.findings.length < config.room)
    (noErrors : (visitStubs float config api failures asset stubs progress).errors = []) :
    Clean api (visitStubs float config api failures asset stubs progress) ∧
      (visitStubs float config api failures asset stubs progress).findings =
        progress.findings ++ (stubs.filterMap (dueFinding float config api asset)).take
          (config.room - progress.findings.length) := by
  induction stubs generalizing progress with
  | nil => simp [visitStubs, clean]
  | cons stub stubs induction =>
      rw [visitStubs] at noErrors ⊢
      have unfailing : (visitStub float config api failures asset progress stub).1.errors = [] := by
        split at noErrors
        · exact noErrors
        · exact List.prefix_nil.mp (noErrors ▸ errors_visitStubs stubs _)
      obtain ⟨after, findings, kept⟩ := clean_visitStub clean unfailing
      cases isDue : dueFinding float config api asset stub with
      | none =>
          rw [isDue] at findings kept
          simp only [Option.toList_none, List.append_nil, Option.isSome_none] at findings kept
          simp only [kept, Bool.false_and, Bool.false_eq_true, if_false, List.filterMap_cons, isDue]
            at noErrors ⊢
          rw [← findings] at short ⊢
          exact induction after short noErrors
      | some finding =>
          rw [isDue] at findings kept
          simp only [Option.toList_some, Option.isSome_some] at findings kept
          have full := isFull_append short finding
          rw [← findings] at full
          simp only [kept, Bool.true_and, full, List.filterMap_cons, isDue] at noErrors ⊢
          split
          · rename_i one
            rw [of_decide_eq_true one, findings]
            exact ⟨after, rfl⟩
          · rename_i more
            rw [if_neg more] at noErrors
            have several : config.room - progress.findings.length ≠ 1 :=
              fun one => more (decide_eq_true one)
            have longer : (visitStub float config api failures asset progress stub).1.findings.length =
                progress.findings.length + 1 := by
              rw [findings, List.length_append, List.length_singleton]
            obtain ⟨rest, isRest⟩ := induction after (by omega) noErrors
            refine ⟨rest, ?_⟩
            obtain ⟨room, isRoom⟩ : ∃ room, config.room - progress.findings.length = room + 1 :=
              ⟨config.room - progress.findings.length - 1, by omega⟩
            rw [isRest, findings, isRoom, List.take_succ_cons, List.append_assoc,
              List.singleton_append, List.length_append, List.length_singleton, Nat.sub_add_eq, isRoom,
              Nat.add_sub_cancel]

private theorem clean_visitAssets (position : Nat) (assets : List Asset) (clean : Clean api progress)
    (short : progress.findings.length < config.room)
    (noErrors : (visitAssets float config api failures position assets progress).errors = []) :
    (visitAssets float config api failures position assets progress).findings =
      progress.findings ++ ((reached config assets).flatMap (keptOf float config api)).take
        (config.room - progress.findings.length) := by
  induction assets generalizing position progress with
  | nil => simp [visitAssets, reached]
  | cons asset assets induction =>
      rw [visitAssets] at noErrors ⊢
      cases named : asset.id with
      | none =>
          simp only [named] at noErrors
          have same : reached config (asset :: assets) = reached config assets := by
            simp [reached, named]
          rw [same]
          exact induction (position + 1) clean short noErrors
      | some id =>
          simp only [named] at noErrors
          cases listed : (api.vulnerabilities id).paged.collect (failures.vulnerabilities position)
              config.maxFindingsPerAsset with
          | error error =>
              simp only [listed] at noErrors
              have longer := @errors_visitAssets float config api failures (position + 1) assets
                { progress with
                  errors := progress.errors ++ ["asset ".toList ++ id ++ ": ".toList ++ error] }
              rw [noErrors, List.prefix_nil] at longer
              exact absurd longer (by simp)
          | ok stubs =>
              simp only [listed] at noErrors ⊢
              have isStubs : stubs =
                  (api.stubsOf asset).take config.maxFindingsPerAsset.toNat := by
                rw [Paged.collect_eq_take listed, Api.stubsOf, named]
                rfl
              have unfailing : (visitStubs float config api failures asset stubs progress).errors =
                  [] := by
                split at noErrors
                · exact noErrors
                · exact List.prefix_nil.mp (noErrors ▸ errors_visitAssets (position + 1) assets _)
              obtain ⟨after, findings⟩ := clean_visitStubs stubs clean short unfailing
              have kept : stubs.filterMap (dueFinding float config api asset) =
                  keptOf float config api asset := by
                rw [isStubs, keptOf]
              rw [kept] at findings
              have length := congrArg List.length findings
              rw [List.length_append, List.length_take] at length
              split
              · rename_i full
                rw [findings]
                congr 1
                rw [Config.isFull, decide_eq_true_iff] at full
                by_cases noRoom : config.maxRows ≤ 0
                · simp [reached, named, noRoom]
                · have enough : config.room - progress.findings.length ≤
                      (keptOf float config api asset).length := by
                    unfold Config.room at *
                    omega
                  simp [reached, named, noRoom, List.take_append_of_le_length enough]
              · rename_i more
                rw [if_neg more] at noErrors
                rw [Config.isFull, decide_eq_true_iff, not_le] at more
                have few : (keptOf float config api asset).length <
                    config.room - progress.findings.length := by
                  unfold Config.room at *
                  omega
                have left : (visitStubs float config api failures asset stubs progress).findings.length
                    < config.room := by
                  unfold Config.room at *
                  omega
                have someRoom : ¬config.maxRows ≤ 0 := by omega
                rw [induction (position + 1) after left noErrors, findings, List.take_of_length_le few.le,
                  List.append_assoc]
                congr 1
                simp [reached, named, someRoom, List.take_append, List.take_of_length_le few.le,
                  Nat.sub_add_eq]

def working : Failures := ⟨fun _ => none, fun _ _ => none, fun _ => none⟩

private theorem working_visitStub :
    (visitStub float config api working asset progress stub).1.errors = progress.errors := by
  have found : ∀ vid, (definitionOf api working progress vid).2.errors = progress.errors := by
    intro vid
    unfold definitionOf
    cases progress.cache.lookup vid <;> rfl
  unfold visitStub
  split
  · rfl
  · split
    · rfl
    · dsimp only
      split <;> exact found _

private theorem working_visitStubs (stubs : List Stub) (progress : Progress) :
    (visitStubs float config api working asset stubs progress).errors = progress.errors := by
  induction stubs generalizing progress with
  | nil => rfl
  | cons stub stubs induction =>
      rw [visitStubs]
      split
      · exact working_visitStub
      · rw [induction, working_visitStub]

private theorem working_visitAssets (position : Nat) (assets : List Asset) (progress : Progress) :
    (visitAssets float config api working position assets progress).errors = progress.errors := by
  induction assets generalizing position progress with
  | nil => rfl
  | cons asset assets induction =>
      rw [visitAssets]
      cases asset.id with
      | none => exact induction _ _
      | some id =>
          have listed := @Paged.collect_of_working _ _ _ (working.vulnerabilities position)
            (api.vulnerabilities id).paged (fun _ => rfl) config.maxFindingsPerAsset
          simp only [listed]
          split
          · exact working_visitStubs _ _
          · rw [induction, working_visitStubs]

private theorem sync_findings {result : Result} (done : sync float config api failures = .ok result)
    (noWarnings : result.warnings = []) : result.findings = within float config api := by
  unfold sync at done
  cases searched : api.assets.paged.collect failures.assets config.maxAssets with
  | error error => simp [searched, Except.map] at done
  | ok assets =>
      rw [searched] at done
      obtain rfl := Except.ok.inj done
      have noErrors : (visitAssets float config api failures 0 assets ⟨[], [], []⟩).errors = [] :=
        (List.take_eq_nil_iff.mp noWarnings).resolve_left (by decide)
      have clean : Clean api ⟨[], [], []⟩ := ⟨rfl, by simp⟩
      have findings := clean_visitAssets 0 assets clean (room_pos config) noErrors
      simp only [List.nil_append, List.length_nil, Nat.sub_zero] at findings
      have isAssets : assets = api.assets.whole.take config.maxAssets.toNat :=
        Paged.collect_eq_take searched
      rw [within, ← isAssets]
      exact findings

/-- Whatever fails, nothing is dropped silently, exactly if all findings lie within the caps. -/
theorem told_iff (float : ReadFloat) (config : Config) (api : Api) :
    (∀ failures result, sync float config api failures = .ok result → Told float config api result) ↔
      ∀ finding ∈ due float config api, finding ∈ within float config api := by
  constructor
  · intro told
    have searched := @Paged.collect_of_working _ _ _ working.assets api.assets.paged (fun _ => rfl)
      config.maxAssets
    obtain ⟨result, done⟩ : ∃ result, sync float config api working = .ok result := by
      rw [sync, searched]
      exact ⟨_, rfl⟩
    have noWarnings : result.warnings = [] := by
      rw [sync, searched] at done
      obtain rfl := Except.ok.inj done
      exact congrArg (List.take 50) (working_visitAssets 0 _ _)
    rw [← sync_findings done noWarnings]
    exact (told working result done).resolve_right (not_not.mpr noWarnings)
  · intro all failures result done
    by_cases noWarnings : result.warnings = []
    · left
      rw [sync_findings done noWarnings]
      exact all
    · exact .inr noWarnings

end Console

/-! ## The cloud -/

namespace Cloud

structure Vulnerability where
  id : Option Text
  vulnerabilityId : Option Text
  title : Option Text
  vulnerabilityTitle : Option Text
  severity : Option Text

/-- Vulnerabilities, as a list or in an object that is not empty. -/
inductive Listing where
  | list (items : List Vulnerability)
  | object (vulnerabilities items : List Vulnerability)

/-- An asset with its vulnerabilities: those it had before, the new ones, and those in one list. -/
structure Asset where
  id : Option Text
  same : Option Listing
  new : Option Listing
  vulnerabilities : Option Listing

def Listing.truthy : Listing → Bool
  | .list items => !items.isEmpty
  | .object _ _ => true

def Listing.items : Listing → List Vulnerability
  | .list items => items
  | .object vulnerabilities items => if vulnerabilities = [] then items else vulnerabilities

/-- `asset.get("same") or asset.get("new") or asset.get("vulnerabilities") or []`. -/
def Asset.taken (asset : Asset) : List Vulnerability :=
  match (asset.same.filter Listing.truthy).or
      ((asset.new.filter Listing.truthy).or (asset.vulnerabilities.filter Listing.truthy)) with
  | some listing => listing.items
  | none => []

/-- All vulnerabilities the cloud lists for an asset. -/
def Asset.listed (asset : Asset) : List Vulnerability :=
  [asset.same, asset.new, asset.vulnerabilities].reduceOption.flatMap Listing.items

structure Reply where
  batch : List Asset
  cursor : Option Text

/-- A cursor that is missing or empty ends the loop. -/
def Reply.toPage (reply : Reply) : Page (Option Text) Asset where
  items := reply.batch
  next := (reply.cursor.filter (· ≠ [])).map some

/-- What the cloud has, in pages asked for by their cursor. -/
structure Api where
  assets : List Asset
  reply : Option Text → Reply
  offset : Option Text → Nat
  starts : offset none = 0
  serves : Serves (fun cursor => (reply cursor).toPage) assets offset

def Api.paged (api : Api) : Paged (Option Text) Asset where
  whole := api.assets
  page := fun cursor => (api.reply cursor).toPage
  first := none
  offset := api.offset
  starts := api.starts
  serves := api.serves

def findingOf (asset : Asset) (vulnerability : Vulnerability) : Finding where
  assetId := asset.id
  vulnId := firstOf vulnerability.id vulnerability.vulnerabilityId
  title := ((firstOf vulnerability.title vulnerability.vulnerabilityTitle).or
    (vulnerability.id.filter (· ≠ []))).getD "Vulnerability".toList

variable (config : Config) (api : Api)

/-- The vulnerabilities of an asset, `count` of which are kept already. -/
def visitVulnerabilities (asset : Asset) : ℤ → List Vulnerability → List Finding → List Finding
  | _, [], findings => findings
  | count, vulnerability :: vulnerabilities, findings =>
      if config.maxFindingsPerAsset ≤ count then findings
      else if config.keeps float vulnerability.severity then
        let findings := findings ++ [findingOf asset vulnerability]
        if config.isFull findings then findings
        else visitVulnerabilities asset (count + 1) vulnerabilities findings
      else visitVulnerabilities asset count vulnerabilities findings

def visitAssets : List Asset → List Finding → List Finding
  | [], findings => findings
  | asset :: assets, findings =>
      let findings := visitVulnerabilities float config asset 0 asset.taken findings
      if config.isFull findings then findings else visitAssets assets findings

/-- `sync_from_cloud_api`; a search that fails raises. -/
def sync (failures : Option Text → Option Text) : Except Text Result :=
  (api.paged.collect failures config.maxAssets).map fun assets =>
    { assetsMatched := assets.length
      findings := visitAssets float config assets []
      warnings := [] }

/-! ### What is to be kept, and what is -/

def due : List Finding :=
  api.assets.flatMap fun asset =>
    (asset.listed.filter fun vulnerability => config.keeps float vulnerability.severity).map
      (findingOf asset)

/-- The first findings of the listing of an asset that is taken. -/
def keptOf (asset : Asset) : List Finding :=
  ((asset.taken.filter fun vulnerability => config.keeps float vulnerability.severity).take
    config.maxFindingsPerAsset.toNat).map (findingOf asset)

/-- Without room for any row, the first asset is the last. -/
def reached (assets : List Asset) : List Asset :=
  if config.maxRows ≤ 0 then assets.take 1 else assets

/-- The findings within the caps, of the listings that are taken. -/
def within : List Finding :=
  ((reached config (api.assets.take config.maxAssets.toNat)).flatMap (keptOf float config)).take
    config.room

def Told (result : Result) : Prop :=
  (∀ finding ∈ due float config api, finding ∈ result.findings) ∨ result.warnings ≠ []

variable {float config api} {asset : Asset}

private theorem visitVulnerabilities_eq (vulnerabilities : List Vulnerability) (count : ℤ)
    {findings : List Finding} (short : findings.length < config.room) :
    visitVulnerabilities float config asset count vulnerabilities findings =
      findings ++ ((vulnerabilities.filter fun vulnerability =>
        config.keeps float vulnerability.severity).take
          (min (config.maxFindingsPerAsset - count).toNat (config.room - findings.length))).map
            (findingOf asset) := by
  induction vulnerabilities generalizing count findings with
  | nil => simp [visitVulnerabilities]
  | cons vulnerability vulnerabilities induction =>
      rw [visitVulnerabilities]
      split
      · rename_i capped
        rw [Int.toNat_of_nonpos (by omega), Nat.zero_min, List.take_zero, List.map_nil, List.append_nil]
      · rename_i more
        have someLeft : (config.maxFindingsPerAsset - count).toNat =
            (config.maxFindingsPerAsset - (count + 1)).toNat + 1 := by omega
        cases severe : config.keeps float vulnerability.severity with
        | false =>
            simp only [Bool.false_eq_true, if_false, List.filter_cons, severe]
            exact induction count short
        | true =>
            have full := isFull_append short (findingOf asset vulnerability)
            simp only [if_true, List.filter_cons, severe, full]
            split
            · rename_i one
              rw [of_decide_eq_true one, someLeft, Nat.min_eq_right (by omega)]
              rfl
            · rename_i several
              have notOne : config.room - findings.length ≠ 1 :=
                fun one => several (decide_eq_true one)
              obtain ⟨room, isRoom⟩ : ∃ room, config.room - findings.length = room + 1 :=
                ⟨config.room - findings.length - 1, by omega⟩
              have longer : (findings ++ [findingOf asset vulnerability]).length < config.room := by
                rw [List.length_append, List.length_singleton]
                omega
              rw [induction (count + 1) longer, someLeft, isRoom, Nat.succ_min_succ,
                List.take_succ_cons, List.map_cons, List.append_assoc, List.singleton_append,
                List.length_append, List.length_singleton, Nat.sub_add_eq, isRoom, Nat.add_sub_cancel]

private theorem visitAssets_eq (assets : List Asset) {findings : List Finding}
    (short : findings.length < config.room) :
    visitAssets float config assets findings =
      findings ++ ((reached config assets).flatMap (keptOf float config)).take
        (config.room - findings.length) := by
  induction assets generalizing findings with
  | nil => simp [visitAssets, reached]
  | cons asset assets induction =>
      have found : visitVulnerabilities float config asset 0 asset.taken findings =
          findings ++ (keptOf float config asset).take (config.room - findings.length) := by
        rw [visitVulnerabilities_eq _ _ short, keptOf, Int.sub_zero, List.map_take, List.map_take,
          List.take_take, Nat.min_comm]
      have length := congrArg List.length found
      rw [List.length_append, List.length_take] at length
      rw [visitAssets]
      split
      · rename_i full
        rw [found]
        congr 1
        rw [Config.isFull, decide_eq_true_iff] at full
        by_cases noRoom : config.maxRows ≤ 0
        · simp [reached, noRoom]
        · have enough : config.room - findings.length ≤ (keptOf float config asset).length := by
            unfold Config.room at *
            omega
          simp [reached, noRoom, List.take_append_of_le_length enough]
      · rename_i more
        rw [Config.isFull, decide_eq_true_iff, not_le] at more
        have few : (keptOf float config asset).length < config.room - findings.length := by
          unfold Config.room at *
          omega
        have left : (visitVulnerabilities float config asset 0 asset.taken findings).length <
            config.room := by
          unfold Config.room at *
          omega
        have someRoom : ¬config.maxRows ≤ 0 := by omega
        rw [induction left, found, List.take_of_length_le few.le, List.append_assoc]
        congr 1
        simp [reached, someRoom, List.take_append, List.take_of_length_le few.le, Nat.sub_add_eq]

/-- Whatever fails, nothing is dropped silently, exactly if all findings are in the listings that are
taken and lie within the caps. -/
theorem told_iff (float : ReadFloat) (config : Config) (api : Api) :
    (∀ failures result, sync float config api failures = .ok result → Told float config api result) ↔
      ∀ finding ∈ due float config api, finding ∈ within float config api := by
  have findings : ∀ assets, visitAssets float config assets [] =
      ((reached config assets).flatMap (keptOf float config)).take config.room := fun assets => by
    rw [@visitAssets_eq float config assets [] (room_pos config), List.nil_append, List.length_nil, Nat.sub_zero]
  have found : ∀ failures result, sync float config api failures = .ok result →
      result.findings = within float config api ∧ result.warnings = [] := by
    intro failures result done
    unfold sync at done
    cases searched : api.paged.collect failures config.maxAssets with
    | error error => simp [searched, Except.map] at done
    | ok assets =>
        rw [searched] at done
        obtain rfl := Except.ok.inj done
        have isAssets : assets = api.assets.take config.maxAssets.toNat :=
          Paged.collect_eq_take searched
        exact ⟨by rw [within, ← isAssets]; exact findings assets, rfl⟩
  constructor
  · intro told
    have searched := @Paged.collect_of_working _ _ _ (fun _ => (none : Option Text)) api.paged
      (fun _ => rfl) config.maxAssets
    obtain ⟨result, done⟩ : ∃ result, sync float config api (fun _ => none) = .ok result := by
      rw [sync, searched]
      exact ⟨_, rfl⟩
    obtain ⟨isWithin, noWarnings⟩ := found _ result done
    rw [← isWithin]
    exact (told _ result done).resolve_right (not_not.mpr noWarnings)
  · intro all failures result done
    left
    rw [(found failures result done).1]
    exact all

end Cloud

/-- Neither synchronisation drops a finding silently, exactly if no cap and no listing leaves one
out. -/
theorem nothingDropped_iff (float : ReadFloat) (config : Config) (console : Console.Api)
    (cloud : Cloud.Api) :
    ((∀ failures result, Console.sync float config console failures = .ok result →
        Console.Told float config console result) ↔
      ∀ finding ∈ Console.due float config console,
        finding ∈ Console.within float config console) ∧
    ((∀ failures result, Cloud.sync float config cloud failures = .ok result →
        Cloud.Told float config cloud result) ↔
      ∀ finding ∈ Cloud.due float config cloud, finding ∈ Cloud.within float config cloud) :=
  ⟨Console.told_iff float config console, Cloud.told_iff float config cloud⟩

/-! ## A new vulnerability -/

private def sampleVulnerability (id : Char) : Cloud.Vulnerability :=
  ⟨some [id], none, none, none, some "Critical".toList⟩

/-- An asset that had a vulnerability and has another. -/
def sampleAsset : Cloud.Asset where
  id := some ['a']
  same := some (.list [sampleVulnerability '1'])
  new := some (.list [sampleVulnerability '2'])
  vulnerabilities := none

private theorem sampleServes :
    Serves (fun _ : Option Text => (⟨[sampleAsset], none⟩ : Cloud.Reply).toPage) [sampleAsset]
      fun _ => 0 where
  items _ := List.prefix_refl _
  empty _ noItems := by cases noItems
  last _ _ := le_rfl
  next _ _ none_ := by cases none_

private theorem sampleStarts : (fun _ => 0 : Option Text → Nat) none = 0 := rfl

def sampleCloud : Cloud.Api where
  assets := [sampleAsset]
  reply _ := ⟨[sampleAsset], none⟩
  offset _ := 0
  starts := sampleStarts
  serves := sampleServes

def sampleConfig : Config := ⟨"high".toList, 500, 100, 50000⟩

/-- The new vulnerability is not found, and nothing says so. -/
theorem newVulnerability_dropped :
    ∃ result, Cloud.sync (fun _ => none) sampleConfig sampleCloud (fun _ => none) = .ok result ∧
      ¬Cloud.Told (fun _ => none) sampleConfig sampleCloud result := by
  have searched := @Paged.collect_of_working _ _ _ (fun _ => (none : Option Text)) sampleCloud.paged
    (fun _ => rfl) sampleConfig.maxAssets
  refine ⟨⟨1, [Cloud.findingOf sampleAsset (sampleVulnerability '1')], []⟩, ?_, ?_⟩
  · rw [Cloud.sync, searched, Except.map]
    congr 2
  · rintro (all | warned)
    · have missing : Cloud.findingOf sampleAsset (sampleVulnerability '2') ∉
          [Cloud.findingOf sampleAsset (sampleVulnerability '1')] := by
        decide
      exact missing (all _ (by decide +kernel))
    · exact warned rfl

end InsightVm
end DomainLens
