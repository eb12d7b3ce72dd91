import DomainLens.ServiceNow.Push

/-!
# Pushing a list again

After a push in which every request succeeds, a list has all it asks for in the tables: each finding on
a CI has a definition that its queries find, and an item of the two.  Pushing the list again then
creates nothing, as later findings leave what the earlier ones have.
-/

namespace DomainLens
namespace ServiceNow

open Python Run

variable {server : Server} {links : Finding → Links} {config : Config}

/-! ## Searching among more definitions -/

/-- Which definition the queries find when none of them fails. -/
def searchAll (definitions : List Row) (finding : Finding) : Search :=
  searchDefinitions definitions (fun _ => false) 0 (definitionQueries finding)

theorem search_position (definitions : List Row) (position : Nat) (queries : List Clause) :
    searchDefinitions definitions (fun _ => false) position queries =
      searchDefinitions definitions (fun _ => false) 0 queries := by
  induction queries generalizing position with
  | nil => rfl
  | cons query queries induction =>
      simp only [searchDefinitions, Bool.false_eq_true, if_false]
      rw [induction, induction (0 + 1)]

theorem search_cons (definitions : List Row) (query : Clause) (queries : List Clause) :
    searchDefinitions definitions (fun _ => false) 0 (query :: queries) =
      match definitions.find? fun row => query.holds row with
      | some row => .found row
      | none => searchDefinitions definitions (fun _ => false) 0 queries := by
  have rest := search_position definitions (0 + 1) queries
  cases isFirst : definitions.find? fun row => query.holds row with
  | none =>
      simp only [searchDefinitions, isFirst, Bool.false_eq_true, if_false]
      exact rest
  | some row => simp only [searchDefinitions, isFirst, Bool.false_eq_true, if_false]

theorem search_succeeds (definitions : List Row) (queries : List Clause) :
    searchDefinitions definitions (fun _ => false) 0 queries ≠ .failed := by
  induction queries with
  | nil => exact fun failed => nomatch failed
  | cons query queries induction =>
      rw [search_cons]
      cases definitions.find? fun row => query.holds row with
      | none => exact induction
      | some row => exact fun failed => nomatch failed

/-- With one definition more, the queries find what they found, or the new one. -/
theorem search_append (definitions : List Row) (new : Row) (queries : List Clause) {row : Row}
    (found : searchDefinitions definitions (fun _ => false) 0 queries = .found row) :
    searchDefinitions (definitions ++ [new]) (fun _ => false) 0 queries = .found row ∨
      searchDefinitions (definitions ++ [new]) (fun _ => false) 0 queries = .found new := by
  induction queries with
  | nil => cases found
  | cons query queries induction =>
      rw [search_cons] at found ⊢
      rw [List.find?_append]
      cases isFirst : definitions.find? fun row => query.holds row with
      | some first =>
          rw [isFirst] at found
          exact .inl found
      | none =>
          rw [isFirst] at found
          by_cases holds : query.holds new = true
          · exact .inr (by simp [holds])
          · simpa [holds] using induction found

/-- A definition that no query finds, and whose first query a new one meets. -/
theorem search_new {definitions : List Row} {new : Row} {query : Clause} {queries : List Clause}
    (missing : searchDefinitions definitions (fun _ => false) 0 (query :: queries) = .missing)
    (holds : query.holds new = true) :
    searchDefinitions (definitions ++ [new]) (fun _ => false) 0 (query :: queries) = .found new := by
  rw [search_cons] at missing ⊢
  rw [List.find?_append]
  cases isFirst : definitions.find? fun row => query.holds row with
  | some first =>
      rw [isFirst] at missing
      cases missing
  | none => simp [holds]

/-! ## Requests that succeed -/

variable (server) in
theorem definitionFor_found (tables : Tables) {finding : Finding}
    (configured : config.configured = true) (creates : config.createVulnerableItems = true)
    (identified : Identified finding) :
    ∃ row, searchAll (definitionFor server config tables finding .none).2.rows finding = .found row ∧
      (definitionFor server config tables finding .none).1 = some row.sysId ∧
      (searchAll tables.definitions.rows finding = .missing →
        row = newDefinition server config tables.definitions finding) := by
  unfold definitionFor findOrCreateDefinition
  simp only [creates, configured, Bool.not_true, Bool.false_eq_true, if_true, if_false]
  cases isSearch : searchDefinitions tables.definitions.rows Faults.none.definition 0
      (definitionQueries finding) with
  | found row => exact ⟨row, isSearch, rfl, fun missing => nomatch isSearch.symm.trans missing⟩
  | missing =>
      refine ⟨newDefinition server config tables.definitions finding, ?_, rfl, fun _ => rfl⟩
      obtain ⟨query, queries, isQueries, holds⟩ := first_query_holds identified
        (newDefinition server config tables.definitions finding) rfl
      have same : (server.post tables.definitions (definitionPayload config finding)).rows =
          tables.definitions.rows ++ [newDefinition server config tables.definitions finding] :=
        rows_post _ _
      change searchAll (server.post tables.definitions (definitionPayload config finding)).rows
        finding = _
      rw [same, searchAll, isQueries]
      exact search_new (isQueries ▸ isSearch) holds
  | failed => exact absurd isSearch (search_succeeds _ _)

/-- After a finding whose requests succeed there is an item of its CI and its definition. -/
theorem item_of_link {tables : Tables} {finding : Finding} {ci : Row} {definition : Text}
    (configured : config.configured = true) (enabled : config.cmdbEnabled = true)
    (creates : config.createVulnerableItems = true) (spares : SparesItem config (links finding))
    (isCi : lookupCi config tables.cis finding .none = some ci)
    (isDefinition : (definitionFor server config tables finding .none).1 = some definition) :
    ∃ item ∈ (link server links config tables finding .none).2.items.rows,
      item.get "cmdb_ci".toList = ci.sysId ∧ item.get "vulnerability".toList = definition := by
  have named : definition ≠ [] := definitionFor_named definition isDefinition
  have isSome : (some definition).filter (· ≠ []) = some definition := by
    simp [Option.filter, named]
  unfold link
  rw [isCi]
  simp only [← definitionFor.eq_def, configured, enabled, ci.named, Bool.not_true,
    Bool.false_eq_true, if_false, isDefinition]
  unfold upsertItem
  cases found : findItem tables.items.rows ci.sysId (some definition) finding .none with
  | none =>
      simp only [Option.filter_none, creates, Bool.not_true, Bool.false_eq_true, if_false]
      refine ⟨_, (rows_post tables.items _).symm ▸ List.mem_append_right _ List.mem_cons_self, ?_, ?_⟩
      · rw [get_cmdb_ci, lookup_cmdb_ci spares.ci]
        rfl
      · rw [get_vulnerability, lookup_vulnerability spares.vulnerability, isSome]
        rfl
  | some row =>
      obtain ⟨member, isOn, refers, -⟩ :=
        findItem_spec (fun sysId same => Option.some.inj same ▸ named) found
      have kept : (some row).filter (fun row : Row => decide (row.sysId ≠ [])) = some row := by
        simp [Option.filter, row.named]
      simp only [kept]
      split
      · exact ⟨row, member, isOn, refers definition rfl⟩
      · refine ⟨_, (rows_patch tables.items member _ _ _).mpr (.inr rfl), ?_, ?_⟩
        · exact updatedRow_cmdb_ci spares row
        · rw [updatedRow_vulnerability spares, isSome]
          rfl

/-! ## What the first push provides -/

/-- A finding on a CI has a definition that its queries find, and an item of the two. -/
def HasItem (tables : Tables) (finding : Finding) (ci : Row) : Prop :=
  ∃ definition, searchAll tables.definitions.rows finding = .found definition ∧
    ∃ item ∈ tables.items.rows, item.get "cmdb_ci".toList = ci.sysId ∧
      item.get "vulnerability".toList = definition.sysId

/-- Every finding of a list that is on a CI has its item. -/
def Provided (config : Config) (tables : Tables) (findings : List Finding) : Prop :=
  ∀ finding ∈ findings, ∀ ci, lookupCi config tables.cis finding .none = some ci →
    HasItem tables finding ci

/-- Items that are kept are had while the queries find the same definition. -/
theorem HasItem.of_keeps {before after : Tables} {finding : Finding} {ci definition : Row}
    (found : searchAll before.definitions.rows finding = .found definition)
    (same : searchAll after.definitions.rows finding = .found definition)
    (kept : ∀ row ∈ before.items.rows, ∃ other ∈ after.items.rows, Keeps row other)
    (has : HasItem before finding ci) : HasItem after finding ci := by
  obtain ⟨other, isOther, item, member, isOn, refers⟩ := has
  obtain rfl : definition = other := Search.found.inj (found.symm.trans isOther)
  obtain ⟨row, isRow, keeps⟩ := kept item member
  exact ⟨definition, same, row, isRow, keeps.ci.trans isOn, keeps.vulnerability.trans refers⟩

/-- The findings of the entries so far. -/
def World.findings (world : World) : List Finding := world.linked.map Prod.fst

@[simp] theorem findings_linkNext (world : World) (request : Request) :
    (linkNext server links config world request).findings = world.findings ++ [request.1] := by
  simp [linkNext, World.findings]

theorem cis_linkNext (world : World) (request : Request) :
    (linkNext server links config world request).tables.cis = world.tables.cis := by
  rcases link_cases server links config world.tables request.1
    request.2 with ⟨-, same, -⟩ | ⟨ci, -, same, -⟩
  · exact congrArg Tables.cis same
  · exact same

/-- What a finding does to the definitions: nothing, or one more that no query of its had found. -/
theorem definitionFor_grows (tables : Tables) (finding : Finding) (faults : Faults) :
    (definitionFor server config tables finding faults).2 = tables.definitions ∨
      searchDefinitions tables.definitions.rows faults.definition 0 (definitionQueries finding) =
          .missing ∧
        (definitionFor server config tables finding faults).2.rows =
          tables.definitions.rows ++ [newDefinition server config tables.definitions finding] := by
  unfold definitionFor
  split
  · rcases definition_cases server config tables.definitions finding faults with
      ⟨same, -⟩ | ⟨missing, rows, -⟩
    · exact .inl same
    · exact .inr ⟨missing, rows⟩
  · exact .inl rfl

/-- A finding whose requests succeed provides for itself, and leaves the earlier ones provided for. -/
theorem Provided.kept {before after : World} {request : Request}
    (configured : config.configured = true) (enabled : config.cmdbEnabled = true)
    (creates : config.createVulnerableItems = true) (succeeds : request.2 = Faults.none)
    (provided : Provided config before.tables before.findings)
    (taken : step server links config before request = some after)
    (clear : Clear server links config before request after) :
    Provided config after.tables after.findings := by
  obtain rfl := Option.some.inj taken
  obtain ⟨finding, faults⟩ := request
  obtain rfl : faults = Faults.none := succeeds
  intro other member ci isCi
  rw [cis_linkNext] at isCi
  rw [findings_linkNext] at member
  rcases link_cases server links config before.tables finding
    .none with ⟨unmatched, same, -⟩ | ⟨own, isOwn, -, definitions, wrote⟩
  · rw [linkNext, same]
    rcases List.mem_append.mp member with old | new
    · exact provided other old ci isCi
    · obtain rfl := List.mem_singleton.mp new
      rw [unmatched] at isCi
      cases isCi
  · have identified : Identified finding := clear.identified creates (by rw [isOwn]; rfl)
    obtain ⟨definition, isFound, isDefinition, isLatest⟩ :=
      definitionFor_found server before.tables configured creates identified
    obtain ⟨item, isItem, isOn, refers⟩ := item_of_link configured enabled creates clear.spares isOwn
      isDefinition
    have found : searchAll (linkNext server links config before (finding, .none)).tables.definitions.rows
        finding = .found definition := by
      rw [linkNext, definitions]
      exact isFound
    rcases List.mem_append.mp member with old | new
    · have has := provided other old ci isCi
      obtain ⟨earlier, isEarlier, -⟩ := id has
      have kept := wrote.keeps clear.spares definitionFor_named
      rcases definitionFor_grows before.tables finding .none with same | ⟨missing, rows⟩
      · refine has.of_keeps isEarlier ?_ kept
        rw [linkNext, definitions, same]
        exact isEarlier
      · rcases search_append before.tables.definitions.rows
          (newDefinition server config before.tables.definitions finding) _ isEarlier with
          isSame | isNew
        · refine has.of_keeps isEarlier ?_ kept
          rw [linkNext, definitions, rows]
          exact isSame
        -- The queries of an earlier finding find the new definition, so it is on the same CI.
        · have sameCi : ci.sysId = own.sysId := by
            by_contra apart
            obtain ⟨entry, isEntry, rfl⟩ := List.mem_map.mp old
            exact clear.unselected creates own isOwn missing entry isEntry ci isCi apart isNew
          refine ⟨definition, ?_, item, isItem, isOn.trans sameCi.symm, refers⟩
          rw [linkNext, definitions, rows, isLatest missing]
          exact isNew
    · obtain rfl := List.mem_singleton.mp new
      obtain rfl : own = ci := Option.some.inj (isOwn.symm.trans isCi)
      exact ⟨definition, found, item, isItem, isOn, refers⟩

/-! ## What the second push finds -/

/-- Tables with the same definitions, and items of the same ids. -/
structure NothingNew (before after : Tables) : Prop where
  definitions : after.definitions = before.definitions
  items : after.items.rows.map Row.sysId = before.items.rows.map Row.sysId

theorem NothingNew.refl (tables : Tables) : NothingNew tables tables := ⟨rfl, rfl⟩

theorem NothingNew.trans {first second third : Tables} (earlier : NothingNew first second)
    (later : NothingNew second third) : NothingNew first third :=
  ⟨later.definitions.trans earlier.definitions, later.items.trans earlier.items⟩

theorem sysIds_patch (table : Table Row.sysId) (sysId : Text) (payload : List (Text × Text)) :
    (patch table sysId payload).rows.map Row.sysId = table.rows.map Row.sysId := by
  unfold patch Table.update
  rw [List.map_map]
  refine List.map_congr_left fun row _ => ?_
  rw [Function.comp_apply]
  split
  · rfl
  · rfl

theorem Wrote.sysIds {tables : Tables} {finding : Finding} {ci : Row}
    {definition item : Option Text} {existing : Option Row} {items : Table Row.sysId}
    (wrote : Wrote server links config tables finding ci definition existing item items)
    (kept : existing = none → config.createVulnerableItems = false) :
    items.rows.map Row.sysId = tables.items.rows.map Row.sysId := by
  cases wrote with
  | nothing => rfl
  | skipped row found => rfl
  | updated row found item isItem => exact sysIds_patch _ _ _
  | created absent creates item isItem =>
      rw [kept absent] at creates
      cases creates

theorem nothingNew_of_off (off : config.createVulnerableItems = false) (world : World)
    (request : Request) :
    NothingNew world.tables (linkNext server links config world request).tables := by
  rcases link_cases server links config world.tables request.1
    request.2 with ⟨-, same, -⟩ | ⟨ci, -, -, definitions, wrote⟩
  · rw [linkNext, same]
    exact .refl _
  · refine ⟨definitions.trans ?_, wrote.sysIds fun _ => off⟩
    rw [definitionFor, off]
    rfl

variable (server) in
theorem definitionFor_of_found {tables : Tables} {finding : Finding} {row : Row}
    (configured : config.configured = true) (creates : config.createVulnerableItems = true)
    (found : searchAll tables.definitions.rows finding = .found row) :
    definitionFor server config tables finding .none = (some row.sysId, tables.definitions) := by
  have isSearch : searchDefinitions tables.definitions.rows Faults.none.definition 0
      (definitionQueries finding) = .found row := found
  simp [definitionFor, findOrCreateDefinition, creates, configured, isSearch]

theorem findItem_ne_none {items : List Row} (finding : Finding) {ci definition : Text} {item : Row}
    (member : item ∈ items) (isOn : item.get "cmdb_ci".toList = ci)
    (refers : item.get "vulnerability".toList = definition) (named : definition ≠ []) :
    findItem items ci (some definition) finding .none ≠ none := by
  intro absent
  rw [findItem, if_neg (by decide), List.find?_eq_none] at absent
  refine absent item member (List.all_eq_true.mpr fun clause isClause => ?_)
  have isSome : (some definition).filter (· ≠ []) = some definition := by
    simp [Option.filter, named]
  rw [itemClauses, isSome] at isClause
  simp only [List.mem_cons, List.not_mem_nil, or_false] at isClause
  rcases isClause with rfl | rfl
  · exact beq_iff_eq.mpr isOn
  · exact beq_iff_eq.mpr refers

variable (server) in
/-- A finding that has its item creates nothing, and takes nothing from the others. -/
theorem again_step {world : World} {finding : Finding} {findings : List Finding}
    (configured : config.configured = true) (creates : config.createVulnerableItems = true)
    (spares : SparesItem config (links finding)) (member : finding ∈ findings)
    (provided : Provided config world.tables findings) :
    NothingNew world.tables (linkNext server links config world (finding, .none)).tables ∧
      Provided config (linkNext server links config world (finding, .none)).tables findings := by
  rcases link_cases server links config world.tables finding
    .none with ⟨-, same, -⟩ | ⟨ci, isCi, cis, definitions, wrote⟩
  · rw [linkNext, same]
    exact ⟨.refl _, provided⟩
  · obtain ⟨definition, isFound, item, isItem, isOn, refers⟩ := provided finding member ci isCi
    have isDefinition := definitionFor_of_found server configured creates isFound
    have present := findItem_ne_none finding isItem isOn refers definition.named
    have same : (link server links config world.tables finding .none).2.definitions =
        world.tables.definitions := by
      rw [definitions, isDefinition]
    refine ⟨⟨same, wrote.sysIds fun absent => ?_⟩, fun other isOther ci' isCi' => ?_⟩
    · rw [isDefinition] at absent
      exact absurd absent present
    · rw [cis_linkNext] at isCi'
      have has := provided other isOther ci' isCi'
      obtain ⟨earlier, isEarlier, -⟩ := id has
      refine has.of_keeps isEarlier ?_ (wrote.keeps spares definitionFor_named)
      rw [linkNext]
      dsimp only
      rw [same]
      exact isEarlier

/-! ## Whole pushes -/

theorem run_step (world : World) (requests : List Request) :
    run (step server links config) world requests =
      some (requests.foldl (linkNext server links config) world) := by
  induction requests generalizing world with
  | nil => rfl
  | cons request requests induction => exact induction _

theorem spares_of_clear {world : World} {requests : List Request}
    (clear : Along (step server links config) (Clear server links config) world requests) :
    ∀ request ∈ requests, SparesItem config (links request.1) := by
  induction requests generalizing world with
  | nil => exact fun request member => nomatch member
  | cons head requests induction =>
      obtain ⟨first, later⟩ := clear _ rfl
      intro request member
      rcases List.mem_cons.mp member with rfl | member
      · exact first.spares
      · exact induction later request member

theorem provided_of_clear {world : World} {requests : List Request}
    (configured : config.configured = true) (enabled : config.cmdbEnabled = true)
    (creates : config.createVulnerableItems = true)
    (succeeds : ∀ request ∈ requests, request.2 = Faults.none)
    (provided : Provided config world.tables world.findings)
    (clear : Along (step server links config) (Clear server links config) world requests) :
    Provided config (requests.foldl (linkNext server links config) world).tables
      (world.findings ++ requests.map Prod.fst) := by
  induction requests generalizing world with
  | nil => simpa using provided
  | cons request requests induction =>
      obtain ⟨first, later⟩ := clear _ rfl
      have kept := provided.kept configured enabled creates (succeeds request List.mem_cons_self) rfl
        first
      have rest := induction (fun other member => succeeds other (List.mem_cons_of_mem _ member)) kept
        later
      rw [findings_linkNext, List.append_assoc] at rest
      exact rest

theorem nothingNew_of_provided (world : World) {requests : List Request} {findings : List Finding}
    (configured : config.configured = true) (creates : config.createVulnerableItems = true)
    (succeeds : ∀ request ∈ requests, request.2 = Faults.none)
    (spares : ∀ request ∈ requests, SparesItem config (links request.1))
    (listed : ∀ request ∈ requests, request.1 ∈ findings)
    (provided : Provided config world.tables findings) :
    NothingNew world.tables (requests.foldl (linkNext server links config) world).tables := by
  induction requests generalizing world with
  | nil => exact .refl _
  | cons request requests induction =>
      obtain ⟨finding, faults⟩ := request
      obtain rfl : faults = Faults.none := succeeds _ List.mem_cons_self
      obtain ⟨nothing, kept⟩ := again_step server configured creates
        (spares _ List.mem_cons_self) (listed _ List.mem_cons_self) provided
      exact nothing.trans (induction _
        (fun other member => succeeds other (List.mem_cons_of_mem _ member))
        (fun other member => spares other (List.mem_cons_of_mem _ member))
        (fun other member => listed other (List.mem_cons_of_mem _ member)) kept)

theorem nothingNew_foldl (off : config.createVulnerableItems = false) (world : World)
    (requests : List Request) :
    NothingNew world.tables (requests.foldl (linkNext server links config) world).tables := by
  induction requests generalizing world with
  | nil => exact .refl _
  | cons request requests induction =>
      exact (nothingNew_of_off off world request).trans (induction _)

/-- Pushing a list again, after a push whose requests succeed, creates nothing. -/
theorem nothingNew_of_clear {tables : Tables} {requests : List Request}
    (configured : config.configured = true) (enabled : config.cmdbEnabled = true)
    (succeeds : ∀ request ∈ requests, request.2 = Faults.none)
    (clear : Along (step server links config) (Clear server links config) (.start tables) requests) :
    NothingNew (requests.foldl (linkNext server links config) (.start tables)).tables
      (requests.foldl (linkNext server links config)
        (.start (requests.foldl (linkNext server links config) (.start tables)).tables)).tables := by
  cases creates : config.createVulnerableItems with
  | false => exact nothingNew_foldl creates (.start _) _
  | true =>
      have provided := provided_of_clear configured enabled creates succeeds
        (fun finding member => (List.not_mem_nil member).elim) clear
      exact nothingNew_of_provided (.start _) configured creates succeeds
        (spares_of_clear clear) (fun request member => List.mem_map_of_mem member) provided

/-- What is asked of a push: it changes no items but those of its findings, findings that end in one
item are about one vulnerability, and, when every request succeeds, pushing the list again creates
nothing. -/
structure Careful (server : Server) (links : Finding → Links) (config : Config) (tables : Tables)
    (limit : Option Nat) (requests : List Request) : Prop where
  touches : Along (step server links config) (Touches config) (.start tables)
    (pushed config limit requests)
  apart : ∀ final, push server links config tables limit requests = .ok final →
    final.linked.Pairwise fun earlier later => ∀ sysId, earlier.2.item = some sysId →
      later.2.item = some sysId →
        SameVulnerability final.tables.definitions.rows earlier.1 later.1
  again : ∀ final, push server links config tables limit requests = .ok final →
    (∀ request ∈ pushed config limit requests, request.2 = Faults.none) →
    ∃ second, push server links config final.tables limit requests = .ok second ∧
      NothingNew final.tables second.tables

theorem push_eq_ok {tables : Tables} {limit : Option Nat} {requests : List Request} {final : World} :
    push server links config tables limit requests = .ok final ↔
      config.configured = true ∧ config.cmdbEnabled = true ∧
        (pushed config limit requests).foldl (linkNext server links config) (.start tables) =
          final := by
  unfold push
  cases config.configured with
  | false => simp
  | true =>
      cases config.cmdbEnabled with
      | false => simp
      | true => simp

/-- A push whose findings are all kept clear is careful, whatever the tables hold and whichever
requests fail. -/
theorem careful_of_clear (server : Server) (links : Finding → Links) (config : Config)
    (tables : Tables) (limit : Option Nat) (requests : List Request)
    (clear : Along (step server links config) (Clear server links config) (.start tables)
      (pushed config limit requests)) :
    Careful server links config tables limit requests where
  touches :=
    have keeps : ∀ before request after, True → step server links config before request = some after →
        Clear server links config before request after →
          True ∧ Touches config before request after :=
      fun _ _ _ _ taken met => ⟨trivial, met.touches taken⟩
    along_of_guarded keeps trivial clear
  apart final isFinal := by
    obtain ⟨-, -, rfl⟩ := push_eq_ok.mp isFinal
    have keeps : ∀ before request after, Ends before →
        step server links config before request = some after →
        Clear server links config before request after → Ends after :=
      fun _ _ _ ends taken met => ends.kept taken met
    exact (run_guarded keeps (ends_start tables) clear (run_step _ _)).apart
  again final isFinal succeeds := by
    obtain ⟨configured, enabled, rfl⟩ := push_eq_ok.mp isFinal
    exact ⟨_, push_eq_ok.mpr ⟨configured, enabled, rfl⟩,
      nothingNew_of_clear configured enabled succeeds clear⟩

/-! ## Two pushes -/

/-- A server that names a row by a text longer than the ids there are. -/
def longerIds : Server where
  newId rows := 'x' :: (rows.map Row.sysId).flatten
  fresh rows member := by
    have short := (List.sublist_flatten_of_mem member).length_le
    rw [List.length_cons] at short
    omega
  named rows := List.cons_ne_nil _ _

/-- Pushing is on, and creating is on or off. -/
def pushing (creates : Bool) : Config where
  configured := true
  cmdbEnabled := true
  createVulnerableItems := creates
  updateExistingVi := true
  ciMatchFields := ["name".toList]
  viSource := []
  urlField := none

/-- A finding on the host `web`. -/
def onWeb (cve : Text) : Finding where
  id := "7".toList
  domain := []
  title := "Outdated server".toList
  severity := "high".toList
  cves := [cve]
  vulnId := []
  hostname := "web".toList
  assetIp := []
  solution := []
  description := []
  cvss := none

def web : Row := ⟨"ci".toList, by decide, [("name".toList, "web".toList)]⟩

/-- An item on `web` about another vulnerability. -/
def otherItem : Row :=
  ⟨"item".toList, by decide,
    [("cmdb_ci".toList, "ci".toList), ("vulnerability".toList, "definition".toList),
      ("short_description".toList, "Weak cipher".toList)]⟩

/-- The table of that item and its definition. -/
def otherTables : Tables where
  cis := [web]
  definitions := ⟨[⟨"definition".toList, by decide, [("id".toList, "CVE-2".toList)]⟩], by decide⟩
  items := ⟨[otherItem], by decide⟩

/-- A finding whose definition is not looked up is written over the item of another vulnerability that
is on its CI. -/
theorem overwritten_not_careful :
    ¬ ∀ (server : Server) (links : Finding → Links) (config : Config) (tables : Tables)
      (limit : Option Nat) (requests : List Request),
      Careful server links config tables limit requests := by
  intro careful
  obtain ⟨touches, -⟩ := (careful longerIds (fun _ => ⟨[], none, none⟩) (pushing false) otherTables
    none [(onWeb "CVE-1".toList, .none)]).touches _ rfl
  obtain ⟨-, -, -, refers | ⟨identified, -⟩⟩ := touches otherItem (by decide) (by decide +kernel)
  · obtain ⟨definition, member, -, isOf⟩ := refers
    obtain rfl := List.mem_singleton.mp member
    revert isOf
    unfold DefinitionOf
    decide
  · exact identified rfl

/-- A new finding is pushed with care, and twice. -/
theorem created_careful :
    Careful longerIds (fun _ => ⟨[], none, none⟩) (pushing true) otherTables none
      [(onWeb "CVE-1".toList, .none)] :=
  careful_of_clear _ _ _ _ _ _ fun _ _ =>
    ⟨{ spares := ⟨fun _ member => (List.not_mem_nil member).elim,
          fun _ member => (List.not_mem_nil member).elim,
          fun _ member => (List.not_mem_nil member).elim⟩
       identified := fun _ _ => .inl (by decide)
       fallback := fun _ _ _ absent => absurd absent (by decide +kernel)
       unselected := fun _ _ _ _ _ member => (List.not_mem_nil member).elim }, trivial⟩

end ServiceNow
end DomainLens
