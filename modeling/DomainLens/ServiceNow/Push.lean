import DomainLens.ServiceNow.Cmdb

/-!
# What a push leaves behind

Updated items should be those of the finding, findings about different vulnerabilities should not meet
in one item, and a list that is pushed again should create nothing.  The file says which pushes keep to
that, whatever the tables hold and whichever requests fail.
-/

namespace DomainLens
namespace ServiceNow

open Python Run

variable {server : Server} {links : Finding → Links} {config : Config}

/-! ## Fields of a payload -/

/-- The entries of the custom field leave a field alone. -/
def Spares (config : Config) (links : Links) (field : Text) : Prop :=
  ∀ entry ∈ urlEntry config links, entry.1 ≠ field

theorem lookup_urlEntry {links : Links} {field : Text} (spares : Spares config links field) :
    (urlEntry config links).lookup field = none := by
  rw [List.lookup_eq_none_iff]
  intro entry member
  simpa using (spares entry member).symm

theorem lookup_cmdb_ci {ciSysId : Text} {definition : Option Text} {finding : Finding}
    (spares : Spares config (links finding) "cmdb_ci".toList) :
    (itemPayload links config ciSysId definition finding).lookup "cmdb_ci".toList = some ciSysId := by
  unfold itemPayload
  rw [List.append_assoc, List.append_assoc, List.lookup_append, lookup_urlEntry spares]
  rfl

theorem lookup_vulnerability {ciSysId : Text} {definition : Option Text} {finding : Finding}
    (spares : Spares config (links finding) "vulnerability".toList) :
    (itemPayload links config ciSysId definition finding).lookup "vulnerability".toList =
      definition.filter (· ≠ []) := by
  unfold itemPayload
  rw [List.append_assoc, List.append_assoc, List.lookup_append, lookup_urlEntry spares,
    List.lookup_append, List.lookup_append]
  by_cases unnamed : finding.vulnId = []
  · rw [if_pos unnamed]
    cases definition.filter (· ≠ []) with
    | none => rfl
    | some sysId => rfl
  · rw [if_neg unnamed]
    cases definition.filter (· ≠ []) with
    | none => rfl
    | some sysId => rfl

theorem lookup_source_id {ciSysId : Text} {definition : Option Text} {finding : Finding}
    (spares : Spares config (links finding) "source_id".toList) :
    (itemPayload links config ciSysId definition finding).lookup "source_id".toList =
      if finding.vulnId = [] then none else some finding.vulnId := by
  unfold itemPayload
  rw [List.append_assoc, List.append_assoc, List.lookup_append, lookup_urlEntry spares,
    List.lookup_append, List.lookup_append]
  by_cases unnamed : finding.vulnId = []
  · rw [if_pos unnamed, if_pos unnamed]
    cases definition.filter (· ≠ []) with
    | none => rfl
    | some sysId => rfl
  · rw [if_neg unnamed, if_neg unnamed]
    cases definition.filter (· ≠ []) with
    | none => rfl
    | some sysId => rfl

/-- The fields a vulnerable item is found by. -/
structure SparesItem (config : Config) (links : Links) : Prop where
  ci : Spares config links "cmdb_ci".toList
  vulnerability : Spares config links "vulnerability".toList
  source : Spares config links "source_id".toList

@[simp] theorem get_cmdb_ci (row : Row) :
    row.get "cmdb_ci".toList = (row.fields.lookup "cmdb_ci".toList).getD [] :=
  if_neg (by decide)

@[simp] theorem get_vulnerability (row : Row) :
    row.get "vulnerability".toList = (row.fields.lookup "vulnerability".toList).getD [] :=
  if_neg (by decide)

@[simp] theorem get_source_id (row : Row) :
    row.get "source_id".toList = (row.fields.lookup "source_id".toList).getD [] :=
  if_neg (by decide)

/-- The row an item becomes when it is updated for a finding. -/
def updatedRow (links : Finding → Links) (config : Config) (ciSysId : Text)
    (definition : Option Text) (finding : Finding) (row : Row) : Row :=
  { row with fields := itemPayload links config ciSysId definition finding ++ row.fields }

theorem updatedRow_cmdb_ci {ciSysId : Text} {definition : Option Text} {finding : Finding}
    (spares : SparesItem config (links finding)) (row : Row) :
    (updatedRow links config ciSysId definition finding row).get "cmdb_ci".toList = ciSysId := by
  rw [get_cmdb_ci, updatedRow, List.lookup_append, lookup_cmdb_ci spares.ci]
  rfl

theorem updatedRow_vulnerability {ciSysId : Text} {definition : Option Text} {finding : Finding}
    (spares : SparesItem config (links finding)) (row : Row) :
    (updatedRow links config ciSysId definition finding row).get "vulnerability".toList =
      (definition.filter (· ≠ [])).getD (row.get "vulnerability".toList) := by
  rw [get_vulnerability, updatedRow, List.lookup_append, lookup_vulnerability spares.vulnerability,
    get_vulnerability]
  cases definition.filter (· ≠ []) with
  | none => rfl
  | some sysId => rfl

theorem updatedRow_source_id {ciSysId : Text} {definition : Option Text} {finding : Finding}
    (spares : SparesItem config (links finding)) (row : Row) :
    (updatedRow links config ciSysId definition finding row).get "source_id".toList =
      if finding.vulnId = [] then row.get "source_id".toList else finding.vulnId := by
  rw [get_source_id, updatedRow, List.lookup_append, lookup_source_id spares.source, get_source_id]
  split
  · rfl
  · rfl

/-! ## What an item is about -/

/-- A definition of one of a finding's CVEs or of its vulnerability id. -/
def DefinitionOf (finding : Finding) (row : Row) : Prop :=
  row.get "id".toList ∈ finding.cves ∨ row.get "cve".toList ∈ finding.cves ∨
    finding.vulnId ≠ [] ∧
      (row.get "source_id".toList = finding.vulnId ∨ row.get "id".toList = finding.vulnId)

/-- An item refers to a definition of the finding. -/
def RefersTo (definitions : List Row) (finding : Finding) (item : Row) : Prop :=
  ∃ row ∈ definitions, row.sysId = item.get "vulnerability".toList ∧ DefinitionOf finding row

/-- An item is about the vulnerability of the finding. -/
def About (definitions : List Row) (finding : Finding) (item : Row) : Prop :=
  RefersTo definitions finding item ∨
    finding.vulnId ≠ [] ∧ item.get "source_id".toList = finding.vulnId

/-- Two findings are about the same vulnerability: they share a CVE or the vulnerability id, or a
definition is of both. -/
def SameVulnerability (definitions : List Row) (finding other : Finding) : Prop :=
  (∃ cve ∈ finding.cves, cve ∈ other.cves) ∨
    (finding.vulnId ≠ [] ∧ finding.vulnId = other.vulnId) ∨
    ∃ row ∈ definitions, DefinitionOf finding row ∧ DefinitionOf other row

/-- The items that a finding changes are on its CI, and about its vulnerability. -/
def Touches (config : Config) (before : World) (request : Request) (after : World) : Prop :=
  ∀ row ∈ before.tables.items.rows, row ∉ after.tables.items.rows →
    ∃ ci, lookupCi config before.tables.cis request.1 request.2 = some ci ∧
      row.get "cmdb_ci".toList = ci.sysId ∧
      About after.tables.definitions.rows request.1 row

theorem RefersTo.mono {definitions later : List Row} {finding : Finding} {item : Row}
    (refers : RefersTo definitions finding item) (grown : definitions ⊆ later) :
    RefersTo later finding item := by
  obtain ⟨row, member, same, isOf⟩ := refers
  exact ⟨row, grown member, same, isOf⟩

theorem RefersTo.vulnerability_ne {definitions : List Row} {finding : Finding} {item : Row}
    (refers : RefersTo definitions finding item) : item.get "vulnerability".toList ≠ [] := by
  obtain ⟨row, -, same, -⟩ := refers
  exact same ▸ row.named

/-! ## Definitions -/

theorem definitionOf_of_query {finding : Finding} {row : Row} {query : Clause}
    (member : query ∈ definitionQueries finding) (holds : query.holds row = true) :
    DefinitionOf finding row := by
  have same : row.get query.1 = query.2 := beq_iff_eq.mp holds
  rcases List.mem_append.mp member with exact_ | vague
  · cases isCves : finding.cves with
    | nil =>
        rw [isCves] at exact_
        cases exact_
    | cons cve cves =>
        rw [isCves] at exact_
        simp only [List.mem_cons, List.not_mem_nil, or_false] at exact_
        rcases exact_ with rfl | rfl
        · exact .inl (by rw [same, isCves]; exact List.mem_cons_self)
        · exact .inr (.inl (by rw [same, isCves]; exact List.mem_cons_self))
  · split at vague
    · cases vague
    · rename_i identified
      simp only [List.mem_cons, List.not_mem_nil, or_false] at vague
      rcases vague with rfl | rfl
      · exact .inr (.inr ⟨identified, .inl same⟩)
      · exact .inr (.inr ⟨identified, .inr same⟩)

theorem mem_of_search {definitions : List Row} {fails : Nat → Bool} {position : Nat}
    {queries : List Clause} {row : Row}
    (found : searchDefinitions definitions fails position queries = .found row) :
    row ∈ definitions ∧ ∃ query ∈ queries, query.holds row = true := by
  induction queries generalizing position with
  | nil => cases found
  | cons query queries induction =>
      rw [searchDefinitions] at found
      split at found
      · cases found
      · split at found
        · rename_i other isOther
          cases found
          exact ⟨List.mem_of_find?_eq_some isOther, query, List.mem_cons_self,
            List.find?_some isOther⟩
        · obtain ⟨member, other, isOther, holds⟩ := induction found
          exact ⟨member, other, List.mem_cons_of_mem _ isOther, holds⟩

/-- A finding that a definition can be looked up for. -/
def Identified (finding : Finding) : Prop := finding.cves ≠ [] ∨ finding.vulnId ≠ []

/-- The definition that is created for a finding meets the first of its queries. -/
theorem first_query_holds {finding : Finding} (identified : Identified finding) (row : Row)
    (payload : row.fields = definitionPayload config finding) :
    ∃ query queries, definitionQueries finding = query :: queries ∧ query.holds row = true := by
  have read (field : Text) (apart : field ≠ "sys_id".toList) :
      row.get field = ((definitionPayload config finding).lookup field).getD [] := by
    rw [Row.get, if_neg apart, payload]
  cases isCves : finding.cves with
  | cons cve cves =>
      refine ⟨("id".toList, cve), _, by rw [definitionQueries, isCves]; rfl, beq_iff_eq.mpr ?_⟩
      dsimp only
      rw [read "id".toList (by decide), definitionPayload, isCves]
      rfl
  | nil =>
      have named : finding.vulnId ≠ [] := identified.resolve_left fun cves => cves isCves
      refine ⟨("source_id".toList, finding.vulnId), _, by
        rw [definitionQueries, isCves, if_neg named]; rfl, beq_iff_eq.mpr ?_⟩
      dsimp only
      rw [read "source_id".toList (by decide), definitionPayload, isCves]
      simp only [if_neg named]
      rfl

/-- The row of the definition that is created. -/
def newDefinition (server : Server) (config : Config) (definitions : Table Row.sysId)
    (finding : Finding) : Row :=
  ⟨server.newId definitions.rows, server.newId_ne_nil definitions, definitionPayload config finding⟩

theorem definitionOf_newDefinition {definitions : Table Row.sysId} {finding : Finding}
    (identified : Identified finding) :
    DefinitionOf finding (newDefinition server config definitions finding) := by
  obtain ⟨query, queries, isQueries, holds⟩ :=
    first_query_holds identified (newDefinition server config definitions finding) rfl
  exact definitionOf_of_query (isQueries ▸ List.mem_cons_self) holds

theorem rows_post (table : Table Row.sysId) (payload : List (Text × Text)) :
    (server.post table payload).rows =
      table.rows ++ [⟨server.newId table.rows, server.named table.rows, payload⟩] := by
  have kept : (table.rows.filter fun row => decide (row.sysId ≠ server.newId table.rows)) =
      table.rows := by
    refine List.filter_eq_self.mpr fun row member => decide_eq_true fun same => ?_
    exact server.fresh table.rows (same ▸ List.mem_map_of_mem member)
  exact congrArg (· ++ [_]) kept

/-- What `find_or_create_vulnerability_def` finds or creates. -/
theorem definition_cases (server : Server) (config : Config) (definitions : Table Row.sysId)
    (finding : Finding) (faults : Faults) :
    ((findOrCreateDefinition server config definitions finding faults).2 = definitions ∧
      ∀ sysId, (findOrCreateDefinition server config definitions finding faults).1 = some sysId →
        ∃ row, searchDefinitions definitions.rows faults.definition 0 (definitionQueries finding) =
          .found row ∧ row.sysId = sysId) ∨
    (searchDefinitions definitions.rows faults.definition 0 (definitionQueries finding) = .missing ∧
      (findOrCreateDefinition server config definitions finding faults).2.rows =
        definitions.rows ++ [newDefinition server config definitions finding] ∧
      ∀ sysId, (findOrCreateDefinition server config definitions finding faults).1 = some sysId →
        (newDefinition server config definitions finding).sysId = sysId) := by
  unfold findOrCreateDefinition
  split
  · exact .inl ⟨rfl, fun sysId found => nomatch found⟩
  · split
    · exact .inl ⟨rfl, fun sysId found => nomatch found⟩
    · rename_i row isFound
      exact .inl ⟨rfl, fun sysId found => ⟨row, isFound, Option.some.inj found⟩⟩
    · rename_i isMissing
      split
      · exact .inl ⟨rfl, fun sysId found => nomatch found⟩
      · dsimp only
        split
        · exact .inr ⟨isMissing, rows_post _ _, fun sysId found => Option.some.inj found⟩
        · exact .inl ⟨rfl, fun sysId found => nomatch found⟩
        · exact .inr ⟨isMissing, rows_post _ _, fun sysId found => nomatch found⟩

/-- The definition of a finding in a push, with the definitions after it. -/
def definitionFor (server : Server) (config : Config) (tables : Tables) (finding : Finding)
    (faults : Faults) : Option Text × Table Row.sysId :=
  if config.createVulnerableItems then
    findOrCreateDefinition server config tables.definitions finding faults
  else (none, tables.definitions)

theorem definitions_grow (tables : Tables) (finding : Finding) (faults : Faults) :
    tables.definitions.rows ⊆
      (definitionFor server config tables finding faults).2.rows := by
  unfold definitionFor
  split
  · rcases definition_cases server config tables.definitions finding faults with
      ⟨same, -⟩ | ⟨-, rows, -⟩
    · rw [same]
      exact List.Subset.refl _
    · rw [rows]
      exact List.subset_append_left _ _
  · exact List.Subset.refl _

theorem definitionFor_spec {tables : Tables} {finding : Finding} {faults : Faults} {sysId : Text}
    (identified : config.createVulnerableItems = true → Identified finding)
    (found : (definitionFor server config tables finding faults).1 = some sysId) :
    ∃ row ∈ (definitionFor server config tables finding faults).2.rows, row.sysId = sysId ∧
      DefinitionOf finding row := by
  unfold definitionFor at found ⊢
  split at found
  · rename_i creates
    rw [if_pos creates]
    rcases definition_cases server config tables.definitions finding faults with
      ⟨same, isFound⟩ | ⟨-, rows, isNew⟩
    · obtain ⟨row, isRow, isId⟩ := isFound sysId found
      obtain ⟨member, query, isQuery, holds⟩ := mem_of_search isRow
      exact ⟨row, by rw [same]; exact member, isId, definitionOf_of_query isQuery holds⟩
    · refine ⟨newDefinition server config tables.definitions finding, ?_, isNew sysId found,
        definitionOf_newDefinition (identified creates)⟩
      rw [rows]
      exact List.mem_append_right _ List.mem_cons_self
  · cases found

/-! ## One finding -/

/-- What is written for a finding, and the item it ends in. -/
inductive Wrote (server : Server) (links : Finding → Links) (config : Config) (tables : Tables)
    (finding : Finding) (ci : Row) (definition : Option Text) (existing : Option Row) :
    Option Text → Table Row.sysId → Prop where
  | nothing : Wrote server links config tables finding ci definition existing none tables.items
  | skipped (row : Row) (found : existing = some row) :
      Wrote server links config tables finding ci definition existing (some row.sysId) tables.items
  | updated (row : Row) (found : existing = some row) (item : Option Text)
      (isItem : ∀ sysId, item = some sysId → sysId = row.sysId) :
      Wrote server links config tables finding ci definition existing item
        (patch tables.items row.sysId (itemPayload links config ci.sysId definition finding))
  | created (absent : existing = none) (creates : config.createVulnerableItems = true)
      (item : Option Text) (isItem : ∀ sysId, item = some sysId → sysId = server.newId tables.items.rows) :
      Wrote server links config tables finding ci definition existing item
        (server.post tables.items (itemPayload links config ci.sysId definition finding))

theorem wrote_upsertItem (tables : Tables) (finding : Finding) (ci : Row)
    (definition : Option Text) (existing : Option Row) (fate : Fate) :
    Wrote server links config tables finding ci definition existing
      (upsertItem server links config tables.items ci definition finding existing fate).1.item
      (upsertItem server links config tables.items ci definition finding existing fate).2 := by
  unfold upsertItem
  cases existing with
  | none =>
      dsimp only [Option.filter_none]
      split
      · exact .nothing
      · rename_i creates
        have creates : config.createVulnerableItems = true := by simpa using creates
        cases fate with
        | done => exact .created rfl creates _ fun _ same => (Option.some.inj same).symm
        | refused problem => exact .nothing
        | unanswered problem => exact .created rfl creates _ fun _ same => nomatch same
  | some row =>
      have named : (some row).filter (fun row : Row => decide (row.sysId ≠ [])) = some row := by
        simp [Option.filter, row.named]
      simp only [named]
      split
      · exact .skipped row rfl
      · cases fate with
        | done => exact .updated row rfl _ fun _ same => (Option.some.inj same).symm
        | refused problem => exact .nothing
        | unanswered problem => exact .updated row rfl _ fun _ same => nomatch same

variable (server links config) in
/-- What `link_finding_to_cmdb` does. -/
theorem link_cases (tables : Tables) (finding : Finding) (faults : Faults) :
    (lookupCi config tables.cis finding faults = none ∧
      (link server links config tables finding faults).2 = tables ∧
      (link server links config tables finding faults).1.item = none) ∨
    ∃ ci, lookupCi config tables.cis finding faults = some ci ∧
      (link server links config tables finding faults).2.cis = tables.cis ∧
      (link server links config tables finding faults).2.definitions =
        (definitionFor server config tables finding faults).2 ∧
      Wrote server links config tables finding ci
        (definitionFor server config tables finding faults).1
        (findItem tables.items.rows ci.sysId (definitionFor server config tables finding faults).1
          finding faults)
        (link server links config tables finding faults).1.item
        (link server links config tables finding faults).2.items := by
  unfold link
  cases lookupCi config tables.cis finding faults with
  | none => exact .inl ⟨rfl, rfl, rfl⟩
  | some ci =>
      refine .inr ⟨ci, rfl, ?_⟩
      simp only [← definitionFor.eq_def]
      split
      · exact ⟨rfl, rfl, .nothing⟩
      · split
        · exact ⟨rfl, rfl, .nothing⟩
        · split
          · exact ⟨rfl, rfl, .nothing⟩
          · exact ⟨rfl, rfl, wrote_upsertItem _ _ _ _ _ _⟩

/-! ## Pushes that are kept clear -/

/-- What a finding is kept clear of: a custom field an item is found by, a finding without ids where
definitions are created, an item of another vulnerability that is found without a definition, and a new
definition that an earlier finding on another CI would select. -/
structure Clear (server : Server) (links : Finding → Links) (config : Config) (before : World)
    (request : Request) (_ : World) : Prop where
  spares : SparesItem config (links request.1)
  identified : config.createVulnerableItems = true →
    (lookupCi config before.tables.cis request.1 request.2).isSome = true → Identified request.1
  fallback : ∀ ci row, lookupCi config before.tables.cis request.1 request.2 = some ci →
    (definitionFor server config before.tables request.1 request.2).1 = none →
    findItem before.tables.items.rows ci.sysId none request.1 request.2 = some row →
    RefersTo before.tables.definitions.rows request.1 row ∨
      request.1.vulnId ≠ [] ∧ row.get "vulnerability".toList = []
  unselected : config.createVulnerableItems = true →
    ∀ ci, lookupCi config before.tables.cis request.1 request.2 = some ci →
    searchDefinitions before.tables.definitions.rows (fun _ => false) 0
      (definitionQueries request.1) = .missing →
    ∀ earlier ∈ before.linked, ∀ other,
      lookupCi config before.tables.cis earlier.1 Faults.none = some other →
      other.sysId ≠ ci.sysId →
      searchDefinitions
        (before.tables.definitions.rows ++
          [newDefinition server config before.tables.definitions request.1])
        (fun _ => false) 0 (definitionQueries earlier.1) ≠
        .found (newDefinition server config before.tables.definitions request.1)

theorem findItem_spec {items : List Row} {ciSysId : Text} {definition : Option Text}
    {finding : Finding} {faults : Faults} {row : Row}
    (named : ∀ sysId, definition = some sysId → sysId ≠ [])
    (found : findItem items ciSysId definition finding faults = some row) :
    row ∈ items ∧ row.get "cmdb_ci".toList = ciSysId ∧
      (∀ sysId, definition = some sysId → row.get "vulnerability".toList = sysId) ∧
      (definition = none → finding.vulnId ≠ [] →
        row.get "source_id".toList = finding.vulnId) := by
  unfold findItem at found
  split at found
  · cases found
  · have holds := List.find?_some found
    have clauses : ∀ clause ∈ itemClauses ciSysId definition finding,
        row.get clause.1 = clause.2 := fun clause member =>
      beq_iff_eq.mp (List.all_eq_true.mp holds clause member)
    refine ⟨List.mem_of_find?_eq_some found, clauses _ List.mem_cons_self, ?_, ?_⟩
    · rintro sysId rfl
      refine clauses ("vulnerability".toList, sysId) (List.mem_cons_of_mem _ ?_)
      simp [Option.filter, named sysId rfl]
    · rintro rfl identified
      refine clauses ("source_id".toList, finding.vulnId) (List.mem_cons_of_mem _ ?_)
      simp [identified]

theorem definitionFor_named {tables : Tables} {finding : Finding} {faults : Faults} :
    ∀ sysId, (definitionFor server config tables finding faults).1 = some sysId → sysId ≠ [] := by
  intro sysId found
  unfold definitionFor at found
  split at found
  · rcases definition_cases server config tables.definitions finding faults with
      ⟨-, isFound⟩ | ⟨-, -, isNew⟩
    · obtain ⟨row, -, isId⟩ := isFound sysId found
      exact isId ▸ row.named
    · exact isNew sysId found ▸ (newDefinition _ _ _ _).named
  · cases found

/-- An item that is found for a finding refers to a definition of it, or to none while it carries the
source id. -/
theorem Clear.matched {before after : World} {request : Request}
    (clear : Clear server links config before request after) {ci row : Row}
    (isCi : lookupCi config before.tables.cis request.1 request.2 = some ci)
    (found : findItem before.tables.items.rows ci.sysId
      (definitionFor server config before.tables request.1 request.2).1 request.1 request.2 =
        some row) :
    RefersTo (definitionFor server config before.tables request.1 request.2).2.rows request.1 row ∨
      row.get "vulnerability".toList = [] ∧ request.1.vulnId ≠ [] ∧
        row.get "source_id".toList = request.1.vulnId := by
  obtain ⟨-, -, refers, carries⟩ := findItem_spec definitionFor_named found
  cases isDefinition : (definitionFor server config before.tables request.1 request.2).1 with
  | some sysId =>
      obtain ⟨definition, member, isId, isOf⟩ := definitionFor_spec
        (fun creates => clear.identified creates (by rw [isCi]; rfl)) isDefinition
      exact .inl ⟨definition, member, isId.trans (refers sysId isDefinition).symm, isOf⟩
  | none =>
      rw [isDefinition] at found
      rcases clear.fallback ci row isCi isDefinition found with refers | ⟨named, unrefering⟩
      · exact .inl (refers.mono (definitions_grow _ _ _))
      · exact .inr ⟨unrefering, named, carries isDefinition named⟩

theorem rows_patch (table : Table Row.sysId) {row : Row} (member : row ∈ table.rows)
    (ciSysId : Text) (definition : Option Text) (finding : Finding) {other : Row} :
    other ∈ (patch table row.sysId (itemPayload links config ciSysId definition finding)).rows ↔
      (other ∈ table.rows ∧ other ≠ row) ∨
        other = updatedRow links config ciSysId definition finding row := by
  have same {row' : Row} (isRow : row' ∈ table.rows) (isId : row'.sysId = row.sysId) : row' = row :=
    List.inj_on_of_nodup_map table.distinct isRow member isId
  constructor
  · intro isOther
    obtain ⟨old, isOld, rfl⟩ := List.mem_map.mp isOther
    split
    · rename_i isId
      rw [same isOld isId]
      exact .inr rfl
    · rename_i apart
      exact .inl ⟨isOld, fun isRow => apart (congrArg Row.sysId isRow)⟩
  · rintro (⟨isOld, apart⟩ | rfl)
    · exact List.mem_map.mpr ⟨other, isOld, if_neg fun isId => apart (same isOld isId)⟩
    · exact List.mem_map.mpr ⟨row, member, if_pos rfl⟩

theorem Clear.touches {before after : World} {request : Request}
    (taken : step server links config before request = some after)
    (clear : Clear server links config before request after) :
    Touches config before request after := by
  obtain rfl := Option.some.inj taken
  intro row member gone
  rcases link_cases server links config before.tables request.1
    request.2 with ⟨-, same, -⟩ | ⟨ci, isCi, -, definitions, wrote⟩
  · refine absurd ?_ gone
    rw [linkNext, same]
    exact member
  · rw [linkNext] at gone ⊢
    dsimp only at gone ⊢
    generalize (link server links config before.tables request.1 request.2).2.items = items
      at gone wrote
    generalize (link server links config before.tables request.1 request.2).1.item = ended
      at wrote
    cases wrote with
    | nothing => exact absurd member gone
    | skipped found => exact absurd member gone
    | updated found isFound =>
        obtain ⟨isRow, isOn, -, -⟩ := findItem_spec definitionFor_named isFound
        obtain rfl : row = found := by
          by_contra apart
          exact gone ((rows_patch _ isRow _ _ _).mpr (.inl ⟨member, apart⟩))
        refine ⟨ci, isCi, isOn, ?_⟩
        rw [definitions]
        exact (clear.matched isCi isFound).imp id And.right
    | created absent creates =>
        refine absurd ?_ gone
        rw [rows_post]
        exact List.mem_append_left _ member

/-! ## Items that findings end in -/

/-- What a row has kept: its CI, what it refers to, and its source id where it refers to nothing. -/
structure Keeps (row other : Row) : Prop where
  sysId : other.sysId = row.sysId
  ci : other.get "cmdb_ci".toList = row.get "cmdb_ci".toList
  vulnerability : other.get "vulnerability".toList = row.get "vulnerability".toList
  source : row.get "vulnerability".toList = [] →
    other.get "source_id".toList = row.get "source_id".toList

theorem Keeps.refl (row : Row) : Keeps row row := ⟨rfl, rfl, rfl, fun _ => rfl⟩

/-- What an item that a finding ended in goes on to be: it refers to a definition of the finding, or to
none while it carries the source id, or nothing can be told of it. -/
def Tied (definitions : List Row) (finding : Finding) (row : Row) : Prop :=
  RefersTo definitions finding row ∨
    row.get "vulnerability".toList = [] ∧
      (finding.vulnId ≠ [] ∧ row.get "source_id".toList = finding.vulnId ∨
        row.get "source_id".toList = [])

theorem Tied.mono {definitions later : List Row} {finding : Finding} {row : Row}
    (tied : Tied definitions finding row) (grown : definitions ⊆ later) :
    Tied later finding row :=
  tied.imp (·.mono grown) id

/-- An item that keeps what it refers to, and its source id where it refers to nothing, stays tied. -/
theorem Tied.of_keeps {definitions : List Row} {finding : Finding} {row other : Row}
    (tied : Tied definitions finding row) (keeps : Keeps row other) :
    Tied definitions finding other := by
  rcases tied with ⟨definition, member, isId, isOf⟩ | ⟨unrefering, carries⟩
  · exact .inl ⟨definition, member, isId.trans keeps.vulnerability.symm, isOf⟩
  · refine .inr ⟨keeps.vulnerability.trans unrefering, ?_⟩
    rw [keeps.source unrefering]
    exact carries

theorem SameVulnerability.mono {definitions later : List Row} {finding other : Finding}
    (same : SameVulnerability definitions finding other) (grown : definitions ⊆ later) :
    SameVulnerability later finding other :=
  same.imp id (Or.imp id fun ⟨row, member, both⟩ => ⟨row, grown member, both⟩)

/-- Every item a finding ended in is tied to it, and findings that end in one item are about one
vulnerability. -/
structure Ends (world : World) : Prop where
  tied : ∀ entry ∈ world.linked, ∀ sysId, entry.2.item = some sysId →
    ∃ row ∈ world.tables.items.rows, row.sysId = sysId ∧
      Tied world.tables.definitions.rows entry.1 row
  apart : world.linked.Pairwise fun earlier later => ∀ sysId, earlier.2.item = some sysId →
    later.2.item = some sysId →
      SameVulnerability world.tables.definitions.rows earlier.1 later.1

theorem ends_start (tables : Tables) : Ends (World.start tables) where
  tied _ member := nomatch member
  apart := .nil

theorem keeps_updatedRow {items : List Row} {ciSysId : Text} {definition : Option Text}
    {finding : Finding} {faults : Faults} {row : Row}
    (spares : SparesItem config (links finding))
    (named : ∀ sysId, definition = some sysId → sysId ≠ [])
    (found : findItem items ciSysId definition finding faults = some row) :
    Keeps row (updatedRow links config ciSysId definition finding row) := by
  obtain ⟨-, isOn, refers, carries⟩ := findItem_spec named found
  refine ⟨rfl, (updatedRow_cmdb_ci spares row).trans isOn.symm, ?_, ?_⟩
  · rw [updatedRow_vulnerability spares]
    cases definition with
    | none => rfl
    | some sysId =>
        rw [refers sysId rfl]
        simp [Option.filter, named sysId rfl]
  · intro unrefering
    rw [updatedRow_source_id spares]
    cases definition with
    | some sysId => exact absurd ((refers sysId rfl).symm.trans unrefering) (named sysId rfl)
    | none =>
        split
        · rfl
        · rename_i identified
          exact (carries rfl identified).symm

theorem Wrote.keeps {tables : Tables} {finding : Finding} {faults : Faults} {ci : Row}
    {definition item : Option Text} {items : Table Row.sysId}
    (spares : SparesItem config (links finding))
    (named : ∀ sysId, definition = some sysId → sysId ≠ [])
    (wrote : Wrote server links config tables finding ci definition
      (findItem tables.items.rows ci.sysId definition finding faults) item items) :
    ∀ row ∈ tables.items.rows, ∃ other ∈ items.rows, Keeps row other := by
  intro row member
  cases wrote with
  | nothing => exact ⟨row, member, .refl row⟩
  | skipped found isFound => exact ⟨row, member, .refl row⟩
  | updated found isFound item isItem =>
      obtain ⟨isRow, -⟩ := findItem_spec named isFound
      by_cases same : row = found
      · subst same
        exact ⟨_, (rows_patch _ isRow _ _ _).mpr (.inr rfl), keeps_updatedRow spares named isFound⟩
      · exact ⟨row, (rows_patch _ isRow _ _ _).mpr (.inl ⟨member, same⟩), .refl row⟩
  | created absent creates item isItem =>
      refine ⟨row, ?_, .refl row⟩
      rw [rows_post]
      exact List.mem_append_left _ member

/-- A finding ends in an item that was found for it, or in a new one that is tied to it. -/
theorem Clear.ends_in {before after : World} {request : Request}
    (clear : Clear server links config before request after) {ci : Row} {item : Option Text}
    {items : Table Row.sysId}
    (isCi : lookupCi config before.tables.cis request.1 request.2 = some ci)
    (wrote : Wrote server links config before.tables request.1 ci
      (definitionFor server config before.tables request.1 request.2).1
      (findItem before.tables.items.rows ci.sysId
        (definitionFor server config before.tables request.1 request.2).1 request.1 request.2)
      item items) :
    ∀ sysId, item = some sysId →
      (∃ row ∈ before.tables.items.rows, row.sysId = sysId ∧
        (RefersTo (definitionFor server config before.tables request.1 request.2).2.rows request.1
            row ∨
          row.get "vulnerability".toList = [] ∧ request.1.vulnId ≠ [] ∧
            row.get "source_id".toList = request.1.vulnId)) ∨
      (∀ row ∈ before.tables.items.rows, row.sysId ≠ sysId) ∧
        ∃ row ∈ items.rows, row.sysId = sysId ∧
          Tied (definitionFor server config before.tables request.1 request.2).2.rows request.1
            row := by
  cases wrote with
  | nothing =>
      intro _ same
      cases same
  | skipped found isFound =>
      rintro _ ⟨⟩
      obtain ⟨isRow, -⟩ := findItem_spec definitionFor_named isFound
      exact .inl ⟨found, isRow, rfl, clear.matched isCi isFound⟩
  | updated found isFound item isItem =>
      obtain ⟨isRow, -⟩ := findItem_spec definitionFor_named isFound
      exact fun sysId same => .inl ⟨found, isRow, (isItem sysId same).symm, clear.matched isCi isFound⟩
  | created absent creates item isItem =>
      refine fun sysId same => .inr ⟨?_, ?_⟩
      · intro row member isId
        refine server.fresh before.tables.items.rows ?_
        rw [← isItem sysId same, ← isId]
        exact List.mem_map_of_mem member
      · refine ⟨_, by rw [rows_post]; exact List.mem_append_right _ List.mem_cons_self,
          (isItem sysId same).symm, ?_⟩
        cases isDefinition : (definitionFor server config before.tables request.1 request.2).1 with
        | some definition =>
            obtain ⟨row, member, isId, isOf⟩ := definitionFor_spec
              (fun creates => clear.identified creates (by rw [isCi]; rfl)) isDefinition
            refine .inl ⟨row, member, ?_, isOf⟩
            rw [get_vulnerability, lookup_vulnerability clear.spares.vulnerability]
            simp [Option.filter, definitionFor_named definition isDefinition, isId]
        | none =>
            refine .inr ⟨?_, ?_⟩
            · rw [get_vulnerability, lookup_vulnerability clear.spares.vulnerability]
              rfl
            · rw [get_source_id, lookup_source_id clear.spares.source]
              by_cases named : request.1.vulnId = []
              · rw [if_pos named]
                exact .inr rfl
              · rw [if_neg named]
                exact .inl ⟨named, rfl⟩

/-- A finding that an item was found for is about the vulnerability of every finding tied to it. -/
theorem same_of_tied {definitions : Table Row.sysId} {finding other : Finding} {row : Row}
    (tied : Tied definitions.rows finding row)
    (found : RefersTo definitions.rows other row ∨ row.get "vulnerability".toList = [] ∧
      other.vulnId ≠ [] ∧ row.get "source_id".toList = other.vulnId) :
    SameVulnerability definitions.rows finding other := by
  rcases tied with refers | ⟨unrefering, carries⟩
  · rcases found with refers' | ⟨unrefering, -⟩
    · obtain ⟨first, isFirst, firstId, firstOf⟩ := refers
      obtain ⟨second, isSecond, secondId, secondOf⟩ := refers'
      obtain rfl : first = second := List.inj_on_of_nodup_map definitions.distinct isFirst isSecond
        (firstId.trans secondId.symm)
      exact .inr (.inr ⟨first, isFirst, firstOf, secondOf⟩)
    · exact absurd unrefering refers.vulnerability_ne
  · rcases found with refers | ⟨-, named, carries'⟩
    · exact absurd unrefering refers.vulnerability_ne
    · rcases carries with ⟨isNamed, same⟩ | unnamed
      · exact .inr (.inl ⟨isNamed, same.symm.trans carries'⟩)
      · exact absurd (carries'.symm.trans unnamed) named

theorem Ends.kept {before after : World} {request : Request} (ends : Ends before)
    (taken : step server links config before request = some after)
    (clear : Clear server links config before request after) : Ends after := by
  obtain rfl := Option.some.inj taken
  rcases link_cases server links config before.tables request.1
    request.2 with ⟨-, same, none⟩ | ⟨ci, isCi, -, definitions, wrote⟩
  · constructor
    · intro entry member sysId isItem
      rw [linkNext, same]
      rcases List.mem_append.mp member with old | new
      · exact ends.tied entry old sysId isItem
      · obtain rfl := List.mem_singleton.mp new
        rw [none] at isItem
        cases isItem
    · rw [linkNext, same]
      refine List.pairwise_append.mpr ⟨ends.apart, List.pairwise_singleton _ _, ?_⟩
      intro entry _ new isNew sysId _ isItem
      obtain rfl := List.mem_singleton.mp isNew
      rw [none] at isItem
      cases isItem
  · have kept := wrote.keeps clear.spares definitionFor_named
    have ended := clear.ends_in isCi wrote
    have grown : before.tables.definitions.rows ⊆
        (definitionFor server config before.tables request.1 request.2).2.rows :=
      definitions_grow _ _ _
    have tied {finding : Finding} {row : Row}
        (isTied : Tied before.tables.definitions.rows finding row)
        (member : row ∈ before.tables.items.rows) :
        ∃ other ∈ (link server links config before.tables request.1 request.2).2.items.rows,
          other.sysId = row.sysId ∧
          Tied (definitionFor server config before.tables request.1 request.2).2.rows finding
            other := by
      obtain ⟨other, isOther, keeps⟩ := kept row member
      exact ⟨other, isOther, keeps.sysId, (isTied.mono grown).of_keeps keeps⟩
    constructor
    · intro entry member sysId isItem
      rw [linkNext]
      dsimp only
      rw [definitions]
      rcases List.mem_append.mp member with old | new
      · obtain ⟨row, isRow, rfl, isTied⟩ := ends.tied entry old sysId isItem
        exact tied isTied isRow
      · obtain rfl := List.mem_singleton.mp new
        rcases ended sysId isItem with ⟨row, isRow, rfl, found⟩ | ⟨-, row, isRow, isId, isTied⟩
        · obtain ⟨other, isOther, keeps⟩ := kept row isRow
          refine ⟨other, isOther, keeps.sysId, Tied.of_keeps ?_ keeps⟩
          rcases found with refers | ⟨unrefering, carries⟩
          · exact .inl refers
          · exact .inr ⟨unrefering, .inl carries⟩
        · exact ⟨row, isRow, isId, isTied⟩
    · rw [linkNext]
      dsimp only
      rw [definitions]
      refine List.pairwise_append.mpr
        ⟨ends.apart.imp fun same sysId first second => (same sysId first second).mono grown,
          List.pairwise_singleton _ _, ?_⟩
      intro entry old new isNew sysId isItem isItem'
      obtain rfl := List.mem_singleton.mp isNew
      obtain ⟨row, isRow, isId, isTied⟩ := ends.tied entry old sysId isItem
      rcases ended sysId isItem' with ⟨other, isOther, isId', found⟩ | ⟨fresh, -⟩
      · obtain rfl : row = other := List.inj_on_of_nodup_map before.tables.items.distinct isRow
          isOther (isId.trans isId'.symm)
        exact same_of_tied (isTied.mono grown) found
      · exact absurd isId (fresh row isRow)

end ServiceNow
end DomainLens
