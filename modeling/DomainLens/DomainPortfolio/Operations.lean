import DomainLens.DomainPortfolio.Hostnames
import DomainLens.DomainPortfolio.ImportLog
import DomainLens.DomainPortfolio.Merged
import DomainLens.Python.CaseMapping

/-!
# Runs of the portfolio

The operations people have on domains and units, taken in any order.  All of them log what they do but
the two that work on whole units, and an import that breaks off.
-/

namespace DomainLens
namespace DomainPortfolio

open Python Run

/-! ## Domains in a merge -/

def Domain.homeless (row : Domain) : Domain := { row with groupId := none }

/-- The domains are the same but for their units. -/
def Rehomed (before after : Portfolio) : Prop :=
  after.domains.map Domain.homeless = before.domains.map Domain.homeless

/-- The units under the source of a merge that are folded into their twins, those under them in
turn. -/
def foldedChildren (fold : GroupId → GroupId → Portfolio → Option Portfolio)
    (folded : GroupId → GroupId → Portfolio → List GroupId) (target : GroupId) :
    List Group → Portfolio → List GroupId
  | [], _ => []
  | child :: children, portfolio =>
      match find portfolio.groups child.name (some target) with
      | some twin =>
          folded child.id twin portfolio ++ (fold child.id twin portfolio).elim []
            (foldedChildren fold folded target children)
      | none => foldedChildren fold folded target children (portfolio.place child.id target)

/-- The units that a merge folds into others: the source, and those under it that have a namesake
where they would go. -/
def folded : Nat → GroupId → GroupId → Portfolio → List GroupId
  | 0, _, _, _ => []
  | limit + 1, source, target, portfolio =>
      source :: foldedChildren (fold limit) (folded limit) target (unitsUnder portfolio.groups source)
        (portfolio.moveDomains source (some target))

section Fold

variable {source target : GroupId} {portfolio after : Portfolio}

private theorem Rehomed.trans {before middle after : Portfolio} (first : Rehomed before middle)
    (second : Rehomed middle after) : Rehomed before after :=
  Eq.trans second first

private theorem rehomed_moveDomains (source : GroupId) (target : Option GroupId) :
    Rehomed portfolio (portfolio.moveDomains source target) := by
  unfold Rehomed Portfolio.moveDomains
  dsimp only
  rw [List.map_map]
  refine List.map_congr_left fun row _ => ?_
  simp only [Function.comp]
  split <;> rfl

private theorem domains_moveDomains (target : Option GroupId)
    (empty : ∀ row ∈ portfolio.domains, row.groupId ≠ some source) :
    (portfolio.moveDomains source target).domains = portfolio.domains := by
  refine (List.map_congr_left fun row member => ?_).trans (List.map_id _)
  exact if_neg (empty row member)

private theorem domains_bequeath : (portfolio.bequeath source target).domains = portfolio.domains := by
  unfold Portfolio.bequeath
  split <;> rfl

private theorem rehomed_foldChildren {fold : GroupId → GroupId → Portfolio → Option Portfolio}
    (kept : ∀ source target portfolio after, fold source target portfolio = some after →
      Rehomed portfolio after) {children : List Group}
    (done : foldChildren fold target children portfolio = some after) : Rehomed portfolio after := by
  induction children generalizing portfolio with
  | nil =>
      obtain rfl := Option.some.inj done
      rfl
  | cons child children induction =>
      unfold foldChildren at done
      split at done
      · obtain ⟨middle, first, rest⟩ := Option.bind_eq_some_iff.mp done
        exact (kept _ _ _ _ first).trans (induction rest)
      · exact @induction (portfolio.place child.id target) done

theorem rehomed_fold {limit : Nat} (done : fold limit source target portfolio = some after) :
    Rehomed portfolio after := by
  induction limit generalizing source target portfolio after with
  | zero => cases done
  | succ limit induction =>
      obtain ⟨middle, children, rfl⟩ := Option.map_eq_some_iff.mp done
      refine (rehomed_moveDomains source (some target)).trans ?_
      refine (rehomed_foldChildren (fun _ _ _ _ => induction) children).trans ?_
      exact congrArg (List.map Domain.homeless) domains_bequeath

private theorem domains_foldChildren {fold : GroupId → GroupId → Portfolio → Option Portfolio}
    {folded : GroupId → GroupId → Portfolio → List GroupId}
    (kept : ∀ source target portfolio after, fold source target portfolio = some after →
      (∀ row ∈ portfolio.domains, ∀ id ∈ row.groupId, id ∉ folded source target portfolio) →
      after.domains = portfolio.domains) {children : List Group}
    (done : foldChildren fold target children portfolio = some after)
    (empty : ∀ row ∈ portfolio.domains, ∀ id ∈ row.groupId,
      id ∉ foldedChildren fold folded target children portfolio) :
    after.domains = portfolio.domains := by
  induction children generalizing portfolio with
  | nil =>
      obtain rfl := Option.some.inj done
      rfl
  | cons child children induction =>
      unfold foldChildren at done
      unfold foldedChildren at empty
      split at done <;> rename_i found <;> rw [found] at empty
      · obtain ⟨middle, first, rest⟩ := Option.bind_eq_some_iff.mp done
        have same := kept _ _ _ _ first fun row member id isUnit held =>
          empty row member id isUnit (List.mem_append_left _ held)
        refine (induction rest fun row member id isUnit held => ?_).trans same
        refine empty row (same ▸ member) id isUnit (List.mem_append_right _ ?_)
        rw [first]
        exact held
      · exact @induction (portfolio.place child.id target) done empty

theorem domains_fold {limit : Nat} (done : fold limit source target portfolio = some after)
    (empty : ∀ row ∈ portfolio.domains, ∀ id ∈ row.groupId,
      id ∉ folded limit source target portfolio) :
    after.domains = portfolio.domains := by
  induction limit generalizing source target portfolio after with
  | zero => cases done
  | succ limit induction =>
      obtain ⟨middle, children, rfl⟩ := Option.map_eq_some_iff.mp done
      have moved := @domains_moveDomains source portfolio (some target) fun row member isUnit =>
        empty row member source isUnit List.mem_cons_self
      refine domains_bequeath.trans ((domains_foldChildren (fun _ _ _ _ => induction) children
        fun row member id isUnit held => ?_).trans moved)
      exact empty row (moved ▸ member) id isUnit (List.mem_cons_of_mem _ held)

end Fold

/-! ## The operations -/

theorem rehomed_mergeGroup {people : List Nat} {limit : Nat} {source target : GroupId}
    {portfolio after : Portfolio}
    (done : mergeGroup people limit source target portfolio = .ok after) : Rehomed portfolio after := by
  unfold mergeGroup at done
  split at done
  · split at done
    · cases done
    · split at done
      · cases done
      · split at done
        · rename_i result folds
          obtain rfl := Except.ok.inj done
          exact rehomed_fold folds
        · cases done
  · cases done

theorem Rehomed.ids {before after : Portfolio} (same : Rehomed before after) :
    after.domains.map Domain.id = before.domains.map Domain.id := by
  have ids := congrArg (List.map Domain.id) same
  rwa [List.map_map, List.map_map] at ids

theorem Rehomed.names {before after : Portfolio} (same : Rehomed before after) :
    after.domains.map Domain.domain = before.domains.map Domain.domain := by
  have names := congrArg (List.map Domain.domain) same
  rwa [List.map_map, List.map_map] at names

/-- A unit that is deleted takes some of the domains along, or leaves all of them. -/
theorem deleteGroup_cases (people : List Nat) (id : GroupId) (parentId : Option GroupId)
    (withContents : Bool) (portfolio : Portfolio) :
    (deleteGroup people id parentId withContents portfolio).domains.Sublist portfolio.domains ∨
      Rehomed portfolio (deleteGroup people id parentId withContents portfolio) := by
  unfold deleteGroup
  split
  · exact .inl List.filter_sublist
  · exact .inr (rehomed_moveDomains id parentId)

namespace Books

/-- `merge_group`. -/
def mergeGroup (limit : Nat) (source target : GroupId) (books : Books) : Except MergeFailure Books :=
  match done : DomainPortfolio.mergeGroup books.people limit source target books.portfolio with
  | .error failure => .error failure
  | .ok after =>
      .ok (books.replace after ((rehomed_mergeGroup done).ids ▸ List.Sublist.refl _)
        ((rehomed_mergeGroup done).names ▸ List.Sublist.refl _))

/-- `delete_group`. -/
def deleteGroup (id : GroupId) (withContents : Bool) (books : Books) : Books :=
  match getGroup books.people books.portfolio.groups id with
  | none => books
  | some group =>
      have cases := deleteGroup_cases books.people id group.parentId withContents books.portfolio
      books.replace
        (DomainPortfolio.deleteGroup books.people id group.parentId withContents books.portfolio)
        (cases.elim (fun part => part.map Domain.id) fun same => same.ids ▸ List.Sublist.refl _)
        (cases.elim (fun part => part.map Domain.domain) fun same => same.names ▸ List.Sublist.refl _)

/-- `add_wanted`: the books, and the domains that were added and those that were there. -/
def addWanted (domains : List Text) (note createdBy : Option Text) (books : Books) :
    Books × Except ImportFailure (List Text × List Text) :=
  let names := fromKeys (domains.map fun domain => registrable (lower domain))
  let present := names.filter fun name => (books.find name).isSome
  let new := (names.filter fun name => (books.find name).isNone).map fun name =>
    { domain := name, group := none : Entry }
  if new = [] then (books, .ok ([], present))
  else
    -- No other columns are given, so no contact is looked up.
    let (books, answer) := importDomains [] new
      { defaultGroup := none, defaultGroupId := none, createdBy,
        defaultLifecycle := some "claim".toList, note, labels := [] } Table.empty books
    (books, answer.map fun report => (report.added, present))

end Books

/-- What people ask of the portfolio. -/
inductive Operation where
  | importDomains (accounts : List Account) (entries : List Entry) (options : ImportOptions)
      (extras : Extras)
  | addWanted (domains : List Text) (note createdBy : Option Text)
  | assign (domain : Text) (groupId : Option GroupId) (createdBy : Option Text)
  | move (ids : List Nat) (groupId : Option GroupId)
  | remove (ids : List Nat)
  | setLifecycle (ids : List Nat) (value : Text)
  | setThreatIntel (ids : List Nat) (enrolled : Bool)
  | setContact (ids : List Nat) (contactId : Option ContactId)
  | mergeGroup (source target : GroupId)
  | deleteGroup (id : GroupId) (withContents : Bool)

/-- The books after an operation; one that is refused before it writes leaves them. -/
def Operation.perform (limit : Nat) (books : Books) : Operation → Books
  | .importDomains accounts entries options extras =>
      (DomainPortfolio.importDomains accounts entries options extras books).1
  | .addWanted domains note createdBy => (books.addWanted domains note createdBy).1
  | .assign domain groupId createdBy => (books.assign domain groupId createdBy).toOption.getD books
  | .move ids groupId => (books.move ids groupId).toOption.getD books
  | .remove ids => books.remove ids
  | .setLifecycle ids value => (books.setLifecycle ids value).toOption.getD books
  | .setThreatIntel ids enrolled => books.setThreatIntel ids enrolled
  | .setContact ids contactId => (books.setContact ids contactId).toOption.getD books
  | .mergeGroup source target => (books.mergeGroup limit source target).toOption.getD books
  | .deleteGroup id withContents => books.deleteGroup id withContents

def perform (limit : Nat) (books : Books) (operation : Operation) : Option Books :=
  some (operation.perform limit books)

/-- The decision with which an operation adds domains. -/
def Operation.initial : Operation → Lifecycle
  | .importDomains _ _ options _ =>
      (initialLifecycle options.defaultLifecycle).getD defaultLifecycle
  | .addWanted _ _ _ => .claim
  | _ => defaultLifecycle

/-! ## When an operation logs what it does -/

/-- The units whose domains an operation moves or removes all at once. -/
def emptied (limit : Nat) (books : Books) : Operation → List GroupId
  | .mergeGroup source target =>
      if books.hasGroup source ∧ books.hasGroup target ∧ source ≠ target ∧
          target ∉ descendants books.people books.portfolio.groups source then
        folded limit source target books.portfolio
      else []
  | .deleteGroup id withContents =>
      if books.hasGroup id then
        if withContents then descendants books.people books.portfolio.groups id else [id]
      else []
  | _ => []

/-- No domain is in a unit that the operation empties, and an import does not break off after a
change. -/
def LogsAll (limit : Nat) (books : Books) (operation : Operation) : Prop :=
  (∀ row ∈ books.portfolio.domains, ∀ id ∈ row.groupId, id ∉ emptied limit books operation) ∧
    match operation with
    | .importDomains _ entries options _ => Unbroken entries options books
    | _ => True

instance (limit : Nat) (books : Books) (operation : Operation) :
    Decidable (LogsAll limit books operation) := by
  unfold LogsAll
  cases operation <;> infer_instance

section Perform

variable {books after : Books}

private theorem known_of_rows (known : Known books) (book : after.book = books.book)
    (rows : ∀ row ∈ after.portfolio.domains, row.contactId = none ∨
      ∃ old ∈ books.portfolio.domains, old.contactId = row.contactId) : Known after := by
  intro row member id contact
  rw [book]
  rcases rows row member with none | ⟨old, isOld, same⟩
  · rw [none] at contact
    cases contact
  · exact known old isOld id (same ▸ contact)

private theorem contactId_of_rehomed {before after : Portfolio} (same : Rehomed before after)
    {row : Domain} (member : row ∈ after.domains) :
    ∃ old ∈ before.domains, old.contactId = row.contactId := by
  have held : row.homeless ∈ before.domains.map Domain.homeless :=
    same ▸ List.mem_map.mpr ⟨row, member, rfl⟩
  obtain ⟨old, isOld, equal⟩ := List.mem_map.mp held
  have contacts := congrArg Domain.contactId equal
  exact ⟨old, isOld, contacts⟩

private theorem complete_addWanted (known : Known books) (domains : List Text)
    (note createdBy : Option Text) :
    Complete .claim books (books.addWanted domains note createdBy).1 ∧
      Known (books.addWanted domains note createdBy).1 := by
  unfold Books.addWanted
  dsimp only
  split
  · exact ⟨complete_of_domains rfl rfl, known⟩
  · refine complete_importDomains [] Table.empty known fun _ _ => .inl ⟨?_, ?_⟩
    · simp [isBlank]
    · -- Every name comes once, and has no unit.
      have distinct := (nodup_fromKeys (domains.map fun domain => registrable (lower domain))).filter
        fun name => (books.find name).isNone
      have sub : newNames books (((fromKeys (domains.map fun domain =>
          registrable (lower domain))).filter fun name => (books.find name).isNone).map
            fun name => { domain := name, group := none : Entry }) |>.Sublist
          ((fromKeys (domains.map fun domain => registrable (lower domain))).filter
            fun name => (books.find name).isNone) := by
        refine (List.filter_sublist.map Entry.domain).trans ?_
        rw [List.map_map]
        exact (List.map_id _).symm ▸ List.Sublist.refl _
      exact distinct.sublist sub

private theorem complete_assignOr (known : Known books) (domain : Text) (groupId : Option GroupId)
    (createdBy : Option Text) :
    Complete defaultLifecycle books ((books.assign domain groupId createdBy).toOption.getD books) ∧
      Known ((books.assign domain groupId createdBy).toOption.getD books) := by
  cases done : books.assign domain groupId createdBy with
  | error problem => exact ⟨complete_of_domains rfl rfl, known⟩
  | ok after =>
      refine ⟨complete_assign done, ?_⟩
      change Known after
      unfold Books.assign at done
      split at done
      · cases done
      · split at done
        · split at done
          · cases done
          · obtain rfl := Except.ok.inj done
            refine known_of_rows known rfl fun row member => ?_
            rcases List.mem_append.mp member with old | new
            · exact .inr ⟨row, old, rfl⟩
            · rw [List.mem_singleton.mp new]
              exact .inl rfl
        · split at done
          · obtain rfl := Except.ok.inj done
            exact known
          · obtain rfl := Except.ok.inj done
            refine known_of_rows known rfl fun row member => .inr ?_
            obtain ⟨old, isOld, rfl⟩ := List.mem_map.mp member
            refine ⟨old, isOld, ?_⟩
            split <;> rfl

private theorem complete_set (known : Known books) (initial : Lifecycle) (ids : List Nat)
    (setting : Setting) (paths : List (GroupId × Text))
    (isShown : ∀ value : Setting, value.kind = setting.kind →
      value.shown paths books.book = books.shown value)
    (given : ∀ id, setting = .contact (some id) → id ≤ books.book.lastContact) :
    Complete initial books (books.setAll paths setting ids) ∧
      Known (books.setAll paths setting ids) :=
  ⟨complete_setAll initial books ids setting paths isShown, known_setAll known given⟩

private theorem known_remove (known : Known books) (ids : List Nat) : Known (books.remove ids) := by
  have step : ∀ (paths : List (GroupId × Text)) (ids : List Nat) (now : Books), Known now →
      Known (ids.foldl (Books.removeOne paths) now) := by
    intro paths ids
    induction ids with
    | nil => exact fun _ known => known
    | cons id ids induction =>
        intro now known
        refine induction _ ?_
        unfold Books.removeOne
        split
        · exact known
        · exact known_of_rows known rfl fun row member =>
            .inr ⟨row, List.mem_of_mem_filter member, rfl⟩
  exact step books.paths ids books known

private theorem complete_mergeGroup (known : Known books) {limit : Nat} {source target : GroupId}
    (empty : ∀ row ∈ books.portfolio.domains, ∀ id ∈ row.groupId,
      id ∉ emptied limit books (.mergeGroup source target)) :
    Complete defaultLifecycle books ((books.mergeGroup limit source target).toOption.getD books) ∧
      Known ((books.mergeGroup limit source target).toOption.getD books) := by
  unfold Books.mergeGroup
  split
  · exact ⟨complete_of_domains rfl rfl, known⟩
  · rename_i after done
    refine ⟨complete_of_domains ?_ rfl, known_of_rows known rfl fun row member =>
      .inr (contactId_of_rehomed (rehomed_mergeGroup done) member)⟩
    change after.domains = books.portfolio.domains
    unfold mergeGroup at done
    split at done
    · rename_i sourceGroup targetGroup isSource isTarget
      split at done
      · cases done
      · rename_i apart
        split at done
        · cases done
        · rename_i outside
          split at done
          · rename_i result folds
            obtain rfl := Except.ok.inj done
            refine domains_fold folds fun row member id isUnit => ?_
            have held := empty row member id isUnit
            simp only [emptied] at held
            rwa [if_pos] at held
            exact ⟨Option.isSome_iff_exists.mpr ⟨_, isSource⟩,
              Option.isSome_iff_exists.mpr ⟨_, isTarget⟩, apart, outside⟩
          · cases done
    · cases done

private theorem complete_deleteGroup (known : Known books) {limit : Nat} {id : GroupId}
    {withContents : Bool}
    (empty : ∀ row ∈ books.portfolio.domains, ∀ unit ∈ row.groupId,
      unit ∉ emptied limit books (.deleteGroup id withContents)) :
    Complete defaultLifecycle books (books.deleteGroup id withContents) ∧
      Known (books.deleteGroup id withContents) := by
  unfold Books.deleteGroup
  split
  · exact ⟨complete_of_domains rfl rfl, known⟩
  · rename_i group found
    have isUnit : books.hasGroup id = true := Option.isSome_iff_exists.mpr ⟨group, found⟩
    simp only [emptied, isUnit, if_true] at empty
    have domains : (deleteGroup books.people id group.parentId withContents
        books.portfolio).domains = books.portfolio.domains := by
      cases withContents with
      | true =>
          refine List.filter_eq_self.mpr fun row member => ?_
          cases unit : row.groupId with
          | none => rfl
          | some held => simpa using empty row member held unit
      | false =>
          refine domains_moveDomains group.parentId fun row member unit => ?_
          exact empty row member id unit (List.mem_singleton.mpr rfl)
    exact ⟨complete_of_domains domains rfl,
      known_of_rows known rfl fun row member => .inr ⟨row, domains ▸ member, rfl⟩⟩

private theorem complete_perform {limit : Nat} (known : Known books) (operation : Operation)
    (logs : LogsAll limit books operation) :
    Complete operation.initial books (operation.perform limit books) ∧
      Known (operation.perform limit books) := by
  cases operation with
  | importDomains accounts entries options extras =>
      exact complete_importDomains accounts extras known logs.2
  | addWanted domains note createdBy => exact complete_addWanted known domains note createdBy
  | assign domain groupId createdBy => exact complete_assignOr known domain groupId createdBy
  | move ids groupId =>
      change Complete _ books ((books.move ids groupId).toOption.getD books) ∧
        Known ((books.move ids groupId).toOption.getD books)
      unfold Books.move
      split
      · exact ⟨complete_of_domains rfl rfl, known⟩
      · exact complete_set known _ ids (.unit groupId) books.paths (fun _ _ => rfl) nofun
  | remove ids => exact ⟨complete_remove _ books ids, known_remove known ids⟩
  | setLifecycle ids value =>
      change Complete _ books ((books.setLifecycle ids value).toOption.getD books) ∧
        Known ((books.setLifecycle ids value).toOption.getD books)
      unfold Books.setLifecycle
      split
      · exact ⟨complete_of_domains rfl rfl, known⟩
      · refine complete_set known _ ids (.lifecycle _) [] (fun value isKind => ?_) nofun
        cases value <;> first | rfl | cases isKind
  | setThreatIntel ids enrolled =>
      refine complete_set known _ ids (.threatIntel enrolled) [] (fun value isKind => ?_) nofun
      cases value <;> first | rfl | cases isKind
  | setContact ids contactId =>
      change Complete _ books ((books.setContact ids contactId).toOption.getD books) ∧
        Known ((books.setContact ids contactId).toOption.getD books)
      unfold Books.setContact
      split
      · exact ⟨complete_of_domains rfl rfl, known⟩
      · rename_i stored
        refine complete_set known _ ids (.contact contactId) [] (fun value isKind => ?_) ?_
        · cases value <;> first | rfl | cases isKind
        · rintro id ⟨⟩
          obtain ⟨contact, found⟩ := Option.ne_none_iff_exists'.mp (by simpa using stored)
          exact Table.key_of_find found ▸
            books.book.issued contact (Table.mem_of_find found)
  | mergeGroup source target => exact complete_mergeGroup known logs.1
  | deleteGroup id withContents => exact complete_deleteGroup known logs.1

end Perform

/-! ## Runs -/

theorem known_empty : Known Books.empty := nofun

/-- A file with two domains, of which one has a decision and a contact. -/
def firstImport : Operation :=
  .importDomains []
    [⟨"a.nl".toList, some "A > B".toList⟩, ⟨"b.nl".toList, some "A".toList⟩]
    { defaultGroup := none, defaultGroupId := none, createdBy := none, defaultLifecycle := none,
      note := none, labels := [] }
    ⟨[("a.nl".toList, ⟨"cancel".toList, "Ann".toList, [], []⟩)], by decide⟩

end DomainPortfolio
end DomainLens
