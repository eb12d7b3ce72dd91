import DomainLens.DomainPortfolio.Books

/-!
# The change log

An operation logs what it does when it writes one event for each column of a domain it changes, from
the value before to the value after, one for each domain it adds or removes, and none else.
-/

namespace DomainLens
namespace DomainPortfolio

open Python

/-! ## What a complete log is -/

def Books.shown (books : Books) (setting : Setting) : Option Text :=
  setting.shown books.paths books.book

/-- What a domain has in the column that a kind of event is about. -/
def heldAs (row : Domain) : Kind → Option Setting
  | .added | .removed => none
  | .unit => some (.unit row.groupId)
  | .decision => some (.lifecycle row.lifecycle)
  | .threatIntel => some (.threatIntel row.threatIntel)
  | .contact => some (.contact row.contactId)

/-- What a domain was before: what it was stored as, or what it was added as. -/
def startOf (initial : Lifecycle) (before : Books) (row : Domain) : Domain :=
  (before.find row.domain).getD
    { row with lifecycle := initial, threatIntel := false, contactId := none }

/-- The old and the new value of a column, where they differ. -/
def difference (shown : Setting → Option Text) (was now : Option Setting) :
    List (Option Text × Option Text) :=
  match was, now with
  | some was, some now => if was = now then [] else [(shown was, shown now)]
  | _, _ => []

/-- The old and new values in the events of a kind for a domain, an added domain being added with the
initial decision. -/
def expected (initial : Lifecycle) (before after : Books) (name : Text) (kind : Kind) :
    List (Option Text × Option Text) :=
  match before.find name, after.find name with
  | none, none => []
  | some old, none => if kind = .removed then [(after.shown (.unit old.groupId), none)] else []
  | old, some row =>
      if kind = .added then
        if old = none then [(none, after.shown (.unit row.groupId))] else []
      else difference after.shown (heldAs (startOf initial before row) kind) (heldAs row kind)

/-- The old and new values in the events of a kind for a domain. -/
def values (events : List Event) (name : Text) (kind : Kind) : List (Option Text × Option Text) :=
  (events.filter fun event => event.domain = name ∧ event.kind = kind).map fun event =>
    (event.before, event.after)

/-- The events are those of the changes from the books before to those after. -/
def Logs (initial : Lifecycle) (before after : Books) (events : List Event) : Prop :=
  ∀ name kind, values events name kind = expected initial before after name kind

/-- The log has grown by the events of the changes. -/
def Complete (initial : Lifecycle) (before after : Books) : Prop :=
  ∃ events, after.events = before.events ++ events ∧ Logs initial before after events

/-! ## Reading the events -/

@[simp] theorem values_nil (name : Text) (kind : Kind) : values [] name kind = [] := rfl

@[simp] theorem values_append (front back : List Event) (name : Text) (kind : Kind) :
    values (front ++ back) name kind = values front name kind ++ values back name kind := by
  simp [values]

theorem values_singleton (event : Event) (name : Text) (kind : Kind) :
    values [event] name kind =
      if event.domain = name ∧ event.kind = kind then [(event.before, event.after)] else [] := by
  unfold values
  split <;> rename_i matched <;> simp [matched]

theorem expected_of_some {initial : Lifecycle} {before after : Books} {name : Text} {row : Domain}
    (found : after.find name = some row) (kind : Kind) :
    expected initial before after name kind =
      if kind = .added then
        if before.find name = none then [(none, after.shown (.unit row.groupId))] else []
      else difference after.shown (heldAs (startOf initial before row) kind) (heldAs row kind) := by
  unfold expected
  rw [found]
  cases before.find name <;> rfl

theorem expected_of_none {initial : Lifecycle} {before after : Books} {name : Text}
    (absent : after.find name = none) (kind : Kind) :
    expected initial before after name kind =
      if kind = .removed then
        ((before.find name).map fun old => (after.shown (.unit old.groupId), none)).toList
      else [] := by
  unfold expected
  rw [absent]
  cases before.find name <;> simp

theorem expected_congr {initial : Lifecycle} {before after later : Books} {name : Text}
    (find : later.find name = after.find name) (shown : later.shown = after.shown) (kind : Kind) :
    expected initial before later name kind = expected initial before after name kind := by
  unfold expected
  rw [find, shown]

@[simp] theorem difference_self (shown : Setting → Option Text) (held : Option Setting) :
    difference shown held held = [] := by
  cases held <;> simp [difference]

/-! ## How values are shown -/

private theorem walk_paths (people others : List ContactId) (rows : List Group) (depth : Nat)
    (parent : Option GroupId) (above aside : Inherited) (seen : List GroupId)
    (same : above.path = aside.path) :
    (walk people rows depth parent above seen).map
        (fun listed => (listed.group.id, pathText listed.path)) =
      (walk others rows depth parent aside seen).map
        fun listed => (listed.group.id, pathText listed.path) := by
  induction depth generalizing parent above aside seen with
  | zero => rfl
  | succ depth induction =>
      rw [walk, walk, List.map_flatMap, List.map_flatMap]
      refine List.flatMap_congr fun group _ => ?_
      split
      · rfl
      · have path : above.path ++ [group.name] = aside.path ++ [group.name] := by rw [same]
        rw [List.map_cons, List.map_cons, induction _ _ (showGroup others aside group).2 _ path]
        congr 1
        exact congrArg (fun names => (group.id, pathText names)) path

theorem pathsOf_people (people others : List ContactId) (groups : Groups) :
    pathsOf people groups = pathsOf others groups :=
  walk_paths people others groups.rows _ none nothingInherited nothingInherited [] rfl

/-- Every contact that a domain has was given out. -/
def Known (books : Books) : Prop :=
  ∀ row ∈ books.portfolio.domains, ∀ id ∈ row.contactId, id ≤ books.book.lastContact

/-- The contacts that were given out are the same later. -/
structure AddressBook.Extends (later book : AddressBook) : Prop where
  last : book.lastContact ≤ later.lastContact
  same : ∀ id, id ≤ book.lastContact → later.contacts.find id = book.contacts.find id

namespace AddressBook.Extends

theorem refl (book : AddressBook) : book.Extends book := ⟨Nat.le_refl _, fun _ _ => rfl⟩

theorem contactName {later book : AddressBook} (longer : later.Extends book)
    {value : Option ContactId} (given : ∀ id ∈ value, id ≤ book.lastContact) :
    contactName later value = contactName book value := by
  cases value with
  | none => rfl
  | some id => simp only [DomainPortfolio.contactName, longer.same id (given id rfl)]

end AddressBook.Extends

section Steps

variable {initial : Lifecycle} {before now later : Books} {events : List Event}

theorem heldAs_kind (setting : Setting) (row : Domain) :
    heldAs row setting.kind = some (setting.held row) := by
  cases setting <;> rfl

theorem heldAs_apply (setting : Setting) (row : Domain) (kind : Kind) :
    heldAs (setting.apply row) kind = if kind = setting.kind then some setting else heldAs row kind := by
  cases setting <;> cases kind <;> rfl

theorem heldAs_startOf_apply {setting : Setting} {row : Domain} (kind : Kind)
    (stored : setting.kind = .unit → before.find row.domain ≠ none) :
    heldAs (startOf initial before (setting.apply row)) kind =
      heldAs (startOf initial before row) kind := by
  rw [startOf, startOf, (setting.apply_keeps row).2]
  cases found : before.find row.domain with
  | some old => rfl
  | none => cases setting with
    | unit value => exact absurd found (stored rfl)
    | lifecycle value => cases kind <;> rfl
    | threatIntel value => cases kind <;> rfl
    | contact value => cases kind <;> rfl

private theorem difference_congr {shown displayed : Setting → Option Text}
    {was now : Option Setting} (agreeWas : ∀ value ∈ was, shown value = displayed value)
    (agreeNow : ∀ value ∈ now, shown value = displayed value) :
    difference shown was now = difference displayed was now := by
  cases was with
  | none => rfl
  | some was => cases now with
    | none => rfl
    | some now => simp only [difference, agreeWas was rfl, agreeNow now rfl]

theorem expected_grown (known : Known now)
    (knownBefore : ∀ row ∈ before.portfolio.domains, ∀ id ∈ row.contactId, id ≤ now.book.lastContact)
    (domains : later.portfolio.domains = now.portfolio.domains)
    (groups : later.portfolio.groups = now.portfolio.groups) (longer : later.book.Extends now.book)
    (name : Text) (kind : Kind) :
    expected initial before later name kind = expected initial before now name kind := by
  have paths : later.paths = now.paths := by
    rw [Books.paths, Books.paths, groups]
    exact pathsOf_people _ _ _
  have unit : ∀ value, later.shown (.unit value) = now.shown (.unit value) := by
    intro value
    simp only [Books.shown, Setting.shown, paths]
  have column : ∀ row : Domain, (∀ id ∈ row.contactId, id ≤ now.book.lastContact) →
      ∀ value ∈ heldAs row kind, later.shown value = now.shown value := by
    intro row given value held
    cases kind with
    | added => cases held
    | removed => cases held
    | unit =>
        obtain rfl := Option.some.inj held
        exact unit row.groupId
    | decision =>
        obtain rfl := Option.some.inj held
        rfl
    | threatIntel =>
        obtain rfl := Option.some.inj held
        rfl
    | contact =>
        obtain rfl := Option.some.inj held
        exact longer.contactName given
  have find : later.find name = now.find name := by
    rw [Books.find, domains]
    rfl
  unfold expected
  rw [find]
  split
  · rfl
  · rw [unit]
  · rename_i row isRow
    have member := (Books.find_eq_some.mp isRow).1
    rw [unit]
    congr 1
    refine difference_congr (column _ ?_) (column row (known row member))
    intro id held
    cases found : before.find row.domain with
    | none =>
        rw [startOf, found] at held
        cases held
    | some old =>
        rw [startOf, found] at held
        exact knownBefore old (Books.find_eq_some.mp found).1 id held

theorem logs_of_find (find : ∀ name, now.find name = before.find name) :
    Logs initial before now [] := by
  intro name kind
  unfold expected
  rw [find name, values_nil]
  cases found : before.find name with
  | none => rfl
  | some row =>
      have start : startOf initial before row = row := by
        rw [startOf, (Books.find_eq_some.mp found).2, found]
        rfl
      simp [start]

theorem complete_of_domains (domains : now.portfolio.domains = before.portfolio.domains)
    (same : now.events = before.events) : Complete initial before now := by
  refine ⟨[], by rw [same, List.append_nil], logs_of_find fun name => ?_⟩
  rw [Books.find, domains]
  rfl

/-- What a domain has in a column is the value, or what it had before the operation. -/
def AsBefore (initial : Lifecycle) (before : Books) (setting : Setting) (row : Domain) :
    Prop :=
  setting.held row = setting ∨
    setting.held (startOf initial before row) = setting.held row ∧
      (setting.kind = .unit → before.find row.domain ≠ none)

private theorem apply_of_held {setting : Setting} {row : Domain} (held : setting.held row = setting) :
    setting.apply row = row := by
  cases setting <;> cases row <;> simp_all [Setting.held, Setting.apply]

private theorem update_of_held {id : Nat} {setting : Setting} {row : Domain}
    (found : now.row id = some row) (held : setting.held row = setting) (name : Text) :
    (now.update id setting.apply setting.apply_keeps).find name = now.find name := by
  rw [Books.find_update]
  cases isRow : now.find name with
  | none => rfl
  | some other =>
      rw [Option.map_some]
      split
      · rename_i isId
        obtain ⟨member, same⟩ := Books.row_eq_some.mp found
        have equal := Books.eq_of_id (Books.find_eq_some.mp isRow).1 member (isId.trans same.symm)
        rw [equal, apply_of_held held]
      · rfl

private theorem expected_update {id : Nat} {setting : Setting} {row : Domain}
    (found : now.row id = some row) (differs : setting.held row ≠ setting)
    (untouched : AsBefore initial before setting row) (name : Text) (kind : Kind) :
    expected initial before (now.update id setting.apply setting.apply_keeps) name kind =
      expected initial before now name kind ++
        if row.domain = name ∧ setting.kind = kind then
          [(now.shown (setting.held row), now.shown setting)] else [] := by
  obtain ⟨member, isId⟩ := Books.row_eq_some.mp found
  have after := @Books.find_update now id setting.apply setting.apply_keeps
  by_cases here : row.domain = name
  · subst here
    have isRow := Books.find_of_mem member
    rw [expected_of_some isRow, expected_of_some ((after row.domain).trans (by
      rw [isRow, Option.map_some, if_pos isId]))]
    obtain ⟨column, stored⟩ := untouched.resolve_left differs
    have start := heldAs_kind setting (startOf initial before row)
    rw [heldAs_startOf_apply kind stored, heldAs_apply]
    by_cases isKind : setting.kind = kind
    · subst isKind
      have notAdded : setting.kind ≠ .added := by cases setting <;> nofun
      simp only [notAdded, if_false, if_true, and_self, start, heldAs_kind, column, difference,
        differs, List.nil_append]
      rfl
    · have apart : ¬ (row.domain = row.domain ∧ setting.kind = kind) := fun both => isKind both.2
      rw [if_neg (Ne.symm isKind), if_neg apart, List.append_nil]
      split
      · split
        · rename_i new
          have unit : (setting.apply row).groupId = row.groupId := by
            cases setting with
            | unit value => exact absurd new (stored rfl)
            | _ => rfl
          rw [unit]
          rfl
        · rfl
      · rfl
  · rw [if_neg fun both => here both.1, List.append_nil]
    have same : (now.update id setting.apply setting.apply_keeps).find name = now.find name := by
      rw [after]
      cases isOther : now.find name with
      | none => rfl
      | some other =>
          obtain ⟨isMember, isName⟩ := Books.find_eq_some.mp isOther
          rw [Option.map_some, if_neg]
          intro equal
          exact here ((Books.eq_of_id isMember member (equal.trans isId.symm)) ▸ isName)
    exact expected_congr same rfl kind

theorem logs_setOne {id : Nat} {setting : Setting} {paths : List (GroupId × Text)}
    (logs : Logs initial before now events)
    (isShown : ∀ value : Setting, value.kind = setting.kind →
      value.shown paths now.book = now.shown value)
    (untouched : ∀ row, now.row id = some row → AsBefore initial before setting row) :
    ∃ more, (now.setOne paths setting id).events = now.events ++ more ∧
      Logs initial before (now.setOne paths setting id) (events ++ more) := by
  unfold Books.setOne
  cases found : now.row id with
  | none => exact ⟨[], by simp, by simpa using logs⟩
  | some row =>
      dsimp only
      split
      · rename_i held
        refine ⟨[], (List.append_nil _).symm, fun name kind => ?_⟩
        rw [List.append_nil, logs]
        exact (expected_congr (update_of_held found held name) rfl kind).symm
      · rename_i differs
        refine ⟨_, rfl, fun name kind => ?_⟩
        have isHeld : (setting.held row).kind = setting.kind := by cases setting <;> rfl
        have step := expected_update found differs (untouched row found) name kind
        rw [values_append, logs, values_singleton]
        refine Eq.trans ?_ step.symm
        rw [← isShown _ isHeld, ← isShown _ rfl]
        rfl

theorem keys_setOne (paths : List (GroupId × Text)) (setting : Setting) (id : Nat) :
    (now.setOne paths setting id).portfolio.domains.map (fun row => (row.id, row.domain)) =
      now.portfolio.domains.map fun row => (row.id, row.domain) := by
  have updated : (now.update id setting.apply setting.apply_keeps).portfolio.domains.map
      (fun row => (row.id, row.domain)) =
      now.portfolio.domains.map fun row => (row.id, row.domain) := by
    change List.map _ (List.map _ _) = _
    rw [List.map_map]
    refine List.map_congr_left fun row _ => ?_
    simp only [Function.comp]
    split
    · rw [(setting.apply_keeps row).1, (setting.apply_keeps row).2]
    · rfl
  unfold Books.setOne
  split
  · rfl
  · dsimp only
    split
    · exact updated
    · exact updated

theorem mem_setOne {id : Nat} {setting : Setting} {paths : List (GroupId × Text)} {row : Domain}
    (member : row ∈ (now.setOne paths setting id).portfolio.domains) :
    ∃ old ∈ now.portfolio.domains, row = if old.id = id then setting.apply old else old := by
  unfold Books.setOne at member
  cases found : now.row id with
  | none =>
      rw [found] at member
      refine ⟨row, member, (if_neg fun same => ?_).symm⟩
      rw [Books.row_eq_some.mpr ⟨member, same⟩] at found
      cases found
  | some held =>
      rw [found] at member
      dsimp only at member
      split at member
      · exact Books.mem_update member
      · exact @Books.mem_update now id setting.apply setting.apply_keeps row member

private theorem asBefore_setOne {id : Nat} {setting : Setting} {paths : List (GroupId × Text)}
    (untouched : ∀ row ∈ now.portfolio.domains, AsBefore initial before setting row) :
    ∀ row ∈ (now.setOne paths setting id).portfolio.domains,
      AsBefore initial before setting row := by
  intro row member
  obtain ⟨old, held, rfl⟩ := mem_setOne member
  split
  · exact .inl (by cases setting <;> rfl)
  · exact untouched old held

theorem shown_setOne (paths : List (GroupId × Text)) (setting : Setting) (id : Nat) :
    (now.setOne paths setting id).book = now.book ∧
      (now.setOne paths setting id).shown = now.shown := by
  unfold Books.setOne
  split
  · exact ⟨rfl, rfl⟩
  · dsimp only
    split <;> exact ⟨rfl, rfl⟩

theorem known_setOne {id : Nat} {setting : Setting} {paths : List (GroupId × Text)}
    (known : Known now)
    (given : ∀ contact, setting = .contact (some contact) → contact ≤ now.book.lastContact) :
    Known (now.setOne paths setting id) := by
  intro row member contact held
  obtain ⟨old, isOld, rfl⟩ := mem_setOne member
  have sameBook := (@shown_setOne now paths setting id).1
  refine Nat.le_trans ?_ (Nat.le_of_eq (congrArg AddressBook.lastContact sameBook.symm))
  split at held
  · cases setting with
    | contact value =>
        obtain rfl : value = some contact := held
        exact given contact rfl
    | _ => exact known old isOld contact held
  · exact known old isOld contact held

theorem known_setAll {ids : List Nat} {setting : Setting} {paths : List (GroupId × Text)}
    (known : Known now)
    (given : ∀ contact, setting = .contact (some contact) → contact ≤ now.book.lastContact) :
    Known (now.setAll paths setting ids) := by
  induction ids generalizing now with
  | nil => exact known
  | cons id ids induction =>
      refine induction (known_setOne known given) fun contact same => ?_
      rw [(@shown_setOne now paths setting id).1]
      exact given contact same

private theorem logs_setAll {ids : List Nat} {setting : Setting} {paths : List (GroupId × Text)}
    (logs : Logs initial before now events)
    (isShown : ∀ value : Setting, value.kind = setting.kind →
      value.shown paths now.book = now.shown value)
    (untouched : ∀ row ∈ now.portfolio.domains, AsBefore initial before setting row) :
    ∃ more, (now.setAll paths setting ids).events = now.events ++ more ∧
      Logs initial before (now.setAll paths setting ids) (events ++ more) := by
  induction ids generalizing now events with
  | nil => exact ⟨[], (List.append_nil _).symm, by rw [List.append_nil]; exact logs⟩
  | cons id ids induction =>
      obtain ⟨first, grown, logged⟩ := @logs_setOne _ _ _ _ id _ _ logs isShown
        fun row found => untouched row (Books.row_eq_some.mp found).1
      obtain ⟨sameBook, sameShown⟩ := @shown_setOne now paths setting id
      obtain ⟨rest, later, all⟩ := induction logged
        (fun value isKind => by rw [sameBook, sameShown]; exact isShown value isKind)
        (asBefore_setOne untouched)
      refine ⟨first ++ rest, ?_, by rw [← List.append_assoc]; exact all⟩
      rw [← List.append_assoc, ← grown]
      exact later

theorem complete_setAll (initial : Lifecycle) (before : Books) (ids : List Nat) (setting : Setting)
    (paths : List (GroupId × Text))
    (isShown : ∀ value : Setting, value.kind = setting.kind →
      value.shown paths before.book = before.shown value) :
    Complete initial before (before.setAll paths setting ids) := by
  refine logs_setAll (logs_of_find fun _ => rfl) isShown fun row member => .inr ?_
  have found := Books.find_of_mem member
  refine ⟨?_, fun _ => by simp [found]⟩
  rw [startOf, found]
  rfl

/-! ## Removing and assigning -/

private theorem logs_removeOne {id : Nat} {paths : List (GroupId × Text)}
    (logs : Logs initial before now events) (isPaths : paths = now.paths)
    (kept : ∀ name row, now.find name = some row → before.find name = some row) :
    ∃ more, (Books.removeOne paths now id).events = now.events ++ more ∧
      Logs initial before (Books.removeOne paths now id) (events ++ more) := by
  unfold Books.removeOne
  cases found : now.row id with
  | none => exact ⟨[], (List.append_nil _).symm, by rw [List.append_nil]; exact logs⟩
  | some row =>
      obtain ⟨member, isId⟩ := Books.row_eq_some.mp found
      refine ⟨_, rfl, fun name kind => ?_⟩
      rw [values_append, logs, values_singleton]
      have after : ((now.delete id).record (removedEvent row.domain (unitPath paths row.groupId))).find
          name = (now.find name).filter fun other => other.id ≠ id := Books.find_delete id name
      by_cases here : row.domain = name
      · subst here
        have isRow := Books.find_of_mem member
        have start : startOf initial before row = row := by
          rw [startOf, kept row.domain row isRow]
          rfl
        rw [expected_of_some isRow, kept row.domain row isRow, start, difference_self,
          expected_of_none (by rw [after, isRow]; simp [Option.filter, isId]),
          kept row.domain row isRow, isPaths]
        simp only [reduceCtorEq, if_false, ite_self, List.nil_append, Option.map_some,
          Option.toList_some, removedEvent, true_and]
        by_cases isKind : kind = .removed
        · simp only [isKind, if_true]
          rfl
        · rw [if_neg (Ne.symm isKind), if_neg isKind]
      · have same : (now.find name).filter (fun other => other.id ≠ id) = now.find name := by
          cases isOther : now.find name with
          | none => rfl
          | some other =>
              obtain ⟨isMember, isName⟩ := Books.find_eq_some.mp isOther
              have differs : other.id ≠ id := by
                intro equal
                exact here (Books.eq_of_id isMember member (equal.trans isId.symm) ▸ isName)
              simp [Option.filter, differs]
        rw [if_neg fun both => here both.1, List.append_nil]
        exact (expected_congr (after.trans same) rfl kind).symm

theorem complete_remove (initial : Lifecycle) (before : Books) (ids : List Nat) :
    Complete initial before (before.remove ids) := by
  have step : ∀ (ids : List Nat) (now : Books) (events : List Event),
      Logs initial before now events → before.paths = now.paths →
      (∀ name row, now.find name = some row → before.find name = some row) →
      ∃ more, (ids.foldl (Books.removeOne before.paths) now).events = now.events ++ more ∧
        Logs initial before (ids.foldl (Books.removeOne before.paths) now) (events ++ more) := by
    intro ids
    induction ids with
    | nil =>
        intro now events logs _ _
        exact ⟨[], (List.append_nil _).symm, by rw [List.append_nil]; exact logs⟩
    | cons id ids induction =>
        intro now events logs isPaths kept
        obtain ⟨first, grown, logged⟩ := @logs_removeOne _ _ _ _ id _ logs isPaths kept
        have samePaths : before.paths = (Books.removeOne before.paths now id).paths := by
          rw [isPaths, Books.removeOne]
          split <;> rfl
        have stillKept : ∀ name row, (Books.removeOne before.paths now id).find name = some row →
            before.find name = some row := by
          intro name row isRow
          apply kept name row
          unfold Books.removeOne at isRow
          split at isRow
          · exact isRow
          · rw [show Books.find (Books.record _ _) name = (now.delete id).find name from rfl,
              Books.find_delete, Option.filter_eq_some_iff] at isRow
            exact isRow.1
        obtain ⟨rest, later, all⟩ := induction _ _ logged samePaths stillKept
        refine ⟨first ++ rest, ?_, by rw [← List.append_assoc]; exact all⟩
        rw [← List.append_assoc, ← grown]
        exact later
  exact step ids before [] (logs_of_find fun _ => rfl) rfl fun _ _ found => found

theorem complete_insert (before : Books) {domain : Text} (groupId : Option GroupId)
    (lifecycle : Lifecycle) (note createdBy : Option Text) (fresh : before.find domain = none) :
    Complete lifecycle before ((before.insert domain groupId lifecycle note createdBy fresh).record
      (recordAdded domain groupId before.paths lifecycle)) := by
  refine ⟨_, rfl, fun name kind => ?_⟩
  have after : ((before.insert domain groupId lifecycle note createdBy fresh).record
      (recordAdded domain groupId before.paths lifecycle)).find name = _ :=
    Books.find_insert groupId lifecycle note createdBy fresh name
  rw [values_singleton]
  split at after
  · rename_i same
    subst same
    rw [expected_of_some after, fresh, startOf, fresh]
    by_cases isKind : kind = .added
    · rw [if_pos ⟨rfl, isKind.symm⟩, if_pos isKind, if_pos rfl]
      rfl
    · rw [if_neg fun both => isKind both.2.symm, if_neg isKind]
      exact (difference_self _ _).symm
  · rename_i other
    have unchanged := @logs_of_find lifecycle before before (fun _ => rfl) name kind
    rw [if_neg fun both => other both.1.symm, expected_congr after rfl, ← unchanged, values_nil]

theorem complete_assign {before after : Books} {domain : Text} {groupId : Option GroupId}
    {createdBy : Option Text} (done : before.assign domain groupId createdBy = .ok after) :
    Complete defaultLifecycle before after := by
  unfold Books.assign at done
  split at done
  · cases done
  · split at done
    · split at done
      · cases done
      · obtain rfl := Except.ok.inj done
        exact complete_insert before groupId defaultLifecycle none createdBy ‹_›
    · rename_i row found
      split at done
      · obtain rfl := Except.ok.inj done
        exact complete_of_domains rfl rfl
      · rename_i differs
        obtain rfl := Except.ok.inj done
        obtain ⟨member, rfl⟩ := Books.find_eq_some.mp found
        have isRow : before.row row.id = some row := Books.row_eq_some.mpr ⟨member, rfl⟩
        have set := complete_setAll defaultLifecycle before [row.id] (.unit groupId) before.paths
          fun _ _ => rfl
        simp only [Books.setAll, List.foldl_cons, List.foldl_nil, Books.setOne, isRow, Setting.held,
          Setting.unit.injEq, differs, if_false] at set
        exact set

end Steps

end DomainPortfolio
end DomainLens
