import DomainLens.DomainPortfolio.ChangeLog
import DomainLens.DomainPortfolio.Lines

/-!
# What an import logs

The loop over the lines writes no event but keeps a tally, from which the events follow; the other
columns of the file are logged as they are set.
-/

namespace DomainLens
namespace DomainPortfolio

open Python

/-! ## The tally -/

section AssignKey

variable {Value : Type} (key : Text) (value : Value) (table : List (Text × Value))

private theorem find_assignKey (other : Text) :
    (assignKey key value table).find? (fun entry => entry.1 = other) =
      if other = key then some (key, value) else table.find? fun entry => entry.1 = other := by
  induction table with
  | nil =>
      by_cases same : other = key
      · simp [assignKey, same]
      · simp [assignKey, same, Ne.symm same]
  | cons head table induction =>
      obtain ⟨first, old⟩ := head
      unfold assignKey
      by_cases isKey : first = key
      · by_cases same : other = key
        · simp [isKey, same]
        · simp [isKey, same, Ne.symm same]
      · by_cases isFirst : first = other
        · simp [isFirst, isFirst ▸ isKey]
        · simpa [isKey, isFirst] using induction

private theorem lookup_eq_find (name : Text) :
    table.lookup name = (table.find? fun entry => entry.1 = name).map Prod.snd := by
  induction table with
  | nil => rfl
  | cons head table induction =>
      obtain ⟨first, old⟩ := head
      by_cases same : name = first
      · simp [List.lookup, same]
      · have apart : (name == first) = false := beq_false_of_ne same
        simpa [List.lookup, apart, Ne.symm same] using induction

private theorem lookup_assignKey (other : Text) :
    (assignKey key value table).lookup other =
      if other = key then some value else table.lookup other := by
  rw [lookup_eq_find, lookup_eq_find, find_assignKey]
  split <;> rfl

private theorem mem_assignKey {entry : Text × Value} (member : entry ∈ assignKey key value table) :
    entry = (key, value) ∨ entry ∈ table := by
  induction table with
  | nil => exact .inl (List.mem_singleton.mp member)
  | cons head table induction =>
      obtain ⟨first, old⟩ := head
      unfold assignKey at member
      split at member <;> rcases List.mem_cons.mp member with here | later
      · exact .inl here
      · exact .inr (List.mem_cons_of_mem _ later)
      · exact .inr (here ▸ List.mem_cons_self)
      · exact (induction later).imp_right (List.mem_cons_of_mem _)

private theorem mem_keys_assignKey (other : Text) :
    other ∈ (assignKey key value table).map Prod.fst ↔ other = key ∨ other ∈ table.map Prod.fst := by
  induction table with
  | nil => simp [assignKey]
  | cons head table induction =>
      obtain ⟨first, old⟩ := head
      unfold assignKey
      split
      · rename_i isKey
        simp [isKey]
      · rw [List.map_cons, List.map_cons, List.mem_cons, List.mem_cons, induction]
        exact or_left_comm

private theorem nodup_assignKey (distinct : (table.map Prod.fst).Nodup) :
    ((assignKey key value table).map Prod.fst).Nodup := by
  induction table with
  | nil => simp [assignKey]
  | cons head table induction =>
      obtain ⟨first, old⟩ := head
      rw [List.map_cons, List.nodup_cons] at distinct
      unfold assignKey
      split
      · rename_i isKey
        exact isKey ▸ List.nodup_cons.mpr distinct
      · rename_i other
        refine List.nodup_cons.mpr ⟨fun held => ?_, induction distinct.2⟩
        rcases (mem_keys_assignKey key value table first).mp held with same | later
        · exact other same
        · exact distinct.1 later

end AssignKey

/-- The tally says what the loop did: which domains are new, and where the stored ones went. -/
structure Tallied (base : Books) (context : ImportContext) (books : Books) (tally : Tally) :
    Prop where
  events : books.events = base.events
  book : books.book = base.book
  stored : ∀ name, books.find name = none ↔ base.find name = none ∧ name ∉ tally.added
  old : ∀ name old, base.find name = some old →
    books.find name = some { old with
      groupId := (tally.unitMoves.find? fun move => move.1 = name).elim old.groupId
        fun move => some move.2.2 }
  new : ∀ name row, base.find name = none → books.find name = some row →
    row.groupId = (tally.addedUnits.lookup name).join ∧ row.lifecycle = context.lifecycle ∧
      row.threatIntel = false ∧ row.contactId = none
  added : tally.added.Nodup
  fresh : ∀ name ∈ tally.added, base.find name = none
  moves : (tally.unitMoves.map Prod.fst).Nodup
  moved : ∀ move ∈ tally.unitMoves, ∃ old, base.find move.1 = some old ∧
    old.groupId = move.2.1 ∧ move.2.1 ≠ some move.2.2

section Loop

variable {base books started next : Books} {context : ImportContext} {tally later : Tally}

private theorem tallied_start (find : ∀ name, books.find name = base.find name)
    (events : books.events = base.events) (book : books.book = base.book) :
    Tallied base context books Tally.empty where
  events := events
  book := book
  stored name := by simp [find, Tally.empty]
  old name old found := by rw [find, found]; rfl
  new name row absent found := by
    rw [find, absent] at found
    cases found
  added := List.nodup_nil
  fresh := nofun
  moves := List.nodup_nil
  moved := nofun

private theorem Tallied.ensured {path : Option Text} {named : Option GroupId}
    (tallied : Tallied base context books tally) (ensured : Ensured path books started named) :
    Tallied base context started tally where
  events := ensured.events.trans tallied.events
  book := ensured.book.trans tallied.book
  stored name := by rw [ensured.find, tallied.stored]
  old name old found := by rw [ensured.find, tallied.old name old found]
  new name row absent found := tallied.new name row absent (ensured.find name ▸ found)
  added := tallied.added
  fresh := tallied.fresh
  moves := tallied.moves
  moved := tallied.moved

private theorem Tallied.insert {domain : Text} {unit : Option GroupId}
    (tallied : Tallied base context started tally) (new : base.find domain = none)
    (first : started.find domain = none) :
    Tallied base context
      (started.insert domain unit context.lifecycle context.note context.createdBy first)
      { tally with
        added := tally.added ++ [domain]
        addedUnits := assignKey domain unit tally.addedUnits } where
  events := tallied.events
  book := tallied.book
  stored name := by
    rw [Books.find_insert]
    split
    · rename_i same
      simp [same]
    · rename_i other
      simp [tallied.stored, other]
  old name old found := by
    rw [Books.find_insert, if_neg, tallied.old name old found]
    rintro rfl
    rw [new] at found
    cases found
  new name row absent found := by
    rw [Books.find_insert] at found
    rw [lookup_assignKey]
    split at found
    · rename_i same
      obtain rfl := Option.some.inj found
      rw [if_pos same]
      exact ⟨rfl, rfl, rfl, rfl⟩
    · rename_i other
      rw [if_neg other]
      exact tallied.new name row absent found
  added := by
    rw [List.nodup_append]
    refine ⟨tallied.added, List.nodup_singleton _, fun name held other last => ?_⟩
    rw [List.mem_singleton.mp last]
    rintro rfl
    exact ((tallied.stored _).mp first).2 held
  fresh name held := by
    rcases List.mem_append.mp held with old | last
    · exact tallied.fresh name old
    · rw [List.mem_singleton.mp last]
      exact new
  moves := tallied.moves
  moved := tallied.moved

private theorem Tallied.move {domain : Text} {row : Domain} {target : GroupId}
    {stayed moved : List Text} (tallied : Tallied base context started tally)
    (stored : base.find domain = some row) (differs : row.groupId ≠ some target) :
    Tallied base context
      (started.update row.id (Setting.unit (some target)).apply
        (Setting.unit (some target)).apply_keeps)
      { tally with
        stayed
        moved
        unitMoves := assignKey domain (row.groupId, target) tally.unitMoves } := by
  obtain ⟨isRow, isDomain⟩ := Books.find_eq_some.mp stored
  -- The row that is written is the one of the domain.
  have apart : ∀ name other, name ≠ domain → started.find name = some other → other.id ≠ row.id := by
    intro name other different found same
    obtain ⟨isOther, isName⟩ := Books.find_eq_some.mp found
    obtain ⟨isHere, hereName⟩ := Books.find_eq_some.mp (tallied.old domain row stored)
    have equal := Books.eq_of_id isOther isHere same
    exact different (isName.symm.trans (equal ▸ hereName))
  have update := @Books.find_update started row.id (Setting.unit (some target)).apply
    (Setting.unit (some target)).apply_keeps
  have elsewhere : ∀ name, name ≠ domain →
      (started.update row.id (Setting.unit (some target)).apply
        (Setting.unit (some target)).apply_keeps).find name = started.find name := by
    intro name different
    rw [update]
    cases found : started.find name with
    | none => rfl
    | some other => rw [Option.map_some, if_neg (apart name other different found)]
  exact
    { events := tallied.events
      book := tallied.book
      stored := fun name => by rw [update, Option.map_eq_none_iff, tallied.stored]
      old := fun name old found => by
        by_cases same : name = domain
        · subst same
          obtain rfl := Option.some.inj (found.symm.trans stored)
          rw [update, tallied.old name old found, find_assignKey, if_pos rfl, Option.map_some,
            if_pos rfl]
          rfl
        · rw [elsewhere name same, tallied.old name old found, find_assignKey, if_neg same]
      new := fun name other absent found => by
        have different : name ≠ domain := by
          rintro rfl
          rw [stored] at absent
          cases absent
        exact tallied.new name other absent (elsewhere name different ▸ found)
      added := tallied.added
      fresh := tallied.fresh
      moves := nodup_assignKey domain (row.groupId, target) tally.unitMoves tallied.moves
      moved := fun move held => by
        rcases mem_assignKey domain (row.groupId, target) tally.unitMoves held with rfl | old
        · exact ⟨row, stored, rfl, differs⟩
        · exact tallied.moved move old }

private theorem Tallied.written {domain : Text} {named : Option GroupId}
    (tallied : Tallied base context started tally)
    (written : Written base context domain named started tally (.ok (next, later))) :
    Tallied base context next later := by
  cases written with
  | added new first => exact tallied.insert new first
  | kept row stayed stored same => exact { tallied with }
  | moved row target stayed stored isTarget differs => exact tallied.move stored differs

private theorem tallied_of_importEntries (isBase : context.existing = base.portfolio.domains)
    {entries : List Entry} (tallied : Tallied base context books tally)
    (done : importEntries context entries books tally = (next, .ok later)) :
    Tallied base context next later := by
  induction entries generalizing books tally with
  | nil =>
      obtain ⟨rfl, same⟩ := Prod.mk.inj done
      obtain rfl := Except.ok.inj same
      exact tallied
  | cons entry entries induction =>
      rcases importEntry_cases isBase entry books tally with
        ⟨_, broken, problem, result, _⟩ | ⟨_, started, named, outcome, ensured, written, result⟩
      · rw [importEntries, result] at done
        cases done
      · rw [importEntries, result] at done
        cases outcome with
        | error failure => cases done
        | ok answer =>
            obtain ⟨middle, counted⟩ := answer
            exact induction ((tallied.ensured ensured).written written) done

/-! ## The events of the lines -/

private theorem foldl_record {Item : Type} (event : Item → Event) (items : List Item)
    (books : Books) :
    items.foldl (fun books item => books.record (event item)) books =
      { books with events := books.events ++ items.map event } := by
  induction items generalizing books with
  | nil => simp
  | cons item items induction =>
      rw [List.foldl_cons, induction]
      simp [Books.record]

private theorem values_map {Item : Type} {items : List Item} {nameOf : Item → Text}
    {event : Item → Event} {kind : Kind} (distinct : (items.map nameOf).Nodup)
    (isName : ∀ item, (event item).domain = nameOf item)
    (isKind : ∀ item, (event item).kind = kind) (name : Text) (other : Kind) :
    values (items.map event) name other =
      if other = kind then
        ((items.find? fun item => nameOf item = name).map fun item =>
          ((event item).before, (event item).after)).toList
      else [] := by
  induction items with
  | nil => simp
  | cons item items induction =>
      rw [List.map_cons, List.nodup_cons] at distinct
      rw [List.map_cons, ← List.singleton_append, values_append, values_singleton,
        induction distinct.2, isName, isKind]
      by_cases same : other = kind
      · by_cases here : nameOf item = name
        · have later : items.find? (fun item => nameOf item = name) = none := by
            rw [List.find?_eq_none]
            intro rest member equal
            refine distinct.1 (List.mem_map.mpr ⟨rest, member, ?_⟩)
            exact (of_decide_eq_true equal).trans here.symm
          simp [same, here, later]
        · simp [same, here]
      · simp [same, Ne.symm same]

private theorem values_added {names : List Text} (distinct : names.Nodup)
    (unitOf : Text → Option GroupId) (paths : List (GroupId × Text)) (lifecycle : Lifecycle)
    (name : Text) (kind : Kind) :
    values (names.map fun domain => recordAdded domain (unitOf domain) paths lifecycle) name kind =
      if kind = .added ∧ name ∈ names then [(none, unitPath paths (unitOf name))] else [] := by
  have mapped := @values_map Text names id
    (fun domain => recordAdded domain (unitOf domain) paths lifecycle) .added (by simpa using distinct)
    (fun _ => rfl) (fun _ => rfl) name kind
  rw [mapped]
  by_cases member : name ∈ names
  · obtain ⟨found, isFound⟩ := Option.isSome_iff_exists.mp
      ((@List.find?_isSome _ names fun other => decide (id other = name)).mpr
        ⟨name, member, decide_eq_true rfl⟩)
    have same : found = name := by simpa using List.find?_some isFound
    simp only [isFound, same, Option.map_some, Option.toList_some, member, and_true]
    rfl
  · have absent : names.find? (fun other => id other = name) = none := by
      rw [List.find?_eq_none]
      intro other held equal
      exact member (of_decide_eq_true equal ▸ held)
    have apart : ¬ (kind = .added ∧ name ∈ names) := fun both => member both.2
    rw [absent, if_neg apart]
    exact ite_self []

private theorem values_moved {moves : List (Text × Option GroupId × GroupId)}
    (distinct : (moves.map Prod.fst).Nodup) (paths : List (GroupId × Text)) (name : Text)
    (kind : Kind) :
    values (moves.map fun move => recordUnit move.1 move.2.1 (some move.2.2) paths) name kind =
      if kind = .unit then
        ((moves.find? fun move => move.1 = name).map fun move =>
          (unitPath paths move.2.1, unitPath paths (some move.2.2))).toList
      else [] :=
  @values_map _ moves Prod.fst (fun move => recordUnit move.1 move.2.1 (some move.2.2) paths) .unit
    distinct (fun _ => rfl) (fun _ => rfl) name kind

private theorem logs_record (tallied : Tallied base context books tally) :
    ∃ events, (tally.record books.paths context.lifecycle books).events = base.events ++ events ∧
      Logs context.lifecycle base (tally.record books.paths context.lifecycle books) events := by
  have record : tally.record books.paths context.lifecycle books = { books with
      events := books.events ++ tally.added.map (fun domain =>
          recordAdded domain (tally.addedUnits.lookup domain).join books.paths context.lifecycle) ++
        tally.unitMoves.map fun move =>
          recordUnit move.1 move.2.1 (some move.2.2) books.paths } := by
    unfold Tally.record
    dsimp only
    rw [foldl_record, foldl_record]
  refine ⟨_, by rw [record, tallied.events, List.append_assoc], fun name kind => ?_⟩
  rw [values_append, values_added tallied.added fun domain => (tally.addedUnits.lookup domain).join,
    values_moved tallied.moves]
  have find : (tally.record books.paths context.lifecycle books).find name = books.find name := by
    rw [record]
    rfl
  have shown : (tally.record books.paths context.lifecycle books).shown = books.shown := by
    rw [record]
    rfl
  rw [expected_congr find shown]
  cases was : base.find name with
  | none =>
      have unmoved : tally.unitMoves.find? (fun move => move.1 = name) = none := by
        rw [List.find?_eq_none]
        intro move member same
        obtain ⟨old, found, _⟩ := tallied.moved move member
        rw [of_decide_eq_true same, was] at found
        cases found
      cases now : books.find name with
      | none =>
          have absent := ((tallied.stored name).mp now).2
          simp [expected_of_none now, was, unmoved, absent]
      | some row =>
          have member : name ∈ tally.added := by
            by_contra absent
            rw [(tallied.stored name).mpr ⟨was, absent⟩] at now
            cases now
          obtain ⟨unit, lifecycle, intel, contact⟩ := tallied.new name row was now
          have start : startOf context.lifecycle base row = row := by
            obtain rfl := (Books.find_eq_some.mp now).2
            rw [startOf, was, ← lifecycle, ← intel, ← contact]
            rfl
          rw [expected_of_some now, was, unmoved, start, difference_self, unit]
          by_cases isKind : kind = .added
          · simp [isKind, member]
            rfl
          · simp [isKind]
  | some old =>
      have absent : name ∉ tally.added := by
        intro member
        rw [tallied.fresh name member] at was
        cases was
      have now := tallied.old name old was
      have start : ∀ groupId, startOf context.lifecycle base { old with groupId } = old := by
        intro groupId
        rw [startOf, (Books.find_eq_some.mp was).2, was]
        rfl
      rw [expected_of_some now, was, start]
      cases moves : tally.unitMoves.find? fun move => move.1 = name with
      | none =>
          rw [Option.elim_none, difference_self]
          simp [absent]
      | some move =>
          obtain ⟨other, found, wasIn, differs⟩ :=
            tallied.moved move (List.mem_of_find?_eq_some moves)
          have isName : move.1 = name := by simpa using List.find?_some moves
          obtain rfl := Option.some.inj ((isName ▸ found).symm.trans was)
          cases kind <;>
            simp [difference, heldAs, absent, differs, Books.shown, Setting.shown, wasIn]

end Loop

/-! ## The contacts of a file -/

section Contacts

variable {accounts : List Account} {book later : AddressBook}

def Stored (book : AddressBook) (people : List Person) : Prop :=
  ∀ person ∈ people, (book.contacts.find person.id).isSome

private theorem AddressBook.le_of_isSome {id : ContactId}
    (stored : (book.contacts.find id).isSome) : id ≤ book.lastContact := by
  obtain ⟨contact, found⟩ := Option.isSome_iff_exists.mp stored
  exact Table.key_of_find found ▸ book.issued contact (Table.mem_of_find found)

private theorem AddressBook.Extends.isSome (longer : later.Extends book) {id : ContactId}
    (stored : (book.contacts.find id).isSome) : (later.contacts.find id).isSome := by
  rw [longer.same id (AddressBook.le_of_isSome stored)]
  exact stored

private theorem AddressBook.insert_spec (name email phone : Option Text) (userId : Option Nat) :
    (book.insert name email phone userId).Extends book ∧
      ((book.insert name email phone userId).contacts.find (book.lastContact + 1)).isSome := by
  have find := fun id => @Table.find_insert _ _ Contact.id _ book.contacts
    { id := book.lastContact + 1, name, email, phone, userId } id
  constructor
  · refine ⟨Nat.le_succ _, fun id given => ?_⟩
    rw [AddressBook.insert, find, if_neg]
    exact Nat.ne_of_lt (Nat.lt_succ_of_le given)
  · rw [AddressBook.insert, find, if_pos rfl]
    rfl

private theorem AddressBook.create_spec {name email phone : Option Text} {person : Person}
    (done : book.create accounts name email phone = .ok (later, person)) :
    later.Extends book ∧ (later.contacts.find person.id).isSome := by
  unfold AddressBook.create at done
  split at done
  · cases done
  · cases cleaned : cleanContact name email phone with
    | error problem =>
        rw [cleaned] at done
        cases done
    | ok cells =>
        rw [cleaned] at done
        change (if _ then _ else _) = _ at done
        split at done
        · cases done
        · obtain ⟨rfl, rfl⟩ := Prod.mk.inj (Except.ok.inj done)
          exact AddressBook.insert_spec _ _ _ _

private theorem AddressBook.createFor_spec {user : Nat} {person : Person}
    (done : book.createFor accounts user = .ok (later, person)) :
    later.Extends book ∧ (later.contacts.find person.id).isSome := by
  unfold AddressBook.createFor at done
  split at done
  · cases done
  · split at done
    · cases done
    · split at done
      · rename_i existing found
        obtain ⟨rfl, rfl⟩ := Prod.mk.inj (Except.ok.inj done)
        refine ⟨AddressBook.Extends.refl _, ?_⟩
        change (Table.find _ existing.id).isSome
        rw [Table.find_of_mem (List.mem_of_find?_eq_some found)]
        rfl
      · obtain ⟨rfl, rfl⟩ := Prod.mk.inj (Except.ok.inj done)
        exact AddressBook.insert_spec _ _ _ _

private theorem stored_append {people : List Person} {person : Person} (longer : later.Extends book)
    (stored : Stored book people) (new : (later.contacts.find person.id).isSome) :
    Stored later (people ++ [person]) := by
  intro other member
  rcases List.mem_append.mp member with old | last
  · exact longer.isSome (stored other old)
  · rw [List.mem_singleton.mp last]
    exact new

private theorem stored_of_knownContact {name email : Text} {people : List Person} {id : ContactId}
    (stored : Stored book people) (isKnown : knownContact name email people = some id) :
    (book.contacts.find id).isSome := by
  unfold knownContact at isKnown
  split at isKnown
  · obtain ⟨person, found, rfl⟩ := Option.map_eq_some_iff.mp isKnown
    exact stored person (List.mem_of_find?_eq_some found)
  · split at isKnown
    · obtain ⟨person, found, rfl⟩ := Option.map_eq_some_iff.mp isKnown
      exact stored person (List.mem_of_find?_eq_some found)
    · cases isKnown

private theorem contactFor_spec {name email : Text} {people known : List Person}
    {made names : List Text} {id : Option ContactId} (stored : Stored book people)
    (done : contactFor accounts name email book people made = .ok (later, known, names, id)) :
    later.Extends book ∧ Stored later known ∧ ∀ held ∈ id, (later.contacts.find held).isSome := by
  unfold contactFor at done
  dsimp only at done
  split at done
  · cases done
    exact ⟨AddressBook.Extends.refl _, stored, nofun⟩
  · split at done
    · rename_i held isKnown
      cases done
      refine ⟨AddressBook.Extends.refl _, stored, fun other same => ?_⟩
      obtain rfl := Option.some.inj same
      exact stored_of_knownContact stored isKnown
    · split at done
      · rename_i account _
        cases created : book.createFor accounts account.id with
        | error problem =>
            rw [created] at done
            cases done
        | ok answer =>
            obtain ⟨grown, person⟩ := answer
            rw [created] at done
            cases done
            obtain ⟨longer, new⟩ := AddressBook.createFor_spec created
            exact ⟨longer, stored_append longer stored new, by rintro held ⟨⟩; exact new⟩
      · rename_i cells _ _
        cases created : book.create accounts (orNone (contactCells name email).1)
            (orNone (contactCells name email).2) none with
        | error problem =>
            rw [created] at done
            cases done
        | ok answer =>
            obtain ⟨grown, person⟩ := answer
            rw [created] at done
            cases done
            obtain ⟨longer, new⟩ := AddressBook.create_spec created
            exact ⟨longer, stored_append longer stored new, by rintro held ⟨⟩; exact new⟩

end Contacts

/-! ## The other columns -/

/-- The columns of a domain that a file sets. -/
private def IsExtra (kind : Kind) : Prop := kind = .decision ∨ kind = .threatIntel ∨ kind = .contact

/-- What the loop over the other columns keeps: the log is that of the changes, and the columns that
are still to come were not touched. -/
private structure Applied (initial : Lifecycle) (base : Books) (rows : List Domain)
    (pending : Text → Kind → Prop) (state : ExtrasState) : Prop where
  logged : ∃ events, state.books.events = base.events ++ events ∧
    Logs initial base state.books events
  keys : state.books.portfolio.domains.map (fun row => (row.id, row.domain)) =
    rows.map fun row => (row.id, row.domain)
  untouched : ∀ row ∈ state.books.portfolio.domains, ∀ kind, pending row.domain kind →
    heldAs (startOf initial base row) kind = heldAs row kind
  known : Known state.books
  before : ∀ row ∈ base.portfolio.domains, ∀ id ∈ row.contactId,
    id ≤ state.books.book.lastContact
  people : Stored state.books.book state.people

section Extras

variable {initial : Lifecycle} {base : Books} {rows : List Domain} {pending : Text → Kind → Prop}
  {state : ExtrasState}

private theorem Applied.report (applied : Applied initial base rows pending state)
    (report : ExtrasReport) : Applied initial base rows pending { state with report } :=
  { applied with }

private theorem Applied.mono {fewer : Text → Kind → Prop}
    (applied : Applied initial base rows pending state)
    (less : ∀ name kind, fewer name kind → pending name kind) :
    Applied initial base rows fewer state :=
  { applied with
    untouched := fun row member kind held => applied.untouched row member kind (less _ _ held) }

private theorem Applied.set (applied : Applied initial base rows pending state) {setting : Setting}
    {row : Domain} (member : row ∈ rows) (extra : IsExtra setting.kind)
    (isPending : pending row.domain setting.kind)
    (given : ∀ id, setting = .contact (some id) → id ≤ state.books.book.lastContact) :
    Applied initial base rows (fun name kind => pending name kind ∧
      ¬ (name = row.domain ∧ kind = setting.kind))
      { state with books := state.books.setAll [] setting [row.id] } := by
  obtain ⟨events, grown, logs⟩ := applied.logged
  have notUnit : setting.kind ≠ .unit := by
    rintro same
    rw [same] at extra
    rcases extra with isKind | isKind | isKind <;> cases isKind
  -- The row of that id is the one of that name.
  have isName : ∀ held ∈ state.books.portfolio.domains, held.id = row.id →
      held.domain = row.domain := by
    intro held isHeld same
    have key : (row.id, row.domain) ∈ state.books.portfolio.domains.map
        fun row => (row.id, row.domain) := applied.keys ▸ List.mem_map.mpr ⟨row, member, rfl⟩
    obtain ⟨other, isOther, equal⟩ := List.mem_map.mp key
    obtain ⟨ids, names⟩ := Prod.mk.inj equal
    exact Books.eq_of_id isHeld isOther (same.trans ids.symm) ▸ names
  obtain ⟨sameBook, _⟩ := @shown_setOne state.books [] setting row.id
  obtain ⟨more, later, all⟩ := @logs_setOne initial base state.books events row.id setting [] logs
    (fun value isKind => by
      cases value with
      | unit unit => exact absurd isKind.symm notUnit
      | _ => rfl)
    fun held found => .inr ⟨by
      obtain ⟨isHeld, same⟩ := Books.row_eq_some.mp found
      have column := applied.untouched held isHeld setting.kind (isName held isHeld same ▸ isPending)
      rw [heldAs_kind, heldAs_kind] at column
      exact Option.some.inj column, fun isUnit => absurd isUnit notUnit⟩
  exact
    { logged := ⟨events ++ more, by
        rw [← List.append_assoc, ← grown]
        exact later, all⟩
      keys := by
        rw [← applied.keys]
        exact keys_setOne [] setting row.id
      untouched := by
        rintro held isHeld kind ⟨isPending, apart⟩
        obtain ⟨old, isOld, rfl⟩ := mem_setOne isHeld
        by_cases same : old.id = row.id
        · rw [if_pos same] at isPending apart ⊢
          rw [(setting.apply_keeps old).2] at isPending apart
          have other : kind ≠ setting.kind := fun isKind => apart ⟨isName old isOld same, isKind⟩
          rw [heldAs_startOf_apply kind fun isUnit => absurd isUnit notUnit, heldAs_apply,
            if_neg other]
          exact applied.untouched old isOld kind isPending
        · rw [if_neg same] at isPending ⊢
          exact applied.untouched old isOld kind isPending
      known := known_setOne applied.known given
      before := by
        intro old isOld id contact
        exact (applied.before old isOld id contact).trans_eq (by rw [← sameBook]; rfl)
      people := by
        intro person held
        have stored := applied.people person held
        rw [← sameBook] at stored
        exact stored }

private theorem Applied.grow (applied : Applied initial base rows pending state)
    {book : AddressBook} {people : List Person} (longer : book.Extends state.books.book)
    (stored : Stored book people) :
    Applied initial base rows pending
      { state with books := { state.books with book }, people } where
  logged := by
    obtain ⟨events, grown, logs⟩ := applied.logged
    refine ⟨events, grown, fun name kind => (logs name kind).trans ?_⟩
    exact (@expected_grown initial base state.books { state.books with book } applied.known
      applied.before rfl rfl longer name kind).symm
  keys := applied.keys
  untouched := applied.untouched
  known row member id contact := (applied.known row member id contact).trans longer.last
  before row member id contact := (applied.before row member id contact).trans longer.last
  people := stored

/-- The columns that are still to come after one of them. -/
private def Without (pending : Text → Kind → Prop) (name : Text) (kind : Kind) :
    Text → Kind → Prop :=
  fun other column => pending other column ∧ ¬ (other = name ∧ column = kind)

private theorem Applied.skip (applied : Applied initial base rows pending state) (name : Text)
    (kind : Kind) : Applied initial base rows (Without pending name kind) state :=
  applied.mono fun _ _ held => held.1

variable {context : ExtrasContext} {row : Domain}

private theorem Applied.changed (applied : Applied initial base rows pending state) (domain : Text)
    (field : Field) (was now : Option Text) :
    Applied initial base rows pending (state.changed context domain field was now) := by
  unfold ExtrasState.changed
  split
  · exact applied
  · exact applied.report _

private theorem Applied.applyDecision (applied : Applied initial base rows pending state)
    (member : row ∈ rows) (isPending : pending row.domain .decision) (extra : Extra) :
    Applied initial base rows (Without pending row.domain .decision)
      (state.applyDecision context row extra) := by
  unfold ExtrasState.applyDecision
  split
  · exact applied.skip row.domain .decision
  · exact (applied.skip row.domain .decision).report _
  · rename_i decision _
    dsimp only
    split
    · exact (applied.skip row.domain .decision).report _
    · have set := @Applied.set _ _ _ _ _ applied (.lifecycle decision) _ member (.inl rfl) isPending
        nofun
      exact (set.changed _ _ _ _).report _

private theorem Applied.applyIntel (applied : Applied initial base rows pending state)
    (member : row ∈ rows) (isPending : pending row.domain .threatIntel) (extra : Extra) :
    Applied initial base rows (Without pending row.domain .threatIntel)
      (state.applyIntel context row extra) := by
  unfold ExtrasState.applyIntel
  split
  · split
    · exact applied.skip row.domain .threatIntel
    · exact (applied.skip row.domain .threatIntel).report _
  · rename_i intel _
    dsimp only
    split
    · exact (applied.skip row.domain .threatIntel).report _
    · have set := @Applied.set _ _ _ _ _ applied (.threatIntel intel) _ member (.inr (.inl rfl))
        isPending nofun
      exact (set.changed _ _ _ _).report _

private theorem Applied.applyContact (applied : Applied initial base rows pending state)
    (member : row ∈ rows) (isPending : pending row.domain .contact) (extra : Extra) :
    Applied initial base rows (Without pending row.domain .contact)
      (state.applyContact context row extra) := by
  have skipped := applied.skip row.domain .contact
  unfold ExtrasState.applyContact
  dsimp only
  split
  · exact skipped
  · split
    · exact skipped.report _
    · split
      · exact skipped.report _
      · rename_i book people made id found
        obtain ⟨longer, stored, isStored⟩ := contactFor_spec applied.people found
        have grown := (applied.grow longer stored).report
          { state.report with contactsCreated := made }
        split
        · exact (grown.skip row.domain .contact).report _
        · rename_i contact
          split
          · exact (grown.skip row.domain .contact).report _
          · have set := @Applied.set _ _ _ _ _ grown (.contact (some contact)) _ member
              (.inr (.inr rfl)) isPending fun other same => by
                cases same
                exact AddressBook.le_of_isSome (isStored contact rfl)
            exact (set.changed _ _ _ _).report _

private theorem Applied.applyExtras {lines : List (Text × Extra)}
    (isRows : context.rows = rows) (distinct : (lines.map Prod.fst).Nodup)
    (applied : Applied initial base rows
      (fun name kind => name ∈ lines.map Prod.fst ∧ IsExtra kind) state) :
    Applied initial base rows (fun _ _ => False)
      (lines.foldl (ExtrasState.applyExtra context) state) := by
  induction lines generalizing state with
  | nil => exact applied.mono fun _ _ none => none.elim
  | cons line lines induction =>
      rw [List.map_cons, List.nodup_cons] at distinct
      refine induction distinct.2 ?_
      have later : ∀ name kind, name ∈ lines.map Prod.fst ∧ IsExtra kind →
          (name ∈ (line :: lines).map Prod.fst ∧ IsExtra kind) ∧ name ≠ line.1 := by
        rintro name kind ⟨member, extra⟩
        exact ⟨⟨List.mem_cons_of_mem _ member, extra⟩, fun same => distinct.1 (same ▸ member)⟩
      unfold ExtrasState.applyExtra
      split
      · exact applied.mono fun name kind held => (later name kind held).1
      · rename_i row found
        have isRow : row ∈ rows := isRows ▸ List.mem_of_find?_eq_some found
        have isName : row.domain = line.1 := by simpa using List.find?_some found
        have here : row.domain ∈ (line :: lines).map Prod.fst := isName ▸ List.mem_cons_self
        have decided := @Applied.applyDecision _ _ _ _ _ context _ applied isRow
          ⟨here, .inl rfl⟩ line.2
        have informed := @Applied.applyIntel _ _ _ _ _ context _ decided isRow
          ⟨⟨here, .inr (.inl rfl)⟩, nofun⟩ line.2
        have reached := @Applied.applyContact _ _ _ _ _ context _ informed isRow
          ⟨⟨⟨here, .inr (.inr rfl)⟩, nofun⟩, nofun⟩ line.2
        refine reached.mono fun name kind held => ?_
        obtain ⟨old, other⟩ := later name kind held
        rw [← isName] at other
        exact ⟨⟨⟨old, fun both => other both.1⟩, fun both => other both.1⟩, fun both => other both.1⟩

end Extras

/-! ## Imports that break off -/

def givesDefault (options : ImportOptions) : Bool :=
  options.defaultGroupId.isSome || (options.defaultGroup.filter (· ≠ [])).isSome

/-- A line that neither adds a domain nor moves one. -/
def unmoved (books : Books) (given : Bool) (entry : Entry) : Bool :=
  match books.find entry.domain, entry.group.filter (· ≠ []) with
  | none, _ => false
  | some row, some path => standing books.portfolio.groups path = some row.groupId
  | some row, none => !given || row.groupId.isSome

/-- The import comes to its end, or breaks off before it adds or moves a domain: at a path without a
level, or at a new domain that comes twice. -/
def Unbroken (entries : List Entry) (options : ImportOptions) (books : Books) : Prop :=
  importProblem entries options books = none →
    (options.defaultGroupId = none → isBlank options.defaultGroup = false) →
    (entries.all (fun entry => !isBlank entry.group) ∧ (newNames books entries).Nodup) ∨
      (usable entries).all (unmoved books (givesDefault options))

instance (entries : List Entry) (options : ImportOptions) (books : Books) :
    Decidable (Unbroken entries options books) := by
  unfold Unbroken
  infer_instance

section Breaks

variable {base : Books} {context : ImportContext}
  (isBase : context.existing = base.portfolio.domains)

include isBase in
private theorem runs_through {entries : List Entry} {books : Books} {tally : Tally}
    (levels : entries.all (fun entry => !isBlank entry.group))
    (distinct : (newNames base entries).Nodup)
    (fresh : ∀ name ∈ newNames base entries, books.find name = none) :
    ∃ next later, importEntries context entries books tally = (next, .ok later) := by
  induction entries generalizing books tally with
  | nil => exact ⟨books, tally, rfl⟩
  | cons entry entries induction =>
      rw [List.all_cons, Bool.and_eq_true] at levels
      have names : newNames base (entry :: entries) =
          if base.find entry.domain = none then entry.domain :: newNames base entries
          else newNames base entries := by
        simp only [newNames, List.filter_cons, Option.isNone_iff_eq_none]
        split <;> rfl
      rcases importEntry_cases isBase entry books tally with
        ⟨blank, _⟩ | ⟨_, started, named, outcome, ensured, written, result⟩
      · simp [blank] at levels
      · rw [importEntries, result]
        cases outcome with
        | error failure =>
            cases written with
            | repeated new again =>
                rw [names, if_pos new] at fresh
                exact absurd ((ensured.find _).trans (fresh _ List.mem_cons_self)) again
        | ok answer =>
            obtain ⟨next, later⟩ := answer
            have absent := fun name => (written.find_eq_none name).trans (by rw [ensured.find name])
            refine induction levels.2 ?_ fun name member => (absent name).mpr ?_
            · rw [names] at distinct
              split at distinct
              · exact (List.nodup_cons.mp distinct).2
              · exact distinct
            · rw [names] at distinct fresh
              split at distinct
              · rename_i new
                rw [if_pos new] at fresh
                exact ⟨fresh name (List.mem_cons_of_mem _ member),
                  fun _ same => (List.nodup_cons.mp distinct).1 (same ▸ member)⟩
              · rename_i old
                rw [if_neg old] at fresh
                exact ⟨fresh name member, fun new => absurd new old⟩

include isBase in
private theorem same_of_unmoved {entries : List Entry} {books : Books} {tally : Tally}
    {given : Bool} (isDefault : given = false → context.defaultId = none)
    (all : (usable entries).all (unmoved base given))
    (domains : books.portfolio.domains = base.portfolio.domains)
    (stands : ∀ path id, standing base.portfolio.groups path = some id →
      standing books.portfolio.groups path = some id) :
    let result := (importEntries context entries books tally).1
    result.portfolio.domains = base.portfolio.domains ∧ result.events = books.events ∧
      result.book = books.book := by
  induction entries generalizing books tally with
  | nil => exact ⟨domains, rfl, rfl⟩
  | cons entry entries induction =>
      rcases importEntry_cases isBase entry books tally with
        ⟨_, broken, problem, result, alike⟩ |
          ⟨path, started, named, outcome, ensured, written, result⟩
      · rw [importEntries, result]
        exact ⟨alike.domains.trans domains, alike.events, alike.book⟩
      · have first : usable (entry :: entries) = entry :: usable entries := by simp [usable, path]
        rw [first, List.all_cons, Bool.and_eq_true] at all
        obtain ⟨here, rest⟩ := all
        obtain ⟨row, stored⟩ : ∃ row, base.find entry.domain = some row := by
          cases stored : base.find entry.domain with
          | none => simp [unmoved, stored] at here
          | some row => exact ⟨row, rfl⟩
        -- The line names the unit of the domain, or none where no default applies.
        have settled : started.portfolio.groups = books.portfolio.groups ∧
            (targetOf context.defaultId named row.groupId).all fun target =>
              row.groupId = some target := by
          have reading := ensured.groups
          unfold unmoved at here
          rw [stored] at here
          cases isPath : entry.group.filter (· ≠ []) with
          | none =>
              rw [isPath] at here
              change (!given || row.groupId.isSome) = true at here
              simp only [reads, isPath, Option.some.injEq, reduceCtorEq, false_and, or_false]
                at reading
              obtain ⟨rfl, same⟩ := reading
              refine ⟨same, ?_⟩
              cases unit : row.groupId with
              | none =>
                  rw [unit] at here
                  simp [targetOf, isDefault (by simpa using here)]
              | some id => simp [targetOf]
          | some path =>
              rw [isPath] at here
              have stood := of_decide_eq_true here
              simp only [reads, isPath, stands path _ stood, Option.some.injEq, reduceCtorEq,
                false_and, or_false] at reading
              obtain ⟨rfl, same⟩ := reading
              obtain ⟨id, unit⟩ := Option.isSome_iff_exists.mp (isSome_of_standing stood)
              exact ⟨same, by simp [targetOf, unit]⟩
        rw [importEntries, result]
        cases outcome with
        | error failure =>
            cases written with
            | repeated new again =>
                rw [new] at stored
                cases stored
        | ok answer =>
            obtain ⟨next, later⟩ := answer
            cases written with
            | added new first =>
                rw [new] at stored
                cases stored
            | kept other stayed _ _ =>
                obtain ⟨sameDomains, sameEvents, sameBook⟩ := @induction started _ rest
                  (ensured.domains.trans domains) fun path id stood => by
                    rw [settled.1]
                    exact stands path id stood
                exact ⟨sameDomains, sameEvents.trans ensured.events, sameBook.trans ensured.book⟩
            | moved other target stayed isOther isTarget differs =>
                obtain rfl := Option.some.inj (stored.symm.trans isOther)
                rw [isTarget] at settled
                exact absurd (by simpa using settled.2) differs

end Breaks

/-! ## The whole import -/

private theorem defaultUnit_spec (options : ImportOptions) (books : Books) :
    (defaultUnit options books).1.portfolio.domains = books.portfolio.domains ∧
      (defaultUnit options books).1.events = books.events ∧
      (defaultUnit options books).1.book = books.book ∧
      (∀ path id, standing books.portfolio.groups path = some id →
        standing (defaultUnit options books).1.portfolio.groups path = some id) ∧
      (givesDefault options = false → (defaultUnit options books).2 = .ok none) ∧
      ∀ id, (defaultUnit options books).2 = .ok id →
        options.defaultGroupId = none → isBlank options.defaultGroup = false := by
  unfold defaultUnit givesDefault
  cases options.defaultGroupId with
  | some id => exact ⟨rfl, rfl, rfl, fun _ _ found => found, nofun, fun _ _ => nofun⟩
  | none =>
      cases given : options.defaultGroup.filter (· ≠ []) with
      | none =>
          exact ⟨rfl, rfl, rfl, fun _ _ found => found, fun _ => rfl,
            fun _ _ _ => isBlank_of_filter_eq_none given⟩
      | some path =>
          obtain ⟨isPath, nonempty⟩ := Option.filter_eq_some_iff.mp given
          refine ⟨domains_ensurePath path books.portfolio, rfl, rfl,
            fun _ _ found => standing_ensurePath found, nofun, fun id done _ => ?_⟩
          rw [isPath]
          rcases ensurePath_cases path books (by simpa using nonempty) with
            ⟨_, ⟨problem, refused⟩, _⟩ | ⟨levels, _⟩
          · cases refused.symm.trans done
          · exact levels

private theorem applied_start {base books : Books} {context : ImportContext} {tally : Tally}
    (tallied : Tallied base context books tally) (known : Known base) (accounts : List Account) :
    let logged := tally.record books.paths context.lifecycle books
    Applied context.lifecycle base logged.portfolio.domains (fun _ kind => IsExtra kind)
      { books := logged, people := logged.book.listContacts accounts,
        report := ExtrasReport.empty } := by
  have domains : (tally.record books.paths context.lifecycle books).portfolio.domains =
      books.portfolio.domains ∧
      (tally.record books.paths context.lifecycle books).book = books.book := by
    unfold Tally.record
    dsimp only
    rw [foldl_record, foldl_record]
    exact ⟨rfl, rfl⟩
  dsimp only
  obtain ⟨rows, book⟩ := domains
  -- What a domain has in the other columns is what it had, or was added with.
  have columns : ∀ row ∈ books.portfolio.domains,
      (∀ kind, IsExtra kind → heldAs (startOf context.lifecycle base row) kind = heldAs row kind) ∧
      ∀ id ∈ row.contactId, id ≤ base.book.lastContact := by
    intro row member
    have found := Books.find_of_mem member
    rw [startOf]
    cases was : base.find row.domain with
    | some old =>
        obtain ⟨isOld, _⟩ := Books.find_eq_some.mp was
        have now := Option.some.inj (found.symm.trans (tallied.old row.domain old was))
        rw [now]
        refine ⟨?_, known old isOld⟩
        rintro kind (rfl | rfl | rfl) <;> rfl
    | none =>
        obtain ⟨_, lifecycle, intel, contact⟩ := tallied.new row.domain row was found
        constructor
        · intro kind _
          rw [← lifecycle, ← intel, ← contact]
          rfl
        · rw [contact]
          simp
  exact
    { logged := logs_record tallied
      keys := rfl
      untouched := fun row member kind extra => (columns row (rows ▸ member)).1 kind extra
      known := by
        intro row member id contact
        rw [book, tallied.book]
        exact (columns row (rows ▸ member)).2 id contact
      before := by
        intro row member id contact
        rw [book, tallied.book]
        exact known row member id contact
      people := by
        intro person member
        obtain ⟨contact, held, rfl⟩ := List.mem_map.mp member
        have isContact := (List.mem_insertionSort _).mp held
        exact (Table.find_of_mem isContact).symm ▸ rfl }

private theorem logged_of_applyExtras {initial : Lifecycle} {base books : Books}
    {accounts : List Account}
    (applied : Applied initial base books.portfolio.domains (fun _ kind => IsExtra kind)
      { books, people := books.book.listContacts accounts, report := ExtrasReport.empty })
    (extras : Extras) (added : List Text) (labels : List (Text × Text)) :
    Complete initial base (applyExtras accounts extras added labels books).1 ∧
      Known (applyExtras accounts extras added labels books).1 := by
  let context : ExtrasContext :=
    { accounts
      added
      labels
      listed := listGroups books.people books.portfolio.groups
      rows := books.portfolio.domains }
  have final := @Applied.applyExtras _ _ _ _ context extras.rows rfl extras.distinct
    (applied.mono fun _ _ held => held.2)
  exact ⟨final.logged, final.known⟩

theorem complete_importDomains (accounts : List Account) {entries : List Entry}
    {options : ImportOptions} (extras : Extras) {books : Books} (known : Known books)
    (unbroken : Unbroken entries options books) :
    Complete ((initialLifecycle options.defaultLifecycle).getD defaultLifecycle) books
        (importDomains accounts entries options extras books).1 ∧
      Known (importDomains accounts entries options extras books).1 := by
  -- Where the domains and the contacts stay as they are nothing has to be logged.
  have unchanged : ∀ after : Books, after.portfolio.domains = books.portfolio.domains →
      after.events = books.events → after.book = books.book →
      Complete ((initialLifecycle options.defaultLifecycle).getD defaultLifecycle) books after ∧
        Known after := by
    intro after domains events book
    refine ⟨complete_of_domains domains events, fun row member id contact => ?_⟩
    rw [book]
    exact known row (domains ▸ member) id contact
  unfold importDomains
  cases checked : importProblem entries options books with
  | some problem => exact unchanged books rfl rfl rfl
  | none =>
      obtain ⟨domains, events, book, stands, noDefault, levels⟩ := defaultUnit_spec options books
      rcases result : defaultUnit options books with ⟨started, answer⟩
      rw [result] at domains events book stands noDefault levels
      cases answer with
      | error problem => exact unchanged started domains events book
      | ok defaultId =>
          dsimp only
          generalize isContext : ImportContext.mk books.portfolio.domains defaultId _ _ _ = context
          have isBase : context.existing = books.portfolio.domains := by rw [← isContext]
          have isDefault : givesDefault options = false → context.defaultId = none := by
            intro absent
            rw [← isContext]
            exact Except.ok.inj (noDefault absent)
          have isInitial : (initialLifecycle options.defaultLifecycle).getD defaultLifecycle =
              context.lifecycle := by rw [← isContext]
          have find : ∀ name, started.find name = books.find name := by
            intro name
            rw [Books.find, domains]
            rfl
          rcases loop : importEntries context entries started Tally.empty with ⟨next, outcome⟩
          cases outcome with
          | error failure =>
              rcases unbroken checked (levels defaultId rfl) with ⟨paths, distinct⟩ | all
              · obtain ⟨through, later, done⟩ := @runs_through books context isBase entries started
                  Tally.empty paths distinct fun name member => by
                    obtain ⟨entry, held, rfl⟩ := List.mem_map.mp member
                    exact (find entry.domain).trans (by simpa using (List.mem_filter.mp held).2)
                rw [loop] at done
                cases done
              · obtain ⟨sameDomains, sameEvents, sameBook⟩ := @same_of_unmoved books context isBase
                  entries started Tally.empty _ isDefault all domains stands
                rw [loop] at sameDomains sameEvents sameBook
                exact unchanged next sameDomains (sameEvents.trans events) (sameBook.trans book)
          | ok tally =>
              have tallied := tallied_of_importEntries isBase
                (@tallied_start books started context find events book) loop
              have applied := applied_start tallied known accounts
              rw [← isInitial] at applied
              exact logged_of_applyExtras applied extras tally.added options.labels

end DomainPortfolio
end DomainLens
