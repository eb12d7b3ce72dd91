import DomainLens.DomainPortfolio.Lines

/-!
# Refused imports

An import checks the number of domains, the default unit and the decision before it writes, but a
path only when its line is reached.  The file says which refused imports leave everything as it was.
-/

namespace DomainLens
namespace DomainPortfolio

open Python

/-- An import that is refused leaves the books as they were. -/
def Refused (accounts : List Account) (entries : List Entry) (options : ImportOptions)
    (extras : Extras) (books : Books) : Prop :=
  ∀ problem, (importDomains accounts entries options extras books).2 = .error (.value problem) →
    Alike (importDomains accounts entries options extras books).1 books

/-! ## When nothing is written -/

/-- The default unit, unless one has to be created for it. -/
def defaultReads (options : ImportOptions) (groups : Groups) : Option (Option GroupId) :=
  match options.defaultGroupId with
  | some id => some (some id)
  | none => reads groups options.defaultGroup

/-- A line for which nothing has to be written: its domain is stored in the unit it goes to. -/
def settled (books : Books) (defaultId : Option GroupId) (entry : Entry) : Bool :=
  match books.find entry.domain, reads books.portfolio.groups entry.group with
  | some row, some named =>
      (targetOf defaultId named row.groupId).all fun target => row.groupId = some target
  | _, _ => false

/-- Nothing has to be written before the import comes to a blank path. -/
def Intact (entries : List Entry) (options : ImportOptions) (books : Books) : Prop :=
  importProblem entries options books = none →
    (options.defaultGroupId = none → isBlank options.defaultGroup = false) →
    entries.any (fun entry => isBlank entry.group) →
    (newNames books (usable entries)).Nodup →
    (defaultReads options books.portfolio.groups).any fun defaultId =>
      (usable entries).all (settled books defaultId)

instance (entries : List Entry) (options : ImportOptions) (books : Books) :
    Decidable (Intact entries options books) := by
  unfold Intact
  infer_instance

section Loop

variable {base : Books} {context : ImportContext}
  (isBase : context.existing = base.portfolio.domains)

/-! ## Where the loop stops -/

include isBase in
private theorem stops_iff {entries : List Entry} {books : Books} {tally : Tally}
    (kept : ∀ name, books.find name = none → base.find name = none) :
    (∃ problem, (importEntries context entries books tally).2 = .error (.value problem)) ↔
      entries.any (fun entry => isBlank entry.group) ∧
        (newNames base (usable entries)).Nodup ∧
        ∀ name ∈ newNames base (usable entries), books.find name = none := by
  induction entries generalizing books tally with
  | nil => simp [importEntries]
  | cons entry entries induction =>
      rcases importEntry_cases isBase entry books tally with
        ⟨blank, ⟨broken, problem, result, _⟩⟩ | ⟨path, started, named, outcome, ensured, written, result⟩
      · simp [importEntries, result, usable, blank, newNames]
      · have first : usable (entry :: entries) = entry :: usable entries := by simp [usable, path]
        have same := ensured.find
        rw [importEntries, result, first]
        cases outcome with
        | error failure =>
            cases written with
            | repeated new again =>
                have here : entry.domain ∈ newNames base (entry :: usable entries) := by
                  simp [newNames, new]
                simp only [reduceCtorEq, Except.error.injEq, exists_false, false_iff, not_and]
                intro _ _ absent
                exact again ((same entry.domain).trans (absent entry.domain here))
        | ok answer =>
            obtain ⟨next, tally⟩ := answer
            have absent := fun name => (written.find_eq_none name).trans (by rw [same name])
            have later : ∀ name, next.find name = none → base.find name = none :=
              fun name none => kept name ((absent name).mp none).1
            have names : newNames base (entry :: usable entries) =
                if base.find entry.domain = none then entry.domain :: newNames base (usable entries)
                else newNames base (usable entries) := by
              simp only [newNames, List.filter_cons, Option.isNone_iff_eq_none]
              split <;> rfl
            dsimp only
            rw [induction later, names]
            split
            · rename_i new
              have free : books.find entry.domain = none := by
                cases written with
                | added _ first => rw [← same, first]
                | kept row stayed stored _ => simp [new] at stored
                | moved row target stayed stored _ _ => simp [new] at stored
              simp only [List.any_cons, path, Bool.false_or, List.nodup_cons, List.forall_mem_cons,
                free, true_and, absent, new, true_implies]
              constructor
              · rintro ⟨blank, distinct, apart⟩
                exact ⟨blank, ⟨fun again => (apart _ again).2 rfl, distinct⟩,
                  fun name member => (apart name member).1⟩
              · rintro ⟨blank, ⟨fresh, distinct⟩, apart⟩
                exact ⟨blank, distinct, fun name member =>
                  ⟨apart name member, fun equal => fresh (equal ▸ member)⟩⟩
            · rename_i old
              simp [path, absent, old]

/-! ## What the loop leaves -/

/-- A difference from the books before the import that no later line takes back. -/
private def Changed (base books : Books) : Prop :=
  MoreGroups books base ∨ base.portfolio.domains.length < books.portfolio.domains.length ∨
    ∃ old ∈ base.portfolio.domains, ∃ row ∈ books.portfolio.domains,
      row.id = old.id ∧ row.groupId ≠ old.groupId

private theorem Changed.not_alike {books : Books} (changed : Changed base books) :
    ¬ Alike books base := by
  intro alike
  rcases changed with groups | domains | ⟨old, isOld, row, isRow, same, moved⟩
  · rw [MoreGroups, alike.groups] at groups
    exact Nat.lt_irrefl _ groups
  · rw [alike.domains] at domains
    exact Nat.lt_irrefl _ domains
  · rw [alike.domains] at isRow
    exact moved (congrArg Domain.groupId (Books.eq_of_id isRow isOld same))

private theorem Changed.ensured {books started : Books} {path : Option Text}
    {named : Option GroupId} (changed : Changed base books)
    (ensured : Ensured path books started named) : Changed base started := by
  have grown : books.portfolio.groups.rows.length ≤ started.portfolio.groups.rows.length := by
    rcases ensured.groups with ⟨_, same⟩ | ⟨_, more⟩
    · rw [same]
    · exact Nat.le_of_lt more
  rcases changed with groups | rest
  · exact .inl (Nat.lt_of_lt_of_le groups grown)
  · right
    rw [ensured.domains]
    exact rest

private theorem Changed.written {named : Option GroupId} {domain : Text}
    {started next : Books} {tally later : Tally} (changed : Changed base started)
    (written : Written base context domain named started tally (.ok (next, later))) :
    Changed base next := by
  cases written with
  | added new first =>
      have longer : (started.insert domain (named.or context.defaultId) context.lifecycle
          context.note context.createdBy first).portfolio.domains =
          started.portfolio.domains ++ [_] := rfl
      rcases changed with groups | domains | ⟨old, isOld, row, isRow, moved⟩
      · exact .inl groups
      · refine .inr (.inl ?_)
        rw [longer, List.length_append]
        exact Nat.lt_add_right _ domains
      · exact .inr (.inr ⟨old, isOld, row, longer ▸ List.mem_append_left _ isRow, moved⟩)
  | kept row stayed stored same => exact changed
  | moved here target stayed stored isTarget differs =>
      rcases changed with groups | domains | ⟨old, isOld, row, isRow, same, moved⟩
      · exact .inl groups
      · refine .inr (.inl ?_)
        simpa [Books.update, Books.replace] using domains
      · refine .inr (.inr ⟨old, isOld, _, Books.mem_update_of_mem isRow, ?_⟩)
        split
        · rename_i isHere
          -- The line compares with the unit the domain had before the import.
          have equal : here = old :=
            Books.eq_of_id (Books.find_eq_some.mp stored).1 isOld (isHere.symm.trans same)
          exact ⟨same, fun unit => differs (equal ▸ unit.symm)⟩
        · exact ⟨same, moved⟩

private theorem Ensured.alike {books started : Books} {path : Option Text} {named : Option GroupId}
    (ensured : Ensured path books started named) (alike : Alike books base) :
    reads base.portfolio.groups path = some named ∧ Alike started base ∨
      reads base.portfolio.groups path = none ∧ Changed base started := by
  have groups := ensured.groups
  rw [alike.groups] at groups
  refine groups.imp (fun ⟨found, same⟩ => ⟨found, same, ?_, ?_, ?_⟩) fun ⟨absent, more⟩ =>
    ⟨absent, .inl ?_⟩
  · exact ensured.domains.trans alike.domains
  · exact ensured.book.trans alike.book
  · exact ensured.events.trans alike.events
  · rw [MoreGroups, alike.groups] at more
    exact more

private theorem alike_or_changed {entry : Entry} {books started next : Books}
    {named : Option GroupId} {tally later : Tally}
    (ensured : Ensured entry.group books started named)
    (written : Written base context entry.domain named started tally (.ok (next, later)))
    (alike : Alike books base) :
    settled base context.defaultId entry = true ∧ Alike next base ∨
      settled base context.defaultId entry = false ∧ Changed base next := by
  rcases ensured.alike alike with ⟨found, same⟩ | ⟨absent, changed⟩
  · cases written with
    | added new first =>
        refine .inr ⟨by simp [settled, new], .inr (.inl ?_)⟩
        simp [Books.insert, same.domains]
    | kept row stayed stored unmoved => exact .inl ⟨by simpa [settled, stored, found] using unmoved, same⟩
    | moved row target stayed stored isTarget differs =>
        have isRow := (Books.find_eq_some.mp stored).1
        refine .inr ⟨by simp [settled, stored, found, isTarget, differs], .inr (.inr ?_)⟩
        refine ⟨row, isRow, _, Books.mem_update_of_mem (same.domains ▸ isRow), ?_⟩
        rw [if_pos rfl]
        exact ⟨rfl, Ne.symm differs⟩
  · refine .inr ⟨?_, changed.written written⟩
    cases stored : base.find entry.domain <;> simp [settled, stored, absent]

/-- The lines of a loop that is stopped leave the books as they were, or change them. -/
private structure Left (base : Books) (context : ImportContext) (entries : List Entry)
    (books final : Books) : Prop where
  alike : Alike books base → (usable entries).all (settled base context.defaultId) = true →
    Alike final base
  unsettled : Alike books base → (usable entries).all (settled base context.defaultId) = false →
    Changed base final
  changed : Changed base books → Changed base final

include isBase in
private theorem left_of_stopped {entries : List Entry} {books : Books} {tally : Tally}
    {problem : Text}
    (stopped : (importEntries context entries books tally).2 = .error (.value problem)) :
    Left base context entries books (importEntries context entries books tally).1 := by
  induction entries generalizing books tally with
  | nil => cases stopped
  | cons entry entries induction =>
      rcases importEntry_cases isBase entry books tally with
        ⟨blank, ⟨broken, found, result, same⟩⟩ |
          ⟨path, started, named, outcome, ensured, written, result⟩
      · have none : usable (entry :: entries) = [] := by simp [usable, blank]
        rw [importEntries, result]
        refine ⟨fun alike _ => same.trans alike, ?_, ?_⟩
        · intro _ unsettled
          simp [none] at unsettled
        · rintro (groups | rest)
          · refine .inl ?_
            rw [MoreGroups, same.groups]
            exact groups
          · right
            rw [same.domains]
            exact rest
      · have first : usable (entry :: entries) = entry :: usable entries := by simp [usable, path]
        rw [importEntries, result] at stopped ⊢
        cases outcome with
        | error failure =>
            cases written
            cases stopped
        | ok answer =>
            obtain ⟨next, tally⟩ := answer
            have rest := induction stopped
            refine ⟨fun alike all => ?_, fun alike all => ?_,
              fun changed => rest.changed ((changed.ensured ensured).written written)⟩ <;>
              rw [first, List.all_cons] at all <;>
              rcases alike_or_changed ensured written alike with ⟨here, same⟩ | ⟨here, changed⟩
            · exact rest.alike same (by simpa [here] using all)
            · simp [here] at all
            · exact rest.unsettled same (by simpa [here] using all)
            · exact rest.changed changed

end Loop

/-! ## The whole import -/

private theorem defaultUnit_cases (options : ImportOptions) (books : Books) :
    (options.defaultGroupId = none ∧ isBlank options.defaultGroup = true) ∧
      (∃ started problem, defaultUnit options books = (started, .error problem) ∧
        Alike started books) ∨
    (options.defaultGroupId = none → isBlank options.defaultGroup = false) ∧
      ∃ started defaultId, defaultUnit options books = (started, .ok defaultId) ∧
        started.portfolio.domains = books.portfolio.domains ∧
        (defaultReads options books.portfolio.groups = some defaultId ∧ Alike started books ∨
          defaultReads options books.portfolio.groups = none ∧ Changed books started) := by
  unfold defaultUnit defaultReads
  cases byId : options.defaultGroupId with
  | some id =>
      exact .inr ⟨fun absent => (by cases absent),
        books, some id, rfl, rfl, .inl ⟨rfl, Alike.refl books⟩⟩
  | none =>
      cases given : options.defaultGroup.filter (· ≠ []) with
      | none =>
          refine .inr ⟨fun _ => isBlank_of_filter_eq_none given, books, none, rfl, rfl,
            .inl ⟨?_, Alike.refl books⟩⟩
          simp only [reads, given]
      | some path =>
          obtain ⟨isPath, nonempty⟩ := Option.filter_eq_some_iff.mp given
          have cases := ensurePath_cases path books (by simpa using nonempty)
          rw [isPath]
          rcases result : books.ensurePath path with ⟨started, answer⟩
          rw [result] at cases
          rcases cases with ⟨blank, ⟨problem, refused⟩, alike⟩ | ⟨levels, named, done, ensured⟩
          · obtain rfl : answer = _ := refused
            exact .inl ⟨⟨rfl, blank⟩, started, problem, result, alike⟩
          · obtain rfl : answer = _ := done
            exact .inr ⟨fun _ => levels, started, named, result, ensured.domains,
              ensured.alike (Alike.refl books)⟩

/-- A refused import leaves everything as it was exactly when nothing has to be written before it
comes to a blank path: a new domain, a unit, or the unit of a stored domain. -/
theorem refused_iff_intact (accounts : List Account) (entries : List Entry) (options : ImportOptions)
    (extras : Extras) (books : Books) :
    Refused accounts entries options extras books ↔ Intact entries options books := by
  unfold Refused Intact importDomains
  cases checked : importProblem entries options books with
  | some problem => simp [Alike.refl]
  | none =>
      rcases defaultUnit_cases options books with
        ⟨blank, started, problem, result, alike⟩ | ⟨levels, started, defaultId, result, domains, left⟩
      · simp [result, alike, blank.1, blank.2]
      · dsimp only
        rw [result]
        dsimp only
        generalize isContext : ImportContext.mk books.portfolio.domains defaultId _ _ _ = context
        have isBase : context.existing = books.portfolio.domains := by rw [← isContext]
        have isDefault : context.defaultId = defaultId := by rw [← isContext]
        have find : ∀ name, started.find name = books.find name := by
          intro name
          rw [Books.find, domains]
          rfl
        have stops := @stops_iff books context isBase entries started Tally.empty
          fun name absent => (find name).symm.trans absent
        have leaves := @left_of_stopped books context isBase entries started Tally.empty
        have fresh : ∀ name ∈ newNames books (usable entries), started.find name = none := by
          intro name member
          obtain ⟨entry, held, rfl⟩ := List.mem_map.mp member
          exact (find entry.domain).trans (by simpa using (List.mem_filter.mp held).2)
        generalize importEntries context entries started Tally.empty = loop at stops leaves ⊢
        obtain ⟨final, answer⟩ := loop
        -- The loop comes to its end, or to a new domain it has added already.
        have through (goesOn : ∀ problem, answer ≠ .error (.value problem)) :
            Intact entries options books := by
          intro _ _ blank distinct
          obtain ⟨problem, stopped⟩ := stops.mpr ⟨blank, distinct, fresh⟩
          exact absurd stopped (goesOn problem)
        cases answer with
        | ok tally => simpa [Intact, checked] using through
        | error failure =>
            cases failure with
            | integrity => simpa [Intact, checked] using through
            | value problem =>
                obtain ⟨blank, distinct, _⟩ := stops.mp ⟨problem, rfl⟩
                have rest := leaves rfl
                simp only [Except.error.injEq, ImportFailure.value.injEq, forall_eq', true_implies,
                  blank, distinct, forall_prop_of_true levels]
                rcases left with ⟨found, same⟩ | ⟨absent, changed⟩
                · rw [found, Option.any_some, ← isDefault]
                  cases all : (usable entries).all (settled books context.defaultId) with
                  | true => simpa using rest.alike same all
                  | false => simpa using (rest.unsettled same all).not_alike
                · simpa [absent] using (rest.changed changed).not_alike

/-- The first line of a refused import is stored, and no event says so. -/
theorem blankPath_not_refused :
    ¬ Refused [] [⟨"a.nl".toList, none⟩, ⟨"b.nl".toList, some ">".toList⟩]
      { defaultGroup := none, defaultGroupId := none, createdBy := none, defaultLifecycle := none,
        note := none, labels := [] } Table.empty Books.empty := by
  intro refused
  have alike := refused "A unit needs a name".toList rfl
  exact absurd (congrArg List.length alike.domains) (by decide +kernel)

end DomainPortfolio
end DomainLens
