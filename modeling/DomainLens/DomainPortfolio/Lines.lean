import DomainLens.DomainPortfolio.Import
import DomainLens.DomainPortfolio.Paths

/-!
# The lines of an import

What one line of an import leaves: nothing where its path is blank, and otherwise the units of its
path and a domain that was added, moved or kept.
-/

namespace DomainLens
namespace DomainPortfolio

open Python

/-! ## Books that are the same -/

/-- The units, the domains, the contacts and the change log are the same. -/
structure Alike (left right : Books) : Prop where
  groups : left.portfolio.groups = right.portfolio.groups
  domains : left.portfolio.domains = right.portfolio.domains
  book : left.book = right.book
  events : left.events = right.events

namespace Alike

variable {left right last : Books}

theorem refl (books : Books) : Alike books books := ⟨rfl, rfl, rfl, rfl⟩

theorem trans (first : Alike left right) (second : Alike right last) : Alike left last :=
  ⟨first.groups.trans second.groups, first.domains.trans second.domains,
    first.book.trans second.book, first.events.trans second.events⟩

end Alike

/-! ## Paths and names -/

/-- A path that is given and has no level. -/
def isBlank (path : Option Text) : Bool := path.any fun path => path ≠ [] ∧ partsOf path = []

/-- The unit a path names, unless one has to be created for it. -/
def reads (groups : Groups) (path : Option Text) : Option (Option GroupId) :=
  match path.filter (· ≠ []) with
  | none => some none
  | some path => standing groups path

/-- The lines before the first one with a blank path. -/
def usable (entries : List Entry) : List Entry := entries.takeWhile fun entry => !isBlank entry.group

/-- The domains of lines that are not stored. -/
def newNames (books : Books) (entries : List Entry) : List Text :=
  (entries.filter fun entry => (books.find entry.domain).isNone).map Entry.domain

/-! ## What a line does -/

def MoreGroups (after before : Books) : Prop :=
  before.portfolio.groups.rows.length < after.portfolio.groups.rows.length

/-- What ensuring the path of a line leaves. -/
structure Ensured (path : Option Text) (books : Books) (started : Books)
    (named : Option GroupId) : Prop where
  domains : started.portfolio.domains = books.portfolio.domains
  book : started.book = books.book
  events : started.events = books.events
  groups : reads books.portfolio.groups path = some named ∧
      started.portfolio.groups = books.portfolio.groups ∨
    reads books.portfolio.groups path = none ∧ MoreGroups started books

theorem isBlank_of_filter_eq_none {path : Option Text}
    (given : path.filter (· ≠ []) = none) : isBlank path = false := by
  cases path with
  | none => rfl
  | some text =>
      rw [Option.filter_eq_none_iff] at given
      have empty : text = [] := by simpa using given text rfl
      simp [isBlank, empty]

theorem ensurePath_cases (path : Text) (books : Books) (nonempty : path ≠ []) :
    isBlank (some path) = true ∧ (∃ problem, (books.ensurePath path).2 = .error problem) ∧
      Alike (books.ensurePath path).1 books ∨
    isBlank (some path) = false ∧ ∃ named, (books.ensurePath path).2 = .ok named ∧
      Ensured (some path) books (books.ensurePath path).1 named := by
  have isPath : reads books.portfolio.groups (some path) = standing books.portfolio.groups path := by
    simp [reads, Option.filter, nonempty]
  by_cases levels : partsOf path = []
  · have result : ensurePath path books.portfolio =
        (books.portfolio, .error "A unit needs a name".toList) := by
      rw [ensurePath, if_pos levels]
    refine .inl ⟨by simp [isBlank, nonempty, levels], ⟨_, congrArg Prod.snd result⟩, ?_⟩
    exact ⟨congrArg (·.1.groups) result, congrArg (·.1.domains) result, rfl, rfl⟩
  · refine .inr ⟨by simp [isBlank, levels], ?_⟩
    have kept := domains_ensurePath path books.portfolio
    rcases ensurePath_spec books.portfolio levels with ⟨id, found, result⟩ |
      ⟨absent, after, id, result, more⟩
    · exact ⟨id, congrArg Prod.snd result, kept, rfl, rfl,
        .inl ⟨isPath.trans found, congrArg (·.1.groups) result⟩⟩
    · refine ⟨id, congrArg Prod.snd result, kept, rfl, rfl, .inr ⟨isPath.trans absent, ?_⟩⟩
      exact more.trans_eq (congrArg (·.1.groups.rows.length) result).symm

theorem Ensured.find {path : Option Text} {books started : Books} {named : Option GroupId}
    (ensured : Ensured path books started named) (name : Text) :
    started.find name = books.find name := by
  rw [Books.find, ensured.domains]
  rfl

section Lines

variable {base : Books} {context : ImportContext}
  (isBase : context.existing = base.portfolio.domains)

/-- What a line does once its unit is known, `base` being the books before the import. -/
inductive Written (base : Books) (context : ImportContext) (domain : Text) (named : Option GroupId)
    (started : Books) (tally : Tally) : Except ImportFailure (Books × Tally) → Prop where
  | repeated (new : base.find domain = none) (again : started.find domain ≠ none) :
      Written base context domain named started tally (.error .integrity)
  | added (new : base.find domain = none) (first : started.find domain = none) :
      Written base context domain named started tally
        (.ok (started.insert domain (named.or context.defaultId) context.lifecycle context.note
            context.createdBy first,
          { tally with
            added := tally.added ++ [domain]
            addedUnits := assignKey domain (named.or context.defaultId) tally.addedUnits }))
  | kept (row : Domain) (stayed : List Text) (stored : base.find domain = some row)
      (same : (targetOf context.defaultId named row.groupId).all fun target =>
        row.groupId = some target) :
      Written base context domain named started tally (.ok (started, { tally with stayed }))
  | moved (row : Domain) (target : GroupId) (stayed : List Text)
      (stored : base.find domain = some row)
      (isTarget : targetOf context.defaultId named row.groupId = some target)
      (differs : row.groupId ≠ some target) :
      Written base context domain named started tally
        (.ok (started.update row.id (Setting.unit (some target)).apply
            (Setting.unit (some target)).apply_keeps,
          { tally with
            stayed
            moved := tally.moved ++ [domain]
            unitMoves := assignKey domain (row.groupId, target) tally.unitMoves }))

include isBase in
theorem written_importNamed (domain : Text) (named : Option GroupId) (started : Books)
    (tally : Tally) :
    Written base context domain named started tally
      (importNamed context domain named started tally) := by
  have read : context.existing.find? (fun row => row.domain = domain) = base.find domain := by
    rw [isBase]
    rfl
  unfold importNamed
  rw [read]
  cases stored : base.find domain with
  | none =>
      dsimp only
      split
      · rename_i again
        exact .repeated stored (by simp [again])
      · rename_i first
        exact .added stored first
  | some row =>
      dsimp only
      -- Whether the domain stays where it is against the default unit is in the report alone.
      have tallied : ∃ stayed, (if named = none ∧ context.defaultId ≠ none ∧ row.groupId ≠ none ∧
          row.groupId ≠ context.defaultId then
        { tally with stayed := tally.stayed ++ [domain] } else tally) = { tally with stayed } := by
        split
        · exact ⟨_, rfl⟩
        · exact ⟨tally.stayed, rfl⟩
      obtain ⟨stayed, isTally⟩ := tallied
      rw [isTally]
      cases isTarget : targetOf context.defaultId named row.groupId with
      | none => exact .kept row stayed stored (by simp [isTarget])
      | some target =>
          dsimp only
          split
          · rename_i same
            exact .kept row stayed stored (by rw [isTarget]; simp [same])
          · rename_i differs
            exact .moved row target stayed stored isTarget differs

include isBase in
theorem importEntry_cases (entry : Entry) (books : Books) (tally : Tally) :
    isBlank entry.group = true ∧ (∃ broken problem,
      importEntry context entry books tally = (broken, .error (.value problem)) ∧ Alike broken books) ∨
    isBlank entry.group = false ∧ ∃ started named outcome,
      Ensured entry.group books started named ∧
      Written base context entry.domain named started tally outcome ∧
      importEntry context entry books tally =
        match outcome with
        | .ok (next, tally) => (next, .ok tally)
        | .error failure => (started, .error failure) := by
  unfold importEntry
  cases given : entry.group.filter (· ≠ []) with
  | none =>
      refine .inr ⟨?_, books, none, _, ⟨rfl, rfl, rfl, .inl ⟨by simp only [reads, given], rfl⟩⟩,
        written_importNamed isBase entry.domain none books tally, ?_⟩
      · exact isBlank_of_filter_eq_none given
      · cases importNamed context entry.domain none books tally <;> rfl
  | some path =>
      obtain ⟨isPath, nonempty⟩ := Option.filter_eq_some_iff.mp given
      have cases := ensurePath_cases path books (by simpa using nonempty)
      rw [isPath]
      rcases result : books.ensurePath path with ⟨started, answer⟩
      rw [result] at cases
      rcases cases with ⟨blank, ⟨problem, refused⟩, alike⟩ | ⟨levels, named, done, ensured⟩
      · obtain rfl : answer = _ := refused
        exact .inl ⟨blank, started, problem, by simp only [result], alike⟩
      · obtain rfl : answer = _ := done
        refine .inr ⟨levels, started, named, _, ensured,
          written_importNamed isBase entry.domain named started tally, ?_⟩
        cases outcome : importNamed context entry.domain named started tally <;>
          simp only [result, outcome]

theorem Written.find_eq_none {domain : Text} {named : Option GroupId} {started next : Books}
    {tally later : Tally}
    (written : Written base context domain named started tally (.ok (next, later))) (name : Text) :
    next.find name = none ↔
      started.find name = none ∧ (base.find domain = none → name ≠ domain) := by
  rw [Books.find_eq_none, Books.find_eq_none]
  cases written with
  | added new first => simp [Books.insert, new, not_or]
  | kept row stayed stored same => simp [stored]
  | moved row target stayed stored isTarget differs =>
      rw [Books.names_update]
      simp [stored]

end Lines

end DomainPortfolio
end DomainLens
