import DomainLens.DomainPortfolio.Units

/-!
# Ensuring a path

A path whose units are stored is found as it is, and of another one the missing units are created.
Only a path without a level is refused.
-/

namespace DomainLens
namespace DomainPortfolio

open Python

/-- The unit at the end of some levels under a parent, where all of them are stored. -/
def standingParts (groups : Groups) : List Text → Option GroupId → Option (Option GroupId)
  | [], parent => some parent
  | part :: parts, parent =>
      match cleanGroupName part with
      | .error _ => none
      | .ok name => (find groups name parent).bind fun id => standingParts groups parts (some id)

/-! ## Names of levels -/

private theorem joinWords_ne_nil {words : List Text} (nonempty : words ≠ [])
    (areWords : ∀ word ∈ words, IsWord word) : joinWords words ≠ [] := by
  cases words with
  | nil => exact absurd rfl nonempty
  | cons word words =>
      have first := (areWords word List.mem_cons_self).ne_nil
      cases words with
      | nil => exact first
      | cons next words => simp [joinWords]

theorem cleanGroupName_of_mem_partsOf {path part : Text} (member : part ∈ partsOf path) :
    ∃ name, cleanGroupName part = .ok name := by
  have solid := of_decide_eq_true (List.mem_filter.mp member).2
  obtain ⟨char, held, notSpace⟩ := exists_solid_of_strip_ne_nil solid
  have apart : isSeparator char = false :=
    not_separator_of_mem_splitOnP (List.mem_of_mem_filter member) char held
  have words : split (part.map fun char => if isSeparator char then ' ' else char) ≠ [] := by
    refine split_ne_nil (List.mem_map.mpr ⟨char, held, ?_⟩) notSpace
    simp [apart]
  have joined := joinWords_ne_nil words fun word isPart => isWord_of_mem_split isPart
  refine ⟨_, if_neg ?_⟩
  simpa [List.take_eq_nil_iff] using joined

/-! ## What a path leaves -/

/-- What ensuring levels that all have a usable name leaves: the tables as they were where the units
are stored, and more units where one is missing. -/
theorem ensureParts_spec {parts : List Text} (parent : Option GroupId) (portfolio : Portfolio)
    (named : ∀ part ∈ parts, ∃ name, cleanGroupName part = .ok name) :
    (∃ id, standingParts portfolio.groups parts parent = some id ∧
      ensureParts parts parent portfolio = (portfolio, .ok id)) ∨
    standingParts portfolio.groups parts parent = none ∧
      ∃ after id, ensureParts parts parent portfolio = (after, .ok id) ∧
        portfolio.groups.rows.length < after.groups.rows.length := by
  induction parts generalizing parent portfolio with
  | nil => exact .inl ⟨parent, rfl, rfl⟩
  | cons part parts induction =>
      obtain ⟨name, cleaned⟩ := named part List.mem_cons_self
      have rest := fun parent portfolio =>
        induction parent portfolio fun other member => named other (List.mem_cons_of_mem part member)
      cases found : find portfolio.groups name parent with
      | some id =>
          have here : ensureGroup part parent portfolio = (portfolio, .ok id) := by
            simp only [ensureGroup, cleaned, found]
          simpa only [standingParts, cleaned, found, Option.bind_some, ensureParts, here]
            using rest (some id) portfolio
      | none =>
          have here : ensureGroup part parent portfolio =
              (portfolio.insert name parent, .ok (portfolio.lastId + 1)) := by
            simp only [ensureGroup, cleaned, found]
          have longer : portfolio.groups.rows.length <
              (portfolio.insert name parent).groups.rows.length := by
            simp [Portfolio.insert, Table.insert]
          refine .inr ⟨by simp only [standingParts, cleaned, found, Option.bind_none], ?_⟩
          simp only [ensureParts, here]
          rcases rest (some (portfolio.lastId + 1)) (portfolio.insert name parent) with
            ⟨id, _, same⟩ | ⟨_, after, id, done, more⟩
          · exact ⟨_, id, same, longer⟩
          · exact ⟨after, id, done, longer.trans more⟩

/-- The unit of a path, where it has a level and all its units are stored. -/
def standing (groups : Groups) (path : Text) : Option (Option GroupId) :=
  if partsOf path = [] then none else standingParts groups (partsOf path) none

theorem ensurePath_spec {path : Text} (portfolio : Portfolio) (levels : partsOf path ≠ []) :
    (∃ id, standing portfolio.groups path = some id ∧
      ensurePath path portfolio = (portfolio, .ok id)) ∨
    standing portfolio.groups path = none ∧
      ∃ after id, ensurePath path portfolio = (after, .ok id) ∧
        portfolio.groups.rows.length < after.groups.rows.length := by
  rw [standing, ensurePath, if_neg levels, if_neg levels]
  exact ensureParts_spec none portfolio fun part member => cleanGroupName_of_mem_partsOf member

/-! ## Paths that stand -/

private theorem find_insert_of_find {portfolio : Portfolio} {name other : Text}
    {parent up : Option GroupId} {id : GroupId} (found : find portfolio.groups name parent = some id) :
    find (portfolio.insert other up).groups name parent = some id := by
  obtain ⟨group, isFirst, rfl⟩ := Option.map_eq_some_iff.mp found
  change ((portfolio.groups.rows ++ [_]).find? _).map _ = _
  rw [List.find?_append, isFirst]
  rfl

private theorem find_ensureParts {parts : List Text} {parent up : Option GroupId}
    {portfolio : Portfolio} {name : Text} {id : GroupId}
    (found : find portfolio.groups name parent = some id) :
    find (ensureParts parts up portfolio).1.groups name parent = some id := by
  induction parts generalizing up portfolio with
  | nil => exact found
  | cons part parts induction =>
      unfold ensureParts ensureGroup
      cases cleanGroupName part with
      | error problem => exact found
      | ok cleaned =>
          dsimp only
          cases find portfolio.groups cleaned up with
          | some held => exact induction found
          | none => exact induction (find_insert_of_find found)

theorem standing_ensurePath {path other : Text} {portfolio : Portfolio} {id : Option GroupId}
    (found : standing portfolio.groups path = some id) :
    standing (ensurePath other portfolio).1.groups path = some id := by
  have parts : ∀ (parts : List Text) (parent : Option GroupId),
      standingParts portfolio.groups parts parent = some id →
      standingParts (ensureParts (partsOf other) none portfolio).1.groups parts parent = some id := by
    intro parts
    induction parts with
    | nil => exact fun _ same => same
    | cons part parts induction =>
        intro parent stands
        unfold standingParts at stands ⊢
        cases cleaned : cleanGroupName part with
        | error problem =>
            rw [cleaned] at stands
            cases stands
        | ok name =>
            rw [cleaned] at stands
            obtain ⟨held, isHeld, rest⟩ := Option.bind_eq_some_iff.mp stands
            exact Option.bind_eq_some_iff.mpr ⟨held, find_ensureParts isHeld, induction _ rest⟩
  unfold standing ensurePath at *
  split at found
  · cases found
  · rename_i levels
    rw [if_neg levels]
    split
    · exact found
    · exact parts _ none found

theorem isSome_of_standing {groups : Groups} {path : Text} {id : Option GroupId}
    (found : standing groups path = some id) : id.isSome := by
  have parts : ∀ (parts : List Text) (parent : Option GroupId), parent.isSome ∨ parts ≠ [] →
      standingParts groups parts parent = some id → id.isSome := by
    intro parts
    induction parts with
    | nil =>
        intro parent given same
        obtain rfl := Option.some.inj same
        simpa using given
    | cons part parts induction =>
        intro parent _ stands
        unfold standingParts at stands
        split at stands
        · cases stands
        · obtain ⟨held, _, rest⟩ := Option.bind_eq_some_iff.mp stands
          exact induction (some held) (.inl rfl) rest
  unfold standing at found
  split at found
  · cases found
  · exact parts _ none (.inr ‹_›) found

end DomainPortfolio
end DomainLens
