import DomainLens.Python.Text

/-!
# Values that are compared

What the module `json` reads, with its numbers, and the equality Python gives it: a truth value is a
number, whole numbers and floating ones are compared by what they are worth, and dictionaries whatever
the order of their keys.
-/

namespace DomainLens
namespace Python

/-! ## Numbers -/

/-- An `int` or a `float`; the worth of a finite `float` is a fraction. -/
inductive Number where
  | int (value : Int)
  | float (value : ℚ)
  | infinite (negative : Bool)
  | nan
deriving DecidableEq

namespace Number

def worth : Number → Option ℚ
  | .int value => some value
  | .float value => some value
  | .infinite _ | .nan => none

/-- `==`. -/
def same : Number → Number → Bool
  | .infinite left, .infinite right => left == right
  | left, right =>
      match left.worth, right.worth with
      | some left, some right => left == right
      | _, _ => false

theorem same_comm (left right : Number) : left.same right = right.same left := by
  cases left <;> cases right <;> simp [same, worth, Bool.beq_comm, beq_eq_decide]

end Number

/-! ## Values -/

inductive Value where
  | null
  | bool (value : Bool)
  | number (value : Number)
  | text (value : Text)
  | list (items : List Value)
  | dict (entries : List (Text × Value))

abbrev Items := List (Text × Value)

namespace Value

def truthy : Value → Bool
  | .null => false
  | .bool value => value
  | .number value => value.worth ≠ some 0
  | .text value => !value.isEmpty
  | .list items => !items.isEmpty
  | .dict entries => !entries.isEmpty

/-- The `or` of two values. -/
def or (value other : Value) : Value := if value.truthy then value else other

def number? : Value → Option Number
  | .bool value => some (.int (if value then 1 else 0))
  | .number value => some value
  | _ => none

/-- A key of a dictionary may be any value but a list or a dictionary. -/
def isHashable : Value → Bool
  | .list _ | .dict _ => false
  | _ => true

mutual

/-- The value with its dictionaries in the order of their keys. -/
def ordered : Value → Value
  | .list items => .list (orderedItems items)
  | .dict entries => .dict ((orderedEntries entries).insertionSort fun left right => left.1 ≤ right.1)
  | value => value

def orderedItems : List Value → List Value
  | [] => []
  | item :: items => ordered item :: orderedItems items

def orderedEntries : Items → Items
  | [] => []
  | (key, value) :: entries => (key, ordered value) :: orderedEntries entries

end

mutual

def alike : Value → Value → Bool
  | .null, .null => true
  | .text left, .text right => left == right
  | .list left, .list right => alikeItems left right
  | .dict left, .dict right => alikeEntries left right
  | left, right =>
      match left.number?, right.number? with
      | some left, some right => left.same right
      | _, _ => false

def alikeItems : List Value → List Value → Bool
  | [], [] => true
  | left :: lefts, right :: rights => alike left right && alikeItems lefts rights
  | _, _ => false

def alikeEntries : Items → Items → Bool
  | [], [] => true
  | (key, left) :: lefts, (other, right) :: rights =>
      key == other && alike left right && alikeEntries lefts rights
  | _, _ => false

end

/-- `==`. -/
def same (left right : Value) : Bool := alike left.ordered right.ordered

mutual

theorem alike_comm : ∀ left right : Value, alike left right = alike right left
  | .null, right => by cases right <;> rfl
  | .bool left, right => by
      cases right <;> simp [alike, number?, Number.same_comm]
  | .number left, right => by
      cases right <;> simp [alike, number?, Number.same_comm]
  | .text left, right => by
      cases right <;> simp [alike, number?, beq_eq_decide, eq_comm]
  | .list left, right => by
      cases right with
      | list right => exact alikeItems_comm left right
      | _ => rfl
  | .dict left, right => by
      cases right with
      | dict right => exact alikeEntries_comm left right
      | _ => rfl

theorem alikeItems_comm : ∀ left right : List Value, alikeItems left right = alikeItems right left
  | [], [] => rfl
  | [], _ :: _ => rfl
  | _ :: _, [] => rfl
  | left :: lefts, right :: rights => by
      rw [alikeItems, alikeItems, alike_comm left right, alikeItems_comm lefts rights]

theorem alikeEntries_comm : ∀ left right : Items, alikeEntries left right = alikeEntries right left
  | [], [] => rfl
  | [], _ :: _ => rfl
  | _ :: _, [] => rfl
  | (key, left) :: lefts, (other, right) :: rights => by
      rw [alikeEntries, alikeEntries, alike_comm left right, alikeEntries_comm lefts rights]
      simp only [beq_eq_decide, eq_comm]

end

theorem same_comm (left right : Value) : left.same right = right.same left := alike_comm _ _

theorem not_same_both (value : Value) : ¬(value.same (.bool true) ∧ value.same (.bool false)) := by
  rintro ⟨isTrue, isFalse⟩
  cases value with
  | number value =>
      cases value <;> simp_all [same, ordered, alike, number?, Number.same, Number.worth]
  | bool value => cases value <;> simp_all [same, ordered, alike, number?, Number.same, Number.worth]
  | _ => simp [same, ordered, alike, number?] at isTrue

end Value

/-- `entries.get(key)`. -/
def getValue (entries : Items) (key : String) : Value := (entries.lookup key.toList).getD .null

end Python
end DomainLens
