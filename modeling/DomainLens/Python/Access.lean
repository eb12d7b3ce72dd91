import DomainLens.Python.Value

/-!
# Reading a value of any shape

A program that takes the answer of another side for a dictionary or a list calls `get` on it or walks
through it.  On a value of another shape this raises; the file says on which.
-/

namespace DomainLens
namespace Python

section Partial

variable {α β : Type*}

theorem mapM_isSome_iff {partly : α → Option β} {items : List α} :
    (items.mapM partly).isSome ↔ ∀ item ∈ items, (partly item).isSome := by
  induction items with
  | nil => simp
  | cons item items induction =>
      rw [List.mapM_cons, List.forall_mem_cons, ← induction]
      cases partly item with
      | none => simp
      | some found => cases items.mapM partly <;> simp

theorem mapM_eq_pure_map {m : Type → Type} [Monad m] [LawfulMonad m] {β : Type} {act : α → m β}
    {answer : α → β} {items : List α} (answers : ∀ item ∈ items, act item = pure (answer item)) :
    items.mapM act = pure (items.map answer) := by
  induction items with
  | nil => rfl
  | cons item items induction =>
      rw [List.mapM_cons, answers item List.mem_cons_self,
        induction fun other member => answers other (List.mem_cons_of_mem item member)]
      simp

theorem bind_isSome_iff {first : Option α} {next : α → Option β} :
    (first.bind next).isSome ↔ ∃ found, first = some found ∧ (next found).isSome := by
  rw [Option.isSome_bind, Option.any_eq_true]

end Partial

namespace Value

/-- `value.get(key)`; only a dictionary has it. -/
def getOf (value : Value) (key : String) : Option Value :=
  match value with
  | .dict entries => some (getValue entries key)
  | _ => none

/-- What a loop over the value goes through. -/
def elements : Value → Option (List Value)
  | .list items => some items
  | .text chars => some (chars.map fun char => .text [char])
  | .dict entries => some (entries.map fun entry => .text entry.1)
  | .null | .bool _ | .number _ => none

def isText (value : Value) (word : Text) : Bool :=
  match value with
  | .text chars => chars = word
  | _ => false

/-- `word in value`. -/
def contains (value : Value) (word : Text) : Option Bool :=
  match value with
  | .list items => some (items.any fun item => item.isText word)
  | .text chars => some (word <:+: chars)
  | .dict entries => some (entries.any fun entry => entry.1 = word)
  | .null | .bool _ | .number _ => none

def IsDict (value : Value) : Prop := ∃ entries, value = .dict entries

/-- A value that is missing or empty, or can be gone through, with every element so. -/
def Each (value : Value) (holds : Value → Prop) : Prop :=
  value.truthy → ∃ items, value.elements = some items ∧ ∀ item ∈ items, holds item

/-- `for … in value or []`. -/
def elementsOr (value : Value) : Option (List Value) := (value.or (.list [])).elements

variable {value : Value}

theorem getOf_isSome_iff {key : String} : (value.getOf key).isSome ↔ value.IsDict := by
  cases value <;> simp [getOf, IsDict]

theorem getOf_dict (entries : Items) (key : String) :
    (Value.dict entries).getOf key = some (getValue entries key) := rfl

theorem elementsOr_mapM_isSome_iff {β : Type*} {partly : Value → Option β} :
    (value.elementsOr.bind fun items => items.mapM partly).isSome ↔
      value.Each fun item => (partly item).isSome := by
  rw [bind_isSome_iff, elementsOr, Value.or, Each]
  cases value.truthy with
  | false => simp [elements]
  | true => simp only [if_true, true_implies, mapM_isSome_iff]

theorem Each.imp {holds also : Value → Prop} (each : value.Each holds)
    (step : ∀ item, holds item → also item) : value.Each also := by
  intro isTruthy
  obtain ⟨items, found, all⟩ := each isTruthy
  exact ⟨items, found, fun item member => step item (all item member)⟩

theorem each_congr {holds also : Value → Prop} (same : ∀ item, holds item ↔ also item) :
    value.Each holds ↔ value.Each also :=
  ⟨fun each => each.imp fun item => (same item).mp, fun each => each.imp fun item => (same item).mpr⟩

end Value
end Python
end DomainLens
