import DomainLens.Python.Text

/-!
# Values read from JSON

What the module `json` reads, with the truth and the text Python gives it.  An object is a
dictionary: it has each key once, in the order in which the keys were set.
-/

namespace DomainLens
namespace Python

/-- A number is known by its text and by whether it is zero. -/
inductive Json where
  | null
  | bool (value : Bool)
  | num (shown : Text) (isZero : Bool)
  | str (text : Text)
  | arr (items : List Json)
  | obj (entries : List (String × Json))

/-- A dictionary with values from JSON. -/
abbrev Entries := List (String × Json)

namespace Json

def truthy : Json → Bool
  | .null => false
  | .bool value => value
  | .num _ isZero => !isZero
  | .str text => !text.isEmpty
  | .arr items => !items.isEmpty
  | .obj entries => !entries.isEmpty

/-- The `or` of two values. -/
def or (value other : Json) : Json := if value.truthy then value else other

/-- `str`; the text of arrays and objects is given. -/
def shown (render : Json → Text) : Json → Text
  | .null => "None".toList
  | .bool true => "True".toList
  | .bool false => "False".toList
  | .num shown _ => shown
  | .str text => text
  | .arr items => render (.arr items)
  | .obj entries => render (.obj entries)

/-- The text of a string; a method of strings raises for anything else. -/
def text? : Json → Option Text
  | .str text => some text
  | _ => none

/-- The entries of a dictionary, and none of anything else. -/
def entries : Json → Entries
  | .obj entries => entries
  | _ => []

def isObject : Json → Bool
  | .obj _ => true
  | _ => false

def ofOption : Option Text → Json
  | none => .null
  | some text => .str text

end Json

/-! ## Dictionaries -/

/-- `get`. -/
def getItem (entries : Entries) (key : String) : Json := (entries.lookup key).getD .null

/-- `key in entries`. -/
def hasKey (entries : Entries) (key : String) : Bool := (entries.lookup key).isSome

/-- `entries[key] = value`. -/
def setItem (key : String) (value : Json) : Entries → Entries
  | [] => [(key, value)]
  | entry :: entries =>
      if entry.1 = key then (key, value) :: entries else entry :: setItem key value entries

/-- `update`. -/
def updateItems (entries changes : Entries) : Entries :=
  changes.foldl (fun entries change => setItem change.1 change.2 entries) entries

/-- An entry that is there under a condition. -/
def optional (key : String) (value : Option Json) : Entries :=
  (value.map fun value => (key, value)).toList

theorem lookup_optional {key other : String} {value : Option Json} :
    (optional key value).lookup other = if other = key then value else none := by
  cases value with
  | none => simp [optional]
  | some value =>
      by_cases same : other = key
      · simp [optional, same]
      · have different : (other == key) = false := beq_eq_false_iff_ne.mpr same
        simp [optional, List.lookup, same, different]

theorem mem_setItem {key : String} {value : Json} {entries : Entries} {entry : String × Json}
    (member : entry ∈ setItem key value entries) : entry = (key, value) ∨ entry ∈ entries := by
  induction entries with
  | nil => exact .inl (List.mem_singleton.mp member)
  | cons first entries induction =>
      rw [setItem] at member
      split at member
      · exact (List.mem_cons.mp member).imp id (List.mem_cons_of_mem _)
      · rcases List.mem_cons.mp member with rfl | later
        · exact .inr List.mem_cons_self
        · exact (induction later).imp id (List.mem_cons_of_mem _)

theorem mem_updateItems {entries changes : Entries} {entry : String × Json}
    (member : entry ∈ updateItems entries changes) : entry ∈ entries ∨ entry ∈ changes := by
  induction changes generalizing entries with
  | nil => exact .inl member
  | cons change changes induction =>
      rcases induction member with early | late
      · rcases mem_setItem early with rfl | old
        · exact .inr List.mem_cons_self
        · exact .inl old
      · exact .inr (List.mem_cons_of_mem _ late)

/-- Setting a key keeps the other keys, and adds it at the end if it is new. -/
theorem keys_setItem {key : String} {value : Json} {entries : Entries} :
    (setItem key value entries).map Prod.fst =
      if key ∈ entries.map Prod.fst then entries.map Prod.fst
      else entries.map Prod.fst ++ [key] := by
  induction entries with
  | nil => simp [setItem]
  | cons first entries induction =>
      rw [setItem]
      by_cases same : first.1 = key
      · simp [same]
      · have other : key ≠ first.1 := fun equal => same equal.symm
        rw [if_neg same, List.map_cons, induction]
        by_cases member : key ∈ entries.map Prod.fst
        · simp [member]
        · simp [member, other]

theorem nodup_setItem {key : String} {value : Json} {entries : Entries}
    (distinct : (entries.map Prod.fst).Nodup) : ((setItem key value entries).map Prod.fst).Nodup := by
  rw [keys_setItem]
  split
  · exact distinct
  · rename_i fresh
    refine List.nodup_append.mpr ⟨distinct, by simp, fun left isLeft right isRight => ?_⟩
    rw [List.mem_singleton.mp isRight]
    rintro rfl
    exact fresh isLeft

theorem nodup_updateItems {entries changes : Entries} (distinct : (entries.map Prod.fst).Nodup) :
    ((updateItems entries changes).map Prod.fst).Nodup := by
  induction changes generalizing entries with
  | nil => exact distinct
  | cons change changes induction => exact induction (nodup_setItem distinct)

theorem setItem_of_fresh {key : String} {value : Json} {entries : Entries}
    (fresh : key ∉ entries.map Prod.fst) : setItem key value entries = entries ++ [(key, value)] := by
  induction entries with
  | nil => rfl
  | cons first entries induction =>
      have other : first.1 ≠ key := fun same => fresh (by simp [same])
      rw [setItem, if_neg other, induction fun member => fresh (List.mem_cons_of_mem _ member)]
      rfl

theorem setItem_of_mem {key : String} {value : Json} {entries : Entries}
    (distinct : (entries.map Prod.fst).Nodup) (member : (key, value) ∈ entries) :
    setItem key value entries = entries := by
  induction entries with
  | nil => cases member
  | cons first entries induction =>
      obtain ⟨fresh, rest⟩ := List.nodup_cons.mp distinct
      rw [setItem]
      rcases List.mem_cons.mp member with rfl | later
      · exact if_pos rfl
      · have other : first.1 ≠ key := by
          rintro rfl
          exact fresh (List.mem_map.mpr ⟨_, later, rfl⟩)
        rw [if_neg other, induction rest later]

theorem updateItems_of_subset {entries changes : Entries} (distinct : (entries.map Prod.fst).Nodup)
    (held : ∀ change ∈ changes, change ∈ entries) : updateItems entries changes = entries := by
  induction changes with
  | nil => rfl
  | cons change changes induction =>
      obtain ⟨first, rest⟩ := List.forall_mem_cons.mp held
      rw [updateItems, List.foldl_cons, setItem_of_mem distinct first]
      exact induction rest

theorem updateItems_of_fresh {entries changes : Entries} (distinct : (changes.map Prod.fst).Nodup)
    (fresh : ∀ change ∈ changes, change.1 ∉ entries.map Prod.fst) :
    updateItems entries changes = entries ++ changes := by
  induction changes generalizing entries with
  | nil => simp [updateItems]
  | cons change changes induction =>
      obtain ⟨first, rest⟩ := List.forall_mem_cons.mp fresh
      obtain ⟨single, others⟩ := List.nodup_cons.mp distinct
      rw [updateItems, List.foldl_cons, setItem_of_fresh first]
      refine (induction others fun other member => ?_).trans (by simp)
      rw [List.map_append, List.mem_append]
      rintro (old | new)
      · exact rest other member old
      · rw [List.map_singleton, List.mem_singleton] at new
        exact single (new ▸ List.mem_map_of_mem member)

end Python
end DomainLens
