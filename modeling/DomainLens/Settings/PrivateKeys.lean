import DomainLens.Python.Json
import DomainLens.Settings.ReadBack

/-!
# Private keys in the settings

No settings value may carry an OpenPGP private key, and a value that is a text is refused for it.  Texts
also sit in lists, in objects and in the names of their entries.  The file says which saves put one
into the database.
-/

namespace DomainLens
namespace Settings

open Python NestedMap

/-! ## Texts of a value -/

mutual

/-- The texts of a value of JSON: its strings and the names of its entries, at every depth. -/
def jsonTexts : Json → List Text
  | .str text => [text]
  | .arr items => textsOfItems items
  | .obj entries => textsOfEntries entries
  | _ => []

def textsOfItems : List Json → List Text
  | [] => []
  | item :: items => jsonTexts item ++ textsOfItems items

def textsOfEntries : List (String × Json) → List Text
  | [] => []
  | entry :: entries => entry.1.toList :: jsonTexts entry.2 ++ textsOfEntries entries

end

/-- A value of JSON that is no object, text, truth value or whole number. -/
inductive Plain where
  | null
  | number (shown : Text)
  | list (items : List Json)

/-- The texts of a value that is no object. -/
def Scalar.texts : Scalar Plain → List Text
  | .str text => [text]
  | .atom (.list items) => textsOfItems items
  | _ => []

/-- A place of a text in an object: the value at a path, or the last name of it. -/
inductive Place where
  | value (path : List Text)
  | name (path : List Text)

def TextAt (map : Value Plain) (text : Text) : Place → Prop
  | .value path => ∃ scalar, get path map = some (.leaf scalar) ∧ text ∈ scalar.texts
  | .name path => path.getLast? = some text ∧ (get path map).isSome = true

def Holds (map : Value Plain) (text : Text) : Prop := ∃ place, TextAt map text place

/-- A write at a path leaves nothing of what was at a place. -/
def Replaces (path : List Text) : Place → Prop
  | .value other => ¬ Apart path other
  | .name other => path <+: other ∧ path ≠ other

def alone (entry : List Text × Value Plain) : Value Plain := set entry.1 entry.2 empty

/-! ## Texts after writes -/

theorem get_empty {path : List Text} (within : path ≠ []) :
    get path (empty : Value Plain) = none := by
  cases path with
  | nil => exact absurd rfl within
  | cons key path => rfl

theorem get_alone_of_apart {entry : List Text × Value Plain} {path : List Text}
    (apart : Apart entry.1 path) : get path (alone entry) = none := by
  have within : path ≠ [] := by
    rintro rfl
    exact apart.2 List.nil_prefix
  rw [alone, get_set_of_apart apart, get_empty within]

theorem get_set_within {entry : List Text × Value Plain} {path : List Text}
    (within : entry.1 <+: path) (map : Value Plain) :
    get path (set entry.1 entry.2 map) = get path (alone entry) := by
  obtain ⟨rest, rfl⟩ := within
  rw [alone, get_append_set, get_append_set]

theorem get_set_before {entry : List Text × Value Plain} {path : List Text}
    (before : path <+: entry.1) (proper : entry.1 ≠ path) (map : Value Plain) :
    ∃ child, get path (set entry.1 entry.2 map) = some (.node child) := by
  obtain ⟨written, value⟩ := entry
  obtain ⟨rest, rfl⟩ := before
  cases rest with
  | nil => exact absurd (List.append_nil path) proper
  | cons key rest => exact ⟨_, get_set_append path (key :: rest) value map⟩

private theorem textAt_set_value {entry : List Text × Value Plain} {map : Value Plain} {text : Text}
    {path : List Text} :
    TextAt (set entry.1 entry.2 map) text (.value path) ↔
      TextAt (alone entry) text (.value path) ∨
        TextAt map text (.value path) ∧ ¬ Replaces entry.1 (.value path) := by
  simp only [TextAt, Replaces]
  by_cases apart : Apart entry.1 path
  · rw [get_set_of_apart apart, get_alone_of_apart apart]
    simp [apart]
  · have same : ∀ scalar : Scalar Plain, get path (set entry.1 entry.2 map) = some (.leaf scalar) ↔
        get path (alone entry) = some (.leaf scalar) := by
      intro scalar
      by_cases within : entry.1 <+: path
      · rw [get_set_within within]
      · have before : path <+: entry.1 := by
          by_contra beside
          exact apart ⟨within, beside⟩
        have proper : entry.1 ≠ path := fun equal => within (equal ▸ List.prefix_refl _)
        obtain ⟨child, isNode⟩ := get_set_before before proper map
        obtain ⟨child', isNode'⟩ := get_set_before before proper empty
        rw [isNode, alone, isNode']
        simp
    simp only [same, apart, not_false_eq_true, not_true, and_false, or_false]

private theorem textAt_set_name {entry : List Text × Value Plain} {map : Value Plain} {text : Text}
    {path : List Text} :
    TextAt (set entry.1 entry.2 map) text (.name path) ↔
      TextAt (alone entry) text (.name path) ∨
        TextAt map text (.name path) ∧ ¬ Replaces entry.1 (.name path) := by
  simp only [TextAt, Replaces]
  by_cases replaced : entry.1 <+: path ∧ entry.1 ≠ path
  · rw [get_set_within replaced.1]
    simp [replaced]
  · by_cases before : path <+: entry.1
    · have there : ∀ map : Value Plain, (get path (set entry.1 entry.2 map)).isSome = true := by
        intro map
        obtain ⟨written, value⟩ := entry
        obtain ⟨rest, rfl⟩ := before
        rw [get_set_append]
        rfl
      rw [there map, alone, there empty]
      simp only [and_true, iff_self_or]
      exact fun named => named.1.1
    · have apart : Apart entry.1 path := by
        refine ⟨fun within => replaced ⟨within, ?_⟩, before⟩
        rintro rfl
        exact before (List.prefix_refl _)
      rw [get_set_of_apart apart, get_alone_of_apart apart]
      simp [replaced]

/-- After a write there are the texts of what is written, and those it does not replace. -/
theorem textAt_set {entry : List Text × Value Plain} {map : Value Plain} {text : Text}
    {place : Place} :
    TextAt (set entry.1 entry.2 map) text place ↔
      TextAt (alone entry) text place ∨ TextAt map text place ∧ ¬ Replaces entry.1 place := by
  cases place with
  | value path => exact textAt_set_value
  | name path => exact textAt_set_name

/-- A text of an entry that no later entry replaces. -/
def Remains (entries : List (List Text × Value Plain)) (text : Text) (place : Place) : Prop :=
  ∃ before entry after, entries = before ++ entry :: after ∧ TextAt (alone entry) text place ∧
    ∀ later ∈ after, ¬ Replaces later.1 place

theorem remains_cons {entry : List Text × Value Plain} {entries : List (List Text × Value Plain)}
    {text : Text} {place : Place} :
    Remains (entry :: entries) text place ↔
      TextAt (alone entry) text place ∧ (∀ later ∈ entries, ¬ Replaces later.1 place) ∨
        Remains entries text place := by
  constructor
  · rintro ⟨before, written, after, same, found, kept⟩
    cases before with
    | nil =>
        obtain ⟨rfl, rfl⟩ := List.cons.inj same
        exact .inl ⟨found, kept⟩
    | cons head before =>
        exact .inr ⟨before, written, after, (List.cons.inj same).2, found, kept⟩
  · rintro (⟨found, kept⟩ | ⟨before, written, after, rfl, found, kept⟩)
    · exact ⟨[], entry, entries, rfl, found, kept⟩
    · exact ⟨entry :: before, written, after, rfl, found, kept⟩

/-- After all writes there are the texts that remain of them, and those that none of them replaces. -/
theorem textAt_setAll {entries : List (List Text × Value Plain)} {map : Value Plain} {text : Text}
    {place : Place} :
    TextAt (setAll entries map) text place ↔
      Remains entries text place ∨
        TextAt map text place ∧ ∀ entry ∈ entries, ¬ Replaces entry.1 place := by
  induction entries generalizing map with
  | nil =>
      have none : ¬ Remains [] text place := fun ⟨before, entry, after, same, _⟩ =>
        List.append_ne_nil_of_right_ne_nil before (List.cons_ne_nil entry after) same.symm
      simp [none]
  | cons entry entries induction =>
      rw [setAll_cons, induction, textAt_set, remains_cons, List.forall_mem_cons]
      tauto

/-! ## What the checks change -/

theorem get_alone_leaf {written path : List Text} {value scalar : Scalar Plain} :
    get path (alone (written, .leaf value)) = some (.leaf scalar) ↔
      path = written ∧ value = scalar := by
  by_cases within : written <+: path
  · obtain ⟨rest, rfl⟩ := within
    rw [alone, get_append_set]
    cases rest with
    | nil => simp
    | cons key rest => simp [get_leaf]
  · have other : path ≠ written := fun same => within (same ▸ List.prefix_refl _)
    refine iff_of_false (fun found => ?_) fun same => other same.1
    by_cases before : path <+: written
    · obtain ⟨child, isNode⟩ :=
        @get_set_before (written, .leaf value) path before other.symm empty
      rw [alone, isNode] at found
      cases found
    · rw [get_alone_of_apart ⟨within, before⟩] at found
      cases found

theorem isSome_alone_leaf {written path : List Text} {value : Scalar Plain} :
    (get path (alone (written, .leaf value))).isSome = true ↔ path <+: written := by
  constructor
  · intro found
    by_contra beyond
    by_cases within : written <+: path
    · obtain ⟨rest, rfl⟩ := within
      rw [alone, get_append_set, get_leaf] at found
      · cases found
      · rintro rfl
        exact beyond (by simp)
    · rw [get_alone_of_apart ⟨within, beyond⟩] at found
      cases found
  · rintro ⟨rest, rfl⟩
    rw [alone, get_set_append]
    rfl

/-- A text that neither of two values has sits at the same places with either. -/
theorem textAt_alone_leaf {written : List Text} {value other : Scalar Plain} {text : Text}
    {place : Place} (absent : text ∉ value.texts) (absent' : text ∉ other.texts) :
    TextAt (alone (written, .leaf value)) text place ↔
      TextAt (alone (written, .leaf other)) text place := by
  cases place with
  | value path =>
      simp only [TextAt, get_alone_leaf]
      refine iff_of_false ?_ ?_
      · rintro ⟨scalar, ⟨-, rfl⟩, found⟩
        exact absent found
      · rintro ⟨scalar, ⟨-, rfl⟩, found⟩
        exact absent' found
  | name path => simp only [TextAt, isSome_alone_leaf]

private theorem not_block_of_accent {digits : Text}
    (hex : ∀ char ∈ digits, isHexDigit char = true) : ¬ privateKeyBlock <:+: '#' :: digits := by
  intro inside
  have dash : '-' ∈ '#' :: digits := inside.subset (by decide)
  rcases List.mem_cons.mp dash with isSign | isDigit
  · exact absurd isSign (by decide)
  · exact absurd (hex '-' isDigit) (by decide +kernel)

private theorem normalizeAccent_eq_some {value normalized : Value Plain}
    (accepted : normalizeAccent value = some normalized) :
    ∃ text digits, value = .leaf (.str text) ∧ normalized = .leaf (.str ('#' :: digits)) ∧
      ∀ char ∈ digits, isHexDigit char = true := by
  unfold normalizeAccent at accepted
  split at accepted
  · rename_i text
    split at accepted
    · rename_i digits _
      split at accepted
      · rename_i hex
        have hex : ∀ char ∈ digits, isHexDigit char = true := List.all_eq_true.mp hex
        split at accepted
        · exact ⟨text, digits, rfl, (Option.some.inj accepted).symm, hex⟩
        · split at accepted
          · refine ⟨text, _, rfl, (Option.some.inj accepted).symm, fun char member => ?_⟩
            obtain ⟨digit, isDigit, twice⟩ := List.mem_flatMap.mp member
            have same : char = digit := by simpa using twice
            exact same ▸ hex digit isDigit
          · cases accepted
      · cases accepted
    · cases accepted
  · cases accepted

theorem textAt_of_validateField {name key text : Text} {value checked : Value Plain} {place : Place}
    (valid : validateField name key value = .ok checked) (block : privateKeyBlock <:+: text) :
    TextAt (alone (pathOf key, checked)) text place ↔ TextAt (alone (pathOf key, value)) text place := by
  unfold validateField at valid
  dsimp only at valid
  split at valid
  · cases valid
  · rename_i free
    split at valid
    · split at valid
      · rename_i normalized accepted
        obtain rfl := Except.ok.inj valid
        obtain ⟨given, digits, rfl, rfl, hex⟩ := normalizeAccent_eq_some accepted
        refine textAt_alone_leaf ?_ ?_
        · intro member
          exact not_block_of_accent hex (List.mem_singleton.mp member ▸ block)
        · intro member
          exact free (decide_eq_true (List.mem_singleton.mp member ▸ block))
      · cases valid
    · split at valid
      · rw [Except.ok.inj valid]
      · cases valid
    · rw [Except.ok.inj valid]

/-- The entries of a patch at their paths, as they are given. -/
def writesOf (patch : List (Text × Value Plain)) : List (List Text × Value Plain) :=
  patch.map fun entry => (pathOf entry.1, entry.2)

theorem textAt_checkedPatch {name text : Text} {patch : List (Text × Value Plain)}
    {entries : List (List Text × Value Plain)} {place : Place}
    (checked : checkedPatch name patch = .ok entries) (block : privateKeyBlock <:+: text)
    {map other : Value Plain} (same : TextAt map text place ↔ TextAt other text place) :
    TextAt (setAll entries map) text place ↔ TextAt (setAll (writesOf patch) other) text place := by
  induction patch generalizing entries map other with
  | nil =>
      obtain rfl := Except.ok.inj checked
      exact same
  | cons entry patch induction =>
      obtain ⟨key, value⟩ := entry
      rw [checkedPatch] at checked
      split at checked
      · rename_i written rest valid later
        obtain rfl := Except.ok.inj checked
        refine induction later ?_
        rw [textAt_set, textAt_set, same]
        exact or_congr_left (textAt_of_validateField valid block)
      · cases checked
      · cases checked

/-! ## Saves without private keys -/

/-- A text of a patch: of one of its values, or a part of one of its keys. -/
def InPatch (patch : List (Text × Value Plain)) (text : Text) : Prop :=
  ∃ entry ∈ writesOf patch, Holds (alone entry) text

/-- No text of an accepted patch that is in the stored section holds a private key, and a refused patch
leaves what is stored. -/
structure KeepsKeysOut (layers : Layers Plain) (environ : Environ) (database : Database Plain)
    (name : Text) (patch : List (Text × Value Plain)) : Prop where
  accepted : ∀ next, updateSection layers environ database name patch = .ok next →
    ∀ stored, next name = some stored → ∀ text, InPatch patch text → Holds stored text →
      ¬ privateKeyBlock <:+: text
  refused : ∀ problem, updateSection layers environ database name patch = .error problem →
    saves layers environ database [(name, patch)] = database

/-- Every place a text of a patch has, in the patch and in the section before, is replaced: by a later
entry, or by any. -/
def Replaced (current : Value Plain) (patch : List (Text × Value Plain)) (text : Text) : Prop :=
  ∀ place, ¬ Remains (writesOf patch) text place ∧
    (TextAt current text place → ∃ entry ∈ writesOf patch, Replaces entry.1 place)

theorem replaced_iff {current : Value Plain} {patch : List (Text × Value Plain)} {text : Text} :
    Replaced current patch text ↔ ¬ Holds (setAll (writesOf patch) current) text := by
  unfold Replaced Holds
  rw [not_exists]
  refine forall_congr' fun place => ?_
  rw [textAt_setAll, not_or, not_and]
  simp only [not_forall, not_not, exists_prop]

/-- A section `scan` without fields. -/
def bareLayers : Layers Plain where
  defaults name := if name = "scan".toList then some fun _ => none else none
  file _ := none

/-- A list of one selector, which is a private key. -/
def keyInList : Value Plain := .leaf (.atom (.list [.str privateKeyBlock]))

end Settings
end DomainLens
