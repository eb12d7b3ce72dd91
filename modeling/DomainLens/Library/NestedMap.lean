import Mathlib

/-!
# Nested maps

A nested map is a leaf or maps keys to nested maps.  It is read and written along paths, and one is
laid over another by merging them key by key.
-/

namespace DomainLens

inductive NestedMap (Key Leaf : Type*) where
  | leaf (value : Leaf)
  | node (child : Key → Option (NestedMap Key Leaf))

namespace NestedMap

variable {Key Leaf : Type*}

def empty : NestedMap Key Leaf := .node fun _ => none

/-- What the keys of a map are mapped to; a leaf has none. -/
def children : NestedMap Key Leaf → Key → Option (NestedMap Key Leaf)
  | .leaf _ => fun _ => none
  | .node child => child

@[simp] theorem children_leaf (value : Leaf) :
    (.leaf value : NestedMap Key Leaf).children = fun _ => none := rfl

@[simp] theorem children_node (child : Key → Option (NestedMap Key Leaf)) :
    (NestedMap.node child).children = child := rfl

mutual

def merge : NestedMap Key Leaf → NestedMap Key Leaf → NestedMap Key Leaf
  | .node base, .node above => .node fun key => mergeAt (base key) (above key)
  | _, above => above

/-- Lay what a key has in one map over what it has in another. -/
def mergeAt :
    Option (NestedMap Key Leaf) → Option (NestedMap Key Leaf) → Option (NestedMap Key Leaf)
  | base, none => base
  | none, some above => some above
  | some base, some above => some (merge base above)

end

def get : List Key → NestedMap Key Leaf → Option (NestedMap Key Leaf)
  | [], map => some map
  | key :: path, map => (map.children key).bind (get path)

/-- Put a map at a path, in place of what is there; a leaf on the way becomes a map. -/
def set [DecidableEq Key] :
    List Key → NestedMap Key Leaf → NestedMap Key Leaf → NestedMap Key Leaf
  | [], value, _ => value
  | key :: path, value, map =>
      .node (Function.update map.children key
        (some (set path value ((map.children key).getD empty))))

/-- Neither path lies within the other. -/
def Apart (left right : List Key) : Prop := ¬left <+: right ∧ ¬right <+: left

instance [DecidableEq Key] (left right : List Key) : Decidable (Apart left right) :=
  inferInstanceAs (Decidable (¬left <+: right ∧ ¬right <+: left))

theorem Apart.symm {left right : List Key} (apart : Apart left right) : Apart right left :=
  ⟨apart.2, apart.1⟩

theorem apart_cons {key : Key} {left right : List Key} :
    Apart (key :: left) (key :: right) ↔ Apart left right := by
  simp [Apart]

theorem Apart.append {left right : List Key} (apart : Apart left right) (rest : List Key) :
    Apart left (right ++ rest) := by
  constructor
  · intro inside
    exact (List.prefix_or_prefix_of_prefix inside (List.prefix_append right rest)).elim apart.1 apart.2
  · exact fun around => apart.2 ((List.prefix_append right rest).trans around)

/-! ## Reading -/

@[simp] theorem get_nil (map : NestedMap Key Leaf) : get [] map = some map := rfl

theorem get_cons (key : Key) (path : List Key) (map : NestedMap Key Leaf) :
    get (key :: path) map = (map.children key).bind (get path) := rfl

theorem get_append (front back : List Key) (map : NestedMap Key Leaf) :
    get (front ++ back) map = (get front map).bind (get back) := by
  induction front generalizing map with
  | nil => rfl
  | cons key front induction =>
      simp only [List.cons_append, get_cons, Option.bind_assoc]
      exact congrArg _ (funext induction)

theorem get_leaf {path : List Key} (within : path ≠ []) (value : Leaf) :
    get path (.leaf value : NestedMap Key Leaf) = none := by
  cases path with
  | nil => exact absurd rfl within
  | cons key path => rfl

/-! ## Writing -/

section Writing

variable [DecidableEq Key]

theorem get_set_append (path rest : List Key) (value map : NestedMap Key Leaf) :
    get path (set (path ++ rest) value map) = some (set rest value ((get path map).getD empty)) := by
  induction path generalizing map with
  | nil => rfl
  | cons key path induction =>
      simp only [List.cons_append, set, get_cons, children_node, Function.update_self,
        Option.bind_some, induction]
      cases map.children key with
      | some inner => rfl
      | none => cases path <;> rfl

theorem get_set_self (path : List Key) (value map : NestedMap Key Leaf) :
    get path (set path value map) = some value := by
  simpa [set] using get_set_append path [] value map

theorem get_append_set (path rest : List Key) (value map : NestedMap Key Leaf) :
    get (path ++ rest) (set path value map) = get rest value := by
  rw [get_append, get_set_self, Option.bind_some]

theorem get_set_of_apart {path other : List Key} (apart : Apart path other)
    (value map : NestedMap Key Leaf) : get other (set path value map) = get other map := by
  induction path generalizing other map with
  | nil => exact absurd List.nil_prefix apart.1
  | cons key path induction =>
      cases other with
      | nil => exact absurd List.nil_prefix apart.2
      | cons head other =>
          simp only [set, get_cons, children_node]
          by_cases same : head = key
          · subst same
            rw [Function.update_self, Option.bind_some, induction (apart_cons.mp apart)]
            cases map.children head with
            | some inner => rfl
            | none =>
                have within : other ≠ [] := by
                  rintro rfl
                  exact (apart_cons.mp apart).2 List.nil_prefix
                cases other with
                | nil => exact absurd rfl within
                | cons _ _ => rfl
          · rw [Function.update_of_ne same]

theorem set_get {path : List Key} {value map : NestedMap Key Leaf} (there : get path map = some value) :
    set path value map = map := by
  induction path generalizing map with
  | nil => exact (Option.some.inj there).symm
  | cons key path induction =>
      cases map with
      | leaf _ => simp [get_cons] at there
      | node child =>
          obtain ⟨inner, found, within⟩ := Option.bind_eq_some_iff.mp there
          simp only [children_node] at found
          simp only [set, children_node, found, Option.getD_some, induction within]
          rw [← found, Function.update_eq_self]

end Writing

/-! ## Merging -/

theorem get_merge_of_some {path : List Key} {base above value : NestedMap Key Leaf}
    (there : get path above = some value) :
    get path (merge base above) = mergeAt (get path base) (some value) := by
  induction path generalizing base above with
  | nil =>
      obtain rfl := Option.some.inj there
      simp [mergeAt]
  | cons key path induction =>
      obtain ⟨inner, found, within⟩ := Option.bind_eq_some_iff.mp there
      cases above with
      | leaf _ => simp at found
      | node above =>
          simp only [children_node] at found
          cases base with
          | leaf _ => simp [merge, get_cons, found, within, mergeAt]
          | node base =>
              simp only [merge, get_cons, children_node, found]
              cases base key with
              | none => simp [mergeAt, within]
              | some below => simpa [mergeAt] using induction within

mutual

/-- A map has every key of another, at every depth to which both are maps. -/
def Covers : NestedMap Key Leaf → NestedMap Key Leaf → Prop
  | .node base, .node above => ∀ key, CoversAt (base key) (above key)
  | _, _ => True

def CoversAt : Option (NestedMap Key Leaf) → Option (NestedMap Key Leaf) → Prop
  | none, _ => True
  | some _, none => False
  | some base, some above => Covers base above

end

mutual

theorem merge_eq_self_iff :
    ∀ base above : NestedMap Key Leaf, merge base above = above ↔ Covers base above
  | .leaf _, _ => by simp [merge, Covers]
  | .node _, .leaf _ => by simp [merge, Covers]
  | .node base, .node above => by
      simp only [merge, Covers, node.injEq, funext_iff]
      exact forall_congr' fun key => mergeAt_eq_self_iff (base key) (above key)

theorem mergeAt_eq_self_iff :
    ∀ base above : Option (NestedMap Key Leaf), mergeAt base above = above ↔ CoversAt base above
  | none, none => by simp [mergeAt, CoversAt]
  | none, some _ => by simp [mergeAt, CoversAt]
  | some _, none => by simp [mergeAt, CoversAt]
  | some base, some above => by
      simpa [mergeAt, CoversAt] using merge_eq_self_iff base above

end

/-! ## Shapes -/

/-- What a reader sees at a path before it looks further. -/
inductive Shape (Leaf : Type*) where
  | absent
  | leaf (value : Leaf)
  | node

def shape : Option (NestedMap Key Leaf) → Shape Leaf
  | none => .absent
  | some (.leaf value) => .leaf value
  | some (.node _) => .node

theorem shape_eq_absent {found : Option (NestedMap Key Leaf)} :
    shape found = .absent ↔ found = none := by
  rcases found with - | _ | _ <;> simp [shape]

theorem shape_eq_leaf {found : Option (NestedMap Key Leaf)} {value : Leaf} :
    shape found = .leaf value ↔ found = some (.leaf value) := by
  rcases found with - | _ | _ <;> simp [shape]

mutual

theorem eq_of_shape : ∀ left right : NestedMap Key Leaf,
    (∀ path, shape (get path left) = shape (get path right)) → left = right
  | .leaf value, right, same => by
      have here := same []
      rw [get_nil, get_nil] at here
      exact (Option.some.inj (shape_eq_leaf.mp here.symm)).symm
  | .node left, .leaf value, same => by simpa [shape] using same []
  | .node left, .node right, same => by
      congr 1
      funext key
      exact eqAt_of_shape (left key) (right key) fun path => same (key :: path)

theorem eqAt_of_shape : ∀ left right : Option (NestedMap Key Leaf),
    (∀ path, shape (left.bind (get path)) = shape (right.bind (get path))) → left = right
  | none, right, same => by
      cases right with
      | none => rfl
      | some right => rcases right with _ | _ <;> simpa [shape] using same []
  | some left, right, same => by
      cases right with
      | none => rcases left with _ | _ <;> simpa [shape] using same []
      | some right => rw [eq_of_shape left right same]

end

/-- A leaf lies on the way to the path. -/
def Blocked (path : List Key) (map : NestedMap Key Leaf) : Prop :=
  ∃ front back value, path = front ++ back ∧ back ≠ [] ∧ get front map = some (.leaf value)

theorem Blocked.get_eq_none {path : List Key} {map : NestedMap Key Leaf} (blocked : Blocked path map) :
    get path map = none := by
  obtain ⟨front, back, value, rfl, within, found⟩ := blocked
  rw [get_append, found, Option.bind_some, get_leaf within]

theorem Blocked.cons {key : Key} {path : List Key} {map inner : NestedMap Key Leaf}
    (found : map.children key = some inner) (blocked : Blocked path inner) :
    Blocked (key :: path) map := by
  obtain ⟨front, back, value, rfl, within, there⟩ := blocked
  exact ⟨key :: front, back, value, rfl, within, by rw [get_cons, found, Option.bind_some, there]⟩

theorem Blocked.merge {path : List Key} {above : NestedMap Key Leaf} (blocked : Blocked path above)
    (base : NestedMap Key Leaf) : Blocked path (merge base above) := by
  obtain ⟨front, back, value, rfl, within, found⟩ := blocked
  refine ⟨front, back, value, rfl, within, ?_⟩
  rw [get_merge_of_some found]
  rcases get front base with - | - | - <;> simp [mergeAt, NestedMap.merge]

theorem shape_merge_of_some {path : List Key} {base above value : NestedMap Key Leaf}
    (found : get path above = some value) :
    shape (get path (merge base above)) = shape (some value) := by
  rw [get_merge_of_some found]
  rcases get path base with - | - | - <;> cases value <;> simp [mergeAt, merge, shape]

/-- Where it has nothing, and no leaf on the way, the merged map is the lower one. -/
theorem get_merge_of_none {path : List Key} {base above : NestedMap Key Leaf}
    (absent : get path above = none) (free : ¬Blocked path above) :
    get path (merge base above) = get path base := by
  induction path generalizing base above with
  | nil => simp at absent
  | cons key path induction =>
      cases above with
      | leaf value => exact absurd ⟨[], key :: path, value, rfl, by simp, rfl⟩ free
      | node above =>
          cases base with
          | leaf value =>
              rw [merge, absent, get_leaf (by simp)]
              simp
          | node base =>
              rw [get_cons, children_node] at absent
              simp only [merge, get_cons, children_node]
              cases above : above key with
              | none => cases base key <;> rfl
              | some above' =>
                  rw [above, Option.bind_some] at absent
                  cases base key with
                  | none => exact absent
                  | some below =>
                      exact induction absent fun blocked => free (blocked.cons above)

/-! ## Several writes -/

section Writes

variable [DecidableEq Key]

def setAll (entries : List (List Key × NestedMap Key Leaf)) (map : NestedMap Key Leaf) :
    NestedMap Key Leaf :=
  entries.foldl (fun map entry => set entry.1 entry.2 map) map

@[simp] theorem setAll_nil (map : NestedMap Key Leaf) : setAll [] map = map := rfl

@[simp] theorem setAll_cons (entry : List Key × NestedMap Key Leaf)
    (entries : List (List Key × NestedMap Key Leaf)) (map : NestedMap Key Leaf) :
    setAll (entry :: entries) map = setAll entries (set entry.1 entry.2 map) := rfl

theorem setAll_append (front back : List (List Key × NestedMap Key Leaf))
    (map : NestedMap Key Leaf) : setAll (front ++ back) map = setAll back (setAll front map) :=
  List.foldl_append ..

variable {entries : List (List Key × NestedMap Key Leaf)} {path : List Key}

theorem get_setAll_of_apart (apart : ∀ entry ∈ entries, Apart entry.1 path)
    (map : NestedMap Key Leaf) : get path (setAll entries map) = get path map := by
  induction entries generalizing map with
  | nil => rfl
  | cons entry entries induction =>
      obtain ⟨first, others⟩ := List.forall_mem_cons.mp apart
      rw [setAll_cons, induction others, get_set_of_apart first]

theorem get_setAll_congr {left right : NestedMap Key Leaf} (same : get path left = get path right) :
    get path (setAll entries left) = get path (setAll entries right) := by
  induction entries generalizing left right with
  | nil => exact same
  | cons entry entries induction =>
      rw [setAll_cons, setAll_cons]
      refine induction ?_
      by_cases beyond : path <+: entry.1
      · obtain ⟨rest, isPath⟩ := beyond
        rw [← isPath, get_set_append, get_set_append, same]
      · by_cases within : entry.1 <+: path
        · obtain ⟨rest, rfl⟩ := within
          rw [get_append_set, get_append_set]
        · rw [get_set_of_apart ⟨within, beyond⟩, get_set_of_apart ⟨within, beyond⟩, same]

theorem get_setAll_of_within (within : ∃ entry ∈ entries, entry.1 <+: path)
    (left right : NestedMap Key Leaf) :
    get path (setAll entries left) = get path (setAll entries right) := by
  induction entries generalizing left right with
  | nil => simp at within
  | cons entry entries induction =>
      obtain ⟨written, member, front⟩ := within
      rw [setAll_cons, setAll_cons]
      rcases List.mem_cons.mp member with rfl | later
      · refine get_setAll_congr ?_
        obtain ⟨rest, rfl⟩ := front
        rw [get_append_set, get_append_set]
      · exact induction ⟨written, later, front⟩ _ _

theorem shape_setAll_of_beyond {map : NestedMap Key Leaf}
    (none_within : ∀ entry ∈ entries, ¬entry.1 <+: path)
    (beyond : shape (get path map) = .node ∨ ∃ entry ∈ entries, path <+: entry.1) :
    shape (get path (setAll entries map)) = .node := by
  induction entries generalizing map with
  | nil => simpa using beyond
  | cons entry entries induction =>
      obtain ⟨first, others⟩ := List.forall_mem_cons.mp none_within
      rw [setAll_cons]
      refine induction others ?_
      by_cases here : path <+: entry.1
      · left
        obtain ⟨rest, isPath⟩ := here
        cases rest with
        | nil => exact absurd (by simp [← isPath]) first
        | cons key rest => rw [← isPath, get_set_append]; rfl
      · rw [get_set_of_apart ⟨first, here⟩]
        refine beyond.imp_right ?_
        rintro ⟨written, member, front⟩
        rcases List.mem_cons.mp member with rfl | later
        · exact absurd front here
        · exact ⟨written, later, front⟩

/-- Where one path written lies within another, the outer map has the inner one there. -/
def Agree (entries : List (List Key × NestedMap Key Leaf)) : Prop :=
  ∀ outer ∈ entries, ∀ rest value, (outer.1 ++ rest, value) ∈ entries →
    get rest outer.2 = some value

omit [DecidableEq Key] in
theorem agree_singleton (entry : List Key × NestedMap Key Leaf) : Agree [entry] := by
  intro outer member rest value inner
  obtain rfl := List.mem_singleton.mp member
  have same := List.mem_singleton.mp inner
  obtain rfl : rest = [] := List.append_right_eq_self.mp (congrArg Prod.fst same)
  exact congrArg some (congrArg Prod.snd same).symm

theorem get_setAll_of_agree {all : List (List Key × NestedMap Key Leaf)} (agree : Agree all)
    (part : ∀ written ∈ entries, written ∈ all) {entry : List Key × NestedMap Key Leaf}
    (member : entry ∈ all) {map : NestedMap Key Leaf}
    (there : entry ∈ entries ∨ get entry.1 map = some entry.2) :
    get entry.1 (setAll entries map) = some entry.2 := by
  induction entries generalizing map with
  | nil => simpa using there
  | cons written entries induction =>
      obtain ⟨first, others⟩ := List.forall_mem_cons.mp part
      rw [setAll_cons]
      refine induction others ?_
      rcases there with listed | there
      · rcases List.mem_cons.mp listed with rfl | later
        · exact .inr (get_set_self ..)
        · exact .inl later
      · right
        by_cases beyond : entry.1 <+: written.1
        · obtain ⟨rest, isPath⟩ := beyond
          have inner := agree entry member rest written.2 (by rwa [isPath])
          rw [← isPath, get_set_append, there, Option.getD_some, set_get inner]
        · by_cases within : written.1 <+: entry.1
          · obtain ⟨rest, isPath⟩ := within
            rw [← isPath, get_append_set]
            exact agree written first rest entry.2 (by rwa [isPath])
          · rw [get_set_of_apart ⟨within, beyond⟩, there]

end Writes

end NestedMap
end DomainLens
