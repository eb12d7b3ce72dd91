import DomainLens.Python.Text

/-!
# Trees of elements

An element has a qualified name, attributes, the text before its first child and its children.
Walking a tree in document order meets exactly what lies inside it.
-/

namespace DomainLens

open Python

inductive Xml where
  | element (tag : Text) (attrib : List (Text × Text)) (text : Option Text) (children : List Xml)

namespace Xml

def tag : Xml → Text
  | .element tag _ _ _ => tag

def attrib : Xml → List (Text × Text)
  | .element _ attrib _ _ => attrib

def text : Xml → Option Text
  | .element _ _ text _ => text

def children : Xml → List Xml
  | .element _ _ _ children => children

mutual

/-- An element and everything below it, in document order. -/
def iter : Xml → List Xml
  | .element tag attrib text children => .element tag attrib text children :: iterAll children

def iterAll : List Xml → List Xml
  | [] => []
  | first :: rest => iter first ++ iterAll rest

end

/-- One element is the other, or lies below it. -/
inductive Inside : Xml → Xml → Prop where
  | self (root : Xml) : Inside root root
  | deeper {inner child root : Xml} (isChild : child ∈ root.children)
      (inside : Inside inner child) : Inside inner root

variable {inner middle root : Xml}

theorem iter_eq (root : Xml) : iter root = root :: iterAll root.children := by
  cases root with
  | element => rfl

theorem mem_iterAll {roots : List Xml} :
    inner ∈ iterAll roots ↔ ∃ root ∈ roots, inner ∈ iter root := by
  induction roots with
  | nil => simp [iterAll]
  | cons first rest induction => simp [iterAll, induction]

theorem Inside.trans (first : Inside inner middle) (second : Inside middle root) :
    Inside inner root := by
  induction second with
  | self => exact first
  | deeper isChild _ induction => exact .deeper isChild induction

theorem mem_iter_of_inside (inside : Inside inner root) : inner ∈ iter root := by
  induction inside with
  | self => simp [iter_eq]
  | deeper isChild _ induction =>
      rw [iter_eq]
      exact List.mem_cons_of_mem _ (mem_iterAll.mpr ⟨_, isChild, induction⟩)

mutual

theorem inside_of_mem_iter : (root : Xml) → inner ∈ iter root → Inside inner root
  | .element tag attrib text children => by
      intro member
      rcases List.mem_cons.mp member with rfl | lower
      · exact .self _
      · obtain ⟨child, isChild, inside⟩ := inside_of_mem_iterAll children lower
        exact .deeper isChild inside

theorem inside_of_mem_iterAll : (roots : List Xml) → inner ∈ iterAll roots →
    ∃ root ∈ roots, Inside inner root
  | [] => by intro member; cases member
  | first :: rest => by
      intro member
      rcases List.mem_append.mp member with here | later
      · exact ⟨first, List.mem_cons_self, inside_of_mem_iter first here⟩
      · obtain ⟨root, isRoot, inside⟩ := inside_of_mem_iterAll rest later
        exact ⟨root, List.mem_cons_of_mem _ isRoot, inside⟩

end

theorem mem_iter : inner ∈ iter root ↔ Inside inner root :=
  ⟨inside_of_mem_iter root, mem_iter_of_inside⟩

end Xml
end DomainLens
