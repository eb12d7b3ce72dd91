import Mathlib

/-!
# Words in joined lists

A list without a separator stands inside of joined lists only where it stands inside of one of them.
-/

namespace DomainLens
namespace Words

variable {α : Type*} {word front behind : List α} {separator : α}

/-- A word without the separator starts a joined list only where it starts its first part. -/
theorem prefix_append_cons_iff (clean : separator ∉ word) :
    word <+: front ++ separator :: behind ↔ word <+: front := by
  constructor
  · intro starts
    induction front generalizing word with
    | nil =>
        cases word with
        | nil => exact List.prefix_rfl
        | cons first word =>
            obtain ⟨rfl, -⟩ := List.cons_prefix_cons.mp starts
            exact absurd List.mem_cons_self clean
    | cons value front induction =>
        cases word with
        | nil => exact List.nil_prefix
        | cons first word =>
            obtain ⟨rfl, rest⟩ := List.cons_prefix_cons.mp starts
            exact List.cons_prefix_cons.mpr
              ⟨rfl, induction (fun member => clean (List.mem_cons_of_mem _ member)) rest⟩
  · exact fun starts => starts.trans (List.prefix_append front _)

/-- A word without the separator stands in a joined list only where it stands in one of its parts. -/
theorem infix_append_cons_iff (clean : separator ∉ word) :
    word <:+: front ++ separator :: behind ↔ word <:+: front ∨ word <:+: behind := by
  constructor
  · intro inside
    induction front with
    | nil =>
        rcases List.infix_cons_iff.mp inside with starts | later
        · have none : word <+: [] := (prefix_append_cons_iff clean).mp starts
          exact .inl none.isInfix
        · exact .inr later
    | cons value front induction =>
        rcases List.infix_cons_iff.mp inside with starts | later
        · have kept : word <+: value :: front := (prefix_append_cons_iff clean).mp starts
          exact .inl kept.isInfix
        · exact (induction later).imp_left fun found => found.trans (List.suffix_cons _ _).isInfix
  · rintro (found | found)
    · exact found.trans (List.prefix_append front _).isInfix
    · exact found.trans
        ((List.suffix_cons separator behind).trans (List.suffix_append front _)).isInfix

end Words
end DomainLens
