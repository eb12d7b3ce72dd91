import Mathlib

/-!
# Sequences compared as if padded

Two finite sequences of different lengths are compared after the shorter one is filled up.  How far
they are filled does not matter, so the comparison is that of the endless sequences they begin, and
these are in a linear order.
-/

namespace DomainLens
namespace Padded

variable {α : Type*} (fill : α)

def pad (width : Nat) (values : List α) : List α :=
  values ++ List.replicate (width - values.length) fill

/-- The endless sequence that a finite one begins, in the lexicographic order. -/
def endless (values : List α) : Lex (Nat → α) := toLex fun index => values.getD index fill

variable {fill} {width : Nat} {values left right : List α}

@[simp] theorem length_pad (fits : values.length ≤ width) :
    (pad fill width values).length = width := by
  simp [pad, Nat.add_sub_cancel' fits]

theorem getElem_pad {index : Nat} (inside : index < (pad fill width values).length) :
    (pad fill width values)[index] = ofLex (endless fill values) index := by
  change (pad fill width values)[index] = values.getD index fill
  simp only [pad, List.getElem_append, List.getElem_replicate, List.getD_eq_getElem?_getD]
  split
  · rename_i within
    simp [within]
  · rename_i beyond
    simp [List.getElem?_eq_none (Nat.not_lt.mp beyond)]

variable [LinearOrder α]

theorem endless_lt_iff :
    endless fill left < endless fill right ↔
      ∃ index, (∀ earlier < index, left.getD earlier fill = right.getD earlier fill) ∧
        left.getD index fill < right.getD index fill :=
  Iff.rfl

/-- Filled up to any common width, two sequences are ordered as the endless ones are. -/
theorem pad_lt_pad_iff (leftFits : left.length ≤ width) (rightFits : right.length ≤ width) :
    pad fill width left < pad fill width right ↔ endless fill left < endless fill right := by
  have leftLength : (pad fill width left).length = width := length_pad leftFits
  have rightLength : (pad fill width right).length = width := length_pad rightFits
  rw [List.lt_iff_exists]
  constructor
  · rintro (⟨_, shorter⟩ | ⟨index, inLeft, inRight, same, less⟩)
    · omega
    · refine endless_lt_iff.mpr ⟨index, fun earlier before => ?_, ?_⟩
      · have here := same earlier before
        rwa [getElem_pad, getElem_pad] at here
      · rwa [getElem_pad, getElem_pad] at less
  · intro less
    obtain ⟨index, same, less⟩ := endless_lt_iff.mp less
    have within : index < width := by
      by_contra beyond
      have leftBeyond : left.length ≤ index := leftFits.trans (Nat.not_lt.mp beyond)
      have rightBeyond : right.length ≤ index := rightFits.trans (Nat.not_lt.mp beyond)
      rw [List.getD_eq_default _ _ leftBeyond, List.getD_eq_default _ _ rightBeyond] at less
      exact lt_irrefl fill less
    refine .inr ⟨index, leftLength.symm ▸ within, rightLength.symm ▸ within, ?_, ?_⟩
    · intro earlier before
      rw [getElem_pad, getElem_pad]
      exact same earlier before
    · rw [getElem_pad, getElem_pad]
      exact less

end Padded
end DomainLens
