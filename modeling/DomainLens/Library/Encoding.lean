import Mathlib

/-!
# Encodings that read back

A code is free of prefixes when what follows a code word never makes it another one.  Words closed
by a mark, and words joined by a separator and closed by a mark, read back as the same values.
-/

namespace DomainLens
namespace Encoding

variable {Value Letter : Type*}

/-- A code word is found at the front of a text in one way only. -/
def PrefixFree (code : Value → List Letter) : Prop :=
  ∀ first second rest other, code first ++ rest = code second ++ other →
    first = second ∧ rest = other

/-- No code word begins with the mark, and none is empty. -/
def Avoids (code : Value → List Letter) (mark : Letter) : Prop :=
  ∀ value, ∃ head word, code value = head :: word ∧ head ≠ mark

theorem PrefixFree.of_read {code : Value → List Letter}
    (read : List Letter → Option (Value × List Letter))
    (reads : ∀ value rest, read (code value ++ rest) = some (value, rest)) : PrefixFree code := by
  intro first second rest other same
  have both := (reads first rest).symm.trans (same ▸ reads second other)
  exact Prod.mk.inj (Option.some.inj both)

theorem PrefixFree.injective {code : Value → List Letter} (free : PrefixFree code) :
    Function.Injective code := by
  intro first second same
  exact (free first second [] [] (congrArg (· ++ []) same)).1

theorem PrefixFree.flatMap {code : Value → List Letter} {mark : Letter} (free : PrefixFree code)
    (apart : Avoids code mark) :
    PrefixFree fun values : List Value => values.flatMap code ++ [mark] := by
  intro first
  induction first with
  | nil =>
      intro second rest other same
      cases second with
      | nil => exact ⟨rfl, List.cons.inj same |>.2⟩
      | cons value values =>
          obtain ⟨head, word, isWord, different⟩ := apart value
          simp only [List.flatMap_cons, isWord, List.cons_append, List.flatMap_nil,
            List.nil_append] at same
          exact absurd (List.cons.inj same).1.symm different
  | cons value values induction =>
      intro second rest other same
      cases second with
      | nil =>
          obtain ⟨head, word, isWord, different⟩ := apart value
          simp only [List.flatMap_cons, isWord, List.cons_append, List.flatMap_nil,
            List.nil_append] at same
          exact absurd (List.cons.inj same).1 different
      | cons value' values' =>
          simp only [List.flatMap_cons, List.append_assoc] at same
          obtain ⟨rfl, later⟩ := free _ _ _ _ same
          obtain ⟨rfl, after⟩ := induction values' rest other (by simpa using later)
          exact ⟨rfl, after⟩

/-- Words joined by a separator: the first one, and the separator before each of the others. -/
theorem intercalate_cons (code : Value → List Letter) (separator : Letter) (value : Value)
    (values : List Value) :
    [separator].intercalate ((value :: values).map code) =
      code value ++ values.flatMap fun other => separator :: code other := by
  induction values generalizing value with
  | nil => simp
  | cons other values induction =>
      have later := induction other
      rw [List.map_cons] at later
      rw [List.map_cons, List.map_cons, List.intercalate_cons_cons, later]
      simp

theorem PrefixFree.intercalate {code : Value → List Letter} {separator mark : Letter}
    (free : PrefixFree code) (apart : Avoids code mark) (differ : separator ≠ mark) :
    PrefixFree fun values : List Value => [separator].intercalate (values.map code) ++ [mark] := by
  have separated : PrefixFree fun value => separator :: code value := by
    intro first second rest other same
    exact free first second rest other (List.cons.inj same).2
  have avoids : Avoids (fun value => separator :: code value) mark := fun value =>
    ⟨separator, code value, rfl, differ⟩
  have others := separated.flatMap avoids
  intro first second rest other same
  cases first with
  | nil =>
      cases second with
      | nil => exact ⟨rfl, (List.cons.inj same).2⟩
      | cons value values =>
          obtain ⟨head, word, isWord, different⟩ := apart value
          simp only [intercalate_cons, isWord] at same
          exact absurd (List.cons.inj same).1.symm different
  | cons value values =>
      cases second with
      | nil =>
          obtain ⟨head, word, isWord, different⟩ := apart value
          simp only [intercalate_cons, isWord] at same
          exact absurd (List.cons.inj same).1 different
      | cons value' values' =>
          simp only [intercalate_cons, List.append_assoc] at same
          obtain ⟨rfl, later⟩ := free _ _ _ _ same
          obtain ⟨rfl, after⟩ := others values values' rest other (by simpa using later)
          exact ⟨rfl, after⟩

end Encoding
end DomainLens
