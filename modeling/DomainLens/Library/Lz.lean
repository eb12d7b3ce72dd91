import Mathlib

/-!
# Back references

A text is written as values and as copies of what came before, which may run into themselves.  The
history a copy refers to is unbounded; a ring of fixed size that holds the last part of it does as
well for copies that reach no farther back.
-/

namespace DomainLens
namespace Lz

variable {α : Type*}

/-! ## Tokens -/

/-- One value, or so many values from so far back. -/
inductive Token (α : Type*) where
  | literal (value : α)
  | copy (distance length : Nat)
deriving DecidableEq

def Token.isCopy : Token α → Bool
  | .literal _ => false
  | .copy _ _ => true

/-- The history with values from so far back behind it, one after the other. -/
def copyBack (history : List α) (distance : Nat) : Nat → List α
  | 0 => history
  | length + 1 =>
      match history[history.length - distance]? with
      | some value => copyBack (history ++ [value]) distance length
      | none => history

def Token.extend (history : List α) : Token α → List α
  | .literal value => history ++ [value]
  | .copy distance length => copyBack history distance length

def Token.Fits (history : List α) : Token α → Prop
  | .literal _ => True
  | .copy distance _ => 1 ≤ distance ∧ distance ≤ history.length

def expand (history : List α) (tokens : List (Token α)) : List α :=
  tokens.foldl Token.extend history

/-- Every token has the property with the history it finds. -/
def Along (holds : List α → Token α → Prop) : List α → List (Token α) → Prop
  | _, [] => True
  | history, token :: tokens => holds history token ∧ Along holds (token.extend history) tokens

/-- The tokens, each as it is written behind the history it finds. -/
def spell (write : List α → Token α → List α) : List α → List (Token α) → List α
  | _, [] => []
  | history, token :: tokens => write history token ++ spell write (token.extend history) tokens

/-- The bits of a control byte, the lowest first. -/
def bitsOf (control : UInt8) : List Bool := (List.range 8).map control.toNat.testBit

/-! ## Histories grow -/

theorem copyBack_succ {history : List α} {distance : Nat} (least : 1 ≤ distance)
    (most : distance ≤ history.length) (length : Nat) :
    copyBack history distance (length + 1) =
      copyBack (history ++ [history[history.length - distance]]) distance length := by
  rw [copyBack, List.getElem?_eq_getElem (by omega)]

theorem length_copyBack {history : List α} {distance : Nat} (least : 1 ≤ distance)
    (most : distance ≤ history.length) (length : Nat) :
    (copyBack history distance length).length = history.length + length := by
  induction length generalizing history with
  | zero => rfl
  | succ length induction =>
      have longer : distance ≤ (history ++ [history[history.length - distance]]).length := by
        rw [List.length_append]
        omega
      rw [copyBack_succ least most, induction longer, List.length_append, List.length_singleton]
      omega

theorem copyBack_snoc {history : List α} {distance : Nat} (least : 1 ≤ distance)
    (most : distance ≤ history.length) (length : Nat) :
    ∃ value, (copyBack history distance length)[history.length + length - distance]? = some value ∧
      copyBack history distance (length + 1) = copyBack history distance length ++ [value] := by
  induction length generalizing history with
  | zero =>
      refine ⟨history[history.length - distance], ?_, copyBack_succ least most 0⟩
      rw [copyBack, Nat.add_zero, List.getElem?_eq_getElem (by omega)]
  | succ length induction =>
      have longer : distance ≤ (history ++ [history[history.length - distance]]).length := by
        rw [List.length_append]
        omega
      obtain ⟨value, stands, copied⟩ := induction longer
      rw [copyBack_succ least most (length + 1), copyBack_succ least most length]
      refine ⟨value, ?_, copied⟩
      rw [← stands, List.length_append, List.length_singleton]
      congr 1
      omega

theorem prefix_copyBack (history : List α) (distance length : Nat) :
    history <+: copyBack history distance length := by
  induction length generalizing history with
  | zero => exact List.prefix_rfl
  | succ length induction =>
      rw [copyBack]
      cases history[history.length - distance]? with
      | none => exact List.prefix_rfl
      | some value => exact (List.prefix_append history [value]).trans (induction _)

theorem prefix_extend (history : List α) (token : Token α) : history <+: token.extend history := by
  cases token with
  | literal value => exact List.prefix_append history [value]
  | copy distance length => exact prefix_copyBack history distance length

theorem prefix_expand (history : List α) (tokens : List (Token α)) :
    history <+: expand history tokens := by
  induction tokens generalizing history with
  | nil => exact List.prefix_rfl
  | cons token tokens induction =>
      exact (prefix_extend history token).trans (induction (token.extend history))

theorem expand_append (history : List α) (first second : List (Token α)) :
    expand history (first ++ second) = expand (expand history first) second :=
  List.foldl_append

theorem expand_literals (history values : List α) :
    expand history (values.map .literal) = history ++ values := by
  induction values generalizing history with
  | nil => rw [List.append_nil]; rfl
  | cons value values induction =>
      rw [List.map_cons, expand, List.foldl_cons]
      exact (induction (history ++ [value])).trans (List.append_assoc history [value] values)

/-! ## A ring of the last values -/

/-- The ring holds the last values of the history, and writes at its end. -/
structure Holds (size : Nat) [NeZero size] (ring : Fin size → α) (write : Fin size)
    (history : List α) : Prop where
  write_eq : write = Fin.ofNat size history.length
  values : ∀ (index : Nat) (inside : index < history.length), history.length ≤ index + size →
    ring (Fin.ofNat size index) = history[index]

namespace Holds

variable {size : Nat} [NeZero size] {ring : Fin size → α} {write : Fin size} {history : List α}

theorem push (holds : Holds size ring write history) (value : α) :
    Holds size (Function.update ring write value) (write + 1) (history ++ [value]) where
  write_eq := by
    rw [holds.write_eq, List.length_append, List.length_singleton]
    exact Fin.ext (by simp [Fin.val_add, Nat.add_mod])
  values index inside recent := by
    rw [List.length_append, List.length_singleton] at inside recent
    rcases Nat.lt_or_ge index history.length with former | last
    · have apart : Fin.ofNat size index ≠ write := by
        rw [holds.write_eq]
        intro same
        have divides : size ∣ history.length - index :=
          (Nat.modEq_iff_dvd' former.le).mp (Fin.ext_iff.mp same)
        have := Nat.le_of_dvd (by omega) divides
        omega
      rw [Function.update_of_ne apart, List.getElem_append_left former]
      exact holds.values index former (by omega)
    · obtain rfl : index = history.length := by omega
      rw [← holds.write_eq, Function.update_self]
      simp

theorem read (holds : Holds size ring write history) {distance : Nat} (least : 1 ≤ distance)
    (most : distance ≤ history.length) (near : distance ≤ size) :
    ring (Fin.ofNat size (history.length - distance)) = history[history.length - distance] :=
  holds.values _ (by omega) (by omega)

end Holds

end Lz
end DomainLens
