import DomainLens.Library.Encoding
import DomainLens.Python.Text

/-!
# Texts written as JSON

`json.dumps` escapes a text into ASCII.  The text is read back from what is written, so two lists of
texts that are written alike are alike.
-/

namespace DomainLens
namespace Python

open Encoding

/-! ## Hexadecimal digits -/

/-- The value of a lower-case hexadecimal digit. -/
def hexDigit (char : Char) : Nat :=
  if char.toNat < 97 then char.toNat - 48 else char.toNat - 87

def hexValue (digits : Text) : Nat := digits.foldl (fun value digit => value * 16 + hexDigit digit) 0

theorem length_hexDigits (width value : Nat) : (hexDigits width value).length = width := by
  induction width generalizing value with
  | zero => rfl
  | succ width induction => simp [hexDigits, induction]

theorem hexDigit_digitChar : ∀ digit < 16, hexDigit (Nat.digitChar digit) = digit := by decide

theorem hexValue_hexDigits (width value : Nat) :
    hexValue (hexDigits width value) = value % 16 ^ width := by
  induction width generalizing value with
  | zero => simp [hexDigits, hexValue, Nat.mod_one]
  | succ width induction =>
      have front := induction (value / 16)
      rw [hexValue] at front
      rw [hexDigits, hexValue, List.foldl_append, front]
      have last := hexDigit_digitChar (value % 16) (Nat.mod_lt _ (by decide))
      simp only [List.foldl_cons, List.foldl_nil, last]
      rw [Nat.pow_succ', Nat.mod_mul]
      omega

/-! ## Characters -/

/-- What the escape of one character stands for. -/
def unescape (char : Char) : Char :=
  match char with
  | 'n' => '\n'
  | 'r' => '\r'
  | 't' => '\t'
  | 'f' => '\x0c'
  | 'b' => '\x08'
  | char => char

/-- The first character of a text that is written, and the rest. -/
def readJsonChar (text : Text) : Option (Char × Text) :=
  match text with
  | '\\' :: 'u' :: digits =>
      let first := hexValue (digits.take 4)
      if 55296 ≤ first ∧ first < 57344 then
        let second := hexValue ((digits.drop 6).take 4)
        some (Char.ofNat (65536 + (first - 55296) * 1024 + (second - 56320)), digits.drop 10)
      else some (Char.ofNat first, digits.drop 4)
  | '\\' :: char :: rest => some (unescape char, rest)
  | char :: rest => some (char, rest)
  | [] => none

private theorem readJsonChar_single (code : Nat) (small : code < 65536)
    (plain : ¬(55296 ≤ code ∧ code < 57344)) (rest : Text) :
    readJsonChar ('\\' :: 'u' :: (hexDigits 4 code ++ rest)) = some (Char.ofNat code, rest) := by
  have front : (hexDigits 4 code ++ rest).take 4 = hexDigits 4 code :=
    List.take_left' (length_hexDigits 4 code)
  have back : (hexDigits 4 code ++ rest).drop 4 = rest := List.drop_left' (length_hexDigits 4 code)
  have value : hexValue (hexDigits 4 code) = code := by
    have below : code < 16 ^ 4 := small
    rw [hexValue_hexDigits, Nat.mod_eq_of_lt below]
  simp only [readJsonChar, front, back, value, if_neg plain]

private theorem readJsonChar_pair (code : Nat) (large : 65536 ≤ code) (valid : code < 1114112)
    (rest : Text) :
    readJsonChar ('\\' :: 'u' :: (hexDigits 4 (55296 + (code - 65536) / 1024) ++
        '\\' :: 'u' :: (hexDigits 4 (56320 + (code - 65536) % 1024) ++ rest))) =
      some (Char.ofNat code, rest) := by
  generalize isHigh : 55296 + (code - 65536) / 1024 = high
  generalize isLow : 56320 + (code - 65536) % 1024 = low
  have highWidth := length_hexDigits 4 high
  have lowWidth := length_hexDigits 4 low
  have highValue : hexValue (hexDigits 4 high) = high := by
    rw [hexValue_hexDigits, Nat.mod_eq_of_lt (by omega)]
  have lowValue : hexValue (hexDigits 4 low) = low := by
    rw [hexValue_hexDigits, Nat.mod_eq_of_lt (by omega)]
  have first : (hexDigits 4 high ++ '\\' :: 'u' :: (hexDigits 4 low ++ rest)).take 4 =
      hexDigits 4 high := List.take_left' highWidth
  have second : ((hexDigits 4 high ++ '\\' :: 'u' :: (hexDigits 4 low ++ rest)).drop 6).take 4 =
      hexDigits 4 low := by
    rw [List.drop_append, highWidth, List.drop_of_length_le (by omega)]
    exact List.take_left' lowWidth
  have after : (hexDigits 4 high ++ '\\' :: 'u' :: (hexDigits 4 low ++ rest)).drop 10 = rest := by
    rw [List.drop_append, highWidth, List.drop_of_length_le (by omega)]
    exact List.drop_left' lowWidth
  have surrogate : 55296 ≤ high ∧ high < 57344 := by omega
  have whole : 65536 + (high - 55296) * 1024 + (low - 56320) = code := by omega
  simp only [readJsonChar, first, second, after, highValue, lowValue, if_pos surrogate, whole]

theorem readJsonChar_jsonChar (char : Char) (rest : Text) :
    readJsonChar (jsonChar char ++ rest) = some (char, rest) := by
  unfold jsonChar
  split
  · rfl
  · rfl
  · rfl
  · rfl
  · rfl
  · rfl
  · rfl
  · rename_i _ notBackslash _ _ _ _ _
    have back : Char.ofNat char.toNat = char := Char.ofNat_toNat char
    have valid : char.toNat < 55296 ∨ 57343 < char.toNat ∧ char.toNat < 1114112 := char.valid
    dsimp only
    split
    · have other : char ≠ '\\' := notBackslash
      unfold readJsonChar
      split
      · rename_i same
        exact absurd (List.cons.inj same).1 other
      · rename_i same
        exact absurd (List.cons.inj same).1 other
      · rename_i same
        obtain ⟨rfl, rfl⟩ := List.cons.inj same
        rfl
      · rename_i same
        cases same
    · split
      · rename_i small
        rw [List.cons_append, List.cons_append, readJsonChar_single _ small (by omega), back]
      · rename_i large
        rw [List.append_assoc, List.cons_append, List.cons_append, List.cons_append,
          List.cons_append, readJsonChar_pair _ (by omega) (by omega), back]

theorem prefixFree_jsonChar : PrefixFree jsonChar := .of_read readJsonChar readJsonChar_jsonChar

theorem avoids_jsonChar : Avoids jsonChar '"' := by
  intro char
  unfold jsonChar
  split
  · exact ⟨_, _, rfl, by decide⟩
  · exact ⟨_, _, rfl, by decide⟩
  · exact ⟨_, _, rfl, by decide⟩
  · exact ⟨_, _, rfl, by decide⟩
  · exact ⟨_, _, rfl, by decide⟩
  · exact ⟨_, _, rfl, by decide⟩
  · exact ⟨_, _, rfl, by decide⟩
  · rename_i notQuote _ _ _ _ _ _
    dsimp only
    split
    · exact ⟨_, _, rfl, notQuote⟩
    · split
      · exact ⟨_, _, rfl, by decide⟩
      · exact ⟨_, _, rfl, by decide⟩

/-! ## Lists -/

/-- `json.dumps` of a text that may be missing. -/
def jsonValue : Option Text → Text
  | none => "null".toList
  | some text => jsonString text

/-- `json.dumps` of a list of them, with the separators `,` and `:`. -/
def jsonList (values : List (Option Text)) : Text :=
  '[' :: ([','].intercalate (values.map jsonValue) ++ [']'])

theorem prefixFree_jsonString : PrefixFree jsonString := by
  intro first second rest other same
  refine prefixFree_jsonChar.flatMap avoids_jsonChar first second rest other ?_
  simpa [jsonString] using same

theorem prefixFree_jsonValue : PrefixFree jsonValue := by
  intro first second rest other same
  cases first with
  | none =>
      cases second with
      | none => exact ⟨rfl, List.append_cancel_left same⟩
      | some text => exact absurd (List.cons.inj same).1 (by decide)
  | some text =>
      cases second with
      | none => exact absurd (List.cons.inj same).1 (by decide)
      | some other =>
          obtain ⟨rfl, after⟩ := prefixFree_jsonString text other _ _ same
          exact ⟨rfl, after⟩

theorem avoids_jsonValue : Avoids jsonValue ']' := by
  intro value
  cases value with
  | none => exact ⟨'n', _, rfl, by decide⟩
  | some text => exact ⟨'"', _, rfl, by decide⟩

theorem jsonList_injective : Function.Injective jsonList := by
  intro first second same
  have items := prefixFree_jsonValue.intercalate avoids_jsonValue (by decide : ',' ≠ ']')
  exact items.injective (List.cons.inj same).2

end Python
end DomainLens
