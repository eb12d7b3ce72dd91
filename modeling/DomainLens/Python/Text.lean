import DomainLens.Python.UnicodeTables
import Mathlib

/-!
# Text as the source handles it

A Python string is the list of its characters.  The file gives the methods and the character
classes the program uses, with Unicode case mapping, and what its normalisers rest on: mapping the
case of a text twice is mapping it once, and a number written out reads back.
-/

namespace DomainLens
namespace Python

open Unicode

abbrev Text := List Char

instance lawfulBEqText : LawfulBEq Text := inferInstance

/-- The characters of a literal, without a look at the bytes it is stored as. -/
theorem toList_literal {literal : String} {chars : Text} (spelt : literal = String.ofList chars) :
    literal.toList = chars := by
  rw [spelt, String.toList_ofList]

/-! ## Characters -/

def inRanges (ranges : List (Nat × Nat)) (char : Char) : Bool :=
  ranges.any fun (first, last) => first ≤ char.toNat && char.toNat ≤ last

/-- The other case of a code point, where a table of runs has one. -/
def findRun (runs : List (Nat × Nat × Nat × Nat)) (code : Nat) : Option Nat :=
  (runs.find? fun (first, last, stride, _) =>
    first ≤ code && code ≤ last && (code - first) % stride == 0).map
      fun (first, _, _, image) => image + (code - first)

/-- `str.isspace` on one character, and `\s` of a pattern. -/
def isSpace (char : Char) : Bool := inRanges spaceRanges char

def decimalValue (char : Char) : Option Nat :=
  (decimalZeros.find? fun least => least ≤ char.toNat && char.toNat < least + 10).map
    fun least => char.toNat - least

/-- `str.isdecimal` on one character, and `\d` of a pattern. -/
def isDecimal (char : Char) : Bool := (decimalValue char).isSome

/-- `str.isdigit` on one character. -/
def isDigit (char : Char) : Bool := isDecimal char || inRanges digitRanges char

/-- `\w`. -/
def isWordChar (char : Char) : Bool := char == '_' || inRanges alnumRanges char

/-- The lower case of one character, the final sigma left aside. -/
def lowerChar (char : Char) : Text :=
  if char = 'İ' then ['i', Char.ofNat 775] else
    match findRun lowerRuns char.toNat with
    | some code => [Char.ofNat code]
    | none => [char]

def upperChar (char : Char) : Text :=
  match upperExpansions.lookup char.toNat with
  | some codes => codes.map Char.ofNat
  | none =>
      match findRun upperRuns char.toNat with
      | some code => [Char.ofNat code]
      | none => [char]

/-! ## Methods -/

/-- Whether a capital sigma between these characters, the ones before it nearest first, ends a
word. -/
def endsWord (before after : Text) : Bool :=
  ((before.dropWhile (inRanges ignorableRanges)).head?.any (inRanges casedRanges)) &&
    !((after.dropWhile (inRanges ignorableRanges)).head?.any (inRanges casedRanges))

/-- The lower case of one character in its place. -/
def lowerAt (before : Text) (char : Char) (after : Text) : Text :=
  if char = 'Σ' then [if endsWord before after then 'ς' else 'σ'] else lowerChar char

/-- The lower case of what follows some characters. -/
def lowerFrom : Text → Text → Text
  | _, [] => []
  | before, char :: after => lowerAt before char after ++ lowerFrom (char :: before) after

/-- `str.lower`. -/
def lower (text : Text) : Text := lowerFrom [] text

/-- `str.upper`. -/
def upper (text : Text) : Text := text.flatMap upperChar

/-- `str.lstrip`. -/
def lstrip (text : Text) : Text := text.dropWhile isSpace

/-- `str.rstrip`. -/
def rstrip (text : Text) : Text := text.rdropWhile isSpace

/-- `str.strip`. -/
def strip (text : Text) : Text := rstrip (lstrip text)

/-- The words of a text, the current one gathered last character first. -/
def splitFrom : Text → Text → List Text
  | word, [] => if word = [] then [] else [word.reverse]
  | word, char :: rest =>
      if isSpace char then
        if word = [] then splitFrom [] rest else word.reverse :: splitFrom [] rest
      else splitFrom (char :: word) rest

/-- `str.split` without a separator. -/
def split (text : Text) : List Text := splitFrom [] text

/-- Where `str.splitlines` ends a line. -/
def isLineBreak (char : Char) : Bool :=
  char.toNat ∈ [10, 11, 12, 13, 28, 29, 30, 133, 8232, 8233]

/-- The lines of a text, the current one gathered last character first. -/
def splitLinesFrom : Text → Text → List Text
  | line, [] => if line = [] then [] else [line.reverse]
  | line, '\r' :: '\n' :: rest => line.reverse :: splitLinesFrom [] rest
  | line, char :: rest =>
      if isLineBreak char then line.reverse :: splitLinesFrom [] rest
      else splitLinesFrom (char :: line) rest

/-- `str.splitlines`. -/
def splitLines (text : Text) : List Text := splitLinesFrom [] text

/-- `str.strip` of these characters. -/
def stripOf (chars text : Text) : Text :=
  (text.dropWhile (· ∈ chars)).rdropWhile (· ∈ chars)

/-- `" ".join`. -/
def joinWords : List Text → Text
  | [] => []
  | [word] => word
  | word :: words => word ++ ' ' :: joinWords words

/-- `list(dict.fromkeys(...))`: each value once, where it first stands. -/
def fromKeys {α : Type*} [DecidableEq α] : List α → List α
  | [] => []
  | value :: values => value :: (fromKeys values).filter (· ≠ value)

/-- `int` of a text of decimal digits. -/
def intOf (text : Text) : Nat :=
  text.foldl (fun value char => 10 * value + (decimalValue char).getD 0) 0

/-- `str` of a number. -/
def strOf (value : Nat) : Text := Nat.toDigits 10 value

/-- The `$` of a pattern: at the end, or before a newline there. -/
def dollar (whole : Text → Bool) (text : Text) : Bool :=
  whole text || (text.getLast? == some '\n' && whole text.dropLast)

/-- `[first][rest]{least,most}`, from end to end. -/
def wholeClass (first rest : Char → Bool) (least most : Nat) (text : Text) : Bool :=
  match text with
  | [] => false
  | char :: chars => first char && chars.all rest && least ≤ chars.length && chars.length ≤ most

/-- The lower-case hexadecimal digits of a number, in a fixed width. -/
def hexDigits : Nat → Nat → Text
  | 0, _ => []
  | width + 1, value => hexDigits width (value / 16) ++ [Nat.digitChar (value % 16)]

/-- `json.dumps` of one character of a string, ASCII only. -/
def jsonChar (char : Char) : Text :=
  match char with
  | '"' => ['\\', '"']
  | '\\' => ['\\', '\\']
  | '\n' => ['\\', 'n']
  | '\r' => ['\\', 'r']
  | '\t' => ['\\', 't']
  | '\x0c' => ['\\', 'f']
  | '\x08' => ['\\', 'b']
  | char =>
      let code := char.toNat
      if 32 ≤ code ∧ code < 127 then [char]
      else if code < 65536 then '\\' :: 'u' :: hexDigits 4 code
      else
        '\\' :: 'u' :: hexDigits 4 (55296 + (code - 65536) / 1024) ++
          '\\' :: 'u' :: hexDigits 4 (56320 + (code - 65536) % 1024)

/-- `json.dumps` of a string. -/
def jsonString (text : Text) : Text := '"' :: text.flatMap jsonChar ++ ['"']

/-! ## White space -/

/-- A text without white space, and not empty. -/
structure IsWord (text : Text) : Prop where
  ne_nil : text ≠ []
  solid : ∀ char ∈ text, isSpace char = false

structure IsStripped (text : Text) : Prop where
  head : ∀ char ∈ text.head?, isSpace char = false
  last : ∀ char ∈ text.getLast?, isSpace char = false

theorem strip_of_isStripped {text : Text} (stripped : IsStripped text) : strip text = text := by
  have left : lstrip text = text := by
    cases text with
    | nil => rfl
    | cons head text => exact List.dropWhile_cons_of_neg (by simp [stripped.head head rfl])
  rw [strip, left, rstrip, List.rdropWhile_eq_self_iff]
  intro nonempty
  simp [stripped.last _ (List.getLast?_eq_some_getLast nonempty)]

theorem isStripped_strip (text : Text) : IsStripped (strip text) where
  head char member := by
    obtain ⟨after, isPrefix⟩ : rstrip (lstrip text) <+: lstrip text := List.rdropWhile_prefix _ _
    have first := List.head?_dropWhile_not isSpace text
    have same : (lstrip text).head? = some char := by
      rw [← isPrefix, List.head?_append, show (rstrip (lstrip text)).head? = some char from member]
      rfl
    rw [show text.dropWhile isSpace = lstrip text from rfl, same] at first
    simpa using first
  last char member := by
    have nonempty : strip text ≠ [] := by
      rintro empty
      rw [empty] at member
      cases member
    have last := List.rdropWhile_last_not isSpace (lstrip text) nonempty
    rw [List.getLast?_eq_some_getLast nonempty] at member
    obtain rfl := Option.some.inj member
    rw [Bool.not_eq_true] at last
    exact last

theorem isStripped_of_solid {text : Text} (solid : ∀ char ∈ text, isSpace char = false) :
    IsStripped text where
  head char member := solid char (List.mem_of_mem_head? member)
  last char member := solid char (List.mem_of_getLast? member)

/-- A stripped text ends in no newline, so `$` is its end. -/
theorem dollar_of_isStripped {whole : Text → Bool} {text : Text} (stripped : IsStripped text) :
    dollar whole text = whole text := by
  have noNewline : (text.getLast? == some '\n') = false := by
    rw [beq_eq_false_iff_ne]
    intro newline
    exact absurd (stripped.last '\n' newline) (by decide)
  rw [dollar, noNewline, Bool.false_and, Bool.or_false]

/-- What `strip` leaves neither begins nor ends with white space. -/
@[simp] theorem strip_strip (text : Text) : strip (strip text) = strip text :=
  strip_of_isStripped (isStripped_strip text)

private theorem isWord_of_mem_splitFrom {word text : Text}
    (solid : ∀ char ∈ word, isSpace char = false) {part : Text}
    (member : part ∈ splitFrom word text) : IsWord part := by
  induction text generalizing word with
  | nil =>
      unfold splitFrom at member
      split_ifs at member with empty
      · cases member
      · rw [List.mem_singleton.mp member]
        exact ⟨by simpa using empty, fun char held => solid char (List.mem_reverse.mp held)⟩
  | cons head text induction =>
      unfold splitFrom at member
      split_ifs at member with space empty
      · exact induction (by simp) member
      · rcases List.mem_cons.mp member with rfl | later
        · exact ⟨by simpa using empty, fun char held => solid char (List.mem_reverse.mp held)⟩
        · exact induction (by simp) later
      · refine induction (fun char held => ?_) member
        rcases List.mem_cons.mp held with rfl | old
        · simpa using space
        · exact solid char old

theorem isWord_of_mem_split {text part : Text} (member : part ∈ split text) : IsWord part :=
  isWord_of_mem_splitFrom (by simp) member

private theorem splitFrom_ne_nil {word text : Text}
    (found : word ≠ [] ∨ ∃ char ∈ text, isSpace char = false) : splitFrom word text ≠ [] := by
  induction text generalizing word with
  | nil => simpa [splitFrom] using found
  | cons head text induction =>
      unfold splitFrom
      split_ifs with space empty
      · refine induction (.inr ?_)
        obtain ⟨char, member, solid⟩ := found.resolve_left (not_not.mpr empty)
        rcases List.mem_cons.mp member with rfl | later
        · exact absurd space (by simp [solid])
        · exact ⟨char, later, solid⟩
      · exact List.cons_ne_nil _ _
      · exact induction (.inl (List.cons_ne_nil _ _))

theorem split_ne_nil {text : Text} {char : Char} (member : char ∈ text)
    (solid : isSpace char = false) : split text ≠ [] :=
  splitFrom_ne_nil (.inr ⟨char, member, solid⟩)

theorem exists_solid_of_strip_ne_nil {text : Text} (nonempty : strip text ≠ []) :
    ∃ char ∈ text, isSpace char = false := by
  by_contra none
  apply nonempty
  have empty : lstrip text = [] :=
    List.dropWhile_eq_nil_iff.mpr fun char member => by
      simpa using fun space => none ⟨char, member, space⟩
  rw [strip, empty]
  rfl

private theorem splitFrom_append {word front back : Text}
    (solid : ∀ char ∈ front, isSpace char = false) :
    splitFrom word (front ++ back) = splitFrom (front.reverse ++ word) back := by
  induction front generalizing word with
  | nil => rfl
  | cons head front induction =>
      rw [List.cons_append, splitFrom, if_neg (by simp [solid head List.mem_cons_self]),
        induction fun char member => solid char (List.mem_cons_of_mem head member)]
      simp

theorem split_joinWords {words : List Text} (areWords : ∀ word ∈ words, IsWord word) :
    split (joinWords words) = words := by
  induction words with
  | nil => rfl
  | cons word words induction =>
      have isWord := areWords word List.mem_cons_self
      have later := induction fun other member => areWords other (List.mem_cons_of_mem word member)
      have reversed : word.reverse ≠ [] := by simpa using isWord.ne_nil
      cases words with
      | nil =>
          rw [joinWords, split, ← List.append_nil word, splitFrom_append isWord.solid]
          simp [splitFrom, isWord.ne_nil]
      | cons next words =>
          rw [joinWords, split, splitFrom_append isWord.solid, splitFrom, if_pos (by decide)]
          · rw [if_neg (by simpa using isWord.ne_nil)]
            simpa [split] using later
          · simp

@[simp] theorem joinWords_split_joinWords (text : Text) :
    joinWords (split (joinWords (split text))) = joinWords (split text) := by
  rw [split_joinWords fun word member => isWord_of_mem_split member]

/-! ## Lists of values -/

theorem mem_intercalate {char separator : Char} {parts : List Text}
    (member : char ∈ [separator].intercalate parts) :
    char = separator ∨ ∃ part ∈ parts, char ∈ part := by
  induction parts with
  | nil => cases member
  | cons part parts induction =>
      cases parts with
      | nil =>
          rw [List.intercalate_singleton] at member
          exact .inr ⟨part, List.mem_cons_self, member⟩
      | cons next parts =>
          rw [List.intercalate_cons_cons, List.mem_append, List.mem_append,
            List.mem_singleton] at member
          rcases member with (here | same) | later
          · exact .inr ⟨part, List.mem_cons_self, here⟩
          · exact .inl same
          · refine (induction later).imp id fun ⟨other, isPart, inside⟩ => ?_
            exact ⟨other, List.mem_cons_of_mem part isPart, inside⟩

theorem not_separator_of_mem_splitOnP {α : Type*} {separates : α → Bool} {values part : List α}
    (member : part ∈ values.splitOnP separates) : ∀ value ∈ part, separates value = false := by
  induction values generalizing part with
  | nil =>
      rw [List.splitOnP_nil, List.mem_singleton] at member
      simp [member]
  | cons head values induction =>
      rw [List.splitOnP_cons_eq_if_modifyHead] at member
      split_ifs at member with isSeparator
      · rcases List.mem_cons.mp member with rfl | later
        · simp
        · exact induction later
      · obtain ⟨first, rest, parts⟩ := List.exists_cons_of_ne_nil (List.splitOnP_ne_nil separates values)
        rw [parts, List.modifyHead_cons] at member
        rw [parts] at induction
        rcases List.mem_cons.mp member with rfl | later
        · intro value held
          rcases List.mem_cons.mp held with rfl | old
          · simpa using isSeparator
          · exact induction List.mem_cons_self value old
        · exact induction (List.mem_cons_of_mem _ later)

section FromKeys

variable {α : Type*} [DecidableEq α]

@[simp] theorem mem_fromKeys {value : α} {values : List α} :
    value ∈ fromKeys values ↔ value ∈ values := by
  induction values with
  | nil => rfl
  | cons head values induction =>
      by_cases same : value = head <;> simp [fromKeys, same, induction]

theorem nodup_fromKeys (values : List α) : (fromKeys values).Nodup := by
  induction values with
  | nil => exact List.nodup_nil
  | cons head values induction => exact List.nodup_cons.mpr ⟨by simp, induction.filter _⟩

theorem length_fromKeys_le (values : List α) : (fromKeys values).length ≤ values.length := by
  induction values with
  | nil => exact Nat.le_refl 0
  | cons head values induction =>
      exact Nat.succ_le_succ (Nat.le_trans (List.length_filter_le _ _) induction)

theorem fromKeys_of_nodup {values : List α} (distinct : values.Nodup) :
    fromKeys values = values := by
  induction values with
  | nil => rfl
  | cons head values induction =>
      obtain ⟨new, rest⟩ := List.nodup_cons.mp distinct
      rw [fromKeys, induction rest, List.filter_eq_self.mpr]
      intro value member
      simpa using fun same : value = head => new (same ▸ member)

end FromKeys

/-! ## Numbers -/

private theorem toNat_of_isDigit {char : Char} (digit : char.isDigit = true) :
    48 ≤ char.toNat ∧ char.toNat ≤ 57 := by
  simp only [Char.isDigit, Bool.and_eq_true, decide_eq_true_eq] at digit
  exact ⟨UInt32.le_iff_toNat_le.mp digit.1, UInt32.le_iff_toNat_le.mp digit.2⟩

private theorem decimalValue_of_isDigit {char : Char} (digit : char.isDigit = true) :
    decimalValue char = some (char.toNat - 48) := by
  obtain ⟨least, most⟩ := toNat_of_isDigit digit
  rw [decimalValue, decimalZeros, List.find?_cons_of_pos]
  · rfl
  · simp only [Bool.and_eq_true, decide_eq_true_eq]
    omega

theorem isDecimal_of_mem_strOf {value : Nat} {char : Char} (member : char ∈ strOf value) :
    isDecimal char = true := by
  rw [isDecimal, decimalValue_of_isDigit (Nat.isDigit_of_mem_toDigits (by decide) (by decide) member)]
  rfl

theorem isSpace_of_mem_strOf {value : Nat} {char : Char} (member : char ∈ strOf value) :
    isSpace char = false := by
  obtain ⟨least, most⟩ :=
    toNat_of_isDigit (Nat.isDigit_of_mem_toDigits (by decide) (by decide) member)
  rw [isSpace, inRanges, List.any_eq_false]
  intro range member
  simp only [spaceRanges, List.mem_cons, List.not_mem_nil, or_false] at member
  simp only [Bool.and_eq_true, decide_eq_true_eq, not_and]
  rcases member with rfl | rfl | rfl | rfl | rfl | rfl | rfl | rfl | rfl | rfl <;> omega

theorem strOf_ne_nil (value : Nat) : strOf value ≠ [] :=
  List.ne_nil_of_length_pos Nat.length_toDigits_pos

theorem length_strOf_le {value width : Nat} (positive : 0 < width) (bound : value < 10 ^ width) :
    (strOf value).length ≤ width :=
  (Nat.length_toDigits_le_iff (by decide) positive).mpr bound

private theorem decimalValue_le (char : Char) : (decimalValue char).getD 0 ≤ 9 := by
  unfold decimalValue
  cases found : decimalZeros.find? fun least =>
      least ≤ char.toNat && char.toNat < least + 10 with
  | none => simp
  | some least =>
      have held := List.find?_some found
      simp only [Bool.and_eq_true, decide_eq_true_eq] at held
      simp only [Option.map_some, Option.getD_some]
      omega

theorem intOf_lt (text : Text) : intOf text < 10 ^ text.length := by
  have folded : ∀ (digits : Text) (start width : Nat), start < 10 ^ width →
      digits.foldl (fun value char => 10 * value + (decimalValue char).getD 0) start <
        10 ^ (width + digits.length) := by
    intro digits
    induction digits with
    | nil => simp
    | cons head digits induction =>
        intro start width bound
        have next : 10 * start + (decimalValue head).getD 0 < 10 ^ (width + 1) := by
          have small := decimalValue_le head
          rw [Nat.pow_succ]
          omega
        simpa [Nat.add_assoc, Nat.add_comm 1] using induction _ _ next
  simpa [intOf] using folded text 0 0 (by decide)

@[simp] theorem intOf_strOf (value : Nat) : intOf (strOf value) = value := by
  have folded : ∀ (digits : Text) (start : Nat), (∀ char ∈ digits, char.isDigit = true) →
      digits.foldl (fun value char => 10 * value + (decimalValue char).getD 0) start =
        Nat.ofDigitChars 10 digits start := by
    intro digits
    induction digits with
    | nil => intros; rfl
    | cons head digits induction =>
        intro start isDigits
        rw [List.foldl_cons, Nat.ofDigitChars_cons,
          induction _ fun char member => isDigits char (List.mem_cons_of_mem head member),
          decimalValue_of_isDigit (isDigits head List.mem_cons_self)]
        rfl
  rw [intOf, strOf, folded _ _ fun char member =>
    Nat.isDigit_of_mem_toDigits (by decide) (by decide) member]
  exact Nat.ofDigitChars_ten_toDigits

end Python
end DomainLens
