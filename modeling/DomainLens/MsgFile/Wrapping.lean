import DomainLens.MsgFile.Html

/-!
# Wrapping HTML in RTF

A text is written piece by piece: what is ASCII as it is, braces and backslashes behind a backslash, and
every other unit of UTF-16 by its number with a replacement behind it.
-/

namespace DomainLens
namespace MsgFile

/-! ## Writing -/

def IsPlain (byte : UInt8) : Prop := byte.toNat < 128 ∧ isText byte = true

/-- A decimal number, nothing for zero. -/
def digits (value : Nat) : Bytes :=
  (Nat.digits 10 value).reverse.map fun digit => UInt8.ofNat (0x30 + digit)

def hexDigit (value : Nat) : UInt8 := UInt8.ofNat (if value < 10 then 0x30 + value else 0x57 + value)

def hexWritten (byte : UInt8) : Bytes :=
  [0x5C, 0x27, hexDigit (byte.toNat / 16), hexDigit (byte.toNat % 16)]

/-- A unit of UTF-16 as a signed number. -/
def signed (value : Nat) : Bytes :=
  if value < 32768 then digits value else 0x2D :: digits (65536 - value)

/-- What a reader without Unicode shows; a space ends the number before it where it must. -/
inductive Replacement where
  | plain (byte : UInt8) (plain : IsPlain byte) (spaced : Bool)
      (apart : spaced = true ∨ isDigit byte = false ∧ byte ≠ 0x20)
  | hexed (byte : UInt8) (spaced : Bool)

def Replacement.written : Replacement → Bytes
  | .plain byte _ spaced _ => (if spaced then [0x20] else []) ++ [byte]
  | .hexed byte spaced => (if spaced then [0x20] else []) ++ hexWritten byte

/-- A part of a text as it is written. -/
inductive Item where
  | plain (byte : UInt8) (plain : IsPlain byte)
  | escaped (byte : UInt8) (listed : byte ∈ [0x7B, 0x7D, 0x5C])
  | hexed (byte : UInt8) (ascii : byte.toNat < 128)
  | par
  | line
  | tab
  | unit (value : Nat) (outside : 128 ≤ value) (small : value < 65536) (replacement : Replacement)

def Item.written : Item → Bytes
  | .plain byte _ => [byte]
  | .escaped byte _ => [0x5C, byte]
  | .hexed byte _ => hexWritten byte
  | .par => ascii "\\par "
  | .line => ascii "\\line "
  | .tab => ascii "\\tab "
  | .unit value _ _ replacement => [0x5C, 0x75] ++ (signed value ++ replacement.written)

/-- The units of UTF-16 a part stands for. -/
def Item.value : Item → Points
  | .plain byte _ | .escaped byte _ | .hexed byte _ => [byte.toNat]
  | .par | .line => [13, 10]
  | .tab => [9]
  | .unit value _ _ _ => [value]

def written (items : List Item) : Bytes := items.flatMap Item.written

def value (items : List Item) : Points := items.flatMap Item.value

/-- Text outside of groups, markup in a group of its own, and what is there for display only. -/
inductive Segment where
  | text (items : List Item)
  | tag (number : Nat) (items : List Item)
  | hidden (items : List Item)

def Segment.written : Segment → Bytes
  | .text items => MsgFile.written items
  | .tag number items =>
      ascii "\x7b\\*\\htmltag" ++ (digits number ++ (0x20 :: (MsgFile.written items ++ [0x7D])))
  | .hidden items => ascii "\\htmlrtf " ++ (MsgFile.written items ++ ascii "\\htmlrtf0 ")

def Segment.value : Segment → Points
  | .text items | .tag _ items => MsgFile.value items
  | .hidden _ => []

def wrapped (segments : List Segment) : Bytes :=
  ascii "\x7b\\rtf1\\ansi\\fromhtml1 " ++ (segments.flatMap Segment.written ++ [0x7D])

/-- The units of UTF-16 of a character. -/
def unitsOf (char : Char) : Points :=
  if char.toNat < 0x10000 then [char.toNat]
  else [0xD800 + (char.toNat - 0x10000) / 0x400, 0xDC00 + (char.toNat - 0x10000) % 0x400]

def utf16 (text : List Char) : Points := text.flatMap unitsOf

/-- A code page that decodes ASCII as it is. -/
def ExtendsAscii (codec : Bytes → Points) : Prop :=
  ∀ bytes : Bytes, (∀ byte ∈ bytes, byte.toNat < 128) → codec bytes = bytes.map UInt8.toNat

/-! ## Numbers are read back -/

theorem isDigit_of_mem_digits {value : Nat} {byte : UInt8} (member : byte ∈ digits value) :
    isDigit byte = true := by
  obtain ⟨digit, isIn, rfl⟩ := List.mem_map.mp member
  have small : digit < 10 := Nat.digits_lt_base (by decide) (List.mem_reverse.mp isIn)
  interval_cases digit <;> decide

theorem digits_ne_nil {value : Nat} (some : value ≠ 0) : digits value ≠ [] := by
  rw [digits, Ne, List.map_eq_nil_iff, List.reverse_eq_nil_iff]
  exact Nat.digits_ne_nil_iff_ne_zero.mpr some

theorem length_digits_le {value : Nat} (small : value < 10 ^ 5) : (digits value).length ≤ 5 := by
  rw [digits, List.length_map, List.length_reverse]
  exact (Nat.digits_length_le_iff (by decide) value).mpr small

theorem foldl_digits (value : Nat) :
    (digits value).foldl (fun value digit => 10 * value + (digit.toNat - 0x30)) 0 = value := by
  rw [digits, List.foldl_map, List.foldl_reverse]
  have same : ∀ list : List Nat, (∀ digit ∈ list, digit < 10) →
      list.foldr (fun digit value => 10 * value + ((UInt8.ofNat (0x30 + digit)).toNat - 0x30)) 0 =
        Nat.ofDigits 10 list := by
    intro list small
    induction list with
    | nil => rfl
    | cons digit list induction =>
        have first := small digit List.mem_cons_self
        have byte : (UInt8.ofNat (0x30 + digit)).toNat = 0x30 + digit := by
          rw [UInt8.toNat_ofNat']
          omega
        rw [List.foldr_cons, induction fun digit member => small digit (List.mem_cons_of_mem _ member),
          byte, Nat.ofDigits_cons]
        omega
  rw [same _ fun digit member => Nat.digits_lt_base (by decide) member, Nat.ofDigits_digits]

private theorem head_digits_ne (value : Nat) : (digits value).head? ≠ some 0x2D := by
  intro same
  exact absurd (isDigit_of_mem_digits (List.mem_of_head? same)) (by decide)

private theorem intOf_digits {value : Nat} (small : value < 10 ^ 5) :
    intOf (digits value) = .ok value := by
  have short : ¬4300 < (digits value).length := by
    have few := length_digits_le small
    omega
  simp only [intOf, if_neg (head_digits_ne value), if_neg short, foldl_digits]

private theorem intOf_minus {value : Nat} (small : value < 10 ^ 5) :
    intOf (0x2D :: digits value) = .ok (-value) := by
  have short : ¬4300 < (digits value).length := by
    have few := length_digits_le small
    omega
  simp only [intOf, List.head?_cons, if_true, List.drop_succ_cons, List.drop_zero, if_neg short,
    foldl_digits]

theorem unicodeChar_signed {value : Nat} (small : value < 65536) :
    unicodeChar (signed value) = .ok value := by
  rw [unicodeChar, signed]
  split_ifs with isSmall
  · rw [intOf_digits (by omega)]
    simp only [chr]
    rw [if_neg (by omega), if_neg (by omega), if_neg (by omega)]
    rfl
  · have negative : -((65536 - value : ℕ) : ℤ) < 0 := by omega
    have wrapped : -((65536 - value : ℕ) : ℤ) + 65536 = value := by omega
    rw [intOf_minus (by omega)]
    simp only [if_pos negative, wrapped, chr]
    rw [if_neg (by omega), if_neg (by omega)]
    rfl

/-! ## Pieces are read back -/

private theorem hexValue_hexDigit {value : Nat} (small : value < 16) :
    hexValue (hexDigit value) = some value := by
  interval_cases value <;> decide

private theorem nextPiece_hexWritten (byte : UInt8) (rest : Bytes) :
    nextPiece (hexWritten byte ++ rest) = some (.hexed byte, rest) := by
  have high : byte.toNat / 16 < 16 := Nat.div_lt_of_lt_mul byte.toNat_lt
  have low : byte.toNat % 16 < 16 := Nat.mod_lt _ (by decide)
  have whole : UInt8.ofNat (16 * (byte.toNat / 16) + byte.toNat % 16) = byte := by
    rw [Nat.div_add_mod, UInt8.ofNat_toNat]
  have quote : isLetter 0x27 = false := by decide
  simp [hexWritten, nextPiece, readBackslash, quote, hexValue_hexDigit high, hexValue_hexDigit low,
    whole]

private theorem nextPiece_escaped {byte : UInt8} (listed : byte ∈ [0x7B, 0x7D, 0x5C])
    (rest : Bytes) : nextPiece (0x5C :: byte :: rest) = some (.symbol byte, rest) := by
  rcases List.mem_cons.mp listed with rfl | listed
  · rfl
  rcases List.mem_cons.mp listed with rfl | listed
  · rfl
  cases List.mem_singleton.mp listed
  rfl

/-- What is behind a number: nothing that it would go on with. -/
private def Ends (tail : Bytes) : Prop := ∀ byte, tail.head? = some byte → isDigit byte = false

/-- The space that ends a word is a part of it. -/
private def unspaced (tail : Bytes) : Bytes := if tail.head? = some 0x20 then tail.drop 1 else tail

private theorem takeWhile_append_of {p : UInt8 → Bool} {front tail : Bytes}
    (all : ∀ byte ∈ front, p byte = true) (ends : ∀ byte, tail.head? = some byte → p byte = false) :
    (front ++ tail).takeWhile p = front ∧ (front ++ tail).dropWhile p = tail := by
  have stops : tail.takeWhile p = [] ∧ tail.dropWhile p = tail := by
    cases tail with
    | nil => exact ⟨rfl, rfl⟩
    | cons byte tail =>
        have no := ends byte rfl
        exact ⟨List.takeWhile_cons_of_neg (by simp [no]), List.dropWhile_cons_of_neg (by simp [no])⟩
  rw [List.takeWhile_append_of_pos all, List.dropWhile_append_of_pos all, stops.1, stops.2]
  exact ⟨List.append_nil _, rfl⟩

private theorem readArg_digits {value : Nat} (some : value ≠ 0) {tail : Bytes} (ends : Ends tail) :
    readArg (digits value ++ tail) = (Option.some (digits value), tail) := by
  obtain ⟨taken, dropped⟩ := takeWhile_append_of (fun _ => @isDigit_of_mem_digits value _) ends
  have noSign : (digits value ++ tail).head? ≠ Option.some 0x2D := by
    rw [List.head?_append_of_ne_nil _ (digits_ne_nil some)]
    exact head_digits_ne value
  simp only [readArg, if_neg noSign, taken, dropped, if_neg (digits_ne_nil some), List.nil_append]

private theorem readArg_minus {value : Nat} (some : value ≠ 0) {tail : Bytes} (ends : Ends tail) :
    readArg (0x2D :: digits value ++ tail) = (Option.some (0x2D :: digits value), tail) := by
  obtain ⟨taken, dropped⟩ := takeWhile_append_of (fun _ => @isDigit_of_mem_digits value _) ends
  simp only [readArg, List.cons_append, List.head?_cons, if_true, List.drop_succ_cons, List.drop_zero,
    taken, dropped, if_neg (digits_ne_nil some), List.nil_append]

private theorem readArg_signed {value : Nat} (some : value ≠ 0) (small : value < 65536) {tail : Bytes}
    (ends : Ends tail) : readArg (signed value ++ tail) = (Option.some (signed value), tail) := by
  rw [signed]
  split_ifs
  · exact readArg_digits some ends
  · exact readArg_minus (by omega) ends

private theorem isLetter_of_isDigit {byte : UInt8} (digit : isDigit byte = true) :
    isLetter byte = false := by
  have bounds : (0x30 : UInt8).toNat = 48 ∧ (0x39 : UInt8).toNat = 57 := by decide
  simp only [isDigit, Bool.and_eq_true, decide_eq_true_eq, UInt8.le_iff_toNat_le] at digit
  simp [isLetter, UInt8.le_iff_toNat_le]
  omega

private theorem head_signed {value : Nat} (some : value ≠ 0) :
    ∃ byte rest, signed value = byte :: rest ∧ isLetter byte = false := by
  rw [signed]
  split_ifs
  · cases same : digits value with
    | nil => exact absurd same (digits_ne_nil some)
    | cons byte rest =>
        exact ⟨byte, rest, rfl, isLetter_of_isDigit
          (isDigit_of_mem_digits (same ▸ List.mem_cons_self : byte ∈ digits value))⟩
  · exact ⟨0x2D, _, rfl, by decide⟩

private theorem nextPiece_word {byte : UInt8} (letter : isLetter byte = true) (rest : Bytes) :
    nextPiece (0x5C :: byte :: rest) = some (readWord (byte :: rest)) := by
  simp only [nextPiece, if_true, readBackslash, letter]

private theorem nextPiece_unit {value : Nat} (some : value ≠ 0) (small : value < 65536) {tail : Bytes}
    (ends : Ends tail) :
    nextPiece (0x5C :: 0x75 :: (signed value ++ tail)) =
      Option.some (.word (ascii "u") (Option.some (signed value)), unspaced tail) := by
  obtain ⟨byte, rest, same, noLetter⟩ := head_signed some
  have letter : isLetter 0x75 = true := by decide
  have name : ascii "u" = [0x75] := by decide
  have taken : (0x75 :: (signed value ++ tail)).takeWhile isLetter = [0x75] := by
    rw [List.takeWhile_cons_of_pos letter, same, List.cons_append,
      List.takeWhile_cons_of_neg (by simp [noLetter])]
  have dropped : (0x75 :: (signed value ++ tail)).dropWhile isLetter = signed value ++ tail := by
    rw [List.dropWhile_cons_of_pos letter, same, List.cons_append,
      List.dropWhile_cons_of_neg (by simp [noLetter])]
  simp only [nextPiece_word letter, readWord, taken, dropped, readArg_signed some small ends, name,
    unspaced]

private theorem nextPiece_par (tail : Bytes) :
    nextPiece (ascii "\\par " ++ tail) = some (.word (ascii "par") none, tail) ∧
    nextPiece (ascii "\\line " ++ tail) = some (.word (ascii "line") none, tail) ∧
    nextPiece (ascii "\\tab " ++ tail) = some (.word (ascii "tab") none, tail) := by
  have spelled : ascii "\\par " = [0x5C, 0x70, 0x61, 0x72, 0x20] ∧ ascii "par" = [0x70, 0x61, 0x72] ∧
      ascii "\\line " = [0x5C, 0x6C, 0x69, 0x6E, 0x65, 0x20] ∧
      ascii "line" = [0x6C, 0x69, 0x6E, 0x65] ∧
      ascii "\\tab " = [0x5C, 0x74, 0x61, 0x62, 0x20] ∧ ascii "tab" = [0x74, 0x61, 0x62] := by
    decide
  obtain ⟨parLong, par, lineLong, line, tabLong, tab⟩ := spelled
  rw [parLong, par, lineLong, line, tabLong, tab]
  exact ⟨rfl, rfl, rfl⟩

private theorem nextPiece_htmlrtf (tail : Bytes) :
    nextPiece (ascii "\\htmlrtf " ++ tail) = some (.word (ascii "htmlrtf") none, tail) ∧
    nextPiece (ascii "\\htmlrtf0 " ++ tail) =
      some (.word (ascii "htmlrtf") (some (ascii "0")), tail) := by
  have spelled : ascii "\\htmlrtf " = [0x5C, 0x68, 0x74, 0x6D, 0x6C, 0x72, 0x74, 0x66, 0x20] ∧
      ascii "\\htmlrtf0 " = [0x5C, 0x68, 0x74, 0x6D, 0x6C, 0x72, 0x74, 0x66, 0x30, 0x20] ∧
      ascii "htmlrtf" = [0x68, 0x74, 0x6D, 0x6C, 0x72, 0x74, 0x66] ∧ ascii "0" = [0x30] := by
    decide
  obtain ⟨long, longZero, word, zero⟩ := spelled
  rw [long, longZero, word, zero]
  exact ⟨rfl, rfl⟩

private theorem nextPiece_htmltag (number : Nat) (tail : Bytes) :
    ∃ arg, nextPiece (ascii "\\htmltag" ++ (digits number ++ 0x20 :: tail)) =
      some (.word (ascii "htmltag") arg, tail) := by
  have spelled : ascii "\\htmltag" = [0x5C, 0x68, 0x74, 0x6D, 0x6C, 0x74, 0x61, 0x67] ∧
      ascii "htmltag" = [0x68, 0x74, 0x6D, 0x6C, 0x74, 0x61, 0x67] := by
    decide
  rw [spelled.1, spelled.2]
  by_cases zero : number = 0
  · subst zero
    exact ⟨none, rfl⟩
  have ends : Ends (0x20 :: tail) := by
    rintro byte same
    cases same
    decide
  have apart : ∀ byte, (digits number ++ 0x20 :: tail).head? = some byte → isLetter byte = false := by
    intro byte same
    rw [List.head?_append_of_ne_nil _ (digits_ne_nil zero)] at same
    exact isLetter_of_isDigit (isDigit_of_mem_digits (List.mem_of_head? same))
  obtain ⟨taken, dropped⟩ := @takeWhile_append_of isLetter
    [0x68, 0x74, 0x6D, 0x6C, 0x74, 0x61, 0x67] _ (List.all_eq_true.mp (by decide)) apart
  refine ⟨some (digits number), ?_⟩
  rw [List.cons_append, List.cons_append, nextPiece_word (by decide), ← List.cons_append, readWord,
    taken, dropped, readArg_digits zero ends]
  simp

/-! ## Parts are read back -/

variable {codec : Bytes → Points} {group : Group} {below : List Group} {skip : Nat}

/-- What comes out behind characters that are out. -/
private def behind (points : Points) (result : Except Fault Points) : Except Fault Points :=
  result.map (points ++ ·)

private theorem behind_nil (result : Except Fault Points) : behind [] result = result := by
  cases result <;> rfl

private theorem behind_behind (first second : Points) (result : Except Fault Points) :
    behind first (behind second result) = behind (first ++ second) result := by
  cases result with
  | error fault => rfl
  | ok points => exact congrArg Except.ok (List.append_assoc first second points).symm

private theorem run_put {reader : Reader} {bytes rest : Bytes} {piece : Piece} {points : Points}
    (read : nextPiece bytes = some (piece, rest)) (put : reader.put codec piece = .ok points) :
    reader.run codec bytes = behind points ((reader.next piece).run codec rest) := by
  rw [run_step read, put]
  cases (reader.next piece).run codec rest <;> rfl

private theorem run_silent {reader : Reader} {bytes rest : Bytes} {piece : Piece}
    (read : nextPiece bytes = some (piece, rest)) (put : reader.put codec piece = .ok []) :
    reader.run codec bytes = (reader.next piece).run codec rest :=
  (run_put read put).trans (behind_nil _)

/-- A reader with no destination to come. -/
private def reading (group : Group) (below : List Group) (skip : Nat) : Reader :=
  ⟨group, below, false, skip⟩

private def Group.out (group : Group) (points : Points) : Points :=
  if group.shown then points else []

private theorem Group.out_append (group : Group) (first second : Points) :
    group.out (first ++ second) = group.out first ++ group.out second := by
  rw [out, out, out]
  split_ifs <;> rfl

/-- What is behind a text: nothing that it would go on with. -/
private def Stops (tail : Bytes) : Prop := ∀ byte, tail.head? = some byte → isText byte = false

private theorem nextPiece_text {pending tail : Bytes} (some : pending ≠ [])
    (plain : ∀ byte ∈ pending, IsPlain byte) (stops : Stops tail) :
    nextPiece (pending ++ tail) = Option.some (.text pending, tail) := by
  cases pending with
  | nil => exact absurd rfl some
  | cons byte pending =>
      have isText := (plain byte List.mem_cons_self).2
      have others := isText
      simp only [MsgFile.isText, Bool.and_eq_true, Bool.not_eq_true', Ne,
        decide_not, decide_eq_false_iff_not] at others
      obtain ⟨⟨⟨noSlash, noOpen⟩, noClose⟩, noLine⟩ := others
      obtain ⟨taken, dropped⟩ := takeWhile_append_of
        (fun byte member => (plain byte (List.mem_cons_of_mem _ member)).2) stops
      rw [List.cons_append, nextPiece, if_neg noSlash, if_neg noOpen, if_neg noClose,
        if_neg (by simp [noLine]), taken, dropped]

private theorem run_pending (codes : ExtendsAscii codec) {pending tail : Bytes}
    (enough : skip ≤ pending.length) (plain : ∀ byte ∈ pending, IsPlain byte) (stops : Stops tail) :
    (reading group below skip).run codec (pending ++ tail) =
      behind (group.out ((pending.drop skip).map UInt8.toNat))
        ((reading group below 0).run codec tail) := by
  by_cases empty : pending = []
  · subst empty
    cases Nat.le_zero.mp enough
    rw [Group.out, List.drop_zero, List.map_nil, ite_self, behind_nil]
    rfl
  · refine run_put (nextPiece_text empty plain stops) ?_
    have decoded := codes (pending.drop skip) fun byte member =>
      (plain byte (List.mem_of_mem_drop member)).1
    rw [Reader.put, reading, decoded, Group.out]
    split_ifs <;> rfl

private theorem run_hexed (byte : UInt8) (rest : Bytes) (silent : skip ≠ 0 ∨ group.shown = false) :
    (reading group below skip).run codec (hexWritten byte ++ rest) =
      (reading group below (skip - 1)).run codec rest := by
  refine run_silent (nextPiece_hexWritten byte rest) ?_
  rw [Reader.put]
  split_ifs with isSkipped shown
  · rfl
  · rcases silent with isIn | hidden
    · exact absurd isIn isSkipped
    · exact Bool.noConfusion (hidden.symm.trans shown)
  · rfl

private theorem run_unit {value : Nat} (some : value ≠ 0)
    (small : value < 65536) {tail : Bytes} (ends : Ends tail) :
    (reading group below 0).run codec (0x5C :: 0x75 :: (signed value ++ tail)) =
      behind (group.out [value])
        ((reading group below (if group.shown then 1 else 0)).run codec (unspaced tail)) := by
  obtain ⟨notSkip, notRtf, notPar, notLine, notTab⟩ := words_apart
  have put : (reading group below 0).put codec (.word (ascii "u") (Option.some (signed value))) =
      .ok (group.out [value]) := by
    simp only [reading, Reader.put, Bool.false_eq_true, if_false, if_neg notSkip, if_neg notRtf, notPar,
      notLine, notTab, false_or, false_and, true_and, Group.out, unicodeChar_signed small]
    split_ifs <;> rfl
  have next : (reading group below 0).next (.word (ascii "u") (Option.some (signed value))) =
      reading group below (if group.shown then 1 else 0) := by
    simp only [reading, Reader.next, Bool.false_eq_true, if_false, if_neg notSkip, if_neg notRtf,
      true_and, ne_eq, reduceCtorEq, not_false_eq_true]
    split_ifs <;> rfl
  rw [run_put (nextPiece_unit some small ends) put, next]

private theorem ends_replacement (replacement : Replacement) (rest : Bytes) :
    Ends (replacement.written ++ rest) := by
  rintro byte same
  cases replacement with
  | plain char plain spaced apart =>
      cases spaced with
      | true =>
          cases same
          decide
      | false =>
          cases same
          exact (apart.resolve_left nofun).1
  | hexed char spaced => cases spaced <;> cases same <;> decide

private theorem unspaced_replacement (replacement : Replacement) (rest : Bytes) :
    unspaced (replacement.written ++ rest) =
      match replacement with
      | .plain byte _ _ _ => byte :: rest
      | .hexed byte _ => hexWritten byte ++ rest := by
  cases replacement with
  | plain byte plain spaced apart =>
      cases spaced with
      | true => rfl
      | false => exact if_neg fun same => (apart.resolve_left nofun).2 (Option.some.inj same)
  | hexed byte spaced => cases spaced <;> rfl

private theorem run_escaped {byte : UInt8} (listed : byte ∈ [0x7B, 0x7D, 0x5C]) (rest : Bytes) :
    (reading group below 0).run codec (0x5C :: byte :: rest) =
      behind (group.out [byte.toNat]) ((reading group below 0).run codec rest) := by
  have noStar : byte ≠ 0x2A := by
    rintro rfl
    exact absurd listed (by decide)
  have put : (reading group below 0).put codec (.symbol byte) = .ok (group.out [byte.toNat]) := by
    simp only [reading, Reader.put, listed, true_and, Group.out]
    split_ifs <;> rfl
  rw [run_put (nextPiece_escaped listed rest) put, Reader.next, if_neg noStar]

private theorem run_number (codes : ExtendsAscii codec) {byte : UInt8} (isAscii : byte.toNat < 128)
    (rest : Bytes) :
    (reading group below 0).run codec (hexWritten byte ++ rest) =
      behind (group.out [byte.toNat]) ((reading group below 0).run codec rest) := by
  refine run_put (nextPiece_hexWritten byte rest) ?_
  have decoded := codes [byte] fun other member => List.mem_singleton.mp member ▸ isAscii
  rw [Reader.put, decoded, Group.out]
  simp only [reading, ne_eq, not_true_eq_false, if_false, List.map_cons, List.map_nil]
  cases group.shown <;> rfl

private theorem run_blank (rest : Bytes) :
    (reading group below 0).run codec (ascii "\\par " ++ rest) =
      behind (group.out [13, 10]) ((reading group below 0).run codec rest) ∧
    (reading group below 0).run codec (ascii "\\line " ++ rest) =
      behind (group.out [13, 10]) ((reading group below 0).run codec rest) ∧
    (reading group below 0).run codec (ascii "\\tab " ++ rest) =
      behind (group.out [9]) ((reading group below 0).run codec rest) := by
  have others : ∀ word ∈ [ascii "par", ascii "line", ascii "tab"],
      word ∉ skipGroups ∧ word ≠ ascii "htmlrtf" ∧ word ≠ ascii "u" := by
    decide
  have tab : ascii "tab" ≠ ascii "par" ∧ ascii "tab" ≠ ascii "line" := by decide
  have next : ∀ word ∈ [ascii "par", ascii "line", ascii "tab"],
      (reading group below 0).next (.word word none) = reading group below 0 := by
    intro word member
    obtain ⟨notSkip, notRtf, notUnit⟩ := others word member
    simp only [reading, Reader.next, Bool.false_eq_true, if_false, if_neg notSkip, if_neg notRtf, notUnit,
      false_and]
  have put : ∀ word ∈ [ascii "par", ascii "line", ascii "tab"],
      (reading group below 0).put codec (.word word none) =
        .ok (group.out (if word = ascii "tab" then [9] else [13, 10])) := by
    intro word member
    obtain ⟨notSkip, notRtf, notUnit⟩ := others word member
    simp only [List.mem_cons, List.not_mem_nil, or_false] at member
    simp only [reading, Reader.put, Bool.false_eq_true, if_false, if_neg notSkip, if_neg notRtf, notUnit,
      false_and, Group.out]
    rcases member with rfl | rfl | rfl
    · simp only [true_or, true_and, tab.1.symm, if_false, false_and]
      split_ifs <;> rfl
    · simp only [or_true, true_and, tab.2.symm, if_false, false_and]
      split_ifs <;> rfl
    · simp only [tab, or_self, false_and, if_false, true_and, if_true]
      split_ifs <;> rfl
  obtain ⟨par, line, tabbed⟩ := nextPiece_par rest
  refine ⟨?_, ?_, ?_⟩
  · rw [run_put par (put _ (by simp)), next _ (by simp), if_neg tab.1.symm]
  · rw [run_put line (put _ (by simp)), next _ (by simp), if_neg tab.2.symm]
  · rw [run_put tabbed (put _ (by simp)), next _ (by simp), if_pos rfl]

private theorem stops_slash (rest : Bytes) : Stops (0x5C :: rest) := by
  rintro byte same
  cases same
  decide

private theorem stops_written {item : Item} (other : ∀ byte plain, item ≠ .plain byte plain) :
    ∃ rest, item.written = 0x5C :: rest := by
  cases item with
  | plain byte plain => exact absurd rfl (other byte plain)
  | escaped byte listed => exact ⟨_, rfl⟩
  | hexed byte isAscii => exact ⟨_, rfl⟩
  | par => exact ⟨ascii "par ", by decide⟩
  | line => exact ⟨ascii "line ", by decide⟩
  | tab => exact ⟨ascii "tab ", by decide⟩
  | unit value outside small replacement => exact ⟨_, rfl⟩

private theorem run_item (codes : ExtendsAscii codec) {item : Item}
    (other : ∀ byte plain, item ≠ .plain byte plain) {rest : Bytes} {points : Points}
    {result : Except Fault Points}
    (later : ∀ (pending : Bytes) (skip : Nat), skip ≤ pending.length →
      (∀ byte ∈ pending, IsPlain byte) →
      (reading group below skip).run codec (pending ++ rest) =
        behind (group.out ((pending.drop skip).map UInt8.toNat ++ points)) result) :
    (reading group below 0).run codec (item.written ++ rest) =
      behind (group.out item.value) (behind (group.out points) result) := by
  have now : (reading group below 0).run codec rest = behind (group.out points) result :=
    later [] 0 le_rfl nofun
  cases item with
  | plain byte itself => exact absurd rfl (other byte itself)
  | escaped byte listed => exact now ▸ run_escaped listed rest
  | hexed byte isAscii => exact now ▸ run_number codes isAscii rest
  | par => exact now ▸ (run_blank rest).1
  | line => exact now ▸ (run_blank rest).2.1
  | tab => exact now ▸ (run_blank rest).2.2
  | unit value outside small replacement =>
      have isUnit := @run_unit codec group below value (by omega) small _
        (ends_replacement replacement rest)
      rw [Item.written, List.append_assoc, List.append_assoc]
      refine isUnit.trans ?_
      rw [unspaced_replacement, Item.value]
      congr 1
      cases replacement with
      | plain byte itself spaced apart =>
          have single : ∀ other ∈ [byte], IsPlain other := fun other member =>
            List.mem_singleton.mp member ▸ itself
          cases shown : group.shown with
          | true =>
              have skipped := later [byte] 1 le_rfl single
              rwa [List.drop_one, List.tail_cons, List.map_nil, List.nil_append] at skipped
          | false =>
              have hidden := later [byte] 0 (Nat.zero_le _) single
              simp only [Group.out, shown, Bool.false_eq_true, if_false] at hidden ⊢
              exact hidden
      | hexed byte spaced =>
          cases shown : group.shown with
          | true => exact (run_hexed byte rest (.inl Nat.one_ne_zero)).trans now
          | false => exact (run_hexed byte rest (.inr shown)).trans now

/-- Parts come out as what they stand for, behind the characters that are pending. -/
theorem run_items (codes : ExtendsAscii codec) {tail : Bytes} (stops : Stops tail) :
    ∀ (items : List Item) (pending : Bytes) (skip : Nat), skip ≤ pending.length →
      (∀ byte ∈ pending, IsPlain byte) →
      (reading group below skip).run codec (pending ++ (written items ++ tail)) =
        behind (group.out ((pending.drop skip).map UInt8.toNat ++ value items))
          ((reading group below 0).run codec tail) := by
  intro items
  induction items with
  | nil =>
      intro pending skip enough plain
      have ended := @run_pending codec group below skip codes pending tail enough plain stops
      rwa [← List.append_nil (List.map _ _)] at ended
  | cons item items induction =>
      intro pending skip enough plain
      rw [written, List.flatMap_cons, ← written, value, List.flatMap_cons, ← value, List.append_assoc]
      by_cases isPlain : ∃ byte plain, item = .plain byte plain
      · obtain ⟨byte, itself, rfl⟩ := isPlain
        have together := induction (pending ++ [byte]) skip
          (enough.trans (List.length_append ▸ Nat.le_add_right _ _)) fun other member =>
            (List.mem_append.mp member).elim (plain other) fun last => List.mem_singleton.mp last ▸ itself
        rw [List.append_assoc, List.drop_append_of_le_length enough, List.map_append,
          List.append_assoc] at together
        exact together
      · have other : ∀ byte plain, item ≠ .plain byte plain := fun byte plain same =>
          isPlain ⟨byte, plain, same⟩
        obtain ⟨rest, starts⟩ := stops_written other
        have stopsHere : Stops (item.written ++ (written items ++ tail)) :=
          starts ▸ stops_slash (rest ++ (written items ++ tail))
        rw [run_pending codes enough plain stopsHere, Group.out_append, Group.out_append,
          ← behind_behind, ← behind_behind]
        congr 1
        exact run_item codes other fun pending skip => induction pending skip

/-! ## Segments -/

/-- A group of its own, where nothing is hidden. -/
private def Group.open : Group := ⟨false, false, false⟩

private theorem run_tag (number : Nat) (rest : Bytes) :
    (reading Group.open below 0).run codec
        (ascii "\x7b\\*\\htmltag" ++ (digits number ++ 0x20 :: rest)) =
      (reading ⟨false, true, false⟩ (Group.open :: below) 0).run codec rest := by
  have spelled : ascii "\x7b\\*\\htmltag" = 0x7B :: 0x5C :: 0x2A :: ascii "\\htmltag" := by decide
  obtain ⟨arg, tag⟩ := nextPiece_htmltag number rest
  have put : (Reader.mk Group.open (Group.open :: below) true 0).put codec
      (.word (ascii "htmltag") arg) = .ok [] := rfl
  have next : (Reader.mk Group.open (Group.open :: below) true 0).next
      (.word (ascii "htmltag") arg) = reading ⟨false, true, false⟩ (Group.open :: below) 0 := by
    simp only [Reader.next, if_true]
    rfl
  have opened : nextPiece (0x7B :: 0x5C :: 0x2A ::
      (ascii "\\htmltag" ++ (digits number ++ 0x20 :: rest))) =
        some (.brace true, 0x5C :: 0x2A :: (ascii "\\htmltag" ++ (digits number ++ 0x20 :: rest))) :=
    rfl
  have starred : nextPiece (0x5C :: 0x2A ::
      (ascii "\\htmltag" ++ (digits number ++ 0x20 :: rest))) =
        some (.symbol 0x2A, ascii "\\htmltag" ++ (digits number ++ 0x20 :: rest)) := rfl
  calc
    _ = (reading Group.open below 0).run codec (0x7B :: 0x5C :: 0x2A ::
          (ascii "\\htmltag" ++ (digits number ++ 0x20 :: rest))) := by rw [spelled]; rfl
    _ = (reading Group.open (Group.open :: below) 0).run codec (0x5C :: 0x2A ::
          (ascii "\\htmltag" ++ (digits number ++ 0x20 :: rest))) :=
      run_silent opened rfl
    _ = (Reader.mk Group.open (Group.open :: below) true 0).run codec
          (ascii "\\htmltag" ++ (digits number ++ 0x20 :: rest)) :=
      run_silent starred rfl
    _ = _ := (run_put tag put).trans ((behind_nil _).trans (by rw [next]))

private theorem run_close (group top : Group) (rest : Bytes) :
    (reading group (top :: below) 0).run codec (0x7D :: rest) =
      (reading top below 0).run codec rest := by
  have closed : nextPiece (0x7D :: rest) = some (.brace false, rest) := rfl
  exact run_silent closed rfl

private theorem run_htmlrtf (rest : Bytes) :
    (reading Group.open below 0).run codec (ascii "\\htmlrtf " ++ rest) =
      (reading ⟨false, false, true⟩ below 0).run codec rest ∧
    (reading ⟨false, false, true⟩ below 0).run codec (ascii "\\htmlrtf0 " ++ rest) =
      (reading Group.open below 0).run codec rest := by
  have notSkip : ascii "htmlrtf" ∉ skipGroups := by decide
  have put : ∀ group arg, (reading group below 0).put codec (.word (ascii "htmlrtf") arg) = .ok [] := by
    intro group arg
    simp only [reading, Reader.put, Bool.false_eq_true, if_false, if_neg notSkip, if_true]
  have next : ∀ group arg, (reading group below 0).next (.word (ascii "htmlrtf") arg) =
      reading { group with rtf := decide (arg ≠ some (ascii "0")) } below 0 := by
    intro group arg
    simp only [reading, Reader.next, Bool.false_eq_true, if_false, if_neg notSkip, if_true]
  obtain ⟨on, off⟩ := nextPiece_htmlrtf rest
  constructor
  · rw [run_silent on (put _ _), next]
    rfl
  · rw [run_silent off (put _ _), next, decide_eq_false (not_not_intro rfl)]
    rfl

private theorem stops_tag {rest : Bytes} : Stops (ascii "\x7b\\*\\htmltag" ++ rest) := by
  have spelled : ascii "\x7b\\*\\htmltag" = 0x7B :: 0x5C :: 0x2A :: ascii "\\htmltag" := by decide
  rintro byte same
  rw [spelled] at same
  cases same
  decide

private theorem stops_close {rest : Bytes} : Stops (0x7D :: rest) := by
  rintro byte same
  cases same
  decide

private theorem stops_htmlrtf {rest : Bytes} :
    Stops (ascii "\\htmlrtf " ++ rest) ∧ Stops (ascii "\\htmlrtf0 " ++ rest) := by
  have spelled : ascii "\\htmlrtf " = 0x5C :: ascii "htmlrtf " ∧
      ascii "\\htmlrtf0 " = 0x5C :: ascii "htmlrtf0 " := by decide
  rw [spelled.1, spelled.2]
  exact ⟨stops_slash _, stops_slash _⟩

/-- Segments come out as what they stand for, behind parts that stand before them. -/
theorem run_segments (codes : ExtendsAscii codec) {tail : Bytes} (stops : Stops tail) :
    ∀ (segments : List Segment) (items : List Item),
      (reading Group.open below 0).run codec
          (written items ++ (segments.flatMap Segment.written ++ tail)) =
        behind (value items ++ segments.flatMap Segment.value)
          ((reading Group.open below 0).run codec tail) := by
  intro segments
  induction segments with
  | nil =>
      intro items
      rw [List.flatMap_nil, List.flatMap_nil, List.append_nil]
      exact run_items codes stops items [] 0 le_rfl nofun
  | cons segment segments induction =>
      intro items
      rw [List.flatMap_cons, List.flatMap_cons, List.append_assoc]
      have after := induction []
      have shown : ∀ {tail : Bytes}, Stops tail → (reading Group.open below 0).run codec
          (written items ++ tail) =
            behind (value items) ((reading Group.open below 0).run codec tail) := fun stops =>
        run_items codes stops items [] 0 le_rfl nofun
      cases segment with
      | text more =>
          have together := induction (items ++ more)
          rw [written, List.flatMap_append, value, List.flatMap_append, List.append_assoc,
            List.append_assoc] at together
          exact together
      | tag number inner =>
          have written : Segment.written (.tag number inner) ++
              (segments.flatMap Segment.written ++ tail) =
            ascii "\x7b\\*\\htmltag" ++ (digits number ++ 0x20 ::
              (MsgFile.written inner ++ 0x7D :: (segments.flatMap Segment.written ++ tail))) := by
            simp only [Segment.written, List.append_assoc, List.cons_append, List.nil_append]
          rw [written, shown stops_tag, run_tag]
          refine (congrArg _ (run_items codes stops_close inner [] 0 le_rfl nofun)).trans ?_
          rw [run_close, behind_behind]
          refine (congrArg _ after).trans ?_
          rw [behind_behind, List.append_assoc]
          rfl
      | hidden inner =>
          have written : Segment.written (.hidden inner) ++
              (segments.flatMap Segment.written ++ tail) =
            ascii "\\htmlrtf " ++ (MsgFile.written inner ++
              (ascii "\\htmlrtf0 " ++ (segments.flatMap Segment.written ++ tail))) := by
            simp only [Segment.written, List.append_assoc]
          rw [written, shown stops_htmlrtf.1, (run_htmlrtf _).1]
          refine (congrArg _ (run_items codes stops_htmlrtf.2 inner [] 0 le_rfl nofun)).trans ?_
          rw [(run_htmlrtf _).2]
          refine (congrArg _ (congrArg _ after)).trans ?_
          rw [behind_behind, behind_behind, List.append_assoc]
          rfl

/-! ## Whole files -/

theorem contains_iff {needle data : Bytes} : contains needle data = true ↔ needle <:+: data := by
  rw [contains, List.any_eq_true, List.infix_iff_prefix_suffix]
  simp only [List.mem_tails, List.isPrefixOf_iff_prefix, and_comm]

private theorem run_named (name : Bytes) (arg : Option Bytes)
    (listed : name ∈ [ascii "rtf", ascii "ansi", ascii "fromhtml"]) {bytes rest : Bytes}
    (read : nextPiece bytes = some (.word name arg, rest)) :
    (reading group below 0).run codec bytes = (reading group below 0).run codec rest := by
  have others : ∀ word ∈ [ascii "rtf", ascii "ansi", ascii "fromhtml"],
      word ∉ skipGroups ∧ word ≠ ascii "htmlrtf" ∧ word ≠ ascii "par" ∧ word ≠ ascii "line" ∧
        word ≠ ascii "tab" ∧ word ≠ ascii "u" := by
    decide
  obtain ⟨notSkip, notRtf, notPar, notLine, notTab, notUnit⟩ := others name listed
  have put : (reading group below 0).put codec (.word name arg) = .ok [] := by
    simp only [reading, Reader.put, Bool.false_eq_true, if_false, if_neg notSkip, if_neg notRtf, notPar,
      notLine, notTab, notUnit, false_or, false_and]
  have next : (reading group below 0).next (.word name arg) = reading group below 0 := by
    simp only [reading, Reader.next, Bool.false_eq_true, if_false, if_neg notSkip, if_neg notRtf, notUnit,
      false_and]
  rw [run_silent read put, next]

private theorem run_head (rest : Bytes) :
    Reader.start.run codec (ascii "\x7b\\rtf1\\ansi\\fromhtml1 " ++ rest) =
      (reading Group.open [Group.open] 0).run codec rest := by
  have spelled : ascii "\x7b\\rtf1\\ansi\\fromhtml1 " =
      [0x7B, 0x5C, 0x72, 0x74, 0x66, 0x31, 0x5C, 0x61, 0x6E, 0x73, 0x69, 0x5C, 0x66, 0x72, 0x6F, 0x6D,
        0x68, 0x74, 0x6D, 0x6C, 0x31, 0x20] := by
    decide
  have names : ascii "rtf" = [0x72, 0x74, 0x66] ∧ ascii "ansi" = [0x61, 0x6E, 0x73, 0x69] ∧
      ascii "fromhtml" = [0x66, 0x72, 0x6F, 0x6D, 0x68, 0x74, 0x6D, 0x6C] := by
    decide
  let third : Bytes := [0x5C, 0x66, 0x72, 0x6F, 0x6D, 0x68, 0x74, 0x6D, 0x6C, 0x31, 0x20] ++ rest
  let second : Bytes := [0x5C, 0x61, 0x6E, 0x73, 0x69] ++ third
  let first : Bytes := [0x5C, 0x72, 0x74, 0x66, 0x31] ++ second
  have brace : nextPiece (0x7B :: first) = some (.brace true, first) := rfl
  have rtf : nextPiece first = some (.word (ascii "rtf") (some [0x31]), second) := by
    rw [names.1]
    rfl
  have ansi : nextPiece second = some (.word (ascii "ansi") none, third) := by
    rw [names.2.1]
    rfl
  have fromhtml : nextPiece third = some (.word (ascii "fromhtml") (some [0x31]), rest) := by
    rw [names.2.2]
    rfl
  rw [spelled]
  calc
    _ = (reading Group.open [Group.open] 0).run codec first := run_silent brace rfl
    _ = _ := run_named _ _ (by simp) rtf
    _ = _ := run_named _ _ (by simp) ansi
    _ = _ := run_named _ _ (by simp) fromhtml

theorem htmlFromRtf_wrapped (codes : ExtendsAscii codec) (segments : List Segment) :
    htmlFromRtf codec (wrapped segments) = .ok (some (segments.flatMap Segment.value)) := by
  have marked : contains (ascii "\\fromhtml") ((wrapped segments).take 2048) = true := by
    have front : ascii "\x7b\\rtf1\\ansi\\fromhtml1 " =
        ascii "\x7b\\rtf1\\ansi" ++ ascii "\\fromhtml" ++ ascii "1 " := by
      decide
    have short : (ascii "\x7b\\rtf1\\ansi\\fromhtml1 ").length ≤ 2048 := by decide
    rw [contains_iff, wrapped, List.take_append, List.take_of_length_le short, front]
    exact (List.infix_append _ _ _).trans (List.prefix_append _ _).isInfix
  rw [htmlFromRtf, if_pos marked, wrapped, run_head]
  have inside := @run_segments codec [Group.open] codes [0x7D] stops_close segments []
  have ended : nextPiece [] = none := rfl
  rw [run_close, run_end ended] at inside
  refine (congrArg (Except.map some) inside).trans ?_
  exact congrArg (fun points => Except.ok (some points)) (List.append_nil _)

/-! ## Texts -/

private theorem unitsOf_lt {char : Char} : ∀ unit ∈ unitsOf char, unit < 65536 := by
  have valid : char.toNat < 0x110000 := by
    rcases char.valid with low | ⟨-, high⟩
    · exact Nat.lt_trans low (by norm_num)
    · exact high
  intro unit member
  rw [unitsOf] at member
  split_ifs at member with small
  · exact List.mem_singleton.mp member ▸ small
  · rw [List.mem_cons, List.mem_singleton] at member
    omega

private theorem exists_item {unit : Nat} (small : unit < 65536) : ∃ item : Item, item.value = [unit] := by
  by_cases isAscii : unit < 128
  · have byte : (UInt8.ofNat unit).toNat = unit := by
      rw [UInt8.toNat_ofNat']
      omega
    exact ⟨.hexed (UInt8.ofNat unit) (byte.symm ▸ isAscii), congrArg ([·]) byte⟩
  · exact ⟨.unit unit (Nat.not_lt.mp isAscii) small (.hexed 0x3F false), rfl⟩

theorem exists_segments (text : List Char) :
    ∃ segments : List Segment, segments.flatMap Segment.value = utf16 text := by
  have each : ∀ units : Points, (∀ unit ∈ units, unit < 65536) → ∃ items, value items = units := by
    intro units small
    induction units with
    | nil => exact ⟨[], rfl⟩
    | cons unit units induction =>
        obtain ⟨item, itself⟩ := exists_item (small unit List.mem_cons_self)
        obtain ⟨items, others⟩ := induction fun other member =>
          small other (List.mem_cons_of_mem _ member)
        exact ⟨item :: items, congrArg₂ (· ++ ·) itself others⟩
  obtain ⟨items, same⟩ := each (utf16 text) fun unit member => by
    obtain ⟨char, -, isUnit⟩ := List.mem_flatMap.mp member
    exact unitsOf_lt unit isUnit
  exact ⟨[.text items], (List.append_nil _).trans same⟩

private theorem length_utf16_ge (text : List Char) : text.length ≤ (utf16 text).length := by
  induction text with
  | nil => exact le_rfl
  | cons char text induction =>
      rw [utf16, List.flatMap_cons, ← utf16, List.length_append, List.length_cons, unitsOf]
      split_ifs <;> simp only [List.length_cons, List.length_nil] <;> omega

/-- The units of a text are its characters if and only if each of them is one unit. -/
theorem utf16_eq_iff {text : List Char} :
    utf16 text = text.map Char.toNat ↔ ∀ char ∈ text, char.toNat < 0x10000 := by
  induction text with
  | nil => exact iff_of_true rfl nofun
  | cons char text induction =>
      rw [List.forall_mem_cons, ← induction, utf16, List.flatMap_cons, ← utf16, List.map_cons, unitsOf]
      split_ifs with small
      · rw [List.singleton_append, List.cons_inj_right]
        exact ⟨fun same => ⟨small, same⟩, And.right⟩
      · refine iff_of_false (fun same => ?_) (fun both => small both.1)
        have shorter := length_utf16_ge text
        have lengths := congrArg List.length same
        simp only [List.length_append, List.length_cons, List.length_nil, List.length_map] at lengths
        omega

/-- A text that is wrapped comes back if and only if each of its characters is one unit of UTF-16, and
nothing is raised if and only if every number that is shown names a character. -/
theorem htmlFromRtf_iff (codes : ExtendsAscii codec) :
    (∀ text : List Char, ∃ segments : List Segment, segments.flatMap Segment.value = utf16 text) ∧
    (∀ (text : List Char) (segments : List Segment), segments.flatMap Segment.value = utf16 text →
      (htmlFromRtf codec (wrapped segments) = .ok (some (text.map Char.toNat)) ↔
        ∀ char ∈ text, char.toNat < 0x10000)) ∧
    ∀ rtf : Bytes, (∃ result, htmlFromRtf codec rtf = .ok result) ↔
      (contains (ascii "\\fromhtml") (rtf.take 2048) = true →
        ∀ arg ∈ Reader.start.unicodeArgs rtf, Readable arg) := by
  refine ⟨exists_segments, fun text segments same => ?_, fun rtf => ?_⟩
  · rw [htmlFromRtf_wrapped codes, same, Except.ok.injEq, Option.some.injEq, utf16_eq_iff]
  · rw [← @run_ok_iff codec, htmlFromRtf]
    split_ifs with marked
    · rw [forall_prop_of_true marked]
      cases Reader.start.run codec rtf with
      | error fault =>
          exact iff_of_false (fun ⟨_, same⟩ => nomatch same) (fun ⟨_, same⟩ => nomatch same)
      | ok points => exact iff_of_true ⟨_, rfl⟩ ⟨_, rfl⟩
    · exact iff_of_true ⟨_, rfl⟩ fun isMarked => absurd isMarked marked

/-- An accented letter in front of a brace. -/
theorem accent_wrapped :
    htmlFromRtf (List.map UInt8.toNat) (wrapped [.text
      [.unit 233 (by decide) (by decide) (.plain 0x3F ⟨by decide, by decide⟩ false (.inr (by decide))),
        .escaped 0x7B (by decide)]]) = .ok (some ("é\x7b".toList.map Char.toNat)) :=
  ((htmlFromRtf_iff (fun _ _ => rfl)).2.1 "é\x7b".toList _ (by decide)).mpr (by simp)

/-- A face comes back as two halves, and a number that names no character is raised. -/
theorem face_halved :
    ([Segment.text [.unit 0xD83D (by decide) (by decide) (.hexed 0x3F false),
        .unit 0xDE00 (by decide) (by decide) (.hexed 0x3F false)]].flatMap Segment.value) =
      utf16 ['😀'] ∧
    htmlFromRtf (List.map UInt8.toNat) (wrapped [.text
      [.unit 0xD83D (by decide) (by decide) (.hexed 0x3F false),
        .unit 0xDE00 (by decide) (by decide) (.hexed 0x3F false)]]) =
      .ok (some [0xD83D, 0xDE00]) ∧
    ['😀'].map Char.toNat = [0x1F600] ∧
    htmlFromRtf (List.map UInt8.toNat)
      (ascii "\x7b\\rtf1\\ansi\\fromhtml1 " ++ ascii "\\u9999999?\x7d") = .error .valueError := by
  refine ⟨by decide, htmlFromRtf_wrapped (fun _ _ => rfl) _, by decide, ?_⟩
  have read : nextPiece (ascii "\\u9999999?\x7d") =
      some (.word (ascii "u") (some (ascii "9999999")), ascii "?\x7d") := by
    decide
  have put : (reading Group.open [Group.open] 0).put (List.map UInt8.toNat)
      (.word (ascii "u") (some (ascii "9999999"))) = .error .valueError := by
    decide
  rw [htmlFromRtf, if_pos (by decide), run_head, run_step read, put]
  rfl

end MsgFile
end DomainLens
