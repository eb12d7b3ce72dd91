import DomainLens.MsgFile.Rtf

/-!
# HTML that was wrapped in RTF

A message may keep its HTML inside of RTF: the markup in groups of their own, the text outside of what
is there for display only.  Reading it back is a loop over tokens with a stack of groups.
-/

namespace DomainLens
namespace MsgFile

/-- A Python string by its code points, which may be surrogates. -/
abbrev Points := List Nat

/-! ## Tokens -/

inductive Piece where
  | word (name : Bytes) (arg : Option Bytes)
  | hexed (byte : UInt8)
  | symbol (byte : UInt8)
  | brace (opening : Bool)
  | text (bytes : Bytes)
  | newlines
deriving DecidableEq

def isLetter (byte : UInt8) : Bool :=
  (0x41 ≤ byte && byte ≤ 0x5A) || (0x61 ≤ byte && byte ≤ 0x7A)

def isDigit (byte : UInt8) : Bool := 0x30 ≤ byte && byte ≤ 0x39

def isNewline (byte : UInt8) : Bool := byte = 0x0D || byte = 0x0A

/-- `[^\\\\{}\r\n]`. -/
def isText (byte : UInt8) : Bool :=
  byte ≠ 0x5C && byte ≠ 0x7B && byte ≠ 0x7D && !isNewline byte

/-- `int` of one hexadecimal digit. -/
def hexValue (byte : UInt8) : Option Nat :=
  if isDigit byte then some (byte.toNat - 0x30)
  else if 0x41 ≤ byte && byte ≤ 0x46 then some (byte.toNat - 0x37)
  else if 0x61 ≤ byte && byte ≤ 0x66 then some (byte.toNat - 0x57)
  else none

/-- `(-?\d+)?`. -/
def readArg (rest : Bytes) : Option Bytes × Bytes :=
  let (sign, unsigned) := if rest.head? = some 0x2D then ([0x2D], rest.drop 1) else ([], rest)
  let digits := unsigned.takeWhile isDigit
  if digits = [] then (none, rest) else (some (sign ++ digits), unsigned.dropWhile isDigit)

/-- A control word behind its backslash. -/
def readWord (rest : Bytes) : Piece × Bytes :=
  let name := rest.takeWhile isLetter
  let (arg, behind) := readArg (rest.dropWhile isLetter)
  (.word name arg, if behind.head? = some 0x20 then behind.drop 1 else behind)

def readBackslash : Bytes → Option (Piece × Bytes)
  | [] => none
  | byte :: rest =>
      if isLetter byte then some (readWord (byte :: rest))
      else
        match byte, rest with
        | 0x27, high :: low :: behind =>
            match hexValue high, hexValue low with
            | some first, some second => some (.hexed (UInt8.ofNat (16 * first + second)), behind)
            | _, _ => some (.symbol byte, rest)
        | _, _ => some (.symbol byte, rest)

/-- The next match of `_TOKEN`, and what is behind it. -/
def nextPiece : Bytes → Option (Piece × Bytes)
  | [] => none
  | byte :: rest =>
      if byte = 0x5C then readBackslash rest
      else if byte = 0x7B then some (.brace true, rest)
      else if byte = 0x7D then some (.brace false, rest)
      else if isNewline byte then some (.newlines, rest.dropWhile isNewline)
      else some (.text (byte :: rest.takeWhile isText), rest.dropWhile isText)

private theorem length_readArg_le (rest : Bytes) : (readArg rest).2.length ≤ rest.length := by
  have shorter := (List.dropWhile_suffix (l := rest) isDigit).length_le
  have shorterBehind := (List.dropWhile_suffix (l := rest.drop 1) isDigit).length_le
  rw [List.length_drop] at shorterBehind
  simp only [readArg]
  split_ifs
  all_goals first
    | exact le_rfl
    | exact shorter
    | exact shorterBehind.trans (Nat.sub_le _ _)

theorem length_nextPiece_lt {bytes rest : Bytes} {piece : Piece}
    (read : nextPiece bytes = some (piece, rest)) : rest.length < bytes.length := by
  cases bytes with
  | nil => cases read
  | cons byte bytes =>
      rw [List.length_cons, Nat.lt_succ_iff]
      simp only [nextPiece] at read
      split_ifs at read
      · cases bytes with
        | nil => cases read
        | cons next bytes =>
            simp only [readBackslash] at read
            split_ifs at read
            · have word := congrArg Prod.snd (Option.some.inj read)
              have shorter := length_readArg_le ((next :: bytes).dropWhile isLetter)
              have dropped := (List.dropWhile_suffix (l := next :: bytes) isLetter).length_le
              simp only [readWord] at word
              rw [← word]
              split_ifs
              · rw [List.length_drop]
                omega
              · omega
            · split at read
              · split at read <;> obtain ⟨-, rfl⟩ := Prod.mk.inj (Option.some.inj read) <;>
                  simp only [List.length_cons] <;> omega
              · obtain ⟨-, rfl⟩ := Prod.mk.inj (Option.some.inj read)
                exact Nat.le_succ _
      · obtain ⟨-, rfl⟩ := Prod.mk.inj (Option.some.inj read)
        exact le_rfl
      · obtain ⟨-, rfl⟩ := Prod.mk.inj (Option.some.inj read)
        exact le_rfl
      · obtain ⟨-, rfl⟩ := Prod.mk.inj (Option.some.inj read)
        exact (List.dropWhile_suffix _).length_le
      · obtain ⟨-, rfl⟩ := Prod.mk.inj (Option.some.inj read)
        exact (List.dropWhile_suffix _).length_le

/-! ## Reading -/

/-- What is raised, apart from a `MsgError`. -/
inductive Fault where
  | valueError
  | overflowError
deriving DecidableEq

/-- `int`, which reads no more than 4300 digits. -/
def intOf (arg : Bytes) : Except Fault ℤ :=
  let digits := if arg.head? = some 0x2D then arg.drop 1 else arg
  let value : ℤ := (digits.foldl (fun value digit => 10 * value + (digit.toNat - 0x30)) 0 : Nat)
  if 4300 < digits.length then .error .valueError
  else .ok (if arg.head? = some 0x2D then -value else value)

/-- `chr`. -/
def chr (value : ℤ) : Except Fault Nat :=
  if value < -2147483648 ∨ 2147483647 < value then .error .overflowError
  else if value < 0 ∨ 0x10FFFF < value then .error .valueError
  else .ok value.toNat

/-- The character of a `\u`. -/
def unicodeChar (arg : Bytes) : Except Fault Nat :=
  match intOf arg with
  | .error fault => .error fault
  | .ok value => chr (if value < 0 then value + 65536 else value)

/-- `_SKIP_GROUPS`. -/
def skipGroups : List Bytes :=
  [ascii "fonttbl", ascii "colortbl", ascii "stylesheet", ascii "info", ascii "pict",
    ascii "listtable", ascii "listoverridetable"]

structure Group where
  skip : Bool
  tag : Bool
  rtf : Bool
deriving DecidableEq

/-- What stands in the group comes out. -/
def Group.shown (group : Group) : Bool := !group.skip && (group.tag || !group.rtf)

/-- The group that is open, the ones around it, and what is pending. -/
structure Reader where
  top : Group
  below : List Group
  pendingDest : Bool
  ucSkip : Nat
deriving DecidableEq

def Reader.start : Reader where
  top := ⟨false, false, false⟩
  below := []
  pendingDest := false
  ucSkip := 0

/-- The reader behind a piece, where nothing is raised. -/
def Reader.next (reader : Reader) : Piece → Reader
  | .brace true =>
      { reader with below := reader.top :: reader.below, pendingDest := false }
  | .brace false =>
      match reader.below with
      | [] => reader
      | group :: below => { reader with top := group, below := below }
  | .word name arg =>
      if reader.pendingDest then
        if name = ascii "htmltag" then
          { reader with pendingDest := false, top := { reader.top with tag := true, skip := false } }
        else { reader with pendingDest := false, top := { reader.top with skip := true } }
      else if name ∈ skipGroups then { reader with top := { reader.top with skip := true } }
      else if name = ascii "htmlrtf" then
        { reader with top := { reader.top with rtf := decide (arg ≠ some (ascii "0")) } }
      else if name = ascii "u" ∧ arg ≠ none ∧ reader.top.shown then { reader with ucSkip := 1 }
      else reader
  | .symbol byte => if byte = 0x2A then { reader with pendingDest := true } else reader
  | .hexed _ => { reader with ucSkip := reader.ucSkip - 1 }
  | .text _ => { reader with ucSkip := 0 }
  | .newlines => reader

/-- What a piece puts out; `codec` is the decoding of the code page. -/
def Reader.put (codec : Bytes → Points) (reader : Reader) : Piece → Except Fault Points
  | .brace _ | .newlines => .ok []
  | .word name arg =>
      if reader.pendingDest then .ok []
      else if name ∈ skipGroups then .ok []
      else if name = ascii "htmlrtf" then .ok []
      else if (name = ascii "par" ∨ name = ascii "line") ∧ reader.top.shown then .ok [13, 10]
      else if name = ascii "tab" ∧ reader.top.shown then .ok [9]
      else if name = ascii "u" ∧ reader.top.shown then
        match arg with
        | some arg => (unicodeChar arg).map ([·])
        | none => .ok []
      else .ok []
  | .symbol byte =>
      if byte ∈ [0x7B, 0x7D, 0x5C] ∧ reader.top.shown then .ok [byte.toNat] else .ok []
  | .hexed byte =>
      if reader.ucSkip ≠ 0 then .ok []
      else if reader.top.shown then .ok (codec [byte])
      else .ok []
  | .text bytes => if reader.top.shown then .ok (codec (bytes.drop reader.ucSkip)) else .ok []

def Reader.run (codec : Bytes → Points) (reader : Reader) (bytes : Bytes) : Except Fault Points :=
  match _read : nextPiece bytes with
  | none => .ok []
  | some (piece, rest) =>
      match reader.put codec piece with
      | .error fault => .error fault
      | .ok points =>
          match Reader.run codec (reader.next piece) rest with
          | .error fault => .error fault
          | .ok later => .ok (points ++ later)
termination_by bytes.length
decreasing_by exact length_nextPiece_lt _read

/-- `needle in data`. -/
def contains (needle data : Bytes) : Bool := data.tails.any needle.isPrefixOf

/-- `html_from_rtf`. -/
def htmlFromRtf (codec : Bytes → Points) (rtf : Bytes) : Except Fault (Option Points) :=
  if contains (ascii "\\fromhtml") (rtf.take 2048) then
    (Reader.start.run codec rtf).map some
  else .ok none

/-! ## What is raised -/

/-- The argument of a `\\u` that a reader reads. -/
def Reader.unicodeArg (reader : Reader) : Piece → Option Bytes
  | .word name arg =>
      if reader.pendingDest = false ∧ name = ascii "u" ∧ reader.top.shown = true then arg else none
  | _ => none

/-- The arguments of every `\\u` that is read, which are those of what is shown. -/
def Reader.unicodeArgs (reader : Reader) (bytes : Bytes) : List Bytes :=
  match _read : nextPiece bytes with
  | none => []
  | some (piece, rest) =>
      (reader.unicodeArg piece).toList ++ (reader.next piece).unicodeArgs rest
termination_by bytes.length
decreasing_by exact length_nextPiece_lt _read

/-- A number of at most 4300 digits that names a character, where it is negative from the end of the
16-bit numbers. -/
def Readable (arg : Bytes) : Prop :=
  ∃ value, intOf arg = .ok value ∧ -65536 ≤ value ∧ value ≤ 0x10FFFF

theorem unicodeChar_iff {arg : Bytes} : (∃ point, unicodeChar arg = .ok point) ↔ Readable arg := by
  rw [unicodeChar, Readable]
  cases intOf arg with
  | error fault => exact iff_of_false (fun ⟨_, same⟩ => nomatch same) (fun ⟨_, same, _⟩ => nomatch same)
  | ok value =>
      simp only [chr, Except.ok.injEq, exists_eq_left']
      constructor
      · rintro ⟨point, same⟩
        split_ifs at same <;> omega
      · intro range
        refine ⟨_, (if_neg ?_).trans (if_neg ?_)⟩ <;> split_ifs <;> omega

variable {codec : Bytes → Points} {reader : Reader} {bytes rest : Bytes} {piece : Piece}

theorem words_apart : ascii "u" ∉ skipGroups ∧ ascii "u" ≠ ascii "htmlrtf" ∧
    ascii "u" ≠ ascii "par" ∧ ascii "u" ≠ ascii "line" ∧ ascii "u" ≠ ascii "tab" := by
  decide

theorem put_ok_iff : (∃ points, reader.put codec piece = .ok points) ↔
    ∀ arg, reader.unicodeArg piece = some arg → Readable arg := by
  cases piece with
  | word name arg =>
      obtain ⟨notSkip, notRtf, notPar, notLine, notTab⟩ := words_apart
      simp only [Reader.put, Reader.unicodeArg]
      by_cases isRead : reader.pendingDest = false ∧ name = ascii "u" ∧ reader.top.shown = true
      · obtain ⟨noDest, rfl, shown⟩ := isRead
        simp only [noDest, notSkip, notRtf, notPar, notLine, notTab, shown, Bool.false_eq_true,
          if_false, false_or, and_true, if_true]
        cases arg with
        | none => exact iff_of_true ⟨_, rfl⟩ nofun
        | some arg =>
            simp only [Option.some.injEq, forall_eq', ← unicodeChar_iff]
            cases unicodeChar arg with
            | error fault =>
                exact iff_of_false (fun ⟨_, same⟩ => nomatch same) (fun ⟨_, same⟩ => nomatch same)
            | ok point => exact iff_of_true ⟨_, rfl⟩ ⟨_, rfl⟩
      · rw [if_neg isRead]
        refine iff_of_true ?_ nofun
        split_ifs with dest
        all_goals first
          | exact ⟨_, rfl⟩
          | exact absurd ⟨Bool.eq_false_of_not_eq_true dest, ‹_ ∧ _›⟩ isRead
  | symbol byte =>
      refine iff_of_true ?_ nofun
      simp only [Reader.put]
      split_ifs <;> exact ⟨_, rfl⟩
  | hexed byte =>
      refine iff_of_true ?_ nofun
      simp only [Reader.put]
      split_ifs <;> exact ⟨_, rfl⟩
  | text bytes =>
      refine iff_of_true ?_ nofun
      simp only [Reader.put]
      split_ifs <;> exact ⟨_, rfl⟩
  | brace opening => exact iff_of_true ⟨_, rfl⟩ nofun
  | newlines => exact iff_of_true ⟨_, rfl⟩ nofun

theorem run_end (ended : nextPiece bytes = none) : reader.run codec bytes = .ok [] := by
  rw [Reader.run]
  split
  · rfl
  · next read => nomatch ended.symm.trans read

theorem run_step (read : nextPiece bytes = some (piece, rest)) :
    reader.run codec bytes =
      match reader.put codec piece with
      | .error fault => .error fault
      | .ok points =>
          match (reader.next piece).run codec rest with
          | .error fault => .error fault
          | .ok later => .ok (points ++ later) := by
  rw [Reader.run]
  split
  · next ended => nomatch read.symm.trans ended
  · next other otherRest same =>
      obtain ⟨rfl, rfl⟩ := Prod.mk.inj (Option.some.inj (read.symm.trans same))
      rfl

/-- Nothing is raised if and only if every `\\u` that is shown names a character. -/
theorem run_ok_iff : (∃ points, reader.run codec bytes = .ok points) ↔
    ∀ arg ∈ reader.unicodeArgs bytes, Readable arg := by
  fun_induction Reader.unicodeArgs reader bytes with
  | case1 reader bytes ended => exact iff_of_true ⟨_, run_end ended⟩ nofun
  | case2 reader bytes piece rest read induction =>
      rw [run_step read]
      simp only [List.mem_append, Option.mem_toList, or_imp, forall_and, ← induction]
      rw [← @put_ok_iff codec reader piece]
      cases reader.put codec piece with
      | error fault =>
          exact iff_of_false (fun ⟨_, same⟩ => nomatch same) (fun ⟨⟨_, same⟩, _⟩ => nomatch same)
      | ok points =>
          cases (reader.next piece).run codec rest with
          | error fault =>
              exact iff_of_false (fun ⟨_, same⟩ => nomatch same) (fun ⟨_, _, same⟩ => nomatch same)
          | ok later => exact iff_of_true ⟨_, rfl⟩ ⟨⟨_, rfl⟩, _, rfl⟩

end MsgFile
end DomainLens
