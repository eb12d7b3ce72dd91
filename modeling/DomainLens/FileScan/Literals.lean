import DomainLens.FileScan.Files

/-!
# Literal strings of a PDF

A string is written between parentheses, with escapes and with line ends that may be passed over.  The
scan finds its end, and undoes the escapes.
-/

namespace DomainLens
namespace FileScan
namespace PdfScan

/-! ## Finding and decoding -/

/-- The place of the parenthesis that closes, in what is looked at; the byte behind a backslash is
taken as it is. -/
def closing : Bool → Nat → Bytes → Option Nat
  | _, _, [] => none
  | true, depth, _ :: rest => (closing false depth rest).map (· + 1)
  | false, depth, byte :: rest =>
      if byte = 0x5C then (closing true depth rest).map (· + 1)
      else if byte = 0x28 then (closing false (depth + 1) rest).map (· + 1)
      else if byte = 0x29 then
        if depth = 1 then some 0 else (closing false (depth - 1) rest).map (· + 1)
      else (closing false depth rest).map (· + 1)

/-- `_balanced`. -/
def balanced (text : Bytes) (start limit : Nat) : Bytes :=
  let window := (text.drop start).take limit
  match closing false 1 window with
  | some place => window.take place
  | none => window

/-- The default of `limit`. -/
def defaultLimit : Nat := 200000

/-- `simple`. -/
def simple (byte : UInt8) : Option UInt8 :=
  if byte = 0x6E then some 0x0A
  else if byte = 0x72 then some 0x0D
  else if byte = 0x74 then some 0x09
  else if byte = 0x62 then some 0x08
  else if byte = 0x66 then some 0x0C
  else none

def isDigit (byte : UInt8) : Bool := 0x30 ≤ byte && byte ≤ 0x39

def isOctal (byte : UInt8) : Bool := 0x30 ≤ byte && byte ≤ 0x37

/-- `int(digits, 8)`. -/
def octalValue (digits : Bytes) : Nat :=
  digits.foldl (fun value digit => value * 8 + (digit.toNat - 0x30)) 0

/-- `_literal`. -/
def literal : Bytes → Bytes
  | [] => []
  | [byte] => [byte]
  | byte :: next :: rest =>
      if byte = 0x5C then
        match simple next with
        | some value => value :: literal rest
        | none =>
            if isDigit next then
              match ((next :: rest).take 3).takeWhile isOctal with
              | [] => next :: literal rest
              | digits@(_ :: more) =>
                  UInt8.ofNat (octalValue digits &&& 0xFF) :: literal (rest.drop more.length)
            else if next = 0x0D ∨ next = 0x0A then literal rest
            else next :: literal rest
      else byte :: literal (next :: rest)
termination_by raw => raw.length
decreasing_by all_goals simp only [List.length_cons, List.length_drop]; omega

/-! ## Writing -/

inductive Ending where
  | lf
  | cr
  | crlf
deriving DecidableEq

def Ending.bytes : Ending → Bytes
  | .lf => [0x0A]
  | .cr => [0x0D]
  | .crlf => [0x0D, 0x0A]

def IsPlain (byte : UInt8) : Prop := byte ∉ [0x28, 0x29, 0x5C, 0x0A, 0x0D]

/-- Bytes that an escape may hold behind its backslash, the octal digits apart. -/
def IsEscaped (byte : UInt8) : Prop := isOctal byte = false ∧ byte ∉ [0x0A, 0x0D]

/-- A part of a string as it is written. -/
inductive Item where
  | plain (byte : UInt8) (stands : IsPlain byte)
  | opened
  | closed
  | ending (mark : Ending)
  | escaped (byte : UInt8) (stands : IsEscaped byte)
  | octal (first : Fin 8) (more : List (Fin 8)) (few : more.length ≤ 2)
  | continued (mark : Ending)

def octalDigit (value : Fin 8) : UInt8 := 0x30 + UInt8.ofNat value.val

def Item.written : Item → Bytes
  | .plain byte _ => [byte]
  | .opened => [0x28]
  | .closed => [0x29]
  | .ending mark => mark.bytes
  | .escaped byte _ => [0x5C, byte]
  | .octal first more _ => 0x5C :: octalDigit first :: more.map octalDigit
  | .continued mark => 0x5C :: mark.bytes

/-- The bytes a part stands for: an end of a line is a line feed however it is written, and none
behind a backslash; a backslash that starts no escape is passed over. -/
def Item.value : Item → Bytes
  | .plain byte _ => [byte]
  | .opened => [0x28]
  | .closed => [0x29]
  | .ending _ => [0x0A]
  | .escaped byte _ => [(simple byte).getD byte]
  | .octal first more _ =>
      [UInt8.ofNat (more.foldl (fun value digit => value * 8 + digit.val) first.val % 256)]
  | .continued _ => []

def written (items : List Item) : Bytes := items.flatMap Item.written

def value (items : List Item) : Bytes := items.flatMap Item.value

/-- What is written behind a part is not taken for some of it. -/
def Item.Ends : Item → Bytes → Prop
  | .octal _ more _, behind => more.length < 2 → ∀ byte ∈ behind.head?, isOctal byte = false
  | .ending .cr, behind | .continued .cr, behind => behind.head? ≠ some 0x0A
  | _, _ => True

/-- The parts are read one after the other. -/
def Apart : List Item → Prop
  | [] => True
  | item :: items => item.Ends (written items) ∧ Apart items

/-- Every parenthesis that is opened is closed, so many more of them. -/
def Closes : Nat → List Item → Prop
  | depth, [] => depth = 0
  | depth, .opened :: items => Closes (depth + 1) items
  | 0, .closed :: _ => False
  | depth + 1, .closed :: items => Closes depth items
  | depth, _ :: items => Closes depth items

/-- The scan keeps what it should make a line feed of, or pass over. -/
def Item.keepsReturn : Item → Bool
  | .ending .cr | .ending .crlf | .continued .crlf => true
  | _ => false

/-! ## The end is found -/

private theorem closing_plain {byte : UInt8} (stands : byte ∉ [0x28, 0x29, 0x5C]) (depth : Nat)
    (tail : Bytes) : closing false depth (byte :: tail) = (closing false depth tail).map (· + 1) := by
  simp only [List.mem_cons, List.not_mem_nil, or_false, not_or] at stands
  rw [closing, if_neg stands.2.2, if_neg stands.1, if_neg stands.2.1]

private theorem map_add (place : Option Nat) (first second : Nat) :
    (place.map (· + first)).map (· + second) = place.map (· + (second + first)) := by
  rw [Option.map_map]
  congr 1
  funext value
  exact (Nat.add_assoc _ _ _).trans (congrArg _ (Nat.add_comm _ _))

private theorem closing_plains {bytes : Bytes} (stand : ∀ byte ∈ bytes, byte ∉ [0x28, 0x29, 0x5C])
    (depth : Nat) (tail : Bytes) :
    closing false depth (bytes ++ tail) = (closing false depth tail).map (· + bytes.length) := by
  induction bytes with
  | nil => exact Option.map_id'.symm
  | cons byte bytes induction =>
      rw [List.cons_append, closing_plain (stand byte List.mem_cons_self),
        induction fun byte member => stand byte (List.mem_cons_of_mem _ member), map_add,
        List.length_cons, Nat.add_comm]

private theorem closing_escape {bytes : Bytes} (stand : ∀ byte ∈ bytes, byte ∉ [0x28, 0x29, 0x5C])
    (byte : UInt8) (depth : Nat) (tail : Bytes) :
    closing false depth (0x5C :: byte :: (bytes ++ tail)) =
      (closing false depth tail).map (· + (0x5C :: byte :: bytes).length) := by
  rw [closing, if_pos rfl, closing, closing_plains stand, map_add, map_add]
  simp only [List.length_cons, Nat.add_comm, Nat.add_left_comm, Nat.reduceAdd]

private theorem octalDigit_stands : ∀ digit, octalDigit digit ∉ [0x28, 0x29, 0x5C] := by decide

private theorem ending_stands (mark : Ending) :
    ∀ byte ∈ mark.bytes, byte ∉ [0x28, 0x29, 0x5C] := by
  cases mark <;> simp [Ending.bytes]

theorem closing_item {item : Item} (apart : item ≠ .opened ∧ item ≠ .closed) (depth : Nat)
    (tail : Bytes) :
    closing false depth (item.written ++ tail) = (closing false depth tail).map (· + item.written.length) := by
  cases item with
  | plain byte stands =>
      refine closing_plain (fun member => stands ?_) depth tail
      simp only [List.mem_cons, List.not_mem_nil, or_false] at member ⊢
      tauto
  | opened => exact absurd rfl apart.1
  | closed => exact absurd rfl apart.2
  | ending mark => exact closing_plains (ending_stands mark) depth tail
  | escaped byte stands => exact @closing_escape [] nofun byte depth tail
  | octal first more few =>
      refine closing_escape (fun byte member => ?_) (octalDigit first) depth tail
      obtain ⟨digit, -, rfl⟩ := List.mem_map.mp member
      exact octalDigit_stands digit
  | continued mark =>
      cases mark with
      | lf => exact @closing_escape [] nofun 0x0A depth tail
      | cr => exact @closing_escape [] nofun 0x0D depth tail
      | crlf => exact @closing_escape [0x0A] (by simp) 0x0D depth tail

/-- Behind parts that close as many parentheses as are open, the one that closes is looked for. -/
theorem closing_written {items : List Item} {depth : Nat} (closes : Closes depth items)
    (tail : Bytes) :
    closing false (depth + 1) (written items ++ tail) =
      (closing false 1 tail).map (· + (written items).length) := by
  induction items generalizing depth with
  | nil =>
      obtain rfl : depth = 0 := closes
      exact Option.map_id'.symm
  | cons item items induction =>
      have parts : written (item :: items) = item.written ++ written items := List.flatMap_cons
      rw [parts, List.append_assoc, List.length_append]
      by_cases opened : item = .opened
      · subst opened
        have step : closing false (depth + 1) (0x28 :: (written items ++ tail)) =
            (closing false (depth + 1 + 1) (written items ++ tail)).map (· + 1) := rfl
        exact step.trans ((congrArg _ (induction closes)).trans (map_add _ _ _))
      · by_cases closed : item = .closed
        · subst closed
          cases depth with
          | zero => exact closes.elim
          | succ depth =>
              have step : closing false (depth + 1 + 1) (0x29 :: (written items ++ tail)) =
                  (closing false (depth + 1) (written items ++ tail)).map (· + 1) := rfl
              exact step.trans ((congrArg _ (induction closes)).trans (map_add _ _ _))
        · have same : Closes depth items := by cases item <;> first | exact closes | contradiction
          rw [closing_item ⟨opened, closed⟩, induction same, map_add]

theorem balanced_eq_iff {items : List Item} (closes : Closes 0 items) (front behind : Bytes)
    (limit : Nat) :
    balanced (front ++ (written items ++ 0x29 :: behind)) front.length limit = written items ↔
      (written items).length ≤ limit := by
  rw [balanced, List.drop_left]
  constructor
  · intro found
    rw [← found]
    split <;> simp only [List.length_take] <;> omega
  · intro fits
    have window : (written items ++ 0x29 :: behind).take limit =
        written items ++ (0x29 :: behind).take (limit - (written items).length) := by
      rw [List.take_append, List.take_of_length_le fits]
    simp only [window, closing_written closes]
    cases limit - (written items).length with
    | zero => exact List.append_nil _
    | succ more =>
        have here : closing false 1 ((0x29 :: behind).take (more + 1)) = some 0 := rfl
        rw [here]
        exact (congrArg (List.take · _) (Nat.zero_add _)).trans List.take_left

/-! ## Escapes are undone -/

def Item.decoded : Item → Bytes
  | .ending mark => mark.bytes
  | .continued .crlf => [0x0A]
  | item => item.value

private theorem literal_plain {byte : UInt8} (stands : byte ≠ 0x5C) (behind : Bytes) :
    literal (byte :: behind) = byte :: literal behind := by
  cases behind with
  | nil =>
      rw [literal.eq_def, literal.eq_def]
  | cons next behind =>
      rw [literal.eq_def]
      exact if_neg stands

private theorem literal_escape (next : UInt8) (behind : Bytes) :
    literal (0x5C :: next :: behind) =
      match simple next with
      | some value => value :: literal behind
      | none =>
          if isDigit next then
            match ((next :: behind).take 3).takeWhile isOctal with
            | [] => next :: literal behind
            | digits@(_ :: more) =>
                UInt8.ofNat (octalValue digits &&& 0xFF) :: literal (behind.drop more.length)
          else if next = 0x0D ∨ next = 0x0A then literal behind
          else next :: literal behind := by
  rw [literal.eq_def]
  exact if_pos rfl

private theorem octalDigit_facts : ∀ digit, simple (octalDigit digit) = none ∧
    isDigit (octalDigit digit) = true ∧ isOctal (octalDigit digit) = true ∧
    (octalDigit digit).toNat - 0x30 = digit.val := by decide

private theorem takeWhile_octal {digits : List (Fin 8)} (few : digits.length ≤ 3) {behind : Bytes}
    (ends : digits.length < 3 → ∀ byte ∈ behind.head?, isOctal byte = false) :
    ((digits.map octalDigit ++ behind).take 3).takeWhile isOctal = digits.map octalDigit := by
  have all : ∀ byte ∈ digits.map octalDigit, isOctal byte = true := by
    intro byte member
    obtain ⟨digit, -, rfl⟩ := List.mem_map.mp member
    exact (octalDigit_facts digit).2.2.1
  have rest : (behind.take (3 - digits.length)).takeWhile isOctal = [] := by
    cases left : 3 - digits.length with
    | zero => rfl
    | succ left =>
        cases behind with
        | nil => rfl
        | cons byte behind =>
            have other := ends (by omega) byte rfl
            rw [List.take_succ_cons, List.takeWhile_cons_of_neg (by rw [other]; decide)]
  rw [List.take_append, List.length_map, List.take_of_length_le (by rw [List.length_map]; exact few),
    List.takeWhile_append_of_pos all, rest, List.append_nil]

theorem literal_item {item : Item} {behind : Bytes} (ends : item.Ends behind) :
    literal (item.written ++ behind) = item.decoded ++ literal behind := by
  cases item with
  | plain byte stands =>
      refine literal_plain (fun same => stands ?_) behind
      rw [same]
      decide
  | opened => exact literal_plain (by decide) behind
  | closed => exact literal_plain (by decide) behind
  | ending mark =>
      cases mark with
      | lf => exact literal_plain (by decide) behind
      | cr => exact literal_plain (by decide) behind
      | crlf =>
          exact (literal_plain (by decide) (0x0A :: behind)).trans
            (congrArg _ (literal_plain (by decide) behind))
  | escaped byte stands =>
      obtain ⟨other, apart⟩ := stands
      change literal (0x5C :: byte :: behind) = (simple byte).getD byte :: literal behind
      rw [literal_escape]
      cases simple byte with
      | some value => rfl
      | none =>
          simp only [List.mem_cons, List.not_mem_nil, or_false] at apart
          rw [List.take_succ_cons, List.takeWhile_cons_of_neg (by rw [other]; decide),
            if_neg (by tauto : ¬(byte = 0x0D ∨ byte = 0x0A)), ite_self]
          rfl
  | octal first more few =>
      obtain ⟨notSimple, isDigit, -, firstValue⟩ := octalDigit_facts first
      have digits : ((octalDigit first :: (more.map octalDigit ++ behind)).take 3).takeWhile isOctal =
          octalDigit first :: more.map octalDigit :=
        @takeWhile_octal (first :: more) (Nat.succ_le_succ few) _
          (fun short => ends (Nat.lt_of_succ_lt_succ short))
      have value : octalValue (octalDigit first :: more.map octalDigit) =
          more.foldl (fun value digit => value * 8 + digit.val) first.val := by
        rw [octalValue, List.foldl_cons, List.foldl_map, Nat.zero_mul, Nat.zero_add, firstValue]
        simp only [octalDigit_facts]
      change literal (0x5C :: octalDigit first :: (more.map octalDigit ++ behind)) = _
      rw [literal_escape, notSimple]
      simp only [isDigit, if_true, digits, value, List.drop_left]
      rw [show 0xFF = 2 ^ 8 - 1 from rfl, Nat.and_two_pow_sub_one_eq_mod]
      rfl
  | continued mark =>
      cases mark with
      | lf => exact literal_escape 0x0A behind
      | cr => exact literal_escape 0x0D behind
      | crlf =>
          exact (literal_escape 0x0D (0x0A :: behind)).trans (literal_plain (by decide) behind)

theorem literal_written {items : List Item} (apart : Apart items) :
    literal (written items) = items.flatMap Item.decoded := by
  induction items with
  | nil => exact literal.eq_def []
  | cons item items induction =>
      have parts : written (item :: items) = item.written ++ written items := List.flatMap_cons
      rw [parts, literal_item apart.1, induction apart.2, List.flatMap_cons]

theorem length_value_le (item : Item) : item.value.length ≤ item.decoded.length := by
  cases item with
  | ending mark => cases mark <;> decide
  | continued mark => cases mark <;> decide
  | _ => exact le_rfl

theorem decoded_eq_value_iff (item : Item) :
    item.decoded = item.value ↔ item.keepsReturn = false := by
  cases item with
  | ending mark => cases mark <;> decide
  | continued mark => cases mark <;> decide
  | _ => exact iff_of_true rfl rfl

private theorem flatMap_decoded_eq_iff (items : List Item) :
    items.flatMap Item.decoded = value items ↔ ∀ item ∈ items, item.keepsReturn = false := by
  have longer : ∀ items : List Item, (value items).length ≤ (items.flatMap Item.decoded).length := by
    intro items
    rw [value, List.length_flatMap, List.length_flatMap]
    exact List.sum_le_sum fun item _ => length_value_le item
  induction items with
  | nil => exact iff_of_true rfl nofun
  | cons item items induction =>
      have parts : value (item :: items) = item.value ++ value items := List.flatMap_cons
      rw [List.forall_mem_cons, List.flatMap_cons, parts]
      refine Iff.trans ?_ (and_congr (decoded_eq_value_iff item) induction)
      constructor
      · intro same
        have lengths := congrArg List.length same
        rw [List.length_append, List.length_append] at lengths
        have first := length_value_le item
        have rest := longer items
        exact List.append_inj same (by omega)
      · rintro ⟨first, rest⟩
        rw [first, rest]

/-- A string is found as it is written and comes out as the bytes it stands for if and only if it is
not too long and no end of a line in it is a return, other than a return alone behind a backslash. -/
theorem literal_balanced_iff {items : List Item} (closes : Closes 0 items) (apart : Apart items)
    (front behind : Bytes) (limit : Nat) :
    (balanced (front ++ (written items ++ 0x29 :: behind)) front.length limit = written items ∧
        literal (balanced (front ++ (written items ++ 0x29 :: behind)) front.length limit) =
          value items) ↔
      (written items).length ≤ limit ∧ ∀ item ∈ items, item.keepsReturn = false := by
  rw [← balanced_eq_iff closes front behind limit, ← flatMap_decoded_eq_iff, ← literal_written apart]
  refine and_congr_right fun found => ?_
  rw [found]

private theorem escaped_n : IsEscaped 0x6E := by
  rw [IsEscaped]
  decide

/-- A line feed in parentheses, a line end that is passed over, and a letter by its number. -/
def lettered : List Item :=
  [.opened, .escaped 0x6E escaped_n, .closed, .continued .lf, .octal 1 [0, 1] le_rfl]

theorem lettered_found :
    balanced ([0x28] ++ (written lettered ++ 0x29 :: [])) 1 defaultLimit =
        [0x28, 0x5C, 0x6E, 0x29, 0x5C, 0x0A, 0x5C, 0x31, 0x30, 0x31] ∧
      literal (balanced ([0x28] ++ (written lettered ++ 0x29 :: [])) 1 defaultLimit) =
        [0x28, 0x0A, 0x29, 0x41] := by
  have closes : Closes 0 lettered := rfl
  have apart : Apart lettered :=
    ⟨trivial, trivial, trivial, trivial, fun short => absurd short (by decide), trivial⟩
  exact (literal_balanced_iff closes apart [0x28] [] defaultLimit).mpr
    ⟨by decide, by simp [lettered, Item.keepsReturn]⟩

private theorem plain_letters : IsPlain 0x61 ∧ IsPlain 0x62 := by
  rw [IsPlain, IsPlain]
  decide

/-- Two letters, with a return and a line feed between them that are to be passed over. -/
def parted : List Item :=
  [.plain 0x61 plain_letters.1, .continued .crlf, .plain 0x62 plain_letters.2]

/-- The line feed is kept. -/
theorem parted_kept : Closes 0 parted ∧ Apart parted ∧
    written parted = [0x61, 0x5C, 0x0D, 0x0A, 0x62] ∧ value parted = [0x61, 0x62] ∧
    literal (balanced ([0x28] ++ (written parted ++ 0x29 :: [])) 1 defaultLimit) =
      [0x61, 0x0A, 0x62] ∧
    literal (balanced ([0x28] ++ (written parted ++ 0x29 :: [])) 1 defaultLimit) ≠ value parted := by
  have closes : Closes 0 parted := rfl
  have apart : Apart parted := ⟨trivial, trivial, trivial, trivial⟩
  have found : balanced ([0x28] ++ (written parted ++ 0x29 :: [])) 1 defaultLimit =
      written parted := (balanced_eq_iff closes [0x28] [] defaultLimit).mpr (by decide)
  have kept : literal (written parted) = [0x61, 0x0A, 0x62] := literal_written apart
  rw [found, kept]
  exact ⟨closes, apart, rfl, rfl, rfl, by decide⟩

end PdfScan
end FileScan
end DomainLens
