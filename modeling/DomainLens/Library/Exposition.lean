import DomainLens.Python.Text
import Mathlib

/-!
# The text format of metrics

A text of samples, one a line: a name, labels with quoted values, and a number.  The file has a reader of
the format and the rules by which it reads what was written.
-/

namespace DomainLens
namespace Exposition

/-! ## The format -/

/-- A value of a metric under its labels. -/
structure Sample where
  name : List Char
  labels : List (List Char × List Char)
  value : ℚ
deriving DecidableEq

def isBlank (char : Char) : Bool := char = ' ' || char = '\t'

def isLabelChar (char : Char) : Bool := char.isAlphanum || char = '_'

def isNameChar (char : Char) : Bool := isLabelChar char || char = ':'

/-- A text of the characters that does not start with a digit. -/
def isWord (allowed : Char → Bool) (text : List Char) : Bool :=
  text.head?.any (fun char => !char.isDigit) && text.all allowed

/-- A character of a label as it is written. -/
def escape (char : Char) : List Char :=
  if char = '\\' then ['\\', '\\']
  else if char = '\n' then ['\\', 'n']
  else if char = '"' then ['\\', '"']
  else [char]

/-- The character that stands behind a backslash. -/
def unescape (char : Char) : Option Char :=
  if char = '\\' then some '\\'
  else if char = 'n' then some '\n'
  else if char = '"' then some '"'
  else none

/-- A text without the blanks it starts with. -/
def skip (text : List Char) : List Char := text.dropWhile isBlank

def expect (char : Char) (text : List Char) : Option (List Char) :=
  if text.head? = some char then some text.tail else none

/-- A quoted value up to its quotation mark, and what follows. -/
def readValue : List Char → Option (List Char × List Char)
  | [] => none
  | char :: rest =>
      if char = '"' then some ([], rest)
      else if char = '\\' then
        match rest with
        | [] => none
        | mark :: rest => (unescape mark).bind fun char =>
            (readValue rest).map fun read => (char :: read.1, read.2)
      else (readValue rest).map fun read => (char :: read.1, read.2)

def readLabel (text : List Char) : Option ((List Char × List Char) × List Char) :=
  let name := text.takeWhile isLabelChar
  if isWord isLabelChar name then do
    let rest ← expect '=' (skip (text.dropWhile isLabelChar))
    let rest ← expect '"' (skip rest)
    let value ← readValue rest
    return ((name, value.1), skip value.2)
  else none

/-- Labels up to the closing brace, of which there are fewer than characters. -/
def readLabels : ℕ → List Char → Option (List (List Char × List Char) × List Char)
  | 0, _ => none
  | most + 1, text =>
      match expect '\x7d' (skip text) with
      | some rest => some ([], rest)
      | none => (readLabel (skip text)).bind fun label =>
          match expect ',' label.2 with
          | some rest => (readLabels most rest).map fun labels => (label.1 :: labels.1, labels.2)
          | none => (expect '\x7d' label.2).map fun rest => ([label.1], rest)

/-- The digits of a number without its sign, and what follows. -/
def digitsOf (text : List Char) : List Char × List Char :=
  (text.takeWhile Char.isDigit, text.dropWhile Char.isDigit)

/-- A number that may have a sign, as the factor the sign is and what follows. -/
def signOf (text : List Char) : ℤ × List Char :=
  if text.head? = some '-' then (-1, text.tail)
  else if text.head? = some '+' then (1, text.tail)
  else (1, text)

def readExponent (text : List Char) : Option ℤ :=
  if text = [] then some 0
  else if text.head? = some 'e' ∨ text.head? = some 'E' then
    let (sign, digits) := signOf text.tail
    if digits ≠ [] ∧ digits.all Char.isDigit then some (sign * Nat.ofDigitChars 10 digits 0) else none
  else none

def readNumber (text : List Char) : Option ℚ :=
  let (sign, body) := signOf text
  let (whole, rest) := digitsOf body
  let (fraction, rest) := ((expect '.' rest).map digitsOf).getD ([], rest)
  if whole ++ fraction = [] then none
  else (readExponent rest).map fun exponent =>
    sign * Nat.ofDigitChars 10 (whole ++ fraction) 0 * (10 : ℚ) ^ (exponent - fraction.length : ℤ)

def readSample (line : List Char) : Option Sample := do
  let line := skip line
  let name := line.takeWhile isNameChar
  let rest := skip (line.dropWhile isNameChar)
  let labels ← ((expect '\x7b' rest).map fun inner => readLabels inner.length inner).getD (some ([], rest))
  let number := skip labels.2
  if isWord isNameChar name ∧ skip (number.dropWhile fun char => !isBlank char) = [] then
    (readNumber (number.takeWhile fun char => !isBlank char)).map fun value =>
      { name, labels := labels.1, value }
  else none

/-- A line that is not empty and no comment. -/
def isSample (line : List Char) : Bool := (skip line).head?.any (· ≠ '#')

/-- The samples of a text, of which each line has an end. -/
def readText (text : List Char) : Option (List Sample) :=
  if text.getLast? = some '\n' then ((text.splitOn '\n').filter isSample).mapM readSample else none

/-! ## Reading what was written -/

private theorem skip_cons {char : Char} (solid : isBlank char = false) (text : List Char) :
    skip (char :: text) = char :: text := by
  rw [skip, List.dropWhile_cons_of_neg (by rw [solid]; decide)]

private theorem expect_cons (char : Char) (text : List Char) : expect char (char :: text) = some text := by
  rw [expect, List.head?_cons, if_pos rfl, List.tail_cons]

private theorem expect_cons_of_ne {char other : Char} (apart : other ≠ char) (text : List Char) :
    expect char (other :: text) = none := by
  rw [expect, List.head?_cons, if_neg fun same => apart (Option.some.inj same)]

private theorem readValue_quote (rest : List Char) : readValue ('"' :: rest) = some ([], rest) := by
  rw [readValue.eq_def]
  exact if_pos rfl

private theorem readValue_backslash (mark : Char) (rest : List Char) :
    readValue ('\\' :: mark :: rest) = (unescape mark).bind fun char =>
      (readValue rest).map fun read => (char :: read.1, read.2) := by
  rw [readValue.eq_def]
  rfl

private theorem readValue_plain {char : Char} (noQuote : char ≠ '"') (noBackslash : char ≠ '\\')
    (rest : List Char) :
    readValue (char :: rest) = (readValue rest).map fun read => (char :: read.1, read.2) := by
  rw [readValue.eq_def]
  exact (if_neg noQuote).trans (if_neg noBackslash)

theorem readValue_escape (value rest : List Char) :
    readValue (value.flatMap escape ++ '"' :: rest) = some (value, rest) := by
  induction value with
  | nil => exact readValue_quote rest
  | cons char value induction =>
      rw [List.flatMap_cons, List.append_assoc, escape]
      split_ifs with isBackslash isBreak isQuote
      · subst isBackslash
        rw [List.cons_append, List.singleton_append, readValue_backslash, induction]
        rfl
      · subst isBreak
        rw [List.cons_append, List.singleton_append, readValue_backslash, induction]
        rfl
      · subst isQuote
        rw [List.cons_append, List.singleton_append, readValue_backslash, induction]
        rfl
      · rw [List.singleton_append, readValue_plain isQuote isBackslash, induction]
        rfl

private theorem takeWhile_append_cons {allowed : Char → Bool} {word : List Char}
    (every : word.all allowed = true) {stop : Char} (stops : allowed stop = false) (rest : List Char) :
    (word ++ stop :: rest).takeWhile allowed = word := by
  rw [List.takeWhile_append_of_pos fun char member => List.all_eq_true.mp every char member,
    List.takeWhile_cons_of_neg (by rw [stops]; decide), List.append_nil]

private theorem dropWhile_append_cons {allowed : Char → Bool} {word : List Char}
    (every : word.all allowed = true) {stop : Char} (stops : allowed stop = false) (rest : List Char) :
    (word ++ stop :: rest).dropWhile allowed = stop :: rest := by
  rw [List.dropWhile_append_of_pos fun char member => List.all_eq_true.mp every char member,
    List.dropWhile_cons_of_neg (by rw [stops]; decide)]

def writtenLabel (label : List Char × List Char) : List Char :=
  label.1 ++ '=' :: '"' :: (label.2.flatMap escape ++ ['"'])

private theorem readLabel_written {label : List Char × List Char} (valid : isWord isLabelChar label.1 = true)
    {next : Char} (solid : isBlank next = false) (rest : List Char) :
    readLabel (writtenLabel label ++ next :: rest) = some (label, next :: rest) := by
  have every := (Bool.and_eq_true_iff.mp valid).2
  have text : writtenLabel label ++ next :: rest =
      label.1 ++ '=' :: '"' :: (label.2.flatMap escape ++ '"' :: next :: rest) := by
    simp [writtenLabel]
  rw [readLabel, text, takeWhile_append_cons every (by decide), dropWhile_append_cons every (by decide),
    if_pos valid, skip_cons (by decide), expect_cons]
  simp only [Option.bind_eq_bind, Option.bind_some]
  rw [skip_cons (by decide), expect_cons, Option.bind_some, readValue_escape, Option.bind_some,
    skip_cons solid]
  rfl

private theorem head_written {label : List Char × List Char} (valid : isWord isLabelChar label.1 = true)
    (rest : List Char) :
    ∃ char text, writtenLabel label ++ rest = char :: text ∧ isLabelChar char = true := by
  obtain ⟨first, every⟩ := Bool.and_eq_true_iff.mp valid
  cases word : label.1 with
  | nil =>
      rw [word] at first
      cases first
  | cons char text =>
      rw [word] at every
      have isChar := List.all_eq_true.mp every char List.mem_cons_self
      exact ⟨char, _, by rw [writtenLabel, word, List.cons_append, List.cons_append], isChar⟩

theorem isBlank_eq_false {allowed : Char → Bool} (noBlank : allowed ' ' = false ∧ allowed '\t' = false)
    {char : Char} (valid : allowed char = true) : isBlank char = false := by
  rw [isBlank, Bool.or_eq_false_iff, decide_eq_false_iff_not, decide_eq_false_iff_not]
  constructor
  · rintro rfl
    exact absurd valid (Bool.eq_false_iff.mp noBlank.1)
  · rintro rfl
    exact absurd valid (Bool.eq_false_iff.mp noBlank.2)

private theorem solid_of_isNameChar {char : Char} (valid : isNameChar char = true) :
    isBlank char = false :=
  isBlank_eq_false (by decide) valid

private theorem solid_of_isLabelChar {char : Char} (valid : isLabelChar char = true) :
    isBlank char = false ∧ char ≠ '\x7d' := by
  refine ⟨solid_of_isNameChar (by rw [isNameChar, valid]; rfl), ?_⟩
  rintro rfl
  exact absurd valid (by decide)

private theorem readLabels_label {label : List Char × List Char} (valid : isWord isLabelChar label.1 = true)
    {next : Char} (solid : isBlank next = false) (most : ℕ) (rest : List Char) :
    readLabels (most + 1) (writtenLabel label ++ next :: rest) =
      match expect ',' (next :: rest) with
      | some rest => (readLabels most rest).map fun labels => (label :: labels.1, labels.2)
      | none => (expect '\x7d' (next :: rest)).map fun rest => ([label], rest) := by
  obtain ⟨char, text, written, isChar⟩ := head_written valid (next :: rest)
  obtain ⟨isSolid, noBrace⟩ := solid_of_isLabelChar isChar
  rw [readLabels, written, skip_cons isSolid, expect_cons_of_ne noBrace, ← written,
    readLabel_written valid solid]
  rfl

theorem readLabels_written {labels : List (List Char × List Char)} (some : labels ≠ [])
    (valid : ∀ label ∈ labels, isWord isLabelChar label.1 = true) {most : ℕ} (room : labels.length ≤ most)
    (rest : List Char) :
    readLabels most ([','].intercalate (labels.map writtenLabel) ++ '\x7d' :: rest) =
      .some (labels, rest) := by
  induction labels generalizing most with
  | nil => exact absurd rfl some
  | cons label labels induction =>
      cases most with
      | zero => cases room
      | succ most =>
          have isValid := valid label List.mem_cons_self
          cases labels with
          | nil =>
              rw [List.map_cons, List.map_nil, List.intercalate_singleton,
                readLabels_label isValid (by decide), expect_cons_of_ne (by decide), expect_cons]
              rfl
          | cons next labels =>
              have more := induction (List.cons_ne_nil next labels)
                (fun label member => valid label (List.mem_cons_of_mem _ member))
                (Nat.le_of_succ_le_succ room)
              rw [List.map_cons] at more
              rw [List.map_cons, List.map_cons, List.intercalate_cons_cons, List.append_assoc,
                List.append_assoc, List.singleton_append, readLabels_label isValid (by decide), expect_cons]
              exact (congrArg (Option.map _) more).trans rfl

/-! ### Numbers -/

private theorem digitsOf_append_cons {digits : List Char} (every : digits.all Char.isDigit = true)
    {stop : Char} (stops : stop.isDigit = false) (rest : List Char) :
    digitsOf (digits ++ stop :: rest) = (digits, stop :: rest) :=
  Prod.ext (takeWhile_append_cons every stops rest) (dropWhile_append_cons every stops rest)

private theorem digitsOf_self {digits : List Char} (every : digits.all Char.isDigit = true) :
    digitsOf digits = (digits, []) :=
  Prod.ext (List.takeWhile_eq_self_iff.mpr (List.all_eq_true.mp every))
    (List.dropWhile_eq_nil_iff.mpr (List.all_eq_true.mp every))

/-- The sign of a number that is written. -/
def writtenSign (negative : Bool) : List Char := if negative then ['-'] else []

def signFactor (negative : Bool) : ℤ := if negative then -1 else 1

private theorem signOf_written {first : Char} (digit : first.isDigit = true) (negative : Bool)
    (rest : List Char) :
    signOf (writtenSign negative ++ first :: rest) = (signFactor negative, first :: rest) := by
  cases negative with
  | true => rfl
  | false =>
      have noMinus : first ≠ '-' := by
        rintro rfl
        exact absurd digit (by decide)
      have noPlus : first ≠ '+' := by
        rintro rfl
        exact absurd digit (by decide)
      rw [writtenSign, if_neg Bool.false_ne_true, List.nil_append, signOf, List.head?_cons,
        if_neg fun same => noMinus (Option.some.inj same), if_neg fun same => noPlus (Option.some.inj same)]
      rfl

theorem readNumber_digits {digits : List Char} (some : digits ≠ []) (every : digits.all Char.isDigit = true)
    (negative : Bool) :
    readNumber (writtenSign negative ++ digits) =
      .some (signFactor negative * Nat.ofDigitChars 10 digits 0) := by
  obtain ⟨first, rest, rfl⟩ := List.exists_cons_of_ne_nil some
  have digit := List.all_eq_true.mp every first List.mem_cons_self
  rw [readNumber, signOf_written digit]
  simp only [digitsOf_self every]
  simp [expect, readExponent]

private theorem readExponent_written {exponent : List Char} (some : exponent ≠ [])
    (digits : exponent.all Char.isDigit = true) :
    readExponent ('e' :: '+' :: exponent) = .some (Nat.ofDigitChars 10 exponent 0) := by
  have signed : signOf ('+' :: exponent) = (1, exponent) := rfl
  rw [readExponent, if_neg (List.cons_ne_nil _ _), if_pos (.inl rfl), List.tail_cons, signed]
  simp only [if_pos (And.intro some digits), one_mul]

theorem readNumber_scientific {first : Char} {fraction exponent : List Char} (digit : first.isDigit = true)
    (every : fraction.all Char.isDigit = true) (some : exponent ≠ [])
    (digits : exponent.all Char.isDigit = true) (negative : Bool) :
    readNumber (writtenSign negative ++ first ::
        ((if fraction = [] then [] else '.' :: fraction) ++ 'e' :: '+' :: exponent)) =
      .some (signFactor negative * Nat.ofDigitChars 10 (first :: fraction) 0 *
        10 ^ (Nat.ofDigitChars 10 exponent 0 - fraction.length : ℤ)) := by
  have one : [first].all Char.isDigit = true := by simp [digit]
  have whole : ∀ {stop : Char}, stop.isDigit = false → ∀ rest,
      digitsOf (first :: stop :: rest) = ([first], stop :: rest) := fun stops rest =>
    digitsOf_append_cons one stops rest
  rw [readNumber, signOf_written digit]
  by_cases isWhole : fraction = []
  · rw [if_pos isWhole, List.nil_append, isWhole]
    simp only [@whole 'e' (by decide), @expect_cons_of_ne '.' 'e' (by decide), Option.map_none,
      Option.getD_none, readExponent_written some digits]
    simp
  · rw [if_neg isWhole, List.cons_append]
    simp only [@whole '.' (by decide), expect_cons, Option.map_some, Option.getD_some,
      @digitsOf_append_cons fraction every 'e' (by decide), readExponent_written some digits]
    simp

/-! ### Samples -/

def writtenSample (name : List Char) (labels : List (List Char × List Char)) (number : List Char) :
    List Char :=
  name ++ ((if labels = [] then [] else
    '\x7b' :: ([','].intercalate (labels.map writtenLabel) ++ ['\x7d'])) ++ ' ' :: number)

private theorem length_le_intercalate (labels : List (List Char × List Char)) :
    labels.length ≤ ([','].intercalate (labels.map writtenLabel)).length := by
  induction labels with
  | nil => exact Nat.zero_le _
  | cons label labels induction =>
      cases labels with
      | nil =>
          rw [List.map_cons, List.map_nil, List.intercalate_singleton, writtenLabel, List.length_append,
            List.length_cons, List.length_cons, List.length_nil]
          omega
      | cons next labels =>
          rw [List.map_cons] at induction
          rw [List.map_cons, List.map_cons, List.intercalate_cons_cons, List.length_append,
            List.length_append, List.length_cons, List.length_singleton]
          omega

private theorem readSample_name {name : List Char} (isName : isWord isNameChar name = true) {first : Char}
    (stops : isNameChar first = false) (rest : List Char) :
    readSample (name ++ first :: rest) =
      (((expect '\x7b' (skip (first :: rest))).map fun inner => readLabels inner.length inner).getD
        (some ([], skip (first :: rest)))).bind fun labels =>
          if skip ((skip labels.2).dropWhile fun char => !isBlank char) = [] then
            (readNumber ((skip labels.2).takeWhile fun char => !isBlank char)).map fun value =>
              { name, labels := labels.1, value }
          else none := by
  obtain ⟨head, every⟩ := Bool.and_eq_true_iff.mp isName
  have start : skip (name ++ first :: rest) = name ++ first :: rest := by
    cases name with
    | nil => cases head
    | cons char name =>
        exact skip_cons (solid_of_isNameChar (List.all_eq_true.mp every char List.mem_cons_self)) _
  rw [readSample, start]
  simp only [takeWhile_append_cons every stops, dropWhile_append_cons every stops, isName, true_and]
  rfl

private theorem readSample_number {number : List Char} (nonempty : number ≠ [])
    (solid : ∀ char ∈ number, isBlank char = false) :
    skip (' ' :: number) = number ∧ skip number = number ∧
      number.takeWhile (fun char => !isBlank char) = number ∧
      skip (number.dropWhile fun char => !isBlank char) = [] := by
  obtain ⟨first, rest, rfl⟩ := List.exists_cons_of_ne_nil nonempty
  have start := skip_cons (solid first List.mem_cons_self) rest
  have noBlank : ∀ char ∈ first :: rest, (!isBlank char) = true := fun char member => by
    rw [solid char member]
    rfl
  refine ⟨start, start, List.takeWhile_eq_self_iff.mpr noBlank, ?_⟩
  rw [List.dropWhile_eq_nil_iff.mpr noBlank]
  rfl

theorem readSample_written {name : List Char} {labels : List (List Char × List Char)} {number : List Char}
    {value : ℚ} (isName : isWord isNameChar name = true)
    (valid : ∀ label ∈ labels, isWord isLabelChar label.1 = true) (nonempty : number ≠ [])
    (solid : ∀ char ∈ number, isBlank char = false) (noBrace : '\x7b' ∉ number)
    (reads : readNumber number = some value) :
    readSample (writtenSample name labels number) = some ⟨name, labels, value⟩ := by
  obtain ⟨start, again, token, ends⟩ := readSample_number nonempty solid
  by_cases bare : labels = []
  · have noLabels : expect '\x7b' number = none :=
      if_neg fun same => noBrace (List.mem_of_head? same)
    rw [writtenSample, if_pos bare, List.nil_append, readSample_name isName (by decide), start, noLabels,
      Option.map_none, Option.getD_none, Option.bind_some, again, token, if_pos ends, reads, bare]
    rfl
  · rw [writtenSample, if_neg bare, List.cons_append, readSample_name isName (by decide),
      skip_cons (by decide), expect_cons, Option.map_some, Option.getD_some, List.append_assoc,
      List.singleton_append, readLabels_written bare valid]
    · rw [Option.bind_some]
      simp only [start, token, if_pos ends, reads]
      rfl
    · rw [List.length_append]
      exact (length_le_intercalate labels).trans (Nat.le_add_right _ _)

/-! ### Texts -/

theorem isSample_written {name : List Char} (isName : isWord isNameChar name = true)
    (labels : List (List Char × List Char)) (number : List Char) :
    isSample (writtenSample name labels number) = true := by
  obtain ⟨head, every⟩ := Bool.and_eq_true_iff.mp isName
  cases name with
  | nil => cases head
  | cons char name =>
      have isChar := List.all_eq_true.mp every char List.mem_cons_self
      rw [isSample, writtenSample, List.cons_append, skip_cons (solid_of_isNameChar isChar), List.head?_cons,
        Option.any_some, decide_eq_true_eq]
      rintro rfl
      exact absurd isChar (by decide)

theorem break_not_mem_word {allowed : Char → Bool} (stops : allowed '\n' = false) {word : List Char}
    (valid : isWord allowed word = true) : '\n' ∉ word := by
  intro member
  have isChar := List.all_eq_true.mp (Bool.and_eq_true_iff.mp valid).2 _ member
  rw [stops] at isChar
  cases isChar

private theorem break_not_mem_escape (char : Char) : '\n' ∉ escape char := by
  rw [escape]
  split_ifs with isBackslash isBreak isQuote
  · decide
  · decide
  · decide
  · exact fun member => isBreak (List.mem_singleton.mp member).symm

private theorem break_not_mem_label {label : List Char × List Char}
    (valid : isWord isLabelChar label.1 = true) : '\n' ∉ writtenLabel label := by
  intro member
  rcases List.mem_append.mp member with inName | inValue
  · exact break_not_mem_word (by decide) valid inName
  · simp only [List.mem_cons, List.mem_append, List.mem_flatMap, List.not_mem_nil, or_false] at inValue
    rcases inValue with same | same | ⟨char, -, inside⟩ | same
    · exact absurd same (by decide)
    · exact absurd same (by decide)
    · exact break_not_mem_escape char inside
    · exact absurd same (by decide)

theorem break_not_mem_sample {name : List Char} {labels : List (List Char × List Char)} {number : List Char}
    (isName : isWord isNameChar name = true) (valid : ∀ label ∈ labels, isWord isLabelChar label.1 = true)
    (unbroken : '\n' ∉ number) : '\n' ∉ writtenSample name labels number := by
  have noLabel : '\n' ∉ [','].intercalate (labels.map writtenLabel) := by
    intro member
    rcases Python.mem_intercalate member with same | ⟨part, isPart, inside⟩
    · exact absurd same (by decide)
    · obtain ⟨label, isLabel, rfl⟩ := List.mem_map.mp isPart
      exact break_not_mem_label (valid label isLabel) inside
  intro member
  rcases List.mem_append.mp member with inName | rest
  · exact break_not_mem_word (by decide) isName inName
  · rcases List.mem_append.mp rest with inLabels | inNumber
    · split_ifs at inLabels
      · cases inLabels
      · simp only [List.mem_cons, List.mem_append, List.not_mem_nil, or_false] at inLabels
        rcases inLabels with same | inside | same
        · exact absurd same (by decide)
        · exact noLabel inside
        · exact absurd same (by decide)
    · rcases List.mem_cons.mp inNumber with same | inside
      · exact absurd same (by decide)
      · exact unbroken inside

private theorem intercalate_concat {lines : List (List Char)} (some : lines ≠ []) :
    ['\n'].intercalate lines ++ ['\n'] = ['\n'].intercalate (lines ++ [[]]) := by
  induction lines with
  | nil => exact absurd rfl some
  | cons line lines induction =>
      cases lines with
      | nil =>
          rw [List.singleton_append, List.intercalate_cons_cons, List.intercalate_singleton,
            List.intercalate_singleton, List.append_nil]
      | cons next lines =>
          have rest := induction (List.cons_ne_nil next lines)
          rw [List.cons_append] at rest
          rw [List.cons_append, List.cons_append, List.intercalate_cons_cons, List.intercalate_cons_cons,
            List.append_assoc, rest]

theorem readText_lines {lines : List (List Char)} (some : lines ≠ [])
    (unbroken : ∀ line ∈ lines, '\n' ∉ line) :
    readText (['\n'].intercalate lines ++ ['\n']) = (lines.filter isSample).mapM readSample := by
  have split : (['\n'].intercalate (lines ++ [[]])).splitOn '\n' = lines ++ [[]] := by
    refine List.splitOn_intercalate '\n' (fun line member => ?_) (by simp)
    rcases List.mem_append.mp member with isLine | last
    · exact unbroken line isLine
    · rw [List.mem_singleton.mp last]
      exact List.not_mem_nil
  rw [readText, if_pos (List.getLast?_concat), intercalate_concat some, split, List.filter_append]
  exact congrArg (List.mapM readSample) (List.append_nil _)

end Exposition
end DomainLens
