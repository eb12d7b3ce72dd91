import DomainLens.SecurityTxt.Published

/-!
# Signed files

A cleartext signature is put around a file, and what is read of the signed file is compared with what
is read of the file.  The headers of the signature are read as fields, and what is escaped is not read.
-/

namespace DomainLens
namespace SecurityTxt

open Python

/-! ## Cleartext signatures -/

def beginMessage : Text := "-----BEGIN PGP SIGNED MESSAGE-----".toList

/-- A cleartext signature: the values of its `Hash` headers, the lines it escapes although they begin with no dash,
the lines of its armour, and whether its lines end in a carriage return and a newline. -/
structure Signature where
  hashes : List Text
  chosen : ℕ → Bool
  armour : List Text
  carriage : Bool
  isHash : ∀ value ∈ hashes, IsValue value
  isArmour : ∀ line ∈ armour,
    (∀ char ∈ line, isLineBreak char = false) ∧ (strip line).head? ≠ some '-'

def Signature.ending (signature : Signature) : Text :=
  if signature.carriage then ['\r', '\n'] else ['\n']

/-- A line without the carriage return at its end. -/
def withoutReturn (line : Text) : Text := if line.getLast? = some '\r' then line.dropLast else line

/-- The lines of what stands between newlines; behind the last newline there is a line if it is not empty. -/
def linesOf : List Text → List Text
  | [] => []
  | [last] => if last = [] then [] else [last]
  | piece :: pieces => withoutReturn piece :: linesOf pieces

def textLines (body : Text) : List Text := linesOf (body.splitOn '\n')

/-- A line is escaped if it begins with a dash, or by choice. -/
def IsEscaped (chosen : ℕ → Bool) (number : ℕ) (line : Text) : Prop :=
  line.head? = some '-' ∨ chosen number = true

instance (chosen : ℕ → Bool) (number : ℕ) (line : Text) : Decidable (IsEscaped chosen number line) :=
  inferInstanceAs (Decidable (_ ∨ _))

/-- A dash and a space in front of a line. -/
def dashed (line : Text) : Text := '-' :: ' ' :: line

def escapeLine (chosen : ℕ → Bool) (number : ℕ) (line : Text) : Text :=
  if IsEscaped chosen number line then dashed line else line

def signedLines (signature : Signature) (body : Text) : List Text :=
  (beginMessage :: signature.hashes.map fun value => lineText ("Hash".toList, value)) ++
    ([] :: ((textLines body).mapIdx (escapeLine signature.chosen) ++
      (beginSignature :: (signature.armour ++ [endSignature]))))

def signed (signature : Signature) (body : Text) : Text :=
  (signedLines signature body).flatMap (· ++ signature.ending)

def SameFields (left right : Text) : Prop :=
  ∀ name, (parseSecurityTxt left).lookup name = (parseSecurityTxt right).lookup name

/-- A signature has no `Hash` header, and escapes no line that is a field or a mark, or becomes one. -/
structure Undisturbed (signature : Signature) (body : Text) : Prop where
  headers : signature.hashes = []
  lines : ∀ number line, (textLines body)[number]? = some line → IsEscaped signature.chosen number line →
    ∀ first ∈ (splitLines line).head?, lineOf (strip (dashed first)) = lineOf (strip first)

/-! ## Lines that are read alike -/

/-- What is read of some lines is read of others. -/
def Alike (left right : List Text) : Prop :=
  ∀ inside, readings inside left = readings inside right ∧ openBehind inside left = openBehind inside right

theorem openBehind_append (inside : Bool) (front behind : List Text) :
    openBehind inside (front ++ behind) = openBehind (openBehind inside front) behind := by
  induction front generalizing inside with
  | nil => rfl
  | cons line front induction =>
      rw [List.cons_append, openBehind, openBehind]
      cases lineOf (strip line) with
      | opens => exact induction true
      | closes => exact induction false
      | nothing => exact induction inside
      | field name value => exact induction inside

namespace Alike

theorem refl (lines : List Text) : Alike lines lines := fun _ => ⟨rfl, rfl⟩

theorem trans {first second third : List Text} (left : Alike first second) (right : Alike second third) :
    Alike first third := fun inside =>
  ⟨(left inside).1.trans (right inside).1, (left inside).2.trans (right inside).2⟩

theorem symm {left right : List Text} (alike : Alike left right) : Alike right left := fun inside =>
  ⟨(alike inside).1.symm, (alike inside).2.symm⟩

theorem append {front front' behind behind' : List Text} (before : Alike front front')
    (after : Alike behind behind') : Alike (front ++ behind) (front' ++ behind') := by
  intro inside
  obtain ⟨same, state⟩ := before inside
  rw [readings_append, readings_append, openBehind_append, openBehind_append, same, state]
  exact ⟨congrArg _ (after _).1, (after _).2⟩

theorem cons {line other : Text} (same : lineOf (strip line) = lineOf (strip other)) (lines : List Text) :
    Alike (line :: lines) (other :: lines) := by
  intro inside
  rw [readings, readings, openBehind, openBehind, same]
  exact ⟨rfl, rfl⟩

theorem append_blank (lines : List Text) : Alike (lines ++ [[]]) lines := by
  have blank : Alike [[]] [] := fun inside => ⟨rfl, rfl⟩
  have same := (refl lines).append blank
  rwa [List.append_nil] at same

end Alike

private theorem splitLinesFrom_append_break {mark : Char} (breaks : isLineBreak mark = true)
    (text word : Text) : splitLinesFrom word (text ++ [mark]) = splitLinesFrom word text ∨
      splitLinesFrom word (text ++ [mark]) = splitLinesFrom word text ++ [[]] := by
  have closed : ∀ word : Text, splitLinesFrom word [mark] = [word.reverse] := by
    intro word
    have single : mark = '\r' → ([] : Text).head? ≠ some '\n' := fun _ =>
      (Option.some_ne_none '\n').symm
    rw [splitLinesFrom_cons single, if_pos breaks, splitLinesFrom, if_pos rfl]
  -- A character that no line feed follows is read alone, unless the mark is that line feed.
  have alone : ∀ (char : Char) (rest word : Text), (char = '\r' → rest.head? ≠ some '\n') →
      (char = '\r' ∧ rest = [] ∧ mark = '\n') ∨ splitLinesFrom word (char :: rest ++ [mark]) =
        if isLineBreak char then word.reverse :: splitLinesFrom [] (rest ++ [mark])
        else splitLinesFrom (char :: word) (rest ++ [mark]) := by
    intro char rest word single
    by_cases joined : char = '\r' ∧ rest = [] ∧ mark = '\n'
    · exact .inl joined
    · refine .inr (splitLinesFrom_cons (fun first => ?_) word)
      cases rest with
      | nil => exact fun isNext => joined ⟨first, rfl, Option.some.inj isNext⟩
      | cons next rest => exact single first
  have single : ∀ {char : Char} {rest : Text}, (∀ later, char = '\r' → rest = '\n' :: later → False) →
      char = '\r' → rest.head? ≠ some '\n' := by
    intro char rest notPair isReturn isFeed
    obtain ⟨later, same⟩ := List.head?_eq_some_iff.mp isFeed
    exact notPair later isReturn same
  fun_induction splitLinesFrom word text with
  | case1 => exact .inr (closed [])
  | case2 word filled => exact .inl (closed word)
  | case3 word rest induction =>
      simp only [List.cons_append, splitLinesFrom]
      exact induction.imp (congrArg _) (congrArg _)
  | case4 word char rest notPair isBreak induction =>
      rcases alone char rest word (single notPair) with ⟨rfl, rfl, rfl⟩ | same
      · exact .inl rfl
      · rw [same, if_pos isBreak]
        exact induction.imp (congrArg _) (congrArg _)
  | case5 word char rest notPair noBreak induction =>
      rcases alone char rest word (single notPair) with ⟨rfl, rfl, rfl⟩ | same
      · exact absurd (by decide) noBreak
      · rwa [same, if_neg noBreak]

/-- What ends a line behind a text ends its last line, or a line that is empty. -/
theorem splitLines_append_break {mark : Char} (breaks : isLineBreak mark = true) (text : Text) :
    splitLines (text ++ [mark]) = splitLines text ∨ splitLines (text ++ [mark]) = splitLines text ++ [[]] :=
  splitLinesFrom_append_break breaks text []

theorem alike_append_break {mark : Char} (breaks : isLineBreak mark = true) (text : Text) :
    Alike (splitLines (text ++ [mark])) (splitLines text) := by
  rcases splitLines_append_break breaks text with same | same
  · rw [same]
    exact .refl _
  · rw [same]
    exact .append_blank _

/-! ## The lines of a signed file -/

theorem alike_flatMap_ending (signature : Signature) (lines : List Text) :
    Alike (splitLines (lines.flatMap (· ++ signature.ending))) (lines.flatMap splitLines) := by
  have newline : isLineBreak '\n' = true := by decide
  have carriage : isLineBreak '\r' = true := by decide
  induction lines with
  | nil => exact .refl _
  | cons line lines induction =>
      rw [List.flatMap_cons, List.flatMap_cons, Signature.ending]
      rw [Signature.ending] at induction
      split_ifs at induction ⊢
      · have ended : line ++ ['\r', '\n'] = (line ++ ['\r']) ++ ['\n'] := by simp
        rw [ended, List.append_assoc _ ['\n'], List.singleton_append, splitLines_newline]
        exact ((alike_append_break newline _).trans (alike_append_break carriage _)).append induction
      · rw [List.append_assoc, List.singleton_append, splitLines_newline]
        exact (alike_append_break newline _).append induction

theorem alike_withoutReturn (line : Text) : Alike (splitLines line) (splitLines (withoutReturn line)) := by
  rw [withoutReturn]
  split_ifs with returns
  · have whole : line.dropLast ++ ['\r'] = line := List.dropLast_append_getLast? _ returns
    have carriage : isLineBreak '\r' = true := by decide
    have same := alike_append_break carriage line.dropLast
    rwa [whole] at same
  · exact .refl _

theorem alike_linesOf (pieces : List Text) :
    Alike (splitLines (['\n'].intercalate pieces)) ((linesOf pieces).flatMap splitLines) := by
  have newline : isLineBreak '\n' = true := by decide
  induction pieces with
  | nil => exact .refl _
  | cons piece pieces induction =>
      cases pieces with
      | nil =>
          rw [List.intercalate_singleton, linesOf]
          split_ifs with empty
          · rw [empty]
            exact .refl _
          · rw [List.flatMap_singleton]
            exact .refl _
      | cons next pieces =>
          rw [List.intercalate_cons_cons, List.append_assoc, List.singleton_append, splitLines_newline,
            linesOf, List.flatMap_cons]
          · exact ((alike_append_break newline piece).trans (alike_withoutReturn piece)).append induction
          · exact List.cons_ne_nil _ _

theorem alike_textLines (body : Text) :
    Alike (splitLines body) ((textLines body).flatMap splitLines) := by
  have same := alike_linesOf (body.splitOn '\n')
  rwa [List.intercalate_splitOn] at same

/-! ## Escaped lines -/

private theorem splitLinesFrom_front : ∀ text : Text, text ≠ [] →
    ∃ first others, (∀ word, splitLinesFrom word text = (word.reverse ++ first) :: others) ∧
      ∀ char ∈ text.head?, isLineBreak char = false → first.head? = some char
  | [], filled => absurd rfl filled
  | char :: rest, _ => by
      by_cases pair : char = '\r' ∧ rest.head? = some '\n'
      · obtain ⟨rfl, isNext⟩ := pair
        obtain ⟨later, rfl⟩ := List.head?_eq_some_iff.mp isNext
        refine ⟨[], splitLinesFrom [] later, fun word => by simp [splitLinesFrom], fun other isHead => ?_⟩
        obtain rfl := Option.some.inj isHead
        exact fun solid => absurd solid (by decide)
      · have single : char = '\r' → rest.head? ≠ some '\n' := fun first second => pair ⟨first, second⟩
        by_cases breaks : isLineBreak char = true
        · refine ⟨[], splitLinesFrom [] rest, fun word => ?_, fun other isHead => ?_⟩
          · rw [splitLinesFrom_cons single, if_pos breaks, List.append_nil]
          · obtain rfl := Option.some.inj isHead
            exact fun solid => absurd (solid.symm.trans breaks) (by decide)
        · have head : ∀ other ∈ (char :: rest).head?, isLineBreak other = false → some char = some other :=
            fun other isHead _ => isHead
          cases rest with
          | nil =>
              refine ⟨[char], [], fun word => ?_, head⟩
              rw [splitLinesFrom_cons single, if_neg breaks, splitLinesFrom, if_neg (List.cons_ne_nil _ _),
                List.reverse_cons]
          | cons next rest =>
              obtain ⟨first, others, split, -⟩ := splitLinesFrom_front (next :: rest) (List.cons_ne_nil _ _)
              refine ⟨char :: first, others, fun word => ?_, head⟩
              rw [splitLinesFrom_cons single, if_neg breaks, split, List.reverse_cons, List.append_assoc]
              rfl

/-- What is put in front of a line is put in front of what it is up to its first separator. -/
theorem splitLines_dashed {line : Text} (filled : line ≠ []) :
    ∃ first others, splitLines line = first :: others ∧
      splitLines (dashed line) = dashed first :: others ∧
      (line.head? = some '-' → first.head? = some '-') := by
  obtain ⟨first, others, split, head⟩ := splitLinesFrom_front line filled
  have solid : isLineBreak '-' = false ∧ isLineBreak ' ' = false := by decide
  refine ⟨first, others, split [], ?_, fun isDash => head '-' isDash solid.1⟩
  rw [splitLines, dashed, splitLinesFrom_cons fun returns => absurd returns (by decide),
    if_neg (by simp [solid.1]), splitLinesFrom_cons fun returns => absurd returns (by decide),
    if_neg (by simp [solid.2]), split]
  rfl

theorem alike_escaped {chosen : ℕ → Bool} {lines : List Text}
    (same : ∀ number line, lines[number]? = some line → IsEscaped chosen number line →
      ∀ first ∈ (splitLines line).head?, lineOf (strip (dashed first)) = lineOf (strip first)) :
    Alike ((lines.mapIdx (escapeLine chosen)).flatMap splitLines) (lines.flatMap splitLines) := by
  induction lines generalizing chosen with
  | nil => exact .refl _
  | cons line lines induction =>
      have later := @induction (fun number => chosen (number + 1)) fun number line isLine =>
        same (number + 1) line isLine
      rw [List.mapIdx_cons, List.flatMap_cons, List.flatMap_cons]
      refine Alike.append ?_ later
      rw [escapeLine]
      split_ifs with escapes
      · by_cases empty : line = []
        · rw [empty]
          exact fun inside => ⟨by cases inside <;> rfl, by cases inside <;> rfl⟩
        · obtain ⟨first, others, split, front, -⟩ := splitLines_dashed empty
          rw [split, front]
          exact .cons (same 0 line rfl escapes first (by rw [split]; rfl)) others
      · exact .refl _

/-! ## The wrapper -/

private theorem splitLines_unbroken {line : Text} (unbroken : ∀ char ∈ line, isLineBreak char = false) :
    splitLines line = if line = [] then [] else [line] := by
  split_ifs with empty
  · rw [empty]
    rfl
  · exact splitLines_single empty unbroken

private theorem closes_of_lineOf {stripped : Text} (closes : lineOf stripped = .closes) :
    stripped.head? = some '-' := by
  rw [lineOf] at closes
  split_ifs at closes with opening closing
  · obtain ⟨rest, rfl⟩ := closing
    rfl
  · split at closes <;> cases closes

theorem readings_armour {armour : List Text} (isArmour : ∀ line ∈ armour,
    (∀ char ∈ line, isLineBreak char = false) ∧ (strip line).head? ≠ some '-') :
    readings true ((armour ++ [endSignature]).flatMap splitLines) = [] := by
  induction armour with
  | nil => decide +kernel
  | cons line armour induction =>
      obtain ⟨unbroken, noDash⟩ := isArmour line List.mem_cons_self
      have rest := induction fun other member => isArmour other (List.mem_cons_of_mem _ member)
      rw [List.cons_append, List.flatMap_cons, splitLines_unbroken unbroken]
      split_ifs with empty
      · exact rest
      · rw [List.singleton_append, readings]
        split
        · exact rest
        · exact absurd (closes_of_lineOf ‹_›) noDash
        · exact rest
        · exact rest

theorem readings_hashes {hashes : List Text} (isHash : ∀ value ∈ hashes, IsValue value) :
    readings false ((hashes.map fun value => lineText ("Hash".toList, value)).flatMap splitLines) =
        hashes.map (("hash".toList, ·)) ∧
      openBehind false ((hashes.map fun value => lineText ("Hash".toList, value)).flatMap splitLines) =
        false := by
  have lowered : lower "Hash".toList = "hash".toList := by decide +kernel
  have plain : ("Hash: ".toList.all fun char => !isLineBreak char) = true := by decide
  induction hashes with
  | nil => exact ⟨rfl, rfl⟩
  | cons value hashes induction =>
      have isValue := isHash value List.mem_cons_self
      obtain ⟨later, state⟩ := induction fun other member => isHash other (List.mem_cons_of_mem _ member)
      have unbroken : ∀ char ∈ lineText ("Hash".toList, value), isLineBreak char = false := by
        intro char member
        rcases List.mem_append.mp member with front | inside
        · simpa using List.all_eq_true.mp plain char front
        · exact isValue.unbroken char inside
      have isField : lineOf (strip (lineText ("Hash".toList, value))) = .field "hash".toList value := by
        have named : isName "Hash".toList = true := by decide
        rw [@lineOf_lineText ("Hash".toList, value) named isValue.filled isValue.stripped, lowered]
      rw [List.map_cons, List.flatMap_cons, splitLines_single (by simp [lineText]) unbroken,
        List.singleton_append, readings, openBehind, isField]
      exact ⟨congrArg _ later, state⟩

/-- Of a signed file the `Hash` headers are read and the lines as they are escaped. -/
theorem readings_signed (signature : Signature) (body : Text) :
    readings false (splitLines (signed signature body)) =
      signature.hashes.map (("hash".toList, ·)) ++
        readings false (((textLines body).mapIdx (escapeLine signature.chosen)).flatMap splitLines) := by
  have message : splitLines beginMessage = [beginMessage] ∧ lineOf (strip beginMessage) = .nothing := by
    decide +kernel
  have opens : splitLines beginSignature = [beginSignature] ∧
      lineOf (strip beginSignature) = .opens := by
    decide +kernel
  obtain ⟨hashes, state⟩ := readings_hashes signature.isHash
  have blank : splitLines [] = [] := rfl
  rw [signed, (alike_flatMap_ending signature _ false).1, signedLines, List.flatMap_append,
    List.flatMap_cons, List.flatMap_cons, List.flatMap_append, List.flatMap_cons, message.1, opens.1, blank,
    List.nil_append, List.singleton_append, List.singleton_append, List.cons_append, readings, message.2]
  dsimp only
  rw [readings_append, hashes, state, readings_append, readings, opens.2]
  dsimp only
  rw [readings_armour signature.isArmour, List.append_nil]

theorem parse_signed {signature : Signature} {body : Text} (undisturbed : Undisturbed signature body) :
    parseSecurityTxt (signed signature body) = parseSecurityTxt body := by
  have same := ((alike_escaped undisturbed.lines).trans (alike_textLines body).symm false).1
  rw [parseSecurityTxt_eq, parseSecurityTxt_eq, readings_signed, undisturbed.headers, same]
  rfl

/-! ## What is lost -/

def Unmarked (lines : List Text) : Prop :=
  ∀ line ∈ lines, lineOf (strip line) ≠ .opens ∧ lineOf (strip line) ≠ .closes

def fieldOf (line : Text) : Option (Text × Text) :=
  match lineOf (strip line) with
  | .field name value => some (name, value)
  | _ => none

theorem readings_of_unmarked {lines : List Text} (unmarked : Unmarked lines) :
    readings false lines = lines.filterMap fieldOf := by
  induction lines with
  | nil => rfl
  | cons line lines induction =>
      have later := induction fun other member => unmarked other (List.mem_cons_of_mem _ member)
      obtain ⟨noOpen, -⟩ := unmarked line List.mem_cons_self
      rw [readings, List.filterMap_cons, fieldOf]
      cases isLine : lineOf (strip line) with
      | opens => exact absurd isLine noOpen
      | closes => exact later
      | nothing => exact later
      | field name value => exact congrArg _ later

private theorem strip_of_dash {line : Text} (dash : line.head? = some '-') :
    ∃ rest, strip line = '-' :: rest ∧ strip (dashed line) = '-' :: ' ' :: '-' :: rest := by
  obtain ⟨rest, rfl⟩ := List.head?_eq_some_iff.mp dash
  have solid : isSpace '-' = false := by decide
  have start : ∀ text : Text, lstrip ('-' :: text) = '-' :: text := fun text =>
    List.dropWhile_cons_of_neg (by simp [solid])
  have plain : rstrip ('-' :: rest) = '-' :: rstrip rest := rstrip_append_cons solid [] rest
  have escaped : rstrip ('-' :: ' ' :: '-' :: rest) = '-' :: ' ' :: '-' :: rstrip rest :=
    rstrip_append_cons solid ['-', ' '] rest
  exact ⟨rstrip rest, by rw [strip, start, plain], by rw [strip, dashed, start, escaped]⟩

theorem lineOf_dashed {line : Text} (dash : line.head? = some '-') :
    lineOf (strip (dashed line)) = .nothing := by
  obtain ⟨rest, -, escaped⟩ := strip_of_dash dash
  have noBegin : ¬beginSignature <+: '-' :: ' ' :: '-' :: rest := fun starts =>
    absurd (List.cons_prefix_cons.mp (List.cons_prefix_cons.mp starts).2).1 (by decide)
  have noEnd : ¬endSignature <+: '-' :: ' ' :: '-' :: rest := fun starts =>
    absurd (List.cons_prefix_cons.mp (List.cons_prefix_cons.mp starts).2).1 (by decide)
  have noField : matchField ('-' :: ' ' :: '-' :: rest) = none := rfl
  rw [escaped, lineOf, if_neg noBegin, if_neg noEnd, if_neg (by simp), noField]

private theorem name_of_dash {line name value : Text} (dash : line.head? = some '-')
    (isField : lineOf (strip line) = .field name value) : name ≠ "hash".toList := by
  obtain ⟨rest, stripped, -⟩ := strip_of_dash dash
  have fixed : lowerChar '-' = ['-'] := by decide +kernel
  rw [stripped, lineOf] at isField
  split_ifs at isField
  split at isField
  · cases isField
  · rename_i found matched
    obtain ⟨rfl, -⟩ := Line.field.inj isField
    rw [matchField] at matched
    split at matched
    · dsimp only at matched
      split_ifs at matched
      obtain ⟨rfl, -⟩ := Prod.mk.inj (Option.some.inj matched)
      rw [List.takeWhile_cons_of_pos (by decide), lower, lowerFrom, lowerAt, if_neg (by decide), fixed]
      exact fun same => absurd (List.cons.inj same).1 (by decide)
    · cases matched

def fieldsOf (lines : List Text) : List (Text × Text) := (lines.flatMap splitLines).filterMap fieldOf

private theorem fieldsOf_cons (line : Text) (lines : List Text) :
    fieldsOf (line :: lines) = (splitLines line).filterMap fieldOf ++ fieldsOf lines := by
  rw [fieldsOf, List.flatMap_cons, List.filterMap_append]
  rfl

private theorem escapeLine_fields {chosen : ℕ → Bool} {number : ℕ} (unchosen : chosen number = false)
    (line : Text) :
    (((splitLines (escapeLine chosen number line)).filterMap fieldOf).filter (·.1 = "hash".toList) =
        ((splitLines line).filterMap fieldOf).filter (·.1 = "hash".toList)) ∧
      ((splitLines (escapeLine chosen number line)).filterMap fieldOf).length ≤
        ((splitLines line).filterMap fieldOf).length ∧
      (((splitLines (escapeLine chosen number line)).filterMap fieldOf).length =
          ((splitLines line).filterMap fieldOf).length →
        line.head? = some '-' → ∀ first ∈ (splitLines line).head?, fieldOf first = none) := by
  by_cases dash : line.head? = some '-'
  · have filled : line ≠ [] := by
      rintro rfl
      cases dash
    obtain ⟨first, others, split, front, head⟩ := splitLines_dashed filled
    have lost : fieldOf (dashed first) = none := by rw [fieldOf, lineOf_dashed (head dash)]
    rw [escapeLine, if_pos (.inl dash), front, split, List.filterMap_cons, List.filterMap_cons, lost]
    cases isField : fieldOf first with
    | none =>
        refine ⟨rfl, le_rfl, fun _ _ other isFirst => ?_⟩
        obtain rfl := Option.some.inj isFirst
        exact isField
    | some entry =>
        have other : entry.1 ≠ "hash".toList := by
          rw [fieldOf] at isField
          split at isField
          · rename_i name value isLine
            obtain rfl := Option.some.inj isField
            exact name_of_dash (head dash) isLine
          · cases isField
        dsimp only
        rw [List.filter_cons, decide_eq_false other, List.length_cons]
        exact ⟨rfl, Nat.le_succ _, fun same => absurd same (Nat.succ_ne_self _).symm⟩
  · have kept : ¬IsEscaped chosen number line := by
      rw [IsEscaped, unchosen]
      simp [dash]
    rw [escapeLine, if_neg kept]
    exact ⟨rfl, le_rfl, fun _ isDash => absurd isDash dash⟩

/-- Without escapes by choice no field `hash` is lost, and no field at all only if no escaped line is one. -/
theorem escaped_fields {chosen : ℕ → Bool} (unchosen : ∀ number, chosen number = false) (lines : List Text) :
    (fieldsOf (lines.mapIdx (escapeLine chosen))).filter (·.1 = "hash".toList) =
        (fieldsOf lines).filter (·.1 = "hash".toList) ∧
      (fieldsOf (lines.mapIdx (escapeLine chosen))).length ≤ (fieldsOf lines).length ∧
      ((fieldsOf (lines.mapIdx (escapeLine chosen))).length = (fieldsOf lines).length →
        ∀ line ∈ lines, line.head? = some '-' →
          ∀ first ∈ (splitLines line).head?, fieldOf first = none) := by
  induction lines generalizing chosen with
  | nil => exact ⟨rfl, le_rfl, fun _ line member => absurd member List.not_mem_nil⟩
  | cons line lines induction =>
      obtain ⟨here, hereShorter, hereLost⟩ := escapeLine_fields (unchosen 0) line
      obtain ⟨later, laterShorter, laterLost⟩ := @induction (fun number => chosen (number + 1))
        fun number => unchosen (number + 1)
      have next : (fun number => escapeLine chosen (number + 1)) =
          escapeLine fun number => chosen (number + 1) := rfl
      rw [List.mapIdx_cons, next, fieldsOf_cons, fieldsOf_cons, List.filter_append, List.filter_append,
        List.length_append, List.length_append, here, later]
      refine ⟨rfl, Nat.add_le_add hereShorter laterShorter, fun same other member => ?_⟩
      rcases List.mem_cons.mp member with rfl | member
      · exact hereLost (by omega)
      · exact laterLost (by omega) other member

private theorem length_of_values {left right : List (Text × Text)}
    (same : ∀ name, (left.filter (·.1 = name)).map Prod.snd = (right.filter (·.1 = name)).map Prod.snd) :
    left.length = right.length := by
  have counted : ∀ (entries : List (Text × Text)) (name : Text),
      (entries.map Prod.fst).count name = ((entries.filter (·.1 = name)).map Prod.snd).length := by
    intro entries name
    rw [List.count, List.countP_map, List.countP_eq_length_filter, List.length_map]
    congr 1
    exact List.filter_congr fun entry _ => by simp [beq_eq_decide]
  have perm : (left.map Prod.fst).Perm (right.map Prod.fst) :=
    List.perm_iff_count.mpr fun name => by rw [counted, counted, same]
  simpa using perm.length_eq

/-! ## The fields of a signed file -/

private theorem unmarked_append {front behind : List Text} :
    Unmarked (front ++ behind) ↔ Unmarked front ∧ Unmarked behind :=
  List.forall_mem_append

private theorem Unmarked.of_append_break {mark : Char} (breaks : isLineBreak mark = true) {text : Text}
    (unmarked : Unmarked (splitLines (text ++ [mark]))) : Unmarked (splitLines text) := by
  rcases splitLines_append_break breaks text with same | same
  · rwa [same] at unmarked
  · rw [same] at unmarked
    exact (unmarked_append.mp unmarked).1

private theorem Unmarked.withoutReturn {line : Text} (unmarked : Unmarked (splitLines line)) :
    Unmarked (splitLines (withoutReturn line)) := by
  rw [SecurityTxt.withoutReturn]
  split_ifs with returns
  · have whole : line.dropLast ++ ['\r'] = line := List.dropLast_append_getLast? _ returns
    have carriage : isLineBreak '\r' = true := by decide
    rw [← whole] at unmarked
    exact unmarked.of_append_break carriage
  · exact unmarked

private theorem unmarked_linesOf {pieces : List Text}
    (unmarked : Unmarked (splitLines (['\n'].intercalate pieces))) :
    Unmarked ((linesOf pieces).flatMap splitLines) := by
  have newline : isLineBreak '\n' = true := by decide
  induction pieces with
  | nil => exact fun line member => absurd member List.not_mem_nil
  | cons piece pieces induction =>
      cases pieces with
      | nil =>
          rw [List.intercalate_singleton] at unmarked
          rw [linesOf]
          split_ifs
          · exact fun line member => absurd member List.not_mem_nil
          · rwa [List.flatMap_singleton]
      | cons next pieces =>
          rw [List.intercalate_cons_cons, List.append_assoc, List.singleton_append, splitLines_newline,
            unmarked_append] at unmarked
          rw [linesOf, List.flatMap_cons, unmarked_append]
          · exact ⟨(unmarked.1.of_append_break newline).withoutReturn, induction unmarked.2⟩
          · exact List.cons_ne_nil _ _

private theorem unmarked_textLines {body : Text} (unmarked : Unmarked (splitLines body)) :
    Unmarked ((textLines body).flatMap splitLines) := by
  refine unmarked_linesOf ?_
  rwa [List.intercalate_splitOn]

private theorem unmarked_escaped {chosen : ℕ → Bool} (unchosen : ∀ number, chosen number = false)
    {lines : List Text} (unmarked : Unmarked (lines.flatMap splitLines)) :
    Unmarked ((lines.mapIdx (escapeLine chosen)).flatMap splitLines) := by
  induction lines generalizing chosen with
  | nil => exact unmarked
  | cons line lines induction =>
      rw [List.flatMap_cons, unmarked_append] at unmarked
      have later := @induction (fun number => chosen (number + 1)) (fun number => unchosen (number + 1))
        unmarked.2
      rw [List.mapIdx_cons, List.flatMap_cons, unmarked_append]
      refine ⟨?_, later⟩
      rw [escapeLine]
      split_ifs with escapes
      · have dash : line.head? = some '-' := escapes.resolve_right (by simp [unchosen])
        have filled : line ≠ [] := by
          rintro rfl
          cases dash
        obtain ⟨first, others, split, front, head⟩ := splitLines_dashed filled
        rw [split] at unmarked
        rw [front]
        refine List.forall_mem_cons.mpr ⟨?_, (List.forall_mem_cons.mp unmarked.1).2⟩
        rw [lineOf_dashed (head dash)]
        exact ⟨nofun, nofun⟩
      · exact unmarked.1

private def sampleSignature : Signature where
  hashes := ["SHA256".toList]
  chosen _ := false
  armour := ["Version: GnuPG v2".toList, [], "iHUEARYKAB0WIQ==".toList, "=njUN".toList]
  carriage := false
  isHash value member := by
    obtain rfl := List.mem_singleton.mp member
    have solid : ("SHA256".toList.all fun char => !isSpace char) = true := by decide
    exact isValue_of_solid (by decide) fun char member => by
      simpa using List.all_eq_true.mp solid char member
  isArmour := by
    have checked : (["Version: GnuPG v2".toList, [], "iHUEARYKAB0WIQ==".toList, "=njUN".toList].all fun line =>
        (line.all fun char => !isLineBreak char) && (strip line).head? ≠ some '-') = true := by decide
    intro line member
    have facts := List.all_eq_true.mp checked line member
    rw [Bool.and_eq_true, List.all_eq_true, decide_eq_true_eq] at facts
    exact ⟨fun char inside => by simpa using facts.1 char inside, facts.2⟩

end SecurityTxt
end DomainLens
