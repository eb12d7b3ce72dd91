import DomainLens.Library.OrderedDict
import DomainLens.Python.Ascii

/-!
# Reading security.txt

The lines of a file are fields, comments and the armour of a signature.  Every field keeps all its values, in
order.
-/

namespace DomainLens
namespace SecurityTxt

open Python

/-! ## Lines -/

/-- What `[A-Za-z-]` matches without regard to case. -/
def isFieldChar (char : Char) : Bool :=
  char.isAlpha || char = '-' || char ∈ ['İ', 'ı', 'ſ', 'K']

/-- `_SECURITYTXT_FIELD_RE.match`, on a line without white space at its ends. -/
def matchField (stripped : Text) : Option (Text × Text) :=
  let name := stripped.takeWhile isFieldChar
  match (stripped.dropWhile isFieldChar).dropWhile isSpace with
  | ':' :: rest =>
      let value := lstrip rest
      if name = [] ∨ value = [] then none else some (name, value)
  | _ => none

def beginSignature : Text := "-----BEGIN PGP SIGNATURE-----".toList

def endSignature : Text := "-----END PGP SIGNATURE-----".toList

inductive Line where
  | opens
  | closes
  | nothing
  | field (name value : Text)
deriving DecidableEq

/-- A line, by its text without the white space at its ends. -/
def lineOf (stripped : Text) : Line :=
  if beginSignature <+: stripped then .opens
  else if endSignature <+: stripped then .closes
  else if stripped = [] ∨ stripped.head? = some '#' then .nothing
  else
    match matchField stripped with
    | none => .nothing
    | some (name, value) => .field (lower name) value

/-! ## Fields -/

/-- The fields of a file, each with its values. -/
abbrev Fields := List (Text × List Text)

/-- `fields.setdefault(name, []).append(value)`. -/
def addField (fields : Fields) (entry : Text × Text) : Fields :=
  OrderedDict.assign entry.1 ((fields.lookup entry.1).getD [] ++ [entry.2]) fields

/-- The body of the loop: whether a signature is open, and the fields. -/
def readLine (state : Bool × Fields) (line : Text) : Bool × Fields :=
  match lineOf (strip line) with
  | .opens => (true, state.2)
  | .closes => (false, state.2)
  | .nothing => state
  | .field name value => if state.1 then state else (false, addField state.2 (name, value))

/-- `parse_security_txt`. -/
def parseSecurityTxt (body : Text) : Fields := ((splitLines body).foldl readLine (false, [])).2

/-- Fields from pairs of a name and a value. -/
def collect (entries : List (Text × Text)) : Fields := entries.foldl addField []

def Fields.values (fields : Fields) (name : Text) : List Text := (fields.lookup name).getD []

/-! ## What the lines hold -/

/-- Whether a signature is open behind some lines. -/
def openBehind : Bool → List Text → Bool
  | inside, [] => inside
  | inside, line :: lines =>
      match lineOf (strip line) with
      | .opens => openBehind true lines
      | .closes => openBehind false lines
      | .nothing | .field _ _ => openBehind inside lines

def readings : Bool → List Text → List (Text × Text)
  | _, [] => []
  | inside, line :: lines =>
      match lineOf (strip line) with
      | .opens => readings true lines
      | .closes => readings false lines
      | .nothing => readings inside lines
      | .field name value =>
          if inside then readings inside lines else (name, value) :: readings inside lines

private theorem foldl_readLine (lines : List Text) (inside : Bool) (fields : Fields) :
    (lines.foldl readLine (inside, fields)).2 = (readings inside lines).foldl addField fields := by
  induction lines generalizing inside fields with
  | nil => rfl
  | cons line lines induction =>
      rw [List.foldl_cons, readLine, readings]
      split
      · exact induction true fields
      · exact induction false fields
      · exact induction inside fields
      · cases inside with
        | true => exact induction true fields
        | false => exact induction false _

theorem parseSecurityTxt_eq (body : Text) :
    parseSecurityTxt body = collect (readings false (splitLines body)) :=
  foldl_readLine _ _ _

theorem readings_append (inside : Bool) (front behind : List Text) :
    readings inside (front ++ behind) =
      readings inside front ++ readings (openBehind inside front) behind := by
  induction front generalizing inside with
  | nil => rfl
  | cons line front induction =>
      rw [List.cons_append, readings, readings, openBehind]
      cases lineOf (strip line) with
      | opens => exact induction true
      | closes => exact induction false
      | nothing => exact induction inside
      | field name value =>
          cases inside with
          | true => exact induction true
          | false => exact congrArg _ (induction false)

private theorem lookup_foldl_addField (entries : List (Text × Text)) (fields : Fields) (name : Text) :
    (entries.foldl addField fields).values name =
      fields.values name ++ (entries.filter (·.1 = name)).map Prod.snd := by
  induction entries generalizing fields with
  | nil => exact (List.append_nil _).symm
  | cons entry entries induction =>
      have added : (addField fields entry).values name =
          if name = entry.1 then fields.values name ++ [entry.2] else fields.values name := by
        rw [Fields.values, addField, OrderedDict.lookup_assign]
        split_ifs with same
        · rw [same]
          rfl
        · rfl
      rw [List.foldl_cons, induction, added]
      by_cases same : entry.1 = name
      · rw [if_pos same.symm, List.filter_cons_of_pos (by simpa using same), List.append_assoc]
        rfl
      · rw [if_neg (Ne.symm same), List.filter_cons_of_neg (by simpa using same)]

theorem values_collect (entries : List (Text × Text)) (name : Text) :
    (collect entries).values name = (entries.filter (·.1 = name)).map Prod.snd :=
  lookup_foldl_addField entries [] name

/-! ## Lines of a text -/

theorem splitLinesFrom_cons {char : Char} {rest : Text}
    (other : char = '\r' → rest.head? ≠ some '\n') (word : Text) :
    splitLinesFrom word (char :: rest) =
      if isLineBreak char then word.reverse :: splitLinesFrom [] rest
      else splitLinesFrom (char :: word) rest := by
  rw [splitLinesFrom]
  rintro rest' rfl rfl
  exact other rfl rfl

private theorem splitLinesFrom_newline (behind : Text) : ∀ front word : Text,
    splitLinesFrom word (front ++ '\n' :: behind) =
      splitLinesFrom word (front ++ ['\n']) ++ splitLinesFrom [] behind
  | [], word => rfl
  | ['\r'], word => rfl
  | '\r' :: '\n' :: rest, word => by
      simp only [List.cons_append, splitLinesFrom, splitLinesFrom_newline behind rest []]
  | char :: next :: rest, word => by
      by_cases pair : char = '\r' ∧ next = '\n'
      · obtain ⟨rfl, rfl⟩ := pair
        simp only [List.cons_append, splitLinesFrom, splitLinesFrom_newline behind rest []]
      · have other : ∀ tail : Text, char = '\r' → (next :: tail).head? ≠ some '\n' :=
          fun _ first second => pair ⟨first, Option.some.inj second⟩
        rw [List.cons_append, List.cons_append, List.cons_append, List.cons_append,
          splitLinesFrom_cons (other _), splitLinesFrom_cons (other _), ← List.cons_append,
          ← List.cons_append, splitLinesFrom_newline behind (next :: rest) [],
          splitLinesFrom_newline behind (next :: rest) (char :: word)]
        split_ifs <;> rfl
  | [char], word => by
      by_cases carriage : char = '\r'
      · subst carriage
        rfl
      · have other : ∀ tail : Text, char = '\r' → tail.head? ≠ some '\n' :=
          fun _ first => absurd first carriage
        rw [List.cons_append, List.cons_append, splitLinesFrom_cons (other _),
          splitLinesFrom_cons (other _), splitLinesFrom_newline behind [] [],
          splitLinesFrom_newline behind [] (char :: word)]
        split_ifs <;> rfl

theorem splitLines_newline (front behind : Text) :
    splitLines (front ++ '\n' :: behind) = splitLines (front ++ ['\n']) ++ splitLines behind :=
  splitLinesFrom_newline behind front []

private theorem not_break_of_mem_splitLinesFrom : ∀ (text word : Text),
    (∀ char ∈ word, isLineBreak char = false) → ∀ line ∈ splitLinesFrom word text,
      ∀ char ∈ line, isLineBreak char = false
  | [], word, unbroken, line, member => by
      rw [splitLinesFrom] at member
      split_ifs at member
      · cases member
      · rw [List.mem_singleton.mp member]
        exact fun char inside => unbroken char (List.mem_reverse.mp inside)
  | char :: rest, word, unbroken, line, member => by
      by_cases pair : char = '\r' ∧ rest.head? = some '\n'
      · obtain ⟨rfl, isNext⟩ := pair
        obtain ⟨later, rfl⟩ := List.head?_eq_some_iff.mp isNext
        rw [splitLinesFrom] at member
        rcases List.mem_cons.mp member with rfl | inRest
        · exact fun char inside => unbroken char (List.mem_reverse.mp inside)
        · exact not_break_of_mem_splitLinesFrom later [] (fun _ none => absurd none List.not_mem_nil)
            line inRest
      · rw [splitLinesFrom_cons fun first second => pair ⟨first, second⟩] at member
        split_ifs at member with breaks
        · rcases List.mem_cons.mp member with rfl | inRest
          · exact fun char inside => unbroken char (List.mem_reverse.mp inside)
          · exact not_break_of_mem_splitLinesFrom rest [] (fun _ none => absurd none List.not_mem_nil)
              line inRest
        · refine not_break_of_mem_splitLinesFrom rest (char :: word) (fun next inside => ?_) line member
          rcases List.mem_cons.mp inside with rfl | old
          · exact Bool.eq_false_iff.mpr breaks
          · exact unbroken next old

theorem not_break_of_mem_splitLines {text line : Text} (member : line ∈ splitLines text) :
    ∀ char ∈ line, isLineBreak char = false :=
  not_break_of_mem_splitLinesFrom text [] (fun _ none => absurd none List.not_mem_nil) line member

theorem mem_of_lineOf {line name value : Text} (isField : lineOf (strip line) = .field name value) :
    ∀ char ∈ value, char ∈ line := by
  intro char inside
  have inStripped : char ∈ strip line := by
    rw [lineOf] at isField
    split_ifs at isField
    split at isField
    · cases isField
    · rename_i found matched
      obtain ⟨-, rfl⟩ := Line.field.inj isField
      rw [matchField] at matched
      split at matched
      · rename_i rest behind
        dsimp only at matched
        split_ifs at matched
        obtain ⟨-, rfl⟩ := Prod.mk.inj (Option.some.inj matched)
        refine (List.dropWhile_sublist isFieldChar).subset ((List.dropWhile_sublist isSpace).subset ?_)
        rw [behind]
        exact List.mem_cons_of_mem _ ((List.dropWhile_sublist _).subset inside)
      · cases matched
  exact (List.dropWhile_sublist _).subset ((List.rdropWhile_prefix _ _).subset inStripped)

theorem unbroken_values {body name value : Text}
    (member : value ∈ (parseSecurityTxt body).values name) : ∀ char ∈ value, isLineBreak char = false := by
  rw [parseSecurityTxt_eq, values_collect] at member
  obtain ⟨entry, kept, rfl⟩ := List.mem_map.mp member
  have found : ∀ (lines : List Text) (inside : Bool), entry ∈ readings inside lines →
      ∃ line ∈ lines, lineOf (strip line) = .field entry.1 entry.2 := by
    intro lines
    induction lines with
    | nil => exact fun _ none => absurd none List.not_mem_nil
    | cons line lines induction =>
        intro inside isRead
        rw [readings] at isRead
        have later : ∀ inside, entry ∈ readings inside lines →
            ∃ other ∈ line :: lines, lineOf (strip other) = .field entry.1 entry.2 := fun inside isRead =>
          (induction inside isRead).imp fun _ found => ⟨List.mem_cons_of_mem _ found.1, found.2⟩
        split at isRead
        · exact later true isRead
        · exact later false isRead
        · exact later inside isRead
        · rename_i name value isField
          split_ifs at isRead
          · exact later inside isRead
          · rcases List.mem_cons.mp isRead with rfl | isRead
            · exact ⟨line, List.mem_cons_self, isField⟩
            · exact later inside isRead
  obtain ⟨line, isLine, isField⟩ := found _ _ (List.mem_of_mem_filter kept)
  exact fun char inside => not_break_of_mem_splitLines isLine char (mem_of_lineOf isField char inside)

end SecurityTxt
end DomainLens
