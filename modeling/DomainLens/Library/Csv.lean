import Mathlib

/-!
# Rows of separated fields

A row is written with a delimiter between its fields and quotes around those that need them.  A
file is read symbol by symbol, and what is made of written rows is those rows.
-/

namespace DomainLens

/-- What separates fields, what encloses them, and what else makes a field need that. -/
structure Dialect (Symbol : Type*) where
  delimiter : Symbol
  quote : Symbol
  special : List Symbol
  apart : delimiter ≠ quote

namespace Dialect

variable {Symbol : Type*} [DecidableEq Symbol] (dialect : Dialect Symbol)

/-! ## Writing -/

/-- Whether a field is enclosed in quotes. -/
def needsQuotes (field : List Symbol) : Bool :=
  field.any fun symbol => symbol ∈ dialect.delimiter :: dialect.quote :: dialect.special

def doubled (field : List Symbol) : List Symbol :=
  field.flatMap fun symbol => if symbol = dialect.quote then [symbol, symbol] else [symbol]

def writeField (field : List Symbol) : List Symbol :=
  if dialect.needsQuotes field then
    dialect.quote :: (dialect.doubled field ++ [dialect.quote])
  else field

/-- Fields with the delimiter between them. -/
def writeFields : List (List Symbol) → List Symbol
  | [] => []
  | [field] => dialect.writeField field
  | field :: next :: fields =>
      dialect.writeField field ++ dialect.delimiter :: writeFields (next :: fields)

/-- A row as it is written, without the end of its line.  A lone empty field is quoted. -/
def write (row : List (List Symbol)) : List Symbol :=
  if row = [[]] then [dialect.quote, dialect.quote] else dialect.writeFields row

/-! ## Reading files -/

/-- Where in a field the reader is; `closing` is after a quote within quotes. -/
inductive Mode where
  | start
  | plain
  | quoted
  | closing

variable {dialect}

/-- What ends a line: either of two symbols, or the first followed by the second. -/
structure LineEnds (dialect : Dialect Symbol) where
  carriage : Symbol
  feed : Symbol
  carriage_special : carriage ∈ dialect.special
  feed_special : feed ∈ dialect.special
  carriage_ne : carriage ≠ dialect.delimiter ∧ carriage ≠ dialect.quote
  feed_ne : feed ≠ dialect.delimiter ∧ feed ≠ dialect.quote

/-- A file reader between two symbols: where it is in a field, the field, the fields of the row, the rows
before it, and whether a line was just ended by a carriage.  Fields are gathered last symbol first. -/
structure Reader (Symbol : Type*) where
  mode : Mode
  field : List Symbol
  fields : List (List Symbol)
  rows : List (List (List Symbol))
  returned : Bool

def Reader.start : Reader Symbol := ⟨.start, [], [], [], false⟩

/-- The fields of the row, the current one included.  A row of which nothing was read has none. -/
def Reader.row (reader : Reader Symbol) : List (List Symbol) :=
  match reader.mode, reader.fields with
  | .start, [] => []
  | _, fields => (reader.field.reverse :: fields).reverse

def Reader.endRow (reader : Reader Symbol) (returned : Bool) : Reader Symbol :=
  ⟨.start, [], [], reader.rows ++ [reader.row], returned⟩

variable (dialect) in
def LineEnds.outside (ends : dialect.LineEnds) (reader : Reader Symbol) (symbol : Symbol) :
    Reader Symbol :=
  if symbol = dialect.delimiter then
    { reader with mode := .start, field := [], fields := reader.field.reverse :: reader.fields }
  else if symbol = ends.carriage then reader.endRow true
  else if symbol = ends.feed then reader.endRow false
  else { reader with mode := .plain, field := symbol :: reader.field }

def LineEnds.next (ends : dialect.LineEnds) (reader : Reader Symbol) (symbol : Symbol) :
    Reader Symbol :=
  let before := { reader with returned := false }
  if reader.returned ∧ symbol = ends.feed then before
  else
    match reader.mode with
    | .start =>
        if symbol = dialect.quote then { before with mode := .quoted }
        else ends.outside dialect before symbol
    | .plain => ends.outside dialect before symbol
    | .quoted =>
        if symbol = dialect.quote then { before with mode := .closing }
        else { before with field := symbol :: reader.field }
    | .closing =>
        if symbol = dialect.quote then
          { before with mode := .quoted, field := symbol :: reader.field }
        else ends.outside dialect before symbol

/-- The rows of a file.  The last one may end without a line end. -/
def LineEnds.readFile (ends : dialect.LineEnds) (text : List Symbol) : List (List (List Symbol)) :=
  let reader := text.foldl ends.next .start
  if reader.row = [] then reader.rows else reader.rows ++ [reader.row]

/-- Rows as they are written, each with the end of its line. -/
def LineEnds.writeFile (ends : dialect.LineEnds) (rows : List (List (List Symbol))) : List Symbol :=
  rows.flatMap fun row => dialect.write row ++ [ends.carriage, ends.feed]

/-! ## Reading a file that was written -/

variable {ends : dialect.LineEnds}

private theorem foldl_plain {text : List Symbol} {field : List Symbol}
    {fields : List (List Symbol)} {rows : List (List (List Symbol))}
    (free : dialect.needsQuotes text = false) :
    text.foldl ends.next ⟨.plain, field, fields, rows, false⟩ =
      ⟨.plain, text.reverse ++ field, fields, rows, false⟩ := by
  induction text generalizing field with
  | nil => rfl
  | cons symbol text induction =>
      have noneSpecial : ∀ other ∈ symbol :: text,
          other ∉ dialect.delimiter :: dialect.quote :: dialect.special := by
        simpa [needsQuotes] using free
      have first := noneSpecial symbol List.mem_cons_self
      simp only [List.mem_cons, not_or] at first
      have apart : symbol ≠ ends.carriage := fun same => first.2.2 (same ▸ ends.carriage_special)
      have apart' : symbol ≠ ends.feed := fun same => first.2.2 (same ▸ ends.feed_special)
      have rest : dialect.needsQuotes text = false := by
        simpa [needsQuotes] using fun other member =>
          by simpa using noneSpecial other (List.mem_cons_of_mem _ member)
      rw [List.foldl_cons]
      simp only [LineEnds.next, LineEnds.outside, Bool.false_eq_true, false_and, if_false, first.1,
        apart, apart']
      rw [induction rest]
      simp

private theorem foldl_quoted {text : List Symbol} {field : List Symbol}
    {fields : List (List Symbol)} {rows : List (List (List Symbol))} :
    (dialect.doubled text).foldl ends.next ⟨.quoted, field, fields, rows, false⟩ =
      ⟨.quoted, text.reverse ++ field, fields, rows, false⟩ := by
  induction text generalizing field with
  | nil => rfl
  | cons symbol text induction =>
      have rest := @induction (symbol :: field)
      simp only [doubled, List.flatMap_cons] at rest ⊢
      rw [List.foldl_append, List.reverse_cons, List.append_assoc]
      by_cases isQuote : symbol = dialect.quote
      · subst isQuote
        simpa [LineEnds.next] using rest
      · simpa [LineEnds.next, isQuote] using rest

variable (ends) in
private theorem foldl_writeField (field : List Symbol) (fields : List (List Symbol))
    (rows : List (List (List Symbol))) :
    ∃ mode, mode ≠ .quoted ∧ (mode = .start → dialect.writeField field = []) ∧
      (dialect.writeField field).foldl ends.next ⟨.start, [], fields, rows, false⟩ =
        ⟨mode, field.reverse, fields, rows, false⟩ := by
  unfold writeField
  split
  · refine ⟨.closing, nofun, nofun, ?_⟩
    rw [List.foldl_cons, List.foldl_append]
    have opened : ends.next ⟨.start, [], fields, rows, false⟩ dialect.quote =
        ⟨.quoted, [], fields, rows, false⟩ := by
      simp [LineEnds.next]
    rw [opened, foldl_quoted]
    simp [LineEnds.next]
  · rename_i free
    cases field with
    | nil => exact ⟨.start, nofun, fun _ => rfl, rfl⟩
    | cons symbol field =>
        refine ⟨.plain, nofun, nofun, ?_⟩
        have noneSpecial : ∀ other ∈ symbol :: field,
            other ∉ dialect.delimiter :: dialect.quote :: dialect.special := by
          simpa [needsQuotes] using free
        have first := noneSpecial symbol List.mem_cons_self
        simp only [List.mem_cons, not_or] at first
        have notEnd : symbol ≠ ends.carriage ∧ symbol ≠ ends.feed :=
          ⟨fun same => first.2.2 (same ▸ ends.carriage_special),
            fun same => first.2.2 (same ▸ ends.feed_special)⟩
        -- The first symbol is read as it would be within the field.
        have same : ends.next ⟨.start, [], fields, rows, false⟩ symbol =
            ends.next ⟨.plain, [], fields, rows, false⟩ symbol := by
          simp [LineEnds.next, LineEnds.outside, first.1, first.2.1, notEnd.1, notEnd.2]
        rw [List.foldl_cons, same, ← List.foldl_cons, foldl_plain (by simpa using free)]
        simp

private theorem next_delimiter {mode : Mode} (outside : mode ≠ .quoted) (field : List Symbol)
    (fields : List (List Symbol)) (rows : List (List (List Symbol))) :
    ends.next ⟨mode, field.reverse, fields, rows, false⟩ dialect.delimiter =
      ⟨.start, [], field :: fields, rows, false⟩ := by
  cases mode with
  | quoted => exact absurd rfl outside
  | start => simp [LineEnds.next, LineEnds.outside, dialect.apart]
  | plain => simp [LineEnds.next, LineEnds.outside]
  | closing => simp [LineEnds.next, LineEnds.outside, dialect.apart]

private theorem next_lineEnd {mode : Mode} (outside : mode ≠ .quoted) (field : List Symbol)
    (fields : List (List Symbol)) (rows : List (List (List Symbol)))
    (several : mode = .start → fields ≠ []) :
    [ends.carriage, ends.feed].foldl ends.next ⟨mode, field.reverse, fields, rows, false⟩ =
      ⟨.start, [], [], rows ++ [(field :: fields).reverse], false⟩ := by
  have apart := ends.carriage_ne
  cases mode with
  | quoted => exact absurd rfl outside
  | start =>
      cases fields with
      | nil => exact absurd rfl (several rfl)
      | cons other fields =>
          simp [LineEnds.next, LineEnds.outside, Reader.endRow, Reader.row, apart.1, apart.2]
  | plain => simp [LineEnds.next, LineEnds.outside, Reader.endRow, Reader.row, apart.1]
  | closing =>
      simp [LineEnds.next, LineEnds.outside, Reader.endRow, Reader.row, apart.1, apart.2]

variable (ends) in
private theorem foldl_writeFields {row : List (List Symbol)} (nonempty : row ≠ [])
    (fields : List (List Symbol)) (rows : List (List (List Symbol))) :
    ∃ mode field init, mode ≠ .quoted ∧ (mode = .start → field = []) ∧
      (field :: init).reverse = fields.reverse ++ row ∧
      (dialect.writeFields row).foldl ends.next ⟨.start, [], fields, rows, false⟩ =
        ⟨mode, field.reverse, init, rows, false⟩ := by
  induction row generalizing fields with
  | nil => exact absurd rfl nonempty
  | cons field row induction =>
      obtain ⟨mode, outside, empty, gathered⟩ :=
        foldl_writeField ends field fields rows
      cases row with
      | nil =>
          refine ⟨mode, field, fields, outside, fun isStart => ?_, by simp, gathered⟩
          have written := empty isStart
          unfold writeField at written
          split at written
          · cases written
          · exact written
      | cons next row =>
          obtain ⟨mode', last, init, outside', empty', same, rest⟩ :=
            induction (List.cons_ne_nil next row) (field :: fields)
          refine ⟨mode', last, init, outside', empty', by simpa using same, ?_⟩
          rw [writeFields, List.foldl_append, gathered, List.foldl_cons, next_delimiter outside,
            rest]

private theorem foldl_line {row : List (List Symbol)} (nonempty : row ≠ [])
    (rows : List (List (List Symbol))) :
    (dialect.write row ++ [ends.carriage, ends.feed]).foldl ends.next ⟨.start, [], [], rows, false⟩ =
      ⟨.start, [], [], rows ++ [row], false⟩ := by
  rw [List.foldl_append]
  unfold write
  split
  · rename_i lone
    have quotes : [dialect.quote, dialect.quote].foldl ends.next ⟨.start, [], [], rows, false⟩ =
        ⟨.closing, ([] : List Symbol).reverse, [], rows, false⟩ := by
      simp [LineEnds.next]
    have outside : Mode.closing ≠ .quoted := nofun
    rw [quotes, next_lineEnd outside _ _ _ nofun, lone]
    rfl
  · rename_i several
    obtain ⟨mode, field, init, outside, empty, same, gathered⟩ :=
      foldl_writeFields ends nonempty [] rows
    have same : (field :: init).reverse = row := same
    rw [gathered, next_lineEnd outside, same]
    rintro isStart rfl
    rw [empty isStart] at same
    exact several same.symm

theorem readFile_writeFile {rows : List (List (List Symbol))} (nonempty : ∀ row ∈ rows, row ≠ []) :
    ends.readFile (ends.writeFile rows) = rows := by
  have read : ∀ before, (ends.writeFile rows).foldl ends.next ⟨.start, [], [], before, false⟩ =
      ⟨.start, [], [], before ++ rows, false⟩ := by
    induction rows with
    | nil => intro before; simp [LineEnds.writeFile]
    | cons row rows induction =>
        intro before
        have rest := induction fun other member => nonempty other (List.mem_cons_of_mem _ member)
        rw [LineEnds.writeFile, List.flatMap_cons, List.foldl_append,
          foldl_line (nonempty row List.mem_cons_self)]
        exact (rest _).trans (by simp)
  have whole := read []
  rw [LineEnds.readFile]
  simp only [Reader.start, whole, Reader.row, List.nil_append, if_true]

end Dialect
end DomainLens
