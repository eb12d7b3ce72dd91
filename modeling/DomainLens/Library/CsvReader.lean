import DomainLens.Library.Csv

/-!
# A reader that gives up

The rows of a text, read line by line.  A line ends at a feed; a carriage outside quotes ends a row too, and
after it only another end may stand in the line.  No field is longer than a limit.
-/

namespace DomainLens
namespace Dialect

variable {Symbol : Type*}

/-- Where the reader is: in front of a row or a field, in a field without quotes or with them, behind a quote
within quotes, or behind the end of a row. -/
inductive Stage where
  | record
  | field
  | plain
  | quoted
  | closing
  | eaten

/-- The reader between two symbols: the field, last symbol first, the fields of the row and the rows. -/
structure Scan (Symbol : Type*) where
  stage : Stage
  field : List Symbol
  fields : List (List Symbol)
  rows : List (List (List Symbol))

namespace Scan

def start : Scan Symbol := ⟨.record, [], [], []⟩

/-- A symbol more in the field, unless it is full. -/
def add (limit : ℕ) (scan : Scan Symbol) (stage : Stage) (symbol : Symbol) : Option (Scan Symbol) :=
  if scan.field.length < limit then some { scan with stage, field := symbol :: scan.field } else none

def save (scan : Scan Symbol) (stage : Stage) : Scan Symbol :=
  { scan with stage, field := [], fields := scan.fields ++ [scan.field.reverse] }

def endRow (scan : Scan Symbol) : Scan Symbol := ⟨.record, [], [], scan.rows ++ [scan.fields]⟩

/-- The end of a line; within quotes the row goes on. -/
def endLine (scan : Scan Symbol) : Scan Symbol :=
  match scan.stage with
  | .record | .eaten => scan.endRow
  | .field | .plain | .closing => (scan.save .record).endRow
  | .quoted => scan

def finish (scan : Scan Symbol) : List (List (List Symbol)) :=
  match scan.stage with
  | .record => scan.rows
  | .quoted => (scan.save .record).endRow.rows
  | .field | .plain | .closing | .eaten => scan.endLine.rows

def symbols (scan : Scan Symbol) : List Symbol :=
  (scan.rows.flatten ++ scan.fields).flatten ++ scan.field.reverse

end Scan

namespace LineEnds

variable [DecidableEq Symbol] {dialect : Dialect Symbol} (ends : dialect.LineEnds) (limit : ℕ)

def scanPlain (scan : Scan Symbol) (symbol : Symbol) : Option (Scan Symbol) :=
  if symbol = ends.carriage ∨ symbol = ends.feed then some (scan.save .eaten)
  else if symbol = dialect.delimiter then some (scan.save .field)
  else scan.add limit .plain symbol

/-- A symbol, whatever the line does behind it. -/
def scanSymbol (scan : Scan Symbol) (symbol : Symbol) : Option (Scan Symbol) :=
  match scan.stage with
  | .record =>
      if symbol = ends.carriage ∨ symbol = ends.feed then some { scan with stage := .eaten }
      else if symbol = dialect.quote then some { scan with stage := .quoted }
      else ends.scanPlain limit scan symbol
  | .field =>
      if symbol = dialect.quote then some { scan with stage := .quoted }
      else ends.scanPlain limit scan symbol
  | .plain => ends.scanPlain limit scan symbol
  | .quoted =>
      if symbol = dialect.quote then some { scan with stage := .closing }
      else scan.add limit .quoted symbol
  | .closing =>
      if symbol = dialect.quote then scan.add limit .quoted symbol
      else ends.scanPlain limit scan symbol
  | .eaten => if symbol = ends.carriage ∨ symbol = ends.feed then some scan else none

/-- A symbol, and the end of the line behind a feed. -/
def scanNext (scan : Scan Symbol) (symbol : Symbol) : Option (Scan Symbol) :=
  (ends.scanSymbol limit scan symbol).map fun next =>
    if symbol = ends.feed then next.endLine else next

/-- The rows of a text, unless the reader gives up. -/
def readRows (text : List Symbol) : Option (List (List (List Symbol))) :=
  (text.foldlM (ends.scanNext limit) .start).map Scan.finish

end LineEnds

/-! ## Nothing is lost -/

namespace Scan

variable {scan next : Scan Symbol} {symbol : Symbol}

@[simp] theorem symbols_save (stage : Stage) : (scan.save stage).symbols = scan.symbols := by
  simp [save, symbols]

theorem rows_endRow (saved : scan.field = []) : scan.endRow.rows.flatten.flatten = scan.symbols := by
  simp [endRow, symbols, saved]

theorem symbols_add {limit : ℕ} {stage : Stage} (added : scan.add limit stage symbol = some next) :
    next.symbols = scan.symbols ++ [symbol] ∧ next.stage = stage := by
  unfold add at added
  split_ifs at added
  obtain rfl := Option.some.inj added
  exact ⟨by simp [symbols], rfl⟩

/-- Between rows there is no field. -/
structure Idle (scan : Scan Symbol) : Prop where
  record : scan.stage = .record → scan.field = [] ∧ scan.fields = []
  eaten : scan.stage = .eaten → scan.field = []

theorem idle_of_stage (record : scan.stage ≠ .record) (eaten : scan.stage ≠ .eaten) : scan.Idle :=
  ⟨fun same => absurd same record, fun same => absurd same eaten⟩

theorem idle_endLine : scan.endLine.Idle := by
  cases stage : scan.stage with
  | quoted =>
      have same : scan.endLine = scan := by rw [endLine, stage]
      rw [same]
      exact idle_of_stage (by rw [stage]; simp) (by rw [stage]; simp)
  | record | eaten | field | plain | closing =>
      unfold endLine
      rw [stage]
      exact ⟨fun _ => ⟨rfl, rfl⟩, fun _ => rfl⟩

theorem symbols_endLine (idle : scan.Idle) : scan.endLine.symbols = scan.symbols := by
  have endRow : ∀ other : Scan Symbol, other.field = [] → other.endRow.symbols = other.symbols := by
    intro other saved
    rw [← rows_endRow saved]
    simp [Scan.endRow, symbols]
  unfold endLine
  cases stage : scan.stage with
  | record => exact endRow _ (idle.record stage).1
  | eaten => exact endRow _ (idle.eaten stage)
  | quoted => rfl
  | field | plain | closing => exact (endRow _ rfl).trans (symbols_save _)

theorem rows_finish (idle : scan.Idle) : scan.finish.flatten.flatten = scan.symbols := by
  unfold finish endLine
  cases stage : scan.stage with
  | record => simp [symbols, idle.record stage]
  | eaten => exact rows_endRow (idle.eaten stage)
  | quoted | field | plain | closing => exact (rows_endRow rfl).trans (symbols_save _)

end Scan

namespace LineEnds

variable [DecidableEq Symbol] {dialect : Dialect Symbol} {ends : dialect.LineEnds} {limit : ℕ}
  {scan next : Scan Symbol} {symbol : Symbol}

variable (ends) in
/-- A symbol that a field keeps wherever it stands. -/
def isText (symbol : Symbol) : Bool :=
  symbol ≠ dialect.delimiter ∧ symbol ≠ dialect.quote ∧ symbol ≠ ends.carriage ∧ symbol ≠ ends.feed

variable (ends) in
/-- What a symbol does to those read: it is kept if it is text, and nothing else is lost. -/
structure Keeps (scan : Scan Symbol) (symbol : Symbol) (next : Scan Symbol) : Prop where
  idle : next.Idle
  symbols : next.symbols.filter ends.isText = (scan.symbols ++ [symbol]).filter ends.isText

private theorem keeps_add {stage : Stage} (record : stage ≠ .record) (eaten : stage ≠ .eaten)
    (added : scan.add limit stage symbol = some next) : ends.Keeps scan symbol next := by
  obtain ⟨symbols, rfl⟩ := Scan.symbols_add added
  exact ⟨Scan.idle_of_stage record eaten, by rw [symbols]⟩

private theorem keeps_of_same (idle : next.Idle) (same : next.symbols = scan.symbols)
    (apart : ends.isText symbol = false) : ends.Keeps scan symbol next :=
  ⟨idle, by rw [same, List.filter_append, List.filter_singleton, apart, cond_false, List.append_nil]⟩

private theorem not_isText_of_break (breaks : symbol = ends.carriage ∨ symbol = ends.feed) :
    ends.isText symbol = false := by
  rcases breaks with rfl | rfl <;> simp [isText]

private theorem keeps_scanPlain (read : ends.scanPlain limit scan symbol = some next) :
    ends.Keeps scan symbol next := by
  unfold scanPlain at read
  split_ifs at read with breaks delimits
  · obtain rfl := Option.some.inj read
    exact keeps_of_same ⟨by simp [Scan.save], fun _ => rfl⟩ (Scan.symbols_save _) (not_isText_of_break breaks)
  · obtain rfl := Option.some.inj read
    exact keeps_of_same (Scan.idle_of_stage (by simp [Scan.save]) (by simp [Scan.save]))
      (Scan.symbols_save _) (by simp [isText, delimits])
  · exact keeps_add (by simp) (by simp) read

theorem keeps_scanSymbol (idle : scan.Idle) (read : ends.scanSymbol limit scan symbol = some next) :
    ends.Keeps scan symbol next := by
  have opened : symbol = dialect.quote → ∀ stage, stage ≠ Stage.record → stage ≠ .eaten →
      ends.Keeps scan symbol { scan with stage } := fun same stage record eaten =>
    keeps_of_same (Scan.idle_of_stage record eaten) rfl (by simp [isText, same])
  unfold scanSymbol at read
  cases stage : scan.stage with
  | record =>
      rw [stage] at read
      dsimp only at read
      split_ifs at read with breaks quotes
      · obtain rfl := Option.some.inj read
        exact keeps_of_same ⟨by simp, fun _ => (idle.record stage).1⟩ rfl (not_isText_of_break breaks)
      · obtain rfl := Option.some.inj read
        exact opened quotes _ (by simp) (by simp)
      · exact keeps_scanPlain read
  | field =>
      rw [stage] at read
      dsimp only at read
      split_ifs at read with quotes
      · obtain rfl := Option.some.inj read
        exact opened quotes _ (by simp) (by simp)
      · exact keeps_scanPlain read
  | plain =>
      rw [stage] at read
      exact keeps_scanPlain read
  | quoted =>
      rw [stage] at read
      dsimp only at read
      split_ifs at read with quotes
      · obtain rfl := Option.some.inj read
        exact opened quotes _ (by simp) (by simp)
      · exact keeps_add (by simp) (by simp) read
  | closing =>
      rw [stage] at read
      dsimp only at read
      split_ifs at read with quotes
      · exact keeps_add (by simp) (by simp) read
      · exact keeps_scanPlain read
  | eaten =>
      rw [stage] at read
      dsimp only at read
      split_ifs at read with breaks
      obtain rfl := Option.some.inj read
      exact keeps_of_same idle rfl (not_isText_of_break breaks)

theorem keeps_scanNext (idle : scan.Idle) (read : ends.scanNext limit scan symbol = some next) :
    ends.Keeps scan symbol next := by
  obtain ⟨between, symbolRead, rfl⟩ := Option.map_eq_some_iff.mp read
  have keeps := keeps_scanSymbol idle symbolRead
  split_ifs
  · exact ⟨Scan.idle_endLine, by rw [Scan.symbols_endLine keeps.idle, keeps.symbols]⟩
  · exact keeps

/-- Every symbol of the text stands in the rows, in its place, save what separates and encloses. -/
theorem filter_readRows {text : List Symbol} {rows : List (List (List Symbol))}
    (read : ends.readRows limit text = some rows) :
    rows.flatten.flatten.filter ends.isText = text.filter ends.isText := by
  have run : ∀ (scan final : Scan Symbol), scan.Idle →
      text.foldlM (ends.scanNext limit) scan = some final →
      final.Idle ∧ final.symbols.filter ends.isText = (scan.symbols ++ text).filter ends.isText := by
    clear read
    induction text with
    | nil =>
        intro scan final idle same
        obtain rfl := Option.some.inj same
        exact ⟨idle, by rw [List.append_nil]⟩
    | cons symbol text induction =>
        intro scan final idle same
        rw [List.foldlM_cons] at same
        obtain ⟨next, first, later⟩ := Option.bind_eq_some_iff.mp same
        have keeps := keeps_scanNext idle first
        obtain ⟨final_idle, symbols⟩ := induction next final keeps.idle later
        refine ⟨final_idle, ?_⟩
        rw [symbols, List.filter_append, keeps.symbols, ← List.filter_append, List.append_assoc,
          List.singleton_append]
  obtain ⟨final, scanned, rfl⟩ := Option.map_eq_some_iff.mp read
  obtain ⟨idle, symbols⟩ := run .start final ⟨fun _ => ⟨rfl, rfl⟩, fun _ => rfl⟩ scanned
  rw [Scan.rows_finish idle, symbols]
  rfl

end LineEnds

end Dialect
end DomainLens
