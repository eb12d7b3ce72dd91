import DomainLens.Library.Run
import DomainLens.Library.Table
import DomainLens.Python.Text
import Mathlib

/-!
# The cursor of the NCSC advisories

A sync reads the advisories that changed after a stored moment, the oldest first, and moves the moment
past each one it has read.  The file embeds the listing and the sync, and says on which runs every
advisory the moment has passed was read.
-/

namespace DomainLens
namespace NcscAdvisories

open Python Run

/-! ## The listing -/

/-- An advisory of the listing, with the moment it last changed in microseconds. -/
structure Change where
  path : Text
  changedAt : Int
deriving DecidableEq

/-- `_PATH`. -/
def isPath (text : Text) : Bool :=
  dollar (fun text =>
    let number := (text.drop 15).takeWhile isDecimal
    (text.take 4).length == 4 && (text.take 4).all isDecimal &&
      (text.drop 4).take 6 == "/ncsc-".toList &&
      ((text.drop 10).take 4).length == 4 && ((text.drop 10).take 4).all isDecimal &&
      (text.drop 14).take 1 == ['-'] && 4 ≤ number.length && number.length ≤ 6 &&
      (text.drop 15).dropWhile isDecimal == ".json".toList) text

-- `_parse_time`.
variable (parseTime : Text → Option Int)

def changeOf : List Text → Option Change
  | path :: moment :: _ =>
      if isPath (strip path) then
        (parseTime (strip moment)).map fun changedAt => ⟨strip path, changedAt⟩
      else none
  | _ => none

/-- `changes`, of the rows `csv.reader` reads. -/
def changes (rows : List (List Text)) : List Change :=
  (rows.filterMap (changeOf parseTime)).insertionSort fun left right =>
    left.changedAt ≤ right.changedAt

instance : Std.Total fun left right : Change => left.changedAt ≤ right.changedAt where
  total left right := Int.le_total left.changedAt right.changedAt

instance : IsTrans Change fun left right => left.changedAt ≤ right.changedAt where
  trans _ _ _ before after := Int.le_trans before after

theorem pairwise_changes (rows : List (List Text)) :
    (changes parseTime rows).Pairwise fun earlier later => earlier.changedAt ≤ later.changedAt :=
  List.pairwise_insertionSort _ _

/-! ## Reading -/

/-- What `parse` makes of a document; the other columns are kept as they are. -/
structure Advisory (Columns : Type) where
  id : Text
  cves : List Text
  columns : Columns

/-- The row of the source in `cve_feed_state`, which keeps moments as text. -/
structure SyncState where
  syncedAt : Option Int
  cursor : Option Int
  attemptedAt : Option Int
  error : Option Text
  items : Option Nat

variable {Body Columns : Type}

/-- The two tables and the state.  `stored` records which changes were read and stored. -/
structure Feed (Columns : Type) where
  advisories : Table (@Advisory.id Columns)
  cves : List (Text × Text)
  state : SyncState
  stored : List Change

def Feed.empty : Feed Columns := ⟨.empty, [], ⟨none, none, none, none, none⟩, []⟩

/-- `_store`. -/
def Feed.store (feed : Feed Columns) (change : Change) (advisory : Advisory Columns) :
    Feed Columns :=
  { feed with
    advisories := feed.advisories.put advisory
    cves := (feed.cves.filter (·.2 ≠ advisory.id)) ++
      (fromKeys advisory.cves).map fun cve => (cve, advisory.id)
    stored := change :: feed.stored }

/-- `_save_state` of the cursor. -/
def Feed.moveCursor (feed : Feed Columns) (cursor : Int) : Feed Columns :=
  { feed with state := { feed.state with cursor := some cursor } }

/-- What one advisory of a sync meets: the document and the words of its published hash, and what the
database says against storing it and against saving the cursor. -/
structure Answer (Body : Type) where
  document : Except Text Body
  publishedHash : Except Text (List Text)
  unstored : Option Text
  unsaved : Option Text

-- `hashlib.sha512(body).hexdigest()`, and `parse` with the decoding before it.
variable (sha512 : Body → Text) (parse : Body → Except Text (Advisory Columns))

def checked (change : Change) (answer : Answer Body) : Except Text (Advisory Columns) :=
  match answer.document with
  | .error problem => .error problem
  | .ok body =>
      match answer.publishedHash with
      | .error problem => .error problem
      | .ok words =>
          match words with
          | [] =>
              .error (change.path ++ " does not match its published SHA-512; not used.".toList)
          | published :: _ =>
              if sha512 body = lower published then parse body
              else
                .error (change.path ++ " does not match its published SHA-512; not used.".toList)

/-- The body of the loop of `sync`, with the problem that ends it. -/
def readOne (feed : Feed Columns) (change : Change) (answer : Answer Body) :
    Feed Columns × Option Text :=
  match checked sha512 parse change answer with
  | .error problem => (feed, some problem)
  | .ok advisory =>
      match if advisory.id = [] then none else answer.unstored with
      | some problem => (feed, some problem)
      | none =>
          let feed := if advisory.id = [] then feed else feed.store change advisory
          match answer.unsaved with
          | some problem => (feed, some problem)
          | none => (feed.moveCursor change.changedAt, none)

/-- The loop of `sync`; the answers are those from a position on. -/
def readAll (answers : Nat → Answer Body) :
    Feed Columns → Nat → List Change → Feed Columns × Nat × Option Text
  | feed, position, [] => (feed, position, none)
  | feed, position, change :: rest =>
      match readOne sha512 parse feed change (answers position) with
      | (feed, none) => readAll answers feed (position + 1) rest
      | (feed, some problem) => (feed, position, some problem)

/-- `_FIRST_WINDOW` in microseconds. -/
def firstWindow : Int := 90 * 86400 * 1000000

/-- `_MAX_PER_RUN`. -/
def maxPerRun : Nat := 400

/-- The changes after a moment, the oldest first. -/
def pending (rows : List (List Text)) (cursor : Int) : List Change :=
  (changes parseTime rows).filter fun change => cursor < change.changedAt

def cursorAt (state : SyncState) (now : Int) : Int := state.cursor.getD (now - firstWindow)

/-- The handler of `sync`. -/
def failed (feed : Feed Columns) (problem : Text) : Feed Columns × Except Text Nat :=
  ({ feed with state := { feed.state with error := some (problem.take 200) } },
    .error ("error: ".toList ++ problem.take 200))

/-- `sync`. -/
def sync (feed : Feed Columns) (now : Int) (listing : Except Text (List (List Text)))
    (answers : Nat → Answer Body) : Feed Columns × Except Text Nat :=
  let cursor := cursorAt feed.state now
  let feed := { feed with state := { feed.state with attemptedAt := some now } }
  match listing with
  | .error problem => failed feed problem
  | .ok rows =>
      match readAll sha512 parse answers feed 0 ((pending parseTime rows cursor).take maxPerRun) with
      | (feed, _, some problem) => failed feed problem
      | (feed, read, none) =>
          ({ feed with
              state :=
                { feed.state with
                  syncedAt := some now
                  error := none
                  items := some feed.advisories.rows.length } }, .ok read)

/-! ## Runs -/

/-- The listing of the NCSC and the feed, with the start of the first window. -/
structure World (Columns : Type) where
  rows : List (List Text)
  feed : Feed Columns
  windowStart : Option Int

def World.start : World Columns := ⟨[], .empty, none⟩

/-- The NCSC publishes a listing, or a sync reads the one there is, if it is reached. -/
inductive Label (Body : Type) where
  | publish (rows : List (List Text))
  | sync (now : Int) (unreached : Option Text) (answers : Nat → Answer Body)

/-- Every advisory stays listed, and its moment only grows. -/
def Grows (rows next : List (List Text)) : Prop :=
  ∀ change ∈ changes parseTime rows, ∃ later ∈ changes parseTime next,
    later.path = change.path ∧ change.changedAt ≤ later.changedAt

instance (rows next : List (List Text)) : Decidable (Grows parseTime rows next) :=
  inferInstanceAs (Decidable (∀ change ∈ changes parseTime rows,
    ∃ later ∈ changes parseTime next, later.path = change.path ∧
      change.changedAt ≤ later.changedAt))

def listingOf (world : World Columns) (unreached : Option Text) :
    Except Text (List (List Text)) :=
  match unreached with
  | some problem => .error problem
  | none => .ok world.rows

def step (world : World Columns) : Label Body → Option (World Columns)
  | .publish rows =>
      if Grows parseTime world.rows rows then some { world with rows } else none
  | .sync now unreached answers =>
      some
        { world with
          feed := (sync parseTime sha512 parse world.feed now (listingOf world unreached) answers).1
          windowStart := some (world.windowStart.getD (now - firstWindow)) }

/-- An advisory was read and stored at a change or a later one. -/
def WasRead (feed : Feed Columns) (change : Change) : Prop :=
  ∃ done ∈ feed.stored, done.path = change.path ∧ change.changedAt ≤ done.changedAt

/-- Every listed advisory that changed after the start of the first window and not after the cursor
was read. -/
def Passed (world : World Columns) : Prop :=
  ∀ start cursor, world.windowStart = some start → world.feed.state.cursor = some cursor →
    ∀ change ∈ changes parseTime world.rows, start < change.changedAt →
      change.changedAt ≤ cursor → WasRead world.feed change

/-! ## Where a sync stops -/

/-- An answer with which an advisory is read: it passes the checks, and the database takes it. -/
def Reads (change : Change) (answer : Answer Body) : Prop :=
  ∃ advisory, checked sha512 parse change answer = .ok advisory ∧
    (advisory.id ≠ [] → answer.unstored = none) ∧ answer.unsaved = none

/-- So many of the advisories are read, and then one is not or there are no more.  The answers are those
from a position on. -/
structure StopsAt (answers : Nat → Answer Body) (position : Nat) (items : List Change)
    (count : Nat) : Prop where
  bound : count ≤ items.length
  read : ∀ index < count, ∀ change, items[index]? = some change →
    Reads sha512 parse change (answers (position + index))
  stopped : ∀ change, items[count]? = some change →
    ¬ Reads sha512 parse change (answers (position + count))

theorem readOne_of_reads (feed : Feed Columns) {change : Change} {answer : Answer Body}
    {advisory : Advisory Columns} (isChecked : checked sha512 parse change answer = .ok advisory)
    (taken : (advisory.id ≠ [] → answer.unstored = none) ∧ answer.unsaved = none) :
    readOne sha512 parse feed change answer =
      ((if advisory.id = [] then feed else feed.store change advisory).moveCursor change.changedAt,
        none) := by
  have stored : (if advisory.id = [] then none else answer.unstored) = none := by
    split
    · rfl
    · rename_i named
      exact taken.1 named
  simp only [readOne, isChecked, stored, taken.2]

theorem readOne_of_not_reads (feed : Feed Columns) {change : Change} {answer : Answer Body}
    (unread : ¬ Reads sha512 parse change answer) :
    ∃ next problem, readOne sha512 parse feed change answer = (next, some problem) ∧
      next.state = feed.state ∧ feed.stored ⊆ next.stored := by
  unfold readOne
  cases isChecked : checked sha512 parse change answer with
  | error problem => exact ⟨feed, problem, rfl, rfl, List.Subset.refl _⟩
  | ok advisory =>
      dsimp only
      split
      · rename_i problem _
        exact ⟨feed, problem, rfl, rfl, List.Subset.refl _⟩
      · rename_i stored
        split
        · rename_i problem _
          refine ⟨_, problem, rfl, ?_, ?_⟩
          · split
            · rfl
            · rfl
          · split
            · exact List.Subset.refl _
            · exact List.subset_cons_self _ _
        · rename_i saved
          refine absurd ⟨advisory, isChecked, fun named => ?_, saved⟩ unread
          rwa [if_neg named] at stored

/-- What the loop of a sync leaves behind. -/
structure Left (answers : Nat → Answer Body) (position : Nat) (items : List Change) (count : Nat)
    (before after : Feed Columns) : Prop where
  stops : StopsAt sha512 parse answers position items count
  cursor : after.state.cursor =
    ((items.take count).getLast?.map Change.changedAt).or before.state.cursor
  kept : before.stored ⊆ after.stored
  stored : ∀ index < count, ∀ change advisory, items[index]? = some change →
    checked sha512 parse change (answers (position + index)) = .ok advisory → advisory.id ≠ [] →
      change ∈ after.stored

theorem left_readAll (answers : Nat → Answer Body) (feed : Feed Columns) (position : Nat)
    (items : List Change) :
    ∃ count, Left sha512 parse answers position items count feed
      (readAll sha512 parse answers feed position items).1 := by
  induction items generalizing feed position with
  | nil =>
      refine ⟨0, ⟨le_rfl, ?_, ?_⟩, rfl, List.Subset.refl _, ?_⟩
      · exact fun index below => absurd below (Nat.not_lt_zero index)
      · exact fun change found => nomatch found
      · exact fun index below => absurd below (Nat.not_lt_zero index)
  | cons change rest induction =>
      by_cases reads : Reads sha512 parse change (answers position)
      · obtain ⟨advisory, isChecked, taken⟩ := reads
        have one := readOne_of_reads sha512 parse feed isChecked taken
        obtain ⟨count, left⟩ := induction
          ((if advisory.id = [] then feed else feed.store change advisory).moveCursor
            change.changedAt) (position + 1)
        have shifted (index : Nat) : position + 1 + index = position + (index + 1) := by omega
        refine ⟨count + 1, ⟨Nat.succ_le_succ left.stops.bound, ?_, ?_⟩, ?_, ?_, ?_⟩
        · intro index below other found
          cases index with
          | zero =>
              obtain rfl := Option.some.inj found
              exact ⟨advisory, isChecked, taken⟩
          | succ index =>
              rw [← shifted]
              exact left.stops.read index (Nat.lt_of_succ_lt_succ below) other found
        · intro other found
          rw [← shifted]
          exact left.stops.stopped other found
        · simp only [readAll, one]
          rw [left.cursor, List.take_succ_cons, List.getLast?_cons]
          cases (rest.take count).getLast? with
          | none => rfl
          | some last => rfl
        · simp only [readAll, one]
          refine List.Subset.trans ?_ left.kept
          by_cases named : advisory.id = []
          · rw [if_pos named]
            exact List.Subset.refl _
          · rw [if_neg named]
            exact List.subset_cons_self _ _
        · intro index below other document found isDocument named
          simp only [readAll, one]
          cases index with
          | zero =>
              obtain rfl := Option.some.inj found
              obtain rfl := Except.ok.inj (isChecked.symm.trans isDocument)
              apply left.kept
              rw [if_neg named]
              exact List.mem_cons_self
          | succ index =>
              refine left.stored index (Nat.lt_of_succ_lt_succ below) other document found ?_ named
              rw [shifted]
              exact isDocument
      · obtain ⟨next, problem, one, state, kept⟩ :=
          readOne_of_not_reads sha512 parse feed reads
        refine ⟨0, ⟨Nat.zero_le _, ?_, ?_⟩, ?_, ?_, ?_⟩
        · exact fun index below => absurd below (Nat.not_lt_zero index)
        · intro other found
          obtain rfl := Option.some.inj found
          exact reads
        · simp only [readAll, one, state]
          rfl
        · simpa only [readAll, one] using kept
        · exact fun index below => absurd below (Nat.not_lt_zero index)

/-! ## Runs that pass nothing by -/

/-- What a sync that reads so many advisories is kept clear of: a window that has moved on without a
cursor, a document without an id, and an advisory that is left though it changed at the moment of one
that is read. -/
structure ClearSync (world : World Columns) (now : Int) (answers : Nat → Answer Body) (count : Nat) :
    Prop where
  window : world.feed.state.cursor = none → ∀ start, world.windowStart = some start →
    ∀ change ∈ changes parseTime world.rows, start < change.changedAt →
      now - firstWindow < change.changedAt
  named : ∀ index < count, ∀ change advisory,
    (pending parseTime world.rows (cursorAt world.feed.state now))[index]? = some change →
    checked sha512 parse change (answers index) = .ok advisory → advisory.id ≠ []
  apart :
    ∀ read ∈ (pending parseTime world.rows (cursorAt world.feed.state now)).take count,
    ∀ left ∈ (pending parseTime world.rows (cursorAt world.feed.state now)).drop count,
      read.changedAt ≠ left.changedAt

/-- Nothing is listed late, at or before the cursor, and a sync that stops does so between two moments.
-/
def Clear (world : World Columns) (label : Label Body) (_ : World Columns) : Prop :=
  match label with
  | .publish rows =>
      ∀ start cursor, world.windowStart = some start → world.feed.state.cursor = some cursor →
        ∀ change ∈ changes parseTime rows, start < change.changedAt → change.changedAt ≤ cursor →
          change ∈ changes parseTime world.rows
  | .sync _ (some _) _ => True
  | .sync now none answers =>
      ∀ count, 0 < count →
        StopsAt sha512 parse answers 0
          ((pending parseTime world.rows (cursorAt world.feed.state now)).take maxPerRun) count →
        ClearSync parseTime sha512 parse world now answers count

/-- The invariant: advisories that were passed were read, and no cursor is stored before the first
window. -/
structure Sound (world : World Columns) : Prop where
  passed : Passed parseTime world
  begun : world.windowStart = none → world.feed.state.cursor = none

theorem sound_start : Sound parseTime (World.start : World Columns) where
  passed _ _ isStart := nomatch isStart
  begun _ := rfl

variable {parseTime sha512 parse}

theorem WasRead.mono {feed next : Feed Columns} {change : Change} (wasRead : WasRead feed change)
    (kept : feed.stored ⊆ next.stored) : WasRead next change := by
  obtain ⟨done, member, same, later⟩ := wasRead
  exact ⟨done, kept member, same, later⟩

theorem Sound.of_cursor {world next : World Columns} (sound : Sound parseTime world)
    (rows : next.rows = world.rows) (cursor : next.feed.state.cursor = world.feed.state.cursor)
    (kept : world.feed.stored ⊆ next.feed.stored)
    (start : ∀ start, world.windowStart = some start → next.windowStart = some start)
    (begun : next.windowStart ≠ none) : Sound parseTime next where
  passed first moment isFirst isMoment change member after passed := by
    rw [cursor] at isMoment
    cases isStart : world.windowStart with
    | none =>
        rw [sound.begun isStart] at isMoment
        cases isMoment
    | some old =>
        obtain rfl := Option.some.inj ((start old isStart).symm.trans isFirst)
        exact (sound.passed old moment isStart isMoment change (rows ▸ member) after passed).mono kept
  begun none := absurd none begun

theorem Sound.publish {world : World Columns} (sound : Sound parseTime world)
    {rows : List (List Text)}
    (clear : ∀ start cursor, world.windowStart = some start →
      world.feed.state.cursor = some cursor → ∀ change ∈ changes parseTime rows,
        start < change.changedAt → change.changedAt ≤ cursor →
          change ∈ changes parseTime world.rows) :
    Sound parseTime { world with rows } where
  passed start cursor isStart isCursor change member after passed :=
    sound.passed start cursor isStart isCursor change
      (clear start cursor isStart isCursor change member after passed) after passed
  begun := sound.begun

/-- What has changed since the cursor is not after the last advisory that is read, unless the sync reads
it too. -/
theorem lt_of_mem_drop {rows : List (List Text)} {cursor : Int} {count : Nat} {last left : Change}
    (isLast : last ∈ (pending parseTime rows cursor).take count)
    (isLeft : left ∈ (pending parseTime rows cursor).drop count)
    (apart : last.changedAt ≠ left.changedAt) : last.changedAt < left.changedAt := by
  have sorted : (pending parseTime rows cursor).Pairwise
      fun earlier later => earlier.changedAt ≤ later.changedAt :=
    (pairwise_changes parseTime rows).filter _
  rw [← List.take_append_drop count (pending parseTime rows cursor)] at sorted
  have before := (List.pairwise_append.mp sorted).2.2 last isLast left isLeft
  omega

theorem Sound.sync {world next : World Columns} (sound : Sound parseTime world) {now : Int}
    {answers : Nat → Answer Body} {count : Nat}
    (left : Left sha512 parse answers 0
      ((pending parseTime world.rows (cursorAt world.feed.state now)).take maxPerRun) count
      world.feed next.feed)
    (clear : 0 < count → ClearSync parseTime sha512 parse world now answers count)
    (rows : next.rows = world.rows)
    (start : next.windowStart = some (world.windowStart.getD (now - firstWindow))) :
    Sound parseTime next := by
  have begun : next.windowStart ≠ none := by
    rw [start]
    exact Option.some_ne_none _
  have same (old : Int) (isOld : world.windowStart = some old) : next.windowStart = some old := by
    rw [start, isOld]
    rfl
  cases isLast : (((pending parseTime world.rows (cursorAt world.feed.state now)).take
      maxPerRun).take count).getLast? with
  | none =>
      refine sound.of_cursor rows ?_ left.kept same begun
      rw [left.cursor, isLast]
      rfl
  | some last =>
      refine ⟨?_, fun none => absurd none begun⟩
      intro first moment isFirst isMoment change member after passed
      have positive : 0 < count := by
        refine Nat.pos_of_ne_zero fun zero => ?_
        rw [zero, List.take_zero] at isLast
        cases isLast
      have clear := clear positive
      have within : count ≤ maxPerRun := left.stops.bound.trans (List.length_take_le _ _)
      obtain rfl : last.changedAt = moment := by
        rw [left.cursor, isLast] at isMoment
        exact Option.some.inj isMoment
      have lastRead : last ∈ (pending parseTime world.rows (cursorAt world.feed.state now)).take
          count := by
        have read := List.mem_of_getLast? isLast
        rwa [List.take_take, Nat.min_eq_left within] at read
      by_cases old : change.changedAt ≤ cursorAt world.feed.state now
      · -- What is not after the cursor was read before, or lies before the first window.
        cases isStart : world.windowStart with
        | none =>
            have none := sound.begun isStart
            rw [start, isStart] at isFirst
            have isFirst : now - firstWindow = first := Option.some.inj isFirst
            rw [cursorAt, none, Option.getD_none] at old
            omega
        | some begin =>
            obtain rfl := Option.some.inj ((same begin isStart).symm.trans isFirst)
            cases isCursor : world.feed.state.cursor with
            | none =>
                have moved := clear.window isCursor begin isStart change (rows ▸ member) after
                rw [cursorAt, isCursor, Option.getD_none] at old
                omega
            | some cursor =>
                rw [cursorAt, isCursor, Option.getD_some] at old
                exact (sound.passed begin cursor isStart isCursor change (rows ▸ member) after
                  old).mono left.kept
      · have isPending : change ∈ pending parseTime world.rows (cursorAt world.feed.state now) :=
          List.mem_filter.mpr ⟨rows ▸ member, decide_eq_true (Int.not_le.mp old)⟩
        rw [← List.take_append_drop count (pending parseTime world.rows
          (cursorAt world.feed.state now))] at isPending
        rcases List.mem_append.mp isPending with read | unread
        · obtain ⟨index, found⟩ := List.mem_iff_getElem?.mp read
          rw [List.getElem?_take] at found
          obtain ⟨below, found⟩ := Option.ite_none_right_eq_some.mp found
          have taken : ((pending parseTime world.rows (cursorAt world.feed.state now)).take
              maxPerRun)[index]? = some change := by
            rw [List.getElem?_take, if_pos (below.trans_le within), found]
          obtain ⟨advisory, isChecked, -⟩ := left.stops.read index below change taken
          rw [Nat.zero_add] at isChecked
          exact ⟨change, left.stored index below change advisory taken
            (by rw [Nat.zero_add]; exact isChecked)
            (clear.named index below change advisory found isChecked), rfl, Int.le_refl _⟩
        · have later := lt_of_mem_drop lastRead unread (clear.apart last lastRead change unread)
          omega

variable (parseTime sha512 parse) in
theorem left_sync (world : World Columns) (now : Int) (answers : Nat → Answer Body) :
    ∃ count, Left sha512 parse answers 0
      ((pending parseTime world.rows (cursorAt world.feed.state now)).take maxPerRun) count
      world.feed
      (NcscAdvisories.sync parseTime sha512 parse world.feed now (.ok world.rows) answers).1 := by
  obtain ⟨count, left⟩ := left_readAll sha512 parse answers
    { world.feed with state := { world.feed.state with attemptedAt := some now } } 0
    ((pending parseTime world.rows (cursorAt world.feed.state now)).take maxPerRun)
  -- Neither ending of the sync writes to the cursor or to what is stored.
  have ends : ∀ result : Feed Columns × Nat × Option Text,
      readAll sha512 parse answers
        { world.feed with state := { world.feed.state with attemptedAt := some now } } 0
        ((pending parseTime world.rows (cursorAt world.feed.state now)).take maxPerRun) = result →
      (NcscAdvisories.sync parseTime sha512 parse world.feed now (.ok world.rows)
          answers).1.state.cursor = result.1.state.cursor ∧
        (NcscAdvisories.sync parseTime sha512 parse world.feed now (.ok world.rows)
          answers).1.stored = result.1.stored := by
    rintro ⟨feed, read, problem⟩ same
    simp only [NcscAdvisories.sync, same]
    cases problem with
    | none => exact ⟨rfl, rfl⟩
    | some problem => exact ⟨rfl, rfl⟩
  obtain ⟨cursor, stored⟩ := ends _ rfl
  refine ⟨count, left.stops, ?_, ?_, ?_⟩
  · rw [cursor]
    exact left.cursor
  · rw [stored]
    exact left.kept
  · rw [stored]
    exact left.stored

theorem Sound.kept {world next : World Columns} (sound : Sound parseTime world)
    {label : Label Body} (taken : step parseTime sha512 parse world label = some next)
    (clear : Clear parseTime sha512 parse world label next) : Sound parseTime next := by
  cases label with
  | publish rows =>
      obtain ⟨-, same⟩ := Option.ite_none_right_eq_some.mp taken
      obtain rfl := Option.some.inj same
      exact sound.publish clear
  | sync now unreached answers =>
      obtain rfl := Option.some.inj taken
      cases unreached with
      | none =>
          obtain ⟨count, left⟩ := left_sync parseTime sha512 parse world now answers
          exact sound.sync left (fun positive => clear count positive left.stops) rfl rfl
      | some problem =>
          refine sound.of_cursor rfl rfl (List.Subset.refl _) (fun begin isStart => ?_)
            (Option.some_ne_none _)
          rw [isStart]
          rfl

/-- In every run that is kept clear, every advisory the cursor has passed was read. -/
theorem passed_of_clear {labels : List (Label Body)} {final : World Columns}
    (clear : Along (step parseTime sha512 parse) (Clear parseTime sha512 parse) World.start labels)
    (execution : run (step parseTime sha512 parse) World.start labels = some final) :
    Passed parseTime final :=
  (run_guarded (fun _ _ _ sound taken clear => sound.kept taken clear) (sound_start parseTime) clear
    execution).passed

/-! ## Advisories of one moment -/

section Examples

def advisoryOne : Change := ⟨"2026/ncsc-2026-0001.json".toList, 150⟩
def advisoryTwo : Change := ⟨"2026/ncsc-2026-0002.json".toList, 150⟩

/-- A listing of advisories, with their moments as texts. -/
def listing (moments : List (Change × String)) : List (List Text) :=
  moments.map fun entry => [entry.1.path, entry.2.toList]

def number (text : Text) : Option Int := some (intOf text)

/-- An advisory that is served with its hash. -/
def served : Answer (Advisory Unit) where
  document := .ok ⟨"NCSC-2026-0001".toList, [], ()⟩
  publishedHash := .ok ["ab".toList]
  unstored := none
  unsaved := none

def unserved : Answer (Advisory Unit) :=
  { served with document := .error "advisories.ncsc.nl answered HTTP 503".toList }

private abbrev exampleStep : World Unit → Label (Advisory Unit) → Option (World Unit) :=
  step number (fun _ => "ab".toList) .ok

/-- The second of two advisories that changed at one moment is not served, and a sync later is asked
again. -/
def tied : List (Label (Advisory Unit)) :=
  [.publish (listing [(advisoryOne, "150"), (advisoryTwo, "150")]),
    .sync (firstWindow + 100) none fun position => if position = 0 then served else unserved,
    .sync (firstWindow + 110) none fun _ => served]

theorem tied_not_passed :
    ∃ final, run exampleStep World.start tied = some final ∧ ¬ Passed number final := by
  have facts : ((run exampleStep World.start tied).map fun final =>
      (final.windowStart, final.feed.state.cursor, changes number final.rows, final.feed.stored)) =
      some (some 100, some 150, [advisoryOne, advisoryTwo], [advisoryOne]) := by decide +kernel
  obtain ⟨final, execution, facts⟩ := Option.map_eq_some_iff.mp facts
  simp only [Prod.mk.injEq] at facts
  obtain ⟨start, cursor, listed, stored⟩ := facts
  refine ⟨final, execution, fun passed => ?_⟩
  obtain ⟨done, member, same, -⟩ := passed 100 150 start cursor advisoryTwo
    (by rw [listed]; simp) (by decide) (by decide)
  rw [stored, List.mem_singleton] at member
  rw [member] at same
  exact absurd same (by decide)

/-- Two advisories that changed at two moments, and a sync. -/
def apart : List (Label (Advisory Unit)) :=
  [.publish (listing [(advisoryOne, "150"), (advisoryTwo, "160")]),
    .sync (firstWindow + 100) none fun position => if position = 0 then served else unserved]

theorem apart_passed :
    ∃ final, run exampleStep World.start apart = some final ∧ Passed number final := by
  have taken : (run exampleStep World.start apart).isSome = true := by decide +kernel
  obtain ⟨final, execution⟩ := Option.isSome_iff_exists.mp taken
  refine ⟨final, execution, passed_of_clear ?_ execution⟩
  intro published isPublished
  simp only [step, Option.ite_none_right_eq_some, Option.some.injEq] at isPublished
  obtain ⟨-, rfl⟩ := isPublished
  refine ⟨fun start cursor isStart => (nomatch isStart), fun synced _ => ⟨?_, trivial⟩⟩
  intro count positive stops
  have pendings : pending number (listing [(advisoryOne, "150"), (advisoryTwo, "160")])
      (cursorAt (World.start : World Unit).feed.state (firstWindow + 100)) =
        [advisoryOne, { advisoryTwo with changedAt := 160 }] := by decide +kernel
  refine ⟨fun _ start isStart => (nomatch isStart), ?_, ?_⟩
  · intro index below change advisory _ isChecked named
    split at isChecked
    · have isServed : checked (fun _ => "ab".toList) .ok change served =
          .ok ⟨"NCSC-2026-0001".toList, [], ()⟩ := by
        simp only [checked, served]
        rw [if_pos (by decide +kernel)]
      obtain rfl := Except.ok.inj (isServed.symm.trans isChecked)
      exact absurd named (by decide)
    · cases isChecked
  · intro read isRead left isLeft
    have isRead : read ∈ [advisoryOne, { advisoryTwo with changedAt := 160 }].take count := pendings ▸ isRead
    have isLeft : left ∈ [advisoryOne, { advisoryTwo with changedAt := 160 }].drop count := pendings ▸ isLeft
    cases count with
    | zero => exact absurd positive (Nat.lt_irrefl 0)
    | succ count =>
        cases count with
        | zero =>
            obtain rfl := List.mem_singleton.mp isRead
            obtain rfl := List.mem_singleton.mp isLeft
            decide
        | succ count =>
            rw [List.drop_succ_cons, List.drop_succ_cons, List.drop_nil] at isLeft
            cases isLeft

end Examples

end NcscAdvisories
end DomainLens
