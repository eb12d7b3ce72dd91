import DomainLens.SoftwareAdvisories
import DomainLens.Library.Table
import Mathlib

/-!
# The advisory rules an administrator adds

A stored rule is the object it was written as, under its id.  Every statement on the connection is
a transaction of its own, so an import that fails between two writes keeps the first.
-/

namespace DomainLens
namespace AdvisoryRules

open Python SoftwareAdvisories

/-! ## The store -/

/-- A row of `advisory_rules`. -/
structure Row where
  id : Text
  rule : RawRule
  enabled : Bool
  createdBy : Text
  createdAt : Text
  updatedBy : Text
  updatedAt : Text
  deriving DecidableEq

/-- The table `advisory_rules`. -/
abbrev Store := Table Row.id

/-- `MAX_RULES`. -/
def maxRules : Nat := 200

/-- Why an operation raises: `RuleError` with its problems, `LookupError`, or a statement the
database refuses. -/
inductive Failure where
  | rule (problems : List Text)
  | unknown
  | database
  deriving DecidableEq

/-- `json.loads(json.dumps(rule["public"]))`. -/
def stored (rule : Rule) : RawRule := rule.publicForm.toRaw .absent

def newRow (user now : Text) (rule : Rule) (enabled : Bool) : Row where
  id := rule.publicForm.id
  rule := stored rule
  enabled
  createdBy := user
  createdAt := now
  updatedBy := user
  updatedAt := now

/-- `INSERT INTO advisory_rules`, which fails under an id that is taken. -/
def insertRow (store : Store) (row : Row) : Option Store :=
  if fresh : store.find row.id = none then some (store.insert row fresh) else none

/-- `save`: create a rule, or replace the one with an id. -/
def save (document : Document) (ruleId : Option Text) (user now : Text) (store : Store) :
    Except Failure Store :=
  let document := match document, ruleId with
    | .object raw, some id => .object { raw with id := .text id }
    | document, _ => document
  match compileRule document false with
  | .error problems => .error (.rule problems)
  | .ok rule =>
      let id := rule.publicForm.id
      if id ∈ builtinIds then
        .error (.rule [id ++ " is a built-in rule; give the new rule an id of its own.".toList])
      else match ruleId with
      | none =>
          if (store.find id).isSome then
            .error (.rule ["A rule with id ".toList ++ id ++ " already exists.".toList])
          else if store.rows.length ≥ maxRules then
            .error (.rule ["There are already 200 rules.".toList])
          else
            match insertRow store (newRow user now rule true) with
            | none => .error .database
            | some store => .ok store
      | some _ =>
          if (store.find id).isNone then .error .unknown
          else .ok (store.update id
            (fun row => { row with rule := stored rule, updatedBy := user, updatedAt := now })
            fun _ => rfl)

/-- `set_enabled`. -/
def setEnabled (id : Text) (on : Bool) (user now : Text) (store : Store) : Except Failure Store :=
  if (store.find id).isNone then .error .unknown
  else .ok (store.update id
    (fun row => { row with enabled := on, updatedBy := user, updatedAt := now }) fun _ => rfl)

/-- `delete`. -/
def delete (id : Text) (store : Store) : Except Failure Store :=
  if (store.find id).isNone then .error .unknown
  else .ok (store.filter fun row => row.id ≠ id)

/-! ## Export and import -/

/-- `FORMAT`. -/
def format : Text := "domainlens-advisory-rules".toList

/-- `FORMAT_VERSION`. -/
def formatVersion : Rat := 1

/-- The version of a file: what `str` shows of it, and the number it equals, if any. -/
structure Version where
  shown : Text
  number : Option Rat
  deriving DecidableEq

/-- What an import is given.  The rules are `none` where they are no list. -/
inductive Payload where
  | object (format : SoftwareAdvisories.Value) (version : Version) (rules : Option (List Document))
  | other
  deriving DecidableEq

/-- `ORDER BY id`. -/
def byId (rows : List Row) : List Row := rows.insertionSort fun left right => left.id ≤ right.id

/-- `export`, the time of the export left out. -/
def exportRules (store : Store) : Payload :=
  .object (.text format) { shown := strOf 1, number := some formatVersion }
    (some ((byId store.rows).map fun row =>
      .object { row.rule with enabled := .given row.enabled }))

/-- `_payload_rules`. -/
def payloadRules : Payload → Except (List Text) (List Document)
  | .other => .error
      ["This is not a DomainLens rules file (format domainlens-advisory-rules).".toList]
  | .object given version rules =>
      if given ≠ .text format then .error
        ["This is not a DomainLens rules file (format domainlens-advisory-rules).".toList]
      else if version.number ≠ some formatVersion then .error
        ["Version ".toList ++ version.shown ++
          " of the rules file is not one this DomainLens reads (it reads 1).".toList]
      else match rules with
      | none | some [] => .error ["The file has no rules.".toList]
      | some rules =>
          if rules.length > maxRules then .error ["The file has more than 200 rules.".toList]
          else .ok rules

/-- `Rule 3 (php2shell)`. -/
def label (number : Nat) (document : Document) : Text :=
  "Rule ".toList ++ strOf number ++
    match document with
    | .object raw => if raw.id.truthy then " (".toList ++ raw.id.orEmpty ++ [')'] else []
    | .other => []

def switchOf : Document → Switch
  | .object raw => raw.enabled
  | .other => .absent

/-- The problems of a rule that compiles: its id is built in or in the file twice, or its switch
is neither on nor off. -/
def fileProblems (number : Nat) (seen : List Text) (document : Document) (id : Text) : List Text :=
  (if id ∈ builtinIds then
    [label number document ++ ": ".toList ++ id ++ " is a built-in rule.".toList]
  else refuse (id ∉ seen)
    (label number document ++ ": the id ".toList ++ id ++ " is in the file twice.".toList)) ++
  refuse (switchOf document ≠ .other)
    (label number document ++ ": enabled must be true or false.".toList)

/-- The rules of a file with whether each is on, and the problems of all of them. -/
def checkRules : Nat → List Text → List Document → List (Rule × Bool) × List Text
  | _, _, [] => ([], [])
  | number, seen, document :: documents =>
      match compileRule document false with
      | .error problems =>
          let (compiled, later) := checkRules (number + 1) seen documents
          (compiled, problems.map (label number document ++ ": ".toList ++ ·) ++ later)
      | .ok rule =>
          let id := rule.publicForm.id
          let (compiled, later) := checkRules (number + 1) (id :: seen) documents
          ((rule, switchOf document != .given false) :: compiled,
            fileProblems number seen document id ++ later)

/-- The rules of a file, or every problem in it. -/
def validate (payload : Payload) : Except (List Text) (List (Rule × Bool)) :=
  match payloadRules payload with
  | .error problems => .error problems
  | .ok documents =>
      let checked := checkRules 1 [] documents
      if checked.2 ≠ [] then .error checked.2 else .ok checked.1

structure ImportResult where
  added : List Text
  replaced : List Text
  skipped : List Text
  deriving DecidableEq

/-- The writes of an import, each a transaction of its own.  The statement `fault` counts down to,
if any, fails. -/
def importLoop (existing : List Text) (user now : Text) (replace : Bool) :
    Option Nat → List (Rule × Bool) → ImportResult → Store → Store × Except Failure ImportResult
  | _, [], result, store => (store, .ok result)
  | fault, (rule, on) :: rules, result, store =>
      let id := rule.publicForm.id
      if id ∉ existing then
        if fault = some 0 then (store, .error .database) else
          match insertRow store (newRow user now rule on) with
          | none => (store, .error .database)
          | some store =>
              importLoop existing user now replace (fault.map (· - 1)) rules
                { result with added := result.added ++ [id] } store
      else if replace then
        if fault = some 0 then (store, .error .database) else
          importLoop existing user now replace (fault.map (· - 1)) rules
            { result with replaced := result.replaced ++ [id] }
            (store.update id
              (fun row =>
                { row with rule := stored rule, enabled := on, updatedBy := user, updatedAt := now })
              fun _ => rfl)
      else
        importLoop existing user now replace fault rules
          { result with skipped := result.skipped ++ [id] } store

/-- `import_rules`, with the statement that fails, if any: the first one reads the ids. -/
def importRules (fault : Option Nat) (payload : Payload) (user now : Text) (replace : Bool)
    (store : Store) : Store × Except Failure ImportResult :=
  match validate payload with
  | .error problems => (store, .error (.rule problems))
  | .ok rules =>
      if fault = some 0 then (store, .error .database) else
        let existing := store.rows.map Row.id
        let new := rules.filter fun rule => rule.1.publicForm.id ∉ existing
        if existing.length + new.length > maxRules then
          (store, .error (.rule ["Importing would make more than 200 rules.".toList]))
        else
          importLoop existing user now replace (fault.map (· - 1)) rules
            { added := [], replaced := [], skipped := [] } store

/-! ## The writes of an import -/

def ruleIdOf (rule : Rule × Bool) : Text := rule.1.publicForm.id

/-- The row a write leaves in place of an old one, if any. -/
def written (user now : Text) (old : Option Row) (rule : Rule × Bool) : Row :=
  match old with
  | none => newRow user now rule.1 rule.2
  | some row =>
      { row with rule := stored rule.1, enabled := rule.2, updatedBy := user, updatedAt := now }

def write (user now : Text) (store : Store) (rule : Rule × Bool) : Store :=
  store.upsert (newRow user now rule.1 rule.2)
    (fun row =>
      { row with rule := stored rule.1, enabled := rule.2, updatedBy := user, updatedAt := now })
    fun _ => rfl

/-- The rules an import writes: those whose id is not stored, and with `replace` the others. -/
def writes (store : Store) (replace : Bool) (rules : List (Rule × Bool)) : List (Rule × Bool) :=
  rules.filter fun rule => (store.find (ruleIdOf rule)).isNone || replace

/-- The writes before the one that fails. -/
def executed (fault : Option Nat) (due : List (Rule × Bool)) : List (Rule × Bool) :=
  match fault with
  | none => due
  | some count => due.take count

def interrupted (fault : Option Nat) (due : List (Rule × Bool)) : Bool :=
  fault.any fun count => count < due.length

section Writes

variable {user now : Text}

theorem find_write {store : Store} {rule : Rule × Bool} {id : Text} :
    (write user now store rule).find id =
      if id = ruleIdOf rule then some (written user now (store.find id) rule)
      else store.find id := by
  rw [write, Table.find_upsert]
  cases store.find id <;> rfl

theorem find_writes (user now : Text) (store : Store) {due : List (Rule × Bool)}
    (distinct : (due.map ruleIdOf).Nodup) (id : Text) :
    (due.foldl (write user now) store).find id =
      match due.find? fun rule => ruleIdOf rule = id with
      | some rule => some (written user now (store.find id) rule)
      | none => store.find id := by
  induction due generalizing store with
  | nil => rfl
  | cons rule due induction =>
      obtain ⟨new, rest⟩ := List.nodup_cons.mp distinct
      rw [List.foldl_cons, induction (write user now store rule) rest, find_write]
      by_cases same : ruleIdOf rule = id
      · have absent : (due.find? fun other => ruleIdOf other = id) = none := by
          rw [List.find?_eq_none]
          intro other member held
          exact new (List.mem_map.mpr ⟨other, member, by simpa [same] using held⟩)
        rw [absent, List.find?_cons_of_pos (by simpa using same), if_pos same.symm]
      · rw [List.find?_cons_of_neg (by simpa using same), if_neg (Ne.symm same)]

theorem length_write (store : Store) (rule : Rule × Bool) :
    (write user now store rule).rows.length =
      store.rows.length + if store.find (ruleIdOf rule) = none then 1 else 0 :=
  Table.length_upsert _

private theorem insertRow_eq (user now : Text) {store : Store} {rule : Rule × Bool}
    (fresh : store.find (ruleIdOf rule) = none) :
    insertRow store (newRow user now rule.1 rule.2) = some (write user now store rule) := by
  have fresh' : store.find (newRow user now rule.1 rule.2).id = none := fresh
  rw [insertRow, dif_pos fresh', write, Table.upsert, dif_pos fresh']

private theorem update_eq (user now : Text) {store : Store} {rule : Rule × Bool}
    (taken : store.find (ruleIdOf rule) ≠ none) :
    store.update (ruleIdOf rule) (fun row =>
        { row with rule := stored rule.1, enabled := rule.2, updatedBy := user, updatedAt := now })
      (fun _ => rfl) = write user now store rule := by
  have taken' : store.find (newRow user now rule.1 rule.2).id ≠ none := taken
  rw [write, Table.upsert, dif_neg taken']
  rfl

theorem importLoop_eq {replace : Bool} {existing : List Text} {fault : Option Nat}
    {rules : List (Rule × Bool)} {result : ImportResult} {store : Store}
    (distinct : (rules.map ruleIdOf).Nodup)
    (known : ∀ rule ∈ rules, ruleIdOf rule ∈ existing ↔ store.find (ruleIdOf rule) ≠ none) :
    ∃ reported, importLoop existing user now replace fault rules result store =
      ((executed fault (writes store replace rules)).foldl (write user now) store,
        if interrupted fault (writes store replace rules) then .error .database
        else .ok reported) := by
  induction rules generalizing fault result store with
  | nil => exact ⟨result, by cases fault <;> simp [importLoop, writes, executed, interrupted]⟩
  | cons rule rules induction =>
      obtain ⟨new, rest⟩ := List.nodup_cons.mp distinct
      have here := known rule List.mem_cons_self
      have later : ∀ other ∈ rules, ruleIdOf other ∈ existing ↔
          store.find (ruleIdOf other) ≠ none :=
        fun other member => known other (List.mem_cons_of_mem rule member)
      have other_find : ∀ other ∈ rules,
          (write user now store rule).find (ruleIdOf other) = store.find (ruleIdOf other) := by
        intro other member
        rw [find_write, if_neg]
        exact fun same => new (List.mem_map.mpr ⟨other, member, same⟩)
      have sameWrites : writes (write user now store rule) replace rules =
          writes store replace rules :=
        List.filter_congr fun other member => by rw [other_find other member]
      have known' : ∀ other ∈ rules, ruleIdOf other ∈ existing ↔
          (write user now store rule).find (ruleIdOf other) ≠ none :=
        fun other member => by rw [other_find other member, later other member]
      have writing : (replace = true ∨ store.find (ruleIdOf rule) = none) →
          writes store replace (rule :: rules) = rule :: writes store replace rules := by
        intro due
        rw [writes, List.filter_cons_of_pos (by
          rcases due with replaced | fresh
          · simp [replaced]
          · simp [fresh])]
        rfl
      -- A write takes one statement: the one that fails is that much nearer.
      have step : ∀ told : ImportResult, (replace = true ∨ store.find (ruleIdOf rule) = none) →
          ∃ reported, (if fault = some 0 then (store, .error .database) else
              importLoop existing user now replace (fault.map (· - 1)) rules told
                (write user now store rule)) =
            ((executed fault (writes store replace (rule :: rules))).foldl (write user now) store,
              if interrupted fault (writes store replace (rule :: rules)) then .error .database
              else .ok reported) := by
        intro told due
        rw [writing due]
        obtain ⟨reported, spec⟩ := @induction (fault.map (· - 1)) told (write user now store rule)
          rest known'
        rw [sameWrites] at spec
        refine ⟨reported, ?_⟩
        rcases fault with _ | _ | count
        · exact spec
        · rfl
        · rw [if_neg (by simp)]
          simpa [executed, interrupted] using spec
      rw [importLoop]
      split
      · rename_i unknown
        have fresh : store.find (ruleIdOf rule) = none := not_not.mp ((not_congr here).mp unknown)
        obtain ⟨reported, spec⟩ := step { result with added := result.added ++ [ruleIdOf rule] }
          (.inr fresh)
        refine ⟨reported, ?_⟩
        rw [← spec, insertRow_eq user now fresh]
        rfl
      · rename_i stored
        have taken : store.find (ruleIdOf rule) ≠ none := here.mp (not_not.mp stored)
        split
        · rename_i replaced
          obtain ⟨reported, spec⟩ := step
            { result with replaced := result.replaced ++ [ruleIdOf rule] } (.inl replaced)
          refine ⟨reported, ?_⟩
          rw [← spec, ← update_eq user now taken]
          rfl
        · rename_i kept
          have skipped : writes store replace (rule :: rules) = writes store replace rules := by
            rw [writes, List.filter_cons_of_neg (by simp [kept, taken])]
            rfl
          rw [skipped]
          exact induction rest later

end Writes

/-! ## What validation accepts -/

/-- Rules a file may hold: compiled, of different ids, and none built in. -/
structure Importable (rules : List (Rule × Bool)) : Prop where
  distinct : (rules.map ruleIdOf).Nodup
  compiled : ∀ rule ∈ rules, ∃ document, compileRule document false = .ok rule.1
  custom : ∀ rule ∈ rules, ruleIdOf rule ∉ builtinIds

private theorem fileProblems_eq_nil {number : Nat} {seen : List Text} {document : Document}
    {id : Text} (sound : fileProblems number seen document id = []) :
    id ∉ builtinIds ∧ id ∉ seen := by
  obtain ⟨ids, _⟩ := List.append_eq_nil_iff.mp sound
  split at ids
  · cases ids
  · rename_i custom
    refine ⟨custom, ?_⟩
    simpa [refuse] using ids

private theorem importable_of_checkRules {number : Nat} {seen : List Text}
    {documents : List Document} (sound : (checkRules number seen documents).2 = []) :
    Importable (checkRules number seen documents).1 ∧
      ∀ rule ∈ (checkRules number seen documents).1, ruleIdOf rule ∉ seen := by
  induction documents generalizing number seen with
  | nil => exact ⟨⟨List.nodup_nil, by simp [checkRules], by simp [checkRules]⟩, by simp [checkRules]⟩
  | cons document documents induction =>
      rw [checkRules] at sound ⊢
      split at sound
      · exact induction (List.append_eq_nil_iff.mp sound).2
      · rename_i rule compiled
        obtain ⟨own, rest⟩ := List.append_eq_nil_iff.mp sound
        obtain ⟨custom, unseen⟩ := fileProblems_eq_nil own
        obtain ⟨later, apart⟩ := induction rest
        refine ⟨⟨?_, ?_, ?_⟩, ?_⟩
        · refine List.nodup_cons.mpr ⟨fun member => ?_, later.distinct⟩
          obtain ⟨other, held, same⟩ := List.mem_map.mp member
          exact apart other held (by rw [same]; exact List.mem_cons_self)
        · intro other member
          rcases List.mem_cons.mp member with rfl | held
          · exact ⟨document, compiled⟩
          · exact later.compiled other held
        · intro other member
          rcases List.mem_cons.mp member with rfl | held
          · exact custom
          · exact later.custom other held
        · intro other member
          rcases List.mem_cons.mp member with rfl | held
          · exact unseen
          · exact fun old => apart other held (List.mem_cons_of_mem _ old)

theorem importable_of_validate {payload : Payload} {rules : List (Rule × Bool)}
    (valid : validate payload = .ok rules) : Importable rules := by
  unfold validate at valid
  split at valid
  · cases valid
  · dsimp only at valid
    split at valid
    · cases valid
    · rename_i sound
      obtain rfl := Except.ok.inj valid
      exact (importable_of_checkRules (not_not.mp sound)).1

/-! ## All or nothing -/

def Row.Usable (row : Row) : Prop :=
  row.id ∉ builtinIds ∧ (compileRule (.object row.rule) false).isOk = true

instance (row : Row) : Decidable row.Usable := inferInstanceAs (Decidable (_ ∧ _))

/-- An import that fails leaves the store as it was; one that succeeds leaves at most 200 rules,
none under a built-in id, and each of which compiles. -/
def AllOrNothing (store : Store) (outcome : Store × Except Failure ImportResult) : Prop :=
  match outcome.2 with
  | .error _ => outcome.1 = store
  | .ok _ => outcome.1.rows.length ≤ maxRules ∧ ∀ row ∈ outcome.1.rows, row.Usable

def newRules (store : Store) (rules : List (Rule × Bool)) : List (Rule × Bool) :=
  rules.filter fun rule => ruleIdOf rule ∉ store.rows.map Row.id

/-- A write that leaves the row as it is stored. -/
def Rewrites (user now : Text) (store : Store) (rule : Rule × Bool) : Prop :=
  store.find (ruleIdOf rule) = some (written user now (store.find (ruleIdOf rule)) rule)

/-- The condition on an import: when a write fails, those before it changed nothing; when none
does, the stored rules the file does not replace are ones a scan can use. -/
def Unbroken (fault : Option Nat) (payload : Payload) (user now : Text) (replace : Bool)
    (store : Store) : Prop :=
  ∀ rules, validate payload = .ok rules → fault ≠ some 0 →
    store.rows.length + (newRules store rules).length ≤ maxRules →
      if interrupted (fault.map (· - 1)) (writes store replace rules) then
        ∀ rule ∈ executed (fault.map (· - 1)) (writes store replace rules),
          Rewrites user now store rule
      else
        ∀ row ∈ store.rows, row.Usable ∨ replace = true ∧ row.id ∈ rules.map ruleIdOf

section Import

variable {user now : Text} {replace : Bool} {store : Store}

private theorem writes_eq_self {due : List (Rule × Bool)}
    (rewrites : ∀ rule ∈ due, Rewrites user now store rule) :
    due.foldl (write user now) store = store := by
  induction due with
  | nil => rfl
  | cons rule due induction =>
      have same : write user now store rule = store := by
        have held := rewrites rule List.mem_cons_self
        rw [Rewrites] at held
        cases found : store.find (ruleIdOf rule) with
        | none => simp [found] at held
        | some row =>
            rw [found] at held
            exact Table.upsert_eq_self _ found (Option.some.inj held).symm
      rw [List.foldl_cons, same]
      exact induction fun other member => rewrites other (List.mem_cons_of_mem rule member)

private theorem writes_eq_self_iff {due : List (Rule × Bool)}
    (distinct : (due.map ruleIdOf).Nodup) :
    due.foldl (write user now) store = store ↔ ∀ rule ∈ due, Rewrites user now store rule := by
  refine ⟨fun same rule member => ?_, writes_eq_self⟩
  have read := find_writes user now store distinct (ruleIdOf rule)
  have first : (due.find? fun other => ruleIdOf other = ruleIdOf rule) = some rule := by
    obtain ⟨other, found⟩ := Option.isSome_iff_exists.mp
      (List.find?_isSome.mpr ⟨rule, member, by simp⟩ :
        (due.find? fun other => ruleIdOf other = ruleIdOf rule).isSome = true)
    have held : ruleIdOf other = ruleIdOf rule := by simpa using List.find?_some found
    rw [found, List.inj_on_of_nodup_map distinct (List.mem_of_find?_eq_some found) member held]
  rw [same, first] at read
  exact read

private theorem length_writes {due : List (Rule × Bool)} (distinct : (due.map ruleIdOf).Nodup) :
    (due.foldl (write user now) store).rows.length =
      store.rows.length + (due.filter fun rule => store.find (ruleIdOf rule) = none).length := by
  induction due generalizing store with
  | nil => rfl
  | cons rule due induction =>
      obtain ⟨new, rest⟩ := List.nodup_cons.mp distinct
      have same : (due.filter fun other => (write user now store rule).find (ruleIdOf other) = none) =
          due.filter fun other => store.find (ruleIdOf other) = none := by
        refine List.filter_congr fun other member => ?_
        rw [find_write, if_neg fun same => new (List.mem_map.mpr ⟨other, member, same⟩)]
      rw [List.foldl_cons, induction rest, same, length_write, List.filter_cons]
      by_cases fresh : store.find (ruleIdOf rule) = none
      · simp only [fresh, decide_true, if_true, List.length_cons]
        omega
      · simp [fresh]

private theorem mem_ids_iff {id : Text} : id ∈ store.rows.map Row.id ↔ store.find id ≠ none := by
  rw [ne_eq, Table.find_eq_none, List.mem_map]
  push Not
  rfl

private theorem executed_of_not_interrupted {fault : Option Nat} {due : List (Rule × Bool)}
    (whole : interrupted fault due = false) : executed fault due = due := by
  cases fault with
  | none => rfl
  | some count => exact List.take_of_length_le (by simpa [interrupted] using whole)

theorem executed_sublist (fault : Option Nat) (due : List (Rule × Bool)) :
    (executed fault due).Sublist due := by
  cases fault with
  | none => exact List.Sublist.refl due
  | some count => exact List.take_sublist count due

private theorem usable_written {rules : List (Rule × Bool)} (importable : Importable rules)
    {rule : Rule × Bool} (member : rule ∈ rules) {row : Row} (same : ruleIdOf rule = row.id)
    (left : row.rule = stored rule.1) : row.Usable := by
  obtain ⟨document, compiled⟩ := importable.compiled rule member
  refine ⟨same ▸ importable.custom rule member, ?_⟩
  rw [left, stored, compileRule_toRaw compiled]
  rfl

private theorem usable_writes_iff {rules : List (Rule × Bool)} (importable : Importable rules) :
    (∀ row ∈ ((writes store replace rules).foldl (write user now) store).rows, row.Usable) ↔
      ∀ row ∈ store.rows, row.Usable ∨ replace = true ∧ row.id ∈ rules.map ruleIdOf := by
  have distinct : ((writes store replace rules).map ruleIdOf).Nodup :=
    importable.distinct.sublist (List.filter_sublist.map ruleIdOf)
  have due : ∀ rule, rule ∈ writes store replace rules ↔
      rule ∈ rules ∧ (store.find (ruleIdOf rule) = none ∨ replace = true) := by
    intro rule
    simp [writes]
  constructor
  · intro usable row member
    by_cases replaced : replace = true ∧ row.id ∈ rules.map ruleIdOf
    · exact .inr replaced
    · have untouched : ((writes store replace rules).find? fun rule => ruleIdOf rule = row.id) =
          none := by
        rw [List.find?_eq_none]
        intro rule isDue same
        obtain ⟨given, fresh | on⟩ := (due rule).mp isDue
        · rw [of_decide_eq_true same, Table.find_of_mem member] at fresh
          cases fresh
        · exact replaced ⟨on, List.mem_map.mpr ⟨rule, given, of_decide_eq_true same⟩⟩
      have read := find_writes user now store distinct row.id
      rw [untouched, Table.find_of_mem member] at read
      exact .inl (usable row (Table.mem_of_find read))
  · intro usable row member
    have read := find_writes user now store distinct row.id
    rw [Table.find_of_mem member] at read
    split at read
    · rename_i rule found
      have isDue := ((due rule).mp (List.mem_of_find?_eq_some found)).1
      have same : ruleIdOf rule = row.id := by simpa using List.find?_some found
      refine usable_written importable isDue same ?_
      rw [Option.some.inj read]
      cases store.find (Row.id _) <;> rfl
    · rename_i untouched
      rcases usable row (Table.mem_of_find read.symm) with held | ⟨on, given⟩
      · exact held
      · obtain ⟨rule, isRule, same⟩ := List.mem_map.mp given
        have isDue := (due rule).mpr ⟨isRule, .inr on⟩
        exact absurd (List.find?_eq_none.mp untouched rule isDue) (by simp [same])

end Import

theorem importRules_of_valid {fault : Option Nat} {payload : Payload} {rules : List (Rule × Bool)}
    (user now : Text) (replace : Bool) {store : Store} (valid : validate payload = .ok rules)
    (later : fault ≠ some 0)
    (fits : store.rows.length + (newRules store rules).length ≤ maxRules) :
    ∃ reported, importRules fault payload user now replace store =
      ((executed (fault.map (· - 1)) (writes store replace rules)).foldl (write user now) store,
        if interrupted (fault.map (· - 1)) (writes store replace rules) then .error .database
        else .ok reported) := by
  obtain ⟨reported, spec⟩ := @importLoop_eq user now replace (store.rows.map Row.id)
    (fault.map (· - 1)) rules { added := [], replaced := [], skipped := [] } store
    (importable_of_validate valid).distinct fun _ _ => mem_ids_iff
  have within : ¬ store.rows.length + (rules.filter fun rule =>
      rule.1.publicForm.id ∉ store.rows.map Row.id).length > maxRules := Nat.not_lt.mpr fits
  refine ⟨reported, ?_⟩
  rw [importRules, valid]
  dsimp only
  rw [if_neg later, List.length_map, if_neg within, spec]

theorem importRules_of_refused {fault : Option Nat} {payload : Payload} (user now : Text)
    (replace : Bool) {store : Store}
    (refused : ¬ ∃ rules, validate payload = .ok rules ∧ fault ≠ some 0 ∧
      store.rows.length + (newRules store rules).length ≤ maxRules) :
    ∃ failure, importRules fault payload user now replace store = (store, .error failure) := by
  rw [importRules]
  cases valid : validate payload with
  | error problems => exact ⟨_, rfl⟩
  | ok rules =>
      dsimp only
      split
      · exact ⟨_, rfl⟩
      · rename_i later
        rw [List.length_map]
        split
        · exact ⟨_, rfl⟩
        · rename_i fits
          exact absurd ⟨rules, valid, later, Nat.not_lt.mp fits⟩ refused

theorem length_imported_le {replace : Bool} {store : Store} {rules : List (Rule × Bool)}
    (user now : Text) (fault : Option Nat) (distinct : (rules.map ruleIdOf).Nodup)
    (fits : store.rows.length + (newRules store rules).length ≤ maxRules) :
    ((executed fault (writes store replace rules)).foldl (write user now) store).rows.length ≤
      maxRules := by
  have cut : (executed fault (writes store replace rules)).Sublist rules :=
    (executed_sublist fault _).trans List.filter_sublist
  have new : newRules store rules = rules.filter fun rule => store.find (ruleIdOf rule) = none := by
    refine List.filter_congr fun rule _ => ?_
    by_cases fresh : store.find (ruleIdOf rule) = none <;> simp [fresh, mem_ids_iff, -List.mem_map]
  rw [length_writes (distinct.sublist (cut.map ruleIdOf))]
  have fewer := (cut.filter fun rule => store.find (ruleIdOf rule) = none).length_le
  rw [new] at fits
  omega

/-- An import is all or nothing exactly where no write before one that fails changes a row, and
where a finished import leaves no stored rule that a scan cannot use. -/
theorem allOrNothing_iff_unbroken (fault : Option Nat) (payload : Payload) (user now : Text)
    (replace : Bool) (store : Store) :
    AllOrNothing store (importRules fault payload user now replace store) ↔
      Unbroken fault payload user now replace store := by
  by_cases writing : ∃ rules, validate payload = .ok rules ∧ fault ≠ some 0 ∧
      store.rows.length + (newRules store rules).length ≤ maxRules
  · obtain ⟨rules, valid, later, fits⟩ := writing
    have importable := importable_of_validate valid
    have unbroken : Unbroken fault payload user now replace store ↔
        if interrupted (fault.map (· - 1)) (writes store replace rules) then
          ∀ rule ∈ executed (fault.map (· - 1)) (writes store replace rules),
            Rewrites user now store rule
        else
          ∀ row ∈ store.rows, row.Usable ∨ replace = true ∧ row.id ∈ rules.map ruleIdOf := by
      refine ⟨fun held => held rules valid later fits, ?_⟩
      intro held others same _ _
      obtain rfl := Except.ok.inj (valid.symm.trans same)
      exact held
    obtain ⟨reported, spec⟩ := importRules_of_valid user now replace valid later fits
    have bound := @length_imported_le replace store rules user now (fault.map (· - 1))
      importable.distinct fits
    rw [spec, unbroken]
    cases cut : interrupted (fault.map (· - 1)) (writes store replace rules) with
    | true =>
        rw [if_pos rfl, if_pos rfl]
        exact writes_eq_self_iff (importable.distinct.sublist
          (((executed_sublist _ _).trans List.filter_sublist).map ruleIdOf))
    | false =>
        rw [executed_of_not_interrupted cut] at bound ⊢
        rw [if_neg (by simp), if_neg (by simp)]
        exact (and_iff_right bound).trans (usable_writes_iff importable)
  · obtain ⟨failure, spec⟩ := importRules_of_refused user now replace writing
    rw [spec]
    have vacuous : Unbroken fault payload user now replace store :=
      fun rules valid later fits => absurd ⟨rules, valid, later, fits⟩ writing
    simp [AllOrNothing, vacuous]

def nginxRule (id : Text) : RawRule where
  id := .text id
  name := .text "Old nginx".toList
  product := .text "nginx".toList
  token := .text "nginx".toList
  severity := .text "high".toList
  published := .text []
  summary := .text "Request smuggling.".toList
  impact := .text []
  fix := .text []
  check := .text []
  sources := .texts ["server".toList]
  seenCookies := .texts []
  seenPaths := .texts []
  cves := .texts ["CVE-2026-12345".toList]
  references := .texts []
  fixed := .texts ["1.25.3".toList]
  olderBranches := .text []
  introduced := .text []
  enabled := .absent

def fileOf (rules : List RawRule) : Payload :=
  .object (.text format) { shown := ['1'], number := some 1 } (some (rules.map .object))

/-- A file of two rules, the second of which the database refuses, leaves the first. -/
theorem nginxImport_not_allOrNothing :
    ¬ AllOrNothing Table.empty (importRules (some 2)
      (fileOf [nginxRule "nginx-a".toList, nginxRule "nginx-b".toList])
      "ann".toList "2026-10-21".toList false Table.empty) := by
  have refused : (importRules (some 2)
        (fileOf [nginxRule "nginx-a".toList, nginxRule "nginx-b".toList])
        "ann".toList "2026-10-21".toList false Table.empty).2 = .error .database ∧
      (importRules (some 2)
        (fileOf [nginxRule "nginx-a".toList, nginxRule "nginx-b".toList])
        "ann".toList "2026-10-21".toList false Table.empty).1.rows.length ≠ 0 := by
    simp (disch := rfl) only [nginxRule, toList_literal]
    decide +kernel
  obtain ⟨failed, written⟩ := refused
  rw [AllOrNothing, failed]
  exact fun same => written (congrArg (fun store : Store => store.rows.length) same)

end AdvisoryRules
end DomainLens
