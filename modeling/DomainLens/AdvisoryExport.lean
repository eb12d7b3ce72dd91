import DomainLens.AdvisoryRules
import DomainLens.Library.Run

/-!
# Exporting rules and importing them

Whatever was done to a store, its rules are the data of compiled rules.  Exporting them and importing
the file into an empty store gives the same rules under the same ids, on and off as they were.
-/

namespace DomainLens
namespace AdvisoryRules

open Python SoftwareAdvisories

/-! ## Runs -/

/-- What changes a store, with what the operation is given. -/
inductive Operation where
  | save (document : Document) (ruleId : Option Text) (user now : Text)
  | setEnabled (id : Text) (on : Bool) (user now : Text)
  | delete (id : Text)
  | importRules (fault : Option Nat) (payload : Payload) (user now : Text) (replace : Bool)

/-- The store after an operation, which a refused one leaves as it was. -/
def perform (store : Store) : Operation → Store
  | .save document ruleId user now => (save document ruleId user now store).toOption.getD store
  | .setEnabled id on user now => (setEnabled id on user now store).toOption.getD store
  | .delete id => (delete id store).toOption.getD store
  | .importRules fault payload user now replace =>
      (importRules fault payload user now replace store).1

def step (store : Store) (operation : Operation) : Option Store := some (perform store operation)

/-- A row that holds the data of a rule that compiled, under the rule's id. -/
def Row.Compiled (row : Row) : Prop :=
  row.id ∉ builtinIds ∧ ∃ document rule, compileRule document false = .ok rule ∧
    row.id = rule.publicForm.id ∧ row.rule = stored rule

/-- What every store reached from an empty one is like. -/
structure Sound (store : Store) : Prop where
  few : store.rows.length ≤ maxRules
  compiled : ∀ id row, store.find id = some row → row.Compiled

private theorem sound_empty : Sound Table.empty where
  few := by decide
  compiled _ _ found := by cases found

private theorem sound_update {store : Store} {id : Text} {change : Row → Row}
    {keeps : ∀ row, (change row).id = row.id} (sound : Sound store)
    (changed : ∀ row, store.find id = some row → (change row).Compiled) :
    Sound (store.update id change keeps) where
  few := by simpa [Table.update] using sound.few
  compiled other row found := by
    rw [Table.find_update] at found
    split at found
    · obtain ⟨old, held, rfl⟩ := Option.map_eq_some_iff.mp found
      exact changed old held
    · exact sound.compiled other row found

private theorem sound_save {store next : Store} {document : Document} {ruleId : Option Text}
    {user now : Text} (sound : Sound store)
    (saved : save document ruleId user now store = .ok next) : Sound next := by
  unfold save at saved
  dsimp only at saved
  split at saved
  · cases saved
  · rename_i rule compiled
    split at saved
    · cases saved
    · rename_i custom
      split at saved
      · split at saved
        · cases saved
        · split at saved
          · cases saved
          · rename_i free few
            split at saved
            · cases saved
            · rename_i inserted
              obtain rfl := Except.ok.inj saved
              unfold insertRow at inserted
              split at inserted
              · obtain rfl := Option.some.inj inserted
                refine ⟨?_, fun id row found => ?_⟩
                · simp only [Table.insert, List.length_append, List.length_singleton]
                  omega
                · rw [Table.find_insert] at found
                  split at found
                  · obtain rfl := Option.some.inj found
                    exact ⟨custom, _, rule, compiled, rfl, rfl⟩
                  · exact sound.compiled id row found
              · cases inserted
      · split at saved
        · cases saved
        · obtain rfl := Except.ok.inj saved
          refine sound_update sound fun row found => ?_
          have same := Table.key_of_find found
          exact ⟨same ▸ custom, _, rule, compiled, same, rfl⟩

private theorem sound_setEnabled {store next : Store} {id : Text} {on : Bool} {user now : Text}
    (sound : Sound store) (switched : setEnabled id on user now store = .ok next) :
    Sound next := by
  unfold setEnabled at switched
  split at switched
  · cases switched
  · obtain rfl := Except.ok.inj switched
    exact sound_update sound fun row found => sound.compiled id row found

private theorem sound_delete {store next : Store} {id : Text} (sound : Sound store)
    (deleted : delete id store = .ok next) : Sound next := by
  unfold delete at deleted
  split at deleted
  · cases deleted
  · obtain rfl := Except.ok.inj deleted
    refine ⟨Nat.le_trans (List.length_filter_le _ _) sound.few, fun other row found => ?_⟩
    rw [Table.find_filter, Option.filter_eq_some_iff] at found
    exact sound.compiled other row found.1

private theorem sound_import {store : Store} {fault : Option Nat} {payload : Payload}
    {user now : Text} {replace : Bool} (sound : Sound store) :
    Sound (importRules fault payload user now replace store).1 := by
  by_cases writing : ∃ rules, validate payload = .ok rules ∧ fault ≠ some 0 ∧
      store.rows.length + (newRules store rules).length ≤ maxRules
  · obtain ⟨rules, valid, later, fits⟩ := writing
    have importable := importable_of_validate valid
    obtain ⟨reported, spec⟩ := importRules_of_valid user now replace valid later fits
    rw [spec]
    have cut := (executed_sublist (fault.map (· - 1)) (writes store replace rules)).trans
      List.filter_sublist
    refine ⟨length_imported_le user now _ importable.distinct fits, fun id row found => ?_⟩
    rw [find_writes user now store (importable.distinct.sublist (cut.map ruleIdOf))] at found
    split at found
    · rename_i rule isFirst
      have isRule := cut.subset (List.mem_of_find?_eq_some isFirst)
      have same : ruleIdOf rule = id := by simpa using List.find?_some isFirst
      obtain ⟨document, compiled⟩ := importable.compiled rule isRule
      obtain rfl := Option.some.inj found
      have identified : (written user now (store.find id) rule).id = ruleIdOf rule := by
        cases held : store.find id with
        | none => rfl
        | some old => exact (Table.key_of_find held).trans same.symm
      refine ⟨identified ▸ importable.custom rule isRule, document, rule.1, compiled,
        identified, ?_⟩
      cases store.find id <;> rfl
    · exact sound.compiled id row found
  · obtain ⟨failure, spec⟩ := importRules_of_refused user now replace writing
    rw [spec]
    exact sound

private theorem sound_perform {store : Store} (operation : Operation) (sound : Sound store) :
    Sound (perform store operation) := by
  have kept : ∀ outcome : Except Failure Store, (∀ next, outcome = .ok next → Sound next) →
      Sound (outcome.toOption.getD store) := by
    intro outcome done
    cases outcome with
    | error failure => exact sound
    | ok next => exact done next rfl
  cases operation with
  | save document ruleId user now => exact kept _ fun _ => sound_save sound
  | setEnabled id on user now => exact kept _ fun _ => sound_setEnabled sound
  | delete id => exact kept _ fun _ => sound_delete sound
  | importRules fault payload user now replace => exact sound_import sound

theorem sound_of_run {operations : List Operation} {store : Store}
    (execution : Run.run step Table.empty operations = some store) : Sound store :=
  Run.run_invariant
    (fun _ operation _ sound taken => Option.some.inj taken ▸ sound_perform operation sound)
    sound_empty execution

/-! ## Reading an export -/

/-- What of a row is exported: its id, its rule and whether it is on. -/
def Row.content (row : Row) : Text × RawRule × Bool := (row.id, row.rule, row.enabled)

/-- Two stores hold the same rules under the same ids, on and off alike. -/
def SameRules (left right : Store) : Prop :=
  ∀ id, (left.find id).map Row.content = (right.find id).map Row.content

/-- A list of texts without repetition. -/
def Entries.Distinct : SoftwareAdvisories.Entries → Prop
  | .texts values => values.Nodup
  | .other _ => True

instance : ∀ entries, Decidable (Entries.Distinct entries)
  | .texts values => inferInstanceAs (Decidable values.Nodup)
  | .other _ => .isTrue trivial

/-- No list of a rule that is folded to one case holds an entry twice. -/
def Row.Distinct (row : Row) : Prop :=
  Entries.Distinct row.rule.sources ∧ Entries.Distinct row.rule.seenCookies ∧
    Entries.Distinct row.rule.seenPaths ∧ Entries.Distinct row.rule.cves

instance (row : Row) : Decidable row.Distinct := inferInstanceAs (Decidable (_ ∧ _ ∧ _ ∧ _))

/-- What an import of a row's rule writes. -/
private def contentOf (rule : Rule × Bool) : Text × RawRule × Bool :=
  (ruleIdOf rule, stored rule.1, rule.2)

private theorem compile_exported {row : Row} (compiled : row.Compiled) (distinct : row.Distinct) :
    ∃ rule, compileRule (.object { row.rule with enabled := .given row.enabled }) false = .ok rule ∧
      contentOf (rule, row.enabled) = row.content ∧ row.id = rule.publicForm.id ∧
      row.id ∉ builtinIds := by
  obtain ⟨custom, document, rule, isRule, identified, holds⟩ := compiled
  have lists : rule.publicForm.Distinct := by
    rw [Row.Distinct, holds] at distinct
    exact distinct
  have again := compileRule_toRaw isRule (.given row.enabled) false
  rw [PublicRule.distinct_of_distinct lists] at again
  refine ⟨{ rule with builtin := false }, ?_, ?_, identified, custom⟩
  · rw [holds]
    exact again
  · rw [contentOf, Row.content, holds, identified]
    rfl

/-- The file of an export, without the times. -/
private def exported (rows : List Row) : List Document :=
  rows.map fun row => .object { row.rule with enabled := .given row.enabled }

private theorem checkRules_exported {rows : List Row} {number : Nat} {seen : List Text}
    (compiled : ∀ row ∈ rows, row.Compiled) (distinct : ∀ row ∈ rows, row.Distinct)
    (ids : (rows.map Row.id).Nodup) (unseen : ∀ row ∈ rows, row.id ∉ seen) :
    ∃ rules, checkRules number seen (exported rows) = (rules, []) ∧
      rules.map contentOf = rows.map Row.content := by
  induction rows generalizing number seen with
  | nil => exact ⟨[], rfl, rfl⟩
  | cons row rows induction =>
      obtain ⟨new, rest⟩ := List.nodup_cons.mp ids
      obtain ⟨rule, compiles, content, identified, custom⟩ :=
        compile_exported (compiled row List.mem_cons_self) (distinct row List.mem_cons_self)
      have later : ∀ other ∈ rows, other.id ∉ rule.publicForm.id :: seen := by
        intro other member held
        rcases List.mem_cons.mp held with same | old
        · exact new (List.mem_map.mpr ⟨other, member, same.trans identified.symm⟩)
        · exact unseen other (List.mem_cons_of_mem row member) old
      obtain ⟨rules, checked, contents⟩ := @induction (number + 1) (rule.publicForm.id :: seen)
        (fun other member => compiled other (List.mem_cons_of_mem row member))
        (fun other member => distinct other (List.mem_cons_of_mem row member)) rest later
      have sound : fileProblems number seen
          (.object { row.rule with enabled := .given row.enabled }) rule.publicForm.id = [] := by
        rw [← identified, fileProblems, if_neg custom]
        simp [refuse, unseen row List.mem_cons_self, switchOf]
      have switched : (Switch.given row.enabled != .given false) = row.enabled := by
        cases row.enabled <;> rfl
      refine ⟨(rule, row.enabled) :: rules, ?_, ?_⟩
      · rw [exported, List.map_cons, checkRules, compiles]
        change (let checked := checkRules (number + 1) (rule.publicForm.id :: seen) (exported rows)
          ((rule, Switch.given row.enabled != .given false) :: checked.1, _ ++ checked.2)) = _
        rw [checked, sound, switched]
        rfl
      · rw [List.map_cons, List.map_cons, content, contents]

private theorem find_of_content {rules : List (Rule × Bool)} {rows : List Row}
    (contents : rules.map contentOf = rows.map Row.content) (id : Text) :
    (rules.find? fun rule => ruleIdOf rule = id).map contentOf =
      (rows.find? fun row => row.id = id).map Row.content := by
  have left : (rules.map contentOf).find? (fun content => content.1 = id) =
      (rules.find? fun rule => ruleIdOf rule = id).map contentOf := List.find?_map ..
  have right : (rows.map Row.content).find? (fun content => content.1 = id) =
      (rows.find? fun row => row.id = id).map Row.content := List.find?_map ..
  rw [← left, ← right, contents]

private theorem find_byId (store : Store) (id : Text) :
    (byId store.rows).find? (fun row => row.id = id) = store.find id := by
  have sorted : (byId store.rows).Perm store.rows := List.perm_insertionSort _ _
  let again : Store := ⟨byId store.rows, (sorted.map Row.id).nodup_iff.mpr store.distinct⟩
  change again.find id = store.find id
  refine Option.ext fun row => ?_
  rw [Table.find_eq_some, Table.find_eq_some]
  exact and_congr_left' sorted.mem_iff

private theorem validate_exported {store : Store} (sound : Sound store)
    (distinct : ∀ row ∈ store.rows, row.Distinct) (nonempty : store.rows ≠ []) :
    ∃ rules, validate (exportRules store) = .ok rules ∧
      rules.map contentOf = (byId store.rows).map Row.content := by
  have sorted : (byId store.rows).Perm store.rows := List.perm_insertionSort _ _
  obtain ⟨rules, checked, contents⟩ := @checkRules_exported (byId store.rows) 1 []
    (fun row member => sound.compiled row.id row (Table.find_of_mem (sorted.mem_iff.mp member)))
    (fun row member => distinct row (sorted.mem_iff.mp member))
    ((sorted.map Row.id).nodup_iff.mpr store.distinct) (by simp)
  refine ⟨rules, ?_, contents⟩
  have few : (exported (byId store.rows)).length ≤ maxRules := by
    rw [exported, List.length_map, sorted.length_eq]
    exact sound.few
  have filled : exported (byId store.rows) ≠ [] := by
    rw [exported, ne_eq, List.map_eq_nil_iff, ← List.length_eq_zero_iff, sorted.length_eq]
    exact fun none => nonempty (List.length_eq_zero_iff.mp none)
  have read : payloadRules (exportRules store) = .ok (exported (byId store.rows)) := by
    change payloadRules (.object (.text format) { shown := strOf 1, number := some formatVersion }
      (some (exported (byId store.rows)))) = _
    cases listed : exported (byId store.rows) with
    | nil => exact absurd listed filled
    | cons document documents =>
        rw [listed] at few
        simp only [payloadRules, ne_eq, not_true, if_false]
        rw [if_neg (Nat.not_lt.mpr few)]
  rw [validate, read]
  dsimp only
  rw [checked]
  rfl

theorem import_export {operations : List Operation} {store : Store}
    (execution : Run.run step Table.empty operations = some store)
    (distinct : ∀ row ∈ store.rows, row.Distinct) (nonempty : store.rows ≠ [])
    (user now : Text) (replace : Bool) :
    ∃ imported reported, importRules none (exportRules store) user now replace Table.empty =
      (imported, .ok reported) ∧ SameRules imported store := by
  have sound := sound_of_run execution
  obtain ⟨rules, valid, contents⟩ := validate_exported sound distinct nonempty
  have importable := importable_of_validate valid
  have all : writes Table.empty replace rules = rules := List.filter_eq_self.mpr fun _ _ => rfl
  have fits : (Table.empty : Store).rows.length + (newRules Table.empty rules).length ≤ maxRules := by
    have same := congrArg List.length contents
    have sorted : (byId store.rows).Perm store.rows := List.perm_insertionSort _ _
    rw [List.length_map, List.length_map, sorted.length_eq] at same
    have few := sound.few
    have fewer : (newRules Table.empty rules).length ≤ rules.length := List.length_filter_le _ _
    change 0 + _ ≤ _
    omega
  obtain ⟨reported, spec⟩ := @importRules_of_valid none _ _ user now replace _ valid (by simp) fits
  refine ⟨_, reported, spec, fun id => ?_⟩
  change Option.map Row.content (Table.find
    ((writes Table.empty replace rules).foldl (write user now) Table.empty) id) = _
  rw [all, find_writes user now Table.empty importable.distinct, ← find_byId store id,
    ← find_of_content contents id]
  cases rules.find? fun rule => ruleIdOf rule = id <;> rfl

/-! ## The normal form and the round trip -/

/-- A rule saved twice over, and the switch of the second turned off. -/
def savingRun : List Operation :=
  [.save (.object (nginxRule "nginx-b".toList)) none "ann".toList "2026-10-21".toList,
   .save (.object (nginxRule "nginx-a".toList)) none "ann".toList "2026-10-22".toList,
   .setEnabled "nginx-a".toList false "ann".toList "2026-10-23".toList]

def savedStore : Store := savingRun.foldl perform Table.empty

/-- The second rule as the engine uses it. -/
def nginxCompiled : Rule where
  publicForm := publicOf (nginxRule "nginx-a".toList)
  builtin := false
  pattern := "nginx".toList
  traits := []
  fixed := [{ major := 1, minor := 25, patch := 3 }]
  introduced := none

private theorem savedStore_facts :
    Run.run step Table.empty savingRun = some savedStore ∧
      (∀ row ∈ savedStore.rows, row.Distinct) ∧ savedStore.rows ≠ [] ∧
      (importRules none (exportRules savedStore) "bob".toList "2026-11-01".toList false
        Table.empty).1 ≠ savedStore := by
  simp (disch := rfl) only [savedStore, savingRun, nginxRule, toList_literal]
  decide +kernel

end AdvisoryRules
end DomainLens
