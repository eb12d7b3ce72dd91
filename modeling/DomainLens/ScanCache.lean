import DomainLens.Library.Since
import DomainLens.Library.Table
import DomainLens.Python.Value

/-!
# The cache of third-party answers

An answer that is worth keeping is stored under its kind and domain.  A later call is given it as long as it
is fresh, unless that call asks for a new one.
-/

namespace DomainLens
namespace ScanCache

open Python Run

/-! ## The table -/

/-- The kinds of answers. -/
inductive Kind where
  | osint
  | crtsh
  | wayback
  | ipContext
  | threatfox
  | urlhaus
  | otx
  | virustotal
deriving DecidableEq

def Kind.name : Kind → Text
  | .osint => "osint".toList
  | .crtsh => "crtsh".toList
  | .wayback => "osint_wayback".toList
  | .ipContext => "osint_ip_context".toList
  | .threatfox => "osint_threatfox".toList
  | .urlhaus => "osint_urlhaus".toList
  | .otx => "osint_otx".toList
  | .virustotal => "osint_virustotal".toList

/-- The key of a row. -/
def cacheKey (kind : Kind) (domain : Text) : Text := kind.name ++ ':' :: domain

/-- A row of `external_cache`. -/
structure Row where
  kind : Kind
  domain : Text
  payload : Value
  createdAt : Int

def Row.cacheKey (row : Row) : Text := ScanCache.cacheKey row.kind row.domain

/-- The rows, and the clock in microseconds. -/
structure State where
  table : Table Row.cacheKey
  now : Int

/-- The settings a call reads. -/
structure Config where
  enabled : Bool
  ttlHours : ℚ

def Config.ttlSeconds (config : Config) : ℚ := max 0 config.ttlHours * 3600

/-- `_age_seconds`. -/
def State.ageSeconds (state : State) (createdAt : Int) : ℚ := ((state.now - createdAt : Int) : ℚ) / 1000000

/-! ## Calls -/

/-- `lookup`: the payload with its age. -/
def lookup (config : Config) (state : State) (kind : Kind) (domain : Text) (force : Bool) :
    Option (Value × ℚ) :=
  if force || !config.enabled || config.ttlSeconds ≤ 0 then none
  else (state.table.find (cacheKey kind domain)).bind fun row =>
    if config.ttlSeconds < state.ageSeconds row.createdAt then none
    else some (row.payload, state.ageSeconds row.createdAt)

/-- `store`. -/
def store (config : Config) (state : State) (kind : Kind) (domain : Text) (payload : Value) : State :=
  if config.enabled then
    { state with table := state.table.put ⟨kind, domain, payload, state.now⟩ }
  else state

/-- `_default_should_store`. -/
def defaultShouldStore : Value → Bool
  | .null => false
  | .dict entries =>
      !(getValue entries "error").truthy &&
        match entries.lookup "success".toList with
        | some (.bool false) => false
        | _ => true
  | _ => true

/-- What a call of `cached_call` answers. -/
inductive Answer where
  | fresh (result : Value)
  | cached (payload : Value) (ageSeconds : ℚ)

section System

variable (shouldStore : Kind → Value → Bool)

/-- The end of a call that asked the source. -/
def finish (config : Config) (state : State) (kind : Kind) (domain : Text) (result : Value) : State :=
  if shouldStore kind result then store config state kind domain result else state

/-- `cached_call`, where the producer gives a result. -/
def cachedCall (config : Config) (state : State) (kind : Kind) (domain : Text) (force : Bool)
    (result : Value) : Answer × State :=
  match lookup config state kind domain force with
  | some (payload, age) => (.cached payload age, state)
  | none => (.fresh result, finish shouldStore config state kind domain result)

/-- What changes the table, and time that passes.  Calls that overlap end in any order. -/
inductive Label where
  | finish (config : Config) (kind : Kind) (domain : Text) (result : Value)
  | clear (kind : Option Kind) (domain : Text)
  | wait (span : Int)

/-- `external_cache_clear` drops the row of the kind and the domain. -/
def Clears (kind : Kind) (domain : Text) : Label → Prop
  | .clear kind' domain' => (kind' = none ∨ kind' = some kind) ∧ (domain' = [] ∨ domain' = domain)
  | _ => False

instance (kind : Kind) (domain : Text) : ∀ label, Decidable (Clears kind domain label)
  | .clear _ _ => inferInstanceAs (Decidable (_ ∧ _))
  | .finish .. | .wait _ => .isFalse id

def step (state : State) : Label → Option State
  | .finish config kind domain result => some (finish shouldStore config state kind domain result)
  | .clear kind domain =>
      some { state with
        table := state.table.filter fun row => ¬ Clears row.kind row.domain (.clear kind domain) }
  | .wait span => some { state with now := state.now + span }

variable {shouldStore}

/-! ## What is replayed -/

/-- A key tells the kind and the domain, whatever the domain holds. -/
theorem cacheKey_inj {kind kind' : Kind} {domain domain' : Text}
    (same : cacheKey kind domain = cacheKey kind' domain') : kind = kind' ∧ domain = domain' := by
  have name (kind : Kind) (domain : Text) :
      (cacheKey kind domain).takeWhile (· ≠ ':') = kind.name := by cases kind <;> rfl
  have names : kind.name = kind'.name := by rw [← name kind domain, same, name]
  have kinds : kind = kind' := by
    revert names
    cases kind <;> cases kind' <;> decide
  subst kinds
  exact ⟨rfl, (List.cons.inj (List.append_cancel_left same)).2⟩

private theorem find_store {config : Config} {state : State} {kind : Kind} {domain : Text}
    {payload : Value} {key : Text} (enabled : config.enabled = true) :
    (store config state kind domain payload).table.find key =
      if key = cacheKey kind domain then some ⟨kind, domain, payload, state.now⟩
      else state.table.find key := by
  rw [store, if_pos enabled, Table.find_put]
  rfl

private theorem finished_of_step {state next : State} {label : Label} {row : Row}
    (taken : step shouldStore state label = some next)
    (absent : state.table.find row.cacheKey ≠ some row)
    (found : next.table.find row.cacheKey = some row) :
    ∃ config, label = .finish config row.kind row.domain row.payload ∧ config.enabled = true ∧
      shouldStore row.kind row.payload = true ∧ row.createdAt = state.now := by
  cases label with
  | wait span =>
      obtain rfl := Option.some.inj taken
      exact absurd found absent
  | clear kind domain =>
      obtain rfl := Option.some.inj taken
      rw [Table.find_filter, Option.filter_eq_some_iff] at found
      exact absurd found.1 absent
  | finish config kind domain result =>
      obtain rfl := Option.some.inj taken
      rw [finish] at found
      split at found
      · rename_i kept
        cases enabled : config.enabled with
        | false => exact absurd (by simpa [store, enabled] using found) absent
        | true =>
            rw [find_store enabled] at found
            split at found
            · obtain rfl := Option.some.inj found
              exact ⟨config, rfl, enabled, kept, rfl⟩
            · exact absurd found absent
      · exact absurd found absent

private theorem find_of_cached {config : Config} {state : State} {kind : Kind} {domain : Text} {force : Bool}
    {result payload : Value} {age : ℚ}
    (answered : (cachedCall shouldStore config state kind domain force result).1 = .cached payload age) :
    force = false ∧ config.enabled = true ∧ age ≤ config.ttlSeconds ∧
      ∃ row, state.table.find (cacheKey kind domain) = some row ∧ row.payload = payload ∧
        age = state.ageSeconds row.createdAt := by
  have looked : lookup config state kind domain force = some (payload, age) := by
    unfold cachedCall at answered
    split at answered
    · cases answered
      assumption
    · cases answered
  unfold lookup at looked
  split_ifs at looked with refused
  simp only [Bool.or_eq_true, Bool.not_eq_true', decide_eq_true_eq, not_or, Bool.not_eq_true,
    Bool.not_eq_false] at refused
  obtain ⟨row, found, fresh⟩ := Option.bind_eq_some_iff.mp looked
  split_ifs at fresh with old
  obtain ⟨rfl, rfl⟩ := Prod.mk.inj (Option.some.inj fresh)
  exact ⟨refused.1.1, refused.1.2, not_lt.mp old, row, found, rfl, rfl⟩

private theorem find_of_run {state final : State} {labels : List Label} {row : Row}
    (execution : run (step shouldStore) state labels = some final)
    (held : state.table.find row.cacheKey = some row)
    (kept : ∀ label ∈ labels, ¬ Clears row.kind row.domain label)
    (last : ∀ newer found, .finish newer row.kind row.domain found ∈ labels → newer.enabled = true →
      shouldStore row.kind found = false) : final.table.find row.cacheKey = some row := by
  induction labels generalizing state with
  | nil =>
      obtain rfl := Option.some.inj execution
      exact held
  | cons label labels induction =>
      obtain ⟨next, taken, rest⟩ := run_cons_eq_some.mp execution
      refine induction rest ?_ (fun other later => kept other (.tail _ later))
        fun newer found later => last newer found (.tail _ later)
      cases label with
      | wait span =>
          obtain rfl := Option.some.inj taken
          exact held
      | clear kind domain =>
          obtain rfl := Option.some.inj taken
          rw [Table.find_filter, held]
          simpa using kept _ (.head _)
      | finish config kind domain result =>
          obtain rfl := Option.some.inj taken
          rw [finish]
          split
          · rename_i worth
            cases enabled : config.enabled with
            | false => simpa [store, enabled] using held
            | true =>
                rw [find_store enabled, if_neg, held]
                intro same
                obtain ⟨rfl, rfl⟩ := cacheKey_inj same
                exact absurd worth (by simp [last config result (.head _) enabled])
          · exact held

end System

/-- An answer that was found an hour ago. -/
def sampleLabels : List Label := [.finish ⟨true, 24⟩ .crtsh ['a'] (.text ['b']), .wait 3600000000]

end ScanCache
end DomainLens
