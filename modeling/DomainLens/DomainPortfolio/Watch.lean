import DomainLens.DomainPortfolio.Registry

/-!
# What a run of lookups reports

One domain is looked up any number of times.  Lookups fail, and answers leave fields out.  The file
says which changes of the registrar, the reseller and the name servers are recorded, and when no
warning of an expiry is given twice.
-/

namespace DomainLens
namespace DomainPortfolio
namespace Registry

open Python Run

/-- One domain, with its events and what its answers have stated.  Beside each field stands its last
value that was not missing, and whether the last answer left it out; the thresholds warned at are
listed last one first. -/
structure World where
  row : Row
  events : List Event
  seen : Field → Option Text
  omitted : Field → Bool
  warnings : List Int

inductive Label where
  /-- `check`; a lookup may raise. -/
  | check (result : Option Lookup) (found : Found) (now : Time)
  /-- `set_lifecycle` between two checks. -/
  | setLifecycle (value : Lifecycle)

def World.start (domain : Text) (lifecycle : Lifecycle) : World where
  row := Row.added domain lifecycle
  events := []
  seen := fun _ => none
  omitted := fun _ => false
  warnings := []

/-- The answer of a lookup is taken note of. -/
def World.note (world : World) (new : Option Answer) : World :=
  match new with
  | none => world
  | some new =>
      { world with
        seen := fun field => (new.field field).or (world.seen field)
        omitted := fun field => (new.field field).isNone }

/-- `check` on the stored row. -/
def World.check (world : World) (result : Lookup) (found : Found) (now : Time) : World :=
  let checked := Registry.check world.row result found now
  { world.note (answer result) with
    row := checked.1
    events := world.events ++ checked.2.1
    warnings := checked.2.2.toList ++ world.warnings }

def step (world : World) : Label → Option World
  | .check none _ _ => some world
  | .check (some result) found now => some (world.check result found now)
  | .setLifecycle value => some { world with row := { world.row with lifecycle := value } }

/-! ## Changes -/

/-- A value that differs from the last one that was not missing is recorded under its field. -/
def Reported (world : World) : Label → World → Prop
  | .check (some result) _ _, next => ∀ new, answer result = some new → ∀ field before after,
      world.seen field = some before → new.field field = some after → after ≠ before →
        ∃ event ∈ next.events.drop world.events.length, event.kind = .field field
  | .check none _ _, _ | .setLifecycle _, _ => True

/-- The same for a domain that is not to be claimed, and a field the last answer has stated; the event
says what was and what is. -/
def ReportedIfStated (world : World) : Label → World → Prop
  | .check (some result) _ _, next => world.row.lifecycle ≠ .claim →
      ∀ new, answer result = some new → ∀ field before after, world.omitted field = false →
        world.seen field = some before → new.field field = some after → after ≠ before →
          ∃ event ∈ next.events.drop world.events.length,
            event.kind = .field field ∧ event.before = some before ∧ event.after = some after
  | .check none _ _, _ | .setLifecycle _, _ => True

/-- The stored fields are those of the last answer, and there are none before the first. -/
private structure Noted (world : World) : Prop where
  stored : ∀ field, world.omitted field = false → world.row.field field = world.seen field
  nonempty : ∀ field, world.seen field ≠ some []
  unmeasured : world.row.phase = none → ∀ field, world.seen field = none

section Changes

variable {result : Lookup} {new : Answer} {row : Row} {found : Found} {now : Time}

private theorem truthyText_eq_some {value : Option Text} {text : Text} :
    truthyText value = some text ↔ value = some text ∧ text ≠ [] := by
  simp [truthyText, Option.filter_eq_some_iff]

private theorem truthyText_ne_nil (value : Option Text) : truthyText value ≠ some [] :=
  fun held => (truthyText_eq_some.mp held).2 rfl

private theorem field_ne_nil (answered : answer result = some new) (field : Field) :
    new.field field ≠ some [] := by
  unfold answer at answered
  split at answered
  · obtain rfl := Option.some.inj answered
    cases field <;> simp only [Answer.field] <;> exact truthyText_ne_nil _
  · split at answered
    · obtain rfl := Option.some.inj answered
      cases field <;> exact fun held => by cases held
    · cases answered

private theorem mem_fieldChanges {field : Field} {before after : Text}
    (was : row.field field = some before) (isNow : new.field field = some after)
    (wasText : before ≠ []) (isText : after ≠ []) (differs : after ≠ before) :
    { kind := .field field, severity := .high,
      detail := fieldText row.domain field before after : Change } ∈ fieldChanges row new := by
  refine List.mem_filterMap.mpr ⟨field, by cases field <;> simp, ?_⟩
  rw [truthyText_eq_some.mpr ⟨was, wasText⟩, truthyText_eq_some.mpr ⟨isNow, isText⟩]
  dsimp only
  rw [if_pos differs]

private theorem mem_changes {change : Change} (kept : row.lifecycle ≠ .claim)
    (member : change ∈ fieldChanges row new) : change ∈ changes row new := by
  unfold changes
  split
  · exact List.mem_append_right _ member
  · rename_i claim
    exact absurd claim kept
  · exact List.mem_append_right _ member
  · exact List.mem_append_right _ member

private theorem mem_newsOf {change : Change} (measured : row.phase ≠ none)
    (member : change ∈ changes row new) : change ∈ (newsOf row new now).1 := by
  unfold newsOf
  rw [if_neg measured]
  dsimp only
  split
  · exact List.mem_append_left _ member
  · exact member

private theorem check_of_answer (answered : answer result = some new) :
    ∃ used dns, storeUsage (row.store new ((newsOf row new now).2.or (warnedOf row new))
        ((newsOf row new now).1 ≠ []) now) new.phase
        (if row.lifecycle = .claim then ⟨none, none, none⟩ else found) now = (used, dns) ∧
      ∃ more, check row result found now =
        (used, (newsOf row new now).1.map (fun change =>
          { kind := change.kind, severity := change.severity, detail := change.detail,
            before := (registryValues change.kind row new).1,
            after := (registryValues change.kind row new).2, time := now : Event }) ++ more,
          (newsOf row new now).2) := by
  unfold check
  rw [answered]
  exact ⟨_, _, rfl, _, rfl⟩

private theorem storeUsage_fields (phase : Phase) (field : Field) :
    (storeUsage row phase found now).1.field field = row.field field ∧
      (storeUsage row phase found now).1.phase = row.phase ∧
      (storeUsage row phase found now).1.expires = row.expires ∧
      (storeUsage row phase found now).1.expiryWarned = row.expiryWarned ∧
      (storeUsage row phase found now).1.lifecycle = row.lifecycle := by
  unfold storeUsage
  dsimp only
  split
  · cases field <;> exact ⟨rfl, rfl, rfl, rfl, rfl⟩
  · split
    · cases field <;> exact ⟨rfl, rfl, rfl, rfl, rfl⟩
    · exact ⟨rfl, rfl, rfl, rfl, rfl⟩

private theorem check_row (answered : answer result = some new) :
    (∀ field, (check row result found now).1.field field = new.field field) ∧
      (check row result found now).1.phase = some new.phase ∧
      (check row result found now).1.expires = new.expires ∧
      (check row result found now).1.expiryWarned =
        (newsOf row new now).2.or (warnedOf row new) ∧
      (check row result found now).1.lifecycle = row.lifecycle ∧
      (check row result found now).2.2 = (newsOf row new now).2 := by
  obtain ⟨used, dns, stored, more, checked⟩ := @check_of_answer _ _ row found now answered
  rw [checked]
  have same := fun field => @storeUsage_fields (row.store new ((newsOf row new now).2.or
    (warnedOf row new)) ((newsOf row new now).1 ≠ []) now)
    (if row.lifecycle = .claim then ⟨none, none, none⟩ else found) now new.phase field
  simp only [stored] at same
  refine ⟨fun field => (same field).1.trans (by cases field <;> rfl), ?_⟩
  obtain ⟨_, phase, expires, warned, lifecycle⟩ := same .registrar
  exact ⟨phase, expires, warned, lifecycle, rfl⟩

private theorem check_of_none (unanswered : answer result = none) :
    (∀ field, (check row result found now).1.field field = row.field field) ∧
      (check row result found now).1.phase = row.phase ∧
      (check row result found now).1.expires = row.expires ∧
      (check row result found now).1.expiryWarned = row.expiryWarned ∧
      (check row result found now).1.lifecycle = row.lifecycle ∧
      (check row result found now).2 = ([], none) := by
  unfold check
  rw [unanswered]
  exact ⟨fun field => by cases field <;> rfl, rfl, rfl, rfl, rfl, rfl⟩

end Changes

private theorem noted_step {world next : World} {label : Label} (noted : Noted world)
    (taken : step world label = some next) :
    Noted next ∧ ReportedIfStated world label next := by
  cases label with
  | setLifecycle value =>
      obtain rfl := Option.some.inj taken
      exact ⟨⟨fun field => by cases field <;> exact noted.stored _, noted.nonempty,
        noted.unmeasured⟩, trivial⟩
  | check result found now =>
      cases result with
      | none =>
          obtain rfl := Option.some.inj taken
          exact ⟨noted, trivial⟩
      | some result =>
          obtain rfl := Option.some.inj taken
          cases answered : answer result with
          | none =>
              obtain ⟨fields, phase, _⟩ := @check_of_none result world.row found now answered
              refine ⟨⟨fun field stated => (fields field).trans ?_, fun field => ?_, fun absent => ?_⟩,
                ?_⟩
              · simp only [World.check, World.note, answered] at stated ⊢
                exact noted.stored field stated
              · simp only [World.check, World.note, answered]
                exact noted.nonempty field
              · simp only [World.check, World.note, answered]
                exact noted.unmeasured (phase.symm.trans absent)
              · intro _ new isNew
                rw [answered] at isNew
                cases isNew
          | some new =>
              obtain ⟨fields, phase, _⟩ := @check_row result new world.row found now answered
              refine ⟨⟨fun field stated => (fields field).trans ?_, fun field => ?_, fun absent => ?_⟩,
                ?_⟩
              · simp only [World.check, World.note, answered, Option.isNone_eq_false_iff] at stated ⊢
                obtain ⟨value, isValue⟩ := Option.isSome_iff_exists.mp stated
                rw [isValue, Option.some_or]
              · simp only [World.check, World.note, answered]
                cases isValue : new.field field with
                | none => simpa using noted.nonempty field
                | some value => simpa [isValue] using field_ne_nil answered field
              · rw [World.check, phase] at absent
                cases absent
              · intro kept other isOther field before after stated was isNow differs
                obtain rfl := Option.some.inj (answered.symm.trans isOther)
                have stored := (noted.stored field stated).trans was
                have measured : world.row.phase ≠ none := by
                  intro none
                  rw [noted.unmeasured none field] at was
                  cases was
                have wasText : before ≠ [] := fun empty => noted.nonempty field (empty ▸ was)
                have isText : after ≠ [] := fun empty => field_ne_nil answered field (empty ▸ isNow)
                have news := @mem_newsOf new world.row now _ measured
                  (mem_changes kept (mem_fieldChanges stored isNow wasText isText differs))
                obtain ⟨used, dns, _, more, checked⟩ :=
                  @check_of_answer result new world.row found now answered
                rw [World.check, checked]
                dsimp only
                rw [List.drop_left]
                exact ⟨_, List.mem_append_left _ (List.mem_map.mpr ⟨_, news, rfl⟩), rfl, stored, isNow⟩

/-- In every run of checks of a domain, whatever fails or is left out in between, a value of a field
that differs from the one the last answer stated is recorded, with both values, unless the domain is
to be claimed. -/
theorem along_reported (domain : Text) (lifecycle : Lifecycle) (labels : List Label) :
    Along step ReportedIfStated (World.start domain lifecycle) labels := by
  have start : Noted (World.start domain lifecycle) :=
    ⟨fun field _ => by cases field <;> rfl, fun _ => by simp [World.start], fun _ _ => rfl⟩
  refine along_of_invariant ?_ start
  intro world label next noted taken
  exact noted_step noted taken

/-- A lookup that finds a domain registered at a registrar, until a date where there is one. -/
def registeredAt (registrar : Text) (expires : Option Text) : Lookup where
  success := true
  phase := some .registered
  releasedFrom := none
  status := []
  registrar := some registrar
  reseller := none
  registered := .absent
  expires
  dnssec := none
  nameservers := []
  source := none
  error := none

def nothingFound : Found := ⟨none, none, none⟩

/-- A domain to be claimed changes its registrar. -/
def wantedRun : List Label :=
  [.check (some (registeredAt ['A'] none)) nothingFound 0,
    .check (some (registeredAt ['B'] none)) nothingFound 1]

/-- Of a domain to be claimed only the phase is news. -/
theorem wantedRun_not_reported :
    ¬ Along step Reported (World.start ['x', '.', 'n', 'l'] .claim) wantedRun := by
  intro reported
  obtain ⟨_, second⟩ := reported _ rfl
  obtain ⟨told, _⟩ := second _ rfl
  obtain ⟨event, member, _⟩ := told _ rfl .registrar ['A'] ['B'] (by decide +kernel)
    (by decide +kernel) (by decide)
  exact absurd (by decide +kernel) (List.ne_nil_of_mem member)

/-! ## Expiry warnings -/

/-- Each threshold is warned at once at most, and when an answer has as few days left, a warning at it
or at a lesser one was given. -/
def OncePerTerm (_ : World) (label : Label) (next : World) : Prop :=
  next.warnings.Nodup ∧ ∀ result found now, label = .check (some result) found now →
    ∀ new, answer result = some new → ∀ days, daysLeft new.expires (dateOf now) = some days →
      ∀ threshold ∈ expiryWarnDays, days ≤ threshold → ∃ warned ∈ next.warnings, warned ≤ threshold

/-- The domain is held, and each answer states the one date of expiry, or leaves it out while no
warning is remembered. -/
def Steady (expires : Text) (world : World) : Label → World → Prop
  | .check (some result) _ _, _ => ∀ new ∈ answer result,
      new.expires = some expires ∨ new.expires = none ∧ world.row.expiryWarned = none
  | .check none _ _, _ => True
  | .setLifecycle value, _ => value.held = true

instance (expires : Text) (world : World) : ∀ label next, Decidable (Steady expires world label next)
  | .check (some result) _ _, _ => inferInstanceAs (Decidable (∀ new ∈ answer result, _ ∨ _))
  | .check none _ _, _ => .isTrue trivial
  | .setLifecycle value, _ => inferInstanceAs (Decidable (value.held = true))

/-- The warnings of the term, the last one being the least and the one that is remembered. -/
private structure Warned (expires : Text) (world : World) : Prop where
  held : world.row.lifecycle.held = true
  falling : world.warnings.Pairwise (· < ·)
  remembered : world.row.expiryWarned = world.warnings.head?
  stated : world.row.expires = some expires ∨ world.row.expires = none ∧ world.warnings = []

private theorem newsOf_warning {row : Row} {new : Answer} {now : Time}
    (held : row.lifecycle.held = true) :
    (newsOf row new now).2 = (expiryWarning row new (dateOf now)).map Prod.fst := by
  unfold newsOf
  rw [if_pos held]
  cases expiryWarning row new (dateOf now) <;> rfl

private theorem expiryWarning_threshold (row : Row) (new : Answer) (date : Int) :
    (expiryWarning row new date).map Prod.fst =
      (daysLeft new.expires date).bind fun days => (crossed row new days).min? := by
  unfold expiryWarning
  cases daysLeft new.expires date with
  | none => rfl
  | some days =>
      change ((crossed row new days).min?.map _).map Prod.fst = (crossed row new days).min?
      cases (crossed row new days).min? <;> rfl

private theorem lt_of_mem_crossed {row : Row} {new : Answer} {days threshold : Int}
    (member : threshold ∈ crossed row new days) :
    ∀ warned ∈ warnedOf row new, threshold < warned := by
  intro warned held
  have below := (List.mem_filter.mp member).2
  rw [held] at below
  simpa using (of_decide_eq_true below).2

private theorem mem_crossed_or {row : Row} {new : Answer} {days threshold : Int}
    (listed : threshold ∈ expiryWarnDays) (reached : days ≤ threshold) :
    threshold ∈ crossed row new days ∨ ∃ warned ∈ warnedOf row new, warned ≤ threshold := by
  cases held : warnedOf row new with
  | none => exact .inl (List.mem_filter.mpr ⟨listed, by simp [held, reached]⟩)
  | some warned =>
      by_cases below : threshold < warned
      · exact .inl (List.mem_filter.mpr ⟨listed, by simp [held, reached, below]⟩)
      · exact .inr ⟨warned, rfl, not_lt.mp below⟩

private theorem warned_answer {expires : Text} {world : World} (warned : Warned expires world)
    {result : Lookup} {new : Answer} {found : Found} {now : Time} (answered : answer result = some new)
    (steady : new.expires = some expires ∨ new.expires = none ∧ world.row.expiryWarned = none) :
    Warned expires (world.check result found now) ∧ ∀ days,
      daysLeft new.expires (dateOf now) = some days → ∀ threshold ∈ expiryWarnDays,
        days ≤ threshold → ∃ least ∈ (world.check result found now).warnings, least ≤ threshold := by
  obtain ⟨_, _, isExpires, isWarned, isLifecycle, isWarning⟩ :=
    @check_row result new world.row found now answered
  have warning := @newsOf_warning world.row new now warned.held
  rw [expiryWarning_threshold] at warning
  have warnings : (world.check result found now).warnings =
      (newsOf world.row new now).2.toList ++ world.warnings := by
    simp only [World.check, World.note, answered, isWarning]
  rcases steady with states | ⟨leaves, forgot⟩
  · have memory : warnedOf world.row new = world.warnings.head? := by
      unfold warnedOf
      rcases warned.stated with same | ⟨none, empty⟩
      · rw [if_pos (same.trans states.symm), warned.remembered]
      · rw [if_neg (by rw [none, states]; simp), empty, List.head?_nil]
    rw [memory] at isWarned
    have stated : (world.check result found now).row.expires = some expires := isExpires.trans states
    constructor
    · cases told : (newsOf world.row new now).2 with
      | none =>
          rw [told, Option.none_or] at isWarned
          rw [told] at warnings
          exact ⟨isLifecycle ▸ warned.held, warnings ▸ warned.falling, warnings ▸ isWarned, .inl stated⟩
      | some threshold =>
          rw [told] at isWarned warnings warning
          obtain ⟨days, _, least⟩ := Option.bind_eq_some_iff.mp warning.symm
          have below := lt_of_mem_crossed (List.min?_mem least)
          rw [memory] at below
          refine ⟨isLifecycle ▸ warned.held, warnings ▸ ?_, warnings ▸ isWarned, .inl stated⟩
          refine List.pairwise_cons.mpr ⟨fun other member => ?_, warned.falling⟩
          cases listed : world.warnings with
          | nil => simp [listed] at member
          | cons first rest =>
              have falling := warned.falling
              rw [listed] at member below falling
              have under := below first rfl
              rcases List.mem_cons.mp member with rfl | later
              · exact under
              · exact under.trans ((List.pairwise_cons.mp falling).1 other later)
    · intro days left threshold listed reached
      rw [left, Option.bind_some] at warning
      rw [warnings, warning]
      rcases @mem_crossed_or world.row new _ _ listed reached with member | ⟨before, held, lower⟩
      · obtain ⟨least, isLeast⟩ := Option.isSome_iff_exists.mp
          (List.isSome_min?_of_mem member)
        exact ⟨least, by simp [isLeast], (List.min?_eq_some_iff.mp isLeast).2 threshold member⟩
      · rw [memory] at held
        exact ⟨before, List.mem_append_right _ (List.mem_of_mem_head? held), lower⟩
  · have silent : (newsOf world.row new now).2 = none := by
      rw [warning, leaves]
      rfl
    have empty : world.warnings = [] := by
      rw [warned.remembered] at forgot
      exact List.head?_eq_none_iff.mp forgot
    rw [silent, Option.none_or] at isWarned
    rw [silent, empty] at warnings
    have forgotten : warnedOf world.row new = none := by
      unfold warnedOf
      split
      · exact forgot
      · rfl
    constructor
    · exact ⟨isLifecycle ▸ warned.held, by rw [warnings]; exact List.Pairwise.nil,
        by rw [warnings]; exact isWarned.trans forgotten, .inr ⟨isExpires.trans leaves, warnings⟩⟩
    · intro days left
      rw [leaves] at left
      cases left

private theorem warned_step {expires : Text} {world next : World} {label : Label}
    (warned : Warned expires world) (taken : step world label = some next)
    (steady : Steady expires world label next) :
    Warned expires next ∧ OncePerTerm world label next := by
  have once : ∀ {after : World}, Warned expires after → after.warnings.Nodup :=
    fun later => later.falling.imp fun less => ne_of_lt less
  cases label with
  | setLifecycle value =>
      obtain rfl := Option.some.inj taken
      have kept : Warned expires { world with row := { world.row with lifecycle := value } } :=
        ⟨steady, warned.falling, warned.remembered, warned.stated⟩
      exact ⟨kept, once kept, fun _ _ _ called => by cases called⟩
  | check result found now =>
      cases result with
      | none =>
          obtain rfl := Option.some.inj taken
          exact ⟨warned, once warned, fun _ _ _ called => by cases called⟩
      | some result =>
          obtain rfl := Option.some.inj taken
          cases answered : answer result with
          | none =>
              obtain ⟨_, _, isExpires, isWarned, isLifecycle, nothing⟩ :=
                @check_of_none result world.row found now answered
              have kept : Warned expires (world.check result found now) := by
                refine ⟨isLifecycle ▸ warned.held, ?_, isWarned.trans ?_, ?_⟩
                · simpa [World.check, World.note, answered, nothing] using warned.falling
                · simpa [World.check, World.note, answered, nothing] using warned.remembered
                · simpa [World.check, World.note, answered, nothing, isExpires] using warned.stated
              refine ⟨kept, once kept, ?_⟩
              rintro _ _ _ ⟨⟩ new isNew
              rw [answered] at isNew
              cases isNew
          | some new =>
              obtain ⟨kept, told⟩ := warned_answer warned answered (steady new answered)
              refine ⟨kept, once kept, ?_⟩
              rintro _ _ _ ⟨⟩ other isOther
              obtain rfl := Option.some.inj (answered.symm.trans isOther)
              exact told

/-- Where no answer leaves the date of expiry out while a warning is remembered, each threshold of
the term is warned at once, and none is passed over, in every run of checks of a domain that is
held. -/
theorem along_oncePerTerm (expires domain : Text) (lifecycle : Lifecycle) (labels : List Label)
    (held : lifecycle.held = true)
    (steady : Along step (Steady expires) (World.start domain lifecycle) labels) :
    Along step OncePerTerm (World.start domain lifecycle) labels := by
  have start : Warned expires (World.start domain lifecycle) :=
    ⟨held, List.Pairwise.nil, rfl, .inr ⟨rfl, rfl⟩⟩
  refine along_of_guarded ?_ start steady
  intro world label next warned taken met
  exact warned_step warned taken met

def newYear : Time := (739617 - 1) * 86400000000 + 43200000000

/-- A month of checks, two of which come after a threshold. -/
def monthRun : List Label :=
  [.check (some (registeredAt ['A'] none)) nothingFound newYear,
    .check (some (registeredAt ['A'] (some "2026-01-21".toList))) nothingFound newYear,
    .check none nothingFound (newYear + 1),
    .check (some (registeredAt ['A'] (some "2026-01-21".toList))) nothingFound
      (newYear + 15 * 86400000000)]

theorem monthRun_oncePerTerm :
    Along step OncePerTerm (World.start ['x', '.', 'n', 'l'] .keep) monthRun :=
  along_oncePerTerm "2026-01-21".toList _ _ _ rfl (by decide +kernel)

/-- An answer leaves the date out that the answers around it state. -/
def gapRun : List Label :=
  [.check (some (registeredAt ['A'] (some "2026-01-21".toList))) nothingFound newYear,
    .check (some (registeredAt ['A'] none)) nothingFound (newYear + 1),
    .check (some (registeredAt ['A'] (some "2026-01-21".toList))) nothingFound (newYear + 2)]

/-- The threshold of thirty days is warned at twice. -/
theorem gapRun_not_oncePerTerm :
    ¬ Along step OncePerTerm (World.start ['x', '.', 'n', 'l'] .keep) gapRun := by
  intro once
  obtain ⟨_, second⟩ := once _ rfl
  obtain ⟨_, third⟩ := second _ rfl
  obtain ⟨⟨distinct, _⟩, _⟩ := third _ rfl
  exact absurd distinct (by decide +kernel)

end Registry
end DomainPortfolio
end DomainLens
