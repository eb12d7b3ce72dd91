import DomainLens.Settings.ReadBack

/-!
# The settings store, shared

Threads share one store and its cache.  A read takes the cache, or fills it from the database; a save
reads its section, writes it back whole and clears the cache.  The steps of the calls mix.
-/

namespace DomainLens
namespace Settings
namespace Shared

open Python NestedMap Run

variable {Atom : Type*}

/-! ## Calls -/

/-- All sections, with the layers laid over each other. -/
abbrev Merged (Atom : Type*) := Text → Value Atom

/-- What `merged` makes of the database; only the sections of the defaults are read. -/
def mergedOf (layers : Layers Atom) (environ : Environ) (database : Database Atom) : Merged Atom :=
  fun name =>
    if (layers.defaults name).isSome then sectionOf layers environ database name
    else setAll (overridesOf environ name) empty

/-- `merged`, `section` and `update_section`. -/
inductive Request (Atom : Type*) where
  | merged
  | ofSection (name : Text)
  | updateSection (name : Text) (patch : List (Text × Value Atom))

def Request.Covers : Request Atom → Text → Prop
  | .merged, _ => True
  | .ofSection name, other => other = name
  | .updateSection .., _ => False

inductive Stage (Atom : Type*) where
  /-- `_fresh`. -/
  | checking
  /-- `_load_db_sections`. -/
  | reading
  /-- The cache is set. -/
  | publishing (data : Merged Atom)
  /-- The copy of the cache. -/
  | copying
  /-- `set_setting_section`, with the patch laid over the section as read. -/
  | writing (name : Text) (entries : List (List Text × Value Atom)) (current : Value Atom)
  /-- `invalidate`. -/
  | clearing (name : Text)

structure SavedKey (Atom : Type*) where
  within : Text
  path : List Text
  value : Value Atom

/-- A call.  `owed` is what had been saved when it began and has not been patched since, `wrote`
what it has written itself. -/
structure Call (Atom : Type*) where
  request : Request Atom
  stage : Stage Atom
  owed : List (SavedKey Atom)
  wrote : List (SavedKey Atom)

/-- What a read has returned: no data if it has failed, or has returned `None`. -/
structure Answer (Atom : Type*) where
  request : Request Atom
  owed : List (SavedKey Atom)
  data : Option (Merged Atom)

/-- The database and the cache with the calls that go on.  `saved` is what the updates have saved
that have cleared the cache, as all have that have returned, without the keys that another update has
written since. -/
structure State (Atom : Type*) where
  database : Database Atom
  cache : Option (Merged Atom)
  calls : List (Call Atom)
  saved : List (SavedKey Atom)
  answers : List (Answer Atom)

/-- What happens next: a call begins, or one goes on; the database may fail. -/
inductive Label (Atom : Type*) where
  | merged (forceReload : Bool)
  | ofSection (name : Text) (forceReload : Bool)
  | updateSection (name : Text) (patch : List (Text × Value Atom))
  | next (position : Nat) (fails : Bool)

/-- The keys that a write of the section does not touch. -/
def forget (name : Text) (entries : List (List Text × Value Atom)) (saved : List (SavedKey Atom)) :
    List (SavedKey Atom) :=
  saved.filter fun key => ¬(key.within = name ∧ key.path ∈ entries.map Prod.fst)

def Call.forget (name : Text) (entries : List (List Text × Value Atom)) (call : Call Atom) :
    Call Atom :=
  { call with
    owed := Shared.forget name entries call.owed
    wrote := Shared.forget name entries call.wrote }

def State.begin (state : State Atom) (request : Request Atom) (stage : Stage Atom) : State Atom :=
  { state with calls := state.calls ++ [⟨request, stage, state.saved, []⟩] }

def State.answer (state : State Atom) (call : Call Atom) (data : Option (Merged Atom)) : State Atom :=
  { state with answers := ⟨call.request, call.owed, data⟩ :: state.answers }

def State.write (state : State Atom) (name : Text) (entries : List (List Text × Value Atom))
    (current : Value Atom) : State Atom :=
  { state with
    database := Function.update state.database name (some (setAll entries current))
    calls := state.calls.map (Call.forget name entries)
    saved := forget name entries state.saved }

variable (layers : Layers Atom) (environ : Environ)

/-- The next step of a call, with the call after it, unless it has returned or raised. -/
def advance (state : State Atom) (call : Call Atom) (fails : Bool) : State Atom × Option (Call Atom) :=
  match call.stage with
  | .checking =>
      (state, some { call with stage := if state.cache.isSome then .copying else .reading })
  | .reading =>
      -- a failing database has no sections
      let database : Database Atom := if fails then fun _ => none else state.database
      (state, some { call with stage := .publishing (mergedOf layers environ database) })
  | .publishing data =>
      let state := { state with cache := some data }
      match call.request with
      | .merged => (state.answer call (some data), none)
      | .ofSection _ | .updateSection .. => (state, some { call with stage := .copying })
  | .copying =>
      match call.request with
      | .merged | .ofSection _ => (state.answer call state.cache, none)
      | .updateSection name patch =>
          match state.cache, checkedPatch name patch with
          | some data, .ok entries =>
              (state, some { call with stage := .writing name entries (data name) })
          | _, _ => (state, none)
  | .writing name entries current =>
      if fails then (state, none)
      else
        (state.write name entries current,
          some { call with
            stage := .clearing name
            owed := forget name entries call.owed
            wrote := entries.map fun entry => ⟨name, entry.1, entry.2⟩ })
  | .clearing name =>
      -- the update returns the section it now reads
      let saved := call.wrote ++ state.saved
      ({ state with cache := none, saved }, some ⟨.ofSection name, .checking, saved, []⟩)

def step (state : State Atom) : Label Atom → Option (State Atom)
  | .merged forceReload => some (state.begin .merged (if forceReload then .reading else .checking))
  | .ofSection name forceReload =>
      some (state.begin (.ofSection name) (if forceReload then .reading else .checking))
  | .updateSection name patch =>
      if layers.defaults name = none ∨ name = integrations then some state
      else some (state.begin (.updateSection name patch) .reading)
  | .next position fails =>
      (state.calls[position]?).map fun call =>
        match advance layers environ state call fails with
        | (next, some call) => { next with calls := next.calls.set position call }
        | (next, none) => { next with calls := next.calls.eraseIdx position }

def start (database : Database Atom) : State Atom where
  database := database
  cache := none
  calls := []
  saved := []
  answers := []

/-! ## When nothing is lost -/

/-- A read has returned every value that had been saved when it began, unless its key was patched
since. -/
def Answer.Right (answer : Answer Atom) : Prop :=
  ∀ key ∈ answer.owed, answer.request.Covers key.within →
    ∃ data, answer.data = some data ∧ get key.path (data key.within) = some key.value

/-- No saved value is undone, and no read is stale. -/
structure Kept (state : State Atom) : Prop where
  stored : ∀ key ∈ state.saved,
    get key.path (mergedOf layers environ state.database key.within) = some key.value
  given : ∀ answer ∈ state.answers, answer.Right

/-- A patch that reads back: no key lies in an overridden one or around it, the entries agree, and
the saved objects are complete. -/
structure Plain (name : Text) (entries : List (List Text × Value Atom)) : Prop where
  free : ∀ entry ∈ entries, ∀ override ∈ (overridesOf environ name : List (List Text × Value Atom)),
    Apart override.1 entry.1
  agree : Agree entries
  complete : Complete (lower layers name) entries

/-- The values that the updates have written, whether they have cleared the cache or have still to. -/
def State.written (state : State Atom) : List (SavedKey Atom) :=
  state.saved ++ state.calls.flatMap Call.wrote

/-- The next step of a call rests on nothing that others have changed: the cache is there to be
copied; of the keys saved, what it puts into the cache is what is stored now; and of the keys written
in the section it writes, it patches a key itself, or leaves it as it is stored now. -/
def Call.Steady (state : State Atom) (fails : Bool) (call : Call Atom) : Prop :=
  match call.stage with
  | .checking | .reading | .clearing _ => True
  | .publishing data => ∀ key ∈ state.saved, get key.path (data key.within) =
      get key.path (mergedOf layers environ state.database key.within)
  | .copying => state.cache.isSome
  | .writing name entries current => fails = false → Plain layers environ name entries ∧
      ∀ key ∈ state.written, key.within = name → key.path ∈ entries.map Prod.fst ∨
        (∀ entry ∈ entries, Apart entry.1 key.path) ∧
          get key.path current = get key.path (mergedOf layers environ state.database name)

def Steady (state : State Atom) (label : Label Atom) (_ : State Atom) : Prop :=
  match label with
  | .next position fails => ∀ call ∈ state.calls[position]?, call.Steady layers environ state fails
  | _ => True

/-! ## A key as it is stored -/

variable {layers environ} {state next : State Atom} {call : Call Atom} {name : Text}
  {entries : List (List Text × Value Atom)} {current : Value Atom} {key : SavedKey Atom}

/-- What is stored under the key is what is read. -/
structure Firm (layers : Layers Atom) (environ : Environ) (key : SavedKey Atom) : Prop where
  known : (layers.defaults key.within).isSome
  named : key.path ≠ []
  free : ∀ override ∈ (overridesOf environ key.within : List (List Text × Value Atom)),
    Apart override.1 key.path
  complete : CoversAt (get key.path (lower layers key.within)) (some key.value)

theorem Plain.firm (plain : Plain layers environ name entries)
    (known : (layers.defaults name).isSome) (named : ∀ entry ∈ entries, entry.1 ≠ [])
    {entry : List Text × Value Atom} (member : entry ∈ entries) :
    Firm layers environ ⟨name, entry.1, entry.2⟩ where
  known := known
  named := named entry member
  free := plain.free entry member
  complete := plain.complete entry member

def Shows (layers : Layers Atom) (environ : Environ) (database : Database Atom) (key : SavedKey Atom) :
    Prop :=
  get key.path (mergedOf layers environ database key.within) = some key.value

theorem Firm.shows_of_stored (firm : Firm layers environ key) (database : Database Atom)
    {stored : Value Atom} (there : get key.path stored = some key.value) :
    Shows layers environ (Function.update database key.within (some stored)) key := by
  rw [Shows, mergedOf, if_pos firm.known, sectionOf, Function.update_self,
    get_setAll_of_apart firm.free]
  cases stored with
  | leaf value =>
      rw [get_leaf firm.named] at there
      cases there
  | node values =>
      rw [overlay, get_merge_of_some there, mergeAt_eq_self_iff]
      exact firm.complete

theorem shows_of_other {database : Database Atom} (different : key.within ≠ name)
    (stored : Option (Value Atom)) (shows : Shows layers environ database key) :
    Shows layers environ (Function.update database name stored) key := by
  rw [Shows, mergedOf] at shows ⊢
  split at shows
  · rename_i known
    rw [if_pos known, sectionOf_congr (Function.update_of_ne different _ _)]
    exact shows
  · rename_i unknown
    rw [if_neg unknown]
    exact shows

theorem mem_forget {saved : List (SavedKey Atom)} : key ∈ forget name entries saved ↔
    key ∈ saved ∧ ¬(key.within = name ∧ key.path ∈ entries.map Prod.fst) := by
  rw [forget, List.mem_filter, decide_eq_true_iff]

/-! ## What a step keeps -/

/-- A write goes to a section of the defaults, under keys. -/
def Call.Formed (layers : Layers Atom) (call : Call Atom) : Prop :=
  match call.stage with
  | .writing name entries _ =>
      (layers.defaults name).isSome ∧ ∀ entry ∈ entries, entry.1 ≠ []
  | _ => True

/-- An update is of a section of the defaults. -/
def Request.Known (layers : Layers Atom) : Request Atom → Prop
  | .updateSection name _ => (layers.defaults name).isSome
  | .merged | .ofSection _ => True

/-- What a call has written is stored, and what it owes is saved. -/
structure Call.Sound (layers : Layers Atom) (environ : Environ) (state : State Atom) (call : Call Atom) :
    Prop where
  wrote : ∀ key ∈ call.wrote, Firm layers environ key ∧ Shows layers environ state.database key
  owed : ∀ key ∈ call.owed, key ∈ state.saved
  formed : call.Formed layers
  known : call.request.Known layers

structure Coherent (layers : Layers Atom) (environ : Environ) (state : State Atom) : Prop where
  saved : ∀ key ∈ state.saved, Firm layers environ key ∧ Shows layers environ state.database key
  cached : ∀ data ∈ state.cache, ∀ key ∈ state.saved, get key.path (data key.within) = some key.value
  calls : ∀ call ∈ state.calls, call.Sound layers environ state
  given : ∀ answer ∈ state.answers, answer.Right

theorem Coherent.kept (holds : Coherent layers environ state) : Kept layers environ state where
  stored key member := (holds.saved key member).2
  given := holds.given

theorem Coherent.withCalls (holds : Coherent layers environ state) {calls : List (Call Atom)}
    (sound : ∀ call ∈ calls, call.Sound layers environ state) :
    Coherent layers environ { state with calls } where
  saved := holds.saved
  cached := holds.cached
  calls call member :=
    { wrote := (sound call member).wrote
      owed := (sound call member).owed
      formed := (sound call member).formed
      known := (sound call member).known }
  given := holds.given

theorem Call.Sound.stage (sound : call.Sound layers environ state) (stage : Stage Atom)
    (formed : Call.Formed layers { call with stage }) :
    Call.Sound layers environ state { call with stage } where
  wrote := sound.wrote
  owed := sound.owed
  formed := formed
  known := sound.known

theorem Coherent.answer (holds : Coherent layers environ state) {data : Option (Merged Atom)}
    (right : Answer.Right ⟨call.request, call.owed, data⟩) :
    Coherent layers environ (state.answer call data) where
  saved := holds.saved
  cached := holds.cached
  calls other member :=
    { wrote := (holds.calls other member).wrote
      owed := (holds.calls other member).owed
      formed := (holds.calls other member).formed
      known := (holds.calls other member).known }
  given := List.forall_mem_cons.mpr ⟨right, holds.given⟩

theorem Coherent.publish (holds : Coherent layers environ state) {data : Merged Atom}
    (current : ∀ key ∈ state.saved, get key.path (data key.within) =
      get key.path (mergedOf layers environ state.database key.within)) :
    Coherent layers environ { state with cache := some data } where
  saved := holds.saved
  cached published isData key member := by
    obtain rfl := Option.some.inj isData
    rw [current key member]
    exact (holds.saved key member).2
  calls other member :=
    { wrote := (holds.calls other member).wrote
      owed := (holds.calls other member).owed
      formed := (holds.calls other member).formed
      known := (holds.calls other member).known }
  given := holds.given

theorem Call.Sound.right (sound : call.Sound layers environ state) {data : Merged Atom}
    (held : ∀ key ∈ state.saved, get key.path (data key.within) = some key.value) :
    Answer.Right ⟨call.request, call.owed, some data⟩ :=
  fun key member _ => ⟨data, rfl, held key (sound.owed key member)⟩

private theorem shows_write
    (left : ∀ key ∈ state.written, key.within = name → key.path ∈ entries.map Prod.fst ∨
      (∀ entry ∈ entries, Apart entry.1 key.path) ∧
        get key.path current = get key.path (mergedOf layers environ state.database name))
    (member : key ∈ state.written)
    (stored : Firm layers environ key ∧ Shows layers environ state.database key)
    (untouched : ¬(key.within = name ∧ key.path ∈ entries.map Prod.fst)) :
    Firm layers environ key ∧
      Shows layers environ (state.write name entries current).database key := by
  obtain ⟨firm, shows⟩ := stored
  refine ⟨firm, ?_⟩
  by_cases here : key.within = name
  · subst here
    obtain ⟨apart, same⟩ := (left key member rfl).resolve_left fun patched => untouched ⟨rfl, patched⟩
    refine firm.shows_of_stored state.database ?_
    rw [get_setAll_of_apart apart, same]
    exact shows
  · exact shows_of_other here _ shows

theorem Coherent.write (holds : Coherent layers environ state)
    (left : ∀ key ∈ state.written, key.within = name → key.path ∈ entries.map Prod.fst ∨
      (∀ entry ∈ entries, Apart entry.1 key.path) ∧
        get key.path current = get key.path (mergedOf layers environ state.database name)) :
    Coherent layers environ (state.write name entries current) where
  saved key member := by
    obtain ⟨saved, untouched⟩ := mem_forget.mp member
    exact shows_write left (List.mem_append_left _ saved) (holds.saved key saved) untouched
  cached data isCache key member := holds.cached data isCache key (mem_forget.mp member).1
  calls changed member := by
    obtain ⟨call, listed, rfl⟩ := List.mem_map.mp member
    have sound := holds.calls call listed
    exact
      { wrote := fun key held => by
          obtain ⟨wrote, untouched⟩ := mem_forget.mp held
          exact shows_write left
            (List.mem_append_right _ (List.mem_flatMap.mpr ⟨call, listed, wrote⟩))
            (sound.wrote key wrote) untouched
        owed := fun key held => by
          obtain ⟨owed, untouched⟩ := mem_forget.mp held
          exact mem_forget.mpr ⟨sound.owed key owed, untouched⟩
        formed := sound.formed
        known := sound.known }
  given := holds.given

theorem Call.Sound.written (sound : call.Sound layers environ state)
    (plain : Plain layers environ name entries) (known : (layers.defaults name).isSome)
    (named : ∀ entry ∈ entries, entry.1 ≠ []) :
    Call.Sound layers environ (state.write name entries current)
      { call with
        stage := .clearing name
        owed := Shared.forget name entries call.owed
        wrote := entries.map fun entry => ⟨name, entry.1, entry.2⟩ } where
  wrote key member := by
    obtain ⟨entry, listed, rfl⟩ := List.mem_map.mp member
    have firm := plain.firm known named listed
    exact ⟨firm, firm.shows_of_stored state.database
      (get_setAll_of_agree plain.agree (fun _ held => held) listed (.inl listed))⟩
  owed key member := by
    obtain ⟨owed, untouched⟩ := mem_forget.mp member
    exact mem_forget.mpr ⟨sound.owed key owed, untouched⟩
  formed := trivial
  known := sound.known

theorem Coherent.clear (holds : Coherent layers environ state) (member : call ∈ state.calls) :
    Coherent layers environ { state with cache := none, saved := call.wrote ++ state.saved } where
  saved key held := (List.mem_append.mp held).elim ((holds.calls call member).wrote key)
    (holds.saved key)
  cached := by simp
  calls other listed :=
    { wrote := (holds.calls other listed).wrote
      owed := fun key held => List.mem_append_right _ ((holds.calls other listed).owed key held)
      formed := (holds.calls other listed).formed
      known := (holds.calls other listed).known }
  given := holds.given

/-! ## Steps and runs -/

variable {fails : Bool}

private theorem entries_named {patch : List (Text × Value Atom)}
    (checked : checkedPatch name patch = .ok entries) : ∀ entry ∈ entries, entry.1 ≠ [] := by
  intro entry member
  have path : entry.1 ∈ patch.map fun entry => pathOf entry.1 :=
    checkedPatch_paths checked ▸ List.mem_map_of_mem member
  obtain ⟨original, -, same⟩ := List.mem_map.mp path
  exact same ▸ pathOf_ne_nil original.1

theorem Coherent.advance (holds : Coherent layers environ state) (member : call ∈ state.calls)
    (steady : call.Steady layers environ state fails) :
    Coherent layers environ (Shared.advance layers environ state call fails).1 ∧
      ∀ later ∈ (Shared.advance layers environ state call fails).2,
        later.Sound layers environ (Shared.advance layers environ state call fails).1 := by
  have sound := holds.calls call member
  obtain ⟨request, stage, owed, wrote⟩ := call
  cases stage with
  | checking =>
      refine ⟨holds, fun later isLater => ?_⟩
      obtain rfl := Option.some.inj isLater
      refine sound.stage _ ?_
      cases state.cache <;> trivial
  | reading =>
      refine ⟨holds, fun later isLater => ?_⟩
      obtain rfl := Option.some.inj isLater
      exact sound.stage (.publishing _) trivial
  | publishing data =>
      have published := holds.publish steady
      have held := published.cached data rfl
      cases request with
      | merged => exact ⟨published.answer (sound.right held), by simp [Shared.advance]⟩
      | ofSection name =>
          refine ⟨published, fun later isLater => ?_⟩
          obtain rfl := Option.some.inj isLater
          exact (published.calls _ member).stage .copying trivial
      | updateSection name patch =>
          refine ⟨published, fun later isLater => ?_⟩
          obtain rfl := Option.some.inj isLater
          exact (published.calls _ member).stage .copying trivial
  | copying =>
      obtain ⟨data, isData⟩ : ∃ data, state.cache = some data := Option.isSome_iff_exists.mp steady
      have right : Answer.Right ⟨request, owed, state.cache⟩ :=
        isData ▸ sound.right (holds.cached data isData)
      cases request with
      | merged => exact ⟨holds.answer right, by simp [Shared.advance]⟩
      | ofSection name => exact ⟨holds.answer right, by simp [Shared.advance]⟩
      | updateSection name patch =>
          simp only [Shared.advance, isData]
          cases checked : checkedPatch name patch with
          | error text => exact ⟨holds, by simp⟩
          | ok entries =>
              refine ⟨holds, fun later isLater => ?_⟩
              obtain rfl := Option.some.inj isLater
              exact sound.stage (.writing name entries (data name))
                ⟨sound.known, entries_named checked⟩
  | writing name entries current =>
      obtain ⟨known, named⟩ := sound.formed
      cases fails with
      | true => exact ⟨holds, by simp [Shared.advance]⟩
      | false =>
          obtain ⟨plain, left⟩ := steady rfl
          refine ⟨holds.write left, fun later isLater => ?_⟩
          obtain rfl := Option.some.inj isLater
          exact sound.written plain known named
  | clearing name =>
      refine ⟨holds.clear member, fun later isLater => ?_⟩
      obtain rfl := Option.some.inj isLater
      exact
        { wrote := by simp
          owed := fun _ held => held
          formed := trivial
          known := trivial }

theorem Coherent.begin (holds : Coherent layers environ state) (request : Request Atom)
    (known : request.Known layers) (forceReload : Bool) :
    Coherent layers environ
      (state.begin request (if forceReload then .reading else .checking)) := by
  refine holds.withCalls fun call member => ?_
  rcases List.mem_append.mp member with listed | begun
  · exact holds.calls call listed
  · obtain rfl := List.mem_singleton.mp begun
    exact
      { wrote := by simp
        owed := fun _ held => held
        formed := by cases forceReload <;> trivial
        known := known }

theorem Coherent.step {label : Label Atom} (holds : Coherent layers environ state)
    (taken : Shared.step layers environ state label = some next)
    (steady : Steady layers environ state label next) : Coherent layers environ next := by
  cases label with
  | merged forceReload => exact Option.some.inj taken ▸ holds.begin .merged trivial forceReload
  | ofSection name forceReload =>
      exact Option.some.inj taken ▸ holds.begin (.ofSection name) trivial forceReload
  | updateSection name patch =>
      simp only [Shared.step] at taken
      split at taken
      · exact Option.some.inj taken ▸ holds
      · rename_i writable
        have known : (layers.defaults name).isSome :=
          Option.isSome_iff_ne_none.mpr (not_or.mp writable).1
        exact Option.some.inj taken ▸ holds.begin (.updateSection name patch) known true
  | next position fails =>
      obtain ⟨call, here, written⟩ := Option.map_eq_some_iff.mp taken
      obtain ⟨after, later⟩ := holds.advance (List.mem_of_getElem? here) (steady call here)
      rcases advanced : Shared.advance layers environ state call fails with ⟨reached, goesOn⟩
      rw [advanced] at after later written
      cases goesOn with
      | none =>
          subst written
          exact after.withCalls fun other member =>
            after.calls other (List.mem_of_mem_eraseIdx member)
      | some going =>
          subst written
          refine after.withCalls fun other member => ?_
          rcases List.mem_or_eq_of_mem_set member with listed | rfl
          · exact after.calls other listed
          · exact later other rfl

theorem start_coherent (database : Database Atom) :
    Coherent layers environ (start database) where
  saved := by simp [start]
  cached := by simp [start]
  calls := by simp [start]
  given := by simp [start]

private def general : Text := "general".toList

private def saveTitle : Label Empty :=
  .updateSection general [("app_title".toList, .leaf (.str "T".toList))]

private def saveLanguage : Label Empty :=
  .updateSection general [("locale".toList, .leaf (.str "nl".toList))]

private def goOn (steps : Nat) : List (Label Empty) := List.replicate steps (.next 0 false)

/-- A title is saved, then the language, and the section is read. -/
def successiveUpdates : List (Label Empty) :=
  saveTitle :: goOn 9 ++ saveLanguage :: goOn 9 ++ .ofSection general false :: goOn 2

/-- Both updates read the section before one of them has written it. -/
def overlappingUpdates : List (Label Empty) :=
  saveTitle :: saveLanguage :: .next 0 false :: .next 1 false :: goOn 8 ++ goOn 8 ++
    .ofSection general false :: goOn 2

private theorem textAt_of_get {path : List Text} {map value : Value Empty}
    (found : get path map = some value) : textAt path map = textAt [] value := by
  rw [textAt, found, textAt, get_nil]

/-- Two values have the same text at a path. -/
private def sameText (path : List Text) (left right : Value Empty) : Bool :=
  (textAt path left).isSome && textAt path left = textAt path right

private theorem get_of_sameText {path : List Text} {left right : Value Empty}
    (same : sameText path left right = true) : get path left = get path right := by
  obtain ⟨found, equal⟩ := Bool.and_eq_true_iff.mp same
  obtain ⟨text, isText⟩ := Option.isSome_iff_exists.mp found
  rw [textAt_eq_some.mp isText,
    textAt_eq_some.mp ((decide_eq_true_iff.mp equal).symm.trans isText)]

/-- Texts alone are saved, one at a time, in keys that are not overridden. -/
private def plainText (name : Text) : List (List Text × Value Empty) → Bool
  | [(path, .leaf _)] =>
      (overridesOf unset name : List (List Text × Value Empty)).all fun override =>
        Apart override.1 path
  | _ => false

private theorem plain_of_plainText {name : Text} {entries : List (List Text × Value Empty)}
    (isText : plainText name entries = true) : Plain sampleLayers unset name entries := by
  rw [plainText.eq_def] at isText
  split at isText
  · rename_i path value
    exact
      { free := by simpa using isText
        agree := agree_singleton _
        complete := fun entry member => by
          obtain rfl := List.mem_singleton.mp member
          cases get path (lower sampleLayers name) with
          | none => trivial
          | some below => cases below <;> trivial }
  · cases isText

private def callAlike (state : State Empty) (call : Call Empty) : Bool :=
  match call.stage with
  | .checking | .reading | .clearing _ => true
  | .publishing data => state.saved.all fun key =>
      sameText key.path (data key.within) (mergedOf sampleLayers unset state.database key.within)
  | .copying => state.cache.isSome
  | .writing name entries current => plainText name entries && state.written.all fun key =>
      key.within = name → key.path ∈ entries.map Prod.fst ∨
        (∀ entry ∈ entries, Apart entry.1 key.path) ∧
          sameText key.path current (mergedOf sampleLayers unset state.database name)

private theorem steady_of_callAlike {state : State Empty} {call : Call Empty} {fails : Bool}
    (met : callAlike state call = true) : call.Steady sampleLayers unset state fails := by
  obtain ⟨request, stage, owed, wrote⟩ := call
  cases stage with
  | checking => trivial
  | reading => trivial
  | publishing data =>
      intro key saved
      exact get_of_sameText (List.all_eq_true.mp met key saved)
  | copying => exact met
  | writing name entries current =>
      intro _
      obtain ⟨isText, left⟩ := Bool.and_eq_true_iff.mp met
      refine ⟨plain_of_plainText isText, fun key written here => ?_⟩
      exact (decide_eq_true_iff.mp (List.all_eq_true.mp left key written) here).imp_right
        fun ⟨apart, same⟩ => ⟨apart, get_of_sameText same⟩
  | clearing name => trivial

/-- Steady, as far as the texts show, is a step that goes on with a call. -/
private def StepAlike (state : State Empty) (label : Label Empty) (_ : State Empty) : Prop :=
  match label with
  | .next position _ => (state.calls[position]?).all (callAlike state) = true
  | _ => True

private instance (state : State Empty) :
    ∀ (label : Label Empty) (next : State Empty), Decidable (StepAlike state label next)
  | .next position _, _ =>
      inferInstanceAs (Decidable ((state.calls[position]?).all (callAlike state) = true))
  | .merged _, _ | .ofSection .., _ | .updateSection .., _ => .isTrue trivial

private theorem steady_of_stepAlike {state next : State Empty} {label : Label Empty}
    (met : StepAlike state label next) : Steady sampleLayers unset state label next := by
  cases label with
  | next position fails =>
      intro call here
      rw [StepAlike, Option.mem_def.mp here] at met
      exact steady_of_callAlike met
  | merged forceReload => trivial
  | ofSection name forceReload => trivial
  | updateSection name patch => trivial

end Shared
end Settings
end DomainLens
