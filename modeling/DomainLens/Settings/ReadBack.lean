import DomainLens.Settings.Store

/-!
# Reading back what was saved

A save stores the whole section and reading lays it over the defaults and the file again.  This file
settles which values come back as they were saved.
-/

namespace DomainLens
namespace Settings

open Python NestedMap

variable {Atom : Type*}

/-! ## The law -/

/-- The entries saved are read back, and nothing that lies neither in one of them nor around it has
changed. -/
def ReadBack (before after : Value Atom) (entries : List (List Text × Value Atom)) : Prop :=
  (∀ entry ∈ entries, get entry.1 after = some entry.2) ∧
    ∀ path, (∀ entry ∈ entries, Apart entry.1 path) → get path after = get path before

/-- A saved object has every key that the layers below have there. -/
def Complete (below : Value Atom) (entries : List (List Text × Value Atom)) : Prop :=
  ∀ entry ∈ entries, CoversAt (get entry.1 below) (some entry.2)

/-- Where the section has no object on the way to a key touched, the layers below have nothing
there but around and within the keys touched. -/
def Unrevived (below current : Value Atom) (touched : List (List Text)) : Prop :=
  ∀ front rest, front ++ rest ∈ touched → rest ≠ [] → ∀ value, get front current = some (.leaf value) →
    ∀ inner, inner ≠ [] → get (front ++ inner) below ≠ none →
      ∃ other ∈ touched, ¬Apart other (front ++ inner)

/-! ## A section and its saved form -/

section Saving

variable {below stored : Value Atom} {patch environment : List (List Text × Value Atom)}
  {path : List Text}

private theorem saved_get (apart : ∀ entry ∈ environment ++ patch, Apart entry.1 path)
    (map : Value Atom) : get path (setAll (environment ++ patch) map) = get path map :=
  get_setAll_of_apart apart map

private theorem saved_not_blocked {map : Value Atom}
    (apart : ∀ entry ∈ environment ++ patch, Apart entry.1 path)
    (free : ∀ front back value, path = front ++ back → back ≠ [] →
      (∀ entry ∈ environment ++ patch, Apart entry.1 front) → get front map ≠ some (.leaf value)) :
    ¬Blocked path (setAll (environment ++ patch) map) := by
  rintro ⟨front, back, value, rfl, within, leaf⟩
  by_cases away : ∀ entry ∈ environment ++ patch, Apart entry.1 front
  · rw [get_setAll_of_apart away] at leaf
    exact free front back value rfl within away leaf
  · push Not at away
    obtain ⟨entry, member, touching⟩ := away
    have none_within : ∀ entry ∈ environment ++ patch, ¬entry.1 <+: front :=
      fun entry member inside => (apart entry member).1 (inside.trans (List.prefix_append ..))
    have beyond : front <+: entry.1 := by
      by_contra not_beyond
      exact touching ⟨none_within entry member, not_beyond⟩
    have node : shape (get front (setAll (environment ++ patch) map)) = .node :=
      shape_setAll_of_beyond none_within (.inr ⟨entry, member, beyond⟩)
    rw [leaf] at node
    simp [shape] at node

private theorem lacking_of_overlay {above : Option (Value Atom)}
    (absent : get path (overlay below above) = none) (free : ¬Blocked path (overlay below above)) :
    get path below = none := by
  rcases above with - | value | values
  · exact absent
  · exact absent
  · rw [overlay] at absent free
    cases found : get path (.node values : Value Atom) with
    | some value =>
        have shown : shape (get path (merge below (.node values))) = shape (some value) :=
          shape_merge_of_some found
        rw [absent] at shown
        cases value <;> simp [shape] at shown
    | none =>
        by_cases hidden : Blocked path (.node values : Value Atom)
        · exact absurd (hidden.merge below) free
        · rwa [get_merge_of_none found hidden] at absent

private theorem shape_saved {above : Option (Value Atom)}
    (apart : ∀ entry ∈ environment ++ patch, Apart entry.1 path)
    (unrevived : Unrevived below (overlay below above) ((environment ++ patch).map Prod.fst)) :
    shape (get path (merge below (setAll (environment ++ patch) (overlay below above)))) =
      shape (get path (overlay below above)) := by
  have kept := saved_get apart (overlay below above)
  by_cases blocked : Blocked path (overlay below above)
  · rw [blocked.get_eq_none] at kept ⊢
    rw [shape_eq_absent.mpr rfl, shape_eq_absent]
    obtain ⟨front, back, value, rfl, within, leaf⟩ := blocked
    by_cases away : ∀ entry ∈ environment ++ patch, Apart entry.1 front
    · have hidden : Blocked (front ++ back) (setAll (environment ++ patch) (overlay below above)) :=
        ⟨front, back, value, rfl, within, by rw [get_setAll_of_apart away, leaf]⟩
      exact (hidden.merge below).get_eq_none
    · have lacking : get (front ++ back) below = none := by
        push Not at away
        obtain ⟨entry, member, touching⟩ := away
        have outside : ¬entry.1 <+: front := fun inside =>
          (apart entry member).1 (inside.trans (List.prefix_append ..))
        obtain ⟨rest, isPath⟩ : front <+: entry.1 := by
          by_contra not_beyond
          exact touching ⟨outside, not_beyond⟩
        have proper : rest ≠ [] := by
          rintro rfl
          exact outside (by simp [← isPath])
        by_contra there
        obtain ⟨other, listed, near⟩ := unrevived front rest
          (isPath ▸ List.mem_map_of_mem member) proper value leaf back within there
        obtain ⟨written, held, rfl⟩ := List.mem_map.mp listed
        exact near (apart written held)
      by_cases hidden : Blocked (front ++ back) (setAll (environment ++ patch) (overlay below above))
      · exact (hidden.merge below).get_eq_none
      · rw [get_merge_of_none kept hidden, lacking]
  · cases found : get path (overlay below above) with
    | some value =>
        rw [found] at kept
        exact shape_merge_of_some kept
    | none =>
        rw [found] at kept
        have free : ¬Blocked path (setAll (environment ++ patch) (overlay below above)) :=
          saved_not_blocked apart fun front back value isPath within _ leaf =>
            blocked ⟨front, back, value, isPath, within, leaf⟩
        rw [get_merge_of_none kept free, lacking_of_overlay found blocked]

private theorem readBack_saved_iff {above : Option (Value Atom)}
    (free : ∀ entry ∈ patch, ∀ override ∈ environment, Apart entry.1 override.1) :
    ReadBack (setAll environment (overlay below above))
        (setAll environment
          (merge below (setAll (environment ++ patch) (overlay below above)))) patch ↔
      Agree patch ∧ Complete below patch ∧
        Unrevived below (overlay below above) ((environment ++ patch).map Prod.fst) := by
  have read : ∀ (map : Value Atom), ∀ entry ∈ patch,
      get entry.1 (setAll environment map) = get entry.1 map := fun map entry member =>
    get_setAll_of_apart (fun override listed => (free entry member override listed).symm) map
  have stored : Agree patch → ∀ entry ∈ patch,
      get entry.1 (setAll (environment ++ patch) (overlay below above)) = some entry.2 := by
    intro agree entry member
    rw [setAll_append]
    exact get_setAll_of_agree agree (fun _ held => held) member (.inl member)
  constructor
  · rintro ⟨saved, kept⟩
    have agree : Agree patch := by
      intro outer member rest value inner
      have there := saved _ inner
      rw [get_append, saved outer member, Option.bind_some] at there
      exact there
    refine ⟨agree, fun entry member => ?_, ?_⟩
    · have there := saved entry member
      rw [read _ entry member, get_merge_of_some (stored agree entry member)] at there
      exact (mergeAt_eq_self_iff _ _).mp there
    · intro front rest listed proper value leaf inner within there
      by_contra away
      push Not at away
      have apart : ∀ entry ∈ environment ++ patch, Apart entry.1 (front ++ inner) :=
        fun entry member => away entry.1 (List.mem_map_of_mem member)
      have absent : get (front ++ inner) (overlay below above) = none := by
        rw [get_append, leaf, Option.bind_some, get_leaf within]
      have shown := kept (front ++ inner) fun entry member =>
        apart entry (List.mem_append_right _ member)
      have unset_ : ∀ override ∈ environment, Apart override.1 (front ++ inner) :=
        fun override member => apart override (List.mem_append_left _ member)
      rw [get_setAll_of_apart unset_, get_setAll_of_apart unset_, absent] at shown
      have lacking := (saved_get apart (overlay below above)).trans absent
      have open_ : ¬Blocked (front ++ inner) (setAll (environment ++ patch) (overlay below above)) := by
        refine saved_not_blocked apart fun other back hidden isPath _ aside leaf' => ?_
        obtain ⟨entry, member, isFront⟩ := List.mem_map.mp listed
        have around : front <+: entry.1 := isFront ▸ List.prefix_append front rest
        rcases List.prefix_or_prefix_of_prefix (isPath ▸ List.prefix_append front inner)
          (List.prefix_append other back) with ⟨more, rfl⟩ | ⟨more, rfl⟩
        · cases more with
          | nil => exact (aside entry member).2 (by simpa using around)
          | cons key more =>
              rw [get_append, leaf, Option.bind_some, get_leaf (by simp)] at leaf'
              simp at leaf'
        · exact (aside entry member).2 ((List.prefix_append other more).trans around)
      rw [get_merge_of_none lacking open_] at shown
      exact there shown
  · rintro ⟨agree, complete, unrevived⟩
    refine ⟨fun entry member => ?_, fun path outside => ?_⟩
    · rw [read _ entry member, get_merge_of_some (stored agree entry member),
        mergeAt_eq_self_iff]
      exact complete entry member
    · refine eqAt_of_shape _ _ fun rest => ?_
      rw [← get_append, ← get_append]
      have further : ∀ entry ∈ patch, Apart entry.1 (path ++ rest) :=
        fun entry member => (outside entry member).append rest
      by_cases within : ∃ override ∈ environment, override.1 <+: path ++ rest
      · rw [get_setAll_of_within within]
      · push Not at within
        by_cases beyond : ∃ override ∈ environment, path ++ rest <+: override.1
        · rw [shape_setAll_of_beyond within (.inr beyond), shape_setAll_of_beyond within (.inr beyond)]
        · push Not at beyond
          have unset_ : ∀ override ∈ environment, Apart override.1 (path ++ rest) :=
            fun override member => ⟨within override member, beyond override member⟩
          rw [get_setAll_of_apart unset_, get_setAll_of_apart unset_]
          refine shape_saved (fun entry member => ?_) unrevived
          exact (List.mem_append.mp member).elim (unset_ entry) (further entry)

end Saving

/-! ## Saves of the store -/

variable {layers : Layers Atom} {environ : Environ} {database next : Database Atom} {name : Text}

private theorem overlay_node (child : Text → Option (Value Atom)) (above : Option (Value Atom)) :
    ∃ values, overlay (.node child) above = .node values := by
  rcases above with - | value | values
  · exact ⟨child, rfl⟩
  · exact ⟨child, rfl⟩
  · exact ⟨_, by rw [overlay, merge]⟩

private theorem overlay_lower_node (layers : Layers Atom) (name : Text) (above : Option (Value Atom)) :
    ∃ values, overlay (lower layers name) above = .node values := by
  obtain ⟨low, isLow⟩ := overlay_node ((layers.defaults name).getD fun _ => none) (layers.file name)
  rw [lower, isLow]
  exact overlay_node low above

private theorem setAll_node (entries : List (List Text × Value Atom))
    (within : ∀ entry ∈ entries, entry.1 ≠ []) (child : Text → Option (Value Atom)) :
    ∃ values, setAll entries (.node child) = .node values := by
  induction entries generalizing child with
  | nil => exact ⟨child, rfl⟩
  | cons entry entries induction =>
      obtain ⟨first, others⟩ := List.forall_mem_cons.mp within
      obtain ⟨key, path, isPath⟩ := List.exists_cons_of_ne_nil first
      rw [setAll_cons, isPath, NestedMap.set]
      exact induction others _

theorem pathOf_ne_nil (key : Text) : pathOf key ≠ [] := by
  rw [pathOf, List.splitOn]
  exact List.splitOnPPrepend_ne_nil _ _ _

private theorem sectionOf_next {patch : List (Text × Value Atom)}
    {entries : List (List Text × Value Atom)} (checked : checkedPatch name patch = .ok entries)
    (saved : updateSection layers environ database name patch = .ok next) :
    sectionOf layers environ next name =
      setAll (overridesOf environ name)
        (merge (lower layers name)
          (setAll (overridesOf environ name ++ entries)
            (overlay (lower layers name) (database name)))) := by
  obtain ⟨-, others, same, rfl⟩ := updateSection_eq_ok.mp saved
  obtain rfl := Except.ok.inj (checked.symm.trans same)
  have named : ∀ entry ∈ overridesOf environ name ++ entries, entry.1 ≠ [] := by
    intro entry member
    rcases List.mem_append.mp member with override | written
    · obtain ⟨known, listed, -, path, -⟩ := mem_overridesOf override
      exact path ▸ envOverrides_path_ne_nil known listed
    · have path : entry.1 ∈ patch.map fun entry => pathOf entry.1 :=
        checkedPatch_paths checked ▸ List.mem_map_of_mem written
      obtain ⟨original, -, same⟩ := List.mem_map.mp path
      exact same ▸ pathOf_ne_nil original.1
  obtain ⟨whole, isWhole⟩ := overlay_lower_node layers name (database name)
  obtain ⟨values, isValues⟩ := setAll_node (overridesOf environ name ++ entries) named whole
  rw [sectionOf, Function.update_self, sectionOf, ← setAll_append, isWhole, isValues, overlay]

/-- After an accepted save of keys that are not overridden, the section has every entry of the patch
as it was checked and everything else as before, exactly if the entries agree with each other, each
saved object has all the keys of the layers below, and nothing is revived. -/
theorem readBack_iff (layers : Layers Atom) (environ : Environ) (database : Database Atom)
    {name : Text} {patch : List (Text × Value Atom)} {next : Database Atom}
    {entries : List (List Text × Value Atom)}
    (untouched : Untouched environ name patch) (checked : checkedPatch name patch = .ok entries)
    (saved : updateSection layers environ database name patch = .ok next) :
    ReadBack (sectionOf layers environ database name) (sectionOf layers environ next name) entries ↔
      Agree entries ∧ Complete (lower layers name) entries ∧
        Unrevived (lower layers name) (overlay (lower layers name) (database name))
          ((overridesOf environ name ++ entries).map Prod.fst) := by
  rw [sectionOf_next checked saved]
  refine readBack_saved_iff fun entry member override listed => ?_
  have path : entry.1 ∈ patch.map fun entry => pathOf entry.1 :=
    checkedPatch_paths checked ▸ List.mem_map_of_mem member
  obtain ⟨original, held, same⟩ := List.mem_map.mp path
  exact same ▸ untouched original held override listed

/-! ## A title and a port -/

private def titleEntry : List Text × Value Empty := (["app_title".toList], .leaf (.str "T".toList))

/-- A title saved where nothing is below it is read back, and the rest is as before. -/
theorem title_readBack :
    ∃ next, updateSection sampleLayers sampleEnviron (fun _ => none) "general".toList
        [("app_title".toList, titleEntry.2)] = .ok next ∧
      ReadBack (sectionOf sampleLayers sampleEnviron (fun _ => none) "general".toList)
        (sectionOf sampleLayers sampleEnviron next "general".toList) [titleEntry] := by
  have untouched : Untouched sampleEnviron "general".toList [("app_title".toList, titleEntry.2)] :=
    sampleUpdates_untouched _ List.mem_cons_self
  have checked : checkedPatch "general".toList [("app_title".toList, titleEntry.2)] =
      .ok [titleEntry] := by
    have other : fieldType "general".toList "app_title".toList = .other := by decide +kernel
    have clean : holdsPrivateKey titleEntry.2 = false := by decide +kernel
    simp only [checkedPatch, validateField, other, clean]
    rfl
  have known : sampleLayers.defaults "general".toList ≠ none :=
    Option.isSome_iff_ne_none.mp (by decide +kernel)
  obtain ⟨next, saved⟩ : ∃ next, updateSection sampleLayers sampleEnviron (fun _ => none)
      "general".toList [("app_title".toList, titleEntry.2)] = .ok next :=
    accepted_iff.mp ⟨⟨known, by decide⟩, _, checked⟩
  refine ⟨next, saved, (readBack_iff sampleLayers sampleEnviron (fun _ => none) untouched checked
    saved).mpr ⟨?_, ?_, ?_⟩⟩
  · exact agree_singleton titleEntry
  · intro entry member
    obtain rfl := List.mem_singleton.mp member
    have absent : (get titleEntry.1 (lower sampleLayers "general".toList)).isNone = true := by
      decide +kernel
    rw [Option.isNone_iff_eq_none.mp absent]
    trivial
  · intro front rest listed proper value leaf
    have single : ∀ path ∈ (overridesOf sampleEnviron "general".toList ++ [titleEntry]).map Prod.fst,
        path.length = 1 := by
      decide +kernel
    have length := single _ listed
    rw [List.length_append] at length
    have positive := List.length_pos_iff.mpr proper
    obtain rfl : front = [] := List.length_eq_zero_iff.mp (by omega)
    obtain ⟨values, isNode⟩ := overlay_lower_node sampleLayers "general".toList none
    rw [get_nil, isNode] at leaf
    cases leaf

def portLayers : Layers Empty where
  defaults name :=
    if name = "scan".toList then
      some fun key => if key = "ports".toList then
        some (.node fun port =>
          if port = "21".toList then some (.leaf (.str "FTP".toList))
          else if port = "443".toList then some (.leaf (.str "HTTPS".toList))
          else none)
        else none
    else none
  file _ := none

def onlyHttps : Value Empty :=
  .node fun port => if port = "443".toList then some (.leaf (.str "HTTPS".toList)) else none

/-- A port taken out of the object of ports comes back from the defaults. -/
theorem removedPort_returns :
    ∃ next, updateSection portLayers unset (fun _ => none) "scan".toList
        [("ports".toList, onlyHttps)] = .ok next ∧
      ¬ReadBack (sectionOf portLayers unset (fun _ => none) "scan".toList)
        (sectionOf portLayers unset next "scan".toList) [(["ports".toList], onlyHttps)] := by
  have checked : checkedPatch "scan".toList [("ports".toList, onlyHttps)] =
      .ok [(["ports".toList], onlyHttps)] := by
    have other : fieldType "scan".toList "ports".toList = .other := by decide +kernel
    simp only [checkedPatch, validateField, other]
    rfl
  have known : portLayers.defaults "scan".toList ≠ none :=
    Option.isSome_iff_ne_none.mp (by decide +kernel)
  refine ⟨_, updateSection_eq_ok.mpr ⟨⟨known, by decide⟩, _, checked, rfl⟩, ?_⟩
  intro readBack
  have saved := readBack.1 _ List.mem_cons_self
  have returned : textAt ["ports".toList, "21".toList] (sectionOf portLayers unset
      (Function.update (fun _ => none) "scan".toList
        (some (setAll [(["ports".toList], onlyHttps)]
          (sectionOf portLayers unset (fun _ => none) "scan".toList)))) "scan".toList) =
      some "FTP".toList := by
    decide +kernel
  have whole := textAt_eq_some.mp returned
  rw [show ["ports".toList, "21".toList] = ["ports".toList] ++ ["21".toList] from rfl, get_append,
    saved, Option.bind_some] at whole
  have removed : textAt ["21".toList] onlyHttps = none := by decide +kernel
  rw [textAt_eq_some.mpr whole] at removed
  exact absurd removed (by simp)

end Settings
end DomainLens
