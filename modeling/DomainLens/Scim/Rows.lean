import DomainLens.Library.Run
import DomainLens.Scim.Users

/-!
# Rows a directory brings about

Every row starts with a request that creates it and goes on with replacements and patches.  What
the store cleans stays clean: the step lemmas of the requests keep one invariant of the row.
-/

namespace DomainLens
namespace Scim

open Python

/-! ## Cleaning -/

theorem blankToNone_eq_some {text value : Text} (cleaned : blankToNone text = some value) :
    IsStripped value ∧ value ≠ [] := by
  unfold blankToNone at cleaned
  split at cleaned
  · cases cleaned
  · rename_i nonempty
    cases cleaned
    exact ⟨isStripped_strip text, nonempty⟩

theorem blankToNone_of_isStripped {value : Text} (stripped : IsStripped value)
    (nonempty : value ≠ []) : blankToNone value = some value := by
  rw [blankToNone, strip_of_isStripped stripped, if_neg nonempty]

theorem cleanValue_cleanValue (value : Option Text) :
    cleanValue (cleanValue value) = cleanValue value := by
  cases cleaned : cleanValue value with
  | none => rfl
  | some text =>
      obtain ⟨raw, -, found⟩ := Option.bind_eq_some_iff.mp cleaned
      obtain ⟨stripped, nonempty⟩ := blankToNone_eq_some found
      exact blankToNone_of_isStripped stripped nonempty

theorem cleanText_cleanText (text : Text) : cleanText (cleanText text) = cleanText text := by
  have stripped : IsStripped (cleanText text) := isStripped_lower (isStripped_strip text)
  rw [cleanText, strip_of_isStripped stripped]
  exact lower_of_isLower fun char member => isLower_of_mem_lower member

variable {Rest : Type} (render : Json → Text)

theorem normalizeRole_mem (value : Text) : normalizeRole value ∈ roleNames := by
  unfold normalizeRole
  lift_lets
  intro name known
  split
  · assumption
  · decide

theorem roleFromPayload_mem (payload : Entries) (default : Text) :
    roleFromPayload render payload default ∈ roleNames := by
  unfold roleFromPayload
  lift_lets
  intro values found
  split
  · decide
  · split
    · decide
    · split
      · decide
      · exact normalizeRole_mem default

/-! ## What is left over -/

/-- The column of what is left over: each key once, and none of an attribute. -/
structure IsLeftOver (entries : Entries) : Prop where
  distinct : (entries.map Prod.fst).Nodup
  extra : ∀ entry ∈ entries, isExtra entry.1 = true

theorem IsLeftOver.nil : IsLeftOver [] := ⟨List.nodup_nil, fun _ member => by cases member⟩

theorem IsLeftOver.updateItems {entries changes : Entries} (old : IsLeftOver entries)
    (new : IsLeftOver changes) : IsLeftOver (updateItems entries changes) where
  distinct := nodup_updateItems old.distinct
  extra entry member := (mem_updateItems member).elim (old.extra entry) (new.extra entry)

private theorem isLeftOver_readDomainlens {state : Updates × Entries} {entry : String × Json}
    (left : IsLeftOver state.2) : IsLeftOver (readDomainlens render state entry).2 := by
  unfold readDomainlens
  split
  · rename_i extra
    refine ⟨nodup_setItem left.distinct, fun other member => ?_⟩
    rcases mem_setItem member with rfl | old
    · exact extra
    · exact left.extra other old
  · split
    · exact left
    · exact left

theorem isLeftOver_of_profile {payload : Entries} {updates : Updates} {extra : Entries}
    (read : profileFromScimPayload render payload = some (updates, extra)) : IsLeftOver extra := by
  obtain ⟨phones, -, rest⟩ := Option.bind_eq_some_iff.mp read
  obtain ⟨-, rfl⟩ := Prod.mk.inj (Option.some.inj rest)
  exact List.foldlRecOn (motive := fun state : Updates × Entries => IsLeftOver state.2) _ _ .nil
    fun state left entry _ => isLeftOver_readDomainlens render left

/-! ## The invariant -/

/-- What the store and the requests see to in every row. -/
structure Kept (user : User Rest) : Prop where
  email : cleanText user.email = user.email
  userName : IsStripped user.userName
  role : user.role ∈ roleNames
  provider : user.provider = "scim".toList
  externalId : cleanValue user.externalId = user.externalId
  profile : ∀ field, cleanValue (user.profile field) = user.profile field
  leftOver : IsLeftOver user.scimProfile

/-- What a request makes sure of in the columns the store does not clean. -/
structure Sound (changes : Changes) : Prop where
  userName : ∀ name ∈ changes.userName, IsStripped name
  role : ∀ role ∈ changes.role, role ∈ roleNames
  provider : ∀ provider ∈ changes.provider, provider = "scim".toList
  leftOver : ∀ entries ∈ changes.scimProfile, IsLeftOver entries

theorem Sound.none : Sound Changes.none where
  userName _ member := by cases member
  role _ member := by cases member
  provider _ member := by cases member
  leftOver _ member := by cases member

private theorem getD_of_mem {α : Type*} (property : α → Prop) {change : Option α} {value : α}
    (changed : ∀ given ∈ change, property given) (unchanged : property value) :
    property (change.getD value) := by
  cases change with
  | none => exact unchanged
  | some given => exact changed given rfl

theorem kept_updateUser {user : User Rest} {changes : Changes} {now : Text} (kept : Kept user)
    (sound : Sound changes) : Kept (updateUser user changes now) where
  email := by
    refine getD_of_mem (fun email => cleanText email = email) ?_ kept.email
    intro email member
    obtain ⟨raw, -, rfl⟩ := Option.map_eq_some_iff.mp member
    exact cleanText_cleanText raw
  userName := getD_of_mem _ sound.userName kept.userName
  role := getD_of_mem _ sound.role kept.role
  provider := by
    refine getD_of_mem (fun provider => provider = "scim".toList) ?_ kept.provider
    intro provider member
    obtain ⟨raw, given, rfl⟩ := Option.map_eq_some_iff.mp member
    rw [sound.provider raw given]
    decide +kernel
  externalId := by
    refine getD_of_mem (fun value => cleanValue value = value) ?_ kept.externalId
    intro value member
    obtain ⟨raw, -, rfl⟩ := Option.map_eq_some_iff.mp member
    exact cleanValue_cleanValue raw
  profile field := by
    refine getD_of_mem (fun value => cleanValue value = value) ?_ (kept.profile field)
    intro value member
    obtain ⟨raw, -, rfl⟩ := Option.map_eq_some_iff.mp member
    exact cleanValue_cleanValue raw
  leftOver := getD_of_mem _ sound.leftOver kept.leftOver

/-! ## Creating and replacing -/

theorem kept_scimCreateUser {body : Json} {defaultRole now : Text} {id : Nat} {rest : Rest}
    {user : User Rest}
    (created : scimCreateUser render body defaultRole id now rest = some user) : Kept user := by
  unfold scimCreateUser at created
  obtain ⟨payload, -, created⟩ := Option.bind_eq_some_iff.mp created
  obtain ⟨userName, -, created⟩ := Option.bind_eq_some_iff.mp created
  dsimp only at created
  split at created
  · cases created
  · obtain ⟨external, -, created⟩ := Option.bind_eq_some_iff.mp created
    obtain ⟨⟨profile, extra⟩, read, created⟩ := Option.bind_eq_some_iff.mp created
    obtain ⟨name, -, created⟩ := Option.bind_eq_some_iff.mp created
    obtain rfl := Option.some.inj created
    exact {
      email := cleanText_cleanText _
      userName := isStripped_strip _
      role := roleFromPayload_mem render _ _
      provider := rfl
      externalId := cleanValue_cleanValue _
      profile := fun field => by
        change cleanValue ((profile field).bind cleanValue) = (profile field).bind cleanValue
        cases profile field with
        | none => rfl
        | some value => exact cleanValue_cleanValue value
      leftOver := isLeftOver_of_profile render read }

theorem sound_replacement {user : User Rest} {payload : Entries} {defaultRole : Text}
    {changes : Changes} (kept : Kept user)
    (replaced : replacement render user payload defaultRole = some changes) : Sound changes := by
  obtain ⟨userName, isName, replaced⟩ := Option.bind_eq_some_iff.mp replaced
  obtain ⟨name, -, replaced⟩ := Option.bind_eq_some_iff.mp replaced
  obtain ⟨⟨profile, extra⟩, read, replaced⟩ := Option.bind_eq_some_iff.mp replaced
  obtain rfl := Option.some.inj replaced
  obtain ⟨raw, -, rfl⟩ := Option.map_eq_some_iff.mp isName
  refine ⟨?_, ?_, ?_, ?_⟩
  · rintro _ ⟨⟩
    exact isStripped_strip raw
  · rintro _ ⟨⟩
    exact roleFromPayload_mem render _ _
  · rintro _ ⟨⟩
    split
    · rfl
    · exact kept.provider
  · intro entries member
    dsimp only at member
    split at member
    · cases member
    · cases member
      exact kept.leftOver.updateItems (isLeftOver_of_profile render read)

/-! ## Patching -/

private theorem Sound.of_same {changes other : Changes} (sound : Sound changes)
    (userName : other.userName = changes.userName) (role : other.role = changes.role)
    (provider : other.provider = changes.provider)
    (scimProfile : other.scimProfile = changes.scimProfile) : Sound other where
  userName := userName ▸ sound.userName
  role := role ▸ sound.role
  provider := provider ▸ sound.provider
  leftOver := scimProfile ▸ sound.leftOver

private theorem sound_setEmail {value : Json} {changes : Changes} (sound : Sound changes) :
    Sound (setEmail render value changes) := by
  unfold setEmail
  split
  · exact sound.of_same rfl rfl rfl rfl
  · exact sound

private theorem sound_setUserName {value : Json} {changes : Changes} (sound : Sound changes) :
    Sound (setUserName render value changes) := by
  unfold setUserName
  split
  · refine ⟨?_, sound.role, sound.provider, sound.leftOver⟩
    rintro _ ⟨⟩
    exact isStripped_strip _
  · exact sound

private theorem sound_patchNamed {user : User Rest} {path pathL : Text} {value : Json}
    {changes : Changes} (sound : Sound changes) :
    Sound (patchNamed render user path pathL value changes) := by
  unfold patchNamed
  extract_lets entries switched named external identified titled
  have afterActive : Sound switched := by
    unfold switched
    split
    · exact sound.of_same rfl rfl rfl rfl
    · split
      · exact sound.of_same rfl rfl rfl rfl
      · exact sound
  have afterUserName : Sound named := by
    unfold named
    split
    · exact sound_setUserName render afterActive
    · exact afterActive
  have afterExternal : Sound identified := by
    unfold identified
    split
    · exact afterUserName.of_same rfl rfl rfl rfl
    · exact afterUserName
  have afterName : Sound titled := by
    unfold titled
    split
    · exact afterExternal.of_same rfl rfl rfl rfl
    · exact afterExternal
  split
  · exact sound_setEmail render afterName
  · exact afterName

private theorem sound_patchObject {user : User Rest} {value : Entries} {changes patched : Changes}
    (kept : Kept user) (sound : Sound changes)
    (applied : patchObject render user value changes = some patched) : Sound patched := by
  unfold patchObject at applied
  extract_lets named addressed at applied
  have afterName : Sound named := by
    unfold named
    split
    · exact sound.of_same rfl rfl rfl rfl
    · exact sound
  have afterEmail : Sound addressed := sound_setEmail render afterName
  obtain ⟨⟨profile, extra⟩, read, applied⟩ := Option.bind_eq_some_iff.mp applied
  obtain rfl := Option.some.inj applied
  refine ⟨afterEmail.userName, afterEmail.role, afterEmail.provider, ?_⟩
  intro entries member
  dsimp only at member
  split at member
  · exact afterEmail.leftOver entries member
  · cases member
    exact kept.leftOver.updateItems (isLeftOver_of_profile render read)

private theorem sound_patchRemove {pathL : Text} {changes : Changes} (sound : Sound changes) :
    Sound (patchRemove render pathL changes) := by
  unfold patchRemove
  split
  · exact sound.of_same rfl rfl rfl rfl
  · split
    · split
      · exact sound.of_same rfl rfl rfl rfl
      · exact sound.of_same rfl rfl rfl rfl
    · exact sound

private theorem sound_applyOperation {user : User Rest} {changes patched : Changes}
    {operation : Json} (kept : Kept user) (sound : Sound changes)
    (applied : applyOperation render user changes operation = some patched) : Sound patched := by
  unfold applyOperation at applied
  split at applied
  · rename_i entries
    obtain ⟨kind, -, applied⟩ := Option.bind_eq_some_iff.mp applied
    obtain ⟨path, -, applied⟩ := Option.bind_eq_some_iff.mp applied
    dsimp only at applied
    split at applied
    · have named : Sound { patchNamed render user (patchPath (strip path)).1
            (patchPath (strip path)).2 (getItem entries "value") changes with
          profile := patchProfile render (patchPath (strip path)).2 (getItem entries "value")
            (patchNamed render user (patchPath (strip path)).1 (patchPath (strip path)).2
              (getItem entries "value") changes).profile } :=
        (sound_patchNamed render sound).of_same rfl rfl rfl rfl
      split at applied
      · exact sound_patchObject render kept named applied
      · exact Option.some.inj applied ▸ named
    · split at applied
      · exact Option.some.inj applied ▸ sound_patchRemove render sound
      · exact Option.some.inj applied ▸ sound
  · exact Option.some.inj applied ▸ sound

private theorem sound_operations {user : User Rest} {operations : List Json}
    {changes patched : Changes} (kept : Kept user) (sound : Sound changes)
    (applied : operations.foldlM (applyOperation render user) changes = some patched) :
    Sound patched := by
  induction operations generalizing changes with
  | nil => exact Option.some.inj applied ▸ sound
  | cons operation operations induction =>
      rw [List.foldlM_cons] at applied
      obtain ⟨next, taken, applied⟩ := Option.bind_eq_some_iff.mp applied
      exact induction (sound_applyOperation render kept sound taken) applied

private theorem sound_patchValue {payload : Entries} {changes patched : Changes}
    (sound : Sound changes) (applied : patchValue render payload changes = some patched) :
    Sound patched := by
  unfold patchValue at applied
  split at applied
  · obtain ⟨⟨profile, extra⟩, read, applied⟩ := Option.bind_eq_some_iff.mp applied
    obtain rfl := Option.some.inj applied
    refine ⟨sound.userName, sound.role, sound.provider, ?_⟩
    intro entries member
    dsimp only at member
    split at member
    · exact sound.leftOver entries member
    · cases member
      exact isLeftOver_of_profile render read
  · exact Option.some.inj applied ▸ sound

theorem kept_scimPatchUser {user patched : User Rest} {body : Json} {now : Text}
    (kept : Kept user) (accepted : scimPatchUser render user body now = some patched) :
    Kept patched := by
  obtain ⟨payload, -, accepted⟩ := Option.bind_eq_some_iff.mp accepted
  obtain ⟨operations, -, accepted⟩ := Option.bind_eq_some_iff.mp accepted
  obtain ⟨first, applied, accepted⟩ := Option.bind_eq_some_iff.mp accepted
  obtain ⟨second, valued, accepted⟩ := Option.bind_eq_some_iff.mp accepted
  have sound : Sound second :=
    sound_patchValue render (sound_operations render kept .none applied) valued
  obtain rfl := Option.some.inj accepted
  split
  · exact kept
  · refine kept_updateUser kept ⟨sound.userName, sound.role, sound.provider, ?_⟩
    intro entries member
    obtain ⟨changed, given, rfl⟩ := Option.map_eq_some_iff.mp member
    exact kept.leftOver.updateItems (sound.leftOver changed given)

/-! ## Runs -/

/-- A request about a row that exists. -/
inductive Request where
  | replace (body : Json) (defaultRole now : Text)
  | patch (body : Json) (now : Text)

/-- What a request makes of the row, unless it fails. -/
def serve (user : User Rest) : Request → Option (User Rest)
  | .replace body defaultRole now => scimReplaceUser render user body defaultRole now
  | .patch body now => scimPatchUser render user body now

theorem kept_serve {user next : User Rest} {request : Request} (kept : Kept user)
    (accepted : serve render user request = some next) : Kept next := by
  cases request with
  | replace body defaultRole now =>
      obtain ⟨payload, -, accepted⟩ := Option.bind_eq_some_iff.mp accepted
      obtain ⟨changes, replaced, accepted⟩ := Option.bind_eq_some_iff.mp accepted
      obtain rfl := Option.some.inj accepted
      exact kept_updateUser kept (sound_replacement render kept replaced)
  | patch body now => exact kept_scimPatchUser render kept accepted

theorem kept_run {body : Json} {defaultRole now : Text} {id : Nat} {rest : Rest}
    {first row : User Rest} {requests : List Request}
    (created : scimCreateUser render body defaultRole id now rest = some first)
    (reached : Run.run (serve render) first requests = some row) : Kept row :=
  Run.run_invariant (fun _ _ _ => kept_serve render) (kept_scimCreateUser render created) reached

end Scim
end DomainLens
