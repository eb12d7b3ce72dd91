import DomainLens.Scim.Rows

/-!
# Replacing a user by its own document

The document of a row is read back attribute by attribute.  Every step of the reading sets a column
only to what the row holds, where the company name and the organization stand in for each other; so
the replacement keeps the row but for these two and for the time of the update.
-/

namespace DomainLens
namespace Scim

open Python

/-! ## Items of a document -/

theorem lookup_textItem {key other : String} {text : Option Text} :
    (textItem key text).lookup other = if other = key then (present text).map .str else none :=
  lookup_optional

theorem lookup_objectItem {key other : String} {entries : Entries} :
    (objectItem key entries).lookup other =
      if other = key then (if entries = [] then none else some (.obj entries)) else none :=
  lookup_optional

theorem lookup_arrayItem {key other : String} {items : List Json} :
    (arrayItem key items).lookup other =
      if other = key then (if items = [] then none else some (.arr items)) else none :=
  lookup_optional

theorem null_or (other : Json) : Json.null.or other = other := rfl

theorem str_or {text : Text} (nonempty : text ≠ []) (other : Json) :
    (Json.str text).or other = .str text := by
  simp [Json.or, Json.truthy, nonempty]

/-! ## Clean profiles -/

/-- Every value of the profile is as the store writes it. -/
def IsClean (profile : Profile) : Prop := ∀ field, cleanValue (profile field) = profile field

theorem IsClean.blankToNone {profile : Profile} (clean : IsClean profile) {field : Field}
    {text : Text} (held : profile field = some text) : blankToNone text = some text := by
  have kept := clean field
  rw [held] at kept
  exact kept

theorem IsClean.ne_nil {profile : Profile} (clean : IsClean profile) {field : Field}
    {text : Text} (held : profile field = some text) : text ≠ [] :=
  (blankToNone_eq_some (clean.blankToNone held)).2

theorem IsClean.strip {profile : Profile} (clean : IsClean profile) {field : Field}
    {text : Text} (held : profile field = some text) : strip text = text :=
  strip_of_isStripped (blankToNone_eq_some (clean.blankToNone held)).1

@[simp] theorem present_some {text : Text} (nonempty : text ≠ []) :
    present (some text) = some text := by
  simp [present, nonempty]

theorem IsClean.present {profile : Profile} (clean : IsClean profile) (field : Field) :
    present (profile field) = profile field := by
  cases held : profile field with
  | none => rfl
  | some text => exact present_some (clean.ne_nil held)

/-! ## What is read -/

/-- The profile with the company name and the organization standing in for each other. -/
def mirrored (profile : Profile) : Profile
  | .organization => (profile .organization).or (profile .companyName)
  | .companyName => (profile .companyName).or (profile .organization)
  | other => profile other

theorem mirrored_of_some {profile : Profile} {field : Field} {text : Text}
    (held : profile field = some text) : mirrored profile field = some text := by
  cases field <;> simp [mirrored, held]

/-- What is set is what the profile holds, and the fields that are known are set. -/
structure Reads (profile : Profile) (known : Field → Prop) (updates : Updates) : Prop where
  agrees : ∀ field value, updates field = some value → value = mirrored profile field
  known : ∀ field, known field → updates field ≠ none

variable {profile : Profile} {known : Field → Prop} {updates : Updates}

theorem reads_none : Reads profile (fun _ => False) Updates.none :=
  ⟨fun _ _ set => by simp [Updates.none] at set, fun _ impossible => impossible.elim⟩

theorem Reads.weaken {fewer : Field → Prop} (reads : Reads profile known updates)
    (isKnown : ∀ field, fewer field → known field) : Reads profile fewer updates :=
  ⟨reads.agrees, fun field member => reads.known field (isKnown field member)⟩

theorem Reads.set {field : Field} {value : Option Text} (reads : Reads profile known updates)
    (same : value = mirrored profile field) :
    Reads profile (fun other => known other ∨ other = field) (updates.set field value) where
  agrees other found isSet := by
    by_cases equal : other = field
    · subst equal
      rw [Updates.set, Function.update_self] at isSet
      exact Option.some.inj isSet ▸ same
    · rw [Updates.set, Function.update_of_ne equal] at isSet
      exact reads.agrees other found isSet
  known other member := by
    by_cases equal : other = field
    · subst equal
      simp [Updates.set]
    · rw [Updates.set, Function.update_of_ne equal]
      exact reads.known other (member.resolve_right equal)

theorem Reads.set_keep {field : Field} {value : Option Text} (reads : Reads profile known updates)
    (same : value = mirrored profile field) : Reads profile known (updates.set field value) :=
  (reads.set same).weaken fun _ => .inl

/-- A loop whose rounds each keep what is known and gain some fields gains all of them. -/
theorem Reads.foldl {α : Type*} (step : Updates → α → Updates) (gains : α → Field → Prop)
    (items : List α)
    (round : ∀ item ∈ items, ∀ known updates, Reads profile known updates →
      Reads profile (fun field => known field ∨ gains item field) (step updates item))
    (reads : Reads profile known updates) :
    Reads profile (fun field => known field ∨ ∃ item ∈ items, gains item field)
      (items.foldl step updates) := by
  induction items generalizing known updates with
  | nil => exact reads.weaken fun field member => member.resolve_right (by simp)
  | cons item items induction =>
      obtain ⟨first, rest⟩ := List.forall_mem_cons.mp round
      refine (induction rest (first known updates reads)).weaken fun field member => ?_
      rcases member with old | ⟨other, isItem, gained⟩
      · exact .inl (.inl old)
      · rcases List.mem_cons.mp isItem with rfl | later
        · exact .inl (.inr gained)
        · exact .inr ⟨other, later, gained⟩

variable {Rest : Type} (render : Json → Text)

theorem Reads.setLogical {key : Text} {field : Field} {text : Text} (clean : IsClean profile)
    (reads : Reads profile known updates) (isField : logicalField key = some field)
    (held : profile field = some text) :
    Reads profile (fun other => known other ∨ other = field)
      (setLogical render key (.str text) updates) := by
  simp only [Scim.setLogical, isField]
  exact reads.set ((clean.blankToNone held).trans (mirrored_of_some held).symm)

/-! ## The enterprise extension -/

theorem lookup_enterpriseOf (clean : IsClean profile) {entry : String × Field}
    (member : entry ∈ enterpriseFields) :
    (enterpriseOf profile).lookup entry.1 = (profile entry.2).map .str := by
  rw [← clean.present entry.2]
  simp only [enterpriseFields, List.mem_cons, List.not_mem_nil, or_false] at member
  rcases member with rfl | rfl | rfl | rfl | rfl <;>
    simp [enterpriseOf, List.lookup_append, lookup_textItem, lookup_objectItem]

/-- The manager of a row, as the document shows it. -/
def managerItems (profile : Profile) : Entries :=
  textItem "value" (profile .managerExternalId) ++
    textItem "displayName" (profile .managerDisplayName)

theorem lookup_manager (profile : Profile) : (enterpriseOf profile).lookup "manager" =
    if managerItems profile = [] then none else some (.obj (managerItems profile)) := by
  simp [enterpriseOf, List.lookup_append, lookup_textItem, lookup_objectItem, managerItems]

theorem managerFields_managerItems (clean : IsClean profile) :
    managerFields render (.obj (managerItems profile)) =
      (profile .managerExternalId, profile .managerDisplayName) := by
  have blank : blankToNone [] = none := rfl
  have external (text : Text) (held : profile .managerExternalId = some text) :=
    And.intro (clean.blankToNone held) (clean.ne_nil held)
  have display (text : Text) (held : profile .managerDisplayName = some text) :=
    And.intro (clean.blankToNone held) (clean.ne_nil held)
  simp only [managerItems, textItem, clean.present]
  cases isId : profile .managerExternalId with
  | none =>
      cases isName : profile .managerDisplayName with
      | none => simp [Python.optional, managerFields, getItem, null_or, Json.shown, blank]
      | some name =>
          obtain ⟨read, nonempty⟩ := display name isName
          simp [Python.optional, managerFields, getItem, List.lookup, null_or, str_or, Json.shown,
            blank, read, nonempty]
  | some id =>
      obtain ⟨readId, nonemptyId⟩ := external id isId
      cases isName : profile .managerDisplayName with
      | none =>
          simp [Python.optional, managerFields, getItem, List.lookup, null_or, str_or, Json.shown,
            blank, readId, nonemptyId]
      | some name =>
          obtain ⟨read, nonempty⟩ := display name isName
          simp [Python.optional, managerFields, getItem, List.lookup, str_or, Json.shown,
            readId, nonemptyId, read, nonempty]

theorem Reads.setManager (clean : IsClean profile) (reads : Reads profile known updates) :
    Reads profile known (setManager render (.obj (managerItems profile)) updates) := by
  rw [Scim.setManager, managerFields_managerItems render clean]
  exact (reads.set_keep rfl).set_keep rfl

/-- What the enterprise extension says of one field. -/
private def readEnterpriseField (block : Entries) (updates : Updates) (entry : String × Field) :
    Updates :=
  if hasKey block entry.1 then
    updates.set entry.2 (match getItem block entry.1 with
      | .null => none
      | value => Scim.blankToNone (value.shown render))
  else updates

theorem reads_readEnterprise (clean : IsClean profile) :
    Reads profile (fun field => field = .organization ∧ profile field ≠ none)
      (readEnterprise render (enterpriseOf profile) Updates.none) := by
  have none_known : Reads profile (fun _ => False) Updates.none := reads_none
  have fields := none_known.foldl (readEnterpriseField render (enterpriseOf profile))
    (fun entry field => entry.2 = field ∧ profile field ≠ none) enterpriseFields
    (fun entry member known updates reads => by
      have found := lookup_enterpriseOf clean member
      unfold readEnterpriseField
      cases held : profile entry.2 with
      | none =>
          rw [held] at found
          simp only [hasKey, found]
          exact reads.weaken fun field gained => gained.resolve_right (by grind)
      | some text =>
          rw [held] at found
          simp only [hasKey, getItem, found]
          exact (reads.set ((clean.blankToNone held).trans (mirrored_of_some held).symm)).weaken
            fun field gained => gained.imp id fun known => known.1.symm)
  have known : Reads profile (fun field => field = .organization ∧ profile field ≠ none) _ :=
    fields.weaken fun field isKnown =>
      .inr ⟨("organization", .organization), by decide, isKnown.1.symm, isKnown.2⟩
  unfold readEnterprise
  dsimp only
  split
  · rename_i present
    have shown : getItem (enterpriseOf profile) "manager" = .obj (managerItems profile) := by
      rw [hasKey, lookup_manager] at present
      rw [getItem, lookup_manager]
      split at present
      · cases present
      · rename_i nonempty
        rw [if_neg nonempty]
        rfl
    rw [shown]
    exact known.setManager render clean
  · exact known

/-! ## The document -/

theorem lookup_item {key other : String} {value : Json} {entries : Entries} :
    List.lookup other ((key, value) :: entries) =
      if other = key then some value else entries.lookup other := by
  by_cases same : other = key
  · simp [same]
  · have different : (other == key) = false := beq_eq_false_iff_ne.mpr same
    simp [List.lookup, same, different]

/-- The items of a document after the ones that are always there. -/
def itemsOf (user : User Rest) : Entries :=
  textItem "title" (user.profile .jobTitle) ++
    textItem "preferredLanguage" (user.profile .preferredLanguage) ++
    arrayItem "phoneNumbers" (phonesOf user.profile) ++
    arrayItem "addresses" (addressesOf user.profile) ++
    textItem "department" (user.profile .department) ++
    textItem "companyName" (user.profile .companyName) ++
    objectItem enterpriseSchema (enterpriseOf user.profile) ++
    objectItem domainlensSchema (domainlensOf user)

def fixedKeys : List String :=
  ["schemas", "id", "externalId", "userName", "displayName", "name", "emails", "active", "meta",
    "roles"]

theorem lookup_userToScim (user : User Rest) {key : String} (other : key ∉ fixedKeys) :
    (userToScim user).lookup key = (itemsOf user).lookup key := by
  simp only [fixedKeys, List.mem_cons, List.not_mem_nil, or_false, not_or] at other
  simp only [userToScim, itemsOf, List.append_assoc, List.cons_append, List.nil_append,
    lookup_item, other, if_false]

private theorem names_checked :
    (logicalField "title".toList = some .jobTitle ∧
      logicalField "preferredLanguage".toList = some .preferredLanguage ∧
      logicalField "department".toList = some .department ∧
      logicalField "companyName".toList = some .companyName ∧
      logicalField "officeLocation".toList = some .officeLocation) ∧
    (isExtra "companyName" = false ∧ isExtra "officeLocation" = false) ∧
    ((lower "companyName".toList ≠ "manager".toList ∧
        normalizeKey "companyName".toList ≠ "manager".toList) ∧
      lower "officeLocation".toList ≠ "manager".toList ∧
        normalizeKey "officeLocation".toList ≠ "manager".toList) ∧
    (lower "work".toList ∉ ["mobile".toList, "cell".toList] ∧
      lower "work".toList ∈ ["work".toList, "phone".toList] ∧
      lower "mobile".toList ∈ ["mobile".toList, "cell".toList]) ∧
    cleanText "scim".toList = "scim".toList := by
  simp (disch := rfl) only [toList_literal]
  decide +kernel

/-- The attribute an alias of the document stands for. -/
def aliasField (key : String) : Option Field :=
  if key = "title" then some .jobTitle
  else if key = "preferredLanguage" then some .preferredLanguage
  else if key = "department" then some .department
  else if key = "companyName" then some .companyName
  else none

theorem aliasField_cases {key : String} {field : Field} (isAlias : aliasField key = some field) :
    (key = "title" ∧ field = .jobTitle) ∨
      (key = "preferredLanguage" ∧ field = .preferredLanguage) ∨
      (key = "department" ∧ field = .department) ∨
      (key = "companyName" ∧ field = .companyName) := by
  unfold aliasField at isAlias
  grind

theorem logicalField_of_aliasField {key : String} {field : Field}
    (isAlias : aliasField key = some field) : logicalField key.toList = some field := by
  obtain ⟨title, language, department, company, -⟩ := names_checked.1
  rcases aliasField_cases isAlias with ⟨rfl, rfl⟩ | ⟨rfl, rfl⟩ | ⟨rfl, rfl⟩ | ⟨rfl, rfl⟩
  · exact title
  · exact language
  · exact department
  · exact company

def itemKeys : List String :=
  ["title", "preferredLanguage", "phoneNumbers", "addresses", "department", "companyName",
    enterpriseSchema, domainlensSchema]

theorem lookup_itemsOf_eq_none (user : User Rest) {key : String} (other : key ∉ itemKeys) :
    (itemsOf user).lookup key = none := by
  simp only [itemKeys, List.mem_cons, List.not_mem_nil, or_false, not_or] at other
  simp only [itemsOf, List.lookup_append, lookup_textItem, lookup_objectItem, lookup_arrayItem,
    other, if_false, Option.or_none]

theorem lookup_alias {user : User Rest} (clean : IsClean user.profile) {key : String}
    (member : key ∈ "manager" :: "CompanyName" :: aliasKeys) :
    (userToScim user).lookup key = ((aliasField key).bind user.profile).map .str := by
  have apart : ∀ key ∈ "manager" :: "CompanyName" :: aliasKeys, key ∉ fixedKeys ∧
      (aliasField key = none → key ∉ itemKeys) := by decide
  obtain ⟨notFixed, unknown⟩ := apart key member
  rw [lookup_userToScim user notFixed]
  cases isAlias : aliasField key with
  | none => exact lookup_itemsOf_eq_none user (unknown isAlias)
  | some field =>
      rw [Option.bind_some, ← clean.present field]
      rcases aliasField_cases isAlias with ⟨rfl, rfl⟩ | ⟨rfl, rfl⟩ | ⟨rfl, rfl⟩ | ⟨rfl, rfl⟩ <;>
        simp only [itemsOf, List.lookup_append, lookup_textItem, lookup_objectItem,
          lookup_arrayItem, enterpriseSchema, domainlensSchema, String.reduceEq, if_true, if_false,
          Option.none_or, Option.or_none]

theorem lookup_schema (user : User Rest) :
    (itemsOf user).lookup enterpriseSchema =
        (if enterpriseOf user.profile = [] then none
          else some (.obj (enterpriseOf user.profile))) ∧
      (itemsOf user).lookup domainlensSchema =
        if domainlensOf user = [] then none else some (.obj (domainlensOf user)) := by
  constructor <;>
    simp only [itemsOf, List.lookup_append, lookup_textItem, lookup_objectItem, lookup_arrayItem,
      enterpriseSchema, domainlensSchema, String.reduceEq, if_true, if_false, Option.none_or,
      Option.or_none]

theorem lookup_array (user : User Rest) :
    (itemsOf user).lookup "phoneNumbers" =
        (if phonesOf user.profile = [] then none else some (.arr (phonesOf user.profile))) ∧
      (itemsOf user).lookup "addresses" =
        if addressesOf user.profile = [] then none
        else some (.arr (addressesOf user.profile)) := by
  constructor <;>
    simp only [itemsOf, List.lookup_append, lookup_textItem, lookup_objectItem, lookup_arrayItem,
      enterpriseSchema, domainlensSchema, String.reduceEq, if_true, if_false, Option.none_or,
      Option.or_none]

private theorem entries_getD {entries : Entries} :
    ((if entries = [] then none else some (Json.obj entries)).getD .null).entries = entries := by
  split
  · rename_i empty
    exact empty.symm
  · rfl

theorem blockOf_enterprise (user : User Rest) :
    blockOf (userToScim user) enterpriseSchema = enterpriseOf user.profile := by
  rw [blockOf, getItem, lookup_userToScim user (by decide), (lookup_schema user).1, entries_getD]

theorem blockOf_domainlens (user : User Rest) :
    blockOf (userToScim user) domainlensSchema = domainlensOf user := by
  rw [blockOf, getItem, lookup_userToScim user (by decide), (lookup_schema user).2, entries_getD]

/-! ## Reading the document -/

theorem Reads.setLogical_alias {user : User Rest} (clean : IsClean user.profile) {key : String}
    (member : key ∈ "manager" :: "CompanyName" :: aliasKeys)
    (reads : Reads user.profile known updates) (given : hasKey (userToScim user) key = true) :
    Reads user.profile (fun field => known field ∨ aliasField key = some field)
      (Scim.setLogical render key.toList (getItem (userToScim user) key) updates) := by
  have found := lookup_alias clean member
  rw [hasKey] at given
  rw [getItem]
  cases isAlias : aliasField key with
  | none => simp [found, isAlias] at given
  | some field =>
      simp only [isAlias, Option.bind_some] at found
      cases held : user.profile field with
      | none => simp [found, held] at given
      | some text =>
          simp only [found, held]
          exact (reads.setLogical render clean (logicalField_of_aliasField isAlias) held).weaken
            fun other isKnown => isKnown.imp id fun same => (Option.some.inj same).symm

/-- The fields of which a reading is to know. -/
def Named (profile : Profile) (field : Field) : Prop :=
  (field = .organization ∨ field = .companyName) ∧ profile field ≠ none

theorem reads_readAliases {user : User Rest} (clean : IsClean user.profile)
    (reads : Reads user.profile (fun field => field = .organization ∧ user.profile field ≠ none)
      updates) :
    Reads user.profile (Named user.profile) (readAliases render (userToScim user) updates) := by
  have aliases := reads.foldl (fun updates key =>
      if hasKey (userToScim user) key then
        Scim.setLogical render key.toList (getItem (userToScim user) key) updates else updates)
    (fun key field => hasKey (userToScim user) key = true ∧ aliasField key = some field)
    aliasKeys
    (fun key member known updates reads => by
      split
      · rename_i given
        exact (reads.setLogical_alias render clean (by simp [member]) given).weaken
          fun field isKnown => isKnown.imp id And.right
      · rename_i absent
        exact reads.weaken fun field isKnown => isKnown.resolve_right fun gained =>
          absent gained.1)
  have named : Reads user.profile (Named user.profile) _ := aliases.weaken fun field isNamed => by
    obtain ⟨rfl | rfl, held⟩ := isNamed
    · exact .inl ⟨rfl, held⟩
    · refine .inr ⟨"companyName", by decide, ?_, rfl⟩
      have isAlias : aliasField "companyName" = some .companyName := by decide
      rw [hasKey, lookup_alias clean (by decide), isAlias, Option.bind_some, Option.isSome_map]
      exact Option.isSome_iff_ne_none.mpr held
  have manager : hasKey (userToScim user) "manager" = false := by
    rw [hasKey, lookup_alias clean (by decide)]
    rfl
  unfold readAliases
  simp only [manager, Bool.false_eq_true, false_and, if_false]
  split
  · rename_i titled
    have given : hasKey (userToScim user) "title" = true := by
      have shown := titled.1
      rw [getItem] at shown
      rw [hasKey]
      cases found : (userToScim user).lookup "title" with
      | none => simp [found, Json.truthy] at shown
      | some value => rfl
    exact (named.setLogical_alias render clean (by decide) given).weaken fun field => .inl
  · exact named

/-! ### Telephone numbers -/

private theorem readPhone_eq {type text : Text} {others : Entries} (typed : type ≠ [])
    (stripped : strip text = text) (nonempty : text ≠ []) :
    readPhone render updates (.obj (("type", .str type) :: ("value", .str text) :: others)) =
      if lower type ∈ ["mobile".toList, "cell".toList] then
        some (updates.set .mobileNumber (some text))
      else if updates .phoneNumber = none ∨ lower type ∈ ["work".toList, "phone".toList] then
        some (updates.set .phoneNumber (some text))
      else some updates := by
  have isType : getItem (("type", .str type) :: ("value", .str text) :: others) "type" =
      .str type := rfl
  have isValue : getItem (("type", .str type) :: ("value", .str text) :: others) "value" =
      .str text := rfl
  have truthy : (Json.str text).truthy = true := by simp [Json.truthy, nonempty]
  simp only [readPhone, Json.entries, isType, isValue, truthy, Json.isObject, str_or typed,
    Json.text?, Json.shown, stripped, Bool.not_true, Bool.false_eq_true, or_self, if_false]
  rfl

private theorem readPhone_work {text : Text} {others : Entries} (stripped : strip text = text)
    (nonempty : text ≠ []) :
    readPhone render updates
        (.obj (("type", .str "work".toList) :: ("value", .str text) :: others)) =
      some (updates.set .phoneNumber (some text)) := by
  obtain ⟨notMobile, isWork, -⟩ := names_checked.2.2.2.1
  rw [readPhone_eq render (by decide) stripped nonempty, if_neg notMobile, if_pos (.inr isWork)]

private theorem readPhone_mobile {text : Text} {others : Entries} (stripped : strip text = text)
    (nonempty : text ≠ []) :
    readPhone render updates
        (.obj (("type", .str "mobile".toList) :: ("value", .str text) :: others)) =
      some (updates.set .mobileNumber (some text)) := by
  rw [readPhone_eq render (by decide) stripped nonempty, if_pos names_checked.2.2.2.1.2.2]

private theorem reads_phoneItem (type : String) (primary : Bool) {field : Field}
    (clean : IsClean profile) (reads : Reads profile known updates)
    (one : ∀ text others, profile field = some text → readPhone render updates
      (.obj (("type", .str type.toList) :: ("value", .str text) :: others)) =
        some (updates.set field (some text))) :
    ∃ after, (phoneItem type primary (profile field)).foldlM (readPhone render) updates =
      some after ∧ Reads profile known after := by
  rw [phoneItem, clean.present]
  cases held : profile field with
  | none => exact ⟨updates, rfl, reads⟩
  | some text =>
      refine ⟨updates.set field (some text), ?_, reads.set_keep (mirrored_of_some held).symm⟩
      simp only [Option.map_some, Option.toList_some, List.cons_append, List.nil_append,
        List.foldlM_cons, List.foldlM_nil, one text _ held]
      rfl

theorem reads_readPhones {user : User Rest} (clean : IsClean user.profile)
    (reads : Reads user.profile known updates) :
    ∃ after, readPhones render (userToScim user) updates = some after ∧
      Reads user.profile known after := by
  have loop : readPhones render (userToScim user) updates =
      (phonesOf user.profile).foldlM (readPhone render) updates := by
    rw [readPhones, getItem, lookup_userToScim user (by decide), (lookup_array user).1]
    by_cases empty : phonesOf user.profile = []
    · rw [if_pos empty, empty]
      rfl
    · rw [if_neg empty]
      rfl
  obtain ⟨first, work, reads⟩ := reads_phoneItem render "work" true clean reads fun text others held =>
      readPhone_work render (clean.strip held) (clean.ne_nil held)
  obtain ⟨second, mobile, reads⟩ := reads_phoneItem render "mobile" false clean reads fun text others held =>
      readPhone_mobile render (clean.strip held) (clean.ne_nil held)
  refine ⟨second, ?_, reads⟩
  rw [loop, phonesOf, List.foldlM_append, work]
  exact mobile

/-! ### Addresses and language -/

/-- The address of a row, as the document shows it. -/
def addressItems (profile : Profile) : Entries :=
  [("type", .str "work".toList), ("primary", .bool true)] ++
    addressFields.map fun entry => (entry.1, Json.ofOption (profile entry.2))

private theorem getItem_addressItems {entry : String × Field} (member : entry ∈ addressFields) :
    getItem (addressItems profile) entry.1 = Json.ofOption (profile entry.2) := by
  simp only [addressFields, List.mem_cons, List.not_mem_nil, or_false] at member
  rcases member with rfl | rfl | rfl | rfl | rfl <;> rfl

theorem reads_readAddresses {user : User Rest} (clean : IsClean user.profile)
    (reads : Reads user.profile known updates) :
    Reads user.profile known (readAddresses render (userToScim user) updates) := by
  rw [readAddresses, getItem, lookup_userToScim user (by decide), (lookup_array user).2]
  unfold addressesOf
  by_cases any : addressFields.any (fun entry => (present (user.profile entry.2)).isSome) = true
  · simp only [any, if_true, List.cons_ne_nil, if_false, Option.getD_some]
    have single : addressOf [.obj (addressItems user.profile)] = addressItems user.profile := rfl
    have fields := reads.foldl (fun updates entry =>
        let value := getItem (addressItems user.profile) entry.1
        if value.truthy then updates.set entry.2 (some (strip (value.shown render)))
        else updates) (fun _ _ => False) addressFields
      (fun entry member known updates reads => by
        refine Reads.weaken ?_ fun field isKnown => isKnown.resolve_right id
        dsimp only
        rw [getItem_addressItems member]
        cases held : user.profile entry.2 with
        | none => exact reads
        | some text =>
            rw [if_pos (by simp [Json.ofOption, Json.truthy, clean.ne_nil held])]
            refine reads.set_keep ?_
            rw [mirrored_of_some held]
            exact congrArg some (clean.strip held))
    exact fields.weaken fun field => .inl
  · simp only [any, Bool.false_eq_true, if_false, if_true, Option.getD_none]
    exact reads

theorem reads_readLanguage {user : User Rest} (clean : IsClean user.profile)
    (reads : Reads user.profile known updates) :
    Reads user.profile known (readLanguage render (userToScim user) updates) := by
  have isAlias : aliasField "preferredLanguage" = some .preferredLanguage := by decide
  rw [readLanguage, getItem, lookup_alias clean (by decide), isAlias, Option.bind_some]
  cases held : user.profile .preferredLanguage with
  | none => exact reads
  | some text =>
      change Reads user.profile known (if (Json.str text).truthy = true then
        updates.set .preferredLanguage (some (strip text)) else updates)
      split
      · refine reads.set_keep ?_
        rw [mirrored_of_some held]
        exact congrArg some (clean.strip held)
      · exact reads

/-! ### Company name and organization -/

/-- The fields that stand in for each other are set where the mirrored profile has them. -/
def Filled (profile : Profile) (field : Field) : Prop :=
  (field = .organization ∨ field = .companyName) ∧ mirrored profile field ≠ none

theorem IsClean.mirrored (clean : IsClean profile) : IsClean (mirrored profile) := by
  intro field
  cases field with
  | organization =>
      cases held : profile .organization with
      | none => simpa [Scim.mirrored, held] using clean .companyName
      | some text => simpa [Scim.mirrored, held] using held ▸ clean .organization
  | companyName =>
      cases held : profile .companyName with
      | none => simpa [Scim.mirrored, held] using clean .organization
      | some text => simpa [Scim.mirrored, held] using held ▸ clean .companyName
  | _ => exact clean _

private theorem isSet_iff (clean : IsClean profile) (reads : Reads profile known updates)
    {field : Field} :
    isSet updates field = true ↔ updates field ≠ none ∧ mirrored profile field ≠ none := by
  cases found : updates field with
  | none => simp [isSet, found]
  | some value =>
      obtain rfl := reads.agrees field value found
      have shown : isSet updates field = (present (mirrored profile field)).isSome := by
        rw [isSet, found]
        rfl
      rw [shown, clean.mirrored.present, Option.isSome_iff_ne_none]
      simp

private theorem isSet_of_named (clean : IsClean profile)
    (reads : Reads profile (Named profile) updates) {field : Field}
    (one : field = .organization ∨ field = .companyName) (held : profile field ≠ none) :
    isSet updates field = true := by
  obtain ⟨text, isText⟩ := Option.ne_none_iff_exists'.mp held
  refine (isSet_iff clean reads).mpr ⟨reads.known field ⟨one, held⟩, ?_⟩
  rw [mirrored_of_some isText]
  exact Option.some_ne_none text

private theorem Reads.stand_in (clean : IsClean profile) (reads : Reads profile known updates)
    (named : ∀ field, Named profile field → known field) (field other : Field)
    (one : field = .organization ∨ field = .companyName)
    (pair : profile field = none → mirrored profile field = mirrored profile other) :
    Reads profile (fun found => known found ∨ (found = field ∧ isSet updates other = true))
      (if isSet updates other = true ∧ (!isSet updates field) = true then
        updates.set field ((updates other).getD none) else updates) := by
  split
  · rename_i missing
    obtain ⟨isOther, notField⟩ := missing
    have absent : profile field = none := by
      by_contra held
      simp [isSet_of_named clean (reads.weaken named) one held] at notField
    obtain ⟨isGiven, -⟩ := (isSet_iff clean reads).mp isOther
    obtain ⟨value, given⟩ := Option.ne_none_iff_exists'.mp isGiven
    refine (reads.set ?_).weaken fun found isKnown => isKnown.imp id And.left
    rw [given, pair absent]
    exact reads.agrees other value given
  · rename_i settled
    refine ⟨reads.agrees, fun found isKnown => ?_⟩
    rcases isKnown with old | ⟨rfl, isOther⟩
    · exact reads.known found old
    · have isField : isSet updates found = true := by
        by_contra notField
        exact settled ⟨isOther, by simpa using notField⟩
      exact ((isSet_iff clean reads).mp isField).1

theorem reads_mirror (clean : IsClean profile) (reads : Reads profile (Named profile) updates) :
    Reads profile (Filled profile) (mirror updates) := by
  have organization := reads.stand_in clean (fun _ => id) .organization .companyName
    (.inl rfl) fun absent => by simp [Scim.mirrored, absent]
  have companyName := organization.stand_in clean (fun _ => .inl) .companyName .organization
    (.inr rfl) fun absent => by simp [Scim.mirrored, absent]
  refine companyName.weaken fun field filled => ?_
  obtain ⟨one, shown⟩ := filled
  by_cases held : profile field = none
  · rcases one with rfl | rfl
    · have other : profile .companyName ≠ none := by simpa [Scim.mirrored, held] using shown
      exact .inl (.inr ⟨rfl, isSet_of_named clean reads (.inr rfl) other⟩)
    · have other : profile .organization ≠ none := by simpa [Scim.mirrored, held] using shown
      exact .inr ⟨rfl,
        isSet_of_named clean (organization.weaken fun _ => .inl) (.inl rfl) other⟩
  · exact .inl (.inl ⟨one, held⟩)

/-! ### The DomainLens extension -/

/-- The attributes of the extension, apart from what is left over. -/
def domainlensItems (profile : Profile) : Entries :=
  textItem "companyName" (profile .companyName) ++
    textItem "officeLocation" (profile .officeLocation)

private theorem not_isExtra_of_mem {entry : String × Json}
    (member : entry ∈ domainlensItems profile) : isExtra entry.1 = false := by
  have apart := names_checked.2.1
  rcases List.mem_append.mp member with item | item <;>
    obtain ⟨value, -, rfl⟩ := Option.map_eq_some_iff.mp (Option.mem_toList.mp item)
  · exact apart.1
  · exact apart.2

theorem domainlensOf_eq {user : User Rest} (leftOver : IsLeftOver user.scimProfile) :
    domainlensOf user = domainlensItems user.profile ++ user.scimProfile := by
  refine updateItems_of_fresh leftOver.distinct fun change member => ?_
  intro isItem
  obtain ⟨entry, item, same⟩ := List.mem_map.mp isItem
  have extra := leftOver.extra change member
  rw [← same, not_isExtra_of_mem item] at extra
  cases extra

private theorem foldl_readDomainlens_extra {entries extra : Entries}
    (allExtra : ∀ entry ∈ entries, isExtra entry.1 = true) :
    entries.foldl (readDomainlens render) (updates, extra) =
      (updates, updateItems extra entries) := by
  induction entries generalizing extra with
  | nil => rfl
  | cons entry entries induction =>
      obtain ⟨first, rest⟩ := List.forall_mem_cons.mp allExtra
      rw [List.foldl_cons, readDomainlens, if_pos first]
      exact induction rest

private theorem reads_domainlensItem (key : String) (field : Field) (extra : Entries)
    (clean : IsClean profile) (reads : Reads profile known updates)
    (isField : logicalField key.toList = some field)
    (apart : lower key.toList ≠ "manager".toList ∧ normalizeKey key.toList ≠ "manager".toList) :
    ∃ after, (textItem key (profile field)).foldl (readDomainlens render) (updates, extra) =
      (after, extra) ∧ Reads profile known after := by
  rw [textItem, clean.present]
  cases held : profile field with
  | none => exact ⟨updates, rfl, reads⟩
  | some text =>
      refine ⟨Scim.setLogical render key.toList (.str text) updates, ?_,
        (reads.setLogical render clean isField held).weaken fun _ => .inl⟩
      have single : (Python.optional key ((some text).map Json.str)).foldl (readDomainlens render)
          (updates, extra) = readDomainlens render (updates, extra) (key, .str text) := rfl
      have known : isExtra key = false := by simp [isExtra, isField]
      rw [single, readDomainlens, if_neg (by simp [known]), if_neg (not_or.mpr apart)]

theorem reads_domainlens {user : User Rest} (clean : IsClean user.profile)
    (leftOver : IsLeftOver user.scimProfile) (reads : Reads user.profile known updates) :
    ∃ after, (blockOf (userToScim user) domainlensSchema).foldl (readDomainlens render)
      (updates, []) = (after, user.scimProfile) ∧ Reads user.profile known after := by
  obtain ⟨-, -, -, isCompany, isOffice⟩ := names_checked.1
  obtain ⟨companyApart, officeApart⟩ := names_checked.2.2.1
  obtain ⟨first, company, reads⟩ := reads_domainlensItem render "companyName" .companyName []
    clean reads isCompany companyApart
  obtain ⟨second, office, reads⟩ := reads_domainlensItem render "officeLocation"
    .officeLocation [] clean reads isOffice officeApart
  refine ⟨second, ?_, reads⟩
  have fresh : updateItems [] user.scimProfile = user.scimProfile :=
    updateItems_of_fresh leftOver.distinct fun _ _ => List.not_mem_nil
  rw [blockOf_domainlens, domainlensOf_eq leftOver, domainlensItems, List.foldl_append,
    List.foldl_append, company, office, foldl_readDomainlens_extra render leftOver.extra, fresh]

theorem profileFromScimPayload_document {user : User Rest} (clean : IsClean user.profile)
    (leftOver : IsLeftOver user.scimProfile) :
    ∃ updates, profileFromScimPayload render (userToScim user) =
      some (updates, user.scimProfile) ∧ Reads user.profile (Filled user.profile) updates := by
  have aliases := reads_readAliases render clean (reads_readEnterprise render clean)
  obtain ⟨phoned, phones, reads⟩ := reads_readPhones render clean aliases
  have mirrors := reads_mirror clean
    (reads_readLanguage render clean (reads_readAddresses render clean reads))
  obtain ⟨after, extension, reads⟩ := reads_domainlens render clean leftOver mirrors
  have absent : hasKey (userToScim user) "CompanyName" = false := by
    rw [hasKey, lookup_alias clean (by decide)]
    rfl
  refine ⟨after, ?_, reads⟩
  simp only [profileFromScimPayload, blockOf_enterprise, phones, Option.bind_eq_bind,
    Option.bind_some, extension, absent, Bool.false_eq_true, if_false]
  rfl

/-! ## The other columns -/

private theorem primaryEmail_document {user : User Rest} (kept : Kept user)
    (hasEmail : user.email ≠ []) (userName : Text) :
    primaryEmail render (userToScim user) userName = user.email := by
  have emails : getItem (userToScim user) "emails" = .arr [.obj
      [("value", .str user.email), ("type", .str "work".toList), ("primary", .bool true)]] := rfl
  have value : getItem [("value", Json.str user.email), ("type", .str "work".toList),
      ("primary", .bool true)] "value" = .str user.email := rfl
  have primary : getItem [("value", Json.str user.email), ("type", .str "work".toList),
      ("primary", .bool true)] "primary" = .bool true := rfl
  have given : (Json.str user.email).truthy = true := by simp [Json.truthy, hasEmail]
  have marked : (Json.bool true).truthy = true := rfl
  simp only [primaryEmail, emails, List.map_cons, List.map_nil, Json.entries,
    List.filter_cons, value, given, if_true, List.filter_nil, List.find?_cons, primary,
    marked, Option.some_or]
  exact kept.email

private theorem displayName_document {user : User Rest} (hasName : user.name ≠ [])
    (bare : strip user.name = user.name) :
    displayName (userToScim user) = some user.name := by
  have formatted : getItem (userToScim user) "name" =
      .obj [("formatted", .str (if user.name = [] then user.email else user.name))] := rfl
  have text : getItem [("formatted", Json.str user.name)] "formatted" = .str user.name := rfl
  have structured : structuredName (.obj [("formatted", .str user.name)]) =
      some (some user.name) := by
    simp [structuredName, textOr, text, str_or hasName, Json.text?, bare, hasName]
  rw [displayName, formatted, if_neg hasName, structured]
  rfl

private theorem roleFromPayload_document {user : User Rest} (kept : Kept user) (other : Text) :
    roleFromPayload render (userToScim user) other = user.role := by
  have roles : getItem (userToScim user) "roles" = .arr [.obj
      [("value", .str (if user.role = [] then "user".toList else user.role)),
        ("primary", .bool true)]] := rfl
  have nonempty : user.role ≠ [] := by
    have known := kept.role
    rintro empty
    rw [empty] at known
    exact absurd known (by decide)
  have value : roleValue render (.obj [("value", .str user.role), ("primary", .bool true)]) =
      lower user.role := by
    have text : getItem [("value", Json.str user.role), ("primary", .bool true)] "value" =
        .str user.role := rfl
    simp only [roleValue, text, str_or nonempty, Json.shown]
  have known := kept.role
  simp only [roleNames, List.mem_cons, List.not_mem_nil, or_false] at known
  simp only [roleFromPayload, roles, nonempty, if_false, List.map_cons, List.map_nil, value]
  rcases known with viewer | analyst | admin
  · rw [viewer, if_neg (by decide +kernel), if_neg (by decide +kernel), if_pos (by decide +kernel)]
  · rw [analyst, if_neg (by decide +kernel), if_pos (by decide +kernel)]
  · rw [admin, if_pos (by decide +kernel)]

/-! ## The replacement -/

private theorem externalId_document {user : User Rest} (kept : Kept user) :
    cleanValue (blankToNone (((getItem (userToScim user) "externalId").or (.str [])).shown render)) =
      user.externalId := by
  have shown : getItem (userToScim user) "externalId" = Json.ofOption (present user.externalId) :=
    rfl
  rw [shown]
  cases held : user.externalId with
  | none => rfl
  | some id =>
      have clean := kept.externalId
      rw [held] at clean
      have nonempty : id ≠ [] := (blankToNone_eq_some clean).2
      have again : blankToNone id = some id := clean
      rw [present_some nonempty, Json.ofOption, str_or nonempty, Json.shown, again]
      exact clean

private theorem replacement_document {user : User Rest} (kept : Kept user)
    (hasEmail : user.email ≠ []) (hasUserName : user.userName ≠ []) (hasName : user.name ≠ [])
    (bare : strip user.name = user.name) (defaultRole : Text) :
    ∃ changes, replacement render user (userToScim user) defaultRole = some changes ∧
      Reads user.profile (Filled user.profile) changes.profile ∧
      changes.scimProfile.getD user.scimProfile = user.scimProfile ∧
      changes.email = some user.email ∧ changes.name = some user.name ∧
      changes.role = some user.role ∧ changes.enabled = some user.enabled ∧
      changes.provider = some user.provider ∧
      changes.externalId.map cleanValue = some user.externalId ∧
      changes.userName = some user.userName := by
  obtain ⟨updates, read, reads⟩ :=
    profileFromScimPayload_document render kept.profile kept.leftOver
  have userName : getItem (userToScim user) "userName" = .str user.userName :=
    congrArg Json.str (if_neg hasUserName)
  have provided : user.provider ≠ [] := by
    rw [kept.provider]
    decide
  have extra : (if user.scimProfile = [] then none
      else some (updateItems user.scimProfile user.scimProfile)).getD user.scimProfile =
        user.scimProfile := by
    split
    · rfl
    · exact updateItems_of_subset kept.leftOver.distinct fun _ => id
  simp only [replacement, userName, str_or hasUserName, Json.text?, Option.map_some,
    Option.bind_eq_bind, Option.bind_some, strip_of_isStripped kept.userName,
    displayName_document hasName bare, read, roleFromPayload_document render kept,
    primaryEmail_document render kept hasEmail, hasEmail, provided, if_false]
  exact ⟨_, rfl, reads, extra, rfl, rfl, rfl, rfl, rfl,
    congrArg some (externalId_document render kept), rfl⟩

private theorem updated_profile (clean : IsClean profile)
    (reads : Reads profile (Filled profile) updates) :
    (fun field => ((updates field).map cleanValue).getD (profile field)) = mirrored profile := by
  funext field
  cases given : updates field with
  | some value =>
      rw [reads.agrees field value given]
      exact clean.mirrored field
  | none =>
      have settled (one : field = .organization ∨ field = .companyName) :
          mirrored profile field = none := by
        by_contra shown
        exact reads.known field ⟨one, shown⟩ given
      cases field with
      | organization =>
          have shown := settled (.inl rfl)
          exact (Option.or_eq_none_iff.mp shown).1.trans shown.symm
      | companyName =>
          have shown := settled (.inr rfl)
          exact (Option.or_eq_none_iff.mp shown).1.trans shown.symm
      | _ => rfl

/-- A row is replaced by its own document: the company name and the organization stand in for each
other, the time of the update is new, and every other column is kept. -/
theorem scimReplaceUser_document {user : User Rest} (kept : Kept user)
    (hasEmail : user.email ≠ []) (hasUserName : user.userName ≠ []) (hasName : user.name ≠ [])
    (bare : strip user.name = user.name) (defaultRole later : Text) :
    scimReplaceUser render user (.obj (userToScim user)) defaultRole later =
      some { user with profile := mirrored user.profile, updatedAt := later } := by
  obtain ⟨changes, replaced, reads, extra, email, name, role, enabled, provider, externalId,
    userName⟩ := replacement_document render kept hasEmail hasUserName hasName bare defaultRole
  have clean : cleanText user.provider = user.provider := by
    rw [kept.provider]
    exact names_checked.2.2.2.2
  have accepted : scimReplaceUser render user (.obj (userToScim user)) defaultRole later =
      some (updateUser user changes later) := by
    rw [scimReplaceUser, payloadOf, Option.bind_eq_bind, Option.bind_some, replaced]
    rfl
  rw [accepted, updateUser, updated_profile kept.profile reads, extra, email, name, role, enabled,
    provider, externalId, userName]
  simp only [Option.map_some, Option.getD_some, kept.email, clean]

/-- A row a directory brought about, whose address and names are there and whose name has no outer
blanks, is kept by its own document but for the two fields that stand in for each other and the time
of the update. -/
theorem replaced_by_own_document {body : Json} {defaultRole now : Text} {id : Nat} {rest : Rest}
    {first row : User Rest} {requests : List Request}
    (created : scimCreateUser render body defaultRole id now rest = some first)
    (reached : Run.run (serve render) first requests = some row)
    (hasEmail : row.email ≠ []) (hasUserName : row.userName ≠ []) (hasName : row.name ≠ [])
    (bare : strip row.name = row.name) (currentRole later : Text) :
    scimReplaceUser render row (.obj (userToScim row)) currentRole later =
      some { row with profile := mirrored row.profile, updatedAt := later } :=
  scimReplaceUser_document render (kept_run render created reached) hasEmail hasUserName hasName
    bare currentRole later

/-- A user of whom the directory sends the company name in the extension. -/
def companyBody : Json :=
  .obj [("userName", .str "kim@example.org".toList),
    (domainlensSchema, .obj [("companyName", .str "Acme".toList)])]

private def createdRow : Option (User Unit) :=
  scimCreateUser (fun _ => []) companyBody "user".toList 1 "09:00".toList ()

private theorem isSome_createdRow : createdRow.isSome = true := by decide +kernel

private theorem createdRow_facts :
    ∀ row ∈ createdRow, (row.email ≠ [] ∧ row.userName ≠ [] ∧ row.name ≠ [] ∧
      strip row.name = row.name) ∧ row.profile .organization = none ∧
      mirrored row.profile .organization = some "Acme".toList ∧
      row.updatedAt ≠ "10:00".toList := by
  decide +kernel

theorem own_document_of_created :
    ∃ row, scimCreateUser (fun _ => []) companyBody "user".toList 1 "09:00".toList () = some row ∧
      scimReplaceUser (fun _ => []) row (.obj (userToScim row)) "user".toList "10:00".toList =
        some { row with profile := mirrored row.profile, updatedAt := "10:00".toList } := by
  have created : createdRow = some (createdRow.get isSome_createdRow) :=
    (Option.some_get isSome_createdRow).symm
  have reached : Run.run (serve fun _ => []) (createdRow.get isSome_createdRow) [] =
      some (createdRow.get isSome_createdRow) := rfl
  obtain ⟨⟨email, userName, name, bare⟩, -⟩ := createdRow_facts _ created
  exact ⟨_, created, replaced_by_own_document (fun _ => []) created reached
    email userName name bare _ _⟩

/-- Its own document gives the user an organization and a new time of update. -/
theorem own_document_changes_row :
    ∃ row after : User Unit,
      scimCreateUser (fun _ => []) companyBody "user".toList 1 "09:00".toList () = some row ∧
      scimReplaceUser (fun _ => []) row (.obj (userToScim row)) "user".toList "10:00".toList =
        some after ∧
      row.profile .organization = none ∧
      after.profile .organization = some "Acme".toList ∧
      row.updatedAt ≠ after.updatedAt := by
  have created : createdRow = some (createdRow.get isSome_createdRow) :=
    (Option.some_get isSome_createdRow).symm
  have kept : Kept (createdRow.get isSome_createdRow) :=
    kept_scimCreateUser (fun _ => []) created
  obtain ⟨⟨email, userName, name, bare⟩, before, after, later⟩ := createdRow_facts _ created
  exact ⟨_, _, created, scimReplaceUser_document (fun _ => []) kept email userName name bare _ _,
    before, after, later⟩

end Scim
end DomainLens
