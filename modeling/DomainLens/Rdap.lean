import DomainLens.DomainPortfolio.Registry
import DomainLens.Python.Access

/-!
# Registration data through RDAP

An RDAP server answers with JSON of any shape.  The answer is read into the fields the portfolio
keeps; the file says which answers can be read, and what becomes of those that cannot.
-/

namespace DomainLens
namespace Rdap

open Python DomainPortfolio

/-- `str` on what the module `json` reads. -/
abbrev Str := Value → Text

variable (str : Str)

/-! ## Contacts -/

structure Card where
  fn : Option Text
  org : Option Text
  email : Option Text
  address : Option Text

def Card.empty : Card := ⟨none, none, none, none⟩

/-- `entity.get("vcardArray", [None, []])[1]`, with nothing where the error is caught; that of a key
is not. -/
def vcardFields (entity : Value) : Option Value :=
  match entity with
  | .dict entries =>
      match entries.lookup "vcardArray".toList with
      | none => some (.list [])
      | some (.list items) => some ((items[1]?).getD (.list []))
      | some (.text chars) => some (((chars[1]?).map fun char => .text [char]).getD (.list []))
      | some (.dict _) => none
      | some (.null) | some (.bool _) | some (.number _) => some (.list [])
  | _ => some (.list [])

/-- The text of a value, where it is one that is not blank. -/
def solidText : Value → Option Text
  | .text chars => if strip chars = [] then none else some (strip chars)
  | _ => none

/-- The address of an `adr` field. -/
def addressOf (params value : Value) : Option Text :=
  let label := (params.getOf "label").getD .null
  if label.truthy then some (joinWords (split (str label)))
  else match value with
    | .list parts =>
        let parts := parts.filterMap solidText
        if parts = [] then none else some (", ".toList.intercalate parts)
    | _ => none

/-- One field of a jCard; the first of a kind counts. -/
def readField (card : Card) : Value → Card
  | .list (.text name :: params :: _ :: value :: _) =>
      if name = "fn".toList then { card with fn := card.fn.or (solidText value) }
      else if name = "org".toList then { card with org := card.org.or (solidText value) }
      else if name = "email".toList then { card with email := card.email.or (solidText value) }
      else if name = "adr".toList then { card with address := card.address.or (addressOf str params value) }
      else card
  | _ => card

/-- `_vcard`. -/
def vcard (entity : Value) : Option Card :=
  (vcardFields entity).bind fun fields => fields.elements.map fun fields =>
    fields.foldl (readField str) .empty

def redactedMarkers : List Text :=
  ["redacted".toList, "not disclosed".toList, "withheld".toList, "privacy".toList]

/-- `_is_redacted`. -/
def isRedacted (text : Text) : Bool :=
  redactedMarkers.any fun marker => marker <:+: lower text

structure Party where
  name : Text
  org : Option Text
  email : Option Text
  address : Option Text
  abuseEmail : Option Text

/-- The name of a party, where it is not withheld. -/
def Card.name (card : Card) : Option Text :=
  (card.fn.or card.org).filter fun name => !isRedacted name

/-- A field that is shown beside the name. -/
def shownBeside (name : Text) (field : Option Text) : Option Text :=
  (truthyText field).filter fun text => !isRedacted text && text ≠ name

/-- `entity.get("roles") or []`. -/
def rolesOf (entity : Value) : Option Value := (entity.getOf "roles").map (·.or (.list []))

/-- Whether the roles of an entity have one for abuse. -/
def isAbuse (entity : Value) : Option Bool :=
  (rolesOf entity).bind fun roles => roles.contains "abuse".toList

/-- The first contact for abuse of an entity. -/
def abuseOf (entity : Value) : Option (Option Value) :=
  (entity.getOf "entities").bind fun others => others.elementsOr.bind fun others =>
    (others.mapM fun other => (isAbuse other).map fun abuse => (other, abuse)).map fun marked =>
      (marked.find? Prod.snd).map Prod.fst

/-- `_party`, nothing within for one that is withheld. -/
def partyOf (entity : Value) : Option (Option Party) :=
  (vcard str entity).bind fun card =>
    match card.name with
    | none => some none
    | some name =>
        (abuseOf entity).bind fun abuse =>
          (match abuse with
            | none => some none
            | some abuse => (vcard str abuse).map Card.email).map fun email =>
          some
            { name
              org := shownBeside name card.org
              email := shownBeside name card.email
              address := shownBeside name card.address
              abuseEmail := email }

/-! ## The answer of a server -/

/-- The events with their dates; an action is a key. -/
def eventsOf (data : Value) : Option (List (Value × Value)) :=
  (data.getOf "events").bind fun events => events.elementsOr.bind fun events =>
    events.mapM fun event =>
      (event.getOf "eventAction").bind fun action => (event.getOf "eventDate").bind fun date =>
        if action.isHashable then some (action, date) else none

/-- `events.get(action)`: the last one counts. -/
def eventDate (events : List (Value × Value)) (action : String) : Value :=
  ((events.reverse.find? fun event => event.1.isText action.toList).map Prod.snd).getD .null

/-- The parties of one entity, under its roles. -/
def partiesOfEntity (entity : Value) : Option (List (Value × Option Party)) :=
  (rolesOf entity).bind fun roles => roles.elements.bind fun roles =>
    roles.mapM fun role =>
      (partyOf str entity).bind fun party => if role.isHashable then some (role, party) else none

/-- The parties; the first of a role counts. -/
def partiesOf (data : Value) : Option (List (Value × Option Party)) :=
  (data.getOf "entities").bind fun entities => (entities.elementsOr.bind fun entities =>
    entities.mapM (partiesOfEntity str)).map List.flatten

def partyName (parties : List (Value × Option Party)) (role : String) : Option Text :=
  ((parties.find? fun party => party.1.isText role.toList).bind Prod.snd).map Party.name

/-- Whether the delegation is signed, where the answer says so. -/
def signedOf (data : Value) : Option (Option Bool) :=
  (data.getOf "secureDNS").bind fun secure =>
    let secure := secure.or (.dict [])
    (secure.contains "delegationSigned".toList).bind fun stated =>
      if stated then (secure.getOf "delegationSigned").map fun signed => some signed.truthy
      else some none

/-- `data.get("ldhName") or domain`, which is a text. -/
def nameOf (data : Value) (domain : Text) : Option Text :=
  (data.getOf "ldhName").bind fun name =>
    if name.truthy then
      match name with
      | .text chars => some chars
      | _ => none
    else some domain

def statusOf (data : Value) : Option (List Value) :=
  (data.getOf "status").bind Value.elementsOr

/-- The name of a name server, if it has one. -/
def nameserverOf (server : Value) : Option (Option Text) :=
  (server.getOf "ldhName").bind fun name =>
    if name.truthy then
      match name with
      | .text chars => some (some (lower chars))
      | _ => none
    else some none

def nameserversOf (data : Value) : Option (List Text) :=
  (data.getOf "nameservers").bind fun servers => (servers.elementsOr.bind fun servers =>
    servers.mapM nameserverOf).map List.reduceOption

/-- `domain.rsplit(".", 1)[-1].lower()`. -/
def tldOf (domain : Text) : Text := lower ((domain.splitOn '.').getLastD [])

/-- `lifecycle`: the phase, and what stands for the moment of the release. -/
def lifecycle (domain : Text) (status : List Text) (expiration : Value) : Registry.Phase × Value :=
  let status := status.map lower
  if "pending delete".toList ∈ status ∧ tldOf domain = "nl".toList then (.quarantine, expiration)
  else if "pending delete".toList ∈ status then (.pendingDelete, expiration)
  else if "redemption period".toList ∈ status then (.redemption, .null)
  else if "client hold".toList ∈ status ∨ "server hold".toList ∈ status ∨ "inactive".toList ∈ status then
    (.notInDns, .null)
  else (.registered, .null)

/-- `_date`. -/
def dateText (value : Value) : Option Text :=
  if value.truthy then some ((str value).take 10) else none

inductive State where
  | measured
  | unmeasured
  | notApplicable
deriving DecidableEq

/-- The result of a lookup.  `released` is the entry `released_from` as it was read, `retryAfter` the
seconds a server asks for. -/
structure Result where
  lookup : Registry.Lookup
  state : Option State
  released : Value
  retryAfter : Option Number

/-- `parse`; nothing where it raises.  Entries of the status are kept by their `str`. -/
def parse (domain : Text) (data : Value) : Option Result := do
  let events ← eventsOf data
  let parties ← partiesOf str data
  let signed ← signedOf data
  let name ← nameOf data domain
  let status ← statusOf data
  let nameservers ← nameserversOf data
  let (phase, released) := lifecycle name (status.map str) (eventDate events "expiration")
  let registered := dateText str (eventDate events "registration")
  let expires :=
    if ".nl".toList <:+ lower name then none else dateText str (eventDate events "expiration")
  some
    { lookup :=
        { success := true
          phase := some phase
          releasedFrom := match released with
            | .null => none
            | released => some (str released)
          status := status.map str
          registrar := partyName parties "registrar"
          reseller := partyName parties "reseller"
          registered := match registered with
            | some date => .on date
            | none => .absent
          expires
          dnssec := signed
          nameservers
          source := some "rdap".toList
          error := none }
      state := none
      released
      retryAfter := none }

/-! ## Lookups -/

/-- What is read of an answer: JSON, an error of the parser, or an error that is none of its own. -/
inductive Body where
  | json (data : Value)
  | notJson
  | raising

/-- What comes of a request.  `raising` is an error that is none of `requests`; `retryAfter` is the
header as a number, or 10. -/
inductive Reply where
  | noBootstrap (error : Text)
  | noServer
  | failed (error : Text)
  | raising
  | http (status : Nat) (retryAfter : Number) (body : Body)

/-- A lookup without registration data. -/
def Result.without (state : State) (registered : Registry.Registered) (error : Text) : Result where
  lookup :=
    { success := false, phase := none, releasedFrom := none, status := [], registrar := none,
      reseller := none, registered, expires := none, dnssec := none, nameservers := [],
      source := none, error := some error }
  state := some state
  released := .null
  retryAfter := none

/-- `lookup`; nothing where it raises. -/
def lookup (domain : Text) : Reply → Option Result
  | .noBootstrap error =>
      some (.without .unmeasured .absent ("RDAP bootstrap unavailable: ".toList ++ error))
  | .noServer =>
      some (.without .notApplicable .absent "This TLD's registry does not offer RDAP".toList)
  | .failed error => some (.without .unmeasured .absent ("RDAP request failed: ".toList ++ error))
  | .raising => none
  | .http status retryAfter body =>
      if status = 429 then
        some
          { Result.without .unmeasured .absent
              "The registry is rate limiting lookups (HTTP 429)".toList with
            retryAfter := some retryAfter }
      else if status = 404 then
        some (.without .measured .no "The registry has no registration for this domain".toList)
      else if status ≠ 200 then
        some (.without .unmeasured .absent ("RDAP server answered HTTP ".toList ++ strOf status))
      else
        match body with
        | .json data => parse str ((lower (strip domain)).rdropWhile (· = '.')) data
        | .notJson => some (.without .unmeasured .absent "RDAP answer was not JSON".toList)
        | .raising => none

/-! ## The answers that can be read -/

def CardReadable (entity : Value) : Prop :=
  ∃ fields, vcardFields entity = some fields ∧ fields.elements.isSome

def NameReadable (name : Value) : Prop := name.truthy → ∃ chars, name = .text chars

/-- An entity whose roles can be asked for abuse. -/
def AbuseReadable (entity : Value) : Prop :=
  ∃ roles, entity.getOf "roles" = some roles ∧ (roles.truthy → roles.elements.isSome)

/-- A contact that is read, with its contacts for abuse if it is shown. -/
structure PartyReadable (entity : Value) : Prop where
  card : CardReadable entity
  others : ∀ card ∈ vcard str entity, card.name.isSome →
    ∀ others ∈ entity.getOf "entities", others.Each AbuseReadable
  abuse : ∀ card ∈ vcard str entity, card.name.isSome →
    ∀ abuse, abuseOf entity = some (some abuse) → CardReadable abuse

/-- An entity: a dictionary whose roles are keys, and one that has a role can be read as a party. -/
structure EntityReadable (entity : Value) : Prop where
  isDict : entity.IsDict
  roles : ∀ roles ∈ entity.getOf "roles", roles.Each fun role =>
    role.isHashable ∧ PartyReadable str entity

/-- What is read of an answer has the shape it is read in. -/
structure Readable (data : Value) : Prop where
  isDict : data.IsDict
  events : ∀ events ∈ data.getOf "events", events.Each fun event =>
    event.IsDict ∧ ∀ action ∈ event.getOf "eventAction", action.isHashable
  entities : ∀ entities ∈ data.getOf "entities", entities.Each (EntityReadable str)
  secureDns : ∀ secure ∈ data.getOf "secureDNS", secure.truthy →
    ∃ stated, secure.contains "delegationSigned".toList = some stated ∧ (stated → secure.IsDict)
  name : ∀ name ∈ data.getOf "ldhName", NameReadable name
  status : ∀ status ∈ data.getOf "status", status.truthy → status.elements.isSome
  nameservers : ∀ servers ∈ data.getOf "nameservers", servers.Each fun server =>
    server.IsDict ∧ ∀ name ∈ server.getOf "ldhName", NameReadable name

variable {str} {data entity : Value} {entries : Items}

theorem vcard_isSome_iff (str : Str) : (vcard str entity).isSome ↔ CardReadable entity := by
  rw [vcard, bind_isSome_iff, CardReadable]
  simp only [Option.isSome_map]

theorem elementsOr_isSome_iff {value : Value} :
    value.elementsOr.isSome ↔ (value.truthy → value.elements.isSome) := by
  rw [Value.elementsOr, Value.or]
  cases value.truthy <;> simp [Value.elements]

theorem isAbuse_isSome_iff : (isAbuse entity).isSome ↔ AbuseReadable entity := by
  have walked : ∀ roles : Value, (roles.contains "abuse".toList).isSome ↔ roles.elements.isSome := by
    intro roles
    cases roles <;> simp [Value.contains, Value.elements]
  rw [isAbuse, rolesOf, bind_isSome_iff, AbuseReadable]
  simp only [Option.map_eq_some_iff, walked]
  constructor
  · rintro ⟨_, ⟨roles, found, rfl⟩, some_⟩
    exact ⟨roles, found, elementsOr_isSome_iff.mp some_⟩
  · rintro ⟨roles, found, some_⟩
    exact ⟨_, ⟨roles, found, rfl⟩, elementsOr_isSome_iff.mpr some_⟩

theorem abuseOf_isSome_iff : (abuseOf (.dict entries)).isSome ↔
    (getValue entries "entities").Each AbuseReadable := by
  rw [abuseOf, Value.getOf_dict, Option.bind_some]
  simp only [Option.isSome_bind, Option.isSome_map]
  rw [← Option.isSome_bind, Value.elementsOr_mapM_isSome_iff]
  exact Value.each_congr fun other => by rw [Option.isSome_map, isAbuse_isSome_iff]

theorem partyOf_isSome_iff : (partyOf str (.dict entries)).isSome ↔ PartyReadable str (.dict entries) := by
  rw [partyOf, bind_isSome_iff]
  constructor
  · rintro ⟨card, isCard, rest⟩
    have others : card.name.isSome → (abuseOf (.dict entries)).isSome ∧
        ∀ abuse, abuseOf (.dict entries) = some (some abuse) → (vcard str abuse).isSome := by
      intro shown
      obtain ⟨name, isName⟩ := Option.isSome_iff_exists.mp shown
      simp only [isName] at rest
      obtain ⟨abuse, found, email⟩ := bind_isSome_iff.mp rest
      rw [Option.isSome_map] at email
      refine ⟨by simp [found], fun other same => ?_⟩
      obtain rfl := Option.some.inj (found.symm.trans same)
      rwa [Option.isSome_map] at email
    exact
      { card := (vcard_isSome_iff str).mp (by simp [isCard])
        others := fun other same shown listed isListed => by
          obtain rfl := Option.some.inj (isCard.symm.trans same)
          obtain rfl := Option.some.inj isListed
          exact abuseOf_isSome_iff.mp (others shown).1
        abuse := fun other same shown abuse found => by
          obtain rfl := Option.some.inj (isCard.symm.trans same)
          exact (vcard_isSome_iff str).mp ((others shown).2 abuse found) }
  · rintro ⟨isCard, others, abuse⟩
    obtain ⟨card, found⟩ := Option.isSome_iff_exists.mp ((vcard_isSome_iff str).mpr isCard)
    refine ⟨card, found, ?_⟩
    cases shown : card.name with
    | none => rfl
    | some name =>
        have named : card.name.isSome := by simp [shown]
        obtain ⟨contact, isContact⟩ := Option.isSome_iff_exists.mp
          (abuseOf_isSome_iff.mpr (others card found named _ rfl))
        simp only [isContact, Option.bind_some]
        cases contact with
        | none => rfl
        | some contact =>
            obtain ⟨inner, isInner⟩ := Option.isSome_iff_exists.mp
              ((vcard_isSome_iff str).mpr (abuse card found named contact isContact))
            rw [Option.isSome_map, Option.isSome_map, isInner]
            rfl

theorem partiesOfEntity_isSome_iff :
    (partiesOfEntity str entity).isSome ↔ EntityReadable str entity := by
  cases entity with
  | dict entries =>
      have each : ∀ role : Value, ((partyOf str (.dict entries)).bind fun party =>
          if role.isHashable then some (role, party) else none).isSome ↔
            role.isHashable ∧ PartyReadable str (.dict entries) := by
        intro role
        rw [bind_isSome_iff, ← partyOf_isSome_iff, Option.isSome_iff_exists]
        cases role.isHashable <;> simp
      have walked : (partiesOfEntity str (.dict entries)).isSome ↔
          (getValue entries "roles").Each fun role =>
            role.isHashable ∧ PartyReadable str (.dict entries) := by
        rw [partiesOfEntity, rolesOf, Value.getOf_dict, Option.map_some, Option.bind_some]
        exact Value.elementsOr_mapM_isSome_iff.trans (Value.each_congr each)
      rw [walked]
      constructor
      · intro roles
        exact
          { isDict := ⟨entries, rfl⟩
            roles := fun found same => Option.some.inj same ▸ roles }
      · exact fun readable => readable.roles _ rfl
  | _ =>
      simp only [partiesOfEntity, rolesOf, Value.getOf, Option.map_none, Option.bind_none]
      constructor
      · intro read
        cases read
      · intro readable
        obtain ⟨entries, isDict⟩ := readable.isDict
        cases isDict

private theorem name_isSome_iff {α : Type*} {name : Value} {other : α} {text : Text → α} :
    (if name.truthy then
      match name with
      | .text chars => some (text chars)
      | _ => none
    else some other).isSome ↔ NameReadable name := by
  rw [NameReadable]
  cases name.truthy with
  | false => simp
  | true => cases name <;> simp

theorem nameserverOf_isSome_iff {server : Value} : (nameserverOf server).isSome ↔
    server.IsDict ∧ ∀ name ∈ server.getOf "ldhName", NameReadable name := by
  rw [nameserverOf, bind_isSome_iff]
  constructor
  · rintro ⟨name, found, read⟩
    refine ⟨(@Value.getOf_isSome_iff _ "ldhName").mp (by simp [found]), fun other same => ?_⟩
    obtain rfl := Option.some.inj (found.symm.trans same)
    exact name_isSome_iff.mp read
  · rintro ⟨⟨entries, rfl⟩, named⟩
    exact ⟨_, rfl, name_isSome_iff.mpr (named _ rfl)⟩

theorem eventsOf_isSome_iff : (eventsOf (.dict entries)).isSome ↔
    (getValue entries "events").Each fun event =>
      event.IsDict ∧ ∀ action ∈ event.getOf "eventAction", action.isHashable := by
  rw [eventsOf, Value.getOf_dict, Option.bind_some, Value.elementsOr_mapM_isSome_iff]
  refine Value.each_congr fun event => ?_
  rw [bind_isSome_iff]
  constructor
  · rintro ⟨action, found, rest⟩
    obtain ⟨date, -, kept⟩ := bind_isSome_iff.mp rest
    refine ⟨(@Value.getOf_isSome_iff _ "eventAction").mp (by simp [found]), fun other same => ?_⟩
    obtain rfl := Option.some.inj (found.symm.trans same)
    by_contra unhashable
    simp [unhashable] at kept
  · rintro ⟨⟨entries, rfl⟩, hashable⟩
    refine ⟨_, rfl, ?_⟩
    rw [Value.getOf_dict, Option.bind_some, if_pos (hashable _ rfl)]
    rfl

theorem signedOf_isSome_iff : (signedOf (.dict entries)).isSome ↔
    ((getValue entries "secureDNS").truthy →
      ∃ stated, (getValue entries "secureDNS").contains "delegationSigned".toList = some stated ∧
        (stated → (getValue entries "secureDNS").IsDict)) := by
  rw [signedOf, Value.getOf_dict, Option.bind_some, bind_isSome_iff, Value.or]
  cases (getValue entries "secureDNS").truthy with
  | false => simp [Value.contains]
  | true =>
      simp only [if_true, true_implies]
      refine exists_congr fun stated => and_congr_right fun _ => ?_
      cases stated with
      | false => simp
      | true => simp [Value.getOf_isSome_iff]

theorem nameserversOf_isSome_iff : (nameserversOf (.dict entries)).isSome ↔
    (getValue entries "nameservers").Each fun server =>
      server.IsDict ∧ ∀ name ∈ server.getOf "ldhName", NameReadable name := by
  rw [nameserversOf, Value.getOf_dict, Option.bind_some, Option.isSome_map,
    Value.elementsOr_mapM_isSome_iff]
  exact Value.each_congr fun server => nameserverOf_isSome_iff

theorem partiesOf_isSome_iff : (partiesOf str (.dict entries)).isSome ↔
    (getValue entries "entities").Each (EntityReadable str) := by
  rw [partiesOf, Value.getOf_dict, Option.bind_some, Option.isSome_map,
    Value.elementsOr_mapM_isSome_iff]
  exact Value.each_congr fun entity => partiesOfEntity_isSome_iff

theorem parse_isSome_iff (str : Str) (domain : Text) (data : Value) :
    (parse str domain data).isSome ↔ Readable str data := by
  cases data with
  | dict entries =>
      have parts : (parse str domain (.dict entries)).isSome ↔
          (eventsOf (.dict entries)).isSome ∧ (partiesOf str (.dict entries)).isSome ∧
            (signedOf (.dict entries)).isSome ∧ (nameOf (.dict entries) domain).isSome ∧
            (statusOf (.dict entries)).isSome ∧ (nameserversOf (.dict entries)).isSome := by
        rw [parse]
        cases eventsOf (.dict entries) <;> cases partiesOf str (.dict entries) <;>
          cases signedOf (.dict entries) <;> cases nameOf (.dict entries) domain <;>
          cases statusOf (.dict entries) <;> cases nameserversOf (.dict entries) <;> simp
      rw [parts, eventsOf_isSome_iff, partiesOf_isSome_iff, signedOf_isSome_iff,
        nameserversOf_isSome_iff]
      have named : (nameOf (.dict entries) domain).isSome ↔
          NameReadable (getValue entries "ldhName") := name_isSome_iff
      have walked : (statusOf (.dict entries)).isSome ↔ ((getValue entries "status").truthy →
          (getValue entries "status").elements.isSome) := elementsOr_isSome_iff
      rw [named, walked]
      constructor
      · rintro ⟨events, entities, secureDns, name, status, nameservers⟩
        exact
          { isDict := ⟨entries, rfl⟩
            events := fun found same => Option.some.inj same ▸ events
            entities := fun found same => Option.some.inj same ▸ entities
            secureDns := fun found same => Option.some.inj same ▸ secureDns
            name := fun found same => Option.some.inj same ▸ name
            status := fun found same => Option.some.inj same ▸ status
            nameservers := fun found same => Option.some.inj same ▸ nameservers }
      · intro readable
        exact ⟨readable.events _ rfl, readable.entities _ rfl, readable.secureDns _ rfl,
          readable.name _ rfl, readable.status _ rfl, readable.nameservers _ rfl⟩
  | _ =>
      constructor
      · intro read
        simp [parse, eventsOf, Value.getOf] at read
      · intro readable
        obtain ⟨_, isDict⟩ := readable.isDict
        cases isDict

/-- What comes of the request can be made a result of. -/
def Reply.Readable (str : Str) : Reply → Prop
  | .raising => False
  | .http 200 _ (.json data) => Rdap.Readable str data
  | .http 200 _ .raising => False
  | _ => True

theorem lookup_isSome_of_readable {reply : Reply} (domain : Text) (readable : reply.Readable str) :
    (lookup str domain reply).isSome := by
  cases reply with
  | raising => exact readable.elim
  | http status retryAfter body =>
      simp only [lookup]
      split_ifs with limited missing refused
      · rfl
      · rfl
      · rfl
      · obtain rfl : status = 200 := not_not.mp refused
        cases body with
        | json data => exact (parse_isSome_iff str _ data).mpr readable
        | notJson => rfl
        | raising => exact readable.elim
  | _ => rfl

end Rdap
end DomainLens
