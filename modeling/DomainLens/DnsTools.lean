import DomainLens.Python.CaseMapping
import DomainLens.Python.IpAddress
import Mathlib

/-!
# The lookup tool for DNS records

A lookup puts one question to the servers of a resolver that is chosen by name: a fixed one, one an
administrator configured, the system's own, or the name servers of the zone.  The addresses of the
last kind come from the DNS.
-/

namespace DomainLens
namespace DnsTools

open Python

/-! ## Packets -/

inductive Destination where
  | defaultResolver
  | address (address : IpAddress)
deriving DecidableEq

/-- What a computation sends, and what it comes to. -/
structure Sending (Result : Type*) where
  sent : List Destination
  result : Result

namespace Sending

def done {Result : Type*} (result : Result) : Sending Result where
  sent := []
  result := result

def andThen {First Second : Type*} (first : Sending First) (next : First → Sending Second) :
    Sending Second where
  sent := first.sent ++ (next first.result).sent
  result := (next first.result).result

end Sending

inductive Family where
  | a
  | aaaa

/-- A record set of an answer, its records formatted. -/
structure RRset where
  isSignature : Bool
  ttl : Nat
  records : List Text

structure Response where
  rcode : Text
  authenticData : Bool
  answer : List RRset

/-- What comes of a question: a response, over TCP or not, a `DNSException`, or another one with the
name of its class. -/
inductive Reply where
  | response (response : Response) (overTcp : Bool)
  | failed (exc : Text)
  | raised (className exc : Text)

/-- The DNS as one lookup meets it; a lookup through the default resolver may fail. -/
structure World where
  nameServers : Text → Option (List Text)
  addresses : Text → Family → Option (List IpAddress)
  reply : IpAddress → Reply

/-- The names `dnspython` takes, the addresses `ipaddress` takes, `repr`, and the servers of the
system's own resolver. -/
structure Services where
  validName : Text → Bool
  ipAddress : Text → Option IpAddress
  repr : Text → Text
  systemServers : List IpAddress

/-! ## The resolvers -/

inductive Resolver where
  | system
  | addresses (addresses : List IpAddress)
  | authoritative

def recordTypes : List Text :=
  ["A", "AAAA", "CNAME", "MX", "NS", "TXT", "SOA", "SRV", "CAA", "PTR", "DS", "DNSKEY", "TLSA",
    "NAPTR", "HTTPS", "SVCB"].map String.toList

/-- `RESOLVERS`. -/
def resolvers : List (Text × Resolver) :=
  [("system".toList, .system),
    ("dns4eu-unfiltered".toList, .addresses [.quad 86 54 11 100, .quad 86 54 11 200]),
    ("dns4eu-protective".toList, .addresses [.quad 86 54 11 1, .quad 86 54 11 201]),
    ("dns4eu-child".toList, .addresses [.quad 86 54 11 12, .quad 86 54 11 212]),
    ("dns4eu-noads".toList, .addresses [.quad 86 54 11 13, .quad 86 54 11 213]),
    ("dns4eu-child-noads".toList, .addresses [.quad 86 54 11 11, .quad 86 54 11 211]),
    ("cloudflare".toList, .addresses [.quad 1 1 1 1, .quad 1 0 0 1]),
    ("google".toList, .addresses [.quad 8 8 8 8, .quad 8 8 4 4]),
    ("quad9".toList, .addresses [.quad 9 9 9 9, .quad 149 112 112 112]),
    ("authoritative".toList, .authoritative)]

/-- `PROPAGATION_DEFAULT`. -/
def propagationDefault : List Text :=
  ["dns4eu-unfiltered", "cloudflare", "google", "quad9", "authoritative"].map String.toList

def maxNameLength : Nat := 253

/-- Configured resolvers, the last one of a label first. -/
abbrev Custom := List (Text × List IpAddress)

/-- The label and the addresses of a line, if it holds any that counts. -/
def customLine (services : Services) (raw : Text) : Option (Text × List IpAddress) :=
  let text := strip raw
  if text = [] ∨ text.head? = some '#' then none
  else
    let after := (text.dropWhile (· ≠ '=')).tail
    let label := if after = [] then text else text.takeWhile (· ≠ '=')
    let candidates := if after = [] then text else after
    let key := lower (strip label)
    let parsed := (candidates.splitOn ',').filterMap fun candidate =>
      if strip candidate = [] then none else services.ipAddress (strip candidate)
    if key ≠ [] ∧ parsed ≠ [] ∧ (resolvers.lookup key).isNone then some (key, parsed) else none

/-- `parse_custom_resolvers`. -/
def parseCustomResolvers (services : Services) (lines : List Text) : Custom :=
  (lines.filterMap (customLine services)).reverse

/-! ## One question -/

/-- A `LookupError_`, or another exception with the name of its class. -/
inductive Failure where
  | lookup (message : Text)
  | raised (className message : Text)

def sortTexts (texts : List Text) : List Text := texts.insertionSort (· ≤ ·)

/-- `_validate`. -/
def validate (services : Services) (name rtype resolver : Text) :
    Except Failure (Text × Text × Text) :=
  let name := (strip name).rdropWhile (· = '.')
  let rtype := upper (strip (if rtype = [] then "A".toList else rtype))
  let resolver := lower (strip (if resolver = [] then "system".toList else resolver))
  if name = [] ∨ maxNameLength < name.length then
    .error (.lookup "Enter a domain name of at most 253 characters".toList)
  else if !services.validName name then
    .error (.lookup (services.repr name ++ " is not a valid DNS name".toList))
  else if rtype ∉ recordTypes then
    .error (.lookup (rtype ++ (" is not a supported record type. Zone transfers and ANY are "
      ++ "deliberately not offered.").toList))
  else if (resolvers.lookup resolver).isNone then
    .error (.lookup ("Unknown resolver ".toList ++ services.repr resolver
      ++ ". Choose one of: ".toList
      ++ ", ".toList.intercalate (sortTexts (resolvers.map Prod.fst))))
  else .ok (name, rtype, resolver)

structure Answer where
  name : Text
  type : Text
  resolver : Text
  records : List Text
  ttl : Option Nat
  rcode : Option Text
  authenticated : Option Bool
  authoritativeZone : Option Text
  nameservers : Option (List IpAddress)
  answeredBy : Option IpAddress
  overTcp : Option Bool
  error : Option Text

/-- The first server that answers, or the last exception. -/
inductive Asked where
  | answered (server : IpAddress) (response : Response) (overTcp : Bool)
  | unanswered (last : Option Text)

/-- Ask one server after another until one answers. -/
def askServers (world : World) : Option Text → List IpAddress → Sending (Except Failure Asked)
  | last, [] => .done (.ok (.unanswered last))
  | _, server :: servers =>
      Sending.andThen ⟨[.address server], world.reply server⟩ fun reply =>
        match reply with
        | .response response overTcp => .done (.ok (.answered server response overTcp))
        | .failed exc => askServers world (some exc) servers
        | .raised className exc => .done (.error (.raised className exc))

/-- What `_query_addresses` makes of the first server that answers. -/
def answerOf (name rtype resolver : Text) (wantAd : Bool) : Asked → Answer
  | .answered server response overTcp =>
      let sets := response.answer.filter fun set => !set.isSignature
      { name := name
        type := rtype
        resolver := resolver
        records := sets.flatMap RRset.records
        ttl := sets.getLast?.map RRset.ttl
        rcode := some response.rcode
        authenticated := if wantAd then some response.authenticData else none
        authoritativeZone := none
        nameservers := none
        answeredBy := some server
        overTcp := some overTcp
        error := none }
  | .unanswered last =>
      { name := name
        type := rtype
        resolver := resolver
        records := []
        ttl := none
        rcode := some "NOERROR".toList
        authenticated := none
        authoritativeZone := none
        nameservers := none
        answeredBy := none
        overTcp := none
        error := some ("Query failed: ".toList ++ last.getD "None".toList) }

/-- `_query_addresses`. -/
def queryAddresses (world : World) (name rtype resolver : Text) (addresses : List IpAddress)
    (wantAd : Bool) : Sending (Except Failure Answer) :=
  (askServers world none (addresses.take 4)).andThen fun asked =>
    .done (asked.map (answerOf name rtype resolver wantAd))

/-! ## The name servers of a zone -/

/-- One lookup through the default resolver. -/
def resolve {Result : Type*} (result : Result) : Sending Result where
  sent := [.defaultResolver]
  result := result

/-- The addresses the DNS gives for a host. -/
def World.hostAddresses (world : World) (host : Text) : List IpAddress :=
  (world.addresses host .a).getD [] ++ (world.addresses host .aaaa).getD []

def lookupHost (world : World) (host : Text) : Sending (List IpAddress) :=
  (resolve ((world.addresses host .a).getD [])).andThen fun addresses =>
    (resolve (addresses ++ (world.addresses host .aaaa).getD [])).andThen .done

/-- The addresses of the first name server that has any. -/
def lookupHosts (world : World) : List Text → Sending (Option (List IpAddress))
  | [] => .done none
  | target :: targets =>
      (lookupHost world (target.rdropWhile (· = '.'))).andThen fun addresses =>
        if addresses ≠ [] then .done (some addresses) else lookupHosts world targets

/-- The first zone that has a name server with an address. -/
def lookupZones (world : World) : List Text → Sending (Option (Text × List IpAddress))
  | [] => .done none
  | zone :: zones =>
      (resolve (world.nameServers zone)).andThen fun targets =>
        (lookupHosts world (targets.getD [])).andThen fun found =>
          match found with
          | some addresses => .done (some (zone, addresses))
          | none => lookupZones world zones

/-- The name and the zones above it, down to those of two labels. -/
def zonesOf (name : Text) : List Text :=
  let labels := name.splitOn '.'
  (List.range (labels.length - 1)).map fun start => ['.'].intercalate (labels.drop start)

/-- `_authoritative_addresses`. -/
def authoritativeAddresses (world : World) (name : Text) :
    Sending (Except Failure (Text × List IpAddress)) :=
  (lookupZones world (zonesOf name)).andThen fun found =>
    match found with
    | some served => .done (.ok served)
    | none => .done (.error (.lookup ("No reachable nameservers found for ".toList ++ name)))

/-! ## Queries -/

/-- `str.replace`; the number is how much of a match is still to skip. -/
def replace (old new : Text) : Nat → Text → Text
  | _, [] => []
  | skip + 1, _ :: rest => replace old new skip rest
  | 0, char :: rest =>
      if old.isPrefixOf (char :: rest) then new ++ replace old new (old.length - 1) rest
      else char :: replace old new 0 rest

def queryAuthoritative (world : World) (name rtype resolver : Text) :
    Sending (Except Failure Answer) :=
  (authoritativeAddresses world name).andThen fun served =>
    match served with
    | .error failure => .done (.error failure)
    | .ok (zone, addresses) =>
        (queryAddresses world name rtype resolver addresses false).andThen fun answer =>
          .done (answer.map fun answer =>
            { answer with
              authoritativeZone := some zone
              nameservers := some (addresses.take 4)
              error := answer.error.map
                (replace "Query failed".toList "No nameserver answered".toList 0) })

/-- `query`. -/
def query (services : Services) (world : World) (name rtype resolver : Text) (custom : Custom) :
    Sending (Except Failure Answer) :=
  let key := lower (strip resolver)
  match (if resolver = [] then none else custom.lookup key) with
  | some addresses =>
      match validate services name rtype "system".toList with
      | .error failure => .done (.error failure)
      | .ok (name, rtype, _) => queryAddresses world name rtype key addresses true
  | none =>
      match validate services name rtype resolver with
      | .error failure => .done (.error failure)
      | .ok (name, rtype, key) =>
          match resolvers.lookup key with
          | some .authoritative => queryAuthoritative world name rtype key
          | some (.addresses addresses) => queryAddresses world name rtype key addresses true
          | _ => queryAddresses world name rtype key services.systemServers true

/-! ## Propagation -/

inductive Verdict where
  | unknown
  | propagated
  | inconsistent
deriving DecidableEq

structure Report where
  name : Text
  type : Text
  verdict : Verdict
  results : List Answer
  answered : Nat
  unreachable : List Text
  groups : List ((Option Text × List Text) × List Text)

def Failure.describe : Failure → Text
  | .lookup message => "LookupError_: ".toList ++ message
  | .raised className message => className ++ ": ".toList ++ message

def failedAnswer (name rtype key : Text) (failure : Failure) : Answer where
  name := name
  type := rtype
  resolver := key
  records := []
  ttl := none
  rcode := none
  authenticated := none
  authoritativeZone := none
  nameservers := none
  answeredBy := none
  overTcp := none
  error := some failure.describe

/-- One of the lookups of `propagation`; an exception becomes its answer. -/
def askResolver (services : Services) (world : World) (name rtype : Text) (custom : Custom)
    (key : Text) : Sending Answer :=
  let asked := match custom.lookup key with
    | some addresses => queryAddresses world name rtype key addresses true
    | none => query services world name rtype key []
  asked.andThen fun answer =>
    match answer with
    | .ok answer => .done answer
    | .error failure => .done (failedAnswer name rtype key failure)

/-- `signatures.setdefault(signature, []).append(resolver)`. -/
def addSignature (signature : Option Text × List Text) (resolver : Text) :
    List ((Option Text × List Text) × List Text) → List ((Option Text × List Text) × List Text)
  | [] => [(signature, [resolver])]
  | group :: groups =>
      if group.1 = signature then (signature, group.2 ++ [resolver]) :: groups
      else group :: addSignature signature resolver groups

def reportOf (name rtype : Text) (results : List Answer) : Report :=
  let answered := results.filter fun answer => answer.error.isNone
  let groups := answered.foldl (fun groups answer =>
    addSignature (answer.rcode, sortTexts answer.records) answer.resolver groups) []
  { name := name
    type := rtype
    verdict :=
      if answered.length < 2 then .unknown
      else if groups.length = 1 then .propagated
      else .inconsistent
    results := results
    answered := answered.length
    unreachable := (results.filter fun answer => answer.error.isSome).map Answer.resolver
    groups := groups }

/-- `propagation`; each of its lookups meets the DNS as it is then. -/
def propagation (services : Services) (worlds : Nat → World) (name rtype : Text)
    (chosen : Option (List Text)) (custom : Custom) : Sending (Except Failure Report) :=
  match validate services name rtype "system".toList with
  | .error failure => .done (.error failure)
  | .ok (name, rtype, _) =>
      let keys := chosen.getD propagationDefault
      let unknown := keys.filter fun key =>
        (custom.lookup key).isNone && (resolvers.lookup key).isNone
      if unknown ≠ [] then
        .done (.error (.lookup ("Unknown resolver(s): ".toList
          ++ ", ".toList.intercalate (sortTexts unknown))))
      else if keys = [] then
        .done (.error (.lookup "Select at least one resolver to compare".toList))
      else
        let asked := keys.zipIdx.map fun (key, position) =>
          askResolver services (worlds position) name rtype custom key
        { sent := asked.flatMap Sending.sent
          result := .ok (reportOf name rtype (asked.map Sending.result)) }

/-! ## Where packets may go -/

/-- Some line of the settings configures the address. -/
def Configured (services : Services) (lines : List Text) (address : IpAddress) : Prop :=
  ∃ line ∈ lines, ∃ resolver, customLine services line = some resolver ∧ address ∈ resolver.2

def Resolver.table : Resolver → List IpAddress
  | .addresses table => table
  | _ => []

def fixedAddresses : List IpAddress := resolvers.flatMap fun entry => entry.2.table

/-- The system's own resolver, the fixed table, the settings, or any public address. -/
def Allowed (services : Services) (lines : List Text) : Destination → Prop
  | .defaultResolver => True
  | .address address =>
      address ∈ services.systemServers ∨ address ∈ fixedAddresses ∨
      Configured services lines address ∨ address.isGlobal = true

/-- The addresses the DNS gives for the first name server that has any, of the closest zone that
has such a name server. -/
def Served (world : World) (name : Text) (addresses : List IpAddress) : Prop :=
  ∃ closer zone farther earlier target later,
    zonesOf name = closer ++ zone :: farther ∧
    (∀ other ∈ closer, ∀ host ∈ (world.nameServers other).getD [],
      world.hostAddresses (host.rdropWhile (· = '.')) = []) ∧
    (world.nameServers zone).getD [] = earlier ++ target :: later ∧
    (∀ other ∈ earlier, world.hostAddresses (other.rdropWhile (· = '.')) = []) ∧
    world.hostAddresses (target.rdropWhile (· = '.')) = addresses ∧ addresses ≠ []

/-- The address is one of the first four, and those before it do not answer. -/
def Tried (world : World) (addresses : List IpAddress) (address : IpAddress) : Prop :=
  ∃ before after, addresses.take 4 = before ++ address :: after ∧
    ∀ other ∈ before, ∃ exc, world.reply other = .failed exc

/-- The servers a lookup at the zone's own name servers comes to are allowed ones. -/
def ZoneAllowed (services : Services) (lines : List Text) (world : World) (name : Text) : Prop :=
  ∀ addresses address, Served world name addresses → Tried world addresses address →
    Allowed services lines (.address address)

variable {services : Services} {world : World} {lines : List Text}

/-! ## What is sent -/

namespace Sending

@[simp] theorem sent_done {Result : Type*} (result : Result) : (done result).sent = [] := rfl

@[simp] theorem sent_andThen {First Second : Type*} (first : Sending First)
    (next : First → Sending Second) :
    (first.andThen next).sent = first.sent ++ (next first.result).sent := rfl

@[simp] theorem result_done {Result : Type*} (result : Result) :
    (done result).result = result := rfl

@[simp] theorem result_andThen {First Second : Type*} (first : Sending First)
    (next : First → Sending Second) :
    (first.andThen next).result = (next first.result).result := rfl

end Sending

@[simp] theorem sent_resolve {Result : Type*} (result : Result) :
    (resolve result).sent = [.defaultResolver] := rfl

@[simp] theorem result_resolve {Result : Type*} (result : Result) :
    (resolve result).result = result := rfl

private theorem sent_askServers_cons {server : IpAddress} {servers : List IpAddress}
    {last : Option Text} :
    (askServers world last (server :: servers)).sent = .address server ::
      match world.reply server with
      | .failed exc => (askServers world (some exc) servers).sent
      | _ => [] := by
  rw [askServers, Sending.sent_andThen, List.singleton_append]
  congr 1
  cases world.reply server with
  | response response overTcp => rfl
  | failed exc => rfl
  | raised className exc => rfl

theorem mem_sent_askServers {servers : List IpAddress} {last : Option Text}
    {destination : Destination} :
    destination ∈ (askServers world last servers).sent ↔
      ∃ before address after, destination = .address address ∧
        servers = before ++ address :: after ∧
        ∀ other ∈ before, ∃ exc, world.reply other = .failed exc := by
  induction servers generalizing last with
  | nil => simp [askServers]
  | cons server servers induction =>
      rw [sent_askServers_cons, List.mem_cons]
      constructor
      · rintro (rfl | later)
        · exact ⟨[], server, servers, rfl, rfl, by simp⟩
        · cases reply : world.reply server with
          | response => simp [reply] at later
          | raised => simp [reply] at later
          | failed exc =>
              simp only [reply] at later
              obtain ⟨before, address, after, isAddress, rfl, silent⟩ := induction.mp later
              exact ⟨server :: before, address, after, isAddress, rfl,
                List.forall_mem_cons.mpr ⟨⟨exc, reply⟩, silent⟩⟩
      · rintro ⟨before, address, after, rfl, isServers, silent⟩
        cases before with
        | nil => exact .inl (congrArg Destination.address (List.cons.inj isServers).1.symm)
        | cons first before =>
            obtain ⟨rfl, rest⟩ := List.cons.inj isServers
            obtain ⟨⟨exc, reply⟩, silent⟩ := List.forall_mem_cons.mp silent
            simp only [reply]
            exact .inr (induction.mpr ⟨before, address, after, rfl, rest, silent⟩)

theorem mem_sent_queryAddresses {name rtype resolver : Text} {addresses : List IpAddress}
    {wantAd : Bool} {destination : Destination} :
    destination ∈ (queryAddresses world name rtype resolver addresses wantAd).sent ↔
      ∃ address, destination = .address address ∧ Tried world addresses address := by
  unfold queryAddresses Tried
  rw [Sending.sent_andThen, Sending.sent_done, List.append_nil, mem_sent_askServers]
  constructor
  · rintro ⟨before, address, after, isAddress, isServers, silent⟩
    exact ⟨address, isAddress, before, after, isServers, silent⟩
  · rintro ⟨address, isAddress, before, after, isServers, silent⟩
    exact ⟨before, address, after, isAddress, isServers, silent⟩

theorem mem_of_tried {addresses : List IpAddress} {address : IpAddress}
    (tried : Tried world addresses address) : address ∈ addresses := by
  obtain ⟨before, after, isServers, -⟩ := tried
  have member : address ∈ addresses.take 4 := by rw [isServers]; simp
  exact List.mem_of_mem_take member

/-! ## Name servers -/

theorem lookupHost_eq (host : Text) :
    lookupHost world host =
      ⟨[.defaultResolver, .defaultResolver], world.hostAddresses host⟩ := rfl

theorem sent_lookupHosts (targets : List Text) :
    ∀ destination ∈ (lookupHosts world targets).sent, destination = .defaultResolver := by
  induction targets with
  | nil => simp [lookupHosts]
  | cons target targets induction =>
      intro destination member
      simp only [lookupHosts, lookupHost_eq, Sending.sent_andThen] at member
      split at member
      · simpa using member
      · rcases List.mem_append.mp member with host | later
        · simpa using host
        · exact induction destination later

theorem sent_lookupZones (zones : List Text) :
    ∀ destination ∈ (lookupZones world zones).sent, destination = .defaultResolver := by
  induction zones with
  | nil => simp [lookupZones]
  | cons zone zones induction =>
      intro destination member
      simp only [lookupZones, Sending.sent_andThen, sent_resolve, result_resolve,
        List.mem_append, List.mem_singleton] at member
      rcases member with here | hosts | later
      · exact here
      · exact sent_lookupHosts _ destination hosts
      · split at later
        · simp at later
        · exact induction destination later

/-- The addresses of a name server, if it has any. -/
def targetAddresses (world : World) (target : Text) : Option (List IpAddress) :=
  let addresses := world.hostAddresses (target.rdropWhile (· = '.'))
  if addresses ≠ [] then some addresses else none

private theorem targetAddresses_eq_some {target : Text} {addresses : List IpAddress} :
    targetAddresses world target = some addresses ↔
      world.hostAddresses (target.rdropWhile (· = '.')) = addresses ∧ addresses ≠ [] := by
  unfold targetAddresses
  rw [Option.ite_none_right_eq_some, Option.some.injEq]
  constructor
  · rintro ⟨nonempty, rfl⟩
    exact ⟨rfl, nonempty⟩
  · rintro ⟨rfl, nonempty⟩
    exact ⟨nonempty, rfl⟩

private theorem targetAddresses_eq_none {target : Text} :
    targetAddresses world target = none ↔
      world.hostAddresses (target.rdropWhile (· = '.')) = [] := by
  simp [targetAddresses]

theorem lookupHosts_eq (targets : List Text) :
    (lookupHosts world targets).result = targets.findSome? (targetAddresses world) := by
  induction targets with
  | nil => rfl
  | cons target targets induction =>
      rw [List.findSome?_cons, lookupHosts, lookupHost_eq, Sending.result_andThen]
      unfold targetAddresses
      dsimp only
      split
      · rfl
      · exact induction

theorem lookupZones_eq (zones : List Text) :
    (lookupZones world zones).result = zones.findSome? fun zone =>
      (((world.nameServers zone).getD []).findSome? (targetAddresses world)).map (zone, ·) := by
  induction zones with
  | nil => rfl
  | cons zone zones induction =>
      rw [List.findSome?_cons, lookupZones]
      simp only [Sending.result_andThen, result_resolve, lookupHosts_eq]
      cases ((world.nameServers zone).getD []).findSome? (targetAddresses world) with
      | none => exact induction
      | some addresses => rfl

theorem lookupZones_eq_some {name : Text} {addresses : List IpAddress} :
    (∃ zone, (lookupZones world (zonesOf name)).result = some (zone, addresses)) ↔
      Served world name addresses := by
  simp only [lookupZones_eq, List.findSome?_eq_some_iff, Option.map_eq_some_iff,
    Option.map_eq_none_iff, List.findSome?_eq_none_iff, targetAddresses_eq_none,
    targetAddresses_eq_some]
  constructor
  · rintro ⟨zone, closer, _, farther, isZones, ⟨_, ⟨earlier, target, later, isTargets,
      ⟨isHost, nonempty⟩, empties⟩, same⟩, unserved⟩
    cases same
    exact ⟨closer, zone, farther, earlier, target, later, isZones, unserved, isTargets, empties,
      isHost, nonempty⟩
  · rintro ⟨closer, zone, farther, earlier, target, later, isZones, unserved, isTargets, empties,
      isHost, nonempty⟩
    exact ⟨zone, closer, zone, farther, isZones, ⟨addresses, ⟨earlier, target, later, isTargets,
      ⟨isHost, nonempty⟩, empties⟩, rfl⟩, unserved⟩

private theorem sent_queryAuthoritative {name rtype resolver : Text} :
    (queryAuthoritative world name rtype resolver).sent =
      (lookupZones world (zonesOf name)).sent ++
        match (lookupZones world (zonesOf name)).result with
        | none => []
        | some (_, addresses) =>
            (queryAddresses world name rtype resolver addresses false).sent := by
  unfold queryAuthoritative authoritativeAddresses
  simp only [Sending.sent_andThen, Sending.result_andThen, List.append_assoc]
  congr 1
  cases (lookupZones world (zonesOf name)).result with
  | none => rfl
  | some served => simp

/-- A lookup at the zone's own name servers sends to the addresses the DNS serves. -/
theorem allowed_queryAuthoritative {name rtype resolver : Text} :
    (∀ destination ∈ (queryAuthoritative world name rtype resolver).sent,
      Allowed services lines destination) ↔ ZoneAllowed services lines world name := by
  have lookups : ∀ destination ∈ (lookupZones world (zonesOf name)).sent,
      Allowed services lines destination := by
    intro destination member
    rw [sent_lookupZones _ destination member]
    trivial
  rw [sent_queryAuthoritative, List.forall_mem_append, and_iff_right lookups]
  cases found : (lookupZones world (zonesOf name)).result with
  | none =>
      refine iff_of_true (by simp) fun addresses address served => ?_
      obtain ⟨zone, isFound⟩ := lookupZones_eq_some.mpr served
      rw [found] at isFound
      cases isFound
  | some answer =>
      obtain ⟨zone, addresses⟩ := answer
      simp only [mem_sent_queryAddresses]
      constructor
      · intro allowed other address served tried
        obtain ⟨_, isFound⟩ := lookupZones_eq_some.mpr served
        rw [found] at isFound
        cases isFound
        exact allowed _ ⟨address, rfl, tried⟩
      · rintro allowed _ ⟨address, rfl, tried⟩
        exact allowed addresses address (lookupZones_eq_some.mp ⟨zone, found⟩) tried

/-! ## Queries -/

/-- The request asks the zone's own name servers for that name. -/
def AsksZone (services : Services) (name rtype resolver cleaned : Text) : Prop :=
  ∃ kind, validate services name rtype resolver = .ok (cleaned, kind, "authoritative".toList)

private theorem guard_eq_ok {Value : Type*} {refused : Prop} [Decidable refused]
    {failure : Failure} {rest : Except Failure Value} {value : Value} :
    (if refused then .error failure else rest) = .ok value ↔ ¬refused ∧ rest = .ok value := by
  by_cases refuses : refused
  · simp [refuses]
  · simp [refuses]

theorem validate_eq_ok {name rtype resolver cleaned kind key : Text}
    (valid : validate services name rtype resolver = .ok (cleaned, kind, key)) :
    resolvers.lookup key ≠ none ∧
      key = lower (strip (if resolver = [] then "system".toList else resolver)) := by
  simp only [validate, guard_eq_ok, Except.ok.injEq, Prod.mk.injEq] at valid
  obtain ⟨-, -, -, known, -, -, rfl⟩ := valid
  exact ⟨fun missing => known (Option.isNone_iff_eq_none.mpr missing), rfl⟩

/-- A configured label is its own clean form, and none of the fixed resolvers. -/
theorem label_of_customLine {raw key : Text} {addresses : List IpAddress}
    (configured : customLine services raw = some (key, addresses)) :
    key ≠ [] ∧ lower (strip key) = key ∧ resolvers.lookup key = none := by
  unfold customLine at configured
  dsimp only at configured
  obtain ⟨-, configured⟩ := Option.ite_none_left_eq_some.mp configured
  obtain ⟨⟨named, -, unknown⟩, same⟩ := Option.ite_none_right_eq_some.mp configured
  obtain ⟨rfl, -⟩ := Prod.mk.inj (Option.some.inj same)
  refine ⟨named, ?_, Option.isNone_iff_eq_none.mp unknown⟩
  rw [strip_of_isStripped (isStripped_lower (isStripped_strip _)), lower_lower]

theorem mem_of_lookup {Value : Type*} {table : List (Text × Value)} {key : Text} {value : Value}
    (found : table.lookup key = some value) : (key, value) ∈ table := by
  obtain ⟨before, after, rfl, -⟩ := List.lookup_eq_some_iff.mp found
  simp

theorem configured_of_lookup {key : Text} {addresses : List IpAddress}
    (found : (parseCustomResolvers services lines).lookup key = some addresses) :
    ∃ line ∈ lines, customLine services line = some (key, addresses) :=
  List.mem_filterMap.mp (List.mem_reverse.mp (mem_of_lookup found))

theorem lookup_eq_authoritative {key : Text} :
    resolvers.lookup key = some .authoritative ↔ key = "authoritative".toList := by
  constructor
  · intro found
    simpa [resolvers] using mem_of_lookup found
  · rintro rfl
    rfl


/-- Every resolver there is one some line of the settings configures. -/
def FromLines (services : Services) (lines : List Text) (custom : Custom) : Prop :=
  ∀ key addresses, custom.lookup key = some addresses →
    ∃ line ∈ lines, customLine services line = some (key, addresses)

private theorem fromLines_nil : FromLines services lines [] := by
  intro key addresses found
  cases found

theorem allowed_queryAddresses {name rtype resolver : Text} {addresses : List IpAddress}
    {wantAd : Bool} (allowed : ∀ address ∈ addresses, Allowed services lines (.address address)) :
    ∀ destination ∈ (queryAddresses world name rtype resolver addresses wantAd).sent,
      Allowed services lines destination := by
  intro destination member
  obtain ⟨address, rfl, tried⟩ := mem_sent_queryAddresses.mp member
  exact allowed address (mem_of_tried tried)

theorem allowed_custom {custom : Custom} (settled : FromLines services lines custom) {key : Text}
    {addresses : List IpAddress} (found : custom.lookup key = some addresses) :
    ∀ address ∈ addresses, Allowed services lines (.address address) := by
  obtain ⟨line, isLine, configured⟩ := settled key addresses found
  intro address member
  exact .inr (.inr (.inl ⟨line, isLine, _, configured, member⟩))

/-- A query stays with allowed servers exactly when it does not ask the zone's own, or these are. -/
theorem allowed_query {custom : Custom} (settled : FromLines services lines custom)
    {name rtype resolver : Text} :
    (∀ destination ∈ (query services world name rtype resolver custom).sent,
      Allowed services lines destination) ↔
      ∀ cleaned, AsksZone services name rtype resolver cleaned →
        ZoneAllowed services lines world cleaned := by
  unfold query
  dsimp only
  cases found : (if resolver = [] then none else custom.lookup (lower (strip resolver))) with
  | some addresses =>
      obtain ⟨named, found⟩ := Option.ite_none_left_eq_some.mp found
      obtain ⟨line, -, configured⟩ := settled _ _ found
      refine iff_of_true ?_ ?_
      · cases validate services name rtype "system".toList with
        | error failure => exact fun destination member => nomatch member
        | ok cleaned => exact allowed_queryAddresses (allowed_custom settled found)
      · rintro cleaned ⟨kind, valid⟩
        obtain ⟨known, isKey⟩ := validate_eq_ok valid
        rw [if_neg named] at isKey
        rw [isKey, (label_of_customLine configured).2.2] at known
        exact absurd rfl known
  | none =>
      cases valid : validate services name rtype resolver with
      | error failure =>
          refine iff_of_true (fun destination member => nomatch member) ?_
          rintro cleaned ⟨kind, asks⟩
          rw [valid] at asks
          cases asks
      | ok request =>
          obtain ⟨cleaned, kind, key⟩ := request
          have asksZone : ∀ other, AsksZone services name rtype resolver other ↔
              cleaned = other ∧ key = "authoritative".toList := by
            intro other
            simp [AsksZone, valid]
          simp only [asksZone]
          cases chosen : resolvers.lookup key with
          | none => exact absurd chosen (validate_eq_ok valid).1
          | some resolver =>
              cases resolver with
              | authoritative =>
                  rw [lookup_eq_authoritative.mp chosen]
                  simpa using allowed_queryAuthoritative
              | addresses table =>
                  have other : key ≠ "authoritative".toList := by
                    intro same
                    rw [lookup_eq_authoritative.mpr same] at chosen
                    cases chosen
                  refine iff_of_true (allowed_queryAddresses fun address member => ?_)
                    fun cleaned asks => absurd asks.2 other
                  exact .inr (.inl (List.mem_flatMap.mpr ⟨_, mem_of_lookup chosen, member⟩))
              | system =>
                  have other : key ≠ "authoritative".toList := by
                    intro same
                    rw [lookup_eq_authoritative.mpr same] at chosen
                    cases chosen
                  exact iff_of_true (allowed_queryAddresses fun address member => .inl member)
                    fun cleaned asks => absurd asks.2 other

theorem allowed_askResolver {custom : Custom} (settled : FromLines services lines custom)
    {name rtype key : Text} :
    (∀ destination ∈ (askResolver services world name rtype custom key).sent,
      Allowed services lines destination) ↔
      ∀ cleaned, AsksZone services name rtype key cleaned →
        ZoneAllowed services lines world cleaned := by
  have silent : ∀ asked : Except Failure Answer,
      (match asked with
        | .ok answer => Sending.done answer
        | .error failure => Sending.done (failedAnswer name rtype key failure)).sent = [] := by
    intro asked
    cases asked <;> rfl
  simp only [askResolver, Sending.sent_andThen, silent, List.append_nil]
  cases found : custom.lookup key with
  | none => exact allowed_query fromLines_nil
  | some addresses =>
      obtain ⟨line, -, configured⟩ := settled _ _ found
      obtain ⟨named, clean, unknown⟩ := label_of_customLine configured
      refine iff_of_true (allowed_queryAddresses (allowed_custom settled found)) ?_
      rintro cleaned ⟨kind, valid⟩
      obtain ⟨known, isKey⟩ := validate_eq_ok valid
      rw [if_neg named, clean] at isKey
      rw [isKey] at known
      exact absurd unknown known

/-- The resolvers of a propagation are all known ones. -/
def AllKnown (custom : Custom) (keys : List Text) : Prop :=
  ∀ key ∈ keys, (custom.lookup key).isSome ∨ (resolvers.lookup key).isSome

private theorem allKnown_iff {custom : Custom} {keys : List Text} :
    AllKnown custom keys ↔
      (keys.filter fun key =>
        (custom.lookup key).isNone && (resolvers.lookup key).isNone) = [] := by
  rw [List.filter_eq_nil_iff]
  refine forall₂_congr fun key _ => ?_
  cases custom.lookup key <;> cases resolvers.lookup key <;> simp

/-- A propagation stays with allowed servers exactly when those it asks of the zone are. -/
theorem allowed_propagation {custom : Custom} (settled : FromLines services lines custom)
    {worlds : Nat → World} {name rtype : Text} {chosen : Option (List Text)} :
    (∀ destination ∈ (propagation services worlds name rtype chosen custom).sent,
      Allowed services lines destination) ↔
      ∀ cleaned kind system,
        validate services name rtype "system".toList = .ok (cleaned, kind, system) →
        AllKnown custom (chosen.getD propagationDefault) →
        ∀ position key, (chosen.getD propagationDefault)[position]? = some key →
          ∀ again, AsksZone services cleaned kind key again →
            ZoneAllowed services lines (worlds position) again := by
  unfold propagation
  generalize chosen.getD propagationDefault = keys
  cases valid : validate services name rtype "system".toList with
  | error failure =>
      refine iff_of_true (fun destination member => nomatch member) ?_
      rintro cleaned kind system ⟨⟩
  | ok request =>
      obtain ⟨cleaned, kind, system⟩ := request
      have same : ∀ cleaned' kind' system',
          (Except.ok (cleaned, kind, system) : Except Failure _) = .ok (cleaned', kind', system') ↔
            cleaned = cleaned' ∧ kind = kind' ∧ system = system' := by simp
      simp only [same]
      by_cases known : AllKnown custom keys
      · rw [if_neg (not_not.mpr (allKnown_iff.mp known))]
        by_cases empty : keys = []
        · subst empty
          exact iff_of_true (fun destination member => nomatch member) (by simp)
        · rw [if_neg empty]
          simp only [List.mem_flatMap, List.mem_map, Prod.exists, List.mk_mem_zipIdx_iff_getElem?]
          constructor
          · rintro allowed _ _ _ ⟨rfl, rfl, rfl⟩ - position key isKey
            refine (allowed_askResolver settled).mp fun destination member => ?_
            exact allowed destination ⟨_, ⟨key, position, isKey, rfl⟩, member⟩
          · rintro allowed destination ⟨_, ⟨key, position, isKey, rfl⟩, member⟩
            exact (allowed_askResolver settled).mpr
              (allowed _ _ _ ⟨rfl, rfl, rfl⟩ known position key isKey) destination member
      · rw [if_pos (fun none => known (allKnown_iff.mpr none))]
        exact iff_of_true (fun destination member => nomatch member)
          fun _ _ _ _ isKnown => absurd isKnown known

/-- The lookup tool sends to allowed servers only, exactly when every lookup at a zone's own name
servers comes to allowed ones. -/
theorem sent_allowed_iff (services : Services) (lines : List Text) (world : World)
    (worlds : Nat → World) (name rtype resolver : Text) (chosen : Option (List Text)) :
    ((∀ destination ∈
        (query services world name rtype resolver (parseCustomResolvers services lines)).sent,
        Allowed services lines destination) ↔
      ∀ cleaned, AsksZone services name rtype resolver cleaned →
        ZoneAllowed services lines world cleaned) ∧
    ((∀ destination ∈
        (propagation services worlds name rtype chosen (parseCustomResolvers services lines)).sent,
        Allowed services lines destination) ↔
      ∀ cleaned kind system,
        validate services name rtype "system".toList = .ok (cleaned, kind, system) →
        AllKnown (parseCustomResolvers services lines) (chosen.getD propagationDefault) →
        ∀ position key, (chosen.getD propagationDefault)[position]? = some key →
          ∀ again, AsksZone services cleaned kind key again →
            ZoneAllowed services lines (worlds position) again) :=
  ⟨allowed_query fun _ _ => configured_of_lookup,
    allowed_propagation fun _ _ => configured_of_lookup⟩

/-! ## A name server inside the network -/

def sampleServices : Services where
  validName name := name == "intruder.example".toList
  ipAddress _ := none
  repr text := ['\''] ++ text ++ ['\'']
  systemServers := [.quad 127 0 0 53]

/-- A domain whose owner gives its name server a private address. -/
def sampleWorld : World where
  nameServers zone :=
    if zone = "intruder.example".toList then some ["ns.intruder.example.".toList] else none
  addresses host family :=
    match family with
    | .a => if host = "ns.intruder.example".toList then some [.quad 10 0 0 5] else none
    | .aaaa => none
  reply _ := .failed "The DNS operation timed out.".toList

/-- Who owns a domain decides where a lookup at its own name servers is sent. -/
theorem private_server_asked :
    ¬ ∀ (services : Services) (lines : List Text) (world : World) (name rtype resolver : Text),
      ∀ destination ∈
          (query services world name rtype resolver (parseCustomResolvers services lines)).sent,
        Allowed services lines destination := by
  intro claim
  have sent : .address (.quad 10 0 0 5) ∈
      (query sampleServices sampleWorld "intruder.example".toList "A".toList
        "authoritative".toList (parseCustomResolvers sampleServices [])).sent := by
    decide +kernel
  rcases claim _ _ _ _ _ _ _ sent with system | fixed | configured | isPublic
  · revert system
    decide
  · revert fixed
    decide
  · obtain ⟨line, isLine, -⟩ := configured
    cases isLine
  · revert isPublic
    decide

end DnsTools
end DomainLens
