import DomainLens.Library.Logged
import DomainLens.Python.IpAddress
import DomainLens.Python.Text

/-!
# Following redirects

The follower of redirects looks the host of every hop up before it sends a request there.  The guard
sees one of the host's addresses; the file says for which names and answers every request stays on
the public internet.
-/

namespace DomainLens
namespace SafeRedirects

open Python

/-! ## The guard -/

/-- `_PRIVATE_NETS`. -/
def privateNets4 : List (Network 32) :=
  [(0x0A000000, 8), (0xAC100000, 12), (0xC0A80000, 16), (0x7F000000, 8), (0xA9FE0000, 16)]

def privateNets6 : List (Network 128) :=
  [(0x00000000000000000000000000000001, 128), (0xFC000000000000000000000000000000, 7),
    (0xFE800000000000000000000000000000, 10)]

/-- `_is_private_ip`, of an address that can be read. -/
def isPrivateIp : IpAddress → Bool
  | .v4 value => inAnyNetwork privateNets4 value
  | .v6 value => inAnyNetwork privateNets6 value

/-- A request, to the host `requests` reads in its URL. -/
structure Request where
  url : Text
  host : Text
deriving DecidableEq

/-- What a response says, as far as the follower reads it. -/
structure Response where
  status : Nat
  location : Option Text
deriving DecidableEq

/-- The names and the sites, and the URLs as `urllib` and `requests` read them.  A host is empty where
a URL has none; reading a URL is nothing where it raises, and an error is the name of a class. -/
structure World where
  a : Text → List (BitVec 32)
  aaaa : Text → List (BitVec 128)
  lookupFails : Text → Bool
  hostname : Text → Option Text
  urljoin : Text → Text → Option Text
  connects : Text → Except Text Text
  answer : List Request → Request → Except Text Response

namespace World

variable (world : World)

def addresses (host : Text) : List IpAddress :=
  (world.a host).map .v4 ++ (world.aaaa host).map .v6

/-- `_resolve(host, "A")`: a lookup that fails gives nothing. -/
def resolveA (host : Text) : List IpAddress :=
  if world.lookupFails host then [] else (world.a host).map .v4

/-- `_safe_host`. -/
def safeHost (host : Text) : Bool :=
  match world.resolveA host with
  | [] => false
  | first :: _ => !isPrivateIp first

/-! ## The follower -/

/-- `_get`, without redirects. -/
def get (url : Text) : Logged Request (Except Text Response) := fun log =>
  match world.connects url with
  | .error name => (.error name, [])
  | .ok host => (world.answer log ⟨url, host⟩, [⟨url, host⟩])

end World

/-- What the follower comes to: a response with its URL and the hops before it, a reason, or an
exception. -/
inductive Outcome where
  | response (response : Response) (finalUrl : Text) (hops : List Text)
  | refused (reason : Text)
  | raised
deriving DecidableEq

def redirects : List Nat := [301, 302, 303, 307, 308]

/-- The location a response redirects to. -/
def Response.target (response : Response) : Option Text :=
  if response.status ∈ redirects then response.location.filter fun location => location ≠ []
  else none

def notPublic (url : Text) : Text := url ++ " does not resolve to a public address".toList

def redirectLoop : Text := "redirect loop".toList

def tooMany (maxHops : Nat) : Text := "more than ".toList ++ strOf maxHops ++ " redirects".toList

/-- The loop of `_get_following_safe_redirects`. -/
def follow (world : World) (maxHops : Nat) : Nat → List Text → Text → Logged Request Outcome
  | 0, _, _ => pure (.refused (tooMany maxHops))
  | rounds + 1, seen, current =>
      match world.hostname current with
      | none => pure .raised
      | some host =>
          if host = [] ∨ world.safeHost host = false then
            pure (.refused (notPublic current))
          else do
            match ← world.get current with
            | .error name => return .refused name
            | .ok response =>
                match response.target with
                | none => return .response response current seen
                | some location =>
                    match world.urljoin current location with
                    | none => return .raised
                    | some following =>
                        if following ∈ seen ++ [current] then return .refused redirectLoop
                        else follow world maxHops rounds (seen ++ [current]) following

/-- `_get_following_safe_redirects`, with the requests it sends. -/
def getFollowingSafeRedirects (world : World) (url : Text) (maxHops : Nat) :
    Outcome × List Request :=
  follow world maxHops (maxHops + 1) [] url []

/-! ## Staying on the public internet -/

/-- A host none of whose addresses is private, loopback, link-local or otherwise non-global. -/
def World.Public (world : World) (host : Text) : Prop :=
  ∀ address ∈ world.addresses host, address.isGlobal = true

structure StaysPublic (world : World) (url : Text) (maxHops : Nat) : Prop where
  hosts : ∀ request ∈ (getFollowingSafeRedirects world url maxHops).2, world.Public request.host
  few : (getFollowingSafeRedirects world url maxHops).2.length ≤ maxHops + 1
  returns : (getFollowingSafeRedirects world url maxHops).1 ≠ .raised

/-! ## The hops -/

/-- A hop: the requests before it, the URLs seen and the URL. -/
structure Hop where
  sent : List Request
  seen : List Text
  current : Text

namespace Hop

variable (world : World) (hop : Hop)

/-- Whether the guard lets a request be made. -/
def passes : Bool := (world.hostname hop.current).any fun host => host ≠ [] ∧ world.safeHost host

/-- The host a request of the hop goes to. -/
def target : Option Text := if hop.passes world then (world.connects hop.current).toOption else none

/-- Where the site redirects the request to. -/
def location : Option Text :=
  (hop.target world).bind fun host =>
    (world.answer hop.sent ⟨hop.current, host⟩).toOption.bind Response.target

/-- The hop that is led to, if it is a new one. -/
def next : Option Hop :=
  (hop.target world).bind fun host =>
    ((hop.location world).bind (world.urljoin hop.current)).bind fun following =>
      if following ∈ hop.seen ++ [hop.current] then none
      else some ⟨hop.sent ++ [⟨hop.current, host⟩], hop.seen ++ [hop.current], following⟩

/-- A hop that keeps to the public internet: its URL and where it leads can be read, and a host the
guard lets pass has no address out of the guard's sight that is not global.  Where `requests` reads
another host in the URL, all addresses of that one are global. -/
structure Clear : Prop where
  read : world.hostname hop.current ≠ none
  joined : ∀ location ∈ hop.location world, world.urljoin hop.current location ≠ none
  listed : ∀ host ∈ world.hostname hop.current, hop.target world = some host →
    ∀ first others, world.a host = first :: others →
      (inAnyNetwork privateNets4 first = false → (IpAddress.v4 first).isGlobal = true) ∧
      (∀ address ∈ others, (IpAddress.v4 address).isGlobal = true) ∧
      ∀ address ∈ world.aaaa host, (IpAddress.v6 address).isGlobal = true
  same : ∀ host ∈ hop.target world, world.hostname hop.current ≠ some host → world.Public host

end Hop

/-- The hops that are led to from one, that one first. -/
def chain (world : World) : Nat → Hop → List Hop
  | 0, _ => []
  | rounds + 1, hop => hop :: ((hop.next world).map (chain world rounds)).getD []

/-! ## One hop -/

variable {world : World}

private theorem passes_of_target {hop : Hop} {host : Text} (found : hop.target world = some host) :
    hop.passes world = true ∧ world.connects hop.current = .ok host := by
  unfold Hop.target at found
  split at found
  · rename_i passes
    refine ⟨passes, ?_⟩
    cases connected : world.connects hop.current with
    | error name => rw [connected] at found; cases found
    | ok other => rw [connected] at found; exact congrArg _ (Option.some.inj found)
  · cases found

private theorem safeHost_eq_true {host : Text} (safe : world.safeHost host = true) :
    ∃ first others, world.a host = first :: others ∧ inAnyNetwork privateNets4 first = false := by
  cases fails : world.lookupFails host with
  | true => simp [World.safeHost, World.resolveA, fails] at safe
  | false =>
      cases held : world.a host with
      | nil => simp [World.safeHost, World.resolveA, fails, held] at safe
      | cons first others =>
          refine ⟨first, others, rfl, ?_⟩
          simpa [World.safeHost, World.resolveA, fails, held, isPrivateIp] using safe

private theorem public_iff {host : Text} {first : BitVec 32} {others : List (BitVec 32)}
    (held : world.a host = first :: others) :
    world.Public host ↔ (IpAddress.v4 first).isGlobal = true ∧
      (∀ address ∈ others, (IpAddress.v4 address).isGlobal = true) ∧
      ∀ address ∈ world.aaaa host, (IpAddress.v6 address).isGlobal = true := by
  simp only [World.Public, World.addresses, held, List.forall_mem_append, List.forall_mem_map,
    List.forall_mem_cons, and_assoc]

/-- A hop is clear exactly if it can be read and what it sends goes to a public host. -/
theorem Hop.clear_iff {hop : Hop} : hop.Clear world ↔
    world.hostname hop.current ≠ none ∧
      (∀ location ∈ hop.location world, world.urljoin hop.current location ≠ none) ∧
      ∀ host ∈ hop.target world, world.Public host := by
  constructor
  · intro clear
    refine ⟨clear.read, clear.joined, fun host found => ?_⟩
    by_cases named : world.hostname hop.current = some host
    · have passes := (passes_of_target found).1
      simp only [Hop.passes, named, Option.any_some, decide_eq_true_eq] at passes
      obtain ⟨first, others, held, outside⟩ := safeHost_eq_true passes.2
      obtain ⟨seen, unseen⟩ := clear.listed host named found first others held
      exact (public_iff held).mpr ⟨seen outside, unseen⟩
    · exact clear.same host found named
  · rintro ⟨read, joined, hosts⟩
    exact
      { read
        joined
        listed := fun host _ found first others held =>
          have known := (public_iff held).mp (hosts host found)
          ⟨fun _ => known.1, known.2⟩
        same := fun host found _ => hosts host found }

def Hop.requests (world : World) (hop : Hop) : List Request :=
  ((hop.target world).map (Request.mk hop.current)).toList

private theorem follow_succ (maxHops rounds : Nat) (hop : Hop) :
    (follow world maxHops (rounds + 1) hop.seen hop.current hop.sent).2 =
        hop.requests world ++ ((hop.next world).map fun next =>
          (follow world maxHops rounds next.seen next.current next.sent).2).getD [] ∧
      ((follow world maxHops (rounds + 1) hop.seen hop.current hop.sent).1 = .raised ↔
        world.hostname hop.current = none ∨
          (∃ location ∈ hop.location world, world.urljoin hop.current location = none) ∨
          ∃ next ∈ hop.next world,
            (follow world maxHops rounds next.seen next.current next.sent).1 = .raised) := by
  cases named : world.hostname hop.current with
  | none => simp [follow, named, Hop.requests, Hop.next, Hop.location, Hop.target, Hop.passes,
      Logged.pure_apply]
  | some host =>
      by_cases blocked : host = [] ∨ world.safeHost host = false
      · have stays : hop.passes world = false := by
          simp only [Hop.passes, named, Option.any_some, decide_eq_false_iff_not]
          rintro ⟨nonempty, safe⟩
          rcases blocked with empty | unsafe_
          · exact nonempty empty
          · exact Bool.false_ne_true (unsafe_.symm.trans safe)
        simp [follow, named, blocked, Hop.requests, Hop.next, Hop.location, Hop.target, stays,
          Logged.pure_apply]
      · have passes : hop.passes world = true := by
          simpa [Hop.passes, named] using blocked
        cases connected : world.connects hop.current with
        | error name =>
            simp [follow, named, blocked, Hop.requests, Hop.next, Hop.location, Hop.target, passes,
              connected, World.get, Logged.pure_apply, Logged.bind_apply, Except.toOption]
        | ok other =>
            cases answered : world.answer hop.sent ⟨hop.current, other⟩ with
            | error name =>
                simp [follow, named, blocked, Hop.requests, Hop.next, Hop.location, Hop.target,
                  passes, connected, answered, World.get, Logged.pure_apply, Logged.bind_apply,
                  Except.toOption]
            | ok response =>
                cases led : response.target with
                | none =>
                    simp [follow, named, blocked, Hop.requests, Hop.next, Hop.location, Hop.target,
                      passes, connected, answered, led, World.get, Logged.pure_apply,
                      Logged.bind_apply, Except.toOption]
                | some location =>
                    cases joined : world.urljoin hop.current location with
                    | none =>
                        simp [follow, named, blocked, Hop.requests, Hop.next, Hop.location,
                          Hop.target, passes, connected, answered, led, joined, World.get,
                          Logged.pure_apply, Logged.bind_apply, Except.toOption]
                    | some following =>
                        by_cases old : following ∈ hop.seen ∨ following = hop.current
                        · simp [follow, named, blocked, Hop.requests, Hop.next, Hop.location,
                            Hop.target, passes, connected, answered, led, joined, old, World.get,
                            Logged.pure_apply, Logged.bind_apply, Except.toOption]
                        · simp [follow, named, blocked, Hop.requests, Hop.next, Hop.location,
                            Hop.target, passes, connected, answered, led, joined, old, World.get,
                            Logged.bind_apply, Except.toOption]

/-! ## All hops -/

private theorem mem_requests {hop : Hop} {request : Request} :
    request ∈ hop.requests world ↔ ∃ host ∈ hop.target world, request = ⟨hop.current, host⟩ := by
  simp [Hop.requests, Option.mem_toList, eq_comm]

private theorem length_requests_le (hop : Hop) : (hop.requests world).length ≤ 1 := by
  unfold Hop.requests
  cases hop.target world <;> simp

private theorem length_follow_le (maxHops rounds : Nat) (hop : Hop) :
    (follow world maxHops rounds hop.seen hop.current hop.sent).2.length ≤ rounds := by
  induction rounds generalizing hop with
  | zero => exact Nat.le_refl 0
  | succ rounds induction =>
      have one := @length_requests_le world hop
      rw [(follow_succ maxHops rounds hop).1, List.length_append]
      cases hop.next world with
      | none =>
          simp only [Option.map_none, Option.getD_none, List.length_nil]
          omega
      | some next =>
          have others := induction next
          simp only [Option.map_some, Option.getD_some]
          omega

private theorem follow_public_iff (maxHops rounds : Nat) (hop : Hop) :
    (∀ request ∈ (follow world maxHops rounds hop.seen hop.current hop.sent).2,
        world.Public request.host) ∧
      (follow world maxHops rounds hop.seen hop.current hop.sent).1 ≠ .raised ↔
    ∀ later ∈ chain world rounds hop, later.Clear world := by
  induction rounds generalizing hop with
  | zero => simp [follow, chain, Logged.pure_apply]
  | succ rounds induction =>
      obtain ⟨requests, raised⟩ := @follow_succ world maxHops rounds hop
      have here : (∀ request ∈ hop.requests world, world.Public request.host) ↔
          ∀ host ∈ hop.target world, world.Public host := by
        constructor
        · intro all host found
          exact all ⟨hop.current, host⟩ (mem_requests.mpr ⟨host, found, rfl⟩)
        · intro all request member
          obtain ⟨host, found, rfl⟩ := mem_requests.mp member
          exact all host found
      rw [requests, Ne, raised, chain, List.forall_mem_cons, Hop.clear_iff, List.forall_mem_append,
        here]
      cases hop.next world with
      | none => simp; grind
      | some next =>
          have others := induction next
          simp only [Option.map_some, Option.getD_some, Option.mem_def, Option.some.injEq,
            exists_eq_left']
          grind

/-- The follower stays on the public internet exactly if every hop it is led to keeps to it. -/
theorem staysPublic_iff (world : World) (url : Text) (maxHops : Nat) :
    StaysPublic world url maxHops ↔
      ∀ hop ∈ chain world (maxHops + 1) ⟨[], [], url⟩, hop.Clear world := by
  rw [← follow_public_iff maxHops (maxHops + 1) ⟨[], [], url⟩]
  constructor
  · exact fun stays => ⟨stays.hosts, stays.returns⟩
  · exact fun ⟨hosts, returns⟩ =>
      { hosts, few := length_follow_le maxHops (maxHops + 1) ⟨[], [], url⟩, returns }

/-! ## A host with two addresses -/

/-- A site whose second address is a private one. -/
def twoAddresses : World where
  a _ := [0x5DB8D822, 0x0A000001]
  aaaa _ := []
  lookupFails _ := false
  hostname _ := some "a.nl".toList
  urljoin _ location := some location
  connects _ := .ok "a.nl".toList
  answer _ _ := .ok ⟨200, none⟩

/-- The guard sees the first one, and the request may go to the second. -/
theorem twoAddresses_not_public : ¬ StaysPublic twoAddresses "http://a.nl/".toList 5 := by
  intro stays
  have sent : (getFollowingSafeRedirects twoAddresses "http://a.nl/".toList 5).2 =
      [⟨"http://a.nl/".toList, "a.nl".toList⟩] := by
    decide +kernel
  have known := stays.hosts _ (sent ▸ List.mem_cons_self) (.v4 0x0A000001) (by decide +kernel)
  exact absurd known (by decide)

end SafeRedirects
end DomainLens
