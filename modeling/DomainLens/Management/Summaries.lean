import DomainLens.Library.OrderedDict
import DomainLens.Library.Run
import DomainLens.Python.Json
import DomainLens.RiskAcceptance

/-!
# Summaries of scans

The pages for management read a summary of each scan: its rating, its findings and how its controls
stand.  The summaries are kept in a cache.  The file says what the cache holds and answers over every
run of summaries and changes of the accepted risks.
-/

namespace DomainLens
namespace Management

open Python Run

/-! ## Ratings -/

/-- `SEVERITIES`. -/
def severities : List Text := ["critical", "high", "medium", "low"].map String.toList

inductive Rating where
  | aPlus
  | a
  | aMinus
  | b
  | c
  | d
  | f
deriving DecidableEq

/-- `rating`, of the number of open findings of each severity. -/
def rating (counts : Text → Nat) : Rating :=
  if counts "critical".toList ≠ 0 then .f
  else if 3 ≤ counts "high".toList then .d
  else if counts "high".toList ≠ 0 then .c
  else if 3 ≤ counts "medium".toList then .b
  else if counts "medium".toList ≠ 0 then .aMinus
  else if counts "low".toList ≠ 0 then .a
  else .aPlus

/-! ## Controls -/

inductive State where
  | pass
  | fail
  | unmeasured
  | notApplicable
deriving DecidableEq

def State.ofBool (passes : Bool) : State := if passes then .pass else .fail

/-- A text is one of a list; a value that is no text is none. -/
def isOneOf (values : List String) (value : Json) : Bool :=
  value.text?.any fun text => text ∈ values.map String.toList

/-- The state of a block: a block that does not say is measured. -/
def isMeasured (block : Json) : Bool :=
  block.isObject && block.truthy &&
    (!hasKey block.entries "state" || isOneOf ["measured"] (getItem block.entries "state"))

/-- `_dmarc`; `none` is an exception. -/
def dmarc (data : Entries) : Option State :=
  let block := getItem data "dmarc"
  if !isMeasured block then some .unmeasured
  else if !(getItem block.entries "found").truthy then some .fail
  else
    (((getItem block.entries "policy").or (.str [])).text?).map fun policy =>
      .ofBool (lower policy ∈ ["quarantine".toList, "reject".toList])

/-- `_spf`. -/
def spf (data : Entries) : Option State :=
  let block := getItem data "spf"
  if !isMeasured block then some .unmeasured
  else some (.ofBool ((getItem block.entries "found").truthy && (getItem block.entries "strict").truthy))

/-- `_dnssec`. -/
def dnssec (data : Entries) : Option State :=
  let block := getItem data "dnssec"
  if !isMeasured block then some .unmeasured
  else some (.ofBool (getItem block.entries "signed").truthy)

/-- A value that may be missing, of which the source asks a key; anything but an object raises. -/
def blockOf (value : Json) : Option Entries :=
  if value.truthy then if value.isObject then some value.entries else none else some []

/-- `_tls`. -/
def tls (data : Entries) : Option State :=
  (blockOf (getItem data "tls_deep")).map fun block =>
    let grade := getItem block "grade"
    if !(getItem block "success").truthy || !grade.truthy then .unmeasured
    else .ofBool (isOneOf ["A+", "A", "B"] grade)

/-- `_hsts`. -/
def hsts (data : Entries) : Option State :=
  (blockOf (getItem data "tls_deep")).bind fun block =>
    if !(getItem block "success").truthy then some .unmeasured
    else
      (blockOf (getItem block "hsts")).map fun hsts =>
        match getItem hsts "enabled" with
        | .null => .unmeasured
        | enabled => .ofBool enabled.truthy

/-- `_https`. -/
def https (data : Entries) : Option State :=
  let block := getItem data "https_redirect"
  if !block.isObject || (getItem block.entries "blocked").truthy then some .unmeasured
  else
    match getItem block.entries "pass" with
    | .null => some .unmeasured
    | passes => some (.ofBool passes.truthy)

/-- `CONTROLS`; what the blocklists say of a scan is given. -/
def controls (reputation : Entries → Option State) : List (Text × (Entries → Option State)) :=
  [("dmarc".toList, dmarc), ("spf".toList, spf), ("dnssec".toList, dnssec), ("tls".toList, tls),
    ("hsts".toList, hsts), ("https".toList, https), ("reputation".toList, reputation)]

/-! ## Findings -/

/-- A finding of a scan.  A category or a title that is missing is empty. -/
structure Finding where
  severity : Text
  category : Text
  title : Text
  key : Text
  accepted : Bool
deriving DecidableEq

/-- A name of a scan, in lower case; a value that is no text raises. -/
def nameOf (value : Json) : Option Text :=
  if value.truthy then value.text?.map fun text => lower (strip text) else some []

/-- `_active_for` one domain: the acceptances cover a finding. -/
def covers (active : List RiskAcceptance.Acceptance) (domain key : Text) : Bool :=
  domain ≠ [] && active.any fun row => row.domain = domain && row.findingKey = key

/-- `_apex_level`: the finding is about the zone rather than the scanned host. -/
def apexLevel (finding : Finding) : Bool :=
  lower finding.category ∈ ["email".toList, "dns".toList, "whois".toList] ||
    "email:".toList.isPrefixOf finding.key

/-- `apply`: mark the findings that are accepted, on the host itself or on the domain above it. -/
def applyAccepted (active : List RiskAcceptance.Acceptance) (data : Entries)
    (findings : List Finding) : Option (List Finding) :=
  (nameOf (getItem data "domain")).bind fun domain =>
    (nameOf (getItem data "apex_domain")).map fun apex =>
      findings.map fun finding =>
        { finding with
          accepted := covers active domain finding.key ||
            (apexLevel finding && apex ≠ domain && covers active apex finding.key) }

/-- What the advice of a scan is made from, besides the scan and the accepted risks: what the checks
find in a scan, what is said of one that was not delegated, and what the blocklists say. -/
structure Advice where
  Moment : Type
  found : Moment → Entries → List Finding
  notInDns : Entries → Option (List Finding)
  reputation : Entries → Option State

variable (advice : Advice)

/-- `generate`: acceptances that cannot be read leave every finding open. -/
def generate (active : List RiskAcceptance.Acceptance) (moment : advice.Moment) (data : Entries) :
    Option (List Finding) :=
  if (getItem data "not_delegated").truthy then advice.notInDns data
  else
    let found := advice.found moment data
    some ((applyAccepted active data found).getD found)

/-! ## Summaries -/

/-- A finding as a summary lists it. -/
structure Listed where
  severity : Text
  category : Text
  title : Text
deriving DecidableEq

structure Summary where
  counts : Text → Nat
  accepted : Nat
  rating : Rating
  controls : List (Text × State)
  findings : List Listed

/-- How the controls of a scan stand; a control that raises was not measured. -/
def controlStates (data : Entries) : List (Text × State) :=
  (controls advice.reputation).map fun control =>
    (control.1,
      if (getItem data "not_delegated").truthy then .notApplicable
      else (control.2 data).getD .unmeasured)

/-- The summary of a scan with these findings. -/
def summary (data : Entries) (findings : List Finding) : Summary :=
  let opened := findings.filter fun finding => !finding.accepted
  let counts severity := (opened.filter (·.severity = severity)).length
  { counts
    accepted := (findings.filter Finding.accepted).length
    rating := rating counts
    controls := controlStates advice data
    findings := (opened.filter (·.severity ∈ severities)).map fun finding =>
      { severity := finding.severity
        category := if finding.category = [] then "Other".toList else finding.category
        title := finding.title } }

/-- The summary made from a scan and the acceptances of a moment. -/
def recompute (active : List RiskAcceptance.Acceptance) (moment : advice.Moment) (data : Entries) :
    Option Summary :=
  (generate advice active moment data).map (summary advice data)

/-! ## The cache -/

structure ScanKey where
  id : Int
  createdAt : Text
deriving DecidableEq

/-- What an entry of the cache is kept under: the key of a scan, or the name of a control. -/
inductive CacheKey where
  | scan (key : ScanKey)
  | control (name : Text)
deriving DecidableEq

/-- An entry: the summary, and the scan it is of. -/
structure Cached where
  scan : ScanKey
  summary : Summary

abbrev Cache := List (CacheKey × Cached)

/-- `_CACHE_MAX`. -/
def cacheMax : Nat := 5000

/-- The variable `key` after the controls were gone through.  Where the scan was not delegated a
comprehension goes through them, whose variable is its own. -/
def keyAfter (key : ScanKey) (data : Entries) : CacheKey :=
  if (getItem data "not_delegated").truthy then .scan key
  else (controls advice.reputation).foldl (fun _ control => .control control.1) (.scan key)

/-- `summarize_scan`; `none` is an exception. -/
def summarizeScan (active : List RiskAcceptance.Acceptance) (moment : advice.Moment) (key : ScanKey)
    (data : Entries) (cache : Cache) : Option (Summary × Cache) :=
  match cache.lookup (.scan key) with
  | some cached => some (cached.summary, OrderedDict.moveToEnd (.scan key) cache)
  | none =>
      (recompute advice active moment data).map fun made =>
        (made, OrderedDict.shrink cacheMax
          (OrderedDict.assign (keyAfter advice key data) ⟨key, made⟩ cache))

/-! ## Runs -/

/-- The accepted risks that are active, everything else the advice depends on, and the cache. -/
structure World where
  active : List RiskAcceptance.Acceptance
  moment : advice.Moment
  cache : Cache

/-- A scan is summarised, or the accepted risks or the moment change. -/
inductive Event where
  | summarize (key : ScanKey)
  | change (active : List RiskAcceptance.Acceptance) (moment : advice.Moment)

variable (scans : ScanKey → Entries)

/-- What a call in a state gives, with the cache after it. -/
def call (world : World advice) (key : ScanKey) : Option (Summary × Cache) :=
  summarizeScan advice world.active world.moment key (scans key) world.cache

/-- A call that raises leaves the cache. -/
def step (world : World advice) : Event advice → Option (World advice)
  | .summarize key =>
      some { world with cache := ((call advice scans world key).map Prod.snd).getD world.cache }
  | .change active moment => some { world with active, moment }

/-- A call gives what is made from the scan and the acceptances of its moment. -/
def Transparent (world : World advice) : Event advice → Prop
  | .summarize key =>
      (call advice scans world key).map Prod.fst =
        recompute advice world.active world.moment (scans key)
  | .change _ _ => True

/-- Every entry is kept under the key of the scan it summarises. -/
def Keyed (cache : Cache) : Prop := ∀ entry ∈ cache, entry.1 = .scan entry.2.scan

/-- A call that makes a summary is of a scan that was not delegated. -/
def Undelegated (world : World advice) : Event advice → Prop
  | .summarize key =>
      world.cache.lookup (.scan key) = none →
        recompute advice world.active world.moment (scans key) ≠ none →
        (getItem (scans key) "not_delegated").truthy = true
  | .change _ _ => True

/-! ## What the cache holds -/

/-- What is kept under the key of a scan is its summary, at any moment. -/
def Sound (cache : Cache) : Prop :=
  ∀ entry ∈ cache, ∀ key, entry.1 = .scan key → entry.2.scan = key ∧
    ∀ active moment, recompute advice active moment (scans key) = some entry.2.summary

theorem call_cases (world : World advice) (key : ScanKey) :
    (∃ cached, world.cache.lookup (.scan key) = some cached ∧
      call advice scans world key =
        some (cached.summary, OrderedDict.moveToEnd (.scan key) world.cache)) ∨
    (world.cache.lookup (.scan key) = none ∧
      call advice scans world key =
        (recompute advice world.active world.moment (scans key)).map fun made =>
          (made, OrderedDict.shrink cacheMax
            (OrderedDict.assign (keyAfter advice key (scans key)) ⟨key, made⟩ world.cache))) := by
  unfold call summarizeScan
  cases world.cache.lookup (.scan key) with
  | some cached => exact .inl ⟨cached, rfl, rfl⟩
  | none => exact .inr ⟨rfl, rfl⟩

variable {advice scans}

theorem recompute_of_undelegated {data : Entries}
    (undelegated : (getItem data "not_delegated").truthy = true)
    (active other : List RiskAcceptance.Acceptance) (moment later : advice.Moment) :
    recompute advice active moment data = recompute advice other later data := by
  simp only [recompute, generate, if_pos undelegated]

theorem keyAfter_of_undelegated {key : ScanKey} {data : Entries}
    (undelegated : (getItem data "not_delegated").truthy = true) :
    keyAfter advice key data = .scan key := if_pos undelegated

theorem keyAfter_of_delegated {key : ScanKey} {data : Entries}
    (delegated : (getItem data "not_delegated").truthy ≠ true) (other : ScanKey) :
    keyAfter advice key data ≠ .scan other := by
  rw [keyAfter, if_neg delegated]
  exact fun named => nomatch named

theorem sound_call {world : World advice} {key : ScanKey} {made : Summary} {cache : Cache}
    (sound : Sound advice scans world.cache)
    (called : call advice scans world key = some (made, cache)) :
    Sound advice scans cache := by
  intro entry member
  rcases call_cases advice scans world key with ⟨cached, found, answer⟩ | ⟨missing, answer⟩
  · obtain ⟨rfl, rfl⟩ := Prod.mk.inj (Option.some.inj (answer.symm.trans called))
    exact sound entry (OrderedDict.mem_moveToEnd.mp member)
  · rw [answer, Option.map_eq_some_iff] at called
    obtain ⟨summary, isMade, equal⟩ := called
    obtain ⟨rfl, rfl⟩ := Prod.mk.inj equal
    rcases OrderedDict.mem_assign (OrderedDict.mem_of_mem_shrink member) with rfl | old
    · intro other named
      by_cases undelegated : (getItem (scans key) "not_delegated").truthy = true
      · rw [keyAfter_of_undelegated undelegated] at named
        obtain rfl := CacheKey.scan.inj named
        exact ⟨rfl, fun active moment =>
          (recompute_of_undelegated undelegated active world.active moment world.moment).trans isMade⟩
      · exact (keyAfter_of_delegated undelegated other named).elim
    · exact sound entry old

theorem transparent_of_sound {world : World advice} (event : Event advice)
    (sound : Sound advice scans world.cache) : Transparent advice scans world event := by
  cases event with
  | change active moment => trivial
  | summarize key =>
      simp only [Transparent]
      rcases call_cases advice scans world key with ⟨cached, found, answer⟩ | ⟨missing, answer⟩
      · rw [answer]
        exact ((sound _ (OrderedDict.mem_of_lookup found) key rfl).2 world.active world.moment).symm
      · rw [answer, Option.map_map]
        exact Option.map_id'

theorem sound_step {world next : World advice} {event : Event advice}
    (sound : Sound advice scans world.cache)
    (taken : step advice scans world event = some next) :
    Sound advice scans next.cache := by
  cases event with
  | change active moment =>
      obtain rfl := Option.some.inj taken
      exact sound
  | summarize key =>
      obtain rfl := Option.some.inj taken
      cases called : call advice scans world key with
      | none => exact sound
      | some answer => exact sound_call sound called

/-- The entries keep their keys exactly when no scan that was delegated is summarised anew. -/
theorem keyed_step_iff {world next : World advice} {event : Event advice} (keyed : Keyed world.cache)
    (taken : step advice scans world event = some next) :
    Keyed next.cache ↔ Undelegated advice scans world event := by
  cases event with
  | change active moment =>
      obtain rfl := Option.some.inj taken
      exact iff_of_true keyed trivial
  | summarize key =>
      obtain rfl := Option.some.inj taken
      simp only [Undelegated]
      rcases call_cases advice scans world key with ⟨cached, found, answer⟩ | ⟨missing, answer⟩
      · rw [answer]
        refine iff_of_true (fun entry member => ?_) fun missing => ?_
        · exact keyed entry (OrderedDict.mem_moveToEnd.mp member)
        · rw [found] at missing
          cases missing
      · rw [answer]
        cases made : recompute advice world.active world.moment (scans key) with
        | none => exact iff_of_true keyed fun _ absurd => (absurd rfl).elim
        | some summary =>
            constructor
            · intro kept _ _
              by_contra delegated
              have elsewhere := @keyAfter_of_delegated advice key _ delegated
              have fresh : ∀ entry ∈ world.cache, entry.1 ≠ keyAfter advice key (scans key) :=
                fun entry member named => elsewhere _ (named.symm.trans (keyed entry member))
              have stored := kept (keyAfter advice key (scans key), ⟨key, summary⟩) (by
                simp only [Option.map_some, Option.getD_some, OrderedDict.assign_of_fresh fresh]
                exact OrderedDict.mem_shrink_append (by decide))
              exact elsewhere key stored
            · intro undelegated entry member
              simp only [Option.map_some, Option.getD_some,
                keyAfter_of_undelegated (undelegated missing (by simp))] at member
              rcases OrderedDict.mem_assign (OrderedDict.mem_of_mem_shrink member) with rfl | old
              · rfl
              · exact keyed entry old

/-! ## The cache over runs -/

def World.start (active : List RiskAcceptance.Acceptance) (moment : advice.Moment) : World advice where
  active
  moment
  cache := []

theorem sound_start (active : List RiskAcceptance.Acceptance) (moment : advice.Moment) :
    Sound advice scans (World.start active moment).cache :=
  fun _ member => nomatch member

/-- The calls answer right and the entries are kept under the keys of their scans in every run, if and
only if no call of the run makes a summary of a scan that was delegated. -/
theorem transparent_keyed_iff (active : List RiskAcceptance.Acceptance) (moment : advice.Moment)
    (events : List (Event advice)) :
    Along (step advice scans)
        (fun world event next => Transparent advice scans world event ∧ Keyed next.cache)
        (World.start active moment) events ↔
      Along (step advice scans) (fun world event _ => Undelegated advice scans world event)
        (World.start active moment) events := by
  refine @along_iff _ _ _ (fun world => Sound advice scans world.cache ∧ Keyed world.cache) _ _ ?_ ?_
    _ _ ⟨sound_start active moment, fun _ member => nomatch member⟩
  · intro world event next ⟨sound, keyed⟩ taken
    rw [keyed_step_iff keyed taken]
    exact and_iff_right (transparent_of_sound event sound)
  · exact fun world event next ⟨sound, _⟩ taken ⟨_, kept⟩ => ⟨sound_step sound taken, kept⟩

def noAdvice : Advice where
  Moment := Unit
  found _ _ := []
  notInDns _ := some []
  reputation _ := none

/-- The summary of a scan that was delegated is kept under the name of a control. -/
theorem summary_misplaced :
    ¬ ∀ (advice : Advice) (scans : ScanKey → Entries) (active : List RiskAcceptance.Acceptance)
        (moment : advice.Moment) (events : List (Event advice)),
      Along (step advice scans)
        (fun world event next => Transparent advice scans world event ∧ Keyed next.cache)
        (World.start active moment) events := by
  intro claim
  obtain ⟨⟨_, keyed⟩, _⟩ := claim noAdvice (fun _ => []) [] () [.summarize ⟨1, []⟩] _ rfl
  have stored := keyed (keyAfter noAdvice ⟨1, []⟩ [], ⟨⟨1, []⟩, summary noAdvice [] []⟩)
    List.mem_cons_self
  have delegated : (getItem [] "not_delegated").truthy ≠ true := by decide
  exact @keyAfter_of_delegated noAdvice ⟨1, []⟩ [] delegated _ stored

end Management
end DomainLens
