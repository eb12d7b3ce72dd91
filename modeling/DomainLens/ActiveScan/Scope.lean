import DomainLens.ActiveScan.Scan

/-!
# Where the probes of an active scan go

Whatever the site and the DNS answer, a probe starts at the host the home request ended at.  What
keeps it on a verified, public host is up to the home page's redirects, the redirects of the probe
and the DNS.
-/

namespace DomainLens
namespace ActiveScan

open Python Ownership Logged

/-! ## The scope -/

/-- The URL has that value in one of its parameters. -/
def Carries (value : Text) (url : Url) : Prop := ∃ item ∈ url.query.getD [], item.value = value

/-- A request of a probe with its crafted value in a parameter. -/
def IsCrafted (request : Request) : Prop :=
  ∃ value, request.purpose = .probe value ∧ Carries value request.url

def IsProbe (request : Request) : Prop := ∃ value, request.purpose = .probe value

/-- The host is verified, and none of the addresses it resolved to is private. -/
structure Authorised (register : Register) (request : Request) : Prop where
  verified : isVerified register request.url.host = true
  publicly : ∀ address ∈ request.addresses, isPrivateIp address = false

def homeEnd (log : List Request) : Option Url :=
  (log.filter fun request => request.purpose = .home).getLast?.map Request.url

/-- The home request of a scan that sends probes ended on a verified host, no redirect carries a
probe to another one, and the DNS gives no private address to a probe. -/
structure StaysInScope (register : Register) (log : List Request) : Prop where
  home : (∃ request ∈ log, IsProbe request ∧ request.redirected = false) →
    ∀ base, homeEnd log = some base → isVerified register base.host = true
  redirects : ∀ request ∈ log, IsCrafted request → request.redirected = true →
    isVerified register request.url.host = true
  addresses : ∀ request ∈ log, IsCrafted request →
    ∀ address ∈ request.addresses, isPrivateIp address = false

/-! ## Requests -/

variable {services : Services} {site : Site}

/-- A request of that purpose that is for the URL, or was led to by a redirect. -/
def IsFor (purpose : Purpose) (url : Url) (request : Request) : Prop :=
  request.purpose = purpose ∧ (request.redirected = true ∨ request.url = url)

theorem yields_send (purpose : Purpose) (redirected : Bool) (url : Url) :
    Yields (fun request => request.purpose = purpose ∧ request.redirected = redirected ∧
      request.url = url) (fun _ => True) (send site purpose redirected url) := by
  intro log
  refine ⟨?_, trivial⟩
  unfold send
  cases site.resolve log url.host with
  | nil => simp
  | cons address addresses => simp

theorem adds_follow (purpose : Purpose) (limit : Nat) {redirected : Bool} {url target : Url}
    (start : redirected = true ∨ target = url) :
    Adds (IsFor purpose url) (follow site purpose limit redirected target) := by
  have first : ∀ {redirected : Bool} {target : Url}, (redirected = true ∨ target = url) →
      Adds (IsFor purpose url) (send site purpose redirected target) := by
    intro redirected target start
    refine (yields_send purpose redirected target).weaken ?_
    rintro request ⟨isPurpose, rfl, rfl⟩
    exact ⟨isPurpose, start⟩
  induction limit generalizing redirected target with
  | zero =>
      rw [follow]
      refine yields_bind (first start) fun answer _ => ?_
      cases answer with
      | none => exact yields_pure trivial
      | some response =>
          dsimp only
          cases response.next with
          | none => exact yields_pure trivial
          | some further => exact yields_pure trivial
  | succ limit induction =>
      rw [follow]
      refine yields_bind (first start) fun answer _ => ?_
      cases answer with
      | none => exact yields_pure trivial
      | some response =>
          dsimp only
          cases response.next with
          | none => exact yields_pure trivial
          | some further => exact induction (.inl rfl)

theorem adds_get (purpose : Purpose) (allowRedirects : Bool) (url : Url) :
    Adds (IsFor purpose url) (get site purpose allowRedirects url) := by
  unfold get
  cases allowRedirects with
  | true => exact adds_follow purpose maxRedirects (.inr rfl)
  | false =>
      refine yields_bind ((yields_send purpose false url).weaken ?_) fun answer _ =>
        yields_pure trivial
      rintro request ⟨isPurpose, -, isUrl⟩
      exact ⟨isPurpose, .inr isUrl⟩

private theorem send_ends {purpose : Purpose} {redirected : Bool} {url : Url}
    {log : List Request} {response : Response}
    (answered : (send site purpose redirected url log).1 = some response) :
    ((send site purpose redirected url log).2.getLast?).map Request.url = some url := by
  unfold send at answered ⊢
  cases resolved : site.resolve log url.host with
  | nil => simp [resolved] at answered
  | cons address addresses => simp

theorem follow_ends {purpose : Purpose} {limit : Nat} {redirected : Bool} {target : Url}
    {log : List Request} {answer : Url × Response}
    (ends : (follow site purpose limit redirected target log).1 = some answer) :
    ((follow site purpose limit redirected target log).2.getLast?).map Request.url =
      some answer.1 := by
  induction limit generalizing redirected target log with
  | zero =>
      simp only [follow, bind_apply] at ends ⊢
      cases sent : (send site purpose redirected target log).1 with
      | none => simp only [sent, pure_apply, reduceCtorEq] at ends
      | some response =>
          cases next : response.next with
          | none =>
              simp only [sent, next, pure_apply, Option.some.injEq, List.append_nil] at ends ⊢
              rw [← ends]
              exact send_ends sent
          | some further => simp only [sent, next, pure_apply, reduceCtorEq] at ends
  | succ limit induction =>
      simp only [follow, bind_apply] at ends ⊢
      cases sent : (send site purpose redirected target log).1 with
      | none => simp only [sent, pure_apply, reduceCtorEq] at ends
      | some response =>
          cases next : response.next with
          | none =>
              simp only [sent, next, pure_apply, Option.some.injEq, List.append_nil] at ends ⊢
              rw [← ends]
              exact send_ends sent
          | some further =>
              simp only [sent, next] at ends ⊢
              have later := induction ends
              obtain ⟨request, last, isUrl⟩ := Option.map_eq_some_iff.mp later
              rw [List.getLast?_append, last]
              simpa using isUrl

theorem home_ends {domain : Text} {schemes : List Text} {log : List Request}
    {answer : Url × Response} (ends : (home services site domain schemes log).1 = some answer) :
    ((home services site domain schemes log).2.getLast?).map Request.url = some answer.1 := by
  induction schemes generalizing log with
  | nil => cases ends
  | cons scheme schemes induction =>
      simp only [home, bind_apply] at ends ⊢
      cases first : (get site .home true (services.homeUrl scheme domain) log).1 with
      | some found =>
          simp only [first, pure_apply, Option.some.injEq, List.append_nil] at ends ⊢
          rw [← ends]
          exact follow_ends first
      | none =>
          simp only [first] at ends ⊢
          obtain ⟨request, last, isUrl⟩ := Option.map_eq_some_iff.mp (induction ends)
          rw [List.getLast?_append, last]
          simpa using isUrl

theorem adds_home {domain : Text} (schemes : List Text) :
    Adds (fun request => request.purpose = .home)
      (home services site domain schemes) := by
  induction schemes with
  | nil => exact yields_pure trivial
  | cons scheme schemes induction =>
      refine yields_bind ((adds_get .home true _).weaken fun _ isFor => isFor.1) ?_
      intro answer _
      cases answer with
      | none => exact induction
      | some found => exact yields_pure trivial

/-! ## Targets -/

/-- Everything found so far is of the origin. -/
structure WithinOrigin (origin : Text) (crawl : Crawl) : Prop where
  toVisit : ∀ link ∈ crawl.toVisit, lower link.netloc = origin
  targets : ∀ target ∈ crawl.targets, lower target.1.netloc = origin

variable {origin : Text}

theorem netloc_of_collectParams {url : Url} (ofOrigin : lower url.netloc = origin) :
    ∀ target ∈ collectParams url, lower target.1.netloc = origin := by
  intro target member
  obtain ⟨pair, -, rfl⟩ := List.mem_map.mp member
  exact ofOrigin

theorem netloc_of_collectLinks {html : Text} {page : Url} {links : List Url}
    (collected : collectLinks services html page origin = some links) :
    ∀ link ∈ links, lower link.netloc = origin := by
  obtain ⟨found, -, rfl⟩ := Option.map_eq_some_iff.mp collected
  intro link member
  obtain ⟨unstripped, isFound, rfl⟩ := List.mem_map.mp member
  exact of_decide_eq_true (List.mem_filter.mp isFound).2

theorem withinOrigin_addTargets {crawl : Crawl} {url : Url} (visited : List Url)
    (within : WithinOrigin origin crawl) (ofOrigin : lower url.netloc = origin) :
    WithinOrigin origin
      { crawl with visited := visited, targets := crawl.targets ++ collectParams url } where
  toVisit := within.toVisit
  targets := by
    intro target member
    rcases List.mem_append.mp member with old | new
    · exact within.targets target old
    · exact netloc_of_collectParams ofOrigin target new

theorem withinOrigin_seeLink {crawl : Crawl} {link : Url} (within : WithinOrigin origin crawl)
    (ofOrigin : lower link.netloc = origin) : WithinOrigin origin (seeLink crawl link) := by
  unfold seeLink
  split
  · exact within
  split
  · exact withinOrigin_addTargets _ within ofOrigin
  · refine { toVisit := ?_, targets := within.targets }
    intro other member
    rcases List.mem_append.mp member with old | new
    · exact within.toVisit other old
    · rw [List.mem_singleton.mp new]
      exact ofOrigin

theorem withinOrigin_seeSub {crawl : Crawl} {link : Url} (within : WithinOrigin origin crawl)
    (ofOrigin : lower link.netloc = origin) : WithinOrigin origin (seeSub crawl link) := by
  unfold seeSub
  split
  · exact withinOrigin_addTargets _ within ofOrigin
  · exact within

theorem withinOrigin_foldl {see : Crawl → Url → Crawl}
    (keeps : ∀ {crawl link}, WithinOrigin origin crawl → lower link.netloc = origin →
      WithinOrigin origin (see crawl link))
    {links : List Url} (ofOrigin : ∀ link ∈ links, lower link.netloc = origin) {crawl : Crawl}
    (within : WithinOrigin origin crawl) : WithinOrigin origin (links.foldl see crawl) := by
  induction links generalizing crawl with
  | nil => exact within
  | cons link links induction =>
      exact induction (fun other member => ofOrigin other (List.mem_cons_of_mem _ member))
        (keeps within (ofOrigin link List.mem_cons_self))

def IsPage (request : Request) : Prop := request.purpose = .page

theorem yields_visitPage {maxPages : Nat} {state : Crawl × Nat} {link : Url}
    (within : WithinOrigin origin state.1) (ofOrigin : lower link.netloc = origin) :
    Yields IsPage (fun state => WithinOrigin origin state.1)
      (visitPage services site origin maxPages state link) := by
  unfold visitPage
  split
  · exact yields_pure within
  have fetched : Yields IsPage (fun answer => ∀ found, answer = some found → found.1 = link)
      (get site .page false link) := by
    intro log
    refine ⟨fun request member => ((adds_get .page false link log).1 request member).1, ?_⟩
    rintro found isFound
    obtain ⟨response, -, rfl⟩ := Option.map_eq_some_iff.mp isFound
    rfl
  · refine yields_bind fetched fun answer isLink => ?_
    cases answer with
    | none => exact yields_pure ⟨within.toVisit, within.targets⟩
    | some found =>
        obtain ⟨url, response⟩ := found
        obtain rfl : url = link := isLink _ rfl
        have added := withinOrigin_addTargets (url :: state.1.visited) within ofOrigin
        dsimp only
        split
        · cases collected : collectLinks services response.text url origin with
          | none => exact yields_pure added
          | some links =>
              exact yields_pure
                (withinOrigin_foldl withinOrigin_seeSub (netloc_of_collectLinks collected) added)
        · exact yields_pure ⟨within.toVisit, within.targets⟩

theorem yields_discover {base : Url} {html : Text} {maxPages : Nat}
    (ofOrigin : lower base.netloc = origin) :
    Yields IsPage
      (fun found => ∀ targets, found = some targets →
        ∀ target ∈ targets, lower target.1.netloc = origin)
      (discover services site base html origin maxPages) := by
  unfold discover
  cases collected : collectLinks services html base origin with
  | none => exact yields_pure fun targets isFound => nomatch isFound
  | some links =>
      have start : WithinOrigin origin
          { visited := [base], toVisit := [], targets := collectParams base } :=
        { toVisit := fun link member => (List.not_mem_nil member).elim
          targets := netloc_of_collectParams ofOrigin }
      have seen := withinOrigin_foldl withinOrigin_seeLink (netloc_of_collectLinks collected) start
      have visited : Yields IsPage (fun state => WithinOrigin origin state.1)
          (fold (visitPage services site origin maxPages) (_, 0) _) :=
        yields_fold seen fun state within link member =>
          yields_visitPage within (seen.toVisit link member)
      refine yields_bind visited fun state within => yields_pure ?_
      rintro targets ⟨⟩ target member
      exact within.targets target (mem_fromKeys.mp member)

/-! ## Probes -/

/-- A request of a probe that carries its value to the origin, or was led to by a redirect. -/
def IsProbeOf (origin : Text) (request : Request) : Prop :=
  ∃ value, request.purpose = .probe value ∧
    (request.redirected = true ∨ (Carries value request.url ∧ lower request.url.netloc = origin))

theorem mem_setKey {key value : Text} (entries : List (Text × Text)) :
    (key, value) ∈ setKey key value entries := by
  induction entries with
  | nil => exact List.mem_cons_self
  | cons entry entries induction =>
      rw [setKey]
      split
      · exact List.mem_cons_self
      · exact List.mem_cons_of_mem _ induction

theorem carries_setParam (url : Url) (param value : Text) :
    Carries value (setParam services url param value) :=
  ⟨_, List.mem_map_of_mem (mem_setKey (dictOf (parseQsl url))), rfl⟩

theorem adds_runProbe {token : Text} {target : Target} {probe : Probe}
    (ofOrigin : lower target.1.netloc = origin) :
    Adds (IsProbeOf origin) (runProbe services site token target probe) := by
  refine yields_bind ((adds_get (.probe (probe.value token)) probe.allowRedirects
    (setParam services target.1 target.2 (probe.value token))).weaken ?_)
    fun answer _ => yields_pure trivial
  rintro request ⟨isProbe, redirected | isUrl⟩
  · exact ⟨_, isProbe, .inl redirected⟩
  · refine ⟨_, isProbe, .inr ⟨?_, ?_⟩⟩
    · rw [isUrl]
      exact carries_setParam _ _ _
    · rw [isUrl]
      exact ofOrigin

theorem adds_attemptTarget {maxRequests : Nat} {progress : Progress} {target : Target}
    (ofOrigin : lower target.1.netloc = origin) :
    Adds (IsProbeOf origin)
      (attemptTarget services site maxRequests progress target) := by
  unfold attemptTarget
  split
  · exact yields_pure trivial
  refine adds_fold fun progress probe _ => ?_
  unfold attempt
  split
  · exact yields_pure trivial
  exact yields_bind (adds_runProbe ofOrigin) fun hit _ => yields_pure trivial

/-! ## The scan -/

theorem adds_probeSite {settings : Settings} {base : Url} {html : Text} :
    Adds (fun request => IsPage request ∨ IsProbeOf (lower base.netloc) request)
      (probeSite services site settings base html) := by
  refine yields_bind ((yields_discover rfl).weaken fun _ isPage => .inl isPage)
    fun found ofOrigin => ?_
  cases found with
  | none => exact yields_pure trivial
  | some discovered =>
      refine yields_bind (adds_fold fun progress target member => ?_)
        fun progress _ => yields_pure trivial
      refine (adds_attemptTarget ?_).weaken fun _ isProbe => .inr isProbe
      rcases List.mem_append.mp (mem_fromKeys.mp member) with old | extra
      · exact ofOrigin discovered rfl target old
      · obtain ⟨param, -, rfl⟩ := List.mem_map.mp extra
        rfl

/-- What a scan sends: home requests, and then pages and probes of the origin they end at. -/
def InPhases (log : List Request) : Prop :=
  ∃ homes rest, log = homes ++ rest ∧ (∀ request ∈ homes, request.purpose = .home) ∧
    (rest = [] ∨ ∃ base, homes.getLast?.map Request.url = some base ∧
      ∀ request ∈ rest, IsPage request ∨ IsProbeOf (lower base.netloc) request)

private theorem inPhases_nil : InPhases [] :=
  ⟨[], [], rfl, fun _ member => (List.not_mem_nil member).elim, .inl rfl⟩

theorem inPhases_scan (services : Services) (site : Site) (domain : Text) (settings : Settings) :
    InPhases (scan services site domain settings []).2 := by
  unfold scan
  split
  · exact inPhases_nil
  split
  · exact inPhases_nil
  dsimp only
  generalize "https".toList :: (if settings.includeHttp then ["http".toList] else []) = schemes
  rw [bind_apply]
  refine ⟨(home services site domain schemes []).2, _, rfl, (adds_home schemes []).1, ?_⟩
  cases ends : (home services site domain schemes []).1 with
  | none => exact .inl rfl
  | some answer =>
      obtain ⟨base, response⟩ := answer
      refine .inr ⟨base, home_ends ends, ?_⟩
      exact (adds_probeSite _).1

theorem inPhases_checkActiveScan (services : Services) (register : Register) (site : Site)
    (domain : Text) (settings : Settings) :
    InPhases (checkActiveScan services register site domain settings []).2 := by
  unfold checkActiveScan
  split
  · exact inPhases_nil
  · exact inPhases_scan services site domain settings

private theorem homeEnd_append {homes rest : List Request}
    (isHome : ∀ request ∈ homes, request.purpose = .home)
    (isOther : ∀ request ∈ rest, request.purpose ≠ .home) :
    homeEnd (homes ++ rest) = homes.getLast?.map Request.url := by
  have allHome : homes.filter (fun request => request.purpose = .home) = homes :=
    List.filter_eq_self.mpr fun request member => decide_eq_true (isHome request member)
  have noneHome : rest.filter (fun request => request.purpose = .home) = [] :=
    List.filter_eq_nil_iff.mpr fun request member => by simpa using isOther request member
  rw [homeEnd, List.filter_append, allHome, noneHome, List.append_nil]

/-- A probe that no redirect led elsewhere carries its value to the host the home request ended
at. -/
theorem host_of_probe {log : List Request} (phases : InPhases log) {request : Request}
    (member : request ∈ log) (isProbe : IsProbe request) (direct : request.redirected = false) :
    IsCrafted request ∧ ∃ base, homeEnd log = some base ∧ request.url.host = base.host := by
  obtain ⟨homes, rest, rfl, isHome, stopped | ⟨base, ends, isOther⟩⟩ := phases
  all_goals obtain ⟨value, purpose⟩ := isProbe
  · subst stopped
    have atHome := isHome request (by simpa using member)
    rw [purpose] at atHome
    cases atHome
  · rcases List.mem_append.mp member with early | late
    · have atHome := isHome request early
      rw [purpose] at atHome
      cases atHome
    · rcases isOther request late with isPage | ⟨other, isOf, redirected | ⟨carries, netloc⟩⟩
      · rw [IsPage, purpose] at isPage
        cases isPage
      · rw [direct] at redirected
        cases redirected
      · rw [purpose] at isOf
        cases isOf
        refine ⟨⟨value, purpose, carries⟩, base, ?_, congrArg hostOf netloc⟩
        rw [homeEnd_append isHome, ends]
        rintro request member atHome
        rcases isOther request member with isPage | ⟨other, isOf, -⟩
        · rw [IsPage, atHome] at isPage
          cases isPage
        · rw [atHome] at isOf
          cases isOf

def sampleServices : Services where
  homeUrl scheme domain :=
    { scheme := scheme, netloc := domain, path := ['/'], query := none, fragment := none }
  urljoin _ _ := none
  encodePair name value := name ++ '=' :: value
  hrefs _ := []
  sqlError _ := none
  token _ := "00000000".toList

def sampleRegister : Register where
  entries :=
    [{ domain := "mine.example".toList
       status := "verified".toList
       method := some "admin".toList
       verifiedAt := none }]
  now := 0
  maxAgeDays := 365
  fromisoformat _ := none

def strangerUrl : Url where
  scheme := "https".toList
  netloc := "stranger.example".toList
  path := ['/']
  query := none
  fragment := none

/-- The home page of the verified site redirects to another one. -/
def sampleSite : Site where
  gethostbyname _ := some (.quad 93 184 216 34)
  resolve _ _ := [.quad 93 184 216 34]
  answer _ request :=
    some
      { status := if request.url.host = "mine.example".toList then 302 else 200
        contentType := "text/html".toList
        location := []
        next := if request.url.host = "mine.example".toList then some strangerUrl else none
        text := [] }

def sampleSettings : Settings where
  enabled := true
  maxRequests := 1
  maxPages := 0
  includeHttp := false
  extraParams := ["next".toList]

end ActiveScan
end DomainLens
