import DomainLens.ActiveScan.Scan
import Mathlib

/-!
# The ceiling of an active scan

The scan counts its probes and stops at the ceiling.  The home page, the crawl and the redirects of
the probes are outside the count; the file says when everything that is sent stays within the
ceiling.
-/

namespace DomainLens
namespace ActiveScan

open Python

/-! ## What is sent, without a ceiling -/

/-- The probes of some targets, in order. -/
def probesOf (targets : List Target) : List (Target × Probe) :=
  targets.flatMap fun target => [.xss, .openRedirect, .sqliError].map (Prod.mk target)

/-- The requests of each of some probes, the first of them having a number. -/
def sentFor (services : Services) (site : Site) :
    Nat → List (Target × Probe) → List Request → List (List Request)
  | _, [], _ => []
  | number, (target, probe) :: rest, log =>
      let sent := (runProbe services site (services.token number) target probe log).2
      sent :: sentFor services site (number + 1) rest (log ++ sent)

/-- `_discover` and the targets of the probes, `base` being the home page; none where a link cannot
be read. -/
def crawl (services : Services) (site : Site) (settings : Settings) (base : Url) (html : Text) :
    Logged Request (List Target) := do
  match ← discover services site base html (lower base.netloc) settings.maxPages.toNat with
  | none => return []
  | some discovered =>
      let extra := if settings.extraParams = [] then commonRedirectParams
        else settings.extraParams
      return fromKeys (discovered ++ extra.map fun param => (base, param))

/-- What a scan does before its first probe: the home page and the crawl. -/
def beforeProbes (services : Services) (site : Site) (domain : Text) (settings : Settings) :
    Logged Request (List Target) := do
  let schemes := "https".toList :: if settings.includeHttp then ["http".toList] else []
  match ← home services site domain schemes with
  | none => return []
  | some (base, response) => crawl services site settings base response.text

/-- The requests of a scan that runs: those before the probes, and those of as many probes as the
ceiling counts. -/
def requestCount (services : Services) (site : Site) (domain : Text) (settings : Settings) : Nat :=
  let (targets, before) := beforeProbes services site domain settings []
  before.length + (((sentFor services site 0 (probesOf targets) before).take
    (max 1 settings.maxRequests).toNat).map List.length).sum

/-! ## The probes under the ceiling -/

variable {services : Services} {site : Site}

/-- What a part of the probes sends: its probes in order, up to the ceiling, each counted once. -/
private def Spends (services : Services) (site : Site) (ceiling : Nat)
    (probes : List (Target × Probe)) (progress : Progress) (log : List Request)
    (outcome : Progress × List Request) : Prop :=
  outcome.2 = ((sentFor services site progress.attempts probes log).take
      (ceiling - progress.attempts)).flatten ∧
    outcome.1.attempts = progress.attempts + min probes.length (ceiling - progress.attempts)

private theorem length_sentFor (number : Nat) (probes : List (Target × Probe)) (log : List Request) :
    (sentFor services site number probes log).length = probes.length := by
  induction probes generalizing number log with
  | nil => rfl
  | cons probe probes induction => rw [sentFor, List.length_cons, induction, List.length_cons]

private theorem sentFor_append (number : Nat) (first second : List (Target × Probe))
    (log : List Request) :
    sentFor services site number (first ++ second) log =
      sentFor services site number first log ++
        sentFor services site (number + first.length) second
          (log ++ (sentFor services site number first log).flatten) := by
  induction first generalizing number log with
  | nil => simp [sentFor]
  | cons probe first induction =>
      rw [List.cons_append, sentFor, sentFor, induction, List.cons_append, List.flatten_cons,
        List.append_assoc, List.length_cons, Nat.add_assoc, Nat.add_comm 1]

private theorem spends_fold {Value : Type} {ceiling : Nat}
    {step : Progress → Value → Logged Request Progress} (probes : Value → List (Target × Probe))
    (spends : ∀ value progress log,
      Spends services site ceiling (probes value) progress log (step progress value log))
    (values : List Value) (progress : Progress) (log : List Request) :
    Spends services site ceiling (values.flatMap probes) progress log
      (Logged.fold step progress values log) := by
  induction values generalizing progress log with
  | nil => simp [Spends, Logged.fold, Logged.done, sentFor]
  | cons value values induction =>
      obtain ⟨sent, counted⟩ := spends value progress log
      obtain ⟨later, total⟩ := induction (step progress value log).1
        (log ++ (step progress value log).2)
      have length := @length_sentFor services site progress.attempts (probes value) log
      have folded : Logged.fold step progress (value :: values) log =
          ((Logged.fold step (step progress value log).1 values
              (log ++ (step progress value log).2)).1,
            (step progress value log).2 ++ (Logged.fold step (step progress value log).1 values
              (log ++ (step progress value log).2)).2) := rfl
      rw [folded]
      refine ⟨?_, ?_⟩
      · change (step progress value log).2 ++ _ = _
        rw [later, counted, List.flatMap_cons, sentFor_append, List.take_append, List.flatten_append,
          length, ← sent]
        by_cases whole : (probes value).length ≤ ceiling - progress.attempts
        · have all : (step progress value log).2 =
              (sentFor services site progress.attempts (probes value) log).flatten := by
            rw [sent, List.take_of_length_le (by omega)]
          rw [Nat.min_eq_left whole, ← all, Nat.sub_add_eq]
        · rw [show ceiling - (progress.attempts + min (probes value).length
            (ceiling - progress.attempts)) = 0 by omega,
            show ceiling - progress.attempts - (probes value).length = 0 by omega]
          simp
      · change (Logged.fold step _ values _).1.attempts = _
        rw [total, counted, List.flatMap_cons, List.length_append]
        omega

private theorem spends_attempt (ceiling : Nat) (target : Target) (probe : Probe)
    (progress : Progress) (log : List Request) :
    Spends services site ceiling [(target, probe)] progress log
      (attempt services site ceiling target progress probe log) := by
  unfold Spends attempt
  split
  · rename_i reached
    rw [show ceiling - progress.attempts = 0 by omega]
    simp [Logged.pure_apply]
  · rename_i below
    obtain ⟨left, isLeft⟩ : ∃ left, ceiling - progress.attempts = left + 1 :=
      Nat.exists_eq_succ_of_ne_zero (by omega)
    rw [isLeft]
    simp [Logged.bind_apply, Logged.pure_apply, sentFor]

private theorem spends_attemptTarget (ceiling : Nat) (target : Target) (progress : Progress)
    (log : List Request) :
    Spends services site ceiling ([.xss, .openRedirect, .sqliError].map (Prod.mk target)) progress
      log (attemptTarget services site ceiling progress target log) := by
  have spends := spends_fold (fun probe => [(target, probe)])
    (@spends_attempt services site ceiling target) [.xss, .openRedirect, .sqliError]
  unfold attemptTarget
  split
  · rename_i reached
    rw [Spends, show ceiling - progress.attempts = 0 by omega]
    simp [Logged.pure_apply]
  · exact spends { progress with pagesTested := progress.pagesTested ++ [target.1] } log

private theorem requests_probeSite (settings : Settings) (base : Url) (html : Text)
    (log : List Request) :
    (probeSite services site settings base html log).2 =
      (crawl services site settings base html log).2 ++
        ((sentFor services site 0 (probesOf (crawl services site settings base html log).1)
          (log ++ (crawl services site settings base html log).2)).take
            (max 1 settings.maxRequests).toNat).flatten := by
  unfold probeSite crawl
  simp only [Logged.bind_apply]
  cases (discover services site base html (lower base.netloc) settings.maxPages.toNat log).1 with
  | none => simp [Logged.pure_apply, probesOf, sentFor]
  | some discovered =>
      simp only [Logged.bind_apply, Logged.pure_apply, List.append_nil]
      congr 1
      exact (spends_fold _ (@spends_attemptTarget services site _) _ _ _).1

theorem length_scan (services : Services) (site : Site) (domain : Text) (settings : Settings) :
    (scan services site domain settings []).2.length =
      if settings.enabled ∧ safeHost site domain then requestCount services site domain settings
      else 0 := by
  unfold scan
  cases settings.enabled with
  | false => simp [Logged.pure_apply]
  | true =>
      cases safeHost site domain with
      | false => simp [Logged.pure_apply]
      | true =>
          simp only [Bool.not_true, Bool.false_eq_true, if_false, and_self, if_true, requestCount,
            beforeProbes, Logged.bind_apply]
          cases (home services site domain _ []).1 with
          | none => simp [Logged.pure_apply, probesOf, sentFor]
          | some found =>
              rw [requests_probeSite]
              simp only [List.nil_append, List.length_append, List.length_flatten, List.map_take,
                Nat.add_assoc]

def onePage : Site where
  gethostbyname _ := some (.quad 93 184 216 34)
  resolve _ _ := [.quad 93 184 216 34]
  answer _ _ := some ⟨200, [], [], none, []⟩

def linkless : Services where
  homeUrl scheme domain := ⟨scheme, domain, ['/'], none, none⟩
  urljoin _ _ := none
  encodePair name value := name ++ '=' :: value
  hrefs _ := []
  sqlError _ := none
  token _ := "00000000".toList

def oneRequest : Settings where
  enabled := true
  maxRequests := 1
  maxPages := 0
  includeHttp := false
  extraParams := ["next".toList]

end ActiveScan
end DomainLens
