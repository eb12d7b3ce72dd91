import DomainLens.ScanJobs

/-!
# Requests to start a scan

A request looks for a running job of its domain and, if there is none, registers one.  The look and the
registration hold the lock one after the other, so that another request may come between them.  The
file says when no domain has two running jobs.
-/

namespace DomainLens
namespace ScanRequests

open Run ScanJobs

/-! ## Requests -/

/-- The job objects and the registry, with the domains of the requests that found nothing running and
have not registered a job yet. -/
structure Site where
  world : World
  pending : List String

/-- No job was ever started, and no request is under way. -/
def Site.start : Site := ⟨World.empty, []⟩

inductive Label where
  /-- `find_active` of a request. -/
  | look (domain : String) (now : Time)
  /-- `start` of a request that found nothing. -/
  | launch (position : Nat) (now : Time)
  /-- A poll or a worker. -/
  | other (event : Event)

/-- What `find_active` answers a request. -/
def answer (site : Site) (domain : String) (now : Time) : Option PublicView :=
  (site.world.findActive domain now).2

/-- Take one step.  A job that is found is the answer of the request, which ends. -/
def step (site : Site) : Label → Option Site
  | .look domain now =>
      some
        { world := (site.world.findActive domain now).1
          pending := if (answer site domain now).isSome then site.pending
            else site.pending ++ [domain] }
  | .launch position now =>
      site.pending[position]?.map fun domain =>
        { world := site.world.start domain now, pending := site.pending.eraseIdx position }
  | .other (.start _ _) => none
  | .other event => (ScanJobs.step site.world event).map fun world => { site with world }

/-! ## Running jobs -/

def Running (world : World) (domain : String) (id : JobId) : Prop :=
  id ∈ world.registry ∧
    ∃ job, world.objects id = some job ∧ job.domain = domain ∧ job.status = .running

def OneRunning (world : World) : Prop :=
  ∀ domain id other, Running world domain id → Running world domain other → id = other

/-- No domain has two running jobs, and a request made while one runs returns that one. -/
def Single (site : Site) (label : Label) (next : Site) : Prop :=
  OneRunning next.world ∧
    match label with
    | .look domain now => ∀ id, Running next.world domain id →
        answer site domain now = (next.world.objects id).map fun job => publicView job false
    | _ => True

/-- A request registers its job only where none of its domain runs. -/
def Unraced (site : Site) (label : Label) (_ : Site) : Prop :=
  match label with
  | .launch position _ => ∀ domain ∈ site.pending[position]?, ∀ id, ¬ Running site.world domain id
  | _ => True

/-! ## What a step does to the running jobs -/

private theorem isStale_of_running {job : Job} (running : job.status = .running) (now : Time) :
    job.isStale now = false := by
  simp [Job.isStale, running]

theorem running_prune {world : World} {domain : String} {id : JobId} {now : Time} :
    Running (world.prune now) domain id ↔ Running world domain id := by
  constructor
  · rintro ⟨member, job, found, isDomain, running⟩
    exact ⟨(List.mem_filter.mp member).1, job, found, isDomain, running⟩
  · rintro ⟨member, job, found, isDomain, running⟩
    refine ⟨List.mem_filter.mpr ⟨member, ?_⟩, job, found, isDomain, running⟩
    simp [found, isStale_of_running running]

/-- A change of a job that leaves it running leaves its domain, and found it running. -/
theorem running_of_move {event : Event} {id : JobId} {job later : Job} (move : Move event id job later)
    (running : later.status = .running) : job.status = .running ∧ job.domain = later.domain := by
  cases move with
  | kept => exact ⟨running, rfl⟩
  | progressed => exact ⟨running, rfl⟩
  | abandoned => cases running
  | completed returned => cases returned <;> cases running
  | raised => cases running

private theorem findLoop_registry (domain : String) (now : Time) (ids : List JobId) (world : World) :
    (World.findLoop domain now ids world).1.registry = world.registry := by
  induction ids generalizing world with
  | nil => rfl
  | cons head ids induction =>
      unfold World.findLoop
      split
      · exact induction world
      · split_ifs
        · exact induction (world.modify head fun job => job.abandon now)
        · rfl
        · exact induction world

theorem registry_subset {world next : World} {event : Event}
    (taken : ScanJobs.step world event = some next)
    (registers : ∀ domain now, event ≠ .start domain now) : next.registry ⊆ world.registry := by
  cases event with
  | start domain now => exact (registers domain now rfl).elim
  | progress | complete | raised =>
      simp only [ScanJobs.step, Option.ite_none_right_eq_some, Option.some.injEq] at taken
      obtain ⟨_, rfl⟩ := taken
      exact fun _ => id
  | get target includeResult now =>
      obtain rfl := Option.some.inj taken
      unfold World.get
      split_ifs
      · split
        · exact fun _ => id
        · split_ifs <;> exact fun _ => id
      · exact fun _ => id
  | findActive domain now =>
      obtain rfl := Option.some.inj taken
      rw [World.findActive, findLoop_registry]
      exact List.filter_subset_self _
  | reset =>
      obtain rfl := Option.some.inj taken
      exact List.nil_subset _

/-- What a step leaves running it found running, unless it registers a job. -/
theorem running_of_step {world next : World} {event : Event} {domain : String} {id : JobId}
    (taken : ScanJobs.step world event = some next) (fresh : world.objects world.nextId = none)
    (registers : ∀ domain now, event ≠ .start domain now) (running : Running next domain id) :
    Running world domain id := by
  obtain ⟨member, later, found, isDomain, runs⟩ := running
  refine ⟨registry_subset taken registers member, ?_⟩
  have change := step_moves taken fresh id
  rw [found] at change
  generalize beforehand : world.objects id = before at change
  cases change with
  | started _ _ called => exact (registers _ _ called).elim
  | moved move =>
      obtain ⟨ran, same⟩ := running_of_move move runs
      exact ⟨_, rfl, same.trans isDomain, ran⟩

theorem running_start {world : World} {domain other : String} {id : JobId} {now : Time}
    (fresh : world.objects world.nextId = none) :
    Running (world.start domain now) other id ↔
      id = world.nextId ∧ other = domain ∨ Running world other id := by
  by_cases new : id = world.nextId
  · subst new
    constructor
    · rintro ⟨_, job, found, isDomain, _⟩
      obtain rfl := Option.some.inj ((if_pos rfl).symm.trans found)
      exact .inl ⟨rfl, isDomain.symm⟩
    · rintro (⟨_, rfl⟩ | ⟨_, job, found, _⟩)
      · exact ⟨by simp [World.start], _, if_pos rfl, rfl, rfl⟩
      · rw [fresh] at found
        cases found
  · rw [← @running_prune world other id now]
    simp [Running, World.start, new]

/-! ## The answer of a request -/

/-- A job of a domain runs, registered or not. -/
def RunsFor (world : World) (domain : String) (id : JobId) : Prop :=
  ∃ job, world.objects id = some job ∧ job.domain = domain ∧ job.status = .running

private theorem not_runsFor_findLoop {domain : String} {now : Time} {ids : List JobId} {world : World}
    {id : JobId} (idle : ¬ RunsFor world domain id) :
    ¬ RunsFor (World.findLoop domain now ids world).1 domain id := by
  rintro ⟨later, found, isDomain, running⟩
  rcases findLoop_objects domain now ids world id with unchanged | ⟨job, _, _, abandoned⟩
  · exact idle ⟨later, unchanged ▸ found, isDomain, running⟩
  · obtain rfl := Option.some.inj (abandoned.symm.trans found)
    cases running

/-- Nothing found: none of the jobs looked at runs for the domain any more. -/
theorem not_runsFor_of_findLoop {domain : String} {now : Time} {ids : List JobId} {world : World}
    (nothing : (World.findLoop domain now ids world).2 = none) {id : JobId} (member : id ∈ ids) :
    ¬ RunsFor (World.findLoop domain now ids world).1 domain id := by
  induction ids generalizing world with
  | nil => cases member
  | cons head ids induction =>
      have passed (onward : World) (idle : ¬ RunsFor onward domain head)
          (nothing : (World.findLoop domain now ids onward).2 = none) :
          ¬ RunsFor (World.findLoop domain now ids onward).1 domain id := by
        rcases List.mem_cons.mp member with rfl | later
        · exact not_runsFor_findLoop idle
        · exact induction nothing later
      unfold World.findLoop at nothing ⊢
      split at nothing
      · rename_i missing
        refine passed world ?_ nothing
        rintro ⟨job, found, _⟩
        rw [missing] at found
        cases found
      · rename_i held heldFound
        split_ifs at nothing ⊢ with wanted stuck
        · refine passed _ ?_ nothing
          rintro ⟨job, found, _, running⟩
          obtain rfl : held.abandon now = job := by simpa [World.modify, heldFound] using found
          cases running
        · refine passed world ?_ nothing
          rintro ⟨job, found, isDomain, running⟩
          obtain rfl := Option.some.inj (heldFound.symm.trans found)
          exact wanted ⟨isDomain, running⟩

theorem runsFor_of_findLoop {domain : String} {now : Time} {ids : List JobId} {world : World}
    {view : PublicView} (found : (World.findLoop domain now ids world).2 = some view) :
    ∃ id ∈ ids, ∃ job, (World.findLoop domain now ids world).1.objects id = some job ∧
      job.domain = domain ∧ job.status = .running ∧ view = publicView job false := by
  induction ids generalizing world with
  | nil => cases found
  | cons head ids induction =>
      unfold World.findLoop at found ⊢
      split at found
      · obtain ⟨id, member, rest⟩ := induction found
        exact ⟨id, List.mem_cons_of_mem _ member, rest⟩
      · rename_i held heldFound
        split_ifs at found ⊢ with wanted stuck
        · obtain ⟨id, member, rest⟩ := induction found
          exact ⟨id, List.mem_cons_of_mem _ member, rest⟩
        · exact ⟨head, List.mem_cons_self, held, heldFound, wanted.1, wanted.2,
            (Option.some.inj found).symm⟩
        · obtain ⟨id, member, rest⟩ := induction found
          exact ⟨id, List.mem_cons_of_mem _ member, rest⟩

theorem answer_of_running {site : Site} {domain : String} {now : Time} {id : JobId}
    (one : OneRunning (site.world.findActive domain now).1)
    (running : Running (site.world.findActive domain now).1 domain id) :
    answer site domain now =
      ((site.world.findActive domain now).1.objects id).map fun job => publicView job false := by
  have registered : (site.world.findActive domain now).1.registry = (site.world.prune now).registry :=
    findLoop_registry domain now _ _
  cases found : answer site domain now with
  | none =>
      refine (not_runsFor_of_findLoop found ?_ running.2).elim
      exact registered ▸ running.1
  | some view =>
      obtain ⟨other, member, job, isJob, isDomain, runs, rfl⟩ := runsFor_of_findLoop found
      obtain rfl : id = other :=
        one domain id other running ⟨registered.symm ▸ member, job, isJob, isDomain, runs⟩
      exact (congrArg (Option.map fun job => publicView job false) isJob).symm

/-! ## Runs -/

/-- Ids from the next one on are not taken, and no domain has two running jobs. -/
structure Sound (site : Site) : Prop where
  fresh : ∀ id, site.world.nextId ≤ id → site.world.objects id = none
  one : OneRunning site.world

private theorem sound_start : Sound Site.start where
  fresh _ _ := rfl
  one _ _ _ running := by cases running.1

private theorem fresh_step {world next : World} {event : Event}
    (taken : ScanJobs.step world event = some next)
    (fresh : ∀ id, world.nextId ≤ id → world.objects id = none) (id : JobId)
    (above : next.nextId ≤ id) : next.objects id = none := by
  have change := step_moves taken (fresh _ (Nat.le_refl _)) id
  rcases step_nextId taken with ⟨domain, now, rfl, grown⟩ | ⟨registers, same⟩
  · rw [grown] at above
    rw [fresh id (Nat.le_of_lt above)] at change
    generalize next.objects id = after at change ⊢
    cases change with
    | absent => rfl
    | started _ _ _ new => exact absurd new (Nat.ne_of_gt above)
  · rw [fresh id (same ▸ above)] at change
    generalize next.objects id = after at change ⊢
    cases change with
    | absent => rfl
    | started _ _ called => exact (registers _ _ called).elim

private theorem oneRunning_of_step {world next : World} {event : Event}
    (taken : ScanJobs.step world event = some next) (fresh : world.objects world.nextId = none)
    (registers : ∀ domain now, event ≠ .start domain now) (one : OneRunning world) :
    OneRunning next :=
  fun domain id other left right =>
    one domain id other (running_of_step taken fresh registers left)
      (running_of_step taken fresh registers right)

private theorem step_other {site : Site} {event : Event}
    (registers : ∀ domain now, event ≠ .start domain now) :
    step site (.other event) =
      (ScanJobs.step site.world event).map fun world => { site with world } := by
  cases event with
  | start domain now => exact (registers domain now rfl).elim
  | progress | complete | raised | get | findActive | reset => rfl

private theorem step_world {site next : Site} {label : Label} (taken : step site label = some next) :
    ∃ event, ScanJobs.step site.world event = some next.world ∧
      match label with
      | .launch position now => ∃ domain ∈ site.pending[position]?, event = .start domain now
      | _ => ∀ domain now, event ≠ .start domain now := by
  cases label with
  | look domain now =>
      obtain rfl := Option.some.inj taken
      exact ⟨.findActive domain now, rfl, by simp⟩
  | launch position now =>
      obtain ⟨domain, isPending, rfl⟩ := Option.map_eq_some_iff.mp taken
      exact ⟨.start domain now, rfl, domain, isPending, rfl⟩
  | other event =>
      have registers (domain : String) (now : Time) : event ≠ .start domain now := by
        rintro rfl
        cases taken
      rw [step_other registers] at taken
      obtain ⟨world, moved, rfl⟩ := Option.map_eq_some_iff.mp taken
      exact ⟨event, moved, registers⟩

private theorem sound_step {site next : Site} {label : Label} (sound : Sound site)
    (taken : step site label = some next) (single : Single site label next) : Sound next where
  fresh := by
    obtain ⟨event, moved, _⟩ := step_world taken
    exact fresh_step moved sound.fresh
  one := single.1

private theorem oneRunning_start_iff {world : World} {domain : String} {now : Time}
    (fresh : world.objects world.nextId = none) (one : OneRunning world) :
    OneRunning (world.start domain now) ↔ ∀ id, ¬ Running world domain id := by
  constructor
  · intro single id running
    obtain rfl : id = world.nextId :=
      single domain id world.nextId ((running_start fresh).mpr (.inr running))
        ((running_start fresh).mpr (.inl ⟨rfl, rfl⟩))
    obtain ⟨_, job, found, _⟩ := running
    rw [fresh] at found
    cases found
  · intro idle wanted id other left right
    rcases (running_start fresh).mp left with ⟨rfl, rfl⟩ | before
    · rcases (running_start fresh).mp right with ⟨rfl, _⟩ | after
      · rfl
      · exact (idle other after).elim
    · rcases (running_start fresh).mp right with ⟨rfl, rfl⟩ | after
      · exact (idle id before).elim
      · exact one wanted id other before after

/-- From a sound state, one step leaves one running job for a domain exactly when it is not raced. -/
theorem single_iff_unraced {site next : Site} {label : Label} (sound : Sound site)
    (taken : step site label = some next) :
    Single site label next ↔ Unraced site label next := by
  have fresh := sound.fresh _ (Nat.le_refl _)
  obtain ⟨event, moved, isEvent⟩ := step_world taken
  cases label with
  | look domain now =>
      have one := oneRunning_of_step moved fresh isEvent sound.one
      obtain rfl := Option.some.inj taken
      exact ⟨fun _ => trivial, fun _ => ⟨one, fun id running => answer_of_running one running⟩⟩
  | launch position now =>
      obtain ⟨domain, isPending, rfl⟩ := isEvent
      have isStart : site.world.start domain now = next.world := Option.some.inj moved
      have onlyThere : OneRunning next.world ↔ ∀ id, ¬ Running site.world domain id :=
        isStart ▸ oneRunning_start_iff fresh sound.one
      constructor
      · intro single wanted isWanted
        obtain rfl : domain = wanted := Option.some.inj (isPending.symm.trans isWanted)
        exact onlyThere.mp single.1
      · intro unraced
        exact ⟨onlyThere.mpr (unraced domain isPending), trivial⟩
  | other event =>
      exact ⟨fun _ => trivial, fun _ => ⟨oneRunning_of_step moved fresh isEvent sound.one, trivial⟩⟩

/-- No domain ever has two running jobs, and a request made while one runs returns it, exactly when no
request registers its job after another of its domain did. -/
theorem along_single_iff (labels : List Label) :
    Along step Single Site.start labels ↔ Along step Unraced Site.start labels := by
  refine along_iff ?_ ?_ sound_start
  · intro site label next sound taken
    exact single_iff_unraced sound taken
  · intro site label next sound taken single
    exact sound_step sound taken single

/-- Two requests that both look before either registers its job run two scans of one domain. -/
theorem racingRequests_not_single :
    ¬ ∀ labels, Along step Single Site.start labels := by
  intro always
  obtain ⟨_, second⟩ := always
    [.look "example.com" 0, .look "example.com" 0, .launch 0 0, .launch 0 0] _ rfl
  obtain ⟨_, third⟩ := second _ rfl
  obtain ⟨_, fourth⟩ := third _ rfl
  obtain ⟨⟨one, _⟩, _⟩ := fourth _ rfl
  exact Nat.zero_ne_one
    (one "example.com" 0 1 ⟨by decide, _, rfl, rfl, rfl⟩ ⟨by decide, _, rfl, rfl, rfl⟩)

end ScanRequests
end DomainLens
