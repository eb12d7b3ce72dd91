import DomainLens.ActiveScan.Attest
import DomainLens.Library.Since

/-!
# How a name comes to be verified

A name has a token from its first request on.  It is verified by a check that finds the token in DNS or on
the web, or by an attestation, and until it is revoked.
-/

namespace DomainLens
namespace Ownership

open Python Run

/-! ## Requests, checks, attestations and revocations -/

/-- What is found of a domain: the TXT values under the challenge label, and the status and the body of the
file, where the domain has public addresses only and the fetch succeeds. -/
structure Answers where
  txt : List Text
  page : Option (Nat × Text)

/-- The method by which `check` finds a token, `_check_dns` before `_check_http`. -/
def foundBy (answers : Answers) (token : Text) : Option Text :=
  if "domainlens-verification=".toList ++ token ∈ answers.txt then some "dns".toList
  else answers.page.bind fun page =>
    if page.1 = 200 ∧ token ∈ split page.2 then some "http".toList else none

/-- The table, with the column `token` on its own. -/
structure State where
  register : Register
  tokens : Text → Option Text

/-- No entry. -/
def State.start (now maxAgeDays : Int) (fromisoformat : Text → Option Int) : State where
  register := ⟨[], now, maxAgeDays, fromisoformat⟩
  tokens _ := none

/-- `request_verification`, with a fresh token. -/
def State.request (state : State) (domain fresh : Text) : State where
  register := (requestVerification state.register domain).1
  tokens :=
    match get state.register (normalize domain) with
    | some _ => state.tokens
    | none => Function.update state.tokens (normalize domain) (some fresh)

/-- The row of a name is marked as verified. -/
def Register.verify (register : Register) (name method moment : Text) : Register :=
  { register with
    entries := register.entries.map fun row =>
      if row.domain = name then
        { row with
          status := "verified".toList
          method := some method
          verifiedAt := some moment }
      else row }

/-- `check`, which the routes call for a domain that has an entry. -/
def State.check (state : State) (domain moment : Text) (answers : Answers) : State :=
  match get state.register domain with
  | none => state
  | some entry =>
      match (state.tokens entry.domain).bind (foundBy answers) with
      | none => state
      | some method =>
          { state with register := state.register.verify entry.domain method moment }

/-- `attest`. -/
def State.attest (state : State) (domain fresh moment note : Text) : State :=
  match Ownership.attest state.register domain moment note with
  | .error (.value _) => state
  | .error .type => state.request domain fresh
  | .ok register => { state.request domain fresh with register }

/-- `revoke`. -/
def State.revoke (state : State) (domain : Text) : State where
  register :=
    { state.register with
      entries := state.register.entries.filter fun row => row.domain ≠ normalize domain }
  tokens := Function.update state.tokens (normalize domain) none

/-- What the routes are asked for, and time that passes. -/
inductive Event where
  | request (value fresh : Text)
  | check (value moment : Text) (answers : Answers)
  | attest (value fresh moment note : Text)
  | revoke (value : Text)
  | wait (span : Nat)

/-- The routes do nothing with a value that is no domain. -/
def State.accept (state : State) (value : Text) (act : Text → State) : State :=
  match domainOrNone value with
  | none => state
  | some domain => act domain

def step (state : State) : Event → Option State
  | .request value fresh => some (state.accept value (state.request · fresh))
  | .check value moment answers => some (state.accept value (state.check · moment answers))
  | .attest value fresh moment note => some (state.accept value (state.attest · fresh moment note))
  | .revoke value => some (state.revoke (normalize value))
  | .wait span => some { state with register.now := state.register.now + span }

/-! ## What verifies a name -/

/-- The value is a form of the name the routes accept. -/
def Means (value name : Text) : Prop := ∃ domain, domainOrNone value = some domain ∧ normalize domain = name

/-- A check finds the token that the table holds, or an attestation states a reason. -/
inductive Proves (state : State) (name : Text) : Entry → Event → Prop
  | found {value moment method token : Text} {answers : Answers} (means : Means value name)
      (stored : state.tokens name = some token) (found : foundBy answers token = some method) :
      Proves state name ⟨name, "verified".toList, some method, some moment⟩ (.check value moment answers)
  | attested {value fresh moment note : Text} (means : Means value name) (given : strip note ≠ []) :
      Proves state name ⟨name, "verified".toList, some "admin".toList, some moment⟩
        (.attest value fresh moment note)

/-- The event revokes the name. -/
def Revokes (name : Text) : Event → Prop
  | .revoke value => normalize (normalize value) = name
  | _ => False

section Step

variable {state next : State} {event : Event} {entry : Entry}

private theorem normalize_of_domainOrNone {value domain : Text}
    (accepted : domainOrNone value = some domain) : normalize (normalize domain) = normalize domain := by
  rw [domainOrNone] at accepted
  split_ifs at accepted with valid
  obtain rfl := Option.some.inj accepted
  exact (normalize_of_isDomainName (normalize_of_isValidDomain valid)).1

private theorem entries_requestVerification (register : Register) (domain : Text) :
    ∃ pending : List Entry, (∀ row ∈ pending, row.status ≠ "verified".toList) ∧
      (requestVerification register domain).1.entries = register.entries ++ pending := by
  rw [requestVerification]
  cases get register (normalize domain) with
  | some held => exact ⟨[], by simp, (List.append_nil _).symm⟩
  | none => exact ⟨[_], List.forall_mem_singleton.mpr fun same => absurd same (by simp), rfl⟩

/-- What a step makes of the entries: some that are not verified are added, those of a name are revoked, or
those of a name that is proven are verified. -/
inductive Becomes (state : State) : Event → List Entry → Prop
  | revoked (value : Text) :
      Becomes state (.revoke value)
        (state.register.entries.filter fun row => row.domain ≠ normalize (normalize value))
  | added {event : Event} {pending : List Entry} (fresh : ∀ row ∈ pending, row.status ≠ "verified".toList) :
      Becomes state event (state.register.entries ++ pending)
  | proven {event : Event} {pending : List Entry} {register : Register} {name method moment : Text}
      (fresh : ∀ row ∈ pending, row.status ≠ "verified".toList)
      (base : register.entries = state.register.entries ++ pending)
      (proof : Proves state name ⟨name, "verified".toList, some method, some moment⟩ event) :
      Becomes state event (register.verify name method moment).entries

private theorem becomes_same : Becomes state event state.register.entries := by
  have same := @Becomes.added state event [] (by simp)
  rwa [List.append_nil] at same

private theorem becomes_accept {value : Text} {act : Text → State}
    (acts : ∀ domain, domainOrNone value = some domain → Becomes state event (act domain).register.entries) :
    Becomes state event (state.accept value act).register.entries := by
  rw [State.accept]
  split
  · exact becomes_same
  · exact acts _ ‹_›

theorem becomes_of_step (taken : step state event = some next) : Becomes state event next.register.entries := by
  cases event with
  | wait span =>
      obtain rfl := Option.some.inj taken
      exact becomes_same
  | revoke value =>
      obtain rfl := Option.some.inj taken
      exact .revoked value
  | request value fresh =>
      obtain rfl := Option.some.inj taken
      refine becomes_accept fun domain accepted => ?_
      obtain ⟨pending, fresh, added⟩ := entries_requestVerification state.register domain
      rw [State.request, added]
      exact .added fresh
  | check value moment answers =>
      obtain rfl := Option.some.inj taken
      refine becomes_accept fun domain accepted => ?_
      rw [State.check]
      split
      · exact becomes_same
      · rename_i held found
        have isName := List.find?_some found
        split
        · exact becomes_same
        · rename_i method proven
          obtain ⟨token, stored, method'⟩ := Option.bind_eq_some_iff.mp proven
          exact @Becomes.proven state _ [] _ _ _ _ (by simp) (List.append_nil _).symm
            (.found ⟨domain, accepted, (of_decide_eq_true isName).symm⟩ stored method')
  | attest value fresh moment note =>
      obtain rfl := Option.some.inj taken
      refine becomes_accept fun domain accepted => ?_
      obtain ⟨register, held, requested, isDomain, -⟩ :=
        requestVerification_spec state.register (normalize_of_domainOrNone accepted)
      obtain ⟨pending, fresh, added⟩ := entries_requestVerification state.register domain
      rw [State.attest, Ownership.attest]
      by_cases given : strip note = []
      · rw [if_pos given]
        exact becomes_same
      · rw [if_neg given, requested]
        rw [requested] at added
        exact .proven fresh added (.attested ⟨domain, accepted, isDomain.symm⟩ given)

/-- A step after which an entry is verified that was not is a proof of its name. -/
theorem proves_of_step (taken : step state event = some next) (isVerified : entry.status = "verified".toList)
    (absent : entry ∉ state.register.entries) (member : entry ∈ next.register.entries) :
    Proves state entry.domain entry event := by
  have becomes := becomes_of_step taken
  generalize next.register.entries = entries at becomes member
  cases becomes with
  | revoked value => exact absurd (List.mem_of_mem_filter member) absent
  | added fresh =>
      rcases List.mem_append.mp member with old | new
      exacts [absurd old absent, absurd isVerified (fresh entry new)]
  | @proven _ pending register name method moment fresh base proof =>
      obtain ⟨row, held, rfl⟩ := List.mem_map.mp member
      by_cases named : row.domain = name
      · rw [if_pos named, named]
        exact proof
      · rw [if_neg named] at absent isVerified
        rcases List.mem_append.mp (base ▸ held) with old | new
        exacts [absurd old absent, absurd isVerified (fresh row new)]

/-- A step that does not revoke a name leaves its entry, or proves the name again. -/
theorem stays_of_step (taken : step state event = some next) (member : entry ∈ state.register.entries)
    (kept : ¬ Revokes entry.domain event) : entry ∈ next.register.entries ∨
      ∃ current ∈ next.register.entries, Proves state entry.domain current event := by
  have becomes := becomes_of_step taken
  generalize next.register.entries = entries at becomes
  cases becomes with
  | revoked value =>
      exact .inl (List.mem_filter.mpr ⟨member, decide_eq_true fun named => kept named.symm⟩)
  | added fresh => exact .inl (List.mem_append_left _ member)
  | @proven _ pending register name method moment fresh base proof =>
      have moved := List.mem_map_of_mem (f := fun row : Entry => if row.domain = name then
        { row with status := "verified".toList, method := some method, verifiedAt := some moment } else row)
        (show entry ∈ register.entries from base ▸ List.mem_append_left _ member)
      by_cases named : entry.domain = name
      · rw [if_pos named] at moved
        exact .inr ⟨_, moved, named ▸ proof⟩
      · rw [if_neg named] at moved
        exact .inl moved

end Step

/-- A name that is verified after a run was proven in it, by an administrator's word or by the token that was
drawn for it before, and not revoked since; the proof has not expired. -/
theorem verified_of_run {now maxAgeDays : Int} {fromisoformat : Text → Option Int}
    {events : List Event} {final : State} {host : Text}
    (execution : run step (.start now maxAgeDays fromisoformat) events = some final)
    (verified : isVerified final.register host = true) :
    ∃ entry earlier event later middle, '.' ∈ entry.domain ∧ Covers entry.domain (normalize host) ∧
      isExpired final.register entry = false ∧ events = earlier ++ event :: later ∧
      run step (.start now maxAgeDays fromisoformat) earlier = some middle ∧
      Proves middle entry.domain entry event ∧ ∀ other ∈ later, ¬ Revokes entry.domain other := by
  obtain ⟨entry, member, isVerified, stands, candidate⟩ := isVerified_iff_exists.mp verified
  obtain ⟨dotted, covers⟩ := mem_candidates.mp candidate
  obtain ⟨earlier, event, later, middle, next, split, ran, taken, absent, made, kept⟩ :=
    @exists_since _ _ step (fun state => entry ∈ state.register.entries) _ _ events
      List.not_mem_nil member execution
  refine ⟨entry, earlier, event, later, middle, dotted, covers, stands, split, ran,
    proves_of_step taken isVerified absent made, fun other isLater revokes => ?_⟩
  obtain ⟨before, after, taken, held⟩ := kept other isLater
  cases other with
  | revoke value =>
      obtain rfl := Option.some.inj taken
      exact of_decide_eq_true (List.mem_filter.mp held).2 revokes.symm
  | request | check | attest | wait => exact revokes

/-- A name that is verified stays so, and all that lies below it, while it is not revoked and its proof has not
expired; that is the one it had, or one that was given since. -/
theorem stands_of_run {state final : State} {events : List Event} {entry : Entry}
    (execution : run step state events = some final) (member : entry ∈ state.register.entries)
    (proven : entry.status = "verified".toList) (kept : ∀ event ∈ events, ¬ Revokes entry.domain event) :
    ∃ current ∈ final.register.entries,
      (current = entry ∨ ∃ earlier event later middle, events = earlier ++ event :: later ∧
        run step state earlier = some middle ∧ Proves middle entry.domain current event) ∧
      (isExpired final.register current = false → ∀ host, '.' ∈ entry.domain →
        Covers entry.domain (normalize host) → isVerified final.register host = true) := by
  have stands {current : Entry} (member : current ∈ final.register.entries)
      (proven : current.status = "verified".toList) (live : isExpired final.register current = false)
      (host : Text) (dotted : '.' ∈ current.domain) (covers : Covers current.domain (normalize host)) :
      isVerified final.register host = true :=
    isVerified_iff_exists.mpr ⟨current, member, proven, live, mem_candidates.mpr ⟨dotted, covers⟩⟩
  induction events generalizing state entry with
  | nil =>
      obtain rfl := Option.some.inj execution
      exact ⟨entry, member, .inl rfl, stands member proven⟩
  | cons event events induction =>
      obtain ⟨next, taken, rest⟩ := run_cons_eq_some.mp execution
      rcases stays_of_step taken member (kept event (.head _)) with still | ⟨renewed, still, again⟩
      · obtain ⟨current, held, origin, covered⟩ :=
          induction rest still proven fun other later => kept other (.tail _ later)
        refine ⟨current, held, origin.imp_right ?_, covered⟩
        rintro ⟨earlier, last, later, middle, rfl, ran, made⟩
        exact ⟨event :: earlier, last, later, middle, rfl, run_cons_eq_some.mpr ⟨next, taken, ran⟩, made⟩
      · have same : renewed.domain = entry.domain ∧ renewed.status = "verified".toList := by
          cases again <;> exact ⟨rfl, rfl⟩
        rw [← same.1] at kept again ⊢
        obtain ⟨current, held, origin, covered⟩ :=
          induction rest still same.2 fun other later => kept other (.tail _ later)
        refine ⟨current, held, .inr ?_, covered⟩
        rcases origin with rfl | ⟨earlier, last, later, middle, rfl, ran, made⟩
        · exact ⟨[], event, events, state, rfl, rfl, again⟩
        · exact ⟨event :: earlier, last, later, middle, rfl, run_cons_eq_some.mpr ⟨next, taken, ran⟩, made⟩

/-- The token of a shop is found in DNS. -/
def sampleEvents : List Event :=
  [.request "Mine.nl".toList ['t'], .wait 5,
    .check "mine.nl".toList ['2'] ⟨["domainlens-verification=t".toList], none⟩]

/-- The shop is verified, and so is what lies below it. -/
theorem shop_found : ∃ entry earlier event later middle, '.' ∈ entry.domain ∧
    sampleEvents = earlier ++ event :: later ∧ Proves middle entry.domain entry event ∧
    ∀ other ∈ later, ¬ Revokes entry.domain other := by
  obtain ⟨entry, earlier, event, later, middle, dotted, -, -, split, -, proven, kept⟩ :=
    @verified_of_run 0 365 (fun _ => some 5) sampleEvents _ "www.mine.nl".toList rfl (by decide +kernel)
  exact ⟨entry, earlier, event, later, middle, dotted, split, proven, kept⟩

theorem shop_stands : ∃ state final, run step state
      [.check "mine.nl".toList ['3'] ⟨[], none⟩, .wait 7] = some final ∧
    isVerified final.register "www.mine.nl".toList = true := by
  let row : Entry := ⟨"mine.nl".toList, "verified".toList, some "dns".toList, some ['2']⟩
  let state : State := ⟨⟨[row], 0, 365, fun _ => some 5⟩, fun _ => some ['t']⟩
  obtain ⟨current, held, -, covered⟩ := @stands_of_run state _
    [.check "mine.nl".toList ['3'] ⟨[], none⟩, .wait 7] row rfl (List.mem_singleton_self row) rfl
    (by simp [Revokes])
  rw [List.mem_singleton.mp held] at covered
  exact ⟨state, _, rfl, covered rfl _ (by decide) (.inr ⟨"www".toList, by decide +kernel⟩)⟩

end Ownership
end DomainLens
