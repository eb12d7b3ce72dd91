import DomainLens.Library.OrderedDict
import DomainLens.Python.Text

/-!
# Content security policies

A policy is read into its directives, each with its sources.  A staged policy is compared with the one that is
enforced, directive by directive.
-/

namespace DomainLens
namespace WebSecurity

open Python

/-- The directives in the order of their first occurrence, with the sources of the last. -/
abbrev Policy := List (Text × List Text)

/-- The directive of a part, in lower case, and its sources. -/
def directiveOf (part : Text) : Option (Text × List Text) :=
  match split (strip part) with
  | [] => none
  | directive :: sources => some (lower directive, sources)

/-- `policy and str(policy).strip()`. -/
def isGiven (policy : Option Text) : Bool := strip (policy.getD []) ≠ []

/-- `parse_csp`. -/
def parseCsp (policy : Option Text) : Policy :=
  if isGiven policy then
    ((policy.getD []).splitOn ';').foldl
      (fun out part =>
        match directiveOf part with
        | none => out
        | some (directive, sources) => OrderedDict.assign directive sources out) []
  else []

/-! ## Comparing -/

/-- Sources of a directive that differ. -/
structure Change where
  directive : Text
  sources : List Text
deriving DecidableEq

structure Comparison where
  hasReportOnly : Bool
  identical : Bool
  stricter : List Change
  looser : List Change
  addedDirectives : List Change
  removedDirectives : List Change
deriving DecidableEq

def Policy.directives (policy : Policy) : List Text := policy.map Prod.fst

def Policy.sources (policy : Policy) (directive : Text) : List Text :=
  (policy.lookup directive).getD []

/-- `==` of two dictionaries. -/
def Policy.same (enforced staged : Policy) : Bool :=
  enforced.all (fun entry => staged.lookup entry.1 = some entry.2) &&
    staged.all (fun entry => enforced.lookup entry.1 = some entry.2)

/-- `sorted(set(policy) - set(other))`, with the sources. -/
def only (policy other : Policy) : List Change :=
  ((policy.directives.filter (· ∉ other.directives)).insertionSort (· ≤ ·)).map fun directive =>
    ⟨directive, policy.sources directive⟩

/-- `sorted(set(enforced) & set(staged))`. -/
def common (enforced staged : Policy) : List Text :=
  (enforced.directives.filter (· ∈ staged.directives)).insertionSort (· ≤ ·)

def noneSource : Text := "'none'".toList

/-- `dropped`. -/
def dropped (before after : List Text) : List Text := before.filter (· ∉ after)

/-- `gained`: what grants nothing is left out. -/
def gained (before after : List Text) : List Text :=
  after.filter fun source => source ∉ before && source ≠ noneSource

/-- The directives that have sources, with them. -/
def changes (directives : List Text) (sources : Text → List Text) : List Change :=
  directives.filterMap fun directive =>
    if sources directive = [] then none else some ⟨directive, sources directive⟩

/-- `compare_csp`. -/
def compareCsp (enforced reportOnly : Option Text) : Comparison :=
  let enforcedD := parseCsp enforced
  let stagedD := parseCsp reportOnly
  let before directive := (enforcedD.sources directive).map lower
  let after directive := (stagedD.sources directive).map lower
  if !isGiven reportOnly then ⟨false, false, [], [], [], []⟩
  else if enforcedD.same stagedD then ⟨true, true, [], [], [], []⟩
  else
    { hasReportOnly := true
      identical := false
      stricter := changes (common enforcedD stagedD) fun directive =>
        dropped (before directive) (after directive)
      looser := changes (common enforcedD stagedD) fun directive =>
        gained (before directive) (after directive)
      addedDirectives := only stagedD enforcedD
      removedDirectives := only enforcedD stagedD }

/-! ## The mirror -/

theorem nodup_parseCsp (policy : Option Text) : (parseCsp policy).directives.Nodup := by
  have kept : ∀ (parts : List Text) (out : Policy), out.directives.Nodup →
      (parts.foldl (fun out part =>
        match directiveOf part with
        | none => out
        | some (directive, sources) => OrderedDict.assign directive sources out) out).directives.Nodup := by
    intro parts
    induction parts with
    | nil => exact fun _ distinct => distinct
    | cons part parts induction =>
        intro out distinct
        rw [List.foldl_cons]
        cases directiveOf part with
        | none => exact induction out distinct
        | some entry => exact induction _ (OrderedDict.nodup_assign distinct)
  rw [parseCsp]
  split_ifs
  · exact kept _ [] List.nodup_nil
  · exact List.nodup_nil

theorem common_comm {enforced staged : Policy} (distinct : enforced.directives.Nodup)
    (distinctStaged : staged.directives.Nodup) : common staged enforced = common enforced staged := by
  have perm : (common staged enforced).Perm (common enforced staged) := by
    refine (List.perm_insertionSort _ _).trans (.trans ?_ (List.perm_insertionSort _ _).symm)
    refine (List.perm_ext_iff_of_nodup (distinctStaged.filter _) (distinct.filter _)).mpr ?_
    intro directive
    simp only [List.mem_filter, decide_eq_true_eq]
    exact and_comm
  exact perm.eq_of_pairwise (fun _ _ _ _ => le_antisymm) (List.pairwise_insertionSort _ _)
    (List.pairwise_insertionSort _ _)

theorem mem_common {enforced staged : Policy} {directive : Text} :
    directive ∈ common enforced staged ↔
      directive ∈ enforced.directives ∧ directive ∈ staged.directives := by
  rw [common, List.mem_insertionSort, List.mem_filter, decide_eq_true_eq]

theorem Policy.same_comm (enforced staged : Policy) : enforced.same staged = staged.same enforced :=
  Bool.and_comm _ _

/-- The other way round, the comparison says the same of the other policy. -/
def IsMirror (comparison mirrored : Comparison) : Prop :=
  mirrored.stricter = comparison.looser ∧ mirrored.looser = comparison.stricter ∧
    mirrored.addedDirectives = comparison.removedDirectives ∧
    mirrored.removedDirectives = comparison.addedDirectives ∧
    mirrored.identical = comparison.identical

/-- A source that allowed nothing is not among those that are no longer allowed. -/
def DropsOnlyGrants (comparison : Comparison) : Prop :=
  ∀ change ∈ comparison.stricter, noneSource ∉ change.sources

/-- Where both policies have a directive, `'none'` is in both or in neither. -/
def NoneInBoth (enforced staged : Policy) : Prop :=
  ∀ directive, directive ∈ enforced.directives → directive ∈ staged.directives →
    (noneSource ∈ (enforced.sources directive).map lower ↔
      noneSource ∈ (staged.sources directive).map lower)

private theorem gained_eq_dropped {before after : List Text}
    (granted : noneSource ∈ after → noneSource ∈ before) : gained before after = dropped after before := by
  refine List.filter_congr fun source member => ?_
  by_cases isNone : source = noneSource
  · subst isNone
    simp [granted member]
  · simp [isNone]

private theorem changes_congr {directives : List Text} {sources other : Text → List Text}
    (same : ∀ directive ∈ directives, sources directive = other directive) :
    changes directives sources = changes directives other :=
  List.filterMap_congr fun directive member => by rw [same directive member]

private theorem mem_changes {directives : List Text} {sources : Text → List Text} {change : Change} :
    change ∈ changes directives sources ↔
      change.directive ∈ directives ∧ sources change.directive ≠ [] ∧
        sources change.directive = change.sources := by
  simp only [changes, List.mem_filterMap]
  constructor
  · rintro ⟨directive, member, found⟩
    split_ifs at found with none
    cases found
    exact ⟨member, none, rfl⟩
  · rintro ⟨member, filled, same⟩
    refine ⟨change.directive, member, ?_⟩
    rw [if_neg filled, same]

private theorem compareCsp_of_not_given {enforced staged : Option Text} (blank : isGiven staged = false) :
    compareCsp enforced staged = ⟨false, false, [], [], [], []⟩ := by
  rw [compareCsp, blank]
  rfl

private theorem compareCsp_of_same {enforced staged : Option Text} (given : isGiven staged = true)
    (same : (parseCsp enforced).same (parseCsp staged) = true) :
    compareCsp enforced staged = ⟨true, true, [], [], [], []⟩ := by
  simp only [compareCsp, given, same, Bool.not_true, Bool.false_eq_true, if_false, if_true]

private theorem compareCsp_of_not_same {enforced staged : Option Text} (given : isGiven staged = true)
    (differ : (parseCsp enforced).same (parseCsp staged) = false) :
    compareCsp enforced staged =
      { hasReportOnly := true
        identical := false
        stricter := changes (common (parseCsp enforced) (parseCsp staged)) fun directive =>
          dropped (((parseCsp enforced).sources directive).map lower)
            (((parseCsp staged).sources directive).map lower)
        looser := changes (common (parseCsp enforced) (parseCsp staged)) fun directive =>
          gained (((parseCsp enforced).sources directive).map lower)
            (((parseCsp staged).sources directive).map lower)
        addedDirectives := only (parseCsp staged) (parseCsp enforced)
        removedDirectives := only (parseCsp enforced) (parseCsp staged) } := by
  simp only [compareCsp, given, differ, Bool.not_true, Bool.false_eq_true, if_false]

private theorem parseCsp_of_not_given {policy : Option Text} (blank : isGiven policy = false) :
    parseCsp policy = [] := by
  rw [parseCsp, blank]
  rfl

private theorem only_nil_ne_nil {policy : Policy} (filled : policy ≠ []) : only policy [] ≠ [] := by
  cases policy with
  | nil => exact absurd rfl filled
  | cons entry policy =>
      intro none
      have empty := List.map_eq_nil_iff.mp none
      have member : entry.1 ∈ ((Policy.directives (entry :: policy)).filter
          (· ∉ Policy.directives [])).insertionSort (· ≤ ·) :=
        (List.mem_insertionSort _).mpr
          (List.mem_filter.mpr ⟨List.mem_cons_self, decide_eq_true List.not_mem_nil⟩)
      rw [empty] at member
      cases member

private theorem not_isMirror_of_one {enforced staged : Option Text} (blank : isGiven enforced = false)
    (given : isGiven staged = true) :
    ¬IsMirror (compareCsp enforced staged) (compareCsp staged enforced) ∧
      ¬IsMirror (compareCsp staged enforced) (compareCsp enforced staged) := by
  have empty := parseCsp_of_not_given blank
  rw [compareCsp_of_not_given blank]
  cases same : (parseCsp enforced).same (parseCsp staged) with
  | true =>
      rw [compareCsp_of_same given same]
      exact ⟨fun mirror => (nomatch mirror.2.2.2.2), fun mirror => (nomatch mirror.2.2.2.2)⟩
  | false =>
      have filled : parseCsp staged ≠ [] := by
        intro none
        rw [empty, none] at same
        exact absurd same (by decide)
      have added := only_nil_ne_nil filled
      rw [compareCsp_of_not_same given same, empty]
      exact ⟨fun mirror => added mirror.2.2.2.1.symm, fun mirror => added mirror.2.2.1⟩

private theorem sources_of_same {enforced staged : Policy} (same : enforced.same staged = true)
    {directive : Text} (member : directive ∈ enforced.directives) (distinct : enforced.directives.Nodup) :
    enforced.sources directive = staged.sources directive := by
  obtain ⟨entry, isEntry, rfl⟩ := List.mem_map.mp member
  rw [Policy.same, Bool.and_eq_true, List.all_eq_true] at same
  have found := of_decide_eq_true (same.1 entry isEntry)
  rw [Policy.sources, Policy.sources, found, OrderedDict.lookup_of_mem distinct isEntry]

section Directives

variable {directives : List Text} {before after : Text → List Text}

private theorem changes_dropped_eq_gained
    (both : ∀ directive ∈ directives, noneSource ∈ after directive → noneSource ∈ before directive) :
    changes directives (fun directive => dropped (after directive) (before directive)) =
      changes directives fun directive => gained (before directive) (after directive) :=
  changes_congr fun directive member => (gained_eq_dropped (both directive member)).symm

private theorem noneSource_of_changes_eq
    (same : changes directives (fun directive => dropped (after directive) (before directive)) =
      changes directives fun directive => gained (before directive) (after directive)) :
    ∀ directive ∈ directives, noneSource ∈ after directive → noneSource ∈ before directive := by
  intro directive member isAfter
  by_contra notBefore
  have isDropped : noneSource ∈ dropped (after directive) (before directive) :=
    List.mem_filter.mpr ⟨isAfter, decide_eq_true notBefore⟩
  have change : (⟨directive, dropped (after directive) (before directive)⟩ : Change) ∈
      changes directives fun directive => dropped (after directive) (before directive) :=
    mem_changes.mpr ⟨member, List.ne_nil_of_mem isDropped, rfl⟩
  rw [same] at change
  have isGained : gained (before directive) (after directive) =
      dropped (after directive) (before directive) := (mem_changes.mp change).2.2
  rw [← isGained] at isDropped
  have granted := (List.mem_filter.mp isDropped).2
  simp at granted

private theorem dropsOnlyGrants_of
    (both : ∀ directive ∈ directives, noneSource ∈ before directive → noneSource ∈ after directive) :
    ∀ change ∈ changes directives (fun directive => dropped (before directive) (after directive)),
      noneSource ∉ change.sources := by
  intro change member isNone
  obtain ⟨listed, -, same⟩ := mem_changes.mp member
  rw [← same] at isNone
  obtain ⟨isBefore, notAfter⟩ := List.mem_filter.mp isNone
  exact of_decide_eq_true notAfter (both change.directive listed isBefore)

end Directives

/-- Comparing the other way round mirrors the comparison if and only if both policies or neither are given and
have `'none'` in the same directives. -/
theorem compareCsp_mirror_iff (enforced staged : Option Text) :
    IsMirror (compareCsp enforced staged) (compareCsp staged enforced) ∧
      DropsOnlyGrants (compareCsp enforced staged) ∧ DropsOnlyGrants (compareCsp staged enforced) ↔
    isGiven enforced = isGiven staged ∧ NoneInBoth (parseCsp enforced) (parseCsp staged) := by
  cases given : isGiven enforced with
  | false =>
      cases givenStaged : isGiven staged with
      | false =>
          rw [compareCsp_of_not_given given, compareCsp_of_not_given givenStaged,
            parseCsp_of_not_given given]
          exact iff_of_true ⟨⟨rfl, rfl, rfl, rfl, rfl⟩, nofun, nofun⟩ ⟨rfl, nofun⟩
      | true =>
          exact iff_of_false (fun both => (not_isMirror_of_one given givenStaged).1 both.1)
            (fun both => nomatch both.1)
  | true =>
      cases givenStaged : isGiven staged with
      | false =>
          exact iff_of_false (fun both => (not_isMirror_of_one givenStaged given).2 both.1)
            (fun both => nomatch both.1)
      | true =>
          rw [eq_self, true_and]
          cases same : (parseCsp enforced).same (parseCsp staged) with
          | true =>
              rw [compareCsp_of_same givenStaged same,
                compareCsp_of_same given ((Policy.same_comm _ _).trans same)]
              refine iff_of_true ⟨⟨rfl, rfl, rfl, rfl, rfl⟩, nofun, nofun⟩ fun directive member _ => ?_
              rw [sources_of_same same member (nodup_parseCsp _)]
          | false =>
              rw [compareCsp_of_not_same givenStaged same,
                compareCsp_of_not_same given ((Policy.same_comm _ _).trans same),
                common_comm (nodup_parseCsp enforced) (nodup_parseCsp staged)]
              constructor
              · rintro ⟨⟨looser, stricter, -⟩, -⟩ directive inEnforced inStaged
                have listed := mem_common.mpr ⟨inEnforced, inStaged⟩
                exact ⟨noneSource_of_changes_eq stricter.symm directive listed,
                  noneSource_of_changes_eq looser directive listed⟩
              · intro both
                have listed : ∀ directive ∈ common (parseCsp enforced) (parseCsp staged),
                    (noneSource ∈ ((parseCsp enforced).sources directive).map lower ↔
                      noneSource ∈ ((parseCsp staged).sources directive).map lower) :=
                  fun directive member => both directive (mem_common.mp member).1 (mem_common.mp member).2
                exact ⟨⟨changes_dropped_eq_gained fun directive member => (listed directive member).mpr,
                    (changes_dropped_eq_gained fun directive member => (listed directive member).mp).symm,
                    rfl, rfl, rfl⟩,
                  dropsOnlyGrants_of fun directive member => (listed directive member).mp,
                  dropsOnlyGrants_of fun directive member => (listed directive member).mpr⟩

/-- `'none'` that gives way to a source is listed as no longer allowed. -/
theorem none_dropped :
    (compareCsp (some "img-src 'none'".toList) (some "img-src 'self'".toList)).stricter =
      [⟨"img-src".toList, [noneSource]⟩] ∧
    (compareCsp (some "img-src 'self'".toList) (some "img-src 'none'".toList)).looser = [] := by
  decide +kernel

end WebSecurity
end DomainLens
