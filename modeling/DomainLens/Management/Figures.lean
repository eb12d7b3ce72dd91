import DomainLens.Management.Dashboard

/-!
# What the figures count

A figure of the dashboard and the list it opens onto are made from the same summaries.  The file
compares the two for every figure, and shows which number of the list the figure is.
-/

namespace DomainLens
namespace Management

open Python Run
open DomainPortfolio (GroupId)

/-! ## Summaries -/

/-- A summary counts its findings by severity and knows the state of every control. -/
structure Summary.Complete (summary : Summary) : Prop where
  counted : ∀ severity ∈ severities,
    summary.counts severity = (summary.findings.filter (·.severity = severity)).length
  listed : ∀ finding ∈ summary.findings, finding.severity ∈ severities
  controlled : ∀ control ∈ controlLabels, summary.controls.lookup control.1 ≠ none

private theorem lookup_map_ne_none {Value Other : Type*} {entries : List (Text × Value)}
    {change : Text × Value → Other} {key : Text} (known : key ∈ entries.map Prod.fst) :
    (entries.map fun entry => (entry.1, change entry)).lookup key ≠ none := by
  induction entries with
  | nil => cases known
  | cons first entries induction =>
      rw [List.map_cons, OrderedDict.lookup_cons_eq_ite]
      split
      · exact Option.some_ne_none _
      · rename_i differs
        exact induction ((List.mem_cons.mp known).resolve_left differs)

theorem complete_summary (advice : Advice) (data : Entries) (findings : List Finding) :
    (summary advice data findings).Complete where
  counted severity known := by
    simp only [summary, List.filter_map, List.length_map, List.filter_filter]
    congr 1
    refine List.filter_congr fun finding _ => ?_
    by_cases same : finding.severity = severity
    · simp [same, known]
    · simp [same]
  listed finding member := by
    simp only [summary, List.mem_map, List.mem_filter] at member
    obtain ⟨found, ⟨_, known⟩, rfl⟩ := member
    exact of_decide_eq_true known
  controlled control member := by
    refine lookup_map_ne_none ?_
    have known : control.1 ∈ controlLabels.map Prod.fst := List.mem_map_of_mem member
    exact known

theorem complete_of_recompute {advice : Advice} {active : List RiskAcceptance.Acceptance}
    {moment : advice.Moment} {data : Entries} {made : Summary}
    (isMade : recompute advice active moment data = some made) : made.Complete := by
  obtain ⟨findings, _, rfl⟩ := Option.map_eq_some_iff.mp isMade
  exact complete_summary advice data findings

/-! ## Loading -/

section Loading

variable {advice : Advice} {data : ScanKey → Entries} {world : World advice} {stored : Stored}

/-- The summary of a scan as the advice of the moment has it. -/
abbrev summaryOf (advice : Advice) (data : ScanKey → Entries) (world : World advice)
    (key : ScanKey) : Option Summary :=
  recompute advice world.active world.moment (data key)

/-- A key that is that of a stored scan. -/
def Stored.Holds (stored : Stored) (key : ScanKey) : Prop :=
  ∃ scan ∈ stored.scans, scan.key = key

theorem Stored.getScan_of_holds {key : ScanKey} (holds : stored.Holds key) :
    ∃ scan, stored.getScan key.id = some scan ∧ scan.key = key := by
  obtain ⟨scan, member, rfl⟩ := holds
  simp only [Stored.getScan, Scan.key]
  obtain ⟨found, isFound⟩ : ∃ found, stored.getScan scan.id = some found :=
    Option.isSome_iff_exists.mp (List.find?_isSome.mpr ⟨scan, member, decide_eq_true rfl⟩)
  have same : found.id = scan.id := by simpa using List.find?_some isFound
  obtain rfl := List.inj_on_of_nodup_map stored.keyed (List.mem_of_find?_eq_some isFound) member same
  exact ⟨found, isFound, rfl⟩

/-- What loading gives: the summary of every key, or an exception that one of them raises. -/
def Loads (advice : Advice) (data : ScanKey → Entries) (world : World advice) (keys : List ScanKey)
    (answer : Option (List (ScanKey × Summary) × Cache)) : Prop :=
  (∃ made after, answer = some (made, after) ∧ Sound advice data after ∧
      ∀ key ∈ keys, made.lookup key = summaryOf advice data world key ∧
        summaryOf advice data world key ≠ none) ∨
    (answer = none ∧ ∃ key ∈ keys, summaryOf advice data world key = none)

private theorem summarizeScan_cases (world : World advice) {cache : Cache}
    (sound : Sound advice data cache) (key : ScanKey) :
    (∃ made after, summarizeScan advice world.active world.moment key (data key) cache =
        some (made, after) ∧ summaryOf advice data world key = some made ∧
          Sound advice data after) ∨
      (summarizeScan advice world.active world.moment key (data key) cache = none ∧
        summaryOf advice data world key = none) := by
  have right := @transparent_of_sound advice data { world with cache } (.summarize key) sound
  have called : call advice data { world with cache } key =
    summarizeScan advice world.active world.moment key (data key) cache := rfl
  simp only [Transparent, called] at right
  cases answer : summarizeScan advice world.active world.moment key (data key) cache with
  | none =>
      rw [answer] at right
      exact .inr ⟨rfl, right.symm⟩
  | some made =>
      rw [answer] at right
      exact .inl ⟨made.1, made.2, rfl, right.symm, sound_call sound (called.trans answer)⟩

private theorem makeMissing_cases (world : World advice) (keys : List ScanKey) {cache : Cache}
    (sound : Sound advice data cache) (held : ∀ key ∈ keys, stored.Holds key) :
    (∃ made after, makeMissing advice data world stored keys cache = some (made, after) ∧
        Sound advice data after ∧ (∀ key ∈ keys, summaryOf advice data world key ≠ none) ∧
        ∀ key, made.lookup key = if key ∈ keys then summaryOf advice data world key else none) ∨
      (makeMissing advice data world stored keys cache = none ∧
        ∃ key ∈ keys, summaryOf advice data world key = none) := by
  induction keys generalizing cache with
  | nil => exact .inl ⟨[], cache, rfl, sound, by simp, by simp⟩
  | cons key keys induction =>
      obtain ⟨scan, isScan, same⟩ := Stored.getScan_of_holds (held key List.mem_cons_self)
      have later := fun other member => held other (List.mem_cons_of_mem key member)
      simp only [makeMissing, isScan, same]
      rcases summarizeScan_cases world sound key with
        ⟨made, after, answer, right, sound⟩ | ⟨answer, absent⟩
      · rw [answer, Option.bind_some]
        rcases induction sound later with ⟨rest, final, loaded, sound, present, looked⟩ |
          ⟨failed, other, member, absent⟩
        · refine .inl ⟨(key, made) :: rest, final, by rw [loaded]; rfl, sound, ?_, fun wanted => ?_⟩
          · refine List.forall_mem_cons.mpr ⟨?_, present⟩
            rw [right]
            exact Option.some_ne_none _
          · rw [OrderedDict.lookup_cons_eq_ite, looked]
            by_cases isKey : wanted = key
            · simp [isKey, right]
            · simp [isKey]
        · exact .inr ⟨by rw [failed]; rfl, other, List.mem_cons_of_mem key member, absent⟩
      · exact .inr ⟨by rw [answer]; rfl, key, List.mem_cons_self, absent⟩

private theorem lookup_held (cache : Cache) {keys : List ScanKey} {key : ScanKey}
    (member : key ∈ keys) :
    (keys.filterMap fun key =>
        (cache.lookup (.scan key)).map fun cached => (key, cached.summary)).lookup key =
      (cache.lookup (.scan key)).map Cached.summary := by
  have kept := @OrderedDict.lookup_filterMap _ _ _ key _ _
    (fun key => (cache.lookup (.scan key)).map Cached.summary) keys
  simp only [Option.map_map] at kept
  exact kept.trans (if_pos member)

theorem load_cases (world : World advice) (keys : List ScanKey) {cache : Cache} (sound : Sound advice data cache)
    (held : ∀ key ∈ keys, stored.Holds key) :
    Loads advice data world keys (load advice data world stored keys cache) := by
  have missing := makeMissing_cases world
    (keys.filter fun key => (cache.lookup (.scan key)).isNone) sound
    fun key member => held key (List.mem_of_mem_filter member)
  simp only [load]
  rcases missing with ⟨made, after, answer, sound', present, looked⟩ | ⟨failed, key, member, absent⟩
  · refine .inl ⟨_, after, by rw [answer]; rfl, sound', fun key member => ?_⟩
    rw [List.lookup_append, lookup_held cache member]
    cases found : cache.lookup (.scan key) with
    | none =>
        have here : key ∈ keys.filter fun key => (cache.lookup (.scan key)).isNone :=
          List.mem_filter.mpr ⟨member, by rw [found]; rfl⟩
        exact ⟨(looked key).trans (if_pos here), present key here⟩
    | some cached =>
        have right := (sound _ (OrderedDict.mem_of_lookup found) key rfl).2 world.active world.moment
        exact ⟨right.symm, fun absent => Option.some_ne_none _ (right.symm.trans absent)⟩
  · exact .inr ⟨by rw [failed]; rfl, key, List.mem_of_mem_filter member, absent⟩

/-! ## The newest scans -/

theorem mem_of_newest {scans : List Scan} {domain : Text} {scan : Scan}
    (isNewest : newest scans domain = some scan) : scan ∈ scans ∧ scan.domain = domain := by
  have among : ∀ (rest : List Scan) (held : Option Scan) (found : Scan),
      rest.foldl laterOf held = some found → held = some found ∨ found ∈ rest := by
    intro rest
    induction rest with
    | nil => exact fun held found same => .inl same
    | cons first rest induction =>
        intro held found same
        rcases induction _ found same with chosen | later
        · rw [laterOf] at chosen
          split at chosen
          · exact .inl chosen
          · exact .inr (Option.some.inj chosen ▸ List.mem_cons_self)
        · exact .inr (List.mem_cons_of_mem first later)
  rcases among _ _ _ isNewest with absent | member
  · cases absent
  · obtain ⟨member, same⟩ := List.mem_filter.mp member
    exact ⟨member, of_decide_eq_true same⟩

theorem holds_of_mem_latestScans {upTo : Text} {wanted : Option (List Text)} {since : Option Text}
    {entry : Text × ScanKey} (member : entry ∈ latestScans stored upTo wanted since) :
    stored.Holds entry.2 := by
  obtain ⟨domain, _, found⟩ := List.mem_filterMap.mp (List.mem_of_mem_filter member)
  obtain ⟨scan, isNewest, rfl⟩ := Option.map_eq_some_iff.mp found
  exact ⟨scan, List.mem_of_mem_filter (mem_of_newest isNewest).1, rfl⟩

theorem mem_byDomain {entries : List (Text × ScanKey)} {entry : Text × ScanKey} :
    entry ∈ byDomain entries ↔ entry ∈ entries :=
  (List.perm_insertionSort _ _).mem_iff

/-! ## The domains of the page and of its lists -/

/-- The period of a page: its scans, and the unit it is about. -/
def Covers (stored : Stored) (days : Int) (groupId : Option GroupId) (now : DateTime)
    (current : List (Text × ScanKey)) (group : Option Text) : Prop :=
  ∃ start wanted, startOf now (clampDays days) = some start ∧
    scope stored groupId = .ok (wanted, group) ∧
    current = latestScans stored now.isoformat wanted (some start.isoformat)

theorem assess_cases {days : Int} {groupId : Option GroupId} {now : DateTime} {cache after : Cache}
    {assessment : Assessment} (sound : Sound advice data cache)
    (assessed : assess advice data world stored days groupId now cache = .ok (assessment, after)) :
    ∃ (current : List (Text × ScanKey)) (previous : Text → Option Rating),
      Covers stored days groupId now current assessment.group ∧
      Sound advice data after ∧
      (∀ entry ∈ current, summaryOf advice data world entry.2 ≠ none) ∧
      assessment.domains = (byDomain current).filterMap fun entry =>
        (summaryOf advice data world entry.2).map fun summary =>
          ⟨entry.1, entry.2, summary, previous entry.1⟩ := by
  unfold assess at assessed
  split at assessed
  · cases assessed
  · rename_i start isStart
    split at assessed
    · cases assessed
    · rename_i wanted group isScope
      generalize isCurrent : latestScans stored now.isoformat wanted (some start.isoformat) = current
        at assessed
      generalize isBefore : latestScans stored start.isoformat wanted none = before at assessed
      simp only at assessed
      split at assessed
      · cases assessed
      · rename_i summaries later loaded
        obtain ⟨rfl, rfl⟩ := Prod.mk.inj (Except.ok.inj assessed)
        have held : ∀ key ∈ fromKeys (current.map Prod.snd ++
            current.filterMap fun entry => before.lookup entry.1), stored.Holds key := by
          intro key member
          rcases List.mem_append.mp (mem_fromKeys.mp member) with new | old
          · obtain ⟨entry, listed, rfl⟩ := List.mem_map.mp new
            exact holds_of_mem_latestScans (isCurrent ▸ listed)
          · obtain ⟨entry, _, found⟩ := List.mem_filterMap.mp old
            exact holds_of_mem_latestScans (isBefore ▸ OrderedDict.mem_of_lookup found)
        rcases load_cases world _ sound held with
          ⟨made, final, answer, sound', right⟩ | ⟨failed, _⟩
        · obtain ⟨rfl, rfl⟩ := Prod.mk.inj (Option.some.inj (loaded.symm.trans answer))
          have looked : ∀ entry ∈ current, summaries.lookup entry.2 =
              summaryOf advice data world entry.2 ∧
                summaryOf advice data world entry.2 ≠ none := fun entry member =>
            right entry.2 (mem_fromKeys.mpr (List.mem_append_left _ (List.mem_map_of_mem member)))
          refine ⟨current, fun domain => ((before.lookup domain).bind fun key =>
            summaries.lookup key).map Summary.rating, ⟨start, wanted, isStart, isScope, isCurrent.symm⟩,
            sound', fun entry member => (looked entry member).2, ?_⟩
          refine List.filterMap_congr fun entry member => ?_
          rw [(looked entry (mem_byDomain.mp member)).1]
        · rw [failed] at loaded
          cases loaded

/-- The rows of a list, of the domains of the page. -/
def rowsOf (stored : Stored) (kind : Kind) (query : Query) (domains : List Assessed) : List Row :=
  domains.filterMap fun assessed =>
    (pick kind query assessed.summary).map fun picked =>
      { domain := assessed.domain
        key := assessed.key
        summary := assessed.summary
        unit := unitOf stored assessed.domain
        picked }

theorem drill_of_covers {days : Int} {groupId : Option GroupId} {now : DateTime} {cache : Cache}
    {current : List (Text × ScanKey)} {group : Option Text} {kind : Kind} {query : Query}
    (previous : Text → Option Rating) (covers : Covers stored days groupId now current group)
    (sound : Sound advice data cache)
    (present : ∀ entry ∈ current, summaryOf advice data world entry.2 ≠ none)
    (isKind : Kind.ofText query.kind = some kind) :
    ∃ later, drill advice data world stored query days groupId now cache =
      .ok (listing kind query days group (sortRows kind (rowsOf stored kind query
        ((byDomain current).filterMap fun entry =>
          (summaryOf advice data world entry.2).map fun summary =>
            ⟨entry.1, entry.2, summary, previous entry.1⟩))), later) := by
  obtain ⟨start, wanted, isStart, isScope, isCurrent⟩ := covers
  have held : ∀ key ∈ fromKeys (current.map Prod.snd), stored.Holds key := by
    intro key member
    obtain ⟨entry, listed, rfl⟩ := List.mem_map.mp (mem_fromKeys.mp member)
    exact holds_of_mem_latestScans (isCurrent ▸ listed)
  rcases load_cases world _ sound held with
    ⟨made, later, answer, _, right⟩ | ⟨_, key, member, absent⟩
  · refine ⟨later, ?_⟩
    simp only [drill, isKind, isStart, isScope, ← isCurrent, answer, rowsOf, List.filterMap_filterMap]
    congr 4
    refine List.filterMap_congr fun entry member => ?_
    have looked := (right entry.2 (mem_fromKeys.mpr
      (List.mem_map_of_mem (mem_byDomain.mp member)))).1
    rw [looked]
    cases summaryOf advice data world entry.2 <;> rfl
  · obtain ⟨entry, listed, rfl⟩ := List.mem_map.mp (mem_fromKeys.mp member)
    exact absurd absent (present entry listed)

theorem perm_sortRows (kind : Kind) (rows : List Row) : (sortRows kind rows).Perm rows := by
  cases kind <;> exact List.perm_insertionSort _ _

end Loading

/-! ## Sums over the rows -/

/-- What the rows carry is what the domains carry, where a domain that is left out carries nothing. -/
theorem sum_rowsOf (stored : Stored) (kind : Kind) (query : Query) (domains : List Assessed)
    {carried : Row → Nat} (weight : Assessed → Nat)
    (carries : ∀ assessed ∈ domains, weight assessed =
      ((pick kind query assessed.summary).map fun picked => carried
        ⟨assessed.domain, assessed.key, assessed.summary, unitOf stored assessed.domain,
          picked⟩).getD 0) :
    ((sortRows kind (rowsOf stored kind query domains)).map carried).sum =
      (domains.map weight).sum := by
  rw [((perm_sortRows kind _).map carried).sum_eq]
  induction domains with
  | nil => rfl
  | cons first domains induction =>
      have here := carries first List.mem_cons_self
      have rest := induction fun assessed member => carries assessed (List.mem_cons_of_mem first member)
      rw [List.map_cons, List.sum_cons, ← rest, here]
      cases picked : pick kind query first.summary with
      | none => rw [rowsOf, List.filterMap_cons_none (by rw [picked]; rfl), ← rowsOf]; simp
      | some shown =>
          rw [rowsOf, List.filterMap_cons_some (by rw [picked]; rfl), ← rowsOf, List.map_cons,
            List.sum_cons]
          rfl

theorem length_filter_eq_sum {α : Type*} (keep : α → Bool) (values : List α) :
    (values.filter keep).length = (values.map fun value => if keep value then 1 else 0).sum := by
  induction values with
  | nil => rfl
  | cons first values induction => cases kept : keep first <;> simp [kept, induction, Nat.add_comm]

/-! ## Figures -/

inductive Figure where
  | domains
  | inOrder
  | rating (name : Text)
  | critical
  | high
  | severity (name : Text)
  | accepted
  | control (key : Text) (state : State)
  | finding (level title : Text)
  | category (name : Text)
  | improved
  | worsened
  | compared
  | notRescanned

namespace Figure

/-- The number the dashboard shows, where it shows the figure. -/
def shown (page : Dashboard) : Figure → Option Nat
  | .domains => some page.kpis.domains
  | .inOrder => some page.kpis.inOrder
  | .rating name => page.ratings.lookup name
  | .critical => some page.kpis.critical
  | .high => some page.kpis.high
  | .severity name => page.totals.lookup name
  | .accepted => some page.kpis.accepted
  | .control key state =>
      (page.controls.find? fun control => control.key = key).map fun control => control.count state
  | .finding level title =>
      (page.topFindings.find? fun top => top.severity = level ∧ top.title = title).map
        TopFinding.domains
  | .category name => (page.byCategory.lookup name).map fun counts => (severities.map counts).sum
  | .improved => some page.kpis.improved
  | .worsened => some page.kpis.worsened
  | .compared => some page.kpis.compared
  | .notRescanned => some page.kpis.notRescanned

/-- What the page asks for when the figure is opened; some figures do not open. -/
def query : Figure → Option Query
  | .domains => some ⟨"domains".toList, none, none, none⟩
  | .inOrder => some ⟨"rating".toList, some "A,B".toList, none, none⟩
  | .rating name => some ⟨"rating".toList, some name, none, none⟩
  | .critical => some ⟨"severity".toList, some "critical".toList, none, none⟩
  | .high => some ⟨"severity".toList, some "high".toList, none, none⟩
  | .severity name => some ⟨"severity".toList, some name, none, none⟩
  | .accepted => some ⟨"accepted".toList, none, none, none⟩
  | .control key state => some ⟨"control".toList, some key, none, some state.text⟩
  | .finding level title => some ⟨"finding".toList, some title, some level, none⟩
  | .category name => some ⟨"category".toList, some name, none, none⟩
  | .improved | .worsened | .compared | .notRescanned => none

/-- What a figure counts of a row, where it does not count the rows themselves. -/
def carried : Figure → Option (Row → Nat)
  | .critical | .high | .severity _ | .category _ =>
      some fun row => (row.picked.findings.getD []).length
  | .accepted => some fun row => row.summary.accepted
  | _ => none

/-- The number of a list that a figure is. -/
def counted (figure : Figure) (list : Listing) : Nat :=
  match figure.carried with
  | none => list.total
  | some carried => (list.domains.map carried).sum

end Figure

/-! ## Each figure -/

theorem Kind.ofText_text (kind : Kind) : Kind.ofText kind.text = some kind := by
  cases kind <;> decide

section Figures

variable {stored : Stored} {domains : List Assessed}

/-- The rows of a list give a number, and each has a part in it. -/
def Gives (stored : Stored) (domains : List Assessed) (figure : Figure) (query : Query)
    (number : Nat) : Prop :=
  ∃ kind, Kind.ofText query.kind = some kind ∧
    ((sortRows kind (rowsOf stored kind query domains)).map
      (figure.carried.getD fun _ => 1)).sum = number ∧
    ∀ assessed ∈ domains, ∀ picked, pick kind query assessed.summary = some picked →
      0 < (figure.carried.getD fun _ => 1)
        ⟨assessed.domain, assessed.key, assessed.summary, unitOf stored assessed.domain, picked⟩

theorem gives_domains : Gives stored domains .domains ⟨"domains".toList, none, none, none⟩
    domains.length := by
  refine ⟨.domains, Kind.ofText_text .domains, ?_, fun _ _ _ _ => Nat.one_pos⟩
  rw [sum_rowsOf stored .domains _ domains (fun _ => 1) fun _ _ => rfl]
  simp

theorem gives_bands (figure : Figure) (plain : figure.carried = none) {value : Text}
    (keep : Rating → Bool)
    (kept : ∀ letter, band letter ∈ value.splitOn ',' ↔ keep letter) :
    Gives stored domains figure ⟨"rating".toList, some value, none, none⟩
      (domains.filter fun assessed => keep assessed.summary.rating).length := by
  refine ⟨.rating, Kind.ofText_text .rating, ?_, fun _ _ _ _ => by rw [plain]; exact Nat.one_pos⟩
  rw [length_filter_eq_sum, plain]
  refine sum_rowsOf stored .rating _ domains _ fun assessed _ => ?_
  simp only [pick, Option.getD_some]
  by_cases here : band assessed.summary.rating ∈ value.splitOn ','
  · rw [if_pos here, if_pos ((kept _).mp here)]
    rfl
  · rw [if_neg here, if_neg fun keep => here ((kept _).mpr keep)]
    rfl

theorem gives_accepted : Gives stored domains .accepted ⟨"accepted".toList, none, none, none⟩
    (domains.map fun assessed => assessed.summary.accepted).sum := by
  refine ⟨.accepted, Kind.ofText_text .accepted, ?_, fun assessed _ picked shown => ?_⟩
  · refine sum_rowsOf stored .accepted _ domains _ fun assessed _ => ?_
    simp only [pick]
    split
    · assumption
    · rfl
  · simp only [pick] at shown
    split at shown
    · cases shown
    · exact Nat.pos_of_ne_zero ‹_›

theorem gives_severity (complete : ∀ assessed ∈ domains, assessed.summary.Complete)
    (figure : Figure) (carries : figure.carried = Figure.critical.carried) {severity : Text}
    (known : severity ∈ severities) :
    Gives stored domains figure ⟨"severity".toList, some severity, none, none⟩
      (total domains severity) := by
  refine ⟨.severity, Kind.ofText_text .severity, ?_, fun assessed member picked shown => ?_⟩
  · rw [carries]
    refine sum_rowsOf stored .severity _ domains _ fun assessed member => ?_
    simp only [pick]
    split
    · rename_i left
      exact left.resolve_left (not_not_intro known)
    · exact (complete assessed member).counted severity known
  · rw [carries]
    simp only [pick] at shown
    split at shown
    · cases shown
    · rename_i stays
      obtain rfl := Option.some.inj shown
      have counted := (complete assessed member).counted severity known
      exact Nat.pos_of_ne_zero fun zero => stays (.inr (counted.trans zero))

private theorem narrows_state (wanted state : State) :
    narrows (some wanted.text) state.text = decide (state = wanted) := by
  cases wanted <;> cases state <;> decide

theorem gives_control (complete : ∀ assessed ∈ domains, assessed.summary.Complete)
    {control : Text × Text} (known : control ∈ controlLabels) (state : State) :
    Gives stored domains (.control control.1 state)
      ⟨"control".toList, some control.1, none, some state.text⟩
      ((controlFigures domains control).count state) := by
  refine ⟨.control, Kind.ofText_text .control, ?_, fun _ _ _ _ => Nat.one_pos⟩
  simp only [controlFigures, length_filter_eq_sum]
  refine sum_rowsOf stored .control _ domains _ fun assessed member => ?_
  obtain ⟨held, isHeld⟩ := Option.ne_none_iff_exists'.mp
    ((complete assessed member).controlled control known)
  simp only [pick, Option.bind_some, isHeld, Option.getD_some, narrows_state, Option.some.injEq]
  by_cases same : held = state <;> simp [same]
  rfl

/-! ## Findings of many domains -/

private theorem nodup_mentioned (summary : Summary) : (mentioned summary).Nodup := nodup_fromKeys _

private theorem lookup_mention (domain : Text) (key : Text × Text) {keys : List (Text × Text)}
    (distinct : keys.Nodup) (table : List ((Text × Text) × List Text)) :
    ((keys.foldl (mention domain) table).lookup key).getD [] =
      (table.lookup key).getD [] ++ if key ∈ keys then [domain] else [] := by
  induction keys generalizing table with
  | nil => simp
  | cons first keys induction =>
      obtain ⟨new, distinct⟩ := List.nodup_cons.mp distinct
      rw [List.foldl_cons, induction distinct, mention, OrderedDict.lookup_assign]
      by_cases isFirst : key = first
      · simp [isFirst, new]
      · simp [isFirst]

private theorem nodup_mention (domain : Text) (keys : List (Text × Text))
    {table : List ((Text × Text) × List Text)} (distinct : (table.map Prod.fst).Nodup) :
    ((keys.foldl (mention domain) table).map Prod.fst).Nodup := by
  induction keys generalizing table with
  | nil => exact distinct
  | cons first keys induction => exact induction (OrderedDict.nodup_assign distinct)

private theorem common_from (key : Text × Text) (domains : List Assessed)
    {table : List ((Text × Text) × List Text)} (distinct : (table.map Prod.fst).Nodup) :
    let made := domains.foldl (fun table assessed =>
      (mentioned assessed.summary).foldl (mention assessed.domain) table) table
    (made.map Prod.fst).Nodup ∧
      (made.lookup key).getD [] = (table.lookup key).getD [] ++
        (domains.filter fun assessed => key ∈ mentioned assessed.summary).map Assessed.domain := by
  induction domains generalizing table with
  | nil => exact ⟨distinct, (List.append_nil _).symm⟩
  | cons first domains induction =>
      obtain ⟨apart, looked⟩ := induction (nodup_mention first.domain (mentioned first.summary) distinct)
      refine ⟨apart, looked.trans ?_⟩
      rw [lookup_mention first.domain key (nodup_mentioned first.summary)]
      by_cases here : key ∈ mentioned first.summary <;> simp [here]

theorem lookup_common {key : Text × Text} {held : List Text}
    (member : (key, held) ∈ common domains) :
    held.length = (domains.filter fun assessed => key ∈ mentioned assessed.summary).length := by
  obtain ⟨distinct, looked⟩ := @common_from key domains [] List.nodup_nil
  have found := OrderedDict.lookup_of_mem distinct member
  rw [found] at looked
  rw [show held = _ from looked]
  simp

private theorem mem_mentioned {summary : Summary} {level title : Text} :
    (level, title) ∈ mentioned summary ↔
      ∃ finding ∈ summary.findings, finding.severity = level ∧ finding.title = title := by
  simp [mentioned]

theorem gives_finding {level title : Text} (named : level ≠ []) :
    Gives stored domains (.finding level title)
      ⟨"finding".toList, some title, some level, none⟩
      (domains.filter fun assessed => (level, title) ∈ mentioned assessed.summary).length := by
  refine ⟨.finding, Kind.ofText_text .finding, ?_, fun _ _ _ _ => Nat.one_pos⟩
  rw [length_filter_eq_sum]
  refine sum_rowsOf stored .finding _ domains _ fun assessed member => ?_
  have hits : (assessed.summary.findings.filter fun finding =>
      some finding.title = some title && narrows (some level) finding.severity) = [] ↔
      (level, title) ∉ mentioned assessed.summary := by
    rw [List.filter_eq_nil_iff, mem_mentioned]
    simp only [narrows, Option.all_some, named, false_or, Option.some.injEq, Bool.and_eq_true,
      decide_eq_true_eq, not_exists, not_and]
    exact ⟨fun none finding member level title => none finding member title level.symm,
      fun none finding member title level => none finding member level.symm title⟩
  simp only [pick]
  by_cases here : (level, title) ∈ mentioned assessed.summary
  · rw [if_neg fun empty => hits.mp empty here]
    simp [here, Figure.carried]
  · rw [if_pos (hits.mpr here)]
    simp [here]

/-! ## Categories -/

private theorem lookup_tally (name level : Text) (findings : List Listed)
    (table : List (Text × (Text → Nat))) :
    (((findings.foldl tally table).lookup name).getD fun _ => 0) level =
      ((table.lookup name).getD fun _ => 0) level +
        ((findings.filter fun finding => finding.category = name).filter fun finding =>
          finding.severity = level).length := by
  induction findings generalizing table with
  | nil => simp
  | cons first findings induction =>
      rw [List.foldl_cons, induction, tally, OrderedDict.lookup_assign]
      by_cases isName : first.category = name
      · by_cases isLevel : first.severity = level
        · simp [isName, isLevel]
          omega
        · simp [isName, isLevel, Function.update_of_ne (Ne.symm isLevel)]
      · simp [isName, Ne.symm isName]

private theorem nodup_tally (findings : List Listed) {table : List (Text × (Text → Nat))}
    (distinct : (table.map Prod.fst).Nodup) :
    ((findings.foldl tally table).map Prod.fst).Nodup := by
  induction findings generalizing table with
  | nil => exact distinct
  | cons first findings induction => exact induction (OrderedDict.nodup_assign distinct)

private theorem sum_count_kinds {α Kind : Type*} [DecidableEq Kind] (kind : α → Kind)
    {kinds : List Kind} (distinct : kinds.Nodup) {values : List α}
    (known : ∀ value ∈ values, kind value ∈ kinds) :
    (kinds.map fun wanted => (values.filter fun value => kind value = wanted).length).sum =
      values.length := by
  induction values with
  | nil => simp
  | cons first values induction =>
      have rest := induction fun value member => known value (List.mem_cons_of_mem first member)
      have here : (kinds.map fun wanted => if kind first = wanted then 1 else 0).sum = 1 := by
        have once := List.count_eq_one_of_mem distinct (known first List.mem_cons_self)
        rw [List.count, List.countP_eq_length_filter, length_filter_eq_sum] at once
        refine (congrArg List.sum (List.map_congr_left fun wanted _ => ?_)).trans once
        by_cases same : kind first = wanted
        · simp [same]
        · simp [same, Ne.symm same]
      rw [List.length_cons, ← rest, Nat.add_comm, ← here, ← List.sum_map_add]
      congr 1
      refine List.map_congr_left fun wanted _ => ?_
      by_cases same : kind first = wanted <;> simp [same, Nat.add_comm]

theorem lookup_categories (complete : ∀ assessed ∈ domains, assessed.summary.Complete) {name : Text}
    {counts : Text → Nat} (member : (name, counts) ∈ categories domains) :
    (severities.map counts).sum = (domains.map fun assessed =>
      (assessed.summary.findings.filter fun finding => finding.category = name).length).sum := by
  have distinct : ((categories domains).map Prod.fst).Nodup := nodup_tally _ List.nodup_nil
  have found := OrderedDict.lookup_of_mem distinct member
  have counted : ∀ level, counts level = _ := fun level =>
    (congrFun (congrArg (fun held => Option.getD held fun _ => 0) found.symm) level).trans
      (lookup_tally name level _ [])
  simp only [List.lookup_nil, Option.getD_none, Nat.zero_add] at counted
  rw [List.map_congr_left fun level _ => counted level,
    sum_count_kinds Listed.severity (by decide)]
  · rw [List.filter_flatMap, List.length_flatMap]
  · intro finding listed
    obtain ⟨assessed, member, inside⟩ := List.mem_flatMap.mp (List.mem_of_mem_filter listed)
    exact (complete assessed member).listed finding inside

theorem gives_category (name : Text) :
    Gives stored domains (.category name) ⟨"category".toList, some name, none, none⟩
      (domains.map fun assessed =>
        (assessed.summary.findings.filter fun finding => finding.category = name).length).sum := by
  refine ⟨.category, Kind.ofText_text .category, ?_, fun assessed member picked shown => ?_⟩
  · refine sum_rowsOf stored .category _ domains _ fun assessed member => ?_
    simp only [pick, Option.some.injEq]
    split
    · rename_i empty
      rw [empty]
      rfl
    · exact (List.perm_insertionSort _ _).length_eq.symm
  · simp only [pick, Option.some.injEq] at shown
    split at shown
    · cases shown
    · rename_i hits
      obtain rfl := Option.some.inj shown
      simp only [Figure.carried, Option.getD_some, List.length_insertionSort]
      exact List.length_pos_iff.mpr hits

/-! ## The whole page -/

private theorem lookup_map_eq_some {Value : Type*} {given : Text → Value} {names : List Text}
    {name : Text} {value : Value}
    (found : (names.map fun name => (name, given name)).lookup name = some value) :
    name ∈ names ∧ value = given name := by
  obtain ⟨other, member, same⟩ := List.mem_map.mp (OrderedDict.mem_of_lookup found)
  obtain ⟨rfl, rfl⟩ := Prod.mk.inj same
  exact ⟨member, rfl⟩

private theorem splitOn_band : ∀ name ∈ bands, name.splitOn ',' = [name] := by decide

theorem inOrder_eq : inOrder domains = (domains.filter fun assessed =>
    decide (band assessed.summary.rating ∈ ["A".toList, "B".toList])).length := by
  simp only [inOrder, bandCount, length_filter_eq_sum, ← List.sum_map_add]
  congr 1
  refine List.map_congr_left fun assessed _ => ?_
  cases assessed.summary.rating <;> decide

theorem mem_topFindings {top : TopFinding} (member : top ∈ topFindings domains) :
    top.severity ≠ [] ∧ top.domains = (domains.filter fun assessed =>
      (top.severity, top.title) ∈ mentioned assessed.summary).length := by
  have sorted := (List.perm_insertionSort _ _).mem_iff.mp (List.mem_of_mem_take member)
  obtain ⟨⟨⟨level, title⟩, held⟩, graver, rfl⟩ := List.mem_map.mp sorted
  obtain ⟨listed, grave⟩ := List.mem_filter.mp graver
  refine ⟨fun empty => ?_, lookup_common listed⟩
  subst empty
  exact (by decide : ([] : Text) ∉ ["critical", "high", "medium"].map String.toList)
    (of_decide_eq_true grave)

theorem gives_of_shown (stored : Stored) {assessment : Assessment}
    (complete : ∀ assessed ∈ assessment.domains, assessed.summary.Complete) {now : DateTime}
    {days : Int} {figure : Figure} {number : Nat} {query : Query}
    (shown : figure.shown (figures now days assessment) = some number)
    (asks : figure.query = some query) :
    Gives stored assessment.domains figure query number := by
  cases figure with
  | domains =>
      obtain rfl := Option.some.inj shown
      obtain rfl := Option.some.inj asks
      exact gives_domains
  | inOrder =>
      obtain rfl := Option.some.inj shown
      obtain rfl := Option.some.inj asks
      have bands : "A,B".toList.splitOn ',' = ["A".toList, "B".toList] := by decide
      rw [show (figures now days assessment).kpis.inOrder = _ from inOrder_eq]
      exact gives_bands .inOrder rfl (fun letter => decide (band letter ∈ _)) fun letter => by
        rw [bands, decide_eq_true_eq]
  | rating name =>
      obtain ⟨known, rfl⟩ := lookup_map_eq_some shown
      obtain rfl := Option.some.inj asks
      exact gives_bands (.rating name) rfl (fun letter => decide (band letter = name))
        fun letter => by rw [splitOn_band name known, List.mem_singleton, decide_eq_true_eq]
  | critical =>
      obtain rfl := Option.some.inj shown
      obtain rfl := Option.some.inj asks
      exact gives_severity complete .critical rfl (by decide)
  | high =>
      obtain rfl := Option.some.inj shown
      obtain rfl := Option.some.inj asks
      exact gives_severity complete .high rfl (by decide)
  | severity name =>
      obtain ⟨known, rfl⟩ := lookup_map_eq_some shown
      obtain rfl := Option.some.inj asks
      exact gives_severity complete (.severity name) rfl known
  | accepted =>
      obtain rfl := Option.some.inj shown
      obtain rfl := Option.some.inj asks
      exact gives_accepted
  | control key state =>
      obtain ⟨control, found, rfl⟩ := Option.map_eq_some_iff.mp shown
      obtain ⟨labelled, known, rfl⟩ := List.mem_map.mp (List.mem_of_find?_eq_some found)
      have same := List.find?_some found
      simp only [decide_eq_true_eq] at same
      obtain rfl : labelled.1 = key := same
      obtain rfl := Option.some.inj asks
      exact gives_control complete known state
  | finding level title =>
      obtain ⟨top, found, rfl⟩ := Option.map_eq_some_iff.mp shown
      obtain ⟨named, counts⟩ := mem_topFindings (List.mem_of_find?_eq_some found)
      obtain ⟨rfl, rfl⟩ : top.severity = level ∧ top.title = title := by
        simpa using List.find?_some found
      obtain rfl := Option.some.inj asks
      rw [counts]
      exact gives_finding named
  | category name =>
      obtain ⟨counts, found, rfl⟩ := Option.map_eq_some_iff.mp shown
      have member := (List.perm_insertionSort _ _).mem_iff.mp (OrderedDict.mem_of_lookup found)
      obtain rfl := Option.some.inj asks
      rw [lookup_categories complete member]
      exact gives_category name
  | improved | worsened | compared | notRescanned => cases asks

end Figures

/-! ## Opening a figure -/

/-- In a state, every figure that opens is the number its list gives, and no domain of the list is
without a part in it. -/
def Opens (advice : Advice) (data : ScanKey → Entries) (world : World advice) : Prop :=
  ∀ (stored : Stored) (days : Int) (groupId : Option GroupId) (now : DateTime) (page : Dashboard)
    (after : Cache) (figure : Figure) (number : Nat) (query : Query),
    dashboard advice data world stored days groupId now world.cache = .ok (page, after) →
      figure.shown page = some number → figure.query = some query →
        ∃ list later, drill advice data world stored query days groupId now after = .ok (list, later) ∧
          figure.counted list = number ∧
          ∀ carried, figure.carried = some carried → ∀ row ∈ list.domains, 0 < carried row

theorem opens_of_sound {advice : Advice} {data : ScanKey → Entries} {world : World advice}
    (sound : Sound advice data world.cache) : Opens advice data world := by
  intro stored days groupId now page after figure number query opened shown asks
  obtain ⟨⟨assessment, left⟩, assessed, same⟩ :
      ∃ answer, assess advice data world stored days groupId now world.cache = .ok answer ∧
        (figures now days answer.1, answer.2) = (page, after) := by
    unfold dashboard at opened
    cases answer : assess advice data world stored days groupId now world.cache with
    | error failure =>
        rw [answer] at opened
        cases opened
    | ok given =>
        rw [answer] at opened
        exact ⟨given, rfl, Except.ok.inj opened⟩
  obtain ⟨rfl, rfl⟩ := Prod.mk.inj same
  obtain ⟨current, previous, covers, sound, present, isDomains⟩ := assess_cases sound assessed
  have complete : ∀ assessed ∈ assessment.domains, assessed.summary.Complete := by
    intro assessed member
    rw [isDomains] at member
    obtain ⟨entry, _, made⟩ := List.mem_filterMap.mp member
    obtain ⟨summary, isSummary, rfl⟩ := Option.map_eq_some_iff.mp made
    exact complete_of_recompute isSummary
  obtain ⟨kind, isKind, sum, parts⟩ := gives_of_shown stored complete shown asks
  obtain ⟨later, answer⟩ := drill_of_covers previous covers sound present isKind
  rw [← isDomains] at answer
  refine ⟨_, later, answer, ?_, fun carried carries row member => ?_⟩
  · unfold Figure.counted
    cases carries : figure.carried with
    | none =>
        rw [carries] at sum
        simpa [listing] using sum
    | some carried =>
        rw [carries] at sum
        exact sum
  · obtain ⟨assessed, inside, shown⟩ := List.mem_filterMap.mp
      ((perm_sortRows kind _).mem_iff.mp member)
    obtain ⟨picked, isPicked, rfl⟩ := Option.map_eq_some_iff.mp shown
    have part := parts assessed inside picked isPicked
    rw [carries] at part
    exact part

/-- In every state a run reaches, every figure that opens is the number its list gives. -/
theorem opens_along (advice : Advice) (data : ScanKey → Entries)
    (active : List RiskAcceptance.Acceptance) (moment : advice.Moment)
    (events : List (Event advice)) :
    Along (step advice data) (fun world _ _ => Opens advice data world)
      (World.start active moment) events :=
  along_of_invariant
    (fun _ _ _ sound taken => ⟨sound_step sound taken, opens_of_sound sound⟩)
    (sound_start active moment)

/-! ## Figures that count findings -/

/-- Every figure opens onto a list with as many domains. -/
def OpensExactly (advice : Advice) (data : ScanKey → Entries) (world : World advice) : Prop :=
  ∀ (stored : Stored) (days : Int) (groupId : Option GroupId) (now : DateTime) (page : Dashboard)
    (after : Cache) (figure : Figure) (number : Nat),
    dashboard advice data world stored days groupId now world.cache = .ok (page, after) →
      figure.shown page = some number →
        ∃ query list later, figure.query = some query ∧
          drill advice data world stored query days groupId now after = .ok (list, later) ∧
          list.total = number

/-- Advice that finds the same two critical findings in every scan. -/
def twoCritical : Advice where
  Moment := Unit
  found _ _ :=
    [⟨"critical".toList, "Web".toList, "Open port".toList, "web:port".toList, false⟩,
      ⟨"critical".toList, "TLS".toList, "Expired".toList, "tls:expired".toList, false⟩]
  notInDns _ := some []
  reputation _ := none

def oneScan : Stored where
  scans := [⟨1, "a.nl".toList, "2026-03-01T12:00:00+00:00".toList⟩]
  books := .empty
  keyed := List.nodup_singleton 1

private theorem isYear2026 : 1 ≤ 2026 ∧ 2026 ≤ 9999 := by decide

private theorem isMarch : 1 ≤ 3 ∧ 3 ≤ 12 := by decide

private theorem isTenthOfMarch : 1 ≤ 10 ∧ 10 ≤ daysInMonth 2026 3 := by decide

private theorem isHour : 12 < 24 := by decide

private theorem isWhole : 0 < 60 := by decide

private theorem isExact : 0 < 1000000 := by decide

def inMarch : DateTime where
  date := ⟨2026, 3, 10, isYear2026, isMarch, isTenthOfMarch⟩
  hour := ⟨12, isHour⟩
  minute := ⟨0, isWhole⟩
  second := ⟨0, isWhole⟩
  microsecond := ⟨0, isExact⟩

private theorem ok_of_toOption {Failure Answer : Type} {given : Except Failure Answer}
    {answer : Answer} (succeeded : given.toOption = some answer) : given = .ok answer := by
  cases given with
  | error failure => cases succeeded
  | ok made => exact congrArg Except.ok (Option.some.inj succeeded)

private theorem critical_counts :
    ((dashboard twoCritical (fun _ => []) (World.start [] ()) oneScan 90 none inMarch []).toOption.bind
      fun answer =>
        (drill twoCritical (fun _ => []) (World.start [] ()) oneScan
          ⟨"severity".toList, some "critical".toList, none, none⟩ 90 none inMarch
            answer.2).toOption.map fun list =>
          (Figure.critical.shown answer.1, list.1.total)) = some (some 2, 1) := by
  decide +kernel

/-- Two findings of one domain are two in the figure and one in the list. -/
theorem findings_not_domains :
    ¬ ∀ (advice : Advice) (data : ScanKey → Entries) (active : List RiskAcceptance.Acceptance)
        (moment : advice.Moment) (events : List (Event advice)),
      Along (step advice data) (fun world _ _ => OpensExactly advice data world)
        (World.start active moment) events := by
  intro claim
  obtain ⟨exactly, _⟩ := claim twoCritical (fun _ => []) [] () [.change [] ()] _ rfl
  obtain ⟨⟨page, after⟩, opened, counts⟩ := Option.bind_eq_some_iff.mp critical_counts
  obtain ⟨list, listed, pair⟩ := Option.map_eq_some_iff.mp counts
  obtain ⟨shown, one⟩ := Prod.mk.inj pair
  obtain ⟨query, other, later, asks, drilled, total⟩ :=
    exactly oneScan 90 none inMarch page after .critical 2 (ok_of_toOption opened) shown
  obtain rfl := Option.some.inj asks
  have same := Option.some.inj (listed.symm.trans (congrArg Except.toOption drilled))
  rw [same] at one
  exact absurd (one.symm.trans total) (by decide)

end Management
end DomainLens
