import DomainLens.ActiveScan.Ownership
import DomainLens.DomainPortfolio.Hostnames
import DomainLens.Python.CaseMapping

/-!
# What a proof covers

A verified entry covers its name and every name below it, unless it is for a name of one label.  An
attestation is such an entry, and stands until it is revoked.
-/

namespace DomainLens
namespace Ownership

open Python

/-! ## Names below a name -/

/-- The domain is the name, or ends with a dot and the name. -/
def Covers (name domain : Text) : Prop := domain = name ∨ ∃ front, domain = front ++ '.' :: name

private theorem covers_intercalate {labels rest : List Text} (nonempty : rest ≠ []) :
    Covers (['.'].intercalate rest) (['.'].intercalate (labels ++ rest)) := by
  induction labels with
  | nil => exact .inl rfl
  | cons label labels induction =>
      rw [List.cons_append, List.intercalate_cons_of_ne_nil (by simp [nonempty]), List.append_assoc]
      rcases induction with same | ⟨front, same⟩
      · rw [same]
        exact .inr ⟨label, rfl⟩
      · rw [same]
        exact .inr ⟨label ++ '.' :: front, by simp⟩

private theorem two_le_length_splitOn {name : Text} :
    2 ≤ (name.splitOn '.').length ↔ '.' ∈ name := by
  constructor
  · intro two
    by_contra absent
    rw [List.splitOn_eq_singleton absent] at two
    simp at two
  · intro member
    obtain ⟨front, back, rfl⟩ := List.append_of_mem member
    have first := List.length_pos_of_ne_nil (List.splitOn_ne_nil '.' front)
    have last := List.length_pos_of_ne_nil (List.splitOn_ne_nil '.' back)
    rw [List.splitOn_append_cons_self, List.length_append]
    omega

/-- The candidates are the names of two labels and more that cover the domain. -/
theorem mem_candidates {name domain : Text} :
    name ∈ candidates domain ↔ '.' ∈ name ∧ Covers name (normalize domain) := by
  rw [candidates, List.mem_map]
  constructor
  · rintro ⟨start, inside, rfl⟩
    rw [List.mem_range] at inside
    have two : 2 ≤ (((normalize domain).splitOn '.').drop start).length := by
      rw [List.length_drop]
      omega
    have nonempty := List.ne_nil_of_length_pos (Nat.zero_lt_of_lt two)
    have covers := @covers_intercalate (((normalize domain).splitOn '.').take start) _ nonempty
    rw [List.take_append_drop, List.intercalate_splitOn] at covers
    refine ⟨two_le_length_splitOn.mp ?_, covers⟩
    rw [List.splitOn_intercalate '.' _ nonempty]
    · exact two
    · intro label member dotted
      have dotless := not_separator_of_mem_splitOnP (List.mem_of_mem_drop member) '.' dotted
      simp at dotless
  · rintro ⟨dotted, same | ⟨front, same⟩⟩
    · have two := two_le_length_splitOn.mpr dotted
      exact ⟨0, List.mem_range.mpr (by rw [same]; omega), by
        rw [List.drop_zero, List.intercalate_splitOn, same]⟩
    · have two := two_le_length_splitOn.mpr dotted
      rw [same, List.splitOn_append_cons_self, List.length_append]
      refine ⟨(front.splitOn '.').length, List.mem_range.mpr (by omega), ?_⟩
      rw [List.drop_left, List.intercalate_splitOn]

/-- `is_verified` by the entries. -/
theorem isVerified_iff_exists {register : Register} {domain : Text} :
    isVerified register domain = true ↔
      ∃ entry ∈ register.entries, entry.status = "verified".toList ∧
        isExpired register entry = false ∧ entry.domain ∈ candidates domain := by
  rw [isVerified, verificationFor, List.find?_isSome]
  simp only [List.mem_insertionSort, List.mem_filter, decide_eq_true_eq, Bool.not_eq_true']
  constructor
  · rintro ⟨entry, ⟨member, verified, covers⟩, stands⟩
    exact ⟨entry, member, verified, stands, covers⟩
  · rintro ⟨entry, member, verified, stands, covers⟩
    exact ⟨entry, ⟨member, verified, covers⟩, stands⟩

/-! ## Attestations -/

/-- `_normalize_domain` of the application. -/
def normalizeDomain (value : Text) : Text :=
  let cut (front : Text) (domain : Text) : Text :=
    if front.isPrefixOf domain then domain.drop front.length else domain
  (cut "http://".toList (cut "https://".toList (lower (strip value)))).rdropWhile (· = '/')

/-- `_is_valid_domain`. -/
def isValidDomain (domain : Text) : Bool :=
  domain ≠ [] && domain.length ≤ 253 && dollar DomainPortfolio.isDomainName domain

/-- `_domain_or_none` of the routes. -/
def domainOrNone (value : Text) : Option Text :=
  if isValidDomain (normalizeDomain value) then some (normalizeDomain value) else none

/-- `get`. -/
def get (register : Register) (domain : Text) : Option Entry :=
  register.entries.find? fun entry => entry.domain = normalize domain

/-- `request_verification`, with the entry it returns. -/
def requestVerification (register : Register) (domain : Text) : Register × Option Entry :=
  let domain := normalize domain
  match get register domain with
  | some existing => (register, some existing)
  | none =>
      let next := { register with
        entries := register.entries ++
          [{ domain, status := "pending".toList, method := none, verifiedAt := none }] }
      (next, get next domain)

inductive Failure where
  | value (message : String)
  | type

/-- `attest`, at a moment as `isoformat` writes it. -/
def attest (register : Register) (domain moment note : Text) : Except Failure Register :=
  if strip note = [] then
    .error (.value "An attestation needs a reason, for whoever reads the audit log later")
  else
    match requestVerification register domain with
    | (_, none) => .error .type
    | (register, some entry) =>
        .ok { register with
          entries := register.entries.map fun row =>
            if row.domain = entry.domain then
              { row with
                status := "verified".toList
                method := some "admin".toList
                verifiedAt := some moment }
            else row }

/-! ## Names the routes accept -/

private theorem labels_of_isDomainName {name : Text}
    (isName : DomainPortfolio.isDomainName name = true) :
    ∃ front top, name.splitOn '.' = front ++ [top] ∧ front ≠ [] ∧
      (∀ label ∈ front, DomainPortfolio.isLabel label = true) ∧
      DomainPortfolio.isTopLabel top = true := by
  simp only [DomainPortfolio.isDomainName, Bool.and_eq_true, DomainPortfolio.labelsOf,
    List.all_eq_true] at isName
  obtain ⟨⟨⟨-, two⟩, labels⟩, top⟩ := isName
  have two := of_decide_eq_true two
  obtain ⟨top, last, isTop⟩ := (Option.any_eq_true _ _).mp top
  refine ⟨_, top, (List.dropLast_append_getLast? top last).symm, fun none => ?_, labels, isTop⟩
  have length := congrArg List.length none
  rw [List.length_dropLast, List.length_nil] at length
  omega

private theorem small_of_isDomainName {name : Text}
    (isName : DomainPortfolio.isDomainName name = true) {char : Char} (member : char ∈ name) :
    char.isLower = true ∨ char.isDigit = true ∨ char = '-' ∨ char = '.' := by
  obtain ⟨front, top, labels, -, areLabels, isTop⟩ := labels_of_isDomainName isName
  rw [← @List.intercalate_splitOn _ name _ _ '.', labels] at member
  rcases mem_intercalate member with dot | ⟨label, isLabel, inside⟩
  · exact .inr (.inr (.inr dot))
  · rcases List.mem_append.mp isLabel with former | last
    · have held := areLabels label former
      simp only [DomainPortfolio.isLabel, Bool.and_eq_true, List.all_eq_true, Bool.or_eq_true,
        beq_iff_eq] at held
      rcases held.2 char inside with (letter | digit) | hyphen
      · exact .inl letter
      · exact .inr (.inl digit)
      · exact .inr (.inr (.inl hyphen))
    · obtain rfl := List.mem_singleton.mp last
      simp only [DomainPortfolio.isTopLabel, Bool.and_eq_true, List.all_eq_true] at isTop
      exact .inl (isTop.2 char inside)

private theorem bounds_of_isDomainName {name : Text}
    (isName : DomainPortfolio.isDomainName name = true) {char : Char} (member : char ∈ name) :
    32 < char.toNat ∧ char.toNat < 128 ∧ (char.toNat < 65 ∨ 90 < char.toNat) := by
  rcases small_of_isDomainName isName member with letter | digit | rfl | rfl
  · simp only [Char.isLower, Bool.and_eq_true, decide_eq_true_eq, ge_iff_le,
      UInt32.le_iff_toNat_le] at letter
    have above : 97 ≤ char.toNat := letter.1
    have below : char.toNat ≤ 122 := letter.2
    omega
  · simp only [Char.isDigit, Bool.and_eq_true, decide_eq_true_eq, ge_iff_le,
      UInt32.le_iff_toNat_le] at digit
    have above : 48 ≤ char.toNat := digit.1
    have below : char.toNat ≤ 57 := digit.2
    omega
  · decide
  · decide

private theorem ascii_spaces : ∀ code < 128, isSpace (Char.ofNat code) = true → code ≤ 32 := by
  decide +kernel

private theorem solid_of_isDomainName {name : Text}
    (isName : DomainPortfolio.isDomainName name = true) :
    ∀ char ∈ name, isSpace char = false := by
  intro char member
  have bounds := bounds_of_isDomainName isName member
  by_contra space
  have most := ascii_spaces char.toNat bounds.2.1
    (by rw [Char.ofNat_toNat]; exact eq_true_of_ne_false space)
  omega

theorem normalize_of_isDomainName {name : Text}
    (isName : DomainPortfolio.isDomainName name = true) : normalize name = name ∧ '.' ∈ name := by
  obtain ⟨front, top, labels, nonempty, -, isTop⟩ := labels_of_isDomainName isName
  have dotted : '.' ∈ name := by
    refine two_le_length_splitOn.mp ?_
    have := List.length_pos_of_ne_nil nonempty
    rw [labels, List.length_append, List.length_singleton]
    omega
  refine ⟨?_, dotted⟩
  have small : lower name = name := lower_of_isLower fun char member =>
    isLower_of_ascii (bounds_of_isDomainName isName member).2.1
      (bounds_of_isDomainName isName member).2.2
  have stripped : strip name = name :=
    strip_of_isStripped (isStripped_of_solid (solid_of_isDomainName isName))
  rw [normalize, stripped, small, List.rdropWhile_eq_self_iff]
  intro hold isDot
  rw [decide_eq_true_eq] at isDot
  have covers := @covers_intercalate front _ (List.cons_ne_nil top [])
  rw [← labels, List.intercalate_splitOn, List.intercalate_singleton] at covers
  simp only [DomainPortfolio.isTopLabel, Bool.and_eq_true, decide_eq_true_eq,
    List.all_eq_true] at isTop
  have topHeld : top ≠ [] := List.ne_nil_of_length_pos (by omega)
  have last : name.getLast hold = top.getLast topHeld := by
    rcases covers with rfl | ⟨rest, rfl⟩
    · rfl
    · rw [List.getLast_append_of_ne_nil _ (List.cons_ne_nil _ _), List.getLast_cons topHeld]
  have letter := isTop.2 _ (List.getLast_mem topHeld)
  rw [← last, isDot] at letter
  exact absurd letter (by decide)

theorem normalize_of_isValidDomain {domain : Text} (valid : isValidDomain domain = true) :
    DomainPortfolio.isDomainName (normalize domain) = true := by
  simp only [isValidDomain, Bool.and_eq_true, dollar, Bool.or_eq_true, beq_iff_eq] at valid
  rcases valid.2 with isName | ⟨newline, isName⟩
  · rwa [(normalize_of_isDomainName isName).1]
  · have split : domain = domain.dropLast ++ ['\n'] :=
      (List.dropLast_append_getLast? '\n' newline).symm
    have solid := solid_of_isDomainName isName
    have same : normalize domain = normalize domain.dropLast := by
      have stripped : strip domain = strip domain.dropLast := by
        cases front : domain.dropLast with
        | nil => rw [split, front]; decide
        | cons head rest =>
            have first : isSpace head = false := solid head (by simp [front])
            rw [split, front, strip, strip, lstrip, lstrip, List.cons_append,
              List.dropWhile_cons_of_neg (by simp [first]),
              List.dropWhile_cons_of_neg (by simp [first]), ← List.cons_append, rstrip,
              List.rdropWhile_concat_pos _ _ _ (by decide)]
            rfl
      rw [normalize, normalize, stripped]
    rwa [same, (normalize_of_isDomainName isName).1]

/-! ## Attested names -/

private theorem isVerified_of_attested {register : Register} {host name moment : Text}
    (held : ∃ row ∈ register.entries, row.domain = name) (candidate : name ∈ candidates host) :
    isVerified { register with
      entries := register.entries.map fun row =>
        if row.domain = name then
          { row with
            status := "verified".toList
            method := some "admin".toList
            verifiedAt := some moment }
        else row } host = true := by
  obtain ⟨row, member, isName⟩ := held
  refine isVerified_iff_exists.mpr ⟨_, List.mem_map_of_mem member, ?_, ?_, ?_⟩
  · rw [if_pos isName]
  · rw [if_pos isName, isExpired]
    exact if_pos (.inr rfl)
  · rw [if_pos isName]
    exact isName ▸ candidate

theorem requestVerification_spec (register : Register) {domain : Text}
    (fixed : normalize (normalize domain) = normalize domain) :
    ∃ next entry, requestVerification register domain = (next, some entry) ∧
      entry.domain = normalize domain ∧ entry ∈ next.entries := by
  unfold requestVerification
  cases existing : get register (normalize domain) with
  | some entry =>
      have isDomain := List.find?_some existing
      rw [decide_eq_true_eq, fixed] at isDomain
      exact ⟨register, entry, by simp [existing], isDomain, List.mem_of_find?_eq_some existing⟩
  | none =>
      simp only [existing]
      let entry : Entry := ⟨normalize domain, "pending".toList, none, none⟩
      refine ⟨{ register with entries := register.entries ++ [entry] }, entry, ?_, rfl, ?_⟩
      · rw [get] at existing
        rw [get, List.find?_append, existing, fixed]
        simp only [decide_true, List.find?_cons_of_pos, Option.none_or, entry]
      · simp

/-- A proof covers exactly its name and the names below it, of names of two labels and more; and an
attestation of a name the routes accept covers it and all below it at once. -/
theorem covers_exactly :
    (∀ register domain, isVerified register domain = true ↔
      ∃ entry ∈ register.entries, entry.status = "verified".toList ∧
        isExpired register entry = false ∧ '.' ∈ entry.domain ∧
        Covers entry.domain (normalize domain)) ∧
    ∀ register value domain moment note, domainOrNone value = some domain → strip note ≠ [] →
      ∃ next, attest register domain moment note = .ok next ∧
        ∀ host, Covers (normalize domain) (normalize host) → isVerified next host = true := by
  refine ⟨fun register domain => ?_, fun register value domain moment note accepted given => ?_⟩
  · rw [isVerified_iff_exists]
    simp only [mem_candidates]
  · have valid : isValidDomain domain = true := by
      rw [domainOrNone] at accepted
      split_ifs at accepted with valid
      exact Option.some.inj accepted ▸ valid
    have isName := normalize_of_isValidDomain valid
    obtain ⟨fixed, dotted⟩ := normalize_of_isDomainName isName
    obtain ⟨next, entry, requested, isDomain, member⟩ := requestVerification_spec register fixed
    refine ⟨_, by rw [attest, if_neg given, requested], fun host covers => ?_⟩
    rw [isDomain]
    exact isVerified_of_attested ⟨entry, member, isDomain⟩ (mem_candidates.mpr ⟨dotted, covers⟩)

/-- A shop below an attested name is verified. -/
theorem shop_attested : ∃ next, attest ⟨[], 0, 365, fun _ => none⟩ "mine.nl".toList [] "ours".toList =
    .ok next ∧ isVerified next "shop.mine.nl".toList = true := by
  obtain ⟨next, attested, covered⟩ := covers_exactly.2 ⟨[], 0, 365, fun _ => none⟩ "Mine.nl".toList
    "mine.nl".toList [] "ours".toList (by decide +kernel) (by decide +kernel)
  exact ⟨next, attested, covered _ (.inr ⟨"shop".toList, by decide +kernel⟩)⟩

/-- An attestation of a host by its single label. -/
def intranetRegister : Register where
  entries := [⟨['i', 'n', 't', 'r', 'a'], "verified".toList, some "admin".toList, none⟩]
  now := 0
  maxAgeDays := 365
  fromisoformat _ := none

/-- An entry for a name of one label does not cover that name. -/
theorem intranet_not_verified : ¬ ∀ domain, isVerified intranetRegister domain = true ↔
    ∃ entry ∈ intranetRegister.entries, entry.status = "verified".toList ∧
      isExpired intranetRegister entry = false ∧ Covers entry.domain (normalize domain) := by
  intro exactly
  have covered := (exactly ['i', 'n', 't', 'r', 'a']).mpr
    ⟨⟨['i', 'n', 't', 'r', 'a'], "verified".toList, some "admin".toList, none⟩, List.mem_cons_self,
      rfl, by decide +kernel, .inl (by decide +kernel)⟩
  exact absurd covered (by decide +kernel)

end Ownership
end DomainLens
