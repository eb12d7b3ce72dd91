import DomainLens.Python.Text

/-!
# Case mapping

Mapping a text to lower case twice is mapping it once, and no mapping brings white space.  Both
rest on the tables: the images of a run are members of no run, and no white space.
-/

namespace DomainLens
namespace Python

open Unicode

/-! ## Runs as bits -/

/-- A code point is the member of a run. -/
private def InRun (run : Nat × Nat × Nat × Nat) (code : Nat) : Prop :=
  run.1 ≤ code ∧ code ≤ run.2.1 ∧ (code - run.1) % run.2.2.1 = 0

/-- Multiples of a stride, one bit each. -/
private def strideBits (stride : Nat) : Nat → Nat
  | 0 => 0
  | count + 1 => strideBits stride count ||| 1 <<< (stride * count)

private theorem testBit_strideBits {stride count index : Nat} (below : index < count) :
    (strideBits stride count).testBit (stride * index) = true := by
  induction count with
  | zero => exact absurd below (Nat.not_lt_zero index)
  | succ count induction =>
      rw [strideBits, Nat.testBit_or, Bool.or_eq_true]
      rcases Nat.lt_succ_iff_lt_or_eq.mp below with before | rfl
      · exact Or.inl (induction before)
      · refine Or.inr ?_
        rw [Nat.testBit_shiftLeft, Bool.and_eq_true]
        simp

/-- The members of runs, each run moved to a place of its own. -/
private def bitsAt (place : Nat × Nat × Nat × Nat → Nat) (runs : List (Nat × Nat × Nat × Nat)) :
    Nat :=
  runs.foldr (fun run bits =>
    strideBits run.2.2.1 ((run.2.1 - run.1) / run.2.2.1 + 1) <<< place run ||| bits) 0

private theorem testBit_bitsAt {place : Nat × Nat × Nat × Nat → Nat}
    {runs : List (Nat × Nat × Nat × Nat)} {run : Nat × Nat × Nat × Nat} {code : Nat}
    (member : run ∈ runs) (inRun : InRun run code) :
    (bitsAt place runs).testBit (place run + (code - run.1)) = true := by
  induction runs with
  | nil => cases member
  | cons head runs induction =>
      rw [bitsAt, List.foldr_cons, Nat.testBit_or, Bool.or_eq_true]
      rcases List.mem_cons.mp member with rfl | later
      · refine Or.inl ?_
        obtain ⟨_, below, strided⟩ := inRun
        have whole := Nat.mod_add_div (code - run.1) run.2.2.1
        rw [strided, Nat.zero_add] at whole
        rw [Nat.testBit_shiftLeft, Bool.and_eq_true, decide_eq_true_eq, Nat.add_sub_cancel_left,
          ← whole]
        exact ⟨Nat.le_add_right _ _, testBit_strideBits
          (Nat.lt_succ_of_le (Nat.div_le_div_right (Nat.sub_le_sub_right below run.1)))⟩
      · exact Or.inr (induction later)

private theorem apart_of_bits {place : Nat × Nat × Nat × Nat → Nat}
    {runs others : List (Nat × Nat × Nat × Nat)} {run other : Nat × Nat × Nat × Nat} {code : Nat}
    (separate : bitsAt (·.1) others &&& bitsAt place runs = 0) (member : run ∈ runs)
    (inRun : InRun run code) (isOther : other ∈ others) :
    ¬ InRun other (place run + (code - run.1)) := by
  intro inOther
  have here := @testBit_bitsAt place _ _ _ member inRun
  have there := @testBit_bitsAt (·.1) _ _ _ isOther inOther
  rw [Nat.add_sub_cancel' inOther.1] at there
  have both := Nat.testBit_and (bitsAt (·.1) others) (bitsAt place runs)
    (place run + (code - run.1))
  rw [separate, here, there, Nat.zero_testBit] at both
  exact Bool.false_ne_true both

/-! ## What the tables hold -/

/-- The images of a run are characters. -/
private def valid (run : Nat × Nat × Nat × Nat) : Bool :=
  let (first, last, _, image) := run
  Nat.ble (image + (last - first) + 1) 55296 ||
    (Nat.ble 57344 image && Nat.ble (image + (last - first) + 1) 1114112)

private def spaceRuns : List (Nat × Nat × Nat × Nat) :=
  spaceRanges.map fun range => (range.1, range.2, 1, range.1)

private def digitRuns : List (Nat × Nat × Nat × Nat) :=
  decimalZeros.map fun least => (least, least + 9, 1, least)

/-- The characters with an upper case of more than one character, as runs. -/
private def expansionRuns : List (Nat × Nat × Nat × Nat) :=
  upperExpansions.map fun entry => (entry.1, entry.1, 1, entry.1)

/-- An upper case of more than one character has characters, and no white space. -/
private def solid (entry : Nat × List Nat) : Bool :=
  !entry.2.isEmpty && entry.2.all fun code =>
    (Nat.ble (code + 1) 55296 || (Nat.ble 57344 code && Nat.ble (code + 1) 1114112)) &&
      spaceRanges.all fun range => Nat.ble (range.2 + 1) code || Nat.ble (code + 1) range.1

-- One theorem, so that the tables are evaluated once.
private theorem tables_checked :
    (lowerRuns.all valid = true ∧ upperRuns.all valid = true ∧ upperExpansions.all solid = true) ∧
      bitsAt (·.1) ((304, 304, 1, 0) :: lowerRuns) &&& bitsAt (·.2.2.2) lowerRuns = 0 ∧
      bitsAt (·.1) spaceRuns &&& bitsAt (·.2.2.2) lowerRuns = 0 ∧
      bitsAt (·.1) spaceRuns &&& bitsAt (·.2.2.2) upperRuns = 0 ∧
      bitsAt (·.1) (expansionRuns ++ upperRuns) &&& bitsAt (·.1) digitRuns = 0 := by
  decide +kernel

private theorem lowerRuns_valid : lowerRuns.all valid = true := tables_checked.1.1

private theorem upperRuns_valid : upperRuns.all valid = true := tables_checked.1.2.1

private theorem upperExpansions_solid : upperExpansions.all solid = true := tables_checked.1.2.2

/-! ## Lower case -/

private theorem findRun_eq_some {runs : List (Nat × Nat × Nat × Nat)} {code image : Nat}
    (found : findRun runs code = some image) :
    ∃ run ∈ runs, InRun run code ∧ image = run.2.2.2 + (code - run.1) := by
  simp only [findRun, Option.map_eq_some_iff] at found
  obtain ⟨run, first, rfl⟩ := found
  have held := List.find?_some first
  simp only [Bool.and_eq_true, decide_eq_true_eq, beq_iff_eq] at held
  exact ⟨run, List.mem_of_find?_eq_some first, ⟨held.1.1, held.1.2, held.2⟩, rfl⟩

private theorem findRun_eq_none {runs : List (Nat × Nat × Nat × Nat)} {code : Nat}
    (outside : ∀ run ∈ runs, ¬ InRun run code) : findRun runs code = none := by
  simp only [findRun, Option.map_eq_none_iff, List.find?_eq_none]
  intro run member held
  simp only [Bool.and_eq_true, decide_eq_true_eq, beq_iff_eq] at held
  exact outside run member ⟨held.1.1, held.1.2, held.2⟩

theorem toNat_ofNat_of_valid {code : Nat} (isValid : code.isValidChar) :
    (Char.ofNat code).toNat = code := by
  rw [Char.ofNat, dif_pos isValid]
  rfl

/-- A character that is its own lower case, wherever it stands. -/
def IsLower (char : Char) : Prop := lowerChar char = [char] ∧ char ≠ 'Σ'

private theorem isValidChar_image {run : Nat × Nat × Nat × Nat} {code : Nat}
    (isValid : valid run = true) (inRun : InRun run code) :
    (run.2.2.2 + (code - run.1)).isValidChar := by
  obtain ⟨first, last, stride, image⟩ := run
  obtain ⟨above, below, _⟩ := inRun
  simp only [valid, Bool.or_eq_true, Bool.and_eq_true, Nat.ble_eq] at isValid
  simp only [Nat.isValidChar] at *
  omega

private theorem isLower_image {code image : Nat} (found : findRun lowerRuns code = some image) :
    IsLower (Char.ofNat image) := by
  obtain ⟨run, member, inRun, rfl⟩ := findRun_eq_some found
  have outside : ∀ other ∈ (304, 304, 1, 0) :: lowerRuns,
      ¬ InRun other (run.2.2.2 + (code - run.1)) :=
    fun other isOther => apart_of_bits tables_checked.2.1 member inRun isOther
  have value : (Char.ofNat (run.2.2.2 + (code - run.1))).toNat = run.2.2.2 + (code - run.1) :=
    toNat_ofNat_of_valid (isValidChar_image (List.all_eq_true.mp lowerRuns_valid run member) inRun)
  have unmapped : findRun lowerRuns (run.2.2.2 + (code - run.1)) = none :=
    findRun_eq_none fun other isOther => outside other (List.mem_cons_of_mem _ isOther)
  have notDotted : Char.ofNat (run.2.2.2 + (code - run.1)) ≠ 'İ' := by
    intro same
    have dotted : run.2.2.2 + (code - run.1) = 304 := by rw [← value, same]; rfl
    exact outside _ List.mem_cons_self (by rw [dotted]; exact ⟨Nat.le_refl _, Nat.le_refl _, rfl⟩)
  refine ⟨?_, ?_⟩
  · rw [lowerChar, if_neg notDotted, value, unmapped]
  · intro same
    have sigma : run.2.2.2 + (code - run.1) = 931 := by rw [← value, same]; rfl
    rw [sigma] at unmapped
    exact absurd unmapped (by decide)

private theorem isLower_of_unmapped {char : Char} (notDotted : char ≠ 'İ')
    (unmapped : findRun lowerRuns char.toNat = none) : IsLower char := by
  refine ⟨by rw [lowerChar, if_neg notDotted, unmapped], ?_⟩
  rintro rfl
  exact absurd unmapped (by decide)

theorem isLower_of_mem_lowerChar {char image : Char} (member : image ∈ lowerChar char) :
    IsLower image := by
  unfold lowerChar at member
  split_ifs at member with dotted
  · rcases List.mem_pair.mp member with rfl | rfl
    · exact isLower_of_unmapped (by decide) (by decide)
    · exact isLower_of_unmapped (by decide) (by decide)
  · split at member
    · rename_i code found
      rw [List.mem_singleton.mp member]
      exact isLower_image found
    · rename_i unmapped
      rw [List.mem_singleton.mp member]
      exact isLower_of_unmapped dotted unmapped

private theorem isLower_of_mem_lowerFrom {before text : Text} {char : Char}
    (member : char ∈ lowerFrom before text) : IsLower char := by
  induction text generalizing before with
  | nil => cases member
  | cons head text induction =>
      rcases List.mem_append.mp member with here | later
      · unfold lowerAt at here
        split_ifs at here
        · rw [List.mem_singleton.mp here]
          exact isLower_of_unmapped (by decide) (by decide)
        · rw [List.mem_singleton.mp here]
          exact isLower_of_unmapped (by decide) (by decide)
        · exact isLower_of_mem_lowerChar here
      · exact induction later

theorem isLower_of_mem_lower {text : Text} {char : Char} (member : char ∈ lower text) :
    IsLower char :=
  isLower_of_mem_lowerFrom member

private theorem lowerFrom_of_isLower {before text : Text} (small : ∀ char ∈ text, IsLower char) :
    lowerFrom before text = text := by
  induction text generalizing before with
  | nil => rfl
  | cons head text induction =>
      obtain ⟨fixed, notSigma⟩ := small head List.mem_cons_self
      rw [lowerFrom, lowerAt, if_neg notSigma, fixed,
        induction fun char member => small char (List.mem_cons_of_mem head member)]
      rfl

theorem lower_of_isLower {text : Text} (small : ∀ char ∈ text, IsLower char) :
    lower text = text :=
  lowerFrom_of_isLower small

private theorem ascii_unmapped :
    ∀ code < 128, code < 65 ∨ 90 < code → findRun lowerRuns code = none := by
  decide +kernel

theorem isLower_of_ascii {char : Char} (ascii : char.toNat < 128)
    (small : char.toNat < 65 ∨ 90 < char.toNat) : IsLower char := by
  refine isLower_of_unmapped ?_ (ascii_unmapped char.toNat ascii small)
  rintro rfl
  exact absurd ascii (by decide)

theorem lower_of_letters {text : Text} (letters : text.all Char.isLower = true) :
    lower text = text := by
  refine lower_of_isLower fun char member => ?_
  have letter := List.all_eq_true.mp letters char member
  simp only [Char.isLower, Bool.and_eq_true, decide_eq_true_eq, ge_iff_le,
    UInt32.le_iff_toNat_le] at letter
  have above : 97 ≤ char.toNat := letter.1
  have below : char.toNat ≤ 122 := letter.2
  exact isLower_of_ascii (by omega) (by omega)

@[simp] theorem lower_lower (text : Text) : lower (lower text) = lower text :=
  lower_of_isLower fun _ member => isLower_of_mem_lower member

/-! ## White space -/

private theorem isSpace_ofNat {code : Nat} (isValid : code.isValidChar)
    (outside : ∀ range ∈ spaceRanges, range.2 < code ∨ code < range.1) :
    isSpace (Char.ofNat code) = false := by
  rw [isSpace, inRanges, List.any_eq_false]
  intro range member
  have apart := outside range member
  rw [toNat_ofNat_of_valid isValid]
  simp only [Bool.and_eq_true, decide_eq_true_eq, not_and]
  omega

private theorem isSpace_image {runs : List (Nat × Nat × Nat × Nat)} {code image : Nat}
    (valids : runs.all valid = true)
    (clears : bitsAt (·.1) spaceRuns &&& bitsAt (·.2.2.2) runs = 0)
    (found : findRun runs code = some image) : isSpace (Char.ofNat image) = false := by
  obtain ⟨run, member, inRun, rfl⟩ := findRun_eq_some found
  have isValid := List.all_eq_true.mp valids run member
  refine isSpace_ofNat (isValidChar_image isValid inRun) fun range isRange => ?_
  have outside := apart_of_bits clears member inRun (List.mem_map_of_mem isRange)
  simp only [InRun, Nat.mod_one, and_true] at outside
  omega

theorem isSpace_of_mem_lowerChar {char image : Char} (solid : isSpace char = false)
    (member : image ∈ lowerChar char) : isSpace image = false := by
  unfold lowerChar at member
  split at member
  · rcases List.mem_pair.mp member with rfl | rfl <;> decide
  · split at member
    · rename_i code found
      rw [List.mem_singleton.mp member]
      exact isSpace_image lowerRuns_valid tables_checked.2.2.1 found
    · rw [List.mem_singleton.mp member]
      exact solid

private theorem mem_of_lookup {entries : List (Nat × List Nat)} {code : Nat} {codes : List Nat}
    (found : entries.lookup code = some codes) : (code, codes) ∈ entries := by
  obtain ⟨front, back, whole, _⟩ := List.lookup_eq_some_iff.mp found
  rw [whole]
  exact List.mem_append_right front List.mem_cons_self

theorem isSpace_of_mem_upperChar {char image : Char} (solid : isSpace char = false)
    (member : image ∈ upperChar char) : isSpace image = false := by
  unfold upperChar at member
  split at member
  · rename_i codes expansion
    obtain ⟨code, isCode, rfl⟩ := List.mem_map.mp member
    have whole := List.all_eq_true.mp upperExpansions_solid _ (mem_of_lookup expansion)
    have checked := List.all_eq_true.mp (Bool.and_eq_true _ _ ▸ whole).2 code isCode
    simp only [Bool.and_eq_true, Bool.or_eq_true, Nat.ble_eq, List.all_eq_true] at checked
    obtain ⟨isValid, apart⟩ := checked
    refine isSpace_ofNat ?_ fun range isRange => ?_
    · simp only [Nat.isValidChar]
      omega
    · have := apart range isRange
      omega
  · split at member
    · rename_i code found
      rw [List.mem_singleton.mp member]
      exact isSpace_image upperRuns_valid tables_checked.2.2.2.1 found
    · rw [List.mem_singleton.mp member]
      exact solid

private theorem lowerAt_ne_nil (before : Text) (char : Char) (after : Text) :
    lowerAt before char after ≠ [] := by
  unfold lowerAt lowerChar
  split_ifs
  · simp
  · simp
  · simp
  · split <;> simp

private theorem upperChar_ne_nil (char : Char) : upperChar char ≠ [] := by
  unfold upperChar
  split
  · rename_i codes expansion
    have whole := List.all_eq_true.mp upperExpansions_solid _ (mem_of_lookup expansion)
    have nonempty := (Bool.and_eq_true _ _ ▸ whole).1
    simpa using nonempty
  · split <;> simp

private theorem isSpace_of_mem_lowerAt {before after : Text} {char image : Char}
    (solid : isSpace char = false) (member : image ∈ lowerAt before char after) :
    isSpace image = false := by
  unfold lowerAt at member
  split_ifs at member
  · rw [List.mem_singleton.mp member]
    decide
  · rw [List.mem_singleton.mp member]
    decide
  · exact isSpace_of_mem_lowerChar solid member

private theorem lowerFrom_ne_nil {before text : Text} (nonempty : text ≠ []) :
    lowerFrom before text ≠ [] := by
  cases text with
  | nil => exact absurd rfl nonempty
  | cons head text =>
      intro empty
      exact lowerAt_ne_nil before head text (List.append_eq_nil_iff.mp empty).1

theorem lower_ne_nil {text : Text} (nonempty : text ≠ []) : lower text ≠ [] :=
  lowerFrom_ne_nil nonempty

theorem upper_ne_nil {text : Text} (nonempty : text ≠ []) : upper text ≠ [] := by
  cases text with
  | nil => exact absurd rfl nonempty
  | cons head text => simp [upper, upperChar_ne_nil head]

private theorem isSpace_of_getLast?_lowerFrom {before text : Text}
    (solid : ∀ char ∈ text.getLast?, isSpace char = false) :
    ∀ char ∈ (lowerFrom before text).getLast?, isSpace char = false := by
  induction text generalizing before with
  | nil => simp [lowerFrom]
  | cons head text induction =>
      intro char member
      rw [lowerFrom, List.getLast?_append] at member
      cases text with
      | nil => exact isSpace_of_mem_lowerAt (solid head rfl) (List.mem_of_getLast? member)
      | cons next text =>
          have nonempty : lowerFrom (head :: before) (next :: text) ≠ [] :=
            lowerFrom_ne_nil (List.cons_ne_nil next text)
          rw [List.getLast?_eq_some_getLast nonempty, Option.some_or,
            ← List.getLast?_eq_some_getLast nonempty] at member
          exact induction (fun last held => solid last (by simpa using held)) char member

theorem isStripped_lower {text : Text} (stripped : IsStripped text) : IsStripped (lower text) where
  head char member := by
    cases text with
    | nil => cases member
    | cons head text =>
        rw [lower, lowerFrom, List.head?_append_of_ne_nil _ (lowerAt_ne_nil [] head text)] at member
        exact isSpace_of_mem_lowerAt (stripped.head head rfl) (List.mem_of_mem_head? member)
  last := isSpace_of_getLast?_lowerFrom stripped.last

private theorem isSpace_of_getLast?_upper {text : Text}
    (solid : ∀ char ∈ text.getLast?, isSpace char = false) :
    ∀ char ∈ (upper text).getLast?, isSpace char = false := by
  intro char member
  rcases List.eq_nil_or_concat text with rfl | ⟨front, last, rfl⟩
  · cases member
  · rw [List.concat_eq_append, upper, List.flatMap_append, List.flatMap_singleton,
      List.getLast?_append_of_ne_nil _ (upperChar_ne_nil last)] at member
    exact isSpace_of_mem_upperChar (solid last (by simp)) (List.mem_of_getLast? member)

theorem isStripped_upper {text : Text} (stripped : IsStripped text) : IsStripped (upper text) where
  head char member := by
    cases text with
    | nil => cases member
    | cons head text =>
        rw [upper, List.flatMap_cons, List.head?_append_of_ne_nil _ (upperChar_ne_nil head)] at member
        exact isSpace_of_mem_upperChar (stripped.head head rfl) (List.mem_of_mem_head? member)
  last := isSpace_of_getLast?_upper stripped.last

/-! ## Digits -/

theorem upperChar_of_isDecimal {char : Char} (digit : isDecimal char = true) :
    upperChar char = [char] := by
  simp only [isDecimal, decimalValue, Option.isSome_map, List.find?_isSome] at digit
  obtain ⟨least, member, held⟩ := digit
  simp only [Bool.and_eq_true, decide_eq_true_eq] at held
  have inRun : InRun (least, least + 9, 1, least) char.toNat := by
    simp only [InRun, Nat.mod_one, and_true]
    omega
  have outside : ∀ run ∈ expansionRuns ++ upperRuns, ¬ InRun run char.toNat := by
    intro run isRun
    have apart := apart_of_bits tables_checked.2.2.2.2 (List.mem_map_of_mem member) inRun isRun
    rwa [Nat.add_sub_cancel' held.1] at apart
  have unexpanded : upperExpansions.lookup char.toNat = none := by
    rw [List.lookup_eq_none_iff]
    intro entry isEntry
    have apart := outside _ (List.mem_append_left upperRuns (List.mem_map_of_mem isEntry))
    simp only [InRun, Nat.mod_one, and_true] at apart
    simp only [bne_iff_ne, ne_eq]
    omega
  have unmapped : findRun upperRuns char.toNat = none :=
    findRun_eq_none fun run isRun => outside run (List.mem_append_right expansionRuns isRun)
  rw [upperChar, unexpanded, unmapped]

end Python
end DomainLens
