import DomainLens.Library.Words
import DomainLens.Python.CaseMapping

/-!
# Words of ASCII

Splitting at white space is splitting at every white character and leaving out what is empty.  The lower case of an
ASCII text is that of its characters.
-/

namespace DomainLens
namespace Python

open Unicode

/-! ## Splitting -/

private theorem splitFrom_eq_filter {word : Text} (solid : ∀ char ∈ word, isSpace char = false)
    (text : Text) :
    splitFrom word text = ((word.reverse ++ text).splitOnP isSpace).filter (· ≠ []) := by
  induction text generalizing word with
  | nil =>
      rw [splitFrom, List.append_nil,
        List.splitOnP_eq_singleton fun char member => solid char (List.mem_reverse.mp member)]
      by_cases empty : word = [] <;> simp [empty]
  | cons char text induction =>
      rw [splitFrom]
      split_ifs with space empty
      · rw [induction fun _ member => absurd member List.not_mem_nil, empty, List.reverse_nil,
          List.nil_append, List.nil_append, List.splitOnP_cons_eq_if_modifyHead, if_pos space]
        rfl
      · rw [induction fun _ member => absurd member List.not_mem_nil, List.splitOnP_append_cons_of_forall_mem
          (fun char member => solid char (List.mem_reverse.mp member)) char space]
        simp [empty]
      · rw [induction, List.reverse_cons, List.append_assoc]
        · rfl
        · intro other member
          rcases List.mem_cons.mp member with rfl | later
          · exact Bool.eq_false_iff.mpr space
          · exact solid other later

/-- `str.split` keeps the parts between white space that are not empty. -/
theorem split_eq_filter (text : Text) : split text = (text.splitOnP isSpace).filter (· ≠ []) :=
  splitFrom_eq_filter (fun _ member => absurd member List.not_mem_nil) text

private theorem filter_splitOnP_of_white {white : Text} (all : ∀ char ∈ white, isSpace char = true)
    (text : Text) :
    ((white ++ text).splitOnP isSpace).filter (· ≠ []) = (text.splitOnP isSpace).filter (· ≠ []) := by
  induction white with
  | nil => rfl
  | cons char white induction =>
      rw [List.cons_append, List.splitOnP_cons_eq_if_modifyHead, if_pos (all char List.mem_cons_self),
        ← induction fun other member => all other (List.mem_cons_of_mem _ member)]
      rfl

theorem split_append_white {white : Text} (all : ∀ char ∈ white, isSpace char = true) (text : Text) :
    split (text ++ white) = split text := by
  rw [split_eq_filter, split_eq_filter]
  cases white with
  | nil => rw [List.append_nil]
  | cons char white =>
      have rest := filter_splitOnP_of_white
        (fun other member => all other (List.mem_cons_of_mem _ member)) []
      rw [List.append_nil] at rest
      rw [List.splitOnP_append_cons _ _ (all char List.mem_cons_self), List.filter_append, rest]
      exact List.append_nil _

theorem split_white_append {white : Text} (all : ∀ char ∈ white, isSpace char = true) (text : Text) :
    split (white ++ text) = split text := by
  rw [split_eq_filter, split_eq_filter, filter_splitOnP_of_white all]

@[simp] theorem split_strip (text : Text) : split (strip text) = split text := by
  have left : split (lstrip text) = split text := by
    conv_rhs => rw [← List.takeWhile_append_dropWhile (p := isSpace) (l := text)]
    exact (split_white_append (fun _ => List.mem_takeWhile_imp) _).symm
  rw [← left]
  conv_rhs => rw [← @List.rdropWhile_append_rtakeWhile _ isSpace (lstrip text)]
  exact (split_append_white (fun _ => List.mem_rtakeWhile_imp) _).symm

theorem mem_of_mem_splitOnP {α : Type*} {separates : α → Bool} {values part : List α} {value : α}
    (isPart : part ∈ values.splitOnP separates) (inside : value ∈ part) : value ∈ values := by
  induction values generalizing part with
  | nil =>
      rw [List.splitOnP_nil, List.mem_singleton] at isPart
      exact isPart ▸ inside
  | cons head values induction =>
      rw [List.splitOnP_cons_eq_if_modifyHead] at isPart
      split_ifs at isPart
      · rcases List.mem_cons.mp isPart with rfl | later
        · cases inside
        · exact List.mem_cons_of_mem _ (induction later inside)
      · obtain ⟨first, rest, parts⟩ := List.exists_cons_of_ne_nil (List.splitOnP_ne_nil separates values)
        rw [parts, List.modifyHead_cons] at isPart
        rw [parts] at induction
        rcases List.mem_cons.mp isPart with rfl | later
        · rcases List.mem_cons.mp inside with rfl | old
          · exact List.mem_cons_self
          · exact List.mem_cons_of_mem _ (induction List.mem_cons_self old)
        · exact List.mem_cons_of_mem _ (induction (List.mem_cons_of_mem _ later) inside)

theorem splitOnP_congr {α : Type*} {separates other : α → Bool} {values : List α}
    (agree : ∀ value ∈ values, separates value = other value) :
    values.splitOnP separates = values.splitOnP other := by
  induction values with
  | nil => rw [List.splitOnP_nil, List.splitOnP_nil]
  | cons head values induction =>
      rw [List.splitOnP_cons_eq_if_modifyHead, List.splitOnP_cons_eq_if_modifyHead,
        agree head List.mem_cons_self,
        induction fun value member => agree value (List.mem_cons_of_mem _ member)]

/-! ## Joined words -/

theorem map_joinWords {change : Char → Char} (blank : change ' ' = ' ') (words : List Text) :
    (joinWords words).map change = joinWords (words.map (List.map change)) := by
  induction words with
  | nil => rfl
  | cons first words induction =>
      cases words with
      | nil => rfl
      | cons second words =>
          rw [joinWords, List.map_append, List.map_cons, blank, induction]
          · rfl
          · exact List.cons_ne_nil _ _

theorem mem_joinWords {words : List Text} {char : Char} (member : char ∈ joinWords words) :
    char = ' ' ∨ ∃ word ∈ words, char ∈ word := by
  induction words with
  | nil => cases member
  | cons first words induction =>
      cases words with
      | nil => exact .inr ⟨first, List.mem_cons_self, member⟩
      | cons second words =>
          rw [joinWords, List.mem_append, List.mem_cons] at member
          · rcases member with inFirst | blank | later
            · exact .inr ⟨first, List.mem_cons_self, inFirst⟩
            · exact .inl blank
            · rcases induction later with blank | ⟨word, isWord, inside⟩
              · exact .inl blank
              · exact .inr ⟨word, List.mem_cons_of_mem _ isWord, inside⟩
          · exact List.cons_ne_nil _ _

/-- What has no blank stands in joined words only where it stands in one of them. -/
theorem infix_joinWords_iff {word : Text} (clean : ' ' ∉ word) (filled : word ≠ []) (words : List Text) :
    word <:+: joinWords words ↔ ∃ other ∈ words, word <:+: other := by
  induction words with
  | nil => simp [joinWords, filled]
  | cons first words induction =>
      cases words with
      | nil => simp [joinWords]
      | cons second words =>
          rw [joinWords, Words.infix_append_cons_iff clean, induction, ← List.exists_mem_cons_iff]
          exact List.cons_ne_nil _ _

/-! ## White space at the ends -/

theorem isStripped_append {front back : Text} (filled : front ≠ []) (other : back ≠ [])
    (head : ∀ char ∈ front.head?, isSpace char = false)
    (last : ∀ char ∈ back.getLast?, isSpace char = false) : IsStripped (front ++ back) where
  head char member := by
    rw [List.head?_append_of_ne_nil _ filled] at member
    exact head char member
  last char member := by
    rw [List.getLast?_append_of_ne_nil _ other] at member
    exact last char member

theorem rstrip_append_cons {char : Char} (solid : isSpace char = false) (front back : Text) :
    rstrip (front ++ char :: back) = front ++ char :: rstrip back := by
  have kept : (char :: front.reverse).dropWhile isSpace = char :: front.reverse :=
    List.dropWhile_cons_of_neg (by simp [solid])
  rw [rstrip, rstrip, List.rdropWhile, List.rdropWhile, List.reverse_append, List.reverse_cons,
    List.append_assoc, List.singleton_append, List.dropWhile_append, kept]
  split_ifs with empty
  · rw [List.isEmpty_iff.mp empty]
    simp
  · simp

theorem mem_strip_of_solid {text : Text} {char : Char} (member : char ∈ text)
    (solid : isSpace char = false) : char ∈ strip text := by
  have left : char ∈ lstrip text := by
    rw [← List.takeWhile_append_dropWhile (p := isSpace) (l := text)] at member
    rcases List.mem_append.mp member with space | kept
    · exact absurd (List.mem_takeWhile_imp space) (by simp [solid])
    · exact kept
  rw [← @List.rdropWhile_append_rtakeWhile _ isSpace (lstrip text)] at left
  rcases List.mem_append.mp left with kept | space
  · exact kept
  · exact absurd (List.mem_rtakeWhile_imp space) (by simp [solid])

/-! ## Case -/

private theorem lower_ascii_code :
    ∀ code < 128, lowerChar (Char.ofNat code) = [(Char.ofNat code).toLower] := by
  decide +kernel

theorem lower_of_ascii {text : Text} (ascii : ∀ char ∈ text, char.toNat < 128) :
    lower text = text.map Char.toLower := by
  have general : ∀ (text before : Text), (∀ char ∈ text, char.toNat < 128) →
      lowerFrom before text = text.map Char.toLower := by
    intro text
    induction text with
    | nil => exact fun _ _ => rfl
    | cons char text induction =>
        intro before ascii
        have small := ascii char List.mem_cons_self
        have plain : char ≠ 'Σ' := by
          rintro rfl
          exact absurd small (by decide)
        have mapped := lower_ascii_code char.toNat small
        rw [Char.ofNat_toNat] at mapped
        rw [lowerFrom, lowerAt, if_neg plain, mapped,
          induction _ fun other member => ascii other (List.mem_cons_of_mem _ member)]
        rfl
  exact general text [] ascii

end Python
end DomainLens
