import Mathlib

/-!
# Patterns and pages of a query

A text matches a pattern of symbols and two wildcards, without regard to case, and a symbol behind an escape
stands for itself.  A page of the rows is cut off by a limit and an offset, and the pages one after the other
are the rows.
-/

namespace DomainLens
namespace Sql

variable {Symbol : Type*}

/-! ## Patterns -/

/-- A part of a pattern: any one symbol, any number of them, or this one in either case. -/
inductive Item (Symbol : Type*) where
  | one
  | many
  | same (symbol : Symbol)

/-- What reads a pattern: the two wildcards, the escape if there is one, and what two symbols that differ in
    case alone have in common. -/
structure Reading (Symbol : Type*) where
  one : Symbol
  many : Symbol
  escape : Option Symbol
  fold : Symbol → Symbol

variable [DecidableEq Symbol]

namespace Reading

variable (reading : Reading Symbol)

/-- A symbol of a pattern that is not escaped. -/
def item (symbol : Symbol) : Item Symbol :=
  if symbol = reading.many then .many else if symbol = reading.one then .one else .same symbol

/-- The items of a pattern, if it does not end with an escape; the flag says that the symbol in front is
    one. -/
def itemsFrom : Bool → List Symbol → Option (List (Item Symbol))
  | false, [] => some []
  | true, [] => none
  | true, symbol :: pattern => (itemsFrom false pattern).map (.same symbol :: ·)
  | false, symbol :: pattern =>
      if some symbol = reading.escape then itemsFrom true pattern
      else (itemsFrom false pattern).map (reading.item symbol :: ·)

/-- Whether a text is one of the items. -/
def fits : List (Item Symbol) → List Symbol → Bool
  | [], text => text.isEmpty
  | .many :: items, text => text.tails.any (fits items)
  | .one :: items, text =>
      match text with
      | [] => false
      | _ :: rest => fits items rest
  | .same symbol :: items, text =>
      match text with
      | [] => false
      | first :: rest => reading.fold first = reading.fold symbol && fits items rest

/-- `LIKE`. -/
def like (pattern text : List Symbol) : Bool :=
  (reading.itemsFrom false pattern).any fun items => reading.fits items text

variable {reading} {items : List (Item Symbol)} {word text : List Symbol}

theorem fits_same : reading.fits (word.map .same ++ items) text = true ↔
    ∃ front back, text = front ++ back ∧ front.map reading.fold = word.map reading.fold ∧
      reading.fits items back = true := by
  induction word generalizing text with
  | nil =>
      constructor
      · exact fun fits => ⟨[], text, rfl, rfl, fits⟩
      · rintro ⟨front, back, rfl, same, fits⟩
        rw [List.map_nil, List.map_eq_nil_iff] at same
        subst same
        exact fits
  | cons symbol word induction =>
      cases text with
      | nil =>
          constructor
          · exact fun fits => absurd fits Bool.false_ne_true
          · rintro ⟨front, back, none, same, -⟩
            obtain ⟨rfl, rfl⟩ := List.nil_eq_append_iff.mp none
            cases same
      | cons first rest =>
          rw [List.map_cons, List.cons_append, fits, Bool.and_eq_true, decide_eq_true_eq, induction]
          constructor
          · rintro ⟨same, front, back, rfl, others, fits⟩
            exact ⟨first :: front, back, rfl, by rw [List.map_cons, List.map_cons, same, others], fits⟩
          · rintro ⟨front, back, whole, same, fits⟩
            cases front with
            | nil => cases same
            | cons head front =>
                rw [List.cons_append] at whole
                obtain ⟨rfl, rfl⟩ := List.cons.inj whole
                obtain ⟨head, others⟩ := List.cons.inj same
                exact ⟨head, front, back, rfl, others, fits⟩

theorem fits_many : reading.fits (.many :: items) text = true ↔
    ∃ front back, text = front ++ back ∧ reading.fits items back = true := by
  rw [fits, List.any_eq_true]
  constructor
  · rintro ⟨back, isTail, fits⟩
    obtain ⟨front, rfl⟩ := (List.mem_tails _ _).mp isTail
    exact ⟨front, back, rfl, fits⟩
  · rintro ⟨front, back, rfl, fits⟩
    exact ⟨back, (List.mem_tails _ _).mpr (List.suffix_append _ _), fits⟩

theorem fits_infix : reading.fits (.many :: (word.map .same ++ [.many])) text = true ↔
    word.map reading.fold <:+: text.map reading.fold := by
  have every : ∀ rest, reading.fits [.many] rest = true := fun rest =>
    fits_many.mpr ⟨rest, [], (List.append_nil _).symm, rfl⟩
  simp only [fits_many, fits_same, every, and_true]
  constructor
  · rintro ⟨front, _, rfl, middle, back, rfl, same⟩
    refine ⟨front.map reading.fold, back.map reading.fold, ?_⟩
    rw [← same, List.map_append, List.map_append, List.append_assoc]
  · rintro ⟨front, back, whole⟩
    rw [List.append_assoc] at whole
    obtain ⟨start, rest, rfl, -, isRest⟩ := List.map_eq_append_iff.mp whole.symm
    obtain ⟨middle, behind, rfl, same, -⟩ := List.map_eq_append_iff.mp isRest
    exact ⟨start, middle ++ behind, rfl, middle, behind, rfl, same⟩

end Reading

/-! ## Pages -/

/-- `LIMIT` and `OFFSET`: without end if the limit is negative, from the beginning if the offset is. -/
def page {Row : Type*} (limit offset : ℤ) (rows : List Row) : List Row :=
  if 0 ≤ limit then (rows.drop offset.toNat).take limit.toNat else rows.drop offset.toNat

theorem flatMap_pages {Row : Type*} (rows : List Row) (size count : ℕ) :
    ((List.range count).flatMap fun index => (rows.drop (index * size)).take size) =
      rows.take (count * size) := by
  induction count with
  | zero => rw [Nat.zero_mul, List.take_zero, List.range_zero, List.flatMap_nil]
  | succ count induction =>
      rw [List.range_succ, List.flatMap_append, List.flatMap_singleton, induction, Nat.succ_mul,
        List.take_add]

/-- Rows are left out of the pages as they are of the whole, if those that stay come first. -/
theorem filter_page {Row : Type*} {stays : Row → Bool} {rows : List Row}
    (first : rows.Pairwise fun row later => stays later = true → stays row = true) (limit offset : ℕ) :
    ((rows.drop offset).take limit).filter stays = ((rows.filter stays).drop offset).take limit := by
  induction rows generalizing limit offset with
  | nil => simp
  | cons row rows induction =>
      obtain ⟨front, first⟩ := List.pairwise_cons.mp first
      by_cases keeps : stays row = true
      · rw [List.filter_cons_of_pos keeps]
        cases offset with
        | zero =>
            cases limit with
            | zero => rfl
            | succ limit =>
                have rest := induction first limit 0
                rw [List.drop_zero, List.drop_zero] at rest
                rw [List.drop_zero, List.drop_zero, List.take_succ_cons, List.take_succ_cons,
                  List.filter_cons_of_pos keeps, rest]
        | succ offset => exact induction first limit offset
      · have none : ∀ later ∈ row :: rows, ¬ stays later = true := by
          intro later member stay
          rcases List.mem_cons.mp member with rfl | behind
          · exact keeps stay
          · exact keeps (front later behind stay)
        rw [List.filter_eq_nil_iff.mpr none, List.drop_nil, List.take_nil]
        exact List.filter_eq_nil_iff.mpr fun later member =>
          none later (List.mem_of_mem_drop (List.mem_of_mem_take member))

/-- If rows are left out of the first pages as they are of the whole, those that stay come first. -/
theorem pairwise_of_filter_take {Row : Type*} {stays : Row → Bool} {rows : List Row}
    (same : ∀ limit ≤ rows.length, (rows.take limit).filter stays = (rows.filter stays).take limit) :
    rows.Pairwise fun row later => stays later = true → stays row = true := by
  induction rows with
  | nil => exact .nil
  | cons row rows induction =>
      by_cases keeps : stays row = true
      · refine .cons (fun _ _ _ => keeps) (induction fun limit short => ?_)
        have whole := same (limit + 1) (Nat.succ_le_succ short)
        rw [List.take_succ_cons, List.filter_cons_of_pos keeps, List.filter_cons_of_pos keeps,
          List.take_succ_cons] at whole
        exact (List.cons.inj whole).2
      · have one := same 1 (Nat.succ_le_succ (Nat.zero_le _))
        rw [List.take_succ_cons, List.take_zero, List.filter_cons_of_neg keeps,
          List.filter_cons_of_neg keeps, List.filter_nil] at one
        have none := List.filter_eq_nil_iff.mp ((List.take_eq_nil_iff.mp one.symm).resolve_left one_ne_zero)
        refine .cons (fun later member stay => absurd stay (none later member)) ?_
        exact List.pairwise_of_forall_mem_list fun _ _ later member stay => absurd stay (none later member)

end Sql
end DomainLens
