import Mathlib

/-!
# Collecting pages

A list is served in pages, each with the position of the next one if there is one.  A client collects
pages until it has enough, or there are no more; requests may fail.
-/

namespace DomainLens
namespace Paging

variable {Position Item Error : Type*}

/-- A page, with the position of the next one. -/
structure Page (Position Item : Type*) where
  items : List Item
  next : Option Position

/-- Ask for pages from a position on while fewer than `most` items are there, and keep `most` of them. -/
def collect (ask : Position → Except Error (Page Position Item)) (most : ℤ) (position : Position)
    (got : List Item) : Except Error (List Item) :=
  if (got.length : ℤ) < most then
    match ask position with
    | .error error => .error error
    | .ok page =>
        if page.items = [] then .ok (got.take most.toNat)
        else
          match page.next with
          | none => .ok ((got ++ page.items).take most.toNat)
          | some next => collect ask most next (got ++ page.items)
  else .ok (got.take most.toNat)
termination_by (most - got.length).toNat
decreasing_by
  rename_i short filled
  have positive := List.length_pos_of_ne_nil filled
  rw [List.length_append]
  omega

/-- The pages are those of a list: a page has what comes at its position, an empty page and one without
a next are the last, and the next page goes on after it. -/
structure Serves (page : Position → Page Position Item) (whole : List Item)
    (offset : Position → Nat) : Prop where
  items : ∀ position, (page position).items <+: whole.drop (offset position)
  empty : ∀ position, (page position).items = [] → whole.length ≤ offset position
  last : ∀ position, (page position).next = none →
    whole.length ≤ offset position + (page position).items.length
  next : ∀ position, ∀ next ∈ (page position).next,
    offset next = offset position + (page position).items.length

/-- Requests that fail where an error is given. -/
def asking (page : Position → Page Position Item) (failing : Position → Option Error)
    (position : Position) : Except Error (Page Position Item) :=
  match failing position with
  | some error => .error error
  | none => .ok (page position)

variable {page : Position → Page Position Item} {whole : List Item} {offset : Position → Nat}
  {failing : Position → Option Error}

private theorem take_append_of_prefix {items : List Item} {start : Nat}
    (begins : items <+: whole.drop start) :
    whole.take start ++ items = whole.take (start + items.length) := by
  obtain ⟨rest, isDrop⟩ := begins
  rw [List.take_add, ← isDrop, List.take_left' rfl]

private theorem page_of_answered {position : Position} {found : Page Position Item}
    (answered : asking page failing position = .ok found) : found = page position := by
  unfold asking at answered
  split at answered
  · cases answered
  · exact (Except.ok.inj answered).symm

theorem collect_eq_take (serves : Serves page whole offset) {most : ℤ} {position : Position}
    {got items : List Item} (sofar : got = whole.take (offset position))
    (collected : collect (asking page failing) most position got = .ok items) :
    items = whole.take most.toNat := by
  fun_induction collect (asking page failing) most position got with
  | case1 position got short error failed => cases collected
  | case2 position got short found answered noItems =>
      obtain rfl := page_of_answered answered
      obtain rfl := Except.ok.inj collected
      rw [sofar, List.take_of_length_le (serves.empty position noItems)]
  | case3 position got short found answered filled last =>
      obtain rfl := page_of_answered answered
      obtain rfl := Except.ok.inj collected
      rw [sofar, take_append_of_prefix (serves.items position),
        List.take_of_length_le (serves.last position last)]
  | case4 position got short found answered filled next isNext induction =>
      obtain rfl := page_of_answered answered
      refine induction ?_ collected
      rw [sofar, take_append_of_prefix (serves.items position), serves.next position next isNext]
  | case5 position got enough =>
      obtain rfl := Except.ok.inj collected
      have long : most.toNat ≤ offset position := by
        have := List.length_take_le (offset position) whole
        rw [← sofar] at this
        omega
      rw [sofar, List.take_take, min_eq_left long]

theorem collect_isOk (working : ∀ position, failing position = none) (most : ℤ)
    (position : Position) (got : List Item) :
    ∃ items, collect (asking page failing) most position got = .ok items := by
  fun_induction collect (asking page failing) most position got with
  | case1 position got short error failed =>
      rw [asking, working position] at failed
      cases failed
  | case2 => exact ⟨_, rfl⟩
  | case3 => exact ⟨_, rfl⟩
  | case4 position got short found answered filled next isNext induction => exact induction
  | case5 => exact ⟨_, rfl⟩

structure Paged (Position Item : Type*) where
  whole : List Item
  page : Position → Page Position Item
  first : Position
  offset : Position → Nat
  starts : offset first = 0
  serves : Serves page whole offset

def Paged.single (whole : List Item) : Paged Unit Item where
  whole := whole
  page _ := ⟨whole, none⟩
  first := ()
  offset _ := 0
  starts := rfl
  serves :=
    { items := fun _ => List.prefix_refl _
      empty := fun _ noItems => by simp [show whole = [] from noItems]
      last := fun _ _ => by simp
      next := by simp }

def Paged.collect (paged : Paged Position Item) (failing : Position → Option Error) (most : ℤ) :
    Except Error (List Item) :=
  Paging.collect (asking paged.page failing) most paged.first []

theorem Paged.collect_eq_take {paged : Paged Position Item} {most : ℤ} {items : List Item}
    (collected : paged.collect failing most = .ok items) : items = paged.whole.take most.toNat :=
  Paging.collect_eq_take paged.serves (by simp [paged.starts]) collected

theorem Paged.collect_of_working {paged : Paged Position Item}
    (working : ∀ position, failing position = none) (most : ℤ) :
    paged.collect failing most = .ok (paged.whole.take most.toNat) := by
  obtain ⟨items, collected⟩ := @collect_isOk _ _ _ paged.page failing working most paged.first []
  rw [← Paged.collect_eq_take collected]
  exact collected

end Paging
end DomainLens
