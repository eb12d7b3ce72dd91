import DomainLens.Library.Logged

/-!
# Attempts under a ceiling

A computation counts its attempts, and marks its state where it leaves something out because the count has
come to a ceiling.  It never counts further, and it is marked exactly if it goes further under a higher
ceiling.
-/

namespace DomainLens
namespace Ceiling

open Logged

variable {Entry Value State : Type}

/-- What a computation does under a ceiling, from a state with room for a number of attempts. -/
structure Stops (count : State → ℕ) (cut : State → Bool) (costly : Entry → Bool) (room : ℕ)
    (act : ℕ → State → Logged Entry State) : Prop where
  within : ∀ ceiling state log, count state + room ≤ ceiling →
    count (act ceiling state log).1 ≤ ceiling
  pays : ∀ ceiling state log,
    count state + (act ceiling state log).2.countP costly ≤ count (act ceiling state log).1
  keeps : ∀ ceiling state log, cut state = true → cut (act ceiling state log).1 = true
  same : ∀ ceiling state log, count state + room ≤ ceiling →
    cut (act ceiling state log).1 = false → act (ceiling + 1) state log = act ceiling state log
  more : ∀ ceiling state log, count state + room ≤ ceiling → cut state = false →
    cut (act ceiling state log).1 = true → ceiling < count (act (ceiling + 1) state log).1

namespace Stops

variable {count : State → ℕ} {cut : State → Bool} {costly : Entry → Bool} {room : ℕ}
  {act first second : ℕ → State → Logged Entry State}

theorem nothing : Stops count cut costly 0 fun _ state => (pure state : Logged Entry State) where
  within _ _ _ inside := inside
  pays _ _ _ := le_rfl
  keeps _ _ _ held := held
  same _ _ _ _ _ := rfl
  more _ _ _ _ uncut isCut := absurd (uncut.symm.trans isCut) Bool.false_ne_true

theorem count_le (stops : Stops count cut costly room act) (ceiling : ℕ) (state : State)
    (log : List Entry) : count state ≤ count (act ceiling state log).1 :=
  (Nat.le_add_right _ _).trans (stops.pays ceiling state log)

theorem more_room (stops : Stops count cut costly 0 act) : Stops count cut costly room act where
  within _ _ _ inside := stops.within _ _ _ (Nat.le_of_add_right_le inside)
  pays := stops.pays
  keeps := stops.keeps
  same _ _ _ inside := stops.same _ _ _ (Nat.le_of_add_right_le inside)
  more _ _ _ inside := stops.more _ _ _ (Nat.le_of_add_right_le inside)

theorem bind (stops : Stops count cut costly room first) (later : Stops count cut costly 0 second) :
    Stops count cut costly room fun ceiling state => first ceiling state >>= second ceiling where
  within ceiling state log inside := by
    rw [bind_apply]
    exact later.within _ _ _ (stops.within _ _ _ inside)
  pays ceiling state log := by
    rw [bind_apply]
    have here := stops.pays ceiling state log
    have there := later.pays ceiling (first ceiling state log).1 (log ++ (first ceiling state log).2)
    rw [List.countP_append]
    dsimp only
    omega
  keeps ceiling state log held := by
    rw [bind_apply]
    exact later.keeps _ _ _ (stops.keeps _ _ _ held)
  same ceiling state log inside uncut := by
    rw [bind_apply] at uncut
    have before : cut (first ceiling state log).1 = false := by
      rw [← Bool.not_eq_true]
      intro isCut
      exact absurd (uncut.symm.trans (later.keeps _ _ _ isCut)) Bool.false_ne_true
    rw [bind_apply, bind_apply, stops.same _ _ _ inside before,
      later.same _ _ _ (stops.within _ _ _ inside) uncut]
  more ceiling state log inside uncut isCut := by
    rw [bind_apply] at isCut ⊢
    cases before : cut (first ceiling state log).1 with
    | true =>
        exact (stops.more _ _ _ inside uncut before).trans_le (later.count_le _ _ _)
    | false =>
        rw [stops.same _ _ _ inside before]
        exact later.more _ _ _ (stops.within _ _ _ inside) before isCut

theorem ite {test : State → Prop} [DecidablePred test] (stops : Stops count cut costly room first)
    (other : Stops count cut costly room second) :
    Stops count cut costly room fun ceiling state =>
      if test state then first ceiling state else second ceiling state := by
  constructor
  all_goals intro ceiling state log
  all_goals split_ifs
  · exact stops.within ceiling state log
  · exact other.within ceiling state log
  · exact stops.pays ceiling state log
  · exact other.pays ceiling state log
  · exact stops.keeps ceiling state log
  · exact other.keeps ceiling state log
  · exact stops.same ceiling state log
  · exact other.same ceiling state log
  · exact stops.more ceiling state log
  · exact other.more ceiling state log

theorem spend {paid : State → State} {attempt : Logged Entry Value}
    {next : Value → ℕ → State → Logged Entry State}
    (counts : ∀ state, count (paid state) = count state + 1)
    (marks : ∀ state, cut (paid state) = cut state) (single : ∀ log, (attempt log).2.countP costly ≤ 1)
    (stops : ∀ value, Stops count cut costly 0 (next value)) :
    Stops count cut costly 1 fun ceiling state =>
      attempt >>= fun value => next value ceiling (paid state) where
  within ceiling state log inside := by
    rw [bind_apply]
    exact (stops _).within _ _ _ (counts state ▸ inside)
  pays ceiling state log := by
    rw [bind_apply]
    have here := single log
    have there := (stops (attempt log).1).pays ceiling (paid state) (log ++ (attempt log).2)
    rw [counts] at there
    rw [List.countP_append]
    dsimp only
    omega
  keeps ceiling state log held := by
    rw [bind_apply]
    exact (stops _).keeps _ _ _ ((marks state).trans held)
  same ceiling state log inside uncut := by
    rw [bind_apply] at uncut
    rw [bind_apply, bind_apply, (stops _).same _ _ _ (counts state ▸ inside) uncut]
  more ceiling state log inside uncut isCut := by
    rw [bind_apply] at isCut ⊢
    exact (stops _).more _ _ _ (counts state ▸ inside) ((marks state).trans uncut) isCut

theorem after {free : Logged Entry Value} {next : Value → ℕ → State → Logged Entry State}
    (costs : ∀ log, (free log).2.countP costly = 0)
    (stops : ∀ value, Stops count cut costly 0 (next value)) :
    Stops count cut costly 0 fun ceiling state =>
      free >>= fun value => next value ceiling state where
  within ceiling state log inside := by
    rw [bind_apply]
    exact (stops _).within _ _ _ inside
  pays ceiling state log := by
    rw [bind_apply, List.countP_append, costs, Nat.zero_add]
    exact (stops _).pays _ _ _
  keeps ceiling state log held := by
    rw [bind_apply]
    exact (stops _).keeps _ _ _ held
  same ceiling state log inside uncut := by
    rw [bind_apply] at uncut
    rw [bind_apply, bind_apply, (stops _).same _ _ _ inside uncut]
  more ceiling state log inside uncut isCut := by
    rw [bind_apply] at isCut ⊢
    exact (stops _).more _ _ _ inside uncut isCut

/-- Something that makes an attempt is left out where the count has come to the ceiling. -/
theorem guard {mark : State → State} (stops : Stops count cut costly 1 act)
    (attempts : ∀ ceiling state log,
      count state < ceiling → count state < count (act ceiling state log).1)
    (counts : ∀ state, count (mark state) = count state) (marks : ∀ state, cut (mark state) = true) :
    Stops count cut costly 0 fun ceiling state =>
      if ceiling ≤ count state then (pure (mark state) : Logged Entry State)
      else act ceiling state where
  within ceiling state log inside := by
    split_ifs with full
    · rw [pure_apply, counts]
      exact inside
    · exact stops.within _ _ _ (not_le.mp full)
  pays ceiling state log := by
    split_ifs
    · rw [pure_apply, counts]
      exact le_rfl
    · exact stops.pays _ _ _
  keeps ceiling state log held := by
    split_ifs
    · exact marks state
    · exact stops.keeps _ _ _ held
  same ceiling state log inside uncut := by
    split_ifs at uncut with full
    · rw [pure_apply, marks] at uncut
      cases uncut
    · rw [if_neg full, if_neg (by omega : ¬ ceiling + 1 ≤ count state),
        stops.same _ _ _ (not_le.mp full) uncut]
  more ceiling state log inside uncut isCut := by
    rw [if_neg (by omega : ¬ ceiling + 1 ≤ count state)]
    split_ifs at isCut with full
    · exact full.trans_lt (attempts _ _ _ (by omega))
    · exact stops.more _ _ _ (not_le.mp full) uncut isCut

/-- Where nothing is left out, nothing more is done under any higher ceiling. -/
theorem same_of_le (stops : Stops count cut costly room act) {ceiling higher : ℕ}
    (above : ceiling ≤ higher) {state : State} {log : List Entry} (inside : count state + room ≤ ceiling)
    (uncut : cut (act ceiling state log).1 = false) : act higher state log = act ceiling state log := by
  induction above with
  | refl => rfl
  | @step higher above induction =>
      rw [← induction]
      exact stops.same _ _ _ (inside.trans above) (by rw [induction, uncut])

end Stops

end Ceiling
end DomainLens
