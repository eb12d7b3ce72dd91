import Mathlib

/-!
# Askings

An asking is a computation that puts questions to an oracle which may leave some unanswered.  It
ends without a result at the first question that gets no answer, so that whatever it finds out is
found out as well under an oracle that answers more.
-/

namespace DomainLens

/-- A computation that asks questions one after another, each of which may depend on the answers so
far. -/
inductive Asking (Question Answer Result : Type*) where
  | done (result : Result)
  | ask (question : Question) (next : Answer → Asking Question Answer Result)

variable {Question Answer Result : Type*}

/-- The second oracle answers whatever the first one does, in the same way. -/
def Extends (fewer more : Question → Option Answer) : Prop :=
  ∀ question answer, fewer question = some answer → more question = some answer

namespace Asking

/-- What comes of the questions, unless one of them is left unanswered. -/
def answered (oracle : Question → Option Answer) : Asking Question Answer Result → Option Result
  | .done result => some result
  | .ask question next => (oracle question).bind fun answer => (next answer).answered oracle

theorem answered_extends {fewer more : Question → Option Answer} (grows : Extends fewer more)
    {asking : Asking Question Answer Result} {result : Result}
    (found : asking.answered fewer = some result) : asking.answered more = some result := by
  induction asking with
  | done other => exact found
  | ask question next induction =>
      obtain ⟨answer, told, found⟩ := Option.bind_eq_some_iff.mp found
      rw [answered, grows question answer told]
      exact induction answer found

end Asking

end DomainLens
