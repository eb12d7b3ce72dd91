import DomainLens.AuditLog
import DomainLens.Python.JsonText

/-!
# Tampering with the audit log

Every hash is taken of the hash before it and of all that is recorded, so from a common last hash
two chains are the same row by row, back to where one of them ends.
-/

namespace DomainLens
namespace AuditLog

open Python

/-! ## The hash -/

/-- `_hash`: a hash of the JSON list of the hash before and the recorded values. -/
def rowDigest (sha256 : Text → Text) : Digest := fun prevHash values =>
  sha256 (jsonList (some prevHash :: values))

theorem rowDigest_inj {sha256 : Text → Text} (injective : Function.Injective sha256)
    {first second : Text} {values others : List (Option Text)}
    (same : rowDigest sha256 first values = rowDigest sha256 second others) :
    first = second ∧ values = others := by
  obtain ⟨prevHash, rest⟩ := List.cons.inj (jsonList_injective (injective same))
  exact ⟨Option.some.inj prevHash, rest⟩

theorem Entry.values_injective : Function.Injective Entry.values := by
  rintro ⟨⟩ ⟨⟩ same
  simpa [Entry.values] using same

/-! ## Chains with a common end -/

/-- What is recorded of a row, which is all of it but its place. -/
def recorded (row : Row) : Entry × Text × Text := (row.entry, row.prevHash, row.rowHash)

variable {digest : Digest}

theorem Chained.front {front : List Row} {last : Row} (chained : Chained digest (front ++ [last])) :
    Chained digest front where
  linked := (List.isChain_append.mp chained.linked).1
  hashed row member := chained.hashed row (List.mem_append_left _ member)

theorem Chained.last_prevHash {front : List Row} {last before : Row}
    (chained : Chained digest (front ++ [last])) (isLast : before ∈ front.getLast?) :
    last.prevHash = before.rowHash :=
  (List.isChain_append.mp chained.linked).2.2 before isLast last rfl

theorem recorded_eq (injective : ∀ first second values others,
      digest first values = digest second others → first = second ∧ values = others)
    {row other : Row} (own : digest row.prevHash row.entry.values = row.rowHash)
    (others : digest other.prevHash other.entry.values = other.rowHash)
    (same : row.rowHash = other.rowHash) : recorded row = recorded other := by
  have hashes : digest row.prevHash row.entry.values =
      digest other.prevHash other.entry.values := by
    rw [own, others, same]
  obtain ⟨prevHash, values⟩ := injective _ _ _ _ hashes
  rw [recorded, recorded, Entry.values_injective values, prevHash, same]

/-- Two chains with one last hash are the same from their end to where one of them begins. -/
theorem suffix_of_last (injective : ∀ first second values others,
      digest first values = digest second others → first = second ∧ values = others)
    {left right : List Row} (leftChained : Chained digest left)
    (rightChained : Chained digest right)
    (same : left.getLast?.map Row.rowHash = right.getLast?.map Row.rowHash) :
    left.map recorded <:+ right.map recorded ∨ right.map recorded <:+ left.map recorded := by
  induction left using List.reverseRecOn generalizing right with
  | nil => exact .inl List.nil_suffix
  | append_singleton front last induction =>
      rcases List.eq_nil_or_concat right with rfl | ⟨front', last', rfl⟩
      · exact .inr List.nil_suffix
      · simp only [List.concat_eq_append, List.getLast?_append, List.getLast?_singleton,
          Option.some_or, Option.map_some, Option.some.injEq] at same rightChained ⊢
        have equal := recorded_eq injective
          (leftChained.hashed last (List.mem_append_right _ List.mem_cons_self))
          (rightChained.hashed last' (List.mem_append_right _ List.mem_cons_self)) same
        have prevHash : last.prevHash = last'.prevHash := (Prod.mk.inj (Prod.mk.inj equal).2).1
        have extend {first second : List Row} (suffix : first.map recorded <:+ second.map recorded)
            {row other : Row} (same : recorded row = recorded other) :
            (first ++ [row]).map recorded <:+ (second ++ [other]).map recorded := by
          obtain ⟨oldest, whole⟩ := suffix
          exact ⟨oldest, by simp [← whole, same]⟩
        cases isLast : front.getLast? with
        | none =>
            obtain rfl := List.getLast?_eq_none_iff.mp isLast
            have shorter : ([] : List Row).map recorded <:+ front'.map recorded := List.nil_suffix
            exact .inl (extend shorter equal)
        | some before =>
            cases isLast' : front'.getLast? with
            | none =>
                obtain rfl := List.getLast?_eq_none_iff.mp isLast'
                have shorter : ([] : List Row).map recorded <:+ front.map recorded :=
                  List.nil_suffix
                exact .inr (extend shorter equal.symm)
            | some before' =>
                have earlier : front.getLast?.map Row.rowHash =
                    front'.getLast?.map Row.rowHash := by
                  rw [isLast, isLast', Option.map_some, Option.map_some,
                    ← leftChained.last_prevHash isLast, ← rightChained.last_prevHash isLast',
                    prevHash]
                rcases induction leftChained.front rightChained.front earlier with older | newer
                · exact .inl (extend older equal)
                · exact .inr (extend newer equal.symm)

/-- An entry of the system, by the second in which it was made. -/
def scanEntry (second : Char) : Entry where
  createdAt := "2026-03-01T12:00:0".toList ++ second :: ".000000+00:00".toList
  actorId := none
  actorEmail := none
  actorRole := none
  authMethod := "system".toList
  ip := none
  action := "scan.run".toList
  targetType := none
  targetId := none
  outcome := "success".toList
  details := "\x7b\x7d".toList

def twoEntries : Log :=
  (Log.empty.append (rowDigest id) (scanEntry '1')).append (rowDigest id) (scanEntry '2')

end AuditLog
end DomainLens
