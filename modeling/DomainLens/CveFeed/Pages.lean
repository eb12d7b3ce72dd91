import DomainLens.CveFeed.Sync

/-!
# Pages of any size

The NVD decides how many records a page has.  The next request starts after the page that was returned, so
that all records are fetched in order whatever the pages are.
-/

namespace DomainLens
namespace CveFeed

/-- A server of records in a fixed order.  The size of a page is up to the server, by the number of requests
before it and where it starts, and is at least one until the total is reached. -/
structure PageServer where
  entries : List Cve
  size : ℕ → ℕ → ℕ
  positive : ∀ request start, start < entries.length → 0 < size request start

namespace PageServer

variable (server : PageServer)

def answer (request start : ℕ) : Response where
  status := 200
  totalResults := server.entries.length
  vulnerabilities := (server.entries.drop start).take (server.size request start)

/-- The answers to so many requests in turn, each starting after the page before it. -/
def answers : ℕ → ℕ → ℕ → Answers
  | 0, _, _ => []
  | requests + 1, request, start =>
      some (server.answer request start) ::
        answers requests (request + 1) (start + (server.answer request start).vulnerabilities.length)

theorem answer_append (request start : ℕ) :
    (server.answer request start).vulnerabilities ++
        server.entries.drop (start + (server.answer request start).vulnerabilities.length) =
      server.entries.drop start := by
  have isPrefix : (server.answer request start).vulnerabilities <+: server.entries.drop start :=
    List.take_prefix _ _
  obtain ⟨rest, whole⟩ := isPrefix
  rw [← List.drop_drop, ← whole, List.drop_left]

theorem start_lt {request start : ℕ} (more : start < server.entries.length) :
    0 < (server.answer request start).vulnerabilities.length := by
  have held : 0 < (server.entries.drop start).length := by
    rw [List.length_drop]
    omega
  rw [answer, List.length_take]
  exact lt_min (server.positive request start more) held

/-- One request for each of the records that are left is enough to fetch them. -/
theorem fetchPages_answers (hasKey : Bool) {requests : ℕ} (request start : ℕ)
    (asked : 0 < requests) (enough : server.entries.length ≤ start + requests) :
    fetchPages hasKey (server.answers requests request start) start =
      .ok (server.entries.drop start) := by
  induction requests generalizing request start with
  | zero => exact absurd asked (Nat.lt_irrefl 0)
  | succ requests induction =>
      have onward := server.answer_append request start
      rw [answers, fetchPages, if_neg (by simp [answer]), if_neg (by simp [answer])]
      by_cases empty : (server.answer request start).vulnerabilities = []
      · have reached : server.entries.length ≤ start := by
          by_contra below
          have further := @start_lt server request start (not_le.mp below)
          rw [empty] at further
          exact absurd further (Nat.lt_irrefl 0)
        rw [if_pos empty, List.drop_eq_nil_of_le reached]
      · have further := List.length_pos_of_ne_nil empty
        have total : (server.answer request start).totalResults = server.entries.length := rfl
        rw [if_neg empty, ← onward]
        dsimp only
        by_cases more : start + (server.answer request start).vulnerabilities.length <
            server.entries.length
        · rw [total, if_pos more, induction _ _ (by omega) (by omega)]
        · rw [total, if_neg more, List.drop_eq_nil_of_le (not_lt.mp more), List.append_nil]

end PageServer

/-- Whatever the sizes of the pages, the fetch ends after one request for each record at most, or one where
there is none, and returns every record once and in order. -/
theorem fetchProduct_complete (hasKey : Bool) (product : Product) (server : PageServer) :
    ∃ least ≤ max 1 server.entries.length, ∀ requests ≥ least,
      fetchProduct hasKey product (server.answers requests 0 0) =
        .ok (server.entries.map fun cve => (cve, rangesFor cve product.cpe)) := by
  refine ⟨_, le_rfl, fun requests enough => ?_⟩
  have fetched := server.fetchPages_answers hasKey 0 0 (by omega : 0 < requests) (by omega)
  rw [fetchProduct, fetched]
  rfl

end CveFeed
end DomainLens
