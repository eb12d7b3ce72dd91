import DomainLens.CrtSh
import DomainLens.Python.Json

/-!
# The hosts of the takeover scan

The names of the certificates of a domain are cleaned, sorted with the highest in the hierarchy first, and cut
at a limit.  The hosts that are left are resolved and fetched.
-/

namespace DomainLens
namespace SecurityChecks

open Python

/-! ## Names -/

/-- What `[a-z0-9._-]` matches. -/
def isNameChar (char : Char) : Bool :=
  ('a' ≤ char && char ≤ 'z') || ('0' ≤ char && char ≤ '9') || char ∈ ['.', '_', '-']

/-- `_DOMAIN_OK`. -/
def domainOk (text : Text) : Bool :=
  dollar (fun text => text ≠ [] && text.all isNameChar) text

/-- `.strip().lower().lstrip("*.")`. -/
def cleaned (line : Text) : Text := (lower (strip line)).dropWhile (· ∈ ['*', '.'])

/-- The cleaned names of an entry; `get` raises for what is no dictionary. -/
def namesOf (render : Json → Text) : Json → Option (List Text)
  | .obj entries =>
      some (((((entries.lookup "name_value").getD (.str [])).shown render).splitOn '\n').map cleaned)
  | _ => none

def namesOfRows (render : Json → Text) (rows : List Json) : Option (List Text) :=
  (rows.mapM (namesOf render)).map List.flatten

def isKept (domain name : Text) : Bool := domain.isSuffixOf name && domainOk name

/-- The set of the names that are kept, with the domain. -/
def foundIn (domain : Text) (names : List Text) : List Text :=
  fromKeys (names.filter (isKept domain) ++ [domain])

/-! ## The scan -/

/-- `(s.count("."), len(s))`. -/
def rank (name : Text) : ℕ ×ₗ ℕ := toLex (name.count '.', name.length)

/-- How a set is walked: each member once, in whatever order. -/
structure SetOrder where
  walk : List Text → List Text
  perm : ∀ names, (walk names).Perm names

structure Enumeration where
  subdomains : List Text
  discoveredCount : Nat
  sourceError : Option Text
  sourceMeta : CrtSh.Meta

/-- `enumerate_subdomains`, for what the lookup at crt.sh gives; nothing where it raises. -/
def enumerateSubdomains (render : Json → Text) (order : SetOrder) (domain : Text) (limit : Nat)
    (answer : CrtSh.Result (List Json)) : Option Enumeration :=
  (namesOfRows render (answer.rows.getD [])).map fun names =>
    let ordered := (order.walk (foundIn domain names)).insertionSort fun left right =>
      rank left ≤ rank right
    ⟨ordered.take limit, ordered.length, answer.error, answer.info⟩

/-! ## The scope -/

/-- The domain itself, or a name below it. -/
def InScope (domain host : Text) : Prop := host = domain ∨ '.' :: domain <:+ host

instance (domain host : Text) : Decidable (InScope domain host) :=
  inferInstanceAs (Decidable (_ ∨ _))

/-- Every list that is returned stays in the scope and holds the domain, whatever the limit of at least one. -/
def StaysInside (render : Json → Text) (order : SetOrder) (domain : Text)
    (answer : CrtSh.Result (List Json)) : Prop :=
  ∀ limit > 0, ∀ enumeration ∈ enumerateSubdomains render order domain limit answer,
    (∀ host ∈ enumeration.subdomains, InScope domain host) ∧ domain ∈ enumeration.subdomains

/-- No name of the answer that is kept ends with the domain in the middle of a label. -/
def NoneBeside (render : Json → Text) (domain : Text) (answer : CrtSh.Result (List Json)) : Prop :=
  ∀ names ∈ namesOfRows render (answer.rows.getD []), ∀ name ∈ names, isKept domain name →
    InScope domain name

theorem mem_foundIn {domain name : Text} {names : List Text} :
    name ∈ foundIn domain names ↔ (name ∈ names ∧ isKept domain name) ∨ name = domain := by
  rw [foundIn, mem_fromKeys, List.mem_append, List.mem_filter, List.mem_singleton]

theorem rank_lt_of_suffix {domain name : Text} (suffix : domain <:+ name) (other : name ≠ domain) :
    rank domain < rank name := by
  obtain ⟨front, rfl⟩ := suffix
  have filled : 0 < front.length := by
    refine List.length_pos_iff.mpr fun empty => other ?_
    rw [empty, List.nil_append]
  rw [rank, rank, Prod.Lex.toLex_lt_toLex, List.count_append, List.length_append]
  omega

theorem domain_least {domain name : Text} {names : List Text} (found : name ∈ foundIn domain names)
    (other : name ≠ domain) : rank domain < rank name := by
  rcases mem_foundIn.mp found with ⟨-, kept⟩ | same
  · rw [isKept, Bool.and_eq_true] at kept
    exact rank_lt_of_suffix (List.isSuffixOf_iff_suffix.mp kept.1) other
  · exact absurd same other

section Sorting

variable (order : SetOrder) (domain : Text) (names : List Text)

/-- `ordered`. -/
private abbrev ordered : List Text :=
  (order.walk (foundIn domain names)).insertionSort fun left right => rank left ≤ rank right

private theorem mem_ordered {name : Text} :
    name ∈ ordered order domain names ↔ name ∈ foundIn domain names :=
  (List.mem_insertionSort _).trans (order.perm _).mem_iff

private theorem head_ordered : (ordered order domain names).head? = some domain := by
  have isFound : domain ∈ ordered order domain names :=
    (mem_ordered order domain names).mpr (mem_foundIn.mpr (.inr rfl))
  have sorted : (ordered order domain names).Pairwise fun left right => rank left ≤ rank right :=
    List.pairwise_insertionSort _ _
  cases listed : ordered order domain names with
  | nil =>
      rw [listed] at isFound
      cases isFound
  | cons first rest =>
      have firstFound : first ∈ foundIn domain names := by
        rw [← mem_ordered order domain names, listed]
        exact List.mem_cons_self
      rw [listed] at isFound sorted
      rw [List.head?_cons, Option.some_inj]
      by_contra other
      rcases List.mem_cons.mp isFound with same | later
      · exact other same.symm
      · exact absurd (List.rel_of_pairwise_cons sorted later) (domain_least firstFound other).not_ge

end Sorting

/-- The scan stays inside the domain if and only if no name of the answer ends with the domain in the middle of
a label. -/
theorem staysInside_iff (render : Json → Text) (order : SetOrder) (domain : Text)
    (answer : CrtSh.Result (List Json)) :
    StaysInside render order domain answer ↔ NoneBeside render domain answer := by
  rw [StaysInside, NoneBeside]
  cases read : namesOfRows render (answer.rows.getD []) with
  | none =>
      refine iff_of_true (fun limit _ enumeration given => ?_) nofun
      rw [enumerateSubdomains, read] at given
      cases given
  | some names =>
      constructor
      · intro stays _ isNames name member kept
        obtain rfl := Option.some.inj isNames
        let whole := (ordered order domain names).length
        have filled : 0 < whole := by
          refine List.length_pos_iff.mpr fun empty => ?_
          have first := head_ordered order domain names
          rw [empty] at first
          cases first
        have given := stays whole filled ⟨_, _, _, _⟩ (by rw [enumerateSubdomains, read]; rfl)
        refine given.1 name ?_
        rw [List.take_of_length_le le_rfl]
        exact (mem_ordered order domain names).mpr (mem_foundIn.mpr (.inl ⟨member, kept⟩))
      · intro inside limit positive enumeration given
        rw [enumerateSubdomains, read] at given
        obtain rfl := Option.some.inj given
        constructor
        · intro host member
          rcases mem_foundIn.mp ((mem_ordered order domain names).mp (List.mem_of_mem_take member)) with
            ⟨listed, kept⟩ | rfl
          · exact inside names rfl host listed kept
          · exact .inl rfl
        · obtain ⟨limit, rfl⟩ := Nat.exists_eq_add_one.mpr positive
          obtain ⟨rest, listed⟩ := List.head?_eq_some_iff.mp (head_ordered order domain names)
          change domain ∈ (ordered order domain names).take (limit + 1)
          rw [listed, List.take_succ_cons]
          exact List.mem_cons_self

/-- A domain that only ends with the same letters is scanned with the domain. -/
theorem other_domain_scanned :
    ¬StaysInside (fun _ => []) ⟨id, fun _ => .rfl⟩ "example.com".toList
      ⟨some [.obj [("name_value", .str "evilexample.com\n*.example.com".toList)]], none, .live⟩ := by
  intro stays
  have scanned := (stays 60 (by decide) _ rfl).1 "evilexample.com".toList (by decide +kernel)
  exact absurd scanned (by decide)

end SecurityChecks
end DomainLens
