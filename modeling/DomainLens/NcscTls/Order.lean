import DomainLens.NcscTls.Assess

/-!
# The order of the suites

Whether a server puts the better suites of TLS 1.2 before the others is told from handshakes, one for every pair
of a better suite and another one.
-/

namespace DomainLens
namespace NcscTls
namespace Order

open Python

/-! ## Suites -/

/-- A suite that was accepted; its name is one element of a cipher list. -/
structure Accepted where
  name : Text
  protocol : Option Text
  plain : ':' ∉ name
  isSuite : name.head? ≠ some '@'

/-- `_is_tls13_suite`. -/
def isTls13Suite (name : Text) (protocol : Option Text) : Bool :=
  let n := upper name
  let p := upper (protocol.getD [])
  starts "TLS_AES_" n || starts "TLS_CHACHA20" n || starts "TLS_AES" n || has "TLSV1.3" p ||
    p == "TLSV1.3".toList

def levelOf (name : Text) : Level := (classifyCipherSuite name).level

/-- `tls12`. -/
def tls12 (accepted : List Accepted) : List Text :=
  (accepted.filter fun item => item.name ≠ [] && !isTls13Suite item.name item.protocol).map
    Accepted.name

/-- `better`. -/
def better (accepted : List Accepted) : List Text :=
  (tls12 accepted).filter fun name => levelOf name ∈ [.good, .sufficient]

/-- `worse`. -/
def worse (accepted : List Accepted) : List Text :=
  (tls12 accepted).filter fun name => levelOf name ∈ [.phasedOut, .insufficient]

/-- `_better_rank`. -/
def betterRank (name : Text) : ℕ ×ₗ Text :=
  let u := upper name
  if has "CCM" u && !has "CCM8" u && !has "CCM_8" u then toLex (0, name)
  else if has "GCM" u || has "CHACHA" u || has "POLY1305" u then toLex (1, name)
  else if has "CCM8" u || has "CCM_8" u then toLex (2, name)
  else toLex (3, name)

/-- `better_sorted`. -/
def betterSorted (accepted : List Accepted) : List Text :=
  (better accepted).insertionSort fun left right => betterRank left ≤ betterRank right

def worseRank (name : Text) : ℕ ×ₗ Text :=
  toLex (if levelOf name = .phasedOut then 0 else 1, name)

/-- `worse_sorted`. -/
def worseSorted (accepted : List Accepted) : List Text :=
  (worse accepted).insertionSort fun left right => worseRank left ≤ worseRank right

/-! ## Texts -/

def levelText : Level → String
  | .good => "good"
  | .sufficient => "sufficient"
  | .phasedOut => "phased_out"
  | .insufficient => "insufficient"
  | .unknown => "unknown"

/-- `_OPENSSL_TO_IANA`. -/
def openssl : List (String × String) :=
  [("ECDHE-ECDSA-AES128-GCM-SHA256", "TLS_ECDHE_ECDSA_WITH_AES_128_GCM_SHA256"),
    ("ECDHE-ECDSA-AES256-GCM-SHA384", "TLS_ECDHE_ECDSA_WITH_AES_256_GCM_SHA384"),
    ("ECDHE-ECDSA-CHACHA20-POLY1305", "TLS_ECDHE_ECDSA_WITH_CHACHA20_POLY1305_SHA256"),
    ("ECDHE-ECDSA-AES128-CCM", "TLS_ECDHE_ECDSA_WITH_AES_128_CCM"),
    ("ECDHE-ECDSA-AES256-CCM", "TLS_ECDHE_ECDSA_WITH_AES_256_CCM"),
    ("ECDHE-ECDSA-AES128-CCM8", "TLS_ECDHE_ECDSA_WITH_AES_128_CCM_8"),
    ("ECDHE-ECDSA-AES256-CCM8", "TLS_ECDHE_ECDSA_WITH_AES_256_CCM_8"),
    ("ECDHE-ECDSA-AES128-SHA256", "TLS_ECDHE_ECDSA_WITH_AES_128_CBC_SHA256"),
    ("ECDHE-ECDSA-AES256-SHA384", "TLS_ECDHE_ECDSA_WITH_AES_256_CBC_SHA384"),
    ("ECDHE-ECDSA-AES128-SHA", "TLS_ECDHE_ECDSA_WITH_AES_128_CBC_SHA"),
    ("ECDHE-ECDSA-AES256-SHA", "TLS_ECDHE_ECDSA_WITH_AES_256_CBC_SHA"),
    ("ECDHE-RSA-AES128-GCM-SHA256", "TLS_ECDHE_RSA_WITH_AES_128_GCM_SHA256"),
    ("ECDHE-RSA-AES256-GCM-SHA384", "TLS_ECDHE_RSA_WITH_AES_256_GCM_SHA384"),
    ("ECDHE-RSA-CHACHA20-POLY1305", "TLS_ECDHE_RSA_WITH_CHACHA20_POLY1305_SHA256"),
    ("ECDHE-RSA-AES128-SHA256", "TLS_ECDHE_RSA_WITH_AES_128_CBC_SHA256"),
    ("ECDHE-RSA-AES256-SHA384", "TLS_ECDHE_RSA_WITH_AES_256_CBC_SHA384"),
    ("ECDHE-RSA-AES128-SHA", "TLS_ECDHE_RSA_WITH_AES_128_CBC_SHA"),
    ("ECDHE-RSA-AES256-SHA", "TLS_ECDHE_RSA_WITH_AES_256_CBC_SHA"),
    ("DHE-RSA-AES128-GCM-SHA256", "TLS_DHE_RSA_WITH_AES_128_GCM_SHA256"),
    ("DHE-RSA-AES256-GCM-SHA384", "TLS_DHE_RSA_WITH_AES_256_GCM_SHA384"),
    ("DHE-RSA-CHACHA20-POLY1305", "TLS_DHE_RSA_WITH_CHACHA20_POLY1305_SHA256"),
    ("DHE-RSA-AES128-CCM", "TLS_DHE_RSA_WITH_AES_128_CCM"),
    ("DHE-RSA-AES256-CCM", "TLS_DHE_RSA_WITH_AES_256_CCM"),
    ("AES128-GCM-SHA256", "TLS_RSA_WITH_AES_128_GCM_SHA256"),
    ("AES256-GCM-SHA384", "TLS_RSA_WITH_AES_256_GCM_SHA384"),
    ("AES128-SHA256", "TLS_RSA_WITH_AES_128_CBC_SHA256"),
    ("AES256-SHA256", "TLS_RSA_WITH_AES_256_CBC_SHA256"),
    ("AES128-SHA", "TLS_RSA_WITH_AES_128_CBC_SHA"),
    ("AES256-SHA", "TLS_RSA_WITH_AES_256_CBC_SHA")]

/-- `openssl_to_iana`. -/
def opensslToIana : Option Text → Option Text
  | none | some [] => none
  | some name =>
      if starts "TLS_" name then some name
      else some (((openssl.find? (·.1.toList = name)).map (·.2.toList)).getD name)

/-! ## Handshakes -/

/-- What `_negotiate_tls12_ciphers` gives for a cipher list: the suite, nothing, or the error it raises. -/
abbrev Negotiate := Text → Except Text (Option Text)

/-- The names, and then the security level. -/
def cipherList (names : List Text) : Text :=
  [':'].intercalate (names ++ ["@SECLEVEL=0".toList])

inductive Probed where
  | prefersWeaker (weak strong : Text)
  | finished (errors : List Text) (probesOk : Nat)
deriving DecidableEq

/-- The loop over the pairs of a worse and a better suite. -/
def probePairs (negotiate : Negotiate) : List (Text × Text) → List Text → Nat → Probed
  | [], errors, probesOk => .finished errors probesOk
  | (weak, strong) :: pairs, errors, probesOk =>
      match negotiate (cipherList [strong, weak]) with
      | .error problem => probePairs negotiate pairs (errors ++ [problem]) probesOk
      | .ok none | .ok (some []) => probePairs negotiate pairs errors probesOk
      | .ok (some chosen) =>
          if chosen = weak then .prefersWeaker weak strong
          else probePairs negotiate pairs errors (probesOk + 1)

structure Told where
  name : Option Text
  iana : Option Text
  level : Option Level

def tell (name : Option Text) : Told where
  name
  iana := opensslToIana name
  level := (name.filter (· ≠ [])).map levelOf

/-- The result; what a branch does not set is empty. -/
structure Result extends CipherOrder where
  reason : String
  serverPreferred : Option Told
  expectedPreferred : Option Told
  betterSuites : List Text
  worseSuites : List Text
  error : Option Text
  detail : Text

/-- `detail` of a server that prefers what is weaker. -/
def prefersWeakerDetail (chosen strong : Text) : Text :=
  "Server preferred ".toList ++ (opensslToIana (some chosen)).getD chosen ++ " (".toList ++
    DnsTools.replace "_".toList " ".toList 0 (levelText (levelOf chosen)).toList ++
    ") over ".toList ++ (opensslToIana (some strong)).getD strong ++ " (".toList ++
    (levelText (levelOf strong)).toList ++ "). ".toList ++
    ("The server is not enforcing a security-descending cipher suite order " ++
      "(internet.nl / NCSC).").toList

/-- `check_cipher_order`. -/
def checkCipherOrder (negotiate : Negotiate) (accepted : List Accepted) : Result :=
  let strongNames := betterSorted accepted
  let weakNames := worseSorted accepted
  let failed (problem : Text) : Result :=
    ⟨⟨true, none⟩, "probe_failed", none, none, strongNames, weakNames, some problem, []⟩
  if worse accepted = [] then
    ⟨⟨false, some true⟩, "only_good_or_sufficient", none, none, [], [], none,
      "Cipher order check is not applicable when only Good/Sufficient suites are offered.".toList⟩
  else if better accepted = [] then
    ⟨⟨false, some false⟩, "no_good_or_sufficient", none, none, [], worse accepted, none,
      ("No Good/Sufficient TLS 1.2 suites available to prefer over " ++
        "phase-out/insufficient suites.").toList⟩
  else
    match probePairs negotiate (weakNames ×ˢ strongNames) [] 0 with
    | .prefersWeaker weak strong =>
        ⟨⟨true, some false⟩, "prefers_weaker", some (tell (some weak)), some (tell (some strong)),
          strongNames, weakNames, none, prefersWeakerDetail weak strong⟩
    | .finished errors 0 =>
        failed (errors.head?.getD "No pairwise cipher negotiations succeeded".toList)
    | .finished errors (_ + 1) =>
        let prefersStronger (chosen : Option Text) : Result :=
          ⟨⟨true, some true⟩, "prefers_stronger", some (tell chosen), some (tell strongNames.head?),
            strongNames, weakNames, none,
            "Server prefers Good/Sufficient cipher suites over phase-out/insufficient ones.".toList⟩
        match negotiate (cipherList (weakNames ++ strongNames)) with
        | .ok chosen => prefersStronger chosen
        | .error problem => if errors = [] then prefersStronger none else failed problem

/-! ## Servers -/

/-- The suites a client offers with a cipher list. -/
def offersOf (list : Text) : List Text :=
  (list.splitOn ':').filter fun name => name ≠ [] && name.head? ≠ some '@'

/-- A server that answers every handshake: its suites in the order it prefers them, and whether the order of the
client decides instead. -/
structure Server (accepted : List Accepted) where
  order : List Text
  distinct : order.Nodup
  complete : ∀ name ∈ tls12 accepted, name ∈ order
  followsClient : Bool

variable {accepted : List Accepted}

def Server.choose (server : Server accepted) (offered : List Text) : Option Text :=
  if server.followsClient then offered.find? (· ∈ server.order) else server.order.find? (· ∈ offered)

def Server.negotiate (server : Server accepted) : Negotiate :=
  fun list => .ok (server.choose (offersOf list))

/-- The server has an order of its own, with every better suite before every worse one. -/
def Server.Enforces (server : Server accepted) : Prop :=
  server.followsClient = false ∧ ∀ strong ∈ better accepted, ∀ weak ∈ worse accepted,
    server.order.idxOf strong < server.order.idxOf weak

/-- Where the check applies, it passes exactly the servers that enforce such an order. -/
def Decides (server : Server accepted) : Prop :=
  (checkCipherOrder server.negotiate accepted).applicable = true →
    ((checkCipherOrder server.negotiate accepted).pass = some true ↔ server.Enforces)

/-! ## What a list offers -/

theorem plain_of_mem_tls12 {name : Text} (member : name ∈ tls12 accepted) :
    name ≠ [] ∧ ':' ∉ name ∧ name.head? ≠ some '@' := by
  obtain ⟨item, kept, rfl⟩ := List.mem_map.mp member
  have filled := (List.mem_filter.mp kept).2
  rw [Bool.and_eq_true, decide_eq_true_eq] at filled
  exact ⟨filled.1, item.plain, item.isSuite⟩

theorem offersOf_cipherList {names : List Text}
    (plain : ∀ name ∈ names, name ≠ [] ∧ ':' ∉ name ∧ name.head? ≠ some '@') :
    offersOf (cipherList names) = names := by
  have apart : ∀ name ∈ names ++ ["@SECLEVEL=0".toList], ':' ∉ name := by
    intro name member
    rcases List.mem_append.mp member with listed | level
    · exact (plain name listed).2.1
    · rw [List.mem_singleton.mp level]
      decide
  rw [offersOf, cipherList, List.splitOn_intercalate ':' apart (by simp), List.filter_append,
    List.filter_eq_self.mpr, List.filter_eq_nil_iff.mpr, List.append_nil]
  · intro name level
    rw [List.mem_singleton.mp level]
    decide
  · intro name member
    simp only [(plain name member).1, (plain name member).2.2, ne_eq, not_false_eq_true, decide_true,
      Bool.and_self]

theorem find?_pair {order : List Text} {strong weak : Text} (isStrong : strong ∈ order)
    (other : strong ≠ weak) :
    order.find? (· ∈ [strong, weak]) = some weak ↔ ¬order.idxOf strong < order.idxOf weak := by
  induction order with
  | nil => cases isStrong
  | cons name order induction =>
      rw [List.find?_cons]
      by_cases first : name = strong
      · subst first
        simp [List.idxOf_cons_ne _ other, other]
      · by_cases second : name = weak
        · subst second
          simp
        · have later := (List.mem_cons.mp isStrong).resolve_left (Ne.symm first)
          rw [List.idxOf_cons_ne _ first, List.idxOf_cons_ne _ second]
          simpa [first, second] using induction later

section Pairs

variable (server : Server accepted) {weak strong : Text}

/-- A pair is answered with the worse suite exactly where the server has an order that puts it first. -/
theorem choose_pair (isStrong : strong ∈ better accepted) (isWeak : weak ∈ worse accepted) :
    ∃ chosen ≠ [], server.negotiate (cipherList [strong, weak]) = .ok (some chosen) ∧
      (chosen = weak ↔ server.followsClient = false ∧
        ¬server.order.idxOf strong < server.order.idxOf weak) := by
  obtain ⟨strongListed, strongLevel⟩ := List.mem_filter.mp isStrong
  obtain ⟨weakListed, weakLevel⟩ := List.mem_filter.mp isWeak
  have other : strong ≠ weak := by
    rintro rfl
    cases level : levelOf strong <;> rw [level] at strongLevel weakLevel <;> revert strongLevel weakLevel <;>
      decide
  have offered : offersOf (cipherList [strong, weak]) = [strong, weak] := by
    refine offersOf_cipherList fun name member => ?_
    rcases List.mem_pair.mp member with rfl | rfl
    · exact plain_of_mem_tls12 strongListed
    · exact plain_of_mem_tls12 weakListed
  have strongOrdered := server.complete strong strongListed
  rw [Server.negotiate, offered, Server.choose]
  cases follows : server.followsClient with
  | true =>
      refine ⟨strong, (plain_of_mem_tls12 strongListed).1, ?_, iff_of_false other nofun⟩
      simp [strongOrdered]
  | false =>
      have isFound : (server.order.find? (· ∈ [strong, weak])).isSome := by
        rw [List.find?_isSome]
        exact ⟨strong, strongOrdered, by simp⟩
      obtain ⟨chosen, found⟩ := Option.isSome_iff_exists.mp isFound
      have isOne : chosen = strong ∨ chosen = weak := by simpa using List.find?_some found
      refine ⟨chosen, ?_, by simpa using found, ?_⟩
      · rcases isOne with rfl | rfl
        · exact (plain_of_mem_tls12 strongListed).1
        · exact (plain_of_mem_tls12 weakListed).1
      · rw [eq_self, true_and, ← find?_pair strongOrdered other, found, Option.some_inj]

end Pairs

/-- Where every pair is answered, the loop ends at the first one that is answered with the worse suite. -/
theorem probePairs_answered {negotiate : Negotiate} {weakChosen : Text × Text → Prop}
    {pairs : List (Text × Text)}
    (answered : ∀ pair ∈ pairs, ∃ chosen ≠ [],
      negotiate (cipherList [pair.2, pair.1]) = .ok (some chosen) ∧ (chosen = pair.1 ↔ weakChosen pair))
    (errors : List Text) (probesOk : Nat) :
    (∃ pair ∈ pairs, weakChosen pair ∧
        probePairs negotiate pairs errors probesOk = .prefersWeaker pair.1 pair.2) ∨
      (∀ pair ∈ pairs, ¬weakChosen pair) ∧
        probePairs negotiate pairs errors probesOk = .finished errors (probesOk + pairs.length) := by
  induction pairs generalizing probesOk with
  | nil => exact .inr ⟨nofun, rfl⟩
  | cons pair pairs induction =>
      obtain ⟨chosen, filled, answer, isWeak⟩ := answered pair List.mem_cons_self
      have step : probePairs negotiate (pair :: pairs) errors probesOk =
          if chosen = pair.1 then .prefersWeaker pair.1 pair.2
          else probePairs negotiate pairs errors (probesOk + 1) := by
        obtain ⟨char, chars, rfl⟩ := List.exists_cons_of_ne_nil filled
        rw [probePairs, answer]
      rw [step]
      split_ifs with same
      · exact .inl ⟨pair, List.mem_cons_self, isWeak.mp same, rfl⟩
      · rcases induction (fun other member => answered other (List.mem_cons_of_mem _ member))
          (probesOk + 1) with ⟨other, member, deviates, ends⟩ | ⟨none, ends⟩
        · exact .inl ⟨other, List.mem_cons_of_mem _ member, deviates, ends⟩
        · refine .inr ⟨List.forall_mem_cons.mpr ⟨fun deviates => same (isWeak.mpr deviates), none⟩, ?_⟩
          rw [ends, List.length_cons]
          congr 1
          omega

theorem mem_pairs {pair : Text × Text} :
    pair ∈ worseSorted accepted ×ˢ betterSorted accepted ↔
      pair.1 ∈ worse accepted ∧ pair.2 ∈ better accepted := by
  rw [List.mem_product, worseSorted, betterSorted, List.mem_insertionSort, List.mem_insertionSort]

/-- With suites of both kinds the check applies, and passes where no pair is answered with the worse suite. -/
theorem pass_iff (server : Server accepted) (someBetter : better accepted ≠ [])
    (someWorse : worse accepted ≠ []) :
    (checkCipherOrder server.negotiate accepted).applicable = true ∧
      ((checkCipherOrder server.negotiate accepted).pass = some true ↔
        (server.followsClient = false → server.Enforces)) := by
  obtain ⟨strong, isStrong⟩ := List.exists_mem_of_ne_nil _ someBetter
  obtain ⟨weak, isWeak⟩ := List.exists_mem_of_ne_nil _ someWorse
  have some_pair : 0 < (worseSorted accepted ×ˢ betterSorted accepted).length :=
    List.length_pos_of_mem (mem_pairs.mpr (⟨isWeak, isStrong⟩ : (weak, strong).1 ∈ _ ∧ _))
  have answered : ∀ pair ∈ worseSorted accepted ×ˢ betterSorted accepted, ∃ chosen ≠ [],
      server.negotiate (cipherList [pair.2, pair.1]) = .ok (some chosen) ∧
        (chosen = pair.1 ↔ server.followsClient = false ∧
          ¬server.order.idxOf pair.2 < server.order.idxOf pair.1) :=
    fun pair member => choose_pair server (mem_pairs.mp member).2 (mem_pairs.mp member).1
  rw [checkCipherOrder, if_neg someWorse, if_neg someBetter]
  rcases probePairs_answered answered [] 0 with ⟨pair, member, deviates, ends⟩ | ⟨none, ends⟩
  · rw [ends]
    refine ⟨rfl, iff_of_false (by simp) fun enforces => ?_⟩
    exact deviates.2 ((enforces deviates.1).2 _ (mem_pairs.mp member).2 _ (mem_pairs.mp member).1)
  · obtain ⟨count, counted⟩ := Nat.exists_eq_add_one.mpr some_pair
    rw [ends, Nat.zero_add, counted]
    refine ⟨rfl, iff_of_true rfl fun own => ⟨own, fun strong isStrong weak isWeak => ?_⟩⟩
    by_contra before
    exact none (weak, strong) (mem_pairs.mpr ⟨isWeak, isStrong⟩) ⟨own, before⟩

/-- The check decides the order of a server if and only if it does not apply or the server has an order. -/
theorem decides_iff (server : Server accepted) :
    Decides server ↔ better accepted = [] ∨ worse accepted = [] ∨ server.followsClient = false := by
  by_cases someWorse : worse accepted = []
  · refine iff_of_true (fun applies => ?_) (.inr (.inl someWorse))
    rw [checkCipherOrder, if_pos someWorse] at applies
    cases applies
  · by_cases someBetter : better accepted = []
    · refine iff_of_true (fun applies => ?_) (.inl someBetter)
      rw [checkCipherOrder, if_neg someWorse, if_pos someBetter] at applies
      cases applies
    · obtain ⟨applies, passes⟩ := pass_iff server someBetter someWorse
      rw [Decides, passes]
      constructor
      · intro decides
        by_contra follows
        have follows : server.followsClient ≠ false := fun own => follows (.inr (.inr own))
        exact follows ((decides applies).mp fun own => absurd own follows).1
      · rintro (none | none | own) _
        · exact absurd none someBetter
        · exact absurd none someWorse
        · exact ⟨fun enforces => enforces own, fun enforces _ => enforces⟩

/-- A server without an order of its own passes. -/
theorem client_order_passes :
    ¬@Decides [⟨"ECDHE-RSA-AES128-SHA256".toList, none, by decide, by decide⟩,
        ⟨"ECDHE-RSA-AES128-GCM-SHA256".toList, none, by decide, by decide⟩]
      ⟨["ECDHE-RSA-AES128-SHA256".toList, "ECDHE-RSA-AES128-GCM-SHA256".toList], by decide,
        by decide +kernel, true⟩ := by
  intro decides
  have enforces := (decides (by decide +kernel)).mp (by decide +kernel)
  cases enforces.1

end Order
end NcscTls
end DomainLens
