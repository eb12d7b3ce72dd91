import DomainLens.MailTest.Checks
import Mathlib

/-!
# Verdicts and lookups that failed

A verdict stands under lookups that answer more, with one exception: the reverse DNS is found not to
point back although a lookup that failed might have shown that it does.
-/

namespace DomainLens
namespace MailTest

open Python DomainPortfolio

/-! ## The statement -/

/-- Every verdict of the first analysis is given by the second one as well. -/
structure Keeps (before after : Analysis) : Prop where
  spf : ∀ result, before.spf.result = some result → after.spf.result = some result
  dkim : ∀ (index : Nat) sig verdict, before.dkim.signatures[index]? = some sig →
    sig.result = some verdict →
    ∃ other, after.dkim.signatures[index]? = some other ∧ other.result = some verdict
  dmarc : ∀ result, before.dmarc.result = some result → after.dmarc.result = some result
  fcrdns : ∀ points, before.server.fcrdns = some points → after.server.fcrdns = some points

/-- What the test says of the message stands under all lookups that answer more. -/
def Stable (libraries : Libraries) (lookups : Lookups) (message : Message) : Prop :=
  ∀ more, Extends lookups more → ∀ before, analyse libraries lookups message = some before →
    ∃ after, analyse libraries more message = some after ∧ Keeps before after

/-- A signature of the message asks for a key whose name is not ASCII. -/
def Breaks (message : Message) : Prop :=
  ∃ value ∈ message.dkimSignatures.take maxSignatures,
    (Signature.ofTags (tagsOf value)).domain ≠ [] ∧
    (Signature.ofTags (tagsOf value)).selector ≠ [] ∧
    (Signature.ofTags (tagsOf value)).keyName.any (fun char => 128 ≤ char.toNat) = true

/-- The lookup at a name for addresses of the same family. -/
def Lookups.own (lookups : Lookups) : Address → Text → Option (List Address)
  | .v4 _, name => (lookups.resolveA name).map (List.map .v4)
  | .v6 _, name => (lookups.resolveAaaa name).map (List.map .v6)

/-- No lookup that failed can change what is found out about the names of an address: one of them
is known to point back, or nothing is known of any, or every one was looked up. -/
def Known (lookups : Lookups) (ip : Address) (names : List Text) : Prop :=
  (∃ name ∈ names, ∃ back, lookups.own ip name = some back ∧ ip ∈ back) ∨
  (∀ name ∈ names, lookups.addresses name = none) ∨
  (∀ name ∈ names, (lookups.own ip name).isSome)

/-- The message breaks the test off, or the reverse DNS of its sender is known. -/
def Settled (lookups : Lookups) (message : Message) : Prop :=
  Breaks message ∨
    ∀ ip names, message.ip = some ip → lookups.ptr ip = some names →
      Known lookups ip (followed names)

/-! ## Lookups that answer more -/

namespace Extends

variable {fewer more : Lookups}

private theorem map {Question Answer Image : Type*} {fewer more : Question → Option Answer}
    (grows : DomainLens.Extends fewer more) (image : Answer → Image) :
    DomainLens.Extends (fun question => (fewer question).map image)
      (fun question => (more question).map image) := by
  intro question result told
  obtain ⟨answer, held, rfl⟩ := Option.map_eq_some_iff.mp told
  exact Option.map_eq_some_iff.mpr ⟨answer, grows question answer held, rfl⟩

theorem txt' (grows : Extends fewer more) : DomainLens.Extends fewer.txt more.txt :=
  map grows.txt (List.map joined)

theorem ptr' (grows : Extends fewer more) : DomainLens.Extends fewer.ptr more.ptr :=
  map grows.ptr _

theorem dkimKey (grows : Extends fewer more) :
    DomainLens.Extends fewer.dkimKey more.dkimKey :=
  fun name => map grows.txt' List.head? (withoutDots name)

theorem own (grows : Extends fewer more) (ip : Address) :
    DomainLens.Extends (fewer.own ip) (more.own ip) := by
  cases ip with
  | v4 bits => exact map grows.v4 (List.map Address.v4)
  | v6 bits => exact map grows.v6 (List.map Address.v6)

end Extends

/-! ## SPF -/

private theorem spfAnswer_eq_some {lookups : Lookups} {question : Address × Text × Text}
    {answer : Text × Option Text} :
    lookups.spfAnswer question = some answer ↔
      lookups.spf question = .ok answer ∧ answer.1 ≠ "temperror".toList := by
  unfold Lookups.spfAnswer
  cases lookups.spf question with
  | error problem => simp
  | ok other =>
      obtain ⟨result, explanation⟩ := other
      by_cases temporary : result = "temperror".toList
      · simp only [temporary, if_true, Except.ok.injEq]
        constructor
        · intro found
          cases found
        · rintro ⟨rfl, definite⟩
          exact absurd rfl definite
      · simp only [temporary, if_false, Option.some.injEq, Except.ok.injEq]
        constructor
        · rintro rfl
          exact ⟨rfl, temporary⟩
        · exact And.left

private theorem answered_measured {out : Spf} {answer : Except Text (Text × Option Text)}
    (before : out.state = .unmeasured) (measured : (out.answered answer).state = .measured) :
    ∃ told, answer = .ok told ∧ told.1 ≠ "temperror".toList := by
  cases answer with
  | error problem => simp [Spf.answered, before] at measured
  | ok told =>
      refine ⟨told, rfl, fun temporary => ?_⟩
      simp [Spf.answered, temporary, before] at measured

private theorem checkSpf_extends {fewer more : Lookups} (grows : Extends fewer more)
    {ip : Option Address} {mailFrom helo : Option Text}
    (measured : (checkSpf fewer ip mailFrom helo).state = .measured) :
    checkSpf more ip mailFrom helo = checkSpf fewer ip mailFrom helo := by
  unfold checkSpf at measured ⊢
  cases asked : spfQuestion ip mailFrom helo with
  | error explanation => rfl
  | ok question =>
      rw [asked] at measured
      obtain ⟨told, answer, definite⟩ := answered_measured rfl measured
      have kept := grows.spf _ _ (spfAnswer_eq_some.mpr ⟨answer, definite⟩)
      simp only [(spfAnswer_eq_some.mp kept).1, answer]

private theorem answered_sound {out : Spf} {answer : Except Text (Text × Option Text)}
    (before : out.result = none) {result : Text}
    (found : (out.answered answer).result = some result) :
    (out.answered answer).state = .measured := by
  cases answer with
  | error problem => simp [Spf.answered, before] at found
  | ok told =>
      simp only [Spf.answered] at found ⊢
      split at found
      · simp [before] at found
      · rename_i definite
        rw [if_neg definite]

private theorem checkSpf_sound {lookups : Lookups} {ip : Option Address}
    {mailFrom helo : Option Text} {result : Text}
    (found : (checkSpf lookups ip mailFrom helo).result = some result) :
    (checkSpf lookups ip mailFrom helo).state = .measured := by
  unfold checkSpf at found ⊢
  cases asked : spfQuestion ip mailFrom helo with
  | error explanation =>
      rw [asked] at found
      cases found
  | ok question =>
      rw [asked] at found
      exact answered_sound rfl found

/-! ## DKIM -/

/-- What is said of a signature with a verdict is said under lookups that answer more. -/
private def Later (sig other : Signature) : Prop := sig.state = .measured → other = sig

@[simp] private theorem orAltered_state {receiver : List ReceiverEntry} {b : Text}
    {sig : Signature} (unmeasured : sig.result = none) : orAltered receiver b sig = sig := by
  simp [orAltered, unmeasured]

private theorem checkKey_extends {libraries : Libraries} {fewer more : Lookups}
    (grows : Extends fewer more) {message : Message} {index : Nat} {tags : List (Text × Text)}
    {record : Option Text} :
    Later (checkKey libraries fewer message index tags record)
      (checkKey libraries more message index tags record) := by
  intro measured
  unfold checkKey at measured ⊢
  split
  · rfl
  split
  · rfl
  rename_i body sent
  simp only [body, sent] at measured
  cases found : (libraries.verify message.raw index).answered fewer.dkimKey with
  | none =>
      rw [found] at measured
      simp [Signature.notLookedUp, Signature.ofTags, orAltered] at measured
  | some outcome => rw [Asking.answered_extends grows.dkimKey found]

/-- A result is given of what was measured only. -/
private def Sound (sig : Signature) : Prop := sig.result ≠ none → sig.state = .measured

private theorem concluded_state (sig : Signature) (outcome : Outcome) :
    (concluded sig outcome).state = .measured := by
  cases outcome <;> rfl

private theorem sound_orAltered {receiver : List ReceiverEntry} {b : Text} {sig : Signature}
    (sound : Sound sig) : Sound (orAltered receiver b sig) := by
  unfold orAltered
  split
  · intro result
    exact absurd rfl result
  · exact sound

private theorem sound_checkKey (libraries : Libraries) (lookups : Lookups) (message : Message)
    (index : Nat) (tags : List (Text × Text)) (record : Option Text) :
    Sound (checkKey libraries lookups message index tags record) := by
  unfold checkKey
  split
  · dsimp only
    split
    · exact fun _ => rfl
    · exact fun result => absurd rfl result
  split
  · dsimp only
    split
    · exact fun _ => rfl
    · exact fun result => absurd rfl result
  apply sound_orAltered
  cases (libraries.verify message.raw index).answered lookups.dkimKey with
  | none => exact fun result => absurd rfl result
  | some outcome => exact fun _ => concluded_state _ outcome

private theorem sound_checkSignature {libraries : Libraries} {lookups : Lookups}
    {message : Message} {index : Nat} {value : Text} {sig : Signature}
    (checked : checkSignature libraries lookups message index value = some sig) : Sound sig := by
  unfold checkSignature at checked
  simp only at checked
  split at checked
  · cases checked
    exact fun _ => rfl
  split at checked
  · cases checked
  cases checked
  cases lookups.dkimKey (Signature.ofTags (tagsOf value)).keyName with
  | none => exact fun result => absurd rfl result
  | some record => exact sound_checkKey _ _ _ _ _ _

private theorem checkSignature_extends {libraries : Libraries} {fewer more : Lookups}
    (grows : Extends fewer more) {message : Message} {index : Nat} {value : Text}
    {sig : Signature} (checked : checkSignature libraries fewer message index value = some sig) :
    ∃ other, checkSignature libraries more message index value = some other ∧ Later sig other := by
  unfold checkSignature at checked ⊢
  simp only at checked ⊢
  split at checked
  · rename_i unnamed
    rw [if_pos unnamed]
    exact ⟨_, rfl, fun _ => Option.some.inj checked⟩
  split at checked
  · cases checked
  rename_i named ascii
  rw [if_neg named, if_neg ascii]
  refine ⟨_, rfl, ?_⟩
  cases Option.some.inj checked
  intro measured
  cases told : fewer.dkimKey (Signature.ofTags (tagsOf value)).keyName with
  | none =>
      rw [told] at measured
      cases measured
  | some record =>
      rw [told] at measured
      rw [grows.dkimKey _ _ told]
      exact checkKey_extends grows measured

private theorem checkSignature_eq_none {libraries : Libraries} {lookups : Lookups}
    {message : Message} {index : Nat} {value : Text} :
    checkSignature libraries lookups message index value = none ↔
      (Signature.ofTags (tagsOf value)).domain ≠ [] ∧
      (Signature.ofTags (tagsOf value)).selector ≠ [] ∧
      (Signature.ofTags (tagsOf value)).keyName.any (fun char => 128 ≤ char.toNat) = true := by
  unfold checkSignature
  simp only
  split
  · rename_i unnamed
    simp only [reduceCtorEq, false_iff]
    rintro ⟨domain, selector, _⟩
    exact unnamed.elim domain selector
  rename_i named
  push Not at named
  split
  · rename_i foreign
    exact ⟨fun _ => ⟨named.1, named.2, foreign⟩, fun _ => rfl⟩
  · rename_i ascii
    simp only [reduceCtorEq, false_iff]
    exact fun broken => ascii broken.2.2

private theorem checkSignatures_extends {libraries : Libraries} {fewer more : Lookups}
    (grows : Extends fewer more) {message : Message} :
    ∀ (values : List Text) {index : Nat} {signatures : List Signature},
      checkSignatures libraries fewer message index values = some signatures →
      ∃ others, checkSignatures libraries more message index values = some others ∧
        List.Forall₂ (fun sig other => Sound sig ∧ Later sig other) signatures others
  | [], index, signatures, checked => by
      cases checked
      exact ⟨[], rfl, .nil⟩
  | value :: values, index, signatures, checked => by
      obtain ⟨sig, first, checked⟩ := Option.bind_eq_some_iff.mp checked
      obtain ⟨rest, remaining, same⟩ := Option.bind_eq_some_iff.mp checked
      cases Option.some.inj same
      obtain ⟨other, again, later⟩ := checkSignature_extends grows first
      obtain ⟨others, rest', pairs⟩ := checkSignatures_extends grows values remaining
      refine ⟨other :: others, ?_, .cons ⟨sound_checkSignature first, later⟩ pairs⟩
      exact Option.bind_eq_some_iff.mpr ⟨other, again, Option.bind_eq_some_iff.mpr
        ⟨others, rest', rfl⟩⟩

private theorem checkSignatures_eq_none {libraries : Libraries} {lookups : Lookups}
    {message : Message} :
    ∀ (values : List Text) (index : Nat),
      checkSignatures libraries lookups message index values = none ↔
        ∃ value ∈ values, (Signature.ofTags (tagsOf value)).domain ≠ [] ∧
          (Signature.ofTags (tagsOf value)).selector ≠ [] ∧
          (Signature.ofTags (tagsOf value)).keyName.any (fun char => 128 ≤ char.toNat) = true
  | [], index => by simp [checkSignatures]
  | value :: values, index => by
      simp only [List.mem_cons, exists_eq_or_imp]
      rw [← @checkSignature_eq_none libraries,
        ← checkSignatures_eq_none values (index + 1)]
      cases first : checkSignature libraries lookups message index value with
      | none => simp [checkSignatures, first]
      | some sig =>
          cases rest : checkSignatures libraries lookups message (index + 1) values with
          | none => simp [checkSignatures, first, rest]
          | some signatures => simp [checkSignatures, first, rest]

private theorem checkDkim_eq_none {libraries : Libraries} {lookups : Lookups} {message : Message} :
    checkDkim libraries lookups message = none ↔ Breaks message := by
  rw [checkDkim, Option.map_eq_none_iff, checkSignatures_eq_none]
  rfl

/-! ## DMARC -/

private theorem searchPolicy_extends {fewer more : Lookups} (grows : Extends fewer more) :
    DomainLens.Extends (searchPolicy fewer) (searchPolicy more)
  | [], found, searched => searched
  | name :: names, found, searched => by
      obtain ⟨records, told, searched⟩ := Option.bind_eq_some_iff.mp searched
      refine Option.bind_eq_some_iff.mpr ⟨records, grows.txt' _ _ told, ?_⟩
      revert searched
      cases records.find? _ with
      | some record => exact id
      | none => exact searchPolicy_extends grows names found

private theorem forall₂_eq {signatures others : List Signature}
    (pairs : List.Forall₂ (fun sig other => Sound sig ∧ Later sig other) signatures others)
    (measured : ∀ sig ∈ signatures, sig.state = .measured) : others = signatures := by
  induction pairs with
  | nil => rfl
  | @cons sig other _ _ pair _ induction =>
      rw [pair.2 (measured sig List.mem_cons_self),
        induction fun sig member => measured sig (List.mem_cons_of_mem _ member)]

private theorem mem_of_forall₂ {signatures others : List Signature}
    (pairs : List.Forall₂ (fun sig other => Sound sig ∧ Later sig other) signatures others)
    {sig : Signature} (member : sig ∈ signatures) (measured : sig.state = .measured) :
    sig ∈ others := by
  obtain ⟨index, bound, rfl⟩ := List.getElem_of_mem member
  have within : index < others.length := pairs.length_eq ▸ bound
  have kept : others[index] = signatures[index] := (pairs.get bound within).2 measured
  exact kept ▸ List.getElem_mem within

private theorem judgeDmarc_result (fromDomain : Text) (spf : Spf) (dkim : Dkim)
    (found : List (Text × Text) × Option Text) :
    (judgeDmarc fromDomain spf dkim found).result =
      if found.1 = [] then some .none
      else if spf.alignedWith fromDomain found.1 || dkim.alignedWith fromDomain found.1 then
        some .pass
      else if spf.state ≠ .measured ∨ dkim.state ≠ .measured then none
      else some .fail := by
  simp only [judgeDmarc, apply_ite Dmarc.result]
  rfl

private theorem spf_alignedWith_extends {spf other : Spf}
    (same : spf.state = .measured → other = spf) {fromDomain : Text} {tags : List (Text × Text)}
    (isAligned : spf.alignedWith fromDomain tags = true) :
    other.alignedWith fromDomain tags = true := by
  have measured : spf.state = .measured := by
    simp only [Spf.alignedWith, Spf.ok, Bool.and_eq_true, decide_eq_true_eq] at isAligned
    exact isAligned.1.1
  rw [same measured, isAligned]

private theorem dkim_alignedWith_extends {signatures others : List Signature}
    (pairs : List.Forall₂ (fun sig other => Sound sig ∧ Later sig other) signatures others)
    {fromDomain : Text} {tags : List (Text × Text)}
    (isAligned : (Dkim.ofSignatures signatures).alignedWith fromDomain tags = true) :
    (Dkim.ofSignatures others).alignedWith fromDomain tags = true := by
  obtain ⟨sig, passes, held⟩ := List.any_eq_true.mp isAligned
  obtain ⟨member, measured, pass⟩ : sig ∈ signatures ∧ sig.state = .measured ∧
      sig.result = some .pass := by
    simpa [Dkim.passing, Dkim.ofSignatures] using passes
  apply List.any_eq_true.mpr
  refine ⟨sig, ?_, held⟩
  simpa [Dkim.passing, Dkim.ofSignatures, measured, pass] using
    mem_of_forall₂ pairs member measured

private theorem judgeDmarc_extends {fromDomain : Text} {spf other : Spf}
    {signatures others : List Signature} {found : List (Text × Text) × Option Text}
    (same : spf.state = .measured → other = spf)
    (pairs : List.Forall₂ (fun sig other => Sound sig ∧ Later sig other) signatures others)
    {result : DmarcResult}
    (judged : (judgeDmarc fromDomain spf (.ofSignatures signatures) found).result = some result) :
    (judgeDmarc fromDomain other (.ofSignatures others) found).result = some result := by
  rw [judgeDmarc_result] at judged ⊢
  split at judged
  · rename_i unpublished
    rwa [if_pos unpublished]
  rename_i published
  rw [if_neg published]
  split at judged
  · rename_i passes
    rw [if_pos, judged]
    rw [Bool.or_eq_true] at passes ⊢
    exact passes.imp (spf_alignedWith_extends same) (dkim_alignedWith_extends pairs)
  split at judged
  · cases judged
  rename_i fails measured
  push Not at measured
  have all : ∀ sig ∈ signatures, sig.state = .measured := by
    simpa [Dkim.ofSignatures] using measured.2
  rw [same measured.1, forall₂_eq pairs all, if_neg fails, if_neg (by simpa using measured)]
  exact judged

/-! ## Reverse DNS -/

private theorem addresses_eq_none {lookups : Lookups} {name : Text} :
    lookups.addresses name = none ↔
      lookups.resolveA name = none ∧ lookups.resolveAaaa name = none := by
  unfold Lookups.addresses
  cases lookups.resolveA name <;> cases lookups.resolveAaaa name <;> simp

private theorem mem_addresses {lookups : Lookups} {ip : Address} {name : Text} :
    (∃ back, lookups.addresses name = some back ∧ ip ∈ back) ↔
      ∃ back, lookups.own ip name = some back ∧ ip ∈ back := by
  unfold Lookups.addresses
  cases ip <;> cases v4 : lookups.resolveA name <;> cases v6 : lookups.resolveAaaa name <;>
    simp [Lookups.own, v4, v6]

private theorem addresses_isSome_extends {fewer more : Lookups} (grows : Extends fewer more)
    {name : Text} (told : fewer.addresses name ≠ none) : more.addresses name ≠ none := by
  intro failed
  obtain ⟨v4, v6⟩ := addresses_eq_none.mp failed
  apply told
  rw [addresses_eq_none]
  constructor
  · by_contra known
    obtain ⟨back, held⟩ := Option.ne_none_iff_exists'.mp known
    rw [grows.v4 _ _ held] at v4
    cases v4
  · by_contra known
    obtain ⟨back, held⟩ := Option.ne_none_iff_exists'.mp known
    rw [grows.v6 _ _ held] at v6
    cases v6

private theorem foldl_follow_eq_none {lookups : Lookups} {ip : Address} :
    ∀ {names : List Text} {start : Option Bool},
      names.foldl (follow lookups ip) start = none ↔
        start = none ∧ ∀ name ∈ names, lookups.addresses name = none
  | [], start => by simp
  | name :: names, start => by
      rw [List.foldl_cons, foldl_follow_eq_none, List.forall_mem_cons, ← and_assoc]
      apply and_congr_left'
      unfold follow
      cases lookups.addresses name <;> simp

private theorem foldl_follow_eq_true {lookups : Lookups} {ip : Address} :
    ∀ {names : List Text} {start : Option Bool},
      names.foldl (follow lookups ip) start = some true ↔
        start = some true ∨
          ∃ name ∈ names, ∃ back, lookups.addresses name = some back ∧ ip ∈ back
  | [], start => by simp
  | name :: names, start => by
      rw [List.foldl_cons, foldl_follow_eq_true]
      simp only [List.mem_cons, exists_eq_or_imp, ← or_assoc]
      apply or_congr_left
      unfold follow
      cases told : lookups.addresses name with
      | none => simp
      | some back => cases start with
        | none => simp
        | some known => simp

theorem confirmed_eq_none {lookups : Lookups} {ip : Address} {names : List Text} :
    confirmed lookups ip names = none ↔ ∀ name ∈ names, lookups.addresses name = none := by
  rw [confirmed, foldl_follow_eq_none]
  exact ⟨And.right, fun failed => ⟨rfl, failed⟩⟩

/-- The reverse DNS points back when an address of the same family says so. -/
theorem confirmed_eq_true {lookups : Lookups} {ip : Address} {names : List Text} :
    confirmed lookups ip names = some true ↔
      ∃ name ∈ names, ∃ back, lookups.own ip name = some back ∧ ip ∈ back := by
  simp only [← mem_addresses]
  rw [confirmed, foldl_follow_eq_true]
  exact ⟨fun known => known.resolve_left nofun, Or.inr⟩

private theorem fcrdns_eq_some {lookups : Lookups} {ip : Option Address} {points : Bool} :
    (checkServer lookups ip).fcrdns = some points ↔
      ∃ address names, ip = some address ∧ lookups.ptr address = some names ∧
        confirmed lookups address (followed names) = some points := by
  cases ip with
  | none => simp [checkServer]
  | some address =>
      simp only [checkServer, Option.bind_some, Option.some.injEq]
      cases told : lookups.ptr address with
      | none => simp [told]
      | some names => cases names with
        | nil => simp [told, followed, confirmed]
        | cons name names => simp [told]

private theorem confirmed_extends {fewer more : Lookups} (grows : Extends fewer more)
    {ip : Address} {names : List Text} (known : Known fewer ip names) {points : Bool}
    (found : confirmed fewer ip names = some points) : confirmed more ip names = some points := by
  rcases known with hit | failed | all
  · have told := confirmed_eq_true.mpr hit
    rw [found] at told
    rw [told, confirmed_eq_true]
    obtain ⟨name, member, back, held, points⟩ := hit
    exact ⟨name, member, back, grows.own ip name back held, points⟩
  · rw [confirmed_eq_none.mpr failed] at found
    cases found
  · -- The lookups of the family answered already, so nothing new can point back.
    have same : ∀ name ∈ names, more.own ip name = fewer.own ip name := by
      intro name member
      obtain ⟨back, held⟩ := Option.isSome_iff_exists.mp (all name member)
      rw [held, grows.own ip name back held]
    have iff : confirmed more ip names = some true ↔ confirmed fewer ip names = some true := by
      rw [confirmed_eq_true, confirmed_eq_true]
      constructor
      · rintro ⟨name, member, back, held, points⟩
        exact ⟨name, member, back, same name member ▸ held, points⟩
      · rintro ⟨name, member, back, held, points⟩
        exact ⟨name, member, back, (same name member).trans held, points⟩
    have told : confirmed more ip names ≠ none := by
      intro none
      rw [confirmed_eq_none] at none
      have known : confirmed fewer ip names ≠ .none := by simp [found]
      apply known
      rw [confirmed_eq_none]
      intro name member
      by_contra held
      exact addresses_isSome_extends grows held (none name member)
    cases points with
    | true => exact iff.mpr found
    | false =>
        obtain ⟨other, held⟩ := Option.ne_none_iff_exists'.mp told
        cases other with
        | false => exact held
        | true => rw [iff.mp held] at found; cases found

/-- The lookups, with an address at a name. -/
def Lookups.answering (lookups : Lookups) (ip : Address) (name : Text) : Lookups :=
  match ip with
  | .v4 bits =>
      { lookups with
        resolveA := fun host => if host = name then some [bits] else lookups.resolveA host }
  | .v6 bits =>
      { lookups with
        resolveAaaa := fun host => if host = name then some [bits] else lookups.resolveAaaa host }

private theorem extends_update {Answer : Type*} {oracle : Text → Option Answer} {name : Text}
    (failed : oracle name = none) (answer : Answer) :
    DomainLens.Extends oracle fun host => if host = name then some answer else oracle host := by
  intro host other told
  simp only
  split
  · rename_i same
    rw [same, failed] at told
    cases told
  · exact told

private theorem extends_answering {lookups : Lookups} {ip : Address} {name : Text}
    (failed : lookups.own ip name = none) : Extends lookups (lookups.answering ip name) := by
  cases ip with
  | v4 bits => exact
      { txt := fun _ _ => id
        v4 := extends_update (Option.map_eq_none_iff.mp failed) _
        v6 := fun _ _ => id
        ptr := fun _ _ => id
        spf := fun _ _ => id }
  | v6 bits => exact
      { txt := fun _ _ => id
        v4 := fun _ _ => id
        v6 := extends_update (Option.map_eq_none_iff.mp failed) _
        ptr := fun _ _ => id
        spf := fun _ _ => id }

private theorem own_answering (lookups : Lookups) (ip : Address) (name : Text) :
    (lookups.answering ip name).own ip name = some [ip] := by
  cases ip <;> simp [Lookups.answering, Lookups.own]

/-! ## The verdicts -/

private theorem analyse_eq_some {libraries : Libraries} {lookups : Lookups} {message : Message}
    {analysis : Analysis} :
    analyse libraries lookups message = some analysis ↔
      ∃ signatures, checkSignatures libraries lookups message 0
          (message.dkimSignatures.take maxSignatures) = some signatures ∧
        { spf := checkSpf lookups message.ip message.mailFrom message.helo
          dkim := .ofSignatures signatures
          dmarc := checkDmarc lookups message.fromDomain
            (checkSpf lookups message.ip message.mailFrom message.helo) (.ofSignatures signatures)
          server := checkServer lookups message.ip } = analysis := by
  simp only [analyse, checkDkim, Option.map_map, Option.map_eq_some_iff, Function.comp]

private theorem dkim_keeps {signatures others : List Signature}
    (pairs : List.Forall₂ (fun sig other => Sound sig ∧ Later sig other) signatures others)
    {index : Nat} {sig : Signature} {verdict : Verdict} (member : signatures[index]? = some sig)
    (found : sig.result = some verdict) :
    ∃ other, others[index]? = some other ∧ other.result = some verdict := by
  obtain ⟨bound, rfl⟩ := List.getElem?_eq_some_iff.mp member
  have within : index < others.length := pairs.length_eq ▸ bound
  obtain ⟨sound, later⟩ := pairs.get bound within
  have kept : others[index] = signatures[index] := later (sound (by
    rw [List.get_eq_getElem, found]
    exact Option.some_ne_none _))
  exact ⟨others[index], List.getElem?_eq_getElem within, kept ▸ found⟩

private theorem checkDmarc_extends {fewer more : Lookups} (grows : Extends fewer more)
    {fromDomain : Option Text} {spf other : Spf} {signatures others : List Signature}
    (same : spf.state = .measured → other = spf)
    (pairs : List.Forall₂ (fun sig other => Sound sig ∧ Later sig other) signatures others)
    {result : DmarcResult}
    (found : (checkDmarc fewer fromDomain spf (.ofSignatures signatures)).result = some result) :
    (checkDmarc more fromDomain other (.ofSignatures others)).result = some result := by
  unfold checkDmarc at found ⊢
  cases sender : fromDomain.filter (· ≠ []) with
  | none =>
      rw [sender] at found
      exact found
  | some domain =>
      simp only [sender] at found ⊢
      cases searched : dmarcPolicy fewer domain with
      | none =>
          rw [searched] at found
          cases found
      | some policy =>
          rw [searched] at found
          have again : dmarcPolicy more domain = some policy :=
            searchPolicy_extends grows _ _ searched
          rw [again]
          exact judgeDmarc_extends same pairs found

private theorem keeps_of_known {libraries : Libraries} {fewer more : Lookups} {message : Message}
    (grows : Extends fewer more)
    (known : ∀ ip names, message.ip = some ip → fewer.ptr ip = some names →
      Known fewer ip (followed names))
    {before : Analysis} (analysed : analyse libraries fewer message = some before) :
    ∃ after, analyse libraries more message = some after ∧ Keeps before after := by
  obtain ⟨signatures, checked, rfl⟩ := analyse_eq_some.mp analysed
  obtain ⟨others, again, pairs⟩ := checkSignatures_extends grows _ checked
  refine ⟨_, analyse_eq_some.mpr ⟨others, again, rfl⟩, ?_⟩
  exact
    { spf := fun result found =>
        (congrArg Spf.result (checkSpf_extends grows (checkSpf_sound found))).trans found
      dkim := fun index sig verdict member found => dkim_keeps pairs member found
      dmarc := fun result found => checkDmarc_extends grows (checkSpf_extends grows) pairs found
      fcrdns := fun points found => by
        obtain ⟨address, names, sender, told, found⟩ := fcrdns_eq_some.mp found
        exact fcrdns_eq_some.mpr ⟨address, names, sender, grows.ptr' _ _ told,
          confirmed_extends grows (known address names sender told) found⟩ }

private theorem open_of_not_known {lookups : Lookups} {ip : Address} {names : List Text}
    (unknown : ¬ Known lookups ip names) :
    confirmed lookups ip names = some false ∧
      ∃ name, Extends lookups (lookups.answering ip name) ∧
        confirmed (lookups.answering ip name) ip names = some true := by
  simp only [Known, not_or, not_forall] at unknown
  obtain ⟨noHit, ⟨looked, lookedIn, answered⟩, name, member, failed⟩ := unknown
  rw [Option.not_isSome_iff_eq_none] at failed
  constructor
  · cases found : confirmed lookups ip names with
    | none => exact absurd (confirmed_eq_none.mp found looked lookedIn) answered
    | some points => cases points with
      | true => exact absurd (confirmed_eq_true.mp found) noHit
      | false => rfl
  · exact ⟨name, extends_answering failed, confirmed_eq_true.mpr
      ⟨name, member, [ip], own_answering lookups ip name, List.mem_singleton_self ip⟩⟩

/-- The verdicts of the test stand under all lookups that answer more exactly when the test breaks
off on the message, or no lookup that failed leaves open whether the reverse DNS points back. -/
theorem stable_iff_settled (libraries : Libraries) (lookups : Lookups) (message : Message) :
    Stable libraries lookups message ↔ Settled lookups message := by
  constructor
  · intro stable
    by_cases breaks : Breaks message
    · exact Or.inl breaks
    refine Or.inr fun ip names sender told => ?_
    by_contra unknown
    obtain ⟨misses, name, grows, points⟩ := open_of_not_known unknown
    have checked : checkDkim libraries lookups message ≠ none := mt checkDkim_eq_none.mp breaks
    obtain ⟨dkim, checked⟩ := Option.ne_none_iff_exists'.mp checked
    obtain ⟨signatures, checked, -⟩ := Option.map_eq_some_iff.mp checked
    obtain ⟨after, again, keeps⟩ := stable _ grows _ (analyse_eq_some.mpr ⟨signatures, checked, rfl⟩)
    have still := keeps.fcrdns false (fcrdns_eq_some.mpr ⟨ip, names, sender, told, misses⟩)
    obtain ⟨signatures, _, rfl⟩ := analyse_eq_some.mp again
    obtain ⟨address, others, same, told', found⟩ := fcrdns_eq_some.mp still
    cases sender.symm.trans same
    cases (grows.ptr' ip names told).symm.trans told'
    rw [points] at found
    cases found
  · intro settled more grows before analysed
    rcases settled with breaks | known
    · rw [analyse, checkDkim_eq_none.mpr breaks] at analysed
      cases analysed
    · exact keeps_of_known grows known analysed

/-! ## A lookup that failed -/

def noLibraries : Libraries where
  verify _ _ := .done (.refused [])
  keySize _ := none

/-- One name, with its A records where they are looked up and no AAAA record. -/
def oneName (records : Option (List (BitVec 32))) : Lookups where
  resolveTxt _ := some []
  resolveA _ := records
  resolveAaaa _ := some []
  resolvePtr _ := some ["mx.example.org.".toList]
  spf _ := .error "SPFError".toList

/-- A message from 192.0.2.10 without signatures. -/
def unsignedMessage : Message where
  raw := []
  ip := some (.v4 0xC000020A#32)
  mailFrom := none
  helo := none
  fromDomain := some "example.org".toList
  dkimSignatures := []
  receiver := []
  hasBody := true
  bodyAsSent := true

/-- The A lookup fails and the AAAA lookup finds nothing: the reverse DNS is said not to point back,
which the A record would have shown that it does. -/
theorem oneName_not_stable : ¬ Stable noLibraries (oneName none) unsignedMessage := by
  intro stable
  have grows : Extends (oneName none) (oneName (some [0xC000020A#32])) :=
    { txt := fun _ _ => id
      v4 := fun _ _ => nofun
      v6 := fun _ _ => id
      ptr := fun _ _ => id
      spf := fun _ _ => id }
  obtain ⟨after, analysed, keeps⟩ := stable _ grows _ rfl
  cases analysed
  have still := keeps.fcrdns false (by decide)
  have points : (checkServer (oneName (some [0xC000020A#32])) unsignedMessage.ip).fcrdns = some true := by
    decide
  rw [points] at still
  cases still

end MailTest
end DomainLens
