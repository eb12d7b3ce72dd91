import DomainLens.DomainPortfolio.Hostnames
import DomainLens.Exports
import DomainLens.Library.CsvReader
import DomainLens.Python.UrlParse

/-!
# Domains in a pasted text

A pasted text or CSV is read cell by cell, and each cell token by token.  A token that is a name is accepted
once, and another one with a dot is rejected.  The file settles which tokens are neither.
-/

namespace DomainLens
namespace WhoisBatch

open Python UrlParse

/-! ## Tokens -/

/-- `csv.reader` of a text; none where it ends with an error. -/
def readCells (text : Text) : Option (List Text) :=
  (Exports.lineEnds.readRows 131072 text).map List.flatten

/-- The tokens of a cell, without quotes around them. -/
def cellTokens (cell : Text) : List Text :=
  ((cell.splitOnP fun char => isSpace char || char == ';').map fun token =>
    lower (stripOf ['"', '\''] (strip token))).filter (· ≠ [])

def tokensOf (cells : List Text) : List Text := cells.flatMap cellTokens

/-- `.split("/")[0].rstrip(".")`. -/
def frontOf (token : Text) : Text := (before '/' token).rdropWhile (· = '.')

def mark : Text := "://".toList

/-- A text without a leading `www.`. -/
def withoutWww (name : Text) : Text := if "www.".toList <+: name then name.drop 4 else name

variable (nfkc : Text → Text)

/-- The name that a token is meant as, unless `urlparse` does not take it. -/
def meant (token : Text) : Option Text :=
  if mark <:+: token then
    (urlsplit nfkc token).map fun parts => withoutWww (frontOf (hostname parts.netloc))
  else some (withoutWww (frontOf token))

/-! ## Names -/

/-- The accepted names and the rejected ones. -/
structure Names where
  domains : List Text
  rejected : List Text
deriving DecidableEq

def Names.take (names : Names) (name : Text) : Names :=
  if dollar DomainPortfolio.isDomainName name then
    if name ∈ names.domains then names else { names with domains := names.domains ++ [name] }
  else if '.' ∈ name then { names with rejected := names.rejected ++ [name] }
  else names

/-- `parse_domains`; none where it raises. -/
def parseDomains (text : Text) : Option Names :=
  (readCells text).bind fun cells =>
    (tokensOf cells).foldlM (fun names token => (meant nfkc token).map names.take) ⟨[], []⟩

/-! ## What a token says -/

/-- A text behind its scheme, if it has one. -/
def withoutScheme (token : Text) : Text :=
  if isScheme (before ':' token) ∧ mark <+: token.dropWhile (· ≠ ':') then
    (token.dropWhile (· ≠ ':')).drop 3
  else token

/-- A token without scheme, path and trailing dots. -/
def bare (token : Text) : Text := frontOf (withoutScheme token)

/-- No name of a text is lost: its characters stand in the cells but for commas, quotes and line ends, every
    accepted name stands once, in the order of first appearance, and what a dotted token is meant as is
    accepted or rejected. -/
structure Lossless (text : Text) (cells meanings : List Text) (names : Names) : Prop where
  read : readCells text = some cells
  whole : cells.flatten.filter Exports.lineEnds.isText = text.filter Exports.lineEnds.isText
  tokens : (tokensOf cells).mapM (meant nfkc) = some meanings
  parsed : parseDomains nfkc text = some names
  distinct : names.domains.Nodup
  ordered : names.domains.Pairwise fun first second => meanings.idxOf first < meanings.idxOf second
  kept : ∀ token ∈ tokensOf cells, '.' ∈ bare token →
    ∃ name ∈ names.domains ++ names.rejected, meant nfkc token = some name

/-- The text is one for `csv.reader` and `urlparse`.  A dotted token is more than `www.` and one label, and
    where it has the mark of a scheme, its host has a dot beside one at its end or behind `www`. -/
structure Plain (text : Text) (cells : List Text) : Prop where
  read : readCells text = some cells
  urls : ∀ token ∈ tokensOf cells, mark <:+: token → urlsplit nfkc token ≠ none
  labels : ∀ token ∈ tokensOf cells, ¬ mark <:+: token → '.' ∈ bare token →
    '.' ∈ withoutWww (bare token)
  hosts : ∀ token ∈ tokensOf cells, mark <:+: token → '.' ∈ bare token →
    ∀ parts, urlsplit nfkc token = some parts →
      '.' ∈ withoutWww ((hostname parts.netloc).rdropWhile (· = '.'))

/-! ## The pass over the tokens -/

section Pass

variable {nfkc}

theorem fromKeys_concat (values : List Text) (value : Text) :
    fromKeys (values ++ [value]) =
      if value ∈ values then fromKeys values else fromKeys values ++ [value] := by
  induction values with
  | nil => rfl
  | cons head values induction =>
      rw [List.cons_append, fromKeys, fromKeys, induction]
      by_cases same : value = head
      · subst same
        rw [if_pos List.mem_cons_self]
        split_ifs
        · rfl
        · rw [List.filter_append, List.filter_singleton]
          simp
      · simp only [List.mem_cons, same, false_or]
        split_ifs
        · rfl
        · rw [List.filter_append, List.filter_singleton, List.cons_append]
          simp [same]

theorem foldl_take (meanings : List Text) :
    meanings.foldl Names.take ⟨[], []⟩ =
      ⟨fromKeys (meanings.filter (dollar DomainPortfolio.isDomainName)),
        meanings.filter fun name => !dollar DomainPortfolio.isDomainName name && '.' ∈ name⟩ := by
  induction meanings using List.reverseRecOn with
  | nil => rfl
  | append_singleton meanings name induction =>
      rw [List.foldl_append, induction, List.foldl_cons, List.foldl_nil, Names.take, List.filter_append,
        List.filter_append, List.filter_singleton, List.filter_singleton]
      by_cases isName : dollar DomainPortfolio.isDomainName name = true
      · rw [if_pos isName, isName, cond_true, fromKeys_concat]
        simp only [mem_fromKeys, List.mem_filter, isName, and_true]
        split_ifs <;> simp
      · rw [if_neg isName]
        rw [Bool.not_eq_true] at isName
        by_cases dotted : '.' ∈ name <;> simp [isName, dotted]

theorem foldlM_meant (tokens : List Text) (names : Names) :
    tokens.foldlM (fun names token => (meant nfkc token).map names.take) names =
      (tokens.mapM (meant nfkc)).map fun meanings => meanings.foldl Names.take names := by
  induction tokens generalizing names with
  | nil => rfl
  | cons token tokens induction =>
      rw [List.foldlM_cons, List.mapM_cons]
      cases meant nfkc token with
      | none => rfl
      | some name =>
          rw [Option.map_some]
          simp only [Option.bind_eq_bind, Option.bind_some]
          rw [induction]
          cases tokens.mapM (meant nfkc) <;> rfl

theorem pairwise_fromKeys (meanings : List Text) (kept : Text → Bool) :
    (fromKeys (meanings.filter kept)).Pairwise fun first second =>
      meanings.idxOf first < meanings.idxOf second := by
  induction meanings with
  | nil => exact .nil
  | cons head meanings induction =>
      have later : ∀ name : Text, name ≠ head →
          (head :: meanings).idxOf name = meanings.idxOf name + 1 := fun name other =>
        List.idxOf_cons_ne _ other.symm
      rw [List.filter_cons]
      split_ifs with isKept
      · rw [fromKeys, List.pairwise_cons]
        constructor
        · intro name member
          have other : name ≠ head := by simpa using List.of_mem_filter member
          rw [List.idxOf_cons_self, later name other]
          exact Nat.succ_pos _
        · refine (induction.filter _).imp_of_mem fun {first second} inFirst inSecond before => ?_
          have first_other : first ≠ head := by simpa using List.of_mem_filter inFirst
          have second_other : second ≠ head := by simpa using List.of_mem_filter inSecond
          rw [later _ first_other, later _ second_other]
          exact Nat.succ_lt_succ before
      · have other : ∀ name ∈ fromKeys (meanings.filter kept), name ≠ head := by
          rintro name member rfl
          exact isKept (List.of_mem_filter (mem_fromKeys.mp member))
        refine induction.imp_of_mem fun {first second} inFirst inSecond before => ?_
        rw [later _ (other _ inFirst), later _ (other _ inSecond)]
        exact Nat.succ_lt_succ before

theorem dot_of_isName {name : Text} (isName : dollar DomainPortfolio.isDomainName name = true) :
    '.' ∈ name := by
  have dotted : ∀ text : Text, DomainPortfolio.isDomainName text = true → '.' ∈ text := by
    intro text isDomain
    by_contra absent
    have labels : DomainPortfolio.labelsOf text = [text] :=
      List.splitOnP_eq_singleton fun char member =>
        beq_eq_false_iff_ne.mpr fun same => absent (same ▸ member)
    simp [DomainPortfolio.isDomainName, labels] at isDomain
  rw [dollar, Bool.or_eq_true, Bool.and_eq_true] at isName
  rcases isName with whole | ⟨_, front⟩
  · exact dotted name whole
  · exact List.mem_of_mem_dropLast (dotted _ front)

theorem mem_names {meanings : List Text} {name : Text} :
    name ∈ (meanings.foldl Names.take ⟨[], []⟩).domains ++
        (meanings.foldl Names.take ⟨[], []⟩).rejected ↔ name ∈ meanings ∧ '.' ∈ name := by
  rw [foldl_take, List.mem_append, mem_fromKeys, List.mem_filter, List.mem_filter]
  constructor
  · rintro (⟨member, isName⟩ | ⟨member, other⟩)
    · exact ⟨member, dot_of_isName isName⟩
    · rw [Bool.and_eq_true, decide_eq_true_eq] at other
      exact ⟨member, other.2⟩
  · rintro ⟨member, dotted⟩
    cases isName : dollar DomainPortfolio.isDomainName name with
    | true => exact .inl ⟨member, rfl⟩
    | false => exact .inr ⟨member, by simpa using dotted⟩

end Pass

/-! ## What a dotted token is meant as -/

section Meant

variable {nfkc} {token : Text}

theorem withoutScheme_of_unmarked (unmarked : ¬ mark <:+: token) : withoutScheme token = token :=
  if_neg fun both => unmarked (both.2.isInfix.trans (List.dropWhile_suffix _).isInfix)

private theorem slash_not_mem_hostname {parts : SplitResult} (split : urlsplit nfkc token = some parts) :
    '/' ∉ hostname parts.netloc := by
  have free : '/' ∉ parts.netloc := by
    intro member
    unfold urlsplit at split
    dsimp only at split
    split_ifs at split
    obtain rfl := Option.some.inj split
    exact absurd ((isSplit_splitParts token).netloc _ member).1 (by decide)
  have inHost : ∀ char ∈ (hostinfo parts.netloc).2.1, char ∈ parts.netloc := by
    intro char member
    have tail : parts.netloc.rtakeWhile (· ≠ '@') ⊆ parts.netloc :=
      (List.rtakeWhile_suffix _ _).subset
    unfold hostinfo at member
    dsimp only at member
    split_ifs at member
    · exact tail (mem_of_mem_behind (mem_before member).1)
    · exact tail (mem_before member).1
  intro member
  rcases List.mem_append.mp member with lowered | zone
  · exact free (inHost _ (mem_before (mem_of_mem_lower (by decide) lowered)).1)
  · exact free (inHost _ ((List.dropWhile_suffix _).subset zone))

theorem meant_of_marked (marked : mark <:+: token) {parts : SplitResult}
    (split : urlsplit nfkc token = some parts) :
    meant nfkc token = some (withoutWww ((hostname parts.netloc).rdropWhile (· = '.'))) := by
  rw [meant, if_pos marked, split, Option.map_some, frontOf,
    before_of_not_mem (slash_not_mem_hostname split)]

theorem meant_of_unmarked (unmarked : ¬ mark <:+: token) :
    meant nfkc token = some (withoutWww (bare token)) := by
  rw [meant, if_neg unmarked, bare, withoutScheme_of_unmarked unmarked]

end Meant

private theorem exists_mapM {tokens : List Text}
    (total : ∀ token ∈ tokens, ∃ name, meant nfkc token = some name) :
    ∃ meanings, tokens.mapM (meant nfkc) = some meanings ∧
      ∀ token ∈ tokens, ∀ name, meant nfkc token = some name → name ∈ meanings := by
  induction tokens with
  | nil => exact ⟨[], rfl, fun _ member => absurd member List.not_mem_nil⟩
  | cons token tokens induction =>
      obtain ⟨name, isName⟩ := total token List.mem_cons_self
      obtain ⟨meanings, rest, members⟩ :=
        induction fun other member => total other (List.mem_cons_of_mem token member)
      refine ⟨name :: meanings, by rw [List.mapM_cons, isName, rest]; rfl, ?_⟩
      intro other member otherName isOther
      rcases List.mem_cons.mp member with rfl | later
      · obtain rfl := Option.some.inj (isName.symm.trans isOther)
        exact List.mem_cons_self
      · exact List.mem_cons_of_mem _ (members other later otherName isOther)

private theorem meant_of_mapM {tokens meanings : List Text}
    (read : tokens.mapM (meant nfkc) = some meanings) {token : Text} (member : token ∈ tokens) :
    meant nfkc token ≠ none := by
  induction tokens generalizing meanings with
  | nil => cases member
  | cons head tokens induction =>
      rw [List.mapM_cons] at read
      obtain ⟨name, isName, others⟩ := Option.bind_eq_some_iff.mp read
      obtain ⟨rest, isRest, -⟩ := Option.bind_eq_some_iff.mp others
      rcases List.mem_cons.mp member with rfl | later
      · exact Option.ne_none_iff_exists'.mpr ⟨name, isName⟩
      · exact induction isRest later

theorem filter_readCells {text : Text} {cells : List Text} (read : readCells text = some cells) :
    cells.flatten.filter Exports.lineEnds.isText = text.filter Exports.lineEnds.isText := by
  obtain ⟨rows, isRows, rfl⟩ := Option.map_eq_some_iff.mp read
  exact Dialect.LineEnds.filter_readRows isRows

/-- No name of a text is lost exactly if `csv.reader` and `urlparse` take it, and no dotted token is only
    `www.` and one label, or has the mark of a scheme but no host with such a dot. -/
theorem parseDomains_lossless (text : Text) :
    (∃ cells meanings names, Lossless nfkc text cells meanings names) ↔ ∃ cells, Plain nfkc text cells := by
  constructor
  · rintro ⟨cells, meanings, names, lossless⟩
    have parsed := lossless.parsed
    rw [parseDomains, lossless.read, Option.bind_some, foldlM_meant, lossless.tokens, Option.map_some]
      at parsed
    obtain rfl := Option.some.inj parsed
    have dotted : ∀ token ∈ tokensOf cells, '.' ∈ bare token → ∀ name, meant nfkc token = some name →
        '.' ∈ name := by
      intro token member dot name isName
      obtain ⟨other, kept, same⟩ := lossless.kept token member dot
      obtain rfl := Option.some.inj (same.symm.trans isName)
      exact (mem_names.mp kept).2
    refine ⟨cells, lossless.read, fun token member marked none => ?_, fun token member unmarked dot => ?_,
      fun token member marked dot parts split => ?_⟩
    · refine meant_of_mapM nfkc lossless.tokens member ?_
      rw [meant, if_pos marked, none, Option.map_none]
    · exact dotted token member dot _ (meant_of_unmarked unmarked)
    · exact dotted token member dot _ (meant_of_marked marked split)
  · rintro ⟨cells, plain⟩
    have total : ∀ token ∈ tokensOf cells, ∃ name, meant nfkc token = some name := by
      intro token member
      by_cases marked : mark <:+: token
      · obtain ⟨parts, split⟩ := Option.ne_none_iff_exists'.mp (plain.urls token member marked)
        exact ⟨_, meant_of_marked marked split⟩
      · exact ⟨_, meant_of_unmarked marked⟩
    obtain ⟨meanings, tokens, members⟩ := exists_mapM nfkc total
    refine ⟨cells, meanings, meanings.foldl Names.take ⟨[], []⟩, plain.read, filter_readCells plain.read,
      tokens, ?_, ?_, ?_, ?_⟩
    · rw [parseDomains, plain.read, Option.bind_some, foldlM_meant, tokens, Option.map_some]
    · rw [foldl_take]
      exact nodup_fromKeys _
    · rw [foldl_take]
      exact pairwise_fromKeys meanings _
    · intro token member dot
      obtain ⟨name, isName⟩ := total token member
      refine ⟨name, mem_names.mpr ⟨members token member name isName, ?_⟩, isName⟩
      by_cases marked : mark <:+: token
      · obtain ⟨parts, split⟩ := Option.ne_none_iff_exists'.mp (plain.urls token member marked)
        obtain rfl := Option.some.inj (isName.symm.trans (meant_of_marked marked split))
        exact plain.hosts token member marked dot parts split
      · obtain rfl := Option.some.inj (isName.symm.trans (meant_of_unmarked marked))
        exact plain.labels token member marked dot

/-- The domain `www.nl` is neither accepted nor rejected. -/
theorem www_label_lost :
    ¬ ∃ cells meanings names, Lossless id "www.nl".toList cells meanings names := by
  rintro ⟨cells, meanings, names, lossless⟩
  have read : readCells "www.nl".toList = some ["www.nl".toList] := by decide
  obtain rfl := Option.some.inj (read.symm.trans lossless.read)
  have parsed : parseDomains id "www.nl".toList = some ⟨[], []⟩ := by decide +kernel
  obtain rfl := Option.some.inj (parsed.symm.trans lossless.parsed)
  obtain ⟨name, member, -⟩ := lossless.kept "www.nl".toList (by decide +kernel) (by decide)
  cases member

end WhoisBatch
end DomainLens
