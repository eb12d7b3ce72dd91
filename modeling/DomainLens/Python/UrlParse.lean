import DomainLens.Python.CaseMapping

/-!
# URLs taken apart

`urlsplit` and `urlunsplit` of `urllib.parse`, with the checks the former makes and the host and the
port of its result.  What is raised is always a `ValueError`, here `none`.
-/

namespace DomainLens
namespace Python
namespace UrlParse

/-- The front of `str.partition`. -/
def before (mark : Char) (text : Text) : Text := text.takeWhile (· ≠ mark)

/-- The back of `str.partition`. -/
def behind (mark : Char) (text : Text) : Text := (text.dropWhile (· ≠ mark)).drop 1

def isAscii (text : Text) : Bool := text.all (·.toNat < 128)

def isAsciiDigit (char : Char) : Bool := '0' ≤ char && char ≤ '9'

def isHexDigit (char : Char) : Bool :=
  isAsciiDigit char || ('a' ≤ char && char ≤ 'f') || ('A' ≤ char && char ≤ 'F')

/-! ## Addresses in brackets -/

/-- `IPv4Address._parse_octet`. -/
def isOctet (octet : Text) : Bool :=
  octet ≠ [] && octet.all isAsciiDigit && octet.length ≤ 3 &&
    (octet = ['0'] || octet.head? ≠ some '0') && intOf octet ≤ 255

/-- Whether `IPv4Address` takes a text. -/
def isIpv4 (text : Text) : Bool :=
  let octets := text.splitOn '.'
  '/' ∉ text && octets.length = 4 && octets.all isOctet

/-- `IPv6Address._parse_hextet`. -/
def isHextet (hextet : Text) : Bool := hextet ≠ [] && hextet.all isHexDigit && hextet.length ≤ 4

/-- The hextets of an address; two stand for one in the style of IPv4 at its end. -/
def hextets (address : Text) : Option (List Text) :=
  let parts := address.splitOn ':'
  let last := parts.getLastD []
  if parts.length < 3 then none
  else if '.' ∈ last then
    if isIpv4 last then some (parts.dropLast ++ [['0'], ['0']]) else none
  else some parts

/-- The hextets on one side of `::`, where an empty one at the end of the address is the other colon. -/
def sideOf (side : List Text) : List Text := if side = [[]] then [] else side

/-- `_ip_int_from_string`, apart from the number. -/
def isIpv6Number (address : Text) : Bool :=
  match hextets address with
  | none => false
  | some parts =>
      if 9 < parts.length then false
      else
        match (List.range parts.length).filter fun index =>
          0 < index && index + 1 < parts.length && parts.getD index [] = [] with
        | [] => parts.length = 8 && parts.all isHextet
        | [skip] =>
            let high := sideOf (parts.take skip)
            let low := sideOf (parts.drop (skip + 1))
            high.length + low.length < 8 && high.all isHextet && low.all isHextet
        | _ => false

/-- Whether `IPv6Address` takes a text, which may name a zone. -/
def isIpv6 (text : Text) : Bool :=
  let zone := behind '%' text
  '/' ∉ text && ('%' ∉ text || (zone ≠ [] && '%' ∉ zone)) && isIpv6Number (before '%' text)

/-- `\Av[a-fA-F0-9]+\..+\Z`. -/
def isIpFuture (text : Text) : Bool :=
  let version := (text.drop 1).takeWhile isHexDigit
  let rest := (text.drop 1).dropWhile isHexDigit
  text.head? = some 'v' && version ≠ [] && rest.head? = some '.' && 1 < rest.length && '\n' ∉ rest

/-- `_check_bracketed_host`. -/
def checkBracketedHost (hostname : Text) : Bool :=
  if hostname.head? = some 'v' then isIpFuture hostname else isIpv6 hostname

/-- `_check_bracketed_netloc`. -/
def checkBracketedNetloc (netloc : Text) : Bool :=
  let info := netloc.rtakeWhile (· ≠ '@')
  if '[' ∈ info then
    let bracketed := behind '[' info
    let port := behind ']' bracketed
    before '[' info = [] && (port = [] || port.head? = some ':') &&
      checkBracketedHost (before ']' bracketed)
  else checkBracketedHost (before ':' info)

/-- What `urlsplit` asks of the brackets. -/
def checkBrackets (netloc : Text) : Bool :=
  if '[' ∈ netloc then ']' ∈ netloc && checkBracketedNetloc netloc else ']' ∉ netloc

/-- `_checknetloc`; `nfkc` is `unicodedata.normalize`. -/
def checkNetloc (nfkc : Text → Text) (netloc : Text) : Bool :=
  let plain := netloc.filter (· ∉ ['@', ':', '#', '?'])
  isAscii netloc || nfkc plain = plain || (nfkc plain).all (· ∉ ['/', '?', '#', '@', ':'])

/-! ## Splitting -/

structure SplitResult where
  scheme : Text
  netloc : Text
  path : Text
  query : Text
  fragment : Text
deriving DecidableEq

/-- `_WHATWG_C0_CONTROL_OR_SPACE`. -/
def isControlOrSpace (char : Char) : Bool := char.toNat ≤ 32

/-- `_UNSAFE_URL_BYTES_TO_REMOVE`. -/
def isUnsafe (char : Char) : Bool := char = '\t' || char = '\r' || char = '\n'

/-- `scheme_chars`. -/
def isSchemeChar (char : Char) : Bool :=
  char.isAlphanum || char = '+' || char = '-' || char = '.'

def isDelimiter (char : Char) : Bool := char = '/' || char = '?' || char = '#'

def isScheme (name : Text) : Bool := name.head?.any Char.isAlpha && name.all isSchemeChar

def cleaned (url : Text) : Text := (url.dropWhile isControlOrSpace).filter (!isUnsafe ·)

/-- The scheme in lower case, which is ASCII, and what is behind it. -/
def splitScheme (url : Text) : Text × Text :=
  if ':' ∈ url ∧ isScheme (before ':' url) then
    ((before ':' url).map Char.toLower, behind ':' url)
  else ([], url)

/-- `_splitnetloc`, where there is one. -/
def splitNetloc (url : Text) : Text × Text :=
  match url with
  | '/' :: '/' :: rest =>
      (rest.takeWhile (!isDelimiter ·), rest.dropWhile (!isDelimiter ·))
  | _ => ([], url)

/-- The parts of a URL that is cleaned. -/
def splitParts (url : Text) : SplitResult :=
  let (scheme, url) := splitScheme url
  let (netloc, url) := splitNetloc url
  { scheme
    netloc
    path := before '?' (before '#' url)
    query := behind '?' (before '#' url)
    fragment := behind '#' url }

/-- `urlsplit`. -/
def urlsplit (nfkc : Text → Text) (url : Text) : Option SplitResult :=
  let parts := splitParts (cleaned url)
  if checkBrackets parts.netloc && checkNetloc nfkc parts.netloc then some parts else none

/-! ## Hosts and ports -/

/-- The texts of the host and the port of `_hostinfo`, and whether there is an opening bracket. -/
def hostinfo (netloc : Text) : Bool × Text × Text :=
  let info := netloc.rtakeWhile (· ≠ '@')
  if '[' ∈ info then
    let bracketed := behind '[' info
    (true, before ']' bracketed, behind ':' (behind ']' bracketed))
  else (false, before ':' info, behind ':' info)

/-- `hostname`, empty for `None`: in lower case but for the zone. -/
def hostname (netloc : Text) : Text :=
  let host := (hostinfo netloc).2.1
  lower (before '%' host) ++ host.dropWhile (· ≠ '%')

/-- Whether `port` takes a text: `int` reads no more than 4300 digits. -/
def isPort (text : Text) : Bool :=
  text.all isAsciiDigit && text.length ≤ 4300 && intOf text ≤ 65535

/-- `port`; the outer `none` is its `ValueError`. -/
def port (netloc : Text) : Option (Option Nat) :=
  let text := (hostinfo netloc).2.2
  if text = [] then some none else if isPort text then some (some (intOf text)) else none

/-! ## Putting together -/

/-- `uses_netloc`. -/
def usesNetloc : List Text :=
  ["", "ftp", "http", "gopher", "nntp", "telnet", "imap", "wais", "file", "mms", "https", "shttp",
    "snews", "prospero", "rtsp", "rtsps", "rtspu", "rsync", "svn", "svn+ssh", "sftp", "nfs", "git",
    "git+ssh", "ws", "wss", "itms-services"].map String.toList

def slashes : Text := ['/', '/']

def hierarchy (scheme netloc path : Text) : Text :=
  if netloc ≠ [] then
    slashes ++ netloc ++ (if path ≠ [] ∧ path.head? ≠ some '/' then '/' :: path else path)
  else if path.take 2 = slashes then slashes ++ path
  else if scheme ≠ [] ∧ scheme ∈ usesNetloc ∧ (path = [] ∨ path.head? = some '/') then slashes ++ path
  else path

/-- A text with a mark in front, where there is a text. -/
def marked (mark : Char) (text : Text) : Text := if text = [] then [] else mark :: text

/-- `urlunsplit`. -/
def urlunsplit (parts : SplitResult) : Text :=
  let url := hierarchy parts.scheme parts.netloc parts.path
  let url := if parts.scheme = [] then url else parts.scheme ++ ':' :: url
  url ++ (marked '?' parts.query ++ marked '#' parts.fragment)

/-! ## Marks -/

variable {mark char : Char} {front back text : Text}

theorem mem_before (member : char ∈ before mark text) : char ∈ text ∧ char ≠ mark := by
  have itself := List.mem_takeWhile_imp member
  exact ⟨(List.takeWhile_prefix _).subset member, of_decide_eq_true itself⟩

theorem mem_of_mem_behind (member : char ∈ behind mark text) : char ∈ text :=
  (List.dropWhile_suffix _).subset (List.mem_of_mem_drop member)

theorem before_of_not_mem (absent : mark ∉ text) : before mark text = text := by
  refine List.takeWhile_eq_self_iff.mpr fun char member => decide_eq_true ?_
  rintro rfl
  exact absent member

theorem behind_of_not_mem (absent : mark ∉ text) : behind mark text = [] := by
  have dropped : text.dropWhile (· ≠ mark) = [] :=
    List.dropWhile_eq_nil_iff.mpr fun char member => decide_eq_true fun same => absent (same ▸ member)
  rw [behind, dropped, List.drop_nil]

private theorem apart_of_not_mem (absent : mark ∉ front) :
    ∀ char ∈ front, decide (char ≠ mark) = true :=
  fun _ member => decide_eq_true fun same => absent (same ▸ member)

theorem before_append (absent : mark ∉ front) : before mark (front ++ mark :: back) = front := by
  rw [before, List.takeWhile_append_of_pos (apart_of_not_mem absent),
    List.takeWhile_cons_of_neg (by simp), List.append_nil]

theorem behind_append (absent : mark ∉ front) : behind mark (front ++ mark :: back) = back := by
  rw [behind, List.dropWhile_append_of_pos (apart_of_not_mem absent),
    List.dropWhile_cons_of_neg (by simp), List.drop_one, List.tail_cons]

theorem before_append_behind (member : mark ∈ text) :
    before mark text ++ mark :: behind mark text = text := by
  obtain ⟨front, back, rfl, absent⟩ := List.eq_append_cons_of_mem member
  rw [before_append absent, behind_append absent]

/-! ## Small characters stay as they are -/

private theorem runs_large : ∀ run ∈ Unicode.lowerRuns, 97 ≤ run.2.2.2 ∧ run.2.2.2 + (run.2.1 - run.1) < 0xD800 ∨
    97 ≤ run.2.2.2 ∧ 0xDFFF < run.2.2.2 ∧ run.2.2.2 + (run.2.1 - run.1) < 0x110000 := by
  decide +kernel

theorem eq_of_mem_lowerChar {image : Char} (small : image.toNat < 97) (member : image ∈ lowerChar char) :
    lowerChar char = [image] ∧ image = char := by
  unfold lowerChar at member ⊢
  split_ifs at member with dotted
  · rcases List.mem_pair.mp member with rfl | rfl <;> exact absurd small (by decide)
  · rw [if_neg dotted]
    split at member
    · rename_i code found
      rw [findRun, Option.map_eq_some_iff] at found
      obtain ⟨run, first, rfl⟩ := found
      have isRun := List.mem_of_find?_eq_some first
      have held := List.find?_some first
      simp only [Bool.and_eq_true, decide_eq_true_eq] at held
      have large := runs_large run isRun
      have inside : char.toNat - run.1 ≤ run.2.1 - run.1 := Nat.sub_le_sub_right held.1.2 _
      have valid : (run.2.2.2 + (char.toNat - run.1)).isValidChar := by
        simp only [Nat.isValidChar]
        omega
      have value := toNat_ofNat_of_valid valid
      have shown : image = Char.ofNat (run.2.2.2 + (char.toNat - run.1)) :=
        List.mem_singleton.mp member
      rw [shown, value] at small
      omega
    · cases List.mem_singleton.mp member
      exact ⟨rfl, rfl⟩

private theorem count_lowerAt_le (small : mark.toNat < 97) (front back : Text) (char : Char) :
    (lowerAt front char back).count mark ≤ [char].count mark := by
  unfold lowerAt
  split_ifs with isSigma final
  · rw [List.count_eq_zero.mpr]
    · exact Nat.zero_le _
    · rintro same
      cases List.mem_singleton.mp same
      exact absurd small (by decide)
  · rw [List.count_eq_zero.mpr]
    · exact Nat.zero_le _
    · rintro same
      cases List.mem_singleton.mp same
      exact absurd small (by decide)
  · by_cases member : mark ∈ lowerChar char
    · obtain ⟨single, rfl⟩ := eq_of_mem_lowerChar small member
      rw [single]
    · rw [List.count_eq_zero.mpr member]
      exact Nat.zero_le _

theorem count_lower_le (small : mark.toNat < 97) (text : Text) :
    (lower text).count mark ≤ text.count mark := by
  suffices every : ∀ front, (lowerFrom front text).count mark ≤ text.count mark from every []
  induction text with
  | nil => exact fun _ => le_rfl
  | cons char text induction =>
      intro front
      have parts : (char :: text).count mark = [char].count mark + text.count mark :=
        @List.count_append _ _ mark [char] text
      rw [lowerFrom, List.count_append, parts]
      exact Nat.add_le_add (count_lowerAt_le small _ _ _) (induction _)

theorem mem_of_mem_lower (small : mark.toNat < 97) (member : mark ∈ lower text) : mark ∈ text :=
  List.count_pos_iff.mp ((List.count_pos_iff.mpr member).trans_le (count_lower_le small text))

/-! ## Schemes -/

structure IsLowerScheme (scheme : Text) : Prop where
  isScheme : isScheme scheme = true
  small : scheme.map Char.toLower = scheme

private theorem schemeChar_checked : ∀ code < 128, isSchemeChar (Char.ofNat code) = true →
    isSchemeChar (Char.ofNat code).toLower = true ∧
      (Char.ofNat code).toLower.toLower = (Char.ofNat code).toLower ∧
      ((Char.ofNat code).toLower.toNat < 65 ∨ 90 < (Char.ofNat code).toLower.toNat) ∧
      (Char.ofNat code).toLower.toNat < 128 ∧ isControlOrSpace (Char.ofNat code) = false ∧
      isSpace (Char.ofNat code) = false ∧ isUnsafe (Char.ofNat code) = false ∧
      ((Char.ofNat code).isAlpha = true → (Char.ofNat code).toLower.isAlpha = true) := by
  decide +kernel

private theorem lt_of_isSchemeChar (listed : isSchemeChar char = true) : char.toNat < 128 := by
  simp only [isSchemeChar, Char.isAlphanum, Char.isAlpha, Char.isUpper, Char.isLower, Char.isDigit,
    Bool.or_eq_true, Bool.and_eq_true, decide_eq_true_eq, UInt32.le_iff_toNat_le, ge_iff_le] at listed
  rcases listed with ((((upper | lower) | digit) | rfl) | rfl) | rfl
  · exact Nat.lt_of_le_of_lt upper.2 (by decide)
  · exact Nat.lt_of_le_of_lt lower.2 (by decide)
  · exact Nat.lt_of_le_of_lt digit.2 (by decide)
  · decide
  · decide
  · decide

private theorem schemeChar_spec (listed : isSchemeChar char = true) :
    isSchemeChar char.toLower = true ∧ char.toLower.toLower = char.toLower ∧
      (char.toLower.toNat < 65 ∨ 90 < char.toLower.toNat) ∧ char.toLower.toNat < 128 ∧
      isControlOrSpace char = false ∧ isSpace char = false ∧ isUnsafe char = false ∧
      (char.isAlpha = true → char.toLower.isAlpha = true) := by
  have spec := schemeChar_checked char.toNat (lt_of_isSchemeChar listed)
  rw [Char.ofNat_toNat] at spec
  exact spec listed

theorem isSchemeChar_of_isScheme {name : Text} (named : isScheme name = true) (member : char ∈ name) :
    isSchemeChar char = true := by
  rw [isScheme, Bool.and_eq_true] at named
  exact List.all_eq_true.mp named.2 char member

theorem isLowerScheme_map {name : Text} (named : isScheme name = true) :
    IsLowerScheme (name.map Char.toLower) := by
  have listed := fun (char : Char) (member : char ∈ name) =>
    schemeChar_spec (isSchemeChar_of_isScheme named member)
  constructor
  · rw [isScheme, Bool.and_eq_true] at named ⊢
    refine ⟨?_, List.all_eq_true.mpr fun char member => ?_⟩
    · obtain ⟨first, isFirst, letter⟩ := (Option.any_eq_true _ _).mp named.1
      have member := List.mem_of_head? isFirst
      rw [List.head?_map, isFirst]
      exact (listed first member).2.2.2.2.2.2.2 letter
    · obtain ⟨other, isIn, rfl⟩ := List.mem_map.mp member
      exact (listed other isIn).1
  · rw [List.map_map]
    exact List.map_congr_left fun char member => (listed char member).2.1

theorem lower_scheme {scheme : Text} (isLower : IsLowerScheme scheme) : lower scheme = scheme := by
  refine lower_of_isLower fun char member => ?_
  rw [← isLower.small] at member
  obtain ⟨other, isIn, rfl⟩ := List.mem_map.mp member
  have spec := schemeChar_spec (isSchemeChar_of_isScheme isLower.isScheme isIn)
  exact isLower_of_ascii spec.2.2.2.1 spec.2.2.1

theorem solid_scheme {name : Text} (named : isScheme name = true) (member : char ∈ name) :
    isControlOrSpace char = false ∧ isSpace char = false ∧ isUnsafe char = false :=
  have spec := schemeChar_spec (isSchemeChar_of_isScheme named member)
  ⟨spec.2.2.2.2.1, spec.2.2.2.2.2.1, spec.2.2.2.2.2.2.1⟩

theorem colon_not_mem_scheme {name : Text} (named : isScheme name = true) : ':' ∉ name := fun member =>
  absurd (isSchemeChar_of_isScheme named member) (by decide)

theorem scheme_ne_nil {name : Text} (named : isScheme name = true) : name ≠ [] := by
  rintro rfl
  exact absurd named (by decide)

theorem splitScheme_scheme {scheme : Text} (isLower : IsLowerScheme scheme) (rest : Text) :
    splitScheme (scheme ++ ':' :: rest) = (scheme, rest) := by
  have absent := colon_not_mem_scheme isLower.isScheme
  rw [splitScheme, before_append absent, behind_append absent, isLower.small,
    if_pos ⟨List.mem_append_right _ List.mem_cons_self, isLower.isScheme⟩]

theorem splitScheme_slash (rest : Text) : splitScheme ('/' :: rest) = ([], '/' :: rest) := by
  refine if_neg fun named => absurd named.2 ?_
  rw [before, List.takeWhile_cons_of_pos (by decide), isScheme]
  simp

theorem splitScheme_cases (url : Text) :
    (∃ name rest, isScheme name = true ∧ url = name ++ ':' :: rest ∧
      splitScheme url = (name.map Char.toLower, rest)) ∨ splitScheme url = ([], url) := by
  by_cases named : ':' ∈ url ∧ isScheme (before ':' url)
  · exact .inl ⟨before ':' url, behind ':' url, named.2, (before_append_behind named.1).symm,
      if_pos named⟩
  · exact .inr (if_neg named)

/-! ## Network locations -/

theorem splitNetloc_slashes (rest : Text) :
    splitNetloc ('/' :: '/' :: rest) =
      (rest.takeWhile (!isDelimiter ·), rest.dropWhile (!isDelimiter ·)) := rfl

theorem splitNetloc_of_single (other : ¬slashes <+: text) : splitNetloc text = ([], text) := by
  unfold splitNetloc
  split
  · exact absurd ⟨_, rfl⟩ other
  · rfl

theorem splitNetloc_cases (url : Text) :
    (∃ rest, url = '/' :: '/' :: rest ∧ splitNetloc url =
      (rest.takeWhile (!isDelimiter ·), rest.dropWhile (!isDelimiter ·))) ∨
    splitNetloc url = ([], url) := by
  by_cases starts : slashes <+: url
  · obtain ⟨rest, rfl⟩ := starts
    exact .inl ⟨rest, rfl, rfl⟩
  · exact .inr (splitNetloc_of_single starts)

theorem delimiter_of_head (rest : Text) (first : Char)
    (isFirst : (rest.dropWhile (!isDelimiter ·)).head? = some first) : isDelimiter first = true := by
  have stops := List.head?_dropWhile_not (fun char => !isDelimiter char) rest
  rw [isFirst] at stops
  simpa using stops

theorem takeWhile_netloc {netloc rest : Text} (free : ∀ char ∈ netloc, isDelimiter char = false)
    (delimited : ∀ first, rest.head? = some first → isDelimiter first = true) :
    (netloc ++ rest).takeWhile (!isDelimiter ·) = netloc ∧
      (netloc ++ rest).dropWhile (!isDelimiter ·) = rest := by
  have all : ∀ char ∈ netloc, (!isDelimiter char) = true := fun char member => by
    rw [free char member]
    rfl
  have stops : rest.takeWhile (!isDelimiter ·) = [] ∧ rest.dropWhile (!isDelimiter ·) = rest := by
    cases rest with
    | nil => exact ⟨rfl, rfl⟩
    | cons first rest =>
        have isFirst := delimited first rfl
        exact ⟨List.takeWhile_cons_of_neg (by simp [isFirst]),
          List.dropWhile_cons_of_neg (by simp [isFirst])⟩
  rw [List.takeWhile_append_of_pos all, List.dropWhile_append_of_pos all, stops.1, stops.2,
    List.append_nil]
  exact ⟨rfl, rfl⟩

/-! ## Results -/

/-- What holds of a result of `urlsplit`. -/
structure IsSplit (parts : SplitResult) : Prop where
  scheme : parts.scheme = [] ∨ IsLowerScheme parts.scheme
  netloc : ∀ char ∈ parts.netloc, isDelimiter char = false ∧ isUnsafe char = false
  path : ∀ char ∈ parts.path, char ≠ '?' ∧ char ≠ '#' ∧ isUnsafe char = false
  query : ∀ char ∈ parts.query, char ≠ '#' ∧ isUnsafe char = false
  rooted : parts.netloc ≠ [] → parts.path = [] ∨ parts.path.head? = some '/'
  relative : parts.scheme = [] → parts.path ≠ [] → parts.path.head? ≠ some '/' →
    (∀ first, parts.path.head? = some first → isControlOrSpace first = false) ∧
      ∀ name rest, parts.path = name ++ ':' :: rest → isScheme name = false

private theorem isUnsafe_of_mem_cleaned {url : Text} (member : char ∈ cleaned url) :
    isUnsafe char = false := by
  have kept := List.of_mem_filter member
  simpa using kept

private theorem isControlOrSpace_of_head_cleaned {url : Text} {first : Char}
    (isFirst : (cleaned url).head? = some first) : isControlOrSpace first = false := by
  have dropped := List.head?_dropWhile_not isControlOrSpace url
  rw [cleaned] at isFirst
  cases same : url.dropWhile isControlOrSpace with
  | nil =>
      rw [same] at isFirst
      cases isFirst
  | cons head rest =>
      rw [same] at isFirst dropped
      have solid : isControlOrSpace head = false := by simpa using dropped
      have safe : isUnsafe head = false := by
        simp only [isUnsafe, Bool.or_eq_false_iff, decide_eq_false_iff_not]
        refine ⟨⟨?_, ?_⟩, ?_⟩ <;> rintro rfl <;> exact absurd solid (by decide)
      rw [List.filter_cons_of_pos (by simp [safe])] at isFirst
      cases isFirst
      exact solid

private theorem head_path_of_delimiter {rest : Text}
    (delimited : ∀ first, rest.head? = some first → isDelimiter first = true) :
    before '?' (before '#' rest) = [] ∨ (before '?' (before '#' rest)).head? = some '/' := by
  cases rest with
  | nil => exact .inl rfl
  | cons first rest =>
      have isFirst := delimited first rfl
      simp only [isDelimiter, Bool.or_eq_true, decide_eq_true_eq] at isFirst
      rcases isFirst with (rfl | rfl) | rfl
      · exact .inr rfl
      · exact .inl rfl
      · exact .inl rfl

private theorem splitScheme_suffix (url : Text) : (splitScheme url).2 <:+ url := by
  rcases splitScheme_cases url with ⟨name, rest, -, rfl, split⟩ | split
  · rw [split]
    exact (List.suffix_cons _ _).trans (List.suffix_append _ _)
  · rw [split]

private theorem splitNetloc_subset (url : Text) :
    (splitNetloc url).1 ⊆ url ∧ (splitNetloc url).2 <:+ url := by
  rcases splitNetloc_cases url with ⟨rest, rfl, split⟩ | split
  · rw [split]
    exact ⟨fun char member => List.mem_cons_of_mem _ (List.mem_cons_of_mem _
      ((List.takeWhile_prefix _).subset member)),
      (List.dropWhile_suffix _).trans ((List.suffix_cons _ _).trans (List.suffix_cons _ _))⟩
  · rw [split]
    exact ⟨List.nil_subset _, List.suffix_rfl⟩

theorem isSplit_splitParts (url : Text) : IsSplit (splitParts (cleaned url)) := by
  have safe : ∀ {text : Text}, text ⊆ cleaned url → ∀ char ∈ text, isUnsafe char = false :=
    fun inside char member => isUnsafe_of_mem_cleaned (inside member)
  have behindScheme := splitScheme_suffix (cleaned url)
  obtain ⟨inNetloc, behindNetloc⟩ := splitNetloc_subset (splitScheme (cleaned url)).2
  have rest := (behindNetloc.trans behindScheme).subset
  constructor
  · rcases splitScheme_cases (cleaned url) with ⟨name, rest, named, -, split⟩ | split
    · refine .inr ?_
      simp only [splitParts, split]
      exact isLowerScheme_map named
    · refine .inl ?_
      simp only [splitParts, split]
  · intro char member
    refine ⟨?_, safe (fun _ isIn => behindScheme.subset (inNetloc isIn)) char member⟩
    simp only [splitParts] at member
    rcases splitNetloc_cases (splitScheme (cleaned url)).2 with ⟨rest, -, split⟩ | split
    · rw [split] at member
      simpa using List.mem_takeWhile_imp member
    · rw [split] at member
      cases member
  · intro char member
    obtain ⟨isIn, notQuery⟩ := mem_before member
    obtain ⟨inRest, notFragment⟩ := mem_before isIn
    exact ⟨notQuery, notFragment, safe rest char inRest⟩
  · intro char member
    obtain ⟨inRest, notFragment⟩ := mem_before (mem_of_mem_behind member)
    exact ⟨notFragment, safe rest char inRest⟩
  · intro named
    simp only [splitParts] at named ⊢
    rcases splitNetloc_cases (splitScheme (cleaned url)).2 with ⟨rest, -, split⟩ | split
    · rw [split]
      exact head_path_of_delimiter (delimiter_of_head rest)
    · rw [split] at named
      exact absurd rfl named
  · intro noScheme some notRooted
    simp only [splitParts] at noScheme some notRooted ⊢
    have unnamed : splitScheme (cleaned url) = ([], cleaned url) := by
      rcases splitScheme_cases (cleaned url) with ⟨name, rest, named, -, split⟩ | split
      · rw [split] at noScheme
        exact absurd (List.map_eq_nil_iff.mp noScheme) (scheme_ne_nil named)
      · exact split
    have unplaced : splitNetloc (splitScheme (cleaned url)).2 = ([], cleaned url) := by
      rcases splitNetloc_cases (splitScheme (cleaned url)).2 with ⟨rest, -, split⟩ | split
      · rw [split] at some notRooted
        exact absurd (head_path_of_delimiter (delimiter_of_head rest)) (by simp [some, notRooted])
      · rw [split, unnamed]
    rw [unplaced] at some notRooted ⊢
    have isPrefix : before '?' (before '#' (cleaned url)) <+: cleaned url :=
      (List.takeWhile_prefix _).trans (List.takeWhile_prefix _)
    constructor
    · intro first isFirst
      obtain ⟨rest, whole⟩ := isPrefix
      have stands : (cleaned url).head? = .some first := by
        rw [← whole, List.head?_append, isFirst]
        rfl
      exact isControlOrSpace_of_head_cleaned stands
    · intro name rest same
      by_contra named
      rw [Bool.not_eq_false] at named
      obtain ⟨more, whole⟩ := isPrefix
      rw [same, List.append_assoc, List.cons_append] at whole
      have absent := colon_not_mem_scheme named
      have split : splitScheme (cleaned url) = (name.map Char.toLower, rest ++ more) := by
        rw [← whole, splitScheme, before_append absent, behind_append absent,
          if_pos ⟨List.mem_append_right _ List.mem_cons_self, named⟩]
      rw [unnamed] at split
      exact scheme_ne_nil named (List.map_eq_nil_iff.mp (Prod.mk.inj split).1.symm)

/-! ## Texts of results -/

/-- The path and the query as they are written. -/
def tail (path query : Text) : Text := path ++ marked '?' query

def head (scheme : Text) : Text := if scheme = [] then [] else scheme ++ [':']

variable {scheme netloc path query rest : Text}

/-- What `urlunsplit` writes: with slashes where the path has one in front, and else without. -/
theorem urlunsplit_cases (filled : path ≠ []) (rooted : netloc ≠ [] → path.head? = some '/') :
    (path.head? = some '/' ∧
      urlunsplit ⟨scheme, netloc, path, query, []⟩ =
        head scheme ++ (slashes ++ (netloc ++ tail path query))) ∨
    (netloc = [] ∧ ¬slashes <+: path ∧
      urlunsplit ⟨scheme, netloc, path, query, []⟩ = head scheme ++ tail path query) := by
  have written : urlunsplit ⟨scheme, netloc, path, query, []⟩ =
      head scheme ++ (hierarchy scheme netloc path ++ marked '?' query) := by
    simp only [urlunsplit, head, marked, if_true, List.append_nil]
    split_ifs <;> simp
  rw [written, hierarchy, tail]
  by_cases named : netloc ≠ []
  · have isRooted := rooted named
    refine .inl ⟨isRooted, ?_⟩
    rw [if_pos named, if_neg fun both => both.2 isRooted]
    simp only [List.append_assoc]
  · rw [if_neg named]
    rw [not_ne_iff] at named
    subst named
    by_cases twice : path.take 2 = slashes
    · have isRooted : path.head? = some '/' := by
        cases path with
        | nil => exact absurd rfl filled
        | cons first rest =>
            cases rest <;> cases twice
            rfl
      exact .inl ⟨isRooted, by simp [if_pos twice]⟩
    · have single : ¬slashes <+: path := fun starts => twice (List.prefix_iff_eq_take.mp starts).symm
      rw [if_neg twice]
      split_ifs with uses
      · exact .inl ⟨uses.2.2.resolve_left filled, by simp⟩
      · exact .inr ⟨rfl, single, rfl⟩

theorem read_tail (inPath : ∀ char ∈ path, char ≠ '?' ∧ char ≠ '#')
    (inQuery : ∀ char ∈ query, char ≠ '#') :
    before '#' (tail path query) = tail path query ∧ behind '#' (tail path query) = [] ∧
      before '?' (tail path query) = path ∧ behind '?' (tail path query) = query := by
  have noMark : '?' ∉ path := fun member => (inPath _ member).1 rfl
  have noHash : '#' ∉ tail path query := by
    intro member
    rcases List.mem_append.mp member with isIn | isIn
    · exact (inPath _ isIn).2 rfl
    · rw [marked] at isIn
      split_ifs at isIn
      · cases isIn
      · rcases List.mem_cons.mp isIn with same | isIn
        · exact absurd same (by decide)
        · exact inQuery _ isIn rfl
  refine ⟨before_of_not_mem noHash, behind_of_not_mem noHash, ?_⟩
  rw [tail, marked]
  split_ifs with none
  · rw [List.append_nil, none]
    exact ⟨before_of_not_mem noMark, behind_of_not_mem noMark⟩
  · exact ⟨before_append noMark, behind_append noMark⟩

theorem length_tail_le (rest : Text) :
    (tail (before '?' (before '#' rest)) (behind '?' (before '#' rest))).length ≤ rest.length := by
  have front : (before '#' rest).length ≤ rest.length := (List.takeWhile_prefix _).length_le
  refine le_trans ?_ front
  generalize before '#' rest = front
  by_cases marks : '?' ∈ front
  · have whole := congrArg List.length (before_append_behind marks)
    rw [tail, marked]
    split_ifs <;> simp only [List.length_append, List.length_cons, List.length_nil] at whole ⊢ <;> omega
  · rw [tail, before_of_not_mem marks, behind_of_not_mem marks, marked, if_pos rfl, List.append_nil]

end UrlParse
end Python
end DomainLens
