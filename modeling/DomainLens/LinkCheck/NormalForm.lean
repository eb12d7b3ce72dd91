import DomainLens.LinkCheck.Normalise
import DomainLens.Python.Access

/-!
# The normal form of a link

A normal form is a link, too.  It is its own normal form, and names what the link names, where the port that
is left out is the default of the scheme and the host reads back as it is written.
-/

namespace DomainLens
namespace LinkCheck

open Python Python.UrlParse

variable {unicode : Unicode} {url : Text} {parts : SplitResult} {number : Option Nat}

/-! ## Links that are read -/

/-- The parts and the port of a link. -/
structure Reads (unicode : Unicode) (url : Text) (parts : SplitResult) (number : Option Nat) : Prop where
  split : urlsplit unicode.nfkc (strip url) = some parts
  port : port parts.netloc = some number

def hostText (unicode : Unicode) (parts : SplitResult) : Text :=
  encoded unicode (lowered (hostname parts.netloc))

def normalOf (unicode : Unicode) (parts : SplitResult) (number : Option Nat) : Text :=
  urlunsplit ⟨lower parts.scheme, hostText unicode parts ++ portText number, orRoot parts.path,
    parts.query, []⟩

def resourceOf (unicode : Unicode) (parts : SplitResult) (number : Option Nat) : Resource where
  scheme := parts.scheme
  literal := (hostinfo parts.netloc).1
  host := hostText unicode parts
  port := number.or (defaultPort parts.scheme)
  path := orRoot parts.path
  query := parts.query

theorem normalise_of_reads (reads : Reads unicode url parts number) :
    normalise unicode url = some (normalOf unicode parts number) := by
  simp only [normalise, reads.split, reads.port, Option.bind_some, Option.map_some]
  rfl

theorem resource_of_reads (reads : Reads unicode url parts number) :
    resource unicode url = some (resourceOf unicode parts number) := by
  simp only [resource, reads.split, reads.port, Option.bind_some, Option.map_some]
  rfl

theorem exists_reads_of_normalise {normal : Text} (normalised : normalise unicode url = some normal) :
    ∃ parts number, Reads unicode url parts number ∧ normal = normalOf unicode parts number := by
  obtain ⟨parts, split, rest⟩ := Option.bind_eq_some_iff.mp normalised
  obtain ⟨number, read, rfl⟩ := Option.map_eq_some_iff.mp rest
  exact ⟨parts, number, ⟨split, read⟩, rfl⟩

theorem exists_reads_of_resource {named : Resource} (names : resource unicode url = some named) :
    ∃ parts number, Reads unicode url parts number ∧ named = resourceOf unicode parts number := by
  obtain ⟨parts, split, rest⟩ := Option.bind_eq_some_iff.mp names
  obtain ⟨number, read, rfl⟩ := Option.map_eq_some_iff.mp rest
  exact ⟨parts, number, ⟨split, read⟩, rfl⟩

namespace Reads

variable (reads : Reads unicode url parts number)
include reads

theorem eq_splitParts : parts = splitParts (cleaned (strip url)) := by
  have split := reads.split
  rw [urlsplit] at split
  split_ifs at split
  exact (Option.some.inj split).symm

theorem isSplit : IsSplit parts := reads.eq_splitParts ▸ isSplit_splitParts (strip url)

theorem checks : checkBrackets parts.netloc = true ∧ checkNetloc unicode.nfkc parts.netloc = true := by
  have split := reads.split
  rw [urlsplit] at split
  split_ifs at split with checked
  rw [reads.eq_splitParts]
  exact (Bool.and_eq_true _ _).mp checked

end Reads

/-! ## White space around a normal form -/

variable {front text : Text}

theorem rstrip_append (kept : rstrip text ≠ [] ∨ rstrip front = front) :
    rstrip (front ++ text) = front ++ rstrip text := by
  simp only [rstrip, List.rdropWhile, List.reverse_append, List.dropWhile_append] at kept ⊢
  split_ifs with empty
  · have none : text.reverse.dropWhile isSpace = [] := List.isEmpty_iff.mp empty
    rw [none] at kept ⊢
    rw [kept.resolve_left (not_not_intro rfl)]
    exact (List.append_nil _).symm
  · rw [List.reverse_append, List.reverse_reverse]

theorem rstrip_eq_self (solid : ∀ char ∈ text.getLast?, isSpace char = false) : rstrip text = text := by
  rw [rstrip, List.rdropWhile_eq_self_iff]
  intro filled
  simp [solid _ (List.getLast?_eq_some_getLast filled)]

theorem lstrip_eq_self (solid : ∀ char ∈ text.head?, isSpace char = false) : lstrip text = text := by
  cases text with
  | nil => rfl
  | cons first text => exact List.dropWhile_cons_of_neg (by simp [solid first rfl])

theorem length_strip_le (text : Text) : (strip text).length ≤ text.length :=
  (List.rdropWhile_prefix _ _).length_le.trans (List.dropWhile_suffix _).length_le

theorem strip_eq_self (long : text.length ≤ (strip text).length) : strip text = text := by
  have right : (strip text).length ≤ (lstrip text).length := (List.rdropWhile_prefix _ _).length_le
  have left : lstrip text = text := (List.dropWhile_suffix _).eq_of_length_le (long.trans right)
  rw [strip, left]
  refine (List.rdropWhile_prefix _ _).eq_of_length_le ?_
  rw [strip, left] at long
  exact long

theorem last_of_length_le (long : text.length ≤ (rstrip text).length) :
    ∀ char ∈ text.getLast?, isSpace char = false := by
  have same : rstrip text = text := (List.rdropWhile_prefix _ _).eq_of_length_le long
  intro char member
  rw [rstrip, List.rdropWhile_eq_self_iff] at same
  have filled : text ≠ [] := by
    rintro rfl
    cases member
  rw [List.getLast?_eq_some_getLast filled] at member
  cases member
  simpa using same filled

theorem cleaned_eq_self (first : ∀ char ∈ text.head?, isControlOrSpace char = false)
    (safe : ∀ char ∈ text, isUnsafe char = false) : cleaned text = text := by
  have dropped : text.dropWhile isControlOrSpace = text := by
    cases text with
    | nil => rfl
    | cons head text => exact List.dropWhile_cons_of_neg (by simp [first head rfl])
  rw [cleaned, dropped, List.filter_eq_self]
  intro char member
  rw [safe char member]
  rfl

/-! ## A normal form is taken apart -/

/-- The parts where the scheme, the network location and what is behind it are known. -/
def partsOf (scheme netloc rest : Text) : SplitResult :=
  ⟨scheme, netloc, before '?' (before '#' rest), behind '?' (before '#' rest), behind '#' rest⟩

theorem splitParts_of {scheme netloc rest after : Text} (named : splitScheme url = (scheme, after))
    (placed : splitNetloc after = (netloc, rest)) : splitParts url = partsOf scheme netloc rest := by
  simp only [splitParts, named, placed, partsOf]

variable {scheme netloc path query : Text}

private theorem head_solid (named : scheme = [] ∨ IsLowerScheme scheme) (text : Text)
    (solid : scheme = [] → ∀ char ∈ text.head?, isSpace char = false ∧ isControlOrSpace char = false) :
    ∀ char ∈ (head scheme ++ text).head?, isSpace char = false ∧ isControlOrSpace char = false := by
  intro char member
  rw [head] at member
  rcases named with rfl | isLower
  · exact solid rfl char member
  · rw [if_neg (scheme_ne_nil isLower.isScheme), List.append_assoc,
      List.head?_append_of_ne_nil _ (scheme_ne_nil isLower.isScheme)] at member
    have spec := solid_scheme isLower.isScheme (List.mem_of_mem_head? member)
    exact ⟨spec.2.1, spec.1⟩

private theorem safe_head (named : scheme = [] ∨ IsLowerScheme scheme) :
    (head scheme).filter (!isUnsafe ·) = head scheme := by
  rw [List.filter_eq_self, head]
  rcases named with rfl | isLower
  · intro char member
    cases member
  · rw [if_neg (scheme_ne_nil isLower.isScheme)]
    intro char member
    rcases List.mem_append.mp member with isIn | isIn
    · rw [(solid_scheme isLower.isScheme isIn).2.2]
      rfl
    · cases List.mem_singleton.mp isIn
      rfl

private theorem splitScheme_head (named : scheme = [] ∨ IsLowerScheme scheme) (rest : Text)
    (unnamed : scheme = [] → splitScheme rest = ([], rest)) :
    splitScheme (head scheme ++ rest) = (scheme, rest) := by
  rw [head]
  rcases named with rfl | isLower
  · exact unnamed rfl
  · rw [if_neg (scheme_ne_nil isLower.isScheme), List.append_assoc]
    exact splitScheme_scheme isLower rest

private theorem cleaned_strip (front text : Text)
    (solid : ∀ char ∈ (front ++ text).head?, isSpace char = false ∧ isControlOrSpace char = false)
    (filled : front ≠ []) (kept : rstrip text ≠ [] ∨ rstrip front = front)
    (safe : ∀ char ∈ text, isUnsafe char = false) :
    cleaned (strip (front ++ text)) = front.filter (!isUnsafe ·) ++ rstrip text := by
  have left : lstrip (front ++ text) = front ++ text :=
    lstrip_eq_self fun char member => (solid char member).1
  have dropped : (front ++ rstrip text).dropWhile isControlOrSpace = front ++ rstrip text := by
    cases front with
    | nil => exact absurd rfl filled
    | cons first front => exact List.dropWhile_cons_of_neg (by simp [(solid first rfl).2])
  have safeEnd : (rstrip text).filter (!isUnsafe ·) = rstrip text := by
    refine List.filter_eq_self.mpr fun char member => ?_
    rw [safe char ((List.rdropWhile_prefix _ _).subset member)]
    rfl
  rw [strip, left, rstrip_append kept, cleaned, dropped, List.filter_append, safeEnd]

private theorem rstrip_rooted (rooted : text.head? = some '/') : (rstrip text).head? = some '/' := by
  cases text with
  | nil => cases rooted
  | cons first text =>
      cases rooted
      have solid : rstrip ['/'] = ['/'] := rstrip_eq_self fun char member => by
        cases member
        decide
      have whole : rstrip (['/'] ++ text) = ['/'] ++ rstrip text := rstrip_append (.inr solid)
      rw [← List.singleton_append, whole]
      rfl

theorem split_rooted (named : scheme = [] ∨ IsLowerScheme scheme) (netloc : Text)
    (rooted : text.head? = some '/') (safe : ∀ char ∈ text, isUnsafe char = false) :
    splitParts (cleaned (strip (head scheme ++ (slashes ++ (netloc ++ text))))) =
      partsOf scheme
        ((netloc.filter (!isUnsafe ·) ++ rstrip text).takeWhile (!isDelimiter ·))
        ((netloc.filter (!isUnsafe ·) ++ rstrip text).dropWhile (!isDelimiter ·)) := by
  have kept : rstrip text ≠ [] := by
    intro none
    have isFirst := rstrip_rooted rooted
    rw [none] at isFirst
    cases isFirst
  have solid := head_solid named (slashes ++ (netloc ++ text)) fun _ char member => by
    cases member
    decide
  have filled : head scheme ++ (slashes ++ netloc) ≠ [] := by simp [slashes]
  have clean := cleaned_strip (head scheme ++ (slashes ++ netloc)) text
    (by simpa only [List.append_assoc] using solid) filled (.inl kept) safe
  have front : (head scheme ++ (slashes ++ netloc)).filter (!isUnsafe ·) =
      head scheme ++ (slashes ++ netloc.filter (!isUnsafe ·)) := by
    rw [List.filter_append, List.filter_append, safe_head named]
    rfl
  rw [front] at clean
  simp only [List.append_assoc] at clean
  rw [clean]
  exact splitParts_of (splitScheme_head named _ fun _ => splitScheme_slash _) (splitNetloc_slashes _)

theorem split_named (isLower : IsLowerScheme scheme) (single : ¬slashes <+: text)
    (safe : ∀ char ∈ text, isUnsafe char = false) :
    splitParts (cleaned (strip (head scheme ++ text))) = partsOf scheme [] (rstrip text) := by
  have written : head scheme = scheme ++ [':'] := if_neg (scheme_ne_nil isLower.isScheme)
  have ends : rstrip (head scheme) = head scheme := rstrip_eq_self fun char member => by
    rw [written, List.getLast?_concat] at member
    cases member
    decide
  have filled : head scheme ≠ [] := by simp [written]
  have clean := cleaned_strip (head scheme) text
    (head_solid (.inr isLower) text fun none => absurd none (scheme_ne_nil isLower.isScheme)) filled
    (.inr ends) safe
  rw [clean, safe_head (.inr isLower)]
  exact splitParts_of
    (splitScheme_head (.inr isLower) _ fun none => absurd none (scheme_ne_nil isLower.isScheme))
    (splitNetloc_of_single fun starts => single (starts.trans (List.rdropWhile_prefix _ _)))

/-! ## Hosts -/

/-- What a host cannot have in it where it is written without brackets. -/
def isMark (char : Char) : Bool :=
  char ∈ [':', '/', '?', '#', '@', '[', ']', '\t', '\r', '\n']

/-- A host that reads back as it is written. -/
structure IsName (host : Text) : Prop where
  free : ∀ char ∈ host, isMark char = false
  small : lower host = host
  dotless : host.getLast? ≠ some '.'

variable {host : Text}

private theorem not_mem_of_isMark {mark : Char} (listed : isMark mark = true)
    (free : ∀ char ∈ host, isMark char = false) : mark ∉ host := fun member =>
  absurd ((free mark member).symm.trans listed) nofun

private theorem isAsciiDigit_of_mem_strOf {value : Nat} {char : Char} (member : char ∈ strOf value) :
    isAsciiDigit char = true := by
  have digit := Nat.isDigit_of_mem_toDigits (by decide) (by decide) member
  simp only [Char.isDigit, Bool.and_eq_true, decide_eq_true_eq, ge_iff_le] at digit
  rw [isAsciiDigit, Bool.and_eq_true]
  exact ⟨decide_eq_true digit.1, decide_eq_true digit.2⟩

private theorem portText_cases (number : Option Nat) :
    portText number = [] ∨ ∃ value, number = some value ∧ value ≠ 0 ∧ value ∉ [80, 443] ∧
      portText number = ':' :: strOf value := by
  cases number with
  | none => exact .inl rfl
  | some value =>
      simp only [portText]
      split_ifs with shown
      · exact .inr ⟨value, rfl, shown.1, shown.2, rfl⟩
      · exact .inl rfl

private theorem mem_portText {char : Char} (member : char ∈ portText number) :
    char = ':' ∨ isAsciiDigit char = true := by
  rcases portText_cases number with none | ⟨value, -, -, -, written⟩
  · rw [none] at member
    cases member
  · rw [written] at member
    exact (List.mem_cons.mp member).imp id isAsciiDigit_of_mem_strOf

private theorem not_mem_portText {mark : Char} (listed : isMark mark = true) (other : mark ≠ ':') :
    mark ∉ portText number := by
  intro member
  rcases mem_portText member with same | digit
  · exact other same
  · simp only [isMark, decide_eq_true_eq, List.mem_cons, List.not_mem_nil, or_false] at listed
    rcases listed with rfl | rfl | rfl | rfl | rfl | rfl | rfl | rfl | rfl | rfl <;>
      exact absurd digit (by decide)

theorem hostinfo_written (free : ∀ char ∈ host, isMark char = false) (number : Option Nat) :
    hostinfo (host ++ portText number) = (false, host, (portText number).drop 1) := by
  have absent : ∀ {mark : Char}, isMark mark = true → mark ≠ ':' → mark ∉ host ++ portText number :=
    fun listed other member => (List.mem_append.mp member).elim (not_mem_of_isMark listed free)
      (not_mem_portText listed other)
  have info : (host ++ portText number).rtakeWhile (· ≠ '@') = host ++ portText number := by
    refine List.rtakeWhile_eq_self_iff.mpr fun char member => decide_eq_true ?_
    rintro rfl
    exact absent (by decide) (by decide) member
  have noColon : ':' ∉ host := not_mem_of_isMark (by decide) free
  rw [hostinfo, info]
  simp only [if_neg (@absent '[' (by decide) (by decide))]
  rcases portText_cases number with none | ⟨value, -, -, -, written⟩
  · rw [none, List.append_nil, before_of_not_mem noColon, behind_of_not_mem noColon]
    rfl
  · rw [written, before_append noColon, behind_append noColon]
    rfl

private theorem isPort_strOf {value : Nat} (small : value ≤ 65535) : isPort (strOf value) = true := by
  have short : (strOf value).length ≤ 5 := length_strOf_le (by decide) (by omega)
  simp only [isPort, intOf_strOf, Bool.and_eq_true, decide_eq_true_eq, List.all_eq_true]
  exact ⟨⟨fun char member => isAsciiDigit_of_mem_strOf member, short.trans (by decide)⟩, small⟩

def kept (number : Option Nat) : Option Nat := if portText number = [] then none else number

theorem port_written (free : ∀ char ∈ host, isMark char = false)
    (small : ∀ value ∈ number, value ≤ 65535) :
    port (host ++ portText number) = some (kept number) := by
  rw [port, hostinfo_written free, kept]
  rcases portText_cases number with none | ⟨value, rfl, -, -, written⟩
  · simp only [none, List.drop_nil, if_true]
  · simp only [written, List.drop_one, List.tail_cons, strOf_ne_nil, if_false, isPort_strOf (small value rfl),
      if_true, intOf_strOf, reduceCtorEq]

theorem hostname_written (name : IsName host) (number : Option Nat) :
    hostname (host ++ portText number) = host := by
  have small : ∀ char ∈ host, IsLower char := fun char member =>
    isLower_of_mem_lower (name.small.symm ▸ member : char ∈ lower host)
  have front : lower (before '%' host) = before '%' host :=
    lower_of_isLower fun char member => small char (mem_before member).1
  rw [hostname, hostinfo_written name.free]
  simp only [front]
  exact List.takeWhile_append_dropWhile

theorem lowered_eq_self (name : IsName host) : lowered host = host := by
  rw [lowered, name.small, List.rdropWhile_eq_self_iff]
  intro filled
  have last := name.dotless
  rw [List.getLast?_eq_some_getLast filled] at last
  simpa using last

theorem encoded_encoded (host : Text) : encoded unicode (encoded unicode host) = encoded unicode host := by
  by_cases asked : host ≠ [] ∧ isAscii host = false
  · have same : encoded unicode host = (unicode.idna host).getD host := if_pos asked
    cases found : unicode.idna host with
    | none =>
        rw [found] at same
        rw [same]
        exact same
    | some ascii =>
        rw [found] at same
        rw [same]
        have isAscii : isAscii ascii = true := unicode.isAscii_idna found
        exact if_neg fun asked => Bool.false_ne_true (asked.2.symm.trans isAscii)
  · have same : encoded unicode host = host := if_neg asked
    rw [same]
    exact same

/-! ## What is kept -/

/-- The network location of a normal form. -/
def netlocText (unicode : Unicode) (parts : SplitResult) (number : Option Nat) : Text :=
  hostText unicode parts ++ portText number

/-- What is behind the network location of a normal form. -/
def tailText (parts : SplitResult) : Text := tail (orRoot parts.path) parts.query

/-- A link whose normal form names what it names: a port of 0, 80 or 443 is the default of the scheme, the
host is no address in brackets and reads back as it is written, and no white space is at an end. -/
structure Kept (unicode : Unicode) (parts : SplitResult) (number : Option Nat) : Prop where
  port : ∀ value ∈ number, value ∈ [0, 80, 443] → defaultPort parts.scheme = some value
  literal : (hostinfo parts.netloc).1 = false
  name : IsName (hostText unicode parts)
  checked : checkNetloc unicode.nfkc (netlocText unicode parts number) = true
  last : ∀ char ∈ (tailText parts).getLast?, isSpace char = false
  first : parts.scheme = [] → netlocText unicode parts number = [] →
    ∀ char ∈ parts.path.head?, isSpace char = false

theorem orRoot_ne_nil (path : Text) : orRoot path ≠ [] := by
  rw [orRoot]
  split_ifs with none
  · exact List.cons_ne_nil _ _
  · exact none

private theorem mem_orRoot {char : Char} (member : char ∈ orRoot path) : char ∈ path ∨ char = '/' := by
  rw [orRoot] at member
  split_ifs at member
  · exact .inr (List.mem_singleton.mp member)
  · exact .inl member

private theorem path_spec (split : IsSplit parts) :
    ∀ char ∈ orRoot parts.path, char ≠ '?' ∧ char ≠ '#' ∧ isUnsafe char = false := by
  intro char member
  rcases mem_orRoot member with isIn | rfl
  · exact split.path char isIn
  · decide

private theorem read_tailText (split : IsSplit parts) :
    partsOf scheme netloc (tailText parts) =
      ⟨scheme, netloc, orRoot parts.path, parts.query, []⟩ := by
  obtain ⟨front, none, path, query⟩ := read_tail
    (fun char member => ⟨(path_spec split char member).1, (path_spec split char member).2.1⟩)
    (fun char member => (split.query char member).1)
  simp only [partsOf, tailText, front, none, path, query]

private theorem safe_tailText (split : IsSplit parts) : ∀ char ∈ tailText parts, isUnsafe char = false := by
  intro char member
  rcases List.mem_append.mp member with isIn | isIn
  · exact (path_spec split char isIn).2.2
  · rw [marked] at isIn
    split_ifs at isIn
    · cases isIn
    · rcases List.mem_cons.mp isIn with rfl | isIn
      · decide
      · exact (split.query char isIn).2

private theorem head_tailText : (tailText parts).head? = (orRoot parts.path).head? :=
  List.head?_append_of_ne_nil _ (orRoot_ne_nil parts.path)

private theorem rooted_of_netloc (split : IsSplit parts) (number : Option Nat)
    (port : UrlParse.port parts.netloc = some number) (some : netlocText unicode parts number ≠ []) :
    (orRoot parts.path).head? = Option.some '/' := by
  by_cases named : parts.netloc = []
  · rw [named] at port
    cases port
    refine absurd ?_ some
    rw [netlocText, hostText, named]
    rfl
  · rcases split.rooted named with none | isFirst
    · rw [orRoot, if_pos none]
      rfl
    · rw [orRoot]
      split_ifs
      · rfl
      · exact isFirst

private theorem small_of_reads (reads : Reads unicode url parts number) :
    ∀ value ∈ number, value ≤ 65535 := by
  intro value member
  have port := reads.port
  rw [UrlParse.port] at port
  split_ifs at port with none isPort
  · cases port
    cases member
  · cases port
    cases member
    simp only [UrlParse.isPort, Bool.and_eq_true, decide_eq_true_eq] at isPort
    exact isPort.2

/-- What a normal form is taken apart to, where its host reads back. -/
def formOf (unicode : Unicode) (parts : SplitResult) (number : Option Nat) : SplitResult :=
  ⟨parts.scheme, netlocText unicode parts number, orRoot parts.path, parts.query, []⟩

private theorem safe_of_free {netloc : Text}
    (free : ∀ char ∈ netloc, isDelimiter char = false ∧ isUnsafe char = false) :
    netloc.filter (!isUnsafe ·) = netloc :=
  List.filter_eq_self.mpr fun char member => by
    rw [(free char member).2]
    rfl

private theorem free_netlocText (free : ∀ char ∈ host, isMark char = false) (number : Option Nat) :
    ∀ char ∈ host ++ portText number, isDelimiter char = false ∧ isUnsafe char = false := by
  have marks : ∀ {char : Char}, isDelimiter char = true ∨ isUnsafe char = true →
      isMark char = true ∧ char ≠ ':' := by
    intro char listed
    simp only [isDelimiter, isUnsafe, Bool.or_eq_true, decide_eq_true_eq] at listed
    rcases listed with ((rfl | rfl) | rfl) | ((rfl | rfl) | rfl) <;> decide
  intro char member
  have absent : ¬(isDelimiter char = true ∨ isUnsafe char = true) := fun listed =>
    (List.mem_append.mp member).elim (not_mem_of_isMark (marks listed).1 free)
      (not_mem_portText (marks listed).1 (marks listed).2)
  rwa [not_or, Bool.not_eq_true, Bool.not_eq_true] at absent

private theorem delimited_of_rooted {text : Text} (rooted : text.head? = some '/') :
    ∀ first, text.head? = some first → isDelimiter first = true := by
  intro first isFirst
  cases rooted.symm.trans isFirst
  decide

private theorem normalOf_cases (reads : Reads unicode url parts number) :
    ((orRoot parts.path).head? = some '/' ∧ normalOf unicode parts number =
      head parts.scheme ++ (slashes ++ (netlocText unicode parts number ++ tailText parts))) ∨
    (netlocText unicode parts number = [] ∧ ¬slashes <+: orRoot parts.path ∧
      normalOf unicode parts number = head parts.scheme ++ tailText parts) := by
  have small : lower parts.scheme = parts.scheme := by
    rcases reads.isSplit.scheme with none | isLower
    · rw [none]
      rfl
    · exact lower_scheme isLower
  rw [normalOf, small]
  exact urlunsplit_cases (orRoot_ne_nil parts.path) (rooted_of_netloc reads.isSplit number reads.port)

private theorem single_tailText (single : ¬slashes <+: orRoot parts.path) :
    ¬slashes <+: tailText parts := by
  intro starts
  rw [tailText, tail] at starts
  cases same : orRoot parts.path with
  | nil => exact orRoot_ne_nil parts.path same
  | cons first path =>
      rw [same] at starts single
      obtain ⟨rest, whole⟩ := starts
      cases path with
      | cons second path =>
          refine single ⟨path, ?_⟩
          simp only [slashes, List.cons_append, List.nil_append, List.cons.injEq] at whole ⊢
          exact ⟨whole.1, whole.2.1, trivial⟩
      | nil =>
          simp only [slashes, List.cons_append, List.nil_append, List.cons.injEq] at whole
          have second := whole.2
          rw [marked] at second
          split_ifs at second
          exact absurd (List.cons.inj second).1 (by decide)

private theorem unnamed_tailText (split : IsSplit parts) (none : parts.scheme = []) :
    splitScheme (tailText parts) = ([], tailText parts) ∧
      ∀ char ∈ (tailText parts).head?, isControlOrSpace char = false := by
  by_cases rooted : (orRoot parts.path).head? = some '/'
  · rw [← head_tailText] at rooted
    cases same : tailText parts with
    | nil =>
        rw [same] at rooted
        cases rooted
    | cons first text =>
        rw [same] at rooted
        cases rooted
        refine ⟨splitScheme_slash text, fun char member => ?_⟩
        cases member
        decide
  · have filled : parts.path ≠ [] := by
      intro empty
      rw [orRoot, if_pos empty] at rooted
      exact rooted rfl
    have itself : orRoot parts.path = parts.path := if_neg filled
    rw [itself] at rooted
    obtain ⟨solid, unnamed⟩ := split.relative none filled rooted
    rw [head_tailText, itself]
    refine ⟨?_, solid⟩
    rcases splitScheme_cases (tailText parts) with ⟨name, rest, named, whole, -⟩ | split
    · exfalso
      rw [tailText, itself, tail] at whole
      have noMark : '?' ∉ name := fun member =>
        absurd (isSchemeChar_of_isScheme named member) (by decide)
      have noColon : ∀ more, marked '?' parts.query ≠ ':' :: more := by
        intro more same
        rw [marked] at same
        split_ifs at same
        exact absurd (List.cons.inj same).1 (by decide)
      rcases List.append_eq_append_iff.mp whole with ⟨more, isName, after⟩ | ⟨more, isPath, after⟩
      · cases more with
        | nil => exact noColon rest after
        | cons first more =>
            rw [marked] at after
            split_ifs at after
            · cases after
            · rw [isName, ← (List.cons.inj after).1] at noMark
              exact noMark (List.mem_append_right _ List.mem_cons_self)
      · cases more with
        | nil => exact noColon rest after.symm
        | cons first more =>
            cases (List.cons.inj after).1
            exact absurd (unnamed name more isPath) (by simp [named])
    · exact split

theorem reads_normalOf (reads : Reads unicode url parts number) (isKept : Kept unicode parts number) :
    Reads unicode (normalOf unicode parts number) (formOf unicode parts number) (kept number) := by
  have split := reads.isSplit
  have whole : rstrip (tailText parts) = tailText parts := rstrip_eq_self isKept.last
  have free := free_netlocText isKept.name.free number
  have splitForm : splitParts (cleaned (strip (normalOf unicode parts number))) =
      formOf unicode parts number := by
    rw [formOf, ← read_tailText split]
    rcases normalOf_cases reads with ⟨rooted, written⟩ | ⟨none, single, written⟩
    · rw [← head_tailText] at rooted
      obtain ⟨front, rest⟩ := takeWhile_netloc (fun char member => (free char member).1)
        (delimited_of_rooted rooted)
      rw [written, split_rooted split.scheme _ rooted (safe_tailText split), netlocText,
        safe_of_free free, whole, front, rest]
    · rw [written, none]
      rcases split.scheme with noScheme | isLower
      · have solid : ∀ char ∈ (tailText parts).head?, isSpace char = false := by
          rw [head_tailText, orRoot]
          split_ifs with empty
          · rintro char member
            cases member
            decide
          · exact isKept.first noScheme none
        obtain ⟨unnamed, first⟩ := unnamed_tailText split noScheme
        rw [noScheme, head, if_pos rfl, List.nil_append, strip_of_isStripped ⟨solid, isKept.last⟩,
          cleaned_eq_self first (safe_tailText split)]
        exact splitParts_of unnamed (splitNetloc_of_single (single_tailText single))
      · rw [split_named isLower (single_tailText single) (safe_tailText split), whole]
  have absent : ∀ {mark : Char}, isMark mark = true → mark ≠ ':' →
      mark ∉ netlocText unicode parts number :=
    fun listed other member => (List.mem_append.mp member).elim
      (not_mem_of_isMark listed isKept.name.free) (not_mem_portText listed other)
  have brackets : checkBrackets (netlocText unicode parts number) = true := by
    rw [checkBrackets, if_neg (@absent '[' (by decide) (by decide))]
    exact decide_eq_true (absent (by decide) (by decide))
  constructor
  · rw [urlsplit, splitForm]
    simp only [formOf, brackets, isKept.checked, Bool.and_self, if_true]
  · exact port_written isKept.name.free (small_of_reads reads)

theorem hostText_formOf (name : IsName (hostText unicode parts)) :
    hostText unicode (formOf unicode parts number) = hostText unicode parts := by
  have read : hostname (formOf unicode parts number).netloc = hostText unicode parts :=
    hostname_written name number
  rw [hostText, read, lowered_eq_self name, hostText, encoded_encoded]

private theorem orRoot_orRoot (path : Text) : orRoot (orRoot path) = orRoot path :=
  if_neg (orRoot_ne_nil path)

private theorem portText_kept (number : Option Nat) : portText (kept number) = portText number := by
  rw [kept]
  split_ifs with none
  · exact none.symm
  · rfl

private theorem mem_of_portText_eq_nil {value : Nat} (none : portText (some value) = []) :
    value ∈ [0, 80, 443] := by
  simp only [portText] at none
  split_ifs at none with shown
  rw [not_and_or, not_ne_iff, not_not] at shown
  exact List.mem_cons.mpr shown

theorem normalOf_formOf (name : IsName (hostText unicode parts)) :
    normalOf unicode (formOf unicode parts number) (kept number) = normalOf unicode parts number := by
  rw [normalOf, hostText_formOf name, portText_kept, normalOf]
  simp only [formOf, orRoot_orRoot]

theorem resourceOf_formOf (isKept : Kept unicode parts number) :
    resourceOf unicode (formOf unicode parts number) (kept number) = resourceOf unicode parts number := by
  have literal : (hostinfo (formOf unicode parts number).netloc).1 = false :=
    congrArg Prod.fst (hostinfo_written isKept.name.free number)
  have port : (kept number).or (defaultPort parts.scheme) = number.or (defaultPort parts.scheme) := by
    rw [kept]
    split_ifs with none
    · cases number with
      | none => rfl
      | some value => exact isKept.port value rfl (mem_of_portText_eq_nil none)
    · rfl
  rw [resourceOf, hostText_formOf isKept.name, literal, resourceOf, isKept.literal]
  simp only [formOf, orRoot_orRoot, port]

/-! ## What is needed -/

private theorem ascii_lowerChar : ∀ code < 128,
    (lowerChar (Char.ofNat code)).all (·.toNat < 128) = true := by
  decide +kernel

theorem isAscii_lower {text : Text} (ascii : isAscii text = true) : isAscii (lower text) = true := by
  suffices every : ∀ front, isAscii (lowerFrom front text) = true from every []
  rw [isAscii, List.all_eq_true] at ascii
  induction text with
  | nil => exact fun _ => rfl
  | cons char text induction =>
      intro front
      have small : char.toNat < 128 := of_decide_eq_true (ascii char List.mem_cons_self)
      have notSigma : char ≠ 'Σ' := by
        rintro rfl
        exact absurd small (by decide)
      have here := ascii_lowerChar char.toNat small
      rw [Char.ofNat_toNat] at here
      have later := induction (fun other member => ascii other (List.mem_cons_of_mem _ member))
        (char :: front)
      rw [isAscii] at later ⊢
      rw [lowerFrom, lowerAt, if_neg notSigma, List.all_append, here, later]
      rfl

private theorem count_loweredHost_le {mark : Char} (small : mark.toNat < 97) (netloc : Text) :
    (lowered (hostname netloc)).count mark ≤ (hostinfo netloc).2.1.count mark := by
  have whole : before '%' (hostinfo netloc).2.1 ++ (hostinfo netloc).2.1.dropWhile (· ≠ '%') =
      (hostinfo netloc).2.1 := List.takeWhile_append_dropWhile
  calc
    (lowered (hostname netloc)).count mark ≤ (lower (hostname netloc)).count mark :=
      (List.rdropWhile_prefix _ _).sublist.count_le mark
    _ ≤ (hostname netloc).count mark := count_lower_le small _
    _ ≤ (before '%' (hostinfo netloc).2.1).count mark +
          ((hostinfo netloc).2.1.dropWhile (· ≠ '%')).count mark := by
      rw [hostname, List.count_append]
      exact Nat.add_le_add_right (count_lower_le small _) _
    _ = (hostinfo netloc).2.1.count mark := by rw [← List.count_append, whole]

private theorem info_sublist (netloc : Text) : (netloc.rtakeWhile (· ≠ '@')).Sublist netloc :=
  (List.rtakeWhile_suffix _ _).sublist

private theorem count_bracket (netloc : Text) :
    (hostinfo netloc).2.1.count '[' = 0 ∧ (hostinfo netloc).1 = false ∨
      (hostinfo netloc).2.1.count '[' < netloc.count '[' := by
  have inside := (info_sublist netloc).count_le '['
  simp only [hostinfo]
  split_ifs with opened
  · refine .inr ?_
    have whole := congrArg (List.count '[') (before_append_behind opened)
    rw [List.count_append, List.count_cons_self] at whole
    have front : (before ']' (behind '[' (netloc.rtakeWhile (· ≠ '@')))).count '[' ≤
        (behind '[' (netloc.rtakeWhile (· ≠ '@'))).count '[' :=
      (List.takeWhile_prefix _).sublist.count_le '['
    simp only
    omega
  · refine .inl ⟨List.count_eq_zero.mpr fun member => opened (mem_before member).1, rfl⟩

private theorem ascii_of_sublist {front whole : Text} (inside : front.Sublist whole)
    (ascii : isAscii whole = true) : isAscii front = true :=
  List.all_eq_true.mpr fun char member => List.all_eq_true.mp ascii char (inside.subset member)

private theorem hostinfo_sublist (netloc : Text) : (hostinfo netloc).2.1.Sublist netloc := by
  refine List.Sublist.trans ?_ (info_sublist netloc)
  simp only [hostinfo]
  split_ifs
  · exact (List.takeWhile_prefix _).sublist.trans
      ((List.drop_sublist _ _).trans (List.dropWhile_suffix _).sublist)
  · exact (List.takeWhile_prefix _).sublist

private theorem isAscii_loweredHost {netloc : Text} (ascii : isAscii netloc = true) :
    isAscii (lowered (hostname netloc)) = true := by
  have text := ascii_of_sublist (hostinfo_sublist netloc) ascii
  have front := isAscii_lower (ascii_of_sublist (List.takeWhile_prefix (· ≠ '%')).sublist text)
  have back := ascii_of_sublist (List.dropWhile_suffix (· ≠ '%')).sublist text
  refine ascii_of_sublist (List.rdropWhile_prefix _ _).sublist (isAscii_lower ?_)
  rw [isAscii] at front back ⊢
  rw [hostname, List.all_append]
  exact Bool.and_eq_true _ _ ▸ ⟨front, back⟩

private theorem takeWhile_of_rooted {netloc text : Text} (rooted : text.head? = some '/') :
    (netloc ++ text).takeWhile (!isDelimiter ·) = netloc.takeWhile (!isDelimiter ·) := by
  have stops : text.takeWhile (!isDelimiter ·) = [] := by
    cases text with
    | nil => rfl
    | cons first text =>
        cases rooted
        rfl
  rw [List.takeWhile_append, stops, List.append_nil]
  split_ifs with whole
  · exact ((List.takeWhile_prefix _).eq_of_length whole).symm
  · rfl

private theorem isAscii_portText (number : Option Nat) : isAscii (portText number) = true := by
  refine List.all_eq_true.mpr fun char member => decide_eq_true ?_
  rcases mem_portText member with rfl | digit
  · decide
  · simp only [isAsciiDigit, Bool.and_eq_true, decide_eq_true_eq] at digit
    exact Nat.lt_of_le_of_lt digit.2 (by decide)

private theorem hostText_eq_lowered {netloc : Text} (inside : netloc.Sublist (netlocText unicode parts number))
    (same : encoded unicode (lowered (hostname netloc)) = hostText unicode parts) :
    hostText unicode parts = lowered (hostname netloc) := by
  by_cases ascii : isAscii netloc = true
  · rw [← same]
    exact if_neg fun asked =>
      Bool.false_ne_true (asked.2.symm.trans (isAscii_loweredHost ascii))
  · have notAscii : isAscii (hostText unicode parts) ≠ true := by
      intro isHost
      refine ascii (ascii_of_sublist inside ?_)
      have port := isAscii_portText number
      rw [isAscii] at isHost port ⊢
      rw [netlocText, List.all_append]
      exact Bool.and_eq_true _ _ ▸ ⟨isHost, port⟩
    rw [← same, encoded]
    split_ifs with asked
    · cases found : unicode.idna (lowered (hostname netloc)) with
      | none => rfl
      | some name =>
          rw [encoded, if_pos asked, found] at same
          exact absurd (same ▸ unicode.isAscii_idna found) notAscii
    · rfl

private theorem isMark_small {mark : Char} (listed : isMark mark = true) : mark.toNat < 97 := by
  simp only [isMark, decide_eq_true_eq, List.mem_cons, List.not_mem_nil, or_false] at listed
  rcases listed with rfl | rfl | rfl | rfl | rfl | rfl | rfl | rfl | rfl | rfl <;> decide

private theorem isName_of_rooted {other : SplitResult} {otherNumber : Option Nat}
    (again : Reads unicode (normalOf unicode parts number) other otherNumber)
    (same : resourceOf unicode other otherNumber = resourceOf unicode parts number)
    (placed : other.netloc = ((netlocText unicode parts number).filter (!isUnsafe ·)).takeWhile
      (!isDelimiter ·)) :
    IsName (hostText unicode parts) ∧ (hostinfo parts.netloc).1 = false := by
  have inside : other.netloc.Sublist (netlocText unicode parts number) :=
    placed ▸ (List.takeWhile_prefix _).sublist.trans List.filter_sublist
  have isHost : hostText unicode parts = lowered (hostname other.netloc) :=
    hostText_eq_lowered inside (congrArg Resource.host same)
  have noOpening : '[' ∉ portText number := not_mem_portText (by decide) (by decide)
  have brackets : (netlocText unicode parts number).count '[' = (hostText unicode parts).count '[' := by
    rw [netlocText, List.count_append, List.count_eq_zero.mpr noOpening, Nat.add_zero]
  have fewer : (lowered (hostname other.netloc)).count '[' ≤ (hostinfo other.netloc).2.1.count '[' :=
    count_loweredHost_le (by decide) other.netloc
  rw [← isHost] at fewer
  obtain ⟨noBracket, unopened⟩ := (count_bracket other.netloc).resolve_right fun less => by
    have few := inside.count_le '['
    omega
  have literal : (hostinfo parts.netloc).1 = false := (congrArg Resource.literal same).symm.trans unopened
  have info : '[' ∉ other.netloc.rtakeWhile (· ≠ '@') := by
    intro opened
    rw [hostinfo] at unopened
    simp only [if_pos opened] at unopened
    exact absurd unopened nofun
  -- The closing bracket is left to the checks of `urlsplit`.
  have absent : ∀ char ∈ hostText unicode parts, isMark char = true → char = ']' := by
    intro char member listed
    have counted := count_loweredHost_le (isMark_small listed) other.netloc
    rw [← isHost] at counted
    have inText : char ∈ (hostinfo other.netloc).2.1 :=
      List.count_pos_iff.mp ((List.count_pos_iff.mpr member).trans_le counted)
    have inNetloc := again.isSplit.netloc char ((hostinfo_sublist other.netloc).subset inText)
    rw [hostinfo] at inText
    simp only [if_neg info] at inText
    obtain ⟨inInfo, notColon⟩ := mem_before inText
    have notAt : char ≠ '@' := of_decide_eq_true (List.mem_rtakeWhile_imp (p := (· ≠ '@')) inInfo)
    simp only [isMark, decide_eq_true_eq, List.mem_cons, List.not_mem_nil, or_false] at listed
    rcases listed with rfl | rfl | rfl | rfl | rfl | rfl | rfl | rfl | rfl | rfl
    · exact absurd rfl notColon
    · exact absurd inNetloc.1 (by decide)
    · exact absurd inNetloc.1 (by decide)
    · exact absurd inNetloc.1 (by decide)
    · exact absurd rfl notAt
    · exact absurd inInfo info
    · rfl
    · exact absurd inNetloc.2 (by decide)
    · exact absurd inNetloc.2 (by decide)
    · exact absurd inNetloc.2 (by decide)
  have listedApart : ∀ {char : Char}, isDelimiter char = true ∨ isUnsafe char = true →
      isMark char = true ∧ char ≠ ':' ∧ char ≠ ']' := by
    intro char listed
    simp only [isDelimiter, isUnsafe, Bool.or_eq_true, decide_eq_true_eq] at listed
    rcases listed with ((rfl | rfl) | rfl) | ((rfl | rfl) | rfl) <;> decide
  have free : ∀ char ∈ netlocText unicode parts number,
      isDelimiter char = false ∧ isUnsafe char = false := by
    intro char member
    have no : ¬(isDelimiter char = true ∨ isUnsafe char = true) := fun listed =>
      (List.mem_append.mp member).elim
        (fun isIn => (listedApart listed).2.2 (absent char isIn (listedApart listed).1))
        (not_mem_portText (listedApart listed).1 (listedApart listed).2.1)
    rwa [not_or, Bool.not_eq_true, Bool.not_eq_true] at no
  have whole : other.netloc = netlocText unicode parts number := by
    rw [placed, safe_of_free free, List.takeWhile_eq_self_iff]
    intro char member
    rw [(free char member).1]
    rfl
  have closed : ']' ∉ netlocText unicode parts number := by
    have unopenedText : '[' ∉ netlocText unicode parts number := by
      rw [← List.count_eq_zero, brackets]
      omega
    have checked := again.checks.1
    rw [whole, checkBrackets, if_neg unopenedText] at checked
    exact of_decide_eq_true checked
  refine ⟨⟨fun char member => ?_, ?_, ?_⟩, literal⟩
  · rw [← Bool.not_eq_true]
    intro listed
    exact closed (absent char member listed ▸ List.mem_append_left _ member)
  · refine lower_of_isLower fun char member => ?_
    rw [isHost] at member
    exact isLower_of_mem_lower ((List.rdropWhile_prefix _ _).subset member)
  · intro last
    have filled : lowered (hostname other.netloc) ≠ [] := by
      rw [← isHost]
      rintro none
      rw [none] at last
      cases last
    rw [isHost, List.getLast?_eq_some_getLast filled] at last
    have stops := List.rdropWhile_last_not (· = '.') _ filled
    exact stops (decide_eq_true (Option.some.inj last))

/-! ## The end of a normal form -/

private theorem length_tailText_le {rest : Text}
    (filled : before '?' (before '#' rest) ≠ [])
    (samePath : orRoot (before '?' (before '#' rest)) = orRoot parts.path)
    (sameQuery : behind '?' (before '#' rest) = parts.query) :
    (tailText parts).length ≤ rest.length := by
  rw [tailText, ← samePath, ← sameQuery, orRoot, if_neg filled]
  exact length_tail_le rest

private theorem path_ne_nil_of_rooted {rest : Text} (rooted : rest.head? = some '/') :
    before '?' (before '#' rest) ≠ [] := by
  cases rest with
  | nil => cases rooted
  | cons first rest =>
      cases rooted
      rw [before, before, List.takeWhile_cons_of_pos (by decide), List.takeWhile_cons_of_pos (by decide)]
      exact List.cons_ne_nil _ _

private theorem rooted_of_path_eq_nil {rest : Text} (none : before '?' (before '#' rest) = [])
    (samePath : orRoot (before '?' (before '#' rest)) = orRoot parts.path) :
    (tailText parts).head? = some '/' := by
  rw [head_tailText, ← samePath, orRoot, if_pos none]
  rfl

private theorem length_le_rstrip {rest : Text} (isRest : rest = rstrip (tailText parts))
    (samePath : orRoot (before '?' (before '#' rest)) = orRoot parts.path)
    (sameQuery : behind '?' (before '#' rest) = parts.query) :
    ∀ char ∈ (tailText parts).getLast?, isSpace char = false := by
  refine last_of_length_le ?_
  rw [← isRest]
  refine length_tailText_le (fun none => ?_) samePath sameQuery
  have rooted := rstrip_rooted (rooted_of_path_eq_nil none samePath)
  rw [← isRest] at rooted
  exact path_ne_nil_of_rooted rooted none

private theorem port_of_kept {scheme : Text} (same : (kept number).or (defaultPort scheme) =
    number.or (defaultPort scheme)) :
    ∀ value ∈ number, value ∈ [0, 80, 443] → defaultPort scheme = some value := by
  rintro value member listed
  cases member
  have none : portText (some value) = [] := by
    simp only [portText]
    refine if_neg fun shown => ?_
    rcases List.mem_cons.mp listed with zero | other
    · exact shown.1 zero
    · exact shown.2 other
  rw [kept, if_pos none] at same
  exact same

private theorem plain_of_resourceOf_eq (reads : Reads unicode url parts number)
    {other : SplitResult} {otherNumber : Option Nat}
    (again : Reads unicode (normalOf unicode parts number) other otherNumber)
    (same : resourceOf unicode other otherNumber = resourceOf unicode parts number)
    (single : ¬slashes <+: orRoot parts.path)
    (written : normalOf unicode parts number = head parts.scheme ++ tailText parts) :
    other.netloc = [] ∧ (∀ char ∈ (tailText parts).getLast?, isSpace char = false) ∧
      (parts.scheme = [] → ∀ char ∈ (tailText parts).head?, isSpace char = false) := by
  have split := reads.isSplit
  have safe := safe_tailText split
  have samePath : orRoot other.path = orRoot parts.path := congrArg Resource.path same
  have sameQuery : other.query = parts.query := congrArg Resource.query same
  have isOther := again.eq_splitParts
  rw [written] at isOther
  rcases split.scheme with noScheme | isLower
  · have unnamed : other.scheme = [] := (congrArg Resource.scheme same).trans noScheme
    rw [noScheme, head, if_pos rfl, List.nil_append] at isOther
    have unnamedText : splitScheme (cleaned (strip (tailText parts))) =
        ([], cleaned (strip (tailText parts))) := by
      rcases splitScheme_cases (cleaned (strip (tailText parts))) with ⟨name, rest, named, -, split⟩ | split
      · rw [isOther] at unnamed
        simp only [splitParts, split] at unnamed
        exact absurd (List.map_eq_nil_iff.mp unnamed) (scheme_ne_nil named)
      · exact split
    -- A path that starts with a slash starts with no white space.
    have rootedText : (tailText parts).head? = some '/' →
        cleaned (strip (tailText parts)) = rstrip (tailText parts) := fun rooted => by
      have left : lstrip (tailText parts) = tailText parts := lstrip_eq_self fun char member => by
        cases rooted.symm.trans member
        decide
      rw [strip, left]
      refine cleaned_eq_self (fun char member => ?_)
        fun char member => safe char ((List.rdropWhile_prefix _ _).subset member)
      cases (rstrip_rooted rooted).symm.trans member
      decide
    have short : (cleaned (strip (tailText parts))).length ≤ (strip (tailText parts)).length :=
      (List.length_filter_le _ _).trans (List.dropWhile_suffix _).length_le
    rcases splitNetloc_cases (cleaned (strip (tailText parts))) with ⟨rest, whole, placed⟩ | placed
    · have isParts := splitParts_of unnamedText placed
      rw [isParts] at isOther
      rw [isOther] at samePath sameQuery
      exfalso
      by_cases none : before '?' (before '#' (rest.dropWhile (!isDelimiter ·))) = []
      · have starts : slashes <+: rstrip (tailText parts) :=
          ⟨rest, whole.symm.trans (rootedText (rooted_of_path_eq_nil none samePath))⟩
        exact single_tailText single (starts.trans (List.rdropWhile_prefix _ _))
      · have long := length_tailText_le none samePath sameQuery
        have behind : (rest.dropWhile (!isDelimiter ·)).length ≤ rest.length :=
          (List.dropWhile_suffix _).length_le
        have stripped := length_strip_le (tailText parts)
        rw [whole, List.length_cons, List.length_cons] at short
        omega
    · have isParts := splitParts_of unnamedText placed
      rw [isParts] at isOther
      rw [isOther] at samePath sameQuery
      have filled : before '?' (before '#' (cleaned (strip (tailText parts)))) ≠ [] := by
        intro none
        have rooted := rooted_of_path_eq_nil none samePath
        refine path_ne_nil_of_rooted ?_ none
        rw [rootedText rooted]
        exact rstrip_rooted rooted
      have stripped := strip_eq_self ((length_tailText_le filled samePath sameQuery).trans short)
      have ends := isStripped_strip (tailText parts)
      rw [stripped] at ends
      exact ⟨congrArg SplitResult.netloc isOther, ends.last, fun _ => ends.head⟩
  · rw [split_named isLower (single_tailText single) safe] at isOther
    rw [isOther] at samePath sameQuery
    refine ⟨congrArg SplitResult.netloc isOther, length_le_rstrip rfl samePath sameQuery, fun none => ?_⟩
    exact absurd none (scheme_ne_nil isLower.isScheme)

theorem kept_of_resourceOf_eq (reads : Reads unicode url parts number)
    {other : SplitResult} {otherNumber : Option Nat}
    (again : Reads unicode (normalOf unicode parts number) other otherNumber)
    (same : resourceOf unicode other otherNumber = resourceOf unicode parts number) :
    Kept unicode parts number := by
  have samePort : otherNumber.or (defaultPort other.scheme) = number.or (defaultPort parts.scheme) :=
    congrArg Resource.port same
  rw [show other.scheme = parts.scheme from congrArg Resource.scheme same] at samePort
  rcases normalOf_cases reads with ⟨rooted, written⟩ | ⟨none, single, written⟩
  · rw [← head_tailText] at rooted
    have isOther := again.eq_splitParts
    rw [written, split_rooted reads.isSplit.scheme _ rooted (safe_tailText reads.isSplit)] at isOther
    obtain ⟨name, literal⟩ := isName_of_rooted again same
      ((congrArg SplitResult.netloc isOther).trans (takeWhile_of_rooted (rstrip_rooted rooted)))
    have free := free_netlocText name.free number
    obtain ⟨front, rest⟩ := takeWhile_netloc (fun char member => (free char member).1)
      (delimited_of_rooted (rstrip_rooted rooted))
    rw [netlocText, safe_of_free free, front, rest] at isOther
    have port := again.port
    rw [isOther] at port
    have isPort := Option.some.inj ((port_written name.free (small_of_reads reads)).symm.trans port)
    refine ⟨port_of_kept ?_, literal, name, ?_, ?_, fun _ _ char member => ?_⟩
    · rw [isPort]
      exact samePort
    · have checked := again.checks.2
      rw [isOther] at checked
      exact checked
    · have samePath : orRoot other.path = orRoot parts.path := congrArg Resource.path same
      have sameQuery : other.query = parts.query := congrArg Resource.query same
      rw [isOther] at samePath sameQuery
      exact length_le_rstrip rfl samePath sameQuery
    · have filled : parts.path ≠ [] := by
        intro empty
        rw [empty] at member
        cases member
      rw [head_tailText, orRoot, if_neg filled] at rooted
      cases rooted.symm.trans member
      decide
  · obtain ⟨unplaced, last, first⟩ := plain_of_resourceOf_eq reads again same single written
    have noHost : hostText unicode parts = [] := (List.append_eq_nil_iff.mp none).1
    have noPort : kept number = Option.none := if_pos (List.append_eq_nil_iff.mp none).2
    have unported : otherNumber = Option.none := by
      have port := again.port
      rw [unplaced] at port
      exact (Option.some.inj port).symm
    refine ⟨port_of_kept ?_, ?_, ?_, ?_, last, fun noScheme _ => ?_⟩
    · rw [noPort, ← unported]
      exact samePort
    · have literal : (hostinfo other.netloc).1 = (hostinfo parts.netloc).1 :=
        congrArg Resource.literal same
      rw [← literal, unplaced]
      rfl
    · rw [noHost]
      exact ⟨nofun, rfl, nofun⟩
    · rw [none]
      rfl
    · intro char member
      refine first noScheme char ?_
      have filled : parts.path ≠ [] := by
        intro empty
        rw [empty] at member
        cases member
      rwa [head_tailText, orRoot, if_neg filled]

/-! ## All links -/

/-- A link that is read: its brackets are closed and have an address in them, no character of its network
location stands for a delimiter, and its port is a number. -/
structure Accepted (unicode : Unicode) (url : Text) : Prop where
  brackets : checkBrackets (splitParts (cleaned (strip url))).netloc = true
  netloc : checkNetloc unicode.nfkc (splitParts (cleaned (strip url))).netloc = true
  port : (hostinfo (splitParts (cleaned (strip url))).netloc).2.2 = [] ∨
    isPort (hostinfo (splitParts (cleaned (strip url))).netloc).2.2 = true

/-- Whether the normal form names what a link names, by the parts of the link. -/
def Keeps (unicode : Unicode) (url : Text) : Prop :=
  ∃ parts number, Reads unicode url parts number ∧ Kept unicode parts number

theorem exists_reads_iff : (∃ parts number, Reads unicode url parts number) ↔ Accepted unicode url := by
  constructor
  · rintro ⟨parts, number, reads⟩
    obtain ⟨brackets, netloc⟩ := reads.checks
    have port := reads.port
    rw [reads.eq_splitParts] at brackets netloc port
    refine ⟨brackets, netloc, ?_⟩
    rw [UrlParse.port] at port
    split_ifs at port with none isPort
    · exact .inl none
    · exact .inr isPort
  · rintro ⟨brackets, netloc, port⟩
    have split : urlsplit unicode.nfkc (strip url) = some (splitParts (cleaned (strip url))) := by
      rw [urlsplit, brackets, netloc]
      rfl
    have read : ∃ number, UrlParse.port (splitParts (cleaned (strip url))).netloc = some number := by
      rw [UrlParse.port]
      split_ifs with none isPort
      · exact ⟨_, rfl⟩
      · exact ⟨_, rfl⟩
      · exact absurd port (not_or.mpr ⟨none, isPort⟩)
    obtain ⟨number, read⟩ := read
    exact ⟨_, number, split, read⟩

theorem Reads.unique {other : SplitResult} {otherNumber : Option Nat}
    (reads : Reads unicode url parts number) (again : Reads unicode url other otherNumber) :
    parts = other ∧ number = otherNumber := by
  obtain rfl : parts = other := Option.some.inj (reads.split.symm.trans again.split)
  exact ⟨rfl, Option.some.inj (reads.port.symm.trans again.port)⟩

theorem normalise_isSome_iff : (∃ normal, normalise unicode url = some normal) ↔ Accepted unicode url := by
  rw [← exists_reads_iff]
  constructor
  · rintro ⟨normal, normalised⟩
    obtain ⟨parts, number, reads, -⟩ := exists_reads_of_normalise normalised
    exact ⟨parts, number, reads⟩
  · rintro ⟨parts, number, reads⟩
    exact ⟨_, normalise_of_reads reads⟩

/-- A normal form is its own, and names what the link names, if and only if that is kept. -/
theorem normal_iff {normal : Text} (normalised : normalise unicode url = some normal) :
    normalise unicode normal = some normal ∧ resource unicode normal = resource unicode url ↔
      Keeps unicode url := by
  obtain ⟨parts, number, reads, rfl⟩ := exists_reads_of_normalise normalised
  constructor
  · rintro ⟨-, same⟩
    rw [resource_of_reads reads] at same
    obtain ⟨other, otherNumber, again, named⟩ := exists_reads_of_resource same
    exact ⟨parts, number, reads, kept_of_resourceOf_eq reads again named.symm⟩
  · rintro ⟨other, otherNumber, again, isKept⟩
    obtain ⟨rfl, rfl⟩ := again.unique reads
    have normal := reads_normalOf reads isKept
    rw [normalise_of_reads normal, normalOf_formOf isKept.name, resource_of_reads normal,
      resourceOf_formOf isKept, resource_of_reads reads]
    exact ⟨rfl, rfl⟩

private theorem isStripped_of_linkAt {text link : Text} (found : linkAt text = some link) :
    IsStripped link := by
  have solidScheme : ∀ scheme ∈ ["https://".toList, "http://".toList], ∀ char ∈ scheme,
      isSpace char = false := by
    have checked : ["https://".toList, "http://".toList].all
        (fun scheme => scheme.all fun char => !isSpace char) = true := by
      decide
    intro scheme isScheme char member
    simpa using List.all_eq_true.mp (List.all_eq_true.mp checked scheme isScheme) char member
  have listed : (if "https://".toList <+: text then "https://".toList else "http://".toList) ∈
      ["https://".toList, "http://".toList] := by
    split_ifs <;> simp
  rw [linkAt] at found
  generalize (if "https://".toList <+: text then "https://".toList else "http://".toList) = scheme
    at found listed
  split_ifs at found with matched
  obtain rfl := Option.some.inj found
  refine isStripped_of_solid fun char member => ?_
  rcases List.mem_append.mp member with isIn | isIn
  · exact solidScheme scheme listed char isIn
  · have other := List.mem_takeWhile_imp isIn
    simp only [Bool.not_eq_true', Bool.or_eq_false_iff] at other
    exact other.1.1

private theorem isStripped_of_feedLines {text link : Text} (member : link ∈ feedLines text) :
    IsStripped link := by
  obtain ⟨line, -, found⟩ := List.mem_filterMap.mp member
  simp only at found
  split_ifs at found
  obtain ⟨rest, -, here⟩ := List.exists_of_findSome?_eq_some found
  exact isStripped_of_linkAt here

theorem feedRows_isSome_iff {digest : Text → Text} {name text : Text} :
    (∃ rows, feedRows unicode digest name text = some rows) ↔
      ∀ listed ∈ (feedLines text).take feedMaxEntries, Accepted unicode listed := by
  have whole : (∃ rows, feedRows unicode digest name text = some rows) ↔
      (feedRows unicode digest name text).isSome := Option.isSome_iff_exists.symm
  rw [whole, feedRows, mapM_isSome_iff]
  refine forall₂_congr fun listed member => ?_
  have stripped := strip_of_isStripped (isStripped_of_feedLines (List.mem_of_mem_take member))
  rw [bind_isSome_iff]
  simp only [Option.isSome_map]
  constructor
  · rintro ⟨normal, normalised, -⟩
    exact normalise_isSome_iff.mp ⟨normal, normalised⟩
  · intro accepted
    obtain ⟨normal, normalised⟩ := normalise_isSome_iff.mpr accepted
    obtain ⟨parts, number, reads⟩ := exists_reads_iff.mpr accepted
    have split := reads.split
    rw [stripped] at split
    refine ⟨normal, normalised, ?_⟩
    rw [hostOf, split]
    rfl

/-- Links are accepted where they can be read; a normal form is its own and names what its link names if and
only if that is kept; links that are kept name the same where their normal forms are the same; and a list is
read if and only if each of its links is. -/
theorem normalise_sound_iff (unicode : Unicode) :
    (∀ url, (∃ normal, normalise unicode url = some normal) ↔ Accepted unicode url) ∧
    (∀ url normal, normalise unicode url = some normal →
      (normalise unicode normal = some normal ∧ resource unicode normal = resource unicode url ↔
        Keeps unicode url)) ∧
    (∀ first second normal, Keeps unicode first → Keeps unicode second →
      normalise unicode first = some normal → normalise unicode second = some normal →
      resource unicode first = resource unicode second) ∧
    ∀ digest name text, (∃ rows, feedRows unicode digest name text = some rows) ↔
      ∀ listed ∈ (feedLines text).take feedMaxEntries, Accepted unicode listed := by
  refine ⟨fun _ => normalise_isSome_iff, fun _ _ => normal_iff, ?_, fun _ _ _ => feedRows_isSome_iff⟩
  intro first second normal firstKept secondKept firstNormal secondNormal
  exact ((normal_iff firstNormal).mpr firstKept).2.symm.trans ((normal_iff secondNormal).mpr secondKept).2

def plainUnicode : Unicode where
  nfkc := id
  idna _ := none
  isAscii_idna := nofun

/-- A port is dropped that is the default of another scheme, an address loses its brackets, and a malformed
link raises. -/
theorem ports_merged :
    normalise plainUnicode "http://h:443/".toList = some "http://h/".toList ∧
    normalise plainUnicode "http://h/".toList = some "http://h/".toList ∧
    (resource plainUnicode "http://h:443/".toList).map Resource.port = some (some 443) ∧
    (resource plainUnicode "http://h/".toList).map Resource.port = some (some 80) ∧
    normalise plainUnicode "http://[::1]/".toList = some "http://::1/".toList ∧
    normalise plainUnicode "http://::1/".toList = none ∧
    normalise plainUnicode "http://[".toList = none := by
  decide +kernel

end LinkCheck
end DomainLens
