import DomainLens.JsScan
import DomainLens.Library.OrderedDict
import DomainLens.LinkCheck.NormalForm

/-!
# Malformed links

Links are asked of the threat lists, read from a pasted text, and taken from a message.  A link that
`urlsplit` does not take ends each of the three.
-/

namespace DomainLens
namespace LinkCheck

open Python Python.UrlParse

/-! ## The threat lists -/

inductive Listing where
  | listed
  | hostListed
  | notListed
deriving DecidableEq

/-- The lists in the database: whether one has been loaded, and the rows of `link_feed_urls`. -/
structure FeedLists where
  loaded : Bool
  rows : List (Text × Text × Text)

variable (unicode : Unicode) (digest : Text → Text) (lists : FeedLists)

/-- The listing of one link, unless it ends with a `ValueError`. -/
def listing (url : Text) : Option Listing :=
  (normalise unicode url).bind fun normal =>
    if lists.rows.any (·.1 = digest normal) then some .listed
    else (hostOf unicode url).map fun host =>
      if lists.rows.any (·.2.1 = host) then .hostListed else .notListed

/-- `check_feeds`, unless it ends with a `ValueError`; `some none` where no list has been loaded. -/
def checkFeeds (urls : List Text) : Option (Option (List (Text × Listing))) :=
  if lists.loaded then
    (urls.mapM fun url => (listing unicode digest lists url).map fun listing => (url, listing)).map fun out =>
      some (out.foldl (fun dict entry => OrderedDict.assign entry.1 entry.2 dict) [])
  else some none

/-! ## Links in pasted text -/

/-- What is behind some small letters and marks at the front, without regard to case. -/
def behindLetters : List Char → Text → Option Text
  | [], text => some text
  | letter :: letters, char :: text =>
      if char ∈ JsScan.caseVariants letter then behindLetters letters text else none
  | _ :: _, [] => none

/-- `re.sub(r"\bhxxp(s?)", r"http\1", ...)`; the flag says that a word character is in front. -/
def refangSchemes : Bool → Text → Text
  | _, [] => []
  | word, first :: second :: third :: fourth :: rest =>
      if !word && (behindLetters "hxxp".toList [first, second, third, fourth]).isSome then
        "http".toList ++ refangSchemes true rest
      else first :: refangSchemes (isWordChar first) (second :: third :: fourth :: rest)
  | _, char :: rest => char :: refangSchemes (isWordChar char) rest

/-- `str.replace`; the number is how much of a match is still to skip. -/
def replaceFrom (old new : Text) : Nat → Text → Text
  | _, [] => []
  | skip + 1, _ :: rest => replaceFrom old new skip rest
  | 0, char :: rest =>
      if old <+: char :: rest then new ++ replaceFrom old new (old.length - 1) rest
      else char :: replaceFrom old new 0 rest

def replaced (old new : String) (text : Text) : Text := replaceFrom old.toList new.toList 0 text

/-- `_refang`. -/
def refang (text : Text) : Text :=
  replaced "[://]" "://" (replaced "[:]" ":" (replaced "(.)" "." (replaced "[.]" "."
    (refangSchemes false text))))

/-- `[^\s<>\"']`. -/
def isLinkChar (char : Char) : Bool := !(isSpace char || char ∈ ['<', '>', '"', '\''])

def maybe (mark : Char) (text : Text) : Text := if text.head? = some mark then text.drop 1 else text

/-- `h[tx]{2}ps?|ftp` at the front. -/
def behindScheme (text : Text) : Option Text :=
  match ["http", "htxp", "hxtp", "hxxp"].findSome? fun scheme => behindLetters scheme.toList text with
  | some rest => some ((behindLetters ['s'] rest).getD rest)
  | none => behindLetters "ftp".toList text

/-- `\[?:\]?//` at the front. -/
def behindMark (text : Text) : Option Text :=
  match maybe '[' text with
  | ':' :: rest => behindLetters ['/', '/'] (maybe ']' rest)
  | _ => none

/-- `(?:javascript|data|vbscript):` at the front. -/
def behindScript (text : Text) : Option Text :=
  ["javascript:", "data:", "vbscript:"].findSome? fun scheme => behindLetters scheme.toList text

/-- Whether `_URL_IN_TEXT` matches here; the flag says that a word character is in front. -/
def isLinkAt (word : Bool) (text : Text) : Bool :=
  [(behindScheme text).bind behindMark, behindLetters "www.".toList text,
    if word then none else behindScript text].any fun rest =>
      rest.any fun rest => rest.head?.any isLinkChar

/-- `_URL_IN_TEXT.finditer`: a match goes on as long as it can.  The flags say that the last match goes on, and
that a word character is in front. -/
def findLinks : Bool → Bool → Text → List Text
  | _, _, [] => []
  | inside, word, char :: rest =>
      if inside && isLinkChar char then findLinks true (isWordChar char) rest
      else if isLinkAt word (char :: rest) then
        (char :: rest).takeWhile isLinkChar :: findLinks true (isWordChar char) rest
      else findLinks false (isWordChar char) rest

/-- `[A-Za-z¡-￿]`. -/
def isTopChar (char : Char) : Bool := char.isAlpha || (0xA1 ≤ char.toNat && char.toNat ≤ 0xFFFF)

/-- `[A-Za-z¡-￿]{2,}(?::\d+)?(?:[/?#].*)?$`, on a text without newlines. -/
def isHostEnd (text : Text) : Bool :=
  let ends (rest : Text) : Bool := rest = [] || rest.head?.any isDelimiter
  2 ≤ (text.takeWhile isTopChar).length &&
    match text.dropWhile isTopChar with
    | ':' :: rest => rest.head?.any isDecimal && ends (rest.dropWhile isDecimal)
    | rest => ends rest

/-- `^[\w.-]+\.` and what follows; the flag says that there is a character in front. -/
def isHostFrom : Bool → Text → Bool
  | _, [] => false
  | begun, char :: rest =>
      (begun && char = '.' && isHostEnd rest) ||
        ((isWordChar char || char = '.' || char = '-') && isHostFrom true rest)

/-- A line that is a host, with a path or without. -/
def isHostLine (token : Text) : Bool :=
  token ≠ [] && ' ' ∉ token && !decide ("://".toList <:+: token) && '.' ∈ token &&
    !decide ("www.".toList <+: token) && isHostFrom false token

/-- `.rstrip(".,;)]}>'\"")`. -/
def withoutMarks (link : Text) : Text := link.rdropWhile (· ∈ ".,;)]\x7d>'\"".toList)

/-- The links of a text as they stand there. -/
def foundLinks (text : Text) : List Text :=
  (findLinks false false text).map withoutMarks ++ ((splitLines text).map strip).filter isHostLine

def withHttps (url : Text) : Text :=
  if ¬"://".toList <:+: url ∧ behindScript url = none then "https://".toList ++ url else url

/-- `MAX_LINKS`. -/
def maxLinks : Nat := 10

/-- `extract`. -/
def extract (text : Text) : List Text × Nat :=
  let found := foundLinks (refang text)
  ((fromKeys (found.map withHttps)).take maxLinks, (fromKeys found).length - maxLinks)

/-! ## What a link is -/

/-- What a link says: its scheme, its host as DNS knows it, and its port. -/
structure Inspection where
  url : Text
  scheme : Text
  host : Option Text
  port : Option Nat
deriving DecidableEq

/-- The host with each of its labels in ASCII. -/
def hostInDns (host : Text) : Option Text :=
  ((host.splitOn '.').mapM fun label => if isAscii label then some label else unicode.idna label).map
    (['.'].intercalate ·)

/-- `inspect`, unless it ends with a `ValueError`: only what the port raises is caught. -/
def inspect (url : Text) : Option Inspection :=
  (urlsplit unicode.nfkc (strip url)).map fun parts =>
    let scheme := lower parts.scheme
    if scheme ∈ ["javascript", "data", "vbscript", "file"].map String.toList then
      { url, scheme, host := none, port := none }
    else
      match port parts.netloc with
      | none => { url, scheme, host := none, port := none }
      | some port =>
          let host := lower ((hostname parts.netloc).rdropWhile (· = '.'))
          { url, scheme, host := if host = [] then none else hostInDns unicode host, port }

def Inspection.hasHost (inspection : Inspection) : Bool := inspection.host.any (· ≠ [])

/-- A link that is asked of the threat lists. -/
def Inspection.isWeb (inspection : Inspection) : Bool :=
  inspection.scheme ∈ ["http", "https"].map String.toList && inspection.hasHost

/-- What the threat lists say of the links on the web, if there are any. -/
def askFeeds (items : List Inspection) : Option (Option (List (Text × Listing))) :=
  let web := (items.filter Inspection.isWeb).map Inspection.url
  if web = [] then some (some []) else checkFeeds unicode digest lists web

/-- The links of a text with what the lookups say of those that lead to a host. -/
structure Report (Checks : Type) where
  links : List (Inspection × Option Checks)
  skipped : Nat
  feeds : Bool

variable {Checks : Type} (known : Option (List (Text × Listing)) → Inspection → Checks)

/-- `check`, unless it ends with a `ValueError`; `known` is what the lookups say of a link. -/
def check (text : Text) : Option (Report Checks) := do
  let (urls, skipped) := extract text
  let items ← urls.mapM (inspect unicode)
  let feeds ← askFeeds unicode digest lists items
  pure { links := items.map fun item => (item, if item.hasHost then some (known feeds item) else none)
         skipped
         feeds := feeds.isSome }

/-! ## Links of a message -/

/-- What `HTMLParser` hands over. -/
inductive Markup where
  | starts (tag : Text) (attrs : List (Text × Option Text))
  | ends (tag : Text)
  | data (text : Text)

/-- `_Links`. -/
structure Links where
  links : List (Text × Text)
  images : Nat
  text : List Text
  href : Option Text
  label : List Text
  skip : Nat

def Links.empty : Links := ⟨[], 0, [], none, [], 0⟩

/-- The value of an attribute: that of its last mention. -/
def attrOf (name : String) (attrs : List (Text × Option Text)) : Option Text :=
  (attrs.reverse.lookup name.toList).join

/-- The elements whose text is not seen. -/
def unseen : List Text := ["style", "script", "head"].map String.toList

/-- `handle_starttag`, `handle_endtag` and `handle_data`. -/
def Links.handle (links : Links) : Markup → Links
  | .starts tag attrs =>
      let links := if tag ∈ unseen then { links with skip := links.skip + 1 } else links
      let links :=
        match attrOf "href" attrs with
        | some (char :: rest) =>
            if tag = "a".toList then { links with href := some (strip (char :: rest)), label := [] } else links
        | _ => links
      if tag = "img".toList then { links with images := links.images + 1 } else links
  | .ends tag =>
      let links := if tag ∈ unseen then { links with skip := links.skip - 1 } else links
      match links.href with
      | some href =>
          if tag = "a".toList then
            { links with links := links.links ++ [(href, joinWords (split links.label.flatten))], href := none }
          else links
      | none => links
  | .data text =>
      if links.skip ≠ 0 then links
      else
        let links := { links with text := links.text ++ [text] }
        if links.href.isSome then { links with label := links.label ++ [text] } else links

/-- The links of a message with their labels. -/
def linksOf (markup : List Markup) : List (Text × Text) := (markup.foldl Links.handle .empty).links

/-- A link of a message as it is shown. -/
structure ContentLink where
  host : Text
  text : Text
  https : Bool
  url : Text

/-- What is shown of a link: nothing if it does not lead to the web. -/
def contentLink (link : Text × Text) (parts : SplitResult) : Option ContentLink :=
  let scheme := lower parts.scheme
  if scheme ∉ ["http", "https"].map String.toList then none
  else
    some
      { host := lower (hostname parts.netloc)
        text := link.2.take 120
        https := scheme = "https".toList
        url := link.1.take 2000 }

/-- The links of `_content`, unless it ends with a `ValueError`. -/
def content (markup : List Markup) : Option (List ContentLink) :=
  ((linksOf markup).mapM fun link => (urlsplit unicode.nfkc link.1).map (contentLink link)).map
    List.reduceOption

/-! ## Links that are taken -/

/-- A link that `urlsplit` takes: its brackets are closed and have an address in them, and no character of its
network location stands for a delimiter. -/
structure Splits (url : Text) : Prop where
  brackets : checkBrackets (splitParts (cleaned url)).netloc = true
  netloc : checkNetloc unicode.nfkc (splitParts (cleaned url)).netloc = true

variable {unicode}

theorem urlsplit_isSome_iff {url : Text} : (urlsplit unicode.nfkc url).isSome ↔ Splits unicode url := by
  rw [urlsplit]
  split_ifs with checked
  · rw [Bool.and_eq_true] at checked
    exact iff_of_true rfl ⟨checked.1, checked.2⟩
  · refine iff_of_false (by simp) fun splits => checked ?_
    rw [splits.brackets, splits.netloc]
    rfl

theorem inspect_isSome_iff {url : Text} (stripped : IsStripped url) :
    (inspect unicode url).isSome ↔ Splits unicode url := by
  rw [inspect, Option.isSome_map, urlsplit_isSome_iff, strip_of_isStripped stripped]

theorem url_of_inspect {url : Text} {inspection : Inspection} (inspected : inspect unicode url = some inspection) :
    inspection.url = url := by
  obtain ⟨parts, -, rfl⟩ := Option.map_eq_some_iff.mp inspected
  dsimp only
  by_cases runs : lower parts.scheme ∈ ["javascript", "data", "vbscript", "file"].map String.toList
  · rw [if_pos runs]
  · rw [if_neg runs]
    cases port parts.netloc <;> rfl

theorem accepted_of_hasHost {url : Text} {inspection : Inspection}
    (inspected : inspect unicode url = some inspection) (hasHost : inspection.hasHost = true) :
    Accepted unicode url := by
  obtain ⟨parts, split, rfl⟩ := Option.map_eq_some_iff.mp inspected
  refine exists_reads_iff.mp ?_
  dsimp only at hasHost
  by_cases runs : lower parts.scheme ∈ ["javascript", "data", "vbscript", "file"].map String.toList
  · rw [if_pos runs] at hasHost
    cases hasHost
  · rw [if_neg runs] at hasHost
    cases isPort : port parts.netloc with
    | none =>
        rw [isPort] at hasHost
        cases hasHost
    | some number => exact ⟨parts, number, split, isPort⟩

theorem listing_isSome_iff {url : Text} :
    (listing unicode digest lists url).isSome ↔ Accepted unicode url ∧
      (Splits unicode url ∨ ∃ normal ∈ normalise unicode url, lists.rows.any (·.1 = digest normal) = true) := by
  rw [listing, ← normalise_isSome_iff]
  cases normalise unicode url with
  | none => simp
  | some normal =>
      rw [Option.bind_some]
      split_ifs with known
      · exact iff_of_true rfl ⟨⟨normal, rfl⟩, .inr ⟨normal, rfl, known⟩⟩
      · rw [Option.isSome_map, hostOf, Option.isSome_map, urlsplit_isSome_iff]
        refine ⟨fun splits => ⟨⟨normal, rfl⟩, .inl splits⟩, fun read => read.2.resolve_right ?_⟩
        rintro ⟨other, same, isKnown⟩
        obtain rfl := Option.some.inj same
        exact known isKnown

theorem checkFeeds_isSome_iff {urls : List Text} :
    (checkFeeds unicode digest lists urls).isSome ↔ (lists.loaded = true → ∀ url ∈ urls,
      Accepted unicode url ∧ (Splits unicode url ∨
        ∃ normal ∈ normalise unicode url, lists.rows.any (·.1 = digest normal) = true)) := by
  rw [checkFeeds]
  split_ifs with loaded
  · rw [Option.isSome_map, mapM_isSome_iff]
    simp only [Option.isSome_map, listing_isSome_iff, loaded, true_implies]
  · exact iff_of_true rfl fun isLoaded => absurd isLoaded loaded

theorem content_isSome_iff {markup : List Markup} :
    (content unicode markup).isSome ↔ ∀ link ∈ linksOf markup, Splits unicode link.1 := by
  rw [content, Option.isSome_map, mapM_isSome_iff]
  simp only [Option.isSome_map, urlsplit_isSome_iff]

/-! ## Extracted links -/

private theorem solid_of_findLinks {text link : Text} : ∀ {inside word : Bool},
    link ∈ findLinks inside word text → ∀ char ∈ link, isSpace char = false := by
  induction text with
  | nil => exact fun member => absurd member List.not_mem_nil
  | cons char rest induction =>
      intro inside word member
      rw [findLinks] at member
      split_ifs at member
      · exact induction member
      · rcases List.mem_cons.mp member with rfl | member
        · intro inner isInner
          have isLink := (List.mem_takeWhile_imp isInner : isLinkChar inner = true)
          rw [isLinkChar, Bool.not_eq_true', Bool.or_eq_false_iff] at isLink
          exact isLink.1
        · exact induction member
      · exact induction member

private theorem isStripped_of_foundLinks {text url : Text} (member : url ∈ foundLinks text) :
    IsStripped url := by
  rcases List.mem_append.mp member with link | line
  · obtain ⟨whole, found, rfl⟩ := List.mem_map.mp link
    exact isStripped_of_solid fun char inside =>
      solid_of_findLinks found char ((List.rdropWhile_prefix _ _).subset inside)
  · obtain ⟨whole, -, rfl⟩ := List.mem_map.mp (List.mem_of_mem_filter line)
    exact isStripped_strip whole

private theorem isStripped_withHttps {url : Text} (stripped : IsStripped url) :
    IsStripped (withHttps url) := by
  rw [withHttps]
  split_ifs
  · refine ⟨fun char member => ?_, fun char member => ?_⟩
    · obtain rfl := Option.some.inj member
      decide
    · rw [List.getLast?_append] at member
      cases isLast : url.getLast? with
      | none =>
          rw [isLast] at member
          obtain rfl := Option.some.inj member
          decide
      | some last =>
          rw [isLast] at member
          obtain rfl := Option.some.inj member
          exact stripped.last last isLast
  · exact stripped

theorem isStripped_of_extract {text url : Text} (member : url ∈ (extract text).1) : IsStripped url := by
  obtain ⟨found, isFound, rfl⟩ := List.mem_map.mp (mem_fromKeys.mp (List.mem_of_mem_take member))
  exact isStripped_withHttps (isStripped_of_foundLinks isFound)

private theorem urls_of_mapM {urls : List Text} {items : List Inspection}
    (inspected : urls.mapM (inspect unicode) = some items) :
    items.map Inspection.url = urls ∧ ∀ item ∈ items, inspect unicode item.url = some item := by
  induction urls generalizing items with
  | nil =>
      obtain rfl := Option.some.inj inspected
      exact ⟨rfl, fun item member => absurd member List.not_mem_nil⟩
  | cons url urls induction =>
      rw [List.mapM_cons] at inspected
      obtain ⟨item, isItem, rest⟩ := Option.bind_eq_some_iff.mp inspected
      obtain ⟨others, areOthers, same⟩ := Option.bind_eq_some_iff.mp rest
      obtain rfl := Option.some.inj same
      obtain ⟨sameUrls, each⟩ := induction areOthers
      have sameUrl := url_of_inspect isItem
      refine ⟨by rw [List.map_cons, sameUrls, sameUrl], List.forall_mem_cons.mpr ⟨?_, each⟩⟩
      rw [sameUrl, isItem]

section Checks

variable {Checks : Type} {known : Option (List (Text × Listing)) → Inspection → Checks}

/-- `check` has an entry for every extracted link if and only if `urlsplit` takes each. -/
theorem check_returns_iff {text : Text} :
    (∃ report, check unicode digest lists known text = some report ∧
      report.links.map (·.1.url) = (extract text).1) ↔ ∀ url ∈ (extract text).1, Splits unicode url := by
  have each : (∀ url ∈ (extract text).1, Splits unicode url) ↔
      ((extract text).1.mapM (inspect unicode)).isSome := by
    rw [mapM_isSome_iff]
    exact forall₂_congr fun url member => (inspect_isSome_iff (isStripped_of_extract member)).symm
  rw [each]
  constructor
  · rintro ⟨report, checked, -⟩
    obtain ⟨items, inspected, -⟩ := Option.bind_eq_some_iff.mp checked
    exact Option.isSome_of_eq_some inspected
  · intro isSome
    obtain ⟨items, inspected⟩ := Option.isSome_iff_exists.mp isSome
    obtain ⟨urls, read⟩ := urls_of_mapM inspected
    obtain ⟨feeds, isFeeds⟩ : ∃ feeds, askFeeds unicode digest lists items = some feeds := by
      rw [askFeeds]
      split_ifs
      · exact ⟨_, rfl⟩
      · refine Option.isSome_iff_exists.mp ((checkFeeds_isSome_iff digest lists).mpr fun _ url member => ?_)
        obtain ⟨item, isWeb, rfl⟩ := List.mem_map.mp member
        obtain ⟨isItem, web⟩ := List.mem_filter.mp isWeb
        have isRead := read item isItem
        have stripped := isStripped_of_extract (urls ▸ List.mem_map_of_mem isItem)
        -- A link on the web has a host, so its port was read.
        exact ⟨accepted_of_hasHost isRead (Bool.and_eq_true_iff.mp web).2,
          .inl ((inspect_isSome_iff stripped).mp (Option.isSome_of_eq_some isRead))⟩
    refine ⟨_, Option.bind_eq_some_iff.mpr ⟨items, inspected,
      Option.bind_eq_some_iff.mpr ⟨feeds, isFeeds, rfl⟩⟩, ?_⟩
    rw [List.map_map]
    exact urls

/-- A pasted text is judged link by link, the links of a message are shown, and links are looked up, if and only if
`urlsplit` takes each of the links, and the port of each that is looked up is read. -/
theorem analyses_return_iff :
    (∀ text, (∃ report, check unicode digest lists known text = some report ∧
      report.links.map (·.1.url) = (extract text).1) ↔ ∀ url ∈ (extract text).1, Splits unicode url) ∧
    (∀ markup, (content unicode markup).isSome ↔ ∀ link ∈ linksOf markup, Splits unicode link.1) ∧
    ∀ urls, (checkFeeds unicode digest lists urls).isSome ↔ (lists.loaded = true → ∀ url ∈ urls,
      Accepted unicode url ∧ (Splits unicode url ∨
        ∃ normal ∈ normalise unicode url, lists.rows.any (·.1 = digest normal) = true)) :=
  ⟨fun _ => check_returns_iff digest lists, fun _ => content_isSome_iff,
    fun _ => checkFeeds_isSome_iff digest lists⟩

end Checks

/-- An open bracket ends each of the three. -/
theorem open_bracket_raises :
    (extract "http://[bad".toList).1 = ["http://[bad".toList] ∧
    check plainUnicode id ⟨true, []⟩ (fun _ _ => ()) "http://[bad".toList = none ∧
    linksOf [.starts "a".toList [("href".toList, some "http://[bad".toList)], .ends "a".toList] =
      [("http://[bad".toList, [])] ∧
    content plainUnicode [.starts "a".toList [("href".toList, some "http://[bad".toList)],
      .ends "a".toList] = none ∧
    checkFeeds plainUnicode id ⟨true, []⟩ ["http://[bad".toList] = none := by
  decide +kernel

end LinkCheck
end DomainLens
