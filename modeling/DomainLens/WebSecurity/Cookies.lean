import DomainLens.JsScan
import DomainLens.Python.Ascii

/-!
# Cookies

The cookies of a response arrive in one header, joined by commas.  They are taken apart where a comma
stands before a name, and each is read for its name and its attributes.  What is read is compared with
what was set.
-/

namespace DomainLens
namespace WebSecurity
namespace Cookies

open Python

/-! ## Taking apart -/

/-- `_COOKIE_ATTRS`. -/
def cookieAttrs : List Text :=
  ["expires", "max-age", "domain", "path", "secure", "httponly", "samesite", "priority", "partitioned", "version",
    "comment"].map String.toList

/-- `[^\s;=,]`. -/
def isNameChar (char : Char) : Bool := !(isSpace char || char ∈ [';', '=', ','])

/-- `[^\s;=,]+=` at the front. -/
def startsPair (text : Text) : Bool :=
  text.head?.any isNameChar && (text.dropWhile isNameChar).head? = some '='

/-- `re.split(r",\s*(?=[^\s;=,]+=)", ...)`: the current fragment gathered last character first, and whether the
white space behind a comma is left out. -/
def fragmentsFrom : Text → Bool → Text → List Text
  | word, _, [] => [word.reverse]
  | word, skipping, char :: rest =>
      if skipping && isSpace char then fragmentsFrom word true rest
      else if char = ',' && startsPair (rest.dropWhile isSpace) then
        word.reverse :: fragmentsFrom [] true rest
      else fragmentsFrom (char :: word) false rest

def fragments (header : Text) : List Text := fragmentsFrom [] false header

/-- `split("=", 1)[0].strip()`. -/
def nameOf (text : Text) : Text := strip (text.takeWhile (· ≠ '='))

/-- Whether a fragment goes on with the cookie before it. -/
def isContinuation (fragment : Text) : Bool := '=' ∉ fragment || lower (nameOf fragment) ∈ cookieAttrs

/-- The body of the loop of `_split_joined_cookies`, the last cookie first. -/
def gather (cookies : List Text) (fragment : Text) : List Text :=
  if strip fragment = [] then cookies
  else
    match cookies with
    | last :: cookies =>
        if isContinuation (strip fragment) then (last ++ ", ".toList ++ strip fragment) :: cookies
        else strip fragment :: last :: cookies
    | [] => [strip fragment]

/-- `_split_joined_cookies`. -/
def splitJoinedCookies (header : Text) : List Text :=
  if ',' ∉ header then [header] else ((fragments header).foldl gather []).reverse

/-! ## Reading -/

inductive SameSite where
  | strict
  | lax
  | none
deriving DecidableEq

structure Cookie where
  name : Text
  raw : Text
  secure : Bool
  httpOnly : Bool
  sameSite : Option SameSite
  sessionish : Bool

/-- `_SESSIONISH.search`. -/
def isSessionish (name : Text) : Bool :=
  ["session", "sess", "sid", "auth", "token", "jwt", "remember", "csrf", "xsrf", "login"].any fun word =>
    name.tails.any fun rest => word.length ≤ rest.length &&
      (word.toList.zip rest).all fun (letter, char) => char ∈ JsScan.caseVariants letter

/-- Whether a text between semicolons is a word. -/
def hasToken (word : String) (text : Text) : Bool :=
  (text.splitOn ';').any fun token => lower (strip token) = word.toList

/-- The first of three settings that stands anywhere in a text. -/
def sameSiteIn (text : Text) : Option SameSite :=
  let attrs := lower text
  if "samesite=strict".toList <:+: attrs then some .strict
  else if "samesite=lax".toList <:+: attrs then some .lax
  else if "samesite=none".toList <:+: attrs then some .none
  else none

/-- A cookie from its text: the flags are looked up in what is shown of it. -/
def readCookie (part : Text) : Option Cookie :=
  let part := strip part
  if part = [] ∨ '=' ∉ part then none
  else
    some
      { name := nameOf part
        raw := part.take 300
        secure := hasToken "secure" (part.take 300)
        httpOnly := hasToken "httponly" (part.take 300)
        sameSite := sameSiteIn part
        sessionish := isSessionish (nameOf part) }

/-- What the headers are handed over as: several values, the two spellings of a mapping, one text, or
anything else. -/
inductive RawHeaders where
  | many (values : List Text)
  | mapping (capital small : Option Text)
  | text (value : Text)
  | other

def RawHeaders.values : RawHeaders → List Text
  | .many values => values
  | .mapping capital small =>
      match capital, small with
      | some (char :: rest), _ => [char :: rest]
      | _, some (char :: rest) => [char :: rest]
      | _, _ => []
  | .text value => [value]
  | .other => []

/-- `parse_set_cookie_headers`. -/
def parseSetCookieHeaders (headers : RawHeaders) : List Cookie :=
  headers.values.flatMap fun header => (splitJoinedCookies header).filterMap readCookie

/-! ## Setting -/

def isTokenChar (char : Char) : Bool :=
  32 < char.toNat && char.toNat < 127 && char ∉ "()<>@,;:\\\"/[]?=\x7b\x7d".toList

/-- `cookie-octet`, or a quotation mark. -/
def isValueChar (char : Char) : Bool :=
  32 < char.toNat && char.toNat < 127 && char ∉ [',', ';', '\\']

/-- A character of an attribute, or of the spacing around it. -/
def isAttributeChar (char : Char) : Bool :=
  (char = '\t' || (32 ≤ char.toNat && char.toNat < 127)) && char ≠ ';'

/-- A cookie that is set: its name, its value, and its attributes with their spacing. -/
structure SetCookie where
  name : Text
  value : Text
  attributes : List Text
  isName : name ≠ [] ∧ ∀ char ∈ name, isTokenChar char = true
  isValue : ∀ char ∈ value, isValueChar char = true
  isAttribute : ∀ av ∈ attributes, ∀ char ∈ av, isAttributeChar char = true

namespace SetCookie

/-- The value of `Set-Cookie`. -/
def text (cookie : SetCookie) : Text :=
  cookie.name ++ '=' :: (cookie.value ++ cookie.attributes.flatMap (';' :: ·))

/-- Whether a cookie carries an attribute without a value. -/
def carries (cookie : SetCookie) (word : String) : Bool :=
  cookie.attributes.any fun av => lower (strip av) = word.toList

/-- The value of an attribute `SameSite`, in small letters. -/
def sameSiteValue (av : Text) : Option Text :=
  if lower (nameOf av) = "samesite".toList then some (lower (strip ((av.dropWhile (· ≠ '=')).drop 1)))
  else none

/-- The setting that a cookie carries: that of its last attribute `SameSite`. -/
def sameSite (cookie : SetCookie) : Option SameSite :=
  (cookie.attributes.filterMap sameSiteValue).getLast?.bind fun value =>
    if value = "strict".toList then some .strict
    else if value = "lax".toList then some .lax
    else if value = "none".toList then some .none
    else none

end SetCookie

/-- The values joined with a comma and a space. -/
def joined (cookies : List SetCookie) : Text := ", ".toList.intercalate (cookies.map SetCookie.text)

/-- The cookies of a response in one header. -/
def received (cookies : List SetCookie) : RawHeaders :=
  .mapping (some (joined cookies)) none

/-- Every cookie is read once, in order, with its name and the attributes it carries. -/
def ReadsBack (cookies : List SetCookie) : Prop :=
  (parseSetCookieHeaders (received cookies)).map
      (fun cookie => (cookie.name, cookie.secure, cookie.httpOnly, cookie.sameSite)) =
    cookies.map fun cookie => (cookie.name, cookie.carries "secure", cookie.carries "httponly", cookie.sameSite)

instance (cookies : List SetCookie) : Decidable (ReadsBack cookies) :=
  inferInstanceAs (Decidable (_ = _))

/-! ## Fragments -/

private theorem isNameChar_comma : isNameChar ',' = false := by decide

/-- Whether a pair starts behind white space is not changed by what comes behind a comma. -/
theorem startsPair_append_comma (front behind : Text) :
    startsPair ((front ++ ',' :: behind).dropWhile isSpace) = startsPair (front.dropWhile isSpace) := by
  have comma : isSpace ',' = false := by decide
  have equals (text : Text) : ((text ++ ',' :: behind).dropWhile isNameChar).head? = some '=' ↔
      (text.dropWhile isNameChar).head? = some '=' := by
    induction text with
    | nil =>
        rw [List.nil_append, List.dropWhile_cons_of_neg (by simp [isNameChar_comma])]
        simp
    | cons char text induction =>
        by_cases named : isNameChar char = true
        · rw [List.cons_append, List.dropWhile_cons_of_pos named, List.dropWhile_cons_of_pos named]
          exact induction
        · rw [List.cons_append, List.dropWhile_cons_of_neg named, List.dropWhile_cons_of_neg named]
          rfl
  induction front with
  | nil =>
      rw [List.nil_append, List.dropWhile_cons_of_neg (by simp [comma])]
      rfl
  | cons char front induction =>
      by_cases space : isSpace char = true
      · rw [List.cons_append, List.dropWhile_cons_of_pos space, List.dropWhile_cons_of_pos space]
        exact induction
      · rw [List.cons_append, List.dropWhile_cons_of_neg space, List.dropWhile_cons_of_neg space,
          ← List.cons_append, startsPair, startsPair, decide_eq_decide.mpr (equals (char :: front))]
        rfl

private theorem not_isSpace_of_startsPair {char : Char} {rest : Text}
    (starts : startsPair (char :: rest) = true) : isSpace char = false := by
  rw [startsPair, Bool.and_eq_true] at starts
  have named : isNameChar char = true := starts.1
  rw [isNameChar, Bool.not_eq_true', Bool.or_eq_false_iff] at named
  exact named.1

/-- A text is taken apart at a comma in front of a pair, whatever stands before it. -/
theorem fragmentsFrom_append_comma {behind : Text} (starts : startsPair behind = true) (front : Text) :
    ∀ word skipping, fragmentsFrom word skipping (front ++ ',' :: ' ' :: behind) =
      fragmentsFrom word skipping front ++ fragments behind := by
  induction front with
  | nil =>
      intro word skipping
      have comma : isSpace ',' = false := by decide
      have blank : isSpace ' ' = true := by decide
      cases behind with
      | nil => cases starts
      | cons char rest =>
          have solid := not_isSpace_of_startsPair starts
          have found : startsPair ((' ' :: char :: rest).dropWhile isSpace) = true := by
            rw [List.dropWhile_cons_of_pos blank, List.dropWhile_cons_of_neg (by simp [solid])]
            exact starts
          have apart : fragmentsFrom word skipping (',' :: ' ' :: char :: rest) =
              word.reverse :: fragmentsFrom [] true (' ' :: char :: rest) := by
            rw [fragmentsFrom, comma, Bool.and_false, if_neg Bool.false_ne_true, found, if_pos (by simp)]
          have skipped : fragmentsFrom [] true (' ' :: char :: rest) = fragments (char :: rest) := by
            rw [fragmentsFrom, blank, Bool.and_self, if_pos rfl, fragmentsFrom, fragments, fragmentsFrom, solid]
            rfl
          rw [List.nil_append, apart, skipped]
          rfl
  | cons char front induction =>
      intro word skipping
      rw [List.cons_append, fragmentsFrom, fragmentsFrom, startsPair_append_comma]
      split_ifs
      · exact induction _ _
      · exact congrArg _ (induction _ _)
      · exact induction _ _

theorem exists_fragmentsFrom (text : Text) : ∀ word skipping,
    ∃ more others, fragmentsFrom word skipping text = (word.reverse ++ more) :: others := by
  induction text with
  | nil => exact fun word _ => ⟨[], [], by rw [fragmentsFrom, List.append_nil]⟩
  | cons char rest induction =>
      intro word skipping
      rw [fragmentsFrom]
      split_ifs
      · exact induction word true
      · exact ⟨[], _, by rw [List.append_nil]⟩
      · obtain ⟨more, others, same⟩ := induction (char :: word) false
        exact ⟨char :: more, others, by rw [same, List.reverse_cons, List.append_assoc]; rfl⟩

theorem exists_fragmentsFrom_pair {text : Text} (starts : startsPair text = true) (skipping : Bool) :
    ∃ more others, fragmentsFrom [] skipping text = (text.takeWhile isNameChar ++ '=' :: more) :: others := by
  have through : ∀ (text word : Text) (skipping : Bool), (text.dropWhile isNameChar).head? = some '=' →
      ∃ more others, fragmentsFrom word skipping text =
        (word.reverse ++ (text.takeWhile isNameChar ++ '=' :: more)) :: others := by
    intro text
    induction text with
    | nil => exact fun _ _ none => nomatch none
    | cons char rest induction =>
        intro word skipping equals
        by_cases named : isNameChar char = true
        · have apart := named
          rw [isNameChar, Bool.not_eq_true', Bool.or_eq_false_iff] at apart
          have noComma : char ≠ ',' := by
            rintro rfl
            exact absurd named (by decide)
          rw [List.dropWhile_cons_of_pos named] at equals
          obtain ⟨more, others, same⟩ := induction (char :: word) false equals
          refine ⟨more, others, ?_⟩
          rw [fragmentsFrom, apart.1, Bool.and_false, if_neg Bool.false_ne_true, if_neg (by simp [noComma]), same,
            List.takeWhile_cons_of_pos named, List.reverse_cons, List.append_assoc]
          rfl
        · rw [List.dropWhile_cons_of_neg named] at equals
          obtain rfl := Option.some.inj equals
          have solid : isSpace '=' = false := by decide
          obtain ⟨more, others, same⟩ := exists_fragmentsFrom rest ('=' :: word) false
          refine ⟨more, others, ?_⟩
          rw [fragmentsFrom, solid, Bool.and_false, if_neg Bool.false_ne_true, if_neg (by simp), same,
            List.takeWhile_cons_of_neg named, List.reverse_cons, List.append_assoc]
          rfl
  rw [startsPair, Bool.and_eq_true, decide_eq_true_eq] at starts
  exact through text [] skipping starts.2

theorem equals_of_fragment (text : Text) : ∀ word skipping,
    ∀ fragment ∈ (fragmentsFrom word skipping text).tail, '=' ∈ fragment := by
  induction text with
  | nil => exact fun _ _ fragment member => absurd member List.not_mem_nil
  | cons char rest induction =>
      intro word skipping
      rw [fragmentsFrom]
      split_ifs with skipped comma
      · exact induction word true
      · have later := induction [] true
        have skip : ∀ rest, fragmentsFrom [] true rest = fragmentsFrom [] true (rest.dropWhile isSpace) := by
          intro rest
          induction rest with
          | nil => rfl
          | cons other rest induction =>
              by_cases space : isSpace other = true
              · rw [List.dropWhile_cons_of_pos space, ← induction, fragmentsFrom, space]
                rfl
              · rw [List.dropWhile_cons_of_neg space]
        obtain ⟨more, others, same⟩ := exists_fragmentsFrom_pair (Bool.and_eq_true_iff.mp comma).2 true
        rw [skip, same] at later ⊢
        rintro fragment (_ | ⟨_, member⟩)
        · simp
        · exact later fragment member
      · exact induction (char :: word) false

/-! ## Gathering -/

def begins (fragment : Text) : Bool := !isContinuation (strip fragment)

/-- The text of a cookie on its own. -/
structure IsPart (part : Text) : Prop where
  stripped : IsStripped part
  equals : '=' ∈ part

theorem isPart_strip {fragment : Text} (equals : '=' ∈ fragment) : IsPart (strip fragment) :=
  ⟨isStripped_strip fragment, mem_strip_of_solid equals (by decide)⟩

theorem IsPart.ne_nil {part : Text} (isPart : IsPart part) : part ≠ [] := List.ne_nil_of_mem isPart.equals

theorem IsPart.append {part : Text} (isPart : IsPart part) {fragment : Text} (equals : '=' ∈ fragment) :
    IsPart (part ++ ", ".toList ++ strip fragment) where
  stripped := by
    have filled := (isPart_strip equals).ne_nil
    refine isStripped_append (by simp) filled (fun char member => ?_) (isStripped_strip fragment).last
    rw [List.head?_append_of_ne_nil _ isPart.ne_nil] at member
    exact isPart.stripped.head char member
  equals := List.mem_append_left _ (List.mem_append_left _ isPart.equals)

theorem nameOf_append {text : Text} (equals : '=' ∈ text) (more : Text) : nameOf (text ++ more) = nameOf text := by
  rw [nameOf, List.takeWhile_append, if_neg]
  · rfl
  · intro whole
    have same := List.takeWhile_prefix (· ≠ '=') |>.eq_of_length whole
    rw [← same] at equals
    exact absurd (List.mem_takeWhile_imp equals) (by simp)

section Gather

variable {fragment : Text}

theorem gather_cons (equals : '=' ∈ fragment) (last : Text) (cookies : List Text) :
    gather (last :: cookies) fragment =
      if begins fragment then strip fragment :: last :: cookies
      else (last ++ ", ".toList ++ strip fragment) :: cookies := by
  rw [gather, if_neg (isPart_strip equals).ne_nil, begins]
  cases isContinuation (strip fragment) <;> rfl

variable {frags : List Text}

theorem names_foldl_gather (equals : ∀ fragment ∈ frags, '=' ∈ fragment) {last : Text} (isPart : IsPart last)
    {cookies : List Text} (areParts : ∀ part ∈ cookies, IsPart part) :
    (frags.foldl gather (last :: cookies)).map nameOf =
        ((frags.filter begins).map fun fragment => nameOf (strip fragment)).reverse ++
          nameOf last :: cookies.map nameOf ∧
      ∀ part ∈ frags.foldl gather (last :: cookies), IsPart part := by
  induction frags generalizing last cookies with
  | nil => exact ⟨rfl, List.forall_mem_cons.mpr ⟨isPart, areParts⟩⟩
  | cons fragment frags induction =>
      obtain ⟨here, later⟩ := List.forall_mem_cons.mp equals
      rw [List.foldl_cons, gather_cons here]
      by_cases starts : begins fragment = true
      · rw [if_pos starts, List.filter_cons_of_pos starts]
        obtain ⟨names, parts⟩ := induction later (isPart_strip here) (List.forall_mem_cons.mpr ⟨isPart, areParts⟩)
        exact ⟨by rw [names]; simp, parts⟩
      · rw [if_neg starts, List.filter_cons_of_neg starts]
        obtain ⟨names, parts⟩ := induction later (isPart.append here) areParts
        exact ⟨by rw [names, List.append_assoc, nameOf_append isPart.equals], parts⟩

theorem foldl_gather_continuations (equals : ∀ fragment ∈ frags, '=' ∈ fragment)
    (continues : ∀ fragment ∈ frags, begins fragment = false) (last : Text) (cookies : List Text) :
    frags.foldl gather (last :: cookies) =
      (last ++ frags.flatMap fun fragment => ", ".toList ++ strip fragment) :: cookies := by
  induction frags generalizing last with
  | nil => rw [List.foldl_nil, List.flatMap_nil, List.append_nil]
  | cons fragment frags induction =>
      obtain ⟨here, later⟩ := List.forall_mem_cons.mp equals
      obtain ⟨goesOn, go⟩ := List.forall_mem_cons.mp continues
      rw [List.foldl_cons, gather_cons here, goesOn, if_neg Bool.false_ne_true, induction later go,
        List.flatMap_cons, List.append_assoc, List.append_assoc, List.append_assoc]

end Gather

/-! ## Cookies that are set -/

private theorem token_codes : ∀ code < 127, isTokenChar (Char.ofNat code) = true →
    isNameChar (Char.ofNat code) = true := by
  decide +kernel

theorem isNameChar_of_token {char : Char} (token : isTokenChar char = true) : isNameChar char = true := by
  have small : char.toNat < 127 := by
    rw [isTokenChar, Bool.and_eq_true, Bool.and_eq_true, decide_eq_true_eq, decide_eq_true_eq] at token
    exact token.1.2
  have named := token_codes char.toNat small
  rw [Char.ofNat_toNat] at named
  exact named token

theorem isSpace_of_isNameChar {char : Char} (named : isNameChar char = true) : isSpace char = false := by
  rw [isNameChar, Bool.not_eq_true', Bool.or_eq_false_iff] at named
  exact named.1

namespace SetCookie

variable (cookie : SetCookie)

theorem named : ∀ char ∈ cookie.name, isNameChar char = true := fun char member =>
  isNameChar_of_token (cookie.isName.2 char member)

theorem text_append (more : Text) : ∃ rest, cookie.text ++ more = cookie.name ++ '=' :: rest :=
  ⟨_, by rw [text, List.append_assoc, List.cons_append]⟩

theorem startsPair_text (more : Text) : startsPair (cookie.text ++ more) = true := by
  obtain ⟨rest, same⟩ := cookie.text_append more
  obtain ⟨first, others, isName⟩ := List.exists_cons_of_ne_nil cookie.isName.1
  have head : isNameChar first = true := cookie.named first (isName ▸ List.mem_cons_self)
  rw [same, startsPair, List.dropWhile_append_of_pos cookie.named, List.dropWhile_cons_of_neg (by decide),
    isName]
  simpa using head

theorem exists_fragments : ∃ more others, fragments cookie.text = (cookie.name ++ '=' :: more) :: others := by
  have starts := cookie.startsPair_text []
  rw [List.append_nil] at starts
  obtain ⟨more, others, same⟩ := exists_fragmentsFrom_pair starts false
  obtain ⟨rest, text⟩ := cookie.text_append []
  rw [List.append_nil] at text
  refine ⟨more, others, ?_⟩
  rw [fragments, same, text, List.takeWhile_append_of_pos cookie.named, List.takeWhile_cons_of_neg (by decide),
    List.append_nil]

theorem nameOf_first (more : Text) : nameOf (strip (cookie.name ++ '=' :: more)) = cookie.name := by
  have solid : ∀ char ∈ cookie.name, isSpace char = false := fun char member =>
    isSpace_of_isNameChar (cookie.named char member)
  have noEquals : ∀ char ∈ cookie.name, decide (char ≠ '=') = true := by
    intro char member
    have isName := cookie.named char member
    refine decide_eq_true ?_
    rintro rfl
    exact absurd isName (by decide)
  have left : lstrip (cookie.name ++ '=' :: more) = cookie.name ++ '=' :: more := by
    obtain ⟨first, others, isName⟩ := List.exists_cons_of_ne_nil cookie.isName.1
    rw [isName, List.cons_append]
    exact List.dropWhile_cons_of_neg (by simp [solid first (isName ▸ List.mem_cons_self)])
  rw [strip, left, rstrip_append_cons (by decide), nameOf, List.takeWhile_append_of_pos noEquals,
    List.takeWhile_cons_of_neg (by simp), List.append_nil, strip_of_isStripped (isStripped_of_solid solid)]

theorem begins_first (more : Text) :
    begins (cookie.name ++ '=' :: more) = decide (lower cookie.name ∉ cookieAttrs) := by
  have equals : '=' ∈ strip (cookie.name ++ '=' :: more) := mem_strip_of_solid (by simp) (by decide)
  rw [begins, isContinuation, cookie.nameOf_first, Bool.not_or]
  simp [equals]

end SetCookie

/-! ## One header -/

/-- The text of a cookie when it is put together from its fragments again. -/
def respaced (cookie : SetCookie) : Text :=
  match fragments cookie.text with
  | [] => []
  | first :: others => strip first ++ others.flatMap fun fragment => ", ".toList ++ strip fragment

/-- No comma of a cookie stands before a name and an equals sign, but for the name of an attribute. -/
def Unsplit (cookie : SetCookie) : Prop :=
  ∀ fragment ∈ (fragments cookie.text).tail, isContinuation (strip fragment) = true

/-- The first 300 characters of a cookie show `Secure` and `HttpOnly` as the cookie carries them, and the settings
that stand anywhere in it are the one it carries. -/
structure Shown (cookie : SetCookie) : Prop where
  secure : hasToken "secure" ((respaced cookie).take 300) = cookie.carries "secure"
  httpOnly : hasToken "httponly" ((respaced cookie).take 300) = cookie.carries "httponly"
  sameSite : sameSiteIn (respaced cookie) = cookie.sameSite

/-- What is compared of a cookie that is read. -/
def readout (part : Text) : Text × Bool × Bool × Option SameSite :=
  (nameOf part, hasToken "secure" (part.take 300), hasToken "httponly" (part.take 300), sameSiteIn part)

private theorem exists_joined (cookie : SetCookie) (cookies : List SetCookie) :
    ∃ more, joined (cookie :: cookies) = cookie.text ++ more := by
  cases cookies with
  | nil => exact ⟨[], by rw [joined, List.map_singleton, List.intercalate_singleton, List.append_nil]⟩
  | cons next cookies =>
      exact ⟨_, by rw [joined, List.map_cons, List.map_cons, List.intercalate_cons_cons, List.append_assoc]⟩

theorem fragments_joined (cookie : SetCookie) (cookies : List SetCookie) :
    fragments (joined (cookie :: cookies)) =
      (cookie :: cookies).flatMap fun cookie => fragments cookie.text := by
  induction cookies generalizing cookie with
  | nil => rw [joined, List.map_singleton, List.intercalate_singleton, List.flatMap_singleton]
  | cons next cookies induction =>
      obtain ⟨more, same⟩ := exists_joined next cookies
      have starts : startsPair (joined (next :: cookies)) = true := by
        rw [same]
        exact next.startsPair_text more
      have whole : joined (cookie :: next :: cookies) =
          cookie.text ++ ',' :: ' ' :: joined (next :: cookies) := by
        rw [joined, List.map_cons, List.map_cons, List.intercalate_cons_cons, List.append_assoc]
        rfl
      rw [whole, fragments, fragmentsFrom_append_comma starts, induction, List.flatMap_cons]
      rfl

private theorem equals_of_others (cookie : SetCookie) :
    ∀ fragment ∈ (fragments cookie.text).tail, '=' ∈ fragment :=
  equals_of_fragment cookie.text [] false

/-- A cookie that is not named like an attribute, or comes first, is put together again. -/
theorem foldl_gather_cookie {cookie : SetCookie} (unsplit : Unsplit cookie) {cookies : List Text}
    (free : cookies = [] ∨ lower cookie.name ∉ cookieAttrs) :
    (fragments cookie.text).foldl gather cookies = respaced cookie :: cookies := by
  obtain ⟨more, others, same⟩ := cookie.exists_fragments
  have equals := equals_of_others cookie
  rw [Unsplit, same] at unsplit
  rw [same] at equals
  have first : gather cookies (cookie.name ++ '=' :: more) = strip (cookie.name ++ '=' :: more) :: cookies := by
    have isFirst : '=' ∈ cookie.name ++ '=' :: more := by simp
    cases cookies with
    | nil => exact if_neg (isPart_strip isFirst).ne_nil
    | cons last cookies =>
        have named := free.resolve_left (List.cons_ne_nil _ _)
        rw [gather_cons isFirst, cookie.begins_first, decide_eq_true named, if_pos rfl]
  rw [respaced, same, List.foldl_cons, first]
  exact foldl_gather_continuations equals (fun fragment member => by rw [begins, unsplit fragment member]; rfl) _ _

theorem foldl_gather_cookies {cookies : List SetCookie}
    (free : ∀ cookie ∈ cookies, lower cookie.name ∉ cookieAttrs) (unsplit : ∀ cookie ∈ cookies, Unsplit cookie)
    (front : List Text) :
    (cookies.flatMap fun cookie => fragments cookie.text).foldl gather front =
      (cookies.map respaced).reverse ++ front := by
  induction cookies generalizing front with
  | nil => rfl
  | cons cookie cookies induction =>
      rw [List.forall_mem_cons] at free unsplit
      rw [List.flatMap_cons, List.foldl_append, foldl_gather_cookie unsplit.1 (.inr free.1),
        induction free.2 unsplit.2]
      simp

private theorem fragmentsFrom_of_no_comma {text : Text} (none : ',' ∉ text) (word : Text) :
    fragmentsFrom word false text = [word.reverse ++ text] := by
  induction text generalizing word with
  | nil => rw [fragmentsFrom, List.append_nil]
  | cons char rest induction =>
      rw [List.mem_cons, not_or] at none
      rw [fragmentsFrom, Bool.false_and, if_neg Bool.false_ne_true, if_neg (by simp [Ne.symm none.1]),
        induction none.2, List.reverse_cons, List.append_assoc]
      rfl

theorem filterMap_splitJoinedCookies (header : Text) :
    (splitJoinedCookies header).filterMap readCookie =
      ((fragments header).foldl gather []).reverse.filterMap readCookie := by
  by_cases none : ',' ∈ header
  · rw [splitJoinedCookies, if_neg (not_not.mpr none)]
  · have again : strip (strip header) = strip header := strip_of_isStripped (isStripped_strip header)
    rw [splitJoinedCookies, if_pos none, fragments, fragmentsFrom_of_no_comma none, List.reverse_nil,
      List.nil_append, List.foldl_cons, List.foldl_nil, gather]
    split_ifs with empty
    · rw [List.filterMap_cons, readCookie, empty, if_pos (.inl rfl)]
      rfl
    · rw [List.reverse_singleton, List.filterMap_cons, List.filterMap_cons, readCookie, readCookie, again]

theorem readCookie_of_isPart {part : Text} (isPart : IsPart part) :
    ∃ cookie, readCookie part = some cookie ∧
      (cookie.name, cookie.secure, cookie.httpOnly, cookie.sameSite) = readout part := by
  rw [readCookie, strip_of_isStripped isPart.stripped]
  exact ⟨_, if_neg (by simp [isPart.ne_nil, isPart.equals]), rfl⟩

private theorem map_filterMap_readCookie {parts : List Text} (areParts : ∀ part ∈ parts, IsPart part) :
    (parts.filterMap readCookie).map
        (fun cookie => (cookie.name, cookie.secure, cookie.httpOnly, cookie.sameSite)) =
      parts.map readout := by
  induction parts with
  | nil => rfl
  | cons part parts induction =>
      obtain ⟨here, later⟩ := List.forall_mem_cons.mp areParts
      obtain ⟨cookie, isRead, same⟩ := readCookie_of_isPart here
      rw [List.filterMap_cons, isRead, List.map_cons, List.map_cons, same, induction later]

/-! ## Reading back -/

def setting (cookie : SetCookie) : Text × Bool × Bool × Option SameSite :=
  (cookie.name, cookie.carries "secure", cookie.carries "httponly", cookie.sameSite)

/-- The parts that the header of some cookies is taken apart to. -/
def partsOf (cookies : List SetCookie) : List Text :=
  ((cookies.flatMap fun cookie => fragments cookie.text).foldl gather []).reverse

/-- The first fragment of a header becomes a part, and others that begin a cookie. -/
theorem names_partsOf (cookie : SetCookie) (cookies : List SetCookie) :
    (partsOf (cookie :: cookies)).map nameOf = cookie.name ::
        (((fragments cookie.text).tail ++ cookies.flatMap fun cookie => fragments cookie.text).filter begins).map
          (fun fragment => nameOf (strip fragment)) ∧
      ∀ part ∈ partsOf (cookie :: cookies), IsPart part := by
  obtain ⟨more, others, same⟩ := cookie.exists_fragments
  have isFirst : '=' ∈ cookie.name ++ '=' :: more := by simp
  have first : gather [] (cookie.name ++ '=' :: more) = [strip (cookie.name ++ '=' :: more)] :=
    if_neg (isPart_strip isFirst).ne_nil
  have equals : ∀ fragment ∈ others ++ cookies.flatMap fun cookie => fragments cookie.text,
      '=' ∈ fragment := by
    intro fragment member
    rcases List.mem_append.mp member with here | later
    · exact equals_of_others cookie fragment (by rw [same]; exact here)
    · obtain ⟨next, -, inNext⟩ := List.mem_flatMap.mp later
      obtain ⟨nextMore, nextOthers, nextSame⟩ := next.exists_fragments
      rw [nextSame] at inNext
      rcases List.mem_cons.mp inNext with rfl | inOthers
      · simp
      · exact equals_of_others next fragment (by rw [nextSame]; exact inOthers)
  obtain ⟨names, areParts⟩ := names_foldl_gather equals (isPart_strip isFirst)
    (fun part member => absurd member List.not_mem_nil)
  rw [partsOf, List.flatMap_cons, same, List.cons_append, List.foldl_cons, first, List.map_reverse, names]
  refine ⟨?_, fun part member => areParts part (List.mem_reverse.mp member)⟩
  rw [cookie.nameOf_first]
  simp

theorem readsBack_iff_parts (cookies : List SetCookie) :
    ReadsBack cookies ↔ (partsOf cookies).map readout = cookies.map setting := by
  cases cookies with
  | nil => exact iff_of_true rfl rfl
  | cons cookie cookies =>
      obtain ⟨-, areParts⟩ := names_partsOf cookie cookies
      obtain ⟨more, same⟩ := exists_joined cookie cookies
      obtain ⟨first, others, isName⟩ := List.exists_cons_of_ne_nil cookie.isName.1
      obtain ⟨rest, text⟩ := cookie.text_append more
      have values : (received (cookie :: cookies)).values = [joined (cookie :: cookies)] := by
        rw [received, same, text, isName]
        rfl
      rw [ReadsBack, parseSetCookieHeaders, values, List.flatMap_singleton, filterMap_splitJoinedCookies,
        fragments_joined]
      change _ = _ ↔ _
      rw [← map_filterMap_readCookie areParts]
      rfl

private theorem unsplit_of_filter {cookie : SetCookie}
    (none : (fragments cookie.text).tail.filter begins = []) : Unsplit cookie := by
  intro fragment member
  have goesOn := List.filter_eq_nil_iff.mp none fragment member
  rw [begins, Bool.not_eq_true', Bool.not_eq_false] at goesOn
  exact goesOn

private theorem length_filter_begins {cookies : List SetCookie}
    (free : ∀ cookie ∈ cookies, lower cookie.name ∉ cookieAttrs) :
    cookies.length ≤ ((cookies.flatMap fun cookie => fragments cookie.text).filter begins).length ∧
      (((cookies.flatMap fun cookie => fragments cookie.text).filter begins).length ≤ cookies.length →
        ∀ cookie ∈ cookies, Unsplit cookie) := by
  induction cookies with
  | nil => exact ⟨le_rfl, fun _ cookie member => absurd member List.not_mem_nil⟩
  | cons cookie cookies induction =>
      rw [List.forall_mem_cons] at free
      obtain ⟨more, others, same⟩ := cookie.exists_fragments
      obtain ⟨enough, unsplit⟩ := induction free.2
      rw [List.flatMap_cons, same, List.cons_append, List.filter_cons_of_pos
        (by rw [cookie.begins_first, decide_eq_true free.1]), List.filter_append, List.length_cons,
        List.length_cons, List.length_append]
      refine ⟨by omega, fun small => List.forall_mem_cons.mpr ⟨?_, unsplit (by omega)⟩⟩
      refine unsplit_of_filter (List.length_eq_zero_iff.mp ?_)
      rw [same, List.tail_cons]
      omega

theorem nameOf_respaced (cookie : SetCookie) : nameOf (respaced cookie) = cookie.name := by
  obtain ⟨more, others, same⟩ := cookie.exists_fragments
  rw [respaced, same, nameOf_append (mem_strip_of_solid (by simp) (by decide)), cookie.nameOf_first]

theorem readout_respaced_iff (cookie : SetCookie) :
    readout (respaced cookie) = setting cookie ↔ Shown cookie := by
  rw [readout, setting, nameOf_respaced]
  simp only [Prod.mk.injEq, true_and]
  exact ⟨fun ⟨secure, httpOnly, sameSite⟩ => ⟨secure, httpOnly, sameSite⟩,
    fun shown => ⟨shown.secure, shown.httpOnly, shown.sameSite⟩⟩

/-- Cookies are read back as they were set if and only if none but the first is named like an attribute, none is
split at a comma of its own, and each shows its attributes. -/
theorem readsBack_iff (cookies : List SetCookie) :
    ReadsBack cookies ↔ (∀ cookie ∈ cookies.tail, lower cookie.name ∉ cookieAttrs) ∧
      ∀ cookie ∈ cookies, Unsplit cookie ∧ Shown cookie := by
  cases cookies with
  | nil => exact iff_of_true rfl ⟨fun cookie member => absurd member List.not_mem_nil,
      fun cookie member => absurd member List.not_mem_nil⟩
  | cons cookie cookies =>
      rw [readsBack_iff_parts, List.tail_cons]
      have whole : (∀ other ∈ cookies, lower other.name ∉ cookieAttrs) →
          (∀ other ∈ cookie :: cookies, Unsplit other) →
          ((partsOf (cookie :: cookies)).map readout = (cookie :: cookies).map setting ↔
            ∀ other ∈ cookie :: cookies, Shown other) := by
        intro free unsplit
        have parts : partsOf (cookie :: cookies) = (cookie :: cookies).map respaced := by
          rw [List.forall_mem_cons] at unsplit
          rw [partsOf, List.flatMap_cons, List.foldl_append, foldl_gather_cookie unsplit.1 (.inl rfl),
            foldl_gather_cookies free unsplit.2]
          simp
        rw [parts, List.map_map, List.map_inj_left]
        exact forall₂_congr fun other _ => readout_respaced_iff other
      constructor
      · intro reads
        -- The names alone show where the header was taken apart.
        have names := congrArg (List.map Prod.fst) reads
        rw [List.map_map, List.map_map, List.map_cons] at names
        have begun := List.cons.inj ((names_partsOf cookie cookies).1.symm.trans names)
        have free : ∀ other ∈ cookies, lower other.name ∉ cookieAttrs := by
          intro other member
          have isName : other.name ∈ cookies.map (Prod.fst ∘ setting) := List.mem_map_of_mem member
          rw [← begun.2] at isName
          obtain ⟨fragment, isBegin, same⟩ := List.mem_map.mp isName
          have begins := (List.mem_filter.mp isBegin).2
          rw [Cookies.begins, isContinuation, Bool.not_or, Bool.and_eq_true, same] at begins
          simpa using begins.2
        have counted := congrArg List.length begun.2
        obtain ⟨enough, unsplit⟩ := length_filter_begins free
        rw [List.length_map, List.length_map, List.filter_append, List.length_append] at counted
        have each : ∀ other ∈ cookie :: cookies, Unsplit other :=
          List.forall_mem_cons.mpr
            ⟨unsplit_of_filter (List.length_eq_zero_iff.mp (by omega)), unsplit (by omega)⟩
        have shown := (whole free each).mp reads
        exact ⟨free, fun other member => ⟨each other member, shown other member⟩⟩
      · rintro ⟨free, each⟩
        exact (whole free fun other member => (each other member).1).mpr fun other member =>
          (each other member).2

private def sampleCookie (name value av : String)
    (isName : name.toList ≠ [] ∧ name.toList.all isTokenChar = true) (isValue : value.toList.all isValueChar = true)
    (isAttribute : av.toList.all isAttributeChar = true) (padding : Nat) : SetCookie where
  name := name.toList
  value := value.toList ++ List.replicate padding 'a'
  attributes := [av.toList]
  isName := ⟨isName.1, List.all_eq_true.mp isName.2⟩
  isValue char member := by
    rcases List.mem_append.mp member with front | back
    · exact List.all_eq_true.mp isValue char front
    · rw [List.eq_of_mem_replicate back]
      decide
  isAttribute := List.forall_mem_singleton.mpr (List.all_eq_true.mp isAttribute)

/-- The attribute of a long cookie is cut off, a path with a comma is a cookie of its own, and a cookie named like
an attribute is none. -/
theorem long_cookie_insecure :
    ¬ ReadsBack [sampleCookie "session" "" " Secure" (by decide) (by decide) (by decide) 300] ∧
    ¬ ReadsBack [sampleCookie "a" "1" " Path=/x,b=2" (by decide) (by decide) (by decide) 0] ∧
    ¬ ReadsBack [sampleCookie "a" "1" "Secure" (by decide) (by decide) (by decide) 0,
      sampleCookie "version" "2" "Secure" (by decide) (by decide) (by decide) 0] := by
  decide +kernel

end Cookies
end WebSecurity
end DomainLens
