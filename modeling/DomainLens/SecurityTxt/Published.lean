import DomainLens.SecurityTxt.Build

/-!
# The file that is published

The file that is written from the settings is read back and checked.  It says what is configured as long
as the URL of the installation keeps to one line.
-/

namespace DomainLens
namespace SecurityTxt

open Python Decimal UrlParse

/-! ## What is said -/

/-- The values of a field that is left out where there is none. -/
def valueOf (value : Text) : List Text := if value = [] then [] else [value]

def fieldNames : List Text :=
  ["contact", "expires", "encryption", "policy", "acknowledgments", "preferred-languages", "canonical"].map
    String.toList

/-- Fields say what is configured, and nothing else. -/
structure SaysConfigured (nfkc : Text → Text) (request : Request) (fields : Fields) : Prop where
  contact : fields.values "contact".toList = contacts request.config.contact
  expires : (fields.values "expires".toList).length = 1
  encryption : ∀ url ∈ encryptionUrl nfkc request, fields.values "encryption".toList = valueOf url
  policy : fields.values "policy".toList = valueOf (clean request.config.policyUrl)
  acknowledgments :
    fields.values "acknowledgments".toList = valueOf (clean request.config.acknowledgmentsUrl)
  languages :
    fields.values "preferred-languages".toList = valueOf (clean request.config.preferredLanguages)
  canonical : ∀ url ∈ canonicalUrl nfkc request, fields.values "canonical".toList = valueOf url
  others : ∀ name ∉ fieldNames, fields.values name = []

/-- The file has no errors at the time it is built, and says what is configured. -/
structure IsValid (reader : IsoReader) (nfkc : Text → Text) (request : Request) (file : Text) : Prop where
  errors : (validate reader file request.now).errors = []
  fields : SaysConfigured nfkc request (parseSecurityTxt file)

/-- The URL of the installation stands in the file. -/
def UsesBase (request : Request) : Prop :=
  request.baseUrl ≠ [] ∧ (request.hasKey = true ∨ clean request.config.canonicalUrl = [])

/-- What stands in the file of a URL is one line. -/
def OneLine (nfkc : Text → Text) (base : Text) : Prop :=
  ∀ scheme netloc, rootOf nfkc base = some (some (scheme, netloc)) →
    ∀ char ∈ netloc, isLineBreak char = false

/-! ## Texts of one line -/

/-- A text that can stand behind the name of a field. -/
structure IsValue (value : Text) : Prop where
  filled : value ≠ []
  stripped : IsStripped value
  unbroken : ∀ char ∈ value, isLineBreak char = false

private theorem lineBreak_codes :
    ∀ code ∈ [10, 11, 12, 13, 28, 29, 30, 133, 8232, 8233],
      (Unicode.spaceRanges.any fun range => range.1 ≤ code && code ≤ range.2) = true := by
  decide

theorem isSpace_of_isLineBreak {char : Char} (breaks : isLineBreak char = true) :
    isSpace char = true := by
  rw [isLineBreak, decide_eq_true_eq] at breaks
  exact lineBreak_codes _ breaks

theorem isLineBreak_of_solid {char : Char} (solid : isSpace char = false) : isLineBreak char = false := by
  by_contra breaks
  rw [isSpace_of_isLineBreak (Bool.eq_true_of_not_eq_false breaks)] at solid
  cases solid

theorem isValue_of_solid {value : Text} (filled : value ≠ [])
    (solid : ∀ char ∈ value, isSpace char = false) : IsValue value where
  filled
  stripped := isStripped_of_solid solid
  unbroken char member := isLineBreak_of_solid (solid char member)

theorem joinWords_ne_nil {words : List Text} (areWords : ∀ word ∈ words, IsWord word)
    (some : words ≠ []) : joinWords words ≠ [] := by
  cases words with
  | nil => exact absurd rfl some
  | cons word words =>
      have filled := (areWords word List.mem_cons_self).ne_nil
      cases words <;> simp [joinWords, filled]

theorem isStripped_joinWords {words : List Text} (areWords : ∀ word ∈ words, IsWord word) :
    IsStripped (joinWords words) := by
  induction words with
  | nil => exact ⟨nofun, nofun⟩
  | cons word words induction =>
      have isWord := areWords word List.mem_cons_self
      cases words with
      | nil => exact isStripped_of_solid isWord.solid
      | cons next words =>
          have others : ∀ other ∈ next :: words, IsWord other := fun other member =>
            areWords other (List.mem_cons_of_mem _ member)
          have filled := joinWords_ne_nil others (List.cons_ne_nil _ _)
          rw [joinWords]
          · refine isStripped_append isWord.ne_nil (List.cons_ne_nil _ _)
              (fun char member => isWord.solid char (List.mem_of_mem_head? member)) fun char member => ?_
            rw [← List.singleton_append, List.getLast?_append_of_ne_nil _ filled] at member
            exact (induction others).last char member
          · exact List.cons_ne_nil _ _

/-- What `_clean` leaves of a value is one line. -/
theorem isValue_clean {value : Text} (filled : clean value ≠ []) : IsValue (clean value) where
  filled
  stripped := isStripped_joinWords fun _ => isWord_of_mem_split
  unbroken char member := by
    rcases mem_joinWords member with rfl | ⟨word, isWord, inside⟩
    · decide
    · exact isLineBreak_of_solid ((isWord_of_mem_split isWord).solid char inside)

theorem isValue_withScheme {item : Text} (isValue : IsValue item) : IsValue (withScheme item) := by
  rw [withScheme]
  split_ifs
  · have plain : "mailto:".toList.all (fun char => !isLineBreak char) = true := by decide
    refine ⟨by simp, isStripped_append (by decide) isValue.filled (fun char member => ?_)
      isValue.stripped.last, fun char member => ?_⟩
    · obtain rfl := Option.some.inj member
      decide
    · rcases List.mem_append.mp member with front | inside
      · simpa using List.all_eq_true.mp plain char front
      · exact isValue.unbroken char inside
  · exact isValue

theorem isValue_of_mem_contacts {raw value : Text} (member : value ∈ contacts raw) : IsValue value := by
  obtain ⟨part, -, found⟩ := List.mem_filterMap.mp member
  split_ifs at found with empty
  obtain rfl := Option.some.inj found
  exact isValue_withScheme (isValue_clean empty)

private theorem solid_padded (width value : Nat) : ∀ char ∈ padded width value, isSpace char = false := by
  induction width generalizing value with
  | zero => exact nofun
  | succ width induction =>
      intro char member
      rcases List.mem_append.mp member with early | last
      · exact induction _ char early
      · rw [List.mem_singleton.mp last]
        have digits : ∀ rest < 10, isSpace (digit rest) = false := by decide
        exact digits _ (Nat.mod_lt _ (by decide))

theorem isValue_stamp (moment : DateTime) : IsValue (stamp moment) := by
  refine isValue_of_solid (by simp [stamp]) fun char member => ?_
  simp only [stamp, List.mem_append, List.mem_cons, List.not_mem_nil, or_false] at member
  rcases member with year | rfl | month | rfl | day | rfl | hour | rfl | minute | rfl | second | rfl
  · exact solid_padded _ _ char year
  · decide
  · exact solid_padded _ _ char month
  · decide
  · exact solid_padded _ _ char day
  · decide
  · exact solid_padded _ _ char hour
  · decide
  · exact solid_padded _ _ char minute
  · decide
  · exact solid_padded _ _ char second
  · decide

/-! ## URLs -/

section Urls

variable {nfkc : Text → Text} {base path url : Text}

private theorem head_usesRelative :
    (usesRelative.all fun scheme => (head scheme).all fun char => !isSpace char) = true := by
  decide

private theorem solid_head {scheme : Text} (known : scheme ∈ usesRelative) :
    ∀ char ∈ head scheme, isSpace char = false := fun char member => by
  simpa using List.all_eq_true.mp (List.all_eq_true.mp head_usesRelative scheme known) char member

/-- A URL that is joined is the path, or ends with it behind a scheme, slashes and the network location. -/
theorem urljoin_cases (rooted : path.head? = some '/') (single : ¬slashes <+: path)
    (joined : urljoin nfkc base path = some url) :
    url = path ∧ rootOf nfkc base = some none ∨
      ∃ scheme netloc, rootOf nfkc base = some (some (scheme, netloc)) ∧ scheme ∈ usesRelative ∧
        (url = head scheme ++ (slashes ++ (netloc ++ path)) ∨ netloc = [] ∧ url = head scheme ++ path) := by
  obtain ⟨root, isRoot, rfl⟩ := Option.map_eq_some_iff.mp joined
  cases root with
  | none => exact .inl ⟨rfl, isRoot⟩
  | some root =>
      obtain ⟨parts, -, same⟩ := Option.map_eq_some_iff.mp isRoot
      split_ifs at same with known
      obtain rfl := Option.some.inj same
      have filled : path ≠ [] := by
        rintro rfl
        cases rooted
      have noQuery : tail path [] = path := List.append_nil _
      refine .inr ⟨_, _, isRoot, known, ?_⟩
      rcases @urlunsplit_cases _ _ path [] filled fun _ => rooted with
        ⟨-, unsplit⟩ | ⟨none, -, unsplit⟩
      · rw [noQuery] at unsplit
        exact .inl unsplit
      · rw [noQuery] at unsplit
        exact .inr ⟨none, unsplit⟩

structure IsPath (path : Text) : Prop where
  rooted : path.head? = some '/'
  single : ¬slashes <+: path
  solid : path.all (fun char => !isSpace char) = true

theorem isPath_publicKeyPath : IsPath publicKeyPath := ⟨by decide, by decide, by decide⟩

theorem isPath_securityTxtPath : IsPath securityTxtPath := ⟨by decide, by decide, by decide⟩

theorem IsPath.solid_of_mem (isPath : IsPath path) {char : Char} (member : char ∈ path) :
    isSpace char = false := by
  simpa using List.all_eq_true.mp isPath.solid char member

theorem IsPath.ne_nil (isPath : IsPath path) : path ≠ [] := by
  rintro rfl
  cases isPath.rooted

theorem isStripped_urljoin (isPath : IsPath path) (joined : urljoin nfkc base path = some url) :
    url ≠ [] ∧ IsStripped url := by
  have last : ∀ char ∈ path.getLast?, isSpace char = false := fun char member =>
    isPath.solid_of_mem (List.mem_of_getLast? member)
  have first : ∀ {front : Text}, (∀ char ∈ front, isSpace char = false) →
      front ++ path ≠ [] ∧ IsStripped (front ++ path) := by
    intro front solid
    refine ⟨by simp [isPath.ne_nil], isStripped_of_solid fun char member => ?_⟩
    exact (List.mem_append.mp member).elim (solid char) isPath.solid_of_mem
  rcases urljoin_cases isPath.rooted isPath.single joined with
    ⟨rfl, -⟩ | ⟨scheme, netloc, -, known, rfl | ⟨-, rfl⟩⟩
  · exact ⟨isPath.ne_nil, isStripped_of_solid fun _ => isPath.solid_of_mem⟩
  · have front : ∀ char ∈ head scheme ++ slashes, isSpace char = false := by
      intro char member
      rcases List.mem_append.mp member with inScheme | slash
      · exact solid_head known char inScheme
      · rw [(List.mem_pair.mp slash).elim id id]
        decide
    rw [← List.append_assoc]
    refine ⟨by simp [slashes], isStripped_append (by simp [slashes]) (by simp [isPath.ne_nil])
      (fun char member => front char (List.mem_of_mem_head? member)) fun char member => ?_⟩
    rw [List.getLast?_append_of_ne_nil _ isPath.ne_nil] at member
    exact last char member
  · exact first (solid_head known)

theorem unbroken_urljoin_iff (isPath : IsPath path) (joined : urljoin nfkc base path = some url) :
    (∀ char ∈ url, isLineBreak char = false) ↔ OneLine nfkc base := by
  have inPath : ∀ char ∈ path, isLineBreak char = false := fun char member =>
    isLineBreak_of_solid (isPath.solid_of_mem member)
  rcases urljoin_cases isPath.rooted isPath.single joined with
    ⟨rfl, isRoot⟩ | ⟨scheme, netloc, isRoot, known, written⟩
  · refine iff_of_true inPath fun scheme netloc other => ?_
    rw [isRoot] at other
    cases other
  · have inScheme : ∀ char ∈ head scheme, isLineBreak char = false := fun char member =>
      isLineBreak_of_solid (solid_head known char member)
    have same : OneLine nfkc base ↔ ∀ char ∈ netloc, isLineBreak char = false := by
      refine ⟨fun oneLine => oneLine scheme netloc isRoot, fun unbroken other location found => ?_⟩
      rw [isRoot] at found
      obtain ⟨rfl, rfl⟩ := Prod.mk.inj (Option.some.inj (Option.some.inj found))
      exact unbroken
    rw [same]
    rcases written with rfl | ⟨rfl, rfl⟩
    · refine ⟨fun unbroken char member => unbroken char ?_, fun unbroken char member => ?_⟩
      · exact List.mem_append_right _ (List.mem_append_right _ (List.mem_append_left _ member))
      · rcases List.mem_append.mp member with isIn | isIn
        · exact inScheme char isIn
        · rcases List.mem_append.mp isIn with slash | isIn
          · rw [(List.mem_pair.mp slash).elim id id]
            decide
          · exact (List.mem_append.mp isIn).elim (unbroken char) (inPath char)
    · refine iff_of_true (fun char member => ?_) nofun
      exact (List.mem_append.mp member).elim (inScheme char) (inPath char)

end Urls

/-! ## Lines of the file -/

/-- The names of the fields as they are written. -/
def writtenNames : List Text :=
  ["Contact", "Expires", "Encryption", "Policy", "Acknowledgments", "Preferred-Languages", "Canonical"].map
    String.toList

/-- A name that is read back as it is written. -/
def isName (name : Text) : Bool :=
  name.all isFieldChar && name.head?.any fun char => char ≠ '-' && char ≠ '#' && !isSpace char

private theorem isName_of_written : ∀ name ∈ writtenNames, isName name = true := by decide

section Lines

variable {entry : Text × Text}

private theorem name_cases (named : isName entry.1 = true) :
    (∀ char ∈ entry.1, isFieldChar char = true) ∧
      ∃ first rest, entry.1 = first :: rest ∧ first ≠ '-' ∧ first ≠ '#' ∧ isSpace first = false := by
  rw [isName, Bool.and_eq_true, List.all_eq_true, Option.any_eq_true] at named
  obtain ⟨inName, first, isFirst, facts⟩ := named
  obtain ⟨rest, same⟩ := List.head?_eq_some_iff.mp isFirst
  simp only [Bool.and_eq_true, decide_eq_true_eq, Bool.not_eq_true'] at facts
  exact ⟨inName, first, rest, same, facts.1.1, facts.1.2, facts.2⟩

theorem strip_lineText (named : isName entry.1 = true) (filled : entry.2 ≠ [])
    (stripped : IsStripped entry.2) : strip (lineText entry) = lineText entry := by
  obtain ⟨-, first, rest, same, -, -, solid⟩ := name_cases named
  refine strip_of_isStripped (isStripped_append (by simp) filled (fun char member => ?_) stripped.last)
  rw [same] at member
  obtain rfl := Option.some.inj member
  exact solid

theorem matchField_lineText (named : isName entry.1 = true) (filled : entry.2 ≠ [])
    (stripped : IsStripped entry.2) : matchField (lineText entry) = some entry := by
  obtain ⟨inName, first, rest, same, -⟩ := name_cases named
  have colon : isFieldChar ':' = false := by decide
  have value : lstrip (' ' :: entry.2) = entry.2 := by
    obtain ⟨char, chars, isValue⟩ := List.exists_cons_of_ne_nil filled
    rw [isValue] at stripped ⊢
    rw [lstrip, List.dropWhile_cons_of_pos (by decide),
      List.dropWhile_cons_of_neg (by simp [stripped.head char rfl])]
  have line : lineText entry = entry.1 ++ ':' :: ' ' :: entry.2 := by
    rw [lineText, List.append_assoc]
    rfl
  have name : (lineText entry).takeWhile isFieldChar = entry.1 := by
    rw [line, List.takeWhile_append_of_pos inName, List.takeWhile_cons_of_neg (by simp [colon]),
      List.append_nil]
  have behind : (lineText entry).dropWhile isFieldChar = ':' :: ' ' :: entry.2 := by
    rw [line, List.dropWhile_append_of_pos inName, List.dropWhile_cons_of_neg (by simp [colon])]
  have notSpace : isSpace ':' = false := by decide
  rw [matchField, name, behind, List.dropWhile_cons_of_neg (by simp [notSpace])]
  simp only [value]
  rw [if_neg]
  rintro (none | none)
  · rw [same] at none
    cases none
  · exact filled none

theorem lineOf_lineText (named : isName entry.1 = true) (filled : entry.2 ≠ [])
    (stripped : IsStripped entry.2) :
    lineOf (strip (lineText entry)) = .field (lower entry.1) entry.2 := by
  obtain ⟨-, first, rest, same, noDash, noMark, -⟩ := name_cases named
  have line : lineText entry = first :: (rest ++ ": ".toList ++ entry.2) := by
    rw [lineText, same]
    rfl
  have noBegin : ¬beginSignature <+: lineText entry := fun starts => by
    rw [line] at starts
    exact noDash (List.cons_prefix_cons.mp starts).1.symm
  have noEnd : ¬endSignature <+: lineText entry := fun starts => by
    rw [line] at starts
    exact noDash (List.cons_prefix_cons.mp starts).1.symm
  have solid : ¬(lineText entry = [] ∨ (lineText entry).head? = some '#') := by
    rw [line]
    simp [noMark]
  rw [strip_lineText named filled stripped, lineOf, if_neg noBegin, if_neg noEnd, if_neg solid,
    matchField_lineText named filled stripped]

end Lines

private theorem splitLinesFrom_unbroken {line : Text}
    (unbroken : ∀ char ∈ line, isLineBreak char = false) (word rest : Text) :
    splitLinesFrom word (line ++ '\n' :: rest) = (word.reverse ++ line) :: splitLinesFrom [] rest := by
  induction line generalizing word with
  | nil =>
      rw [List.append_nil]
      rfl
  | cons char line induction =>
      have solid := unbroken char List.mem_cons_self
      have other : char ≠ '\r' := by
        rintro rfl
        exact absurd solid (by decide)
      rw [List.cons_append, splitLinesFrom, if_neg (by simp [solid]),
        induction fun next member => unbroken next (List.mem_cons_of_mem _ member)]
      · simp
      · exact fun _ same _ => other same

theorem splitLines_single {line : Text} (filled : line ≠ [])
    (unbroken : ∀ char ∈ line, isLineBreak char = false) : splitLines line = [line] := by
  have general : ∀ (line word : Text), (∀ char ∈ line, isLineBreak char = false) →
      splitLinesFrom word line = if word.reverse ++ line = [] then [] else [word.reverse ++ line] := by
    intro line
    induction line with
    | nil =>
        intro word _
        rw [splitLinesFrom, List.append_nil]
        simp
    | cons char line induction =>
        intro word unbroken
        have solid := unbroken char List.mem_cons_self
        have other : char ≠ '\r' := by
          rintro rfl
          exact absurd solid (by decide)
        rw [splitLinesFrom, if_neg (by simp [solid]),
          induction _ fun next member => unbroken next (List.mem_cons_of_mem _ member)]
        · simp
        · exact fun _ same _ => other same
  rw [splitLines, general line [] unbroken]
  simp [filled]

theorem splitLines_intercalate {lines : List Text}
    (areLines : ∀ line ∈ lines, line ≠ [] ∧ ∀ char ∈ line, isLineBreak char = false)
    (some : lines ≠ []) :
    splitLines (['\n'].intercalate lines) = lines ∧
      splitLines (['\n'].intercalate lines ++ ['\n']) = lines := by
  induction lines with
  | nil => exact absurd rfl some
  | cons line lines induction =>
      obtain ⟨filled, unbroken⟩ := areLines line List.mem_cons_self
      cases lines with
      | nil =>
          rw [List.intercalate_singleton]
          refine ⟨splitLines_single filled unbroken, ?_⟩
          rw [splitLines, splitLinesFrom_unbroken unbroken]
          rfl
      | cons next lines =>
          obtain ⟨without, behind⟩ := induction
            (fun other member => areLines other (List.mem_cons_of_mem _ member)) (List.cons_ne_nil _ _)
          rw [List.intercalate_cons_cons, List.append_assoc, List.singleton_append, List.append_assoc,
            List.cons_append, splitLines, splitLines, splitLinesFrom_unbroken unbroken,
            splitLinesFrom_unbroken unbroken]
          exact ⟨congrArg _ without, congrArg _ behind⟩

private theorem isStripped_intercalate {lines : List Text}
    (areLines : ∀ line ∈ lines, line ≠ [] ∧ IsStripped line) (some : lines ≠ []) :
    ['\n'].intercalate lines ≠ [] ∧ IsStripped (['\n'].intercalate lines) := by
  induction lines with
  | nil => exact absurd rfl some
  | cons line lines induction =>
      obtain ⟨filled, stripped⟩ := areLines line List.mem_cons_self
      cases lines with
      | nil =>
          rw [List.intercalate_singleton]
          exact ⟨filled, stripped⟩
      | cons next lines =>
          obtain ⟨laterFilled, later⟩ := induction
            (fun other member => areLines other (List.mem_cons_of_mem _ member)) (List.cons_ne_nil _ _)
          rw [List.intercalate_cons_cons, List.append_assoc]
          refine ⟨by simp [filled], isStripped_append filled (by simp) stripped.head ?_⟩
          rw [List.getLast?_append_of_ne_nil _ laterFilled]
          exact later.last

private theorem strip_newline {text : Text} (filled : text ≠ []) (stripped : IsStripped text) :
    strip (text ++ ['\n']) = text := by
  have left : lstrip (text ++ ['\n']) = text ++ ['\n'] := by
    obtain ⟨first, rest, rfl⟩ := List.exists_cons_of_ne_nil filled
    exact List.dropWhile_cons_of_neg (by simp [stripped.head first rfl])
  have whole := strip_of_isStripped stripped
  have same : lstrip text = text := by
    obtain ⟨first, rest, rfl⟩ := List.exists_cons_of_ne_nil filled
    exact List.dropWhile_cons_of_neg (by simp [stripped.head first rfl])
  rw [strip, same] at whole
  rw [strip, left, rstrip, List.rdropWhile_concat_pos _ _ _ (by decide)]
  exact whole

/-! ## Reading the file back -/

/-- A name with its value, as they are written. -/
structure IsEntry (entry : Text × Text) : Prop where
  name : entry.1 ∈ writtenNames
  value : IsValue entry.2

/-- The names of fields are read in small letters. -/
def asRead (entry : Text × Text) : Text × Text := (lower entry.1, entry.2)

section Entries

variable {entries : List (Text × Text)}

private theorem readings_lineText (areEntries : ∀ entry ∈ entries, IsEntry entry) :
    readings false (entries.map lineText) = entries.map asRead := by
  induction entries with
  | nil => rfl
  | cons entry entries induction =>
      have isEntry := areEntries entry List.mem_cons_self
      rw [List.map_cons, readings,
        lineOf_lineText (isName_of_written _ isEntry.name) isEntry.value.filled isEntry.value.stripped,
        List.map_cons, ← induction fun other member => areEntries other (List.mem_cons_of_mem _ member)]
      rfl

private theorem isLine_lineText {entry : Text × Text} (isEntry : IsEntry entry) :
    lineText entry ≠ [] ∧ ∀ char ∈ lineText entry, isLineBreak char = false := by
  have names : (writtenNames.all fun name => name.all fun char => !isLineBreak char) = true := by decide
  refine ⟨by simp [lineText], fun char member => ?_⟩
  rcases List.mem_append.mp member with front | inside
  · rcases List.mem_append.mp front with inName | mark
    · simpa using List.all_eq_true.mp (List.all_eq_true.mp names _ isEntry.name) char inName
    · rcases List.mem_pair.mp mark with rfl | rfl <;> decide
  · exact isEntry.value.unbroken char inside

/-- A file is read as its fields, also without the newline at its end, which `strip` takes away. -/
theorem parse_entries (areEntries : ∀ entry ∈ entries, IsEntry entry) (some : entries ≠ []) :
    strip (['\n'].intercalate (entries.map lineText) ++ ['\n']) ≠ [] ∧
      parseSecurityTxt (strip (['\n'].intercalate (entries.map lineText) ++ ['\n'])) =
        collect (entries.map asRead) ∧
      parseSecurityTxt (['\n'].intercalate (entries.map lineText) ++ ['\n']) =
        collect (entries.map asRead) := by
  have areLines : ∀ line ∈ entries.map lineText,
      line ≠ [] ∧ ∀ char ∈ line, isLineBreak char = false := by
    intro line member
    obtain ⟨entry, isIn, rfl⟩ := List.mem_map.mp member
    exact isLine_lineText (areEntries entry isIn)
  have areStripped : ∀ line ∈ entries.map lineText, line ≠ [] ∧ IsStripped line := by
    intro line member
    obtain ⟨entry, isIn, rfl⟩ := List.mem_map.mp member
    have isEntry := areEntries entry isIn
    refine ⟨(isLine_lineText isEntry).1, ?_⟩
    rw [← strip_lineText (isName_of_written _ isEntry.name) isEntry.value.filled isEntry.value.stripped]
    exact isStripped_strip _
  obtain ⟨without, behind⟩ := splitLines_intercalate areLines (by simpa using some)
  obtain ⟨filled, stripped⟩ := isStripped_intercalate areStripped (by simpa using some)
  rw [strip_newline filled stripped, parseSecurityTxt_eq, parseSecurityTxt_eq, without, behind,
    readings_lineText areEntries]
  exact ⟨filled, rfl, rfl⟩

end Entries

/-! ## The time of expiry -/

def DayBefore (earlier later : Day) : Prop :=
  earlier.year < later.year ∨ earlier.year = later.year ∧
    (earlier.month < later.month ∨ earlier.month = later.month ∧ earlier.day < later.day)

private theorem dayBefore_next {date later : Day} (next : date.next = some later) :
    DayBefore date later := by
  rw [Day.next] at next
  split_ifs at next with within earlier later
  · obtain rfl := Option.some.inj next
    exact .inr ⟨rfl, .inr ⟨rfl, Nat.lt_succ_self _⟩⟩
  · obtain rfl := Option.some.inj next
    exact .inr ⟨rfl, .inl (Nat.lt_succ_self _)⟩
  · obtain rfl := Option.some.inj next
    exact .inl (Nat.lt_succ_self _)

private theorem dayBefore_plusDays {days : Nat} {date later : Day}
    (sum : date.plusDays (days + 1) = some later) : DayBefore date later := by
  induction days generalizing date with
  | zero =>
      obtain ⟨next, isNext, same⟩ := Option.bind_eq_some_iff.mp sum
      obtain rfl := Option.some.inj same
      exact dayBefore_next isNext
  | succ days induction =>
      obtain ⟨next, isNext, rest⟩ := Option.bind_eq_some_iff.mp sum
      have first := dayBefore_next isNext
      have second := induction rest
      rw [DayBefore] at first second ⊢
      omega

private theorem lt_of_dayBefore {earlier later : DateTime} (before : DayBefore earlier.date later.date) :
    earlier < later := by
  change earlier.fields < later.fields
  simp only [DateTime.fields, List.cons_lt_cons_iff]
  rcases before with year | ⟨year, month | ⟨month, day⟩⟩
  · exact .inl year
  · exact .inr ⟨year, .inl month⟩
  · exact .inr ⟨year, .inr ⟨month, .inl day⟩⟩

theorem clamped_pos {days : Days} {count : ℕ} (clamped : days.clamped = some count) : 0 < count := by
  cases days with
  | absent =>
      obtain rfl := Option.some.inj clamped
      decide
  | number value =>
      obtain rfl := Option.some.inj clamped
      omega
  | unreadable => cases clamped

theorem lt_expiryFor {days : Days} {now expires : DateTime}
    (isExpiry : expiryFor days now = some expires) :
    now < expires ∧ { expires with microsecond := 0 } = expires := by
  obtain ⟨count, clamped, rest⟩ := Option.bind_eq_some_iff.mp isExpiry
  obtain ⟨later, sum, same⟩ := Option.bind_eq_some_iff.mp rest
  obtain rfl := Option.some.inj same
  obtain ⟨date, isDate, rfl⟩ := Option.map_eq_some_iff.mp sum
  obtain ⟨days, rfl⟩ := Nat.exists_eq_add_one.mpr (clamped_pos clamped)
  exact ⟨lt_of_dayBefore (dayBefore_plusDays isDate), rfl⟩

private theorem flatMap_padded (width value : Nat) :
    ((padded width value).flatMap fun char => if char = 'Z' then "+00:00".toList else [char]) =
      padded width value := by
  induction width generalizing value with
  | zero => rfl
  | succ width induction =>
      have digits : ∀ rest < 10, digit rest ≠ 'Z' := by decide
      rw [padded, List.flatMap_append, induction, List.flatMap_singleton,
        if_neg (digits _ (Nat.mod_lt _ (by decide)))]

theorem parseExpires_stamp (reader : IsoReader) {moment : DateTime}
    (whole : { moment with microsecond := 0 } = moment) :
    parseExpires reader (stamp moment) = some (.of moment) := by
  have shown : ((stamp moment).flatMap fun char => if char = 'Z' then "+00:00".toList else [char]) =
      moment.isoformat := by
    have zero : moment.microsecond = 0 := congrArg DateTime.microsecond whole.symm
    rw [stamp, DateTime.isoformat, zero]
    simp only [List.flatMap_append, List.flatMap_cons, flatMap_padded, List.flatMap_nil]
    rfl
  rw [parseExpires, strip_of_isStripped (isValue_stamp moment).stripped, shown, reader.reads]

/-! ## What the file says -/

/-- The values of a name among the fields of a file. -/
def valuesIn (name : Text) (entries : List (Text × Text)) : List Text :=
  ((entries.map asRead).filter (·.1 = name)).map Prod.snd

theorem valuesIn_append (name : Text) (front behind : List (Text × Text)) :
    valuesIn name (front ++ behind) = valuesIn name front ++ valuesIn name behind := by
  rw [valuesIn, List.map_append, List.filter_append, List.map_append]
  rfl

theorem valuesIn_cons (name field value : Text) (entries : List (Text × Text)) :
    valuesIn name ((field, value) :: entries) =
      (if lower field = name then [value] else []) ++ valuesIn name entries := by
  by_cases same : lower field = name <;> simp [valuesIn, asRead, same]

theorem valuesIn_optional (name : Text) (field : String) (value : Text) :
    valuesIn name (optional field value) = if lower field.toList = name then valueOf value else [] := by
  rw [optional, valueOf]
  by_cases empty : value = []
  · rw [if_pos empty, if_pos empty]
    split_ifs <;> rfl
  · rw [if_neg empty, if_neg empty]
    by_cases same : lower field.toList = name <;> simp [valuesIn, asRead, same]

private theorem valuesIn_contacts (name : Text) (values : List Text) :
    valuesIn name (values.map fun value => ("Contact".toList, value)) =
      if "contact".toList = name then values else [] := by
  have lowered : lower "Contact".toList = "contact".toList := by decide +kernel
  induction values with
  | nil => split_ifs <;> rfl
  | cons value values induction =>
      rw [List.map_cons, valuesIn_cons, lowered, induction]
      split_ifs <;> rfl

section Written

variable (config : Config) (expires encryption canonical : Text)

theorem valuesIn_written (name : Text) :
    valuesIn name (written config expires encryption canonical) =
      (if "contact".toList = name then contacts config.contact else []) ++
        ((if "expires".toList = name then [expires] else []) ++
          ((if "encryption".toList = name then valueOf encryption else []) ++
            (if "policy".toList = name then valueOf (clean config.policyUrl) else []) ++
            (if "acknowledgments".toList = name then valueOf (clean config.acknowledgmentsUrl) else []) ++
            (if "preferred-languages".toList = name then valueOf (clean config.preferredLanguages)
              else []) ++
            (if "canonical".toList = name then valueOf canonical else []))) := by
  have loweredEncryption : lower "Encryption".toList = "encryption".toList := by decide +kernel
  have loweredPolicy : lower "Policy".toList = "policy".toList := by decide +kernel
  have loweredThanks : lower "Acknowledgments".toList = "acknowledgments".toList := by decide +kernel
  have loweredLanguages : lower "Preferred-Languages".toList = "preferred-languages".toList := by
    decide +kernel
  have loweredCanonical : lower "Canonical".toList = "canonical".toList := by decide +kernel
  have loweredExpires : lower "Expires".toList = "expires".toList := by decide +kernel
  rw [written, valuesIn_append, valuesIn_contacts, valuesIn_cons, loweredExpires]
  simp only [valuesIn_append, valuesIn_optional, loweredEncryption, loweredPolicy, loweredThanks,
    loweredLanguages, loweredCanonical]

variable {config expires encryption canonical}

private theorem isEntry_optional {field : String} {value : Text} (isName : field.toList ∈ writtenNames)
    (isValue : value ≠ [] → IsValue value) : ∀ entry ∈ optional field value, IsEntry entry := by
  intro entry member
  rw [optional] at member
  split_ifs at member with empty
  · cases member
  · rw [List.mem_singleton.mp member]
    exact ⟨isName, isValue empty⟩

theorem isEntry_written (isExpires : IsValue expires) (isEncryption : encryption ≠ [] → IsValue encryption)
    (isCanonical : canonical ≠ [] → IsValue canonical) :
    ∀ entry ∈ written config expires encryption canonical, IsEntry entry := by
  intro entry member
  rcases List.mem_append.mp member with contact | member
  · obtain ⟨value, isContact, rfl⟩ := List.mem_map.mp contact
    exact ⟨(by decide : "Contact".toList ∈ writtenNames), isValue_of_mem_contacts isContact⟩
  · rcases List.mem_cons.mp member with rfl | member
    · exact ⟨(by decide : "Expires".toList ∈ writtenNames), isExpires⟩
    · simp only [List.mem_append] at member
      rcases member with (((inEncryption | policy) | acknowledgments) | languages) | inCanonical
      · exact isEntry_optional (by decide) isEncryption entry inEncryption
      · exact isEntry_optional (by decide) isValue_clean entry policy
      · exact isEntry_optional (by decide) isValue_clean entry acknowledgments
      · exact isEntry_optional (by decide) isValue_clean entry languages
      · exact isEntry_optional (by decide) isCanonical entry inCanonical

end Written

section Built

variable {reader : IsoReader} {nfkc : Text → Text} {request : Request} {file : Text}

private theorem build_cases (built : build nfkc request = some file) :
    ∃ expires encryption canonical, contacts request.config.contact ≠ [] ∧
      expiryFor request.config.expiresDays request.now = some expires ∧
      encryptionUrl nfkc request = some encryption ∧ canonicalUrl nfkc request = some canonical ∧
      file = ['\n'].intercalate
        ((written request.config (stamp expires) encryption canonical).map lineText) ++ ['\n'] := by
  obtain ⟨entries, fields, rfl⟩ := Option.map_eq_some_iff.mp built
  rw [fieldsToWrite] at fields
  split_ifs at fields with missing
  obtain ⟨expires, isExpires, fields⟩ := Option.bind_eq_some_iff.mp fields
  obtain ⟨encryption, isEncryption, fields⟩ := Option.bind_eq_some_iff.mp fields
  obtain ⟨canonical, isCanonical, fields⟩ := Option.bind_eq_some_iff.mp fields
  obtain rfl := Option.some.inj fields
  exact ⟨expires, encryption, canonical, fun none => missing (.inr none), isExpires, isEncryption,
    isCanonical, rfl⟩

private theorem encryptionUrl_cases {url : Text} (isUrl : encryptionUrl nfkc request = some url) :
    url = [] ∨ UsesBase request ∧ urljoin nfkc request.baseUrl publicKeyPath = some url := by
  rw [encryptionUrl] at isUrl
  split_ifs at isUrl with uses
  · exact .inr ⟨⟨uses.2, .inl uses.1⟩, isUrl⟩
  · exact .inl (Option.some.inj isUrl).symm

private theorem canonicalUrl_cases {url : Text} (isUrl : canonicalUrl nfkc request = some url) :
    url = [] ∨ IsValue url ∨
      UsesBase request ∧ urljoin nfkc request.baseUrl securityTxtPath = some url := by
  rw [canonicalUrl] at isUrl
  split_ifs at isUrl with given base
  · obtain rfl := Option.some.inj isUrl
    exact .inr (.inl (isValue_clean given))
  · exact .inr (.inr ⟨⟨base, .inr (not_ne_iff.mp given)⟩, isUrl⟩)
  · exact .inl (Option.some.inj isUrl).symm

private theorem isValue_urljoin {path url : Text} (isPath : IsPath path)
    (joined : urljoin nfkc request.baseUrl path = some url) (oneLine : OneLine nfkc request.baseUrl) :
    IsValue url where
  filled := (isStripped_urljoin isPath joined).1
  stripped := (isStripped_urljoin isPath joined).2
  unbroken := (unbroken_urljoin_iff isPath joined).mpr oneLine

private theorem oneLine_of_values {name path url : Text} (isPath : IsPath path)
    (joined : urljoin nfkc request.baseUrl path = some url)
    (isRead : (parseSecurityTxt file).values name = valueOf url) : OneLine nfkc request.baseUrl := by
  refine (unbroken_urljoin_iff isPath joined).mp fun char inside => ?_
  have member : url ∈ (parseSecurityTxt file).values name := by
    rw [isRead, valueOf, if_neg (isStripped_urljoin isPath joined).1]
    exact List.mem_cons_self
  exact unbroken_values member char inside

private theorem saysConfigured_collect {expires encryption canonical : Text}
    (isEncryption : encryptionUrl nfkc request = some encryption)
    (isCanonical : canonicalUrl nfkc request = some canonical) :
    SaysConfigured nfkc request
      (collect ((written request.config expires encryption canonical).map asRead)) := by
  have values : ∀ name, (collect ((written request.config expires encryption canonical).map asRead)).values
      name = valuesIn name (written request.config expires encryption canonical) :=
    fun name => values_collect _ name
  constructor
  · rw [values, valuesIn_written]
    simp
  · rw [values, valuesIn_written]
    simp
  · intro url isUrl
    obtain rfl := Option.some.inj (isEncryption.symm.trans isUrl)
    rw [values, valuesIn_written]
    simp
  · rw [values, valuesIn_written]
    simp
  · rw [values, valuesIn_written]
    simp
  · rw [values, valuesIn_written]
    simp
  · intro url isUrl
    obtain rfl := Option.some.inj (isCanonical.symm.trans isUrl)
    rw [values, valuesIn_written]
    simp
  · intro name other
    have apart : ∀ known ∈ fieldNames, known ≠ name := fun known isKnown same => other (same ▸ isKnown)
    rw [values, valuesIn_written]
    simp only [fieldNames, List.map_cons, List.map_nil, List.forall_mem_cons] at apart
    obtain ⟨contact, expires, encryption, policy, acknowledgments, languages, canonical, -⟩ := apart
    simp only [if_neg contact, if_neg expires, if_neg encryption, if_neg policy, if_neg acknowledgments,
      if_neg languages, if_neg canonical, List.append_nil]

/-- A file that is built has no errors and says what is configured if and only if the URL of the installation,
where it stands in the file, is one line. -/
theorem isValid_iff (built : build nfkc request = some file) :
    IsValid reader nfkc request file ↔ (UsesBase request → OneLine nfkc request.baseUrl) := by
  obtain ⟨expires, encryption, canonical, someContact, isExpiry, isEncryption, isCanonical, written_eq⟩ :=
    build_cases built
  constructor
  · rintro ⟨-, configured⟩ ⟨base, uses⟩
    rcases uses with key | derived
    · have joined : encryptionUrl nfkc request = urljoin nfkc request.baseUrl publicKeyPath := by
        rw [encryptionUrl, if_pos ⟨key, base⟩]
      exact oneLine_of_values isPath_publicKeyPath (joined.symm.trans isEncryption)
        (configured.encryption _ isEncryption)
    · have joined : canonicalUrl nfkc request = urljoin nfkc request.baseUrl securityTxtPath := by
        rw [canonicalUrl, if_neg (not_ne_iff.mpr derived), if_pos base]
      exact oneLine_of_values isPath_securityTxtPath (joined.symm.trans isCanonical)
        (configured.canonical _ isCanonical)
  · intro oneLine
    have areEntries : ∀ entry ∈ written request.config (stamp expires) encryption canonical,
        IsEntry entry := by
      refine isEntry_written (isValue_stamp expires) (fun filled => ?_) fun filled => ?_
      · obtain ⟨uses, joined⟩ := (encryptionUrl_cases isEncryption).resolve_left filled
        exact isValue_urljoin isPath_publicKeyPath joined (oneLine uses)
      · rcases (canonicalUrl_cases isCanonical).resolve_left filled with isValue | ⟨uses, joined⟩
        · exact isValue
        · exact isValue_urljoin isPath_securityTxtPath joined (oneLine uses)
    obtain ⟨filled, stripped, whole⟩ := parse_entries areEntries (by simp [written])
    have configured : SaysConfigured nfkc request (collect ((written request.config (stamp expires)
        encryption canonical).map asRead)) := saysConfigured_collect isEncryption isCanonical
    refine ⟨?_, written_eq ▸ whole ▸ configured⟩
    obtain ⟨later, noFraction⟩ := lt_expiryFor isExpiry
    have expiresValues : (collect ((written request.config (stamp expires) encryption canonical).map
        asRead)).values "expires".toList = [stamp expires] := by
      rw [values_collect]
      refine (valuesIn_written _ _ _ _ _).trans ?_
      simp
    have notPast : (Stamp.of expires).notAfter request.now = false :=
      decide_eq_false (DateTime.not_le.mpr later)
    rw [written_eq, validate, if_neg filled, stripped]
    simp only [configured.contact, expiresValues, contactProblems, if_neg someContact, expiresProblems,
      parseExpires_stamp reader noFraction, notPast, if_true, Bool.false_eq_true, if_false,
      List.append_nil]

end Built

/-! ## A separator in the URL -/

theorem isoformat_injective : Function.Injective DateTime.isoformat := by
  intro left right same
  have fields : left.fields = right.fields := by
    refine List.le_antisymm (fun after => ?_) fun before => ?_
    · exact List.lt_irrefl _ (same ▸ DateTime.isoformat_lt_iff.mpr after)
    · exact List.lt_irrefl _ (same ▸ DateTime.isoformat_lt_iff.mpr before)
  simp only [DateTime.fields, List.cons.injEq, and_true, Fin.val_inj] at fields
  obtain ⟨year, month, day, hour, minute, second, microsecond⟩ := fields
  obtain ⟨⟨_, _, _, _, _, _⟩, _, _, _, _⟩ := left
  obtain ⟨⟨_, _, _, _, _, _⟩, _, _, _, _⟩ := right
  dsimp only at year month day hour minute second microsecond
  subst year month day hour minute second microsecond
  rfl

open Classical in
/-- The reader of what `isoformat` shows. -/
noncomputable def isoReader : IsoReader where
  read text := if shown : ∃ moment : DateTime, moment.isoformat = text then some (.of shown.choose) else none
  reads moment := by
    have shown : ∃ other : DateTime, other.isoformat = moment.isoformat := ⟨moment, rfl⟩
    rw [dif_pos shown, isoformat_injective shown.choose_spec]

private theorem isYearHere : 1 ≤ 2026 ∧ 2026 ≤ 9999 := by decide

private theorem isJanuary : 1 ≤ 1 ∧ 1 ≤ 12 := by decide

private theorem isFirstOfJanuary : 1 ≤ 1 ∧ 1 ≤ daysInMonth 2026 1 := by decide

private theorem isNoon : 12 < 24 := by decide

private theorem isFullHour : 0 < 60 := by decide

private theorem isFullSecond : 0 < 1000000 := by decide

private def disclosure (base : String) : Request where
  config :=
    { enabled := true
      contact := "security@example.org".toList
      expiresDays := .number 30
      policyUrl := "https://example.org/policy".toList
      acknowledgmentsUrl := []
      preferredLanguages := "en, nl".toList
      canonicalUrl := [] }
  baseUrl := base.toList
  hasKey := true
  now :=
    { date := ⟨2026, 1, 1, isYearHere, isJanuary, isFirstOfJanuary⟩
      hour := ⟨12, isNoon⟩
      minute := ⟨0, isFullHour⟩
      second := ⟨0, isFullHour⟩
      microsecond := ⟨0, isFullSecond⟩ }

private def disclosureFile (base : String) : Text :=
  "Contact: mailto:security@example.org\nExpires: 2026-01-31T12:00:00Z\nEncryption: ".toList ++
    (base.toList ++ ("/.well-known/pgp-key.asc\nPolicy: https://example.org/policy\n".toList ++
      ("Preferred-Languages: en, nl\nCanonical: ".toList ++
        (base.toList ++ "/.well-known/security.txt\n".toList))))

/-- The file of an installation whose URL is one line. -/
theorem published_file_valid :
    IsValid isoReader id (disclosure "https://scan.example.org")
      (disclosureFile "https://scan.example.org") := by
  have root : rootOf id "https://scan.example.org".toList =
      some (some ("https".toList, "scan.example.org".toList)) := by decide +kernel
  have unbroken : ("scan.example.org".toList.all fun char => !isLineBreak char) = true := by decide
  refine (isValid_iff (by decide +kernel)).mpr fun _ scheme netloc isRoot char member => ?_
  obtain ⟨rfl, rfl⟩ := Prod.mk.inj (Option.some.inj (Option.some.inj (root.symm.trans isRoot)))
  simpa using List.all_eq_true.mp unbroken char member

/-- A line separator in the URL writes a contact of its own. -/
theorem separator_forges_contact :
    build id (disclosure "https://scan.example.org\u2028Contact: mailto:evil@example.net") =
        some (disclosureFile "https://scan.example.org\u2028Contact: mailto:evil@example.net") ∧
      ¬ IsValid isoReader id
        (disclosure "https://scan.example.org\u2028Contact: mailto:evil@example.net")
        (disclosureFile "https://scan.example.org\u2028Contact: mailto:evil@example.net") := by
  refine ⟨by decide +kernel, fun isValid => absurd isValid.fields.contact ?_⟩
  decide +kernel

end SecurityTxt
end DomainLens
