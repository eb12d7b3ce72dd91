import DomainLens.FileScan.Files

/-!
# What is inside a file

A container hands on the files it holds, in order, as far as the ceilings on depth, numbers and sizes
allow; with them goes what is said of the container itself.  The findings and the links are left out.
-/

namespace DomainLens
namespace FileScan

open Python

/-! ## Ceilings -/

/-- `MAX_DEPTH`. -/
def maxDepth : Nat := 2

/-- `MAX_CHILDREN`. -/
def maxChildren : Nat := 50

/-- `MAX_MEMBER`. -/
def maxMember : Nat := 20 * 1024 * 1024

/-- `MAX_UNPACKED`. -/
def maxUnpacked : Nat := 60 * 1024 * 1024

/-! ## Walks -/

inductive State where
  | scanned
  | partly
  | unmeasured
deriving DecidableEq

structure File where
  name : Text
  data : Bytes
deriving DecidableEq

/-- The files a container hands on, and its state with the reason; an exception may end the walk. -/
structure Walk where
  files : List File
  state : State
  reason : Option Text
  raised : Option Text

def Walk.done (files : List File) : Walk where
  files
  state := .scanned
  reason := none
  raised := none

/-- A file that cannot be read, or only in part. -/
def Walk.ended (state : State) (reason : String) : Walk where
  files := []
  state
  reason := some reason.toList
  raised := none

def Walk.failed (files : List File) (name : Text) : Walk where
  files
  state := .scanned
  reason := none
  raised := some name

/-! ## OLE -/

def packedAt (skip : Nat) (data : Bytes) : Option File := do
  let labelEnd ← indexZero data (skip + 2)
  let pathEnd ← indexZero data (labelEnd + 1)
  let tempLen ← word32 data (pathEnd + 5)
  let size ← word32 data (pathEnd + 9 + tempLen)
  let pos := pathEnd + 13 + tempLen
  if 0 < size ∧ size + pos ≤ data.length then
    let label := latin1 ((data.drop (skip + 2)).take (labelEnd - (skip + 2)))
    some { name := if label = [] then "(packaged file)".toList else label
           data := (data.drop pos).take size }
  else none

/-- `_ole10native`. -/
def ole10native (data : Bytes) : Option File := (packedAt 4 data).or (packedAt 0 data)

/-- The name of a stream or a storage in the listing. -/
def pathOf (entry : List Text) : Text := ['/'].intercalate entry

/-- A document whose content is encrypted. -/
def Ole.encrypted (ole : Ole) : Bool :=
  let lowered := ole.entries.map fun entry => lower (pathOf entry.1)
  lowered.any fun name => name = "encryptedpackage".toList ||
    "/encryptedpackage".toList.isSuffixOf name || name = "encryptioninfo".toList

def isPackage (entry : List Text) : Bool :=
  let leaf := lower (entry.getLast?.getD [])
  "ole10native".toList.isSuffixOf leaf || leaf = "package".toList

/-- The files packed into a document, in the order of their streams. -/
def Ole.packed (ole : Ole) : List File :=
  ((ole.entries.filter Prod.snd).map Prod.fst).filterMap fun entry =>
    if isPackage entry then
      match ole.stream entry with
      | .ok data => ole10native (data.take maxMember)
      | .error _ => none
    else none

/-- `_scan_ole`. -/
def walkOle (readers : Readers) (data : Bytes) : Walk :=
  match readers.ole data with
  | none => .ended .unmeasured "The OLE structure could not be read."
  | some ole =>
      if ole.encrypted then
        .ended .partly "Encrypted: the content cannot be read without the password."
      else .done (ole.packed.take maxChildren)

/-! ## ZIP -/

/-- `_zip_members`: the members to read, by their place, with the state and the reason. -/
def zipMembers (readers : Readers) (data : Bytes) : Raises (List (Member × Nat) × Walk) :=
  match readers.zip data with
  | .raised name => .error name
  | .unreadable => .ok ([], .ended .unmeasured "The archive could not be read.")
  | .listed members =>
      let declared := (members.map Member.fileSize).sum
      let packed := if (members.map Member.compressSize).sum = 0 then 1
        else (members.map Member.compressSize).sum
      -- The quotient is rounded to 53 bits: one within half a unit of 100 does not exceed it.
      if maxUnpacked < declared ∧ packed * (100 * 2 ^ 47 + 1) < declared * 2 ^ 47 then
        .ok ([], .ended .partly "A ZIP bomb: only the names were read.")
      else
        let kept := members.zipIdx.filter fun entry => !entry.1.encrypted && !entry.1.isDir
        if members.any Member.encrypted then
          .ok (kept, .ended .partly "Password-protected: the files inside could not be read.")
        else .ok (kept, .done [])

/-- `_read_member`, with what is left of the budget. -/
def readMember (readers : Readers) (data : Bytes) (entry : Member × Nat) (budget : Nat) :
    Raises (Option Bytes × Nat) :=
  if maxMember < entry.1.fileSize ∨ budget < entry.1.fileSize then .ok (none, budget)
  else
    match readers.member data entry.2 (maxMember + 1) with
    | .error name => .error name
    | .ok read =>
        if maxMember < read.length then .ok (none, budget)
        else .ok (some read, budget - read.length)

/-- The members that are wanted, read one after another. -/
def readMembers (readers : Readers) (data : Bytes) :
    List (Member × Nat) → Nat → List File → List File × Option Text
  | [], _, files => (files, none)
  | entry :: entries, budget, files =>
      if maxChildren ≤ files.length then readMembers readers data entries budget files
      else
        match readMember readers data entry budget with
        | .error name => (files, some name)
        | .ok (none, budget) => readMembers readers data entries budget files
        | .ok (some read, budget) =>
            readMembers readers data entries budget (files ++ [⟨entry.1.filename, read⟩])

/-- `_scan_zip`. -/
def walkZip (readers : Readers) (data : Bytes) (depth : Nat) : Walk :=
  match zipMembers readers data with
  | .error name => .failed [] name
  | .ok (members, walk) =>
      if maxDepth ≤ depth then walk
      else
        let (files, raised) := readMembers readers data members maxUnpacked []
        { walk with files, raised }

/-! ## Office documents -/

def startsWith (text : Text) (start : String) : Bool := start.toList.isPrefixOf text

def endsWith (text : Text) (stop : String) : Bool := stop.toList.isSuffixOf text

def inEmbeddings (path : Text) : Bool := path.tails.any "/embeddings/".toList.isPrefixOf

/-- The parts of a document that are read. -/
def isWanted (path : Text) : Bool :=
  endsWith path ".rels" || endsWith path "vbaproject.bin" || inEmbeddings path ||
    path = "word/document.xml".toList || path = "word/settings.xml".toList ||
    startsWith path "xl/externallinks/" ||
    (startsWith path "xl/worksheets/" && endsWith path ".xml") || startsWith path "xl/macrosheets/"

/-- An embedded file: a part of a document that is nothing else first. -/
def isEmbedding (path : Text) : Bool :=
  !endsWith path "vbaproject.bin" && !startsWith path "xl/macrosheets/" && !endsWith path ".rels" &&
    path ≠ "word/document.xml".toList && path ≠ "word/settings.xml".toList &&
    !startsWith path "xl/worksheets/" && !startsWith path "xl/externallinks/" && inEmbeddings path

/-- `texts`: a part listed twice keeps its place and has its last content. -/
def assignPart (parts : List File) (part : File) : List File :=
  if part.name ∈ parts.map File.name then
    parts.map fun old => if old.name = part.name then part else old
  else parts ++ [part]

/-- The parts that are wanted, read one after another. -/
def readParts (readers : Readers) (data : Bytes) :
    List (Member × Nat) → Nat → List File → Raises (List File)
  | [], _, parts => .ok parts
  | entry :: entries, budget, parts =>
      if !isWanted (lower entry.1.filename) then readParts readers data entries budget parts
      else
        match readMember readers data entry budget with
        | .error name => .error name
        | .ok (none, budget) => readParts readers data entries budget parts
        | .ok (some read, budget) =>
            readParts readers data entries budget (assignPart parts ⟨entry.1.filename, read⟩)

/-- The tags `<Relationship …>`, one after another. -/
def relationships : Nat → Bytes → List Bytes
  | 0, _ => []
  | fuel + 1, data =>
      let opening := ascii "<Relationship"
      match fromFirst opening data with
      | none => []
      | some rest =>
          let after := rest.drop opening.length
          if after.head?.any isWordByte || !after.contains 0x3e then relationships fuel after
          else
            (opening ++ after.takeWhile (· ≠ 0x3e) ++ [0x3e]) ::
              relationships fuel ((after.dropWhile (· ≠ 0x3e)).drop 1)

/-- What follows the last slash of the first `Type` that has a name there. -/
def typeName (tag : Bytes) : Option Bytes :=
  (tag.tails.filterMap fun rest =>
    let opening := ascii "Type=\""
    if opening.isPrefixOf rest then
      let value := (rest.drop opening.length).takeWhile (· ≠ 0x22)
      let name := value.rtakeWhile (· ≠ 0x2f)
      if (rest.drop opening.length).contains 0x22 && value.contains 0x2f && name ≠ [] then some name
      else none
    else none).head?

/-- Reading the relations of a part raises where the name of a type is no UTF-8. -/
def relationsRaise (data : Bytes) : Bool :=
  (relationships data.length data).any fun tag =>
    contains (ascii "TargetMode=\"External\"") tag && (typeName tag).any fun name => !isUtf8 name

/-- The parts gone through, each embedded file handed on. -/
def walkParts (depth : Nat) : List File → List File → List File × Option Text
  | [], files => (files, none)
  | part :: parts, files =>
      let path := lower part.name
      if !endsWith path "vbaproject.bin" && !startsWith path "xl/macrosheets/" &&
          endsWith path ".rels" && relationsRaise part.data then
        (files, some "UnicodeDecodeError".toList)
      else if isEmbedding path ∧ depth < maxDepth ∧ files.length < maxChildren then
        walkParts depth parts (files ++ [part])
      else walkParts depth parts files

/-- `_scan_ooxml`. -/
def walkOoxml (readers : Readers) (data : Bytes) (depth : Nat) : Walk :=
  match zipMembers readers data with
  | .error name => .failed [] name
  | .ok (members, walk) =>
      match readParts readers data members maxUnpacked [] with
      | .error name => .failed [] name
      | .ok parts =>
          let (files, raised) := walkParts depth parts []
          { walk with files, raised }

/-! ## RTF -/

/-- The contents of `\objdata`, each up to the next closing brace. -/
def objectBlobs : Nat → Bytes → List Bytes
  | 0, _ => []
  | fuel + 1, data =>
      let opening := ascii "\\objdata"
      match fromFirst opening data with
      | none => []
      | some rest =>
          let after := rest.drop opening.length
          if after.head?.any isWordByte then objectBlobs fuel after
          else after.takeWhile (· ≠ 0x7d) :: objectBlobs fuel (after.dropWhile (· ≠ 0x7d))

def hexValue (byte : UInt8) : Option UInt8 :=
  if 0x30 ≤ byte ∧ byte ≤ 0x39 then some (byte - 0x30)
  else if 0x41 ≤ byte ∧ byte ≤ 0x46 then some (byte - 0x37)
  else if 0x61 ≤ byte ∧ byte ≤ 0x66 then some (byte - 0x57)
  else none

/-- `bytes.fromhex` of digits, an odd one at the end left out. -/
def fromHex : List UInt8 → Bytes
  | high :: low :: digits => (high * 16 + low) :: fromHex digits
  | _ => []

/-- The file an object of an RTF document holds. -/
def objectFile (raw : Bytes) : Option File :=
  match fromFirst oleMagic raw with
  | some document => some ⟨"(embedded object)".toList, document⟩
  | none =>
      if contains (ascii "Package") (raw.take 200) then
        (fromFirst (ascii "Package") raw).bind fun rest => ole10native (rest.drop 12)
      else none

/-- `_scan_rtf`; the first ten objects are looked into. -/
def walkRtf (data : Bytes) (depth : Nat) : Walk :=
  let head := data.take maxMember
  let blobs := (objectBlobs head.length head).take 10
  let raws := blobs.map fun blob => fromHex (blob.filterMap hexValue)
  .done (if depth < maxDepth then (raws.filterMap objectFile).take maxChildren else [])

/-! ## One file -/

/-- `str.removesuffix(".gz")`. -/
def withoutGz (name : Text) : Text := if endsWith name ".gz" then name.take (name.length - 3) else name

/-- What `scan` makes of a file of a kind, apart from going into what it holds. -/
def walkOf (readers : Readers) (kind : Kind) (data : Bytes) (name : Option Text) (depth : Nat) : Walk :=
  match kind with
  | .pdf =>
      match readers.pdf data with
      | .error name => .failed [] name
      | .ok pdf =>
          { files := if depth < maxDepth then (pdf.embedded.take maxChildren).map fun blob =>
              ⟨"(file inside the PDF)".toList, blob⟩ else []
            state := if pdf.partly.isSome then .partly else .scanned
            reason := pdf.partly
            raised := none }
  | .ole => walkOle readers data
  | .ooxml => walkOoxml readers data depth
  | .zip => walkZip readers data depth
  | .rtf => walkRtf data depth
  | .gzip =>
      match readers.inflate data maxMember with
      | .error name => .failed [] name
      | .ok inner =>
          .done (if depth < maxDepth then
            [⟨withoutGz ((name.filter (· ≠ [])).getD "file".toList), inner⟩] else [])
  | .rar | .sevenZip | .cab =>
      { files := []
        state := .unmeasured
        reason := some ("A ".toList ++ kind.label ++ " is not opened here.".toList)
        raised := none }
  | _ => .done []

end FileScan
end DomainLens
