import DomainLens.Python.CaseMapping
import Mathlib

/-!
# Files and what they are

A file is its bytes.  What kind of file it is goes by the first of them, never by its name; libraries
say what an archive lists and what a document holds.
-/

namespace DomainLens
namespace FileScan

open Python

abbrev Bytes := List UInt8

/-! ## Reading bytes -/

def ascii (text : String) : Bytes := text.toList.map Char.toUInt8

/-- `needle in data`. -/
def contains (needle data : Bytes) : Bool := data.tails.any needle.isPrefixOf

/-- What follows the first place of some bytes, these included. -/
def fromFirst (needle : Bytes) (data : Bytes) : Option Bytes := data.tails.find? needle.isPrefixOf

/-- The characters ASCII counts as space. -/
def isSpaceByte (byte : UInt8) : Bool := byte ∈ [0x20, 0x09, 0x0a, 0x0d, 0x0b, 0x0c]

/-- `bytes.lower` of one byte. -/
def lowerByte (byte : UInt8) : UInt8 := if 0x41 ≤ byte ∧ byte ≤ 0x5a then byte + 0x20 else byte

/-- `\w` of a pattern over bytes. -/
def isWordByte (byte : UInt8) : Bool :=
  (0x30 ≤ byte && byte ≤ 0x39) || (0x41 ≤ byte && byte ≤ 0x5a) || (0x61 ≤ byte && byte ≤ 0x7a) ||
    byte == 0x5f

def isUtf8 (data : Bytes) : Bool := (String.fromUTF8? ⟨data.toArray⟩).isSome

def latin1 (data : Bytes) : Text := data.map fun byte => Char.ofNat byte.toNat

/-- `struct.unpack_from("<I", data, pos)`. -/
def word32 (data : Bytes) (pos : Nat) : Option Nat :=
  match data.drop pos with
  | first :: second :: third :: fourth :: _ =>
      some (first.toNat + 2 ^ 8 * second.toNat + 2 ^ 16 * third.toNat + 2 ^ 24 * fourth.toNat)
  | _ => none

/-- `data.index(b"\x00", pos)`. -/
def indexZero (data : Bytes) (pos : Nat) : Option Nat :=
  if pos ≤ data.length then ((data.drop pos).findIdx? (· = 0)).map (pos + ·) else none

/-! ## Kinds of files -/

inductive Kind where
  | pdf
  | ole
  | ooxml
  | zip
  | rtf
  | html
  | pe
  | elf
  | macho
  | lnk
  | iso
  | rar
  | sevenZip
  | gzip
  | cab
  | image
  | text
  | script
  | unknown
deriving DecidableEq

/-- `_LABELS`. -/
def Kind.label : Kind → Text
  | .pdf => "PDF".toList
  | .ole => "Office document (older format) or OLE file".toList
  | .ooxml => "Office document".toList
  | .zip => "ZIP archive".toList
  | .rtf => "RTF document".toList
  | .html => "web page".toList
  | .pe => "Windows program".toList
  | .elf => "Linux program".toList
  | .macho => "macOS program".toList
  | .lnk => "Windows shortcut".toList
  | .iso => "disk image".toList
  | .rar => "RAR archive".toList
  | .sevenZip => "7-Zip archive".toList
  | .gzip => "gzip archive".toList
  | .cab => "cabinet archive".toList
  | .image => "image".toList
  | .text => "text".toList
  | .script => "script file".toList
  | .unknown => "unknown type".toList

/-! ## The libraries -/

/-- What a call gives, or the name of the exception it raises. -/
abbrev Raises (Value : Type) := Except Text Value

/-- A member of a ZIP archive as it is listed. -/
structure Member where
  filename : Text
  fileSize : Nat
  compressSize : Nat
  encrypted : Bool
  isDir : Bool

/-- The listing of a ZIP archive; some exceptions say that it is none. -/
inductive Archive where
  | listed (members : List Member)
  | unreadable
  | raised (name : Text)

/-- An OLE file: the paths of its streams and storages, and what a stream holds. -/
structure Ole where
  entries : List (List Text × Bool)
  stream : List Text → Raises Bytes

/-- What `pdf_scan.scan` says of a PDF, as far as the files inside are concerned. -/
structure Pdf where
  embedded : List Bytes
  partly : Option Text

/-- The readers of the libraries, and that of PDF files. -/
structure Readers where
  zip : Bytes → Archive
  /-- The first bytes of a member, by its place in the listing. -/
  member : Bytes → Nat → Nat → Raises Bytes
  ole : Bytes → Option Ole
  inflate : Bytes → Nat → Raises Bytes
  pdf : Bytes → Raises Pdf

/-! ## The kind by the first bytes -/

/-- `pdf_scan.is_pdf`. -/
def isPdf (data : Bytes) : Bool := contains (ascii "%PDF-") (data.take 1024)

/-- `OLE_MAGIC`. -/
def oleMagic : Bytes := [0xd0, 0xcf, 0x11, 0xe0, 0xa1, 0xb1, 0x1a, 0xe1]

/-- `_LNK_MAGIC`. -/
def lnkMagic : Bytes := [0x4c, 0, 0, 0, 0x01, 0x14, 0x02, 0]

/-- `\s*(@echo off|powershell|wscript|set \w+=)` at the start of bytes without leading space. -/
def beginsScript (stripped : Bytes) : Bool :=
  (["@echo off", "powershell", "wscript"].any fun word => (ascii word).isPrefixOf stripped) ||
    (ascii "set ").isPrefixOf stripped &&
      let rest := stripped.drop 4
      (rest.takeWhile isWordByte ≠ [] && (rest.dropWhile isWordByte).head? = some 0x3d)

def htmlStarts : List String :=
  ["<!doctype html", "<html", "<head", "<body", "<script", "<svg", "<form"]

/-- The magic numbers that settle a kind by themselves, in the order they are tried. -/
def magics : List (List Bytes × Kind) :=
  [([ascii "MZ"], .pe), ([0x7f :: ascii "ELF"], .elf),
    ([[0xcf, 0xfa, 0xed, 0xfe], [0xce, 0xfa, 0xed, 0xfe], [0xca, 0xfe, 0xba, 0xbe]], .macho),
    ([lnkMagic], .lnk)]

/-- The magic numbers tried after that of a disk image. -/
def laterMagics : List (List Bytes × Kind) :=
  [([ascii "Rar!"], .rar), ([[0x37, 0x7a, 0xbc, 0xaf, 0x27, 0x1c]], .sevenZip), ([[0x1f, 0x8b]], .gzip),
    ([ascii "MSCF"], .cab),
    ([0x89 :: ascii "PNG", [0xff, 0xd8, 0xff], ascii "GIF8", ascii "BM"], .image)]

/-- The kind of the first magic number some bytes start with. -/
def byMagic (table : List (List Bytes × Kind)) (head : Bytes) : Option Kind :=
  (table.find? fun entry => entry.1.any fun magic => magic.isPrefixOf head).map Prod.snd

def sniffText (head : Bytes) : Kind :=
  let stripped := (head.dropWhile isSpaceByte).map lowerByte
  if (htmlStarts.any fun start => (ascii start).isPrefixOf stripped) ||
      contains (ascii "<html") (stripped.take 1024) ||
      contains (ascii "<script") (stripped.take 1024) then .html
  else if (ascii "#!").isPrefixOf stripped || beginsScript stripped then .script
  else if isUtf8 head then .text
  else .unknown

/-- `sniff`. -/
def sniff (readers : Readers) (data : Bytes) : Raises Kind :=
  let head := data.take 4096
  if isPdf data then .ok .pdf
  else if oleMagic.isPrefixOf head then .ok .ole
  else if (0x50 :: 0x4b :: [0x03, 0x04]).isPrefixOf head || (0x50 :: 0x4b :: [0x05, 0x06]).isPrefixOf head then
    match readers.zip data with
    | .listed members =>
        if members.any fun member => member.filename = "[Content_Types].xml".toList then .ok .ooxml
        else .ok .zip
    | .unreadable => .ok .zip
    | .raised name => .error name
  else if (ascii "\x7b\\rt").isPrefixOf head then .ok .rtf
  else
    match byMagic magics head with
    | some kind => .ok kind
    | none =>
        if 0x8006 < data.length ∧ (data.drop 0x8001).take 5 = ascii "CD001" then .ok .iso
        else .ok ((byMagic laterMagics head).getD (sniffText head))

end FileScan
end DomainLens
