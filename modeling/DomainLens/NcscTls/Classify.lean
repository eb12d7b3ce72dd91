import DomainLens.DnsTools

/-!
# The rating of a cipher suite

A suite is rated by its name alone.  Four parts are read from it, each by the words it holds, and the
worst of them is the rating of the suite.
-/

namespace DomainLens
namespace NcscTls

open Python
open DnsTools (replace)

/-! ## Levels -/

inductive Level where
  | good
  | sufficient
  | phasedOut
  | insufficient
  | unknown
deriving DecidableEq

/-- `_LEVEL_RANK`. -/
def Level.rank : Level → Nat
  | .good => 0
  | .sufficient => 1
  | .phasedOut => 2
  | .insufficient => 3
  | .unknown => 2

/-- `_LEVEL_LABEL`. -/
def Level.label : Level → String
  | .good => "Good"
  | .sufficient => "Sufficient"
  | .phasedOut => "To be phased out"
  | .insufficient => "Insufficient"
  | .unknown => "Unknown"

/-- `_worst`: of levels that are equally bad the first. -/
def worst : List Level → Level
  | [] => .unknown
  | first :: rest =>
      rest.foldl (fun worse level => if worse.rank < level.rank then level else worse) first

private theorem foldl_worse (worse : Level) (levels : List Level) :
    levels.foldl (fun worse level => if worse.rank < level.rank then level else worse) worse ∈
        worse :: levels ∧
      ∀ level ∈ worse :: levels, level.rank ≤
        (levels.foldl (fun worse level => if worse.rank < level.rank then level else worse)
          worse).rank := by
  induction levels generalizing worse with
  | nil => exact ⟨List.mem_cons_self, fun level member => by rw [List.mem_singleton.mp member]; rfl⟩
  | cons next levels induction =>
      rw [List.foldl_cons]
      obtain ⟨isOne, bounds⟩ := induction (if worse.rank < next.rank then next else worse)
      have most := bounds _ List.mem_cons_self
      refine ⟨?_, ?_⟩
      · rcases List.mem_cons.mp isOne with same | later
        · rw [same]
          split_ifs
          · exact List.mem_cons_of_mem _ List.mem_cons_self
          · exact List.mem_cons_self
        · exact List.mem_cons_of_mem _ (List.mem_cons_of_mem _ later)
      · intro level member
        rcases List.mem_cons.mp member with rfl | member
        · split_ifs at most ⊢ <;> omega
        · rcases List.mem_cons.mp member with rfl | member
          · split_ifs at most ⊢ <;> omega
          · exact bounds level (List.mem_cons_of_mem _ member)

theorem worst_mem {levels : List Level} (nonempty : levels ≠ []) : worst levels ∈ levels := by
  cases levels with
  | nil => exact absurd rfl nonempty
  | cons first rest => exact (foldl_worse first rest).1

theorem rank_le_worst {levels : List Level} {level : Level} (member : level ∈ levels) :
    level.rank ≤ (worst levels).rank := by
  cases levels with
  | nil => cases member
  | cons first rest => exact (foldl_worse first rest).2 level member

theorem rank_eq_three {level : Level} (most : 3 ≤ level.rank) : level = .insufficient := by
  cases level with
  | insufficient => rfl
  | _ => exact absurd most (by decide)

theorem worst_eq_insufficient_iff {levels : List Level} :
    worst levels = .insufficient ↔ .insufficient ∈ levels := by
  constructor
  · intro bad
    rw [← bad]
    refine worst_mem ?_
    rintro rfl
    cases bad
  · exact fun member => rank_eq_three (rank_le_worst member)

/-! ## Words in a name -/

/-- `word in text`. -/
def has (word : String) (text : Text) : Bool := text.tails.any word.toList.isPrefixOf

/-- `text.startswith(word)`. -/
def starts (word : String) (text : Text) : Bool := word.toList.isPrefixOf text

/-- A search for a word that has no such character right before it, and none right behind it. -/
def searchApart (before after : Char → Bool) (word : Text) : Option Char → Text → Bool
  | _, [] => false
  | previous, char :: rest =>
      (!previous.any before && word.isPrefixOf (char :: rest) &&
        !((char :: rest).drop word.length).head?.any after) ||
      searchApart before after word (some char) rest

def isCapital (char : Char) : Bool := 'A' ≤ char && char ≤ 'Z'

def isCapitalOrDigit (char : Char) : Bool := isCapital char || ('0' ≤ char && char ≤ '9')

/-- `^(AES-?\\d+-GCM|AES-?\\d+-CCM|CHACHA20)`. -/
def startsBulk (text : Text) : Bool :=
  starts "CHACHA20" text ||
    starts "AES" text &&
      (let rest := text.drop 3
       let digits := if rest.head? = some '-' then rest.drop 1 else rest
       let behind := digits.dropWhile isDecimal
       decide (behind.length < digits.length) && (starts "-GCM" behind || starts "-CCM" behind))

/-- `_normalize_cipher_name`. -/
def normalizeCipherName (name : Text) : Text :=
  let raw := strip name
  if raw = [] then []
  else
    let text := replace " ".toList [] 0 (upper raw)
    let text := replace "TLS_".toList [] 0 text
    let text := replace "_WITH_".toList "-".toList 0 text
    replace "_".toList "-".toList 0 text

/-! ## Parts -/

/-- `_classify_key_exchange` of capital letters. -/
def keyExchangeOf (t : Text) : Level × String :=
  if has "X25519MLKEM" t || has "SECP256R1MLKEM" t || has "SECP384R1MLKEM" t then
    (.good, "hybrid-pq")
  else if has "ECDHE" t || has "EECDH" t then (.sufficient, "ECDHE")
  else if searchApart (· = 'E') (· = 'E') "DHE".toList none t || starts "EDH" t || has "-EDH-" t then
    (.phasedOut, "DHE")
  else if has "ECDH" t && !has "ECDHE" t then (.insufficient, "ECDH")
  else if searchApart (fun char => char = 'E' || char = 'C') (· = 'E') "DH".toList none t then
    (.insufficient, "DH")
  else if has "PSK" t || has "SRP" t || has "KRB5" t || has "NULL" t then (.insufficient, "legacy")
  else if (startsBulk t || starts "AES-256-GCM" t || starts "AES-128-GCM" t ||
      starts "AES-256-CCM" t || starts "AES-128-CCM" t || starts "CHACHA20" t) &&
      !has "ECDHE" t && !has "DHE" t && !has "RSA" t then
    (.good, "TLS1.3-ephemeral")
  else if ["AES", "CAMELLIA", "ARIA", "DES", "3DES", "RC4", "IDEA", "SEED", "NULL"].any (starts · t) &&
      !has "ECDHE" t && !has "DHE" t then
    (.insufficient, "RSA")
  else if has "RSA" t && !has "ECDHE" t && !has "DHE" t then (.insufficient, "RSA")
  else (.sufficient, "unknown")

/-- `_classify_auth` of capital letters. -/
def authOf (t : Text) : Level × String :=
  if has "ANON" t || has "NULL" t then (.insufficient, "anon/null")
  else if has "EXPORT" t then (.insufficient, "EXPORT")
  else if has "PSK" t || has "KRB5" t then (.insufficient, "PSK/KRB5")
  else if has "ECDSA" t || has "EDDSA" t || has "ED25519" t || has "ED448" t then
    (.sufficient, "ECDSA/EdDSA")
  else if searchApart isCapital isCapital "DSS".toList none t ||
      searchApart (fun char => char = 'C' || char = 'E') isCapital "DSA".toList none t then
    (.insufficient, "DSS")
  else if has "RSA" t then (.sufficient, "RSA")
  else if startsBulk t || (has "GCM" t || has "CCM" t || has "CHACHA" t) && !has "ECDHE" t &&
      !has "DHE" t && !has "RSA" t then
    (.good, "certificate")
  else if ["AES", "CAMELLIA", "ARIA", "DES", "3DES", "RC4", "IDEA", "SEED"].any (starts · t) then
    (.sufficient, "RSA")
  else (.sufficient, "unknown")

/-- `_classify_bulk` of capital letters. -/
def bulkOf (t : Text) : Level × String :=
  let cbc (spaced joined : String) (hashes : List String) : Bool :=
    has (spaced ++ "-CBC") t ||
      hashes.any (fun hash => searchApart (fun _ => false) isWordChar
        (joined ++ "-" ++ hash).toList none t) ||
      has joined t && !has "GCM" t && !has "CCM" t
  if has "NULL" t || has "RC4" t || has "IDEA" t ||
      searchApart isCapital isCapital "SEED".toList none t then
    (.insufficient, "legacy-bulk")
  else if has "3DES" t || has "DES-CBC3" t ||
      searchApart isCapitalOrDigit isCapitalOrDigit "DES".toList none t then
    (.insufficient, "3DES/DES")
  else if has "CCM-8" t || has "CCM_8" t || has "CCM8" t then (.insufficient, "AES-CCM_8")
  else if has "CHACHA20" t then (.good, "ChaCha20-Poly1305")
  else if has "AES-256-GCM" t || has "AES256-GCM" t then (.good, "AES-256-GCM")
  else if has "AES-128-GCM" t || has "AES128-GCM" t then (.sufficient, "AES-128-GCM")
  else if has "AES-256-CCM" t || has "AES256-CCM" t then (.sufficient, "AES-256-CCM")
  else if has "AES-128-CCM" t || has "AES128-CCM" t then (.sufficient, "AES-128-CCM")
  else if cbc "AES-256" "AES256" ["SHA", "SHA384"] then (.phasedOut, "AES-256-CBC")
  else if cbc "AES-128" "AES128" ["SHA", "SHA256"] then (.phasedOut, "AES-128-CBC")
  else if has "CAMELLIA" t || has "ARIA" t then (.phasedOut, "CAMELLIA/ARIA")
  else if has "AES" t && has "GCM" t then (.sufficient, "AES-GCM")
  else if has "AES" t then (.phasedOut, "AES-CBC")
  else (.unknown, "unknown")

/-- `_classify_hash` of capital letters. -/
def hashOf (t : Text) : Level × String :=
  if has "MD5" t then (.insufficient, "MD5")
  else if (has "SHA1" t || "-SHA".toList.isSuffixOf t || has "-SHA-" t) &&
      !(has "SHA256" t || has "SHA384" t || has "SHA512" t || has "SHA224" t) then
    (.insufficient, "SHA-1")
  else if has "SHA512" t then (.good, "SHA-512")
  else if has "SHA384" t then (.good, "SHA-384")
  else if has "SHA256" t then (.good, "SHA-256")
  else if has "SHA224" t then (.phasedOut, "SHA-224")
  else if has "GCM" t || has "CHACHA" t || has "CCM" t then (.good, "AEAD")
  else (.sufficient, "unknown")

/-- `_classify_key_exchange`. -/
def classifyKeyExchange (tokens : Text) : Level × String := keyExchangeOf (upper tokens)

/-- `_classify_auth`. -/
def classifyAuth (tokens : Text) : Level × String := authOf (upper tokens)

/-- `_classify_bulk`. -/
def classifyBulk (tokens : Text) : Level × String := bulkOf (upper tokens)

/-- `_classify_hash`. -/
def classifyHash (tokens : Text) : Level × String := hashOf (upper tokens)

structure Classified where
  name : Text
  normalized : Text
  level : Level
  label : String
  keyExchange : Level × String
  authentication : Level × String
  bulkEncryption : Level × String
  hash : Level × String

/-- `classify_cipher_suite`. -/
def classifyCipherSuite (name : Text) : Classified :=
  let normalized := normalizeCipherName name
  let kx := classifyKeyExchange normalized
  let auth := classifyAuth normalized
  let bulk := classifyBulk normalized
  let hash := classifyHash normalized
  let level := worst [kx.1, auth.1, bulk.1, hash.1]
  { name, normalized, level, label := level.label, keyExchange := kx, authentication := auth
    bulkEncryption := bulk, hash }

end NcscTls
end DomainLens
