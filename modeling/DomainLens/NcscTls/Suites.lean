import DomainLens.Library.Words
import DomainLens.NcscTls.Classify

/-!
# Cipher suites and their names

A suite of TLS 1.2 or before is a way to exchange keys and a cipher with its hash.  It has a name in
the registry and another in OpenSSL, where the exchange of keys by RSA alone goes without saying.
-/

namespace DomainLens
namespace NcscTls

open Python Words
open DnsTools (replace)

/-! ## Suites -/

inductive OldMac where
  | md5
  | sha
deriving DecidableEq

inductive ShaMac where
  | sha
  | sha256
  | sha384
deriving DecidableEq

inductive OldCipher where
  | rc4
  | rc2
  | idea
  | des
  | tripleDes
  | seed
deriving DecidableEq

inductive Family where
  | aes
  | camellia
  | aria
deriving DecidableEq

inductive KeySize where
  | bits128
  | bits256
deriving DecidableEq

inductive Cipher where
  | nullMd5
  | null (mac : ShaMac)
  | old (cipher : OldCipher) (mac : OldMac)
  | cbc (family : Family) (size : KeySize) (mac : ShaMac)
  | gcm (family : Family) (size : KeySize)
  | ccm (size : KeySize) (short : Bool)
  | chacha20
deriving DecidableEq

inductive Exchange where
  | rsa
  | rsaPsk
  | dhAnon
  | ecdhAnon
  | dhRsa
  | dhDss
  | dheRsa
  | dheDss
  | ecdhRsa
  | ecdhEcdsa
  | ecdheRsa
  | ecdheEcdsa
  | psk
  | dhePsk
  | ecdhePsk
  | krb5
  | srp
  | srpRsa
  | srpDss
deriving DecidableEq

inductive ExportExchange where
  | rsa
  | dhAnon
  | dhRsa
  | dhDss
  | dheRsa
  | dheDss
  | krb5
deriving DecidableEq

inductive ExportCipher where
  | rc4
  | rc2
  | des
  | des40
deriving DecidableEq

/-- A suite; `longer` tells the later export suites from the first ones.  ChaCha20 came after the
exchange of keys by RSA alone. -/
inductive Suite where
  | plain (exchange : Exchange) (cipher : Cipher) (fits : exchange = .rsa → cipher ≠ .chacha20)
  | exported (exchange : ExportExchange) (longer : Bool) (cipher : ExportCipher) (mac : OldMac)

/-- Static RSA key exchange, an export, NULL, RC4 or anonymous suite. -/
def Suite.IsBad : Suite → Prop
  | .plain exchange cipher _ =>
      exchange ∈ [.rsa, .rsaPsk, .dhAnon, .ecdhAnon] ∨ cipher = .nullMd5 ∨
        (∃ mac, cipher = .null mac) ∨ ∃ mac, cipher = .old .rc4 mac
  | .exported _ _ _ _ => True

/-! ## Names -/

def OldMac.word : OldMac → String
  | .md5 => "MD5"
  | .sha => "SHA"

def ShaMac.word : ShaMac → String
  | .sha => "SHA"
  | .sha256 => "SHA256"
  | .sha384 => "SHA384"

def KeySize.word : KeySize → String
  | .bits128 => "128"
  | .bits256 => "256"

def KeySize.hash : KeySize → String
  | .bits128 => "SHA256"
  | .bits256 => "SHA384"

def Family.word : Family → String
  | .aes => "AES"
  | .camellia => "CAMELLIA"
  | .aria => "ARIA"

def OldCipher.iana : OldCipher → String
  | .rc4 => "RC4_128"
  | .rc2 => "RC2_CBC_128"
  | .idea => "IDEA_CBC"
  | .des => "DES_CBC"
  | .tripleDes => "3DES_EDE_CBC"
  | .seed => "SEED_CBC"

def OldCipher.openssl : OldCipher → String
  | .rc4 => "RC4"
  | .rc2 => "RC2-CBC"
  | .idea => "IDEA-CBC"
  | .des => "DES-CBC"
  | .tripleDes => "DES-CBC3"
  | .seed => "SEED"

/-- The words of a name, one behind the other. -/
def spell (words : List String) : Text := words.flatMap String.toList

def Cipher.iana : Cipher → Text
  | .nullMd5 => spell ["NULL_MD5"]
  | .null mac => spell ["NULL_", mac.word]
  | .old cipher mac => spell [cipher.iana, "_", mac.word]
  | .cbc family size mac => spell [family.word, "_", size.word, "_CBC_", mac.word]
  | .gcm family size => spell [family.word, "_", size.word, "_GCM_", size.hash]
  | .ccm size short => spell ["AES_", size.word, if short then "_CCM_8" else "_CCM"]
  | .chacha20 => spell ["CHACHA20_POLY1305_SHA256"]

def Cipher.openssl : Cipher → Text
  | .nullMd5 => spell ["NULL-MD5"]
  | .null mac => spell ["NULL-", mac.word]
  | .old cipher mac => spell [cipher.openssl, "-", mac.word]
  | .cbc family size mac => spell [family.word, size.word, "-", mac.word]
  | .gcm family size => spell [family.word, size.word, "-GCM-", size.hash]
  | .ccm size short => spell ["AES", size.word, if short then "-CCM8" else "-CCM"]
  | .chacha20 => spell ["CHACHA20-POLY1305"]

def Exchange.iana : Exchange → String
  | .rsa => "RSA"
  | .rsaPsk => "RSA_PSK"
  | .dhAnon => "DH_anon"
  | .ecdhAnon => "ECDH_anon"
  | .dhRsa => "DH_RSA"
  | .dhDss => "DH_DSS"
  | .dheRsa => "DHE_RSA"
  | .dheDss => "DHE_DSS"
  | .ecdhRsa => "ECDH_RSA"
  | .ecdhEcdsa => "ECDH_ECDSA"
  | .ecdheRsa => "ECDHE_RSA"
  | .ecdheEcdsa => "ECDHE_ECDSA"
  | .psk => "PSK"
  | .dhePsk => "DHE_PSK"
  | .ecdhePsk => "ECDHE_PSK"
  | .krb5 => "KRB5"
  | .srp => "SRP_SHA"
  | .srpRsa => "SRP_SHA_RSA"
  | .srpDss => "SRP_SHA_DSS"

def Exchange.openssl : Exchange → String
  | .rsa => ""
  | .rsaPsk => "RSA-PSK-"
  | .dhAnon => "ADH-"
  | .ecdhAnon => "AECDH-"
  | .dhRsa => "DH-RSA-"
  | .dhDss => "DH-DSS-"
  | .dheRsa => "DHE-RSA-"
  | .dheDss => "DHE-DSS-"
  | .ecdhRsa => "ECDH-RSA-"
  | .ecdhEcdsa => "ECDH-ECDSA-"
  | .ecdheRsa => "ECDHE-RSA-"
  | .ecdheEcdsa => "ECDHE-ECDSA-"
  | .psk => "PSK-"
  | .dhePsk => "DHE-PSK-"
  | .ecdhePsk => "ECDHE-PSK-"
  | .krb5 => "KRB5-"
  | .srp => "SRP-"
  | .srpRsa => "SRP-RSA-"
  | .srpDss => "SRP-DSS-"

def ExportExchange.iana : ExportExchange → String
  | .rsa => "RSA"
  | .dhAnon => "DH_anon"
  | .dhRsa => "DH_RSA"
  | .dhDss => "DH_DSS"
  | .dheRsa => "DHE_RSA"
  | .dheDss => "DHE_DSS"
  | .krb5 => "KRB5"

def ExportExchange.openssl : ExportExchange → Bool → String
  | .rsa, _ => ""
  | .dhAnon, _ => "ADH-"
  | .dhRsa, _ => "DH-RSA-"
  | .dhDss, _ => "DH-DSS-"
  | .dheRsa, false => "EDH-RSA-"
  | .dheRsa, true => "DHE-RSA-"
  | .dheDss, false => "EDH-DSS-"
  | .dheDss, true => "DHE-DSS-"
  | .krb5, _ => "KRB5-"

def ExportCipher.iana : ExportCipher → Bool → String
  | .rc4, false => "RC4_40"
  | .rc4, true => "RC4_56"
  | .rc2, false => "RC2_CBC_40"
  | .rc2, true => "RC2_CBC_56"
  | .des, false => "DES_CBC_40"
  | .des, true => "DES_CBC"
  | .des40, _ => "DES40_CBC"

def ExportCipher.openssl : ExportCipher → String
  | .rc4 => "RC4"
  | .rc2 => "RC2-CBC"
  | .des => "DES-CBC"
  | .des40 => "DES-CBC"

/-- The part of a name of the registry before `_WITH_`. -/
def Suite.ianaExchange : Suite → Text
  | .plain exchange _ _ => spell [exchange.iana]
  | .exported exchange longer _ _ =>
      spell [exchange.iana, if longer then "_EXPORT1024" else "_EXPORT"]

/-- The part of a name of the registry behind `_WITH_`. -/
def Suite.ianaCipher : Suite → Text
  | .plain _ cipher _ => cipher.iana
  | .exported _ longer cipher mac => spell [cipher.iana longer, "_", mac.word]

def Suite.iana (suite : Suite) : Text :=
  "TLS_".toList ++ (suite.ianaExchange ++ ("_WITH_".toList ++ suite.ianaCipher))

def Suite.openssl : Suite → Text
  | .plain exchange cipher _ => exchange.openssl.toList ++ cipher.openssl
  | .exported exchange longer cipher mac =>
      spell [if longer then "EXP1024-" else "EXP-", exchange.openssl longer, cipher.openssl, "-",
        mac.word]

inductive Naming where
  | iana
  | openssl
deriving DecidableEq

def Suite.name (suite : Suite) : Naming → Text
  | .iana => suite.iana
  | .openssl => suite.openssl

/-- The OpenSSL names of static RSA suites that look like suites of TLS 1.3. -/
def masked : List Text :=
  ["AES128-GCM-SHA256".toList, "AES256-GCM-SHA384".toList, "AES128-CCM".toList,
    "AES256-CCM".toList]

/-! ## Words that tell -/

theorem has_iff {word : String} {text : Text} : has word text = true ↔ word.toList <:+: text := by
  rw [has, List.any_eq_true, List.infix_iff_prefix_suffix]
  refine exists_congr fun rest => ?_
  rw [List.mem_tails, List.isPrefixOf_iff_prefix, and_comm]

theorem has_eq_false {word : String} {text : Text} (outside : ¬ word.toList <:+: text) :
    has word text = false := by
  rw [← Bool.not_eq_true, has_iff]
  exact outside

theorem has_false_of_part {part word : String} {text : Text}
    (clean : ¬ part.toList <:+: text) (inside : has part word.toList = true) :
    has word text = false :=
  has_eq_false fun found => clean ((has_iff.mp inside).trans found)

variable {t : Text}

theorem searchApart_false {before after : Char → Bool} {word : Text} (previous : Option Char)
    (outside : ¬ word <:+: t) : searchApart before after word previous t = false := by
  induction t generalizing previous with
  | nil => rfl
  | cons char rest induction =>
      have notHere : word.isPrefixOf (char :: rest) = false := by
        rw [← Bool.not_eq_true, List.isPrefixOf_iff_prefix]
        exact fun starts => outside starts.isInfix
      rw [searchApart, notHere, Bool.and_false, Bool.false_and, Bool.false_or]
      exact induction (some char) fun found => outside (found.trans (List.suffix_cons _ _).isInfix)

theorem authOf_nameless (named : has "ANON" t = true ∨ has "NULL" t = true) :
    (authOf t).1 = .insufficient := by
  rw [authOf, if_pos (by rwa [Bool.or_eq_true])]

theorem authOf_export (named : has "EXPORT" t = true) : (authOf t).1 = .insufficient := by
  rw [authOf, if_pos named]
  split_ifs <;> rfl

theorem bulkOf_rc4 (named : has "RC4" t = true) : (bulkOf t).1 = .insufficient := by
  simp only [bulkOf, named, Bool.or_true, Bool.true_or, if_true]

theorem hashOf_md5 (named : has "MD5" t = true) : (hashOf t).1 = .insufficient := by
  rw [hashOf, if_pos named]

/-- No word for an ephemeral exchange of keys is there. -/
structure Static (t : Text) : Prop where
  noDh : ¬ "DH".toList <:+: t
  noKem : ¬ "MLKEM".toList <:+: t

theorem dh_words : has "DH" "ECDHE".toList = true ∧ has "DH" "EECDH".toList = true ∧
    has "DH" "DHE".toList = true ∧ has "DH" "EDH".toList = true ∧
    has "DH" "-EDH-".toList = true ∧ has "DH" "ECDH".toList = true ∧
    has "MLKEM" "X25519MLKEM".toList = true ∧ has "MLKEM" "SECP256R1MLKEM".toList = true ∧
    has "MLKEM" "SECP384R1MLKEM".toList = true := by decide

theorem keyExchangeOf_static (static : Static t) :
    keyExchangeOf t =
      if has "PSK" t || has "SRP" t || has "KRB5" t || has "NULL" t then (.insufficient, "legacy")
      else if (startsBulk t || starts "AES-256-GCM" t || starts "AES-128-GCM" t ||
          starts "AES-256-CCM" t || starts "AES-128-CCM" t || starts "CHACHA20" t) &&
          !has "RSA" t then
        (.good, "TLS1.3-ephemeral")
      else if ["AES", "CAMELLIA", "ARIA", "DES", "3DES", "RC4", "IDEA", "SEED", "NULL"].any
          (starts · t) then
        (.insufficient, "RSA")
      else if has "RSA" t then (.insufficient, "RSA")
      else (.sufficient, "unknown") := by
  obtain ⟨ecdhe, eecdh, dhe, edh, edhInside, ecdh, firstKem, secondKem, thirdKem⟩ := dh_words
  have notEdh : starts "EDH" t = false := by
    rw [← Bool.not_eq_true, starts, List.isPrefixOf_iff_prefix]
    exact fun first => static.noDh ((has_iff.mp edh).trans first.isInfix)
  have noDhe : searchApart (· = 'E') (· = 'E') "DHE".toList none t = false :=
    searchApart_false none fun found => static.noDh ((has_iff.mp dhe).trans found)
  have noDh : searchApart (fun char => char = 'E' || char = 'C') (· = 'E') "DH".toList none t =
      false := searchApart_false none static.noDh
  rw [keyExchangeOf, has_false_of_part static.noKem firstKem,
    has_false_of_part static.noKem secondKem, has_false_of_part static.noKem thirdKem,
    has_false_of_part static.noDh ecdhe, has_false_of_part static.noDh eecdh,
    has_false_of_part static.noDh edhInside, has_false_of_part static.noDh ecdh,
    has_false_of_part static.noDh dhe, notEdh, noDhe, noDh]
  simp only [Bool.or_false, Bool.false_eq_true, if_false, Bool.not_false, Bool.and_true]

theorem keyExchangeOf_rsa (static : Static t) (named : has "RSA" t = true) :
    (keyExchangeOf t).1 = .insufficient := by
  rw [keyExchangeOf_static static, named]
  simp only [Bool.not_true, Bool.and_false, Bool.false_eq_true, if_false, if_true]
  split_ifs <;> rfl

/-! ## Names are normalised -/

def isNameChar (char : Char) : Bool :=
  isCapitalOrDigit char || char = '-' || char = '_' || char = 'a' || char = 'n' || char = 'o'

private theorem nameChars_checked :
    ((List.range 128).map Char.ofNat).all (fun char =>
      !isNameChar char || upperChar char == [char.toUpper] && !isSpace char) = true := by
  decide

private theorem nameChar_facts {char : Char} (isName : isNameChar char = true) :
    upperChar char = [char.toUpper] ∧ isSpace char = false := by
  have ascii : char.toNat < 128 := by
    simp only [isNameChar, isCapitalOrDigit, isCapital, Bool.or_eq_true, Bool.and_eq_true,
      decide_eq_true_eq, Char.le_def, UInt32.le_iff_toNat_le] at isName
    rcases isName with (((((⟨-, most⟩ | ⟨-, most⟩) | rfl) | rfl) | rfl) | rfl) | rfl
    · exact lt_of_le_of_lt most (by decide)
    · exact lt_of_le_of_lt most (by decide)
    all_goals decide
  have member : char ∈ (List.range 128).map Char.ofNat :=
    List.mem_map.mpr ⟨char.toNat, List.mem_range.mpr ascii, Char.ofNat_toNat char⟩
  have checked := List.all_eq_true.mp nameChars_checked char member
  rw [isName, Bool.not_true, Bool.false_or, Bool.and_eq_true, Bool.not_eq_true'] at checked
  exact ⟨eq_of_beq checked.1, checked.2⟩

theorem upper_of_name (name : t.all isNameChar = true) : upper t = t.map Char.toUpper := by
  rw [upper, List.flatMap_congr fun char member =>
    (nameChar_facts (List.all_eq_true.mp name char member)).1, ← List.map_eq_flatMap]

theorem replace_of_not_mem {old new : Text} {char : Char} (isOld : char ∈ old) (outside : char ∉ t) :
    replace old new 0 t = t := by
  induction t with
  | nil => rfl
  | cons head rest induction =>
      have notHere : ¬ old.isPrefixOf (head :: rest) = true :=
        fun starts => outside ((List.isPrefixOf_iff_prefix.mp starts).subset isOld)
      rw [replace, if_neg notHere, induction fun member => outside (List.mem_cons_of_mem _ member)]

private theorem replace_skip (old new front behind : Text) :
    replace old new front.length (front ++ behind) = replace old new 0 behind := by
  induction front with
  | nil => rfl
  | cons char front induction => exact induction

theorem replace_front {old new : Text} (some : old ≠ []) (behind : Text) :
    replace old new 0 (old ++ behind) = new ++ replace old new 0 behind := by
  cases old with
  | nil => exact absurd rfl some
  | cons first old =>
      have here : (first :: old).isPrefixOf (first :: (old ++ behind)) = true :=
        List.isPrefixOf_iff_prefix.mpr (List.prefix_append (first :: old) behind)
      rw [List.cons_append, replace, if_pos here, List.length_cons, Nat.add_sub_cancel, replace_skip]

theorem replace_of_not_infix {old new : Text} (outside : ¬ old <:+: t) :
    replace old new 0 t = t := by
  induction t with
  | nil => rfl
  | cons head rest induction =>
      have notHere : ¬ old.isPrefixOf (head :: rest) = true :=
        fun starts => outside (List.isPrefixOf_iff_prefix.mp starts).isInfix
      rw [replace, if_neg notHere,
        induction fun found => outside (found.trans (List.suffix_cons _ _).isInfix)]

theorem replace_behind {first second : Char} {old new front : Text} (apart : first ≠ second)
    (clean : second ∉ front) (behind : Text) :
    replace (first :: second :: old) new 0 (front ++ (first :: second :: old ++ behind)) =
      front ++ (new ++ replace (first :: second :: old) new 0 behind) := by
  induction front with
  | nil => exact replace_front (List.cons_ne_nil _ _) behind
  | cons head front induction =>
      have notHere : ¬ (first :: second :: old).isPrefixOf
          (head :: (front ++ (first :: second :: old ++ behind))) = true := by
        rw [List.isPrefixOf_iff_prefix]
        intro starts
        have next := (List.cons_prefix_cons.mp starts).2
        cases front with
        | nil => exact apart.symm (List.cons_prefix_cons.mp next).1
        | cons char front =>
            exact clean (List.mem_cons_of_mem _ ((List.cons_prefix_cons.mp next).1 ▸
              List.mem_cons_self))
      rw [List.cons_append, replace, if_neg notHere,
        induction fun member => clean (List.mem_cons_of_mem _ member), List.cons_append]

/-- `text.replace("_", "-")`. -/
def dashed (text : Text) : Text := text.map fun char => if char = '_' then '-' else char

theorem replace_dash : replace "_".toList "-".toList 0 t = dashed t := by
  induction t with
  | nil => rfl
  | cons head rest induction =>
      rw [replace, induction, dashed, dashed, List.map_cons]
      by_cases isDash : head = '_'
      · have here : "_".toList.isPrefixOf ('_' :: rest) = true := rfl
        rw [isDash, if_pos here, if_pos rfl, ← dashed, ← induction]
        rfl
      · have notHere : ¬ "_".toList.isPrefixOf (head :: rest) = true := by
          rw [List.isPrefixOf_iff_prefix]
          exact fun starts => isDash (List.cons_prefix_cons.mp starts).1.symm
        rw [if_neg notHere, if_neg isDash]

/-- A character of names that is its own capital. -/
def isBig (char : Char) : Bool := isNameChar char && char.toUpper == char

theorem upper_of_big (big : t.all isBig = true) : upper t = t := by
  have each : ∀ char ∈ t, isNameChar char = true ∧ char.toUpper = char := by
    intro char member
    have isBig := List.all_eq_true.mp big char member
    rw [NcscTls.isBig, Bool.and_eq_true] at isBig
    exact ⟨isBig.1, eq_of_beq isBig.2⟩
  rw [upper_of_name (List.all_eq_true.mpr fun char member => (each char member).1)]
  exact (List.map_congr_left fun char member => (each char member).2).trans (List.map_id t)

/-- What the first part of a name of the registry is made of. -/
def exchangeChecked (text : Text) : Bool :=
  let capital := text.map Char.toUpper
  text.all isNameChar && capital.all (fun char => isBig char && char != 'W') &&
    !has "TLS" capital && (dashed capital).all isBig

def cipherChecked (text : Text) : Bool :=
  text.all (fun char => isBig char && char != 'W') && !has "TLS" text && (dashed text).all isBig &&
    !has "DH" (dashed text) && !has "MLKEM" (dashed text)

private theorem exchange_checked (exchange : Exchange) :
    exchangeChecked (spell [exchange.iana]) = true := by
  cases exchange <;> decide

theorem exportExchange_checked (exchange : ExportExchange) (longer : Bool) :
    exchangeChecked (spell [exchange.iana, if longer then "_EXPORT1024" else "_EXPORT"]) = true ∧
      has "EXPORT" (dashed ((spell [exchange.iana, if longer then "_EXPORT1024" else "_EXPORT"]).map
        Char.toUpper)) = true := by
  cases exchange <;> cases longer <;> decide

private theorem cipher_checked (cipher : Cipher) : cipherChecked cipher.iana = true := by
  cases cipher with
  | nullMd5 => decide
  | null mac => cases mac <;> decide
  | old cipher mac => cases cipher <;> cases mac <;> decide
  | cbc family size mac => cases family <;> cases size <;> cases mac <;> decide
  | gcm family size => cases family <;> cases size <;> decide
  | ccm size short => cases size <;> cases short <;> decide
  | chacha20 => decide

private theorem exportCipher_checked (cipher : ExportCipher) (longer : Bool) (mac : OldMac) :
    cipherChecked (spell [cipher.iana longer, "_", mac.word]) = true := by
  cases cipher <;> cases longer <;> cases mac <;> decide

theorem Suite.ianaExchange_checked (suite : Suite) : exchangeChecked suite.ianaExchange = true := by
  cases suite with
  | plain exchange _ _ => exact exchange_checked exchange
  | exported exchange longer _ _ => exact (exportExchange_checked exchange longer).1

theorem Suite.ianaCipher_checked (suite : Suite) : cipherChecked suite.ianaCipher = true := by
  cases suite with
  | plain _ cipher _ => exact cipher_checked cipher
  | exported _ longer cipher mac => exact exportCipher_checked cipher longer mac

private theorem words_checked : "TLS_".toList.all isBig = true ∧ "_WITH_".toList.all isBig = true ∧
    has "TLS" "TLS_".toList = true ∧ "TLS".toList.all (· != '_') = true ∧
    has "TLS" "WITH".toList = false := by decide

private theorem isNameChar_of_isBig {char : Char} (big : isBig char = true) :
    isNameChar char = true := by
  rw [isBig, Bool.and_eq_true] at big
  exact big.1

private theorem map_toUpper_of_big (big : t.all isBig = true) : t.map Char.toUpper = t := by
  rw [← upper_of_name (List.all_eq_true.mpr fun char member =>
    isNameChar_of_isBig (List.all_eq_true.mp big char member)), upper_of_big big]

private theorem upper_iana (suite : Suite) :
    strip suite.iana = suite.iana ∧ upper suite.iana =
      "TLS_".toList ++ (suite.ianaExchange.map Char.toUpper ++
        ("_WITH_".toList ++ suite.ianaCipher)) := by
  have exchange := suite.ianaExchange_checked
  have cipher := suite.ianaCipher_checked
  simp only [exchangeChecked, cipherChecked, Bool.and_eq_true] at exchange cipher
  have names := exchange.1.1.1
  have big : suite.ianaCipher.all isBig = true := by
    refine List.all_eq_true.mpr fun char member => ?_
    have checked := List.all_eq_true.mp cipher.1.1.1.1 char member
    rw [Bool.and_eq_true] at checked
    exact checked.1
  obtain ⟨front, middle, -⟩ := words_checked
  have wider {text : Text} (allBig : text.all isBig = true) : text.all isNameChar = true :=
    List.all_eq_true.mpr fun char member => isNameChar_of_isBig (List.all_eq_true.mp allBig char member)
  have allNames : suite.iana.all isNameChar = true := by
    rw [Suite.iana, List.all_append, List.all_append, List.all_append, wider front, names,
      wider middle, wider big]
    rfl
  refine ⟨strip_of_isStripped (isStripped_of_solid fun char member =>
    (nameChar_facts (List.all_eq_true.mp allNames char member)).2), ?_⟩
  rw [upper_of_name allNames, Suite.iana, List.map_append, List.map_append, List.map_append,
    map_toUpper_of_big front, map_toUpper_of_big middle, map_toUpper_of_big big]

/-- A name of the registry is normalised to its two parts, in capitals and with dashes. -/
theorem normalizeCipherName_iana (suite : Suite) :
    normalizeCipherName suite.iana =
      dashed (suite.ianaExchange.map Char.toUpper) ++ '-' :: dashed suite.ianaCipher := by
  obtain ⟨stripped, capital⟩ := upper_iana suite
  obtain ⟨front, middle, tls, noDash, noTlsWith⟩ := words_checked
  have exchange := suite.ianaExchange_checked
  have cipher := suite.ianaCipher_checked
  simp only [exchangeChecked, cipherChecked, Bool.and_eq_true, Bool.not_eq_true'] at exchange cipher
  obtain ⟨⟨⟨-, exchangeBig⟩, exchangeTls⟩, -⟩ := exchange
  obtain ⟨⟨⟨⟨cipherBig, cipherTls⟩, -⟩, -⟩, -⟩ := cipher
  generalize suite.ianaExchange.map Char.toUpper = first at *
  generalize suite.ianaCipher = second at *
  have apart {text : Text} (checked : text.all (fun char => isBig char && char != 'W') = true) :
      text.all isBig = true ∧ 'W' ∉ text := by
    simp only [List.all_eq_true, Bool.and_eq_true, bne_iff_ne] at checked
    exact ⟨List.all_eq_true.mpr fun char member => (checked char member).1,
      fun member => (checked _ member).2 rfl⟩
  have outside {text : Text} (absent : has "TLS" text = false) : ¬ "TLS".toList <:+: text := by
    rw [← has_iff, absent]
    exact Bool.noConfusion
  have clean : '_' ∉ "TLS".toList := fun member => absurd (List.all_eq_true.mp noDash _ member) (by decide)
  have noBlank : ' ' ∉ "TLS_".toList ++ (first ++ ("_WITH_".toList ++ second)) := by
    have all : ("TLS_".toList ++ (first ++ ("_WITH_".toList ++ second))).all isBig = true := by
      rw [List.all_append, List.all_append, List.all_append, front, (apart exchangeBig).1, middle,
        (apart cipherBig).1]
      rfl
    exact fun member => absurd (List.all_eq_true.mp all _ member) (by decide)
  have noTls : ¬ "TLS_".toList <:+: first ++ ("_WITH_".toList ++ second) := by
    intro found
    have inside : "TLS".toList <:+: first ++ '_' :: ("WITH".toList ++ '_' :: second) :=
      (has_iff.mp tls).trans found
    rw [infix_append_cons_iff clean, infix_append_cons_iff clean] at inside
    rcases inside with here | here | here
    · exact outside exchangeTls here
    · exact outside noTlsWith here
    · exact outside cipherTls here
  have nonempty : suite.iana ≠ [] := List.cons_ne_nil _ _
  simp only [normalizeCipherName, stripped, if_neg nonempty, capital]
  rw [replace_of_not_mem (by decide) noBlank, replace_front (by decide), List.nil_append,
    replace_of_not_infix noTls]
  have moved : replace "_WITH_".toList "-".toList 0 (first ++ ("_WITH_".toList ++ second)) =
      first ++ ("-".toList ++ replace "_WITH_".toList "-".toList 0 second) :=
    replace_behind (by decide) (apart exchangeBig).2 second
  have isWith : 'W' ∈ "_WITH_".toList := by decide
  rw [moved, replace_of_not_mem isWith (apart cipherBig).2, replace_dash, dashed, List.map_append,
    List.map_append]
  rfl

/-! ## Names of OpenSSL -/

def opensslChecked (text : Text) : Bool := text.all fun char => isBig char && char != '_'

theorem Cipher.openssl_checked (cipher : Cipher) :
    (opensslChecked cipher.openssl && !has "DH" cipher.openssl && !has "MLKEM" cipher.openssl &&
      !cipher.openssl.isEmpty) = true := by
  cases cipher with
  | nullMd5 => decide
  | null mac => cases mac <;> decide
  | old cipher mac => cases cipher <;> cases mac <;> decide
  | cbc family size mac => cases family <;> cases size <;> cases mac <;> decide
  | gcm family size => cases family <;> cases size <;> decide
  | ccm size short => cases size <;> cases short <;> decide
  | chacha20 => decide

/-- The part of the name of an export suite before its hash. -/
def exportFront (exchange : ExportExchange) (longer : Bool) (cipher : ExportCipher) : Text :=
  spell [if longer then "EXP1024-" else "EXP-", exchange.openssl longer, cipher.openssl]

theorem exportFront_checked (exchange : ExportExchange) (longer : Bool)
    (cipher : ExportCipher) :
    (opensslChecked (exportFront exchange longer cipher) &&
      !has "SHA" (exportFront exchange longer cipher)) = true := by
  cases exchange <;> cases longer <;> cases cipher <;> decide

private theorem exchangeOpenssl_checked (exchange : Exchange) :
    opensslChecked exchange.openssl.toList = true := by
  cases exchange <;> decide

private theorem oldMac_checked (mac : OldMac) : opensslChecked ('-' :: mac.word.toList) = true := by
  cases mac <;> decide

theorem openssl_exported (exchange : ExportExchange) (longer : Bool) (cipher : ExportCipher)
    (mac : OldMac) : (Suite.exported exchange longer cipher mac).openssl =
      exportFront exchange longer cipher ++ '-' :: mac.word.toList := by
  simp only [Suite.openssl, exportFront, spell, List.flatMap_cons, List.flatMap_nil,
    List.append_nil, List.append_assoc]
  rfl

theorem Suite.openssl_checked (suite : Suite) :
    opensslChecked suite.openssl = true ∧ suite.openssl ≠ [] := by
  cases suite with
  | plain exchange cipher _ =>
      have checked := cipher.openssl_checked
      simp only [Bool.and_eq_true, Bool.not_eq_true', List.isEmpty_eq_false_iff] at checked
      obtain ⟨⟨⟨chars, -⟩, -⟩, nonempty⟩ := checked
      refine ⟨?_, List.append_ne_nil_of_right_ne_nil _ nonempty⟩
      rw [Suite.openssl, opensslChecked, List.all_append, ← opensslChecked, ← opensslChecked,
        exchangeOpenssl_checked, chars]
      rfl
  | exported exchange longer cipher mac =>
      have checked := exportFront_checked exchange longer cipher
      rw [Bool.and_eq_true] at checked
      rw [openssl_exported]
      refine ⟨?_, List.append_ne_nil_of_right_ne_nil _ (List.cons_ne_nil _ _)⟩
      rw [opensslChecked, List.all_append, ← opensslChecked, ← opensslChecked, checked.1,
        oldMac_checked]
      rfl

theorem opensslChecked_facts (checked : opensslChecked t = true) :
    t.all isBig = true ∧ '_' ∉ t := by
  simp only [opensslChecked, List.all_eq_true, Bool.and_eq_true, bne_iff_ne] at checked
  exact ⟨List.all_eq_true.mpr fun char member => (checked char member).1,
    fun member => (checked _ member).2 rfl⟩

theorem normalizeCipherName_openssl (suite : Suite) :
    normalizeCipherName suite.openssl = suite.openssl := by
  obtain ⟨checked, nonempty⟩ := suite.openssl_checked
  obtain ⟨big, noDash⟩ := opensslChecked_facts checked
  have stripped : strip suite.openssl = suite.openssl :=
    strip_of_isStripped (isStripped_of_solid fun char member =>
      (nameChar_facts (isNameChar_of_isBig (List.all_eq_true.mp big char member))).2)
  have noBlank : ' ' ∉ suite.openssl :=
    fun member => absurd (List.all_eq_true.mp big _ member) (by decide)
  simp only [normalizeCipherName, stripped, if_neg nonempty, upper_of_big big]
  have undashed (old new : Text) (inside : '_' ∈ old) : replace old new 0 suite.openssl = suite.openssl :=
    replace_of_not_mem inside noDash
  rw [replace_of_not_mem (by decide) noBlank, undashed _ _ (by decide), undashed _ _ (by decide),
    undashed _ _ (by decide)]

end NcscTls
end DomainLens
