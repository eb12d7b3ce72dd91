import DomainLens.NcscTls.Suites

/-!
# Bad suites and their rating

A suite whose exchange of keys is static, or that is an export, NULL, RC4 or anonymous suite, is rated
as insufficient under each of its names, four of OpenSSL's apart that look like suites of TLS 1.3.
-/

namespace DomainLens
namespace NcscTls

open Python Words

variable {t : Text}

/-! ## Parts that are insufficient -/

theorem level_iff {name : Text} (normal : normalizeCipherName name = t) (capital : upper t = t) :
    (classifyCipherSuite name).level = .insufficient ↔
      (keyExchangeOf t).1 = .insufficient ∨ (authOf t).1 = .insufficient ∨
        (bulkOf t).1 = .insufficient ∨ (hashOf t).1 = .insufficient := by
  have isWorst : (classifyCipherSuite name).level =
      worst [(keyExchangeOf (upper (normalizeCipherName name))).1,
        (authOf (upper (normalizeCipherName name))).1,
        (bulkOf (upper (normalizeCipherName name))).1,
        (hashOf (upper (normalizeCipherName name))).1] := rfl
  rw [isWorst, worst_eq_insufficient_iff, normal, capital]
  simp only [List.mem_cons, List.not_mem_nil, or_false, eq_comm]

theorem has_append_right {word : String} {front : Text} (inside : has word t = true) :
    has word (front ++ t) = true :=
  has_iff.mpr ((has_iff.mp inside).trans (List.suffix_append front t).isInfix)

theorem has_append_left {word : String} {behind : Text} (inside : has word t = true) :
    has word (t ++ behind) = true :=
  has_iff.mpr ((has_iff.mp inside).trans (List.prefix_append t behind).isInfix)

private theorem dashless : ["DH", "MLKEM", "ECDHE", "EECDH", "DHE", "EDH", "ECDH", "SHA"].all
    (·.toList.all (· != '-')) = true := by
  decide

private theorem clean_of_dashless {word : String}
    (listed : word ∈ ["DH", "MLKEM", "ECDHE", "EECDH", "DHE", "EDH", "ECDH", "SHA"]) :
    '-' ∉ word.toList := by
  intro member
  have checked := List.all_eq_true.mp (List.all_eq_true.mp dashless word listed) _ member
  exact absurd checked (by decide)

private theorem not_infix_join {word : String} {front behind : Text}
    (listed : word ∈ ["DH", "MLKEM", "ECDHE", "EECDH", "DHE", "EDH", "ECDH", "SHA"])
    (first : has word front = false) (second : ¬ word.toList <:+: behind) :
    ¬ word.toList <:+: front ++ '-' :: behind := by
  rw [infix_append_cons_iff (clean_of_dashless listed), ← has_iff, first]
  exact not_or.mpr ⟨Bool.noConfusion, second⟩

theorem Static.join {front behind : Text} (first : Static front) (second : Static behind) :
    Static (front ++ '-' :: behind) where
  noDh := by
    rw [infix_append_cons_iff (clean_of_dashless (by decide))]
    exact not_or.mpr ⟨first.noDh, second.noDh⟩
  noKem := by
    rw [infix_append_cons_iff (clean_of_dashless (by decide))]
    exact not_or.mpr ⟨first.noKem, second.noKem⟩

theorem static_of_has (noDh : has "DH" t = false) (noKem : has "MLKEM" t = false) : Static t where
  noDh := by
    rw [← has_iff, noDh]
    exact Bool.noConfusion
  noKem := by
    rw [← has_iff, noKem]
    exact Bool.noConfusion

theorem keyExchangeOf_bulk (static : Static t)
    (old : (startsBulk t || starts "AES-256-GCM" t || starts "AES-128-GCM" t ||
      starts "AES-256-CCM" t || starts "AES-128-CCM" t || starts "CHACHA20" t) = false)
    (named : ["AES", "CAMELLIA", "ARIA", "DES", "3DES", "RC4", "IDEA", "SEED", "NULL"].any
      (starts · t) = true) : (keyExchangeOf t).1 = .insufficient := by
  rw [keyExchangeOf_static static, old, if_pos named]
  simp only [Bool.false_and, Bool.false_eq_true, if_false]
  split_ifs <;> rfl

theorem bulkOf_ccm8 (named : has "CCM8" t = true) : (bulkOf t).1 = .insufficient := by
  simp only [bulkOf, named, Bool.or_true, if_true]
  split_ifs <;> rfl

private theorem anon_words :
    (["MLKEM", "ECDHE", "EECDH", "DHE", "EDH"].all fun word =>
      !has word "ADH".toList && !has word "AECDH".toList) = true ∧
    has "ECDH" "ADH".toList = false ∧ has "ECDH" "AECDH".toList = true := by
  decide

private theorem keyExchangeOf_anon {front : Text} (static : Static t)
    (clean : ∀ word ∈ ["MLKEM", "ECDHE", "EECDH", "DHE", "EDH"], has word front = false)
    (other : starts "EDH" (front ++ '-' :: t) = false)
    (anon : has "ECDH" (front ++ '-' :: t) = true ∨
      searchApart (fun char => char = 'E' || char = 'C') (· = 'E') "DH".toList none
        (front ++ '-' :: t) = true) :
    (keyExchangeOf (front ++ '-' :: t)).1 = .insufficient := by
  obtain ⟨ecdhe, eecdh, dhe, edh, -, -, firstKem, secondKem, thirdKem⟩ := dh_words
  have absent {word : String} (part : has "DH" word.toList = true) : ¬ word.toList <:+: t :=
    fun found => static.noDh ((has_iff.mp part).trans found)
  have noKem := not_infix_join (by decide) (clean "MLKEM" (by decide)) static.noKem
  have noEcdhe := not_infix_join (by decide) (clean "ECDHE" (by decide)) (absent ecdhe)
  have noEecdh := not_infix_join (by decide) (clean "EECDH" (by decide)) (absent eecdh)
  have noDhe := not_infix_join (by decide) (clean "DHE" (by decide)) (absent dhe)
  have noEdh := not_infix_join (by decide) (clean "EDH" (by decide)) (absent edh)
  rw [keyExchangeOf, has_false_of_part noKem firstKem, has_false_of_part noKem secondKem,
    has_false_of_part noKem thirdKem, has_eq_false noEcdhe, has_eq_false noEecdh,
    searchApart_false none noDhe, other, has_false_of_part noEdh (by decide)]
  simp only [Bool.or_false, Bool.false_eq_true, if_false, Bool.not_false, Bool.and_true]
  rcases anon with named | named
  · rw [if_pos named]
  · rw [named]
    simp only [if_true]
    split_ifs <;> rfl

theorem keyExchangeOf_adh (static : Static t) :
    (keyExchangeOf ("ADH-".toList ++ t)).1 = .insufficient := by
  refine @keyExchangeOf_anon _ "ADH".toList static (fun word listed => ?_) rfl (.inr rfl)
  have checked := List.all_eq_true.mp anon_words.1 word listed
  rw [Bool.and_eq_true, Bool.not_eq_true', Bool.not_eq_true'] at checked
  exact checked.1

theorem keyExchangeOf_aecdh (static : Static t) :
    (keyExchangeOf ("AECDH-".toList ++ t)).1 = .insufficient := by
  refine @keyExchangeOf_anon _ "AECDH".toList static (fun word listed => ?_) rfl
    (.inl (has_append_left anon_words.2.2))
  have checked := List.all_eq_true.mp anon_words.1 word listed
  rw [Bool.and_eq_true, Bool.not_eq_true', Bool.not_eq_true'] at checked
  exact checked.2

theorem hashOf_sha {front : Text} (clean : has "SHA" front = false) :
    (hashOf (front ++ '-' :: "SHA".toList)).1 = .insufficient := by
  have last : "-SHA".toList.isSuffixOf (front ++ '-' :: "SHA".toList) = true :=
    List.isSuffixOf_iff_suffix.mpr (List.suffix_append front "-SHA".toList)
  have outside (word : String) (part : has "SHA" word.toList = true)
      (longer : has word "SHA".toList = false) (dashless : '-' ∉ word.toList) :
      has word (front ++ '-' :: "SHA".toList) = false := by
    refine has_eq_false ?_
    rw [infix_append_cons_iff dashless, ← @has_iff _ "SHA".toList, longer]
    refine not_or.mpr ⟨fun found => ?_, Bool.noConfusion⟩
    rw [has_iff.mpr ((has_iff.mp part).trans found)] at clean
    exact Bool.noConfusion clean
  rw [hashOf, last, outside "SHA256" (by decide) (by decide) (by decide),
    outside "SHA384" (by decide) (by decide) (by decide),
    outside "SHA512" (by decide) (by decide) (by decide),
    outside "SHA224" (by decide) (by decide) (by decide)]
  simp only [Bool.or_true, Bool.true_or, Bool.or_false, Bool.not_false, Bool.and_true, if_true]
  split_ifs <;> rfl

/-! ## Names of the registry -/

private theorem rsa_words : has "RSA" (dashed ((spell [Exchange.rsa.iana]).map Char.toUpper)) = true ∧
    has "RSA" (dashed ((spell [Exchange.rsaPsk.iana]).map Char.toUpper)) = true ∧
    has "ANON" (dashed ((spell [Exchange.dhAnon.iana]).map Char.toUpper)) = true ∧
    has "ANON" (dashed ((spell [Exchange.ecdhAnon.iana]).map Char.toUpper)) = true ∧
    has "DH" (dashed ((spell [Exchange.rsa.iana]).map Char.toUpper)) = false ∧
    has "MLKEM" (dashed ((spell [Exchange.rsa.iana]).map Char.toUpper)) = false ∧
    has "DH" (dashed ((spell [Exchange.rsaPsk.iana]).map Char.toUpper)) = false ∧
    has "MLKEM" (dashed ((spell [Exchange.rsaPsk.iana]).map Char.toUpper)) = false := by
  decide

private theorem bad_words : has "NULL" (dashed Cipher.nullMd5.iana) = true ∧
    (∀ mac, has "NULL" (dashed (Cipher.null mac).iana) = true) ∧
    (∀ mac, has "RC4" (dashed (Cipher.old .rc4 mac).iana) = true) ∧
    has "NULL" Cipher.nullMd5.openssl = true ∧
    (∀ mac, has "NULL" (Cipher.null mac).openssl = true) ∧
    ∀ mac, has "RC4" (Cipher.old .rc4 mac).openssl = true := by
  refine ⟨by decide, ?_, ?_, by decide, ?_, ?_⟩
  all_goals
    intro mac
    cases mac <;> decide

private theorem capital_iana (suite : Suite) :
    upper (dashed (suite.ianaExchange.map Char.toUpper) ++ '-' :: dashed suite.ianaCipher) =
      dashed (suite.ianaExchange.map Char.toUpper) ++ '-' :: dashed suite.ianaCipher := by
  have exchange := suite.ianaExchange_checked
  have cipher := suite.ianaCipher_checked
  simp only [exchangeChecked, cipherChecked, Bool.and_eq_true] at exchange cipher
  refine upper_of_big ?_
  rw [List.all_append, List.all_cons, exchange.2, cipher.1.1.2]
  rfl

theorem level_iana {suite : Suite} (bad : suite.IsBad) :
    (classifyCipherSuite suite.iana).level = .insufficient := by
  have cipher := suite.ianaCipher_checked
  simp only [cipherChecked, Bool.and_eq_true, Bool.not_eq_true'] at cipher
  have static := static_of_has cipher.1.2 cipher.2
  rw [level_iff (normalizeCipherName_iana suite) (capital_iana suite)]
  have behind {word : String} (inside : has word (dashed suite.ianaCipher) = true) :
      has word (dashed (suite.ianaExchange.map Char.toUpper) ++ '-' :: dashed suite.ianaCipher) =
        true :=
    has_iff.mpr ((has_iff.mp inside).trans
      ((List.suffix_cons _ _).trans (List.suffix_append _ _)).isInfix)
  obtain ⟨rsa, rsaPsk, dhAnon, ecdhAnon, rsaDh, rsaKem, pskDh, pskKem⟩ := rsa_words
  obtain ⟨nullMd5, nulls, rc4, -, -, -⟩ := bad_words
  cases suite with
  | exported exchange longer cipher mac =>
      exact .inr (.inl (authOf_export (has_append_left (exportExchange_checked exchange longer).2)))
  | plain exchange cipher fits =>
      rcases bad with listed | rfl | ⟨mac, rfl⟩ | ⟨mac, rfl⟩
      · simp only [List.mem_cons, List.not_mem_nil, or_false] at listed
        rcases listed with rfl | rfl | rfl | rfl
        · exact .inl (keyExchangeOf_rsa ((static_of_has rsaDh rsaKem).join static)
            (has_append_left rsa))
        · exact .inl (keyExchangeOf_rsa ((static_of_has pskDh pskKem).join static)
            (has_append_left rsaPsk))
        · exact .inr (.inl (authOf_nameless (.inl (has_append_left dhAnon))))
        · exact .inr (.inl (authOf_nameless (.inl (has_append_left ecdhAnon))))
      · exact .inr (.inl (authOf_nameless (.inr (behind nullMd5))))
      · exact .inr (.inl (authOf_nameless (.inr (behind (nulls mac)))))
      · exact .inr (.inr (.inl (bulkOf_rc4 (behind (rc4 mac)))))

/-! ## Names of OpenSSL -/

/-- A name that starts with a cipher and is not taken for one of TLS 1.3. -/
def looksStatic (text : Text) : Bool :=
  !(startsBulk text || starts "AES-256-GCM" text || starts "AES-128-GCM" text ||
      starts "AES-256-CCM" text || starts "AES-128-CCM" text || starts "CHACHA20" text) &&
    ["AES", "CAMELLIA", "ARIA", "DES", "3DES", "RC4", "IDEA", "SEED", "NULL"].any (starts · text)

private theorem cbc_looksStatic (family : Family) (size : KeySize) (mac : ShaMac) :
    looksStatic (Cipher.cbc family size mac).openssl = true := by
  cases family <;> cases size <;> cases mac <;> decide

private theorem gcm_looksStatic {family : Family} (other : family ≠ .aes) (size : KeySize) :
    looksStatic (Cipher.gcm family size).openssl = true := by
  cases family with
  | aes => exact absurd rfl other
  | camellia => cases size <;> decide
  | aria => cases size <;> decide

private theorem old_looksStatic {cipher : OldCipher} (other : cipher ≠ .rc2) (mac : OldMac) :
    looksStatic (Cipher.old cipher mac).openssl = true := by
  cases cipher with
  | rc2 => exact absurd rfl other
  | _ => cases mac <;> decide

private theorem keyExchangeOf_looksStatic (static : Static t) (old : looksStatic t = true) :
    (keyExchangeOf t).1 = .insufficient := by
  rw [looksStatic, Bool.and_eq_true, Bool.not_eq_true'] at old
  exact keyExchangeOf_bulk static old.1 old.2

private theorem rc2_hash (mac : OldMac) :
    (hashOf (Cipher.old .rc2 mac).openssl).1 = .insufficient := by
  cases mac <;> decide

theorem rsa_openssl {cipher : Cipher} (fits : cipher ≠ .chacha20)
    (shown : cipher.openssl ∉ masked) :
    (keyExchangeOf cipher.openssl).1 = .insufficient ∨ (authOf cipher.openssl).1 = .insufficient ∨
      (bulkOf cipher.openssl).1 = .insufficient ∨ (hashOf cipher.openssl).1 = .insufficient := by
  have checked := cipher.openssl_checked
  simp only [Bool.and_eq_true, Bool.not_eq_true'] at checked
  have static := static_of_has checked.1.1.2 checked.1.2
  obtain ⟨-, -, -, nullMd5, nulls, -⟩ := bad_words
  cases cipher with
  | nullMd5 => exact .inr (.inl (authOf_nameless (.inr nullMd5)))
  | null mac => exact .inr (.inl (authOf_nameless (.inr (nulls mac))))
  | old cipher mac =>
      by_cases isRc2 : cipher = .rc2
      · subst isRc2
        exact .inr (.inr (.inr (rc2_hash mac)))
      · exact .inl (keyExchangeOf_looksStatic static (old_looksStatic isRc2 mac))
  | cbc family size mac =>
      exact .inl (keyExchangeOf_looksStatic static (cbc_looksStatic family size mac))
  | gcm family size =>
      by_cases isAes : family = .aes
      · subst isAes
        cases size <;> exact absurd (by decide) shown
      · exact .inl (keyExchangeOf_looksStatic static (gcm_looksStatic isAes size))
  | ccm size short =>
      cases short with
      | false => cases size <;> exact absurd (by decide) shown
      | true =>
          refine .inr (.inr (.inl (bulkOf_ccm8 ?_)))
          cases size <;> decide
  | chacha20 => exact absurd rfl fits

private theorem masked_shown : ∀ name ∈ masked,
    (keyExchangeOf name).1 ≠ .insufficient ∧ (authOf name).1 ≠ .insufficient ∧
      (bulkOf name).1 ≠ .insufficient ∧ (hashOf name).1 ≠ .insufficient := by
  simp only [masked, List.forall_mem_cons, List.not_mem_nil, false_imp_iff, implies_true, and_true]
  decide

/-- Under its OpenSSL name a bad suite is insufficient, the masked names apart. -/
theorem level_openssl {suite : Suite} (bad : suite.IsBad) :
    (classifyCipherSuite suite.openssl).level = .insufficient ↔ suite.openssl ∉ masked := by
  have normal := normalizeCipherName_openssl suite
  have capital := upper_of_big (opensslChecked_facts suite.openssl_checked.1).1
  rw [level_iff normal capital]
  constructor
  · intro part isMasked
    obtain ⟨kx, auth, bulk, hash⟩ := masked_shown _ isMasked
    rcases part with part | part | part | part
    · exact kx part
    · exact auth part
    · exact bulk part
    · exact hash part
  intro shown
  cases suite with
  | exported exchange longer cipher mac =>
      refine .inr (.inr (.inr ?_))
      rw [openssl_exported]
      cases mac with
      | md5 =>
          refine hashOf_md5 (has_iff.mpr ?_)
          exact ((List.suffix_cons '-' _).trans (List.suffix_append _ _)).isInfix
      | sha =>
          have front := exportFront_checked exchange longer cipher
          rw [Bool.and_eq_true, Bool.not_eq_true'] at front
          exact hashOf_sha front.2
  | plain exchange cipher fits =>
      have checked := cipher.openssl_checked
      simp only [Bool.and_eq_true, Bool.not_eq_true'] at checked
      have static := static_of_has checked.1.1.2 checked.1.2
      obtain ⟨-, -, -, nullMd5, nulls, rc4⟩ := bad_words
      rcases bad with listed | rfl | ⟨mac, rfl⟩ | ⟨mac, rfl⟩
      · simp only [List.mem_cons, List.not_mem_nil, or_false] at listed
        rcases listed with rfl | rfl | rfl | rfl
        · exact rsa_openssl (fits rfl) shown
        · refine .inl (keyExchangeOf_rsa (t := "RSA-PSK".toList ++ '-' :: cipher.openssl) ?_ ?_)
          · exact (static_of_has (by decide) (by decide)).join static
          · exact has_append_left (by decide)
        · exact .inl (keyExchangeOf_adh static)
        · exact .inl (keyExchangeOf_aecdh static)
      · exact .inr (.inl (authOf_nameless (.inr (has_append_right nullMd5))))
      · exact .inr (.inl (authOf_nameless (.inr (has_append_right (nulls mac)))))
      · exact .inr (.inr (.inl (bulkOf_rc4 (has_append_right (rc4 mac)))))

private theorem masked_heads : ∀ name ∈ masked, name.head? = some 'A' := by
  simp only [masked, List.forall_mem_cons, List.not_mem_nil, false_imp_iff, implies_true, and_true]
  decide

private theorem iana_not_masked (suite : Suite) : suite.iana ∉ masked := by
  have front : suite.iana.head? = some 'T' := rfl
  intro isMasked
  have same := (masked_heads _ isMasked).symm.trans front
  exact absurd same (by decide)

/-- A bad suite is rated as insufficient if and only if its name is none of the masked ones. -/
theorem level_name_iff {suite : Suite} (bad : suite.IsBad) (naming : Naming) :
    (classifyCipherSuite (suite.name naming)).level = .insufficient ↔
      suite.name naming ∉ masked := by
  cases naming with
  | iana => exact iff_of_true (level_iana bad) (iana_not_masked suite)
  | openssl => exact level_openssl bad

end NcscTls
end DomainLens
