import DomainLens.NcscTls.Rating

/-!
# The assessment of a scan

Everything a scan of TLS found is rated, and the overall level is the worst of the ratings.
-/

namespace DomainLens
namespace NcscTls

open Python

/-! ## What a scan found -/

structure Protocol where
  name : Text
  supported : Bool
deriving DecidableEq

structure Certificate where
  keyBits : Option ℤ
  bits : Option ℤ
  keyType : Text
  pubkeyType : Text
  expired : Bool
  selfSigned : Bool

structure CipherOrder where
  applicable : Bool
  pass : Option Bool

structure SignatureHashes where
  applicable : Option Bool
  evaluated : Bool
  insufficient : List Text
  phasedOut : List Text
  good : List Text

structure TlsDeep where
  success : Bool
  protocols : List Protocol
  ciphers : List Text
  tlsCompression : Bool
  certificate : Certificate
  cipherOrder : CipherOrder
  signatureHashes : SignatureHashes

/-! ## Ratings -/

/-- The mapping of `_classify_protocol`. -/
def protocolLevels : List (Text × Level) :=
  [("TLS 1.3".toList, .good), ("TLS 1.2".toList, .sufficient), ("TLS 1.1".toList, .insufficient),
    ("TLS 1.0".toList, .insufficient), ("SSL 3.0".toList, .insufficient),
    ("SSL 2.0".toList, .insufficient), ("SSL 1.0".toList, .insufficient)]

/-- `_classify_protocol`: the level of one that is supported. -/
def classifyProtocol (protocol : Protocol) : Option Level :=
  if protocol.supported then some ((protocolLevels.lookup protocol.name).getD .insufficient)
  else none

/-- `a or b` of numbers that may be missing. -/
def orElse (first second : Option ℤ) : Option ℤ :=
  match first with
  | some value => if value = 0 then second else first
  | none => second

/-- `assess_certificate_key`: the level, where the length of the key is known. -/
def assessCertificateKey (certificate : Certificate) (given : Option ℤ) : Option Level :=
  let bits :=
    match given with
    | some bits => some bits
    | none => orElse certificate.keyBits certificate.bits
  bits.map fun bits =>
    let keyType :=
      if certificate.keyType ≠ [] then certificate.keyType
      else if certificate.pubkeyType ≠ [] then certificate.pubkeyType
      else "RSA".toList
    if has "EC" (upper keyType) then
      if 256 ≤ bits then .sufficient else if 224 ≤ bits then .phasedOut else .insufficient
    else if 3072 ≤ bits then .sufficient
    else if 2048 ≤ bits then .phasedOut
    else .insufficient

/-- Whether the last protocol of the name is supported. -/
def offers (scan : TlsDeep) (name : String) : Bool :=
  ((scan.protocols.reverse.find? (·.name = name.toList)).map Protocol.supported).getD false

/-- The level of the signature hashes, where they are rated. -/
def signatureLevels (hashes : SignatureHashes) : List Level :=
  if hashes.applicable ≠ some false ∧ hashes.evaluated then
    if hashes.insufficient ≠ [] then [.insufficient]
    else if hashes.phasedOut ≠ [] then [.phasedOut]
    else if hashes.good ≠ [] then [.good]
    else []
  else []

/-- The levels of everything but the suites, those before them and those behind them. -/
def partsBefore (scan : TlsDeep) : List Level :=
  scan.protocols.filterMap classifyProtocol ++
    (if offers scan "TLS 1.3" then [.good] else [.sufficient]) ++
    (if !offers scan "TLS 1.2" && !offers scan "TLS 1.3" then [.insufficient] else [])

def partsBehind (scan : TlsDeep) (certKeyBits : Option ℤ) : List Level :=
  (if scan.tlsCompression then [.insufficient] else [.good]) ++
    (assessCertificateKey scan.certificate (orElse certKeyBits scan.certificate.keyBits)).toList ++
    (if scan.certificate.expired then [.insufficient] else []) ++
    (if scan.certificate.selfSigned then [.insufficient] else []) ++
    signatureLevels scan.signatureHashes

def cipherLevels (scan : TlsDeep) : List Level :=
  scan.ciphers.map fun name => (classifyCipherSuite name).level

/-- `overall_parts`. -/
def overallParts (scan : TlsDeep) (certKeyBits : Option ℤ) : List Level :=
  partsBefore scan ++ cipherLevels scan ++ partsBehind scan certKeyBits

structure Report where
  overallLevel : Level
  overallLabel : String
  compliant : Bool
  preferred : Bool
  pass : Bool
  protocols : List (Protocol × Option Level)
  ciphers : List Classified

/-- `assess`; there is no rating of a scan that failed. -/
def assess (scan : TlsDeep) (certKeyBits : Option ℤ) : Option Report :=
  if scan.success then
    let overall := worst (overallParts scan certKeyBits)
    let compliant := overall = .good ∨ overall = .sufficient
    let orderOk := !scan.cipherOrder.applicable || scan.cipherOrder.pass == some true
    let hashes := scan.signatureHashes
    let sigOk := !(hashes.applicable == some true) || !hashes.evaluated || hashes.insufficient.isEmpty
    let count (level : Level) := (cipherLevels scan).count level
    some {
      overallLevel := overall
      overallLabel := overall.label
      compliant := compliant
      preferred := overall = .good && count .phasedOut == 0 && count .insufficient == 0 && orderOk &&
        sigOk && hashes.phasedOut.isEmpty
      pass := compliant && count .insufficient == 0 && orderOk && sigOk
      protocols := scan.protocols.map fun protocol => (protocol, classifyProtocol protocol)
      ciphers := scan.ciphers.map classifyCipherSuite }
  else none

/-! ## The worst component -/

/-- Something a scan found is insufficient, as it is rated by itself. -/
def FoundInsufficient (scan : TlsDeep) (certKeyBits : Option ℤ) : Prop :=
  (∃ protocol ∈ scan.protocols, classifyProtocol protocol = some .insufficient) ∨
    (offers scan "TLS 1.2" = false ∧ offers scan "TLS 1.3" = false) ∨
    (∃ name ∈ scan.ciphers, (classifyCipherSuite name).level = .insufficient) ∨
    scan.tlsCompression = true ∨
    assessCertificateKey scan.certificate (orElse certKeyBits scan.certificate.keyBits) =
      some .insufficient ∨
    scan.certificate.expired = true ∨ scan.certificate.selfSigned = true ∨
    scan.signatureHashes.applicable ≠ some false ∧ scan.signatureHashes.evaluated = true ∧
      scan.signatureHashes.insufficient ≠ []

private theorem mem_ite_iff {test : Bool} {level : Level} :
    level ∈ (if test then [level] else []) ↔ test = true := by
  cases test <;> simp

theorem mem_partsBefore_iff {scan : TlsDeep} : .insufficient ∈ partsBefore scan ↔
    (∃ protocol ∈ scan.protocols, classifyProtocol protocol = some .insufficient) ∨
      (offers scan "TLS 1.2" = false ∧ offers scan "TLS 1.3" = false) := by
  have third : Level.insufficient ∉ (if offers scan "TLS 1.3" then [Level.good] else [.sufficient]) := by
    split_ifs <;> decide
  rw [partsBefore, List.mem_append, List.mem_append, List.mem_filterMap, or_iff_left third,
    mem_ite_iff, Bool.and_eq_true, Bool.not_eq_true', Bool.not_eq_true']

theorem mem_signatureLevels_iff {hashes : SignatureHashes} :
    .insufficient ∈ signatureLevels hashes ↔
      hashes.applicable ≠ some false ∧ hashes.evaluated = true ∧ hashes.insufficient ≠ [] := by
  rw [signatureLevels]
  split_ifs with rated bad phased good
  · exact iff_of_true (by decide) ⟨rated.1, rated.2, bad⟩
  · exact iff_of_false (by decide) fun found => bad found.2.2
  · exact iff_of_false (by decide) fun found => bad found.2.2
  · exact iff_of_false (by decide) fun found => bad found.2.2
  · exact iff_of_false (by decide) fun found => rated ⟨found.1, found.2.1⟩

theorem mem_partsBehind_iff {scan : TlsDeep} {certKeyBits : Option ℤ} :
    .insufficient ∈ partsBehind scan certKeyBits ↔
      scan.tlsCompression = true ∨
      assessCertificateKey scan.certificate (orElse certKeyBits scan.certificate.keyBits) =
        some .insufficient ∨
      scan.certificate.expired = true ∨ scan.certificate.selfSigned = true ∨
      scan.signatureHashes.applicable ≠ some false ∧ scan.signatureHashes.evaluated = true ∧
        scan.signatureHashes.insufficient ≠ [] := by
  have first : Level.insufficient ∈ (if scan.tlsCompression then [Level.insufficient] else [.good]) ↔
      scan.tlsCompression = true := by
    cases scan.tlsCompression <;> decide
  rw [partsBehind, List.mem_append, List.mem_append, List.mem_append, List.mem_append, first,
    Option.mem_toList, mem_ite_iff, mem_ite_iff, mem_signatureLevels_iff, or_assoc, or_assoc,
    or_assoc]

theorem mem_overallParts_iff {scan : TlsDeep} {certKeyBits : Option ℤ} :
    .insufficient ∈ overallParts scan certKeyBits ↔ FoundInsufficient scan certKeyBits := by
  rw [overallParts, List.mem_append, List.mem_append, mem_partsBefore_iff, mem_partsBehind_iff,
    cipherLevels, List.mem_map, FoundInsufficient, or_assoc, or_assoc]

theorem overallParts_ne_nil (scan : TlsDeep) (certKeyBits : Option ℤ) :
    overallParts scan certKeyBits ≠ [] := by
  rw [overallParts, partsBehind]
  cases scan.tlsCompression <;> simp

theorem overallLevel_of_assess {scan : TlsDeep} {certKeyBits : Option ℤ} {report : Report}
    (assessed : assess scan certKeyBits = some report) :
    report.overallLevel = worst (overallParts scan certKeyBits) ∧
      (report.overallLevel = .insufficient → report.pass = false) := by
  rw [assess] at assessed
  split_ifs at assessed
  obtain rfl := Option.some.inj assessed
  refine ⟨rfl, fun bad => ?_⟩
  simp only at bad ⊢
  rw [bad]
  rfl

theorem exists_bad_of_masked {name : Text} (isMasked : name ∈ masked) :
    ∃ suite : Suite, suite.IsBad ∧ suite.name .openssl = name := by
  have listed (cipher : Cipher) (fits : cipher ≠ .chacha20) (named : cipher.openssl = name) :
      ∃ suite : Suite, suite.IsBad ∧ suite.name .openssl = name :=
    ⟨.plain .rsa cipher fun _ => fits, .inl (by decide), named⟩
  simp only [masked, List.mem_cons, List.not_mem_nil, or_false] at isMasked
  rcases isMasked with rfl | rfl | rfl | rfl
  · exact listed (.gcm .aes .bits128) (by decide) (by decide)
  · exact listed (.gcm .aes .bits256) (by decide) (by decide)
  · exact listed (.ccm .bits128 false) (by decide) (by decide)
  · exact listed (.ccm .bits256 false) (by decide) (by decide)

/-- The overall level is always the worst of the levels of what was found.  Every bad suite makes it
insufficient, and the check fails, if and only if something else is insufficient wherever a suite is
offered under one of the masked names. -/
theorem assess_iff {scan : TlsDeep} {certKeyBits : Option ℤ} {report : Report}
    (assessed : assess scan certKeyBits = some report) :
    (report.overallLevel ∈ overallParts scan certKeyBits ∧
        (∀ level ∈ overallParts scan certKeyBits, level.rank ≤ report.overallLevel.rank) ∧
        ∀ (suite : Suite) (naming : Naming), suite.IsBad → suite.name naming ∈ scan.ciphers →
          report.overallLevel = .insufficient ∧ report.pass = false) ↔
      ((∃ name ∈ scan.ciphers, name ∈ masked) → FoundInsufficient scan certKeyBits) := by
  obtain ⟨isWorst, fails⟩ := overallLevel_of_assess assessed
  have bad_iff : report.overallLevel = .insufficient ↔ FoundInsufficient scan certKeyBits := by
    rw [isWorst, worst_eq_insufficient_iff, mem_overallParts_iff]
  constructor
  · rintro ⟨-, -, shown⟩ ⟨name, offered, isMasked⟩
    obtain ⟨suite, bad, rfl⟩ := exists_bad_of_masked isMasked
    exact bad_iff.mp (shown suite .openssl bad offered).1
  · intro otherwise
    refine ⟨isWorst ▸ worst_mem (overallParts_ne_nil scan certKeyBits),
      fun level member => isWorst ▸ rank_le_worst member, fun suite naming bad offered => ?_⟩
    have found : FoundInsufficient scan certKeyBits := by
      by_cases isMasked : suite.name naming ∈ masked
      · exact otherwise ⟨_, offered, isMasked⟩
      · exact .inr (.inr (.inl ⟨_, offered, (level_name_iff bad naming).mpr isMasked⟩))
    exact ⟨bad_iff.mpr found, fails (bad_iff.mpr found)⟩

/-! ## Two scans -/

/-- A server with TLS 1.2 and 1.3, a good certificate, and one suite. -/
def oneSuite (name : Text) : TlsDeep where
  success := true
  protocols := [⟨"TLS 1.2".toList, true⟩, ⟨"TLS 1.3".toList, true⟩]
  ciphers := [name]
  tlsCompression := false
  certificate :=
    { keyBits := some 4096, bits := none, keyType := [], pubkeyType := [], expired := false
      selfSigned := false }
  cipherOrder := { applicable := false, pass := none }
  signatureHashes :=
    { applicable := none, evaluated := false, insufficient := [], phasedOut := [], good := [] }

/-- `AES128-SHA`. -/
def staticCbc : Suite := .plain .rsa (.cbc .aes .bits128 .sha) fun _ => Cipher.noConfusion

/-- `AES128-GCM-SHA256`. -/
def staticGcm : Suite := .plain .rsa (.gcm .aes .bits128) fun _ => Cipher.noConfusion

private theorem staticCbc_shown : staticCbc.openssl ∉ masked := by decide

theorem staticCbc_fails : ∃ report, assess (oneSuite staticCbc.openssl) none = some report ∧
    report.overallLevel = .insufficient ∧ report.pass = false := by
  have shown : (∃ name ∈ (oneSuite staticCbc.openssl).ciphers, name ∈ masked) →
      FoundInsufficient (oneSuite staticCbc.openssl) none := by
    rintro ⟨name, offered, isMasked⟩
    rw [List.mem_singleton.mp offered] at isMasked
    exact absurd isMasked staticCbc_shown
  have offered : staticCbc.name .openssl ∈ (oneSuite staticCbc.openssl).ciphers :=
    List.mem_cons_self
  exact ⟨_, rfl, ((assess_iff rfl).mpr shown).2.2 staticCbc .openssl (.inl (by decide)) offered⟩

/-- The suite comes out as good enough as one of TLS 1.3. -/
theorem staticGcm_passes : staticGcm.IsBad ∧ staticGcm.openssl = "AES128-GCM-SHA256".toList ∧
    ∃ report, assess (oneSuite staticGcm.openssl) none = some report ∧
      report.overallLevel = .sufficient ∧ report.pass = true := by
  have level : (classifyCipherSuite staticGcm.openssl).level = .sufficient := by
    decide +kernel
  have levels : cipherLevels (oneSuite staticGcm.openssl) = [.sufficient] := congrArg ([·]) level
  have overall : worst (overallParts (oneSuite staticGcm.openssl) none) = .sufficient := by
    rw [overallParts, levels]
    decide
  refine ⟨.inl (by decide), by decide, _, rfl, overall, ?_⟩
  simp only [overall, levels]
  decide

end NcscTls
end DomainLens
