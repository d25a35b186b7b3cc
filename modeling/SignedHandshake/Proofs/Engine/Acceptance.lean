import SignedHandshake.Proofs.Attempt.Rules
import SignedHandshake.Proofs.Engine.Machine

/-!
# Which keys an algorithm takes

An engine looks at a key once, when it gets ready, and relies on what it saw for as long as the key
stays. The checks come one after the other, and each has a failure of its own; a key is taken
exactly if it passes all of them. Here each check is said as one condition, and a key that is taken
as all of them at once (`acceptPrivate_eq_ok_iff`, `acceptPublic_eq_ok_iff`).

Every failure to take a private key blames the key (`kind_of_accept`). That is the one kind of
failure after which a signer looks for a re-encoder.
-/

namespace SignedHandshake

/-! ## Single checks -/

/-- A key has a curve for signatures over a digest if it is a raw key of their family that
says which curve it is on. -/
theorem EcdsaEngine.curveFor_eq_ok_iff {algorithm : Text} {key : Key} {curve : NamedCurve} :
    curveFor algorithm key = .ok curve ↔
      isFamily key.algorithm = true ∧ key.format = .raw ∧ key.curve = some curve := by
  unfold curveFor
  rw [except_error_ite_eq_ok_iff, except_error_ite_eq_ok_iff, Decidable.not_not, Decidable.not_not]
  cases key.curve <;> simp

/-- A key is fit for a role if it is a raw key of the right half, name and length. -/
theorem EdDsaEngine.checkKey_eq_ok_iff {variant : EdVariant} {role : KeyRole} {key : Key} :
    checkKey variant role key = .ok () ↔
      key.role = role ∧ key.algorithm.lower = variant.name.lower ∧ key.format = .raw ∧
        key.encoded.length = variant.keyLength := by
  unfold checkKey
  rw [except_error_ite_eq_ok_iff, except_error_ite_eq_ok_iff, except_error_ite_eq_ok_iff, not_or]
  simp only [Decidable.not_not, and_true]

/-- Bytes are fit for a public key if they are a point that does not have small order. -/
theorem EdDsaEngine.checkPoint_eq_ok_iff {suite : Suite} {variant : EdVariant} {encoded : Bytes} :
    checkPoint suite variant encoded = .ok () ↔
      (suite.overMessage variant).isPoint encoded = true ∧
        (suite.overMessage variant).isSmallOrder encoded = false := by
  unfold checkPoint
  rw [except_error_ite_eq_ok_iff, except_error_ite_eq_ok_iff]
  simp

/-- A key under the name of a variant is none for signatures over a digest. -/
theorem EdVariant.isFamily_name (variant : EdVariant) :
    EcdsaEngine.isFamily variant.name = false := by
  cases variant <;> decide

/-- If there is no curve for a key, the key is to blame. -/
theorem EcdsaEngine.isKeyError_of_curveFor {algorithm : Text} {key : Key} {e : EngineError}
    (h : curveFor algorithm key = .error e) : e.isKeyError = true := by
  unfold curveFor at h
  split at h
  · cases h
    rfl
  · split at h
    · cases h
      rfl
    · cases hcurve : key.curve with
      | none =>
        simp only [hcurve] at h
        cases h
        rfl
      | some curve =>
        simp only [hcurve] at h
        cases h

/-- If a key is not fit for a role, the key is to blame. -/
theorem EdDsaEngine.isKeyError_of_checkKey {variant : EdVariant} {role : KeyRole} {key : Key}
    {e : EngineError} (h : checkKey variant role key = .error e) : e.isKeyError = true := by
  unfold checkKey at h
  split at h
  · cases h
    rfl
  · split at h
    · cases h
      rfl
    · split at h
      · cases h
        rfl
      · cases h

/-- If bytes are not fit for a public key, the key is to blame. -/
theorem EdDsaEngine.isKeyError_of_checkPoint {suite : Suite} {variant : EdVariant} {encoded : Bytes}
    {e : EngineError} (h : checkPoint suite variant encoded = .error e) : e.isKeyError = true := by
  simp only [checkPoint] at h
  split at h
  · cases h
    rfl
  · split at h
    · cases h
      rfl
    · cases h

/-- A failure that blames the key is raised as an invalid key. -/
theorem EngineError.kind_toFailure_of_isKeyError {e : EngineError} (h : e.isKeyError = true) :
    e.toFailure.kind = .invalidKey := by
  show (if e.isKeyError then FailureKind.invalidKey else .signature) = .invalidKey
  rw [if_pos h]

/-! ## Private keys -/

namespace EngineAlgorithm

variable {suite : Suite} {key : Key} {primitive : Primitive} {encoded : Bytes}

/-- What makes a private key one that an algorithm takes, and what it is taken for. -/
inductive TakesPrivate (suite : Suite) (key : Key) : EngineAlgorithm → Primitive → Prop where
  | overDigest {hash : HashName} {curve : NamedCurve}
      (family : EcdsaEngine.isFamily key.algorithm = true) (raw : key.format = .raw)
      (curve_eq : key.curve = some curve) (role : key.role = .privateKey)
      (scalar : (suite.overDigest curve).isPrivateKey key.encoded = true) :
      TakesPrivate suite key (.overDigest hash) (.overDigest hash curve)
  | overMessage {variant : EdVariant} (role : key.role = .privateKey)
      (name : key.algorithm.lower = variant.name.lower) (raw : key.format = .raw)
      (length : key.encoded.length = variant.keyLength) :
      TakesPrivate suite key (.overMessage variant) (.overMessage variant)

/-- A private key is taken exactly if it passes all checks. -/
theorem acceptPrivate_eq_ok_iff {algorithm : EngineAlgorithm} :
    algorithm.acceptPrivate suite key = .ok primitive ↔
      algorithm.TakesPrivate suite key primitive := by
  cases algorithm with
  | overDigest hash =>
    unfold acceptPrivate
    constructor
    · intro h
      -- family, format and curve are checked first, and then the role and the scalar
      obtain ⟨curve, hcurve, h⟩ := except_bind_eq_ok_iff.mp h
      obtain ⟨hfamily, hraw, hcurve⟩ := EcdsaEngine.curveFor_eq_ok_iff.mp hcurve
      obtain ⟨⟨hrole, hscalar⟩, h⟩ := except_ite_error_eq_ok_iff.mp h
      cases h
      exact .overDigest hfamily hraw hcurve hrole hscalar
    · rintro ⟨hfamily, hraw, hcurve, hrole, hscalar⟩
      have hcurve : EcdsaEngine.curveFor (EcdsaEngine.nameFor hash) key = .ok _ :=
        EcdsaEngine.curveFor_eq_ok_iff.mpr ⟨hfamily, hraw, hcurve⟩
      exact except_bind_eq_ok_iff.mpr
        ⟨_, hcurve, except_ite_error_eq_ok_iff.mpr ⟨⟨hrole, hscalar⟩, rfl⟩⟩
  | overMessage variant =>
    unfold acceptPrivate
    constructor
    · intro h
      obtain ⟨⟨⟩, hkey, h⟩ := except_bind_eq_ok_iff.mp h
      obtain ⟨hrole, hname, hraw, hlength⟩ := EdDsaEngine.checkKey_eq_ok_iff.mp hkey
      cases h
      exact .overMessage hrole hname hraw hlength
    · rintro (_ | ⟨hrole, hname, hraw, hlength⟩)
      have hkey := EdDsaEngine.checkKey_eq_ok_iff.mpr ⟨hrole, hname, hraw, hlength⟩
      exact except_bind_eq_ok_iff.mpr ⟨(), hkey, rfl⟩

variable (suite) in
/-- What is signed with, if the key is accepted: the primitive and the bytes of the key. -/
def accept (algorithm : EngineAlgorithm) (key : Key) : Except Failure (Primitive × Bytes) :=
  match algorithm.acceptPrivate suite key with
  | .ok primitive => .ok (primitive, key.encoded)
  | .error e => .error e.toFailure

/-- Signing uses the bytes of the key as they are. -/
theorem accept_eq_ok_iff {algorithm : EngineAlgorithm} :
    algorithm.accept suite key = .ok (primitive, encoded) ↔
      algorithm.TakesPrivate suite key primitive ∧ key.encoded = encoded := by
  rw [← acceptPrivate_eq_ok_iff]
  unfold accept
  cases algorithm.acceptPrivate suite key <;> simp

/-- No algorithm takes a key that is not a private key. -/
theorem TakesPrivate.role_eq {algorithm : EngineAlgorithm}
    (h : algorithm.TakesPrivate suite key primitive) : key.role = .privateKey := by
  cases h with
  | overDigest _ _ _ role | overMessage role => exact role

/-- A key under the name of a variant is taken for signatures over a message only. -/
theorem TakesPrivate.eq_overMessage {algorithm : EngineAlgorithm}
    (h : algorithm.TakesPrivate suite key primitive) {variant : EdVariant}
    (hname : key.algorithm = variant.name) :
    ∃ taken, algorithm = .overMessage taken ∧ primitive = .overMessage taken := by
  cases h with
  | overDigest family =>
    rw [hname, variant.isFamily_name] at family
    cases family
  | @overMessage taken => exact ⟨taken, rfl, rfl⟩

/-- If a private key is refused, the key is to blame. -/
theorem isKeyError_of_acceptPrivate {algorithm : EngineAlgorithm} {e : EngineError}
    (h : algorithm.acceptPrivate suite key = .error e) : e.isKeyError = true := by
  unfold acceptPrivate at h
  cases algorithm with
  | overDigest hash =>
    rcases except_bind_eq_error_iff.mp h with hcurve | ⟨curve, -, hscalar⟩
    · exact EcdsaEngine.isKeyError_of_curveFor hcurve
    · split at hscalar
      · cases hscalar
      · cases hscalar
        rfl
  | overMessage variant =>
    rcases except_bind_eq_error_iff.mp h with hkey | ⟨_, -, htaken⟩
    · exact EdDsaEngine.isKeyError_of_checkKey hkey
    · cases htaken

/-- So a refusal is of the one kind that leads to a second try. -/
theorem kind_of_accept {algorithm : EngineAlgorithm} {refusal : Failure}
    (h : algorithm.accept suite key = .error refusal) : refusal.kind = .invalidKey := by
  cases hkey : algorithm.acceptPrivate suite key with
  | ok primitive =>
    simp only [accept, hkey] at h
    cases h
  | error e =>
    simp only [accept, hkey] at h
    cases h
    exact e.kind_toFailure_of_isKeyError (isKeyError_of_acceptPrivate hkey)

/-! ## Public keys -/

/-- What makes a public key one that an algorithm takes, and what it is taken for. Signatures over a
digest do not look at the role of a public key. -/
inductive TakesPublic (suite : Suite) (key : Key) : EngineAlgorithm → Primitive → Prop where
  | overDigest {hash : HashName} {curve : NamedCurve}
      (family : EcdsaEngine.isFamily key.algorithm = true) (raw : key.format = .raw)
      (curve_eq : key.curve = some curve)
      (point : (suite.overDigest curve).isPublicKey key.encoded = true) :
      TakesPublic suite key (.overDigest hash) (.overDigest hash curve)
  | overMessage {variant : EdVariant} (role : key.role = .publicKey)
      (name : key.algorithm.lower = variant.name.lower) (raw : key.format = .raw)
      (length : key.encoded.length = variant.keyLength)
      (point : (suite.overMessage variant).isPoint key.encoded = true)
      (order : (suite.overMessage variant).isSmallOrder key.encoded = false) :
      TakesPublic suite key (.overMessage variant) (.overMessage variant)

/-- A public key is taken exactly if it passes all checks. -/
theorem acceptPublic_eq_ok_iff {algorithm : EngineAlgorithm} :
    algorithm.acceptPublic suite key = .ok primitive ↔
      algorithm.TakesPublic suite key primitive := by
  cases algorithm with
  | overDigest hash =>
    unfold acceptPublic
    constructor
    · intro h
      obtain ⟨curve, hcurve, h⟩ := except_bind_eq_ok_iff.mp h
      obtain ⟨hfamily, hraw, hcurve⟩ := EcdsaEngine.curveFor_eq_ok_iff.mp hcurve
      obtain ⟨hpoint, h⟩ := except_ite_error_eq_ok_iff.mp h
      cases h
      exact .overDigest hfamily hraw hcurve hpoint
    · rintro ⟨hfamily, hraw, hcurve, hpoint⟩
      have hcurve : EcdsaEngine.curveFor (EcdsaEngine.nameFor hash) key = .ok _ :=
        EcdsaEngine.curveFor_eq_ok_iff.mpr ⟨hfamily, hraw, hcurve⟩
      exact except_bind_eq_ok_iff.mpr
        ⟨_, hcurve, except_ite_error_eq_ok_iff.mpr ⟨hpoint, rfl⟩⟩
  | overMessage variant =>
    unfold acceptPublic
    constructor
    · intro h
      obtain ⟨⟨⟩, hkey, h⟩ := except_bind_eq_ok_iff.mp h
      obtain ⟨⟨⟩, hpoint, h⟩ := except_bind_eq_ok_iff.mp h
      obtain ⟨hrole, hname, hraw, hlength⟩ := EdDsaEngine.checkKey_eq_ok_iff.mp hkey
      obtain ⟨hpoint, horder⟩ := EdDsaEngine.checkPoint_eq_ok_iff.mp hpoint
      cases h
      exact .overMessage hrole hname hraw hlength hpoint horder
    · rintro (_ | ⟨hrole, hname, hraw, hlength, hpoint, horder⟩)
      have hkey := EdDsaEngine.checkKey_eq_ok_iff.mpr ⟨hrole, hname, hraw, hlength⟩
      have hpoint := EdDsaEngine.checkPoint_eq_ok_iff.mpr ⟨hpoint, horder⟩
      exact except_bind_eq_ok_iff.mpr ⟨(), hkey, except_bind_eq_ok_iff.mpr ⟨(), hpoint, rfl⟩⟩

/-- If a public key is refused, the key is to blame. -/
theorem isKeyError_of_acceptPublic {algorithm : EngineAlgorithm} {e : EngineError}
    (h : algorithm.acceptPublic suite key = .error e) : e.isKeyError = true := by
  unfold acceptPublic at h
  cases algorithm with
  | overDigest hash =>
    rcases except_bind_eq_error_iff.mp h with hcurve | ⟨curve, -, hpoint⟩
    · exact EcdsaEngine.isKeyError_of_curveFor hcurve
    · split at hpoint
      · cases hpoint
      · cases hpoint
        rfl
  | overMessage variant =>
    rcases except_bind_eq_error_iff.mp h with hkey | ⟨_, -, h⟩
    · exact EdDsaEngine.isKeyError_of_checkKey hkey
    · rcases except_bind_eq_error_iff.mp h with hpoint | ⟨_, -, htaken⟩
      · exact EdDsaEngine.isKeyError_of_checkPoint hpoint
      · cases htaken

end EngineAlgorithm

end SignedHandshake
