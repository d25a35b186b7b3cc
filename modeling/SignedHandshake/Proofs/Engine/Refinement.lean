import SignedHandshake.Proofs.Engine.Machine

/-!
# The engines behave like the machine

`Realizes engine machine` says how an engine stores what a machine has gathered: as the digest of
the data, or as the pieces that make up the data. Every operation takes an engine and a machine that
it realizes to results that are alike, and to such a pair again (`refines`). So what is shown of the
machine holds of both sorts of engines, whatever they did before.

Proof structure: one lemma for each sort of engine and each operation, by cases on what
the engine is ready for.
-/

namespace SignedHandshake

/-! ## Refinement -/

/-- The engines are related and the worlds are the same. -/
def SameWorld {E M ω : Type} (rel : E → M → Prop) (left : E × ω) (right : M × ω) : Prop :=
  rel left.1 right.1 ∧ left.2 = right.2

namespace EngineBehaviour

variable {E M ω : Type}

/-- Each operation takes related engines to related engines and ends the same way. -/
structure Refines (concrete : EngineBehaviour E ω) (abstract : EngineBehaviour M ω)
    (rel : E → M → Prop) : Prop where
  algorithm : ∀ {engine machine}, rel engine machine →
    concrete.algorithm engine = abstract.algorithm machine
  initSign :
    ∀ {engine machine} (key : Key) (random : RandomSource ω) (world : ω), rel engine machine →
    Attempt.Alike (SameWorld rel) (concrete.initSign key random (engine, world))
      (abstract.initSign key random (machine, world))
  initVerify : ∀ {engine machine} (key : Key) (world : ω), rel engine machine →
    Attempt.Alike (SameWorld rel) (concrete.initVerify key (engine, world))
      (abstract.initVerify key (machine, world))
  update : ∀ {engine machine} (data : Bytes) (world : ω), rel engine machine →
    Attempt.Alike (SameWorld rel) (concrete.update data (engine, world))
      (abstract.update data (machine, world))
  sign : ∀ {engine machine} (world : ω), rel engine machine →
    Attempt.Alike (SameWorld rel) (concrete.sign (engine, world)) (abstract.sign (machine, world))
  verify : ∀ {engine machine} (signature : Bytes) (world : ω), rel engine machine →
    Attempt.Alike (SameWorld rel) (concrete.verify signature (engine, world))
      (abstract.verify signature (machine, world))

end EngineBehaviour

/-! ## How engines store what a machine has gathered -/

namespace SignatureEngine

open Digest

variable {ω : Type}

/-- An engine stores what a machine has gathered. -/
inductive Realizes : SignatureEngine ω → Machine ω → Prop where
  | digestIdle (hash : HashName) :
    Realizes (.ecdsa ⟨hash, .idle⟩) ⟨.overDigest hash, .idle⟩
  | digestSigning (hash : HashName) (curve : NamedCurve) (scalar : Bytes) (random : RandomSource ω)
      (data : Bytes) :
    Realizes (.ecdsa ⟨hash, .signing curve scalar random (State.start.update data)⟩)
      ⟨.overDigest hash, .signing (.overDigest hash curve) scalar random data⟩
  | digestVerifying (hash : HashName) (curve : NamedCurve) (point data : Bytes) :
    Realizes (.ecdsa ⟨hash, .verifying curve point (State.start.update data)⟩)
      ⟨.overDigest hash, .verifying (.overDigest hash curve) point data⟩
  | messageIdle (variant : EdVariant) :
    Realizes (.eddsa ⟨variant, .idle⟩) ⟨.overMessage variant, .idle⟩
  | messageSigning (variant : EdVariant) (seed : Bytes) (random : RandomSource ω)
      (pieces : List Bytes) :
    Realizes (.eddsa ⟨variant, .signing seed pieces⟩)
      ⟨.overMessage variant,
        .signing (.overMessage variant) seed random (EdDsaEngine.messageOf pieces)⟩
  | messageVerifying (variant : EdVariant) (point : Bytes) (pieces : List Bytes) :
    Realizes (.eddsa ⟨variant, .verifying point pieces⟩)
      ⟨.overMessage variant, .verifying (.overMessage variant) point (EdDsaEngine.messageOf pieces)⟩

theorem Realizes.sameWorld {engine : SignatureEngine ω} {machine : Machine ω}
    (h : engine.Realizes machine) (world : ω) :
    SameWorld Realizes (engine, world) (machine, world) :=
  ⟨h, rfl⟩

/-- The name of an algorithm leads to an engine and to a machine for the same
algorithm, and both are idle. -/
theorem create_eq (name : Text) :
    (∃ algorithm engine, EngineAlgorithm.ofName? name = some algorithm ∧
        create name = .ok engine ∧ (engine : SignatureEngine ω).Realizes ⟨algorithm, .idle⟩) ∨
      EngineAlgorithm.ofName? name = none ∧
        (create name : Except Failure (SignatureEngine ω)) = .error (.noSuchAlgorithm name) := by
  unfold create ofName? EngineAlgorithm.ofName?
  cases HashName.all.find? fun hash => EcdsaEngine.nameFor hash == name with
  | some hash => exact .inl ⟨_, _, rfl, rfl, .digestIdle hash⟩
  | none =>
    cases EdVariant.ofName? name with
    | some variant => exact .inl ⟨_, _, rfl, rfl, .messageIdle variant⟩
    | none => exact .inr ⟨rfl, rfl⟩

variable (suite : Suite)

/-! ### Getting ready

What the engine was ready for before makes no difference, so it is left open. -/

theorem digest_initSign_alike (hash : HashName) (phase : DigestPhase ω hash.function)
    (readiness : Readiness ω) (key : Key) (random : RandomSource ω) (world : ω) :
    Attempt.Alike (SameWorld Realizes)
      ((behaviour suite).initSign key random (.ecdsa ⟨hash, phase⟩, world))
      ((Machine.behaviour suite).initSign key random (⟨.overDigest hash, readiness⟩, world)) := by
  show Attempt.Alike _
    (Attempt.onPart (EcdsaEngine.initSign suite key random) (⟨hash, phase⟩, world) _)
    (Machine.initSign suite key random (⟨.overDigest hash, readiness⟩, world))
  unfold Attempt.onPart EcdsaEngine.initSign Machine.initSign Machine.readyToSign
    EcdsaEngine.signingPhase EngineAlgorithm.acceptPrivate EcdsaEngine.algorithm
  -- whichever check fails, both are idle afterwards
  have hidle := (Realizes.digestIdle hash).sameWorld world
  cases hcurve : EcdsaEngine.curveFor (EcdsaEngine.nameFor hash) key with
  | error e =>
    simp only [bind, Except.bind, hcurve]
    exact .error e.toFailure hidle
  | ok curve =>
    by_cases hkey : key.role = .privateKey ∧ (suite.overDigest curve).isPrivateKey key.encoded
    · simp only [bind, Except.bind, hcurve, if_pos hkey]
      exact .ok () ⟨.digestSigning hash curve key.encoded random [], rfl⟩
    · simp only [bind, Except.bind, hcurve, if_neg hkey]
      exact .error (EngineError.invalidScalar _ curve).toFailure hidle

theorem digest_initVerify_alike (hash : HashName) (phase : DigestPhase ω hash.function)
    (readiness : Readiness ω) (key : Key) (world : ω) :
    Attempt.Alike (SameWorld Realizes)
      ((behaviour suite).initVerify key (.ecdsa ⟨hash, phase⟩, world))
      ((Machine.behaviour suite).initVerify key (⟨.overDigest hash, readiness⟩, world)) := by
  show Attempt.Alike _
    (Attempt.onPart (EcdsaEngine.initVerify suite key) (⟨hash, phase⟩, world) _)
    (Machine.initVerify suite key (⟨.overDigest hash, readiness⟩, world))
  unfold Attempt.onPart EcdsaEngine.initVerify Machine.initVerify Machine.readyToVerify
    EcdsaEngine.verifyingPhase EngineAlgorithm.acceptPublic EcdsaEngine.algorithm
  -- a refused key leaves both of them idle
  have hidle := (Realizes.digestIdle hash).sameWorld world
  cases hcurve : EcdsaEngine.curveFor (EcdsaEngine.nameFor hash) key with
  | error e =>
    simp only [bind, Except.bind, hcurve]
    exact .error e.toFailure hidle
  | ok curve =>
    by_cases hkey : (suite.overDigest curve).isPublicKey key.encoded
    · simp only [bind, Except.bind, hcurve, if_pos hkey]
      exact .ok () ⟨.digestVerifying hash curve key.encoded [], rfl⟩
    · simp only [bind, Except.bind, hcurve, if_neg hkey]
      exact .error (EngineError.invalidPoint curve _).toFailure hidle

theorem message_initSign_alike (variant : EdVariant) (phase : MessagePhase)
    (readiness : Readiness ω) (key : Key) (random : RandomSource ω) (world : ω) :
    Attempt.Alike (SameWorld Realizes)
      ((behaviour suite).initSign key random (.eddsa ⟨variant, phase⟩, world))
      ((Machine.behaviour suite).initSign key random (⟨.overMessage variant,
        readiness⟩, world)) := by
  show Attempt.Alike _
    (Attempt.onPart (EdDsaEngine.initSign key) (⟨variant, phase⟩, world) _)
    (Machine.initSign suite key random (⟨.overMessage variant, readiness⟩, world))
  unfold Attempt.onPart EdDsaEngine.initSign Machine.initSign Machine.readyToSign
    EdDsaEngine.signingPhase EngineAlgorithm.acceptPrivate
  -- a refused key leaves both of them idle
  have hidle := (Realizes.messageIdle variant).sameWorld world
  cases hkey : EdDsaEngine.checkKey variant .privateKey key with
  | error e =>
    simp only [bind, Except.bind, hkey]
    exact .error e.toFailure hidle
  | ok =>
    simp only [bind, Except.bind, hkey]
    exact .ok () ⟨.messageSigning variant key.encoded random [], rfl⟩

theorem message_initVerify_alike (variant : EdVariant) (phase : MessagePhase)
    (readiness : Readiness ω) (key : Key) (world : ω) :
    Attempt.Alike (SameWorld Realizes)
      ((behaviour suite).initVerify key (.eddsa ⟨variant, phase⟩, world))
      ((Machine.behaviour suite).initVerify key (⟨.overMessage variant, readiness⟩, world)) := by
  show Attempt.Alike _
    (Attempt.onPart (EdDsaEngine.initVerify suite key) (⟨variant, phase⟩, world) _)
    (Machine.initVerify suite key (⟨.overMessage variant, readiness⟩, world))
  unfold Attempt.onPart EdDsaEngine.initVerify Machine.initVerify Machine.readyToVerify
    EdDsaEngine.verifyingPhase EngineAlgorithm.acceptPublic
  -- a refused key, like a refused point, leaves both of them idle
  have hidle := (Realizes.messageIdle variant).sameWorld world
  cases hkey : EdDsaEngine.checkKey variant .publicKey key with
  | error e =>
    simp only [bind, Except.bind, hkey]
    exact .error e.toFailure hidle
  | ok =>
    cases hpoint : EdDsaEngine.checkPoint suite variant key.encoded with
    | error e =>
      simp only [bind, Except.bind, hkey, hpoint]
      exact .error e.toFailure hidle
    | ok =>
      simp only [bind, Except.bind, hkey, hpoint]
      exact .ok () ⟨.messageVerifying variant key.encoded [], rfl⟩

/-! ### The other operations -/

/-- A piece goes behind the pieces that came before it. -/
theorem messageOf_cons (piece : Bytes) (pieces : List Bytes) :
    EdDsaEngine.messageOf (piece :: pieces) = EdDsaEngine.messageOf pieces ++ piece := by
  simp [EdDsaEngine.messageOf]

theorem update_alike {engine : SignatureEngine ω} {machine : Machine ω} (piece : Bytes) (world : ω)
    (h : engine.Realizes machine) :
    Attempt.Alike (SameWorld Realizes) ((behaviour suite).update piece (engine, world))
      ((Machine.behaviour suite).update piece (machine, world)) := by
  cases h with
  | digestIdle hash => exact .error _ ⟨.digestIdle hash, rfl⟩
  | digestSigning hash curve scalar random data =>
    refine .ok _ ⟨?_, rfl⟩
    -- a digest that takes in one more piece is the digest of the longer data
    show Realizes (.ecdsa ⟨hash,
        .signing curve scalar random ((State.start.update data).update piece)⟩) _
    rw [← State.update_append]
    exact .digestSigning hash curve scalar random (data ++ piece)
  | digestVerifying hash curve point data =>
    refine .ok _ ⟨?_, rfl⟩
    show Realizes (.ecdsa ⟨hash, .verifying curve point ((State.start.update data).update piece)⟩) _
    rw [← State.update_append]
    exact .digestVerifying hash curve point (data ++ piece)
  | messageIdle variant => exact .error _ ⟨.messageIdle variant, rfl⟩
  | messageSigning variant seed random pieces =>
    refine .ok _ ⟨?_, rfl⟩
    -- here it is the machine's data that has to be taken apart again
    show Realizes _ ⟨_, .signing _ seed random (EdDsaEngine.messageOf pieces ++ piece)⟩
    rw [← messageOf_cons]
    exact .messageSigning variant seed random (piece :: pieces)
  | messageVerifying variant point pieces =>
    refine .ok _ ⟨?_, rfl⟩
    show Realizes _ ⟨_, .verifying _ point (EdDsaEngine.messageOf pieces ++ piece)⟩
    rw [← messageOf_cons]
    exact .messageVerifying variant point (piece :: pieces)

theorem sign_alike {engine : SignatureEngine ω} {machine : Machine ω} (world : ω)
    (h : engine.Realizes machine) :
    Attempt.Alike (SameWorld Realizes) ((behaviour suite).sign (engine, world))
      ((Machine.behaviour suite).sign (machine, world)) := by
  cases h with
  | digestIdle hash => exact .error _ ⟨.digestIdle hash, rfl⟩
  | digestVerifying hash curve point data =>
    exact .error _ ⟨.digestVerifying hash curve point data, rfl⟩
  | digestSigning hash curve scalar random data =>
    -- the digest is started anew before the randomness is asked for
    have hnext (world : ω) := (Realizes.digestSigning hash curve scalar random []).sameWorld world
    have hdigest : (State.start.update data).finish = hash.function.digest data := rfl
    simp only [behaviour, step, Attempt.onPart, EcdsaEngine.behaviour, EcdsaEngine.sign,
      Machine.behaviour, Machine.sign, Primitive.draw, Primitive.sign, hdigest]
    cases random.nextBytes EcdsaEngine.entropyLength world with
    | error e world => exact .error _ (hnext world)
    | ok entropy world =>
      cases hsign : (suite.overDigest curve).sign (hash.function.digest data) scalar entropy with
      | none =>
        simp only [hsign]
        exact .error _ (hnext world)
      | some signature =>
        simp only [hsign]
        exact .ok signature (hnext world)
  | messageIdle variant => exact .error _ ⟨.messageIdle variant, rfl⟩
  | messageVerifying variant point pieces =>
    exact .error _ ⟨.messageVerifying variant point pieces, rfl⟩
  | messageSigning variant seed random pieces =>
    -- no randomness is asked for, so the world stays
    have hnext := (Realizes.messageSigning variant seed random []).sameWorld world
    simp only [behaviour, step, Attempt.onPart, EdDsaEngine.behaviour, EdDsaEngine.sign,
      Machine.behaviour, Machine.sign, Primitive.draw, Primitive.sign, Attempt.pure_apply]
    cases (suite.overMessage variant).sign (EdDsaEngine.messageOf pieces) seed with
    | none => exact .error _ hnext
    | some signature => exact .ok signature hnext

theorem verify_alike {engine : SignatureEngine ω} {machine : Machine ω} (signature : Bytes)
    (world : ω) (h : engine.Realizes machine) :
    Attempt.Alike (SameWorld Realizes) ((behaviour suite).verify signature (engine, world))
      ((Machine.behaviour suite).verify signature (machine, world)) := by
  cases h with
  | digestIdle hash => exact .error _ ⟨.digestIdle hash, rfl⟩
  | digestSigning hash curve scalar random data =>
    exact .error _ ⟨.digestSigning hash curve scalar random data, rfl⟩
  | digestVerifying hash curve point data =>
    -- the data are gone afterwards, whatever the verdict
    have hnext := (Realizes.digestVerifying hash curve point []).sameWorld world
    simp only [behaviour, step, Attempt.onPart, EcdsaEngine.behaviour, EcdsaEngine.verify,
      Machine.behaviour, Machine.verify, Primitive.verdict]
    by_cases hform : (suite.overDigest curve).isSignature signature
    · simp only [if_pos hform]
      exact .ok _ hnext
    · simp only [if_neg hform]
      exact .error _ hnext
  | messageIdle variant => exact .error _ ⟨.messageIdle variant, rfl⟩
  | messageSigning variant seed random pieces =>
    exact .error _ ⟨.messageSigning variant seed random pieces, rfl⟩
  | messageVerifying variant point pieces =>
    -- the data are gone afterwards, whatever the verdict
    have hnext := (Realizes.messageVerifying variant point []).sameWorld world
    simp only [behaviour, step, Attempt.onPart, EdDsaEngine.behaviour, EdDsaEngine.verify,
      Machine.behaviour, Machine.verify, Primitive.verdict]
    by_cases hlength : signature.length = variant.signatureLength
    · simp only [if_pos hlength]
      exact .ok _ hnext
    · simp only [if_neg hlength]
      exact .error _ hnext

/-! ### All operations -/

theorem initSign_alike {engine : SignatureEngine ω} {machine : Machine ω} (key : Key)
    (random : RandomSource ω) (world : ω) (h : engine.Realizes machine) :
    Attempt.Alike (SameWorld Realizes) ((behaviour suite).initSign key random (engine, world))
      ((Machine.behaviour suite).initSign key random (machine, world)) := by
  -- only the sort of the engine matters, not what it was ready for
  cases h with
  | digestIdle | digestSigning | digestVerifying => exact digest_initSign_alike ..
  | messageIdle | messageSigning | messageVerifying => exact message_initSign_alike ..

theorem initVerify_alike {engine : SignatureEngine ω} {machine : Machine ω} (key : Key) (world : ω)
    (h : engine.Realizes machine) :
    Attempt.Alike (SameWorld Realizes) ((behaviour suite).initVerify key (engine, world))
      ((Machine.behaviour suite).initVerify key (machine, world)) := by
  cases h with
  | digestIdle | digestSigning | digestVerifying => exact digest_initVerify_alike ..
  | messageIdle | messageSigning | messageVerifying => exact message_initVerify_alike ..

/-- The engines of this library behave like the machine. -/
theorem refines : (behaviour suite).Refines (Machine.behaviour suite)
    (Realizes : SignatureEngine ω → Machine ω → Prop) where
  algorithm h := by
    cases h <;> rfl
  initSign key random world h := initSign_alike suite key random world h
  initVerify key world h := initVerify_alike suite key world h
  update data world h := update_alike suite data world h
  sign world h := sign_alike suite world h
  verify signature world h := verify_alike suite signature world h

end SignatureEngine

end SignedHandshake
