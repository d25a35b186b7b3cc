import SignedHandshake.Proofs.Engine.Acceptance
import SignedHandshake.Proofs.Engine.Calls

/-!
# Steps of the machine

What each operation of the machine comes to, said once: how it ends and what it leaves the machine
ready for. A call leaves behind what `Readiness.next` says, whether it succeeded or failed, and ends
as `Readiness.reply` says (`Machine.call_eq`). The world has no part in the former, and in the
latter only as far as signatures take randomness.
-/

namespace SignedHandshake

variable {ω : Type}

/-! ## Keys -/

/-- Accepting a private key makes a machine ready with it, refusing it makes the machine idle. -/
def Readiness.ofAccepted (random : RandomSource ω) : Except Failure (Primitive × Bytes) →
    Readiness ω
  | .ok (primitive, key) => .signing primitive key random []
  | .error _ => .idle

/-- A machine takes the keys that its algorithm accepts. -/
theorem Machine.initSign_eq (suite : Suite) (machine : Machine ω) (key : Key)
    (random : RandomSource ω) (world : ω) :
    (behaviour suite).initSign key random (machine, world) =
      Attempt.ofExcept ((machine.algorithm.accept suite key).map fun _ => ())
        (⟨machine.algorithm, .ofAccepted random (machine.algorithm.accept suite key)⟩, world) := by
  simp only [behaviour, initSign, readyToSign, EngineAlgorithm.accept]
  cases machine.algorithm.acceptPrivate suite key <;> rfl

/-- Accepting a public key makes a machine ready with it, refusing it makes the machine idle. -/
def Readiness.ofPublic (key : Bytes) : Except EngineError Primitive → Readiness ω
  | .ok primitive => .verifying primitive key []
  | .error _ => .idle

/-- A machine takes the public keys that its algorithm accepts. -/
theorem Machine.initVerify_eq (suite : Suite) (machine : Machine ω) (key : Key) (world : ω) :
    (behaviour suite).initVerify key (machine, world) =
      Attempt.ofExcept
        (((machine.algorithm.acceptPublic suite key).mapError EngineError.toFailure).map
          fun _ => ())
        (⟨machine.algorithm, .ofPublic key.encoded (machine.algorithm.acceptPublic suite key)⟩,
          world) := by
  simp only [behaviour, initVerify, readyToVerify]
  cases machine.algorithm.acceptPublic suite key <;> rfl

/-! ## Signatures -/

/-- The randomness that goes into a signature, if `drawn` is what the source gives. -/
def Primitive.entropy (drawn : Except Failure Bytes) : Primitive → Except Failure Bytes
  | overDigest _ _ => drawn
  | overMessage _ => .ok []

/-- The signature that a primitive gives over a message. -/
def EngineAlgorithm.signature (suite : Suite) (algorithm : EngineAlgorithm) (primitive : Primitive)
    (key message : Bytes) (drawn : Except Failure Bytes) : Except Failure Bytes :=
  match primitive.entropy drawn with
  | .error e => .error (EngineError.signingFailed algorithm.name e).toFailure
  | .ok entropy =>
    match primitive.sign suite message key entropy with
    | none =>
      let cause := Failure.primitive (primitive.refusal suite message)
      .error (EngineError.signingFailed algorithm.name cause).toFailure
    | some signature => .ok signature

/-- There is a signature exactly if there is enough randomness and the primitive gives one. -/
theorem EngineAlgorithm.signature_eq_ok_iff {suite : Suite} {algorithm : EngineAlgorithm}
    {primitive : Primitive} {key message signed : Bytes} {drawn : Except Failure Bytes} :
    algorithm.signature suite primitive key message drawn = .ok signed ↔
      ∃ entropy, primitive.entropy drawn = .ok entropy ∧
        primitive.sign suite message key entropy = some signed := by
  unfold signature
  cases primitive.entropy drawn with
  | error e => simp
  | ok entropy =>
    cases hsign : primitive.sign suite message key entropy <;> simp [hsign]

/-- If there is no signature, the failure says so. -/
theorem EngineAlgorithm.kind_of_signature {suite : Suite} {algorithm : EngineAlgorithm}
    {primitive : Primitive} {key message : Bytes} {drawn : Except Failure Bytes} {e : Failure}
    (h : algorithm.signature suite primitive key message drawn = .error e) :
    e.kind = .signature := by
  unfold signature at h
  -- the entropy was missing, or the primitive gave no signature with it
  cases hentropy : primitive.entropy drawn with
  | error cause =>
    simp only [hentropy] at h
    cases h
    rfl
  | ok entropy =>
    cases hsign : primitive.sign suite message key entropy with
    | none =>
      simp only [hentropy, hsign] at h
      cases h
      rfl
    | some signature =>
      simp only [hentropy, hsign] at h
      cases h

/-- A machine that is ready to sign gives the signature over its data, and has no
data afterwards. -/
theorem Machine.sign_eq (suite : Suite) (algorithm : EngineAlgorithm) (primitive : Primitive)
    (key data : Bytes) (random : RandomSource ω) (world : ω) :
    ∃ after, (behaviour suite).sign (⟨algorithm, .signing primitive key random data⟩, world) =
      Attempt.ofExcept
        (algorithm.signature suite primitive key data
          (Attempt.outcome (random.nextBytes EcdsaEngine.entropyLength world)))
        (⟨algorithm, .signing primitive key random []⟩, after) := by
  refine ⟨Attempt.left (primitive.draw random world), ?_⟩
  have hdraw :
      primitive.entropy (Attempt.outcome (random.nextBytes EcdsaEngine.entropyLength world)) =
      Attempt.outcome (primitive.draw random world) := by
    cases primitive <;> rfl
  simp only [behaviour, sign, EngineAlgorithm.signature, hdraw]
  cases primitive.draw random world with
  | error e after => rfl
  | ok entropy after =>
    simp only [Attempt.outcome_ok]
    cases primitive.sign suite data key entropy <;> rfl

/-- If a signature is not looked at, its form is to blame. -/
theorem Primitive.kind_of_verdict {suite : Suite} {primitive : Primitive}
    {message key signature : Bytes} {e : EngineError}
    (h : primitive.verdict suite message key signature = .error e) :
    e.toFailure.kind = .signature := by
  cases primitive with
  | overDigest hash curve =>
    rw [verdict] at h
    split at h
    · cases h
    · cases h
      rfl
  | overMessage variant =>
    rw [verdict] at h
    split at h
    · cases h
    · cases h
      rfl

/-! ## All calls -/

namespace Readiness

variable (suite : Suite) (algorithm : EngineAlgorithm)

/-- What a machine is ready for after a call. -/
def next : Readiness ω → EngineCall ω → Readiness ω
  | _, .initSign key random => .ofAccepted random (algorithm.accept suite key)
  | _, .initVerify key => .ofPublic key.encoded (algorithm.acceptPublic suite key)
  | .signing primitive key random data, .update piece =>
    .signing primitive key random (data ++ piece)
  | .verifying primitive key data, .update piece => .verifying primitive key (data ++ piece)
  | .signing primitive key random _, .sign => .signing primitive key random []
  | .verifying primitive key _, .verify _ => .verifying primitive key []
  | readiness, _ => readiness

/-- How a machine replies to a call. -/
def reply (world : ω) : Readiness ω → EngineCall ω → Except Failure EngineReply
  | _, .initSign key _ => (algorithm.accept suite key).map fun _ => .done
  | _, .initVerify key =>
    ((algorithm.acceptPublic suite key).mapError EngineError.toFailure).map fun _ => .done
  | .idle, .update _ => .error (EngineError.notInitialized algorithm.name).toFailure
  | _, .update _ => .ok .done
  | .signing primitive key random data, .sign =>
    (algorithm.signature suite primitive key data
      (Attempt.outcome (random.nextBytes EcdsaEngine.entropyLength world))).map .signature
  | _, .sign => .error (EngineError.notSigning algorithm.name).toFailure
  | .verifying primitive key data, .verify signature =>
    ((primitive.verdict suite data key signature).mapError EngineError.toFailure).map .verdict
  | _, .verify _ => .error (EngineError.notVerifying algorithm.name).toFailure

variable {suite algorithm} in
/-- A machine that refuses a key says that the key is invalid, and one that fails otherwise does not
blame the key. -/
theorem kind_of_reply {world : ω} {readiness : Readiness ω} {call : EngineCall ω} {e : Failure}
    (h : readiness.reply suite algorithm world call = .error e) : e.kind = call.refusal := by
  cases call with
  | initSign key random =>
    exact EngineAlgorithm.kind_of_accept (except_map_eq_error_iff.mp h)
  | initVerify key =>
    obtain ⟨refusal, hrefusal, rfl⟩ :=
      except_mapError_eq_error_iff.mp (except_map_eq_error_iff.mp h)
    exact refusal.kind_toFailure_of_isKeyError (EngineAlgorithm.isKeyError_of_acceptPublic hrefusal)
  | update piece =>
    cases readiness with
    | idle =>
      cases h
      rfl
    | signing | verifying => cases h
  | sign =>
    cases readiness with
    | idle | verifying =>
      cases h
      rfl
    | signing primitive key random data =>
      exact EngineAlgorithm.kind_of_signature (except_map_eq_error_iff.mp h)
  | verify signature =>
    cases readiness with
    | idle | signing =>
      cases h
      rfl
    | verifying primitive key data =>
      obtain ⟨refusal, hrefusal, rfl⟩ :=
        except_mapError_eq_error_iff.mp (except_map_eq_error_iff.mp h)
      exact Primitive.kind_of_verdict hrefusal

end Readiness

/-- What a call does to a machine. -/
theorem Machine.call_eq (suite : Suite) (machine : Machine ω) (call : EngineCall ω) (world : ω) :
    ∃ after, (behaviour suite).call call (machine, world) =
      Attempt.ofExcept (machine.readiness.reply suite machine.algorithm world call)
        (⟨machine.algorithm, machine.readiness.next suite machine.algorithm call⟩, after) := by
  obtain ⟨algorithm, readiness⟩ := machine
  cases call with
  | initSign key random =>
    -- the state afterwards depends on whether the key is taken
    have hinit :=
      Attempt.map_of_ofExcept (initSign_eq suite ⟨algorithm, readiness⟩ key random world)
        fun _ => EngineReply.done
    refine ⟨world, hinit.trans ?_⟩
    simp only [Readiness.reply, Readiness.next]
    cases algorithm.accept suite key <;> rfl
  | initVerify key =>
    have hinit := Attempt.map_of_ofExcept (initVerify_eq suite ⟨algorithm, readiness⟩ key world)
      fun _ => EngineReply.done
    refine ⟨world, hinit.trans ?_⟩
    simp only [Readiness.reply, Readiness.next]
    cases algorithm.acceptPublic suite key <;> rfl
  | update piece => cases readiness <;> exact ⟨world, rfl⟩
  | sign =>
    cases readiness with
    | idle | verifying => exact ⟨world, rfl⟩
    | signing primitive key random data =>
      -- drawing entropy may change the world
      obtain ⟨after, hsign⟩ := sign_eq suite algorithm primitive key data random world
      exact ⟨after, Attempt.map_of_ofExcept hsign _⟩
  | verify signature =>
    cases readiness with
    | idle | signing => exact ⟨world, rfl⟩
    | verifying primitive key data => exact ⟨world, Attempt.map_of_ofExcept rfl _⟩

end SignedHandshake
