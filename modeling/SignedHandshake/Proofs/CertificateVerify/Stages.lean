import SignedHandshake.CertificateVerify.Signer
import SignedHandshake.CertificateVerify.Verifier
import SignedHandshake.Proofs.Attempt.Rules
import SignedHandshake.Proofs.Engine.Steps

/-!
# The stages of a call

- `Workshop.withEngineFor_of_engine`: what the first stage, the fetching of an engine, may come to.
- `Signer.sign_eq`, `Verifier.verify_eq`: what the last one does, which puts the end into words.
- `Signer.answer`, `Verifier.answer`: how a call ends, from its arguments alone.
-/

namespace SignedHandshake

/-!
## Stage by stage

A call fetches its engine, works on that engine, and puts into words how the work ended. Here each
stage is taken apart once. The last one adds to the log and touches nothing else.

Within the work of a signer there is one point at which it turns to somebody else than its engine:
it asks its re-encoders for another key. `Signer.signThrough` is signing with that left open, so
that a call can be followed through whoever is asked.
-/

variable {E ω α : Type}

/-! ### Fetching the engine -/

namespace Workshop

variable (supplier : Supplier E ω)

/-- Fetch the engine with this name, which is made if there is none yet. -/
def fetch (name : Text) : Attempt (Workshop E ω) E :=
  NameMap.obtain (fun name => Bench.onWorld (supplier.makeEngine name)) name

/-- A new engine may change the world, and nothing else on the bench. -/
theorem exists_world_fetch (name : Text) (workshop : Workshop E ω) :
    ∃ world, (Attempt.left (fetch supplier name workshop)).2 = { workshop.2 with world } := by
  obtain ⟨engines, bench⟩ := workshop
  have hmake : Attempt.left (Bench.onWorld (supplier.makeEngine name) bench) =
      { bench with world := Attempt.left (supplier.makeEngine name bench.world) } :=
    Attempt.left_onPart ..
  -- a cached engine leaves the world alone, and a new one may change it
  unfold fetch NameMap.obtain
  cases hfound : engines.find? name with
  | some found =>
    simp only [hfound]
    exact ⟨bench.world, rfl⟩
  | none =>
    cases hmade : Bench.onWorld (supplier.makeEngine name) bench with
    | ok made after | error e after =>
      rw [hmade] at hmake
      simp only [hfound, hmade]
      exact ⟨_, hmake⟩

variable {supplier} {pair : AlgorithmPair} {name : Text} {workshop : Workshop E ω}

theorem withEngineFor_of_no_name (hname : pair.engineName? = none) (work : Text → Work E ω α) :
    withEngineFor supplier pair work workshop = .error (.noSuchAlgorithm pair.text) workshop := by
  simp only [withEngineFor, hname]
  rfl

theorem withEngineFor_of_no_engine (hname : pair.engineName? = some name) {e : Failure}
    {after : Workshop E ω} (hfetch : fetch supplier name workshop = .error e after)
    (work : Text → Work E ω α) : withEngineFor supplier pair work workshop = .error e after := by
  unfold fetch at hfetch
  simp only [withEngineFor, withEngine, hname, hfetch]

theorem withEngineFor_of_engine (hname : pair.engineName? = some name) {engine : E}
    {engines : NameMap E} {bench : Bench ω}
    (hfetch : fetch supplier name workshop = .ok engine (engines, bench))
    (work : Text → Work E ω α) :
    withEngineFor supplier pair work workshop =
      (work name).onPart (engine, bench) fun (engine, bench) =>
        (engines.insert name engine, bench) := by
  unfold fetch at hfetch
  simp only [withEngineFor, withEngine, hname, hfetch]

/-- The same workshop after some lines were logged. -/
def withLog (workshop : Workshop E ω) (log : List LogLine) : Workshop E ω :=
  (workshop.1, { workshop.2 with log })

end Workshop

/-! ### Asking for another key -/

namespace Signer

variable (signer : Signer E ω) (consult : Key → Work E ω (Option Key))

/-- Try once more with what `consult` gives for a key that the engine refused. -/
def retryThrough (key : Key) (refusal : Failure) : Work E ω Unit := do
  match ← consult key with
  | none => throw refusal
  | some replaced =>
    let (engine, _) ← get
    Work.note .debug (replacement key replaced (signer.supplier.behaviour.algorithm engine))
    signer.initWith replaced

/-- Get the engine ready to sign, with a second try through `consult`. -/
def initThrough (key : Key) : Work E ω Unit :=
  tryCatch (signer.initWith key) fun e =>
    if signer.isRetried e then signer.retryThrough consult key e else throw e

/-- Sign with the engine called `name`, which is ready. -/
def finish (transcript : Transcript) (peer : Option Peer) (name : Text) : Work E ω Bytes := do
  let count ← Work.feed signer.supplier.behaviour transcript
  let signature ← Work.engine signer.supplier.behaviour.sign
  if signature.length > RangeError.maxSignatureLength then
    throw (oversized name signature.length peer)
  Work.note .debug (s!"Signed {count} handshake messages with " ++ name)
  return signature

/-- Get the engine called `name` ready through `consult`, and sign with it. -/
def workThrough (key : Key) (transcript : Transcript) (peer : Option Peer) (name : Text) :
    Work E ω Bytes := do
  signer.initThrough consult key
  signer.finish transcript peer name

/-- The signature over a transcript, or a signing failure, where `consult` is asked
for another key. -/
def signThrough (key : Key) (pair : AlgorithmPair) (transcript : Transcript) (peer : Option Peer) :
    StateM (Workshop E ω) (Except Failure Bytes) := fun workshop =>
  match Workshop.withEngineFor signer.supplier pair (signer.workThrough consult key transcript peer)
      workshop with
  | .ok signature workshop => (.ok signature, workshop)
  | .error e workshop =>
    let failed := failure key pair peer e
    (.error failed, workshop.note .error failed.message)

theorem work_eq_workThrough (key : Key) (transcript : Transcript) (peer : Option Peer) :
    signer.work key transcript peer = signer.workThrough signer.reencode key transcript peer :=
  rfl

/-- A signer asks its re-encoders. -/
theorem sign_eq_signThrough (key : Key) (pair : AlgorithmPair) (transcript : Transcript)
    (peer : Option Peer) :
    signer.sign key pair transcript peer =
      signer.signThrough signer.reencode key pair transcript peer :=
  rfl

end Signer

/-! ### Putting the end into words -/

/-- Whoever is asked, a signer hands out what its work gave, or puts into words what ended it. -/
theorem Signer.signThrough_eq (signer : Signer E ω) (consult : Key → Work E ω (Option Key))
    (key : Key)
    (pair : AlgorithmPair) (transcript : Transcript) (peer : Option Peer)
    (workshop : Workshop E ω) :
    let result := Workshop.withEngineFor signer.supplier pair
      (signer.workThrough consult key transcript peer) workshop
    ∃ log, signer.signThrough consult key pair transcript peer workshop =
      ((Attempt.outcome result).mapError (failure key pair peer),
          (Attempt.left result).withLog log) := by
  unfold signThrough
  cases Workshop.withEngineFor signer.supplier pair (signer.workThrough consult key transcript peer)
      workshop with
  | ok signature after => exact ⟨after.2.log, rfl⟩
  | error e after => exact ⟨_, rfl⟩

/-- A signer hands out what its work gave, or puts into words what ended it. -/
theorem Signer.sign_eq (signer : Signer E ω) (key : Key) (pair : AlgorithmPair)
    (transcript : Transcript) (peer : Option Peer) (workshop : Workshop E ω) :
    let result :=
      Workshop.withEngineFor signer.supplier pair (signer.work key transcript peer) workshop
    ∃ log, signer.sign key pair transcript peer workshop =
      ((Attempt.outcome result).mapError (failure key pair peer),
          (Attempt.left result).withLog log) := by
  rw [sign_eq_signThrough, work_eq_workThrough]
  exact signer.signThrough_eq signer.reencode key pair transcript peer workshop

namespace Verifier

/-- What a verifier says if its work ended like this. -/
def judge (peer : Option Peer) : Except Failure Bool → Except Failure Unit
  | .ok true => .ok ()
  | .ok false => .error (Rejection.mismatch.failure peer)
  | .error e => .error ((Rejection.ofFailure e).failure peer)

theorem judge_eq_ok_iff {peer : Option Peer} {verdict : Except Failure Bool} :
    judge peer verdict = .ok () ↔ verdict = .ok true := by
  match verdict with
  | .ok true | .ok false | .error e => simp [judge]

/-- A verifier judges by how its work ended. -/
theorem verify_eq (verifier : Verifier E ω) (key : Key) (pair : AlgorithmPair) (signature : Bytes)
    (transcript : Transcript) (peer : Option Peer) (workshop : Workshop E ω) :
    let result := Workshop.withEngineFor verifier.supplier pair
      (fun _ => verifier.work key signature transcript) workshop
    ∃ log, verifier.verify key pair signature transcript peer workshop =
      (judge peer (Attempt.outcome result), (Attempt.left result).withLog log) := by
  simp only [verify]
  cases Workshop.withEngineFor verifier.supplier pair
      (fun _ => verifier.work key signature transcript) workshop with
  | ok valid after =>
    cases valid with
    | true => exact ⟨after.2.log, rfl⟩
    | false => exact ⟨_, rfl⟩
  | error e after => exact ⟨_, rfl⟩

end Verifier

end SignedHandshake

/-!
## What signing and verifying come to

`Signer.answer` and `Verifier.answer` say how a call ends without a word about engines, caches or
what happened before: the algorithm follows from the pair, the primitive from the algorithm and the
key, and the result from the primitive, the bytes of the transcript and the randomness. That calls
end like this is shown in `Proofs.CertificateVerify.Outcomes`.
-/

namespace SignedHandshake

/-! ### What is signed with -/

/-- The algorithm of the engine for a pair. -/
def AlgorithmPair.algorithm (pair : AlgorithmPair) : Except Failure EngineAlgorithm :=
  match pair.engineName? with
  | none => .error (.noSuchAlgorithm pair.text)
  | some name =>
    match EngineAlgorithm.ofName? name with
    | none => .error (.noSuchAlgorithm name)
    | some algorithm => .ok algorithm

namespace EngineAlgorithm

variable (suite : Suite)

/-- What is signed with after the key was refused, if `rebuilt` is what re-encoding it gives. -/
def acceptRebuilt (algorithm : EngineAlgorithm) (refusal : Failure) :
    (rebuilt : Except Failure (Option Key)) → Except Failure (Primitive × Bytes)
  | .error e => .error e
  | .ok none => .error refusal
  | .ok (some replaced) => algorithm.accept suite replaced

/-- What is signed with in the end. -/
def ready (algorithm : EngineAlgorithm) (keyReencoding : Bool)
    (rebuilt : Except Failure (Option Key)) (key : Key) : Except Failure (Primitive × Bytes) :=
  match algorithm.accept suite key with
  | .ok ready => .ok ready
  | .error refusal =>
    if keyReencoding then algorithm.acceptRebuilt suite refusal rebuilt else .error refusal

variable {suite}

/-- What is signed with comes from the key itself, or from the key that a re-encoder made of it. -/
theorem ready_eq_ok {algorithm : EngineAlgorithm} {keyReencoding : Bool}
    {rebuilt : Except Failure (Option Key)} {key : Key} {primitive : Primitive} {encoded : Bytes}
    (h : algorithm.ready suite keyReencoding rebuilt key = .ok (primitive, encoded)) :
    ∃ used, (used = key ∨ rebuilt = .ok (some used)) ∧
      algorithm.TakesPrivate suite used primitive ∧ used.encoded = encoded := by
  unfold ready at h
  -- taken as it is, or after a second try
  cases haccept : algorithm.accept suite key with
  | ok accepted =>
    simp only [haccept] at h
    cases h
    exact ⟨key, .inl rfl, accept_eq_ok_iff.mp haccept⟩
  | error refusal =>
    simp only [haccept] at h
    split at h
    · -- of the three ways a second try may end, one is left
      match rebuilt, h with
      | .ok (some replaced), h => exact ⟨replaced, .inr rfl, accept_eq_ok_iff.mp h⟩
    · cases h

end EngineAlgorithm

/-! ### Answers -/

namespace Signer

/-- A signature that fits into a message, or that it does not. -/
def bounded (name : Text) (peer : Option Peer) (signature : Bytes) : Except Failure Bytes :=
  if signature.length > RangeError.maxSignatureLength then
    .error (oversized name signature.length peer)
  else .ok signature

/-- What an engine for `algorithm` gives a signer. -/
def engineAnswer (suite : Suite) (keyReencoding : Bool) (rebuilt : Except Failure (Option Key))
    (key : Key) (transcript : Transcript) (peer : Option Peer) (drawn : Except Failure Bytes)
    (algorithm : EngineAlgorithm) : Except Failure Bytes := do
  let (primitive, encoded) ← algorithm.ready suite keyReencoding rebuilt key
  let message ← transcript.bytes
  let signature ← algorithm.signature suite primitive encoded message drawn
  bounded algorithm.name peer signature

/-- How signing ends. -/
def answer (suite : Suite) (keyReencoding : Bool) (rebuilt : Except Failure (Option Key))
    (key : Key) (pair : AlgorithmPair) (transcript : Transcript) (peer : Option Peer)
    (drawn : Except Failure Bytes) : Except Failure Bytes :=
  (pair.algorithm.bind
    (engineAnswer suite keyReencoding rebuilt key transcript peer drawn)).mapError
    (failure key pair peer)

/-- A signature that fits is handed out as it is. -/
theorem bounded_eq_ok_iff {name : Text} {peer : Option Peer} {signature signed : Bytes} :
    bounded name peer signature = .ok signed ↔
      signature.length ≤ RangeError.maxSignatureLength ∧ signature = signed := by
  rw [bounded, except_error_ite_eq_ok_iff, Nat.not_lt, Except.ok.injEq]

section

variable {suite : Suite} {keyReencoding : Bool} {rebuilt : Except Failure (Option Key)} {key : Key}
  {pair : AlgorithmPair} {transcript : Transcript} {peer : Option Peer}
  {drawn : Except Failure Bytes} {signature : Bytes}

/-- A signer gives a signature exactly if it finds an algorithm, gets ready, has the bytes of the
transcript, and the algorithm gives that signature, which fits. -/
theorem answer_eq_ok_iff :
    answer suite keyReencoding rebuilt key pair transcript peer drawn = .ok signature ↔
      ∃ algorithm primitive encoded message, pair.algorithm = .ok algorithm ∧
        algorithm.ready suite keyReencoding rebuilt key = .ok (primitive, encoded) ∧
        transcript.bytes = .ok message ∧
        algorithm.signature suite primitive encoded message drawn = .ok signature ∧
        signature.length ≤ RangeError.maxSignatureLength := by
  rw [answer, except_mapError_eq_ok_iff]
  constructor
  · intro h
    -- each of the four stages succeeds, and then the signature fits
    obtain ⟨algorithm, halgorithm, h⟩ := except_bind_eq_ok_iff.mp h
    obtain ⟨⟨primitive, encoded⟩, hready, h⟩ := except_bind_eq_ok_iff.mp h
    obtain ⟨message, hmessage, h⟩ := except_bind_eq_ok_iff.mp h
    obtain ⟨signed, hsigned, h⟩ := except_bind_eq_ok_iff.mp h
    obtain ⟨hlength, rfl⟩ := bounded_eq_ok_iff.mp h
    exact ⟨algorithm, primitive, encoded, message, halgorithm, hready, hmessage, hsigned, hlength⟩
  · rintro ⟨algorithm, primitive, encoded, message, halgorithm, hready, hmessage, hsigned, hlength⟩
    refine except_bind_eq_ok_iff.mpr ⟨algorithm, halgorithm, ?_⟩
    refine except_bind_eq_ok_iff.mpr ⟨_, hready, ?_⟩
    refine except_bind_eq_ok_iff.mpr ⟨message, hmessage, ?_⟩
    exact except_bind_eq_ok_iff.mpr ⟨signature, hsigned, bounded_eq_ok_iff.mpr ⟨hlength, rfl⟩⟩

/-- A signer that gives a signature found an algorithm, took a key and the transcript, and has the
signature from the primitive. -/
theorem answer_eq_ok
    (h : answer suite keyReencoding rebuilt key pair transcript peer drawn = .ok signature) :
    ∃ algorithm primitive used message entropy, pair.algorithm = .ok algorithm ∧
      (used = key ∨ rebuilt = .ok (some used)) ∧ algorithm.TakesPrivate suite used primitive ∧
      transcript.bytes = .ok message ∧
      primitive.sign suite message used.encoded entropy = some signature := by
  obtain ⟨algorithm, primitive, encoded, message, halgorithm, hready, hmessage, hsigned, -⟩ :=
    answer_eq_ok_iff.mp h
  obtain ⟨used, hused, htakes, rfl⟩ := EngineAlgorithm.ready_eq_ok hready
  obtain ⟨entropy, -, hentropy⟩ := EngineAlgorithm.signature_eq_ok_iff.mp hsigned
  exact ⟨algorithm, primitive, used, message, entropy, halgorithm, hused, htakes, hmessage,
    hentropy⟩

end

end Signer

namespace Verifier

/-- What an engine for `algorithm` tells a verifier. -/
def engineAnswer (suite : Suite) (key : Key) (signature : Bytes) (transcript : Transcript)
    (algorithm : EngineAlgorithm) : Except Failure Bool := do
  let primitive ← (algorithm.acceptPublic suite key).mapError EngineError.toFailure
  let message ← transcript.bytes
  (primitive.verdict suite message key.encoded signature).mapError EngineError.toFailure

/-- How verifying ends. -/
def answer (suite : Suite) (key : Key) (pair : AlgorithmPair) (signature : Bytes)
    (transcript : Transcript) (peer : Option Peer) : Except Failure Unit :=
  match pair.algorithm.bind (engineAnswer suite key signature transcript) with
  | .ok true => .ok ()
  | .ok false => .error (Rejection.mismatch.failure peer)
  | .error e => .error ((Rejection.ofFailure e).failure peer)

/-- A verifier accepts a signature exactly if it found an algorithm, took the key and the
transcript, and the primitive says that the signature is valid. -/
theorem answer_eq_ok_iff {suite : Suite} {key : Key} {pair : AlgorithmPair} {signature : Bytes}
    {transcript : Transcript} {peer : Option Peer} :
    answer suite key pair signature transcript peer = .ok () ↔
      ∃ algorithm primitive message, pair.algorithm = .ok algorithm ∧
        algorithm.TakesPublic suite key primitive ∧ transcript.bytes = .ok message ∧
        primitive.verdict suite message key.encoded signature = .ok true := by
  have haccepted : answer suite key pair signature transcript peer = .ok () ↔
      pair.algorithm.bind (engineAnswer suite key signature transcript) = .ok true :=
    judge_eq_ok_iff
  rw [haccepted]
  constructor
  · intro h
    -- each of the three stages succeeds, and then the verdict is `true`
    obtain ⟨algorithm, halgorithm, h⟩ := except_bind_eq_ok_iff.mp h
    obtain ⟨primitive, hkey, h⟩ := except_bind_eq_ok_iff.mp h
    obtain ⟨message, hmessage, h⟩ := except_bind_eq_ok_iff.mp h
    have htakes := EngineAlgorithm.acceptPublic_eq_ok_iff.mp (except_mapError_eq_ok_iff.mp hkey)
    exact ⟨algorithm, primitive, message, halgorithm, htakes, hmessage,
      except_mapError_eq_ok_iff.mp h⟩
  · rintro ⟨algorithm, primitive, message, halgorithm, htakes, hmessage, hverdict⟩
    have hkey := EngineAlgorithm.acceptPublic_eq_ok_iff.mpr htakes
    refine except_bind_eq_ok_iff.mpr ⟨algorithm, halgorithm, ?_⟩
    refine except_bind_eq_ok_iff.mpr ⟨primitive, except_mapError_eq_ok_iff.mpr hkey, ?_⟩
    exact except_bind_eq_ok_iff.mpr ⟨message, hmessage, except_mapError_eq_ok_iff.mpr hverdict⟩

end Verifier

end SignedHandshake
