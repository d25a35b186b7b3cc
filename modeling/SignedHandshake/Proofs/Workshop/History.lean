import SignedHandshake.Proofs.CertificateVerify.Outcomes
import SignedHandshake.Scheme.Standard

/-!
# History does not matter

Engines are shared by all calls that use their algorithm, and a call may stop at any point and leave
behind a key, half a transcript, or an engine that refused the first key it was given. None of it
shows in a later call: a call ends as it would have ended on empty caches, given the same randomness
(`Call.ending_independent_of_history`).

Proof structure: every call keeps a workshop in order (`Call.inOrder_run`), so by induction
every run does; and in a workshop that is in order, a call ends like its answer, which does
not mention the workshop.
-/

namespace SignedHandshake

variable {ω : Type}

/-- A call on a workshop, with all its arguments. -/
inductive Call (ω : Type) where
  | sign (config : Config ω) (key : Key) (pair : AlgorithmPair) (transcript : Transcript)
      (peer : Option Peer)
  | verify (key : Key) (pair : AlgorithmPair) (signature : Bytes) (transcript : Transcript)
      (peer : Option Peer)

namespace Call

/-- How a call ended: with a signature, with an accepted signature, or with a failure. -/
inductive Ending where
  | sign (result : Except Failure Bytes)
  | verify (result : Except Failure Unit)

variable (suite : Suite)

/-- Make a call. -/
def run : Call ω → StateM (Workshop (SignatureEngine ω) ω) Ending
  | sign config key pair transcript peer => fun workshop =>
    let (result, workshop) := (Signer.standard suite config).sign key pair transcript peer workshop
    (.sign result, workshop)
  | verify key pair signature transcript peer => fun workshop =>
    let (result, workshop) :=
      (Verifier.standard suite).verify key pair signature transcript peer workshop
    (.verify result, workshop)

/-- The workshop after calls that were made one after the other. -/
def runAll (calls : List (Call ω)) (workshop : Workshop (SignatureEngine ω) ω) :
    Workshop (SignatureEngine ω) ω :=
  calls.foldl (fun workshop call => (call.run suite workshop).2) workshop

/-- The re-encoders of a call depend on the key and the factory alone. -/
def IsPure : Call ω → Prop
  | sign config _ _ _ _ => config.reencoders.IsPure
  | verify .. => True

/-- The randomness that a call gets in a world, if its algorithm takes any: the bytes, or
the failure to give them. -/
def drawn (call : Call ω) (world : ω) : Option (Except Failure Bytes) :=
  match call with
  | sign config _ pair _ _ =>
    match pair.algorithm with
    | .ok (.overDigest _) =>
      some (Attempt.outcome (config.random.nextBytes EcdsaEngine.entropyLength world))
    | _ => none
  | verify .. => none

variable {suite}

/-- Every call keeps a workshop in order, wherever it stops. -/
theorem inOrder_run (call : Call ω) {workshop : Workshop (SignatureEngine ω) ω}
    (h : workshop.InOrder suite) : (call.run suite workshop).2.InOrder suite := by
  have hsupplier := Supplier.standard_maintains (ω := ω) suite
  cases call with
  | sign config key pair transcript peer =>
    exact Signer.sound_sign hsupplier key pair transcript peer h
  | verify key pair signature transcript peer =>
    exact Verifier.sound_verify hsupplier key pair signature transcript
      peer h

/-- So does every sequence of calls. -/
theorem inOrder_runAll (calls : List (Call ω)) {workshop : Workshop (SignatureEngine ω) ω}
    (h : workshop.InOrder suite) : (runAll suite calls workshop).InOrder suite := by
  induction calls generalizing workshop with
  | nil => exact h
  | cons call calls ih => exact ih (call.inOrder_run h)

end Call

/-- A workshop that calls led to, from empty caches on. -/
def Workshop.Reachable (suite : Suite) (workshop : Workshop (SignatureEngine ω) ω) : Prop :=
  ∃ calls start, Call.runAll suite calls (.new start) = workshop

namespace Workshop.Reachable

variable {suite : Suite}

theorem new (start : ω) : (Workshop.new start).Reachable suite :=
  ⟨[], start, rfl⟩

/-- One more call leads to one more workshop. -/
theorem run {workshop : Workshop (SignatureEngine ω) ω} (h : workshop.Reachable suite)
    (call : Call ω) : (call.run suite workshop).2.Reachable suite := by
  obtain ⟨calls, start, rfl⟩ := h
  refine ⟨calls ++ [call], start, ?_⟩
  rw [Call.runAll, List.foldl_append]
  rfl

theorem inOrder {workshop : Workshop (SignatureEngine ω) ω} (h : workshop.Reachable suite) :
    workshop.InOrder suite := by
  obtain ⟨calls, start, rfl⟩ := h
  exact Call.inOrder_runAll calls (inOrder_new suite start)

end Workshop.Reachable

/-! ## Randomness that is not asked for -/

/-- Signatures over a message take no randomness. -/
theorem Signer.engineAnswer_overMessage (suite : Suite) (keyReencoding : Bool)
    (rebuilt : Except Failure (Option Key)) (key : Key) (transcript : Transcript)
    (peer : Option Peer) (drawn other : Except Failure Bytes) (variant : EdVariant) :
    engineAnswer suite keyReencoding rebuilt key transcript peer drawn (.overMessage variant) =
      engineAnswer suite keyReencoding rebuilt key transcript peer other
        (.overMessage variant) := by
  unfold engineAnswer
  cases hready : (EngineAlgorithm.overMessage variant).ready suite keyReencoding rebuilt key with
  | error e => rfl
  | ok ready =>
    obtain ⟨primitive, encoded⟩ := ready
    obtain ⟨used, -, htakes, -⟩ := EngineAlgorithm.ready_eq_ok hready
    cases htakes
    rfl

namespace Call

variable {suite : Suite}

/-- Two workshops that are in order make no difference to a call that gets the same randomness. -/
theorem ending_eq {call : Call ω} (hpure : call.IsPure)
    {left right : Workshop (SignatureEngine ω) ω} (hleft : left.InOrder suite)
    (hright : right.InOrder suite) (hdrawn : call.drawn left.2.world = call.drawn right.2.world) :
    (call.run suite left).1 = (call.run suite right).1 := by
  cases call with
  | verify key pair signature transcript peer =>
    have hleft := Verifier.verify_eq_answer hleft key pair signature transcript peer
    have hright := Verifier.verify_eq_answer hright key pair signature transcript peer
    exact congrArg Ending.verify (hleft.trans hright.symm)
  | sign config key pair transcript peer =>
    -- both answers name the same replacement, since it does not depend on the workshop
    obtain ⟨rebuilt, hrebuilt⟩ := ReencoderRegistry.exists_rebuilds hpure suite key
    have hleft := Signer.sign_eq_answer hleft config hrebuilt pair transcript peer
    have hright := Signer.sign_eq_answer hright config hrebuilt pair transcript peer
    refine congrArg Ending.sign (hleft.trans (Eq.trans ?_ hright.symm))
    unfold Signer.answer
    unfold drawn at hdrawn
    cases halgorithm : pair.algorithm with
    | error e => rfl
    | ok algorithm =>
      cases algorithm with
      | overDigest hash =>
        simp only [halgorithm, Option.some.injEq] at hdrawn
        rw [hdrawn]
      | overMessage variant =>
        simp only [Except.bind]
        rw [Signer.engineAnswer_overMessage]

/-- **History does not matter.** Whatever calls were made before, with whatever keys, pairs,
transcripts, configurations, re-encoders and sources of randomness, and wherever they stopped: the
next call ends as it ends on empty caches, given the same randomness. So it ends alike after any
other history too, such as the same calls in another order. -/
theorem ending_independent_of_history (suite : Suite) {call : Call ω} (hpure : call.IsPure)
    (earlier : List (Call ω)) (start : ω) :
    (∀ fresh, call.drawn (runAll suite earlier (.new start)).2.world = call.drawn fresh →
      (call.run suite (runAll suite earlier (.new start))).1 = (call.run suite (.new fresh)).1) ∧
    (∀ other otherStart, call.drawn (runAll suite earlier (.new start)).2.world =
        call.drawn (runAll suite other (.new otherStart)).2.world →
      (call.run suite (runAll suite earlier (.new start))).1 =
        (call.run suite (runAll suite other (.new otherStart))).1) := by
  have hearlier := inOrder_runAll earlier (Workshop.inOrder_new suite start)
  refine ⟨fun fresh hdrawn => ?_, fun other otherStart hdrawn => ?_⟩
  · exact ending_eq hpure hearlier (Workshop.inOrder_new suite fresh) hdrawn
  · have hother := inOrder_runAll other (Workshop.inOrder_new suite otherStart)
    exact ending_eq hpure hearlier hother hdrawn

/-- A call after one that stopped in the middle of its transcript, with the key still in the engine,
and one that was refused for the form of its signature. The source of randomness counts how often it
was asked. -/
theorem ending_after_aborted_calls :
    let random : RandomSource Nat :=
      { nextBytes := fun length asked => .ok (List.replicate length 7) (asked + 1) }
    let config : Config Nat :=
      { logLevel := .silent, logger := { name := "test" }, random, keyReencoding := true,
        reencoders := .standard }
    let key (role : KeyRole) (encoded : Bytes) : Key :=
      { role, algorithm := "EC", format := .raw, encoded, curve := some .secp256r1 }
    let pair : AlgorithmPair := .ofDigest .sha256 .ecdsa
    let secret := List.replicate 32 1
    let earlier : List (Call Nat) :=
      [.sign config (key .privateKey secret) pair
          [{ canonicalBytes := .ok [1, 2] },
            { canonicalBytes := .error (.primitive "no bytes") }] none,
        .verify (key .publicKey (2 :: secret)) pair [0x30] [{ canonicalBytes := .ok [3] }] none]
    let call : Call Nat :=
      .sign config (key .privateKey secret) pair [{ canonicalBytes := .ok [4] }] none
    (call.run Suite.standard (runAll Suite.standard earlier (.new 0))).1 =
      (call.run Suite.standard (.new 0)).1 := by
  intro random config key pair secret earlier call
  have hpure : call.IsPure := ReencoderRegistry.isPure_standard
  -- the source gives the same bytes whenever it is asked, if it is asked at all
  have hdrawn (asked : Nat) : call.drawn asked = call.drawn 0 := by
    unfold drawn
    cases pair.algorithm with
    | error e => rfl
    | ok algorithm => cases algorithm <;> rfl
  exact (ending_independent_of_history Suite.standard hpure earlier 0).1 0 (hdrawn _)

end Call

end SignedHandshake
