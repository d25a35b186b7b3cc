import SignedHandshake.Proofs.CertificateVerify.Stages
import SignedHandshake.Proofs.Key.Names
import SignedHandshake.Proofs.Workshop.Following

/-!
# Calls end like their answers

On a workshop that is in order, whatever was done with it before, a call ends like its answer
(`Signer.sign_eq_answer`, `Verifier.verify_eq_answer`).

Proof structure: initialization takes whatever engine there is to one that realizes a machine
without data; feeding adds the bytes of the transcript; and the machine says what the last step
gives. No re-encoder gets to see the engine. One that neither looks at the world nor changes it
leaves the answer to the key and the world (`Signer.sign_eq_answer`), and those of this library
leave it to the key alone (`Signer.sign_eq_answer_rebuilt`). One that does may change which key it
is and what is drawn, and nothing else (`Signer.exists_sign_eq_answer`).
-/

namespace SignedHandshake

variable {α ω : Type}

/-! ## Engines for an algorithm -/

namespace Work

/-- A step of the engine ends like the step on the engine and the world. -/
theorem outcome_engine {E : Type} (step : Attempt (E × ω) α) (engine : E) (bench : Bench ω) :
    Attempt.outcome (Work.engine step (engine, bench)) =
      Attempt.outcome (step (engine, bench.world)) :=
  Attempt.outcome_onPart ..

end Work

namespace SignatureEngine

variable (suite : Suite)

/-- An engine that is ready to sign gathers what it is fed. -/
theorem signing_absorbs (algorithm : EngineAlgorithm) (primitive : Primitive) (key : Bytes)
    (random : RandomSource ω) :
    (behaviour suite : EngineBehaviour (SignatureEngine ω) ω).Absorbs fun data engine =>
      engine.Realizes ⟨algorithm, .signing primitive key random data⟩ := by
  intro data piece engine world h
  have halike := (refines suite).update piece world h
  obtain ⟨⟨next, after⟩, hupdate, hnext, rfl⟩ := halike.of_ok
  exact ⟨next, hupdate, hnext⟩

/-- An engine that is ready to verify gathers what it is fed. -/
theorem verifying_absorbs (algorithm : EngineAlgorithm) (primitive : Primitive) (key : Bytes) :
    (behaviour suite : EngineBehaviour (SignatureEngine ω) ω).Absorbs fun data engine =>
      engine.Realizes ⟨algorithm, .verifying primitive key data⟩ := by
  intro data piece engine world h
  have halike := (refines suite).update piece world h
  obtain ⟨⟨next, after⟩, hupdate, hnext, rfl⟩ := halike.of_ok
  exact ⟨next, hupdate, hnext⟩

end SignatureEngine

/-- What a machine that is ready to sign gives. -/
theorem Machine.outcome_sign (suite : Suite) (algorithm : EngineAlgorithm) (primitive : Primitive)
    (key data : Bytes) (random : RandomSource ω) (world : ω) :
    Attempt.outcome
      ((behaviour suite).sign (⟨algorithm, .signing primitive key random data⟩, world)) =
      algorithm.signature suite primitive key data
        (Attempt.outcome (random.nextBytes EcdsaEngine.entropyLength world)) := by
  obtain ⟨after, hsign⟩ := sign_eq suite algorithm primitive key data random world
  rw [hsign, Attempt.outcome_ofExcept]

/-! ## Signing -/

namespace Signer

variable (suite : Suite) (config : Config ω)

/-- A signer with the engines and key factories of this library. -/
def standard : Signer (SignatureEngine ω) ω where
  supplier := .standard suite
  config := config

/-- Getting ready to sign ended like `ready`, and the engine holds no data. -/
def GotReady (algorithm : EngineAlgorithm) (world : ω) (ready : Except Failure (Primitive × Bytes))
    (result : EStateM.Result Failure (SignatureEngine ω × Bench ω) Unit) : Prop :=
  ∃ engine bench, result = Attempt.ofExcept (ready.map fun _ => ()) (engine, bench) ∧
    engine.Realizes ⟨algorithm, .ofAccepted config.random ready⟩ ∧ bench.world = world

/-- A try with a key changes nothing but the engine. -/
theorem initWith_eq {engine : SignatureEngine ω} {machine : Machine ω} (h : engine.Realizes machine)
    (key : Key) (bench : Bench ω) :
    ∃ next, (standard suite config).initWith key (engine, bench) =
        Attempt.ofExcept ((machine.algorithm.accept suite key).map fun _ => ()) (next, bench) ∧
      next.Realizes ⟨machine.algorithm,
        .ofAccepted config.random (machine.algorithm.accept suite key)⟩ := by
  have halike := (SignatureEngine.refines suite).initSign key config.random bench.world h
  rw [Machine.initSign_eq] at halike
  obtain ⟨⟨next, world⟩, hinit, hnext, rfl⟩ := halike.of_ofExcept
  exact ⟨next, Work.engine_of_ofExcept _ hinit, hnext⟩

section

variable {algorithm : EngineAlgorithm} {engine : SignatureEngine ω} {bench : Bench ω} {key : Key}
  {rebuilt : Except Failure (Option Key)}

/-- Re-encoding a key on a bench ends with `rebuilt` and leaves the bench
`after`, whatever the engine is. -/
def Reencodes (key : Key) (bench : Bench ω) (rebuilt : Except Failure (Option Key))
    (after : Bench ω) :
    Prop :=
  ∀ engine, (standard suite config).reencode key (engine, bench) =
    Attempt.ofExcept rebuilt (engine, after)

variable {suite config} in
/-- No re-encoder gets to see the engine. -/
theorem reencodes_of_eq {factories : NameMap (KeyFactory ω)} {world : ω}
    (h : config.reencoders.reencode (Supplier.standard suite).makeFactory key
      (bench.factories, bench.world) = Attempt.ofExcept rebuilt (factories, world)) :
    Reencodes suite config key bench rebuilt { bench with factories, world } := by
  intro engine
  show Attempt.onPart (config.reencoders.reencode (Supplier.standard suite).makeFactory key)
    (bench.factories, bench.world) _ = _
  rw [Attempt.onPart, h]
  cases rebuilt <;> rfl

theorem exists_reencodes (key : Key) (bench : Bench ω) :
    ∃ rebuilt after, Reencodes suite config key bench rebuilt after :=
  ⟨_, _, reencodes_of_eq (Attempt.eq_ofExcept _)⟩

/-- Pure re-encoders change nothing but the factories. -/
theorem exists_reencodes_of_rebuilds (hbench : bench.factories.All (KeyFactory.MadeAs suite))
    (hrebuilt : config.reencoders.Rebuilds suite key rebuilt) :
    ∃ after, Reencodes suite config key bench rebuilt after ∧ after.world = bench.world := by
  obtain ⟨factories, hreencode⟩ := hrebuilt bench.factories bench.world hbench
  exact ⟨_, reencodes_of_eq hreencode, rfl⟩

variable {suite config} {after : Bench ω}

theorem gotReady_retry (h : engine.Realizes ⟨algorithm, .idle⟩)
    (hreencodes : Reencodes suite config key bench rebuilt after) (refusal : Failure) :
    GotReady config algorithm after.world (algorithm.acceptRebuilt suite refusal rebuilt)
      ((standard suite config).retry key refusal (engine, bench)) := by
  have hreencode := hreencodes engine
  unfold retry
  cases rebuilt with
  | error e => exact ⟨engine, after, Attempt.bind_of_error hreencode _, h, rfl⟩
  | ok replaced? =>
    rw [Attempt.bind_of_ok hreencode]
    cases replaced? with
    | none => exact ⟨engine, after, rfl, h, rfl⟩
    | some replaced =>
      -- the second try is a first try on a bench with one more line in its log
      obtain ⟨next, hinit, hnext⟩ := initWith_eq suite config h replaced
        (after.note .debug (replacement key replaced engine.algorithm))
      exact ⟨next, _, hinit, hnext, rfl⟩

/-- The world is the one from before, or the one that a re-encoder left. -/
theorem gotReady_init {machine : Machine ω} (h : engine.Realizes machine)
    (hreencodes : Reencodes suite config key bench rebuilt after) :
    ∃ world, (world = bench.world ∨ world = after.world) ∧
      GotReady config machine.algorithm world
        (machine.algorithm.ready suite config.keyReencoding rebuilt key)
        ((standard suite config).init key (engine, bench)) := by
  obtain ⟨next, hinit, hnext⟩ := initWith_eq suite config h key bench
  unfold EngineAlgorithm.ready init
  cases haccept : machine.algorithm.accept suite key with
  | ok ready =>
    rw [haccept] at hinit hnext
    exact ⟨_, .inl rfl, next, bench, Attempt.tryCatch_of_ok hinit _, hnext, rfl⟩
  | error refusal =>
    rw [haccept] at hinit hnext
    rw [Attempt.tryCatch_of_error hinit]
    -- a refusal always blames the key, so whether it is retried is up to the configuration
    have hkind := EngineAlgorithm.kind_of_accept haccept
    by_cases hreencoding : config.keyReencoding
    · have hretried : (standard suite config).isRetried refusal = true :=
        decide_eq_true ⟨hkind, hreencoding⟩
      simp only [if_pos hretried, if_pos hreencoding]
      exact ⟨_, .inr rfl, gotReady_retry hnext hreencodes refusal⟩
    · have hretried : ¬ (standard suite config).isRetried refusal = true := fun h =>
        hreencoding (of_decide_eq_true h).2
      simp only [if_neg hretried, if_neg hreencoding]
      exact ⟨_, .inl rfl, next, bench, rfl, hnext, rfl⟩

end

variable {suite config} in
/-- Signing with an engine for an algorithm ends like the answer for that algorithm. The engine may
have been used for anything before. -/
theorem outcome_work {engine : SignatureEngine ω} {machine : Machine ω}
    (h : engine.Realizes machine)
    {bench last : Bench ω} {key : Key} {rebuilt : Except Failure (Option Key)}
    (hreencodes : Reencodes suite config key bench rebuilt last) (transcript : Transcript)
    (peer : Option Peer) :
    ∃ world, (world = bench.world ∨ world = last.world) ∧
      Attempt.outcome ((standard suite config).work key transcript peer machine.algorithm.name
          (engine, bench)) =
        engineAnswer suite config.keyReencoding rebuilt key transcript peer
          (Attempt.outcome (config.random.nextBytes EcdsaEngine.entropyLength world))
          machine.algorithm := by
  obtain ⟨world, hwhen, next, after, hinit, hnext, hworld⟩ := gotReady_init h hreencodes
  refine ⟨world, hwhen, ?_⟩
  rw [← hworld]
  unfold work engineAnswer
  cases hready : machine.algorithm.ready suite config.keyReencoding rebuilt key with
  | error e =>
    rw [hready] at hinit
    rw [Attempt.bind_of_error hinit]
    rfl
  | ok ready =>
    obtain ⟨primitive, encoded⟩ := ready
    -- the engine is ready and holds no data
    rw [hready] at hinit hnext
    rw [Attempt.bind_of_ok hinit]
    obtain ⟨fed, last, log, hfeed, hlast, hfed⟩ := Work.feedFrom_of_absorbs
      (SignatureEngine.signing_absorbs suite machine.algorithm primitive encoded config.random)
      transcript 0 after hnext
    have hfeed :
        Work.feed (standard suite config).supplier.behaviour transcript (next, after) = _ :=
      hfeed
    cases hbytes : transcript.bytes with
    | error e =>
      rw [hbytes] at hfeed
      rw [Attempt.bind_of_error hfeed]
      rfl
    | ok message =>
      rw [hbytes] at hfeed
      rw [Attempt.bind_of_ok hfeed]
      -- now it holds the bytes of the transcript, and the machine says what it makes of them
      obtain rfl := hfed message hbytes
      have hsign := ((SignatureEngine.refines suite).sign after.world hlast).outcome
      rw [List.nil_append, Machine.outcome_sign] at hsign
      have hstep : Attempt.outcome (Work.engine (standard suite config).supplier.behaviour.sign
          (last, { after with log })) = _ := (Work.outcome_engine ..).trans hsign
      rw [Attempt.outcome_bind, hstep]
      simp only [bind, Except.bind]
      cases machine.algorithm.signature suite primitive encoded fed
          (Attempt.outcome (config.random.nextBytes EcdsaEngine.entropyLength after.world)) with
      | error e => rfl
      | ok signature =>
        by_cases hlength : signature.length > RangeError.maxSignatureLength
        · simp only [bounded, if_pos hlength]
          rfl
        · simp only [bounded, if_neg hlength]
          rfl

end Signer

/-! ## Verifying -/

namespace Verifier

variable (suite : Suite)

/-- A verifier with the engines of this library. -/
def standard : Verifier (SignatureEngine ω) ω where
  supplier := .standard suite

/-- Verifying with an engine for an algorithm ends like the answer for that algorithm. The engine
may have been used for anything before. -/
theorem outcome_work {engine : SignatureEngine ω} {machine : Machine ω}
    (h : engine.Realizes machine)
    (bench : Bench ω) (key : Key) (signature : Bytes) (transcript : Transcript) :
    Attempt.outcome ((standard suite).work key signature transcript (engine, bench)) =
      engineAnswer suite key signature transcript machine.algorithm := by
  -- the engine is a machine for the algorithm, and stays one at every step
  have halike := (SignatureEngine.refines suite).initVerify key bench.world h
  rw [Machine.initVerify_eq] at halike
  obtain ⟨⟨next, world⟩, hinit, hnext, rfl⟩ := halike.of_ofExcept
  have hinit : Work.engine ((standard suite).supplier.behaviour.initVerify key)
      (engine, bench) = _ :=
    Work.engine_of_ofExcept _ hinit
  unfold work engineAnswer
  cases hkey : machine.algorithm.acceptPublic suite key with
  | error e =>
    rw [hkey] at hinit
    rw [Attempt.bind_of_error hinit]
    rfl
  | ok primitive =>
    rw [hkey] at hinit hnext
    rw [Attempt.bind_of_ok hinit]
    -- the entries are absorbed one by one, and what was absorbed is the message
    obtain ⟨fed, last, log, hfeed, hlast, hfed⟩ := Work.feedFrom_of_absorbs
      (SignatureEngine.verifying_absorbs suite machine.algorithm primitive key.encoded)
      transcript 0 bench hnext
    have hfeed : discard (Work.feed (standard suite).supplier.behaviour transcript)
        (next, bench) = _ :=
      Attempt.discard_of_ofExcept hfeed
    cases hbytes : transcript.bytes with
    | error e =>
      rw [hbytes] at hfeed
      rw [Attempt.bind_of_error hfeed]
      rfl
    | ok message =>
      rw [hbytes] at hfeed
      rw [Attempt.bind_of_ok hfeed]
      obtain rfl := hfed message hbytes
      have hverify := ((SignatureEngine.refines suite).verify signature bench.world hlast).outcome
      rw [List.nil_append] at hverify
      refine (Work.outcome_engine ..).trans (hverify.trans ?_)
      exact Attempt.outcome_ofExcept ..

end Verifier

/-! ## Calls -/

/-- A workshop whose engines and factories are those of this library, whatever was
done with them. -/
def Workshop.InOrder (suite : Suite) (workshop : Workshop (SignatureEngine ω) ω) : Prop :=
  workshop.Sound SignatureEngine.Standing (KeyFactory.MadeAs suite)

/-- A workshop with empty caches. -/
def Workshop.new {E : Type} (world : ω) : Workshop E ω :=
  (.empty, { world })

theorem Workshop.inOrder_new (suite : Suite) (world : ω) :
    (Workshop.new world : Workshop (SignatureEngine ω) ω).InOrder suite :=
  ⟨.empty, .empty⟩

namespace Workshop

variable {suite : Suite} {workshop : Workshop (SignatureEngine ω) ω}

/-- In a workshop that is in order there is an engine for every algorithm, and for nothing else. -/
theorem fetch_eq (h : workshop.InOrder suite) (name : Text) :
    (∃ algorithm engine engines, EngineAlgorithm.ofName? name = some algorithm ∧
        (∃ machine : Machine ω, engine.Realizes machine ∧ machine.algorithm = algorithm) ∧
        fetch (.standard suite) name workshop = .ok engine (engines, workshop.2)) ∨
      EngineAlgorithm.ofName? name = none ∧
        fetch (.standard suite) name workshop = .error (.noSuchAlgorithm name) workshop := by
  obtain ⟨engines, bench⟩ := workshop
  unfold fetch NameMap.obtain
  -- an engine in the cache was made for its name; otherwise one is made now, or the name is unknown
  cases hfound : engines.find? name with
  | some engine =>
    obtain ⟨machine, hrealizes, hname⟩ := h.engines name engine hfound
    simp only [hfound]
    exact .inl ⟨_, engine, engines, hname, ⟨machine, hrealizes, rfl⟩, rfl⟩
  | none =>
    rcases SignatureEngine.create_eq (ω := ω) name with
      ⟨algorithm, engine, hname, hcreate, hrealizes⟩ | ⟨hname, hcreate⟩
    · refine .inl ⟨algorithm, engine, engines.insert name engine, hname, ⟨_, hrealizes, rfl⟩, ?_⟩
      simp only [hfound, Supplier.standard, Bench.onWorld, Attempt.onPart, hcreate,
        Attempt.ofExcept]
    · refine .inr ⟨hname, ?_⟩
      simp only [hfound, Supplier.standard, Bench.onWorld, Attempt.onPart, hcreate,
        Attempt.ofExcept]

/-- A call fails if the pair has no algorithm, and otherwise ends like its work on some
engine for the algorithm. -/
theorem outcome_withEngineFor_cases (h : workshop.InOrder suite)
    (work : Text → Work (SignatureEngine ω) ω α) (pair : AlgorithmPair) :
    (∃ e, pair.algorithm = .error e ∧
        Attempt.outcome (withEngineFor (.standard suite) pair work workshop) = .error e) ∨
      ∃ (engine : SignatureEngine ω) (machine : Machine ω), pair.algorithm = .ok machine.algorithm ∧
        engine.Realizes machine ∧
        Attempt.outcome (withEngineFor (.standard suite) pair work workshop) =
          Attempt.outcome (work machine.algorithm.name (engine, workshop.2)) := by
  unfold AlgorithmPair.algorithm
  cases hpair : pair.engineName? with
  | none => exact .inl ⟨_, rfl, by rw [withEngineFor_of_no_name hpair]; rfl⟩
  | some name =>
    rcases fetch_eq h name with
      ⟨_, engine, engines, hname, ⟨machine, hrealizes, rfl⟩, hfetch⟩ | ⟨hname, hfetch⟩
    · refine .inr ⟨engine, machine, by simp only [hname], hrealizes, ?_⟩
      rw [withEngineFor_of_engine hpair hfetch, Attempt.outcome_onPart,
        EngineAlgorithm.name_of_ofName? hname]
    · refine .inl ⟨_, by simp only [hname]; rfl, ?_⟩
      rw [withEngineFor_of_no_engine hpair hfetch]
      rfl

/-- A call ends like its answer if the work it does on any engine for an algorithm does. -/
theorem outcome_withEngineFor (h : workshop.InOrder suite)
    (work : Text → Work (SignatureEngine ω) ω α) (answer : EngineAlgorithm → Except Failure α)
    (hwork : ∀ engine machine, SignatureEngine.Realizes engine machine →
      Attempt.outcome (work machine.algorithm.name (engine, workshop.2)) = answer machine.algorithm)
    (pair : AlgorithmPair) :
    Attempt.outcome (withEngineFor (.standard suite) pair work workshop) =
      pair.algorithm.bind answer := by
  rcases outcome_withEngineFor_cases h work pair with
    ⟨e, halgorithm, hcall⟩ | ⟨engine, machine, halgorithm, hrealizes, hcall⟩
  · rw [hcall, halgorithm]
    rfl
  · rw [hcall, halgorithm, hwork engine machine hrealizes]
    rfl

end Workshop

/-- Signing in a workshop that is in order ends like its answer: nothing that was done there before
shows. -/
theorem Signer.sign_eq_answer {suite : Suite} {workshop : Workshop (SignatureEngine ω) ω}
    (h : workshop.InOrder suite) (config : Config ω) {key : Key}
    {rebuilt : Except Failure (Option Key)}
    (hrebuilt : config.reencoders.Rebuilds suite key rebuilt)
    (pair : AlgorithmPair) (transcript : Transcript) (peer : Option Peer) :
    ((standard suite config).sign key pair transcript peer workshop).1 =
      answer suite config.keyReencoding rebuilt key pair transcript peer
        (Attempt.outcome (config.random.nextBytes EcdsaEngine.entropyLength workshop.2.world)) := by
  obtain ⟨log, hsign⟩ := (standard suite config).sign_eq key pair transcript peer workshop
  obtain ⟨after, hreencodes, hworld⟩ :=
    exists_reencodes_of_rebuilds suite config h.factories hrebuilt
  have hwork :=
    Workshop.outcome_withEngineFor h ((standard suite config).work key transcript peer) _
    (fun engine machine hrealizes => by
      obtain ⟨world, hwhen, hdone⟩ := outcome_work hrealizes hreencodes transcript peer
      rw [hworld, or_self] at hwhen
      rw [hwhen] at hdone
      exact hdone) pair
  rw [hsign]
  exact congrArg (·.mapError (failure key pair peer)) hwork

/-- With the re-encoders of this library, what is rebuilt is up to the key alone. -/
theorem Signer.sign_eq_answer_rebuilt {suite : Suite} {config : Config ω}
    {workshop : Workshop (SignatureEngine ω) ω} (hreencoders : config.reencoders = .standard)
    (h : workshop.InOrder suite) (key : Key) (pair : AlgorithmPair) (transcript : Transcript)
    (peer : Option Peer) :
    ((standard suite config).sign key pair transcript peer workshop).1 =
      answer suite config.keyReencoding key.rebuilt key pair transcript peer
        (Attempt.outcome (config.random.nextBytes EcdsaEngine.entropyLength workshop.2.world)) := by
  refine sign_eq_answer h config ?_ pair transcript peer
  rw [hreencoders]
  exact ReencoderRegistry.rebuilds_rebuilt suite key

/-- Re-encoders that look at the world and change it make no difference to that: a call still ends
like the answer for what was rebuilt and drawn. -/
theorem Signer.exists_sign_eq_answer {suite : Suite} {workshop : Workshop (SignatureEngine ω) ω}
    (h : workshop.InOrder suite) (config : Config ω) (key : Key) (pair : AlgorithmPair)
    (transcript : Transcript) (peer : Option Peer) :
    ∃ rebuilt drawn, ((standard suite config).sign key pair transcript peer workshop).1 =
      answer suite config.keyReencoding rebuilt key pair transcript peer drawn := by
  obtain ⟨log, hsign⟩ := (standard suite config).sign_eq key pair transcript peer workshop
  obtain ⟨rebuilt, after, hreencodes⟩ := exists_reencodes suite config key workshop.2
  rw [hsign]
  rcases Workshop.outcome_withEngineFor_cases h ((standard suite config).work key transcript peer)
    pair with ⟨e, halgorithm, hcall⟩ | ⟨engine, machine, halgorithm, hrealizes, hcall⟩
  · refine ⟨rebuilt, .ok [], congrArg (Except.mapError (failure key pair peer)) ?_⟩
    rw [halgorithm]
    exact hcall
  · obtain ⟨world, -, hdone⟩ := outcome_work hrealizes hreencodes transcript peer
    refine ⟨rebuilt, Attempt.outcome (config.random.nextBytes EcdsaEngine.entropyLength world),
      congrArg (Except.mapError (failure key pair peer)) ?_⟩
    rw [halgorithm]
    exact hcall.trans hdone

/-- Verifying in a workshop that is in order ends like its answer. -/
theorem Verifier.verify_eq_answer {suite : Suite} {workshop : Workshop (SignatureEngine ω) ω}
    (h : workshop.InOrder suite) (key : Key) (pair : AlgorithmPair) (signature : Bytes)
    (transcript : Transcript) (peer : Option Peer) :
    ((standard suite).verify key pair signature transcript peer workshop).1 =
      answer suite key pair signature transcript peer := by
  obtain ⟨log, hverify⟩ := (standard suite).verify_eq key pair signature transcript peer workshop
  have hwork := Workshop.outcome_withEngineFor h
    (fun _ => (standard suite).work key signature transcript) _
    (fun engine machine hrealizes => outcome_work suite hrealizes workshop.2 key signature
      transcript) pair
  rw [hverify]
  exact congrArg (judge peer) hwork

end SignedHandshake
