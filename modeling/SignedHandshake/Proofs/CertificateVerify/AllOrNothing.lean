import SignedHandshake.Proofs.Attempt.Rules
import SignedHandshake.Proofs.Workshop.Following

/-!
# Signing is all or nothing (specification §4.2, step 6)

A call to sign ends with the bytes that an engine gave, or with a signing failure. Which of the two
it is, and what is behind the failure, is laid down here as three relations, one for each layer of
the call: `Signer.Readies` for getting the engine ready, `Signer.Signs` for the work on the engine
and `Signer.Ends` for the whole call. Each constructor is one way to end. The steps in their
premises are taken by engines, key factories and re-encoders of which nothing is known.

Every call ends in exactly one of these ways (`ends_iff`), which gives
**`Signer.sign_allOrNothing`**: nothing but the bytes of a complete and fitting signature is ever
handed out, and every failure says what ended the call.
-/

namespace SignedHandshake.Signer

variable {E ω : Type} (signer : Signer E ω)

/-! ## Getting ready -/

/-- How getting ready to sign may end, and what it leaves behind. A key that is refused gets a
second try only if the engine blames the key and the configuration allows it. -/
inductive Readies (key : Key) (start : E × Bench ω) : Except Failure Unit → E × Bench ω → Prop where
  | accepted {after : E × Bench ω}
      (hfirst : Work.engine (signer.supplier.behaviour.initSign key signer.config.random) start =
        .ok () after) : Readies key start (.ok ()) after
  | refused {e : Failure} {after : E × Bench ω}
      (hfirst : Work.engine (signer.supplier.behaviour.initSign key signer.config.random) start =
        .error e after)
      (hfinal : ¬ (e.kind = .invalidKey ∧ signer.config.keyReencoding = true)) :
    Readies key start (.error e) after
  | noReencoder {e : Failure} {between after : E × Bench ω}
      (hfirst : Work.engine (signer.supplier.behaviour.initSign key signer.config.random) start =
        .error e between)
      (hretried : e.kind = .invalidKey ∧ signer.config.keyReencoding = true)
      (hreencode : Work.factories
        (signer.config.reencoders.reencode signer.supplier.makeFactory key) between =
        .ok none after) :
    Readies key start (.error e) after
  | notReencoded {refusal e : Failure} {between after : E × Bench ω}
      (hfirst : Work.engine (signer.supplier.behaviour.initSign key signer.config.random) start =
        .error refusal between)
      (hretried : refusal.kind = .invalidKey ∧ signer.config.keyReencoding = true)
      (hreencode : Work.factories
        (signer.config.reencoders.reencode signer.supplier.makeFactory key) between =
        .error e after) :
    Readies key start (.error e) after
  | reencoded {refusal : Failure} {between after : E × Bench ω} {replaced : Key} {engine : E}
      {bench : Bench ω} {ending : Except Failure Unit}
      (hfirst : Work.engine (signer.supplier.behaviour.initSign key signer.config.random) start =
        .error refusal between)
      (hretried : refusal.kind = .invalidKey ∧ signer.config.keyReencoding = true)
      (hreencode : Work.factories
        (signer.config.reencoders.reencode signer.supplier.makeFactory key) between =
          .ok (some replaced) (engine, bench))
      (hsecond : Work.engine (signer.supplier.behaviour.initSign replaced signer.config.random)
        (engine, bench.note .debug
          (replacement key replaced (signer.supplier.behaviour.algorithm engine))) =
            Attempt.ofExcept ending after) : Readies key start ending after

variable {signer} {key : Key}

theorem isRetried_iff {e : Failure} :
    signer.isRetried e = true ↔ e.kind = .invalidKey ∧ signer.config.keyReencoding = true := by
  rw [isRetried, decide_eq_true_iff]

theorem init_of_readies {start after : E × Bench ω} {ending : Except Failure Unit}
    (h : signer.Readies key start ending after) :
    signer.init key start = Attempt.ofExcept ending after := by
  unfold init initWith
  cases h with
  | accepted hfirst => exact Attempt.tryCatch_of_ok hfirst _
  | refused hfirst hfinal =>
    rw [Attempt.tryCatch_of_error hfirst, if_neg (mt isRetried_iff.mp hfinal)]
    rfl
  -- in all other ways to end, there is a second try, and it ends as asking for a re-encoder does
  | noReencoder hfirst hretried hreencode =>
    rw [Attempt.tryCatch_of_error hfirst, if_pos (isRetried_iff.mpr hretried), retry, reencode,
      Attempt.bind_of_ok hreencode]
    rfl
  | notReencoded hfirst hretried hreencode =>
    rw [Attempt.tryCatch_of_error hfirst, if_pos (isRetried_iff.mpr hretried), retry, reencode,
      Attempt.bind_of_error hreencode]
    rfl
  | reencoded hfirst hretried hreencode hsecond =>
    rw [Attempt.tryCatch_of_error hfirst, if_pos (isRetried_iff.mpr hretried), retry, reencode,
      Attempt.bind_of_ok hreencode]
    exact hsecond

theorem exists_readies (signer : Signer E ω) (key : Key) (start : E × Bench ω) :
    ∃ ending after, signer.Readies key start ending after := by
  -- what the first try ends with, and then what the re-encoders answer
  cases hfirst :
    Work.engine (signer.supplier.behaviour.initSign key signer.config.random) start with
  | ok _ after => exact ⟨_, _, .accepted hfirst⟩
  | error refusal between =>
    by_cases hretried : refusal.kind = .invalidKey ∧ signer.config.keyReencoding = true
    · cases hreencode : Work.factories
        (signer.config.reencoders.reencode signer.supplier.makeFactory key) between with
      | error e after => exact ⟨_, _, .notReencoded hfirst hretried hreencode⟩
      | ok replaced? bench =>
        cases replaced? with
        | none => exact ⟨_, _, .noReencoder hfirst hretried hreencode⟩
        | some replaced =>
          exact ⟨_, _, .reencoded hfirst hretried hreencode (Attempt.eq_ofExcept _)⟩
    · exact ⟨_, _, .refused hfirst hretried⟩

/-- Getting ready ends in exactly one way. -/
theorem readies_iff {start after : E × Bench ω} {ending : Except Failure Unit} :
    signer.Readies key start ending after ↔
      signer.init key start = Attempt.ofExcept ending after := by
  refine ⟨init_of_readies, fun h => ?_⟩
  -- some way it does end, and as `init` has one result, this is the way it ended
  obtain ⟨_, _, hreadies⟩ := exists_readies signer key start
  rw [init_of_readies hreadies, Attempt.ofExcept_inj] at h
  obtain ⟨rfl, rfl⟩ := h
  exact hreadies

/-! ## Work on the engine -/

variable (signer key) in
/-- How work on the engine with this name may end. -/
inductive Signs (transcript : Transcript) (peer : Option Peer) (name : Text) (start : E × Bench ω) :
    Except Failure Bytes → Prop where
  | notReady {e : Failure} {after : E × Bench ω}
      (hready : signer.Readies key start (.error e) after) :
    Signs transcript peer name start (.error e)
  | notFed {e : Failure} {engine : E} {bench : Bench ω} {after : E × ω}
      (hready : signer.Readies key start (.ok ()) (engine, bench))
      (hfed : signer.supplier.behaviour.follow transcript.plan .done (engine, bench.world) =
        .error e after) : Signs transcript peer name start (.error e)
  | notSigned {e : Failure} {engine : E} {bench : Bench ω} {last : EngineReply} {fed after : E × ω}
      (hready : signer.Readies key start (.ok ()) (engine, bench))
      (hfed : signer.supplier.behaviour.follow transcript.plan .done (engine, bench.world) =
        .ok last fed)
      (hsigned : signer.supplier.behaviour.sign fed = .error e after) :
    Signs transcript peer name start (.error e)
  | oversized {signature : Bytes} {engine : E} {bench : Bench ω} {last : EngineReply}
      {fed after : E × ω} (hready : signer.Readies key start (.ok ()) (engine, bench))
      (hfed : signer.supplier.behaviour.follow transcript.plan .done (engine, bench.world) =
        .ok last fed)
      (hsigned : signer.supplier.behaviour.sign fed = .ok signature after)
      (hlength : RangeError.maxSignatureLength < signature.length) :
    Signs transcript peer name start (.error (oversized name signature.length peer))
  | signed {signature : Bytes} {engine : E} {bench : Bench ω} {last : EngineReply}
      {fed after : E × ω} (hready : signer.Readies key start (.ok ()) (engine, bench))
      (hfed : signer.supplier.behaviour.follow transcript.plan .done (engine, bench.world) =
        .ok last fed)
      (hsigned : signer.supplier.behaviour.sign fed = .ok signature after)
      (hlength : signature.length ≤ RangeError.maxSignatureLength) :
    Signs transcript peer name start (.ok signature)

section

variable {transcript : Transcript} {peer : Option Peer} {name : Text} {start : E × Bench ω}

/-- Once the engine was fed, the work ends as the signature decides. -/
theorem outcome_work_of_fed {engine : E} {bench : Bench ω} {last : EngineReply} {fed : E × ω}
    (hready : signer.Readies key start (.ok ()) (engine, bench))
    (hfed : signer.supplier.behaviour.follow transcript.plan .done (engine, bench.world) =
      .ok last fed) :
    Attempt.outcome (signer.work key transcript peer name start) =
      (Attempt.outcome (signer.supplier.behaviour.sign fed)).bind fun signature =>
        if RangeError.maxSignatureLength < signature.length then
          .error (oversized name signature.length peer)
        else .ok signature := by
  obtain ⟨log, hfeed⟩ := (Work.follows_feed _ transcript).of_ok hfed
  -- the log has grown, but the engine goes on from where feeding left it
  have hstep : Attempt.outcome (Work.engine signer.supplier.behaviour.sign
      (fed.1, { bench with world := fed.2, log })) =
        Attempt.outcome (signer.supplier.behaviour.sign fed) := Attempt.outcome_onPart ..
  rw [work, Attempt.bind_of_ok (readies_iff.mp hready), Attempt.bind_of_ok hfeed,
    Attempt.outcome_bind, hstep]
  cases Attempt.outcome (signer.supplier.behaviour.sign fed) with
  | error e => rfl
  | ok signature =>
    simp only [Except.bind]
    by_cases hlength : signature.length > RangeError.maxSignatureLength
    · rw [if_pos hlength, if_pos hlength]
      rfl
    · rw [if_neg hlength, if_neg hlength]
      rfl

theorem outcome_work_of_signs {ending : Except Failure Bytes}
    (h : signer.Signs key transcript peer name start ending) :
    Attempt.outcome (signer.work key transcript peer name start) = ending := by
  cases h with
  | notReady hready =>
    rw [work, Attempt.bind_of_error (readies_iff.mp hready), Attempt.outcome_error]
  | notFed hready hfed =>
    -- lines logged on the way do not show in the outcome
    obtain ⟨log, hfeed⟩ := (Work.follows_feed _ transcript).of_error hfed
    rw [work, Attempt.bind_of_ok (readies_iff.mp hready), Attempt.bind_of_error hfeed,
      Attempt.outcome_error]
  | notSigned hready hfed hsigned =>
    rw [outcome_work_of_fed hready hfed, hsigned]
    rfl
  | oversized hready hfed hsigned hlength =>
    rw [outcome_work_of_fed hready hfed, hsigned]
    exact if_pos hlength
  | signed hready hfed hsigned hlength =>
    rw [outcome_work_of_fed hready hfed, hsigned]
    exact if_neg (Nat.not_lt.mpr hlength)

theorem exists_signs (signer : Signer E ω) (key : Key) (transcript : Transcript)
    (peer : Option Peer) (name : Text) (start : E × Bench ω) :
    ∃ ending, signer.Signs key transcript peer name start ending := by
  -- each step ends one way or the other, and the first failure decides
  obtain ⟨ready, ⟨engine, bench⟩, hready⟩ := exists_readies signer key start
  cases ready with
  | error e => exact ⟨_, .notReady hready⟩
  | ok _ =>
    cases hfed : signer.supplier.behaviour.follow transcript.plan .done (engine, bench.world) with
    | error e after => exact ⟨_, .notFed hready hfed⟩
    | ok last fed =>
      cases hsigned : signer.supplier.behaviour.sign fed with
      | error e after => exact ⟨_, .notSigned hready hfed hsigned⟩
      | ok signature after =>
        by_cases hlength : RangeError.maxSignatureLength < signature.length
        · exact ⟨_, .oversized hready hfed hsigned hlength⟩
        · exact ⟨_, .signed hready hfed hsigned (Nat.le_of_not_lt hlength)⟩

/-- Work on the engine ends in exactly one way. -/
theorem signs_iff {ending : Except Failure Bytes} :
    signer.Signs key transcript peer name start ending ↔
      Attempt.outcome (signer.work key transcript peer name start) = ending := by
  refine ⟨outcome_work_of_signs, ?_⟩
  rintro rfl
  obtain ⟨ending, hsigns⟩ := exists_signs signer key transcript peer name start
  rw [outcome_work_of_signs hsigns]
  exact hsigns

end

/-! ## Whole calls -/

variable (signer key) in
/-- How a call may end, before its failure is put into words. -/
inductive Ends (pair : AlgorithmPair) (transcript : Transcript) (peer : Option Peer)
    (workshop : Workshop E ω) : Except Failure Bytes → Prop where
  | noName (hname : pair.engineName? = none) :
    Ends pair transcript peer workshop (.error (.noSuchAlgorithm pair.text))
  | noEngine {name : Text} {e : Failure} {after : Workshop E ω}
      (hname : pair.engineName? = some name)
      (hfetch : Workshop.fetch signer.supplier name workshop = .error e after) :
    Ends pair transcript peer workshop (.error e)
  | worked {name : Text} {engine : E} {engines : NameMap E} {bench : Bench ω}
      {ending : Except Failure Bytes} (hname : pair.engineName? = some name)
      (hfetch : Workshop.fetch signer.supplier name workshop = .ok engine (engines, bench))
      (hsigns : signer.Signs key transcript peer name (engine, bench) ending) :
    Ends pair transcript peer workshop ending

variable {pair : AlgorithmPair} {transcript : Transcript} {peer : Option Peer}
  {workshop : Workshop E ω}

/-- A call ends in exactly one way. -/
theorem ends_iff {ending : Except Failure Bytes} :
    signer.Ends key pair transcript peer workshop ending ↔
      Attempt.outcome (Workshop.withEngineFor signer.supplier pair (signer.work key transcript peer)
        workshop) = ending := by
  constructor
  · intro h
    cases h with
    | noName hname => rw [Workshop.withEngineFor_of_no_name hname, Attempt.outcome_error]
    | noEngine hname hfetch =>
      rw [Workshop.withEngineFor_of_no_engine hname hfetch, Attempt.outcome_error]
    | worked hname hfetch hsigns =>
      rw [Workshop.withEngineFor_of_engine hname hfetch, Attempt.outcome_onPart]
      exact signs_iff.mp hsigns
  · rintro rfl
    -- from the call to the way it ends: the steps are taken as the call takes them
    cases hname : pair.engineName? with
    | none =>
      rw [Workshop.withEngineFor_of_no_name hname]
      exact .noName hname
    | some name =>
      cases hfetch : Workshop.fetch signer.supplier name workshop with
      | error e after =>
        rw [Workshop.withEngineFor_of_no_engine hname hfetch]
        exact .noEngine hname hfetch
      | ok engine fetched =>
        rw [Workshop.withEngineFor_of_engine hname hfetch, Attempt.outcome_onPart]
        exact .worked hname hfetch (signs_iff.mpr rfl)

/-- A signature is handed out exactly if the call ends with it. -/
theorem sign_eq_ok_iff {signature : Bytes} :
    (signer.sign key pair transcript peer workshop).1 = .ok signature ↔
      signer.Ends key pair transcript peer workshop (.ok signature) := by
  obtain ⟨log, hsign⟩ := signer.sign_eq key pair transcript peer workshop
  rw [hsign, except_mapError_eq_ok_iff, ends_iff]

/-- A failure is what ended the call, put into words. -/
theorem sign_eq_error_iff {failed : Failure} :
    (signer.sign key pair transcript peer workshop).1 = .error failed ↔
      ∃ e, signer.Ends key pair transcript peer workshop (.error e) ∧
        failure key pair peer e = failed := by
  obtain ⟨log, hsign⟩ := signer.sign_eq key pair transcript peer workshop
  rw [hsign, except_mapError_eq_error_iff]
  simp only [ends_iff]

/-- Whatever ended a call, what comes back is a signing failure: a new one for this peer, or the one
that ended the call. -/
theorem failure_cases (key : Key) (pair : AlgorithmPair) (peer : Option Peer) (e : Failure) :
    (∃ addressee, e.kind = .signing addressee ∧ failure key pair peer e = e) ∨
      (∀ addressee, e.kind ≠ .signing addressee) ∧ (failure key pair peer e).kind = .signing peer ∧
        (failure key pair peer e).cause = some e := by
  unfold failure
  cases hkind : e.kind with
  | signing addressee => exact .inl ⟨addressee, rfl, rfl⟩
  | _ => exact .inr ⟨nofun, rfl, rfl⟩

end SignedHandshake.Signer
