import SignedHandshake.Engine.Scripted
import SignedHandshake.Proofs.CertificateVerify.AllOrNothing
import SignedHandshake.Proofs.Workshop.Companions

/-!
# The second try (specification §4.2, step 3)

An engine that refuses a key gets a second one, if a re-encoder makes one of the first. Whether it
comes to that depends on how the engine refused, on the configuration, and on re-encoders and key
factories of which nothing is known. What a call really does is seen from a trace: engines carry
along what is done on them, with how it ended, and asking the re-encoders leaves its mark there too
(`Signer.trace`). Tracing makes no difference to a call.

Proof structure: there are five ways in which a trace may begin (`Signer.Opens`), one for each way
in which getting the engine ready may end. Nothing but feeding and signing comes behind that
(`Signer.keeps_finish`, by induction on the transcript), and only if the engine got ready. All that
is said about the second try is read off these traces (`Signer.Opens.triesAgain`).
-/

namespace SignedHandshake

variable {E ω : Type}

/-! ## Asking the re-encoders -/

namespace ReencoderRegistry

/-- How asking for another key ends: there may be no re-encoder for the key, none of the key factory
that the re-encoder needs, or no key in the end. -/
inductive Consults (registry : ReencoderRegistry ω) (make : Text → Attempt ω (KeyFactory ω))
    (key : Key)
    (factories : NameMap (KeyFactory ω)) (world : ω) : Except Failure (Option Key) → Prop where
  | noReencoder (hnone : registry.find? key.algorithm = none) :
    Consults registry make key factories world (.ok none)
  | noFactory {reencoder : Reencoder ω} {e : Failure} {after : NameMap (KeyFactory ω) × ω}
      (hfound : registry.find? key.algorithm = some reencoder)
      (hfactory : NameMap.obtain make reencoder.standardName (factories, world) = .error e after) :
    Consults registry make key factories world (.error e)
  | notReencoded {reencoder : Reencoder ω} {factory : KeyFactory ω} {next : NameMap (KeyFactory ω)}
      {between after : ω} {e : Failure} (hfound : registry.find? key.algorithm = some reencoder)
      (hfactory : NameMap.obtain make reencoder.standardName (factories, world) =
        .ok factory (next, between))
      (hreencode : reencoder.reencode key factory between = .error e after) :
    Consults registry make key factories world (.error e)
  | reencoded {reencoder : Reencoder ω} {factory : KeyFactory ω} {next : NameMap (KeyFactory ω)}
      {between after : ω} {replaced : Key} (hfound : registry.find? key.algorithm = some reencoder)
      (hfactory : NameMap.obtain make reencoder.standardName (factories, world) =
        .ok factory (next, between))
      (hreencode : reencoder.reencode key factory between = .ok replaced after) :
    Consults registry make key factories world (.ok (some replaced))

theorem consults_reencode (registry : ReencoderRegistry ω) (make : Text → Attempt ω (KeyFactory ω))
    (key : Key) (factories : NameMap (KeyFactory ω)) (world : ω) :
    registry.Consults make key factories world
      (Attempt.outcome (registry.reencode make key (factories, world))) := by
  unfold reencode
  -- no re-encoder, or one, with a factory that is missing, that fails or that answers
  cases hfound : registry.find? key.algorithm with
  | none => exact .noReencoder hfound
  | some reencoder =>
    simp only
    cases hfactory : NameMap.obtain make reencoder.standardName (factories, world) with
    | error e after => exact .noFactory hfound hfactory
    | ok factory after =>
      obtain ⟨next, between⟩ := after
      simp only
      cases hreencode : reencoder.reencode key factory between with
      | ok replaced after => exact .reencoded hfound hfactory hreencode
      | error e after => exact .notReencoded hfound hfactory hreencode

end ReencoderRegistry

/-! ## Traces -/

/-- Something that a signer does on the way to a signature, and how it ended. -/
inductive SigningAct (ω : Type) where
  /-- A call on its engine. -/
  | call (call : EngineCall ω) (ending : Except Failure EngineReply)
  /-- Asking the re-encoders for another key, with the key factories and the world
  that there were. -/
  | consult (key : Key) (factories : NameMap (KeyFactory ω)) (world : ω)
      (ending : Except Failure (Option Key))

namespace SigningAct

/-- Getting the engine ready to sign. -/
def isInit : SigningAct ω → Bool
  | call (.initSign ..) _ => true
  | _ => false

/-- Asking the re-encoders. -/
def isConsult : SigningAct ω → Bool
  | consult .. => true
  | _ => false

/-- Using an engine that is ready: feeding it, and having it sign. -/
def isUse : SigningAct ω → Bool
  | call (.update _) _ | call .sign _ => true
  | _ => false

/-- An act is of one sort only. -/
theorem eq_false_of_isUse {act : SigningAct ω} (h : act.isUse = true) :
    act.isInit = false ∧ act.isConsult = false := by
  cases act with
  | consult => cases h
  | call call ending =>
    cases call with
    | update | sign => exact ⟨rfl, rfl⟩
    | initSign | initVerify | verify => cases h

end SigningAct

namespace Signer

variable (signer : Signer E ω)

/-- The same signer, with engines that carry along what is done on them. -/
def traced : Signer (E × List (SigningAct ω)) ω where
  supplier := signer.supplier.accompanied (fun call ending acts => acts ++ [.call call ending]) []
  config := signer.config

/-- Ask the re-encoders, and leave that in the trace. -/
def tracedConsult (key : Key) : Work (E × List (SigningAct ω)) ω (Option Key) :=
  (signer.reencode key).accompany fun bench ending acts =>
    acts ++ [.consult key bench.factories bench.world ending]

/-- Sign with engines that carry along what is done on them, which is nothing in the beginning. -/
def trace (key : Key) (pair : AlgorithmPair) (transcript : Transcript) (peer : Option Peer)
    (workshop : Workshop E ω) : Except Failure Bytes × Workshop (E × List (SigningAct ω)) ω :=
  signer.traced.signThrough signer.tracedConsult key pair transcript peer
    (workshop.mark fun _ => [])

/-- What is done in a call on the engine for the pair. -/
def acts (key : Key) (pair : AlgorithmPair) (transcript : Transcript) (peer : Option Peer)
    (workshop : Workshop E ω) : List (SigningAct ω) :=
  match pair.engineName? with
  | none => []
  | some name =>
    (((signer.trace key pair transcript peer workshop).2.1.find? name).map Prod.snd).getD []

/-- Engines with traces are counterparts of those without. -/
theorem traced_refines : signer.traced.supplier.Refines signer.supplier SameEngine :=
  signer.supplier.accompanied_refines _ []

/-- Tracing makes no difference to a call. -/
theorem trace_counterparts (key : Key) (pair : AlgorithmPair) (transcript : Transcript)
    (peer : Option Peer) (workshop : Workshop E ω) :
    (signer.trace key pair transcript peer workshop).1 =
        (signer.sign key pair transcript peer workshop).1 ∧
      (signer.trace key pair transcript peer workshop).2.Related SameEngine
        (signer.sign key pair transcript peer workshop).2 := by
  have hconsult (key : Key) : Attempt.Matches (SameWorld SameEngine) (signer.tracedConsult key)
      (signer.reencode key) := by
    rintro ⟨engine, bench⟩ ⟨plain, _⟩ ⟨hsame, rfl⟩
    exact Attempt.alike_accompany _ (signer.reencode key) bench hsame
  exact signThrough_counterparts signer.traced_refines key pair transcript peer
    (workshop.related_mark fun _ => []) signer.config hconsult

/-! ## How a trace begins -/

/-- Getting the engine ready with a key, always with the random source of the signer. -/
def initAct (key : Key) (ending : Except Failure Unit) : SigningAct ω :=
  .call (.initSign key signer.config.random) (ending.map fun _ => .done)

/-- How asking for another key ends for this signer. -/
abbrev Consults (key : Key) (factories : NameMap (KeyFactory ω)) (world : ω)
    (ending : Except Failure (Option Key)) : Prop :=
  signer.config.reencoders.Consults signer.supplier.makeFactory key factories world ending

/-- What is done to get an engine ready for a key, and how that ends. -/
inductive Opens (key : Key) : List (SigningAct ω) → Except Failure Unit → Prop where
  | accepted : Opens key [signer.initAct key (.ok ())] (.ok ())
  | closed {e : Failure} (hclosed : e.kind = .invalidKey → signer.config.keyReencoding = false) :
    Opens key [signer.initAct key (.error e)] (.error e)
  | noReencoder {e : Failure} {factories : NameMap (KeyFactory ω)} {world : ω}
      (hkind : e.kind = .invalidKey) (hopen : signer.config.keyReencoding = true)
      (hconsults : signer.Consults key factories world (.ok none)) :
    Opens key [signer.initAct key (.error e), .consult key factories world (.ok none)] (.error e)
  | notReencoded {refusal e : Failure} {factories : NameMap (KeyFactory ω)} {world : ω}
      (hkind : refusal.kind = .invalidKey) (hopen : signer.config.keyReencoding = true)
      (hconsults : signer.Consults key factories world (.error e)) :
    Opens key [signer.initAct key (.error refusal),
      .consult key factories world (.error e)] (.error e)
  | reencoded {refusal : Failure} {factories : NameMap (KeyFactory ω)} {world : ω} {replaced : Key}
      {ending : Except Failure Unit} (hkind : refusal.kind = .invalidKey)
      (hopen : signer.config.keyReencoding = true)
      (hconsults : signer.Consults key factories world (.ok (some replaced))) :
    Opens key [signer.initAct key (.error refusal),
      .consult key factories world (.ok (some replaced)), signer.initAct replaced ending] ending

/-- A try adds itself to the trace. -/
theorem traced_initWith (key : Key) (engine : E) (acts : List (SigningAct ω)) (bench : Bench ω) :
    ∃ ending next after, signer.traced.initWith key ((engine, acts), bench) =
      Attempt.ofExcept ending ((next, acts ++ [signer.initAct key ending]), after) := by
  refine ⟨_, _, _, Attempt.onPart_of_ofExcept (Attempt.accompany_apply
    (fun _ ending acts => acts ++ [signer.initAct key ending])
    (signer.supplier.behaviour.initSign key signer.config.random) engine acts bench.world) _⟩

/-- So does asking for another key. -/
theorem tracedConsult_eq (key : Key) (engine : E) (acts : List (SigningAct ω)) (bench : Bench ω) :
    ∃ ending next after, signer.Consults key bench.factories bench.world ending ∧
      signer.tracedConsult key ((engine, acts), bench) = Attempt.ofExcept ending
        ((next, acts ++ [.consult key bench.factories bench.world ending]), after) := by
  have hconsults := signer.config.reencoders.consults_reencode signer.supplier.makeFactory key
    bench.factories bench.world
  have hending : Attempt.outcome (signer.reencode key (engine, bench)) =
      Attempt.outcome (signer.config.reencoders.reencode signer.supplier.makeFactory key
        (bench.factories, bench.world)) := Attempt.outcome_onPart ..
  rw [← hending] at hconsults
  exact ⟨_, _, _, hconsults, Attempt.accompany_apply ..⟩

/-- Getting an engine ready adds to the trace one of the five ways to begin, and ends that way. -/
theorem opens_initThrough (key : Key) (engine : E) (acts : List (SigningAct ω)) (bench : Bench ω) :
    ∃ opening ready next after, signer.Opens key opening ready ∧
      signer.traced.initThrough signer.tracedConsult key ((engine, acts), bench) =
        Attempt.ofExcept ready ((next, acts ++ opening), after) := by
  obtain ⟨first, tried, between, hfirst⟩ := signer.traced_initWith key engine acts bench
  unfold initThrough
  cases first with
  | ok _ => exact ⟨_, _, tried, between, .accepted, Attempt.tryCatch_of_ok hfirst _⟩
  | error refusal =>
    rw [Attempt.tryCatch_of_error hfirst]
    by_cases hretried : signer.traced.isRetried refusal = true
    · obtain ⟨hkind, hopen⟩ := of_decide_eq_true hretried
      obtain ⟨ending, next, after, hconsults, hconsult⟩ := signer.tracedConsult_eq key tried
        (acts ++ [signer.initAct key (.error refusal)]) between
      rw [if_pos hretried, retryThrough]
      rw [List.append_assoc] at hconsult
      match ending with
      | .error e =>
        rw [Attempt.bind_of_error hconsult]
        exact ⟨_, _, next, after, .notReencoded hkind hopen hconsults, rfl⟩
      | .ok none =>
        rw [Attempt.bind_of_ok hconsult]
        exact ⟨_, _, next, after, .noReencoder hkind hopen hconsults, rfl⟩
      | .ok (some replaced) =>
        rw [Attempt.bind_of_ok hconsult]
        -- the second try is a first try with another key, behind a longer trace
        obtain ⟨second, last, bench, hsecond⟩ := signer.traced_initWith replaced next
          (acts ++ ([signer.initAct key (.error refusal)] ++
            [.consult key between.factories between.world (.ok (some replaced))]))
          (after.note .debug (replacement key replaced (signer.supplier.behaviour.algorithm next)))
        rw [List.append_assoc] at hsecond
        exact ⟨_, _, last, bench, .reencoded hkind hopen hconsults, hsecond⟩
    · rw [if_neg hretried]
      refine ⟨_, _, tried, between, .closed fun hkind => ?_, rfl⟩
      by_contra hopen
      exact hretried (decide_eq_true ⟨hkind, Bool.not_eq_false _ ▸ hopen⟩)

/-! ## How a trace goes on -/

/-- Behind these acts, the trace of an engine has nothing but uses. -/
def UsedAfter (acts : List (SigningAct ω)) (s : (E × List (SigningAct ω)) × Bench ω) : Prop :=
  ∃ uses, s.1.2 = acts ++ uses ∧ ∀ act ∈ uses, act.isUse = true

theorem usedAfter_self (engine : E) (acts : List (SigningAct ω)) (bench : Bench ω) :
    UsedAfter acts ((engine, acts), bench) :=
  ⟨[], (List.append_nil acts).symm, List.forall_mem_nil _⟩

/-- Using the engine adds nothing but uses to the trace. -/
theorem keeps_finish (acts : List (SigningAct ω)) (transcript : Transcript) (peer : Option Peer)
    (name : Text) : Attempt.Keeps (UsedAfter acts) (signer.traced.finish transcript peer name) := by
  -- an engine call that counts as a use keeps the property, and so does logging
  have hstep {α : Type} (call : EngineCall ω) (reply : α → EngineReply)
      (hcall : ∀ ending, (SigningAct.call call ending).isUse = true) (step : Attempt (E × ω) α) :
      Attempt.Keeps (UsedAfter acts)
        (Work.engine (step.accompany fun _ ending acts =>
            acts ++ [.call call (ending.map reply)])) := by
    rintro ⟨⟨engine, _⟩, bench⟩ ⟨uses, rfl, huses⟩
    rw [Work.engine, Attempt.left_onPart, Attempt.accompany_apply, Attempt.left_ofExcept]
    refine ⟨uses ++ [.call call _], List.append_assoc .., fun act hact => ?_⟩
    rcases List.mem_append.mp hact with hold | hnew
    · exact huses act hold
    · obtain rfl := List.mem_singleton.mp hnew
      exact hcall _
  have hnote (level : MessageLevel) (message : Text) : Attempt.Keeps (UsedAfter acts)
      (Work.note level message : Work (E × List (SigningAct ω)) ω Unit) :=
    .modify fun _ h => h
  have hupdate (data : Bytes) := hstep (.update data) (fun _ => .done) (fun _ => rfl)
    (signer.supplier.behaviour.update data)
  have hsign := hstep .sign .signature (fun _ => rfl) signer.supplier.behaviour.sign
  -- feeding, signing, the bound on the length, and the line about it
  refine .bind (Work.keeps_feedFrom hupdate hnote transcript 0) fun count => ?_
  refine .bind hsign fun signature => ?_
  refine .ite (.throw _) ?_
  exact .bind (hnote _ _) fun _ => .pure signature

/-- The work on an engine begins in one of the five ways. Uses follow if the engine got ready, and
if not, the work has ended as getting ready did. -/
theorem opens_workThrough (key : Key) (transcript : Transcript) (peer : Option Peer) (name : Text)
    (engine : E) (bench : Bench ω) :
    let result := signer.traced.workThrough signer.tracedConsult key transcript peer name
      ((engine, []), bench)
    ∃ opening ready uses, signer.Opens key opening ready ∧
      (Attempt.left result).1.2 = opening ++ uses ∧ (∀ act ∈ uses, act.isUse = true) ∧
      ∀ e, ready = .error e → uses = [] ∧ Attempt.outcome result = .error e := by
  obtain ⟨opening, ready, next, after, hopens, hinit⟩ :=
    signer.opens_initThrough key engine [] bench
  rw [List.nil_append] at hinit
  unfold workThrough
  -- a failure to get ready ends the work, and otherwise only uses follow
  cases ready with
  | error e =>
    rw [Attempt.bind_of_error hinit]
    refine ⟨opening, _, [], hopens, (List.append_nil opening).symm, List.forall_mem_nil _, ?_⟩
    rintro _ ⟨⟩
    exact ⟨rfl, rfl⟩
  | ok _ =>
    rw [Attempt.bind_of_ok hinit]
    obtain ⟨uses, hacts, huses⟩ := signer.keeps_finish opening transcript peer name
      ((next, opening), after) (usedAfter_self next opening after)
    exact ⟨opening, _, uses, hopens, hacts, huses, nofun⟩

/-! ## What a trace says -/

/-- What is done on an engine and with the re-encoders, seen from its trace. -/
structure TriesAgain (key : Key) (acts : List (SigningAct ω)) : Prop where
  /-- The engine is initialized twice at most. -/
  atMostTwice : acts.countP SigningAct.isInit ≤ 2
  /-- The re-encoders are asked exactly if the engine first refused the key for what it is, and the
  configuration allows a second try. -/
  consulted_iff : (∃ act ∈ acts, act.isConsult = true) ↔
    ∃ e rest, acts = signer.initAct key (.error e) :: rest ∧ e.kind = .invalidKey ∧
      signer.config.keyReencoding = true
  /-- They are asked about this key. -/
  consults : ∀ asked factories world ending, .consult asked factories world ending ∈ acts →
    asked = key ∧ signer.Consults key factories world ending
  /-- There is a second initialization exactly if they made a key. -/
  twice_iff : acts.countP SigningAct.isInit = 2 ↔
    ∃ factories world replaced, .consult key factories world (.ok (some replaced)) ∈ acts
  /-- It follows at once, and with that very key. -/
  second : ∀ factories world replaced, .consult key factories world (.ok (some replaced)) ∈ acts →
    ∃ refusal ending rest, acts = signer.initAct key (.error refusal) ::
      .consult key factories world (.ok (some replaced)) :: signer.initAct replaced ending :: rest
  /-- An engine is used only after an initialization that succeeded, and not
  initialized any more. -/
  used : (∃ act ∈ acts, act.isUse = true) → ∃ before last uses,
    acts = before ++ signer.initAct last (.ok ()) :: uses ∧ (∀ act ∈ before, act.isUse = false) ∧
      ∀ act ∈ uses, act.isUse = true

variable {signer}

@[simp] theorem initAct_inj {key other : Key} {ending another : Except Failure Unit} :
    signer.initAct key ending = signer.initAct other another ↔ key = other ∧ ending = another := by
  cases ending <;> cases another <;> simp [initAct, Except.map]

@[simp] theorem isConsult_initAct (key : Key) (ending : Except Failure Unit) :
    (signer.initAct key ending).isConsult = false := rfl

@[simp] theorem consult_ne_initAct (asked : Key) (factories : NameMap (KeyFactory ω)) (world : ω)
    (ending : Except Failure (Option Key)) (key : Key) (another : Except Failure Unit) :
    SigningAct.consult asked factories world ending ≠ signer.initAct key another := nofun

/-- Where there is no engine, nothing is done. -/
theorem triesAgain_nil (key : Key) : signer.TriesAgain key [] where
  atMostTwice := Nat.zero_le 2
  consulted_iff := by simp
  consults _ _ _ _ hact := absurd hact List.not_mem_nil
  twice_iff := by simp
  second _ _ _ hact := absurd hact List.not_mem_nil
  used h := by
    obtain ⟨act, hact, -⟩ := h
    exact absurd hact List.not_mem_nil

section

variable {key : Key} {opening uses : List (SigningAct ω)} {ready : Except Failure Unit}

/-- The re-encoders are asked exactly after a refusal of the one sort, where that is allowed. -/
theorem Opens.consulted_iff (h : signer.Opens key opening ready) :
    (∃ act ∈ opening, act.isConsult = true) ↔
      ∃ e rest, opening = signer.initAct key (.error e) :: rest ∧ e.kind = .invalidKey ∧
        signer.config.keyReencoding = true := by
  cases h with
  | accepted => simp
  | closed hclosed =>
    simp only [List.mem_singleton, exists_eq_left, isConsult_initAct, Bool.false_eq_true, false_iff]
    rintro ⟨e, rest, hacts, hkind, hopen⟩
    obtain ⟨-, hsame⟩ := initAct_inj.mp (List.cons.inj hacts).1
    cases hsame
    rw [hclosed hkind] at hopen
    cases hopen
  | noReencoder hkind hopen | notReencoded hkind hopen | reencoded hkind hopen =>
    exact ⟨fun _ => ⟨_, _, rfl, hkind, hopen⟩, fun _ => ⟨_, .tail _ (.head _), rfl⟩⟩

theorem Opens.consults (h : signer.Opens key opening ready) {asked : Key}
    {factories : NameMap (KeyFactory ω)} {world : ω} {ending : Except Failure (Option Key)}
    (hact : .consult asked factories world ending ∈ opening) :
    asked = key ∧ signer.Consults key factories world ending := by
  cases h with
  | accepted | closed => simp at hact
  | noReencoder _ _ hconsults | notReencoded _ _ hconsults | reencoded _ _ hconsults =>
    simp only [List.mem_cons, consult_ne_initAct, SigningAct.consult.injEq, List.not_mem_nil,
      or_false, false_or] at hact
    obtain ⟨rfl, rfl, rfl, rfl⟩ := hact
    exact ⟨rfl, hconsults⟩

/-- There is one initialization, or the re-encoders made a key and there is a second one with it. -/
theorem Opens.inits (h : signer.Opens key opening ready) :
    (opening.countP SigningAct.isInit = 1 ∧
        ∀ factories world replaced, .consult key factories world (.ok (some replaced)) ∉ opening) ∨
      ∃ refusal factories world replaced, opening = [signer.initAct key (.error refusal),
        .consult key factories world (.ok (some replaced)), signer.initAct replaced ready] := by
  cases h with
  | accepted | closed | noReencoder | notReencoded =>
    exact .inl ⟨rfl, fun _ _ _ => by simp⟩
  | reencoded => exact .inr ⟨_, _, _, _, rfl⟩

/-- Nothing is used before the engine is ready. -/
theorem Opens.not_isUse (h : signer.Opens key opening ready) :
    ∀ act ∈ opening, act.isUse = false := by
  cases h <;> simp [SigningAct.isUse, initAct]

/-- If the engine got ready, then by the last thing that was done. -/
theorem Opens.exists_last (h : signer.Opens key opening (.ok ())) :
    ∃ before last, opening = before ++ [signer.initAct last (.ok ())] := by
  cases h with
  | accepted => exact ⟨[], key, rfl⟩
  | @reencoded refusal factories world replaced => exact ⟨[_, _], replaced, rfl⟩

/-- A trace that begins in one of the five ways, with uses behind it if the engine got ready. -/
theorem Opens.triesAgain (h : signer.Opens key opening ready)
    (huses : ∀ act ∈ uses, act.isUse = true)
    (hready : ∀ e, ready = .error e → uses = []) : signer.TriesAgain key (opening ++ uses) := by
  have hinits : uses.countP SigningAct.isInit = 0 := List.countP_eq_zero.mpr fun act hact => by
    rw [(SigningAct.eq_false_of_isUse (huses act hact)).1]
    exact Bool.false_ne_true
  -- whoever is asked, is asked in the beginning
  have hopening {act : SigningAct ω} (hact : act ∈ opening ++ uses)
      (hconsult : act.isConsult = true) :
      act ∈ opening := by
    refine (List.mem_append.mp hact).resolve_right fun huse => ?_
    rw [(SigningAct.eq_false_of_isUse (huses act huse)).2] at hconsult
    cases hconsult
  have hcount : (opening ++ uses).countP SigningAct.isInit = opening.countP SigningAct.isInit := by
    rw [List.countP_append, hinits, Nat.add_zero]
  constructor
  case atMostTwice =>
    rw [hcount]
    rcases h.inits with ⟨hone, -⟩ | ⟨refusal, factories, world, replaced, rfl⟩
    · rw [hone]
      exact Nat.le_succ 1
    · exact Nat.le_refl 2
  case consulted_iff =>
    constructor
    · rintro ⟨act, hact, hconsult⟩
      obtain ⟨e, rest, rfl, hrefusal⟩ := h.consulted_iff.mp ⟨act, hopening hact hconsult, hconsult⟩
      exact ⟨e, rest ++ uses, rfl, hrefusal⟩
    · rintro ⟨e, rest, hacts, hrefusal⟩
      -- a trace does not begin with a use, so the refusal is the first thing in the opening
      obtain ⟨act, hact, hconsult⟩ := h.consulted_iff.mpr <| by
        cases opening with
        | nil => cases h
        | cons first opening => exact ⟨e, opening, by rw [(List.cons.inj hacts).1], hrefusal⟩
      exact ⟨act, List.mem_append_left _ hact, hconsult⟩
  case consults =>
    exact fun asked factories world ending hact => h.consults (hopening hact rfl)
  case twice_iff =>
    rw [hcount]
    rcases h.inits with ⟨hone, hnone⟩ | ⟨refusal, factories, world, replaced, rfl⟩
    · rw [hone]
      refine ⟨nofun, ?_⟩
      rintro ⟨factories, world, replaced, hact⟩
      exact absurd (hopening hact rfl) (hnone factories world replaced)
    · exact ⟨fun _ => ⟨factories, world, replaced, .tail _ (.head _)⟩, fun _ => rfl⟩
  case second =>
    intro factories world replaced hact
    have hmember := hopening hact rfl
    rcases h.inits with ⟨-, hnone⟩ | ⟨refusal, held, before, made, rfl⟩
    · exact absurd hmember (hnone factories world replaced)
    · simp only [List.mem_cons, consult_ne_initAct, SigningAct.consult.injEq, List.not_mem_nil,
        or_false, false_or, true_and, Except.ok.injEq, Option.some.injEq] at hmember
      obtain ⟨rfl, rfl, rfl⟩ := hmember
      exact ⟨refusal, ready, uses, rfl⟩
  case used =>
    rintro ⟨act, hact, huse⟩
    cases ready with
    | error e =>
      rw [hready e rfl, List.append_nil] at hact
      rw [h.not_isUse act hact] at huse
      cases huse
    | ok _ =>
      have hnot := h.not_isUse
      obtain ⟨before, last, rfl⟩ := h.exists_last
      refine ⟨before, last, uses, by rw [List.append_assoc]; rfl, fun act hact => ?_, huses⟩
      exact hnot act (List.mem_append_left _ hact)

end

end Signer

/-! ## Whole calls -/

/-- There is an engine for a pair, or one can be made. -/
def Workshop.HasEngine (supplier : Supplier E ω) (pair : AlgorithmPair) (workshop : Workshop E ω) :
    Prop :=
  ∃ name engine after, pair.engineName? = some name ∧
    fetch supplier name workshop = .ok engine after

namespace Signer

variable (signer : Signer E ω) (key : Key) {pair : AlgorithmPair} (transcript : Transcript)
  (peer : Option Peer) {workshop : Workshop E ω}

/-- What is done in a call is done by its work. -/
theorem acts_eq {name : Text} (hname : pair.engineName? = some name) :
    signer.acts key pair transcript peer workshop =
      (((Attempt.left (Workshop.withEngineFor signer.traced.supplier pair
        (signer.traced.workThrough signer.tracedConsult key transcript peer)
        (workshop.mark fun _ => []))).1.find? name).map Prod.snd).getD [] := by
  obtain ⟨log, htrace⟩ := signer.traced.signThrough_eq signer.tracedConsult key pair transcript peer
    (workshop.mark fun _ => [])
  simp only [acts, hname, trace, htrace]
  rfl

/-- Nothing is done on any other engine. -/
theorem find?_trace_of_ne {other : Text} (hother : pair.engineName? ≠ some other) :
    (signer.trace key pair transcript peer workshop).2.1.find? other =
      (workshop.1.find? other).map (·, []) := by
  obtain ⟨log, htrace⟩ := signer.traced.signThrough_eq signer.tracedConsult key pair transcript peer
    (workshop.mark fun _ => [])
  rw [trace, htrace, ← Workshop.find?_mark fun _ => []]
  rcases Workshop.grewBy_withEngineFor signer.traced.supplier pair
      (signer.traced.workThrough signer.tracedConsult key transcript peer)
      (workshop.mark fun _ => []) with hsame | ⟨name, hname, hgrew⟩
  · exact congrArg (·.find? other) hsame
  · refine hgrew.others other ?_
    rintro rfl
    exact hother hname

/-- Where there is no engine, nothing is done. -/
theorem acts_of_no_engine (h : ¬ workshop.HasEngine signer.supplier pair) :
    signer.acts key pair transcript peer workshop = [] := by
  cases hname : pair.engineName? with
  | none => simp only [acts, hname]
  | some name =>
    rcases Workshop.fetch_counterparts signer.traced_refines name
        (workshop.related_mark fun _ => []) with
      ⟨_, engine, _, engines, bench, -, hfetch, -, -⟩ | ⟨e, after, -, hfetch, -, -⟩
    · exact absurd ⟨name, engine, _, hname, hfetch⟩ h
    · -- the engines stay as they are, with nothing done on them
      have hfresh : (Attempt.left (Workshop.fetch signer.traced.supplier name
          (workshop.mark fun _ => []))).1.All fun _ engine => engine.2 = [] :=
        Workshop.all_fresh_fetch _ [] signer.supplier name workshop
      rw [hfetch] at hfresh
      rw [signer.acts_eq key transcript peer hname,
        Workshop.withEngineFor_of_no_engine hname hfetch]
      cases hfound : after.1.find? name with
      | none => simp only [Attempt.left, hfound, Option.map_none, Option.getD_none]
      | some engine =>
        simp only [Attempt.left, hfound, Option.map_some, Option.getD_some]
        exact hfresh name engine hfound

/-- Where there is an engine, what is done on it is done by the work on it, with
nothing done before. -/
theorem acts_of_engine {name : Text} (hname : pair.engineName? = some name) {engine : E}
    {engines : NameMap E} {bench : Bench ω}
    (hfetch : Workshop.fetch signer.supplier name workshop = .ok engine (engines, bench)) :
    let result := signer.traced.workThrough signer.tracedConsult key transcript peer name
      ((engine, []), bench)
    signer.acts key pair transcript peer workshop = (Attempt.left result).1.2 ∧
      (signer.sign key pair transcript peer workshop).1 =
        (Attempt.outcome result).mapError (failure key pair peer) := by
  rcases Workshop.fetch_counterparts signer.traced_refines name
      (workshop.related_mark fun _ => []) with
    ⟨⟨_, acts⟩, plain, fetched, _, _, htraced, hplain, hsame, -⟩ | ⟨e, after, other, -, hplain, -⟩
  · -- the traced engine is the plain one with an empty trace
    rw [hfetch] at hplain
    cases hplain
    obtain rfl : _ = engine := hsame
    obtain rfl : acts = [] :=
      Workshop.companion_of_fetch _ [] signer.supplier name workshop htraced
    -- what the call ends with is the work on that engine, traced or not
    obtain ⟨log, htrace⟩ :=
      signer.traced.signThrough_eq signer.tracedConsult key pair transcript peer
        (workshop.mark fun _ => [])
    have hsign := (signer.trace_counterparts key pair transcript peer workshop).1
    rw [trace, htrace, Workshop.withEngineFor_of_engine hname htraced,
      Attempt.outcome_onPart] at hsign
    rw [signer.acts_eq key transcript peer hname, Workshop.withEngineFor_of_engine hname htraced,
      Attempt.left_onPart, NameMap.find?_insert_self]
    exact ⟨rfl, hsign.symm⟩
  · rw [hfetch] at hplain
    cases hplain

/-- **The second try is opened exactly when it should be.** With whatever engines, key factories and
re-encoders, tracing makes no difference to a call, and what the call does on its engine and with
its re-encoders is as `TriesAgain` says: the engine is initialized twice at most, the re-encoders
are asked exactly if it refused the key as an invalid one and the configuration allows it, the
second initialization is with the very key that they made, and the engine is used only after an
initialization that succeeded. Without an engine nothing is done. With one, the trace begins in one
of the five ways of `Opens`; where that ends with a failure to get ready, the call comes back with
this failure as the cause of a new one, or with the failure itself if it is a signing failure
already. If there is no re-encoder for the key, the key factories stay what they are. -/
theorem sign_triesAgain (pair : AlgorithmPair) (workshop : Workshop E ω) :
    let result := signer.sign key pair transcript peer workshop
    let traced := signer.trace key pair transcript peer workshop
    let acts := signer.acts key pair transcript peer workshop
    (traced.1 = result.1 ∧ traced.2.Related SameEngine result.2 ∧
        ∀ other, pair.engineName? ≠ some other →
          traced.2.1.find? other = (workshop.1.find? other).map (·, [])) ∧
      signer.TriesAgain key acts ∧
      (¬ workshop.HasEngine signer.supplier pair → acts = []) ∧
      (workshop.HasEngine signer.supplier pair → ∃ opening ready uses,
        signer.Opens key opening ready ∧ acts = opening ++ uses ∧
        ∀ e, ready = .error e → uses = [] ∧ ∃ failed, result.1 = .error failed ∧
          ((∃ addressee, e.kind = .signing addressee ∧ failed = e) ∨
            (∀ addressee, e.kind ≠ .signing addressee) ∧ failed.kind = .signing peer ∧
              failed.cause = some e)) ∧
      (signer.config.reencoders.find? key.algorithm = none →
        result.2.2.factories = workshop.2.factories) := by
  intro result traced acts
  -- factories only come for a re-encoder
  have hfactories (hnone : signer.config.reencoders.find? key.algorithm = none) :
      result.2.2.factories = workshop.2.factories := by
    rcases signer.mayAdd_sign key pair transcript peer workshop with
        hsame | ⟨reencoder, _, hfound, -⟩
    · exact hsame
    · rw [hnone] at hfound
      cases hfound
  -- tracing adds companions to the engines and changes no reply
  obtain ⟨hending, hrelated⟩ := signer.trace_counterparts key pair transcript peer workshop
  have hothers (other : Text) (hother : pair.engineName? ≠ some other) :
      traced.2.1.find? other = (workshop.1.find? other).map (·, []) :=
    find?_trace_of_ne signer key transcript peer hother
  refine ⟨⟨hending, hrelated, hothers⟩, ?_⟩
  by_cases hengine : workshop.HasEngine signer.supplier pair
  · obtain ⟨name, engine, ⟨engines, bench⟩, hname, hfetch⟩ := hengine
    obtain ⟨hacts, hresult⟩ := signer.acts_of_engine key transcript peer hname hfetch
    obtain ⟨opening, ready, uses, hopens, hsplit, huses, hfailed⟩ :=
      signer.opens_workThrough key transcript peer name engine bench
    -- opening and uses are the whole trace
    have hall : acts = opening ++ uses := hacts.trans hsplit
    refine ⟨?_, fun hnot => absurd ⟨name, engine, _, hname, hfetch⟩ hnot, fun _ => ?_, hfactories⟩
    · rw [hall]
      exact hopens.triesAgain huses fun e he => (hfailed e he).1
    · refine ⟨opening, ready, uses, hopens, hall, fun e he => ?_⟩
      obtain ⟨hnone, houtcome⟩ := hfailed e he
      refine ⟨hnone, failure key pair peer e, ?_, failure_cases key pair peer e⟩
      show (signer.sign key pair transcript peer workshop).1 = _
      rw [hresult, houtcome]
      rfl
  · have hnothing : acts = [] := signer.acts_of_no_engine key transcript peer hengine
    refine ⟨?_, fun _ => hnothing, fun hnot => absurd hnot hengine, hfactories⟩
    rw [hnothing]
    exact triesAgain_nil key

/-- An engine may raise a signing failure by itself. It is what the call comes back with, and not
the cause of another failure. -/
theorem sign_raisedByEngine :
    let raised : Failure := .mk (.signing none) "boom" none
    let script : EngineScript := { initSignFailures := [some raised] }
    let signer : Signer ScriptedEngine Unit :=
      { supplier :=
          { behaviour := script.behaviour
            makeEngine := fun name => pure (script.newEngine name)
            makeFactory := fun name => throw (.noSuchAlgorithm name) }
        config :=
          { logLevel := .silent, logger := { name := "test" }, keyReencoding := true,
            reencoders := .standard,
            random := { nextBytes := fun _ _ => .error (.primitive "no randomness") () } } }
    let key : Key :=
      { role := .privateKey, algorithm := "Ed25519", format := .raw,
        encoded := List.replicate 32 1 }
    let transcript : Transcript := [{ canonicalBytes := .ok [0x72] }]
    let workshop : Workshop ScriptedEngine Unit := (.empty, { world := () })
    signer.Opens key (signer.acts key (.ofVariant .ed25519) transcript none workshop)
      (.error raised) ∧
      ∃ failed, (signer.sign key (.ofVariant .ed25519) transcript none workshop).1 = .error failed ∧
        failed.cause ≠ some raised := by
  intro raised script signer key transcript workshop
  -- computed: one initialization, and nothing after it
  have hacts : signer.acts key (.ofVariant .ed25519) transcript none workshop =
      [signer.initAct key (.error raised)] := rfl
  rw [hacts]
  exact ⟨.closed nofun, raised, rfl, nofun⟩

end Signer

end SignedHandshake
