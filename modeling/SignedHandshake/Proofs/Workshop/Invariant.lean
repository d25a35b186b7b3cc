import SignedHandshake.Proofs.CertificateVerify.Stages
import SignedHandshake.Proofs.NameMap.Rules

/-!
# What calls keep

Calls share the engines and the key factories of a workshop, and they may fail anywhere. So whatever
is known of these values before a call has to be kept by every single step, also by the last one
before a failure. `Supplier.Maintains` collects what is asked of a supplier: new engines and
factories fit the name they were made for, and no operation of an engine spoils it. Then every call
keeps a workshop sound (`Signer.sound_sign`, `Verifier.sound_verify`), with any configuration, any
re-encoders and any source of randomness.
-/

namespace SignedHandshake

variable {E α ω : Type}

/-! ## Engines and suppliers -/

/-- No operation spoils what is known of an engine. -/
structure EngineBehaviour.Preserves (behaviour : EngineBehaviour E ω) (good : E → Prop) : Prop where
  initSign : ∀ key random, Attempt.Keeps (fun s => good s.1) (behaviour.initSign key random)
  initVerify : ∀ key, Attempt.Keeps (fun s => good s.1) (behaviour.initVerify key)
  update : ∀ data, Attempt.Keeps (fun s => good s.1) (behaviour.update data)
  sign : Attempt.Keeps (fun s => good s.1) behaviour.sign
  verify : ∀ signature, Attempt.Keeps (fun s => good s.1) (behaviour.verify signature)

/-- Engines and factories fit their names when they are made, and engines do so ever after. -/
structure Supplier.Maintains (supplier : Supplier E ω) (engineFits : Text → E → Prop)
    (factoryFits : Text → KeyFactory ω → Prop) : Prop where
  behaviour : ∀ name, supplier.behaviour.Preserves (engineFits name)
  makeEngine : ∀ name world engine after, supplier.makeEngine name world = .ok engine after →
    engineFits name engine
  makeFactory : ∀ name world factory after, supplier.makeFactory name world = .ok factory after →
    factoryFits name factory

/-- All engines and factories of a workshop fit their names. -/
structure Workshop.Sound (engineFits : Text → E → Prop) (factoryFits : Text → KeyFactory ω → Prop)
    (workshop : Workshop E ω) : Prop where
  engines : workshop.1.All engineFits
  factories : workshop.2.factories.All factoryFits

/-! ## Work on one engine -/

namespace Work

variable {good : E → Prop} {factoryFits : Text → KeyFactory ω → Prop}

/-- What is known of the engine that is worked on and of the factories. -/
def Fits (good : E → Prop) (factoryFits : Text → KeyFactory ω → Prop) (s : E × Bench ω) : Prop :=
  good s.1 ∧ s.2.factories.All factoryFits

theorem keeps_engine {step : Attempt (E × ω) α} (h : Attempt.Keeps (fun s => good s.1) step) :
    Attempt.Keeps (Fits good factoryFits) (Work.engine step) := by
  rintro ⟨engine, bench⟩ ⟨hengine, hfactories⟩
  exact h.onPart (engine, bench.world) hengine fun _ hnext => ⟨hnext, hfactories⟩

theorem keeps_factories {step : Attempt (NameMap (KeyFactory ω) × ω) α}
    (h : Attempt.Keeps (fun s => s.1.All factoryFits) step) :
    Attempt.Keeps (Fits good factoryFits) (Work.factories step) := by
  rintro ⟨engine, bench⟩ ⟨hengine, hfactories⟩
  exact h.onPart (bench.factories, bench.world) hfactories fun _ hnext => ⟨hengine, hnext⟩

/-- Neither an operation of the engine nor logging spoils what is known of an engine and a bench. -/
structure KeptBy (behaviour : EngineBehaviour E ω) (inv : E × Bench ω → Prop) : Prop where
  initSign : ∀ key random, Attempt.Keeps inv (Work.engine (behaviour.initSign key random))
  initVerify : ∀ key, Attempt.Keeps inv (Work.engine (behaviour.initVerify key))
  update : ∀ data, Attempt.Keeps inv (Work.engine (behaviour.update data))
  sign : Attempt.Keeps inv (Work.engine behaviour.sign)
  verify : ∀ signature, Attempt.Keeps inv (Work.engine (behaviour.verify signature))
  note : ∀ level message, Attempt.Keeps inv (Work.note level message)

/-- What no operation spoils of an engine is kept together with the factories. -/
theorem keptBy_fits {behaviour : EngineBehaviour E ω} (h : behaviour.Preserves good) :
    KeptBy behaviour (Fits good factoryFits) where
  initSign key random := keeps_engine (h.initSign key random)
  initVerify key := keeps_engine (h.initVerify key)
  update data := keeps_engine (h.update data)
  sign := keeps_engine h.sign
  verify signature := keeps_engine (h.verify signature)
  note _ _ := .modify fun _ h => h

/-- Feeding keeps what taking in data and logging keep. -/
theorem keeps_feedFrom {behaviour : EngineBehaviour E ω} {inv : E × Bench ω → Prop}
    (hupdate : ∀ data, Attempt.Keeps inv (Work.engine (behaviour.update data)))
    (hnote : ∀ level message, Attempt.Keeps inv (Work.note level message)) (transcript : Transcript)
    (index : Nat) : Attempt.Keeps inv (feedFrom behaviour index transcript) := by
  induction transcript generalizing index with
  | nil => exact .pure index
  | cons entry rest ih =>
    refine .bind (.ofExcept _) fun bytes => ?_
    refine .bind (hupdate bytes) fun _ => ?_
    exact .bind (hnote _ _) fun _ => ih (index + 1)

end Work

/-- Re-encoders get at the factories, but only `obtain` changes which there are: a re-encoder is
given one factory, not the map of them. -/
theorem ReencoderRegistry.factories_reencode (registry : ReencoderRegistry ω)
    (make : Text → Attempt ω (KeyFactory ω)) (key : Key) (state : NameMap (KeyFactory ω) × ω) :
    (Attempt.left (registry.reencode make key state)).1 =
      match registry.find? key.algorithm with
      | none => state.1
      | some reencoder => (Attempt.left (NameMap.obtain make reencoder.standardName state)).1 := by
  obtain ⟨factories, world⟩ := state
  unfold reencode
  cases hfound : registry.find? key.algorithm with
  | none => rfl
  | some reencoder =>
    simp only
    cases NameMap.obtain make reencoder.standardName (factories, world) with
    | error e after => rfl
    | ok factory after =>
      obtain ⟨next, world⟩ := after
      simp only
      cases reencoder.reencode key factory world <;> rfl

theorem ReencoderRegistry.keeps_reencode {factoryFits : Text → KeyFactory ω → Prop}
    {make : Text → Attempt ω (KeyFactory ω)}
    (hmake : ∀ name world factory after, make name world = .ok factory after →
      factoryFits name factory) (registry : ReencoderRegistry ω) (key : Key) :
    Attempt.Keeps (fun s => s.1.All factoryFits) (registry.reencode make key) := by
  intro state hfactories
  rw [factories_reencode]
  cases registry.find? key.algorithm with
  | none => exact hfactories
  | some reencoder =>
    exact (NameMap.keeps_obtain make (fun _ => True) reencoder.standardName
      (hmake reencoder.standardName) (fun _ _ => trivial) state ⟨hfactories, trivial⟩).1

/-- Signing keeps what the operations of the engine and the re-encoders keep, wherever it stops. -/
theorem Signer.keeps_work {signer : Signer E ω} {inv : E × Bench ω → Prop}
    (h : Work.KeptBy signer.supplier.behaviour inv) {key : Key}
    (hreencode : Attempt.Keeps inv (signer.reencode key)) (transcript : Transcript)
    (peer : Option Peer) (name : Text) :
    Attempt.Keeps inv (signer.work key transcript peer name) := by
  have hinitWith (key : Key) : Attempt.Keeps inv (signer.initWith key) :=
    h.initSign key signer.config.random
  -- a second try begins with whatever the first one left in the engine
  have hretry (refusal : Failure) : Attempt.Keeps inv (signer.retry key refusal) := by
    refine .bind hreencode fun replaced => ?_
    cases replaced with
    | none => exact .throw refusal
    | some replaced =>
      refine .bind .get fun s => ?_
      exact .bind (h.note _ _) fun _ => hinitWith replaced
  have hinit : Attempt.Keeps inv (signer.init key) :=
    .tryCatch (hinitWith key) fun e => .ite (hretry e) (.throw e)
  refine .bind hinit fun _ => ?_
  refine .bind (Work.keeps_feedFrom h.update h.note transcript 0) fun count => ?_
  refine .bind h.sign fun signature => ?_
  refine .ite (.throw _) ?_
  exact .bind (h.note _ _) fun _ => .pure signature

/-- Verifying keeps what the operations of the engine keep, wherever it stops. -/
theorem Verifier.keeps_work {verifier : Verifier E ω} {inv : E × Bench ω → Prop}
    (h : Work.KeptBy verifier.supplier.behaviour inv) (key : Key) (signature : Bytes)
    (transcript : Transcript) :
    Attempt.Keeps inv (verifier.work key signature transcript) := by
  refine .bind (h.initVerify key) fun _ => ?_
  refine .bind (.discard (Work.keeps_feedFrom h.update h.note transcript 0)) fun _ => ?_
  exact h.verify signature

/-! ## Calls -/

section

variable {engineFits : Text → E → Prop} {factoryFits : Text → KeyFactory ω → Prop}

/-- Working on one engine of a sound workshop leaves it sound. -/
theorem Workshop.sound_withEngine {supplier : Supplier E ω}
    (h : supplier.Maintains engineFits factoryFits) {name : Text} {work : Work E ω α}
    (hwork : Attempt.Keeps (Work.Fits (engineFits name) factoryFits) work) :
    Attempt.Keeps (Workshop.Sound engineFits factoryFits)
      (Workshop.withEngine supplier name work) := by
  rintro ⟨engines, bench⟩ ⟨hengines, hfactories⟩
  have hmake (state : Bench ω) (engine : E) (after : Bench ω)
      (hmade : Bench.onWorld (supplier.makeEngine name) state = .ok engine after) :
      engineFits name engine := by
    cases hresult : supplier.makeEngine name state.world with
    | ok made world =>
      rw [Bench.onWorld, Attempt.onPart, hresult] at hmade
      cases hmade
      exact h.makeEngine name _ _ _ hresult
    | error e world =>
      rw [Bench.onWorld, Attempt.onPart, hresult] at hmade
      cases hmade
  have hworld : Attempt.Keeps (fun bench => bench.factories.All factoryFits)
      (Bench.onWorld (supplier.makeEngine name)) := by
    intro bench hbench
    rw [Bench.onWorld, Attempt.left_onPart]
    exact hbench
  have hkept := NameMap.keeps_obtain (fun name => Bench.onWorld (supplier.makeEngine name))
    (fun bench => bench.factories.All factoryFits) name hmake hworld (engines, bench)
    ⟨hengines, hfactories⟩
  unfold withEngine
  cases hobtain : NameMap.obtain (fun name => Bench.onWorld (supplier.makeEngine name)) name
      (engines, bench) with
  | error e after =>
    rw [hobtain] at hkept
    exact ⟨hkept.1, hkept.2⟩
  | ok engine after =>
    obtain ⟨engines, bench⟩ := after
    rw [hobtain] at hkept
    -- the engine goes back under its name, also if the work failed
    have hengine := NameMap.good_of_obtain hmake hengines hobtain
    exact hwork.onPart (engine, bench) ⟨hengine, hkept.2⟩ fun _ hnext =>
      ⟨hkept.1.insert hnext.1, hnext.2⟩

/-- A pair without an engine changes nothing. -/
theorem Workshop.sound_withEngineFor {supplier : Supplier E ω}
    (h : supplier.Maintains engineFits factoryFits) (pair : AlgorithmPair)
    {work : Text → Work E ω α}
    (hwork : ∀ name, Attempt.Keeps (Work.Fits (engineFits name) factoryFits) (work name)) :
    Attempt.Keeps (Workshop.Sound engineFits factoryFits)
      (Workshop.withEngineFor supplier pair work) := by
  unfold withEngineFor
  cases pair.engineName? with
  | some name => exact sound_withEngine h (hwork name)
  | none => exact .throw _

/-- Logging does no harm. -/
theorem Workshop.Sound.withLog {workshop : Workshop E ω} (h : workshop.Sound engineFits factoryFits)
    (log : List LogLine) : (workshop.withLog log).Sound engineFits factoryFits :=
  ⟨h.engines, h.factories⟩

/-- A workshop stays sound when it is used for signing, whatever comes of it. -/
theorem Signer.sound_sign {signer : Signer E ω}
    (h : signer.supplier.Maintains engineFits factoryFits) (key : Key) (pair : AlgorithmPair)
    (transcript : Transcript) (peer : Option Peer) {workshop : Workshop E ω}
    (hworkshop : workshop.Sound engineFits factoryFits) :
    (signer.sign key pair transcript peer workshop).2.Sound engineFits factoryFits := by
  have hkept := Workshop.sound_withEngineFor h pair
    (fun name => signer.keeps_work (Work.keptBy_fits (h.behaviour name))
      (Work.keeps_factories (signer.config.reencoders.keeps_reencode h.makeFactory key))
      transcript peer name) workshop hworkshop
  obtain ⟨log, hsign⟩ := signer.sign_eq key pair transcript peer workshop
  rw [hsign]
  exact hkept.withLog log

/-- A workshop stays sound when it is used for verifying, whatever comes of it. -/
theorem Verifier.sound_verify {verifier : Verifier E ω}
    (h : verifier.supplier.Maintains engineFits factoryFits) (key : Key) (pair : AlgorithmPair)
    (signature : Bytes) (transcript : Transcript) (peer : Option Peer) {workshop : Workshop E ω}
    (hworkshop : workshop.Sound engineFits factoryFits) :
    (verifier.verify key pair signature transcript peer workshop).2.Sound engineFits
      factoryFits := by
  have hkept := Workshop.sound_withEngineFor h pair
    (fun name => verifier.keeps_work (Work.keptBy_fits (h.behaviour name)) key signature transcript)
    workshop hworkshop
  obtain ⟨log, hverify⟩ := verifier.verify_eq key pair signature transcript peer workshop
  rw [hverify]
  exact hkept.withLog log

end

end SignedHandshake
