import SignedHandshake.Proofs.Workshop.Invariant

/-!
# How caches grow

A call may add to the caches of a workshop, and what it adds can be counted. Among the engines only
the one that the call works on may have changed, and if it was not there before, it comes behind all
others (`NameMap.GrewBy`). Of key factories there may be one more, made under the name that the
re-encoder for the key asks for (`ReencoderRegistry.MayAdd`); those that were there stay what they
were. Nothing is ever taken away. This holds of every call, wherever it stops and whatever engines,
factories and re-encoders it works with (`Signer.grewBy_sign`, `Signer.mayAdd_sign`,
`Verifier.grewBy_verify`, `Verifier.factories_verify`).
-/

namespace SignedHandshake

variable {E α ω : Type}

/-! ## Engines -/

/-- Whatever a call does to its engine, it leaves all others alone, and adds none
but the one for its pair. -/
theorem Workshop.grewBy_withEngineFor (supplier : Supplier E ω) (pair : AlgorithmPair)
    (work : Text → Work E ω α) (workshop : Workshop E ω) :
    (Attempt.left (withEngineFor supplier pair work workshop)).1 = workshop.1 ∨
      ∃ name, pair.engineName? = some name ∧
        NameMap.GrewBy name workshop.1
          (Attempt.left (withEngineFor supplier pair work workshop)).1 := by
  cases hname : pair.engineName? with
  | none =>
    rw [withEngineFor_of_no_name hname]
    exact .inl rfl
  | some name =>
    refine .inr ⟨name, rfl, ?_⟩
    -- fetching adds the engine at most, and the call puts it back under its name
    have hgrew : NameMap.GrewBy name workshop.1 (Attempt.left (fetch supplier name workshop)).1 :=
      NameMap.grewBy_obtain _ name workshop
    cases hfetch : fetch supplier name workshop with
    | error e after =>
      rw [hfetch] at hgrew
      rw [withEngineFor_of_no_engine hname hfetch]
      exact hgrew
    | ok engine fetched =>
      obtain ⟨engines, bench⟩ := fetched
      rw [hfetch] at hgrew
      rw [withEngineFor_of_engine hname hfetch, Attempt.left_onPart]
      exact hgrew.insert _

/-- Key factories and the log have nothing to do with the engine. -/
theorem Work.keptBy_engine {behaviour : EngineBehaviour E ω} {good : E → Prop}
    (h : behaviour.Preserves good) : KeptBy behaviour fun s => good s.1 := by
  have hstep {β : Type} {step : Attempt (E × ω) β}
      (hkept : Attempt.Keeps (fun s => good s.1) step) :
      Attempt.Keeps (fun s : E × Bench ω => good s.1) (Work.engine step) := by
    rintro ⟨engine, bench⟩ hgood
    rw [Work.engine, Attempt.left_onPart]
    exact hkept (engine, bench.world) hgood
  exact ⟨fun key random => hstep (h.initSign key random), fun key => hstep (h.initVerify key),
    fun data => hstep (h.update data), hstep h.sign, fun signature => hstep (h.verify signature),
    fun _ _ => .modify fun _ hgood => hgood⟩

/-- What work keeps of an engine that is there stays true of the engine under its name. -/
theorem Workshop.exists_find?_withEngineFor {supplier : Supplier E ω} {good : E → Prop}
    {work : Text → Work E ω α} (h : ∀ name, Attempt.Keeps (fun s => good s.1) (work name))
    (pair : AlgorithmPair) {workshop : Workshop E ω} {name : Text} {engine : E}
    (hfound : workshop.1.find? name = some engine) (hgood : good engine) :
    ∃ next, (Attempt.left (withEngineFor supplier pair work workshop)).1.find? name = some next ∧
      good next := by
  rcases grewBy_withEngineFor supplier pair work workshop with hsame | ⟨used, hused, hgrew⟩
  · rw [hsame]
    exact ⟨engine, hfound, hgood⟩
  · by_cases hname : name = used
    · -- the engine that is worked on is the one that was there, and it goes back under its name
      subst hname
      have hfetch : fetch supplier name workshop = .ok engine workshop :=
        NameMap.obtain_of_find? hfound workshop.2
      rw [withEngineFor_of_engine hused hfetch, Attempt.left_onPart]
      exact ⟨_, NameMap.find?_insert_self .., h name (engine, workshop.2) hgood⟩
    · exact ⟨engine, (hgrew.others name hname).trans hfound, hgood⟩

/-! ## Key factories -/

/-- Engines and the log have nothing to do with the key factories. -/
theorem Work.keptBy_factories (behaviour : EngineBehaviour E ω)
    (inv : NameMap (KeyFactory ω) → Prop) :
    KeptBy behaviour fun s => inv s.2.factories := by
  have hstep {β : Type} (step : Attempt (E × ω) β) :
      Attempt.Keeps (fun s : E × Bench ω => inv s.2.factories) (Work.engine step) := by
    rintro ⟨engine, bench⟩ h
    rw [Work.engine, Attempt.left_onPart]
    exact h
  exact ⟨fun key random => hstep (behaviour.initSign key random),
    fun key => hstep (behaviour.initVerify key), fun data => hstep (behaviour.update data),
    hstep behaviour.sign, fun signature => hstep (behaviour.verify signature),
    fun _ _ => .modify fun _ h => h⟩

namespace Workshop

/-- A new engine may change the world, but not the factories. -/
theorem factories_fetch (supplier : Supplier E ω) (name : Text) (workshop : Workshop E ω) :
    (Attempt.left (fetch supplier name workshop)).2.factories = workshop.2.factories := by
  obtain ⟨world, hbench⟩ := exists_world_fetch supplier name workshop
  rw [hbench]

/-- A call keeps of the factories what its work keeps. -/
theorem keeps_withEngineFor_factories {supplier : Supplier E ω}
    (inv : NameMap (KeyFactory ω) → Prop)
    {work : Text → Work E ω α} (h : ∀ name, Attempt.Keeps (fun s => inv s.2.factories) (work name))
    (pair : AlgorithmPair) :
    Attempt.Keeps (fun workshop => inv workshop.2.factories)
      (withEngineFor supplier pair work) := by
  intro workshop hinv
  cases hname : pair.engineName? with
  | none =>
    rw [withEngineFor_of_no_name hname]
    exact hinv
  | some name =>
    -- fetching an engine leaves the factories alone
    rw [← factories_fetch supplier name workshop] at hinv
    cases hfetch : fetch supplier name workshop with
    | error e after =>
      rw [hfetch] at hinv
      rw [withEngineFor_of_no_engine hname hfetch]
      exact hinv
    | ok engine fetched =>
      obtain ⟨engines, bench⟩ := fetched
      rw [hfetch] at hinv
      rw [withEngineFor_of_engine hname hfetch, Attempt.left_onPart]
      exact h name (engine, bench) hinv

end Workshop

/-- What re-encoding a key may do to the key factories: one may come in, made under the name that
the re-encoder for the key asks for. -/
def ReencoderRegistry.MayAdd (registry : ReencoderRegistry ω) (key : Key)
    (before after : NameMap (KeyFactory ω)) : Prop :=
  after = before ∨ ∃ reencoder factory, registry.find? key.algorithm = some reencoder ∧
    before.find? reencoder.standardName = none ∧
      after = before.insert reencoder.standardName factory

/-- Re-encoding the same key again does not bring in a second factory. -/
theorem ReencoderRegistry.mayAdd_reencode (registry : ReencoderRegistry ω)
    (make : Text → Attempt ω (KeyFactory ω)) (key : Key) (before : NameMap (KeyFactory ω)) :
    Attempt.Keeps (fun s => registry.MayAdd key before s.1) (registry.reencode make key) := by
  rintro ⟨factories, world⟩ h
  show registry.MayAdd key before _
  rw [factories_reencode]
  cases hfound : registry.find? key.algorithm with
  | none => exact h
  | some reencoder =>
    simp only
    rcases NameMap.left_obtain make reencoder.standardName (factories, world) with
      hsame | ⟨hnone, factory, hadded⟩
    · rw [hsame]
      exact h
    · rw [hadded]
      rcases h with rfl | ⟨other, held, hother, -, rfl⟩
      · exact .inr ⟨reencoder, factory, hfound, hnone, rfl⟩
      · -- the factory that this key asks for is there already
        obtain rfl : reencoder = other := Option.some.inj (hfound.symm.trans hother)
        rw [NameMap.find?_insert_self] at hnone
        cases hnone

section

variable {registry : ReencoderRegistry ω} {key : Key} {before after : NameMap (KeyFactory ω)}

/-- At most one factory comes in. -/
theorem ReencoderRegistry.MayAdd.grewBy (h : registry.MayAdd key before after) :
    after = before ∨ ∃ name, NameMap.GrewBy name before after := by
  rcases h with rfl | ⟨reencoder, factory, -, -, rfl⟩
  · exact .inl rfl
  · exact .inr ⟨reencoder.standardName, (NameMap.GrewBy.refl _ before).insert factory⟩

/-- No factory gives way to another one. -/
theorem ReencoderRegistry.MayAdd.find? (h : registry.MayAdd key before after) {name : Text}
    {factory : KeyFactory ω} (hfound : before.find? name = some factory) :
    after.find? name = some factory := by
  rcases h with rfl | ⟨reencoder, added, -, hnone, rfl⟩
  · exact hfound
  · have hother : name ≠ reencoder.standardName := by
      rintro rfl
      rw [hnone] at hfound
      cases hfound
    rw [NameMap.find?_insert_of_ne hother, hfound]

end

/-! ## Calls -/

namespace Signer

variable (signer : Signer E ω) (key : Key) (pair : AlgorithmPair) (transcript : Transcript)
  (peer : Option Peer) (workshop : Workshop E ω)

theorem grewBy_sign :
    (signer.sign key pair transcript peer workshop).2.1 = workshop.1 ∨
      ∃ name, pair.engineName? = some name ∧
        NameMap.GrewBy name workshop.1 (signer.sign key pair transcript peer workshop).2.1 := by
  obtain ⟨log, hsign⟩ := signer.sign_eq key pair transcript peer workshop
  rw [hsign]
  exact Workshop.grewBy_withEngineFor signer.supplier pair _ workshop

/-- What the operations of engines keep stays true of an engine that is there. -/
theorem exists_find?_sign {good : E → Prop} (h : signer.supplier.behaviour.Preserves good)
    {name : Text}
    {engine : E} (hfound : workshop.1.find? name = some engine) (hgood : good engine) :
    ∃ next, (signer.sign key pair transcript peer workshop).2.1.find? name = some next ∧
      good next := by
  have hreencode (key : Key) :
      Attempt.Keeps (fun s : E × Bench ω => good s.1) (signer.reencode key) := by
    rintro ⟨engine, bench⟩ hgood
    rw [reencode, Work.factories, Attempt.left_onPart]
    exact hgood
  obtain ⟨log, hsign⟩ := signer.sign_eq key pair transcript peer workshop
  rw [hsign]
  exact Workshop.exists_find?_withEngineFor (fun name => signer.keeps_work (Work.keptBy_engine h)
    (hreencode key) transcript peer name) pair hfound hgood

theorem mayAdd_sign :
    signer.config.reencoders.MayAdd key workshop.2.factories
      (signer.sign key pair transcript peer workshop).2.2.factories := by
  have hreencode : Attempt.Keeps
      (fun s : E × Bench ω =>
        signer.config.reencoders.MayAdd key workshop.2.factories s.2.factories)
      (signer.reencode key) := by
    rintro ⟨engine, bench⟩ h
    rw [reencode, Work.factories, Attempt.left_onPart]
    exact signer.config.reencoders.mayAdd_reencode signer.supplier.makeFactory key _
      (bench.factories, bench.world) h
  obtain ⟨log, hsign⟩ := signer.sign_eq key pair transcript peer workshop
  rw [hsign]
  exact Workshop.keeps_withEngineFor_factories _ (fun name => signer.keeps_work
    (Work.keptBy_factories _ (signer.config.reencoders.MayAdd key workshop.2.factories)) hreencode
    transcript peer name) pair workshop (.inl rfl)

end Signer

namespace Verifier

variable (verifier : Verifier E ω) (key : Key) (pair : AlgorithmPair) (signature : Bytes)
  (transcript : Transcript) (peer : Option Peer) (workshop : Workshop E ω)

theorem grewBy_verify :
    (verifier.verify key pair signature transcript peer workshop).2.1 = workshop.1 ∨
      ∃ name, pair.engineName? = some name ∧
        NameMap.GrewBy name workshop.1
          (verifier.verify key pair signature transcript peer workshop).2.1 := by
  obtain ⟨log, hverify⟩ := verifier.verify_eq key pair signature transcript peer workshop
  rw [hverify]
  exact Workshop.grewBy_withEngineFor verifier.supplier pair _ workshop

/-- What the operations of engines keep stays true of an engine that is there. -/
theorem exists_find?_verify {good : E → Prop} (h : verifier.supplier.behaviour.Preserves good)
    {name : Text} {engine : E} (hfound : workshop.1.find? name = some engine)
    (hgood : good engine) :
    ∃ next, (verifier.verify key pair signature transcript peer workshop).2.1.find? name =
      some next ∧
      good next := by
  obtain ⟨log, hverify⟩ := verifier.verify_eq key pair signature transcript peer workshop
  rw [hverify]
  exact Workshop.exists_find?_withEngineFor (fun _ => verifier.keeps_work (Work.keptBy_engine h) key
    signature transcript) pair hfound hgood

/-- Verifying has nothing to do with key factories. -/
theorem factories_verify :
    (verifier.verify key pair signature transcript peer workshop).2.2.factories =
      workshop.2.factories := by
  obtain ⟨log, hverify⟩ := verifier.verify_eq key pair signature transcript peer workshop
  rw [hverify]
  exact Workshop.keeps_withEngineFor_factories (· = workshop.2.factories)
    (fun _ => verifier.keeps_work (Work.keptBy_factories _ (· = workshop.2.factories)) key signature
      transcript) pair workshop rfl

end Verifier

end SignedHandshake
