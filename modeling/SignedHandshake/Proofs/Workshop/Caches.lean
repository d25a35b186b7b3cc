import SignedHandshake.Proofs.CertificateVerify.Families
import SignedHandshake.Proofs.Workshop.Companions

/-!
# What caches hold (specification §5)

A peer chooses the codes of the algorithms, and whoever configures a signer chooses the
re-encoders, which ask for key factories by any name they like. Neither makes the caches hold
more than the engines and key factories that there are (**`Call.caches_bounded`**): after any run
of calls everything is under its own name, there are at most seven engines and three key
factories, and one more call adds at most one of each, takes nothing away, and puts nothing in
the place of what was there.

Proof structure: what a call may do to the caches of any workshop is known (`Workshop.Extends`),
whatever engines there are. By induction on the run no name comes up twice; the workshop stays in
order, so all names are those of this library, and there are only so many of them. That engines
stay the same engines, although calls change what is in them, is seen by the marks that they
carry (`Call.KeepsMarks`).
-/

namespace SignedHandshake

variable {E T ω : Type}

/-! ## One call -/

/-- What a call for a pair may do to the caches of a workshop. -/
structure Workshop.Extends (pair : AlgorithmPair) (before after : Workshop E ω) : Prop where
  /-- At most one engine comes in, the one that the pair names. -/
  engines : NameMap.MayGain (pair.engineName? = some ·) before.1 after.1
  /-- All other engines stay what they are, down to the data they hold. -/
  otherEngines : ∀ name, pair.engineName? ≠ some name → after.1.find? name = before.1.find? name
  /-- At most one key factory comes in. -/
  factories : NameMap.MayGain (fun _ => True) before.2.factories after.2.factories
  /-- The factories that were there stay what they are. -/
  keptFactories : ∀ name factory, before.2.factories.find? name = some factory →
    after.2.factories.find? name = some factory

/-- It is enough to know by which engine and which factory the caches grew. -/
theorem Workshop.Extends.of_grewBy {pair : AlgorithmPair} {before after : Workshop E ω}
    (hengines : after.1 = before.1 ∨
      ∃ name, pair.engineName? = some name ∧ NameMap.GrewBy name before.1 after.1)
    (hfactories : after.2.factories = before.2.factories ∨
      ∃ name, NameMap.GrewBy name before.2.factories after.2.factories)
    (hkept : ∀ name factory, before.2.factories.find? name = some factory →
      after.2.factories.find? name = some factory) : Extends pair before after where
  engines := by
    rcases hengines with hsame | ⟨name, hname, hgrew⟩
    · exact .inl (congrArg NameMap.names hsame)
    · exact hgrew.mayGain hname
  otherEngines name hother := by
    rcases hengines with hsame | ⟨used, hused, hgrew⟩
    · rw [hsame]
    · refine hgrew.others name ?_
      rintro rfl
      exact hother hused
  factories := by
    rcases hfactories with hsame | ⟨name, hgrew⟩
    · exact .inl (congrArg NameMap.names hsame)
    · exact hgrew.mayGain trivial
  keptFactories := hkept

theorem Signer.extends_sign (signer : Signer E ω) (key : Key) (pair : AlgorithmPair)
    (transcript : Transcript) (peer : Option Peer) (workshop : Workshop E ω) :
    Workshop.Extends pair workshop (signer.sign key pair transcript peer workshop).2 := by
  have hadded := signer.mayAdd_sign key pair transcript peer workshop
  exact .of_grewBy (signer.grewBy_sign key pair transcript peer workshop) hadded.grewBy
    fun name factory hfound => hadded.find? hfound

theorem Verifier.extends_verify (verifier : Verifier E ω) (key : Key) (pair : AlgorithmPair)
    (signature : Bytes) (transcript : Transcript) (peer : Option Peer) (workshop : Workshop E ω) :
    Workshop.Extends pair workshop
      (verifier.verify key pair signature transcript peer workshop).2 := by
  have hsame := verifier.factories_verify key pair signature transcript peer workshop
  refine .of_grewBy (verifier.grewBy_verify key pair signature transcript peer workshop)
      (.inl hsame) ?_
  intro name factory hfound
  rw [hsame]
  exact hfound

namespace Call

/-- The algorithm pair that a call is for. -/
def pair : Call ω → AlgorithmPair
  | sign _ _ pair _ _ | verify _ pair _ _ _ => pair

/-- Make a call with engines and key factories from any supplier. -/
def runOn (supplier : Supplier E ω) : Call ω → StateM (Workshop E ω) Ending
  | sign config key pair transcript peer => fun workshop =>
    let (result, workshop) := (Signer.mk supplier config).sign key pair transcript peer workshop
    (.sign result, workshop)
  | verify key pair signature transcript peer => fun workshop =>
    let (result, workshop) :=
      (Verifier.mk supplier).verify key pair signature transcript peer workshop
    (.verify result, workshop)

theorem run_eq_runOn (suite : Suite) (call : Call ω) :
    call.run suite = call.runOn (.standard suite) := by
  cases call <;> rfl

theorem extends_runOn (supplier : Supplier E ω) (call : Call ω) (workshop : Workshop E ω) :
    Workshop.Extends call.pair workshop (call.runOn supplier workshop).2 := by
  cases call with
  | sign config key pair transcript peer => exact Signer.extends_sign ..
  | verify key pair signature transcript peer => exact Verifier.extends_verify ..

/-- Calls with counterparts end the same way and leave counterparts. -/
theorem runOn_counterparts {M : Type} {rel : E → M → Prop} {concrete : Supplier E ω}
    {abstract : Supplier M ω} (h : concrete.Refines abstract rel) (call : Call ω)
    {left : Workshop E ω} {right : Workshop M ω} (hrel : left.Related rel right) :
    (call.runOn concrete left).1 = (call.runOn abstract right).1 ∧
      (call.runOn concrete left).2.Related rel (call.runOn abstract right).2 := by
  cases call with
  | sign config key pair transcript peer =>
    obtain ⟨hending, hafter⟩ := Signer.sign_counterparts h key pair transcript peer hrel config
    exact ⟨congrArg Ending.sign hending, hafter⟩
  | verify key pair signature transcript peer =>
    obtain ⟨hending, hafter⟩ :=
      Verifier.verify_counterparts h key pair signature transcript peer hrel
    exact ⟨congrArg Ending.verify hending, hafter⟩

/-- What the operations of engines keep stays true of an engine that is there. -/
theorem exists_find?_runOn {supplier : Supplier E ω} {good : E → Prop}
    (h : supplier.behaviour.Preserves good) (call : Call ω) {workshop : Workshop E ω} {name : Text}
    {engine : E} (hfound : workshop.1.find? name = some engine) (hgood : good engine) :
    ∃ next, (call.runOn supplier workshop).2.1.find? name = some next ∧ good next := by
  cases call with
  | sign config key pair transcript peer =>
    exact Signer.exists_find?_sign _ key pair transcript peer _ h hfound hgood
  | verify key pair signature transcript peer =>
    exact Verifier.exists_find?_verify _ key pair signature transcript peer _ h hfound hgood

/-- A call keeps the engines that are there, whatever it changes in them: put a mark on each of them
and another one on every new engine, and after the call each name has the mark that it had before.
Marks make no difference to the call. -/
def KeepsMarks (supplier : Supplier E ω) (call : Call ω) (workshop : Workshop E ω) : Prop :=
  ∀ {T : Type} (marks : Text → T) (fresh : T),
    let result := call.runOn (supplier.marked fresh) (workshop.mark marks)
    result.1 = (call.runOn supplier workshop).1 ∧
      result.2.Related SameEngine (call.runOn supplier workshop).2 ∧
      ∀ name ∈ workshop.1.names, ∃ engine, result.2.1.find? name = some (engine, marks name)

theorem keepsMarks (supplier : Supplier E ω) (call : Call ω) (workshop : Workshop E ω) :
    call.KeepsMarks supplier workshop := by
  intro T marks fresh
  obtain ⟨hending, hafter⟩ := call.runOn_counterparts
    (supplier.accompanied_refines (fun _ _ => id) fresh) (workshop.related_mark marks)
  refine ⟨hending, hafter, fun name hname => ?_⟩
  obtain ⟨engine, hfound⟩ := NameMap.mem_names_iff.mp hname
  have hmarked : (workshop.mark marks).1.find? name = some (engine, marks name) := by
    rw [Workshop.find?_mark, hfound]
    rfl
  obtain ⟨⟨next, mark⟩, hnext, hsame⟩ := call.exists_find?_runOn
    (supplier.preserves_mark fresh (marks name)) hmarked rfl
  exact ⟨next, hnext.trans (congrArg (fun mark => some (next, mark)) hsame)⟩

end Call

/-! ## The engines and key factories of this library -/

/-- The names of the engines that there are. -/
def SignatureEngine.names : List Text :=
  ["SHA1withECDSA", "SHA224withECDSA", "SHA256withECDSA", "SHA384withECDSA", "SHA512withECDSA",
    "Ed25519", "Ed448"]

/-- The names of the key factories that there are. -/
def KeyFactory.names : List Text :=
  ["EdDSA", "Ed25519", "Ed448"]

/-- An engine that stands under a name is the engine of that name. -/
theorem SignatureEngine.Standing.algorithm_eq {name : Text} {engine : SignatureEngine ω}
    (h : engine.Standing name) : engine.algorithm = name ∧ name ∈ SignatureEngine.names := by
  obtain ⟨machine, hrealizes, hname⟩ := h
  have hown := EngineAlgorithm.name_of_ofName? hname
  have hsame : engine.algorithm = machine.algorithm.name := by
    cases hrealizes <;> rfl
  refine ⟨hsame.trans hown, ?_⟩
  rw [← hown]
  rcases machine.algorithm with hash | variant
  · cases hash <;> decide
  · cases variant <;> decide

/-- A factory that was made under a name is the factory of that name. -/
theorem KeyFactory.MadeAs.algorithm_eq {suite : Suite} {name : Text} {factory : KeyFactory ω}
    (h : factory.MadeAs suite name) : factory.algorithm = name ∧ name ∈ KeyFactory.names := by
  unfold MadeAs create at h
  cases hfound : EdDsaName.ofName? name with
  | none =>
    simp only [hfound] at h
    cases h
  | some known =>
    simp only [hfound] at h
    cases h
    -- a factory goes by the name that it was looked up with
    unfold EdDsaName.ofName? at hfound
    have hown := List.find?_some hfound
    rw [← eq_of_beq hown]
    refine ⟨rfl, ?_⟩
    -- each of the three standard names is listed
    rcases known with _ | variant
    · decide
    · cases variant <;> decide

namespace Workshop

/-- Everything is under its own name, which is one of those that there are, and
no name comes up twice. -/
structure WellNamed (workshop : Workshop (SignatureEngine ω) ω) : Prop where
  engine : ∀ name engine, workshop.1.find? name = some engine →
    engine.algorithm = name ∧ name ∈ SignatureEngine.names
  engines_nodup : workshop.1.names.Nodup
  factory : ∀ name factory, workshop.2.factories.find? name = some factory →
    factory.algorithm = name ∧ name ∈ KeyFactory.names
  factories_nodup : workshop.2.factories.names.Nodup

/-- There are not more engines and key factories than names for them. -/
theorem WellNamed.size_le {workshop : Workshop (SignatureEngine ω) ω} (h : workshop.WellNamed) :
    workshop.1.size ≤ 7 ∧ workshop.2.factories.size ≤ 3 := by
  have hengines : workshop.1.names ⊆ SignatureEngine.names := by
    intro name hname
    obtain ⟨engine, hfound⟩ := NameMap.mem_names_iff.mp hname
    exact (h.engine name engine hfound).2
  have hfactories : workshop.2.factories.names ⊆ KeyFactory.names := by
    intro name hname
    obtain ⟨factory, hfound⟩ := NameMap.mem_names_iff.mp hname
    exact (h.factory name factory hfound).2
  rw [← NameMap.length_names, ← NameMap.length_names]
  exact ⟨h.engines_nodup.length_le_of_subset hengines,
    h.factories_nodup.length_le_of_subset hfactories⟩

/-- A call for a pair that no engine of this library is for leaves the workshop as it is. -/
theorem left_withEngineFor_of_no_engine {suite : Suite} {workshop : Workshop (SignatureEngine ω) ω}
    (h : workshop.InOrder suite) {pair : AlgorithmPair}
    (hpair : pair.engineName? = none ∨ ∃ hash : HashName,
      pair.engineName? = some (hash.name ++ "with" ++ DigestSignature.rsa.name))
    {α : Type} (work : Text → Work (SignatureEngine ω) ω α) :
    Attempt.left (withEngineFor (.standard suite) pair work workshop) = workshop := by
  rcases hpair with hnone | ⟨hash, hname⟩
  · rw [withEngineFor_of_no_name hnone]
    rfl
  · rcases fetch_eq h (hash.name ++ "with" ++ DigestSignature.rsa.name) with
      ⟨algorithm, -, -, hfound, -⟩ | ⟨-, hfetch⟩
    · rw [AlgorithmPair.ofName?_rsa] at hfound
      cases hfound
    · rw [withEngineFor_of_no_engine hname hfetch]
      rfl

end Workshop

/-! ## Runs of calls -/

namespace Call

variable {suite : Suite}

/-- No run brings in a name twice. -/
theorem nodup_runAll (suite : Suite) (calls : List (Call ω))
    {workshop : Workshop (SignatureEngine ω) ω} (hengines : workshop.1.names.Nodup)
    (hfactories : workshop.2.factories.names.Nodup) :
    (runAll suite calls workshop).1.names.Nodup ∧
      (runAll suite calls workshop).2.factories.names.Nodup := by
  induction calls generalizing workshop with
  | nil => exact ⟨hengines, hfactories⟩
  | cons call calls ih =>
    have hextends := call.extends_runOn (.standard suite) workshop
    rw [← run_eq_runOn] at hextends
    exact ih (hextends.engines.nodup hengines) (hextends.factories.nodup hfactories)

theorem wellNamed_runAll (suite : Suite) (calls : List (Call ω)) (start : ω) :
    (runAll suite calls (.new start)).WellNamed := by
  have horder := inOrder_runAll calls (Workshop.inOrder_new suite start)
  have hengines : (Workshop.new start : Workshop (SignatureEngine ω) ω).1.names.Nodup :=
    List.nodup_nil
  obtain ⟨hengines, hfactories⟩ := nodup_runAll suite calls hengines List.nodup_nil
  exact ⟨fun name engine hfound => (horder.engines name engine hfound).algorithm_eq, hengines,
    fun name factory hfound => (horder.factories name factory hfound).algorithm_eq, hfactories⟩

/-- A call for a pair that no engine of this library is for changes neither cache. -/
theorem caches_run_of_no_engine (call : Call ω) {workshop : Workshop (SignatureEngine ω) ω}
    (h : workshop.InOrder suite)
    (hpair : call.pair.engineName? = none ∨ ∃ hash : HashName,
      call.pair.engineName? = some (hash.name ++ "with" ++ DigestSignature.rsa.name)) :
    (call.run suite workshop).2.1 = workshop.1 ∧
      (call.run suite workshop).2.2.factories = workshop.2.factories := by
  cases call with
  | sign config key pair transcript peer =>
    obtain ⟨log, hsign⟩ := (Signer.standard suite config).sign_eq key pair transcript peer workshop
    have hsame := Workshop.left_withEngineFor_of_no_engine h hpair
      ((Signer.standard suite config).work key transcript peer)
    simp only [run, hsign]
    exact ⟨congrArg (·.1) hsame, congrArg (·.2.factories) hsame⟩
  | verify key pair signature transcript peer =>
    obtain ⟨log, hverify⟩ :=
      (Verifier.standard suite).verify_eq key pair signature transcript peer workshop
    have hsame := Workshop.left_withEngineFor_of_no_engine h hpair
      (fun _ => (Verifier.standard suite).work key signature transcript)
    simp only [run, hverify]
    exact ⟨congrArg (·.1) hsame, congrArg (·.2.factories) hsame⟩

/-- **Caches are bounded.** After any run of calls, with whatever pairs, keys and re-encoders, and
wherever the calls stopped, all engines and key factories are under their own names, and there are
at most seven of the ones and three of the others. One more call adds at most the engine that its
pair names and one key factory; it takes nothing away, and everything that was there is the same as
before, except that the engine it works on holds other data. A call for a pair without a name, or
with one that no engine has, changes neither cache, and verifying does not change the factories. -/
theorem caches_bounded (suite : Suite) (calls : List (Call ω)) (start : ω) :
    let workshop := runAll suite calls (.new start)
    workshop.WellNamed ∧ workshop.1.size ≤ 7 ∧ workshop.2.factories.size ≤ 3 ∧
      ∀ call : Call ω,
        let after := (call.run suite workshop).2
        Workshop.Extends call.pair workshop after ∧
        call.KeepsMarks (.standard suite) workshop ∧
        ((call.pair.engineName? = none ∨ ∃ hash : HashName,
            call.pair.engineName? = some (hash.name ++ "with" ++ DigestSignature.rsa.name)) →
          after.1 = workshop.1 ∧ after.2.factories = workshop.2.factories) ∧
        ∀ key pair signature transcript peer, call = .verify key pair signature transcript peer →
          after.2.factories = workshop.2.factories := by
  intro workshop
  have horder : workshop.InOrder suite := inOrder_runAll calls (Workshop.inOrder_new suite start)
  have hnamed : workshop.WellNamed := wellNamed_runAll suite calls start
  obtain ⟨hengines, hfactories⟩ := hnamed.size_le
  refine ⟨hnamed, hengines, hfactories, fun call => ⟨?_, ?_, ?_, ?_⟩⟩
  · rw [run_eq_runOn]
    exact call.extends_runOn (.standard suite) workshop
  · exact call.keepsMarks (.standard suite) workshop
  · exact call.caches_run_of_no_engine horder
  · rintro key pair signature transcript peer rfl
    exact (Verifier.standard suite).factories_verify key pair signature transcript peer workshop

end Call

end SignedHandshake
