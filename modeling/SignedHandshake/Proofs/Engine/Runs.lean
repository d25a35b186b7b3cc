import SignedHandshake.Proofs.Engine.Refinement
import SignedHandshake.Proofs.Engine.Steps
import SignedHandshake.Proofs.Workshop.Invariant

/-!
# Runs of an engine

An engine may be called in any order, with any arguments, and go on being called after it failed. To
every sequence of calls the engines of this library reply as one machine does
(**`SignatureEngine.run_eq_machine`**), and so does an engine that comes out of a cache
(`SignatureEngine.Standing`).
-/

namespace SignedHandshake

/-!
## Calls in any order

The two sorts of engines differ in what they store and when they drop it, but neither shows it.

What the machine is ready for after a call depends on the call and on what it was ready for
before (`Readiness.next`), not on the world and not on how the call ended. A refused key
leaves it idle, and the data are gone after each use. So data that come in pieces are as good
as data that come at once.

An engine that gets ready forgets what it did before, whatever that was. How getting ready ends is
up to its algorithm and the key (`SignatureEngine.outcome_initSign`, `outcome_initVerify`).

Proof structure: one call takes an engine and the machine it realizes to the same reply and to such
a pair again, so by induction on the calls every run does.
-/

variable {E M ω : Type}

namespace EngineBehaviour

variable {concrete : EngineBehaviour E ω} {abstract : EngineBehaviour M ω} {rel : E → M → Prop}

/-- Related engines reply alike to a call and are related afterwards. -/
theorem Refines.call (h : concrete.Refines abstract rel) (call : EngineCall ω) {left : E × ω}
    {right : M × ω} (hrel : SameWorld rel left right) :
    Attempt.Alike (SameWorld rel) (concrete.call call left) (abstract.call call right) := by
  obtain ⟨engine, world⟩ := left
  obtain ⟨machine, _⟩ := right
  obtain ⟨hrel, rfl⟩ := hrel
  cases call with
  | initSign key random => exact (h.initSign key random world hrel).map _
  | initVerify key => exact (h.initVerify key world hrel).map _
  | update data => exact (h.update data world hrel).map _
  | sign => exact (h.sign world hrel).map _
  | verify signature => exact (h.verify signature world hrel).map _

/-- So they reply alike to a sequence of calls. -/
theorem Refines.run (h : concrete.Refines abstract rel) (calls : List (EngineCall ω)) {left : E × ω}
    {right : M × ω} (hrel : SameWorld rel left right) :
    (concrete.run calls left).1 = (abstract.run calls right).1 ∧
      SameWorld rel (concrete.run calls left).2 (abstract.run calls right).2 := by
  induction calls generalizing left right with
  | nil => exact ⟨rfl, hrel⟩
  | cons call rest ih =>
    have halike := h.call call hrel
    obtain ⟨hreplies, hlast⟩ := ih halike.left
    refine ⟨?_, hlast⟩
    show Attempt.outcome _ :: (concrete.run rest _).1 = Attempt.outcome _ :: (abstract.run rest _).1
    rw [halike.outcome, hreplies]

end EngineBehaviour

/-! ### What a run leaves behind -/

/-- Pieces that come one by one leave a machine ready for what they leave it ready
for in one piece. -/
theorem Readiness.foldl_next_update (suite : Suite) (algorithm : EngineAlgorithm)
    (readiness : Readiness ω) (pieces : List Bytes) :
    (pieces.map EngineCall.update).foldl (next suite algorithm) readiness =
      next suite algorithm readiness (.update pieces.flatten) := by
  induction pieces generalizing readiness with
  | nil => cases readiness <;> simp [next]
  | cons piece rest ih =>
    rw [List.map_cons, List.foldl_cons, ih, List.flatten_cons]
    cases readiness <;> simp [next]

namespace Machine

variable (suite : Suite)

/-- What a machine is ready for after a run. -/
theorem run_readiness (calls : List (EngineCall ω)) (machine : Machine ω) (world : ω) :
    ((behaviour suite).run calls (machine, world)).2.1 =
      ⟨machine.algorithm,
        calls.foldl (Readiness.next suite machine.algorithm) machine.readiness⟩ := by
  induction calls generalizing machine world with
  | nil => rfl
  | cons call rest ih =>
    obtain ⟨after, hcall⟩ := call_eq suite machine call world
    show ((behaviour suite).run rest (Attempt.left _)).2.1 = _
    rw [hcall, Attempt.left_ofExcept, ih, List.foldl_cons]

/-- Data leave the world alone. -/
theorem run_update_world (pieces : List Bytes) (machine : Machine ω) (world : ω) :
    ((behaviour suite).run (pieces.map .update) (machine, world)).2.2 = world := by
  induction pieces generalizing machine with
  | nil => rfl
  | cons piece rest ih =>
    obtain ⟨algorithm, readiness⟩ := machine
    cases readiness <;> exact ih _

/-- How data are cut makes no difference to a machine. -/
theorem run_update (pieces : List Bytes) (state : Machine ω × ω) :
    ((behaviour suite).run (pieces.map .update) state).2 =
      ((behaviour suite).run [.update pieces.flatten] state).2 := by
  obtain ⟨machine, world⟩ := state
  have hwhole := run_update_world suite [pieces.flatten] machine world
  refine Prod.ext ?_ ((run_update_world suite pieces machine world).trans hwhole.symm)
  rw [run_readiness, run_readiness, Readiness.foldl_next_update]
  rfl

end Machine

/-! ### Getting ready, and every run of every engine -/

/-- The name of an algorithm leads back to it. -/
theorem EngineAlgorithm.ofName?_name (algorithm : EngineAlgorithm) :
    ofName? algorithm.name = some algorithm := by
  cases algorithm with
  | overDigest hash => cases hash <;> rfl
  | overMessage variant => cases variant <;> rfl

/-- No two algorithms have the same name. -/
theorem EngineAlgorithm.eq_of_name {algorithm other : EngineAlgorithm}
    (h : algorithm.name = other.name) : algorithm = other := by
  have hfound := algorithm.ofName?_name
  rw [h, other.ofName?_name] at hfound
  exact (Option.some.inj hfound).symm

namespace SignatureEngine

variable (suite : Suite)

section

variable {engine : SignatureEngine ω} {algorithm : EngineAlgorithm}

/-- Getting ready to sign ends as the algorithm says, whatever the engine was used for before. -/
theorem outcome_initSign (h : engine.algorithm = algorithm.name) (key : Key)
    (random : RandomSource ω) (world : ω) :
    Attempt.outcome ((behaviour suite).initSign key random (engine, world)) =
      (algorithm.accept suite key).map fun _ => () := by
  have hmachine : Attempt.outcome
      ((Machine.behaviour suite).initSign key random (⟨algorithm, .idle⟩, world)) = _ :=
    (congrArg Attempt.outcome (Machine.initSign_eq ..)).trans (Attempt.outcome_ofExcept ..)
  cases engine with
  | ecdsa engine =>
    obtain ⟨hash, phase⟩ := engine
    obtain rfl : algorithm = .overDigest hash := EngineAlgorithm.eq_of_name h.symm
    exact (digest_initSign_alike suite hash phase .idle key random world).outcome.trans hmachine
  | eddsa engine =>
    obtain ⟨variant, phase⟩ := engine
    obtain rfl : algorithm = .overMessage variant := EngineAlgorithm.eq_of_name h.symm
    exact (message_initSign_alike suite variant phase .idle key random world).outcome.trans hmachine

/-- And so does getting ready to verify. -/
theorem outcome_initVerify (h : engine.algorithm = algorithm.name) (key : Key) (world : ω) :
    Attempt.outcome ((behaviour suite).initVerify key (engine, world)) =
      ((algorithm.acceptPublic suite key).mapError EngineError.toFailure).map fun _ => () := by
  have hmachine : Attempt.outcome
      ((Machine.behaviour suite).initVerify key (⟨algorithm, .idle⟩, world)) = _ :=
    (congrArg Attempt.outcome (Machine.initVerify_eq ..)).trans (Attempt.outcome_ofExcept ..)
  cases engine with
  | ecdsa engine =>
    obtain ⟨hash, phase⟩ := engine
    obtain rfl : algorithm = .overDigest hash := EngineAlgorithm.eq_of_name h.symm
    exact (digest_initVerify_alike suite hash phase .idle key world).outcome.trans hmachine
  | eddsa engine =>
    obtain ⟨variant, phase⟩ := engine
    obtain rfl : algorithm = .overMessage variant := EngineAlgorithm.eq_of_name h.symm
    exact (message_initVerify_alike suite variant phase .idle key world).outcome.trans hmachine

end

/-- How data are cut makes no difference to what an engine replies later on. -/
theorem Realizes.run_update {engine : SignatureEngine ω} {machine : Machine ω}
    (h : engine.Realizes machine) (world : ω) (pieces : List Bytes) (calls : List (EngineCall ω)) :
    ((behaviour suite).run calls
        ((behaviour suite).run (pieces.map .update) (engine, world)).2).1 =
      ((behaviour suite).run calls
        ((behaviour suite).run [.update pieces.flatten] (engine, world)).2).1 := by
  -- whichever way the data came, the engine still realizes the machine that was given them
  have hrun (data : List (EngineCall ω)) := ((refines suite).run data (h.sameWorld world)).2
  have hpieces := ((refines suite).run calls (hrun (pieces.map .update))).1
  have hwhole := ((refines suite).run calls (hrun [.update pieces.flatten])).1
  rw [hpieces, hwhole, Machine.run_update]

/-- Every engine of this library, called in whatever order with whatever arguments, replies to each
call as the machine for its algorithm does, uses the outside world as the machine does, and stores
what the machine is ready for. What the machine is ready for after a call is what `Readiness.next`
says, and how it replies is what `Readiness.reply` says. So whatever happened to an engine, it makes
no difference to what it replies later on how the data that it is given are cut. -/
theorem run_eq_machine (algorithm : EngineAlgorithm) :
    ∃ engine : SignatureEngine ω, create algorithm.name = .ok engine ∧
      (∀ (calls : List (EngineCall ω)) (world : ω),
        let real := (behaviour suite).run calls (engine, world)
        let ideal := (Machine.behaviour suite).run calls (⟨algorithm, .idle⟩, world)
        real.1 = ideal.1 ∧ real.2.2 = ideal.2.2 ∧
          real.2.1.Realizes ⟨algorithm, calls.foldl (Readiness.next suite algorithm) .idle⟩ ∧
          ∀ (pieces : List Bytes) (later : List (EngineCall ω)),
            ((behaviour suite).run later
                ((behaviour suite).run (pieces.map .update) real.2).2).1 =
              ((behaviour suite).run later
                ((behaviour suite).run [.update pieces.flatten] real.2).2).1) ∧
      ∀ (readiness : Readiness ω) (call : EngineCall ω) (world : ω),
        (∃ after, (Machine.behaviour suite).call call (⟨algorithm, readiness⟩, world) =
          Attempt.ofExcept (readiness.reply suite algorithm world call)
            (⟨algorithm, readiness.next suite algorithm call⟩, after)) ∧
        ∀ e, readiness.reply suite algorithm world call = .error e → e.kind = call.refusal := by
  rcases create_eq (ω := ω) algorithm.name with ⟨found, engine, hname, hcreate, hnew⟩ | ⟨hname, -⟩
  · rw [algorithm.ofName?_name] at hname
    cases hname
    refine ⟨engine, hcreate, fun calls world => ?_, fun readiness call world =>
      ⟨Machine.call_eq suite ⟨algorithm, readiness⟩ call world, fun e => Readiness.kind_of_reply⟩⟩
    obtain ⟨hreplies, hlast, hworld⟩ := (refines suite).run calls (hnew.sameWorld world)
    rw [Machine.run_readiness] at hlast
    exact ⟨hreplies, hworld, hlast, hlast.run_update suite _⟩
  · rw [algorithm.ofName?_name] at hname
    cases hname

end SignatureEngine

end SignedHandshake

/-!
## Engines that have been used

An engine that comes out of a cache may have been used for anything. All that is known of it is that
it realizes some machine for the algorithm it was made for (`SignatureEngine.Standing`). That much
is true of new engines, and no operation changes it, since no operation of the machine changes the
algorithm. So it is true of every engine in every workshop that ever gets its engines here
(`Supplier.standard_maintains`).
-/

namespace SignedHandshake

variable {E M ω : Type}

/-- What the machine keeps, engines that behave like it keep. -/
theorem EngineBehaviour.Refines.preserves {concrete : EngineBehaviour E ω}
    {abstract : EngineBehaviour M ω} {rel : E → M → Prop} (h : concrete.Refines abstract rel)
    {good : M → Prop} (hgood : abstract.Preserves good) :
    concrete.Preserves fun engine => ∃ machine, rel engine machine ∧ good machine where
  initSign key random := by
    rintro ⟨engine, world⟩ ⟨machine, hrel, hmachine⟩
    exact ⟨_, (h.initSign key random world hrel).left.1,
      hgood.initSign key random (_, world) hmachine⟩
  initVerify key := by
    rintro ⟨engine, world⟩ ⟨machine, hrel, hmachine⟩
    exact ⟨_, (h.initVerify key world hrel).left.1, hgood.initVerify key (_, world) hmachine⟩
  update data := by
    rintro ⟨engine, world⟩ ⟨machine, hrel, hmachine⟩
    exact ⟨_, (h.update data world hrel).left.1, hgood.update data (_, world) hmachine⟩
  sign := by
    rintro ⟨engine, world⟩ ⟨machine, hrel, hmachine⟩
    exact ⟨_, (h.sign world hrel).left.1, hgood.sign (_, world) hmachine⟩
  verify signature := by
    rintro ⟨engine, world⟩ ⟨machine, hrel, hmachine⟩
    exact ⟨_, (h.verify signature world hrel).left.1, hgood.verify signature (_, world) hmachine⟩

/-- What no call changes, no operation changes. -/
theorem EngineBehaviour.preserves_of_call {behaviour : EngineBehaviour E ω} {good : E → Prop}
    (h : ∀ call state, good state.1 → good (Attempt.left (behaviour.call call state)).1) :
    behaviour.Preserves good where
  initSign key random state hgood := by simpa [call] using h (.initSign key random) state hgood
  initVerify key state hgood := by simpa [call] using h (.initVerify key) state hgood
  update data state hgood := by simpa [call] using h (.update data) state hgood
  sign state hgood := by simpa [call] using h .sign state hgood
  verify signature state hgood := by simpa [call] using h (.verify signature) state hgood

/-- Nothing changes what a machine is for. -/
theorem Machine.preserves_algorithm (suite : Suite) (algorithm : EngineAlgorithm) :
    (behaviour suite : EngineBehaviour (Machine ω) ω).Preserves (·.algorithm = algorithm) := by
  refine EngineBehaviour.preserves_of_call ?_
  rintro call ⟨machine, world⟩ rfl
  obtain ⟨after, hcall⟩ := call_eq suite machine call world
  rw [hcall, Attempt.left_ofExcept]

/-- An engine for the algorithm with this name, whatever it was used for. -/
def SignatureEngine.Standing (name : Text) (engine : SignatureEngine ω) : Prop :=
  ∃ machine, engine.Realizes machine ∧ EngineAlgorithm.ofName? name = some machine.algorithm

/-- No operation changes what an engine is for. -/
theorem SignatureEngine.preserves_standing (suite : Suite) (name : Text) :
    (behaviour suite : EngineBehaviour (SignatureEngine ω) ω).Preserves (Standing name) := by
  cases hname : EngineAlgorithm.ofName? name with
  | none =>
    -- there is no such engine, so there is nothing to keep
    have hnone (s : SignatureEngine ω × ω) : ¬ Standing name s.1 := by
      rintro ⟨machine, -, h⟩
      rw [hname] at h
      cases h
    exact ⟨fun _ _ s h => absurd h (hnone s), fun _ s h => absurd h (hnone s),
      fun _ s h => absurd h (hnone s), fun s h => absurd h (hnone s),
      fun _ s h => absurd h (hnone s)⟩
  | some algorithm =>
    have hsame : (Standing name : SignatureEngine ω → Prop) =
        fun engine => ∃ machine, engine.Realizes machine ∧ machine.algorithm = algorithm := by
      funext engine
      simp only [Standing, hname, Option.some.injEq, eq_comm]
    -- an engine for a known algorithm keeps it because its machine does
    rw [hsame]
    exact (refines suite).preserves (Machine.preserves_algorithm suite algorithm)

/-- A factory that was made under this name. -/
def KeyFactory.MadeAs (suite : Suite) (name : Text) (factory : KeyFactory ω) : Prop :=
  create suite name = .ok factory

/-- The engines and key factories of this library stay what they were made as. -/
theorem Supplier.standard_maintains (suite : Suite) :
    (standard suite : Supplier (SignatureEngine ω) ω).Maintains SignatureEngine.Standing
      (KeyFactory.MadeAs suite) where
  behaviour name := SignatureEngine.preserves_standing suite name
  makeEngine name world engine after h := by
    -- a new engine is one for its name, and there is none for an unknown name
    rcases SignatureEngine.create_eq (ω := ω) name with
      ⟨algorithm, new, hname, hcreate, hrealizes⟩ | ⟨-, hcreate⟩
    · simp only [standard, hcreate] at h
      cases h
      exact ⟨_, hrealizes, hname⟩
    · simp only [standard, hcreate] at h
      cases h
  makeFactory name world factory after h := by
    cases hcreate : KeyFactory.create (ω := ω) suite name with
    | ok made =>
      simp only [standard, hcreate] at h
      cases h
      exact hcreate
    | error e =>
      simp only [standard, hcreate] at h
      cases h

end SignedHandshake
