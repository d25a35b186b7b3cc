import SignedHandshake.Proofs.CertificateVerify.Stages
import SignedHandshake.Proofs.Engine.Refinement
import SignedHandshake.Proofs.NameMap.Rules

/-!
# Workshops with counterparts of the same engines

Engines of one type may behave like engines of another one (`EngineBehaviour.Refines`). A call
cannot tell which of them it works with: if two workshops hold counterparts under the same names and
share everything else, then a call ends in both of them the same way and leaves two such workshops
(`Signer.sign_counterparts`, `Verifier.verify_counterparts`).

Nor do the benches have to be the same for that. A call uses the factories and the world, and
writes to a log that it never reads; so it is enough that they are related in a way that it
keeps up (`Bench.Faithful`).

Proof structure: the work of a call is the same program for both types of engines, so the parts of
it match one by one (`Attempt.Matches`), by induction on the transcript where entries are fed; and
putting an engine back under its name puts back counterparts.
-/

namespace SignedHandshake

variable {E M α β ω : Type} {rel : E → M → Prop}

/-! ## Suppliers and workshops -/

/-- New engines are counterparts, and behave alike from then on. Key factories are the same. -/
structure Supplier.Refines (concrete : Supplier E ω) (abstract : Supplier M ω)
    (rel : E → M → Prop) :
    Prop where
  behaviour : concrete.behaviour.Refines abstract.behaviour rel
  makeEngine : ∀ name world,
    (∃ engine machine after, concrete.makeEngine name world = .ok engine after ∧
        abstract.makeEngine name world = .ok machine after ∧ rel engine machine) ∨
      ∃ e after, concrete.makeEngine name world = .error e after ∧
        abstract.makeEngine name world = .error e after
  makeFactory : concrete.makeFactory = abstract.makeFactory

/-- Counterparts under the same names, and everything else the same. -/
def Workshop.Related (rel : E → M → Prop) (left : Workshop E ω) (right : Workshop M ω) : Prop :=
  left.1.Related rel right.1 ∧ left.2 = right.2

/-- Logging is the same on both sides. -/
theorem Workshop.Related.note {left : Workshop E ω} {right : Workshop M ω}
    (h : left.Related rel right) (level : MessageLevel) (message : Text) :
    (left.note level message).Related rel (right.note level message) :=
  ⟨h.1, congrArg (·.note level message) h.2⟩

/-! ## Benches -/

/-- Benches that are related hold the same factories in the same world, and go on being related
whatever becomes of these and whatever is noted. -/
structure Bench.Faithful (benches : Bench ω → Bench ω → Prop) : Prop where
  world : ∀ {one other}, benches one other → one.world = other.world
  factories : ∀ {one other}, benches one other → one.factories = other.factories
  change : ∀ {one other}, benches one other → ∀ factories world,
    benches { one with factories, world } { other with factories, world }
  note : ∀ {one other}, benches one other → ∀ level message,
    benches (one.note level message) (other.note level message)

namespace Bench.Faithful

variable {benches : Bench ω → Bench ω → Prop}

theorem eq : Faithful (Eq : Bench ω → Bench ω → Prop) where
  world h := congrArg Bench.world h
  factories h := congrArg Bench.factories h
  change h factories world := congrArg (fun bench : Bench ω => { bench with factories, world }) h
  note h level message := congrArg (·.note level message) h

theorem onWorld (h : Faithful benches) {one other : Bench ω} (hrel : benches one other)
    (world : ω) :
    benches { one with world } { other with world } := by
  have hchange := h.change hrel one.factories world
  -- on the other side, these are the factories that were there
  rw [h.factories hrel] at hchange
  have hsame :
      ({ one with factories := other.factories, world } : Bench ω) = { one with world } := by
    rw [← h.factories hrel]
  rw [hsame] at hchange
  exact hchange

end Bench.Faithful

/-- Counterparts, on benches that are related. -/
def Beside (rel : E → M → Prop) (benches : Bench ω → Bench ω → Prop) (left : E × Bench ω)
    (right : M × Bench ω) : Prop :=
  rel left.1 right.1 ∧ benches left.2 right.2

/-- Counterparts under the same names, and benches that are related. -/
def Workshop.RelatedOn (rel : E → M → Prop) (benches : Bench ω → Bench ω → Prop)
    (left : Workshop E ω) (right : Workshop M ω) : Prop :=
  left.1.Related rel right.1 ∧ benches left.2 right.2

/-! ## Work on one engine -/

section

variable {benches : Bench ω → Bench ω → Prop} (hbenches : Bench.Faithful benches)

include hbenches

namespace Work

/-- Steps of counterparts that match in the same world match on benches that are related. -/
theorem matches_engine {step : Attempt (E × ω) α} {other : Attempt (M × ω) α}
    (h : ∀ {engine machine} (world : ω), rel engine machine →
      Attempt.Alike (SameWorld rel) (step (engine, world)) (other (machine, world))) :
    Attempt.Matches (Beside rel benches) (Work.engine step) (Work.engine other) := by
  rintro ⟨engine, bench⟩ ⟨machine, another⟩ ⟨hrel, hbench⟩
  show Attempt.Alike _ (step.onPart (engine, bench.world) _)
      (other.onPart (machine, another.world) _)
  rw [← hbenches.world hbench]
  refine (h bench.world hrel).onPart ?_
  rintro ⟨next, world⟩ ⟨nextMachine, _⟩ ⟨hnext, rfl⟩
  exact ⟨hnext, hbenches.onWorld hbench world⟩

/-- A step with the key factories does not look at the engine. -/
theorem matches_factories (step : Attempt (NameMap (KeyFactory ω) × ω) α) :
    Attempt.Matches (Beside rel benches) (Work.factories step : Work E ω α)
      (Work.factories step) := by
  rintro ⟨engine, bench⟩ ⟨machine, another⟩ ⟨hrel, hbench⟩
  show Attempt.Alike _ (step.onPart (bench.factories, bench.world) _)
    (step.onPart (another.factories, another.world) _)
  rw [← hbenches.world hbench, ← hbenches.factories hbench]
  unfold Attempt.onPart
  cases step (bench.factories, bench.world) with
  | ok a after => exact .ok a ⟨hrel, hbenches.change hbench after.1 after.2⟩
  | error e after => exact .error e ⟨hrel, hbenches.change hbench after.1 after.2⟩

theorem matches_note (level : MessageLevel) (message : Text) :
    Attempt.Matches (Beside rel benches) (Work.note level message : Work E ω Unit)
      (Work.note level message) :=
  .modify fun ⟨hrel, hbench⟩ => ⟨hrel, hbenches.note hbench level message⟩

theorem matches_feedFrom {concrete : EngineBehaviour E ω} {abstract : EngineBehaviour M ω}
    (h : concrete.Refines abstract rel) (transcript : Transcript) (index : Nat) :
    Attempt.Matches (Beside rel benches) (feedFrom concrete index transcript)
      (feedFrom abstract index transcript) := by
  induction transcript generalizing index with
  | nil => exact .pure index
  | cons entry rest ih =>
    refine .bind (.ofExcept _) fun bytes => ?_
    refine .bind (matches_engine hbenches fun world hrel => h.update bytes world hrel) fun _ => ?_
    exact .bind (matches_note hbenches _ _) fun _ => ih (index + 1)

end Work

variable {concrete : Supplier E ω} {abstract : Supplier M ω} (h : concrete.Refines abstract rel)

include h

/-- Re-encoding does not look at engines. -/
theorem Signer.matches_reencode (config : Config ω) (key : Key) :
    Attempt.Matches (Beside rel benches) ((mk concrete config).reencode key)
      ((mk abstract config).reencode key) := by
  unfold reencode
  rw [h.makeFactory]
  exact Work.matches_factories hbenches _

section

variable {consult : Key → Work E ω (Option Key)} {other : Key → Work M ω (Option Key)}
  (hconsult : ∀ key, Attempt.Matches (Beside rel benches) (consult key) (other key))

include hconsult

/-- Getting ready is the same work with both sorts of engines, if asking for another key is. -/
theorem Signer.matches_initThrough (config : Config ω) (key : Key) :
    Attempt.Matches (Beside rel benches) ((mk concrete config).initThrough consult key)
      ((mk abstract config).initThrough other key) := by
  have hinitWith (key : Key) : Attempt.Matches (Beside rel benches)
      ((mk concrete config).initWith key) ((mk abstract config).initWith key) :=
    Work.matches_engine hbenches fun world hrel => h.behaviour.initSign key config.random world hrel
  have hretry (refusal : Failure) : Attempt.Matches (Beside rel benches)
      ((mk concrete config).retryThrough consult key refusal)
      ((mk abstract config).retryThrough other key refusal) := by
    refine .bind (hconsult key) fun replaced => ?_
    cases replaced with
    | none => exact .throw refusal
    | some replaced =>
      refine .get_bind ?_
      rintro ⟨engine, bench⟩ ⟨machine, another⟩ ⟨hrel, -⟩
      -- counterparts have the same name, so the same line is logged
      simp only
      rw [h.behaviour.algorithm hrel]
      exact .bind (Work.matches_note hbenches _ _) fun _ => hinitWith replaced
  exact .tryCatch (hinitWith key) fun e => .ite (hretry e) (.throw e)

/-- Signing is the same work with both sorts of engines, if asking for another key is. The peers
need not be the same if it does not matter to whom the failure of an engine is put down. -/
theorem Signer.corresponds_workThrough (config : Config ω) {failures : Failure → Failure → Prop}
    (hsame : ∀ e, failures e e) (peer another : Option Peer)
    (hoversized : ∀ name length,
      failures (oversized name length peer) (oversized name length another))
    (key : Key) (transcript : Transcript) (name : Text) {start : E × Bench ω} {after : M × Bench ω}
    (hrel : Beside rel benches start after) :
    Attempt.Corresponds failures Eq (Beside rel benches)
      ((mk concrete config).workThrough consult key transcript peer name start)
      ((mk abstract config).workThrough other key transcript another name after) := by
  -- getting ready, feeding, signing, and the check of the length
  have hready := matches_initThrough hbenches h hconsult config key
  refine ((hready start after hrel).corresponds hsame).bind ?_
  rintro _ _ ready nextReady - hrel
  have hfed := Work.matches_feedFrom hbenches h.behaviour transcript 0
  refine ((hfed ready nextReady hrel).corresponds hsame).bind ?_
  rintro count _ fed nextFed rfl hrel
  have hsigned : Attempt.Matches (Beside rel benches) (Work.engine concrete.behaviour.sign)
      (Work.engine abstract.behaviour.sign) :=
    Work.matches_engine hbenches fun world hrel => h.behaviour.sign world hrel
  refine ((hsigned fed nextFed hrel).corresponds hsame).bind ?_
  rintro signature _ last nextLast rfl hrel
  by_cases hlength : signature.length > RangeError.maxSignatureLength
  · rw [if_pos hlength, if_pos hlength]
    exact .error (hoversized name signature.length) hrel
  · rw [if_neg hlength, if_neg hlength]
    exact .ok rfl ⟨hrel.1, hbenches.note hrel.2 _ _⟩

end

/-- Verifying is the same work with both sorts of engines. -/
theorem Verifier.matches_work (key : Key) (signature : Bytes) (transcript : Transcript) :
    Attempt.Matches (Beside rel benches) ((mk concrete).work key signature transcript)
      ((mk abstract).work key signature transcript) := by
  have hready := Work.matches_engine hbenches fun world hrel =>
      h.behaviour.initVerify key world hrel
  refine .bind hready fun _ => ?_
  refine .bind (.discard (Work.matches_feedFrom hbenches h.behaviour transcript 0)) fun _ => ?_
  exact Work.matches_engine hbenches fun world hrel => h.behaviour.verify signature world hrel

/-! ## Calls -/

namespace Workshop

/-- Counterparts are fetched under the same name, or made under it. -/
theorem fetch_relatedOn (name : Text) {left : Workshop E ω} {right : Workshop M ω}
    (hrel : left.RelatedOn rel benches right) :
    (∃ engine machine engines machines bench other,
        fetch concrete name left = .ok engine (engines, bench) ∧
        fetch abstract name right = .ok machine (machines, other) ∧ rel engine machine ∧
        engines.Related rel machines ∧ benches bench other) ∨
      ∃ e after other, fetch concrete name left = .error e after ∧
        fetch abstract name right = .error e other ∧ after.RelatedOn rel benches other := by
  obtain ⟨engines, bench⟩ := left
  obtain ⟨machines, another⟩ := right
  obtain ⟨hengines, hbench⟩ := hrel
  -- what is made for the name is a counterpart, in a world that is the same
  have hmade : Attempt.Corresponds Eq rel benches (Bench.onWorld (concrete.makeEngine name) bench)
      (Bench.onWorld (abstract.makeEngine name) another) := by
    have hworld : another.world = bench.world := (hbenches.world hbench).symm
    simp only [Bench.onWorld, Attempt.onPart, hworld]
    rcases h.makeEngine name bench.world with
      ⟨engine, machine, after, hmake, hother, hvalue⟩ | ⟨e, after, hmake, hother⟩
    · simp only [hmake, hother]
      exact .ok hvalue (hbenches.onWorld hbench after)
    · simp only [hmake, hother]
      exact .error rfl (hbenches.onWorld hbench after)
  have hfetched : Attempt.Corresponds Eq rel (RelatedOn rel benches)
      (fetch concrete name (engines, bench))
      (fetch abstract name (machines, another)) := hengines.obtain hbench hmade
  generalize fetch concrete name (engines, bench) = one at hfetched ⊢
  generalize fetch abstract name (machines, another) = two at hfetched ⊢
  cases hfetched with
  | ok hvalue hafter => exact .inl ⟨_, _, _, _, _, _, rfl, rfl, hvalue, hafter⟩
  | error hfailure hafter =>
    subst hfailure
    exact .inr ⟨_, _, _, rfl, rfl, hafter⟩

/-- Work that corresponds makes calls that correspond. -/
theorem corresponds_withEngineFor {failures : Failure → Failure → Prop} (hsame : ∀ e, failures e e)
    {values : α → β → Prop} (pair : AlgorithmPair) {work : Text → Work E ω α}
    {other : Text → Work M ω β} (hwork : ∀ name start after, Beside rel benches start after →
      Attempt.Corresponds failures values (Beside rel benches) (work name start) (other name after))
    {left : Workshop E ω} {right : Workshop M ω} (hrel : left.RelatedOn rel benches right) :
    Attempt.Corresponds failures values (RelatedOn rel benches)
      (withEngineFor concrete pair work left) (withEngineFor abstract pair other right) := by
  cases hname : pair.engineName? with
  | none =>
    rw [withEngineFor_of_no_name hname, withEngineFor_of_no_name hname]
    exact .error (hsame _) hrel
  | some name =>
    rcases fetch_relatedOn hbenches h name hrel with
      ⟨engine, machine, engines, machines, bench, another, hleft, hright, hvalue, hengines,
        hbench⟩ | ⟨e, after, counterpart, hleft, hright, hafter⟩
    · -- both have an engine: the counterparts go back into the caches
      rw [withEngineFor_of_engine hname hleft, withEngineFor_of_engine hname hright]
      refine (hwork name _ _ ⟨hvalue, hbench⟩).onPart ?_
      rintro ⟨next, bench⟩ ⟨nextMachine, another⟩ ⟨hnext, hbench⟩
      exact ⟨hengines.insert name hnext, hbench⟩
    · rw [withEngineFor_of_no_engine hname hleft, withEngineFor_of_no_engine hname hright]
      exact .error (hsame e) hafter

end Workshop

end

section

variable {concrete : Supplier E ω} {abstract : Supplier M ω}

theorem Workshop.fetch_counterparts (h : concrete.Refines abstract rel) (name : Text)
    {left : Workshop E ω} {right : Workshop M ω} (hrel : left.Related rel right) :
    (∃ engine machine engines machines bench, fetch concrete name left =
      .ok engine (engines, bench) ∧
        fetch abstract name right = .ok machine (machines, bench) ∧ rel engine machine ∧
        engines.Related rel machines) ∨
      ∃ e after other, fetch concrete name left = .error e after ∧
        fetch abstract name right = .error e other ∧ after.Related rel other := by
  rcases fetch_relatedOn .eq h name hrel with
    ⟨engine, machine, engines, machines, bench, _, hleft, hright, hvalue, hengines, rfl⟩ | hfailed
  · exact .inl ⟨engine, machine, engines, machines, bench, hleft, hright, hvalue, hengines⟩
  · exact .inr hfailed

variable (h : concrete.Refines abstract rel) (key : Key) (pair : AlgorithmPair) (signature : Bytes)
  (transcript : Transcript) (peer : Option Peer) {left : Workshop E ω} {right : Workshop M ω}
  (hrel : left.Related rel right)

include h hrel

/-- Signing with counterparts ends the same way and leaves counterparts, if
asking for another key does. -/
theorem Signer.signThrough_counterparts (config : Config ω) {consult : Key → Work E ω (Option Key)}
    {other : Key → Work M ω (Option Key)}
    (hconsult : ∀ key, Attempt.Matches (SameWorld rel) (consult key) (other key)) :
    ((mk concrete config).signThrough consult key pair transcript peer left).1 =
        ((mk abstract config).signThrough other key pair transcript peer right).1 ∧
      ((mk concrete config).signThrough consult key pair transcript peer left).2.Related rel
        ((mk abstract config).signThrough other key pair transcript peer right).2 := by
  have halike : Attempt.Alike (Workshop.Related rel)
      (Workshop.withEngineFor concrete pair
        ((mk concrete config).workThrough consult key transcript peer) left)
      (Workshop.withEngineFor abstract pair
        ((mk abstract config).workThrough other key transcript peer) right) :=
    -- the peer is the same on both sides, and so are the failures
    .of_corresponds (Workshop.corresponds_withEngineFor .eq h (fun _ => rfl) pair
      (fun name _ _ hrel => corresponds_workThrough .eq h hconsult config (fun _ => rfl) peer peer
        (fun _ _ => rfl) key transcript name hrel) hrel)
  unfold signThrough
  simp only
  generalize Workshop.withEngineFor concrete pair _ left = one at halike ⊢
  generalize Workshop.withEngineFor abstract pair _ right = another at halike ⊢
  cases halike with
  | ok a hafter => exact ⟨rfl, hafter⟩
  | error e hafter => exact ⟨rfl, hafter.note _ _⟩

theorem Signer.sign_counterparts (config : Config ω) :
    ((mk concrete config).sign key pair transcript peer left).1 =
        ((mk abstract config).sign key pair transcript peer right).1 ∧
      ((mk concrete config).sign key pair transcript peer left).2.Related rel
        ((mk abstract config).sign key pair transcript peer right).2 := by
  rw [sign_eq_signThrough, sign_eq_signThrough]
  exact signThrough_counterparts h key pair transcript peer hrel config
    (matches_reencode .eq h config)

/-- Verifying with counterparts ends the same way and leaves counterparts. -/
theorem Verifier.verify_counterparts :
    ((mk concrete).verify key pair signature transcript peer left).1 =
        ((mk abstract).verify key pair signature transcript peer right).1 ∧
      ((mk concrete).verify key pair signature transcript peer left).2.Related rel
        ((mk abstract).verify key pair signature transcript peer right).2 := by
  have halike : Attempt.Alike (Workshop.Related rel)
      (Workshop.withEngineFor concrete pair (fun _ =>
        (mk concrete).work key signature transcript) left)
      (Workshop.withEngineFor abstract pair (fun _ =>
          (mk abstract).work key signature transcript) right) :=
    .of_corresponds (Workshop.corresponds_withEngineFor .eq h (fun _ => rfl) pair
      (fun _ start after hrel =>
        (matches_work .eq h key signature transcript start after hrel).corresponds fun _ =>
        rfl) hrel)
  unfold verify
  simp only
  generalize Workshop.withEngineFor concrete pair _ left = one at halike ⊢
  generalize Workshop.withEngineFor abstract pair _ right = other at halike ⊢
  cases halike with
  | ok valid hafter =>
    cases valid with
    | true => exact ⟨rfl, hafter⟩
    | false => exact ⟨rfl, hafter.note _ _⟩
  | error e hafter => exact ⟨rfl, hafter.note _ _⟩

end

end SignedHandshake
