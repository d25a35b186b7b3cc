import SignedHandshake.Proofs.Handshake.Addresses
import SignedHandshake.Proofs.Workshop.Counterparts

/-!
# Calls for other peers

A call is told which peer it is for, and what earlier calls logged may name other peers. Neither
makes a difference to what the call does: for another peer, in a workshop with another log, signing
gives the same signature or a failure that is readdressed, verifying comes to the same verdict, and
the engines, the key factories and the world they leave are the same (`Signer.sign_readdressed`,
`Verifier.verify_readdressed`). Only where a verifier logs a rejection does it name the peer.

Proof structure: benches that differ in such lines alone are related in a way that no step can
tell (`Bench.Readdressed.faithful`), so the two calls match part by part, as they do with
counterparts of the same engines; here the engines are the same. A peer comes in only where a
failure is put into words.
-/

namespace SignedHandshake

variable {E ω : Type}

/-! ## What may differ -/

/-- The same line; the line about a rejection may name another peer. -/
inductive LogLine.Readdressed : LogLine → LogLine → Prop where
  | same (line : LogLine) : Readdressed line line
  | rejection (rejection : Rejection) (peer other : Option Peer) :
    Readdressed ⟨.error, rejection.line peer⟩ ⟨.error, rejection.line other⟩

/-- The same factories and the same world, and the same lines but for the peers in rejections. -/
structure Bench.Readdressed (one other : Bench ω) : Prop where
  factories : one.factories = other.factories
  world : one.world = other.world
  log : List.Forall₂ LogLine.Readdressed one.log other.log

/-- The same engines, and benches that differ in the log alone. -/
structure Workshop.Readdressed (one other : Workshop E ω) : Prop where
  engines : one.1 = other.1
  bench : one.2.Readdressed other.2

namespace Bench.Readdressed

theorem refl (bench : Bench ω) : bench.Readdressed bench :=
  ⟨rfl, rfl, List.forall₂_same.mpr fun line _ => .same line⟩

theorem faithful : Faithful (Readdressed : Bench ω → Bench ω → Prop) where
  world h := h.world
  factories h := h.factories
  change h _ _ := ⟨rfl, rfl, h.log⟩
  note h _ _ := ⟨h.factories, h.world, List.rel_append h.log (.cons (.same _) .nil)⟩

/-- A rejection is logged for each of the peers. -/
theorem reject {one other : Bench ω} (h : one.Readdressed other) (rejection : Rejection)
    (peer another : Option Peer) :
    (one.note .error (rejection.line peer)).Readdressed
      (other.note .error (rejection.line another)) :=
  ⟨h.factories, h.world, List.rel_append h.log (.cons (.rejection rejection peer another) .nil)⟩

end Bench.Readdressed

/-! ## The same engines -/

/-- Maps with the same names and the same values under them are the same. -/
theorem NameMap.related_eq_iff {α : Type} {left right : NameMap α} :
    left.Related Eq right ↔ left = right := by
  constructor
  · intro h
    obtain ⟨entries⟩ := left
    obtain ⟨others⟩ := right
    change List.Forall₂ _ entries others at h
    have hentries : entries = others := by
      induction h with
      | nil => rfl
      | cons hhead _ ih => rw [Prod.ext hhead.1 hhead.2, ih]
    rw [hentries]
  · rintro rfl
    exact List.forall₂_same.mpr fun entry _ => ⟨rfl, rfl⟩

theorem Workshop.relatedOn_eq_iff {one other : Workshop E ω} :
    one.RelatedOn Eq Bench.Readdressed other ↔ one.Readdressed other :=
  ⟨fun h => ⟨NameMap.related_eq_iff.mp h.1, h.2⟩, fun h =>
    ⟨NameMap.related_eq_iff.mpr h.engines, h.bench⟩⟩

/-- Engines are counterparts of themselves. -/
theorem Supplier.refines_eq (supplier : Supplier E ω) : supplier.Refines supplier Eq := by
  -- a step from the same state is the same step
  have hsame {α : Type} (step : Attempt (E × ω) α) {engine machine : E} (world : ω)
      (h : engine = machine) :
      Attempt.Alike (SameWorld Eq) (step (engine, world)) (step (machine, world)) := by
    cases h
    cases step (engine, world) with
    | ok a after => exact .ok a ⟨rfl, rfl⟩
    | error e after => exact .error e ⟨rfl, rfl⟩
  refine ⟨⟨?_, ?_, ?_, ?_, ?_, ?_⟩, ?_, rfl⟩
  · rintro engine _ rfl
    rfl
  · exact fun key random world h => hsame _ world h
  · exact fun key world h => hsame _ world h
  · exact fun data world h => hsame _ world h
  · exact fun world h => hsame _ world h
  · exact fun signature world h => hsame _ world h
  · intro name world
    cases hmade : supplier.makeEngine name world with
    | ok engine after => exact .inl ⟨engine, engine, after, rfl, rfl, rfl⟩
    | error e after => exact .inr ⟨e, after, rfl, rfl⟩

/-! ## Signing -/

/-- The same failure, or the same signing failure for another peer. -/
inductive Failure.SigningReaddressed : Failure → Failure → Prop where
  | same (e : Failure) : SigningReaddressed e e
  | signing (peer other : Option Peer) (message : Text) (cause : Option Failure) :
    SigningReaddressed (.mk (.signing peer) message cause) (.mk (.signing other) message cause)

namespace Signer

/-- What ended a call is put into the same words for every peer. -/
theorem failure_readdressed (key : Key) (pair : AlgorithmPair) (peer other : Option Peer)
    {e e' : Failure} (h : e.SigningReaddressed e') :
    (failure key pair peer e).Readdressed (failure key pair other e') := by
  cases h with
  | signing addressee another message cause => exact ⟨.signing addressee another, rfl, rfl⟩
  | same =>
    unfold failure
    cases e.kind with
    | signing addressee => exact .refl e
    | _ => exact ⟨.signing peer other, rfl, rfl⟩

variable (signer : Signer E ω) (key : Key) (pair : AlgorithmPair) (transcript : Transcript)
  (peer other : Option Peer) {one another : Workshop E ω}

/-- Signing for another peer gives the same signature, or the same failure for that peer, and leaves
the same engines, factories and world. -/
theorem sign_readdressed (h : one.Readdressed another) :
    ExceptRel Failure.Readdressed Eq (signer.sign key pair transcript peer one).1
        (signer.sign key pair transcript other another).1 ∧
      (signer.sign key pair transcript peer one).2.Readdressed
        (signer.sign key pair transcript other another).2 := by
  obtain ⟨supplier, config⟩ := signer
  have hrefines := supplier.refines_eq
  have hcall : Attempt.Corresponds Failure.SigningReaddressed Eq
      (Workshop.RelatedOn Eq Bench.Readdressed)
      (Workshop.withEngineFor supplier pair ((mk supplier config).work key transcript peer) one)
      (Workshop.withEngineFor supplier pair ((mk supplier config).work key transcript other)
          another) :=
    Workshop.corresponds_withEngineFor Bench.Readdressed.faithful hrefines .same pair
      (fun name _ _ hrel => corresponds_workThrough Bench.Readdressed.faithful hrefines
        (matches_reencode Bench.Readdressed.faithful hrefines config) config .same peer other
        (fun _ _ => .signing peer other _ _) key transcript name hrel)
      (Workshop.relatedOn_eq_iff.mpr h)
  unfold sign
  simp only
  generalize Workshop.withEngineFor supplier pair _ one = result at hcall ⊢
  generalize Workshop.withEngineFor supplier pair _ another = resultOther at hcall ⊢
  cases hcall with
  | ok hvalue hafter => exact ⟨.ok hvalue, Workshop.relatedOn_eq_iff.mp hafter⟩
  | error hfailure hafter =>
    obtain ⟨hengines, hbench⟩ := Workshop.relatedOn_eq_iff.mp hafter
    -- the failure names the other peer, but says the same in the log
    have hfailed := failure_readdressed key pair peer other hfailure
    refine ⟨.error hfailed, hengines, ?_⟩
    simp only [hfailed.message]
    exact Bench.Readdressed.faithful.note hbench _ _

end Signer

/-! ## Verifying -/

/-- Verifying for another peer comes to the same verdict, with a failure for that peer if it is a
rejection, and leaves the same engines, factories and world. -/
theorem Verifier.verify_readdressed (verifier : Verifier E ω) (key : Key) (pair : AlgorithmPair)
    (signature : Bytes) (transcript : Transcript) (peer other : Option Peer)
    {one another : Workshop E ω} (h : one.Readdressed another) :
    ExceptRel Failure.Readdressed Eq (verifier.verify key pair signature transcript peer one).1
        (verifier.verify key pair signature transcript other another).1 ∧
      (verifier.verify key pair signature transcript peer one).2.Readdressed
        (verifier.verify key pair signature transcript other another).2 := by
  obtain ⟨supplier⟩ := verifier
  have hrefines := supplier.refines_eq
  have hmatches := matches_work Bench.Readdressed.faithful hrefines key signature transcript
  have hcall : Attempt.Alike (Workshop.RelatedOn Eq Bench.Readdressed)
      (Workshop.withEngineFor supplier pair (fun _ =>
        (mk supplier).work key signature transcript) one)
      (Workshop.withEngineFor supplier pair (fun _ => (mk supplier).work key signature transcript)
        another) :=
    .of_corresponds
      (Workshop.corresponds_withEngineFor Bench.Readdressed.faithful hrefines (fun _ => rfl)
        pair (fun _ start after hrel => (hmatches start after hrel).corresponds fun _ => rfl)
        (Workshop.relatedOn_eq_iff.mpr h))
  -- whatever the rejection is, each peer has its own failure and its own line
  have hrejected (rejection : Rejection) {after afterOther : Workshop E ω}
      (hafter : after.RelatedOn Eq Bench.Readdressed afterOther) :
      ExceptRel Failure.Readdressed Eq (reject peer rejection after).1
        (reject other rejection afterOther).1 ∧
        (reject peer rejection after).2.Readdressed (reject other rejection afterOther).2 := by
    obtain ⟨hengines, hbench⟩ := Workshop.relatedOn_eq_iff.mp hafter
    exact ⟨.error ⟨.authentication peer other, rfl, rfl⟩, hengines,
      hbench.reject rejection peer other⟩
  unfold verify
  simp only
  generalize Workshop.withEngineFor supplier pair _ one = result at hcall ⊢
  generalize Workshop.withEngineFor supplier pair _ another = resultOther at hcall ⊢
  cases hcall with
  | error e hafter => exact hrejected (.ofFailure e) hafter
  | ok valid hafter =>
    cases valid with
    | true => exact ⟨.ok rfl, Workshop.relatedOn_eq_iff.mp hafter⟩
    | false => exact hrejected .mismatch hafter

end SignedHandshake
