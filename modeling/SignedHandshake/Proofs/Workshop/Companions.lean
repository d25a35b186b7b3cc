import SignedHandshake.Proofs.Engine.Calls
import SignedHandshake.Proofs.Workshop.Counterparts
import SignedHandshake.Proofs.Workshop.Growth

/-!
# Engines with companions

What a call does to an engine can be told from something that goes along with the engine and
does not take part in the work: its companion. Each call on the engine may change the
companion, by which call it was and by how it ended (`EngineBehaviour.accompanied`). A
companion that never changes is a mark by which an engine can be known again; one that every
call is added to is a record of all of them.

Companions make no difference to a call. An engine with a companion is a counterpart of the
engine without one (`Supplier.accompanied_refines`), so all that is known of calls with
counterparts holds here.
-/

namespace SignedHandshake

variable {E T ω α : Type}

/-- An engine with a companion is the same engine as one without. -/
def SameEngine (engine : E × T) (plain : E) : Prop :=
  engine.1 = plain

/-- A step on an engine and something else, as a step on an engine with a companion. The companion
gets to know what else there was, and how the step ended. -/
def Attempt.accompany {σ : Type} (change : σ → Except Failure α → T → T)
    (step : Attempt (E × σ) α) :
    Attempt ((E × T) × σ) α := fun ((engine, companion), rest) =>
  step.onPart (engine, rest) fun (next, after) =>
    ((next, change rest (Attempt.outcome (step (engine, rest))) companion), after)

theorem Attempt.accompany_apply {σ : Type} (change : σ → Except Failure α → T → T)
    (step : Attempt (E × σ) α) (engine : E) (companion : T) (rest : σ) :
    accompany change step ((engine, companion), rest) =
      Attempt.ofExcept (Attempt.outcome (step (engine, rest)))
        (((Attempt.left (step (engine, rest))).1,
          change rest (Attempt.outcome (step (engine, rest))) companion),
          (Attempt.left (step (engine, rest))).2) :=
  onPart_of_ofExcept (eq_ofExcept _) _

/-- A companion does not take part in a step. -/
theorem Attempt.alike_accompany {σ : Type} (change : σ → Except Failure α → T → T)
    (step : Attempt (E × σ) α) {engine : E × T} {plain : E} (rest : σ)
    (h : SameEngine engine plain) :
    Alike (SameWorld SameEngine) (accompany change step (engine, rest)) (step (plain, rest)) := by
  obtain ⟨engine, companion⟩ := engine
  obtain rfl : engine = plain := h
  rw [accompany_apply, eq_ofExcept (step (engine, rest)), outcome_ofExcept, left_ofExcept]
  exact .ofExcept ⟨rfl, rfl⟩ _

namespace EngineBehaviour

/-- The same behaviour, for engines with companions. A companion gets to know of
each call how it ended. -/
def accompanied (change : EngineCall ω → Except Failure EngineReply → T → T)
    (behaviour : EngineBehaviour E ω) : EngineBehaviour (E × T) ω where
  algorithm engine := behaviour.algorithm engine.1
  initSign key random := (behaviour.initSign key random).accompany fun _ ending =>
    change (.initSign key random) (ending.map fun _ => .done)
  initVerify key := (behaviour.initVerify key).accompany fun _ ending =>
    change (.initVerify key) (ending.map fun _ => .done)
  update data := (behaviour.update data).accompany fun _ ending =>
    change (.update data) (ending.map fun _ => .done)
  sign := behaviour.sign.accompany fun _ ending => change .sign (ending.map .signature)
  verify signature := (behaviour.verify signature).accompany fun _ ending =>
    change (.verify signature) (ending.map .verdict)

theorem accompanied_refines (change : EngineCall ω → Except Failure EngineReply → T → T)
    (behaviour : EngineBehaviour E ω) :
    (behaviour.accompanied change).Refines behaviour SameEngine where
  algorithm h := congrArg behaviour.algorithm h
  initSign key random world h := Attempt.alike_accompany
    (fun _ ending => change (.initSign key random) (ending.map fun _ => .done)) _ world h
  initVerify key world h := Attempt.alike_accompany
    (fun _ ending => change (.initVerify key) (ending.map fun _ => .done)) _ world h
  update data world h := Attempt.alike_accompany
    (fun _ ending => change (.update data) (ending.map fun _ => .done)) _ world h
  sign world h :=
    Attempt.alike_accompany (fun _ ending => change .sign (ending.map .signature)) _ world h
  verify signature world h := Attempt.alike_accompany
    (fun _ ending => change (.verify signature) (ending.map .verdict)) _ world h

end EngineBehaviour

/-- The same supplier, of engines with companions. A new engine has the companion `fresh`. -/
def Supplier.accompanied (change : EngineCall ω → Except Failure EngineReply → T → T) (fresh : T)
    (supplier : Supplier E ω) : Supplier (E × T) ω where
  behaviour := supplier.behaviour.accompanied change
  makeEngine name := (·, fresh) <$> supplier.makeEngine name
  makeFactory := supplier.makeFactory

/-- Engines with companions are counterparts of those without. -/
theorem Supplier.accompanied_refines (change : EngineCall ω → Except Failure EngineReply → T → T)
    (fresh : T) (supplier : Supplier E ω) :
    (supplier.accompanied change fresh).Refines supplier SameEngine where
  behaviour := supplier.behaviour.accompanied_refines change
  makeEngine name world := by
    have hmake : (supplier.accompanied change fresh).makeEngine name world =
        EStateM.map (·, fresh) (supplier.makeEngine name) world := rfl
    rw [EStateM.map] at hmake
    cases hresult : supplier.makeEngine name world with
    | ok engine after =>
      rw [hresult] at hmake
      exact .inl ⟨(engine, fresh), engine, after, hmake, rfl, rfl⟩
    | error e after =>
      rw [hresult] at hmake
      exact .inr ⟨e, after, hmake, rfl⟩
  makeFactory := rfl

/-! ## Marks -/

/-- The same supplier, of engines with marks. A mark never changes, and a new
engine has the mark `fresh`. -/
def Supplier.marked (fresh : T) (supplier : Supplier E ω) : Supplier (E × T) ω :=
  supplier.accompanied (fun _ _ => id) fresh

/-- No operation changes a mark. -/
theorem Supplier.preserves_mark (fresh mark : T) (supplier : Supplier E ω) :
    (supplier.marked fresh).behaviour.Preserves fun engine => engine.2 = mark := by
  have hkept {α : Type} (step : Attempt (E × ω) α) :
      Attempt.Keeps (fun s : (E × T) × ω => s.1.2 = mark) (step.accompany fun _ _ => id) := by
    rintro ⟨⟨engine, _⟩, world⟩ h
    rw [Attempt.accompany, Attempt.left_onPart]
    exact h
  exact ⟨fun key random => hkept (supplier.behaviour.initSign key random),
    fun key => hkept (supplier.behaviour.initVerify key),
    fun data => hkept (supplier.behaviour.update data), hkept supplier.behaviour.sign,
    fun signature => hkept (supplier.behaviour.verify signature)⟩

namespace Workshop

/-- The same workshop, with a mark on every engine. -/
def mark (marks : Text → T) (workshop : Workshop E ω) : Workshop (E × T) ω :=
  ({ entries := workshop.1.entries.map fun (name, engine) =>
    (name, engine, marks name) }, workshop.2)

theorem related_mark (marks : Text → T) (workshop : Workshop E ω) :
    (workshop.mark marks).Related SameEngine workshop := by
  refine ⟨?_, rfl⟩
  show List.Forall₂ _ (workshop.1.entries.map _) workshop.1.entries
  rw [List.forall₂_map_left_iff, List.forall₂_same]
  exact fun entry _ => ⟨rfl, rfl⟩

theorem find?_mark (marks : Text → T) (workshop : Workshop E ω) (name : Text) :
    (workshop.mark marks).1.find? name = (workshop.1.find? name).map (·, marks name) := by
  obtain ⟨⟨entries⟩, bench⟩ := workshop
  show (entries.map fun (name, engine) => (name, engine, marks name)).lookup name =
    (entries.lookup name).map (·, marks name)
  induction entries with
  | nil => rfl
  | cons entry rest ih =>
    obtain ⟨key, engine⟩ := entry
    rw [List.map_cons, List.lookup_cons, List.lookup_cons, ih]
    by_cases hkey : name = key
    · simp [hkey]
    · simp [beq_false_of_ne hkey]

section

variable (change : EngineCall ω → Except Failure EngineReply → T → T) (fresh : T)
    (supplier : Supplier E ω) (name : Text) (workshop : Workshop E ω)

/-- An engine is made with a fresh companion. -/
theorem companion_of_makeEngine {bench after : Bench ω} {engine : E × T}
    (h : Bench.onWorld ((supplier.accompanied change fresh).makeEngine name) bench =
      .ok engine after) :
    engine.2 = fresh := by
  rw [Bench.onWorld, Attempt.onPart] at h
  cases hmade : (supplier.accompanied change fresh).makeEngine name bench.world with
  | error e world =>
    rw [hmade] at h
    cases h
  | ok made world =>
    rw [hmade] at h
    cases h
    obtain ⟨plain, -, rfl⟩ := Attempt.map_eq_ok_iff.mp hmade
    rfl

theorem all_fresh_mark :
    (workshop.mark fun _ => fresh).1.All fun _ engine => engine.2 = fresh := by
  intro name engine hfound
  rw [find?_mark] at hfound
  obtain ⟨plain, -, rfl⟩ := Option.map_eq_some_iff.mp hfound
  rfl

/-- Fetching an engine changes no companion. -/
theorem all_fresh_fetch :
    (Attempt.left
      (fetch (supplier.accompanied change fresh) name (workshop.mark fun _ => fresh))).1.All
      fun _ engine => engine.2 = fresh :=
  (NameMap.keeps_obtain _ (fun _ => True) name
    (fun _ _ _ hmade =>
      companion_of_makeEngine change fresh supplier name hmade) (fun _ _ => trivial) _
    ⟨all_fresh_mark fresh workshop, trivial⟩).1

theorem companion_of_fetch {engine : E × T} {after : Workshop (E × T) ω}
    (h : fetch (supplier.accompanied change fresh) name (workshop.mark fun _ => fresh) =
      .ok engine after) : engine.2 = fresh := by
  have hmark := all_fresh_mark fresh workshop
  exact NameMap.good_of_obtain
    (fun _ _ _ hmade => companion_of_makeEngine change fresh supplier name hmade) hmark h

end

end Workshop

end SignedHandshake
