import Mathlib.Data.List.Induction
import SignedHandshake.Proofs.Workshop.Companions

/-!
# Registrations and their use (specification §9)

Re-encoders may be registered in any order and under any spelling of a name, some of them more than
once. What is found under a name is what was registered last under a name with the same normal form,
whether the registry was new or the standard one, which is itself made by registering
(`ReencoderRegistry.find?_registerAll`).

To rebuild a key, a key factory is asked for and a re-encoder is run, at most one of each. That this
is all is seen from a record of what is done (`ReencoderRegistry.traced`), which makes no difference
to the key that comes out or to the key factories (`ReencoderRegistry.Reencodes`). Both are put
together in **`ReencoderRegistry.last_registration_wins`**.

Proof structure: one registration changes what is found under one normal form
(`find?_register`), and of a sequence the last one is taken off at a time. Rebuilding has three
courses (`Course`): there is no re-encoder, there is no factory for it, or it is run. What is
done in each of them is a lemma of its own.
-/

namespace SignedHandshake

variable {ω : Type}

namespace ReencoderRegistry

/-! ## Registering -/

/-- Use re-encoders for names from now on, one registration after the other. -/
def registerAll (registry : ReencoderRegistry ω) (calls : List (Text × Reencoder ω)) :
    ReencoderRegistry ω :=
  calls.foldl (fun registry call => registry.register call.1 call.2) registry

/-- The re-encoder that was registered last under a name that is the same once both are
trimmed and in small letters. -/
def lastFor (calls : List (Text × Reencoder ω)) (name : Text) : Option (Reencoder ω) :=
  (calls.filter fun call => call.1.trim.lower = name.trim.lower).getLast?.map Prod.snd

/-- The registrations that make up the standard registry. -/
def standardCalls : List (Text × Reencoder ω) :=
  [("EdDSA", .viaPkcs8 "EdDSA"), ("Ed25519", .viaPkcs8 "Ed25519"), ("Ed448", .viaPkcs8 "Ed448"),
    ("1.3.101.112", .viaPkcs8 "Ed25519"), ("1.3.101.113", .viaPkcs8 "Ed448"),
    ("OID.1.3.101.112", .viaPkcs8 "Ed25519"), ("OID.1.3.101.113", .viaPkcs8 "Ed448")]

section

variable (registry : ReencoderRegistry ω) (name other : Text) (reencoder : Reencoder ω)

theorem registerAll_append (calls later : List (Text × Reencoder ω)) :
    registry.registerAll (calls ++ later) = (registry.registerAll calls).registerAll later :=
  List.foldl_append

/-- A registration is found under every name with the same normal form, and nothing else changes. -/
theorem find?_register :
    (registry.register name reencoder).find? other =
      if other.trim.lower = name.trim.lower then some reencoder else registry.find? other :=
  NameMap.find?_insert ..

theorem find?_register_of_ne {name other : Text} (h : other.trim.lower ≠ name.trim.lower) :
    (registry.register name reencoder).find? other = registry.find? other := by
  rw [find?_register, if_neg h]

/-- What one more registration makes of the last one. -/
theorem lastFor_append_singleton (calls : List (Text × Reencoder ω)) (call : Text × Reencoder ω) :
    lastFor (calls ++ [call]) name =
      if name.trim.lower = call.1.trim.lower then some call.2 else lastFor calls name := by
  by_cases hsame : call.1.trim.lower = name.trim.lower
  · have hfilter : [call].filter (fun call => call.1.trim.lower = name.trim.lower) = [call] := by
      simp [hsame]
    rw [lastFor, List.filter_append, hfilter, List.getLast?_concat, if_pos hsame.symm]
    rfl
  · have hfilter : [call].filter (fun call => call.1.trim.lower = name.trim.lower) = [] := by
      simp [hsame]
    rw [lastFor, List.filter_append, hfilter, List.append_nil, if_neg (Ne.symm hsame)]
    rfl

/-- **The last registration under a normal form counts**, and where there is none, what was there
before. Induction on the registrations, the last one first. -/
theorem find?_registerAll (calls : List (Text × Reencoder ω)) :
    (registry.registerAll calls).find? name = (lastFor calls name).or (registry.find? name) := by
  induction calls using List.reverseRecOn with
  | nil => rfl
  | append_singleton calls call ih =>
    have hlast : (registry.registerAll calls).registerAll [call] =
        (registry.registerAll calls).register call.1 call.2 := rfl
    rw [registerAll_append, hlast, find?_register, lastFor_append_singleton]
    by_cases hsame : name.trim.lower = call.1.trim.lower
    · rw [if_pos hsame, if_pos hsame]
      rfl
    · rw [if_neg hsame, if_neg hsame, ih]

end

/-- In a new registry nothing is found but what was registered in it. -/
theorem find?_registerAll_new (calls : List (Text × Reencoder ω)) (name : Text) :
    (registerAll {} calls).find? name = lastFor calls name := by
  have hnone : ({} : ReencoderRegistry ω).find? name = none := rfl
  rw [find?_registerAll, hnone, Option.or_none]

/-- The standard registry is made by registering. -/
theorem standard_eq : (standard : ReencoderRegistry ω) = registerAll {} standardCalls := rfl

/-- So what is registered in it comes behind its own registrations. -/
theorem find?_registerAll_standard (calls : List (Text × Reencoder ω)) (name : Text) :
    (registerAll standard calls).find? name = lastFor (standardCalls ++ calls) name := by
  rw [standard_eq, ← registerAll_append, find?_registerAll_new]

/-! ## Rebuilding on record -/

/-- Something that is done to rebuild a key, and how it ended. -/
inductive RebuildingAct (ω : Type) where
  /-- A key factory is asked for. -/
  | ask (name : Text) (ending : Except Failure (KeyFactory ω))
  /-- A re-encoder is run. -/
  | run (reencoder : Reencoder ω) (key : Key) (factory : KeyFactory ω) (ending : Except Failure Key)

/-- Rebuild a key, where `ask` gives key factories and `run` runs re-encoders. -/
def reencodeThrough {σ : Type} (registry : ReencoderRegistry ω)
    (ask : Text → Attempt σ (KeyFactory ω))
    (run : Reencoder ω → Key → KeyFactory ω → Attempt σ Key) (key : Key) : Attempt σ (Option Key) :=
  match registry.find? key.algorithm with
  | none => pure none
  | some reencoder => do
    let factory ← ask reencoder.standardName
    let replaced ← run reencoder key factory
    return some replaced

/-- Run a re-encoder, which does nothing to the key factories that there are. -/
def runBeside (reencoder : Reencoder ω) (key : Key) (factory : KeyFactory ω) :
    Attempt (NameMap (KeyFactory ω) × ω) Key := fun (factories, world) =>
  (reencoder.reencode key factory).onPart world fun world => (factories, world)

/-- Rebuild a key, and put on record what is done. -/
def traced (registry : ReencoderRegistry ω) (make : Text → Attempt ω (KeyFactory ω)) (key : Key) :
    Attempt ((NameMap (KeyFactory ω) × List (RebuildingAct ω)) × ω) (Option Key) :=
  registry.reencodeThrough
    (fun name => (NameMap.obtain make name).accompany fun _ ending acts =>
      acts ++ [.ask name ending])
    (fun reencoder key factory => (runBeside reencoder key factory).accompany fun _ ending acts =>
      acts ++ [.run reencoder key factory ending])
    key

/-- The courses that rebuilding a key can take. -/
inductive Course (registry : ReencoderRegistry ω) (make : Text → Attempt ω (KeyFactory ω))
    (key : Key) (factories : NameMap (KeyFactory ω)) (world : ω) : Prop where
  | noReencoder (hfound : registry.find? key.algorithm = none)
  | noFactory {reencoder : Reencoder ω} {e : Failure} {next : NameMap (KeyFactory ω)} {between : ω}
    (hfound : registry.find? key.algorithm = some reencoder)
    (hask : NameMap.obtain make reencoder.standardName (factories, world) =
      .error e (next, between))
  | run {reencoder : Reencoder ω} {factory : KeyFactory ω} {next : NameMap (KeyFactory ω)}
      {between : ω} (hfound : registry.find? key.algorithm = some reencoder)
    (hask : NameMap.obtain make reencoder.standardName (factories, world) =
      .ok factory (next, between))

theorem course (registry : ReencoderRegistry ω) (make : Text → Attempt ω (KeyFactory ω)) (key : Key)
    (factories : NameMap (KeyFactory ω)) (world : ω) :
    registry.Course make key factories world := by
  cases hfound : registry.find? key.algorithm with
  | none => exact .noReencoder hfound
  | some reencoder =>
    cases hask : NameMap.obtain make reencoder.standardName (factories, world) with
    | error e after => exact .noFactory hfound hask
    | ok factory after => exact .run hfound hask

section

variable {registry : ReencoderRegistry ω} {make : Text → Attempt ω (KeyFactory ω)} {key : Key}
  {factories next : NameMap (KeyFactory ω)} {world between after : ω} {reencoder : Reencoder ω}
  {factory : KeyFactory ω} {e : Failure}

/-- Without a re-encoder nothing is done. -/
theorem traced_of_no_reencoder (hfound : registry.find? key.algorithm = none)
    (acts : List (RebuildingAct ω)) :
    registry.reencode make key (factories, world) = .ok none (factories, world) ∧
      registry.traced make key ((factories, acts), world) =
        .ok none ((factories, acts), world) := by
  constructor
  · simp only [reencode, hfound]
  · simp only [traced, reencodeThrough, hfound]
    rfl

/-- Without a factory for it, the re-encoder is not run. -/
theorem traced_of_no_factory (hfound : registry.find? key.algorithm = some reencoder)
    (hask : NameMap.obtain make reencoder.standardName (factories, world) =
      .error e (next, between)) (acts : List (RebuildingAct ω)) :
    registry.reencode make key (factories, world) = .error e (next, between) ∧
      registry.traced make key ((factories, acts), world) =
        .error e ((next, acts ++ [.ask reencoder.standardName (.error e)]), between) := by
  have hasked := Attempt.accompany_apply
    (fun _ ending acts => acts ++ [.ask reencoder.standardName ending])
    (NameMap.obtain make reencoder.standardName) factories acts world
  rw [hask] at hasked
  constructor
  · simp only [reencode, hfound, hask]
  · simp only [traced, reencodeThrough, hfound]
    exact Attempt.bind_of_error hasked _

/-- With a factory, the re-encoder is run, and it has the last word. -/
theorem traced_of_factory (hfound : registry.find? key.algorithm = some reencoder)
    (hask : NameMap.obtain make reencoder.standardName (factories, world) =
      .ok factory (next, between)) {ending : Except Failure Key}
    (hrun : reencoder.reencode key factory between = Attempt.ofExcept ending after)
    (acts : List (RebuildingAct ω)) :
    registry.reencode make key (factories, world) = Attempt.ofExcept (ending.map some)
      (next, after) ∧
      registry.traced make key ((factories, acts), world) = Attempt.ofExcept (ending.map some)
        ((next, acts ++ [.ask reencoder.standardName (.ok factory),
          .run reencoder key factory ending]), after) := by
  -- asking for the factory is noted first, and then the run of the re-encoder
  have hasked := Attempt.accompany_apply
    (fun _ ending acts => acts ++ [.ask reencoder.standardName ending])
    (NameMap.obtain make reencoder.standardName) factories acts world
  rw [hask] at hasked
  have hbeside :
      runBeside reencoder key factory (next, between) = Attempt.ofExcept ending (next, after) :=
    Attempt.onPart_of_ofExcept hrun _
  have hran := Attempt.accompany_apply
    (fun _ ending acts => acts ++ [.run reencoder key factory ending])
    (runBeside reencoder key factory) next (acts ++ [.ask reencoder.standardName (.ok factory)])
    between
  rw [hbeside, Attempt.outcome_ofExcept, Attempt.left_ofExcept, List.append_assoc] at hran
  constructor
  · simp only [reencode, hfound, hask, hrun]
    cases ending <;> rfl
  · simp only [traced, reencodeThrough, hfound]
    rw [Attempt.bind_of_ok hasked]
    exact Attempt.map_of_ofExcept hran some

end

/-- What rebuilding a key comes to, and what is done on the way, seen from the record. -/
structure Reencodes (registry : ReencoderRegistry ω) (make : Text → Attempt ω (KeyFactory ω))
    (key : Key) (factories : NameMap (KeyFactory ω)) (world : ω) : Prop where
  /-- The record makes no difference to how rebuilding ends, to the key factories
  or to the world. -/
  same : ∀ acts,
    let one := registry.traced make key ((factories, acts), world)
    let other := registry.reencode make key (factories, world)
    Attempt.outcome one = Attempt.outcome other ∧
      ((Attempt.left one).1.1, (Attempt.left one).2) = Attempt.left other
  /-- No key comes out exactly if nothing is registered for the key. -/
  none_iff : Attempt.outcome (registry.reencode make key (factories, world)) = .ok none ↔
    registry.find? key.algorithm = none
  /-- Then nothing is done, not even to the key factories. -/
  untouched : registry.find? key.algorithm = none →
    registry.reencode make key (factories, world) = .ok none (factories, world) ∧
      registry.traced make key ((factories, []), world) = .ok none ((factories, []), world)
  /-- Otherwise one factory is asked for, and if this fails, the failure is what comes out. -/
  noFactory : ∀ reencoder e next between, registry.find? key.algorithm = some reencoder →
    NameMap.obtain make reencoder.standardName (factories, world) = .error e (next, between) →
      registry.reencode make key (factories, world) = .error e (next, between) ∧
        registry.traced make key ((factories, []), world) =
          .error e ((next, [.ask reencoder.standardName (.error e)]), between)
  /-- If not, the re-encoder is run with it, and its key or its failure is what comes out. -/
  run : ∀ reencoder factory next between, registry.find? key.algorithm = some reencoder →
    NameMap.obtain make reencoder.standardName (factories, world) = .ok factory (next, between) →
      let result := reencoder.reencode key factory between
      let ending := Attempt.outcome result
      registry.reencode make key (factories, world) =
          Attempt.ofExcept (ending.map some) (next, Attempt.left result) ∧
        registry.traced make key ((factories, []), world) = Attempt.ofExcept (ending.map some)
          ((next, [.ask reencoder.standardName (.ok factory), .run reencoder key factory ending]),
            Attempt.left result)

theorem reencodes (registry : ReencoderRegistry ω) (make : Text → Attempt ω (KeyFactory ω))
    (key : Key)
    (factories : NameMap (KeyFactory ω)) (world : ω) :
    registry.Reencodes make key factories world := by
  refine
    { same := fun acts => ?_
      none_iff := ?_
      untouched := fun hnone => traced_of_no_reencoder hnone []
      noFactory := fun _ _ _ _ hfound hask => traced_of_no_factory hfound hask []
      run := fun _ _ _ _ hfound hask =>
        traced_of_factory hfound hask (Attempt.eq_ofExcept _) [] }
  · cases course registry make key factories world with
    | noReencoder hfound =>
      obtain ⟨hplain, htraced⟩ := traced_of_no_reencoder hfound acts
      rw [hplain, htraced]
      exact ⟨rfl, rfl⟩
    | noFactory hfound hask =>
      obtain ⟨hplain, htraced⟩ := traced_of_no_factory hfound hask acts
      rw [hplain, htraced]
      exact ⟨rfl, rfl⟩
    | run hfound hask =>
      obtain ⟨hplain, htraced⟩ := traced_of_factory hfound hask (Attempt.eq_ofExcept _) acts
      rw [hplain, htraced]
      simp
  · refine ⟨fun hending => ?_, fun hfound => by rw [(traced_of_no_reencoder hfound []).1]; rfl⟩
    cases course registry make key factories world with
    | noReencoder hfound => exact hfound
    | noFactory hfound hask =>
      rw [(traced_of_no_factory hfound hask []).1] at hending
      cases hending
    | run hfound hask =>
      -- a re-encoder gives a key or fails
      rw [(traced_of_factory hfound hask (Attempt.eq_ofExcept _) []).1, Attempt.outcome_ofExcept,
        except_map_eq_ok_iff] at hending
      obtain ⟨_, -, hsome⟩ := hending
      cases hsome

/-- **The last registration wins, and rebuilding does what it says.** In a new or in the standard
registry, with whatever registrations after that, what is found under a name is what was registered
last under a name with the same trimmed and small form, or nothing if there was none; for the
standard registry its own registrations count as well. A registration changes nothing under a name
with another normal form. And with any registry, way to make key factories, key and factories that
are there already, rebuilding the key gives none, and touches nothing, exactly if nothing is found
under the name of its algorithm. Otherwise it asks for one key factory, under the standard name of
the re-encoder; a failure to get it comes out unchanged, and the re-encoder is not run; and with the
factory it is run once, and its key or its failure comes out. -/
theorem last_registration_wins :
    (∀ (calls : List (Text × Reencoder ω)) (name : Text),
        (registerAll {} calls).find? name = lastFor calls name) ∧
      (∀ (calls : List (Text × Reencoder ω)) (name : Text),
        (registerAll standard calls).find? name = lastFor (standardCalls ++ calls) name) ∧
      (∀ (registry : ReencoderRegistry ω) (name other : Text) (reencoder : Reencoder ω),
        other.trim.lower ≠ name.trim.lower →
          (registry.register name reencoder).find? other = registry.find? other) ∧
      ∀ (registry : ReencoderRegistry ω) (make : Text → Attempt ω (KeyFactory ω)) (key : Key)
        (factories : NameMap (KeyFactory ω))
        (world : ω), registry.Reencodes make key factories world :=
  ⟨find?_registerAll_new, find?_registerAll_standard,
    fun registry _ _ reencoder h => find?_register_of_ne registry reencoder h, reencodes⟩

/-- Two spellings of one name, registered one after the other, in a new registry and in the standard
one. A name of the same variant that is spelled in another way keeps what it had. -/
theorem last_registration_wins_colliding :
    let calls : List (Text × Reencoder Unit) :=
      [("Ed25519", .viaPkcs8 "first"), (" \tED25519\u00A0", .viaPkcs8 "second")]
    let through (registry : ReencoderRegistry Unit) (name : Text) : Option Text :=
      (registry.find? name).map Reencoder.standardName
    through (registerAll {} calls) "ed25519" = some "second" ∧
      through (registerAll standard calls) "ed25519" = some "second" ∧
      through (registerAll {} calls) "1.3.101.112" = none ∧
      through (registerAll standard calls) "1.3.101.112" = some "Ed25519" := by
  intro calls through
  -- in either registry, what is looked up is what was registered last under the name
  obtain ⟨hnew, hstandard, -, -⟩ := last_registration_wins (ω := Unit)
  refine ⟨?_, ?_, ?_, ?_⟩
  · show ((registerAll {} calls).find? _).map _ = _
    rw [hnew]
    decide +kernel
  · show ((registerAll standard calls).find? _).map _ = _
    rw [hstandard]
    decide +kernel
  · show ((registerAll {} calls).find? _).map _ = _
    rw [hnew]
    decide
  · show ((registerAll standard calls).find? _).map _ = _
    rw [hstandard]
    decide

end ReencoderRegistry

end SignedHandshake
