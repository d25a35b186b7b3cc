import SignedHandshake.CertificateVerify.Workshop
import SignedHandshake.Proofs.CertificateVerify.Stages
import SignedHandshake.Proofs.Engine.Calls

/-!
# Work on an engine

The work of a call is calls on its engine, one after the other, with lines logged in between.

- `feedFrom_of_absorbs`: what an engine holds after it was fed a transcript.
- `Workshop.ask`: what a whole call comes to, with the calls that are made on the way.
-/

namespace SignedHandshake

/-!
## What an engine is fed

A transcript is fed entry by entry. How an engine keeps what it was fed is its own business: some
hash it, some store it. `Absorbs` leaves that open: `holds data engine` says that the engine has
taken in `data`, and one more piece makes it hold `data` with the piece behind it. The induction
over the transcript is done once, for all such engines (`feedFrom_of_absorbs`): the engine ends up
with the bytes of the transcript, or the first entry without bytes ends the feeding.

Neither the world nor the key factories are touched on the way, only the log grows.
-/

variable {E ω : Type}

namespace EngineBehaviour

/-- Engines that hold data take in any further piece, and hold it behind the data. -/
def Absorbs (behaviour : EngineBehaviour E ω) (holds : Bytes → E → Prop) : Prop :=
  ∀ (data piece : Bytes) (engine : E) (world : ω), holds data engine →
    ∃ next, behaviour.update piece (engine, world) = .ok () (next, world) ∧
      holds (data ++ piece) next

/-- An engine that does nothing but gather what it is fed. -/
def gathering : EngineBehaviour Bytes ω where
  algorithm _ := ""
  initSign _ _ := pure ()
  initVerify _ := pure ()
  update data := fun (gathered, world) => .ok () (gathered ++ data, world)
  sign := fun (gathered, world) => .ok gathered (gathered, world)
  verify _ := pure false

theorem gathering_absorbs :
    (gathering : EngineBehaviour Bytes ω).Absorbs (fun data gathered => gathered = data) := by
  rintro data piece _ world rfl
  exact ⟨_, rfl, rfl⟩

end EngineBehaviour

namespace Work

variable {behaviour : EngineBehaviour E ω} {holds : Bytes → E → Prop}

/-- A step of the engine that leaves the world alone leaves the bench alone. -/
theorem engine_of_ofExcept {α : Type} {step : Attempt (E × ω) α} {engine next : E}
    (result : Except Failure α) {bench : Bench ω}
    (h : step (engine, bench.world) = Attempt.ofExcept result (next, bench.world)) :
    Work.engine step (engine, bench) = Attempt.ofExcept result (next, bench) := by
  show step.onPart (engine, bench.world) _ = _
  rw [Attempt.onPart, h]
  cases result <;> rfl

/-- Feeding counts the entries if all of them have bytes, and fails like the first that has none.
The engine has then taken in what there was before that. -/
theorem feedFrom_of_absorbs (h : behaviour.Absorbs holds) (transcript : Transcript) (index : Nat)
    {data : Bytes} {engine : E} (bench : Bench ω) (hdata : holds data engine) :
    ∃ fed next log, feedFrom behaviour index transcript (engine, bench) =
        Attempt.ofExcept (transcript.bytes.map fun _ => index + transcript.length)
          (next, { bench with log }) ∧
      holds (data ++ fed) next ∧ ∀ bytes, transcript.bytes = .ok bytes → fed = bytes := by
  -- the engine changes with every entry, and so do the data it holds, the bench and the count
  induction transcript generalizing index data engine bench with
  | nil =>
    refine ⟨[], engine, bench.log, rfl, ?_, ?_⟩
    · rw [List.append_nil]
      exact hdata
    · intro bytes hbytes
      cases hbytes
      rfl
  | cons entry rest ih =>
    cases hentry : entry.canonicalBytes with
    | error e =>
      -- feeding stops here, with nothing of this entry in the engine
      have hall : Transcript.bytes (entry :: rest) = .error e := by
        rw [Transcript.bytes, hentry]
        rfl
      refine ⟨[], engine, bench.log, ?_, ?_, ?_⟩
      · rw [feedFrom, hentry, hall]
        rfl
      · rw [List.append_nil]
        exact hdata
      · intro bytes hbytes
        rw [hall] at hbytes
        cases hbytes
    | ok piece =>
      have hall : Transcript.bytes (entry :: rest) =
          (Transcript.bytes rest).map (piece ++ ·) := by
        rw [Transcript.bytes, hentry]
        cases Transcript.bytes rest <;> rfl
      obtain ⟨next, hupdate, hnext⟩ := h data piece engine bench.world hdata
      obtain ⟨fed, last, log, hfeed, hlast, hfed⟩ := ih (index + 1)
        (bench.note .trace (s!"  [{index}] - " ++ entry.label)) hnext
      refine ⟨piece ++ fed, last, log, ?_, ?_, ?_⟩
      · -- the entry is fed and noted, and the rest goes on from there
        have hpiece : (Attempt.ofExcept entry.canonicalBytes : Work E ω Bytes) = pure piece := by
          rw [hentry]
          rfl
        have hcount :
            (Transcript.bytes (entry :: rest)).map (fun _ => index + (entry :: rest).length) =
            (Transcript.bytes rest).map fun _ => index + 1 + rest.length := by
          rw [hall, List.length_cons, Nat.add_comm rest.length 1, Nat.add_assoc]
          cases Transcript.bytes rest <;> rfl
        rw [feedFrom, hpiece, pure_bind, Attempt.bind_of_ok (engine_of_ofExcept (.ok ()) hupdate),
          hcount]
        exact hfeed
      · rw [← List.append_assoc]
        exact hlast
      · intro bytes hbytes
        cases hrest : Transcript.bytes rest with
        | error e =>
          rw [hall, hrest] at hbytes
          cases hbytes
        | ok others =>
          rw [hall, hrest] at hbytes
          cases hbytes
          rw [hfed others hrest]

end Work

/-! ### What feeding hands over -/

/-- What an engine is handed when a transcript is fed to it, if all entries have bytes. -/
def Transcript.handed (transcript : Transcript) : Except Failure Bytes :=
  match Work.feed .gathering transcript ([], ({ world := () } : Bench Unit)) with
  | .ok _ (gathered, _) => .ok gathered
  | .error e _ => .error e

/-- An engine is handed the bytes of the entries, one behind the other, and nothing else. -/
theorem Transcript.handed_eq_bytes (transcript : Transcript) :
    transcript.handed = transcript.bytes := by
  obtain ⟨fed, next, log, hfeed, hnext, hfed⟩ := Work.feedFrom_of_absorbs
    EngineBehaviour.gathering_absorbs transcript 0 ({ world := () } : Bench Unit) rfl
  rw [Transcript.handed, Work.feed, hfeed]
  cases hbytes : transcript.bytes with
  | error e => rfl
  | ok bytes =>
    show Except.ok next = Except.ok bytes
    rw [hnext, List.nil_append, hfed bytes hbytes]

end SignedHandshake

/-!
## Work that follows a plan

The work of a call consists of calls on its engine, with lines logged in between. `Work.Follows`
says which calls these are: the work ends as following the plan ends, and it leaves behind what
following the plan leaves behind, with some lines more in the log. It is kept by putting work
together (`Follows.bind`), so that by induction on the transcript feeding follows the plan to hand
over one entry after the other (`follows_feedFrom`).

Nothing is assumed about the engine. `Workshop.ask` then says what a whole call comes to: whether
there is an engine, how following the plan ends, and which calls are made on the way.
-/

namespace SignedHandshake

variable {E ω α β : Type}

/-- The calls by which a transcript is fed to an engine. -/
def Transcript.plan (transcript : Transcript) : CallPlan ω :=
  transcript.map fun entry => entry.canonicalBytes.map .update

namespace Work

/-- Work comes to following a plan and reading the last reply, except for the log. -/
def Follows (behaviour : EngineBehaviour E ω) (plan : CallPlan ω) (read : EngineReply → α)
    (work : Work E ω α) : Prop :=
  ∀ reply engine bench,
    let result := behaviour.follow plan reply (engine, bench.world)
    ∃ log, work (engine, bench) = Attempt.ofExcept ((Attempt.outcome result).map read)
      ((Attempt.left result).1, { bench with world := (Attempt.left result).2, log })

section

variable {behaviour : EngineBehaviour E ω}

/-- A value that is there follows from no calls. -/
theorem follows_pure (a : α) : Follows behaviour [] (fun _ => a) (pure a) :=
  fun _ _ bench => ⟨bench.log, rfl⟩

/-- Logging takes no calls. -/
theorem follows_note (level : MessageLevel) (message : Text) :
    Follows behaviour [] (fun _ => ()) (Work.note level message) :=
  fun _ _ bench => ⟨(bench.note level message).log, rfl⟩

/-- A step of the engine is a call. -/
theorem follows_call {call : EngineCall ω} {read : EngineReply → α} {step : Attempt (E × ω) α}
    (h : read <$> behaviour.call call = step) :
    Follows behaviour [.ok call] read (Work.engine step) := by
  subst h
  intro reply engine bench
  refine ⟨bench.log, ?_⟩
  show Attempt.onPart (EStateM.map read (behaviour.call call)) (engine, bench.world) _ = _
  rw [EngineBehaviour.follow_one, Attempt.onPart, EStateM.map]
  cases behaviour.call call (engine, bench.world) <;> rfl

/-- A call that gives nothing back. -/
theorem follows_done {call : EngineCall ω} {step : Attempt (E × ω) Unit}
    (h : behaviour.call call = (fun _ => .done) <$> step) :
    Follows behaviour [.ok call] (fun _ => ()) (Work.engine step) := by
  refine follows_call ?_
  rw [h, ← comp_map]
  exact id_map step

/-- Without the data for its next call, work comes to an end. -/
theorem follows_error (e : Failure) (rest : CallPlan ω) (read : EngineReply → β)
    (next : α → Work E ω β) :
    Follows behaviour (.error e :: rest) read (Attempt.ofExcept (.error e) >>= next) := by
  intro reply engine bench
  refine ⟨bench.log, ?_⟩
  rw [EngineBehaviour.follow_error]
  exact Attempt.bind_of_error rfl _

/-- Work after work follows the one plan and then the other. -/
theorem Follows.bind {plan rest : CallPlan ω} {read : EngineReply → α} {readNext : EngineReply → β}
    {first : Work E ω α} {next : α → Work E ω β} (hfirst : Follows behaviour plan read first)
    (hnext : ∀ a, Follows behaviour rest readNext (next a)) :
    Follows behaviour (plan ++ rest) readNext (first >>= next) := by
  intro reply engine bench
  obtain ⟨log, hwork⟩ := hfirst reply engine bench
  rw [EngineBehaviour.follow_append]
  cases hfollow : behaviour.follow plan reply (engine, bench.world) with
  | error e after =>
    rw [hfollow] at hwork
    exact ⟨log, by rw [Attempt.bind_of_error hwork, Attempt.bind_of_error hfollow]; rfl⟩
  | ok last after =>
    obtain ⟨engine, world⟩ := after
    rw [hfollow] at hwork
    obtain ⟨log, hlast⟩ := hnext (read last) last engine { bench with world, log }
    exact ⟨log, by rw [Attempt.bind_of_ok hwork, Attempt.bind_of_ok hfollow]; exact hlast⟩

/-- What is made of the value in the end takes no calls. -/
theorem Follows.map {plan : CallPlan ω} {read : EngineReply → α} {work : Work E ω α}
    (h : Follows behaviour plan read work) (f : α → β) :
    Follows behaviour plan (f ∘ read) (f <$> work) := by
  intro reply engine bench
  obtain ⟨log, hwork⟩ := h reply engine bench
  refine ⟨log, (Attempt.map_of_ofExcept hwork f).trans ?_⟩
  cases Attempt.outcome (behaviour.follow plan reply (engine, bench.world)) <;> rfl

theorem Follows.of_ok {plan : CallPlan ω} {read : EngineReply → α} {work : Work E ω α}
    (h : Follows behaviour plan read work) {reply last : EngineReply} {engine : E} {bench : Bench ω}
    {after : E × ω} (hfollow : behaviour.follow plan reply (engine, bench.world) = .ok last after) :
    ∃ log, work (engine, bench) = .ok (read last)
      (after.1, { bench with world := after.2, log }) := by
  obtain ⟨log, hwork⟩ := h reply engine bench
  rw [hfollow] at hwork
  exact ⟨log, hwork⟩

theorem Follows.of_error {plan : CallPlan ω} {read : EngineReply → α} {work : Work E ω α}
    (h : Follows behaviour plan read work) {reply : EngineReply} {engine : E} {bench : Bench ω}
    {e : Failure} {after : E × ω}
    (hfollow : behaviour.follow plan reply (engine, bench.world) = .error e after) :
    ∃ log, work (engine, bench) = .error e (after.1, { bench with world := after.2, log }) := by
  obtain ⟨log, hwork⟩ := h reply engine bench
  rw [hfollow] at hwork
  exact ⟨log, hwork⟩

/-- Feeding hands over one entry after the other. -/
theorem follows_feedFrom (behaviour : EngineBehaviour E ω) (transcript : Transcript) (index : Nat) :
    Follows behaviour transcript.plan (fun _ => index + transcript.length)
      (feedFrom behaviour index transcript) := by
  -- the index counts on while the transcript gets shorter
  induction transcript generalizing index with
  | nil => exact follows_pure index
  | cons entry rest ih =>
    rw [feedFrom, Transcript.plan, List.map_cons]
    cases entry.canonicalBytes with
    | error e => exact follows_error e _ _ _
    | ok bytes =>
      have hupdate : Follows behaviour [.ok (.update bytes)] (fun _ => ())
          (Work.engine (behaviour.update bytes)) := follows_done rfl
      have hrest := hupdate.bind fun _ =>
        (follows_note .trace (s!"  [{index}] - " ++ entry.label)).bind fun _ => ih (index + 1)
      rw [List.length_cons, Nat.add_comm rest.length 1, ← Nat.add_assoc]
      exact hrest

theorem follows_feed (behaviour : EngineBehaviour E ω) (transcript : Transcript) :
    Follows behaviour transcript.plan (fun _ => transcript.length) (feed behaviour transcript) := by
  have hfeed := follows_feedFrom behaviour transcript 0
  rw [Nat.zero_add] at hfeed
  exact hfeed

end

end Work

/-! ### Whole calls -/

namespace Workshop

variable (supplier : Supplier E ω) (pair : AlgorithmPair)

/-- What following a plan on the engine for an algorithm pair comes to, and the calls that
are made on that engine. -/
def ask (plan : CallPlan ω) (workshop : Workshop E ω) :
    Except Failure EngineReply × List (EngineCall ω) :=
  match pair.engineName? with
  | none => (.error (.noSuchAlgorithm pair.text), [])
  | some name =>
    match fetch supplier name workshop with
    | .error e _ => (.error e, [])
    | .ok engine (_, bench) =>
      (Attempt.outcome (supplier.behaviour.follow plan .done (engine, bench.world)),
        supplier.behaviour.made plan (engine, bench.world))

variable {supplier pair} {plan : CallPlan ω} {workshop : Workshop E ω} {name : Text}

end Workshop

end SignedHandshake
