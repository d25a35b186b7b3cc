import SignedHandshake.Proofs.CertificateVerify.AllOrNothing

/-!
# What a call logs (specification §10.2)

The log of a call tells exactly what was bound to the signature. **`Workshop.log_exact`** says line
by line what a call adds to the log, whatever engines, key factories and re-encoders it works with
and wherever it stops: one line if a re-encoder gave a key, one for each entry that the engine took,
and one for how the call ended, which a verifier that accepts leaves out.

How many entries are logged is counted on the engine alone (`EngineBehaviour.taken`),
with no look at the log.

Proof structure: `Work.Logs` says which lines a piece of work adds. Steps of the engine and of the
key factories add none, a note adds one, and work that goes on after a success adds its lines behind
those of the success. Feeding is an induction on the transcript (`Work.log_feedFrom`), which also
gives that whoever was fed everything counted everything.
-/

namespace SignedHandshake

variable {E ω α β : Type}

/-! ## What is counted and what is written -/

/-- How many entries an engine takes, one behind the other, until one of them
has no bytes or is refused. -/
def EngineBehaviour.taken (behaviour : EngineBehaviour E ω) : Transcript → E × ω → Nat
  | [], _ => 0
  | entry :: rest, state =>
    match entry.canonicalBytes with
    | .error _ => 0
    | .ok bytes =>
      match behaviour.update bytes state with
      | .error _ _ => 0
      | .ok _ after => behaviour.taken rest after + 1

namespace EngineBehaviour

variable {behaviour : EngineBehaviour E ω} {entry : TranscriptEntry} {rest : Transcript}
    {bytes : Bytes} {e : Failure} {state after : E × ω}

theorem taken_of_no_bytes (h : entry.canonicalBytes = .error e) :
    behaviour.taken (entry :: rest) state = 0 := by
  simp only [taken, h]

theorem taken_of_refused (hbytes : entry.canonicalBytes = .ok bytes)
    (h : behaviour.update bytes state = .error e after) :
    behaviour.taken (entry :: rest) state = 0 := by
  simp only [taken, hbytes, h]

theorem taken_of_accepted (hbytes : entry.canonicalBytes = .ok bytes)
    (h : behaviour.update bytes state = .ok () after) :
    behaviour.taken (entry :: rest) state = behaviour.taken rest after + 1 := by
  simp only [taken, hbytes, h]

/-- No engine takes more entries than there are. -/
theorem taken_le (behaviour : EngineBehaviour E ω) (transcript : Transcript) (state : E × ω) :
    behaviour.taken transcript state ≤ transcript.length := by
  induction transcript generalizing state with
  | nil => exact Nat.le_refl 0
  | cons entry rest ih =>
    -- an entry without bytes ends the feeding, like one that is refused
    cases hbytes : entry.canonicalBytes with
    | error e =>
      rw [taken_of_no_bytes hbytes]
      exact Nat.zero_le _
    | ok bytes =>
      cases hupdate : behaviour.update bytes state with
      | error e after =>
        rw [taken_of_refused hbytes hupdate]
        exact Nat.zero_le _
      | ok _ after =>
        rw [taken_of_accepted hbytes hupdate]
        exact Nat.succ_le_succ (ih after)

end EngineBehaviour

/-- The lines about entries, which are numbered from `index`. An entry without a
label is called an entry. -/
def Transcript.linesFrom (index : Nat) (transcript : Transcript) : List LogLine :=
  (transcript.zipIdx index).map fun (entry, index) =>
    ⟨.trace, s!"  [{index}] - " ++ entry.label?.getD "entry"⟩

/-- The lines about the entries of a transcript. -/
def Transcript.lines (transcript : Transcript) : List LogLine :=
  transcript.linesFrom 0

theorem Transcript.linesFrom_cons (index : Nat) (entry : TranscriptEntry) (rest : Transcript) :
    linesFrom index (entry :: rest) =
      ⟨.trace, s!"  [{index}] - " ++ entry.label⟩ :: linesFrom (index + 1) rest := by
  rw [linesFrom, List.zipIdx_cons, List.map_cons]
  rfl

namespace Workshop

variable (supplier : Supplier E ω) (pair : AlgorithmPair) (workshop : Workshop E ω)

/-- The engine that a call for this pair works on, and the bench it works at; there is none
if the pair has no engine. -/
def reached? : Option (E × Bench ω) :=
  match pair.engineName? with
  | none => none
  | some name =>
    match fetch supplier name workshop with
    | .error _ _ => none
    | .ok engine (_, bench) => some (engine, bench)

end Workshop

namespace Work

/-- How many entries work binds that gets its engine ready with `prepare` and feeds it then. -/
def bound (behaviour : EngineBehaviour E ω) (prepare : Work E ω Unit) (transcript : Transcript)
    (start : E × Bench ω) : Nat :=
  match prepare start with
  | .error _ _ => 0
  | .ok _ (engine, bench) => behaviour.taken transcript (engine, bench.world)

end Work

/-- How many entries a call binds. -/
def Workshop.bound (supplier : Supplier E ω) (pair : AlgorithmPair) (prepare : Work E ω Unit)
    (transcript : Transcript) (workshop : Workshop E ω) : Nat :=
  (workshop.reached? supplier pair).elim 0 (Work.bound supplier.behaviour prepare transcript)

namespace Signer

variable (signer : Signer E ω) (key : Key)

/-- The key that a re-encoder gives for a key that the engine refuses, and the
engine at that time. -/
def replaced? (start : E × Bench ω) : Option (Key × E) :=
  match Work.engine (signer.supplier.behaviour.initSign key signer.config.random) start with
  | .ok _ _ => none
  | .error refusal between =>
    if refusal.kind = .invalidKey ∧ signer.config.keyReencoding = true then
      match Work.factories (signer.config.reencoders.reencode signer.supplier.makeFactory key)
        between with
      | .ok (some replaced) (engine, _) => some (replaced, engine)
      | _ => none
    else none

/-- The lines about a key that took the place of another, if one did: they name
both keys and the engine. -/
def opening (start : E × Bench ω) : List LogLine :=
  (signer.replaced? key start).toList.map fun (replaced, engine) =>
    ⟨.debug,
      "Re-encoded " ++ key.algorithm ++ " private key as " ++ replaced.algorithm ++ " for " ++
      signer.supplier.behaviour.algorithm engine⟩

end Signer

/-! ## Lines of pieces of work -/

namespace Work

/-- From this start, the work adds these lines to the log, however it ends. -/
def Logs (work : Work E ω α) (start : E × Bench ω) (lines : List LogLine) : Prop :=
  (Attempt.left (work start)).2.log = start.2.log ++ lines

section

variable {work : Work E ω α} {start after : E × Bench ω} {lines : List LogLine}

theorem Logs.of_ofExcept (h : Logs work start lines) {ending : Except Failure α}
    (hresult : work start = Attempt.ofExcept ending after) :
    after.2.log = start.2.log ++ lines := by
  rw [Logs, hresult, Attempt.left_ofExcept] at h
  exact h

theorem Logs.of_ok (h : Logs work start lines) {a : α} (hresult : work start = .ok a after) :
    after.2.log = start.2.log ++ lines := by
  rw [Logs, hresult] at h
  exact h

theorem Logs.of_error (h : Logs work start lines) {e : Failure}
    (hresult : work start = .error e after) :
    after.2.log = start.2.log ++ lines := by
  rw [Logs, hresult] at h
  exact h

end

theorem logs_engine (step : Attempt (E × ω) α) (start : E × Bench ω) :
    Logs (engine step) start [] := by
  obtain ⟨engine, bench⟩ := start
  unfold Logs Work.engine
  rw [Attempt.left_onPart, List.append_nil]

theorem logs_factories (step : Attempt (NameMap (KeyFactory ω) × ω) α) (start : E × Bench ω) :
    Logs (factories step) start [] := by
  obtain ⟨engine, bench⟩ := start
  unfold Logs Work.factories
  rw [Attempt.left_onPart, List.append_nil]

/-! ## Entry by entry -/

section

variable {behaviour : EngineBehaviour E ω} {index : Nat} {entry : TranscriptEntry}
    {rest : Transcript}
  {bytes : Bytes} {engine next : E} {bench : Bench ω} {world : ω} {e : Failure}

theorem feedFrom_of_no_bytes (h : entry.canonicalBytes = .error e) :
    feedFrom behaviour index (entry :: rest) (engine, bench) = .error e (engine, bench) := by
  rw [feedFrom, h]
  rfl

theorem feedFrom_of_refused (hbytes : entry.canonicalBytes = .ok bytes)
    (h : behaviour.update bytes (engine, bench.world) = .error e (next, world)) :
    feedFrom behaviour index (entry :: rest)
      (engine, bench) = .error e (next, { bench with world }) := by
  have hbound : (Attempt.ofExcept entry.canonicalBytes : Work E ω Bytes) = pure bytes := by
    rw [hbytes]
    rfl
  have hstep : Work.engine (behaviour.update bytes)
      (engine, bench) = .error e (next, { bench with world }) :=
    Attempt.onPart_of_error h _
  rw [feedFrom, hbound, pure_bind, Attempt.bind_of_error hstep]

theorem feedFrom_of_accepted (hbytes : entry.canonicalBytes = .ok bytes)
    (h : behaviour.update bytes (engine, bench.world) = .ok () (next, world)) :
    feedFrom behaviour index (entry :: rest) (engine, bench) =
      feedFrom behaviour (index + 1) rest
        (next, ({ bench with world } : Bench ω).note .trace
          (s!"  [{index}] - " ++ entry.label)) := by
  have hbound : (Attempt.ofExcept entry.canonicalBytes : Work E ω Bytes) = pure bytes := by
    rw [hbytes]
    rfl
  have hstep : Work.engine (behaviour.update bytes) (engine, bench) = .ok ()
      (next, { bench with world }) :=
    Attempt.onPart_of_ok h _
  rw [feedFrom, hbound, pure_bind, Attempt.bind_of_ok hstep]
  rfl

end

/-- Feeding logs the entries that the engine takes, and comes to an end with their
number if it takes them all. -/
theorem log_feedFrom (behaviour : EngineBehaviour E ω) (transcript : Transcript) (index : Nat)
    (engine : E) (bench : Bench ω) :
    Logs (feedFrom behaviour index transcript) (engine, bench)
        (Transcript.linesFrom index
          (transcript.take (behaviour.taken transcript (engine, bench.world)))) ∧
      ∀ count, Attempt.outcome (feedFrom behaviour index transcript (engine, bench)) = .ok count →
        behaviour.taken transcript (engine, bench.world) = transcript.length ∧
          count = index + transcript.length := by
  unfold Logs
  -- engine, bench and number go on changing from entry to entry
  induction transcript generalizing index engine bench with
  | nil =>
    refine ⟨(List.append_nil _).symm, ?_⟩
    rintro count ⟨⟩
    exact ⟨rfl, rfl⟩
  | cons entry rest ih =>
    cases hbytes : entry.canonicalBytes with
    | error e =>
      rw [feedFrom_of_no_bytes hbytes, EngineBehaviour.taken_of_no_bytes hbytes]
      exact ⟨(List.append_nil _).symm, nofun⟩
    | ok bytes =>
      cases hupdate : behaviour.update bytes (engine, bench.world) with
      | error e after =>
        rw [feedFrom_of_refused hbytes hupdate, EngineBehaviour.taken_of_refused hbytes hupdate]
        exact ⟨(List.append_nil _).symm, nofun⟩
      | ok _ after =>
        obtain ⟨next, world⟩ := after
        obtain ⟨hlog, hcount⟩ := ih (index + 1) next
          (({ bench with world } : Bench ω).note .trace (s!"  [{index}] - " ++ entry.label))
        rw [feedFrom_of_accepted hbytes hupdate, EngineBehaviour.taken_of_accepted hbytes hupdate,
          List.take_succ_cons, Transcript.linesFrom_cons]
        constructor
        · rw [hlog]
          exact List.append_assoc ..
        · intro count h
          obtain ⟨htaken, hcount⟩ := hcount count h
          rw [List.length_cons, hcount]
          exact ⟨congrArg (· + 1) htaken, by omega⟩

end Work

/-! ## Lines of calls -/

section

variable {prepare : Work E ω Unit} {opening : E × Bench ω → List LogLine}

/-- Work that prepares its engine and feeds it either breaks off, or the engine took everything and
the rest of the work goes on from there. What was logged until then is the same. -/
theorem Work.log_of_feeding {start : E × Bench ω} {lines : List LogLine}
    (hprepare : Logs prepare start lines)
    (behaviour : EngineBehaviour E ω) (transcript : Transcript) (rest : Nat → Work E ω α) :
    let work := prepare >>= fun _ => feed behaviour transcript >>= rest
    let bound := Work.bound behaviour prepare transcript start
    let log := start.2.log ++ lines ++ Transcript.lines (transcript.take bound)
    (∃ e after, work start = .error e after ∧ after.2.log = log) ∨
      ∃ fed, bound = transcript.length ∧ fed.2.log = log ∧ work start = rest bound fed := by
  intro work bound log
  cases hready : prepare start with
  | error e after =>
    -- nothing was fed, so there are no lines of entries
    have hbound : bound = 0 := by
      show Work.bound behaviour prepare transcript start = 0
      rw [Work.bound, hready]
    refine .inl ⟨e, after, Attempt.bind_of_error hready _, ?_⟩
    show after.2.log = start.2.log ++ lines ++ Transcript.lines (transcript.take bound)
    rw [hprepare.of_error hready, hbound]
    exact (List.append_nil _).symm
  | ok _ ready =>
    obtain ⟨engine, bench⟩ := ready
    -- the feeding logs a line for each entry that was taken
    obtain ⟨hlog, hcount⟩ := log_feedFrom behaviour transcript 0 engine bench
    have hbound : bound = behaviour.taken transcript (engine, bench.world) := by
      show Work.bound behaviour prepare transcript start = _
      rw [Work.bound, hready]
    have hwork : work start = (feed behaviour transcript >>= rest) (engine, bench) :=
      Attempt.bind_of_ok hready _
    have hbench : bench.log = start.2.log ++ lines := hprepare.of_ok hready
    have hlines : log = bench.log ++ Transcript.linesFrom 0
        (transcript.take (behaviour.taken transcript (engine, bench.world))) := by
      rw [hbench, ← hbound]
      rfl
    rw [hwork, hlines]
    cases hfeed : feed behaviour transcript (engine, bench) with
    | error e after => exact .inl ⟨e, after, Attempt.bind_of_error hfeed _, hlog.of_error hfeed⟩
    | ok count fed =>
      have hfed : feedFrom behaviour 0 transcript (engine, bench) = .ok count fed := hfeed
      rw [hfed] at hcount
      obtain ⟨htaken, hcount⟩ := hcount count rfl
      rw [← hbound] at htaken
      refine .inr ⟨fed, htaken, hlog.of_ok hfed, ?_⟩
      rw [Attempt.bind_of_ok hfeed, hcount, Nat.zero_add, htaken]

/-- The same of a call: it breaks off, or its engine took everything. -/
theorem Workshop.log_of_feeding (supplier : Supplier E ω)
    (hprepare : ∀ start, Work.Logs prepare start (opening start)) (pair : AlgorithmPair)
    (transcript : Transcript) (rest : Text → Nat → Work E ω α) (workshop : Workshop E ω) :
    let work name := prepare >>= fun _ => Work.feed supplier.behaviour transcript >>= rest name
    let bound := workshop.bound supplier pair prepare transcript
    let log := workshop.2.log ++ (workshop.reached? supplier pair).elim [] opening ++
      Transcript.lines (transcript.take bound)
    (∃ e after, withEngineFor supplier pair work workshop = .error e after ∧ after.2.log = log) ∨
      ∃ name, ∃ engines : NameMap E, ∃ fed, pair.engineName? = some name ∧
        bound = transcript.length ∧
        fed.2.log = log ∧ withEngineFor supplier pair work workshop =
          (rest name bound).onPart fed fun (engine, bench) =>
              (engines.insert name engine, bench) := by
  intro work bound log
  -- without an engine nothing was opened and nothing was fed
  have hnothing (h : workshop.reached? supplier pair = none) : log = workshop.2.log := by
    show workshop.2.log ++ (workshop.reached? supplier pair).elim [] opening ++
      Transcript.lines (transcript.take (workshop.bound supplier pair prepare transcript)) = _
    rw [Workshop.bound, h, Option.elim_none, Option.elim_none, List.append_nil]
    exact List.append_nil _
  cases hname : pair.engineName? with
  | none =>
    have hreached : workshop.reached? supplier pair = none := by
      rw [reached?, hname]
    exact .inl ⟨_, workshop, withEngineFor_of_no_name hname _, (hnothing hreached).symm⟩
  | some name =>
    -- making an engine logs nothing
    have hlog : (Attempt.left (fetch supplier name workshop)).2.log = workshop.2.log := by
      obtain ⟨world, hbench⟩ := exists_world_fetch supplier name workshop
      rw [hbench]
    cases hfetch : fetch supplier name workshop with
    | error e after =>
      have hreached : workshop.reached? supplier pair = none := by
        simp only [reached?, hname, hfetch]
      rw [hfetch] at hlog
      refine .inl ⟨e, after, withEngineFor_of_no_engine hname hfetch _, ?_⟩
      exact hlog.trans (hnothing hreached).symm
    | ok engine fetched =>
      obtain ⟨engines, bench⟩ := fetched
      have hreached : workshop.reached? supplier pair = some (engine, bench) := by
        simp only [reached?, hname, hfetch]
      rw [hfetch] at hlog
      have hbench : bench.log = workshop.2.log := hlog
      have hbound : bound = Work.bound supplier.behaviour prepare transcript (engine, bench) := by
        show workshop.bound supplier pair prepare transcript = _
        rw [Workshop.bound, hreached, Option.elim_some]
      have hlines :
          log = bench.log ++ opening (engine, bench) ++
          Transcript.lines (transcript.take bound) := by
        show workshop.2.log ++ (workshop.reached? supplier pair).elim [] opening ++ _ = _
        rw [hreached, Option.elim_some, hbench]
      have hcall : withEngineFor supplier pair work workshop = _ :=
        withEngineFor_of_engine hname hfetch work
      have hwork := Work.log_of_feeding (hprepare (engine, bench)) supplier.behaviour transcript
        (rest name)
      rw [hlines, hcall, hbound]
      rcases hwork with ⟨e, after, hended, hafter⟩ | ⟨fed, hall, hfed, hended⟩
      · exact .inl ⟨e, _, Attempt.onPart_of_error hended _, hafter⟩
      · exact .inr ⟨name, engines, fed, rfl, hall, hfed, Attempt.onPart_congr hended _⟩

end

/-! ## Lines of a signer -/

namespace Signer

variable (signer : Signer E ω) (key : Key)

/-- Getting ready is mentioned only if another key was obtained on the way. -/
theorem logs_init (start : E × Bench ω) :
    Work.Logs (signer.init key) start (signer.opening key start) := by
  have htried (key : Key) (start : E × Bench ω) : Work.Logs
      (Work.engine (signer.supplier.behaviour.initSign key signer.config.random)) start [] :=
    Work.logs_engine _ start
  have hasked (between : E × Bench ω) : Work.Logs (Work.factories
      (signer.config.reencoders.reencode signer.supplier.makeFactory key)) between [] :=
    Work.logs_factories _ between
  obtain ⟨ending, after, hreadies⟩ := exists_readies signer key start
  unfold Work.Logs opening replaced?
  rw [init_of_readies hreadies, Attempt.left_ofExcept]
  cases hreadies with
  | accepted hfirst =>
    simp only [hfirst]
    exact (htried key start).of_ok hfirst
  | refused hfirst hfinal =>
    simp only [hfirst, if_neg hfinal]
    exact (htried key start).of_error hfirst
  | noReencoder hfirst hretried hreencode =>
    simp only [hfirst, if_pos hretried, hreencode]
    rw [(hasked _).of_ok hreencode, (htried key start).of_error hfirst, List.append_nil]
    rfl
  | notReencoded hfirst hretried hreencode =>
    simp only [hfirst, if_pos hretried, hreencode]
    rw [(hasked _).of_error hreencode, (htried key start).of_error hfirst, List.append_nil]
    rfl
  | reencoded hfirst hretried hreencode hsecond =>
    simp only [hfirst, if_pos hretried, hreencode]
    -- the line comes before the second try, which adds none
    have hbench := (hasked _).of_ok hreencode
    rw [(htried key start).of_error hfirst, List.append_nil, List.append_nil] at hbench
    rw [(htried _ _).of_ofExcept hsecond, List.append_nil]
    exact congrArg (· ++ _) hbench

/-- What is logged behind the entries: how many there were, if they were signed. -/
def closing (name : Text) (count : Nat) : Except Failure Bytes → List LogLine
  | .ok _ => [⟨.debug, s!"Signed {count} handshake messages with " ++ name⟩]
  | .error _ => []

/-- Have the engine called `name` sign what it was fed. -/
def conclude (peer : Option Peer) (name : Text) (count : Nat) : Work E ω Bytes := do
  let signature ← Work.engine signer.supplier.behaviour.sign
  if signature.length > RangeError.maxSignatureLength then
    throw (oversized name signature.length peer)
  Work.note .debug (s!"Signed {count} handshake messages with " ++ name)
  return signature

theorem logs_conclude (peer : Option Peer) (name : Text) (count : Nat) (start : E × Bench ω) :
    Work.Logs (signer.conclude peer name count) start
      (closing name count (Attempt.outcome (signer.conclude peer name count start))) := by
  have hquiet := Work.logs_engine signer.supplier.behaviour.sign start
  unfold Work.Logs conclude
  cases hsign : Work.engine signer.supplier.behaviour.sign start with
  | error e after =>
    rw [Attempt.bind_of_error hsign]
    exact hquiet.of_error hsign
  | ok signature after =>
    have hafter := hquiet.of_ok hsign
    rw [Attempt.bind_of_ok hsign]
    -- the line about the signature comes only if it fits
    by_cases hlength : signature.length > RangeError.maxSignatureLength
    · rw [if_pos hlength]
      exact hafter
    · rw [if_neg hlength]
      exact congrArg (· ++ _) (hafter.trans (List.append_nil _))

end Signer

/-! ## Calls -/

/-- No call binds more entries than there are. -/
theorem Workshop.bound_le (supplier : Supplier E ω) (pair : AlgorithmPair) (prepare : Work E ω Unit)
    (transcript : Transcript) (workshop : Workshop E ω) :
    workshop.bound supplier pair prepare transcript ≤ transcript.length := by
  unfold bound Work.bound
  cases workshop.reached? supplier pair with
  | none => exact Nat.zero_le _
  | some start =>
    rw [Option.elim_some]
    cases prepare start with
    | error e after => exact Nat.zero_le _
    | ok _ ready => exact EngineBehaviour.taken_le ..

/-- What signing logs: the opening, the entries that are bound, and one line for the end. -/
theorem Signer.log_sign (signer : Signer E ω) (key : Key) (pair : AlgorithmPair)
    (transcript : Transcript) (peer : Option Peer) (workshop : Workshop E ω) :
    let signed := signer.sign key pair transcript peer workshop
    let bound := workshop.bound signer.supplier pair (signer.init key) transcript
    ∃ last, signed.2.2.log = workshop.2.log ++
        (workshop.reached? signer.supplier pair).elim [] (signer.opening key) ++
        Transcript.lines (transcript.take bound) ++ [last] ∧
      match signed.1 with
      | .ok _ => bound = transcript.length ∧ ∃ name, pair.engineName? = some name ∧
          last = ⟨.debug, s!"Signed {bound} handshake messages with " ++ name⟩
      | .error failed => last = ⟨.error, failed.message⟩ := by
  intro signed bound
  -- whatever fails, the failure is put into words and logged behind what was logged until then
  have hfailed {e : Failure} {after : Workshop E ω}
      (h : Workshop.withEngineFor signer.supplier pair (signer.work key transcript peer) workshop =
        .error e after) :
      signed = (.error (failure key pair peer e),
        after.note .error (failure key pair peer e).message) := by
    show signer.sign key pair transcript peer workshop = _
    rw [sign, h]
  rcases Workshop.log_of_feeding signer.supplier (signer.logs_init key) pair transcript
    (signer.conclude peer) workshop with
    ⟨e, after, hended, hlog⟩ | ⟨name, engines, fed, hname, hall, hlog, hended⟩
  · rw [hfailed hended]
    exact ⟨_, congrArg (· ++ _) hlog, rfl⟩
  · have hclosing := signer.logs_conclude peer name bound fed
    cases hconclude : signer.conclude peer name bound fed with
    | error e after =>
      rw [hconclude] at hclosing
      have hbroken := hended.trans (Attempt.onPart_of_error hconclude _)
      rw [hfailed hbroken]
      have hsame := (hclosing.of_error hconclude).trans (List.append_nil _)
      exact ⟨_, congrArg (· ++ _) (hsame.trans hlog), rfl⟩
    | ok signature after =>
      rw [hconclude] at hclosing
      have hcall :
          Workshop.withEngineFor signer.supplier pair (signer.work key transcript peer) workshop =
          .ok signature (engines.insert name after.1, after.2) :=
        hended.trans (Attempt.onPart_of_ok hconclude _)
      have hsigned : signed = (.ok signature, (engines.insert name after.1, after.2)) := by
        show signer.sign key pair transcript peer workshop = _
        rw [sign, hcall]
      rw [hsigned]
      exact ⟨_, (hclosing.of_ok hconclude).trans (congrArg (· ++ _) hlog), hall, name, hname, rfl⟩

/-- The host and the port of an address; a host with a colon in it stands in brackets. -/
theorem Peer.textOf_eq (peer : Option Peer) :
    let address (peer : Peer) : Text :=
      (if ':' ∈ peer.host.chars then "[" ++ peer.host ++ "]" else peer.host) ++ s!":{peer.port}"
    Peer.textOf peer = (peer.map address).getD "<unknown peer>" := by
  intro address
  cases peer with
  | none => rfl
  | some peer =>
    simp only [textOf, text, address, List.contains_iff_mem, Option.map_some, Option.getD_some]

/-- What verifying logs: the entries that are bound, and one line if the signature is rejected. -/
theorem Verifier.log_verify (verifier : Verifier E ω) (key : Key) (pair : AlgorithmPair)
    (signature : Bytes) (transcript : Transcript) (peer : Option Peer) (workshop : Workshop E ω) :
    let verified := verifier.verify key pair signature transcript peer workshop
    let bound := workshop.bound verifier.supplier pair
      (Work.engine (verifier.supplier.behaviour.initVerify key)) transcript
    ∃ last, verified.2.2.log = workshop.2.log ++ Transcript.lines (transcript.take bound) ++ last ∧
      match verified.1 with
      | .ok _ => bound = transcript.length ∧ last = []
      | .error failed => ∃ cause : Option Failure,
          let reason := (cause.map Failure.message).getD "signature mismatch"
          failed = .mk (.authentication peer)
              ("The peer's CertificateVerify message could not be verified: " ++ reason) cause ∧
            last = [⟨.error,
              "Could not verify the signature of " ++ Peer.textOf peer ++ ": " ++ reason⟩] := by
  intro verified bound
  have hwork : (fun _ : Text => verifier.work key signature transcript) = fun _ =>
      Work.engine (verifier.supplier.behaviour.initVerify key) >>= fun _ =>
        Work.feed verifier.supplier.behaviour transcript >>= fun _ =>
          Work.engine (verifier.supplier.behaviour.verify signature) := by
    funext _
    exact congrArg (Work.engine (verifier.supplier.behaviour.initVerify key) >>= ·)
      (funext fun _ => Attempt.discard_bind _ _)
  have hsilent : (workshop.reached? verifier.supplier pair).elim []
      (fun _ => []) = ([] : List LogLine) := by
    cases workshop.reached? verifier.supplier pair <;> rfl
  have hready (start : E × Bench ω) :
      Work.Logs (Work.engine (verifier.supplier.behaviour.initVerify key))
      start ((fun _ => []) start) := Work.logs_engine _ start
  have hcall := Workshop.log_of_feeding verifier.supplier hready pair transcript
    (fun _ _ => Work.engine (verifier.supplier.behaviour.verify signature)) workshop
  rw [← hwork, hsilent, List.append_nil] at hcall
  -- whatever is wrong, the verifier rejects with one more line
  have hrejected {e : Failure} {after : Workshop E ω}
      (h : Workshop.withEngineFor verifier.supplier pair
        (fun _ => verifier.work key signature transcript) workshop = .error e after) :
      verified = reject peer (.ofFailure e) after := by
    show verifier.verify key pair signature transcript peer workshop = _
    simp only [verify, h]
  rcases hcall with ⟨e, after, hended, hlog⟩ | ⟨name, engines, fed, -, hall, hlog, hended⟩
  · rw [hrejected hended]
    exact ⟨_, congrArg (· ++ _) hlog, some e, rfl, rfl⟩
  · have hquiet := Work.logs_engine (verifier.supplier.behaviour.verify signature) fed
    cases hanswer : Work.engine (verifier.supplier.behaviour.verify signature) fed with
    | error e after =>
      have hlast := (hquiet.of_error hanswer).trans (List.append_nil _)
      rw [hrejected (hended.trans (Attempt.onPart_of_error hanswer _))]
      exact ⟨_, congrArg (· ++ _) (hlast.trans hlog), some e, rfl, rfl⟩
    | ok valid after =>
      have hlast := (hquiet.of_ok hanswer).trans (List.append_nil _)
      have hanswered := hended.trans (Attempt.onPart_of_ok hanswer _)
      cases valid with
      | true =>
        have haccepted : verified = (.ok (), (engines.insert name after.1, after.2)) := by
          show verifier.verify key pair signature transcript peer workshop = _
          simp only [verify, hanswered]
        rw [haccepted]
        exact ⟨[], (hlast.trans hlog).trans (List.append_nil _).symm, hall, rfl⟩
      | false =>
        have hmismatch :
            verified = reject peer .mismatch (engines.insert name after.1, after.2) := by
          show verifier.verify key pair signature transcript peer workshop = _
          simp only [verify, hanswered]
        rw [hmismatch]
        exact ⟨_, congrArg (· ++ _) (hlast.trans hlog), none, rfl, rfl⟩

/-- **The log of a call tells exactly what was bound.** Whatever engines, key factories and
re-encoders there are, signing adds these lines to the log and no others: one about re-encoding if a
re-encoder gave a key; one for each of the first entries, as many as the engine took; and one for
the end, which states that these are all entries if there is a signature and is the message of the
failure otherwise. Verifying adds the lines about entries, and one more if the signature is
rejected: it names the peer by host and port, and gives the reason that is in the failure, which is
what was raised, or that the signature does not match if nothing was. -/
theorem Workshop.log_exact (signer : Signer E ω) (verifier : Verifier E ω) (key : Key)
    (pair : AlgorithmPair)
    (signature : Bytes) (transcript : Transcript) (peer : Option Peer) (workshop : Workshop E ω) :
    (let signed := signer.sign key pair transcript peer workshop
      let bound := workshop.bound signer.supplier pair (signer.init key) transcript
      bound ≤ transcript.length ∧
      ∃ last, signed.2.2.log = workshop.2.log ++
          (workshop.reached? signer.supplier pair).elim [] (signer.opening key) ++
          Transcript.lines (transcript.take bound) ++ [last] ∧
        match signed.1 with
        | .ok _ => bound = transcript.length ∧ ∃ name, pair.engineName? = some name ∧
            last = ⟨.debug, s!"Signed {bound} handshake messages with " ++ name⟩
        | .error failed => last = ⟨.error, failed.message⟩) ∧
    (let verified := verifier.verify key pair signature transcript peer workshop
      let bound := workshop.bound verifier.supplier pair
        (Work.engine (verifier.supplier.behaviour.initVerify key)) transcript
      bound ≤ transcript.length ∧
      ∃ last,
        verified.2.2.log = workshop.2.log ++ Transcript.lines (transcript.take bound) ++ last ∧
        match verified.1 with
        | .ok _ => bound = transcript.length ∧ last = []
        | .error failed => ∃ cause : Option Failure,
            let reason := (cause.map Failure.message).getD "signature mismatch"
            let address (peer : Peer) : Text :=
              (if ':' ∈ peer.host.chars then "[" ++ peer.host ++ "]" else peer.host) ++
                s!":{peer.port}"
            failed = .mk (.authentication peer)
                ("The peer's CertificateVerify message could not be verified: " ++ reason) cause ∧
              last = [⟨.error, "Could not verify the signature of " ++
                (peer.map address).getD "<unknown peer>" ++ ": " ++ reason⟩]) := by
  have hverified := verifier.log_verify key pair signature transcript peer workshop
  rw [Peer.textOf_eq] at hverified
  exact ⟨⟨bound_le .., signer.log_sign key pair transcript peer workshop⟩, bound_le .., hverified⟩

end SignedHandshake
