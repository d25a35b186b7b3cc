import SignedHandshake.Proofs.CertificateVerify.Lengths
import SignedHandshake.Proofs.CertificateVerify.Outcomes
import SignedHandshake.Proofs.Workshop.Addresses
import SignedHandshake.Scheme.Standard

/-!
# Addresses only route (specification §6)

Two runs in which nothing but the addresses of peers differs come to the same, wherever the
addresses come in: with the messages of the transcript, with those that are made or received, or
with what is asked of a signer or a verifier (**`Exchange.addresses_only_route`**). What may differ
is to whom a message or an alert goes and what the line about a rejection calls the peer.

Proof structure: an `Exchange` is all that such a run works on, and an `Exchange.Act` is one thing
that is done in it. Acts that are readdressed, done in exchanges that are readdressed, get replies
that are readdressed and lead to such exchanges again (`Exchange.perform_readdressed`, one case for
each act), and so by induction do runs of them (`Exchange.run_readdressed`).
-/

namespace SignedHandshake

/-- A session and the workshop in which its messages are signed and verified. -/
structure Exchange (E ω : Type) where
  session : Session
  workshop : Workshop E ω

namespace Exchange

variable {E ω : Type}

/-! ## What is done -/

/-- One thing that is done in an exchange. Transcripts are always the one of the session so far. -/
inductive Act (ω : Type) where
  /-- An entry comes into the transcript. -/
  | add (entry : SessionEntry)
  /-- The message behind an entry gets a sequence number. -/
  | setSequence (index : Nat) (n : Number)
  | sign (config : Config ω) (key : Key) (pair : AlgorithmPair) (peer : Option Peer)
  /-- A message is made around a new signature, and kept. -/
  | create (config : Config ω) (key : Key) (pair : AlgorithmPair) (peer : Option Peer)
  | verify (key : Key) (pair : AlgorithmPair) (signature : Bytes) (peer : Option Peer)
  /-- The signature of a message that was kept is checked. -/
  | check (key : Key) (index : Nat)
  /-- A message is received as a whole, and kept. -/
  | decode (bytes : Bytes) (peer : Option Peer)
  /-- A message is read off a reader, and kept. -/
  | read (reader : Wire.Reader) (peer : Option Peer)

/-- What comes of it. -/
inductive Reply where
  | done
  | refused (e : RangeError)
  | signed (result : Except Failure Bytes)
  | created (result : Except RangeError (Except Failure CertificateVerify))
  | verified (result : Except Failure Unit)
  | decoded (result : Except Failure CertificateVerify)
  | read (result : Except Failure CertificateVerify) (rest : Wire.Reader)

/-- The alert that goes out with a reply, if there is one. -/
def Reply.alert? : Reply → Option Alert
  | signed (.error e) | created (.ok (.error e)) | verified (.error e) | decoded (.error e)
  | read (.error e) _ => e.alert?
  | _ => none

/-- Keep a message if there is one. -/
def keep {ε : Type} (exchange : Exchange E ω) : Except ε CertificateVerify → Exchange E ω
  | .ok message => { exchange with session := exchange.session.keep message }
  | .error _ => exchange

/-- Do one thing. -/
def perform (supplier : Supplier E ω) (exchange : Exchange E ω) : Act ω → Reply × Exchange E ω
  | .add entry => (.done, { exchange with session := exchange.session.add entry })
  | .setSequence index n =>
    match exchange.session.setSequence? index n with
    | none => (.done, exchange)
    | some (.error e) => (.refused e, exchange)
    | some (.ok session) => (.done, { exchange with session })
  | .sign config key pair peer =>
    let (result, workshop) :=
      (Signer.mk supplier config).sign key pair exchange.session.transcript peer exchange.workshop
    (.signed result, { exchange with workshop })
  | .create config key pair peer =>
    let (result, workshop) := CertificateVerify.create (Signer.mk supplier config).sign key pair
      exchange.session.transcript peer exchange.workshop
    let exchange := { exchange with workshop }
    match result with
    | .ok made => (.created result, exchange.keep made)
    | .error _ => (.created result, exchange)
  | .verify key pair signature peer =>
    let (result, workshop) :=
      (Verifier.mk supplier).verify key pair signature exchange.session.transcript
      peer exchange.workshop
    (.verified result, { exchange with workshop })
  | .check key index =>
    match exchange.session.messages[index]? with
    | none => (.done, exchange)
    | some message =>
      let (result, workshop) :=
        message.verify (Verifier.mk supplier) key exchange.session.transcript exchange.workshop
      (.verified result, { exchange with workshop })
  | .decode bytes peer =>
    let result := CertificateVerify.decode bytes peer
    (.decoded result, exchange.keep result)
  | .read reader peer =>
    let result := CertificateVerify.read peer reader
    (.read (Attempt.outcome result) (Attempt.left result), exchange.keep (Attempt.outcome result))

/-- Do one thing after the other: all replies, and the exchange at the end. -/
def run (supplier : Supplier E ω) : List (Act ω) → Exchange E ω → List Reply × Exchange E ω
  | [], exchange => ([], exchange)
  | act :: rest, exchange =>
    let (reply, exchange) := exchange.perform supplier act
    let (replies, last) := run supplier rest exchange
    (reply :: replies, last)

/-! ## What may differ -/

/-- The same session and the same workshop, but for addresses. -/
protected structure Readdressed (one other : Exchange E ω) : Prop where
  session : one.session.Readdressed other.session
  workshop : one.workshop.Readdressed other.workshop

/-- The same is done, with other addresses. -/
inductive Act.Readdressed : Act ω → Act ω → Prop where
  | add {one other : SessionEntry} (h : one.Readdressed other) : Readdressed (.add one) (.add other)
  | setSequence (index : Nat) (n : Number) : Readdressed (.setSequence index n)
      (.setSequence index n)
  | sign (config : Config ω) (key : Key) (pair : AlgorithmPair) (peer other : Option Peer) :
    Readdressed (.sign config key pair peer) (.sign config key pair other)
  | create (config : Config ω) (key : Key) (pair : AlgorithmPair) (peer other : Option Peer) :
    Readdressed (.create config key pair peer) (.create config key pair other)
  | verify (key : Key) (pair : AlgorithmPair) (signature : Bytes) (peer other : Option Peer) :
    Readdressed (.verify key pair signature peer) (.verify key pair signature other)
  | check (key : Key) (index : Nat) : Readdressed (.check key index) (.check key index)
  | decode (bytes : Bytes) (peer other : Option Peer) : Readdressed (.decode bytes peer)
      (.decode bytes other)
  | read {one another : Wire.Reader} (h : one.Readdressed another) (peer other : Option Peer) :
    Readdressed (.read one peer) (.read another other)

/-- The same comes of it: signatures, verdicts and refusals are equal, messages, readers and
failures are readdressed. -/
inductive Reply.Readdressed : Reply → Reply → Prop where
  | done : Readdressed .done .done
  | refused (e : RangeError) : Readdressed (.refused e) (.refused e)
  | signed {one other : Except Failure Bytes} (h : ExceptRel Failure.Readdressed Eq one other) :
    Readdressed (.signed one) (.signed other)
  | created {one other : Except RangeError (Except Failure CertificateVerify)}
    (h : ExceptRel Eq (ExceptRel Failure.Readdressed CertificateVerify.Readdressed) one other) :
    Readdressed (.created one) (.created other)
  | verified {one other : Except Failure Unit} (h : ExceptRel Failure.Readdressed Eq one other) :
    Readdressed (.verified one) (.verified other)
  | decoded {one other : Except Failure CertificateVerify}
    (h : ExceptRel Failure.Readdressed CertificateVerify.Readdressed one other) :
    Readdressed (.decoded one) (.decoded other)
  | read {one other : Except Failure CertificateVerify} {rest another : Wire.Reader}
    (h : ExceptRel Failure.Readdressed CertificateVerify.Readdressed one other)
    (hrest : rest.Readdressed another) : Readdressed (.read one rest) (.read other another)

/-- The alerts that go out with such replies are the same, to other peers. -/
theorem Reply.Readdressed.alert? {one other : Reply} (h : one.Readdressed other) :
    Option.Rel Alert.Readdressed one.alert? other.alert? := by
  cases h with
  | done | refused => exact .none
  | signed h | verified h | decoded h | read h =>
    cases h with
    | ok => exact .none
    | error hfailure => exact hfailure.kind.alert?
  | created h =>
    cases h with
    | error => exact .none
    | ok h =>
      cases h with
      | ok => exact .none
      | error hfailure => exact hfailure.kind.alert?

end Exchange

/-! ## One act, and then all of them -/

/-- A message that is made for another peer is readdressed, and so is a failure to make one. -/
theorem CertificateVerify.create_readdressed {E ω : Type} (signer : Signer E ω) (key : Key)
    (pair : AlgorithmPair) (transcript : Transcript) (peer other : Option Peer)
    {one another : Workshop E ω} (h : one.Readdressed another) :
    ExceptRel Eq (ExceptRel Failure.Readdressed Readdressed)
        (create signer.sign key pair transcript peer one).1
        (create signer.sign key pair transcript other another).1 ∧
      (create signer.sign key pair transcript peer one).2.Readdressed
        (create signer.sign key pair transcript other another).2 := by
  obtain ⟨hsigned, hafter⟩ := signer.sign_readdressed key pair transcript peer other h
  rw [state_create, state_create, result_create, result_create]
  refine ⟨?_, hafter⟩
  generalize (signer.sign key pair transcript peer one).1 = result at hsigned ⊢
  generalize (signer.sign key pair transcript other another).1 = resultOther at hsigned ⊢
  cases hsigned with
  | error hfailure => exact .ok (.error hfailure)
  | ok hsignature =>
    cases hsignature
    exact (ofSignature_readdressed pair _ peer other).map .ok

namespace Exchange

variable {E ω : Type}

theorem keep_readdressed {ε ε' : Type} {failures : ε → ε' → Prop} {one other : Exchange E ω}
    (h : one.Readdressed other) {result : Except ε CertificateVerify}
    {another : Except ε' CertificateVerify}
    (hresult : ExceptRel failures CertificateVerify.Readdressed result another) :
    (one.keep result).Readdressed (other.keep another) := by
  cases hresult with
  | ok hmessage => exact ⟨h.session.keep hmessage, h.workshop⟩
  | error => exact h

/-- What is readdressed gets replies that are readdressed. -/
theorem perform_readdressed (supplier : Supplier E ω) {one other : Exchange E ω}
    (h : one.Readdressed other) {act another : Act ω} (hact : act.Readdressed another) :
    (one.perform supplier act).1.Readdressed (other.perform supplier another).1 ∧
      (one.perform supplier act).2.Readdressed (other.perform supplier another).2 := by
  have htranscript := h.session.transcript_eq
  cases hact with
  | add hentry => exact ⟨.done, h.session.add hentry, h.workshop⟩
  | setSequence index n =>
    -- both sessions have a message at the index, or neither has
    have hset := h.session.setSequence? index n
    rw [perform, perform]
    generalize one.session.setSequence? index n = result at hset ⊢
    generalize other.session.setSequence? index n = resultOther at hset ⊢
    cases hset with
    | none => exact ⟨.done, h⟩
    | some hset =>
      cases hset with
      | ok hsession => exact ⟨.done, hsession, h.workshop⟩
      | error hsame =>
        cases hsame
        exact ⟨.refused _, h⟩
  | sign config key pair peer another =>
    obtain ⟨hsigned, hafter⟩ := (Signer.mk supplier config).sign_readdressed key pair
      one.session.transcript peer another h.workshop
    rw [perform, perform, ← htranscript]
    exact ⟨.signed hsigned, h.session, hafter⟩
  | create config key pair peer another =>
    obtain ⟨hcreated, hafter⟩ :=
      CertificateVerify.create_readdressed (Signer.mk supplier config) key pair
        one.session.transcript peer another h.workshop
    rw [perform, perform, ← htranscript]
    simp only
    -- the results are named, so that the two runs can be taken apart together
    generalize CertificateVerify.create _ key pair _ peer one.workshop = made at hcreated hafter ⊢
    generalize CertificateVerify.create _ key pair _ another other.workshop = madeOther
      at hcreated hafter ⊢
    obtain ⟨result, workshop⟩ := made
    obtain ⟨resultOther, workshopOther⟩ := madeOther
    have hreply := Reply.Readdressed.created hcreated
    cases hcreated with
    | error => exact ⟨hreply, h.session, hafter⟩
    | ok hmade =>
      have hchanged : Exchange.Readdressed { one with workshop }
          { other with workshop := workshopOther } :=
        ⟨h.session, hafter⟩
      exact ⟨hreply, keep_readdressed hchanged hmade⟩
  | verify key pair signature peer another =>
    obtain ⟨hverified, hafter⟩ := (Verifier.mk supplier).verify_readdressed key pair signature
      one.session.transcript peer another h.workshop
    rw [perform, perform, ← htranscript]
    exact ⟨.verified hverified, h.session, hafter⟩
  | check key index =>
    -- what was kept at the index differs in the peer alone
    have hmessage := forall₂_getElem? h.session.messages index
    rw [perform, perform]
    generalize one.session.messages[index]? = kept at hmessage ⊢
    generalize other.session.messages[index]? = keptOther at hmessage ⊢
    cases hmessage with
    | none => exact ⟨.done, h⟩
    | @some message _ hmessage =>
      obtain ⟨peer, rfl⟩ := hmessage
      obtain ⟨hverified, hafter⟩ := (Verifier.mk supplier).verify_readdressed key message.pair
        message.signature one.session.transcript message.peer peer h.workshop
      rw [← htranscript]
      exact ⟨.verified hverified, h.session, hafter⟩
  | decode bytes peer another =>
    have hdecoded := CertificateVerify.decode_readdressed bytes peer another
    exact ⟨.decoded hdecoded, keep_readdressed h hdecoded⟩
  | read hreader peer another =>
    have hread := CertificateVerify.corresponds_read hreader peer another
    exact ⟨.read hread.outcome hread.left, keep_readdressed h hread.outcome⟩

/-- Runs that are readdressed get replies that are readdressed, one by one. -/
theorem run_readdressed (supplier : Supplier E ω) {acts others : List (Act ω)}
    (hacts : List.Forall₂ Act.Readdressed acts others) {one other : Exchange E ω}
    (h : one.Readdressed other) :
    List.Forall₂ Reply.Readdressed (run supplier acts one).1 (run supplier others other).1 ∧
      (run supplier acts one).2.Readdressed (run supplier others other).2 := by
  induction hacts generalizing one other with
  | nil => exact ⟨.nil, h⟩
  | cons hact _ ih =>
    obtain ⟨hreply, hafter⟩ := perform_readdressed supplier h hact
    obtain ⟨hreplies, hlast⟩ := ih hafter
    exact ⟨.cons hreply hreplies, hlast⟩

/-- **Addresses only route.** Whatever engines, key factories and re-encoders there are: of two runs
that do the same with other addresses, from sessions and workshops that differ in addresses alone,
each thing that is done comes to the same. Signatures, verdicts and refusals are equal; what is
decoded is accepted in both runs or in neither; failures say the same and have the same cause; and
messages, readers and alerts are the same but for the address in them. At the end, the entries of
the transcripts have the same bytes, the messages that were kept have the same bodies, the engines,
the key factories and the world are the same, and so is the log, up to what a verifier calls the
peer whose signature it rejects. -/
theorem addresses_only_route (supplier : Supplier E ω) {acts others : List (Act ω)}
    (hacts : List.Forall₂ Act.Readdressed acts others) {start another : Exchange E ω}
    (hstart : start.Readdressed another) :
    let ended := run supplier acts start
    let endedOther := run supplier others another
    List.Forall₂ Reply.Readdressed ended.1 endedOther.1 ∧
    List.Forall₂ (Option.Rel Alert.Readdressed) (ended.1.map Reply.alert?)
      (endedOther.1.map Reply.alert?) ∧
    ended.2.session.transcript = endedOther.2.session.transcript ∧
    List.Forall₂ CertificateVerify.Readdressed ended.2.session.messages
      endedOther.2.session.messages ∧
    ended.2.session.messages.map CertificateVerify.encode =
      endedOther.2.session.messages.map CertificateVerify.encode ∧
    ended.2.workshop.1 = endedOther.2.workshop.1 ∧
    ended.2.workshop.2.factories = endedOther.2.workshop.2.factories ∧
    ended.2.workshop.2.world = endedOther.2.workshop.2.world ∧
    List.Forall₂ LogLine.Readdressed ended.2.workshop.2.log endedOther.2.workshop.2.log := by
  intro ended endedOther
  obtain ⟨hreplies, hlast⟩ := run_readdressed supplier hacts hstart
  have hmessages := hlast.session.messages
  -- the alerts come with the replies, and the bodies with the messages
  have halerts : List.Forall₂ (Option.Rel Alert.Readdressed) (ended.1.map Reply.alert?)
      (endedOther.1.map Reply.alert?) := by
    rw [List.forall₂_map_left_iff, List.forall₂_map_right_iff]
    exact hreplies.imp fun _ _ hreply => hreply.alert?
  have hbodies : ended.2.session.messages.map CertificateVerify.encode =
      endedOther.2.session.messages.map CertificateVerify.encode := by
    rw [← List.forall₂_eq_eq_eq, List.forall₂_map_left_iff, List.forall₂_map_right_iff]
    exact hmessages.imp fun _ _ hmessage => hmessage.encode_eq
  exact ⟨hreplies, halerts, hlast.session.transcript_eq, hmessages, hbodies, hlast.workshop.engines,
    hlast.workshop.bench.factories, hlast.workshop.bench.world, hlast.workshop.bench.log⟩

/-- A message that comes from nowhere or from somewhere, one that is received as a whole, one that
is cut off, and a check of the first of them under a key that is none. -/
theorem addresses_only_route_somewhere :
    let somewhere : Peer := { host := "192.0.2.7", port := .ofNat 5684 }
    let key : Key := { role := .publicKey, algorithm := "Ed25519", format := .raw, encoded := [] }
    let acts (peer : Option Peer) : List (Act Unit) :=
      [.add (.message (.opaqueBody (.ofNat 1) [3, 3] peer)), .decode [8, 7, 0, 1, 5] peer,
        .decode [8, 7, 0] peer, .check key 0]
    let ended (peer : Option Peer) := run (.standard Suite.standard) (acts peer) ⟨{}, .new ()⟩
    List.Forall₂ Act.Readdressed (acts none) (acts (some somewhere)) ∧
      List.Forall₂ Reply.Readdressed (ended none).1 (ended (some somewhere)).1 ∧
      (ended none).2.session.transcript = (ended (some somewhere)).2.session.transcript ∧
      (ended none).2.workshop.1 = (ended (some somewhere)).2.workshop.1 := by
  intro somewhere key acts ended
  have hacts : List.Forall₂ Act.Readdressed (acts none) (acts (some somewhere)) :=
    .cons (.add (.message ⟨some somewhere, rfl⟩))
      (.cons (.decode _ _ _) (.cons (.decode _ _ _) (.cons (.check _ _) .nil)))
  have hstart :
      Exchange.Readdressed (⟨{}, .new ()⟩ : Exchange (SignatureEngine Unit) Unit) ⟨{}, .new ()⟩ :=
    ⟨⟨.nil, .nil⟩, rfl, .refl _⟩
  obtain ⟨hreplies, -, htranscript, -, -, hengines, -⟩ :=
    addresses_only_route (.standard Suite.standard) hacts hstart
  -- the runs are compared as they are written, and not carried out
  dsimp only [ended]
  exact ⟨hacts, hreplies, htranscript, hengines⟩

end Exchange

end SignedHandshake
