import Mathlib.Data.List.Forall2
import SignedHandshake.Proofs.Attempt.Matching
import SignedHandshake.Session

/-!
# Other addresses

Messages, readers and failures hold the address of a peer. Two of them are *readdressed* if this
address is all in which they may differ. Here is what that means for what travels and for what is
read: messages that are readdressed have the same bytes, and bytes are read as messages that are
readdressed, or fail with the same text. A session whose messages are readdressed has the same
transcript (`Session.Readdressed.transcript_eq`), since no entry knows a peer.

Proof structure: no field but the address is touched when something is readdressed, so whatever does
not look at the address is the same by definition; reading is put together from steps that
correspond (`Attempt.Corresponds`).
-/

namespace SignedHandshake

/-! ## What may differ -/

/-- The same message with another address. -/
def HandshakeMessage.Readdressed (one other : HandshakeMessage) : Prop :=
  ∃ peer, other = { one with peer }

/-- The same message with another address. -/
def CertificateVerify.Readdressed (one other : CertificateVerify) : Prop :=
  ∃ peer, other = { one with peer }

/-- The same alert with another address. -/
def Alert.Readdressed (one other : Alert) : Prop :=
  ∃ peer, other = { one with peer }

/-- The same sort of failure, for another peer if failures of this sort have one. -/
inductive FailureKind.Readdressed : FailureKind → FailureKind → Prop where
  | same (kind : FailureKind) : Readdressed kind kind
  | decode (peer other : Option Peer) : Readdressed (.decode peer) (.decode other)
  | signing (peer other : Option Peer) : Readdressed (.signing peer) (.signing other)
  | authentication (peer other : Option Peer) : Readdressed (.authentication peer)
      (.authentication other)

/-- The same failure with another address: it says the same and has the same cause. -/
structure Failure.Readdressed (one other : Failure) : Prop where
  kind : one.kind.Readdressed other.kind
  message : one.message = other.message
  cause : one.cause = other.cause

/-- The same bytes, read up to the same place, from another address. -/
def Wire.Reader.Readdressed (one other : Wire.Reader) : Prop :=
  ∃ peer, other = { one with peer }

/-- The same entry with another address. -/
inductive SessionEntry.Readdressed : SessionEntry → SessionEntry → Prop where
  | message {one other : HandshakeMessage} (h : one.Readdressed other) :
    Readdressed (.message one) (.message other)
  | signed (index : Nat) : Readdressed (.signed index) (.signed index)
  | plain (entry : TranscriptEntry) : Readdressed (.plain entry) (.plain entry)

/-- The same messages and entries with other addresses. -/
structure Session.Readdressed (one other : Session) : Prop where
  messages : List.Forall₂ CertificateVerify.Readdressed one.messages other.messages
  entries : List.Forall₂ SessionEntry.Readdressed one.entries other.entries

/-! ## What is the same -/

theorem Failure.Readdressed.refl (e : Failure) : e.Readdressed e :=
  ⟨.same e.kind, rfl, rfl⟩

/-- The alert that goes out is the same, to another peer. -/
theorem FailureKind.Readdressed.alert? {one other : FailureKind} (h : one.Readdressed other) :
    Option.Rel Alert.Readdressed one.alert? other.alert? := by
  cases h with
  | same =>
    cases one.alert? with
    | none => exact .none
    | some alert => exact .some ⟨alert.peer, rfl⟩
  | decode peer other | signing peer other | authentication peer other => exact .some ⟨other, rfl⟩

/-- What enters a signature, and what is logged about it, does not depend on an address. -/
theorem HandshakeMessage.Readdressed.entry_eq {one other : HandshakeMessage}
    (h : one.Readdressed other) :
    one.entry = other.entry := by
  obtain ⟨peer, rfl⟩ := h
  rfl

/-- Neither does a body. -/
theorem CertificateVerify.Readdressed.encode_eq {one other : CertificateVerify}
    (h : one.Readdressed other) : one.encode = other.encode := by
  obtain ⟨peer, rfl⟩ := h
  rfl

theorem HandshakeMessage.Readdressed.setSequence {one other : HandshakeMessage}
    (h : one.Readdressed other) (n : Number) :
    ExceptRel Eq HandshakeMessage.Readdressed (one.setSequence n) (other.setSequence n) := by
  obtain ⟨peer, rfl⟩ := h
  unfold HandshakeMessage.setSequence
  cases HandshakeMessage.sequence? n with
  | ok sequence => exact .ok ⟨peer, rfl⟩
  | error e => exact .error rfl

theorem CertificateVerify.Readdressed.setSequence {one other : CertificateVerify}
    (h : one.Readdressed other) (n : Number) :
    ExceptRel Eq CertificateVerify.Readdressed (one.setSequence n) (other.setSequence n) := by
  obtain ⟨peer, rfl⟩ := h
  unfold CertificateVerify.setSequence
  cases HandshakeMessage.sequence? n with
  | ok sequence => exact .ok ⟨peer, rfl⟩
  | error e => exact .error rfl

theorem CertificateVerify.Readdressed.handshake {one other : CertificateVerify}
    (h : one.Readdressed other) : one.handshake.Readdressed other.handshake := by
  obtain ⟨peer, rfl⟩ := h
  exact ⟨peer, rfl⟩

/-! ## Reading -/

namespace Wire.Reader

variable {one other : Reader}

theorem corresponds_take (h : one.Readdressed other) (count : Number) :
    Attempt.Corresponds Failure.Readdressed Eq Readdressed (take count one) (take count other) := by
  obtain ⟨peer, rfl⟩ := h
  have havailable : ({ one with peer } : Reader).available = one.available := rfl
  unfold take
  rw [havailable]
  by_cases hshort : one.available < count
  · rw [if_pos hshort, if_pos hshort]
    exact .error ⟨.decode one.peer peer, rfl, rfl⟩ ⟨peer, rfl⟩
  · rw [if_neg hshort, if_neg hshort]
    exact .ok rfl ⟨peer, rfl⟩

theorem corresponds_read (h : one.Readdressed other) (bits : Number) :
    Attempt.Corresponds Failure.Readdressed Eq Readdressed (read bits one) (read bits other) := by
  -- both readers stand at the same place
  have hposition : other.position = one.position := by
    obtain ⟨peer, rfl⟩ := h
    rfl
  unfold read
  cases fieldWidth? bits with
  | none => exact .error (.refl _) h
  | some width =>
    have htake := corresponds_take h (.ofNat width)
    rw [hposition]
    simp only
    generalize take (.ofNat width) one = taken at htake ⊢
    generalize take (.ofNat width) other = takenOther at htake ⊢
    cases htake with
    | ok hvalue hafter =>
      rw [hvalue]
      exact .ok rfl hafter
    | error hfailure hafter => exact .error hfailure hafter

end Wire.Reader

namespace CertificateVerify

theorem ofSignature_readdressed (pair : AlgorithmPair) (signature : Bytes)
    (peer other : Option Peer) :
    ExceptRel Eq Readdressed (ofSignature pair signature peer)
      (ofSignature pair signature other) := by
  unfold ofSignature
  by_cases hfits : signature.length ≤ RangeError.maxSignatureLength
  · rw [dif_pos hfits, dif_pos hfits]
    exact .ok ⟨other, rfl⟩
  · rw [dif_neg hfits, dif_neg hfits]
    exact .error rfl

/-- Reading a body ends in the same way and at the same place. -/
theorem corresponds_read {one another : Wire.Reader} (h : one.Readdressed another)
    (peer other : Option Peer) :
    Attempt.Corresponds Failure.Readdressed Readdressed Wire.Reader.Readdressed (read peer one)
      (read other another) := by
  -- what is raised does not name a peer
  have hraised {α : Type} (result : Except RangeError α) :
      ExceptRel Failure.Readdressed Eq (result.mapError RangeError.toFailure)
        (result.mapError RangeError.toFailure) := by
    cases result with
    | ok a => exact .ok rfl
    | error e => exact .error (.refl _)
  unfold read
  -- two codes, the pair they name, the length, and that many bytes
  refine (Wire.Reader.corresponds_read h _).bind ?_
  rintro hash _ one another rfl h
  refine (Wire.Reader.corresponds_read h _).bind ?_
  rintro code _ one another rfl h
  refine (Attempt.Corresponds.ofExcept (hraised _) h).bind ?_
  rintro pair _ one another rfl h
  refine (Wire.Reader.corresponds_read h _).bind ?_
  rintro length _ one another rfl h
  refine (Wire.Reader.corresponds_take h _).bind ?_
  rintro signature _ one another rfl h
  refine .ofExcept ((ofSignature_readdressed pair signature peer other).mapError ?_) h
  rintro e _ rfl
  exact .refl _

/-- So does decoding. -/
theorem decode_readdressed (bytes : Bytes) (peer other : Option Peer) :
    ExceptRel Failure.Readdressed Readdressed (decode bytes peer) (decode bytes other) := by
  have hread : Attempt.Corresponds Failure.Readdressed Readdressed Wire.Reader.Readdressed
      (read peer { bytes, peer }) (read other { bytes, peer := other }) :=
    corresponds_read ⟨other, rfl⟩ peer other
  unfold decode
  generalize read peer { bytes, peer } = result at hread ⊢
  generalize read other { bytes, peer := other } = resultOther at hread ⊢
  cases hread with
  | error hfailure h => exact .error hfailure
  | @ok message messageOther reader readerOther hvalue h =>
    -- both readers have the same bytes left
    have havailable : readerOther.available = reader.available := by
      obtain ⟨_, rfl⟩ := h
      rfl
    simp only
    rw [havailable]
    by_cases hrest : Number.ofNat 0 < reader.available
    · rw [if_pos hrest, if_pos hrest]
      exact .error ⟨.decode peer other, rfl, rfl⟩
    · rw [if_neg hrest, if_neg hrest]
      exact .ok hvalue

end CertificateVerify

/-! ## Sessions -/

/-- What is related one by one is so at every place. -/
theorem forall₂_getElem? {α β : Type} {rel : α → β → Prop} {left : List α} {right : List β}
    (h : List.Forall₂ rel left right) (index : Nat) :
    Option.Rel rel left[index]? right[index]? := by
  induction h generalizing index with
  | nil => exact .none
  | cons hhead hrest ih =>
    cases index with
    | zero => exact .some hhead
    | succ index =>
      rw [List.getElem?_cons_succ, List.getElem?_cons_succ]
      exact ih index

theorem forall₂_set {α β : Type} {rel : α → β → Prop} {left : List α} {right : List β}
    (h : List.Forall₂ rel left right) (index : Nat) {a : α} {b : β} (hvalue : rel a b) :
    List.Forall₂ rel (left.set index a) (right.set index b) := by
  induction h generalizing index with
  | nil => exact .nil
  | cons hhead hrest ih =>
    cases index with
    | zero => exact .cons hvalue hrest
    | succ index => exact .cons hhead (ih index)

namespace Session.Readdressed

variable {one other : Session}

theorem resolve?_eq (h : one.Readdressed other) {entry another : SessionEntry}
    (hentry : entry.Readdressed another) : one.resolve? entry = other.resolve? another := by
  cases hentry with
  | message hmessage => exact congrArg some hmessage.entry_eq
  | plain entry => rfl
  | signed index =>
    have hmessage := forall₂_getElem? h.messages index
    show Option.map _ one.messages[index]? = Option.map _ other.messages[index]?
    generalize one.messages[index]? = found at hmessage ⊢
    generalize other.messages[index]? = foundOther at hmessage ⊢
    cases hmessage with
    | none => rfl
    | some hmessage => exact congrArg some hmessage.handshake.entry_eq

/-- The transcript of a session does not depend on addresses: its entries have the same
bytes and the same labels. -/
theorem transcript_eq (h : one.Readdressed other) : one.transcript = other.transcript := by
  have hentries := h.entries
  unfold transcript
  generalize one.entries = entries at hentries ⊢
  generalize other.entries = others at hentries ⊢
  induction hentries with
  | nil => rfl
  | cons hentry _ ih =>
    rw [List.filterMap_cons, List.filterMap_cons, h.resolve?_eq hentry, ih]

theorem add (h : one.Readdressed other) {entry another : SessionEntry}
    (hentry : entry.Readdressed another) :
    (one.add entry).Readdressed (other.add another) :=
  ⟨h.messages, List.rel_append h.entries (.cons hentry .nil)⟩

theorem keep (h : one.Readdressed other) {message another : CertificateVerify}
    (hmessage : message.Readdressed another) :
    (one.keep message).Readdressed (other.keep another) :=
  ⟨List.rel_append h.messages (.cons hmessage .nil), h.entries⟩

/-- Setting a sequence number is refused alike, or leads to sessions that are readdressed. -/
theorem setSequence? (h : one.Readdressed other) (index : Nat) (n : Number) :
    Option.Rel (ExceptRel Eq Session.Readdressed) (one.setSequence? index n)
      (other.setSequence? index n) := by
  have hentry := forall₂_getElem? h.entries index
  unfold Session.setSequence?
  generalize one.entries[index]? = found at hentry ⊢
  generalize other.entries[index]? = foundOther at hentry ⊢
  cases hentry with
  | none => exact .none
  | some hentry =>
    cases hentry with
    | plain entry => exact .none
    | message hmessage =>
      refine .some ((hmessage.setSequence n).bind fun hset => .ok ?_)
      exact ⟨h.messages, forall₂_set h.entries index (.message hset)⟩
    | signed signed =>
      -- the number is set in the message, and so in every entry for it
      have hmessage := forall₂_getElem? h.messages signed
      simp only
      generalize one.messages[signed]? = kept at hmessage ⊢
      generalize other.messages[signed]? = keptOther at hmessage ⊢
      cases hmessage with
      | none => exact .none
      | some hmessage =>
        refine .some ((hmessage.setSequence n).bind fun hset => .ok ?_)
        exact ⟨forall₂_set h.messages signed hset, h.entries⟩

end Session.Readdressed

end SignedHandshake
