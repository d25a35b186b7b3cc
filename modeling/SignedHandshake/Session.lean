import SignedHandshake.CertificateVerify.Message

/-!
# Sessions

A session gathers the transcript of one handshake and the messages that are signed along the way. A
signed message can become an entry of the transcript. It stays the same message then: a sequence
number set through one entry shows in every other entry for it.
-/

namespace SignedHandshake

/-- An entry of a session's transcript. -/
inductive SessionEntry where
  /-- A message that only this entry holds. -/
  | message (message : HandshakeMessage)
  /-- The signed message with this index. -/
  | signed (index : Nat)
  /-- Bytes that are no message. -/
  | plain (entry : TranscriptEntry)

/-- The messages signed and the entries added so far. -/
structure Session where
  messages : List CertificateVerify := []
  entries : List SessionEntry := []

namespace Session

/-- What an entry stands for; nothing, if it is for a message that was never signed. -/
def resolve? (session : Session) : SessionEntry → Option TranscriptEntry
  | .message message => some message.entry
  | .signed index => (session.messages[index]?).map fun message => message.handshake.entry
  | .plain entry => some entry

/-- The transcript so far. -/
def transcript (session : Session) : Transcript :=
  session.entries.filterMap session.resolve?

/-- Keep a message that was signed. -/
def keep (session : Session) (message : CertificateVerify) : Session :=
  { session with messages := session.messages ++ [message] }

/-- Add an entry. -/
def add (session : Session) (entry : SessionEntry) : Session :=
  { session with entries := session.entries ++ [entry] }

/-- Start a new transcript. -/
def reset (session : Session) : Session :=
  { session with entries := [] }

/-- Set the sequence number of the message behind an entry, if there is one. -/
def setSequence? (session : Session) (index : Nat) (n : Number) :
    Option (Except RangeError Session) :=
  match session.entries[index]? with
  | some (.message message) => some do
    let message ← message.setSequence n
    return { session with entries := session.entries.set index (.message message) }
  | some (.signed signed) => (session.messages[signed]?).map fun message => do
    let message ← message.setSequence n
    return { session with messages := session.messages.set signed message }
  | _ => none

end Session

end SignedHandshake
