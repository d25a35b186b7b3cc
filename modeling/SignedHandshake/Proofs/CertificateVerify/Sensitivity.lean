import SignedHandshake.Proofs.CertificateVerify.Outcomes
import SignedHandshake.Proofs.Scheme.Lawful
import SignedHandshake.Proofs.Workshop.History

/-!
# What a signature binds (specification §8, transcript sensitivity)

An engine is fed the entries of a transcript one after the other and keeps nothing of where one ends
and the next begins. So a signature binds the concatenation of the entries, no less and no more
(**`CertificateVerify.flatten_eq_of_verify`**). Handshake messages carry their lengths, and their
concatenation can be cut in one way only; entries that are plain bytes can be cut anywhere, and an
empty entry leaves no trace (`CertificateVerify.verify_recut`).

What is noticed of a change to the entries is what shows in the concatenation: other bytes in place
of an entry, an entry more or less that is not empty, and two neighbours in the other order unless
that gives the same bytes (`Transcript.flatten_ne_of_altered`).
-/

namespace SignedHandshake

/-! ## Entries that are plain bytes -/

namespace Transcript

/-- The entries of a transcript are these bytes. How they are called is up to the entries. -/
def Carries (transcript : Transcript) (pieces : List Bytes) : Prop :=
  transcript.map (·.canonicalBytes) = pieces.map .ok

/-- Entries that have bytes have them one behind the other. -/
theorem Carries.bytes_eq {transcript : Transcript} {pieces : List Bytes}
    (h : transcript.Carries pieces) :
    transcript.bytes = .ok pieces.flatten := by
  induction pieces generalizing transcript with
  | nil =>
    obtain rfl : transcript = [] := List.map_eq_nil_iff.mp h
    rfl
  | cons piece rest ih =>
    cases transcript with
    | nil => cases h
    | cons entry others =>
      obtain ⟨hfirst, hrest⟩ := List.cons.inj h
      exact bytes_cons_eq_ok_iff.mpr ⟨piece, rest.flatten, hfirst, ih hrest, rfl⟩

/-- What an engine is handed for two transcripts is the same exactly if the concatenations are. -/
theorem Carries.handed_eq_iff {transcript other : Transcript} {left right : List Bytes}
    (hleft : transcript.Carries left) (hright : other.Carries right) :
    transcript.handed = other.handed ↔ left.flatten = right.flatten := by
  rw [handed_eq_bytes, handed_eq_bytes, hleft.bytes_eq, hright.bytes_eq, Except.ok.injEq]

/-- Changes to a sequence of entries that show. -/
inductive Altered : List Bytes → List Bytes → Prop where
  | replaced (before after : List Bytes) {piece other : Bytes} (h : piece ≠ other) :
      Altered (before ++ piece :: after) (before ++ other :: after)
  | added (before after : List Bytes) {piece : Bytes} (h : piece ≠ []) :
      Altered (before ++ after) (before ++ piece :: after)
  | omitted (before after : List Bytes) {piece : Bytes} (h : piece ≠ []) :
      Altered (before ++ piece :: after) (before ++ after)
  | exchanged (before after : List Bytes) {piece other : Bytes}
      (h : piece ++ other ≠ other ++ piece) :
      Altered (before ++ piece :: other :: after) (before ++ other :: piece :: after)

/-- They show in the concatenation. -/
theorem flatten_ne_of_altered {left right : List Bytes} (h : Altered left right) :
    left.flatten ≠ right.flatten := by
  intro hsame
  cases h with
  | replaced before after h =>
    simp only [List.flatten_append, List.flatten_cons] at hsame
    exact h (List.append_cancel_right (List.append_cancel_left hsame))
  | added before after h =>
    simp only [List.flatten_append, List.flatten_cons] at hsame
    exact h (List.self_eq_append_left.mp (List.append_cancel_left hsame))
  | omitted before after h =>
    simp only [List.flatten_append, List.flatten_cons] at hsame
    exact h (List.self_eq_append_left.mp (List.append_cancel_left hsame).symm)
  | @exchanged before after piece other h =>
    simp only [List.flatten_append, List.flatten_cons] at hsame
    have hgrouped : piece ++ other ++ after.flatten = other ++ piece ++ after.flatten := by
      rw [List.append_assoc, List.append_assoc]
      exact List.append_cancel_left hsame
    exact h (List.append_cancel_right hgrouped)

end Transcript

/-! ## What is signed and what is checked -/

/-- The engine for an algorithm, with a public key, takes a signature for nothing but the message
that it was made for, whichever key made it. -/
def EngineAlgorithm.TakesOnlySigned (suite : Suite) (algorithm : EngineAlgorithm) (publicKey : Key)
    (signature : Bytes) : Prop :=
  ∀ {used : Key} {signer verifier : Primitive} {signed checked entropy : Bytes},
    algorithm.TakesPrivate suite used signer → algorithm.TakesPublic suite publicKey verifier →
    signer.sign suite signed used.encoded entropy = some signature →
    verifier.verdict suite checked publicKey.encoded signature = .ok true → checked = signed

variable {ω ω' : Type} {suite : Suite} {config : Config ω}
    {signers : Workshop (SignatureEngine ω) ω}
  {verifiers : Workshop (SignatureEngine ω') ω'} {privateKey publicKey : Key} {pair : AlgorithmPair}
  {transcript other : Transcript} {left right : List Bytes} {peer sender : Option Peer}
  {signature : Bytes}

/-- A signature is one over the concatenation of the entries. -/
theorem Signer.sign_flatten (hsigners : signers.Reachable suite) (hleft : transcript.Carries left)
    (hsign : ((standard suite config).sign privateKey pair transcript peer signers).1 =
      .ok signature) :
    ∃ algorithm signer used entropy, pair.algorithm = .ok algorithm ∧
      algorithm.TakesPrivate suite used signer ∧
      signer.sign suite left.flatten used.encoded entropy = some signature := by
  obtain ⟨rebuilt, drawn, hanswer⟩ :=
    exists_sign_eq_answer hsigners.inOrder config privateKey pair transcript peer
  rw [hanswer] at hsign
  obtain ⟨algorithm, signer, used, message, entropy, halgorithm, -, htakes, hmessage, hsigned⟩ :=
    answer_eq_ok hsign
  rw [hleft.bytes_eq] at hmessage
  cases hmessage
  exact ⟨algorithm, signer, used, entropy, halgorithm, htakes, hsigned⟩

/-- A signature is accepted for the concatenation of the entries. -/
theorem Verifier.verify_flatten (hverifiers : verifiers.Reachable suite)
    (hright : other.Carries right)
    (hverify : ((standard suite).verify publicKey pair signature other sender verifiers).1 =
      .ok ()) :
    ∃ algorithm verifier, pair.algorithm = .ok algorithm ∧
      algorithm.TakesPublic suite publicKey verifier ∧
      verifier.verdict suite right.flatten publicKey.encoded signature = .ok true := by
  rw [verify_eq_answer hverifiers.inOrder] at hverify
  obtain ⟨algorithm, verifier, message, halgorithm, htakes, hmessage, hverdict⟩ :=
    answer_eq_ok_iff.mp hverify
  rw [hright.bytes_eq] at hmessage
  cases hmessage
  exact ⟨algorithm, verifier, halgorithm, htakes, hverdict⟩

/-- **A signature binds the concatenation of the entries.** What is signed for one sequence of
entries is their concatenation, and so is what is checked for another, hence the two are the
same exactly if the concatenations are. No other bytes in place of an entry, no entry more or
less that is not empty, and no exchange of neighbours that do not commute leaves the
concatenation as it was. So if the engine takes a signature only for the message that it was
made for, then none of these goes unnoticed: a signature over one sequence is accepted for
another only if the concatenations agree. -/
theorem CertificateVerify.flatten_eq_of_verify (hsigners : signers.Reachable suite)
    (hverifiers : verifiers.Reachable suite) (hleft : transcript.Carries left)
    (hright : other.Carries right)
    (privateKey publicKey : Key) (pair : AlgorithmPair) (peer sender : Option Peer) :
    let signs signature :=
      ((Signer.standard suite config).sign privateKey pair transcript peer signers).1 =
        .ok signature
    let verifies signature :=
      ((Verifier.standard suite).verify publicKey pair signature other sender verifiers).1 = .ok ()
    (∀ signature, signs signature →
      ∃ algorithm signer used entropy, pair.algorithm = .ok algorithm ∧
      algorithm.TakesPrivate suite used signer ∧
      signer.sign suite left.flatten used.encoded entropy = some signature) ∧
    (∀ signature, verifies signature → ∃ algorithm verifier, pair.algorithm = .ok algorithm ∧
      algorithm.TakesPublic suite publicKey verifier ∧
      verifier.verdict suite right.flatten publicKey.encoded signature = .ok true) ∧
    (transcript.handed = other.handed ↔ left.flatten = right.flatten) ∧
    (Transcript.Altered left right → left.flatten ≠ right.flatten) ∧
    (∀ signature, signs signature → verifies signature →
      (∀ algorithm, pair.algorithm = .ok algorithm →
        algorithm.TakesOnlySigned suite publicKey signature) →
      left.flatten = right.flatten) := by
  intro signs verifies
  refine ⟨fun signature => Signer.sign_flatten hsigners hleft, fun signature =>
    Verifier.verify_flatten hverifiers hright, hleft.handed_eq_iff hright,
    Transcript.flatten_ne_of_altered, fun signature hsigns hverifies honly => ?_⟩
  -- the two keys are for one algorithm, and the verifier binds the signature to its message
  obtain ⟨algorithm, signer, used, entropy, halgorithm, htakes, hsigned⟩ :=
    Signer.sign_flatten hsigners hleft hsigns
  obtain ⟨same, verifier, hsame, htakesPublic, hverdict⟩ :=
    Verifier.verify_flatten hverifiers hright hverifies
  rw [halgorithm] at hsame
  cases hsame
  exact (honly algorithm halgorithm htakes htakesPublic hsigned hverdict).symm

section

variable {variant : EdVariant} {message secret : Bytes}

/-- A suite in which the only signature is valid for one message only. -/
theorem EngineAlgorithm.takesOnlySigned_bindingOnly (algorithm : EngineAlgorithm)
    (publicKey : Key) :
    algorithm.TakesOnlySigned (suite.bindingOnly variant message secret signature) publicKey
      signature := by
  intro used signer verifier signed checked entropy htakes htakesPublic hsigned hverdict
  cases htakes with
  | overDigest => cases hsigned
  | overMessage =>
    obtain ⟨⟨-, rfl, -⟩, -⟩ := Option.ite_none_right_eq_some.mp hsigned
    cases htakesPublic with
    | overMessage =>
      obtain ⟨-, hvalid⟩ := except_ite_error_eq_ok_iff.mp hverdict
      have hvalid := Except.ok.inj hvalid
      exact of_decide_eq_true (Bool.and_eq_true_iff.mp hvalid).1 rfl

/-- It takes the public keys of the suite that it was made of. -/
theorem EngineAlgorithm.TakesPublic.bindingOnly {algorithm : EngineAlgorithm}
    {primitive : Primitive} (h : algorithm.TakesPublic suite publicKey primitive) :
    algorithm.TakesPublic (suite.bindingOnly variant message secret signature) publicKey
      primitive := by
  cases h with
  | overDigest family raw curve_eq point => exact .overDigest family raw curve_eq point
  | overMessage role name raw length point order =>
    exact .overMessage role name raw length point order

/-- For that message, the signature is as valid as before. -/
theorem Primitive.verdict_bindingOnly {primitive : Primitive} {key : Bytes}
    (h : primitive.verdict suite message key signature = .ok true) :
    primitive.verdict (suite.bindingOnly variant message secret signature) message key signature =
      .ok true := by
  cases primitive with
  | overDigest hash curve => exact h
  | overMessage other =>
    obtain ⟨hlength, hvalid⟩ := except_ite_error_eq_ok_iff.mp h
    refine except_ite_error_eq_ok_iff.mpr ⟨hlength, ?_⟩
    have hsame : decide (signature = signature → message = message) = true :=
      decide_eq_true fun _ => rfl
    show Except.ok (decide (signature = signature → message = message) && _) = _
    rw [hsame, Bool.true_and, hvalid]

end

/-- A signature over two entries is refused for the same two in the other order, by an engine that
takes a signature for its message only. -/
theorem CertificateVerify.flatten_eq_of_verify_exchanged :
    let suite := Suite.standard.bindingOnly .ed25519 KnownAnswer.message KnownAnswer.seed
      KnownAnswer.signature
    let config : Config Unit :=
      { logLevel := .silent, logger := { name := "test" }, keyReencoding := true,
        reencoders := .standard,
        random := { nextBytes := fun _ _ => .error (.primitive "no randomness") () } }
    let privateKey : Key :=
      { role := .privateKey, algorithm := "Ed25519", format := .raw, encoded := KnownAnswer.seed }
    let publicKey : Key :=
      { role := .publicKey, algorithm := "Ed25519", format := .raw, encoded := KnownAnswer.point }
    let transcript : Transcript :=
      [{ canonicalBytes := .ok [0xAF] }, { canonicalBytes := .ok [0x82] }]
    let other : Transcript := [{ canonicalBytes := .ok [0x82] }, { canonicalBytes := .ok [0xAF] }]
    ((Signer.standard suite config).sign privateKey (.ofVariant .ed25519) transcript none
      (.new ())).1 =
        .ok KnownAnswer.signature ∧
      ((Verifier.standard suite).verify publicKey (.ofVariant .ed25519) KnownAnswer.signature
        other none (.new () : Workshop (SignatureEngine Unit) Unit)).1 ≠ .ok () := by
  intro suite config privateKey publicKey transcript other
  have hnew : (Workshop.new () : Workshop (SignatureEngine Unit) Unit).Reachable suite := .new ()
  have hleft : transcript.Carries [[0xAF], [0x82]] := rfl
  have hright : other.Carries [[0x82], [0xAF]] := rfl
  obtain ⟨-, -, -, haltered, hsame⟩ :=
    flatten_eq_of_verify hnew hnew hleft hright privateKey publicKey (.ofVariant .ed25519) none none
  -- in this order, the two entries make up the message of the known answer
  have hsigned :
      ((Signer.standard suite config).sign privateKey (.ofVariant .ed25519) transcript none
        (.new ())).1.toOption = some KnownAnswer.signature := by decide
  have hsigned := except_toOption_eq_some_iff.mp hsigned
  refine ⟨hsigned, fun hverified => haltered (.exchanged [] [] (by decide)) ?_⟩
  exact hsame KnownAnswer.signature hsigned hverified fun algorithm _ =>
    algorithm.takesOnlySigned_bindingOnly publicKey

/-- Where one entry ends and the next begins is not bound, nor is an empty entry: a signature over
two entries is accepted for one that has the bytes of both, and with an empty entry behind it, even
by an engine that takes a signature for its message only. -/
theorem CertificateVerify.verify_recut :
    let suite := Suite.standard.bindingOnly .ed25519 KnownAnswer.message KnownAnswer.seed
      KnownAnswer.signature
    let config : Config Unit :=
      { logLevel := .silent, logger := { name := "test" }, keyReencoding := true,
        reencoders := .standard,
        random := { nextBytes := fun _ _ => .error (.primitive "no randomness") () } }
    let privateKey : Key :=
      { role := .privateKey, algorithm := "Ed25519", format := .raw, encoded := KnownAnswer.seed }
    let publicKey : Key :=
      { role := .publicKey, algorithm := "Ed25519", format := .raw, encoded := KnownAnswer.point }
    let left : List Bytes := [[0xAF], [0x82]]
    let right : List Bytes := [[0xAF, 0x82], []]
    let entries (pieces : List Bytes) : Transcript :=
      pieces.map fun piece => { canonicalBytes := .ok piece }
    left ≠ right ∧ (entries left).handed = (entries right).handed ∧
      (∀ algorithm : EngineAlgorithm,
        algorithm.TakesOnlySigned suite publicKey KnownAnswer.signature) ∧
      ((Signer.standard suite config).sign privateKey (.ofVariant .ed25519) (entries left) none
        (.new ())).1 = .ok KnownAnswer.signature ∧
      ((Verifier.standard suite).verify publicKey (.ofVariant .ed25519) KnownAnswer.signature
        (entries right) none (.new () : Workshop (SignatureEngine Unit) Unit)).1 = .ok () := by
  intro suite config privateKey publicKey left right entries
  have hleft : (entries left).Carries left := rfl
  have hright : (entries right).Carries right := rfl
  have hnew : (Workshop.new () : Workshop (SignatureEngine Unit) Unit).Reachable suite := .new ()
  refine ⟨by decide, (hleft.handed_eq_iff hright).mpr rfl,
    fun algorithm => algorithm.takesOnlySigned_bindingOnly publicKey, ?_, ?_⟩
  · have hsigned :
        ((Signer.standard suite config).sign privateKey (.ofVariant .ed25519) (entries left)
          none (.new ())).1.toOption = some KnownAnswer.signature := by decide
    exact except_toOption_eq_some_iff.mp hsigned
  · refine (Verifier.verify_eq_answer hnew.inOrder ..).trans (Verifier.answer_eq_ok_iff.mpr ?_)
    -- the verifier takes the public key for the primitive, whose verdict is known
    have htakes : (EngineAlgorithm.overMessage .ed25519).TakesPublic Suite.standard publicKey
        (.overMessage .ed25519) :=
      .overMessage rfl rfl rfl KnownAnswer.length_point KnownAnswer.isPoint KnownAnswer.isSmallOrder
    have hverdict : (Primitive.overMessage .ed25519).verdict Suite.standard KnownAnswer.message
        KnownAnswer.point KnownAnswer.signature = .ok true := by
      rw [Primitive.verdict, if_pos KnownAnswer.length_signature, KnownAnswer.verify]
    exact ⟨.overMessage .ed25519, .overMessage .ed25519, KnownAnswer.message, rfl,
      htakes.bindingOnly, hright.bytes_eq, Primitive.verdict_bindingOnly hverdict⟩

end SignedHandshake
