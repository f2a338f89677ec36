import JumpscaleX.MeEncryptor
import JumpscaleX.MessageRoundTrip

/-!
# The signed exchange between two identities

Who can read what `_serialize_sign_encrypt` sends, and what the check of
`_deserialize_check_decrypt` says about the signature that came with it.
-/

namespace JumpscaleX

open Fallible TextBytes IdealNacl

/-- The bytes of a dump are loaded as the dump is. -/
theorem Codecs.loads_encode {codecs : Codecs} {format : SerializationFormat} {value : PyVal}
    {dumped : Dumped} (written : codecs.dumps format value = .ok dumped) :
    codecs.loads format (.binary dumped.encode) = codecs.loads format dumped := by
  cases format with
  | json =>
      cases texts : SerializerUJson.dumps codecs value with
      | error problem => simp [dumps, texts, Functor.map, Except.map] at written
      | ok text =>
          simp only [dumps, texts, Functor.map, Except.map, Except.ok.injEq] at written
          subst written
          simp only [loads, SerializerUJson.loads, Dumped.encode, utf8Decode_utf8]
  | msgpack =>
      cases contents : SerializerMSGPack.dumps codecs value with
      | error problem => simp [dumps, contents, Functor.map, Except.map] at written
      | ok content =>
          simp only [dumps, contents, Functor.map, Except.map, Except.ok.injEq] at written
          subst written
          rfl

namespace EncryptorTools

variable {Key : Type} [DecidableEq Key] {tools : EncryptorTools}
  {format : SerializationFormat} {message : MessageData}

theorem unserialize_encode {dumped : Dumped}
    (written : tools.serialize format message = .ok dumped) :
    tools.unserialize format (.binary dumped.encode) = tools.unserialize format dumped := by
  rw [serialize, bind_eq_ok_iff] at written
  obtain ⟨native, _, dumps⟩ := written
  rw [unserialize, unserialize, Codecs.loads_encode dumps]

/-! ## Sending -/

/-- What is sent without a key: the dump itself. -/
theorem send_plain {sender : MeEncryptor Key} {nonce : Nat} {sent : SignedData Key} :
    tools.serializeSignEncrypt sender nonce format message none none = .ok sent ↔
      ∃ dumped, tools.serialize format message = .ok dumped ∧
        sent = ⟨sender.tid, .bytes dumped.encode, sender.sign dumped.encode⟩ := by
  simp only [serializeSignEncrypt, bind_eq_ok_iff]
  constructor
  · rintro ⟨dumped, written, done⟩
    cases done
    exact ⟨dumped, written, rfl⟩
  · rintro ⟨dumped, written, rfl⟩
    exact ⟨dumped, written, rfl⟩

/-- What is sent to the public key of a receiver: a box of the sender with that
key. -/
theorem send_boxed {sender receiver : MeEncryptor Key} {nonce : Nat}
    {sent : SignedData Key} :
    tools.serializeSignEncrypt sender nonce format message (some receiver.publicKeyHex)
        none = .ok sent ↔
      ∃ dumped, tools.serialize format message = .ok dumped ∧
        sent = ⟨sender.tid, .box sender.signingKey receiver.publicKey nonce dumped.encode,
          sender.sign dumped.encode⟩ := by
  simp only [serializeSignEncrypt, bind_eq_ok_iff]
  constructor
  · rintro ⟨dumped, written, done⟩
    cases done
    exact ⟨dumped, written, rfl⟩
  · rintro ⟨dumped, written, rfl⟩
    exact ⟨dumped, written, rfl⟩

/-! ## Receiving -/

theorem decrypt_plain {receiver : MeEncryptor Key} {content plaintext : Bytes} :
    receiver.decrypt (.bytes content) none ≠ .ok plaintext := nofun

/-- A receiver that uses no other key than its own opens its own boxes only. -/
theorem decrypt_own_iff {receiver : MeEncryptor Key} {sender : Key} {nonce : Nat}
    {other : MeEncryptor Key} {content plaintext : Bytes} :
    receiver.decrypt (.box sender other.publicKey nonce content) none = .ok plaintext ↔
      sender = receiver.signingKey ∧ other.signingKey = receiver.signingKey ∧
        content = plaintext := by
  have opens := Blob.openBox_box_iff receiver.signingKey sender receiver.publicKey
    other.publicKey nonce content plaintext
  have decrypts : receiver.decrypt (.box sender other.publicKey nonce content) none =
      .ok plaintext ↔ Blob.openBox receiver.signingKey receiver.publicKey
        (.box sender other.publicKey nonce content) = some plaintext := by
    simp only [MeEncryptor.decrypt, MeEncryptor.publicKeyGet, Option.getD_none]
    cases opened : Blob.openBox receiver.signingKey receiver.publicKey
        (.box sender other.publicKey nonce content) with
    | none => simp [opened]
    | some plain => simp [opened]
  rw [decrypts, opens]
  simp only [MeEncryptor.publicKey, Blob.publicKey.injEq]
  constructor
  · rintro ⟨⟨own, same⟩ | ⟨own, same⟩, equal⟩
    · exact ⟨own, same, equal⟩
    · exact ⟨own.symm, same, equal⟩
  · rintro ⟨own, same, equal⟩
    exact ⟨.inl ⟨own, same⟩, equal⟩

theorem unhexlify_verifyKey_iff {text : Blob Key} {holder : Key} :
    unhexlify text = .ok (.verifyKey holder) ↔ text = .hex (.verifyKey holder) := by
  cases text with
  | hex inner => simp [unhexlify, Blob.unhexlify]
  | bytes content =>
      cases decoded : Blob.unhexBytes content with
      | none => simp [unhexlify, Blob.unhexlify, decoded]
      | some raw => simp [unhexlify, Blob.unhexlify, decoded]
  | verifyKey key => simp [unhexlify, Blob.unhexlify]
  | publicKey key => simp [unhexlify, Blob.unhexlify]
  | signature signer data => simp [unhexlify, Blob.unhexlify]
  | box sender peer nonce data => simp [unhexlify, Blob.unhexlify]
  | sealedBox peer nonce data => simp [unhexlify, Blob.unhexlify]

theorem verify_eq_true_iff {self : MeEncryptor Key} {data : Bytes}
    {signature raw : Blob Key} :
    self.verify data signature (some raw) = .ok true ↔
      ∃ holder, raw = .verifyKey holder ∧ signature = .signature holder data := by
  simp only [MeEncryptor.verify, MeEncryptor.verifyKeyGet, keyOfBytes, bind_eq_ok_iff,
    ensure_eq_ok_iff, pure_eq_ok_iff]
  rw [← Blob.verifies_iff]
  constructor
  · rintro ⟨_, ⟨_, _, rfl⟩, _, _, accepted⟩
    exact accepted
  · intro accepted
    obtain ⟨holder, rfl, rfl⟩ := Blob.verifies_iff.mp accepted
    exact ⟨_, ⟨⟨⟩, rfl, rfl⟩, ⟨⟩, rfl, accepted⟩

theorem verifyFromThreebot_iff {client : ThreebotClient Key} {data : Bytes}
    {signature : Blob Key} (length : signature.length = 64) :
    client.verifyFromThreebot data signature = .ok () ↔
      signature = .signature client.key data := by
  have short : ¬ signature.length = 128 := by omega
  have accepts : Blob.verifies (.verifyKey client.key) data signature = true ↔
      signature = .signature client.key data := by
    rw [Blob.verifies_iff]
    constructor
    · rintro ⟨_, ⟨⟩, signed⟩
      exact signed
    · intro signed
      exact ⟨client.key, rfl, signed⟩
  rw [← accepts]
  simp [ThreebotClient.verifyFromThreebot, short, VerifyKey.verify, length, bind,
    Except.bind, ensure]

/-- Without a 3Bot, a message is taken when it can be read and the third part is
the signature of the key's holder over what was read. -/
theorem check_iff {receiver : MeEncryptor Key} {data : SignedData Key}
    {verifykeyHex : Blob Key} {back : MessageData} :
    tools.deserializeCheckDecrypt receiver format data verifykeyHex none = .ok back ↔
      ∃ content holder, receiver.decrypt data.data none = .ok content ∧
        tools.unserialize format (.binary content) = .ok back ∧
        verifykeyHex = .hex (.verifyKey holder) ∧
        data.signature = .signature holder content := by
  simp only [deserializeCheckDecrypt, bind_eq_ok_iff, ensure_eq_ok_iff, pure_eq_ok_iff]
  constructor
  · rintro ⟨_, _, content, decrypted, read, unserialized, raw, unhexed, answer, verified, _,
      accepted, rfl⟩
    rw [accepted] at verified
    obtain ⟨holder, rfl, signed⟩ := verify_eq_true_iff.mp verified
    exact ⟨content, holder, decrypted, unserialized, unhexlify_verifyKey_iff.mp unhexed, signed⟩
  · rintro ⟨content, holder, decrypted, unserialized, rfl, signed⟩
    exact ⟨⟨⟩, rfl, content, decrypted, back, unserialized, .verifyKey holder, rfl, true,
      verify_eq_true_iff.mpr ⟨holder, rfl, signed⟩, ⟨⟩, rfl, rfl⟩

/-- With a 3Bot, the given key itself is checked as a signature of that 3Bot,
and the third part is not looked at. -/
theorem check_threebot_iff {receiver : MeEncryptor Key} {data : SignedData Key}
    {verifykeyHex : Blob Key} {client : ThreebotClient Key} {back : MessageData} :
    tools.deserializeCheckDecrypt receiver format data verifykeyHex (some client) =
        .ok back ↔
      ∃ content, receiver.decrypt data.data none = .ok content ∧
        tools.unserialize format (.binary content) = .ok back ∧
        verifykeyHex = .signature client.key content := by
  simp only [deserializeCheckDecrypt, bind_eq_ok_iff, ensure_eq_ok_iff, pure_eq_ok_iff]
  constructor
  · rintro ⟨_, length, content, decrypted, read, unserialized, _, verified, rfl⟩
    exact ⟨content, decrypted, unserialized, (verifyFromThreebot_iff length).mp verified⟩
  · rintro ⟨content, decrypted, unserialized, rfl⟩
    exact ⟨⟨⟩, rfl, content, decrypted, back, unserialized, ⟨⟩,
      (verifyFromThreebot_iff rfl).mpr rfl, rfl⟩

/-! ## The exchange -/

/-- The receiver gets back what the sender signed and sent, with the public key
of the receiver or without one. -/
def Exchanges (tools : EncryptorTools) (sender receiver : MeEncryptor Key) (nonce : Nat)
    (format : SerializationFormat) (message : MessageData) (boxed : Bool) : Prop :=
  ∃ sent back,
    tools.serializeSignEncrypt sender nonce format message
      (if boxed then some receiver.publicKeyHex else none) none = .ok sent ∧
    tools.deserializeCheckDecrypt receiver format sent sender.verifyKeyHex none = .ok back ∧
    back.Same message

/-- Whatever is taken carries a signature of the holder of the given key over
what was read. -/
def TakesSignedOnly (tools : EncryptorTools) (receiver : MeEncryptor Key)
    (format : SerializationFormat) (data : SignedData Key) (verifykeyHex : Blob Key)
    (threebot : Option (ThreebotClient Key)) : Prop :=
  ∀ back, tools.deserializeCheckDecrypt receiver format data verifykeyHex threebot = .ok back →
    ∃ content holder, tools.unserialize format (.binary content) = .ok back ∧
      verifykeyHex = .hex (.verifyKey holder) ∧ data.signature = .signature holder content

variable {sender receiver : MeEncryptor Key} {nonce : Nat}

theorem plain_fails : ¬ tools.Exchanges sender receiver nonce format message false := by
  rintro ⟨sent, back, done, taken, _⟩
  obtain ⟨dumped, _, rfl⟩ := send_plain.mp done
  obtain ⟨content, _, decrypted, _⟩ := check_iff.mp taken
  exact decrypt_plain decrypted

/-- A boxed message reaches only a receiver with the keys of the sender. -/
theorem boxed_iff :
    tools.Exchanges sender receiver nonce format message true ↔
      sender.signingKey = receiver.signingKey ∧ tools.RoundTrips format message := by
  constructor
  · rintro ⟨sent, back, done, taken, same⟩
    obtain ⟨dumped, written, rfl⟩ := send_boxed.mp done
    obtain ⟨content, _, decrypted, read, _⟩ := check_iff.mp taken
    obtain ⟨own, _, rfl⟩ := decrypt_own_iff.mp decrypted
    rw [unserialize_encode written] at read
    exact ⟨own, dumped, back, written, read, same⟩
  · rintro ⟨own, dumped, back, written, read, same⟩
    refine ⟨_, back, send_boxed.mpr ⟨dumped, written, rfl⟩, ?_, same⟩
    apply check_iff.mpr
    refine ⟨dumped.encode, sender.signingKey, decrypt_own_iff.mpr ⟨own, rfl, rfl⟩, ?_, rfl, rfl⟩
    rw [unserialize_encode written]
    exact read

/-- The exchange succeeds for a sender that writes to itself with its own key,
and for nobody else; without a 3Bot a message is taken with a valid signature
only, with a 3Bot when the given key is itself a signature of that 3Bot. -/
theorem exchange_iff (tools : EncryptorTools) (sender receiver : MeEncryptor Key)
    (nonce : Nat) (format : SerializationFormat) (message : MessageData) (boxed : Bool)
    (supported : message.Supported tools.schemas format)
    (lossless : tools.Lossless format message)
    (data : SignedData Key) (verifykeyHex : Blob Key)
    (threebot : Option (ThreebotClient Key)) :
    (tools.Exchanges sender receiver nonce format message boxed ↔
      boxed = true ∧ sender.signingKey = receiver.signingKey ∧
        message.ReadsBack tools.codecs format) ∧
    (tools.TakesSignedOnly receiver format data verifykeyHex threebot ↔
      ∀ client, threebot = some client → ∀ content back,
        receiver.decrypt data.data none = .ok content →
        tools.unserialize format (.binary content) = .ok back →
        verifykeyHex ≠ .signature client.key content) := by
  constructor
  · rw [← message_returns_iff supported lossless]
    cases boxed with
    | false => simp [plain_fails]
    | true => simp [boxed_iff]
  · cases threebot with
    | none =>
        refine iff_of_true ?_ nofun
        intro back taken
        obtain ⟨content, holder, _, read, key, signed⟩ := check_iff.mp taken
        exact ⟨content, holder, read, key, signed⟩
    | some client =>
        constructor
        · rintro signedOnly _ ⟨⟩ content back decrypted read rfl
          obtain ⟨_, _, _, key, _⟩ :=
            signedOnly back (check_threebot_iff.mpr ⟨content, decrypted, read, rfl⟩)
          cases key
        · intro other back taken
          obtain ⟨content, decrypted, read, key⟩ := check_threebot_iff.mp taken
          exact absurd key (other client rfl content back decrypted read)

/-! ## Two identities and one number -/

def oneTools : EncryptorTools :=
  knowing (.ofList [] distinct_nil) [(.list [.int 1], "[1]")]

theorem one_supported :
    MessageData.Supported oneTools.schemas .json (.list [.value (.int 1)]) := by
  intro item member
  rw [List.mem_singleton.mp member]
  exact ⟨nofun, rfl⟩

theorem one_lossless : oneTools.Lossless .json (.list [.value (.int 1)]) :=
  single_lossless nofun rfl

theorem one_readsBack :
    MessageData.ReadsBack oneTools.codecs .json (.list [.value (.int 1)]) := by
  intro item member
  rw [List.mem_singleton.mp member]
  trivial

/-- An identity writes to itself. -/
theorem exchange_iff_oneself :
    oneTools.Exchanges (⟨true, 1⟩ : MeEncryptor Bool) ⟨true, 1⟩ 0 .json
      (.list [.value (.int 1)]) true :=
  (exchange_iff oneTools ⟨true, 1⟩ ⟨true, 1⟩ 0 .json (.list [.value (.int 1)]) true
    one_supported one_lossless ⟨1, .bytes [], .bytes []⟩ (.bytes []) none).1.mpr
      ⟨rfl, rfl, one_readsBack⟩

/-- Another identity cannot open what was sent to its public key. -/
theorem receiver_cannot_open :
    ¬ ∀ (tools : EncryptorTools) (sender receiver : MeEncryptor Bool) (nonce : Nat)
      (format : SerializationFormat) (message : MessageData) (boxed : Bool),
      message.Supported tools.schemas format → tools.Lossless format message →
        tools.RoundTrips format message →
          tools.Exchanges sender receiver nonce format message boxed := by
  intro claim
  have returns := (message_returns_iff one_supported one_lossless).mpr one_readsBack
  have reached := boxed_iff.mp
    (claim oneTools ⟨true, 1⟩ ⟨false, 2⟩ 0 .json _ true one_supported one_lossless returns)
  exact absurd reached.1 (by decide)

end EncryptorTools

end JumpscaleX
