import JumpscaleX.EncryptorTools
import JumpscaleX.Library.IdealNacl

/-!
# Signing and encrypting as an identity

`MeEncryptor` with the keys of one identity, the client of another 3Bot, and
the signed exchange of `EncryptorTools` that is built from both.
-/

namespace JumpscaleX

open Fallible TextBytes IdealNacl

/-- The encryptor of an identity.  All its keys derive from the signing key. -/
structure MeEncryptor (Key : Type) where
  signingKey : Key
  tid : Nat

/-- The client of a 3Bot, with the key that is registered for it. -/
structure ThreebotClient (Key : Type) where
  key : Key
  tid : Nat

/-- `nacl.public.PublicKey` and `nacl.signing.VerifyKey` of raw bytes. -/
def keyOfBytes {Key : Type} (raw : Blob Key) : Except Exn (Blob Key) := do
  ensure (raw.length = 32) (.valueError "The key must be exactly 32 bytes long")
  return raw

/-- `binascii.unhexlify`. -/
def unhexlify {Key : Type} (text : Blob Key) : Except Exn (Blob Key) :=
  match text.unhexlify with
  | some raw => .ok raw
  | none => .error (.valueError "Non-hexadecimal digit found")

/-- `VerifyKey.verify`. -/
def VerifyKey.verify {Key : Type} [DecidableEq Key] (key : Blob Key) (data : Bytes)
    (signature : Blob Key) : Except Exn Unit := do
  ensure (signature.length = 64) (.valueError "The signature must be exactly 64 bytes long")
  ensure (key.verifies data signature = true)
    (.base "Signature was forged or corrupt")

namespace MeEncryptor

variable {Key : Type}

def verifyKey (self : MeEncryptor Key) : Blob Key :=
  .verifyKey self.signingKey

def publicKey (self : MeEncryptor Key) : Blob Key :=
  .publicKey self.signingKey

def verifyKeyHex (self : MeEncryptor Key) : Blob Key :=
  .hex self.verifyKey

def publicKeyHex (self : MeEncryptor Key) : Blob Key :=
  .hex self.publicKey

/-- `_public_key_get`. -/
def publicKeyGet (self : MeEncryptor Key) (publicKey : Option (Blob Key)) : Blob Key :=
  publicKey.getD self.publicKey

/-- `_verify_key_get`, for raw bytes. -/
def verifyKeyGet (self : MeEncryptor Key) (verifyKey : Option (Blob Key)) :
    Except Exn (Blob Key) :=
  match verifyKey with
  | some raw => keyOfBytes raw
  | none => .ok self.verifyKey

def sign (self : MeEncryptor Key) (data : Bytes) : Blob Key :=
  .signature self.signingKey data

def encrypt (self : MeEncryptor Key) (nonce : Nat) (plaintext : Bytes)
    (publicKey : Option (Blob Key)) : Blob Key :=
  .box self.signingKey (self.publicKeyGet publicKey) nonce plaintext

variable [DecidableEq Key]

def decrypt (self : MeEncryptor Key) (ciphertext : Blob Key)
    (publicKey : Option (Blob Key)) : Except Exn Bytes :=
  match Blob.openBox self.signingKey (self.publicKeyGet publicKey) ciphertext with
  | some plaintext => .ok plaintext
  | none => .error (.base "An error occurred trying to decrypt the message")

/-- `verify`: a forged signature is answered with `False`. -/
def verify (self : MeEncryptor Key) (data : Bytes) (signature : Blob Key)
    (verifyKey : Option (Blob Key)) : Except Exn Bool := do
  let key ← self.verifyKeyGet verifyKey
  ensure (signature.length = 64) (.valueError "The signature must be exactly 64 bytes long")
  return key.verifies data signature

end MeEncryptor

namespace ThreebotClient

variable {Key : Type}

def encryptForThreebot (client : ThreebotClient Key) (nonce : Nat) (data : Bytes) :
    Blob Key :=
  .sealedBox (.publicKey client.key) nonce data

variable [DecidableEq Key]

def verifyFromThreebot (client : ThreebotClient Key) (data : Bytes)
    (signature : Blob Key) : Except Exn Unit := do
  let raw ← if signature.length = 128 then unhexlify signature else .ok signature
  VerifyKey.verify (.verifyKey client.key) data raw

end ThreebotClient

/-- The list `[3botid, serializeddata, signature]`. -/
structure SignedData (Key : Type) where
  tid : Nat
  data : Blob Key
  signature : Blob Key

namespace EncryptorTools

variable {Key : Type}

/-- `_serialize_sign_encrypt`.  An empty key counts as none. -/
def serializeSignEncrypt (tools : EncryptorTools) (encryptor : MeEncryptor Key)
    (nonce : Nat) (format : SerializationFormat) (data : MessageData)
    (pubkeyHex : Option (Blob Key)) (threebot : Option (ThreebotClient Key)) :
    Except Exn (SignedData Key) := do
  let dumped ← tools.serialize format data
  let data2 := dumped.encode
  let signature := encryptor.sign data2
  match threebot with
  | some client =>
      return { tid := client.tid
               data := client.encryptForThreebot nonce data2
               signature := signature }
  | none =>
      match pubkeyHex.filter (fun text => text.length ≠ 0) with
      | some text =>
          ensure (text.length = 64) .assertionError
          let raw ← unhexlify text
          let pubkey ← keyOfBytes raw
          return { tid := encryptor.tid
                   data := encryptor.encrypt nonce data2 (some pubkey)
                   signature := signature }
      | none =>
          return { tid := encryptor.tid, data := .bytes data2, signature := signature }

variable [DecidableEq Key]

/-- `_deserialize_check_decrypt`. -/
def deserializeCheckDecrypt (tools : EncryptorTools) (encryptor : MeEncryptor Key)
    (format : SerializationFormat) (data : SignedData Key) (verifykeyHex : Blob Key)
    (threebot : Option (ThreebotClient Key)) : Except Exn MessageData := do
  ensure (verifykeyHex.length = 64) .assertionError
  let dataDecSer ← encryptor.decrypt data.data none
  let dataDec ← tools.unserialize format (.binary dataDecSer)
  match threebot with
  | some client => client.verifyFromThreebot dataDecSer verifykeyHex
  | none =>
      let verifyKey ← unhexlify verifykeyHex
      let signIsOk ← encryptor.verify dataDecSer data.signature (some verifyKey)
      ensure (signIsOk = true) (.base "could not verify signature")
  return dataDec

end EncryptorTools

end JumpscaleX
