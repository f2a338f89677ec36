import JumpscaleX.Library.TextBytes

/-!
# Ideal boxes and signatures

Byte strings as ideal cryptography sees them: what was signed, boxed or derived
from a key is a term of its own, which opens or verifies under the matching
keys only.  Plain bytes are the key, the signature or the box of nobody.
-/

namespace IdealNacl

open TextBytes

inductive Blob (Key : Type) where
  | bytes (content : Bytes)
  | verifyKey (key : Key)
  | publicKey (key : Key)
  | signature (signer : Key) (data : Bytes)
  | box (sender : Key) (peer : Blob Key) (nonce : Nat) (data : Bytes)
  | sealedBox (peer : Blob Key) (nonce : Nat) (data : Bytes)
  | hex (content : Blob Key)
  deriving DecidableEq

namespace Blob

variable {Key : Type}

/-- The number of bytes.  A box adds a nonce and an authenticator, a sealed one
a key and an authenticator. -/
def length : Blob Key → Nat
  | .bytes content => content.length
  | .verifyKey _ | .publicKey _ => 32
  | .signature _ _ => 64
  | .box _ _ _ data => data.length + 40
  | .sealedBox _ _ data => data.length + 48
  | .hex content => 2 * content.length

def hexDigit (byte : UInt8) : Option Nat :=
  if 48 ≤ byte.toNat ∧ byte.toNat ≤ 57 then some (byte.toNat - 48)
  else if 97 ≤ byte.toNat ∧ byte.toNat ≤ 102 then some (byte.toNat - 87)
  else if 65 ≤ byte.toNat ∧ byte.toNat ≤ 70 then some (byte.toNat - 55)
  else none

def unhexBytes : Bytes → Option Bytes
  | [] => some []
  | [_] => none
  | high :: low :: rest => do
      let first ← hexDigit high
      let second ← hexDigit low
      let content ← unhexBytes rest
      return UInt8.ofNat (16 * first + second) :: content

/-- `binascii.unhexlify`. -/
def unhexlify : Blob Key → Option (Blob Key)
  | .hex content => some content
  | .bytes content => .bytes <$> unhexBytes content
  | _ => none

variable [DecidableEq Key]

/-- The box of a private key with a public key opens what the same pair, from
either side, has closed. -/
def openBox (receiver : Key) (peer : Blob Key) : Blob Key → Option Bytes
  | .box sender other _ data =>
      if sender = receiver ∧ other = peer ∨
          peer = .publicKey sender ∧ other = .publicKey receiver then
        some data
      else none
  | _ => none

/-- The signature was made with the key for exactly these bytes. -/
def verifies (key : Blob Key) (data : Bytes) (signature : Blob Key) : Bool :=
  match key, signature with
  | .verifyKey holder, .signature signer signed =>
      decide (signer = holder ∧ signed = data)
  | _, _ => false

theorem verifies_iff {key signature : Blob Key} {data : Bytes} :
    verifies key data signature = true ↔
      ∃ holder, key = .verifyKey holder ∧ signature = .signature holder data := by
  constructor
  · intro accepted
    cases key with
    | verifyKey holder =>
        cases signature with
        | signature signer signed =>
            obtain ⟨rfl, rfl⟩ := of_decide_eq_true accepted
            exact ⟨signer, rfl, rfl⟩
        | _ => cases accepted
    | _ => cases accepted
  · rintro ⟨holder, rfl, rfl⟩
    exact decide_eq_true ⟨rfl, rfl⟩

/-- What is sent to a public key is opened by its holder alone, and by the
sender. -/
theorem openBox_box_iff (receiver sender : Key) (peer other : Blob Key) (nonce : Nat)
    (data content : Bytes) :
    openBox receiver peer (.box sender other nonce data) = some content ↔
      (sender = receiver ∧ other = peer ∨
        peer = .publicKey sender ∧ other = .publicKey receiver) ∧ data = content := by
  rw [openBox]
  split
  · rename_i pair
    simp [pair]
  · rename_i pair
    simp [pair]

end Blob

end IdealNacl
