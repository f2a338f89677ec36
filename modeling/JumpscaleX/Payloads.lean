import JumpscaleX.MeEncryptor
import JumpscaleX.MessageRoundTrip

/-!
# Signed payloads

`payload_build` writes its arguments one behind the other into a buffer, with
nothing between them; `payload_sign` signs the buffer.
-/

namespace JumpscaleX

open Fallible TextBytes IdealNacl

/-- What the payload functions use of the language: json, and `str` of a
float. -/
structure PayloadEncoding where
  codecs : Codecs
  floatStr : Rat → String

namespace PayloadEncoding

/-- The bytes that one argument writes.  The json of an object is a text, and a
text cannot be written to a `BytesIO`. -/
def item (encoding : PayloadEncoding) : Item → Except Exn Bytes
  | .value (.str text) => .ok (utf8 text)
  | .value (.int value) => .ok (utf8 (toString value))
  | .value (.bool value) => .ok (utf8 (if value then "True" else "False"))
  | .value (.float value) => .ok (utf8 (encoding.floatStr value))
  | .value (.bytes content) => .ok (content.map UInt8.ofNat)
  | .jsx obj => do
      let _ ← obj.json encoding.codecs
      throw (.typeError "a bytes-like object is required, not 'str'")
  | .jsdict data => utf8 <$> SerializerUJson.dumps encoding.codecs data
  | .value .none => .error (.input (.other "should not be None"))
  | .value value => utf8 <$> SerializerUJson.dumps encoding.codecs value

/-- `buffer.write(item)` for one argument after the other. -/
def write (encoding : PayloadEncoding) (buffer : Bytes) (args : List Item) :
    Except Exn Bytes :=
  args.foldlM (fun buffer arg => do
    let content ← encoding.item arg
    return buffer ++ content) buffer

/-- `payload_build`. -/
def payloadBuild (encoding : PayloadEncoding) (args : List Item) : Except Exn Bytes :=
  encoding.write [] args

variable {Key : Type}

/-- `payload_sign`, with the encryptor of the author. -/
def payloadSign (encoding : PayloadEncoding) (nacl : MeEncryptor Key)
    (args : List Item) : Except Exn (Blob Key) := do
  let payload ← encoding.payloadBuild args
  return .hex (nacl.sign payload)

/-- `payload_verify`.  There is no method `_verifykey_obj_get`. -/
def payloadVerify (encoding : PayloadEncoding) (args : List Item)
    (verifykey signature : Option (Blob Key)) : Except Exn Bool := do
  let _ ← encoding.payloadBuild args
  match signature, verifykey with
  | some signature, some _ =>
      ensure (signature.length = 64 ∨ signature.length = 128) .assertionError
      throw (.attributeError "_verifykey_obj_get")
  | _, _ => throw .assertionError

/-! ## What a payload covers -/

variable {encoding : PayloadEncoding}

/-- The payloads of two lists of arguments are joined without a mark. -/
theorem payloadBuild_append (first second : List Item) :
    encoding.payloadBuild (first ++ second) =
      encoding.payloadBuild first >>= fun buffer => encoding.write buffer second := by
  rw [payloadBuild, write, List.foldlM_append]
  rfl

/-- An empty text leaves no trace behind other arguments. -/
theorem payloadBuild_empty (args : List Item) :
    encoding.payloadBuild (args ++ [.value (.str "")]) = encoding.payloadBuild args := by
  rw [payloadBuild_append]
  cases encoding.payloadBuild args with
  | error problem => rfl
  | ok payload =>
      have nothing : utf8 "" = [] := by decide
      simp [write, item, nothing, bind, Except.bind, pure, Except.pure]

/-- The boundary between two texts can be moved. -/
theorem payloadBuild_boundary (earlier later : List Item) (first second : String) :
    encoding.payloadBuild (earlier ++ .value (.str first) :: .value (.str second) :: later) =
      encoding.payloadBuild (earlier ++ .value (.str (first ++ second)) :: later) := by
  rw [payloadBuild_append, payloadBuild_append]
  cases encoding.payloadBuild earlier with
  | error problem => rfl
  | ok payload =>
      simp [write, item, bind, Except.bind, pure, Except.pure]

/-- A payload with an object among its arguments is never built. -/
theorem payloadBuild_object {args : List Item} {obj : JSXObject}
    (member : .jsx obj ∈ args) (payload : Bytes) :
    encoding.payloadBuild args ≠ .ok payload := by
  obtain ⟨earlier, later, rfl⟩ := List.append_of_mem member
  rw [payloadBuild_append]
  intro built
  rw [bind_eq_ok_iff] at built
  obtain ⟨buffer, _, written⟩ := built
  simp only [write, List.foldlM_cons, item, bind_eq_ok_iff] at written
  obtain ⟨_, ⟨_, ⟨_, _, impossible⟩, _⟩, _⟩ := written
  cases impossible

/-- `payload_verify` accepts nothing. -/
theorem payloadVerify_fails (args : List Item) (verifykey signature : Option (Blob Key))
    (answer : Bool) : encoding.payloadVerify args verifykey signature ≠ .ok answer := by
  intro verified
  unfold payloadVerify at verified
  rw [bind_eq_ok_iff] at verified
  obtain ⟨_, _, verified⟩ := verified
  cases signature with
  | none => cases verified
  | some signature =>
      cases verifykey with
      | none => cases verified
      | some verifykey =>
          rw [bind_eq_ok_iff] at verified
          obtain ⟨_, _, impossible⟩ := verified
          cases impossible

/-- The payload is built, and no other arguments build the same one. -/
def CoversExactly (encoding : PayloadEncoding) (args : List Item) : Prop :=
  (∃ payload, encoding.payloadBuild args = .ok payload) ∧
    ∀ other, encoding.payloadBuild other = encoding.payloadBuild args →
      List.Forall₂ Item.Same other args

/-- No payload covers exactly its arguments, and every signature stands for
other arguments as well. -/
theorem payload_covers_never (encoding : PayloadEncoding) (nacl : MeEncryptor Key)
    (args : List Item) :
    ¬ encoding.CoversExactly args ∧
      ∃ other, ¬ List.Forall₂ Item.Same other args ∧
        encoding.payloadSign nacl other = encoding.payloadSign nacl args := by
  have longer : ¬ List.Forall₂ Item.Same (args ++ [.value (.str "")]) args := by
    intro same
    have length := same.length_eq
    simp at length
  constructor
  · rintro ⟨_, only⟩
    exact longer (only _ (payloadBuild_empty args))
  · refine ⟨args ++ [.value (.str "")], longer, ?_⟩
    rw [payloadSign, payloadSign, payloadBuild_empty]

/-- The arguments ab, c and a, bc have one payload. -/
theorem payload_boundary_moved :
    ¬ ∀ (encoding : PayloadEncoding) (first second : List Item) (payload : Bytes),
      encoding.payloadBuild first = .ok payload → encoding.payloadBuild second = .ok payload →
        List.Forall₂ Item.Same first second := by
  intro claim
  let encoding : PayloadEncoding := ⟨(EncryptorTools.knowing (.ofList [] (by decide)) []).codecs,
    fun _ => "0.0"⟩
  have same := claim encoding [.value (.str "ab"), .value (.str "c")]
    [.value (.str "a"), .value (.str "bc")] (utf8 "abc") rfl rfl
  cases same with
  | cons first _ =>
      have equal : PyVal.str "ab" = PyVal.str "a" := first
      exact absurd equal (by decide)

end PayloadEncoding

end JumpscaleX
