import XiraNet.Identity.Accounts
import XiraNet.Lib.Bytes

/-!
# Secret box

`seal` and `open` of `identity/secret_box.rs`, and what `identity/users.rs` does with a box or
without one. AES-256-GCM and base64 come from other crates.

* `SecretBox.sealBytes_spec`: who opens a sealed text.
-/

namespace XiraNet

/-- `SecretBoxError`, the errors of `seal` and `open`. -/
inductive SecretBoxError
  | invalidCiphertext (message : String)
  | decryptionFailed (message : String)
  | encryptionFailed (message : String)
  deriving DecidableEq, Repr

/-- `VERSION`. -/
def boxVersion : UInt8 := 0x01

/-- `NONCE_LEN`. -/
def nonceLen : ℕ := 12

/-- The bytes that `seal` draws. -/
abbrev Nonce := {bytes : List UInt8 // bytes.length = nonceLen}

/-- The crates that `seal` and `open` use. The ciphertext includes the tag. -/
structure SecretCrates (Key : Type) where
  /-- `Aes256Gcm::encrypt` of a plaintext under a key and a nonce. -/
  encrypt : Key → List UInt8 → List UInt8 → Except String (List UInt8)
  /-- `Aes256Gcm::decrypt`. -/
  decrypt : Key → List UInt8 → List UInt8 → Except String (List UInt8)
  b64Encode : List UInt8 → String
  b64Decode : String → Except String (List UInt8)

/-- What is known of the crates: base64 is read back and no shorter than the bytes, and a
ciphertext is longer than the plaintext by its tag and is opened by its own key only. -/
structure SecretCrates.Lawful {Key : Type} (crates : SecretCrates Key) : Prop where
  decode_encode : ∀ bytes, crates.b64Decode (crates.b64Encode bytes) = .ok bytes
  length_encode : ∀ bytes, bytes.length ≤ (Utf8.encode (crates.b64Encode bytes)).length
  encrypt_ok : ∀ key nonce plaintext, ∃ ciphertext,
    crates.encrypt key nonce plaintext = .ok ciphertext ∧
      ciphertext.length = plaintext.length + 16 ∧
      crates.decrypt key nonce ciphertext = .ok plaintext ∧
      ∀ other, other ≠ key → ∃ e, crates.decrypt other nonce ciphertext = .error e

namespace SecretBox

variable {Key : Type} (crates : SecretCrates Key)

/-- `seal`, with the nonce that it draws. -/
def sealBytes (key : Key) (nonce : Nonce) (plaintext : List UInt8) : Except SecretBoxError String :=
  match crates.encrypt key nonce.1 plaintext with
  | .error e => .error (.encryptionFailed e)
  | .ok ciphertext => .ok (crates.b64Encode (boxVersion :: (nonce.1 ++ ciphertext)))

/-- `open`. -/
def openSealed (key : Key) (sealed : String) : Except SecretBoxError (List UInt8) :=
  match crates.b64Decode sealed with
  | .error e => .error (.invalidCiphertext e)
  | .ok buf =>
      if buf.length < 1 + nonceLen + 16 then .error (.invalidCiphertext "too short")
      else if buf.head? ≠ some boxVersion then
        .error (.invalidCiphertext ("unknown version 0x" ++ String.ofList (Hex.lower (buf.take 1))))
      else
        match crates.decrypt key ((buf.drop 1).take nonceLen) (buf.drop (1 + nonceLen)) with
        | .error e => .error (.decryptionFailed e)
        | .ok plaintext => .ok plaintext

variable {crates}

/-- What is sealed is opened by the same key, to what it was, and by no other key, and it is longer
than it was. -/
theorem sealBytes_spec (hcrates : crates.Lawful) (key : Key) (nonce : Nonce)
    (plaintext : List UInt8) :
    ∃ sealed, sealBytes crates key nonce plaintext = .ok sealed ∧
      openSealed crates key sealed = .ok plaintext ∧
      (∀ other, other ≠ key → ∃ e, openSealed crates other sealed = .error e) ∧
      plaintext.length < (Utf8.encode sealed).length := by
  obtain ⟨ciphertext, hencrypt, hlength, hdecrypt, hother⟩ :=
    hcrates.encrypt_ok key nonce.1 plaintext
  have hnonce : nonce.1.length = nonceLen := nonce.2
  have htake : (nonce.1 ++ ciphertext).take nonceLen = nonce.1 := List.take_left' hnonce
  have hdrop : (boxVersion :: (nonce.1 ++ ciphertext)).drop (1 + nonceLen) = ciphertext := by
    rw [Nat.add_comm, List.drop_succ_cons]
    exact List.drop_left' hnonce
  -- The box decides as the cipher does.
  have hopen : ∀ other, openSealed crates other
      (crates.b64Encode (boxVersion :: (nonce.1 ++ ciphertext))) =
        match crates.decrypt other nonce.1 ciphertext with
        | .error e => .error (.decryptionFailed e)
        | .ok plaintext => .ok plaintext := by
    intro other
    unfold openSealed
    rw [hcrates.decode_encode]
    dsimp only
    rw [if_neg, if_neg (by simp), List.drop_one, List.tail_cons, htake, hdrop]
    rw [List.length_cons, List.length_append, hnonce, hlength]
    omega
  refine ⟨_, by rw [sealBytes, hencrypt], ?_, fun other hne => ?_, ?_⟩
  · rw [hopen, hdecrypt]
  · obtain ⟨e, he⟩ := hother other hne
    exact ⟨.decryptionFailed e, by rw [hopen, he]⟩
  · have hbytes := hcrates.length_encode (boxVersion :: (nonce.1 ++ ciphertext))
    rw [List.length_cons, List.length_append, hlength] at hbytes
    omega

end SecretBox

section Users

variable {Key : Type} (crates : SecretCrates Key)

/-- `encrypt_mfa_secret` of a secret, with a box or without. -/
def SecretBox.encryptMfaSecret (secrets : Option Key) (nonce : Nonce) (plain : String) : String :=
  match secrets with
  | some key =>
      match SecretBox.sealBytes crates key nonce (Utf8.encode plain) with
      | .ok sealed => sealed
      | .error _ => plain
  | none => plain

/-- What a user store with these secrets writes with. -/
def UserLib.withSecrets (lib : UserLib) (secrets : Option Key) (nonce : Nonce) : UserLib :=
  { lib with encryptMfaSecret := SecretBox.encryptMfaSecret crates secrets nonce }

/-- What a user store with these secrets reads with. Without a box nothing is opened. -/
def UserLoader.withSecrets (loader : UserLoader) (secrets : Option Key) : UserLoader :=
  { loader with
    openSecret := fun stored =>
      match secrets with
      | some key =>
          match SecretBox.openSealed crates key stored with
          | .ok bytes => some (Utf8.decode bytes)
          | .error _ => none
      | none => none }

end Users

end XiraNet
