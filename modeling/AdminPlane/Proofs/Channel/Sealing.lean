import AdminPlane.Channel.Frame
import AdminPlane.Proofs.Channel.Counter

namespace AdminPlane.Channel

namespace Gcm

variable (cipher : Block → Block) (nonce : Nonce)

theorem nonceOf_append (nonce : Nonce) (rest : List UInt8) :
    nonceOf (nonce.toList ++ rest) = nonce := by
  apply Vector.ext
  intro i hi
  simp [nonceOf, List.getElem?_append]

theorem toList_nonceOf (sealed : List UInt8) (h : nonceSize ≤ sealed.length) :
    (nonceOf sealed).toList = sealed.take nonceSize := by
  unfold nonceSize at h ⊢
  apply List.ext_getElem
  · simp
    omega
  · intro i hi hj
    have hi : i < 12 := by simpa using hi
    have hs : i < sealed.length := by omega
    simp [nonceOf, hs]

theorem length_tag (ciphertext : List UInt8) :
    (tag cipher nonce ciphertext).length = tagSize := by
  simp [tag, Ghash.toBytes, tagSize]

theorem length_sealWith (plain : List UInt8) :
    (sealWith cipher nonce plain).length = nonceSize + plain.length + tagSize := by
  simp [sealWith, length_tag, Ctr.length_crypt, nonceSize, Nat.add_assoc]

theorem openWith_sealWith (plain : List UInt8) :
    openWith cipher (sealWith cipher nonce plain) = some plain := by
  let ciphertext := Ctr.crypt cipher nonce plain
  have hl := length_sealWith cipher nonce plain
  have hn : nonceOf (sealWith cipher nonce plain) = nonce := by
    rw [sealWith, List.append_assoc]
    exact nonceOf_append nonce _
  have hb : (sealWith cipher nonce plain).drop nonceSize =
      ciphertext ++ tag cipher nonce ciphertext := by
    rw [sealWith, List.append_assoc]
    exact List.drop_left' (by simp [nonceSize])
  have hc : (ciphertext ++ tag cipher nonce ciphertext).length - tagSize = ciphertext.length := by
    simp [length_tag]
  rw [openWith, if_neg (by omega)]
  simp only [hn, hb, hc, List.take_left, List.drop_left, if_true]
  rw [Ctr.crypt_crypt]

/-- What opens is the seal of what comes out, under the nonce it begins with. -/
theorem eq_sealWith_of_openWith {sealed plain : List UInt8}
    (h : openWith cipher sealed = some plain) :
    nonceSize + tagSize ≤ sealed.length ∧ sealed = sealWith cipher (nonceOf sealed) plain := by
  unfold openWith at h
  split at h
  · cases h
  · rename_i hl
    have hle : nonceSize + tagSize ≤ sealed.length := by omega
    dsimp only at h
    split at h
    · rename_i ht
      have hp := Option.some.inj h
      subst plain
      refine ⟨hle, ?_⟩
      rw [sealWith, Ctr.crypt_crypt, ← ht, toList_nonceOf sealed (by omega), List.append_assoc,
        List.take_append_drop, List.take_append_drop]
    · cases h

end Gcm

namespace Key

variable (key : Key)

theorem decrypt_encrypt (nonce : Nonce) (plain : List UInt8) :
    key.decrypt (key.encrypt nonce plain) = .ok plain := by
  simp [decrypt, encrypt, Gcm.openWith_sealWith]

theorem decrypt_eq_ok {sealed plain : List UInt8} (h : key.decrypt sealed = .ok plain) :
    nonceSize + tagSize ≤ sealed.length ∧ sealed = key.encrypt (Gcm.nonceOf sealed) plain := by
  unfold decrypt at h
  dsimp only at h
  split at h
  · cases h
  · rename_i p hp
    cases h
    exact Gcm.eq_sealWith_of_openWith _ hp

theorem decrypt_error {sealed : List UInt8} {e : OpenError} (h : key.decrypt sealed = .error e) :
    e = .authentication := by
  unfold decrypt at h
  dsimp only at h
  split at h
  · cases h
    rfl
  · cases h

theorem length_encrypt (nonce : Nonce) (plain : List UInt8) :
    (key.encrypt nonce plain).length = nonceSize + plain.length + tagSize :=
  Gcm.length_sealWith _ nonce plain

theorem length_sealFrame (nonce : Nonce) (frame : Frame) :
    (key.sealFrame nonce frame).length = minSealedFrameSize + frame.payload.length := by
  simp [sealFrame, length_encrypt, Frame.encode, minSealedFrameSize]
  omega

theorem openFrame_sealFrame (nonce : Nonce) (frame : Frame) :
    key.openFrame (key.sealFrame nonce frame) = .ok frame := by
  have hl := key.length_sealFrame nonce frame
  rw [openFrame, if_neg (by omega), sealFrame, decrypt_encrypt]
  rfl

/-- A plaintext of 29 sealed bytes has one byte at least, so it is a frame. -/
theorem eq_sealFrame_of_openFrame {sealed : List UInt8} {frame : Frame}
    (h : key.openFrame sealed = .ok frame) :
    minSealedFrameSize ≤ sealed.length ∧ sealed = key.sealFrame (Gcm.nonceOf sealed) frame := by
  unfold openFrame at h
  split at h
  · cases h
  · rename_i hl
    cases hd : key.decrypt sealed with
    | error e =>
      rw [hd] at h
      cases h
    | ok plain =>
      rw [hd] at h
      refine ⟨by omega, ?_⟩
      cases plain with
      | nil => cases h
      | cons type payload =>
        cases h
        exact (key.decrypt_eq_ok hd).2

theorem openFrame_error {sealed : List UInt8} {e : OpenError}
    (h : key.openFrame sealed = .error e) : e = .authentication := by
  unfold openFrame at h
  split at h
  · cases h
    rfl
  · rename_i hl
    cases hd : key.decrypt sealed with
    | error e' =>
      rw [hd] at h
      cases h
      exact key.decrypt_error hd
    | ok plain =>
      rw [hd] at h
      cases plain with
      | nil =>
        -- The seal of an empty plaintext is one byte too short to get here.
        have hs := (key.decrypt_eq_ok hd).2
        have hlen := congrArg List.length hs
        rw [length_encrypt] at hlen
        simp [minSealedFrameSize] at hl hlen
        omega
      | cons type payload => cases h

/-- What was encrypted opens to the frame that it is. Nothing at all is no frame, and its seal is one
byte too short to be told from others that do not open. -/
theorem openFrame_encrypt (nonce : Nonce) (plain : List UInt8) :
    key.openFrame (key.encrypt nonce plain) =
      if plain = [] then .error .authentication else Frame.decode plain := by
  have hl := key.length_encrypt nonce plain
  cases plain with
  | nil =>
    rw [openFrame, hl]
    rfl
  | cons type payload =>
    have hlong : ¬ (key.encrypt nonce (type :: payload)).length < minSealedFrameSize := by
      rw [hl, List.length_cons, minSealedFrameSize]
      omega
    rw [openFrame, if_neg hlong, decrypt_encrypt, if_neg (List.cons_ne_nil type payload)]
    rfl

/-- Ciphertext and tag of a plaintext under AES-256 in Galois counter mode, with no associated
data. -/
def ciphertextAndTag (nonce : Nonce) (plain : List UInt8) : List UInt8 :=
  let cipher := Aes.encrypt (Aes.schedule key.bytes)
  let ciphertext := Ctr.crypt cipher nonce plain
  ciphertext ++ Gcm.tag cipher nonce ciphertext

theorem sealFrame_eq_append (nonce : Nonce) (frame : Frame) :
    key.sealFrame nonce frame = nonce.toList ++ key.ciphertextAndTag nonce frame.encode := by
  simp [sealFrame, encrypt, Gcm.sealWith, ciphertextAndTag]

/-- A frame comes out of exactly its own seals; nothing else is told apart. -/
theorem openFrame_exact (s : List UInt8) :
    (∀ frame, key.openFrame s = .ok frame ↔
      29 ≤ s.length ∧ ∃ nonce : Nonce, nonce.toList = s.take 12 ∧
        s = s.take 12 ++ key.ciphertextAndTag nonce frame.encode) ∧
    (∀ frame nonce, key.openFrame s = .ok frame → nonce.toList = s.take 12 →
      key.sealFrame nonce frame = s) ∧
    ((∀ frame, key.openFrame s ≠ .ok frame) → key.openFrame s = .error .authentication) := by
  refine ⟨?_, ?_, ?_⟩
  · intro frame
    constructor
    · intro h
      obtain ⟨hl, hs⟩ := key.eq_sealFrame_of_openFrame h
      have hn := Gcm.toList_nonceOf s (Nat.le_trans (by decide) hl)
      refine ⟨hl, Gcm.nonceOf s, hn, ?_⟩
      rw [← show _ = s.take 12 from hn, ← sealFrame_eq_append]
      exact hs
    · rintro ⟨_, nonce, hn, hs⟩
      rw [← hn, ← sealFrame_eq_append] at hs
      rw [hs]
      exact key.openFrame_sealFrame nonce frame
  · intro frame nonce h hn
    obtain ⟨hl, hs⟩ := key.eq_sealFrame_of_openFrame h
    have hnonce : nonce = Gcm.nonceOf s := by
      apply Vector.toList_inj.mp
      rw [hn, Gcm.toList_nonceOf s (Nat.le_trans (by decide) hl)]
      rfl
    rw [hnonce]
    exact hs.symm
  · intro h
    cases ho : key.openFrame s with
    | ok frame => exact absurd ho (h frame)
    | error e => rw [key.openFrame_error ho]

/-- Sealing adds a nonce in front and a tag behind, and opening takes them off again, whatever the
nonce and however long the payload. Any plaintext comes back from decryption, a frame or not. -/
theorem sealed_opens (nonce : Nonce) :
    (∀ (type : UInt8) (payload : List UInt8),
      let sealed := key.sealFrame nonce ⟨type, payload⟩
      sealed.length = 29 + payload.length ∧ sealed.take 12 = nonce.toList ∧
        key.openFrame sealed = .ok ⟨type, payload⟩) ∧
    ∀ plain : List UInt8, key.decrypt (key.encrypt nonce plain) = .ok plain ∧
      key.openFrame (key.encrypt nonce plain) =
        if plain = [] then .error .authentication else Frame.decode plain := by
  refine ⟨fun type payload => ⟨?_, ?_, ?_⟩, fun plain => ⟨?_, ?_⟩⟩
  · exact key.length_sealFrame nonce ⟨type, payload⟩
  · rw [sealFrame_eq_append]
    exact List.take_left' (by simp)
  · exact key.openFrame_sealFrame nonce ⟨type, payload⟩
  · exact key.decrypt_encrypt nonce plain
  · exact key.openFrame_encrypt nonce plain

end Key

end AdminPlane.Channel
