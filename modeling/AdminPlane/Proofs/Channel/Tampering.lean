import AdminPlane.Proofs.Channel.Bits
import AdminPlane.Proofs.Channel.Evaluation
import AdminPlane.Proofs.Channel.Rounds
import AdminPlane.Proofs.Channel.Sealing

namespace AdminPlane.Channel

theorem counterBlock_injective (n : UInt32) : Function.Injective (counterBlock · n) := by
  intro nonce nonce' h
  apply Vector.ext
  intro i hi
  have hlong : i < 16 := by omega
  have hbyte := congrArg (fun block : Block => block[i]) h
  simpa [counterBlock, Aes.blockOf, List.getElem?_append, hi] using hbyte

section Xor

variable {as bs cs : List UInt8}

theorem zipWith_xor_left_injective (hb : as.length = bs.length) (hc : as.length = cs.length)
    (h : List.zipWith (· ^^^ ·) as bs = List.zipWith (· ^^^ ·) as cs) : bs = cs := by
  apply List.ext_getElem (hb.symm.trans hc)
  intro i hi hj
  have ha : i < as.length := by omega
  have hbyte := congrArg (·[i]?) h
  simpa [List.getElem?_zipWith, ha, hi, hj] using hbyte

theorem zipWith_xor_right_injective (hb : as.length = bs.length) (hc : as.length = cs.length)
    (h : List.zipWith (· ^^^ ·) bs as = List.zipWith (· ^^^ ·) cs as) : bs = cs := by
  have hswap (l : List UInt8) : List.zipWith (· ^^^ ·) as l = List.zipWith (· ^^^ ·) l as :=
    List.zipWith_comm_of_comm UInt8.xor_comm
  apply zipWith_xor_left_injective hb hc
  rw [hswap, hswap, h]

end Xor

namespace Gcm

variable {cipher : Block → Block}

theorem digest_flip_ne {h : Ghash.Element} (hh : h ≠ 0) {ciphertext : List UInt8} {p : Nat}
    (hp : p < 8 * ciphertext.length) :
    digest h (flip ciphertext p) ≠ digest h ciphertext := by
  obtain ⟨pre, a, post, j, hj, hplain, hflip⟩ :=
    Ghash.map_pieces_flip (length_split ciphertext) hp
  rw [digest, digest, split, split, length_flip, hplain, hflip, List.append_assoc,
    List.append_assoc]
  exact Ghash.hash_ne hh hj pre _

/-- No two nonces have one counter block, and the cipher takes no two blocks to one. -/
theorem tag_injective (hcipher : Function.Injective cipher) (ciphertext : List UInt8) :
    Function.Injective (tag cipher · ciphertext) := by
  intro nonce nonce' h
  have hblock := zipWith_xor_left_injective (by simp [Ghash.toBytes]) (by simp [Ghash.toBytes]) h
  exact counterBlock_injective 1 (hcipher (Vector.toList_inj.mp hblock))

theorem digest_eq_of_tag_eq {nonce : Nonce} {c d : List UInt8}
    (h : tag cipher nonce c = tag cipher nonce d) :
    digest (subkey cipher) c = digest (subkey cipher) d :=
  Ghash.toBytes_injective
    (zipWith_xor_right_injective (by simp [Ghash.toBytes]) (by simp [Ghash.toBytes]) h)

/-- One tag is let pass behind a nonce and a ciphertext. -/
theorem openWith_append_eq_none {nonce : Nonce} {ciphertext code : List UInt8}
    (hsize : code.length = tagSize) (h : code ≠ tag cipher nonce ciphertext) :
    openWith cipher (nonce.toList ++ (ciphertext ++ code)) = none := by
  have hlong : ¬ (nonce.toList ++ (ciphertext ++ code)).length < nonceSize + tagSize := by
    rw [List.length_append, List.length_append, hsize, Vector.length_toList, nonceSize]
    omega
  have hbody : (nonce.toList ++ (ciphertext ++ code)).drop nonceSize = ciphertext ++ code :=
    List.drop_left' (by simp [nonceSize])
  have hsplit : (ciphertext ++ code).length - tagSize = ciphertext.length := by
    rw [List.length_append, hsize, Nat.add_sub_cancel]
  rw [openWith, if_neg hlong]
  simp only [nonceOf_append, hbody, hsplit, List.take_left, List.drop_left]
  rw [if_neg h]

variable (nonce : Nonce) (plain : List UInt8)

theorem sealWith_eq_append : sealWith cipher nonce plain = nonce.toList ++
    (Ctr.crypt cipher nonce plain ++ tag cipher nonce (Ctr.crypt cipher nonce plain)) :=
  List.append_assoc _ _ _

theorem openWith_flips_nonce (hcipher : Function.Injective cipher) {positions : List Nat}
    (hne : positions ≠ []) (hnodup : positions.Nodup) (h : ∀ p ∈ positions, p < 8 * nonceSize) :
    openWith cipher (flips (sealWith cipher nonce plain) positions) = none := by
  have hplace : ∀ p ∈ positions, p < 8 * nonce.toList.length := by
    rwa [Vector.length_toList]
  obtain ⟨nonce', hnonce'⟩ : ∃ nonce' : Nonce, nonce'.toList = flips nonce.toList positions := by
    have hsize : (flips nonce.toList positions).length = 12 := by simp
    exact ⟨⟨(flips nonce.toList positions).toArray, hsize⟩, rfl⟩
  have hother : nonce ≠ nonce' := by
    rintro rfl
    exact flips_ne nonce.toList hne hnodup hplace hnonce'.symm
  rw [sealWith_eq_append, flips_append_left _ _ hplace, ← hnonce']
  exact openWith_append_eq_none (length_tag _ _ _)
    fun htag => hother (tag_injective hcipher _ htag)

theorem openWith_flips_tag {positions : List Nat} (hne : positions ≠ [])
    (hnodup : positions.Nodup)
    (h : ∀ p ∈ positions, 8 * (nonceSize + plain.length) ≤ p ∧
      p < 8 * (sealWith cipher nonce plain).length) :
    openWith cipher (flips (sealWith cipher nonce plain) positions) = none := by
  let body := nonce.toList ++ Ctr.crypt cipher nonce plain
  let expected := tag cipher nonce (Ctr.crypt cipher nonce plain)
  have hbody : body.length = nonceSize + plain.length := by
    simp [body, Ctr.length_crypt, nonceSize]
  have hseal : sealWith cipher nonce plain = body ++ expected := rfl
  have hplace : ∀ p ∈ positions, 8 * body.length ≤ p := fun p hp => by
    rw [hbody]
    exact (h p hp).1
  have hother := flips_ne _ hne hnodup fun p hp => (h p hp).2
  rw [hseal, flips_append_right _ _ hplace] at hother ⊢
  rw [List.append_assoc]
  refine openWith_append_eq_none ((length_flips _ _).trans (length_tag _ _ _)) fun htag => ?_
  exact hother (by rw [htag])

theorem openWith_flip_ciphertext (hsubkey : subkey cipher ≠ 0) {p : Nat}
    (hlow : 8 * nonceSize ≤ p) (hhigh : p < 8 * (nonceSize + plain.length)) :
    openWith cipher (flip (sealWith cipher nonce plain) p) = none := by
  have hnonce : nonce.toList.length = nonceSize := Vector.length_toList
  have hcrypt := Ctr.length_crypt cipher nonce plain
  rw [sealWith_eq_append, flip_append_right _ _ _ (by omega), flip_append_left _ _ _ (by omega)]
  refine openWith_append_eq_none (length_tag _ _ _) fun htag => ?_
  exact digest_flip_ne hsubkey (by omega) (digest_eq_of_tag_eq htag).symm

end Gcm

namespace Key

variable (key : Key) (nonce : Nonce) (plain : List UInt8)

/-- Neither a plaintext nor a frame comes out of a text. -/
def Rejects (text : List UInt8) : Prop :=
  key.decrypt text = .error .authentication ∧ key.openFrame text = .error .authentication

theorem rejects_of_openWith {text : List UInt8}
    (h : Gcm.openWith (Aes.encrypt (Aes.schedule key.bytes)) text = none) : key.Rejects text := by
  have hdecrypt : key.decrypt text = .error .authentication := by
    rw [decrypt, h]
  refine ⟨hdecrypt, ?_⟩
  rw [openFrame, hdecrypt]
  split
  · rfl
  · rfl

/-- Turned bits are noticed: any at all of the nonce, any at all of the tag, and any single one
wherever it is. The last takes a key whose cipher does not send the zero block to itself, since for
such a key all ciphertexts have one digest. -/
theorem rejects_tampered :
    (∀ positions : List Nat, positions ≠ [] → positions.Nodup →
      ((∀ p ∈ positions, p < 8 * nonceSize) ∨
        ∀ p ∈ positions, 8 * (nonceSize + plain.length) ≤ p ∧
          p < 8 * (key.encrypt nonce plain).length) →
      key.Rejects (flips (key.encrypt nonce plain) positions)) ∧
    (Gcm.subkey (Aes.encrypt (Aes.schedule key.bytes)) ≠ 0 →
      ∀ p < 8 * (key.encrypt nonce plain).length,
        key.Rejects (flip (key.encrypt nonce plain) p)) := by
  have hcipher := Aes.encrypt_injective (Aes.schedule key.bytes)
  refine ⟨fun positions hne hnodup hplace => ?_, fun hsubkey p hp => ?_⟩
  · rcases hplace with hplace | hplace
    · exact key.rejects_of_openWith (Gcm.openWith_flips_nonce nonce plain hcipher hne hnodup hplace)
    · exact key.rejects_of_openWith (Gcm.openWith_flips_tag nonce plain hne hnodup hplace)
  · have hne : [p] ≠ [] := List.cons_ne_nil p []
    have hnodup : [p].Nodup := List.nodup_singleton p
    apply key.rejects_of_openWith
    by_cases hlow : p < 8 * nonceSize
    · exact Gcm.openWith_flips_nonce nonce plain hcipher hne hnodup (by simpa using hlow)
    · by_cases hhigh : p < 8 * (nonceSize + plain.length)
      · exact Gcm.openWith_flip_ciphertext nonce plain hsubkey (by omega) hhigh
      · refine Gcm.openWith_flips_tag nonce plain hne hnodup fun q hq => ?_
        rw [List.mem_singleton.mp hq]
        exact ⟨by omega, hp⟩

/-- The key of zeros sends the zero block elsewhere. -/
theorem rejects_tampered_zeros :
    let key : Key := ⟨Vector.replicate 32 0⟩
    let sealed := key.encrypt (Vector.replicate 12 0) [1, 2]
    Gcm.subkey (Aes.encrypt (Aes.schedule key.bytes)) ≠ 0 ∧ key.Rejects (flips sealed [0, 95]) ∧
      key.Rejects (flips sealed [112, 239]) ∧ key.Rejects (flip sealed 100) := by
  intro key sealed
  have hsubkey : Gcm.subkey (Aes.encrypt (Aes.schedule key.bytes)) ≠ 0 := by decide +kernel
  have hsize : sealed.length = 30 := key.length_encrypt _ _
  obtain ⟨hmany, hone⟩ := key.rejects_tampered (Vector.replicate 12 0) [1, 2]
  refine ⟨hsubkey, ?_, ?_, ?_⟩
  · exact hmany [0, 95] (by decide) (by decide) (.inl (by decide))
  · refine hmany [112, 239] (by decide) (by decide) (.inr fun p hp => ?_)
    rw [show (key.encrypt (Vector.replicate 12 0) [1, 2]).length = 30 from hsize]
    revert p
    decide
  · exact hone hsubkey 100 (by rw [show _ = 30 from hsize]; decide)

end Key

end AdminPlane.Channel
