import AdminPlane.Channel.Aes

namespace AdminPlane.Channel

abbrev Nonce := Vector UInt8 12

def nonceSize : Nat := 12
def tagSize : Nat := 16

/-- Pieces of 16 bytes, `count` of them. -/
def pieces : (count : Nat) → List UInt8 → List (List UInt8)
  | 0, _ => []
  | n + 1, data => data.take 16 :: pieces n (data.drop 16)

/-- Pieces of 16 bytes, the last one possibly shorter. -/
def split (data : List UInt8) : List (List UInt8) := pieces ((data.length + 15) / 16) data

namespace Ghash

/-- An element of the field of `2 ^ 128` elements; the most significant bit is the coefficient of
`x ^ 0`. -/
abbrev Element := BitVec 128

/-- Missing bytes count as zero. -/
def ofBytes (bytes : List UInt8) : Element :=
  BitVec.ofNat 128 ((List.range 16).foldl (fun n i => 256 * n + (bytes.getD i 0).toNat) 0)

def toBytes (e : Element) : List UInt8 :=
  (List.range 16).map fun i => UInt8.ofNat (e.toNat >>> (8 * (15 - i)))

/-- Multiplication by `x` modulo `x ^ 128 + x ^ 7 + x ^ 2 + x + 1`. -/
def timesX (e : Element) : Element :=
  if e.getLsbD 0 then (e >>> 1) ^^^ (0xE1#128 <<< 120) else e >>> 1

/-- The terms `x ^ i` of `a` with `128 - n ≤ i`, times `b`, over `x ^ (128 - n)`. -/
def mulTerms (a b : Element) : Nat → Element
  | 0 => 0
  | n + 1 => timesX (mulTerms a b n) ^^^ (if a.getLsbD n then b else 0)

def mul (a b : Element) : Element := mulTerms a b 128

def hash (h : Element) (blocks : List Element) : Element :=
  blocks.foldl (fun y b => mul (y ^^^ b) h) 0

end Ghash

/-- A counter block: the nonce and 32 bits of counter. -/
def counterBlock (nonce : Nonce) (n : UInt32) : Block :=
  Aes.blockOf (nonce.toList ++ Aes.bytes n)

namespace Ctr

/-- Pieces combined with the images of successive counter blocks. -/
def combine (cipher : Block → Block) (nonce : Nonce) : UInt32 → List (List UInt8) → List UInt8
  | _, [] => []
  | n, piece :: rest =>
    List.zipWith (· ^^^ ·) piece (cipher (counterBlock nonce n)).toList ++
      combine cipher nonce (n + 1) rest

/-- Its own inverse. The counter value 1 is left to the tag. -/
def crypt (cipher : Block → Block) (nonce : Nonce) (data : List UInt8) : List UInt8 :=
  combine cipher nonce 2 (split data)

end Ctr

namespace Gcm

/-- The bit length of the ciphertext; there is no associated data. -/
def lengthBlock (size : Nat) : Ghash.Element := BitVec.ofNat 128 (8 * size % UInt64.size)

def digest (h : Ghash.Element) (ciphertext : List UInt8) : Ghash.Element :=
  Ghash.hash h ((split ciphertext).map Ghash.ofBytes ++ [lengthBlock ciphertext.length])

/-- The element that the hash is evaluated at. -/
def subkey (cipher : Block → Block) : Ghash.Element :=
  Ghash.ofBytes (cipher (Vector.replicate 16 0)).toList

def tag (cipher : Block → Block) (nonce : Nonce) (ciphertext : List UInt8) : List UInt8 :=
  List.zipWith (· ^^^ ·) (Ghash.toBytes (digest (subkey cipher) ciphertext))
    (cipher (counterBlock nonce 1)).toList

/-- Nonce, ciphertext and tag. -/
def sealWith (cipher : Block → Block) (nonce : Nonce) (plain : List UInt8) : List UInt8 :=
  let ciphertext := Ctr.crypt cipher nonce plain
  nonce.toList ++ ciphertext ++ tag cipher nonce ciphertext

def nonceOf (sealed : List UInt8) : Nonce := .ofFn fun i => sealed.getD i.val 0

/-- Nothing comes out unless the tag is right. -/
def openWith (cipher : Block → Block) (sealed : List UInt8) : Option (List UInt8) :=
  if sealed.length < nonceSize + tagSize then none
  else
    let nonce := nonceOf sealed
    let body := sealed.drop nonceSize
    let ciphertext := body.take (body.length - tagSize)
    if body.drop (body.length - tagSize) = tag cipher nonce ciphertext then
      some (Ctr.crypt cipher nonce ciphertext)
    else none

end Gcm

end AdminPlane.Channel
