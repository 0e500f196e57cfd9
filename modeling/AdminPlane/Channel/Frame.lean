import AdminPlane.Channel.Gcm
import AdminPlane.Channel.Key

namespace AdminPlane.Channel

/-- A type byte and the payload behind it. -/
structure Frame where
  type : UInt8
  payload : List UInt8
deriving DecidableEq, Repr

inductive OpenError where
  | authentication
  | emptyFrame
deriving DecidableEq, Repr

/-- Said of every text that the channel cannot authenticate, whatever is wrong with it. -/
def verifyFailure : String := "request fails to verify"

def OpenError.message : OpenError → String
  | authentication => verifyFailure
  | emptyFrame => "frame carries no message type"

/-- A nonce, a tag, and a type byte at least. -/
def minSealedFrameSize : Nat := nonceSize + tagSize + 1

namespace Frame

def encode (f : Frame) : List UInt8 := f.type :: f.payload

def decode : List UInt8 → Except OpenError Frame
  | [] => .error .emptyFrame
  | type :: payload => .ok ⟨type, payload⟩

end Frame

namespace Key

def encrypt (key : Key) (nonce : Nonce) (plain : List UInt8) : List UInt8 :=
  let keys := Aes.schedule key.bytes
  Gcm.sealWith (Aes.encrypt keys) nonce plain

def decrypt (key : Key) (sealed : List UInt8) : Except OpenError (List UInt8) :=
  let keys := Aes.schedule key.bytes
  match Gcm.openWith (Aes.encrypt keys) sealed with
  | none => .error .authentication
  | some plain => .ok plain

def sealFrame (key : Key) (nonce : Nonce) (frame : Frame) : List UInt8 :=
  key.encrypt nonce frame.encode

def openFrame (key : Key) (sealed : List UInt8) : Except OpenError Frame :=
  if sealed.length < minSealedFrameSize then .error .authentication
  else (key.decrypt sealed).bind Frame.decode

end Key

end AdminPlane.Channel
