import Tchannel.CodecError

/-!
# Frames and the frame codec

`frames/mod.rs`: a frame is a type and a payload, on the wire behind a 16 byte header that holds the
length of the whole frame, its type and the message id. `TFrameIdCodec.decode` takes one frame from
the front of the receive buffer; `drain` and `feed` are what a framed reader does with it, which calls
it until it asks for more bytes, after each read from the socket.
-/

namespace Tchannel
open Wire Wire.Cursor

def frameHeaderLength : Nat := 16

def frameMaxLength : Nat := 65534

/-- `Type` of `frames/mod.rs`. -/
inductive FrameType where
  | initRequest
  | initResponse
  | callRequest
  | callResponse
  | callRequestContinue
  | callResponseContinue
  | cancel
  | claim
  | pingRequest
  | pingResponse
  | error
deriving DecidableEq, Repr

namespace FrameType

def toU8 : FrameType → UInt8
  | .initRequest => 0x1
  | .initResponse => 0x2
  | .callRequest => 0x3
  | .callResponse => 0x4
  | .callRequestContinue => 0x13
  | .callResponseContinue => 0x14
  | .cancel => 0xc0
  | .claim => 0xc1
  | .pingRequest => 0xd0
  | .pingResponse => 0xd1
  | .error => 0xff

def fromU8 (b : UInt8) : Option FrameType :=
  if b = 0x1 then some .initRequest
  else if b = 0x2 then some .initResponse
  else if b = 0x3 then some .callRequest
  else if b = 0x4 then some .callResponse
  else if b = 0x13 then some .callRequestContinue
  else if b = 0x14 then some .callResponseContinue
  else if b = 0xc0 then some .cancel
  else if b = 0xc1 then some .claim
  else if b = 0xd0 then some .pingRequest
  else if b = 0xd1 then some .pingResponse
  else if b = 0xff then some .error
  else none

@[simp] theorem fromU8_toU8 (t : FrameType) : fromU8 t.toU8 = some t := by
  cases t <;> rfl

/-- The `Debug` name, as error messages show it. -/
def debug : FrameType → String
  | .initRequest => "InitRequest"
  | .initResponse => "InitResponse"
  | .callRequest => "CallRequest"
  | .callResponse => "CallResponse"
  | .callRequestContinue => "CallRequestContinue"
  | .callResponseContinue => "CallResponseContinue"
  | .cancel => "Cancel"
  | .claim => "Claim"
  | .pingRequest => "PingRequest"
  | .pingResponse => "PingResponse"
  | .error => "Error"

end FrameType

structure TFrame where
  frameType : FrameType
  payload : Bytes
deriving DecidableEq, Repr

def TFrame.size (f : TFrame) : Nat := f.payload.length

structure TFrameId where
  id : UInt32
  frame : TFrame
deriving DecidableEq, Repr

namespace TFrameIdCodec

/-- The length field: a truncating cast and a wrapping addition. -/
def lengthField (f : TFrame) : UInt16 := UInt16.ofNat f.size + UInt16.ofNat frameHeaderLength

def encode (item : TFrameId) (dst : Bytes) : CodecResult Bytes :=
  .ok (dst ++ putBE 2 (lengthField item.frame).toNat ++ [item.frame.frameType.toU8] ++ [0] ++
    putBE 4 item.id.toNat ++ List.replicate 8 0 ++ item.frame.payload)

def isBuffering (src : Bytes) : Bool :=
  if src.length < 2 then true else decide (getBE (src.take 2) > src.length)

/-- The part of `decode` after the buffering test: the whole frame is in the buffer. -/
def decodeFrame : Cursor CodecError TFrameId := do
  let size ← getUInt 2
  if size < frameHeaderLength then
    fail (.error "Frame too short")
  else
    let frameTypeByte ← getUInt 1
    let frameType ← ofOption (FrameType.fromU8 (UInt8.ofNat frameTypeByte))
      (.error s!"Unknown frame type {frameTypeByte}")
    advance 1
    let id ← getUInt 4
    advance 8
    let payload ← take (← checkedSub size frameHeaderLength)
    return ⟨UInt32.ofNat id, ⟨frameType, payload⟩⟩

def decode : Cursor CodecError (Option TFrameId) := do
  if isBuffering (← get) then
    return none
  some <$> decodeFrame

end TFrameIdCodec

end Tchannel
