import Tchannel.SubChannel

/-!
# Handling one request

`FrameHandler` of `server.rs`: reads a request, looks up its service, has it handled and sends the
response. All frames of a response are made before the first is sent, so that a request that fails
sends nothing. The order in which the headers of a response are written is a parameter.
-/

namespace Tchannel
open Wire

structure FrameHandler where
  subchannels : HashMap String SubChannel
  debugErrorMsg : ErrorMsg → String

namespace FrameHandler

def getSubchannel (self : FrameHandler) (service : String) : TResult SubChannel :=
  match self.subchannels.lookup service with
  | some subchannel => .ok subchannel
  | none => .error (.error s!"Failed to find subchannel '{service}'")

def toErrorFrame (code : ErrorCode) (msg : String) (id : UInt32) : CodecResult TFrameId := do
  let err : ErrorMsg := ⟨code, Tracing.default, msg⟩
  return ⟨id, ⟨.error, ← err.encodeBytes⟩⟩

/-- An Error frame instead of the response. -/
def errorFrames (code : ErrorCode) (msg : String) (id : UInt32) : TResult (List TFrameId) := do
  return [← liftCodec (toErrorFrame code msg id)]

/-- The response, or the Error frame for a response that could not be cut into frames. -/
def responseFrames (self : FrameHandler) (id : UInt32) : TResult (List TFrame) → TResult (List TFrameId)
  | .ok frames => .ok (frames.map (TFrameId.mk id))
  | .error (.connectionError err) => errorFrames .networkError (err.toString self.debugErrorMsg) id
  | .error (.error msg) => errorFrames .unexpectedError msg id
  | .error (.connectionPoolError err) => .error (.connectionPoolError err)
  | .error err => errorFrames .unexpectedError (err.toString self.debugErrorMsg) id

/-- What follows the reading of a request. -/
def respond (self : FrameHandler) (order : (headers : HashMap String String) → Iter headers) (id : UInt32)
    (requestFields : CallRequestFields) (messageArgs : MessageArgs) : TResult (List TFrameId) := do
  let subchannel ← self.getSubchannel requestFields.service
  let (responseCode, responseArgs) ← subchannel.handle messageArgs
  self.responseFrames id
    ((ResponseFragmenter.new requestFields.service responseCode responseArgs).createFrames (order _))

def handleInput (self : FrameHandler) (order : (headers : HashMap String String) → Iter headers)
    (id : UInt32) : Recv (List TFrameId) := do
  let (requestFields, messageArgs) ← RequestDefragmenter.readRequest
  match self.respond order id requestFields messageArgs with
  | .ok frames => return frames
  | .error err => Recv.fail err

/-- How handling a request ends, and the frames that were sent for it. -/
def handle (self : FrameHandler) (order : (headers : HashMap String String) → Iter headers) (id : UInt32)
    (input : FrameInput) : Except Stop Unit × List TFrameId :=
  match (self.handleInput order id).run input with
  | .ok frames _ => (.ok (), frames)
  | .error e _ => (.error e, [])

end FrameHandler

end Tchannel
