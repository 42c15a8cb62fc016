import Tchannel.Defragmentation
import Tchannel.Fragmentation

/-!
# Handlers and subchannels

`handler.rs`, and of `subchannel.rs` what happens to a request on the server (`SubChannel.handle`) and to
the response at the caller (`SubChannel.received`). A handler may change with every call; one call of it
is a function of its request. The adapter of an async handler waits for the handler and then does what the
adapter of a sync one does.
-/

namespace Tchannel
open Wire

/-- What a handler does with a request at some call. -/
abbrev RequestHandler (REQ RES : Type) := REQ → HandlerResult RES

def convert {MSG : Type} [Message MSG] (msgRes : HandlerResult MSG) : MessageArgsResponse :=
  match msgRes with
  | .ok message => do return (.ok, ← liftCodec (Message.tryInto message))
  | .error err =>
    match err with
    | .messageError message => do return (.ok, ← liftCodec (Message.tryInto message))
    | .generalError message => .error (.error message)
    | .internalError err => .error err

section

variable {REQ RES : Type} [Message REQ] [Message RES]

def RequestHandlerAdapter.handle (handler : RequestHandler REQ RES) (requestArgs : MessageArgs) :
    MessageArgsResponse := do
  let request ← liftCodec (Message.tryFrom requestArgs)
  convert (handler request)

def RequestHandlerAsyncAdapter.handle (handler : RequestHandler REQ RES) (requestArgs : MessageArgs) :
    MessageArgsResponse := do
  let request ← liftCodec (Message.tryFrom requestArgs)
  convert (handler request)

end

/-- A boxed handler. There are no others than the two adapters. -/
structure MessageArgsHandler where
  handle : MessageArgs → MessageArgsResponse
  adapts : ∃ (REQ RES : Type) (_ : Message REQ) (_ : Message RES) (handler : RequestHandler REQ RES),
    handle = RequestHandlerAdapter.handle handler

/-- The service name and the handlers, by endpoint. -/
structure SubChannel where
  serviceName : String
  handlers : HashMap String MessageArgsHandler

namespace SubChannel

def readEndpointName (request : MessageArgs) : CodecResult String :=
  match request.args[0]? with
  | some arg =>
    match fromUtf8 arg with
    | some endpoint => .ok endpoint
    | none => .error (.stringDecodingError ⟨arg⟩)
  | none => .error (.error "Missing arg1/endpoint name")

def getHandler (self : SubChannel) (endpoint : String) : TResult MessageArgsHandler :=
  match self.handlers.lookup endpoint with
  | some handler => .ok handler
  | none => .error (.error s!"No handler with name '{endpoint}'.")

def handle (self : SubChannel) (request : MessageArgs) : MessageArgsResponse := do
  let endpoint ← liftCodec (readEndpointName request)
  let handler ← self.getHandler endpoint
  handler.handle request

def registerHandler (self : SubChannel) (endpoint : String) (handler : MessageArgsHandler) :
    TResult SubChannel :=
  if endpoint ∈ self.handlers then
    .error (.error s!"Handler already registered for '{endpoint}'")
  else
    .ok { self with handlers := self.handlers.insert endpoint handler }

/-- The end of `send`: what the caller gets for the response that was read. -/
def received {RES : Type} (responseRes : TResult (ResponseCode × RES)) : HandlerResult RES :=
  match responseRes with
  | .ok (code, response) =>
    match code with
    | .ok => .ok response
    | .error => .error (.messageError response)
  | .error err => .error (.internalError err)

/-- What the caller gets once it has read its response from `input`; nothing while it waits. -/
def receiveFrom (RES : Type) [Message RES] (input : FrameInput) : Option (HandlerResult RES) :=
  match (ResponseDefragmenter.readResponseMsg RES).run input with
  | .ok response _ => some (received (.ok response))
  | .error (.err e) _ => some (received (.error e))
  | .error _ _ => none

end SubChannel

end Tchannel
