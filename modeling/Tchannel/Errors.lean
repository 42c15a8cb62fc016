import Tchannel.Payloads

/-!
# Errors

`errors.rs`. The `Display` text of an error is what an Error frame carries. Two texts come from outside:
`RunError` is the connection pool's, and the `Debug` text of an `ErrorMsg`, which shows a string
escaped by the Unicode tables of the standard library, is a parameter.
-/

namespace Tchannel
open Wire

inductive ConnectionError where
  | error (msg : String)
  | ioError (e : IoError)
  | frameError (e : CodecError)
  | messageErrorId (msg : ErrorMsg) (id : UInt32)
  | unexpectedResponseError (t : FrameType)
deriving DecidableEq, Repr

/-- `bb8::RunError`. -/
inductive RunError where
  | user (e : ConnectionError)
  | timedOut
deriving DecidableEq, Repr

inductive TChannelError where
  | error (msg : String)
  | codecError (e : CodecError)
  | connectionError (e : ConnectionError)
  | connectionPoolError (e : RunError)
deriving DecidableEq, Repr

abbrev TResult (α : Type) := Except TChannelError α

abbrev ConnectionResult (α : Type) := Except ConnectionError α

inductive HandlerError (RES : Type) where
  | internalError (e : TChannelError)
  | generalError (msg : String)
  | messageError (message : RES)
deriving DecidableEq, Repr

abbrev HandlerResult (MES : Type) := Except (HandlerError MES) MES

section Display

variable (debugErrorMsg : ErrorMsg → String)

def ConnectionError.toString : ConnectionError → String
  | .error msg => "Connection error: " ++ msg
  | .ioError e => e.text
  | .frameError e => e.toString
  | .messageErrorId msg _ => "Error message: " ++ debugErrorMsg msg
  | .unexpectedResponseError t => "Unexpected response: " ++ t.debug

def RunError.toString : RunError → String
  | .user e => e.toString debugErrorMsg
  | .timedOut => "Timed out in bb8"

def TChannelError.toString : TChannelError → String
  | .error msg => "TChannel error: " ++ msg
  | .codecError e => e.toString
  | .connectionError e => e.toString debugErrorMsg
  | .connectionPoolError e => e.toString debugErrorMsg

/-- `From<(u32, ConnectionError, Tracing)>`: an error that has no message yet gets one. -/
def ConnectionError.withId (id : UInt32) (tracing : Tracing) : ConnectionError → ConnectionError
  | .messageErrorId msg id' => .messageErrorId msg id'
  | err => .messageErrorId ⟨.unexpectedError, tracing, err.toString debugErrorMsg⟩ id

end Display

/-- The `?` on a codec result in a function that returns a `TResult`. -/
def liftCodec {α : Type} : CodecResult α → TResult α
  | .ok a => .ok a
  | .error e => .error (.codecError e)

@[simp] theorem liftCodec_ok {α : Type} (a : α) : liftCodec (.ok a) = .ok a := rfl

@[simp] theorem liftCodec_error {α : Type} (e : CodecError) :
    liftCodec (.error e : CodecResult α) = .error (.codecError e) := rfl

theorem liftCodec_eq_ok {α : Type} {x : CodecResult α} {a : α} : liftCodec x = .ok a ↔ x = .ok a := by
  cases x <;> simp

end Tchannel
