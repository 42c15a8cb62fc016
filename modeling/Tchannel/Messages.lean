import Tchannel.Errors

/-!
# Messages

`messages/` and the header values of `frames/headers.rs`. A message goes over the wire as an arg scheme
and a list of args; `Message` is the trait that converts both ways. `RawMessage` converts without loss
(`RawMessage.tryFrom_tryInto`); `JsonMessage` as far as the JSON library does.
-/

namespace Tchannel
open Wire

inductive TransportHeaderKey where
  | argScheme
  | claimAtStart
  | claimAtFinish
  | callerName
  | retryFlags
  | speculativeExecution
  | failureDomain
  | shardKey
deriving DecidableEq, Repr

def TransportHeaderKey.toString : TransportHeaderKey → String
  | .argScheme => "as"
  | .claimAtStart => "cas"
  | .claimAtFinish => "caf"
  | .callerName => "cn"
  | .retryFlags => "re"
  | .speculativeExecution => "se"
  | .failureDomain => "fd"
  | .shardKey => "sk"

inductive ArgSchemeValue where
  | raw
  | json
  | http
  | thrift
  | streamingThrift
deriving DecidableEq, Repr

namespace ArgSchemeValue

def toString : ArgSchemeValue → String
  | .raw => "raw"
  | .json => "json"
  | .http => "http"
  | .thrift => "thrift"
  | .streamingThrift => "sthrift"

/-- The `Debug` name. -/
def debug : ArgSchemeValue → String
  | .raw => "Raw"
  | .json => "Json"
  | .http => "Http"
  | .thrift => "Thrift"
  | .streamingThrift => "StreamingThrift"

def fromStr (s : String) : CodecResult ArgSchemeValue :=
  if s = "raw" then .ok .raw
  else if s = "json" then .ok .json
  else if s = "http" then .ok .http
  else if s = "thrift" then .ok .thrift
  else if s = "sthrift" then .ok .streamingThrift
  else .error .parseError

@[simp] theorem fromStr_toString (v : ArgSchemeValue) : fromStr v.toString = .ok v := by
  cases v <;> decide

end ArgSchemeValue

structure MessageArgs where
  argScheme : ArgSchemeValue
  args : List Bytes
deriving DecidableEq, Repr

abbrev MessageArgsResponse := TResult (ResponseCode × MessageArgs)

class Message (M : Type) where
  argsScheme : ArgSchemeValue
  tryFrom : MessageArgs → CodecResult M
  tryInto : M → CodecResult MessageArgs

/-- A message type whose messages are read back from their own args. -/
class LawfulMessage (M : Type) [Message M] : Prop where
  tryFrom_tryInto : ∀ (m : M) (a : MessageArgs), Message.tryInto m = .ok a → Message.tryFrom a = .ok m
  argScheme_tryInto : ∀ (m : M) (a : MessageArgs), Message.tryInto m = .ok a →
    a.argScheme = Message.argsScheme M

def bytesToString (arg : Option Bytes) : CodecResult String :=
  match arg with
  | none => .ok ""
  | some b =>
    match fromUtf8 b with
    | some s => .ok s
    | none => .error (.stringDecodingError ⟨b⟩)

@[simp] theorem bytesToString_utf8 (s : String) : bytesToString (some (utf8 s)) = .ok s := by
  simp [bytesToString]

/-! ### Raw messages -/

structure RawMessage where
  endpoint : String
  header : String
  body : Bytes
deriving DecidableEq, Repr

namespace RawMessage

def tryFrom (args : MessageArgs) : CodecResult RawMessage :=
  if args.argScheme ≠ .raw then
    .error (.error s!"Wrong arg scheme {args.argScheme.debug}")
  else do
    let endpoint ← bytesToString args.args[0]?
    let header ← bytesToString args.args[1]?
    return ⟨endpoint, header, args.args[2]?.getD []⟩

def tryInto (self : RawMessage) : CodecResult MessageArgs :=
  .ok ⟨.raw, [utf8 self.endpoint, utf8 self.header, self.body]⟩

instance : Message RawMessage where
  argsScheme := .raw
  tryFrom := tryFrom
  tryInto := tryInto

theorem tryFrom_tryInto (m : RawMessage) (a : MessageArgs) (h : tryInto m = .ok a) :
    tryFrom a = .ok m := by
  obtain rfl := Except.ok.inj h
  show (bytesToString (some (utf8 m.endpoint)) >>= fun endpoint => _) = _
  rw [bytesToString_utf8]
  show (bytesToString (some (utf8 m.header)) >>= fun header => _) = _
  rw [bytesToString_utf8]
  rfl

instance : LawfulMessage RawMessage where
  tryFrom_tryInto := tryFrom_tryInto
  argScheme_tryInto m a h := by
    obtain rfl := Except.ok.inj h
    rfl

end RawMessage

/-! ### JSON messages -/

/-- What is used of `serde_json`: maps are written as text and read from bytes. -/
class SerdeJson (J : Type) where
  toString : J → CodecResult String
  fromSlice : Bytes → CodecResult J

/-- What was written is read back. -/
class LawfulSerdeJson (J : Type) [SerdeJson J] : Prop where
  fromSlice_toString : ∀ (j : J) (s : String), SerdeJson.toString j = .ok s →
    SerdeJson.fromSlice (utf8 s) = .ok j

structure JsonMessage (J : Type) where
  methodName : String
  headers : J
  body : J
deriving DecidableEq, Repr

namespace JsonMessage

variable {J : Type} [SerdeJson J]

def bytesToJson (arg : Option Bytes) : CodecResult J := SerdeJson.fromSlice (arg.getD [])

def tryFrom (args : MessageArgs) : CodecResult (JsonMessage J) :=
  if args.argScheme ≠ .json then
    .error (.error s!"Wrong arg scheme {args.argScheme.debug}")
  else do
    let methodName ← bytesToString args.args[0]?
    let headers ← bytesToJson args.args[1]?
    let body ← bytesToJson args.args[2]?
    return ⟨methodName, headers, body⟩

def tryInto (self : JsonMessage J) : CodecResult MessageArgs := do
  let headers ← SerdeJson.toString self.headers
  let body ← SerdeJson.toString self.body
  return ⟨.json, [utf8 self.methodName, utf8 headers, utf8 body]⟩

instance : Message (JsonMessage J) where
  argsScheme := .json
  tryFrom := tryFrom
  tryInto := tryInto

theorem tryInto_eq_ok {m : JsonMessage J} {a : MessageArgs} (h : tryInto m = .ok a) :
    ∃ headers body, SerdeJson.toString m.headers = .ok headers ∧ SerdeJson.toString m.body = .ok body ∧
      a = ⟨.json, [utf8 m.methodName, utf8 headers, utf8 body]⟩ := by
  unfold tryInto at h
  cases hh : SerdeJson.toString m.headers with
  | error e => rw [hh] at h; cases h
  | ok headers =>
    cases hb : SerdeJson.toString m.body with
    | error e => rw [hh, hb] at h; cases h
    | ok body =>
      rw [hh, hb] at h
      exact ⟨headers, body, rfl, rfl, (Except.ok.inj h).symm⟩

instance [LawfulSerdeJson J] : LawfulMessage (JsonMessage J) where
  tryFrom_tryInto m a h := by
    obtain ⟨headers, body, hh, hb, rfl⟩ := tryInto_eq_ok h
    show (bytesToString (some (utf8 m.methodName)) >>= fun methodName => _) = _
    rw [bytesToString_utf8]
    show (SerdeJson.fromSlice (utf8 headers) >>= fun headers => _) = _
    rw [LawfulSerdeJson.fromSlice_toString _ _ hh]
    show (SerdeJson.fromSlice (utf8 body) >>= fun body => _) = _
    rw [LawfulSerdeJson.fromSlice_toString _ _ hb]
    rfl
  argScheme_tryInto m a h := by
    obtain ⟨headers, body, -, -, rfl⟩ := tryInto_eq_ok h
    rfl

end JsonMessage

end Tchannel
