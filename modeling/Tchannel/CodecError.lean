import Tchannel.Lib.Text
import Tchannel.Lib.Cursor

/-!
# Codec errors

`CodecError` of `errors.rs`, with the `Display` texts that end up in Error frames.
-/

namespace Tchannel
open Wire

/-- `FromUtf8Error`: the rejected bytes. -/
structure FromUtf8Error where
  bytes : Bytes
deriving DecidableEq, Repr

def FromUtf8Error.toString (e : FromUtf8Error) : String :=
  let start := validUpTo e.bytes
  match errorLen (e.bytes.drop start) with
  | some len => s!"invalid utf-8 sequence of {len} bytes from index {start}"
  | none => s!"incomplete utf-8 byte sequence from index {start}"

/-- Newtype of `std::io::Error`, known by its text. -/
structure IoError where
  text : String
deriving DecidableEq, Repr

inductive CodecError where
  | error (msg : String)
  | ioError (e : IoError)
  | formattingError
  | stringDecodingError (e : FromUtf8Error)
  | parseError
deriving DecidableEq, Repr

def CodecError.toString : CodecError → String
  | .error msg => "Codec error: " ++ msg
  | .ioError e => e.text
  | .formattingError => "an error occurred when formatting an argument"
  | .stringDecodingError e => e.toString
  | .parseError => "Matching variant not found"

abbrev CodecResult (α : Type) := Except CodecError α

theorem except_bind_eq_ok {ε α β : Type} {x : Except ε α} {f : α → Except ε β} {b : β} :
    (x >>= f) = .ok b ↔ ∃ a, x = .ok a ∧ f a = .ok b := by
  cases x with
  | ok a => simp [bind, Except.bind]
  | error e => simp [bind, Except.bind]

end Tchannel
