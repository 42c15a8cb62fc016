import Tchannel.Frames

/-!
# Frame payloads

`frames/payloads.rs`: the payload types and their codecs. An encoder appends to a buffer and may
refuse; a decoder reads from the front of the payload and, where the source reads without looking at
what is left, panics on a payload that is too short. The iteration order of a header map is not
specified, so an encoder that writes one takes the order (`Iter`) as an argument.
-/

namespace Tchannel
open Wire Wire.Cursor

def protocolVersion : UInt16 := 2

def maxFrameArgs : Nat := 3

def argLenLen : Nat := 2

/-! ### Enumerations and flags -/

inductive ChecksumType where
  | none
  | crc32
  | farmhash
  | crc32C
deriving DecidableEq, Repr

namespace ChecksumType

def toU8 : ChecksumType → UInt8
  | .none => 0x00
  | .crc32 => 0x01
  | .farmhash => 0x02
  | .crc32C => 0x03

def fromU8 (b : UInt8) : Option ChecksumType :=
  if b = 0x00 then some .none
  else if b = 0x01 then some .crc32
  else if b = 0x02 then some .farmhash
  else if b = 0x03 then some .crc32C
  else Option.none

@[simp] theorem fromU8_toU8 (t : ChecksumType) : fromU8 t.toU8 = some t := by
  cases t <;> rfl

end ChecksumType

inductive ErrorCode where
  | invalid
  | timeout
  | cancelled
  | busy
  | declined
  | unexpectedError
  | badRequest
  | networkError
  | unhealthy
  | fatalProtocolError
deriving DecidableEq, Repr

namespace ErrorCode

def toU8 : ErrorCode → UInt8
  | .invalid => 0x00
  | .timeout => 0x01
  | .cancelled => 0x02
  | .busy => 0x03
  | .declined => 0x04
  | .unexpectedError => 0x05
  | .badRequest => 0x06
  | .networkError => 0x07
  | .unhealthy => 0x08
  | .fatalProtocolError => 0xff

def fromU8 (b : UInt8) : Option ErrorCode :=
  if b = 0x00 then some .invalid
  else if b = 0x01 then some .timeout
  else if b = 0x02 then some .cancelled
  else if b = 0x03 then some .busy
  else if b = 0x04 then some .declined
  else if b = 0x05 then some .unexpectedError
  else if b = 0x06 then some .badRequest
  else if b = 0x07 then some .networkError
  else if b = 0x08 then some .unhealthy
  else if b = 0xff then some .fatalProtocolError
  else none

@[simp] theorem fromU8_toU8 (c : ErrorCode) : fromU8 c.toU8 = some c := by
  cases c <;> rfl

end ErrorCode

/-- `ResponseCode` of `messages/mod.rs`. -/
inductive ResponseCode where
  | ok
  | error
deriving DecidableEq, Repr

namespace ResponseCode

def toU8 : ResponseCode → UInt8
  | .ok => 0x00
  | .error => 0x01

def fromU8 (b : UInt8) : Option ResponseCode :=
  if b = 0x00 then some .ok
  else if b = 0x01 then some .error
  else none

@[simp] theorem fromU8_toU8 (c : ResponseCode) : fromU8 c.toU8 = some c := by
  cases c <;> rfl

end ResponseCode

/-- A `bitflags` type: a byte with no bit set outside `mask`. -/
structure BitFlags (mask : UInt8) where
  bits : UInt8
  known : bits &&& ~~~mask = 0
deriving DecidableEq, Repr

namespace BitFlags

variable {mask : UInt8}

def fromBits (bits : UInt8) : Option (BitFlags mask) :=
  if h : bits &&& ~~~mask = 0 then some ⟨bits, h⟩ else none

def contains (f other : BitFlags mask) : Bool := f.bits &&& other.bits == other.bits

@[simp] theorem fromBits_bits (f : BitFlags mask) : fromBits f.bits = some f := dif_pos f.known

end BitFlags

abbrev Flags := BitFlags 0x03

namespace Flags

def none : Flags := ⟨0x00, by decide⟩

def moreFragmentsFollow : Flags := ⟨0x01, by decide⟩

end Flags

abbrev TraceFlags := BitFlags 0x01

namespace TraceFlags

def none : TraceFlags := ⟨0x00, by decide⟩

end TraceFlags

/-! ### Fixed width fields -/

def getU8 : Cursor CodecError UInt8 := UInt8.ofNat <$> getUInt 1

def getU16 : Cursor CodecError UInt16 := UInt16.ofNat <$> getUInt 2

def getU32 : Cursor CodecError UInt32 := UInt32.ofNat <$> getUInt 4

def getU64 : Cursor CodecError UInt64 := UInt64.ofNat <$> getUInt 8

def decodeBitflag {α : Type} (byte : UInt8) (decoder : UInt8 → Option α) : Cursor CodecError α :=
  ofOption (decoder byte) (.error s!"Unknown flag: {byte}")

/-! ### Lengths, strings and headers

The source has each of these twice, with 8 and with 16 bit lengths; `w` is the width in bytes. -/

def encodeLen (w : Nat) (dst : Bytes) (value : Nat) : CodecResult Bytes :=
  if value < 256 ^ w then .ok (dst ++ putBE w value)
  else .error (.error s!"Failed to cast '{value}' len.")

def encodeStringField (w : Nat) (value : String) (dst : Bytes) : CodecResult Bytes := do
  let dst ← encodeLen w dst (utf8 value).length
  return dst ++ utf8 value

def encodeString : String → Bytes → CodecResult Bytes := encodeStringField 2

def encodeSmallString : String → Bytes → CodecResult Bytes := encodeStringField 1

def encodeHeaderFields (w : Nat) (encodeString : String → Bytes → CodecResult Bytes)
    {headers : HashMap String String} (it : Iter headers) (dst : Bytes) : CodecResult Bytes := do
  let dst ← encodeLen w dst headers.entries.card
  it.entries.foldlM (fun dst e => do encodeString e.2 (← encodeString e.1 dst)) dst

def encodeHeaders {headers : HashMap String String} : Iter headers → Bytes → CodecResult Bytes :=
  encodeHeaderFields 2 encodeString

def encodeSmallHeaders {headers : HashMap String String} : Iter headers → Bytes → CodecResult Bytes :=
  encodeHeaderFields 1 encodeSmallString

def decodeStringField (w : Nat) : Cursor CodecError String := do
  let len ← getUInt w
  let bytes ← take len
  ofOption (fromUtf8 bytes) (.stringDecodingError ⟨bytes⟩)

def decodeString : Cursor CodecError String := decodeStringField 2

def decodeSmallString : Cursor CodecError String := decodeStringField 1

/-- The loop of `decode_headers_field`: `n` more entries go into `headers`. -/
def decodeEntries (decodeString : Cursor CodecError String) :
    Nat → HashMap String String → Cursor CodecError (HashMap String String)
  | 0, headers => pure headers
  | n + 1, headers => do
    let key ← decodeString
    let val ← decodeString
    decodeEntries decodeString n (headers.insert key val)

def decodeHeadersField (w : Nat) (decodeString : Cursor CodecError String) :
    Cursor CodecError (HashMap String String) := do
  let len ← getUInt w
  decodeEntries decodeString len ∅

def decodeHeaders : Cursor CodecError (HashMap String String) := decodeHeadersField 2 decodeString

def decodeSmallHeaders : Cursor CodecError (HashMap String String) :=
  decodeHeadersField 1 decodeSmallString

/-! ### Checksum and args -/

def encodeChecksum (checksumType : ChecksumType) (value : Option UInt32) (dst : Bytes) :
    CodecResult Bytes :=
  let dst := dst ++ [checksumType.toU8]
  if checksumType ≠ .none then
    match value with
    | some value => .ok (dst ++ putBE 4 value.toNat)
    | none => .error (.error "Missing checksum value.")
  else .ok dst

def decodeChecksum : Cursor CodecError (ChecksumType × Option UInt32) := do
  match ← decodeBitflag (← getU8) ChecksumType.fromU8 with
  | .none => return (.none, none)
  | checksum => return (checksum, some (← getU32))

/-- One arg with its length, cast to 16 bits unchecked. -/
def putArg : Option Bytes → Bytes
  | none => putBE 2 0
  | some arg => putBE 2 (UInt16.ofNat arg.length).toNat ++ arg

def encodeArgs (args : List (Option Bytes)) (dst : Bytes) : CodecResult Bytes :=
  if args.length = 0 ∨ args.length > maxFrameArgs then
    .error (.error s!"Wrong number of frame args {args.length}")
  else
    let dst := args.foldl (fun dst arg => dst ++ putArg arg) dst
    if dst.length > frameMaxLength - frameHeaderLength then
      .error (.error s!"Frame too long: {dst.length}")
    else .ok dst

def decodeArg : Cursor CodecError (Option Bytes) := do
  match ← remaining with
  | 0 | 1 => fail (.error "Cannot read arg length")
  | remaining =>
    let len ← getU16
    if len = 0 then
      return none
    else if len.toNat > (← checkedSub (UInt16.ofNat remaining).toNat 2) then
      fail (.error s!"Wrong arg length: {len}")
    else
      some <$> take len.toNat

/-- The loop of `decode_args`: at most `n` more args, up to the end of the payload. -/
def decodeArgsLoop : Nat → Cursor CodecError (List (Option Bytes))
  | 0 => return []
  | n + 1 => do
    if (← remaining) = 0 then
      return []
    else
      return (← decodeArg) :: (← decodeArgsLoop n)

def decodeArgs : Cursor CodecError (List (Option Bytes)) := do
  if (← remaining) = 0 then
    fail (.error "Frame missing args")
  else
    let args ← decodeArgsLoop maxFrameArgs
    if (← remaining) ≠ 0 then
      fail (.error "Incorrect frame length")
    else
      return args

/-! ### Payloads -/

structure Tracing where
  spanId : UInt64
  parentId : UInt64
  traceId : UInt64
  traceFlags : TraceFlags
deriving DecidableEq, Repr

namespace Tracing

def default : Tracing := ⟨0, 0, 0, .none⟩

def encode (self : Tracing) (dst : Bytes) : CodecResult Bytes :=
  .ok (dst ++ putBE 8 self.spanId.toNat ++ putBE 8 self.parentId.toNat ++
    putBE 8 self.traceId.toNat ++ [self.traceFlags.bits])

def decode : Cursor CodecError Tracing :=
  return ⟨← getU64, ← getU64, ← getU64, ← decodeBitflag (← getU8) BitFlags.fromBits⟩

end Tracing

structure Init where
  version : UInt16
  headers : HashMap String String
deriving DecidableEq

namespace Init

def default : Init := ⟨protocolVersion, ∅⟩

def encode (self : Init) (it : Iter self.headers) (dst : Bytes) : CodecResult Bytes :=
  encodeHeaders it (dst ++ putBE 2 self.version.toNat)

def encodeBytes (self : Init) (it : Iter self.headers) : CodecResult Bytes := self.encode it []

def decode : Cursor CodecError Init := return ⟨← getU16, ← decodeHeaders⟩

end Init

structure CallArgs where
  checksumType : ChecksumType
  checksum : Option UInt32
  args : List (Option Bytes)
deriving DecidableEq, Repr

namespace CallArgs

def encode (self : CallArgs) (dst : Bytes) : CodecResult Bytes := do
  encodeArgs self.args (← encodeChecksum self.checksumType self.checksum dst)

def decode : Cursor CodecError CallArgs := do
  let (checksumType, checksum) ← decodeChecksum
  return ⟨checksumType, checksum, ← decodeArgs⟩

end CallArgs

structure CallWithFieldsEncoded where
  flags : Flags
  fields : Bytes
  args : CallArgs
deriving DecidableEq, Repr

namespace CallWithFieldsEncoded

def encode (self : CallWithFieldsEncoded) (dst : Bytes) : CodecResult Bytes :=
  self.args.encode (dst ++ [self.flags.bits] ++ self.fields)

def encodeBytes (self : CallWithFieldsEncoded) : CodecResult Bytes := self.encode []

end CallWithFieldsEncoded

structure CallRequestFields where
  ttl : UInt32
  tracing : Tracing
  service : String
  headers : HashMap String String
deriving DecidableEq

namespace CallRequestFields

def encode (self : CallRequestFields) (it : Iter self.headers) (dst : Bytes) : CodecResult Bytes := do
  let dst ← self.tracing.encode (dst ++ putBE 4 self.ttl.toNat)
  let dst ← encodeSmallString self.service dst
  encodeSmallHeaders it dst

def encodeBytes (self : CallRequestFields) (it : Iter self.headers) : CodecResult Bytes :=
  self.encode it []

def decode : Cursor CodecError CallRequestFields :=
  return ⟨← getU32, ← Tracing.decode, ← decodeSmallString, ← decodeSmallHeaders⟩

end CallRequestFields

structure CallRequest where
  flags : Flags
  fields : CallRequestFields
  args : CallArgs
deriving DecidableEq

namespace CallRequest

def encode (self : CallRequest) (it : Iter self.fields.headers) (dst : Bytes) : CodecResult Bytes := do
  self.args.encode (← self.fields.encode it (dst ++ [self.flags.bits]))

def encodeBytes (self : CallRequest) (it : Iter self.fields.headers) : CodecResult Bytes :=
  self.encode it []

def decode : Cursor CodecError CallRequest :=
  return ⟨← decodeBitflag (← getU8) BitFlags.fromBits, ← CallRequestFields.decode, ← CallArgs.decode⟩

end CallRequest

structure CallResponseFields where
  code : ResponseCode
  tracing : Tracing
  headers : HashMap String String
deriving DecidableEq

namespace CallResponseFields

def encode (self : CallResponseFields) (it : Iter self.headers) (dst : Bytes) : CodecResult Bytes := do
  let dst ← self.tracing.encode (dst ++ [self.code.toU8])
  encodeSmallHeaders it dst

def encodeBytes (self : CallResponseFields) (it : Iter self.headers) : CodecResult Bytes :=
  self.encode it []

def decode : Cursor CodecError CallResponseFields :=
  return ⟨← decodeBitflag (← getU8) ResponseCode.fromU8, ← Tracing.decode, ← decodeSmallHeaders⟩

end CallResponseFields

structure CallResponse where
  flags : Flags
  fields : CallResponseFields
  args : CallArgs
deriving DecidableEq

namespace CallResponse

def encode (self : CallResponse) (it : Iter self.fields.headers) (dst : Bytes) : CodecResult Bytes := do
  self.args.encode (← self.fields.encode it (dst ++ [self.flags.bits]))

def encodeBytes (self : CallResponse) (it : Iter self.fields.headers) : CodecResult Bytes :=
  self.encode it []

def decode : Cursor CodecError CallResponse :=
  return ⟨← decodeBitflag (← getU8) BitFlags.fromBits, ← CallResponseFields.decode, ← CallArgs.decode⟩

end CallResponse

structure CallContinue where
  flags : Flags
  args : CallArgs
deriving DecidableEq, Repr

namespace CallContinue

def encode (self : CallContinue) (dst : Bytes) : CodecResult Bytes :=
  self.args.encode (dst ++ [self.flags.bits])

def encodeBytes (self : CallContinue) : CodecResult Bytes := self.encode []

def decode : Cursor CodecError CallContinue :=
  return ⟨← decodeBitflag (← getU8) BitFlags.fromBits, ← CallArgs.decode⟩

end CallContinue

structure Cancel where
  ttl : UInt32
  tracing : Tracing
  why : String
deriving DecidableEq, Repr

namespace Cancel

def encode (self : Cancel) (dst : Bytes) : CodecResult Bytes := do
  encodeString self.why (← self.tracing.encode (dst ++ putBE 4 self.ttl.toNat))

def encodeBytes (self : Cancel) : CodecResult Bytes := self.encode []

def decode : Cursor CodecError Cancel := return ⟨← getU32, ← Tracing.decode, ← decodeString⟩

end Cancel

structure Claim where
  ttl : UInt32
  tracing : Tracing
deriving DecidableEq, Repr

namespace Claim

def encode (self : Claim) (dst : Bytes) : CodecResult Bytes :=
  self.tracing.encode (dst ++ putBE 4 self.ttl.toNat)

def encodeBytes (self : Claim) : CodecResult Bytes := self.encode []

def decode : Cursor CodecError Claim := return ⟨← getU32, ← Tracing.decode⟩

end Claim

structure ErrorMsg where
  code : ErrorCode
  tracing : Tracing
  message : String
deriving DecidableEq, Repr

namespace ErrorMsg

def encode (self : ErrorMsg) (dst : Bytes) : CodecResult Bytes := do
  encodeString self.message (← self.tracing.encode (dst ++ [self.code.toU8]))

def encodeBytes (self : ErrorMsg) : CodecResult Bytes := self.encode []

def decode : Cursor CodecError ErrorMsg :=
  return ⟨← decodeBitflag (← getU8) ErrorCode.fromU8, ← Tracing.decode, ← decodeString⟩

end ErrorMsg

end Tchannel
