import Tchannel.PayloadBytes
import Mathlib.Algebra.Order.BigOperators.Group.List
import Mathlib.Algebra.Order.Group.Nat

/-!
# Payload round trip

Each payload type in turn: the bytes its encoder writes, when it accepts a value, and that its decoder
reads the bytes back to the end. Two things are not kept: an arg `Some(empty)` is read as `None`, and a
checksum value beside `ChecksumType::None` is not written (`CallArgs.normalize`).
-/

namespace Tchannel
open Wire Wire.Cursor

/-! ### Tracing -/

namespace Tracing

def bytes (t : Tracing) : Bytes :=
  putBE 8 t.spanId.toNat ++ (putBE 8 t.parentId.toNat ++ (putBE 8 t.traceId.toNat ++ [t.traceFlags.bits]))

@[simp] theorem bytes_length (t : Tracing) : t.bytes.length = 25 := by simp [bytes]

theorem encode_eq (t : Tracing) (dst : Bytes) : t.encode dst = .ok (dst ++ t.bytes) := by
  simp [encode, bytes]

theorem reads_decode (t : Tracing) : Reads decode t.bytes t :=
  (reads_getU64 _).bind <| (reads_getU64 _).bind <| (reads_getU64 _).bind <| (reads_getU8 _).bind <|
    (reads_decodeBitflag (BitFlags.fromBits_bits t.traceFlags)).bind_pure (Tracing.mk t.spanId t.parentId t.traceId)

end Tracing

/-! ### Headers -/

/-- The length of a header map behind `w`-byte lengths, whatever its iteration order. -/
def headersLen (w : Nat) (headers : HashMap String String) : Nat :=
  w + (headers.entries.map fun e => (w + (utf8 e.1).length) + (w + (utf8 e.2).length)).sum

theorem headerBytes_length {w : Nat} {headers : HashMap String String} (it : Iter headers) :
    (headerBytes w it.entries).length = headersLen w headers := by
  rw [headersLen, ← it.visits, Multiset.map_coe, Multiset.sum_coe]
  simp [headerBytes, List.length_flatMap]

/-! ### Init, Cancel, Claim, ErrorMsg -/

namespace Init

theorem decode_encodeBytes {v : Init} {it : Iter v.headers} {b : Bytes} (h : v.encodeBytes it = .ok b) :
    decode.run b = .ok v [] := by
  obtain ⟨hfit, rfl⟩ := encodeHeaderFields_eq_ok.1 h
  rw [List.nil_append]
  exact ((reads_getU16 _).bind ((reads_decodeHeadersField hfit it).bind_pure (Init.mk v.version))).all

end Init

namespace Cancel

theorem decode_encodeBytes {v : Cancel} {b : Bytes} (h : v.encodeBytes = .ok b) :
    decode.run b = .ok v [] := by
  rw [encodeBytes, encode, Tracing.encode_eq, codec_ok_bind] at h
  obtain ⟨hw, rfl⟩ := encodeStringField_eq_ok.1 h
  rw [List.nil_append, List.append_assoc]
  exact ((reads_getU32 _).bind ((Tracing.reads_decode _).bind
    ((reads_decodeStringField hw).bind_pure (Cancel.mk v.ttl v.tracing)))).all

end Cancel

namespace Claim

theorem decode_encodeBytes {v : Claim} {b : Bytes} (h : v.encodeBytes = .ok b) :
    decode.run b = .ok v [] := by
  rw [encodeBytes, encode, Tracing.encode_eq] at h
  obtain rfl := Except.ok.inj h
  exact ((reads_getU32 _).bind ((Tracing.reads_decode v.tracing).bind_pure (Claim.mk v.ttl))).all

end Claim

namespace ErrorMsg

theorem encodeBytes_eq_ok {v : ErrorMsg} {b : Bytes} :
    v.encodeBytes = .ok b ↔ (utf8 v.message).length < 256 ^ 2 ∧
      b = [v.code.toU8] ++ (v.tracing.bytes ++ stringBytes 2 v.message) := by
  rw [encodeBytes, encode, Tracing.encode_eq]
  refine encodeStringField_eq_ok.trans ?_
  simp

theorem decode_encodeBytes {v : ErrorMsg} {b : Bytes} (h : v.encodeBytes = .ok b) :
    decode.run b = .ok v [] := by
  obtain ⟨hw, rfl⟩ := encodeBytes_eq_ok.1 h
  exact ((reads_getU8 _).bind ((reads_decodeBitflag (ErrorCode.fromU8_toU8 _)).bind
    ((Tracing.reads_decode _).bind
      ((reads_decodeStringField hw).bind_pure (ErrorMsg.mk v.code v.tracing))))).all

end ErrorMsg

/-! ### Call args -/

namespace CallArgs

/-- What is left of `a` after writing and reading it. -/
def normalize (a : CallArgs) : CallArgs :=
  ⟨a.checksumType, if a.checksumType = .none then none else a.checksum, a.args.map normArg⟩

/-- The encoder's own conditions, apart from the length of the whole payload. -/
structure Encodable (a : CallArgs) : Prop where
  one_le : 1 ≤ a.args.length
  le_three : a.args.length ≤ 3
  checksum : ChecksumGiven a.checksumType a.checksum

def bytes (a : CallArgs) : Bytes := checksumBytes a.checksumType a.checksum ++ a.args.flatMap putArg

def encodedLen (a : CallArgs) : Nat :=
  (if a.checksumType = .none then 1 else 5) + (a.args.map fun arg => 2 + argLen arg).sum

theorem bytes_length (a : CallArgs) : a.bytes.length = a.encodedLen := by
  simp [bytes, encodedLen, checksumBytes_length, List.length_flatMap]

theorem encode_eq_ok {a : CallArgs} {dst d : Bytes} :
    a.encode dst = .ok d ↔
      a.Encodable ∧ dst.length + a.encodedLen ≤ maxPayload ∧ d = dst ++ a.bytes := by
  rw [encode, except_bind_eq_ok, ← bytes_length, ← List.length_append]
  constructor
  · rintro ⟨d', h, h'⟩
    obtain ⟨hc, rfl⟩ := encodeChecksum_eq_ok.1 h
    obtain ⟨⟨h1, h3⟩, hl, rfl⟩ := encodeArgs_eq_ok.1 h'
    rw [List.append_assoc] at hl ⊢
    exact ⟨⟨h1, h3, hc⟩, hl, rfl⟩
  · rintro ⟨he, hl, rfl⟩
    refine ⟨_, encodeChecksum_eq_ok.2 ⟨he.checksum, rfl⟩,
      encodeArgs_eq_ok.2 ⟨⟨he.one_le, he.le_three⟩, ?_, ?_⟩⟩ <;> rw [List.append_assoc]
    · exact hl
    · rfl

theorem decode_bytes {a : CallArgs} (he : a.Encodable) (hl : a.encodedLen < 65536) :
    decode.run a.bytes = .ok a.normalize [] := by
  have hargs := decodeArgs_putArgs he.one_le he.le_three (by
    rw [← bytes_length, bytes, List.length_append] at hl
    omega)
  refine (reads_decodeChecksum he.checksum).bind_all ?_
  rw [bind_ok hargs]
  rfl

theorem arg_length_lt {a : CallArgs} (hl : a.encodedLen ≤ maxPayload) {arg : Bytes}
    (h : some arg ∈ a.args) : (UInt16.ofNat arg.length).toNat = arg.length := by
  have hmem : 2 + argLen (some arg) ∈ a.args.map fun arg => 2 + argLen arg := List.mem_map_of_mem h
  have hle := List.le_sum_of_mem hmem
  refine UInt16.toNat_ofNat_of_lt' ?_
  simp only [encodedLen, argLen, maxPayload, frameMaxLength, frameHeaderLength, Option.getD_some] at *
  show arg.length < 65536
  omega

end CallArgs

theorem maxPayload_lt : maxPayload < 65536 := by decide

/-! ### Calls -/

/-- A writer of fields appends `fb`, if the fields meet the condition `P`. -/
def Writes (encode : Bytes → CodecResult Bytes) (P : Prop) (fb : Bytes) : Prop :=
  ∀ dst d, encode dst = .ok d ↔ P ∧ d = dst ++ fb

namespace CallRequestFields

/-- The service and the headers fit behind 8 bit lengths. -/
structure Encodable (f : CallRequestFields) : Prop where
  service : (utf8 f.service).length < 256 ^ 1
  headers : HeadersFit 1 f.headers

def bytes (f : CallRequestFields) (it : Iter f.headers) : Bytes :=
  putBE 4 f.ttl.toNat ++ (f.tracing.bytes ++ (stringBytes 1 f.service ++ headerBytes 1 it.entries))

def encodedLen (f : CallRequestFields) : Nat :=
  4 + 25 + (1 + (utf8 f.service).length) + headersLen 1 f.headers

theorem bytes_length (f : CallRequestFields) (it : Iter f.headers) :
    (f.bytes it).length = f.encodedLen := by
  simp only [bytes, encodedLen, List.length_append, putBE_length, Tracing.bytes_length,
    stringBytes_length, headerBytes_length]
  omega

theorem encode_eq_ok {f : CallRequestFields} {it : Iter f.headers} {dst d : Bytes} :
    f.encode it dst = .ok d ↔ f.Encodable ∧ d = dst ++ f.bytes it := by
  rw [encode, Tracing.encode_eq, codec_ok_bind, except_bind_eq_ok]
  constructor
  · rintro ⟨d', h, h'⟩
    obtain ⟨hs, rfl⟩ := encodeStringField_eq_ok.1 h
    obtain ⟨hh, rfl⟩ := encodeHeaderFields_eq_ok.1 h'
    exact ⟨⟨hs, hh⟩, by simp [bytes]⟩
  · rintro ⟨he, rfl⟩
    exact ⟨_, encodeStringField_eq_ok.2 ⟨he.service, rfl⟩,
      encodeHeaderFields_eq_ok.2 ⟨he.headers, by simp [bytes]⟩⟩

theorem writes (f : CallRequestFields) (it : Iter f.headers) : Writes (f.encode it) f.Encodable (f.bytes it) :=
  fun _ _ => encode_eq_ok

theorem reads_decode {f : CallRequestFields} (he : f.Encodable) (it : Iter f.headers) :
    Reads decode (f.bytes it) f :=
  (reads_getU32 _).bind ((Tracing.reads_decode _).bind ((reads_decodeStringField he.service).bind
    ((reads_decodeHeadersField he.headers it).bind_pure (CallRequestFields.mk f.ttl f.tracing f.service))))

end CallRequestFields

namespace CallResponseFields

structure Encodable (f : CallResponseFields) : Prop where
  headers : HeadersFit 1 f.headers

def bytes (f : CallResponseFields) (it : Iter f.headers) : Bytes :=
  [f.code.toU8] ++ (f.tracing.bytes ++ headerBytes 1 it.entries)

def encodedLen (f : CallResponseFields) : Nat := 1 + 25 + headersLen 1 f.headers

theorem bytes_length (f : CallResponseFields) (it : Iter f.headers) :
    (f.bytes it).length = f.encodedLen := by
  simp only [bytes, encodedLen, List.length_append, List.length_singleton, Tracing.bytes_length,
    headerBytes_length]
  omega

theorem encode_eq_ok {f : CallResponseFields} {it : Iter f.headers} {dst d : Bytes} :
    f.encode it dst = .ok d ↔ f.Encodable ∧ d = dst ++ f.bytes it := by
  rw [encode, Tracing.encode_eq, codec_ok_bind]
  refine encodeHeaderFields_eq_ok.trans ?_
  constructor
  · rintro ⟨hh, rfl⟩
    exact ⟨⟨hh⟩, by simp [bytes]⟩
  · rintro ⟨he, rfl⟩
    exact ⟨he.headers, by simp [bytes]⟩

theorem writes (f : CallResponseFields) (it : Iter f.headers) : Writes (f.encode it) f.Encodable (f.bytes it) :=
  fun _ _ => encode_eq_ok

theorem reads_decode {f : CallResponseFields} (he : f.Encodable) (it : Iter f.headers) :
    Reads decode (f.bytes it) f :=
  (reads_getU8 _).bind ((reads_decodeBitflag (ResponseCode.fromU8_toU8 _)).bind
    ((Tracing.reads_decode _).bind
      ((reads_decodeHeadersField he.headers it).bind_pure (CallResponseFields.mk f.code f.tracing))))

end CallResponseFields

theorem bind_flags_fields_args {F C : Type} {decodeFields : Cursor CodecError F} {fb : Bytes} {fields : F}
    (hf : Reads decodeFields fb fields) (mk : Flags → F → CallArgs → C) (flags : Flags) {args : CallArgs}
    (he : args.Encodable) (hl : args.encodedLen < 65536) :
    (do return mk (← decodeBitflag (← getU8) BitFlags.fromBits) (← decodeFields) (← CallArgs.decode) :
        Cursor CodecError C).run ([flags.bits] ++ (fb ++ args.bytes)) =
      .ok (mk flags fields args.normalize) [] := by
  refine (reads_getU8 _).bind_all ?_
  refine (reads_decodeBitflag (BitFlags.fromBits_bits flags)).bind_all ?_
  refine hf.bind_all ?_
  rw [bind_ok (CallArgs.decode_bytes he hl)]
  rfl

namespace CallWithFieldsEncoded

theorem encodeBytes_eq_ok {v : CallWithFieldsEncoded} {b : Bytes} :
    v.encodeBytes = .ok b ↔
      v.args.Encodable ∧ 1 + v.fields.length + v.args.encodedLen ≤ maxPayload ∧
        b = [v.flags.bits] ++ (v.fields ++ v.args.bytes) := by
  rw [encodeBytes, encode]
  refine CallArgs.encode_eq_ok.trans ?_
  simp [Nat.add_comm 1]

theorem encodeBytes_length {v : CallWithFieldsEncoded} {b : Bytes} (h : v.encodeBytes = .ok b) :
    b.length = 1 + v.fields.length + v.args.encodedLen := by
  obtain ⟨-, -, rfl⟩ := encodeBytes_eq_ok.1 h
  simp [CallArgs.bytes_length]
  omega

theorem decode_request {flags : Flags} {fields : CallRequestFields} {it : Iter fields.headers}
    {fb : Bytes} {args : CallArgs} {b : Bytes} (hf : fields.encodeBytes it = .ok fb)
    (h : (CallWithFieldsEncoded.mk flags fb args).encodeBytes = .ok b) :
    CallRequest.decode.run b = .ok ⟨flags, fields, args.normalize⟩ [] := by
  obtain ⟨hfe, rfl⟩ := CallRequestFields.encode_eq_ok.1 hf
  obtain ⟨he, hl, rfl⟩ := encodeBytes_eq_ok.1 h
  have hlt := maxPayload_lt
  exact bind_flags_fields_args (CallRequestFields.reads_decode hfe it) CallRequest.mk flags he (by omega)

theorem decode_response {flags : Flags} {fields : CallResponseFields} {it : Iter fields.headers}
    {fb : Bytes} {args : CallArgs} {b : Bytes} (hf : fields.encodeBytes it = .ok fb)
    (h : (CallWithFieldsEncoded.mk flags fb args).encodeBytes = .ok b) :
    CallResponse.decode.run b = .ok ⟨flags, fields, args.normalize⟩ [] := by
  obtain ⟨hfe, rfl⟩ := CallResponseFields.encode_eq_ok.1 hf
  obtain ⟨he, hl, rfl⟩ := encodeBytes_eq_ok.1 h
  have hlt := maxPayload_lt
  exact bind_flags_fields_args (CallResponseFields.reads_decode hfe it) CallResponse.mk flags he (by omega)

end CallWithFieldsEncoded

namespace Writes

variable {encode : Bytes → CodecResult Bytes} {P : Prop} {fb : Bytes} {flags : Flags} {args : CallArgs} {b : Bytes}

theorem call_eq_ok (h : Writes encode P fb) :
    (do args.encode (← encode [flags.bits])) = .ok b ↔
      ∃ fb, encode [] = .ok fb ∧ (CallWithFieldsEncoded.mk flags fb args).encodeBytes = .ok b := by
  rw [except_bind_eq_ok]
  constructor
  · rintro ⟨d, hd, hargs⟩
    obtain ⟨hp, rfl⟩ := (h _ _).1 hd
    exact ⟨_, (h _ _).2 ⟨hp, rfl⟩, hargs⟩
  · rintro ⟨fb', hd, hargs⟩
    obtain ⟨hp, rfl⟩ := (h _ _).1 hd
    exact ⟨_, (h _ _).2 ⟨hp, rfl⟩, hargs⟩

theorem call_ok_iff (h : Writes encode P fb) :
    (∃ b, (do args.encode (← encode [flags.bits])) = .ok b) ↔
      P ∧ args.Encodable ∧ 1 + fb.length + args.encodedLen ≤ maxPayload := by
  constructor
  · rintro ⟨b, hb⟩
    obtain ⟨fb', hf, hb⟩ := h.call_eq_ok.1 hb
    obtain ⟨hp, rfl⟩ := (h _ _).1 hf
    obtain ⟨he, hl, -⟩ := CallWithFieldsEncoded.encodeBytes_eq_ok.1 hb
    exact ⟨hp, he, hl⟩
  · rintro ⟨hp, he, hl⟩
    exact ⟨_, h.call_eq_ok.2 ⟨_, (h _ _).2 ⟨hp, rfl⟩, CallWithFieldsEncoded.encodeBytes_eq_ok.2 ⟨he, hl, rfl⟩⟩⟩

theorem call_length (h : Writes encode P fb) (hb : (do args.encode (← encode [flags.bits])) = .ok b) :
    b.length = 1 + fb.length + args.encodedLen := by
  obtain ⟨fb', hf, hb⟩ := h.call_eq_ok.1 hb
  obtain ⟨-, rfl⟩ := (h _ _).1 hf
  exact CallWithFieldsEncoded.encodeBytes_length hb

end Writes

namespace CallRequest

def encodedLen (v : CallRequest) : Nat := 1 + v.fields.encodedLen + v.args.encodedLen

variable {v : CallRequest} {it : Iter v.fields.headers} {b : Bytes}

theorem encodeBytes_eq_ok :
    v.encodeBytes it = .ok b ↔
      ∃ fb, v.fields.encodeBytes it = .ok fb ∧
        (CallWithFieldsEncoded.mk v.flags fb v.args).encodeBytes = .ok b := (v.fields.writes it).call_eq_ok

theorem encodeBytes_ok_iff :
    (∃ b, v.encodeBytes it = .ok b) ↔
      v.fields.Encodable ∧ v.args.Encodable ∧ v.encodedLen ≤ maxPayload := by
  rw [encodedLen, ← CallRequestFields.bytes_length v.fields it]
  exact (v.fields.writes it).call_ok_iff

theorem encodeBytes_length (h : v.encodeBytes it = .ok b) : b.length = v.encodedLen := by
  rw [encodedLen, ← CallRequestFields.bytes_length v.fields it]
  exact (v.fields.writes it).call_length h

end CallRequest

namespace CallResponse

def encodedLen (v : CallResponse) : Nat := 1 + v.fields.encodedLen + v.args.encodedLen

variable {v : CallResponse} {it : Iter v.fields.headers} {b : Bytes}

theorem encodeBytes_eq_ok :
    v.encodeBytes it = .ok b ↔
      ∃ fb, v.fields.encodeBytes it = .ok fb ∧
        (CallWithFieldsEncoded.mk v.flags fb v.args).encodeBytes = .ok b := (v.fields.writes it).call_eq_ok

theorem encodeBytes_ok_iff :
    (∃ b, v.encodeBytes it = .ok b) ↔
      v.fields.Encodable ∧ v.args.Encodable ∧ v.encodedLen ≤ maxPayload := by
  rw [encodedLen, ← CallResponseFields.bytes_length v.fields it]
  exact (v.fields.writes it).call_ok_iff

theorem encodeBytes_length (h : v.encodeBytes it = .ok b) : b.length = v.encodedLen := by
  rw [encodedLen, ← CallResponseFields.bytes_length v.fields it]
  exact (v.fields.writes it).call_length h

end CallResponse

namespace CallContinue

def encodedLen (v : CallContinue) : Nat := 1 + v.args.encodedLen

theorem encodeBytes_eq_ok {v : CallContinue} {b : Bytes} :
    v.encodeBytes = .ok b ↔
      v.args.Encodable ∧ v.encodedLen ≤ maxPayload ∧ b = [v.flags.bits] ++ v.args.bytes := by
  rw [encodeBytes, encode]
  exact CallArgs.encode_eq_ok

theorem encodeBytes_length {v : CallContinue} {b : Bytes} (h : v.encodeBytes = .ok b) :
    b.length = v.encodedLen := by
  obtain ⟨-, -, rfl⟩ := encodeBytes_eq_ok.1 h
  simp [encodedLen, CallArgs.bytes_length, Nat.add_comm]

theorem decode_encodeBytes {v : CallContinue} {b : Bytes} (h : v.encodeBytes = .ok b) :
    decode.run b = .ok ⟨v.flags, v.args.normalize⟩ [] := by
  obtain ⟨he, hl, rfl⟩ := encodeBytes_eq_ok.1 h
  have hlt := maxPayload_lt
  refine (reads_getU8 _).bind_all ?_
  refine (reads_decodeBitflag (BitFlags.fromBits_bits v.flags)).bind_all (q := v.args.bytes) ?_
  rw [bind_ok (CallArgs.decode_bytes he (by rw [encodedLen] at hl; omega))]
  rfl

end CallContinue

/-! ### The whole format -/

/-- At most 255 headers, each key and value of at most 255 bytes. -/
def SmallHeaders (headers : HashMap String String) : Prop :=
  headers.entries.card ≤ 255 ∧
    ∀ e ∈ headers.entries, (utf8 e.1).length ≤ 255 ∧ (utf8 e.2).length ≤ 255

theorem headersFit_one {headers : HashMap String String} :
    HeadersFit 1 headers ↔ SmallHeaders headers := by
  constructor
  · intro h
    refine ⟨Nat.le_of_lt_succ h.count, fun e he => ⟨?_, ?_⟩⟩
    · exact Nat.le_of_lt_succ (h.key e he)
    · exact Nat.le_of_lt_succ (h.val e he)
  · rintro ⟨hn, hs⟩
    exact ⟨Nat.lt_succ_of_le hn, fun e he => Nat.lt_succ_of_le (hs e he).1,
      fun e he => Nat.lt_succ_of_le (hs e he).2⟩

/-- One to three args, and a checksum value if its type is not `None`. -/
def CallArgs.WellFormed (a : CallArgs) : Prop :=
  (1 ≤ a.args.length ∧ a.args.length ≤ 3) ∧ (a.checksumType ≠ .none → a.checksum.isSome)

theorem CallArgs.encodable_iff {a : CallArgs} : a.Encodable ↔ a.WellFormed :=
  ⟨fun h => ⟨⟨h.one_le, h.le_three⟩, h.checksum⟩, fun h => ⟨h.1.1, h.1.2, h.2⟩⟩

/-- What is encoded is read back, to the last byte, for every payload type and every iteration order of
the headers. -/
theorem payloads_round_trip :
    (∀ (v : Init) (it : Iter v.headers) (b : Bytes), v.encodeBytes it = .ok b →
      Init.decode.run b = .ok v []) ∧
    (∀ (v : CallRequest) (it : Iter v.fields.headers) (b : Bytes), v.encodeBytes it = .ok b →
      CallRequest.decode.run b = .ok { v with args := v.args.normalize } []) ∧
    (∀ (v : CallResponse) (it : Iter v.fields.headers) (b : Bytes), v.encodeBytes it = .ok b →
      CallResponse.decode.run b = .ok { v with args := v.args.normalize } []) ∧
    (∀ (v : CallContinue) (b : Bytes), v.encodeBytes = .ok b →
      CallContinue.decode.run b = .ok { v with args := v.args.normalize } []) ∧
    (∀ (v : Cancel) (b : Bytes), v.encodeBytes = .ok b → Cancel.decode.run b = .ok v []) ∧
    (∀ (v : Claim) (b : Bytes), v.encodeBytes = .ok b → Claim.decode.run b = .ok v []) ∧
    (∀ (v : ErrorMsg) (b : Bytes), v.encodeBytes = .ok b → ErrorMsg.decode.run b = .ok v []) := by
  refine ⟨fun v it b => Init.decode_encodeBytes, fun v it b h => ?_, fun v it b h => ?_,
    fun v b => CallContinue.decode_encodeBytes, fun v b => Cancel.decode_encodeBytes,
    fun v b => Claim.decode_encodeBytes, fun v b => ErrorMsg.decode_encodeBytes⟩
  · obtain ⟨fb, hf, h⟩ := CallRequest.encodeBytes_eq_ok.1 h
    exact CallWithFieldsEncoded.decode_request hf h
  · obtain ⟨fb, hf, h⟩ := CallResponse.encodeBytes_eq_ok.1 h
    exact CallWithFieldsEncoded.decode_response hf h

theorem CallRequest.accepted_iff (v : CallRequest) (it : Iter v.fields.headers) :
    (∃ b, v.encodeBytes it = .ok b) ↔
      (utf8 v.fields.service).length ≤ 255 ∧ SmallHeaders v.fields.headers ∧ v.args.WellFormed ∧
        v.encodedLen ≤ 65518 := by
  rw [encodeBytes_ok_iff, CallArgs.encodable_iff]
  constructor
  · rintro ⟨hf, ha, hl⟩
    exact ⟨Nat.le_of_lt_succ hf.service, headersFit_one.1 hf.headers, ha, hl⟩
  · rintro ⟨hs, hh, ha, hl⟩
    exact ⟨⟨Nat.lt_succ_of_le hs, headersFit_one.2 hh⟩, ha, hl⟩

theorem CallResponse.accepted_iff (v : CallResponse) (it : Iter v.fields.headers) :
    (∃ b, v.encodeBytes it = .ok b) ↔
      SmallHeaders v.fields.headers ∧ v.args.WellFormed ∧ v.encodedLen ≤ 65518 := by
  rw [encodeBytes_ok_iff, CallArgs.encodable_iff]
  constructor
  · rintro ⟨hf, ha, hl⟩
    exact ⟨headersFit_one.1 hf.headers, ha, hl⟩
  · rintro ⟨hh, ha, hl⟩
    exact ⟨⟨headersFit_one.2 hh⟩, ha, hl⟩

theorem CallContinue.accepted_iff (v : CallContinue) :
    (∃ b, v.encodeBytes = .ok b) ↔ v.args.WellFormed ∧ v.encodedLen ≤ 65518 := by
  rw [← CallArgs.encodable_iff]
  constructor
  · rintro ⟨b, h⟩
    obtain ⟨ha, hl, -⟩ := encodeBytes_eq_ok.1 h
    exact ⟨ha, hl⟩
  · rintro ⟨ha, hl⟩
    exact ⟨_, encodeBytes_eq_ok.2 ⟨ha, hl, rfl⟩⟩

/-- The payload codecs over the whole format: every payload type is read back up to `normalize`, also a
call built from encoded fields; a call is accepted exactly when its strings, headers, args and
checksum are within the format's limits and it fits in a frame (`encodedLen` is the number of bytes
written), and then the 16 bit length written for each arg is the arg's length. -/
theorem payload_codecs_exact :
    ((∀ (v : Init) (it : Iter v.headers) (b : Bytes), v.encodeBytes it = .ok b →
        Init.decode.run b = .ok v []) ∧
      (∀ (v : CallRequest) (it : Iter v.fields.headers) (b : Bytes), v.encodeBytes it = .ok b →
        CallRequest.decode.run b = .ok { v with args := v.args.normalize } []) ∧
      (∀ (v : CallResponse) (it : Iter v.fields.headers) (b : Bytes), v.encodeBytes it = .ok b →
        CallResponse.decode.run b = .ok { v with args := v.args.normalize } []) ∧
      (∀ (v : CallContinue) (b : Bytes), v.encodeBytes = .ok b →
        CallContinue.decode.run b = .ok { v with args := v.args.normalize } []) ∧
      (∀ (v : Cancel) (b : Bytes), v.encodeBytes = .ok b → Cancel.decode.run b = .ok v []) ∧
      (∀ (v : Claim) (b : Bytes), v.encodeBytes = .ok b → Claim.decode.run b = .ok v []) ∧
      (∀ (v : ErrorMsg) (b : Bytes), v.encodeBytes = .ok b → ErrorMsg.decode.run b = .ok v [])) ∧
    ((∀ (flags : Flags) (fields : CallRequestFields) (it : Iter fields.headers) (fb : Bytes)
        (args : CallArgs) (b : Bytes), fields.encodeBytes it = .ok fb →
        (CallWithFieldsEncoded.mk flags fb args).encodeBytes = .ok b →
        CallRequest.decode.run b = .ok ⟨flags, fields, args.normalize⟩ []) ∧
      (∀ (flags : Flags) (fields : CallResponseFields) (it : Iter fields.headers) (fb : Bytes)
        (args : CallArgs) (b : Bytes), fields.encodeBytes it = .ok fb →
        (CallWithFieldsEncoded.mk flags fb args).encodeBytes = .ok b →
        CallResponse.decode.run b = .ok ⟨flags, fields, args.normalize⟩ [])) ∧
    ((∀ (v : CallRequest) (it : Iter v.fields.headers),
        (∃ b, v.encodeBytes it = .ok b) ↔
          (utf8 v.fields.service).length ≤ 255 ∧ SmallHeaders v.fields.headers ∧ v.args.WellFormed ∧
            v.encodedLen ≤ 65518) ∧
      (∀ (v : CallResponse) (it : Iter v.fields.headers),
        (∃ b, v.encodeBytes it = .ok b) ↔
          SmallHeaders v.fields.headers ∧ v.args.WellFormed ∧ v.encodedLen ≤ 65518) ∧
      (∀ v : CallContinue, (∃ b, v.encodeBytes = .ok b) ↔
        v.args.WellFormed ∧ v.encodedLen ≤ 65518)) ∧
    ((∀ (v : CallRequest) (it : Iter v.fields.headers) (b : Bytes), v.encodeBytes it = .ok b →
        b.length = v.encodedLen) ∧
      (∀ (v : CallResponse) (it : Iter v.fields.headers) (b : Bytes), v.encodeBytes it = .ok b →
        b.length = v.encodedLen) ∧
      (∀ (v : CallContinue) (b : Bytes), v.encodeBytes = .ok b → b.length = v.encodedLen)) ∧
    (∀ (args : CallArgs) (dst b : Bytes), args.encode dst = .ok b → ∀ arg, some arg ∈ args.args →
      (UInt16.ofNat arg.length).toNat = arg.length) := by
  refine ⟨payloads_round_trip, ⟨fun _ _ _ _ _ _ => CallWithFieldsEncoded.decode_request,
    fun _ _ _ _ _ _ => CallWithFieldsEncoded.decode_response⟩,
    ⟨CallRequest.accepted_iff, CallResponse.accepted_iff, CallContinue.accepted_iff⟩,
    ⟨fun _ _ _ => CallRequest.encodeBytes_length, fun _ _ _ => CallResponse.encodeBytes_length,
      fun _ _ => CallContinue.encodeBytes_length⟩, ?_⟩
  intro args dst b h arg harg
  obtain ⟨-, hl, -⟩ := CallArgs.encode_eq_ok.1 h
  exact CallArgs.arg_length_lt (by omega) harg

end Tchannel
