import Tchannel.Lib.Layout
import Tchannel.PayloadBytes
import Tchannel.Defragmentation

/-!
# Payloads that cannot panic their reader

For each payload format the exact condition on the bytes under which decoding, and for calls the check
of the args that follows it, returns. The conditions are layouts: every field that is reached lies inside
the payload. A call's payload also must not carry a checksum in front of well-formed args, because
`verifyArgs` is `todo!()` for every checksum type but `None`.
-/

namespace Tchannel
open Wire Wire.Cursor

/-! ### The args -/

/-- One to three length-prefixed chunks and nothing else. -/
def ArgList (b : Bytes) : Prop :=
  ∃ args : List (Option Bytes), 1 ≤ args.length ∧ args.length ≤ 3 ∧ b = args.flatMap putArg

theorem decodeArg_cases {b : Bytes} (h : b.length < 65536) :
    (∃ e b', decodeArg.run b = .error (.err e) b') ∨
      ∃ arg rest, decodeArg.run b = .ok arg rest ∧ b = putArg arg ++ rest := by
  by_cases h2 : 2 ≤ b.length
  · have hsplit : b.take 2 ++ b.drop 2 = b := List.take_append_drop 2 b
    have hput : putBE 2 (getBE (b.take 2)) = b.take 2 := by
      have := putBE_getBE (b.take 2)
      rwa [List.length_take, Nat.min_eq_left h2] at this
    rw [decodeArg_eq h2, Nat.mod_eq_of_lt h, if_neg (by omega : ¬ b.length < 2)]
    by_cases h0 : getBE (b.take 2) = 0
    · rw [if_pos h0]
      exact .inr ⟨none, b.drop 2, rfl, by rw [putArg, ← h0, hput, hsplit]⟩
    · rw [if_neg h0]
      by_cases hlen : getBE (b.take 2) > b.length - 2
      · rw [if_pos hlen]
        exact .inl ⟨_, _, rfl⟩
      · have htake : getBE (b.take 2) ≤ (b.drop 2).length := by rw [List.length_drop]; omega
        rw [if_neg hlen, map_apply, take_of_le htake]
        refine .inr ⟨_, _, rfl, ?_⟩
        have hn : (UInt16.ofNat (getBE (b.take 2))).toNat = getBE (b.take 2) :=
          UInt16.toNat_ofNat_of_lt' (show _ < 65536 by omega)
        rw [putArg, List.length_take, Nat.min_eq_left htake, hn, hput, List.append_assoc,
          List.take_append_drop, hsplit]
  · left
    rw [decodeArg, bind_ok (remaining_apply b)]
    rcases b with - | ⟨x, - | ⟨y, b⟩⟩
    · exact ⟨_, _, rfl⟩
    · exact ⟨_, _, rfl⟩
    · simp at h2

theorem decodeArgsLoop_cases {n : Nat} {b : Bytes} (h : b.length < 65536) :
    (∃ e b', (decodeArgsLoop n).run b = .error (.err e) b') ∨
      ∃ args rest, (decodeArgsLoop n).run b = .ok args rest ∧ b = args.flatMap putArg ++ rest ∧
        args.length ≤ n ∧ (b ≠ [] → n ≠ 0 → args ≠ []) := by
  induction n generalizing b with
  | zero => exact .inr ⟨[], b, rfl, by simp⟩
  | succ n ih =>
    rw [decodeArgsLoop, bind_ok (remaining_apply b)]
    by_cases h0 : b.length = 0
    · rw [if_pos h0]
      exact .inr ⟨[], b, rfl, by simp [List.length_eq_zero_iff.1 h0]⟩
    · rw [if_neg h0]
      rcases decodeArg_cases h with ⟨e, b', he⟩ | ⟨arg, rest, hok, hb⟩
      · exact .inl ⟨e, b', by rw [bind_error he]⟩
      · have hrest : rest.length < 65536 := by
          rw [hb, List.length_append] at h
          omega
        rw [bind_ok hok]
        rcases ih hrest with ⟨e, b', he⟩ | ⟨args, rest', hok', hb', hn, -⟩
        · exact .inl ⟨e, b', by rw [bind_error he]⟩
        · rw [bind_ok hok']
          refine .inr ⟨arg :: args, rest', rfl, ?_, by simpa using hn, by simp⟩
          rw [hb, hb', List.flatMap_cons, List.append_assoc]

/-- `decodeArgs` returns, and accepts exactly the lists of one to three chunks. -/
theorem decodeArgs_cases {b : Bytes} (h : b.length < 65536) :
    (∃ e b', decodeArgs.run b = .error (.err e) b' ∧ ¬ ArgList b) ∨
      ∃ args, decodeArgs.run b = .ok args [] ∧ ArgList b := by
  by_cases hlist : ArgList b
  · obtain ⟨args, h1, h3, rfl⟩ := hlist
    exact .inr ⟨_, decodeArgs_putArgs h1 h3 h, args, h1, h3, rfl⟩
  · left
    rw [decodeArgs, bind_ok (remaining_apply b)]
    by_cases h0 : b.length = 0
    · rw [if_pos h0]
      exact ⟨_, _, rfl, hlist⟩
    · rw [if_neg h0]
      have hne : b ≠ [] := fun hb => h0 (by simp [hb])
      rcases decodeArgsLoop_cases (n := maxFrameArgs) h with ⟨e, b', he⟩ | ⟨args, rest, hok, hb, hn, hpos⟩
      · exact ⟨e, b', by rw [bind_error he], hlist⟩
      · have hrest : rest.length ≠ 0 := by
          intro hr
          rw [List.length_eq_zero_iff.1 hr, List.append_nil] at hb
          exact hlist ⟨args, List.length_pos_of_ne_nil (hpos hne (by decide)), hn, hb⟩
        rw [bind_ok hok, bind_ok (remaining_apply rest), if_pos hrest]
        exact ⟨_, _, rfl, hlist⟩

theorem safe_decodeArgs {b : Bytes} (h : b.length < 65536) : Safe decodeArgs b := by
  rcases decodeArgs_cases h with ⟨e, b', he, -⟩ | ⟨args, hok, -⟩
  · intro b'' hp
    rw [he] at hp
    cases hp
  · exact safe_of_ok hok

/-! ### The fields -/

theorem follows_decodeBitflag {α β : Type} (decoder : UInt8 → Option α) {g : α → Cursor CodecError β}
    {l : Layout} (hg : ∀ a, Follows (g a) l) :
    Follows (getU8 >>= fun v => decodeBitflag v decoder >>= g)
      (Layout.byte (fun v => (decoder v).isSome) ∘ l) := by
  have h := (follows_byte decoder fun v => CodecError.error s!"Unknown flag: {v}").bind hg
  rw [bind_assoc] at h
  rw [getU8, bind_map_left]
  exact h

theorem follows_decodeStringField (w : Nat) : Follows (decodeStringField w) (.text w) :=
  follows_text w _

theorem follows_decodeEntries (w n : Nat) (headers : HashMap String String) :
    Follows (decodeEntries (decodeStringField w) n headers) (Layout.text w ∘ Layout.text w)^[n] := by
  induction n generalizing headers with
  | zero => exact Follows.pure headers
  | succ n ih =>
    rw [Function.iterate_succ']
    exact (follows_decodeStringField w).bind fun key =>
      (follows_decodeStringField w).bind fun val => ih (headers.insert key val)

theorem follows_decodeHeadersField (w : Nat) :
    Follows (decodeHeadersField w (decodeStringField w)) (.pairs w) :=
  follows_count fun n => follows_decodeEntries w n ∅

/-- Three ids and a byte of trace flags. -/
def tracingLayout : Layout :=
  Layout.fixed 8 ∘ Layout.fixed 8 ∘ Layout.fixed 8 ∘
    Layout.byte fun v => (BitFlags.fromBits v : Option (BitFlags 0x01)).isSome

theorem Tracing.follows_decode : Follows Tracing.decode tracingLayout :=
  ((follows_getUInt 8).map _).bind fun _ => ((follows_getUInt 8).map _).bind fun _ =>
    ((follows_getUInt 8).map _).bind fun _ => follows_decodeBitflag _ fun _ => Follows.pure _

def flagsLayout : Layout := Layout.byte fun v => (BitFlags.fromBits v : Option (BitFlags 0x03)).isSome

def initLayout : Layout := Layout.fixed 2 ∘ Layout.pairs 2

def callRequestLayout : Layout := Layout.fixed 4 ∘ tracingLayout ∘ Layout.text 1 ∘ Layout.pairs 1

def callResponseLayout : Layout :=
  Layout.byte (fun v => (ResponseCode.fromU8 v).isSome) ∘ tracingLayout ∘ Layout.pairs 1

def errorMsgLayout : Layout :=
  Layout.byte (fun v => (ErrorCode.fromU8 v).isSome) ∘ tracingLayout ∘ Layout.text 2

theorem Init.follows_decode : Follows Init.decode initLayout :=
  ((follows_getUInt 2).map _).bind fun _ => (follows_decodeHeadersField 2).bind fun _ => Follows.pure _

theorem CallRequestFields.follows_decode : Follows CallRequestFields.decode callRequestLayout :=
  ((follows_getUInt 4).map _).bind fun _ => Tracing.follows_decode.bind fun _ =>
    (follows_decodeStringField 1).bind fun _ => (follows_decodeHeadersField 1).bind fun _ => Follows.pure _

theorem CallResponseFields.follows_decode : Follows CallResponseFields.decode callResponseLayout :=
  follows_decodeBitflag _ fun _ => Tracing.follows_decode.bind fun _ =>
    (follows_decodeHeadersField 1).bind fun _ => Follows.pure _

theorem ErrorMsg.follows_decode : Follows ErrorMsg.decode errorMsgLayout :=
  follows_decodeBitflag _ fun _ => Tracing.follows_decode.bind fun _ =>
    (follows_decodeStringField 2).bind fun _ => Follows.pure _

/-! ### Calls -/

/-- A checksum type and what it asks for: no value and no check for `None`, and for any other known type a
value that is followed by something that is no arg list. -/
def checksumFits (b : Bytes) : Prop :=
  1 ≤ b.length ∧ (b.headD 0 ∈ [0x01, 0x02, 0x03] → 5 ≤ b.length ∧ ¬ ArgList (b.drop 5))

/-- Neither decoding a call nor the check of its args panics on `b`. -/
def ArgsReadSafely {C : Type} (decode : Cursor CodecError C) (args : C → CallArgs) (b : Bytes) : Prop :=
  Safe decode b ∧ ∀ c b', decode.run b = .ok c b' → verifyArgs (args c) ≠ .error .panic

/-- `verifyArgs` in sequence with the decoder. -/
def verified (args : CallArgs) : Cursor CodecError Unit :=
  match args.checksumType with
  | .none => pure ()
  | _ => panic

theorem argsReadSafely_iff {C : Type} {decode : Cursor CodecError C} {args : C → CallArgs} {b : Bytes} :
    ArgsReadSafely decode args b ↔ Safe (decode >>= fun c => verified (args c)) b := by
  rw [safe_bind, ArgsReadSafely]
  refine and_congr_right fun _ => forall_congr' fun c => forall_congr' fun b' => imp_congr_right fun _ => ?_
  unfold verified verifyArgs
  cases (args c).checksumType <;> simp [Safe]

theorem getU8_cons (v : UInt8) (b : Bytes) : getU8.run (v :: b) = .ok v b := reads_getU8 v b

theorem decodeChecksum_plain {v : UInt8} (hv : v ∉ [0x01, 0x02, 0x03]) (b : Bytes) :
    decodeChecksum.run (v :: b) = .ok (.none, none) b ∨
      ∃ e, decodeChecksum.run (v :: b) = .error (.err e) b := by
  simp only [List.mem_cons, List.not_mem_nil, or_false, not_or] at hv
  rw [decodeChecksum, bind_ok (getU8_cons v b), decodeBitflag, ChecksumType.fromU8]
  by_cases h0 : v = 0x00
  · rw [if_pos h0]
    exact .inl rfl
  · rw [if_neg h0, if_neg hv.1, if_neg hv.2.1, if_neg hv.2.2]
    exact .inr ⟨_, rfl⟩

theorem decodeChecksum_valued {v : UInt8} (hv : v ∈ [0x01, 0x02, 0x03]) (b : Bytes) :
    ∃ t, t ≠ ChecksumType.none ∧
      decodeChecksum.run (v :: b) = (getU32 >>= fun c => pure (t, some c)).run b := by
  simp only [List.mem_cons, List.not_mem_nil, or_false] at hv
  rw [decodeChecksum, bind_ok (getU8_cons v b)]
  rcases hv with rfl | rfl | rfl
  · exact ⟨.crc32, by decide, rfl⟩
  · exact ⟨.farmhash, by decide, rfl⟩
  · exact ⟨.crc32C, by decide, rfl⟩

/-- A checksum that is there ends in the `todo!()` as soon as the args can be read. -/
theorem safe_verified_checksum {t : ChecksumType} (ht : t ≠ .none) {c : Option UInt32} {b : Bytes}
    (h : b.length < 65536) :
    Safe (decodeArgs >>= fun args => verified ⟨t, c, args⟩) b ↔ ¬ ArgList b := by
  rcases decodeArgs_cases h with ⟨e, b', he, hlist⟩ | ⟨args, hok, hlist⟩
  · refine iff_of_true (fun b'' hp => ?_) hlist
    rw [bind_error he] at hp
    cases hp
  · rw [safe_bind_ok hok]
    refine iff_of_false (fun hs => ?_) (not_not.2 hlist)
    unfold verified at hs
    cases t with
    | none => exact ht rfl
    | crc32 | farmhash | crc32C => exact hs [] rfl

theorem safe_callArgs {b : Bytes} (h : b.length < 65536) :
    Safe (CallArgs.decode >>= verified) b ↔ checksumFits b := by
  have hassoc : (CallArgs.decode >>= verified) =
      decodeChecksum >>= fun c => decodeArgs >>= fun args => verified ⟨c.1, c.2, args⟩ := by
    simp only [CallArgs.decode, bind_assoc, pure_bind]
  rw [hassoc, checksumFits]
  rcases b with - | ⟨v, b⟩
  · refine iff_of_false (fun hs => ?_) fun hf => absurd hf.1 (by simp)
    have hpanic : decodeChecksum.run [] = .error .panic [] := rfl
    exact hs.of_bind [] hpanic
  · have hb : b.length < 65536 := by rw [List.length_cons] at h; omega
    simp only [List.length_cons, List.headD_cons, Nat.le_add_left, true_and]
    by_cases hv : v ∈ [0x01, 0x02, 0x03]
    · obtain ⟨t, ht, hrun⟩ := decodeChecksum_valued hv b
      simp only [hv, forall_const]
      by_cases h4 : 4 ≤ b.length
      · have hval : ∃ c, decodeChecksum.run (v :: b) = .ok (t, some c) (b.drop 4) :=
          ⟨_, by rw [hrun, getU32, bind_ok (by rw [map_apply, getUInt_of_le h4]), pure_apply]⟩
        obtain ⟨c, hval⟩ := hval
        rw [safe_bind_ok hval, safe_verified_checksum ht (by rw [List.length_drop]; omega)]
        exact (and_iff_right (by omega)).symm
      · refine iff_of_false (fun hs => ?_) fun hf => h4 (by omega)
        have hpanic : decodeChecksum.run (v :: b) = .error .panic b := by
          rw [hrun, getU32, bind_error (by rw [map_apply, getUInt_of_lt (Nat.lt_of_not_le h4)])]
        exact hs.of_bind b hpanic
    · refine iff_of_true ?_ fun hv' => absurd hv' hv
      rcases decodeChecksum_plain hv b with hok | ⟨e, he⟩
      · rw [safe_bind_ok hok, safe_bind]
        exact ⟨safe_decodeArgs hb, fun args b' _ => safe_pure () b'⟩
      · intro b' hp
        rw [bind_error he] at hp
        cases hp

theorem argsReadSafely_call {F C : Type} {fields : Cursor CodecError F} {l : Layout}
    (hl : Follows fields l) {mk : Flags → F → CallArgs → C} {args : C → CallArgs}
    (hargs : ∀ fl f a, args (mk fl f a) = a) {b : Bytes} (h : b.length < 65536) :
    ArgsReadSafely (do return mk (← decodeBitflag (← getU8) BitFlags.fromBits) (← fields) (← CallArgs.decode))
      args b ↔ (flagsLayout ∘ l) checksumFits b := by
  rw [argsReadSafely_iff]
  simp only [bind_assoc, pure_bind, hargs]
  have hflags := follows_decodeBitflag (BitFlags.fromBits : UInt8 → Option (BitFlags 0x03)) fun fl : Flags => hl
  have := hflags _ (fun _ => CallArgs.decode >>= verified) checksumFits b fun _ b' hb' =>
    safe_callArgs (hb'.trans_lt h)
  simp only [bind_assoc] at this
  exact this

theorem argsReadSafely_callContinue {b : Bytes} (h : b.length < 65536) :
    ArgsReadSafely CallContinue.decode CallContinue.args b ↔ flagsLayout checksumFits b := by
  rw [argsReadSafely_iff]
  simp only [CallContinue.decode, bind_assoc, pure_bind]
  have hflags := follows_decodeBitflag (BitFlags.fromBits : UInt8 → Option (BitFlags 0x03)) fun fl : Flags => Follows.pure fl
  have := hflags _ (fun _ => CallArgs.decode >>= verified) checksumFits b fun _ b' hb' =>
    safe_callArgs (hb'.trans_lt h)
  simp only [bind_assoc, pure_bind] at this
  exact this

/-- Exactly when a payload of a size that the frame decoder delivers is read without a panic. -/
theorem payload_decoders_safe_iff (b : Bytes) (h : b.length ≤ 65519) :
    (Safe Init.decode b ↔ initLayout (fun _ => True) b) ∧
    (ArgsReadSafely CallRequest.decode CallRequest.args b ↔
      (flagsLayout ∘ callRequestLayout) checksumFits b) ∧
    (ArgsReadSafely CallResponse.decode CallResponse.args b ↔
      (flagsLayout ∘ callResponseLayout) checksumFits b) ∧
    (ArgsReadSafely CallContinue.decode CallContinue.args b ↔ flagsLayout checksumFits b) ∧
    (Safe ErrorMsg.decode b ↔ errorMsgLayout (fun _ => True) b) := by
  have hb : b.length < 65536 := by omega
  refine ⟨Init.follows_decode.safe b, ?_, ?_, argsReadSafely_callContinue hb, ErrorMsg.follows_decode.safe b⟩
  · exact argsReadSafely_call CallRequestFields.follows_decode (fun _ _ _ => rfl) hb
  · exact argsReadSafely_call CallResponseFields.follows_decode (fun _ _ _ => rfl) hb

theorem callContinue_safe : ArgsReadSafely CallContinue.decode CallContinue.args [0, 0, 0, 0] :=
  (payload_decoders_safe_iff [0, 0, 0, 0] (by decide)).2.2.2.1.2
    (by simp [flagsLayout, Layout.byte, checksumFits])

/-- An empty payload panics every decoder, and a complete continuation with a checksum the check of its
args. -/
theorem payload_decoders_panic :
    ¬ ∀ b : Bytes, b.length ≤ 65519 →
      Safe Init.decode b ∧ ArgsReadSafely CallRequest.decode CallRequest.args b ∧
      ArgsReadSafely CallResponse.decode CallResponse.args b ∧
      ArgsReadSafely CallContinue.decode CallContinue.args b ∧ Safe ErrorMsg.decode b := by
  intro h
  exact absurd (h [] (by decide)).1 (by decide)

end Tchannel
