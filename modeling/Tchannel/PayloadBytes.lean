import Tchannel.Payloads

/-!
# What the payload encoders write

For each encoder the exact condition under which it accepts a value and the exact bytes it then
appends (`encode_eq_ok`), and for each decoder that it reads these bytes back (`reads_…`). The args
are the exception on both sides: `encodeArgs` looks at the length of the whole buffer, `decodeArgs` at
the end of the payload.
-/

namespace Tchannel
open Wire Wire.Cursor

/-! ### Fixed width fields -/

theorem reads_getU8 (b : UInt8) : Reads getU8 [b] b := by
  have := (reads_getUInt (ε := CodecError) (w := 1) b.toNat_lt).map UInt8.ofNat
  rwa [putBE_one, UInt8.ofNat_toNat] at this

theorem reads_getU16 (n : UInt16) : Reads getU16 (putBE 2 n.toNat) n := by
  have := (reads_getUInt (ε := CodecError) (w := 2) n.toNat_lt).map UInt16.ofNat
  rwa [UInt16.ofNat_toNat] at this

theorem reads_getU32 (n : UInt32) : Reads getU32 (putBE 4 n.toNat) n := by
  have := (reads_getUInt (ε := CodecError) (w := 4) n.toNat_lt).map UInt32.ofNat
  rwa [UInt32.ofNat_toNat] at this

theorem reads_getU64 (n : UInt64) : Reads getU64 (putBE 8 n.toNat) n := by
  have := (reads_getUInt (ε := CodecError) (w := 8) n.toNat_lt).map UInt64.ofNat
  rwa [UInt64.ofNat_toNat] at this

theorem reads_decodeBitflag {α : Type} {decoder : UInt8 → Option α} {b : UInt8} {a : α}
    (h : decoder b = some a) : Reads (decodeBitflag b decoder) [] a :=
  reads_ofOption h

/-! ### Strings and headers -/

/-- A string behind a `w`-byte length. -/
def stringBytes (w : Nat) (s : String) : Bytes := putBE w (utf8 s).length ++ utf8 s

@[simp] theorem stringBytes_length (w : Nat) (s : String) :
    (stringBytes w s).length = w + (utf8 s).length := by
  simp [stringBytes]

theorem encodeLen_eq_ok {w : Nat} {dst d : Bytes} {n : Nat} :
    encodeLen w dst n = .ok d ↔ n < 256 ^ w ∧ d = dst ++ putBE w n := by
  unfold encodeLen
  split
  · rename_i h
    simp [h, eq_comm]
  · rename_i h
    simp [h]

theorem codec_ok_bind {α β : Type} (a : α) (f : α → CodecResult β) : ((.ok a : CodecResult α) >>= f) = f a :=
  rfl

theorem encodeStringField_eq_ok {w : Nat} {s : String} {dst d : Bytes} :
    encodeStringField w s dst = .ok d ↔ (utf8 s).length < 256 ^ w ∧ d = dst ++ stringBytes w s := by
  rw [encodeStringField, except_bind_eq_ok]
  constructor
  · rintro ⟨d', h, h'⟩
    obtain ⟨hw, rfl⟩ := encodeLen_eq_ok.1 h
    refine ⟨hw, ?_⟩
    rw [← Except.ok.inj h', stringBytes, List.append_assoc]
  · rintro ⟨hw, rfl⟩
    refine ⟨_, encodeLen_eq_ok.2 ⟨hw, rfl⟩, ?_⟩
    rw [stringBytes, ← List.append_assoc]
    rfl

theorem reads_decodeStringField {w : Nat} {s : String} (h : (utf8 s).length < 256 ^ w) :
    Reads (decodeStringField w) (stringBytes w s) s := by
  have := (reads_getUInt (ε := CodecError) h).bind
    (f := fun len => do
      let bytes ← take len
      ofOption (fromUtf8 bytes) (.stringDecodingError ⟨bytes⟩))
    ((reads_take (utf8 s)).bind (reads_ofOption (fromUtf8_utf8 s)))
  rwa [List.append_nil] at this

/-- The entries of a header map behind a `w`-byte count. -/
def headerBytes (w : Nat) (entries : List (Σ _ : String, String)) : Bytes :=
  putBE w entries.length ++ entries.flatMap fun e => stringBytes w e.1 ++ stringBytes w e.2

/-- The count and all keys and values of `headers` fit behind `w`-byte lengths. -/
structure HeadersFit (w : Nat) (headers : HashMap String String) : Prop where
  count : headers.entries.card < 256 ^ w
  key : ∀ e ∈ headers.entries, (utf8 e.1).length < 256 ^ w
  val : ∀ e ∈ headers.entries, (utf8 e.2).length < 256 ^ w

theorem encodeEntries_eq_ok {w : Nat} {entries : List (Σ _ : String, String)} {dst d : Bytes} :
    entries.foldlM (fun dst e => do encodeStringField w e.2 (← encodeStringField w e.1 dst)) dst = .ok d ↔
      (∀ e ∈ entries, (utf8 e.1).length < 256 ^ w ∧ (utf8 e.2).length < 256 ^ w) ∧
        d = dst ++ entries.flatMap fun e => stringBytes w e.1 ++ stringBytes w e.2 := by
  induction entries generalizing dst with
  | nil => simp [pure, Except.pure, eq_comm]
  | cons e entries ih =>
    rw [List.foldlM_cons, except_bind_eq_ok]
    constructor
    · rintro ⟨d₂, h, h'⟩
      obtain ⟨d₁, h₁, h₂⟩ := except_bind_eq_ok.1 h
      obtain ⟨hk, rfl⟩ := encodeStringField_eq_ok.1 h₁
      obtain ⟨hv, rfl⟩ := encodeStringField_eq_ok.1 h₂
      obtain ⟨hs, rfl⟩ := ih.1 h'
      refine ⟨fun e' he' => ?_, by simp⟩
      rcases List.mem_cons.1 he' with rfl | he'
      · exact ⟨hk, hv⟩
      · exact hs e' he'
    · rintro ⟨hs, rfl⟩
      refine ⟨_, except_bind_eq_ok.2 ⟨_, encodeStringField_eq_ok.2 ⟨(hs e (by simp)).1, rfl⟩,
        encodeStringField_eq_ok.2 ⟨(hs e (by simp)).2, rfl⟩⟩, ih.2 ⟨fun e' he' => hs e' (by simp [he']), ?_⟩⟩
      simp

theorem encodeHeaderFields_eq_ok {w : Nat} {headers : HashMap String String} {it : Iter headers}
    {dst d : Bytes} :
    encodeHeaderFields w (encodeStringField w) it dst = .ok d ↔
      HeadersFit w headers ∧ d = dst ++ headerBytes w it.entries := by
  have hcard : headers.entries.card = it.entries.length := by rw [← it.visits, Multiset.coe_card]
  have hmem : ∀ e, e ∈ headers.entries ↔ e ∈ it.entries := by
    intro e
    rw [← it.visits, Multiset.mem_coe]
  rw [encodeHeaderFields, except_bind_eq_ok]
  constructor
  · rintro ⟨d', h, h'⟩
    obtain ⟨hn, rfl⟩ := encodeLen_eq_ok.1 h
    obtain ⟨hs, rfl⟩ := encodeEntries_eq_ok.1 h'
    refine ⟨⟨hn, fun e he => (hs e ((hmem e).1 he)).1, fun e he => (hs e ((hmem e).1 he)).2⟩, ?_⟩
    rw [headerBytes, hcard, List.append_assoc]
  · rintro ⟨hfit, rfl⟩
    refine ⟨_, encodeLen_eq_ok.2 ⟨hfit.count, rfl⟩, encodeEntries_eq_ok.2 ⟨fun e he => ?_, ?_⟩⟩
    · exact ⟨hfit.key e ((hmem e).2 he), hfit.val e ((hmem e).2 he)⟩
    · rw [headerBytes, hcard, List.append_assoc]

theorem reads_decodeEntries {w : Nat} {entries : List (Σ _ : String, String)}
    (hs : ∀ e ∈ entries, (utf8 e.1).length < 256 ^ w ∧ (utf8 e.2).length < 256 ^ w)
    (headers : HashMap String String) :
    Reads (decodeEntries (decodeStringField w) entries.length headers)
      (entries.flatMap fun e => stringBytes w e.1 ++ stringBytes w e.2) (insertAll headers entries) := by
  induction entries generalizing headers with
  | nil => exact Reads.pure headers
  | cons e entries ih =>
    obtain ⟨hk, hv⟩ := hs e (by simp)
    rw [List.flatMap_cons, List.append_assoc]
    refine (reads_decodeStringField hk).bind ((reads_decodeStringField hv).bind ?_)
    exact ih (fun e' he' => hs e' (by simp [he'])) (headers.insert e.1 e.2)

/-- The entries that were read into `headers`, in their order. -/
structure HeaderPairs (w : Nat) (entries : List (Σ _ : String, String)) (headers : HashMap String String) : Prop where
  count : entries.length < 256 ^ w
  lengths : ∀ e ∈ entries, (utf8 e.1).length < 256 ^ w ∧ (utf8 e.2).length < 256 ^ w
  inserted : insertAll ∅ entries = headers

theorem HeaderPairs.reads {w : Nat} {entries : List (Σ _ : String, String)} {headers : HashMap String String}
    (h : HeaderPairs w entries headers) :
    Reads (decodeHeadersField w (decodeStringField w)) (headerBytes w entries) headers := by
  have hread := reads_decodeEntries h.lengths ∅
  rw [h.inserted] at hread
  exact (reads_getUInt h.count).bind hread

theorem HeadersFit.pairs {w : Nat} {headers : HashMap String String} (hfit : HeadersFit w headers)
    (it : Iter headers) : HeaderPairs w it.entries headers := by
  have hcard : headers.entries.card = it.entries.length := by rw [← it.visits, Multiset.coe_card]
  refine ⟨hcard ▸ hfit.count, fun e he => ?_, insertAll_iter it⟩
  have hmem : e ∈ headers.entries := by rwa [← it.visits, Multiset.mem_coe]
  exact ⟨hfit.key e hmem, hfit.val e hmem⟩

theorem reads_decodeHeadersField {w : Nat} {headers : HashMap String String}
    (hfit : HeadersFit w headers) (it : Iter headers) :
    Reads (decodeHeadersField w (decodeStringField w)) (headerBytes w it.entries) headers :=
  (hfit.pairs it).reads

/-! ### Checksum and args -/

/-- A checksum value is there whenever the type asks for one. -/
def ChecksumGiven (t : ChecksumType) (value : Option UInt32) : Prop := t ≠ .none → value.isSome

def checksumBytes (t : ChecksumType) (value : Option UInt32) : Bytes :=
  if t = .none then [t.toU8] else t.toU8 :: putBE 4 (value.getD 0).toNat

theorem checksumBytes_length (t : ChecksumType) (value : Option UInt32) :
    (checksumBytes t value).length = if t = .none then 1 else 5 := by
  unfold checksumBytes
  split <;> simp

theorem encodeChecksum_eq_ok {t : ChecksumType} {value : Option UInt32} {dst d : Bytes} :
    encodeChecksum t value dst = .ok d ↔ ChecksumGiven t value ∧ d = dst ++ checksumBytes t value := by
  unfold encodeChecksum ChecksumGiven checksumBytes
  by_cases ht : t = .none
  · subst ht
    simp only [ne_eq, not_true_eq_false, if_false, if_true, IsEmpty.forall_iff, true_and,
      Except.ok.injEq]
    exact eq_comm
  · cases value with
    | none => simp [ht]
    | some v =>
      rw [if_pos ht, if_neg ht]
      simp only [List.append_assoc, List.singleton_append, Option.getD_some, Except.ok.injEq,
        Option.isSome_some, implies_true, true_and]
      exact eq_comm

theorem reads_decodeChecksum {t : ChecksumType} {value : Option UInt32} (h : ChecksumGiven t value) :
    Reads decodeChecksum (checksumBytes t value) (t, if t = .none then none else value) := by
  have hb : Reads (decodeBitflag t.toU8 ChecksumType.fromU8) [] t :=
    reads_decodeBitflag (ChecksumType.fromU8_toU8 t)
  cases t with
  | none => exact (reads_getU8 _).bind (hb.bind (Reads.pure _))
  | crc32 | farmhash | crc32C =>
    obtain ⟨v, rfl⟩ := Option.isSome_iff_exists.1 (h (by decide))
    exact (reads_getU8 _).bind (hb.bind ((reads_getU32 v).bind_pure fun v => (_, some v)))

theorem foldl_putArg (args : List (Option Bytes)) (dst : Bytes) :
    args.foldl (fun dst arg => dst ++ putArg arg) dst = dst ++ args.flatMap putArg := by
  induction args generalizing dst with
  | nil => simp
  | cons arg args ih => rw [List.foldl_cons, ih, List.flatMap_cons, List.append_assoc]

/-- The most a payload may hold. -/
def maxPayload : Nat := frameMaxLength - frameHeaderLength

theorem encodeArgs_eq_ok {args : List (Option Bytes)} {dst d : Bytes} :
    encodeArgs args dst = .ok d ↔
      (1 ≤ args.length ∧ args.length ≤ 3) ∧ (dst ++ args.flatMap putArg).length ≤ maxPayload ∧
        d = dst ++ args.flatMap putArg := by
  unfold encodeArgs
  rw [foldl_putArg]
  by_cases hn : args.length = 0 ∨ args.length > maxFrameArgs
  · rw [if_pos hn]
    unfold maxFrameArgs at hn
    constructor
    · intro h
      cases h
    · rintro ⟨h, -⟩
      omega
  · rw [if_neg hn]
    unfold maxFrameArgs at hn
    by_cases hl : (dst ++ args.flatMap putArg).length > frameMaxLength - frameHeaderLength
    · rw [if_pos hl]
      constructor
      · intro h
        cases h
      · rintro ⟨-, h, -⟩
        exact absurd h (Nat.not_le.2 hl)
    · rw [if_neg hl]
      constructor
      · intro h
        exact ⟨by omega, Nat.le_of_not_lt hl, (Except.ok.inj h).symm⟩
      · rintro ⟨-, -, rfl⟩
        rfl

/-- An arg as it is read back: a written empty arg is read as no arg. -/
def normArg : Option Bytes → Option Bytes
  | some [] => none
  | arg => arg

/-- The bytes an arg stands for. -/
def argLen (arg : Option Bytes) : Nat := (arg.getD []).length

@[simp] theorem argLen_none : argLen none = 0 := rfl

@[simp] theorem argLen_some (b : Bytes) : argLen (some b) = b.length := rfl

@[simp] theorem putArg_length (arg : Option Bytes) : (putArg arg).length = 2 + argLen arg := by
  cases arg <;> simp [putArg, argLen]

theorem decodeArg_eq {b : Bytes} (h : 2 ≤ b.length) :
    decodeArg.run b =
      if getBE (b.take 2) = 0 then .ok none (b.drop 2)
      else if b.length % 65536 < 2 then .error .panic (b.drop 2)
      else if getBE (b.take 2) > b.length % 65536 - 2 then
        .error (.err (.error s!"Wrong arg length: {UInt16.ofNat (getBE (b.take 2))}")) (b.drop 2)
      else (some <$> take (getBE (b.take 2)) : Cursor CodecError (Option Bytes)).run (b.drop 2) := by
  have hlt : getBE (b.take 2) < 65536 := by
    have := getBE_lt (b.take 2)
    rwa [List.length_take, Nat.min_eq_left h] at this
  have hn : (UInt16.ofNat (getBE (b.take 2))).toNat = getBE (b.take 2) :=
    UInt16.toNat_ofNat_of_lt' hlt
  have hzero : UInt16.ofNat (getBE (b.take 2)) = 0 ↔ getBE (b.take 2) = 0 := by
    rw [← UInt16.toNat_inj, hn]
    rfl
  have hu : getU16.run b = .ok (UInt16.ofNat (getBE (b.take 2))) (b.drop 2) := by
    rw [getU16, map_apply, getUInt_of_le h]
  rw [decodeArg, bind_ok (remaining_apply b)]
  split
  · omega
  · omega
  · rw [bind_ok hu]
    by_cases h0 : getBE (b.take 2) = 0
    · rw [if_pos (hzero.2 h0), if_pos h0, pure_apply]
    · rw [if_neg (fun h => h0 (hzero.1 h)), if_neg h0]
      have hr : (UInt16.ofNat b.length).toNat = b.length % 65536 := UInt16.toNat_ofNat'
      by_cases h2 : b.length % 65536 < 2
      · rw [if_pos h2, bind_error]
        rw [hr, checkedSub, if_neg (by omega), panic_apply]
      · rw [if_neg h2, bind_ok (checkedSub_of_le (by rw [hr]; omega) _), hr, hn]
        split <;> rfl

theorem decodeArg_putArg {arg : Option Bytes} {rest : Bytes} (h : (putArg arg ++ rest).length < 65536) :
    decodeArg.run (putArg arg ++ rest) = .ok (normArg arg) rest := by
  have hl : (putArg arg ++ rest).length = 2 + argLen arg + rest.length := by simp
  have hlen : getBE ((putArg arg ++ rest).take 2) = argLen arg := by
    cases arg with
    | none => simp [putArg, argLen, putBE, getBE]
    | some a =>
      have ha : a.length < 65536 := by simp only [argLen, Option.getD_some] at hl; omega
      have : (putArg (some a) ++ rest).take 2 = putBE 2 a.length := by
        rw [putArg, UInt16.toNat_ofNat_of_lt' ha]
        simp
      rw [this, getBE_putBE (by simpa using ha)]
      rfl
  have hmod : (putArg arg ++ rest).length % 65536 = 2 + argLen arg + rest.length := by
    rw [Nat.mod_eq_of_lt h, hl]
  rw [decodeArg_eq (by rw [hl]; omega), hlen, hmod]
  cases arg with
  | none => simp [argLen, putArg, normArg, putBE]
  | some a =>
    have hdrop : (putArg (some a) ++ rest).drop 2 = a ++ rest := by simp [putArg]
    rw [hdrop]
    cases a with
    | nil => simp [argLen, normArg]
    | cons x xs =>
      rw [if_neg (by simp [argLen]), if_neg (by omega), if_neg (by omega)]
      exact ((reads_take (x :: xs)).map some) rest

theorem decodeArgsLoop_putArgs {args : List (Option Bytes)} {n : Nat} (hn : args.length ≤ n)
    (h : (args.flatMap putArg).length < 65536) :
    (decodeArgsLoop n).run (args.flatMap putArg) = .ok (args.map normArg) [] := by
  induction args generalizing n with
  | nil =>
    cases n with
    | zero => rfl
    | succ n => rw [decodeArgsLoop, bind_ok (remaining_apply _)]; rfl
  | cons arg args ih =>
    cases n with
    | zero => simp at hn
    | succ n =>
      rw [List.flatMap_cons] at h ⊢
      rw [decodeArgsLoop, bind_ok (remaining_apply _), if_neg (by simp),
        bind_ok (decodeArg_putArg h),
        bind_ok (ih (by simpa using hn) (by simp only [List.length_append] at h; omega))]
      rfl

theorem decodeArgs_putArgs {args : List (Option Bytes)} (h1 : 1 ≤ args.length) (h3 : args.length ≤ 3)
    (h : (args.flatMap putArg).length < 65536) :
    decodeArgs.run (args.flatMap putArg) = .ok (args.map normArg) [] := by
  have hne : (args.flatMap putArg).length ≠ 0 := by
    cases args with
    | nil => simp at h1
    | cons arg args => simp [putArg_length]
  have hloop : (decodeArgsLoop maxFrameArgs).run (args.flatMap putArg) = .ok (args.map normArg) [] :=
    decodeArgsLoop_putArgs h3 h
  rw [decodeArgs, bind_ok (remaining_apply _), if_neg hne, bind_ok hloop, bind_ok (remaining_apply _)]
  rfl

end Tchannel
