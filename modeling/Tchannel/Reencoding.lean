import Tchannel.ArgGrammar
import Tchannel.PayloadRoundTrip
import Mathlib.Algebra.Order.BigOperators.Group.Multiset

/-!
# Encoding again what was decoded

Each field decoder takes the bytes that its encoder writes for the value it returns; only the headers may have
more entries on the wire than in the map, of which the last with each key is kept (`HeaderPairs`). So a payload
that was decoded can be encoded again, for every iteration order of its headers, and loses nothing but
repeated header keys and the bytes that the decoder did not read.
-/

namespace Tchannel
open Wire Wire.Cursor
open ArgsFragmenter (chunk)

/-! ### Fixed width fields -/

theorem takes_getU8 : Takes getU8 fun v p => p = [v] := by
  refine ((takes_getUInt 1).map UInt8.ofNat).mono ?_
  rintro _ _ ⟨n, ⟨rfl, hn⟩, rfl⟩
  exact putBE_one n

theorem takes_getU16 : Takes getU16 fun v p => p = putBE 2 v.toNat := by
  refine ((takes_getUInt 2).map UInt16.ofNat).mono ?_
  rintro _ _ ⟨n, ⟨rfl, hn⟩, rfl⟩
  rw [UInt16.toNat_ofNat_of_lt' hn]

theorem takes_getU32 : Takes getU32 fun v p => p = putBE 4 v.toNat := by
  refine ((takes_getUInt 4).map UInt32.ofNat).mono ?_
  rintro _ _ ⟨n, ⟨rfl, hn⟩, rfl⟩
  rw [UInt32.toNat_ofNat_of_lt' hn]

theorem takes_getU64 : Takes getU64 fun v p => p = putBE 8 v.toNat := by
  refine ((takes_getUInt 8).map UInt64.ofNat).mono ?_
  rintro _ _ ⟨n, ⟨rfl, hn⟩, rfl⟩
  rw [UInt64.toNat_ofNat_of_lt' hn]

theorem flag_cases {α : Type} {v k : UInt8} {a c : α} {next : Option α}
    (h : (if v = k then some a else next) = some c) : v = k ∧ a = c ∨ next = some c := by
  split at h
  · rename_i hv
    exact .inl ⟨hv, Option.some.inj h⟩
  · exact .inr h

theorem ChecksumType.toU8_of_fromU8 {v : UInt8} {t : ChecksumType} (h : fromU8 v = some t) : v = t.toU8 := by
  unfold fromU8 at h
  iterate 4
    rcases flag_cases h with ⟨hv, rfl⟩ | h
    · exact hv
  cases h

theorem ErrorCode.toU8_of_fromU8 {v : UInt8} {c : ErrorCode} (h : fromU8 v = some c) : v = c.toU8 := by
  unfold fromU8 at h
  iterate 10
    rcases flag_cases h with ⟨hv, rfl⟩ | h
    · exact hv
  cases h

theorem ResponseCode.toU8_of_fromU8 {v : UInt8} {c : ResponseCode} (h : fromU8 v = some c) : v = c.toU8 := by
  unfold fromU8 at h
  iterate 2
    rcases flag_cases h with ⟨hv, rfl⟩ | h
    · exact hv
  cases h

theorem BitFlags.bits_of_fromBits {mask v : UInt8} {f : BitFlags mask} (h : fromBits v = some f) : v = f.bits := by
  unfold fromBits at h
  split at h
  · rw [← Option.some.inj h]
  · cases h

theorem bind_flag_run {α β : Type} {decoder : UInt8 → Option α} {encoder : α → UInt8}
    (hinv : ∀ v a, decoder v = some a → v = encoder a) {f : α → Cursor CodecError β} {b rest : Bytes} {c : β}
    (h : (getU8 >>= fun v => decodeBitflag v decoder >>= f).run b = .ok c rest) :
    ∃ a b₁, b = [encoder a] ++ b₁ ∧ (f a).run b₁ = .ok c rest := by
  obtain ⟨v, _, b₁, rfl, rfl, h₁⟩ := takes_getU8.bind_run h
  obtain ⟨a, _, _, ⟨rfl, ha⟩, rfl, h₂⟩ := (takes_ofOption (decoder v) _).bind_run h₁
  exact ⟨a, b₁, by rw [hinv v a ha], h₂⟩

theorem Tracing.takes_decode : Takes decode fun t p => p = t.bytes := by
  intro b t rest h
  obtain ⟨spanId, _, b₁, rfl, rfl, h₁⟩ := takes_getU64.bind_run h
  obtain ⟨parentId, _, b₂, rfl, rfl, h₂⟩ := takes_getU64.bind_run h₁
  obtain ⟨traceId, _, b₃, rfl, rfl, h₃⟩ := takes_getU64.bind_run h₂
  obtain ⟨flags, b₄, rfl, h₄⟩ := bind_flag_run (fun _ _ => BitFlags.bits_of_fromBits) h₃
  cases h₄
  exact ⟨_, rfl, by simp only [bytes, List.append_assoc]⟩

/-! ### Strings and headers -/

theorem takes_decodeStringField (w : ℕ) :
    Takes (decodeStringField w) fun s p => p = stringBytes w s ∧ (utf8 s).length < 256 ^ w := by
  intro b s rest h
  obtain ⟨len, _, b₁, ⟨rfl, hlen⟩, rfl, h₁⟩ := (takes_getUInt w).bind_run h
  obtain ⟨bytes, _, b₂, ⟨rfl, rfl⟩, rfl, h₂⟩ := (takes_take len).bind_run h₁
  obtain ⟨_, ⟨rfl, hs⟩, rfl⟩ := takes_ofOption _ _ _ _ _ h₂
  obtain rfl := utf8_of_fromUtf8 hs
  exact ⟨_, ⟨rfl, hlen⟩, by rw [stringBytes, List.append_assoc]⟩

theorem takes_decodeEntries (w n : ℕ) (headers : HashMap String String) :
    Takes (decodeEntries (decodeStringField w) n headers) fun m p => ∃ entries, entries.length = n ∧
      (∀ e ∈ entries, (utf8 e.1).length < 256 ^ w ∧ (utf8 e.2).length < 256 ^ w) ∧
      insertAll headers entries = m ∧ p = entries.flatMap fun e => stringBytes w e.1 ++ stringBytes w e.2 := by
  induction n generalizing headers with
  | zero =>
    intro b m rest h
    cases h
    exact ⟨[], ⟨[], rfl, by simp, rfl, rfl⟩, rfl⟩
  | succ n ih =>
    intro b m rest h
    obtain ⟨key, _, b₁, ⟨rfl, hkey⟩, rfl, h₁⟩ := (takes_decodeStringField w).bind_run h
    obtain ⟨val, _, b₂, ⟨rfl, hval⟩, rfl, h₂⟩ := (takes_decodeStringField w).bind_run h₁
    obtain ⟨_, ⟨entries, hn, hlengths, hm, rfl⟩, rfl⟩ := ih _ _ _ _ h₂
    refine ⟨_, ⟨⟨key, val⟩ :: entries, by rw [List.length_cons, hn], ?_, hm, rfl⟩, by simp⟩
    exact List.forall_mem_cons.2 ⟨⟨hkey, hval⟩, hlengths⟩

theorem takes_decodeHeadersField (w : ℕ) :
    Takes (decodeHeadersField w (decodeStringField w)) fun headers p =>
      ∃ entries, HeaderPairs w entries headers ∧ p = headerBytes w entries := by
  intro b headers rest h
  obtain ⟨n, _, b₁, ⟨rfl, hn⟩, rfl, h₁⟩ := (takes_getUInt w).bind_run h
  obtain ⟨_, ⟨entries, rfl, hlengths, hm, rfl⟩, rfl⟩ := takes_decodeEntries w n ∅ _ _ _ h₁
  exact ⟨_, ⟨entries, ⟨hn, hlengths, hm⟩, rfl⟩, by rw [headerBytes, List.append_assoc]⟩

namespace HeaderPairs

variable {w : ℕ} {entries : List (Σ _ : String, String)} {headers : HashMap String String}

theorem lookup_eq (h : HeaderPairs w entries headers) (k : String) : headers.lookup k = entries.reverse.dlookup k := by
  rw [← h.inserted, lookup_insertAll, Finmap.lookup_empty, Option.or_none]

theorem entries_le (h : HeaderPairs w entries headers) :
    headers.entries ≤ (entries : Multiset (Σ _ : String, String)) := by
  rw [← h.inserted]
  exact insertAll_entries_le entries

theorem fit (h : HeaderPairs w entries headers) : HeadersFit w headers := by
  have hmem : ∀ e ∈ headers.entries, e ∈ entries := fun e he => Multiset.mem_coe.1 (Multiset.mem_of_le h.entries_le he)
  refine ⟨?_, fun e he => (h.lengths e (hmem e he)).1, fun e he => (h.lengths e (hmem e he)).2⟩
  exact Nat.lt_of_le_of_lt (Multiset.card_le_card h.entries_le) h.count

theorem length (h : HeaderPairs w entries headers) (hw : 0 < w) :
    headersLen w headers ≤ (headerBytes w entries).length ∧
      (headersLen w headers = (headerBytes w entries).length ↔ entries.NodupKeys) := by
  obtain ⟨dropped, hdropped⟩ := Multiset.le_iff_exists_add.1 h.entries_le
  have hlen : (headerBytes w entries).length = headersLen w headers +
      (dropped.map fun e => (w + (utf8 e.1).length) + (w + (utf8 e.2).length)).sum := by
    have hbytes : (headerBytes w entries).length = w + ((entries : Multiset (Σ _ : String, String)).map
        fun e => (w + (utf8 e.1).length) + (w + (utf8 e.2).length)).sum := by
      rw [Multiset.map_coe, Multiset.sum_coe]
      simp [headerBytes, List.length_flatMap]
    rw [hbytes, hdropped, Multiset.map_add, Multiset.sum_add, headersLen, Nat.add_assoc]
  rw [← insertAll_entries_eq_iff, h.inserted, hdropped, hlen]
  refine ⟨Nat.le_add_right _ _, ?_⟩
  constructor
  · intro heq
    have hnone : dropped = 0 := by
      by_contra hne
      obtain ⟨e, he⟩ := Multiset.exists_mem_of_ne_zero hne
      have hle := Multiset.single_le_sum (fun _ _ => Nat.zero_le _) _ (Multiset.mem_map_of_mem
        (fun e : (Σ _ : String, String) => (w + (utf8 e.1).length) + (w + (utf8 e.2).length)) he)
      omega
    rw [hnone, add_zero]
  · intro heq
    obtain rfl : dropped = 0 := by simpa using heq
    rfl

end HeaderPairs

/-! ### Args -/

theorem takes_decodeChecksum :
    Takes decodeChecksum fun c p => ChecksumGiven c.1 c.2 ∧ (c.1 = .none → c.2 = none) ∧
      p = checksumBytes c.1 c.2 := by
  intro b c rest h
  obtain ⟨t, b₁, rfl, h₁⟩ := bind_flag_run (fun _ _ => ChecksumType.toU8_of_fromU8) h
  cases t with
  | none =>
    cases h₁
    exact ⟨_, ⟨fun h => absurd rfl h, fun _ => rfl, rfl⟩, rfl⟩
  | crc32 | farmhash | crc32C =>
    obtain ⟨v, _, b₂, rfl, rfl, h₂⟩ := takes_getU32.bind_run h₁
    cases h₂
    exact ⟨_, ⟨fun _ => rfl, nofun, rfl⟩, rfl⟩

theorem CallArgs.decode_eq_ok {b rest : Bytes} {args : CallArgs} (hb : b.length < 65536)
    (h : decode.run b = .ok args rest) :
    rest = [] ∧ args.Encodable ∧ args.normalize = args ∧ b = args.bytes := by
  obtain ⟨⟨t, value⟩, _, b₁, ⟨hgiven, hnone, rfl⟩, rfl, h₁⟩ := takes_decodeChecksum.bind_run h
  obtain ⟨chunks, b₂, hchunks, h₂⟩ := bind_eq_ok.1 h₁
  cases h₂
  have hb₁ : b₁.length < 65536 := by
    rw [List.length_append] at hb
    omega
  obtain ⟨rfl, cs, hcs, rfl⟩ := (decodeArgs_eq_ok hb₁).1 hchunks
  refine ⟨rfl, ⟨by simpa using hcs.one_le, by simpa using hcs.le_three, hgiven⟩, ?_, ?_⟩
  · have hnorm : (cs.map chunk).map normArg = cs.map chunk := by
      rw [List.map_map]
      exact List.map_congr_left fun c _ => normArg_chunk c
    by_cases ht : t = .none
    · have hvalue : value = none := hnone ht
      rw [normalize, if_pos ht, hnorm, hvalue]
    · rw [normalize, if_neg ht, hnorm]
  · rw [bytes, hcs.flatMap_putArg]

/-! ### Payloads -/

section

variable {α : Type} {headers : HashMap String String} {decode : Cursor CodecError α} {v : α} {b rest : Bytes}

/-- The value `v` that was decoded from `b` is encoded to the bytes that were read, and decoded to itself. -/
def Reencoded (decode : Cursor CodecError α) (v : α) (encoded : CodecResult Bytes) (b rest : Bytes) : Prop :=
  ∃ b', encoded = .ok b' ∧ b = b' ++ rest ∧ decode.run b' = .ok v []

/-- The same with headers: those of the map, in any order, are written where the `entries` were read. -/
def ReencodedHeaders (w : ℕ) (decode : Cursor CodecError α) (v : α) (encode : Iter headers → CodecResult Bytes)
    (b rest : Bytes) : Prop :=
  ∃ before entries after, b = before ++ (headerBytes w entries ++ (after ++ rest)) ∧
    (∀ k, headers.lookup k = entries.reverse.dlookup k) ∧
    ∀ it, ∃ b', encode it = .ok b' ∧ b' = before ++ (headerBytes w it.entries ++ after) ∧
      decode.run b' = .ok v [] ∧ b'.length + rest.length ≤ b.length ∧
      (b'.length + rest.length = b.length ↔ entries.NodupKeys)

theorem HeaderPairs.reencoded {w : ℕ} {entries : List (Σ _ : String, String)} (h : HeaderPairs w entries headers)
    (hw : 0 < w) {encode : Iter headers → CodecResult Bytes} (before after : Bytes)
    (hb : b = before ++ (headerBytes w entries ++ (after ++ rest)))
    (hencode : ∀ it, encode it = .ok (before ++ (headerBytes w it.entries ++ after)))
    (hdecode : ∀ it b', encode it = .ok b' → decode.run b' = .ok v []) : ReencodedHeaders w decode v encode b rest := by
  obtain ⟨hle, hiff⟩ := h.length hw
  refine ⟨before, entries, after, hb, h.lookup_eq, fun it => ⟨_, hencode it, rfl, hdecode it _ (hencode it), ?_, ?_⟩⟩
  · simp only [hb, List.length_append, headerBytes_length]
    omega
  · rw [← hiff]
    simp only [hb, List.length_append, headerBytes_length it]
    omega

end

variable {b rest : Bytes}

theorem Init.reencoded {v : Init} (h : decode.run b = .ok v rest) :
    ReencodedHeaders 2 decode v v.encodeBytes b rest := by
  obtain ⟨version, _, b₁, rfl, rfl, h₁⟩ := takes_getU16.bind_run h
  obtain ⟨headers, _, b₂, ⟨entries, hpairs, rfl⟩, rfl, h₂⟩ := (takes_decodeHeadersField 2).bind_run h₁
  cases h₂
  refine hpairs.reencoded (by decide) (putBE 2 version.toNat) [] (by simp) (fun it => ?_)
    fun it b' => decode_encodeBytes
  exact encodeHeaderFields_eq_ok.2 ⟨hpairs.fit, by simp⟩

theorem Cancel.reencoded {v : Cancel} (h : decode.run b = .ok v rest) : Reencoded decode v v.encodeBytes b rest := by
  obtain ⟨ttl, _, b₁, rfl, rfl, h₁⟩ := takes_getU32.bind_run h
  obtain ⟨tracing, _, b₂, rfl, rfl, h₂⟩ := Tracing.takes_decode.bind_run h₁
  obtain ⟨why, _, b₃, ⟨rfl, hwhy⟩, rfl, h₃⟩ := (takes_decodeStringField 2).bind_run h₂
  cases h₃
  have hencode : encodeBytes ⟨ttl, tracing, why⟩ =
      .ok (putBE 4 ttl.toNat ++ (tracing.bytes ++ stringBytes 2 why)) := by
    rw [encodeBytes, encode, Tracing.encode_eq, codec_ok_bind]
    exact encodeStringField_eq_ok.2 ⟨hwhy, by simp⟩
  exact ⟨_, hencode, by simp only [List.append_assoc], decode_encodeBytes hencode⟩

theorem ErrorMsg.reencoded {v : ErrorMsg} (h : decode.run b = .ok v rest) :
    Reencoded decode v v.encodeBytes b rest := by
  obtain ⟨code, b₁, rfl, h₁⟩ := bind_flag_run (fun _ _ => ErrorCode.toU8_of_fromU8) h
  obtain ⟨tracing, _, b₂, rfl, rfl, h₂⟩ := Tracing.takes_decode.bind_run h₁
  obtain ⟨message, _, b₃, ⟨rfl, hmessage⟩, rfl, h₃⟩ := (takes_decodeStringField 2).bind_run h₂
  cases h₃
  have hencode := encodeBytes_eq_ok (v := ⟨code, tracing, message⟩).2 ⟨hmessage, rfl⟩
  exact ⟨_, hencode, by simp only [List.append_assoc], decode_encodeBytes hencode⟩

theorem maxPayload_eq : maxPayload = 65518 := rfl

theorem CallContinue.reencoded {v : CallContinue} (hb : b.length ≤ 65518) (h : decode.run b = .ok v rest) :
    Reencoded decode v v.encodeBytes b rest := by
  obtain ⟨flags, b₁, rfl, h₁⟩ := bind_flag_run (fun _ _ => BitFlags.bits_of_fromBits) h
  obtain ⟨args, b₂, hargs, h₂⟩ := bind_eq_ok.1 h₁
  cases h₂
  simp only [List.length_append, List.length_singleton] at hb
  obtain ⟨rfl, he, hnorm, rfl⟩ := CallArgs.decode_eq_ok (by omega) hargs
  have hencode := encodeBytes_eq_ok (v := ⟨flags, args⟩).2
    ⟨he, by rwa [maxPayload_eq, encodedLen, ← CallArgs.bytes_length], rfl⟩
  have hdecode := decode_encodeBytes hencode
  rw [hnorm] at hdecode
  exact ⟨_, hencode, by simp, hdecode⟩

theorem CallRequestFields.takes_decode : Takes decode fun f p => ∃ entries, HeaderPairs 1 entries f.headers ∧
    (utf8 f.service).length < 256 ^ 1 ∧
    p = putBE 4 f.ttl.toNat ++ (f.tracing.bytes ++ (stringBytes 1 f.service ++ headerBytes 1 entries)) := by
  intro b f rest h
  obtain ⟨ttl, _, b₁, rfl, rfl, h₁⟩ := takes_getU32.bind_run h
  obtain ⟨tracing, _, b₂, rfl, rfl, h₂⟩ := Tracing.takes_decode.bind_run h₁
  obtain ⟨service, _, b₃, ⟨rfl, hservice⟩, rfl, h₃⟩ := (takes_decodeStringField 1).bind_run h₂
  obtain ⟨headers, _, b₄, ⟨entries, hpairs, rfl⟩, rfl, h₄⟩ := (takes_decodeHeadersField 1).bind_run h₃
  cases h₄
  exact ⟨_, ⟨entries, hpairs, hservice, rfl⟩, by simp only [List.append_assoc]⟩

theorem CallResponseFields.takes_decode : Takes decode fun f p => ∃ entries, HeaderPairs 1 entries f.headers ∧
    p = [f.code.toU8] ++ (f.tracing.bytes ++ headerBytes 1 entries) := by
  intro b f rest h
  obtain ⟨code, b₁, rfl, h₁⟩ := bind_flag_run (fun _ _ => ResponseCode.toU8_of_fromU8) h
  obtain ⟨tracing, _, b₂, rfl, rfl, h₂⟩ := Tracing.takes_decode.bind_run h₁
  obtain ⟨headers, _, b₃, ⟨entries, hpairs, rfl⟩, rfl, h₃⟩ := (takes_decodeHeadersField 1).bind_run h₂
  cases h₃
  exact ⟨_, ⟨entries, hpairs, rfl⟩, by simp only [List.append_assoc]⟩

theorem Writes.call_bytes {encode : Bytes → CodecResult Bytes} {P : Prop} {fb : Bytes} (h : Writes encode P fb)
    (hp : P) {args : CallArgs} (he : args.Encodable) {flags : Flags}
    (hlen : 1 + (fb.length + args.bytes.length) ≤ 65518) :
    (do args.encode (← encode [flags.bits])) = .ok ([flags.bits] ++ (fb ++ args.bytes)) := by
  refine h.call_eq_ok.2 ⟨fb, (h _ _).2 ⟨hp, rfl⟩, CallWithFieldsEncoded.encodeBytes_eq_ok.2 ⟨he, ?_, rfl⟩⟩
  rwa [maxPayload_eq, ← CallArgs.bytes_length, Nat.add_assoc]

theorem CallRequest.reencoded {v : CallRequest} (hb : b.length ≤ 65518) (h : decode.run b = .ok v rest) :
    ReencodedHeaders 1 decode v v.encodeBytes b rest := by
  obtain ⟨flags, b₁, rfl, h₁⟩ := bind_flag_run (fun _ _ => BitFlags.bits_of_fromBits) h
  obtain ⟨fields, _, b₂, ⟨entries, hpairs, hservice, rfl⟩, rfl, h₂⟩ := CallRequestFields.takes_decode.bind_run h₁
  obtain ⟨args, b₃, hargs, h₃⟩ := bind_eq_ok.1 h₂
  cases h₃
  simp only [List.length_append, List.length_singleton] at hb
  obtain ⟨rfl, he, hnorm, rfl⟩ := CallArgs.decode_eq_ok (by omega) hargs
  have hle := (hpairs.length (by decide)).1
  refine hpairs.reencoded (by decide)
    ([flags.bits] ++ (putBE 4 fields.ttl.toNat ++ (fields.tracing.bytes ++ stringBytes 1 fields.service))) args.bytes
    (by simp only [List.append_assoc, List.append_nil]) (fun it => ?_) fun it b' hencode => ?_
  · refine ((fields.writes it).call_bytes ⟨hservice, hpairs.fit⟩ he ?_).trans ?_
    · simp only [CallRequestFields.bytes, List.length_append, headerBytes_length]
      omega
    · simp only [CallRequestFields.bytes, List.append_assoc]
  · obtain ⟨fb, hfields, hcall⟩ := encodeBytes_eq_ok.1 hencode
    rw [CallWithFieldsEncoded.decode_request hfields hcall, hnorm]

theorem CallResponse.reencoded {v : CallResponse} (hb : b.length ≤ 65518) (h : decode.run b = .ok v rest) :
    ReencodedHeaders 1 decode v v.encodeBytes b rest := by
  obtain ⟨flags, b₁, rfl, h₁⟩ := bind_flag_run (fun _ _ => BitFlags.bits_of_fromBits) h
  obtain ⟨fields, _, b₂, ⟨entries, hpairs, rfl⟩, rfl, h₂⟩ := CallResponseFields.takes_decode.bind_run h₁
  obtain ⟨args, b₃, hargs, h₃⟩ := bind_eq_ok.1 h₂
  cases h₃
  simp only [List.length_append, List.length_singleton] at hb
  obtain ⟨rfl, he, hnorm, rfl⟩ := CallArgs.decode_eq_ok (by omega) hargs
  have hle := (hpairs.length (by decide)).1
  refine hpairs.reencoded (by decide) ([flags.bits] ++ ([fields.code.toU8] ++ fields.tracing.bytes)) args.bytes
    (by simp only [List.append_assoc, List.append_nil]) (fun it => ?_) fun it b' hencode => ?_
  · refine ((fields.writes it).call_bytes ⟨hpairs.fit⟩ he ?_).trans ?_
    · simp only [CallResponseFields.bytes, List.length_append, List.length_singleton, headerBytes_length]
      omega
    · simp only [CallResponseFields.bytes, List.append_assoc]
  · obtain ⟨fb, hfields, hcall⟩ := encodeBytes_eq_ok.1 hencode
    rw [CallWithFieldsEncoded.decode_response hfields hcall, hnorm]

/-- What was decoded from a payload that fits in a frame can be encoded again, with its headers in any order: to
the bytes that were read, but for headers that a later one with the same key replaced. -/
theorem reencoding_safe (b : Bytes) (hb : b.length ≤ 65518) :
    (∀ v rest, Init.decode.run b = .ok v rest → ReencodedHeaders 2 Init.decode v v.encodeBytes b rest) ∧
    (∀ v rest, CallRequest.decode.run b = .ok v rest →
      ReencodedHeaders 1 CallRequest.decode v v.encodeBytes b rest) ∧
    (∀ v rest, CallResponse.decode.run b = .ok v rest →
      ReencodedHeaders 1 CallResponse.decode v v.encodeBytes b rest) ∧
    (∀ v rest, CallContinue.decode.run b = .ok v rest →
      Reencoded CallContinue.decode v v.encodeBytes b rest) ∧
    (∀ v rest, Cancel.decode.run b = .ok v rest → Reencoded Cancel.decode v v.encodeBytes b rest) ∧
    (∀ v rest, ErrorMsg.decode.run b = .ok v rest → Reencoded ErrorMsg.decode v v.encodeBytes b rest) :=
  ⟨fun _ _ => Init.reencoded, fun _ _ => CallRequest.reencoded hb, fun _ _ => CallResponse.reencoded hb,
    fun _ _ => CallContinue.reencoded hb, fun _ _ => Cancel.reencoded, fun _ _ => ErrorMsg.reencoded⟩

/-- Two headers with the same empty key, and a byte behind them. -/
theorem reencoding_safe_small :
    ∃ v, Init.decode.run [0, 2, 0, 2, 0, 0, 0, 1, 97, 0, 0, 0, 1, 98, 7] = .ok v [7] ∧
      ReencodedHeaders 2 Init.decode v v.encodeBytes [0, 2, 0, 2, 0, 0, 0, 1, 97, 0, 0, 0, 1, 98, 7] [7] := by
  have hpairs : HeaderPairs 2 [⟨"", "a"⟩, ⟨"", "b"⟩] (insertAll ∅ [⟨"", "a"⟩, ⟨"", "b"⟩]) :=
    ⟨by decide, by decide, rfl⟩
  have hdecode : Reads Init.decode (putBE 2 (2 : UInt16).toNat ++ headerBytes 2 [⟨"", "a"⟩, ⟨"", "b"⟩]) _ :=
    (reads_getU16 2).bind (hpairs.reads.bind_pure (Init.mk 2))
  have hread := hdecode [7]
  have hbytes : putBE 2 (2 : UInt16).toNat ++ headerBytes 2 [⟨"", "a"⟩, ⟨"", "b"⟩] ++ [7] =
      [0, 2, 0, 2, 0, 0, 0, 1, 97, 0, 0, 0, 1, 98, 7] := by decide
  rw [hbytes] at hread
  exact ⟨_, hread, (reencoding_safe _ (by decide)).1 _ _ hread⟩

end Tchannel
