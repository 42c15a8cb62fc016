import Tchannel.Fragments
import Tchannel.PayloadSafety
import Mathlib.Algebra.Order.BigOperators.Group.List

/-!
# What `decode_args` accepts

The args of a payload are one to three chunks, each behind its length, up to the end of the payload
(`ArgGrammar`). `decodeArgs` accepts the byte strings of this form and no others, and returns their only
division into chunks. On its way it subtracts from a length that was cast to 16 bits; no payload that fits in a
frame is long enough for the cast to lose anything (`argCalls_castExact`).
-/

namespace Tchannel
open Wire Wire.Cursor
open ArgsFragmenter (chunk argLen_chunk getD_chunk)

/-- A chunk behind its length. -/
def chunkBytes (c : Bytes) : Bytes := putBE 2 c.length ++ c

structure ArgGrammar (chunks : List Bytes) (b : Bytes) : Prop where
  one_le : 1 ≤ chunks.length
  le_three : chunks.length ≤ 3
  lengths : ∀ c ∈ chunks, c.length < 65536
  bytes : b = chunks.flatMap chunkBytes

theorem chunk_injective {c c' : Bytes} (h : chunk c = chunk c') : c = c' := by
  have := congrArg (·.getD []) h
  simpa only [getD_chunk] using this

theorem normArg_chunk (c : Bytes) : normArg (chunk c) = chunk c := by
  cases c <;> rfl

theorem putArg_getD {arg : Option Bytes} (h : argLen arg < 65536) : putArg arg = chunkBytes (arg.getD []) := by
  cases arg with
  | none => rfl
  | some c =>
    rw [argLen_some] at h
    rw [putArg, UInt16.toNat_ofNat_of_lt' h]
    rfl

theorem putArg_chunk {c : Bytes} (h : c.length < 65536) : putArg (chunk c) = chunkBytes c := by
  rw [putArg_getD (by rwa [argLen_chunk]), getD_chunk]

theorem argLen_lt_of_mem {args : List (Option Bytes)} {arg : Option Bytes} (h : arg ∈ args) :
    argLen arg < (args.flatMap putArg).length := by
  have hmem : (putArg arg).length ∈ args.map fun arg => (putArg arg).length := List.mem_map_of_mem h
  have hle := List.le_sum_of_mem hmem
  rw [putArg_length] at hle
  rw [List.length_flatMap]
  omega

variable {b rest : Bytes} {chunks chunks' : List Bytes} {args : List (Option Bytes)}

namespace ArgGrammar

theorem flatMap_putArg (h : ArgGrammar chunks b) : (chunks.map chunk).flatMap putArg = b := by
  rw [h.bytes, List.flatMap_map]
  exact List.flatMap_congr fun c hc => putArg_chunk (h.lengths c hc)

theorem decodeArgs_eq (h : ArgGrammar chunks b) (hb : b.length < 65536) :
    decodeArgs.run b = .ok (chunks.map chunk) [] := by
  have hrun := @decodeArgs_putArgs (chunks.map chunk) (by simpa using h.one_le) (by simpa using h.le_three)
    (by rwa [h.flatMap_putArg])
  rw [h.flatMap_putArg, List.map_map] at hrun
  rw [hrun]
  congr 1
  exact List.map_congr_left fun c _ => normArg_chunk c

theorem unique (h : ArgGrammar chunks b) (h' : ArgGrammar chunks' b) (hb : b.length < 65536) :
    chunks = chunks' := by
  have hrun := h.decodeArgs_eq hb
  rw [h'.decodeArgs_eq hb] at hrun
  injection hrun with hargs
  exact (List.map_injective_iff.2 (fun _ _ => chunk_injective) hargs).symm

end ArgGrammar

theorem argList_iff (hb : b.length < 65536) : ArgList b ↔ ∃ chunks, ArgGrammar chunks b := by
  constructor
  · rintro ⟨args, h1, h3, rfl⟩
    have hlen : ∀ arg ∈ args, argLen arg < 65536 := fun arg harg => (argLen_lt_of_mem harg).trans hb
    refine ⟨args.map (·.getD []), by simpa using h1, by simpa using h3, ?_, ?_⟩
    · intro c hc
      obtain ⟨arg, harg, rfl⟩ := List.mem_map.1 hc
      exact hlen arg harg
    · rw [List.flatMap_map]
      exact List.flatMap_congr fun arg harg => putArg_getD (hlen arg harg)
  · rintro ⟨chunks, h⟩
    exact ⟨chunks.map chunk, by simpa using h.one_le, by simpa using h.le_three, h.flatMap_putArg.symm⟩

theorem decodeArgs_eq_ok (hb : b.length < 65536) :
    decodeArgs.run b = .ok args rest ↔ rest = [] ∧ ∃ chunks, ArgGrammar chunks b ∧ args = chunks.map chunk := by
  constructor
  · intro h
    rcases decodeArgs_cases hb with ⟨e, b', he, -⟩ | ⟨args', -, hlist⟩
    · rw [he] at h
      cases h
    · obtain ⟨chunks, hchunks⟩ := (argList_iff hb).1 hlist
      rw [hchunks.decodeArgs_eq hb] at h
      injection h with hargs hrest
      exact ⟨hrest.symm, chunks, hchunks, hargs.symm⟩
  · rintro ⟨rfl, chunks, hchunks, rfl⟩
    exact hchunks.decodeArgs_eq hb

/-! ### The calls of `decode_arg` -/

/-- What is left of the payload at each call of `decode_arg`, of at most `n`. -/
def argCalls : ℕ → Bytes → List Bytes
  | 0, _ => []
  | n + 1, b =>
    if b.length = 0 then
      []
    else
      b :: match decodeArg.run b with
        | .ok _ rest => argCalls n rest
        | .error _ _ => []

/-- The cast of what is left is exact, and so is the subtraction of the two bytes of the length field. -/
def CastExact (b : Bytes) : Prop :=
  (UInt16.ofNat b.length).toNat = b.length ∧ (2 ≤ b.length → ∀ rest,
    (checkedSub (UInt16.ofNat b.length).toNat 2 : Cursor CodecError ℕ).run rest = .ok (b.length - 2) rest)

theorem castExact_of_lt (hb : b.length < 65536) : CastExact b := by
  have hcast : (UInt16.ofNat b.length).toNat = b.length := UInt16.toNat_ofNat_of_lt' hb
  refine ⟨hcast, fun h2 rest => ?_⟩
  rw [hcast]
  exact checkedSub_of_le h2 rest

theorem argCalls_castExact {n : ℕ} (hb : b.length < 65536) : ∀ b' ∈ argCalls n b, CastExact b' := by
  induction n generalizing b with
  | zero => simp [argCalls]
  | succ n ih =>
    rw [argCalls]
    split
    · simp
    · refine List.forall_mem_cons.2 ⟨castExact_of_lt hb, ?_⟩
      rcases decodeArg_cases hb with ⟨e, b', he⟩ | ⟨arg, rest, hok, hsplit⟩
      · simp [he]
      · have hrest : rest.length ≤ b.length := by rw [hsplit]; simp
        simp only [hok]
        exact ih (by omega)

/-- `decode_args` accepts one to three chunks up to the end of the payload and nothing else, returns them as
they are, and does not lose a bit on the way. -/
theorem decodeArgs_exact (b : Bytes) (hb : b.length ≤ 65519) :
    (∀ args rest, decodeArgs.run b = .ok args rest ↔
      rest = [] ∧ ∃ chunks, ArgGrammar chunks b ∧ args = chunks.map chunk) ∧
    (∀ chunks chunks', ArgGrammar chunks b → ArgGrammar chunks' b → chunks = chunks') ∧
    ((¬ ∃ chunks, ArgGrammar chunks b) → ∃ e rest, decodeArgs.run b = .error (.err e) rest) ∧
    ∀ b' ∈ argCalls maxFrameArgs b, CastExact b' := by
  have hlt : b.length < 65536 := by omega
  refine ⟨fun _ _ => decodeArgs_eq_ok hlt, fun _ _ h h' => h.unique h' hlt, fun hno => ?_,
    argCalls_castExact hlt⟩
  rcases decodeArgs_cases hlt with ⟨e, b', he, -⟩ | ⟨args, -, hlist⟩
  · exact ⟨e, b', he⟩
  · exact absurd ((argList_iff hlt).1 hlist) hno

/-- An arg of two bytes and an empty one. -/
theorem decodeArgs_two : decodeArgs.run [0, 2, 7, 8, 0, 0] = .ok [some [7, 8], none] [] :=
  ((decodeArgs_exact [0, 2, 7, 8, 0, 0] (by decide)).1 _ _).2
    ⟨rfl, [[7, 8], []], ⟨by decide, by decide, by decide, by decide⟩, rfl⟩

end Tchannel
