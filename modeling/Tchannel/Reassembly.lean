import Tchannel.Defragmentation
import Mathlib.Algebra.Order.Group.Nat

/-!
# The protocol's reassembly rule

`reassemble` is the rule of the protocol: the chunks of the first frame start the args; in every later
frame the first chunk, empty or not, goes on with the last arg, and every further chunk starts a new
one. `ArgsDefragmenter` does this except when a later frame starts with an empty chunk: then it starts
an arg that no chunk asked for (`addAll_eq_reassemble_iff`).
-/

namespace Tchannel
open Wire

/-- One later frame by the protocol's rule. -/
def reassembleNext (args : List Bytes) : List (Option Bytes) → List Bytes
  | [] => args
  | chunk :: chunks =>
    args.dropLast ++ [args.getLastD [] ++ chunk.getD []] ++ chunks.map (·.getD [])

/-- The args that a sequence of frames stands for by the protocol's rule. -/
def reassemble : List (List (Option Bytes)) → List Bytes
  | [] => []
  | first :: frames => frames.foldl reassembleNext (first.map (·.getD []))

namespace ArgsDefragmenter

@[simp] theorem addRemainingArgs_args (d : ArgsDefragmenter) (chunks : List (Option Bytes)) :
    (d.addRemainingArgs chunks).args = d.args ++ chunks.map (·.getD []) := by
  have key : ∀ args : List Bytes, chunks.foldl (fun args frameArg => args ++ [frameArg.getD []]) args =
      args ++ chunks.map (·.getD []) := by
    induction chunks with
    | nil => simp
    | cons chunk chunks ih =>
      intro args
      rw [List.foldl_cons, ih, List.map_cons, List.append_assoc, List.singleton_append]
  exact key d.args

theorem addFirstArg_none (d : ArgsDefragmenter) : (d.addFirstArg none).args = d.args ++ [[]] := rfl

theorem addFirstArg_some {d : ArgsDefragmenter} (hd : d.args ≠ []) (b : Bytes) :
    (d.addFirstArg (some b)).args = d.args.dropLast ++ [d.args.getLastD [] ++ b] := by
  obtain ⟨init, last, hargs⟩ := List.eq_nil_or_concat d.args |>.resolve_left hd
  simp [addFirstArg, hargs]

theorem default_add (chunks : List (Option Bytes)) :
    (default.add chunks).args = chunks.map (·.getD []) := by
  cases chunks with
  | nil => rfl
  | cons chunk chunks =>
    rw [add, addRemainingArgs_args]
    cases chunk <;> rfl

theorem add_eq_reassembleNext {d : ArgsDefragmenter} (hd : d.args ≠ []) {chunks : List (Option Bytes)}
    (h : chunks.head? ≠ some none) : (d.add chunks).args = reassembleNext d.args chunks := by
  cases chunks with
  | nil => rfl
  | cons chunk chunks =>
    cases chunk with
    | none => exact absurd rfl h
    | some b =>
      rw [add, addRemainingArgs_args, addFirstArg_some hd]
      rfl

theorem add_ne_nil {d : ArgsDefragmenter} (hd : d.args ≠ []) (chunks : List (Option Bytes)) :
    (d.add chunks).args ≠ [] := by
  cases chunks with
  | nil => exact hd
  | cons chunk chunks =>
    rw [add, addRemainingArgs_args]
    cases chunk with
    | none => simp [addFirstArg_none]
    | some b => simp [addFirstArg_some hd]

theorem add_length {d : ArgsDefragmenter} (hd : d.args ≠ []) {chunks : List (Option Bytes)}
    (hc : chunks ≠ []) :
    (d.add chunks).args.length + 1 =
      d.args.length + chunks.length + (if chunks.head? = some none then 1 else 0) := by
  have hpos := List.length_pos_of_ne_nil hd
  cases chunks with
  | nil => exact absurd rfl hc
  | cons chunk chunks =>
    rw [add, addRemainingArgs_args]
    cases chunk with
    | none => simp [addFirstArg_none]
    | some b => simp [addFirstArg_some hd]; omega

end ArgsDefragmenter

theorem reassembleNext_length {args : List Bytes} (ha : args ≠ []) {chunks : List (Option Bytes)}
    (hc : chunks ≠ []) : (reassembleNext args chunks).length + 1 = args.length + chunks.length := by
  have hpos := List.length_pos_of_ne_nil ha
  cases chunks with
  | nil => exact absurd rfl hc
  | cons chunk chunks => simp [reassembleNext]; omega

theorem reassembleNext_ne_nil {args : List Bytes} (ha : args ≠ []) (chunks : List (Option Bytes)) :
    reassembleNext args chunks ≠ [] := by
  cases chunks with
  | nil => exact ha
  | cons chunk chunks => simp [reassembleNext]

/-- Over later frames the defragmenter is never behind the rule in the number of args, and level with it
only if no frame starts with an empty chunk. -/
theorem foldl_add_length {frames : List (List (Option Bytes))} (hf : ∀ f ∈ frames, f ≠ [])
    {d : ArgsDefragmenter} (hd : d.args ≠ []) {args : List Bytes} (ha : args ≠ [])
    (hle : args.length ≤ d.args.length) :
    (frames.foldl reassembleNext args).length ≤ (d.addAll frames).args.length ∧
      ((∃ f ∈ frames, f.head? = some none) →
        (frames.foldl reassembleNext args).length < (d.addAll frames).args.length) ∧
      (args.length < d.args.length →
        (frames.foldl reassembleNext args).length < (d.addAll frames).args.length) := by
  induction frames generalizing d args with
  | nil => exact ⟨hle, fun ⟨f, hf, _⟩ => by simp at hf, id⟩
  | cons f frames ih =>
    have hne := hf f (by simp)
    have h₁ := ArgsDefragmenter.add_length hd hne
    have h₂ := reassembleNext_length ha hne
    obtain ⟨hle', hlt', hstep⟩ := ih (fun g hg => hf g (by simp [hg])) (ArgsDefragmenter.add_ne_nil hd f)
      (reassembleNext_ne_nil ha f) (by omega)
    refine ⟨hle', ?_, fun hlt => hstep (by omega)⟩
    rintro ⟨g, hg, hnone⟩
    rcases List.mem_cons.1 hg with rfl | hg
    · rw [if_pos hnone] at h₁
      exact hstep (by omega)
    · exact hlt' ⟨g, hg, hnone⟩

theorem foldl_add_eq {frames : List (List (Option Bytes))} {d : ArgsDefragmenter} (hd : d.args ≠ [])
    (h : ∀ f ∈ frames, f.head? ≠ some none) :
    (d.addAll frames).args = frames.foldl reassembleNext d.args := by
  induction frames generalizing d with
  | nil => rfl
  | cons f frames ih =>
    show ((d.add f).addAll frames).args = _
    rw [ih (ArgsDefragmenter.add_ne_nil hd f) fun g hg => h g (by simp [hg]),
      ArgsDefragmenter.add_eq_reassembleNext hd (h f (by simp)), List.foldl_cons]

theorem addAll_eq_reassemble {first : List (Option Bytes)} {frames : List (List (Option Bytes))}
    (hfirst : first ≠ []) (hf : ∀ f ∈ frames, f ≠ []) :
    (ArgsDefragmenter.default.addAll (first :: frames)).args = reassemble (first :: frames) ↔
      ∀ f ∈ frames, f.head? ≠ some none := by
  have hstart := ArgsDefragmenter.default_add first
  have hne : (ArgsDefragmenter.default.add first).args ≠ [] := by
    rw [hstart]
    simpa using hfirst
  show ((ArgsDefragmenter.default.add first).addAll frames).args = _ ↔ _
  constructor
  · intro heq f hmem hnone
    obtain ⟨-, hlt, -⟩ := foldl_add_length hf hne hne (Nat.le_refl _)
    have := hlt ⟨f, hmem, hnone⟩
    rw [heq, reassemble, hstart] at this
    exact lt_irrefl _ this
  · intro h
    rw [foldl_add_eq hne h, hstart, reassemble]

/-- The defragmenter rebuilds what the protocol's rule says, on a sequence of frames with one to three
chunks each, if and only if no frame after the first starts with an empty chunk. -/
theorem addAll_eq_reassemble_iff (frames : List (List (Option Bytes))) (hne : frames ≠ [])
    (hchunks : ∀ f ∈ frames, 1 ≤ f.length ∧ f.length ≤ 3) :
    (ArgsDefragmenter.default.addAll frames).args = reassemble frames ↔
      ∀ f ∈ frames.tail, f.head? ≠ some none := by
  cases frames with
  | nil => exact absurd rfl hne
  | cons first frames =>
    have hpos : ∀ f ∈ first :: frames, f ≠ [] := by
      intro f hf h0
      have := (hchunks f hf).1
      simp [h0] at this
    exact addAll_eq_reassemble (hpos first (by simp)) fun f hf => hpos f (by simp [hf])

theorem addAll_two_frames :
    (ArgsDefragmenter.default.addAll [[some [1], some [2]], [some [3], none]]).args =
      reassemble [[some [1], some [2]], [some [3], none]] :=
  (addAll_eq_reassemble_iff _ (by decide) (by decide)).2 (by decide)

/-- An arg that ends with its frame, and an empty chunk in front of the next arg: the protocol's rule
gives two args, the defragmenter three. -/
theorem addAll_ne_reassemble :
    ¬ ∀ frames : List (List (Option Bytes)), frames ≠ [] →
      (∀ f ∈ frames, 1 ≤ f.length ∧ f.length ≤ 3) →
      (ArgsDefragmenter.default.addAll frames).args = reassemble frames := by
  intro h
  exact absurd (h [[some [1]], [none, some [2]]] (by decide) (by decide)) (by decide)

end Tchannel
