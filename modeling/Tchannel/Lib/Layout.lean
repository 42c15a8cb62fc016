import Tchannel.Lib.Cursor
import Tchannel.Lib.Text

/-!
# When a reader stays inside its buffer

A layout turns a condition on the bytes behind a field into one on the bytes it starts at: the field
lies inside the buffer and, unless its content makes the reader give up with an error, the condition
holds behind it. `Follows x layout` says that `layout` is the exact condition under which `x`, and
whatever is run after it, does not panic; layouts compose as the readers do (`Follows.bind`).
-/

namespace Wire

abbrev Layout := (Bytes → Prop) → Bytes → Prop

namespace Layout

/-- `n` bytes of any content. -/
def fixed (n : Nat) : Layout := fun rest b => n ≤ b.length ∧ rest (b.drop n)

/-- One byte; reading ends at one that is not `known`. -/
def byte (known : UInt8 → Bool) : Layout := fun rest b =>
  1 ≤ b.length ∧ (known (b.headD 0) → rest (b.drop 1))

/-- A string behind a `w`-byte length; reading ends at one that is not UTF-8. -/
def text (w : Nat) : Layout := fun rest b =>
  w + getBE (b.take w) ≤ b.length ∧
    ((fromUtf8 ((b.drop w).take (getBE (b.take w)))).isSome → rest (b.drop (w + getBE (b.take w))))

/-- Pairs of strings behind a `w`-byte count. -/
def pairs (w : Nat) : Layout := fun rest b =>
  w ≤ b.length ∧ (text w ∘ text w)^[getBE (b.take w)] rest (b.drop w)

end Layout

namespace Cursor

variable {ε α β : Type}

/-- What runs after `x` on `b` is safe exactly if the layout's condition holds of `b`. -/
def Follows (x : Cursor ε α) (layout : Layout) : Prop :=
  ∀ (γ : Type) (f : α → Cursor ε γ) (rest : Bytes → Prop) (b : Bytes),
    (∀ a b', b'.length ≤ b.length → (Safe (f a) b' ↔ rest b')) → (Safe (x >>= f) b ↔ layout rest b)

namespace Follows

variable {x : Cursor ε α} {g : α → Cursor ε β} {l l' : Layout}

theorem pure (a : α) : Follows (Pure.pure a : Cursor ε α) id := by
  intro γ f rest b hf
  rw [pure_bind]
  exact hf a b (Nat.le_refl _)

theorem bind (hx : Follows x l) (hg : ∀ a, Follows (g a) l') : Follows (x >>= g) (l ∘ l') := by
  intro γ f rest b hf
  rw [bind_assoc]
  exact hx _ _ _ _ fun a b' hb' => hg a _ f rest b' fun c b'' hb'' => hf c b'' (hb''.trans hb')

theorem map (hx : Follows x l) (h : α → β) : Follows (h <$> x) l := by
  intro γ f rest b hf
  rw [bind_map_left]
  exact hx _ _ _ _ fun a b' hb' => hf (h a) b' hb'

theorem safe (hx : Follows x l) (b : Bytes) : Safe x b ↔ l (fun _ => True) b := by
  have := hx _ (fun a => Pure.pure a) (fun _ => True) b fun a b' _ => by simp
  rwa [bind_pure] at this

end Follows

theorem follows_take (n : Nat) : Follows (take n : Cursor ε Bytes) (.fixed n) := by
  intro γ f rest b hf
  by_cases hn : n ≤ b.length
  · rw [safe_bind_ok (take_of_le hn), hf _ _ (by simp), Layout.fixed]
    exact (and_iff_right hn).symm
  · refine iff_of_false (fun h => hn (safe_take.1 h.of_bind)) fun h => hn h.1

theorem follows_getUInt (w : Nat) : Follows (getUInt w : Cursor ε Nat) (.fixed w) := (follows_take w).map _

theorem follows_byte (decoder : UInt8 → Option α) (e : UInt8 → ε) :
    Follows (getUInt 1 >>= fun n => ofOption (decoder (UInt8.ofNat n)) (e (UInt8.ofNat n)))
      (.byte fun v => (decoder v).isSome) := by
  intro γ f rest b hf
  rw [bind_assoc]
  rcases b with - | ⟨v, b⟩
  · exact iff_of_false (fun h => absurd (safe_getUInt.1 h.of_bind) (by simp)) fun h => absurd h.1 (by simp)
  · have hrun : (getUInt 1 : Cursor ε Nat).run (v :: b) = .ok v.toNat b := by
      rw [getUInt_of_le (by simp)]
      simp [getBE_singleton]
    rw [safe_bind_ok hrun, UInt8.ofNat_toNat]
    cases hv : decoder v with
    | none => simp [Layout.byte, hv, ofOption, safe_bind]
    | some a => simp [Layout.byte, hv, ofOption, hf a b (by simp)]

theorem follows_text (w : Nat) (e : Bytes → ε) :
    Follows (getUInt w >>= fun len => take len >>= fun bytes => ofOption (fromUtf8 bytes) (e bytes))
      (.text w) := by
  intro γ f rest b hf
  simp only [bind_assoc]
  by_cases hw : w ≤ b.length
  · rw [safe_bind_ok (getUInt_of_le hw)]
    by_cases hlen : w + getBE (b.take w) ≤ b.length
    · have htake : getBE (b.take w) ≤ (b.drop w).length := by rw [List.length_drop]; omega
      rw [safe_bind_ok (take_of_le htake), List.drop_drop, Layout.text]
      cases hs : fromUtf8 ((b.drop w).take (getBE (b.take w))) with
      | none => simp [ofOption, safe_bind, hlen]
      | some s => simp [ofOption, hf s (b.drop (w + getBE (b.take w))) (by simp), hlen]
    · refine iff_of_false (fun h => hlen ?_) fun h => hlen h.1
      have := safe_take.1 h.of_bind
      rw [List.length_drop] at this
      omega
  · refine iff_of_false (fun h => hw (safe_getUInt.1 h.of_bind)) fun h => hw ?_
    exact (Nat.le_add_right _ _).trans h.1

/-- A count and that many entries, each of the layout `l`. -/
theorem follows_count {w : Nat} {x : Nat → Cursor ε α} {l : Layout} (hx : ∀ n, Follows (x n) l^[n]) :
    Follows (getUInt w >>= x)
      (fun rest b => w ≤ b.length ∧ l^[getBE (b.take w)] rest (b.drop w)) := by
  intro γ f rest b hf
  rw [bind_assoc]
  by_cases hw : w ≤ b.length
  · rw [safe_bind_ok (getUInt_of_le hw)]
    rw [hx _ _ f rest (b.drop w) fun a b' hb' => hf a b' (hb'.trans (by simp))]
    exact (and_iff_right hw).symm
  · exact iff_of_false (fun h => hw (safe_getUInt.1 h.of_bind)) fun h => hw h.1

end Cursor

end Wire
