import Tchannel.Lib.Bytes

/-!
# Reading a byte buffer from the front

A `Cursor ε α` consumes bytes from the front of a buffer. Besides a value it can end in one of two
faults: an error of the program's own type `ε`, or a `panic`, which is what a read past the end of
the buffer does. The buffer that is left is part of every outcome, also of a fault.

`Reads x p a` says that `x` takes exactly the bytes `p` and returns `a`, whatever follows them;
`Safe x b` that `x` does not panic on `b`. Both are compositional (`Reads.bind`, `safe_bind`), so a
format is treated field by field.
-/

namespace Wire

/-- How a read can fail. -/
inductive Fault (ε : Type) where
  | err (e : ε)
  | panic
deriving DecidableEq, Repr

abbrev Cursor (ε α : Type) := EStateM (Fault ε) Bytes α

namespace Cursor

variable {ε α β : Type}

/-- Fails with the program's own error. -/
def fail (e : ε) : Cursor ε α := fun b => .error (.err e) b

def panic : Cursor ε α := fun b => .error .panic b

/-- The number of bytes left. -/
def remaining : Cursor ε Nat := fun b => .ok b.length b

/-- Takes the first `n` bytes; panics if there are fewer. -/
def take (n : Nat) : Cursor ε Bytes := fun b =>
  if n ≤ b.length then .ok (b.take n) (b.drop n) else .error .panic b

/-- Takes a `w`-byte big-endian number. -/
def getUInt (w : Nat) : Cursor ε Nat := getBE <$> take w

/-- Drops the first `n` bytes; panics if there are fewer. -/
def advance (n : Nat) : Cursor ε Unit := (fun _ => ()) <$> take n

/-- Unsigned subtraction with overflow checks on. -/
def checkedSub (m n : Nat) : Cursor ε Nat := if n ≤ m then pure (m - n) else panic

/-- `v` if it is there, else the error `e`. -/
def ofOption (v : Option α) (e : ε) : Cursor ε α :=
  match v with
  | some a => pure a
  | none => fail e

@[simp] theorem pure_apply (a : α) (b : Bytes) : (pure a : Cursor ε α).run b = .ok a b := rfl

@[simp] theorem fail_apply (e : ε) (b : Bytes) : (fail e : Cursor ε α).run b = .error (.err e) b := rfl

@[simp] theorem panic_apply (b : Bytes) : (panic : Cursor ε α).run b = .error .panic b := rfl

@[simp] theorem remaining_apply (b : Bytes) : (remaining : Cursor ε Nat).run b = .ok b.length b := rfl

@[simp] theorem get_apply (b : Bytes) : (get : Cursor ε Bytes).run b = .ok b b := rfl

theorem bind_apply (x : Cursor ε α) (f : α → Cursor ε β) (b : Bytes) :
    (x >>= f).run b = match x.run b with
      | .ok a b' => (f a).run b'
      | .error e b' => .error e b' := by
  show EStateM.bind x f b = _
  unfold EStateM.bind EStateM.run
  cases x b <;> rfl

theorem map_apply (f : α → β) (x : Cursor ε α) (b : Bytes) :
    (f <$> x).run b = match x.run b with
      | .ok a b' => .ok (f a) b'
      | .error e b' => .error e b' := by
  show EStateM.map f x b = _
  unfold EStateM.map EStateM.run
  cases x b <;> rfl

theorem bind_ok {x : Cursor ε α} {f : α → Cursor ε β} {a : α} {b b' : Bytes} (h : x.run b = .ok a b') :
    (x >>= f).run b = (f a).run b' := by rw [bind_apply, h]

theorem bind_error {x : Cursor ε α} {f : α → Cursor ε β} {e : Fault ε} {b b' : Bytes}
    (h : x.run b = .error e b') : (x >>= f).run b = .error e b' := by rw [bind_apply, h]

theorem take_of_le {n : Nat} {b : Bytes} (h : n ≤ b.length) :
    (take n : Cursor ε Bytes).run b = .ok (b.take n) (b.drop n) := if_pos h

theorem take_of_lt {n : Nat} {b : Bytes} (h : b.length < n) :
    (take n : Cursor ε Bytes).run b = .error .panic b := if_neg (by omega)

theorem getUInt_of_le {w : Nat} {b : Bytes} (h : w ≤ b.length) :
    (getUInt w : Cursor ε Nat).run b = .ok (getBE (b.take w)) (b.drop w) := by
  rw [getUInt, map_apply, take_of_le h]

theorem getUInt_of_lt {w : Nat} {b : Bytes} (h : b.length < w) :
    (getUInt w : Cursor ε Nat).run b = .error .panic b := by
  rw [getUInt, map_apply, take_of_lt h]

theorem advance_of_le {n : Nat} {b : Bytes} (h : n ≤ b.length) :
    (advance n : Cursor ε Unit).run b = .ok () (b.drop n) := by
  rw [advance, map_apply, take_of_le h]

theorem checkedSub_of_le {m n : Nat} (h : n ≤ m) (b : Bytes) :
    (checkedSub m n : Cursor ε Nat).run b = .ok (m - n) b := by
  rw [checkedSub, if_pos h, pure_apply]

theorem bind_eq_ok {x : Cursor ε α} {f : α → Cursor ε β} {b b' : Bytes} {c : β} :
    (x >>= f).run b = .ok c b' ↔ ∃ a b₁, x.run b = .ok a b₁ ∧ (f a).run b₁ = .ok c b' := by
  rw [bind_apply]
  cases hx : x.run b with
  | ok a b₁ => simp
  | error e b₁ => simp

/-! ### Reading back what was written -/

/-- `x` takes exactly the bytes `p`, whatever follows, and returns `a`. -/
def Reads (x : Cursor ε α) (p : Bytes) (a : α) : Prop := ∀ rest, x.run (p ++ rest) = .ok a rest

namespace Reads

variable {x : Cursor ε α} {f : α → Cursor ε β} {p q : Bytes} {a : α} {b : β}

theorem pure (a : α) : Reads (Pure.pure a : Cursor ε α) [] a := fun _ => rfl

theorem bind (hx : Reads x p a) (hf : Reads (f a) q b) : Reads (x >>= f) (p ++ q) b := by
  intro rest
  rw [List.append_assoc, bind_ok (hx (q ++ rest)), hf rest]

theorem bind_all (hx : Reads x p a) (hf : (f a).run q = .ok b []) : (x >>= f).run (p ++ q) = .ok b [] := by
  rw [bind_ok (hx q), hf]

theorem bind_pure (hx : Reads x p a) (g : α → β) : Reads (x >>= fun a => Pure.pure (g a)) p (g a) := by
  intro rest
  rw [bind_ok (hx rest), pure_apply]

theorem map (hx : Reads x p a) (g : α → β) : Reads (g <$> x) p (g a) := by
  intro rest
  rw [map_apply, hx rest]

theorem all (hx : Reads x p a) : x.run p = .ok a [] := by simpa using hx []

end Reads

theorem reads_take (p : Bytes) : Reads (take p.length : Cursor ε Bytes) p p := by
  intro rest
  rw [take_of_le (by simp), List.take_left, List.drop_left]

theorem reads_getUInt {w n : Nat} (h : n < 256 ^ w) :
    Reads (getUInt w : Cursor ε Nat) (putBE w n) n := by
  have := (reads_take (ε := ε) (putBE w n)).map getBE
  rwa [putBE_length, getBE_putBE h] at this

theorem reads_advance (p : Bytes) : Reads (advance p.length : Cursor ε Unit) p () :=
  (reads_take p).map _

theorem reads_checkedSub {m n : Nat} (h : n ≤ m) : Reads (checkedSub m n : Cursor ε Nat) [] (m - n) :=
  fun rest => checkedSub_of_le h rest

theorem reads_ofOption {v : Option α} {a : α} {e : ε} (h : v = some a) :
    Reads (ofOption v e) [] a := by
  subst h
  exact Reads.pure a

/-! ### What was read -/

/-- Where `x` returns a value, the bytes that it took stand for it in the sense of `R`. -/
def Takes (x : Cursor ε α) (R : α → Bytes → Prop) : Prop :=
  ∀ b a rest, x.run b = .ok a rest → ∃ p, R a p ∧ b = p ++ rest

theorem Takes.bind_run {x : Cursor ε α} {R : α → Bytes → Prop} (hx : Takes x R) {f : α → Cursor ε β}
    {b rest : Bytes} {c : β} (h : (x >>= f).run b = .ok c rest) :
    ∃ a p b₁, R a p ∧ b = p ++ b₁ ∧ (f a).run b₁ = .ok c rest := by
  obtain ⟨a, b₁, ha, hc⟩ := bind_eq_ok.1 h
  obtain ⟨p, hp, rfl⟩ := hx _ _ _ ha
  exact ⟨a, p, b₁, hp, rfl, hc⟩

theorem Takes.map {x : Cursor ε α} {R : α → Bytes → Prop} (hx : Takes x R) (g : α → β) :
    Takes (g <$> x) fun c p => ∃ a, R a p ∧ c = g a := by
  intro b c rest h
  rw [map_apply] at h
  cases hrun : x.run b with
  | ok a b₁ =>
    rw [hrun] at h
    injection h with hc hrest
    obtain ⟨p, hp, rfl⟩ := hx _ _ _ hrun
    exact ⟨p, ⟨a, hp, hc.symm⟩, by rw [hrest]⟩
  | error e b₁ =>
    rw [hrun] at h
    cases h

theorem Takes.mono {x : Cursor ε α} {R S : α → Bytes → Prop} (hx : Takes x R) (h : ∀ a p, R a p → S a p) :
    Takes x S := by
  intro b a rest hrun
  obtain ⟨p, hp, hb⟩ := hx _ _ _ hrun
  exact ⟨p, h a p hp, hb⟩

theorem takes_take (n : Nat) : Takes (take n : Cursor ε Bytes) fun a p => p = a ∧ a.length = n := by
  intro b a rest h
  by_cases hn : n ≤ b.length
  · rw [take_of_le hn] at h
    injection h with ha hrest
    refine ⟨a, ⟨rfl, ?_⟩, ?_⟩
    · rw [← ha, List.length_take, Nat.min_eq_left hn]
    · rw [← ha, ← hrest, List.take_append_drop]
  · rw [take_of_lt (Nat.lt_of_not_le hn)] at h
    cases h

theorem takes_getUInt (w : Nat) :
    Takes (getUInt w : Cursor ε Nat) fun n p => p = putBE w n ∧ n < 256 ^ w := by
  refine ((takes_take w).map getBE).mono ?_
  rintro n p ⟨a, ⟨rfl, rfl⟩, rfl⟩
  exact ⟨(putBE_getBE p).symm, getBE_lt p⟩

theorem takes_ofOption (v : Option α) (e : ε) : Takes (ofOption v e) fun a p => p = [] ∧ v = some a := by
  intro b a rest h
  cases v with
  | none => cases h
  | some a' =>
    injection h with ha hrest
    exact ⟨[], ⟨rfl, by rw [ha]⟩, hrest⟩

/-! ### Panics -/

/-- `x` does not panic on `b`. -/
def Safe (x : Cursor ε α) (b : Bytes) : Prop := ∀ b', x.run b ≠ .error .panic b'

instance (x : Cursor ε α) (b : Bytes) : Decidable (Safe x b) :=
  match h : x.run b with
  | .ok _ _ => .isTrue fun b' h' => by rw [h] at h'; cases h'
  | .error (.err _) _ => .isTrue fun b' h' => by rw [h] at h'; cases h'
  | .error .panic b' => .isFalse fun hs => hs b' h

theorem safe_of_ok {x : Cursor ε α} {b b' : Bytes} {a : α} (h : x.run b = .ok a b') : Safe x b := by
  intro b'' h'
  rw [h] at h'
  cases h'

theorem safe_bind {x : Cursor ε α} {f : α → Cursor ε β} {b : Bytes} :
    Safe (x >>= f) b ↔ Safe x b ∧ ∀ a b', x.run b = .ok a b' → Safe (f a) b' := by
  unfold Safe
  rw [bind_apply]
  cases hx : x.run b with
  | ok a b₁ =>
    simp only [ne_eq, reduceCtorEq, not_false_eq_true, implies_true, EStateM.Result.ok.injEq,
      true_and, and_imp]
    exact ⟨fun h a' b' ha hb => ha ▸ hb ▸ h, fun h => h a b₁ rfl rfl⟩
  | error e b₁ => simp

theorem safe_bind_ok {x : Cursor ε α} {f : α → Cursor ε β} {a : α} {b b' : Bytes} (h : x.run b = .ok a b') :
    Safe (x >>= f) b ↔ Safe (f a) b' := by
  unfold Safe
  rw [bind_ok h]

theorem Safe.of_bind {x : Cursor ε α} {f : α → Cursor ε β} {b : Bytes} (h : Safe (x >>= f) b) : Safe x b :=
  (safe_bind.1 h).1

theorem safe_map {x : Cursor ε α} {f : α → β} {b : Bytes} : Safe (f <$> x) b ↔ Safe x b := by
  unfold Safe
  rw [map_apply]
  cases hx : x.run b <;> simp

@[simp] theorem safe_pure (a : α) (b : Bytes) : Safe (pure a : Cursor ε α) b := by simp [Safe]

@[simp] theorem safe_fail (e : ε) (b : Bytes) : Safe (fail e : Cursor ε α) b := by simp [Safe]

theorem safe_take {n : Nat} {b : Bytes} : Safe (take n : Cursor ε Bytes) b ↔ n ≤ b.length := by
  by_cases h : n ≤ b.length
  · simp [Safe, take_of_le h, h]
  · simp [Safe, take_of_lt (Nat.lt_of_not_le h), h]

theorem safe_getUInt {w : Nat} {b : Bytes} : Safe (getUInt w : Cursor ε Nat) b ↔ w ≤ b.length := by
  rw [getUInt, safe_map, safe_take]

end Cursor

end Wire
