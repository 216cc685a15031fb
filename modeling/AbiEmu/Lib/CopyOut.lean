import AbiEmu.Lib.Writes

/-!
# What a call copies out of the kernel

A call that reports something copies bytes of a kernel object to its caller. An
`Outcome` has what it returns, the stores it makes in user memory, and how far it
reads each object. The number of bytes it stores (`Outcome.stored`) and the bound on
its reads (`Outcome.InBounds`) are about the call itself, whatever memory held before;
`Outcome.after` is what the caller finds.

There are two ways to copy. `copyOut` is `copy_to_user`: it stores as many bytes as
can be written in a row (`Pages.copied`), and gets past byte `k` exactly if it is asked
to and `Pages.Passes` holds (`copied_le_iff`). `putString` is the loop that puts a string
byte by byte and ends it with a zero, without a look at what became of each byte. It
relies on a check made before, so outside user space it stores wherever the kernel can.
`stored_putString` counts its stores for any test of the length.
-/

namespace AbiEmu

/-- How far an object was read, and how long it is. -/
structure Access where
  upTo : Nat
  size : Nat

/-- What a call returns, stores and reads. -/
structure Outcome where
  ret : Int
  acts : List (Act Unit)
  reads : List Access

namespace Outcome

/-- A call that returns without a copy. -/
def returns (ret : Int) : Outcome := ⟨ret, [], []⟩

/-- How many bytes it stores in user memory. -/
def stored (o : Outcome) : Nat := placed () o.acts

/-- It reads no object beyond its end. -/
def InBounds (o : Outcome) : Prop := ∀ r ∈ o.reads, r.upTo ≤ r.size

/-- What the caller finds: the value returned, and memory. -/
def after (o : Outcome) (m : Mem) : Int × Mem := (o.ret, replay o.acts m)

@[simp] theorem inBounds_returns (ret : Int) : (returns ret).InBounds := by
  nofun

end Outcome

@[simp] theorem placed_nil : placed () [] = 0 := rfl

@[simp] theorem placed_copy (a : Word) (bs : List Byte) (acts : List (Act Unit)) :
    placed () (.copy () a bs :: acts) = bs.length + placed () acts := by
  simp [placed, total]

@[simp] theorem placed_append (as bs : List (Act Unit)) :
    placed () (as ++ bs) = placed () as + placed () bs := by
  simp [placed, total]

/-! ## Whole objects -/

namespace Pages

variable (p : Pages) (a : Word) (n k : Nat)

/-- How many of the `n` bytes a `copy_to_user` stores. -/
def copied : Nat := if p.verifyWrite a n then p.reach a n else 0

/-- A copy of `n` bytes is started, and byte `k` and those before it can be written. -/
def Passes : Prop := p.verifyWrite a n = true ∧ p.canWrite a (k + 1) = true
  deriving Decidable

theorem reach_le : p.reach a n ≤ n := by
  refine (List.takeWhile_prefix _).length_le.trans ?_
  rw [List.length_range]

/-- The bytes before the first that cannot be written. -/
theorem canWrite_reach : p.canWrite a (p.reach a n) = true := by
  have hpre := List.takeWhile_prefix (l := List.range n) fun i => p.writable (a + BitVec.ofNat 32 i)
  rw [List.prefix_iff_eq_take, List.take_range] at hpre
  have hrange : _ = List.range (p.reach a n) :=
    hpre.trans (congrArg List.range (Nat.min_eq_left (p.reach_le a n)))
  unfold canWrite
  rw [← hrange]
  exact List.all_takeWhile

/-- Bytes that can be written are reached. -/
theorem le_reach {p : Pages} {a : Word} {n k : Nat} (h : p.canWrite a k = true) (hk : k ≤ n) :
    k ≤ p.reach a n := by
  unfold canWrite at h
  rw [List.all_eq_true] at h
  have hsplit : List.range n = List.range k ++ (List.range (n - k)).map (k + ·) := by
    rw [← List.range_add, Nat.add_sub_cancel' hk]
  rw [reach, hsplit, List.takeWhile_append_of_pos h, List.length_append, List.length_range]
  omega

theorem reach_le_iff : p.reach a n ≤ k ↔ n ≤ k ∨ ¬ p.canWrite a (k + 1) = true := by
  by_cases hn : n ≤ k
  · exact iff_of_true ((p.reach_le a n).trans hn) (.inl hn)
  · rw [or_iff_right hn]
    constructor
    · intro h hw
      have := le_reach hw (Nat.lt_of_not_le hn)
      omega
    · intro h
      by_contra hlt
      exact h (canWrite_le (p.canWrite_reach a n) (by omega))

theorem copied_le : p.copied a n ≤ n := by
  unfold copied
  split
  · exact p.reach_le a n
  · exact Nat.zero_le n

/-- A copy stops at byte `k` or before. -/
theorem copied_le_iff : p.copied a n ≤ k ↔ n ≤ k ∨ ¬ p.Passes a n k := by
  unfold copied Passes
  split_ifs with hv
  · rw [reach_le_iff, not_and_or, or_iff_right (not_not.mpr hv)]
  · exact iff_of_true (Nat.zero_le k) (.inr fun h => hv h.1)

end Pages

/-- `copy_to_user` of the first `n` bytes of an object of `size` bytes; `src` goes on
behind its end. The call returns `ok` if all bytes arrive. -/
def copyOut (p : Pages) (a : Word) (src : Nat → Byte) (size n : Nat) (ok bad : Int) : Outcome where
  ret := if p.canWrite a n then ok else bad
  acts := [.copy () a ((List.range (p.copied a n)).map src)]
  reads := [⟨p.copied a n, size⟩]

section CopyOut

variable (p : Pages) (a : Word) (src : Nat → Byte) (size n : Nat) (ok bad : Int)

@[simp] theorem stored_copyOut : (copyOut p a src size n ok bad).stored = p.copied a n := by
  simp [Outcome.stored, copyOut]

@[simp] theorem inBounds_copyOut :
    (copyOut p a src size n ok bad).InBounds ↔ p.copied a n ≤ size := by
  simp [Outcome.InBounds, copyOut]

/-- The caller finds what a `copy_to_user` of the bytes leaves. -/
theorem after_copyOut (m : Mem) : (copyOut p a src size n ok bad).after m =
    let copy := p.copyBytesToUser a ((List.range n).map src) m
    (if copy.1 then ok else bad, copy.2) := by
  unfold Outcome.after copyOut Pages.copyBytesToUser Pages.copied
  simp only [List.length_map, List.length_range, replay_cons, replay_nil, Act.apply]
  by_cases hv : p.verifyWrite a n = true
  · simp [if_pos hv, ← List.map_take, Nat.min_eq_left (p.reach_le a n)]
  · have hw : ¬ p.canWrite a n = true := fun h => hv (Pages.verifyWrite_of_canWrite h)
    simp only [if_neg hv, if_neg hw, List.range_zero, List.map_nil]
    rfl

end CopyOut

/-! ## Strings, byte by byte -/

/-- A `__put_user` to the address stores: it does not look at the limit, and `kernel` are
the bytes that can be written outside user space. -/
def Pages.takes (p : Pages) (kernel : Word → Bool) (a : Word) : Bool :=
  p.writable a || !p.user a && kernel a

/-- A `__put_user` of one byte whose result nobody looks at. -/
def putAct (p : Pages) (kernel : Word → Bool) (a : Word) (b : Byte) : List (Act Unit) :=
  if p.takes kernel a then [.copy () a [b]] else []

/-- The bytes of a string, put one after the other while the length allows. -/
structure Written where
  /-- Where the next byte goes. -/
  next : Word
  acts : List (Act Unit)
  /-- How many bytes of the string were looked at, its terminator included. -/
  looks : Nat

/-- `for (; *p && more(len); p++, len--) __put_user(*p, name++)` -/
def putLoop (p : Pages) (kernel more : Word → Bool) : List Byte → Word → Word → Written
  | [], _, name => ⟨name, [], 1⟩
  | c :: s, len, name =>
    if more len then
      let rest := putLoop p kernel more s (len - 1) (name + 1)
      ⟨rest.next, putAct p kernel name c ++ rest.acts, rest.looks + 1⟩
    else ⟨name, [], 1⟩

/-- The loop and the zero byte after it. -/
def putString (p : Pages) (kernel more : Word → Bool) (s : List Byte) (len name : Word) :
    Outcome :=
  let written := putLoop p kernel more s len name
  ⟨0, written.acts ++ putAct p kernel written.next 0, [⟨written.looks, s.length + 1⟩]⟩

section Places

variable (p : Pages) (kernel : Word → Bool)

/-- How many of `n` puts, from `a` on, store. -/
def Pages.places (a : Word) (n : Nat) : Nat :=
  (List.range n).countP fun i => p.takes kernel (a + BitVec.ofNat 32 i)

theorem Pages.places_le (a : Word) (n : Nat) : p.places kernel a n ≤ n := by
  refine List.countP_le_length.trans ?_
  rw [List.length_range]

theorem Pages.places_eq_zero_iff (a : Word) (n : Nat) :
    p.places kernel a n = 0 ↔ ∀ i < n, ¬ p.takes kernel (a + BitVec.ofNat 32 i) = true := by
  simp [Pages.places, List.countP_eq_zero]

theorem placed_putAct (a : Word) (b : Byte) :
    placed () (putAct p kernel a b) = if p.takes kernel a then 1 else 0 := by
  unfold putAct
  split_ifs with h
  · rfl
  · rfl

theorem Pages.places_succ (a : Word) (n : Nat) : p.places kernel a (n + 1) =
    (if p.takes kernel a then 1 else 0) + p.places kernel (a + 1) n := by
  have hnext (i : Nat) : a + BitVec.ofNat 32 (i + 1) = a + 1 + BitVec.ofNat 32 i := by bv_omega
  unfold Pages.places
  rw [List.range_succ_eq_map, List.countP_cons, List.countP_map, BitVec.add_zero, Nat.add_comm]
  congr 2
  funext i
  exact congrArg (p.takes kernel) (hnext i)

end Places

section PutString

variable (p : Pages) (kernel : Word → Bool) {more : Word → Bool} {budget : Word → Nat}
  (hmore : ∀ len, more len = true ↔ 0 < budget len)
  (hstep : ∀ len, 0 < budget len → budget (len - 1) = budget len - 1)

include hmore hstep

/-- The loop goes through the string until its end or the end of the budget. -/
theorem putLoop_spec (s : List Byte) : ∀ len name,
    (putLoop p kernel more s len name).looks = min s.length (budget len) + 1 ∧
    placed () (putLoop p kernel more s len name).acts +
        placed () (putAct p kernel (putLoop p kernel more s len name).next 0) =
      p.places kernel name (min s.length (budget len) + 1) := by
  induction s with
  | nil =>
    intro len name
    refine ⟨by simp [putLoop], ?_⟩
    simp [putLoop, placed_putAct, Pages.places]
  | cons c s ih =>
    intro len name
    rw [putLoop]
    by_cases h : more len = true
    · have hpos := (hmore len).mp h
      obtain ⟨hlooks, hplaced⟩ := ih (len - 1) (name + 1)
      have hmin : min (c :: s).length (budget len) = min s.length (budget (len - 1)) + 1 := by
        rw [hstep len hpos, List.length_cons]
        omega
      rw [if_pos h, hmin]
      refine ⟨congrArg (· + 1) hlooks, ?_⟩
      rw [placed_append, placed_putAct, Nat.add_assoc, hplaced, ← Pages.places_succ]
    · have hzero : budget len = 0 := by
        by_contra hne
        exact h ((hmore len).mpr (Nat.pos_of_ne_zero hne))
      rw [if_neg h, hzero, Nat.min_zero]
      refine ⟨rfl, ?_⟩
      simp [placed_putAct, Pages.places]

theorem stored_putString (s : List Byte) (len name : Word) :
    (putString p kernel more s len name).stored =
      p.places kernel name (min s.length (budget len) + 1) := by
  rw [← (putLoop_spec p kernel hmore hstep s len name).2]
  exact placed_append _ _

/-- The loop does not look behind the terminator. -/
theorem inBounds_putString (s : List Byte) (len name : Word) :
    (putString p kernel more s len name).InBounds := by
  intro r hr
  obtain rfl := List.mem_singleton.mp hr
  have hlooks := (putLoop_spec p kernel hmore hstep s len name).1
  show (putLoop p kernel more s len name).looks ≤ s.length + 1
  omega

end PutString

end AbiEmu
