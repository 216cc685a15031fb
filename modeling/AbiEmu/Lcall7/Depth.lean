import AbiEmu.Lcall7.Dispatch

/-!
# How deep the system call entry recurses

Slot 0 of every main table is `lcall7_syscall`, which reads a number from the
user stack and re-enters the handler. Nothing stops that number from selecting
slot 0 again, so the depth of the recursion is decided by the user's stack:
`chainNumber` lists the numbers the nested handlers see (`eax`, then a word
four bytes above the stack pointer, which each level moves up by one byte), and
`depthAtMost_iff` says that `B` nested handlers are enough exactly when one of
the first `B` of them has a non-zero low byte. Everything else that a table can
call comes back (`enter_error`), so this is the only way not to.

On a stack of zero bytes no depth is enough (`zero_stack_unbounded`).
-/

namespace AbiEmu.Lcall7

/-- The run comes back. -/
def Returns {α : Type} (x : Outcome α) : Prop := ∃ a, x = .ok a

/-- The `i`-th number a chain of nested handlers sees. -/
def chainNumber (m : Mem) (regs : PtRegs) : Nat → Word
  | 0 => regs.eax
  | i + 1 => m.slot (regs.esp + BitVec.ofNat 32 i) 1

section
variable {ω : Type} {K : Kernel ω} {p : Personality}

/-- A handler entered with another number than 0 comes back. -/
theorem enter_nonzero {s : Sys ω} (h0 : s.regs.eax &&& 0xff ≠ 0) (n : Nat) :
    Returns (enter K p (n + 1) s) := by
  cases h : enter K p (n + 1) s with
  | error e => exact absurd (enter_error h).1 h0
  | ok s' => exact ⟨s', rfl⟩

/-- A handler entered with number 0 comes back when the nested one does. -/
theorem enter_zero_returns {s : Sys ω} (h0 : s.regs.eax &&& 0xff = 0) (n : Nat) :
    Returns (enter K p (n + 1) s) ↔ Returns (enter K p n (nested K s)) := by
  rw [enter_zero h0]
  cases enter K p n (nested K s) with
  | error e =>
    constructor
    all_goals rintro ⟨a, ha⟩; exact nomatch ha
  | ok s' => exact ⟨fun _ => ⟨s', rfl⟩, fun _ => ⟨unnested s', rfl⟩⟩

/-- The numbers a nested handler sees are those of its caller but the first. -/
theorem chainNumber_nested (s : Sys ω) (i : Nat) :
    chainNumber (K.mem (nested K s).world) (nested K s).regs i =
      chainNumber (K.mem s.world) s.regs (i + 1) := by
  cases i with
  | zero => simp [chainNumber, nested]
  | succ i =>
    simp only [chainNumber, nested]
    congr 1
    rw [BitVec.ofNat_add, BitVec.add_assoc, BitVec.add_comm (BitVec.ofNat 32 i)]
    rfl

/-- `B` nested handlers are enough exactly when one of the first `B` numbers of
the chain has a non-zero low byte. -/
theorem enter_returns_iff (K : Kernel ω) (p : Personality) (B : Nat) (s : Sys ω) :
    Returns (enter K p B s) ↔ ∃ i, i < B ∧ chainNumber (K.mem s.world) s.regs i &&& 0xff ≠ 0 := by
  induction B generalizing s with
  | zero =>
    constructor
    · rintro ⟨a, ha⟩
      exact absurd ha (by simp [enter])
    · rintro ⟨i, hi, _⟩
      exact absurd hi (Nat.not_lt_zero i)
  | succ B ih =>
    by_cases h0 : s.regs.eax &&& 0xff = 0
    · -- the first number selects slot 0: the rest of the chain is the nested one
      rw [enter_zero_returns h0, ih]
      constructor
      · rintro ⟨i, hi, hne⟩
        rw [chainNumber_nested] at hne
        exact ⟨i + 1, Nat.succ_lt_succ hi, hne⟩
      · rintro ⟨i, hi, hne⟩
        cases i with
        | zero => exact absurd h0 hne
        | succ i =>
          refine ⟨i, Nat.lt_of_succ_lt_succ hi, ?_⟩
          rw [chainNumber_nested]
          exact hne
    · exact ⟨fun _ => ⟨0, Nat.succ_pos B, h0⟩, fun _ => enter_nonzero h0 B⟩

end

/-- On user memory `m` and registers `regs`, at most `B` handlers are ever nested,
whatever the called functions do. -/
def DepthAtMost (p : Personality) (m : Mem) (regs : PtRegs) (B : Nat) : Prop :=
  ∀ {ω : Type} (K : Kernel ω) (s : Sys ω), K.mem s.world = m → s.regs = regs →
    Returns (enter K p B s)

/-- The depth is bounded by `B` exactly when one of the first `B` numbers of the
chain has a non-zero low byte. -/
theorem depthAtMost_iff (p : Personality) (m : Mem) (regs : PtRegs) (B : Nat) :
    DepthAtMost p m regs B ↔ ∃ i, i < B ∧ chainNumber m regs i &&& 0xff ≠ 0 := by
  constructor
  · intro h
    exact (enter_returns_iff (idleKernel m) p B ⟨regs, ()⟩).mp (h _ _ rfl rfl)
  · rintro h ω K s rfl rfl
    exact (enter_returns_iff K p B s).mpr h

/-- On a stack of zero bytes no depth is enough, whatever the personality. -/
theorem zero_stack_unbounded :
    ¬ ∃ (p : Personality) (B : Nat), DepthAtMost p (fun _ => 0) ⟨0, 0, 0, 0⟩ B := by
  rintro ⟨p, B, h⟩
  have hret := h (idleKernel fun _ => 0) ⟨⟨0, 0, 0, 0⟩, ()⟩ rfl rfl
  rw [enter_returns_iff] at hret
  obtain ⟨i, _, hne⟩ := hret
  apply hne
  cases i with
  | zero => rfl
  | succ i =>
    show Mem.slot (fun _ => 0) _ 1 &&& 0xff = 0
    rw [Mem.slot_of_zero fun _ => rfl]
    rfl

end AbiEmu.Lcall7
