import AbiEmu.Limits.Rlimit

/-!
# Limits in blocks (`abi/svr4/ulimit.c`)

`svr4_ulimit` counts the size of a file in blocks of 512 bytes. Its check of the range
makes the shift exact, so the blocks that were set are the blocks that are read.
-/

namespace AbiEmu.Limits

def ERANGE : Int := 34
def U_GETFSIZE : Int := 1
def U_SETFSIZE : Int := 2
def U_GETMEMLIM : Int := 3
def U_GETMAXOPEN : Int := 4
def ULIM_MAX_BLOCKSIZE : Int := 0x7fffffff / 2 ^ 9

/-- What `U_SETFSIZE` returns and makes of the limit; the limit is unsigned, and so is the
comparison with it. -/
def setFsize (capable : Bool) (val : Word) (l : Rlimit) : Int × Rlimit :=
  if ULIM_MAX_BLOCKSIZE < val.toInt ∨ val.toInt < 0 then (-ERANGE, l)
  else if l.rlimMax < val <<< 9 then
    if capable then (0, ⟨val <<< 9, val <<< 9⟩) else (-EPERM, l)
  else (0, { l with rlimCur := val <<< 9 })

/-- `svr4_ulimit`; `capable` is the answer for `CAP_SYS_RESOURCE`. -/
def svr4Ulimit (capable : Bool) (cmd : Int) (val : Word) (rlim : Nat → Rlimit) :
    Int × (Nat → Rlimit) :=
  if cmd = U_GETFSIZE then (((rlim RLIMIT_FSIZE).rlimCur >>> 9).toInt, rlim)
  else if cmd = U_SETFSIZE then
    let r := setFsize capable val (rlim RLIMIT_FSIZE)
    (r.1, Function.update rlim RLIMIT_FSIZE r.2)
  else if cmd = U_GETMEMLIM then ((rlim RLIMIT_DATA).rlimCur.toInt, rlim)
  else if cmd = U_GETMAXOPEN then ((rlim RLIMIT_NOFILE).rlimCur.toInt, rlim)
  else (-EINVAL, rlim)

/-- The shift is exact for what passes the check. -/
theorem shift_blocks {val : Word} (h : ¬ (ULIM_MAX_BLOCKSIZE < val.toInt ∨ val.toInt < 0)) :
    (val <<< 9).toInt = val.toInt * 2 ^ 9 ∧ val <<< 9 >>> 9 = val := by
  have hmax : ¬ (4194303 < val.toInt ∨ val.toInt < 0) := h
  have hshift : (val <<< 9).toNat = val.toNat * 2 ^ 9 := by
    rw [BitVec.toInt_eq_toNat_cond] at hmax
    rw [BitVec.toNat_shiftLeft, Nat.shiftLeft_eq]
    omega
  rw [BitVec.toInt_eq_toNat_cond, hshift, ← BitVec.toNat_inj, BitVec.toNat_ushiftRight, hshift,
    Nat.shiftRight_eq_div_pow]
  rw [BitVec.toInt_eq_toNat_cond] at hmax ⊢
  omega

theorem setFsize_spec (capable : Bool) (val : Word) (l : Rlimit) :
    let r := setFsize capable val l
    (r.1 = 0 ∧ r.2.rlimCur >>> 9 = val ∨ r.1 ≠ 0 ∧ r.2 = l) ∧
    (r.1 = -ERANGE ∨ (val <<< 9).toInt = val.toInt * 2 ^ 9) ∧
    (capable = false → r.2.rlimMax ≤ l.rlimMax) ∧
    (l.rlimCur ≤ l.rlimMax → r.2.rlimCur ≤ r.2.rlimMax) := by
  unfold setFsize
  split_ifs with hrange hmore hcap
  · exact ⟨.inr ⟨(by decide : -ERANGE ≠ 0), rfl⟩, .inl rfl, fun _ => BitVec.le_refl _, id⟩
  all_goals obtain ⟨hexact, hback⟩ := shift_blocks hrange
  · exact ⟨.inl ⟨rfl, hback⟩, .inr hexact, fun h => absurd hcap (h ▸ nofun),
      fun _ => BitVec.le_refl _⟩
  · exact ⟨.inr ⟨(by decide : -EPERM ≠ 0), rfl⟩, .inr hexact, fun _ => BitVec.le_refl _, id⟩
  · exact ⟨.inl ⟨rfl, hback⟩, .inr hexact, fun _ => BitVec.le_refl _,
      fun _ => BitVec.not_lt.mp hmore⟩

theorem setFsize_zero_iff (capable : Bool) (val : Word) (l : Rlimit) :
    (setFsize capable val l).1 = 0 ↔ (0 ≤ val.toInt ∧ val.toInt ≤ ULIM_MAX_BLOCKSIZE) ∧
      (capable = true ∨ val <<< 9 ≤ l.rlimMax) := by
  unfold setFsize
  split_ifs with hrange hmore hcap
  · exact iff_of_false (by decide : -ERANGE ≠ 0) fun h => by omega
  · exact iff_of_true rfl ⟨by omega, .inl hcap⟩
  · refine iff_of_false (by decide : -EPERM ≠ 0) fun h => ?_
    exact h.2.elim (absurd · hcap) fun hle => absurd hmore (BitVec.not_lt.mpr hle)
  · exact iff_of_true rfl ⟨by omega, .inr (BitVec.not_lt.mp hmore)⟩

/-- A number of blocks is set if it is in range and allowed. What was set is what is read,
the shift is exact, only a privileged task raises the hard limit, the soft one stays below
it, and no other limit changes. -/
theorem ulimit_in_blocks (capable : Bool) (cmd : Int) (val arg : Word) (rlim : Nat → Rlimit) :
    let r := svr4Ulimit capable cmd val rlim
    let fsize (l : Nat → Rlimit) := (svr4Ulimit capable U_GETFSIZE arg l).1
    (cmd = U_SETFSIZE →
      (r.1 = 0 ↔ (0 ≤ val.toInt ∧ val.toInt ≤ ULIM_MAX_BLOCKSIZE) ∧
        (capable = true ∨ val <<< 9 ≤ (rlim RLIMIT_FSIZE).rlimMax)) ∧
      fsize r.2 = (if r.1 = 0 then val.toInt else fsize rlim) ∧
      (r.1 = -ERANGE ∨ (val <<< 9).toInt = val.toInt * 2 ^ 9)) ∧
    (capable = false → (r.2 RLIMIT_FSIZE).rlimMax ≤ (rlim RLIMIT_FSIZE).rlimMax) ∧
    ((rlim RLIMIT_FSIZE).rlimCur ≤ (rlim RLIMIT_FSIZE).rlimMax →
      (r.2 RLIMIT_FSIZE).rlimCur ≤ (r.2 RLIMIT_FSIZE).rlimMax) ∧
    ∀ i, i ≠ RLIMIT_FSIZE → r.2 i = rlim i := by
  intro r fsize
  by_cases hset : cmd = U_SETFSIZE
  · have hr : r = ((setFsize capable val (rlim RLIMIT_FSIZE)).1,
        Function.update rlim RLIMIT_FSIZE (setFsize capable val (rlim RLIMIT_FSIZE)).2) := by
      unfold r
      rw [hset]
      rfl
    have hread : ∀ l, fsize l = ((l RLIMIT_FSIZE).rlimCur >>> 9).toInt := fun _ => rfl
    obtain ⟨hcur, hshift, hmax, hle⟩ := setFsize_spec capable val (rlim RLIMIT_FSIZE)
    rw [hr, hread, hread]
    dsimp only
    rw [Function.update_self]
    refine ⟨fun _ => ⟨setFsize_zero_iff .., ?_, hshift⟩, hmax, hle,
      fun i hi => Function.update_of_ne hi ..⟩
    rcases hcur with ⟨hzero, hcur⟩ | ⟨herr, hcur⟩
    · rw [if_pos hzero, hcur]
    · rw [if_neg herr, hcur]
  · have hr : r.2 = rlim := by
      unfold r svr4Ulimit
      split_ifs <;> rfl
    rw [hr]
    exact ⟨fun h => absurd h hset, fun _ => BitVec.le_refl _, id, fun _ _ => rfl⟩

end AbiEmu.Limits
