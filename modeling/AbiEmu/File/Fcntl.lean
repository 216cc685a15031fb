import AbiEmu.Lib.Bits
import AbiEmu.Util.Map
import Mathlib.Tactic.IntervalCases

/-!
# File status flags (`abi/svr4/fcntl.c`)

`F_SETFL` and `F_GETFL` translate the flag word by two tables of sixteen entries. `F_GETFL`
translates whatever `sys_fcntl` returns, cut down to sixteen bits, and so an error too.
-/

namespace AbiEmu.Fcntl

open BitVec

/-- `map_flags`: the entries of `map` for the bits of `f`. -/
def mapFlags (f : BitVec 16) (map : List (BitVec 16)) : BitVec 16 :=
  (List.range 16).foldl (fun r i => if f.getLsbD i then r ||| map.getD i 0 else r) 0

/-- `fl_svr4_to_linux`. -/
def flSvr4ToLinux : List (BitVec 16) :=
  [0x0001, 0x0002, 0x0800, 0x0400, 0x1000, 0x0000, 0x0000, 0x0800,
    0x0040, 0x0240, 0x0080, 0x0100, 0x0000, 0x0000, 0x0000, 0x0000]

/-- `fl_linux_to_svr4`. -/
def flLinuxToSvr4 : List (BitVec 16) :=
  [0x0001, 0x0002, 0x0000, 0x0000, 0x0000, 0x0000, 0x0100, 0x0400,
    0x0800, 0x0200, 0x0008, 0x0004, 0x0010, 0x0000, 0x0000, 0x0000]

/-- A word of flags translated by `map`. -/
def translate (map : List (BitVec 16)) (f : Word) : Word :=
  (mapFlags (f.setWidth 16) map).setWidth 32

/-- The kernel's side of a descriptor. -/
structure Kernel where
  /-- The error of every call, as for a descriptor that is not open. -/
  error : Option Word
  negative : ∀ e ∈ error, e.toInt < 0
  /-- The error of `F_SETFL` for a flag word, as for an append-only file. -/
  refuses : Word → Option Word
  /-- The flags that `F_SETFL` changes; the access mode is not among them. -/
  mask : Word
  access : mask &&& 3 = 0
  /-- The other commands of `sys_fcntl`. -/
  fcntl : Word → Word → Word
  /-- `svr4_fcntl_flock`. -/
  flock : Word → Word → Word
  ftruncate : Word → Word
  /-- `FIONREAD`, with its result and the number of bytes. -/
  fionread : Word × Word

variable (k : Kernel)

/-- `sys_fcntl` on a file with `flags`: the result and the flags it leaves. -/
def Kernel.sysFcntl (cmd arg flags : Word) : Word × Word :=
  match k.error with
  | some e => (e, flags)
  | none =>
    if cmd = 3 then (flags, flags)
    else if cmd = 4 then
      match k.refuses arg with
      | some e => (e, flags)
      | none => (0, arg &&& k.mask ||| flags &&& ~~~k.mask)
    else (k.fcntl cmd arg, flags)

/-- `svr4_fcntl`. -/
def svr4Fcntl (cmd arg flags : Word) : Word × Word :=
  if cmd = 0 ∨ cmd = 1 ∨ cmd = 2 then k.sysFcntl cmd arg flags
  else if cmd = 3 then
    let rval := k.sysFcntl cmd arg flags
    (translate flLinuxToSvr4 rval.1, rval.2)
  else if cmd = 4 then k.sysFcntl cmd (translate flSvr4ToLinux arg) flags
  else if cmd = 5 ∨ cmd = 6 ∨ cmd = 7 then (k.flock cmd arg, flags)
  else if cmd = 14 then (k.flock 5 arg, flags)
  else if cmd = 10 ∨ cmd = 11 then (0, flags)
  else if cmd = 0x6000 then (k.ftruncate arg, flags)
  else if cmd = 0x6001 then
    (if k.fionread.1.toInt < 0 then k.fionread.1 else if k.fionread.2 ≠ 0 then 1 else 0, flags)
  else (-22, flags)

/-- `F_GETFL` passes an error on; without one, a word that `F_SETFL` accepted is reported
as flags of the same meaning beside the access mode. -/
structure GetflRight (arg f flags : Word) : Prop where
  error : ∀ e ∈ k.error, (svr4Fcntl k 3 arg flags).1 = e
  flags : k.error = none → k.refuses (translate flSvr4ToLinux f) = none →
    let r := (svr4Fcntl k 3 arg (svr4Fcntl k 4 f flags).2).1
    r &&& 3 = flags &&& 3 ∧ translate flSvr4ToLinux (r &&& ~~~3) = translate flSvr4ToLinux f

/-! ## Bits of a translated word -/

/-- The bits that `map` translates to bit `j`. -/
def sources (map : List (BitVec 16)) (j : Nat) : List Nat :=
  (List.range 16).filter fun i => (map.getD i 0).getLsbD j

theorem getLsbD_mapFlags (f : BitVec 16) (map : List (BitVec 16)) (j : Nat) :
    (mapFlags f map).getLsbD j = (sources map j).any f.getLsbD := by
  rw [mapFlags, Bits.getLsbD_foldl_or, sources, List.any_filter]
  simp [Bool.and_comm]

theorem getElem_translate (map : List (BitVec 16)) (f : Word) {j : Nat} (hj : j < 32) :
    (translate map f)[j] = (sources map j).any f.getLsbD := by
  rw [← getLsbD_eq_getElem, translate, getLsbD_setWidth, getLsbD_mapFlags, decide_eq_true hj,
    Bool.true_and, Bool.eq_iff_iff]
  simp only [List.any_eq_true, sources, List.mem_filter, List.mem_range, getLsbD_setWidth]
  grind

theorem sources_svr4 : ∀ j < 32, sources flSvr4ToLinux j = [[0], [1], [], [], [], [], [8, 9], [10],
    [11], [9], [3], [2, 7], [4]].getD j [] := by
  decide

theorem sources_linux : ∀ j < 32, sources flLinuxToSvr4 j = [[0], [1], [11], [10], [12], [], [], [],
    [6], [9], [7], [8]].getD j [] := by
  decide

/-- Of a file's flags `F_GETFL` reports seven beside the access mode; that of `O_TRUNC`
comes back with `O_CREAT`. -/
theorem getElem_back (flags : Word) {j : Nat} (hj : j < 32) :
    (translate flSvr4ToLinux (translate flLinuxToSvr4 flags &&& ~~~3))[j] =
      ((flags &&& 0x1fc0)[j] || (decide (j = 6) && flags[9])) := by
  rw [getElem_translate _ _ hj, sources_svr4 j hj]
  interval_cases j <;> simp [getElem_translate, sources_linux]

variable {f flags a : Word}

/-- The word comes back as `a` where the kernel's flags are those of `a`. -/
theorem back_eq_iff (ha : a &&& 0x1c00 = a) :
    translate flSvr4ToLinux (translate flLinuxToSvr4 flags &&& ~~~3) = a ↔
      flags &&& 0x1fc0 = a := by
  have ha9 : a[9] = false := by
    rw [← ha]
    simp
  have hback : flags[9] = false →
      translate flSvr4ToLinux (translate flLinuxToSvr4 flags &&& ~~~3) = flags &&& 0x1fc0 := by
    intro h9
    ext j hj
    rw [getElem_back, h9, Bool.and_false, Bool.or_false]
  constructor <;> intro h
  · have h9 : flags[9] = false := by
      have hbit := getElem_back flags (j := 9) (by decide)
      rw [h, ha9] at hbit
      simpa using hbit.symm
    rw [← hback h9, h]
  · have h9 : flags[9] = false := by
      rw [← h] at ha9
      simpa using ha9
    rw [hback h9, h]

/-- The image of a word that `F_SETFL` can set has the three status flags only. -/
theorem translate_status (hf : f &&& ~~~0x9c = 0) :
    translate flSvr4ToLinux f &&& 0x1c00 = translate flSvr4ToLinux f := by
  rw [← Bits.and_eq_self_iff.mpr hf]
  ext j hj
  interval_cases j <;> simp [getElem_translate, sources_svr4]

/-- After `F_SETFL` the flags are the given ones if the file's agree where it does not
set them. -/
theorem set_eq_iff (mask : Word) (ha : a &&& 0x1c00 = a) :
    (a &&& mask ||| flags &&& ~~~mask) &&& 0x1fc0 = a ↔
      flags &&& 0x1fc0 &&& ~~~mask = a &&& ~~~mask := by
  have hwide : a &&& 0x1fc0 = a := by
    rw [← ha, BitVec.and_assoc]
    rfl
  constructor <;> intro h <;> ext j hj <;> have hbit := congrArg (getLsbD · j) h <;>
    have hw := congrArg (getLsbD · j) hwide <;> simp [getLsbD_eq_getElem hj] at hbit hw ⊢ <;> grind

theorem translate_access (flags : Word) : translate flLinuxToSvr4 flags &&& 3 = flags &&& 3 := by
  ext j hj
  interval_cases j <;> simp [getElem_translate, sources_linux]

/-- A reported word is no error. -/
theorem translate_toInt (map : List (BitVec 16)) (f : Word) : 0 ≤ (translate map f).toInt := by
  rw [translate, toInt_eq_toNat_of_lt (by rw [toNat_setWidth]; omega)]
  exact Int.natCast_nonneg _

/-- `F_GETFL` is right where the kernel has no error, and the file's flags are those of `f`
outside the ones that `F_SETFL` sets. -/
theorem getfl_right_iff (k : Kernel) (arg flags : Word) (hf : f &&& ~~~0x9c = 0) :
    GetflRight k arg f flags ↔ k.error = none ∧
      (k.refuses (translate flSvr4ToLinux f) = none →
        flags &&& 0x1fc0 &&& ~~~k.mask = translate flSvr4ToLinux f &&& ~~~k.mask) := by
  have ha := translate_status hf
  have hget : ∀ flags, (svr4Fcntl k 3 arg flags).1 =
      translate flLinuxToSvr4 (k.sysFcntl 3 arg flags).1 := fun _ => rfl
  have hset : (svr4Fcntl k 4 f flags).2 =
      (k.sysFcntl 4 (translate flSvr4ToLinux f) flags).2 := rfl
  cases herror : k.error with
  | some e =>
    -- the error comes back as a word of flags
    refine iff_of_false (fun h => ?_) (by simp)
    have hsame := h.error e herror
    have hneg := k.negative e herror
    rw [← hsame, hget] at hneg
    exact absurd hneg (Int.not_lt.mpr (translate_toInt _ _))
  | none =>
    have hright : GetflRight k arg f flags ↔
        (k.refuses (translate flSvr4ToLinux f) = none →
          let r := (svr4Fcntl k 3 arg (svr4Fcntl k 4 f flags).2).1
          r &&& 3 = flags &&& 3 ∧
            translate flSvr4ToLinux (r &&& ~~~3) = translate flSvr4ToLinux f) :=
      ⟨fun h => h.flags herror, fun h => ⟨by simp [herror], fun _ => h⟩⟩
    rw [hright, and_iff_right rfl]
    refine imp_congr_right fun haccepts => ?_
    rw [hget, hset]
    simp only [Kernel.sysFcntl, herror, haccepts]
    have haccess : (translate flSvr4ToLinux f &&& k.mask ||| flags &&& ~~~k.mask) &&& 3 =
        flags &&& 3 := by
      ext j hj
      have hbit := congrArg (getLsbD · j) k.access
      grind
    rw [← set_eq_iff _ ha, ← back_eq_iff ha]
    exact and_iff_right ((translate_access _).trans haccess)

/-- A kernel that only knows the flags. -/
def plain (error : Option Word) (negative : ∀ e ∈ error, e.toInt < 0) : Kernel :=
  ⟨error, negative, fun _ => none, 0x6c00, by decide, fun _ _ => 0, fun _ _ => 0, fun _ => 0, 0, 0⟩

theorem getfl_right_append :
    (0x08 : Word) &&& ~~~0x9c = 0 ∧ GetflRight (plain none (by simp)) 0 0x08 0x8002 :=
  ⟨by decide, (getfl_right_iff _ 0 0x8002 (by decide)).mpr ⟨rfl, fun _ => by decide⟩⟩

theorem ebadf_neg : ∀ e ∈ some (-9#32), e.toInt < 0 := by simp

/-- A descriptor that is not open has flags to report instead of an error. -/
theorem getfl_of_closed : let k := plain (some (-9)) ebadf_neg
    (svr4Fcntl k 3 0 0).1 = 0xf1f ∧ ¬ GetflRight k 0 0 0 := by
  intro k
  have hget : (svr4Fcntl k 3 0 0).1 = 0xf1f := by decide +kernel
  refine ⟨hget, fun h => ?_⟩
  exact absurd (hget.symm.trans (h.error (-9#32) rfl)) (by decide)

end AbiEmu.Fcntl
