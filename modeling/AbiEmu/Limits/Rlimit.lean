import Mathlib.Logic.Function.Basic
import AbiEmu.Lcall7.Dispatch
import AbiEmu.Lib.User

/-!
# Resource limits (`abi/svr4/ulimit.c`, `abi/uw7/lfs.c`)

A program sets the limits of a resource with one call and reads them with another.
The resource numbers of System V are not those of Linux, so both calls translate
them, and the program relies on both doing it the same way: `ReadsBack` says that the
pair that was set is the pair that is read, through one Linux limit, with every other
limit left alone.

Neither pair of calls keeps this.

* The tables bind `svr4_getrlimit` to the number of `setrlimit` and `svr4_setrlimit`
  to that of `getrlimit`; and both functions end in `sys_getrlimit`. A program that
  sets limits gets its structure overwritten with the limits in force.
* `uw7_setrlimit64` uses the resource number as it is and `uw7_getrlimit64` looks it
  up in a table without an entry for the file size, so that from there on the two
  disagree. The bound of both checks lets the length of the table through as an
  index, one past its end.
-/

namespace AbiEmu.Limits

open Option

open Lcall7 (Personality Handler Sysent)

def EFAULT : Int := 14
def EPERM : Int := 1
def EINVAL : Int := 22

def RLIMIT_CPU : Nat := 0
def RLIMIT_FSIZE : Nat := 1
def RLIMIT_DATA : Nat := 2
def RLIMIT_STACK : Nat := 3
def RLIMIT_CORE : Nat := 4
def RLIMIT_NOFILE : Nat := 7
def RLIMIT_AS : Nat := 9
def RLIM_NLIMITS : Nat := 13
def RLIM_INFINITY : Word := 0xffffffff
def NR_OPEN : Nat := 1024 * 1024

/-- `struct rlimit`. -/
structure Rlimit where
  rlimCur : Word
  rlimMax : Word
  deriving DecidableEq, Repr

/-- `struct uw7_rlim64`. -/
structure Uw7Rlim64 where
  rlimCur : BitVec 64
  rlimMax : BitVec 64
  deriving DecidableEq, Repr

/-- `current->signal->rlim` and the caller's memory. -/
structure Proc where
  rlim : Nat → Rlimit
  mem : Mem

/-- A call that read outside `uw7_to_linux_rlimit`. -/
inductive Stop where
  | outside
  deriving DecidableEq, Repr

/-! ## The SVR4 calls -/

/-- The switch over `U_RLIMIT_*`. -/
def svr4Resource (cmd : Word) : Option Nat :=
  if cmd = 0 then some RLIMIT_CPU
  else if cmd = 1 then some RLIMIT_FSIZE
  else if cmd = 2 then some RLIMIT_DATA
  else if cmd = 3 then some RLIMIT_STACK
  else if cmd = 4 then some RLIMIT_CORE
  else if cmd = 5 then some RLIMIT_NOFILE
  else if cmd = 6 then some RLIMIT_AS
  else none

/-- `sys_getrlimit`. -/
def sysGetrlimit (pg : Pages) (resource : Nat) (rlim : Word) (s : Proc) : Int × Proc :=
  if RLIM_NLIMITS ≤ resource then (-EINVAL, s)
  else
    match pg.copyToUser rlim [(s.rlim resource).rlimCur, (s.rlim resource).rlimMax] s.mem with
    | none => (-EFAULT, s)
    | some m => (0, { s with mem := m })

/-- `svr4_getrlimit`. -/
def svr4Getrlimit (pg : Pages) (cmd val : Word) (s : Proc) : Int × Proc :=
  match svr4Resource cmd with
  | none => (-EINVAL, s)
  | some resource => sysGetrlimit pg resource val s

/-- `svr4_setrlimit`, which ends in `sys_getrlimit` as well. -/
def svr4Setrlimit (pg : Pages) (cmd val : Word) (s : Proc) : Int × Proc :=
  match svr4Resource cmd with
  | none => (-EINVAL, s)
  | some resource => sysGetrlimit pg resource val s

/-! ## The UnixWare 7 calls -/

/-- `uw7_to_linux_rlimit`. -/
def uw7ToLinuxRlimit : List Nat :=
  [RLIMIT_CPU, RLIMIT_DATA, RLIMIT_STACK, RLIMIT_CORE, RLIMIT_NOFILE, RLIMIT_AS]

/-- `uw7_rlim64_to_user`. -/
def uw7Rlim64ToUser (pg : Pages) (resource : Nat) (rlimp : Word) (s : Proc) : Int × Proc :=
  match pg.copyToUser rlimp [(s.rlim resource).rlimCur, 0, (s.rlim resource).rlimMax, 0] s.mem with
  | none => (-EFAULT, s)
  | some m => (0, { s with mem := m })

/-- `uw7_getrlimit64`. The array size is unsigned, and so is the comparison. -/
def uw7Getrlimit64 (pg : Pages) (resource rlimp : Word) (s : Proc) :
    Except Stop (Int × Proc) :=
  if uw7ToLinuxRlimit.length < resource.toNat then .ok (-EINVAL, s)
  else
    match uw7ToLinuxRlimit[resource.toNat]? with
    | none => .error .outside
    | some lx => .ok (uw7Rlim64ToUser pg lx rlimp s)

/-- `uw7_check_rlimit64`; the caller only asks whether it is zero. -/
def uw7CheckRlimit64 (capable : Bool) (resource : Word) (rlimp : Uw7Rlim64) (lxrlimp : Rlimit) :
    Int :=
  if RLIM_INFINITY.toNat < rlimp.rlimCur.toNat ∨ RLIM_INFINITY.toNat < rlimp.rlimMax.toNat then
    -EPERM
  else if (lxrlimp.rlimMax.toNat < rlimp.rlimCur.toNat ∨
      lxrlimp.rlimMax.toNat < rlimp.rlimMax.toNat) ∧ capable = false then -EPERM
  else if resource.toNat = RLIMIT_NOFILE ∧
      (NR_OPEN < rlimp.rlimCur.toNat ∨ NR_OPEN < rlimp.rlimMax.toNat) then -EPERM
  else 0

/-- The structure a `copy_from_user` of four words fetches. -/
def rlim64Of (ws : List Word) : Uw7Rlim64 :=
  ⟨ws.getD 1 0 ++ ws.getD 0 0, ws.getD 3 0 ++ ws.getD 2 0⟩

/-- `uw7_setrlimit64`. -/
def uw7Setrlimit64 (pg : Pages) (capable : Bool) (resource rlimp : Word) (s : Proc) :
    Int × Proc :=
  if uw7ToLinuxRlimit.length < resource.toNat then (-EINVAL, s)
  else
    match pg.copyFromUser rlimp 4 s.mem with
    | none => (-EFAULT, s)
    | some ws =>
      let rlim := rlim64Of ws
      if uw7CheckRlimit64 capable resource rlim (s.rlim resource.toNat) ≠ 0 then (-EPERM, s)
      else
        let lxrlim : Rlimit := ⟨rlim.rlimCur.setWidth 32, rlim.rlimMax.setWidth 32⟩
        (0, { s with rlim := Function.update s.rlim resource.toNat lxrlim })

/-! ## What the tables bind -/

/-- The function behind a number of a table. -/
def entry (p : Personality) (sysno : Nat) : Option Handler :=
  p.table[sysno]?.bind Sysent.seSyscall

/-- The function bound to the call named `setrlimit`; `wyse` has no such call. -/
def setrlimit : Personality → Option Handler
  | .wyse => none
  | p => entry p 128

/-- The function bound to the call named `getrlimit`. -/
def getrlimit : Personality → Option Handler
  | .wyse => none
  | p => entry p 129

/-- The function bound to the call named `setrlimit64`. -/
def setrlimit64 : Personality → Option Handler
  | .uw7 => entry .uw7 221
  | .solaris => entry .solaris 220
  | _ => none

/-- The function bound to the call named `getrlimit64`. -/
def getrlimit64 : Personality → Option Handler
  | .uw7 => entry .uw7 220
  | .solaris => entry .solaris 221
  | _ => none

/-- The limit calls among the handlers. -/
def limitCall (pg : Pages) (capable : Bool) (h : Handler) (resource ptr : Word) (s : Proc) :
    Option (Except Stop (Int × Proc)) :=
  match h with
  | .svr4Getrlimit => some (.ok (svr4Getrlimit pg resource ptr s))
  | .svr4Setrlimit => some (.ok (svr4Setrlimit pg resource ptr s))
  | .uw7Getrlimit64 => some (uw7Getrlimit64 pg resource ptr s)
  | .uw7Setrlimit64 => some (.ok (uw7Setrlimit64 pg capable resource ptr s))
  | _ => none

/-- The Linux limit a call addresses with a resource number. -/
def linuxLimit (h : Handler) (resource : Word) : Option Nat :=
  match h with
  | .svr4Getrlimit | .svr4Setrlimit => svr4Resource resource
  | .uw7Getrlimit64 => uw7ToLinuxRlimit[resource.toNat]?
  | .uw7Setrlimit64 =>
    if resource.toNat ≤ uw7ToLinuxRlimit.length then some resource.toNat else none
  | _ => none

variable {set get : Handler} {p : Personality}

/-- Every table that has the two calls binds each to the function of the other. -/
theorem rlimit_crossed (hset : setrlimit p = some set) (hget : getrlimit p = some get) :
    set = .svr4Getrlimit ∧ get = .svr4Setrlimit := by
  have hp : p = .wyse ∨
      (setrlimit p = some .svr4Getrlimit ∧ getrlimit p = some .svr4Setrlimit) := by
    cases p <;> decide +kernel
  rcases hp with rfl | ⟨h1, h2⟩
  · cases hset
  · exact ⟨some.inj (hset.symm.trans h1), some.inj (hget.symm.trans h2)⟩

/-- Only UnixWare binds the 64-bit calls. -/
theorem rlimit64_bound (hset : setrlimit64 p = some set) (hget : getrlimit64 p = some get) :
    set = .uw7Setrlimit64 ∧ get = .uw7Getrlimit64 := by
  have hp : setrlimit64 p = none ∨
      (setrlimit64 p = some .uw7Setrlimit64 ∧ getrlimit64 p = some .uw7Getrlimit64) := by
    cases p <;> decide +kernel
  rcases hp with hnone | ⟨h1, h2⟩
  · rw [hnone] at hset
    cases hset
  · exact ⟨some.inj (hset.symm.trans h1), some.inj (hget.symm.trans h2)⟩

/-! ## What setting promises -/

/-- The limits in a `struct rlimit` at `a`, current and maximal. -/
def pair32 (m : Mem) (a : Word) : Nat × Nat := ((m.slot a 0).toNat, (m.slot a 1).toNat)

/-- The limits in a `struct uw7_rlim64` at `a`. -/
def pair64 (m : Mem) (a : Word) : Nat × Nat :=
  ((m.slot a 1 ++ m.slot a 0).toNat, (m.slot a 3 ++ m.slot a 2).toNat)

def Rlimit.pair (r : Rlimit) : Nat × Nat := (r.rlimCur.toNat, r.rlimMax.toNat)

/-- The process `s` set the limits at `ptr` and is now `t`. Reading them to `ptr'`
gives the same pair; both calls address one Linux limit, whose current value is within
its maximum; every other limit is as before. -/
structure ReadsBack (pg : Pages) (capable : Bool) (set get : Handler)
    (pairAt : Mem → Word → Nat × Nat) (resource ptr ptr' : Word) (s t : Proc) : Prop where
  reads : ∃ u, limitCall pg capable get resource ptr' t = some (.ok (0, u)) ∧
    u.rlim = t.rlim ∧ pairAt u.mem ptr' = pairAt s.mem ptr
  same : ∃ k, linuxLimit set resource = some k ∧ linuxLimit get resource = some k ∧
    (t.rlim k).rlimCur.toNat ≤ (t.rlim k).rlimMax.toNat ∧ ∀ j, j ≠ k → t.rlim j = s.rlim j

section Svr4

variable {pg : Pages} {cmd val : Word} {s t : Proc}

/-- Every limit System V has is one Linux has. -/
theorem svr4Resource_lt {k : Nat} (h : svr4Resource cmd = some k) : k < RLIM_NLIMITS := by
  unfold svr4Resource at h
  split_ifs at h <;> (obtain rfl := some.inj h; decide)

variable {a : Word} {pg : Pages} {m m' : Mem}

theorem pair32_copy {r : Rlimit} (h : pg.copyToUser a [r.rlimCur, r.rlimMax] m = some m') :
    pair32 m' a = r.pair := by
  unfold Pages.copyToUser at h
  split_ifs at h
  obtain rfl := some.inj h
  rw [pair32, Mem.slot_store_words m a (by omega) rfl, Mem.slot_store_words m a (by omega) rfl]
  rfl

theorem copyToUser_of_canWrite (m : Mem) (ws : List Word)
    (h : pg.canWrite a (4 * ws.length) = true) :
    ∃ m', pg.copyToUser a ws m = some m' :=
  ⟨_, if_pos h⟩

variable {resource : Nat}

/-- The common part of both functions that succeeds: nothing is set. -/
theorem sysGetrlimit_ok (h : sysGetrlimit pg resource val s = (0, t)) :
    t.rlim = s.rlim ∧ pair32 t.mem val = (s.rlim resource).pair := by
  unfold sysGetrlimit at h
  split_ifs at h
  · cases h
  · cases hcopy :
        pg.copyToUser val [(s.rlim resource).rlimCur, (s.rlim resource).rlimMax] s.mem with
    | none =>
      rw [hcopy] at h
      cases h
    | some m =>
      rw [hcopy] at h
      cases h
      exact ⟨rfl, pair32_copy hcopy⟩

theorem sysGetrlimit_of_canWrite (hr : resource < RLIM_NLIMITS) (hval : pg.canWrite val 8 = true) :
    ∃ t, sysGetrlimit pg resource val s = (0, t) := by
  obtain ⟨m, hm⟩ := copyToUser_of_canWrite s.mem
    [(s.rlim resource).rlimCur, (s.rlim resource).rlimMax] hval
  refine ⟨{ s with mem := m }, ?_⟩
  rw [sysGetrlimit, if_neg (Nat.not_le.mpr hr), hm]

/-- The SVR4 calls promise nothing: what is read is what was in force. -/
theorem svr4_readsBack_iff {capable : Bool} {val' : Word}
    (hset : svr4Getrlimit pg cmd val s = (0, t))
    (hle : (pair32 s.mem val).1 ≤ (pair32 s.mem val).2) (hval' : pg.canWrite val' 8 = true) :
    ReadsBack pg capable .svr4Getrlimit .svr4Setrlimit pair32 cmd val val' s t ↔
      ∃ k, svr4Resource cmd = some k ∧ (s.rlim k).pair = pair32 s.mem val := by
  unfold svr4Getrlimit at hset
  cases hk : svr4Resource cmd with
  | none =>
    rw [hk] at hset
    cases hset
  | some k =>
    rw [hk] at hset
    obtain ⟨hrlim, -⟩ := sysGetrlimit_ok hset
    obtain ⟨u, hu⟩ := sysGetrlimit_of_canWrite (svr4Resource_lt hk) hval'
    obtain ⟨hurlim, hupair⟩ := sysGetrlimit_ok hu
    have hget : limitCall pg capable .svr4Setrlimit cmd val' t = some (.ok (0, u)) := by
      rw [limitCall, svr4Setrlimit, hk]
      exact congrArg (fun x => some (Except.ok x)) hu
    rw [hrlim] at hupair
    constructor
    · intro h
      obtain ⟨u', hu', -, hpair⟩ := h.reads
      rw [hget] at hu'
      cases hu'
      exact ⟨k, rfl, hupair.symm.trans hpair⟩
    · rintro ⟨k', hk', hpair⟩
      obtain rfl := some.inj hk'
      refine ⟨⟨u, hget, hurlim, hupair.trans hpair⟩, k, hk, hk, ?_, fun j _ => by rw [hrlim]⟩
      rw [hrlim]
      rw [← hpair] at hle
      exact hle

end Svr4

section Uw7

variable {pg : Pages} {capable : Bool} {resource rlimp : Word} {s t : Proc}

theorem uw7CheckRlimit64_zero {rlim : Uw7Rlim64} {lxrlim : Rlimit}
    (h : uw7CheckRlimit64 capable resource rlim lxrlim = 0) :
    rlim.rlimCur.toNat < 2 ^ 32 ∧ rlim.rlimMax.toNat < 2 ^ 32 := by
  unfold uw7CheckRlimit64 at h
  by_cases hinf : RLIM_INFINITY.toNat < rlim.rlimCur.toNat ∨
      RLIM_INFINITY.toNat < rlim.rlimMax.toNat
  · rw [if_pos hinf] at h
    cases h
  · omega

/-- A set call that is accepted stores the pair in the limit of the same number. -/
theorem uw7Setrlimit64_ok (h : uw7Setrlimit64 pg capable resource rlimp s = (0, t)) :
    resource.toNat ≤ uw7ToLinuxRlimit.length ∧
      (t.rlim resource.toNat).pair = pair64 s.mem rlimp ∧
      ∀ j, j ≠ resource.toNat → t.rlim j = s.rlim j := by
  unfold uw7Setrlimit64 at h
  split_ifs at h with hr
  · cases h
  split at h
  · cases h
  next ws hcopy =>
    dsimp only at h
    by_cases hcheck : uw7CheckRlimit64 capable resource (rlim64Of ws) (s.rlim resource.toNat) = 0
    · rw [if_neg (not_not.mpr hcheck)] at h
      cases h
      obtain ⟨hcur, hmax⟩ := uw7CheckRlimit64_zero hcheck
      unfold Pages.copyFromUser at hcopy
      split_ifs at hcopy
      obtain rfl := some.inj hcopy
      refine ⟨Nat.not_lt.mp hr, ?_, fun j hj => Function.update_of_ne hj ..⟩
      dsimp only
      rw [Function.update_self, Rlimit.pair, BitVec.toNat_setWidth, BitVec.toNat_setWidth,
        Nat.mod_eq_of_lt hcur, Nat.mod_eq_of_lt hmax]
      rfl
    · rw [if_pos hcheck] at h
      cases h

theorem pair64_copy {r : Rlimit} (h : pg.copyToUser a [r.rlimCur, 0, r.rlimMax, 0] m = some m') :
    pair64 m' a = r.pair := by
  unfold Pages.copyToUser at h
  split_ifs at h
  obtain rfl := some.inj h
  have hzero : ∀ w : Word, ((0 : Word) ++ w).toNat = w.toNat := by
    intro w
    rw [BitVec.toNat_append]
    simp
  rw [pair64, Mem.slot_store_words m a (by omega) rfl, Mem.slot_store_words m a (by omega) rfl,
    Mem.slot_store_words m a (by omega) rfl, Mem.slot_store_words m a (by omega) rfl, hzero, hzero]
  rfl

/-- The table agrees with the numbers it translates at its first entry only. -/
theorem uw7_same_limit_iff (h : resource.toNat ≤ uw7ToLinuxRlimit.length) :
    (∃ k, linuxLimit .uw7Setrlimit64 resource = some k ∧
      linuxLimit .uw7Getrlimit64 resource = some k) ↔ resource = 0 := by
  have hset : linuxLimit .uw7Setrlimit64 resource = some resource.toNat := if_pos h
  have hget : linuxLimit .uw7Getrlimit64 resource = uw7ToLinuxRlimit[resource.toNat]? := rfl
  have htable : ∀ n ≤ uw7ToLinuxRlimit.length, uw7ToLinuxRlimit[n]? = some n ↔ n = 0 := by
    decide
  have hzero : resource = 0 ↔ resource.toNat = 0 := BitVec.toNat_inj.symm
  rw [hset, hget, hzero, ← htable _ h]
  constructor
  · rintro ⟨k, hk, hk'⟩
    rw [hk', ← hk]
  · intro hk
    exact ⟨_, rfl, hk⟩

/-- The 64-bit calls keep the promise for the processor time only. -/
theorem uw7_readsBack_iff {rlimp' : Word}
    (hset : uw7Setrlimit64 pg capable resource rlimp s = (0, t))
    (hle : (pair64 s.mem rlimp).1 ≤ (pair64 s.mem rlimp).2)
    (hwrite : pg.canWrite rlimp' 16 = true) :
    ReadsBack pg capable .uw7Setrlimit64 .uw7Getrlimit64 pair64 resource rlimp rlimp' s t ↔
      resource = 0 := by
  obtain ⟨hr, hpair, hframe⟩ := uw7Setrlimit64_ok hset
  constructor
  · intro h
    obtain ⟨k, hk, hk', -, -⟩ := h.same
    exact (uw7_same_limit_iff hr).mp ⟨k, hk, hk'⟩
  · rintro rfl
    obtain ⟨m, hm⟩ := copyToUser_of_canWrite t.mem
      [(t.rlim 0).rlimCur, 0, (t.rlim 0).rlimMax, 0] hwrite
    refine ⟨⟨{ t with mem := m }, ?_, rfl, (pair64_copy hm).trans hpair⟩,
      RLIMIT_CPU, rfl, rfl, ?_, hframe⟩
    · have huser : uw7Rlim64ToUser pg 0 rlimp' t = (0, { t with mem := m }) := by
        rw [uw7Rlim64ToUser, hm]
      exact congrArg (fun x => some (Except.ok x)) huser
    · rw [← hpair] at hle
      exact hle

end Uw7

/-- **Limits set are limits read, only by accident.** With any table, a `setrlimit` that
was accepted is read back by `getrlimit` exactly if those limits were in force before; a
`setrlimit64` is read back by `getrlimit64` exactly for resource 0. -/
theorem limits_read_back_iff (pg : Pages) (capable : Bool) (p : Personality) (set get : Handler)
    (resource ptr ptr' : Word) (s t : Proc)
    (haccept : limitCall pg capable set resource ptr s = some (.ok (0, t))) :
    (setrlimit p = some set → getrlimit p = some get →
      (pair32 s.mem ptr).1 ≤ (pair32 s.mem ptr).2 → pg.canWrite ptr' 8 = true →
      (ReadsBack pg capable set get pair32 resource ptr ptr' s t ↔
        ∃ k, svr4Resource resource = some k ∧ (s.rlim k).pair = pair32 s.mem ptr)) ∧
    (setrlimit64 p = some set → getrlimit64 p = some get →
      (pair64 s.mem ptr).1 ≤ (pair64 s.mem ptr).2 → pg.canWrite ptr' 16 = true →
      (ReadsBack pg capable set get pair64 resource ptr ptr' s t ↔ resource = 0)) := by
  constructor
  · intro hset hget hle hwrite
    obtain ⟨rfl, rfl⟩ := rlimit_crossed hset hget
    exact svr4_readsBack_iff (Except.ok.inj (some.inj haccept)) hle hwrite
  · intro hset hget hle hwrite
    obtain ⟨rfl, rfl⟩ := rlimit64_bound hset hget
    exact uw7_readsBack_iff (Except.ok.inj (some.inj haccept)) hle hwrite

/-- A process whose limits are all 100, with a structure {50, 80} at `0x1000`, one with
the limits in force at `0x2000`, and {50, 80} in 64 bits at `0x3000`. -/
def limited : Proc where
  rlim _ := ⟨100, 100⟩
  mem x :=
    if x = 0x1000 ∨ x = 0x3000 then 50
    else if x = 0x1004 ∨ x = 0x3008 then 80
    else if x = 0x2000 ∨ x = 0x2004 then 100
    else 0

/-- Setting the data limit on OpenServer succeeds, sets nothing and overwrites the
structure; on UnixWare the file size limit is set and the data limit is read, and the
limit on mapped memory is set and then looked up outside the table. -/
theorem limits_not_read_back :
    setrlimit .sco = some .svr4Getrlimit ∧ getrlimit .sco = some .svr4Setrlimit ∧
    (∃ t, limitCall .everywhere false .svr4Getrlimit 2 0x1000 limited = some (.ok (0, t)) ∧
      t.rlim 2 = ⟨100, 100⟩ ∧ pair32 t.mem 0x1000 = (100, 100) ∧
      ¬ ReadsBack .everywhere false .svr4Getrlimit .svr4Setrlimit pair32 2 0x1000 0x4000
          limited t) ∧
    (∃ t u, limitCall .everywhere false .uw7Setrlimit64 1 0x3000 limited = some (.ok (0, t)) ∧
      t.rlim RLIMIT_FSIZE = ⟨50, 80⟩ ∧
      limitCall .everywhere false .uw7Getrlimit64 1 0x4000 t = some (.ok (0, u)) ∧
      pair64 u.mem 0x4000 = (100, 100)) ∧
    (∃ t, limitCall .everywhere false .uw7Setrlimit64 6 0x3000 limited = some (.ok (0, t)) ∧
      limitCall .everywhere false .uw7Getrlimit64 6 0x4000 t = some (.error .outside)) := by
  refine ⟨by decide +kernel, by decide +kernel, ⟨_, rfl, rfl, by decide, ?_⟩,
    ⟨_, _, rfl, by decide, rfl, by decide⟩, ⟨_, rfl, rfl⟩⟩
  intro h
  obtain ⟨k, -, hpair⟩ := (svr4_readsBack_iff rfl (by decide) (by decide)).mp h
  have hforce : (limited.rlim k).pair = (100, 100) := rfl
  rw [hforce] at hpair
  exact nomatch hpair

theorem limits_read_back_in_force :
    (∃ t, limitCall .everywhere false .svr4Getrlimit 2 0x2000 limited = some (.ok (0, t)) ∧
      ReadsBack .everywhere false .svr4Getrlimit .svr4Setrlimit pair32 2 0x2000 0x4000 limited t) ∧
    (∃ t, limitCall .everywhere false .uw7Setrlimit64 0 0x3000 limited = some (.ok (0, t)) ∧
      ReadsBack .everywhere false .uw7Setrlimit64 .uw7Getrlimit64 pair64 0 0x3000 0x4000
        limited t) := by
  refine ⟨⟨_, rfl, ?_⟩, ⟨_, rfl, ?_⟩⟩
  · exact ((limits_read_back_iff .everywhere false .sco .svr4Getrlimit .svr4Setrlimit 2 0x2000
      0x4000 limited _ rfl).1 (by decide +kernel) (by decide +kernel) (by decide) (by decide)).mpr
      ⟨RLIMIT_DATA, rfl, by decide⟩
  · exact ((limits_read_back_iff .everywhere false .uw7 .uw7Setrlimit64 .uw7Getrlimit64 0 0x3000
      0x4000 limited _ rfl).2 (by decide +kernel) (by decide +kernel) (by decide) (by decide)).mpr
      rfl

end AbiEmu.Limits
