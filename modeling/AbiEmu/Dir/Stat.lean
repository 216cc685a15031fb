import Mathlib.Tactic.IntervalCases
import AbiEmu.Lib.Layout
import AbiEmu.Dir.Slots

/-!
# `stat` and its versions (`abi/svr4/stat.c`, `include/abi/svr4/types.h`)

`stat` of the old systems has an inode number of two bytes, the `xstat` of System V
release 4 one of four. Both are folded so that the low half is never zero, which in a
directory would mean an empty slot; the long one only for a program that expects short
numbers (`PERF_SHORT_INODE`).
-/

namespace AbiEmu.Dir

/-- `PERF_SHORT_INODE` among the flags of a personality. -/
def shortInode (personality : Word) : Bool := personality &&& 0xffffff00 &&& 0x01000000 ≠ 0

/-- `linux_to_svr4_ino_t`. -/
def linuxToSvr4InoT (personality ino : Word) : Word :=
  if ¬ shortInode personality then ino
  else if ino &&& 0xffff ≠ 0 then ino
  else 0xfffffffe

/-- `linux_to_svr4_o_dev_t`: the major number above eight bits of the minor number. -/
def linuxToSvr4ODevT (dev : Word) : BitVec 16 :=
  ((dev >>> 20) <<< 8 ||| dev &&& 0xfffff).setWidth 16

/-- `linux_to_svr4_dev_t`. -/
def linuxToSvr4DevT (dev : Word) : Word := (dev >>> 20) <<< 18 ||| dev &&& 0xfffff

/-- The numbers that stand for a user or a group without a short number. -/
structure Overflow where
  uid : BitVec 16
  gid : BitVec 16

/-- `high2lowuid` and `high2lowgid`. -/
def high2low (overflow : BitVec 16) (id : Word) : BitVec 16 :=
  if id &&& ~~~0xffff ≠ 0 then overflow else id.setWidth 16

/-- The kernel's `struct timespec`. -/
structure Timespec where
  tvSec : Word
  tvNsec : Word

/-- The microseconds of a time. -/
def Timespec.tvUsec (t : Timespec) : Word := t.tvNsec.sdiv 1000

/-- The kernel's `struct kstat`. -/
structure Kstat where
  ino : Word
  dev : Word
  mode : Word
  nlink : Word
  uid : Word
  gid : Word
  rdev : Word
  size : BitVec 64
  atime : Timespec
  mtime : Timespec
  ctime : Timespec
  blksize : Word
  blocks : Word

/-- `MAX_NON_LFS`. -/
def MAX_NON_LFS : Int := 2 ^ 31 - 1

/-- The assignments of `report_svr4_stat`. -/
def svr4StatFields (o : Overflow) (st : Kstat) : List Field :=
  [⟨0, halfBytes (linuxToSvr4ODevT st.dev)⟩,
    ⟨2, halfBytes (linuxToSvr4OInoT st.ino)⟩,
    ⟨4, halfBytes (st.mode.setWidth 16)⟩,
    ⟨6, halfBytes (st.nlink.setWidth 16)⟩,
    ⟨8, halfBytes (high2low o.uid st.uid)⟩,
    ⟨10, halfBytes (high2low o.gid st.gid)⟩,
    ⟨12, halfBytes (linuxToSvr4ODevT st.rdev)⟩,
    ⟨16, Word.bytes (st.size.setWidth 32)⟩,
    ⟨20, Word.bytes st.atime.tvSec⟩,
    ⟨24, Word.bytes st.mtime.tvSec⟩,
    ⟨28, Word.bytes st.ctime.tvSec⟩]

/-- `sizeof(struct svr4_stat)`. -/
def svr4StatSize : Nat := 32

/-- The assignments of `report_svr4_xstat`. -/
def svr4XstatFields (personality : Word) (st : Kstat) : List Field :=
  [⟨0, Word.bytes (linuxToSvr4DevT st.dev)⟩,
    ⟨16, Word.bytes (linuxToSvr4InoT personality st.ino)⟩,
    ⟨20, Word.bytes st.mode⟩,
    ⟨24, Word.bytes st.nlink⟩,
    ⟨28, Word.bytes st.uid⟩,
    ⟨32, Word.bytes st.gid⟩,
    ⟨36, Word.bytes (linuxToSvr4DevT st.rdev)⟩,
    ⟨48, Word.bytes (st.size.setWidth 32)⟩,
    ⟨56, Word.bytes st.atime.tvSec⟩,
    ⟨60, Word.bytes st.atime.tvUsec⟩,
    ⟨64, Word.bytes st.mtime.tvSec⟩,
    ⟨68, Word.bytes st.mtime.tvUsec⟩,
    ⟨72, Word.bytes st.ctime.tvSec⟩,
    ⟨76, Word.bytes st.ctime.tvUsec⟩,
    ⟨80, Word.bytes st.blksize⟩,
    ⟨84, Word.bytes st.blocks⟩]

/-- `sizeof(struct svr4_xstat)`. -/
def svr4XstatSize : Nat := 136

/-- The common end of both: a file too large for the caller is refused, and the
structure, which was zeroed before the assignments, is copied out. -/
def report (pg : Pages) (fields : List Field) (size : Nat) (st : Kstat) (bufp : Word) (m : Mem) :
    Int × Mem :=
  if MAX_NON_LFS < st.size.toInt then (-EOVERFLOW, m)
  else
    let copied := pg.copyBytesToUser bufp (structBytes fields size fun _ => 0) m
    (if copied.1 then 0 else -EFAULT, copied.2)

/-- `report_svr4_stat`. -/
def reportSvr4Stat (pg : Pages) (o : Overflow) (st : Kstat) (bufp : Word) (m : Mem) : Int × Mem :=
  report pg (svr4StatFields o st) svr4StatSize st bufp m

/-- `report_svr4_xstat`. -/
def reportSvr4Xstat (pg : Pages) (personality : Word) (st : Kstat) (bufp : Word) (m : Mem) :
    Int × Mem :=
  report pg (svr4XstatFields personality st) svr4XstatSize st bufp m

/-- `svr4_stat`, and with another lookup `svr4_lstat` and `svr4_fstat`; `found` is what
`vfs_stat` came to. -/
def svr4Stat (pg : Pages) (o : Overflow) (found : Except Int Kstat) (bufp : Word) (m : Mem) :
    Int × Mem :=
  match found with
  | .error e => (e, m)
  | .ok st => reportSvr4Stat pg o st bufp m

/-- `svr4_xstat`, and with another lookup `svr4_lxstat` and `svr4_fxstat`. -/
def svr4Xstat (pg : Pages) (o : Overflow) (personality : Word) (vers : Word)
    (found : Except Int Kstat) (bufp : Word) (m : Mem) : Int × Mem :=
  match found with
  | .error e => (e, m)
  | .ok st =>
    if vers = 1 then reportSvr4Stat pg o st bufp m
    else if vers = 2 then reportSvr4Xstat pg personality st bufp m
    else (-EINVAL, m)

/-! ## What is reported -/

section Report

variable {pg : Pages} {fields : List Field} {size : Nat} {st : Kstat} {bufp : Word} {m m' : Mem}

/-- A call that returns zero has copied the structure. -/
theorem report_ok (h : report pg fields size st bufp m = (0, m')) :
    m' = m.store bufp (structBytes fields size fun _ => 0) := by
  unfold report at h
  split_ifs at h
  · have hret : -EOVERFLOW = 0 := congrArg Prod.fst h
    exact nomatch hret
  · have hret :
        (if (pg.copyBytesToUser bufp (structBytes fields size fun _ => 0) m).1 then (0 : Int)
        else -EFAULT) = 0 := congrArg Prod.fst h
    have harrived : (pg.copyBytesToUser bufp (structBytes fields size fun _ => 0) m).1 = true := by
      by_contra hfault
      rw [if_neg hfault] at hret
      exact nomatch hret
    rw [← (Pages.copyBytesToUser_ok harrived).2]
    exact (congrArg Prod.snd h).symm

variable {o : Overflow}

/-- The inode number of `stat`. -/
theorem svr4Stat_ino (h : svr4Stat pg o (.ok st) bufp m = (0, m')) :
    m'.half (bufp + 2) = linuxToSvr4OInoT st.ino := by
  rw [report_ok h]
  refine Mem.half_store m bufp _ (k := 2) (by omega) fun j hj => ?_
  interval_cases j <;> rfl

/-- The inode number of `xstat`. -/
theorem svr4Xstat_ino {personality : Word}
    (h : svr4Xstat pg o personality 2 (.ok st) bufp m = (0, m')) :
    m'.word (bufp + 16) = linuxToSvr4InoT personality st.ino := by
  rw [report_ok h]
  refine Mem.word_store m bufp _ (k := 16) (by omega) fun j hj => ?_
  interval_cases j <;> rfl

end Report

end AbiEmu.Dir
