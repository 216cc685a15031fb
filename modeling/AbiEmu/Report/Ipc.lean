import AbiEmu.Report.Statfs

/-!
# System V IPC (`abi/svr4/ipc.c`)

`svr4_shmctl` and `svr4_msgctl` report a segment or a queue and change it. The caller's
structure comes in two generations, the old one of `ibcs2_*` with half words and that of
`abi4_*` (commands with `_L`) with words and room between them. Each command converts
between the caller's structure, which it keeps on its stack, and the kernel's.

A conversion to the caller's structure is the list of the fields it assigns, one for
each assignment of the source. Those of the second generation start with a `memset` of
the whole structure, those of the first do not.
-/

namespace AbiEmu.Report

/-- The kernel's `struct ipc_perm`. -/
structure IpcPerm where
  key : Word
  uid : BitVec 16
  gid : BitVec 16
  cuid : BitVec 16
  cgid : BitVec 16
  mode : BitVec 16
  seq : BitVec 16

/-- The kernel's `struct shmid_ds`. -/
structure ShmidDs where
  shmPerm : IpcPerm
  shmSegsz : Word
  shmAtime : Word
  shmDtime : Word
  shmCtime : Word
  shmCpid : BitVec 16
  shmLpid : BitVec 16
  shmNattch : BitVec 16

/-- The kernel's `struct msqid_ds`. -/
structure MsqidDs where
  msgPerm : IpcPerm
  msgFirst : Word
  msgLast : Word
  msgStime : Word
  msgRtime : Word
  msgCtime : Word
  msgCbytes : BitVec 16
  msgQnum : BitVec 16
  msgQbytes : BitVec 16
  msgLspid : BitVec 16
  msgLrpid : BitVec 16

/-! ## Fields -/

/-- The half word at an offset of a structure. -/
def halfAt (s : Nat → Byte) (off : Nat) : BitVec 16 := s (off + 1) ++ s off

/-- The word at an offset of a structure. -/
def wordAt (s : Nat → Byte) (off : Nat) : Word :=
  s (off + 3) ++ s (off + 2) ++ s (off + 1) ++ s off

def half (off : Nat) (v : BitVec 16) : Field := ⟨off, halfBytes v⟩

def word (off : Nat) (v : Word) : Field := ⟨off, v.bytes⟩

/-- A half word of the kernel in a word of the caller. -/
def wide (off : Nat) (v : BitVec 16) : Field := word off (v.setWidth 32)

/-- A half word of the kernel from a word of the caller. -/
def lowAt (s : Nat → Byte) (off : Nat) : BitVec 16 := (wordAt s off).setWidth 16

/-! ## The first generation -/

def ipToLp (ip : Nat → Byte) : IpcPerm where
  uid := halfAt ip 0
  gid := halfAt ip 2
  cuid := halfAt ip 4
  cgid := halfAt ip 6
  mode := halfAt ip 8
  seq := halfAt ip 10
  key := wordAt ip 12

def lpToIp (lp : IpcPerm) : List Field :=
  [half 0 lp.uid, half 2 lp.gid, half 4 lp.cuid, half 6 lp.cgid, half 8 lp.mode, half 10 lp.seq,
   word 12 lp.key]

def ishmToLshm (is : Nat → Byte) : ShmidDs where
  shmPerm := ipToLp is
  shmSegsz := wordAt is 16
  shmLpid := halfAt is 28
  shmCpid := halfAt is 30
  shmNattch := halfAt is 32
  shmAtime := wordAt is 36
  shmDtime := wordAt is 40
  shmCtime := wordAt is 44

/-- `lshm_to_ishm`: `__pad1`, `__pad2` and `__pad3` are not assigned. -/
def lshmToIshm (ls : ShmidDs) : List Field :=
  lpToIp ls.shmPerm ++
  [word 16 ls.shmSegsz, half 28 ls.shmLpid, half 30 ls.shmCpid, half 32 ls.shmNattch,
   word 36 ls.shmAtime, word 40 ls.shmDtime, word 44 ls.shmCtime]

def imsqToLmsq (im : Nat → Byte) : MsqidDs where
  msgPerm := ipToLp im
  msgFirst := wordAt im 16
  msgLast := wordAt im 20
  msgCbytes := halfAt im 24
  msgQnum := halfAt im 26
  msgQbytes := halfAt im 28
  msgLspid := halfAt im 30
  msgLrpid := halfAt im 32
  msgStime := wordAt im 36
  msgRtime := wordAt im 40
  msgCtime := wordAt im 44

/-- `lmsq_to_imsq`: the compiler leaves two bytes between `msg_lrpid` and `msg_stime`. -/
def lmsqToImsq (lm : MsqidDs) : List Field :=
  lpToIp lm.msgPerm ++
  [word 16 lm.msgFirst, word 20 lm.msgLast, half 24 lm.msgCbytes, half 26 lm.msgQnum,
   half 28 lm.msgQbytes, half 30 lm.msgLspid, half 32 lm.msgLrpid,
   word 36 lm.msgStime, word 40 lm.msgRtime, word 44 lm.msgCtime]

/-! ## The second generation -/

def ipToLpL (ip : Nat → Byte) : IpcPerm where
  uid := lowAt ip 0
  gid := lowAt ip 4
  cuid := lowAt ip 8
  cgid := lowAt ip 12
  mode := lowAt ip 16
  seq := lowAt ip 20
  key := wordAt ip 24

def lpToIpL (lp : IpcPerm) : List Field :=
  [wide 0 lp.uid, wide 4 lp.gid, wide 8 lp.cuid, wide 12 lp.cgid, wide 16 lp.mode,
   wide 20 lp.seq, word 24 lp.key]

def ishmToLshmL (is : Nat → Byte) : ShmidDs where
  shmPerm := ipToLpL is
  shmSegsz := wordAt is 44
  shmLpid := lowAt is 56
  shmCpid := lowAt is 60
  shmNattch := lowAt is 64
  shmAtime := wordAt is 72
  shmDtime := wordAt is 80
  shmCtime := wordAt is 88

def lshmToIshmL (ls : ShmidDs) : List Field :=
  clear 0 112 :: lpToIpL ls.shmPerm ++
  [word 44 ls.shmSegsz, wide 56 ls.shmLpid, wide 60 ls.shmCpid, wide 64 ls.shmNattch,
   word 72 ls.shmAtime, word 80 ls.shmDtime, word 88 ls.shmCtime]

def imsqToLmsqL (im : Nat → Byte) : MsqidDs where
  msgPerm := ipToLpL im
  msgFirst := wordAt im 44
  msgLast := wordAt im 48
  msgCbytes := lowAt im 52
  msgQnum := lowAt im 56
  msgQbytes := lowAt im 60
  msgLspid := lowAt im 64
  msgLrpid := lowAt im 68
  msgStime := wordAt im 72
  msgRtime := wordAt im 80
  msgCtime := wordAt im 88

def lmsqToImsqL (lm : MsqidDs) : List Field :=
  clear 0 112 :: lpToIpL lm.msgPerm ++
  [word 44 lm.msgFirst, word 48 lm.msgLast, wide 52 lm.msgCbytes, wide 56 lm.msgQnum,
   wide 60 lm.msgQbytes, wide 64 lm.msgLspid, wide 68 lm.msgLrpid,
   word 72 lm.msgStime, word 80 lm.msgRtime, word 88 lm.msgCtime]

/-! ## The commands -/

/-- A structure of the caller: its size, and how it is converted. -/
structure Generation (δ : Type) where
  size : Nat
  read : (Nat → Byte) → δ
  fields : δ → List Field

def ibcs2ShmidDs : Generation ShmidDs := ⟨48, ishmToLshm, lshmToIshm⟩
def abi4ShmidDs : Generation ShmidDs := ⟨112, ishmToLshmL, lshmToIshmL⟩
def ibcs2MsqidDs : Generation MsqidDs := ⟨48, imsqToLmsq, lmsqToImsq⟩
def abi4MsqidDs : Generation MsqidDs := ⟨112, imsqToLmsqL, lmsqToImsqL⟩

/-- The kernel's side of a control call. -/
structure IpcKernel (δ : Type) where
  /-- `IPC_STAT`: the result, and the structure it fills. -/
  stat : Int × δ
  /-- `IPC_SET`, with the structure it is given. -/
  set : δ → Int
  /-- The commands that take no structure. -/
  ctl : Nat → Int

section Commands

variable {δ : Type} (pg : Pages) (frame : Nat → Byte) (g : Generation δ) (k : IpcKernel δ)

/-- The caller's structure, filled on the stack where `frame` was, and copied. -/
def giveBack (frame : Nat → Byte) (ds : δ) (arg3 : Word) : Outcome :=
  copyOut pg arg3 (assign (g.fields ds) frame) g.size g.size 0 (-EFAULT)

/-- `SVR4_IPC_STAT` and `SVR4_IPC_STAT_L`. -/
def ipcStat (arg3 : Word) : Outcome :=
  if k.stat.1 < 0 then .returns k.stat.1 else giveBack pg g frame k.stat.2 arg3

/-- `SVR4_IPC_SET` and `SVR4_IPC_SET_L`: the structure comes from the caller and goes back
to it, if `stops` does not stop the call at what the kernel says. -/
def ipcSet (stops : Int → Bool) (m : Mem) (arg3 : Word) : Outcome :=
  match pg.copyBytesFromUser arg3 g.size m with
  | none => .returns (-EFAULT)
  | some bs =>
    let given : Nat → Byte := fun i => bs.getD i 0
    let ds := g.read given
    let err := k.set ds
    if stops err then .returns err else giveBack pg g given ds arg3

end Commands

def IPC_RMID : Nat := 0
def SHM_LOCK : Nat := 11
def SHM_UNLOCK : Nat := 12

/-- `svr4_shmctl`; `frame` is what the structure on its stack held. -/
def svr4Shmctl (pg : Pages) (frame : Nat → Byte) (k : IpcKernel ShmidDs) (m : Mem) (cmd : Int)
    (arg3 : Word) : Outcome :=
  match cmd with
  | 3 => .returns (k.ctl SHM_LOCK)
  | 4 => .returns (k.ctl SHM_UNLOCK)
  | 1 => ipcSet pg ibcs2ShmidDs k (· < 0) m arg3
  | 11 => ipcSet pg abi4ShmidDs k (· < 0) m arg3
  | 0 | 10 => .returns (k.ctl IPC_RMID)
  | 2 => ipcStat pg frame ibcs2ShmidDs k arg3
  | 12 => ipcStat pg frame abi4ShmidDs k arg3
  | _ => .returns (-EINVAL)

/-- `svr4_msgctl`: it does not look at what became of a set. -/
def svr4Msgctl (pg : Pages) (frame : Nat → Byte) (k : IpcKernel MsqidDs) (m : Mem) (cmd : Int)
    (arg3 : Word) : Outcome :=
  match cmd with
  | 1 => ipcSet pg ibcs2MsqidDs k (fun _ => false) m arg3
  | 11 => ipcSet pg abi4MsqidDs k (fun _ => false) m arg3
  | 0 | 10 => .returns (k.ctl IPC_RMID)
  | 2 => ipcStat pg frame ibcs2MsqidDs k arg3
  | 12 => ipcStat pg frame abi4MsqidDs k arg3
  | _ => .returns (-EINVAL)

end AbiEmu.Report
