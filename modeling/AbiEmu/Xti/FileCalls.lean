import AbiEmu.Lib.Refs
import AbiEmu.Lib.Strings
import AbiEmu.Xti.Socksys

/-!
# References to files (`abi/svr4/sockio.c`, `socksys.c`, `xti.c`)

A function that works on the file behind a descriptor takes a reference with `fget` and
gives it back with `fput`. Some of the functions of the emulation do both, some take over
the reference of their caller (`i_nread`, `i_peek`, `xti_connect`), and `do_putmsg` and
`do_getmsg` take none: they find the file with `fcheck` and trust that their caller holds
it.

This module writes the functions down once more, as programs that note every `fget`, every
`fput` and every look at a file, its inode or its private block. `i_str` ends with a call
of another ioctl, so a call can lead to the next: `RefCall.once` is one function up to such
a call, `RefCall.run` follows the calls.
-/

namespace AbiEmu.Xti

open Traced

/-! ## The programs -/

/-- A program on descriptors and files. The files are told apart by their number. -/
abbrev Counting (α : Type) := Traced Kernel (Ref Nat) α

/-- `fget`. -/
def fgetT (fd : Word) : Counting (Option Nat) := do
  let k ← get
  match k.fds fd with
  | none => return none
  | some i =>
    note (.got i)
    return some i

/-- `fput`. -/
def fputT (i : Nat) : Counting Unit := note (.gave i)

/-- A look at the file. -/
def lookT (i : Nat) : Counting File := do
  note (.used i)
  let k ← get
  return k.files i

/-- The file `i` is now `f`. -/
def Kernel.store (k : Kernel) (i : Nat) (f : File) : Kernel :=
  { k with files := Function.update k.files i f }

def storeT (i : Nat) (f : File) : Counting Unit := modify fun k => k.store i f

/-- User memory, as the endpoint `i` sees it. -/
def userT (i : Nat) : Counting Sys := do
  let k ← get
  return (k.files i).sys

/-- Go on unless there was a fault. -/
def tryT {α β : Type} (p : Counting (Except Fault α)) (f : α → Counting (Except Fault β)) :
    Counting (Except Fault β) := do
  match ← p with
  | .error fault => return .error fault
  | .ok r => f r

section Streams

variable (e : Env) (fd data : Word)

/-- The end of `i_nread`. The file has been given back; what changes is user memory. -/
def askSocketT (inq : SockAnswer) (i : Nat) : Counting (Except Fault Int) := do
  let k ← get
  let r := askSocket e inq data (k.files i)
  storeT i r.2
  return .ok r.1

/-- `i_nread`. -/
def iNreadT (inq : SockAnswer) (i : Nat) : Counting (Except Fault Int) := do
  if ¬ e.verify true data 4 then
    fputT i
    return .ok (-EFAULT)
  else
    let f ← lookT i
    if f.inode.isSock then
      match f.looked e fd with
      | .error fault => return .error fault
      | .ok f1 =>
        storeT i f1
        let f1 ← lookT i
        match f1.first with
        | some it =>
          storeT i { f1 with sys := putUser e data (BitVec.ofInt 32 it.length) f1.sys }
          fputT i
          return .ok 1
        | none =>
          fputT i
          askSocketT e data inq i
    else
      fputT i
      askSocketT e data inq i

/-- `i_peek`. -/
def iPeekT (i : Nat) : Counting (Except Fault Int) := do
  let f ← lookT i
  if ¬ e.canRead data 28 then
    fputT i
    return .ok (-EFAULT)
  else if ¬ f.inode.isSock then
    fputT i
    return .ok 0
  else
    match f.looked e fd with
    | .error fault => return .error fault
    | .ok f1 =>
      storeT i f1
      let f1 ← lookT i
      match f1.first with
      | none =>
        fputT i
        return .ok 0
      | some tp =>
        let r := peekAt e data f.sys tp f1
        storeT i r.2
        fputT i
        return .ok r.1

/-- `do_putmsg` of the file its caller holds. -/
def putmsgT (c : PutArgs) (i : Nat) : Counting (Except Fault Int) := do
  note (.lent i)
  let k ← get
  let f := k.files i
  match f.putmsg e c with
  | .error fault => return .error fault
  | .ok r =>
    storeT i { f with sys := r.2 }
    return .ok r.1

/-- The `struct strfdinsert` at `data`. -/
def fdinsertArgs (s : Sys) : PutArgs :=
  ⟨fd, s.mem.word (data + 8), (s.mem.word (data + 4)).toInt, s.mem.word (data + 20),
    (s.mem.word (data + 16)).toInt, s.mem.word (data + 28)⟩

/-- `stream_fdinsert`. -/
def streamFdinsertT (i : Nat) : Counting (Except Fault Int) := do
  let s ← userT i
  if ¬ e.canRead data 36 then return .ok (-EFAULT)
  else
    let k ← get
    match k.fds fd with
    | none => return .error .null
    | some j => putmsgT e (fdinsertArgs fd data s) j

end Streams

/-! ### `timod_ioctl` -/

section Timod

variable (e : IoctlEnv) (c : IoctlArgs) (i : Nat)

/-- The `do_getmsg` of an ioctl. If another file is behind the descriptor now, it is not
the one that is held. -/
def ioctlGetmsgT (b : Behind) (e : Env) (other : SockAnswer) (c : GetArgs) (i : Nat) :
    Counting (Except Fault Int) := do
  let k ← get
  let f := k.files i
  match b with
  | .same =>
    note (.lent i)
    match f.getmsg e c with
    | .error fault => return .error fault
    | .ok g =>
      storeT i { f with sys := g.sys }
      return .ok g.ret
  | .other =>
    storeT i { f with sys := { f.sys with mem := other.effect f.sys.mem } }
    return .ok other.result
  | .closed => return .error (.stop .noFile)

/-- `TI_GETINFO`. -/
def tiGetinfoT : Counting (Except Fault Int) := do
  let s ← userT i
  let size := infoSize (c.func % 256)
  if ¬ e.own.verify true c.arg size then
    fputT i
    return .ok (sysErr (-EFAULT))
  else if getUserD e.own s c.arg ≠ T_INFO_REQ then
    fputT i
    return .ok (sysErr (-EINVAL))
  else
    let f ← lookT i
    match f.magic with
    | none => return .error .null
    | some _ =>
      let ack := infoAck e.own f.sys
      fputT i
      match copyToUser e.own c.arg ((ack.flatMap Word.bytes).take size) s with
      | none => return .ok (-EFAULT)
      | some s1 =>
        storeT i { f with sys := putUser e.own c.lenP (BitVec.ofNat 32 size) s1 }
        return .ok 0

/-- `TI_BIND` once the request has been put. -/
def tiBindGetT (b : Behind) : Counting (Except Fault Int) :=
  tryT (ioctlGetmsgT b e.get e.other c.getArgs i) fun ret => do
    let s ← userT i
    let prim := getUserD e.own s c.arg
    if ret ≠ 0 then
      fputT i
      return .ok (sysErr ret)
    else if prim = T_ERROR_ACK then
      fputT i
      return .ok (ackErr e.own c.arg s)
    else if prim ≠ T_OK_ACK then
      fputT i
      return .ok TBADSEQ
    else
      tryT (ioctlGetmsgT b e.get' e.other' c.getArgs i) fun ret => do
        fputT i
        return .ok (if ret ≠ 0 then sysErr ret else 0)

/-- `TI_OPTMGMT` once the request has been put. -/
def tiOptmgmtGetT (b : Behind) : Counting (Except Fault Int) :=
  tryT (ioctlGetmsgT b e.get e.other c.getArgs i) fun ret => do
    if 0 < ret then
      let f ← lookT i
      match f.sys.dropHead with
      | .error stop => return .error (.stop stop)
      | .ok k =>
        storeT i { f with sys := { f.sys with toCore := k } }
        fputT i
        return .ok (optmgmtResult e.own c ret f.sys)
    else
      fputT i
      let s ← userT i
      return .ok (optmgmtResult e.own c ret s)

/-- `TI_BIND` and `TI_OPTMGMT`: put the request, then `rest`. -/
def tiRequestT (rest : Behind → Counting (Except Fault Int)) : Counting (Except Fault Int) := do
  let s ← userT i
  tryT (putmsgT e.put c.putArgs i) fun error => do
    if error ≠ 0 then
      fputT i
      return .ok (sysErr error)
    else rest (behind e.put c.putArgs s)

/-- `TI_UNBIND`. -/
def tiUnbindT : Counting (Except Fault Int) := do
  let f ← lookT i
  match f.magic with
  | none => return .error .null
  | some _ =>
    if f.sys.priv.state ≠ .idle then
      fputT i
      return .ok TOUTSTATE
    else
      storeT i { f with sys := f.sys.setState .unbnd }
      fputT i
      return .ok 0

def TBADF : Int := 4

/-- `timod_ioctl`. -/
def timodIoctlT : Counting (Except Fault Int) := do
  match ← fgetT c.fd with
  | none => return .ok TBADF
  | some i =>
    if ¬ e.own.verify true c.lenP 4 then
      fputT i
      return .ok (sysErr (-EFAULT))
    else
      let _ ← lookT i
      if ioctlNumber c.func = 0 then tiGetinfoT e c i
      else if ioctlNumber c.func = 1 then tiRequestT e c i (tiOptmgmtGetT e c i)
      else if ioctlNumber c.func = 2 then tiRequestT e c i (tiBindGetT e c i)
      else if ioctlNumber c.func = 3 then tiUnbindT i
      else
        fputT i
        return .ok TNOTSUPPORT

end Timod

/-! ### The set-up -/

/-- `sys_dup2` and `sys_close` as they happen to answer. -/
structure FdCalls where
  dup2 : Word → Word → Kernel → Kernel
  close : Word → Kernel → Kernel

/-- The two calls succeed. -/
def FdCalls.plain : FdCalls := ⟨fun old new k => k.dup2 old new, fun fd k => k.close fd⟩

/-- `inherit_socksys_funcs`. -/
def inheritSocksysFuncsT (alloc : Bool) (fd : Word) (state : TState) : Counting Unit := do
  match ← fgetT fd with
  | none => return ()
  | some i =>
    let f ← lookT i
    storeT i (f.inherit alloc state)
    fputT i

/-- A call that answers with a number. -/
def callT (call : Kernel → Int × Kernel) : Counting Int := do
  let k ← get
  modify fun k => (call k).2
  return (call k).1

/-- The socket for a minor number of the device. -/
def connection (e : SocketEnv) (dev : Rdev) (k : Kernel) : Int × Kernel :=
  if dev.minor = 1 then spxConnect e k else xtiConnect e dev k

/-- `socksys_fdinit`. `xti_connect` gives the reference back, for `spx_connect` it is given
back before. -/
def socksysFdinitT (e : SocketEnv) (d : FdCalls) (fd : Word) : Counting Int := do
  match ← fgetT fd with
  | none => return -EBADF
  | some i =>
    let f ← lookT i
    if f.inode.rdev.minor = 0 then
      fputT i
      return -EINVAL
    else
      fputT i
      let r ← callT (connection e f.inode.rdev)
      if r < 0 then return r
      else
        let sockfd := BitVec.ofInt 32 r
        inheritSocksysFuncsT e.alloc sockfd .unbnd
        modify (d.dup2 sockfd fd)
        modify (d.close sockfd)
        return 1

/-! ### The ioctls of a stream -/

/-- The calls whose references are followed. `other` is an ioctl that has nothing to do
with streams. -/
inductive RefCall where
  | stream (fd cmd data : Word)
  | sockmod (fd cmd data : Word)
  | timod (c : IoctlArgs)
  | fdinit (fd : Word)
  | inherit (fd : Word) (state : TState)
  | other (fd cmd data : Word)

/-- The answers a call gets. -/
structure RefEnv where
  init : SocketEnv
  fds : FdCalls
  call : Env
  inq : SockAnswer
  timod : IoctlEnv
  /-- `current->pid`. -/
  pid : Word
  /-- `getname`. -/
  name : Except Int (List Byte)
  /-- `sys_ioctl` of a descriptor, a command and an argument. -/
  ioctl : Word → Word → Word → Kernel → Int × Kernel
  other : Word → Word → Word → Kernel → Except Fault (Int × Kernel)

/-- The two functions that initialise a descriptor of the device before they use it, with
the inodes they do it for, the error for a bad descriptor, and what they return when the
initialisation fails with `error`. -/
structure Initialises where
  needs : Inode → Bool
  bad : Int
  failed : Int → Int

def streamInit : Initialises := ⟨fun ip => ¬ ip.isSock ∧ ip.isSocksys, -EBADF, fun error => error⟩
def sockmodInit : Initialises := ⟨fun ip => ip.isSocksys, TBADF, fun error => -error⟩

/-- The first half of `svr4_stream_ioctl` and `svr4_sockmod_ioctl`: the file behind the
descriptor, which is held, or what is returned. -/
def initialisedT (m : Initialises) (e : RefEnv) (fd : Word) : Counting (Except Int Nat) := do
  match ← fgetT fd with
  | none => return .error m.bad
  | some i =>
    let f ← lookT i
    if m.needs f.inode then
      let error ← socksysFdinitT e.init e.fds fd
      -- the file is not given back here
      if error < 0 then return .error (m.failed error)
      else
        fputT i
        match ← fgetT fd with
        | none => return .error m.bad
        | some j =>
          let _ ← lookT j
          return .ok j
    else return .ok i

/-- What `SI_GETUDATA` stores, with the offsets. -/
def udata (stream : Bool) : List (Word × Word) :=
  [(0, 16384), (4, 16), (8, -1), (20, 0), (24, 0), (12, if stream then 1 else -2),
    (16, if stream then 2 else 3)]

/-- `svr4_sockmod_ioctl` with a file that is ready. -/
def sockmodCommandT (e : RefEnv) (cmd data : Word) (i : Nat) : Counting (Except Fault Int) := do
  if cmd = 101 then
    if ¬ e.call.verify true data 28 then
      fputT i
      return .ok (sysErr (-EFAULT))
    else
      let f ← lookT i
      storeT i { f with
        sys := (udata e.call.stream).foldl (fun s x => putUser e.call (data + x.1) x.2 s) f.sys }
      fputT i
      return .ok 0
  else
    fputT i
    return .ok TNOTSUPPORT

/-- `svr4_sockmod_ioctl`. -/
def svr4SockmodIoctlT (e : RefEnv) (fd cmd data : Word) : Counting (Except Fault Int) := do
  match ← initialisedT sockmodInit e fd with
  | .error r => return .ok r
  | .ok i => sockmodCommandT e cmd data i

/-- The call `i_str` ends with, from the `struct strioctl` at `data`. The classes are those
of `__svr4_ioctl`. -/
def strCall (e : Env) (fd data : Word) (s : Sys) : Option RefCall :=
  if ¬ e.canRead data 16 then none
  else
    let cmd := s.mem.word data
    let arg := s.mem.word (data + 12)
    if cmd >>> 8 = 84 then
      some (.timod ⟨fd, (cmd &&& 0xff).toNat, arg, (s.mem.word (data + 8)).toInt, data + 8⟩)
    else if cmd >>> 8 = 83 then some (.stream fd (cmd &&& 0x7f) arg)
    else if cmd >>> 8 = 73 then some (.sockmod fd (cmd &&& 0xff) arg)
    else some (.other fd cmd arg)

/-- The commands of `svr4_stream_ioctl` that only return something. -/
def plainCommand (name : Except Int (List Byte)) (cmd data : Word) : Int :=
  if cmd = 2 ∨ cmd = 11 then
    match name with
    | .error err => err
    | .ok s => if cmd = 11 ∧ s = ascii "timod" then 1 else 0
  else if 3 ≤ cmd ∧ cmd ≤ 7 ∨ cmd = 12 ∨ cmd = 13 ∨ 17 ≤ cmd ∧ cmd ≤ 19 ∨ cmd = 32 then 0
  else if cmd = 34 then if data ≠ 0 then -EINVAL else 1
  else -EINVAL

/-- What `I_SETSIG` and `I_GETSIG` ask `sys_ioctl`. -/
def FIOSETOWN : Word := 0x8901
def FIOGETOWN : Word := 0x8903

/-- The end of `svr4_stream_ioctl`: the file `i` has been given back. An `I_STR` leads to
another call. -/
def laterCommandT (e : RefEnv) (fd cmd data : Word) (i : Nat) :
    Counting (Except Fault Int ⊕ RefCall) := do
  if cmd = 8 then
    let s ← userT i
    match strCall e.call fd data s with
    | none => return .inl (.ok (-EFAULT))
    | some next => return .inr next
  else if cmd = 9 then
    let r ← callT (e.ioctl fd FIOSETOWN e.pid)
    return .inl (.ok r)
  else if cmd = 10 then
    let r ← callT (e.ioctl fd FIOGETOWN data)
    return .inl (.ok r)
  else if cmd = 16 then
    let r ← streamFdinsertT e.call fd data i
    return .inl r
  else return .inl (.ok (plainCommand e.name cmd data))

/-- `svr4_stream_ioctl` with a file that is ready. -/
def streamCommandT (e : RefEnv) (fd cmd data : Word) (i : Nat) :
    Counting (Except Fault Int ⊕ RefCall) := do
  if cmd = 1 then
    let r ← iNreadT e.call fd data e.inq i
    return .inl r
  else if cmd = 15 then
    let r ← iPeekT e.call fd data i
    return .inl r
  else
    fputT i
    laterCommandT e fd cmd data i

namespace RefCall

/-- One call, up to the call it ends with. -/
def once (e : RefEnv) : RefCall → Counting (Except Fault Int ⊕ RefCall)
  | .stream fd cmd data => do
    match ← initialisedT streamInit e fd with
    | .error r => return .inl (.ok r)
    | .ok i => streamCommandT e fd cmd data i
  | .sockmod fd cmd data => do
    let r ← svr4SockmodIoctlT e fd cmd data
    return .inl r
  | .timod c => do
    let r ← timodIoctlT e.timod c
    return .inl r
  | .fdinit fd => do
    let r ← socksysFdinitT e.init e.fds fd
    return .inl (.ok r)
  | .inherit fd state => do
    inheritSocksysFuncsT e.init.alloc fd state
    return .inl (.ok 0)
  | .other fd cmd data => do
    let k ← get
    match e.other fd cmd data k with
    | .error fault => return .inl (.error fault)
    | .ok r =>
      modify fun _ => r.2
      return .inl (.ok r.1)

/-- A call with everything it leads to. An `I_STR` can ask for an `I_STR` without end; the
calls are followed to a depth of `n`, each with the answers of its depth. -/
def run (e : Nat → RefEnv) : Nat → RefCall → Counting (Except Fault Int)
  | 0, _ => return .error (.stop .loop)
  | n + 1, c => do
    match ← c.once (e n) with
    | .inl r => return r
    | .inr next => run e n next

/-- What comes after the first of the calls. -/
def follow (e : Nat → RefEnv) (n : Nat) :
    Except Fault Int ⊕ RefCall → Counting (Except Fault Int)
  | .inl r => return r
  | .inr next => next.run e n

theorem run_succ (e : Nat → RefEnv) (n : Nat) (c : RefCall) :
    c.run e (n + 1) = c.once (e n) >>= follow e n := by
  congr 1

end RefCall

/-- A call that is made, with the descriptors and files it finds. -/
structure Visit where
  env : RefEnv
  call : RefCall
  kernel : Kernel

/-- The calls a call leads to, itself the first. -/
def RefCall.visits (e : Nat → RefEnv) : Nat → RefCall → Kernel → List Visit
  | 0, _, _ => []
  | n + 1, c, k => ⟨e n, c, k⟩ ::
    match (c.once (e n)).result k with
    | (.inl _, _) => []
    | (.inr next, k1) => visits e n next k1

section Visits

variable {e : Nat → RefEnv} {n : Nat} {c : RefCall} {k k' : Kernel}

theorem visits_of_inl {r : Except Fault Int} (h : (c.once (e n)).result k = (.inl r, k')) :
    c.visits e (n + 1) k = [⟨e n, c, k⟩] := by
  unfold RefCall.visits
  rw [h]

theorem visits_of_inr {next : RefCall} (h : (c.once (e n)).result k = (.inr next, k')) :
    c.visits e (n + 1) k = ⟨e n, c, k⟩ :: next.visits e n k' := by
  rw [RefCall.visits, h]

end Visits

end AbiEmu.Xti
