import AbiEmu.Xti.Timod

/-!
# Files and transport endpoints (`abi/svr4/socksys.c`, `sockio.c`, `stream.c`)

A descriptor becomes a transport endpoint when `inherit_socksys_funcs` has
processed it: the function rewrites the inode of the socket, hangs a private
block on the file and exchanges its operations. From then on the rest of the
emulation has to recognise it by what was written there. This module has the
set-up and everybody who looks: the system calls `getmsg` and `putmsg`, the
STREAMS ioctls with `I_NREAD` and `I_PEEK`, the file operations `poll` and
`release`, and the test at the head of `do_getmsg` and `do_putmsg`.

A `File` is a `struct file` with its inode. Its `sys` is the endpoint the other
modules work on: the contents of the private block, if there is one, with the
message blocks and user memory. The private pointer itself is `magic`: null, or
a block whose `magic` field has that value.
-/

namespace AbiEmu.Xti

/-! ## Inodes, files and descriptors -/

/-- What is looked at of an inode. -/
structure Inode where
  mode : BitVec 16
  rdev : Rdev
  deriving DecidableEq, Repr

def S_IFMT : BitVec 16 := 0xf000
def S_IFSOCK : BitVec 16 := 0xc000
def S_IFCHR : BitVec 16 := 0x2000

/-- `S_ISSOCK(ip->i_mode)`. -/
def Inode.isSock (ip : Inode) : Prop := ip.mode &&& S_IFMT = S_IFSOCK
  deriving Decidable

/-- `IS_SOCKSYS(ip)`. -/
def Inode.isSocksys (ip : Inode) : Prop := ip.rdev.major = SOCKSYS_MAJOR
  deriving Decidable

/-- The tables a file's operations can come from: `socket_file_ops`,
`socksys_fops` and `socksys_socket_fops`. The last is the first with `release`
and `poll` exchanged. -/
inductive FileOps where
  | socket | socksys | socksysSocket
  deriving DecidableEq, Repr

def XTI_MAGIC : Word := 638654838

/-- `struct file`. -/
structure File where
  inode : Inode
  fop : FileOps
  /-- The `SOCK_BSDISM` flag of the socket, if there is a `struct sock`. -/
  bsdism : Option Bool
  /-- The private block: null, or the value of its `magic` field. -/
  magic : Option Word
  sys : Sys

/-- The descriptors of the process and the open files. -/
structure Kernel where
  fds : Word → Option Nat
  files : Nat → File

namespace Kernel

def fget (k : Kernel) (fd : Word) : Option File := (k.fds fd).map k.files

/-- The file behind `fd` is now `f`. -/
def setFile (k : Kernel) (fd : Word) (f : File) : Kernel :=
  match k.fds fd with
  | none => k
  | some i => { k with files := Function.update k.files i f }

/-- `sys_dup2`. -/
def dup2 (k : Kernel) (old new : Word) : Kernel :=
  { k with fds := Function.update k.fds new (k.fds old) }

/-- `sys_close`. -/
def close (k : Kernel) (fd : Word) : Kernel := { k with fds := Function.update k.fds fd none }

end Kernel

def EBADF : Int := 9
def ENOENT : Int := 2

/-- Why a call does not come back: a null pointer was read, or an operation on the
endpoint stopped. -/
inductive Fault where
  | null
  | stop (why : Stop)
  deriving DecidableEq, Repr

/-! ## The set-up -/

/-- A new private block in the given state. -/
def Sys.renewed (state : TState) (s : Sys) : Sys :=
  { s with priv := ⟨state, 0, none, none⟩, queued := [], delivered := [] }

/-- What `inherit_socksys_funcs` makes of a file; `alloc` is whether `kmalloc`
serves the private block. -/
def File.inherit (alloc : Bool) (state : TState) (fp : File) : File where
  inode := ⟨S_IFCHR, ⟨SOCKSYS_MAJOR, 0⟩⟩
  fop := .socksysSocket
  bsdism := fp.bsdism.map fun _ => true
  magic := if alloc then some XTI_MAGIC else none
  sys := if alloc then fp.sys.renewed state else fp.sys

/-- `inherit_socksys_funcs`. -/
def inheritSocksysFuncs (alloc : Bool) (fd : Word) (state : TState) (k : Kernel) : Kernel :=
  match k.fget fd with
  | none => k
  | some fp => k.setFile fd (fp.inherit alloc state)

/-- The system calls `socksys_fdinit` makes, and `kmalloc` for the private block. -/
structure SocketEnv where
  readlink : Int
  /-- `sys_socket` with family, type and protocol. -/
  socket : Nat → Nat → Nat → Kernel → Int × Kernel
  connect : Int
  alloc : Bool

def AF_UNIX : Nat := 1
def SOCK_STREAM : Nat := 1
def SOCK_DGRAM : Nat := 2
def SOCK_RAW : Nat := 3

/-- `inet_prot`: the protocols ICMP, IGMP, IPIP, TCP, EGP, PUP, UDP, IDP and RAW. -/
def inetProt : List Nat := [1, 1, 2, 4, 6, 8, 12, 17, 22, 255, 0, 0, 0, 0, 0, 0]

/-- `inet_type`. -/
def inetType : List Nat :=
  [SOCK_RAW, SOCK_RAW, SOCK_RAW, SOCK_RAW, SOCK_STREAM, SOCK_RAW, SOCK_RAW, SOCK_DGRAM, SOCK_RAW,
    SOCK_RAW, 0, 0, 0, 0, 0, 0]

/-- `spx_connect`: a connection to the X server. -/
def spxConnect (e : SocketEnv) (k : Kernel) : Int × Kernel :=
  if e.readlink < 0 ∧ e.readlink ≠ -ENOENT then (e.readlink, k)
  else
    let r := e.socket AF_UNIX SOCK_STREAM 0 k
    if r.1 < 0 then r
    else if e.connect ≠ 0 then (e.connect, r.2.close (BitVec.ofInt 32 r.1))
    else r

/-- `xti_connect`: a socket of the family and protocol the minor number names. -/
def xtiConnect (e : SocketEnv) (dev : Rdev) (k : Kernel) : Int × Kernel :=
  let family := dev.minor / 16 % 16
  if family = AF_UNIX then e.socket family SOCK_STREAM 0 k
  else if family = AF_INET.toNat then
    e.socket family (inetType.getD (dev.minor % 16) 0) (inetProt.getD (dev.minor % 16) 0) k
  else e.socket family SOCK_RAW 0 k

/-- `socksys_fdinit`. -/
def socksysFdinit (e : SocketEnv) (fd : Word) (k : Kernel) : Int × Kernel :=
  match k.fget fd with
  | none => (-EBADF, k)
  | some fp =>
    if fp.inode.rdev.minor = 0 then (-EINVAL, k)
    else
      let r := if fp.inode.rdev.minor = 1 then spxConnect e k else xtiConnect e fp.inode.rdev k
      if r.1 < 0 then r
      else
        let sockfd := BitVec.ofInt 32 r.1
        -- the socket takes the place of the device
        (1, ((inheritSocksysFuncs e.alloc sockfd .unbnd r.2).dup2 sockfd fd).close sockfd)

/-! ## `getmsg` and `putmsg` -/

/-- A system call handed on to `timod.c`. -/
abbrev Timod := Word → Kernel → Except Fault (Int × Kernel)

/-- The call is handed on if the inode is accepted. -/
def handOn (accepted : Inode → Prop) [DecidablePred accepted] (timod : Timod) (fd : Word)
    (k : Kernel) : Except Fault (Int × Kernel) :=
  match k.fget fd with
  | none => .ok (-EBADF, k)
  | some fp => if accepted fp.inode then timod fd k else .ok (-EBADF, k)

/-- `svr4_getmsg`. -/
def svr4Getmsg : Timod → Timod := handOn fun ip => ip.isSock

/-- `svr4_putmsg`. -/
def svr4Putmsg : Timod → Timod := handOn fun ip => ip.isSock ∨ ip.rdev.isSpx

namespace File

/-- `Priv(filep)->magic`. -/
def readMagic (f : File) : Except Fault Word :=
  match f.magic with
  | none => .error .null
  | some m => .ok m

/-- `!Priv(filep) && Priv(filep)->magic != XTI_MAGIC`: the second half is only
looked at when the pointer is null. -/
def notStreams (f : File) : Except Fault Bool :=
  if f.magic.isNone then f.readMagic.map fun m => decide (m ≠ XTI_MAGIC) else .ok false

/-- `do_getmsg`, with the test at its head. -/
def getmsg (e : Env) (c : GetArgs) (f : File) : Except Fault Got :=
  match f.notStreams with
  | .error fault => .error fault
  | .ok true => .ok ⟨-EINVAL, c.flags, f.sys⟩
  | .ok false =>
    match doGetmsg e c f.sys with
    | .error why => .error (.stop why)
    | .ok g => .ok g

/-- `do_putmsg`, with the test at its head. -/
def putmsg (e : Env) (c : PutArgs) (f : File) : Except Fault (Int × Sys) :=
  match f.notStreams with
  | .error fault => .error fault
  | .ok true => .ok (-EINVAL, f.sys)
  | .ok false =>
    match doPutmsg e c f.sys with
    | .error why => .error (.stop why)
    | .ok r => .ok r

/-- The first message of the queue, if there is a private block. -/
def first (f : File) : Option TPrimsg :=
  match f.magic with
  | none => none
  | some _ => f.sys.priv.pfirst.bind f.sys.heap

/-- `timod_update_socket` of the file. For a stream it reads the state in the
private block, without a look at the pointer. -/
def updateSocket (e : Env) (fd : Word) (f : File) : Except Fault File :=
  match f.magic with
  | none => if e.stream then .error .null else .ok f
  | some _ => .ok { f with sys := (timodUpdateSocket e fd f.sys).2 }

/-- The look for a connection that `I_NREAD` and `I_PEEK` begin with. -/
def looked (e : Env) (fd : Word) (f : File) : Except Fault File :=
  if f.inode.isSocksys then f.updateSocket e fd else .ok f

end File

/-! ## STREAMS ioctls -/

/-- The end of `i_nread`: the socket is asked with `TIOCINQ`. -/
def askSocket (e : Env) (inq : SockAnswer) (data : Word) (f : File) : Int × File :=
  let r := socketcall inq f.sys
  let f1 := { f with sys := r.2 }
  if r.1 = -EINVAL then (0, f1)
  else if r.1 ≠ 0 then (r.1, f1)
  else (if getUserD e r.2 data ≠ 0 then 1 else 0, f1)

/-- `i_nread`. -/
def iNread (e : Env) (inq : SockAnswer) (fd data : Word) (f : File) : Except Fault (Int × File) :=
  if ¬ e.verify true data 4 then .ok (-EFAULT, f)
  else if f.inode.isSock then
    match f.looked e fd with
    | .error fault => .error fault
    | .ok f1 =>
      match f1.first with
      | some it => .ok (1, { f1 with sys := putUser e data (BitVec.ofInt 32 it.length) f1.sys })
      | none => .ok (askSocket e inq data f1)
  else .ok (askSocket e inq data f)

/-- `put_user` where its result is looked at. -/
def putUserOr (e : Env) (a v : Word) (s : Sys) : Option Sys :=
  if e.canWrite a 4 then some (putUser e a v s) else none

/-- The part of `i_peek` that hands out the message `tp`; `s0` is user memory when
the `struct strpeek` at `uap` was read. -/
def peekAt (e : Env) (uap : Word) (s0 : Sys) (tp : TPrimsg) (f : File) : Int × File :=
  let flags := s0.mem.word (uap + 24)
  if flags = 0 ∨ flags = tp.pri.setWidth 32 then
    let maxlen := (s0.mem.word uap).toInt
    let l := if maxlen ≤ tp.length then maxlen else tp.length
    let bytes := (List.range l.toNat).map fun i => tp.body (f.sys.priv.offset.toNat + i)
    -- a negative count never stays below the user limit
    match if l < 0 then none else copyToUser e (s0.mem.word (uap + 8)) bytes f.sys with
    | none => (-EFAULT, f)
    | some s1 =>
      match putUserOr e (uap + 4) (BitVec.ofInt 32 l) s1 with
      | none => (-EFAULT, { f with sys := s1 })
      | some s2 =>
        match
          if 0 ≤ (s0.mem.word (uap + 12)).toInt then putUserOr e (uap + 16) 0 s2 else some s2 with
        | none => (-EFAULT, { f with sys := s2 })
        | some s3 =>
          match putUserOr e (uap + 24) (tp.pri.setWidth 32) s3 with
          | none => (-EFAULT, { f with sys := s3 })
          | some s4 => (1, { f with sys := s4 })
  else (-EFAULT, f)

/-- The part of `i_peek` behind the look for a connection, which left the file as
`f`. -/
def peekQueue (e : Env) (uap : Word) (s0 : Sys) (f : File) : Int × File :=
  match f.first with
  | none => (0, f)
  | some tp => peekAt e uap s0 tp f

/-- `i_peek`. -/
def iPeek (e : Env) (fd uap : Word) (f : File) : Except Fault (Int × File) :=
  if ¬ e.canRead uap 28 then .ok (-EFAULT, f)
  else if ¬ f.inode.isSock then .ok (0, f)
  else
    match f.looked e fd with
    | .error fault => .error fault
    | .ok f1 => .ok (peekQueue e uap f.sys f1)

/-- What answers a STREAMS ioctl; `other` are the commands besides `I_NREAD` and
`I_PEEK`. -/
structure StreamEnv where
  init : SocketEnv
  call : Env
  inq : SockAnswer
  other : Word → Word → Word → Kernel → Except Fault (Int × Kernel)

/-- The commands, for a file that needs no initialisation. -/
def streamCommand (e : StreamEnv) (fd cmd data : Word) (fp : File) (k : Kernel) :
    Except Fault (Int × Kernel) :=
  if cmd = 1 then
    (iNread e.call e.inq fd data fp).map fun r => (r.1, k.setFile fd r.2)
  else if cmd = 15 then
    (iPeek e.call fd data fp).map fun r => (r.1, k.setFile fd r.2)
  else e.other fd cmd data k

/-- `svr4_stream_ioctl`. -/
def svr4StreamIoctl (e : StreamEnv) (fd cmd data : Word) (k : Kernel) :
    Except Fault (Int × Kernel) :=
  match k.fget fd with
  | none => .ok (-EBADF, k)
  | some fp =>
    if ¬ fp.inode.isSock ∧ fp.inode.isSocksys then
      let r := socksysFdinit e.init fd k
      if r.1 < 0 then .ok r
      else
        match r.2.fget fd with
        | none => .ok (-EBADF, r.2)
        | some fp1 => streamCommand e fd cmd data fp1 r.2
    else streamCommand e fd cmd data fp k

/-! ## File operations -/

def POLLIN : Word := 1
def POLLPRI : Word := 2

/-- The event a queued message is reported with. -/
def TPrimsg.event (it : TPrimsg) : Word := if it.pri = MSG_HIPRI then POLLPRI else POLLIN

/-- `socksys_poll`; `mask` is what the socket itself reports. -/
def socksysPoll (mask : Word) (f : File) : Word :=
  if f.inode.isSock ∧ f.inode.rdev.minor ≠ 1 then
    match f.first with
    | none => mask
    | some it => it.event ||| mask
  else mask

/-- What is given back when a file is closed. -/
inductive Given where
  | message (a : Addr)
  | block
  | socket
  deriving DecidableEq, Repr

/-- `socksys_release`; `ret` is the answer of the socket's own `release`. The walk
over the queue is given up after `n` messages. -/
def socksysRelease (ret : Int) (n : Nat) (f : File) : Except Fault (Int × List Given) :=
  if ¬ f.inode.isSock then .ok (0, [])
  else
    match f.magic with
    | none => .ok (ret, [.socket])
    | some _ =>
      match freeAll TPrimsg.next n f.sys.heap f.sys.priv.pfirst with
      | none => .error (.stop .loop)
      | some l => .ok (ret, l.map .message ++ [.block, .socket])

namespace File

/-- `fp->f_op->poll`. -/
def poll (mask : Word) (f : File) : Word :=
  match f.fop with
  | .socket => mask
  | .socksys | .socksysSocket => socksysPoll mask f

/-- `fp->f_op->release`. -/
def release (ret : Int) (n : Nat) (f : File) : Except Fault (Int × List Given) :=
  match f.fop with
  | .socket => .ok (ret, [.socket])
  | .socksys | .socksysSocket => socksysRelease ret n f

end File

/-! ## The table -/

namespace Kernel

variable {k : Kernel} {fd : Word} {f g : File}

@[simp] theorem fget_setFile (h : k.fget fd = some f) : (k.setFile fd g).fget fd = some g := by
  obtain ⟨i, hi, -⟩ := Option.map_eq_some_iff.mp h
  unfold setFile fget
  rw [hi]
  dsimp only
  rw [hi, Option.map_some, Function.update_self]

end Kernel

/-- The file behind the descriptor after the set-up. -/
theorem fget_inherit {k : Kernel} {fd : Word} {f : File} (h : k.fget fd = some f) (alloc : Bool)
    (state : TState) :
    (inheritSocksysFuncs alloc fd state k).fget fd = some (f.inherit alloc state) := by
  unfold inheritSocksysFuncs
  rw [h]
  exact Kernel.fget_setFile h

end AbiEmu.Xti
