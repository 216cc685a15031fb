import AbiEmu.Lcall7.Dispatch
import AbiEmu.Lib.Chain

/-!
# Transport endpoints (`include/abi/tli.h`)

An endpoint is a socket with a `struct T_private`: the TLI state, a queue of
control messages for the user, and the position up to which the first of them
has been read. The queue is a linked list of `struct T_primsg` blocks from
`kmalloc`; the message itself starts at the block's `type` field.

`Core` is the kernel side of an endpoint: the private block and the message
blocks. Two of its fields are for specification only and no operation reads
them: `queued` lists the messages as they entered the queue and `delivered` the
pieces copied out to the user; `serial` links a block to its position in
`queued`. `Sys` adds what the operations touch on the user's side: user memory,
the stack pointer they borrow scratch space from, the file flags they change
around socket calls, and the descriptors they close or duplicate.

Everything outside the emulation answers through an `Env`, one for each call:
which user bytes fault, what `kmalloc` returns, what the socket layer says. A
`kmalloc` answer is a block the allocator offers; it is taken only if the size
is one `kmalloc` can serve and the block is not in use.
-/

namespace AbiEmu.Xti

open Lcall7 (Personality iABIErrors)

/-- The kernel address of a message block. -/
abbrev Addr := Nat

/-- `struct T_primsg`; `body` are the bytes from `type` on. -/
structure TPrimsg where
  next : Option Addr
  pri : Byte
  length : Int
  body : Nat → Byte
  /-- The message's position in `Sys.queued`. -/
  serial : Nat

/-- The states of an endpoint. -/
inductive TState where
  | unbnd | wackBreq | wackUreq | idle | wackOptreq | wackCreq | wconCreq | wresCind | wackCres
  | dataXfer | windOrdrel | wreqOrdrel | wackDreq6 | wackDreq7 | wackDreq9 | wackDreq10
  | wackDreq11
  deriving DecidableEq, Repr

/-- `struct T_private`. -/
structure TPrivate where
  state : TState
  offset : Int
  pfirst : Option Addr
  plast : Option Addr
  deriving DecidableEq, Repr

/-- A piece of a control message copied out by `do_getmsg`, with its result. -/
structure Chunk where
  serial : Nat
  bytes : List Byte
  ret : Int
  deriving DecidableEq, Repr

/-- Descriptor calls made on behalf of the user. -/
inductive FdOp where
  | close (fd : Word)
  | dup2 (old new : Word)
  deriving DecidableEq, Repr

/-- The kernel side of an endpoint: its private block, the message blocks, and
the history of the queue. -/
structure Core where
  priv : TPrivate
  heap : Addr → Option TPrimsg
  /-- The messages in the order in which they entered the queue. -/
  queued : List TPrimsg
  /-- The pieces copied out, in order. -/
  delivered : List Chunk

/-- An endpoint and the user side its operations touch. -/
structure Sys extends Core where
  mem : Mem
  esp : Word
  fflags : Word
  fdOps : List FdOp

/-- The socket calls an endpoint makes. -/
inductive SockCall where
  | bind | listen | connect | accept | send | sendto | recvfrom
  deriving DecidableEq, Repr

/-- The result of a socket call and what it does to user memory. -/
structure SockAnswer where
  result : Int
  effect : Mem → Mem

/-- A free block and its old contents. -/
structure Block where
  addr : Addr
  junk : TPrimsg

/-- The answers a call gets from outside. -/
structure Env where
  /-- `verify_area` (for writing, or for reading) accepts the range. -/
  verify : Bool → Word → Int → Bool
  readable : Word → Bool
  writable : Word → Bool
  /-- `kmalloc` for the message of the request itself. -/
  ctlAlloc : Option Block
  /-- `kmalloc` in `timod_ok` or `timod_error`. -/
  ackAlloc : Option Block
  socket : SockCall → SockAnswer
  /-- `setsockopt` and `getsockopt` in the `i`-th round of an option list. -/
  setsockopt : Nat → SockAnswer
  getsockopt : Nat → SockAnswer
  /-- Rounds of the option loop before the run is given up. -/
  rounds : Nat
  dup2 : Int
  /-- The socket is a `SOCK_STREAM`. -/
  stream : Bool
  /-- A signal ends the wait of a blocking call. -/
  signalPending : Bool
  /-- `MINOR(ino->i_rdev)`. -/
  minor : Nat
  personality : Personality
  /-- `is_cur_personality(PER_SVR4)`. -/
  perSvr4 : Bool

/-- Why an operation does not come back: it linked a message behind a last
message that is not there, it used a first message that is not there, it went
through a descriptor it had closed, or its loop did not end. -/
inductive Stop where
  | noTail
  | noHead
  | noFile
  | loop
  deriving DecidableEq, Repr

abbrev Res (α : Type) := Except Stop α

section

variable {ε α β : Type} {a a' : α} {b b' : β} (h : (.ok (a, b) : Except ε (α × β)) = .ok (a', b'))

include h

/-- A call that returned, with what it returned and what it left. -/
theorem ok_inj : a = a' ∧ b = b' :=
  Prod.mk.inj (Except.ok.inj h)

/-- What holds of the pair a call ends with holds of the one it returned. -/
@[elab_as_elim] theorem of_ok {P : α → β → Prop} (hab : P a b) : P a' b' := by
  obtain ⟨rfl, rfl⟩ := ok_inj h
  exact hab

end

/-! ## Constants -/

def T_CONN_REQ : Word := 0
def T_CONN_RES : Word := 1
def T_DISCON_REQ : Word := 2
def T_DATA_REQ : Word := 3
def T_INFO_REQ : Word := 5
def T_BIND_REQ : Word := 6
def T_UNBIND_REQ : Word := 7
def T_UNITDATA_REQ : Word := 8
def T_OPTMGMT_REQ : Word := 9
def T_ORDREL_REQ : Word := 10
def T_CONN_IND : Word := 11
def T_CONN_CON : Word := 12
def T_DISCON_IND : Word := 13
def T_INFO_ACK : Word := 16
def T_BIND_ACK : Word := 17
def T_ERROR_ACK : Word := 18
def T_OK_ACK : Word := 19
def T_UNITDATA_IND : Word := 20
def T_OPTMGMT_ACK : Word := 22

def TBADOPT : Int := 2
def TACCES : Int := 3
def TNOADDR : Int := 5
def TOUTSTATE : Int := 6
def TBADSEQ : Int := 7
def TSYSERR : Int := 8
def TNOTSUPPORT : Int := 18

def T_NEGOTIATE : Word := 4

def MSG_HIPRI : Byte := 1
def MORECTL : Int := 1

def EINTR : Int := 4
def EAGAIN : Int := 11
def ENOMEM : Int := 12
def EACCES : Int := 13
def EFAULT : Int := 14
def EINVAL : Int := 22
def EADDRINUSE : Int := 98
def EADDRNOTAVAIL : Int := 99

def O_NONBLOCK : Word := 0x800

/-- The largest request `kmalloc` serves. -/
def kmallocMax : Int := 131072

/-- The number of a state. -/
def TState.toWord : TState → Word
  | .unbnd => 0 | .wackBreq => 1 | .wackUreq => 2 | .idle => 3 | .wackOptreq => 4
  | .wackCreq => 5 | .wconCreq => 6 | .wresCind => 7 | .wackCres => 8 | .dataXfer => 9
  | .windOrdrel => 10 | .wreqOrdrel => 11 | .wackDreq6 => 12 | .wackDreq7 => 13
  | .wackDreq9 => 14 | .wackDreq10 => 15 | .wackDreq11 => 16

/-! ## User memory -/

/-- The bytes `[a, a + n)` can be read. -/
def Env.canRead (e : Env) (a : Word) (n : Nat) : Bool :=
  (List.range n).all fun i => e.readable (a + BitVec.ofNat 32 i)

/-- The bytes `[a, a + n)` can be written. -/
def Env.canWrite (e : Env) (a : Word) (n : Nat) : Bool :=
  (List.range n).all fun i => e.writable (a + BitVec.ofNat 32 i)

/-- `get_user` of a word; `none` is a fault. -/
def getUser (e : Env) (s : Sys) (a : Word) : Option Word :=
  if e.canRead a 4 then some (s.mem.word a) else none

/-- The variable a `get_user` fills when its result is not looked at. -/
def getUserD (e : Env) (s : Sys) (a : Word) : Word := (getUser e s a).getD 0

/-- `put_user` of a word; the operations never look at its result. -/
def putUser (e : Env) (a v : Word) (s : Sys) : Sys :=
  if e.canWrite a 4 then { s with mem := s.mem.store a v.bytes } else s

/-- `get_user` of a 16-bit value. -/
def getUser16 (e : Env) (s : Sys) (a : Word) : BitVec 16 :=
  if e.canRead a 2 then s.mem (a + 1) ++ s.mem a else 0

/-- `put_user` of a 16-bit value. -/
def putUser16 (e : Env) (a : Word) (v : BitVec 16) (s : Sys) : Sys :=
  if e.canWrite a 2 then
    { s with mem := s.mem.store a [v.extractLsb' 0 8, v.extractLsb' 8 8] }
  else s

/-- `copy_from_user`; `none` is a fault. A negative count is a huge unsigned one,
which never stays below the user limit. -/
def copyFromUser (e : Env) (s : Sys) (a : Word) (n : Int) : Option (List Byte) :=
  if 0 ≤ n ∧ e.canRead a n.toNat then some (s.mem.bytes a n.toNat) else none

/-- `copy_to_user`; `none` is a fault. -/
def copyToUser (e : Env) (a : Word) (bs : List Byte) (s : Sys) : Option Sys :=
  if e.canWrite a bs.length then some { s with mem := s.mem.store a bs } else none

/-- The arguments of a socket call, stored from `tsp` on. -/
def putArgs (e : Env) (tsp : Word) (args : List Word) (s : Sys) : Sys :=
  (args.zipIdx).foldl (fun s v => putUser e (tsp + BitVec.ofNat 32 (4 * v.2)) v.1 s) s

/-- A socket call. -/
def socketcall (a : SockAnswer) (s : Sys) : Int × Sys :=
  (a.result, { s with mem := a.effect s.mem })

/-- The bytes `[off, off + bs.length)` of a block replaced by `bs`. -/
def overlay (b : Nat → Byte) (off : Nat) (bs : List Byte) : Nat → Byte :=
  fun i => if off ≤ i then bs.getD (i - off) (b i) else b i

/-- The message of a block: its `length` bytes from `type` on. -/
def TPrimsg.payload (n : TPrimsg) : List Byte :=
  (List.range n.length.toNat).map n.body

/-- The `type` of a block. -/
def TPrimsg.type (n : TPrimsg) : Word := n.body 3 ++ n.body 2 ++ n.body 1 ++ n.body 0

end AbiEmu.Xti
