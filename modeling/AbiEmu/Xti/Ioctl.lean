import AbiEmu.Xti.Getmsg
import AbiEmu.Xti.Putmsg

/-!
# `timod_ioctl` and the operations of an endpoint (`abi/svr4/xti.c`)

The `timod` ioctls are the older interface to the same requests: `TI_BIND` and
`TI_OPTMGMT` put the user's message with `do_putmsg` and fetch the answers with
`do_getmsg`; `TI_UNBIND` changes the state directly. Errors are returned as a
TLI error with a Unix error in the next byte.

`Op` collects everything that can happen to an endpoint, with the answers each
call gets, and `Op.step` is one such operation. A run is a list of operations
from the state `inherit_socksys_funcs` sets up.
-/

namespace AbiEmu.Xti

/-- `(-error << 8) | TSYSERR` as a result word. -/
def sysErr (error : Int) : Int :=
  (((BitVec.ofInt 32 (-error)) <<< 8) ||| BitVec.ofInt 32 TSYSERR).toInt

/-- The error in a `T_ERROR_ACK` at `arg`. -/
def ackErr (e : Env) (arg : Word) (s : Sys) : Int :=
  (((getUserD e s (arg + 12)) <<< 8) ||| getUserD e s (arg + 8)).toInt

/-- The arguments of `timod_ioctl`. -/
structure IoctlArgs where
  fd : Word
  func : Nat
  arg : Word
  len : Int
  lenP : Word

/-- The answers an ioctl gets: its own, and those of the calls it makes. A
`T_CONN_RES` can put another endpoint behind the descriptor; `other` and
`other'` are what `do_getmsg` then does there. -/
structure IoctlEnv where
  own : Env
  put : Env
  get : Env
  get' : Env
  other : SockAnswer
  other' : SockAnswer

/-- The `do_putmsg` an ioctl makes. -/
def IoctlArgs.putArgs (c : IoctlArgs) : PutArgs := ⟨c.fd, c.arg, c.len, 0, -1, 0⟩

/-- The `do_getmsg` an ioctl makes. -/
def IoctlArgs.getArgs (c : IoctlArgs) : GetArgs := ⟨c.fd, c.arg, c.len, c.lenP, 0, -1, 0, 1⟩

/-- The `T_INFO_ACK` of an endpoint. -/
def infoAck (e : Env) (s : Sys) : List Word :=
  let addrSize : Word := match (e.minor / 16) % 16 with
    | 1 => 110
    | 2 => 16
    | _ => 1024
  let tsdu : Word := if e.stream then 0 else 16384
  let etsdu : Word := if e.stream then 1 else BitVec.ofInt 32 (-2)
  let serv : Word := if e.stream then 2 else 3
  [T_INFO_ACK, tsdu, etsdu, BitVec.ofInt 32 (-2), BitVec.ofInt 32 (-2), addrSize,
    BitVec.ofInt 32 (-1), 16384, serv, s.priv.state.toWord, 0]

/-- Before SVR4 the last word of a `T_INFO_ACK` was missing. -/
def infoSize (func : Nat) : Nat := if func = 140 then 44 else 40

/-- `TI_GETINFO`. -/
def tiGetinfo (e : Env) (c : IoctlArgs) (s : Sys) : Int × Sys :=
  let size := infoSize (c.func % 256)
  if ¬ e.verify true c.arg size then (sysErr (-EFAULT), s)
  else if getUserD e s c.arg ≠ T_INFO_REQ then (sysErr (-EINVAL), s)
  else
    match copyToUser e c.arg (((infoAck e s).flatMap Word.bytes).take size) s with
    | none => (-EFAULT, s)
    | some s1 => (0, putUser e c.lenP (BitVec.ofNat 32 size) s1)

theorem tiGetinfo_toCore (e : Env) (c : IoctlArgs) (s : Sys) :
    (tiGetinfo e c s).2.toCore = s.toCore := by
  unfold tiGetinfo
  dsimp only
  split
  · rfl
  · split
    · rfl
    · split
      · rfl
      next s1 hcopy => rw [putUser_toCore, copyToUser_toCore hcopy]

/-- What is behind the descriptor of a request once it has been put. -/
inductive Behind where
  | same
  | other
  | closed
  deriving DecidableEq, Repr

/-- What a request that returned 0 leaves behind its descriptor. -/
def behind (e : Env) (c : PutArgs) (s : Sys) : Behind :=
  let cmd := getUser e s c.ctlBuf
  if cmd = some T_CONN_RES then
    let connFd := getUser e s (c.ctlBuf + 16)
    if connFd = some c.flags then .same
    else if c.flags = c.fd then .other
    else if connFd = some c.fd then .closed
    else .same
  else if cmd = some T_DISCON_REQ then
    if getUser e s (c.ctlBuf + 4) = some c.fd then .closed else .same
  else if cmd = some T_ORDREL_REQ then .closed
  else .same

/-- The `do_getmsg` of an ioctl, on what is behind its descriptor. -/
def ioctlGetmsg (b : Behind) (e : Env) (other : SockAnswer) (c : GetArgs) (s : Sys) : Res Got :=
  match b with
  | .same => doGetmsg e c s
  | .other => .ok ⟨other.result, c.flags, { s with mem := other.effect s.mem }⟩
  | .closed => .error .noFile

/-- `TI_BIND` once the request has been put: the acknowledgement, then the answer. -/
def tiBindGet (e : IoctlEnv) (c : IoctlArgs) (b : Behind) (s : Sys) : Res (Int × Sys) :=
  match ioctlGetmsg b e.get e.other c.getArgs s with
  | .error stop => .error stop
  | .ok g =>
    let prim := getUserD e.own g.sys c.arg
    if g.ret ≠ 0 then .ok (sysErr g.ret, g.sys)
    else if prim = T_ERROR_ACK then .ok (ackErr e.own c.arg g.sys, g.sys)
    else if prim ≠ T_OK_ACK then .ok (TBADSEQ, g.sys)
    else
      match ioctlGetmsg b e.get' e.other' c.getArgs g.sys with
      | .error stop => .error stop
      | .ok g' => .ok (if g'.ret ≠ 0 then sysErr g'.ret else 0, g'.sys)

/-- What `TI_OPTMGMT` returns when `do_getmsg` returned `ret`. -/
def optmgmtResult (e : Env) (c : IoctlArgs) (ret : Int) (s : Sys) : Int :=
  if ret < 0 then sysErr ret
  else if getUserD e s c.arg = T_ERROR_ACK then ackErr e c.arg s
  else 0

/-- `TI_OPTMGMT` once the request has been put. An answer that does not fit is
cut off: the first message of the endpoint the ioctl was made on is dropped. -/
def tiOptmgmtGet (e : IoctlEnv) (c : IoctlArgs) (b : Behind) (s : Sys) : Res (Int × Sys) :=
  match ioctlGetmsg b e.get e.other c.getArgs s with
  | .error stop => .error stop
  | .ok g =>
    if 0 < g.ret then
      match g.sys.dropHead with
      | .error stop => .error stop
      | .ok k => .ok (optmgmtResult e.own c g.ret g.sys, { g.sys with toCore := k })
    else .ok (optmgmtResult e.own c g.ret g.sys, g.sys)

/-- `TI_BIND` and `TI_OPTMGMT`: put the request, then `rest`. -/
def tiRequest (e : IoctlEnv) (c : IoctlArgs) (rest : Behind → Sys → Res (Int × Sys)) (s : Sys) :
    Res (Int × Sys) :=
  match doPutmsg e.put c.putArgs s with
  | .error stop => .error stop
  | .ok (error, s1) =>
    if error ≠ 0 then .ok (sysErr error, s1) else rest (behind e.put c.putArgs s) s1

/-- `TI_BIND`. -/
def tiBind (e : IoctlEnv) (c : IoctlArgs) (s : Sys) : Res (Int × Sys) :=
  tiRequest e c (tiBindGet e c) s

/-- `TI_OPTMGMT`. -/
def tiOptmgmt (e : IoctlEnv) (c : IoctlArgs) (s : Sys) : Res (Int × Sys) :=
  tiRequest e c (tiOptmgmtGet e c) s

/-- `TI_UNBIND`. -/
def tiUnbind (s : Sys) : Int × Sys :=
  if s.priv.state ≠ .idle then (TOUTSTATE, s) else (0, s.setState .unbnd)

/-- The number of an ioctl. The pre-SVR4 functions start at 100, the SVR4 ones at
140. -/
def ioctlNumber (func : Nat) : Int :=
  if 140 ≤ func % 256 then (func % 256 : Nat) - 140 else (func % 256 : Nat) - 100

/-- `timod_ioctl`. -/
def timodIoctl (e : IoctlEnv) (c : IoctlArgs) (s : Sys) : Res (Int × Sys) :=
  if ¬ e.own.verify true c.lenP 4 then .ok (sysErr (-EFAULT), s)
  else if ioctlNumber c.func = 0 then .ok (tiGetinfo e.own c s)
  else if ioctlNumber c.func = 1 then tiOptmgmt e c s
  else if ioctlNumber c.func = 2 then tiBind e c s
  else if ioctlNumber c.func = 3 then .ok (tiUnbind s)
  else .ok (TNOTSUPPORT, s)

/-! ## Runs -/

/-- What can happen to an endpoint. -/
inductive Op where
  | putmsg (e : Env) (c : PutArgs)
  | getmsg (e : Env) (c : GetArgs)
  | ioctl (e : IoctlEnv) (c : IoctlArgs)
  | updateSocket (e : Env) (fd : Word)

/-- One operation: its result and the endpoint afterwards. -/
def Op.step (op : Op) (s : Sys) : Res (Int × Sys) :=
  match op with
  | .putmsg e c => doPutmsg e c s
  | .getmsg e c =>
    match doGetmsg e c s with
    | .error stop => .error stop
    | .ok g => .ok (g.ret, g.sys)
  | .ioctl e c => timodIoctl e c s
  | .updateSocket e fd => .ok (timodUpdateSocket e fd s)

theorem step_getmsg {e : Env} {c : GetArgs} {s t : Sys} {r : Int}
    (h : (Op.getmsg e c).step s = .ok (r, t)) : ∃ g, doGetmsg e c s = .ok g ∧ g.sys = t := by
  unfold Op.step at h
  dsimp only at h
  split at h
  · simp at h
  next g hg => exact ⟨g, hg, (ok_inj h).2⟩

theorem step_updateSocket {e : Env} {fd : Word} {s t : Sys} {r : Int}
    (h : (Op.updateSocket e fd).step s = .ok (r, t)) : (timodUpdateSocket e fd s).2 = t :=
  congrArg Prod.snd (Except.ok.inj h)

/-- The request an operation puts with `do_putmsg`, if it gets that far. -/
def Op.request : Op → Option (Env × PutArgs)
  | .putmsg e c => some (e, c)
  | .ioctl e c =>
    if e.own.verify true c.lenP 4 ∧ (ioctlNumber c.func = 1 ∨ ioctlNumber c.func = 2) then
      some (e.put, c.putArgs)
    else none
  | _ => none

/-- The endpoint `inherit_socksys_funcs` sets up with state `st`, at the start of
its history. -/
def Sys.Fresh (st : TState) (s : Sys) : Prop :=
  s.priv = ⟨st, 0, none, none⟩ ∧ s.queued = [] ∧ s.delivered = []

/-! ## Concrete endpoints

A few values for evaluating the model: an environment whose user accesses and
socket calls all succeed, a free block, and a new endpoint whose user has a
request at `0x1000`. -/

/-- Everything but `kmalloc` succeeds. -/
def plainEnv : Env where
  verify _ _ _ := true
  readable _ := true
  writable _ := true
  ctlAlloc := none
  ackAlloc := none
  socket _ := ⟨0, id⟩
  setsockopt _ := ⟨0, id⟩
  getsockopt _ := ⟨0, id⟩
  rounds := 0
  dup2 := 0
  stream := false
  signalPending := false
  minor := 0
  personality := .sco
  perSvr4 := false

/-- A free block at `a`. -/
def freeBlock (a : Addr) : Block := ⟨a, ⟨none, 0, 0, fun _ => 0, 0⟩⟩

/-- A new endpoint, and a request in user memory. -/
def endpoint (st : TState) (request : List Word) : Sys where
  priv := ⟨st, 0, none, none⟩
  heap _ := none
  queued := []
  delivered := []
  mem := Mem.store (fun _ => 0) 0x1000 (request.flatMap Word.bytes)
  esp := 0x8000
  fflags := 0
  fdOps := []

theorem endpoint_fresh (st : TState) (request : List Word) : (endpoint st request).Fresh st :=
  ⟨rfl, rfl, rfl⟩

/-- `do_putmsg` of the `len` bytes at `0x1000`. -/
def putAt (len : Int) : PutArgs := ⟨3, 0x1000, len, 0, -1, 0⟩

/-- `do_getmsg` of at most `maxlen` bytes of a control message. -/
def getAt (maxlen : Int) : GetArgs := ⟨3, 0x2000, maxlen, 0x3000, 0, -1, 0, 0⟩

end AbiEmu.Xti
