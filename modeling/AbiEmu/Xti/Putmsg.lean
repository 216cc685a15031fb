import AbiEmu.Xti.Queue

/-!
# `do_putmsg` and `timod_optmgmt` (`abi/svr4/xti.c`)

A user's request is a control message whose first word names the primitive.
Most requests borrow scratch space below the user's stack pointer to build the
argument list of a socket call, and answer through the queue: `timod_ok` or
`timod_error`, followed for `T_BIND_REQ` and `T_CONN_REQ` by a second message
linked at the tail.

The model follows the order of the source closely where a step can fail, since
what has been done before a failure stays done: the endpoint's state after a
successful socket call, the stack pointer on some returns, and blocks that were
allocated but not yet linked.
-/

namespace AbiEmu.Xti

open Lcall7 (iABIErrors)

/-- The arguments of `do_putmsg`. -/
structure PutArgs where
  fd : Word
  ctlBuf : Word
  ctlLen : Int
  datBuf : Word
  datLen : Int
  flags : Word

/-- `ntohs`. -/
def swap16 (v : BitVec 16) : BitVec 16 := v.extractLsb' 0 8 ++ v.extractLsb' 8 8

/-- The address family is stored with its bytes swapped. -/
def swapped (family : BitVec 16) : Bool := family ≠ 0 ∧ family &&& 0x00ff = 0

/-- For TLI the length of an address may be the 8 bytes in use, for a socket it
is all 16. -/
def addrLength (len : Word) : Word := if len = 8 then 16 else len

/-- The state of an endpoint set to `st`. -/
def Sys.setState (st : TState) (s : Sys) : Sys := { s with toCore := s.toCore.setState st }

/-- The address family at `sin`, swapped back in place if its bytes are swapped. -/
def fixFamily (e : Env) (sin : Word) (s : Sys) : Sys :=
  let family := getUser16 e s sin
  if swapped family then putUser16 e sin (swap16 family) s else s

/-! ## `T_BIND_REQ` -/

/-- The `bind` of a request. -/
def bindCall (e : Env) (c : PutArgs) (tsp addrLen addrOff : Word) (s : Sys) : Int × Sys :=
  let sin := c.ctlBuf + addrOff
  socketcall (e.socket .bind) (putArgs e tsp [c.fd, sin, addrLength addrLen] (fixFamily e sin s))

/-- The `listen` of a request. -/
def listenCall (e : Env) (c : PutArgs) (tsp conind : Word) (s : Sys) : Int × Sys :=
  socketcall (e.socket .listen) (putArgs e tsp [c.fd, conind] s)

/-- The socket calls of a bind request with an address. A successful bind
listens if the request asks for it, without looking at the result. -/
def bindAddress (e : Env) (c : PutArgs) (tsp addrLen addrOff conind : Word) (s : Sys) :
    Int × Sys :=
  let r := bindCall e c tsp addrLen addrOff s
  if r.1 ≠ 0 then r
  else if conind ≠ 0 then (0, (listenCall e c tsp conind r.2).2.setState .wresCind)
  else (0, r.2.setState .idle)

/-- The TLI and Unix errors of a failed bind. -/
def bindErrors (error : Int) : Int × Int :=
  if error = -EINVAL then (TOUTSTATE, 0)
  else if error = -EACCES then (TACCES, 0)
  else if error = -EADDRNOTAVAIL ∨ error = -EADDRINUSE then (TNOADDR, 0)
  else (TSYSERR, -error)

/-- A block that holds the request's own bytes under the type `prim`. -/
def Block.echo (b : Block) (req : List Byte) (prim : Word) (pri : Byte) (len : Int) : TPrimsg :=
  { b.junk with
    body := overlay (overlay b.junk.body 0 req) 0 prim.bytes
    pri := pri
    length := len }

/-- `timod_ok`, then the block `n` at the tail. -/
def answer (e : Env) (prim : Word) (a : Addr) (n : TPrimsg) (s : Sys) : Res (Int × Sys) :=
  match (s.toCore.timodOk e.ackAlloc prim).appendTail a n with
  | .error stop => .error stop
  | .ok k => .ok (0, { s with toCore := k })

/-- The reply of a bind request whose socket calls returned `error`. -/
def bindReply (e : Env) (c : PutArgs) (error : Int) (s : Sys) : Res (Int × Sys) :=
  let refuse (s : Sys) :=
    timodError e T_BIND_REQ (bindErrors error).1 (bindErrors error).2 s
  if error ≠ 0 then .ok (0, refuse s)
  else
    match s.timodMkctl e.ctlAlloc c.ctlLen with
    | none => .ok (0, refuse s)
    | some (b, k) =>
      match copyFromUser e s c.ctlBuf c.ctlLen with
      | none => .ok (-EFAULT, { s with toCore := k })
      | some req =>
        answer e T_BIND_REQ b.addr (b.echo req T_BIND_ACK MSG_HIPRI c.ctlLen) { s with toCore := k }

/-- `T_BIND_REQ`. -/
def bindReq (e : Env) (c : PutArgs) (s : Sys) : Res (Int × Sys) :=
  if ¬ e.verify false c.ctlBuf 16 then .ok (-EFAULT, s)
  else if s.priv.state ≠ .unbnd then .ok (0, timodError e T_BIND_REQ TOUTSTATE 0 s)
  else
    let tsp := s.esp - 1024
    if ¬ e.verify true tsp 12 then .ok (0, timodError e T_BIND_REQ TSYSERR EFAULT s)
    else if (copyFromUser e s c.ctlBuf 16).isNone then .ok (-EFAULT, { s with esp := tsp })
    else
      let addrLen := s.mem.word (c.ctlBuf + 4)
      let addrOff := s.mem.word (c.ctlBuf + 8)
      let conind := s.mem.word (c.ctlBuf + 12)
      let s1 := { s with esp := tsp }
      let r :=
        if addrOff ≠ 0 ∧ addrLen ≠ 0 then bindAddress e c tsp addrLen addrOff conind s1 else (0, s1)
      bindReply e c r.1 { r.2 with esp := s.esp }

/-! ## `T_CONN_RES` and `T_CONN_REQ` -/

/-- `T_CONN_RES`. When the connection is duplicated onto the endpoint's own
descriptor, the acknowledgement goes to the endpoint that has it now; when the
connection is the endpoint's own descriptor, that is closed before `timod_ok`
goes through it. -/
def connRes (e : Env) (c : PutArgs) (s : Sys) : Res (Int × Sys) :=
  match getUser e s (c.ctlBuf + 16) with
  | none => .ok (-EFAULT, s)
  | some connFd =>
    if connFd = c.flags then .ok (0, timodOk e T_CONN_RES s)
    else
      let s1 := { s with fdOps := s.fdOps ++ [.dup2 connFd c.flags, .close connFd] }
      if e.dup2 < 0 then .ok (e.dup2, s1)
      else if c.flags = c.fd then .ok (0, s1)
      else if connFd = c.fd then
        if (s1.timodMkctl e.ackAlloc 8).isSome then .error .noFile else .ok (0, s1)
      else .ok (0, timodOk e T_CONN_RES s1)

/-- `AF_INET`. -/
def AF_INET : BitVec 16 := 2

/-- One personality's programs give a port with its bytes swapped. -/
def fixPort (e : Env) (sin : Word) (family : BitVec 16) (s : Sys) : Sys :=
  if e.perSvr4 ∧ family = AF_INET ∧ getUser16 e s (sin + 2) = 0x1770 then
    putUser16 e (sin + 2) (swap16 0x1770) s
  else s

/-- The argument list of `connect` and the changes made to the address first. -/
def connectArgs (e : Env) (c : PutArgs) (tsp destLen destOff : Word) (s : Sys) : Sys :=
  let sin := c.ctlBuf + destOff
  let s1 := putArgs e tsp [c.fd, sin, addrLength destLen] s
  let family := getUser16 e s1 sin
  fixPort e sin (if swapped family then swap16 family else family) (fixFamily e sin s1)

/-- `connect`, made to block. -/
def connectCall (e : Env) (s : Sys) : Int × Sys :=
  let oldflags := s.fflags.setWidth 16
  let r := socketcall (e.socket .connect) { s with fflags := s.fflags &&& ~~~O_NONBLOCK }
  (r.1, { r.2 with fflags := oldflags.setWidth 32 })

/-- The reply of a connect request whose socket call returned `error`. -/
def connReply (e : Env) (c : PutArgs) (error : Int) (s : Sys) : Res (Int × Sys) :=
  if error = 0 then
    match s.timodMkctl e.ctlAlloc c.ctlLen with
    | none => .ok (-ENOMEM, s)
    | some (b, k) =>
      match copyFromUser e s c.ctlBuf c.ctlLen with
      | none => .ok (-EFAULT, { s with toCore := k })
      | some req =>
        answer e T_CONN_REQ b.addr (b.echo req T_CONN_CON 0 c.ctlLen)
          (Sys.setState .dataXfer { s with toCore := k })
  else
    match s.timodMkctl e.ctlAlloc 12 with
    | none => .ok (-ENOMEM, s)
    | some (b, k) =>
      answer e T_CONN_REQ b.addr
        { b.filled [T_DISCON_IND, BitVec.ofInt 32 (iABIErrors e.personality (-error)), 0] with
          pri := 0 }
        { s with toCore := k }

/-- `T_CONN_REQ`. -/
def connReq (e : Env) (c : PutArgs) (s : Sys) : Res (Int × Sys) :=
  if ¬ e.verify false c.ctlBuf 20 then .ok (-EFAULT, s)
  else if s.priv.state ≠ .unbnd ∧ s.priv.state ≠ .idle then
    .ok (0, timodError e T_CONN_REQ TOUTSTATE 0 s)
  else
    let tsp := s.esp - 1024
    if ¬ e.verify true tsp 12 then .ok (0, timodError e T_CONN_REQ TSYSERR EFAULT s)
    else if (copyFromUser e s c.ctlBuf 20).isNone then .ok (-EFAULT, { s with esp := tsp })
    else
      let destLen := s.mem.word (c.ctlBuf + 4)
      let destOff := s.mem.word (c.ctlBuf + 8)
      let r := connectCall e (connectArgs e c tsp destLen destOff { s with esp := tsp })
      connReply e c r.1 { r.2 with esp := s.esp }

/-! ## Data and release requests -/

/-- `T_ORDREL_REQ`, and the end of `T_DISCON_REQ`. -/
def closeReq (fd : Word) (s : Sys) : Int × Sys :=
  (0, { s with fdOps := s.fdOps ++ [.close fd] })

/-- `T_DISCON_REQ`. -/
def disconReq (e : Env) (c : PutArgs) (s : Sys) : Int × Sys :=
  match getUser e s (c.ctlBuf + 4) with
  | none => (-EFAULT, s)
  | some fd => closeReq fd s

/-- `T_DATA_REQ`. -/
def dataReq (e : Env) (c : PutArgs) (s : Sys) : Int × Sys :=
  if s.priv.state ≠ .dataXfer then (0, s)
  else
    let tsp := s.esp - 1024
    if ¬ e.verify true tsp 24 then (0, s)
    else
      let s1 := putArgs e tsp [c.fd, c.datBuf, BitVec.ofInt 32 c.datLen, 0] { s with esp := tsp }
      let r := socketcall (e.socket .send) s1
      (r.1, { r.2 with esp := s.esp })

/-- `T_UNITDATA_REQ`. -/
def unitdataReq (e : Env) (c : PutArgs) (s : Sys) : Int × Sys :=
  if ¬ e.verify false c.ctlBuf 20 then (-EFAULT, s)
  else if s.priv.state ≠ .idle ∧ s.priv.state ≠ .dataXfer then
    (0, timodError e T_UNITDATA_REQ TOUTSTATE 0 s)
  else
    let tsp := s.esp - 1024
    if ¬ e.verify true tsp 24 then (0, timodError e T_UNITDATA_REQ TSYSERR EFAULT s)
    else
      let s1 := putArgs e tsp [c.fd, c.datBuf, BitVec.ofInt 32 c.datLen, 0] { s with esp := tsp }
      if (copyFromUser e s1 c.ctlBuf 20).isNone then (-EFAULT, s1)
      else
        let destLen := s1.mem.word (c.ctlBuf + 4)
        let destOff := s1.mem.word (c.ctlBuf + 8)
        if 0 < destLen.toInt then
          let s2 := putUser e (tsp + 20) destLen (putUser e (tsp + 16) (c.ctlBuf + destOff) s1)
          let r := socketcall (e.socket .sendto) s2
          (r.1, { r.2 with esp := s.esp })
        else
          let r := socketcall (e.socket .send) s1
          (r.1, { r.2 with esp := s.esp })

/-! ## `timod_optmgmt` -/

/-- Where the option loop stands: the rest of the request, and the reply so far. -/
structure OptState where
  optBuf : Word
  optLen : Word
  retBuf : Word
  retLen : Word
  retSpace : Word

/-- How the option loop ends: with a fault that makes the function return, or
with `failed`, `error` and the length of the reply. -/
inductive OptEnd where
  | fault (s : Sys)
  | done (failed error : Int) (retLen : Word) (s : Sys)

/-- The endpoint's side when the loop ends. -/
def OptEnd.sys : OptEnd → Sys
  | .fault s => s
  | .done _ _ _ s => s

/-- Set the option `[level, name, len]` of the request, if it is to be negotiated. -/
def setOption (e : Env) (fd flag tsp : Word) (i : Nat) (o : OptState) (level name len : Word)
    (s : Sys) : Int × Sys :=
  if flag = T_NEGOTIATE then
    socketcall (e.setsockopt i) (putArgs e tsp [fd, level, name, o.optBuf + 12, len] s)
  else (0, s)

/-- Get the value of an option behind its header in the reply. -/
def getOption (e : Env) (fd tsp : Word) (i : Nat) (o : OptState) (level name : Word) (s : Sys) :
    Int × Sys :=
  socketcall (e.getsockopt i)
    (putArgs e tsp [fd, level, name, o.retBuf + 12, tsp + 20, o.retSpace] s)

/-- The option loop. Lengths are compared with the header size as unsigned
numbers, and with each other as signed ones. -/
def optLoop (e : Env) (fd flag tsp : Word) : Nat → Nat → OptState → Sys → Res OptEnd
  | 0, _, _, _ => .error .loop
  | n + 1, i, o, s =>
    if o.optLen.toNat < 12 then .ok (.done 0 0 o.retLen s)
    else if (copyFromUser e s o.optBuf 12).isNone then .ok (.fault s)
    else
      let level := s.mem.word o.optBuf
      let name := s.mem.word (o.optBuf + 4)
      let len := s.mem.word (o.optBuf + 8)
      if o.optLen.toInt < len.toInt then .ok (.done TBADOPT 0 o.retLen s)
      else if ¬ e.verify true o.retBuf 12 then .ok (.done TSYSERR (-EFAULT) o.retLen s)
      else
        let r := setOption e fd flag tsp i o level name len s
        if r.1 ≠ 0 then .ok (.done TBADOPT r.1 o.retLen r.2)
        else
          let r' := getOption e fd tsp i o level name r.2
          if r'.1 ≠ 0 then .ok (.done TBADOPT r'.1 o.retLen r'.2)
          else
            let got := getUserD e r'.2 (tsp + 20)
            match copyToUser e o.retBuf ([level, name, len].flatMap Word.bytes) r'.2 with
            | none => .ok (.fault r'.2)
            | some s' =>
              optLoop e fd flag tsp n (i + 1)
                { optBuf := o.optBuf + (12 + len)
                  optLen := o.optLen - (12 + len)
                  retBuf := o.retBuf + (12 + got)
                  retLen := o.retLen + (12 + got)
                  retSpace := o.retSpace - (12 + got) }
                (putUser e (o.optBuf + 8) got s')

/-- The body of the option loop: the end of the loop, or what the next round starts
from. -/
def optRound (e : Env) (fd flag tsp : Word) (i : Nat) (o : OptState) (s : Sys) :
    OptEnd ⊕ OptState × Sys :=
  if (copyFromUser e s o.optBuf 12).isNone then .inl (.fault s)
  else
    let level := s.mem.word o.optBuf
    let name := s.mem.word (o.optBuf + 4)
    let len := s.mem.word (o.optBuf + 8)
    if o.optLen.toInt < len.toInt then .inl (.done TBADOPT 0 o.retLen s)
    else if ¬ e.verify true o.retBuf 12 then .inl (.done TSYSERR (-EFAULT) o.retLen s)
    else
      let r := setOption e fd flag tsp i o level name len s
      if r.1 ≠ 0 then .inl (.done TBADOPT r.1 o.retLen r.2)
      else
        let r' := getOption e fd tsp i o level name r.2
        if r'.1 ≠ 0 then .inl (.done TBADOPT r'.1 o.retLen r'.2)
        else
          let got := getUserD e r'.2 (tsp + 20)
          match copyToUser e o.retBuf ([level, name, len].flatMap Word.bytes) r'.2 with
          | none => .inl (.fault r'.2)
          | some s' =>
            .inr (
              { optBuf := o.optBuf + (12 + len)
                optLen := o.optLen - (12 + len)
                retBuf := o.retBuf + (12 + got)
                retLen := o.retLen + (12 + got)
                retSpace := o.retSpace - (12 + got) },
              putUser e (o.optBuf + 8) got s')

/-- The `T_OPTMGMT_ACK` for a reply of `retLen` bytes at `retBase`. -/
def optAck (e : Env) (flag retBase retLen esp : Word) (s : Sys) : Int × Sys :=
  match s.timodMkctl e.ctlAlloc (16 + retLen.toInt) with
  | none => (0, { s with esp := esp })
  | some (b, k) =>
    match copyFromUser e s retBase retLen.toInt with
    | none => (-EFAULT, { s with toCore := k })
    | some reply =>
      let ack := [T_OPTMGMT_ACK, retLen, 16, flag].flatMap Word.bytes
      let it := { b.junk with
        body := overlay b.junk.body 0 (ack ++ reply)
        pri := MSG_HIPRI
        length := 16 + retLen.toInt }
      (0, { s with toCore := k.pushFront b.addr it, esp := esp })

/-- The end of `timod_optmgmt`: a reply, if one is wanted. -/
def optReply (e : Env) (flag retBase esp : Word) (doRet : Bool) (failed error : Int)
    (retLen : Word) (s : Sys) : Int × Sys :=
  if ¬ doRet then (0, { s with esp := esp })
  else if failed ≠ 0 then (0, { timodError e T_OPTMGMT_REQ failed (-error) s with esp := esp })
  else optAck e flag retBase retLen esp s

/-- `timod_optmgmt`, as configured for TLI. -/
def timodOptmgmt (e : Env) (fd flag optBuf optLen : Word) (doRet : Bool) (s : Sys) :
    Res (Int × Sys) :=
  if optBuf ≠ 0 ∧ 0 < optLen.toInt ∧ ¬ e.verify false optBuf optLen.toInt then .ok (-EFAULT, s)
  else if ¬ doRet ∧ (optBuf = 0 ∨ optLen.toInt ≤ 0) then .ok (0, s)
  else
    let retSpace := 1024 + optLen + 8 * (optLen / 12)
    let retBase := s.esp - retSpace
    let tsp := retBase - 24
    if ¬ e.verify true tsp 24 then .ok (-EFAULT, s)
    else
      match optLoop e fd flag tsp e.rounds 0 ⟨optBuf, optLen, retBase, 0, retSpace⟩
          { s with esp := tsp } with
      | .error stop => .error stop
      | .ok (.fault s1) => .ok (-EFAULT, s1)
      | .ok (.done failed error retLen s1) =>
        .ok (optReply e flag retBase s.esp doRet failed error retLen s1)

/-- `T_OPTMGMT_REQ`. -/
def optmgmtReq (e : Env) (c : PutArgs) (s : Sys) : Res (Int × Sys) :=
  if ¬ e.verify false c.ctlBuf 16 then .ok (-EFAULT, s)
  else if (copyFromUser e s c.ctlBuf 16).isNone then .ok (-EFAULT, s)
  else
    let optLen := s.mem.word (c.ctlBuf + 4)
    let optOff := s.mem.word (c.ctlBuf + 8)
    let flags := s.mem.word (c.ctlBuf + 12)
    timodOptmgmt e c.fd flags (if 0 < optOff.toInt then c.ctlBuf + optOff else 0) optLen true s

/-! ## `do_putmsg` -/

/-- `T_UNBIND_REQ`. -/
def unbindReq (e : Env) (s : Sys) : Int × Sys :=
  (0, timodOk e T_UNBIND_REQ (s.setState .unbnd))

/-- `do_putmsg`. -/
def doPutmsg (e : Env) (c : PutArgs) (s : Sys) : Res (Int × Sys) :=
  match getUser e s c.ctlBuf with
  | none => .ok (-EFAULT, s)
  | some cmd =>
    if cmd = T_BIND_REQ then bindReq e c s
    else if cmd = T_CONN_RES then connRes e c s
    else if cmd = T_CONN_REQ then connReq e c s
    else if cmd = T_DISCON_REQ then .ok (disconReq e c s)
    else if cmd = T_ORDREL_REQ then .ok (closeReq c.fd s)
    else if cmd = T_DATA_REQ then .ok (dataReq e c s)
    else if cmd = T_UNITDATA_REQ then .ok (unitdataReq e c s)
    else if cmd = T_UNBIND_REQ then .ok (unbindReq e s)
    else if cmd = T_OPTMGMT_REQ then optmgmtReq e c s
    else .ok (-EINVAL, s)

/-- The request a primitive leads to. -/
inductive Dispatch (e : Env) (c : PutArgs) (s : Sys) : Option Word → Res (Int × Sys) → Prop
  | fault : Dispatch e c s none (.ok (-EFAULT, s))
  | bind : Dispatch e c s (some T_BIND_REQ) (bindReq e c s)
  | connRes : Dispatch e c s (some T_CONN_RES) (connRes e c s)
  | conn : Dispatch e c s (some T_CONN_REQ) (connReq e c s)
  | discon : Dispatch e c s (some T_DISCON_REQ) (.ok (disconReq e c s))
  | ordrel : Dispatch e c s (some T_ORDREL_REQ) (.ok (closeReq c.fd s))
  | data : Dispatch e c s (some T_DATA_REQ) (.ok (dataReq e c s))
  | unitdata : Dispatch e c s (some T_UNITDATA_REQ) (.ok (unitdataReq e c s))
  | unbind : Dispatch e c s (some T_UNBIND_REQ) (.ok (unbindReq e s))
  | optmgmt : Dispatch e c s (some T_OPTMGMT_REQ) (optmgmtReq e c s)
  | other {cmd : Word} (h : ∀ x ∈ [T_BIND_REQ, T_CONN_RES, T_CONN_REQ, T_DISCON_REQ, T_ORDREL_REQ,
      T_DATA_REQ, T_UNITDATA_REQ, T_UNBIND_REQ, T_OPTMGMT_REQ], cmd ≠ x) :
      Dispatch e c s (some cmd) (.ok (-EINVAL, s))

variable (e : Env) (c : PutArgs)

theorem doPutmsg_dispatch (s : Sys) : Dispatch e c s (getUser e s c.ctlBuf) (doPutmsg e c s) := by
  unfold doPutmsg
  cases getUser e s c.ctlBuf with
  | none => exact .fault
  | some cmd =>
    dsimp only
    split_ifs with h6 h1 h0 h2 h10 h3 h8 h7 h9
    · exact h6 ▸ .bind
    · exact h1 ▸ .connRes
    · exact h0 ▸ .conn
    · exact h2 ▸ .discon
    · exact h10 ▸ .ordrel
    · exact h3 ▸ .data
    · exact h8 ▸ .unitdata
    · exact h7 ▸ .unbind
    · exact h9 ▸ .optmgmt
    · refine .other ?_
      simp only [List.forall_mem_cons, List.not_mem_nil, false_imp_iff, implies_true, and_true]
      exact ⟨h6, h1, h0, h2, h10, h3, h8, h7, h9⟩

/-! ## The user side again -/

@[simp] theorem fixFamily_toCore (sin : Word) (s : Sys) :
    (fixFamily e sin s).toCore = s.toCore := by
  unfold fixFamily
  dsimp only
  split
  · exact putUser16_toCore ..
  · rfl

@[simp] theorem fixPort_toCore (sin : Word) (family : BitVec 16) (s : Sys) :
    (fixPort e sin family s).toCore = s.toCore := by
  unfold fixPort
  split
  · exact putUser16_toCore ..
  · rfl

variable (tsp addrLen addrOff : Word)

@[simp] theorem bindCall_toCore (s : Sys) :
    (bindCall e c tsp addrLen addrOff s).2.toCore = s.toCore := by
  simp [bindCall]

@[simp] theorem bindCall_fst (s : Sys) :
    (bindCall e c tsp addrLen addrOff s).1 = (e.socket .bind).result := rfl

@[simp] theorem listenCall_toCore (tsp conind : Word) (s : Sys) :
    (listenCall e c tsp conind s).2.toCore = s.toCore := by
  simp [listenCall]

@[simp] theorem connectArgs_toCore (tsp destLen destOff : Word) (s : Sys) :
    (connectArgs e c tsp destLen destOff s).toCore = s.toCore := by
  simp [connectArgs]

@[simp] theorem connectCall_toCore (s : Sys) : (connectCall e s).2.toCore = s.toCore := rfl

@[simp] theorem setState_toCore (st : TState) (s : Sys) :
    (s.setState st).toCore = s.toCore.setState st := rfl

/-- What a bind request's socket calls do to the endpoint. -/
theorem bindAddress_toCore (tsp addrLen addrOff conind : Word) (s : Sys) :
    (bindAddress e c tsp addrLen addrOff conind s).2.toCore =
      if (e.socket .bind).result ≠ 0 then s.toCore
      else s.toCore.setState (if conind ≠ 0 then .wresCind else .idle) := by
  unfold bindAddress
  rw [← bindCall_fst e c tsp addrLen addrOff s]
  by_cases hr : (bindCall e c tsp addrLen addrOff s).1 ≠ 0
  · rw [if_pos hr, if_pos hr, bindCall_toCore]
  · rw [if_neg hr, if_neg hr]
    split_ifs with hc
    · rw [setState_toCore, listenCall_toCore, bindCall_toCore]
    · rw [setState_toCore, bindCall_toCore]

theorem bindAddress_fst (tsp addrLen addrOff conind : Word) (s : Sys) :
    (bindAddress e c tsp addrLen addrOff conind s).1 = (e.socket .bind).result := by
  unfold bindAddress
  by_cases hr : (bindCall e c tsp addrLen addrOff s).1 ≠ 0
  · rw [if_pos hr, bindCall_fst]
  · rw [if_neg hr, ← bindCall_fst e c, not_not.mp hr]
    split_ifs with hc
    · rfl
    · rfl

/-- The bind request carries an address. -/
def hasAddress (c : PutArgs) (s : Sys) : Prop :=
  s.mem.word (c.ctlBuf + 8) ≠ 0 ∧ s.mem.word (c.ctlBuf + 4) ≠ 0
  deriving Decidable

/-- `CONIND_number` of a bind request. -/
def conind (c : PutArgs) (s : Sys) : Word := s.mem.word (c.ctlBuf + 12)

/-- The state a bind request leaves when its socket calls are made. -/
def boundState (e : Env) (c : PutArgs) (s : Sys) : TState :=
  if hasAddress c s ∧ (e.socket .bind).result = 0 then
    if conind c s ≠ 0 then .wresCind else .idle
  else s.priv.state

/-- The result of the socket calls of a bind request. -/
def bindResult (e : Env) (c : PutArgs) (s : Sys) : Int :=
  if hasAddress c s then (e.socket .bind).result else 0

@[simp] theorem setOption_toCore (fd flag tsp : Word) (i : Nat) (o : OptState)
    (level name len : Word) (s : Sys) :
    (setOption e fd flag tsp i o level name len s).2.toCore = s.toCore := by
  unfold setOption
  split_ifs with h
  · rw [socketcall_toCore, putArgs_toCore]
  · rfl

@[simp] theorem getOption_toCore (fd tsp : Word) (i : Nat) (o : OptState) (level name : Word)
    (s : Sys) :
    (getOption e fd tsp i o level name s).2.toCore = s.toCore := by
  simp [getOption]

/-- The loop is its rounds. -/
theorem optLoop_succ (fd flag tsp : Word) (n i : Nat) (o : OptState) (s : Sys) :
    optLoop e fd flag tsp (n + 1) i o s =
      if o.optLen.toNat < 12 then .ok (.done 0 0 o.retLen s)
      else
        match optRound e fd flag tsp i o s with
        | .inl x => .ok x
        | .inr x => optLoop e fd flag tsp n (i + 1) x.1 x.2 := by
  rw [optLoop, optRound]
  dsimp only
  split_ifs
  iterate 5 rfl
  · cases copyToUser e o.retBuf _ _ with
    | none | some s' => rfl
  · rfl

variable {fd flag tsp : Word} {e : Env} {o : OptState} {s : Sys}

variable {R : Sys → Sys → Prop}

/-- Whatever the user accesses of a round keep, the round keeps. -/
theorem optRound_keeps (refl : ∀ s, R s s) (trans : ∀ {s t u}, R s t → R t u → R s u)
    (hset : ∀ e fd flag tsp i o level name len s,
      R s (setOption e fd flag tsp i o level name len s).2)
    (hget : ∀ e fd tsp i o level name s, R s (getOption e fd tsp i o level name s).2)
    (hcopy : ∀ {e a bs s s'}, copyToUser e a bs s = some s' → R s s')
    (hput : ∀ e a v s, R s (putUser e a v s)) (e : Env) (fd flag tsp : Word) (i : Nat)
    (o : OptState) (s : Sys) :
    (optRound e fd flag tsp i o s).elim (fun x => R s x.sys) fun x => R s x.2 := by
  have hr := hset e fd flag tsp i o (s.mem.word o.optBuf) (s.mem.word (o.optBuf + 4))
    (s.mem.word (o.optBuf + 8)) s
  have hr' := trans hr (hget e fd tsp i o (s.mem.word o.optBuf) (s.mem.word (o.optBuf + 4)) _)
  unfold optRound
  dsimp only
  split_ifs
  iterate 2 exact refl s
  · exact hr
  · exact hr'
  · split
    · exact hr'
    next s' hc => exact trans hr' (trans (hcopy hc) (hput ..))
  · exact refl s

/-- The same for the loop. -/
theorem optLoop_keeps (refl : ∀ s, R s s) (trans : ∀ {s t u}, R s t → R t u → R s u)
    (hround : ∀ i o s, (optRound e fd flag tsp i o s).elim (fun x => R s x.sys) fun x => R s x.2) :
    ∀ {n i : Nat} {o : OptState} {s : Sys} {r : OptEnd},
      optLoop e fd flag tsp n i o s = .ok r → R s r.sys
  | 0, _, _, _, _, h => nomatch h
  | n + 1, i, o, s, r, h => by
    rw [optLoop_succ] at h
    split_ifs at h
    · obtain rfl := Except.ok.inj h
      exact refl s
    have hr := hround i o s
    cases hround' : optRound e fd flag tsp i o s with
    | inl x =>
      rw [hround'] at h hr
      obtain rfl := Except.ok.inj h
      exact hr
    | inr x =>
      rw [hround'] at h hr
      exact trans hr (optLoop_keeps refl trans hround h)

/-- The option loop works on the user side only. -/
theorem optLoop_toCore {n i : Nat} {r : OptEnd} (h : optLoop e fd flag tsp n i o s = .ok r) :
    r.sys.toCore = s.toCore := by
  let R (s t : Sys) : Prop := t.toCore = s.toCore
  have refl (s : Sys) : R s s := rfl
  have trans {s t u : Sys} (h₁ : R s t) (h₂ : R t u) : R s u := h₂.trans h₁
  refine optLoop_keeps refl trans (fun i o s => ?_) h
  exact optRound_keeps refl trans
    (fun e fd flag tsp i o level name len s => setOption_toCore ..)
    (fun e fd tsp i o level name s => getOption_toCore ..) (fun h => copyToUser_toCore h)
    (fun e a v s => putUser_toCore ..) e fd flag tsp i o s

/-- The option loop stops only by not ending. -/
theorem optLoop_error {stop : Stop} :
    ∀ {n i : Nat} {o : OptState} {s : Sys},
      optLoop e fd flag tsp n i o s = .error stop → stop = .loop
  | 0, _, _, _, h => (Except.error.inj h).symm
  | n + 1, i, o, s, h => by
    rw [optLoop_succ] at h
    split_ifs at h
    split at h
    · cases h
    · exact optLoop_error h

end AbiEmu.Xti
