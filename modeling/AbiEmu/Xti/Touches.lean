import AbiEmu.Lib.Trace
import AbiEmu.Xti.Scratch

/-!
# What bind and connect touch

A `T_BIND_REQ` or `T_CONN_REQ` is a control message of `ctl_len` bytes at `ctl_buf`. It
gives the address by its offset in the message and its length. A request should stay in
the message and in the scratch frame below the stack pointer, and hand the socket layer
nothing that is not part of the message.

The two requests are written down once more, as programs that leave a note of every
access to user memory and of the address they hand on (`putmsgTraced`); that they are
the requests of the model is `putmsgTraced_result`. `Confined` is the promise.

The code never compares the offset and the length with `ctl_len`, it reads and corrects
the family before anyone has looked at the address, and it hands on a length of 8 as 16.
So the promise rests on the message: `bind_connect_confined_iff` says what it has to
fulfil.
-/

namespace AbiEmu.Xti

open Traced

/-! ## Accesses -/

/-- What is done with bytes of user memory: they are read, they are written, or the
socket layer is told to read them. -/
inductive Way where
  | read | write | hand
  deriving DecidableEq, Repr

/-- An access to the `len` bytes from `addr` on, whether or not they can be reached. -/
structure Touch where
  way : Way
  addr : Word
  len : Int
  deriving DecidableEq, Repr

/-- A program on an endpoint. -/
abbrev Touching (α : Type) := Traced Sys Touch α

section Primitives

variable (e : Env)

def touchRead (a : Word) (n : Int) : Touching Unit := note ⟨.read, a, n⟩
def touchWrite (a : Word) (n : Int) : Touching Unit := note ⟨.write, a, n⟩

/-- `get_user` of a word. -/
def getUserT (a : Word) : Touching (Option Word) := do
  touchRead a 4
  let s ← get
  return getUser e s a

/-- `get_user` of a 16-bit value. -/
def getUser16T (a : Word) : Touching (BitVec 16) := do
  touchRead a 2
  let s ← get
  return getUser16 e s a

/-- `put_user` of a 16-bit value. -/
def putUser16T (a : Word) (v : BitVec 16) : Touching Unit := do
  touchWrite a 2
  modify (putUser16 e a v)

/-- The arguments of a socket call. -/
def putArgsT (tsp : Word) (args : List Word) : Touching Unit := do
  touchWrite tsp (4 * args.length)
  modify (putArgs e tsp args)

/-- `copy_from_user`. -/
def copyFromUserT (a : Word) (n : Int) : Touching (Option (List Byte)) := do
  touchRead a n
  let s ← get
  return copyFromUser e s a n

/-- A socket call with `n` arguments at `tsp`. -/
def socketcallT (answer : SockAnswer) (tsp : Word) (n : Int) : Touching Int := do
  touchRead tsp (4 * n)
  modify fun s => (socketcall answer s).2
  return answer.result

/-- The address `[a, a + len)` goes to the socket layer. -/
def handOver (a len : Word) : Touching Unit := note ⟨.hand, a, len.toInt⟩

end Primitives

/-! ## The requests once more -/

/-- The two requests. -/
inductive AddrRequest where
  | bind | conn
  deriving DecidableEq, Repr

/-- The type of the message. -/
def AddrRequest.prim : AddrRequest → Word
  | bind => T_BIND_REQ
  | conn => T_CONN_REQ

/-- What is checked before the frame is borrowed. -/
def AddrRequest.scratch : AddrRequest → Scratch
  | bind => bindScratch
  | conn => connScratch

section Requests

variable (e : Env) (c : PutArgs)

/-- The family at `sin`, corrected. -/
def fixFamilyT (sin : Word) : Touching (BitVec 16) := do
  let family ← getUser16T e sin
  if swapped family then
    putUser16T e sin (swap16 family)
    return swap16 family
  else return family

def bindCallT (tsp addrLen addrOff : Word) : Touching Int := do
  let sin := c.ctlBuf + addrOff
  let _ ← fixFamilyT e sin
  putArgsT e tsp [c.fd, sin, addrLength addrLen]
  handOver sin (addrLength addrLen)
  socketcallT (e.socket .bind) tsp 3

def listenCallT (tsp conind : Word) : Touching Int := do
  putArgsT e tsp [c.fd, conind]
  socketcallT (e.socket .listen) tsp 2

def bindAddressT (tsp addrLen addrOff conind : Word) : Touching Int := do
  let error ← bindCallT e c tsp addrLen addrOff
  if error ≠ 0 then return error
  else if conind ≠ 0 then
    let _ ← listenCallT e c tsp conind
    modify (Sys.setState .wresCind)
    return 0
  else
    modify (Sys.setState .idle)
    return 0

def bindReplyT (error : Int) : Touching (Res (Int × Sys)) := do
  let s ← get
  let refuse := timodError e T_BIND_REQ (bindErrors error).1 (bindErrors error).2 s
  if error ≠ 0 then return .ok (0, refuse)
  else
    match s.timodMkctl e.ctlAlloc c.ctlLen with
    | none => return .ok (0, refuse)
    | some (b, k) =>
      match ← copyFromUserT e c.ctlBuf c.ctlLen with
      | none => return .ok (-EFAULT, { s with toCore := k })
      | some req =>
        return answer e T_BIND_REQ b.addr (b.echo req T_BIND_ACK MSG_HIPRI c.ctlLen)
          { s with toCore := k }

/-- The socket calls of a bind request, if it has an address. -/
def bindAskedT (s : Sys) : Touching Int :=
  if s.mem.word (c.ctlBuf + 8) ≠ 0 ∧ s.mem.word (c.ctlBuf + 4) ≠ 0 then
    bindAddressT e c (s.esp - 1024) (s.mem.word (c.ctlBuf + 4)) (s.mem.word (c.ctlBuf + 8))
      (s.mem.word (c.ctlBuf + 12))
  else pure 0

/-- The part of `T_BIND_REQ` that has its frame and its header. -/
def bindTakenT (s : Sys) : Touching (Res (Int × Sys)) := do
  let error ← bindAskedT e c s
  modify fun t => { t with esp := s.esp }
  bindReplyT e c error

def fixPortT (sin : Word) (family : BitVec 16) : Touching Unit := do
  if e.perSvr4 ∧ family = AF_INET then
    let port ← getUser16T e (sin + 2)
    if port = 0x1770 then putUser16T e (sin + 2) (swap16 0x1770) else pure ()
  else pure ()

def connectArgsT (tsp destLen destOff : Word) : Touching Unit := do
  let sin := c.ctlBuf + destOff
  putArgsT e tsp [c.fd, sin, addrLength destLen]
  let family ← fixFamilyT e sin
  fixPortT e sin family
  handOver sin (addrLength destLen)

def connectCallT (tsp : Word) : Touching Int := do
  let s ← get
  modify fun t => { t with fflags := t.fflags &&& ~~~O_NONBLOCK }
  let error ← socketcallT (e.socket .connect) tsp 3
  modify fun t => { t with fflags := (s.fflags.setWidth 16).setWidth 32 }
  return error

def connReplyT (error : Int) : Touching (Res (Int × Sys)) := do
  let s ← get
  if error = 0 then
    match s.timodMkctl e.ctlAlloc c.ctlLen with
    | none => return .ok (-ENOMEM, s)
    | some (b, k) =>
      match ← copyFromUserT e c.ctlBuf c.ctlLen with
      | none => return .ok (-EFAULT, { s with toCore := k })
      | some req =>
        return answer e T_CONN_REQ b.addr (b.echo req T_CONN_CON 0 c.ctlLen)
          (Sys.setState .dataXfer { s with toCore := k })
  else return connReply e c error s

/-- The part of `T_CONN_REQ` that has its frame and its header. -/
def connTakenT (s : Sys) : Touching (Res (Int × Sys)) := do
  connectArgsT e c (s.esp - 1024) (s.mem.word (c.ctlBuf + 4)) (s.mem.word (c.ctlBuf + 8))
  let error ← connectCallT e (s.esp - 1024)
  modify fun t => { t with esp := s.esp }
  connReplyT e c error

/-- The way of both requests to the frame and the header, and what they do then. -/
def borrowedT (q : AddrRequest) (taken : Sys → Touching (Res (Int × Sys))) :
    Touching (Res (Int × Sys)) := do
  let s ← get
  if ¬ e.verify false c.ctlBuf q.scratch.size then return .ok (-EFAULT, s)
  else if s.priv.state ∉ q.scratch.states then
    return .ok (0, timodError e q.prim TOUTSTATE 0 s)
  else if ¬ e.verify true (s.esp - 1024) q.scratch.space then
    return .ok (0, timodError e q.prim TSYSERR EFAULT s)
  else
    modify fun t => { t with esp := s.esp - 1024 }
    let req ← copyFromUserT e c.ctlBuf q.scratch.size
    if req.isNone then return .ok (-EFAULT, { s with esp := s.esp - 1024 })
    else taken s

/-- What each request does with its header. -/
def takenT : AddrRequest → Sys → Touching (Res (Int × Sys))
  | .bind => bindTakenT e c
  | .conn => connTakenT e c

end Requests

/-- `do_putmsg` for such a request. It begins by reading the type of the message. -/
def putmsgTraced (q : AddrRequest) (e : Env) (c : PutArgs) : Touching (Res (Int × Sys)) := do
  let _ ← getUserT e c.ctlBuf
  borrowedT e c q (takenT e c q)

/-! ## They are the same -/

section Erasure

variable (e : Env) (c : PutArgs) (s : Sys) (a : Word)

@[simp] theorem getUserT_result : (getUserT e a).result s = (getUser e s a, s) := rfl

@[simp] theorem getUser16T_result : (getUser16T e a).result s = (getUser16 e s a, s) := rfl

@[simp] theorem putArgsT_result (tsp : Word) (args : List Word) :
    (putArgsT e tsp args).result s = ((), putArgs e tsp args s) := rfl

variable (n : Int)

@[simp] theorem copyFromUserT_result :
    (copyFromUserT e a n).result s = (copyFromUser e s a n, s) := rfl

@[simp] theorem socketcallT_result (answer : SockAnswer) (tsp : Word) (n : Int) :
    (socketcallT answer tsp n).result s = socketcall answer s := rfl

@[simp] theorem handOver_result (a len : Word) : (handOver a len).result s = ((), s) := rfl

/-- The family at `sin` as it is after the correction. -/
def familyAt (sin : Word) : BitVec 16 :=
  if swapped (getUser16 e s sin) then swap16 (getUser16 e s sin) else getUser16 e s sin

variable (sin : Word)

@[simp] theorem fixFamilyT_result :
    (fixFamilyT e sin).result s = (familyAt e s sin, fixFamily e sin s) := by
  unfold fixFamilyT fixFamily familyAt
  rw [result_bind, getUser16T_result]
  dsimp only
  split <;> rfl

@[simp] theorem bindCallT_result (tsp addrLen addrOff : Word) :
    (bindCallT e c tsp addrLen addrOff).result s = bindCall e c tsp addrLen addrOff s := by
  unfold bindCallT bindCall
  simp

@[simp] theorem bindAddressT_result (tsp addrLen addrOff conind : Word) :
    (bindAddressT e c tsp addrLen addrOff conind).result s =
      bindAddress e c tsp addrLen addrOff conind s := by
  unfold bindAddressT bindAddress
  rw [result_bind, bindCallT_result]
  dsimp only
  split
  · rfl
  · split <;> rfl

theorem bindReplyT_result (error : Int) :
    ((bindReplyT e c error).result s).1 = bindReply e c error s := by
  unfold bindReplyT bindReply
  rw [result_bind, result_get]
  split
  · rfl
  · cases s.timodMkctl e.ctlAlloc c.ctlLen with
    | none => rfl
    | some made =>
      rw [result_bind, copyFromUserT_result]
      cases copyFromUser e s c.ctlBuf c.ctlLen with
      | none | some req => rfl

theorem bindTakenT_result (s : Sys) :
    ((bindTakenT e c s).result { s with esp := s.esp - 1024 }).1 =
      let r := if s.mem.word (c.ctlBuf + 8) ≠ 0 ∧ s.mem.word (c.ctlBuf + 4) ≠ 0 then
          bindAddress e c (s.esp - 1024) (s.mem.word (c.ctlBuf + 4)) (s.mem.word (c.ctlBuf + 8))
            (s.mem.word (c.ctlBuf + 12)) { s with esp := s.esp - 1024 }
        else (0, { s with esp := s.esp - 1024 })
      bindReply e c r.1 { r.2 with esp := s.esp } := by
  unfold bindTakenT bindAskedT
  rw [result_bind]
  split
  · rw [bindAddressT_result, result_bind, result_modify]
    exact bindReplyT_result ..
  · exact bindReplyT_result ..

@[simp] theorem fixPortT_result (family : BitVec 16) :
    (fixPortT e sin family).result s = ((), fixPort e sin family s) := by
  unfold fixPortT fixPort
  split
  next hinet =>
    rw [result_bind, getUser16T_result]
    split
    next hport =>
      rw [if_pos ⟨hinet.1, hinet.2, hport⟩]
      rfl
    next hport =>
      rw [if_neg fun h => hport h.2.2]
      rfl
  next hinet =>
    rw [if_neg fun h => hinet ⟨h.1, h.2.1⟩]
    rfl

@[simp] theorem connectArgsT_result (tsp destLen destOff : Word) :
    (connectArgsT e c tsp destLen destOff).result s =
      ((), connectArgs e c tsp destLen destOff s) := by
  unfold connectArgsT connectArgs
  simp only [result_bind, putArgsT_result, fixFamilyT_result, fixPortT_result, handOver_result]
  rfl

@[simp] theorem connectCallT_result (tsp : Word) :
    (connectCallT e tsp).result s = connectCall e s := rfl

theorem connReplyT_result (error : Int) :
    ((connReplyT e c error).result s).1 = connReply e c error s := by
  unfold connReplyT
  rw [result_bind, result_get]
  by_cases herr : error = 0
  · unfold connReply
    rw [if_pos herr, if_pos herr]
    cases s.timodMkctl e.ctlAlloc c.ctlLen with
    | none => rfl
    | some made =>
      rw [result_bind, copyFromUserT_result]
      cases copyFromUser e s c.ctlBuf c.ctlLen with
      | none | some req => rfl
  · rw [if_neg herr]
    rfl

theorem connTakenT_result (s : Sys) :
    ((connTakenT e c s).result { s with esp := s.esp - 1024 }).1 =
      let r := connectCall e (connectArgs e c (s.esp - 1024) (s.mem.word (c.ctlBuf + 4))
        (s.mem.word (c.ctlBuf + 8)) { s with esp := s.esp - 1024 })
      connReply e c r.1 { r.2 with esp := s.esp } := by
  unfold connTakenT
  simp only [result_bind, connectArgsT_result, connectCallT_result, result_modify]
  exact connReplyT_result ..

theorem borrowedT_result (q : AddrRequest) (taken : Sys → Touching (Res (Int × Sys))) :
    ((borrowedT e c q taken).result s).1 =
      if ¬ e.verify false c.ctlBuf q.scratch.size then .ok (-EFAULT, s)
      else if s.priv.state ∉ q.scratch.states then .ok (0, timodError e q.prim TOUTSTATE 0 s)
      else if ¬ e.verify true (s.esp - 1024) q.scratch.space then
        .ok (0, timodError e q.prim TSYSERR EFAULT s)
      else if (copyFromUser e s c.ctlBuf q.scratch.size).isNone then
        .ok (-EFAULT, { s with esp := s.esp - 1024 })
      else ((taken s).result { s with esp := s.esp - 1024 }).1 := by
  unfold borrowedT
  rw [result_bind, result_get]
  by_cases hv : ¬ e.verify false c.ctlBuf q.scratch.size = true
  · rw [if_pos hv, if_pos hv]
    rfl
  rw [if_neg hv, if_neg hv]
  by_cases hstate : s.priv.state ∉ q.scratch.states
  · rw [if_pos hstate, if_pos hstate]
    rfl
  rw [if_neg hstate, if_neg hstate]
  by_cases htsp : ¬ e.verify true (s.esp - 1024) q.scratch.space = true
  · rw [if_pos htsp, if_pos htsp]
    rfl
  rw [if_neg htsp, if_neg htsp, result_bind, result_modify, result_bind, copyFromUserT_result,
    result_ite, apply_ite Prod.fst]
  rfl

variable {q : AddrRequest}

/-- The program is `do_putmsg`. -/
theorem putmsgTraced_result (h : getUser e s c.ctlBuf = some q.prim) :
    ((putmsgTraced q e c).result s).1 = doPutmsg e c s := by
  unfold putmsgTraced doPutmsg
  rw [result_bind, getUserT_result, h, borrowedT_result]
  cases q with
  | bind =>
    have hstate : s.priv.state ∉ AddrRequest.bind.scratch.states ↔ s.priv.state ≠ .unbnd :=
      not_congr List.mem_singleton
    simp only [hstate, takenT, bindTakenT_result]
    rfl
  | conn =>
    have hstate : s.priv.state ∉ AddrRequest.conn.scratch.states ↔
        s.priv.state ≠ .unbnd ∧ s.priv.state ≠ .idle := by
      show s.priv.state ∉ [TState.unbnd, TState.idle] ↔ _
      rw [List.mem_cons, List.mem_singleton, not_or]
    simp only [hstate, takenT, connTakenT_result]
    rfl

end Erasure

/-! ## What the notes have in common -/

section Keeps

variable (e : Env) (c : PutArgs) (s : Sys) (P : Touch → Prop)

@[simp] theorem keeps_getUserT : (getUserT e a).Keeps P s ↔ P ⟨.read, a, 4⟩ := by
  simp [getUserT, touchRead]

@[simp] theorem keeps_getUser16T : (getUser16T e a).Keeps P s ↔ P ⟨.read, a, 2⟩ := by
  simp [getUser16T, touchRead]

@[simp] theorem keeps_putUser16T (v : BitVec 16) :
    (putUser16T e a v).Keeps P s ↔ P ⟨.write, a, 2⟩ := by
  simp [putUser16T, touchWrite]

@[simp] theorem keeps_putArgsT (tsp : Word) (args : List Word) :
    (putArgsT e tsp args).Keeps P s ↔ P ⟨.write, tsp, 4 * args.length⟩ := by
  simp [putArgsT, touchWrite]

@[simp] theorem keeps_copyFromUserT : (copyFromUserT e a n).Keeps P s ↔ P ⟨.read, a, n⟩ := by
  simp [copyFromUserT, touchRead]

@[simp] theorem keeps_socketcallT (answer : SockAnswer) (tsp : Word) (n : Int) :
    (socketcallT answer tsp n).Keeps P s ↔ P ⟨.read, tsp, 4 * n⟩ := by
  simp [socketcallT, touchRead]

@[simp] theorem keeps_handOver (a len : Word) :
    (handOver a len).Keeps P s ↔ P ⟨.hand, a, len.toInt⟩ := keeps_note ..

/-- A request that gets its header is followed further; the others have read nothing
but their type. -/
theorem keeps_borrowedT (q : AddrRequest) (taken : Sys → Touching (Res (Int × Sys))) :
    (borrowedT e c q taken).Keeps P s ↔
      (q.scratch.borrows e c s → P ⟨.read, c.ctlBuf, q.scratch.size⟩ ∧
        (¬ e.copyFaults c.ctlBuf q.scratch.size →
          (taken s).Keeps P { s with esp := s.esp - 1024 })) := by
  unfold borrowedT
  rw [keeps_bind, keeps_get, result_get, true_and]
  split_ifs with hv hstate htsp
  · rw [keeps_bind, keeps_modify, true_and, keeps_bind, keeps_copyFromUserT, keeps_ite, keeps_pure,
      result_modify, copyFromUserT_result, forall_prop_of_true ⟨hv, hstate, htsp⟩]
    refine and_congr_right fun _ => ?_
    split
    next hnone =>
      have hfault := copyFromUser_eq_none_iff.mp (Option.isNone_iff_eq_none.mp hnone)
      exact iff_of_true trivial fun h => absurd hfault h
    next hsome =>
      have hfine : ¬ e.copyFaults c.ctlBuf q.scratch.size := fun hf =>
        hsome (Option.isNone_iff_eq_none.mpr (copyFromUser_eq_none_iff.mpr hf))
      exact ⟨fun h _ => h, fun h => h hfine⟩
  · exact iff_of_true ((keeps_pure ..).mpr trivial) fun hb => absurd hb.2.2 htsp
  · exact iff_of_true ((keeps_pure ..).mpr trivial) fun hb => absurd hb.2.1 hstate
  · exact iff_of_true ((keeps_pure ..).mpr trivial) fun hb => absurd hb.1 hv

end Keeps

/-! ## The promise -/

/-- The byte at `x` belongs to the control message. -/
def PutArgs.Holds (c : PutArgs) (x : Word) : Prop := ((x - c.ctlBuf).toNat : Int) < c.ctlLen
  deriving Decidable

/-- The byte at `x` is one of the 1024 below the stack pointer. -/
def Lent (esp x : Word) : Prop := (x - (esp - 1024)).toNat < 1024
  deriving Decidable

/-- All bytes of the access satisfy `P`. -/
def Touch.Within (t : Touch) (P : Word → Prop) : Prop :=
  ∀ x, ((x - t.addr).toNat : Int) < t.len → P x

/-- The access stays where it should. -/
def Touch.Proper (c : PutArgs) (esp : Word) (t : Touch) : Prop :=
  match t.way with
  | .read => t.Within fun x => c.Holds x ∨ Lent esp x
  | .write => t.Within fun x => c.Holds x ∨ Lent esp x
  | .hand => t.Within c.Holds

/-- The length of the address, `ADDR_length` or `DEST_length`. -/
def PutArgs.addrLen (c : PutArgs) (s : Sys) : Word := s.mem.word (c.ctlBuf + 4)

/-- Its offset in the message, `ADDR_offset` or `DEST_offset`. -/
def PutArgs.addrOff (c : PutArgs) (s : Sys) : Word := s.mem.word (c.ctlBuf + 8)

/-- `len` bytes at the offset fit in the message. -/
def PutArgs.Fits (c : PutArgs) (s : Sys) (len : Word) : Prop :=
  0 ≤ (c.addrOff s).toInt ∧ 0 ≤ len.toInt ∧ (c.addrOff s).toInt + len.toInt ≤ c.ctlLen
  deriving Decidable

/-- What a request should do. -/
structure Confined (q : AddrRequest) (e : Env) (c : PutArgs) (s : Sys) : Prop where
  /-- The notes are those of `do_putmsg`. -/
  erased : ((putmsgTraced q e c).result s).1 = doPutmsg e c s
  /-- It reads and changes only the message and the frame, and hands on only parts of
  the message. -/
  touches : (putmsgTraced q e c).Keeps (Touch.Proper c s.esp) s
  /-- An address that does not fit is not handed on. -/
  refused : ¬ c.Fits s (c.addrLen s) → (putmsgTraced q e c).Keeps (·.way ≠ .hand) s

/-- What one note has to fulfil. -/
def Touch.Fine (c : PutArgs) (s : Sys) (t : Touch) : Prop :=
  t.Proper c s.esp ∧ (t.way = .hand → c.Fits s (c.addrLen s))

theorem confined_iff_fine {e : Env} {c : PutArgs} {s : Sys}
    (h : getUser e s c.ctlBuf = some q.prim) :
    Confined q e c s ↔ (putmsgTraced q e c).Keeps (Touch.Fine c s) s := by
  unfold Touch.Fine
  rw [keeps_and]
  constructor
  · intro hc
    refine ⟨hc.touches, fun t ht hhand => ?_⟩
    by_contra hfit
    exact hc.refused hfit t ht hhand
  · rintro ⟨htouch, hhand⟩
    exact ⟨putmsgTraced_result e c s h, htouch, fun hfit t ht hw => hfit (hhand t ht hw)⟩

/-! ## The condition -/

section Condition

variable {q : AddrRequest} {e : Env} {c : PutArgs} {s : Sys}

/-- The `n` bytes at `a` belong to the message or to the frame. -/
def PutArgs.Covers (c : PutArgs) (esp a : Word) (n : Int) : Prop :=
  ∀ x, ((x - a).toNat : Int) < n → c.Holds x ∨ Lent esp x

theorem fine_read : Touch.Fine c s ⟨.read, a, n⟩ ↔ c.Covers s.esp a n :=
  and_iff_left nofun

theorem fine_write : Touch.Fine c s ⟨.write, a, n⟩ ↔ c.Covers s.esp a n :=
  and_iff_left nofun

variable {n : Int}

/-- The arguments of a socket call lie in the frame. -/
theorem covers_frame (hn : n ≤ 1024) : c.Covers s.esp (s.esp - 1024) n := fun x hx =>
  .inr (by unfold Lent; omega)

/-- A part of the message. -/
theorem covers_part {esp : Word} {k n : Nat} (hk : (k : Int) + n ≤ c.ctlLen) :
    c.Covers esp (c.ctlBuf + BitVec.ofNat 32 k) n := by
  intro x hx
  unfold PutArgs.Holds
  have hsplit : x - c.ctlBuf = BitVec.ofNat 32 k + (x - (c.ctlBuf + BitVec.ofNat 32 k)) := by
    rw [← BitVec.sub_sub, BitVec.add_comm, BitVec.sub_add_cancel]
  rw [hsplit, BitVec.toNat_add, BitVec.toNat_ofNat]
  omega

theorem covers_message (esp : Word) : c.Covers esp c.ctlBuf c.ctlLen := fun _ hx => .inl hx

/-- A range with a byte in it lies in the message exactly if its ends do. -/
theorem within_message_iff (hlen : c.ctlLen < 2 ^ 31) {off : Word} (hn : 0 < n) (hn' : n < 2 ^ 31) :
    (Touch.mk .hand (c.ctlBuf + off) n).Within c.Holds ↔
      0 ≤ off.toInt ∧ off.toInt + n ≤ c.ctlLen := by
  unfold Touch.Within PutArgs.Holds
  have hsplit (x : Word) : x - c.ctlBuf = off + (x - (c.ctlBuf + off)) := by
    rw [← BitVec.sub_sub, BitVec.add_comm, BitVec.sub_add_cancel]
  have hback (w : Word) : c.ctlBuf + off + w - (c.ctlBuf + off) = w := by
    rw [BitVec.add_comm _ w, BitVec.add_sub_cancel]
  constructor
  · intro h
    -- the first byte bounds the offset, the last one the end
    have hfirst := h (c.ctlBuf + off) (by rw [BitVec.sub_self]; exact hn)
    rw [hsplit, BitVec.sub_self, BitVec.add_zero] at hfirst
    have hlast := h (c.ctlBuf + off + BitVec.ofInt 32 (n - 1)) (by
      rw [hback, BitVec.toNat_ofInt]
      show (_ : Int) < n
      omega)
    rw [hsplit, hback, BitVec.toNat_add, BitVec.toNat_ofInt] at hlast
    rw [BitVec.toInt_eq_toNat_cond]
    omega
  · rintro ⟨hpos, hend⟩ x hx
    rw [BitVec.toInt_eq_toNat_cond] at hpos hend
    rw [hsplit, BitVec.toNat_add]
    replace hx : ((x - (c.ctlBuf + off)).toNat : Int) < n := hx
    split at hpos <;> omega

/-- What is handed on is the address with its length widened. -/
theorem fine_hand (hlen : c.ctlLen < 2 ^ 31) :
    Touch.Fine c s ⟨.hand, c.ctlBuf + c.addrOff s, (addrLength (c.addrLen s)).toInt⟩ ↔
      c.Fits s (addrLength (c.addrLen s)) := by
  unfold PutArgs.Fits
  have hlt : (addrLength (c.addrLen s)).toInt < 2 ^ 31 := BitVec.toInt_lt
  -- the widened length is positive if the length is, and not below it
  have hwide : (addrLength (c.addrLen s)).toInt = (c.addrLen s).toInt ∨
      (addrLength (c.addrLen s)).toInt = 16 ∧ (c.addrLen s).toInt = 8 := by
    by_cases h8 : c.addrLen s = 8
    · exact .inr ⟨by rw [h8]; rfl, by rw [h8]; rfl⟩
    · exact .inl (by rw [addrLength, if_neg h8])
  generalize (addrLength (c.addrLen s)).toInt = n at hlt hwide
  unfold Touch.Fine PutArgs.Fits
  rw [forall_prop_of_true rfl]
  show Touch.Within _ c.Holds ∧ _ ↔ _
  by_cases hpos : 0 < n
  · rw [within_message_iff hlen hpos hlt]
    omega
  · have hempty : (Touch.mk .hand (c.ctlBuf + c.addrOff s) n).Within c.Holds := fun x hx => by
      replace hx : ((x - (c.ctlBuf + c.addrOff s)).toNat : Int) < n := hx
      omega
    rw [and_iff_right hempty]
    omega

variable (t : Sys)

/-- The family is read, and if necessary written, where the address begins. -/
theorem keeps_fixFamilyT : (fixFamilyT e sin).Keeps (Touch.Fine c s) t ↔ c.Covers s.esp sin 2 := by
  unfold fixFamilyT
  rw [keeps_bind, keeps_getUser16T, fine_read, keeps_ite, keeps_bind, keeps_putUser16T, fine_write,
    keeps_pure, keeps_pure]
  refine and_iff_left_of_imp fun h => ?_
  split
  · exact ⟨h, trivial⟩
  · trivial

theorem keeps_fixPortT (family : BitVec 16) :
    (fixPortT e sin family).Keeps (Touch.Fine c s) t ↔
      (e.perSvr4 = true ∧ family = AF_INET → c.Covers s.esp (sin + 2) 2) := by
  unfold fixPortT
  rw [keeps_ite, keeps_bind, keeps_getUser16T, fine_read, keeps_ite, keeps_putUser16T, fine_write,
    keeps_pure]
  split
  next hinet =>
    rw [forall_prop_of_true hinet]
    refine and_iff_left_of_imp fun h => ?_
    split
    · exact h
    · trivial
  next hother => exact iff_of_true ((keeps_pure ..).mpr trivial) fun h => absurd h hother

/-- Every list of arguments that is built here has its place in the frame. -/
theorem keeps_args {args : List Word} (h : args.length ≤ 256) :
    (putArgsT e (s.esp - 1024) args).Keeps (Touch.Fine c s) t := by
  rw [keeps_putArgsT, fine_write]
  exact covers_frame (by omega)

theorem keeps_call (answer : SockAnswer) (h : n ≤ 256) :
    (socketcallT answer (s.esp - 1024) n).Keeps (Touch.Fine c s) t := by
  rw [keeps_socketcallT, fine_read]
  exact covers_frame (by omega)

theorem keeps_bindCallT (hlen : c.ctlLen < 2 ^ 31) (t : Sys) :
    (bindCallT e c (s.esp - 1024) (c.addrLen s) (c.addrOff s)).Keeps (Touch.Fine c s) t ↔
      c.Covers s.esp (c.ctlBuf + c.addrOff s) 2 ∧ c.Fits s (addrLength (c.addrLen s)) := by
  unfold bindCallT
  rw [keeps_bind, keeps_fixFamilyT, keeps_bind, keeps_bind, keeps_handOver, fine_hand hlen]
  rw [and_iff_right (keeps_args _ (by simp)), and_iff_left (keeps_call _ _ (by decide))]

theorem keeps_listenCallT (conind : Word) :
    (listenCallT e c (s.esp - 1024) conind).Keeps (Touch.Fine c s) t := by
  unfold listenCallT
  rw [keeps_bind]
  exact ⟨keeps_args _ (by simp), keeps_call _ _ (by decide)⟩

theorem keeps_bindAddressT (hlen : c.ctlLen < 2 ^ 31) (t : Sys) (conind : Word) :
    (bindAddressT e c (s.esp - 1024) (c.addrLen s) (c.addrOff s) conind).Keeps
        (Touch.Fine c s) t ↔
      c.Covers s.esp (c.ctlBuf + c.addrOff s) 2 ∧ c.Fits s (addrLength (c.addrLen s)) := by
  unfold bindAddressT
  rw [keeps_bind, keeps_bindCallT hlen, keeps_ite, keeps_pure, keeps_ite, keeps_bind, keeps_bind,
    keeps_bind]
  refine and_iff_left_of_imp fun _ => ?_
  split
  · trivial
  · split
    · exact ⟨keeps_listenCallT _ _, (keeps_modify ..).mpr trivial, (keeps_pure ..).mpr trivial⟩
    · exact ⟨(keeps_modify ..).mpr trivial, (keeps_pure ..).mpr trivial⟩

/-- The reply copies the message, and nothing else. -/
theorem keeps_bindReplyT (error : Int) : (bindReplyT e c error).Keeps (Touch.Fine c s) t := by
  unfold bindReplyT
  rw [keeps_bind, keeps_get, true_and, keeps_ite, keeps_pure, result_get]
  split
  · trivial
  · split
    · exact (keeps_pure ..).mpr trivial
    · rw [keeps_bind, keeps_copyFromUserT, fine_read]
      refine ⟨covers_message _, ?_⟩
      split <;> exact (keeps_pure ..).mpr trivial

theorem keeps_connReplyT (error : Int) : (connReplyT e c error).Keeps (Touch.Fine c s) t := by
  unfold connReplyT
  rw [keeps_bind, keeps_get, true_and, keeps_ite, keeps_pure, result_get]
  split
  · split
    · exact (keeps_pure ..).mpr trivial
    · rw [keeps_bind, keeps_copyFromUserT, fine_read]
      refine ⟨covers_message _, ?_⟩
      split <;> exact (keeps_pure ..).mpr trivial
  · trivial

/-- The family `connect` goes by: read behind the arguments of the call, which are
already stored. -/
def PutArgs.destFamily (c : PutArgs) (e : Env) (s : Sys) : BitVec 16 :=
  familyAt e (putArgs e (s.esp - 1024)
    [c.fd, c.ctlBuf + c.addrOff s, addrLength (c.addrLen s)] { s with esp := s.esp - 1024 })
    (c.ctlBuf + c.addrOff s)

/-- The request makes its socket call. -/
def AddrRequest.Calls (q : AddrRequest) (c : PutArgs) (s : Sys) : Prop :=
  match q with
  | bind => c.addrOff s ≠ 0 ∧ c.addrLen s ≠ 0
  | conn => True

instance AddrRequest.decidableCalls (q : AddrRequest) (c : PutArgs) (s : Sys) :
    Decidable (q.Calls c s) :=
  match q with
  | .bind => inferInstanceAs (Decidable (_ ∧ _))
  | .conn => inferInstanceAs (Decidable True)

/-- The request looks at the port. -/
def AddrRequest.LooksAtPort (q : AddrRequest) (e : Env) (c : PutArgs) (s : Sys) : Prop :=
  match q with
  | bind => False
  | conn => e.perSvr4 = true ∧ c.destFamily e s = AF_INET

/-- What the address has to fulfil. -/
structure AddrRequest.AddressInside (q : AddrRequest) (e : Env) (c : PutArgs) (s : Sys) : Prop where
  family : c.Covers s.esp (c.ctlBuf + c.addrOff s) 2
  port : q.LooksAtPort e c s → c.Covers s.esp (c.ctlBuf + c.addrOff s + 2) 2
  whole : c.Fits s (addrLength (c.addrLen s))

theorem keeps_takenT (hlen : c.ctlLen < 2 ^ 31) :
    (takenT e c q s).Keeps (Touch.Fine c s) { s with esp := s.esp - 1024 } ↔
      (q.Calls c s → q.AddressInside e c s) := by
  cases q with
  | bind =>
    unfold takenT bindTakenT bindAskedT
    rw [keeps_bind, keeps_ite, keeps_pure, keeps_bind, keeps_modify, true_and,
      and_iff_left (keeps_bindReplyT _ _)]
    split
    next hasked =>
      rw [forall_prop_of_true (p := AddrRequest.bind.Calls c s) hasked]
      refine (keeps_bindAddressT hlen _ _).trans ⟨fun h => ⟨h.1, nofun, h.2⟩, fun h => ?_⟩
      exact ⟨h.family, h.whole⟩
    next hno => exact iff_of_true trivial fun h => absurd h hno
  | conn =>
    unfold takenT connTakenT connectArgsT connectCallT
    rw [forall_prop_of_true (p := AddrRequest.conn.Calls c s) trivial]
    simp only [keeps_bind, keeps_get, keeps_modify, keeps_pure, true_and, and_true,
      keeps_fixFamilyT, keeps_fixPortT, keeps_handOver, keeps_connReplyT, result_bind,
      putArgsT_result, fixFamilyT_result]
    rw [and_iff_left (keeps_call _ _ (by decide)), and_iff_right (keeps_args _ (by simp))]
    constructor
    · rintro ⟨hfamily, hport, hhand⟩
      exact ⟨hfamily, hport, (fine_hand hlen).mp hhand⟩
    · intro h
      exact ⟨h.family, h.port, (fine_hand hlen).mpr h.whole⟩

/-- What the message has to fulfil: the type and, if the request gets that far, the
header lie in it, and so does the address if it is used. -/
structure AddrRequest.Inside (q : AddrRequest) (e : Env) (c : PutArgs) (s : Sys) : Prop where
  type : c.Covers s.esp c.ctlBuf 4
  header : q.scratch.borrows e c s → c.Covers s.esp c.ctlBuf q.scratch.size
  address : q.scratch.borrows e c s → ¬ e.copyFaults c.ctlBuf q.scratch.size → q.Calls c s →
    q.AddressInside e c s

theorem confined_iff_inside (hlen : c.ctlLen < 2 ^ 31) (h : getUser e s c.ctlBuf = some q.prim) :
    Confined q e c s ↔ q.Inside e c s := by
  rw [confined_iff_fine h]
  unfold putmsgTraced
  rw [keeps_bind, keeps_getUserT, fine_read, keeps_borrowedT, getUserT_result, fine_read,
    keeps_takenT hlen]
  constructor
  · rintro ⟨htype, hrest⟩
    exact ⟨htype, fun hb => (hrest hb).1, fun hb => (hrest hb).2⟩
  · intro hi
    exact ⟨hi.type, fun hb => ⟨hi.header hb, hi.address hb⟩⟩

end Condition

/-- A bind or connect request stays in its message and its frame exactly if its type, its
header, the family and the port that are looked at lie there, and the address, with a
length of 8 counted as 16, fits in the message. -/
theorem bind_connect_confined_iff (q : AddrRequest) (e : Env) (c : PutArgs) (s : Sys)
    (hlen : c.ctlLen < 2 ^ 31) (h : getUser e s c.ctlBuf = some q.prim) :
    Confined q e c s ↔ q.Inside e c s :=
  confined_iff_inside hlen h

/-- A connect request of 36 bytes whose address are the last sixteen. -/
def connInside : Sys := endpoint .idle [T_CONN_REQ, 16, 20, 0, 0, 0x70170002, 0, 0, 0]

theorem connect_stays_inside :
    Confined .conn { plainEnv with perSvr4 := true } (putAt 36) connInside := by
  refine (bind_connect_confined_iff _ _ _ _ (by decide) (by decide +kernel)).mpr ?_
  refine ⟨covers_part (k := 0) (by decide),
    fun _ => covers_part (k := 0) (by decide), fun _ _ _ => ⟨?_, fun _ => ?_, ?_⟩⟩
  · exact covers_part (k := 20) (by decide)
  · exact covers_part (k := 22) (by decide)
  · unfold PutArgs.Fits
    decide +kernel

/-- A bind request of 16 bytes with an address of 16 bytes behind it. -/
def bindBehind : Sys := endpoint .unbnd [T_BIND_REQ, 16, 16, 0, 0x0200]

/-- A bind request of 24 bytes with an address of 8 bytes at its end. -/
def bindShort : Sys := endpoint .unbnd [T_BIND_REQ, 8, 16, 0, 2, 0]

/-- The first request has the bytes of its family exchanged in place although they are
not part of the message. The address of the second one fits, and 16 bytes are handed on,
eight of which do not belong to the message. -/
theorem bind_reaches_outside :
    (∃ t, doPutmsg plainEnv (putAt 16) bindBehind = .ok (0, t) ∧
      t.mem 0x1010 ≠ bindBehind.mem 0x1010 ∧ ¬ (putAt 16).Holds 0x1010 ∧
      ¬ Lent bindBehind.esp 0x1010 ∧ ¬ Confined .bind plainEnv (putAt 16) bindBehind) ∧
    (putAt 24).Fits bindShort ((putAt 24).addrLen bindShort) ∧
      ⟨.hand, 0x1010, 16⟩ ∈ (putmsgTraced .bind plainEnv (putAt 24)).log bindShort ∧
      ¬ Confined .bind plainEnv (putAt 24) bindShort := by
  refine ⟨⟨_, rfl, by decide +kernel, by decide, by decide, fun h => ?_⟩, by decide +kernel,
    by decide +kernel, fun h => ?_⟩
  all_goals
    have hin := (confined_iff_inside (by decide) (by decide +kernel)).mp h
    have hfit := (hin.address (by decide) (by decide) (by decide +kernel)).whole
    exact absurd hfit (by decide +kernel)

end AbiEmu.Xti
