import AbiEmu.Lib.Writes
import AbiEmu.Xti.Frame
import AbiEmu.Xti.States

/-!
# `timod_getmsg` (`abi/svr4/timod.c`)

The system call: it reads the two `struct strbuf` of the caller, puts -1 into
their `len` fields, fetches a message with `do_getmsg` and stores the flags.
Either structure may be missing. Then its `maxlen` counts as -1, its buffer is
whatever the stack holds, and the address of its `len` field is computed from
the null pointer all the same.

Beside its result and the endpoint a call has a log of its stores, for
specification only, labelled by the pointer of the caller they go through.
`getActs` is the log of `do_getmsg`, branch by branch. `openedGetmsg_replay` ties the
logs to the model: memory after the call is what replaying them gives. For
that the stores of `recvfrom` must be known; `Received` describes them, and
`Received.Fits` is the contract of that call.
-/

namespace AbiEmu.Xti

open Except

/-- The device number of an inode. -/
structure Rdev where
  major : Nat
  minor : Nat
  deriving DecidableEq, Repr

def SOCKSYS_MAJOR : Nat := 30

/-- The inode belongs to `/dev/spx`, the client side of a pipe to the X server. -/
def Rdev.isSpx (ip : Rdev) : Prop := ip.major = SOCKSYS_MAJOR ∧ ip.minor = 1
  deriving Decidable

/-- What `timod_getmsg` uses of a `struct strbuf`. -/
structure Strbuf where
  maxlen : Int
  buf : Word

/-- The arguments of `timod_getmsg`, and what its variables `ctl.buf` and
`dat.buf` hold on entry. -/
structure GetmsgArgs where
  fd : Word
  ctlp : Word
  datp : Word
  flagsp : Word
  ctlJunk : Word
  datJunk : Word

/-- The pointers of the caller; `stack` is scratch space below the stack pointer. -/
inductive Ptr where
  | ctlBuf | ctlLen | datBuf | datLen | flags | stack
  deriving DecidableEq, Repr

/-- The flags of a message, `MSG_ANY` and `MSG_BAND`. -/
def getmsgFlags : List Word := [0, 1, 2, 4]

/-! ## The log of `do_getmsg` -/

section Log

variable (e : Env) (c : GetArgs)

/-- A `put_user` through `p`. -/
def putAct (p : Ptr) (a v : Word) : List (Act Ptr) :=
  if e.canWrite a 4 then [.put p a v] else []

/-- The arguments of a socket call. -/
def argActs (tsp : Word) (args : List Word) : List (Act Ptr) :=
  args.zipIdx.flatMap fun v => putAct e .stack (tsp + BitVec.ofNat 32 (4 * v.2)) v.1

def deliverActs (it : TPrimsg) (s : Sys) : List (Act Ptr) :=
  let l := c.take it.length
  if e.verify true c.ctlBuf l = true ∧ e.canWrite c.ctlBuf l.toNat = true then
    .copy .ctlBuf c.ctlBuf ((List.range l.toNat).map fun i => it.body (s.priv.offset.toNat + i)) ::
      (putAct e .ctlLen c.ctlLen (BitVec.ofInt 32 l) ++
        if 0 ≤ c.datMaxlen then putAct e .datLen c.datLen 0 else [])
  else []

def nothingActs : List (Act Ptr) :=
  (if c.datMaxlen = 0 then putAct e .datLen c.datLen 0 else []) ++
    if 0 ≤ c.ctlMaxlen then putAct e .ctlLen c.ctlLen 0 else []

/-- The address arguments of `recvfrom`; the length field serves as its argument. -/
def addrActs (tsp : Word) (wants : Bool) : List (Act Ptr) :=
  putAct e .stack (tsp + 16) (if wants then c.ctlBuf + 20 else 0) ++
    (putAct e .ctlLen c.ctlLen (if wants then BitVec.ofInt 32 (c.ctlMaxlen - 20) else 0) ++
      putAct e .stack (tsp + 20) c.ctlLen)

/-- What `recvfrom` stores: data, the sender's address and its length. -/
structure Received where
  data : List Byte
  addr : List Byte
  addrLen : Option Word

/-- The stores of `recvfrom`; without a place for the address it stores none. -/
def Received.acts (rv : Received) (wants : Bool) : List (Act Ptr) :=
  .copy .datBuf c.datBuf rv.data ::
    if wants then
      .copy .ctlBuf (c.ctlBuf + 20) rv.addr :: rv.addrLen.toList.map (.put .ctlLen c.ctlLen)
    else []

/-- What follows `recvfrom`, which left the endpoint as `t`. -/
def takeActs (wants : Bool) (t : Sys) : List (Act Ptr) :=
  let error := (e.socket .recvfrom).result
  if error < 0 then []
  else if error ≠ 0 ∧ wants = true then
    let srcLength := getUserD e t c.ctlLen
    if e.canWrite c.ctlBuf 20 then
      .copy .ctlBuf c.ctlBuf ([T_UNITDATA_IND, srcLength, 20, 0, 0].flatMap Word.bytes) ::
        (putAct e .ctlLen c.ctlLen (20 + srcLength) ++
          putAct e .datLen c.datLen (BitVec.ofInt 32 error))
    else []
  else putAct e .ctlLen c.ctlLen 0 ++ putAct e .datLen c.datLen (BitVec.ofInt 32 error)

def receiveActs (rv : Received) (esp : Word) (s : Sys) : List (Act Ptr) :=
  if c.datMaxlen ≤ 0 then nothingActs e c
  else if ¬ e.verify true (esp - 1024) 24 then []
  else
    argActs e (esp - 1024) [c.fd, c.datBuf, BitVec.ofInt 32 c.datMaxlen, 0] ++
      (addrActs e c (esp - 1024) (wantsAddr c s) ++
        (rv.acts c (wantsAddr c s) ++ takeActs e c (wantsAddr c s) (afterRecv e c esp s)))

def lookActs (s : Sys) : List (Act Ptr) :=
  if (0 ≤ c.ctlMaxlen ∧ s.priv.pfirst = none) ∧ callsAccept e s then
    argActs e (s.esp - 1024) [c.fd, s.esp - 1024 + 16, s.esp - 1024 + 12, 16] ++
      [.call (e.socket .accept).effect]
  else []

/-- The log of `getFrom`. -/
def fromActs (rv : Received) (esp : Word) (t : Sys) : List (Act Ptr) :=
  if 0 ≤ c.ctlMaxlen then
    match t.priv.pfirst with
    | some a =>
      match t.heap a with
      | none => []
      | some it => deliverActs e c it t
    | none => receiveActs e c rv esp t
  else receiveActs e c rv esp t

/-- The log of `do_getmsg`. -/
def getActs (rv : Received) (s : Sys) : List (Act Ptr) :=
  if getEnters e s then lookActs e c s ++ fromActs e c rv s.esp (lookForConnection e c s) else []

end Log

/-- The contract of `recvfrom`: it stores what is said, at most as much as there
is room for, and its result is the number of bytes of data or an error. A failed
call may have stored something too. -/
structure Received.Fits (rv : Received) (e : Env) (c : GetArgs) (wants : Bool) : Prop where
  effect : ∀ m, (e.socket .recvfrom).effect m = replay (rv.acts c wants) m
  data : 0 ≤ (e.socket .recvfrom).result → rv.data.length = (e.socket .recvfrom).result
  room : rv.data.length ≤ c.datMaxlen.toNat
  addrRoom : wants = true → rv.addr.length + 20 ≤ c.ctlMaxlen.toNat

/-! ## `timod_getmsg` -/

/-- The result of a call, the endpoint, and the log of its stores. -/
structure Call where
  ret : Int
  sys : Sys
  acts : List (Act Ptr)

/-- Read the structure at `p`, if there is one, and put -1 into its length;
`none` is a fault. -/
def openStrbuf (e : Env) (p junk : Word) (s : Sys) : Option (Strbuf × Sys) :=
  if p = 0 then some (⟨-1, junk⟩, s)
  else if ¬ e.canRead p 12 then none
  else if ¬ e.canWrite (p + 4) 4 then none
  else some (⟨(s.mem.word p).toInt, s.mem.word (p + 8)⟩, putUser e (p + 4) (-1) s)

/-- The log of `openStrbuf`. -/
def openActs (via : Ptr) (p : Word) : List (Act Ptr) :=
  if p = 0 then [] else [.put via (p + 4) (-1)]

/-- The descriptor offered on an SPX device: one byte of it, since `ctl.buf`
points to characters. -/
def spxGetmsg (e : Env) (c : GetmsgArgs) (ctl : Strbuf) (s : Sys) : Call :=
  if ¬ e.canWrite ctl.buf 1 then ⟨-EFAULT, s, []⟩
  else
    let s1 := { s with mem := s.mem.store ctl.buf [c.fd.extractLsb' 0 8] }
    let act := .copy .ctlBuf ctl.buf [c.fd.extractLsb' 0 8]
    if ¬ e.canWrite (c.ctlp + 4) 4 then ⟨-EFAULT, s1, [act]⟩
    else ⟨0, putUser e (c.ctlp + 4) 4 s1, [act, .put .ctlLen (c.ctlp + 4) 4]⟩

/-- The arguments `timod_getmsg` makes for `do_getmsg`. -/
def GetmsgArgs.getArgs (c : GetmsgArgs) (ctl dat : Strbuf) (flags : Word) : GetArgs :=
  ⟨c.fd, ctl.buf, ctl.maxlen, c.ctlp + 4, dat.buf, dat.maxlen, c.datp + 4, flags.toInt⟩

/-- A message is fetched and the flags are stored. What `do_getmsg` returned is
lost when that succeeds. -/
def xtiGetmsg (e : Env) (c : GetmsgArgs) (a : GetArgs) (rv : Received) (s : Sys) : Res Call :=
  match doGetmsg e a s with
  | .error stop => .error stop
  | .ok g =>
    if g.ret < 0 then .ok ⟨g.ret, g.sys, getActs e a rv s⟩
    else if ¬ e.canWrite c.flagsp 4 then .ok ⟨-EFAULT, g.sys, getActs e a rv s⟩
    else
      .ok ⟨0, putUser e c.flagsp (BitVec.ofInt 32 g.flags) g.sys,
        getActs e a rv s ++ [.put .flags c.flagsp (BitVec.ofInt 32 g.flags)]⟩

/-- `timod_getmsg` once both structures have been read. -/
def openedGetmsg (e : Env) (ip : Rdev) (c : GetmsgArgs) (rv : Received) (ctl dat : Strbuf)
    (s : Sys) : Res Call :=
  match getUser e s c.flagsp with
  | none => .ok ⟨-EFAULT, s, []⟩
  | some flags =>
    if ip.isSpx then .ok (spxGetmsg e c ctl s)
    else if flags ∈ getmsgFlags then xtiGetmsg e c (c.getArgs ctl dat flags) rv s
    else .ok ⟨-EINVAL, s, []⟩

/-- The stores `acts` were made first. -/
def Call.after (acts : List (Act Ptr)) (k : Call) : Call := { k with acts := acts ++ k.acts }

/-- `timod_getmsg`. -/
def timodGetmsg (e : Env) (ip : Rdev) (c : GetmsgArgs) (rv : Received) (s : Sys) : Res Call :=
  match openStrbuf e c.ctlp c.ctlJunk s with
  | none => .ok ⟨-EFAULT, s, []⟩
  | some (ctl, s1) =>
    match openStrbuf e c.datp c.datJunk s1 with
    | none => .ok ⟨-EFAULT, s1, openActs .ctlLen c.ctlp⟩
    | some (dat, s2) =>
      (openedGetmsg e ip c rv ctl dat s2).map
        (Call.after (openActs .ctlLen c.ctlp ++ openActs .datLen c.datp))

/-- The contract of `recvfrom` for the call `timod_getmsg` makes of it. -/
def Received.Answers (rv : Received) (e : Env) (c : GetmsgArgs) (s : Sys) : Prop :=
  ∀ {ctl dat : Strbuf} {s1 s2 : Sys} {flags : Word},
    openStrbuf e c.ctlp c.ctlJunk s = some (ctl, s1) →
    openStrbuf e c.datp c.datJunk s1 = some (dat, s2) →
    getUser e s2 c.flagsp = some flags →
    rv.Fits e (c.getArgs ctl dat flags) (wantsAddr (c.getArgs ctl dat flags) s2)

/-! ## The logs replayed -/

section Replay

variable {e : Env} {c : GetArgs} {rv : Received} {s t : Sys}

theorem putUser_replay (e : Env) (p : Ptr) (a v : Word) (s : Sys) :
    (putUser e a v s).mem = replay (putAct e p a v) s.mem := by
  unfold putUser putAct
  split <;> rfl

theorem putArgs_replay (e : Env) (tsp : Word) (args : List Word) (s : Sys) :
    (putArgs e tsp args s).mem = replay (argActs e tsp args) s.mem := by
  unfold putArgs argActs
  generalize args.zipIdx = l
  induction l generalizing s with
  | nil => rfl
  | cons v l ih =>
    rw [List.foldl_cons, ih, List.flatMap_cons, replay_append, putUser_replay e .stack]

theorem ite_replay {P : Prop} [Decidable P] (e : Env) (p : Ptr) (a v : Word) (s : Sys) :
    (if P then putUser e a v s else s).mem = replay (if P then putAct e p a v else []) s.mem := by
  split
  · exact putUser_replay ..
  · rfl

theorem nothing_replay (e : Env) (c : GetArgs) (s : Sys) :
    (nothing e c s).mem = replay (nothingActs e c) s.mem := by
  unfold nothingActs
  rw [replay_append, ← ite_replay]
  exact ite_replay ..

theorem addrArgs_replay (e : Env) (c : GetArgs) (tsp : Word) (w : Bool) (s : Sys) :
    (addrArgs e c tsp w s).mem = replay (addrActs e c tsp w) s.mem := by
  unfold addrArgs addrActs
  rw [replay_append, replay_append]
  split <;> rw [putUser_replay e .stack, putUser_replay e .ctlLen, putUser_replay e .stack]

variable {g : Got}

theorem deliver_replay {a : Addr} {it : TPrimsg} (h : deliver e c a it s = .ok g) :
    g.sys.mem = replay (deliverActs e c it s) s.mem := by
  unfold deliverActs
  rcases deliver_eq e c a it s with ⟨hfault, hg⟩ | ⟨s1, hwrite, hcopy, hg⟩
  · obtain rfl := ok.inj (hg.symm.trans h)
    rw [if_neg hfault]
    rfl
  · obtain ⟨k, -, rfl⟩ := map_eq_ok (hg.symm.trans h)
    rw [if_pos hwrite, noData, ite_replay e .datLen, putUser_replay e .ctlLen,
      (copyToUser_some hcopy).2, replay_cons, replay_append]
    rfl

theorem takeData_replay (e : Env) (c : GetArgs) (w : Bool) (t : Sys) :
    (takeData e c w t).sys.mem = replay (takeActs e c w t) t.mem := by
  unfold takeData takeActs
  dsimp only
  split
  · rfl
  · split
    · split
      next hcopy =>
        have hfault : ¬ e.canWrite c.ctlBuf 20 = true :=
          fun hw => Option.some_ne_none _ ((if_pos hw).symm.trans hcopy)
        rw [if_neg hfault, replay_nil]
      next t' hcopy =>
        obtain ⟨hw, rfl⟩ := copyToUser_some hcopy
        rw [if_pos (show e.canWrite c.ctlBuf 20 = true from hw), putUser_replay e .datLen,
          putUser_replay e .ctlLen, replay_cons, replay_append]
        rfl
    · rw [putUser_replay e .datLen, putUser_replay e .ctlLen, replay_append]

theorem receive_replay (esp : Word) (s : Sys) (hrv : rv.Fits e c (wantsAddr c s)) :
    (receive e c esp s).sys.mem = replay (receiveActs e c rv esp s) s.mem := by
  unfold receiveActs
  split_ifs with hdat hv
  · rw [receive, if_pos hdat]
    exact nothing_replay ..
  · rw [receive_eq hdat hv, takeData_replay, replay_append, replay_append, replay_append]
    have hrecv : (afterRecv e c esp s).mem =
        replay (rv.acts c (wantsAddr c s)) (recvArgs e c esp s).mem := hrv.effect _
    rw [hrecv, recvArgs, addrArgs_replay, putArgs_replay]
  · rw [receive, if_neg hdat, if_pos hv]
    rfl

theorem announceConnection_mem (e : Env) (s t : Sys) :
    (announceConnection e s t).2.mem = t.mem := by
  unfold announceConnection
  dsimp only
  repeat' split
  all_goals rfl

theorem lookForConnection_replay (e : Env) (c : GetArgs) (s : Sys) :
    (lookForConnection e c s).mem = replay (lookActs e c s) s.mem := by
  unfold lookActs
  rw [ite_and]
  unfold lookForConnection
  split_ifs with hlook hcall
  · rw [timodUpdateSocket_eq hcall, announceConnection_mem, replay_append]
    show (e.socket .accept).effect (putArgs e _ _ _).mem = _
    rw [putArgs_replay]
    rfl
  · rw [timodUpdateSocket_quiet hcall, replay_nil]
  · rfl

/-- Looking for a connection does not change whether an address is wanted. -/
theorem wantsAddr_look (e : Env) (c : GetArgs) (s : Sys) :
    wantsAddr c (lookForConnection e c s) = wantsAddr c s := by
  unfold wantsAddr
  rw [(lookForConnection_links).state]

theorem getFrom_replay {esp : Word} (hrv : rv.Fits e c (wantsAddr c s))
    (h : getFrom e c esp s = .ok g) : g.sys.mem = replay (fromActs e c rv esp s) s.mem := by
  unfold getFrom at h
  unfold fromActs
  split_ifs at h ⊢ with hmax
  · cases hfirst : s.priv.pfirst with
    | none =>
      rw [hfirst] at h
      obtain rfl := ok.inj h
      exact receive_replay esp s hrv
    | some a =>
      rw [hfirst] at h
      dsimp only at h ⊢
      cases hit : s.heap a with
      | none => rw [hit] at h; cases h
      | some it =>
        rw [hit] at h
        exact deliver_replay h
  · obtain rfl := ok.inj h
    exact receive_replay esp s hrv

/-- Memory after `do_getmsg` is what its log says. -/
theorem doGetmsg_replay (hrv : rv.Fits e c (wantsAddr c s)) (h : doGetmsg e c s = .ok g) :
    g.sys.mem = replay (getActs e c rv s) s.mem := by
  unfold getActs
  split_ifs with henter
  · rw [doGetmsg_eq henter] at h
    rw [← wantsAddr_look e] at hrv
    rw [replay_append, ← lookForConnection_replay]
    exact getFrom_replay hrv h
  · obtain ⟨r, -, heq⟩ := doGetmsg_turned_down henter
    obtain rfl := ok.inj (h.symm.trans heq)
    rfl

end Replay

section Replay

variable {e : Env} {ip : Rdev} {c : GetmsgArgs} {rv : Received} {s t : Sys}

theorem openStrbuf_replay {p junk : Word} {b : Strbuf} (via : Ptr)
    (h : openStrbuf e p junk s = some (b, t)) : t.mem = replay (openActs via p) s.mem := by
  unfold openStrbuf at h
  unfold openActs
  split_ifs at h ⊢ with hnull hr hw
  all_goals obtain ⟨-, rfl⟩ := Prod.mk.inj (Option.some.inj h)
  · rfl
  · rw [putUser_replay e via, putAct, if_pos hw]

theorem spxGetmsg_replay (e : Env) (c : GetmsgArgs) (ctl : Strbuf) (s : Sys) :
    (spxGetmsg e c ctl s).sys.mem = replay (spxGetmsg e c ctl s).acts s.mem := by
  unfold spxGetmsg
  split_ifs with _ hw
  · rw [putUser_replay e .ctlLen, putAct, if_pos hw]
    rfl
  all_goals rfl

theorem xtiGetmsg_replay {a : GetArgs} {k : Call} (hrv : rv.Fits e a (wantsAddr a s))
    (h : xtiGetmsg e c a rv s = .ok k) : k.sys.mem = replay k.acts s.mem := by
  unfold xtiGetmsg at h
  split at h
  · exact nomatch h
  next g hg =>
    have hmem := doGetmsg_replay hrv hg
    split_ifs at h with hr hw
    all_goals obtain rfl := ok.inj h
    · exact hmem
    · rw [replay_append, ← hmem, putUser_replay e .flags, putAct, if_pos hw]
    · exact hmem

theorem openedGetmsg_replay {ctl dat : Strbuf} {k : Call}
    (hrv : ∀ {flags}, getUser e s c.flagsp = some flags →
      rv.Fits e (c.getArgs ctl dat flags) (wantsAddr (c.getArgs ctl dat flags) s))
    (h : openedGetmsg e ip c rv ctl dat s = .ok k) : k.sys.mem = replay k.acts s.mem := by
  unfold openedGetmsg at h
  split at h
  · obtain rfl := ok.inj h
    rfl
  next flags hflags =>
    split_ifs at h
    · obtain rfl := ok.inj h
      exact spxGetmsg_replay ..
    · exact xtiGetmsg_replay (hrv hflags) h
    · obtain rfl := ok.inj h
      rfl

end Replay

end AbiEmu.Xti
