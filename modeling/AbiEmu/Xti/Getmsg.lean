import AbiEmu.Xti.Queue

/-!
# `timod_update_socket` and `do_getmsg` (`abi/svr4/xti.c`)

`do_getmsg` hands the first control message to the user, in pieces as large as
the user's buffer; it returns `MORECTL` while bytes are left and unlinks the
message with the last piece. Without a control message it receives data from
the socket.

An endpoint that waits for connections accepts one first, if its queue is
empty; `timod_update_socket` turns it into a `T_CONN_IND` message. The priority
of that message is never set: it is what the block held before.
-/

namespace AbiEmu.Xti

/-- `timod_update_socket`. The message is queued in front. -/
def timodUpdateSocket (e : Env) (fd : Word) (s : Sys) : Int × Sys :=
  if ¬ e.stream ∨ s.priv.state ≠ .wresCind then (0, s)
  else
    let tsp := s.esp - 1024
    if ¬ e.verify true tsp 28 then (-EFAULT, s)
    else
      let s1 := putArgs e tsp [fd, tsp + 16, tsp + 12, 16] { s with esp := tsp }
      -- the flags are saved in 16 bits
      let oldflags := s1.fflags.setWidth 16
      let r := socketcall (e.socket .accept) { s1 with fflags := s1.fflags ||| O_NONBLOCK }
      let error := r.1
      let s3 := { r.2 with fflags := oldflags.setWidth 32 }
      if error < 0 then (error, { s3 with esp := s.esp })
      else
        let alen := getUserD e s3 (tsp + 12)
        match s3.timodMkctl e.ctlAlloc (24 + alen.toNat) with
        | none =>
          -- no memory: the connection is dropped
          (error, { s3 with
            esp := s.esp
            fdOps := s3.fdOps ++ [.close (BitVec.ofInt 32 error)] })
        | some (b, k) =>
          match copyFromUser e s3 (tsp + 16) alen.toInt with
          | none => (-EFAULT, { s3 with toCore := k })
          | some addr =>
            let ind := [T_CONN_IND, alen, 24, 0, 0, BitVec.ofInt 32 error].flatMap Word.bytes
            let it := { b.junk with
              body := overlay b.junk.body 0 (ind ++ addr)
              length := 24 + alen.toInt }
            (error, { s3 with toCore := k.pushFront b.addr it, esp := s.esp })

/-- The arguments of `do_getmsg`; `flags` is the value behind `flags_p`. -/
structure GetArgs where
  fd : Word
  ctlBuf : Word
  ctlMaxlen : Int
  ctlLen : Word
  datBuf : Word
  datMaxlen : Int
  datLen : Word
  flags : Int

/-- What `do_getmsg` returns, and leaves behind `flags_p`. -/
structure Got where
  ret : Int
  flags : Int
  sys : Sys

/-- How many bytes of a message of `length` bytes the user's buffer takes. -/
def GetArgs.take (c : GetArgs) (length : Int) : Int :=
  if c.ctlMaxlen ≤ length then c.ctlMaxlen else length

/-- The data length is 0, if the user asked for one. -/
def noData (e : Env) (c : GetArgs) (s : Sys) : Sys :=
  if 0 ≤ c.datMaxlen then putUser e c.datLen 0 s else s

/-- The part of `do_getmsg` that hands out the first message `it`, at `a`. -/
def deliver (e : Env) (c : GetArgs) (a : Addr) (it : TPrimsg) (s : Sys) : Res Got :=
  let l := c.take it.length
  if ¬ e.verify true c.ctlBuf l then .ok ⟨-EFAULT, c.flags, s⟩
  else
    let bytes := (List.range l.toNat).map fun i => it.body (s.priv.offset.toNat + i)
    match copyToUser e c.ctlBuf bytes s with
    | none => .ok ⟨-EFAULT, c.flags, s⟩
    | some s1 =>
      let s2 := noData e c (putUser e c.ctlLen (BitVec.ofInt 32 l) s1)
      match s2.takeChunk a it l with
      | .error stop => .error stop
      | .ok k =>
        .ok ⟨if it.length - l ≠ 0 then MORECTL else 0, it.pri.toNat, { s2 with toCore := k }⟩

/-- Nothing to receive: both lengths are 0, as far as the user asked for them. -/
def nothing (e : Env) (c : GetArgs) (s : Sys) : Sys :=
  let s1 := if c.datMaxlen = 0 then putUser e c.datLen 0 s else s
  if 0 ≤ c.ctlMaxlen then putUser e c.ctlLen 0 s1 else s1

/-- The address arguments of `recvfrom`. -/
def addrArgs (e : Env) (c : GetArgs) (tsp : Word) (wantsAddr : Bool) (s : Sys) : Sys :=
  if wantsAddr then
    putUser e (tsp + 20) c.ctlLen (putUser e c.ctlLen (BitVec.ofInt 32 (c.ctlMaxlen - 20))
      (putUser e (tsp + 16) (c.ctlBuf + 20) s))
  else
    putUser e (tsp + 20) c.ctlLen (putUser e c.ctlLen 0 (putUser e (tsp + 16) 0 s))

/-- The part of `do_getmsg` that receives data; `esp` is the stack pointer
`do_getmsg` was entered with. -/
def receive (e : Env) (c : GetArgs) (esp : Word) (s : Sys) : Got :=
  if c.datMaxlen ≤ 0 then ⟨-EAGAIN, 0, nothing e c s⟩
  else
    let tsp := esp - 1024
    if ¬ e.verify true tsp 24 then ⟨-EFAULT, 0, { s with esp := esp }⟩
    else
      let wantsAddr : Bool := 20 < c.ctlMaxlen ∧ s.priv.state = .idle
      let s1 := putArgs e tsp [c.fd, c.datBuf, BitVec.ofInt 32 c.datMaxlen, 0] { s with esp := tsp }
      let s2 := addrArgs e c tsp wantsAddr s1
      let oldflags := s2.fflags.setWidth 16
      let r := socketcall (e.socket .recvfrom) { s2 with fflags := s2.fflags ||| O_NONBLOCK }
      let s4 := { r.2 with fflags := oldflags.setWidth 32, esp := esp }
      if r.1 < 0 then ⟨r.1, 0, s4⟩
      else if r.1 ≠ 0 ∧ wantsAddr then
        let srcLength := getUserD e s4 c.ctlLen
        let udi := [T_UNITDATA_IND, srcLength, 20, 0, 0].flatMap Word.bytes
        match copyToUser e c.ctlBuf udi s4 with
        | none => ⟨-EFAULT, 0, s4⟩
        | some s5 =>
          ⟨0, 0, putUser e c.datLen (BitVec.ofInt 32 r.1)
            (putUser e c.ctlLen (20 + srcLength) s5)⟩
      else
        ⟨0, 0, putUser e c.datLen (BitVec.ofInt 32 r.1) (putUser e c.ctlLen 0 s4)⟩

/-- A control part is asked for and none is queued: look for a connection. -/
def lookForConnection (e : Env) (c : GetArgs) (s : Sys) : Sys :=
  if 0 ≤ c.ctlMaxlen ∧ s.priv.pfirst = none then (timodUpdateSocket e c.fd s).2 else s

/-- `do_getmsg`. -/
def doGetmsg (e : Env) (c : GetArgs) (s : Sys) : Res Got :=
  if ¬ e.verify true (s.esp - 1024) 24 then .ok ⟨-EFAULT, c.flags, s⟩
  else if s.fflags &&& O_NONBLOCK = 0 ∧ e.signalPending then .ok ⟨-EINTR, c.flags, s⟩
  else
    let s1 := lookForConnection e c s
    if 0 ≤ c.ctlMaxlen then
      match s1.priv.pfirst with
      | some a =>
        match s1.heap a with
        | none => .error .noHead
        | some it => deliver e c a it s1
      | none => .ok (receive e c s.esp s1)
    else .ok (receive e c s.esp s1)

/-! ## The user side again -/

section

variable (e : Env) (c : GetArgs)

include e c

@[simp] theorem noData_toCore (s : Sys) : (noData e c s).toCore = s.toCore := by
  unfold noData
  split
  · exact putUser_toCore ..
  · rfl

@[simp] theorem nothing_toCore (s : Sys) : (nothing e c s).toCore = s.toCore := by
  unfold nothing
  by_cases hd : c.datMaxlen = 0 <;> by_cases hc : 0 ≤ c.ctlMaxlen <;> simp [hd, hc]

@[simp] theorem addrArgs_toCore (tsp : Word) (w : Bool) (s : Sys) :
    (addrArgs e c tsp w s).toCore = s.toCore := by
  unfold addrArgs
  split <;> simp only [putUser_toCore]

/-- Receiving data leaves the queue alone, and never returns a positive number. -/
theorem receive_spec (esp : Word) (s : Sys) :
    (receive e c esp s).sys.toCore = s.toCore ∧ (receive e c esp s).ret ≤ 0 := by
  unfold receive
  split
  · exact ⟨nothing_toCore .., by simp [EAGAIN]⟩
  · dsimp only
    split
    · exact ⟨rfl, by simp [EFAULT]⟩
    · split
      next hneg =>
        refine ⟨?_, hneg.le⟩
        simp
      · split
        · split
          · refine ⟨?_, by simp [EFAULT]⟩
            simp
          next s5 hcopy =>
            refine ⟨?_, le_refl 0⟩
            simp [copyToUser_toCore hcopy]
        · refine ⟨?_, le_refl 0⟩
          simp

/-- `deliver` faults, or hands out one piece. -/
theorem deliver_eq (a : Addr) (it : TPrimsg) (s : Sys) :
    (¬ (e.verify true c.ctlBuf (c.take it.length) = true ∧
        e.canWrite c.ctlBuf (c.take it.length).toNat = true) ∧
      deliver e c a it s = .ok ⟨-EFAULT, c.flags, s⟩) ∨
    ∃ s1, (e.verify true c.ctlBuf (c.take it.length) = true ∧
        e.canWrite c.ctlBuf (c.take it.length).toNat = true) ∧
      copyToUser e c.ctlBuf ((List.range (c.take it.length).toNat).map fun i =>
        it.body (s.priv.offset.toNat + i)) s = some s1 ∧
      deliver e c a it s = (s.toCore.takeChunk a it (c.take it.length)).map fun k =>
        ⟨if it.length - c.take it.length ≠ 0 then MORECTL else 0, it.pri.toNat,
          { noData e c (putUser e c.ctlLen (BitVec.ofInt 32 (c.take it.length)) s1) with
            toCore := k }⟩ := by
  unfold deliver
  dsimp only
  split
  next hv => exact .inl ⟨fun hb => hv hb.1, rfl⟩
  next hv =>
    split
    next hcopy =>
      refine .inl ⟨fun hb => ?_, rfl⟩
      rw [copyToUser, List.length_map, List.length_range, if_pos hb.2] at hcopy
      exact nomatch hcopy
    next s1 hcopy =>
      have hw := (copyToUser_some hcopy).1
      rw [List.length_map, List.length_range] at hw
      refine .inr ⟨s1, ⟨not_not.mp hv, hw⟩, hcopy, ?_⟩
      rw [noData_toCore, putUser_toCore, copyToUser_toCore hcopy]
      cases s.toCore.takeChunk a it (c.take it.length) with
      | error stop | ok k => rfl

end

end AbiEmu.Xti
