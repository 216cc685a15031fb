import AbiEmu.Xti.Acts

/-!
# What the operations leave alone on the user's side

Most of an operation's work is done in user memory: arguments are stored below
the stack pointer, a socket call reads and writes its buffers, lengths are put
back. `OnlyMem` says that nothing else changes, and there is one lemma for each
stretch of such work.

`Updates` is `timod_update_socket` as a whole: its ways out, each with the
condition that leads there and everything it leaves behind. `receive_eq` does
the same for the part of `do_getmsg` that receives data.
-/

namespace AbiEmu.Xti

/-- Nothing but user memory differs. -/
def OnlyMem (s t : Sys) : Prop := t = { s with mem := t.mem }

namespace OnlyMem

variable {s t u : Sys}

theorem refl (s : Sys) : OnlyMem s s := rfl

theorem trans (hst : OnlyMem s t) (htu : OnlyMem t u) : OnlyMem s u := by
  rw [hst] at htu
  exact htu

section

variable (h : OnlyMem s t)

include h

theorem toCore : t.toCore = s.toCore := by
  rw [show t = { s with mem := t.mem } from h]

theorem esp : t.esp = s.esp := by
  rw [show t = { s with mem := t.mem } from h]

theorem fflags : t.fflags = s.fflags := by
  rw [show t = { s with mem := t.mem } from h]

theorem fdOps : t.fdOps = s.fdOps := by
  rw [show t = { s with mem := t.mem } from h]

end

end OnlyMem

section User

variable {e : Env} {s t : Sys}

theorem putUser_onlyMem (e : Env) (a v : Word) (s : Sys) : OnlyMem s (putUser e a v s) := by
  unfold putUser
  split <;> rfl

theorem putUser16_onlyMem (e : Env) (a : Word) (v : BitVec 16) (s : Sys) :
    OnlyMem s (putUser16 e a v s) := by
  unfold putUser16
  split <;> rfl

theorem putArgs_onlyMem (e : Env) (tsp : Word) (args : List Word) (s : Sys) :
    OnlyMem s (putArgs e tsp args s) := by
  unfold putArgs
  generalize args.zipIdx = l
  induction l generalizing s with
  | nil => exact .refl s
  | cons v l ih => exact (putUser_onlyMem ..).trans (ih _)

theorem socketcall_onlyMem (a : SockAnswer) (s : Sys) : OnlyMem s (socketcall a s).2 := rfl

theorem copyToUser_onlyMem {a : Word} {bs : List Byte} (h : copyToUser e a bs s = some t) :
    OnlyMem s t := by
  rw [(copyToUser_some h).2]
  rfl

end User

/-! ## What leaves the list of queued messages alone -/

section Queued

variable {k k' : Core}

theorem timodMkctl_queued {alloc : Option Block} {len : Int} {b : Block}
    (hb : k.timodMkctl alloc len = some (b, k')) : k'.queued = k.queued := by
  obtain ⟨-, -, rfl⟩ := timodMkctl_spec hb
  rfl

theorem dropHead_queued (hk : k.dropHead = .ok k') : k'.queued = k.queued := by
  obtain ⟨_, _, _, _, rfl⟩ := dropHead_ok hk
  rfl

theorem dropHead_delivered (hk : k.dropHead = .ok k') : k'.delivered = k.delivered := by
  obtain ⟨_, _, _, _, rfl⟩ := dropHead_ok hk
  rfl

theorem Gets.queued {c : GetArgs} {r : Int} (h : Gets c k r k') : k'.queued = k.queued := by
  cases h with
  | quiet => rfl
  | piece _ _ _ hk =>
    rcases takeChunk_ok hk with ⟨-, rfl⟩ | ⟨-, hk⟩
    · rfl
    · exact (dropHead_queued hk).trans rfl

end Queued

/-! ## `timod_update_socket` -/

/-- The file flags, kept in 16 bits and put back. -/
def narrowed (fflags : Word) : Word := (fflags.setWidth 16).setWidth 32

/-- User memory when `accept` has returned. -/
def acceptMem (e : Env) (fd : Word) (s : Sys) : Mem :=
  let tsp := s.esp - 1024
  (e.socket .accept).effect (putArgs e tsp [fd, tsp + 16, tsp + 12, 16] { s with esp := tsp }).mem

/-- The endpoint when `accept` has returned. -/
def afterAccept (e : Env) (fd : Word) (s : Sys) : Sys :=
  { s with mem := acceptMem e fd s, esp := s.esp - 1024, fflags := narrowed s.fflags }

/-- The length of the peer's address, as `accept` left it. -/
def peerLength (e : Env) (fd : Word) (s : Sys) : Word :=
  getUserD e (afterAccept e fd s) (s.esp - 1024 + 12)

/-- The `T_CONN_IND` for the descriptor `conn`. -/
def connInd (b : Block) (alen : Word) (conn : Int) (addr : List Byte) : TPrimsg :=
  { b.junk with
    body := overlay b.junk.body 0
      ([T_CONN_IND, alen, 24, 0, 0, BitVec.ofInt 32 conn].flatMap Word.bytes ++ addr)
    length := 24 + alen.toInt }

/-- The ways out of `timod_update_socket`, with its result and the endpoint. -/
inductive Updates (e : Env) (fd : Word) (s : Sys) : Int → Sys → Prop
  | quiet {r : Int} (hcall : ¬ callsAccept e s) : Updates e fd s r s
  | refused (hcall : callsAccept e s) (hres : (e.socket .accept).result < 0) :
      Updates e fd s (e.socket .accept).result { afterAccept e fd s with esp := s.esp }
  | dropped (hcall : callsAccept e s) (hres : ¬ (e.socket .accept).result < 0)
      (hb : s.timodMkctl e.ctlAlloc (24 + (peerLength e fd s).toNat) = none) :
      Updates e fd s (e.socket .accept).result
        { afterAccept e fd s with
          esp := s.esp
          fdOps := s.fdOps ++ [.close (BitVec.ofInt 32 (e.socket .accept).result)] }
  | fault {b : Block} {k : Core} (hcall : callsAccept e s)
      (hres : ¬ (e.socket .accept).result < 0)
      (hb : s.timodMkctl e.ctlAlloc (24 + (peerLength e fd s).toNat) = some (b, k))
      (hcopy : copyFromUser e (afterAccept e fd s) (s.esp - 1024 + 16)
        (peerLength e fd s).toInt = none) :
      Updates e fd s (-EFAULT) { afterAccept e fd s with toCore := k }
  | announced {b : Block} {k : Core} {addr : List Byte} (hcall : callsAccept e s)
      (hres : ¬ (e.socket .accept).result < 0)
      (hb : s.timodMkctl e.ctlAlloc (24 + (peerLength e fd s).toNat) = some (b, k))
      (hcopy : copyFromUser e (afterAccept e fd s) (s.esp - 1024 + 16)
        (peerLength e fd s).toInt = some addr) :
      Updates e fd s (e.socket .accept).result
        { afterAccept e fd s with
          toCore := k.pushFront b.addr
            (connInd b (peerLength e fd s) (e.socket .accept).result addr)
          esp := s.esp }

/-- What follows the call of `accept`, which left the endpoint as `t`. -/
def announceConnection (e : Env) (s t : Sys) : Int × Sys :=
  let error := (e.socket .accept).result
  let tsp := s.esp - 1024
  if error < 0 then (error, { t with esp := s.esp })
  else
    let alen := getUserD e t (tsp + 12)
    match t.timodMkctl e.ctlAlloc (24 + alen.toNat) with
    | none =>
      (error, { t with esp := s.esp, fdOps := t.fdOps ++ [.close (BitVec.ofInt 32 error)] })
    | some (b, k) =>
      match copyFromUser e t (tsp + 16) alen.toInt with
      | none => (-EFAULT, { t with toCore := k })
      | some addr =>
        (error, { t with toCore := k.pushFront b.addr (connInd b alen error addr), esp := s.esp })

theorem timodUpdateSocket_eq {e : Env} {fd : Word} {s : Sys} (hcall : callsAccept e s) :
    timodUpdateSocket e fd s = announceConnection e s (afterAccept e fd s) := by
  obtain ⟨hstream, hstate, hverify⟩ := hcall
  unfold timodUpdateSocket
  rw [if_neg (not_or.mpr ⟨not_not.mpr hstream, not_not.mpr hstate⟩)]
  rw [if_neg (not_not.mpr hverify)]
  have hargs := putArgs_onlyMem e (s.esp - 1024) [fd, s.esp - 1024 + 16, s.esp - 1024 + 12, 16]
    { s with esp := s.esp - 1024 }
  rw [hargs]
  rfl

theorem timodUpdateSocket_quiet {e : Env} {fd : Word} {s : Sys} (hcall : ¬ callsAccept e s) :
    (timodUpdateSocket e fd s).2 = s := by
  unfold timodUpdateSocket
  split
  · rfl
  next hst =>
    rw [if_pos]
    obtain ⟨hstream, hstate⟩ := not_or.mp hst
    exact fun hverify => hcall ⟨not_not.mp hstream, not_not.mp hstate, hverify⟩

theorem timodUpdateSocket_updates (e : Env) (fd : Word) (s : Sys) :
    Updates e fd s (timodUpdateSocket e fd s).1 (timodUpdateSocket e fd s).2 := by
  by_cases hcall : callsAccept e s
  · rw [timodUpdateSocket_eq hcall]
    unfold announceConnection
    dsimp only
    split
    next hres => exact .refused hcall hres
    next hres =>
      split
      next hb => exact .dropped hcall hres hb
      next b k hb =>
        split
        next hcopy => exact .fault hcall hres hb hcopy
        next addr hcopy => exact .announced hcall hres hb hcopy
  · rw [timodUpdateSocket_quiet hcall]
    exact .quiet hcall

/-! ## Receiving data -/

section Receive

variable {e : Env} {c : GetArgs} {esp : Word} {s t : Sys}

theorem noData_onlyMem (e : Env) (c : GetArgs) (s : Sys) : OnlyMem s (noData e c s) := by
  unfold noData
  split
  · exact putUser_onlyMem ..
  · exact .refl s

theorem nothing_onlyMem (e : Env) (c : GetArgs) (s : Sys) : OnlyMem s (nothing e c s) := by
  have hdat : OnlyMem s (if c.datMaxlen = 0 then putUser e c.datLen 0 s else s) := by
    split
    · exact putUser_onlyMem ..
    · exact .refl s
  unfold nothing
  dsimp only
  split
  · exact hdat.trans (putUser_onlyMem ..)
  · exact hdat

theorem addrArgs_onlyMem (e : Env) (c : GetArgs) (tsp : Word) (w : Bool) (s : Sys) :
    OnlyMem s (addrArgs e c tsp w s) := by
  unfold addrArgs
  split <;> exact ((putUser_onlyMem ..).trans (putUser_onlyMem ..)).trans (putUser_onlyMem ..)

/-- The sender's address is asked for. -/
def wantsAddr (c : GetArgs) (s : Sys) : Bool := 20 < c.ctlMaxlen ∧ s.priv.state = .idle

/-- User memory with the arguments of `recvfrom`. -/
def recvArgs (e : Env) (c : GetArgs) (esp : Word) (s : Sys) : Sys :=
  addrArgs e c (esp - 1024) (wantsAddr c s)
    (putArgs e (esp - 1024) [c.fd, c.datBuf, BitVec.ofInt 32 c.datMaxlen, 0]
      { s with esp := esp - 1024 })

/-- The endpoint when `recvfrom` has returned. -/
def afterRecv (e : Env) (c : GetArgs) (esp : Word) (s : Sys) : Sys :=
  { s with
    mem := (e.socket .recvfrom).effect (recvArgs e c esp s).mem
    esp := esp
    fflags := narrowed s.fflags }

/-- What follows the call of `recvfrom`, which left the endpoint as `t`. -/
def takeData (e : Env) (c : GetArgs) (addr : Bool) (t : Sys) : Got :=
  let error := (e.socket .recvfrom).result
  if error < 0 then ⟨error, 0, t⟩
  else if error ≠ 0 ∧ addr then
    let srcLength := getUserD e t c.ctlLen
    match copyToUser e c.ctlBuf ([T_UNITDATA_IND, srcLength, 20, 0, 0].flatMap Word.bytes) t with
    | none => ⟨-EFAULT, 0, t⟩
    | some t' =>
      ⟨0, 0, putUser e c.datLen (BitVec.ofInt 32 error) (putUser e c.ctlLen (20 + srcLength) t')⟩
  else ⟨0, 0, putUser e c.datLen (BitVec.ofInt 32 error) (putUser e c.ctlLen 0 t)⟩

theorem takeData_onlyMem (e : Env) (c : GetArgs) (addr : Bool) (t : Sys) :
    OnlyMem t (takeData e c addr t).sys := by
  unfold takeData
  dsimp only
  split
  · exact .refl t
  · split
    · split
      · exact .refl t
      next t' hcopy =>
        exact ((copyToUser_onlyMem hcopy).trans (putUser_onlyMem ..)).trans (putUser_onlyMem ..)
    · exact (putUser_onlyMem ..).trans (putUser_onlyMem ..)

theorem receive_eq (hdat : ¬ c.datMaxlen ≤ 0) (hv : e.verify true (esp - 1024) 24 = true) :
    receive e c esp s = takeData e c (wantsAddr c s) (afterRecv e c esp s) := by
  have hargs : OnlyMem { s with esp := esp - 1024 } (recvArgs e c esp s) :=
    (putArgs_onlyMem ..).trans (addrArgs_onlyMem ..)
  unfold receive
  rw [if_neg hdat]
  rw [if_neg (not_not.mpr hv)]
  have hafter : { (socketcall (e.socket .recvfrom)
      { recvArgs e c esp s with fflags := (recvArgs e c esp s).fflags ||| O_NONBLOCK }).2 with
      fflags := narrowed (recvArgs e c esp s).fflags, esp := esp } = afterRecv e c esp s := by
    unfold afterRecv socketcall
    rw [hargs]
  rw [← hafter]
  rfl

/-! ## `do_getmsg` -/

/-- `do_getmsg` gets past its checks. -/
def getEnters (e : Env) (s : Sys) : Prop :=
  e.verify true (s.esp - 1024) 24 = true ∧
    ¬ (s.fflags &&& O_NONBLOCK = 0 ∧ e.signalPending = true)
  deriving Decidable

/-- The part of `do_getmsg` behind the look for a connection, which left `t`. -/
def getFrom (e : Env) (c : GetArgs) (esp : Word) (t : Sys) : Res Got :=
  if 0 ≤ c.ctlMaxlen then
    match t.priv.pfirst with
    | some a =>
      match t.heap a with
      | none => .error .noHead
      | some it => deliver e c a it t
    | none => .ok (receive e c esp t)
  else .ok (receive e c esp t)

theorem doGetmsg_eq (henter : getEnters e s) :
    doGetmsg e c s = getFrom e c s.esp (lookForConnection e c s) := by
  unfold doGetmsg
  rw [if_neg (not_not.mpr henter.1), if_neg henter.2]
  rfl

theorem doGetmsg_turned_down (henter : ¬ getEnters e s) :
    ∃ r < 0, doGetmsg e c s = .ok ⟨r, c.flags, s⟩ := by
  unfold doGetmsg
  split
  · exact ⟨_, by decide, rfl⟩
  next hv =>
    rw [if_pos (not_not.mp fun hsig => henter ⟨not_not.mp hv, hsig⟩)]
    exact ⟨_, by decide, rfl⟩

theorem map_eq_ok {ε α β : Type} {x : Except ε α} {f : α → β} {b : β} (h : x.map f = .ok b) :
    ∃ a, x = .ok a ∧ f a = b := by
  cases x with
  | error stop => exact nomatch h
  | ok a => exact ⟨a, rfl, Except.ok.inj h⟩

/-- Outside of the queue, `deliver` works in user memory. -/
theorem deliver_onlyMem {a : Addr} {it : TPrimsg} {g : Got} (h : deliver e c a it s = .ok g) :
    OnlyMem s { g.sys with toCore := s.toCore } := by
  rcases deliver_eq e c a it s with ⟨-, hg⟩ | ⟨s1, -, hcopy, hg⟩
  · obtain rfl := Except.ok.inj (hg.symm.trans h)
    exact .refl s
  · obtain ⟨k, -, rfl⟩ := map_eq_ok (hg.symm.trans h)
    have hmem := ((copyToUser_onlyMem hcopy).trans (putUser_onlyMem e c.ctlLen
      (BitVec.ofInt 32 (c.take it.length)) s1)).trans (noData_onlyMem e c _)
    rw [← hmem.toCore]
    exact hmem

/-- Behind the look for a connection, `do_getmsg` hands out a piece or nothing. -/
theorem getFrom_gets {g : Got} (h : getFrom e c esp s = .ok g) :
    Gets c s.toCore g.ret g.sys.toCore := by
  obtain ⟨hcore, hret⟩ := receive_spec e c esp s
  have hdata : Gets c s.toCore (receive e c esp s).ret (receive e c esp s).sys.toCore := by
    rw [hcore]
    exact .quiet hret
  unfold getFrom at h
  split at h
  next hmax =>
    split at h
    next a hfirst =>
      split at h
      · exact nomatch h
      next it hit =>
        rcases deliver_eq e c a it s with ⟨-, hg⟩ | ⟨u, -, -, hg⟩
        · obtain rfl := Except.ok.inj (hg.symm.trans h)
          exact .quiet (by simp [EFAULT])
        · obtain ⟨k, hk, rfl⟩ := map_eq_ok (hg.symm.trans h)
          exact .piece hmax hfirst hit hk
    · obtain rfl := Except.ok.inj h
      exact hdata
  · obtain rfl := Except.ok.inj h
    exact hdata

end Receive

end AbiEmu.Xti
