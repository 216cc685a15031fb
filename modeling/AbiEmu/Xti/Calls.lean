import AbiEmu.Xti.Socksys

/-!
# What an operation on an endpoint is made of

Seen from the queue, every operation is the same: at most one request is put, then
messages are fetched, and where the queue is empty somebody looks for a connection with
`timod_update_socket`. `TI_BIND` and `TI_OPTMGMT` do all of it in one call, `I_PEEK` and
`I_NREAD` only the last. This module writes down which calls an operation makes, with the
state each of them finds, and `Proceeds` is what the endpoint goes through: a piece of a
message is handed out, the rest of one is thrown away, a `Look` is made.

`step_proceeds` and `fileStep_proceeds` are the one place where the operations are taken
apart. What a log of calls says about a run is an induction over `Proceeds`.
-/

namespace AbiEmu.Xti

/-! ## Calls -/

/-- A call of `do_getmsg`, with the endpoint it finds. -/
structure GetCall where
  env : Env
  args : GetArgs
  sys : Sys

/-- The endpoint when the queue is looked at. -/
def GetCall.looked (q : GetCall) : Sys := lookForConnection q.env q.args q.sys

/-- A call of `timod_update_socket`. -/
structure Look where
  env : Env
  fd : Word
  sys : Sys

/-- What `timod_update_socket` returns. -/
def Look.ret (l : Look) : Int := (timodUpdateSocket l.env l.fd l.sys).1

/-- The endpoint when the call has returned. -/
def Look.after (l : Look) : Sys := (timodUpdateSocket l.env l.fd l.sys).2

theorem Look.updates (l : Look) : Updates l.env l.fd l.sys l.ret l.after :=
  timodUpdateSocket_updates ..

/-- `do_getmsg` looks for a connection if it wants a control part and has none. -/
def GetCall.looks (g : GetCall) : List Look :=
  if getEnters g.env g.sys ∧ 0 ≤ g.args.ctlMaxlen ∧ g.sys.priv.pfirst = none then
    [⟨g.env, g.args.fd, g.sys⟩]
  else []

/-- The `do_getmsg` calls an ioctl makes once its request has been put. -/
def ioctlGets (e : IoctlEnv) (c : IoctlArgs) (s : Sys) : List GetCall :=
  ⟨e.get, c.getArgs, s⟩ ::
    match doGetmsg e.get c.getArgs s with
    | .error _ => []
    | .ok g =>
      if ioctlNumber c.func = 2 ∧ g.ret = 0 ∧ getUserD e.own g.sys c.arg = T_OK_ACK then
        [⟨e.get', c.getArgs, g.sys⟩]
      else []

/-- The `do_getmsg` calls an operation makes on the endpoint. -/
def Op.gets (op : Op) (s : Sys) : List GetCall :=
  match op with
  | .getmsg e c => [⟨e, c, s⟩]
  | .ioctl e c =>
    match op.request, doPutmsg e.put c.putArgs s with
    | some _, .ok (r, s1) =>
      if r = 0 ∧ behind e.put c.putArgs s = .same then ioctlGets e c s1 else []
    | _, _ => []
  | _ => []

/-- The calls of `timod_update_socket`. -/
def Op.looks (op : Op) (s : Sys) : List Look :=
  match op with
  | .updateSocket e fd => [⟨e, fd, s⟩]
  | _ => (op.gets s).flatMap GetCall.looks

/-- The message whose rest `TI_OPTMGMT` throws away. -/
def tiOptmgmtDiscards (e : IoctlEnv) (c : IoctlArgs) (b : Behind) (s : Sys) : List TPrimsg :=
  match ioctlGetmsg b e.get e.other c.getArgs s with
  | .error _ => []
  | .ok g => if 0 < g.ret then (g.sys.priv.pfirst.bind g.sys.heap).toList else []

/-- The messages whose rest is thrown away. -/
def Op.discards (op : Op) (s : Sys) : List TPrimsg :=
  match op with
  | .ioctl e c =>
    match op.request, doPutmsg e.put c.putArgs s with
    | some _, .ok (r, s1) =>
      if r = 0 ∧ ioctlNumber c.func = 1 then
        tiOptmgmtDiscards e c (behind e.put c.putArgs s) s1
      else []
    | _, _ => []
  | _ => []

/-- The endpoint when the request, if there is one, has been put. -/
def requested (request : Option (Env × PutArgs)) (s : Sys) : Sys :=
  match request with
  | none => s
  | some (e, c) =>
    match doPutmsg e c s with
    | .error _ => s
    | .ok (_, s1) => s1

/-! ## What the endpoint goes through -/

/-- From `s` to `t` without a request: the looks for a connection are `ls`, and the rests
of the messages `ds` are thrown away. -/
inductive Proceeds : List Look → List TPrimsg → Sys → Sys → Prop
  | same {s t : Sys} (hcore : t.toCore = s.toCore) (hfd : t.fdOps = s.fdOps) :
      Proceeds [] [] s t
  | state {s t : Sys} {st : TState} (hcore : t.toCore = s.toCore.setState st)
      (hfd : t.fdOps = s.fdOps) : Proceeds [] [] s t
  | piece {s t : Sys} {c : GetArgs} {r : Int} (h : Gets c s.toCore r t.toCore)
      (hfd : t.fdOps = s.fdOps) : Proceeds [] [] s t
  | drop {s t : Sys} (h : s.toCore.dropHead = .ok t.toCore) (hfd : t.fdOps = s.fdOps) :
      Proceeds [] (s.priv.pfirst.bind s.heap).toList s t
  | look (l : Look) : Proceeds [l] [] l.sys l.after
  | trans {ls ls' : List Look} {ds ds' : List TPrimsg} {s t u : Sys} (h : Proceeds ls ds s t)
      (h' : Proceeds ls' ds' t u) : Proceeds (ls ++ ls') (ds ++ ds') s u

namespace Proceeds

variable {ls : List Look} {ds : List TPrimsg} {s t u : Sys}

theorem refl (s : Sys) : Proceeds [] [] s s := .same rfl rfl

theorem onlyMem (h : OnlyMem s t) : Proceeds [] [] s t := .same h.toCore h.fdOps

/-- Something quiet comes after. -/
theorem andThen (h : Proceeds ls ds s t) (h' : Proceeds [] [] t u) : Proceeds ls ds s u := by
  have hboth := h.trans h'
  rwa [List.append_nil, List.append_nil] at hboth

end Proceeds

section Getmsg

variable {e : Env} {c : GetArgs} {s : Sys} {g : Got}

theorem receive_fdOps (e : Env) (c : GetArgs) (esp : Word) (s : Sys) :
    (receive e c esp s).sys.fdOps = s.fdOps := by
  by_cases hdat : c.datMaxlen ≤ 0
  · unfold receive
    rw [if_pos hdat]
    exact (nothing_onlyMem e c s).fdOps
  by_cases hv : e.verify true (esp - 1024) 24 = true
  · rw [receive_eq hdat hv]
    exact (takeData_onlyMem ..).fdOps
  · unfold receive
    rw [if_neg hdat]
    rw [if_pos hv]

theorem getFrom_fdOps {esp : Word} (h : getFrom e c esp s = .ok g) : g.sys.fdOps = s.fdOps := by
  unfold getFrom at h
  split at h
  · split at h
    · split at h
      · exact nomatch h
      · exact (deliver_onlyMem h).fdOps
    · obtain rfl := Except.ok.inj h
      exact receive_fdOps ..
  · obtain rfl := Except.ok.inj h
    exact receive_fdOps ..

theorem doGetmsg_proceeds (h : doGetmsg e c s = .ok g) :
    Proceeds (GetCall.looks ⟨e, c, s⟩) [] s g.sys := by
  unfold GetCall.looks
  by_cases henter : getEnters e s
  · rw [doGetmsg_eq henter] at h
    have hpiece := Proceeds.piece (getFrom_gets h) (getFrom_fdOps h)
    unfold lookForConnection at hpiece
    split_ifs at hpiece with hlook
    · rw [if_pos ⟨henter, hlook⟩]
      exact (Proceeds.look ⟨e, c.fd, s⟩).andThen hpiece
    · rw [if_neg fun h => hlook h.2]
      exact hpiece
  · obtain ⟨ret, -, hdown⟩ := doGetmsg_turned_down henter
    obtain rfl := Except.ok.inj (hdown.symm.trans h)
    rw [if_neg fun h => henter h.1]
    exact .refl s

end Getmsg

section Ioctls

variable {e : IoctlEnv} {c : IoctlArgs} {b : Behind} {s t : Sys} {r : Int}

/-- The calls behind a request, if they are calls of this endpoint. -/
def behindGets (e : IoctlEnv) (c : IoctlArgs) (b : Behind) (s : Sys) : List GetCall :=
  if b = .same then ioctlGets e c s else []

theorem ioctlGetmsg_proceeds {e : Env} {other : SockAnswer} {c : GetArgs} {g : Got}
    (h : ioctlGetmsg b e other c s = .ok g) :
    Proceeds (if b = .same then GetCall.looks ⟨e, c, s⟩ else []) [] s g.sys := by
  cases b with
  | same => exact doGetmsg_proceeds h
  | other =>
    obtain rfl := Except.ok.inj h
    exact .same rfl rfl
  | closed => exact nomatch h

theorem tiBindGet_proceeds (hnum : ioctlNumber c.func = 2)
    (h : tiBindGet e c b s = .ok (r, t)) :
    Proceeds ((behindGets e c b s).flatMap GetCall.looks) [] s t := by
  unfold tiBindGet at h
  split at h
  · exact nomatch h
  next g hg =>
    have hget := ioctlGetmsg_proceeds hg
    dsimp only at h
    unfold behindGets
    by_cases hb : b = .same
    · subst hb
      rw [if_pos rfl] at hget ⊢
      unfold ioctlGets
      rw [show doGetmsg e.get c.getArgs s = .ok g from hg, List.flatMap_cons]
      refine hget.trans ?_
      dsimp only
      split_ifs at h with hret herr hok
      · rw [if_neg fun h => hret h.2.1]
        exact of_ok h (.refl _)
      · rw [if_neg fun h => absurd (herr.symm.trans h.2.2) (by decide)]
        exact of_ok h (.refl _)
      · rw [if_neg fun h => hok h.2.2]
        exact of_ok h (.refl _)
      · rw [if_pos ⟨hnum, not_not.mp hret, not_not.mp hok⟩, List.flatMap_singleton]
        split at h
        · exact nomatch h
        next g' hg' =>
          exact of_ok h (doGetmsg_proceeds hg')
    · rw [if_neg hb] at hget ⊢
      refine hget.andThen ?_
      split_ifs at h
      iterate 3 exact of_ok h (.refl _)
      · split at h
        · exact nomatch h
        next g' hg' =>
          obtain ⟨-, rfl⟩ := ok_inj h
          have hget' := ioctlGetmsg_proceeds hg'
          rwa [if_neg hb] at hget'

theorem tiOptmgmtGet_proceeds (hnum : ioctlNumber c.func = 1)
    (h : tiOptmgmtGet e c b s = .ok (r, t)) :
    Proceeds ((behindGets e c b s).flatMap GetCall.looks) (tiOptmgmtDiscards e c b s) s t := by
  unfold tiOptmgmtGet at h
  split at h
  · exact nomatch h
  next g hg =>
    have hget : Proceeds ((behindGets e c b s).flatMap GetCall.looks) [] s g.sys := by
      have hfirst := ioctlGetmsg_proceeds hg
      unfold behindGets
      by_cases hb : b = .same
      · subst hb
        rw [if_pos rfl] at hfirst ⊢
        unfold ioctlGets
        rw [show doGetmsg e.get c.getArgs s = .ok g from hg]
        dsimp only
        rwa [if_neg fun h => absurd (hnum.symm.trans h.1) (by decide), List.flatMap_singleton]
      · rw [if_neg hb] at hfirst ⊢
        exact hfirst
    rw [tiOptmgmtDiscards, hg]
    dsimp only
    split_ifs at h ⊢
    · split at h
      · exact nomatch h
      next k hk =>
        obtain ⟨-, rfl⟩ := ok_inj h
        have hboth := hget.trans (Proceeds.drop (t := { g.sys with toCore := k }) hk rfl)
        rwa [List.append_nil] at hboth
    · exact of_ok h hget

theorem tiGetinfo_onlyMem (e : Env) (c : IoctlArgs) (s : Sys) : OnlyMem s (tiGetinfo e c s).2 := by
  unfold tiGetinfo
  dsimp only
  split
  · exact .refl s
  · split
    · exact .refl s
    · split
      · exact .refl s
      next s1 hcopy => exact (copyToUser_onlyMem hcopy).trans (putUser_onlyMem ..)

/-- The two ioctls with a request: `rest` is their second half. -/
theorem tiRequest_proceeds {rest : Behind → Sys → Res (Int × Sys)}
    (hreq : (Op.ioctl e c).request = some (e.put, c.putArgs))
    (hrest : ∀ {b u}, rest b u = .ok (r, t) → Proceeds ((behindGets e c b u).flatMap GetCall.looks)
      (if ioctlNumber c.func = 1 then tiOptmgmtDiscards e c b u else []) u t)
    (h : tiRequest e c rest s = .ok (r, t)) :
    Proceeds ((Op.ioctl e c).looks s) ((Op.ioctl e c).discards s)
      (requested (Op.ioctl e c).request s) t := by
  unfold tiRequest at h
  unfold Op.looks Op.gets Op.discards
  rw [hreq]
  unfold requested
  dsimp only
  split at h
  · exact nomatch h
  next x hput =>
    rw [hput]
    dsimp only
    split at h
    next herr =>
      rw [if_neg fun h => herr h.1, if_neg fun h => herr h.1]
      exact of_ok h (.refl _)
    next herr =>
      have hboth := hrest h
      unfold behindGets at hboth
      simpa [not_not.mp herr] using hboth

theorem timodIoctl_proceeds (h : timodIoctl e c s = .ok (r, t)) :
    Proceeds ((Op.ioctl e c).looks s) ((Op.ioctl e c).discards s)
      (requested (Op.ioctl e c).request s) t := by
  -- without a request there is nothing in the logs
  have hquiet (hreq : (Op.ioctl e c).request = none) (hst : Proceeds [] [] s t) :
      Proceeds ((Op.ioctl e c).looks s) ((Op.ioctl e c).discards s)
        (requested (Op.ioctl e c).request s) t := by
    unfold Op.looks Op.gets Op.discards
    rw [hreq]
    exact hst
  have hnone (n : Int) (hn : ioctlNumber c.func = n) (h1 : n ≠ 1) (h2 : n ≠ 2) :
      (Op.ioctl e c).request = none := by
    refine if_neg ?_
    rintro ⟨-, hor⟩
    omega
  unfold timodIoctl at h
  split_ifs at h with hv h0 h1 h2 h3
  · obtain rfl : (tiGetinfo e.own c s).2 = t := congrArg Prod.snd (Except.ok.inj h)
    exact hquiet (hnone 0 h0 (by decide) (by decide)) (.onlyMem (tiGetinfo_onlyMem ..))
  · refine tiRequest_proceeds (if_pos ⟨hv, .inl h1⟩) (fun h => ?_) h
    rw [if_pos h1]
    exact tiOptmgmtGet_proceeds h1 h
  · refine tiRequest_proceeds (if_pos ⟨hv, .inr h2⟩) (fun h => ?_) h
    rw [if_neg h1]
    exact tiBindGet_proceeds h2 h
  · refine hquiet (hnone _ rfl h1 h2) ?_
    obtain rfl : (tiUnbind s).2 = t := congrArg Prod.snd (Except.ok.inj h)
    unfold tiUnbind
    split
    · exact .refl s
    · exact .state rfl rfl
  all_goals obtain ⟨-, rfl⟩ := ok_inj h
  · exact hquiet (hnone _ rfl h1 h2) (.refl _)
  · exact hquiet (if_neg fun h => hv h.1) (.refl _)

end Ioctls

/-- What an operation does once its request has been put. -/
theorem step_proceeds {op : Op} {s t : Sys} {r : Int} (h : op.step s = .ok (r, t)) :
    Proceeds (op.looks s) (op.discards s) (requested op.request s) t := by
  cases op with
  | putmsg e c =>
    show Proceeds [] [] (requested (some (e, c)) s) t
    unfold requested
    dsimp only
    rw [show doPutmsg e c s = .ok (r, t) from h]
    exact .refl t
  | getmsg e c =>
    obtain ⟨g, hg, rfl⟩ := step_getmsg h
    have hget := doGetmsg_proceeds hg
    rwa [← List.flatMap_singleton GetCall.looks (⟨e, c, s⟩ : GetCall)] at hget
  | ioctl e c => exact timodIoctl_proceeds h
  | updateSocket e fd =>
    obtain rfl := step_updateSocket h
    exact .look ⟨e, fd, s⟩

/-! ## Operations of a file -/

/-- What can happen to an endpoint, with `I_PEEK` and `I_NREAD`. -/
inductive FileOp where
  | op (o : Op)
  | peek (e : Env) (fd uap : Word)
  | nread (e : Env) (inq : SockAnswer) (fd data : Word)

namespace FileOp

/-- One operation. -/
def step (op : FileOp) (f : File) : Except Fault (Int × File) :=
  match op with
  | .op o =>
    match o.step f.sys with
    | .error why => .error (.stop why)
    | .ok (r, s) => .ok (r, { f with sys := s })
  | .peek e fd uap => iPeek e fd uap f
  | .nread e inq fd data => iNread e inq fd data f

/-- The request that is put. -/
def request : FileOp → Option (Env × PutArgs)
  | .op o => o.request
  | _ => none

/-- `I_PEEK` or `I_NREAD` looks for a connection, if its first check is passed. -/
def streamLooks (checked : Bool) (e : Env) (fd : Word) (f : File) : List Look :=
  if checked = true ∧ f.inode.isSock ∧ f.inode.isSocksys ∧ f.magic.isSome = true then
    [⟨e, fd, f.sys⟩]
  else []

/-- The calls of `timod_update_socket`. -/
def looks (op : FileOp) (f : File) : List Look :=
  match op with
  | .op o => o.looks f.sys
  | .peek e fd uap => streamLooks (e.canRead uap 28) e fd f
  | .nread e _ fd data => streamLooks (e.verify true data 4) e fd f

/-- The messages whose rest is thrown away. -/
def discards (op : FileOp) (f : File) : List TPrimsg :=
  match op with
  | .op o => o.discards f.sys
  | _ => []

end FileOp

/-- A socket with an endpoint in the state `s`. -/
def socketWith (s : Sys) : File :=
  ⟨⟨S_IFSOCK, ⟨SOCKSYS_MAJOR, 0⟩⟩, .socksysSocket, none, some XTI_MAGIC, s⟩

section Streams

variable {e : Env} {s t : Sys} {r : Int} {fd : Word} {f f1 g : File}

theorem putUserOr_onlyMem {a v : Word} (h : putUserOr e a v s = some t) : OnlyMem s t := by
  unfold putUserOr at h
  split at h
  · obtain rfl := Option.some.inj h
    exact putUser_onlyMem ..
  · exact nomatch h

/-- `i_peek` writes to user memory only. -/
theorem peekAt_onlyMem (e : Env) (uap : Word) (s0 : Sys) (tp : TPrimsg) (f : File) :
    OnlyMem f.sys (peekAt e uap s0 tp f).2.sys := by
  unfold peekAt
  dsimp only
  split
  · split
    · exact .refl _
    next s1 h1 =>
      rw [Option.ite_none_left_eq_some] at h1
      have hmem1 := copyToUser_onlyMem h1.2
      split
      · exact hmem1
      next s2 h2 =>
        have hmem2 := hmem1.trans (putUserOr_onlyMem h2)
        split
        · exact hmem2
        next s3 h3 =>
          have hmem3 : OnlyMem f.sys s3 := by
            split at h3
            · exact hmem2.trans (putUserOr_onlyMem h3)
            · exact Option.some.inj h3 ▸ hmem2
          split
          · exact hmem3
          next s4 h4 => exact hmem3.trans (putUserOr_onlyMem h4)
  · exact .refl _

theorem peekQueue_onlyMem (e : Env) (uap : Word) (s0 : Sys) (f : File) :
    OnlyMem f.sys (peekQueue e uap s0 f).2.sys := by
  unfold peekQueue
  split
  · exact .refl _
  next tp _ => exact peekAt_onlyMem ..

theorem askSocket_onlyMem (e : Env) (inq : SockAnswer) (data : Word) (f : File) :
    OnlyMem f.sys (askSocket e inq data f).2.sys := by
  unfold askSocket
  dsimp only
  split_ifs <;> exact socketcall_onlyMem ..

/-- The look for a connection is `timod_update_socket`, or nothing. -/
theorem looked_cases (h : f.looked e fd = .ok f1) :
    ((f.inode.isSocksys ∧ f.magic.isSome = true) ∧
      f1 = { f with sys := Look.after ⟨e, fd, f.sys⟩ }) ∨
    (¬ (f.inode.isSocksys ∧ f.magic.isSome = true) ∧ f1 = f) := by
  unfold File.looked at h
  split at h
  next hsys =>
    unfold File.updateSocket at h
    cases hmagic : f.magic with
    | none =>
      rw [hmagic] at h
      dsimp only at h
      split at h
      · exact nomatch h
      · exact .inr ⟨fun hb => (nomatch hb.2), (Except.ok.inj h).symm⟩
    | some m =>
      rw [hmagic] at h
      exact .inl ⟨⟨hsys, rfl⟩, (Except.ok.inj h).symm⟩
  next hsys => exact .inr ⟨fun hb => hsys hb.1, (Except.ok.inj h).symm⟩

/-- The ways through `i_peek`. -/
theorem iPeek_cases {uap : Word} (h : iPeek e fd uap f = .ok (r, g)) :
    (¬ (e.canRead uap 28 = true ∧ f.inode.isSock) ∧ g = f ∧ r ≤ 0) ∨
    ((e.canRead uap 28 = true ∧ f.inode.isSock) ∧
      ∃ f1, f.looked e fd = .ok f1 ∧ (r, g) = peekQueue e uap f.sys f1) := by
  unfold iPeek at h
  split_ifs at h with hread hsock
  · refine .inr ⟨⟨hread, hsock⟩, ?_⟩
    split at h
    · exact nomatch h
    next f1 hlook => exact ⟨f1, hlook, (Except.ok.inj h).symm⟩
  · exact of_ok h (.inl ⟨fun hb => hsock hb.2, rfl, le_refl _⟩)
  · exact of_ok h (.inl ⟨fun hb => hread hb.1, rfl, by decide⟩)

/-- The part of `i_nread` behind the look for a connection. -/
def nreadQueue (e : Env) (inq : SockAnswer) (data : Word) (f : File) : Int × File :=
  match f.first with
  | some it => (1, { f with sys := putUser e data (BitVec.ofInt 32 it.length) f.sys })
  | none => askSocket e inq data f

/-- The ways through `i_nread`. -/
theorem iNread_cases {inq : SockAnswer} {data : Word}
    (h : iNread e inq fd data f = .ok (r, g)) :
    (¬ e.verify true data 4 = true ∧ (r, g) = (-EFAULT, f)) ∨
    (¬ f.inode.isSock ∧ (r, g) = askSocket e inq data f) ∨
    ((e.verify true data 4 = true ∧ f.inode.isSock) ∧
      ∃ f1, f.looked e fd = .ok f1 ∧ (r, g) = nreadQueue e inq data f1) := by
  unfold iNread at h
  split_ifs at h with hv hsock
  · refine .inr <| .inr ⟨⟨hv, hsock⟩, ?_⟩
    split at h
    · exact nomatch h
    next f1 hlook =>
      refine ⟨f1, hlook, ?_⟩
      split at h
      next it hfirst =>
        rw [nreadQueue, hfirst]
        exact (Except.ok.inj h).symm
      next hfirst =>
        rw [nreadQueue, hfirst]
        exact (Except.ok.inj h).symm
  · exact .inr <| .inl ⟨hsock, (Except.ok.inj h).symm⟩
  · exact .inl ⟨hv, (Except.ok.inj h).symm⟩

theorem nreadQueue_onlyMem (e : Env) (inq : SockAnswer) (data : Word) (f : File) :
    OnlyMem f.sys (nreadQueue e inq data f).2.sys := by
  unfold nreadQueue
  split
  · exact putUser_onlyMem ..
  · exact askSocket_onlyMem ..

variable {checked : Bool}

/-- Behind its first check, a stream ioctl looks for a connection and goes on. -/
theorem streamLooks_proceeds (hcheck : checked = true ∧ f.inode.isSock)
    (hlook : f.looked e fd = .ok f1) (hrest : OnlyMem f1.sys t) :
    Proceeds (FileOp.streamLooks checked e fd f) [] f.sys t := by
  unfold FileOp.streamLooks
  rcases looked_cases hlook with ⟨hlooks, rfl⟩ | ⟨hlooks, rfl⟩
  · rw [if_pos ⟨hcheck.1, hcheck.2, hlooks⟩]
    exact (Proceeds.look ⟨e, fd, f.sys⟩).andThen (.onlyMem hrest)
  · rw [if_neg fun hb => hlooks hb.2.2]
    exact .onlyMem hrest

/-- An ioctl that does not pass its first check makes no look. -/
theorem streamLooks_nil (h : ¬ (checked = true ∧ f.inode.isSock)) :
    FileOp.streamLooks checked e fd f = [] :=
  if_neg fun hb => h ⟨hb.1, hb.2.1⟩

end Streams

section

variable {op : FileOp} {f g : File} {r : Int}

/-- An operation of the endpoint changes nothing else of the file. -/
theorem fileStep_op {o : Op} (h : (FileOp.op o).step f = .ok (r, g)) :
    ∃ u, o.step f.sys = .ok (r, u) ∧ g.sys = u := by
  unfold FileOp.step at h
  dsimp only at h
  cases ho : o.step f.sys with
  | error why =>
    rw [ho] at h
    exact nomatch h
  | ok x =>
    rw [ho] at h
    exact of_ok h ⟨_, rfl, rfl⟩

variable (h : op.step f = .ok (r, g))

include h

/-- An operation that returns has put its request. -/
theorem fileStep_request {x : Env × PutArgs} (hreq : op.request = some x) :
    ∃ ret u, doPutmsg x.1 x.2 f.sys = .ok (ret, u) := by
  cases op with
  | peek | nread => exact nomatch hreq
  | op o =>
    obtain ⟨u, ho, -⟩ := fileStep_op h
    cases o with
    | putmsg e c =>
      obtain rfl := Option.some.inj hreq
      exact ⟨_, _, ho⟩
    | ioctl e c =>
      rcases timodIoctl_cases ho with ⟨hsome, error, u, hput, -⟩ | ⟨hnone, -⟩
      · obtain rfl := Option.some.inj (hsome.symm.trans hreq)
        exact ⟨error, u, hput⟩
      · exact nomatch hnone.symm.trans hreq
    | getmsg | updateSocket => exact nomatch hreq

/-- What an operation of a file does once its request has been put. -/
theorem fileStep_proceeds :
    Proceeds (op.looks f) (op.discards f) (requested op.request f.sys) g.sys := by
  cases op with
  | op o =>
    obtain ⟨u, ho, hg⟩ := fileStep_op h
    rw [hg]
    exact step_proceeds ho
  | peek e fd uap =>
    show Proceeds (FileOp.streamLooks _ e fd f) [] f.sys g.sys
    rcases iPeek_cases h with ⟨hno, rfl, -⟩ | ⟨hcheck, f1, hlook, hg⟩
    · rw [streamLooks_nil hno]
      exact .refl _
    · obtain rfl : g = _ := congrArg Prod.snd hg
      exact streamLooks_proceeds hcheck hlook (peekQueue_onlyMem ..)
  | nread e inq fd data =>
    show Proceeds (FileOp.streamLooks _ e fd f) [] f.sys g.sys
    rcases iNread_cases h with ⟨hno, hg⟩ | ⟨hno, hg⟩ | ⟨hcheck, f1, hlook, hg⟩
    · obtain rfl : g = _ := congrArg Prod.snd hg
      rw [streamLooks_nil fun hb => hno hb.1]
      exact .refl _
    all_goals obtain rfl : g = _ := congrArg Prod.snd hg
    · rw [streamLooks_nil fun hb => hno hb.2]
      exact .onlyMem (askSocket_onlyMem ..)
    · exact streamLooks_proceeds hcheck hlook (nreadQueue_onlyMem ..)

end

end AbiEmu.Xti
