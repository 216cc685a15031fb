import AbiEmu.Lib.Run
import AbiEmu.Xti.Acts

/-!
# The states of a transport endpoint

`Transition` is what the TLI state machine promises for one operation: the state
is one of four; an acknowledged bind leaves the endpoint idle, or waiting for
connections if it asked for that and got it; a refused request leaves the state
alone; a connection leaves it in data transfer; and both ways to unbind agree on
when that is allowed.

The code sets the state right after the socket call. A failure behind it
(no memory for the answer, a fault while the request is copied again) comes too
late for the state; a bind without an address is acknowledged without any
change; the result of `listen` is not looked at; and `T_UNBIND_REQ` does not
look at the state, unlike the ioctl. `Op.Settles` rules exactly these out, and
`state_machine` is the promise for every step of a run that keeps to it.
-/

namespace AbiEmu.Xti

open List

/-! ## The promise -/

/-- Between `s` and `t` a message of type `prim` was queued. -/
def Queues (s t : Sys) (prim : Word) : Prop :=
  ∃ it ∈ t.queued.drop s.queued.length, it.type = prim

/-- The endpoint listens: it is bound to the address of the request and the
socket accepts connections. -/
def listens (e : Env) (c : PutArgs) (s : Sys) : Prop :=
  conind c s ≠ 0 ∧ hasAddress c s ∧ (e.socket .bind).result = 0 ∧ (e.socket .listen).result = 0
  deriving Decidable

/-- The bind request gets as far as its socket calls. -/
def binds (e : Env) (c : PutArgs) (s : Sys) : Prop :=
  getUser e s c.ctlBuf = some T_BIND_REQ ∧ bindCalls e c s

/-- The connect request gets as far as calling `connect`. -/
def connects (e : Env) (c : PutArgs) (s : Sys) : Prop :=
  getUser e s c.ctlBuf = some T_CONN_REQ ∧ connCalls e c s

/-- The way to unbind `f` is accepted. -/
def AcceptsUnbind (f : Sys → Int × Sys) (s : Sys) : Prop :=
  (f s).1 = 0 ∧ (f s).2.priv.state = .unbnd

/-- The operation asks to unbind the endpoint. -/
def Op.unbinds (op : Op) (s : Sys) : Prop :=
  (∃ e c, op.request = some (e, c) ∧ getUser e s c.ctlBuf = some T_UNBIND_REQ) ∨
    ∃ e c, op = .ioctl e c ∧ e.own.verify true c.lenP 4 = true ∧ ioctlNumber c.func = 3

/-- What the state machine promises about a request that returned `r` and left
the endpoint as `t`, when the state afterwards is `st`. -/
structure Promise (e : Env) (c : PutArgs) (s : Sys) (r : Int) (t : Sys) (st : TState) : Prop where
  bindAck : getUser e s c.ctlBuf = some T_BIND_REQ → Queues s t T_BIND_ACK →
    st = if listens e c s then .wresCind else .idle
  refused : r < 0 ∨ Queues s t T_ERROR_ACK → st = s.priv.state
  connected : connects e c s → (e.socket .connect).result = 0 → st = .dataXfer

/-- What the state machine promises about the operation `op` from `s` to `s'`. -/
structure Transition (op : Op) (s s' : Sys) : Prop where
  used : s'.priv.state.Used
  request : ∀ e c r t, op.request = some (e, c) → doPutmsg e c s = .ok (r, t) →
    Promise e c s r t s'.priv.state
  unbind : op.unbinds s → ∀ e, AcceptsUnbind (unbindReq e) s ↔ AcceptsUnbind tiUnbind s

/-! ## The condition -/

/-- The request is not one whose state change comes apart from its answer. -/
structure RequestSettles (e : Env) (c : PutArgs) (s : Sys) : Prop where
  /-- A bind that succeeds is answered, and listens if it is asked to. -/
  bound : binds e c s → hasAddress c s → (e.socket .bind).result = 0 →
    Answers e c s ∧ (conind c s ≠ 0 → (e.socket .listen).result = 0)
  /-- A bind without an address gets no acknowledgement. -/
  unaddressed : binds e c s → ¬ hasAddress c s → ¬ Answers e c s
  /-- A connection is answered. -/
  connected : connects e c s → (e.socket .connect).result = 0 → Answers e c s

/-- The condition on an operation: its request settles, and an unbind is asked
for in the idle state only. -/
def Op.Settles (op : Op) (s : Sys) : Prop :=
  (∀ e c, op.request = some (e, c) → RequestSettles e c s) ∧
    (op.unbinds s → s.priv.state = .idle)

/-! ## Types of queued messages -/

section Queued

variable {k k' : Core}

/-- Everything queued between `k` and `k'` has one of the given types. -/
def Adds (k k' : Core) (types : List Word) : Prop :=
  ∃ its, k'.queued = k.queued ++ its ∧ ∀ it ∈ its, TPrimsg.type it ∈ types

theorem Adds.refl (k : Core) (types : List Word) : Adds k k types :=
  ⟨[], (append_nil _).symm, nofun⟩

variable {prim : Word}

theorem Adds.mem {s t : Sys} {types : List Word} (h : Adds s.toCore t.toCore types)
    (hq : Queues s t prim) : prim ∈ types := by
  obtain ⟨its, hits, htypes⟩ := h
  obtain ⟨it, hit, rfl⟩ := hq
  rw [hits, drop_left] at hit
  exact htypes it hit

/-- The type of a block that starts with the bytes of a word is that word. -/
theorem type_overlay {n : TPrimsg} {body : Nat → Byte} {v : Word} {bs : List Byte}
    (h : n.body = overlay body 0 (v.bytes ++ bs)) : n.type = v := by
  unfold TPrimsg.type
  rw [h]
  exact v.append_bytes

theorem queueWords_adds (k : Core) (alloc : Option Block) (w : Word) (ws : List Word) :
    Adds k (k.queueWords alloc (w :: ws)) [w] := by
  unfold Core.queueWords
  split
  · exact Adds.refl _ _
  next b k1 hb =>
    have hq : k1.queued = k.queued := by rw [(timodMkctl_spec hb).2.2]
    refine ⟨[k1.entering (b.filled (w :: ws)) k1.priv.pfirst], ?_, ?_⟩
    · show k1.queued ++ _ = _
      rw [hq]
    · intro it hit
      obtain rfl := mem_singleton.mp hit
      have htype : (k1.entering (b.filled (w :: ws)) k1.priv.pfirst).type = w := type_overlay rfl
      rw [htype]
      exact mem_singleton_self w

/-- The two messages of an answered request. -/
theorem answer_adds {ack : Option Block} {a : Addr} {n : TPrimsg}
    (h : (k.timodOk ack prim).appendTail a n = .ok k') : Adds k k' [T_OK_ACK, n.type] := by
  obtain ⟨_, _, _, _, rfl⟩ := appendTail_spec h
  obtain ⟨its, hits, htypes⟩ := queueWords_adds k ack T_OK_ACK [prim]
  refine ⟨its ++ [(k.timodOk ack prim).entering n none], ?_, ?_⟩
  · show (k.timodOk ack prim).queued ++ _ = _
    rw [Core.timodOk, hits, append_assoc]
  · intro it hit
    rcases mem_append.mp hit with hok | hnew
    · have htype := mem_singleton.mp (htypes it hok)
      rw [htype]
      exact mem_cons_self ..
    · obtain rfl := mem_singleton.mp hnew
      exact mem_cons_of_mem _ (mem_singleton_self n.type)

end Queued

/-! ## The state -/

section State

variable {k k' : Core} {front : Bool}

theorem queueWords_state (k : Core) (alloc : Option Block) (words : List Word) :
    (k.queueWords alloc words).priv.state = k.priv.state := by
  unfold Core.queueWords
  split
  · rfl
  next b k1 hb =>
    show k1.priv.state = _
    rw [(timodMkctl_spec hb).2.2]

theorem Link.state (h : Link front k k') : k'.priv.state = k.priv.state := by
  cases h with
  | alloc hb => rw [(timodMkctl_spec hb).2.2]
  | push _ hb _ =>
    rw [(timodMkctl_spec hb).2.2]
    rfl
  | @answer k1 _ _ ack _ _ prim _ hb _ _ ha =>
    obtain ⟨_, _, _, _, rfl⟩ := appendTail_spec ha
    have hok : (k1.timodOk ack prim).priv.state = k1.priv.state := queueWords_state ..
    show (k1.timodOk ack prim).priv.state = _
    rw [hok, (timodMkctl_spec hb).2.2]

/-- Linking leaves the state alone. -/
theorem Links.state (h : Links front k k') : k'.priv.state = k.priv.state := by
  induction h with
  | refl => rfl
  | tail _ hlink ih => exact hlink.state.trans ih

theorem dropHead_state (h : k.dropHead = .ok k') : k'.priv.state = k.priv.state := by
  obtain ⟨_, _, _, _, rfl⟩ := dropHead_ok h
  rfl

variable {r : Int} {c : GetArgs}

theorem Gets.state (h : Gets c k r k') : k'.priv.state = k.priv.state := by
  cases h with
  | quiet => rfl
  | piece _ _ _ hchunk =>
    rcases takeChunk_ok hchunk with ⟨-, rfl⟩ | ⟨-, hchunk⟩
    · rfl
    · have hdrop := dropHead_state hchunk
      exact hdrop

theorem doGetmsg_state {e : Env} {s : Sys} {g : Got} (h : doGetmsg e c s = .ok g) :
    g.sys.priv.state = s.priv.state := by
  obtain ⟨k, hlinks, hcase⟩ := doGetmsg_cases e c s
  rcases hcase with ⟨g', hg, hgets⟩ | ⟨_, stop, hg, _⟩
  all_goals rw [h] at hg
  · obtain rfl := Except.ok.inj hg
    exact hgets.state.trans hlinks.state
  · exact nomatch hg

end State

/-! ## Requests that set the state -/

section Requests

variable {e : Env} {c : PutArgs} {s s' : Sys} {r : Int}

/-- A bind request is acknowledged, or refused with an error or a fault. -/
theorem bindReply_outcome {error : Int} (h : bindReply e c error s = .ok (r, s')) :
    (error = 0 ∧ Answers e c s ∧ r = 0 ∧ Adds s.toCore s'.toCore [T_OK_ACK, T_BIND_ACK]) ∨
    ((error ≠ 0 ∨ ¬ Answers e c s) ∧ Adds s.toCore s'.toCore [T_ERROR_ACK]) := by
  unfold bindReply at h
  split at h
  next herr =>
    exact of_ok h (.inr ⟨.inl herr, queueWords_adds ..⟩)
  next hok =>
    split at h
    next hnone =>
      exact of_ok h (.inr ⟨.inr (not_answers_of_none hnone), queueWords_adds ..⟩)
    next b k hb =>
      have hq : k.queued = s.queued := by rw [(timodMkctl_spec hb).2.2]
      split at h
      next hfault =>
        obtain ⟨rfl, rfl⟩ := ok_inj h
        refine .inr ⟨.inr (not_answers_of_fault hfault), [], ?_, ?_⟩
        · rw [append_nil]
          exact hq
        · exact nofun
      next req hcopy =>
        obtain ⟨rfl, happend⟩ := answer_ok h
        obtain ⟨its, hits, htypes⟩ := answer_adds happend
        refine .inl ⟨not_not.mp hok, answers_of_some hb hcopy, rfl, its, hits.trans ?_, ?_⟩
        · rw [hq]
        · have htype : (b.echo req T_BIND_ACK MSG_HIPRI c.ctlLen).type = T_BIND_ACK :=
            type_overlay rfl
          rw [htype] at htypes
          exact htypes

theorem TurnedDown.state (h : TurnedDown e acks prim s s') : s'.priv.state = s.priv.state := by
  have hlinks : Links true s.toCore s'.toCore := h.links fun _ _ => rfl
  exact hlinks.state

theorem TurnedDown.adds (h : TurnedDown e acks prim s s') :
    Adds s.toCore s'.toCore [T_ERROR_ACK] := by
  rcases h with h | ⟨-, terr, uerr, h⟩
  all_goals rw [h]
  · exact Adds.refl ..
  · exact queueWords_adds ..

/-- A bind request is refused before its socket calls, or goes through them. -/
theorem bindReq_outcome (h : bindReq e c s = .ok (r, s')) :
    (s'.priv.state = s.priv.state ∧ Adds s.toCore s'.toCore [T_ERROR_ACK]) ∨
    (bindCalls e c s ∧ s'.priv.state = boundState e c s ∧
      ((bindResult e c s = 0 ∧ Answers e c s ∧ r = 0 ∧
          Adds s.toCore s'.toCore [T_OK_ACK, T_BIND_ACK]) ∨
        ((bindResult e c s ≠ 0 ∨ ¬ Answers e c s) ∧ Adds s.toCore s'.toCore [T_ERROR_ACK]))) := by
  rcases bindReq_cases e c s with ⟨r', t, heq, hdown, -⟩ | ⟨hcalls, t, heq, hcore⟩
  all_goals rw [heq] at h
  · exact of_ok h (.inl ⟨hdown.state, hdown.adds⟩)
  · have hlinks : Links true t.toCore s'.toCore := bindReply_links (fun _ _ => rfl) h
    have hans : Answers e c t ↔ Answers e c s := answers_congr (by rw [hcore]; rfl)
    have hq : t.queued = s.queued := by rw [hcore]; rfl
    have hout := bindReply_outcome h
    rw [hans] at hout
    unfold Adds at hout ⊢
    rw [hq] at hout
    refine .inr ⟨hcalls, hlinks.state.trans ?_, hout⟩
    rw [hcore]
    rfl

/-- A connection is answered, or the state stays. -/
theorem connReply_outcome {error : Int} (h : connReply e c error s = .ok (r, s')) :
    (error = 0 ∧ Answers e c s ∧ s'.priv.state = .dataXfer ∧ r = 0 ∧
      Adds s.toCore s'.toCore [T_OK_ACK, T_CONN_CON]) ∨
    ((error ≠ 0 ∨ ¬ Answers e c s) ∧ s'.priv.state = s.priv.state) := by
  unfold connReply at h
  split at h
  next hzero =>
    split at h
    next hnone =>
      exact of_ok h (.inr ⟨.inr (not_answers_of_none hnone), rfl⟩)
    next b k hb =>
      obtain ⟨_, _, hk⟩ := timodMkctl_spec hb
      split at h
      next hfault =>
        obtain ⟨rfl, rfl⟩ := ok_inj h
        refine .inr ⟨.inr (not_answers_of_fault hfault), ?_⟩
        rw [hk]
      next req hcopy =>
        obtain ⟨rfl, happend⟩ := answer_ok h
        obtain ⟨its, hits, htypes⟩ := answer_adds happend
        refine .inl ⟨hzero, answers_of_some hb hcopy, ?_, rfl, its, hits.trans ?_, ?_⟩
        · have hlink : Link true _ s'.toCore := .answer (fun _ => rfl)
            (timodMkctl_setState hb .dataXfer) (copyFromUser_nonneg hcopy) happend
          exact hlink.state
        · show k.queued ++ its = _
          rw [hk]
        · have htype : (b.echo req T_CONN_CON 0 c.ctlLen).type = T_CONN_CON := type_overlay rfl
          rw [htype] at htypes
          exact htypes
  next herr =>
    refine .inr ⟨.inl herr, ?_⟩
    split at h
    · obtain ⟨rfl, rfl⟩ := ok_inj h
      rfl
    next b k hb =>
      have hlen : (0 : Int) ≤ 4 * 3 := by omega
      have hlink : Link true s.toCore s'.toCore :=
        .answer (fun _ => rfl) hb hlen (answer_ok h).2
      exact hlink.state

/-- A connect request connects and is answered, or leaves the state alone. -/
theorem connReq_outcome (hcmd : getUser e s c.ctlBuf = some T_CONN_REQ)
    (h : connReq e c s = .ok (r, s')) :
    (connects e c s ∧ (e.socket .connect).result = 0 ∧ Answers e c s ∧
      s'.priv.state = .dataXfer ∧ r = 0 ∧ Adds s.toCore s'.toCore [T_OK_ACK, T_CONN_CON]) ∨
    (¬ (connects e c s ∧ (e.socket .connect).result = 0 ∧ Answers e c s) ∧
      s'.priv.state = s.priv.state) := by
  rcases connReq_cases e c s with ⟨hnot, r', t, heq, hdown⟩ | ⟨hreached, t, heq, hcore⟩
  all_goals rw [heq] at h
  · exact of_ok h (.inr ⟨fun hc => hnot hc.1.2, hdown.state⟩)
  · have hans : Answers e c t ↔ Answers e c s := answers_congr (congrArg Core.heap hcore)
    have hout := connReply_outcome h
    rw [hans, hcore] at hout
    rcases hout with ⟨hzero, hyes, hrest⟩ | ⟨hno, hstate⟩
    · exact .inl ⟨⟨hcmd, hreached⟩, hzero, hyes, hrest⟩
    · refine .inr ⟨?_, hstate⟩
      intro hc
      rcases hno with hne | hna
      · exact hne hc.2.1
      · exact hna hc.2.2

section

variable (hset : RequestSettles e c s)

include hset

/-- A bind request that settles keeps the promise. -/
theorem bindReq_settles (hcmd : getUser e s c.ctlBuf = some T_BIND_REQ)
    (h : bindReq e c s = .ok (r, s')) :
    (Queues s s' T_BIND_ACK → s'.priv.state = if listens e c s then .wresCind else .idle) ∧
    (r < 0 ∨ Queues s s' T_ERROR_ACK → s'.priv.state = s.priv.state) := by
  rcases bindReq_outcome h with ⟨hstate, hadds⟩ | ⟨hcalls, hstate, hout⟩
  · refine ⟨?_, fun _ => hstate⟩
    intro hq
    exact absurd (hadds.mem hq) (by decide)
  · have hbound := hset.bound ⟨hcmd, hcalls⟩
    have hunaddressed := hset.unaddressed ⟨hcmd, hcalls⟩
    rcases hout with ⟨hzero, hans, rfl, hadds⟩ | ⟨hno, hadds⟩
    · constructor
      · -- acknowledged: the request has an address, and it was bound
        intro _
        have haddr : hasAddress c s := not_not.mp fun hnot => hunaddressed hnot hans
        have hres : (e.socket .bind).result = 0 := by
          rw [← hzero]
          exact (if_pos haddr).symm
        have hlisten := (hbound haddr hres).2
        rw [hstate]
        unfold boundState
        rw [if_pos ⟨haddr, hres⟩]
        split
        next hc => rw [if_pos (show listens e c s from ⟨hc, haddr, hres, hlisten hc⟩)]
        next hc => rw [if_neg (fun hl : listens e c s => hc hl.1)]
      · rintro (hneg | hq)
        · exact absurd hneg (lt_irrefl 0)
        · exact absurd (hadds.mem hq) (by decide)
    · constructor
      · intro hq
        exact absurd (hadds.mem hq) (by decide)
      · intro _
        rw [hstate]
        refine if_neg ?_
        rintro ⟨haddr, hres⟩
        -- a bind that succeeds is answered
        rcases hno with hne | hna
        · exact hne ((if_pos haddr).trans hres)
        · exact hna (hbound haddr hres).1

/-- A connect request that settles keeps the promise. -/
theorem connReq_settles (hcmd : getUser e s c.ctlBuf = some T_CONN_REQ)
    (h : connReq e c s = .ok (r, s')) :
    (r < 0 ∨ Queues s s' T_ERROR_ACK → s'.priv.state = s.priv.state) ∧
    (connects e c s → (e.socket .connect).result = 0 → s'.priv.state = .dataXfer) := by
  rcases connReq_outcome hcmd h with ⟨_, _, _, hstate, rfl, hadds⟩ | ⟨hnot, hstate⟩
  · refine ⟨?_, fun _ _ => hstate⟩
    rintro (hneg | hq)
    · exact absurd hneg (lt_irrefl 0)
    · exact absurd (hadds.mem hq) (by decide)
  · refine ⟨fun _ => hstate, ?_⟩
    intro hconn hres
    exact absurd ⟨hconn, hres, hset.connected hconn hres⟩ hnot

/-- A request that settles keeps the promise. -/
theorem doPutmsg_settles (h : doPutmsg e c s = .ok (r, s')) : Promise e c s r s' s'.priv.state := by
  rcases doPutmsg_cases 0 h with
    ⟨hcmd, hbind⟩ | ⟨hcmd, hconn⟩ | ⟨hcmd, hunbind⟩ | ⟨hnb, hnc, hmakes⟩
  · obtain ⟨hack, href⟩ := bindReq_settles hset hcmd hbind
    exact ⟨fun _ => hack, href, fun hc => absurd (hcmd.symm.trans hc.1) (by decide)⟩
  · obtain ⟨href, hdata⟩ := connReq_settles hset hcmd hconn
    exact ⟨fun hb => absurd (hcmd.symm.trans hb) (by decide), href, hdata⟩
  · -- an unbind request is never refused
    obtain ⟨rfl, rfl⟩ := Prod.mk.inj hunbind
    have hadds : Adds s.toCore (timodOk e T_UNBIND_REQ (s.setState .unbnd)).toCore [T_OK_ACK] :=
      queueWords_adds ..
    refine ⟨fun hb => absurd (hcmd.symm.trans hb) (by decide), ?_,
      fun hc => absurd (hcmd.symm.trans hc.1) (by decide)⟩
    rintro (hneg | hq)
    · exact absurd hneg (lt_irrefl 0)
    · exact absurd (hadds.mem hq) (by decide)
  · exact ⟨fun hb => absurd hb hnb, fun _ => hmakes.links.state, fun hc => absurd hc.1 hnc⟩

end

theorem doPutmsg_used (hs : s.priv.state.Used) (h : doPutmsg e c s = .ok (r, s')) :
    s'.priv.state.Used := by
  obtain ⟨st, hst, hlinks⟩ := doPutmsg_requests h
  have hstate : s'.priv.state = st := hlinks.state
  rw [hstate]
  rcases hst with rfl | hused
  · exact hs
  · exact hused

end Requests

/-! ## Operations -/

section Ioctl

variable {e : IoctlEnv} {c : IoctlArgs}

theorem Fetches.state {k k' : Core} (h : Fetches e c k k') : k'.priv.state = k.priv.state := by
  induction h with
  | quiet => rfl
  | get h | get' h => exact doGetmsg_state h
  | drop h => exact dropHead_state h
  | trans _ _ ih ih' => exact ih'.trans ih

end Ioctl

/-- The state after an operation: the one its request left, or the old one, or
unbound by the ioctl. -/
theorem step_state {op : Op} {s s' : Sys} (h : op.step s = .ok (r, s')) :
    (∃ e c r' t, op.request = some (e, c) ∧ doPutmsg e c s = .ok (r', t) ∧
      s'.priv.state = t.priv.state) ∨
    (op.request = none ∧ (s'.priv.state = s.priv.state ∨ s'.priv.state = .unbnd)) := by
  cases op with
  | putmsg e c => exact .inl ⟨e, c, r, s', rfl, h, rfl⟩
  | getmsg e c =>
    refine .inr ⟨rfl, .inl ?_⟩
    obtain ⟨g, hg, rfl⟩ := step_getmsg h
    exact doGetmsg_state hg
  | updateSocket e fd =>
    refine .inr ⟨rfl, .inl ?_⟩
    obtain rfl := step_updateSocket h
    exact (timodUpdateSocket_links fd decide_eq_true).state
  | ioctl e c =>
    have hio : timodIoctl e c s = .ok (r, s') := h
    rcases timodIoctl_cases hio with ⟨hreq, r', t, hput, hfetch⟩ | ⟨hreq, hsame | hunbnd⟩
    · exact .inl ⟨_, _, r', t, hreq, hput, hfetch.state⟩
    · exact .inr ⟨hreq, .inl (congrArg (·.priv.state) hsame)⟩
    · exact .inr ⟨hreq, .inr (congrArg (·.priv.state) hunbnd)⟩

/-- In the idle state both ways to unbind are accepted. -/
theorem accepts_of_idle {s : Sys} (hs : s.priv.state = .idle) (e : Env) :
    AcceptsUnbind (unbindReq e) s ↔ AcceptsUnbind tiUnbind s := by
  have hreq : AcceptsUnbind (unbindReq e) s := ⟨rfl, queueWords_state ..⟩
  have hti : AcceptsUnbind tiUnbind s := by
    have heq : tiUnbind s = (0, s.setState .unbnd) := if_neg (not_not.mpr hs)
    unfold AcceptsUnbind
    rw [heq]
    exact ⟨rfl, rfl⟩
  exact ⟨fun _ => hti, fun _ => hreq⟩

theorem step_used {op : Op} {s s' : Sys} (hs : s.priv.state.Used) (h : op.step s = .ok (r, s')) :
    s'.priv.state.Used := by
  rcases step_state h with ⟨e, c, r', t, _, hput, hstate⟩ | ⟨_, hsame | hunbnd⟩
  · rw [hstate]
    exact doPutmsg_used hs hput
  · rw [hsame]
    exact hs
  · rw [hunbnd]
    exact .inl rfl

theorem step_transition {op : Op} {s s' : Sys} (hop : op.Settles s) (hs : s.priv.state.Used)
    (h : op.step s = .ok (r, s')) : Transition op s s' := by
  refine ⟨step_used hs h, ?_, ?_⟩
  · intro e c r' t hreq hput
    rcases step_state h with ⟨e', c', r'', t', hreq', hput', hstate⟩ | ⟨hnone, _⟩
    · rw [hreq] at hreq'
      obtain ⟨rfl, rfl⟩ := Prod.mk.inj (Option.some.inj hreq')
      rw [hput] at hput'
      obtain ⟨rfl, rfl⟩ := ok_inj hput'
      rw [hstate]
      exact doPutmsg_settles (hop.1 e c hreq) hput
    · rw [hreq] at hnone
      exact nomatch hnone
  · intro hunbind e
    exact accepts_of_idle (hop.2 hunbind) e

/-- In every run whose operations settle, every operation keeps the promise of
the state machine. -/
theorem state_machine {s : Sys} (hs : s.priv.state.Used) (ops : List Op)
    (hops : Along Op.step Op.Settles ops s) :
    Along Op.step (fun op u => ∀ r u', op.step u = .ok (r, u') → Transition op u u') ops s := by
  refine along_of_inv (I := fun u => u.priv.state.Used) ?_ ?_ hops hs
  · intro op u r u' _ hu hstep
    exact step_used hu hstep
  · intro op u hop hu r u' hstep
    exact step_transition hop hu hstep

/-- A bind request with an address, and memory for both messages of its answer. -/
theorem bind_settles :
    let s := endpoint .unbnd [T_BIND_REQ, 16, 16, 0]
    let op := Op.putmsg
      { plainEnv with ctlAlloc := some (freeBlock 1), ackAlloc := some (freeBlock 2) } (putAt 16)
    s.priv.state.Used ∧ Along Op.step Op.Settles [op] s ∧
      Along Op.step (fun op u => ∀ r u', op.step u = .ok (r, u') → Transition op u u') [op] s := by
  intro s op
  have hused : s.priv.state.Used := .inl rfl
  have halong : Along Op.step Op.Settles [op] s := by
    refine ⟨⟨?_, ?_⟩, fun _ _ _ => trivial⟩
    · intro e c hreq
      obtain ⟨rfl, rfl⟩ := Prod.mk.inj (Option.some.inj hreq)
      refine ⟨fun _ _ _ => ⟨⟨rfl, by decide, rfl⟩, fun _ => rfl⟩, ?_, ?_⟩
      · intro _ hnot
        exact absurd (by decide) hnot
      · intro hconn
        exact absurd hconn.1 (by decide)
    · rintro (⟨e, c, hreq, hcmd⟩ | ⟨e, c, hop, _⟩)
      · obtain ⟨rfl, rfl⟩ := Prod.mk.inj (Option.some.inj hreq)
        exact absurd hcmd (by decide)
      · exact nomatch hop
  exact ⟨hused, halong, state_machine hused [op] halong⟩

/-- The operation returns and does not keep the promise. -/
def Op.Breaks (op : Op) (s : Sys) : Prop :=
  s.priv.state.Used ∧ ∃ r s', op.step s = .ok (r, s') ∧ ¬ Transition op s s'

/-- A bind without an address is acknowledged in the unbound state; a bind whose
answer gets no memory is refused in the idle state; a connection whose answer
gets no memory is refused and stays unbound; and `T_UNBIND_REQ` is accepted
during data transfer, where the ioctl refuses. -/
theorem late_failures_break :
    (Op.putmsg { plainEnv with ctlAlloc := some (freeBlock 1), ackAlloc := some (freeBlock 2) }
      (putAt 16)).Breaks (endpoint .unbnd [T_BIND_REQ, 0, 0, 0]) ∧
    (Op.putmsg { plainEnv with ackAlloc := some (freeBlock 1) }
      (putAt 16)).Breaks (endpoint .unbnd [T_BIND_REQ, 16, 16, 0]) ∧
    (Op.putmsg plainEnv (putAt 20)).Breaks (endpoint .unbnd [T_CONN_REQ, 16, 20, 0, 0]) ∧
    (Op.putmsg plainEnv (putAt 4)).Breaks (endpoint .dataXfer [T_UNBIND_REQ]) := by
  refine ⟨⟨.inl rfl, 0, _, rfl, ?_⟩, ⟨.inl rfl, 0, _, rfl, ?_⟩, ⟨.inl rfl, -ENOMEM, _, rfl, ?_⟩,
    ⟨.inr (.inr (.inr rfl)), 0, _, rfl, ?_⟩⟩
  · intro htrans
    have hack := (htrans.request _ _ _ _ rfl rfl).bindAck (by decide)
      ⟨_, mem_cons_of_mem _ (mem_singleton_self _), by decide⟩
    exact nomatch hack
  · intro htrans
    have href := (htrans.request _ _ _ _ rfl rfl).refused
      (.inr ⟨_, mem_singleton_self _, by decide⟩)
    exact nomatch href
  · intro htrans
    have hconn := (htrans.request _ _ _ _ rfl rfl).connected
      ⟨by decide, rfl, .inl rfl, rfl, rfl⟩ rfl
    exact nomatch hconn
  · intro htrans
    have hboth := htrans.unbind (.inl ⟨_, _, rfl, by decide⟩) plainEnv
    exact absurd (hboth.mp ⟨rfl, rfl⟩).1 (by decide)

end AbiEmu.Xti
