import AbiEmu.Xti.Calls
import AbiEmu.Xti.QueueInv
import AbiEmu.Xti.Scratch

/-!
# High-priority messages go first

There is one queue for both priorities, and no operation looks at the priority
of what is queued already. The order comes from who links where: acknowledgements
have high priority and are linked in front, the results of a connect request are
normal messages at the tail. As long as it is only these, nothing of high
priority stands behind a normal message that nobody has begun to read
(`Ordered`).

Two producers do not fit. `T_BIND_ACK` has high priority and is linked at the
tail; it comes out behind a `T_DISCON_IND` that a failed connect left there.
And `timod_update_socket` never sets the priority of its `T_CONN_IND`: it is
what the block held before. `Op.InLine` rules out the two, and `high_goes_first`
shows that nothing else is needed.
-/

namespace AbiEmu.Xti

open List Option

/-! ## The order of the queue -/

/-- The block holds a message of high priority. -/
def Core.High (k : Core) (a : Addr) : Prop := ∃ n, k.heap a = some n ∧ n.pri = MSG_HIPRI

/-- The block holds a message of another priority, and no piece of it has been
delivered. -/
def Core.Unbegun (k : Core) (a : Addr) : Prop :=
  ∃ n, k.heap a = some n ∧ n.pri ≠ MSG_HIPRI ∧ ∀ p ∈ k.delivered, p.serial ≠ n.serial

/-- Nothing of high priority stands behind an unbegun message. -/
def Ordered (k : Core) : Prop :=
  ∃ l, k.Holds l ∧ l.Pairwise fun a b => k.Unbegun a → ¬ k.High b

/-- No message is unbegun. -/
def NoneUnbegun (k : Core) : Prop := ∃ l, k.Holds l ∧ ∀ a ∈ l, ¬ k.Unbegun a

/-- The queue is ordered, and a message of priority `back` can be linked at its
tail. -/
def Ready (back : Byte) (k : Core) : Prop :=
  ∃ l, k.Holds l ∧ (l.Pairwise fun a b => k.Unbegun a → ¬ k.High b) ∧
    (back = MSG_HIPRI → ∀ a ∈ l, ¬ k.Unbegun a)

/-- The blocks `l` hold the messages they held, as far as priority and identity
go, and pieces are only added. -/
structure Marked (k k' : Core) (l : List Addr) : Prop where
  delivered : k.delivered ⊆ k'.delivered
  block : ∀ a ∈ l, ∀ n', k'.heap a = some n' →
    ∃ n, k.heap a = some n ∧ n.pri = n'.pri ∧ n.serial = n'.serial

section Order

variable {k k' : Core} {l : List Addr} {a : Addr} {n : TPrimsg} {back : Byte}

theorem Ready.ordered (h : Ready back k) : Ordered k := by
  obtain ⟨l, hl, hp, -⟩ := h
  exact ⟨l, hl, hp⟩

theorem Ordered.ready (h : Ordered k) : Ready 0 k := by
  obtain ⟨l, hl, hp⟩ := h
  exact ⟨l, hl, hp, nofun⟩

theorem NoneUnbegun.ready (h : NoneUnbegun k) : Ready back k := by
  obtain ⟨l, hl, hnone⟩ := h
  refine ⟨l, hl, ?_, fun _ => hnone⟩
  exact List.Pairwise.imp_of_mem
    (fun ha _ _ hw => absurd hw (hnone _ ha)) (pairwise_of_forall fun _ _ => trivial)

theorem Marked.high (h : Marked k k' l) (ha : a ∈ l) (hhigh : k'.High a) : k.High a := by
  obtain ⟨n', hn', hpri⟩ := hhigh
  obtain ⟨n, hn, hsame, -⟩ := h.block a ha n' hn'
  exact ⟨n, hn, hsame.trans hpri⟩

theorem Marked.unbegun (h : Marked k k' l) (ha : a ∈ l) (hbegun : k'.Unbegun a) : k.Unbegun a := by
  obtain ⟨n', hn', hpri, hnew⟩ := hbegun
  obtain ⟨n, hn, hsame, hserial⟩ := h.block a ha n' hn'
  refine ⟨n, hn, hsame ▸ hpri, ?_⟩
  intro p hp
  rw [hserial]
  exact hnew p (h.delivered hp)

theorem Marked.pairwise (h : Marked k k' l)
    (hp : l.Pairwise fun a b => k.Unbegun a → ¬ k.High b) :
    l.Pairwise fun a b => k'.Unbegun a → ¬ k'.High b :=
  hp.imp_of_mem fun ha hb hab hw hh => hab (h.unbegun ha hw) (h.high hb hh)

theorem Marked.of_agree (hdel : k'.delivered = k.delivered)
    (hheap : ∀ a ∈ l, k'.heap a = k.heap a) : Marked k k' l := by
  refine ⟨fun p hp => hdel ▸ hp, ?_⟩
  intro a ha n' hn'
  exact ⟨n', (hheap a ha).symm.trans hn', rfl, rfl⟩

theorem Ready.of_marked (hl : k'.Holds l) (h : Marked k k' l)
    (hp : l.Pairwise fun a b => k.Unbegun a → ¬ k.High b)
    (hback : back = MSG_HIPRI → ∀ a ∈ l, ¬ k.Unbegun a) : Ready back k' :=
  ⟨l, hl, h.pairwise hp, fun hb a ha hw => hback hb a ha (h.unbegun ha hw)⟩

variable {len : Int} {b : Block}

theorem Ready.alloc (h : Ready back k) {alloc : Option Block}
    (hb : k.timodMkctl alloc len = some (b, k')) : Ready back k' := by
  obtain ⟨l, hl, hp, hback⟩ := h
  obtain ⟨hl', hfresh⟩ := hl.alloc hb
  obtain ⟨-, -, rfl⟩ := timodMkctl_spec hb
  have hmarked : Marked k { k with heap := Function.update k.heap b.addr (some b.junk) } l :=
    .of_agree rfl (update_agree hfresh)
  exact .of_marked hl' hmarked hp hback

/-- A message of high priority in front of the queue. -/
theorem Ready.push (h : Ready back k) {alloc : Option Block}
    (hb : k.timodMkctl alloc len = some (b, k')) (hpri : n.pri = MSG_HIPRI) :
    Ready back (k'.pushFront b.addr n) := by
  obtain ⟨l, hl, hp, hback⟩ := h.alloc hb
  have hfresh : b.addr ∉ l := by
    obtain ⟨l', hl', -⟩ := h
    obtain ⟨hl'', hfresh⟩ := hl'.alloc hb
    rwa [hl''.chain.unique hl.chain] at hfresh
  have hat : (k'.pushFront b.addr n).heap b.addr = some (k'.entering n k'.priv.pfirst) :=
    Function.update_self ..
  have hnot : ¬ (k'.pushFront b.addr n).Unbegun b.addr := by
    rintro ⟨m, hm, hne, -⟩
    obtain rfl := some.inj (hat.symm.trans hm)
    exact hne hpri
  have hmarked : Marked k' (k'.pushFront b.addr n) l := .of_agree rfl (update_agree hfresh)
  refine ⟨b.addr :: l, hl.pushFront hfresh, ?_, ?_⟩
  · exact pairwise_cons.mpr ⟨fun _ _ hw => absurd hw hnot, hmarked.pairwise hp⟩
  · intro hb a ha hw
    rcases mem_cons.mp ha with rfl | ha
    · exact hnot hw
    · exact hback hb a ha (hmarked.unbegun ha hw)

/-- A message of the given priority at the tail. -/
theorem Ready.append (hl : k.Holds l) (hp : l.Pairwise fun a b => k.Unbegun a → ¬ k.High b)
    (hback : back = MSG_HIPRI → ∀ a ∈ l, ¬ k.Unbegun a) (ha : a ∉ l) (hpri : n.pri = back)
    (hk : k.appendTail a n = .ok k') : Ready back k' := by
  have hl' := hl.appendTail ha hk
  obtain ⟨hnew, hold, -⟩ := hl.linked ha hk
  obtain ⟨last, nl, -, -, rfl⟩ := appendTail_spec hk
  have hmarked : Marked k (k.linkTail a n last nl) l := by
    refine ⟨List.Subset.refl _, ?_⟩
    intro x hx n' hn'
    obtain ⟨m, next, hm₀, hm₁⟩ := hold x hx
    obtain rfl := some.inj (hm₁.symm.trans hn')
    exact ⟨m, hm₀, rfl, rfl⟩
  refine ⟨l ++ [a], hl', ?_, ?_⟩
  · refine pairwise_append.mpr ⟨hmarked.pairwise hp, pairwise_singleton _ _, ?_⟩
    intro x hx y hy hw hhigh
    obtain rfl := mem_singleton.mp hy
    obtain ⟨m, hm, hmpri⟩ := hhigh
    obtain rfl := some.inj (hnew.symm.trans hm)
    exact hback (hpri.symm.trans hmpri) x hx (hmarked.unbegun hx hw)
  · intro hb x hx hw
    rcases mem_append.mp hx with hx | hx
    · exact hback hb x hx (hmarked.unbegun hx hw)
    · obtain rfl := mem_singleton.mp hx
      obtain ⟨m, hm, hne, -⟩ := hw
      obtain rfl := some.inj (hnew.symm.trans hm)
      exact hne (hpri.trans hb)

theorem Ready.queueWords (h : Ready back k) (alloc : Option Block) (words : List Word) :
    Ready back (k.queueWords alloc words) := by
  unfold Core.queueWords
  split
  · exact h
  next b k' hb => exact h.push hb rfl

variable {alloc ack : Option Block} {prim : Word}

/-- A request answered with `timod_ok` and a message at the tail. -/
theorem Ready.answer {k1 : Core} (h : Ready back k) (hb : k.timodMkctl alloc len = some (b, k1))
    (hpri : n.pri = back) (ha : (k1.timodOk ack prim).appendTail b.addr n = .ok k') :
    Ready back k' := by
  obtain ⟨l, hl, hp, hback⟩ := (h.alloc hb).queueWords ack [T_OK_ACK, prim]
  obtain ⟨l', hl', -⟩ := h
  obtain ⟨l'', hl'', hfresh, -⟩ := hl'.answer hb ack prim
  rw [hl''.chain.unique hl.chain] at hfresh
  exact .append hl hp hback hfresh hpri ha

variable {front : Bool}

theorem Make.ready (hmake : Make front back k k') (h : Ready back k) : Ready back k' := by
  cases hmake with
  | alloc hb => exact h.alloc hb
  | push _ hb _ hpri => exact h.push hb hpri
  | answer _ hb _ hpri ha => exact h.answer hb hpri ha

theorem Makes.ready (hmakes : Makes front back k k') (h : Ready back k) : Ready back k' := by
  induction hmakes with
  | refl => exact h
  | tail _ hmake ih => exact hmake.ready ih

theorem Ready.setState (h : Ready back k) (st : TState) : Ready back (k.setState st) := by
  obtain ⟨l, hl, hp, hback⟩ := h
  exact ⟨l, hl, hp, hback⟩

theorem MakesIn.ready (hmakes : MakesIn front back k k') (h : Ready back k) : Ready back k' := by
  obtain ⟨st, -, hmakes⟩ := hmakes
  exact hmakes.ready (h.setState st)

/-! ## Reading keeps the order -/

theorem Ordered.dropHead (h : Ordered k) (hk : k.dropHead = .ok k') : Ordered k' := by
  obtain ⟨l, hl, hp⟩ := h
  obtain ⟨a, l, rfl, hl1, -, -, hdel, hheap⟩ := hl.dropped hk
  have hnodup := nodup_cons.mp hl.chain.nodup
  refine ⟨l, hl1, Marked.pairwise (.of_agree hdel ?_) (pairwise_cons.mp hp).2⟩
  rw [hheap]
  exact update_agree hnodup.1

section

variable (h : Ordered k) (ha : k.priv.pfirst = some a) (hn : k.heap a = some n)

include h ha hn

theorem Ordered.handOut (x : Int) : Ordered (k.handOut a n x) := by
  obtain ⟨l, hl, hp⟩ := h
  obtain ⟨l, rfl⟩ := hl.of_first ha
  refine ⟨_, hl.handOut hn x, Marked.pairwise ?_ hp⟩
  refine ⟨subset_append_left .., ?_⟩
  intro c hc n' hn'
  by_cases hcb : c = a
  · obtain rfl := hcb
    have hat : (k.handOut c n x).heap c = some { n with length := n.length - x } :=
      Function.update_self ..
    obtain rfl := some.inj (hat.symm.trans hn')
    exact ⟨n, hn, rfl, rfl⟩
  · have hat : (k.handOut a n x).heap c = k.heap c := Function.update_of_ne hcb ..
    exact ⟨n', hat.symm.trans hn', rfl, rfl⟩

theorem Ordered.takeChunk {x : Int} (hk : k.takeChunk a n x = .ok k') : Ordered k' := by
  have hout := h.handOut ha hn x
  rcases takeChunk_ok hk with ⟨-, rfl⟩ | ⟨-, hk⟩
  · obtain ⟨l, hl, hp⟩ := hout
    exact ⟨l, hl, hp⟩
  · exact hout.dropHead hk

end

theorem Gets.ordered {c : GetArgs} {r : Int} (hgets : Gets c k r k') (h : Ordered k) :
    Ordered k' := by
  cases hgets with
  | quiet => exact h
  | piece _ hfirst hit hk => exact h.takeChunk hfirst hit hk

end Order

/-! ## What the operations do to the order -/

/-- Everything queued between `k` and `k'` has one of the two priorities. -/
def Prioritised (k k' : Core) : Prop :=
  ∃ new, k'.queued = k.queued ++ new ∧ ∀ n ∈ new, n.pri = 0 ∨ n.pri = MSG_HIPRI

/-- The order is kept, and so is the rule on priorities. -/
structure Tidy (k k' : Core) : Prop where
  ordered : Ordered k → Ordered k'
  prioritised : Prioritised k k'

section Tidy

variable {k k' k'' : Core} {back : Byte} {front : Bool}

theorem Prioritised.of_eq (h : k'.queued = k.queued) : Prioritised k k' :=
  ⟨[], h.trans (append_nil _).symm, nofun⟩

theorem Prioritised.trans (h : Prioritised k k') (h' : Prioritised k' k'') : Prioritised k k'' := by
  obtain ⟨new, hq, hnew⟩ := h
  obtain ⟨new', hq', hnew'⟩ := h'
  refine ⟨new ++ new', by rw [hq', hq, append_assoc], ?_⟩
  intro n hn
  rcases mem_append.mp hn with hn | hn
  · exact hnew n hn
  · exact hnew' n hn

theorem Tidy.trans (h : Tidy k k') (h' : Tidy k' k'') : Tidy k k'' :=
  ⟨fun hk => h'.ordered (h.ordered hk), h.prioritised.trans h'.prioritised⟩

theorem Tidy.refl (k : Core) : Tidy k k := ⟨id, .of_eq rfl⟩

theorem Tidy.setState (k : Core) (st : TState) : Tidy k (k.setState st) :=
  ⟨fun h => (h.ready.setState st).ordered, .of_eq rfl⟩

theorem Prioritised.one {n : TPrimsg} (hq : k'.queued = k.queued ++ [n])
    (hpri : n.pri = 0 ∨ n.pri = MSG_HIPRI) : Prioritised k k' :=
  ⟨[n], hq, fun _ hm => mem_singleton.mp hm ▸ hpri⟩

theorem queueWords_prioritised (k : Core) (alloc : Option Block) (words : List Word) :
    Prioritised k (k.queueWords alloc words) := by
  unfold Core.queueWords
  split
  · exact .of_eq rfl
  next b k' hb =>
    refine (Prioritised.of_eq (timodMkctl_queued hb)).trans ?_
    exact .one (n := k'.entering (b.filled words) k'.priv.pfirst) rfl (.inr rfl)

theorem answer_prioritised {k1 : Core} {ack : Option Block} {n : TPrimsg}
    (hpri : n.pri = 0 ∨ n.pri = MSG_HIPRI)
    (hb : k.timodMkctl alloc len = some (b, k1))
    (ha : (k1.timodOk ack prim).appendTail b.addr n = .ok k') : Prioritised k k' := by
  obtain ⟨last, nl, -, -, rfl⟩ := appendTail_spec ha
  have hok := queueWords_prioritised k1 ack [T_OK_ACK, prim]
  refine (Prioritised.of_eq (timodMkctl_queued hb)).trans (hok.trans (.one rfl ?_))
  exact hpri

theorem Make.prioritised (hback : back = 0 ∨ back = MSG_HIPRI) (h : Make front back k k') :
    Prioritised k k' := by
  cases h with
  | alloc hb => exact .of_eq (timodMkctl_queued hb)
  | push _ hb _ hpri =>
    refine (Prioritised.of_eq (timodMkctl_queued hb)).trans (.one rfl (.inr ?_))
    exact hpri
  | answer _ hb _ hpri ha => exact answer_prioritised (hpri.symm ▸ hback) hb ha

theorem Makes.prioritised (hback : back = 0 ∨ back = MSG_HIPRI) (h : Makes front back k k') :
    Prioritised k k' := by
  induction h with
  | refl => exact .of_eq rfl
  | tail _ hmake ih => exact ih.trans (hmake.prioritised hback)

theorem Makes.tidy (h : Makes front 0 k k') : Tidy k k' :=
  ⟨fun hk => (h.ready hk.ready).ordered, h.prioritised (.inl rfl)⟩

theorem MakesIn.tidy (h : MakesIn front 0 k k') : Tidy k k' := by
  obtain ⟨st, -, hmakes⟩ := h
  exact (Tidy.setState k st).trans hmakes.tidy

theorem dropHead_tidy (hk : k.dropHead = .ok k') : Tidy k k' :=
  ⟨fun h => h.dropHead hk, .of_eq (dropHead_queued hk)⟩

theorem Gets.tidy {c : GetArgs} {r : Int} (h : Gets c k r k') : Tidy k k' :=
  ⟨h.ordered, .of_eq h.queued⟩

end Tidy

section Operations

variable {e : Env} {s t : Sys} {r : Int}

/-- `timod_update_socket` queues a `T_CONN_IND`. -/
def announcesConn (e : Env) (fd : Word) (s : Sys) : Prop :=
  callsAccept e s ∧ ¬ (e.socket .accept).result < 0 ∧
    (s.timodMkctl e.ctlAlloc (24 + (peerLength e fd s).toNat)).isSome = true ∧
    ¬ e.copyFaults (s.esp - 1024 + 16) (peerLength e fd s).toInt

theorem timodUpdateSocket_tidy {fd : Word} (hno : ¬ announcesConn e fd s) :
    Tidy s.toCore (timodUpdateSocket e fd s).2.toCore ∧
      (timodUpdateSocket e fd s).2.delivered = s.delivered := by
  have hupdates := timodUpdateSocket_updates e fd s
  generalize (timodUpdateSocket e fd s).1 = r, (timodUpdateSocket e fd s).2 = t at hupdates ⊢
  cases hupdates with
  | quiet | refused | dropped => exact ⟨.refl _, rfl⟩
  | fault _ _ hb _ =>
    refine ⟨(Make.alloc hb : Make false 0 s.toCore _).makes.tidy, ?_⟩
    obtain ⟨-, -, rfl⟩ := timodMkctl_spec hb
    rfl
  | announced hcall hres hb hcopy =>
    refine absurd ⟨hcall, hres, ?_, ?_⟩ hno
    · rw [hb]
      rfl
    · intro hfault
      rw [copyFromUser_eq_none_iff.mpr hfault] at hcopy
      cases hcopy

/-- A `T_BIND_REQ` that gets a `T_BIND_ACK` to link at the tail. -/
def bindAnswers (e : Env) (c : PutArgs) (s : Sys) : Prop :=
  getUser e s c.ctlBuf = some T_BIND_REQ ∧ s.priv.state = .unbnd ∧ bindResult e c s = 0 ∧
    e.ctlAlloc.isSome = true

variable {c : PutArgs}

theorem bindReply_refuses {error : Int} (hno : ¬ (error = 0 ∧ e.ctlAlloc.isSome = true))
    (h : bindReply e c error s = .ok (r, t)) : Makes true 0 s.toCore t.toCore := by
  unfold bindReply at h
  split at h
  · exact of_ok h (timodError_makes (fun _ => rfl) ..)
  next herr =>
    split at h
    · exact of_ok h (timodError_makes (fun _ => rfl) ..)
    next b k hb => exact absurd ⟨not_not.mp herr, timodMkctl_isSome hb⟩ hno

theorem bindReq_refuses
    (hno : ¬ (s.priv.state = .unbnd ∧ bindResult e c s = 0 ∧ e.ctlAlloc.isSome = true))
    (h : bindReq e c s = .ok (r, t)) : MakesIn true 0 s.toCore t.toCore := by
  rcases bindReq_cases e c s with ⟨r', u, heq, hdown, -⟩ | ⟨hreached, u, heq, hcore⟩
  · obtain ⟨-, rfl⟩ := ok_inj (heq.symm.trans h)
    exact (hdown.makes fun _ _ => rfl).makesIn
  · refine ⟨boundState e c s, boundState_used e c s, ?_⟩
    rw [← hcore]
    exact bindReply_refuses (fun hboth => hno ⟨hreached.2.1.1, hboth⟩) (heq.symm.trans h)

theorem doPutmsg_tidy (hbind : bindAnswers e c s → NoneUnbegun s.toCore)
    (h : doPutmsg e c s = .ok (r, t)) : Tidy s.toCore t.toCore := by
  by_cases hcmd : getUser e s c.ctlBuf = some T_BIND_REQ
  · by_cases hans : bindAnswers e c s
    · have hmakes := doPutmsg_makes h
      have hpri : tailPri e c s = MSG_HIPRI := if_pos hcmd
      rw [hpri] at hmakes
      refine ⟨fun _ => (hmakes.ready (hbind hans).ready).ordered, ?_⟩
      obtain ⟨st, -, hmakes⟩ := hmakes
      exact (Tidy.setState s.toCore st).prioritised.trans (hmakes.prioritised (.inr rfl))
    · have hreq : bindReq e c s = .ok (r, t) := by
        unfold doPutmsg at h
        rw [hcmd] at h
        exact h
      exact (bindReq_refuses (fun hno => hans ⟨hcmd, hno⟩) hreq).tidy
  · have hmakes := doPutmsg_makes h
    have hpri : tailPri e c s = 0 := if_neg hcmd
    rw [hpri] at hmakes
    exact hmakes.tidy

/-- `do_getmsg` queues a `T_CONN_IND` before it looks at the queue. -/
def getAnnounces (e : Env) (c : GetArgs) (s : Sys) : Prop :=
  getEnters e s ∧ 0 ≤ c.ctlMaxlen ∧ s.priv.pfirst = none ∧ announcesConn e c.fd s

theorem lookForConnection_tidy {c : GetArgs} (henter : getEnters e s)
    (hno : ¬ getAnnounces e c s) :
    Tidy s.toCore (lookForConnection e c s).toCore ∧
      (lookForConnection e c s).delivered = s.delivered := by
  unfold lookForConnection
  split
  next hlook => exact timodUpdateSocket_tidy fun ha => hno ⟨henter, hlook.1, hlook.2, ha⟩
  · exact ⟨.refl _, rfl⟩

theorem doGetmsg_tidy {c : GetArgs} {g : Got} (hno : ¬ getAnnounces e c s)
    (h : doGetmsg e c s = .ok g) : Tidy s.toCore g.sys.toCore := by
  by_cases henter : getEnters e s
  · rw [doGetmsg_eq henter] at h
    exact (lookForConnection_tidy henter hno).1.trans (getFrom_gets h).tidy
  · obtain ⟨r, -, hdown⟩ := doGetmsg_turned_down henter
    obtain rfl := Except.ok.inj (hdown.symm.trans h)
    exact .refl _

end Operations

/-! ## The promise -/

/-- The call delivers a piece of `n`, the first message, and no piece of it has been
delivered before. -/
def GetCall.Begins (q : GetCall) (n : TPrimsg) : Prop :=
  (∃ g, doGetmsg q.env q.args q.sys = .ok g ∧ g.sys.delivered ≠ q.sys.delivered) ∧
    (∃ a, q.looked.priv.pfirst = some a ∧ q.looked.heap a = some n) ∧
    ∀ p ∈ q.sys.delivered, p.serial ≠ n.serial

/-- Nothing of high priority is queued when the call begins a message of another
priority. -/
def GetCall.HighFirst (q : GetCall) : Prop :=
  ∀ n, q.Begins n → n.pri ≠ MSG_HIPRI →
    ∀ l, q.looked.Holds l → ∀ a ∈ l, ¬ q.looked.High a

theorem GetCall.highFirst {q : GetCall} (hs : Ordered q.sys.toCore)
    (hno : ¬ getAnnounces q.env q.args q.sys) : q.HighFirst := by
  rintro n ⟨⟨g, hg, hdel⟩, ⟨a, hfirst, hn⟩, hnew⟩ hpri l hl
  have henter : getEnters q.env q.sys := by
    by_contra hnot
    obtain ⟨r, -, hdown⟩ := doGetmsg_turned_down hnot
    obtain rfl := Except.ok.inj (hdown.symm.trans hg)
    exact hdel rfl
  obtain ⟨htidy, hdelivered⟩ := lookForConnection_tidy henter hno
  obtain ⟨l', hl', hp⟩ := htidy.ordered hs
  obtain rfl : l' = l := hl'.chain.unique hl.chain
  cases l' with
  | nil => exact nofun
  | cons b l =>
    obtain rfl := some.inj (hl.first.symm.trans hfirst)
    have hbegun : q.looked.Unbegun b := by
      refine ⟨n, hn, hpri, ?_⟩
      intro p hp
      rw [show q.looked.delivered = q.sys.delivered from hdelivered] at hp
      exact hnew p hp
    intro c hc
    rcases mem_cons.mp hc with rfl | hc
    · rintro ⟨m, hm, hmpri⟩
      obtain rfl := some.inj (hn.symm.trans hm)
      exact hpri hmpri
    · exact (pairwise_cons.mp hp).1 c hc hbegun

/-- The block with another byte where the priority will be. -/
def Block.withPri (p : Byte) (b : Block) : Block := { b with junk := { b.junk with pri := p } }

/-- The same answers, but `kmalloc` offers blocks with another old content. -/
def Env.withPri (p : Byte) (e : Env) : Env :=
  { e with
    ctlAlloc := e.ctlAlloc.map (Block.withPri p)
    ackAlloc := e.ackAlloc.map (Block.withPri p) }

def IoctlEnv.withPri (p : Byte) (e : IoctlEnv) : IoctlEnv :=
  { e with
    own := e.own.withPri p
    put := e.put.withPri p
    get := e.get.withPri p
    get' := e.get'.withPri p }

def Op.withPri (p : Byte) : Op → Op
  | .putmsg e c => .putmsg (e.withPri p) c
  | .getmsg e c => .getmsg (e.withPri p) c
  | .ioctl e c => .ioctl (e.withPri p) c
  | .updateSocket e fd => .updateSocket (e.withPri p) fd

/-- What an operation queues has a priority, whatever its blocks held before. -/
def Op.Defines (op : Op) (s : Sys) : Prop :=
  ∀ p r t, (op.withPri p).step s = .ok (r, t) →
    ∀ n ∈ t.queued.drop s.queued.length, n.pri = 0 ∨ n.pri = MSG_HIPRI

/-- High priority goes first, and every message has a priority. -/
structure Op.Prioritises (op : Op) (s : Sys) : Prop where
  first : ∀ q ∈ op.gets s, q.HighFirst
  defined : op.Defines s

/-! ## The condition -/

/-- A connection can be accepted. -/
def Env.offers (e : Env) : Prop := e.stream = true ∧ ¬ (e.socket .accept).result < 0

/-- No connection is announced, and a `T_BIND_ACK` finds no unbegun message. -/
def Op.InLine (op : Op) (s : Sys) : Prop :=
  (∀ e c, op.request = some (e, c) → bindAnswers e c s → NoneUnbegun s.toCore) ∧
  match op with
  | .putmsg _ _ => True
  | .getmsg e c => ¬ getAnnounces e c s
  | .ioctl e _ => op.request ≠ none → ¬ e.get.offers ∧ ¬ e.get'.offers
  | .updateSocket e fd => ¬ announcesConn e fd s

theorem not_getAnnounces {e : Env} (h : ¬ e.offers) (c : GetArgs) (s : Sys) :
    ¬ getAnnounces e c s :=
  fun ha => h ⟨ha.2.2.2.1.1, ha.2.2.2.2.1⟩

/-! ## The condition does not depend on what blocks held before -/

section WithPri

variable {e : Env} {s : Sys} {p : Byte}

theorem timodMkctl_withPri (k : Core) (alloc : Option Block) (len : Int) :
    (k.timodMkctl (alloc.map (Block.withPri p)) len).isSome = (k.timodMkctl alloc len).isSome := by
  cases alloc with
  | none => rfl
  | some b =>
    unfold Core.timodMkctl
    dsimp only [map_some]
    by_cases hb : (12 + len) % 2 ^ 32 ≤ kmallocMax ∧ (k.heap b.addr).isNone = true
    · rw [if_pos hb, if_pos (show _ ∧ (k.heap (b.withPri p).addr).isNone = true from hb)]
      rfl
    · rw [if_neg hb, if_neg (show ¬ (_ ∧ (k.heap (b.withPri p).addr).isNone = true) from hb)]

theorem bindAnswers_withPri (h : bindAnswers (e.withPri p) c s) : bindAnswers e c s := by
  obtain ⟨hcmd, hstate, hbind, hctl⟩ := h
  refine ⟨hcmd, hstate, hbind, ?_⟩
  rwa [show (e.withPri p).ctlAlloc = e.ctlAlloc.map (Block.withPri p) from rfl, isSome_map] at hctl

theorem announcesConn_withPri {fd : Word} (h : announcesConn (e.withPri p) fd s) :
    announcesConn e fd s := by
  obtain ⟨hcall, hres, hb, hcopy⟩ := h
  refine ⟨hcall, hres, ?_, hcopy⟩
  rwa [show (e.withPri p).ctlAlloc = e.ctlAlloc.map (Block.withPri p) from rfl,
    timodMkctl_withPri] at hb

theorem request_withPri (op : Op) (p : Byte) :
    (op.withPri p).request = op.request.map fun r => (r.1.withPri p, r.2) := by
  cases op with
  | putmsg e c | getmsg e c | updateSocket e fd => rfl
  | ioctl e c =>
    show (if e.own.verify true c.lenP 4 = true ∧ (ioctlNumber c.func = 1 ∨ ioctlNumber c.func = 2)
        then some (e.put.withPri p, c.putArgs) else none) = Option.map _ (Op.request (.ioctl e c))
    unfold Op.request
    dsimp only
    split <;> rfl

theorem Op.InLine.withPri {op : Op} (hop : op.InLine s) (p : Byte) : (op.withPri p).InLine s := by
  refine ⟨?_, ?_⟩
  · intro e' c' hreq hans
    rw [request_withPri] at hreq
    obtain ⟨⟨e, c⟩, hreq', heq⟩ := map_eq_some_iff.mp hreq
    obtain ⟨rfl, rfl⟩ := Prod.mk.inj heq
    exact hop.1 e c hreq' (bindAnswers_withPri hans)
  · have hop := hop.2
    cases op with
    | putmsg e c => trivial
    | getmsg e c =>
      intro ha
      exact hop ⟨ha.1, ha.2.1, ha.2.2.1, announcesConn_withPri ha.2.2.2⟩
    | updateSocket e fd => exact fun ha => hop (announcesConn_withPri ha)
    | ioctl e c =>
      intro hreq
      refine hop fun hnone => hreq ?_
      rw [request_withPri, hnone]
      rfl

end WithPri

/-! ## Runs -/

section Ioctl

variable {e : IoctlEnv} {c : IoctlArgs} {s t : Sys} {r : Int}

theorem Fetches.tidy {k k' : Core} (hget : ¬ e.get.offers) (hget' : ¬ e.get'.offers)
    (h : Fetches e c k k') : Tidy k k' := by
  induction h with
  | quiet k => exact .refl k
  | get h => exact doGetmsg_tidy (not_getAnnounces hget _ _) h
  | get' h => exact doGetmsg_tidy (not_getAnnounces hget' _ _) h
  | drop h => exact dropHead_tidy h
  | trans _ _ ih ih' => exact ih.trans ih'

theorem timodIoctl_tidy (hop : (Op.ioctl e c).InLine s) (h : timodIoctl e c s = .ok (r, t)) :
    Tidy s.toCore t.toCore := by
  rcases timodIoctl_cases h with ⟨hreq, error, u, hput, hfetch⟩ | ⟨-, hsame | hunbnd⟩
  · obtain ⟨hget, hget'⟩ := hop.2 (by rw [hreq]; exact some_ne_none _)
    exact (doPutmsg_tidy (hop.1 _ _ hreq) hput).trans (hfetch.tidy hget hget')
  · rw [hsame]
    exact .refl _
  · rw [hunbnd]
    exact .setState s.toCore .unbnd

theorem ioctlGets_highFirst (hs : Ordered s.toCore) (hget : ¬ e.get.offers)
    (hget' : ¬ e.get'.offers) {q : GetCall} (hq : q ∈ ioctlGets e c s) : q.HighFirst := by
  rcases mem_cons.mp hq with rfl | hq
  · exact GetCall.highFirst hs (not_getAnnounces hget _ _)
  · split at hq
    · exact nomatch hq
    next g hg =>
      have hg' := (doGetmsg_tidy (not_getAnnounces hget _ _) hg).ordered hs
      split at hq
      · obtain rfl := mem_singleton.mp hq
        exact GetCall.highFirst hg' (not_getAnnounces hget' _ _)
      · exact nomatch hq

end Ioctl

section Runs

variable {op : Op} {s t : Sys} {r : Int}

/-- An operation that is in line keeps the order and gives its messages a priority. -/
theorem Op.InLine.tidy (hop : op.InLine s) (h : op.step s = .ok (r, t)) :
    Tidy s.toCore t.toCore := by
  cases op with
  | putmsg e c => exact doPutmsg_tidy (hop.1 e c rfl) h
  | getmsg e c =>
    obtain ⟨g, hg, rfl⟩ := step_getmsg h
    exact doGetmsg_tidy hop.2 hg
  | ioctl e c => exact timodIoctl_tidy hop h
  | updateSocket e fd =>
    obtain rfl := step_updateSocket h
    exact (timodUpdateSocket_tidy hop.2).1

theorem Op.InLine.defines (hop : op.InLine s) : op.Defines s := by
  intro p r t h n hn
  obtain ⟨new, hq, hnew⟩ := ((hop.withPri p).tidy h).prioritised
  rw [hq, drop_left] at hn
  exact hnew n hn

theorem Op.InLine.first (hop : op.InLine s) (hs : Ordered s.toCore) :
    ∀ q ∈ op.gets s, q.HighFirst := by
  intro q hq
  cases op with
  | putmsg e c | updateSocket e fd => exact nomatch hq
  | getmsg e c =>
    obtain rfl := mem_singleton.mp hq
    exact GetCall.highFirst hs hop.2
  | ioctl e c =>
    unfold Op.gets at hq
    dsimp only at hq
    split at hq
    next x r' s1 hreq hput =>
      have hnone : (Op.ioctl e c).request ≠ none := by
        rw [hreq]
        exact some_ne_none _
      obtain ⟨hget, hget'⟩ := hop.2 hnone
      have hx : (Op.ioctl e c).request = some (e.put, c.putArgs) := by
        unfold Op.request at hnone ⊢
        dsimp only at hnone ⊢
        split
        · rfl
        next hno => exact absurd (if_neg hno) hnone
      have hs1 : Ordered s1.toCore := (doPutmsg_tidy (hop.1 _ _ hx) hput).ordered hs
      split at hq
      · exact ioctlGets_highFirst hs1 hget hget' hq
      · exact nomatch hq
    · exact nomatch hq

/-- In every run of an endpoint whose operations are in line, high priority goes
first and every message has a priority. -/
theorem high_goes_first {st : TState} {ops : List Op} (hs : s.Fresh st)
    (h : Along Op.step Op.InLine ops s) : Along Op.step Op.Prioritises ops s := by
  have hstart : Ordered s.toCore := by
    refine ⟨[], ?_, List.Pairwise.nil⟩
    unfold Core.Holds
    rw [hs.1]
    exact Queue.empty
  refine along_of_inv (I := fun s => Ordered s.toCore) ?_ ?_ h hstart
  · intro op s r t hop hI hstep
    exact (hop.tidy hstep).ordered hI
  · intro op s hop hI
    exact ⟨hop.first hI, hop.defines⟩

end Runs

/-- Memory for both messages of a request, and a peer that refuses connections. -/
def refusedEnv : Env :=
  { plainEnv with
    ackAlloc := some (freeBlock 1)
    ctlAlloc := some (freeBlock 2)
    socket := fun _ => ⟨-111, id⟩ }

theorem bind_on_new_endpoint_in_order :
    Along Op.step Op.Prioritises [.putmsg { refusedEnv with socket := fun _ => ⟨0, id⟩ } (putAt 16),
      .getmsg plainEnv (getAt 64)] (endpoint .unbnd [T_BIND_REQ, 0, 0, 0]) := by
  have hbind : NoneUnbegun (endpoint .unbnd [T_BIND_REQ, 0, 0, 0]).toCore :=
    ⟨[], Queue.empty, nofun⟩
  have hget : ∀ s, (Op.getmsg plainEnv (getAt 64)).InLine s := by
    intro s
    refine ⟨fun _ _ hreq => absurd hreq (some_ne_none _).symm, ?_⟩
    exact not_getAnnounces (fun ho => Bool.false_ne_true ho.1) _ _
  exact high_goes_first (endpoint_fresh ..)
    ⟨⟨fun _ _ _ _ => hbind, trivial⟩, fun _ s _ => ⟨hget s, fun _ _ _ => trivial⟩⟩

/-- A refused connection leaves a `T_DISCON_IND`; the `T_BIND_ACK` of the next
request comes out behind it. -/
theorem bind_ack_behind_discon_ind :
    ¬ Along Op.step Op.Prioritises
      [.putmsg refusedEnv (putAt 20),
        .putmsg { plainEnv with ctlAlloc := some (freeBlock 3) } ⟨3, 0x1014, 16, 0, -1, 0⟩,
        .getmsg plainEnv (getAt 64), .getmsg plainEnv (getAt 64)]
      (endpoint .unbnd [T_CONN_REQ, 0, 0, 0, 0, T_BIND_REQ, 0, 0, 0]) := by
  intro h
  have hlast := (((h.2 _ _ rfl).2 _ _ rfl).2 _ _ rfl).1.first _ (mem_singleton_self _)
  refine hlast _ ⟨⟨_, rfl, ?_⟩, ⟨2, rfl, rfl⟩, ?_⟩ (by decide) [2, 3]
    ⟨.cons rfl (.cons rfl .nil), rfl⟩ 3 (by decide) ⟨_, rfl, rfl⟩
  · decide
  · decide

end AbiEmu.Xti
