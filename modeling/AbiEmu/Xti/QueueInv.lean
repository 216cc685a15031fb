import AbiEmu.Lib.Run
import AbiEmu.Xti.Acts

/-!
# The queue of an endpoint stays a queue

The queue is well formed when `pfirst` and `plast` are null together, the
`next` chain from `pfirst` visits each block once and ends in null, and `plast`
is the last block on it (`QueueOk`). Each act of `Link` and each piece handed
out keeps this, so every state an endpoint reaches has a well-formed queue.

What can go wrong is the append itself. `T_BIND_REQ` and `T_CONN_REQ` link their
second message behind `plast` right after `timod_ok`, which queues nothing when
its own `kmalloc` fails. On an empty queue that leaves `plast` null.
`queue_intact` is the condition under which it never happens, in any run:
whenever one of the two requests comes to its answer on an empty queue, the
allocation of `timod_ok` is granted.

The lengths in the queue are part of the same story: a message is linked with a
length that is not negative and loses no more than it has, so in every run what
is left of a message is a number of bytes (`run_measured`).
-/

namespace AbiEmu.Xti

open List Option Except Function

/-- The queue of the endpoint holds the blocks `l`, in this order. -/
abbrev Core.Holds (k : Core) (l : List Addr) : Prop :=
  Queue TPrimsg.next k.heap k.priv.pfirst k.priv.plast l

/-- The queue is well formed. -/
structure QueueOk (k : Core) : Prop where
  null : k.priv.pfirst = none ↔ k.priv.plast = none
  chain : ∃ l, Chain TPrimsg.next k.heap k.priv.pfirst l ∧ l.Nodup ∧
    k.priv.plast = l.getLast?

variable {l : List Addr} {k : Core}

theorem Core.Holds.ok (h : k.Holds l) : QueueOk k :=
  ⟨h.null_iff, l, h.chain, h.chain.nodup, h.last_eq⟩

theorem QueueOk.holds (h : QueueOk k) : ∃ l, k.Holds l := by
  obtain ⟨l, hchain, _, hlast⟩ := h.chain
  exact ⟨l, hchain, hlast⟩

/-! ## The acts -/

section Acts

variable {k k' : Core} {l : List Addr} {a : Addr} {n : TPrimsg} {len : Int} {b : Block}

/-- A free block of a size `kmalloc` serves is granted. -/
theorem timodMkctl_grant (hsize : (12 + len) % 2 ^ 32 ≤ kmallocMax) (hfree : k.heap b.addr = none) :
    k.timodMkctl (some b) len ≠ none := by
  have hgrant : k.timodMkctl (some b) len =
      some (b, { k with heap := update k.heap b.addr (some b.junk) }) :=
    if_pos ⟨hsize, isNone_iff_eq_none.mpr hfree⟩
  rw [hgrant]
  exact some_ne_none _

/-- A free block is not in the queue. -/
theorem Core.Holds.not_mem (h : k.Holds l) (ha : k.heap a = none) : a ∉ l := by
  intro hmem
  obtain ⟨n, hn⟩ := h.chain.live hmem
  rw [ha] at hn
  exact nomatch hn

/-- A heap changed at `a` only agrees elsewhere. -/
theorem update_agree {h : Addr → Option TPrimsg} {v : Option TPrimsg} (ha : a ∉ l) :
    ∀ b ∈ l, Function.update h a v b = h b := by
  intro b hb
  refine update_of_ne ?_ ..
  intro he
  exact ha (he ▸ hb)

theorem Core.Holds.alloc (h : k.Holds l) {alloc : Option Block}
    (hb : k.timodMkctl alloc len = some (b, k')) : k'.Holds l ∧ b.addr ∉ l := by
  obtain ⟨_, hfree, rfl⟩ := timodMkctl_spec hb
  have hmem := h.not_mem hfree
  exact ⟨Queue.frame h (update_agree hmem), hmem⟩

theorem Core.Holds.pushFront (h : k.Holds l) (ha : a ∉ l) : (k.pushFront a n).Holds (a :: l) :=
  Queue.push h (update_self ..) rfl (update_agree ha)

/-- The heap after a link at the tail: the new block, the old last one, the others. -/
theorem linkTail_heap (k : Core) (n nl : TPrimsg) {last : Addr} (hne : a ≠ last) :
    (k.linkTail a n last nl).heap a = some (k.entering n none) ∧
    (k.linkTail a n last nl).heap last = some { nl with next := some a } ∧
    ∀ b, b ≠ a → b ≠ last → (k.linkTail a n last nl).heap b = k.heap b := by
  unfold Core.linkTail
  dsimp only
  refine ⟨?_, update_self .., ?_⟩
  · rw [update_of_ne hne, update_self]
  · intro b hba hbl
    rw [update_of_ne hbl, update_of_ne hba]

section

variable (h : k.Holds l) (ha : a ∉ l) (hk : k.appendTail a n = .ok k')

include h ha hk

theorem Core.Holds.appendTail : k'.Holds (l ++ [a]) := by
  obtain ⟨last, nl, hlast, _, rfl⟩ := appendTail_spec hk
  have hmem : last ∈ l := mem_of_getLast? (h.last_eq ▸ hlast)
  have hne : a ≠ last := fun he => ha (he ▸ hmem)
  obtain ⟨hnew, hold, hother⟩ := linkTail_heap k n nl hne
  refine Queue.append h hlast hold rfl hnew rfl ?_
  intro c hc hcl
  exact hother c (fun he => ha (he ▸ hc)) hcl

/-- The heap after a message has been linked at the tail: the new block, the messages, of
which one has another link, and the rest. -/
theorem Core.Holds.linked :
    k'.heap a = some (k.entering n none) ∧
    (∀ b ∈ l, ∃ m next, k.heap b = some m ∧ k'.heap b = some { m with next }) ∧
    ∀ b, b ≠ a → b ∉ l → k'.heap b = k.heap b := by
  obtain ⟨last, nl, hlast, hnl, rfl⟩ := appendTail_spec hk
  have hmem : last ∈ l := mem_of_getLast? (h.last_eq ▸ hlast)
  obtain ⟨hnew, hold, hother⟩ := linkTail_heap k n nl (fun he => ha (he ▸ hmem) : a ≠ last)
  refine ⟨hnew, fun b hb => ?_, fun b hba hb => hother b hba fun he => hb (he ▸ hmem)⟩
  by_cases hbl : b = last
  · subst hbl
    exact ⟨nl, _, hnl, hold⟩
  · obtain ⟨m, hm⟩ := h.chain.live hb
    exact ⟨m, m.next, hm, (hother b (fun he => ha (he ▸ hb)) hbl).trans hm⟩

end

/-- An append stops exactly on an empty queue. -/
theorem Core.Holds.appendTail_error (h : k.Holds l) {stop : Stop}
    (hk : k.appendTail a n = .error stop) : k.priv.pfirst = none := by
  unfold Core.appendTail at hk
  split at hk
  next hnone => exact h.null_iff.mpr hnone
  next last hlast =>
    obtain ⟨nl, hnl⟩ := h.chain.live (mem_of_getLast? (h.last_eq ▸ hlast))
    simp only [hnl] at hk
    exact nomatch hk

theorem Core.Holds.first (h : k.Holds (a :: l)) : k.priv.pfirst = some a := by
  cases hp : k.priv.pfirst with
  | none => exact nomatch h.chain.null_iff.mp hp
  | some b =>
    have hchain := h.chain
    rw [hp] at hchain
    cases hchain
    rfl

theorem Core.Holds.dropHead (h : k.Holds (a :: l)) :
    ∃ k', k.dropHead = .ok k' ∧ k'.Holds l ∧ k'.priv.offset = 0 ∧ k'.queued = k.queued ∧
      k'.delivered = k.delivered ∧ k'.heap = Function.update k.heap a none := by
  have hfirst := h.first
  obtain ⟨n, hn⟩ := h.chain.live (mem_cons_self ..)
  have hnodup := h.chain.nodup
  unfold Core.dropHead
  rw [hfirst]
  dsimp only
  rw [hn]
  refine ⟨_, rfl, ?_, rfl, rfl, rfl, rfl⟩
  have h' : Queue TPrimsg.next k.heap (some a) k.priv.plast (a :: l) := hfirst ▸ h
  exact Queue.pop h' hn (update_agree (nodup_cons.mp hnodup).1)

/-- The first message is the head of the queue. -/
theorem Core.Holds.of_first (h : k.Holds l) (ha : k.priv.pfirst = some a) : ∃ l', l = a :: l' := by
  cases l with
  | nil => exact nomatch ha.symm.trans (h.chain.null_iff.mpr rfl)
  | cons b l =>
    obtain rfl := some.inj (h.first.symm.trans ha)
    exact ⟨l, rfl⟩

/-- A message that was dropped was the head of the queue. -/
theorem Core.Holds.dropped (h : k.Holds l) (hk : k.dropHead = .ok k') :
    ∃ a l', l = a :: l' ∧ k'.Holds l' ∧ k'.priv.offset = 0 ∧ k'.queued = k.queued ∧
      k'.delivered = k.delivered ∧ k'.heap = Function.update k.heap a none := by
  obtain ⟨a, -, ha, -⟩ := dropHead_ok hk
  obtain ⟨l, rfl⟩ := h.of_first ha
  obtain ⟨k1, hk1, hrest⟩ := h.dropHead
  obtain rfl := ok.inj (hk1.symm.trans hk)
  exact ⟨a, l, rfl, hrest⟩

section

variable (h : k.Holds (a :: l)) (hn : k.heap a = some n) (x : Int)

include h hn x

/-- The queue with another length in its first message. -/
theorem Core.Holds.handOut : (k.handOut a n x).Holds (a :: l) := by
  have hnodup := h.chain.nodup
  have hfirst := h.first
  refine ⟨?_, h.last_eq⟩
  have hchain := h.chain
  show Chain TPrimsg.next _ k.priv.pfirst (a :: l)
  rw [hfirst] at hchain ⊢
  cases hchain with
  | cons hn' hrest =>
    rw [hn] at hn'
    obtain rfl := some.inj hn'
    have hnew : (k.handOut a n x).heap a = some { n with length := n.length - x } :=
      update_self ..
    exact .cons hnew (hrest.frame (update_agree (nodup_cons.mp hnodup).1))

/-- A piece of the first message is handed out. -/
theorem Core.Holds.takeChunk : ∃ k', k.takeChunk a n x = .ok k' ∧ QueueOk k' := by
  have hout := h.handOut hn x
  unfold Core.takeChunk
  split
  · exact ⟨_, rfl, Core.Holds.ok hout⟩
  · obtain ⟨k', hk', hholds, _⟩ := hout.dropHead
    exact ⟨k', hk', hholds.ok⟩

end

/-! ### Lengths -/

/-- Messages in the queue do not have a negative length. -/
def Lengths (k : Core) (l : List Addr) : Prop := ∀ a ∈ l, ∀ n, k.heap a = some n → 0 ≤ n.length

theorem Lengths.frame (h : Lengths k l) (hagree : ∀ b ∈ l, k'.heap b = k.heap b) :
    Lengths k' l := by
  intro b hb m hm
  exact h b hb m ((hagree b hb).symm.trans hm)

theorem Lengths.cons (h : Lengths k l) (hn : k.heap a = some n) (hlen : 0 ≤ n.length) :
    Lengths k (a :: l) := by
  intro b hb m hm
  rcases mem_cons.mp hb with rfl | hb
  · obtain rfl := some.inj (hn.symm.trans hm)
    exact hlen
  · exact h b hb m hm

theorem Lengths.tail (h : Lengths k (a :: l)) : Lengths k l :=
  fun b hb => h b (mem_cons_of_mem _ hb)

theorem Lengths.alloc (h : Lengths k l) (hl : k.Holds l) {alloc : Option Block}
    (hb : k.timodMkctl alloc len = some (b, k')) : Lengths k' l := by
  obtain ⟨_, hfree, rfl⟩ := timodMkctl_spec hb
  exact h.frame (update_agree (hl.not_mem hfree))

theorem Lengths.pushFront (h : Lengths k l) (ha : a ∉ l) (hn : 0 ≤ n.length) :
    Lengths (k.pushFront a n) (a :: l) := by
  have hold : Lengths (k.pushFront a n) l := h.frame (update_agree ha)
  exact hold.cons (update_self ..) hn

theorem Lengths.appendTail (h : Lengths k l) (hl : k.Holds l) (ha : a ∉ l) (hn : 0 ≤ n.length)
    (hk : k.appendTail a n = .ok k') : Lengths k' (l ++ [a]) := by
  obtain ⟨hnew, hold, -⟩ := hl.linked ha hk
  intro b hb m hm
  rcases mem_append.mp hb with hb | hb
  · obtain ⟨m, next, hm₀, hm₁⟩ := hold b hb
    obtain rfl := some.inj (hm₁.symm.trans hm)
    exact h b hb m hm₀
  · obtain rfl := mem_singleton.mp hb
    obtain rfl := some.inj (hnew.symm.trans hm)
    exact hn

theorem Lengths.handOut (h : Lengths k (a :: l)) (hl : k.Holds (a :: l)) {x : Int}
    (hx : x ≤ n.length) : Lengths (k.handOut a n x) (a :: l) := by
  have hrest : Lengths (k.handOut a n x) l :=
    h.tail.frame (update_agree (nodup_cons.mp hl.chain.nodup).1)
  refine hrest.cons (update_self ..) ?_
  dsimp only
  omega

theorem GetArgs.take_bounds (c : GetArgs) (hmax : 0 ≤ c.ctlMaxlen) {n : Int} (hn : 0 ≤ n) :
    0 ≤ c.take n ∧ c.take n ≤ n := by
  unfold GetArgs.take
  split <;> omega

end Acts

/-! ## What the operations keep -/

section Steps

variable {k k' : Core} {front : Bool} {a : Addr}

/-- `timod_ok` links its message in front, or leaves the endpoint as it is. -/
theorem Core.Holds.queueWords (h : k.Holds l) (alloc : Option Block) (words : List Word)
    (ha : k.heap a ≠ none) (hal : a ∉ l) :
    ∃ l', (k.queueWords alloc words).Holds l' ∧ a ∉ l' ∧
      (Lengths k l → Lengths (k.queueWords alloc words) l') := by
  unfold Core.queueWords
  split
  · exact ⟨l, h, hal, id⟩
  next b k1 hb =>
    obtain ⟨h1, hfresh⟩ := h.alloc hb
    refine ⟨b.addr :: l, h1.pushFront hfresh, ?_, fun hlen => ?_⟩
    · intro hmem
      rcases mem_cons.mp hmem with rfl | hmem
      · exact ha (timodMkctl_spec hb).2.1
      · exact hal hmem
    · refine (hlen.alloc h hb).pushFront hfresh ?_
      show 0 ≤ 4 * (words.length : Int)
      omega

/-- The block just allocated for an answer is not in the queue when the answer
is linked. -/
theorem Core.Holds.answer (h : k.Holds l) {alloc : Option Block}
    (hb : k.timodMkctl alloc len = some (b, k')) (ack : Option Block) (prim : Word) :
    ∃ l', (k'.timodOk ack prim).Holds l' ∧ b.addr ∉ l' ∧
      (Lengths k l → Lengths (k'.timodOk ack prim) l') := by
  obtain ⟨h', hfresh⟩ := h.alloc hb
  obtain ⟨l', hl', hnot, hlen⟩ := h'.queueWords ack [T_OK_ACK, prim] (timodMkctl_live hb) hfresh
  exact ⟨l', hl', hnot, fun hl => hlen (hl.alloc h hb)⟩

theorem Link.holds (h : Link front k k') (hl : k.Holds l) :
    ∃ l', k'.Holds l' ∧ (Lengths k l → Lengths k' l') := by
  cases h with
  | alloc hb => exact ⟨l, (hl.alloc hb).1, fun hlen => hlen.alloc hl hb⟩
  | push _ hb hn =>
    obtain ⟨h', hfresh⟩ := hl.alloc hb
    exact ⟨_, h'.pushFront hfresh, fun hlen => (hlen.alloc hl hb).pushFront hfresh hn⟩
  | answer _ hb hn ha =>
    obtain ⟨l', h', hfresh, hlen'⟩ := hl.answer hb _ _
    exact ⟨_, h'.appendTail hfresh ha, fun hlen => (hlen' hlen).appendTail h' hfresh hn ha⟩

theorem Links.holds (h : Links front k k') (hl : k.Holds l) :
    ∃ l', k'.Holds l' ∧ (Lengths k l → Lengths k' l') := by
  induction h with
  | refl => exact ⟨l, hl, id⟩
  | tail _ hlink ih =>
    obtain ⟨l', hl', hlen'⟩ := ih
    obtain ⟨l'', hl'', hlen''⟩ := hlink.holds hl'
    exact ⟨l'', hl'', hlen'' ∘ hlen'⟩

theorem Links.queueOk (h : Links front k k') (hk : QueueOk k) : QueueOk k' := by
  obtain ⟨l, hl⟩ := hk.holds
  obtain ⟨l', hl', -⟩ := h.holds hl
  exact hl'.ok

theorem QueueOk.setState (hk : QueueOk k) (st : TState) : QueueOk (k.setState st) :=
  ⟨hk.null, hk.chain⟩

theorem Requests.queueOk (h : Requests front k k') (hk : QueueOk k) : QueueOk k' := by
  obtain ⟨st, _, hlinks⟩ := h
  exact hlinks.queueOk (hk.setState st)

section

variable (hk : QueueOk k) (ha : k.priv.pfirst = some a)

include hk ha

/-- The first block of a well-formed queue is there. -/
theorem QueueOk.first : ∃ l it, k.Holds (a :: l) ∧ k.heap a = some it := by
  obtain ⟨l, hl⟩ := hk.holds
  obtain ⟨l, rfl⟩ := hl.of_first ha
  obtain ⟨it, hit⟩ := hl.chain.live (mem_cons_self ..)
  exact ⟨l, it, hl, hit⟩

theorem QueueOk.dropHead : ∃ k', k.dropHead = .ok k' ∧ QueueOk k' := by
  obtain ⟨l, it, hl, _⟩ := hk.first ha
  obtain ⟨k', hk', hholds, _⟩ := hl.dropHead
  exact ⟨k', hk', hholds.ok⟩

end

variable {c : GetArgs} {r : Int}

theorem Gets.queueOk (h : Gets c k r k') (hk : QueueOk k) : QueueOk k' := by
  cases h with
  | quiet => exact hk
  | piece _ hfirst hit hchunk =>
    obtain ⟨l, it', hl, hit'⟩ := hk.first hfirst
    obtain ⟨k1, hk1, hok⟩ := hl.takeChunk hit _
    rw [hchunk] at hk1
    obtain rfl := ok.inj hk1
    exact hok

/-- After `MORECTL` the first message is still there. -/
theorem Gets.first_of_more (h : Gets c k r k') (hr : 0 < r) : k'.priv.pfirst ≠ none := by
  cases h with
  | quiet hle => omega
  | piece _ hfirst _ hchunk =>
    rcases takeChunk_ok hchunk with ⟨-, rfl⟩ | ⟨hrest, hchunk⟩
    · dsimp only [Core.advance, Core.handOut]
      rw [hfirst]
      exact some_ne_none _
    · omega

/-- On a well-formed queue `do_getmsg` returns and leaves a well-formed queue. -/
theorem doGetmsg_ok (e : Env) (c : GetArgs) {s : Sys} (hs : QueueOk s.toCore) :
    ∃ g, doGetmsg e c s = .ok g ∧ QueueOk g.sys.toCore ∧
      (0 < g.ret → g.sys.priv.pfirst ≠ none) := by
  obtain ⟨k, hlinks, hcase⟩ := doGetmsg_cases e c s
  have hk := hlinks.queueOk hs
  rcases hcase with ⟨g, hg, hgets⟩ | ⟨a, stop, _, hfirst, herr⟩
  · exact ⟨g, hg, hgets.queueOk hk, hgets.first_of_more⟩
  · obtain ⟨l, it, hl, hit⟩ := hk.first hfirst
    obtain ⟨k1, hk1, _⟩ := hl.takeChunk hit (c.take it.length)
    rw [herr it hit] at hk1
    exact nomatch hk1

end Steps

/-! ## When an append stops -/

/-- `kmalloc` serves the acknowledgement of a request: the block on offer is
neither in use nor the one the request's own message got. -/
def Env.AckGranted (e : Env) (k : Core) : Prop :=
  ∃ b, e.ackAlloc = some b ∧ k.heap b.addr = none ∧ ∀ b', e.ctlAlloc = some b' → b'.addr ≠ b.addr

/-- A request that appends to the queue has a message to append to. -/
def HasTail (e : Env) (k : Core) : Prop := k.priv.pfirst ≠ none ∨ e.AckGranted k

section Stops

variable {e : Env} {c : PutArgs} {s : Sys} {stop : Stop}

/-- With memory for it, `timod_ok` queues its message. -/
theorem timodOk_first {k k' : Core} (prim : Word) (hb : k.timodMkctl e.ctlAlloc len = some (b, k'))
    (htail : HasTail e k) :
    (k'.timodOk e.ackAlloc prim).priv.pfirst ≠ none := by
  obtain ⟨hctl, _, rfl⟩ := timodMkctl_spec hb
  unfold Core.timodOk Core.queueWords
  split
  next hnone =>
    rcases htail with hfirst | ⟨b', hack, hfree, hne⟩
    · exact hfirst
    · rw [hack] at hnone
      refine absurd hnone (timodMkctl_grant (by simp [kmallocMax]) ?_)
      exact (update_of_ne (hne b hctl).symm ..).trans hfree
  · exact some_ne_none _

theorem answer_error {prim : Word} {n : TPrimsg} (hk : QueueOk k)
    (hb : k.timodMkctl e.ctlAlloc len = some (b, s.toCore))
    (h : answer e prim b.addr n s = .error stop) : ¬ HasTail e k := by
  intro htail
  unfold answer at h
  split at h
  next stop' herr =>
    obtain ⟨l, hl⟩ := hk.holds
    obtain ⟨l', hl', _⟩ := hl.answer hb e.ackAlloc prim
    exact timodOk_first prim hb htail (hl'.appendTail_error herr)
  · exact nomatch h

theorem bindReply_error {error : Int} (h : bindReply e c error s = .error stop)
    (hcore : s.toCore = k) (hs : QueueOk k) : (error = 0 ∧ Answers e c s) ∧ ¬ HasTail e k := by
  subst hcore
  unfold bindReply at h
  split_ifs at h with herr
  split at h
  · exact nomatch h
  next b k hb =>
    split at h
    · exact nomatch h
    next req hcopy =>
      exact ⟨⟨not_not.mp herr, answers_of_some hb hcopy⟩, answer_error hs hb h⟩

theorem bindReq_error (hs : QueueOk s.toCore) (h : bindReq e c s = .error stop) :
    bindAnswered e c s ∧ ¬ HasTail e s.toCore := by
  rcases bindReq_cases e c s with ⟨r, t, heq, -⟩ | ⟨hcalls, t, heq, hcore⟩
  all_goals rw [heq] at h
  · exact nomatch h
  · -- neither the queue nor the offered blocks depend on the state
    obtain ⟨⟨hzero, hans⟩, hnot⟩ := bindReply_error h hcore (hs.setState _)
    exact ⟨⟨hcalls, hzero, (answers_congr (by rw [hcore]; rfl)).mp hans⟩, hnot⟩

theorem connReply_error {error : Int} (h : connReply e c error s = .error stop)
    (hcore : s.toCore = k) (hs : QueueOk k) :
    (if error = 0 then Answers e c s else (k.timodMkctl e.ctlAlloc 12).isSome = true) ∧
      ¬ HasTail e k := by
  subst hcore
  unfold connReply at h
  split at h
  next hzero =>
    rw [if_pos hzero]
    split at h
    · exact nomatch h
    next b k hb =>
      split at h
      · exact nomatch h
      next req hcopy =>
        have hnot : ¬ HasTail e (s.toCore.setState .dataXfer) :=
          answer_error (hs.setState .dataXfer) (timodMkctl_setState hb .dataXfer) h
        exact ⟨answers_of_some hb hcopy, hnot⟩
  next herr =>
    rw [if_neg herr]
    split at h
    · exact nomatch h
    next b k hb => exact ⟨by rw [hb]; rfl, answer_error hs hb h⟩

theorem connReq_error (hs : QueueOk s.toCore) (h : connReq e c s = .error stop) :
    connAnswered e c s ∧ ¬ HasTail e s.toCore := by
  rcases connReq_cases e c s with ⟨-, r, t, heq, -⟩ | ⟨hcalls, t, heq, hcore⟩
  all_goals rw [heq] at h
  · exact nomatch h
  · obtain ⟨hans, hnot⟩ := connReply_error h hcore hs
    rw [answers_congr (congrArg Core.heap hcore)] at hans
    exact ⟨⟨hcalls, hans⟩, hnot⟩

theorem connRes_error (h : connRes e c s = .error stop) : stop = .noFile := by
  unfold connRes at h
  split at h
  · exact nomatch h
  · dsimp only at h
    split_ifs at h
    exact (error.inj h).symm

theorem timodOptmgmt_error {fd flag optBuf optLen : Word} {doRet : Bool}
    (h : timodOptmgmt e fd flag optBuf optLen doRet s = .error stop) : stop = .loop := by
  unfold timodOptmgmt at h
  dsimp only at h
  split_ifs at h
  split at h
  next stop' hloop =>
    obtain rfl := error.inj h
    exact optLoop_error hloop
  all_goals exact nomatch h

theorem optmgmtReq_error (h : optmgmtReq e c s = .error stop) : stop = .loop := by
  unfold optmgmtReq at h
  split at h
  · exact nomatch h
  · split at h
    · exact nomatch h
    · exact timodOptmgmt_error h

/-- Where `do_putmsg` links behind a message that is not there. -/
theorem doPutmsg_noTail (hs : QueueOk s.toCore) (h : doPutmsg e c s = .error .noTail) :
    ((getUser e s c.ctlBuf = some T_BIND_REQ ∧ bindAnswered e c s) ∨
      (getUser e s c.ctlBuf = some T_CONN_REQ ∧ connAnswered e c s)) ∧
    ¬ HasTail e s.toCore := by
  have hdispatch := doPutmsg_dispatch e c s
  generalize getUser e s c.ctlBuf = cmd, doPutmsg e c s = x at h hdispatch ⊢
  cases hdispatch with
  | bind =>
    obtain ⟨hans, hnot⟩ := bindReq_error hs h
    exact ⟨.inl ⟨rfl, hans⟩, hnot⟩
  | conn =>
    obtain ⟨hans, hnot⟩ := connReq_error hs h
    exact ⟨.inr ⟨rfl, hans⟩, hnot⟩
  | connRes => cases connRes_error h
  | optmgmt => cases optmgmtReq_error h
  | _ => cases h

end Stops

/-! ## Runs -/

/-- The operation leaves a well-formed queue, and does not stop at an append. -/
def Keeps (x : Res (Int × Sys)) : Prop :=
  (∀ r s, x = .ok (r, s) → QueueOk s.toCore) ∧ x ≠ .error .noTail

theorem Keeps.ok {x : Int × Sys} (hx : QueueOk x.2.toCore) : Keeps (.ok x) := by
  refine ⟨?_, nofun⟩
  intro r s h
  obtain rfl := ok.inj h
  exact hx

theorem Keeps.stop {stop : Stop} (hstop : stop ≠ .noTail) : Keeps (.error stop) :=
  ⟨fun _ _ h => (nomatch h), fun h => hstop (error.inj h)⟩

variable {e : Env}

theorem doPutmsg_keeps {c : PutArgs} {s : Sys} (hs : QueueOk s.toCore)
    (htail : doPutmsg e c s ≠ .error .noTail) : Keeps (doPutmsg e c s) :=
  ⟨fun _ _ h => (doPutmsg_requests h).queueOk hs, htail⟩

section Ioctl

variable {e : IoctlEnv} {c : IoctlArgs} {s : Sys} (b : Behind)

theorem ioctlGetmsg_cases (e : Env) (o : SockAnswer) (c : GetArgs) (hs : QueueOk s.toCore) :
    ioctlGetmsg b e o c s = .error .noFile ∨
      ∃ g, ioctlGetmsg b e o c s = .ok g ∧ QueueOk g.sys.toCore := by
  cases b with
  | same =>
    obtain ⟨g, hg, hok, _⟩ := doGetmsg_ok e c hs
    exact .inr ⟨g, hg, hok⟩
  | other => exact .inr ⟨_, rfl, hs⟩
  | closed => exact .inl rfl

theorem tiBindGet_keeps (hs : QueueOk s.toCore) : Keeps (tiBindGet e c b s) := by
  unfold tiBindGet
  rcases ioctlGetmsg_cases b e.get e.other c.getArgs hs with hg | ⟨g, hg, hok⟩
  all_goals rw [hg]
  · exact .stop (by decide)
  · dsimp only
    split_ifs
    iterate 3 exact .ok hok
    · rcases ioctlGetmsg_cases b e.get' e.other' c.getArgs hok with hg' | ⟨g', hg', hok'⟩
      all_goals rw [hg']
      · exact .stop (by decide)
      · exact .ok hok'

theorem dropHead_error {stop : Stop} (h : k.dropHead = .error stop) : stop = .noHead := by
  unfold Core.dropHead at h
  split at h
  · exact (error.inj h).symm
  split at h
  · exact (error.inj h).symm
  · exact nomatch h

theorem tiOptmgmtGet_keeps (hs : QueueOk s.toCore) : Keeps (tiOptmgmtGet e c b s) := by
  unfold tiOptmgmtGet
  rcases ioctlGetmsg_cases b e.get e.other c.getArgs hs with hg | ⟨g, hg, hok⟩
  all_goals rw [hg]
  · exact .stop (by decide)
  · dsimp only
    split
    · cases hd : g.sys.dropHead with
      | error stop =>
        rw [dropHead_error hd]
        exact .stop (by decide)
      | ok k =>
        -- a message was dropped, so there was a first one
        obtain ⟨a, -, hfirst, -⟩ := dropHead_ok hd
        obtain ⟨k', hk', hok'⟩ := hok.dropHead hfirst
        obtain rfl := ok.inj (hk'.symm.trans hd)
        exact .ok hok'
    · exact .ok hok

theorem tiRequest_keeps {rest : Behind → Sys → Res (Int × Sys)} (hs : QueueOk s.toCore)
    (htail : doPutmsg e.put c.putArgs s ≠ .error .noTail)
    (hrest : ∀ b s', QueueOk s'.toCore → Keeps (rest b s')) : Keeps (tiRequest e c rest s) := by
  have hput := doPutmsg_keeps hs htail
  unfold tiRequest
  split
  next stop hstop => exact .stop fun he => htail (he ▸ hstop)
  next error s1 hok =>
    have hs1 := hput.1 error s1 hok
    split
    · exact .ok hs1
    · exact hrest _ _ hs1

end Ioctl

/-! ## What is left of a message

A message enters the queue with a length that is not negative, and no piece is
longer than what is left. -/

/-- The queue holds its blocks, and what is left of each is not negative. -/
def Core.Measured (k : Core) : Prop := ∃ l, k.Holds l ∧ Lengths k l

section Measured

variable {k k' : Core} {front : Bool}

theorem Links.measured (h : Links front k k') (hk : k.Measured) : k'.Measured := by
  obtain ⟨l, hl, hlen⟩ := hk
  obtain ⟨l', hl', hlen'⟩ := h.holds hl
  exact ⟨l', hl', hlen' hlen⟩

theorem Core.Measured.setState (hk : k.Measured) (st : TState) : (k.setState st).Measured := by
  obtain ⟨l, hl, hlen⟩ := hk
  exact ⟨l, hl, hlen⟩

theorem dropHead_measured (h : k.dropHead = .ok k') (hk : k.Measured) : k'.Measured := by
  obtain ⟨l, hl, hlen⟩ := hk
  obtain ⟨a, l, rfl, hl1, -, -, -, hheap⟩ := hl.dropped h
  refine ⟨l, hl1, hlen.tail.frame ?_⟩
  rw [hheap]
  exact update_agree (nodup_cons.mp hl.chain.nodup).1

theorem Gets.measured (h : Gets c k r k') (hk : k.Measured) : k'.Measured := by
  cases h with
  | quiet => exact hk
  | @piece a it _ hmax hfirst hit hchunk =>
    obtain ⟨l, hl, hlen⟩ := hk
    obtain ⟨l, rfl⟩ := hl.of_first hfirst
    obtain ⟨-, hle⟩ := c.take_bounds hmax (hlen a (mem_cons_self ..) it hit)
    have hout : (k.handOut a it (c.take it.length)).Measured :=
      ⟨a :: l, hl.handOut hit _, hlen.handOut hl hle⟩
    rcases takeChunk_ok hchunk with ⟨-, rfl⟩ | ⟨-, hchunk⟩
    · exact hout
    · exact dropHead_measured hchunk hout

theorem doGetmsg_measured {s : Sys} {g : Got} (h : doGetmsg e c s = .ok g)
    (hs : s.toCore.Measured) :
    g.sys.toCore.Measured := by
  obtain ⟨k1, hlinks, ⟨g', hg, hgets⟩ | ⟨-, stop, hg, -⟩⟩ := doGetmsg_cases e c s
  · obtain rfl := ok.inj (hg.symm.trans h)
    exact hgets.measured (hlinks.measured hs)
  · exact nomatch hg.symm.trans h

theorem Fetches.measured {e : IoctlEnv} {c : IoctlArgs} (h : Fetches e c k k')
    (hk : k.Measured) : k'.Measured := by
  induction h with
  | quiet => exact hk
  | get h | get' h => exact doGetmsg_measured h hk
  | drop h => exact dropHead_measured h hk
  | trans _ _ ih ih' => exact ih' (ih hk)

theorem doPutmsg_measured {c : PutArgs} {s t : Sys} (h : doPutmsg e c s = .ok (r, t))
    (hs : s.toCore.Measured) : t.toCore.Measured := by
  obtain ⟨st, -, hlinks⟩ := doPutmsg_requests h
  exact hlinks.measured (hs.setState st)

theorem step_measured {op : Op} {s t : Sys} (hs : s.toCore.Measured) (h : op.step s = .ok (r, t)) :
    t.toCore.Measured := by
  cases op with
  | putmsg e c => exact doPutmsg_measured h hs
  | getmsg e c =>
    obtain ⟨g, hg, rfl⟩ := step_getmsg h
    exact doGetmsg_measured hg hs
  | updateSocket e fd =>
    obtain rfl := step_updateSocket h
    exact (timodUpdateSocket_links fd fun _ => rfl).measured hs
  | ioctl e c =>
    rcases timodIoctl_cases h with ⟨-, error, u, hput, hfetch⟩ | ⟨-, hsame | hunbnd⟩
    · exact hfetch.measured (doPutmsg_measured hput hs)
    · rw [hsame]
      exact hs
    · rw [hunbnd]
      exact hs.setState .unbnd

/-- Every endpoint that a run from a new one reaches has a queue of messages with
nothing negative left. -/
theorem run_measured {st : TState} {s t : Sys} (hs : s.Fresh st) {ops : List Op}
    (h : run Op.step ops s = .ok t) : t.toCore.Measured := by
  have hstart : s.toCore.Measured := by
    refine ⟨[], ?_, nofun⟩
    show Queue TPrimsg.next s.heap s.priv.pfirst s.priv.plast []
    rw [hs.1]
    exact Queue.empty
  have halong : Along Op.step (fun _ _ => True) ops s := along_of_forall (fun _ _ => trivial) ops s
  refine run_inv (I := fun u => u.toCore.Measured) ?_ halong hstart h
  intro op u r u' _ hu hstep
  exact step_measured hu hstep

end Measured

/-- Whenever the operation puts a `T_BIND_REQ` or `T_CONN_REQ` that comes to its answer,
the queue holds a message or the acknowledgement gets memory. -/
def Op.TailGranted (op : Op) (s : Sys) : Prop :=
  ∀ e c, op.request = some (e, c) →
    (getUser e s c.ctlBuf = some T_BIND_REQ ∧ bindAnswered e c s) ∨
      (getUser e s c.ctlBuf = some T_CONN_REQ ∧ connAnswered e c s) →
    HasTail e s.toCore

theorem step_keeps {op : Op} {s : Sys} (hs : QueueOk s.toCore)
    (hput : ∀ e c, op.request = some (e, c) → doPutmsg e c s ≠ .error .noTail) :
    Keeps (op.step s) := by
  cases op with
  | putmsg e c => exact doPutmsg_keeps hs (hput e c rfl)
  | getmsg e c =>
    obtain ⟨g, hg, hok, _⟩ := doGetmsg_ok e c hs
    simp only [Op.step, hg]
    exact .ok hok
  | updateSocket e fd =>
    exact .ok ((timodUpdateSocket_links fd fun _ => rfl).queueOk hs)
  | ioctl e c =>
    show Keeps (timodIoctl e c s)
    unfold timodIoctl
    split_ifs with hv h0 h1 h2 h3
    · refine Keeps.ok ?_
      rw [tiGetinfo_toCore]
      exact hs
    · exact tiRequest_keeps hs (hput _ _ (if_pos ⟨hv, .inl h1⟩)) fun b _ => tiOptmgmtGet_keeps b
    · exact tiRequest_keeps hs (hput _ _ (if_pos ⟨hv, .inr h2⟩)) fun b _ => tiBindGet_keeps b
    · refine Keeps.ok ?_
      unfold tiUnbind
      split
      · exact hs
      · exact hs.setState .unbnd
    all_goals exact .ok hs

theorem Op.TailGranted.put {op : Op} {s : Sys} (h : op.TailGranted s) (hs : QueueOk s.toCore)
    {c : PutArgs} (hreq : op.request = some (e, c)) :
    doPutmsg e c s ≠ .error .noTail := by
  intro herr
  obtain ⟨hcmd, hnot⟩ := doPutmsg_noTail hs herr
  exact hnot (h e c hreq hcmd)

theorem Sys.Fresh.queueOk {st : TState} {s : Sys} (hs : s.Fresh st) : QueueOk s.toCore := by
  have hpriv := hs.1
  refine Core.Holds.ok (l := []) ?_
  show Queue TPrimsg.next s.heap s.priv.pfirst s.priv.plast []
  rw [hpriv]
  exact Queue.empty

/-- In every run in which each append has a message to append to, no append
fails and every state reached has a well-formed queue. -/
theorem queue_intact {st : TState} {s : Sys} (hs : s.Fresh st) (ops : List Op)
    (hops : Along Op.step Op.TailGranted ops s) :
    run Op.step ops s ≠ .error .noTail ∧ ∀ t, run Op.step ops s = .ok t → QueueOk t.toCore := by
  have hstep : ∀ (op : Op) (u : Sys), op.TailGranted u → QueueOk u.toCore → Keeps (op.step u) := by
    intro op u hgrant hu
    exact step_keeps hu fun e c hreq => hgrant.put hu hreq
  constructor
  · refine run_ne_error (I := fun u => QueueOk u.toCore) ?_ ?_ hops hs.queueOk
    · intro op u r u' hgrant hu hok
      exact (hstep op u hgrant hu).1 r u' hok
    · intro op u hgrant hu
      exact (hstep op u hgrant hu).2
  · intro t ht
    refine run_inv (I := fun u => QueueOk u.toCore) ?_ hops hs.queueOk ht
    intro op u r u' hgrant hu hok
    exact (hstep op u hgrant hu).1 r u' hok

theorem bind_queue_intact :
    let s := endpoint .unbnd [T_BIND_REQ, 0, 0, 0]
    let op := Op.putmsg
      { plainEnv with ctlAlloc := some (freeBlock 1), ackAlloc := some (freeBlock 2) } (putAt 16)
    s.Fresh .unbnd ∧ Along Op.step Op.TailGranted [op] s ∧
      run Op.step [op] s ≠ .error .noTail ∧ ∀ t, run Op.step [op] s = .ok t → QueueOk t.toCore := by
  intro s op
  have halong : Along Op.step Op.TailGranted [op] s := by
    refine ⟨?_, fun _ _ _ => trivial⟩
    intro e c hreq _
    obtain ⟨rfl, rfl⟩ := Prod.mk.inj (some.inj hreq)
    refine .inr ⟨freeBlock 2, rfl, rfl, ?_⟩
    intro b hb
    obtain rfl := some.inj hb
    decide
  have hfresh : s.Fresh .unbnd := endpoint_fresh _ _
  exact ⟨hfresh, halong, queue_intact hfresh [op] halong⟩

/-- A bind request on a new endpoint, with memory for its `T_BIND_ACK` but none
for the `T_OK_ACK` before it: the append goes through a null `plast`. -/
theorem bind_without_ack_stops :
    (endpoint .unbnd [T_BIND_REQ, 0, 0, 0]).Fresh .unbnd ∧
      run Op.step [.putmsg { plainEnv with ctlAlloc := some (freeBlock 1) } (putAt 16)]
        (endpoint .unbnd [T_BIND_REQ, 0, 0, 0]) = .error .noTail :=
  ⟨endpoint_fresh _ _, rfl⟩

end AbiEmu.Xti
