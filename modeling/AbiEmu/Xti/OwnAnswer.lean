import AbiEmu.Lib.User
import AbiEmu.Xti.QueueInv
import AbiEmu.Xti.Scratch
import AbiEmu.Xti.States

/-!
# The ioctls and the answers they fetch

`TI_BIND` and `TI_OPTMGMT` put their request and then fetch messages from the
same queue everybody else uses, without looking at what they get. `AnswersOwn`
is what the caller expects when the result is 0: the buffer holds the request's
own acknowledgement, and the queue is as it was.

`T_OPTMGMT_ACK` is linked in front, so the one message fetched is the right one
if it was queued at all. Its removal resets the read position, which belongs to
the endpoint: a message the user has read half of starts again.

`T_BIND_ACK` is linked at the tail, behind `T_OK_ACK` in front. The two fetches
take the first two messages, which are these two on an empty queue only.
`answers_own_iff` is the exact condition for both.
-/

namespace AbiEmu.Xti

open List Function

/-! ## The promise -/

/-- The ioctls that put a request and fetch its answer. -/
inductive TiCall where
  | bind
  | optmgmt
  deriving DecidableEq, Repr

/-- The number of the ioctl. -/
def TiCall.number : TiCall → Int
  | .bind => 2
  | .optmgmt => 1

/-- The request the ioctl is for. -/
def TiCall.request : TiCall → Word
  | .bind => T_BIND_REQ
  | .optmgmt => T_OPTMGMT_REQ

/-- The acknowledgement of the request. -/
def TiCall.ack : TiCall → Word
  | .bind => T_BIND_ACK
  | .optmgmt => T_OPTMGMT_ACK

/-- The user's buffer holds the message `n`, as far as it fits. The word for the
length is the caller's to place; where it lies inside the buffer, it wins. -/
def Holding (c : IoctlArgs) (n : TPrimsg) (t : Sys) : Prop :=
  ∀ x : Word, ((x - c.arg).toNat : Int) < c.len → ((x - c.arg).toNat : Int) < n.length →
    4 ≤ (x - c.lenP).toNat → t.mem x = n.body (x - c.arg).toNat

/-- The ioctl answered its own request: the messages `l` that were queued before
are still there, in order and unread; only messages queued by the ioctl were
handed out; and the user has the acknowledgement. -/
structure AnswersOwn (q : TiCall) (c : IoctlArgs) (l : List Addr) (s t : Sys) : Prop where
  queue : t.Holds l
  unread : ∀ a ∈ l, t.heap a = s.heap a
  offset : t.priv.offset = s.priv.offset
  own : ∀ p ∈ t.delivered.drop s.delivered.length, s.queued.length ≤ p.serial
  ack : ∃ n ∈ t.queued.drop s.queued.length, n.type = q.ack ∧ Holding c n t

/-! ## The condition -/

/-- A bind request whose socket calls succeed and that gets memory for its
acknowledgement. -/
def bindTaken (e : Env) (c : PutArgs) (s : Sys) : Prop :=
  bindReached e s ∧ bindResult e c s = 0 ∧ (s.timodMkctl e.ctlAlloc c.ctlLen).isSome = true

/-- The rounds of the option loop of a `T_OPTMGMT_REQ`. -/
def optReqRounds (e : Env) (c : PutArgs) (s : Sys) : List Round :=
  optmgmtRounds e c.fd (s.mem.word (c.ctlBuf + 12))
    (if 0 < (s.mem.word (c.ctlBuf + 8)).toInt then c.ctlBuf + s.mem.word (c.ctlBuf + 8) else 0)
    (s.mem.word (c.ctlBuf + 4)) true s

/-- An option request all of whose options get through and that gets memory for its
acknowledgement, headers and answers. -/
def optTaken (e : Env) (c : PutArgs) (s : Sys) : Prop :=
  let flag := s.mem.word (c.ctlBuf + 12)
  let tsp := s.esp - retSpace (s.mem.word (c.ctlBuf + 4)) - 24
  (∀ r ∈ optReqRounds e c s, r.GoesOn e c.fd flag tsp) ∧
    (s.timodMkctl e.ctlAlloc
      (16 + (replyLen e c.fd flag tsp (optReqRounds e c s)).toInt)).isSome = true

/-- No partly read message is waiting, the request is taken, and a bind finds an
empty queue. -/
def TiCall.Undisturbed (q : TiCall) (e : Env) (c : PutArgs) (l : List Addr) (s : Sys) : Prop :=
  s.priv.offset = 0 ∧
  match q with
  | .bind => l = [] ∧ bindTaken e c s
  | .optmgmt => optTaken e c s

/-! ## The first message leaves the queue -/

section Remove

variable {k k' : Core} {a : Addr} {l : List Addr} {n : TPrimsg}

/-- The first message `n`, at `a`, was handed out and has left the queue to the
messages `l`. -/
structure Removes (a : Addr) (n : TPrimsg) (l : List Addr) (k k' : Core) : Prop where
  queue : k'.Holds l
  heap : k'.heap = Function.update k.heap a none
  offset : k'.priv.offset = 0
  queued : k'.queued = k.queued
  delivered : ∃ p : Chunk, k'.delivered = k.delivered ++ [p] ∧ p.serial = n.serial

section

variable (h : k.Holds (a :: l)) (hn : k.heap a = some n)

include h hn

/-- A piece is handed out and the message is unlinked. -/
theorem Core.Holds.removes (x y : Int) (hk : ((k.handOut a n x).advance y).dropHead = .ok k') :
    Removes a n l k k' := by
  have hout : ((k.handOut a n x).advance y).Holds (a :: l) := h.handOut hn x
  obtain ⟨k'', hk'', hqueue, hoffset, hqueued, hdelivered, hheap⟩ := hout.dropHead
  obtain rfl : k' = k'' := Except.ok.inj (hk.symm.trans hk'')
  refine ⟨hqueue, hheap.trans ?_, hoffset, hqueued, _, hdelivered, rfl⟩
  exact update_idem ..

/-- The last piece of the first message is handed out. -/
theorem Core.Holds.takes_whole {x : Int} (hx : n.length - x = 0) (hk : k.takeChunk a n x = .ok k') :
    Removes a n l k k' := by
  unfold Core.takeChunk at hk
  rw [if_neg (not_not.mpr hx)] at hk
  refine h.removes hn x 0 ?_
  -- moving the position by nothing changes nothing
  exact hk

/-- A piece of the first message is handed out and the rest discarded. -/
theorem Core.Holds.takes_cut {x : Int} {k1 : Core} (hx : n.length - x ≠ 0)
    (hk : k.takeChunk a n x = .ok k1) (hdrop : k1.dropHead = .ok k') : Removes a n l k k' := by
  unfold Core.takeChunk at hk
  rw [if_pos hx] at hk
  obtain rfl := Except.ok.inj hk
  exact h.removes hn x x hdrop

end

end Remove

/-! ## `do_getmsg` on a queued message -/

section Get

variable {e : Env} {c : GetArgs} {s : Sys} {a : Addr} {l : List Addr} {n : TPrimsg} {g : Got}

/-- Memory after a `put_user`, away from the word. -/
theorem putUser_apart (e : Env) {a x : Word} (v : Word) (s : Sys) (h : 4 ≤ (x - a).toNat) :
    (putUser e a v s).mem x = s.mem x := by
  unfold putUser
  split
  · exact Mem.store_apart _ a h
  · rfl

/-- A byte after a `put_user` is the old one or one of the word's. -/
theorem putUser_mem_or (e : Env) (a v : Word) (s : Sys) (x : Word) :
    (putUser e a v s).mem x = s.mem x ∨ (putUser e a v s).mem x ∈ v.bytes := by
  unfold putUser
  split
  · by_cases hx : v.bytes.length ≤ (x - a).toNat
    · exact .inl (Mem.store_apart _ a hx)
    · refine .inr ?_
      show v.bytes.getD (x - a).toNat (s.mem x) ∈ v.bytes
      rw [getD_eq_getElem?_getD, getElem?_eq_getElem (not_le.mp hx), Option.getD_some]
      exact getElem_mem _
  · exact .inl rfl

/-- What a successful delivery of the message `n` leaves: the piece taken from
the queue, and its bytes in the buffer. -/
structure Delivers (c : GetArgs) (a : Addr) (n : TPrimsg) (s : Sys) (g : Got) : Prop where
  ret : g.ret = if n.length - c.take n.length ≠ 0 then MORECTL else 0
  core : s.toCore.takeChunk a n (c.take n.length) = .ok g.sys.toCore
  bytes : ∀ x : Word, (x - c.ctlBuf).toNat < (c.take n.length).toNat →
    4 ≤ (x - c.ctlLen).toNat → (0 ≤ c.datMaxlen → 4 ≤ (x - c.datLen).toNat) →
    g.sys.mem x = n.body (s.priv.offset.toNat + (x - c.ctlBuf).toNat)
  /-- Where the length lies inside the buffer, its bytes may be there instead. -/
  mixed : c.datMaxlen < 0 → ∀ x : Word, (x - c.ctlBuf).toNat < (c.take n.length).toNat →
    g.sys.mem x = n.body (s.priv.offset.toNat + (x - c.ctlBuf).toNat) ∨
      g.sys.mem x ∈ Word.bytes (BitVec.ofInt 32 (c.take n.length))

theorem deliver_delivers (h : deliver e c a n s = .ok g) (hr : 0 ≤ g.ret) : Delivers c a n s g := by
  rcases deliver_eq e c a n s with ⟨-, hg⟩ | ⟨s1, -, hcopy, hg⟩
  · obtain rfl := Except.ok.inj (hg.symm.trans h)
    exact absurd hr (show ¬ (0 : Int) ≤ -EFAULT by decide)
  obtain ⟨k, hk, rfl⟩ := map_eq_ok (hg.symm.trans h)
  have hcopied : ∀ x : Word, (x - c.ctlBuf).toNat < (c.take n.length).toNat →
      s1.mem x = n.body (s.priv.offset.toNat + (x - c.ctlBuf).toNat) := by
    intro x hx
    rw [(copyToUser_some hcopy).2]
    show Mem.store .. = _
    rw [Mem.store, getD_eq_getElem?_getD, getElem?_map, getElem?_range hx,
      Option.map_some, Option.getD_some]
  refine ⟨rfl, hk, fun x hx hctl hdat => ?_, fun hdat x hx => ?_⟩
  · have hdata : ∀ t : Sys, (noData e c t).mem x = t.mem x := by
      intro t
      unfold noData
      split
      next hmax => exact putUser_apart e 0 t (hdat hmax)
      · rfl
    rw [hdata, putUser_apart e _ s1 hctl, hcopied x hx]
  · dsimp only
    rw [noData, if_neg (not_le.mpr hdat), ← hcopied x hx]
    exact putUser_mem_or ..

/-- With a message queued, a `do_getmsg` that asks for a control part and does
not fail delivers it. -/
theorem doGetmsg_delivers (hl : s.Holds (a :: l)) (hn : s.heap a = some n)
    (hmax : 0 ≤ c.ctlMaxlen) (h : doGetmsg e c s = .ok g) (hr : 0 ≤ g.ret) :
    Delivers c a n s g := by
  by_cases henter : getEnters e s
  · have hfirst := hl.first
    have hlook : lookForConnection e c s = s := by
      refine if_neg fun hnone => ?_
      rw [hfirst] at hnone
      exact nomatch hnone.2
    rw [doGetmsg_eq henter, hlook, getFrom, if_pos hmax, hfirst] at h
    dsimp only at h
    rw [hn] at h
    exact deliver_delivers h hr
  · obtain ⟨r, hneg, heq⟩ := doGetmsg_turned_down henter
    obtain rfl := Except.ok.inj (h.symm.trans heq)
    exact absurd hr (not_le.mpr hneg)

/-- A `do_getmsg` that asks for no part at all fails. -/
theorem doGetmsg_wants_nothing (hctl : c.ctlMaxlen < 0) (hdat : c.datMaxlen ≤ 0)
    (h : doGetmsg e c s = .ok g) : g.ret < 0 := by
  by_cases henter : getEnters e s
  · rw [doGetmsg_eq henter, getFrom, if_neg (not_le.mpr hctl), receive, if_pos hdat] at h
    obtain rfl := Except.ok.inj h
    show -EAGAIN < 0
    decide
  · obtain ⟨r, hneg, heq⟩ := doGetmsg_turned_down henter
    obtain rfl := Except.ok.inj (h.symm.trans heq)
    exact hneg

end Get

/-! ## What the requests queue -/

section Put

variable {k k' k1 : Core} {l : List Addr} {n : TPrimsg} {b : Block} {len : Int}
  {alloc ack : Option Block} {prim : Word}

/-- The block at `a` holds the message `n`, which was queued since `k`. -/
structure QueuedSince (k k' : Core) (a : Addr) (n : TPrimsg) : Prop where
  block : k'.heap a = some n
  mem : n ∈ k'.queued.drop k.queued.length
  serial : k.queued.length ≤ n.serial

theorem Adds.trans {types types' : List Word} (h : Adds k k1 types) (h' : Adds k1 k' types') :
    Adds k k' (types ++ types') := by
  obtain ⟨its, hits, htypes⟩ := h
  obtain ⟨its', hits', htypes'⟩ := h'
  refine ⟨its ++ its', by rw [hits', hits, append_assoc], ?_⟩
  intro it hit
  rcases mem_append.mp hit with hit | hit
  · exact mem_append_left _ (htypes it hit)
  · exact mem_append_right _ (htypes' it hit)

/-- A message in front of the queue. -/
theorem Core.Holds.queues_front (h : k.Holds l) (hb : k.timodMkctl alloc len = some (b, k1)) :
    (k1.pushFront b.addr n).Holds (b.addr :: l) ∧
      QueuedSince k (k1.pushFront b.addr n) b.addr (k1.entering n k1.priv.pfirst) ∧
      ∀ x ∈ l, (k1.pushFront b.addr n).heap x = k.heap x := by
  obtain ⟨h1, hmem⟩ := h.alloc hb
  obtain ⟨-, -, rfl⟩ := timodMkctl_spec hb
  refine ⟨h1.pushFront hmem, ⟨update_self .., ?_, le_refl _⟩, fun x hx => ?_⟩
  · show _ ∈ (k.queued ++ [_]).drop k.queued.length
    rw [drop_left]
    exact mem_singleton_self _
  · exact (update_agree hmem x hx).trans (update_agree hmem x hx)

/-- The message at `a` is the `T_OK_ACK` of a request made at `k`. -/
def IsOk (k k' : Core) (a : Addr) : Prop :=
  ∃ m, k'.heap a = some m ∧ k.queued.length ≤ m.serial ∧ m.type = T_OK_ACK ∧ m.length = 8

/-- `timod_ok`: at most one message in front. -/
structure Fronted (k : Core) (front l : List Addr) (k' : Core) : Prop where
  short : front.length ≤ 1
  queue : k'.Holds (front ++ l)
  own : ∀ a ∈ front, IsOk k k' a
  rest : ∀ a, k.heap a ≠ none → k'.heap a = k.heap a ∧ a ∉ front
  queued : k.queued <+: k'.queued
  delivered : k'.delivered = k.delivered
  offset : k'.priv.offset = k.priv.offset

theorem Core.Holds.fronted (h : k.Holds l) (ack : Option Block) (prim : Word) :
    ∃ front, Fronted k front l (k.timodOk ack prim) := by
  unfold Core.timodOk Core.queueWords
  split
  · exact ⟨[], Nat.zero_le 1, h, nofun, fun _ _ => ⟨rfl, not_mem_nil⟩, prefix_rfl, rfl, rfl⟩
  next b k1 hb =>
    obtain ⟨hqueue, hsince, -⟩ := h.queues_front hb
    obtain ⟨-, hfree, rfl⟩ := timodMkctl_spec hb
    refine ⟨[b.addr], le_refl 1, hqueue, ?_, ?_, prefix_append .., rfl, rfl⟩
    · intro a ha
      obtain rfl := mem_singleton.mp ha
      exact ⟨_, hsince.block, hsince.serial, type_overlay rfl, rfl⟩
    · intro a ha
      have hne : a ≠ b.addr := fun he => ha (he ▸ hfree)
      refine ⟨?_, fun hmem => hne (mem_singleton.mp hmem)⟩
      exact (update_of_ne hne ..).trans (update_of_ne hne ..)

/-- `timod_ok` in front, then the answer `n` at `a` behind the last message. -/
structure Answered (k : Core) (front l : List Addr) (a : Addr) (n : TPrimsg) (k' : Core) :
    Prop where
  short : front.length ≤ 1
  nonempty : front ++ l ≠ []
  fresh : a ∉ l
  queue : k'.Holds (front ++ l ++ [a])
  own : ∀ x ∈ front, IsOk k k' x
  since : QueuedSince k k' a n
  delivered : k'.delivered = k.delivered
  offset : k'.priv.offset = k.priv.offset

theorem Core.Holds.answered (h : k.Holds l) (hb : k.timodMkctl alloc len = some (b, k1))
    (hk : (k1.timodOk ack prim).appendTail b.addr n = .ok k') :
    ∃ front, Answered k front l b.addr ((k1.timodOk ack prim).entering n none) k' := by
  obtain ⟨h1, hfresh⟩ := h.alloc hb
  obtain ⟨front, hfront⟩ := h1.fronted ack prim
  obtain ⟨-, -, rfl⟩ := timodMkctl_spec hb
  obtain ⟨last, nl, hlast, hnl, rfl⟩ := appendTail_spec hk
  have hb1 : (update k.heap b.addr (some b.junk)) b.addr ≠ none := by
    rw [update_self]
    exact Option.some_ne_none _
  have hmem : b.addr ∉ front ++ l := by
    intro hin
    rcases mem_append.mp hin with hin | hin
    · exact (hfront.rest _ hb1).2 hin
    · exact hfresh hin
  have hin : last ∈ front ++ l := mem_of_getLast? (hfront.queue.last_eq ▸ hlast)
  obtain ⟨hnew, hold, -⟩ := hfront.queue.linked hmem hk
  have hlen : k.queued.length ≤ _ := hfront.queued.length_le
  refine ⟨front, hfront.short, ne_nil_of_mem hin, hfresh,
    hfront.queue.appendTail hmem hk, ?_, ⟨hnew, ?_, hlen⟩, hfront.delivered, hfront.offset⟩
  · intro x hx
    obtain ⟨m, hm, hown⟩ := hfront.own x hx
    -- the last message gets its link, and keeps the rest
    obtain ⟨m, next, hm₀, hm₁⟩ := hold x (mem_append_left _ hx)
    obtain rfl := Option.some.inj (hm₀.symm.trans hm)
    exact ⟨_, hm₁, hown⟩
  · show _ ∈ (_ ++ [_]).drop k.queued.length
    rw [drop_append_of_le_length hlen]
    exact mem_append_right _ (mem_singleton_self _)

end Put

section Request

variable {e : Env} {c : PutArgs} {s t : Sys} {l : List Addr}

/-- The reply of a bind request that returned 0. -/
theorem bindReply_acks {error : Int} (hl : s.Holds l) (h : bindReply e c error s = .ok (0, t)) :
    (error = 0 ∧ (s.timodMkctl e.ctlAlloc c.ctlLen).isSome = true ∧
      ∃ front a n, Answered s.toCore front l a n t.toCore ∧ n.type = T_BIND_ACK) ∨
    (¬ (error = 0 ∧ (s.timodMkctl e.ctlAlloc c.ctlLen).isSome = true) ∧
      Adds s.toCore t.toCore [T_ERROR_ACK]) := by
  unfold bindReply at h
  split at h
  next herr =>
    exact of_ok h (.inr ⟨fun hboth => herr hboth.1, queueWords_adds ..⟩)
  split at h
  next hnone =>
    obtain ⟨-, rfl⟩ := ok_inj h
    refine .inr ⟨fun hboth => ?_, queueWords_adds ..⟩
    rw [hnone] at hboth
    exact nomatch hboth.2
  next hzero _ b k hb =>
    split at h
    · exact absurd (ok_inj h).1 (by decide)
    next req hcopy =>
      obtain ⟨-, happend⟩ := answer_ok h
      obtain ⟨front, hans⟩ := hl.answered hb happend
      exact .inl ⟨not_not.mp hzero, by rw [hb]; rfl, front, _, _, hans, type_overlay rfl⟩

/-- A bind request that returned 0. -/
theorem bindReq_acks (hl : s.Holds l) (h : bindReq e c s = .ok (0, t)) :
    (bindTaken e c s ∧ ∃ front a n, Answered s.toCore front l a n t.toCore ∧ n.type = T_BIND_ACK) ∨
    (¬ bindTaken e c s ∧ Adds s.toCore t.toCore [T_ERROR_ACK]) := by
  rcases bindReq_cases e c s with ⟨r, u, heq, hdown, hnot⟩ | ⟨⟨-, hreached, -⟩, u, heq, hcore⟩
  · obtain ⟨rfl, rfl⟩ := ok_inj (h.symm.trans heq)
    exact .inr ⟨fun htaken => hnot rfl htaken.1, hdown.adds⟩
  · have hu : u.Holds l := by
      rw [hcore]
      exact hl
    have hgrant : (u.timodMkctl e.ctlAlloc c.ctlLen).isSome =
        (s.timodMkctl e.ctlAlloc c.ctlLen).isSome :=
      timodMkctl_isSome_congr (by rw [hcore]; rfl) ..
    rcases bindReply_acks hu (heq.symm.trans h) with ⟨hzero, hsome, front, a, n, hans, hn⟩ | hno
    · refine .inl ⟨⟨hreached, hzero, hgrant ▸ hsome⟩, front, a, n, ?_, hn⟩
      -- the state is not part of what `Answered` looks at
      rw [hcore] at hans
      exact ⟨hans.short, hans.nonempty, hans.fresh, hans.queue, hans.own,
        ⟨hans.since.block, hans.since.mem, hans.since.serial⟩, hans.delivered, hans.offset⟩
    · rw [hgrant] at hno
      refine .inr ⟨fun htaken => hno.1 htaken.2, ?_⟩
      have hadds := hno.2
      rw [hcore] at hadds
      exact hadds

/-- An option list that is answered and returns 0 has been gone through. -/
theorem timodOptmgmt_run {fd flag optBuf optLen : Word}
    (h : timodOptmgmt e fd flag optBuf optLen true s = .ok (0, t)) :
    ∃ failed error retLen s1, s1.toCore = s.toCore ∧
      (OptEnd.done failed error retLen s1).Accounts e fd flag (s.esp - retSpace optLen - 24)
        (optmgmtRounds e fd flag optBuf optLen true s) 0 ∧
      optReply e flag (s.esp - retSpace optLen) s.esp true failed error retLen s1 = (0, t) := by
  unfold timodOptmgmt at h
  dsimp only at h
  split_ifs at h with hv hret htsp
  · exact absurd (ok_inj h).1 (by decide)
  · exact absurd rfl hret.1
  · split at h
    · cases h
    · exact absurd (ok_inj h).1 (by decide)
    next failed error retLen s1 hloop =>
      exact ⟨failed, error, retLen, s1, optLoop_toCore hloop,
        optRun_accounts ⟨hv, hret, htsp⟩ hloop, Except.ok.inj h⟩
  · exact absurd (ok_inj h).1 (by decide)

theorem optmgmtReq_run (h : optmgmtReq e c s = .ok (0, t)) :
    ∃ failed error retLen s1, s1.toCore = s.toCore ∧
      (OptEnd.done failed error retLen s1).Accounts e c.fd (s.mem.word (c.ctlBuf + 12))
        (s.esp - retSpace (s.mem.word (c.ctlBuf + 4)) - 24) (optReqRounds e c s) 0 ∧
      optReply e (s.mem.word (c.ctlBuf + 12)) (s.esp - retSpace (s.mem.word (c.ctlBuf + 4)))
        s.esp true failed error retLen s1 = (0, t) := by
  unfold optmgmtReq at h
  split at h
  · exact absurd (ok_inj h).1 (by decide)
  split at h
  · exact absurd (ok_inj h).1 (by decide)
  · exact timodOptmgmt_run h

/-- An option request that returned 0. -/
theorem optmgmtReq_acks (hl : s.Holds l) (h : optmgmtReq e c s = .ok (0, t)) :
    (optTaken e c s ∧ ∃ a n, t.Holds (a :: l) ∧ QueuedSince s.toCore t.toCore a n ∧
      (∀ x ∈ l, t.heap x = s.heap x) ∧ t.delivered = s.delivered ∧
      t.priv.offset = s.priv.offset ∧ n.type = T_OPTMGMT_ACK) ∨
    (¬ optTaken e c s ∧ Adds s.toCore t.toCore [T_ERROR_ACK]) := by
  obtain ⟨failed, error, retLen, s1, hcore, ⟨-, hall, hlen⟩, hreply⟩ := optmgmtReq_run h
  rw [show 0 + replyLen .. = _ from BitVec.zero_add _] at hlen
  unfold optTaken
  dsimp only
  rw [← hall]
  unfold optReply at hreply
  rw [if_neg (not_not.mpr rfl)] at hreply
  split at hreply
  next hfailed =>
    obtain ⟨-, rfl⟩ := Prod.mk.inj hreply
    refine .inr ⟨fun htaken => hfailed htaken.1, ?_⟩
    rw [← hcore]
    exact queueWords_adds ..
  next hfailed =>
    rw [← hlen (not_not.mp hfailed)]
    unfold optAck at hreply
    rw [hcore] at hreply
    split at hreply
    next hnone =>
      obtain ⟨-, rfl⟩ := Prod.mk.inj hreply
      rw [hnone]
      exact .inr ⟨fun htaken => (nomatch htaken.2), Adds.refl ..⟩
    next b k hb =>
      split at hreply
      · exact absurd (Prod.mk.inj hreply).1 (by decide)
      next reply hcopy =>
        obtain ⟨-, rfl⟩ := Prod.mk.inj hreply
        obtain ⟨hqueue, hsince, hrest⟩ := hl.queues_front hb
        obtain ⟨-, -, hk⟩ := timodMkctl_spec hb
        refine .inl ⟨⟨not_not.mp hfailed, by rw [hb]; rfl⟩, b.addr, _, hqueue, hsince, hrest,
          ?_, ?_, ?_⟩
        · show k.delivered = _
          rw [hk]
        · show k.priv.offset = _
          rw [hk]
        · exact type_overlay rfl

end Request

/-! ## What the ioctls fetch -/

variable {g : Got} {a : Addr} {n : TPrimsg}

section Fetch

variable {e : IoctlEnv} {c : IoctlArgs} {s t : Sys} {l : List Addr}

/-- Looking for a connection queues at most its announcement. -/
theorem lookForConnection_adds (e : Env) (c : GetArgs) (s : Sys) :
    Adds s.toCore (lookForConnection e c s).toCore [T_CONN_IND] := by
  unfold lookForConnection
  split
  · have hupdates := timodUpdateSocket_updates e c.fd s
    generalize (timodUpdateSocket e c.fd s).1 = r, (timodUpdateSocket e c.fd s).2 = u at hupdates ⊢
    cases hupdates with
    | quiet | refused | dropped => exact Adds.refl ..
    | fault _ _ hb =>
      refine ⟨[], ?_, nofun⟩
      rw [append_nil]
      exact timodMkctl_queued hb
    | @announced b k addr _ _ hb =>
      refine ⟨[k.entering (connInd b (peerLength e c.fd s) (e.socket .accept).result addr)
        k.priv.pfirst], ?_, fun it hit => ?_⟩
      · show k.queued ++ _ = _
        rw [timodMkctl_queued hb]
      · obtain rfl := mem_singleton.mp hit
        have htype : (connInd b (peerLength e c.fd s) (e.socket .accept).result addr).type =
          T_CONN_IND := type_overlay rfl
        exact mem_singleton.mpr htype
  · exact Adds.refl ..

theorem doGetmsg_adds {e : Env} {c : GetArgs} (h : doGetmsg e c s = .ok g) :
    Adds s.toCore g.sys.toCore [T_CONN_IND] := by
  by_cases henter : getEnters e s
  · rw [doGetmsg_eq henter] at h
    obtain ⟨its, hits, htypes⟩ := lookForConnection_adds e c s
    exact ⟨its, (getFrom_gets h).queued.trans hits, htypes⟩
  · obtain ⟨r, -, heq⟩ := doGetmsg_turned_down henter
    obtain rfl := Except.ok.inj (h.symm.trans heq)
    exact Adds.refl ..

/-- An error is never returned as 0. -/
theorem sysErr_ne_zero (error : Int) : sysErr error ≠ 0 := by
  intro h
  have hzero : (BitVec.ofInt 32 (-error)) <<< 8 ||| BitVec.ofInt 32 TSYSERR = 0 :=
    BitVec.toInt_inj.mp h
  -- bit 3 comes from `TSYSERR`
  have hbit := congrArg (fun w : BitVec 32 => w.getLsbD 3) hzero
  simp [TSYSERR] at hbit

section

variable {e : Env} (hl : s.Holds (a :: l)) (hn : s.heap a = some n)
  (h : doGetmsg e c.getArgs s = .ok g)

include hl hn h

/-- The message fetched by an ioctl. -/
theorem get_delivers (hr : 0 ≤ g.ret) : Delivers c.getArgs a n s g := by
  refine doGetmsg_delivers hl hn ?_ h hr
  by_contra hneg
  exact absurd (doGetmsg_wants_nothing (not_le.mp hneg) (show (-1 : Int) ≤ 0 by decide) h)
    (not_lt.mpr hr)

/-- A message fetched whole has left the queue. -/
theorem get_removes (hr : g.ret = 0) :
    Removes a n l s.toCore g.sys.toCore ∧ c.getArgs.take n.length = n.length := by
  obtain ⟨hret, hcore, -, -⟩ := get_delivers hl hn h (ge_of_eq hr)
  have hwhole : n.length - c.getArgs.take n.length = 0 := by
    by_contra hrest
    rw [if_pos hrest, hr] at hret
    exact nomatch hret
  exact ⟨hl.takes_whole hn hwhole hcore, by omega⟩

end

/-- The two fetches of a `TI_BIND` that returned 0. With an error in the buffer
there is no second one. -/
theorem tiBindGet_zero (h : tiBindGet e c .same s = .ok (0, t)) :
    ∃ g, doGetmsg e.get c.getArgs s = .ok g ∧ g.ret = 0 ∧
      ((getUserD e.own g.sys c.arg = T_ERROR_ACK ∧ t = g.sys) ∨
        ∃ g', doGetmsg e.get' c.getArgs g.sys = .ok g' ∧ g'.ret = 0 ∧ t = g'.sys) := by
  unfold tiBindGet ioctlGetmsg at h
  dsimp only at h
  split at h
  · exact nomatch h
  next g hg =>
    split_ifs at h with hret hprim
    · exact absurd (ok_inj h).1 (sysErr_ne_zero _)
    · exact ⟨g, hg, not_not.mp hret, .inl ⟨hprim, (ok_inj h).2.symm⟩⟩
    · exact absurd (ok_inj h).1 (by decide)
    · split at h
      · exact nomatch h
      next g' hg' =>
        obtain ⟨hzero, rfl⟩ := ok_inj h
        refine ⟨g, hg, not_not.mp hret, .inr ⟨g', hg', ?_, rfl⟩⟩
        by_contra hret'
        rw [if_pos hret'] at hzero
        exact sysErr_ne_zero _ hzero

/-- The fetch of a `TI_OPTMGMT` that returned 0. -/
theorem tiOptmgmtGet_zero (h : tiOptmgmtGet e c .same s = .ok (0, t)) :
    ∃ g, doGetmsg e.get c.getArgs s = .ok g ∧ 0 ≤ g.ret ∧ t.mem = g.sys.mem ∧
      ((g.ret = 0 ∧ t.toCore = g.sys.toCore) ∨ (0 < g.ret ∧ g.sys.dropHead = .ok t.toCore)) := by
  have hresult : ∀ {ret : Int} {u : Sys}, optmgmtResult e.own c ret u = 0 → 0 ≤ ret := by
    intro ret u hzero
    by_contra hneg
    rw [optmgmtResult, if_pos (not_le.mp hneg)] at hzero
    exact sysErr_ne_zero _ hzero
  unfold tiOptmgmtGet ioctlGetmsg at h
  split at h
  · exact nomatch h
  next g hg =>
    split at h
    next hpos =>
      split at h
      · exact nomatch h
      next k hk =>
        obtain ⟨-, rfl⟩ := ok_inj h
        exact ⟨g, hg, hpos.le, rfl, .inr ⟨hpos, hk⟩⟩
    next hpos =>
      obtain ⟨hzero, rfl⟩ := ok_inj h
      have hret := hresult hzero
      exact ⟨g, hg, hret, rfl, .inl ⟨le_antisymm (not_lt.mp hpos) hret, rfl⟩⟩

theorem tiBindGet_adds (h : tiBindGet e c .same s = .ok (0, t)) :
    Adds s.toCore t.toCore ([T_CONN_IND] ++ [T_CONN_IND]) := by
  obtain ⟨g, hg, -, ⟨-, rfl⟩ | ⟨g', hg', -, rfl⟩⟩ := tiBindGet_zero h
  · exact (doGetmsg_adds hg).trans (Adds.refl ..)
  · exact (doGetmsg_adds hg).trans (doGetmsg_adds hg')

theorem tiOptmgmtGet_adds (h : tiOptmgmtGet e c .same s = .ok (0, t)) :
    Adds s.toCore t.toCore [T_CONN_IND] := by
  obtain ⟨g, hg, -, -, ⟨-, hcore⟩ | ⟨-, hdrop⟩⟩ := tiOptmgmtGet_zero h
  · rw [hcore]
    exact doGetmsg_adds hg
  · obtain ⟨its, hits, htypes⟩ := doGetmsg_adds hg
    exact ⟨its, (dropHead_queued hdrop).trans hits, htypes⟩

/-- The `T_OK_ACK` in the buffer is not taken for an error, wherever the length
is stored. -/
theorem ok_not_error {m : TPrimsg} (hd : Delivers c.getArgs a m s g)
    (hoff : s.priv.offset = 0) (htype : m.type = T_OK_ACK) (htake : c.getArgs.take m.length = 8) :
    getUserD e.own g.sys c.arg ≠ T_ERROR_ACK := by
  intro hprim
  unfold getUserD getUser at hprim
  split at hprim
  · have hbytes := congrArg Word.bytes (show g.sys.mem.word c.arg = T_ERROR_ACK from hprim)
    rw [Mem.word, Word.bytes_append] at hbytes
    have herr : g.sys.mem c.arg = 18 := (cons.inj hbytes).1
    have hok := congrArg Word.bytes htype
    rw [TPrimsg.type, Word.bytes_append] at hok
    have hbody : m.body 0 = 19 := (cons.inj hok).1
    have hzero : (c.arg - c.arg).toNat = 0 := by rw [BitVec.sub_self]; rfl
    have hmixed := hd.mixed (show (-1 : Int) < 0 by decide) c.arg
    rw [htake, hoff, show c.getArgs.ctlBuf = c.arg from rfl, hzero] at hmixed
    rcases hmixed (by decide) with hmem | hmem
    all_goals rw [herr] at hmem
    · exact absurd (hmem.trans hbody) (by decide)
    · exact absurd hmem (by decide)
  · exact absurd hprim (by decide)

end Fetch

/-! ## The ioctls -/

section Ioctl

variable {e : IoctlEnv} {c : IoctlArgs} {s s1 t : Sys} {l : List Addr}

/-- A message fetched from its beginning is in the buffer. -/
theorem Delivers.holding (hd : Delivers c.getArgs a n s g)
    (hoff : s.priv.offset = 0) (hmem : t.mem = g.sys.mem) : Holding c n t := by
  intro x hlen hn hword
  have htake : (x - c.arg).toNat < (c.getArgs.take n.length).toNat := by
    unfold GetArgs.take
    split
    · exact (Int.lt_toNat).mpr hlen
    · exact (Int.lt_toNat).mpr hn
  have hbytes := hd.bytes x htake hword fun hdat => absurd hdat (show ¬ (0 : Int) ≤ -1 by decide)
  rw [hoff] at hbytes
  rw [hmem, hbytes]
  exact congrArg n.body (Nat.zero_add _)

variable {front : List Addr}

/-- The two fetches take the first two messages. If the queue is then what it was
before the request, these were the request's own. -/
theorem Answered.queue_empty (hans : Answered s.toCore front l a n s1.toCore)
    (h : tiBindGet e c .same s1 = .ok (0, t)) (ht : t.Holds l) : l = [] ∧ t.priv.offset = 0 := by
  obtain ⟨g, hg, hret, hrest⟩ := tiBindGet_zero h
  obtain ⟨x, rest, hx⟩ := exists_cons_of_ne_nil hans.nonempty
  have hqueue : s1.Holds (x :: (rest ++ [a])) := by
    rw [← cons_append, ← hx]
    exact hans.queue
  obtain ⟨m, hm⟩ := hqueue.chain.live (mem_cons_self ..)
  obtain ⟨hfirst, -⟩ := get_removes hqueue hm hg hret
  -- the acknowledgement is new, so it cannot be what was there before
  have hlast : ∀ r : List Addr, l ≠ r ++ [a] := by
    intro r hr
    refine hans.fresh ?_
    rw [hr]
    exact mem_append_right _ (mem_singleton_self a)
  rcases hrest with ⟨-, rfl⟩ | ⟨g', hg', hret', rfl⟩
  · exact absurd (ht.chain.unique hfirst.queue.chain) (hlast rest)
  · cases rest with
    | nil =>
      obtain ⟨m', hm'⟩ := hfirst.queue.chain.live (mem_singleton_self a)
      obtain ⟨hsecond, -⟩ := get_removes hfirst.queue hm' hg' hret'
      exact ⟨ht.chain.unique hsecond.queue.chain, hsecond.offset⟩
    | cons y rest =>
      obtain ⟨m', hm'⟩ := hfirst.queue.chain.live (mem_cons_self ..)
      obtain ⟨hsecond, -⟩ := get_removes hfirst.queue hm' hg' hret'
      exact absurd (ht.chain.unique hsecond.queue.chain) (hlast rest)

/-- On an empty queue the two messages fetched are `T_OK_ACK` and the
acknowledgement. -/
theorem Answered.fetched (hans : Answered s.toCore front [] a n s1.toCore)
    (htype : n.type = T_BIND_ACK) (hoff : s.priv.offset = 0)
    (h : tiBindGet e c .same s1 = .ok (0, t)) :
    AnswersOwn .bind c [] s t := by
  obtain ⟨g, hg, hret, hrest⟩ := tiBindGet_zero h
  obtain ⟨x, rfl⟩ : ∃ x, front = [x] := by
    have hne := hans.nonempty
    rw [append_nil] at hne
    exact length_eq_one_iff.mp (le_antisymm hans.short (length_pos_iff.mpr hne))
  obtain ⟨m, hm, hserial, hok, hlen⟩ := hans.own x (mem_singleton_self x)
  obtain ⟨hfirst, htake⟩ := get_removes hans.queue hm hg hret
  have hoff1 : s1.priv.offset = 0 := hans.offset.trans hoff
  rcases hrest with ⟨hprim, -⟩ | ⟨g', hg', hret', rfl⟩
  · have hd := get_delivers hans.queue hm hg (ge_of_eq hret)
    exact absurd hprim (ok_not_error hd hoff1 hok (htake.trans hlen))
  · have hne : a ≠ x := by
      have hnodup : [x, a].Nodup := hans.queue.chain.nodup
      intro he
      exact (nodup_cons.mp hnodup).1 (he ▸ mem_singleton_self a)
    have hblock : g.sys.heap a = some n := by
      rw [hfirst.heap, update_of_ne hne]
      exact hans.since.block
    obtain ⟨hsecond, -⟩ := get_removes hfirst.queue hblock hg' hret'
    have hd := get_delivers hfirst.queue hblock hg' (ge_of_eq hret')
    obtain ⟨p, hp, hps⟩ := hfirst.delivered
    obtain ⟨p', hp', hps'⟩ := hsecond.delivered
    refine ⟨hsecond.queue, nofun,
      hsecond.offset.trans hoff.symm, ?_, n, ?_, htype, hd.holding hfirst.offset rfl⟩
    · rw [hp', hp, hans.delivered, append_assoc, drop_left]
      intro q hq
      rcases mem_cons.mp hq with rfl | hq
      · exact hps ▸ hserial
      · obtain rfl := mem_singleton.mp hq
        exact hps' ▸ hans.since.serial
    · rw [hsecond.queued, hfirst.queued]
      exact hans.since.mem

theorem bind_own_iff (hl : s.Holds l) (hput : bindReq e.put c.putArgs s = .ok (0, s1))
    (h : tiBindGet e c .same s1 = .ok (0, t)) :
    AnswersOwn .bind c l s t ↔ TiCall.bind.Undisturbed e.put c.putArgs l s := by
  rcases bindReq_acks hl hput with ⟨htaken, front, a, n, hans, htype⟩ | ⟨hnot, hadds⟩
  · constructor
    · intro hown
      obtain ⟨hnil, hzero⟩ := hans.queue_empty h hown.queue
      exact ⟨hown.offset.symm.trans hzero, hnil, htaken⟩
    · intro hcond
      obtain ⟨hoff, rfl, -⟩ := hcond
      exact hans.fetched htype hoff h
  · constructor
    · intro hown
      obtain ⟨n, hn, htype, -⟩ := hown.ack
      exact absurd ((hadds.trans (tiBindGet_adds h)).mem ⟨n, hn, htype⟩) (by decide)
    · intro hcond
      exact absurd hcond.2.2 hnot

theorem optmgmt_own_iff (hl : s.Holds l) (hput : optmgmtReq e.put c.putArgs s = .ok (0, s1))
    (h : tiOptmgmtGet e c .same s1 = .ok (0, t)) :
    AnswersOwn .optmgmt c l s t ↔ TiCall.optmgmt.Undisturbed e.put c.putArgs l s := by
  rcases optmgmtReq_acks hl hput with
    ⟨htaken, a, n, hqueue, hsince, hrest, hdelivered, hoffset, htype⟩ | ⟨hnot, hadds⟩
  · obtain ⟨g, hg, hret, hmem, hcase⟩ := tiOptmgmtGet_zero h
    have hd := get_delivers hqueue hsince.block hg hret
    -- whole or cut off, the acknowledgement leaves the queue
    have hremoves : Removes a n l s1.toCore t.toCore := by
      rcases hcase with ⟨hzero, hcore⟩ | ⟨hpos, hdrop⟩
      · rw [hcore]
        exact (get_removes hqueue hsince.block hg hzero).1
      · refine hqueue.takes_cut hsince.block ?_ hd.core hdrop
        intro hwhole
        rw [hd.ret, if_neg (not_not.mpr hwhole)] at hpos
        exact lt_irrefl 0 hpos
    have hfresh : a ∉ l := (nodup_cons.mp hqueue.chain.nodup).1
    constructor
    · intro hown
      exact ⟨hown.offset.symm.trans hremoves.offset, htaken⟩
    · intro hcond
      obtain ⟨p, hp, hps⟩ := hremoves.delivered
      refine ⟨hremoves.queue, fun x hx => ?_, hremoves.offset.trans hcond.1.symm, ?_, n, ?_, htype,
        hd.holding (hoffset.trans hcond.1) hmem⟩
      · rw [hremoves.heap, update_agree hfresh x hx]
        exact hrest x hx
      · rw [hp, hdelivered, drop_left]
        intro q hq
        obtain rfl := mem_singleton.mp hq
        exact hps ▸ hsince.serial
      · rw [hremoves.queued]
        exact hsince.mem
  · constructor
    · intro hown
      obtain ⟨n, hn, htype, -⟩ := hown.ack
      exact absurd ((hadds.trans (tiOptmgmtGet_adds h)).mem ⟨n, hn, htype⟩) (by decide)
    · intro hcond
      exact absurd hcond.2 hnot

/-- An ioctl that returned 0 has put its request and fetched its answer. -/
theorem tiRequest_zero {rest : Behind → Sys → Res (Int × Sys)}
    (h : tiRequest e c rest s = .ok (0, t)) :
    ∃ s1, doPutmsg e.put c.putArgs s = .ok (0, s1) ∧
      rest (behind e.put c.putArgs s) s1 = .ok (0, t) := by
  unfold tiRequest at h
  split at h
  · exact nomatch h
  next error s1 hput =>
    split at h
    · exact absurd (ok_inj h).1 (sysErr_ne_zero _)
    next hzero =>
      obtain rfl := not_not.mp hzero
      exact ⟨s1, hput, h⟩

/-- Neither request changes what is behind the descriptor. -/
theorem behind_same (q : TiCall) {e : Env} {c : PutArgs}
    (hreq : getUser e s c.ctlBuf = some q.request) : behind e c s = .same := by
  unfold behind
  rw [hreq]
  cases q with
  | bind | optmgmt => rfl

/-- A `TI_BIND` or `TI_OPTMGMT` that returned 0, on an endpoint whose queue holds
the messages `l`, answered its own request exactly if it was undisturbed. -/
theorem answers_own_iff (q : TiCall) (hl : s.Holds l) (hnum : ioctlNumber c.func = q.number)
    (hreq : getUser e.put s c.arg = some q.request) (h : timodIoctl e c s = .ok (0, t)) :
    AnswersOwn q c l s t ↔ q.Undisturbed e.put c.putArgs l s := by
  have hbehind := behind_same q (c := c.putArgs) hreq
  unfold timodIoctl at h
  rw [hnum] at h
  split at h
  · exact absurd (ok_inj h).1 (sysErr_ne_zero _)
  · cases q with
    | bind =>
      obtain ⟨s1, hput, hget⟩ := tiRequest_zero (show tiBind e c s = _ from h)
      rw [hbehind] at hget
      rw [doPutmsg, show getUser e.put s c.putArgs.ctlBuf = _ from hreq] at hput
      exact bind_own_iff hl hput hget
    | optmgmt =>
      obtain ⟨s1, hput, hget⟩ := tiRequest_zero (show tiOptmgmt e c s = _ from h)
      rw [hbehind] at hget
      rw [doPutmsg, show getUser e.put s c.putArgs.ctlBuf = _ from hreq] at hput
      exact optmgmt_own_iff hl hput hget

end Ioctl

/-- Both messages of a bind request get memory. -/
def grantingEnv : IoctlEnv where
  own := plainEnv
  put := { plainEnv with ctlAlloc := some (freeBlock 2), ackAlloc := some (freeBlock 3) }
  get := plainEnv
  get' := plainEnv
  other := ⟨0, id⟩
  other' := ⟨0, id⟩

/-- `TI_BIND` of the 16 bytes at `arg`. -/
def tiBindAt (arg : Word) : IoctlArgs := ⟨3, 142, arg, 16, 0x3000⟩

/-- On a new endpoint nothing disturbs a bind. -/
theorem bind_answers_own :
    ∃ t, timodIoctl grantingEnv (tiBindAt 0x1000) (endpoint .unbnd [T_BIND_REQ, 0, 0, 0]) =
        .ok (0, t) ∧
      AnswersOwn .bind (tiBindAt 0x1000) [] (endpoint .unbnd [T_BIND_REQ, 0, 0, 0]) t := by
  obtain ⟨t, ht⟩ : ∃ t, timodIoctl grantingEnv (tiBindAt 0x1000)
      (endpoint .unbnd [T_BIND_REQ, 0, 0, 0]) = .ok (0, t) := ⟨_, rfl⟩
  refine ⟨t, ht, (answers_own_iff .bind Queue.empty rfl rfl ht).mpr ?_⟩
  exact ⟨rfl, rfl, ⟨rfl, rfl⟩, rfl, rfl⟩

/-- The user has not fetched the acknowledgement of an earlier unbind request
when `TI_BIND` is called. The ioctl returns 0 with that message in the buffer;
its own `T_BIND_ACK` stays in the queue. -/
theorem bind_fetches_older_ack :
    ∃ s t, run Op.step [.putmsg { plainEnv with ackAlloc := some (freeBlock 1) } (putAt 4)]
        (endpoint .unbnd [T_UNBIND_REQ, 0, 0, 0, T_BIND_REQ, 0, 0, 0]) = .ok s ∧
      s.Holds [1] ∧ getUser plainEnv s 0x1010 = some T_BIND_REQ ∧
      timodIoctl grantingEnv (tiBindAt 0x1010) s = .ok (0, t) ∧ t.priv.pfirst = some 2 ∧
      ¬ AnswersOwn .bind (tiBindAt 0x1010) [1] s t := by
  refine ⟨_, _, rfl, ⟨.cons rfl .nil, rfl⟩, rfl, rfl, rfl, ?_⟩
  intro hown
  exact nomatch hown.queue.first

end AbiEmu.Xti
