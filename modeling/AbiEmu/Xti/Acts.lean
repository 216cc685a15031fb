import AbiEmu.Xti.Ioctl
import Mathlib.Logic.Relation

/-!
# What an operation does to an endpoint

An operation of an endpoint works on user memory, the stack pointer, the file
flags and the socket, and now and then does one of a few things to the kernel
side. `Link` lists those that concern the queue: a block is allocated (and lost,
when a later copy faults), a message is linked in front, or a request is
answered with `timod_ok` and a second message at the tail. A request sets the
endpoint's state and then does some of these (`Requests`); `do_getmsg` hands out
a piece of the first message (`Gets`). `Make` is `Link` with the priorities a
request gives its messages.

The inversion theorems `doPutmsg_makes`, `timodUpdateSocket_links` and
`doGetmsg_cases` say that nothing else happens. The index `front` of `Link` tells
whether a message may be linked in front: `asksFront` computes it from a
request's arguments and the answers it gets.
-/

namespace AbiEmu.Xti

open Except

/-- The states an endpoint is set to. -/
def TState.Used (st : TState) : Prop :=
  st = .unbnd ∨ st = .idle ∨ st = .wresCind ∨ st = .dataXfer

/-- What can happen to the queue, apart from `do_getmsg`. -/
inductive Link (front : Bool) : Core → Core → Prop
  | alloc {k k' : Core} {alloc : Option Block} {len : Int} {b : Block}
      (hb : k.timodMkctl alloc len = some (b, k')) : Link front k k'
  | push {k k' : Core} {alloc : Option Block} {len : Int} {b : Block}
      (hf : front = true) (hb : k.timodMkctl alloc len = some (b, k')) {n : TPrimsg}
      (hn : 0 ≤ n.length) : Link front k (k'.pushFront b.addr n)
  | answer {k k' k'' : Core} {alloc ack : Option Block} {len : Int} {b : Block} {prim : Word}
      (hf : ack.isSome → front = true) (hb : k.timodMkctl alloc len = some (b, k'))
      {n : TPrimsg} (hn : 0 ≤ n.length)
      (ha : (k'.timodOk ack prim).appendTail b.addr n = .ok k'') : Link front k k''

/-- Several such acts. -/
abbrev Links (front : Bool) := Relation.ReflTransGen (Link front)

/-- A request: the endpoint gets its new state, then messages are linked. -/
def Requests (front : Bool) (k k' : Core) : Prop :=
  ∃ st, (st = k.priv.state ∨ st.Used) ∧ Links front (k.setState st) k'

variable {front : Bool} {k k' : Core}

theorem Link.links (h : Link front k k') : Links front k k' :=
  Relation.ReflTransGen.single h

/-- What a request does to the queue: a message it links in front has high
priority, an answer at the tail has the priority `back`. -/
inductive Make (front : Bool) (back : Byte) : Core → Core → Prop
  | alloc {k k' : Core} {alloc : Option Block} {len : Int} {b : Block}
      (hb : k.timodMkctl alloc len = some (b, k')) : Make front back k k'
  | push {k k' : Core} {alloc : Option Block} {len : Int} {b : Block}
      (hf : front = true) (hb : k.timodMkctl alloc len = some (b, k')) {n : TPrimsg}
      (hn : 0 ≤ n.length) (hpri : n.pri = MSG_HIPRI) : Make front back k (k'.pushFront b.addr n)
  | answer {k k' k'' : Core} {alloc ack : Option Block} {len : Int} {b : Block} {prim : Word}
      (hf : ack.isSome → front = true) (hb : k.timodMkctl alloc len = some (b, k'))
      {n : TPrimsg} (hn : 0 ≤ n.length) (hpri : n.pri = back)
      (ha : (k'.timodOk ack prim).appendTail b.addr n = .ok k'') : Make front back k k''

/-- Several such acts. -/
abbrev Makes (front : Bool) (back : Byte) := Relation.ReflTransGen (Make front back)

variable {back : Byte}

theorem Make.link (h : Make front back k k') : Link front k k' := by
  cases h with
  | alloc hb => exact .alloc hb
  | push hf hb hn _ => exact .push hf hb hn
  | answer hf hb hn _ ha => exact .answer hf hb hn ha

theorem Make.makes (h : Make front back k k') : Makes front back k k' :=
  Relation.ReflTransGen.single h

theorem Makes.links (h : Makes front back k k') : Links front k k' := by
  induction h with
  | refl => exact .refl
  | tail _ hmake ih => exact ih.tail hmake.link

/-! ## Queueing -/

variable {alloc : Option Block}

theorem timodMkctl_isSome {len : Int} {x : Block × Core} (h : k.timodMkctl alloc len = some x) :
    alloc.isSome := by
  cases alloc with
  | none => exact nomatch h
  | some b => rfl

variable {b : Block}

/-- A block is taken from the free ones. -/
theorem timodMkctl_spec {len : Int} (h : k.timodMkctl alloc len = some (b, k')) :
    alloc = some b ∧ k.heap b.addr = none ∧
      k' = { k with heap := Function.update k.heap b.addr (some b.junk) } := by
  unfold Core.timodMkctl at h
  cases alloc with
  | none => exact nomatch h
  | some b' =>
    dsimp only at h
    split at h
    next hfree =>
      obtain ⟨rfl, rfl⟩ := Prod.mk.inj (Option.some.inj h)
      exact ⟨rfl, Option.isNone_iff_eq_none.mp hfree.2, rfl⟩
    · exact nomatch h

theorem timodMkctl_live {len : Int} (hb : k.timodMkctl alloc len = some (b, k')) :
    k'.heap b.addr ≠ none := by
  rw [(timodMkctl_spec hb).2.2]
  simp

/-- Allocation does not look at the state. -/
theorem timodMkctl_setState {len : Int} (hb : k.timodMkctl alloc len = some (b, k')) (st : TState) :
    (k.setState st).timodMkctl alloc len = some (b, k'.setState st) := by
  unfold Core.timodMkctl at hb ⊢
  cases alloc with
  | none => exact nomatch hb
  | some b' =>
    dsimp only at hb ⊢
    split at hb
    next hc =>
      rw [if_pos (show _ ∧ ((k.setState st).heap b'.addr).isNone = true from hc)]
      cases hb
      rfl
    · exact nomatch hb

theorem queueWords_makes (hf : alloc.isSome → front = true) (k : Core) (words : List Word) :
    Makes front back k (k.queueWords alloc words) := by
  unfold Core.queueWords
  split
  · exact .refl
  next x hb =>
    refine (Make.push (hf (timodMkctl_isSome hb)) hb ?_ rfl).makes
    show (0 : Int) ≤ 4 * words.length
    omega

section

variable {e : Env} (hf : e.ackAlloc.isSome → front = true) (prim : Word)

include hf prim

theorem timodOk_makes (s : Sys) : Makes front back s.toCore (timodOk e prim s).toCore :=
  queueWords_makes hf _ _

theorem timodError_makes (terr uerr : Int) (s : Sys) :
    Makes front back s.toCore (timodError e prim terr uerr s).toCore :=
  queueWords_makes hf _ _

end

theorem copyFromUser_nonneg {e : Env} {s : Sys} {a : Word} {n : Int} {bs : List Byte}
    (h : copyFromUser e s a n = some bs) : 0 ≤ n := by
  unfold copyFromUser at h
  split at h
  next hn => exact hn.1
  · exact nomatch h

theorem answer_ok {e : Env} {prim : Word} {a : Addr} {n : TPrimsg} {s s' : Sys} {r : Int}
    (h : answer e prim a n s = .ok (r, s')) :
    r = 0 ∧ (s.toCore.timodOk e.ackAlloc prim).appendTail a n = .ok s'.toCore := by
  unfold answer at h
  split at h
  · exact nomatch h
  next k hk =>
    exact of_ok h ⟨rfl, hk⟩

theorem appendTail_spec {a : Addr} {n : TPrimsg} (hk : k.appendTail a n = .ok k') :
    ∃ last nl, k.priv.plast = some last ∧ k.heap last = some nl ∧ k' = k.linkTail a n last nl := by
  unfold Core.appendTail at hk
  split at hk
  · exact nomatch hk
  next last hlast =>
    split at hk
    · exact nomatch hk
    next nl hnl => exact ⟨last, nl, hlast, hnl, (ok.inj hk).symm⟩

/-! ## `timod_update_socket` -/

/-- `timod_update_socket` calls `accept`. -/
def callsAccept (e : Env) (s : Sys) : Prop :=
  e.stream = true ∧ s.priv.state = .wresCind ∧ e.verify true (s.esp - 1024) 28 = true
  deriving Decidable

/-- A connection is accepted, and there is memory on offer to announce it. -/
def acceptsConn (e : Env) (s : Sys) : Prop :=
  callsAccept e s ∧ ¬ (e.socket .accept).result < 0 ∧ e.ctlAlloc.isSome = true
  deriving Decidable

/-- `timod_update_socket` queues at most its `T_CONN_IND`, in front. -/
theorem timodUpdateSocket_links {e : Env} (fd : Word) {s : Sys}
    (hf : acceptsConn e s → front = true) :
    Links front s.toCore (timodUpdateSocket e fd s).2.toCore := by
  unfold timodUpdateSocket
  split
  · exact .refl
  next hst =>
    dsimp only
    split
    · exact .refl
    next htsp =>
      split
      · simp only [socketcall_toCore, putArgs_toCore]; exact .refl
      next hres =>
        split
        · simp only [socketcall_toCore, putArgs_toCore]; exact .refl
        next b k hb =>
          simp only [socketcall_toCore, putArgs_toCore] at hb
          split
          · exact (Link.alloc hb).links
          next addr hcopy =>
            have hlen := copyFromUser_nonneg hcopy
            obtain ⟨hstream, hstate⟩ := not_or.mp hst
            have hcalls : callsAccept e s :=
              ⟨not_not.mp hstream, not_not.mp hstate, not_not.mp htsp⟩
            have hfront := hf ⟨hcalls, hres, timodMkctl_isSome hb⟩
            refine (Link.push hfront hb ?_).links
            dsimp only
            omega

/-! ## `do_putmsg` -/

section Putmsg

variable {front : Bool} {back : Byte} {e : Env} {c : PutArgs} {s s' : Sys} {r : Int}

/-- The answer to a request gets memory, and the request can be copied into it. -/
def Answers (e : Env) (c : PutArgs) (s : Sys) : Prop :=
  (s.timodMkctl e.ctlAlloc c.ctlLen).isSome = true ∧ 0 ≤ c.ctlLen ∧
    e.canRead c.ctlBuf c.ctlLen.toNat = true
  deriving Decidable

theorem copyFromUser_isSome (e : Env) (s : Sys) (a : Word) (n : Int) :
    (copyFromUser e s a n).isSome = true ↔ 0 ≤ n ∧ e.canRead a n.toNat = true := by
  unfold copyFromUser
  split
  next h => exact ⟨fun _ => h, fun _ => rfl⟩
  next h => exact ⟨fun hsome => (nomatch hsome), fun hn => absurd hn h⟩

/-- Whether a block is granted depends on the blocks in use only. -/
theorem timodMkctl_isSome_congr {k k' : Core} (hheap : k'.heap = k.heap) (alloc : Option Block)
    (len : Int) : (k'.timodMkctl alloc len).isSome = (k.timodMkctl alloc len).isSome := by
  unfold Core.timodMkctl
  rw [hheap]
  cases alloc with
  | none => rfl
  | some b =>
    dsimp only
    split <;> rfl

theorem answers_congr (hheap : s'.heap = s.heap) : Answers e c s' ↔ Answers e c s := by
  unfold Answers
  rw [timodMkctl_isSome_congr hheap]

theorem not_answers_of_none (h : s.timodMkctl e.ctlAlloc c.ctlLen = none) : ¬ Answers e c s := by
  intro hans
  have hsome := hans.1
  rw [h] at hsome
  exact nomatch hsome

theorem not_answers_of_fault {t : Sys} (h : copyFromUser e t c.ctlBuf c.ctlLen = none) :
    ¬ Answers e c s := by
  intro hans
  have hsome := (copyFromUser_isSome e t c.ctlBuf c.ctlLen).mpr hans.2
  rw [h] at hsome
  exact nomatch hsome

theorem answers_of_some {t : Sys} {x : Block × Core} {req : List Byte}
    (h : s.timodMkctl e.ctlAlloc c.ctlLen = some x)
    (hcopy : copyFromUser e t c.ctlBuf c.ctlLen = some req) : Answers e c s := by
  refine ⟨?_, (copyFromUser_isSome e t c.ctlBuf c.ctlLen).mp ?_⟩
  · rw [h]
    rfl
  · rw [hcopy]
    rfl

section

variable {error : Int}
  (hf : (error = 0 → (s.timodMkctl e.ctlAlloc c.ctlLen).isSome = true → Answers e c s) →
    e.ackAlloc.isSome → front = true)
  (h : bindReply e c error s = .ok (r, s'))

include hf h

theorem bindReply_makes : Makes front MSG_HIPRI s.toCore s'.toCore := by
  unfold bindReply at h
  split at h
  next herr => exact of_ok h (timodError_makes (hf fun hzero => absurd hzero herr) ..)
  split at h
  next hnone =>
    refine of_ok h (timodError_makes (hf fun _ hsome => ?_) ..)
    rw [hnone] at hsome
    exact nomatch hsome
  next b k hb =>
    split at h
    · exact of_ok h ((Make.alloc hb).makes)
    next req hcopy =>
      have hack := hf fun _ _ => answers_of_some hb hcopy
      exact (Make.answer hack hb (copyFromUser_nonneg hcopy) rfl (answer_ok h).2).makes

theorem bindReply_links : Links front s.toCore s'.toCore :=
  (bindReply_makes hf h).links

end

/-- A request is turned down before it does anything: at most an error message is
queued, if `acks` says so. -/
def TurnedDown (e : Env) (acks : Prop) (prim : Word) (s t : Sys) : Prop :=
  t.toCore = s.toCore ∨
    acks ∧ ∃ terr uerr, t.toCore = (timodError e prim terr uerr s).toCore

section

variable {prim : Word} {acks : Prop} (hf : acks → e.ackAlloc.isSome → front = true)
  (h : TurnedDown e acks prim s s')

include hf h

theorem TurnedDown.makes : Makes front back s.toCore s'.toCore := by
  rcases h with h | ⟨hacks, terr, uerr, h⟩
  · rw [h]
  · rw [h]
    exact timodError_makes (hf hacks) ..

theorem TurnedDown.links : Links front s.toCore s'.toCore :=
  (h.makes hf : Makes front 0 s.toCore s'.toCore).links

end

/-- A bind request gets as far as its socket calls, unless the request itself
cannot be read. -/
def bindReached (e : Env) (s : Sys) : Prop :=
  s.priv.state = .unbnd ∧ e.verify true (s.esp - 1024) 12 = true
  deriving Decidable

/-- A bind request gets as far as its socket calls. -/
def bindCalls (e : Env) (c : PutArgs) (s : Sys) : Prop :=
  e.verify false c.ctlBuf 16 = true ∧ bindReached e s ∧
    (copyFromUser e s c.ctlBuf 16).isSome = true

/-- A bind request comes to its `timod_ok` or `timod_error`: it can be read, and read again
once its answer has memory. -/
def bindAcks (e : Env) (c : PutArgs) (s : Sys) : Prop :=
  e.verify false c.ctlBuf 16 = true ∧
    (bindReached e s → (copyFromUser e s c.ctlBuf 16).isSome = true ∧
      (bindResult e c s = 0 → (s.timodMkctl e.ctlAlloc c.ctlLen).isSome = true → Answers e c s))
  deriving Decidable

/-- A connect request gets as far as its socket call. -/
def connCalls (e : Env) (c : PutArgs) (s : Sys) : Prop :=
  e.verify false c.ctlBuf 20 = true ∧ (s.priv.state = .unbnd ∨ s.priv.state = .idle) ∧
    e.verify true (s.esp - 1024) 12 = true ∧ (copyFromUser e s c.ctlBuf 20).isSome = true
  deriving Decidable

/-- A bind request comes to its acknowledgement. -/
def bindAnswered (e : Env) (c : PutArgs) (s : Sys) : Prop :=
  bindCalls e c s ∧ bindResult e c s = 0 ∧ Answers e c s

/-- A connect request comes to its reply. -/
def connAnswered (e : Env) (c : PutArgs) (s : Sys) : Prop :=
  connCalls e c s ∧ if (e.socket .connect).result = 0 then Answers e c s
    else (s.timodMkctl e.ctlAlloc 12).isSome = true
  deriving Decidable

/-- A connect request comes to its `timod_ok` or `timod_error`. -/
def connAcks (e : Env) (c : PutArgs) (s : Sys) : Prop :=
  e.verify false c.ctlBuf 20 = true ∧ ((s.priv.state = .unbnd ∨ s.priv.state = .idle) →
    e.verify true (s.esp - 1024) 12 = true → connAnswered e c s)
  deriving Decidable

theorem isSome_of_not_isNone {α : Type} {o : Option α} (h : ¬ o.isNone = true) :
    o.isSome = true := by
  cases o with
  | none => exact absurd rfl h
  | some _ => rfl

/-- A bind request is turned down, or makes its socket calls and comes to its reply. -/
theorem bindReq_cases (e : Env) (c : PutArgs) (s : Sys) :
    (∃ r t, bindReq e c s = .ok (r, t) ∧ TurnedDown e (bindAcks e c s) T_BIND_REQ s t ∧
      (r = 0 → ¬ bindReached e s)) ∨
    (bindCalls e c s ∧ ∃ t, bindReq e c s = bindReply e c (bindResult e c s) t ∧
      t.toCore = s.toCore.setState (boundState e c s)) := by
  unfold bindReq
  dsimp only
  split_ifs with hv hst htsp hcopy haddr
  · exact .inl ⟨_, _, rfl, .inr ⟨⟨hv, fun h => absurd h.1 hst⟩, _, _, rfl⟩, fun _ h => hst h.1⟩
  · exact .inl ⟨_, _, rfl, .inl rfl, nofun⟩
  · have haddr : hasAddress c s := haddr
    refine .inr ⟨⟨hv, ⟨not_not.mp hst, htsp⟩, isSome_of_not_isNone hcopy⟩, _,
      by rw [bindResult, if_pos haddr, bindAddress_fst], ?_⟩
    rw [bindAddress_toCore, boundState]
    by_cases hbind : (e.socket .bind).result = 0
    · have hbound : hasAddress c s ∧ (e.socket .bind).result = 0 := ⟨haddr, hbind⟩
      rw [if_neg (not_not.mpr hbind), if_pos hbound]
      rfl
    · rw [if_pos hbind, if_neg (fun h => hbind h.2)]
      rfl
  · have haddr : ¬ hasAddress c s := haddr
    refine .inr ⟨⟨hv, ⟨not_not.mp hst, htsp⟩, isSome_of_not_isNone hcopy⟩, _,
      by rw [bindResult, if_neg haddr], ?_⟩
    rw [boundState, if_neg (fun h => haddr h.1)]
    rfl
  · exact .inl ⟨_, _, rfl, .inr ⟨⟨hv, fun h => absurd h.2 htsp⟩, _, _, rfl⟩, fun _ h => htsp h.2⟩
  · exact .inl ⟨_, _, rfl, .inl rfl, nofun⟩

theorem boundState_used (e : Env) (c : PutArgs) (s : Sys) :
    boundState e c s = s.priv.state ∨ (boundState e c s).Used := by
  unfold boundState
  split
  · split
    · exact .inr (.inr (.inr (.inl rfl)))
    · exact .inr (.inr (.inl rfl))
  · exact .inl rfl

/-- A request: the endpoint gets its new state, then messages are made. -/
def MakesIn (front : Bool) (back : Byte) (k k' : Core) : Prop :=
  ∃ st, (st = k.priv.state ∨ st.Used) ∧ Makes front back (k.setState st) k'

theorem MakesIn.requests (h : MakesIn front back k k') : Requests front k k' := by
  obtain ⟨st, hst, hmakes⟩ := h
  exact ⟨st, hst, hmakes.links⟩

theorem Makes.makesIn (h : Makes front back k k') : MakesIn front back k k' :=
  ⟨k.priv.state, .inl rfl, h⟩

theorem bindReq_makes (hf : bindAcks e c s → e.ackAlloc.isSome → front = true)
    (h : bindReq e c s = .ok (r, s')) : MakesIn front MSG_HIPRI s.toCore s'.toCore := by
  rcases bindReq_cases e c s with ⟨r', t, heq, hdown, -⟩ | ⟨⟨hv, -, hcopy⟩, t, heq, hcore⟩
  all_goals rw [heq] at h
  · exact of_ok h ((hdown.makes hf).makesIn)
  · have hheap : t.heap = s.heap := by rw [hcore]; rfl
    refine ⟨boundState e c s, boundState_used e c s, ?_⟩
    rw [← hcore]
    refine bindReply_makes (fun hans => hf ⟨hv, fun _ => ⟨hcopy, fun hzero hsome => ?_⟩⟩) h
    rw [← timodMkctl_isSome_congr hheap] at hsome
    exact (answers_congr hheap).mp (hans hzero hsome)

/-- `T_CONN_RES` comes to the `timod_ok` of this endpoint. -/
def connResAcks (e : Env) (c : PutArgs) (s : Sys) : Bool :=
  (getUser e s (c.ctlBuf + 16)).any fun connFd =>
    connFd = c.flags ∨ ¬ e.dup2 < 0 ∧ c.flags ≠ c.fd ∧ connFd ≠ c.fd

theorem connRes_makes (hf : connResAcks e c s = true → e.ackAlloc.isSome → front = true)
    (h : connRes e c s = .ok (r, s')) : Makes front back s.toCore s'.toCore := by
  unfold connResAcks at hf
  unfold connRes at h
  split at h
  · exact of_ok h .refl
  next connFd hfd =>
    rw [hfd] at hf
    dsimp only at h
    split_ifs at h with hflags hdup hown hconn <;> obtain ⟨rfl, rfl⟩ := ok_inj h
    · exact timodOk_makes (hf (decide_eq_true (.inl hflags))) ..
    iterate 3 exact .refl
    · exact timodOk_makes (hf (decide_eq_true (.inr ⟨hdup, hown, hconn⟩))) ..

theorem connReply_makes {error : Int}
    (hf : (if error = 0 then Answers e c s else (s.timodMkctl e.ctlAlloc 12).isSome = true) →
      e.ackAlloc.isSome → front = true)
    (h : connReply e c error s = .ok (r, s')) : MakesIn front 0 s.toCore s'.toCore := by
  unfold connReply at h
  split at h
  next hzero =>
    rw [if_pos hzero] at hf
    split at h
    · exact of_ok h (Makes.makesIn .refl)
    next b k hb =>
      split at h
      · exact of_ok h ((Make.alloc hb).makes.makesIn)
      next req hcopy =>
        -- the state is set between the allocation and the answer
        have hb' := timodMkctl_setState hb .dataXfer
        have hack := hf (answers_of_some hb hcopy)
        refine ⟨.dataXfer, .inr (.inr (.inr (.inr rfl))), ?_⟩
        exact (Make.answer hack hb' (copyFromUser_nonneg hcopy) rfl (answer_ok h).2).makes
  next herr =>
    rw [if_neg herr] at hf
    split at h
    · exact of_ok h (Makes.makesIn .refl)
    next b k hb =>
      refine (Make.answer (hf (by rw [hb]; rfl)) hb ?_ rfl (answer_ok h).2).makes.makesIn
      show (0 : Int) ≤ 4 * 3
      omega

/-- A connect request is turned down, or calls `connect` and comes to its reply. -/
theorem connReq_cases (e : Env) (c : PutArgs) (s : Sys) :
    (¬ connCalls e c s ∧ ∃ r t, connReq e c s = .ok (r, t) ∧
      TurnedDown e (connAcks e c s) T_CONN_REQ s t) ∨
    (connCalls e c s ∧ ∃ t, connReq e c s = connReply e c (e.socket .connect).result t ∧
      t.toCore = s.toCore) := by
  unfold connReq
  dsimp only
  split_ifs with hv hst htsp hcopy
  · have hno : ¬ (s.priv.state = .unbnd ∨ s.priv.state = .idle) := fun h => h.elim hst.1 hst.2
    exact .inl ⟨fun h => hno h.2.1, _, _, rfl, .inr ⟨⟨hv, fun h => absurd h hno⟩, _, _, rfl⟩⟩
  · refine .inl ⟨fun h => ?_, _, _, rfl, .inl rfl⟩
    have hsome := h.2.2.2
    rw [Option.isNone_iff_eq_none.mp hcopy] at hsome
    exact nomatch hsome
  · refine .inr ⟨⟨hv, ?_, htsp, ?_⟩, _, rfl, ?_⟩
    · by_cases hu : s.priv.state = .unbnd
      · exact .inl hu
      · exact .inr (not_not.mp fun hi => hst ⟨hu, hi⟩)
    · exact isSome_of_not_isNone hcopy
    · rw [connectCall_toCore, connectArgs_toCore]
  · exact .inl ⟨fun h => htsp h.2.2.1, _, _, rfl,
      .inr ⟨⟨hv, fun _ h => absurd h htsp⟩, _, _, rfl⟩⟩
  · exact .inl ⟨fun h => hv h.1, _, _, rfl, .inl rfl⟩

theorem connReq_makes (hf : connAcks e c s → e.ackAlloc.isSome → front = true)
    (h : connReq e c s = .ok (r, s')) : MakesIn front 0 s.toCore s'.toCore := by
  rcases connReq_cases e c s with ⟨-, r', t, heq, hdown⟩ | ⟨hcalls, t, heq, hcore⟩
  all_goals rw [heq] at h
  · exact of_ok h ((hdown.makes hf).makesIn)
  · have hheap : t.heap = s.heap := congrArg Core.heap hcore
    rw [← hcore]
    refine connReply_makes (fun hans => hf ⟨hcalls.1, fun _ _ => ⟨hcalls, ?_⟩⟩) h
    rwa [answers_congr hheap, timodMkctl_isSome_congr hheap] at hans

theorem disconReq_toCore (e : Env) (c : PutArgs) (s : Sys) :
    (disconReq e c s).2.toCore = s.toCore := by
  unfold disconReq
  split <;> rfl

theorem dataReq_toCore (e : Env) (c : PutArgs) (s : Sys) : (dataReq e c s).2.toCore = s.toCore := by
  unfold dataReq
  dsimp only
  split_ifs
  · rfl
  · rw [socketcall_toCore, putArgs_toCore]
  · rfl

/-- A datagram request that is refused for its state or its scratch space. -/
def refusesUnitdata (e : Env) (c : PutArgs) (s : Sys) : Bool :=
  e.verify false c.ctlBuf 20 ∧
    ((s.priv.state ≠ .idle ∧ s.priv.state ≠ .dataXfer) ∨ ¬ e.verify true (s.esp - 1024) 24)

theorem unitdataReq_makes (hf : refusesUnitdata e c s → e.ackAlloc.isSome → front = true) :
    Makes front back s.toCore (unitdataReq e c s).2.toCore := by
  unfold unitdataReq
  dsimp only
  split_ifs with hread hst hv
  · exact timodError_makes (hf (decide_eq_true ⟨hread, .inl hst⟩)) ..
  · rw [putArgs_toCore]
  · simp only [socketcall_toCore, putUser_toCore, putArgs_toCore]; exact .refl
  · simp only [socketcall_toCore, putArgs_toCore]; exact .refl
  · exact timodError_makes (hf (decide_eq_true ⟨hread, .inr hv⟩)) ..
  · exact .refl

variable {flag retBase retLen esp : Word}

theorem optAck_makes (hf : e.ctlAlloc.isSome → front = true) :
    Makes front back s.toCore (optAck e flag retBase retLen esp s).2.toCore := by
  unfold optAck
  split
  · exact .refl
  next b k hb =>
    split
    · exact (Make.alloc hb).makes
    next reply hcopy =>
      have hlen := copyFromUser_nonneg hcopy
      refine (Make.push (hf (timodMkctl_isSome hb)) hb ?_ rfl).makes
      dsimp only
      omega

/-- The space `timod_optmgmt` takes for the reply. -/
def retSpace (optLen : Word) : Word := 1024 + optLen + 8 * (optLen / 12)

/-- The run of the option loop. -/
def optRun (e : Env) (fd flag optBuf optLen : Word) (s : Sys) : Res OptEnd :=
  let retBase := s.esp - retSpace optLen
  optLoop e fd flag (retBase - 24) e.rounds 0 ⟨optBuf, optLen, retBase, 0, retSpace optLen⟩
    { s with esp := retBase - 24 }

/-- `timod_optmgmt` gets as far as borrowing space. -/
def optBorrows (e : Env) (optBuf optLen : Word) (doRet : Bool) (s : Sys) : Prop :=
  ¬ (optBuf ≠ 0 ∧ 0 < optLen.toInt ∧ ¬ e.verify false optBuf optLen.toInt = true) ∧
    ¬ (¬ doRet = true ∧ (optBuf = 0 ∨ optLen.toInt ≤ 0)) ∧
    e.verify true (s.esp - retSpace optLen - 24) 24 = true
  deriving Decidable

/-- The memory on offer for the reply to an option request that is gone through: for an
error if a round failed, for the acknowledgement otherwise. -/
def optAsks (e : Env) (fd flag optBuf optLen : Word) (s : Sys) : Bool :=
  match optRun e fd flag optBuf optLen s with
  | .ok (.done failed _ _ _) => if failed ≠ 0 then e.ackAlloc.isSome else e.ctlAlloc.isSome
  | _ => false

variable {doRet : Bool}

theorem optReply_makes {failed error : Int}
    (hf : (if failed ≠ 0 then e.ackAlloc.isSome else e.ctlAlloc.isSome) = true → front = true)
    (h : optReply e flag retBase esp doRet failed error retLen s = (r, s')) :
    Makes front back s.toCore s'.toCore := by
  obtain rfl : (optReply e flag retBase esp doRet failed error retLen s).2 = s' :=
    congrArg Prod.snd h
  unfold optReply
  split_ifs with hret hfailed
  · rw [if_pos hfailed] at hf
    exact timodError_makes hf ..
  · rw [if_neg hfailed] at hf
    exact optAck_makes hf
  · exact .refl

theorem timodOptmgmt_makes {fd flag optBuf optLen : Word}
    (hf : optBorrows e optBuf optLen doRet s → optAsks e fd flag optBuf optLen s = true →
      front = true)
    (h : timodOptmgmt e fd flag optBuf optLen doRet s = .ok (r, s')) :
    Makes front back s.toCore s'.toCore := by
  unfold timodOptmgmt at h
  dsimp only at h
  split_ifs at h with hv hret htsp
  iterate 2 exact of_ok h .refl
  · split at h
    · exact nomatch h
    next s1 hloop =>
      obtain ⟨-, rfl⟩ := ok_inj h
      rw [show s1.toCore = s.toCore from optLoop_toCore hloop]
    next failed error retLen s1 hloop =>
      have hs1 : s1.toCore = s.toCore := optLoop_toCore hloop
      have hrun : optRun e fd flag optBuf optLen s = .ok (.done failed error retLen s1) := hloop
      have hf := hf ⟨hv, hret, htsp⟩
      rw [optAsks, hrun] at hf
      rw [← hs1]
      exact optReply_makes hf (ok.inj h)
  · exact of_ok h .refl

/-- An option request that is gone through has memory on offer for its reply. -/
def optmgmtAsks (e : Env) (c : PutArgs) (s : Sys) : Bool :=
  let optLen := s.mem.word (c.ctlBuf + 4)
  let optOff := s.mem.word (c.ctlBuf + 8)
  let optBuf := if 0 < optOff.toInt then c.ctlBuf + optOff else 0
  decide (e.verify false c.ctlBuf 16 = true ∧ (copyFromUser e s c.ctlBuf 16).isSome = true ∧
    optBorrows e optBuf optLen true s) &&
  optAsks e c.fd (s.mem.word (c.ctlBuf + 12)) optBuf optLen s

theorem optmgmtReq_makes (hf : optmgmtAsks e c s = true → front = true)
    (h : optmgmtReq e c s = .ok (r, s')) : Makes front back s.toCore s'.toCore := by
  unfold optmgmtReq at h
  split_ifs at h with hv hcopy
  · exact of_ok h .refl
  · refine timodOptmgmt_makes (fun hborrows hasks => hf ?_) h
    have hread : _ ∧ _ ∧ _ := ⟨hv, isSome_of_not_isNone hcopy, hborrows⟩
    exact (Bool.and_eq_true ..).mpr ⟨decide_eq_true hread, hasks⟩
  · exact of_ok h .refl

/-- The request may link a message in front of the queue: it comes to the point where it
has one to link, and there is memory on offer for it. -/
def asksFront (e : Env) (c : PutArgs) (s : Sys) : Bool :=
  match getUser e s c.ctlBuf with
  | none => false
  | some cmd =>
    if cmd = T_BIND_REQ then decide (bindAcks e c s) && e.ackAlloc.isSome
    else if cmd = T_CONN_RES then connResAcks e c s && e.ackAlloc.isSome
    else if cmd = T_CONN_REQ then decide (connAcks e c s) && e.ackAlloc.isSome
    else if cmd = T_UNBIND_REQ then e.ackAlloc.isSome
    else if cmd = T_UNITDATA_REQ then refusesUnitdata e c s && e.ackAlloc.isSome
    else if cmd = T_OPTMGMT_REQ then optmgmtAsks e c s
    else false

/-- Three primitives set the state; every other request only links messages. -/
theorem doPutmsg_cases (back : Byte) (h : doPutmsg e c s = .ok (r, s')) :
    (getUser e s c.ctlBuf = some T_BIND_REQ ∧ bindReq e c s = .ok (r, s')) ∨
    (getUser e s c.ctlBuf = some T_CONN_REQ ∧ connReq e c s = .ok (r, s')) ∨
    (getUser e s c.ctlBuf = some T_UNBIND_REQ ∧ unbindReq e s = (r, s')) ∨
    (getUser e s c.ctlBuf ≠ some T_BIND_REQ ∧ getUser e s c.ctlBuf ≠ some T_CONN_REQ ∧
      Makes (asksFront e c s) back s.toCore s'.toCore) := by
  unfold asksFront
  have hdispatch := doPutmsg_dispatch e c s
  generalize getUser e s c.ctlBuf = cmd, doPutmsg e c s = x at h hdispatch ⊢
  cases hdispatch with
  | bind => exact .inl ⟨rfl, h⟩
  | conn => exact .inr (.inl ⟨rfl, h⟩)
  | unbind => exact .inr (.inr (.inl ⟨rfl, ok.inj h⟩))
  | fault =>
    exact of_ok h (.inr (.inr (.inr ⟨nofun, nofun, .refl⟩)))
  | connRes =>
    refine .inr (.inr (.inr ⟨by decide, by decide, connRes_makes (fun hacks hack => ?_) h⟩))
    exact (Bool.and_eq_true ..).mpr ⟨hacks, hack⟩
  | discon =>
    obtain rfl : (disconReq e c s).2 = s' := congrArg Prod.snd (ok.inj h)
    rw [disconReq_toCore]
    exact .inr (.inr (.inr ⟨by decide, by decide, .refl⟩))
  | ordrel =>
    exact of_ok h (.inr (.inr (.inr ⟨by decide, by decide, .refl⟩)))
  | data =>
    obtain rfl : (dataReq e c s).2 = s' := congrArg Prod.snd (ok.inj h)
    rw [dataReq_toCore]
    exact .inr (.inr (.inr ⟨by decide, by decide, .refl⟩))
  | unitdata =>
    obtain rfl : (unitdataReq e c s).2 = s' := congrArg Prod.snd (ok.inj h)
    refine .inr (.inr (.inr ⟨by decide, by decide, unitdataReq_makes fun href hack => ?_⟩))
    exact (Bool.and_eq_true ..).mpr ⟨href, hack⟩
  | optmgmt =>
    exact .inr (.inr (.inr ⟨by decide, by decide, optmgmtReq_makes id h⟩))
  | other hcmd =>
    obtain ⟨rfl, rfl⟩ := ok_inj h
    refine .inr (.inr (.inr ⟨?_, ?_, .refl⟩))
    all_goals exact fun heq => hcmd _ (by decide) (Option.some.inj heq)

/-- The priority of an answer at the tail. -/
def tailPri (e : Env) (c : PutArgs) (s : Sys) : Byte :=
  if getUser e s c.ctlBuf = some T_BIND_REQ then MSG_HIPRI else 0

/-- Everything `do_putmsg` does to the kernel side. -/
theorem doPutmsg_makes (h : doPutmsg e c s = .ok (r, s')) :
    MakesIn (asksFront e c s) (tailPri e c s) s.toCore s'.toCore := by
  unfold tailPri
  rcases doPutmsg_cases 0 h with
    ⟨hcmd, hbind⟩ | ⟨hcmd, hconn⟩ | ⟨hcmd, hunbind⟩ | ⟨hbind, -, hmakes⟩
  · rw [if_pos hcmd, asksFront, hcmd]
    refine bindReq_makes (fun hacks hack => ?_) hbind
    exact (Bool.and_eq_true ..).mpr ⟨decide_eq_true hacks, hack⟩
  · rw [asksFront, hcmd, if_neg (by decide)]
    refine connReq_makes (fun hacks hack => ?_) hconn
    exact (Bool.and_eq_true ..).mpr ⟨decide_eq_true hacks, hack⟩
  · rw [asksFront, hcmd, if_neg (by decide)]
    obtain ⟨rfl, rfl⟩ := Prod.mk.inj hunbind
    exact ⟨.unbnd, .inr (.inl rfl), timodOk_makes id _ (s.setState .unbnd)⟩
  · rw [if_neg hbind]
    exact hmakes.makesIn

theorem doPutmsg_requests (h : doPutmsg e c s = .ok (r, s')) :
    Requests (asksFront e c s) s.toCore s'.toCore :=
  (doPutmsg_makes h).requests

end Putmsg

/-! ## `do_getmsg` -/

section Getmsg

variable {e : Env} {c : GetArgs} {s : Sys}

/-- What `do_getmsg` does once it has looked for a connection: it leaves the
queue alone, or hands out a piece of the first message. -/
inductive Gets (c : GetArgs) (k : Core) : Int → Core → Prop
  | quiet {r : Int} (hr : r ≤ 0) : Gets c k r k
  | piece {a : Addr} {it : TPrimsg} {k' : Core} (hmax : 0 ≤ c.ctlMaxlen)
      (hfirst : k.priv.pfirst = some a) (hit : k.heap a = some it)
      (hk : k.takeChunk a it (c.take it.length) = .ok k') :
      Gets c k (if it.length - c.take it.length ≠ 0 then MORECTL else 0) k'

theorem lookForConnection_links :
    Links s.priv.pfirst.isNone s.toCore (lookForConnection e c s).toCore := by
  unfold lookForConnection
  split
  next h =>
    refine timodUpdateSocket_links c.fd fun _ => ?_
    rw [h.2]
    rfl
  · exact .refl

/-- Everything `do_getmsg` does to the kernel side, and when it does not return. -/
theorem doGetmsg_cases (e : Env) (c : GetArgs) (s : Sys) :
    ∃ k, Links s.priv.pfirst.isNone s.toCore k ∧
      ((∃ g, doGetmsg e c s = .ok g ∧ Gets c k g.ret g.sys.toCore) ∨
        ∃ a stop, doGetmsg e c s = .error stop ∧ k.priv.pfirst = some a ∧
          ∀ it, k.heap a = some it → k.takeChunk a it (c.take it.length) = .error stop) := by
  have hlinks := lookForConnection_links (e := e) (c := c) (s := s)
  obtain ⟨hcore, hret⟩ := receive_spec e c s.esp (lookForConnection e c s)
  unfold doGetmsg
  dsimp only
  generalize lookForConnection e c s = s1 at hlinks hcore hret ⊢
  have hdata : Gets c s1.toCore (receive e c s.esp s1).ret (receive e c s.esp s1).sys.toCore := by
    rw [hcore]
    exact .quiet hret
  split_ifs with _ _ hmax
  · exact ⟨_, .refl, .inl ⟨_, rfl, .quiet (by simp [EINTR])⟩⟩
  · refine ⟨s1.toCore, hlinks, ?_⟩
    split
    next a hfirst =>
      split
      next hnone =>
        refine .inr ⟨a, .noHead, rfl, hfirst, fun it hit => ?_⟩
        rw [hnone] at hit
        cases hit
      next it hit =>
        rcases deliver_eq e c a it s1 with ⟨-, hg⟩ | ⟨t, -, -, hg⟩
        · exact .inl ⟨_, hg, .quiet (by simp [EFAULT])⟩
        · rw [hg]
          cases hk : s1.toCore.takeChunk a it (c.take it.length) with
          | ok k => exact .inl ⟨_, rfl, .piece hmax hfirst hit hk⟩
          | error stop =>
            refine .inr ⟨a, stop, rfl, hfirst, fun it' hit' => ?_⟩
            rw [hit] at hit'
            obtain rfl := Option.some.inj hit'
            exact hk
    · exact .inl ⟨_, rfl, hdata⟩
  · exact ⟨s1.toCore, hlinks, .inl ⟨_, rfl, hdata⟩⟩
  · exact ⟨_, .refl, .inl ⟨_, rfl, .quiet (by simp [EFAULT])⟩⟩

end Getmsg

section Ioctl

/-- What an ioctl does to the endpoint once its request has been put: it fetches
messages, and drops the rest of one that does not fit. -/
inductive Fetches (e : IoctlEnv) (c : IoctlArgs) : Core → Core → Prop
  | quiet (k : Core) : Fetches e c k k
  | get {s : Sys} {g : Got} (h : doGetmsg e.get c.getArgs s = .ok g) :
      Fetches e c s.toCore g.sys.toCore
  | get' {s : Sys} {g : Got} (h : doGetmsg e.get' c.getArgs s = .ok g) :
      Fetches e c s.toCore g.sys.toCore
  | drop {k k' : Core} (h : k.dropHead = .ok k') : Fetches e c k k'
  | trans {k k' k'' : Core} (h : Fetches e c k k') (h' : Fetches e c k' k'') : Fetches e c k k''

variable {e : IoctlEnv} {c : IoctlArgs} {b : Behind} {s t : Sys} {r : Int} {g : Got}

/-- What the ioctl fetches is a message of the endpoint, unless its descriptor has
come to mean something else. -/
theorem ioctlGetmsg_ways {e : Env} {other : SockAnswer} {c : GetArgs}
    (h : ioctlGetmsg b e other c s = .ok g) :
    g.sys.toCore = s.toCore ∨ doGetmsg e c s = .ok g := by
  cases b with
  | same => exact .inr h
  | other =>
    obtain rfl := ok.inj h
    exact .inl rfl
  | closed => exact nomatch h

theorem ioctlGetmsg_fetches (h : ioctlGetmsg b e.get e.other c.getArgs s = .ok g) :
    Fetches e c s.toCore g.sys.toCore := by
  rcases ioctlGetmsg_ways h with hcore | hget
  · rw [hcore]
    exact .quiet _
  · exact .get hget

theorem tiBindGet_fetches (h : tiBindGet e c b s = .ok (r, t)) : Fetches e c s.toCore t.toCore := by
  unfold tiBindGet at h
  split at h
  · exact nomatch h
  next g hg =>
    have hfirst := ioctlGetmsg_fetches hg
    dsimp only at h
    split_ifs at h
    iterate 3 exact of_ok h hfirst
    · split at h
      · exact nomatch h
      next g' hg' =>
        obtain ⟨-, rfl⟩ := ok_inj h
        rcases ioctlGetmsg_ways hg' with hcore | hget
        · rw [hcore]
          exact hfirst
        · exact hfirst.trans (.get' hget)

theorem tiOptmgmtGet_fetches (h : tiOptmgmtGet e c b s = .ok (r, t)) :
    Fetches e c s.toCore t.toCore := by
  unfold tiOptmgmtGet at h
  split at h
  · exact nomatch h
  next g hg =>
    have hfirst := ioctlGetmsg_fetches hg
    split at h
    · split at h
      · exact nomatch h
      next k hk =>
        exact of_ok h (hfirst.trans (.drop hk))
    · exact of_ok h hfirst

theorem tiRequest_cases {rest : Behind → Sys → Res (Int × Sys)}
    (hrest : ∀ {b u}, rest b u = .ok (r, t) → Fetches e c u.toCore t.toCore)
    (h : tiRequest e c rest s = .ok (r, t)) :
    ∃ error u, doPutmsg e.put c.putArgs s = .ok (error, u) ∧ Fetches e c u.toCore t.toCore := by
  unfold tiRequest at h
  split at h
  · exact nomatch h
  next error u hput =>
    refine ⟨error, u, hput, ?_⟩
    split at h
    · exact of_ok h (.quiet _)
    · exact hrest h

/-- Everything an ioctl does to the kernel side: it puts a request and fetches the
answers, or it sets the state at most. -/
theorem timodIoctl_cases (h : timodIoctl e c s = .ok (r, t)) :
    ((Op.ioctl e c).request = some (e.put, c.putArgs) ∧ ∃ error u,
      doPutmsg e.put c.putArgs s = .ok (error, u) ∧ Fetches e c u.toCore t.toCore) ∨
    ((Op.ioctl e c).request = none ∧
      (t.toCore = s.toCore ∨ t.toCore = s.toCore.setState .unbnd)) := by
  have hnone : ∀ n : Int, ioctlNumber c.func = n → n ≠ 1 → n ≠ 2 →
      (Op.ioctl e c).request = none := by
    intro n hn h1 h2
    refine if_neg ?_
    rintro ⟨-, hor⟩
    omega
  unfold timodIoctl at h
  split_ifs at h with hv h0 h1 h2 h3
  · obtain rfl : (tiGetinfo e.own c s).2 = t := congrArg Prod.snd (ok.inj h)
    exact .inr ⟨hnone 0 h0 (by decide) (by decide), .inl (tiGetinfo_toCore ..)⟩
  · exact .inl ⟨if_pos ⟨hv, .inl h1⟩, tiRequest_cases tiOptmgmtGet_fetches h⟩
  · exact .inl ⟨if_pos ⟨hv, .inr h2⟩, tiRequest_cases tiBindGet_fetches h⟩
  · obtain rfl : (tiUnbind s).2 = t := congrArg Prod.snd (ok.inj h)
    refine .inr ⟨hnone 3 h3 (by decide) (by decide), ?_⟩
    unfold tiUnbind
    split
    · exact .inl rfl
    · exact .inr rfl
  · exact of_ok h (.inr ⟨hnone _ rfl h1 h2, .inl rfl⟩)
  · exact of_ok h (.inr ⟨if_neg fun hb => hv hb.1, .inl rfl⟩)

end Ioctl

end AbiEmu.Xti
