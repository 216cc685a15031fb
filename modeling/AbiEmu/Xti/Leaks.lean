import AbiEmu.Xti.Descriptors
import AbiEmu.Xti.Nodes

/-!
# What gets lost on the way

A message node belongs to nobody between `timod_mkctl` and the link, and a connection
between `accept` and its `T_CONN_IND`. `Ledger` writes down what an endpoint has been given:
every block, and every connection with the number of messages and of descriptor calls there
were at that moment. `Ledger.Clean` is the promise: each block is free again or in the
queue; each connection is announced by a `T_CONN_IND` that is queued or has been read to its
end, or its descriptor has been closed since.

Three returns break it. The copy of user memory comes after the allocation, and where it
faults the functions leave with the node in their hands. `timod_update_socket` leaves with
the connection, too. Without memory it closes the connection, but returns its number as if
it were there. `nothing_leaks_iff` says that there is nothing else, in runs in which
`TI_OPTMGMT` does not throw away a `T_CONN_IND` for lack of space.
-/

namespace AbiEmu.Xti

/-! ## Descriptor calls of a request -/

section Calls

variable {e : Env} {c : PutArgs} {s t : Sys} {r : Int}

theorem connRes_calls (h : connRes e c s = .ok (r, t)) : s.fdOps <+: t.fdOps := by
  cases hn : getUser e s (c.ctlBuf + 16) with
  | none =>
    unfold connRes at h
    rw [hn] at h
    exact of_ok h List.prefix_rfl
  | some n =>
    rcases connRes_fdOps hn h with ⟨-, -, hops⟩ | ⟨-, -, hops⟩
    · rw [hops]
    · rw [hops]
      exact List.prefix_append ..

/-- A request adds to the descriptor calls. -/
theorem doPutmsg_calls (h : doPutmsg e c s = .ok (r, t)) : s.fdOps <+: t.fdOps := by
  have hdispatch := doPutmsg_dispatch e c s
  generalize getUser e s c.ctlBuf = cmd, doPutmsg e c s = x at h hdispatch
  have hsame : t.fdOps = s.fdOps → s.fdOps <+: t.fdOps := fun heq => heq ▸ List.prefix_rfl
  cases hdispatch with
  | bind => exact hsame (bindReq_ends h).2
  | connRes => exact connRes_calls h
  | conn => exact hsame (connReq_ends h).2
  | optmgmt => exact hsame (optmgmtReq_ends h).2
  | unitdata =>
    obtain rfl : (unitdataReq e c s).2 = t := congrArg Prod.snd (Except.ok.inj h)
    exact hsame (unitdataReq_ends ..).2
  | data =>
    obtain rfl : (dataReq e c s).2 = t := congrArg Prod.snd (Except.ok.inj h)
    exact hsame (dataReq_ends ..).2
  | discon =>
    obtain rfl : (disconReq e c s).2 = t := congrArg Prod.snd (Except.ok.inj h)
    unfold disconReq
    split
    · exact List.prefix_rfl
    · exact List.prefix_append ..
  | ordrel =>
    obtain rfl : (closeReq c.fd s).2 = t := congrArg Prod.snd (Except.ok.inj h)
    exact List.prefix_append ..
  | unbind | fault | other =>
    exact of_ok h List.prefix_rfl

end Calls

/-! ## Announcements -/

/-- The queue still holds the messages it held. -/
def Core.Keeps (k k' : Core) : Prop :=
  ∀ l, k.Holds l → ∃ l', k'.Holds l' ∧ ∀ a ∈ l, ∀ n, k.heap a = some n →
    a ∈ l' ∧ ∃ n', k'.heap a = some n' ∧ n'.serial = n.serial ∧ n'.body = n.body

/-- The connection `conn` is announced by the message `i`: that is in the queue, or its last
piece has been read. -/
def Core.Announced (k : Core) (i : Nat) (conn : Word) : Prop :=
  (∃ m, k.queued[i]? = some m ∧ m.announces = some conn) ∧
  ((∃ l, k.Holds l ∧ ∃ a ∈ l, ∃ n, k.heap a = some n ∧ n.serial = i ∧ n.announces = some conn) ∨
    ∃ c ∈ k.delivered, c.serial = i ∧ c.ret = 0)

section Announced

variable {k k' k'' : Core} {a : Addr} {n : TPrimsg} {i : Nat} {conn : Word} {front : Bool}

theorem announces_congr {n n' : TPrimsg} (h : n'.body = n.body) : n'.announces = n.announces := by
  unfold TPrimsg.announces TPrimsg.type TPrimsg.word
  rw [h]

namespace Core.Keeps

theorem refl (k : Core) : k.Keeps k :=
  fun l hl => ⟨l, hl, fun _ ha n hn => ⟨ha, n, hn, rfl, rfl⟩⟩

theorem trans (h : k.Keeps k') (h' : k'.Keeps k'') : k.Keeps k'' := by
  intro l hl
  obtain ⟨l', hl', hkeep⟩ := h l hl
  obtain ⟨l'', hl'', hkeep'⟩ := h' l' hl'
  refine ⟨l'', hl'', fun a ha n hn => ?_⟩
  obtain ⟨ha', n', hn', hserial, hbody⟩ := hkeep a ha n hn
  obtain ⟨ha'', n'', hn'', hserial', hbody'⟩ := hkeep' a ha' n' hn'
  exact ⟨ha'', n'', hn'', hserial'.trans hserial, hbody'.trans hbody⟩

theorem alloc {alloc : Option Block} {len : Int} {b : Block}
    (hb : k.timodMkctl alloc len = some (b, k')) : k.Keeps k' := by
  intro l hl
  obtain ⟨hl', hnot⟩ := hl.alloc hb
  obtain ⟨_, _, rfl⟩ := timodMkctl_spec hb
  exact ⟨l, hl', fun a ha n hn => ⟨ha, n, (update_agree hnot a ha).trans hn, rfl, rfl⟩⟩

theorem pushFront (hfresh : ∀ l, k.Holds l → a ∉ l) : k.Keeps (k.pushFront a n) := by
  intro l hl
  have hnot := hfresh l hl
  refine ⟨a :: l, hl.pushFront hnot, fun b hb m hm => ⟨List.mem_cons_of_mem _ hb, m, ?_, rfl, rfl⟩⟩
  exact (update_agree hnot b hb).trans hm

theorem appendTail (hfresh : ∀ l, k.Holds l → a ∉ l) (hk : k.appendTail a n = .ok k') :
    k.Keeps k' := by
  intro l hl
  have hnot := hfresh l hl
  have hl' := hl.appendTail hnot hk
  refine ⟨l ++ [a], hl', fun b hb m hm => ⟨List.mem_append_left _ hb, ?_⟩⟩
  obtain ⟨m, next, hm₀, hm₁⟩ := (hl.linked hnot hk).2.1 b hb
  obtain rfl := Option.some.inj (hm₀.symm.trans hm)
  exact ⟨_, hm₁, rfl, rfl⟩

theorem handOut (hfirst : k.priv.pfirst = some a) (hn : k.heap a = some n) (x : Int) :
    k.Keeps (k.handOut a n x) := by
  intro l hl
  obtain ⟨l, rfl⟩ := hl.of_first hfirst
  refine ⟨a :: l, hl.handOut hn x, fun d hd m hm => ⟨hd, ?_⟩⟩
  by_cases hdb : d = a
  · rw [hdb, hn] at hm
    obtain rfl := Option.some.inj hm
    rw [hdb]
    exact ⟨_, Function.update_self .., rfl, rfl⟩
  · exact ⟨m, (Function.update_of_ne hdb ..).trans hm, rfl, rfl⟩

end Core.Keeps

/-- A new block is in no queue. -/
theorem timodMkctl_fresh {alloc : Option Block} {len : Int} {b : Block}
    (hb : k.timodMkctl alloc len = some (b, k')) (hk : ∃ l, k.Holds l) :
    ∀ l, k'.Holds l → b.addr ∉ l := by
  obtain ⟨l, hl⟩ := hk
  obtain ⟨hl', hnot⟩ := hl.alloc hb
  intro l' hl''
  obtain rfl := hl'.chain.unique hl''.chain
  exact hnot

theorem Link.keeps (h : Link front k k') : k.Keeps k' := by
  intro l hl
  cases h with
  | alloc hb => exact Core.Keeps.alloc hb l hl
  | push _ hb _ =>
    exact ((Core.Keeps.alloc hb).trans (.pushFront (timodMkctl_fresh hb ⟨l, hl⟩))) l hl
  | @answer k1 k2 alloc ack len b prim _ hb n _ ha =>
    have hok : k1.Keeps (k1.timodOk ack prim) := by
      unfold Core.timodOk Core.queueWords
      split
      · exact .refl _
      next hb' =>
        exact (Core.Keeps.alloc hb').trans (.pushFront (timodMkctl_fresh hb' ⟨l, (hl.alloc hb).1⟩))
    obtain ⟨l', hl', hnot, -⟩ := hl.answer hb ack prim
    have hfresh : ∀ q, (k1.timodOk ack prim).Holds q → b.addr ∉ q := by
      intro q hq
      obtain rfl := hl'.chain.unique hq.chain
      exact hnot
    exact (((Core.Keeps.alloc hb).trans hok).trans (.appendTail hfresh ha)) l hl

theorem Link.queued (h : Link front k k') : k.queued <+: k'.queued := by
  cases h with
  | alloc hb => rw [timodMkctl_queued hb]
  | push _ hb _ =>
    rw [← timodMkctl_queued hb]
    exact List.prefix_append ..
  | @answer k1 k2 alloc ack len b prim _ hb n _ ha =>
    obtain ⟨_, _, _, _, rfl⟩ := appendTail_spec ha
    rw [← timodMkctl_queued hb]
    refine List.IsPrefix.trans ?_ (List.prefix_append ..)
    unfold Core.timodOk Core.queueWords
    split
    · exact List.prefix_rfl
    next hb' =>
      rw [← timodMkctl_queued hb']
      exact List.prefix_append ..

namespace Core.Announced

/-- A message is announced for good. -/
theorem named (h : ∃ m, k.queued[i]? = some m ∧ m.announces = some conn)
    (hq : k.queued <+: k'.queued) : ∃ m, k'.queued[i]? = some m ∧ m.announces = some conn := by
  obtain ⟨m, hm, hconn⟩ := h
  obtain ⟨rest, hrest⟩ := hq
  refine ⟨m, ?_, hconn⟩
  rw [← hrest, List.getElem?_append_left (List.getElem?_eq_some_iff.mp hm).1]
  exact hm

section

variable (h : k.Announced i conn)

include h

theorem keeps (hkeep : k.Keeps k') (hq : k.queued <+: k'.queued) (hd : k.delivered ⊆ k'.delivered) :
    k'.Announced i conn := by
  refine ⟨named h.1 hq, ?_⟩
  rcases h.2 with ⟨l, hl, a, ha, n, hn, hserial, hconn⟩ | ⟨c, hc, hread⟩
  · obtain ⟨l', hl', hall⟩ := hkeep l hl
    obtain ⟨ha', n', hn', hserial', hbody⟩ := hall a ha n hn
    exact .inl ⟨l', hl', a, ha', n', hn', hserial'.trans hserial,
      (announces_congr hbody).trans hconn⟩
  · exact .inr ⟨c, hd hc, hread⟩

theorem links (hlinks : Links front k k') : k'.Announced i conn := by
  induction hlinks with
  | refl => exact h
  | tail _ hlink ih =>
    exact ih.keeps hlink.keeps hlink.queued (by rw [hlink.delivered]; exact List.Subset.refl _)

theorem setState (st : TState) : (k.setState st).Announced i conn := h

/-- The first message leaves the queue: it is another one, or it has been read. -/
theorem dropHead (hk : k.dropHead = .ok k')
    (hhead : ∀ n ∈ k.priv.pfirst.bind k.heap, n.serial = i → n.announces = some conn →
      ∃ c ∈ k.delivered, c.serial = i ∧ c.ret = 0) :
    k'.Announced i conn := by
  refine ⟨by rw [dropHead_queued hk]; exact h.1, ?_⟩
  rw [dropHead_delivered hk]
  rcases h.2 with ⟨l, hl, a, ha, n, hn, hserial, hconn⟩ | hdone
  · obtain ⟨b, l, rfl, hl1, -, -, -, hheap⟩ := hl.dropped hk
    rcases List.mem_cons.mp ha with rfl | ha
    · refine .inr (hhead n ?_ hserial hconn)
      rw [hl.first]
      exact hn
    · refine .inl ⟨l, hl1, a, ha, n, ?_, hserial, hconn⟩
      rw [hheap]
      exact (update_agree (List.nodup_cons.mp hl.chain.nodup).1 a ha).trans hn
  · exact .inr hdone

theorem gets {c : GetArgs} {r : Int} (hg : Gets c k r k') : k'.Announced i conn := by
  cases hg with
  | quiet => exact h
  | @piece a it k' hmax hfirst hit hk =>
    have hout : (k.handOut a it (c.take it.length)).Announced i conn :=
      h.keeps (.handOut hfirst hit _) List.prefix_rfl (List.subset_append_left ..)
    rcases takeChunk_ok hk with ⟨-, rfl⟩ | ⟨hlast, hk⟩
    · exact hout
    · -- the piece that ends the message has just been handed out
      refine hout.dropHead hk fun n hn hserial _ => ?_
      have hhead : (k.handOut a it (c.take it.length)).heap a =
          some { it with length := it.length - c.take it.length } := Function.update_self ..
      obtain rfl : _ = n := Option.some.inj
        ((show Option.bind (some a) _ = _ from hhead).symm.trans (hfirst ▸ hn))
      exact ⟨_, List.mem_append_right _ (List.mem_singleton_self _), hserial, if_neg hlast⟩

end

end Core.Announced

end Announced

/-! ## The ledger -/

/-- The descriptor `accept` has returned. -/
def Look.conn (l : Look) : Word := BitVec.ofInt 32 (l.env.socket .accept).result

/-- A connection that was accepted, and how many messages had been queued and how many
descriptor calls made by then. -/
structure Accepted where
  conn : Word
  msg : Nat
  call : Nat
  deriving DecidableEq, Repr

/-- The connection a look accepts. -/
def Look.accepted (l : Look) : Option Accepted :=
  if callsAccept l.env l.sys ∧ ¬ (l.env.socket .accept).result < 0 then
    some ⟨l.conn, l.sys.queued.length, l.sys.fdOps.length⟩
  else none

/-- The connection is announced, or its descriptor has been closed since. -/
def Accepted.Safe (a : Accepted) (s : Sys) : Prop :=
  s.toCore.Announced a.msg a.conn ∨ FdOp.close a.conn ∈ s.fdOps.drop a.call

/-- A file, with the blocks and the connections its endpoint has been given. -/
structure Ledger where
  file : File
  blocks : List Addr
  accepted : List Accepted

namespace Ledger

def step (op : FileOp) (l : Ledger) : Except Fault (Int × Ledger) :=
  match op.step l.file with
  | .error fault => .error fault
  | .ok (r, g) =>
    .ok (r, ⟨g, l.blocks ++ (op.made l.file).map (·.block.addr),
      l.accepted ++ (op.looks l.file).filterMap Look.accepted⟩)

/-- Nothing is lost. -/
structure Clean (l : Ledger) : Prop where
  blocks : ∀ a ∈ l.blocks,
    l.file.sys.heap a = none ∨ ∃ q, l.file.sys.toCore.Holds q ∧ a ∈ q
  connections : ∀ c ∈ l.accepted, c.Safe l.file.sys

end Ledger

/-- What is promised of an operation that returns. -/
structure NothingLeaks (op : FileOp) (l : Ledger) : Prop where
  /-- Nothing is lost afterwards. -/
  clean : ∀ r l', l.step op = .ok (r, l') → l'.Clean
  /-- A descriptor that `timod_update_socket` returns has not been closed. -/
  returns : ∀ x, op.step l.file = .ok x → ∀ k ∈ op.looks l.file, k.accepted ≠ none → 0 ≤ k.ret →
    FdOp.close k.conn ∉ fdCalls k.sys k.after
  /-- The log of the blocks is that of the model. -/
  account : ∀ r g, op.step l.file = .ok (r, g) →
    Account (op.made l.file) l.file.sys.toCore g.sys.toCore
  /-- And so is the log of the looks. -/
  proceeds : ∀ r g, op.step l.file = .ok (r, g) →
    Proceeds (op.looks l.file) (op.discards l.file) (requested op.request l.file.sys) g.sys

/-- No copy faults while a node is made, and there is memory for every `T_CONN_IND`. -/
def FileOp.Frugal (op : FileOp) (f : File) : Prop :=
  ∀ x, op.step f = .ok x → (∀ m ∈ op.made f, m.recipe.linked = true) ∧
    ∀ k ∈ op.looks f, k.accepted ≠ none → k.made ≠ []

/-- `TI_OPTMGMT` throws no announcement away. -/
def FileOp.KeepsNews (op : FileOp) (f : File) : Prop := ∀ n ∈ op.discards f, n.announces = none

section Strays

variable {k : Core} {S : Set Addr} {a : Addr} {q : List Addr}

theorem Core.Holds.strays (h : k.Holds q) : k.Strays {a | k.heap a ≠ none ∧ a ∉ q} :=
  ⟨q, h, fun _ => Iff.rfl⟩

/-- A block outside the queue is one that is neither free nor in it. -/
theorem Core.Strays.settled_iff (h : k.Strays S) :
    (k.heap a = none ∨ ∃ q, k.Holds q ∧ a ∈ q) ↔ a ∉ S := by
  obtain ⟨q, hq, hS⟩ := h
  rw [hS]
  constructor
  · rintro (hfree | ⟨q', hq', ha⟩) ⟨hlive, hnot⟩
    · exact hlive hfree
    · obtain rfl := hq.chain.unique hq'.chain
      exact hnot ha
  · intro hnot
    by_cases hfree : k.heap a = none
    · exact .inl hfree
    · exact .inr ⟨q, hq, by_contra fun ha => hnot ⟨hfree, ha⟩⟩

end Strays

/-! ## One look -/

section Looks

variable {l : Look} {a : Accepted}

theorem Look.accepted_some (h : l.accepted = some a) :
    (callsAccept l.env l.sys ∧ ¬ (l.env.socket .accept).result < 0) ∧
      a = ⟨l.conn, l.sys.queued.length, l.sys.fdOps.length⟩ := by
  unfold Look.accepted at h
  split at h
  next hcall => exact ⟨hcall, (Option.some.inj h).symm⟩
  · exact nomatch h

/-- Without memory the connection is closed, and its number returned. -/
theorem Look.closes (h : l.accepted = some a) (hmade : l.made = []) :
    0 ≤ l.ret ∧ FdOp.close l.conn ∈ fdCalls l.sys l.after := by
  obtain ⟨hcall, -⟩ := l.accepted_some h
  unfold Look.made updateMade at hmade
  rw [if_pos hcall] at hmade
  have hupdates := l.updates
  generalize l.ret = ret, l.after = t at hupdates
  cases hupdates with
  | quiet hno => exact absurd hcall.1 hno
  | refused _ hres => exact absurd hres hcall.2
  | dropped =>
    refine ⟨not_lt.mp hcall.2, ?_⟩
    unfold fdCalls
    rw [List.drop_left]
    exact List.mem_singleton_self _
  | fault _ _ hb | announced _ _ hb =>
    rw [hb] at hmade
    exact nomatch hmade

/-- With memory and a copy that does not fault it is announced, and stays open. -/
theorem Look.announces (hq : ∃ q, l.sys.toCore.Holds q) (h : l.accepted = some a)
    (hmade : l.made ≠ []) (hlinked : ∀ m ∈ l.made, m.recipe.linked = true) :
    l.after.toCore.Announced a.msg a.conn ∧ FdOp.close l.conn ∉ fdCalls l.sys l.after := by
  obtain ⟨hcall, rfl⟩ := l.accepted_some h
  unfold Look.made updateMade at hmade hlinked
  rw [if_pos hcall] at hmade hlinked
  have hupdates := l.updates
  generalize l.ret = ret, l.after = t at hupdates
  cases hupdates with
  | quiet hno => exact absurd hcall.1 hno
  | refused _ hres => exact absurd hres hcall.2
  | dropped _ _ hb =>
    rw [hb] at hmade
    exact absurd rfl hmade
  | fault _ _ hb hcopy =>
    rw [hb, hcopy] at hlinked
    exact nomatch hlinked _ (List.mem_singleton_self _)
  | @announced b k addr _ _ hb _ =>
    obtain ⟨q, hq⟩ := hq
    obtain ⟨hq', hnot⟩ := hq.alloc hb
    have hannounces := connInd_announces b (peerLength l.env l.fd l.sys)
      (l.env.socket .accept).result addr k k.priv.pfirst
    refine ⟨⟨⟨_, ?_, hannounces⟩, .inl ⟨_, hq'.pushFront hnot, b.addr, List.mem_cons_self ..,
      _, Function.update_self .., ?_, hannounces⟩⟩, ?_⟩
    · rw [← timodMkctl_queued hb]
      exact List.getElem?_concat_length
    · exact congrArg List.length (timodMkctl_queued hb)
    · show _ ∉ List.drop l.sys.fdOps.length l.sys.fdOps
      rw [List.drop_length]
      exact List.not_mem_nil

theorem Look.after_calls (l : Look) : l.sys.fdOps <+: l.after.fdOps := by
  have hupdates := l.updates
  generalize l.ret = ret, l.after = t at hupdates
  cases hupdates with
  | quiet | refused | fault | announced => exact List.prefix_rfl
  | dropped => exact List.prefix_append ..

theorem Look.after_links (l : Look) : Links true l.sys.toCore l.after.toCore :=
  timodUpdateSocket_links l.fd fun _ => rfl

end Looks

/-! ## One operation -/

section Steps

variable {s t : Sys} {a : Accepted}

theorem Accepted.Safe.later (h : a.Safe s)
    (hann : s.toCore.Announced a.msg a.conn → t.toCore.Announced a.msg a.conn)
    (hcalls : s.fdOps <+: t.fdOps) : a.Safe t := by
  rcases h with h | h
  · exact .inl (hann h)
  · exact .inr ((hcalls.drop a.call).subset h)

theorem doPutmsg_safe {e : Env} {c : PutArgs} {r : Int} (h : doPutmsg e c s = .ok (r, t))
    (ha : a.Safe s) : a.Safe t := by
  obtain ⟨st, -, hlinks⟩ := doPutmsg_requests h
  exact ha.later (fun hann => (hann.setState st).links hlinks) (doPutmsg_calls h)

section

variable {ls : List Look} {ds : List TPrimsg} (h : Proceeds ls ds s t) (hq : ∃ q, s.toCore.Holds q)

include h hq

theorem Proceeds.holds : ∃ q, t.toCore.Holds q := by
  obtain ⟨q, hq⟩ := hq
  obtain ⟨q', hq', -⟩ := h.account.strays _ hq.strays
  exact ⟨q', hq'⟩

/-- What was safe stays so, and what is accepted on the way is safe, too. -/
theorem Proceeds.safe (hds : ∀ n ∈ ds, n.announces = none)
    (hlinked : ∀ l ∈ ls, ∀ m ∈ l.made, m.recipe.linked = true)
    (hmade : ∀ l ∈ ls, l.accepted ≠ none → l.made ≠ []) :
    (∀ a : Accepted, a.Safe s → a.Safe t) ∧ ∀ l ∈ ls, ∀ a ∈ l.accepted, a.Safe t := by
  induction h with
  | same hcore hfd =>
    refine ⟨fun a ha => ha.later (fun hann => hcore ▸ hann) (hfd ▸ List.prefix_rfl), ?_⟩
    exact fun _ hl => nomatch hl
  | state hcore hfd =>
    refine ⟨fun a ha => ha.later (fun hann => hcore ▸ hann.setState _) (hfd ▸ List.prefix_rfl), ?_⟩
    exact fun _ hl => nomatch hl
  | piece h hfd =>
    refine ⟨fun a ha => ha.later (fun hann => hann.gets h) (hfd ▸ List.prefix_rfl), ?_⟩
    exact fun _ hl => nomatch hl
  | drop h hfd =>
    refine ⟨fun a ha => ha.later (fun hann => hann.dropHead h fun n hn _ hconn => ?_)
      (hfd ▸ List.prefix_rfl), fun _ hl => nomatch hl⟩
    rw [hds n (Option.mem_toList.mpr hn)] at hconn
    exact nomatch hconn
  | look l =>
    refine ⟨fun a ha => ha.later (fun hann => hann.links l.after_links) l.after_calls, ?_⟩
    refine List.forall_mem_singleton.mpr fun a ha => .inl ?_
    have hmem := List.mem_singleton_self l
    exact (l.announces hq ha (hmade l hmem (ha ▸ Option.some_ne_none a)) (hlinked l hmem)).1
  | trans h h' ih ih' =>
    obtain ⟨hds1, hds2⟩ := List.forall_mem_append.mp hds
    obtain ⟨hlinked1, hlinked2⟩ := List.forall_mem_append.mp hlinked
    obtain ⟨hmade1, hmade2⟩ := List.forall_mem_append.mp hmade
    obtain ⟨hold1, hnew1⟩ := ih hq hds1 hlinked1 hmade1
    obtain ⟨hold2, hnew2⟩ := ih' (h.holds hq) hds2 hlinked2 hmade2
    refine ⟨fun a ha => hold2 a (hold1 a ha), List.forall_mem_append.mpr ⟨?_, hnew2⟩⟩
    exact fun l hl a ha => hold2 a (hnew1 l hl a ha)

end

end Steps

section Ledger

variable {op : FileOp} {l l' : Ledger} {r : Int}

theorem Ledger.step_ok (h : l.step op = .ok (r, l')) :
    op.step l.file = .ok (r, l'.file) ∧
      l'.blocks = l.blocks ++ (op.made l.file).map (·.block.addr) ∧
      l'.accepted = l.accepted ++ (op.looks l.file).filterMap Look.accepted := by
  unfold Ledger.step at h
  cases hop : op.step l.file with
  | error fault =>
    rw [hop] at h
    exact nomatch h
  | ok x =>
    rw [hop] at h
    exact of_ok h ⟨rfl, rfl, rfl⟩

theorem Ledger.step_of {g : File} (h : op.step l.file = .ok (r, g)) :
    l.step op = .ok (r, ⟨g, l.blocks ++ (op.made l.file).map (·.block.addr),
      l.accepted ++ (op.looks l.file).filterMap Look.accepted⟩) := by
  unfold Ledger.step
  rw [h]

/-- All nodes of the request and of the looks are finished. -/
theorem linked_looks {f : File} (h : ∀ m ∈ op.made f, m.recipe.linked = true) :
    ∀ k ∈ op.looks f, ∀ m ∈ k.made, m.recipe.linked = true :=
  fun k hk m hm => h m (List.mem_append_right _ (List.mem_flatMap.mpr ⟨k, hk, hm⟩))

theorem lost_eq_empty {ms : List Making} (h : ∀ m ∈ ms, m.recipe.linked = true) : lost ms = ∅ := by
  ext a
  refine iff_of_false ?_ id
  rintro ⟨m, hm, hlost, -⟩
  rw [h m hm] at hlost
  exact nomatch hlost

/-- The blocks after an operation that finishes its nodes. -/
theorem FileOp.Frugal.blocks (hfrugal : op.Frugal l.file) (hq : ∃ q, l.file.sys.toCore.Holds q)
    (hl : l.Clean) (h : l.step op = .ok (r, l')) :
    ∀ a ∈ l'.blocks, l'.file.sys.heap a = none ∨ ∃ q, l'.file.sys.toCore.Holds q ∧ a ∈ q := by
  obtain ⟨hop, hblocks, -⟩ := Ledger.step_ok h
  obtain ⟨q, hq⟩ := hq
  have haccount := fileStep_account hop
  have hstrays := haccount.strays _ hq.strays
  rw [lost_eq_empty (hfrugal _ hop).1, Set.union_empty] at hstrays
  intro a ha
  rw [hstrays.settled_iff]
  rw [hblocks, List.mem_append] at ha
  rcases ha with ha | ha
  · exact hq.strays.settled_iff.mp (hl.blocks a ha)
  · obtain ⟨m, hm, rfl⟩ := List.mem_map.mp ha
    exact haccount.fresh _ hq.strays m hm

/-- The request of an operation. -/
theorem requested_safe {f g : File} (h : op.step f = .ok (r, g))
    (hq : ∃ q, f.sys.toCore.Holds q) :
    (∃ q, (requested op.request f.sys).toCore.Holds q) ∧
      ∀ c : Accepted, c.Safe f.sys → c.Safe (requested op.request f.sys) := by
  cases hreq : op.request with
  | none => exact ⟨hq, fun c => id⟩
  | some x =>
    obtain ⟨ret, u, hput⟩ := fileStep_request h hreq
    unfold requested
    dsimp only
    rw [hput]
    obtain ⟨q, hq⟩ := hq
    obtain ⟨q', hq', -⟩ := (doPutmsg_account hput).strays _ hq.strays
    exact ⟨⟨q', hq'⟩, fun c hc => doPutmsg_safe hput hc⟩

/-- The connections after it. -/
theorem FileOp.Frugal.connections (hfrugal : op.Frugal l.file) (hnews : op.KeepsNews l.file)
    (hq : ∃ q, l.file.sys.toCore.Holds q) (hl : l.Clean) (h : l.step op = .ok (r, l')) :
    ∀ c ∈ l'.accepted, c.Safe l'.file.sys := by
  obtain ⟨hop, -, haccepted⟩ := Ledger.step_ok h
  obtain ⟨hlinked, hmade⟩ := hfrugal _ hop
  obtain ⟨hq', hrequest⟩ := requested_safe hop hq
  obtain ⟨hold, hnew⟩ := (fileStep_proceeds hop).safe hq' hnews (linked_looks hlinked) hmade
  intro c hc
  rw [haccepted, List.mem_append] at hc
  rcases hc with hc | hc
  · exact hold c (hrequest c (hl.connections c hc))
  · obtain ⟨k, hk, ha⟩ := List.mem_filterMap.mp hc
    exact hnew k hk c ha

/-- Where a look of the operation stands, the queue is in order. -/
theorem Proceeds.look_holds {ls : List Look} {ds : List TPrimsg} {s t : Sys}
    (h : Proceeds ls ds s t) (hq : ∃ q, s.toCore.Holds q) :
    ∀ k ∈ ls, ∃ q, k.sys.toCore.Holds q := by
  induction h with
  | look k => exact List.forall_mem_singleton.mpr hq
  | trans h _ ih ih' => exact List.forall_mem_append.mpr ⟨ih hq, ih' (h.holds hq)⟩
  | _ => exact fun _ hk => nomatch hk

theorem nothingLeaks_iff (hnews : op.KeepsNews l.file) (hq : ∃ q, l.file.sys.toCore.Holds q)
    (hl : l.Clean) : NothingLeaks op l ↔ op.Frugal l.file := by
  constructor
  · rintro h ⟨r, g⟩ hop
    have hlinked : ∀ m ∈ op.made l.file, m.recipe.linked = true := by
      intro m hm
      by_contra hbroken
      obtain ⟨q, hq⟩ := hq
      have hsettled := (h.clean _ _ (Ledger.step_of hop)).blocks m.block.addr
        (List.mem_append_right _ (List.mem_map_of_mem hm))
      have hstrays := (fileStep_account hop).strays _ hq.strays
      exact hstrays.settled_iff.mp hsettled (.inr ⟨m, hm, Bool.eq_false_iff.mpr hbroken, rfl⟩)
    refine ⟨hlinked, fun k hk haccepted hmade => ?_⟩
    obtain ⟨a, ha⟩ := Option.ne_none_iff_exists'.mp haccepted
    obtain ⟨hret, hclosed⟩ := k.closes ha hmade
    exact h.returns _ hop k hk haccepted hret hclosed
  · intro hfrugal
    refine ⟨fun r l' hstep => ?_, fun x hop k hk haccepted _ => ?_, fun r g => fileStep_account,
      fun r g => fileStep_proceeds⟩
    · exact ⟨hfrugal.blocks hq hl hstep, hfrugal.connections hnews hq hl hstep⟩
    · obtain ⟨hlinked, hmade⟩ := hfrugal x hop
      obtain ⟨a, ha⟩ := Option.ne_none_iff_exists'.mp haccepted
      have hholds := (fileStep_proceeds hop).look_holds (requested_safe hop hq).1 k hk
      exact (k.announces hholds ha (hmade k hk haccepted) (linked_looks hlinked k hk)).2

end Ledger

/-! ## Runs -/

theorem Sys.Empty.holds {s : Sys} (hs : s.Empty) : ∃ q, s.toCore.Holds q := by
  obtain ⟨hfirst, hlast, -⟩ := hs
  refine ⟨[], ?_⟩
  show Queue TPrimsg.next s.heap s.priv.pfirst s.priv.plast []
  rw [hfirst, hlast]
  exact Queue.empty

/-- In a run in which no announcement is thrown away, nothing is ever lost and no closed
descriptor returned exactly if every copy into a node succeeds and there is memory for every
announcement. -/
theorem nothing_leaks_iff (ops : List FileOp) (f : File) (hf : f.sys.Empty)
    (hops : Along Ledger.step (fun op l => op.KeepsNews l.file) ops ⟨f, [], []⟩) :
    Along Ledger.step NothingLeaks ops ⟨f, [], []⟩ ↔
      Along Ledger.step (fun op l => op.Frugal l.file) ops ⟨f, [], []⟩ := by
  have hstart : Ledger.Clean ⟨f, [], []⟩ := by
    refine ⟨?_, ?_⟩
    · exact nofun
    · exact nofun
  refine along_iff_of_inv (I := fun l => l.Clean ∧ ∃ q, l.file.sys.toCore.Holds q) ?_ ?_ hops
    ⟨hstart, hf.holds⟩
  · rintro op l r l' - ⟨-, q, hq⟩ hleaks hstep
    obtain ⟨q', hq', -⟩ := (fileStep_account (Ledger.step_ok hstep).1).strays _ hq.strays
    exact ⟨hleaks.clean r l' hstep, q', hq'⟩
  · rintro op l hnews ⟨hclean, hq⟩
    exact nothingLeaks_iff hnews hq hclean

/-- A stream with a peer that connects as descriptor 5, and a block for its announcement. -/
def listening : Env :=
  { plainEnv with
    stream := true
    ctlAlloc := some (freeBlock 1)
    socket := fun _ => ⟨5, id⟩ }

/-- An endpoint that waits for connections. -/
def listener (request : List Word) : Ledger := ⟨socketWith (endpoint .wresCind request), [], []⟩

/-- A connection is accepted, and its announcement read. -/
def acceptThenRead : List FileOp := [.op (.updateSocket listening 3), .op (readSome 64)]

theorem accepted_connection_kept :
    (endpoint .wresCind []).Empty ∧
    Along Ledger.step (fun op l => op.KeepsNews l.file) acceptThenRead (listener []) ∧
    Along Ledger.step NothingLeaks acceptThenRead (listener []) := by
  have hempty : (endpoint .wresCind []).Empty := ⟨rfl, rfl, rfl, rfl, rfl⟩
  have hnews : Along Ledger.step (fun op l => op.KeepsNews l.file) acceptThenRead (listener []) :=
    ⟨nofun, fun _ _ _ =>
      ⟨nofun, fun _ _ _ => trivial⟩⟩
  refine ⟨hempty, hnews, (nothing_leaks_iff _ _ hempty hnews).mpr ⟨?_, fun _ l _ => ⟨?_, ?_⟩⟩⟩
  · intro x _
    refine ⟨by decide +kernel, List.forall_mem_singleton.mpr fun _ hnone => ?_⟩
    exact absurd (congrArg List.length hnone) (by decide +kernel)
  · intro x _
    have hmade : (FileOp.op (readSome 64)).made l.file = [] := by
      unfold FileOp.made
      rw [looks_made_plain (readSome_looks 64 l.file)]
      rfl
    refine ⟨?_, fun k hk haccepted => absurd (if_neg fun hcall => ?_) haccepted⟩
    · rw [hmade]
      exact nofun
    · have hstream : k.env.stream = true := hcall.1.1
      rw [readSome_looks 64 l.file k hk] at hstream
      exact nomatch hstream
  · exact fun _ _ _ => trivial

/-- The queue is empty and the block is not free. -/
theorem Ledger.Clean.not_of_stray {l : Ledger} {a : Addr} (ha : a ∈ l.blocks)
    (hfirst : l.file.sys.priv.pfirst = none) (hlive : (l.file.sys.heap a).isSome = true) :
    ¬ l.Clean := by
  intro h
  rcases h.blocks a ha with hfree | ⟨q, hq, hmem⟩
  · rw [hfree] at hlive
    exact nomatch hlive
  · rw [hq.chain.null_iff.mp hfirst] at hmem
    exact nomatch hmem

/-- The queue is empty, no message has been read to its end and no descriptor closed. -/
theorem Ledger.Clean.not_of_unread {l : Ledger} {c : Accepted} (hc : c ∈ l.accepted)
    (hfirst : l.file.sys.priv.pfirst = none) (hread : ∀ x ∈ l.file.sys.delivered, x.ret ≠ 0)
    (hcalls : l.file.sys.fdOps = []) : ¬ l.Clean := by
  intro h
  rcases h.connections c hc with ⟨-, ⟨q, hq, a, ha, -⟩ | ⟨x, hx, -, hret⟩⟩ | hclosed
  · rw [hq.chain.null_iff.mp hfirst] at ha
    exact nomatch ha
  · exact hread x hx hret
  · rw [hcalls, List.drop_nil] at hclosed
    exact nomatch hclosed

/-- `TI_OPTMGMT` with a buffer of four bytes. -/
def shortOptmgmt : FileOp :=
  .op (.ioctl ⟨plainEnv, plainEnv, plainEnv, plainEnv, ⟨0, id⟩, ⟨0, id⟩⟩
    ⟨3, 101, 0x1000, 4, 0x3000⟩)

/-- The address of the peer cannot be read: node and connection are lost, and so is the node
of a bind request whose end cannot be read. Without memory for its node the connection is
closed, and its descriptor returned. And `TI_OPTMGMT` fetches four bytes of an announcement
and frees the rest, with the number of the connection. -/
theorem accepted_connection_lost :
    (∃ r l, (listener []).step
        (.op (.updateSocket { listening with readable := fun a => a.toNat < 0x7c10 } 3)) =
          .ok (r, l) ∧ ¬ l.Clean) ∧
    (∃ r l, Ledger.step
        (.op (.putmsg
          { plainEnv with
            readable := fun a => a.toNat < 0x1010
            ctlAlloc := some (freeBlock 1) } (putAt 20)))
        ⟨socketWith (endpoint .unbnd [T_BIND_REQ]), [], []⟩ = .ok (r, l) ∧ ¬ l.Clean) ∧
    ¬ NothingLeaks (.op (.updateSocket { listening with ctlAlloc := none } 3)) (listener []) ∧
    (∃ l, run Ledger.step [.op (.updateSocket listening 3), shortOptmgmt] (listener [T_DATA_REQ]) =
      .ok l ∧ ¬ l.Clean) := by
  refine ⟨⟨_, _, rfl, ?_⟩, ⟨_, _, rfl, ?_⟩, fun h => ?_, _, rfl, ?_⟩
  · exact Ledger.Clean.not_of_stray (a := 1) (by decide +kernel) rfl (by decide +kernel)
  · exact Ledger.Clean.not_of_stray (a := 1) (by decide +kernel) rfl (by decide +kernel)
  · exact absurd (h.returns _ rfl _ (.head _) (by decide) (by decide +kernel)) (by decide +kernel)
  · exact Ledger.Clean.not_of_unread (c := ⟨5, 0, 0⟩) (by decide +kernel) rfl
      (by decide +kernel) rfl

end AbiEmu.Xti
