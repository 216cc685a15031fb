import Mathlib.Data.Set.Insert
import AbiEmu.Lib.Span
import AbiEmu.Xti.Calls
import AbiEmu.Xti.OptLog
import AbiEmu.Xti.QueueInv

/-!
# The nodes an operation makes

A message node is a block of `kmalloc`: the header of `struct T_primsg` and the bytes
of the message from `type` on, twelve bytes further. The model has what a node holds
in the end; it says nothing about the single stores, and nothing about the size of the
block.

A `Recipe` is one way the code makes a node: the length it asks for and its stores in
their order, as far as the function gets when a copy of user memory faults. `FileOp.made`
is the log of the nodes an operation makes: those of its request, then those of its looks
for a connection. `fileStep_account` ties it to the model: what enters the queue are the
nodes that the recipes give, and a block is neither free nor in the queue afterwards only
if that was so before or its recipe was broken off.
-/

namespace AbiEmu.Xti

/-! ## Nodes and their stores -/

/-- A store into a node. -/
inductive NodeStore where
  | next
  | pri (p : Byte)
  | length (n : Int)
  | data (off : Nat) (bytes : List Byte)

/-- The bytes of the block it goes to. -/
def NodeStore.span : NodeStore → Span
  | next => ⟨0, 4⟩
  | pri _ => ⟨4, 1⟩
  | length _ => ⟨8, 4⟩
  | data off bytes => ⟨12 + off, bytes.length⟩

/-- What it does to the node; the link is made when the node enters the queue. -/
def NodeStore.apply (n : TPrimsg) : NodeStore → TPrimsg
  | next => n
  | pri p => { n with pri := p }
  | length len => { n with length := len }
  | data off bytes => { n with body := overlay n.body off bytes }

/-- The ways to make a node. Where the message is copied from user memory, `none` is a
copy that faults. -/
inductive Recipe where
  | ack (words : List Word)
  | discon (words : List Word)
  | bindAck (ctlLen : Int) (req : Option (List Byte))
  | connCon (ctlLen : Int) (req : Option (List Byte))
  | connInd (alen : Word) (conn : Int) (addr : Option (List Byte))
  | optAck (flag retLen : Word) (reply : Option (List Byte))

namespace Recipe

/-- The argument of `timod_mkctl`. -/
def len : Recipe → Int
  | ack words => 4 * words.length
  | discon words => 4 * words.length
  | bindAck ctlLen _ => ctlLen
  | connCon ctlLen _ => ctlLen
  | connInd alen _ _ => 24 + alen.toNat
  | optAck _ retLen _ => 16 + retLen.toInt

/-- The stores. -/
def stores : Recipe → List NodeStore
  | ack words =>
    [.data 0 (words.flatMap Word.bytes), .pri MSG_HIPRI, .length (4 * words.length), .next]
  | discon words => [.length (4 * words.length), .data 0 (words.flatMap Word.bytes), .pri 0, .next]
  | bindAck _ none => []
  | bindAck ctlLen (some req) =>
    [.data 0 req, .data 0 T_BIND_ACK.bytes, .pri MSG_HIPRI, .length ctlLen, .next]
  | connCon ctlLen none => [.length ctlLen]
  | connCon ctlLen (some req) =>
    [.length ctlLen, .data 0 req, .data 0 T_CONN_CON.bytes, .pri 0, .next]
  -- the priority of a connection indication is never set
  | connInd alen conn addr =>
    .data 0 ([T_CONN_IND, alen, 24, 0, 0, BitVec.ofInt 32 conn].flatMap Word.bytes) ::
      match addr with
      | none => []
      | some addr => [.data 24 addr, .length (24 + alen.toInt), .next]
  | optAck flag retLen reply =>
    .data 0 ([T_OPTMGMT_ACK, retLen, 16, flag].flatMap Word.bytes) ::
      match reply with
      | none => []
      | some reply => [.data 16 reply, .pri MSG_HIPRI, .length (16 + retLen.toInt), .next]

/-- The node is finished, and goes to the queue. -/
def linked : Recipe → Bool
  | ack _ => true
  | discon _ => true
  | bindAck _ req => req.isSome
  | connCon _ req => req.isSome
  | connInd _ _ addr => addr.isSome
  | optAck _ _ reply => reply.isSome

end Recipe

/-- A block, and what is made of it. -/
structure Making where
  block : Block
  recipe : Recipe

namespace Making

/-- The size of the block. -/
def size (m : Making) : Nat := ((12 + m.recipe.len) % 2 ^ 32).toNat

/-- The node after all stores. -/
def node (m : Making) : TPrimsg := m.recipe.stores.foldl NodeStore.apply m.block.junk

end Making

/-! ## The logs -/

/-- The node of `timod_ok` or `timod_error`. -/
def Core.madeWords (k : Core) (alloc : Option Block) (words : List Word) : List Making :=
  match k.timodMkctl alloc (4 * words.length) with
  | none => []
  | some (b, _) => [⟨b, .ack words⟩]

section Logs

variable (e : Env)

def okMade (prim : Word) (k : Core) : List Making := k.madeWords e.ackAlloc [T_OK_ACK, prim]

def errorMade (prim : Word) (terr uerr : Int) (k : Core) : List Making :=
  k.madeWords e.ackAlloc [T_ERROR_ACK, prim, BitVec.ofInt 32 terr,
    BitVec.ofInt 32 (Lcall7.iABIErrors e.personality uerr)]

/-- The log of `bindReply`. -/
def bindReplyMade (c : PutArgs) (error : Int) (s : Sys) : List Making :=
  let refuse := errorMade e T_BIND_REQ (bindErrors error).1 (bindErrors error).2 s.toCore
  if error ≠ 0 then refuse
  else
    match s.timodMkctl e.ctlAlloc c.ctlLen with
    | none => refuse
    | some (b, k) =>
      match copyFromUser e s c.ctlBuf c.ctlLen with
      | none => [⟨b, .bindAck c.ctlLen none⟩]
      | some req => okMade e T_BIND_REQ k ++ [⟨b, .bindAck c.ctlLen (some req)⟩]

/-- The log of `T_BIND_REQ`. -/
def bindMade (c : PutArgs) (s : Sys) : List Making :=
  if ¬ e.verify false c.ctlBuf 16 then []
  else if s.priv.state ≠ .unbnd then errorMade e T_BIND_REQ TOUTSTATE 0 s.toCore
  else
    let tsp := s.esp - 1024
    if ¬ e.verify true tsp 12 then errorMade e T_BIND_REQ TSYSERR EFAULT s.toCore
    else if (copyFromUser e s c.ctlBuf 16).isNone then []
    else
      let addrLen := s.mem.word (c.ctlBuf + 4)
      let addrOff := s.mem.word (c.ctlBuf + 8)
      let conind := s.mem.word (c.ctlBuf + 12)
      let s1 := { s with esp := tsp }
      let r :=
        if addrOff ≠ 0 ∧ addrLen ≠ 0 then bindAddress e c tsp addrLen addrOff conind s1 else (0, s1)
      bindReplyMade e c r.1 { r.2 with esp := s.esp }

/-- The log of `connReply`. -/
def connReplyMade (c : PutArgs) (error : Int) (s : Sys) : List Making :=
  if error = 0 then
    match s.timodMkctl e.ctlAlloc c.ctlLen with
    | none => []
    | some (b, k) =>
      match copyFromUser e s c.ctlBuf c.ctlLen with
      | none => [⟨b, .connCon c.ctlLen none⟩]
      | some req =>
        okMade e T_CONN_REQ (k.setState .dataXfer) ++ [⟨b, .connCon c.ctlLen (some req)⟩]
  else
    match s.timodMkctl e.ctlAlloc 12 with
    | none => []
    | some (b, k) =>
      okMade e T_CONN_REQ k ++
        [⟨b, .discon [T_DISCON_IND,
          BitVec.ofInt 32 (Lcall7.iABIErrors e.personality (-error)), 0]⟩]

/-- The log of `T_CONN_REQ`. -/
def connMade (c : PutArgs) (s : Sys) : List Making :=
  if ¬ e.verify false c.ctlBuf 20 then []
  else if s.priv.state ≠ .unbnd ∧ s.priv.state ≠ .idle then
    errorMade e T_CONN_REQ TOUTSTATE 0 s.toCore
  else
    let tsp := s.esp - 1024
    if ¬ e.verify true tsp 12 then errorMade e T_CONN_REQ TSYSERR EFAULT s.toCore
    else if (copyFromUser e s c.ctlBuf 20).isNone then []
    else
      let destLen := s.mem.word (c.ctlBuf + 4)
      let destOff := s.mem.word (c.ctlBuf + 8)
      let r := connectCall e (connectArgs e c tsp destLen destOff { s with esp := tsp })
      connReplyMade e c r.1 { r.2 with esp := s.esp }

/-- The log of `T_CONN_RES`. -/
def connResMade (c : PutArgs) (s : Sys) : List Making :=
  match getUser e s (c.ctlBuf + 16) with
  | none => []
  | some connFd =>
    if connFd = c.flags then okMade e T_CONN_RES s.toCore
    else if e.dup2 < 0 then []
    else if c.flags = c.fd then []
    else okMade e T_CONN_RES s.toCore

/-- The log of `T_UNITDATA_REQ`. -/
def unitdataMade (c : PutArgs) (s : Sys) : List Making :=
  if ¬ e.verify false c.ctlBuf 20 then []
  else if s.priv.state ≠ .idle ∧ s.priv.state ≠ .dataXfer then
    errorMade e T_UNITDATA_REQ TOUTSTATE 0 s.toCore
  else if ¬ e.verify true (s.esp - 1024) 24 then
    errorMade e T_UNITDATA_REQ TSYSERR EFAULT s.toCore
  else []

/-- The log of `optAck`. -/
def optAckMade (flag retBase retLen : Word) (s : Sys) : List Making :=
  match s.timodMkctl e.ctlAlloc (16 + retLen.toInt) with
  | none => []
  | some (b, _) => [⟨b, .optAck flag retLen (copyFromUser e s retBase retLen.toInt)⟩]

/-- The log of `timod_optmgmt`. -/
def optmgmtMade (fd flag optBuf optLen : Word) (doRet : Bool) (s : Sys) : List Making :=
  if optBorrows e optBuf optLen doRet s then
    match optRun e fd flag optBuf optLen s with
    | .ok (.done failed error _ u) =>
      if ¬ doRet then []
      else if failed ≠ 0 then errorMade e T_OPTMGMT_REQ failed (-error) u.toCore
      else
        optAckMade e flag (s.esp - retSpace optLen)
          (replyLen e fd flag (s.esp - retSpace optLen - 24)
            (optmgmtRounds e fd flag optBuf optLen doRet s)) u
    | _ => []
  else []

/-- The log of `T_OPTMGMT_REQ`. -/
def optmgmtReqMade (c : PutArgs) (s : Sys) : List Making :=
  if ¬ e.verify false c.ctlBuf 16 then []
  else if (copyFromUser e s c.ctlBuf 16).isNone then []
  else
    let optLen := s.mem.word (c.ctlBuf + 4)
    let optOff := s.mem.word (c.ctlBuf + 8)
    let flags := s.mem.word (c.ctlBuf + 12)
    optmgmtMade e c.fd flags (if 0 < optOff.toInt then c.ctlBuf + optOff else 0) optLen true s

/-- The log of `do_putmsg`. -/
def putMade (c : PutArgs) (s : Sys) : List Making :=
  match getUser e s c.ctlBuf with
  | none => []
  | some cmd =>
    if cmd = T_BIND_REQ then bindMade e c s
    else if cmd = T_CONN_RES then connResMade e c s
    else if cmd = T_CONN_REQ then connMade e c s
    else if cmd = T_UNITDATA_REQ then unitdataMade e c s
    else if cmd = T_UNBIND_REQ then okMade e T_UNBIND_REQ (s.toCore.setState .unbnd)
    else if cmd = T_OPTMGMT_REQ then optmgmtReqMade e c s
    else []

/-- The log of `timod_update_socket`. -/
def updateMade (fd : Word) (s : Sys) : List Making :=
  if callsAccept e s ∧ ¬ (e.socket .accept).result < 0 then
    match s.timodMkctl e.ctlAlloc (24 + (peerLength e fd s).toNat) with
    | none => []
    | some (b, _) =>
      [⟨b, .connInd (peerLength e fd s) (e.socket .accept).result
        (copyFromUser e (afterAccept e fd s) (s.esp - 1024 + 16) (peerLength e fd s).toInt)⟩]
  else []

end Logs

/-- The node of a look for a connection. -/
def Look.made (l : Look) : List Making := updateMade l.env l.fd l.sys

/-- The nodes of a request. -/
def requestMade (request : Option (Env × PutArgs)) (s : Sys) : List Making :=
  match request with
  | none => []
  | some (e, c) => putMade e c s

/-- The nodes an operation makes. -/
def FileOp.made (op : FileOp) (f : File) : List Making :=
  requestMade op.request f.sys ++ (op.looks f).flatMap Look.made

/-! ## Blocks outside the queue -/

/-- `S` are the blocks that are neither free nor in the queue. -/
def Core.Strays (k : Core) (S : Set Addr) : Prop :=
  ∃ l, k.Holds l ∧ ∀ a, a ∈ S ↔ k.heap a ≠ none ∧ a ∉ l

section Strays

variable {k k' : Core} {S : Set Addr} {a : Addr} {n : TPrimsg} {b : Block}

section

variable (h : k.Strays S)

include h

/-- A new block is outside the queue. -/
theorem Core.Strays.alloc {alloc : Option Block} {len : Int}
    (hb : k.timodMkctl alloc len = some (b, k')) : k'.Strays (insert b.addr S) ∧ b.addr ∉ S := by
  obtain ⟨l, hl, hS⟩ := h
  obtain ⟨hl', hnot⟩ := hl.alloc hb
  obtain ⟨_, hfree, rfl⟩ := timodMkctl_spec hb
  refine ⟨⟨l, hl', fun a => ?_⟩, fun hmem => ((hS _).mp hmem).1 hfree⟩
  rw [Set.mem_insert_iff, hS]
  dsimp only
  by_cases ha : a = b.addr
  · rw [ha, Function.update_self]
    exact iff_of_true (.inl rfl) ⟨Option.some_ne_none _, hnot⟩
  · rw [Function.update_of_ne ha]
    exact or_iff_right ha

/-- A block outside the queue is linked in front. -/
theorem Core.Strays.pushFront (ha : a ∈ S) : (k.pushFront a n).Strays (S \ {a}) := by
  obtain ⟨l, hl, hS⟩ := h
  refine ⟨a :: l, hl.pushFront ((hS a).mp ha).2, fun b => ?_⟩
  rw [Set.mem_sdiff_singleton, hS, List.mem_cons, not_or]
  unfold Core.pushFront
  dsimp only
  by_cases hb : b = a
  · exact iff_of_false (fun h => h.2 hb) fun h => h.2.1 hb
  · rw [Function.update_of_ne hb]
    exact ⟨fun h => ⟨h.1.1, hb, h.1.2⟩, fun h => ⟨⟨h.1, h.2.2⟩, hb⟩⟩

/-- A block outside the queue is linked at the tail. -/
theorem Core.Strays.appendTail (ha : a ∈ S) (hk : k.appendTail a n = .ok k') :
    k'.Strays (S \ {a}) := by
  obtain ⟨l, hl, hS⟩ := h
  have hnot := ((hS a).mp ha).2
  refine ⟨l ++ [a], hl.appendTail hnot hk, fun b => ?_⟩
  rw [Set.mem_sdiff_singleton, hS, List.mem_append, List.mem_singleton, not_or]
  by_cases hb : b = a
  · exact iff_of_false (fun h => h.2 hb) fun h => h.2.2 hb
  by_cases hbl : b ∈ l
  · exact iff_of_false (fun h => h.1.2 hbl) fun h => h.2.1 hbl
  · rw [(hl.linked hnot hk).2.2 b hb hbl, and_assoc]

/-- The first block leaves the queue and is freed. -/
theorem Core.Strays.dropHead (hk : k.dropHead = .ok k') : k'.Strays S := by
  obtain ⟨l, hl, hS⟩ := h
  obtain ⟨a, l, rfl, hl1, -, -, -, hheap⟩ := hl.dropped hk
  refine ⟨l, hl1, fun b => ?_⟩
  rw [hS, hheap, List.mem_cons, not_or]
  by_cases hb : b = a
  · rw [hb, Function.update_self]
    exact iff_of_false (fun h => h.2.1 rfl) fun h => h.1 rfl
  · rw [Function.update_of_ne hb]
    exact ⟨fun h => ⟨h.1, h.2.2⟩, fun h => ⟨h.1, hb, h.2⟩⟩

theorem Core.Strays.handOut (hfirst : k.priv.pfirst = some a) (hn : k.heap a = some n) (x : Int) :
    (k.handOut a n x).Strays S := by
  obtain ⟨l, hl, hS⟩ := h
  obtain ⟨l, rfl⟩ := hl.of_first hfirst
  refine ⟨a :: l, hl.handOut hn x, fun b => ?_⟩
  rw [hS]
  unfold Core.handOut
  dsimp only
  by_cases hb : b = a
  · exact iff_of_false (fun h => h.2 (hb ▸ List.mem_cons_self ..))
      fun h => h.2 (hb ▸ List.mem_cons_self ..)
  · rw [Function.update_of_ne hb]

variable {r : Int} {c : GetArgs}

theorem Core.Strays.gets (hg : Gets c k r k') : k'.Strays S := by
  cases hg with
  | quiet => exact h
  | @piece a it k' hmax hfirst hit hk =>
    have hout := h.handOut hfirst hit (c.take it.length)
    rcases takeChunk_ok hk with ⟨-, rfl⟩ | ⟨-, hk⟩
    · exact hout
    · exact hout.dropHead hk

end

end Strays

/-! ## The account -/

/-- A node without its place in the queue. -/
def TPrimsg.bare (n : TPrimsg) : TPrimsg := { n with next := none, serial := 0 }

/-- The blocks whose recipe was broken off. -/
def lost (ms : List Making) : Set Addr :=
  fun a => ∃ m ∈ ms, m.recipe.linked = false ∧ m.block.addr = a

theorem lost_append (ms ms' : List Making) : lost (ms ++ ms') = lost ms ∪ lost ms' := by
  ext a
  constructor
  · rintro ⟨m, hm, hrest⟩
    rcases List.mem_append.mp hm with hm | hm
    · exact .inl ⟨m, hm, hrest⟩
    · exact .inr ⟨m, hm, hrest⟩
  · rintro (⟨m, hm, hrest⟩ | ⟨m, hm, hrest⟩)
    · exact ⟨m, List.mem_append_left _ hm, hrest⟩
    · exact ⟨m, List.mem_append_right _ hm, hrest⟩

theorem lost_nil : lost [] = ∅ := by
  ext a
  exact iff_of_false (fun ⟨_, hm, _⟩ => nomatch hm) id

variable {m : Making}

theorem lost_linked (h : m.recipe.linked = true) : lost [m] = ∅ := by
  ext a
  refine iff_of_false ?_ id
  rintro ⟨m', hm, hlost, -⟩
  rw [List.mem_singleton.mp hm, h] at hlost
  exact nomatch hlost

theorem lost_broken (h : m.recipe.linked = false) : lost [m] = {m.block.addr} := by
  ext a
  constructor
  · rintro ⟨m', hm, -, rfl⟩
    rw [List.mem_singleton.mp hm]
    rfl
  · rintro rfl
    exact ⟨m, List.mem_singleton_self m, h, rfl⟩

theorem filter_linked (h : m.recipe.linked = true) : [m].filter (·.recipe.linked) = [m] :=
  List.filter_cons_of_pos h

/-- The log `ms` accounts for what has become of the endpoint. -/
structure Account (ms : List Making) (k k' : Core) : Prop where
  /-- The nodes that entered the queue are those of the log that were finished. -/
  entered : k'.queued.map TPrimsg.bare =
    k.queued.map TPrimsg.bare ++ (ms.filter (·.recipe.linked)).map (TPrimsg.bare ∘ Making.node)
  /-- The blocks outside the queue are the old ones and those that were given up. -/
  strays : ∀ S, k.Strays S → k'.Strays (S ∪ lost ms)
  /-- A block that is made was not one of them. -/
  fresh : ∀ S, k.Strays S → ∀ m ∈ ms, m.block.addr ∉ S

namespace Account

variable {ms ms' : List Making} {k k' k'' : Core}

/-- Nothing is made. -/
theorem none (hq : k'.queued = k.queued) (hs : ∀ S, k.Strays S → k'.Strays S) :
    Account [] k k' := by
  refine ⟨?_, fun S hS => ?_, nofun⟩
  · rw [hq, List.filter_nil, List.map_nil, List.append_nil]
  · rw [lost_nil, Set.union_empty]
    exact hs S hS

theorem refl (k : Core) : Account [] k k := none rfl fun _ => id

theorem setState (k : Core) (st : TState) : Account [] k (k.setState st) := none rfl fun _ => id

section

variable (h : Account ms k k')

include h

theorem trans (h' : Account ms' k' k'') : Account (ms ++ ms') k k'' := by
  refine ⟨?_, fun S hS => ?_, fun S hS m hm => ?_⟩
  · rw [h'.entered, h.entered, List.filter_append, List.map_append, List.append_assoc]
  · rw [lost_append, ← Set.union_assoc]
    exact h'.strays _ (h.strays S hS)
  · rcases List.mem_append.mp hm with hm | hm
    · exact h.fresh S hS m hm
    · exact fun hmS => h'.fresh _ (h.strays S hS) m hm (.inl hmS)

theorem of_eq (hk : k'' = k') : Account ms k k'' := hk ▸ h

theorem of_start (hk : k = k'') : Account ms k'' k' := hk ▸ h

end

section

variable {alloc : Option Block} {r : Recipe} (hb : k.timodMkctl alloc r.len = some (b, k'))

include hb

/-- A node is given up. -/
theorem lose (hr : r.linked = false) : Account [⟨b, r⟩] k k' := by
  refine ⟨?_, fun S hS => ?_, fun S hS => List.forall_mem_singleton.mpr (hS.alloc hb).2⟩
  · rw [timodMkctl_queued hb, List.filter_cons_of_neg (by rw [hr]; exact Bool.false_ne_true)]
    exact (List.append_nil _).symm
  · rw [lost_broken hr, Set.union_singleton]
    exact (hS.alloc hb).1

/-- A node is linked in front. -/
theorem push {n : TPrimsg} (hr : r.linked = true) (hn : (Making.node ⟨b, r⟩).bare = n.bare) :
    Account [⟨b, r⟩] k (k'.pushFront b.addr n) := by
  refine ⟨?_, fun S hS => ?_, fun S hS => List.forall_mem_singleton.mpr (hS.alloc hb).2⟩
  · show (k'.queued ++ [k'.entering n _]).map _ = _
    rw [List.map_append, timodMkctl_queued hb, filter_linked hr]
    exact congrArg (_ ++ [·]) hn.symm
  · rw [lost_linked hr, Set.union_empty]
    obtain ⟨hS', hnot⟩ := hS.alloc hb
    have hpush := hS'.pushFront (n := n) (Set.mem_insert _ _)
    rwa [Set.insert_sdiff_self_of_notMem hnot] at hpush

end

theorem queueWords (k : Core) (alloc : Option Block) (words : List Word) :
    Account (k.madeWords alloc words) k (k.queueWords alloc words) := by
  unfold Core.madeWords Core.queueWords
  cases hb : k.timodMkctl alloc (4 * words.length) with
  | none => exact refl k
  | some made => exact push hb rfl rfl

theorem ok (e : Env) (prim : Word) (k : Core) :
    Account (okMade e prim k) k (k.timodOk e.ackAlloc prim) := queueWords ..

theorem error (e : Env) (prim : Word) (terr uerr : Int) (k : Core) :
    Account (errorMade e prim terr uerr k) k
      (k.timodError e.personality e.ackAlloc prim terr uerr) :=
  queueWords ..

/-- A node is linked at the tail, behind the acknowledgement. -/
theorem answer {e : Env} {r : Recipe} {n : TPrimsg} {prim : Word}
    (hb : k.timodMkctl e.ctlAlloc r.len = some (b, k')) (hr : r.linked = true)
    (hn : (Making.node ⟨b, r⟩).bare = n.bare)
    (ha : (k'.timodOk e.ackAlloc prim).appendTail b.addr n = .ok k'') :
    Account (okMade e prim k' ++ [⟨b, r⟩]) k k'' := by
  have hok := ok e prim k'
  have hlinked : lost (okMade e prim k') = ∅ := by
    unfold okMade Core.madeWords
    split
    · exact lost_nil
    · exact lost_linked rfl
  refine ⟨?_, fun S hS => ?_, fun S hS m hm => ?_⟩
  · obtain ⟨last, nl, _, _, rfl⟩ := appendTail_spec ha
    show ((k'.timodOk e.ackAlloc prim).queued ++ [Core.entering _ n _]).map _ = _
    rw [List.map_append, hok.entered, timodMkctl_queued hb, List.filter_append, List.map_append,
      List.append_assoc, filter_linked hr]
    exact congrArg (fun x => _ ++ (_ ++ [x])) hn.symm
  · -- the block is outside the queue while the acknowledgement is made
    obtain ⟨hS', hnot⟩ := hS.alloc hb
    have hboth := hok.strays _ hS'
    rw [hlinked, Set.union_empty] at hboth
    rw [lost_append, hlinked, lost_linked hr, Set.union_empty, Set.union_empty]
    have htail := hboth.appendTail (Set.mem_insert _ _) ha
    rwa [Set.insert_sdiff_self_of_notMem hnot] at htail
  · obtain ⟨hS', hnot⟩ := hS.alloc hb
    rcases List.mem_append.mp hm with hm | hm
    · exact fun hmS => hok.fresh _ hS' m hm (.inr hmS)
    · rw [List.mem_singleton.mp hm]
      exact hnot

theorem gets (h : Gets c k r k') : Account [] k k' :=
  none h.queued fun _ hS => hS.gets h

theorem dropHead (h : k.dropHead = .ok k') : Account [] k k' :=
  none (dropHead_queued h) fun _ hS => hS.dropHead h

end Account

/-! ## The operations -/

section Operations

variable {e : Env} {c : PutArgs} {s s' : Sys} {r : Int}

theorem overlay_append (b : Nat → Byte) (xs ys : List Byte) :
    overlay (overlay b 0 xs) xs.length ys = overlay b 0 (xs ++ ys) := by
  funext i
  unfold overlay
  by_cases hi : xs.length ≤ i
  · rw [if_pos hi, if_pos (Nat.zero_le i), if_pos (Nat.zero_le i), Nat.sub_zero,
      List.getD_append_right _ _ _ _ hi, List.getD_eq_default _ _ hi]
  · rw [if_neg hi, if_pos (Nat.zero_le i), if_pos (Nat.zero_le i), Nat.sub_zero,
      List.getD_append _ _ _ _ (Nat.lt_of_not_le hi)]

theorem bindReply_account {error : Int} (h : bindReply e c error s = .ok (r, s')) :
    Account (bindReplyMade e c error s) s.toCore s'.toCore := by
  unfold bindReply at h
  unfold bindReplyMade
  split_ifs at h ⊢
  · exact of_ok h (.error ..)
  split
  next hb =>
    rw [hb] at h
    exact of_ok h (.error ..)
  next made hb =>
    rw [hb] at h
    cases hcopy : copyFromUser e s c.ctlBuf c.ctlLen with
    | none =>
      rw [hcopy] at h
      exact of_ok h (.lose hb rfl)
    | some req =>
      rw [hcopy] at h
      exact .answer (r := .bindAck c.ctlLen (some req)) hb rfl rfl (answer_ok h).2

theorem connReply_account {error : Int} (h : connReply e c error s = .ok (r, s')) :
    Account (connReplyMade e c error s) s.toCore s'.toCore := by
  unfold connReply at h
  unfold connReplyMade
  split_ifs at h ⊢
  · split
    next hb =>
      rw [hb] at h
      exact of_ok h (.refl _)
    next made hb =>
      rw [hb] at h
      cases hcopy : copyFromUser e s c.ctlBuf c.ctlLen with
      | none =>
        rw [hcopy] at h
        exact of_ok h (.lose hb rfl)
      | some req =>
        rw [hcopy] at h
        -- the state is set between the allocation and the answer
        have hb' := timodMkctl_setState hb .dataXfer
        exact (Account.setState s.toCore .dataXfer).trans
          (.answer (r := .connCon c.ctlLen (some req)) hb' rfl rfl (answer_ok h).2)
  · split
    next hb =>
      rw [hb] at h
      exact of_ok h (.refl _)
    next made hb =>
      rw [hb] at h
      exact .answer (r := .discon [T_DISCON_IND,
        BitVec.ofInt 32 (Lcall7.iABIErrors e.personality (-error)), 0]) hb rfl rfl (answer_ok h).2

/-- What the socket calls of a bind request leave of the kernel side. -/
theorem bindAddress_account (e : Env) (c : PutArgs) (tsp addrLen addrOff conind : Word) (s : Sys) :
    Account [] s.toCore (bindAddress e c tsp addrLen addrOff conind s).2.toCore := by
  rw [bindAddress_toCore]
  split
  · exact .refl _
  · exact .setState ..

theorem bindReq_account (h : bindReq e c s = .ok (r, s')) :
    Account (bindMade e c s) s.toCore s'.toCore := by
  unfold bindReq at h
  unfold bindMade
  dsimp only at h ⊢
  split_ifs at h ⊢
  · exact of_ok h (.error ..)
  · exact of_ok h (.refl _)
  · exact (bindAddress_account e c _ _ _ _ { s with esp := s.esp - 1024 }).trans
      (bindReply_account h)
  · exact bindReply_account h
  · exact of_ok h (.error ..)
  · exact of_ok h (.refl _)

theorem connReq_account (h : connReq e c s = .ok (r, s')) :
    Account (connMade e c s) s.toCore s'.toCore := by
  unfold connReq at h
  unfold connMade
  dsimp only at h ⊢
  split_ifs at h ⊢
  · exact of_ok h (.error ..)
  · exact of_ok h (.refl _)
  · have hcore (len off : Word) : (connectCall e (connectArgs e c (s.esp - 1024) len off
        { s with esp := s.esp - 1024 })).2.toCore = s.toCore := by
      rw [connectCall_toCore, connectArgs_toCore]
    exact (connReply_account h).of_start (hcore ..)
  · exact of_ok h (.error ..)
  · exact of_ok h (.refl _)

theorem connRes_account (h : connRes e c s = .ok (r, s')) :
    Account (connResMade e c s) s.toCore s'.toCore := by
  unfold connRes at h
  unfold connResMade
  split
  next hfd =>
    rw [hfd] at h
    exact of_ok h (.refl _)
  next connFd hfd =>
    rw [hfd] at h
    dsimp only at h ⊢
    split_ifs at h ⊢ with _ _ _ _ hmade
    · exact of_ok h (.ok ..)
    iterate 2 exact of_ok h (.refl _)
    · -- the descriptor is closed, and only without memory does the call return
      obtain ⟨-, rfl⟩ := ok_inj h
      have hnone : s.timodMkctl e.ackAlloc 8 = none := Option.not_isSome_iff_eq_none.mp hmade
      unfold okMade Core.madeWords
      rw [show s.timodMkctl e.ackAlloc (4 * [T_OK_ACK, T_CONN_RES].length) = none from hnone]
      exact .refl _
    · exact of_ok h (.ok ..)

theorem unitdataReq_account (e : Env) (c : PutArgs) (s : Sys) :
    Account (unitdataMade e c s) s.toCore (unitdataReq e c s).2.toCore := by
  unfold unitdataReq unitdataMade
  dsimp only
  split_ifs
  · exact .error ..
  · exact .of_eq (.refl _) (putArgs_toCore ..)
  · exact .of_eq (.refl _) (by simp only [socketcall_toCore, putUser_toCore, putArgs_toCore])
  · exact .of_eq (.refl _) (by simp only [socketcall_toCore, putArgs_toCore])
  · exact .error ..
  · exact .refl _

theorem optAck_account (e : Env) (flag retBase retLen esp : Word) (s : Sys) :
    Account (optAckMade e flag retBase retLen s) s.toCore
      (optAck e flag retBase retLen esp s).2.toCore := by
  unfold optAck optAckMade
  cases hb : s.timodMkctl e.ctlAlloc (16 + retLen.toInt) with
  | none => exact .refl _
  | some made =>
    cases copyFromUser e s retBase retLen.toInt with
    | none => exact .lose hb rfl
    | some reply =>
      refine .push (r := .optAck flag retLen (some reply)) hb rfl ?_
      have hbody := overlay_append made.1.junk.body
        ([T_OPTMGMT_ACK, retLen, 16, flag].flatMap Word.bytes) reply
      exact congrArg (fun body => TPrimsg.mk none MSG_HIPRI (16 + retLen.toInt) body 0) hbody

theorem timodOptmgmt_account {fd flag optBuf optLen : Word} {doRet : Bool}
    (h : timodOptmgmt e fd flag optBuf optLen doRet s = .ok (r, s')) :
    Account (optmgmtMade e fd flag optBuf optLen doRet s) s.toCore s'.toCore := by
  unfold optmgmtMade
  rcases timodOptmgmt_loop h with ⟨hb, rfl⟩ | ⟨x, hb, hrun, hx⟩
  · rw [if_neg hb]
    exact .refl _
  rw [if_pos hb, hrun]
  have hcore : x.sys.toCore = s.toCore :=
    optLoop_toCore (s := { s with esp := s.esp - retSpace optLen - 24 }) hrun
  cases x with
  | fault u =>
    obtain rfl := hx
    exact .of_eq (.refl _) hcore
  | done failed error retLen u =>
    dsimp only at hx ⊢
    obtain rfl : s' = _ := congrArg Prod.snd hx
    rw [← show u.toCore = s.toCore from hcore]
    unfold optReply
    split_ifs with _ hfailed
    · exact .error ..
    · have hlen := (optRun_accounts hb hrun).2.2 (not_not.mp hfailed)
      rw [show 0 + replyLen .. = _ from BitVec.zero_add _] at hlen
      rw [hlen]
      exact optAck_account ..
    · exact .refl _

theorem optmgmtReq_account (h : optmgmtReq e c s = .ok (r, s')) :
    Account (optmgmtReqMade e c s) s.toCore s'.toCore := by
  unfold optmgmtReq at h
  unfold optmgmtReqMade
  by_cases hv : ¬ e.verify false c.ctlBuf 16 = true
  · rw [if_pos hv] at h ⊢
    exact of_ok h (.refl _)
  rw [if_neg hv] at h ⊢
  split_ifs at h ⊢
  · exact of_ok h (.refl _)
  · exact timodOptmgmt_account h

theorem doPutmsg_account (h : doPutmsg e c s = .ok (r, s')) :
    Account (putMade e c s) s.toCore s'.toCore := by
  unfold putMade
  have hdispatch := doPutmsg_dispatch e c s
  generalize getUser e s c.ctlBuf = cmd, doPutmsg e c s = x at h hdispatch ⊢
  cases hdispatch with
  | bind => exact bindReq_account h
  | connRes => exact connRes_account h
  | conn => exact connReq_account h
  | optmgmt => exact optmgmtReq_account h
  | unitdata =>
    obtain rfl : (unitdataReq e c s).2 = s' := congrArg Prod.snd (Except.ok.inj h)
    exact unitdataReq_account ..
  | unbind =>
    exact of_ok h ((Account.setState s.toCore .unbnd).trans (.ok ..))
  | fault | ordrel =>
    exact of_ok h (.refl _)
  | discon =>
    obtain rfl : (disconReq e c s).2 = s' := congrArg Prod.snd (Except.ok.inj h)
    exact .of_eq (.refl _) (disconReq_toCore ..)
  | data =>
    obtain rfl : (dataReq e c s).2 = s' := congrArg Prod.snd (Except.ok.inj h)
    exact .of_eq (.refl _) (dataReq_toCore ..)
  | other hcmd =>
    obtain ⟨-, rfl⟩ := ok_inj h
    simp only [List.forall_mem_cons] at hcmd
    obtain ⟨h1, h2, h3, -, -, -, h4, h5, h6, -⟩ := hcmd
    dsimp only
    rw [if_neg h1, if_neg h2, if_neg h3, if_neg h4, if_neg h5, if_neg h6]
    exact .refl _

theorem timodUpdateSocket_account (e : Env) (fd : Word) (s : Sys) :
    Account (updateMade e fd s) s.toCore (timodUpdateSocket e fd s).2.toCore := by
  unfold updateMade
  have hupdates := timodUpdateSocket_updates e fd s
  generalize (timodUpdateSocket e fd s).1 = ret, (timodUpdateSocket e fd s).2 = t at hupdates ⊢
  cases hupdates with
  | quiet hcall =>
    rw [if_neg fun h => hcall h.1]
    exact .refl _
  | refused hcall hres =>
    rw [if_neg fun h => h.2 hres]
    exact .refl _
  | dropped hcall hres hb =>
    rw [if_pos ⟨hcall, hres⟩, hb]
    exact .refl _
  | fault hcall hres hb hcopy =>
    rw [if_pos ⟨hcall, hres⟩, hb, hcopy]
    exact .lose hb rfl
  | @announced b k addr hcall hres hb hcopy =>
    rw [if_pos ⟨hcall, hres⟩, hb, hcopy]
    refine .push (r := .connInd _ _ (some addr)) hb rfl ?_
    have hbody := overlay_append b.junk.body
      ([T_CONN_IND, peerLength e fd s, 24, 0, 0,
        BitVec.ofInt 32 (e.socket .accept).result].flatMap Word.bytes) addr
    exact congrArg (fun body => TPrimsg.mk none b.junk.pri (24 + (peerLength e fd s).toInt) body 0)
      hbody

end Operations

/-- What is not a request makes the nodes of its looks. -/
theorem Proceeds.account {ls : List Look} {ds : List TPrimsg} {s t : Sys}
    (h : Proceeds ls ds s t) : Account (ls.flatMap Look.made) s.toCore t.toCore := by
  induction h with
  | same hcore => exact .of_eq (.refl _) hcore
  | state hcore => exact .of_eq (.setState ..) hcore
  | piece h => exact .gets h
  | drop h => exact .dropHead h
  | look l =>
    rw [List.flatMap_singleton]
    exact timodUpdateSocket_account ..
  | trans _ _ ih ih' =>
    rw [List.flatMap_append]
    exact ih.trans ih'

/-- The log accounts for every operation. -/
theorem fileStep_account {op : FileOp} {f g : File} (h : op.step f = .ok (r, g)) :
    Account (op.made f) f.sys.toCore g.sys.toCore := by
  refine Account.trans ?_ (fileStep_proceeds h).account
  cases hreq : op.request with
  | none => exact .refl _
  | some x =>
    obtain ⟨ret, u, hput⟩ := fileStep_request h hreq
    unfold requested
    dsimp only
    rw [hput]
    exact doPutmsg_account hput

end AbiEmu.Xti
