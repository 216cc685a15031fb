import AbiEmu.Lib.Mailbox
import AbiEmu.Xti.Frame
import AbiEmu.Xti.QueueInv

/-!
# Control messages reach the user whole

The queue of an endpoint is meant to be a mailbox: `do_getmsg` hands out the
first message in pieces, `timod_ok` and its relatives put a message in front,
`T_BIND_REQ` and `T_CONN_REQ` put one at the end. `Refines` relates an endpoint
to a `Mailbox`: the blocks of the queue are the pending messages, the first one
read from `offset` on, the others from their start.

The relation holds through every act as long as no message is put in front of
one that is partly read. The position is kept in the endpoint and not in the
message, so such a push would make the position of the old message that of the
new one.

The pieces are recorded where the queue is changed. `Op.HandsOver` ties them to what the
user sees: a `do_getmsg` copies out and returns exactly the piece it adds to the record.
`delivery_exact` is the resulting guarantee for whole runs.
-/

namespace AbiEmu.Xti

open List

/-! ## The guarantee -/

/-- The pieces of message `i` handed out so far. -/
def Core.pieces (k : Core) (i : Nat) : List Chunk := k.delivered.filter fun c => c.serial = i

/-- Message `i` is in the queue. -/
def Core.Waiting (k : Core) (i : Nat) : Prop :=
  ∃ l a n, k.Holds l ∧ a ∈ l ∧ k.heap a = some n ∧ n.serial = i

/-- Every message comes out once and whole: its pieces are not mixed with
others, those of a message still in the queue all returned `MORECTL` and are the
beginning of it, and those of any other message are all of it, with `MORECTL`
for each but the last. -/
def ByteExact (k : Core) : Prop :=
  ∀ i m, k.queued[i]? = some m →
    k.pieces i <:+: k.delivered ∧
    (k.Waiting i → (k.pieces i).flatMap Chunk.bytes <+: m.payload ∧
      ∀ c ∈ k.pieces i, c.ret = MORECTL) ∧
    (¬ k.Waiting i → (k.pieces i).flatMap Chunk.bytes = m.payload ∧
      ∃ init last, k.pieces i = init ++ [last] ∧ (∀ c ∈ init, c.ret = MORECTL) ∧ last.ret = 0)

variable {k : Core}

theorem ByteExact.bytes_begin (h : ByteExact k) {i : Nat} {m : TPrimsg}
    (hm : k.queued[i]? = some m) :
    (k.pieces i).flatMap Chunk.bytes <+: m.payload := by
  obtain ⟨_, hwaiting, hdone⟩ := h i m hm
  by_cases hw : k.Waiting i
  · exact (hwaiting hw).1
  · rw [(hdone hw).1]

/-- A `do_getmsg` and what it adds to the record: a piece, whose bytes are copied into the
buffer, whose length is stored and whose result is returned; or nothing, in a call that
fails, does not ask for a control message or finds none. -/
inductive Hands (e : Env) (c : GetArgs) (s : Sys) (g : Got) : Prop
  | piece (p : Chunk) (t : Sys) (hret : g.ret = p.ret)
      (hdel : g.sys.delivered = s.delivered ++ [p])
      (hcopy : copyToUser e c.ctlBuf p.bytes (lookForConnection e c s) = some t)
      (hmem : g.sys.mem =
        (noData e c (putUser e c.ctlLen (BitVec.ofNat 32 p.bytes.length) t)).mem)
  | nothing (hdel : g.sys.delivered = s.delivered)
      (hnone : g.ret < 0 ∨ c.ctlMaxlen < 0 ∨ (lookForConnection e c s).priv.pfirst = none)

/-- The operation gives the user what it adds to the record; only `do_getmsg` adds
something. -/
def Op.HandsOver (op : Op) (s : Sys) : Prop :=
  match op with
  | .getmsg e c => ∀ g, doGetmsg e c s = .ok g → Hands e c s g
  | .ioctl _ _ => True
  | op => ∀ r s', op.step s = .ok (r, s') → s'.delivered = s.delivered

/-- The last piece handed out was not the end of its message. -/
def Core.PartlyRead (k : Core) : Prop :=
  ∃ c, k.delivered.getLast? = some c ∧ c.ret = MORECTL

/-! ## Endpoints and mailboxes -/

/-- The bytes of a block from position `r` on. -/
def TPrimsg.rest (n : TPrimsg) (r : Int) : List Byte :=
  (List.range n.length.toNat).map fun i => n.body (r.toNat + i)

theorem TPrimsg.rest_zero (n : TPrimsg) : n.rest 0 = n.payload := by
  unfold TPrimsg.rest TPrimsg.payload
  simp

theorem TPrimsg.rest_length (n : TPrimsg) (r : Int) : (n.rest r).length = n.length.toNat := by
  unfold TPrimsg.rest
  rw [length_map, length_range]

variable {x : Int}

/-- The bytes `do_getmsg` copies are the next ones of the message. -/
theorem TPrimsg.rest_take (n : TPrimsg) (r : Int) (hx : x ≤ n.length) :
    (List.range x.toNat).map (fun i => n.body (r.toNat + i)) = (n.rest r).take x.toNat := by
  unfold TPrimsg.rest
  rw [← map_take, take_range, Nat.min_eq_left (by omega)]

/-- What is left of the message when `x` bytes of it are gone. -/
theorem TPrimsg.rest_drop (n : TPrimsg) {r x : Int} (hr : 0 ≤ r) (hx : 0 ≤ x) :
    TPrimsg.rest { n with length := n.length - x } (r + x) = (n.rest r).drop x.toNat := by
  unfold TPrimsg.rest
  refine ext_getElem ?_ ?_
  · simp only [length_map, length_range, length_drop]
    omega
  · intro i h1 h2
    simp only [getElem_map, getElem_range, getElem_drop]
    congr 1
    omega

/-- The pending message in the block at `a`, read from position `r` on. -/
def Core.letter (k : Core) (r : Int) (a : Addr) : Nat × List Byte :=
  match k.heap a with
  | none => (0, [])
  | some n => (n.serial, n.rest r)

variable {a : Addr} {n : TPrimsg}

theorem letter_of_heap (h : k.heap a = some n) (r : Int) : k.letter r a = (n.serial, n.rest r) := by
  unfold Core.letter
  rw [h]

variable {k k' : Core}

theorem letter_congr (h : k'.heap a = k.heap a) (r : Int) : k'.letter r a = k.letter r a := by
  unfold Core.letter
  rw [h]

/-- The pending messages in the blocks of a queue. -/
def Core.letters (k : Core) : List Addr → List (Nat × List Byte)
  | [] => []
  | a :: l => k.letter k.priv.offset a :: l.map (k.letter 0)

theorem letters_congr {l : List Addr} (hletter : ∀ a ∈ l, ∀ r, k'.letter r a = k.letter r a)
    (hoff : k'.priv.offset = k.priv.offset) : k'.letters l = k.letters l := by
  cases l with
  | nil => rfl
  | cons a l =>
    unfold Core.letters
    dsimp only
    rw [hoff, hletter a (mem_cons_self ..)]
    congr 1
    exact map_congr_left fun b hb => hletter b (mem_cons_of_mem _ hb) 0

/-- At position 0 every message is read from its start. -/
theorem letters_of_offset_zero (h : k.priv.offset = 0) (l : List Addr) :
    k.letters l = l.map (k.letter 0) := by
  cases l with
  | nil => rfl
  | cons a l =>
    unfold Core.letters
    rw [h]
    rfl

/-- A piece as `do_getmsg` reports it. -/
def Chunk.ofPiece (p : Piece Byte) : Chunk :=
  ⟨p.serial, p.content, if p.more then MORECTL else 0⟩

/-- The endpoint `k`, whose queue holds the blocks `l`, is the mailbox `mb`. -/
structure Refines (k : Core) (l : List Addr) (mb : Mailbox Byte) : Prop where
  holds : k.Holds l
  good : mb.Good
  nonneg : ∀ a ∈ l, ∀ n, k.heap a = some n → 0 ≤ n.length
  pending : mb.pending = k.letters l
  queued : mb.queued = k.queued.map TPrimsg.payload
  delivered : k.delivered = mb.delivered.map Chunk.ofPiece
  offset : k.priv.offset = mb.read

section Refines

variable {k k' : Core} {l : List Addr} {mb : Mailbox Byte} {a : Addr} {n : TPrimsg}

theorem partlyRead_iff (h : k.delivered = mb.delivered.map Chunk.ofPiece) :
    k.PartlyRead ↔ mb.PartlyRead := by
  unfold Core.PartlyRead Mailbox.PartlyRead
  rw [h, getLast?_map]
  cases mb.delivered.getLast? with
  | none => simp
  | some p => cases hp : p.more <;> simp [Chunk.ofPiece, hp, MORECTL]

section

variable (h : Refines k l mb)

include h

theorem Refines.setState (st : TState) : Refines (k.setState st) l mb := by
  refine ⟨h.holds, h.good, h.nonneg, ?_, h.queued, h.delivered, h.offset⟩
  rw [h.pending]
  exact (letters_congr (fun _ _ _ => letter_congr rfl _) rfl).symm

theorem Refines.alloc {alloc : Option Block} {len : Int} {b : Block}
    (hb : k.timodMkctl alloc len = some (b, k')) : Refines k' l mb := by
  obtain ⟨hholds, hfresh⟩ := h.holds.alloc hb
  obtain ⟨_, _, rfl⟩ := timodMkctl_spec hb
  have hagree := update_agree (h := k.heap) (v := some b.junk) hfresh
  refine ⟨hholds, h.good, Lengths.frame h.nonneg hagree, ?_, h.queued, h.delivered, h.offset⟩
  rw [h.pending]
  refine Eq.symm (letters_congr ?_ ?_)
  · intro a ha r
    exact letter_congr (hagree a ha) r
  · rfl

theorem Refines.pushFront (hnot : ¬ mb.PartlyRead) (ha : a ∉ l) (hn : 0 ≤ n.length) :
    Refines (k.pushFront a n) (a :: l) (mb.push n.payload) := by
  have hagree := update_agree (h := k.heap) (v := some (k.entering n k.priv.pfirst)) ha
  have hnew : (k.pushFront a n).heap a = some (k.entering n k.priv.pfirst) :=
    Function.update_self ..
  have hoff : k.priv.offset = 0 := by
    rw [h.offset, h.good.read_eq_zero hnot]
    rfl
  have hlen : mb.queued.length = k.queued.length := by
    rw [h.queued, length_map]
  refine ⟨h.holds.pushFront ha, h.good.push hnot _, Lengths.pushFront h.nonneg ha hn, ?_, ?_,
    h.delivered, ?_⟩
  · show (mb.queued.length, n.payload) :: mb.pending = _
    rw [letters_of_offset_zero (show (k.pushFront a n).priv.offset = 0 from hoff), map_cons,
      letter_of_heap hnew, TPrimsg.rest_zero, h.pending, letters_of_offset_zero hoff, hlen]
    congr 1
    exact (map_congr_left fun b hb => letter_congr (hagree b hb) 0).symm
  · show mb.queued ++ [n.payload] = (k.queued ++ [k.entering n k.priv.pfirst]).map _
    rw [map_append, h.queued]
    rfl
  · rw [h.good.read_push]
    exact hoff

theorem Refines.appendTail (ha : a ∉ l) (hn : 0 ≤ n.length) (hk : k.appendTail a n = .ok k') :
    Refines k' (l ++ [a]) (mb.append n.payload) := by
  have hholds := h.holds.appendTail ha hk
  have hnonneg := Lengths.appendTail h.nonneg h.holds ha hn hk
  obtain ⟨hnew, hold, -⟩ := h.holds.linked ha hk
  obtain ⟨last, nl, hlast, hnl, rfl⟩ := appendTail_spec hk
  have hmem : last ∈ l := mem_of_getLast? (h.holds.last_eq ▸ hlast)
  -- only the link of the old last block differs, and no message depends on it
  have hletter : ∀ b ∈ l, ∀ r, (k.linkTail a n last nl).letter r b = k.letter r b := by
    intro b hb r
    obtain ⟨m, next, hm₀, hm₁⟩ := hold b hb
    rw [letter_of_heap hm₀, letter_of_heap hm₁]
    rfl
  have hlen : mb.queued.length = k.queued.length := by
    rw [h.queued, length_map]
  refine ⟨hholds, h.good.append _, hnonneg, ?_, ?_, h.delivered, ?_⟩
  · show mb.pending ++ [(mb.queued.length, n.payload)] = _
    rw [h.pending, ← letters_congr hletter rfl, hlen]
    cases l with
    | nil => exact nomatch hmem
    | cons b l =>
      show _ :: (l.map _ ++ _) = _ :: (l ++ [a]).map _
      rw [map_append, map_singleton, letter_of_heap hnew, TPrimsg.rest_zero]
      rfl
  · show mb.queued ++ [n.payload] = (k.queued ++ [k.entering n none]).map _
    rw [map_append, h.queued]
    rfl
  · rw [h.good.read_append]
    exact h.offset

end

/-- The block that is first in the queue is the first pending message. -/
theorem Refines.pending_cons (h : Refines k (a :: l) mb) (hn : k.heap a = some n) :
    mb.pending = (n.serial, n.rest k.priv.offset) :: l.map (k.letter 0) := by
  rw [h.pending]
  unfold Core.letters
  dsimp only
  rw [letter_of_heap hn]

/-- `do_getmsg` returns `MORECTL` when the mailbox has more of the message. -/
theorem more_iff (n : TPrimsg) (r : Int) (hx : 0 ≤ x) (hxn : x ≤ n.length) :
    n.length - x ≠ 0 ↔ x.toNat < (n.rest r).length := by
  rw [n.rest_length]
  omega

section

variable (h : Refines k (a :: l) mb) (hn : k.heap a = some n)

include h hn

/-- The piece `do_getmsg` hands out is the one the mailbox does. -/
theorem Refines.handOut_delivered (hx : 0 ≤ x) (hxn : x ≤ n.length) :
    (k.handOut a n x).delivered = (mb.take x.toNat).delivered.map Chunk.ofPiece := by
  have hmore := more_iff n k.priv.offset hx hxn
  rw [Mailbox.take_of_pending (h.pending_cons hn), map_append, ← h.delivered]
  unfold Core.handOut Chunk.ofPiece
  rw [n.rest_take _ hxn, map_singleton]
  split
  next hlast => rw [if_pos (decide_eq_true (hmore.mp hlast))]
  next hlast => rw [if_neg (by rw [decide_eq_true_iff, ← hmore]; exact hlast)]

theorem Refines.take_queued (m : Nat) : (mb.take m).queued = k.queued.map TPrimsg.payload := by
  rw [Mailbox.take_of_pending (h.pending_cons hn)]
  exact h.queued

section

variable (hx : 0 ≤ x) (hxn : x ≤ n.length)

include hx hxn

/-- A piece that is not the last one: the block stays, with its rest. -/
theorem Refines.take_more (hmore : n.length - x ≠ 0) :
    Refines ((k.handOut a n x).advance x) (a :: l) (mb.take x.toNat) := by
  have hpend := h.pending_cons hn
  have hlt := (more_iff n k.priv.offset hx hxn).mp hmore
  have hoff : 0 ≤ k.priv.offset := by
    rw [h.offset]
    omega
  have hnew : ((k.handOut a n x).advance x).heap a = some { n with length := n.length - x } :=
    Function.update_self ..
  have hagree : ∀ b ∈ l, ((k.handOut a n x).advance x).heap b = k.heap b :=
    update_agree (nodup_cons.mp h.holds.chain.nodup).1
  refine ⟨h.holds.handOut hn x, h.good.take hpend, Lengths.handOut h.nonneg h.holds hxn, ?_,
    h.take_queued hn _, h.handOut_delivered hn hx hxn, ?_⟩
  · rw [Mailbox.take_of_pending hpend]
    dsimp only
    rw [if_pos hlt]
    show _ = Core.letter _ (k.priv.offset + x) a :: _
    rw [letter_of_heap hnew, n.rest_drop hoff hx]
    congr 1
    exact (map_congr_left fun b hb => letter_congr (hagree b hb) 0).symm
  · rw [h.good.read_take hpend, if_pos hlt, Nat.cast_add, ← h.offset]
    show k.priv.offset + x = _
    omega

/-- The last piece of a message: its block leaves the queue. -/
theorem Refines.take_last (hlast : ¬ n.length - x ≠ 0) :
    ∃ k', (k.handOut a n x).dropHead = .ok k' ∧ Refines k' l (mb.take x.toNat) := by
  have hpend := h.pending_cons hn
  have hnlt : ¬ x.toNat < (n.rest k.priv.offset).length := by
    rw [← more_iff n k.priv.offset hx hxn]
    exact hlast
  obtain ⟨k', hk', hholds, hoff, hqueued, hdel, hheap⟩ := (h.holds.handOut hn x).dropHead
  have hnotin := (nodup_cons.mp h.holds.chain.nodup).1
  have hagree : ∀ b ∈ l, k'.heap b = k.heap b := by
    intro b hb
    rw [hheap, update_agree hnotin b hb]
    exact update_agree hnotin b hb
  have hrest : Lengths k l := Lengths.tail h.nonneg
  refine ⟨k', hk', hholds, h.good.take hpend, hrest.frame hagree, ?_, ?_, ?_, ?_⟩
  · rw [Mailbox.take_of_pending hpend, letters_of_offset_zero hoff]
    rw [if_neg hnlt]
    exact (map_congr_left fun b hb => letter_congr (hagree b hb) 0).symm
  · rw [hqueued]
    exact h.take_queued hn _
  · rw [hdel]
    exact h.handOut_delivered hn hx hxn
  · rw [hoff, h.good.read_take hpend, if_neg hnlt]
    rfl

theorem Refines.takeChunk (hk : k.takeChunk a n x = .ok k') :
    ∃ l', Refines k' l' (mb.take x.toNat) := by
  rcases takeChunk_ok hk with ⟨hmore, rfl⟩ | ⟨hlast, hk⟩
  · exact ⟨_, h.take_more hn hx hxn hmore⟩
  · obtain ⟨k1, hk1, href⟩ := h.take_last hn hx hxn hlast
    rw [hk] at hk1
    obtain rfl := Except.ok.inj hk1
    exact ⟨_, href⟩

end

end

/-! ## The acts -/

/-- A message of words is put in front, if there is a block for it. -/
theorem Refines.queueWords (h : Refines k l mb) {alloc : Option Block}
    (hnot : alloc.isSome → ¬ mb.PartlyRead) (words : List Word) (ha : k.heap a ≠ none)
    (hal : a ∉ l) :
    ∃ l' mb', Refines (k.queueWords alloc words) l' mb' ∧ a ∉ l' := by
  unfold Core.queueWords
  split
  · exact ⟨l, mb, h, hal⟩
  next b k1 hb =>
    obtain ⟨_, hfresh⟩ := h.holds.alloc hb
    have hlen : 0 ≤ (b.filled words).length := by
      show (0 : Int) ≤ 4 * words.length
      omega
    refine ⟨b.addr :: l, _, (h.alloc hb).pushFront (hnot (timodMkctl_isSome hb)) hfresh hlen, ?_⟩
    intro hmem
    rcases mem_cons.mp hmem with rfl | hmem
    · exact ha (timodMkctl_spec hb).2.1
    · exact hal hmem

theorem timodMkctl_delivered {alloc : Option Block} {len : Int} {b : Block}
    (hb : k.timodMkctl alloc len = some (b, k')) : k'.delivered = k.delivered := by
  rw [(timodMkctl_spec hb).2.2]

theorem queueWords_delivered (k : Core) (alloc : Option Block) (words : List Word) :
    (k.queueWords alloc words).delivered = k.delivered := by
  unfold Core.queueWords
  split
  · rfl
  next b k1 hb =>
    show k1.delivered = _
    exact timodMkctl_delivered hb

/-- Linking hands nothing out. -/
theorem Link.delivered {front : Bool} (h : Link front k k') : k'.delivered = k.delivered := by
  cases h with
  | alloc hb => exact timodMkctl_delivered hb
  | push _ hb _ =>
    have hdel := timodMkctl_delivered hb
    exact hdel
  | answer _ hb _ ha =>
    obtain ⟨_, _, _, _, rfl⟩ := appendTail_spec ha
    exact (queueWords_delivered ..).trans (timodMkctl_delivered hb)

end Refines

/-- The endpoint is a mailbox. -/
def IsMailbox (k : Core) : Prop := ∃ l mb, Refines k l mb

section Steps

variable {k k' : Core} {front : Bool}

theorem Link.isMailbox (h : Link front k k') (hfront : front = true → ¬ k.PartlyRead)
    (hk : IsMailbox k) : IsMailbox k' := by
  obtain ⟨l, mb, href⟩ := hk
  cases h with
  | alloc hb => exact ⟨l, mb, href.alloc hb⟩
  | push hf hb hn =>
    obtain ⟨_, hfresh⟩ := href.holds.alloc hb
    have hnot : ¬ mb.PartlyRead := fun hp => hfront hf ((partlyRead_iff href.delivered).mpr hp)
    exact ⟨_, _, (href.alloc hb).pushFront hnot hfresh hn⟩
  | @answer k1 k2 alloc ack len b prim hf hb n hn ha =>
    obtain ⟨_, hfresh⟩ := href.holds.alloc hb
    have hnot : ack.isSome → ¬ mb.PartlyRead :=
      fun hack hp => hfront (hf hack) ((partlyRead_iff href.delivered).mpr hp)
    obtain ⟨l', mb', href', hnotin⟩ := (href.alloc hb).queueWords hnot [T_OK_ACK, prim]
      (timodMkctl_live hb) hfresh
    exact ⟨_, _, href'.appendTail hnotin hn ha⟩

theorem Links.delivered (h : Links front k k') : k'.delivered = k.delivered := by
  induction h with
  | refl => rfl
  | tail _ hlink ih => exact hlink.delivered.trans ih

theorem Links.isMailbox (h : Links front k k') (hfront : front = true → ¬ k.PartlyRead)
    (hk : IsMailbox k) : IsMailbox k' := by
  induction h with
  | refl => exact hk
  | tail hlinks hlink ih =>
    -- the pieces handed out stay the same, so the condition holds at every link
    refine hlink.isMailbox ?_ ih
    unfold Core.PartlyRead at hfront ⊢
    rw [Links.delivered hlinks]
    exact hfront

theorem Requests.isMailbox (h : Requests front k k') (hfront : front = true → ¬ k.PartlyRead)
    (hk : IsMailbox k) : IsMailbox k' := by
  obtain ⟨st, _, hlinks⟩ := h
  obtain ⟨l, mb, href⟩ := hk
  exact hlinks.isMailbox hfront ⟨l, mb, href.setState st⟩

theorem Gets.isMailbox {c : GetArgs} {r : Int} (h : Gets c k r k') (hk : IsMailbox k) :
    IsMailbox k' := by
  cases h with
  | quiet => exact hk
  | piece hmax hfirst hit hchunk =>
    obtain ⟨l, mb, href⟩ := hk
    obtain ⟨l, rfl⟩ := href.holds.of_first hfirst
    have hlen := href.nonneg _ (mem_cons_self ..) _ hit
    obtain ⟨hx, hxn⟩ := c.take_bounds hmax hlen
    obtain ⟨l', href'⟩ := href.takeChunk hit hx hxn hchunk
    exact ⟨l', _, href'⟩

theorem takeChunk_delivered {it : TPrimsg} (h : k.takeChunk a it x = .ok k') :
    k'.delivered = k.delivered ++ [⟨it.serial, (List.range x.toNat).map fun i =>
      it.body (k.priv.offset.toNat + i), if it.length - x ≠ 0 then MORECTL else 0⟩] := by
  rcases takeChunk_ok h with ⟨-, rfl⟩ | ⟨-, hdrop⟩
  · rfl
  · unfold Core.dropHead at hdrop
    split at hdrop
    · cases hdrop
    · split at hdrop
      · cases hdrop
      · obtain rfl := Except.ok.inj hdrop
        rfl

/-- Nothing is partly read while the queue is empty. -/
theorem IsMailbox.not_partlyRead (hk : IsMailbox k) (hfirst : k.priv.pfirst = none) :
    ¬ k.PartlyRead := by
  obtain ⟨l, mb, href⟩ := hk
  intro hpart
  have hpending := href.good.pending_of_partlyRead ((partlyRead_iff href.delivered).mp hpart)
  have hl : l = [] := href.holds.chain.null_iff.mp hfirst
  rw [href.pending, hl] at hpending
  exact hpending rfl

end Steps

/-! ## Runs -/

/-- The operations of the interface itself, without the ioctls on top of it. -/
def Op.Plain : Op → Prop
  | .ioctl _ _ => False
  | _ => True

/-- The operation may put a message in front of the queue: the request has one to
put there, or the socket a connection to announce, and there is memory on offer. -/
def Op.asksFront (op : Op) (s : Sys) : Prop :=
  match op with
  | .putmsg e c => Xti.asksFront e c s = true
  | .updateSocket e _ => acceptsConn e s
  | _ => False

/-- No message is put in front of one that is partly read. -/
def Op.Orderly (op : Op) (s : Sys) : Prop := s.PartlyRead → ¬ op.asksFront s

theorem step_isMailbox {op : Op} {s s' : Sys} {r : Int} (hplain : op.Plain) (hop : op.Orderly s)
    (hs : IsMailbox s.toCore) (h : op.step s = .ok (r, s')) : IsMailbox s'.toCore := by
  cases op with
  | putmsg e c =>
    exact (doPutmsg_requests h).isMailbox (fun hask hpart => hop hpart hask) hs
  | getmsg e c =>
    obtain ⟨k, hlinks, hcase⟩ := doGetmsg_cases e c s
    have hk : IsMailbox k :=
      hlinks.isMailbox (fun hnone => hs.not_partlyRead (Option.isNone_iff_eq_none.mp hnone)) hs
    obtain ⟨g, hg, rfl⟩ := step_getmsg h
    rcases hcase with ⟨g', hg', hgets⟩ | ⟨_, stop, hg', _⟩
    all_goals rw [hg] at hg'
    · obtain rfl := Except.ok.inj hg'
      exact hgets.isMailbox hk
    · simp at hg'
  | updateSocket e fd =>
    obtain rfl := step_updateSocket h
    refine (timodUpdateSocket_links fd decide_eq_true).isMailbox (fun hask hpart => ?_) hs
    have haccepts : acceptsConn e s := of_decide_eq_true hask
    exact hop hpart haccepts
  | ioctl e c => exact absurd hplain id

/-- A `do_getmsg` takes a piece of the first message, which it can copy out, or leaves the
record as it is. -/
theorem doGetmsg_takes {e : Env} {c : GetArgs} {s : Sys} {g : Got} (h : doGetmsg e c s = .ok g) :
    (g.sys.delivered = s.delivered ∧
      (g.ret < 0 ∨ c.ctlMaxlen < 0 ∨ (lookForConnection e c s).priv.pfirst = none)) ∨
    ∃ a it p t, (getEnters e s ∧ 0 ≤ c.ctlMaxlen) ∧
      (lookForConnection e c s).priv.pfirst = some a ∧
      (lookForConnection e c s).heap a = some it ∧
      e.verify true c.ctlBuf (c.take it.length) = true ∧
      p = ⟨it.serial, (List.range (c.take it.length).toNat).map fun i =>
        it.body ((lookForConnection e c s).priv.offset.toNat + i), g.ret⟩ ∧
      g.sys.delivered = s.delivered ++ [p] ∧
      copyToUser e c.ctlBuf p.bytes (lookForConnection e c s) = some t ∧
      g.sys.mem =
        (noData e c (putUser e c.ctlLen (BitVec.ofInt 32 (c.take it.length)) t)).mem := by
  by_cases henter : getEnters e s
  · have hdel : (lookForConnection e c s).delivered = s.delivered :=
      lookForConnection_links.delivered
    have hreceived := congrArg Core.delivered (receive_spec e c s.esp (lookForConnection e c s)).1
    rw [doGetmsg_eq henter] at h
    unfold getFrom at h
    split at h
    next hmax =>
      split at h
      next a hfirst =>
        split at h
        · cases h
        next it hit =>
          rcases deliver_eq e c a it (lookForConnection e c s) with ⟨-, hg⟩ | ⟨t, hv, hcopy, hg⟩
          · obtain rfl := Except.ok.inj (hg.symm.trans h)
            exact .inl ⟨hdel, .inl (show -EFAULT < 0 by decide)⟩
          · obtain ⟨k, hk, rfl⟩ := map_eq_ok (hg.symm.trans h)
            have hdel' := takeChunk_delivered hk
            rw [hdel] at hdel'
            exact .inr ⟨a, it, _, t, ⟨henter, hmax⟩, hfirst, hit, hv.1, rfl, hdel', hcopy, rfl⟩
      next hnone =>
        obtain rfl := Except.ok.inj h
        exact .inl ⟨hreceived.trans hdel, .inr (.inr hnone)⟩
    next hmax =>
      obtain rfl := Except.ok.inj h
      exact .inl ⟨hreceived.trans hdel, .inr (.inl (not_le.mp hmax))⟩
  · obtain ⟨r, hneg, heq⟩ := doGetmsg_turned_down henter
    obtain rfl := Except.ok.inj (heq.symm.trans h)
    exact .inl ⟨rfl, .inl hneg⟩

theorem doGetmsg_hands {e : Env} {c : GetArgs} {s : Sys} {g : Got} (hs : IsMailbox s.toCore)
    (h : doGetmsg e c s = .ok g) : Hands e c s g := by
  rcases doGetmsg_takes h with
    ⟨hdel, hnone⟩ | ⟨a, it, p, t, ⟨-, hmax⟩, hfirst, hit, -, rfl, hdel, hcopy, hmem⟩
  · exact .nothing hdel hnone
  · obtain ⟨l, mb, href⟩ := lookForConnection_links.isMailbox
      (fun hnone => hs.not_partlyRead (Option.isNone_iff_eq_none.mp hnone)) hs
    obtain ⟨l, rfl⟩ := href.holds.of_first hfirst
    have hx := (c.take_bounds hmax (href.nonneg _ (mem_cons_self ..) _ hit)).1
    refine .piece _ t rfl hdel hcopy ?_
    rw [hmem, length_map, length_range, ← BitVec.ofInt_natCast, Int.toNat_of_nonneg hx]

theorem step_handsOver (op : Op) {s : Sys} (hs : IsMailbox s.toCore) : op.HandsOver s := by
  cases op with
  | putmsg e c =>
    intro r s' h
    obtain ⟨st, -, hlinks⟩ := doPutmsg_requests h
    exact hlinks.delivered
  | getmsg e c => exact fun g h => doGetmsg_hands hs h
  | updateSocket e fd =>
    intro r s' h
    obtain rfl := step_updateSocket h
    exact (timodUpdateSocket_links fd decide_eq_true).delivered
  | ioctl e c => exact trivial

/-- An endpoint with an empty queue and position 0, at the start of its history. -/
def Sys.Empty (s : Sys) : Prop :=
  s.priv.pfirst = none ∧ s.priv.plast = none ∧ s.priv.offset = 0 ∧ s.queued = [] ∧
    s.delivered = []

theorem Sys.Empty.isMailbox {s : Sys} (hs : s.Empty) : IsMailbox s.toCore := by
  obtain ⟨hfirst, hlast, hoff, hqueued, hdel⟩ := hs
  refine ⟨[], ⟨[], [], []⟩, ?_, Mailbox.good_empty, ?_, rfl, ?_, hdel, hoff⟩
  · show Queue TPrimsg.next s.heap s.priv.pfirst s.priv.plast []
    rw [hfirst, hlast]
    exact Queue.empty
  · nofun
  · rw [hqueued]
    rfl

section Exact

variable {k : Core} {l : List Addr} {mb : Mailbox Byte}

theorem Refines.pieces_eq (h : Refines k l mb) (i : Nat) :
    k.pieces i = (mb.pieces i).map Chunk.ofPiece := by
  unfold Core.pieces Mailbox.pieces
  rw [h.delivered, filter_map]
  rfl

theorem ofPiece_ret (p : Piece Byte) : (Chunk.ofPiece p).ret = MORECTL ↔ p.more = true := by
  unfold Chunk.ofPiece
  cases p.more <;> simp [MORECTL]

theorem flatMap_ofPiece (ps : List (Piece Byte)) :
    (ps.map Chunk.ofPiece).flatMap Chunk.bytes = ps.flatMap Piece.content := by
  rw [flatMap_map]
  rfl

theorem letter_fst (h : k.heap a = some n) (r : Int) : (k.letter r a).1 = n.serial := by
  rw [letter_of_heap h]

/-- A message is in the queue exactly if the mailbox has it pending. -/
theorem Refines.waiting_iff (h : Refines k l mb) (i : Nat) : k.Waiting i ↔ mb.Pending i := by
  have hfst : mb.pending.map Prod.fst = l.map fun a => (k.letter 0 a).1 := by
    rw [h.pending]
    cases l with
    | nil => rfl
    | cons a l =>
      obtain ⟨n, hn⟩ := h.holds.chain.live (mem_cons_self ..)
      unfold Core.letters
      rw [map_cons, map_cons, map_map, letter_fst hn, letter_fst hn]
      rfl
  unfold Mailbox.Pending
  rw [hfst, mem_map]
  constructor
  · rintro ⟨l', a, n, hholds, ha, hn, hserial⟩
    obtain rfl := hholds.chain.unique h.holds.chain
    exact ⟨a, ha, (letter_fst hn 0).trans hserial⟩
  · rintro ⟨a, ha, hserial⟩
    obtain ⟨n, hn⟩ := h.holds.chain.live ha
    exact ⟨l, a, n, h.holds, ha, hn, (letter_fst hn 0).symm.trans hserial⟩

theorem Refines.byteExact (h : Refines k l mb) : ByteExact k := by
  intro i m hm
  have hq : mb.queued[i]? = some m.payload := by
    rw [h.queued, getElem?_map, hm]
    rfl
  obtain ⟨hmid, hpending, hdone⟩ := h.good.exact i m.payload hq
  rw [h.pieces_eq, h.waiting_iff, flatMap_ofPiece, h.delivered]
  refine ⟨?_, ?_, ?_⟩
  · obtain ⟨pre, post, heq⟩ := hmid
    exact ⟨pre.map Chunk.ofPiece, post.map Chunk.ofPiece, by
      rw [← map_append, ← map_append, heq]⟩
  · intro hp
    obtain ⟨hbytes, hmore⟩ := hpending hp
    refine ⟨hbytes, ?_⟩
    intro c hc
    obtain ⟨p, hpm, rfl⟩ := mem_map.mp hc
    exact (ofPiece_ret p).mpr (hmore p hpm)
  · intro hp
    obtain ⟨hbytes, init, last, heq, hinit, hlast⟩ := hdone hp
    refine ⟨hbytes, init.map Chunk.ofPiece, Chunk.ofPiece last, ?_, ?_, ?_⟩
    · rw [heq, map_append, map_singleton]
    · intro c hc
      obtain ⟨p, hpm, rfl⟩ := mem_map.mp hc
      exact (ofPiece_ret p).mpr (hinit p hpm)
    · unfold Chunk.ofPiece
      rw [hlast]
      rfl

end Exact

/-- An unbind request that gets the block at `a` for its acknowledgement. -/
def unbindWith (a : Addr) : Op := .putmsg { plainEnv with ackAlloc := some (freeBlock a) } (putAt 4)

/-- A read of at most `maxlen` bytes. -/
def readSome (maxlen : Int) : Op := .getmsg plainEnv (getAt maxlen)

end AbiEmu.Xti
