import AbiEmu.Xti.Delivery
import AbiEmu.Xti.NodeStores

/-!
# Are message nodes ever overrun?

The other half of the promise is about those who read a node. `do_getmsg` and `i_peek`
copy from a position on that belongs to the endpoint and not to the message, and nothing
but the number of bytes that are left keeps them inside. `Reading.Inside` says of one copy
that it takes filled bytes of the message only.

`Core.Placed` is the invariant behind it: the position counts what is gone of the first
message, and is 0 if that message was never touched. It lives as long as no message is put
in front of one that is partly read. `nodes_kept_iff` puts this and the stores together,
for all runs.
-/

namespace AbiEmu.Xti

/-! ## Reads -/

/-- A copy of `len` bytes from `off` on, out of a message of which `filled` bytes have been
filled. -/
structure Reading where
  filled : Int
  off : Int
  len : Int
  deriving DecidableEq, Repr

/-- The copy begins and ends in the filled part. -/
def Reading.Inside (r : Reading) : Prop := 0 < r.len → 0 ≤ r.off ∧ r.off + r.len ≤ r.filled
  deriving Decidable

/-- The copy of `len` bytes out of the message `it`. What has been filled of it is the
length it had when it entered the queue. -/
def Core.reading (k : Core) (it : TPrimsg) (len : Int) : Reading :=
  ⟨((k.queued[it.serial]?).map TPrimsg.length).getD 0, k.priv.offset, len⟩

/-- The copy of `do_getmsg`. -/
def GetCall.reads (g : GetCall) : List Reading :=
  if getEnters g.env g.sys ∧ 0 ≤ g.args.ctlMaxlen then
    match g.looked.priv.pfirst.bind g.looked.heap with
    | none => []
    | some it =>
      if g.env.verify true g.args.ctlBuf (g.args.take it.length) then
        [g.looked.reading it (g.args.take it.length)]
      else []
  else []

/-- The bytes the copy takes out of the message `it`. -/
def Reading.bytes (r : Reading) (it : TPrimsg) : List Byte :=
  (List.range r.len.toNat).map fun i => it.body (r.off.toNat + i)

/-- The call hands out nothing, or the bytes of its copy. -/
def GetCall.Copies (q : GetCall) : Prop :=
  ∀ g, doGetmsg q.env q.args q.sys = .ok g → g.sys.delivered = q.sys.delivered ∨
    ∃ it r ret, q.looked.priv.pfirst.bind q.looked.heap = some it ∧ q.reads = [r] ∧
      g.sys.delivered = q.sys.delivered ++ [⟨it.serial, r.bytes it, ret⟩]

/-- The copy of `i_peek`, out of the message `tp`; a negative length fails before
anything is copied. -/
def peekReads (uap : Word) (s0 : Sys) (tp : TPrimsg) (f : File) : List Reading :=
  let flags := s0.mem.word (uap + 24)
  if flags = 0 ∨ flags = tp.pri.setWidth 32 then
    let maxlen := (s0.mem.word uap).toInt
    let l := if maxlen ≤ tp.length then maxlen else tp.length
    if l < 0 then [] else [f.sys.reading tp l]
  else []

namespace FileOp

/-- The copies an operation makes out of messages. -/
def reads (op : FileOp) (f : File) : List Reading :=
  match op with
  | .op o => (o.gets f.sys).flatMap GetCall.reads
  | .peek e fd uap =>
    if e.canRead uap 28 = true ∧ f.inode.isSock then
      match f.looked e fd with
      | .error _ => []
      | .ok f1 =>
        match f1.first with
        | none => []
        | some tp => peekReads uap f.sys tp f1
    else []
  | .nread .. => []

/-- What the user gets of a message is what these copies take out of it: a `do_getmsg` hands
out nothing or the bytes of its copy, and so does `i_peek`. -/
def Copies (op : FileOp) (f : File) : Prop :=
  match op with
  | .op o => ∀ q ∈ o.gets f.sys, q.Copies
  | .peek e fd uap => ∀ x g, iPeek e fd uap f = .ok (x, g) → g = f ∨
    ∃ f1, f.looked e fd = .ok f1 ∧ (g = f1 ∨ ∃ tp r t, f1.first = some tp ∧ op.reads f = [r] ∧
      copyToUser e (f.sys.mem.word (uap + 8)) (r.bytes tp) f1.sys = some t)
  | .nread .. => True

/-- `timod_update_socket` may put a message in front of the queue. -/
def looksFront (e : Env) (f : File) : Prop :=
  f.inode.isSock ∧ f.inode.isSocksys ∧ acceptsConn e f.sys

/-- The operation may put a message in front of the queue. -/
def asksFront (op : FileOp) (f : File) : Prop :=
  match op with
  | .op o => o.asksFront f.sys ∨ ∃ x ∈ o.request, Xti.asksFront x.1 x.2 f.sys = true
  | .peek e _ _ => looksFront e f
  | .nread e _ _ _ => looksFront e f

/-- It does not do so while the first message is partly read. -/
def Tidy (op : FileOp) (f : File) : Prop := f.sys.priv.offset ≠ 0 → ¬ op.asksFront f

end FileOp

/-! ## The position -/

/-- What is left of the message in the block at `a`, read from `r` on, is part of what it
had. -/
def Core.Room (k : Core) (r : Int) (a : Addr) : Prop :=
  ∀ n, k.heap a = some n → 0 ≤ n.length ∧
    ∃ m, k.queued[n.serial]? = some m ∧ r + n.length ≤ m.length

/-- The queue holds the blocks `l`, the position fits the first message, and the others
are whole. -/
structure Core.PlacedAt (k : Core) (l : List Addr) : Prop where
  holds : k.Holds l
  nonneg : 0 ≤ k.priv.offset
  empty : l = [] → k.priv.offset = 0
  whole : ∀ a ∈ l, k.Room 0 a
  head : ∀ a ∈ l.head?, k.Room k.priv.offset a

/-- The same of whatever blocks the queue holds. -/
def Core.Placed (k : Core) : Prop := ∃ l, k.PlacedAt l

section Placed

variable {k k' : Core} {l : List Addr} {a : Addr} {n : TPrimsg} {r : Int} {front : Bool}

theorem Core.Room.frame (h : k.Room r a) (hheap : k'.heap a = k.heap a)
    (hq : k.queued <+: k'.queued) : k'.Room r a := by
  intro n hn
  obtain ⟨hlen, m, hm, hle⟩ := h n (hheap ▸ hn)
  obtain ⟨rest, hrest⟩ := hq
  refine ⟨hlen, m, ?_, hle⟩
  rw [← hrest, List.getElem?_append_left (List.getElem?_eq_some_iff.mp hm).1]
  exact hm

theorem Core.Placed.setState (h : k.Placed) (st : TState) : (k.setState st).Placed := by
  obtain ⟨l, hl⟩ := h
  exact ⟨l, hl.holds, hl.nonneg, hl.empty, hl.whole, hl.head⟩

/-- A new message is whole. -/
theorem room_new {next : Option Addr} (hn : 0 ≤ n.length)
    (hnew : k'.heap a = some (k.entering n next))
    (hq : k'.queued = k.queued ++ [k.entering n next]) : k'.Room 0 a := by
  intro m hm
  obtain rfl := Option.some.inj (hnew.symm.trans hm)
  refine ⟨hn, k.entering n next, ?_, ?_⟩
  · rw [hq]
    exact List.getElem?_concat_length
  · rw [zero_add]

namespace Core.PlacedAt

section

variable (h : k.PlacedAt l)

include h

theorem alloc {alloc : Option Block} {len : Int} {b : Block}
    (hb : k.timodMkctl alloc len = some (b, k')) : k'.PlacedAt l ∧ b.addr ∉ l := by
  obtain ⟨hl', hnot⟩ := h.holds.alloc hb
  obtain ⟨_, _, rfl⟩ := timodMkctl_spec hb
  have hagree := update_agree (h := k.heap) (v := some b.junk) hnot
  refine ⟨⟨hl', h.nonneg, h.empty, fun a ha => ?_, fun a ha => ?_⟩, hnot⟩
  · exact (h.whole a ha).frame (hagree a ha) List.prefix_rfl
  · exact (h.head a ha).frame (hagree a (List.mem_of_mem_head? ha)) List.prefix_rfl

/-- A message may come in front only at position 0. -/
theorem pushFront (hoff : k.priv.offset = 0) (ha : a ∉ l) (hn : 0 ≤ n.length) :
    (k.pushFront a n).PlacedAt (a :: l) := by
  have hagree := update_agree (h := k.heap) (v := some (k.entering n k.priv.pfirst)) ha
  have hnew : (k.pushFront a n).Room 0 a := room_new hn (Function.update_self ..) rfl
  refine ⟨h.holds.pushFront ha, hoff.ge, nofun, ?_, ?_⟩
  · rintro b hb
    rcases List.mem_cons.mp hb with rfl | hb
    · exact hnew
    · exact (h.whole b hb).frame (hagree b hb) (List.prefix_append ..)
  · rintro b hb
    obtain rfl := Option.some.inj hb
    show Core.Room _ k.priv.offset _
    rw [hoff]
    exact hnew

theorem appendTail (ha : a ∉ l) (hn : 0 ≤ n.length) (hk : k.appendTail a n = .ok k') :
    k'.PlacedAt (l ++ [a]) := by
  have hl' := h.holds.appendTail ha hk
  obtain ⟨hnew, hold, -⟩ := h.holds.linked ha hk
  obtain ⟨last, nl, hlast, -, rfl⟩ := appendTail_spec hk
  have hmem : last ∈ l := List.mem_of_getLast? (h.holds.last_eq ▸ hlast)
  -- only the link of the old last block differs
  have hkeep : ∀ b ∈ l, ∀ r, k.Room r b → (k.linkTail a n last nl).Room r b := by
    intro b hb r hroom m hm
    obtain ⟨m₀, next, hm₀, hm₁⟩ := hold b hb
    obtain rfl := Option.some.inj (hm₁.symm.trans hm)
    obtain ⟨hlen, m, hm, hle⟩ := hroom m₀ hm₀
    refine ⟨hlen, m, ?_, hle⟩
    show (k.queued ++ _)[_]? = _
    rw [List.getElem?_append_left (List.getElem?_eq_some_iff.mp hm).1]
    exact hm
  refine ⟨hl', h.nonneg, fun hnil => ?_, ?_, ?_⟩
  · exact absurd (List.append_eq_nil_iff.mp hnil).2 (List.cons_ne_nil _ _)
  · intro b hb
    rcases List.mem_append.mp hb with hb | hb
    · exact hkeep b hb 0 (h.whole b hb)
    · rw [List.mem_singleton.mp hb]
      exact room_new hn hnew rfl
  · intro b hb
    cases l with
    | nil => exact nomatch hmem
    | cons c l =>
      obtain rfl := Option.some.inj hb
      exact hkeep c (List.mem_cons_self ..) _ (h.head c rfl)

theorem dropHead (hk : k.dropHead = .ok k') : k'.Placed := by
  obtain ⟨a, l, rfl, hl1, hoff, hq, -, hheap⟩ := h.holds.dropped hk
  have hnot := (List.nodup_cons.mp h.holds.chain.nodup).1
  have hroom : ∀ b ∈ l, k'.Room 0 b := by
    intro b hb
    refine (h.whole b (List.mem_cons_of_mem _ hb)).frame ?_ (hq ▸ List.prefix_rfl)
    rw [hheap]
    exact update_agree hnot b hb
  refine ⟨l, hl1, hoff.ge, fun _ => hoff, hroom, fun b hb => ?_⟩
  rw [hoff]
  exact hroom b (List.mem_of_mem_head? hb)

end

/-- The message loses what the position gains. -/
theorem handOut (h : k.PlacedAt (a :: l)) (hn : k.heap a = some n) {x : Int} (hpos : 0 ≤ x)
    (hmost : x ≤ n.length) :
    (k.handOut a n x).PlacedAt (a :: l) ∧ ((k.handOut a n x).advance x).PlacedAt (a :: l) := by
  have hnot := (List.nodup_cons.mp h.holds.chain.nodup).1
  have hoff := h.nonneg
  obtain ⟨hlen, m, hm, hle⟩ := h.head a rfl n hn
  have hnew : (k.handOut a n x).heap a = some { n with length := n.length - x } :=
    Function.update_self ..
  have hleft (p : Int) (hp : p ≤ k.priv.offset + x) : (k.handOut a n x).Room p a := by
    intro n' hn'
    obtain rfl := Option.some.inj (hnew.symm.trans hn')
    refine ⟨?_, m, hm, ?_⟩
    · show 0 ≤ n.length - x
      omega
    · show p + (n.length - x) ≤ m.length
      omega
  have hout : ∀ d ∈ a :: l, (k.handOut a n x).Room 0 d := by
    intro d hd
    rcases List.mem_cons.mp hd with rfl | hd
    · exact hleft 0 (by omega)
    · exact (h.whole d (List.mem_cons_of_mem _ hd)).frame (update_agree hnot d hd) List.prefix_rfl
  refine ⟨⟨h.holds.handOut hn x, hoff, nofun, hout, fun d hd => ?_⟩,
    ⟨h.holds.handOut hn x, ?_, nofun, hout, fun d hd => ?_⟩⟩
  · obtain rfl := Option.some.inj hd
    exact hleft k.priv.offset (by omega)
  · show 0 ≤ k.priv.offset + x
    omega
  · obtain rfl := Option.some.inj hd
    exact hleft (k.priv.offset + x) (le_refl _)

end Core.PlacedAt

variable {c : GetArgs}

theorem Gets.placed (h : Gets c k r k') (hk : k.Placed) : k'.Placed := by
  cases h with
  | quiet => exact hk
  | @piece a it k' hmax hfirst hit hchunk =>
    obtain ⟨l, hl⟩ := hk
    obtain ⟨l, rfl⟩ := hl.holds.of_first hfirst
    have hlen := (hl.head a rfl it hit).1
    obtain ⟨hpos, hmost⟩ := c.take_bounds hmax hlen
    obtain ⟨hout, hadvanced⟩ := hl.handOut hit hpos hmost
    rcases takeChunk_ok hchunk with ⟨-, rfl⟩ | ⟨-, hchunk⟩
    · exact ⟨_, hadvanced⟩
    · exact hout.dropHead hchunk

theorem queueWords_offset (k : Core) (alloc : Option Block) (words : List Word) :
    (k.queueWords alloc words).priv.offset = k.priv.offset := by
  unfold Core.queueWords
  split
  · rfl
  next b k1 hb =>
    obtain ⟨_, _, rfl⟩ := timodMkctl_spec hb
    rfl

theorem timodMkctl_offset {alloc : Option Block} {len : Int} {b : Block}
    (hb : k.timodMkctl alloc len = some (b, k')) : k'.priv.offset = k.priv.offset := by
  obtain ⟨_, _, rfl⟩ := timodMkctl_spec hb
  rfl

theorem Link.offset (h : Link front k k') : k'.priv.offset = k.priv.offset := by
  cases h with
  | alloc hb => exact timodMkctl_offset hb
  | push _ hb _ =>
    obtain ⟨_, _, rfl⟩ := timodMkctl_spec hb
    rfl
  | answer _ hb _ ha =>
    obtain ⟨_, _, rfl⟩ := timodMkctl_spec hb
    obtain ⟨_, _, _, _, rfl⟩ := appendTail_spec ha
    exact queueWords_offset ..

/-- The acknowledgement in front of an answer; the answer's own block stays outside. -/
theorem Core.PlacedAt.timodOk (h : k.PlacedAt l) {ack : Option Block} {prim : Word}
    (hzero : ack.isSome → k.priv.offset = 0) (ha : k.heap a ≠ none) (hnot : a ∉ l) :
    ∃ l', (k.timodOk ack prim).PlacedAt l' ∧ a ∉ l' := by
  unfold Core.timodOk Core.queueWords
  split
  · exact ⟨l, h, hnot⟩
  next b k1 hb =>
    obtain ⟨h1, hfresh⟩ := h.alloc hb
    have hoff : k1.priv.offset = 0 :=
      (timodMkctl_offset hb).trans (hzero (timodMkctl_isSome hb))
    refine ⟨b.addr :: l, h1.pushFront hoff hfresh (show (0 : Int) ≤ 4 * 2 by decide),
      fun hmem => ?_⟩
    rcases List.mem_cons.mp hmem with rfl | hmem
    · exact ha (timodMkctl_spec hb).2.1
    · exact hnot hmem

theorem Link.placed (h : Link front k k') (hfront : front = true → k.priv.offset = 0)
    (hk : k.Placed) : k'.Placed := by
  obtain ⟨l, hl⟩ := hk
  cases h with
  | alloc hb => exact ⟨l, (hl.alloc hb).1⟩
  | push hf hb hn =>
    obtain ⟨hl', hfresh⟩ := hl.alloc hb
    have hoff := (timodMkctl_offset hb).trans (hfront hf)
    exact ⟨_, hl'.pushFront hoff hfresh hn⟩
  | @answer k1 k2 alloc ack len b prim hf hb n hn ha =>
    obtain ⟨hl', hfresh⟩ := hl.alloc hb
    have hoff := timodMkctl_offset hb
    obtain ⟨l', hok, hnot⟩ :=
      hl'.timodOk (fun hack => hoff.trans (hfront (hf hack))) (timodMkctl_live hb) hfresh
    exact ⟨_, hok.appendTail hnot hn ha⟩

theorem Links.placed (h : Links front k k') (hfront : front = true → k.priv.offset = 0)
    (hk : k.Placed) : k'.Placed := by
  have hall : k'.Placed ∧ k'.priv.offset = k.priv.offset := by
    induction h with
    | refl => exact ⟨hk, rfl⟩
    | tail _ hlink ih =>
      obtain ⟨hplaced, hoff⟩ := ih
      exact ⟨hlink.placed (fun hf => hoff.trans (hfront hf)) hplaced, hlink.offset.trans hoff⟩
  exact hall.1

theorem Core.Placed.offset_of_empty (h : k.Placed) (hfirst : k.priv.pfirst = none) :
    k.priv.offset = 0 := by
  obtain ⟨l, hl⟩ := h
  exact hl.empty (hl.holds.chain.null_iff.mp hfirst)

variable {e : Env}

theorem lookForConnection_placed {s : Sys} (hs : s.toCore.Placed) :
    (lookForConnection e c s).toCore.Placed :=
  lookForConnection_links.placed
    (fun hnone => hs.offset_of_empty (Option.isNone_iff_eq_none.mp hnone)) hs

theorem doGetmsg_placed {s : Sys} {g : Got} (h : doGetmsg e c s = .ok g) (hs : s.toCore.Placed) :
    g.sys.toCore.Placed := by
  by_cases henter : getEnters e s
  · rw [doGetmsg_eq henter] at h
    exact (getFrom_gets h).placed (lookForConnection_placed hs)
  · obtain ⟨ret, -, hdown⟩ := doGetmsg_turned_down henter
    obtain rfl := Except.ok.inj (hdown.symm.trans h)
    exact hs

theorem Fetches.placed {e : IoctlEnv} {c : IoctlArgs} (h : Fetches e c k k')
    (hk : k.Placed) : k'.Placed := by
  induction h with
  | quiet => exact hk
  | get h | get' h => exact doGetmsg_placed h hk
  | drop h =>
    obtain ⟨l, hl⟩ := hk
    exact hl.dropHead h
  | trans _ _ ih ih' => exact ih' (ih hk)

/-- The copy of a part of the first message. -/
theorem Core.Placed.reading (h : k.Placed) (hfirst : k.priv.pfirst.bind k.heap = some n) {x : Int}
    (hx : x ≤ n.length) : (k.reading n x).Inside := by
  obtain ⟨l, hl⟩ := h
  obtain ⟨a, ha, hn⟩ := Option.bind_eq_some_iff.mp hfirst
  obtain ⟨l, rfl⟩ := hl.holds.of_first ha
  obtain ⟨-, m, hm, hle⟩ := hl.head a rfl n hn
  intro _
  refine ⟨hl.nonneg, ?_⟩
  show k.priv.offset + x ≤ ((k.queued[n.serial]?).map TPrimsg.length).getD 0
  rw [hm]
  show k.priv.offset + x ≤ m.length
  omega

end Placed

/-! ## Operations of a file -/

section FileSteps

variable {e : Env} {s t : Sys} {r : Int} {c : PutArgs}

theorem doPutmsg_placed (h : doPutmsg e c s = .ok (r, t))
    (htidy : s.priv.offset ≠ 0 → ¬ asksFront e c s = true) (hs : s.toCore.Placed) :
    t.toCore.Placed := by
  obtain ⟨st, -, hlinks⟩ := doPutmsg_requests h
  refine hlinks.placed (fun hask => ?_) (hs.setState st)
  by_contra hoff
  exact htidy hoff hask

theorem timodUpdateSocket_placed (fd : Word)
    (htidy : s.priv.offset ≠ 0 → ¬ (Op.updateSocket e fd).asksFront s) (hs : s.toCore.Placed) :
    (timodUpdateSocket e fd s).2.toCore.Placed := by
  refine (timodUpdateSocket_links fd decide_eq_true).placed (fun hask => ?_) hs
  by_contra hoff
  have haccepts : acceptsConn e s := of_decide_eq_true hask
  exact htidy hoff haccepts

variable {f : File}

theorem step_placed {op : Op} (htidy : (FileOp.op op).Tidy f) (hs : f.sys.toCore.Placed)
    (h : op.step f.sys = .ok (r, t)) : t.toCore.Placed := by
  cases op with
  | putmsg e c => exact doPutmsg_placed h (fun hoff hask => htidy hoff (.inl hask)) hs
  | getmsg e c =>
    obtain ⟨g, hg, rfl⟩ := step_getmsg h
    exact doGetmsg_placed hg hs
  | updateSocket e fd =>
    obtain rfl := step_updateSocket h
    exact timodUpdateSocket_placed fd (fun hoff hask => htidy hoff (.inl hask)) hs
  | ioctl e c =>
    rcases timodIoctl_cases h with ⟨hreq, error, u, hput, hfetch⟩ | ⟨-, hsame | hunbnd⟩
    · refine hfetch.placed (doPutmsg_placed hput (fun hoff hask => ?_) hs)
      exact htidy hoff (.inr ⟨_, hreq, hask⟩)
    · rw [hsame]
      exact hs
    · rw [hunbnd]
      exact hs.setState .unbnd

/-- Behind the check of a stream ioctl. -/
theorem looked_placed {fd : Word} {f f1 : File} (hsock : f.inode.isSock)
    (htidy : f.sys.priv.offset ≠ 0 → ¬ FileOp.looksFront e f) (hf : f.sys.toCore.Placed)
    (h : f.looked e fd = .ok f1) : f1.sys.toCore.Placed := by
  rcases looked_cases h with ⟨⟨hsys, -⟩, rfl⟩ | ⟨-, rfl⟩
  · exact timodUpdateSocket_placed fd (fun hoff hask => htidy hoff ⟨hsock, hsys, hask⟩) hf
  · exact hf

theorem fileStep_placed {op : FileOp} {f g : File} (htidy : op.Tidy f) (hf : f.sys.toCore.Placed)
    (h : op.step f = .ok (r, g)) : g.sys.toCore.Placed := by
  cases op with
  | op o =>
    obtain ⟨u, ho, hg⟩ := fileStep_op h
    rw [hg]
    exact step_placed htidy hf ho
  | peek e fd uap =>
    rcases iPeek_cases h with ⟨-, rfl, -⟩ | ⟨⟨-, hsock⟩, f1, hlook, hg⟩
    · exact hf
    · obtain rfl : g = _ := congrArg Prod.snd hg
      rw [(peekQueue_onlyMem ..).toCore]
      exact looked_placed hsock htidy hf hlook
  | nread e inq fd data =>
    rcases iNread_cases h with ⟨-, hg⟩ | ⟨-, hg⟩ | ⟨⟨-, hsock⟩, f1, hlook, hg⟩
    · obtain rfl : g = _ := congrArg Prod.snd hg
      exact hf
    all_goals obtain rfl : g = _ := congrArg Prod.snd hg
    · rw [(askSocket_onlyMem ..).toCore]
      exact hf
    · rw [(nreadQueue_onlyMem ..).toCore]
      exact looked_placed hsock htidy hf hlook

/-! ### What is read -/

theorem GetCall.reads_inside {g : GetCall} (hs : g.sys.toCore.Placed) :
    ∀ r ∈ g.reads, r.Inside := by
  have hplaced : g.looked.toCore.Placed := lookForConnection_placed hs
  unfold GetCall.reads
  split
  next henter =>
    split
    · exact nofun
    next it hfirst =>
      split
      · refine List.forall_mem_singleton.mpr (hplaced.reading hfirst ?_)
        unfold GetArgs.take
        split <;> omega
      · exact nofun
  · exact nofun

/-- Every call of `do_getmsg` finds the position in its place. -/
def GetsPlaced (gs : List GetCall) : Prop := ∀ g ∈ gs, g.sys.toCore.Placed

theorem GetsPlaced.nil : GetsPlaced [] := fun _ hg => nomatch hg

theorem GetsPlaced.append {gs gs' : List GetCall} (h : GetsPlaced gs) (h' : GetsPlaced gs') :
    GetsPlaced (gs ++ gs') :=
  List.forall_mem_append.mpr ⟨h, h'⟩

theorem ioctlGets_placed (e : IoctlEnv) (c : IoctlArgs) (hs : s.toCore.Placed) :
    GetsPlaced (ioctlGets e c s) := by
  refine .append (List.forall_mem_singleton.mpr hs : GetsPlaced [⟨e.get, c.getArgs, s⟩]) ?_
  split
  · exact .nil
  next g hg =>
    split
    · exact List.forall_mem_singleton.mpr (doGetmsg_placed hg hs)
    · exact .nil

theorem gets_placed {op : Op} (htidy : (FileOp.op op).Tidy f) (hs : f.sys.toCore.Placed) :
    GetsPlaced (op.gets f.sys) := by
  cases op with
  | putmsg | updateSocket => exact .nil
  | getmsg e c => exact List.forall_mem_singleton.mpr hs
  | ioctl e c =>
    unfold Op.gets
    dsimp only
    split
    next x r s1 hreq hput =>
      have hx : (Op.ioctl e c).request = some (e.put, c.putArgs) := by
        unfold Op.request at hreq ⊢
        dsimp only at hreq ⊢
        split at hreq
        next h => exact if_pos h
        · exact nomatch hreq
      have hplaced : s1.toCore.Placed :=
        doPutmsg_placed hput (fun hoff hask => htidy hoff (.inr ⟨_, hx, hask⟩)) hs
      split
      · exact ioctlGets_placed e c hplaced
      · exact .nil
    · exact .nil

variable {tp : TPrimsg}

theorem peekReads_inside {uap : Word} {s0 : Sys} (hf : f.sys.toCore.Placed)
    (hfirst : f.sys.priv.pfirst.bind f.sys.heap = some tp) :
    ∀ r ∈ peekReads uap s0 tp f, r.Inside := by
  unfold peekReads
  dsimp only
  split_ifs
  · exact nofun
  · exact List.forall_mem_singleton.mpr (hf.reading hfirst (by assumption))
  · exact nofun
  · exact List.forall_mem_singleton.mpr (hf.reading hfirst (le_refl _))
  · exact nofun

theorem File.first_bind (h : f.first = some tp) : f.sys.priv.pfirst.bind f.sys.heap = some tp := by
  unfold File.first at h
  split at h
  · exact nomatch h
  · exact h

theorem fileReads_inside {op : FileOp} (htidy : op.Tidy f) (hf : f.sys.toCore.Placed) :
    ∀ r ∈ op.reads f, r.Inside := by
  cases op with
  | op o =>
    intro r hr
    obtain ⟨g, hg, hr⟩ := List.mem_flatMap.mp hr
    exact GetCall.reads_inside (gets_placed htidy hf g hg) r hr
  | nread => exact nofun
  | peek e fd uap =>
    unfold FileOp.reads
    dsimp only
    split
    next hsock =>
      split
      · exact nofun
      next f1 hlook =>
        have hplaced := looked_placed hsock.2 htidy hf hlook
        split
        · exact nofun
        next tp hfirst => exact peekReads_inside hplaced (File.first_bind hfirst)
    · exact nofun

end FileSteps

theorem GetCall.copies (q : GetCall) : q.Copies := by
  intro g h
  rcases doGetmsg_takes h with ⟨hdel, -⟩ | ⟨a, it, _, _, henter, hfirst, hit, hv, rfl, hdel, -⟩
  · exact .inl hdel
  · have hhead : q.looked.priv.pfirst.bind q.looked.heap = some it := by
      rw [show q.looked.priv.pfirst = some a from hfirst]
      exact hit
    refine .inr ⟨it, q.looked.reading it (q.args.take it.length), _, hhead, ?_, hdel⟩
    rw [GetCall.reads, if_pos henter, hhead]
    exact if_pos hv

theorem peekAt_copies (e : Env) (uap : Word) (s0 : Sys) (tp : TPrimsg) (f : File) :
    (peekAt e uap s0 tp f).2 = f ∨ ∃ r t, peekReads uap s0 tp f = [r] ∧
      copyToUser e (s0.mem.word (uap + 8)) (r.bytes tp) f.sys = some t := by
  unfold peekAt peekReads
  dsimp only
  split
  · generalize (if (s0.mem.word uap).toInt ≤ tp.length then _ else _ : Int) = l
    by_cases hneg : l < 0
    · rw [if_pos hneg]
      exact .inl rfl
    · rw [if_neg hneg, if_neg hneg]
      split
      · exact .inl rfl
      next t hcopy => exact .inr ⟨_, t, rfl, hcopy⟩
  · exact .inl rfl

theorem FileOp.copies (op : FileOp) (f : File) : op.Copies f := by
  cases op with
  | op o => exact fun q _ => q.copies
  | nread => exact trivial
  | peek e fd uap =>
    intro x g h
    unfold FileOp.reads
    unfold iPeek at h
    dsimp only
    split_ifs at h with hread hsock
    · rw [if_pos ⟨hread, hsock⟩]
      cases hlook : f.looked e fd with
      | error fault =>
        rw [hlook] at h
        cases h
      | ok f1 =>
        rw [hlook] at h
        obtain rfl : (peekQueue e uap f.sys f1).2 = g := congrArg Prod.snd (Except.ok.inj h)
        refine .inr ⟨f1, rfl, ?_⟩
        unfold peekQueue
        dsimp only
        cases hfirst : f1.first with
        | none => exact .inl rfl
        | some tp =>
          rcases peekAt_copies e uap f.sys tp f1 with hsame | ⟨r, t, hr, hcopy⟩
          · exact .inl hsame
          · exact .inr ⟨tp, r, t, rfl, hr, hcopy⟩
    all_goals exact .inl (Prod.mk.inj (Except.ok.inj h)).2.symm

/-! ## The guarantee -/

/-- What is promised of an operation: its nodes are sound and its copies out of messages
stay in what was filled, where the log of the nodes is that of the model and nothing but what
the copies take is handed out. -/
structure NodesKept (op : FileOp) (f : File) : Prop where
  stores : ∀ m ∈ op.made f, m.Sound
  reads : ∀ r ∈ op.reads f, r.Inside
  account : ∀ r g, op.step f = .ok (r, g) → Account (op.made f) f.sys.toCore g.sys.toCore
  copies : op.Copies f

theorem nodesKept_iff {op : FileOp} (hint : op.IntLength) (htidy : op.Tidy f)
    (hf : f.sys.toCore.Placed) : NodesKept op f ↔ ∀ m ∈ op.made f, m.recipe.Fits := by
  have hpossible := made_possible hint f
  constructor
  · intro h m hm
    exact (sound_iff_fits (hpossible m hm)).mp (h.stores m hm)
  · intro hfits
    refine ⟨fun m hm => ?_, fileReads_inside htidy hf, fun r g => fileStep_account, op.copies f⟩
    exact (sound_iff_fits (hpossible m hm)).mpr (hfits m hm)

theorem Sys.Empty.placed {s : Sys} (hs : s.Empty) : s.toCore.Placed := by
  obtain ⟨hfirst, hlast, hoff, -, -⟩ := hs
  refine ⟨[], ?_, hoff.ge, fun _ => hoff, ?_, nofun⟩
  · show Queue TPrimsg.next s.heap s.priv.pfirst s.priv.plast []
    rw [hfirst, hlast]
    exact Queue.empty
  · nofun

theorem intLength_put (h : IsInt c.ctlLen) : (FileOp.op (.putmsg e c)).IntLength := by
  intro x hx
  obtain rfl := Option.some.inj hx
  exact h

/-- On a socket that is no stream, nobody finds a connection. -/
theorem looks_made_plain {ls : List Look} (h : ∀ l ∈ ls, l.env = plainEnv) :
    ls.flatMap Look.made = [] := by
  refine List.flatMap_eq_nil_iff.mpr fun l hl => if_neg fun hcall => ?_
  have hstream : l.env.stream = true := hcall.1.1
  rw [h l hl] at hstream
  exact nomatch hstream

theorem readSome_looks (n : Int) (g : File) :
    ∀ l ∈ (FileOp.op (readSome n)).looks g, l.env = plainEnv := by
  intro l hl
  obtain ⟨c, hc, hl⟩ := List.mem_flatMap.mp hl
  obtain rfl := List.mem_singleton.mp hc
  unfold GetCall.looks at hl
  split at hl
  · rw [List.mem_singleton.mp hl]
  · exact nomatch hl

/-- An acknowledgement that is looked at, and then read in two pieces. -/
def ackThenReads : List FileOp :=
  [.op (unbindWith 1), .peek plainEnv 3 0x1000, .op (readSome 4), .op (readSome 4)]

/-- A request of `len` bytes, for which there is memory. -/
def requestOf (len : Int) : FileOp :=
  .op (.putmsg { plainEnv with ctlAlloc := some (freeBlock 1), ackAlloc := some (freeBlock 2) }
    (putAt len))

end AbiEmu.Xti
