import AbiEmu.Xti.OwnAnswer
import AbiEmu.Xti.Priority

/-!
# `getmsg` stores what it was asked for

`WritesAsked` is what the caller of `timod_getmsg` relies on: a structure it did
not pass is left alone, the length of one it did pass says how many bytes are in
the buffer, no more bytes are there than fit, and the result says whether a part
of the message is still to come. It is read off the log of the call, so it is a
statement about the stores made through each pointer, also where pointers
overlap.

The call keeps this up on most of its ways, and `getmsg_asked_iff` says on which. What
goes wrong most often: the address of the control length is used without a look
at the pointer it was computed from, as an argument of `recvfrom` and for the
length afterwards. When the sender's address is wanted, the length field doubles
as that argument, so it ends as the room for the address when `recvfrom` fails,
and as what `recvfrom` made of it otherwise. A data structure with a negative
`maxlen` keeps its -1 when a control message is delivered. And the result of
`do_getmsg` is overwritten by that of the last `put_user`, so no caller ever
learns that a message is not complete.

The proof tallies the log of each piece of the call by what it stores through the
two structures. Tallies add up along the log, and whether a tally is right is
decided on it alone.
-/

namespace AbiEmu.Xti

open List Option

/-! ## The promise -/

/-- The length field ends as the number of bytes placed, or as -1 if the call
failed before any was. -/
def LenRight (r : Int) (len : Option Word) (n : Nat) : Prop :=
  len = some (BitVec.ofNat 32 n) ∨ (r < 0 ∧ n = 0 ∧ len = some (-1))

/-- The blocks fit into the buffer. -/
def Within (buf : Word) (maxlen : Int) (bl : List (Word × List Byte)) : Prop :=
  ∀ x ∈ bl, (x.1 - buf).toNat + x.2.length ≤ maxlen.toNat

/-- Bytes were handed out, and the message they are from is still first: the one
that was first before, or one that came to an empty queue. -/
def PartLeft (k k' : Core) : Prop :=
  k'.delivered ≠ k.delivered ∧ k'.priv.pfirst ≠ none ∧
    (k.priv.pfirst = none ∨ k'.priv.pfirst = k.priv.pfirst)

/-- The call did what it was asked for, and nothing else. -/
structure WritesAsked (e : Env) (c : GetmsgArgs) (s : Sys) (k : Call) : Prop where
  ctlNull : c.ctlp = 0 → Unused .ctlLen k.acts ∧ Unused .ctlBuf k.acts
  datNull : c.datp = 0 → Unused .datLen k.acts ∧ Unused .datBuf k.acts
  ctlLen : c.ctlp ≠ 0 → LenRight k.ret (words .ctlLen k.acts).getLast? (placed .ctlBuf k.acts)
  datLen : c.datp ≠ 0 → LenRight k.ret (words .datLen k.acts).getLast? (placed .datBuf k.acts)
  ctlRoom : ∀ ctl s1, openStrbuf e c.ctlp c.ctlJunk s = some (ctl, s1) →
    Within ctl.buf ctl.maxlen (blocks .ctlBuf k.acts)
  datRoom : ∀ ctl s1 dat s2, openStrbuf e c.ctlp c.ctlJunk s = some (ctl, s1) →
    openStrbuf e c.datp c.datJunk s1 = some (dat, s2) →
    Within dat.buf dat.maxlen (blocks .datBuf k.acts)
  more : k.ret = MORECTL ↔ PartLeft s.toCore k.sys.toCore

/-! ## The condition -/

/-- The structure at `p`, if there is one, can be read and its length set. -/
def Env.CanOpen (e : Env) (p : Word) : Prop :=
  p ≠ 0 → e.canRead p 12 = true ∧ e.canWrite (p + 4) 4 = true

/-- `do_getmsg` finds a control message of `n` bytes: the first of the queue, or the
announcement of a connection if there is none. -/
def GetArgs.Finds (a : GetArgs) (e : Env) (s : Sys) (n : Int) : Prop :=
  0 ≤ a.ctlMaxlen ∧
    ((∃ b it, s.priv.pfirst = some b ∧ s.heap b = some it ∧ it.length = n) ∨
      (s.priv.pfirst = none ∧ announcesConn e a.fd s ∧ n = 24 + (peerLength e a.fd s).toInt))

/-- A message of `n` bytes that can be delivered fits into the buffer, and a data
structure beside it has a buffer, unless the flags cannot be stored. -/
def deliverAsks (e : Env) (c : GetmsgArgs) (a : GetArgs) (n : Int) : Prop :=
  e.verify true a.ctlBuf (a.take n) = true → e.canWrite a.ctlBuf (a.take n).toNat = true →
    n ≤ a.ctlMaxlen ∧ (c.datp ≠ 0 → 0 ≤ a.datMaxlen ∨ ¬ e.canWrite c.flagsp 4 = true)

/-- The length of the sender's address, as `recvfrom` left it. -/
def senderLength (e : Env) (a : GetArgs) (esp : Word) (s : Sys) : Word :=
  getUserD e (afterRecv e a esp s) a.ctlLen

/-- The word `recvfrom` leaves in the length field: what it stores there, or the
room for the address, which was there before. -/
def Received.leaves (rv : Received) (a : GetArgs) : Word :=
  rv.addrLen.getD (BitVec.ofInt 32 (a.ctlMaxlen - 20))

/-- When data is received, the word at address 4 cannot be written if there is no
control structure, and a `recvfrom` that fails has stored no data. If the sender's
address is wanted, a failed `recvfrom` leaves a length that fits; for no data there
is no address; and with data the header can be stored and `recvfrom` reports the
length of the address it placed. -/
def receiveAsks (e : Env) (c : GetmsgArgs) (a : GetArgs) (rv : Received) (esp : Word) (s : Sys) :
    Prop :=
  0 < a.datMaxlen →
    (c.ctlp = 0 → ¬ e.canWrite 4 4 = true) ∧
    ((e.socket .recvfrom).result < 0 → rv.data = []) ∧
    (wantsAddr a s = true →
      ((e.socket .recvfrom).result < 0 → rv.leaves a = BitVec.ofNat 32 rv.addr.length ∨
        (rv.addr = [] ∧ rv.leaves a = -1)) ∧
      ((e.socket .recvfrom).result = 0 → rv.addr = []) ∧
      (0 < (e.socket .recvfrom).result → e.canWrite a.ctlBuf 20 = true ∧
        senderLength e a esp s = BitVec.ofNat 32 rv.addr.length))

/-- What `do_getmsg` does once it is past its checks is one or the other. -/
def fetchAsks (e : Env) (c : GetmsgArgs) (a : GetArgs) (rv : Received) (s : Sys) : Prop :=
  getEnters e s → (∀ n, a.Finds e s n → deliverAsks e c a n) ∧
    ((∀ n, ¬ a.Finds e s n) → receiveAsks e c a rv s.esp s)

/-- The structures can be opened, an SPX device cannot offer its descriptor, and
otherwise what is fetched is what was asked for. -/
def GetmsgArgs.Asks (c : GetmsgArgs) (e : Env) (ip : Rdev) (rv : Received) (s : Sys) : Prop :=
  (e.CanOpen c.ctlp ∧ e.CanOpen c.datp) ∧
  ∀ ctl s1 dat s2 flags, openStrbuf e c.ctlp c.ctlJunk s = some (ctl, s1) →
    openStrbuf e c.datp c.datJunk s1 = some (dat, s2) → getUser e s2 c.flagsp = some flags →
    if ip.isSpx then ¬ e.canWrite ctl.buf 1 = true
    else flags ∈ getmsgFlags → fetchAsks e c (c.getArgs ctl dat flags) rv s2

/-! ## What is handed out -/

section Part

variable {k t k' : Core} {a : Addr} {l : List Addr} {n : TPrimsg} {x : Int}

theorem not_partLeft (h : k'.delivered = k.delivered) : ¬ PartLeft k k' := fun hp => hp.1 h

/-- A piece of the first message is handed out: a part is left if bytes are. The
queue `t` the message was taken from is that of `k`, or `k` had none. -/
theorem partLeft_iff (ht : t.Holds (a :: l)) (hn : t.heap a = some n)
    (hdel : t.delivered = k.delivered)
    (hfirst : t.priv.pfirst = k.priv.pfirst ∨ (k.priv.pfirst = none ∧ l = []))
    (hk : t.takeChunk a n x = .ok k') : PartLeft k k' ↔ n.length - x ≠ 0 := by
  have hta := ht.first
  by_cases hx : n.length - x = 0
  · -- the message is gone, and with it its block
    refine ⟨fun hpart => ?_, fun hne => absurd hx hne⟩
    have hrem := ht.takes_whole hn hx hk
    obtain ⟨-, hsome, hsame⟩ := hpart
    rcases hfirst with hfirst | ⟨-, rfl⟩
    · have hka : k.priv.pfirst = some a := hfirst.symm.trans hta
      rw [hka] at hsame
      have hk'a : k'.priv.pfirst = some a := hsame.resolve_left (some_ne_none a)
      have hchain := hrem.queue.chain
      rw [hk'a] at hchain
      cases hchain with
      | cons _ _ => exact absurd (mem_cons_self ..) (nodup_cons.mp ht.chain.nodup).1
    · exact absurd (hrem.queue.chain.null_iff.mpr rfl) hsome
  · refine ⟨fun _ => hx, fun _ => ?_⟩
    unfold Core.takeChunk at hk
    rw [if_pos hx] at hk
    obtain rfl := Except.ok.inj hk
    refine ⟨?_, ?_, ?_⟩
    · show t.delivered ++ [_] ≠ k.delivered
      rw [hdel]
      intro heq
      exact absurd (congrArg length heq) (by simp)
    · show t.priv.pfirst ≠ none
      rw [hta]
      exact some_ne_none a
    · exact hfirst.elim .inr fun h => .inl h.1

/-- The endpoint `t` after the look for a connection, with the queue `l`. The
message that is first then is the one `do_getmsg` finds. -/
structure Looked (e : Env) (c : GetArgs) (s t : Sys) (l : List Addr) : Prop where
  holds : t.Holds l
  lengths : Lengths t.toCore l
  delivered : t.delivered = s.delivered
  first : t.priv.pfirst = s.priv.pfirst ∨ (s.priv.pfirst = none ∧ l.length ≤ 1)
  finds : ∀ n, c.Finds e s n ↔ 0 ≤ c.ctlMaxlen ∧ ∃ b it,
    t.priv.pfirst = some b ∧ t.heap b = some it ∧ it.length = n

variable {e : Env} {c : GetArgs}

/-- Unless it is announced, a connection is not found. -/
theorem finds_quiet {s t : Sys} (hs : s.priv.pfirst = none) (ht : t.priv.pfirst = none)
    (hno : ¬ announcesConn e c.fd s) (n : Int) :
    c.Finds e s n ↔ 0 ≤ c.ctlMaxlen ∧ ∃ b it, t.priv.pfirst = some b ∧ t.heap b = some it ∧
      it.length = n := by
  constructor
  · rintro ⟨-, ⟨b, it, hb, -⟩ | ⟨-, hyes, -⟩⟩
    · exact nomatch hs.symm.trans hb
    · exact absurd hyes hno
  · rintro ⟨-, b, it, hb, -⟩
    exact nomatch ht.symm.trans hb

theorem look_queue {s : Sys} (e : Env) (c : GetArgs) (hl : s.Holds l) (hlen : Lengths s.toCore l) :
    ∃ l', Looked e c s (lookForConnection e c s) l' := by
  unfold lookForConnection
  split
  next hlook =>
    obtain rfl := hl.chain.null_iff.mp hlook.2
    have hupdates := timodUpdateSocket_updates e c.fd s
    generalize (timodUpdateSocket e c.fd s).1 = r, (timodUpdateSocket e c.fd s).2 = u at hupdates ⊢
    cases hupdates with
    | quiet hcall =>
      exact ⟨[], hl, hlen, rfl, .inl rfl, finds_quiet hlook.2 hlook.2 fun h => hcall h.1⟩
    | refused _ hres =>
      exact ⟨[], hl, hlen, rfl, .inl rfl, finds_quiet hlook.2 hlook.2 fun h => h.2.1 hres⟩
    | dropped _ _ hb =>
      refine ⟨[], hl, hlen, rfl, .inl rfl, finds_quiet hlook.2 hlook.2 fun h => ?_⟩
      have hsome := h.2.2.1
      rw [hb] at hsome
      exact nomatch hsome
    | fault _ _ hb hcopy =>
      obtain ⟨hk, -⟩ := hl.alloc hb
      obtain ⟨-, -, rfl⟩ := timodMkctl_spec hb
      exact ⟨[], hk, nofun, rfl, .inl rfl,
        finds_quiet hlook.2 hlook.2 fun h => h.2.2.2 (copyFromUser_eq_none_iff.mp hcopy)⟩
    | @announced b k addr hcall hres hb hcopy =>
      obtain ⟨hqueue, hsince, -⟩ := hl.queues_front (n := connInd b (peerLength e c.fd s)
        (e.socket .accept).result addr) hb
      have hconn : announcesConn e c.fd s := by
        refine ⟨hcall, hres, ?_, fun hfault => ?_⟩
        · rw [hb]
          rfl
        · rw [copyFromUser_eq_none_iff.mpr hfault] at hcopy
          exact nomatch hcopy
      have hnonneg := copyFromUser_nonneg hcopy
      obtain ⟨-, -, rfl⟩ := timodMkctl_spec hb
      refine ⟨[b.addr], hqueue, ?_, rfl, .inr ⟨hlook.2, le_refl 1⟩, fun n => ?_⟩
      · refine (hlen.frame nofun).cons hsince.block ?_
        show 0 ≤ 24 + (peerLength e c.fd s).toInt
        omega
      · constructor
        · rintro ⟨hmax, ⟨b, it, hb, -⟩ | ⟨-, -, rfl⟩⟩
          · exact nomatch hlook.2.symm.trans hb
          · exact ⟨hmax, b.addr, _, rfl, hsince.block, rfl⟩
        · rintro ⟨hmax, b', it, hb', hit, rfl⟩
          obtain rfl := some.inj hb'
          obtain rfl := some.inj (hsince.block.symm.trans hit)
          exact ⟨hmax, .inr ⟨hlook.2, hconn, rfl⟩⟩
  next hlook =>
    refine ⟨l, hl, hlen, rfl, .inl rfl, fun n => and_congr_right fun hmax => ?_⟩
    exact or_iff_left fun hnone => hlook ⟨hmax, hnone.1⟩

/-- Where the sender's address is wanted no connection is looked for. -/
theorem look_of_wantsAddr {s : Sys} (hw : wantsAddr c s = true) : lookForConnection e c s = s := by
  have hidle : s.priv.state = .idle := (of_decide_eq_true hw).2
  unfold lookForConnection
  split
  · refine timodUpdateSocket_quiet fun hcall => ?_
    exact absurd (hidle.symm.trans hcall.2.1) (by decide)
  · rfl

theorem receiveAsks_look (e : Env) (c : GetmsgArgs) (a : GetArgs) (rv : Received) (s : Sys) :
    receiveAsks e c a rv s.esp (lookForConnection e a s) ↔ receiveAsks e c a rv s.esp s := by
  unfold receiveAsks
  rw [wantsAddr_look]
  refine imp_congr_right fun _ => and_congr_right fun _ => and_congr_right fun _ =>
    forall_congr' fun hw => ?_
  rw [look_of_wantsAddr hw]

end Part

/-! ## Once the structures are open -/

section Rest

variable {e : Env} {c : GetmsgArgs} {a : GetArgs} {rv : Received} {s t : Sys} {r : Int}
  {acts acts' : List (Act Ptr)}

/-- What is known of the arguments of `do_getmsg` once the structures are open. -/
structure Opened (e : Env) (c : GetmsgArgs) (a : GetArgs) : Prop where
  ctlLen : a.ctlLen = c.ctlp + 4
  ctlNull : c.ctlp = 0 → a.ctlMaxlen = -1
  datNull : c.datp = 0 → a.datMaxlen = -1
  ctlSet : c.ctlp ≠ 0 → e.canWrite a.ctlLen 4 = true
  datSet : c.datp ≠ 0 → e.canWrite a.datLen 4 = true
  ctlInt : a.ctlMaxlen < 2 ^ 31
  datInt : a.datMaxlen < 2 ^ 31

/-- A buffer with room comes with a structure. -/
theorem Opened.ctlp_ne (ho : Opened e c a) (h : 0 ≤ a.ctlMaxlen) : c.ctlp ≠ 0 := by
  intro hnull
  rw [ho.ctlNull hnull] at h
  exact nomatch h

theorem Opened.datp_ne (ho : Opened e c a) (h : 0 ≤ a.datMaxlen) : c.datp ≠ 0 := by
  intro hnull
  rw [ho.datNull hnull] at h
  exact nomatch h

/-- What a log stores through the caller's structures. -/
structure Tally where
  ctlLen : List Word
  ctlBuf : List (Word × List Byte)
  datLen : List Word
  datBuf : List (Word × List Byte)

/-- `T` is what the log stores through the caller's structures: words into their
length fields, blocks into their buffers. -/
structure Tallies (acts : List (Act Ptr)) (T : Tally) : Prop where
  ctlLen : words .ctlLen acts = T.ctlLen ∧ blocks .ctlLen acts = []
  ctlBuf : words .ctlBuf acts = [] ∧ blocks .ctlBuf acts = T.ctlBuf
  datLen : words .datLen acts = T.datLen ∧ blocks .datLen acts = []
  datBuf : words .datBuf acts = [] ∧ blocks .datBuf acts = T.datBuf

theorem Tallies.append {T T' : Tally} (h : Tallies acts T) (h' : Tallies acts' T') :
    Tallies (acts ++ acts') ⟨T.ctlLen ++ T'.ctlLen, T.ctlBuf ++ T'.ctlBuf, T.datLen ++ T'.datLen,
      T.datBuf ++ T'.datBuf⟩ := by
  refine ⟨?_, ?_, ?_, ?_⟩
  · simp [h.ctlLen, h'.ctlLen]
  · simp [h.ctlBuf, h'.ctlBuf]
  · simp [h.datLen, h'.datLen]
  · simp [h.datBuf, h'.datBuf]

theorem Tallies.nil : Tallies [] ⟨[], [], [], []⟩ :=
  ⟨⟨rfl, rfl⟩, ⟨rfl, rfl⟩, ⟨rfl, rfl⟩, ⟨rfl, rfl⟩⟩

/-- The part of `WritesAsked` about the stores, from the point on where both
lengths are -1. -/
structure Tally.Asked (T : Tally) (c : GetmsgArgs) (a : GetArgs) (r : Int) : Prop where
  ctlNull : c.ctlp = 0 → T.ctlLen = [] ∧ T.ctlBuf = []
  datNull : c.datp = 0 → T.datLen = [] ∧ T.datBuf = []
  ctlLen : c.ctlp ≠ 0 → LenRight r (T.ctlLen.getLast?.or (some (-1))) (total T.ctlBuf)
  datLen : c.datp ≠ 0 → LenRight r (T.datLen.getLast?.or (some (-1))) (total T.datBuf)
  ctlRoom : Within a.ctlBuf a.ctlMaxlen T.ctlBuf
  datRoom : Within a.datBuf a.datMaxlen T.datBuf

/-- A call that fails without another store. -/
theorem Tally.Asked.quiet (hr : r < 0) : Tally.Asked ⟨[], [], [], []⟩ c a r :=
  ⟨fun _ => ⟨rfl, rfl⟩, fun _ => ⟨rfl, rfl⟩, fun _ => .inr ⟨hr, rfl, rfl⟩,
    fun _ => .inr ⟨hr, rfl, rfl⟩, nofun,
    nofun⟩

/-! The pieces logs are made of. -/

/-- The word, if it can be stored. -/
def putWords (e : Env) (b v : Word) : List Word := if e.canWrite b 4 then [v] else []

theorem putWords_pos {b v : Word} (h : e.canWrite b 4 = true) : putWords e b v = [v] := if_pos h

theorem putWords_neg {b v : Word} (h : ¬ e.canWrite b 4 = true) : putWords e b v = [] := if_neg h

theorem putAct_stack (b v : Word) : Tallies (putAct e .stack b v) ⟨[], [], [], []⟩ := by
  unfold putAct
  split
  · exact ⟨⟨rfl, rfl⟩, ⟨rfl, rfl⟩, ⟨rfl, rfl⟩, ⟨rfl, rfl⟩⟩
  · exact .nil

theorem putAct_ctlLen (b v : Word) : Tallies (putAct e .ctlLen b v)
    ⟨putWords e b v, [], [], []⟩ := by
  unfold putAct putWords
  split
  · exact ⟨⟨rfl, rfl⟩, ⟨rfl, rfl⟩, ⟨rfl, rfl⟩, ⟨rfl, rfl⟩⟩
  · exact .nil

theorem putAct_datLen (b v : Word) : Tallies (putAct e .datLen b v)
    ⟨[], [], putWords e b v, []⟩ := by
  unfold putAct putWords
  split
  · exact ⟨⟨rfl, rfl⟩, ⟨rfl, rfl⟩, ⟨rfl, rfl⟩, ⟨rfl, rfl⟩⟩
  · exact .nil

theorem copy_ctlBuf (b : Word) (bs : List Byte) :
    Tallies [.copy .ctlBuf b bs] ⟨[], [(b, bs)], [], []⟩ :=
  ⟨⟨rfl, rfl⟩, ⟨rfl, rfl⟩, ⟨rfl, rfl⟩, ⟨rfl, rfl⟩⟩

theorem argActs_tallies (tsp : Word) (args : List Word) :
    Tallies (argActs e tsp args) ⟨[], [], [], []⟩ := by
  unfold argActs
  generalize args.zipIdx = l
  induction l with
  | nil => exact .nil
  | cons v l ih =>
    exact (putAct_stack ..).append ih

theorem lookActs_tallies : Tallies (lookActs e a s) ⟨[], [], [], []⟩ := by
  have hcall : Tallies [.call (e.socket .accept).effect] ⟨[], [], [], []⟩ :=
    ⟨⟨rfl, rfl⟩, ⟨rfl, rfl⟩, ⟨rfl, rfl⟩, ⟨rfl, rfl⟩⟩
  unfold lookActs
  split
  · exact (argActs_tallies ..).append hcall
  · exact .nil

end Rest

/-! ## A control message -/

section Deliver

variable {e : Env} {c : GetmsgArgs} {a : GetArgs} {t : Sys} {r : Int} {it : TPrimsg}

/-- The stores that deliver a message. -/
theorem deliverActs_tallies (hv : e.verify true a.ctlBuf (a.take it.length) = true)
    (hw : e.canWrite a.ctlBuf (a.take it.length).toNat = true) :
    Tallies (deliverActs e a it t)
      ⟨putWords e a.ctlLen (BitVec.ofInt 32 (a.take it.length)),
        [(a.ctlBuf, (List.range (a.take it.length).toNat).map
          fun i => it.body (t.priv.offset.toNat + i))],
        if 0 ≤ a.datMaxlen then putWords e a.datLen 0 else [], []⟩ := by
  have hdat : Tallies (if 0 ≤ a.datMaxlen then putAct e .datLen a.datLen 0 else [])
      ⟨[], [], if 0 ≤ a.datMaxlen then putWords e a.datLen 0 else [], []⟩ := by
    split
    · exact putAct_datLen ..
    · exact .nil
  have hall := (copy_ctlBuf a.ctlBuf ((range (a.take it.length).toNat).map
    fun i => it.body (t.priv.offset.toNat + i))).append
      ((putAct_ctlLen (e := e) a.ctlLen (BitVec.ofInt 32 (a.take it.length))).append hdat)
  unfold deliverActs
  rw [if_pos ⟨hv, hw⟩]
  simpa using hall

/-- They are right, but for a data structure without a buffer. -/
theorem deliver_asked_iff (ho : Opened e c a) (hmax : 0 ≤ a.ctlMaxlen) (hlen : 0 ≤ it.length)
    {bs : List Byte} (hbs : bs.length = (a.take it.length).toNat) :
    Tally.Asked ⟨putWords e a.ctlLen (BitVec.ofInt 32 (a.take it.length)), [(a.ctlBuf, bs)],
      if 0 ≤ a.datMaxlen then putWords e a.datLen 0 else [], []⟩ c a r ↔
    (c.datp ≠ 0 → 0 ≤ a.datMaxlen ∨ r < 0) := by
  have hctlp := ho.ctlp_ne hmax
  rw [putWords_pos (ho.ctlSet hctlp)]
  generalize hl : a.take it.length = l at hbs ⊢
  have hl0 : 0 ≤ l := by
    rw [← hl, GetArgs.take]
    split
    · exact hmax
    · exact hlen
  have hlmax : l ≤ a.ctlMaxlen := by
    rw [← hl, GetArgs.take]
    split
    · exact le_refl _
    next hmore => exact (not_le.mp hmore).le
  have hctl : LenRight r (some (BitVec.ofInt 32 l)) (total [(a.ctlBuf, bs)]) := by
    refine .inl (congrArg some ?_)
    show _ = BitVec.ofNat 32 (bs.length + 0)
    rw [Nat.add_zero, hbs]
    conv_lhs => rw [← Int.toNat_of_nonneg hl0]
    exact BitVec.ofInt_natCast ..
  have hroom : Within a.ctlBuf a.ctlMaxlen [(a.ctlBuf, bs)] := by
    intro x hx
    rw [mem_singleton.mp hx]
    rw [BitVec.sub_self, hbs]
    exact (Nat.zero_add _).trans_le (Int.toNat_le_toNat hlmax)
  constructor
  · intro h hdatp
    by_cases hdat : 0 ≤ a.datMaxlen
    · exact .inl hdat
    · have hright := h.datLen hdatp
      rw [if_neg hdat] at hright
      have hminus : LenRight r (some (-1)) 0 := hright
      exact .inr (hminus.resolve_left (by decide)).1
  · intro h
    refine ⟨fun hnull => absurd hnull hctlp, fun hnull => ⟨if_neg ?_, rfl⟩, fun _ => hctl,
      fun hdatp => ?_, hroom, nofun⟩
    · exact fun hdat => ho.datp_ne hdat hnull
    · rw [putWords_pos (ho.datSet hdatp)]
      split
      · exact .inl rfl
      next hdat => exact .inr ⟨(h hdatp).resolve_left hdat, rfl, rfl⟩

end Deliver

/-! ## Data -/

section Receive

variable {e : Env} {c : GetmsgArgs} {a : GetArgs} {rv : Received} {t : Sys} {r : Int} {w : Bool}

theorem nothingActs_tallies : Tallies (nothingActs e a)
    ⟨if 0 ≤ a.ctlMaxlen then putWords e a.ctlLen 0 else [], [],
      if a.datMaxlen = 0 then putWords e a.datLen 0 else [], []⟩ := by
  have hdat : Tallies (if a.datMaxlen = 0 then putAct e .datLen a.datLen 0 else [])
      ⟨[], [], if a.datMaxlen = 0 then putWords e a.datLen 0 else [], []⟩ := by
    split
    · exact putAct_datLen ..
    · exact .nil
  have hctl : Tallies (if 0 ≤ a.ctlMaxlen then putAct e .ctlLen a.ctlLen 0 else [])
      ⟨if 0 ≤ a.ctlMaxlen then putWords e a.ctlLen 0 else [], [], [], []⟩ := by
    split
    · exact putAct_ctlLen ..
    · exact .nil
  unfold nothingActs
  simpa using hdat.append hctl

/-- A length that is set to 0 or left at -1 is right when nothing was placed. -/
theorem lenRight_failed {p : Prop} [Decidable p] (hr : r < 0) :
    LenRight r ((if p then [(0 : Word)] else []).getLast?.or (some (-1))) 0 := by
  split
  · exact .inl rfl
  · exact .inr ⟨hr, rfl, rfl⟩

/-- Lengths of 0 for whoever asked are right when there is nothing. -/
theorem nothing_asked (ho : Opened e c a) (hr : r < 0) :
    Tally.Asked ⟨if 0 ≤ a.ctlMaxlen then putWords e a.ctlLen 0 else [], [],
      if a.datMaxlen = 0 then putWords e a.datLen 0 else [], []⟩ c a r := by
  refine ⟨fun hnull => ⟨if_neg fun h => ho.ctlp_ne h hnull, rfl⟩,
    fun hnull => ⟨if_neg fun h => ho.datp_ne (ge_of_eq h) hnull, rfl⟩, fun hctlp => ?_,
    fun hdatp => ?_, nofun,
    nofun⟩
  · rw [putWords_pos (ho.ctlSet hctlp)]
    exact lenRight_failed hr
  · rw [putWords_pos (ho.datSet hdatp)]
    exact lenRight_failed hr

theorem addrActs_tallies (tsp : Word) : Tallies (addrActs e a tsp w)
    ⟨putWords e a.ctlLen (if w then BitVec.ofInt 32 (a.ctlMaxlen - 20) else 0), [], [], []⟩ := by
  unfold addrActs
  simpa using
    (putAct_stack (tsp + 16) (if w then a.ctlBuf + 20 else 0)).append
      ((putAct_ctlLen a.ctlLen
        (if w then BitVec.ofInt 32 (a.ctlMaxlen - 20) else 0)).append
        (putAct_stack (tsp + 20) a.ctlLen))

theorem received_tallies (rv : Received) : Tallies (rv.acts a w)
    ⟨if w then rv.addrLen.toList else [], if w then [(a.ctlBuf + 20, rv.addr)] else [], [],
      [(a.datBuf, rv.data)]⟩ := by
  unfold Received.acts
  split
  · cases rv.addrLen with
    | none | some v => exact ⟨⟨rfl, rfl⟩, ⟨rfl, rfl⟩, ⟨rfl, rfl⟩, ⟨rfl, rfl⟩⟩
  · exact ⟨⟨rfl, rfl⟩, ⟨rfl, rfl⟩, ⟨rfl, rfl⟩, ⟨rfl, rfl⟩⟩

/-- What follows a `recvfrom` that returned data for which no header is made. -/
theorem takeActs_plain (hres : 0 ≤ (e.socket .recvfrom).result)
    (hw : ¬ ((e.socket .recvfrom).result ≠ 0 ∧ w = true)) : Tallies (takeActs e a w t)
    ⟨putWords e a.ctlLen 0, [], putWords e a.datLen (BitVec.ofInt 32 (e.socket .recvfrom).result),
      []⟩ := by
  unfold takeActs
  rw [if_neg (not_lt.mpr hres), if_neg hw]
  simpa using
    (putAct_ctlLen a.ctlLen 0).append (putAct_datLen a.datLen
      (BitVec.ofInt 32 (e.socket .recvfrom).result))

/-- What follows a `recvfrom` that returned data with an address. -/
theorem takeActs_header (hres : 0 ≤ (e.socket .recvfrom).result)
    (hw : (e.socket .recvfrom).result ≠ 0 ∧ w = true) (hbuf : e.canWrite a.ctlBuf 20 = true) :
    Tallies (takeActs e a w t)
      ⟨putWords e a.ctlLen (20 + getUserD e t a.ctlLen),
        [(a.ctlBuf, [T_UNITDATA_IND, getUserD e t a.ctlLen, 20, 0, 0].flatMap Word.bytes)],
        putWords e a.datLen (BitVec.ofInt 32 (e.socket .recvfrom).result), []⟩ := by
  unfold takeActs
  rw [if_neg (not_lt.mpr hres), if_pos hw, if_pos hbuf]
  simpa using
    (copy_ctlBuf a.ctlBuf
      ([T_UNITDATA_IND, getUserD e t a.ctlLen, 20, 0, 0].flatMap Word.bytes)).append
      ((putAct_ctlLen a.ctlLen (20 + getUserD e t a.ctlLen)).append
        (putAct_datLen a.datLen (BitVec.ofInt 32 (e.socket .recvfrom).result)))

theorem ofNat_inj {m n : Nat} (hm : m < 2 ^ 32) (hn : n < 2 ^ 32)
    (h : BitVec.ofNat 32 m = BitVec.ofNat 32 n) : m = n := by
  have hnat := congrArg BitVec.toNat h
  rw [BitVec.toNat_ofNat, BitVec.toNat_ofNat, Nat.mod_eq_of_lt hm, Nat.mod_eq_of_lt hn] at hnat
  exact hnat

variable {T : Tally}

/-- Data is asked for: both lengths have to be right. -/
theorem Tally.asked_iff (hdatp : c.datp ≠ 0) (hroom : Within a.datBuf a.datMaxlen T.datBuf) :
    T.Asked c a r ↔ LenRight r (T.datLen.getLast?.or (some (-1))) (total T.datBuf) ∧
      (c.ctlp = 0 → T.ctlLen = [] ∧ T.ctlBuf = []) ∧
      (c.ctlp ≠ 0 → LenRight r (T.ctlLen.getLast?.or (some (-1))) (total T.ctlBuf)) ∧
      Within a.ctlBuf a.ctlMaxlen T.ctlBuf :=
  ⟨fun h => ⟨h.datLen hdatp, h.ctlNull, h.ctlLen, h.ctlRoom⟩,
    fun h => ⟨h.2.1, fun hnull => absurd hnull hdatp, h.2.2.1, fun _ => h.1, h.2.2.2, hroom⟩⟩

/-- The data `recvfrom` placed, and the length set from its result. -/
theorem data_right (ho : Opened e c a) (hdatp : c.datp ≠ 0) (hfits : rv.Fits e a w)
    (hres : 0 ≤ (e.socket .recvfrom).result) :
    LenRight r ((putWords e a.datLen (BitVec.ofInt 32 (e.socket .recvfrom).result)).getLast?.or
      (some (-1))) (total [(a.datBuf, rv.data)]) := by
  rw [putWords_pos (ho.datSet hdatp), ← hfits.data hres, BitVec.ofInt_natCast]
  exact .inl rfl

/-- The data `recvfrom` placed, without a length. -/
theorem noLength_right_iff (ho : Opened e c a) (hfits : rv.Fits e a w) :
    LenRight r (([] : List Word).getLast?.or (some (-1))) (total [(a.datBuf, rv.data)]) ↔
      r < 0 ∧ rv.data = [] := by
  have hroom := hfits.room
  have hint := ho.datInt
  constructor
  · rintro (h | ⟨hr, hnil, -⟩)
    · have hbig : 4294967295 = rv.data.length :=
        ofNat_inj (by decide) (by omega) (some.inj h)
      omega
    · exact ⟨hr, eq_nil_of_length_eq_zero hnil⟩
  · rintro ⟨hr, hnil⟩
    rw [hnil]
    exact .inr ⟨hr, rfl, rfl⟩

theorem data_room (hfits : rv.Fits e a w) : Within a.datBuf a.datMaxlen [(a.datBuf, rv.data)] := by
  intro x hx
  rw [mem_singleton.mp hx]
  rw [BitVec.sub_self]
  exact (Nat.zero_add _).trans_le hfits.room

theorem addr_room (hfits : rv.Fits e a true) : Within a.ctlBuf a.ctlMaxlen
    [(a.ctlBuf + 20, rv.addr)] := by
  intro x hx
  rw [mem_singleton.mp hx]
  have hoff : a.ctlBuf + 20 - a.ctlBuf = 20 := by rw [add_sub_cancel_left]
  rw [hoff, Nat.add_comm]
  exact hfits.addrRoom rfl

variable {hdr : List Byte}

/-- The header goes in front of the address. -/
theorem header_room (hfits : rv.Fits e a true) (hmax : 20 < a.ctlMaxlen) (hhdr : hdr.length = 20) :
    Within a.ctlBuf a.ctlMaxlen [(a.ctlBuf + 20, rv.addr), (a.ctlBuf, hdr)] := by
  intro x hx
  rcases mem_cons.mp hx with rfl | hx
  · exact addr_room hfits _ (mem_singleton_self _)
  · rw [mem_singleton.mp hx]
    rw [BitVec.sub_self, hhdr]
    exact (Nat.zero_add 20).trans_le (by omega)

variable {esp : Word}

/-- The log of a call of `recvfrom` and of what follows it. -/
theorem receiveActs_tallies (rv : Received) (hdat : 0 < a.datMaxlen)
    (hv : e.verify true (esp - 1024) 24 = true)
    (hT : Tallies (takeActs e a (wantsAddr a t) (afterRecv e a esp t)) T) :
    Tallies (receiveActs e a rv esp t)
      ⟨putWords e a.ctlLen (if wantsAddr a t then BitVec.ofInt 32 (a.ctlMaxlen - 20) else 0) ++
          ((if wantsAddr a t then rv.addrLen.toList else []) ++ T.ctlLen),
        (if wantsAddr a t then [(a.ctlBuf + 20, rv.addr)] else []) ++ T.ctlBuf, T.datLen,
        (a.datBuf, rv.data) :: T.datBuf⟩ := by
  unfold receiveActs
  rw [if_neg (not_le.mpr hdat), if_neg (not_not.mpr hv)]
  simpa using
    (argActs_tallies (esp - 1024)
      [a.fd, a.datBuf, BitVec.ofInt 32 a.datMaxlen, 0]).append
      ((addrActs_tallies (esp - 1024)).append ((received_tallies rv).append hT))

/-- A control length of 0 without a block is right, unless there is no control
structure and the length is stored all the same. -/
theorem zero_len_iff (ho : Opened e c a) {l : List Word} (hl : l = [] ∨ l = putWords e a.ctlLen 0) :
    ((c.ctlp = 0 → putWords e a.ctlLen 0 ++ l = [] ∧ ([] : List (Word × List Byte)) = []) ∧
      (c.ctlp ≠ 0 → LenRight r ((putWords e a.ctlLen 0 ++ l).getLast?.or (some (-1))) 0) ∧
      Within a.ctlBuf a.ctlMaxlen []) ↔ (c.ctlp = 0 → ¬ e.canWrite 4 4 = true) := by
  have hfour : c.ctlp = 0 → a.ctlLen = 4 := fun hnull => by rw [ho.ctlLen, hnull, zero_add]
  constructor
  · rintro ⟨hnull, -, -⟩ hctlp hwrite
    have hnil := (append_eq_nil_iff.mp (hnull hctlp).1).1
    rw [hfour hctlp, putWords_pos hwrite] at hnil
    exact absurd hnil (cons_ne_nil _ _)
  · intro hno
    refine ⟨fun hctlp => ⟨?_, rfl⟩, fun hctlp => ?_, nofun⟩
    · have hnil : putWords e a.ctlLen 0 = [] := by rw [hfour hctlp, putWords_neg (hno hctlp)]
      rcases hl with rfl | rfl <;> rw [hnil, append_nil]
    · rw [putWords_pos (ho.ctlSet hctlp)] at hl ⊢
      rcases hl with rfl | rfl
      all_goals exact .inl rfl

variable {esp : Word}

/-- Nothing follows a `recvfrom` that failed. -/
theorem takeActs_failed (hneg : (e.socket .recvfrom).result < 0) :
    Tallies (takeActs e a w t) ⟨[], [], [], []⟩ := by
  unfold takeActs
  rw [if_pos hneg]
  exact .nil

/-- Nothing follows a header that cannot be stored. -/
theorem takeActs_unstored (hpos : 0 < (e.socket .recvfrom).result) (hw : w = true)
    (hbuf : ¬ e.canWrite a.ctlBuf 20 = true) : Tallies (takeActs e a w t) ⟨[], [], [], []⟩ := by
  unfold takeActs
  rw [if_neg hpos.not_gt, if_pos ⟨hpos.ne', hw⟩, if_neg hbuf]
  exact .nil

/-- Without a place for the sender's address. -/
theorem plain_asked_iff (ho : Opened e c a) (hfits : rv.Fits e a (wantsAddr a t))
    (hdat : 0 < a.datMaxlen) (hv : e.verify true (esp - 1024) 24 = true)
    (hr : (e.socket .recvfrom).result < 0 → r < 0) (hw : wantsAddr a t = false) :
    ∃ T, Tallies (receiveActs e a rv esp t) T ∧
      (T.Asked c a r ↔ (c.ctlp = 0 → ¬ e.canWrite 4 4 = true) ∧
        ((e.socket .recvfrom).result < 0 → rv.data = [])) := by
  have hdatp := ho.datp_ne hdat.le
  by_cases hres : 0 ≤ (e.socket .recvfrom).result
  · have hT := receiveActs_tallies rv hdat hv (takeActs_plain
      hres
      (fun h => absurd (hw.symm.trans h.2) Bool.false_ne_true))
    simp only [hw, Bool.false_eq_true, if_false, nil_append] at hT
    refine ⟨_, hT, ?_⟩
    rw [Tally.asked_iff hdatp (data_room hfits), and_iff_right (data_right ho hdatp hfits hres)]
    refine (zero_len_iff ho (.inr rfl)).trans (and_iff_left fun hneg => ?_).symm
    exact absurd hneg (not_lt.mpr hres)
  · have hneg := not_le.mp hres
    have hT := receiveActs_tallies rv hdat hv (takeActs_failed (t := afterRecv e a esp t) hneg)
    simp only [hw, Bool.false_eq_true, if_false, nil_append] at hT
    refine ⟨_, hT, ?_⟩
    rw [Tally.asked_iff hdatp (data_room hfits), noLength_right_iff ho hfits,
      and_iff_right (hr hneg), and_comm, imp_iff_right hneg]
    exact and_congr_left' (zero_len_iff ho (.inl rfl))

/-- The word stored last counts. -/
theorem lenRight_last {l l' : List Word} {v : Word} {n : Nat} :
    LenRight r ((l ++ (l' ++ [v])).getLast?.or (some (-1))) n ↔ LenRight r (some v) n := by
  rw [← append_assoc, getLast?_concat]
  rfl

/-- What a failed `recvfrom` leaves. -/
theorem lenRight_leaves (hr : r < 0) {b : Word} :
    LenRight r (([BitVec.ofInt 32 (a.ctlMaxlen - 20)] ++ rv.addrLen.toList).getLast?.or
      (some (-1))) (total [(b, rv.addr)]) ↔
    rv.leaves a = BitVec.ofNat 32 rv.addr.length ∨ (rv.addr = [] ∧ rv.leaves a = -1) := by
  have hlast : ([BitVec.ofInt 32 (a.ctlMaxlen - 20)] ++ rv.addrLen.toList).getLast?.or
      (some (-1)) = some (rv.leaves a) := by
    unfold Received.leaves
    cases rv.addrLen with
    | none | some v => rfl
  rw [hlast]
  show LenRight r _ (rv.addr.length + 0) ↔ _
  rw [Nat.add_zero, LenRight, and_iff_right hr, some.injEq, some.injEq, length_eq_zero_iff]

/-- A length of 0 beside an address. -/
theorem noHeader_right_iff (hlen : rv.addr.length < 2 ^ 32) {b : Word} :
    LenRight r (some 0) (total [(b, rv.addr)]) ↔ rv.addr = [] := by
  constructor
  · rintro (h | ⟨-, hnil, -⟩)
    · exact eq_nil_of_length_eq_zero (ofNat_inj (by decide) hlen (some.inj h)).symm
    · exact eq_nil_of_length_eq_zero hnil
  · intro hnil
    rw [hnil]
    exact .inl rfl

/-- The length of header and address is right if that of the address is. -/
theorem header_right_iff {src b b' : Word} (hhdr : hdr.length = 20) :
    LenRight r (some (20 + src)) (total [(b, rv.addr), (b', hdr)]) ↔
      src = BitVec.ofNat 32 rv.addr.length := by
  show LenRight r (some (20 + src)) (rv.addr.length + (hdr.length + 0)) ↔ _
  rw [hhdr, Nat.add_comm]
  have hsum : BitVec.ofNat 32 (20 + 0 + rv.addr.length) = 20 + BitVec.ofNat 32 rv.addr.length :=
    BitVec.ofNat_add ..
  constructor
  · rintro (h | ⟨-, hnil, -⟩)
    · exact add_left_cancel ((some.inj h).trans hsum)
    · omega
  · rintro rfl
    exact .inl (congrArg some hsum.symm)

section

variable (ho : Opened e c a) (hfits : rv.Fits e a (wantsAddr a t))

include ho hfits

/-- With a place for the sender's address: the length field is the argument of
`recvfrom` too, and comes out right only if `recvfrom` made it so. -/
theorem header_asked_iff (hdat : 0 < a.datMaxlen) (hv : e.verify true (esp - 1024) 24 = true)
    (hr : (e.socket .recvfrom).result < 0 → r < 0) (hw : wantsAddr a t = true) :
    ∃ T, Tallies (receiveActs e a rv esp t) T ∧
      (T.Asked c a r ↔ ((e.socket .recvfrom).result < 0 → rv.data = []) ∧
        ((e.socket .recvfrom).result < 0 → rv.leaves a = BitVec.ofNat 32 rv.addr.length ∨
          (rv.addr = [] ∧ rv.leaves a = -1)) ∧
        ((e.socket .recvfrom).result = 0 → rv.addr = []) ∧
        (0 < (e.socket .recvfrom).result → e.canWrite a.ctlBuf 20 = true ∧
          senderLength e a esp t = BitVec.ofNat 32 rv.addr.length)) := by
  have hdatp := ho.datp_ne hdat.le
  have hmax : 20 < a.ctlMaxlen := (of_decide_eq_true hw).1
  have hint := ho.ctlInt
  have hctlp : c.ctlp ≠ 0 := ho.ctlp_ne (by omega)
  have hput : ∀ v, putWords e a.ctlLen v = [v] := fun v => putWords_pos (ho.ctlSet hctlp)
  rw [hw] at hfits
  have hlen : rv.addr.length < 2 ^ 32 := by
    have hroom := hfits.addrRoom rfl
    omega
  rcases lt_trichotomy (e.socket .recvfrom).result 0 with hneg | hzero | hpos
  · have hT := receiveActs_tallies rv hdat hv (takeActs_failed (t := afterRecv e a esp t) hneg)
    simp only [hw, if_true, append_nil] at hT
    refine ⟨_, hT, ?_⟩
    rw [Tally.asked_iff hdatp (data_room hfits), noLength_right_iff ho hfits,
      and_iff_right (hr hneg), hput, lenRight_leaves (hr hneg)]
    exact ⟨fun h => ⟨fun _ => h.1, fun _ => h.2.2.1 hctlp, fun hz => absurd hneg hz.not_lt,
        fun hp => absurd hneg hp.not_gt⟩,
      fun h => ⟨h.1 hneg, fun hnull => absurd hnull hctlp, fun _ => h.2.1 hneg, addr_room hfits⟩⟩
  · -- no data: the length is set to 0
    have hT := receiveActs_tallies rv hdat hv (takeActs_plain
      (t := afterRecv e a esp t) hzero.ge (fun h => h.1 hzero))
    simp only [hw, if_true, append_nil, hput] at hT
    refine ⟨_, hT, ?_⟩
    rw [Tally.asked_iff hdatp (data_room hfits),
      and_iff_right (data_right ho hdatp hfits hzero.ge), lenRight_last, noHeader_right_iff hlen]
    exact ⟨fun h => ⟨fun hn => absurd hzero hn.ne, fun hn => absurd hzero hn.ne,
        fun _ => h.2.1 hctlp, fun hp => absurd hzero hp.ne'⟩,
      fun h => ⟨fun hnull => absurd hnull hctlp, fun _ => h.2.2.1 hzero, addr_room hfits⟩⟩
  · by_cases hbuf : e.canWrite a.ctlBuf 20 = true
    · have hT := receiveActs_tallies rv hdat hv (takeActs_header hpos.le ⟨hpos.ne', hw⟩ hbuf)
      simp only [hw, if_true, hput, singleton_append] at hT
      refine ⟨_, hT, ?_⟩
      rw [Tally.asked_iff hdatp (data_room hfits),
        and_iff_right (data_right ho hdatp hfits hpos.le), ← singleton_append, lenRight_last,
        header_right_iff rfl]
      exact ⟨fun h => ⟨fun hn => absurd hpos hn.not_gt, fun hn => absurd hpos hn.not_gt,
          fun hz => absurd hz hpos.ne', fun _ => ⟨hbuf, h.2.1 hctlp⟩⟩,
        fun h => ⟨fun hnull => absurd hnull hctlp, fun _ => (h.2.2.2 hpos).2,
          header_room hfits hmax rfl⟩⟩
    · -- the header cannot be stored: the data is there, but its length is not set
      have htake := takeActs_unstored (t := afterRecv e a esp t) hpos hw hbuf
      refine ⟨_, receiveActs_tallies rv hdat hv htake, fun h => ?_,
        fun h => absurd (h.2.2.2 hpos).1 hbuf⟩
      have hdata := hfits.data hpos.le
      obtain ⟨-, hnil⟩ := (noLength_right_iff ho hfits).mp (h.datLen hdatp)
      rw [hnil] at hdata
      exact absurd hdata hpos.ne

/-- What receiving data stores is right under the condition. -/
theorem receive_asked_iff (hv : e.verify true (esp - 1024) 24 = true)
    (hr : (receive e a esp t).ret < 0 → r < 0) :
    ∃ T, Tallies (receiveActs e a rv esp t) T ∧ (T.Asked c a r ↔ receiveAsks e c a rv esp t) := by
  unfold receiveAsks
  by_cases hdat : 0 < a.datMaxlen
  · have hfailed : (e.socket .recvfrom).result < 0 → r < 0 := by
      intro hneg
      refine hr ?_
      rw [receive_eq (not_le.mpr hdat) hv, takeData]
      rw [if_pos hneg]
      exact hneg
    cases hw : wantsAddr a t with
    | false =>
      obtain ⟨T, hT, hiff⟩ := plain_asked_iff ho hfits hdat hv hfailed hw
      refine ⟨T, hT, hiff.trans ⟨fun h _ => ⟨h.1, h.2, ?_⟩, fun h => ⟨(h hdat).1, (h hdat).2.1⟩⟩⟩
      exact fun htrue => absurd htrue Bool.false_ne_true
    | true =>
      obtain ⟨T, hT, hiff⟩ := header_asked_iff ho hfits hdat hv hfailed hw
      have hctlp : c.ctlp ≠ 0 := by
        have hmax : 20 < a.ctlMaxlen := (of_decide_eq_true hw).1
        exact ho.ctlp_ne (by omega)
      refine ⟨T, hT, hiff.trans ⟨fun h _ => ⟨?_, h.1, fun _ => h.2⟩,
        fun h => ⟨(h hdat).2.1, (h hdat).2.2 rfl⟩⟩⟩
      exact fun hnull => absurd hnull hctlp
  · have hret : (receive e a esp t).ret = -EAGAIN := by rw [receive, if_pos (not_lt.mp hdat)]
    refine ⟨_, ?_, ⟨fun _ h => absurd h hdat, fun _ => nothing_asked ho (hr ?_)⟩⟩
    · unfold receiveActs
      rw [if_pos (not_lt.mp hdat)]
      exact nothingActs_tallies
    · rw [hret]
      decide

end

end Receive

/-! ## `do_getmsg` and the flags -/

section Fetch

variable {e : Env} {c : GetmsgArgs} {a : GetArgs} {rv : Received} {s t : Sys} {g : Got}
  {b : Addr} {it : TPrimsg} {l : List Addr}

/-- The two ways out of `deliver`. -/
theorem deliver_ways (h : deliver e a b it t = .ok g) :
    ((e.verify true a.ctlBuf (a.take it.length) = true ∧
        e.canWrite a.ctlBuf (a.take it.length).toNat = true) ∧
      0 ≤ g.ret ∧ t.toCore.takeChunk b it (a.take it.length) = .ok g.sys.toCore) ∨
    (¬ (e.verify true a.ctlBuf (a.take it.length) = true ∧
        e.canWrite a.ctlBuf (a.take it.length).toNat = true) ∧
      g.ret < 0 ∧ g.sys.toCore = t.toCore) := by
  rcases deliver_eq e a b it t with ⟨hfault, hg⟩ | ⟨s1, hwrite, -, hg⟩
  · obtain rfl := Except.ok.inj (hg.symm.trans h)
    have hneg : -EFAULT < 0 := by decide
    exact .inr ⟨hfault, hneg, rfl⟩
  · obtain ⟨k, hk, rfl⟩ := map_eq_ok (hg.symm.trans h)
    refine .inl ⟨hwrite, ?_, hk⟩
    dsimp only
    split
    · decide
    · exact le_refl 0

/-- The result of `timod_getmsg` after that of `do_getmsg`. -/
def flagsRet (e : Env) (c : GetmsgArgs) (r : Int) : Int :=
  if r < 0 then r else if e.canWrite c.flagsp 4 then 0 else -EFAULT

theorem flagsRet_neg {r : Int} (h : r < 0) : flagsRet e c r < 0 := by
  rw [flagsRet, if_pos h]
  exact h

/-- A call that got what it wanted fails if the flags cannot be stored. -/
theorem flagsRet_neg_iff {r : Int} (h : 0 ≤ r) :
    flagsRet e c r < 0 ↔ ¬ e.canWrite c.flagsp 4 = true := by
  rw [flagsRet, if_neg (not_lt.mpr h)]
  split
  next hw => exact ⟨fun hneg => absurd hneg (lt_irrefl 0), fun hno => absurd hw hno⟩
  next hw => exact ⟨fun _ => hw, fun _ => by decide⟩

theorem flagsRet_ne_more (r : Int) : flagsRet e c r ≠ MORECTL := by
  unfold flagsRet
  split
  next h => exact fun heq => absurd (heq ▸ h) (by decide)
  · split <;> decide

/-- A message was found. -/
theorem deliver_fetched_iff (ho : Opened e c a) (hmax : 0 ≤ a.ctlMaxlen)
    (ht : t.Holds (b :: l)) (hit : t.heap b = some it) (hnonneg : 0 ≤ it.length)
    (hdel : t.delivered = s.delivered)
    (hfirst : t.priv.pfirst = s.priv.pfirst ∨ (s.priv.pfirst = none ∧ l = []))
    (h : deliver e a b it t = .ok g) :
    ∃ T, Tallies (deliverActs e a it t) T ∧
      (T.Asked c a (flagsRet e c g.ret) ∧ ¬ PartLeft s.toCore g.sys.toCore ↔
        deliverAsks e c a it.length) := by
  rcases deliver_ways h with ⟨⟨hv, hw⟩, hret, hcore⟩ | ⟨hfault, hret, hcore⟩
  · refine ⟨_, deliverActs_tallies hv hw, ?_⟩
    rw [deliver_asked_iff ho hmax hnonneg (by rw [length_map, length_range]),
      flagsRet_neg_iff hret, partLeft_iff ht hit hdel hfirst hcore]
    have hwhole : ¬ it.length - a.take it.length ≠ 0 ↔ it.length ≤ a.ctlMaxlen := by
      unfold GetArgs.take
      split <;> omega
    rw [hwhole, and_comm]
    exact ⟨fun hboth _ _ => hboth, fun hboth => hboth hv hw⟩
  · refine ⟨⟨[], [], [], []⟩, ?_, ?_⟩
    · unfold deliverActs
      rw [if_neg hfault]
      exact .nil
    · refine ⟨fun _ hv hw => absurd ⟨hv, hw⟩ hfault,
        fun _ => ⟨.quiet (flagsRet_neg hret), not_partLeft ?_⟩⟩
      rw [hcore]
      exact hdel

/-- There is no message, or none is asked for. -/
theorem receive_fetched_iff (ho : Opened e c a) (hfits : rv.Fits e a (wantsAddr a t))
    (hv : e.verify true (esp - 1024) 24 = true) (hdel : t.delivered = s.delivered) :
    ∃ T, Tallies (receiveActs e a rv esp t) T ∧
      (T.Asked c a (flagsRet e c (receive e a esp t).ret) ∧
        ¬ PartLeft s.toCore (receive e a esp t).sys.toCore ↔ receiveAsks e c a rv esp t) := by
  obtain ⟨T, hT, hiff⟩ := receive_asked_iff ho hfits hv flagsRet_neg
  have hnone : ¬ PartLeft s.toCore (receive e a esp t).sys.toCore := by
    refine not_partLeft ?_
    rw [(receive_spec e a esp t).1]
    exact hdel
  exact ⟨T, hT, (and_iff_left hnone).trans hiff⟩

section

variable (ho : Opened e c a) (hfits : rv.Fits e a (wantsAddr a t))
  (hv : e.verify true (s.esp - 1024) 24 = true)

include ho hfits hv

/-- Without a message to find, data is received. -/
theorem receive_found_iff (hdel : t.delivered = s.delivered) (hnone : ∀ n, ¬ a.Finds e s n) :
    ∃ T, Tallies (receiveActs e a rv s.esp t) T ∧
      (T.Asked c a (flagsRet e c (receive e a s.esp t).ret) ∧
        ¬ PartLeft s.toCore (receive e a s.esp t).sys.toCore ↔
        (∀ n, a.Finds e s n → deliverAsks e c a n) ∧
          ((∀ n, ¬ a.Finds e s n) → receiveAsks e c a rv s.esp t)) := by
  obtain ⟨T, hT, hiff⟩ := receive_fetched_iff ho hfits hv hdel
  refine ⟨T, hT, hiff.trans ⟨fun h => ⟨?_, fun _ => h⟩, fun h => h.2 hnone⟩⟩
  exact fun n hn => absurd hn (hnone n)

/-- What is stored from the look at the queue on. -/
theorem from_asked_iff (hlook : Looked e a s t l) (h : getFrom e a s.esp t = .ok g) :
    ∃ T, Tallies (fromActs e a rv s.esp t) T ∧
      (T.Asked c a (flagsRet e c g.ret) ∧ ¬ PartLeft s.toCore g.sys.toCore ↔
        (∀ n, a.Finds e s n → deliverAsks e c a n) ∧
          ((∀ n, ¬ a.Finds e s n) → receiveAsks e c a rv s.esp t)) := by
  unfold getFrom at h
  unfold fromActs
  split_ifs at h ⊢ with hmax
  · cases l with
    | nil =>
      have hnone := hlook.holds.chain.null_iff.mpr rfl
      rw [hnone] at h ⊢
      obtain rfl := Except.ok.inj h
      refine receive_found_iff ho hfits hv hlook.delivered fun n hn => ?_
      obtain ⟨-, b, it, hb, -⟩ := (hlook.finds n).mp hn
      exact nomatch hnone.symm.trans hb
    | cons b l =>
      obtain ⟨it, hit⟩ := hlook.holds.chain.live (mem_cons_self ..)
      have hsome := hlook.holds.first
      have hlast : t.priv.pfirst = s.priv.pfirst ∨ (s.priv.pfirst = none ∧ l = []) := by
        refine hlook.first.imp_right fun hnew => ⟨hnew.1, ?_⟩
        exact eq_nil_of_length_eq_zero (Nat.le_zero.mp (Nat.le_of_succ_le_succ hnew.2))
      rw [hsome] at h ⊢
      dsimp only at h ⊢
      rw [hit] at h ⊢
      obtain ⟨T, hT, hiff⟩ := deliver_fetched_iff ho hmax hlook.holds hit
        (hlook.lengths b (mem_cons_self ..) it hit) hlook.delivered hlast h
      have hfound : a.Finds e s it.length :=
        (hlook.finds _).mpr ⟨hmax, b, it, hsome, hit, rfl⟩
      refine ⟨T, hT, hiff.trans ⟨fun hasks => ⟨fun n hn => ?_, fun hno => ?_⟩, fun hasks => ?_⟩⟩
      · obtain ⟨-, b', it', hb', hit', rfl⟩ := (hlook.finds n).mp hn
        obtain rfl := some.inj (hsome.symm.trans hb')
        obtain rfl := some.inj (hit.symm.trans hit')
        exact hasks
      · exact absurd hfound (hno it.length)
      · exact hasks.1 it.length hfound
  · obtain rfl := Except.ok.inj h
    exact receive_found_iff ho hfits hv hlook.delivered fun n hn => hmax hn.1

end

/-- What `do_getmsg` stores is right, and all of the message is out, under the
condition. -/
theorem fetch_asked_iff (ho : Opened e c a) (hfits : rv.Fits e a (wantsAddr a s))
    (hl : s.Holds l) (hlen : Lengths s.toCore l) (h : doGetmsg e a s = .ok g) :
    ∃ T, Tallies (getActs e a rv s) T ∧
      (T.Asked c a (flagsRet e c g.ret) ∧ ¬ PartLeft s.toCore g.sys.toCore ↔
        fetchAsks e c a rv s) := by
  unfold getActs fetchAsks
  by_cases henter : getEnters e s
  · rw [doGetmsg_eq henter] at h
    rw [← wantsAddr_look e] at hfits
    obtain ⟨l', hlook⟩ := look_queue e a hl hlen
    obtain ⟨T, hT, hiff⟩ := from_asked_iff ho hfits henter.1 hlook h
    -- the look itself stores nothing through the structures
    rw [if_pos henter, ← receiveAsks_look]
    exact ⟨T, lookActs_tallies.append hT, hiff.trans (imp_iff_right henter).symm⟩
  · obtain ⟨r, hr, heq⟩ := doGetmsg_turned_down henter
    obtain rfl := Except.ok.inj (h.symm.trans heq)
    rw [if_neg henter]
    exact ⟨_, .nil, fun _ hin => absurd hin henter,
      fun _ => ⟨.quiet (flagsRet_neg hr), not_partLeft rfl⟩⟩

/-- The part `k` of a call, from the point on where both lengths are -1, keeps the
promise exactly if `P`. It never returns `MORECTL`. -/
def Settled (c : GetmsgArgs) (a : GetArgs) (s : Sys) (k : Call) (P : Prop) : Prop :=
  k.ret ≠ MORECTL ∧ ∃ T, Tallies k.acts T ∧
    (T.Asked c a k.ret ∧ ¬ PartLeft s.toCore k.sys.toCore ↔ P)

variable {P : Prop}

/-- A call that failed without doing anything. -/
theorem Settled.failed {k : Call} (hret : k.ret < 0) (hacts : k.acts = [])
    (hcore : k.sys.toCore = s.toCore) (hP : P) : Settled c a s k P := by
  refine ⟨fun hmore => absurd (hmore ▸ hret) (by decide), ⟨[], [], [], []⟩, ?_, fun _ => hP,
    fun _ => ⟨.quiet hret, not_partLeft (congrArg Core.delivered hcore)⟩⟩
  rw [hacts]
  exact .nil

theorem xti_settled (ho : Opened e c a) (hfits : rv.Fits e a (wantsAddr a s))
    (hl : s.Holds l) (hlen : Lengths s.toCore l) :
    ∃ k, xtiGetmsg e c a rv s = .ok k ∧ Settled c a s k (fetchAsks e c a rv s) := by
  obtain ⟨g, hg, -⟩ := doGetmsg_ok e a hl.ok
  obtain ⟨T, hT, hiff⟩ := fetch_asked_iff ho hfits hl hlen hg
  have hmore := flagsRet_ne_more (e := e) (c := c) g.ret
  unfold xtiGetmsg
  rw [hg]
  dsimp only
  split
  next hneg =>
    rw [flagsRet, if_pos hneg] at hiff hmore
    exact ⟨_, rfl, hmore, T, hT, hiff⟩
  next hneg =>
    split
    next hw =>
      rw [flagsRet, if_neg hneg, if_neg hw] at hiff hmore
      exact ⟨_, rfl, hmore, T, hT, hiff⟩
    next hw =>
      rw [flagsRet, if_neg hneg, if_pos (not_not.mp hw)] at hiff hmore
      have hflags : Tallies [.put .flags c.flagsp (BitVec.ofInt 32 g.flags)] ⟨[], [], [], []⟩ :=
        ⟨⟨rfl, rfl⟩, ⟨rfl, rfl⟩, ⟨rfl, rfl⟩, ⟨rfl, rfl⟩⟩
      have hboth := hT.append hflags
      simp only [append_nil] at hboth
      refine ⟨_, rfl, hmore, T, hboth, ?_⟩
      rw [putUser_toCore]
      exact hiff

end Fetch

/-! ## The structures -/

section Open

variable {e : Env} {ip : Rdev} {c : GetmsgArgs} {rv : Received} {ctl dat : Strbuf} {s s1 s2 : Sys}
  {p junk : Word} {b : Strbuf} {k : Call} {T : Tally} {l : List Addr}

/-- An open structure could be opened, and nothing but memory has changed. -/
theorem openStrbuf_some (h : openStrbuf e p junk s = some (b, s1)) :
    e.CanOpen p ∧ (p = 0 → b.maxlen = -1) ∧ b.maxlen < 2 ^ 31 ∧ s1.toCore = s.toCore := by
  unfold openStrbuf at h
  split at h
  next hnull =>
    obtain ⟨rfl, rfl⟩ := Prod.mk.inj (some.inj h)
    have hint : (-1 : Int) < 2 ^ 31 := by decide
    exact ⟨fun hne => absurd hnull hne, fun _ => rfl, hint, rfl⟩
  next hnull =>
    split at h
    · exact nomatch h
    next hread =>
      split at h
      · exact nomatch h
      next hwrite =>
        obtain ⟨rfl, rfl⟩ := Prod.mk.inj (some.inj h)
        exact ⟨fun _ => ⟨not_not.mp hread, not_not.mp hwrite⟩, fun h0 => absurd h0 hnull,
          BitVec.toInt_lt .., putUser_toCore ..⟩

/-- Only a structure that is there can fail to open. -/
theorem openStrbuf_none (h : openStrbuf e p junk s = none) : p ≠ 0 ∧ ¬ e.CanOpen p := by
  unfold openStrbuf at h
  split at h
  · exact nomatch h
  next hnull =>
    refine ⟨hnull, fun hopen => ?_⟩
    obtain ⟨hread, hwrite⟩ := hopen hnull
    rw [if_neg (not_not.mpr hread), if_neg (not_not.mpr hwrite)] at h
    exact nomatch h

theorem opened (hctl : openStrbuf e c.ctlp c.ctlJunk s = some (ctl, s1))
    (hdat : openStrbuf e c.datp c.datJunk s1 = some (dat, s2)) (flags : Word) :
    Opened e c (c.getArgs ctl dat flags) := by
  obtain ⟨hcopen, hcnull, hcint, -⟩ := openStrbuf_some hctl
  obtain ⟨hdopen, hdnull, hdint, -⟩ := openStrbuf_some hdat
  exact ⟨rfl, hcnull, hdnull, fun h => (hcopen h).2, fun h => (hdopen h).2, hcint, hdint⟩

theorem openActs_ctlLen (p : Word) : Tallies (openActs .ctlLen p)
    ⟨if p = 0 then [] else [-1], [], [], []⟩ := by
  unfold openActs
  split
  · exact .nil
  · exact ⟨⟨rfl, rfl⟩, ⟨rfl, rfl⟩, ⟨rfl, rfl⟩, ⟨rfl, rfl⟩⟩

theorem openActs_datLen (p : Word) : Tallies (openActs .datLen p)
    ⟨[], [], if p = 0 then [] else [-1], []⟩ := by
  unfold openActs
  split
  · exact .nil
  · exact ⟨⟨rfl, rfl⟩, ⟨rfl, rfl⟩, ⟨rfl, rfl⟩, ⟨rfl, rfl⟩⟩

/-! One structure at a time: `q` and `q'` are the pointers to its length and its
buffer, and the length is set to -1 first. -/

section Strbuf

variable {q q' : Ptr} {acts : List (Act Ptr)} {ws : List Word} {bl : List (Word × List Byte)}
  {r : Int}

theorem unused_iff (hp : p = 0)
    (hq : words q acts = (if p = 0 then [] else [-1]) ++ ws ∧ blocks q acts = [])
    (hq' : words q' acts = [] ∧ blocks q' acts = bl) :
    Unused q acts ∧ Unused q' acts ↔ ws = [] ∧ bl = [] := by
  rw [if_pos hp, nil_append] at hq
  refine ⟨fun h => ⟨hq.1.symm.trans h.1.words, hq'.2.symm.trans h.2.blocks⟩, ?_⟩
  rintro ⟨rfl, rfl⟩
  exact ⟨⟨hq.1, hq.2⟩, ⟨hq'.1, hq'.2⟩⟩

/-- The -1 stands unless a later store replaces it. -/
theorem lenRight_opened (hp : p ≠ 0)
    (hq : words q acts = (if p = 0 then [] else [-1]) ++ ws ∧ blocks q acts = [])
    (hq' : words q' acts = [] ∧ blocks q' acts = bl) :
    LenRight r (words q acts).getLast? (placed q' acts) ↔
      LenRight r (ws.getLast?.or (some (-1))) (total bl) := by
  rw [if_neg hp] at hq
  rw [hq.1, placed, hq'.2, getLast?_append]
  rfl

end Strbuf

/-- The promise, once both lengths are -1. -/
theorem after_asked_iff (hctl : openStrbuf e c.ctlp c.ctlJunk s = some (ctl, s1))
    (hdat : openStrbuf e c.datp c.datJunk s1 = some (dat, s2))
    (hk : Settled c (c.getArgs ctl dat 0) s k P) :
    WritesAsked e c s (k.after (openActs .ctlLen c.ctlp ++ openActs .datLen c.datp)) ↔ P := by
  obtain ⟨hmore, T, hT, hiff⟩ := hk
  refine Iff.trans ?_ hiff
  have hall := ((openActs_ctlLen c.ctlp).append (openActs_datLen c.datp)).append hT
  simp only [append_nil, nil_append] at hall
  obtain ⟨hcl, hcb, hdl, hdb⟩ := hall
  constructor
  · intro h
    have hctlRoom := h.ctlRoom ctl s1 hctl
    have hdatRoom := h.datRoom ctl s1 dat s2 hctl hdat
    exact ⟨⟨fun hnull => (unused_iff hnull hcl hcb).mp (h.ctlNull hnull),
      fun hnull => (unused_iff hnull hdl hdb).mp (h.datNull hnull),
      fun hne => (lenRight_opened hne hcl hcb).mp (h.ctlLen hne),
      fun hne => (lenRight_opened hne hdl hdb).mp (h.datLen hne),
      hcb.2 ▸ hctlRoom, hdb.2 ▸ hdatRoom⟩, fun hpart => hmore (h.more.mpr hpart)⟩
  · rintro ⟨h, hpart⟩
    refine ⟨fun hnull => (unused_iff hnull hcl hcb).mpr (h.ctlNull hnull),
      fun hnull => (unused_iff hnull hdl hdb).mpr (h.datNull hnull),
      fun hne => (lenRight_opened hne hcl hcb).mpr (h.ctlLen hne),
      fun hne => (lenRight_opened hne hdl hdb).mpr (h.datLen hne), ?_, ?_,
      ⟨fun heq => absurd heq hmore, fun hleft => absurd hleft hpart⟩⟩
    · intro ctl' s1' hctl'
      obtain ⟨rfl, rfl⟩ := Prod.mk.inj (some.inj (hctl.symm.trans hctl'))
      exact hcb.2.symm ▸ h.ctlRoom
    · intro ctl' s1' dat' s2' hctl' hdat'
      obtain ⟨rfl, rfl⟩ := Prod.mk.inj (some.inj (hctl.symm.trans hctl'))
      obtain ⟨rfl, rfl⟩ := Prod.mk.inj (some.inj (hdat.symm.trans hdat'))
      exact hdb.2.symm ▸ h.datRoom

/-- The flags play no part. -/
theorem Settled.flags {f f' : Word} (h : Settled c (c.getArgs ctl dat f) s k P) :
    Settled c (c.getArgs ctl dat f') s k P := by
  obtain ⟨hmore, T, hT, hiff⟩ := h
  have hasked : T.Asked c (c.getArgs ctl dat f') k.ret ↔ T.Asked c (c.getArgs ctl dat f) k.ret :=
    ⟨fun h => ⟨h.1, h.2, h.3, h.4, h.5, h.6⟩, fun h => ⟨h.1, h.2, h.3, h.4, h.5, h.6⟩⟩
  exact ⟨hmore, T, hT, (and_congr_left' hasked).trans hiff⟩

/-- The SPX device offers one byte of the descriptor, and says it is four. -/
theorem spx_settled {a : GetArgs} (ho : Opened e c a) (hlen : a.ctlLen = c.ctlp + 4) :
    Settled c a s (spxGetmsg e c ctl s) (¬ e.canWrite ctl.buf 1 = true) := by
  have hneg : -EFAULT < 0 := by decide
  unfold spxGetmsg
  split
  next hw => exact .failed hneg rfl rfl hw
  next hw =>
    -- a byte is placed: either there is no structure, or its length is wrong
    split
    next hfault =>
      refine ⟨(hneg.trans (by decide)).ne, _, copy_ctlBuf .., fun h => ?_, fun hno => absurd hno hw⟩
      by_cases hnull : c.ctlp = 0
      · exact absurd (h.1.ctlNull hnull).2 (cons_ne_nil _ _)
      · have hset := ho.ctlSet hnull
        rw [hlen] at hset
        exact absurd hset hfault
    · refine ⟨Int.zero_ne_one, ⟨[4], [(ctl.buf, [c.fd.extractLsb' 0 8])], [], []⟩,
        ⟨⟨rfl, rfl⟩, ⟨rfl, rfl⟩, ⟨rfl, rfl⟩, ⟨rfl, rfl⟩⟩, fun h => ?_, fun hno => absurd hno hw⟩
      by_cases hnull : c.ctlp = 0
      · exact absurd (h.1.ctlNull hnull).2 (cons_ne_nil _ _)
      · rcases h.1.ctlLen hnull with hfour | ⟨-, hnone, -⟩
        · have hone : 4 = 1 := ofNat_inj (by decide) (by decide) (some.inj hfour)
          exact nomatch hone
        · exact absurd hnone Nat.one_ne_zero

/-- Once the structures are open the rest of the condition decides. -/
theorem opened_settled (ip : Rdev) (hctl : openStrbuf e c.ctlp c.ctlJunk s = some (ctl, s1))
    (hdat : openStrbuf e c.datp c.datJunk s1 = some (dat, s2)) (hrv : rv.Answers e c s)
    (hl : s2.Holds l) (hlen : Lengths s2.toCore l) :
    ∃ k, openedGetmsg e ip c rv ctl dat s2 = .ok k ∧ Settled c (c.getArgs ctl dat 0) s2 k
      (∀ flags, getUser e s2 c.flagsp = some flags →
        if ip.isSpx then ¬ e.canWrite ctl.buf 1 = true
        else flags ∈ getmsgFlags → fetchAsks e c (c.getArgs ctl dat flags) rv s2) := by
  unfold openedGetmsg
  cases hflags : getUser e s2 c.flagsp with
  | none =>
    have hneg : -EFAULT < 0 := by decide
    exact ⟨_, rfl, .failed hneg rfl rfl nofun⟩
  | some flags =>
    have hall : ∀ {P : Word → Prop}, (∀ f, some flags = some f → P f) ↔ P flags := by
      intro P
      exact ⟨fun h => h flags rfl, fun h f hf => some.inj hf ▸ h⟩
    rw [hall]
    have ho := opened hctl hdat flags
    by_cases hspx : ip.isSpx
    · simp only [if_pos hspx]
      exact ⟨_, rfl, (spx_settled ho rfl).flags⟩
    · simp only [if_neg hspx]
      split_ifs with hin
      · obtain ⟨k, hk, hsettled⟩ := xti_settled ho (hrv hctl hdat hflags) hl hlen
        rw [imp_iff_right hin]
        exact ⟨k, hk, hsettled.flags⟩
      · have hneg : -EINVAL < 0 := by decide
        exact ⟨_, rfl, .failed hneg rfl rfl fun h => absurd h hin⟩

end Open

/-- A `recvfrom` without data stores nothing. -/
theorem noData_answers (he : e.socket .recvfrom = ⟨0, id⟩) (c : GetmsgArgs) (s : Sys) :
    Received.Answers ⟨[], [], none⟩ e c s := by
  intro ctl dat s1 s2 flags hctl hdat hflags
  refine ⟨fun m => ?_, fun _ => ?_, Nat.zero_le _, fun hw => ?_⟩
  · rw [he]
    unfold Received.acts
    split <;> rfl
  · rw [he]
    rfl
  · have hmax : 20 < (c.getArgs ctl dat flags).ctlMaxlen := (of_decide_eq_true hw).1
    show 0 + 20 ≤ _
    omega

/-- `getmsg` of a control part, with the structure behind the request at `0x1000`
and the flags behind that. -/
def getmsgBehind : GetmsgArgs := ⟨3, 0x1004, 0, 0x1010, 0, 0⟩

variable {k k' : Core} {a : Addr} {l : List Addr} {n : TPrimsg}

/-- The pieces the messages `l` can still give: one for each byte and one for each message. -/
def Core.left (k : Core) (l : List Addr) : Nat :=
  (l.map fun a => (k.heap a).elim 0 (·.length.toNat + 1)).sum

theorem left_cons (hn : k.heap a = some n) : k.left (a :: l) = n.length.toNat + 1 + k.left l := by
  simp [Core.left, hn]

theorem left_update {v : Option TPrimsg} (ha : a ∉ l) (hk : k'.heap = Function.update k.heap a v) :
    k'.left l = k.left l :=
  congrArg sum (map_congr_left fun b hb => by rw [hk, update_agree ha b hb])

/-- A `do_getmsg` with room for a byte that finds a message and does not fail. -/
def Op.Reads : Op → Sys → Prop
  | .getmsg e c, s =>
    1 ≤ c.ctlMaxlen ∧ s.priv.pfirst ≠ none ∧ ∀ g, doGetmsg e c s = .ok g → 0 ≤ g.ret
  | _, _ => False

/-- A piece handed out leaves fewer bytes, or one message less. -/
theorem Op.Reads.takes {op : Op} {s : Sys} (h : op.Reads s) (hl : s.Holds l)
    (hlen : Lengths s.toCore l) : ∃ r t l', op.step s = .ok (r, t) ∧ t.Holds l' ∧
      Lengths t.toCore l' ∧ t.left l' < s.left l := by
  cases op with
  | getmsg e c =>
    obtain ⟨hmax, hsome, hr⟩ := h
    obtain ⟨g, hg, -⟩ := doGetmsg_ok e c hl.ok
    rw [Op.step, hg]
    cases l with
    | nil => exact absurd (hl.chain.null_iff.mpr rfl) hsome
    | cons a l =>
      obtain ⟨n, hn⟩ := hl.chain.live (mem_cons_self ..)
      have hnot := (nodup_cons.mp hl.chain.nodup).1
      have hcore := (doGetmsg_delivers hl hn (by omega) hg (hr g hg)).core
      rw [left_cons hn]
      rcases takeChunk_ok hcore with ⟨hmore, hk⟩ | ⟨hlast, -⟩
      · have hle := (c.take_bounds (by omega) (hlen a (mem_cons_self ..) n hn)).2
        refine ⟨_, _, a :: l, rfl, ?_⟩
        rw [hk, left_cons (Function.update_self ..), left_update (k := s.toCore) hnot rfl]
        refine ⟨hl.handOut hn _, hlen.handOut hl hle, ?_⟩
        unfold GetArgs.take at hmore ⊢
        dsimp only
        split at hmore <;> omega
      · have hrem := hl.takes_whole hn (not_not.mp hlast) hcore
        refine ⟨_, _, l, rfl, hrem.queue, hlen.tail.frame (hrem.heap ▸ update_agree hnot), ?_⟩
        rw [left_update hnot hrem.heap]
        omega
  | _ => exact h.elim

theorem reads_le : ∀ {reads : List Op} {s : Sys} {l : List Addr}, s.Holds l → Lengths s.toCore l →
    Along Op.step Op.Reads reads s → reads.length ≤ s.left l
  | [], _, _, _, _, _ => Nat.zero_le _
  | _ :: _, _, _, hl, hlen, hreads => by
    obtain ⟨r, t, l', hstep, hl', hlen', hless⟩ := hreads.1.takes hl hlen
    exact (reads_le hl' hlen' (hreads.2 r t hstep)).trans_lt hless

/-- **Reading comes to an end.** Whatever was done to an endpoint since it was new, its queue
is a list of messages, and no more calls read from it than it has bytes and messages. -/
theorem reading_ends {st : TState} {s t : Sys} (hs : s.Fresh st) (ops : List Op)
    (h : run Op.step ops s = .ok t) :
    ∃ l, t.Holds l ∧ ∀ reads, Along Op.step Op.Reads reads t → reads.length ≤ t.left l := by
  obtain ⟨l, hl, hlen⟩ := run_measured hs h
  exact ⟨l, hl, fun _ => reads_le hl hlen⟩

theorem reading_ends_after_unbind :
    ∃ t, run Op.step [.putmsg { plainEnv with ackAlloc := some (freeBlock 1) } (putAt 4)]
        (endpoint .unbnd [T_UNBIND_REQ]) = .ok t ∧
      ∃ l, t.Holds l ∧ ∀ reads, Along Op.step Op.Reads reads t → reads.length ≤ t.left l :=
  Exists.imp (fun _ ht => ⟨ht, reading_ends (endpoint_fresh ..) _ ht⟩) ⟨_, rfl⟩

end AbiEmu.Xti
