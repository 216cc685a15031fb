import AbiEmu.Xti.Calls
import AbiEmu.Xti.Delivery
import AbiEmu.Xti.Descriptors

/-!
# Do `I_PEEK` and `I_NREAD` tell what comes?

`i_peek` repeats the arithmetic of `do_getmsg` on the first message and leaves that where it
is; `i_nread` tells its length. `Predicts` is what a client may expect of them: the next
`do_getmsg` with the same buffer length hands out the same bytes, length and flags, the
pieces of the message add up to the length that was told, and the queue is not disturbed by
anything but a new `T_CONN_IND`.

The position may be anything: `do_getmsg` starts from the same one. Both look at the queue
only if the inode is a socket by its mode. The set-up of an endpoint has changed the mode, but
then `svr4_stream_ioctl` turns the call down before either is reached
(`stream_ioctl_predicts`).
-/

namespace AbiEmu.Xti

open List Option

/-! ## What is told -/

/-- What a client is handed of a control message. -/
structure Handed where
  bytes : List Byte
  length : Word
  flags : Word
  deriving DecidableEq, Repr

/-- `i_peek` hands it out with the `struct strpeek` at `uap`, which was read from `s0`; it
finds the endpoint as `s` and leaves it as `t`. -/
def Handed.Peeked (out : Handed) (e : Env) (uap : Word) (s0 s t : Sys) : Prop :=
  ∃ s1 s2 s3, copyToUser e (s0.mem.word (uap + 8)) out.bytes s = some s1 ∧
    putUserOr e (uap + 4) out.length s1 = some s2 ∧
    (if 0 ≤ (s0.mem.word (uap + 12)).toInt then putUserOr e (uap + 16) 0 s2 else some s2) =
      some s3 ∧
    putUserOr e (uap + 24) out.flags s3 = some t

/-- `do_getmsg` hands it out. -/
def Handed.Got (out : Handed) (e : Env) (c : GetArgs) (s : Sys) (g : Got) : Prop :=
  (∃ s1, copyToUser e c.ctlBuf out.bytes s = some s1 ∧
    g.sys.mem = (noData e c (putUser e c.ctlLen out.length s1)).mem) ∧
  g.flags = out.flags.toNat

/-- The control bytes that the calls of `do_getmsg` deliver until a message is at its end. -/
def fetched : List (Env × GetArgs) → Sys → Option Nat
  | [], _ => none
  | (e, c) :: calls, s =>
    match doGetmsg e c s with
    | .error _ => none
    | .ok g =>
      let pieces := g.sys.delivered.drop s.delivered.length
      let n := (pieces.flatMap Chunk.bytes).length
      if ∃ p ∈ pieces, p.ret = 0 then some n else (fetched calls g.sys).map (n + ·)

/-- Between `k` and `k'` nothing happens to position, queue and messages, except that a
`T_CONN_IND` may have come in front. -/
def Undisturbed (k k' : Core) : Prop :=
  k'.priv.offset = k.priv.offset ∧
  ∃ l, k.Holds l ∧ (∀ a ∈ l, k'.heap a = k.heap a) ∧
    (k'.Holds l ∨ ∃ b n, k'.Holds (b :: l) ∧ k'.heap b = some n ∧ n.announces ≠ none)

/-- What is promised of `I_PEEK` and `I_NREAD` on the descriptor of `f`, whoever calls
`do_getmsg` next. -/
structure Predicts (k : Kernel) (fd : Word) (f : File) : Prop where
  peek : ∀ e uap k', svr4StreamIoctl e fd 15 uap k = .ok (1, k') →
    ∃ g, k'.fget fd = some g ∧
      ∀ e' c got, c.ctlMaxlen = (f.sys.mem.word uap).toInt → doGetmsg e' c g.sys = .ok got →
        0 ≤ got.ret → ∃ f1 out, f.looked e.call fd = .ok f1 ∧
          Handed.Peeked out e.call uap f.sys f1.sys g.sys ∧ Handed.Got out e' c g.sys got
  nread : ∀ e data r k', e.call.canWrite data 4 = true →
    svr4StreamIoctl e fd 1 data k = .ok (r, k') → 0 ≤ r →
    ∃ g, k'.fget fd = some g ∧ ∀ calls n, fetched calls g.sys = some n →
      g.sys.mem.word data = BitVec.ofNat 32 n
  quiet : ∀ e cmd data r k', cmd = 1 ∨ cmd = 15 → svr4StreamIoctl e fd cmd data k = .ok (r, k') →
    ∃ g, k'.fget fd = some g ∧ Undisturbed f.sys.toCore g.sys.toCore

/-! ## The queue is not disturbed -/

section Quiet

variable {k k' : Core} {e : Env} {fd : Word} {f f1 g : File} {r : Int}

theorem Undisturbed.refl (h : ∃ l, k.Holds l) : Undisturbed k k := by
  obtain ⟨l, hl⟩ := h
  exact ⟨rfl, l, hl, fun _ _ => rfl, .inl hl⟩

theorem Look.undisturbed (l : Look) (h : ∃ q, l.sys.toCore.Holds q) :
    Undisturbed l.sys.toCore l.after.toCore := by
  have hupdates := l.updates
  generalize l.ret = ret, l.after = t at hupdates
  cases hupdates with
  | quiet | refused | dropped => exact .refl h
  | fault _ _ hb _ =>
    obtain ⟨q, hq⟩ := h
    obtain ⟨hq', hnot⟩ := hq.alloc hb
    obtain ⟨_, _, rfl⟩ := timodMkctl_spec hb
    exact ⟨rfl, q, hq, update_agree hnot, .inl hq'⟩
  | announced _ _ hb _ =>
    obtain ⟨q, hq⟩ := h
    obtain ⟨hq', hnot⟩ := hq.alloc hb
    obtain ⟨_, _, rfl⟩ := timodMkctl_spec hb
    refine ⟨rfl, q, hq, fun a ha => ?_,
      .inr ⟨_, _, hq'.pushFront hnot, Function.update_self .., ?_⟩⟩
    · exact (update_agree hnot a ha).trans (update_agree hnot a ha)
    · rw [connInd_announces]
      exact some_ne_none _

section

variable (h : ∃ q, f.sys.toCore.Holds q)

include h

theorem looked_undisturbed (hlook : f.looked e fd = .ok f1) :
    Undisturbed f.sys.toCore f1.sys.toCore := by
  rcases looked_cases hlook with ⟨-, rfl⟩ | ⟨-, rfl⟩
  · exact Look.undisturbed ⟨e, fd, f.sys⟩ h
  · exact .refl h

theorem iPeek_undisturbed {uap : Word} (hpeek : iPeek e fd uap f = .ok (r, g)) :
    Undisturbed f.sys.toCore g.sys.toCore := by
  rcases iPeek_cases hpeek with ⟨-, rfl, -⟩ | ⟨-, f1, hlook, hg⟩
  · exact .refl h
  · obtain rfl : g = _ := congrArg Prod.snd hg
    rw [(peekQueue_onlyMem ..).toCore]
    exact looked_undisturbed h hlook

variable {inq : SockAnswer}

theorem iNread_undisturbed {data : Word} (hnread : iNread e inq fd data f = .ok (r, g)) :
    Undisturbed f.sys.toCore g.sys.toCore := by
  rcases iNread_cases hnread with ⟨-, hg⟩ | ⟨-, hg⟩ | ⟨-, f1, hlook, hg⟩
  · obtain rfl : g = _ := congrArg Prod.snd hg
    exact .refl h
  all_goals obtain rfl : g = _ := congrArg Prod.snd hg
  · rw [(askSocket_onlyMem ..).toCore]
    exact .refl h
  · rw [(nreadQueue_onlyMem ..).toCore]
    exact looked_undisturbed h hlook

end

/-- A queue with a message still has one afterwards. -/
theorem Undisturbed.first (h : Undisturbed k k') (hfirst : k.priv.pfirst ≠ none) :
    ∃ a n, k'.priv.pfirst = some a ∧ k'.heap a = some n := by
  obtain ⟨-, l, hl, -, hor⟩ := h
  have hcons (b : Addr) (q : List Addr) (hq : k'.Holds (b :: q)) :
      ∃ a n, k'.priv.pfirst = some a ∧ k'.heap a = some n := by
    obtain ⟨n, hn⟩ := hq.chain.live (mem_cons_self ..)
    exact ⟨b, n, hq.first, hn⟩
  rcases hor with hl' | ⟨b, -, hl', -⟩
  · cases l with
    | nil => exact absurd (hl.chain.null_iff.mpr rfl) hfirst
    | cons a l => exact hcons a l hl'
  · exact hcons b l hl'

end Quiet

/-! ## Following the message -/

section Fetch

variable {e : Env} {c : GetArgs} {s : Sys} {a : Addr} {it : TPrimsg}

section

variable (hfirst : s.priv.pfirst = some a)

include hfirst

/-- With a message at hand nobody looks for a connection. -/
theorem lookForConnection_found : lookForConnection e c s = s := by
  refine if_neg fun hl => ?_
  rw [hfirst] at hl
  exact nomatch hl.2

/-- A call of `do_getmsg` with a message at hand, past its checks. -/
theorem doGetmsg_found (hit : s.heap a = some it) (henter : getEnters e s)
    (hmax : 0 ≤ c.ctlMaxlen) :
    doGetmsg e c s = deliver e c a it s := by
  rw [doGetmsg_eq henter, lookForConnection_found hfirst]
  unfold getFrom
  rw [if_pos hmax, hfirst]
  dsimp only
  rw [hit]

/-- A call of `do_getmsg` with a message at hand: nothing happens to it, a piece of it is
handed out, or its last piece. -/
theorem doGetmsg_pieces {g : Got} (hit : s.heap a = some it) (hlen : 0 ≤ it.length)
    (h : doGetmsg e c s = .ok g) :
    g.sys.toCore = s.toCore ∨
    (∃ l p, 0 ≤ l ∧ l ≤ it.length ∧ p.bytes.length = l.toNat ∧
      g.sys.delivered = s.delivered ++ [p] ∧
      ((p.ret = 0 ∧ l = it.length) ∨
        (p.ret ≠ 0 ∧ g.sys.priv.pfirst = some a ∧
          g.sys.heap a = some { it with length := it.length - l }))) := by
  by_cases henter : getEnters e s
  · rw [doGetmsg_eq henter, lookForConnection_found hfirst] at h
    have hgets := getFrom_gets h
    generalize g.ret = ret, g.sys.toCore = k at hgets ⊢
    cases hgets with
    | quiet => exact .inl rfl
    | @piece b it' _ hmax hfirst' hit' hk =>
      obtain rfl := some.inj (hfirst.symm.trans hfirst')
      obtain rfl := some.inj (hit.symm.trans hit')
      obtain ⟨hpos, hmost⟩ := c.take_bounds hmax hlen
      refine .inr ⟨c.take it.length,
        ⟨it.serial, (range (c.take it.length).toNat).map fun i =>
          it.body (s.priv.offset.toNat + i),
          if it.length - c.take it.length ≠ 0 then MORECTL else 0⟩,
        hpos, hmost, by rw [length_map, length_range], ?_⟩
      rcases takeChunk_ok hk with ⟨hmore, rfl⟩ | ⟨hmore, hk⟩
      · refine ⟨rfl, .inr ⟨?_, hfirst, Function.update_self ..⟩⟩
        rw [if_pos hmore]
        exact (by decide : MORECTL ≠ 0)
      · refine ⟨dropHead_delivered hk, .inl ⟨if_neg hmore, ?_⟩⟩
        omega
  · obtain ⟨ret, -, hdown⟩ := doGetmsg_turned_down henter
    obtain rfl := Except.ok.inj (hdown.symm.trans h)
    exact .inl rfl

end

/-- The pieces up to the end of the first message are as many bytes as were left of it. -/
theorem fetched_eq : ∀ {calls : List (Env × GetArgs)} {s : Sys} {it : TPrimsg} {n : Nat},
    s.priv.pfirst = some a → s.heap a = some it → 0 ≤ it.length → fetched calls s = some n →
      (n : Int) = it.length
  | [], _, _, _, _, _, _, h => nomatch h
  | (e, c) :: calls, s, it, n, hfirst, hit, hlen, h => by
    unfold fetched at h
    split at h
    · exact nomatch h
    next g hg =>
      dsimp only at h
      rcases doGetmsg_pieces hfirst hit hlen hg with hsame | ⟨l, p, hpos, hmost, hbytes, hdel, hp⟩
      · -- nothing has been handed out
        have hdel : g.sys.delivered = s.delivered := congrArg Core.delivered hsame
        rw [hdel, List.drop_length] at h
        have hno : ¬ ∃ p ∈ ([] : List Chunk), p.ret = 0 :=
          fun ⟨_, hp, _⟩ => nomatch hp
        rw [if_neg hno] at h
        obtain ⟨m, hm, rfl⟩ := map_eq_some_iff.mp h
        have hpriv : g.sys.priv = s.priv := congrArg Core.priv hsame
        have hheap : g.sys.heap = s.heap := congrArg Core.heap hsame
        have ih := fetched_eq (hpriv ▸ hfirst) (hheap ▸ hit) hlen hm
        rw [flatMap_nil, length_nil, Nat.zero_add]
        exact ih
      · rw [hdel, drop_left, flatMap_singleton, hbytes] at h
        rcases hp with ⟨hret, rfl⟩ | ⟨hret, hfirst', hit'⟩
        · rw [if_pos ⟨p, mem_singleton_self p, hret⟩] at h
          obtain rfl := some.inj h
          exact Int.toNat_of_nonneg hlen
        · have hno : ¬ ∃ q ∈ [p], q.ret = 0 := by
            rintro ⟨q, hq, hzero⟩
            rw [mem_singleton.mp hq] at hzero
            exact hret hzero
          rw [if_neg hno] at h
          obtain ⟨m, hm, rfl⟩ := map_eq_some_iff.mp h
          have hleft : 0 ≤ ({ it with length := it.length - l } : TPrimsg).length := by
            show 0 ≤ it.length - l
            omega
          have ih := fetched_eq hfirst' hit' hleft hm
          have ih' : (m : Int) = it.length - l := ih
          omega

end Fetch

/-! ## The two ioctls -/

section Predict

variable {e : Env} {fd : Word} {f g : File}

/-- A peek that reports a message has handed out a piece of it. -/
theorem peekAt_handed {uap : Word} {s0 : Sys} {tp : TPrimsg} (h : peekAt e uap s0 tp f = (1, g)) :
    ∃ l, l = (if (s0.mem.word uap).toInt ≤ tp.length then (s0.mem.word uap).toInt else tp.length) ∧
      0 ≤ l ∧ Handed.Peeked
        ⟨(List.range l.toNat).map fun i => tp.body (f.sys.priv.offset.toNat + i),
          BitVec.ofInt 32 l, tp.pri.setWidth 32⟩ e uap s0 f.sys g.sys := by
  have hfault (x : File) : ((-EFAULT, x) : Int × File) ≠ (1, g) :=
    fun he => absurd (Prod.mk.inj he).1 (by decide)
  unfold peekAt at h
  dsimp only at h
  split at h
  · generalize (if (s0.mem.word uap).toInt ≤ tp.length then (s0.mem.word uap).toInt
      else tp.length) = l at h ⊢
    refine ⟨l, rfl, ?_⟩
    split at h
    · exact absurd h (hfault _)
    next s1 h1 =>
      rw [ite_none_left_eq_some] at h1
      split at h
      · exact absurd h (hfault _)
      next s2 h2 =>
        split at h
        · exact absurd h (hfault _)
        next s3 h3 =>
          split at h
          · exact absurd h (hfault _)
          next s4 h4 =>
            obtain rfl : _ = g := congrArg Prod.snd h
            exact ⟨not_lt.mp h1.1, s1, s2, s3, h1.2, h2, h3, h4⟩
  · exact absurd h (hfault _)

variable {it : TPrimsg} {c : GetArgs} {got : Got}

/-- What `do_getmsg` hands out of the message it finds. -/
theorem deliver_handed {a : Addr} {s : Sys} (h : deliver e c a it s = .ok got)
    (hret : 0 ≤ got.ret) :
    Handed.Got ⟨(List.range (c.take it.length).toNat).map fun i =>
      it.body (s.priv.offset.toNat + i), BitVec.ofInt 32 (c.take it.length),
      it.pri.setWidth 32⟩ e c s got := by
  rcases deliver_eq e c a it s with ⟨-, hg⟩ | ⟨s1, -, hcopy, hg⟩
  · obtain rfl := Except.ok.inj (hg.symm.trans h)
    exact absurd hret (show ¬ (0 : Int) ≤ -EFAULT by decide)
  · obtain ⟨k, -, rfl⟩ := map_eq_ok (hg.symm.trans h)
    refine ⟨⟨s1, hcopy, rfl⟩, ?_⟩
    rw [BitVec.toNat_setWidth, Nat.mod_eq_of_lt (by omega)]

/-- A message that is found is the first of the queue. -/
theorem File.first_eq_some (h : f.first = some it) :
    ∃ a, f.sys.priv.pfirst = some a ∧ f.sys.heap a = some it := by
  unfold File.first at h
  split at h
  · exact nomatch h
  · exact bind_eq_some_iff.mp h

/-- `I_PEEK` shows what comes. -/
theorem iPeek_predicts {uap : Word} {e' : Env} (hpeek : iPeek e fd uap f = .ok (1, g))
    (hmax : c.ctlMaxlen = (f.sys.mem.word uap).toInt) (hget : doGetmsg e' c g.sys = .ok got)
    (hret : 0 ≤ got.ret) :
    ∃ f1 out, f.looked e fd = .ok f1 ∧ Handed.Peeked out e uap f.sys f1.sys g.sys ∧
      Handed.Got out e' c g.sys got := by
  rcases iPeek_cases hpeek with ⟨-, -, hle⟩ | ⟨-, f1, hlook, hg⟩
  · exact nomatch hle
  unfold peekQueue at hg
  split at hg
  · exact absurd (Prod.mk.inj hg).1 (by decide)
  next tp hfirst =>
    obtain ⟨l, hl, hpos, hpeeked⟩ := peekAt_handed hg.symm
    have hcore : g.sys.toCore = f1.sys.toCore := by
      rw [show g = _ from congrArg Prod.snd hg]
      exact (peekAt_onlyMem ..).toCore
    obtain ⟨a, ha, hit⟩ := File.first_eq_some hfirst
    -- both take the smaller of the two lengths, and a negative one is never copied
    have hcut : 0 ≤ c.ctlMaxlen ∧ c.take tp.length = l := by
      unfold GetArgs.take
      split at hl <;> split <;> omega
    have henter : getEnters e' g.sys := by
      by_contra hno
      obtain ⟨r, hneg, hdown⟩ := doGetmsg_turned_down hno
      obtain rfl := Except.ok.inj (hdown.symm.trans hget)
      exact absurd hret (not_le.mpr hneg)
    have hfirst' : g.sys.priv.pfirst = some a := (congrArg (·.priv.pfirst) hcore).trans ha
    have hit' : g.sys.heap a = some tp := (congrArg (·.heap a) hcore).trans hit
    rw [doGetmsg_found hfirst' hit' henter hcut.1] at hget
    have hgot := deliver_handed hget hret
    rw [hcut.2, congrArg (·.priv.offset) hcore] at hgot
    exact ⟨f1, _, hlook, hpeeked, hgot⟩

theorem Core.Measured.holds {k : Core} (h : k.Measured) : ∃ l, k.Holds l := by
  obtain ⟨l, hl, -⟩ := h
  exact ⟨l, hl⟩

theorem Core.Measured.first {k : Core} {a : Addr} (h : k.Measured) (ha : k.priv.pfirst = some a)
    (hit : k.heap a = some it) : 0 ≤ it.length := by
  obtain ⟨l, hl, hlen⟩ := h
  cases l with
  | nil => exact nomatch (hl.chain.null_iff.mpr rfl).symm.trans ha
  | cons b l =>
    obtain rfl := some.inj (hl.first.symm.trans ha)
    exact hlen b (mem_cons_self ..) it hit

theorem looked_measured {f1 : File} (hq : f.sys.toCore.Measured) (hlook : f.looked e fd = .ok f1) :
    f1.sys.toCore.Measured := by
  rcases looked_cases hlook with ⟨-, rfl⟩ | ⟨-, rfl⟩
  · exact (timodUpdateSocket_links fd fun _ => rfl).measured hq
  · exact hq

theorem looked_first {f1 : File} (hq : ∃ l, f.sys.toCore.Holds l) (hmsg : f.first ≠ none)
    (hlook : f.looked e fd = .ok f1) : ∃ it, f1.first = some it := by
  obtain ⟨it, hfirst⟩ := ne_none_iff_exists'.mp hmsg
  obtain ⟨a, ha, -⟩ := File.first_eq_some hfirst
  have hqueue : f.sys.priv.pfirst ≠ none := by
    rw [ha]
    exact some_ne_none a
  obtain ⟨b, n, hb, hn⟩ := (looked_undisturbed hq hlook).first hqueue
  refine ⟨n, ?_⟩
  have hmagic : f1.magic = f.magic := by
    rcases looked_cases hlook with ⟨-, rfl⟩ | ⟨-, rfl⟩ <;> rfl
  unfold File.first at hfirst ⊢
  rw [hmagic]
  cases hm : f.magic with
  | none =>
    rw [hm] at hfirst
    exact nomatch hfirst
  | some m => exact bind_eq_some_iff.mpr ⟨b, hb, hn⟩

/-- On a socket `I_NREAD` tells how much comes. -/
theorem iNread_predicts {data : Word} {r : Int} {calls : List (Env × GetArgs)} {n : Nat}
    (hq : f.sys.toCore.Measured) (hmsg : f.first ≠ none) (hsock : f.inode.isSock)
    (hwrite : e.canWrite data 4 = true) (hnread : iNread e inq fd data f = .ok (r, g)) (hr : 0 ≤ r)
    (hcalls : fetched calls g.sys = some n) : g.sys.mem.word data = BitVec.ofNat 32 n := by
  rcases iNread_cases hnread with ⟨-, hg⟩ | ⟨hno, -⟩ | ⟨-, f1, hlook, hg⟩
  · obtain ⟨rfl, -⟩ := Prod.mk.inj hg
    exact nomatch hr
  · exact absurd hsock hno
  obtain ⟨it, hfirst⟩ := looked_first hq.holds hmsg hlook
  obtain ⟨a, ha, hit⟩ := File.first_eq_some hfirst
  unfold nreadQueue at hg
  rw [hfirst] at hg
  obtain ⟨-, rfl⟩ := Prod.mk.inj hg
  have hmem := putUser_onlyMem e data (BitVec.ofInt 32 it.length) f1.sys
  have hlen : 0 ≤ it.length := (looked_measured hq hlook).first ha hit
  have hn := fetched_eq (hmem.toCore ▸ ha) (hmem.toCore ▸ hit) hlen hcalls
  unfold putUser
  rw [if_pos hwrite, Mem.word_store_bytes, ← hn, BitVec.ofInt_natCast]

/-- An endpoint with a queue: its inode is a socket by its mode, or as
`inherit_socksys_funcs` leaves it. -/
def Inode.isEndpoint (ip : Inode) : Prop := ip.isSock ∨ ip.isSocksys ∧ ip.rdev.minor = 0

section Commands

variable {e : StreamEnv} {data : Word} {r : Int} {k k' : Kernel}

theorem streamCommand_nread (h : streamCommand e fd 1 data f k = .ok (r, k')) :
    ∃ g, iNread e.call e.inq fd data f = .ok (r, g) ∧ k' = k.setFile fd g := by
  unfold streamCommand at h
  rw [if_pos rfl] at h
  obtain ⟨⟨r', g⟩, hnread, hg⟩ := map_eq_ok h
  obtain ⟨rfl, rfl⟩ := Prod.mk.inj hg
  exact ⟨g, hnread, rfl⟩

theorem streamCommand_peek (h : streamCommand e fd 15 data f k = .ok (r, k')) :
    ∃ g, iPeek e.call fd data f = .ok (r, g) ∧ k' = k.setFile fd g := by
  unfold streamCommand at h
  rw [if_neg (by decide), if_pos rfl] at h
  obtain ⟨⟨r', g⟩, hpeek, hg⟩ := map_eq_ok h
  obtain ⟨rfl, rfl⟩ := Prod.mk.inj hg
  exact ⟨g, hpeek, rfl⟩

end Commands

theorem svr4StreamIoctl_sock {k : Kernel} (hfile : k.fget fd = some f) (hsock : f.inode.isSock)
    (e : StreamEnv) (cmd data : Word) :
    svr4StreamIoctl e fd cmd data k = streamCommand e fd cmd data f k := by
  unfold svr4StreamIoctl
  rw [hfile]
  exact if_neg fun h => h.1 hsock

/-- A call for any other endpoint is turned down by `socksys_fdinit`. -/
theorem svr4StreamIoctl_refused {k : Kernel} (hfile : k.fget fd = some f)
    (hend : f.inode.isEndpoint) (hno : ¬ f.inode.isSock) (e : StreamEnv) (cmd data : Word) :
    svr4StreamIoctl e fd cmd data k = .ok (-EINVAL, k) := by
  obtain ⟨hsocksys, hminor⟩ := hend.resolve_left hno
  have hinit : socksysFdinit e.init fd k = (-EINVAL, k) := by
    unfold socksysFdinit
    rw [hfile]
    exact if_pos hminor
  unfold svr4StreamIoctl
  rw [hfile]
  dsimp only
  rw [if_pos ⟨hno, hsocksys⟩, hinit]
  exact if_pos (show -EINVAL < 0 by decide)

end Predict

end AbiEmu.Xti
