import AbiEmu.Xti.QueueInv
import AbiEmu.Xti.Socksys

/-!
# Is an endpoint recognised?

`Consumer.Accepts` says for each party that looks at a descriptor what it means
to take it for a transport endpoint: the system calls hand it on, the ioctls do
not initialise it again, `poll`, `I_NREAD` and `I_PEEK` see the first message of
the queue, closing it gives back the messages, the private block and the socket,
and a missing private block is an error and not a null pointer that is read.
`Kernel.Recognised` asks this of all of them for as long as the descriptor is
open: whatever has become of the queue and of the permission bits.

Everything but the last hangs on one bit pattern, the file type in the inode.
`recognised_iff` makes that precise: a file is recognised exactly if it is a
socket by its mode, not the SPX device, has its private block and the exchanged
operations. The set-up writes the type of a character device, so no descriptor
it has processed is ever recognised (`never_recognised`).
-/

namespace AbiEmu.Xti

/-! ## What is expected -/

/-- Who looks at a descriptor; `missing` is the test for the private block. -/
inductive Consumer where
  | getmsg | putmsg | streamIoctl | poll | nread | peek | release | missing
  deriving DecidableEq, Repr

/-- What `I_NREAD` finds is the length of the first message. -/
def File.NreadSees (f : File) (fd : Word) : Prop :=
  ∀ e inq data f1 it, e.verify true data 4 = true → f.looked e fd = .ok f1 → f1.first = some it →
    iNread e inq fd data f =
      .ok (1, { f1 with sys := putUser e data (BitVec.ofInt 32 it.length) f1.sys })

/-- `I_PEEK` looks at the queue. -/
def File.PeekSees (f : File) (fd : Word) : Prop :=
  ∀ e uap f1, e.canRead uap 28 = true → f.looked e fd = .ok f1 →
    iPeek e fd uap f = .ok (peekQueue e uap f.sys f1)

/-- The private block, if there is one, is given back behind the messages. -/
def File.blocks (f : File) : List Given := if f.magic.isSome then [.block] else []

/-- Closing the file gives back the messages `l` of its queue, the private block
and the socket. -/
def File.ReleaseGives (f : File) : Prop :=
  ∀ ret l n, (f.magic.isSome = true → f.sys.Holds l) → (f.magic = none → l = []) →
    l.length ≤ n → f.release ret n = .ok (ret, l.map .message ++ (f.blocks ++ [.socket]))

/-- The consumer takes the descriptor `fd` for a transport endpoint. -/
def Consumer.Accepts (c : Consumer) (fd : Word) (k : Kernel) (f : File) : Prop :=
  match c with
  | getmsg => ∀ timod, svr4Getmsg timod fd k = timod fd k
  | putmsg => ∀ timod, svr4Putmsg timod fd k = timod fd k
  | streamIoctl => ∀ e cmd data, svr4StreamIoctl e fd cmd data k = streamCommand e fd cmd data f k
  | poll => ∀ mask it, f.first = some it → f.poll mask &&& it.event = it.event
  | nread => f.NreadSees fd
  | peek => f.PeekSees fd
  | release => f.ReleaseGives
  | missing => f.magic = none → (∀ e c, f.getmsg e c = .ok ⟨-EINVAL, c.flags, f.sys⟩) ∧
      ∀ e c, f.putmsg e c = .ok (-EINVAL, f.sys)

/-- What is left of the file `f` as long as it is open: the type of its inode, the
device number, the private pointer and the operations. -/
structure File.Later (f g : File) : Prop where
  type : g.inode.mode &&& S_IFMT = f.inode.mode &&& S_IFMT
  rdev : g.inode.rdev = f.inode.rdev
  magic : g.magic = f.magic
  fop : g.fop = f.fop

/-- The consumer takes the descriptor for an endpoint as long as it is open. -/
def Consumer.Recognises (c : Consumer) (fd : Word) (f : File) : Prop :=
  ∀ k g, f.Later g → k.fget fd = some g → c.Accepts fd k g

/-- All consumers do. -/
def Kernel.Recognised (k : Kernel) (fd : Word) : Prop :=
  ∀ f, k.fget fd = some f → ∀ c : Consumer, c.Recognises fd f

/-! ## Files to tell the consumers apart -/

/-- A kernel in which every descriptor has the file `g`. -/
def holding (g : File) : Kernel := ⟨fun _ => some 0, fun _ => g⟩

/-- An endpoint with an empty queue. -/
def idleSys : Sys := endpoint .unbnd []

/-- An endpoint with an empty message of normal priority in its queue. -/
def waitingSys : Sys :=
  { endpoint .unbnd [] with
    priv := ⟨.unbnd, 0, some 1, some 1⟩
    heap := fun _ => some (freeBlock 1).junk }

theorem File.Later.refl (f : File) : f.Later f := ⟨rfl, rfl, rfl, rfl⟩

/-- Another queue behind the file. -/
theorem File.Later.queue (f : File) (s : Sys) : f.Later { f with sys := s } := ⟨rfl, rfl, rfl, rfl⟩

theorem File.Later.isSock {f g : File} (h : f.Later g) : g.inode.isSock ↔ f.inode.isSock := by
  unfold Inode.isSock
  rw [h.type]

variable {c : Consumer}

/-- To recognise a file is to accept it with any queue. -/
theorem Consumer.Recognises.accepts {fd : Word} {f : File} (h : c.Recognises fd f) (s : Sys) :
    c.Accepts fd (holding { f with sys := s }) { f with sys := s } :=
  h _ _ (.queue f s) rfl

/-! ## The system calls and the ioctls -/

section Calls

variable {fd : Word} {f : File}

/-- A call is handed on exactly if the inode is accepted. -/
theorem handOn_iff (accepted : Inode → Prop) [DecidablePred accepted]
    (hstays : ∀ g, f.Later g → (accepted g.inode ↔ accepted f.inode)) :
    (∀ k g, f.Later g → k.fget fd = some g → ∀ timod, handOn accepted timod fd k = timod fd k) ↔
      accepted f.inode := by
  constructor
  · intro h
    by_contra hno
    have hone := h (holding f) f (.refl f) rfl fun _ k => .ok (1, k)
    have hbad : handOn accepted (fun _ k => .ok (1, k)) fd (holding f) =
        .ok (-EBADF, holding f) := if_neg hno
    have hret := congrArg Prod.fst (Except.ok.inj (hbad.symm.trans hone))
    exact absurd hret (show ¬ -EBADF = 1 by decide)
  · intro hyes k g hg hk timod
    unfold handOn
    rw [hk]
    exact if_pos ((hstays g hg).mpr hyes)

theorem getmsg_recognises_iff : Consumer.getmsg.Recognises fd f ↔ f.inode.isSock :=
  handOn_iff (fun ip => ip.isSock) fun _ hg => hg.isSock

theorem putmsg_recognises_iff :
    Consumer.putmsg.Recognises fd f ↔ f.inode.isSock ∨ f.inode.rdev.isSpx := by
  refine handOn_iff (fun ip => ip.isSock ∨ ip.rdev.isSpx) fun g hg => ?_
  rw [hg.isSock, hg.rdev]

/-- System calls that all fail. -/
def refusing : SocketEnv := ⟨-1, fun _ _ _ k => (-1, k), 0, true⟩

theorem fdinit_refused (fd : Word) {k : Kernel} (hk : k.fget fd = some f) :
    (socksysFdinit refusing fd k).1 < 0 := by
  have hneg : (-1 : Int) < 0 := by decide
  have hspx : spxConnect refusing k = (-1, k) := rfl
  have hxti : xtiConnect refusing f.inode.rdev k = (-1, k) := by
    unfold xtiConnect
    dsimp only
    split
    · rfl
    · split <;> rfl
  unfold socksysFdinit
  rw [hk]
  dsimp only
  rw [hspx, hxti, ite_self]
  split
  · exact show -EINVAL < 0 by decide
  · exact hneg

theorem streamIoctl_recognises_iff :
    Consumer.streamIoctl.Recognises fd f ↔ f.inode.isSock ∨ ¬ f.inode.isSocksys := by
  constructor
  · intro h
    have hone := h.accepts f.sys ⟨refusing, plainEnv, ⟨0, id⟩, fun _ _ _ k => .ok (1, k)⟩ 0 0
    by_contra hsock
    obtain ⟨hnot, hsys⟩ := not_or.mp hsock
    have hfail := fdinit_refused fd (k := holding f) rfl
    have hinit : svr4StreamIoctl ⟨refusing, plainEnv, ⟨0, id⟩, fun _ _ _ k => .ok (1, k)⟩ fd 0 0
        (holding f) = .ok (socksysFdinit refusing fd (holding f)) := by
      show (if ¬ f.inode.isSock ∧ f.inode.isSocksys then _ else _) = _
      rw [if_pos ⟨hnot, not_not.mp hsys⟩, if_pos hfail]
    have hret := congrArg Prod.fst (Except.ok.inj (hinit.symm.trans hone))
    rw [hret] at hfail
    exact absurd hfail (show ¬ (1 : Int) < 0 by decide)
  · intro hsock k g hg hk e cmd data
    unfold svr4StreamIoctl
    rw [hk]
    refine if_neg ?_
    rw [hg.isSock, Inode.isSocksys, hg.rdev]
    exact fun hboth => hsock.elim hboth.1 fun hnot => hnot hboth.2

end Calls

/-! ## The queue -/

section Queue

variable {fd : Word} {f : File}

/-- Without a private block there is no message. -/
theorem File.first_of_null (h : f.magic = none) : f.first = none := by
  unfold File.first
  rw [h]

/-- With one, the waiting endpoint has its message first. -/
theorem first_waiting (h : f.magic ≠ none) :
    File.first { f with sys := waitingSys } = some (freeBlock 1).junk := by
  obtain ⟨m, hm⟩ := Option.ne_none_iff_exists'.mp h
  unfold File.first
  rw [hm]
  rfl

theorem or_and_self (x y : Word) : (x ||| y) &&& x = x := by
  ext i hi
  rw [BitVec.getElem_and, BitVec.getElem_or]
  cases x[i] with
  | false => exact Bool.and_false _
  | true => rw [Bool.true_or, Bool.and_self]

theorem poll_recognises_iff (hfop : f.fop = .socksysSocket) : Consumer.poll.Recognises fd f ↔
    f.magic = none ∨ (f.inode.isSock ∧ f.inode.rdev.minor ≠ 1) := by
  constructor
  · intro h
    by_contra hno
    obtain ⟨hmagic, hsock⟩ := not_or.mp hno
    have hseen := h.accepts waitingSys 0 _ (first_waiting hmagic)
    have hpoll : File.poll 0 { f with sys := waitingSys } = 0 := by
      rw [hfop]
      exact if_neg hsock
    rw [hpoll] at hseen
    exact nomatch hseen
  · rintro hor k g hg hk mask it hit
    have hmagic : f.magic ≠ none := by
      intro hnull
      rw [File.first_of_null (hg.magic.trans hnull)] at hit
      exact nomatch hit
    obtain ⟨hsock, hminor⟩ := hor.resolve_left hmagic
    have hpoll : g.poll mask = it.event ||| mask := by
      unfold File.poll
      rw [hg.fop, hfop]
      unfold socksysPoll
      rw [if_pos ⟨hg.isSock.mpr hsock, hg.rdev ▸ hminor⟩, hit]
    rw [hpoll]
    exact or_and_self ..

/-- Without a private block the look for a connection changes nothing, if it comes
back. -/
theorem looked_of_null {e : Env} {f1 : File} (h : f.magic = none) (hlook : f.looked e fd = .ok f1) :
    f1 = f := by
  unfold File.looked File.updateSocket at hlook
  rw [h] at hlook
  split_ifs at hlook <;> exact (Except.ok.inj hlook).symm

/-- On the waiting endpoint there is no connection to look for. -/
theorem looked_waiting : File.looked plainEnv fd { f with sys := waitingSys } =
    .ok { f with sys := waitingSys } := by
  unfold File.looked File.updateSocket
  cases f.magic with
  | none | some m =>
    split <;> rfl

theorem nread_recognises_iff :
    Consumer.nread.Recognises fd f ↔ f.magic = none ∨ f.inode.isSock := by
  constructor
  · intro h
    by_contra hno
    obtain ⟨hmagic, hsock⟩ := not_or.mp hno
    have hseen := h.accepts waitingSys plainEnv ⟨-EBADF, id⟩ 0 _ _ rfl looked_waiting
      (first_waiting hmagic)
    have hasked : iNread plainEnv ⟨-EBADF, id⟩ fd 0 { f with sys := waitingSys } =
        .ok (-EBADF, { f with sys := waitingSys }) := if_neg hsock
    have hret := congrArg Prod.fst (Except.ok.inj (hasked.symm.trans hseen))
    exact absurd hret (show ¬ -EBADF = 1 by decide)
  · rintro hor k g hg hk e inq data f1 it hv hlook hit
    have hmagic : f.magic ≠ none := by
      intro hnull
      have hnull' := hg.magic.trans hnull
      obtain rfl := looked_of_null hnull' hlook
      rw [File.first_of_null hnull'] at hit
      exact nomatch hit
    unfold iNread
    rw [if_neg (not_not.mpr hv), if_pos (hg.isSock.mpr (hor.resolve_left hmagic)), hlook]
    dsimp only
    rw [hit]

theorem peek_recognises_iff : Consumer.peek.Recognises fd f ↔ f.magic = none ∨ f.inode.isSock := by
  constructor
  · intro h
    by_contra hno
    obtain ⟨hmagic, hsock⟩ := not_or.mp hno
    have hseen := h.accepts waitingSys plainEnv 0 _ rfl looked_waiting
    have hnone : iPeek plainEnv fd 0 { f with sys := waitingSys } =
        .ok (0, { f with sys := waitingSys }) := if_pos hsock
    have hone : (peekQueue plainEnv 0 waitingSys { f with sys := waitingSys }).1 = 1 := by
      unfold peekQueue
      rw [first_waiting hmagic]
      rfl
    have hret := congrArg Prod.fst (Except.ok.inj (hnone.symm.trans hseen))
    exact absurd (hret.trans hone) Int.zero_ne_one
  · rintro hor k g hg hk e uap f1 hread hlook
    unfold iPeek
    rw [if_neg (not_not.mpr hread)]
    by_cases hsock : g.inode.isSock
    · rw [if_neg (not_not.mpr hsock), hlook]
    · have hnull : g.magic = none :=
        hg.magic.trans (hor.resolve_right fun h => hsock (hg.isSock.mpr h))
      obtain rfl := looked_of_null hnull hlook
      rw [if_pos hsock, peekQueue, File.first_of_null hnull]

/-! ## Closing, and the missing block -/

theorem release_recognises_iff (hfop : f.fop = .socksysSocket) :
    Consumer.release.Recognises fd f ↔ f.inode.isSock := by
  constructor
  · intro h
    by_contra hsock
    have hgiven := h.accepts idleSys 0 [] 0 (fun _ => Queue.empty) (fun _ => rfl) (le_refl 0)
    have hnone : File.release 0 0 { f with sys := idleSys } = .ok (0, []) := by
      rw [hfop]
      exact if_pos hsock
    have hacts := congrArg Prod.snd (Except.ok.inj (hnone.symm.trans hgiven))
    have hsocket := (List.append_eq_nil_iff.mp (List.append_eq_nil_iff.mp hacts.symm).2).2
    exact nomatch hsocket
  · intro hsock k g hg hk ret l n hholds hnull hn
    unfold File.release File.blocks
    rw [hg.fop, hfop]
    unfold socksysRelease
    rw [if_neg (not_not.mpr (hg.isSock.mpr hsock))]
    cases hm : g.magic with
    | none =>
      rw [hnull hm]
      rfl
    | some m =>
      rw [hm] at hholds
      have hfree := (hholds rfl).chain.freeAll_eq hn
      rw [hfree]
      rfl

theorem missing_recognises_iff : Consumer.missing.Recognises fd f ↔ f.magic ≠ none := by
  constructor
  · intro h hnull
    obtain ⟨hget, -⟩ := h (holding f) f (.refl f) rfl hnull
    have hread := hget plainEnv (getAt 0)
    have hfault : f.getmsg plainEnv (getAt 0) = .error .null := by
      unfold File.getmsg File.notStreams File.readMagic
      rw [hnull]
      rfl
    exact nomatch hfault.symm.trans hread
  · intro hmagic k g hg hk hnull
    exact absurd (hg.magic.symm.trans hnull) hmagic

end Queue

/-! ## The set-up -/

section SetUp

variable {fd : Word} {f : File}

/-- All consumers recognise a file exactly if it is a socket by its mode, is not
the SPX device and has its private block. -/
theorem recognised_iff (hfop : f.fop = .socksysSocket) :
    (∀ c : Consumer, c.Recognises fd f) ↔
      f.inode.isSock ∧ f.inode.rdev.minor ≠ 1 ∧ f.magic ≠ none := by
  constructor
  · intro h
    have hmagic := missing_recognises_iff.mp (h .missing)
    obtain ⟨hsock, hminor⟩ := ((poll_recognises_iff hfop).mp (h .poll)).resolve_left hmagic
    exact ⟨hsock, hminor, hmagic⟩
  · rintro ⟨hsock, hminor, hmagic⟩ c
    cases c with
    | getmsg => exact getmsg_recognises_iff.mpr hsock
    | putmsg => exact putmsg_recognises_iff.mpr (.inl hsock)
    | streamIoctl => exact streamIoctl_recognises_iff.mpr (.inl hsock)
    | poll => exact (poll_recognises_iff hfop).mpr (.inr ⟨hsock, hminor⟩)
    | nread => exact nread_recognises_iff.mpr (.inr hsock)
    | peek => exact peek_recognises_iff.mpr (.inr hsock)
    | release => exact (release_recognises_iff hfop).mpr hsock
    | missing => exact missing_recognises_iff.mpr hmagic

/-- A file that was set up is a character device. -/
theorem inherit_not_sock (alloc : Bool) (state : TState) (f : File) :
    ¬ (f.inherit alloc state).inode.isSock := by
  show ¬ S_IFCHR &&& S_IFMT = S_IFSOCK
  decide

/-- Who has something to recognise: the queue belongs to the private block, and
the test is for a missing one. -/
def Consumer.Concerned (c : Consumer) (alloc : Bool) : Prop :=
  match c with
  | poll | nread | peek => alloc = true
  | missing => alloc = false
  | _ => True

/-- None of them recognises a file that was set up. -/
theorem inherit_unrecognised {alloc : Bool} (state : TState) (hc : c.Concerned alloc) :
    ¬ c.Recognises fd (f.inherit alloc state) := by
  have hsock := inherit_not_sock alloc state f
  have hblock : alloc = true → (f.inherit alloc state).magic ≠ none := by
    rintro rfl
    exact Option.some_ne_none XTI_MAGIC
  cases c with
  | getmsg => exact fun h => hsock (getmsg_recognises_iff.mp h)
  | putmsg =>
    intro h
    refine (putmsg_recognises_iff.mp h).elim hsock fun hspx => ?_
    exact absurd hspx.2 Nat.zero_ne_one
  | streamIoctl => exact fun h => (streamIoctl_recognises_iff.mp h).elim hsock fun hno => hno rfl
  | poll => exact fun h => ((poll_recognises_iff rfl).mp h).elim (hblock hc) fun hs => hsock hs.1
  | nread => exact fun h => (nread_recognises_iff.mp h).elim (hblock hc) hsock
  | peek => exact fun h => (peek_recognises_iff.mp h).elim (hblock hc) hsock
  | release => exact fun h => hsock ((release_recognises_iff rfl).mp h)
  | missing =>
    intro h
    obtain rfl : alloc = false := hc
    exact missing_recognises_iff.mp h rfl

end SetUp

/-- No descriptor that `inherit_socksys_funcs` has processed is recognised, and no
consumer that is concerned recognises it. -/
theorem never_recognised {k : Kernel} {fd : Word} {f : File} (hf : k.fget fd = some f)
    (alloc : Bool) (state : TState) :
    ¬ (inheritSocksysFuncs alloc fd state k).Recognised fd ∧
      ∀ c : Consumer, c.Concerned alloc → ¬ c.Recognises fd (f.inherit alloc state) := by
  refine ⟨fun h => ?_, fun c hc => inherit_unrecognised state hc⟩
  exact inherit_unrecognised (c := .getmsg) state trivial
    (h _ (fget_inherit hf alloc state) .getmsg)

/-- A socket as `sys_socket` returns it. -/
def newSocket : File := ⟨⟨0xc1ff, ⟨0, 0⟩⟩, .socket, some false, none, idleSys⟩

/-- A socket was a socket before the set-up, and is none for anybody afterwards. -/
theorem newSocket_unrecognised :
    newSocket.inode.isSock ∧
      ¬ (inheritSocksysFuncs true 3 .unbnd (holding newSocket)).Recognised 3 :=
  ⟨by decide, (never_recognised rfl true .unbnd).1⟩

/-- A new endpoint: `getmsg` does not know the descriptor, `I_NREAD` tries to
initialise it again and fails, and closing it gives nothing back, not even the
socket. -/
theorem new_endpoint_refused :
    ∃ k f, inheritSocksysFuncs true 3 .unbnd (holding newSocket) = k ∧ k.fget 3 = some f ∧
      svr4Getmsg (fun _ k => .ok (0, k)) 3 k = .ok (-EBADF, k) ∧
      svr4StreamIoctl ⟨refusing, plainEnv, ⟨0, id⟩, fun _ _ _ k => .ok (0, k)⟩ 3 1 0 k =
        .ok (-EINVAL, k) ∧
      f.release 0 1 = .ok (0, []) ∧ ¬ k.Recognised 3 := by
  refine ⟨_, _, rfl, rfl, rfl, rfl, rfl, fun h => ?_⟩
  exact inherit_not_sock true .unbnd newSocket (getmsg_recognises_iff.mp (h _ rfl .getmsg))

end AbiEmu.Xti
