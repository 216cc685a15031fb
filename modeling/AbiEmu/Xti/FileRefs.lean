import AbiEmu.Xti.Calls
import AbiEmu.Xti.FileCalls
import AbiEmu.Xti.Recognised

/-!
# Are file references balanced?

Every function of `FileCalls` should give back the references it took, whatever it is asked
and however the calls it makes answer, and look at no file it has given back.

`svr4_stream_ioctl` and `svr4_sockmod_ioctl` return without `fput` when the initialisation
of the device fails, and that is the only leak: `file_references` counts for all calls,
with everything an `I_STR` leads to. No function looks at a file it has given back. There
is one that lets another function look: `I_FDINSERT` is handled behind the `fput` of
`svr4_stream_ioctl`, and `do_putmsg` trusts that its caller holds the file.
-/

namespace AbiEmu.Xti

open Traced List

/-! ## What is owned -/

section Steps

variable {lax : Bool} {own : Multiset Nat} {k : Kernel} {i : Nat} {fd : Word}

@[simp] theorem pays_lookT {Q : File → Kernel → Multiset Nat → Prop} :
    Pays lax (lookT i) (i ::ₘ own) k Q ↔ Q (k.files i) k (i ::ₘ own) := by
  unfold lookT
  rw [pays_bind, pays_used, pays_bind, pays_get, pays_pure]

variable {Q : Unit → Kernel → Multiset Nat → Prop}

@[simp] theorem pays_fputT : Pays lax (fputT i) (i ::ₘ own) k Q ↔ Q () k own :=
  pays_gave i

@[simp] theorem pays_storeT (f : File) : Pays lax (storeT i f) own k Q ↔ Q () (k.store i f) own :=
  pays_modify _

@[simp] theorem pays_userT {Q : Sys → Kernel → Multiset Nat → Prop} :
    Pays lax (userT i) own k Q ↔ Q (k.files i).sys k own :=
  pays_quiet rfl

@[simp] theorem pays_callT (call : Kernel → Int × Kernel) {Q : Int → Kernel → Multiset Nat → Prop} :
    Pays lax (callT call) own k Q ↔ Q (call k).1 (call k).2 own :=
  pays_quiet rfl

theorem pays_fgetT {Q : Option Nat → Kernel → Multiset Nat → Prop} :
    Pays lax (fgetT fd) own k Q ↔
      match k.fds fd with
      | none => Q none k own
      | some i => Q (some i) k (i ::ₘ own) := by
  unfold fgetT
  rw [pays_bind, pays_get]
  cases k.fds fd with
  | none | some i => simp

end Steps

/-- A program that returns owns `own` then. -/
def Returns (own : Multiset Nat) (r : Except Fault Int) (_ : Kernel) (own' : Multiset Nat) : Prop :=
  ∀ v, r = .ok v → own' = own

variable {own' : Multiset Nat} {p : Counting (Except Fault Int)}

section Functions

variable {lax : Bool} {own : Multiset Nat} {k : Kernel} {i : Nat}

@[simp] theorem returns_ok (v : Int) : Returns own (.ok v) k own' ↔ own' = own :=
  ⟨fun h => h v rfl, fun h _ _ => h⟩

@[simp] theorem returns_error (fault : Fault) : Returns own (.error fault) k own' ↔ True :=
  iff_true_intro nofun

theorem askSocketT_pays (e : Env) (data : Word) (inq : SockAnswer) :
    Pays lax (askSocketT e data inq i) own k (Returns own) := by
  unfold askSocketT
  simp

/-- `i_nread` gives the file back. -/
theorem iNreadT_pays (e : Env) (fd data : Word) (inq : SockAnswer) :
    Pays lax (iNreadT e fd data inq i) (i ::ₘ own) k (Returns own) := by
  unfold iNreadT
  split
  · simp
  · rw [pays_bind, pays_lookT]
    split
    · split
      · simp
      next f1 _ =>
        rw [pays_bind, pays_storeT, pays_bind, pays_lookT]
        split
        · simp
        · rw [pays_bind, pays_fputT]
          exact askSocketT_pays ..
    · rw [pays_bind, pays_fputT]
      exact askSocketT_pays ..

/-- So does `i_peek`. -/
theorem iPeekT_pays (e : Env) (fd data : Word) :
    Pays lax (iPeekT e fd data i) (i ::ₘ own) k (Returns own) := by
  unfold iPeekT
  rw [pays_bind, pays_lookT]
  split
  · simp
  · split
    · simp
    · split
      · simp
      next f1 _ =>
        rw [pays_bind, pays_storeT, pays_bind, pays_lookT]
        split <;> simp

/-- `do_putmsg` looks at the file of its caller. -/
theorem putmsgT_pays (e : Env) (c : PutArgs) :
    Pays lax (putmsgT e c i) (i ::ₘ own) k fun _ _ own' => own' = i ::ₘ own := by
  unfold putmsgT
  rw [pays_bind, pays_lent, pays_bind, pays_get]
  dsimp only
  split <;> simp

theorem ioctlGetmsgT_pays (b : Behind) (e : Env) (other : SockAnswer) (c : GetArgs) :
    Pays lax (ioctlGetmsgT b e other c i) (i ::ₘ own) k fun _ _ own' => own' = i ::ₘ own := by
  unfold ioctlGetmsgT
  rw [pays_bind, pays_get]
  cases b with
  | same =>
    rw [pays_bind, pays_lent]
    split <;> simp
  | other | closed => simp

/-- The rule for going on. -/
theorem pays_tryT {own1 own2 : Multiset Nat}
    {f : Int → Counting (Except Fault Int)} (hp : Pays lax p own k fun _ _ own' => own' = own1)
    (hf : ∀ v k', Pays lax (f v) own1 k' (Returns own2)) :
    Pays lax (tryT p f) own k (Returns own2) := by
  unfold tryT
  rw [pays_bind]
  refine hp.mono ?_
  rintro r k' own' rfl
  cases r with
  | error fault => simp
  | ok v => exact hf v k'

section

variable (e : IoctlEnv) (c : IoctlArgs)

include e c

theorem tiGetinfoT_pays : Pays lax (tiGetinfoT e c i) (i ::ₘ own) k (Returns own) := by
  unfold tiGetinfoT
  rw [pays_bind, pays_userT]
  dsimp only
  split
  · simp
  · split
    · simp
    · rw [pays_bind, pays_lookT]
      split
      · simp
      · split <;> simp

theorem tiBindGetT_pays (b : Behind) :
    Pays lax (tiBindGetT e c i b) (i ::ₘ own) k (Returns own) := by
  refine pays_tryT (ioctlGetmsgT_pays ..) fun ret k1 => ?_
  rw [pays_bind, pays_userT]
  dsimp only
  split
  · simp
  · split
    · simp
    · split
      · simp
      · refine pays_tryT (ioctlGetmsgT_pays ..) fun ret k2 => ?_
        simp

theorem tiOptmgmtGetT_pays (b : Behind) :
    Pays lax (tiOptmgmtGetT e c i b) (i ::ₘ own) k (Returns own) := by
  refine pays_tryT (ioctlGetmsgT_pays ..) fun ret k1 => ?_
  split
  · rw [pays_bind, pays_lookT]
    split <;> simp
  · simp

theorem tiRequestT_pays {rest : Behind → Counting (Except Fault Int)}
    (hrest : ∀ b k', Pays lax (rest b) (i ::ₘ own) k' (Returns own)) :
    Pays lax (tiRequestT e c i rest) (i ::ₘ own) k (Returns own) := by
  refine pays_tryT (putmsgT_pays ..) fun error k1 => ?_
  split
  · simp
  · exact hrest _ k1

end

theorem tiUnbindT_pays : Pays lax (tiUnbindT i) (i ::ₘ own) k (Returns own) := by
  unfold tiUnbindT
  rw [pays_bind, pays_lookT]
  split
  · simp
  · split <;> simp

/-- `timod_ioctl` gives back what it took. -/
theorem timodIoctlT_pays (e : IoctlEnv) (c : IoctlArgs) :
    Pays lax (timodIoctlT e c) own k (Returns own) := by
  unfold timodIoctlT
  rw [pays_bind, pays_fgetT]
  split
  · simp
  next i _ =>
    dsimp only
    split
    · simp
    · rw [pays_bind, pays_lookT]
      split_ifs
      · exact tiGetinfoT_pays e c
      · exact tiRequestT_pays e c fun b k1 => tiOptmgmtGetT_pays e c b
      · exact tiRequestT_pays e c fun b k1 => tiBindGetT_pays e c b
      · exact tiUnbindT_pays
      · simp

theorem inheritSocksysFuncsT_pays (alloc : Bool) (fd : Word) (state : TState) :
    Pays lax (inheritSocksysFuncsT alloc fd state) own k fun _ k' own' =>
      own' = own ∧ k' = inheritSocksysFuncs alloc fd state k := by
  unfold inheritSocksysFuncsT
  rw [pays_bind, pays_fgetT]
  split
  next hfd => simp [inheritSocksysFuncs, Kernel.fget, hfd]
  next i hfd => simp [inheritSocksysFuncs, Kernel.fget, Kernel.setFile, Kernel.store, hfd]

/-- The socket calls for the device fail. -/
def NoSocket (e : SocketEnv) (dev : Rdev) (k : Kernel) : Prop :=
  if dev.minor = 1 then (e.readlink < 0 ∧ e.readlink ≠ -ENOENT) ∨
    (e.socket AF_UNIX SOCK_STREAM 0 k).1 < 0 ∨ e.connect < 0
  else
    let family := dev.minor / 16 % 16
    if family = AF_UNIX then (e.socket family SOCK_STREAM 0 k).1 < 0
    else if family = AF_INET.toNat then (e.socket family (inetType.getD (dev.minor % 16) 0)
      (inetProt.getD (dev.minor % 16) 0) k).1 < 0
    else (e.socket family SOCK_RAW 0 k).1 < 0

theorem connection_neg_iff (e : SocketEnv) (dev : Rdev) (k : Kernel) :
    (connection e dev k).1 < 0 ↔ NoSocket e dev k := by
  unfold connection NoSocket spxConnect xtiConnect
  dsimp only
  split_ifs with hminor hlink hsocket hconnect
  · exact iff_of_true hlink.1 (.inl hlink)
  · exact iff_of_true hsocket (.inr (.inl hsocket))
  · exact ⟨fun h => .inr (.inr h), fun h => (h.resolve_left hlink).resolve_left hsocket⟩
  · refine iff_of_false hsocket ?_
    rintro (h | h | h)
    · exact hlink h
    · exact hsocket h
    · exact absurd h (by omega)
  all_goals rfl

/-- The descriptors when the socket has taken the place of the device. -/
def Kernel.exchanged (e : SocketEnv) (d : FdCalls) (fd : Word) (dev : Rdev) (k : Kernel) : Kernel :=
  let r := connection e dev k
  let sockfd := BitVec.ofInt 32 r.1
  d.close sockfd (d.dup2 sockfd fd (inheritSocksysFuncs e.alloc sockfd .unbnd r.2))

/-- `socksys_fdinit` gives back what it took. It fails for the device itself, and without a
socket. -/
theorem socksysFdinitT_pays (e : SocketEnv) (d : FdCalls) (fd : Word) :
    Pays lax (socksysFdinitT e d fd) own k fun v k' own' => own' = own ∧
      ∀ i, k.fds fd = some i → let dev := (k.files i).inode.rdev
        (v < 0 ↔ dev.minor = 0 ∨ NoSocket e dev k) ∧ (¬ v < 0 → k' = k.exchanged e d fd dev) := by
  unfold socksysFdinitT
  rw [pays_bind, pays_fgetT]
  split
  next hfd => simp [hfd]
  next i hfd =>
    simp only [hfd, Option.some.injEq, forall_eq', ← connection_neg_iff]
    rw [pays_bind, pays_lookT]
    split
    next hminor =>
      have hneg : -EINVAL < 0 := by decide
      rw [pays_bind, pays_fputT, pays_pure]
      exact ⟨rfl, iff_of_true hneg (.inl hminor), fun h => absurd hneg h⟩
    next hminor =>
      rw [pays_bind, pays_fputT, pays_bind, pays_callT]
      split
      next hneg => simp [hneg]
      next hneg =>
        rw [pays_bind]
        refine (inheritSocksysFuncsT_pays ..).mono ?_
        rintro _ k1 own' ⟨rfl, rfl⟩
        simp [hminor, hneg, Kernel.exchanged]

end Functions

/-! ## The leak -/

/-- The descriptor is one of the device, and cannot be initialised: it is that of the device
itself, or there is no socket for it. -/
def InitFails (m : Initialises) (e : RefEnv) (fd : Word) (k : Kernel) : Prop :=
  ∃ i, k.fds fd = some i ∧ m.needs (k.files i).inode = true ∧
    ((k.files i).inode.rdev.minor = 0 ∨ NoSocket e.init (k.files i).inode.rdev k)

/-- The descriptor is open, and still is when a socket has taken its place. -/
def StaysOpen (m : Initialises) (e : RefEnv) (fd : Word) (k : Kernel) : Prop :=
  ¬ InitFails m e fd k ∧ ∃ i, k.fds fd = some i ∧ (m.needs (k.files i).inode = true →
    (k.exchanged e.init e.fds fd (k.files i).inode.rdev).fds fd ≠ none)

/-- The ways through the first half of the two ioctls. -/
inductive Initialised (m : Initialises) (e : RefEnv) (fd : Word) (k : Kernel) (own : Multiset Nat) :
    Except Int Nat → Kernel → Multiset Nat → Prop
  | ready {k' : Kernel} {j : Nat} (hready : StaysOpen m e fd k) (hfd : k'.fds fd = some j) :
      Initialised m e fd k own (.ok j) k' (j ::ₘ own)
  | refused {k' : Kernel} {v : Int} (hno : ¬ InitFails m e fd k) (hnot : ¬ StaysOpen m e fd k) :
      Initialised m e fd k own (.error v) k' own
  | leaked {k' : Kernel} {v : Int} {i : Nat} (hfails : InitFails m e fd k) :
      Initialised m e fd k own (.error v) k' (i ::ₘ own)

section Ioctls

variable {lax : Bool} {own : Multiset Nat} {k : Kernel} {i : Nat}

theorem initialisedT_pays (m : Initialises) (e : RefEnv) (fd : Word) :
    Pays lax (initialisedT m e fd) own k (Initialised m e fd k own) := by
  unfold initialisedT
  rw [pays_bind, pays_fgetT]
  split
  next hfd =>
    rw [pays_pure]
    refine .refused ?_ ?_
    · rintro ⟨i, hi, -⟩
      exact nomatch hfd.symm.trans hi
    · rintro ⟨-, i, hi, -⟩
      exact nomatch hfd.symm.trans hi
  next i hfd =>
    rw [pays_bind, pays_lookT]
    split_ifs with hneeds
    · rw [pays_bind]
      refine (socksysFdinitT_pays ..).mono ?_
      rintro error k1 own' ⟨rfl, hinit⟩
      obtain ⟨hfails, hafter⟩ := hinit i hfd
      by_cases hneg : error < 0
      · rw [if_pos hneg, pays_pure]
        exact .leaked ⟨i, hfd, hneeds, hfails.mp hneg⟩
      · have hno : ¬ InitFails m e fd k := by
          rintro ⟨i', hi', -, hfails'⟩
          obtain rfl := Option.some.inj (hfd.symm.trans hi')
          exact hneg (hfails.mpr hfails')
        obtain rfl := hafter hneg
        rw [if_neg hneg, pays_bind, pays_fputT, pays_bind, pays_fgetT]
        split
        next hnone =>
          rw [pays_pure]
          refine .refused hno ?_
          rintro ⟨-, i', hi', hopen⟩
          obtain rfl := Option.some.inj (hfd.symm.trans hi')
          exact hopen hneeds hnone
        next j hj =>
          rw [pays_bind, pays_lookT, pays_pure]
          exact .ready ⟨hno, i, hfd, fun _ => hj ▸ Option.some_ne_none j⟩ hj
    · rw [pays_pure]
      refine .ready ⟨?_, i, hfd, fun h => absurd h hneeds⟩ hfd
      rintro ⟨i', hi', hneeds', -⟩
      obtain rfl := Option.some.inj (hfd.symm.trans hi')
      exact hneeds hneeds'

theorem sockmodCommandT_pays (e : RefEnv) (cmd data : Word) :
    Pays lax (sockmodCommandT e cmd data i) (i ::ₘ own) k (Returns own) := by
  unfold sockmodCommandT
  split
  · split <;> simp
  · simp

end Ioctls

/-! ## One call -/

/-- The initialisation fails in the call. -/
def Visit.InitFails (v : Visit) : Prop :=
  match v.call with
  | .stream fd _ _ => Xti.InitFails streamInit v.env fd v.kernel
  | .sockmod fd _ _ => Xti.InitFails sockmodInit v.env fd v.kernel
  | _ => False

/-- The call is an `I_FDINSERT` that comes to its `do_putmsg`. -/
def Visit.Inserts (v : Visit) : Prop :=
  match v.call with
  | .stream fd cmd data => cmd = 16 ∧ v.env.call.canRead data 36 = true ∧
      StaysOpen streamInit v.env fd v.kernel
  | _ => False

/-- How a call can end: with a fault, with what was owned before, or with one reference
more. -/
inductive Called (v : Visit) (own : Multiset Nat) :
    Except Fault Int ⊕ RefCall → Kernel → Multiset Nat → Prop
  | fault {x : Fault} {k' : Kernel} {own' : Multiset Nat} (hno : ¬ v.InitFails) :
      Called v own (.inl (.error x)) k' own'
  | clean {r : Except Fault Int ⊕ RefCall} {k' : Kernel} (hno : ¬ v.InitFails) :
      Called v own r k' own
  | leaked {x : Int} {k' : Kernel} {i : Nat} (hfails : v.InitFails) :
      Called v own (.inl (.ok x)) k' (i ::ₘ own)

section Once

variable {lax : Bool} {own : Multiset Nat} {k : Kernel} {i : Nat} {v : Visit}

/-- A call that ends with the value of `p`. -/
theorem called_of_returns {own1 : Multiset Nat}
    (hno : ¬ v.InitFails) (hp : Pays lax p own1 k (Returns own)) :
    Pays lax (do let r ← p; return .inl r) own1 k (Called v own) := by
  rw [pays_bind]
  refine hp.mono fun r k' own' hr => ?_
  rw [pays_pure]
  cases r with
  | error fault => exact .fault hno
  | ok x =>
    obtain rfl := (returns_ok x).mp hr
    exact .clean hno

/-- What `do_putmsg` looks at is not asked. -/
theorem putmsgT_pays_lax (e : Env) (c : PutArgs) :
    Pays true (putmsgT e c i) own k fun _ _ own' => own' = own := by
  unfold putmsgT
  rw [pays_bind, pays_lent_lax, pays_bind, pays_get]
  dsimp only
  split <;> simp

theorem streamFdinsertT_pays (e : Env) (fd data : Word)
    (hlax : lax = true ∨ ¬ e.canRead data 36 = true) :
    Pays lax (streamFdinsertT e fd data i) own k fun _ _ own' => own' = own := by
  unfold streamFdinsertT
  rw [pays_bind, pays_userT]
  split
  · simp
  next hread =>
    obtain rfl := hlax.resolve_right hread
    rw [pays_bind, pays_get]
    split
    · simp
    · exact putmsgT_pays_lax ..

/-- Behind its `fput`, `svr4_stream_ioctl` takes nothing and gives nothing back. -/
theorem laterCommandT_pays (e : RefEnv) (fd cmd data : Word)
    (hlax : lax = true ∨ ¬ (cmd = 16 ∧ e.call.canRead data 36 = true)) :
    Pays lax (laterCommandT e fd cmd data i) own k fun _ _ own' => own' = own := by
  unfold laterCommandT
  split_ifs with hstr hset hget hinsert
  · rw [pays_bind, pays_userT]
    split <;> simp
  · simp
  · simp
  · rw [pays_bind]
    refine (streamFdinsertT_pays e.call fd data ?_).mono fun r k' own' hown => ?_
    · exact hlax.imp_right fun hno hread => hno ⟨hinsert, hread⟩
    · rw [pays_pure]
      exact hown
  · simp

theorem streamCommandT_pays (fd cmd data : Word) (hno : ¬ v.InitFails)
    (hlax : lax = true ∨ ¬ (cmd = 16 ∧ v.env.call.canRead data 36 = true)) :
    Pays lax (streamCommandT v.env fd cmd data i) (i ::ₘ own) k (Called v own) := by
  unfold streamCommandT
  split_ifs
  · exact called_of_returns hno (iNreadT_pays ..)
  · exact called_of_returns hno (iPeekT_pays ..)
  · rw [pays_bind, pays_fputT]
    refine (laterCommandT_pays v.env fd cmd data hlax).mono fun r k' own' hown => ?_
    obtain rfl := hown
    exact .clean hno

/-- What one call owns at its end. -/
theorem once_pays (v : Visit) (hlax : lax = true ∨ ¬ v.Inserts) :
    Pays lax (v.call.once v.env) own v.kernel (Called v own) := by
  obtain ⟨e, c, k⟩ := v
  cases c with
  | stream fd cmd data =>
    show Pays lax (initialisedT streamInit e fd >>= _) own k _
    rw [pays_bind]
    refine (initialisedT_pays streamInit e fd).mono fun r k' own' hinit => ?_
    cases hinit with
    | ready hready hfd =>
      refine streamCommandT_pays fd cmd data hready.1 ?_
      exact hlax.imp_right fun hins h => hins ⟨h.1, h.2, hready⟩
    | refused hno =>
      rw [pays_pure]
      exact .clean hno
    | leaked hfails =>
      rw [pays_pure]
      exact .leaked hfails
  | sockmod fd cmd data =>
    show Pays lax (svr4SockmodIoctlT e fd cmd data >>= _) own k _
    unfold svr4SockmodIoctlT
    rw [pays_bind, pays_bind]
    refine (initialisedT_pays sockmodInit e fd).mono fun r k' own' hinit => ?_
    cases hinit with
    | ready hready hfd =>
      rw [← pays_bind]
      exact called_of_returns hready.1 (sockmodCommandT_pays e cmd data)
    | refused hno =>
      rw [pays_pure, pays_pure]
      exact .clean hno
    | leaked hfails =>
      rw [pays_pure, pays_pure]
      exact .leaked hfails
  | timod c => exact called_of_returns id (timodIoctlT_pays e.timod c)
  | fdinit fd =>
    show Pays lax (socksysFdinitT e.init e.fds fd >>= _) own k _
    rw [pays_bind]
    refine (socksysFdinitT_pays ..).mono fun r k' own' hown => ?_
    obtain ⟨rfl, -⟩ := hown
    rw [pays_pure]
    exact .clean id
  | inherit fd state =>
    show Pays lax (inheritSocksysFuncsT e.init.alloc fd state >>= _) own k _
    rw [pays_bind]
    refine (inheritSocksysFuncsT_pays ..).mono fun r k' own' hown => ?_
    obtain ⟨rfl, -⟩ := hown
    rw [pays_pure]
    exact .clean id
  | other fd cmd data =>
    show Pays lax (get >>= _) own k _
    rw [pays_bind, pays_get]
    split
    · rw [pays_pure]
      exact .clean id
    · rw [pays_bind, pays_modify, pays_pure]
      exact .clean id

theorem putmsgT_log (e : Env) (c : PutArgs) : (putmsgT e c i).log k = [.lent i] := by
  unfold putmsgT
  rw [log_bind, log_bind]
  dsimp only
  split <;> rfl

/-- The end of an `I_FDINSERT`. -/
theorem streamCommandT_inserts {fd : Word} (e : RefEnv) (data : Word)
    (hread : e.call.canRead data 36 = true) (hfd : k.fds fd = some i) :
    (streamCommandT e fd 16 data i).log k = [.gave i, .lent i] := by
  have hinsert : (streamFdinsertT e.call fd data i).log k = [.lent i] := by
    unfold streamFdinsertT
    rw [log_bind, if_neg (not_not.mpr hread), log_bind]
    show [] ++ ([] ++ (match k.fds fd with | none => _ | some j => _ : Counting _).log k) = _
    rw [hfd]
    exact putmsgT_log ..
  have hlater : (laterCommandT e fd 16 data i).log k = [.lent i] := by
    unfold laterCommandT
    rw [if_neg (by decide), if_neg (by decide), if_neg (by decide), if_pos rfl, log_bind, hinsert]
    rfl
  exact congrArg (.gave i :: ·) hlater

/-- An `I_FDINSERT`: `do_putmsg` looks at a file of which every reference has been given
back. -/
theorem once_inserts (own : Multiset Nat) (h : v.Inserts) : ∃ p j,
    (v.call.once v.env).log v.kernel = p ++ [.lent j] ∧
    .gave j ∈ p ∧ Ref.walk false own p = some own := by
  obtain ⟨e, c, k⟩ := v
  cases c with
  | stream fd cmd data =>
    obtain ⟨rfl, hread, hready⟩ := h
    have hpays : Pays false (initialisedT streamInit e fd) own k _ := initialisedT_pays ..
    obtain ⟨own', hwalk, hinit⟩ := hpays
    rcases hresult : (initialisedT streamInit e fd).result k with ⟨r, k1⟩
    rw [hresult] at hinit
    cases hinit with
    | refused _ hnot => exact absurd hready hnot
    | leaked hfails => exact absurd hfails hready.1
    | @ready _ j _ hfd =>
      refine ⟨(initialisedT streamInit e fd).log k ++ [.gave j], j, ?_, ?_, ?_⟩
      · show (initialisedT streamInit e fd >>= _).log k = _
        rw [log_bind, hresult, append_assoc]
        exact congrArg _ (streamCommandT_inserts e data hread hfd)
      · exact mem_append_right _ (mem_singleton_self _)
      · rw [Ref.walk_append, hwalk]
        simp [Ref.walk_cons, Ref.pay]
  | _ => exact h.elim

end Once

/-! ## All calls -/

section Run

variable {lax : Bool} {own : Multiset Nat}

/-- How a run can end: with a fault, with what was owned before, or with one reference
more. -/
inductive Ran (vs : List Visit) (own : Multiset Nat) :
    Except Fault Int → Kernel → Multiset Nat → Prop
  | fault {x : Fault} {k' : Kernel} {own' : Multiset Nat} (hno : ∀ v ∈ vs, ¬ v.InitFails) :
      Ran vs own (.error x) k' own'
  | clean {r : Except Fault Int} {k' : Kernel} (hno : ∀ v ∈ vs, ¬ v.InitFails) : Ran vs own r k' own
  | leaked {x : Int} {k' : Kernel} {i : Nat} (hfails : ∃ v ∈ vs, v.InitFails) :
      Ran vs own (.ok x) k' (i ::ₘ own)

theorem Ran.cons {v : Visit} {vs : List Visit} {r : Except Fault Int} {k' : Kernel}
    (hv : ¬ v.InitFails) (h : Ran vs own r k' own') :
    Ran (v :: vs) own r k' own' := by
  cases h with
  | fault hno => exact .fault (forall_mem_cons.mpr ⟨hv, hno⟩)
  | clean hno => exact .clean (forall_mem_cons.mpr ⟨hv, hno⟩)
  | leaked hfails =>
    obtain ⟨w, hw, hfails⟩ := hfails
    exact .leaked ⟨w, mem_cons_of_mem v hw, hfails⟩

/-- What a call owns at the end of everything it leads to. -/
theorem run_pays (e : Nat → RefEnv) : ∀ (n : Nat) (c : RefCall) (k : Kernel),
    (lax = true ∨ ∀ v ∈ c.visits e n k, ¬ v.Inserts) →
      Pays lax (c.run e n) own k (Ran (c.visits e n k) own)
  | 0, c, k, _ => by
    show Pays lax (pure _) own k _
    rw [pays_pure]
    exact .fault fun v hv => nomatch hv
  | n + 1, c, k, hlax => by
    rw [RefCall.run_succ, pays_bind]
    have hhead : lax = true ∨ ¬ (⟨e n, c, k⟩ : Visit).Inserts :=
      hlax.imp_right fun h => h _ (mem_cons_self ..)
    refine (once_pays ⟨e n, c, k⟩ hhead).and_result.mono fun r k' own' hr => ?_
    obtain ⟨hresult, hcalled⟩ := hr
    have hlast (hno : ¬ (⟨e n, c, k⟩ : Visit).InitFails) :
        ∀ w ∈ [(⟨e n, c, k⟩ : Visit)], ¬ w.InitFails := forall_mem_singleton.mpr hno
    cases hcalled with
    | fault hno =>
      rw [visits_of_inl hresult]
      show Pays lax (pure _) _ k' _
      rw [pays_pure]
      exact .fault (hlast hno)
    | leaked hfails =>
      rw [visits_of_inl hresult]
      show Pays lax (pure _) _ k' _
      rw [pays_pure]
      exact .leaked ⟨_, mem_singleton_self _, hfails⟩
    | clean hno =>
      cases r with
      | inl r =>
        rw [visits_of_inl hresult]
        show Pays lax (pure _) _ k' _
        rw [pays_pure]
        exact .clean (hlast hno)
      | inr next =>
        rw [visits_of_inr hresult] at hlax ⊢
        have hnext : lax = true ∨ ∀ v ∈ next.visits e n k', ¬ v.Inserts :=
          hlax.imp_right fun h => (forall_mem_cons.mp h).2
        exact (run_pays e n next k' hnext).mono fun _ _ _ h => h.cons hno

/-- If one of the calls is an `I_FDINSERT`, a file is lent that has been given back. -/
theorem run_inserts (e : Nat → RefEnv) : ∀ (n : Nat) (c : RefCall) (k : Kernel),
    (∃ v ∈ c.visits e n k, v.Inserts) → ∃ p j q, (c.run e n).log k = p ++ .lent j :: q ∧
      .gave j ∈ p ∧ ∀ i, p.count (.got i) = p.count (.gave i)
  | 0, _, _, ⟨_, hv, _⟩ => nomatch hv
  | n + 1, c, k, ⟨v, hv, hins⟩ => by
    have hequal {p : List (Ref Nat)} (hwalk : Ref.walk false 0 p = some 0) (i : Nat) :
        p.count (.got i) = p.count (.gave i) :=
      Nat.add_left_cancel (Ref.walk_count hwalk i)
    rw [RefCall.run_succ, log_bind]
    by_cases hhead : (⟨e n, c, k⟩ : Visit).Inserts
    · obtain ⟨p, j, hlog, hgave, hwalk⟩ := once_inserts 0 hhead
      have hlog' : (c.once (e n)).log k = p ++ [.lent j] := hlog
      rw [hlog', append_assoc]
      exact ⟨p, j, _, rfl, hgave, hequal hwalk⟩
    · -- the call leads to another, and has given back what it took
      have hpays : Pays false (c.once (e n)) 0 k _ := once_pays ⟨e n, c, k⟩ (.inr hhead)
      obtain ⟨own', hwalk, hcalled⟩ := hpays
      rcases hresult : (c.once (e n)).result k with ⟨r, k'⟩
      rw [hresult] at hcalled
      cases r with
      | inl r =>
        rw [visits_of_inl hresult] at hv
        obtain rfl := mem_singleton.mp hv
        exact absurd hins hhead
      | inr next =>
        rw [visits_of_inr hresult] at hv
        cases hcalled with
        | clean hno =>
          rcases mem_cons.mp hv with rfl | hv
          · exact absurd hins hhead
          obtain ⟨p, j, q, hlog, hgave, hp⟩ := run_inserts e n next k' ⟨v, hv, hins⟩
          refine ⟨(c.once (e n)).log k ++ p, j, q, ?_, mem_append_right _ hgave, fun i => ?_⟩
          · rw [append_assoc, ← hlog]
            rfl
          · rw [count_append, count_append, hequal hwalk i, hp i]

end Run

/-! ## The promise -/

/-- A call that returns gives back exactly the references it took. -/
def Balanced (p : Counting (Except Fault Int)) (k : Kernel) : Prop :=
  ∀ r, (p.result k).1 = .ok r → ∀ i, (p.log k).count (.got i) = (p.log k).count (.gave i)

/-- No file is looked at in this way once the last reference to it has been given back. -/
def NotAfter (look : Nat → Ref Nat) (log : List (Ref Nat)) : Prop :=
  ∀ p i q, log = p ++ look i :: q → .gave i ∈ p → p.count (.gave i) < p.count (.got i)

/-- More references have been taken than given back while a file is owned. -/
theorem held_of_mem {lax : Bool} {p : List (Ref Nat)} {own : Multiset Nat} {i : Nat}
    (hwalk : Ref.walk lax 0 p = some own) (hi : i ∈ own) :
    p.count (.gave i) < p.count (.got i) := by
  have hcount := Ref.walk_count hwalk i
  have hpos := Multiset.count_pos.mpr hi
  rw [Multiset.count_zero] at hcount
  omega

/-- References are balanced exactly if in none of the calls the initialisation of the device
fails; no file is used after it has been given back; and `do_putmsg` and `do_getmsg` are
lent no such file exactly if none of the calls is an `I_FDINSERT`. -/
theorem file_references (e : Nat → RefEnv) (n : Nat) (c : RefCall) (k : Kernel) :
    (Balanced (c.run e n) k ↔ ∀ v ∈ c.visits e n k, ¬ v.InitFails) ∧
    NotAfter .used ((c.run e n).log k) ∧
    (NotAfter .lent ((c.run e n).log k) ↔ ∀ v ∈ c.visits e n k, ¬ v.Inserts) := by
  have hpays : Pays true (c.run e n) 0 k _ := run_pays e n c k (.inl rfl)
  obtain ⟨own', hwalk, hran⟩ := hpays
  refine ⟨?_, ?_, ?_⟩
  · have hcount := Ref.walk_count hwalk
    unfold Balanced
    generalize ((c.run e n).result k).1 = r at hran ⊢
    cases hran with
    | fault hno => exact iff_of_true (nofun) hno
    | clean hno => exact iff_of_true (fun _ _ i => Nat.add_left_cancel (hcount i)) hno
    | @leaked x _ i hfails =>
      refine iff_of_false (fun h => ?_) fun h => ?_
      · have hi := hcount i
        rw [h x rfl i] at hi
        simp at hi
      · obtain ⟨v, hv, hv'⟩ := hfails
        exact h v hv hv'
  · intro p i q hlog _
    rw [hlog] at hwalk
    obtain ⟨own1, hp, hi⟩ := Ref.walk_used hwalk
    exact held_of_mem hp hi
  · constructor
    · intro h v hv hins
      obtain ⟨p, j, q, hlog, hgave, hequal⟩ := run_inserts e n c k ⟨v, hv, hins⟩
      exact absurd (h p j q hlog hgave) (hequal j).not_gt
    · intro hno p i q hlog _
      have hpays : Pays false (c.run e n) 0 k _ := run_pays e n c k (.inr hno)
      obtain ⟨own', hwalk, -⟩ := hpays
      rw [hlog] at hwalk
      obtain ⟨own1, hp, hi⟩ := Ref.walk_lent hwalk
      exact held_of_mem hp hi

/-- Calls that succeed where they can; there are no sockets. -/
def noSockets : RefEnv where
  init := refusing
  fds := .plain
  call := plainEnv
  inq := ⟨0, id⟩
  timod := ⟨plainEnv, plainEnv, plainEnv, plainEnv, ⟨0, id⟩, ⟨0, id⟩⟩
  pid := 1
  name := .error (-EFAULT)
  ioctl _ _ _ k := (0, k)
  other _ _ _ k := .ok (0, k)

/-- The device itself, `/dev/socksys`. -/
def socksysDevice : File :=
  ⟨⟨S_IFCHR, ⟨SOCKSYS_MAJOR, 0⟩⟩, .socksys, none, none, endpoint .unbnd []⟩

/-- The call alone, without sockets. -/
def RefCall.alone (c : RefCall) : Counting (Except Fault Int) := c.run (fun _ => noSockets) 1

theorem not_balanced_of_log {k : Kernel} {r : Int} (hret : (p.result k).1 = .ok r)
    (hlog : p.log k = [.got 0, .used 0, .got 0, .used 0, .gave 0]) : ¬ Balanced p k := by
  intro h
  have hcount := h r hret 0
  rw [hlog] at hcount
  exact nomatch hcount

/-- An `I_NREAD` and an `SI_GETUDATA` on the device fail, and each keeps a reference to its
file. An `I_FDINSERT` on a socket has `do_putmsg` look at a file that was given back. -/
theorem device_reference_kept :
    (((RefCall.stream 3 1 0x4000).alone.result (holding socksysDevice)).1 = .ok (-EINVAL) ∧
      (RefCall.stream 3 1 0x4000).alone.log (holding socksysDevice) =
        [.got 0, .used 0, .got 0, .used 0, .gave 0] ∧
      ¬ Balanced (RefCall.stream 3 1 0x4000).alone (holding socksysDevice)) ∧
    (((RefCall.sockmod 3 101 0x4000).alone.result (holding socksysDevice)).1 = .ok EINVAL ∧
      (RefCall.sockmod 3 101 0x4000).alone.log (holding socksysDevice) =
        [.got 0, .used 0, .got 0, .used 0, .gave 0] ∧
      ¬ Balanced (RefCall.sockmod 3 101 0x4000).alone (holding socksysDevice)) ∧
    (RefCall.stream 3 16 0x4000).alone.log (holding (socketWith (endpoint .unbnd []))) =
        [.got 0, .used 0, .gave 0, .lent 0] ∧
      ¬ NotAfter .lent ((RefCall.stream 3 16 0x4000).alone.log
        (holding (socketWith (endpoint .unbnd [])))) := by
  have hinsert : (RefCall.stream 3 16 0x4000).alone.log
      (holding (socketWith (endpoint .unbnd []))) =
      [.got 0, .used 0, .gave 0, .lent 0] := by decide +kernel
  refine ⟨⟨rfl, rfl, not_balanced_of_log rfl rfl⟩, ⟨rfl, rfl, not_balanced_of_log rfl rfl⟩,
    hinsert, fun h => ?_⟩
  have hheld := h [.got 0, .used 0, .gave 0] 0 [] hinsert (by decide)
  exact nomatch hheld

end AbiEmu.Xti
