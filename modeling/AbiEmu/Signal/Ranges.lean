import AbiEmu.Signal.Wait

/-!
# Which calls stay inside the signal tables

Every access to `signal_map`, `signal_invmap` and `howcnv` goes through `readAt`,
so a call keeps to its tables if it is `InRange`. For each call this module gives
the exact condition on its arguments, on the caller's memory and on what the
kernel answered; the tables are any 33 numbers.

The helpers of `map.h` and `abi_mapsig` always keep to the tables, and so does
`abi_wait`, whose index is bounded. The others do not: `abi_kill` masks the
signal to eight bits only, `abi_sigprocmask` takes `how` as it comes,
`xnx_sigaction` has a signed upper bound and no lower one, and `wyse_wait3` and
`svr4_waitid` look up any eight bits of a status word.
-/

namespace AbiEmu.Signal

open Lcall7 (PtRegs)

variable {K : Type}

/-- The calls that use the tables. `junk` and `locals` are the contents of
locals the call has not set. -/
inductive Call where
  | mapBitvec (vec : Word)
  | mapSigvecFromKernel (vec : Sigset)
  | mapSigvecToKernel (vec : Word)
  | abiMapsig (sig : Word)
  | abiKill (pid sig : Word)
  | abiSigaction (locals : Locals) (signum action oldaction : Word)
  | xnxSigaction (locals : Locals) (signum action oldaction : Word)
  | abiSigprocmask (how abinset abioset : Word)
  | abiWait (xenix : Bool) (junk : Word) (regs : PtRegs)
  | wyseWait3 (loc : Word)
  | svr4Waitid (junk idtype id infop options : Word)

/-- A call, without its result. -/
def Call.run (k : Kernel K) (d : Domain) (p : Pages) (wait4 : Word → Word → Wait4)
    (s : Proc K) : Call → Res Unit
  | .mapBitvec vec => do let _ ← Signal.mapBitvec vec d.signalMap
  | .mapSigvecFromKernel vec => do let _ ← Signal.mapSigvecFromKernel vec d.signalInvmap
  | .mapSigvecToKernel vec => do let _ ← Signal.mapSigvecToKernel vec d.signalMap
  | .abiMapsig sig => do let _ ← Signal.abiMapsig d sig
  | .abiKill pid sig => do let _ ← Signal.abiKill k d pid sig s
  | .abiSigaction locals signum action oldaction => do
    let _ ← Signal.abiSigaction k d p locals signum action oldaction s
  | .xnxSigaction locals signum action oldaction => do
    let _ ← Signal.xnxSigaction k d p locals signum action oldaction s
  | .abiSigprocmask how abinset abioset => do
    let _ ← Signal.abiSigprocmask k d p how abinset abioset s
  | .abiWait xenix junk regs => do let _ ← Signal.abiWait d p wait4 xenix junk regs s.mem
  | .wyseWait3 loc => do let _ ← Signal.wyseWait3 d p wait4 loc s.mem
  | .svr4Waitid junk idtype id infop options => do
    let _ ← Signal.svr4Waitid d p wait4 junk idtype id infop options s.mem

/-- The condition under which a call stays inside the tables. -/
def Call.Bounded (p : Pages) (wait4 : Word → Word → Wait4) (m : Mem) : Call → Prop
  | .abiKill _ sig => (sig &&& 0xff).toNat ≤ 32
  | .xnxSigaction _ signum _ _ => 0 ≤ signum.toInt
  | .abiSigprocmask how _ _ => 0 ≤ how.toInt ∧ how.toInt ≤ 3
  | .wyseWait3 loc => loc ≠ 0 →
    ∀ sig, namedSignal (wordAt p loc m (wait4 (-1) WNOHANG)) = some sig → sig.toNat ≤ 32
  | .svr4Waitid junk idtype id infop options =>
    infop ≠ 0 → p.verifyWrite infop siginfoSize = true →
    ∀ pid, waitidPid idtype id = some pid →
    ∀ status, statusOf junk (wait4 pid (waitOptions options)) = some status →
      status &&& 0xff ≠ 0 → ((status &&& 0xff00) >>> 8).toNat ≤ 32
  | _ => True

/-! ## The calls one by one -/

/-- Eight bits are not negative. -/
theorem toInt_and_255 (v : Word) : (v &&& 0xff).toInt = (v &&& 0xff).toNat := by
  have h : (v &&& 0xff).toNat ≤ 255 := by
    exact Nat.and_le_right
  rw [BitVec.toInt_eq_toNat_of_lt (by omega)]

theorem abiMapsig_inRange (d : Domain) (sig : Word) : InRange (abiMapsig d sig) := by
  unfold abiMapsig nsignals
  split
  · exact inRange_ok _
  next h =>
    rw [inRange_readAt, BitVec.toInt_eq_toNat_of_lt (by omega)]
    omega

theorem newAction_inRange (d : Domain) (l : Layout) (flags action : Word) (m : Mem) :
    InRange (newAction d l flags action m) := by
  unfold newAction
  split
  · exact inRange_pure _
  · rw [inRange_bind]
    exact ⟨mapMembers_inRange .., fun _ _ => inRange_pure _⟩

theorem reportAction_inRange (d : Domain) (p : Pages) (l : Layout) (resv : Fin 2 → Word)
    (oldaction : Word) (osa : SigAction) (s : Proc K) :
    InRange (reportAction d p l resv oldaction osa s) := by
  unfold reportAction
  rw [inRange_bind]
  refine ⟨mapMembers_inRange .., fun mask _ => ?_⟩
  dsimp only
  split <;> exact inRange_pure _

section

variable (k : Kernel K) (d : Domain)

include k d

variable (p : Pages)

theorem changeAction_inRange (l : Layout) (flags : Word) (resv : Fin 2 → Word)
    (signo action oldaction : Word) (s : Proc K) :
    InRange (changeAction k d p l flags resv signo action oldaction s) := by
  unfold changeAction
  split
  · exact inRange_pure _
  · split
    · exact inRange_pure _
    · rw [inRange_bind]
      refine ⟨newAction_inRange .., fun nsa _ => ?_⟩
      dsimp only
      split
      · exact inRange_pure _
      · exact reportAction_inRange ..

theorem abiKill_inRange_iff (pid sig : Word) (s : Proc K) :
    InRange (abiKill k d pid sig s) ↔ (sig &&& 0xff).toNat ≤ 32 := by
  unfold abiKill
  rw [inRange_bind, inRange_readAt, toInt_and_255]
  refine ⟨fun h => by omega, fun h => ⟨by omega, fun _ _ => inRange_pure _⟩⟩

theorem abiSigaction_inRange (locals : Locals) (signum action oldaction : Word) (s : Proc K) :
    InRange (abiSigaction k d p locals signum action oldaction s) := by
  unfold abiSigaction
  rw [inRange_bind]
  refine ⟨abiMapsig_inRange d signum, fun signo _ => ?_⟩
  split
  · exact inRange_pure _
  · exact changeAction_inRange ..

theorem xnxSigaction_inRange_iff (locals : Locals) (signum action oldaction : Word) (s : Proc K) :
    InRange (xnxSigaction k d p locals signum action oldaction s) ↔ 0 ≤ signum.toInt := by
  unfold xnxSigaction nsignals
  split
  next h => exact ⟨fun _ => by omega, fun _ => inRange_pure _⟩
  next h =>
    rw [inRange_bind, inRange_readAt]
    exact ⟨fun hr => hr.1.1, fun h0 => ⟨by omega, fun _ _ => changeAction_inRange ..⟩⟩

end

theorem newSet_inRange (d : Domain) (p : Pages) (abinset : Word) (m : Mem) :
    InRange (newSet d p abinset m) := by
  unfold newSet
  split
  · exact inRange_pure _
  · rw [inRange_bind]
    exact ⟨mapMembers_inRange .., fun _ _ => inRange_pure _⟩

theorem abiSigprocmask_inRange_iff (k : Kernel K) (d : Domain) (p : Pages)
    (how abinset abioset : Word) (s : Proc K) :
    InRange (abiSigprocmask k d p how abinset abioset s) ↔ 0 ≤ how.toInt ∧ how.toInt ≤ 3 := by
  unfold abiSigprocmask
  rw [inRange_bind]
  have hset := newSet_inRange d p abinset s.mem
  constructor
  · rintro ⟨-, h⟩
    obtain ⟨nset, hn⟩ := hset.exists_ok
    have hhow := ((inRange_bind _ _).mp (h nset hn)).1
    rw [inRange_readAt] at hhow
    omega
  · intro h
    refine ⟨hset, fun nset _ => ?_⟩
    rw [inRange_bind, inRange_readAt]
    refine ⟨by omega, fun kernelHow _ => ?_⟩
    dsimp only
    split
    · rw [inRange_bind]
      exact ⟨mapMembers_inRange .., fun _ _ => inRange_pure _⟩
    · exact inRange_pure _

/-! ## Waiting -/

theorem retell_bounded_inRange (map : Table) (w : Word) :
    InRange (retell map (some nsignals) w) := by
  have hlook : ∀ i same : Word, InRange (lookUp map (some nsignals) i same) := by
    intro i same
    unfold lookUp nsignals
    dsimp only
    split
    next h =>
      rw [inRange_readAt, BitVec.toInt_eq_toNat_of_lt (by omega)]
      omega
    · exact inRange_pure _
  unfold retell
  split
  · exact (inRange_bind _ _).mpr ⟨hlook _ _, fun _ _ => inRange_pure _⟩
  · split
    · exact (inRange_bind _ _).mpr ⟨hlook _ _, fun _ _ => inRange_pure _⟩
    · exact inRange_pure _

theorem retell_inRange_iff (map : Table) (w : Word) :
    InRange (retell map none w) ↔ ∀ sig, namedSignal w = some sig → sig.toNat ≤ 32 := by
  have hlook : ∀ v same : Word, InRange (lookUp map none (v &&& 0xff) same) ↔
      (v &&& 0xff).toNat ≤ 32 := by
    intro v same
    show InRange (readAt map (v &&& 0xff).toInt) ↔ _
    rw [inRange_readAt, toInt_and_255]
    omega
  have hlow : w &&& 0x7f = (w &&& 0x7f) &&& 0xff := by
    rw [BitVec.and_assoc]
    rfl
  unfold retell namedSignal
  split
  · rw [inRange_bind, hlook]
    exact ⟨fun h sig hsig => Option.some.inj hsig ▸ h.1,
      fun h => ⟨h _ rfl, fun _ _ => inRange_pure _⟩⟩
  · split
    · rw [inRange_bind, hlow, hlook, ← hlow]
      exact ⟨fun h sig hsig => Option.some.inj hsig ▸ h.1,
        fun h => ⟨h _ rfl, fun _ _ => inRange_pure _⟩⟩
    · exact ⟨fun _ sig hsig => absurd hsig nofun, fun _ => inRange_pure _⟩

section

variable (d : Domain)

include d

theorem abiWait_inRange (p : Pages) (wait4 : Word → Word → Wait4) (xenix : Bool) (junk : Word)
    (regs : PtRegs) (m : Mem) :
    InRange (abiWait d p wait4 xenix junk regs m) := by
  unfold abiWait
  split
  · exact inRange_pure _
  · dsimp only
    split
    · exact inRange_pure _
    · rw [inRange_bind]
      refine ⟨retell_bounded_inRange .., fun told _ => ?_⟩
      split <;> exact inRange_pure _

theorem wyseWait3_inRange_iff (p : Pages) (wait4 : Word → Word → Wait4) (loc : Word) (m : Mem) :
    InRange (wyseWait3 d p wait4 loc m) ↔
      (loc ≠ 0 → ∀ sig, namedSignal (wordAt p loc m (wait4 (-1) WNOHANG)) = some sig →
        sig.toNat ≤ 32) := by
  unfold wyseWait3
  dsimp only
  split
  next h => exact ⟨fun _ hne => absurd h hne, fun _ => inRange_pure _⟩
  next h =>
    rw [inRange_bind, getUser_toUser p h, retell_inRange_iff]
    refine ⟨fun hr _ => hr.1, fun hr => ⟨hr h, fun told _ => ?_⟩⟩
    split <;> exact inRange_pure _

theorem childCode_inRange_iff (status : Word) : InRange (childCode d status) ↔
    (status &&& 0xff ≠ 0 → ((status &&& 0xff00) >>> 8).toNat ≤ 32) := by
  have hst : ((status &&& 0xff00) >>> 8).toInt = ((status &&& 0xff00) >>> 8).toNat := by
    rw [BitVec.toInt_eq_toNat_of_lt]
    rw [BitVec.toNat_ushiftRight, Nat.shiftRight_eq_div_pow]
    omega
  have hread : InRange (readAt d.signalInvmap ((status &&& 0xff00) >>> 8).toInt) ↔
      ((status &&& 0xff00) >>> 8).toNat ≤ 32 := by
    rw [inRange_readAt, hst]
    omega
  unfold childCode
  split
  next h => exact ⟨fun _ hne => absurd h hne, fun _ => inRange_pure _⟩
  next h =>
    split <;>
      (rw [inRange_bind, hread]
       exact ⟨fun hr _ => hr.1, fun hr => ⟨hr h, fun _ _ => inRange_pure _⟩⟩)

theorem putSiginfo_inRange_iff (p : Pages) (infop : Word) (result : Int) (status : Word) (m : Mem) :
    InRange (putSiginfo d p infop result status m) ↔
      (status &&& 0xff ≠ 0 → ((status &&& 0xff00) >>> 8).toNat ≤ 32) := by
  unfold putSiginfo
  have hchld : readAt d.signalMap SIGCHLD.toInt = .ok (entry d.signalMap 17) :=
    readAt_entry d.signalMap (i := 17) (by omega)
  rw [hchld, ← childCode_inRange_iff d status]
  show InRange (childCode d status >>= fun _ => pure _) ↔ _
  rw [inRange_bind]
  exact ⟨fun h => h.1, fun h => ⟨h, fun _ _ => inRange_pure _⟩⟩

theorem svr4Waitid_inRange_iff (p : Pages) (wait4 : Word → Word → Wait4)
    (junk idtype id infop options : Word) (m : Mem) :
    InRange (svr4Waitid d p wait4 junk idtype id infop options m) ↔
      (infop ≠ 0 → p.verifyWrite infop siginfoSize = true →
        ∀ pid, waitidPid idtype id = some pid →
        ∀ status, statusOf junk (wait4 pid (waitOptions options)) = some status →
          status &&& 0xff ≠ 0 → ((status &&& 0xff00) >>> 8).toNat ≤ 32) := by
  have hput : ∀ result status,
      InRange (do let m ← putSiginfo d p infop result status m; pure ((0 : Int), m)) ↔
        (status &&& 0xff ≠ 0 → ((status &&& 0xff00) >>> 8).toNat ≤ 32) := by
    intro result status
    rw [inRange_bind, putSiginfo_inRange_iff]
    exact ⟨fun h => h.1, fun h => ⟨h, fun _ _ => inRange_pure _⟩⟩
  by_cases hask : waitidPid idtype id = none ∨ infop = 0 ∨ p.verifyWrite infop siginfoSize = false
  · obtain ⟨r, hr⟩ : ∃ r, svr4Waitid d p wait4 junk idtype id infop options m = .ok (r, m) :=
      svr4Waitid_unasked d wait4 junk options m hask
    rw [hr]
    refine ⟨fun _ hinfo hverify pid hpid => ?_, fun _ => inRange_ok _⟩
    rcases hask with h | h | h
    · rw [hpid] at h
      cases h
    · exact absurd h hinfo
    · exact absurd (h.symm.trans hverify) Bool.false_ne_true
  · simp only [not_or, Bool.not_eq_false] at hask
    obtain ⟨hsome, hinfo, hverify⟩ := hask
    obtain ⟨pid, hpid⟩ := Option.ne_none_iff_exists'.mp hsome
    rw [svr4Waitid_asked d wait4 junk options m hpid hinfo hverify]
    simp only [hinfo, hverify, hpid, ne_eq, not_false_eq_true, forall_const, Option.some.injEq,
      forall_eq']
    cases wait4 pid (waitOptions options) with
    | reported | nobody =>
      simp only [statusOf, Option.some.injEq, forall_eq']
      exact hput ..
    | failed errno pos => exact ⟨fun _ status h => absurd h nofun, fun _ => inRange_pure _⟩

end

/-! ## All of them -/

/-- A call stays inside the tables exactly under its condition. -/
theorem signal_access_in_range_iff (k : Kernel K) (d : Domain) (p : Pages)
    (wait4 : Word → Word → Wait4) (s : Proc K) (c : Call) :
    InRange (c.run k d p wait4 s) ↔ c.Bounded p wait4 s.mem := by
  have hdrop : ∀ {α : Type} (r : Res α), InRange (do let _ ← r) ↔ InRange r := by
    intro α r
    rw [inRange_bind]
    exact ⟨fun h => h.1, fun h => ⟨h, fun _ _ => inRange_pure _⟩⟩
  cases c with
  | mapBitvec vec => exact (hdrop _).trans (iff_true_intro (mapMembers_inRange ..))
  | mapSigvecFromKernel vec => exact (hdrop _).trans (iff_true_intro (mapMembers_inRange ..))
  | mapSigvecToKernel vec => exact (hdrop _).trans (iff_true_intro (mapMembers_inRange ..))
  | abiMapsig sig => exact (hdrop _).trans (iff_true_intro (abiMapsig_inRange ..))
  | abiKill pid sig => exact (hdrop _).trans (abiKill_inRange_iff ..)
  | abiSigaction locals signum action oldaction =>
    exact (hdrop _).trans (iff_true_intro (abiSigaction_inRange ..))
  | xnxSigaction locals signum action oldaction =>
    exact (hdrop _).trans (xnxSigaction_inRange_iff ..)
  | abiSigprocmask how abinset abioset => exact (hdrop _).trans (abiSigprocmask_inRange_iff ..)
  | abiWait xenix junk regs => exact (hdrop _).trans (iff_true_intro (abiWait_inRange ..))
  | wyseWait3 loc => exact (hdrop _).trans (wyseWait3_inRange_iff ..)
  | svr4Waitid junk idtype id infop options => exact (hdrop _).trans (svr4Waitid_inRange_iff ..)

/-- A kernel to which nothing happens. -/
def idleKernel : Kernel Unit where
  rtSigaction _ _ s := (0, ⟨0, 0, 0, 0⟩, s)
  rtSigprocmask _ _ s := (0, 0, s)
  kill _ _ s := (0, s)

/-- `kill(1, 200)` looks up entry 200 of a table of 33. -/
theorem kill_out_of_range : ¬ InRange ((Call.abiKill 1 200).run idleKernel (domain .sco)
    Pages.everywhere (fun _ _ => .nobody) ⟨(), fun _ => 0⟩) := by
  show ¬ InRange (abiKill idleKernel (domain .sco) 1 200 ⟨(), fun _ => 0⟩ >>= fun _ => pure ())
  rw [inRange_bind, abiKill_inRange_iff]
  exact fun h => nomatch h.1

end AbiEmu.Signal
