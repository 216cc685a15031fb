import AbiEmu.Signal.Masks

/-!
# The flags of an action

`abi_sigaction` translates six flags of the program's `sa_flags` and ors them into
`nsa.sa_flags`, a local that nothing was stored in before. So the kernel is given the image of
the program's flags and, beside it, whatever the stack held. `xnx_sigaction`, which does the
same for one flag, sets the member to zero first.
-/

namespace AbiEmu.Signal

open Lcall7 (Personality)
open Bits (or_eq_right_iff)

variable {K : Type}

/-- The arguments of a call. -/
structure SigactionArgs where
  signum : Word
  action : Word
  oldaction : Word

/-- The six flags, as a program writes them. -/
def sixFlags : Word := 0x30017

/-- The image of a flag word: the kernel's flags for those of the six that are set. -/
def flagImage (f : Word) : Word := passFlags abiLayout.flagPairs f 0

/-- A kernel that answers `reply` and notes what it is given. -/
def noting (reply : Int × SigAction) : Kernel (List (Word × Option SigAction)) where
  rtSigaction sig act log := (reply.1, reply.2, log ++ [(sig, act)])
  rtSigprocmask _ _ log := (0, 0, log)
  kill _ _ log := (0, log)

/-- The kernel keeps handler and flags of an action it installs. -/
def Linux.KeepsActions (k : Linux K) : Prop := ∀ sig act s, Settable sig →
  let kept := k.action (k.rtSigaction sig (some act) s).2.2 sig
  kept.handler = act.handler ∧ kept.flags = act.flags

/-- The handler and the flags the second call reports. -/
def ActionCalls.reported {d : Domain} {p : Pages} {m : Mem} {v : Word}
    (a : ActionCalls d p m v abiLayout) (k : Kernel K) (kernel : K) :
    Res (Option (Word × Word)) := do
  let (error, s) ← abiSigaction k d p a.locals a.signum a.action a.oldaction ⟨kernel, m⟩
  let (error', s) ← abiSigaction k d p a.locals' a.signum 0 a.oldaction' s
  pure (if error = 0 ∧ error' = 0 then
    some (s.mem.slot a.oldaction' (abiLayout.index .handler),
      s.mem.slot a.oldaction' (abiLayout.index .flags))
  else none)

section

variable (d : Domain) (p : Pages) (m : Mem) (c : SigactionArgs)

/-- What `abi_sigaction` gives to the kernel. -/
def given (locals : Locals) (reply : Int × SigAction) : Res (List (Word × Option SigAction)) :=
  (abiSigaction (noting reply) d p locals c.signum c.action c.oldaction ⟨[], m⟩).map (·.2.kernel)

/-- The program's flags. -/
def SigactionArgs.flags : Word := m.slot c.action (abiLayout.index .flags)

/-- Two calls that differ in what their locals hold give the kernel the same, the flags are
the image of the program's, and what either of them installs is what a later call reports. -/
structure ExactFlags (k : Linux K) (locals locals' : Locals) : Prop where
  same : ∀ reply, given d p m c locals reply = given d p m c locals' reply
  image : ∀ reply log sig act, given d p m c locals reply = .ok log → (sig, some act) ∈ log →
    act.flags = flagImage (c.flags m)
  back : ∀ kernel v (a : ActionCalls d p m v abiLayout), a.signum = c.signum →
    a.action = c.action → a.oldaction = c.oldaction → (a.locals = locals ∨ a.locals = locals') →
    a.reported k.toKernel kernel =
      .ok (some (m.slot c.action (abiLayout.index .handler), c.flags m &&& sixFlags))

/-- The call gets to the kernel with an action. -/
structure SigactionArgs.Installs : Prop where
  mapped : ∃ signo, abiMapsig d c.signum = .ok signo ∧ signo ≠ -1
  oldaction : ¬ (c.oldaction ≠ 0 ∧ p.verifyWrite c.oldaction abiLayout.size = false)
  action : c.action ≠ 0
  readable : p.canRead c.action abiLayout.size = true

end

/-! ## The two ladders -/

/-- What was in the word before stays there. -/
theorem passFlags_or (pairs : List (Word × Word)) (f acc : Word) :
    passFlags pairs f acc = acc ||| passFlags pairs f 0 := by
  induction pairs generalizing acc with
  | nil => exact BitVec.or_zero.symm
  | cons q pairs ih =>
    have hcons : ∀ acc, passFlags (q :: pairs) f acc =
        (if f &&& q.1 ≠ 0 then acc ||| q.2 else acc) ||| passFlags pairs f 0 := fun _ => ih _
    rw [hcons, hcons 0]
    split <;> simp [BitVec.or_assoc]

/-- There and back: the six flags. -/
theorem flagImage_back (f : Word) :
    passFlags (abiLayout.flagPairs.map Prod.swap) (flagImage f) 0 = f &&& sixFlags := by
  have hmask : sixFlags = BitVec.twoPow 32 0 ||| BitVec.twoPow 32 1 ||| BitVec.twoPow 32 2 |||
      BitVec.twoPow 32 4 ||| BitVec.twoPow 32 16 ||| BitVec.twoPow 32 17 := by decide
  have hsix : flagImage f = flagImage (f &&& sixFlags) := by
    simp only [flagImage, passFlags, abiLayout, List.foldl, BitVec.and_assoc]
    rfl
  -- only the six bits matter on either side, and there are 64 choices of them
  rw [hsix, hmask]
  simp only [BitVec.and_or_distrib_left, BitVec.and_twoPow]
  generalize f.getLsbD 0 = b0, f.getLsbD 1 = b1, f.getLsbD 2 = b2, f.getLsbD 4 = b4,
    f.getLsbD 16 = b16, f.getLsbD 17 = b17
  revert b0 b1 b2 b4 b16 b17
  decide +kernel

/-! ## What the kernel is given -/

section

variable {d : Domain} {p : Pages} {m : Mem} {c : SigactionArgs}

theorem reportAction_kernel (l : Layout) (resv : Fin 2 → Word) (oldaction : Word) (osa : SigAction)
    (s : Proc K) : (reportAction d p l resv oldaction osa s).map (·.2.kernel) = .ok s.kernel := by
  obtain ⟨r, hr, -⟩ := mapSigvecFromKernel_bits osa.mask d.signalInvmap
  simp only [reportAction, hr, bind, Except.bind]
  split <;> rfl

/-- The call of the kernel, if it is made. -/
theorem given_eq (locals : Locals) (reply : Int × SigAction) :
    given d p m c locals reply = (abiMapsig d c.signum).bind fun signo =>
      if signo = -1 then .ok []
      else if c.oldaction ≠ 0 ∧ p.verifyWrite c.oldaction abiLayout.size = false then .ok []
      else if c.action ≠ 0 ∧ p.canRead c.action abiLayout.size = false then .ok []
      else (newAction d abiLayout locals.flags c.action m).map fun nsa => [(signo, nsa)] := by
  unfold given abiSigaction changeAction
  cases abiMapsig d c.signum with
  | error => rfl
  | ok signo =>
    simp only [bind, Except.bind]
    split_ifs
    iterate 3 rfl
    · cases newAction d abiLayout locals.flags c.action m with
      | error => rfl
      | ok nsa =>
        dsimp only
        split
        · rfl
        · exact reportAction_kernel ..

theorem given_installs (h : c.Installs d p) : ∃ signo set, ∀ locals reply,
    given d p m c locals reply = .ok [(signo, some ⟨m.slot c.action (abiLayout.index .handler), 0,
      locals.flags ||| flagImage (c.flags m), set⟩)] := by
  obtain ⟨signo, hsigno, hne⟩ := h.mapped
  obtain ⟨set, hset, -⟩ := newAction_some 0 h.action m
  refine ⟨signo, set, fun locals reply => ?_⟩
  obtain ⟨set', hset', hnew⟩ := newAction_some locals.flags h.action m
  obtain rfl := Except.ok.inj (hset.symm.trans hset')
  rw [given_eq, hsigno, hnew, passFlags_or]
  show (if _ then _ else _) = _
  rw [if_neg hne, if_neg h.oldaction,
    if_neg fun hno => Bool.false_ne_true (hno.2.symm.trans h.readable)]
  rfl

/-- Otherwise it is given no action, and the locals do not matter. -/
theorem given_quiet (h : ¬ c.Installs d p) (locals locals' : Locals) (reply : Int × SigAction) :
    given d p m c locals reply = given d p m c locals' reply ∧
      ∀ log sig act, given d p m c locals reply = .ok log → (sig, some act) ∉ log := by
  rw [given_eq, given_eq]
  cases hmap : abiMapsig d c.signum with
  | error =>
    refine ⟨rfl, ?_⟩
    rintro _ _ _ ⟨⟩
  | ok signo =>
    simp only [Except.bind]
    have hnil : ∀ log sig act, (.ok [] : Res (List (Word × Option SigAction))) = .ok log →
        (sig, some act) ∉ log := by
      rintro _ sig act ⟨⟩
      exact List.not_mem_nil
    split_ifs with hsig hold hact
    iterate 3 exact ⟨rfl, hnil⟩
    · by_cases hzero : c.action = 0
      · rw [newAction, newAction, if_pos hzero, if_pos hzero]
        refine ⟨rfl, ?_⟩
        rintro _ sig act ⟨⟩ hmem
        exact Option.some_ne_none act (Prod.mk.inj (List.mem_singleton.mp hmem)).2
      · exact absurd ⟨⟨signo, hmap, hsig⟩, hold, hzero,
          Bool.eq_true_of_not_eq_false fun hno => hact ⟨hzero, hno⟩⟩ h

variable {k : Linux K} {v : Word}

/-- A call that installs and a later one that reports: the flags come back of what the
kernel was given. -/
theorem ActionCalls.reported_eq (hk : k.KeepsActions) (a : ActionCalls d p m v abiLayout)
    (kernel : K) : a.reported k.toKernel kernel = .ok (some
      (m.slot a.action (abiLayout.index .handler), passFlags (abiLayout.flagPairs.map Prod.swap)
        (a.locals.flags ||| passFlags abiLayout.flagPairs
          (m.slot a.action (abiLayout.index .flags)) 0) 0)) := by
  obtain ⟨set, hset, -⟩ := newAction_some (d := d) 0 a.action_ne m
  obtain ⟨s', hinstall, hkernel⟩ := changeAction_install k a.locals.flags a.locals.resv kernel
    (by decide) a.signum_settable a.action_ne a.action_readable a.oldaction_ok hset
  obtain ⟨r, s'', -, hinspect, hwords⟩ := changeAction_inspect (d := d) k a.locals'.flags
    a.locals'.resv s' (by decide) a.signum_settable a.oldaction'_ne a.oldaction'_writable
  obtain ⟨hhandler, hflags⟩ := hk _ _ kernel a.signum_settable
  rw [hkernel, hhandler, hflags] at hwords
  simp only [reported, a.abi_looks_up, hinstall, hinspect, bind, Except.bind, pure, Except.pure,
    and_self, if_true]
  rw [hwords rfl, hwords rfl, passFlags_or]

theorem ActionCalls.installs (a : ActionCalls d p m v abiLayout) (hs : a.signum = c.signum)
    (ha : a.action = c.action) (ho : a.oldaction = c.oldaction) :
    c.Installs d p := by
  refine ⟨⟨_, hs ▸ a.abiMapsig_eq⟩, ?_, ha ▸ a.action_ne, ha ▸ a.action_readable⟩
  rintro ⟨hne, hverify⟩
  rw [← ho] at hne hverify
  exact Bool.false_ne_true (hverify.symm.trans
    (Pages.verifyWrite_of_canWrite (a.oldaction_ok.resolve_left hne)))

end

/-- The kernel is given exactly the program's flags if, whenever it is given an action, the
stack held nothing there but flags the program has set. -/
theorem exactFlags_iff (k : Linux K) (hk : k.KeepsActions) (dom : Personality) (p : Pages)
    (m : Mem) (c : SigactionArgs) (locals locals' : Locals) :
    ExactFlags (domain dom) p m c k locals locals' ↔ (c.Installs (domain dom) p →
      locals.flags &&& ~~~flagImage (c.flags m) = 0 ∧
        locals'.flags &&& ~~~flagImage (c.flags m) = 0) := by
  constructor
  · intro h hi
    obtain ⟨signo, set, hgiven⟩ := given_installs hi
    have hwithin : ∀ l, given (domain dom) p m c locals (0, ⟨0, 0, 0, 0⟩) =
        given (domain dom) p m c l (0, ⟨0, 0, 0, 0⟩) →
        l.flags &&& ~~~flagImage (c.flags m) = 0 := fun l hl =>
      or_eq_right_iff.mp (h.image _ _ _ _ (hl.trans (hgiven l _)) (List.mem_singleton_self _))
    exact ⟨hwithin locals rfl, hwithin locals' (h.same _)⟩
  · intro h
    by_cases hi : c.Installs (domain dom) p
    · obtain ⟨signo, set, hgiven⟩ := given_installs hi
      obtain ⟨hin, hin'⟩ := h hi
      rw [← or_eq_right_iff] at hin hin'
      refine ⟨fun reply => ?_, fun reply log sig act hlog hmem => ?_,
        fun kernel v a hs ha ho hl => ?_⟩
      · rw [hgiven, hgiven, hin, hin']
      · rw [hgiven, hin] at hlog
        obtain rfl := Except.ok.inj hlog
        obtain rfl := Option.some.inj (Prod.mk.inj (List.mem_singleton.mp hmem)).2
        rfl
      · have hla : a.locals.flags ||| flagImage (c.flags m) = flagImage (c.flags m) := by
          rcases hl with hl | hl
          · rw [hl, hin]
          · rw [hl, hin']
        rw [a.reported_eq hk, ha, ← flagImage_back, ← hla]
        rfl
    · have hquiet := given_quiet (m := m) hi locals locals'
      exact ⟨fun reply => (hquiet reply).1,
        fun reply log sig act hlog hmem => absurd hmem ((hquiet reply).2 log sig act hlog),
        fun kernel v a hs ha ho => absurd (a.installs hs ha ho) hi⟩

theorem plainLinux_keeps : plainLinux.KeepsActions := fun _ _ _ _ => by simp [plainLinux]

/-- `sigaction(SIGUSR1, 0x1000, NULL)`. -/
def setUsr1 : SigactionArgs := ⟨IBCS_SIGUSR1, 0x1000, 0⟩

/-- A stack with the word `f` where the flags go. -/
def leftover (f : Word) : Locals := ⟨f, fun _ => 0⟩

/-- A structure with `SA_NOCLDSTOP` is installed as it is, also where the stack holds that
flag. -/
theorem exactFlags_nocldstop :
    ExactFlags (domain .sco) Pages.everywhere (Mem.store (fun _ => 0) 0x1000 [0, 0, 2])
      setUsr1 plainLinux (leftover SA_NOCLDSTOP) (leftover 0) :=
  (exactFlags_iff plainLinux plainLinux_keeps .sco Pages.everywhere _ setUsr1 _ _).mpr
    fun _ => ⟨by decide +kernel, by decide +kernel⟩

/-- With the kernel's `SA_NODEFER` on the stack, a structure of zeros is installed with that
flag. -/
theorem sigaction_flags_leak :
    given (domain .sco) Pages.everywhere (fun _ => 0) setUsr1 (leftover SA_NODEFER)
      (0, ⟨0, 0, 0, 0⟩) = .ok [(10, some ⟨0, 0, SA_NODEFER, 0⟩)] ∧
    ¬ ExactFlags (domain .sco) Pages.everywhere (fun _ => 0) setUsr1 plainLinux
      (leftover SA_NODEFER) (leftover 0) := by
  have hgiven : given (domain .sco) Pages.everywhere (fun _ => 0) setUsr1 (leftover SA_NODEFER)
      (0, ⟨0, 0, 0, 0⟩) = .ok [(10, some ⟨0, 0, SA_NODEFER, 0⟩)] := by rfl
  refine ⟨hgiven, fun h => ?_⟩
  have hflags := h.image _ _ _ _ hgiven (List.mem_singleton_self _)
  exact absurd hflags (by decide +kernel)

end AbiEmu.Signal
