import AbiEmu.Signal.Status

/-!
# What a parent is told about a child

A parent asks for its children with one of three calls. Each should tell it the
fate of the child that was reported, with its own number of the signal, and
leave its memory alone where no child was. `ParentTold` says this of all three;
as each then tells `Fate.told`, they agree.

Which fates a call tells right is a matter of the status word (`Status.lean`).
The word is also rewritten when nobody was reported: it is then the program's
own, and stays only if the table takes the signal it seems to name to itself.
`svr4_waitid` in that case fills the `siginfo` from a local that was never set,
for which no content is excluded here.
-/

namespace AbiEmu.Signal

open Lcall7 (PtRegs Personality)

/-- The kernel's answer to a `wait4`. -/
inductive Answer where
  | child (pid : Int) (pos : 0 < pid) (fate : Fate)
  | nobody
  | failed (errno : Int) (pos : 0 < errno)

def Answer.wait4 : Answer → Wait4
  | .child pid pos fate => .reported pid pos fate.status
  | .nobody => .nobody
  | .failed errno pos => .failed errno pos

/-- A process and the arguments with which it makes each of the three calls. -/
structure WaitCalls where
  pages : Pages
  mem : Mem
  /-- `is_cur_personality(PER_XENIX)`. -/
  xenix : Bool
  regs : PtRegs
  loc : Word
  idtype : Word
  id : Word
  infop : Word
  options : Word

/-- The status pointer of the `abi_wait`. -/
def WaitCalls.abiLoc (c : WaitCalls) : Word :=
  if c.regs.eflags &&& magicWaitpidFlag = magicWaitpidFlag then
    c.pages.getUser c.mem (c.regs.esp + 8)
  else c.pages.getUser c.mem (c.regs.esp + 4)

variable (d : Domain) (c : WaitCalls)

/-- `abi_wait` tells the fate of the child in the status word, or for Xenix in
`edx`; without a child it leaves memory alone. -/
def AbiWaitTells (a : Answer) : Prop :=
  ∀ junk, ∃ result regs m,
    abiWait d c.pages (fun _ _ => a.wait4) c.xenix junk c.regs c.mem = .ok (result, regs, m) ∧
    match a with
    | .child _ _ fate =>
      if 0 < result then
        if c.xenix then Report.ofStatus regs.edx = fate.told d
        else c.abiLoc ≠ 0 → Report.ofStatus (m.word c.abiLoc) = fate.told d
      else m = c.mem
    | _ => m = c.mem

/-- The same of `wyse_wait3`. -/
def WyseWait3Tells (a : Answer) : Prop :=
  ∃ result m, wyseWait3 d c.pages (fun _ _ => a.wait4) c.loc c.mem = .ok (result, m) ∧
    match a with
    | .child _ _ fate =>
      if 0 < result then c.loc ≠ 0 → Report.ofStatus (m.word c.loc) = fate.told d
      else m = c.mem
    | _ => m = c.mem

/-- The `svr4_waitid` is a valid request with a `siginfo` to fill. -/
def WaitCalls.Asks : Prop :=
  waitidPid c.idtype c.id ≠ none ∧ c.infop ≠ 0 ∧
    c.pages.verifyWrite c.infop siginfoSize = true

/-- The same of `svr4_waitid`, which tells in the `siginfo`. -/
def Svr4WaitidTells (a : Answer) : Prop :=
  ∀ junk, ∃ result m,
    svr4Waitid d c.pages (fun _ _ => a.wait4) junk c.idtype c.id c.infop c.options c.mem =
      .ok (result, m) ∧
    match a with
    | .child _ _ fate =>
      c.Asks → c.pages.canWrite c.infop siginfoSize = true →
        Report.ofSiginfo (m.word (c.infop + 4)) (m.word (c.infop + 20)) = some (fate.told d)
    | _ => m = c.mem

/-- All three calls tell the parent the same, and that is the truth. -/
def ParentTold (a : Answer) : Prop :=
  AbiWaitTells d c a ∧ WyseWait3Tells d c a ∧ Svr4WaitidTells d c a

/-! ## When they do -/

/-- The condition for `abi_wait`. -/
def AbiWaitRight : Answer → Prop
  | .child _ _ fate =>
    if c.xenix then fate.RawRight d
    else c.abiLoc ≠ 0 → c.pages.canWrite c.abiLoc 4 = true → fate.WordRight d
  | .nobody => c.xenix = false → c.abiLoc ≠ 0 → c.pages.canWrite c.abiLoc 4 = true →
    Stays d 32 (c.mem.word c.abiLoc)
  | .failed _ _ => True

/-- The condition for `wyse_wait3`. -/
def WyseWait3Right : Answer → Prop
  | .child _ _ fate => c.loc ≠ 0 →
    if c.pages.canWrite c.loc 4 then fate.WordRight d
    else InTable (c.pages.getUser c.mem c.loc)
  | _ => c.loc ≠ 0 → InTable (c.pages.getUser c.mem c.loc) ∧
    (c.pages.canWrite c.loc 4 = true → Stays d 33 (c.mem.word c.loc))

/-- The condition for `svr4_waitid`. -/
def Svr4WaitidRight : Answer → Prop
  | .child _ _ fate => c.Asks → c.pages.canWrite c.infop siginfoSize = true → fate.SiginfoRight
  | .nobody => ¬ c.Asks
  | .failed _ _ => True

/-! ## `abi_wait` and `wyse_wait3` -/

/-- Memory after a rewriting. -/
def afterTold (p : Pages) (loc : Word) (told : Option Word) (m : Mem) : Mem :=
  match told with
  | none => m
  | some w => p.putUser loc w m

variable {p : Pages} {loc : Word}

theorem word_afterTold (hw : p.canWrite loc 4 = true) (told : Option Word) (m : Mem) :
    (afterTold p loc told m).word loc = told.getD (m.word loc) := by
  cases told with
  | none => rfl
  | some w =>
    show (p.putUser loc w m).word loc = w
    rw [Pages.putUser, if_pos hw, Mem.word_store_bytes]

theorem afterTold_eq_self_iff (p : Pages) (loc : Word) (told : Option Word) (m : Mem) :
    afterTold p loc told m = m ↔
      (p.canWrite loc 4 = true → told.getD (m.word loc) = m.word loc) := by
  cases told with
  | none => exact iff_of_true rfl fun _ => rfl
  | some w =>
    show p.putUser loc w m = m ↔ (_ → w = m.word loc)
    unfold Pages.putUser
    split
    next hw =>
      rw [Mem.store_bytes_eq_self_iff, eq_comm]
      exact ⟨fun h _ => h, fun h => h hw⟩
    next hw => exact iff_of_true rfl fun h => absurd h hw

variable {m : Mem}

/-- The word at a place the program may write is the one the kernel reads there. -/
theorem getUser_of_canWrite (hw : p.canWrite loc 4 = true) : p.getUser m loc = m.word loc := by
  rw [Pages.getUser, if_pos (Pages.canRead_of_canWrite hw)]

section

variable (dom : Personality) {p : Pages} {loc : Word} {told : Option Word} {limit : Nat}

/-- What is read where the kernel has stored a status and the call has rewritten it. -/
theorem told_word_iff (hlimit : limit ∈ [32, 33]) (hw : p.canWrite loc 4 = true) (m : Mem)
    {fate : Fate}
    (htold : told.getD fate.status = retold (domain dom).signalMap limit fate.status) :
    Report.ofStatus ((afterTold p loc told (m.store loc fate.status.bytes)).word loc) =
        fate.told (domain dom) ↔ fate.WordRight (domain dom) := by
  rw [word_afterTold hw, Mem.word_store_bytes, htold]
  exact fate.ofStatus_retold_iff dom hlimit

/-- What is left of memory where the kernel has stored nothing. -/
theorem told_kept_iff (hlimit : limit ≤ 33)
    (htold : told.getD (p.getUser m loc) = retold (domain dom).signalMap limit (p.getUser m loc)) :
    afterTold p loc told m = m ↔
      (p.canWrite loc 4 = true → Stays (domain dom) limit (m.word loc)) := by
  rw [afterTold_eq_self_iff]
  refine forall_congr' fun hw => ?_
  rw [getUser_of_canWrite hw] at htold
  rw [htold, retold_eq_self_iff dom hlimit]

end

variable {pid : Int}

/-- The kernel stores the status of a child where it may. -/
theorem Answer.toUser_stored (hloc : loc ≠ 0) (hw : p.canWrite loc 4 = true) (m : Mem)
    (pos : 0 < pid) (fate : Fate) :
    (Answer.child pid pos fate).wait4.toUser p loc m = (pid, m.store loc fate.status.bytes) := by
  simp only [Answer.wait4, Wait4.toUser, if_neg hloc, if_pos hw]

theorem Answer.toUser_refused (hloc : loc ≠ 0) (hw : ¬ p.canWrite loc 4 = true) (m : Mem)
    (pos : 0 < pid) (fate : Fate) :
    (Answer.child pid pos fate).wait4.toUser p loc m = (-EFAULT, m) := by
  simp only [Answer.wait4, Wait4.toUser, if_neg hloc, if_neg hw]

section

variable {d : Domain} {p : Pages} {a : Wait4} {loc : Word} {m : Mem} {told : Option Word}

theorem wyseWait3_null : wyseWait3 d p (fun _ _ => a) 0 m = .ok (a.toUser p 0 m) := rfl

theorem wyseWait3_ok (hloc : loc ≠ 0)
    (htold : retell d.signalMap none (wordAt p loc m a) = .ok told) :
    wyseWait3 d p (fun _ _ => a) loc m =
      .ok ((a.toUser p loc m).1, afterTold p loc told (a.toUser p loc m).2) := by
  unfold wyseWait3
  dsimp only
  rw [if_neg hloc, getUser_toUser p hloc, htold]
  cases told <;> rfl

theorem wyseWait3_inTable {r : Int × Mem} (hloc : loc ≠ 0)
    (h : wyseWait3 d p (fun _ _ => a) loc m = .ok r) : InTable (wordAt p loc m a) := by
  have hin : InRange (wyseWait3 d p (fun _ _ => a) loc m) := by
    rw [h]
    exact inRange_ok r
  exact (wyseWait3_inRange_iff d p (fun _ _ => a) loc m).mp hin hloc

end

/-- A call for which the kernel stores nothing leaves memory alone exactly if the
word that is there stays. -/
theorem wyseWait3_keeps_iff (dom : Personality) (a : Wait4) (r : Int) (hloc : loc ≠ 0)
    (huser : a.toUser p loc m = (r, m)) (hword : wordAt p loc m a = p.getUser m loc) :
    (∃ result, wyseWait3 (domain dom) p (fun _ _ => a) loc m = .ok (result, m)) ↔
      InTable (p.getUser m loc) ∧
        (p.canWrite loc 4 = true → Stays (domain dom) 33 (m.word loc)) := by
  have hkept : ∀ told, retell (domain dom).signalMap none (p.getUser m loc) = .ok told →
      wyseWait3 (domain dom) p (fun _ _ => a) loc m = .ok (r, afterTold p loc told m) := by
    intro told htold
    rw [← hword] at htold
    rw [wyseWait3_ok hloc htold, huser]
  constructor
  · rintro ⟨result, h⟩
    have hin := wyseWait3_inTable hloc h
    rw [hword] at hin
    obtain ⟨told, htold, hgetD⟩ := retell_unbounded (domain dom).signalMap hin
    rw [hkept told htold, Except.ok.injEq, Prod.mk.injEq] at h
    exact ⟨hin, (told_kept_iff dom (by omega) hgetD).mp h.2⟩
  · rintro ⟨hin, hstays⟩
    obtain ⟨told, htold, hgetD⟩ := retell_unbounded (domain dom).signalMap hin
    refine ⟨r, ?_⟩
    rw [hkept told htold, (told_kept_iff dom (by omega) hgetD).mpr hstays]

variable {result : Int}

/-- The result of `wyse_wait3` is the kernel's. -/
theorem wyseWait3_result {d : Domain} {a : Wait4} {m m' : Mem} (hloc : loc ≠ 0)
    (h : wyseWait3 d p (fun _ _ => a) loc m = .ok (result, m')) :
    result = (a.toUser p loc m).1 := by
  obtain ⟨told, htold, -⟩ := retell_unbounded d.signalMap (wyseWait3_inTable hloc h)
  rw [wyseWait3_ok hloc htold, Except.ok.injEq, Prod.mk.injEq] at h
  exact h.1.symm

/-- `wyse_wait3` tells the truth exactly under its condition. -/
theorem wyseWait3_tells_iff (dom : Personality) (c : WaitCalls) (a : Answer) :
    WyseWait3Tells (domain dom) c a ↔ WyseWait3Right (domain dom) c a := by
  unfold WyseWait3Tells WyseWait3Right
  by_cases hloc : c.loc = 0
  · -- nothing is asked for and nothing is stored
    rw [hloc, wyseWait3_null]
    cases a with
    | child pid pos fate =>
      refine iff_of_true ⟨pid, c.mem, rfl, ?_⟩ fun h => absurd rfl h
      show if 0 < pid then _ else _
      rw [if_pos pos]
      exact fun h => absurd rfl h
    | nobody | failed => exact iff_of_true ⟨_, c.mem, rfl, rfl⟩ fun h => absurd rfl h
  cases a with
  | child pid pos fate =>
    by_cases hw : c.pages.canWrite c.loc 4 = true
    · have huser := Answer.toUser_stored hloc hw c.mem pos fate
      have hword : wordAt c.pages c.loc c.mem (Answer.child pid pos fate).wait4 = fate.status :=
        if_pos hw
      obtain ⟨told, htold, hgetD⟩ := retell_unbounded (domain dom).signalMap fate.inTable
      rw [← hword] at htold
      have htells := told_word_iff dom (by simp) hw c.mem hgetD
      rw [wyseWait3_ok hloc htold, huser]
      simp only [Except.ok.injEq, Prod.mk.injEq, if_pos hw]
      constructor
      · rintro ⟨result, m, ⟨rfl, rfl⟩, h⟩ _
        rw [if_pos pos] at h
        exact htells.mp (h hloc)
      · intro h
        refine ⟨_, _, ⟨rfl, rfl⟩, ?_⟩
        rw [if_pos pos]
        exact fun _ => htells.mpr (h hloc)
    · have huser := Answer.toUser_refused hloc hw c.mem pos fate
      have hkeeps := wyseWait3_keeps_iff dom _ _ hloc huser (if_neg hw)
      dsimp only
      rw [if_neg hw]
      constructor
      · rintro ⟨result, m, h, hm⟩ _
        obtain rfl : result = -EFAULT := by rw [wyseWait3_result hloc h, huser]
        exact (hkeeps.mp ⟨_, hm ▸ h⟩).1
      · intro h
        obtain ⟨result, h⟩ := hkeeps.mpr ⟨h hloc, fun hw' => absurd hw' hw⟩
        obtain rfl : result = -EFAULT := by rw [wyseWait3_result hloc h, huser]
        exact ⟨_, c.mem, h, by rw [if_neg (by decide)]⟩
  | nobody =>
    have hkeeps := wyseWait3_keeps_iff (p := c.pages) (m := c.mem) dom Answer.nobody.wait4 0
      hloc rfl rfl
    exact ⟨fun ⟨result, m, h, hm⟩ _ => hkeeps.mp ⟨result, hm ▸ h⟩,
      fun h => (hkeeps.mpr (h hloc)).imp fun result h => ⟨c.mem, h, rfl⟩⟩
  | failed errno pos =>
    have hkeeps := wyseWait3_keeps_iff (p := c.pages) (m := c.mem) dom
      (Answer.failed errno pos).wait4 (-errno) hloc rfl rfl
    exact ⟨fun ⟨result, m, h, hm⟩ _ => hkeeps.mp ⟨result, hm ▸ h⟩,
      fun h => (hkeeps.mpr (h hloc)).imp fun result h => ⟨c.mem, h, rfl⟩⟩

section

variable (d : Domain) {c : WaitCalls} (a : Wait4) (junk : Word) (told : Option Word)

theorem abiWaitCall_const (c : WaitCalls) (a : Wait4) :
    abiWaitCall c.pages (fun _ _ => a) c.regs c.mem = (c.abiLoc, a) := by
  unfold abiWaitCall WaitCalls.abiLoc
  split <;> rfl

theorem abiWait_xenix (hx : c.xenix = true) :
    abiWait d c.pages (fun _ _ => a) c.xenix junk c.regs c.mem =
      .ok ((a.toLocal junk).1, { c.regs with edx := (a.toLocal junk).2 }, c.mem) := by
  unfold abiWait
  rw [if_pos hx]
  rfl

/-- A failed call, or one that does not ask for the status. -/
theorem abiWait_early (hx : c.xenix = false)
    (h : (a.toUser c.pages c.abiLoc c.mem).1 < 0 ∨ c.abiLoc = 0) :
    abiWait d c.pages (fun _ _ => a) c.xenix junk c.regs c.mem =
      .ok ((a.toUser c.pages c.abiLoc c.mem).1, c.regs, (a.toUser c.pages c.abiLoc c.mem).2) := by
  unfold abiWait
  rw [hx, if_neg Bool.false_ne_true, abiWaitCall_const]
  dsimp only
  rw [if_pos h]
  rfl

theorem abiWait_ok (hx : c.xenix = false) (hres : 0 ≤ (a.toUser c.pages c.abiLoc c.mem).1)
    (hloc : c.abiLoc ≠ 0)
    (htold : retell d.signalMap (some nsignals) (wordAt c.pages c.abiLoc c.mem a) = .ok told) :
    ∃ regs, abiWait d c.pages (fun _ _ => a) c.xenix junk c.regs c.mem =
      .ok ((a.toUser c.pages c.abiLoc c.mem).1, regs,
        afterTold c.pages c.abiLoc told (a.toUser c.pages c.abiLoc c.mem).2) := by
  unfold abiWait
  rw [hx, if_neg Bool.false_ne_true, abiWaitCall_const]
  dsimp only
  rw [if_neg fun h => h.elim (by omega) hloc, getUser_toUser c.pages hloc, htold]
  cases told <;> exact ⟨_, rfl⟩

end

variable {c : WaitCalls}

/-- A Xenix `wait` hands the kernel's word on. -/
theorem abiWait_tells_xenix (dom : Personality) (hx : c.xenix = true) (a : Answer) :
    AbiWaitTells (domain dom) c a ↔ AbiWaitRight (domain dom) c a := by
  have heq := fun junk => abiWait_xenix (domain dom) a.wait4 junk hx
  rw [hx] at heq
  unfold AbiWaitTells AbiWaitRight
  simp only [hx, heq, Except.ok.injEq, Prod.mk.injEq]
  cases a with
  | child pid pos fate =>
    have htells := fate.ofStatus_iff (domain dom)
    constructor
    · intro h
      obtain ⟨result, regs, m, ⟨rfl, rfl, rfl⟩, hreport⟩ := h 0
      change if 0 < pid then _ else _ at hreport
      rw [if_pos pos] at hreport
      exact htells.mp hreport
    · intro h junk
      refine ⟨_, _, _, ⟨rfl, rfl, rfl⟩, ?_⟩
      show if 0 < pid then _ else _
      rw [if_pos pos]
      exact htells.mpr h
  | nobody => exact iff_of_true (fun junk => ⟨_, _, _, ⟨rfl, rfl, rfl⟩, rfl⟩) nofun
  | failed errno pos => exact iff_of_true (fun junk => ⟨_, _, _, ⟨rfl, rfl, rfl⟩, rfl⟩) trivial

/-- A child whose status the kernel could store. -/
theorem abiWait_tells_stored (dom : Personality) (hx : c.xenix = false) (hloc : c.abiLoc ≠ 0)
    (hw : c.pages.canWrite c.abiLoc 4 = true) (pos : 0 < pid) (fate : Fate) :
    AbiWaitTells (domain dom) c (.child pid pos fate) ↔ fate.WordRight (domain dom) := by
  have huser := Answer.toUser_stored hloc hw c.mem pos fate
  have hword : wordAt c.pages c.abiLoc c.mem (Answer.child pid pos fate).wait4 = fate.status :=
    if_pos hw
  obtain ⟨told, htold, hgetD⟩ := retell_bounded (domain dom).signalMap fate.status
  have htells := told_word_iff dom (by simp) hw c.mem hgetD
  have hcall := fun junk => abiWait_ok (domain dom) (Answer.child pid pos fate).wait4 junk told hx
    (by rw [huser]; exact Int.le_of_lt pos) hloc (by rw [hword]; exact htold)
  simp only [huser] at hcall
  constructor
  · intro h
    obtain ⟨result, regs, m, hres, hreport⟩ := h 0
    obtain ⟨regs', hregs⟩ := hcall 0
    rw [hregs, Except.ok.injEq, Prod.mk.injEq, Prod.mk.injEq] at hres
    obtain ⟨rfl, rfl, rfl⟩ := hres
    dsimp only at hreport
    rw [if_pos pos, hx, if_neg Bool.false_ne_true] at hreport
    exact htells.mp (hreport hloc)
  · intro h junk
    obtain ⟨regs, hregs⟩ := hcall junk
    refine ⟨_, _, _, hregs, ?_⟩
    dsimp only
    rw [if_pos pos, hx, if_neg Bool.false_ne_true]
    exact fun _ => htells.mpr h

/-- Nobody reported, and a status pointer. -/
theorem abiWait_tells_nobody (dom : Personality) (hx : c.xenix = false) (hloc : c.abiLoc ≠ 0) :
    AbiWaitTells (domain dom) c .nobody ↔
      (c.pages.canWrite c.abiLoc 4 = true → Stays (domain dom) 32 (c.mem.word c.abiLoc)) := by
  obtain ⟨told, htold, hgetD⟩ := retell_bounded (domain dom).signalMap
    (c.pages.getUser c.mem c.abiLoc)
  have hcall := fun junk => abiWait_ok (domain dom) Answer.nobody.wait4 junk told hx
    (Int.le_refl 0) hloc htold
  have hkept := told_kept_iff dom (by omega) hgetD
  constructor
  · intro h
    obtain ⟨result, regs, m, hres, rfl⟩ := h 0
    obtain ⟨regs', hregs⟩ := hcall 0
    rw [hregs, Except.ok.injEq, Prod.mk.injEq, Prod.mk.injEq] at hres
    exact hkept.mp hres.2.2
  · intro h junk
    obtain ⟨regs, hregs⟩ := hcall junk
    exact ⟨_, _, _, hregs, hkept.mpr h⟩

/-- `abi_wait` tells the truth exactly under its condition. -/
theorem abiWait_tells_iff (dom : Personality) (c : WaitCalls) (a : Answer) :
    AbiWaitTells (domain dom) c a ↔ AbiWaitRight (domain dom) c a := by
  cases hx : c.xenix with
  | true => exact abiWait_tells_xenix dom hx a
  | false =>
    have hearly := fun junk => abiWait_early (domain dom) a.wait4 junk hx
    unfold AbiWaitRight
    cases a with
    | child pid pos fate =>
      dsimp only
      rw [hx, if_neg Bool.false_ne_true]
      by_cases hloc : c.abiLoc = 0
      · refine iff_of_true (fun junk => ⟨_, _, _, hearly junk (.inr hloc), ?_⟩)
          fun h => absurd hloc h
        rw [hloc]
        show if 0 < pid then _ else _
        rw [if_pos pos, hx, if_neg Bool.false_ne_true]
        exact fun h => absurd rfl h
      by_cases hw : c.pages.canWrite c.abiLoc 4 = true
      · rw [abiWait_tells_stored dom hx hloc hw pos fate]
        exact ⟨fun h _ _ => h, fun h => h hloc hw⟩
      · have huser := Answer.toUser_refused hloc hw c.mem pos fate
        rw [huser] at hearly
        have hneg : -EFAULT < 0 := by decide
        exact iff_of_true (fun junk => ⟨_, _, _, hearly junk (.inl hneg), rfl⟩)
          fun _ h => absurd h hw
    | nobody =>
      by_cases hloc : c.abiLoc = 0
      · exact iff_of_true (fun junk => ⟨_, _, _, hearly junk (.inr hloc), rfl⟩)
          fun _ h => absurd hloc h
      · rw [abiWait_tells_nobody dom hx hloc]
        exact ⟨fun h _ _ => h, fun h => h hx hloc⟩
    | failed errno pos =>
      refine iff_of_true (fun junk => ⟨_, _, _, hearly junk (.inl ?_), rfl⟩) trivial
      show -errno < 0
      omega

/-! ## `svr4_waitid` -/

variable {infop : Word}

/-- The stores into a `siginfo`. -/
theorem putSiginfo_ok {d : Domain} {status op st : Word}
    (hcode : childCode d status = .ok (op, st)) :
    putSiginfo d p infop result status m =
      .ok (p.putUser (infop + 20) st (p.putUser (infop + 4) op
        (p.putUser (infop + 12) (BitVec.ofInt 32 result)
          (p.putUser infop (entry d.signalMap 17) m)))) := by
  unfold putSiginfo
  have hchld : readAt d.signalMap SIGCHLD.toInt = .ok (entry d.signalMap 17) :=
    readAt_small d.signalMap (by decide)
  rw [hchld]
  simp [hcode, bind, Except.bind, pure, Except.pure]

/-- The code and number read back from a `siginfo` that could be written. -/
theorem word_putSiginfo (hw : p.canWrite infop siginfoSize = true) (op st : Word) (m : Mem) :
    (p.putUser (infop + 20) st (p.putUser (infop + 4) op m)).word (infop + 4) = op ∧
      (p.putUser (infop + 20) st (p.putUser (infop + 4) op m)).word (infop + 20) = st := by
  have h4 : p.canWrite (infop + 4) 4 = true := Pages.canWrite_part hw (by decide)
  have h20 : p.canWrite (infop + 20) 4 = true := Pages.canWrite_part hw (by decide)
  rw [Pages.putUser, if_pos h20, Pages.putUser, if_pos h4]
  refine ⟨?_, Mem.word_store_bytes ..⟩
  rw [Mem.word_store_apart _ _ _ (by show 4 ≤ _; bv_omega) (by bv_omega), Mem.word_store_bytes]

/-- `svr4_waitid` tells the truth exactly under its condition. -/
theorem svr4Waitid_tells_iff (dom : Personality) (c : WaitCalls) (a : Answer) :
    Svr4WaitidTells (domain dom) c a ↔ Svr4WaitidRight c a := by
  unfold Svr4WaitidTells Svr4WaitidRight
  by_cases hasks : c.Asks
  · obtain ⟨hsome, hinfo, hverify⟩ := id hasks
    obtain ⟨pid, hpid⟩ := Option.ne_none_iff_exists'.mp hsome
    have heq := fun junk => svr4Waitid_asked (domain dom) (fun _ _ => a.wait4) junk c.options
      c.mem hpid hinfo hverify
    cases a with
    | child pid pos fate =>
      obtain ⟨op, st, hcode, htells⟩ := fate.childCode_tells dom
      simp only [Answer.wait4, putSiginfo_ok hcode, bind, Except.bind, pure, Except.pure] at heq
      simp only [Answer.wait4, heq, Except.ok.injEq, Prod.mk.injEq]
      constructor
      · intro h _ hw
        obtain ⟨result, m, ⟨rfl, rfl⟩, hreport⟩ := h 0
        have hreport := hreport hasks hw
        rw [(word_putSiginfo hw op st _).1, (word_putSiginfo hw op st _).2] at hreport
        exact htells.mp hreport
      · intro h junk
        refine ⟨_, _, ⟨rfl, rfl⟩, fun _ hw => ?_⟩
        rw [(word_putSiginfo hw op st _).1, (word_putSiginfo hw op st _).2]
        exact htells.mpr (h hasks hw)
    | nobody =>
      -- a local that holds `0xff01` names entry 255 of the table
      refine iff_of_false (fun h => ?_) fun h => h hasks
      obtain ⟨result, m, hres, -⟩ := h 0xff01
      have hin : InRange (svr4Waitid (domain dom) c.pages (fun _ _ => Answer.nobody.wait4) 0xff01
          c.idtype c.id c.infop c.options c.mem) := by
        rw [hres]
        exact inRange_ok _
      rw [svr4Waitid_inRange_iff] at hin
      exact absurd (hin hinfo hverify pid hpid 0xff01 rfl (by decide)) (by decide)
    | failed errno pos =>
      exact iff_of_true (fun junk => ⟨_, _, heq junk, rfl⟩) trivial
  · have hunasked : waitidPid c.idtype c.id = none ∨ c.infop = 0 ∨
        c.pages.verifyWrite c.infop siginfoSize = false := by
      unfold WaitCalls.Asks at hasks
      rw [not_and_or, not_and_or, not_not, not_not, Bool.not_eq_true] at hasks
      exact hasks
    choose r hr using fun junk => svr4Waitid_unasked (domain dom) (fun _ _ => a.wait4) junk
      c.options c.mem hunasked
    cases a with
    | child pid pos fate =>
      exact iff_of_true (fun junk => ⟨_, _, hr junk, fun h => absurd h hasks⟩)
        fun h => absurd h hasks
    | nobody => exact iff_of_true (fun junk => ⟨_, _, hr junk, rfl⟩) hasks
    | failed => exact iff_of_true (fun junk => ⟨_, _, hr junk, rfl⟩) trivial

/-! ## All three -/

/-- The parent is told the truth, by all three calls, exactly if each of them is
called under its condition. -/
theorem parent_told_iff (dom : Personality) (c : WaitCalls) (a : Answer) :
    ParentTold (domain dom) c a ↔ AbiWaitRight (domain dom) c a ∧
      WyseWait3Right (domain dom) c a ∧ Svr4WaitidRight c a := by
  unfold ParentTold
  rw [abiWait_tells_iff, wyseWait3_tells_iff, svr4Waitid_tells_iff]

/-- A call of each kind: `wait(0x2000)`, `wait3(0x2000)` and
`waitid(P_ALL, 0, 0x3000, 0)`. -/
def sampleCalls : WaitCalls where
  pages := Pages.everywhere
  mem := Mem.store (fun _ => 0) 0x1004 (Word.bytes 0x2000)
  xenix := false
  regs := ⟨0, 0, 0, 0x1000⟩
  loc := 0x2000
  idtype := 7
  id := 0
  infop := 0x3000
  options := 0

/-- A child killed by `SIGUSR1` (10 for the kernel, 16 for the program) is reported
by `wait3` as killed by 7. -/
theorem usr1_told_wrong : ¬ ParentTold (domain .sco) sampleCalls
    (.child 42 (by decide) (.killed ⟨10, by decide⟩ false)) := by
  rintro ⟨-, hwyse, -⟩
  have hright := (wyseWait3_tells_iff .sco _ _).mp hwyse (by decide)
  exact nomatch hright.2.1

end AbiEmu.Signal
