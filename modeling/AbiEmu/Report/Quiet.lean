import AbiEmu.Report.Ipc
import AbiEmu.Report.Names
import AbiEmu.Tty.Termios

/-!
# What was on the stack

A structure that is filled on the stack of a call and copied to the caller takes with it
what was there before, wherever no field was assigned. `Quiet` is a statement about two
runs: with the same user memory and the same answers of the kernel, but anything on the
stack, the caller finds the same.

For a copy of a structure this is a matter of its layout (`quiet_copyOut_iff`): with all
bytes before byte `k` assigned and byte `k` not, the two runs agree exactly if the copy
stops at `k` or before. `quiet_iff` has the byte for each structure: the pads of
`ibcs2_shmid_ds` from 20 on, the two bytes before `msg_stime` in `ibcs2_msqid_ds`, the
last three control characters of `svr4_termios`, and in `svr4_statfs` the type of a file
system that is not mounted and, for one that is, the two bytes behind it. The structures
of the second IPC generation are cleared first, and the feature flags are not on the
stack at all.
-/

namespace AbiEmu.Report

/-- What the caller finds does not depend on what was on the stack. -/
def Quiet (run : (Nat → Byte) → Mem → Int × Mem) : Prop :=
  ∀ frame frame' m, run frame m = run frame' m

/-! ## Copies of structures -/

section Copies

variable (pg : Pages) {fields : List Field}

theorem quiet_const (run : Mem → Int × Mem) : Quiet fun _ => run := fun _ _ _ => rfl

variable {size n : Nat}

/-- Two runs of a copy agree exactly if what they copy does. -/
theorem after_copyOut_eq_iff {frame frame' : Nat → Byte} {a : Word} {ok bad : Int} {m : Mem}
    (hn : n ≤ 2 ^ 32) :
    (copyOut pg a (assign fields frame) size n ok bad).after m =
        (copyOut pg a (assign fields frame') size n ok bad).after m ↔
      ∀ i < pg.copied a n, ¬ Covered fields i → frame i = frame' i := by
  have hlen : pg.copied a n ≤ 2 ^ 32 := (pg.copied_le a n).trans hn
  rw [← structBytes_eq_iff, ← Mem.store_eq_iff m a (by simp) (by simpa using hlen)]
  exact ⟨fun h => congrArg Prod.snd h, fun h => congrArg (Prod.mk _) h⟩

/-- A structure all of whose bytes are assigned. -/
theorem quiet_copyOut {a : Word} {ok bad : Int} (hn : n ≤ 2 ^ 32)
    (hall : ∀ i < n, Covered fields i) :
    Quiet fun frame m => (copyOut pg a (assign fields frame) size n ok bad).after m := by
  intro frame frame' m
  rw [after_copyOut_eq_iff pg hn]
  intro i hi hnot
  exact absurd (hall i (hi.trans_le (pg.copied_le a n))) hnot

variable {k : Nat}

/-- A structure with bytes before the `k`-th assigned, and the `k`-th not; `prior` is what the
call has stored before. -/
theorem quiet_copyOut_iff (prior : Mem → Mem) {a : Word} {ok bad : Int} (hn : n ≤ 2 ^ 32)
    (hbefore : ∀ i < k, Covered fields i) (hk : ¬ Covered fields k) :
    (Quiet fun frame m => (copyOut pg a (assign fields frame) size n ok bad).after (prior m)) ↔
      n ≤ k ∨ ¬ pg.Passes a n k := by
  rw [← Pages.copied_le_iff]
  constructor
  · intro h
    by_contra hlt
    -- a stack of zeros and one of ones differ at `k`
    have hdiff := (after_copyOut_eq_iff pg hn).mp
      (h (fun _ => 0) (fun _ => 1) fun _ => 0) k (Nat.lt_of_not_le hlt) hk
    exact nomatch hdiff
  · intro h frame frame' m
    rw [after_copyOut_eq_iff pg hn]
    intro i hi hnot
    exact absurd (hbefore i (hi.trans_le h)) hnot

end Copies

/-! ## The structures -/

/-- Where the fields of a structure lie. -/
def spans (fields : List Field) : List (Nat × Nat) := fields.map fun f => (f.off, f.bytes.length)

theorem covered_iff_spans (fields : List Field) (i : Nat) :
    Covered fields i ↔ ∃ s ∈ spans fields, s.1 ≤ i ∧ i < s.1 + s.2 := by
  simp [Covered, Field.Covers, spans]

variable {fields : List Field}

/-- A structure that lacks byte `k` first, read off its spans. -/
theorem lacks_of_spans (ss : List (Nat × Nat)) (h : spans fields = ss)
    (hss : (∀ i < k, ∃ s ∈ ss, s.1 ≤ i ∧ i < s.1 + s.2) ∧ ¬ ∃ s ∈ ss, s.1 ≤ k ∧ k < s.1 + s.2) :
    (∀ i < k, Covered fields i) ∧ ¬ Covered fields k := by
  simp only [covered_iff_spans, h]
  exact hss

theorem lshmToIshm_lacks (ls : ShmidDs) :
    (∀ i < 20, Covered (lshmToIshm ls) i) ∧ ¬ Covered (lshmToIshm ls) 20 :=
  lacks_of_spans [(0, 2), (2, 2), (4, 2), (6, 2), (8, 2), (10, 2), (12, 4), (16, 4),
    (28, 2), (30, 2), (32, 2), (36, 4), (40, 4), (44, 4)] rfl (by decide)

theorem lmsqToImsq_lacks (lm : MsqidDs) :
    (∀ i < 34, Covered (lmsqToImsq lm) i) ∧ ¬ Covered (lmsqToImsq lm) 34 :=
  lacks_of_spans [(0, 2), (2, 2), (4, 2), (6, 2), (8, 2), (10, 2), (12, 4), (16, 4),
    (20, 4), (24, 2), (26, 2), (28, 2), (30, 2), (32, 2), (36, 4), (40, 4), (44, 4)] rfl
    (by decide)

theorem kstatfsFields_lacks (st : Kstatfs) :
    (∀ i < 2, Covered (kstatfsFields st) i) ∧ ¬ Covered (kstatfsFields st) 2 :=
  lacks_of_spans [(0, 2), (4, 4), (8, 4), (12, 4), (16, 4), (20, 4), (24, 4), (28, 6),
    (34, 6)] rfl (by decide)

theorem unmountedFields_lacks :
    (∀ i < 0, Covered unmountedFields i) ∧ ¬ Covered unmountedFields 0 := by
  decide

/-- A structure that is cleared first is assigned as a whole. -/
theorem covered_clear {n : Nat} {i : Nat} (h : i < n) : Covered (clear 0 n :: fields) i :=
  ⟨clear 0 n, List.mem_cons_self, Nat.zero_le i, by simpa [clear] using h⟩

/-- The control characters that `linux_to_svr4_termios` assigns. -/
def ccFields (t : Tty.Termios) : List Field :=
  [⟨0, (List.range 16).map (Tty.linuxToSvr4Cc (fun _ => 0) t)⟩]

theorem ccFields_lacks (t : Tty.Termios) :
    (∀ i < 16, Covered (ccFields t) i) ∧ ¬ Covered (ccFields t) 16 :=
  lacks_of_spans [(0, 16)] rfl (by decide)

theorem linuxToSvr4Cc_eq (frame : Nat → Byte) (t : Tty.Termios) :
    Tty.linuxToSvr4Cc frame t = assign (ccFields t) frame := by
  funext i
  by_cases hi : i < 16
  · interval_cases i <;> rfl
  · have hnot : ¬ Covered (ccFields t) i := by
      simp [Covered, Field.Covers, ccFields]
      omega
    obtain ⟨j, rfl⟩ := Nat.exists_eq_add_of_le (Nat.le_of_not_lt hi)
    rw [assign_uncovered frame hnot, Nat.add_comm]
    rfl

/-! ## The calls -/

section Calls

variable (pg : Pages) {arg3 : Word} {δ : Type}

section

variable {g : Generation δ} (hsize : g.size ≤ 2 ^ 32)

include hsize

theorem quiet_giveBack_iff {ds : δ} (hk : k < g.size)
    (hlacks : (∀ i < k, Covered (g.fields ds) i) ∧ ¬ Covered (g.fields ds) k) :
    (Quiet fun frame m => (giveBack pg g frame ds arg3).after m) ↔ ¬ pg.Passes arg3 g.size k := by
  refine (quiet_copyOut_iff pg id hsize hlacks.1 hlacks.2).trans ?_
  exact or_iff_right (Nat.not_le_of_lt hk)

variable {kernel : IpcKernel δ}

/-- A report of a structure with an unassigned byte. -/
theorem quiet_ipcStat_iff (hk : k < g.size)
    (hlacks : ∀ ds, (∀ i < k, Covered (g.fields ds) i) ∧ ¬ Covered (g.fields ds) k) :
    (Quiet fun frame m => (ipcStat pg frame g kernel arg3).after m) ↔
      (0 ≤ kernel.stat.1 → ¬ pg.Passes arg3 g.size k) := by
  unfold ipcStat
  split_ifs with herr
  · exact iff_of_true (quiet_const _) fun h => absurd h (Int.not_le.mpr herr)
  · rw [quiet_giveBack_iff pg hsize hk (hlacks _), forall_prop_of_true (Int.not_lt.mp herr)]

/-- A report of a structure that is cleared first. -/
theorem quiet_ipcStat (hall : ∀ ds, ∀ i < g.size, Covered (g.fields ds) i) :
    Quiet fun frame m => (ipcStat pg frame g kernel arg3).after m := by
  unfold ipcStat
  split_ifs with herr
  · exact quiet_const _
  · exact quiet_copyOut pg hsize (hall _)

end

/-- A control call: its reports are those of the two generations, and its other commands use
nothing of the stack. -/
theorem quiet_ctl_iff (g g' : Generation δ) {cmd : Int} {call : (Nat → Byte) → Mem → Outcome}
    (hstat : cmd = 2 → ∀ frame m, call frame m = ipcStat pg frame g kernel arg3)
    (hstatL : cmd = 12 → ∀ frame m, call frame m = ipcStat pg frame g' kernel arg3)
    (hother : cmd ≠ 2 → cmd ≠ 12 → ∀ frame frame' m, call frame m = call frame' m)
    (hsize : g.size ≤ 2 ^ 32) (hsize' : g'.size ≤ 2 ^ 32) (hk : k < g.size)
    (hlacks : ∀ ds, (∀ i < k, Covered (g.fields ds) i) ∧ ¬ Covered (g.fields ds) k)
    (hall : ∀ ds, ∀ i < g'.size, Covered (g'.fields ds) i) :
    (Quiet fun frame m => (call frame m).after m) ↔
      (cmd = 2 → 0 ≤ kernel.stat.1 → ¬ pg.Passes arg3 g.size k) := by
  by_cases h2 : cmd = 2
  · simp only [hstat h2]
    rw [quiet_ipcStat_iff pg hsize hk hlacks, forall_prop_of_true h2]
  · refine iff_of_true ?_ fun h => absurd h h2
    by_cases h12 : cmd = 12
    · simp only [hstatL h12]
      exact quiet_ipcStat pg hsize' hall
    · intro frame frame' m
      exact congrArg (Outcome.after · m) (hother h2 h12 frame frame' m)

theorem quiet_svr4Shmctl_iff (k : IpcKernel ShmidDs) (cmd : Int) (arg3 : Word) :
    (Quiet fun frame m => (svr4Shmctl pg frame k m cmd arg3).after m) ↔
      (cmd = 2 → 0 ≤ k.stat.1 → ¬ pg.Passes arg3 48 20) := by
  refine quiet_ctl_iff pg ibcs2ShmidDs abi4ShmidDs ?_ ?_ ?_ (by decide) (by decide)
    (by decide) lshmToIshm_lacks fun ds i hi => covered_clear hi
  iterate 2
    · rintro rfl frame m
      rfl
  · intro h2 h12 frame frame' m
    unfold svr4Shmctl
    split <;> first | rfl | contradiction

theorem quiet_svr4Msgctl_iff (k : IpcKernel MsqidDs) (cmd : Int) (arg3 : Word) :
    (Quiet fun frame m => (svr4Msgctl pg frame k m cmd arg3).after m) ↔
      (cmd = 2 → 0 ≤ k.stat.1 → ¬ pg.Passes arg3 48 34) := by
  refine quiet_ctl_iff pg ibcs2MsqidDs abi4MsqidDs ?_ ?_ ?_ (by decide) (by decide)
    (by decide) lmsqToImsq_lacks fun ds i hi => covered_clear hi
  iterate 2
    · rintro rfl frame m
      rfl
  · intro h2 h12 frame frame' m
    unfold svr4Msgctl
    split <;> first | rfl | contradiction

/-- Memory when `linux_to_svr4_termios` has put the flags. -/
def flagsPut (t : Tty.Termios) (it : Word) (m : Mem) : Mem :=
  let cflag := if t.cCflag &&& Tty.CRTSCTS ≠ 0 then t.cCflag ||| 0o100000 else t.cCflag
  pg.putUser (it + 12) (Tty.linuxToSvr4Lflag t.cLflag) (pg.putUser (it + 8) (cflag &&& 0o177777)
    (pg.putUser (it + 4) (t.cOflag &&& 0o177777) (pg.putUser it (t.cIflag &&& 0o17777) m)))

/-- The call ends with a copy of the characters. -/
theorem linuxToSvr4Termios_copy {tcgets : Int × Tty.Termios} {it : Word}
    (hv : pg.verifyWrite it Tty.svr4TermiosSize = true) (herr : tcgets.1 = 0)
    (frame : Nat → Byte) (m : Mem) :
    Tty.linuxToSvr4Termios pg frame tcgets it m =
      (copyOut pg (it + 16) (assign (ccFields tcgets.2) frame) Tty.SVR4_NCCS Tty.SVR4_NCCS 0
        (-Tty.EFAULT)).after (flagsPut pg tcgets.2 it m) := by
  rw [after_copyOut, ← linuxToSvr4Cc_eq, Tty.linuxToSvr4Termios, if_neg (not_not.mpr hv),
    if_neg (not_not.mpr herr)]
  rfl

theorem quiet_linuxToSvr4Termios_iff (tcgets : Int × Tty.Termios) (it : Word) :
    (Quiet fun frame m => Tty.linuxToSvr4Termios pg frame tcgets it m) ↔
      (pg.verifyWrite it Tty.svr4TermiosSize = true → tcgets.1 = 0 →
        ¬ pg.Passes (it + 16) Tty.SVR4_NCCS 16) := by
  by_cases hv : pg.verifyWrite it Tty.svr4TermiosSize = true
  swap
  · refine iff_of_true ?_ fun h => absurd h hv
    simp only [Tty.linuxToSvr4Termios, if_pos hv]
    exact quiet_const _
  by_cases herr : tcgets.1 = 0
  swap
  · refine iff_of_true ?_ fun _ h => absurd h herr
    simp only [Tty.linuxToSvr4Termios, if_neg (not_not.mpr hv), if_pos herr]
    exact quiet_const _
  · obtain ⟨hbefore, hk⟩ := ccFields_lacks tcgets.2
    simp only [linuxToSvr4Termios_copy pg hv herr]
    rw [forall_prop_of_true hv, forall_prop_of_true herr,
      quiet_copyOut_iff pg (flagsPut pg tcgets.2 it) (by decide) hbefore hk]
    exact or_iff_right (by decide)

/-- The two calls on file systems. -/
def StatfsQuiet (found : Except Int Kstatfs) (buf len fstype : Word) : Prop :=
  len.toInt ≤ 40 →
    if fstype = 0 then found.isOk = true → ¬ pg.Passes buf 40 2
    else len ≠ 0 → ¬ pg.Passes buf len.toNat 0

theorem quiet_reportStatfs_iff (found : Except Int Kstatfs) (buf len fstype : Word) :
    (Quiet fun frame m => (reportStatfs pg frame found buf len fstype).after m) ↔
      StatfsQuiet pg found buf len fstype := by
  unfold reportStatfs StatfsQuiet
  by_cases hlong : (svr4StatfsSize : Int) < len.toInt
  · simp only [if_pos hlong]
    exact iff_of_true (quiet_const _) fun h => absurd h (Int.not_le.mpr hlong)
  have hshort : len.toInt ≤ 40 := Int.not_lt.mp hlong
  rw [forall_prop_of_true hshort]
  simp only [if_neg hlong]
  split_ifs with hmounted
  · cases found with
    | error e =>
      refine iff_of_true ?_ fun h => Bool.noConfusion h
      exact quiet_const (Outcome.returns e).after
    | ok st =>
      obtain ⟨hbefore, hk⟩ := kstatfsFields_lacks st
      have hok : (Except.ok st : Except Int Kstatfs).isOk = true := rfl
      rw [forall_prop_of_true hok]
      exact (quiet_copyOut_iff pg id (by decide) hbefore hk).trans (or_iff_right (by decide))
  · obtain ⟨hbefore, hk⟩ := unmountedFields_lacks
    refine (quiet_copyOut_iff pg id len.isLt.le hbefore hk).trans ?_
    have hzero : len.toNat ≤ 0 ↔ len = 0 := by
      rw [Nat.le_zero, BitVec.toNat_eq]
      rfl
    rw [hzero]
    exact or_iff_not_imp_left

end Calls

/-! ## All calls -/

/-- The calls that report a structure, with the kernel's part in them. -/
inductive ReportCall where
  | shmctl (k : IpcKernel ShmidDs) (cmd : Int) (arg3 : Word)
  | msgctl (k : IpcKernel MsqidDs) (cmd : Int) (arg3 : Word)
  | termios (tcgets : Int × Tty.Termios) (it : Word)
  | statfs (walk : Int) (answer : Int × Kstatfs) (buf len fstype : Word)
  | fstatfs (file : Bool) (answer : Int × Kstatfs) (buf len fstype : Word)
  | getfeatures (beyond : Nat → Byte) (other : Outcome) (arg1 arg2 : Word)

namespace ReportCall

/-- What the caller finds after the call, if `frame` was on the stack. -/
def run (pg : Pages) (frame : Nat → Byte) (m : Mem) : ReportCall → Int × Mem
  | shmctl k cmd arg3 => (svr4Shmctl pg frame k m cmd arg3).after m
  | msgctl k cmd arg3 => (svr4Msgctl pg frame k m cmd arg3).after m
  | termios tcgets it => Tty.linuxToSvr4Termios pg frame tcgets it m
  | statfs walk answer buf len fstype => (svr4Statfs pg frame walk answer buf len fstype).after m
  | fstatfs file answer buf len fstype => (svr4Fstatfs pg frame file answer buf len fstype).after m
  | getfeatures beyond other arg1 arg2 =>
    (scoSysi86 pg beyond other SI86GETFEATURES arg1 arg2).after m

/-- The copy does not get to a byte that was not assigned. -/
def StopsShort (pg : Pages) : ReportCall → Prop
  | shmctl k cmd arg3 => cmd = 2 → 0 ≤ k.stat.1 → ¬ pg.Passes arg3 48 20
  | msgctl k cmd arg3 => cmd = 2 → 0 ≤ k.stat.1 → ¬ pg.Passes arg3 48 34
  | termios tcgets it =>
    pg.verifyWrite it Tty.svr4TermiosSize = true → tcgets.1 = 0 →
      ¬ pg.Passes (it + 16) Tty.SVR4_NCCS 16
  | statfs walk answer buf len fstype =>
    StatfsQuiet pg (if walk = 0 then vfsStatfs answer else .error walk) buf len fstype
  | fstatfs file answer buf len fstype =>
    StatfsQuiet pg (if file then vfsStatfs answer else .error (-EBADF)) buf len fstype
  | getfeatures _ _ _ _ => True

end ReportCall

/-- Two runs that differ in what was on the stack give the caller the same, exactly if the
call stops short of what it did not assign. -/
theorem quiet_iff (pg : Pages) (c : ReportCall) :
    (Quiet fun frame m => c.run pg frame m) ↔ c.StopsShort pg := by
  cases c with
  | shmctl k cmd arg3 => exact quiet_svr4Shmctl_iff pg k cmd arg3
  | msgctl k cmd arg3 => exact quiet_svr4Msgctl_iff pg k cmd arg3
  | termios tcgets it => exact quiet_linuxToSvr4Termios_iff pg tcgets it
  | statfs walk answer buf len fstype => exact quiet_reportStatfs_iff pg _ buf len fstype
  | fstatfs file answer buf len fstype => exact quiet_reportStatfs_iff pg _ buf len fstype
  | getfeatures beyond other arg1 arg2 => exact iff_of_true (quiet_const _) trivial

/-- A segment and a queue of which all is zero. -/
def sampleShm : IpcKernel ShmidDs :=
  ⟨(0, ⟨⟨0, 0, 0, 0, 0, 0, 0⟩, 0, 0, 0, 0, 0, 0, 0⟩), fun _ => 0, fun _ => 0⟩

def sampleMsq : IpcKernel MsqidDs :=
  ⟨(0, ⟨⟨0, 0, 0, 0, 0, 0, 0⟩, 0, 0, 0, 0, 0, 0, 0, 0, 0, 0⟩), fun _ => 0, fun _ => 0⟩

/-- A terminal without any setting. -/
def sampleTermios : Tty.Termios := ⟨0, 0, 0, 0, 0, fun _ => 0⟩

/-- The second generation of structures, in a process that can be written. -/
theorem second_generation_quiet :
    (Quiet fun frame m => (ReportCall.shmctl sampleShm 12 0x8000).run .everywhere frame m) ∧
    (Quiet fun frame m => (ReportCall.msgctl sampleMsq 12 0x8000).run .everywhere frame m) :=
  ⟨(quiet_iff .everywhere (.shmctl sampleShm 12 0x8000)).mpr nofun,
    (quiet_iff .everywhere (.msgctl sampleMsq 12 0x8000)).mpr nofun⟩

/-- The first generation, the control characters and both answers about file systems. -/
theorem stack_bytes_leave :
    ¬ (Quiet fun frame m => (ReportCall.shmctl sampleShm 2 0x8000).run .everywhere frame m) ∧
    ¬ (Quiet fun frame m => (ReportCall.msgctl sampleMsq 2 0x8000).run .everywhere frame m) ∧
    ¬ (Quiet fun frame m =>
      (ReportCall.termios (0, sampleTermios) 0x8000).run .everywhere frame m) ∧
    ¬ (Quiet fun frame m =>
      (ReportCall.statfs 0 (0, ⟨0, 0, 0, 0, 0, 0⟩) 0x8000 40 1).run .everywhere frame m) := by
  have hpasses (a : Word) (n k : Nat) : Pages.everywhere.Passes a n k :=
    ⟨List.all_eq_true.mpr fun _ _ => rfl, List.all_eq_true.mpr fun _ _ => rfl⟩
  refine ⟨fun h => ?_, fun h => ?_, fun h => ?_, fun h => ?_⟩
  · exact (quiet_svr4Shmctl_iff .everywhere sampleShm 2 0x8000).mp h rfl (by decide) (hpasses _ _ _)
  · exact (quiet_svr4Msgctl_iff .everywhere sampleMsq 2 0x8000).mp h rfl (by decide) (hpasses _ _ _)
  · exact (quiet_linuxToSvr4Termios_iff .everywhere (0, sampleTermios) 0x8000).mp h
      (hpasses _ _ 0).1 rfl (hpasses _ _ _)
  · exact (quiet_reportStatfs_iff .everywhere _ 0x8000 40 1).mp h (by decide) (by decide)
      (hpasses _ _ _)

end AbiEmu.Report
