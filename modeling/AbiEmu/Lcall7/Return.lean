import AbiEmu.Lcall7.Dispatch

/-!
# The return protocol

A call reports through the saved registers: an error sets the carry flag and
leaves the personality's number for the `errno` in `eax`, a result clears the
flag and is left in `eax` as it is. `Returned` is that protocol for the value a
called function gives back; the errors are the values above `-ENOIOCTLCMD`
(`-515`).

Each dispatcher writes the reply by hand. `lcall7_dispatch` follows the
protocol on every value (`lcall7Reply_returned`), and no number leads outside a
table (`run_ne_wild`). Two replies differ:

* A number outside a table is refused with `iABI_errors(-EINVAL)`. The map has
  no negative numbers, so the caller always sees error 1 (`EPERM`) instead of
  `EINVAL`.
* `svr4_shmsys` takes only the values above `-255` as errors and returns the
  others, down to `-514`, as results with the carry flag clear.

`uniformReturn_iff` says that nothing else goes wrong.
-/

namespace AbiEmu.Lcall7

/-- The functions that answer a call: the personality's handler, the dispatchers
over sub-tables, and `svr4_shmsys`. -/
inductive Dispatcher where
  | lcall7 | cxenix | wyseClassNfs | wyseClassTcp | iscSysisc | svr4Shmsys
  deriving DecidableEq, Repr

/-- The protocol for the value `r` of a called function. -/
def Returned (p : Personality) (r : Word) (regs : PtRegs) : Prop :=
  if -515 < r.toInt ∧ r.toInt < 0 then
    regs.carry = true ∧ regs.eax = BitVec.ofInt 32 (iABIErrors p (-r.toInt))
  else regs.carry = false ∧ regs.eax = r

/-- The protocol for a number outside the table. -/
def Refused (p : Personality) (regs : PtRegs) : Prop :=
  regs.carry = true ∧ regs.eax = BitVec.ofInt 32 (iABIErrors p EINVAL)

namespace Dispatcher

/-- The table of a dispatcher; `svr4_shmsys` has none. -/
def table (p : Personality) : Dispatcher → List Sysent
  | .lcall7 => p.table
  | .cxenix => cxenixTable
  | .wyseClassNfs => wyseNfscallTable
  | .wyseClassTcp => wyseTcpcallTable
  | .iscSysisc => sysiscTable
  | .svr4Shmsys => []

/-- The argument offset a dispatcher passes on. -/
def off : Dispatcher → Nat
  | .iscSysisc => 2
  | _ => 1

/-- The number a dispatcher looks at. -/
def number (d : Dispatcher) (m : Mem) (regs : PtRegs) : Word :=
  match d with
  | .lcall7 => regs.eax &&& 0xff
  | .cxenix | .wyseClassNfs | .wyseClassTcp => regs.eax.sshiftRight 8
  | .iscSysisc => m.slot regs.esp 1
  | .svr4Shmsys => getSyscallParameter m regs 0

section
variable {ω : Type} (K : Kernel ω) (p : Personality) (n : Nat)

/-- How a dispatcher calls a function that takes the register frame; the main
handler may be re-entered `n` times. -/
def call : Dispatcher → Handler → Sys ω → Outcome (Word × Sys ω)
  | .lcall7 => frameCall K p (enter K p n)
  | _ => leafCall K p

/-- One run of a dispatcher. -/
def run (s : Sys ω) : Dispatcher → Outcome (Sys ω)
  | .lcall7 => enter K p (n + 1) s
  | .cxenix => Lcall7.cxenix K p s
  | .wyseClassNfs => Lcall7.wyseClassNfs K p s
  | .wyseClassTcp => Lcall7.wyseClassTcp K p s
  | .iscSysisc => Lcall7.iscSysisc K p s
  | .svr4Shmsys => .ok (Lcall7.svr4Shmsys K p s).2

/-- The number is in none of the dispatcher's slots; `shmsys` has commands 0 to 3. -/
def Outside (d : Dispatcher) (s : Sys ω) : Prop :=
  (if d = .svr4Shmsys then 4 else (d.table p).length) ≤ (d.number (K.mem s.world) s.regs).toNat

/-- The value of the function a `switch` of `lcall7_dispatch` calls. A `Fast`
function gives none: it has written the reply itself. -/
def callValue (call : Handler → Sys ω → Outcome (Word × Sys ω)) (s : Sys ω) :
    Call → Option Word
  | .fast _ => none
  | .frame h =>
    match call h s with
    | .ok r => some r.1
    | .error _ => none
  | .words h args => some (K.counted h args s.world).1
  | .unsupported => some (BitVec.ofInt 32 (-ENOSYS))

/-- The value the dispatcher has to report, if it reports one itself. -/
def value (d : Dispatcher) (s : Sys ω) : Option Word :=
  if d = .svr4Shmsys then some (shmsysResult K (K.mem s.world) s.regs s.world).1
  else
    match (d.table p)[(d.number (K.mem s.world) s.regs).toNat]? with
    | none => none
    | some ap =>
      callValue K (d.call K p n) s (selectCall (K.mem s.world) s.regs ap d.off)

/-- One call through a dispatcher keeps the protocol. -/
structure UniformReturn (d : Dispatcher) (s : Sys ω) : Prop where
  /-- A function's value is reported. -/
  returned : ∀ r, d.value K p n s = some r →
    ∃ s', d.run K p n s = .ok s' ∧ Returned p r s'.regs
  /-- A number outside the table is refused. -/
  refused : d.Outside K p s → ∃ s', d.run K p n s = .ok s' ∧ Refused p s'.regs
  /-- No access is outside the table. -/
  inside : d.run K p n s ≠ .error .wild

end

end Dispatcher

/-! ## The replies -/

variable (p : Personality)

theorem lcall7Reply_returned (r : Word) (regs : PtRegs) : Returned p r (lcall7Reply p r regs) := by
  unfold Returned lcall7Reply
  by_cases h : -ENOIOCTLCMD < r.toInt ∧ r.toInt < 0
  · rw [if_pos h, if_pos (show -515 < r.toInt ∧ r.toInt < 0 from h)]
    exact ⟨setError_carry _ _, rfl⟩
  · rw [if_neg h, if_neg (show ¬ (-515 < r.toInt ∧ r.toInt < 0) from h)]
    exact ⟨clearError_carry _, rfl⟩

/-- `svr4_shmsys` reports a value correctly exactly when it is not one of those
between its own threshold and the protocol's. -/
theorem shmsysReply_returned (r : Word) (regs : PtRegs) :
    Returned p r (shmsysReply p r regs) ↔ ¬ (-515 < r.toInt ∧ r.toInt ≤ -255) := by
  unfold Returned shmsysReply
  by_cases hneg : r.toInt < 0 ∧ -255 < r.toInt
  · rw [if_pos (show -515 < r.toInt ∧ r.toInt < 0 by omega), if_pos hneg]
    exact ⟨fun _ => by omega, fun _ => ⟨setError_carry _ _, rfl⟩⟩
  · rw [if_neg hneg]
    split_ifs with h
    · -- the protocol wants an error here, the reply has cleared the flag
      constructor
      · rintro ⟨hc, _⟩
        simp at hc
      · intro hno
        omega
    · exact ⟨fun _ => by omega, fun _ => ⟨clearError_carry _, rfl⟩⟩

/-- `iABI_errors(-EINVAL)` is the default, in every personality. -/
theorem iABIErrors_neg_einval : iABIErrors p (-EINVAL) = 1 := by
  cases p <;> exact Util.mapValue_errSegments_neg _ 1 (by decide)

theorem iABIErrors_einval : iABIErrors p EINVAL = 22 := by
  cases p <;> decide +kernel

/-- The refusal of the table dispatchers is not the protocol's. -/
theorem setError_not_refused (regs : PtRegs) :
    ¬ Refused p (setError regs (iABIErrors p (-EINVAL))) := by
  rintro ⟨_, heax⟩
  rw [setError_eax, iABIErrors_neg_einval, iABIErrors_einval] at heax
  exact nomatch heax

namespace Dispatcher

section
variable {ω : Type} {K : Kernel ω} {p : Personality} {n : Nat} {s : Sys ω}

theorem table_length_le (d : Dispatcher) : (d.table p).length ≤ 256 := by
  cases d with
  | lcall7 => exact Lcall7.table_length_le p
  | cxenix => exact (by decide : cxenixTable.length ≤ 256)
  | wyseClassNfs => exact (by decide : wyseNfscallTable.length ≤ 256)
  | wyseClassTcp => exact (by decide : wyseTcpcallTable.length ≤ 256)
  | iscSysisc => exact (by decide : sysiscTable.length ≤ 256)
  | svr4Shmsys => exact Nat.zero_le 256

variable {d : Dispatcher}

/-- Every dispatcher but `svr4_shmsys` is the one over its table. -/
theorem run_eq (hd : d ≠ .svr4Shmsys) :
    d.run K p n s = tableDispatch K p (d.call K p n) (d.table p) d.off
      (d.number (K.mem s.world) s.regs) s := by
  cases d with
  | lcall7 => exact enter_succ K p n s
  | cxenix | wyseClassNfs | wyseClassTcp | iscSysisc => rfl
  | svr4Shmsys => exact absurd rfl hd

/-- No number, negative ones included, leads outside a table. -/
theorem run_ne_wild (d : Dispatcher) : d.run K p n s ≠ .error .wild := by
  cases d with
  | lcall7 => exact enter_ne_wild (n + 1) s
  | cxenix => exact cxenix_ne_error s _
  | wyseClassNfs => exact wyseClassNfs_ne_error s _
  | wyseClassTcp => exact wyseClassTcp_ne_error s _
  | iscSysisc => exact iscSysisc_ne_error s _
  | svr4Shmsys => exact nofun

/-- What `lcall7_dispatch` leaves in the registers for a value of its `switch`. -/
theorem performCall_returned {call : Handler → Sys ω → Outcome (Word × Sys ω)} {c : Call}
    {r : Word} (hr : callValue K call s c = some r) :
    ∃ s', performCall K p call s c = .ok s' ∧ Returned p r s'.regs := by
  cases c with
  | fast h => exact nomatch hr
  | frame h =>
    cases hcall : call h s with
    | error e => simp [callValue, hcall] at hr
    | ok a =>
      simp only [callValue, hcall, Option.some.injEq] at hr
      subst hr
      refine ⟨{ a.2 with regs := lcall7Reply p a.1 a.2.regs }, ?_,
        lcall7Reply_returned p a.1 a.2.regs⟩
      rw [performCall, hcall]
      rfl
  | words h args =>
    have hr' : (K.counted h args s.world).1 = r := Option.some.inj hr
    refine ⟨_, rfl, ?_⟩
    rw [← hr']
    exact lcall7Reply_returned p _ s.regs
  | unsupported =>
    have hr' : BitVec.ofInt 32 (-ENOSYS) = r := Option.some.inj hr
    refine ⟨_, rfl, ?_⟩
    rw [← hr']
    exact lcall7Reply_returned p _ s.regs

/-- A table dispatcher reports every value its functions give. -/
theorem table_returned (hd : d ≠ .svr4Shmsys) {r : Word} (hr : d.value K p n s = some r) :
    ∃ s', d.run K p n s = .ok s' ∧ Returned p r s'.regs := by
  rw [value, if_neg hd] at hr
  rw [run_eq hd]
  split at hr
  · exact nomatch hr
  next ap hap =>
    rw [tableDispatch_inside d.table_length_le hap]
    exact performCall_returned hr

/-- A table dispatcher keeps the protocol exactly when the number is in the table. -/
theorem table_uniform (hd : d ≠ .svr4Shmsys) :
    d.UniformReturn K p n s ↔ (d.number (K.mem s.world) s.regs).toNat < (d.table p).length := by
  have hout : d.Outside K p s ↔ (d.table p).length ≤ (d.number (K.mem s.world) s.regs).toNat := by
    rw [Outside, if_neg hd]
  constructor
  · intro hu
    by_contra hge
    have hge' := Nat.not_lt.mp hge
    obtain ⟨s', hrun, href⟩ := hu.refused (hout.mpr hge')
    rw [run_eq hd, tableDispatch_outside hge'] at hrun
    cases hrun
    exact setError_not_refused p s.regs href
  · intro hlt
    refine ⟨fun r hr => table_returned hd hr, fun h => ?_, run_ne_wild d⟩
    exact absurd (hout.mp h) (Nat.not_le.mpr hlt)

/-- An unknown command of `shmsys` is refused as the protocol asks. -/
theorem shmsys_refused (h : (Dispatcher.svr4Shmsys).Outside K p s) :
    Refused p (Lcall7.svr4Shmsys K p s).2.regs := by
  have hcmd : 4 ≤ (getSyscallParameter (K.mem s.world) s.regs 0).toNat := h
  have hne : ∀ c : Word, c.toNat < 4 → getSyscallParameter (K.mem s.world) s.regs 0 ≠ c := by
    intro c hc heq
    rw [heq] at hcmd
    omega
  have hres : shmsysResult K (K.mem s.world) s.regs s.world =
      (BitVec.ofInt 32 (-EINVAL), s.world) := by
    simp only [shmsysResult, shmsysSwitch]
    rw [if_neg (hne SVR4_shmdt (by decide)), if_neg (hne SVR4_shmat (by decide)),
      if_neg (hne SVR4_shmget (by decide)), if_neg (hne SVR4_shmctl (by decide))]
  simp only [Lcall7.svr4Shmsys, hres]
  exact ⟨setError_carry _ _, rfl⟩

/-- `svr4_shmsys` keeps the protocol exactly when the kernel's value is not
between the two thresholds. -/
theorem shmsys_uniform :
    (Dispatcher.svr4Shmsys).UniformReturn K p n s ↔
      ¬ (-515 < (shmsysResult K (K.mem s.world) s.regs s.world).1.toInt ∧
        (shmsysResult K (K.mem s.world) s.regs s.world).1.toInt ≤ -255) := by
  rw [← shmsysReply_returned p _ s.regs]
  constructor
  · intro hu
    obtain ⟨s', hrun, hret⟩ := hu.returned _ rfl
    cases hrun
    exact hret
  · intro hret
    refine ⟨fun r hr => ?_, fun h => ⟨_, rfl, shmsys_refused h⟩, run_ne_wild _⟩
    cases hr
    exact ⟨_, rfl, hret⟩

end

/-- A call keeps the protocol exactly when its number is in the table and, for
`svr4_shmsys`, when the kernel's value is not one of `-514` to `-255`. -/
theorem uniformReturn_iff {ω : Type} (K : Kernel ω) (p : Personality) (n : Nat)
    (d : Dispatcher) (s : Sys ω) :
    d.UniformReturn K p n s ↔
      if d = .svr4Shmsys then
        ¬ (-515 < (shmsysResult K (K.mem s.world) s.regs s.world).1.toInt ∧
          (shmsysResult K (K.mem s.world) s.regs s.world).1.toInt ≤ -255)
      else (d.number (K.mem s.world) s.regs).toNat < (d.table p).length := by
  by_cases hd : d = .svr4Shmsys
  · subst hd
    exact shmsys_uniform
  · rw [if_neg hd]
    exact table_uniform hd

/-- OpenServer call 173, one past the end of the table, is refused with error 1. -/
theorem sco_173_not_uniform : ¬ (Dispatcher.lcall7).UniformReturn (idleKernel fun _ => 0)
    .sco 0 ⟨⟨173, 0, 0, 0⟩, ()⟩ := by
  rw [table_uniform (by decide)]
  decide +kernel

end Dispatcher

end AbiEmu.Lcall7
