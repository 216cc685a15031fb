import AbiEmu.Lcall7.Machdep
import AbiEmu.Personality.Sco
import AbiEmu.Personality.Cxenix
import AbiEmu.Personality.Isc
import AbiEmu.Personality.Ibcs
import AbiEmu.Personality.Uw7
import AbiEmu.Personality.Solaris
import AbiEmu.Personality.Wyse

/-!
# The system call entry (`arch/i386/kernel/lcall7.c`)

A call arrives at the handler of the current personality, which takes the low
byte of `eax` as an index into its table and hands the entry to
`lcall7_dispatch`. That fetches the argument words the entry asks for, calls
the function and writes the reply into the saved registers. Five functions of
the tables are dispatchers themselves: `cxenix`, `isc_sysisc` and the two
`wyse_class` functions index a table of their own, and `lcall7_syscall`
re-enters the personality's handler with a number it reads from the user stack.

What the called functions do is not fixed here. A `Kernel` says, for an
arbitrary type of worlds, how each call answers. A function that takes the
register frame is given the whole of it and leaves one behind: it fetches its
parameters through the stack pointer it finds there, and `exec` replaces that
too.

The re-entry is unbounded in the source. The model ties that knot with a fuel
argument: `enter K p n` allows `n` nested handlers, and `Halt.depth` means that
`n` were not enough. `Halt.wild` is an access outside a table.
-/

namespace AbiEmu.Lcall7

/-- The functions behind the tables. -/
structure Kernel (ω : Type) where
  /-- User memory. -/
  mem : ω → Mem
  /-- A function called with words from the stack. -/
  counted : Handler → List Word → ω → Word × ω
  /-- A function called with the register frame. -/
  framed : Handler → PtRegs → ω → Word × PtRegs × ω
  /-- `svr4_shmdt`, given the address it fetches. -/
  svr4Shmdt : Word → ω → Word × ω
  /-- `do_shmat`: the result and the address it stores through its last argument. -/
  doShmat : Word → Word → Word → ω → (Word × Word) × ω
  sysShmget : Word → Word → Word → ω → Word × ω
  svr4Shmctl : Word → Word → Word → ω → Word × ω

/-- The saved registers and the world. -/
structure Sys (ω : Type) where
  regs : PtRegs
  world : ω

/-- Why a run does not come back. -/
inductive Halt where
  | depth
  | wild
  deriving DecidableEq, Repr

/-- The result of a run. -/
abbrev Outcome (α : Type) := Except Halt α

/-- The execution domains with a `lcall7` handler. -/
inductive Personality where
  | sco | xenix | ibcs | isc | uw7 | solaris | wyse
  deriving DecidableEq, Repr

/-- The `err_map` of each domain. -/
def Personality.errMap : Personality → List Util.MapSegment
  | .sco | .xenix => scoErrMap
  | .ibcs => ibcsErrMap
  | .isc => iscErrMap
  | .uw7 => uw7ErrMap
  | .solaris => solarisErrMap
  | .wyse => wyseErrMap

/-- `iABI_errors`. -/
def iABIErrors (p : Personality) (errno : Int) : Int :=
  Util.mapValue (some p.errMap) errno 1

/-- `EINVAL`. -/
def EINVAL : Int := 22

/-- `ENOSYS`. -/
def ENOSYS : Int := 38

/-- `ENOIOCTLCMD`. -/
def ENOIOCTLCMD : Int := 515

/-! ## `lcall7_dispatch` -/

/-- What the `switch` of `lcall7_dispatch` does with an entry. -/
inductive Call where
  | fast (h : Handler)
  | frame (h : Handler)
  | words (h : Handler) (args : List Word)
  | unsupported
  deriving DecidableEq, Repr

/-- The call `lcall7_dispatch` makes for `ap`. A null function counts as
`Unimpl`. A negative argument count is large as an unsigned number, so nothing
is fetched for it and the `switch` takes its default. -/
def selectCall (m : Mem) (regs : PtRegs) (ap : Sysent) (off : Nat) : Call :=
  match ap.seSyscall with
  | none => .unsupported
  | some h =>
    if ap.seNargs = fast then .fast h
    else if ap.seNargs = spl then .frame h
    else if 0 ≤ ap.seNargs ∧ ap.seNargs ≤ 7 then
      .words h (getArgs m regs off ap.seNargs.toNat)
    else .unsupported

/-- The reply of `lcall7_dispatch` for the result `error`. -/
def lcall7Reply (p : Personality) (error : Word) (regs : PtRegs) : PtRegs :=
  if -ENOIOCTLCMD < error.toInt ∧ error.toInt < 0 then
    setError regs (iABIErrors p (-error.toInt))
  else setResult (clearError regs) error

section
variable {ω : Type} (K : Kernel ω) (p : Personality)

/-- The `switch` and the reply of `lcall7_dispatch`; `call` runs a function that
takes the register frame. -/
def performCall (call : Handler → Sys ω → Outcome (Word × Sys ω)) (s : Sys ω) :
    Call → Outcome (Sys ω)
  | .fast h => (fun r => r.2) <$> call h s
  | .frame h => (fun r => { r.2 with regs := lcall7Reply p r.1 r.2.regs }) <$> call h s
  | .words h args =>
    let r := K.counted h args s.world
    pure ⟨lcall7Reply p r.1 s.regs, r.2⟩
  | .unsupported =>
    pure { s with regs := lcall7Reply p (BitVec.ofInt 32 (-ENOSYS)) s.regs }

/-- `lcall7_dispatch`. -/
def lcall7Dispatch (call : Handler → Sys ω → Outcome (Word × Sys ω)) (s : Sys ω)
    (ap : Sysent) (off : Nat) : Outcome (Sys ω) :=
  performCall K p call s (selectCall (K.mem s.world) s.regs ap off)

/-- `table[i]` for an `int` index. -/
def tableAt (table : List Sysent) (i : Int) : Option Sysent :=
  if 0 ≤ i then table[i.toNat]? else none

/-- The common body of the table dispatchers. The comparison with the table
size is unsigned, the access is signed. -/
def tableDispatch (call : Handler → Sys ω → Outcome (Word × Sys ω)) (table : List Sysent)
    (off : Nat) (sysno : Word) (s : Sys ω) : Outcome (Sys ω) :=
  if table.length ≤ sysno.toNat then
    pure { s with regs := setError s.regs (iABIErrors p (-EINVAL)) }
  else
    match tableAt table sysno.toInt with
    | none => .error .wild
    | some ap => lcall7Dispatch K p call s ap off

/-! ## `svr4_shmsys` (`abi/svr4/ipc.c`) -/

/-- The commands of `shmsys`. -/
def SVR4_shmat : Word := 0
def SVR4_shmctl : Word := 1
def SVR4_shmdt : Word := 2
def SVR4_shmget : Word := 3

/-- The `switch` of `svr4_shmsys`. -/
def shmsysSwitch (cmd arg1 arg2 arg3 : Word) (w : ω) : Word × ω :=
  if cmd = SVR4_shmat then
    let r := K.doShmat arg1 arg2 arg3 w
    (if 0 ≤ r.1.1.toInt then r.1.2 else r.1.1, r.2)
  else if cmd = SVR4_shmget then K.sysShmget arg1 arg2 arg3 w
  else if cmd = SVR4_shmctl then K.svr4Shmctl arg1 arg2 arg3 w
  else (BitVec.ofInt 32 (-EINVAL), w)

/-- The result `err` of `svr4_shmsys` before the reply. -/
def shmsysResult (m : Mem) (regs : PtRegs) (w : ω) : Word × ω :=
  let arg := getSyscallParameter m regs
  if arg 0 = SVR4_shmdt then K.svr4Shmdt (arg 1) w
  else shmsysSwitch K (arg 0) (arg 1) (arg 2) (arg 3) w

/-- The reply of `svr4_shmsys`, with its own threshold. -/
def shmsysReply (err : Word) (regs : PtRegs) : PtRegs :=
  if err.toInt < 0 ∧ -255 < err.toInt then setError regs (iABIErrors p (-err.toInt))
  else setResult (clearError regs) err

/-- `svr4_shmsys`. -/
def svr4Shmsys (s : Sys ω) : Word × Sys ω :=
  let r := shmsysResult K (K.mem s.world) s.regs s.world
  (0, ⟨shmsysReply p r.1 s.regs, r.2⟩)

/-! ## Functions that take the register frame -/

/-- A function that takes the register frame and is not modelled further. -/
def framedCall (h : Handler) (s : Sys ω) : Word × Sys ω :=
  let r := K.framed h s.regs s.world
  (r.1, ⟨r.2.1, r.2.2⟩)

/-- What a sub-table can call with the register frame. No sub-table names a
dispatcher. -/
def leafCall (h : Handler) (s : Sys ω) : Outcome (Word × Sys ω) :=
  match h with
  | .svr4Shmsys => pure (svr4Shmsys K p s)
  | h => pure (framedCall K h s)

/-- `cxenix`. The shift is that of a signed `eax`. -/
def cxenix (s : Sys ω) : Outcome (Sys ω) :=
  tableDispatch K p (leafCall K p) cxenixTable 1 (s.regs.eax.sshiftRight 8) s

/-- `wyse_class_nfs`. -/
def wyseClassNfs (s : Sys ω) : Outcome (Sys ω) :=
  tableDispatch K p (leafCall K p) wyseNfscallTable 1 (s.regs.eax.sshiftRight 8) s

/-- `wyse_class_tcp`. -/
def wyseClassTcp (s : Sys ω) : Outcome (Sys ω) :=
  tableDispatch K p (leafCall K p) wyseTcpcallTable 1 (s.regs.eax.sshiftRight 8) s

/-- `isc_sysisc`: the number is the first argument word, the arguments follow. -/
def iscSysisc (s : Sys ω) : Outcome (Sys ω) :=
  tableDispatch K p (leafCall K p) sysiscTable 2 ((K.mem s.world).slot s.regs.esp 1) s

/-- The state in which `lcall7_syscall` re-enters the handler. The stack pointer
moves by one, not by one word. -/
def nested (s : Sys ω) : Sys ω :=
  let number := (K.mem s.world).slot s.regs.esp 1
  { s with regs := { s.regs with eax := number, esp := s.regs.esp + 1 } }

/-- The stack pointer moved back after the nested handler. -/
def unnested (s : Sys ω) : Sys ω := { s with regs := { s.regs with esp := s.regs.esp - 1 } }

/-- `lcall7_syscall`; `again` is the handler of the current domain. -/
def lcall7Syscall (again : Sys ω → Outcome (Sys ω)) (s : Sys ω) : Outcome (Word × Sys ω) :=
  (fun s' => (0, unnested s')) <$> again (nested K s)

/-- The functions a main table can call with the register frame. The value of
a dispatcher declared `void` is never looked at. -/
def frameCall (again : Sys ω → Outcome (Sys ω)) (h : Handler) (s : Sys ω) :
    Outcome (Word × Sys ω) :=
  match h with
  | .lcall7Syscall => lcall7Syscall K again s
  | .cxenix => (fun s' => (0, s')) <$> cxenix K p s
  | .wyseClassNfs => (fun s' => (0, s')) <$> wyseClassNfs K p s
  | .wyseClassTcp => (fun s' => (0, s')) <$> wyseClassTcp K p s
  | .iscSysisc => (fun s' => (0, s')) <$> iscSysisc K p s
  | h => leafCall K p h s

/-! ## The personalities' handlers -/

/-- `sco_lcall7`. -/
def scoLcall7 (call : Handler → Sys ω → Outcome (Word × Sys ω)) (s : Sys ω) : Outcome (Sys ω) :=
  tableDispatch K p call scoSyscallTable 1 (s.regs.eax &&& 0xff) s

/-- `ibcs_lcall7`. -/
def ibcsLcall7 (call : Handler → Sys ω → Outcome (Word × Sys ω)) (s : Sys ω) :
    Outcome (Sys ω) :=
  tableDispatch K p call ibcsSyscallTable 1 (s.regs.eax &&& 0xff) s

/-- `isc_lcall7`. -/
def iscLcall7 (call : Handler → Sys ω → Outcome (Word × Sys ω)) (s : Sys ω) : Outcome (Sys ω) :=
  tableDispatch K p call iscSyscallTable 1 (s.regs.eax &&& 0xff) s

/-- `uw7_lcall7`. -/
def uw7Lcall7 (call : Handler → Sys ω → Outcome (Word × Sys ω)) (s : Sys ω) : Outcome (Sys ω) :=
  tableDispatch K p call uw7SyscallTable 1 (s.regs.eax &&& 0xff) s

/-- `solaris_lcall7`. -/
def solarisLcall7 (call : Handler → Sys ω → Outcome (Word × Sys ω)) (s : Sys ω) :
    Outcome (Sys ω) :=
  tableDispatch K p call solarisSyscallTable 1 (s.regs.eax &&& 0xff) s

/-- `wyse_lcall7`. -/
def wyseLcall7 (call : Handler → Sys ω → Outcome (Word × Sys ω)) (s : Sys ω) :
    Outcome (Sys ω) :=
  tableDispatch K p call wyseSyscallTable 1 (s.regs.eax &&& 0xff) s

/-- The `handler` of each domain. -/
def handler (call : Handler → Sys ω → Outcome (Word × Sys ω)) (s : Sys ω) : Outcome (Sys ω) :=
  match p with
  | .sco | .xenix => scoLcall7 K p call s
  | .ibcs => ibcsLcall7 K p call s
  | .isc => iscLcall7 K p call s
  | .uw7 => uw7Lcall7 K p call s
  | .solaris => solarisLcall7 K p call s
  | .wyse => wyseLcall7 K p call s

/-- The system call entry with at most `n` nested handlers. -/
def enter : Nat → Sys ω → Outcome (Sys ω)
  | 0, _ => .error .depth
  | n + 1, s => handler K p (frameCall K p (enter n)) s

end

/-- The kernel of a machine with the fixed memory `m` whose calls return 0. -/
def idleKernel (m : Mem) : Kernel Unit where
  mem _ := m
  counted _ _ w := (0, w)
  framed _ regs w := (0, regs, w)
  svr4Shmdt _ w := (0, w)
  doShmat _ _ _ w := ((0, 0), w)
  sysShmget _ _ _ w := (0, w)
  svr4Shmctl _ _ _ w := (0, w)

/-! ## The handlers as one dispatcher over the personality's table -/

/-- The system call table of each domain. -/
def Personality.table : Personality → List Sysent
  | .sco | .xenix => scoSyscallTable
  | .ibcs => ibcsSyscallTable
  | .isc => iscSyscallTable
  | .uw7 => uw7SyscallTable
  | .solaris => solarisSyscallTable
  | .wyse => wyseSyscallTable

section

variable {ω : Type} (K : Kernel ω) (p : Personality)

include K p

theorem handler_eq (call : Handler → Sys ω → Outcome (Word × Sys ω)) (s : Sys ω) :
    handler K p call s = tableDispatch K p call p.table 1 (s.regs.eax &&& 0xff) s := by
  cases p <;> rfl

theorem enter_succ (n : Nat) (s : Sys ω) :
    enter K p (n + 1) s = tableDispatch K p (frameCall K p (enter K p n)) p.table 1
      (s.regs.eax &&& 0xff) s := by
  rw [enter, handler_eq]

end

/-- No table has more entries than a byte has values, so an accepted number is
never negative as an `int`. -/
theorem table_length_le (p : Personality) : p.table.length ≤ 256 := by
  cases p <;> decide +kernel

/-- The bounds check of a dispatcher keeps the access inside the table. -/
theorem tableAt_eq {table : List Sysent} (hlen : table.length ≤ 256) {sysno : Word}
    (h : sysno.toNat < table.length) : tableAt table sysno.toInt = table[sysno.toNat]? := by
  have hint : sysno.toInt = sysno.toNat := by
    rw [BitVec.toInt_eq_toNat_cond, if_pos (by omega)]
  unfold tableAt
  rw [hint, if_pos (Int.natCast_nonneg _), Int.toNat_natCast]

section
variable {ω : Type} {K : Kernel ω} {p : Personality}
  {call : Handler → Sys ω → Outcome (Word × Sys ω)} {table : List Sysent} {off : Nat}
  {sysno : Word}

/-- A number outside the table is refused. -/
theorem tableDispatch_outside (h : table.length ≤ sysno.toNat) (s : Sys ω) :
    tableDispatch K p call table off sysno s =
      .ok { s with regs := setError s.regs (iABIErrors p (-EINVAL)) } := by
  rw [tableDispatch, if_pos h]
  rfl

variable {ap : Sysent}

/-- A number inside the table dispatches its own entry. -/
theorem tableDispatch_inside (hlen : table.length ≤ 256) (hap : table[sysno.toNat]? = some ap)
    (s : Sys ω) :
    tableDispatch K p call table off sysno s = lcall7Dispatch K p call s ap off := by
  have hlt := (List.getElem?_eq_some_iff.mp hap).1
  rw [tableDispatch, if_neg (Nat.not_le.mpr hlt), tableAt_eq hlen hlt, hap]

/-! ## Where a run can stop

A dispatcher stops only where a function it calls stops, and of those only the
indirect call can: `enter_error` follows an error one level down. -/

theorem selectCall_handler {m : Mem} {regs : PtRegs} {h : Handler}
    (hc : selectCall m regs ap off = .fast h ∨ selectCall m regs ap off = .frame h) :
    ap.seSyscall = some h := by
  unfold selectCall at hc
  cases hap : ap.seSyscall with
  | none => simp [hap] at hc
  | some h' =>
    split_ifs at hc <;> simp_all

variable {s : Sys ω} {e : Halt}

theorem lcall7Dispatch_error (he : lcall7Dispatch K p call s ap off = .error e) :
    ∃ h, ap.seSyscall = some h ∧ call h s = .error e := by
  unfold lcall7Dispatch at he
  cases hc : selectCall (K.mem s.world) s.regs ap off with
  | fast h =>
    refine ⟨h, selectCall_handler (.inl hc), ?_⟩
    rw [hc, performCall] at he
    cases hcall : call h s with
    | error e' => rw [hcall] at he; cases he; rfl
    | ok a => rw [hcall] at he; cases he
  | frame h =>
    refine ⟨h, selectCall_handler (.inr hc), ?_⟩
    rw [hc, performCall] at he
    cases hcall : call h s with
    | error e' => rw [hcall] at he; cases he; rfl
    | ok a => rw [hcall] at he; cases he
  | words h args | unsupported => rw [hc] at he; cases he

theorem tableDispatch_error (hlen : table.length ≤ 256)
    (he : tableDispatch K p call table off sysno s = .error e) :
    ∃ ap h, table[sysno.toNat]? = some ap ∧ ap.seSyscall = some h ∧ call h s = .error e := by
  rcases Nat.lt_or_ge sysno.toNat table.length with hlt | hge
  · have hap := List.getElem?_eq_getElem hlt
    rw [tableDispatch_inside hlen hap] at he
    obtain ⟨h, hh, hcall⟩ := lcall7Dispatch_error he
    exact ⟨_, h, hap, hh, hcall⟩
  · rw [tableDispatch_outside hge] at he
    cases he

theorem leafCall_ne_error (h : Handler) (s : Sys ω) (e : Halt) : leafCall K p h s ≠ .error e := by
  unfold leafCall
  split <;> exact nofun

/-- A dispatcher over a sub-table always answers. -/
theorem subDispatch_ne_error (hlen : table.length ≤ 256) (s : Sys ω) (e : Halt) :
    tableDispatch K p (leafCall K p) table off sysno s ≠ .error e := by
  intro he
  obtain ⟨_, h, _, _, hcall⟩ := tableDispatch_error hlen he
  exact leafCall_ne_error h s e hcall

theorem cxenix_ne_error (s : Sys ω) (e : Halt) : cxenix K p s ≠ .error e :=
  subDispatch_ne_error (by decide) s e

theorem wyseClassNfs_ne_error (s : Sys ω) (e : Halt) : wyseClassNfs K p s ≠ .error e :=
  subDispatch_ne_error (by decide) s e

theorem wyseClassTcp_ne_error (s : Sys ω) (e : Halt) : wyseClassTcp K p s ≠ .error e :=
  subDispatch_ne_error (by decide) s e

theorem iscSysisc_ne_error (s : Sys ω) (e : Halt) : iscSysisc K p s ≠ .error e :=
  subDispatch_ne_error (by decide) s e

private theorem map_error {α β : Type} {f : α → β} {x : Outcome α} {e : Halt}
    (h : f <$> x = .error e) : x = .error e := by
  cases x with
  | error e' => cases h; rfl
  | ok a => cases h

theorem frameCall_error {again : Sys ω → Outcome (Sys ω)} {h : Handler}
    (he : frameCall K p again h s = .error e) :
    h = .lcall7Syscall ∧ again (nested K s) = .error e := by
  unfold frameCall at he
  split at he
  · exact ⟨rfl, map_error he⟩
  · exact absurd (map_error he) (cxenix_ne_error _ e)
  · exact absurd (map_error he) (wyseClassNfs_ne_error _ e)
  · exact absurd (map_error he) (wyseClassTcp_ne_error _ e)
  · exact absurd (map_error he) (iscSysisc_ne_error _ e)
  · exact absurd he (leafCall_ne_error _ s e)

/-- Slot 0 of every main table is the indirect call. -/
theorem table_zero (p : Personality) : p.table[0]? = some ⟨some .lcall7Syscall, fast⟩ := by
  cases p <;> rfl

/-- No other slot is. -/
theorem table_tail (p : Personality) : ∀ e ∈ p.table.tail, e.seSyscall ≠ some .lcall7Syscall := by
  cases p <;> decide +kernel

theorem table_ne_zero {i : Nat} (hi : i ≠ 0) (hap : p.table[i]? = some ap) :
    ap.seSyscall ≠ some .lcall7Syscall := by
  apply table_tail p ap
  obtain ⟨j, rfl⟩ := Nat.exists_eq_succ_of_ne_zero hi
  rw [← List.getElem?_tail] at hap
  exact List.mem_of_getElem? hap

/-- A handler stops only if its number is 0 and the nested handler stops. -/
theorem enter_error {n : Nat} (he : enter K p (n + 1) s = .error e) :
    s.regs.eax &&& 0xff = 0 ∧ enter K p n (nested K s) = .error e := by
  rw [enter_succ] at he
  obtain ⟨ap, h, hap, hh, hcall⟩ := tableDispatch_error (table_length_le p) he
  obtain ⟨rfl, hnested⟩ := frameCall_error hcall
  refine ⟨?_, hnested⟩
  by_contra h0
  refine table_ne_zero ?_ hap hh
  intro hz
  exact h0 (BitVec.eq_of_toNat_eq hz)

/-- No number makes a handler access its table outside. -/
theorem enter_ne_wild (n : Nat) (s : Sys ω) : enter K p n s ≠ .error .wild := by
  induction n generalizing s with
  | zero => exact nofun
  | succ n ih => exact fun h => ih _ (enter_error h).2

/-- A handler entered with number 0 is one more handler below it. -/
theorem enter_zero (h0 : s.regs.eax &&& 0xff = 0) (n : Nat) :
    enter K p (n + 1) s = unnested <$> enter K p n (nested K s) := by
  have hap : p.table[(0 : Word).toNat]? = some ⟨some .lcall7Syscall, fast⟩ := table_zero p
  rw [enter_succ, h0, tableDispatch_inside (table_length_le p) hap]
  show (fun r => r.2) <$> lcall7Syscall K (enter K p n) s = _
  unfold lcall7Syscall
  cases enter K p n (nested K s) <;> rfl

end

end AbiEmu.Lcall7
