import AbiEmu.Lib.Word

/-!
# `include/asm-i386/abi_machdep.h`: the saved registers of a caller

The emulation sees a caller through its saved registers and its memory. Only
four registers matter here: `eax` (call number in, result out), `edx` (second
result), `eflags` (bit 0, the carry flag, reports an error) and `esp`.

There are two ways to fetch a stack word. `get_user` checks the address against
the user limit and reads zero beyond it; `__get_user` does not check. An access
that faults reads as zero either way, which is how `Mem` is meant.
-/

namespace AbiEmu.Lcall7

/-- `struct pt_regs`. -/
structure PtRegs where
  eax : Word
  edx : Word
  eflags : Word
  esp : Word
  deriving DecidableEq, Repr

/-- The first address that is not the user's. -/
def taskSize : Nat := 0xC0000000

/-- `get_user`: the word at `a` if it lies below the user limit. -/
def getUser (m : Mem) (a : Word) : Word :=
  if a.toNat + 4 ≤ taskSize then m.word a else 0

/-- `get_args`: `n` words from stack index `off` on. -/
def getArgs (m : Mem) (regs : PtRegs) (off n : Nat) : List Word :=
  (List.range n).map fun i => getUser m (regs.esp + BitVec.ofNat 32 (4 * (i + off)))

/-- `get_syscall_parameter`: the word at stack index `n + 1`. -/
def getSyscallParameter (m : Mem) (regs : PtRegs) (n : Nat) : Word :=
  m.slot regs.esp (n + 1)

/-- `set_error`. -/
def setError (regs : PtRegs) (errno : Int) : PtRegs :=
  { regs with eax := BitVec.ofInt 32 errno, eflags := regs.eflags ||| 1 }

/-- `clear_error`. -/
def clearError (regs : PtRegs) : PtRegs :=
  { regs with eflags := regs.eflags &&& ~~~1 }

/-- `set_result`. -/
def setResult (regs : PtRegs) (r : Word) : PtRegs :=
  { regs with eax := r }

/-- The carry flag of the saved frame. -/
def PtRegs.carry (regs : PtRegs) : Bool := regs.eflags.getLsbD 0

/-! ## What the accessors do to the flag and the result -/

section

variable (regs : PtRegs)

include regs

@[simp] theorem setError_eax (e : Int) : (setError regs e).eax = BitVec.ofInt 32 e := rfl

@[simp] theorem setError_carry (e : Int) : (setError regs e).carry = true := by
  simp [setError, PtRegs.carry]

@[simp] theorem setResult_carry (r : Word) : (setResult regs r).carry = regs.carry := rfl

@[simp] theorem clearError_carry : (clearError regs).carry = false := by
  simp [clearError, PtRegs.carry]

end

end AbiEmu.Lcall7
