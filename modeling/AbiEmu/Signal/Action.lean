import AbiEmu.Lib.User
import AbiEmu.Signal.Vectors

/-!
# Signal actions and masks (`abi/svr4/signal.c`, `abi/cxenix/signal.c`)

The calls that send a signal, install an action and change the blocked mask.
What they ask of the kernel goes through a `Kernel`, three functions on a kernel
state of which nothing else is known here; the caller's memory is reached
through `Pages`.

`abi_sigaction` and `xnx_sigaction` do the same exchange on differently laid out
structures, so the exchange is written once (`changeAction`), over a `Layout`.
They differ in how they look the signal up: the first checks an unsigned bound
and refuses a signal without a number, the second checks a signed bound only.
The former also starts from a flag word that nobody set (`Locals.flags`).
-/

namespace AbiEmu.Signal

def EFAULT : Int := 14
def EINVAL : Int := 22

def SIG_BLOCK : Int := 0
def SIG_UNBLOCK : Int := 1
def SIG_SETMASK : Int := 2

def SA_NOCLDSTOP : Word := 1
def SA_NOCLDWAIT : Word := 2
def SA_ONSTACK : Word := 0x08000000
def SA_RESTART : Word := 0x10000000
def SA_NODEFER : Word := 0x40000000
def SA_RESETHAND : Word := 0x80000000

/-- The kernel's `struct sigaction`. -/
structure SigAction where
  handler : Word
  restorer : Word
  flags : Word
  mask : Sigset
  deriving DecidableEq, Repr

/-- The kernel's side. Each call gives its result, what it reports about the
state before, and the state after. -/
structure Kernel (K : Type) where
  /-- `sys_rt_sigaction`; without an action it only reports. -/
  rtSigaction : Word → Option SigAction → K → Int × SigAction × K
  /-- `sys_rt_sigprocmask`; without a set it only reports. -/
  rtSigprocmask : Int → Option Sigset → K → Int × Sigset × K
  /-- `sys_kill`. -/
  kill : Word → Word → K → Int × K

/-- A process: the kernel state and the process's memory. -/
structure Proc (K : Type) where
  kernel : K
  mem : Mem

/-- What the locals of a call hold before anything is stored in them. -/
structure Locals where
  flags : Word
  resv : Fin 2 → Word

variable {K : Type} (k : Kernel K) (d : Domain) (p : Pages)

/-- `abi_mapsig`. -/
def abiMapsig (sig : Word) : Res Word :=
  if nsignals ≤ sig.toNat then .ok (-1) else readAt d.signalMap sig.toInt

/-- `abi_kill`. -/
def abiKill (pid sig : Word) (s : Proc K) : Res (Int × Proc K) := do
  let insig := sig &&& 0xff
  let outsig ← readAt d.signalMap insig.toInt
  let (result, kernel) := k.kill pid outsig s.kernel
  pure (result, { s with kernel := kernel })

/-! ## The two `sigaction` calls -/

/-- The members of a program's `struct sigaction`, a word each. -/
inductive Field where
  | handler | mask | flags
  | resv (i : Fin 2)
  deriving DecidableEq, Repr

/-- The order of the members, and the flags the call passes on: the program's
bit and the kernel's. -/
structure Layout where
  fields : List Field
  flagPairs : List (Word × Word)

/-- `struct abi_sigaction`. -/
def abiLayout : Layout where
  fields := [.flags, .handler, .mask, .resv 0, .resv 1]
  flagPairs := [(1, SA_ONSTACK), (4, SA_RESTART), (16, SA_NODEFER), (2, SA_RESETHAND),
    (0x20000, SA_NOCLDSTOP), (0x10000, SA_NOCLDWAIT)]

/-- `struct sco_sigaction`. -/
def scoLayout : Layout where
  fields := [.handler, .mask, .flags]
  flagPairs := [(1, SA_NOCLDSTOP)]

/-- `sizeof`. -/
def Layout.size (l : Layout) : Nat := 4 * l.fields.length

/-- The index of a member, in words. -/
def Layout.index (l : Layout) (f : Field) : Nat := l.fields.idxOf f

/-- The words of a structure. -/
def Layout.words (l : Layout) (handler mask flags : Word) (resv : Fin 2 → Word) : List Word :=
  l.fields.map fun
    | .handler => handler
    | .mask => mask
    | .flags => flags
    | .resv i => resv i

/-- `if (f & a) acc |= b` for every pair `(a, b)`. -/
def passFlags (pairs : List (Word × Word)) (f acc : Word) : Word :=
  pairs.foldl (fun acc q => if f &&& q.1 ≠ 0 then acc ||| q.2 else acc) acc

/-- The action a call hands to the kernel, if it was given one. -/
def newAction (l : Layout) (flags : Word) (action : Word) (m : Mem) : Res (Option SigAction) :=
  if action = 0 then pure none
  else do
    let mask ← mapSigvecToKernel (m.slot action (l.index .mask)) d.signalMap
    pure (some {
      handler := m.slot action (l.index .handler)
      restorer := 0
      flags := passFlags l.flagPairs (m.slot action (l.index .flags)) flags
      mask := mask })

/-- The old action as the program sees it, stored at `oldaction`. -/
def reportAction (l : Layout) (resv : Fin 2 → Word) (oldaction : Word) (osa : SigAction)
    (s : Proc K) : Res (Int × Proc K) := do
  let mask ← mapSigvecFromKernel osa.mask d.signalInvmap
  let flags := passFlags (l.flagPairs.map Prod.swap) osa.flags 0
  match p.copyToUser oldaction (l.words osa.handler mask flags resv) s.mem with
  | none => pure (-EFAULT, s)
  | some m => pure (0, { s with mem := m })

/-- The exchange of actions, after the signal has been looked up. -/
def changeAction (l : Layout) (flags : Word) (resv : Fin 2 → Word)
    (signo action oldaction : Word) (s : Proc K) : Res (Int × Proc K) :=
  if oldaction ≠ 0 ∧ p.verifyWrite oldaction l.size = false then pure (-EFAULT, s)
  else if action ≠ 0 ∧ p.canRead action l.size = false then pure (-EFAULT, s)
  else do
    let nsa ← newAction d l flags action s.mem
    let (error, osa, kernel) := k.rtSigaction signo nsa s.kernel
    if error ≠ 0 ∨ oldaction = 0 then pure (error, { s with kernel := kernel })
    else reportAction d p l resv oldaction osa { s with kernel := kernel }

/-- `abi_sigaction`. -/
def abiSigaction (locals : Locals) (signum action oldaction : Word) (s : Proc K) :
    Res (Int × Proc K) := do
  let signo ← abiMapsig d signum
  if signo = -1 then pure (-EINVAL, s)
  else changeAction k d p abiLayout locals.flags locals.resv signo action oldaction s

/-- `xnx_sigaction`; it sets the flags to zero first. -/
def xnxSigaction (locals : Locals) (signum action oldaction : Word) (s : Proc K) :
    Res (Int × Proc K) :=
  if (nsignals : Int) ≤ signum.toInt then pure (-EINVAL, s)
  else do
    let signo ← readAt d.signalMap signum.toInt
    changeAction k d p scoLayout 0 locals.resv signo action oldaction s

/-! ## The blocked mask -/

/-- `howcnv`. -/
def howcnv : Vector Int 4 := #v[SIG_SETMASK, SIG_BLOCK, SIG_UNBLOCK, SIG_SETMASK]

/-- The set a call hands to the kernel, if it was given one. -/
def newSet (abinset : Word) (m : Mem) : Res (Option Sigset) :=
  if abinset = 0 then pure none
  else do
    let set ← mapSigvecToKernel (p.getUser m abinset) d.signalMap
    pure (some set)

/-- `abi_sigprocmask`. -/
def abiSigprocmask (how abinset abioset : Word) (s : Proc K) : Res (Int × Proc K) := do
  let nset ← newSet d p abinset s.mem
  let kernelHow ← readAt howcnv how.toInt
  let (error, oldSet, kernel) := k.rtSigprocmask kernelHow nset s.kernel
  if error = 0 ∧ abioset ≠ 0 then do
    let oldSetAbi ← mapSigvecFromKernel oldSet d.signalInvmap
    pure (error, ⟨kernel, p.putUser abioset oldSetAbi s.mem⟩)
  else pure (error, { s with kernel := kernel })

end AbiEmu.Signal
