import Mathlib.Data.Vector.Basic
import AbiEmu.Lcall7.Dispatch

/-!
# Signal tables (`signal_map` and `signal_invmap` of an execution domain)

Every execution domain carries two tables of 33 numbers, indexed from 0 to 32:
`signal_map` takes the number a signal has for the program to the number it has
for the kernel, `signal_invmap` goes the other way, and `-1` stands for "no such
signal" in both. C does not check an index. Here `readAt` does: an access
outside the table stops the call, and `InRange` says that a call is not stopped
that way. The rules for `InRange` reduce a call to the accesses it makes.

The tables are written with the names the source uses. The native numbers come
from the kernel's `asm/signal.h`, where `SIGIOT` is `SIGABRT`, `SIGPOLL` is
`SIGIO` and `SIGUNUSED` is `SIGSYS`. The OpenServer header repeats the numbers of
`include/abi/signal.h`, some of them under other names.
-/

namespace AbiEmu.Signal

open Lcall7 (Personality)

/-- The index of an access outside a table. -/
structure Outside where
  index : Int
  deriving DecidableEq, Repr

abbrev Res (α : Type) := Except Outside α

/-- `NSIGNALS`. -/
def nsignals : Nat := 32

/-- A table of `NSIGNALS + 1` numbers. -/
abbrev Table := Vector Word 33

/-- `t[i]`. -/
def readAt {α : Type} {n : Nat} (t : Vector α n) (i : Int) : Res α :=
  if h : 0 ≤ i ∧ i.toNat < n then .ok t[i.toNat] else .error ⟨i⟩

/-- The call makes no access outside a table. -/
def InRange {α : Type} (r : Res α) : Prop := r.isOk = true

/-! ## Rules for table accesses -/

section

variable {α β : Type} {n : Nat}

theorem readAt_natCast (t : Vector α n) {i : Nat} (hi : i < n) : readAt t i = .ok t[i] := by
  unfold readAt
  rw [dif_pos ⟨by omega, by rw [Int.toNat_natCast]; exact hi⟩]
  rfl

theorem inRange_ok (a : α) : InRange (.ok a : Res α) := rfl

theorem not_inRange_error (e : Outside) : ¬ InRange (.error e : Res α) := Bool.false_ne_true

theorem InRange.exists_ok {r : Res α} (h : InRange r) : ∃ a, r = .ok a := by
  cases r with
  | error e => exact absurd h (not_inRange_error e)
  | ok a => exact ⟨a, rfl⟩

theorem inRange_pure (a : α) : InRange (pure a : Res α) := inRange_ok a

theorem inRange_readAt (t : Vector α n) (i : Int) : InRange (readAt t i) ↔ 0 ≤ i ∧ i < n := by
  unfold readAt
  split
  next h => exact ⟨fun _ => ⟨h.1, by omega⟩, fun _ => inRange_ok _⟩
  next h => exact ⟨fun hr => absurd hr (not_inRange_error _), fun hb => absurd ⟨hb.1, by omega⟩ h⟩

/-- A sequence is in range if its first part is and, should that come back, the rest is. -/
theorem inRange_bind (x : Res α) (f : α → Res β) :
    InRange (x >>= f) ↔ InRange x ∧ ∀ a, x = .ok a → InRange (f a) := by
  cases x with
  | error e =>
    exact ⟨fun h => absurd h (not_inRange_error e), fun h => absurd h.1 (not_inRange_error e)⟩
  | ok a =>
    refine ⟨fun h => ⟨inRange_ok a, fun b hb => ?_⟩, fun h => h.2 a rfl⟩
    obtain rfl := Except.ok.inj hb
    exact h

end

/-! ## Signal numbers -/

/-! ### The kernel's (`asm/signal.h`) -/

def SIGHUP : Word := 1
def SIGINT : Word := 2
def SIGQUIT : Word := 3
def SIGILL : Word := 4
def SIGTRAP : Word := 5
def SIGABRT : Word := 6
def SIGBUS : Word := 7
def SIGFPE : Word := 8
def SIGKILL : Word := 9
def SIGUSR1 : Word := 10
def SIGSEGV : Word := 11
def SIGUSR2 : Word := 12
def SIGPIPE : Word := 13
def SIGALRM : Word := 14
def SIGTERM : Word := 15
def SIGCHLD : Word := 17
def SIGCONT : Word := 18
def SIGSTOP : Word := 19
def SIGTSTP : Word := 20
def SIGTTIN : Word := 21
def SIGTTOU : Word := 22
def SIGURG : Word := 23
def SIGXCPU : Word := 24
def SIGXFSZ : Word := 25
def SIGVTALRM : Word := 26
def SIGPROF : Word := 27
def SIGWINCH : Word := 28
def SIGIO : Word := 29
def SIGPWR : Word := 30
def SIGSYS : Word := 31

abbrev SIGIOT : Word := SIGABRT
abbrev SIGPOLL : Word := SIGIO
abbrev SIGUNUSED : Word := SIGSYS

/-! ### The programs' (`include/abi/signal.h`) -/

def IBCS_SIGHUP : Word := 1
def IBCS_SIGINT : Word := 2
def IBCS_SIGQUIT : Word := 3
def IBCS_SIGILL : Word := 4
def IBCS_SIGTRAP : Word := 5
def IBCS_SIGABRT : Word := 6
def IBCS_SIGFPE : Word := 8
def IBCS_SIGKILL : Word := 9
def IBCS_SIGBUS : Word := 10
def IBCS_SIGSEGV : Word := 11
def IBCS_SIGSYS : Word := 12
def IBCS_SIGPIPE : Word := 13
def IBCS_SIGALRM : Word := 14
def IBCS_SIGTERM : Word := 15
def IBCS_SIGUSR1 : Word := 16
def IBCS_SIGUSR2 : Word := 17
def IBCS_SIGCHLD : Word := 18
def IBCS_SIGPWR : Word := 19
def IBCS_SIGWINCH : Word := 20
def IBCS_SIGURG : Word := 21
def IBCS_SIGIO : Word := 22
def IBCS_SIGSTOP : Word := 23
def IBCS_SIGTSTP : Word := 24
def IBCS_SIGCONT : Word := 25
def IBCS_SIGTTIN : Word := 26
def IBCS_SIGTTOU : Word := 27
def IBCS_SIGVTALRM : Word := 28
def IBCS_SIGPROF : Word := 29
def IBCS_SIGGXCPU : Word := 30
def IBCS_SIGGXFSZ : Word := 31

def ISC_SIGCONT : Word := 23
def ISC_SIGSTOP : Word := 24
def ISC_SIGTSTP : Word := 25

/-! ## The tables of the domains -/

/-- `linux_to_sco_signals`; `SCO__SIGSTKFLT` is `SCO_SIGTERM`. -/
def linuxToScoSignals : Table := #v[
  /-  0 -/ 0, IBCS_SIGHUP, IBCS_SIGINT, IBCS_SIGQUIT,
  /-  4 -/ IBCS_SIGILL, IBCS_SIGTRAP, IBCS_SIGABRT, IBCS_SIGBUS,
  /-  8 -/ IBCS_SIGFPE, IBCS_SIGKILL, IBCS_SIGUSR1, IBCS_SIGSEGV,
  /- 12 -/ IBCS_SIGUSR2, IBCS_SIGPIPE, IBCS_SIGALRM, IBCS_SIGTERM,
  /- 16 -/ IBCS_SIGTERM, IBCS_SIGCHLD, IBCS_SIGCONT, IBCS_SIGSTOP,
  /- 20 -/ IBCS_SIGTSTP, IBCS_SIGTTIN, IBCS_SIGTTOU, IBCS_SIGURG,
  /- 24 -/ IBCS_SIGGXCPU, IBCS_SIGGXFSZ, IBCS_SIGVTALRM, IBCS_SIGPROF,
  /- 28 -/ IBCS_SIGWINCH, IBCS_SIGIO, IBCS_SIGPWR, IBCS_SIGSYS,
  /- 32 -/ -1]

/-- `sco_to_linux_signals`. -/
def scoToLinuxSignals : Table := #v[
  /-  0 -/ 0, SIGHUP, SIGINT, SIGQUIT,
  /-  4 -/ SIGILL, SIGTRAP, SIGIOT, SIGABRT,
  /-  8 -/ SIGFPE, SIGKILL, SIGBUS, SIGSEGV,
  /- 12 -/ SIGSYS, SIGPIPE, SIGALRM, SIGTERM,
  /- 16 -/ SIGUSR1, SIGUSR2, SIGCHLD, SIGPWR,
  /- 20 -/ SIGWINCH, SIGURG, SIGPOLL, SIGSTOP,
  /- 24 -/ SIGTSTP, SIGCONT, SIGTTIN, SIGTTOU,
  /- 28 -/ SIGVTALRM, SIGPROF, SIGXCPU, SIGXFSZ,
  /- 32 -/ -1]

/-- `linux_to_xenix_signals`. -/
def linuxToXenixSignals : Table := #v[
  /-  0 -/ 0, IBCS_SIGHUP, IBCS_SIGINT, IBCS_SIGQUIT,
  /-  4 -/ IBCS_SIGILL, IBCS_SIGTRAP, IBCS_SIGABRT, -1,
  /-  8 -/ IBCS_SIGFPE, IBCS_SIGKILL, IBCS_SIGUSR1, IBCS_SIGSEGV,
  /- 12 -/ IBCS_SIGUSR2, IBCS_SIGPIPE, IBCS_SIGALRM, IBCS_SIGTERM,
  /- 16 -/ IBCS_SIGSEGV, IBCS_SIGCHLD, IBCS_SIGCONT, IBCS_SIGSTOP,
  /- 20 -/ IBCS_SIGTSTP, IBCS_SIGTTIN, IBCS_SIGTTOU, IBCS_SIGUSR1,
  /- 24 -/ IBCS_SIGGXCPU, IBCS_SIGGXFSZ, IBCS_SIGVTALRM, IBCS_SIGPROF,
  /- 28 -/ IBCS_SIGWINCH, 20, IBCS_SIGPWR, -1,
  /- 32 -/ -1]

/-- `xenix_to_linux_signals`. -/
def xenixToLinuxSignals : Table := #v[
  /-  0 -/ 0, SIGHUP, SIGINT, SIGQUIT,
  /-  4 -/ SIGILL, SIGTRAP, SIGIOT, SIGUNUSED,
  /-  8 -/ SIGFPE, SIGKILL, SIGUNUSED, SIGSEGV,
  /- 12 -/ SIGUNUSED, SIGPIPE, SIGALRM, SIGTERM,
  /- 16 -/ SIGUSR1, SIGUSR2, SIGCHLD, SIGPWR,
  /- 20 -/ SIGPOLL, -1, -1, -1,
  /- 24 -/ -1, -1, -1, -1,
  /- 28 -/ -1, -1, -1, -1,
  /- 32 -/ -1]

/-- `linux_to_ibcs_signals`. -/
def linuxToIbcsSignals : Table := #v[
  /-  0 -/ 0, IBCS_SIGHUP, IBCS_SIGINT, IBCS_SIGQUIT,
  /-  4 -/ IBCS_SIGILL, IBCS_SIGTRAP, IBCS_SIGABRT, -1,
  /-  8 -/ IBCS_SIGFPE, IBCS_SIGKILL, IBCS_SIGUSR1, IBCS_SIGSEGV,
  /- 12 -/ IBCS_SIGUSR2, IBCS_SIGPIPE, IBCS_SIGALRM, IBCS_SIGTERM,
  /- 16 -/ IBCS_SIGSEGV, IBCS_SIGCHLD, IBCS_SIGCONT, IBCS_SIGSTOP,
  /- 20 -/ IBCS_SIGTSTP, IBCS_SIGTTIN, IBCS_SIGTTOU, IBCS_SIGURG,
  /- 24 -/ IBCS_SIGGXCPU, IBCS_SIGGXFSZ, IBCS_SIGVTALRM, IBCS_SIGPROF,
  /- 28 -/ IBCS_SIGWINCH, IBCS_SIGIO, IBCS_SIGPWR, -1,
  /- 32 -/ -1]

/-- `ibcs_to_linux_signals`. -/
def ibcsToLinuxSignals : Table := #v[
  /-  0 -/ 0, SIGHUP, SIGINT, SIGQUIT,
  /-  4 -/ SIGILL, SIGTRAP, SIGIOT, SIGUNUSED,
  /-  8 -/ SIGFPE, SIGKILL, SIGUNUSED, SIGSEGV,
  /- 12 -/ SIGUNUSED, SIGPIPE, SIGALRM, SIGTERM,
  /- 16 -/ SIGUSR1, SIGUSR2, SIGCHLD, SIGPWR,
  /- 20 -/ SIGWINCH, SIGURG, SIGPOLL, SIGSTOP,
  /- 24 -/ SIGTSTP, SIGCONT, SIGTTIN, SIGTTOU,
  /- 28 -/ SIGVTALRM, SIGPROF, SIGXCPU, SIGXFSZ,
  /- 32 -/ -1]

/-- `linux_to_isc_signals`. -/
def linuxToIscSignals : Table := #v[
  /-  0 -/ 0, IBCS_SIGHUP, IBCS_SIGINT, IBCS_SIGQUIT,
  /-  4 -/ IBCS_SIGILL, IBCS_SIGTRAP, IBCS_SIGABRT, -1,
  /-  8 -/ IBCS_SIGFPE, IBCS_SIGKILL, IBCS_SIGUSR1, IBCS_SIGSEGV,
  /- 12 -/ IBCS_SIGUSR2, IBCS_SIGPIPE, IBCS_SIGALRM, IBCS_SIGTERM,
  /- 16 -/ IBCS_SIGSEGV, IBCS_SIGCHLD, ISC_SIGCONT, ISC_SIGSTOP,
  /- 20 -/ ISC_SIGTSTP, IBCS_SIGTTIN, IBCS_SIGTTOU, IBCS_SIGUSR1,
  /- 24 -/ IBCS_SIGGXCPU, IBCS_SIGGXFSZ, IBCS_SIGVTALRM, IBCS_SIGPROF,
  /- 28 -/ IBCS_SIGWINCH, IBCS_SIGIO, IBCS_SIGPWR, -1,
  /- 32 -/ -1]

/-- `isc_to_linux_signals`. -/
def iscToLinuxSignals : Table := #v[
  /-  0 -/ 0, SIGHUP, SIGINT, SIGQUIT,
  /-  4 -/ SIGILL, SIGTRAP, SIGIOT, SIGUNUSED,
  /-  8 -/ SIGFPE, SIGKILL, SIGUNUSED, SIGSEGV,
  /- 12 -/ SIGUNUSED, SIGPIPE, SIGALRM, SIGTERM,
  /- 16 -/ SIGUSR1, SIGUSR2, SIGCHLD, SIGPWR,
  /- 20 -/ SIGWINCH, -1, SIGPOLL, SIGCONT,
  /- 24 -/ SIGSTOP, SIGTSTP, SIGTTIN, SIGTTOU,
  /- 28 -/ SIGVTALRM, SIGPROF, SIGXCPU, SIGXFSZ,
  /- 32 -/ -1]

/-! The tables of UnixWare, Solaris and Wyse have the iBCS entries, one by one. -/

/-- `linux_to_uw7_signals`. -/
def linuxToUw7Signals : Table := linuxToIbcsSignals

/-- `uw7_to_linux_signals`. -/
def uw7ToLinuxSignals : Table := ibcsToLinuxSignals

/-- `linux_to_solaris_signals`. -/
def linuxToSolarisSignals : Table := linuxToIbcsSignals

/-- `solaris_to_linux_signals`. -/
def solarisToLinuxSignals : Table := ibcsToLinuxSignals

/-- `linux_to_wyse_signals`. -/
def linuxToWyseSignals : Table := linuxToIbcsSignals

/-- `wyse_to_linux_signals`. -/
def wyseToLinuxSignals : Table := ibcsToLinuxSignals

/-- The signal tables of an execution domain (`struct exec_domain`). -/
structure Domain where
  signalMap : Table
  signalInvmap : Table

/-- The domains of the source. -/
def domain : Personality → Domain
  | .sco => ⟨scoToLinuxSignals, linuxToScoSignals⟩
  | .xenix => ⟨xenixToLinuxSignals, linuxToXenixSignals⟩
  | .ibcs => ⟨ibcsToLinuxSignals, linuxToIbcsSignals⟩
  | .isc => ⟨iscToLinuxSignals, linuxToIscSignals⟩
  | .uw7 => ⟨uw7ToLinuxSignals, linuxToUw7Signals⟩
  | .solaris => ⟨solarisToLinuxSignals, linuxToSolarisSignals⟩
  | .wyse => ⟨wyseToLinuxSignals, linuxToWyseSignals⟩

end AbiEmu.Signal
