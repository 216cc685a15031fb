import AbiEmu.Lib.Word
import AbiEmu.Lib.Bits
import Mathlib.Tactic.IntervalCases

/-!
# Message flags (`abi/solaris/socket.c`)

Solaris numbers five of its eight message flags differently. Two ladders of tests
translate them, and the one for the caller's flags stands on every path to the socket
layer but that of `solaris_recvmsg`.
-/

namespace AbiEmu.Solaris

open BitVec

/-- `MSG_OOB`, `MSG_PEEK` and `MSG_DONTROUTE` as they are, and for each pair of bits whose
first is set the second. -/
def ladder (pairs : List (Nat × Nat)) (flags : Word) : Word :=
  pairs.foldl (fun fl p => if flags.getLsbD p.1 then fl ||| twoPow 32 p.2 else fl) (flags &&& 7)

/-- `solaris_to_linux_msgflags`: `EOR`, `CTRUNC`, `TRUNC`, `WAITALL` and `DONTWAIT`. -/
def solarisToLinuxMsgflags : Word → Word := ladder [(3, 7), (4, 3), (5, 5), (6, 8), (7, 6)]

/-- `linux_to_solaris_msgflags`. -/
def linuxToSolarisMsgflags : Word → Word := ladder [(7, 3), (3, 4), (5, 5), (8, 6), (6, 7)]

/-- What `solaris_sendmsg` and `solaris_recvmsg` meet on their way. -/
structure MsgEnv where
  /-- The call returns early: the header, the vector, an address or the control message
  cannot be had. -/
  fails : Bool
  /-- Whether the file is non-blocking, if `fd` is a socket. -/
  sock : Option Bool

/-- `MSG_DONTWAIT` for a non-blocking file. -/
def MsgEnv.dontwait (e : MsgEnv) : Word := if e.sock = some true then 0x40 else 0

/-- The flags of the call to the socket layer, if there is one. -/
def MsgEnv.call (e : MsgEnv) (flags : Word) : Option Word :=
  if e.fails ∨ e.sock = none then none else some (flags ||| e.dontwait)

/-- The six calls that take message flags. -/
inductive MsgCall where
  | recvfrom | recv | sendto | send
  | sendmsg (e : MsgEnv)
  | recvmsg (e : MsgEnv)

/-- The flags that a call passes to the socket layer. -/
def MsgCall.passes (flags : Word) : MsgCall → Option Word
  | .sendmsg e => e.call (solarisToLinuxMsgflags flags)
  | .recvmsg e => e.call flags
  | _ => some (solarisToLinuxMsgflags flags)

/-- The flags are the caller's, with `MSG_DONTWAIT` for a file found non-blocking. -/
def MsgCall.Right (flags : Word) (c : MsgCall) : Prop :=
  ∀ fl ∈ c.passes flags, fl = solarisToLinuxMsgflags flags ||| match c with
    | .sendmsg e | .recvmsg e => e.dontwait
    | _ => 0

/-- A bit of a translated word. -/
theorem getElem_ladder (pairs : List (Nat × Nat)) (flags : Word) {j : Nat} (hj : j < 32) :
    (ladder pairs flags)[j] =
      ((flags &&& 7)[j] || pairs.any fun p => flags.getLsbD p.1 && decide (j = p.2)) := by
  rw [← getLsbD_eq_getElem, ladder, Bits.getLsbD_foldl_or]
  simp [hj]

/-- The eight flags come back. -/
theorem msgflags_back (flags : Word) :
    linuxToSolarisMsgflags (solarisToLinuxMsgflags flags) = flags &&& 0xff := by
  ext j hj
  unfold linuxToSolarisMsgflags solarisToLinuxMsgflags
  interval_cases j <;> simp [getElem_ladder]

/-- No flag may be set whose number changes: one leads to the next. `WAITALL` may, with the
number of both systems, where the bit of `DONTWAIT` is set anyway. -/
theorem same_iff (flags : Word) (nonblock : Bool) :
    let m : Word := if nonblock then 0x40 else 0
    flags ||| m = solarisToLinuxMsgflags flags ||| m ↔
      if nonblock then flags &&& ~~~0x167 = 0 ∧ flags[6] = flags[8] else flags &&& ~~~0x27 = 0 := by
  intro m
  constructor
  · intro h
    have hm : ∀ j (hj : j < 32), j ≠ 6 → m[j] = false := by
      intro j hj h6
      cases nonblock
      · simp [m]
      · show (0x40#32)[j] = false
        interval_cases j <;> simp_all
    have hbit : ∀ j (hj : j < 32), j ≠ 6 → flags[j] = (solarisToLinuxMsgflags flags)[j] := by
      intro j hj h6
      have h' := congrArg (getLsbD · j) h
      simpa [getLsbD_eq_getElem hj, hm j hj h6] using h'
    unfold solarisToLinuxMsgflags at hbit h
    have h4 : flags[4] = false := by simpa [getElem_ladder] using hbit 4
    have h3 : flags[3] = false := by simpa [getElem_ladder, h4] using hbit 3
    have h7 : flags[7] = false := by simpa [getElem_ladder, h3] using hbit 7
    have h8 : flags[8] = flags[6] := by simpa [getElem_ladder] using hbit 8
    have hhigh : ∀ j (hj : j < 32), 9 ≤ j → flags[j] = false := by
      intro j hj h9
      have hj' := hbit j hj (by omega)
      rw [getElem_ladder] at hj'
      interval_cases j <;> simpa using hj'
    cases nonblock with
    | true =>
      refine ⟨?_, h8.symm⟩
      ext j hj
      interval_cases j <;> simp [h3, h4, h7, hhigh]
    | false =>
      have h6 : flags[6] = false := by
        have h' := congrArg (getLsbD · 6) h
        simpa [getElem_ladder, m, h7] using h'
      ext j hj
      interval_cases j <;> simp [h3, h4, h6, h7, h8, hhigh]
  · intro h
    ext j hj
    unfold solarisToLinuxMsgflags
    rw [getElem_or, getElem_or, getElem_ladder]
    cases nonblock with
    | true =>
      rw [← Bits.and_eq_self_iff.mpr h.1]
      interval_cases j <;> simp [m, h.2]
    | false =>
      rw [← Bits.and_eq_self_iff.mpr h]
      interval_cases j <;> simp [m]

/-- Translation and back keep the eight flags, and every call passes the translated ones
on: `solaris_recvmsg` only where it passes nothing or nothing is to be translated. -/
theorem msgflags_right_iff (c : MsgCall) (flags : Word) :
    linuxToSolarisMsgflags (solarisToLinuxMsgflags flags) = flags &&& 0xff ∧
    (c.Right flags ↔ ∀ e, c = .recvmsg e → ¬ (e.fails ∨ e.sock = none) →
      if e.sock = some true then flags &&& ~~~0x167 = 0 ∧ flags[6] = flags[8]
      else flags &&& ~~~0x27 = 0) := by
  refine ⟨msgflags_back flags, ?_⟩
  cases c with
  | recvmsg e =>
    have hiff := same_iff flags (decide (e.sock = some true))
    simp only [decide_eq_true_eq] at hiff
    unfold MsgCall.Right MsgCall.passes MsgEnv.call
    constructor
    · rintro h _ ⟨⟩ hgoes
      exact hiff.mp (h _ (if_neg hgoes))
    · intro h fl hfl
      obtain ⟨hgoes, hfl⟩ := Option.ite_none_left_eq_some.mp hfl
      exact (Option.some.inj hfl).symm.trans (hiff.mpr (h e rfl hgoes))
  | sendmsg e =>
    refine iff_of_true (fun fl hfl => ?_) nofun
    exact (Option.some.inj (Option.ite_none_left_eq_some.mp hfl).2).symm
  | _ =>
    refine iff_of_true (fun fl hfl => ?_) nofun
    exact (Option.some.inj hfl).symm.trans or_zero.symm

/-- `MSG_DONTWAIT` is `MSG_EOR` to the kernel. -/
theorem recvmsg_dontwait_lost : let c := MsgCall.recvmsg ⟨false, some false⟩
    c.passes 0x80 = some 0x80 ∧ solarisToLinuxMsgflags 0x80 = 0x40 ∧ ¬ c.Right 0x80 := by
  refine ⟨by decide, by decide, fun h => ?_⟩
  exact absurd (h 0x80 (by decide)) (by decide)

end AbiEmu.Solaris
