import AbiEmu.Signal.Action

/-!
# Waiting for children (`abi_wait`, `wyse_wait3`, `svr4_waitid`)

Three calls pass `sys_wait4` on to a program. The kernel answers with a child
and its status word, with nobody, or with an error (`Wait4`). `abi_wait` and
`wyse_wait3` let the kernel store the word in the program's memory and then
rewrite it there (`retell`); `svr4_waitid` has it stored in a local and fills a
`struct svr4_siginfo` from it. The local is not initialised, so its content
before the call is a parameter; a Xenix `wait` uses one as well.

`retell` is the same text twice in the source, once with a bound on the table
index and once without.
-/

namespace AbiEmu.Signal

open Lcall7 (PtRegs)

def WNOHANG : Word := 1
def WUNTRACED : Word := 2

/-- What `sys_wait4` finds. -/
inductive Wait4 where
  | reported (pid : Int) (pos : 0 < pid) (status : Word)
  | nobody
  | failed (errno : Int) (pos : 0 < errno)

/-- `sys_wait4` with a status pointer of the program's: the result and memory. -/
def Wait4.toUser (a : Wait4) (p : Pages) (loc : Word) (m : Mem) : Int × Mem :=
  match a with
  | .reported pid _ status =>
    if loc = 0 then (pid, m)
    else if p.canWrite loc 4 then (pid, m.store loc status.bytes)
    else (-EFAULT, m)
  | .nobody => (0, m)
  | .failed errno _ => (-errno, m)

/-- `sys_wait4` with a pointer to a local: the result and the local. -/
def Wait4.toLocal (a : Wait4) (junk : Word) : Int × Word :=
  match a with
  | .reported pid _ status => (pid, status)
  | .nobody => (0, junk)
  | .failed errno _ => (-errno, junk)

/-- The options of a program, as the kernel numbers them. -/
def waitOptions (opt : Word) : Word :=
  (if opt &&& 64 ≠ 0 then WNOHANG else 0) ||| (if opt &&& 4 ≠ 0 then WUNTRACED else 0)

/-- The signal `i` as the table has it; an index from `bound` on is not looked up
and gives `same`. -/
def lookUp (map : Table) (bound : Option Nat) (i same : Word) : Res Word :=
  match bound with
  | none => readAt map i.toInt
  | some b => if i.toNat < b then readAt map i.toInt else pure same

/-- The word to store over the status `w`, or `none` to leave it. -/
def retell (map : Table) (bound : Option Nat) (w : Word) : Res (Option Word) :=
  if w &&& 0xff = 0x7f then do
    let sig := (w >>> 8) &&& 0xff
    let sig ← lookUp map bound sig sig
    pure (some ((w &&& ~~~0xff00#32) ||| (sig <<< 8)))
  else if w ≠ 0 ∧ w = w &&& 0xff then do
    let w ← lookUp map bound (w &&& 0x7f) w
    pure (some w)
  else pure none

variable (d : Domain) (p : Pages) (wait4 : Word → Word → Wait4)

/-- `MAGIC_WAITPID_FLAG`: ZF, PF, SF and OF. -/
def magicWaitpidFlag : Word := 0x0040 ||| 0x0004 ||| 0x0080 ||| 0x0800

/-- The status pointer of an `abi_wait` and the kernel's answer. -/
def abiWaitCall (regs : PtRegs) (m : Mem) : Word × Wait4 :=
  if regs.eflags &&& magicWaitpidFlag = magicWaitpidFlag then
    (p.getUser m (regs.esp + 8),
      wait4 (p.getUser m (regs.esp + 4)) (waitOptions (p.getUser m (regs.esp + 12))))
  else (p.getUser m (regs.esp + 4), wait4 (-1) WUNTRACED)

/-- `abi_wait`; `xenix` is `is_cur_personality(PER_XENIX)` and `junk` the content
of `loc` before the call. -/
def abiWait (xenix : Bool) (junk : Word) (regs : PtRegs) (m : Mem) :
    Res (Int × PtRegs × Mem) :=
  if xenix then
    let (result, loc) := (wait4 (-1) 0).toLocal junk
    pure (result, { regs with edx := loc }, m)
  else
    let (loc, answer) := abiWaitCall p wait4 regs m
    let (result, m) := answer.toUser p loc m
    if result < 0 ∨ loc = 0 then pure (result, regs, m)
    else do
      let w := p.getUser m loc
      match ← retell d.signalMap (some nsignals) w with
      | none => pure (result, { regs with edx := w }, m)
      | some w => pure (result, { regs with edx := w }, p.putUser loc w m)

/-- `wyse_wait3`. -/
def wyseWait3 (loc : Word) (m : Mem) : Res (Int × Mem) :=
  let (pid, m) := (wait4 (-1) WNOHANG).toUser p loc m
  if loc = 0 then pure (pid, m)
  else do
    match ← retell d.signalMap none (p.getUser m loc) with
    | none => pure (pid, m)
    | some res => pure (pid, p.putUser loc res m)

/-! ## `svr4_waitid` -/

def SVR4_CLD_EXITED : Word := 1
def SVR4_CLD_KILLED : Word := 2
def SVR4_CLD_DUMPED : Word := 3
def SVR4_CLD_STOPPED : Word := 5
def SVR4_CLD_CONTINUED : Word := 6

/-- `sizeof(struct svr4_siginfo)`; `si_signo`, `si_code`, `_pid` and `_status`
are at 0, 4, 12 and 20. -/
def siginfoSize : Nat := 28

/-- The process or processes a call is about. -/
def waitidPid (idtype id : Word) : Option Word :=
  if idtype = 0 then some id
  else if idtype = 1 then some (-id)
  else if idtype = 7 then some (-1)
  else none

/-- `si_code` and `_status` for a status word. -/
def childCode (status : Word) : Res (Word × Word) :=
  if status &&& 0xff = 0 then pure (SVR4_CLD_EXITED, status.sshiftRight 8)
  else
    let st := (status &&& 0xff00) >>> 8
    if status &&& 0xff = 0x7f then do
      let op := if st = SIGSTOP ∨ st = SIGTSTP then SVR4_CLD_STOPPED else SVR4_CLD_CONTINUED
      let st ← readAt d.signalInvmap st.toInt
      pure (op, st)
    else do
      let op := if status &&& 0x80 ≠ 0 then SVR4_CLD_DUMPED else SVR4_CLD_KILLED
      let st ← readAt d.signalInvmap st.toInt
      pure (op, st)

/-- The stores into `*infop`. -/
def putSiginfo (infop : Word) (result : Int) (status : Word) (m : Mem) : Res Mem := do
  let signo ← readAt d.signalMap SIGCHLD.toInt
  let m := p.putUser infop signo m
  let m := p.putUser (infop + 12) (BitVec.ofInt 32 result) m
  let (op, st) ← childCode d status
  let m := p.putUser (infop + 4) op m
  pure (p.putUser (infop + 20) st m)

/-- `svr4_waitid`; `junk` is the content of `status` before the call. -/
def svr4Waitid (junk idtype id infop options : Word) (m : Mem) : Res (Int × Mem) :=
  match waitidPid idtype id with
  | none => pure (-EINVAL, m)
  | some pid =>
    if infop ≠ 0 ∧ p.verifyWrite infop siginfoSize = false then pure (-EFAULT, m)
    else
      let (result, status) := (wait4 pid (waitOptions options)).toLocal junk
      if result < 0 then pure (result, m)
      else if infop = 0 then pure (0, m)
      else do
        let m ← putSiginfo d p infop result status m
        pure (0, m)

/-! ## What the calls come to -/

/-- The signal a status word names, at the place where `retell` looks for it. -/
def namedSignal (w : Word) : Option Word :=
  if w &&& 0xff = 0x7f then some ((w >>> 8) &&& 0xff)
  else if w ≠ 0 ∧ w = w &&& 0xff then some (w &&& 0x7f)
  else none

/-- The word a program finds at `loc` once the kernel has answered. -/
def wordAt (p : Pages) (loc : Word) (m : Mem) : Wait4 → Word
  | .reported _ _ status => if p.canWrite loc 4 then status else p.getUser m loc
  | _ => p.getUser m loc

/-- The status `svr4_waitid` goes by, if it gets that far. -/
def statusOf (junk : Word) : Wait4 → Option Word
  | .reported _ _ status => some status
  | .nobody => some junk
  | .failed _ _ => none

/-- The word read back after the kernel has answered. -/
theorem getUser_toUser (p : Pages) {loc : Word} (hloc : loc ≠ 0) (m : Mem) (a : Wait4) :
    p.getUser (a.toUser p loc m).2 loc = wordAt p loc m a := by
  cases a with
  | reported pid pos status =>
    unfold Wait4.toUser wordAt
    dsimp only
    rw [if_neg hloc]
    split
    next hw => rw [Pages.getUser, if_pos (Pages.canRead_of_canWrite hw), Mem.word_store_bytes]
    · rfl
  | nobody | failed errno pos => rfl

section

variable (d : Domain) {p : Pages} (wait4 : Word → Word → Wait4) (junk : Word)
  {idtype id infop : Word} (options : Word) (m : Mem)

/-- Without a `siginfo` to fill, or with one the program may not write, memory is
left alone and no table is read. -/
theorem svr4Waitid_unasked
    (h : waitidPid idtype id = none ∨ infop = 0 ∨ p.verifyWrite infop siginfoSize = false) :
    ∃ r, svr4Waitid d p wait4 junk idtype id infop options m = .ok (r, m) := by
  unfold svr4Waitid
  split
  · exact ⟨_, rfl⟩
  next pid hpid =>
    dsimp only
    split
    · exact ⟨_, rfl⟩
    next hno =>
      have hinfo : infop = 0 := by
        rcases h with h | h | h
        · rw [hpid] at h
          cases h
        · exact h
        · exact Classical.byContradiction fun hne => hno ⟨hne, h⟩
      split <;> exact ⟨_, rfl⟩

/-- A call that gets as far as the kernel and has a `siginfo` to fill. -/
theorem svr4Waitid_asked {pid : Word} (hpid : waitidPid idtype id = some pid)
    (hinfo : infop ≠ 0) (hverify : p.verifyWrite infop siginfoSize = true) :
    svr4Waitid d p wait4 junk idtype id infop options m =
      match wait4 pid (waitOptions options) with
      | .reported child _ status => do
        let m ← putSiginfo d p infop child status m
        pure (0, m)
      | .nobody => do
        let m ← putSiginfo d p infop 0 junk m
        pure (0, m)
      | .failed errno _ => pure (-errno, m) := by
  unfold svr4Waitid
  rw [hpid]
  dsimp only
  rw [if_neg fun h => Bool.false_ne_true (h.2.symm.trans hverify)]
  cases wait4 pid (waitOptions options) with
  | reported child pos status | nobody =>
    unfold Wait4.toLocal
    dsimp only
    rw [if_neg (by omega), if_neg hinfo]
  | failed errno pos =>
    unfold Wait4.toLocal
    dsimp only
    rw [if_pos (by omega)]

end

end AbiEmu.Signal
