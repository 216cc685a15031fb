import AbiEmu.Signal.Ranges

/-!
# Status words and what they tell

The kernel reports the fate of a child (`Fate`) in a packed status word with its
own signal numbers. A program should learn the same fate with its own numbers
(`Fate.told`); it reads a status word (`Report.ofStatus`) or, after
`svr4_waitid`, a `siginfo` (`Report.ofSiginfo`).

This module compares the three for every fate: the kernel's own word, the word
`retell` makes of it, and the two numbers `childCode` finds. None is right for
every fate. `retell` uses `signal_map` where the inverse table is needed, and
drops the core bit. `childCode` uses the right table, but looks for the signal of
a killed child in the byte that is zero then, and takes every stop other than by
`SIGSTOP` and `SIGTSTP` for a continuation. A normal exit is told right by all.
-/

namespace AbiEmu.Signal

open BitVec Option

open Lcall7 (Personality)

/-- A signal of the kernel's that can be the end of a child. -/
abbrev Signo := { s : Nat // 1 ≤ s ∧ s ≤ 32 }

/-- What can have happened to a child. -/
inductive Fate where
  | exited (code : Byte)
  | killed (s : Signo) (core : Bool)
  | stopped (s : Signo)

def killedStatus (s : Nat) (core : Bool) : Word :=
  BitVec.ofNat 32 s ||| (if core then 0x80 else 0)

def stoppedStatus (s : Nat) : Word := (BitVec.ofNat 32 s <<< 8) ||| 0x7f

/-- The status word of the kernel. -/
def Fate.status : Fate → Word
  | .exited code => code.setWidth 32 <<< 8
  | .killed s core => killedStatus s core
  | .stopped s => stoppedStatus s

/-- What a program learns. -/
inductive Report where
  | exited (code : Word)
  | killed (sig : Word) (core : Bool)
  | stopped (sig : Word)
  deriving DecidableEq, Repr

/-- A status word as a program reads it. -/
def Report.ofStatus (w : Word) : Report :=
  if w &&& 0xff = 0x7f then .stopped ((w >>> 8) &&& 0xff)
  else if w &&& 0x7f = 0 then .exited ((w >>> 8) &&& 0xff)
  else .killed (w &&& 0x7f) (w.getLsbD 7)

/-- The `si_code` and `_status` of a `siginfo` as a program reads them. -/
def Report.ofSiginfo (code status : Word) : Option Report :=
  if code = SVR4_CLD_EXITED then some (.exited status)
  else if code = SVR4_CLD_KILLED then some (.killed status false)
  else if code = SVR4_CLD_DUMPED then some (.killed status true)
  else if code = SVR4_CLD_STOPPED then some (.stopped status)
  else none

/-- What a program should learn: the fate with its own number of the signal. -/
def Fate.told (d : Domain) : Fate → Report
  | .exited code => .exited (code.setWidth 32)
  | .killed s core => .killed (entry d.signalInvmap s) core
  | .stopped s => .stopped (entry d.signalInvmap s)

/-! ## Which fates are told right -/

variable (d : Domain)

/-- A signal that both tables take to the same number. -/
def SameNumber (s : Nat) : Prop :=
  entry d.signalMap s = entry d.signalInvmap s ∧ entry d.signalInvmap s ≠ -1
  deriving Decidable

/-- The fates that a rewritten status word tells right. -/
def Fate.WordRight : Fate → Prop
  | .exited _ => True
  | .killed s core => core = false ∧ SameNumber d s
  | .stopped s => SameNumber d s

/-- The fates that the kernel's own word tells right. -/
def Fate.RawRight : Fate → Prop
  | .exited _ => True
  | .killed s _ => entry d.signalInvmap s = BitVec.ofNat 32 s
  | .stopped s => entry d.signalInvmap s = BitVec.ofNat 32 s

/-- The fates that a `siginfo` tells right. -/
def Fate.SiginfoRight : Fate → Prop
  | .exited _ => True
  | .killed _ _ => False
  | .stopped s => s.val = 19 ∨ s.val = 20

/-- The signal that the word `w` names, if any, is in the table. -/
def InTable (w : Word) : Prop := ∀ sig, namedSignal w = some sig → sig.toNat ≤ 32

/-- The table takes the signal that `w` names to itself, and `w` has no core bit. -/
def Stays (bound : Nat) (w : Word) : Prop :=
  ∀ sig, namedSignal w = some sig → sig.toNat < bound →
    entry d.signalMap sig.toNat = sig ∧ (w &&& 0xff = 0x7f ∨ w = sig)

/-! ## The rewriting of a word -/

/-- The place of the signal in `w` overwritten with `v`. -/
def rewritten (w v : Word) : Word :=
  if w &&& 0xff = 0x7f then (w &&& ~~~0xff00#32) ||| (v <<< 8) else v

/-- What stands for a signal that is not looked up. -/
def unlooked (w : Word) : Word :=
  if w &&& 0xff = 0x7f then (w >>> 8) &&& 0xff else w

variable {bound : Option Nat}

theorem retell_unnamed {map : Table} {w : Word} (h : namedSignal w = none) :
    retell map bound w = .ok none := by
  unfold namedSignal at h
  unfold retell
  split at h
  · cases h
  next hstop =>
    split at h
    · cases h
    next hkill =>
      rw [if_neg hstop, if_neg hkill]
      rfl

theorem retell_named {map : Table} {w sig : Word} (h : namedSignal w = some sig) :
    retell map bound w =
      (lookUp map bound sig (unlooked w)).map fun v => some (rewritten w v) := by
  unfold namedSignal at h
  unfold retell unlooked rewritten
  split at h
  next hstop =>
    obtain rfl := some.inj h
    simp only [if_pos hstop]
    cases lookUp map bound (w >>> 8 &&& 255) (w >>> 8 &&& 255) <;> rfl
  next hstop =>
    split at h
    next hkill =>
      obtain rfl := some.inj h
      rw [if_neg hstop, if_pos hkill, if_neg hstop]
      simp only [if_neg hstop]
      cases lookUp map bound (w &&& 127) w <;> rfl
    · cases h

theorem getLsbD_firstByte : ∀ i < 32, (0xff#32).getLsbD i = decide (i < 8) := by decide

theorem getLsbD_secondByte : ∀ i < 32, (0xff00#32).getLsbD i = decide (8 ≤ i ∧ i < 16) := by
  decide

/-- The second byte of a word, put back. -/
theorem secondByte_restored (w : Word) :
    (w &&& ~~~0xff00#32) ||| (((w >>> 8) &&& 0xff) <<< 8) = w := by
  apply eq_of_getLsbD_eq
  intro i hi
  simp only [getLsbD_or, getLsbD_and, getLsbD_not, getLsbD_shiftLeft,
    getLsbD_ushiftRight, getLsbD_secondByte i hi, hi]
  rcases (by omega : i < 8 ∨ (8 ≤ i ∧ i < 16) ∨ 16 ≤ i) with h | h | h
  · simp [h, show ¬ 8 ≤ i by omega]
  · have hmask : (255#32).getLsbD (i - 8) = true := by
      rw [getLsbD_firstByte _ (by omega), decide_eq_true_eq]
      omega
    simp [hmask, h, show 8 + (i - 8) = i by omega, show ¬ i < 8 by omega]
  · have hmask : (255#32).getLsbD (i - 8) = false := by
      rw [getLsbD_firstByte _ (by omega), decide_eq_false_iff_not]
      omega
    simp [hmask, show ¬ i < 16 by omega]

/-- The second byte of a word whose second byte was overwritten. -/
theorem secondByte_of_overwritten (w v : Word) :
    (((w &&& ~~~0xff00#32) ||| (v <<< 8)) >>> 8) &&& 0xff = v &&& 0xff := by
  apply eq_of_getLsbD_eq
  intro i hi
  simp only [getLsbD_or, getLsbD_and, getLsbD_not, getLsbD_shiftLeft, getLsbD_ushiftRight]
  by_cases h : i < 8
  · rw [getLsbD_secondByte _ (by omega)]
    simp [show 8 + i < 16 by omega, show 8 + i < 32 by omega, show ¬ 8 + i < 8 by omega]
  · have hmask : (255#32).getLsbD i = false := by
      rw [getLsbD_firstByte _ hi, decide_eq_false_iff_not]
      exact h
    simp [hmask]

theorem rewritten_unlooked (w : Word) : rewritten w (unlooked w) = w := by
  unfold rewritten unlooked
  split
  · exact secondByte_restored w
  · rfl

/-- An entry of a table that holds small numbers and `-1`. -/
def Small (v : Word) : Prop := v = -1 ∨ v.toNat < 32

variable (dom : Personality)

theorem entry_small (i : Nat) : Small (entry (domain dom).signalMap i) := by
  by_cases hi : i < 33
  · have h : ∀ i < 33, entry (domain dom).signalMap i = -1 ∨
        (entry (domain dom).signalMap i).toNat < 32 := by
      cases dom <;> decide
    exact h i hi
  · left
    rw [entry, Vector.getElem?_eq_none (by omega), getD_none]

/-- Overwriting the signal leaves the word as it was exactly if it is the same
signal; in a word for a killed child this takes the core bit along. -/
theorem rewritten_eq_self_iff {w sig v : Word} (hsig : namedSignal w = some sig)
    (hle : sig.toNat ≤ 32) (hv : Small v) :
    rewritten w v = w ↔ v = sig ∧ (w &&& 0xff = 0x7f ∨ w = sig) := by
  unfold namedSignal at hsig
  unfold rewritten
  split at hsig
  next hstop =>
    obtain rfl := some.inj hsig
    simp only [hstop, true_or, and_true, if_true]
    constructor
    · intro h
      have hbyte := secondByte_of_overwritten w v
      rw [h] at hbyte
      rw [hbyte] at hle ⊢
      rcases hv with rfl | hv
      · exact nomatch hle
      · apply eq_of_toNat_eq
        exact (Nat.and_two_pow_sub_one_of_lt_two_pow (show v.toNat < 2 ^ 8 by omega)).symm
    · intro h
      rw [h]
      exact secondByte_restored w
  next hstop =>
    split at hsig
    next hkill =>
      obtain rfl := some.inj hsig
      rw [if_neg hstop]
      have hlow : ∀ x : Word, x.toNat < 32 → x = x &&& 0x7f := by
        intro x hx
        apply eq_of_toNat_eq
        exact (Nat.and_two_pow_sub_one_of_lt_two_pow (show x.toNat < 2 ^ 7 by omega)).symm
      constructor
      · rintro rfl
        rcases hv with rfl | hv
        · exact nomatch hkill.2
        · exact ⟨hlow v hv, .inr (hlow v hv)⟩
      · rintro ⟨rfl, h | h⟩
        · exact absurd h hstop
        · exact h.symm
    · cases hsig

variable (map : Table)

theorem readAt_small {sig : Word} (h : sig.toNat ≤ 32) :
    readAt map sig.toInt = .ok (entry map sig.toNat) := by
  rw [toInt_eq_toNat_of_lt (by omega)]
  exact readAt_entry map (by omega)

/-- The word after a rewriting that looks up the signals below `limit`. -/
def retold (map : Table) (limit : Nat) (w : Word) : Word :=
  match namedSignal w with
  | none => w
  | some sig => if sig.toNat < limit then rewritten w (entry map sig.toNat) else w

/-- A rewriting whose lookups are those below `limit`. -/
theorem retell_ok {map : Table} {limit : Nat} {w : Word}
    (hlook : ∀ sig, namedSignal w = some sig → lookUp map bound sig (unlooked w) =
      .ok (if sig.toNat < limit then entry map sig.toNat else unlooked w)) :
    ∃ told, retell map bound w = .ok told ∧ told.getD w = retold map limit w := by
  unfold retold
  split
  next hsig => exact ⟨none, retell_unnamed hsig, rfl⟩
  next sig hsig =>
    rw [retell_named hsig, hlook sig hsig]
    refine ⟨_, rfl, ?_⟩
    dsimp only
    split
    · rfl
    · exact rewritten_unlooked w

theorem retell_bounded (w : Word) :
    ∃ told, retell map (some nsignals) w = .ok told ∧ told.getD w = retold map 32 w := by
  refine retell_ok fun sig _ => ?_
  unfold lookUp nsignals
  dsimp only
  split
  next hlt => exact readAt_small map (by omega)
  · rfl

theorem retell_unbounded {w : Word} (hin : InTable w) :
    ∃ told, retell map none w = .ok told ∧ told.getD w = retold map 33 w := by
  refine retell_ok fun sig hsig => ?_
  have hle := hin sig hsig
  rw [if_pos (by omega)]
  exact readAt_small map hle

/-- A word that stays is one that is rewritten with itself. -/
theorem retold_eq_self_iff {limit : Nat} (hlimit : limit ≤ 33) (w : Word) :
    retold (domain dom).signalMap limit w = w ↔ Stays (domain dom) limit w := by
  unfold retold Stays
  cases hsig : namedSignal w with
  | none => exact iff_of_true rfl fun sig h => absurd h nofun
  | some sig =>
    simp only [some.injEq, forall_eq']
    split_ifs with hlt
    · rw [rewritten_eq_self_iff hsig (by omega) (entry_small dom _)]
      exact ⟨fun h _ => h, fun h => h hlt⟩
    · exact iff_of_true rfl fun h => absurd h hlt

/-! ## The status words of the kernel -/

theorem namedSignal_exited : ∀ code : Byte, namedSignal (Fate.exited code).status = none := by
  decide

theorem ofStatus_exited : ∀ code : Byte,
    Report.ofStatus (Fate.exited code).status = .exited (code.setWidth 32) := by
  decide

theorem namedSignal_killed : ∀ core, ∀ s < 33, 1 ≤ s →
    namedSignal (killedStatus s core) = some (BitVec.ofNat 32 s) := by
  decide

theorem ofStatus_killed : ∀ core, ∀ s < 33, 1 ≤ s →
    Report.ofStatus (killedStatus s core) = .killed (BitVec.ofNat 32 s) core := by
  decide

theorem namedSignal_stopped : ∀ s < 33, 1 ≤ s →
    namedSignal (stoppedStatus s) = some (BitVec.ofNat 32 s) := by
  decide

theorem ofStatus_stopped : ∀ s < 33, 1 ≤ s →
    Report.ofStatus (stoppedStatus s) = .stopped (BitVec.ofNat 32 s) := by
  decide

/-- No status word of the kernel names a signal outside the table. -/
theorem Fate.inTable (fate : Fate) : InTable fate.status := by
  intro sig hsig
  cases fate with
  | exited code =>
    rw [namedSignal_exited] at hsig
    cases hsig
  | killed s core =>
    obtain ⟨s, h1, h32⟩ := s
    rw [Fate.status, namedSignal_killed core s (by omega) h1] at hsig
    rw [← some.inj hsig, toNat_ofNat]
    omega
  | stopped s =>
    obtain ⟨s, h1, h32⟩ := s
    rw [Fate.status, namedSignal_stopped s (by omega) h1] at hsig
    rw [← some.inj hsig, toNat_ofNat]
    omega

/-- What the rewritten word tells about a child that was killed. -/
theorem ofStatus_retold_killed : ∀ limit ∈ [32, 33], ∀ core, ∀ s < 33, 1 ≤ s →
    (Report.ofStatus (retold (domain dom).signalMap limit (killedStatus s core)) =
        .killed (entry (domain dom).signalInvmap s) core ↔
      core = false ∧ SameNumber (domain dom) s) := by
  cases dom <;> decide +kernel

/-- What the rewritten word tells about a child that was stopped. -/
theorem ofStatus_retold_stopped : ∀ limit ∈ [32, 33], ∀ s < 33, 1 ≤ s →
    (Report.ofStatus (retold (domain dom).signalMap limit (stoppedStatus s)) =
        .stopped (entry (domain dom).signalInvmap s) ↔ SameNumber (domain dom) s) := by
  cases dom <;> decide +kernel

/-- What a rewritten status word tells. -/
theorem Fate.ofStatus_retold_iff {limit : Nat} (hlimit : limit ∈ [32, 33]) (fate : Fate) :
    Report.ofStatus (retold (domain dom).signalMap limit fate.status) = fate.told (domain dom) ↔
      fate.WordRight (domain dom) := by
  cases fate with
  | exited code =>
    rw [retold, namedSignal_exited]
    exact iff_of_true (ofStatus_exited code) trivial
  | killed s core =>
    exact ofStatus_retold_killed dom limit hlimit core s.1 (Nat.lt_succ_of_le s.2.2) s.2.1
  | stopped s =>
    exact ofStatus_retold_stopped dom limit hlimit s.1 (Nat.lt_succ_of_le s.2.2) s.2.1

/-- What the kernel's own word tells. -/
theorem Fate.ofStatus_iff (d : Domain) (fate : Fate) :
    Report.ofStatus fate.status = fate.told d ↔ fate.RawRight d := by
  cases fate with
  | exited code => exact iff_of_true (ofStatus_exited code) trivial
  | killed s core =>
    obtain ⟨s, h1, h32⟩ := s
    show Report.ofStatus (killedStatus s core) = .killed (entry d.signalInvmap s) core ↔ _
    rw [ofStatus_killed core s (by omega) h1, Report.killed.injEq, eq_comm]
    exact and_iff_left rfl
  | stopped s =>
    obtain ⟨s, h1, h32⟩ := s
    show Report.ofStatus (stoppedStatus s) = .stopped (entry d.signalInvmap s) ↔ _
    rw [ofStatus_stopped s (by omega) h1, Report.stopped.injEq, eq_comm]
    exact Iff.rfl

/-! ## The `siginfo` -/

/-- The code and number that `svr4_waitid` finds for a fate. -/
theorem Fate.childCode_tells (fate : Fate) :
    ∃ op st, childCode (domain dom) fate.status = .ok (op, st) ∧
      (Report.ofSiginfo op st = some (fate.told (domain dom)) ↔ fate.SiginfoRight) := by
  cases fate with
  | exited code =>
    have h : ∀ code : Byte, (Fate.exited code).status &&& 0xff = 0 ∧
        (Fate.exited code).status.sshiftRight 8 = code.setWidth 32 := by decide
    refine ⟨SVR4_CLD_EXITED, code.setWidth 32, ?_, iff_of_true rfl trivial⟩
    unfold childCode
    rw [if_pos (h code).1, (h code).2]
    rfl
  | killed s core =>
    obtain ⟨s, h1, h32⟩ := s
    have h : ∀ core, ∀ s < 33, 1 ≤ s → killedStatus s core &&& 0xff ≠ 0 ∧
        killedStatus s core &&& 0xff ≠ 0x7f ∧ (killedStatus s core &&& 0xff00) >>> 8 = 0 ∧
        killedStatus s core &&& 0x80 = if core then 0x80 else 0 := by decide
    obtain ⟨hne, hkill, hbyte, hcore⟩ := h core s (by omega) h1
    -- the byte that is looked up is the one of a stopped child, here zero
    have hnone : ∀ s < 33, 1 ≤ s → entry (domain dom).signalInvmap 0 ≠
        entry (domain dom).signalInvmap s := by cases dom <;> decide
    refine ⟨if core then SVR4_CLD_DUMPED else SVR4_CLD_KILLED,
      entry (domain dom).signalInvmap 0, ?_, ?_⟩
    · unfold childCode Fate.status
      rw [if_neg hne, if_neg hkill, hbyte, readAt_small _ (by decide)]
      cases core <;> simp only [hcore] <;> rfl
    · refine iff_of_false (fun htells => ?_) id
      cases core <;>
        exact hnone s (by omega) h1 (Report.killed.inj (some.inj htells)).1
  | stopped s =>
    obtain ⟨s, h1, h32⟩ := s
    have h : ∀ s < 33, 1 ≤ s → stoppedStatus s &&& 0xff ≠ 0 ∧ stoppedStatus s &&& 0xff = 0x7f ∧
        (stoppedStatus s &&& 0xff00) >>> 8 = BitVec.ofNat 32 s ∧
        ((BitVec.ofNat 32 s = SIGSTOP ∨ BitVec.ofNat 32 s = SIGTSTP) ↔ (s = 19 ∨ s = 20)) := by
      decide
    obtain ⟨hne, hstop, hbyte, hkind⟩ := h s (by omega) h1
    have hs : (BitVec.ofNat 32 s).toNat = s := by
      rw [toNat_ofNat]
      omega
    refine ⟨if s = 19 ∨ s = 20 then SVR4_CLD_STOPPED else SVR4_CLD_CONTINUED,
      entry (domain dom).signalInvmap s, ?_, ?_⟩
    · unfold childCode Fate.status
      rw [if_neg hne, if_pos hstop, hbyte, readAt_small _ (by omega), hs]
      simp only [hkind]
      rfl
    · split_ifs with hst
      · exact iff_of_true rfl hst
      · exact iff_of_false nofun hst

end AbiEmu.Signal
