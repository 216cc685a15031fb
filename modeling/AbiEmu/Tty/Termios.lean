import Mathlib.Tactic.FinCases
import Mathlib.Tactic.IntervalCases
import AbiEmu.Lib.Bits
import AbiEmu.Lib.User

/-!
# Terminal settings (`abi/svr4/termios.c`)

`TCGETS` and `TCSETS` of System V move the same settings as those of Linux, in a
structure whose flags and control characters are arranged differently. Each call
translates between the kernel's `struct termios` and the caller's
`struct svr4_termios`: flags the two systems place differently are moved, flags the
caller has no place for are taken from the terminal's present settings.

A program that reads the settings and writes them back should change nothing. The
flags that System V keeps in `c_lflag` come back but for one: `ECHOCTL` has no place
there, and the set call ors the terminal's own `ECHOCTL` into the caller's `TOSTOP`
before it takes it out again. In `c_cflag` the set call clears four bits it takes for
SCO's own, which are the baud rates of `CBAUDEX` and more. Of the control characters
the get call never fills the last three, and the set call takes the second line end
from the first of them and, without `ICANON`, the end of line from its neighbour.
`termios_round_trip_iff` is the exact list.
-/

namespace AbiEmu.Tty

open Bits (and_eq_self_of_and_not and_twoPow_ne_zero)

def EFAULT : Int := 14

def ICANON : Word := 0o2
def TOSTOP : Word := 0o400
def ECHOCTL : Word := 0o1000
def CRTSCTS : Word := 0o20000000000

/-- The kernel's `struct termios`. -/
structure Termios where
  cIflag : Word
  cOflag : Word
  cCflag : Word
  cLflag : Word
  cLine : Byte
  cCc : Fin 19 → Byte

/-- `NCCS` is not zero: the characters are named by their numbers. -/
instance nccs_neZero : NeZero 19 := ⟨by decide⟩

/-- `SVR4_NCCS`. -/
def SVR4_NCCS : Nat := 19

/-- `sizeof(struct svr4_termios)`: four words of flags, the characters and one byte. -/
def svr4TermiosSize : Nat := 36

/-! ## From Linux to System V -/

/-- The moves of `c_lflag` in `linux_to_svr4_termios`. -/
def linuxToSvr4Lflag (lflag : Word) : Word :=
  let l := lflag &&& ~~~0o1000
  let l := l ||| (l &&& 0o400) <<< 1
  let l := l &&& ~~~0o400
  let l := l ||| (l &&& 0o100000) >>> 7
  let l := l &&& ~~~0o100000
  l &&& 0o1777

/-- The array `svr4_cc` of `linux_to_svr4_termios`; what it does not assign is what
`frame` held. The moves of `c_lflag` before it leave `ICANON` where it is. -/
def linuxToSvr4Cc (frame : Nat → Byte) (t : Termios) : Nat → Byte
  | 0 => t.cCc 0
  | 1 => t.cCc 1
  | 2 => t.cCc 2
  | 3 => t.cCc 3
  | 4 => if t.cLflag &&& ICANON ≠ 0 then t.cCc 4 else t.cCc 6
  | 5 => if t.cLflag &&& ICANON ≠ 0 then t.cCc 11 else t.cCc 5
  | 6 => t.cCc 16
  | 7 => t.cCc 7
  | 8 => t.cCc 8
  | 9 => t.cCc 9
  | 10 => t.cCc 10
  | 11 => t.cCc 10
  | 12 => t.cCc 12
  | 13 => t.cCc 13
  | 14 => t.cCc 14
  | 15 => t.cCc 15
  | n => frame n

/-- `linux_to_svr4_termios`: `tcgets` is what the kernel answers, with the settings of
the terminal, and `frame` what the array `svr4_cc` holds at the start. -/
def linuxToSvr4Termios (pg : Pages) (frame : Nat → Byte) (tcgets : Int × Termios) (it : Word)
    (m : Mem) : Int × Mem :=
  if ¬ pg.verifyWrite it svr4TermiosSize then (-EFAULT, m)
  else if tcgets.1 ≠ 0 then (tcgets.1, m)
  else
    let t := tcgets.2
    let m := pg.putUser it (t.cIflag &&& 0o17777) m
    let m := pg.putUser (it + 4) (t.cOflag &&& 0o177777) m
    let cflag := if t.cCflag &&& CRTSCTS ≠ 0 then t.cCflag ||| 0o100000 else t.cCflag
    let m := pg.putUser (it + 8) (cflag &&& 0o177777) m
    let m := pg.putUser (it + 12) (linuxToSvr4Lflag t.cLflag) m
    let copied :=
      pg.copyBytesToUser (it + 16) ((List.range SVR4_NCCS).map (linuxToSvr4Cc frame t)) m
    (if copied.1 then 0 else -EFAULT, copied.2)

/-! ## From System V to Linux -/

/-- The moves of `c_lflag` in `svr4_to_linux_termios`: the terminal's flags and the
caller's word, read into a `u_short`. -/
def svr4ToLinuxLflag (lflag r : Word) : Word :=
  let saved := lflag &&& 0o177777
  let l := lflag &&& ~~~0o100777
  let l := l ||| r &&& 0o177777
  let l := l &&& ~~~0o100000
  let l := l ||| (l &&& 0o400) <<< 7
  let l := l &&& ~~~0o400
  let l := l ||| (l &&& 0o1000) >>> 1
  let l := l &&& ~~~0o1000
  l ||| saved &&& 0o1000

/-- The control characters of `svr4_to_linux_termios`, from the caller's `svr4_cc`. -/
def svr4ToLinuxCc (icanon : Bool) (svr4Cc : Nat → Byte) (cc : Fin 19 → Byte) : Fin 19 → Byte :=
  fun i =>
    match i.val with
    | 0 | 1 | 2 | 3 | 7 | 8 | 9 | 10 | 12 | 13 | 14 | 15 | 16 => svr4Cc i
    | 4 => if icanon then svr4Cc 4 else cc 4
    | 5 => if icanon then cc 5 else svr4Cc 5
    | 6 => if icanon then cc 6 else svr4Cc 4
    | 11 => if icanon then svr4Cc 5 else svr4Cc 6
    | _ => cc i

/-- What a set call comes to. `excl` says whether it has made the terminal exclusive or
shared. -/
inductive SetCall where
  /-- It returns without settings for the kernel. -/
  | returns (error : Int) (excl : Option Bool)
  /-- It passes settings to the kernel. -/
  | sets (excl : Bool) (t : Termios)

/-- `svr4_to_linux_termios`. -/
def svr4ToLinuxTermios (pg : Pages) (tcgets : Int × Termios) (it : Word) (m : Mem) : SetCall :=
  if ¬ pg.verifyRead it svr4TermiosSize then .returns (-EFAULT) none
  else if tcgets.1 ≠ 0 then .returns tcgets.1 none
  else
    let t := tcgets.2
    let iflag := pg.getUser m it &&& ~~~0o100000
    let oflag := pg.getUser m (it + 4)
    let cflag := pg.getUser m (it + 8)
    let cflag := if cflag &&& 0o100000 ≠ 0 then cflag ||| CRTSCTS else cflag
    let cflag := cflag &&& ~~~0o170000
    let r := pg.getUser m (it + 12)
    let excl : Bool := r &&& 0o100000 ≠ 0
    let lflag := svr4ToLinuxLflag t.cLflag r
    match pg.copyBytesFromUser (it + 16) SVR4_NCCS m with
    | none => .returns (-EFAULT) (some excl)
    | some cc =>
      .sets excl
        { cIflag := iflag
          cOflag := oflag
          cCflag := cflag
          cLflag := lflag
          cLine := t.cLine
          cCc := svr4ToLinuxCc (lflag &&& ICANON ≠ 0) (fun i => cc.getD i 0) t.cCc }

/-! ## What comes back -/

/-- The settings agree as far as a program can see them. -/
structure Same (t u : Termios) : Prop where
  iflag : t.cIflag = u.cIflag
  oflag : t.cOflag = u.cOflag
  cflag : t.cCflag = u.cCflag
  lflag : t.cLflag = u.cLflag
  cc : ∀ i : Fin 19, i.val ≤ 16 → t.cCc i = u.cCc i

/-- The flags all have a place in the structure of System V: nothing but its bits, the
bits Linux defines in `c_lflag`, and `CRTSCTS`. -/
structure Expressible (t : Termios) : Prop where
  iflag : t.cIflag &&& ~~~0o17777 = 0
  oflag : t.cOflag &&& ~~~0o177777 = 0
  cflag : t.cCflag &&& ~~~(0o177777 ||| CRTSCTS) = 0
  lflag : t.cLflag &&& ~~~0o157777 = 0

/-- The flag words the get call stores. -/
def svr4Flags (t : Termios) : List Word :=
  [t.cIflag &&& 0o17777, t.cOflag &&& 0o177777,
    (if t.cCflag &&& CRTSCTS ≠ 0 then t.cCflag ||| 0o100000 else t.cCflag) &&& 0o177777,
    linuxToSvr4Lflag t.cLflag]

/-- The structure it leaves in user memory. -/
def filled (frame : Nat → Byte) (t : Termios) : List Byte :=
  (svr4Flags t).flatMap Word.bytes ++ (List.range SVR4_NCCS).map (linuxToSvr4Cc frame t)

section RoundTrip

variable {pg : Pages} {it : Word} {m : Mem}

section

variable (frame : Nat → Byte) (t : Termios)

include frame t

theorem linuxToSvr4Termios_eq (h : pg.canWrite it svr4TermiosSize = true) :
    linuxToSvr4Termios pg frame (0, t) it m = (0, m.store it (filled frame t)) := by
  have hput (bs : List Byte) (hbs : bs.length + 4 ≤ svr4TermiosSize) (v : Word) :
      pg.putUser (it + BitVec.ofNat 32 bs.length) v (m.store it bs) = m.store it (bs ++ v.bytes) :=
    Pages.putUser_append m v (Pages.canWrite_part h hbs) (by unfold svr4TermiosSize at hbs; omega)
  have hcopy (bs cs : List Byte) (hbs : bs.length + cs.length ≤ svr4TermiosSize) :
      pg.copyBytesToUser (it + BitVec.ofNat 32 bs.length) cs (m.store it bs) =
        (true, m.store it (bs ++ cs)) :=
    Pages.copyBytesToUser_append m bs (Pages.canWrite_part h hbs)
      (by unfold svr4TermiosSize at hbs; omega)
  -- the stores follow each other without a gap
  have hstores (w0 w1 w2 w3 : Word) (cs : List Byte) (hcs : cs.length = SVR4_NCCS) :
      pg.copyBytesToUser (it + 16) cs (pg.putUser (it + 12) w3 (pg.putUser (it + 8) w2
        (pg.putUser (it + 4) w1 (pg.putUser it w0 m)))) =
      (true, m.store it (w0.bytes ++ w1.bytes ++ w2.bytes ++ w3.bytes ++ cs)) := by
    have h0 := hput [] (by decide) w0
    rw [List.length_nil, BitVec.add_zero] at h0
    have h1 := hput w0.bytes (by simp [svr4TermiosSize]) w1
    have h2 := hput (w0.bytes ++ w1.bytes) (by simp [svr4TermiosSize]) w2
    have h3 := hput (w0.bytes ++ w1.bytes ++ w2.bytes) (by simp [svr4TermiosSize]) w3
    have h4 := hcopy (w0.bytes ++ w1.bytes ++ w2.bytes ++ w3.bytes) cs
      (by rw [hcs]; simp [svr4TermiosSize, SVR4_NCCS])
    exact (congrArg (pg.copyBytesToUser (it + 16) cs) (by
      refine (congrArg (pg.putUser (it + 12) w3) ?_).trans h3
      refine (congrArg (pg.putUser (it + 8) w2) ?_).trans h2
      exact (congrArg (pg.putUser (it + 4) w1) h0).trans h1)).trans h4
  have hverify := Pages.verifyWrite_of_canWrite h
  rw [linuxToSvr4Termios, if_neg (not_not.mpr hverify), if_neg (not_not.mpr rfl)]
  dsimp only
  rw [hstores _ _ _ _ _ (by simp)]
  simp [filled, svr4Flags]

section

variable (h : pg.canRead it svr4TermiosSize = true)

include h

/-- The flags the set call reads are those the get call stored. -/
theorem getUser_filled (b : Word) (k : Nat) {w : Word} (hb : b = it + BitVec.ofNat 32 (4 * k))
    (hw : (svr4Flags t)[k]? = some w) : pg.getUser (m.store it (filled frame t)) b = w := by
  subst hb
  have hk : k < 4 := (List.getElem?_eq_some_iff.mp hw).1
  rw [Pages.getUser, if_pos (Pages.canRead_part h (by unfold svr4TermiosSize; omega))]
  refine Mem.word_store m it w (by omega) fun j hj => ?_
  rw [filled, List.getElem?_append_left, Mem.getElem?_flatMap_bytes _ _ _ hj, hw, Option.bind_some]
  simp [svr4Flags]
  omega

theorem copyBytesFromUser_filled :
    pg.copyBytesFromUser (it + 16) SVR4_NCCS (m.store it (filled frame t)) =
      some ((List.range SVR4_NCCS).map (linuxToSvr4Cc frame t)) := by
  have hread : pg.canRead (it + 16) SVR4_NCCS = true :=
    Pages.canRead_part h (by decide)
  have hbytes := Mem.bytes_store m it ((svr4Flags t).flatMap Word.bytes)
    ((List.range SVR4_NCCS).map (linuxToSvr4Cc frame t)) [] (by simp [svr4Flags, SVR4_NCCS])
  rw [Pages.copyBytesFromUser, if_pos hread]
  exact congrArg some hbytes

end

end

end RoundTrip

/-! ## The flags -/

theorem iflag_back {x : Word} (h : x &&& ~~~0o17777 = 0) : x &&& 0o17777 &&& ~~~0o100000 = x := by
  rw [BitVec.and_assoc]
  exact and_eq_self_of_and_not h

/-- What the two moves of `c_lflag` make of it. -/
theorem lflag_back (l : Word) :
    svr4ToLinuxLflag l (linuxToSvr4Lflag l) = l ||| (l &&& ECHOCTL) >>> 1 := by
  unfold svr4ToLinuxLflag linuxToSvr4Lflag ECHOCTL
  apply BitVec.eq_of_getLsbD_eq
  intro i hi
  interval_cases i <;> simp [Bool.or_comm]

theorem lflag_back_eq_iff (l : Word) :
    l ||| (l &&& ECHOCTL) >>> 1 = l ↔ (l &&& ECHOCTL ≠ 0 → l &&& TOSTOP ≠ 0) := by
  have hctl : ECHOCTL = BitVec.twoPow 32 9 := rfl
  have hstop : TOSTOP = BitVec.twoPow 32 8 := rfl
  rw [hctl, hstop, and_twoPow_ne_zero l (by omega), and_twoPow_ne_zero l (by omega),
    BitVec.and_twoPow]
  split_ifs with h9
  · have hmove : BitVec.twoPow 32 9 >>> 1 = BitVec.twoPow 32 8 := rfl
    rw [hmove]
    constructor
    · intro h _
      rw [← h]
      simp
    · intro h
      apply BitVec.eq_of_getLsbD_eq
      intro i hi
      by_cases h8 : 8 = i
      · subst h8
        simp [h h9]
      · simp [h8]
  · exact iff_of_true (by simp) fun h => absurd h h9

theorem cflag_with_crtscts (b : Word) :
    (((b &&& 0o7777 ||| CRTSCTS) ||| 0o100000) &&& 0o177777 ||| CRTSCTS) &&& ~~~0o170000 =
      b &&& 0o7777 ||| CRTSCTS := by
  unfold CRTSCTS
  ext i hi
  interval_cases i <;> simp

theorem cflag_split {x : Word} (hx : x &&& ~~~(0o177777 ||| CRTSCTS) = 0)
    (h0 : x &&& 0o170000 = 0) : x &&& 0o7777 ||| x &&& CRTSCTS = x := by
  rw [← BitVec.and_or_distrib_left]
  refine and_eq_self_of_and_not ?_
  have hmask : ~~~((0o7777 : Word) ||| CRTSCTS) = ~~~(0o177777 ||| CRTSCTS) ||| 0o170000 := rfl
  rw [hmask, BitVec.and_or_distrib_left, hx, h0]
  rfl

/-- `c_cflag` comes back exactly without the four bits that the set call clears. -/
theorem cflag_back_iff {x y : Word} (hx : x &&& ~~~(0o177777 ||| CRTSCTS) = 0)
    (hy : y = (if x &&& CRTSCTS ≠ 0 then x ||| 0o100000 else x) &&& 0o177777) :
    (if y &&& 0o100000 ≠ 0 then y ||| CRTSCTS else y) &&& ~~~0o170000 = x ↔ x &&& 0o170000 = 0 := by
  refine ⟨fun h => ?_, fun h0 => ?_⟩
  · rw [← h, BitVec.and_assoc]
    exact BitVec.and_zero
  · have hsplit := cflag_split hx h0
    have hrts : CRTSCTS = BitVec.twoPow 32 31 := rfl
    have hrtsfl : (0o100000 : Word) = BitVec.twoPow 32 15 := rfl
    split_ifs at hy with hc
    · have hset : x &&& CRTSCTS = CRTSCTS := by
        have hbit : x.getLsbD 31 = true := (and_twoPow_ne_zero x (by omega)).mp (hrts ▸ hc)
        rw [hrts, BitVec.and_twoPow, if_pos hbit]
      have hy15 : y &&& 0o100000 ≠ 0 := by
        rw [hrtsfl, and_twoPow_ne_zero y (by omega), hy]
        simp
      rw [if_pos hy15, hy, ← hsplit, hset]
      exact cflag_with_crtscts x
    · have hlow : x &&& 0o7777 = x := by
        rw [not_not.mp hc] at hsplit
        exact BitVec.or_zero.symm.trans hsplit
      have hyx : y = x := by
        rw [hy, ← hlow, BitVec.and_assoc]
        rfl
      have hy15 : y &&& 0o100000 = 0 := by
        rw [hyx, ← hlow, BitVec.and_assoc]
        exact BitVec.and_zero
      rw [if_neg (not_not.mpr hy15), hyx, ← hlow, BitVec.and_assoc]
      rfl

theorem icanon_back (l : Word) : (l ||| (l &&& ECHOCTL) >>> 1) &&& ICANON = l &&& ICANON := by
  have hmoved : ((l &&& ECHOCTL) >>> 1) &&& ICANON = 0 := by
    unfold ECHOCTL ICANON
    ext i hi
    interval_cases i <;> simp
  rw [BitVec.and_or_distrib_right, hmoved]
  exact BitVec.or_zero

/-! ## The control characters -/

/-- Sixteen of the seventeen characters come from the terminal; the last is what was on
the stack, and without `ICANON` the end of line is read where the last should be. -/
theorem cc_back_iff (frame : Nat → Byte) (t : Termios) :
    (∀ i : Fin 19, i.val ≤ 16 →
      svr4ToLinuxCc (t.cLflag &&& ICANON ≠ 0) (linuxToSvr4Cc frame t) t.cCc i = t.cCc i) ↔
      frame 16 = t.cCc 16 ∧ (t.cLflag &&& ICANON ≠ 0 ∨ t.cCc 16 = t.cCc 11) := by
  refine ⟨fun h => ⟨h 16 (by decide), ?_⟩, fun h i hi => ?_⟩
  · by_cases hc : t.cLflag &&& ICANON ≠ 0
    · exact .inl hc
    · have h11 := h 11 (by decide)
      rw [not_not] at hc
      exact .inr (by simpa [svr4ToLinuxCc, linuxToSvr4Cc, hc] using h11)
  · obtain ⟨h16, h11⟩ := h
    by_cases hc : t.cLflag &&& ICANON ≠ 0
    all_goals fin_cases i <;> simp_all [svr4ToLinuxCc, linuxToSvr4Cc]

/-! ## The round trip -/

section RoundTrip

variable (pg : Pages) (it : Word) (m : Mem)

/-- The settings that reach the kernel when the caller hands back what it was given. -/
def handedBack (frame : Nat → Byte) (t : Termios) : Termios :=
  let cflag := (if t.cCflag &&& CRTSCTS ≠ 0 then t.cCflag ||| 0o100000 else t.cCflag) &&& 0o177777
  { cIflag := t.cIflag &&& 0o17777 &&& ~~~0o100000
    cOflag := t.cOflag &&& 0o177777
    cCflag := (if cflag &&& 0o100000 ≠ 0 then cflag ||| CRTSCTS else cflag) &&& ~~~0o170000
    cLflag := t.cLflag ||| (t.cLflag &&& ECHOCTL) >>> 1
    cLine := t.cLine
    cCc := svr4ToLinuxCc (t.cLflag &&& ICANON ≠ 0)
      (fun i => ((List.range SVR4_NCCS).map (linuxToSvr4Cc frame t)).getD i 0) t.cCc }

theorem svr4ToLinuxTermios_filled (frame : Nat → Byte) (t : Termios)
    (h : pg.canWrite it svr4TermiosSize = true) :
    ∃ excl, svr4ToLinuxTermios pg (0, t) it (m.store it (filled frame t)) =
      .sets excl (handedBack frame t) := by
  have hread := Pages.canRead_of_canWrite h
  have hverify : pg.verifyRead it svr4TermiosSize = true := Pages.verifyWrite_of_canWrite h
  have hflags := getUser_filled frame t hread (m := m)
  rw [svr4ToLinuxTermios, if_neg (not_not.mpr hverify), if_neg (not_not.mpr rfl)]
  dsimp only
  rw [hflags it 0 (BitVec.add_zero it).symm rfl, hflags (it + 4) 1 rfl rfl,
    hflags (it + 8) 2 rfl rfl, hflags (it + 12) 3 rfl rfl, copyBytesFromUser_filled frame t hread,
      lflag_back, icanon_back]
  exact ⟨_, rfl⟩

/-- What is handed back is what the terminal had, up to the flags and characters named
in the condition. -/
theorem handedBack_same_iff (frame : Nat → Byte) {t : Termios} (he : Expressible t) :
    Same (handedBack frame t) t ↔
      t.cCflag &&& 0o170000 = 0 ∧
      (t.cLflag &&& ECHOCTL ≠ 0 → t.cLflag &&& TOSTOP ≠ 0) ∧
      frame 16 = t.cCc 16 ∧ (t.cLflag &&& ICANON ≠ 0 ∨ t.cCc 16 = t.cCc 11) := by
  have hcc : (handedBack frame t).cCc =
      svr4ToLinuxCc (t.cLflag &&& ICANON ≠ 0) (linuxToSvr4Cc frame t) t.cCc := by
    funext i
    fin_cases i <;> rfl
  rw [← cflag_back_iff he.cflag rfl, ← lflag_back_eq_iff, ← cc_back_iff frame t, ← hcc]
  refine ⟨fun h => ⟨h.cflag, h.lflag, h.cc⟩, fun h => ?_⟩
  obtain ⟨hcflag, hlflag, hchars⟩ := h
  exact {
    iflag := iflag_back he.iflag
    oflag := and_eq_self_of_and_not he.oflag
    cflag := hcflag
    lflag := hlflag
    cc := hchars }

/-- `TCGETS` followed by `TCSETS`: both calls go through, and the kernel is given the
settings it had exactly if no baud rate of `CBAUDEX` or other high flag is set in
`c_cflag`, `ECHOCTL` only beside `TOSTOP`, the byte on the stack happened to be the
second line end, and that is the end of line where `ICANON` is off. -/
theorem termios_round_trip_iff (frame : Nat → Byte) {t : Termios} (he : Expressible t)
    (h : pg.canWrite it svr4TermiosSize = true) :
    ∃ m' excl t',
      linuxToSvr4Termios pg frame (0, t) it m = (0, m') ∧
      svr4ToLinuxTermios pg (0, t) it m' = .sets excl t' ∧
      (Same t' t ↔
        t.cCflag &&& 0o170000 = 0 ∧
        (t.cLflag &&& ECHOCTL ≠ 0 → t.cLflag &&& TOSTOP ≠ 0) ∧
        frame 16 = t.cCc 16 ∧ (t.cLflag &&& ICANON ≠ 0 ∨ t.cCc 16 = t.cCc 11)) := by
  obtain ⟨excl, hset⟩ := svr4ToLinuxTermios_filled pg it m frame t h
  exact ⟨_, excl, _, linuxToSvr4Termios_eq frame t h, hset, handedBack_same_iff frame he⟩

/-- A terminal at 9600 baud, eight bits, in canonical mode, without echo of control
characters. -/
def plainTerminal : Termios :=
  { cIflag := 0o2400, cOflag := 0o5, cCflag := 0o275, cLflag := 0o73, cLine := 0
    cCc := fun _ => 0 }

/-- It comes back if the stack held a zero. -/
theorem termios_round_trip_plain :
    ∃ m' excl t',
      linuxToSvr4Termios .everywhere (fun _ => 0) (0, plainTerminal) 0x1000 (fun _ => 0) = (0, m') ∧
      svr4ToLinuxTermios .everywhere (0, plainTerminal) 0x1000 m' = .sets excl t' ∧
      Same t' plainTerminal := by
  have he : Expressible plainTerminal := ⟨by decide, by decide, by decide, by decide⟩
  obtain ⟨m', excl, t', hget, hset, hiff⟩ := termios_round_trip_iff .everywhere 0x1000
    (fun _ => 0) (fun _ => 0) he (by decide)
  exact ⟨m', excl, t', hget, hset, hiff.mpr (by decide)⟩

/-- The same terminal at 57600 baud. -/
def fastTerminal : Termios := { plainTerminal with cCflag := 0o10261 }

/-- Its speed does not come back. -/
theorem fast_terminal_slowed :
    Expressible fastTerminal ∧ ∃ m' excl t',
      linuxToSvr4Termios .everywhere (fun _ => 0) (0, fastTerminal) 0x1000 (fun _ => 0) = (0, m') ∧
      svr4ToLinuxTermios .everywhere (0, fastTerminal) 0x1000 m' = .sets excl t' ∧
      t'.cCflag = 0o261 ∧ ¬ Same t' fastTerminal := by
  have hwrite : Pages.everywhere.canWrite 0x1000 svr4TermiosSize = true := rfl
  obtain ⟨excl, hset⟩ :=
    svr4ToLinuxTermios_filled .everywhere 0x1000 (fun _ => 0) (fun _ => 0) fastTerminal hwrite
  refine ⟨⟨by decide, by decide, by decide, by decide⟩, _, excl, _,
    linuxToSvr4Termios_eq _ _ hwrite, hset, by decide, fun h => ?_⟩
  exact nomatch h.cflag

end RoundTrip

end AbiEmu.Tty
