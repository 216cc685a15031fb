import AbiEmu.Tty.Termios

/-!
# The terminal calls of V7 (`bsd_ioctl_termios` in `abi/svr4/termios.c`)

Three structures of V7 are kept in the settings of a Linux terminal: the special characters
(`TIOCSETC`, `TIOCGETC`), the local ones (`TIOCSLTC`, `TIOCGLTC`), and the flags of `sgtty`
(`TIOCSETP`, `TIOCGETP`). Each get call reads the settings and copies a structure out, each set
call copies one in and changes the settings.

Twelve characters go to eleven places. `t_flushc` shares `VEOL2` with `t_brkc`, so each pair of
calls disturbs the other, and `t_dsuspc` is stored over at once and read from `VSUSP`. Of the
flags `LITOUT` is the one that goes wrong: it is set by clearing `OPOST` in `c_oflag`, and
looked for in `c_cflag`, where that bit belongs to the speed.
-/

namespace AbiEmu.Tty

open BitVec

open Bits (and_eq_self_of_and_not)

/-! ## A structure in user memory -/

/-- How a structure lies in memory: what is stored is loaded again. -/
structure UserStruct (σ : Type) where
  size : Nat
  bytes : σ → List Byte
  load : Mem → Word → σ
  length_bytes : ∀ x, (bytes x).length = size
  load_store : ∀ (m : Mem) a x, load (m.store a (bytes x)) a = x

section Calls

variable {σ : Type} (u : UserStruct σ) (pg : Pages)

/-- A get call: check, ask the terminal, copy out. -/
def getCall (get : Termios → σ) (tcgets : Int × Termios) (data : Word) (m : Mem) : Int × Mem :=
  if ¬ pg.verifyWrite data u.size then (-EFAULT, m)
  else if tcgets.1 ≠ 0 then (tcgets.1, m)
  else
    let copied := pg.copyBytesToUser data (u.bytes (get tcgets.2)) m
    (if copied.1 then 0 else -EFAULT, copied.2)

/-- A set call: an error, or the settings for the kernel. -/
def setCall (set : σ → Termios → Termios) (tcgets : Int × Termios) (data : Word) (m : Mem) :
    Except Int Termios :=
  if ¬ pg.verifyRead data u.size then .error (-EFAULT)
  else if ¬ pg.canRead data u.size then .error (-EFAULT)
  else if tcgets.1 ≠ 0 then .error tcgets.1
  else .ok (set (u.load m data) tcgets.2)

/-- The structure a get call gave the caller. -/
def given (data : Word) (r : Int × Mem) : Option σ :=
  if r.1 = 0 then some (u.load r.2 data) else none

variable {u pg} {data : Word} (t : Termios) (m : Mem)

/-- A get call into memory of the caller's gives what the settings hold. -/
theorem given_getCall (h : pg.canWrite data u.size = true) (get : Termios → σ) :
    given u data (getCall u pg get (0, t) data m) = some (get t) := by
  have hverify := Pages.verifyWrite_of_canWrite h
  rw [getCall, if_neg (not_not.mpr hverify), if_neg (not_not.mpr rfl)]
  rw [← u.length_bytes (get t)] at h
  rw [Pages.copyBytesToUser_of_canWrite m h]
  exact congrArg some (u.load_store m data (get t))

theorem setCall_eq (h : pg.canRead data u.size = true) (set : σ → Termios → Termios) :
    setCall u pg set (0, t) data m = .ok (set (u.load m data) t) := by
  rw [setCall, if_neg (not_not.mpr (Pages.verifyRead_of_canRead h)), if_neg (not_not.mpr h),
    if_neg (not_not.mpr rfl)]

end Calls

/-! ## The special characters -/

/-- `struct v7_tchars`. -/
structure V7Tchars where
  tIntrc : Byte
  tQuitc : Byte
  tStartc : Byte
  tStopc : Byte
  tEofc : Byte
  tBrkc : Byte
  deriving DecidableEq

/-- `struct v7_ltchars`. -/
structure V7Ltchars where
  tSuspc : Byte
  tDsuspc : Byte
  tRprntc : Byte
  tFlushc : Byte
  tWerasc : Byte
  tLnextc : Byte
  deriving DecidableEq

/-- A store of fewer than 2³² bytes is read back byte by byte. -/
theorem store_at (m : Mem) (a : Word) (bs : List Byte) (i : Nat) {b : Byte} (hi : i < 8)
    (hb : bs[i]? = some b) : m.store a bs (a + BitVec.ofNat 32 i) = b :=
  Mem.store_add m a (by omega) hb

def tcharsIn : UserStruct V7Tchars where
  size := 6
  bytes x := [x.tIntrc, x.tQuitc, x.tStartc, x.tStopc, x.tEofc, x.tBrkc]
  load m a := ⟨m (a + 0#32), m (a + 1#32), m (a + 2#32), m (a + 3#32), m (a + 4#32), m (a + 5#32)⟩
  length_bytes _ := rfl
  load_store m a x := by
    cases x
    congr 1 <;> exact store_at m a _ _ (by decide) rfl

def ltcharsIn : UserStruct V7Ltchars where
  size := 6
  bytes x := [x.tSuspc, x.tDsuspc, x.tRprntc, x.tFlushc, x.tWerasc, x.tLnextc]
  load m a := ⟨m (a + 0#32), m (a + 1#32), m (a + 2#32), m (a + 3#32), m (a + 4#32), m (a + 5#32)⟩
  length_bytes _ := rfl
  load_store m a x := by
    cases x
    congr 1 <;> exact store_at m a _ _ (by decide) rfl

/-- `TIOCGETC` reads `VINTR`, `VQUIT`, `VSTART`, `VSTOP`, `VEOF` and `VEOL2`. -/
def tcharsOf (t : Termios) : V7Tchars := ⟨t.cCc 0, t.cCc 1, t.cCc 8, t.cCc 9, t.cCc 4, t.cCc 16⟩

/-- `TIOCSETC` writes them. -/
def setTchars (tc : V7Tchars) (t : Termios) : Termios where
  __ := t
  cCc i :=
    match i.val with
    | 0 => tc.tIntrc
    | 1 => tc.tQuitc
    | 8 => tc.tStartc
    | 9 => tc.tStopc
    | 4 => tc.tEofc
    | 16 => tc.tBrkc
    | _ => t.cCc i

/-- `TIOCGLTC` reads `VSUSP` twice, then `VREPRINT`, `VEOL2`, `VWERASE` and `VLNEXT`. -/
def ltcharsOf (t : Termios) : V7Ltchars :=
  ⟨t.cCc 10, t.cCc 10, t.cCc 12, t.cCc 16, t.cCc 14, t.cCc 15⟩

/-- `TIOCSLTC`: `VEOL2` is written with `t_dsuspc` first and with `t_flushc` after it. -/
def setLtchars (tc : V7Ltchars) (t : Termios) : Termios where
  __ := t
  cCc i :=
    match i.val with
    | 10 => tc.tSuspc
    | 12 => tc.tRprntc
    | 16 => tc.tFlushc
    | 14 => tc.tWerasc
    | 15 => tc.tLnextc
    | _ => t.cCc i

def tiocsetc (pg : Pages) := setCall tcharsIn pg setTchars
def tiocgetc (pg : Pages) := getCall tcharsIn pg tcharsOf
def tiocgltc (pg : Pages) := getCall ltcharsIn pg ltcharsOf
def tiocsltc (pg : Pages) := setCall ltcharsIn pg setLtchars

/-- What the two pairs of calls promise: `ta` are the settings after `TIOCSETC` with `a`, `tb`
those after `TIOCSLTC` with `b`, and the get calls use the memory at `data`. -/
structure CharsKept (pg : Pages) (data : Word) (m : Mem) (t ta tb : Termios) (a : V7Tchars)
    (b : V7Ltchars) : Prop where
  tchars : given tcharsIn data (tiocgetc pg (0, ta) data m) = some a
  ltchars : given ltcharsIn data (tiocgltc pg (0, tb) data m) = some b
  ltcharsStay : given ltcharsIn data (tiocgltc pg (0, ta) data m) =
    given ltcharsIn data (tiocgltc pg (0, t) data m)
  tcharsStay : given tcharsIn data (tiocgetc pg (0, tb) data m) =
    given tcharsIn data (tiocgetc pg (0, t) data m)

section Chars

variable {pg : Pages} {data : Word} (m : Mem) (t : Termios)

/-- It is kept exactly if the delayed suspend character is the suspend character, and both set
calls write to `VEOL2` what was there. -/
theorem charsKept_iff (h : pg.canWrite data 6 = true) (a : V7Tchars) (b : V7Ltchars) :
    CharsKept pg data m t (setTchars a t) (setLtchars b t) a b ↔
      b.tDsuspc = b.tSuspc ∧ a.tBrkc = t.cCc 16 ∧ b.tFlushc = t.cCc 16 := by
  have hget (t : Termios) : given tcharsIn data (tiocgetc pg (0, t) data m) = some (tcharsOf t) :=
    given_getCall t m h tcharsOf
  have hgetl (t : Termios) :
      given ltcharsIn data (tiocgltc pg (0, t) data m) = some (ltcharsOf t) :=
    given_getCall t m h ltcharsOf
  constructor
  · intro h
    have hltchars := (hgetl _).symm.trans h.ltchars
    have hlstay := (hgetl _).symm.trans (h.ltcharsStay.trans (hgetl t))
    have htstay := (hget _).symm.trans (h.tcharsStay.trans (hget t))
    exact ⟨(congrArg V7Ltchars.tDsuspc (Option.some.inj hltchars)).symm,
      congrArg V7Ltchars.tFlushc (Option.some.inj hlstay),
      congrArg V7Tchars.tBrkc (Option.some.inj htstay)⟩
  · intro ⟨hsusp, hbrk, hflush⟩
    refine ⟨hget _, (hgetl _).trans (congrArg some ?_), ?_, ?_⟩
    · exact congrArg (V7Ltchars.mk b.tSuspc · b.tRprntc b.tFlushc b.tWerasc b.tLnextc) hsusp.symm
    · rw [hgetl, hgetl]
      show some (V7Ltchars.mk _ _ _ a.tBrkc _ _) = _
      rw [hbrk]
      rfl
    · rw [hget, hget]
      show some (V7Tchars.mk _ _ _ _ _ b.tFlushc) = _
      rw [hflush]
      rfl

/-- `TIOCSETC` with the structure at `pa` and `TIOCSLTC` with that at `pb` go through, and the
promise is kept exactly if they write to `VEOL2` what was there and the delayed suspend
character is the suspend character. -/
theorem v7_chars_iff (pa pb : Word) (ha : pg.canRead pa 6 = true) (hb : pg.canRead pb 6 = true)
    (hdata : pg.canWrite data 6 = true) :
    let a := tcharsIn.load m pa
    let b := ltcharsIn.load m pb
    ∃ ta tb, tiocsetc pg (0, t) pa m = .ok ta ∧ tiocsltc pg (0, t) pb m = .ok tb ∧
      (CharsKept pg data m t ta tb a b ↔
        b.tDsuspc = b.tSuspc ∧ a.tBrkc = t.cCc 16 ∧ b.tFlushc = t.cCc 16) :=
  ⟨_, _, setCall_eq t m ha setTchars, setCall_eq t m hb setLtchars, charsKept_iff m t hdata _ _⟩

end Chars

/-- The usual characters, on a terminal whose `VEOL2` is 15. -/
theorem v7_chars_kept_usual :
    let m := (Mem.store (fun _ => 0) 0x1000 [3, 28, 17, 19, 4, 15]).store 0x2000
      [26, 26, 18, 15, 23, 22]
    let t := { plainTerminal with cCc := fun _ => 15 }
    ∃ ta tb, tiocsetc .everywhere (0, t) 0x1000 m = .ok ta ∧
      tiocsltc .everywhere (0, t) 0x2000 m = .ok tb ∧
      CharsKept .everywhere 0x3000 m t ta tb (tcharsIn.load m 0x1000)
        (ltcharsIn.load m 0x2000) := by
  intro m t
  obtain ⟨ta, tb, hta, htb, hiff⟩ := @v7_chars_iff .everywhere 0x3000 m t 0x1000 0x2000
    (by decide) (by decide) (by decide)
  exact ⟨ta, tb, hta, htb, hiff.mpr ⟨rfl, rfl, rfl⟩⟩

/-- A break character of 113 becomes the flush character, a flush character of 15 the break
character, and a delayed suspend character of 25 comes back as the suspend character. -/
theorem v7_chars_disturbed :
    let a : V7Tchars := ⟨3, 28, 17, 19, 4, 113⟩
    let b : V7Ltchars := ⟨26, 25, 18, 15, 23, 22⟩
    let t := plainTerminal
    ltcharsOf t = ⟨0, 0, 0, 0, 0, 0⟩ ∧ ltcharsOf (setTchars a t) = ⟨0, 0, 0, 113, 0, 0⟩ ∧
      (tcharsOf (setLtchars b t)).tBrkc = 15 ∧
      ltcharsOf (setLtchars b t) = ⟨26, 26, 18, 15, 23, 22⟩ ∧
      ¬ CharsKept .everywhere 0x3000 (fun _ => 0) t (setTchars a t) (setLtchars b t) a b := by
  intro a b t
  refine ⟨by decide, by decide, by decide, by decide, fun h => ?_⟩
  exact absurd ((charsKept_iff _ t (by decide) a b).mp h).1 (by decide)

/-! ## The flags of `sgtty` -/

/-- `struct v7_sgttyb`. -/
structure V7Sgttyb where
  sgIspeed : Byte
  sgOspeed : Byte
  sgErase : Byte
  sgKill : Byte
  sgFlags : Word

def sgttybIn : UserStruct V7Sgttyb where
  size := 8
  bytes x := [x.sgIspeed, x.sgOspeed, x.sgErase, x.sgKill] ++ x.sgFlags.bytes
  load m a :=
    ⟨m (a + 0#32), m (a + 1#32), m (a + 2#32), m (a + 3#32), m.word (a + BitVec.ofNat 32 4)⟩
  length_bytes _ := rfl
  load_store m a x := by
    have hbytes : ∀ j < 4, ([x.sgIspeed, x.sgOspeed, x.sgErase, x.sgKill] ++
        x.sgFlags.bytes)[4 + j]? = x.sgFlags.bytes[j]? := by
      intro j hj
      rw [List.getElem?_append_right (by simp)]
      simp
    have hflags := Mem.word_store m a x.sgFlags (by decide) hbytes
    rw [store_at m a _ 0 (by decide) rfl, store_at m a _ 1 (by decide) rfl,
      store_at m a _ 2 (by decide) rfl, store_at m a _ 3 (by decide) rfl, hflags]

/-- The flags `TIOCGETP` takes from `c_cflag`: `O_ODDP`, `O_EVENP` and `LITOUT`. -/
def sgLineFlags (cflag : Word) : Word :=
  (cflag &&& 0o1000#32) >>> 3 ||| (cflag &&& 0o400#32) >>> 1 |||
    if cflag &&& 1#32 ≠ 0 then 0#32 else 0x200000#32

/-- The flags it takes from `c_oflag` and `c_lflag`. -/
def sgModeFlags (oflag lflag : Word) : Word :=
  (oflag &&& 4#32) <<< 2 ||| oflag &&& 0o40400#32 |||
    (if oflag &&& 0o14000#32 ≠ 0 then 0o2000#32 else 0#32) ||| (oflag &&& 0o3000#32) <<< 3 |||
    (oflag &&& 0o20000#32) <<< 2 ||| lflag &&& 0o14#32 |||
    if lflag &&& ICANON ≠ 0 then 0#32 else if lflag &&& 1#32 ≠ 0 then 2#32 else 0x20#32

/-- `TIOCGETP`. -/
def sgttybOf (t : Termios) : V7Sgttyb :=
  ⟨0, 0, t.cCc 2, t.cCc 3, sgLineFlags t.cCflag ||| sgModeFlags t.cOflag t.cLflag⟩

/-- `c_oflag` after `TIOCSETP`: `OPOST` and `ONLCR` for `O_CRMOD`, without `OPOST` for
`LITOUT`. -/
def setOflag (flags : Word) : Word :=
  let o : Word := if flags &&& 0x10 ≠ 0 then 0o5 else 0
  if flags &&& 0x200000 ≠ 0 then o &&& ~~~1 else o

/-- `c_lflag` after it. -/
def setLflag (flags : Word) : Word :=
  let l : Word := 0o3
  let l := if flags &&& 0x02 ≠ 0 then l &&& ~~~ICANON else l
  let l := if flags &&& 0x08 ≠ 0 then l ||| 0o105070 else l
  if flags &&& 0x20 ≠ 0 then l &&& ~~~3 else l

/-- `TIOCSETP` and `TIOCSETN`. -/
def setSgttyb (sg : V7Sgttyb) (t : Termios) : Termios where
  cIflag := if sg.sgFlags &&& 0x20 ≠ 0 then 0 else 0o2400
  cOflag := setOflag sg.sgFlags
  cCflag := t.cCflag
  cLflag := setLflag sg.sgFlags
  cLine := t.cLine
  cCc i :=
    let raw := setLflag sg.sgFlags &&& ICANON = 0
    match i.val with
    | 2 => sg.sgErase
    | 3 => sg.sgKill
    -- VTIME and VMIN
    | 5 => if raw then 0 else t.cCc 5
    | 6 => if raw then 1 else t.cCc 6
    | _ => t.cCc i

def tiocsetp (pg : Pages) := setCall sgttybIn pg setSgttyb
def tiocgetp (pg : Pages) := getCall sgttybIn pg sgttybOf

/-- The five flags a program can set: `O_CBREAK`, `O_ECHO`, `O_CRMOD`, `O_RAW` and `LITOUT`. -/
def sgSettable : Word := 0x20003a

/-- The flags of `c_cflag`, which the set call leaves alone: `O_ODDP` and `O_EVENP`. -/
def sgParity : Word := 0xc0

/-- What was set is read back, and no flag that was cleared is reported. -/
structure SgRead (sg sg' : V7Sgttyb) : Prop where
  erase : sg'.sgErase = sg.sgErase
  kill : sg'.sgKill = sg.sgKill
  flags : sg'.sgFlags &&& sgSettable = sg.sgFlags
  others : sg'.sgFlags &&& ~~~(sgSettable ||| sgParity) = 0

section

variable {f : Word} (h : f &&& ~~~sgSettable = 0)

include h

/-- A value built from the five flags, by its bits. -/
theorem sgFlags_eq :
    f = (if f.getLsbD 1 then 0x02#32 else 0) ||| (if f.getLsbD 3 then 0x08#32 else 0) |||
      (if f.getLsbD 4 then 0x10#32 else 0) ||| (if f.getLsbD 5 then 0x20#32 else 0) |||
      if f.getLsbD 21 then 0x200000#32 else 0 := by
  have hself := (and_eq_self_of_and_not h).symm
  have hmask : sgSettable = twoPow 32 1 ||| twoPow 32 3 ||| twoPow 32 4 |||
      twoPow 32 5 ||| twoPow 32 21 := by decide
  rw [hmask] at hself
  simp only [and_or_distrib_left, and_twoPow] at hself
  exact hself

/-- What is reported of `c_oflag` and `c_lflag` after the set call are the first four flags. -/
theorem sgModeFlags_set (hone : f &&& 0x22 ≠ 0x22) :
    sgModeFlags (setOflag f) (setLflag f) = f &&& 0x3a := by
  rw [sgFlags_eq h] at hone ⊢
  generalize f.getLsbD 1 = b1, f.getLsbD 3 = b3, f.getLsbD 4 = b4, f.getLsbD 5 = b5,
    f.getLsbD 21 = b21 at hone ⊢
  revert b1 b3 b4 b5 b21
  decide

/-- With these, all five flags are there if the last one is. -/
theorem litout_iff (litout : Bool) :
    (if litout then 0x200000#32 else 0#32) ||| f &&& 0x3a = f ↔
      (f &&& 0x200000 ≠ 0 ↔ litout = true) := by
  rw [sgFlags_eq h]
  generalize f.getLsbD 1 = b1, f.getLsbD 3 = b3, f.getLsbD 4 = b4, f.getLsbD 5 = b5,
    f.getLsbD 21 = b21
  revert b1 b3 b4 b5 b21 litout
  decide

end

/-- What is reported of `c_cflag`, in the five flags and outside of them and the parity. -/
theorem sgLineFlags_masked (c : Word) :
    sgLineFlags c &&& sgSettable = (if (c &&& 1 == 0) = true then 0x200000#32 else 0#32) ∧
      sgLineFlags c &&& ~~~(sgSettable ||| sgParity) = 0 := by
  have hmask : ((c &&& 0o1000#32) >>> 3 ||| (c &&& 0o400#32) >>> 1) &&& ~~~sgParity = 0 := by
    unfold sgParity
    ext i hi
    interval_cases i <;> simp
  -- the two parity flags are neither among the five nor among the others
  have hparity : ∀ mask : Word, sgParity &&& mask = 0 →
      sgLineFlags c &&& mask = (if c &&& 1 ≠ 0 then 0#32 else 0x200000#32) &&& mask := by
    intro mask hmask0
    unfold sgLineFlags
    rw [← and_eq_self_of_and_not hmask, BitVec.and_or_distrib_right, BitVec.and_assoc, hmask0]
    exact congrArg (· ||| _) and_zero |>.trans zero_or
  rw [hparity _ (by decide), hparity _ (by decide)]
  by_cases hc : c &&& 1 = 0
  · rw [if_neg (not_not.mpr hc), if_pos (beq_iff_eq.mpr hc)]
    decide
  · rw [if_pos hc, if_neg (mt beq_iff_eq.mp hc)]
    decide

/-- The flags come back exactly if the lowest bit of `c_cflag` is clear for `LITOUT` and set
without it. -/
theorem sgRead_iff {sg : V7Sgttyb} (t : Termios) (h : sg.sgFlags &&& ~~~sgSettable = 0)
    (hone : sg.sgFlags &&& 0x22 ≠ 0x22) :
    SgRead sg (sgttybOf (setSgttyb sg t)) ↔ (sg.sgFlags &&& 0x200000 ≠ 0 ↔ t.cCflag &&& 1 = 0) := by
  obtain ⟨hline, hother⟩ := sgLineFlags_masked t.cCflag
  have hflags : (sgttybOf (setSgttyb sg t)).sgFlags =
      sgLineFlags t.cCflag ||| sg.sgFlags &&& 0x3a :=
    congrArg (sgLineFlags t.cCflag ||| ·) (sgModeFlags_set h hone)
  have hback := litout_iff h (t.cCflag &&& 1 == 0)
  rw [← hline, beq_iff_eq] at hback
  have hfive : sg.sgFlags &&& 0x3a &&& sgSettable = sg.sgFlags &&& 0x3a := by
    rw [BitVec.and_assoc]
    rfl
  rw [← hback]
  constructor
  · intro hread
    have := hread.flags
    rw [hflags, and_or_distrib_right, hfive] at this
    exact this
  · intro hall
    refine ⟨rfl, rfl, ?_, ?_⟩
    · rw [hflags, and_or_distrib_right, hfive]
      exact hall
    · rw [hflags, BitVec.and_or_distrib_right, hother, BitVec.and_assoc]
      exact zero_or.trans and_zero

/-- Setting the flags at `p` goes through, and what is read at `data` afterwards are these flags
exactly if bit 0 of `c_cflag`, where `OPOST` is looked for, is clear for `LITOUT` and set
without it. -/
theorem v7_sgttyb_iff (pg : Pages) (p data : Word) (m : Mem) (t : Termios)
    (hp : pg.canRead p 8 = true) (hdata : pg.canWrite data 8 = true)
    (h : (sgttybIn.load m p).sgFlags &&& ~~~sgSettable = 0)
    (hone : (sgttybIn.load m p).sgFlags &&& 0x22 ≠ 0x22) :
    ∃ t' sg', tiocsetp pg (0, t) p m = .ok t' ∧
      given sgttybIn data (tiocgetp pg (0, t') data m) = some sg' ∧
      (SgRead (sgttybIn.load m p) sg' ↔
        ((sgttybIn.load m p).sgFlags &&& 0x200000 ≠ 0 ↔ t.cCflag &&& 1 = 0)) :=
  ⟨_, _, setCall_eq t m hp setSgttyb, given_getCall _ m hdata sgttybOf, sgRead_iff t h hone⟩

/-- At 50 baud (`B50` is 1) `O_ECHO` and `O_CRMOD` are read back as they are. -/
theorem v7_sgttyb_b50 :
    let m := Mem.store (fun _ => 0) 0x1000 [1, 1, 8, 21, 0x18, 0, 0, 0]
    ∃ t' sg', tiocsetp .everywhere (0, { plainTerminal with cCflag := 1 }) 0x1000 m = .ok t' ∧
      given sgttybIn 0x2000 (tiocgetp .everywhere (0, t') 0x2000 m) = some sg' ∧
      SgRead (sgttybIn.load m 0x1000) sg' := by
  intro m
  obtain ⟨t', sg', hset, hget, hiff⟩ := v7_sgttyb_iff .everywhere 0x1000 0x2000 m
    { plainTerminal with cCflag := 1 } (by decide) (by decide) (by decide) (by decide)
  exact ⟨t', sg', hset, hget, hiff.mpr (by decide)⟩

/-- `O_ECHO` and `O_CRMOD` at 19200 baud (`B19200` is `016`) come back with `LITOUT`; at 9600
baud (`B9600` is `015`) `LITOUT` is lost. -/
theorem v7_litout_wrong :
    let set (flags cflag : Word) :=
      setSgttyb ⟨0, 0, 0, 0, flags⟩ { plainTerminal with cCflag := cflag }
    (sgttybOf (set 0x18 0o16)).sgFlags = 0x200018 ∧
      (sgttybOf (set 0x200018 0o15)).sgFlags = 0x18 ∧
      ¬ SgRead ⟨0, 0, 0, 0, 0x18⟩ (sgttybOf (set 0x18 0o16)) := by
  intro set
  refine ⟨by decide, by decide, fun h => ?_⟩
  exact absurd h.flags (by decide)

end AbiEmu.Tty
