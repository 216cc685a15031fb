import AbiEmu.Tty.Termios

/-!
# The terminal settings of UnixWare (`abi/uw7/ioctl.c`, `include/abi/uw7/termbits.h`)

`tioc_tcgets` fills a structure on its own stack and copies it out as a whole; `tioc_tcsets`
copies one in. Each flag word of the get call goes through a mask of the header. `FLUSHO` is
at another place on the two sides and is translated; `DEFECHO`, which UnixWare no longer has,
is at Linux's place of it.

The masks are narrower than the words. `IFLAG_MSK` leaves out `IMAXBEL`, and `LFLAG_MSK` ends
below `ECHOPRT`, so that `ECHOKE`, `PENDIN` and `IEXTEN` are lost as well; in `c_cflag` the
upper half goes, and with it `CRTSCTS`. A set `FLUSHO` comes back, and leaves UnixWare's bit
beside it. Without `ICANON` the set call takes the end of line from the second one.
-/

namespace AbiEmu.Tty

open Bits (and_eq_self_iff and_twoPow_ne_zero and_twoPow_eq)

/-- `FLUSHO` of Linux. -/
def FLUSHO : Word := 0o10000

def UW7_DOSMODE : Word := 0o100000
def UW7_DEFECHO : Word := 0o10000
def UW7_FLUSHO : Word := 0o20000
def UW7_IFLAG_MSK : Word := 0o17777
def UW7_OFLAG_MSK : Word := 0o177777
def UW7_CFLAG_MSK : Word := 0o177777
def UW7_LFLAG_MSK : Word := 0o1777

/-- `struct uw7_termios`, with `UW7_NCCS` control characters. -/
structure Uw7Termios where
  cIflag : Word
  cOflag : Word
  cCflag : Word
  cLflag : Word
  cCc : Fin 19 → Byte

/-- `sizeof(struct uw7_termios)`, with a byte of padding. -/
def uw7TermiosSize : Nat := 36

/-- The structure in memory. The padding of a structure initialised with `{ 0 }` is zero. -/
def Uw7Termios.bytes (u : Uw7Termios) : List Byte :=
  [u.cIflag, u.cOflag, u.cCflag, u.cLflag].flatMap Word.bytes ++
    List.ofFn u.cCc ++ [0]

/-- The structure that stands at an address. -/
def Uw7Termios.load (m : Mem) (a : Word) : Uw7Termios where
  cIflag := m.word a
  cOflag := m.word (a + 4)
  cCflag := m.word (a + 8)
  cLflag := m.word (a + 12)
  cCc := fun i => m (a + BitVec.ofNat 32 (16 + i.val))

/-! ## The two calls -/

/-- `c_lflag` in `tioc_tcgets`. -/
def linuxToUw7Lflag (lflag : Word) : Word :=
  let l := UW7_LFLAG_MSK &&& (lflag &&& ~~~UW7_DEFECHO)
  if lflag &&& FLUSHO ≠ 0 then l ||| UW7_FLUSHO else l &&& ~~~UW7_FLUSHO

/-- `c_cc` in `tioc_tcgets`; what it does not assign is zero. -/
def linuxToUw7Cc (t : Termios) : Fin 19 → Byte
  -- UW7_VEOF and UW7_VMIN, UW7_VEOL and UW7_VTIME
  | 4 => if t.cLflag &&& ICANON ≠ 0 then t.cCc 4 else t.cCc 6
  | 5 => if t.cLflag &&& ICANON ≠ 0 then t.cCc 11 else t.cCc 5
  | 0 => t.cCc 0
  | 1 => t.cCc 1
  | 2 => t.cCc 2
  | 3 => t.cCc 3
  | 6 => t.cCc 16
  | 7 => t.cCc 7
  | 8 => t.cCc 8
  | 9 => t.cCc 9
  -- UW7_VSUSP and UW7_VDSUSP
  | 10 => t.cCc 10
  | 11 => t.cCc 10
  | 12 => t.cCc 12
  | 13 => t.cCc 13
  | 14 => t.cCc 14
  | 15 => t.cCc 15
  | _ => 0

/-- The structure `tmp` of `tioc_tcgets`. -/
def linuxToUw7 (t : Termios) : Uw7Termios where
  cIflag := UW7_IFLAG_MSK &&& (t.cIflag &&& ~~~UW7_DOSMODE)
  cOflag := UW7_OFLAG_MSK &&& t.cOflag
  cCflag := UW7_CFLAG_MSK &&& t.cCflag
  cLflag := linuxToUw7Lflag t.cLflag
  cCc := linuxToUw7Cc t

/-- `tioc_tcgets`. -/
def tiocTcgets (pg : Pages) (tcgets : Int × Termios) (tios : Word) (m : Mem) : Int × Mem :=
  if tcgets.1 ≠ 0 then (tcgets.1, m)
  else
    let copied := pg.copyBytesToUser tios (linuxToUw7 tcgets.2).bytes m
    (if copied.1 then 0 else -EFAULT, copied.2)

/-- `c_lflag` in `tioc_tcsets`. -/
def uw7ToLinuxLflag (lflag : Word) : Word :=
  let l := lflag &&& ~~~UW7_DEFECHO
  if lflag &&& UW7_FLUSHO ≠ 0 then l ||| FLUSHO else l &&& ~~~FLUSHO

/-- `c_cc` in `tioc_tcsets`. -/
def uw7ToLinuxCc (icanon : Bool) (tmp cc : Fin 19 → Byte) : Fin 19 → Byte :=
  fun i =>
    match i.val with
    | 0 | 1 | 2 | 3 | 7 | 8 | 9 | 10 | 12 | 13 | 14 | 15 => tmp i
    -- VEOF
    | 4 => if icanon then tmp 4 else cc 4
    -- VTIME
    | 5 => if icanon then cc 5 else tmp 5
    -- VMIN
    | 6 => if icanon then cc 6 else tmp 4
    -- VEOL, without ICANON from UW7_VEOL2
    | 11 => if icanon then tmp 5 else tmp 6
    -- VEOL2
    | 16 => tmp 6
    | _ => cc i

/-- The settings `tioc_tcsets` makes of a structure. -/
def uw7ToLinux (t : Termios) (tmp : Uw7Termios) : Termios where
  cIflag := tmp.cIflag &&& ~~~UW7_DOSMODE
  cOflag := tmp.cOflag
  cCflag := tmp.cCflag
  cLflag := uw7ToLinuxLflag tmp.cLflag
  cLine := t.cLine
  cCc := uw7ToLinuxCc (uw7ToLinuxLflag tmp.cLflag &&& ICANON ≠ 0) tmp.cCc t.cCc

/-- `tioc_tcsets`: an error, or the settings for the kernel. -/
def tiocTcsets (pg : Pages) (tcgets : Int × Termios) (tios : Word) (m : Mem) :
    Except Int Termios :=
  if ¬ pg.verifyRead tios uw7TermiosSize then .error (-EFAULT)
  else if tcgets.1 ≠ 0 then .error tcgets.1
  else if ¬ pg.canRead tios uw7TermiosSize then .error (-EFAULT)
  else .ok (uw7ToLinux tcgets.2 (.load m tios))

/-! ## The structure in user memory -/

/-- What was stored is loaded. -/
theorem Uw7Termios.load_store (m : Mem) (a : Word) (u : Uw7Termios) :
    Uw7Termios.load (m.store a u.bytes) a = u := by
  have hflags : ∀ (b : Word) (k : Nat) {w : Word}, b = a + BitVec.ofNat 32 (4 * k) →
      [u.cIflag, u.cOflag, u.cCflag, u.cLflag][k]? = some w → (m.store a u.bytes).word b = w := by
    rintro _ k w rfl hw
    have hk : k < 4 := (List.getElem?_eq_some_iff.mp hw).1
    refine Mem.word_store m a w (by omega) fun j hj => ?_
    rw [Uw7Termios.bytes, List.append_assoc, List.getElem?_append_left,
      Mem.getElem?_flatMap_bytes _ _ _ hj, hw, Option.bind_some]
    show 4 * k + j < 16
    omega
  have hcc : (fun i : Fin 19 => m.store a u.bytes (a + BitVec.ofNat 32 (16 + i.val))) = u.cCc := by
    funext i
    refine Mem.store_add m a (by omega) ?_
    rw [Uw7Termios.bytes, List.getElem?_append_left (by simp; omega),
      List.getElem?_append_right (by simp), Word.length_flatMap_bytes, List.length_cons,
      List.length_cons, List.length_cons, List.length_singleton, Nat.add_sub_cancel_left,
      List.getElem?_ofFn, dif_pos i.isLt]
  unfold Uw7Termios.load
  rw [hflags a 0 (BitVec.add_zero a).symm rfl, hflags (a + 4) 1 rfl rfl, hflags (a + 8) 2 rfl rfl,
    hflags (a + 12) 3 rfl rfl, hcc]

/-! ## What comes back -/

theorem uw7_iflag_back_iff (x : Word) :
    UW7_IFLAG_MSK &&& (x &&& ~~~UW7_DOSMODE) &&& ~~~UW7_DOSMODE = x ↔ x &&& ~~~0o17777 = 0 := by
  have hback : UW7_IFLAG_MSK &&& (x &&& ~~~UW7_DOSMODE) &&& ~~~UW7_DOSMODE = x &&& 0o17777 := by
    unfold UW7_IFLAG_MSK UW7_DOSMODE
    ext i hi
    interval_cases i <;> simp
  rw [hback]
  exact and_eq_self_iff

/-- What the two translations make of `c_lflag`. -/
theorem uw7_lflag_back (l : Word) : uw7ToLinuxLflag (linuxToUw7Lflag l) =
    if l &&& FLUSHO ≠ 0 then l &&& 0o1777 ||| 0o30000 else l &&& 0o1777 := by
  have hset : ((UW7_LFLAG_MSK &&& (l &&& ~~~UW7_DEFECHO) ||| UW7_FLUSHO) &&& ~~~UW7_DEFECHO) |||
      FLUSHO = l &&& 0o1777 ||| 0o30000 := by
    unfold UW7_LFLAG_MSK UW7_DEFECHO UW7_FLUSHO FLUSHO
    ext i hi
    interval_cases i <;> simp
  have hclear : (UW7_LFLAG_MSK &&& (l &&& ~~~UW7_DEFECHO) &&& ~~~UW7_FLUSHO &&& ~~~UW7_DEFECHO) &&&
      ~~~FLUSHO = l &&& 0o1777 := by
    unfold UW7_LFLAG_MSK UW7_DEFECHO UW7_FLUSHO FLUSHO
    ext i hi
    interval_cases i <;> simp
  have hbit : UW7_FLUSHO = BitVec.twoPow 32 13 := rfl
  unfold uw7ToLinuxLflag linuxToUw7Lflag
  split
  · rw [if_pos, hset]
    rw [hbit, and_twoPow_ne_zero _ (by omega)]
    simp
  · rw [if_neg, hclear]
    rw [hbit, and_twoPow_ne_zero _ (by omega)]
    simp

/-- `c_lflag` comes back exactly if it has nothing but its ten lower bits, or beside them
both places of `FLUSHO`. -/
theorem uw7_lflag_back_iff (l : Word) : uw7ToLinuxLflag (linuxToUw7Lflag l) = l ↔
    l &&& ~~~0o31777 = 0 ∧ (l &&& FLUSHO ≠ 0 ↔ l &&& UW7_FLUSHO ≠ 0) := by
  have hlinux : FLUSHO = BitVec.twoPow 32 12 := rfl
  have huw7 : UW7_FLUSHO = BitVec.twoPow 32 13 := rfl
  have hsplit : (0o31777 : Word) = 0o1777 ||| (BitVec.twoPow 32 12 ||| BitVec.twoPow 32 13) := by
    decide
  rw [uw7_lflag_back, huw7, and_twoPow_ne_zero l (by omega : 13 < 32)]
  split_ifs with hflush
  · have h12 : l.getLsbD 12 = true := (and_twoPow_ne_zero l (by omega)).mp (hlinux ▸ hflush)
    constructor
    · intro h
      refine ⟨?_, iff_of_true hflush ?_⟩
      all_goals rw [← h]
      · ext i hi
        interval_cases i <;> simp
      · simp
    · rintro ⟨hmask, hboth⟩
      have hself := and_eq_self_iff.mpr hmask
      rw [hsplit, BitVec.and_or_distrib_left, BitVec.and_or_distrib_left, and_twoPow_eq h12,
        and_twoPow_eq (hboth.mp hflush)] at hself
      exact hself
  · have h12 : ¬ l.getLsbD 12 = true := fun h =>
      hflush (hlinux ▸ (and_twoPow_ne_zero l (by omega)).mpr h)
    constructor
    · intro h
      refine ⟨?_, iff_of_false hflush ?_⟩
      · rw [← h, BitVec.and_assoc]
        exact BitVec.and_zero
      · rw [← h]
        simp
    · rintro ⟨hmask, hboth⟩
      have hself := and_eq_self_iff.mpr hmask
      rw [hsplit, BitVec.and_or_distrib_left, BitVec.and_or_distrib_left, BitVec.and_twoPow,
        BitVec.and_twoPow, if_neg h12, if_neg (mt hboth.mpr hflush)] at hself
      exact BitVec.or_zero.symm.trans hself

theorem uw7_icanon_back (l : Word) :
    uw7ToLinuxLflag (linuxToUw7Lflag l) &&& ICANON = l &&& ICANON := by
  rw [uw7_lflag_back]
  split
  · unfold ICANON
    ext i hi
    interval_cases i <;> simp
  · rw [BitVec.and_assoc]
    rfl

/-- The named characters come back but for the end of line, which without `ICANON` is the
second one. -/
theorem uw7_cc_back_iff (t : Termios) :
    (∀ i : Fin 19, i.val ≤ 16 →
      uw7ToLinuxCc (t.cLflag &&& ICANON ≠ 0) (linuxToUw7Cc t) t.cCc i = t.cCc i) ↔
      t.cLflag &&& ICANON ≠ 0 ∨ t.cCc 16 = t.cCc 11 := by
  by_cases hc : t.cLflag &&& ICANON ≠ 0
  · refine iff_of_true (fun i hi => ?_) (Or.inl hc)
    fin_cases i <;> simp_all [uw7ToLinuxCc, linuxToUw7Cc]
  · constructor
    · intro h
      have h11 := h 11 (by decide)
      rw [not_not] at hc
      exact Or.inr (by simpa [uw7ToLinuxCc, linuxToUw7Cc, hc] using h11)
    · intro h i hi
      fin_cases i <;> simp_all [uw7ToLinuxCc, linuxToUw7Cc]

/-! ## The round trip -/

variable (pg : Pages) (tios : Word) (m : Mem)

section

variable (t : Termios) (h : pg.canWrite tios uw7TermiosSize = true)

include t h

theorem tiocTcgets_eq : tiocTcgets pg (0, t) tios m = (0, m.store tios (linuxToUw7 t).bytes) := by
  rw [tiocTcgets, if_neg (not_not.mpr rfl)]
  rw [Pages.copyBytesToUser_of_canWrite m h]
  rfl

theorem tiocTcsets_eq :
    tiocTcsets pg (0, t) tios (m.store tios (linuxToUw7 t).bytes) =
      .ok (uw7ToLinux t (linuxToUw7 t)) := by
  have hread := Pages.canRead_of_canWrite h
  have hverify : pg.verifyRead tios uw7TermiosSize = true := Pages.verifyWrite_of_canWrite h
  rw [tiocTcsets, if_neg (not_not.mpr hverify), if_neg (not_not.mpr rfl),
    if_neg (not_not.mpr hread), Uw7Termios.load_store]

end

/-- The words and characters that come back. -/
structure Uw7Comes (t : Termios) : Prop where
  iflag : t.cIflag &&& ~~~0o17777 = 0
  oflag : t.cOflag &&& ~~~0o177777 = 0
  cflag : t.cCflag &&& ~~~0o177777 = 0
  lflag : t.cLflag &&& ~~~0o31777 = 0
  flusho : t.cLflag &&& FLUSHO ≠ 0 ↔ t.cLflag &&& UW7_FLUSHO ≠ 0
  cc : t.cLflag &&& ICANON ≠ 0 ∨ t.cCc 16 = t.cCc 11

theorem uw7ToLinux_same_iff (t : Termios) : Same (uw7ToLinux t (linuxToUw7 t)) t ↔ Uw7Comes t := by
  have hoflag : UW7_OFLAG_MSK &&& t.cOflag = t.cOflag ↔ t.cOflag &&& ~~~0o177777 = 0 := by
    rw [BitVec.and_comm]
    exact and_eq_self_iff
  have hcflag : UW7_CFLAG_MSK &&& t.cCflag = t.cCflag ↔ t.cCflag &&& ~~~0o177777 = 0 := by
    rw [BitVec.and_comm]
    exact and_eq_self_iff
  have hcc : (uw7ToLinux t (linuxToUw7 t)).cCc =
      uw7ToLinuxCc (t.cLflag &&& ICANON ≠ 0) (linuxToUw7Cc t) t.cCc := by
    show uw7ToLinuxCc (uw7ToLinuxLflag (linuxToUw7Lflag t.cLflag) &&& ICANON ≠ 0) _ _ = _
    rw [uw7_icanon_back]
    rfl
  constructor
  · intro h
    have hlflag := (uw7_lflag_back_iff t.cLflag).mp h.lflag
    refine ⟨(uw7_iflag_back_iff t.cIflag).mp h.iflag, hoflag.mp h.oflag, hcflag.mp h.cflag,
      hlflag.1, hlflag.2, ?_⟩
    refine (uw7_cc_back_iff t).mp ?_
    rw [← hcc]
    exact h.cc
  · intro h
    refine ⟨(uw7_iflag_back_iff t.cIflag).mpr h.iflag, hoflag.mpr h.oflag, hcflag.mpr h.cflag,
      (uw7_lflag_back_iff t.cLflag).mpr ⟨h.lflag, h.flusho⟩, ?_⟩
    rw [hcc]
    exact (uw7_cc_back_iff t).mpr h.cc

/-- `TCGETS` followed by `TCSETS`: both calls go through, and the kernel is given the settings
it had exactly if the flag words lie within the masks, both places of `FLUSHO` agree, and
without `ICANON` the two line ends do. -/
theorem uw7_round_trip_iff (t : Termios) (h : pg.canWrite tios uw7TermiosSize = true) :
    ∃ m' t', tiocTcgets pg (0, t) tios m = (0, m') ∧ tiocTcsets pg (0, t) tios m' = .ok t' ∧
      (Same t' t ↔ Uw7Comes t) :=
  ⟨_, _, tiocTcgets_eq pg tios m t h, tiocTcsets_eq pg tios m t h, uw7ToLinux_same_iff t⟩

/-- A terminal at 9600 baud in canonical mode comes back. -/
theorem uw7_plain_back :
    ∃ m' t', tiocTcgets .everywhere (0, plainTerminal) 0x1000 (fun _ => 0) = (0, m') ∧
      tiocTcsets .everywhere (0, plainTerminal) 0x1000 m' = .ok t' ∧ Same t' plainTerminal := by
  obtain ⟨m', t', hget, hset, hiff⟩ :=
    uw7_round_trip_iff .everywhere 0x1000 (fun _ => 0) plainTerminal (by decide)
  exact ⟨m', t', hget, hset, hiff.mpr ⟨by decide, by decide, by decide, by decide, by decide,
    by decide⟩⟩

/-- With the settings Linux starts with, `ECHOKE` and `IEXTEN` are switched off, and so is
hardware flow control. -/
theorem uw7_settings_lost :
    let t : Termios := ⟨0o2400, 0o5, 0o275 ||| CRTSCTS, 0o105073, 0, fun _ => 0⟩
    ∃ m' t', tiocTcgets .everywhere (0, t) 0x1000 (fun _ => 0) = (0, m') ∧
      tiocTcsets .everywhere (0, t) 0x1000 m' = .ok t' ∧
      t'.cLflag = 0o1073 ∧ t'.cCflag = 0o275 ∧ ¬ Same t' t := by
  intro t
  have hwrite : Pages.everywhere.canWrite 0x1000 uw7TermiosSize = true := rfl
  refine ⟨_, _, tiocTcgets_eq _ _ _ t hwrite, tiocTcsets_eq _ _ _ t hwrite, by decide, by decide,
    fun h => ?_⟩
  exact absurd h.cflag (by decide)

end AbiEmu.Tty
