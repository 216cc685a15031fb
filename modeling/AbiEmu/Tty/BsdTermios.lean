import AbiEmu.Tty.Termios

/-!
# The terminal settings of BSD (`abi/svr4/termios.c`)

`TIOCGETA` and `TIOCSETA` use a structure with flag words of 32 bits, twenty control
characters and the two speeds in baud. Each flag word is translated by moving groups of bits,
and what the set call does not move it keeps from the terminal.

The characters all come back. So do the speeds that have an entry in `speed_map` or are asked
for by name; any other code of `CBAUDEX` is used as an index and leaves the table. The flags
suffer from moves that do not match: the get call puts `IXON`, `IXOFF` and `IMAXBEL` where the
set call does not look for them, or finds something else; four bits of `c_cflag`, one of them
`CBAUDEX`, fall onto the parity; the test for hardware flow control looks at the input speed;
and of `c_lflag` three bits are not given out at all. `bsd_round_trip_iff` is the exact list.
-/

namespace AbiEmu.Tty

/-! ## Speeds -/

def B38400 : Word := 0o17
def B57600 : Word := 0o10001
def B115200 : Word := 0o10002
def CBAUD : Word := 0o10017
def CIBAUD : Word := 0o2003600000

/-- `speed_map`. -/
def speedMap : List Word :=
  [0, 50, 75, 110, 134, 150, 200, 300, 600, 1200, 1800, 2400, 4800, 9600, 19200, 38400]

/-- `bsd_to_linux_speed`. -/
def bsdToLinuxSpeed (s : Word) : Word :=
  if s = 57600 then B57600
  else if s = 115200 then B115200
  else
    match speedMap.findIdx? (s ≤ ·) with
    | some i => BitVec.ofNat 32 i
    | none => B38400

/-- `linux_to_bsd_speed`; `beyond` is what lies behind the table. -/
def linuxToBsdSpeed (beyond : Nat → Word) (s : Word) : Word :=
  if s = B57600 then 57600
  else if s = B115200 then 115200
  else speedMap.getD s.toNat (beyond s.toNat)

/-- The code of the input speed; without one of its own it is that of the output. -/
def inputSpeed (cflag : Word) : Word :=
  if cflag &&& CIBAUD ≠ 0 then (cflag &&& CIBAUD) >>> 16 else cflag &&& CBAUD

/-- The entries of `speed_map` that `linux_to_bsd_termios` reads. -/
def speedsRead (cflag : Word) : List Nat :=
  ([cflag &&& CBAUD, inputSpeed cflag].filter fun s => s ≠ B57600 ∧ s ≠ B115200).map (·.toNat)

/-- A code that stands for one of the speeds. -/
def Rated (s : Word) : Prop := s.toNat ≤ 15 ∨ s = B57600 ∨ s = B115200
  deriving Decidable

/-! ## From Linux to BSD -/

def linuxToBsdIflag (i : Word) : Word :=
  i &&& 0o777#32 ||| (i &&& 0o2000#32) >>> 1 ||| (i &&& 0o10000#32) >>> 2 |||
    (i &&& 0o20000#32) >>> 4

def linuxToBsdOflag (o : Word) : Word :=
  o &&& 1#32 ||| (o &&& 0o4#32) >>> 1 ||| if o &&& 0o14000 = 0o14000 then 4 else 0

def linuxToBsdCflag (c : Word) : Word :=
  c &&& ~~~0o20000007777#32 ||| (c &&& 0xff0#32) <<< 4 ||| if c &&& CRTSCTS ≠ 0 then 0x30000 else 0

def linuxToBsdLflag (l : Word) : Word :=
  l &&& 0o7777626010#32 ||| (l &&& 0o3#32) <<< 7 ||| (l &&& 0o1160#32) >>> 3 |||
    (l &&& 0o400#32) <<< 14 ||| (l &&& 0o2000#32) >>> 4 ||| (l &&& 0o4000#32) >>> 11 |||
    (l &&& 0o10000#32) <<< 11 ||| (l &&& 0o40000#32) <<< 15 ||| (l &&& 0o100000#32) >>> 5

/-- `BSD_NCCS`. -/
def BSD_NCCS : Nat := 20

/-- The array `bsd_cc` of `linux_to_bsd_termios`. -/
def linuxToBsdCc (cc : Fin 19 → Byte) : List Byte :=
  [cc 4, cc 11, cc 16, cc 2, cc 14, cc 3, cc 12, cc 7, cc 0, cc 1, cc 10, cc 10, cc 8, cc 9, cc 15,
    cc 13, cc 6, cc 5, 0, 0]

/-- `sizeof(struct bsd_termios)`: four words of flags, the characters and two speeds. -/
def bsdTermiosSize : Nat := 44

/-- `linux_to_bsd_termios`. -/
def linuxToBsdTermios (pg : Pages) (beyond : Nat → Word) (tcgets : Int × Termios) (it : Word)
    (m : Mem) : Int × Mem :=
  if ¬ pg.verifyWrite it bsdTermiosSize then (-EFAULT, m)
  else if tcgets.1 ≠ 0 then (tcgets.1, m)
  else
    let t := tcgets.2
    let m := pg.putUser it (linuxToBsdIflag t.cIflag) m
    let m := pg.putUser (it + 4) (linuxToBsdOflag t.cOflag) m
    let m := pg.putUser (it + 8) (linuxToBsdCflag t.cCflag) m
    let m := pg.putUser (it + 40) (linuxToBsdSpeed beyond (t.cCflag &&& CBAUD)) m
    let m := pg.putUser (it + 36) (linuxToBsdSpeed beyond (inputSpeed t.cCflag)) m
    let m := pg.putUser (it + 12) (linuxToBsdLflag t.cLflag) m
    let copied := pg.copyBytesToUser (it + 16) (linuxToBsdCc t.cCc) m
    (if copied.1 then 0 else -EFAULT, copied.2)

/-! ## From BSD to Linux -/

def bsdToLinuxIflag (i : Word) : Word :=
  i &&& ~~~0xc00#32 ||| (i &&& 0x400#32) <<< 1 ||| (i &&& 0x800#32) >>> 1

def bsdToLinuxOflag (o temp : Word) : Word :=
  o &&& ~~~0x1805#32 ||| temp &&& 9#32 ||| (temp &&& 2#32) <<< 1 ||| (temp &&& 4#32) <<< 10 |||
    (temp &&& 4#32) <<< 9

/-- `c_cflag` before the speeds. -/
def bsdToLinuxCflag (c temp : Word) : Word :=
  let c := c &&& ~~~0xfff#32 ||| (temp &&& 0xff00#32) >>> 4
  if c &&& 0x30000 ≠ 0 then c ||| CRTSCTS else c

def bsdToLinuxLflag (l temp : Word) : Word :=
  l &&& ~~~0o157663#32 ||| (temp &&& 1#32) <<< 12 ||| (temp &&& 0x46#32) <<< 3 |||
    (temp &&& 0x420#32) <<< 5 ||| (temp &&& 0x180#32) >>> 7 ||| (temp &&& 0x400000#32) >>> 14 |||
    (temp &&& 0x2800000#32) >>> 11 ||| (temp &&& 0x80000000#32) >>> 24

/-- The control characters of `bsd_to_linux_termios`, from the caller's `bsd_cc`. -/
def bsdToLinuxCc (bsdCc : Nat → Byte) (cc : Fin 19 → Byte) : Fin 19 → Byte :=
  fun i =>
    match i.val with
    | 4 => bsdCc 0
    | 11 => bsdCc 1
    | 16 => bsdCc 2
    | 2 => bsdCc 3
    | 14 => bsdCc 4
    | 3 => bsdCc 5
    | 12 => bsdCc 6
    | 7 => bsdCc 7
    | 0 => bsdCc 8
    | 1 => bsdCc 9
    | 10 => bsdCc 10
    | 8 => bsdCc 12
    | 9 => bsdCc 13
    | 15 => bsdCc 14
    | 13 => bsdCc 15
    | 6 => bsdCc 16
    | 5 => bsdCc 17
    | _ => cc i

/-- `bsd_to_linux_termios`: an error, or the settings for the kernel. -/
def bsdToLinuxTermios (pg : Pages) (tcgets : Int × Termios) (it : Word) (m : Mem) :
    Except Int Termios :=
  if ¬ pg.verifyRead it bsdTermiosSize then .error (-EFAULT)
  else if tcgets.1 ≠ 0 then .error tcgets.1
  else
    let t := tcgets.2
    match pg.copyBytesFromUser (it + 16) BSD_NCCS m with
    | none => .error (-EFAULT)
    | some cc =>
      .ok
        { cIflag := bsdToLinuxIflag (pg.getUser m it)
          cOflag := bsdToLinuxOflag t.cOflag (pg.getUser m (it + 4))
          cCflag := bsdToLinuxCflag t.cCflag (pg.getUser m (it + 8)) |||
            (bsdToLinuxSpeed (pg.getUser m (it + 40)) |||
              bsdToLinuxSpeed (pg.getUser m (it + 36)) <<< 16)
          cLflag := bsdToLinuxLflag t.cLflag (pg.getUser m (it + 12))
          cLine := t.cLine
          cCc := bsdToLinuxCc (fun i => cc.getD i 0) t.cCc }

/-! ## The structure in user memory -/

/-- The structure the get call leaves. -/
def bsdFilled (beyond : Nat → Word) (t : Termios) : List Byte :=
  (linuxToBsdIflag t.cIflag).bytes ++ (linuxToBsdOflag t.cOflag).bytes ++
    (linuxToBsdCflag t.cCflag).bytes ++ (linuxToBsdLflag t.cLflag).bytes ++ linuxToBsdCc t.cCc ++
    ((linuxToBsdSpeed beyond (inputSpeed t.cCflag)).bytes ++
      (linuxToBsdSpeed beyond (t.cCflag &&& CBAUD)).bytes)

section RoundTrip

variable {pg : Pages} {it : Word} {m : Mem} (beyond : Nat → Word) (t : Termios)

/-- The stores of the get call, in its order, fill the structure. -/
theorem bsd_stores (m : Mem) (it iflag oflag cflag lflag ispeed ospeed : Word) {cc : List Byte}
    (hcc : cc.length = BSD_NCCS) :
    ((((((m.store it iflag.bytes).store (it + 4) oflag.bytes).store (it + 8) cflag.bytes).store
      (it + 40) ospeed.bytes).store (it + 36) ispeed.bytes).store (it + 12) lflag.bytes).store
      (it + 16) cc =
    m.store it (iflag.bytes ++ oflag.bytes ++ cflag.bytes ++ lflag.bytes ++ cc ++
      (ispeed.bytes ++ ospeed.bytes)) := by
  have hlen : (lflag.bytes ++ cc).length = 24 := by
    rw [List.length_append, hcc]
    rfl
  -- the two speeds, and below them the local flags with the characters
  have hspeeds : ∀ m : Mem, (m.store (it + 40) ospeed.bytes).store (it + 36) ispeed.bytes = _ :=
    fun m => Mem.store_below m (k := 4) rfl (by bv_omega) (by simp)
  have hlocal : ∀ m : Mem, (m.store (it + 12) lflag.bytes).store (it + 16) cc = _ :=
    fun m => Mem.store_behind m (k := 4) rfl (by bv_omega) (by rw [hcc]; decide)
  have hupper : ∀ (m : Mem) (cs : List Byte), cs.length = 8 →
      (m.store (it + 36) cs).store (it + 12) (lflag.bytes ++ cc) = _ :=
    fun m cs hcs => Mem.store_below m hlen (by bv_omega) (by rw [hcs]; decide)
  rw [hspeeds, hlocal, hupper _ _ rfl, Mem.store_behind m (b := it + 4) rfl rfl (by simp),
    Mem.store_behind m (b := it + 8) rfl rfl (by simp),
    Mem.store_behind m (b := it + 12) (k := 12) rfl rfl]
  · simp
  · rw [List.length_append, hlen]
    exact (by decide : 12 + (24 + 8) ≤ 2 ^ 32)

theorem linuxToBsdTermios_eq (h : pg.canWrite it bsdTermiosSize = true) :
    linuxToBsdTermios pg beyond (0, t) it m = (0, m.store it (bsdFilled beyond t)) := by
  have hput : ∀ {a : Word} {k : Nat}, a = it + BitVec.ofNat 32 k → k + 4 ≤ bsdTermiosSize →
      ∀ v m, pg.putUser a v m = m.store a v.bytes := by
    intro a k ha hk v m
    rw [ha]
    exact if_pos (Pages.canWrite_part h hk)
  have hcopy : ∀ m : Mem, pg.copyBytesToUser (it + 16) (linuxToBsdCc t.cCc) m =
      (true, m.store (it + 16) (linuxToBsdCc t.cCc)) :=
    fun m => Pages.copyBytesToUser_of_canWrite m
      (Pages.canWrite_part h (show 16 + BSD_NCCS ≤ bsdTermiosSize by decide))
  rw [linuxToBsdTermios, if_neg (not_not.mpr (Pages.verifyWrite_of_canWrite h)),
    if_neg (not_not.mpr rfl)]
  dsimp only
  rw [hput (BitVec.add_zero it).symm (by decide),
    hput (a := it + 4) rfl (by decide), hput (a := it + 8) rfl (by decide),
    hput (a := it + 40) rfl (by decide), hput (a := it + 36) rfl (by decide),
    hput (a := it + 12) rfl (by decide), hcopy, bsd_stores _ _ _ _ _ _ _ _ rfl]
  rfl

/-- The settings that reach the kernel when the caller hands back what it was given. -/
def bsdHandedBack : Termios where
  cIflag := bsdToLinuxIflag (linuxToBsdIflag t.cIflag)
  cOflag := bsdToLinuxOflag t.cOflag (linuxToBsdOflag t.cOflag)
  cCflag := bsdToLinuxCflag t.cCflag (linuxToBsdCflag t.cCflag) |||
    (bsdToLinuxSpeed (linuxToBsdSpeed beyond (t.cCflag &&& CBAUD)) |||
      bsdToLinuxSpeed (linuxToBsdSpeed beyond (inputSpeed t.cCflag)) <<< 16)
  cLflag := bsdToLinuxLflag t.cLflag (linuxToBsdLflag t.cLflag)
  cLine := t.cLine
  cCc := t.cCc

theorem bsd_cc_back (cc : Fin 19 → Byte) :
    bsdToLinuxCc (fun i => (linuxToBsdCc cc).getD i 0) cc = cc := by
  funext i
  fin_cases i <;> rfl

theorem bsdToLinuxTermios_bsdFilled (h : pg.canWrite it bsdTermiosSize = true) :
    bsdToLinuxTermios pg (0, t) it (m.store it (bsdFilled beyond t)) =
      .ok (bsdHandedBack beyond t) := by
  have hread := Pages.canRead_of_canWrite h
  have hverify : pg.verifyRead it bsdTermiosSize = true := Pages.verifyWrite_of_canWrite h
  -- the words that are read are those that were stored
  have hword : ∀ {a : Word} {k : Nat}, a = it + BitVec.ofNat 32 k → k + 4 ≤ bsdTermiosSize →
      ∀ v, (∀ j < 4, (bsdFilled beyond t)[k + j]? = v.bytes[j]?) →
      pg.getUser (m.store it (bsdFilled beyond t)) a = v := by
    intro a k ha hk v hv
    rw [ha, Pages.getUser, if_pos (Pages.canRead_part hread hk)]
    unfold bsdTermiosSize at hk
    exact Mem.word_store m it v (by omega) hv
  have hcopy : pg.copyBytesFromUser (it + 16) BSD_NCCS (m.store it (bsdFilled beyond t)) =
      some (linuxToBsdCc t.cCc) := by
    have hcan : pg.canRead (it + 16) BSD_NCCS = true :=
      Pages.canRead_part hread (by decide)
    rw [Pages.copyBytesFromUser, if_pos hcan]
    exact congrArg some (Mem.bytes_store m it ((linuxToBsdIflag t.cIflag).bytes ++
      (linuxToBsdOflag t.cOflag).bytes ++ (linuxToBsdCflag t.cCflag).bytes ++
      (linuxToBsdLflag t.cLflag).bytes) (linuxToBsdCc t.cCc) _ (by simp [linuxToBsdCc]))
  rw [bsdToLinuxTermios, if_neg (not_not.mpr hverify), if_neg (not_not.mpr rfl)]
  rw [hcopy, hword (BitVec.add_zero it).symm (by decide) (linuxToBsdIflag t.cIflag) ?_,
    hword (a := it + 4) rfl (by decide) (linuxToBsdOflag t.cOflag) ?_,
    hword (a := it + 8) rfl (by decide) (linuxToBsdCflag t.cCflag) ?_,
    hword (a := it + 12) rfl (by decide) (linuxToBsdLflag t.cLflag) ?_,
    hword (a := it + 36) rfl (by decide) (linuxToBsdSpeed beyond (inputSpeed t.cCflag)) ?_,
    hword (a := it + 40) rfl (by decide) (linuxToBsdSpeed beyond (t.cCflag &&& CBAUD)) ?_]
  · dsimp only
    rw [bsd_cc_back]
    rfl
  -- each word at its place in the structure
  all_goals
    intro j hj
    interval_cases j <;> rfl

end RoundTrip

/-! ## The flags -/

/-- `IXON`, `IXANY`, `IXOFF` and `IMAXBEL` come back only if they are off. -/
theorem bsd_iflag_back_iff (i : Word) :
    bsdToLinuxIflag (linuxToBsdIflag i) &&& 0o36777 = i &&& 0o36777 ↔
      ∀ k ∈ [10, 11, 12, 13], i.getLsbD k = false := by
  unfold bsdToLinuxIflag linuxToBsdIflag
  constructor
  · intro h
    have hbit (k : Nat) := congrArg (BitVec.getLsbD · k) h
    have h10 := hbit 10
    have h11 := hbit 11
    have h12 := hbit 12
    have h13 := hbit 13
    simp at h10 h11 h12 h13
    simp [h10, ← h11, h12, h13]
  · intro h
    simp at h
    ext j hj
    interval_cases j <;> simp [h]

/-- The two bits of the tab delay come back only together. -/
theorem bsd_oflag_back_iff (o : Word) :
    bsdToLinuxOflag o (linuxToBsdOflag o) &&& 0o14015 = o &&& 0o14015 ↔
      o.getLsbD 11 = o.getLsbD 12 := by
  have hboth : o &&& 0o14000 = 0o14000 ↔ o.getLsbD 11 = true ∧ o.getLsbD 12 = true := by
    constructor
    · intro h
      have h11 := congrArg (BitVec.getLsbD · 11) h
      have h12 := congrArg (BitVec.getLsbD · 12) h
      simp at h11 h12
      exact ⟨h11, h12⟩
    · rintro ⟨h11, h12⟩
      ext j hj
      interval_cases j <;> simp [h11, h12]
  unfold bsdToLinuxOflag linuxToBsdOflag
  split_ifs with hon
  · have hbits := hboth.mp hon
    refine iff_of_true ?_ (hbits.1.trans hbits.2.symm)
    ext j hj
    interval_cases j <;> simp [hbits]
  · constructor
    · intro h
      have h11 := congrArg (BitVec.getLsbD · 11) h
      have h12 := congrArg (BitVec.getLsbD · 12) h
      simp at h11 h12
      simp [h11, h12]
    · intro h
      rw [hboth, h, and_self, Bool.not_eq_true] at hon
      simp at h hon
      ext j hj
      interval_cases j <;> simp [h, hon]

/-- `c_cflag` before the speeds: the four bits from `CBAUDEX` on fall onto the parity and
beyond, and an input speed switches hardware flow control on. -/
theorem bsd_cflag_back (c : Word) :
    let moved := c &&& ~~~0o17#32 ||| (c &&& 0o170000#32) >>> 4
    bsdToLinuxCflag c (linuxToBsdCflag c) =
      if c &&& 0x30000 ≠ 0 then moved ||| CRTSCTS else moved := by
  intro moved
  have hmoved : c &&& ~~~0xfff#32 ||| (linuxToBsdCflag c &&& 0xff00#32) >>> 4 = moved := by
    unfold linuxToBsdCflag
    apply BitVec.eq_of_getLsbD_eq
    intro j hj
    split <;> interval_cases j <;> simp [moved, Bool.or_comm]
  have htest : moved &&& 0x30000 = c &&& 0x30000 := by
    ext j hj
    interval_cases j <;> simp [moved]
  unfold bsdToLinuxCflag
  dsimp only
  rw [hmoved, htest]

theorem bsd_cflag_back_iff (c : Word) :
    bsdToLinuxCflag c (linuxToBsdCflag c) &&& ~~~(CBAUD ||| CIBAUD) =
        c &&& ~~~(CBAUD ||| CIBAUD) ↔
      (∀ k ∈ [12, 13, 14, 15], c.getLsbD k = true → c.getLsbD (k - 4) = true) ∧
      (c &&& 0x30000 ≠ 0 → c.getLsbD 31 = true) := by
  rw [bsd_cflag_back]
  unfold CBAUD CIBAUD CRTSCTS
  constructor
  · intro h
    refine ⟨?_, fun hon => ?_⟩
    · split at h
      all_goals
        have h8 := congrArg (BitVec.getLsbD · 8) h
        have h9 := congrArg (BitVec.getLsbD · 9) h
        have h10 := congrArg (BitVec.getLsbD · 10) h
        have h11 := congrArg (BitVec.getLsbD · 11) h
        simp at h8 h9 h10 h11
        simpa using ⟨h8, h9, h10, h11⟩
    · have h31 := congrArg (BitVec.getLsbD · 31) h
      rw [if_pos hon] at h31
      simpa using h31
  · rintro ⟨hparity, hflow⟩
    simp at hparity
    obtain ⟨h8, h9, h10, h11⟩ := hparity
    ext j hj
    split
    next hon =>
      have h31 := hflow hon
      interval_cases j <;> simp [h31] <;> assumption
    · interval_cases j <;> simp <;> assumption

/-- The speeds in `c_cflag`, for any two codes. -/
theorem bsd_speeds_back (c o i : Word) :
    let c' := bsdToLinuxCflag c (linuxToBsdCflag c) ||| (o &&& CBAUD ||| (i &&& CBAUD) <<< 16)
    c' &&& ~~~(CBAUD ||| CIBAUD) =
        bsdToLinuxCflag c (linuxToBsdCflag c) &&& ~~~(CBAUD ||| CIBAUD) ∧
      c' &&& CBAUD = c &&& 0o10000 ||| o &&& CBAUD ∧
      c' &&& CIBAUD = c &&& CIBAUD ||| (i &&& CBAUD) <<< 16 := by
  rw [bsd_cflag_back]
  unfold CBAUD CIBAUD CRTSCTS
  refine ⟨?_, ?_, ?_⟩
  all_goals
    ext j hj
    split <;> interval_cases j <;> simp

/-! ## The speeds -/

/-- A speed is set with a code of its own. -/
theorem bsdToLinuxSpeed_code (s : Word) : bsdToLinuxSpeed s &&& CBAUD = bsdToLinuxSpeed s := by
  unfold bsdToLinuxSpeed
  split
  · rfl
  · split
    · rfl
    · split
      next i hi =>
        have hlt : i < 16 := (List.findIdx?_eq_some_iff_findIdx_eq.mp hi).1
        interval_cases i <;> rfl
      · rfl

variable (beyond : Nat → Word)

/-- A code for which there is a speed comes back. -/
theorem speed_back {s : Word} (h : Rated s) : bsdToLinuxSpeed (linuxToBsdSpeed beyond s) = s := by
  rcases h with hlt | rfl | rfl
  · obtain ⟨n, hn⟩ : ∃ n, s.toNat = n := ⟨_, rfl⟩
    obtain rfl : s = BitVec.ofNat 32 n := by
      rw [← hn, BitVec.ofNat_toNat, BitVec.setWidth_eq]
    rw [hn] at hlt
    interval_cases n <;> rfl
  · rfl
  · rfl

theorem speedsRead_inside_iff (c : Word) :
    (∀ i ∈ speedsRead c, i < speedMap.length) ↔ Rated (c &&& CBAUD) ∧ Rated (inputSpeed c) := by
  have hone (s : Word) : (s ≠ B57600 ∧ s ≠ B115200 → s.toNat < speedMap.length) ↔ Rated s := by
    show (_ → s.toNat < 15 + 1) ↔ _
    rw [Nat.lt_succ_iff, ← not_or, not_imp_comm]
    exact or_iff_not_imp_left.symm
  unfold speedsRead
  simp only [List.forall_mem_map, List.forall_mem_filter, List.forall_mem_cons, decide_eq_true_eq,
    hone, List.not_mem_nil, false_imp_iff, implies_true, and_true]

/-- The rates come back for the codes that have one. -/
theorem bsd_rates_back {t : Termios} (ho : Rated (t.cCflag &&& CBAUD))
    (hi : Rated (inputSpeed t.cCflag)) :
    (bsdHandedBack beyond t).cCflag &&& CBAUD = t.cCflag &&& CBAUD ∧
      inputSpeed (bsdHandedBack beyond t).cCflag = inputSpeed t.cCflag := by
  obtain ⟨-, hout, hin⟩ := bsd_speeds_back t.cCflag
    (bsdToLinuxSpeed (linuxToBsdSpeed beyond (t.cCflag &&& CBAUD)))
    (bsdToLinuxSpeed (linuxToBsdSpeed beyond (inputSpeed t.cCflag)))
  rw [bsdToLinuxSpeed_code, bsdToLinuxSpeed_code] at hout hin
  change (bsdHandedBack beyond t).cCflag &&& CBAUD = _ at hout
  change (bsdHandedBack beyond t).cCflag &&& CIBAUD = _ at hin
  rw [speed_back beyond ho] at hout
  rw [speed_back beyond hi] at hin
  have hsame : t.cCflag &&& 0o10000 ||| t.cCflag &&& CBAUD = t.cCflag &&& CBAUD := by
    unfold CBAUD
    ext j hj
    interval_cases j <;> simp
  rw [hsame] at hout
  refine ⟨hout, ?_⟩
  generalize (bsdHandedBack beyond t).cCflag = c' at hout hin
  unfold inputSpeed at hin ⊢
  by_cases hown : t.cCflag &&& CIBAUD ≠ 0
  · rw [if_pos hown] at hin ⊢
    have hkept : c' &&& CIBAUD = t.cCflag &&& CIBAUD := by
      rw [hin]
      ext j hj
      interval_cases j <;> simp
    rw [hkept, if_pos hown]
  · rw [if_neg hown] at hin ⊢
    rw [not_not.mp hown] at hin
    -- the output speed becomes the input speed as well
    have hmoved : c' &&& CIBAUD = (t.cCflag &&& CBAUD) <<< 16 := hin.trans BitVec.zero_or
    rw [hmoved, hout, ite_eq_right_iff]
    intro _
    unfold CBAUD
    ext j hj
    interval_cases j <;> simp

/-- What comes back of `c_lflag`. -/
theorem bsd_lflag_back_iff (l : Word) :
    bsdToLinuxLflag l (linuxToBsdLflag l) &&& 0o7777777773 = l &&& 0o7777777773 ↔
      (∀ k ∈ [7, 10, 11], l.getLsbD k = false) ∧ l.getLsbD 25 = l.getLsbD 14 ∧
      (l.getLsbD 22 = true → l.getLsbD 8 = true) ∧ (l.getLsbD 23 = true → l.getLsbD 12 = true) := by
  unfold bsdToLinuxLflag linuxToBsdLflag
  constructor
  · intro h
    have hbit (k : Nat) := congrArg (BitVec.getLsbD · k) h
    have h7 := hbit 7
    have h8 := hbit 8
    have h10 := hbit 10
    have h11 := hbit 11
    have h12 := hbit 12
    have h14 := hbit 14
    simp at h7 h8 h10 h11 h14
    simp [h11] at h12
    simp [h7, h10, h11, h14]
    exact ⟨h8, h12⟩
  · intro h
    simp at h
    obtain ⟨hoff, h25, h8, h12⟩ := h
    ext j hj
    interval_cases j <;> simp [hoff, h25] <;> assumption

/-! ## The round trip -/

/-- The settings agree in every flag that one of the translations moves or the set call keeps
under that name, in the characters and in both rates, and the table is not left. -/
structure BsdSame (t' t : Termios) : Prop where
  iflag : t'.cIflag &&& 0o36777 = t.cIflag &&& 0o36777
  oflag : t'.cOflag &&& 0o14015 = t.cOflag &&& 0o14015
  cflag : t'.cCflag &&& ~~~(CBAUD ||| CIBAUD) = t.cCflag &&& ~~~(CBAUD ||| CIBAUD)
  lflag : t'.cLflag &&& 0o7777777773 = t.cLflag &&& 0o7777777773
  cc : ∀ i, t'.cCc i = t.cCc i
  output : t'.cCflag &&& CBAUD = t.cCflag &&& CBAUD
  input : inputSpeed t'.cCflag = inputSpeed t.cCflag
  inside : ∀ i ∈ speedsRead t.cCflag, i < speedMap.length

/-- The settings that come back. -/
structure BsdComes (t : Termios) : Prop where
  iflag : ∀ k ∈ [10, 11, 12, 13], t.cIflag.getLsbD k = false
  oflag : t.cOflag.getLsbD 11 = t.cOflag.getLsbD 12
  parity : ∀ k ∈ [12, 13, 14, 15], t.cCflag.getLsbD k = true → t.cCflag.getLsbD (k - 4) = true
  flow : t.cCflag &&& 0x30000 ≠ 0 → t.cCflag.getLsbD 31 = true
  lflag : ∀ k ∈ [7, 10, 11], t.cLflag.getLsbD k = false
  pendin : t.cLflag.getLsbD 25 = t.cLflag.getLsbD 14
  tostop : t.cLflag.getLsbD 22 = true → t.cLflag.getLsbD 8 = true
  flusho : t.cLflag.getLsbD 23 = true → t.cLflag.getLsbD 12 = true
  output : Rated (t.cCflag &&& CBAUD)
  input : Rated (inputSpeed t.cCflag)

theorem bsdHandedBack_same_iff (t : Termios) : BsdSame (bsdHandedBack beyond t) t ↔ BsdComes t := by
  have hspeeds := (bsd_speeds_back t.cCflag
    (bsdToLinuxSpeed (linuxToBsdSpeed beyond (t.cCflag &&& CBAUD)))
    (bsdToLinuxSpeed (linuxToBsdSpeed beyond (inputSpeed t.cCflag)))).1
  rw [bsdToLinuxSpeed_code, bsdToLinuxSpeed_code] at hspeeds
  constructor
  · intro h
    have hcflag := (bsd_cflag_back_iff t.cCflag).mp (hspeeds.symm.trans h.cflag)
    have hlflag := (bsd_lflag_back_iff t.cLflag).mp h.lflag
    have hrated := (speedsRead_inside_iff t.cCflag).mp h.inside
    exact ⟨(bsd_iflag_back_iff t.cIflag).mp h.iflag, (bsd_oflag_back_iff t.cOflag).mp h.oflag,
      hcflag.1, hcflag.2, hlflag.1, hlflag.2.1, hlflag.2.2.1, hlflag.2.2.2, hrated.1, hrated.2⟩
  · intro h
    have hrates := bsd_rates_back beyond h.output h.input
    exact ⟨(bsd_iflag_back_iff t.cIflag).mpr h.iflag, (bsd_oflag_back_iff t.cOflag).mpr h.oflag,
      hspeeds.trans ((bsd_cflag_back_iff t.cCflag).mpr ⟨h.parity, h.flow⟩),
      (bsd_lflag_back_iff t.cLflag).mpr ⟨h.lflag, h.pendin, h.tostop, h.flusho⟩, fun _ => rfl,
      hrates.1, hrates.2, (speedsRead_inside_iff t.cCflag).mpr ⟨h.output, h.input⟩⟩

/-- `TIOCGETA` followed by `TIOCSETA`: both calls go through, and the settings that reach the
kernel are those it had exactly under `BsdComes`. -/
theorem bsd_round_trip_iff (pg : Pages) (it : Word) (m : Mem) (beyond : Nat → Word) (t : Termios)
    (h : pg.canWrite it bsdTermiosSize = true) :
    ∃ m' t', linuxToBsdTermios pg beyond (0, t) it m = (0, m') ∧
      bsdToLinuxTermios pg (0, t) it m' = .ok t' ∧ (BsdSame t' t ↔ BsdComes t) :=
  ⟨_, _, linuxToBsdTermios_eq beyond t h, bsdToLinuxTermios_bsdFilled beyond t h,
    bsdHandedBack_same_iff beyond t⟩

/-- A terminal at 9600 baud without flow control of any kind comes back. -/
theorem bsd_plain_back :
    let t : Termios := ⟨0o400, 0o5, 0o275, 0o73, 0, fun i => BitVec.ofNat 8 i⟩
    ∃ m' t', linuxToBsdTermios .everywhere (fun _ => 0) (0, t) 0x1000 (fun _ => 0) = (0, m') ∧
      bsdToLinuxTermios .everywhere (0, t) 0x1000 m' = .ok t' ∧ BsdSame t' t := by
  intro t
  obtain ⟨m', t', hget, hset, hiff⟩ :=
    bsd_round_trip_iff .everywhere 0x1000 (fun _ => 0) (fun _ => 0) t (by decide)
  exact ⟨m', t', hget, hset, hiff.mpr ⟨by decide, by decide, by decide, by decide, by decide,
    by decide, by decide, by decide, by decide, by decide⟩⟩

/-- With the settings Linux starts with, `IXON` becomes `IUCLC` and `ECHOKE` `FLUSHO`; a line at
57600 baud gets parity; and 230400 baud is entry 4099 of the table. -/
theorem bsd_settings_change :
    let t : Termios := ⟨0o2400, 0o5, 0o10261, 0o105073, 0, fun _ => 0⟩
    (∃ m' t', linuxToBsdTermios .everywhere (fun _ => 0) (0, t) 0x1000 (fun _ => 0) = (0, m') ∧
      bsdToLinuxTermios .everywhere (0, t) 0x1000 m' = .ok t' ∧
      t'.cIflag = 0o1400 ∧ t'.cLflag = 0o111073 ∧ t'.cCflag = 0o2000210661 ∧ ¬ BsdSame t' t) ∧
    speedsRead 0o10003 = [4099, 4099] := by
  intro t
  have hwrite : Pages.everywhere.canWrite 0x1000 bsdTermiosSize = true := rfl
  refine ⟨⟨_, _, linuxToBsdTermios_eq _ _ hwrite, bsdToLinuxTermios_bsdFilled _ _ hwrite,
    by decide, by decide, by decide, fun h => ?_⟩, by decide⟩
  exact absurd h.iflag (by decide)

end AbiEmu.Tty
