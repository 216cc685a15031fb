import AbiEmu.Tty.Termios

/-!
# The terminal settings of SCO (`abi/sco/termios.c`)

`XCGETA` and `XCSETA` use a structure of their own: flag words of 16 bits, the line
discipline, and thirteen control characters, of which two carry the end of file and the end
of line while `VMIN` and `VTIME` stand in their places. The speeds at the end of the
structure are neither filled nor read.

The characters all come back, in both modes. The flags are moved as in `abi/svr4/termios.c`,
and with the same two mistakes: the terminal's `ECHOCTL` is or-ed into `TOSTOP`, and the set
call clears the bits of `c_cflag` it takes for SCO's own. The words of 16 bits lose the upper
half of `c_cflag` but for `CRTSCTS`.
-/

namespace AbiEmu.Tty

open Bits (and_eq_self_of_and_not)

/-- `SCO_NCCS`. -/
def SCO_NCCS : Nat := 13

/-- `sizeof(struct sco_termios)`: four halves, the line, the characters, two speeds. -/
def scoTermiosSize : Nat := 24

/-! ## The two calls -/

/-- The array `sco_cc` of `linux_to_sco_termios`. -/
def linuxToScoCc (t : Termios) : Nat → Byte
  | 0 => t.cCc 0
  | 1 => t.cCc 1
  | 2 => t.cCc 2
  | 3 => t.cCc 3
  | 4 => if t.cLflag &&& ICANON ≠ 0 then t.cCc 4 else t.cCc 6
  | 5 => if t.cLflag &&& ICANON ≠ 0 then t.cCc 11 else t.cCc 5
  | 6 => t.cCc 16
  | 7 => t.cCc 7
  | 8 => t.cCc 4
  | 9 => t.cCc 11
  | 10 => t.cCc 10
  | 11 => t.cCc 8
  | _ => t.cCc 9

/-- `linux_to_sco_termios`. -/
def linuxToScoTermios (pg : Pages) (tcgets : Int × Termios) (it : Word) (m : Mem) : Int × Mem :=
  if ¬ pg.verifyWrite it scoTermiosSize then (-EFAULT, m)
  else if tcgets.1 ≠ 0 then (tcgets.1, m)
  else
    let t := tcgets.2
    let m := (pg.putHalf it ((t.cIflag &&& 0o17777).setWidth 16) m).2
    let m := (pg.putHalf (it + 2) ((t.cOflag &&& 0o177777).setWidth 16) m).2
    let cflag := if t.cCflag &&& CRTSCTS ≠ 0 then t.cCflag ||| 0o100000 else t.cCflag
    let m := (pg.putHalf (it + 4) ((cflag &&& 0o177777).setWidth 16) m).2
    let m := (pg.putHalf (it + 6) ((linuxToSvr4Lflag t.cLflag).setWidth 16) m).2
    let m := (pg.putByte (it + 8) t.cLine m).2
    let copied := pg.copyBytesToUser (it + 9) ((List.range SCO_NCCS).map (linuxToScoCc t)) m
    (if copied.1 then 0 else -EFAULT, copied.2)

/-- The control characters of `sco_to_linux_termios`, from the caller's `sco_cc`. -/
def scoToLinuxCc (icanon : Bool) (scoCc : Nat → Byte) (cc : Fin 19 → Byte) : Fin 19 → Byte :=
  fun i =>
    match i.val with
    | 0 | 1 | 2 | 3 | 7 | 10 => scoCc i
    | 4 => if icanon then scoCc 4 else scoCc 8
    | 5 => if icanon then cc 5 else scoCc 5
    | 6 => if icanon then cc 6 else scoCc 4
    | 8 => scoCc 11
    | 9 => scoCc 12
    | 11 => if icanon then scoCc 5 else scoCc 9
    | 16 => scoCc 6
    | _ => cc i

/-- `sco_to_linux_termios`. -/
def scoToLinuxTermios (pg : Pages) (tcgets : Int × Termios) (it : Word) (m : Mem) : SetCall :=
  if ¬ pg.verifyRead it scoTermiosSize then .returns (-EFAULT) none
  else if tcgets.1 ≠ 0 then .returns tcgets.1 none
  else
    let t := tcgets.2
    let iflag := (pg.getHalf m it).setWidth 32 &&& ~~~0o100000
    let oflag := (pg.getHalf m (it + 2)).setWidth 32
    let cflag := (pg.getHalf m (it + 4)).setWidth 32
    let cflag := if cflag &&& 0o100000 ≠ 0 then cflag ||| CRTSCTS else cflag
    let cflag := cflag &&& ~~~0o170000
    let r := (pg.getHalf m (it + 6)).setWidth 32
    let excl : Bool := r &&& 0o100000 ≠ 0
    let lflag := svr4ToLinuxLflag t.cLflag r
    let line := pg.getByte m (it + 8)
    match pg.copyBytesFromUser (it + 9) SCO_NCCS m with
    | none => .returns (-EFAULT) (some excl)
    | some cc =>
      .sets excl
        { cIflag := iflag
          cOflag := oflag
          cCflag := cflag
          cLflag := lflag
          cLine := line
          cCc := scoToLinuxCc (lflag &&& ICANON ≠ 0) (fun i => cc.getD i 0) t.cCc }

/-! ## What is in user memory between the calls -/

/-- The flag words the get call stores. -/
def scoFlags (t : Termios) : List (BitVec 16) :=
  [(t.cIflag &&& 0o17777).setWidth 16, (t.cOflag &&& 0o177777).setWidth 16,
    ((if t.cCflag &&& CRTSCTS ≠ 0 then t.cCflag ||| 0o100000 else t.cCflag) &&&
      0o177777).setWidth 16,
    (linuxToSvr4Lflag t.cLflag).setWidth 16]

/-- The structure it leaves in user memory. -/
def scoFilled (t : Termios) : List Byte :=
  (scoFlags t).flatMap halfBytes ++ [t.cLine] ++ (List.range SCO_NCCS).map (linuxToScoCc t)

section RoundTrip

variable {pg : Pages} {it : Word} {m : Mem}

/-- The stores of the get call follow each other without a gap. -/
theorem sco_stores (h : pg.canWrite it scoTermiosSize = true) (v0 v1 v2 v3 : BitVec 16) (b : Byte)
    {cs : List Byte} (hcs : cs.length = SCO_NCCS) :
    pg.copyBytesToUser (it + 9) cs (pg.putByte (it + 8) b (pg.putHalf (it + 6) v3
      (pg.putHalf (it + 4) v2 (pg.putHalf (it + 2) v1 (pg.putHalf it v0 m).2).2).2).2).2 =
    (true, m.store it ([v0, v1, v2, v3].flatMap halfBytes ++ [b] ++ cs)) := by
  have hn : scoTermiosSize ≤ 2 ^ 32 := by decide
  have h0 := Pages.putHalf_behind h hn (List.length_nil (α := Byte)) m (by decide) v0
  rw [BitVec.add_zero, Mem.store_nil, List.nil_append] at h0
  have h1 : (pg.putHalf (it + 2) v1 (m.store it (halfBytes v0))).2 = _ :=
    Pages.putHalf_behind h hn (k := 2) rfl m (by decide) v1
  have h2 : (pg.putHalf (it + 4) v2 (m.store it (halfBytes v0 ++ halfBytes v1))).2 = _ :=
    Pages.putHalf_behind h hn (k := 4) rfl m (by decide) v2
  have h3 : (pg.putHalf (it + 6) v3
      (m.store it (halfBytes v0 ++ halfBytes v1 ++ halfBytes v2))).2 = _ :=
    Pages.putHalf_behind h hn (k := 6) rfl m (by decide) v3
  have h4 : (pg.putByte (it + 8) b
      (m.store it (halfBytes v0 ++ halfBytes v1 ++ halfBytes v2 ++ halfBytes v3))).2 = _ :=
    Pages.putByte_behind h hn (k := 8) rfl m (by decide) b
  rw [h0, h1, h2, h3, h4]
  exact Pages.copyBytesToUser_behind h hn (k := 9) rfl m (by rw [hcs]; decide)

theorem linuxToScoTermios_eq (t : Termios) (h : pg.canWrite it scoTermiosSize = true) :
    linuxToScoTermios pg (0, t) it m = (0, m.store it (scoFilled t)) := by
  have hverify := Pages.verifyWrite_of_canWrite h
  have hcs : ((List.range SCO_NCCS).map (linuxToScoCc t)).length = SCO_NCCS := by
    rw [List.length_map, List.length_range]
  rw [linuxToScoTermios, if_neg (not_not.mpr hverify), if_neg (not_not.mpr rfl)]
  dsimp only
  rw [sco_stores h _ _ _ _ _ hcs]
  rfl

section

variable (t : Termios) (h : pg.canRead it scoTermiosSize = true)

include t h

/-- The flags the set call reads are those the get call stored. -/
theorem getHalf_scoFilled (b : Word) (k : Nat) {v : BitVec 16}
    (hb : b = it + BitVec.ofNat 32 (2 * k)) (hv : (scoFlags t)[k]? = some v) :
    pg.getHalf (m.store it (scoFilled t)) b = v := by
  subst hb
  have hk : k < 4 := (List.getElem?_eq_some_iff.mp hv).1
  rw [Pages.getHalf, if_pos (Pages.canRead_part h (by unfold scoTermiosSize; omega))]
  refine Mem.half_store m it v (by omega) fun j hj => ?_
  rw [scoFilled, List.append_assoc, List.getElem?_append_left,
    Mem.getElem?_flatMap_halfBytes _ _ _ hj, hv, Option.bind_some]
  simp [scoFlags]
  omega

theorem getByte_scoFilled : pg.getByte (m.store it (scoFilled t)) (it + 8) = t.cLine := by
  have hread : pg.canRead (it + 8) 1 = true := Pages.canRead_part h (by decide)
  rw [Pages.getByte, if_pos hread]
  exact Mem.store_add m it (by decide) rfl

theorem copyBytesFromUser_scoFilled :
    pg.copyBytesFromUser (it + 9) SCO_NCCS (m.store it (scoFilled t)) =
      some ((List.range SCO_NCCS).map (linuxToScoCc t)) := by
  have hbytes := Mem.bytes_store m it ((scoFlags t).flatMap halfBytes ++ [t.cLine])
    ((List.range SCO_NCCS).map (linuxToScoCc t)) [] (by simp [scoFlags, SCO_NCCS])
  have hread : pg.canRead (it + 9) SCO_NCCS = true := Pages.canRead_part h (by decide)
  rw [Pages.copyBytesFromUser, if_pos hread]
  exact congrArg some hbytes

end

end RoundTrip

/-! ## The flags and the characters -/

/-- A word that goes through a half keeps its lower half. -/
theorem half_back (x : Word) : (x.setWidth 16).setWidth 32 = x &&& 0o177777 := by
  ext i hi
  interval_cases i <;> simp

/-- What the set call leaves of `c_cflag`, whatever it was given. -/
theorem cflag_masks (z : Word) :
    (z &&& 0o177777 ||| CRTSCTS) &&& ~~~0o170000 &&& ~~~(0o7777 ||| CRTSCTS) = 0 ∧
      z &&& 0o177777 &&& ~~~0o170000 &&& ~~~(0o7777 ||| CRTSCTS) = 0 := by
  constructor
  all_goals
    ext i hi
    interval_cases i <;> simp

/-- `c_cflag` comes back exactly if it has nothing but its twelve lower bits and
`CRTSCTS`. -/
theorem cflag_half_back_iff {x y : Word}
    (hy : y = (if x &&& CRTSCTS ≠ 0 then x ||| 0o100000 else x) &&& 0o177777) :
    (if y &&& 0o100000 ≠ 0 then y ||| CRTSCTS else y) &&& ~~~0o170000 = x ↔
      x &&& ~~~(0o7777 ||| CRTSCTS) = 0 := by
  constructor
  · intro h
    obtain ⟨z, hz⟩ : ∃ z, y = z &&& 0o177777 := ⟨_, hy⟩
    split_ifs at h
    all_goals rw [← h, hz]
    · exact (cflag_masks z).1
    · exact (cflag_masks z).2
  · intro h
    have hmask : ~~~((0o7777 : Word) ||| CRTSCTS) = ~~~(0o177777 ||| CRTSCTS) ||| 0o170000 := by
      decide
    rw [hmask, BitVec.and_or_distrib_left] at h
    have hboth := BitVec.or_eq_zero_iff.mp h
    exact (cflag_back_iff hboth.1 hy).mpr hboth.2

/-- All characters come back in both modes. -/
theorem sco_cc_back (t : Termios) (i : Fin 19) :
    scoToLinuxCc (t.cLflag &&& ICANON ≠ 0) (linuxToScoCc t) t.cCc i = t.cCc i := by
  by_cases hc : t.cLflag &&& ICANON ≠ 0
  all_goals fin_cases i <;> simp_all [scoToLinuxCc, linuxToScoCc]

/-! ## The round trip -/

section RoundTrip

variable (pg : Pages) (it : Word) (m : Mem)

/-- The settings that reach the kernel when the caller hands back what it was given. -/
def scoHandedBack (t : Termios) : Termios :=
  let cflag := (if t.cCflag &&& CRTSCTS ≠ 0 then t.cCflag ||| 0o100000 else t.cCflag) &&& 0o177777
  { cIflag := t.cIflag &&& 0o17777 &&& ~~~0o100000
    cOflag := t.cOflag &&& 0o177777
    cCflag := (if cflag &&& 0o100000 ≠ 0 then cflag ||| CRTSCTS else cflag) &&& ~~~0o170000
    cLflag := t.cLflag ||| (t.cLflag &&& ECHOCTL) >>> 1
    cLine := t.cLine
    cCc := t.cCc }

theorem scoToLinuxTermios_scoFilled (t : Termios) (h : pg.canWrite it scoTermiosSize = true) :
    ∃ excl, scoToLinuxTermios pg (0, t) it (m.store it (scoFilled t)) =
      .sets excl (scoHandedBack t) := by
  have hread := Pages.canRead_of_canWrite h
  have hverify : pg.verifyRead it scoTermiosSize = true := Pages.verifyWrite_of_canWrite h
  have hflags := getHalf_scoFilled t hread (m := m)
  rw [scoToLinuxTermios, if_neg (not_not.mpr hverify), if_neg (not_not.mpr rfl)]
  rw [hflags it 0 (BitVec.add_zero it).symm rfl, hflags (it + 2) 1 rfl rfl,
    hflags (it + 4) 2 rfl rfl, hflags (it + 6) 3 rfl rfl, getByte_scoFilled t hread,
      copyBytesFromUser_scoFilled t hread]
  -- the masks of the get call fit into a half
  have hi : ((t.cIflag &&& 0o17777).setWidth 16).setWidth 32 = t.cIflag &&& 0o17777 := by
    rw [half_back, BitVec.and_assoc]
    rfl
  have hmask (x : Word) : ((x &&& 0o177777).setWidth 16).setWidth 32 = x &&& 0o177777 := by
    rw [half_back, BitVec.and_assoc]
    rfl
  have hl : ((linuxToSvr4Lflag t.cLflag).setWidth 16).setWidth 32 =
      linuxToSvr4Lflag t.cLflag := by
    rw [half_back]
    unfold linuxToSvr4Lflag
    rw [BitVec.and_assoc]
    rfl
  have hcc : (scoToLinuxCc (t.cLflag &&& ICANON ≠ 0)
      (fun i => ((List.range SCO_NCCS).map (linuxToScoCc t)).getD i 0) t.cCc) = t.cCc := by
    funext i
    rw [← sco_cc_back t i]
    fin_cases i <;> rfl
  simp only [hi, hmask, hl, lflag_back, icanon_back, hcc]
  exact ⟨_, rfl⟩

/-- The settings agree in all flag words, the line discipline and the characters. -/
structure SameAll (t u : Termios) : Prop where
  iflag : t.cIflag = u.cIflag
  oflag : t.cOflag = u.cOflag
  cflag : t.cCflag = u.cCflag
  lflag : t.cLflag = u.cLflag
  line : t.cLine = u.cLine
  cc : ∀ i, t.cCc i = u.cCc i

theorem scoHandedBack_same_iff {t : Termios} (hiflag : t.cIflag &&& ~~~0o17777 = 0)
    (hoflag : t.cOflag &&& ~~~0o177777 = 0) :
    SameAll (scoHandedBack t) t ↔ t.cCflag &&& ~~~(0o7777 ||| CRTSCTS) = 0 ∧
      (t.cLflag &&& ECHOCTL ≠ 0 → t.cLflag &&& TOSTOP ≠ 0) := by
  rw [← cflag_half_back_iff rfl, ← lflag_back_eq_iff]
  constructor
  · exact fun h => ⟨h.cflag, h.lflag⟩
  · intro h
    exact ⟨iflag_back hiflag, and_eq_self_of_and_not hoflag, h.1, h.2, rfl, fun _ => rfl⟩

/-- `XCGETA` followed by `XCSETA`: both calls go through, and the kernel is given the settings
it had exactly if `c_cflag` has nothing but its twelve lower bits and `CRTSCTS`, and `ECHOCTL`
is set only beside `TOSTOP`. -/
theorem sco_round_trip_iff {t : Termios} (hiflag : t.cIflag &&& ~~~0o17777 = 0)
    (hoflag : t.cOflag &&& ~~~0o177777 = 0) (h : pg.canWrite it scoTermiosSize = true) :
    ∃ m' excl t',
      linuxToScoTermios pg (0, t) it m = (0, m') ∧
      scoToLinuxTermios pg (0, t) it m' = .sets excl t' ∧
      (SameAll t' t ↔ t.cCflag &&& ~~~(0o7777 ||| CRTSCTS) = 0 ∧
        (t.cLflag &&& ECHOCTL ≠ 0 → t.cLflag &&& TOSTOP ≠ 0)) := by
  obtain ⟨excl, hset⟩ := scoToLinuxTermios_scoFilled pg it m t h
  exact ⟨_, excl, _, linuxToScoTermios_eq t h, hset, scoHandedBack_same_iff hiflag hoflag⟩

/-- A terminal at 9600 baud in raw mode with hardware flow control comes back. -/
theorem sco_raw_terminal_back :
    let t : Termios := ⟨0o2400, 0o5, 0o275 ||| CRTSCTS, 0o100070, 3, fun i => BitVec.ofNat 8 i⟩
    ∃ m' excl t',
      linuxToScoTermios .everywhere (0, t) 0x1000 (fun _ => 0) = (0, m') ∧
      scoToLinuxTermios .everywhere (0, t) 0x1000 m' = .sets excl t' ∧ SameAll t' t := by
  intro t
  obtain ⟨m', excl, t', hget, hset, hiff⟩ :=
    sco_round_trip_iff .everywhere 0x1000 (fun _ => 0) (t := t) (by decide) (by decide) (by decide)
  exact ⟨m', excl, t', hget, hset, hiff.mpr (by decide)⟩

/-- A terminal with the settings Linux starts with gets `TOSTOP`, and at 115200 baud it is
slowed down. -/
theorem sco_settings_change :
    let t : Termios := ⟨0o2400, 0o5, 0o275, 0o105073, 0, fun _ => 0⟩
    let fast : Termios := ⟨0o2400, 0o5, 0o10262, 0o73, 0, fun _ => 0⟩
    (∃ m' excl t',
      linuxToScoTermios .everywhere (0, t) 0x1000 (fun _ => 0) = (0, m') ∧
      scoToLinuxTermios .everywhere (0, t) 0x1000 m' = .sets excl t' ∧
      t'.cLflag = 0o105473 ∧ ¬ SameAll t' t) ∧
    ∃ m' excl t',
      linuxToScoTermios .everywhere (0, fast) 0x1000 (fun _ => 0) = (0, m') ∧
      scoToLinuxTermios .everywhere (0, fast) 0x1000 m' = .sets excl t' ∧
      t'.cCflag = 0o262 ∧ ¬ SameAll t' fast := by
  intro t fast
  have hwrite : Pages.everywhere.canWrite 0x1000 scoTermiosSize = true := rfl
  obtain ⟨excl, hset⟩ := scoToLinuxTermios_scoFilled .everywhere 0x1000 (fun _ => 0) t hwrite
  obtain ⟨excl', hset'⟩ := scoToLinuxTermios_scoFilled .everywhere 0x1000 (fun _ => 0) fast hwrite
  refine ⟨⟨_, excl, _, linuxToScoTermios_eq _ hwrite, hset, by decide, fun h => ?_⟩,
    _, excl', _, linuxToScoTermios_eq _ hwrite, hset', by decide, fun h => ?_⟩
  · exact absurd h.lflag (by decide)
  · exact absurd h.cflag (by decide)

end RoundTrip

end AbiEmu.Tty
