import AbiEmu.Tty.Termios

/-!
# The terminal settings of System V, release 3 (`abi/svr4/termios.c`)

`TCGETA` and `TCSETA` use the old structure with flag words of 16 bits and eight control
characters, which Linux has as well, with the same layout. `linux_to_svr_termio` and
`svr_to_linux_termio` copy it as a whole and put `VMIN` in the place of `VEOF` and back where
`ICANON` is off.

The characters come back in both modes, and the flag words but for `c_cflag`: the set call
clears the four bits it takes for SCO's own. For one of these, `CRTSFL`, it means to switch
hardware flow control on. But `CRTSCTS` is a bit of the upper half, which a `u_short` does not
have, and `TCSETA` leaves the upper half of the terminal's word alone. So the request is lost
unless the terminal had it already.
-/

namespace AbiEmu.Tty

/-- The kernel's `struct termio`. -/
structure Termio where
  cIflag : BitVec 16
  cOflag : BitVec 16
  cCflag : BitVec 16
  cLflag : BitVec 16
  cLine : Byte
  cCc : Fin 8 → Byte
  deriving DecidableEq

/-- `sizeof(struct svr_termio)`, with a byte of padding. -/
def svrTermioSize : Nat := 18

/-- The structure in memory, where its padding holds `pad`. -/
def Termio.bytes (pad : Byte) (t : Termio) : List Byte :=
  [t.cIflag, t.cOflag, t.cCflag, t.cLflag].flatMap halfBytes ++
    ([t.cLine] ++ List.ofFn t.cCc ++ [pad])

/-- The structure that stands at an address. -/
def Termio.load (m : Mem) (a : Word) : Termio where
  cIflag := m.half a
  cOflag := m.half (a + 2)
  cCflag := m.half (a + 4)
  cLflag := m.half (a + 6)
  cLine := m (a + 8)
  cCc := fun i => m (a + BitVec.ofNat 32 (9 + i.val))

/-- `ICANON` in a word of 16 bits. -/
def Termio.icanon (t : Termio) : Bool := t.cLflag &&& 0o2 != 0

/-! ## The two calls -/

/-- The structure `linux_to_svr_termio` copies out: without `ICANON`, `VMIN` stands for
`VEOF`. -/
def linuxToSvr (t : Termio) : Termio :=
  if t.icanon then t else { t with cCc := Function.update t.cCc 4 (t.cCc 6) }

/-- `linux_to_svr_termio`; `tcgeta` is what the kernel answers, and `pad` what the padding of
its structure held. -/
def linuxToSvrTermio (pg : Pages) (pad : Byte) (tcgeta : Int × Termio) (it : Word) (m : Mem) :
    Int × Mem :=
  if ¬ pg.verifyWrite it svrTermioSize then (-EFAULT, m)
  else if tcgeta.1 ≠ 0 then (tcgeta.1, m)
  else
    let copied := pg.copyBytesToUser it ((linuxToSvr tcgeta.2).bytes pad) m
    (if copied.1 then 0 else -EFAULT, copied.2)

/-- `c_cflag` in `svr_to_linux_termio`. The operands are `int`s, the result a `u_short`. -/
def svrToLinuxCflag (cflag : BitVec 16) : BitVec 16 :=
  let c := if cflag &&& 0o100000 ≠ 0 then (cflag.setWidth 32 ||| CRTSCTS).setWidth 16 else cflag
  (c.setWidth 32 &&& ~~~0o170000 : Word).setWidth 16

/-- The settings `svr_to_linux_termio` makes of the caller's; `eof` is the terminal's own end
of file. -/
def svrToLinux (eof : Byte) (u : Termio) : Termio where
  cIflag := u.cIflag
  cOflag := u.cOflag
  cCflag := svrToLinuxCflag u.cCflag
  cLflag := u.cLflag
  cLine := u.cLine
  cCc := if u.icanon then u.cCc
    else Function.update (Function.update u.cCc 6 (u.cCc 4)) 4 eof

/-- `svr_to_linux_termio`: an error, or the settings for the kernel. -/
def svrToLinuxTermio (pg : Pages) (tcgeta : Int × Termio) (it : Word) (m : Mem) :
    Except Int Termio :=
  if ¬ pg.verifyRead it svrTermioSize then .error (-EFAULT)
  else if tcgeta.1 ≠ 0 then .error tcgeta.1
  else if ¬ pg.canRead it svrTermioSize then .error (-EFAULT)
  else .ok (svrToLinux (tcgeta.2.cCc 4) (.load m it))

/-- The kernel's `TCSETA`, as the `c_cflag` it makes of the terminal's, sets the lower half
and keeps the upper. -/
def KeepsUpper (tcseta : Word → Termio → Word) : Prop :=
  ∀ c t, tcseta c t = c.extractLsb' 16 16 ++ t.cCflag

/-! ## The structure in user memory -/

/-- What was stored is loaded. -/
theorem Termio.load_store (m : Mem) (a : Word) (pad : Byte) (t : Termio) :
    Termio.load (m.store a (t.bytes pad)) a = t := by
  have hflags : ∀ (b : Word) (k : Nat) {v : BitVec 16}, b = a + BitVec.ofNat 32 (2 * k) →
      [t.cIflag, t.cOflag, t.cCflag, t.cLflag][k]? = some v →
        (m.store a (t.bytes pad)).half b = v := by
    rintro _ k v rfl hv
    have hk : k < 4 := (List.getElem?_eq_some_iff.mp hv).1
    refine Mem.half_store m a v (by omega) fun j hj => ?_
    rw [Termio.bytes, List.getElem?_append_left, Mem.getElem?_flatMap_halfBytes _ _ _ hj, hv,
      Option.bind_some]
    show 2 * k + j < 8
    omega
  have hline : m.store a (t.bytes pad) (a + 8) = t.cLine :=
    Mem.store_add m a (by decide) rfl
  have hcc : (fun i : Fin 8 => m.store a (t.bytes pad) (a + BitVec.ofNat 32 (9 + i.val))) =
      t.cCc := by
    funext i
    refine Mem.store_add m a (by omega) ?_
    fin_cases i <;> rfl
  unfold Termio.load
  rw [hflags a 0 (BitVec.add_zero a).symm rfl, hflags (a + 2) 1 rfl rfl, hflags (a + 4) 2 rfl rfl,
    hflags (a + 6) 3 rfl rfl, hline, hcc]

/-! ## What comes back -/

/-- The or with `CRTSCTS` changes nothing. -/
theorem svrToLinuxCflag_eq (c : BitVec 16) : svrToLinuxCflag c = c &&& ~~~0o170000 := by
  have hor : (c.setWidth 32 ||| CRTSCTS).setWidth 16 = c := by
    unfold CRTSCTS
    ext i hi
    interval_cases i <;> simp
  unfold svrToLinuxCflag
  rw [hor, ite_self]
  ext i hi
  interval_cases i <;> simp

/-- The characters change places twice. -/
theorem svr_cc_back (cc : Fin 8 → Byte) :
    Function.update (Function.update (Function.update cc 4 (cc 6)) 6
      (Function.update cc 4 (cc 6) 4)) 4 (cc 4) = cc := by
  funext i
  fin_cases i <;> rfl

/-- What the two translations make of the settings. -/
theorem svr_back (t : Termio) :
    svrToLinux (t.cCc 4) (linuxToSvr t) = { t with cCflag := t.cCflag &&& ~~~0o170000 } := by
  unfold svrToLinux linuxToSvr
  split
  · rw [svrToLinuxCflag_eq]
  next hc =>
    have hc' : ¬ Termio.icanon { t with cCc := Function.update t.cCc 4 (t.cCc 6) } = true := hc
    rw [if_neg hc', svrToLinuxCflag_eq, svr_cc_back]

/-- Whether the terminal has hardware flow control after `TCSETA` depends on the upper half
alone. -/
theorem KeepsUpper.crtscts {tcseta : Word → Termio → Word} (h : KeepsUpper tcseta) (c : Word)
    (t : Termio) : tcseta c t &&& CRTSCTS ≠ 0 ↔ c &&& CRTSCTS ≠ 0 := by
  have hrts : CRTSCTS = BitVec.twoPow 32 31 := rfl
  rw [h, hrts, Bits.and_twoPow_ne_zero _ (by omega), Bits.and_twoPow_ne_zero _ (by omega),
    BitVec.getLsbD_append]
  simp

/-! ## Both promises -/

variable (pg : Pages) (it : Word) (m : Mem)

theorem linuxToSvrTermio_eq (pad : Byte) (t : Termio)
    (h : pg.canWrite it svrTermioSize = true) :
    linuxToSvrTermio pg pad (0, t) it m = (0, m.store it ((linuxToSvr t).bytes pad)) := by
  have hverify := Pages.verifyWrite_of_canWrite h
  rw [linuxToSvrTermio, if_neg (not_not.mpr hverify), if_neg (not_not.mpr rfl)]
  rw [Pages.copyBytesToUser_of_canWrite m h]
  rfl

theorem svrToLinuxTermio_eq (t : Termio) (h : pg.canWrite it svrTermioSize = true) :
    svrToLinuxTermio pg (0, t) it m = .ok (svrToLinux (t.cCc 4) (.load m it)) := by
  have hread := Pages.canRead_of_canWrite h
  have hverify : pg.verifyRead it svrTermioSize = true := Pages.verifyWrite_of_canWrite h
  rw [svrToLinuxTermio, if_neg (not_not.mpr hverify), if_neg (not_not.mpr rfl),
    if_neg (not_not.mpr hread)]

theorem svr_back_same_iff (t : Termio) :
    svrToLinux (t.cCc 4) (linuxToSvr t) = t ↔ t.cCflag &&& 0o170000 = 0 := by
  have hmask : ~~~(~~~0o170000 : BitVec 16) = 0o170000 := rfl
  have hcflag : t.cCflag &&& ~~~0o170000 = t.cCflag ↔ t.cCflag &&& 0o170000 = 0 := by
    rw [Bits.and_eq_self_iff, hmask]
  rw [svr_back, ← hcflag]
  constructor
  · intro h
    exact congrArg Termio.cCflag h
  · intro h
    rw [h]

/-- `TCGETA` followed by `TCSETA` gives the kernel the settings it had exactly without the four
bits of `c_cflag` that the set call clears. And a structure with `CRTSFL`, whatever else it
holds, leaves the terminal with hardware flow control exactly if it had that before; `c` is
its `c_cflag`. -/
theorem svr_termio_iff (pad : Byte) (t : Termio) (c : Word) {tcseta : Word → Termio → Word}
    (hkernel : KeepsUpper tcseta) (h : pg.canWrite it svrTermioSize = true) :
    (∃ m' t', linuxToSvrTermio pg pad (0, t) it m = (0, m') ∧
      svrToLinuxTermio pg (0, t) it m' = .ok t' ∧ (t' = t ↔ t.cCflag &&& 0o170000 = 0)) ∧
    ∀ mu : Mem, ∃ t', svrToLinuxTermio pg (0, t) it mu = .ok t' ∧
      (((Termio.load mu it).cCflag &&& 0o100000 ≠ 0 → tcseta c t' &&& CRTSCTS ≠ 0) ↔
        (Termio.load mu it).cCflag &&& 0o100000 = 0 ∨ c &&& CRTSCTS ≠ 0) := by
  constructor
  · refine ⟨_, _, linuxToSvrTermio_eq pg it m pad t h, svrToLinuxTermio_eq pg it _ t h, ?_⟩
    rw [Termio.load_store]
    exact svr_back_same_iff t
  · intro mu
    refine ⟨_, svrToLinuxTermio_eq pg it mu t h, ?_⟩
    -- the lower half, which is all the call sets, has no part in either side
    rw [hkernel.crtscts]
    tauto

/-- A `TCSETA` that does just that. -/
def plainTcseta (c : Word) (t : Termio) : Word := c.extractLsb' 16 16 ++ t.cCflag

/-- A terminal at 9600 baud comes back, and `CRTSFL` is granted to one that has hardware flow
control. -/
theorem svr_plain_back :
    let t : Termio := ⟨0o2400, 0o5, 0o275, 0o73, 0, fun _ => 0⟩
    (∃ m' t', linuxToSvrTermio .everywhere 0 (0, t) 0x1000 (fun _ => 0) = (0, m') ∧
      svrToLinuxTermio .everywhere (0, t) 0x1000 m' = .ok t' ∧ t' = t) ∧
    ∃ t', svrToLinuxTermio .everywhere (0, t) 0x1000 (fun _ => 0x80) = .ok t' ∧
      plainTcseta 0x800000bd t' &&& CRTSCTS ≠ 0 := by
  intro t
  obtain ⟨⟨m', t', hget, hset, hiff⟩, hall⟩ :=
    svr_termio_iff .everywhere 0x1000 (fun _ => 0) 0 t 0x800000bd
      (fun c t => (rfl : plainTcseta c t = _)) (by decide)
  obtain ⟨u', hu, hrts⟩ := hall (fun _ => 0x80)
  exact ⟨⟨m', t', hget, hset, hiff.mpr (by decide)⟩, u', hu,
    hrts.mpr (Or.inr (by decide)) (by decide)⟩

/-- A line at 57600 baud is slowed to 50, since the extended code has one of the four bits; and
`CRTSFL` on a terminal without hardware flow control has no effect. -/
theorem svr_speed_and_flow_lost :
    let t : Termio := ⟨0o2400, 0o5, 0o10261, 0o73, 0, fun _ => 0⟩
    (∃ m' t', linuxToSvrTermio .everywhere 0 (0, t) 0x1000 (fun _ => 0) = (0, m') ∧
      svrToLinuxTermio .everywhere (0, t) 0x1000 m' = .ok t' ∧ t'.cCflag = 0o261 ∧ t' ≠ t) ∧
    (Termio.load (fun _ => 0x80) 0x1000).cCflag &&& 0o100000 ≠ 0 ∧
    ∃ t', svrToLinuxTermio .everywhere (0, t) 0x1000 (fun _ => 0x80) = .ok t' ∧
      plainTcseta 0x10b1 t' &&& CRTSCTS = 0 := by
  intro t
  have hwrite : Pages.everywhere.canWrite 0x1000 svrTermioSize = true := rfl
  refine ⟨⟨_, _, linuxToSvrTermio_eq _ _ _ 0 t hwrite, svrToLinuxTermio_eq _ _ _ t hwrite, ?_⟩,
    by decide, _, svrToLinuxTermio_eq _ _ _ t hwrite, by decide⟩
  decide

end AbiEmu.Tty
