import AbiEmu.Binfmt.Xout

/-!
# x.out with segment descriptors (`XOUT_SEGMENTS`)

Compiled with `XOUT_SEGMENTS`, `xout_amen` also gives every segment a descriptor in the
local descriptor table, under the selector the segment table names. Segments of 16 bits are
placed one behind the other from `*addrp` on, and the first data segment of a program for an
older processor is made 64 KB long to hold the stack.

A program without text and with one data segment is *impure*: it runs from its data. For
such a program `xout_amen` maps the segment a second time, as text, under the selector the
header names. It does so by rewriting the entry of the table and jumping back to
`seg_again`, as long as the selector is `0x47` or more. Nothing says that the header's
selector is less.

The body behind the label is `round`; its answers may change from round to round. The jump
runs on fuel. `setup_ends_iff` says when some fuel is enough.
-/

namespace AbiEmu.Binfmt.Segments

open Xout (Xseg Mm amenResult clearMemory)

/-! ## The table, the header and the registers -/

/-- `struct xseg` with its selector. -/
structure Seg extends Xseg where
  xsSeg : BitVec 16
  deriving DecidableEq, Repr

/-- `XS_A32BIT`. -/
def Seg.is32bit (s : Seg) : Bool := s.xsAttr &&& 0x0040 != 0

/-- What `xout_amen` reads of `struct xexec` and `struct xext`. -/
structure Header where
  xCpu : Byte
  xeEseg : BitVec 16
  deriving DecidableEq, Repr

/-- `XC_386` under `XC_CPU`. -/
def Header.is386 (h : Header) : Bool := h.xCpu &&& 0x3f == 0x0a

/-- The registers the program starts with, as far as segments set them. -/
structure Regs where
  ebx : Word
  ecx : Word
  edx : Word
  xcs : Word
  xds : Word
  xes : Word
  xss : Word
  deriving DecidableEq, Repr

/-- `struct modify_ldt_ldt_s`, without the flags that are always zero. -/
structure LdtInfo where
  entryNumber : Word
  baseAddr : Word
  limit : Word
  seg32bit : Bool
  contents : Nat
  limitInPages : Bool
  deriving DecidableEq, Repr

/-- An act of `xout_amen`. -/
inductive Step where
  /-- `sys_modify_ldt(2, …)`: save the first descriptor. -/
  | readLdt
  /-- `sys_modify_ldt(1, …)`. -/
  | writeLdt (info : LdtInfo)
  /-- Put the first descriptor, the gate of `lcall7`, back. -/
  | restoreGate
  | act (a : Act)
  deriving DecidableEq, Repr

/-- The answers for one round. -/
structure Answers where
  /-- The task has a descriptor table already. -/
  hasLdt : Bool
  /-- The `int` that `sys_modify_ldt` returns. -/
  modifyLdt : Word
  map : Mapping
  bss : Mapping
  deriving DecidableEq, Repr

/-- The arguments of `xout_amen` that stay as they are. -/
structure Call where
  header : Header
  kernelDs : Bool
  fp : Bool
  pageable : Bool
  impure : Bool
  deriving DecidableEq, Repr

/-- What `xout_amen` changes: the entry of the table, `*addrp`, the limits of the memory map
and the registers. -/
structure State where
  sp : Seg
  addr : Word
  mm : Mm
  regs : Regs
  deriving DecidableEq, Repr

/-! ## The body -/

/-- Where the segment goes: one of 32 bits to the address it names, one of 16 bits to
`*addrp`. -/
def State.base (s : State) : Word := if s.sp.is32bit then s.sp.xsRbase else s.addr

/-- The start of the round for a segment of 16 bits. -/
def State.place (s : State) : State :=
  if s.sp.is32bit then s
  else
    { s with
      sp := { s.sp with xsRbase := s.addr }
      addr := pageAlign (s.addr + s.sp.xsVsize) }

/-- `ldt_info.base_addr`. -/
def State.ldtBase (s : State) : Word := if s.sp.is32bit then 0 else s.addr

/-- The first data segment is the one the program starts in, and the stack of a program
for an older processor is put at its top. -/
def State.enter (h : Header) (base : Word) (s : State) : State :=
  let seg := s.sp.xsSeg.setWidth 32
  if !s.sp.isData then s
  else if h.is386 then
    if s.regs.xds = s.regs.xcs then
      { s with regs := { s.regs with xds := seg, xes := seg, xss := seg } }
    else s
  else if s.regs.ebx = s.regs.ecx then
    { s with
      regs := { s.regs with ecx := seg, edx := s.sp.xsVsize }
      sp := { s.sp with xsVsize := 0x10000 }
      addr := pageAlign (base + 0x10000) }
  else s

/-- The descriptor. -/
def ldtInfo (sp : Seg) (base : Word) : LdtInfo where
  entryNumber := (sp.xsSeg >>> 3).setWidth 32
  baseAddr := base
  limit := if sp.is32bit then BitVec.ofNat 32 ((taskSize - 1) / 4096) else sp.xsVsize - 1
  seg32bit := sp.is32bit
  contents := if sp.isText then 2 else 0
  limitInPages := sp.is32bit

/-- The calls that write it, under the kernel's address limit; the task's first table needs
its gate back. -/
def ldtSteps (kernelDs : Bool) (a : Answers) (info : LdtInfo) : List Step :=
  if a.hasLdt then [.act (.setFs true), .writeLdt info, .act (.setFs kernelDs)]
  else [.act (.setFs true), .readLdt, .writeLdt info, .act (.setFs kernelDs), .restoreGate]

/-- The mappings of `xout_amen`, with the sizes of the bss as they were taken at the start. -/
def mapPart (kernelDs fp pageable : Bool) (sp : Xseg) (bssSize bssBase : Word)
    (map bss : Mapping) : Load :=
  if !pageable then
    ⟨[.mmap false sp.xsRbase sp.xsVsize 0 map], amenResult (map.ret sp.xsRbase)⟩
  else
    let image := .mmap fp sp.xsRbase sp.xsPsize sp.xsFilpos map
    let err := map.ret sp.xsRbase
    if taskSize < err.toNat ∨ err.toInt < 0 ∨ bssSize = 0 then ⟨[image], amenResult err⟩
    else if pageMask bssBase ≠ 0 then
      ⟨[image, clearMemory kernelDs bssBase (pageAlign bssBase - bssBase),
        .mmap false (pageAlign bssBase) (bssSize - (pageAlign bssBase - bssBase)) 0 bss],
        amenResult (bss.ret (pageAlign bssBase))⟩
    else ⟨[image, .mmap false bssBase bssSize 0 bss], amenResult (bss.ret bssBase)⟩

/-- Without descriptors these are all of `xout_amen`. -/
theorem xoutAmen_eq_mapPart (kernelDs fp pageable : Bool) (sp : Xseg) (a : Xout.SegAnswers) :
    Xout.xoutAmen kernelDs fp pageable sp a =
      mapPart kernelDs fp pageable sp (sp.xsVsize - sp.xsPsize) (sp.xsRbase + sp.xsPsize)
        a.map a.bss := rfl

/-- The end of a round. -/
structure Round where
  steps : List Step
  err : Int
  state : State

/-- The body behind `seg_again`. -/
def round (c : Call) (a : Answers) (s : State) : Round :=
  let base := s.ldtBase
  let s := s.place
  let bssSize := s.sp.xsVsize - s.sp.xsPsize
  let bssBase := s.sp.xsRbase + s.sp.xsPsize
  let s := s.enter c.header base
  let s := { s with mm := s.mm.amen s.sp.toXseg }
  let ldt := ldtSteps c.kernelDs a (ldtInfo s.sp base)
  if a.modifyLdt.msb then ⟨ldt, amenResult a.modifyLdt, s⟩
  else
    let load := mapPart c.kernelDs c.fp c.pageable s.sp.toXseg bssSize bssBase a.map a.bss
    ⟨ldt ++ load.acts.map .act, load.status, s⟩

/-! ## The jump -/

/-- The test before `goto seg_again`. -/
def Round.again (c : Call) (r : Round) : Bool :=
  0 ≤ r.err && c.impure && 0x47 ≤ r.state.sp.xsSeg.toNat

/-- The data segment becomes its own text. -/
def State.mirror (h : Header) (s : State) : State :=
  { s with
    addr := s.sp.xsRbase
    -- XS_TTEXT
    sp := { s.sp with xsSeg := h.xeEseg, xsType := 1 } }

/-- What `xout_amen` leaves. -/
structure Outcome where
  steps : List Step
  err : Int
  state : State
  /-- How often the body was executed. -/
  rounds : Nat

/-- A round before the rest. -/
def Outcome.cons (steps : List Step) (o : Outcome) : Outcome :=
  { o with steps := steps ++ o.steps, rounds := o.rounds + 1 }

/-- `xout_amen`, with fuel for the jump; `answers i` are those for round `i`. -/
def xoutAmen (c : Call) (answers : Nat → Answers) : Nat → Nat → State → Option Outcome
  | 0, _, _ => none
  | fuel + 1, i, s =>
    let r := round c (answers i) s
    if r.again c then
      (xoutAmen c answers fuel (i + 1) (r.state.mirror c.header)).map (·.cons r.steps)
    else some ⟨r.steps, r.err, r.state, 1⟩

/-! ## One round -/

/-- The state after a round but for the limits of the memory map. -/
def State.entered (c : Call) (s : State) : State := s.place.enter c.header s.ldtBase

theorem round_state (c : Call) (a : Answers) (s : State) :
    (round c a s).state =
      { s.entered c with mm := (s.entered c).mm.amen (s.entered c).sp.toXseg } := by
  unfold round State.entered
  split <;> rfl

/-- Entering a segment changes nothing of it but its size. -/
theorem State.enter_sp (h : Header) (base : Word) (s : State) :
    ∃ vsize, (s.enter h base).sp = { s.sp with xsVsize := vsize } := by
  unfold State.enter
  split
  · exact ⟨s.sp.xsVsize, rfl⟩
  · split
    · split <;> exact ⟨s.sp.xsVsize, rfl⟩
    · split
      · exact ⟨0x10000, rfl⟩
      · exact ⟨s.sp.xsVsize, rfl⟩

theorem State.place_sp (s : State) : s.place.sp = { s.sp with xsRbase := s.base } := by
  unfold State.place State.base
  split <;> rfl

theorem entered_sp (c : Call) (s : State) :
    ∃ vsize, (s.entered c).sp = { s.sp with xsRbase := s.base, xsVsize := vsize } := by
  obtain ⟨vsize, hsp⟩ := s.place.enter_sp c.header s.ldtBase
  rw [s.place_sp] at hsp
  exact ⟨vsize, hsp⟩

/-- The services give the segment its descriptor and its pages. -/
def Accepted (c : Call) (sp : Xseg) (a : Answers) : Prop :=
  a.modifyLdt.msb = false ∧ Xout.accepted c.pageable (sp, ⟨a.map, a.bss, 0⟩)
  deriving Decidable

/-- A round goes well if the segment, as it was before it was entered, is accepted. -/
theorem round_err_iff (c : Call) (a : Answers) (s : State) :
    0 ≤ (round c a s).err ↔ Accepted c s.place.sp.toXseg a := by
  obtain ⟨vsize, hsp⟩ := s.place.enter_sp c.header s.ldtBase
  have hrbase : (s.place.enter c.header s.ldtBase).sp.xsRbase = s.place.sp.xsRbase := by rw [hsp]
  have hmap : ∀ map bss, (mapPart c.kernelDs c.fp c.pageable
      (s.place.enter c.header s.ldtBase).sp.toXseg (s.place.sp.xsVsize - s.place.sp.xsPsize)
      (s.place.sp.xsRbase + s.place.sp.xsPsize) map bss).status =
      (Xout.xoutAmen c.kernelDs false c.pageable s.place.sp.toXseg ⟨map, bss, 0⟩).status := by
    intro map bss
    rw [xoutAmen_eq_mapPart]
    unfold mapPart
    rw [hrbase]
    split
    · rfl
    · dsimp only
      split
      · rfl
      · split <;> rfl
  unfold Accepted round
  dsimp only
  split
  next hmsb =>
    rw [hmsb]
    refine iff_of_false (fun h => ?_) fun h => nomatch h.1
    have hlow := (Xout.amenResult_nonneg _).mp h
    have hhigh := BitVec.le_toNat_of_msb_true hmsb
    omega
  next hmsb =>
    rw [and_iff_right (Bool.not_eq_true _ ▸ hmsb), hmap]
    exact Xout.amen_nonneg_iff c.kernelDs c.pageable (s.place.sp.toXseg, ⟨a.map, a.bss, 0⟩)

/-- When the body is executed again. -/
theorem round_again_iff (c : Call) (a : Answers) (s : State) :
    (round c a s).again c = true ↔
      c.impure = true ∧ 0x47 ≤ s.sp.xsSeg.toNat ∧ Accepted c s.place.sp.toXseg a := by
  obtain ⟨vsize, hsp⟩ := entered_sp c s
  have hseg : (round c a s).state.sp.xsSeg = s.sp.xsSeg := by
    rw [round_state]
    rw [hsp]
  unfold Round.again
  rw [hseg, ← round_err_iff]
  simp only [Bool.and_eq_true, decide_eq_true_eq]
  tauto

/-! ## The rounds after the first -/

variable {c : Call} {s t : State}

/-- The state at the start of every round but the first: the segment as the first round left
it, but text and under the header's selector. -/
structure Mirrored (c : Call) (s t : State) : Prop where
  sp : t.sp = { (s.entered c).sp with xsSeg := c.header.xeEseg, xsType := 1 }
  addr : t.addr = (s.entered c).sp.xsRbase

theorem mirrored_first (c : Call) (a : Answers) (s : State) :
    Mirrored c s ((round c a s).state.mirror c.header) := by
  rw [round_state]
  exact ⟨rfl, rfl⟩

section

variable (h : Mirrored c s t)

include h

/-- It is placed where it is. -/
theorem Mirrored.place_sp : t.place.sp = t.sp := by
  have hbase : t.base = t.sp.xsRbase := by
    unfold State.base
    rw [h.addr, h.sp]
    split <;> rfl
  rw [State.place_sp, hbase]

/-- As text it is not entered. -/
theorem Mirrored.entered_sp : (t.entered c).sp = t.sp := by
  have htext : t.place.sp.isData = false := by
    rw [h.place_sp, h.sp]
    rfl
  unfold State.entered State.enter
  rw [htext, ← h.place_sp]
  rfl

theorem Mirrored.next (a : Answers) : Mirrored c s ((round c a t).state.mirror c.header) := by
  rw [round_state]
  have hsp := h.entered_sp
  constructor
  · show { (t.entered c).sp with xsSeg := c.header.xeEseg, xsType := 1 } = _
    rw [hsp, h.sp]
  · show (t.entered c).sp.xsRbase = _
    rw [hsp, h.sp]

/-- So every later round is decided by its answers alone. -/
theorem Mirrored.again_iff (a : Answers) :
    (round c a t).again c = true ↔
      c.impure = true ∧ 0x47 ≤ c.header.xeEseg.toNat ∧ Accepted c (s.entered c).sp.toXseg a := by
  rw [round_again_iff, h.place_sp, h.sp]
  exact Iff.rfl

end

variable {answers : Nat → Answers}

theorem xoutAmen_stop {i : Nat} (fuel : Nat) (h : ¬ (round c (answers i) t).again c = true) :
    ∃ o, xoutAmen c answers (fuel + 1) i t = some o ∧ o.rounds = 1 := by
  refine ⟨_, if_neg h, rfl⟩

variable {fuel i : Nat}

theorem xoutAmen_again (h : (round c (answers i) t).again c = true) :
    xoutAmen c answers (fuel + 1) i t =
      (xoutAmen c answers fuel (i + 1) ((round c (answers i) t).state.mirror c.header)).map
        (·.cons (round c (answers i) t).steps) := if_pos h

theorem rounds_pos {o : Outcome} (h : xoutAmen c answers fuel i t = some o) : 1 ≤ o.rounds := by
  cases fuel with
  | zero => exact nomatch h
  | succ fuel =>
    by_cases hagain : (round c (answers i) t).again c = true
    · rw [xoutAmen_again hagain] at h
      obtain ⟨o', -, rfl⟩ := Option.map_eq_some_iff.mp h
      exact Nat.le_add_left 1 o'.rounds
    · obtain ⟨o', ho', hone⟩ := xoutAmen_stop fuel hagain
      rw [h] at ho'
      obtain rfl := Option.some.inj ho'
      omega

/-- One refusal ends the rounds. -/
theorem Mirrored.ends {n : Nat} : ∀ {i : Nat} {t : State}, Mirrored c s t →
      ¬ Accepted c (s.entered c).sp.toXseg (answers (i + n)) →
      ∃ o, xoutAmen c answers (n + 1) i t = some o := by
  induction n with
  | zero =>
    intro i t h hno
    have hstop : ¬ (round c (answers i) t).again c = true := fun hagain =>
      hno ((h.again_iff (answers i)).mp hagain).2.2
    obtain ⟨o, ho, -⟩ := xoutAmen_stop 0 hstop
    exact ⟨o, ho⟩
  | succ n ih =>
    intro i t h hno
    by_cases hagain : (round c (answers i) t).again c = true
    · have hlater : ¬ Accepted c (s.entered c).sp.toXseg (answers (i + 1 + n)) := by
        rwa [Nat.add_right_comm i 1 n]
      obtain ⟨o, ho⟩ := ih (h.next (answers i)) hlater
      rw [xoutAmen_again hagain, ho]
      exact ⟨_, rfl⟩
    · obtain ⟨o, ho, -⟩ := xoutAmen_stop (n + 1) hagain
      exact ⟨o, ho⟩

/-- Under a selector that is mirrored nothing else does: the last round was refused. -/
theorem Mirrored.last_refused (himpure : c.impure = true)
    (heseg : 0x47 ≤ c.header.xeEseg.toNat) {fuel : Nat} :
    ∀ {i : Nat} {t : State} {o : Outcome}, Mirrored c s t →
      xoutAmen c answers fuel i t = some o →
      ¬ Accepted c (s.entered c).sp.toXseg (answers (i + o.rounds - 1)) := by
  induction fuel with
  | zero => nofun
  | succ fuel ih =>
    intro i t o h ho hacc
    by_cases hagain : (round c (answers i) t).again c = true
    · rw [xoutAmen_again hagain] at ho
      obtain ⟨o', ho', rfl⟩ := Option.map_eq_some_iff.mp ho
      refine ih (h.next (answers i)) ho' ?_
      have hidx : i + (o'.cons (round c (answers i) t).steps).rounds - 1 =
          i + 1 + o'.rounds - 1 := by
        show i + (o'.rounds + 1) - 1 = _
        omega
      rwa [hidx] at hacc
    · obtain ⟨o', ho', hone⟩ := xoutAmen_stop fuel hagain
      rw [ho] at ho'
      obtain rfl := Option.some.inj ho'
      rw [hone, Nat.add_sub_cancel] at hacc
      exact hagain ((h.again_iff (answers i)).mpr ⟨himpure, heseg, hacc⟩)

/-! ## Every segment -/

/-- The set-up of the segment ends, and that of a data segment after at most two rounds. -/
def Ends (c : Call) (answers : Nat → Answers) (s : State) : Prop :=
  ∃ fuel o, xoutAmen c answers fuel 0 s = some o ∧ (s.sp.isData = true → o.rounds ≤ 2)

/-- The services accept the segment in round `i`: the first round sees it as it was placed,
the others as the first left it. -/
def AcceptedIn (c : Call) (s : State) (answers : Nat → Answers) (i : Nat) : Prop :=
  Accepted c (if i = 0 then s.place.sp else (s.entered c).sp).toXseg (answers i)

/-- `xout_amen` ends, with at most two rounds for a data segment, unless the program is impure
and both the segment's selector and the header's are mirrored; then only a service that
refuses ends it, and for a data segment it must do so in one of the first two rounds. -/
theorem setup_ends_iff (c : Call) (answers : Nat → Answers) (s : State) :
    Ends c answers s ↔
      (c.impure = true → 0x47 ≤ s.sp.xsSeg.toNat → 0x47 ≤ c.header.xeEseg.toNat →
        (∃ i, ¬ AcceptedIn c s answers i) ∧
        (s.sp.isData = true → ¬ (AcceptedIn c s answers 0 ∧ AcceptedIn c s answers 1))) := by
  have hfirst := mirrored_first c (answers 0) s
  constructor
  · rintro ⟨fuel, o, ho, hdata⟩ himpure hseg heseg
    obtain ⟨fuel, rfl⟩ : ∃ n, fuel = n + 1 := by
      cases fuel with
      | zero => exact nomatch ho
      | succ n => exact ⟨n, rfl⟩
    by_cases hagain : (round c (answers 0) s).again c = true
    · rw [xoutAmen_again hagain] at ho
      obtain ⟨o', ho', rfl⟩ := Option.map_eq_some_iff.mp ho
      have hlast := hfirst.last_refused himpure heseg ho'
      have hpos := rounds_pos ho'
      refine ⟨⟨0 + 1 + o'.rounds - 1, ?_⟩, fun hd hboth => ?_⟩
      · unfold AcceptedIn
        rwa [if_neg (by omega)]
      · have htwo : o'.rounds + 1 ≤ 2 := hdata hd
        have hone : o'.rounds = 1 := by omega
        rw [hone] at hlast
        exact hlast hboth.2
    · have hno : ¬ AcceptedIn c s answers 0 := fun hacc =>
        hagain ((round_again_iff c (answers 0) s).mpr ⟨himpure, hseg, hacc⟩)
      exact ⟨⟨0, hno⟩, fun _ hboth => hno hboth.1⟩
  · intro h
    by_cases hagain : (round c (answers 0) s).again c = true
    · obtain ⟨himpure, hseg, hacc⟩ := (round_again_iff c (answers 0) s).mp hagain
      have hsecond : ¬ (round c (answers 1)
          ((round c (answers 0) s).state.mirror c.header)).again c = true →
          Ends c answers s := by
        intro hstop
        obtain ⟨o, ho, hone⟩ := xoutAmen_stop 0 hstop
        refine ⟨2, o.cons (round c (answers 0) s).steps, ?_, fun _ => ?_⟩
        · rw [xoutAmen_again hagain, ho]
          rfl
        · show o.rounds + 1 ≤ 2
          omega
      by_cases heseg : 0x47 ≤ c.header.xeEseg.toNat
      · obtain ⟨⟨i, hi⟩, hboth⟩ := h himpure hseg heseg
        by_cases hone : AcceptedIn c s answers 1
        · -- not a data segment, and the refusal comes later
          have hdata : ¬ s.sp.isData = true := fun hd => hboth hd ⟨hacc, hone⟩
          obtain ⟨n, rfl⟩ : ∃ n, i = 1 + n := by
            cases i with
            | zero => exact absurd hacc hi
            | succ n => exact ⟨n, Nat.add_comm n 1⟩
          have hno : ¬ Accepted c (s.entered c).sp.toXseg (answers (0 + 1 + n)) := by
            unfold AcceptedIn at hi
            rwa [if_neg (by omega)] at hi
          obtain ⟨o, ho⟩ := hfirst.ends hno
          refine ⟨n + 2, o.cons (round c (answers 0) s).steps, ?_, fun hd => absurd hd hdata⟩
          rw [xoutAmen_again hagain, ho]
          rfl
        · exact hsecond fun hmore => hone ((hfirst.again_iff (answers 1)).mp hmore).2.2
      · exact hsecond fun hmore => heseg ((hfirst.again_iff (answers 1)).mp hmore).2.1
    · obtain ⟨o, ho, hone⟩ := xoutAmen_stop 0 hagain
      exact ⟨1, o, ho, fun _ => by omega⟩

/-- The call for an impure program that is read in; its header names the selector. -/
def impureCall (eseg : BitVec 16) : Call := ⟨⟨0x4a, eseg⟩, false, false, false, true⟩

/-- Services that play along. -/
def granting : Answers := ⟨true, 0, .granted, .granted⟩

/-- A data segment of 32 bits under the selector. -/
def dataState (seg : BitVec 16) : State where
  sp := { Xout.dataSegment 0x400 0x800 0x1000 0x1000 with xsAttr := 0x8040, xsSeg := seg }
  addr := 0x4000000
  mm := ⟨0, 0, 0, 0⟩
  regs := ⟨0, 0, 0, 0, 0, 0, 0⟩

/-- With the header's selector equal to the segment's the rounds never end: no fuel is
enough. -/
theorem own_selector_never_ends :
    ¬ Ends (impureCall 0x47) (fun _ => granting) (dataState 0x47) := by
  rintro ⟨fuel, o, ho, -⟩
  have hno : ∀ {i : Nat} {t : State} {fuel : Nat} {o : Outcome},
      Mirrored (impureCall 0x47) (dataState 0x47) t →
      xoutAmen (impureCall 0x47) (fun _ => granting) fuel i t ≠ some o := by
    intro i t fuel o h ho
    exact h.last_refused rfl (by decide) ho (by decide)
  cases fuel with
  | zero => exact nomatch ho
  | succ fuel =>
    obtain ⟨o', ho', -⟩ := Option.map_eq_some_iff.mp ho
    exact hno (mirrored_first _ granting _) ho'

end AbiEmu.Binfmt.Segments
