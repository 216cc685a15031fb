import AbiEmu.Binfmt.Segments

/-!
# The x.out loader in both configurations

`xout_load_object` can be compiled with support for the older processors
(`CONFIG_BINFMT_XOUT_X286`), which brings `XOUT_SEGMENTS` with it. A program that is not for
the 386 then has an overlay library loaded that emulates its processor, and its headers put
where the overlay finds them; the loader returns `rp->eax` for it and not the break.

The loader is written here once for both configurations, with the calls of `xout_amen` left
open: a call gets an entry of the table and what goes from call to call, and leaves both
changed. The default configuration is that of `Xout.xoutLoadObject` (`plain_load`); with
`XOUT_SEGMENTS` the calls are those of `Segments.xoutAmen`, which need not return.
-/

namespace AbiEmu.Binfmt.XoutLoad

open Xout (Xexec Mm)
open Segments (Seg Header Regs Call State Step Outcome)

/-! ## The file -/

/-- The headers and the segment list of a file. -/
structure File where
  xexec : Xexec
  xeEseg : BitVec 16
  xeSegsize : Word
  xseg : Nat → Seg

/-- What `xout_amen` reads of the headers. -/
def File.header (f : File) : Header := ⟨f.xexec.xCpu, f.xeEseg⟩

/-- The processors: `XC_386`, and with the option `XC_8086`, `XC_286`, `XC_286V`, `XC_186`. -/
def supported (x286 : Bool) (cpu : Byte) : Bool :=
  cpu &&& 0x3f == 0x0a ||
    x286 && (cpu &&& 0x3f == 0x04 || cpu &&& 0x3f == 0x09 || cpu &&& 0x3f == 0x29 ||
      cpu &&& 0x3f == 0x0b)

/-- The checks on the headers, all of which fail with `-ENOEXEC`. -/
def File.executable (x286 : Bool) (f : File) : Bool :=
  f.xexec.xMagic == 0x0206 &&
  supported x286 f.xexec.xCpu &&
  f.xexec.xCpu &&& (0x80 ||| 0x40) == 0x40 &&
  f.xexec.xRenv &&& 0x0001 != 0 &&
  f.xexec.xExt == 44 &&
  f.xexec.xRenv &&& 0x0800 != 0 &&
  f.xeSegsize != 0

/-- An entry of the table with its place in it. -/
structure Entry where
  idx : Nat
  seg : Seg
  deriving DecidableEq, Repr

/-- The table. -/
def File.entries (f : File) : List Entry :=
  (List.range (f.xeSegsize.toNat / 32)).map fun i => ⟨i, f.xseg i⟩

/-- `ndata` is not zero. -/
def File.hasData (f : File) : Bool := f.entries.any fun e => e.seg.isData

/-- `!ntext && ndata == 1`. -/
def isImpure (segs : List Seg) : Bool :=
  !segs.any (·.isText) && segs.countP (·.isData) == 1

/-! ## The rest of the kernel -/

/-- What goes from one call of `xout_amen` to the next. -/
structure Thread where
  addr : Word
  mm : Mm
  regs : Regs
  deriving DecidableEq, Repr

/-- The answers. -/
structure Services where
  kernelDs : Bool
  mmapOp : Bool
  kmalloc : Bool
  readTable : Int
  flushOldExec : Int
  setupArgPages : Int
  /-- `sys_uselib` of the overlay. -/
  uselib : Int
  /-- To the mapping for the headers. -/
  mapHeaders : Mapping
  /-- `copy_to_user` of the headers goes through. -/
  copyXexec : Bool
  copyXext : Bool
  /-- `xout_amen` for entry `i` of the table, if it returns. -/
  amen : Nat → Call → State → Option Outcome
  /-- The `int` that `kernel_read` returns for entry `i`. -/
  read : Nat → Word
  /-- The limits and the registers at entry. -/
  mm : Mm
  regs : Regs
  eax : Word
  ptraced : Bool

/-- An event of the load. -/
inductive Event where
  | act (a : Act)
  /-- `sys_uselib(_PATH_X286EMUL)`. -/
  | uselib
  | copyToUser (addr len : Word)
  /-- A call of `xout_amen` that returned. -/
  | amen (i : Nat) (c : Call) (o : Outcome)
  /-- A read of an entry's file bytes, of which `n` arrived. -/
  | read (e : Entry) (n : Nat)

/-- What the load did and what it returned. -/
structure Exit where
  events : List Event
  status : Int

/-! ## The rounds over the table -/

/-- What the first round leaves: the calls it made, `err`, and the table. -/
structure Table where
  calls : List (Nat × Outcome)
  err : Int
  thread : Thread
  entries : List Entry

/-- A call before the rest of the round. -/
def Table.cons (i : Nat) (o : Outcome) (t : Table) : Table :=
  { t with calls := (i, o) :: t.calls, entries := ⟨i, o.state.sp⟩ :: t.entries }

/-- An entry that is passed over before the rest of the round. -/
def Table.keep (e : Entry) (t : Table) : Table := { t with entries := e :: t.entries }

/-- The first round: a call for every memory segment until one fails. -/
def mapTable (amen : Nat → State → Option Outcome) : Int → Thread → List Entry → Option Table
  | err, th, [] => some ⟨[], err, th, []⟩
  | err, th, e :: es =>
    if err < 0 then some ⟨[], err, th, e :: es⟩
    else if e.seg.isMem then
      (amen e.idx ⟨e.seg, th.addr, th.mm, th.regs⟩).bind fun o =>
        (mapTable amen o.err ⟨o.state.addr, o.state.mm, o.state.regs⟩ es).map (·.cons e.idx o)
    else (mapTable amen err th es).map (·.keep e)

variable {es : List Entry}

/-- The round goes on only while nothing has failed. -/
theorem mapTable_err {amen : Nat → State → Option Outcome} {err : Int} {th : Thread} {t : Table}
    (h : mapTable amen err th es = some t) (hok : 0 ≤ t.err) :
    0 ≤ err := by
  cases es with
  | nil =>
    obtain rfl := Option.some.inj h
    exact hok
  | cons e es =>
    unfold mapTable at h
    by_cases herr : err < 0
    · rw [if_pos herr] at h
      obtain rfl := Option.some.inj h
      exact hok
    · omega

/-- The bytes a read of the segment stores. -/
def bytesRead (sp : Seg) (read : Word) : Nat :=
  if read.msb then 0 else min read.toNat sp.xsPsize.toNat

/-- The second round: read every text and data segment until a read is short. -/
def readTable (read : Nat → Word) : Int → List Entry → List Event × Int
  | err, [] => ([], err)
  | err, e :: es =>
    if e.seg.isFile then
      let event := .read e (bytesRead e.seg (read e.idx))
      if read e.idx ≠ e.seg.xsPsize then ([event], -1)
      else
        let rest := readTable read err es
        (event :: rest.1, rest.2)
    else readTable read err es

/-! ## The whole load -/

/-- The whole file can be mapped page by page. -/
def pageable (k : Services) (f : File) : Bool :=
  k.mmapOp && !f.entries.any fun e => e.seg.isFile && Xout.isnotaligned e.seg.toXseg

/-- The arguments of the calls that stay as they are; `fp` is `NULL`. -/
def call (k : Services) (f : File) : Call :=
  ⟨f.header, k.kernelDs, false, pageable k f, isImpure (f.entries.map Entry.seg)⟩

/-- What both rounds leave. -/
structure Image where
  events : List Event
  err : Int
  mm : Mm

/-- Both rounds, from the value of `err` at their start to its value at `trap`. -/
def image (k : Services) (f : File) (err : Int) (th : Thread) : Option Image :=
  (mapTable (fun i s => k.amen i (call k f) s) err th f.entries).map fun t =>
    let calls := t.calls.map fun p => .amen p.1 (call k f) p.2
    if pageable k f ∨ t.err < 0 then ⟨calls, t.err, t.thread.mm⟩
    else
      let reads := readTable k.read t.err t.entries
      ⟨calls ++ reads.1, reads.2, t.thread.mm⟩

/-- `X286_MAP_ADDR`. -/
def x286MapAddr : Word := 0x4000000

/-- The overlay for a program that is not for the 386. It ends the load, at `out` or at
`Einval`, or leaves `err` and the address for segments of 16 bits. -/
def overlay (x286 : Bool) (k : Services) (h : Header) (err : Int) :
    Except (List Event × Int) (List Event × Int × Word) :=
  if !x286 || h.is386 then .ok ([], err, x286MapAddr)
  else
    let library := [.act (.setFs true), .uselib, .act (.setFs k.kernelDs)]
    if k.uselib < 0 then .error (library, k.uselib)
    else
      -- sizeof(struct xexec) and sizeof(struct xext) are 32 and 44
      let mapped := library ++ [.act (.mmap false x286MapAddr 76 0 k.mapHeaders)]
      let err := k.mapHeaders.ret x286MapAddr
      if taskSize < err.toNat then .error (mapped, -EINVAL)
      else if err.toInt < 0 then .ok (mapped, err.toInt, x286MapAddr)
      else if !k.copyXexec then .error (mapped ++ [.copyToUser x286MapAddr 32], -EFAULT)
      else
        let copied := mapped ++ [.copyToUser x286MapAddr 32, .copyToUser (x286MapAddr + 32) 44]
        if !k.copyXext then .error (copied, -EFAULT)
        else .ok (copied, err.toInt, pageAlign (x286MapAddr + 76))

/-- The limits and registers of a new executable. -/
def newThread (x286 : Bool) (k : Services) (f : File) (addr : Word) : Thread :=
  let eseg := f.xeEseg.setWidth 32
  if !x286 then ⟨addr, .executable f.xexec, k.regs⟩
  else if f.header.is386 then
    ⟨addr, ⟨0, 0, 0, 0⟩, { k.regs with xcs := eseg, xds := eseg, xes := eseg, xss := eseg }⟩
  else ⟨addr, ⟨0, 0, 0, 0⟩, { k.regs with ebx := eseg, ecx := eseg }⟩

/-- What goes to the first call. -/
def startThread (x286 : Bool) (k : Services) (f : File) (executable : Bool) (addr : Word) :
    Thread :=
  if executable then newThread x286 k f addr else ⟨addr, k.mm, k.regs⟩

/-- `err` before the overlay. -/
def startErr (k : Services) (executable : Bool) : Int :=
  if executable then k.setupArgPages else k.readTable

/-- `rp->eax` at the end, where it is returned. -/
def startEax (k : Services) (f : File) (executable : Bool) : Word :=
  if executable then f.xexec.xEntry else k.eax

/-- The last lines: an error, or else the break or `rp->eax` as an `int`. -/
def returned (h : Header) (err : Int) (brk eax : Word) : Int :=
  if err < 0 then err else if h.is386 then brk.toInt else eax.toInt

/-- What precedes the overlay. -/
def startEvents (f : File) (executable : Bool) : List Event :=
  if executable then
    [.act .kmalloc, .act .flushOldExec, .act .setupArgPages,
      .act (.startThread f.xexec.xEntry), .act (.setPersonality Xout.perXenix)]
  else [.act .kmalloc]

/-- The signals at `trap`; a library leaves them to its caller. -/
def trapEvents (k : Services) (executable : Bool) (err : Int) : List Event :=
  if executable then (trap k.ptraced err).map .act else []

/-- `xout_load_object`; none if a call of `xout_amen` does not return. -/
def xoutLoadObject (x286 : Bool) (k : Services) (f : File) (executable : Bool) : Option Exit :=
  if !f.executable x286 then some ⟨[], -ENOEXEC⟩
  else if !k.kmalloc then some ⟨[], -ENOMEM⟩
  else if k.readTable < 0 then some ⟨[.act .kmalloc, .act .kfree], k.readTable⟩
  -- err is the length read, so this counts as success
  else if !f.hasData then
    some ⟨[.act .kmalloc, .act .kfree], returned f.header k.readTable k.mm.brk k.eax⟩
  -- the result of flush_old_exec is not looked at
  else if executable && decide (k.setupArgPages < 0) then
    some ⟨[.act .kmalloc, .act .flushOldExec, .act .setupArgPages, .act (.sendSig SIGSEGV)],
      k.setupArgPages⟩
  else
    let start := startEvents f executable
    match overlay x286 k f.header (startErr k executable) with
    | .error (events, err) => some ⟨start ++ events ++ [.act .kfree], err⟩
    | .ok (events, err, addr) =>
      (image k f err (startThread x286 k f executable addr)).map fun i =>
        ⟨start ++ events ++ i.events ++ trapEvents k executable i.err ++ [.act .kfree],
          returned f.header (if executable then 0 else i.err) i.mm.brk (startEax k f executable)⟩

/-! ## The default configuration -/

/-- The file without selectors. -/
def File.plain (f : File) : Xout.File := ⟨f.xexec, f.xeSegsize, fun i => (f.xseg i).toXseg⟩

/-- The services of the default configuration, where `xout_amen` is `Xout.xoutAmen` with its
update of the limits; `rest` gives what that configuration does not ask for. -/
def plainOf (k : Xout.Services) (rest : Services) : Services where
  kernelDs := k.kernelDs
  mmapOp := k.mmapOp
  kmalloc := k.kmalloc
  readTable := k.readTable
  flushOldExec := rest.flushOldExec
  setupArgPages := k.setupArgPages
  uselib := rest.uselib
  mapHeaders := rest.mapHeaders
  copyXexec := rest.copyXexec
  copyXext := rest.copyXext
  amen := fun i c s =>
    let load := Xout.xoutAmen c.kernelDs c.fp c.pageable s.sp.toXseg (k.segment i)
    some ⟨load.acts.map .act, load.status, { s with mm := s.mm.amen s.sp.toXseg }, 1⟩
  read := fun i => (k.segment i).read
  mm := k.mm
  regs := rest.regs
  eax := rest.eax
  ptraced := k.ptraced

/-- The act a step is. -/
def actOf : Step → Option Act
  | .act a => some a
  | _ => none

/-- The acts of an event. -/
def Event.acts : Event → List Act
  | .act a => [a]
  | .amen _ _ o => o.steps.filterMap actOf
  | .read e n => [.read e.seg.xsRbase e.seg.xsFilpos.toNat n]
  | _ => []

/-- The load as a list of acts. -/
def Exit.load (o : Exit) : Load := ⟨o.events.flatMap Event.acts, o.status⟩

variable {k : Xout.Services} {rest : Services}

/-- An entry as the default configuration has it. -/
def Entry.plain (k : Xout.Services) (e : Entry) : Xout.Entry := (e.seg.toXseg, k.segment e.idx)

variable (f : File)

theorem entries_plain : f.entries.map (Entry.plain k) = Xout.entries k f.plain := by
  unfold File.entries Xout.entries
  rw [List.map_map]
  rfl

theorem hasData_plain : f.hasData = Xout.hasData k f.plain := by
  unfold File.hasData Xout.hasData
  rw [← entries_plain, List.any_map]
  rfl

theorem pageable_plain : pageable (plainOf k rest) f = Xout.pageable k f.plain := by
  unfold pageable Xout.pageable
  rw [← entries_plain, List.any_map]
  rfl

theorem executable_plain : f.executable false = f.plain.executable := by
  unfold File.executable Xout.File.executable supported
  rw [Bool.false_and, Bool.or_false]
  rfl

/-- The first round as the default configuration has it. -/
def Table.load (c : Call) (t : Table) : Load × Mm :=
  (⟨(t.calls.map fun p => Event.amen p.1 c p.2).flatMap Event.acts, t.err⟩, t.thread.mm)

theorem filterMap_actOf (acts : List Act) : (acts.map Step.act).filterMap actOf = acts := by
  rw [List.filterMap_map]
  exact List.filterMap_some

/-- The first round is that of the default configuration, and leaves the table as it is. -/
theorem mapTable_plain {c : Call} (hfp : c.fp = false) : ∀ (err : Int) (th : Thread),
    ∃ t, mapTable (fun i s => (plainOf k rest).amen i c s) err th es = some t ∧ t.entries = es ∧
      t.load c = Xout.mapSegs c.kernelDs c.pageable err th.mm (es.map (Entry.plain k)) := by
  induction es with
  | nil => exact fun err th => ⟨_, rfl, rfl, rfl⟩
  | cons e es ih =>
    intro err th
    unfold mapTable
    show ∃ t, _ ∧ _ ∧ _ = Xout.mapSegs _ _ _ _ ((e.seg.toXseg, k.segment e.idx) :: _)
    unfold Xout.mapSegs
    split
    · exact ⟨_, rfl, rfl, rfl⟩
    split_ifs with hmem
    · rw [← hfp]
      obtain ⟨t, ht, hes, hload⟩ := ih _ ⟨th.addr, th.mm.amen e.seg.toXseg, th.regs⟩
      refine ⟨t.cons e.idx _, congrArg (Option.map _) ht, congrArg (_ :: ·) hes, ?_⟩
      dsimp only at hload ⊢
      rw [← hload]
      show (Load.mk ((List.map Step.act _).filterMap actOf ++ _) _, _) = _
      rw [filterMap_actOf]
      rfl
    · obtain ⟨t, ht, hes, hload⟩ := ih err th
      exact ⟨t.keep e, congrArg (Option.map _) ht, congrArg (e :: ·) hes, hload⟩

/-- So is the second. -/
theorem readTable_plain (es : List Entry) (err : Int) :
    let reads := readTable (plainOf k rest).read err es
    (⟨reads.1.flatMap Event.acts, reads.2⟩ : Load) =
      Xout.readSegs err (es.map (Entry.plain k)) := by
  induction es with
  | nil => rfl
  | cons e es ih =>
    show _ = Xout.readSegs err ((e.seg.toXseg, k.segment e.idx) :: _)
    unfold readTable Xout.readSegs
    rw [← ih]
    split
    · split
      next hread => exact (if_pos hread).symm
      next hread => exact (if_neg hread).symm
    · rfl

/-- Both rounds together. -/
theorem image_plain (err : Int) (th : Thread) :
    ∃ i, image (plainOf k rest) f err th = some i ∧
      (⟨i.events.flatMap Event.acts, i.err⟩, i.mm) = Xout.xoutImage k f.plain err th.mm := by
  obtain ⟨t, ht, hes, hload⟩ := mapTable_plain (c := call (plainOf k rest) f) rfl err th
  refine ⟨_, congrArg (Option.map _) ht, ?_⟩
  rw [entries_plain] at hload
  change _ = Xout.mapSegs k.kernelDs (pageable (plainOf k rest) f) _ _ _ at hload
  unfold Xout.xoutImage
  rw [← @pageable_plain k rest f, ← hload]
  dsimp only [Table.load]
  rw [hes]
  split_ifs
  · rfl
  · have hreads := @readTable_plain k rest f.entries t.err
    rw [entries_plain] at hreads
    rw [← hreads]
    exact Prod.ext (congrArg (Load.mk · _) (List.flatMap_append ..)) rfl

/-- Compiled without the option, with `xout_amen` as it then is, the loader is that of the
default configuration. -/
theorem plain_load (executable : Bool) :
    (xoutLoadObject false (plainOf k rest) f executable).map Exit.load =
      some (Xout.xoutLoadObject k f.plain executable) := by
  obtain ⟨i, hi, himage⟩ := @image_plain k rest f (startErr (plainOf k rest) executable)
    (startThread false (plainOf k rest) f executable x286MapAddr)
  unfold xoutLoadObject Xout.xoutLoadObject
  rw [executable_plain, hasData_plain]
  have hite : ∀ {c : Prop} [Decidable c] {a b : Option Exit} {a' b' : Load},
      (¬ c → b.map Exit.load = some b') → a.map Exit.load = some a' →
      (if c then a else b).map Exit.load = some (if c then a' else b') := by
    intro c _ a b a' b' hb ha
    split
    · exact ha
    next hc => exact hb hc
  refine hite (fun hexec => hite (fun _ => hite (fun hread : ¬ k.readTable < 0 => ?_) rfl) rfl) rfl
  have h386 : f.header.is386 = true := by
    simp only [Bool.not_eq_true, Bool.not_eq_false', Xout.File.executable, Bool.and_eq_true]
      at hexec
    exact hexec.1.1.1.1.1.2
  refine hite (fun _ => ?_) ?_
  swap
  · have hret : returned f.header k.readTable k.mm.brk rest.eax = k.mm.brk.toInt := by
      rw [returned, if_neg hread, if_pos h386]
    exact congrArg (fun s => some (Load.mk [.kmalloc, .kfree] s)) hret
  cases executable with
  | false =>
    have hload : Xout.xoutImage k f.plain k.readTable k.mm = _ := himage.symm
    show Option.map _ (Option.map _ (image _ _ _ _)) = _
    rw [hi, if_neg (Bool.false_ne_true ·), hload]
    refine congrArg some (congrArg₂ Load.mk ?_ ?_)
    · simp [startEvents, trapEvents, Event.acts]
    · show returned f.header i.err i.mm.brk rest.eax = if i.err < 0 then i.err else i.mm.brk.toInt
      rw [returned, if_pos h386]
  | true =>
    rw [if_pos rfl]
    simp only [Bool.true_and, decide_eq_true_eq]
    refine hite (fun _ => ?_) rfl
    show Option.map _ (Option.map _ (image _ _ _ _)) = _
    have hload : Xout.xoutImage k f.plain k.setupArgPages (.executable f.plain.xexec) = _ :=
      himage.symm
    rw [hi, hload]
    refine congrArg some (congrArg₂ Load.mk ?_ ?_)
    · have htrap : (trapEvents (plainOf k rest) true i.err).flatMap Event.acts =
          trap k.ptraced i.err := by
        show ((trap k.ptraced i.err).map Event.act).flatMap Event.acts = _
        rw [List.flatMap_map]
        exact List.flatMap_singleton' _
      simp only [List.flatMap_append, htrap]
      rfl
    · show returned f.header 0 i.mm.brk _ = i.mm.brk.toInt
      rw [returned, if_neg (by decide), if_pos h386]

end AbiEmu.Binfmt.XoutLoad
