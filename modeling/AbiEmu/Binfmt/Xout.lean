import AbiEmu.Binfmt.Task

/-!
# The x.out loader (`fs/binfmt_xout.c`, `include/linux/xout.h`)

An x.out file has a table of segments. `xout_load_object` maps every segment with
the attribute `XS_AMEM` (`xout_amen`), and, if the file cannot be mapped page by
page, goes round the table again and reads the text and data segments in. The
model is of the default configuration, without `XOUT_SEGMENTS` and without the
emulation of 16-bit processors.

`err` is an `int`. A mapping's address is stored in it, so that an address in the
upper half of the word reads as an error; where it is compared with `TASK_SIZE`
it counts as unsigned. The file handed to `xout_amen` is the variable `fp`, which
is `NULL` from its declaration on.

Each segment of the table comes with the answers to the services called for it.
`File.xseg` is what the segment list holds after the read that fills it.
-/

namespace AbiEmu.Binfmt.Xout

open List

/-! ## The file -/

/-- `struct xexec`. -/
structure Xexec where
  xMagic : BitVec 16
  xExt : BitVec 16
  xText : Word
  xData : Word
  xBss : Word
  xEntry : Word
  xCpu : Byte
  xRenv : BitVec 16
  deriving DecidableEq, Repr

/-- `struct xseg`. -/
structure Xseg where
  xsType : BitVec 16
  xsAttr : BitVec 16
  xsFilpos : Word
  xsPsize : Word
  xsVsize : Word
  xsRbase : Word
  deriving DecidableEq, Repr

/-- The headers of a file; `xeSegsize` is the one field of `struct xext` that matters. -/
structure File where
  xexec : Xexec
  xeSegsize : Word
  /-- Entry `i` of the segment list. -/
  xseg : Nat → Xseg

/-- The checks on the headers, all of which fail with `-ENOEXEC`. -/
def File.executable (f : File) : Bool :=
  -- X_MAGIC
  f.xexec.xMagic == 0x0206 &&
  -- XC_386 under XC_CPU
  f.xexec.xCpu &&& 0x3f == 0x0a &&
  -- XC_WSWAP without XC_BSWAP
  f.xexec.xCpu &&& (0x80 ||| 0x40) == 0x40 &&
  -- XE_EXEC
  f.xexec.xRenv &&& 0x0001 != 0 &&
  -- sizeof(struct xext)
  f.xexec.xExt == 44 &&
  -- XE_SEG
  f.xexec.xRenv &&& 0x0800 != 0 &&
  f.xeSegsize != 0

/-- `XS_TTEXT`. -/
def Xseg.isText (s : Xseg) : Bool := s.xsType == 1

/-- `XS_TDATA`. -/
def Xseg.isData (s : Xseg) : Bool := s.xsType == 2

/-- A segment whose bytes are in the file. -/
def Xseg.isFile (s : Xseg) : Bool := s.isText || s.isData

/-- `XS_AMEM`: the segment is part of the memory image. -/
def Xseg.isMem (s : Xseg) : Bool := s.xsAttr &&& 0x8000 != 0

/-! ## The rest of the kernel -/

/-- The limits of a memory map the loader keeps. -/
structure Mm where
  endCode : Word
  endData : Word
  startBrk : Word
  brk : Word
  deriving DecidableEq, Repr

/-- The answers for one segment. -/
structure SegAnswers where
  /-- To the mapping of the segment. -/
  map : Mapping
  /-- To the mapping of its bss. -/
  bss : Mapping
  /-- The `int` that `kernel_read` returns. -/
  read : Word
  deriving DecidableEq, Repr

/-- What the rest of the kernel answers. -/
structure Services where
  /-- The address limit at entry is the kernel's. -/
  kernelDs : Bool
  /-- The file system has an `mmap` operation. -/
  mmapOp : Bool
  kmalloc : Bool
  readTable : Int
  setupArgPages : Int
  segment : Nat → SegAnswers
  /-- The limits at entry. -/
  mm : Mm
  ptraced : Bool

/-- A segment of the table with its answers. -/
abbrev Entry := Xseg × SegAnswers

/-- The table: `xe_segsize / sizeof(struct xseg)` entries. -/
def entries (k : Services) (f : File) : List Entry :=
  (List.range (f.xeSegsize.toNat / 32)).map fun i => (f.xseg i, k.segment i)

/-! ## Mapping one segment -/

/-- `isnotaligned`. -/
def isnotaligned (s : Xseg) : Bool := pageOff s.xsFilpos ||| pageOff s.xsRbase != 0

/-- The whole file can be mapped page by page. -/
def pageable (k : Services) (f : File) : Bool :=
  k.mmapOp && !(entries k f).any fun e => e.1.isFile && isnotaligned e.1

/-- The first address that `put_user` refuses. -/
def putLimit (kernelDs : Bool) : Nat := if kernelDs then 2 ^ 32 else taskSize

/-- `clear_memory`, byte by byte with `put_user`: bytes above the limit are not stored. -/
def clearMemory (kernelDs : Bool) (addr size : Word) : Act :=
  .clear addr (min size.toNat (putLimit kernelDs - addr.toNat))

/-- The end of `xout_amen`: what the address of a mapping becomes as a result. -/
def amenResult (err : Word) : Int :=
  if taskSize < err.toNat then -EINVAL else err.toInt

/-- `xout_amen`, except for the limits of the memory map. -/
def xoutAmen (kernelDs fp pageable : Bool) (sp : Xseg) (answers : SegAnswers) : Load :=
  if !pageable then
    ⟨[.mmap false sp.xsRbase sp.xsVsize 0 answers.map], amenResult (answers.map.ret sp.xsRbase)⟩
  else
    let bssSize := sp.xsVsize - sp.xsPsize
    let bssBase := sp.xsRbase + sp.xsPsize
    -- the pure and the impure case differ in protection and sharing only
    let image := .mmap fp sp.xsRbase sp.xsPsize sp.xsFilpos answers.map
    let err := answers.map.ret sp.xsRbase
    if taskSize < err.toNat ∨ err.toInt < 0 ∨ bssSize = 0 then ⟨[image], amenResult err⟩
    else if pageMask bssBase ≠ 0 then
      ⟨[image, clearMemory kernelDs bssBase (pageAlign bssBase - bssBase),
        .mmap false (pageAlign bssBase) (bssSize - (pageAlign bssBase - bssBase)) 0 answers.bss],
        amenResult (answers.bss.ret (pageAlign bssBase))⟩
    else
      ⟨[image, .mmap false bssBase bssSize 0 answers.bss],
        amenResult (answers.bss.ret bssBase)⟩

/-- What `xout_amen` does to the limits, before it maps anything. -/
def Mm.amen (mm : Mm) (sp : Xseg) : Mm :=
  let fileEnd := sp.xsRbase + sp.xsPsize
  let memEnd := sp.xsRbase + sp.xsVsize
  let mm :=
    if sp.isText then
      if mm.endCode < fileEnd then { mm with endCode := fileEnd } else mm
    else if sp.isData then
      if mm.endData < fileEnd then { mm with endData := fileEnd } else mm
    else mm
  if mm.brk < memEnd then { mm with startBrk := pageAlign memEnd, brk := pageAlign memEnd } else mm

/-! ## The two rounds -/

/-- The first round: map the memory segments until one fails. -/
def mapSegs (kernelDs pageable : Bool) : Int → Mm → List Entry → Load × Mm
  | err, mm, [] => (⟨[], err⟩, mm)
  | err, mm, (sp, answers) :: rest =>
    if err < 0 then (⟨[], err⟩, mm)
    else if sp.isMem then
      -- fp is NULL
      let seg := xoutAmen kernelDs false pageable sp answers
      let tail := mapSegs kernelDs pageable seg.status (mm.amen sp) rest
      (tail.1.after seg.acts, tail.2)
    else mapSegs kernelDs pageable err mm rest

/-- The bytes a read of the segment stores. -/
def bytesRead (sp : Xseg) (answers : SegAnswers) : Nat :=
  if answers.read.msb then 0 else min answers.read.toNat sp.xsPsize.toNat

/-- `kernel_read` of the segment's file bytes to its address. -/
def readSeg (sp : Xseg) (answers : SegAnswers) : Act :=
  .read sp.xsRbase sp.xsFilpos.toNat (bytesRead sp answers)

/-- The second round: read every text and data segment until a read is short. -/
def readSegs : Int → List Entry → Load
  | err, [] => ⟨[], err⟩
  | err, (sp, answers) :: rest =>
    if sp.isFile then
      if answers.read ≠ sp.xsPsize then ⟨[readSeg sp answers], -1⟩
      else (readSegs err rest).after [readSeg sp answers]
    else readSegs err rest

/-- Both rounds, from the value of `err` at their start to its value at `trap`. -/
def xoutImage (k : Services) (f : File) (err : Int) (mm : Mm) : Load × Mm :=
  let first := mapSegs k.kernelDs (pageable k f) err mm (entries k f)
  if pageable k f ∨ first.1.status < 0 then first
  else ((readSegs first.1.status (entries k f)).after first.1.acts, first.2)

/-! ## The whole load -/

/-- `PER_XENIX`. -/
def perXenix : Word := 0x05000007

/-- A table without data segments is not loaded. -/
def hasData (k : Services) (f : File) : Bool := (entries k f).any fun e => e.1.isData

/-- The limits of a new executable. -/
def Mm.executable (x : Xexec) : Mm :=
  ⟨x.xText, x.xText + x.xData, x.xText + x.xData + x.xBss, x.xText + x.xData + x.xBss⟩

/-- `xout_load_object`; on success it returns the break. -/
def xoutLoadObject (k : Services) (f : File) (executable : Bool) : Load :=
  if !f.executable then ⟨[], -ENOEXEC⟩
  else if !k.kmalloc then ⟨[], -ENOMEM⟩
  else if k.readTable < 0 then ⟨[.kmalloc, .kfree], k.readTable⟩
  -- err is the length read, so this counts as success
  else if !hasData k f then ⟨[.kmalloc, .kfree], k.mm.brk.toInt⟩
  else if executable then
    -- the result of flush_old_exec is not looked at
    if k.setupArgPages < 0 then
      ⟨[.kmalloc, .flushOldExec, .setupArgPages, .sendSig SIGSEGV], k.setupArgPages⟩
    else
      let image := xoutImage k f k.setupArgPages (.executable f.xexec)
      ⟨[.kmalloc, .flushOldExec, .setupArgPages, .startThread f.xexec.xEntry,
        .setPersonality perXenix] ++ image.1.acts ++ trap k.ptraced image.1.status ++ [.kfree],
        image.2.brk.toInt⟩
  else
    let image := xoutImage k f k.readTable k.mm
    ⟨.kmalloc :: image.1.acts ++ [.kfree],
      if image.1.status < 0 then image.1.status else image.2.brk.toInt⟩

/-! ## Accepted files -/

/-- The value of `err` when the rounds start. -/
def startErr (k : Services) (executable : Bool) : Int :=
  if executable then k.setupArgPages else k.readTable

/-- The limits when the rounds start. -/
def startMm (k : Services) (f : File) (executable : Bool) : Mm :=
  if executable then .executable f.xexec else k.mm

/-- What the rounds do. -/
def imageLoad (k : Services) (f : File) (executable : Bool) : Load :=
  (xoutImage k f (startErr k executable) (startMm k f executable)).1

/-- The load gets as far as the rounds. -/
def accepts (k : Services) (f : File) (executable : Bool) : Prop :=
  f.executable ∧ k.kmalloc ∧ 0 ≤ k.readTable ∧ hasData k f ∧ (executable → 0 ≤ k.setupArgPages)
  deriving Decidable

variable {executable : Bool}

/-- An accepted file is loaded by the two rounds, between acts that do not concern user
memory. -/
theorem xoutLoadObject_accepts {k : Services} {f : File} (h : accepts k f executable) :
    ∃ pre post, pre.all Act.quiet = true ∧ post.all Act.quiet = true ∧
      (xoutLoadObject k f executable).acts = pre ++ (imageLoad k f executable).acts ++ post := by
  obtain ⟨hexec, hmalloc, hread, hdata, hpages⟩ := h
  unfold xoutLoadObject
  simp only [hexec, hmalloc, hdata, Int.not_lt.mpr hread, Bool.not_true, Bool.false_eq_true,
    if_false]
  cases executable with
  | false => exact ⟨[.kmalloc], [.kfree], rfl, rfl, rfl⟩
  | true =>
    simp only [Int.not_lt.mpr (hpages rfl), if_true, if_false]
    refine ⟨_, trap k.ptraced (imageLoad k f true).status ++ [.kfree], rfl, ?_, append_assoc _ _ _⟩
    rw [all_append, trap_quiet]
    rfl

/-- Any other file leaves user memory alone. -/
theorem xoutLoadObject_refuses {k : Services} {f : File} (h : ¬ accepts k f executable) :
    (xoutLoadObject k f executable).acts.all Act.quiet = true := by
  unfold xoutLoadObject
  split
  · rfl
  next hexec =>
    split
    · rfl
    next hmalloc =>
      split
      · rfl
      next hread =>
        split
        · rfl
        next hdata =>
          have hpages : ¬ (executable = true → 0 ≤ k.setupArgPages) := by
            intro hpages
            refine h ⟨?_, ?_, by omega, ?_, hpages⟩
            · simpa using hexec
            · simpa using hmalloc
            · simpa using hdata
          cases executable with
          | false => exact absurd (nofun) hpages
          | true =>
            rw [if_pos rfl, if_pos]
            · rfl
            · by_contra hneg
              exact hpages fun _ => by omega

/-! ## One segment -/

theorem amenResult_nonneg (err : Word) : 0 ≤ amenResult err ↔ err.toNat < 2 ^ 31 := by
  unfold amenResult
  split
  next hhigh =>
    unfold taskSize at hhigh
    simp only [EINVAL]
    omega
  · rw [BitVec.toInt_eq_toNat_cond]
    split <;> omega

theorem amenResult_ret (answer : Mapping) (addr : Word) :
    0 ≤ amenResult (answer.ret addr) ↔ answer = .granted ∧ addr.toNat < 2 ^ 31 := by
  rw [amenResult_nonneg]
  cases answer with
  | granted => exact ⟨fun h => ⟨rfl, h⟩, fun h => h.2⟩
  | refused errno =>
    refine ⟨fun h => ?_, fun h => nomatch h.1⟩
    -- an error number is at the very top of the word
    unfold Mapping.ret at h
    rw [BitVec.toNat_neg, BitVec.toNat_ofNat] at h
    omega

/-- Where the file part of a segment ends and its bss starts. -/
def Xseg.bssBase (s : Xseg) : Word := s.xsRbase + s.xsPsize

/-- `xout_amen` for a pageable file goes on to the bss if there is one and the mapping of
the file part came out at a low address. -/
theorem xoutAmen_paged (kernelDs fp : Bool) (sp : Xseg) (answers : SegAnswers) :
    xoutAmen kernelDs fp true sp answers =
      let image := .mmap fp sp.xsRbase sp.xsPsize sp.xsFilpos answers.map
      let gap := pageAlign sp.bssBase - sp.bssBase
      if answers.map = .granted ∧ sp.xsRbase.toNat < 2 ^ 31 ∧ sp.xsVsize ≠ sp.xsPsize then
        if 4096 ≤ sp.bssBase.toNat then
          ⟨[image, clearMemory kernelDs sp.bssBase gap,
            .mmap false (pageAlign sp.bssBase) (sp.xsVsize - sp.xsPsize - gap) 0 answers.bss],
            amenResult (answers.bss.ret (pageAlign sp.bssBase))⟩
        else
          ⟨[image, .mmap false sp.bssBase (sp.xsVsize - sp.xsPsize) 0 answers.bss],
            amenResult (answers.bss.ret sp.bssBase)⟩
      else ⟨[image], amenResult (answers.map.ret sp.xsRbase)⟩ := by
  have hstop : (taskSize < (answers.map.ret sp.xsRbase).toNat ∨
      (answers.map.ret sp.xsRbase).toInt < 0 ∨ sp.xsVsize - sp.xsPsize = 0) ↔
      ¬ (answers.map = .granted ∧ sp.xsRbase.toNat < 2 ^ 31 ∧ sp.xsVsize ≠ sp.xsPsize) := by
    rw [← and_assoc, ← amenResult_ret, amenResult_nonneg, toInt_neg_iff, sub_eq_zero_word]
    unfold taskSize
    constructor
    · intro h hgo
      rcases h with h | h | h
      iterate 2 omega
      · exact hgo.2 h
    · intro h
      by_cases hlow : (answers.map.ret sp.xsRbase).toNat < 2 ^ 31
      · exact Or.inr (Or.inr (not_not.mp fun hne => h ⟨hlow, hne⟩))
      · exact Or.inr (Or.inl (Nat.le_of_not_lt hlow))
  unfold xoutAmen
  simp only [Bool.not_true, Bool.false_eq_true, if_false, hstop, pageMask_ne_zero, ite_not]
  rfl

/-- A memory segment gets through `xout_amen`: its mappings are granted, at addresses in
the lower half of the word. -/
def accepted (paged : Bool) (e : Entry) : Prop :=
  e.2.map = .granted ∧ e.1.xsRbase.toNat < 2 ^ 31 ∧
    (paged = true → e.1.xsVsize ≠ e.1.xsPsize →
      e.2.bss = .granted ∧ (pageAlign (e.1.xsRbase + e.1.xsPsize)).toNat < 2 ^ 31)
  deriving Decidable

theorem amen_nonneg_iff (kernelDs paged : Bool) (e : Entry) :
    0 ≤ (xoutAmen kernelDs false paged e.1 e.2).status ↔ accepted paged e := by
  unfold accepted
  cases paged with
  | false => simp [xoutAmen, amenResult_ret]
  | true =>
    rw [xoutAmen_paged]
    split
    next hbss =>
      obtain ⟨hmap, hlow, hne⟩ := hbss
      split
      · rw [amenResult_ret]
        exact ⟨fun h => ⟨hmap, hlow, fun _ _ => h⟩, fun h => h.2.2 rfl hne⟩
      next hpage =>
        -- in the first page the base is not rounded, and both are low
        have halign : (pageAlign e.1.bssBase).toNat < 2 ^ 31 := by
          rw [pageAlign_eq_pageUp (by omega)]
          unfold Span.pageUp
          omega
        rw [amenResult_ret]
        exact ⟨fun h => ⟨hmap, hlow, fun _ _ => ⟨h.1, halign⟩⟩,
          fun h => ⟨(h.2.2 rfl hne).1, by omega⟩⟩
    next hstop =>
      rw [amenResult_ret]
      exact ⟨fun h => ⟨h.1, h.2, fun _ hne => absurd ⟨h.1, h.2, hne⟩ hstop⟩, fun h => ⟨h.1, h.2.1⟩⟩

/-! ## The two rounds -/

/-- What the first round does for one entry. -/
def entryActs (kernelDs paged : Bool) (e : Entry) : List Act :=
  if e.1.isMem then (xoutAmen kernelDs false paged e.1 e.2).acts else []

variable {es : List Entry}

/-- A negative `err` ends the round. -/
theorem mapSegs_neg {kernelDs paged : Bool} {err : Int} {mm : Mm} (herr : err < 0) :
    mapSegs kernelDs paged err mm es = (⟨[], err⟩, mm) := by
  cases es with
  | nil => rfl
  | cons e es =>
    unfold mapSegs
    rw [if_pos herr]

/-- The first round succeeds if no memory segment is refused, and then has mapped them
all. -/
theorem mapSegs_ok {kernelDs paged : Bool}
    (hall : ∀ e ∈ es, e.1.isMem = true → 0 ≤ (xoutAmen kernelDs false paged e.1 e.2).status) :
    ∀ (err : Int) (mm : Mm), 0 ≤ err →
      0 ≤ (mapSegs kernelDs paged err mm es).1.status ∧
      (mapSegs kernelDs paged err mm es).1.acts = es.flatMap (entryActs kernelDs paged) := by
  induction es with
  | nil => exact fun err mm herr => ⟨herr, rfl⟩
  | cons e es ih =>
    intro err mm herr
    have hrest := ih fun e' he' => hall e' (mem_cons_of_mem e he')
    unfold mapSegs
    rw [if_neg (Int.not_lt.mpr herr), flatMap_cons]
    by_cases hmem : e.1.isMem = true
    · obtain ⟨hstatus, hacts⟩ := hrest _ (mm.amen e.1) (hall e (mem_cons_self ..) hmem)
      simp only [hmem, if_true, Load.after_status, Load.after_acts, entryActs]
      exact ⟨hstatus, congrArg _ hacts⟩
    · simp only [hmem, Bool.false_eq_true, if_false, entryActs, nil_append]
      exact hrest err mm herr

/-- One refused memory segment fails the first round. -/
theorem mapSegs_refused {kernelDs paged : Bool} {e : Entry} (he : e ∈ es) (hmem : e.1.isMem = true)
    (hneg : (xoutAmen kernelDs false paged e.1 e.2).status < 0) :
    ∀ (err : Int) (mm : Mm), (mapSegs kernelDs paged err mm es).1.status < 0 := by
  induction es with
  | nil => exact nomatch he
  | cons e' es ih =>
    intro err mm
    unfold mapSegs
    split
    next herr => exact herr
    · split
      · rcases mem_cons.mp he with rfl | he
        · dsimp only [Load.after_status]
          rw [mapSegs_neg hneg]
          exact hneg
        · exact ih he _ _
      next hother =>
        rcases mem_cons.mp he with rfl | he
        · exact absurd hmem hother
        · exact ih he _ _

/-- Complete reads bring in every text and data segment. -/
theorem readSegs_ok (err : Int) (hall : ∀ e ∈ es, e.1.isFile = true → e.2.read = e.1.xsPsize) :
    readSegs err es = ⟨(es.filter fun e => e.1.isFile).map fun e => readSeg e.1 e.2, err⟩ := by
  induction es with
  | nil => rfl
  | cons e es ih =>
    have hrest := ih fun e' he' => hall e' (mem_cons_of_mem e he')
    unfold readSegs
    by_cases hfile : e.1.isFile = true
    · have hread := hall e (mem_cons_self ..) hfile
      simp only [hfile, if_true, hread, ne_eq, not_true_eq_false, if_false, hrest,
        filter_cons, map_cons]
      rfl
    · simp [hfile, hrest]

/-! ## Concrete files and services -/

/-- Services that grant everything; the read of each segment returns `read`. -/
def plainServices (read : Word) : Services where
  kernelDs := false
  mmapOp := true
  kmalloc := true
  readTable := 32
  setupArgPages := 0
  segment := fun _ => ⟨.granted, .granted, read⟩
  mm := ⟨0, 0, 0, 0⟩
  ptraced := false

/-- A file whose table has the one segment. -/
def oneSegment (s : Xseg) : File where
  xexec := ⟨0x0206, 44, 0, 0, 0, 0, 0x4a, 0x0801⟩
  xeSegsize := 32
  xseg := fun _ => s

/-- A data segment of the memory image. -/
def dataSegment (filpos psize vsize rbase : Word) : Xseg := ⟨2, 0x8000, filpos, psize, vsize, rbase⟩

end AbiEmu.Binfmt.Xout
