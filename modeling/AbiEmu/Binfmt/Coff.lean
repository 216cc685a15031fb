import AbiEmu.Binfmt.Task

/-!
# The COFF loader (`fs/binfmt_coff.c`)

`coff_load_object` checks the file header, reads the section table, picks the
text, data and bss sections, and then fills user memory in one of two ways. A
file whose text and data sections sit at the same offset in their page in the
file and in memory, on a file system that can map, is *pageable*: its sections
are mapped. Any other file is read in. Afterwards the bss is mapped as zeros and
the bytes between the start of the bss and the next page are cleared by hand.

The header records hold the fields the loader reads. `File.scnhdr` is what the
section buffer holds after the read that fills it. Every service is called at
most once in a load, so one answer for each is enough. Two parts are answers
here as well: what `coff_parse_comments` makes of a comment section, and how
`coff_preload_shlibs` ends, since the libraries are loads of their own files.
-/

namespace AbiEmu.Binfmt.Coff

/-! ## The file -/

/-- `COFF_FILHDR`. -/
structure Filhdr where
  fMagic : BitVec 16
  fNscns : BitVec 16
  fOpthdr : BitVec 16
  fFlags : BitVec 16
  deriving DecidableEq, Repr

/-- `COFF_AOUTHDR`. -/
structure Aouthdr where
  magic : BitVec 16
  entry : Word
  deriving DecidableEq, Repr

/-- `COFF_SCNHDR`. -/
structure Scnhdr where
  sVaddr : Word
  sSize : Word
  sScnptr : Word
  sFlags : Word
  deriving DecidableEq, Repr

/-- The headers of a file. -/
structure File where
  filhdr : Filhdr
  aouthdr : Aouthdr
  /-- Entry `i` of the section buffer. -/
  scnhdr : Nat → Scnhdr

/-- The entries the loader walks; a negative `short` count gives none. -/
def File.sections (f : File) : List Scnhdr :=
  (List.range f.filhdr.fNscns.toInt.toNat).map f.scnhdr

/-- The checks on the file header, all of which fail with `-ENOEXEC`. -/
def Filhdr.executable (h : Filhdr) : Bool :=
  -- COFF_I386MAGIC
  h.fMagic == 0x14c &&
  -- COFF_F_AR32WR without COFF_F_AR16WR
  h.fFlags &&& (0x100 ||| 0x80) == 0x100 &&
  -- COFF_F_EXEC
  h.fFlags &&& 0x2 != 0 &&
  h.fNscns != 0

/-- `COFF_STYP_TEXT`. -/
def stypText : Word := 0x20
/-- `COFF_STYP_DATA`. -/
def stypData : Word := 0x40
/-- `COFF_STYP_BSS`. -/
def stypBss : Word := 0x80
/-- `COFF_STYP_INFO`. -/
def stypInfo : Word := 0x200
/-- `COFF_STYP_LIB`. -/
def stypLib : Word := 0x800

/-- What the rest of the kernel answers. -/
structure Services where
  /-- The address limit at entry is the kernel's. -/
  kernelDs : Bool
  /-- The file system has an `mmap` operation. -/
  mmapOp : Bool
  kmalloc : Bool
  readSections : Int
  getUnusedFd : Word
  flushOldExec : Int
  /-- The personality a comment section names, if it names one. -/
  parseComments : Scnhdr → Option Word
  abiDefhandlerCoff : Word
  setupArgPages : Int
  mapText : Mapping
  mapData : Mapping
  brkText : Mapping
  brkData : Mapping
  mapBss : Mapping
  /-- The bytes the read at the data section stores, if that many were asked for. -/
  readData : Nat
  /-- The bytes the read at the text section stores, if that many were asked for. -/
  readText : Nat
  preloadShlibs : Int
  ptraced : Bool

/-! ## Finding the sections -/

/-- `coff_isaligned`. -/
def coffIsaligned (sect : Scnhdr) : Int :=
  if pageOff (sect.sVaddr - sect.sScnptr) ≠ 0 then -ENOEXEC else 0

/-- The variables of the loop over the sections. -/
structure Scan where
  status : Word
  text : Option Scnhdr
  data : Option Scnhdr
  bss : Option Scnhdr
  textCount : Nat
  dataCount : Nat
  bssCount : Nat
  libCount : Nat

/-- The loop starts with the descriptor as its status. -/
def Scan.start (fd : Word) : Scan := ⟨fd, none, none, none, 0, 0, 0, 0⟩

/-- One section; the last one of a kind is kept, and all are counted. -/
def Scan.step (s : Scan) (sect : Scnhdr) : Scan :=
  if sect.sFlags = stypText then
    { s with
      status := s.status ||| BitVec.ofInt 32 (coffIsaligned sect)
      text := some sect
      textCount := s.textCount + 1 }
  else if sect.sFlags = stypData then
    { s with
      status := s.status ||| BitVec.ofInt 32 (coffIsaligned sect)
      data := some sect
      dataCount := s.dataCount + 1 }
  else if sect.sFlags = stypBss then { s with bss := some sect, bssCount := s.bssCount + 1 }
  else if sect.sFlags = stypLib then { s with libCount := s.libCount + 1 }
  else s

/-- `coff_section`. -/
structure Sect where
  scnptr : Word
  size : Word
  vaddr : Word
  deriving DecidableEq, Repr

/-- The fields taken from a section header; a missing section is empty. -/
def Sect.of : Option Scnhdr → Sect
  | none => ⟨0, 0, 0⟩
  | some h => ⟨h.sScnptr, h.sSize, h.sVaddr⟩

/-- What the loader knows when it starts to fill memory. -/
structure Layout where
  text : Sect
  data : Sect
  /-- Its `scnptr` is never used. -/
  bss : Sect
  /-- Every text and data section passed `coff_isaligned`. -/
  aligned : Bool
  libCount : Nat
  startAddr : Word
  deriving DecidableEq, Repr

/-- The entry point, or `none` for `-ENOEXEC`: without an optional header it is the
start of the text, and only a shared library may have `COFF_SHMAGIC`. -/
def startAddr (f : File) (binary : Bool) (text : Scnhdr) : Option Word :=
  if f.filhdr.fOpthdr = 0 then
    if binary then some text.sVaddr else none
  -- COFF_AOUTSZ; the size is a short
  else if f.filhdr.fOpthdr.toInt < 28 then none
  -- COFF_OMAGIC, COFF_ZMAGIC, COFF_STMAGIC
  else if f.aouthdr.magic = 0o404 ∨ f.aouthdr.magic = 0o413 ∨ f.aouthdr.magic = 0o401 then
    if binary then some f.aouthdr.entry else none
  -- COFF_SHMAGIC
  else if f.aouthdr.magic = 0o443 then
    if binary then none else some 0
  else none

/-- From the section table to the three sections, or `none` for `-ENOEXEC`. -/
def layout (k : Services) (f : File) (binary : Bool) : Option Layout :=
  let scan := f.sections.foldl Scan.step (Scan.start k.getUnusedFd)
  if scan.textCount ≠ 1 then none
  else if binary ∧ (scan.dataCount ≠ 1 ∨ scan.bssCount ≠ 1) then none
  else
    -- with a text count of one there is a text section
    scan.text.bind fun text =>
      (startAddr f binary text).map fun start =>
        { text := .of (some text)
          data := .of scan.data
          bss := .of scan.bss
          aligned := !scan.status.msb
          libCount := scan.libCount
          startAddr := start }

/-! ## Filling user memory -/

/-- `map_coff`. -/
def mapCoff (sect : Sect) (off : Word) (answer : Mapping) : Act :=
  .mmap true (pageMask sect.vaddr) (sect.size + pageOff sect.vaddr) off answer

/-- The mapped image: each mapping must come out at the address asked for. -/
def mapImage (k : Services) (l : Layout) : Load :=
  let text := mapCoff l.text (pageMask l.text.scnptr) k.mapText
  let data := mapCoff l.data (pageMask l.data.scnptr) k.mapData
  if k.mapText.ret (pageMask l.text.vaddr) ≠ pageMask l.text.vaddr then ⟨[text], -ENOEXEC⟩
  else if l.data.size = 0 then ⟨[text], 0⟩
  else if k.mapData.ret (pageMask l.data.vaddr) ≠ pageMask l.data.vaddr then
    ⟨[text, data], -ENOEXEC⟩
  else ⟨[text, data], 0⟩

/-- The image read in. Both reads go through one file position, which starts at the
data section; each asks for as many bytes as its section's *file offset*; and the
answers of `do_brk` are dropped. -/
def readImage (k : Services) (l : Layout) : Load :=
  let n := min k.readData l.data.scnptr.toNat
  ⟨[.brk l.text.vaddr l.text.size k.brkText,
    .read l.data.vaddr l.data.scnptr.toInt n,
    .brk l.data.vaddr l.data.size k.brkData,
    .read l.text.vaddr (l.data.scnptr.toInt + n) (min k.readText l.text.scnptr.toNat)], 0⟩

/-- `coff_clear_memory`: its size argument is overwritten by the distance to the
next page. `verify_area` runs under the kernel's limit, so only a range that wraps
fails it. -/
def coffClearMemory (addr _size : Word) : Load :=
  let size := pageOff (4096 - pageOff addr)
  if size = 0 then ⟨[], 0⟩
  else if 2 ^ 32 ≤ addr.toNat + size.toNat then ⟨[], -EFAULT⟩
  else ⟨[.clear addr size.toNat], 0⟩

/-- It clears up to the next page, if there is anything before it. -/
theorem coffClearMemory_eq (addr size : Word) : coffClearMemory addr size =
    if addr.toNat % 4096 = 0 then ⟨[], 0⟩
    else if 2 ^ 32 ≤ Span.pageUp addr.toNat then ⟨[], -EFAULT⟩
    else ⟨[.clear addr (Span.pageUp addr.toNat - addr.toNat)], 0⟩ := by
  have hdist : (pageOff (4096 - pageOff addr)).toNat = Span.pageUp addr.toNat - addr.toNat := by
    rw [pageOff_toNat, BitVec.toNat_sub, pageOff_toNat]
    show (2 ^ 32 - addr.toNat % 4096 + 4096) % 2 ^ 32 % 4096 = _
    unfold Span.pageUp
    omega
  have hup : addr.toNat ≤ Span.pageUp addr.toNat := by
    unfold Span.pageUp
    omega
  have hzero : pageOff (4096 - pageOff addr) = 0 ↔ addr.toNat % 4096 = 0 := by
    rw [← BitVec.toNat_inj, hdist]
    unfold Span.pageUp
    show _ = 0 ↔ _
    omega
  unfold coffClearMemory
  simp only [hzero, hdist]
  rw [show addr.toNat + (Span.pageUp addr.toNat - addr.toNat) = Span.pageUp addr.toNat by omega]

/-- The bss: the mapping's answer is dropped. -/
def bssImage (k : Services) (l : Layout) : Load :=
  if l.bss.size = 0 then ⟨[], 0⟩
  else (coffClearMemory l.bss.vaddr l.bss.size).after
    [.mmap false (pageAlign l.bss.vaddr)
      (l.bss.size + l.bss.vaddr - pageAlign l.bss.vaddr) 0 k.mapBss]

/-- Everything that fills memory, up to the failure that ends the load. -/
def coffImage (k : Services) (l : Layout) : Load :=
  let image := if k.mmapOp && l.aligned then mapImage k l else readImage k l
  if image.status < 0 then image else (bssImage k l).after image.acts

/-- Fill memory under the kernel's address limit and put the old limit back; a
failure jumps over that. -/
def coffObject (k : Services) (l : Layout) (binary : Bool) : Load :=
  let image := (coffImage k l).after [.setFs true]
  if image.status < 0 then image
  else if binary then
    let status := if l.libCount ≠ 0 then k.preloadShlibs else image.status
    ⟨image.acts ++ .setFs k.kernelDs :: trap k.ptraced status, 0⟩
  else ⟨image.acts ++ [.setFs k.kernelDs], image.status⟩

/-! ## The whole load -/

/-- The personality of the first comment section that names one. -/
def personality (k : Services) (f : File) : Word :=
  ((f.sections.filter (·.sFlags == stypInfo)).findSome? k.parseComments).getD k.abiDefhandlerCoff

/-- From the installed descriptor to the label that closes it. -/
def withFile (k : Services) (f : File) (binary : Bool) : Load :=
  match layout k f binary with
  | none => ⟨[], -ENOEXEC⟩
  | some l =>
    if binary then
      if k.flushOldExec ≠ 0 then ⟨[.flushOldExec], k.flushOldExec⟩
      else if k.setupArgPages < 0 then
        ⟨[.flushOldExec, .setPersonality (personality k f), .setupArgPages, .sendSig SIGSEGV], 0⟩
      else (coffObject k l binary).after
        [.flushOldExec, .setPersonality (personality k f), .setupArgPages,
          .startThread l.startAddr]
    else coffObject k l binary

/-- `coff_load_object`. -/
def coffLoadObject (k : Services) (f : File) (binary : Bool) : Load :=
  if !f.filhdr.executable then ⟨[], -ENOEXEC⟩
  else if !k.kmalloc then ⟨[], -ENOMEM⟩
  else if k.readSections < 0 then ⟨[.kmalloc, .kfree], k.readSections⟩
  else if k.getUnusedFd.msb then ⟨[.kmalloc, .kfree], k.getUnusedFd.toInt⟩
  else
    let object := withFile k f binary
    ⟨[.kmalloc, .fdInstall k.getUnusedFd] ++ object.acts ++ [.sysClose k.getUnusedFd, .kfree],
      object.status⟩

/-! ## Accepted files -/

/-- The layout of a file that gets as far as filling memory. -/
def accepts (k : Services) (f : File) (binary : Bool) : Option Layout :=
  if f.filhdr.executable ∧ k.kmalloc ∧ 0 ≤ k.readSections ∧ ¬ k.getUnusedFd.msb ∧
      (binary → k.flushOldExec = 0 ∧ 0 ≤ k.setupArgPages) then
    layout k f binary
  else none

/-- Filling memory stands between moving the address limit and what follows. -/
theorem coffObject_acts (k : Services) (l : Layout) (binary : Bool) :
    ∃ post, post.all Act.quiet = true ∧
      (coffObject k l binary).acts = .setFs true :: (coffImage k l).acts ++ post ∧
      ((coffObject k l binary).status < 0 ↔ (coffImage k l).status < 0) := by
  by_cases hneg : (coffImage k l).status < 0
  · have hobj : coffObject k l binary = (coffImage k l).after [.setFs true] := if_pos hneg
    rw [hobj]
    exact ⟨[], rfl, by simp, Iff.rfl⟩
  · cases binary with
    | false =>
      have hobj : coffObject k l false =
          ⟨.setFs true :: (coffImage k l).acts ++ [.setFs k.kernelDs], (coffImage k l).status⟩ :=
        if_neg hneg
      rw [hobj]
      exact ⟨[.setFs k.kernelDs], rfl, rfl, Iff.rfl⟩
    | true =>
      have hobj : coffObject k l true = ⟨.setFs true :: (coffImage k l).acts ++
          .setFs k.kernelDs ::
            trap k.ptraced (if l.libCount ≠ 0 then k.preloadShlibs else (coffImage k l).status),
              0⟩ :=
        if_neg hneg
      rw [hobj]
      refine ⟨_, ?_, rfl, ⟨fun h => absurd h (Int.lt_irrefl 0), fun h => absurd h hneg⟩⟩
      rw [List.all_cons, trap_quiet]
      rfl

variable {binary : Bool}

/-- An accepted file is loaded by `coffImage`, between acts that do not concern user
memory. -/
theorem coffLoadObject_accepts {k : Services} {f : File} {l : Layout}
    (h : accepts k f binary = some l) :
    ∃ pre post, pre.all Act.quiet = true ∧ post.all Act.quiet = true ∧
      (coffLoadObject k f binary).acts = pre ++ (coffImage k l).acts ++ post ∧
      ((coffLoadObject k f binary).status < 0 ↔ (coffImage k l).status < 0) := by
  unfold accepts at h
  split at h
  next hok =>
    obtain ⟨hexec, hmalloc, hread, hfd, hflush⟩ := hok
    obtain ⟨post, hpost, hacts, hstatus⟩ := coffObject_acts k l binary
    have hrest : (post ++ [Act.sysClose k.getUnusedFd, .kfree]).all Act.quiet = true := by
      rw [List.all_append, hpost]
      rfl
    unfold coffLoadObject withFile
    simp only [hexec, hmalloc, hfd, h, Int.not_lt.mpr hread, Bool.not_true, Bool.false_eq_true,
      if_false]
    cases binary with
    | false =>
      refine ⟨[.kmalloc, .fdInstall k.getUnusedFd, .setFs true], _, rfl, hrest, ?_, hstatus⟩
      simp [hacts]
    | true =>
      obtain ⟨hnoerr, hpages⟩ := hflush rfl
      simp only [hnoerr, Int.not_lt.mpr hpages, ne_eq, not_true_eq_false, if_true, if_false,
        Load.after_acts, Load.after_status]
      refine ⟨[.kmalloc, .fdInstall k.getUnusedFd, .flushOldExec,
        .setPersonality (personality k f), .setupArgPages, .startThread l.startAddr,
        .setFs true], _, rfl, hrest, ?_, hstatus⟩
      simp [hacts]
  · exact nomatch h

/-- Any other file leaves user memory alone. -/
theorem coffLoadObject_refuses {k : Services} {f : File} (h : accepts k f binary = none) :
    (coffLoadObject k f binary).acts.all Act.quiet = true := by
  unfold coffLoadObject
  split
  · rfl
  next hexec =>
    split
    · rfl
    next hmalloc =>
      split
      · rfl
      next hread =>
        split
        · rfl
        next hfd =>
          have hnone : layout k f binary = none ∨
              ¬ (binary = true → k.flushOldExec = 0 ∧ 0 ≤ k.setupArgPages) := by
            unfold accepts at h
            split at h
            · exact Or.inl h
            next hnot =>
              refine Or.inr fun hflush => hnot ⟨?_, ?_, by omega, hfd, hflush⟩
              · simpa using hexec
              · simpa using hmalloc
          simp only [List.all_append]
          rw [show (withFile k f binary).acts.all Act.quiet = true from ?_]
          · rfl
          · unfold withFile
            rcases hnone with hnone | hnot
            · rw [hnone]
              rfl
            · -- an executable that fails before or at its argument pages
              split
              · rfl
              · cases binary with
                | false => exact absurd (nofun) hnot
                | true =>
                  simp only [if_true]
                  split
                  · rfl
                  next hnoerr =>
                    rw [if_pos]
                    · rfl
                    · by_contra hpages
                      exact hnot fun _ => ⟨by simpa using hnoerr, by omega⟩

/-! ## Concrete files and services -/

/-- Services that grant everything. -/
def plainServices : Services where
  kernelDs := false
  mmapOp := true
  kmalloc := true
  readSections := 0
  getUnusedFd := 3
  flushOldExec := 0
  parseComments := fun _ => none
  abiDefhandlerCoff := 0
  setupArgPages := 0
  mapText := .granted
  mapData := .granted
  brkText := .granted
  brkData := .granted
  mapBss := .granted
  readData := 2 ^ 31
  readText := 2 ^ 31
  preloadShlibs := 0
  ptraced := false

/-- An executable without an optional header and with one section of each kind. -/
def executable (text data bss : Sect) : File where
  filhdr := ⟨0x14c, 3, 0, 0x102⟩
  aouthdr := ⟨0, 0⟩
  scnhdr
    | 0 => ⟨text.vaddr, text.size, text.scnptr, stypText⟩
    | 1 => ⟨data.vaddr, data.size, data.scnptr, stypData⟩
    | _ => ⟨bss.vaddr, bss.size, bss.scnptr, stypBss⟩

/-- The layout of such a file. -/
def executableLayout (text data bss : Sect) (aligned : Bool) : Layout where
  text := text
  data := data
  bss := bss
  aligned := aligned
  libCount := 0
  startAddr := text.vaddr

end AbiEmu.Binfmt.Coff
