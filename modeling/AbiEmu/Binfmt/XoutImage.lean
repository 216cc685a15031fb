import AbiEmu.Binfmt.Xout

/-!
# What a loaded x.out file looks like in memory

A text or data segment of the memory image is loaded when its `vsize` bytes of
memory are its `psize` bytes of the file followed by zeros. As for COFF, whether
that holds for every content of the file depends on the segment table only.

* If the file is pageable, no file byte reaches memory: `xout_amen` maps with a
  null `fp`, that is, zero pages (`paged_right_iff`).
* Otherwise all memory segments are mapped as zeros first and the file bytes are
  read in afterwards, so a segment is right unless the read of another text or
  data segment falls on it; those without `XS_AMEM` are read in too
  (`read_right_iff`).
* A table without a data segment is not loaded, and the load still succeeds.

Apart from the image, a mapping is taken for a failure when its address is in the
upper half of the word (`accepted_iff_low`).
-/

namespace AbiEmu.Binfmt.Xout

open List

open AbiEmu.Span (pageDown pageUp)

/-! ## The property -/

/-- The addresses of a segment. -/
def Xseg.span (s : Xseg) : Span := ⟨s.xsRbase.toNat, s.xsVsize.toNat⟩

/-- The addresses the segment's file bytes go to. -/
def Xseg.fileSpan (s : Xseg) : Span := ⟨s.xsRbase.toNat, s.xsPsize.toNat⟩

/-- Memory holds the segment's file bytes, then zeros. -/
def Xseg.Loaded (s : Xseg) (file mem : Nat → Byte) : Prop :=
  ∀ i < s.xsVsize.toNat, mem (s.xsRbase.toNat + i) =
    if i < s.xsPsize.toNat then file (s.xsFilpos.toNat + i) else 0

/-- The segment lies below `TASK_SIZE`, with its file bytes inside it. -/
structure Xseg.Placed (s : Xseg) : Prop where
  fits : s.xsPsize.toNat ≤ s.xsVsize.toNat
  inUser : s.xsRbase.toNat + s.xsVsize.toNat ≤ taskSize

/-- User memory after the load. -/
def memoryAfter (k : Services) (f : File) (executable : Bool) (file m : Nat → Byte) : Nat → Byte :=
  imageOf (xoutLoadObject k f executable).acts file m

/-- The load does not fail: it stops at a table without data segments with a length in
`err`, or ends its rounds with no error in it. -/
def Succeeds (k : Services) (f : File) (executable : Bool) : Prop :=
  hasData k f = false ∨ 0 ≤ (imageLoad k f executable).status

/-- No memory segment below `TASK_SIZE` is refused, and if the load succeeds every text
and data segment of the memory image is loaded, whatever the file and the old memory
hold. -/
structure ImageRight (k : Services) (f : File) (executable : Bool) : Prop where
  placement : ∀ e ∈ entries k f, e.1.isMem = true → e.1.Placed →
    0 ≤ (xoutAmen k.kernelDs false (pageable k f) e.1 e.2).status
  image : Succeeds k f executable → ∀ file m, ∀ e ∈ entries k f,
    e.1.isMem = true → e.1.isFile = true → e.1.Loaded file (memoryAfter k f executable file m)

/-- The headers are in order, the mappings succeed and the reads are complete. -/
structure Grants (k : Services) (f : File) (executable : Bool) : Prop where
  header : f.executable = true
  kmalloc : k.kmalloc = true
  readTable : 0 ≤ k.readTable
  setupArgPages : executable = true → 0 ≤ k.setupArgPages
  map : ∀ e ∈ entries k f, e.2.map = .granted
  bss : ∀ e ∈ entries k f, e.2.bss = .granted
  read : ∀ e ∈ entries k f, e.1.isFile = true → e.2.read = e.1.xsPsize ∧ e.2.read.msb = false

/-! ## The condition on the segment table -/

/-- The addresses at which the segment and its bss are mapped are in the lower half of
the word. -/
def Xseg.Low (s : Xseg) (pageable : Bool) : Prop :=
  s.xsRbase.toNat < 2 ^ 31 ∧
    (pageable = true → s.xsVsize ≠ s.xsPsize →
      (pageAlign (s.xsRbase + s.xsPsize)).toNat < 2 ^ 31)

/-- The last text or data segment of the table whose file bytes go over an address. -/
def lastOver : List Xseg → Nat → Option Xseg
  | [], _ => none
  | s :: segs, a => (lastOver segs a).or (if s.isFile ∧ a ∈ s.fileSpan then some s else none)

/-- Over each file byte of `s` the last read brings in that byte, and nothing is read
over its zeros. -/
def Xseg.Undisturbed (s : Xseg) (segs : List Xseg) : Prop :=
  ∀ i < s.xsVsize.toNat, match lastOver segs (s.xsRbase.toNat + i) with
    | none => s.xsPsize.toNat ≤ i
    | some t => i < s.xsPsize.toNat ∧
        t.xsFilpos.toNat + (s.xsRbase.toNat + i - t.xsRbase.toNat) = s.xsFilpos.toNat + i

/-- The segments of the table. -/
def segs (k : Services) (f : File) : List Xseg := (entries k f).map Prod.fst

/-- The tables the loader gets right. -/
structure Fits (k : Services) (f : File) : Prop where
  low : ∀ s ∈ segs k f, s.isMem = true → s.Placed → s.Low (pageable k f)
  noData : hasData k f = false → ∀ s ∈ segs k f, s.isMem = true → s.isFile = true → s.xsVsize = 0
  image : hasData k f = true → (∀ s ∈ segs k f, s.isMem = true → s.Low (pageable k f)) →
    ∀ s ∈ segs k f, s.isMem = true → s.isFile = true →
      if pageable k f then s.xsPsize = 0 ∨ s.xsVsize = 0 else s.Undisturbed (segs k f)

/-! ## Loads that succeed -/

variable {e : Entry}

/-- With all mappings granted a segment is refused because of its addresses only. -/
theorem accepted_iff_low {paged : Bool} (hmap : e.2.map = .granted) (hbss : e.2.bss = .granted) :
    accepted paged e ↔ e.1.Low paged := by
  unfold accepted Xseg.Low
  simp [hmap, hbss]

variable {k : Services} {f : File} {executable : Bool}

theorem Grants.startErr (hk : Grants k f executable) : 0 ≤ Xout.startErr k executable := by
  unfold Xout.startErr
  split
  next hex => exact hk.setupArgPages hex
  · exact hk.readTable

/-- The acts of a load that succeeds. -/
def goodActs (k : Services) (f : File) : List Act :=
  (entries k f).flatMap (entryActs k.kernelDs (pageable k f)) ++
    if pageable k f then []
    else ((entries k f).filter fun e => e.1.isFile).map fun e => readSeg e.1 e.2

/-- A round succeeds exactly if its addresses are low. -/
theorem Grants.amen_iff (hk : Grants k f executable) {e : Entry} (he : e ∈ entries k f) :
    0 ≤ (xoutAmen k.kernelDs false (pageable k f) e.1 e.2).status ↔ e.1.Low (pageable k f) :=
  (amen_nonneg_iff _ _ e).trans (accepted_iff_low (hk.map e he) (hk.bss e he))

/-- The rounds succeed exactly if all addresses are low. -/
theorem imageLoad_iff (hk : Grants k f executable) :
    (0 ≤ (imageLoad k f executable).status ↔
      ∀ s ∈ segs k f, s.isMem = true → s.Low (pageable k f)) ∧
    (0 ≤ (imageLoad k f executable).status → (imageLoad k f executable).acts = goodActs k f) := by
  by_cases hlow : ∀ s ∈ segs k f, s.isMem = true → s.Low (pageable k f)
  · have hall : ∀ e ∈ entries k f, e.1.isMem = true →
        0 ≤ (xoutAmen k.kernelDs false (pageable k f) e.1 e.2).status :=
      fun e he hmem => (hk.amen_iff he).mpr (hlow e.1 (mem_map_of_mem he) hmem)
    obtain ⟨hstatus, hacts⟩ := mapSegs_ok hall _ (startMm k f executable) hk.startErr
    have hreads := fun err => readSegs_ok err fun e he hfile => (hk.read e he hfile).1
    unfold imageLoad xoutImage goodActs
    split_ifs with hpg
    · rw [if_pos (Or.inl hpg), append_nil]
      exact ⟨iff_of_true hstatus hlow, fun _ => hacts⟩
    · rw [if_neg (fun h => h.elim hpg (Int.not_lt.mpr hstatus))]
      rw [Load.after_status, Load.after_acts, hreads, hacts]
      exact ⟨iff_of_true hstatus hlow, fun _ => rfl⟩
  · -- some memory segment is too high: the first round fails there
    have hneg : (imageLoad k f executable).status < 0 := by
      push Not at hlow
      obtain ⟨s, hs, hmem, hhigh⟩ := hlow
      obtain ⟨e, he, rfl⟩ := mem_map.mp hs
      have hrefused := Int.not_le.mp (mt (hk.amen_iff he).mp hhigh)
      have hfirst := mapSegs_refused he hmem hrefused (Xout.startErr k executable)
        (startMm k f executable)
      unfold imageLoad xoutImage
      rw [if_pos (Or.inr hfirst)]
      exact hfirst
    exact ⟨iff_of_false (Int.not_le.mpr hneg) hlow, fun h => absurd h (Int.not_le.mpr hneg)⟩

/-! ## Origins -/

/-- The file byte or zero that belongs at place `i` of the segment. -/
def Xseg.wanted (s : Xseg) (i : Nat) : Option Nat :=
  if i < s.xsPsize.toNat then some (s.xsFilpos.toNat + i) else none

/-- A segment is loaded for every file exactly if its bytes come from their places. -/
theorem loaded_iff (acts : List Act) (s : Xseg) :
    (∀ file m, s.Loaded file (imageOf acts file m)) ↔
      ∀ i < s.xsVsize.toNat, origin (patchesOf acts) (s.xsRbase.toNat + i) = some (s.wanted i) := by
  have hbyte : ∀ (file : Nat → Byte) i,
      byteAt file (s.wanted i) =
        if i < s.xsPsize.toNat then file (s.xsFilpos.toNat + i) else 0 := by
    intro file i
    unfold Xseg.wanted
    split <;> rfl
  constructor
  · intro h i hi
    refine (forall_paint_eq _ _ _).mp fun (file m : Nat → Byte) => ?_
    rw [hbyte]
    exact h file m i hi
  · intro h file m i hi
    rw [← hbyte]
    exact (forall_paint_eq _ _ _).mpr (h i hi) file m

variable {es : List Entry}

theorem mem_patchesOf_flatMap {g : Entry → List Act} {p : Patch} :
    p ∈ patchesOf (es.flatMap g) ↔ ∃ e ∈ es, p ∈ patchesOf (g e) := by
  simp only [patchesOf, mem_flatMap]
  constructor
  · intro h
    obtain ⟨a, ⟨e, he, ha⟩, hp⟩ := h
    exact ⟨e, he, a, ha, hp⟩
  · intro h
    obtain ⟨e, he, a, ha, hp⟩ := h
    exact ⟨a, ⟨e, he, ha⟩, hp⟩

/-- The first round paints zeros only. -/
theorem entryActs_zero {kernelDs paged : Bool} :
    ∀ p ∈ patchesOf (entryActs kernelDs paged e), p.src = none := by
  have hmmap : ∀ (addr len off : Word) (answer : Mapping),
      ∀ p ∈ (Act.mmap false addr len off answer).patches, p.src = none := by
    intro addr len off answer p hp
    obtain ⟨s, -, rfl⟩ := mem_map.mp hp
    rfl
  have hclear : ∀ (addr size : Word), ∀ p ∈ (clearMemory kernelDs addr size).patches,
      p.src = none := by
    intro addr size p hp
    rw [mem_singleton.mp hp]
  unfold entryActs xoutAmen
  split
  · split
    · simpa using hmmap _ _ _ _
    · dsimp only
      split
      · simpa using hmmap _ _ _ _
      · split
        all_goals simp only [patchesOf_cons, patchesOf_nil, append_nil, forall_mem_append]
        · exact ⟨hmmap _ _ _ _, hclear _ _, hmmap _ _ _ _⟩
        · exact ⟨hmmap _ _ _ _, hmmap _ _ _ _⟩
  · exact nofun

/-- A memory segment is mapped as zeros as a whole: always in a file that is read in, and
in a pageable file if it has no file bytes. -/
theorem entry_covered (kernelDs paged : Bool) (hmem : e.1.isMem = true) (hmap : e.2.map = .granted)
    (hbss : e.2.bss = .granted)
    (hbare : paged = true → e.1.xsPsize = 0 ∧ pageOff e.1.xsRbase = 0 ∧ e.1.Low paged)
    (hsize : e.1.xsVsize ≠ 0) :
    ⟨e.1.span.pages, none⟩ ∈ patchesOf (entryActs kernelDs paged e) := by
  unfold entryActs
  rw [if_pos hmem]
  cases paged with
  | false =>
    unfold xoutAmen
    rw [hmap]
    exact mem_singleton.mpr rfl
  | true =>
    obtain ⟨hpsize, hoff, hlow, -⟩ := hbare rfl
    have hnat : e.1.xsRbase.toNat % 4096 = 0 := by
      rw [← pageOff_toNat, hoff]
      rfl
    have halign : pageAlign e.1.xsRbase = e.1.xsRbase := by
      apply BitVec.eq_of_toNat_eq
      rw [pageAlign_eq_pageUp (by omega)]
      unfold pageUp
      omega
    have hne : e.1.xsVsize ≠ e.1.xsPsize := fun h => hsize (h.trans hpsize)
    have hbase : e.1.bssBase = e.1.xsRbase := by
      unfold Xseg.bssBase
      rw [hpsize]
      exact BitVec.add_zero _
    have hbssSize : e.1.xsVsize - e.1.xsPsize = e.1.xsVsize := by
      rw [hpsize]
      exact BitVec.sub_zero _
    have hrest : e.1.xsVsize - (e.1.xsRbase - e.1.xsRbase) = e.1.xsVsize := by
      rw [BitVec.sub_self]
      exact BitVec.sub_zero _
    rw [xoutAmen_paged]
    rw [if_pos ⟨hmap, hlow, hne⟩, hbase, hbssSize, halign, hrest, hbss]
    split
    · exact mem_append_right _ (mem_append_right _ (mem_singleton.mpr rfl))
    · exact mem_append_right _ (mem_singleton.mpr rfl)

/-- The patches of the first round. -/
def mapPatches (k : Services) (f : File) : List Patch :=
  patchesOf ((entries k f).flatMap (entryActs k.kernelDs (pageable k f)))

theorem mapPatches_zero (k : Services) (f : File) : ∀ p ∈ mapPatches k f, p.src = none := by
  intro p hp
  obtain ⟨e, -, hp⟩ := mem_patchesOf_flatMap.mp hp
  exact entryActs_zero p hp

/-- A memory segment that is mapped as a whole reads as zeros after the first round. -/
theorem origin_mapPatches (he : e ∈ entries k f)
    (hcover : ⟨e.1.span.pages, none⟩ ∈ patchesOf (entryActs k.kernelDs (pageable k f) e)) {i : Nat}
    (hi : i < e.1.xsVsize.toNat) : origin (mapPatches k f) (e.1.xsRbase.toNat + i) = some none := by
  rw [origin_of_zero (mapPatches_zero k f)]
  exact if_pos ⟨_, mem_patchesOf_flatMap.mpr ⟨e, he, hcover⟩,
    Span.mem_pages_of_mem ⟨Nat.le_add_right _ _, Nat.add_lt_add_left hi _⟩⟩

/-- The patches of the second round. -/
def readPatches (ss : List Xseg) : List Patch :=
  (ss.filter Xseg.isFile).map fun s => ⟨s.fileSpan, some s.xsFilpos.toNat⟩

/-- The last read over an address decides what is there. -/
theorem origin_readPatches (ss : List Xseg) (a : Nat) :
    origin (readPatches ss) a =
      (lastOver ss a).map fun t => some (t.xsFilpos.toNat + (a - t.xsRbase.toNat)) := by
  induction ss with
  | nil => rfl
  | cons s ss ih =>
    unfold lastOver
    by_cases hfile : s.isFile = true
    · have hcons : readPatches (s :: ss) =
          ⟨s.fileSpan, some s.xsFilpos.toNat⟩ :: readPatches ss := by
        simp [readPatches, hfile]
      rw [hcons, origin_cons, ih, Option.map_or]
      split
      next ha =>
        rw [if_pos ⟨hfile, ha⟩]
        rfl
      next ha =>
        rw [if_neg fun h => ha h.2]
        rfl
    · have hcons : readPatches (s :: ss) = readPatches ss := by
        simp [readPatches, hfile]
      rw [hcons, ih, if_neg fun h => hfile h.1, Option.or_none]

theorem patchesOf_reads
    (hread : ∀ e ∈ es, e.1.isFile = true → e.2.read = e.1.xsPsize ∧ e.2.read.msb = false) :
    patchesOf ((es.filter fun e => e.1.isFile).map fun e => readSeg e.1 e.2) =
      readPatches (es.map Prod.fst) := by
  induction es with
  | nil => rfl
  | cons e es ih =>
    have hrest := ih fun e' he' => hread e' (mem_cons_of_mem e he')
    by_cases hfile : e.1.isFile = true
    · obtain ⟨hall, hpos⟩ := hread e (mem_cons_self ..) hfile
      have hbytes : bytesRead e.1 e.2 = e.1.xsPsize.toNat := by
        unfold bytesRead
        rw [hpos, hall]
        exact Nat.min_self _
      unfold readPatches at *
      simp only [filter_cons, hfile, if_true, map_cons, patchesOf_cons, hrest]
      unfold readSeg
      rw [hbytes]
      rfl
    · unfold readPatches at *
      simp [hfile, hrest]

section

variable (hk : Grants k f executable)

include hk

/-- The patches of a load that succeeds. -/
theorem goodActs_patches :
    patchesOf (goodActs k f) =
      mapPatches k f ++ if pageable k f then [] else readPatches (segs k f) := by
  unfold goodActs
  rw [patchesOf_append]
  split
  · rfl
  · rw [patchesOf_reads hk.read]; rfl

/-- A pageable file is loaded right where there is nothing to load. -/
theorem paged_right_iff (hpg : pageable k f = true)
    (hlow : ∀ s ∈ segs k f, s.isMem = true → s.Low (pageable k f)) (he : e ∈ entries k f)
    (hmem : e.1.isMem = true) (hfile : e.1.isFile = true) :
    (∀ i < e.1.xsVsize.toNat,
      origin (patchesOf (goodActs k f)) (e.1.xsRbase.toNat + i) = some (e.1.wanted i)) ↔
    e.1.xsPsize = 0 ∨ e.1.xsVsize = 0 := by
  rw [goodActs_patches hk, if_pos hpg, append_nil]
  constructor
  · intro h
    by_contra hne
    push Not at hne
    -- the first byte should be the file's, but only zeros were painted
    have hpsize : 0 < e.1.xsPsize.toNat :=
      Nat.pos_of_ne_zero fun h0 => hne.1 (BitVec.eq_of_toNat_eq h0)
    have hvsize : 0 < e.1.xsVsize.toNat :=
      Nat.pos_of_ne_zero fun h0 => hne.2 (BitVec.eq_of_toNat_eq h0)
    have hfirst := h 0 hvsize
    unfold Xseg.wanted at hfirst
    rw [if_pos hpsize, origin_of_zero (mapPatches_zero k f)] at hfirst
    split at hfirst <;> exact nomatch hfirst
  · intro h i hi
    have hvsize := ne_zero_of_lt hi
    have hpsize := h.resolve_right hvsize
    have haligned : pageOff e.1.xsRbase = 0 := by
      unfold pageable at hpg
      rw [Bool.and_eq_true, Bool.not_eq_true', any_eq_false] at hpg
      have hnot := hpg.2 e he
      simp only [hfile, isnotaligned, Bool.true_and, bne_iff_ne, ne_eq, not_not] at hnot
      exact (BitVec.or_eq_zero_iff.mp hnot).2
    have hcover := entry_covered k.kernelDs (pageable k f) hmem (hk.map e he) (hk.bss e he)
      (fun _ => ⟨hpsize, haligned, hlow e.1 (mem_map_of_mem he) hmem⟩) hvsize
    rw [origin_mapPatches he hcover hi]
    unfold Xseg.wanted
    rw [if_neg]
    rw [hpsize]
    exact Nat.not_lt_zero i

/-- A file that is read in is loaded right where no other read interferes. -/
theorem read_right_iff (hpg : pageable k f = false) (he : e ∈ entries k f)
    (hmem : e.1.isMem = true) :
    (∀ i < e.1.xsVsize.toNat,
      origin (patchesOf (goodActs k f)) (e.1.xsRbase.toNat + i) = some (e.1.wanted i)) ↔
    e.1.Undisturbed (segs k f) := by
  have hzero : ∀ i < e.1.xsVsize.toNat,
      origin (mapPatches k f) (e.1.xsRbase.toNat + i) = some none := by
    intro i hi
    refine origin_mapPatches he (entry_covered k.kernelDs (pageable k f) hmem (hk.map e he)
      (hk.bss e he) (fun h => ?_) (ne_zero_of_lt hi)) hi
    rw [hpg] at h
    exact nomatch h
  have hbyte : ∀ i < e.1.xsVsize.toNat,
      (origin (patchesOf (goodActs k f)) (e.1.xsRbase.toNat + i) = some (e.1.wanted i) ↔
        match lastOver (segs k f) (e.1.xsRbase.toNat + i) with
        | none => e.1.xsPsize.toNat ≤ i
        | some t => i < e.1.xsPsize.toNat ∧
            t.xsFilpos.toNat + (e.1.xsRbase.toNat + i - t.xsRbase.toNat) =
              e.1.xsFilpos.toNat + i) := by
    intro i hi
    rw [goodActs_patches hk, hpg, if_neg Bool.false_ne_true, origin_append, hzero i hi,
      origin_readPatches]
    unfold Xseg.wanted
    cases lastOver (segs k f) (e.1.xsRbase.toNat + i) with
    | none =>
      simp
    | some t =>
      by_cases hin : i < e.1.xsPsize.toNat
      all_goals simp [hin]
  exact forall_congr' fun i => forall_congr' fun hi => hbyte i hi

end

/-! ## The image and its table -/

/-- A table with data segments, whose mappings all succeed. -/
theorem image_iff (hk : Grants k f executable) (hdata : hasData k f = true)
    (hlow : ∀ s ∈ segs k f, s.isMem = true → s.Low (pageable k f)) (he : e ∈ entries k f)
    (hmem : e.1.isMem = true) (hfile : e.1.isFile = true) :
    (∀ file m, e.1.Loaded file (memoryAfter k f executable file m)) ↔
      if pageable k f then e.1.xsPsize = 0 ∨ e.1.xsVsize = 0
      else e.1.Undisturbed (segs k f) := by
  obtain ⟨pre, post, hpre, hpost, hacts⟩ := xoutLoadObject_accepts
    (show accepts k f executable from
      ⟨hk.header, hk.kmalloc, hk.readTable, hdata, hk.setupArgPages⟩)
  obtain ⟨hstatus, hgood⟩ := imageLoad_iff hk
  have hpatches : patchesOf (xoutLoadObject k f executable).acts = patchesOf (goodActs k f) := by
    rw [hacts, patchesOf_append, patchesOf_append, patchesOf_quiet hpre, patchesOf_quiet hpost,
      hgood (hstatus.mpr hlow), nil_append, append_nil]
  unfold memoryAfter
  rw [loaded_iff, hpatches]
  split
  next hpg => exact paged_right_iff hk hpg hlow he hmem hfile
  next hpg => exact read_right_iff hk (Bool.not_eq_true _ ▸ hpg) he hmem

/-- Without data segments nothing is loaded. -/
theorem image_iff_of_noData (hdata : hasData k f = false) (s : Xseg) :
    (∀ file m, s.Loaded file (memoryAfter k f executable file m)) ↔ s.xsVsize = 0 := by
  have hrefused : ¬ accepts k f executable := by
    intro h
    have hhas : hasData k f = true := h.2.2.2.1
    rw [hdata] at hhas
    exact nomatch hhas
  unfold memoryAfter
  rw [loaded_iff, patchesOf_quiet (xoutLoadObject_refuses hrefused)]
  constructor
  · intro h
    by_contra hne
    have hpos : 0 < s.xsVsize.toNat := Nat.pos_of_ne_zero fun h0 => hne (BitVec.eq_of_toNat_eq h0)
    exact nomatch h 0 hpos
  · intro h0 i hi
    exact absurd h0 (ne_zero_of_lt hi)

/-- When every service plays along, no memory segment below `TASK_SIZE` is refused and
every text and data segment of the memory image is loaded right, whatever the file
contains, if and only if the table is one the loader gets right. -/
theorem xout_image_iff (hk : Grants k f executable) : ImageRight k f executable ↔ Fits k f := by
  have hmem : ∀ e ∈ entries k f, e.1 ∈ segs k f := fun e he => mem_map_of_mem he
  have hstatus := (imageLoad_iff hk).1
  constructor
  · intro h
    refine ⟨?_, ?_, ?_⟩
    · intro s hs hm hplaced
      obtain ⟨e, he, rfl⟩ := mem_map.mp hs
      exact (hk.amen_iff he).mp (h.placement e he hm hplaced)
    · intro hdata s hs hm hf
      obtain ⟨e, he, rfl⟩ := mem_map.mp hs
      exact (image_iff_of_noData hdata e.1).mp fun file m =>
        h.image (Or.inl hdata) file m e he hm hf
    · intro hdata hlow s hs hm hf
      obtain ⟨e, he, rfl⟩ := mem_map.mp hs
      exact (image_iff hk hdata hlow he hm hf).mp fun file m =>
        h.image (Or.inr (hstatus.mpr hlow)) file m e he hm hf
  · intro h
    refine ⟨fun e he hm hplaced => (hk.amen_iff he).mpr (h.low e.1 (hmem e he) hm hplaced), ?_⟩
    intro hok file m e he hm hf
    cases hdata : hasData k f with
    | false =>
      exact (image_iff_of_noData hdata e.1).mpr (h.noData hdata e.1 (hmem e he) hm hf) file m
    | true =>
      have hlow := hstatus.mp (hok.resolve_left (by simp [hdata]))
      exact (image_iff hk hdata hlow he hm hf).mpr (h.image hdata hlow e.1 (hmem e he) hm hf) file m

/-- A segment alone in its table is not disturbed. -/
theorem undisturbed_alone {s : Xseg} (hfile : s.isFile = true) : s.Undisturbed [s] := by
  intro i _
  by_cases hin : i < s.xsPsize.toNat
  · have hover : lastOver [s] (s.xsRbase.toNat + i) = some s :=
      if_pos ⟨hfile, Nat.le_add_right _ _, Nat.add_lt_add_left hin _⟩
    rw [hover]
    exact ⟨hin, by omega⟩
  · have hover : lastOver [s] (s.xsRbase.toNat + i) = none :=
      if_neg fun h => hin (Nat.lt_of_add_lt_add_left h.2.2)
    rw [hover]
    exact Nat.le_of_not_lt hin

/-- A single data segment on a 1 KiB boundary of the file, as the Xenix linker makes them,
with some bss. -/
theorem unaligned_data_right :
    ImageRight (plainServices 0x20) (oneSegment (dataSegment 0x400 0x20 0x40 0x1000)) true := by
  refine (xout_image_iff ⟨by decide, rfl, by decide, by decide, by decide, by decide,
    by decide⟩).mpr ⟨?_, nofun, ?_⟩
  · intro s hs _ _
    obtain rfl := mem_singleton.mp hs
    exact ⟨by decide, by decide⟩
  · intro _ _ s hs _ hfile
    obtain rfl := mem_singleton.mp hs
    exact undisturbed_alone hfile

/-- A page-aligned data segment is mapped without its file: its bytes are lost. And a
segment at `0x80000000` is refused, although its mapping succeeds. -/
theorem aligned_data_lost :
    let low := dataSegment 0x1000 0x10 0x10 0x1000
    let high := dataSegment 0x1000 0x10 0x10 0x80000000
    low.Placed ∧ high.Placed ∧
    (Grants (plainServices 0x10) (oneSegment low) true ∧
      Succeeds (plainServices 0x10) (oneSegment low) true ∧
      memoryAfter (plainServices 0x10) (oneSegment low) true (fun _ => 1) (fun _ => 0) 0x1000 = 0) ∧
    (Grants (plainServices 0x10) (oneSegment high) true ∧
      ¬ Succeeds (plainServices 0x10) (oneSegment high) true) ∧
    ¬ ImageRight (plainServices 0x10) (oneSegment low) true := by
  intro low high
  refine ⟨⟨by decide, by decide⟩, ⟨by decide, by decide⟩, ⟨⟨by decide, rfl, by decide, by decide,
    by decide, by decide, by decide⟩, Or.inr (by decide), by decide⟩, ⟨⟨by decide, rfl, by decide,
    by decide, by decide, by decide, by decide⟩, fun h => ?_⟩, fun h => ?_⟩
  · exact absurd h (by unfold Succeeds; decide)
  · have hbyte := h.image (Or.inr (by decide)) (fun _ => 1) (fun _ => 0)
      (low, ⟨.granted, .granted, 0x10⟩) (by decide) (by decide) (by decide) 0 (by decide)
    exact absurd hbyte (by decide)

end AbiEmu.Binfmt.Xout
