import AbiEmu.Binfmt.Coff

/-!
# What a loaded COFF file looks like in memory

A section is loaded when user memory holds its `size` file bytes from `scnptr`
on at `vaddr`. Whether it is depends on the layout of the sections only, in the
sense of `Lib.Image`: each byte of memory has an origin, and the image is right
for every content of the file exactly when the origins are the right ones.

* A mapped image (`mapped_right_iff`) has its data right. Its text is right
  unless a page of the data section covers it with another part of the file.
* An image that is read in (`read_right_iff`) is almost never right. The read
  for the data happens before `do_brk` replaces its pages by zeros, it shares
  its file position with the read for the text, and both take the section's file
  offset for its size.
* In both cases the zeros of the bss must not fall on a section.
-/

namespace AbiEmu.Binfmt.Coff

open BitVec Option

open AbiEmu.Span (pageDown pageUp)

/-! ## The property -/

/-- The addresses of a section. -/
def Sect.span (s : Sect) : Span := ⟨s.vaddr.toNat, s.size.toNat⟩

/-- Memory holds the section's bytes of the file. -/
def Sect.Loaded (s : Sect) (file mem : Nat → Byte) : Prop :=
  ∀ i < s.size.toNat, mem (s.vaddr.toNat + i) = file (s.scnptr.toNat + i)

/-- The section as it would be loaded has its place below `TASK_SIZE` and a place in
the file: its offset, a `long`, is not negative. -/
structure Sect.Placed (s : Sect) : Prop where
  inUser : s.vaddr.toNat + s.size.toNat ≤ taskSize
  offset : s.scnptr.toNat < 2 ^ 31

/-- User memory after the load. -/
def memoryAfter (k : Services) (f : File) (binary : Bool) (file m : Nat → Byte) : Nat → Byte :=
  imageOf (coffLoadObject k f binary).acts file m

/-- The same services with or without an `mmap` operation. -/
def Services.mappable (k : Services) (b : Bool) : Services := { k with mmapOp := b }

/-- Text and data are loaded, whatever the file and the old memory hold, on a file
system that can map and on one that cannot, and the two images agree. -/
structure ImageRight (k : Services) (f : File) (binary : Bool) (l : Layout) : Prop where
  text : ∀ b file m, l.text.Loaded file (memoryAfter (k.mappable b) f binary file m)
  data : ∀ b file m, l.data.Loaded file (memoryAfter (k.mappable b) f binary file m)
  same : ∀ file m, ∀ a, a ∈ l.text.span ∨ a ∈ l.data.span →
    memoryAfter (k.mappable true) f binary file m a =
      memoryAfter (k.mappable false) f binary file m a

/-- The mappings of text and data succeed and the reads are complete. -/
structure Services.Grants (k : Services) (l : Layout) : Prop where
  mapText : k.mapText = .granted
  mapData : k.mapData = .granted
  brkText : k.brkText = .granted
  brkData : k.brkData = .granted
  readData : l.data.scnptr.toNat ≤ k.readData
  readText : l.text.scnptr.toNat ≤ k.readText

/-! ## The condition on the layout -/

/-- Where the bss step puts zeros: the pages of its mapping, and the bytes from its
start to the next page. -/
def Layout.bssSpans (l : Layout) (answer : Mapping) : List Span :=
  if l.bss.size = 0 then []
  else answer.spans (pageAlign l.bss.vaddr) (l.bss.size + l.bss.vaddr - pageAlign l.bss.vaddr) ++
    [⟨l.bss.vaddr.toNat, pageUp l.bss.vaddr.toNat - l.bss.vaddr.toNat⟩]

/-- No byte of text or data is under the zeros of the bss. -/
def Layout.BssApart (l : Layout) (answer : Mapping) : Prop :=
  ∀ z ∈ l.bssSpans answer, l.text.span.Apart z ∧ l.data.span.Apart z

/-- The pages of the data section leave the text alone, or hold the same part of the
file. -/
def Layout.MapFits (l : Layout) : Prop :=
  l.data.size = 0 ∨ l.text.span.Apart l.data.span.pages ∨
    l.data.scnptr.toNat + l.text.vaddr.toNat = l.text.scnptr.toNat + l.data.vaddr.toNat

/-- The second read, which starts at twice the data's offset, happens to bring in
what belongs there. -/
def Layout.ReadFits (l : Layout) : Prop :=
  (l.text.size = 0 ∨
    l.text.scnptr.toNat = 2 * l.data.scnptr.toNat ∧ l.text.size.toNat ≤ l.text.scnptr.toNat) ∧
  (l.data.size = 0 ∨
    l.data.scnptr = 0 ∧ l.text.vaddr = l.data.vaddr ∧ l.data.size.toNat ≤ l.text.scnptr.toNat)

/-- The layouts the loader gets right. -/
structure Layout.Fits (l : Layout) (bss : Mapping) : Prop where
  bss : l.BssApart bss
  map : l.aligned = true → l.MapFits
  read : l.ReadFits

/-! ## Pageable files are aligned -/

/-- The section sits at the same offset in its page in the file and in memory. -/
def Sect.Aligned (s : Sect) : Prop := s.vaddr.toNat % 4096 = s.scnptr.toNat % 4096

theorem coffIsaligned_iff {h : Scnhdr} :
    (BitVec.ofInt 32 (coffIsaligned h)).msb = false ↔ (Sect.of (some h)).Aligned := by
  have hoff : pageOff (h.sVaddr - h.sScnptr) = 0 ↔ (Sect.of (some h)).Aligned := by
    rw [← toNat_inj, pageOff_toNat, toNat_sub]
    show _ = 0 ↔ h.sVaddr.toNat % 4096 = h.sScnptr.toNat % 4096
    omega
  rw [← hoff]
  unfold coffIsaligned
  split
  next hne => exact ⟨nofun, fun h => absurd h hne⟩
  next heq => exact ⟨fun _ => not_not.mp heq, fun _ => by decide⟩

/-- A status that is still not negative vouches for the sections seen. -/
def Scan.Vouches (s : Scan) : Prop :=
  s.status.msb = false → (Sect.of s.text).Aligned ∧ (Sect.of s.data).Aligned

theorem Scan.Vouches.step {s : Scan} (hs : s.Vouches) (h : Scnhdr) : (s.step h).Vouches := by
  unfold Scan.step
  split
  · intro hmsb
    rw [msb_or, Bool.or_eq_false_iff] at hmsb
    exact ⟨coffIsaligned_iff.mp hmsb.2, (hs hmsb.1).2⟩
  · split
    · intro hmsb
      rw [msb_or, Bool.or_eq_false_iff] at hmsb
      exact ⟨(hs hmsb.1).1, coffIsaligned_iff.mp hmsb.2⟩
    · split
      · exact hs
      · split <;> exact hs

theorem Scan.Vouches.foldl {s : Scan} (hs : s.Vouches) (sects : List Scnhdr) :
    (sects.foldl Scan.step s).Vouches := by
  induction sects generalizing s with
  | nil => exact hs
  | cons h sects ih => exact ih (hs.step h)

variable {k : Services} {l : Layout}

theorem layout_aligned {f : File} {binary : Bool} (h : layout k f binary = some l)
    (hal : l.aligned = true) :
    l.text.Aligned ∧ l.data.Aligned := by
  have hvouch := Scan.Vouches.foldl (s := Scan.start k.getUnusedFd) (fun _ => ⟨rfl, rfl⟩) f.sections
  unfold layout at h
  dsimp only at h
  split at h
  · exact nomatch h
  · split at h
    · exact nomatch h
    · obtain ⟨text, htext, h⟩ := bind_eq_some_iff.mp h
      obtain ⟨start, -, rfl⟩ := map_eq_some_iff.mp h
      have hok := hvouch (by simpa using hal)
      rw [htext] at hok
      exact hok

/-! ## From acts to patches -/

/-- The bss step puts zeros on its spans, if it succeeds. -/
theorem bssImage_origin (hok : ¬ (bssImage k l).status < 0) (a : Nat) :
    origin (patchesOf (bssImage k l).acts) a = origin (zeros (l.bssSpans k.mapBss)) a := by
  unfold bssImage Layout.bssSpans at *
  rw [coffClearMemory_eq] at *
  split
  · rfl
  next hsize =>
    rw [if_neg hsize] at hok
    split
    next h0 =>
      -- the bss starts on a page: there is nothing to clear
      have hempty : a ∉ (⟨l.bss.vaddr.toNat,
          pageUp l.bss.vaddr.toNat - l.bss.vaddr.toNat⟩ : Span) := by
        rw [Span.mem_iff]
        unfold pageUp
        dsimp only
        omega
      rw [zeros_append, origin_append, origin_zeros [_]]
      simp [Act.patches, zeros, hempty]
    next h0 =>
      rw [if_neg h0] at hok
      split
      next hwrap =>
        rw [if_pos hwrap] at hok
        exact absurd (by decide : -EFAULT < 0) hok
      · simp [Act.patches, zeros]

/-- The patches of a mapped image. -/
def Layout.mapPatches (l : Layout) : List Patch :=
  patchesOf (mapCoff l.text (pageMask l.text.scnptr) .granted ::
    if l.data.size = 0 then [] else [mapCoff l.data (pageMask l.data.scnptr) .granted])

/-- The patches of an image that is read in, with complete reads. -/
def Layout.readPatches (l : Layout) : List Patch :=
  [⟨l.text.span.pages, none⟩,
    ⟨⟨l.data.vaddr.toNat, l.data.scnptr.toNat⟩, some l.data.scnptr.toNat⟩,
    ⟨l.data.span.pages, none⟩,
    ⟨⟨l.text.vaddr.toNat, l.text.scnptr.toNat⟩, some (2 * l.data.scnptr.toNat)⟩]

section

variable {k : Services} {l : Layout} (hk : k.Grants l)

include hk

theorem mapImage_patches :
    (mapImage k l).status = 0 ∧ patchesOf (mapImage k l).acts = l.mapPatches := by
  unfold mapImage Layout.mapPatches
  simp only [hk.mapText, hk.mapData, Mapping.ret, ne_eq, not_true_eq_false, if_false]
  split <;> exact ⟨rfl, rfl⟩

theorem readImage_patches (hdata : l.data.Placed) :
    (readImage k l).status = 0 ∧ patchesOf (readImage k l).acts = l.readPatches := by
  have hint : l.data.scnptr.toInt = l.data.scnptr.toNat := toInt_eq_toNat_of_lt (by
    have := hdata.offset
    omega)
  refine ⟨rfl, ?_⟩
  unfold readImage Layout.readPatches
  simp only [patchesOf_cons, patchesOf_nil, Act.patches, hk.brkText, hk.brkData, Mapping.spans,
    List.map_cons, List.map_nil, List.cons_append, List.nil_append, hint,
    Nat.min_eq_right hk.readData, Nat.min_eq_right hk.readText, Int.toNat_natCast]
  rw [show ((l.data.scnptr.toNat : Int) + l.data.scnptr.toNat).toNat =
    2 * l.data.scnptr.toNat by omega]
  rfl

/-- The two ways to fill memory, then the bss. -/
theorem coffImage_origin (hdata : l.data.Placed) (hok : ¬ (bssImage k l).status < 0) (a : Nat) :
    origin (patchesOf (coffImage k l).acts) a =
      origin ((if k.mmapOp && l.aligned then l.mapPatches else l.readPatches) ++
        zeros (l.bssSpans k.mapBss)) a := by
  obtain ⟨hmap, hmapPatches⟩ := mapImage_patches hk
  obtain ⟨hread, hreadPatches⟩ := readImage_patches hk hdata
  unfold coffImage
  split
  · simp only [hmap, Int.lt_irrefl, if_false, Load.after_acts, patchesOf_append, hmapPatches]
    rw [origin_append, origin_append, bssImage_origin hok]
  · simp only [if_false, hread, Int.lt_irrefl, Load.after_acts, patchesOf_append, hreadPatches]
    rw [origin_append, origin_append, bssImage_origin hok]

end

/-! ## A mapped image -/

/-- The pages of a section, filled from the file. -/
def Sect.pagePatch (s : Sect) : Patch := ⟨s.span.pages, some (pageDown s.scnptr.toNat)⟩

variable {s : Sect}

theorem mapCoff_patches (hs : s.Placed) (hsize : s.size ≠ 0) :
    (mapCoff s (pageMask s.scnptr) .granted).patches = [s.pagePatch] := by
  have hpos : s.size.toNat ≠ 0 := fun h => hsize (eq_of_toNat_eq h)
  have huser := hs.inUser
  have hlen : (s.size + pageOff s.vaddr).toNat = s.size.toNat + s.vaddr.toNat % 4096 := by
    rw [toNat_add, pageOff_toNat]
    unfold taskSize at huser
    omega
  have hpages : Span.pages ⟨(pageMask s.vaddr).toNat, (s.size + pageOff s.vaddr).toNat⟩ =
      s.span.pages := by
    rw [hlen, pageMask_toNat]
    unfold Span.pages Sect.span
    simp only [hpos, if_false]
    rw [if_neg (by omega)]
    simp only [pageDown, pageUp, Span.mk.injEq]
    omega
  show [(⟨_, _⟩ : Patch)] = _
  rw [hpages, pageMask_toNat]
  rfl

/-- In the pages of an aligned section the file runs along with memory. -/
theorem pagePatch_pos (hal : s.Aligned) {a k : Nat} (ha : a ∈ s.span.pages) :
    s.pagePatch.pos a = some k ↔ s.scnptr.toNat + a = k + s.vaddr.toNat := by
  have hmem := Span.mem_pages.mp ha
  have hlo : s.span.pages.lo = pageDown s.vaddr.toNat := by
    unfold Span.pages
    rw [if_neg (by omega)]
    rfl
  show some (pageDown s.scnptr.toNat + (a - s.span.pages.lo)) = some k ↔ _
  rw [hlo, some.injEq]
  have hmod : s.vaddr.toNat % 4096 = s.scnptr.toNat % 4096 := hal
  have hge : pageDown s.vaddr.toNat ≤ a := hmem.2.1
  simp only [pageDown] at *
  omega

variable {i : Nat}

theorem Sect.mem_pages_at (hi : i < s.size.toNat) : s.vaddr.toNat + i ∈ s.span.pages :=
  Span.mem_pages_of_mem ⟨Nat.le_add_right _ _, Nat.add_lt_add_left hi _⟩

variable {l : Layout}

theorem mapPatches_eq (htext : l.text.Placed) (hdata : l.data.Placed) (ht : l.text.size ≠ 0)
    (hd : l.data.size ≠ 0) : l.mapPatches = [l.text.pagePatch, l.data.pagePatch] := by
  unfold Layout.mapPatches
  rw [if_neg hd, patchesOf_cons, patchesOf_cons, mapCoff_patches htext ht, mapCoff_patches hdata hd]
  rfl

/-- The data of a mapped image is right. -/
theorem mapped_data (hdata : l.data.Placed) (hal : l.data.Aligned) (hi : i < l.data.size.toNat) :
    origin l.mapPatches (l.data.vaddr.toNat + i) = some (some (l.data.scnptr.toNat + i)) := by
  have hd := ne_zero_of_lt hi
  have hmem := Sect.mem_pages_at hi
  have hpos : l.data.pagePatch.pos (l.data.vaddr.toNat + i) = some (l.data.scnptr.toNat + i) :=
    (pagePatch_pos hal hmem).mpr (by omega)
  unfold Layout.mapPatches
  rw [if_neg hd, patchesOf_cons, patchesOf_cons, mapCoff_patches hdata hd, origin_append]
  have hlast : origin ([l.data.pagePatch] ++ patchesOf []) (l.data.vaddr.toNat + i) =
      some (some (l.data.scnptr.toNat + i)) := by
    show (if _ ∈ l.data.span.pages then _ else _) = _
    rw [if_pos hmem, hpos]
  rw [hlast]
  rfl

/-- The text of a mapped image is right where the data's pages do not cover it, or
cover it with the same part of the file. -/
theorem mapped_text_iff (htext : l.text.Placed) (hdata : l.data.Placed) (hat : l.text.Aligned)
    (had : l.data.Aligned) :
    (∀ i < l.text.size.toNat,
      origin l.mapPatches (l.text.vaddr.toNat + i) = some (some (l.text.scnptr.toNat + i))) ↔
    l.MapFits := by
  have hown : ∀ i < l.text.size.toNat,
      l.text.pagePatch.pos (l.text.vaddr.toNat + i) = some (l.text.scnptr.toNat + i) :=
    fun i hi => (pagePatch_pos hat (Sect.mem_pages_at hi)).mpr (by omega)
  by_cases hd : l.data.size = 0
  · -- the text is all there is
    refine ⟨fun _ => Or.inl hd, fun _ i hi => ?_⟩
    unfold Layout.mapPatches
    rw [if_pos hd, patchesOf_cons, mapCoff_patches htext (ne_zero_of_lt hi)]
    show (if _ ∈ l.text.span.pages then _ else _) = _
    rw [if_pos (Sect.mem_pages_at hi), hown i hi]
  · have horigin : ∀ i < l.text.size.toNat, origin l.mapPatches (l.text.vaddr.toNat + i) =
        if l.text.vaddr.toNat + i ∈ l.data.span.pages then
          some (l.data.pagePatch.pos (l.text.vaddr.toNat + i))
        else some (some (l.text.scnptr.toNat + i)) := by
      intro i hi
      rw [mapPatches_eq htext hdata (ne_zero_of_lt hi) hd]
      show Option.or (if _ ∈ l.data.span.pages then _ else _)
        (if _ ∈ l.text.span.pages then _ else _) = _
      rw [if_pos (Sect.mem_pages_at hi), hown i hi]
      split <;> rfl
    constructor
    · intro h
      by_cases hap : l.text.span.Apart l.data.span.pages
      · exact Or.inr (Or.inl hap)
      · -- a common byte shows that the two parts of the file are the same
        rw [Span.apart_iff] at hap
        push Not at hap
        obtain ⟨a, hat', had'⟩ := hap
        have hge : l.text.vaddr.toNat ≤ a := hat'.1
        have hlt : a < l.text.vaddr.toNat + l.text.size.toNat := hat'.2
        have hbyte := h (a - l.text.vaddr.toNat) (by omega)
        have haddr : l.text.vaddr.toNat + (a - l.text.vaddr.toNat) = a := by omega
        rw [horigin _ (by omega), haddr, if_pos had', some.injEq, pagePatch_pos had had'] at hbyte
        exact Or.inr (Or.inr (by omega))
    · intro hfits i hi
      rw [horigin i hi]
      split
      next hin =>
        rw [some.injEq, pagePatch_pos had hin]
        rcases hfits with h0 | hap | heq
        · exact absurd h0 hd
        · exact absurd hin (Span.apart_iff.mp hap _ ⟨Nat.le_add_right _ _,
            Nat.add_lt_add_left hi _⟩)
        · omega
      · rfl

/-! ## An image that is read in -/

/-- The last of the four steps over an address decides. -/
theorem origin_readPatches (l : Layout) (a : Nat) : origin l.readPatches a =
    if a ∈ (⟨l.text.vaddr.toNat, l.text.scnptr.toNat⟩ : Span) then
      some (some (2 * l.data.scnptr.toNat + (a - l.text.vaddr.toNat)))
    else if a ∈ l.data.span.pages then some none
    else if a ∈ (⟨l.data.vaddr.toNat, l.data.scnptr.toNat⟩ : Span) then
      some (some (l.data.scnptr.toNat + (a - l.data.vaddr.toNat)))
    else if a ∈ l.text.span.pages then some none
    else none := by
  unfold Layout.readPatches
  simp only [origin_cons, origin_nil, none_or, Patch.pos, map_some, map_none]
  split
  · rfl
  · split
    · rfl
    · split <;> rfl

/-- A text byte comes right from the second read, whose start must then be the text's
place in the file, or is left over from the first. -/
theorem read_text_origin
    (h : origin l.readPatches (l.text.vaddr.toNat + i) = some (some (l.text.scnptr.toNat + i))) :
    i < l.text.scnptr.toNat ∧ 2 * l.data.scnptr.toNat = l.text.scnptr.toNat ∨
    l.text.scnptr.toNat ≤ i ∧ l.data.vaddr.toNat ≤ l.text.vaddr.toNat + i ∧
      l.text.vaddr.toNat + i < l.data.vaddr.toNat + l.data.scnptr.toNat ∧
      l.data.scnptr.toNat + l.text.vaddr.toNat = l.text.scnptr.toNat + l.data.vaddr.toNat := by
  rw [origin_readPatches] at h
  split at h
  next hin =>
    rw [Span.mem_iff] at hin
    simp only [some.injEq] at h
    dsimp only at hin
    omega
  next hout =>
    rw [Span.mem_iff] at hout
    dsimp only at hout
    split at h
    · exact nomatch h
    · split at h
      next hin =>
        rw [Span.mem_iff] at hin
        simp only [some.injEq] at h
        dsimp only at hin
        omega
      · split at h <;> exact nomatch h

theorem read_text_iff (l : Layout) :
    (∀ i < l.text.size.toNat,
      origin l.readPatches (l.text.vaddr.toNat + i) = some (some (l.text.scnptr.toNat + i))) ↔
    (l.text.size = 0 ∨
      l.text.scnptr.toNat = 2 * l.data.scnptr.toNat ∧ l.text.size.toNat ≤ l.text.scnptr.toNat) := by
  constructor
  · intro h
    rcases Nat.eq_zero_or_pos l.text.size.toNat with h0 | hpos
    · exact Or.inl (eq_of_toNat_eq h0)
    · -- the first byte fixes the offset; a byte past the second read is left over
      -- from the first only if the first byte is, and that one cannot be
      have hfirst := read_text_origin (h 0 hpos)
      refine Or.inr ?_
      by_cases hlong : l.text.size.toNat ≤ l.text.scnptr.toNat
      · exact ⟨by omega, hlong⟩
      · have hpast := read_text_origin (h l.text.scnptr.toNat (by omega))
        omega
  · intro h i hi
    rcases h with h0 | ⟨hscn, hsize⟩
    · exact absurd h0 (ne_zero_of_lt hi)
    · rw [origin_readPatches, if_pos ⟨by simp, by simp; omega⟩]
      simp only [some.injEq]
      omega

theorem read_data_iff (l : Layout) :
    (∀ i < l.data.size.toNat,
      origin l.readPatches (l.data.vaddr.toNat + i) = some (some (l.data.scnptr.toNat + i))) ↔
    (l.data.size = 0 ∨
      l.data.scnptr = 0 ∧ l.text.vaddr = l.data.vaddr ∧
        l.data.size.toNat ≤ l.text.scnptr.toNat) := by
  have hbyte : ∀ i < l.data.size.toNat,
      (origin l.readPatches (l.data.vaddr.toNat + i) = some (some (l.data.scnptr.toNat + i)) ↔
        l.text.vaddr.toNat ≤ l.data.vaddr.toNat + i ∧
        l.data.vaddr.toNat + i < l.text.vaddr.toNat + l.text.scnptr.toNat ∧
        l.data.scnptr.toNat + l.data.vaddr.toNat = l.text.vaddr.toNat) := by
    intro i hi
    rw [origin_readPatches]
    split
    next hin =>
      rw [Span.mem_iff] at hin
      dsimp only at hin
      simp only [some.injEq]
      omega
    next hout =>
      rw [if_pos (Sect.mem_pages_at hi)]
      refine ⟨fun h => (nomatch h), fun h => absurd ?_ hout⟩
      exact ⟨h.1, h.2.1⟩
  constructor
  · intro h
    rcases Nat.eq_zero_or_pos l.data.size.toNat with h0 | hpos
    · exact Or.inl (eq_of_toNat_eq h0)
    · have hfirst := (hbyte 0 hpos).mp (h 0 hpos)
      have hlast := (hbyte (l.data.size.toNat - 1) (by omega)).mp (h _ (by omega))
      refine Or.inr ⟨eq_of_toNat_eq ?_, eq_of_toNat_eq ?_, ?_⟩
      · show l.data.scnptr.toNat = 0
        omega
      all_goals omega
  · intro h i hi
    rw [hbyte i hi]
    rcases h with h0 | ⟨hscn, hvaddr, hsize⟩
    · exact absurd h0 (ne_zero_of_lt hi)
    · have hz : l.data.scnptr.toNat = 0 := by rw [hscn]; rfl
      rw [hvaddr]
      omega

/-! ## The image and its layout -/

/-- A section is loaded for every file exactly if its bytes come from their places. -/
theorem loaded_iff (acts : List Act) (s : Sect) :
    (∀ file m, s.Loaded file (imageOf acts file m)) ↔
      ∀ i < s.size.toNat,
        origin (patchesOf acts) (s.vaddr.toNat + i) = some (some (s.scnptr.toNat + i)) := by
  constructor
  · intro h i hi
    exact (forall_paint_eq_file _ _ _).mp fun file m => h file m i hi
  · intro h file m i hi
    exact (forall_paint_eq_file _ _ _).mpr (h i hi) file m

theorem Sect.apart_iff {z : Span} : s.span.Apart z ↔ ∀ i < s.size.toNat, s.vaddr.toNat + i ∉ z := by
  rw [Span.apart_iff]
  constructor
  · intro h i hi
    exact h _ ⟨Nat.le_add_right _ _, Nat.add_lt_add_left hi _⟩
  · intro h a ha
    have hge : s.vaddr.toNat ≤ a := ha.1
    have hlt : a < s.vaddr.toNat + s.size.toNat := ha.2
    have hin := h (a - s.vaddr.toNat) (by omega)
    rwa [show s.vaddr.toNat + (a - s.vaddr.toNat) = a by omega] at hin

variable {k : Services} {f : File} {binary : Bool}

section

variable (hacc : accepts k f binary = some l) (hk : k.Grants l)

include hacc hk

/-- A section of a loaded file is right if its way into memory is and no zeros fall on
it. -/
theorem section_loaded_iff (hdata : l.data.Placed) (hbss : ¬ (bssImage k l).status < 0) (s : Sect) :
    (∀ file m, s.Loaded file (memoryAfter k f binary file m)) ↔
      (∀ i < s.size.toNat,
        origin (if k.mmapOp && l.aligned then l.mapPatches else l.readPatches)
          (s.vaddr.toNat + i) = some (some (s.scnptr.toNat + i))) ∧
      ∀ z ∈ l.bssSpans k.mapBss, s.span.Apart z := by
  obtain ⟨pre, post, hpre, hpost, hacts, -⟩ := coffLoadObject_accepts hacc
  have hpatches : patchesOf (coffLoadObject k f binary).acts = patchesOf (coffImage k l).acts := by
    rw [hacts, patchesOf_append, patchesOf_append, patchesOf_quiet hpre, patchesOf_quiet hpost,
      List.nil_append, List.append_nil]
  unfold memoryAfter
  rw [loaded_iff, hpatches]
  simp only [coffImage_origin hk hdata hbss, origin_append_zeros, Sect.apart_iff]
  constructor
  · intro h
    exact ⟨fun i hi => (h i hi).1, fun z hz i hi => (h i hi).2 z hz⟩
  · intro h i hi
    exact ⟨h.1 i hi, fun z hz => h.2 z hz i hi⟩

/-- A load that ends well got through its bss step. -/
theorem bssImage_of_load (hdata : l.data.Placed) (hok : 0 ≤ (coffLoadObject k f binary).status) :
    ¬ (bssImage k l).status < 0 := by
  obtain ⟨pre, post, -, -, -, hstatus⟩ := coffLoadObject_accepts hacc
  have himage : ¬ (coffImage k l).status < 0 := fun h => by
    omega
  have hfill : (if k.mmapOp && l.aligned then mapImage k l else readImage k l).status = 0 := by
    split
    · exact (mapImage_patches hk).1
    · exact (readImage_patches hk hdata).1
  unfold coffImage at himage
  dsimp only at himage
  rwa [hfill, if_neg (Int.lt_irrefl 0)] at himage

/-- The two ways a pageable file can be loaded. -/
theorem mapped_right_iff (htext : l.text.Placed) (hdata : l.data.Placed)
    (hbss : ¬ (bssImage k l).status < 0) (hmap : k.mmapOp = true) (hal : l.aligned = true) :
    ((∀ file m, l.text.Loaded file (memoryAfter k f binary file m)) ∧
      ∀ file m, l.data.Loaded file (memoryAfter k f binary file m)) ↔
    l.MapFits ∧ l.BssApart k.mapBss := by
  have hlayout : layout k f binary = some l := by
    unfold accepts at hacc
    split at hacc
    · exact hacc
    · exact nomatch hacc
  obtain ⟨hat, had⟩ := layout_aligned hlayout hal
  rw [section_loaded_iff hacc hk hdata hbss, section_loaded_iff hacc hk hdata hbss]
  simp only [hmap, hal, Bool.and_self, if_true, mapped_text_iff htext hdata hat had]
  constructor
  · intro h
    exact ⟨h.1.1, fun z hz => ⟨h.1.2 z hz, h.2.2 z hz⟩⟩
  · intro h
    exact ⟨⟨h.1, fun z hz => (h.2 z hz).1⟩,
      ⟨fun i hi => mapped_data hdata had hi, fun z hz => (h.2 z hz).2⟩⟩

theorem read_right_iff (hdata : l.data.Placed) (hbss : ¬ (bssImage k l).status < 0)
    (hread : (k.mmapOp && l.aligned) = false) :
    ((∀ file m, l.text.Loaded file (memoryAfter k f binary file m)) ∧
      ∀ file m, l.data.Loaded file (memoryAfter k f binary file m)) ↔
    l.ReadFits ∧ l.BssApart k.mapBss := by
  rw [section_loaded_iff hacc hk hdata hbss, section_loaded_iff hacc hk hdata hbss]
  simp only [hread, Bool.false_eq_true, if_false, read_text_iff, read_data_iff]
  constructor
  · intro h
    exact ⟨⟨h.1.1, h.2.1⟩, fun z hz => ⟨h.1.2 z hz, h.2.2 z hz⟩⟩
  · intro h
    exact ⟨⟨h.1.1, fun z hz => (h.2 z hz).1⟩, ⟨h.1.2, fun z hz => (h.2 z hz).2⟩⟩

end

/-- Two memories that both hold a section agree on it. -/
theorem Sect.Loaded.agree {file m m' : Nat → Byte} (h : s.Loaded file m) (h' : s.Loaded file m')
    {a : Nat} (ha : a ∈ s.span) : m a = m' a := by
  have hge : s.vaddr.toNat ≤ a := ha.1
  have hlt : a < s.vaddr.toNat + s.size.toNat := ha.2
  have hi : a - s.vaddr.toNat < s.size.toNat := by omega
  have heq := (h _ hi).trans (h' _ hi).symm
  rwa [show s.vaddr.toNat + (a - s.vaddr.toNat) = a by omega] at heq

/-- When every service plays along, text and data of an accepted file are loaded right,
whatever the file contains and however it is loaded, if and only if the layout is one
the loader gets right. -/
theorem coff_image_iff (hacc : accepts k f binary = some l) (hk : k.Grants l)
    (htext : l.text.Placed) (hdata : l.data.Placed)
    (hok : 0 ≤ (coffLoadObject k f binary).status) :
    ImageRight k f binary l ↔ l.Fits k.mapBss := by
  have hbss := bssImage_of_load hacc hk hdata hok
  have hgrants : ∀ b, (k.mappable b).Grants l := fun b =>
    ⟨hk.mapText, hk.mapData, hk.brkText, hk.brkData, hk.readData, hk.readText⟩
  have hread := fun b (hb : (b && l.aligned) = false) =>
    read_right_iff (k := k.mappable b) hacc (hgrants b) hdata hbss hb
  have hmap := fun hal =>
    mapped_right_iff (k := k.mappable true) hacc (hgrants true) htext hdata hbss rfl hal
  constructor
  · intro h
    obtain ⟨hfits, hapart⟩ := (hread false rfl).mp ⟨h.text false, h.data false⟩
    exact ⟨hapart, fun hal => ((hmap hal).mp ⟨h.text true, h.data true⟩).1, hfits⟩
  · intro h
    have hboth : ∀ b,
        (∀ file m, l.text.Loaded file (memoryAfter (k.mappable b) f binary file m)) ∧
        ∀ file m, l.data.Loaded file (memoryAfter (k.mappable b) f binary file m) := by
      intro b
      cases hb : b && l.aligned with
      | false => exact (hread b hb).mpr ⟨h.read, h.bss⟩
      | true =>
        rw [Bool.and_eq_true] at hb
        obtain ⟨rfl, hal⟩ := hb
        exact (hmap hal).mpr ⟨h.map hal, h.bss⟩
    refine ⟨fun b => (hboth b).1, fun b => (hboth b).2, ?_⟩
    intro file m a ha
    rcases ha with ha | ha
    · exact ((hboth true).1 file m).agree ((hboth false).1 file m) ha
    · exact ((hboth true).2 file m).agree ((hboth false).2 file m) ha

/-- An executable without data, whose text has twice the file offset of its data. -/
theorem lucky_offsets_right :
    let text : Sect := ⟨0x2000, 0x2000, 0x2000⟩
    let data : Sect := ⟨0x1000, 0, 0x2000⟩
    let bss : Sect := ⟨0, 0, 0x5000⟩
    ImageRight plainServices (executable text data bss) true
      (executableLayout text data bss true) := by
  intro text data bss
  refine (coff_image_iff (by decide) ⟨rfl, rfl, rfl, rfl, by decide, by decide⟩
    ⟨by decide, by decide⟩ ⟨by decide, by decide⟩ (by decide)).mpr ?_
  exact ⟨fun z hz => (nomatch hz), fun _ => Or.inl rfl, ⟨Or.inr (by decide), Or.inl rfl⟩⟩

/-- A plain executable: page-aligned text and data next to each other, in the file and
in memory. On a file system that cannot map, its data arrives as zeros. -/
theorem plain_executable_not_right :
    let text : Sect := ⟨0x1000, 0x1000, 0x1000⟩
    let data : Sect := ⟨0x2000, 0x1000, 0x2000⟩
    let bss : Sect := ⟨0, 0, 0x3000⟩
    let l := executableLayout text data bss true
    accepts plainServices (executable text data bss) true = some l ∧ plainServices.Grants l ∧
    text.Placed ∧ data.Placed ∧ text.span.Apart data.span ∧
    (∀ b, (coffLoadObject (plainServices.mappable b) (executable text data bss) true).status = 0) ∧
    ¬ ImageRight plainServices (executable text data bss) true l := by
  intro text data bss l
  refine ⟨by decide, ⟨rfl, rfl, rfl, rfl, by decide, by decide⟩, ⟨by decide, by decide⟩,
    ⟨by decide, by decide⟩, by decide, by decide, fun h => ?_⟩
  -- a file of ones
  have hbyte := h.data false (fun _ => 1) (fun _ => 0) 0 (by decide)
  exact absurd hbyte (by decide)

end AbiEmu.Binfmt.Coff
