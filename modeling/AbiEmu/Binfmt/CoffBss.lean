import AbiEmu.Binfmt.CoffImage
import AbiEmu.Binfmt.Stores

/-!
# The bss of a COFF file

After text and data are in place `coff_load_object` asks for pages of zeros from the
first page boundary behind the start of the bss to its end, drops the answer, and clears
by hand from the start of the bss to that boundary. `coff_clear_memory` is told the size
of the bss and overwrites it by the distance to the boundary.

What the step should do is `BssRight`: the bss is there and reads as zeros, the mapping is
as long as the part of the bss behind the boundary, and text and data outside the bss are
left alone. A bss that ends before the boundary breaks it: the length of the mapping is a
difference of words that wraps, and the clearing runs on to the boundary. The page the bss
starts in is never mapped here, so it must be there already, and the zeros of the
mapping fill the last page behind the bss. `coff_bss_iff` is the exact list.
-/

namespace AbiEmu.Binfmt.Coff

open List

open AbiEmu.Span (pageDown pageUp)

/-! ## The property -/

/-- The address behind the bss. -/
def Layout.bssEnd (l : Layout) : Nat := l.bss.vaddr.toNat + l.bss.size.toNat

/-- How much of the bss lies behind the first page boundary. -/
def Layout.bssBeyond (l : Layout) : Nat := l.bssEnd - pageUp l.bss.vaddr.toNat

/-- How text and data get into memory. -/
def fillImage (k : Services) (l : Layout) : Load :=
  if k.mmapOp && l.aligned then mapImage k l else readImage k l

/-- The bss is what it should be after the load; `old` are spans whose pages were there
before it. -/
structure BssRight (old : List Span) (k : Services) (f : File) (binary : Bool) (l : Layout) :
    Prop where
  mapped : ∀ a ∈ l.bss.span,
    ∃ r ∈ old.map Span.pages ++ (coffLoadObject k f binary).acts.flatMap Act.mapped, a ∈ r
  zero : ∀ a ∈ l.bss.span, ∀ file m, memoryAfter k f binary file m a = 0
  /-- Only the bss is mapped without a file. -/
  length : ∀ addr len off answer,
    Act.mmap false addr len off answer ∈ (coffLoadObject k f binary).acts →
      len.toNat = l.bssBeyond
  kept : ∀ a, a ∈ l.text.span ∨ a ∈ l.data.span → a ∉ l.bss.span →
    ∀ file m, memoryAfter k f binary file m a = imageOf (fillImage k l).acts file m a

/-! ## The condition -/

/-- The pages in place for text and data when the bss step begins. -/
def imagePages (k : Services) (l : Layout) : List Span :=
  if k.mmapOp && l.aligned then
    l.text.mapSpan :: if l.data.size = 0 then [] else [l.data.mapSpan]
  else k.brkText.spans l.text.vaddr l.text.size ++ k.brkData.spans l.data.vaddr l.data.size

/-- A byte of an image that is read in which is zero before the bss step: the last of
`do_brk` and `read` over it was a `do_brk`. -/
def ZeroAlready (k : Services) (l : Layout) (a : Nat) : Prop :=
  (k.mmapOp && l.aligned) = false ∧ a ∉ textStores k l ∧
    (a ∈ k.brkData.span l.data.vaddr l.data.size ∨
      a ∉ dataStores k l ∧ a ∈ k.brkText.span l.text.vaddr l.text.size)

/-- The bytes between the end of the bss and the next page. -/
def Layout.bssTail (l : Layout) : Span := ⟨l.bssEnd, pageUp l.bssEnd - l.bssEnd⟩

/-- The layouts and answers with which the bss step is right. -/
structure BssFits (old : List Span) (k : Services) (l : Layout) : Prop where
  /-- The bss reaches its first page boundary. -/
  reaches : pageUp l.bss.vaddr.toNat ≤ l.bssEnd
  /-- The page it starts in is there. -/
  first : l.bss.vaddr.toNat % 4096 ≠ 0 →
    ∃ r ∈ old.map Span.pages ++ imagePages k l, l.bss.vaddr.toNat ∈ r
  /-- The pages behind it are granted. -/
  granted : pageUp l.bss.vaddr.toNat < l.bssEnd → k.mapBss = .granted ∨
    ∀ a, pageUp l.bss.vaddr.toNat ≤ a → a < l.bssEnd → ZeroAlready k l a
  /-- Nothing shares the last of them. -/
  tail : k.mapBss = .granted → ∀ a ∈ l.bssTail, a ∈ l.text.span ∨ a ∈ l.data.span →
    ZeroAlready k l a

/-! ## What a successful load consists of -/

variable {old : List Span} {k : Services} {f : File} {binary : Bool} {l : Layout}

section Load

variable (hacc : accepts k f binary = some l) (hok : 0 ≤ (coffLoadObject k f binary).status)

include hacc hok

/-- A load that ends well filled in text and data and went through its bss step. -/
theorem load_parts :
    0 ≤ (fillImage k l).status ∧ 0 ≤ (bssImage k l).status ∧
      ∃ pre post, pre.all Act.quiet = true ∧ post.all Act.quiet = true ∧
        (coffLoadObject k f binary).acts =
          pre ++ ((fillImage k l).acts ++ (bssImage k l).acts) ++ post := by
  obtain ⟨pre, post, hpre, hpost, hacts, hstatus⟩ := coffLoadObject_accepts hacc
  have himage : ¬ (coffImage k l).status < 0 := fun h => by
    omega
  have hfill : ¬ (fillImage k l).status < 0 := fun h => by
    have heq : coffImage k l = fillImage k l := if_pos h
    exact himage (heq ▸ h)
  have heq : coffImage k l = (bssImage k l).after (fillImage k l).acts := if_neg hfill
  rw [heq] at himage hacts
  exact ⟨Int.not_lt.mp hfill, Int.not_lt.mp himage, pre, post, hpre, hpost, hacts⟩

/-- Its patches are those of text and data and then those of the bss. -/
theorem load_patches :
    patchesOf (coffLoadObject k f binary).acts =
      patchesOf (fillImage k l).acts ++ patchesOf (bssImage k l).acts := by
  obtain ⟨-, -, pre, post, hpre, hpost, hacts⟩ := load_parts hacc hok
  rw [hacts, patchesOf_append, patchesOf_append, patchesOf_append, patchesOf_quiet hpre,
    patchesOf_quiet hpost, nil_append, append_nil]

/-- So are the pages it maps. -/
theorem load_mapped :
    (coffLoadObject k f binary).acts.flatMap Act.mapped =
      (fillImage k l).acts.flatMap Act.mapped ++ (bssImage k l).acts.flatMap Act.mapped := by
  obtain ⟨-, -, pre, post, hpre, hpost, hacts⟩ := load_parts hacc hok
  rw [hacts, flatMap_append, flatMap_append, flatMap_append, mapped_quiet hpre,
    mapped_quiet hpost, nil_append, append_nil]

end Load

/-- Text and data that were filled in have their pages. -/
theorem fillImage_mapped (hok : 0 ≤ (fillImage k l).status) :
    (fillImage k l).acts.flatMap Act.mapped = imagePages k l := by
  unfold fillImage imagePages at *
  split
  next hmap =>
    rw [if_pos hmap] at hok
    unfold mapImage at *
    simp only [Mapping.ret_pageMask, ne_eq] at *
    by_cases htext : k.mapText = .granted
    · by_cases hsize : l.data.size = 0
      · simp only [htext, hsize, not_true_eq_false, if_false, if_true]
        rfl
      · by_cases hdata : k.mapData = .granted
        · simp only [htext, hdata, hsize, not_true_eq_false, if_false]
          rfl
        · simp only [htext, hdata, hsize, not_true_eq_false, not_false_eq_true, if_false,
            if_true] at hok
          exact nomatch hok
    · simp only [htext, not_false_eq_true, if_true] at hok
      exact nomatch hok
  · show _ ++ ([] ++ (_ ++ ([] ++ []))) = _
    simp [Act.mapped]

/-! ## Zeros before the bss step -/

/-- A mapped image has file bytes everywhere. -/
theorem mapImage_src (k : Services) (l : Layout) :
    ∀ p ∈ patchesOf (mapImage k l).acts, p.src ≠ none := by
  have hone : ∀ (s : Sect) (off : Word) (answer : Mapping),
      ∀ p ∈ (mapCoff s off answer).patches, p.src ≠ none := by
    intro s off answer p hp
    obtain ⟨r, -, rfl⟩ := mem_map.mp hp
    exact nofun
  unfold mapImage
  split
  · simpa using hone _ _ _
  · split
    · simpa using hone _ _ _
    · split <;> simpa [or_imp, forall_and] using ⟨hone _ _ _, hone _ _ _⟩

/-- The zeros of an image that is read in. -/
theorem readImage_zero_iff (k : Services) (l : Layout) (a : Nat) :
    origin (patchesOf (readImage k l).acts) a = some none ↔
      a ∉ textStores k l ∧ (a ∈ k.brkData.span l.data.vaddr l.data.size ∨
        a ∉ dataStores k l ∧ a ∈ k.brkText.span l.text.vaddr l.text.size) := by
  obtain ⟨pos, pos', hpatches⟩ : ∃ pos pos', patchesOf (readImage k l).acts =
      zeros (k.brkText.spans l.text.vaddr l.text.size) ++ ([⟨dataStores k l, some pos⟩] ++
        (zeros (k.brkData.spans l.data.vaddr l.data.size) ++ [⟨textStores k l, some pos'⟩])) :=
    ⟨_, _, by simp [readImage, Act.patches, zeros, dataStores, textStores]; exact ⟨rfl, rfl⟩⟩
  have hread (s : Span) (pos : Nat) : origin [⟨s, some pos⟩] a =
      if a ∈ s then some (some (pos + (a - s.lo))) else none := rfl
  rw [hpatches, origin_append, origin_append, origin_append, origin_zeros, origin_zeros, hread,
    hread]
  simp only [Mapping.mem_spans]
  by_cases ht : a ∈ textStores k l
  · simp [ht]
  · by_cases hd : a ∈ k.brkData.span l.data.vaddr l.data.size
    · simp [ht, hd]
    · by_cases hr : a ∈ dataStores k l
      all_goals simp [ht, hd, hr]

theorem fillImage_zero_iff (k : Services) (l : Layout) (a : Nat) :
    origin (patchesOf (fillImage k l).acts) a = some none ↔ ZeroAlready k l a := by
  unfold fillImage ZeroAlready
  cases k.mmapOp && l.aligned with
  | true =>
    simp only [if_true, Bool.true_eq_false, false_and, iff_false]
    exact origin_ne_zero (mapImage_src k l) a
  | false =>
    simp only [Bool.false_eq_true, if_false, true_and]
    exact readImage_zero_iff k l a

/-- A byte that was made zero before was mapped before. -/
theorem ZeroAlready.mapped {a : Nat} (h : ZeroAlready k l a) : ∃ r ∈ imagePages k l, a ∈ r := by
  obtain ⟨hread, -, hzero⟩ := h
  unfold imagePages
  rw [hread]
  simp only [Bool.false_eq_true, if_false, mem_append, or_and_right, exists_or, Mapping.mem_spans]
  exact hzero.elim Or.inr fun h => Or.inl h.2

/-! ## Where the bss step puts zeros -/

section Place

variable (hplace : l.bssEnd ≤ taskSize)

include hplace

theorem bss_pageAlign : (pageAlign l.bss.vaddr).toNat = pageUp l.bss.vaddr.toNat := by
  refine pageAlign_eq_pageUp ?_
  unfold Layout.bssEnd taskSize at hplace
  omega

/-- The length of the mapping is right exactly if the bss reaches the boundary; otherwise
it wraps. -/
theorem bss_length_iff :
    (l.bss.size + l.bss.vaddr - pageAlign l.bss.vaddr).toNat = l.bssBeyond ↔
      pageUp l.bss.vaddr.toNat ≤ l.bssEnd := by
  have hup : pageUp l.bss.vaddr.toNat ≤ taskSize := by
    unfold Layout.bssEnd taskSize at hplace
    unfold pageUp taskSize
    omega
  have hlen : (l.bss.size + l.bss.vaddr - pageAlign l.bss.vaddr).toNat =
      (2 ^ 32 - pageUp l.bss.vaddr.toNat + l.bssEnd) % 2 ^ 32 := by
    rw [BitVec.toNat_sub, BitVec.toNat_add, bss_pageAlign hplace]
    unfold Layout.bssEnd
    omega
  unfold Layout.bssBeyond
  unfold taskSize at *
  omega

variable (hreach : pageUp l.bss.vaddr.toNat ≤ l.bssEnd) {answer : Mapping} {a : Nat}

include hreach

/-- The pages of the mapping, if the bss reaches the boundary. -/
theorem mem_bssMapping :
    a ∈ answer.span (pageAlign l.bss.vaddr)
        (l.bss.size + l.bss.vaddr - pageAlign l.bss.vaddr) ↔
      answer = .granted ∧ pageUp l.bss.vaddr.toNat < l.bssEnd ∧
        pageUp l.bss.vaddr.toNat ≤ a ∧ a < pageUp l.bssEnd := by
  cases answer with
  | refused errno => simp [Mapping.span, not_mem_empty]
  | granted =>
    simp only [Mapping.span, Span.mem_pages, (bss_length_iff hplace).mpr hreach,
      bss_pageAlign hplace, true_and]
    unfold Layout.bssBeyond pageDown pageUp at *
    omega

/-- The bytes that become zeros. -/
theorem mem_bssSpans (hsize : l.bss.size ≠ 0) :
    (∃ z ∈ l.bssSpans answer, a ∈ z) ↔
      l.bss.vaddr.toNat ≤ a ∧ a < pageUp l.bss.vaddr.toNat ∨
      answer = .granted ∧ pageUp l.bss.vaddr.toNat < l.bssEnd ∧
        pageUp l.bss.vaddr.toNat ≤ a ∧ a < pageUp l.bssEnd := by
  have hclear : a ∈ (⟨l.bss.vaddr.toNat, pageUp l.bss.vaddr.toNat - l.bss.vaddr.toNat⟩ : Span) ↔
      l.bss.vaddr.toNat ≤ a ∧ a < pageUp l.bss.vaddr.toNat := by
    rw [Span.mem_iff]
    dsimp only
    omega
  unfold Layout.bssSpans
  rw [if_neg hsize]
  simp only [mem_append, or_and_right, exists_or, Mapping.mem_spans, mem_singleton,
    exists_eq_left, hclear, mem_bssMapping hplace hreach]
  exact or_comm

end Place

section Load

variable (hacc : accepts k f binary = some l) (hok : 0 ≤ (coffLoadObject k f binary).status)

include hacc hok

/-- The load leaves a zero where the bss step puts one or where one was already. -/
theorem memory_zero_iff (a : Nat) :
    (∀ file m, memoryAfter k f binary file m a = 0) ↔
      (∃ z ∈ l.bssSpans k.mapBss, a ∈ z) ∨ ZeroAlready k l a := by
  obtain ⟨-, hbss, -⟩ := load_parts hacc hok
  unfold memoryAfter imageOf
  rw [forall_paint_eq_zero, load_patches hacc hok, origin_append,
    bssImage_origin (Int.not_lt.mpr hbss), origin_zeros, ← fillImage_zero_iff]
  split_ifs with hz
  · exact iff_of_true rfl (Or.inl hz)
  · rw [Option.none_or]
    exact ⟨Or.inr, fun h => h.resolve_left hz⟩

/-- It leaves text and data as they were filled in where the bss step puts no zero. -/
theorem memory_kept_iff (a : Nat) :
    (∀ file m, memoryAfter k f binary file m a = imageOf (fillImage k l).acts file m a) ↔
      ((∃ z ∈ l.bssSpans k.mapBss, a ∈ z) → ZeroAlready k l a) := by
  obtain ⟨-, hbss, -⟩ := load_parts hacc hok
  by_cases hz : ∃ z ∈ l.bssSpans k.mapBss, a ∈ z
  · have hzero := (memory_zero_iff hacc hok a).mpr (Or.inl hz)
    rw [← fillImage_zero_iff, ← forall_paint_eq_zero (β := Byte)]
    exact ⟨fun h _ file m => (h file m).symm.trans (hzero file m),
      fun h file m => (hzero file m).trans (h hz file m).symm⟩
  · refine iff_of_true (fun file m => ?_) fun h => absurd h hz
    unfold memoryAfter imageOf
    rw [paint_eq, paint_eq, load_patches hacc hok, origin_append,
      bssImage_origin (Int.not_lt.mpr hbss), origin_zeros, if_neg hz, Option.none_or]

end Load

/-! ## The mapping of the bss -/

/-- The acts of the bss step: one mapping, then stores. -/
theorem bssImage_acts (hsize : l.bss.size ≠ 0) : ∃ clears : List Act,
    (bssImage k l).acts = .mmap false (pageAlign l.bss.vaddr)
      (l.bss.size + l.bss.vaddr - pageAlign l.bss.vaddr) 0 k.mapBss :: clears ∧
    ∀ a ∈ clears, ∃ addr n, a = .clear addr n := by
  unfold bssImage
  rw [if_neg hsize, coffClearMemory_eq]
  refine ⟨_, rfl, ?_⟩
  split
  · exact nofun
  · split
    · exact nofun
    · exact fun a ha => ⟨_, _, mem_singleton.mp ha⟩

variable {addr len off : Word} {answer : Mapping}

/-- Text and data are mapped from the file or not mapped by `do_mmap` at all. -/
theorem fillImage_file : Act.mmap false addr len off answer ∉ (fillImage k l).acts := by
  unfold fillImage
  split
  · unfold mapImage mapCoff
    split
    · simp
    · split
      · simp
      · split <;> simp
  · simp [readImage]

theorem not_mem_quiet {acts : List Act} (h : acts.all Act.quiet = true) {a : Act}
    (ha : a.quiet = false) : a ∉ acts := by
  intro hin
  rw [all_eq_true.mp h a hin] at ha
  exact nomatch ha

section Load

variable (hacc : accepts k f binary = some l) (hok : 0 ≤ (coffLoadObject k f binary).status)

include hacc hok

/-- The one mapping without a file is that of a bss that is not empty. -/
theorem anonymous_mapping_iff :
    Act.mmap false addr len off answer ∈ (coffLoadObject k f binary).acts ↔
      l.bss.size ≠ 0 ∧ Act.mmap false addr len off answer = .mmap false (pageAlign l.bss.vaddr)
        (l.bss.size + l.bss.vaddr - pageAlign l.bss.vaddr) 0 k.mapBss := by
  obtain ⟨-, -, pre, post, hpre, hpost, hacts⟩ := load_parts hacc hok
  rw [hacts, mem_append, mem_append, mem_append,
    or_iff_left (not_mem_quiet hpost rfl), or_iff_right (not_mem_quiet hpre rfl),
    or_iff_right fillImage_file]
  by_cases hsize : l.bss.size = 0
  · have hnone : (bssImage k l).acts = [] := by
      unfold bssImage
      rw [if_pos hsize]
    rw [hnone]
    exact ⟨fun h => (nomatch h), fun h => absurd hsize h.1⟩
  · obtain ⟨clears, hbss, hclears⟩ := bssImage_acts hsize
    rw [hbss, mem_cons, and_iff_right hsize, or_iff_left_iff_imp]
    intro hin
    obtain ⟨addr', n, hclear⟩ := hclears _ hin
    exact nomatch hclear

variable (hplace : l.bssEnd ≤ taskSize) (hsize : l.bss.size ≠ 0)

include hplace hsize

/-- Of the bss, the part before the first page boundary is mapped if text and data or the
process have that page, and the part behind it also if the mapping is granted. -/
theorem bss_mapped_iff (hreach : pageUp l.bss.vaddr.toNat ≤ l.bssEnd) {a : Nat}
    (ha : a ∈ l.bss.span) :
    (∃ r ∈ old.map Span.pages ++ (coffLoadObject k f binary).acts.flatMap Act.mapped, a ∈ r) ↔
      (∃ r ∈ old.map Span.pages ++ imagePages k l, a ∈ r) ∨
      k.mapBss = .granted ∧ pageUp l.bss.vaddr.toNat ≤ a := by
  obtain ⟨hfill, -⟩ := load_parts hacc hok
  obtain ⟨clears, hbss, hclears⟩ := bssImage_acts hsize
  have hnone : clears.flatMap Act.mapped = [] := by
    rw [flatMap_eq_nil_iff]
    intro c hc
    obtain ⟨addr, n, rfl⟩ := hclears c hc
    rfl
  -- inside the bss only the start of the mapping matters
  have hmap : a ∈ k.mapBss.span (pageAlign l.bss.vaddr)
      (l.bss.size + l.bss.vaddr - pageAlign l.bss.vaddr) ↔
      k.mapBss = .granted ∧ pageUp l.bss.vaddr.toNat ≤ a := by
    have hlt : a < l.bssEnd := ha.2
    have hup : l.bssEnd ≤ pageUp l.bssEnd := by
      unfold pageUp
      omega
    rw [mem_bssMapping hplace hreach]
    exact ⟨fun h => ⟨h.1, h.2.2.1⟩, fun h => ⟨h.1, by omega, h.2, by omega⟩⟩
  rw [load_mapped hacc hok, fillImage_mapped hfill, hbss, flatMap_cons, hnone,
    append_nil, ← append_assoc, ← hmap, ← Mapping.mem_spans]
  simp only [mem_append, or_and_right, exists_or, Act.mapped]

/-! ## The bss of a loaded file -/

theorem BssRight.fits (h : BssRight old k f binary l) : BssFits old k l := by
  have hreach : pageUp l.bss.vaddr.toNat ≤ l.bssEnd :=
    (bss_length_iff hplace).mp
      (h.length _ _ _ _ ((anonymous_mapping_iff hacc hok).mpr ⟨hsize, rfl⟩))
  have hpos : 0 < l.bss.size.toNat := Nat.pos_of_ne_zero fun h0 => hsize (BitVec.eq_of_toNat_eq h0)
  refine ⟨hreach, fun hmod => ?_, fun hlt => ?_, fun hgrant a ha hin => ?_⟩
  · have hstart : l.bss.vaddr.toNat ∈ l.bss.span := ⟨Nat.le_refl _, Nat.lt_add_of_pos_right hpos⟩
    have hthere := (bss_mapped_iff hacc hok hplace hsize hreach hstart).mp (h.mapped _ hstart)
    refine hthere.resolve_right fun hbehind => ?_
    have := hbehind.2
    unfold pageUp at this
    omega
  · -- a refused mapping leaves what was there before
    by_cases hgrant : k.mapBss = .granted
    · exact Or.inl hgrant
    · refine Or.inr fun a hge hlt => ?_
      have hin : a ∈ l.bss.span := ⟨by unfold pageUp at hge; show l.bss.vaddr.toNat ≤ a; omega, hlt⟩
      refine ((memory_zero_iff hacc hok a).mp (h.zero a hin)).resolve_left fun hz => ?_
      rcases (mem_bssSpans hplace hreach hsize).mp hz with hz | hz
      · omega
      · exact hgrant hz.1
  · have hge : l.bssEnd ≤ a := ha.1
    have hlt : a < l.bssEnd + (pageUp l.bssEnd - l.bssEnd) := ha.2
    have hout : a ∉ l.bss.span := fun hbss => Nat.not_lt.mpr hge hbss.2
    refine (memory_kept_iff hacc hok a).mp (h.kept a hin hout) ?_
    refine (mem_bssSpans hplace hreach hsize).mpr (Or.inr ⟨hgrant, ?_⟩)
    unfold pageUp at *
    omega

theorem BssFits.right (h : BssFits old k l) : BssRight old k f binary l := by
  have hpaged : Paged (old.map Span.pages ++ imagePages k l) := by
    obtain ⟨hfill, -⟩ := load_parts hacc hok
    rw [← fillImage_mapped hfill]
    refine Paged.append (fun r hr => ?_) (paged_flatMap Act.paged_mapped _)
    obtain ⟨s, -, rfl⟩ := mem_map.mp hr
    exact ⟨s, rfl⟩
  refine ⟨fun a ha => ?_, fun a ha => ?_, fun addr len off answer hin => ?_, fun a hin hout => ?_⟩
  · rw [bss_mapped_iff hacc hok hplace hsize h.reaches ha]
    have hge : l.bss.vaddr.toNat ≤ a := ha.1
    have hlt : a < l.bssEnd := ha.2
    by_cases hfirst : a < pageUp l.bss.vaddr.toNat
    · -- the page the bss starts in
      have hmod : l.bss.vaddr.toNat % 4096 ≠ 0 := by
        unfold pageUp at hfirst
        omega
      refine Or.inl (hpaged.samePage ?_ (h.first hmod))
      unfold pageUp at hfirst
      unfold pageDown
      omega
    · rcases h.granted (by omega) with hgrant | hzero
      · exact Or.inr ⟨hgrant, by omega⟩
      · obtain ⟨r, hr, hin⟩ := (hzero a (by omega) hlt).mapped
        exact Or.inl ⟨r, mem_append_right _ hr, hin⟩
  · have hge : l.bss.vaddr.toNat ≤ a := ha.1
    have hlt : a < l.bssEnd := ha.2
    have hup : l.bssEnd ≤ pageUp l.bssEnd := by
      unfold pageUp
      omega
    rw [memory_zero_iff hacc hok, mem_bssSpans hplace h.reaches hsize]
    by_cases hfirst : a < pageUp l.bss.vaddr.toNat
    · exact Or.inl (Or.inl ⟨hge, hfirst⟩)
    · rcases h.granted (by omega) with hgrant | hzero
      · exact Or.inl (Or.inr ⟨hgrant, by omega, by omega, by omega⟩)
      · exact Or.inr (hzero a (by omega) hlt)
  · obtain ⟨-, heq⟩ := (anonymous_mapping_iff hacc hok).mp hin
    injection heq with _ _ hlen
    rw [hlen]
    exact (bss_length_iff hplace).mpr h.reaches
  · rw [memory_kept_iff hacc hok, mem_bssSpans hplace h.reaches hsize]
    intro hz
    have hreach := h.reaches
    have hnot : ¬ (l.bss.vaddr.toNat ≤ a ∧ a < l.bssEnd) := hout
    -- the zeros that are not in the bss are behind it
    rcases hz with hz | ⟨hgrant, hz⟩
    · omega
    · refine h.tail hgrant a ⟨?_, ?_⟩ hin
      · show l.bssEnd ≤ a
        unfold pageUp at hz
        omega
      · show a < l.bssEnd + (pageUp l.bssEnd - l.bssEnd)
        omega

end Load

/-- After a load that ended well, with the bss below `TASK_SIZE`: the bss is right exactly
if it is empty, or reaches its first page boundary, finds the page it starts in, has its
mapping granted where it needs one, and shares its last page with no text or data. -/
theorem coff_bss_iff (old : List Span) (hacc : accepts k f binary = some l)
    (hok : 0 ≤ (coffLoadObject k f binary).status) (hplace : l.bssEnd ≤ taskSize) :
    BssRight old k f binary l ↔ l.bss.size = 0 ∨ BssFits old k l := by
  by_cases hsize : l.bss.size = 0
  · refine iff_of_true ?_ (Or.inl hsize)
    have hempty : ∀ a, a ∉ l.bss.span := fun a ha => by
      have hlt : a < l.bss.vaddr.toNat + l.bss.size.toNat := ha.2
      rw [hsize] at hlt
      exact Nat.not_lt.mpr ha.1 hlt
    refine ⟨fun a ha => absurd ha (hempty a), fun a ha => absurd ha (hempty a),
      fun addr len off answer hin => ?_, fun a _ _ => ?_⟩
    · exact absurd hsize ((anonymous_mapping_iff hacc hok).mp hin).1
    · rw [memory_kept_iff hacc hok, Layout.bssSpans, if_pos hsize]
      rintro ⟨z, hz, -⟩
      exact nomatch hz
  · rw [or_iff_right hsize]
    exact ⟨fun h => h.fits hacc hok hplace hsize, fun h => h.right hacc hok hplace hsize⟩

/-- Data and a bss behind it that starts inside the last page of the data. -/
theorem bss_behind_data_right :
    let text : Sect := ⟨0x1000, 0x1000, 0x1000⟩
    let data : Sect := ⟨0x2000, 0x800, 0x2000⟩
    let bss : Sect := ⟨0, 0x1000, 0x2800⟩
    BssRight [] plainServices (executable text data bss) true
      (executableLayout text data bss true) := by
  intro text data bss
  refine (coff_bss_iff [] (by decide) (by decide) (by decide)).mpr (Or.inr ?_)
  refine ⟨by decide, fun _ => ⟨data.mapSpan, by decide, by decide⟩, fun _ => Or.inl rfl, ?_⟩
  -- the rest of the last page, from 0x3800 on, is nobody's
  intro _ a ha hin
  have hge : 0x3800 ≤ a := ha.1
  rcases hin with hin | hin
  · have hlt : a < 0x1000 + 0x1000 := hin.2
    omega
  · have hlt : a < 0x2000 + 0x800 := hin.2
    omega

/-- The same services with another answer to the mapping of the bss. -/
def Services.bssAnswer (k : Services) (answer : Mapping) : Services := { k with mapBss := answer }

/-- A bss of 16 bytes with data behind it in the same page. The loader asks for a mapping of
almost four gigabytes, does not notice that it is refused, and clears the data. -/
theorem short_bss_not_right :
    let text : Sect := ⟨0x1000, 0x1000, 0x1000⟩
    let data : Sect := ⟨0x2400, 0x800, 0x3400⟩
    let bss : Sect := ⟨0, 0x10, 0x3010⟩
    let l := executableLayout text data bss true
    let k := plainServices.bssAnswer (.refused 11)
    accepts k (executable text data bss) true = some l ∧
    (coffLoadObject k (executable text data bss) true).status = 0 ∧ l.bssEnd ≤ taskSize ∧
    Act.mmap false 0x4000 0xFFFFF020 0 (.refused 11) ∈
      (coffLoadObject k (executable text data bss) true).acts ∧
    memoryAfter k (executable text data bss) true (fun _ => 1) (fun _ => 1) 0x3400 = 0 ∧
    ¬ BssRight [] k (executable text data bss) true l := by
  intro text data bss l k
  refine ⟨by decide, by decide, by decide, by decide, by decide, fun h => ?_⟩
  exact absurd (h.length 0x4000 0xFFFFF020 0 (.refused 11) (by decide)) (by decide)

end AbiEmu.Binfmt.Coff
