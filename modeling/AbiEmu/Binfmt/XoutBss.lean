import AbiEmu.Binfmt.Stores

/-!
# The bss of an x.out segment

A segment of a pageable file has `xs_psize` bytes in the file and `xs_vsize` in memory.
After the file part `xout_amen` takes care of the rest: it clears by hand to the next page
boundary and maps zeros from there on. Both sizes come from the file and are not compared.

`BssExact` is what this should come to, byte by byte. The code misses it where the sizes are
the wrong way round or the bss ends before the boundary, since its `bss_size` wraps. It
also tests `bss_base & PAGE_MASK` where it means the offset in the page, so that a bss
in the first page is not cleared, and `PAGE_ALIGN` wraps in the last page.
-/

namespace AbiEmu.Binfmt.Xout

open BitVec

open AbiEmu.Span (pageDown pageUp)

variable {kernelDs fp : Bool} {sp : Xseg} {answers : SegAnswers}

/-! ## The property -/

/-- The address behind the file part. -/
def Xseg.fileEnd (s : Xseg) : Nat := s.xsRbase.toNat + s.xsPsize.toNat

/-- The address behind the segment. -/
def Xseg.memEnd (s : Xseg) : Nat := s.xsRbase.toNat + s.xsVsize.toNat

/-- What `xout_amen` does for a segment of a pageable file after it mapped the file part. -/
def bssActs (kernelDs fp : Bool) (sp : Xseg) (answers : SegAnswers) : List Act :=
  (xoutAmen kernelDs fp true sp answers).acts.tail

/-- The byte is cleared by hand. -/
def Cleared (acts : List Act) (a : Nat) : Prop :=
  ∃ addr n, Act.clear addr n ∈ acts ∧ a ∈ (⟨addr.toNat, n⟩ : Span)

/-- The byte is one for which `do_mmap` is asked for zeros. -/
def Zeroed (acts : List Act) (a : Nat) : Prop :=
  ∃ addr len off answer, Act.mmap false addr len off answer ∈ acts ∧
    a ∈ (⟨addr.toNat, len.toNat⟩ : Span)

/-- The bss of a segment is cleared and mapped exactly. -/
structure BssExact (kernelDs fp : Bool) (sp : Xseg) (answers : SegAnswers) : Prop where
  /-- `bss_size` is the difference of the sizes. -/
  size : (sp.xsVsize - sp.xsPsize).toNat + sp.xsPsize.toNat = sp.xsVsize.toNat
  /-- What is taken off it does not make it wrap. -/
  rest : ∀ file addr len off answer,
    Act.mmap file addr len off answer ∈ bssActs kernelDs fp sp answers →
      len.toNat ≤ (sp.xsVsize - sp.xsPsize).toNat
  /-- Nothing is cleared by hand but the bytes before the first page boundary. -/
  clear : ∀ a, Cleared (bssActs kernelDs fp sp answers) a ↔
    sp.fileEnd ≤ a ∧ a < min (pageUp sp.fileEnd) sp.memEnd
  bytes : ∀ a, Cleared (bssActs kernelDs fp sp answers) a ∨
    Zeroed (bssActs kernelDs fp sp answers) a ↔ sp.fileEnd ≤ a ∧ a < sp.memEnd

/-- The segments with a bss for which it is. -/
structure BssFits (kernelDs : Bool) (sp : Xseg) : Prop where
  sizes : sp.xsPsize.toNat < sp.xsVsize.toNat
  inSpace : sp.fileEnd < 2 ^ 32
  /-- The bss starts on a page, or behind the first page where `put_user` works, and reaches
  the next boundary. -/
  start : sp.fileEnd % 4096 = 0 ∨ 4096 ≤ sp.fileEnd ∧ pageUp sp.fileEnd ≤ sp.memEnd ∧
    pageUp sp.fileEnd ≤ putLimit kernelDs
  /-- In the last page it ends with the address space. -/
  top : pageUp sp.fileEnd = 2 ^ 32 → sp.memEnd = 2 ^ 32

/-! ## The acts -/

theorem bssActs_none (h : sp.xsVsize = sp.xsPsize) : bssActs kernelDs fp sp answers = [] := by
  unfold bssActs
  rw [xoutAmen_paged, if_neg fun hc => hc.2.2 h]
  rfl

/-- A bss that starts in the first page is mapped from there on. -/
theorem bssActs_low (kernelDs fp : Bool) (hmap : answers.map = .granted)
    (hrbase : sp.xsRbase.toNat < 2 ^ 31)
    (hne : sp.xsVsize ≠ sp.xsPsize) (hlow : sp.bssBase.toNat < 4096) :
    bssActs kernelDs fp sp answers =
      [.mmap false sp.bssBase (sp.xsVsize - sp.xsPsize) 0 answers.bss] := by
  unfold bssActs
  rw [xoutAmen_paged, if_pos ⟨hmap, hrbase, hne⟩, if_neg (by omega)]
  rfl

/-- One that starts higher is cleared up to the next boundary and mapped from there on. -/
theorem bssActs_high (kernelDs fp : Bool) (hmap : answers.map = .granted)
    (hrbase : sp.xsRbase.toNat < 2 ^ 31)
    (hne : sp.xsVsize ≠ sp.xsPsize) (hhigh : 4096 ≤ sp.bssBase.toNat) :
    bssActs kernelDs fp sp answers =
      [clearMemory kernelDs sp.bssBase (pageAlign sp.bssBase - sp.bssBase),
        .mmap false (pageAlign sp.bssBase)
          (sp.xsVsize - sp.xsPsize - (pageAlign sp.bssBase - sp.bssBase)) 0 answers.bss] := by
  unfold bssActs
  rw [xoutAmen_paged, if_pos ⟨hmap, hrbase, hne⟩, if_pos hhigh]
  rfl

theorem memEnd_eq (s : Xseg) : s.memEnd + s.xsPsize.toNat = s.fileEnd + s.xsVsize.toNat := by
  unfold Xseg.memEnd Xseg.fileEnd
  omega

theorem bssBase_toNat (s : Xseg) : s.bssBase.toNat = s.fileEnd % 2 ^ 32 := BitVec.toNat_add ..

/-- Where the mapping of the bss starts: `PAGE_ALIGN` in the last page gives zero. -/
theorem pageAlign_toNat_mod (w : Word) : (pageAlign w).toNat = pageUp w.toNat % 2 ^ 32 := by
  rw [pageAlign_toNat]
  unfold pageDown pageUp
  omega

/-! ## The two cases -/

theorem low_exact_iff (hmap : answers.map = .granted) (hrbase : sp.xsRbase.toNat < 2 ^ 31)
    (hne : sp.xsVsize ≠ sp.xsPsize) (hlow : sp.bssBase.toNat < 4096) :
    BssExact kernelDs fp sp answers ↔ BssFits kernelDs sp := by
  have hacts := bssActs_low kernelDs fp hmap hrbase hne hlow
  have hclear : ∀ a, ¬ Cleared (bssActs kernelDs fp sp answers) a := by
    intro a h
    simp [Cleared, hacts] at h
  have hzero : ∀ a, Zeroed (bssActs kernelDs fp sp answers) a ↔
      sp.bssBase.toNat ≤ a ∧ a < sp.bssBase.toNat + (sp.xsVsize - sp.xsPsize).toNat := by
    intro a
    simp [Zeroed, hacts, Span.mem_iff]
  have hbase := bssBase_toNat sp
  have hsizes : sp.xsVsize.toNat ≠ sp.xsPsize.toNat := fun h => hne (eq_of_toNat_eq h)
  have hend := memEnd_eq sp
  constructor
  · intro h
    have hsize := h.size
    -- the first byte of the mapping is the first of the bss
    have hfirst := (h.bytes sp.bssBase.toNat).mp (Or.inr ((hzero _).mpr (by omega)))
    have hstart := mt (h.clear sp.fileEnd).mpr (hclear _)
    unfold pageUp at hstart
    refine ⟨by omega, by omega, by omega, fun htop => ?_⟩
    unfold pageUp at htop
    omega
  · intro h
    have hin := h.inSpace
    have hsz := h.sizes
    have hstart := h.start
    have hdiff : (sp.xsVsize - sp.xsPsize).toNat = sp.xsVsize.toNat - sp.xsPsize.toNat :=
      toNat_sub_of_le (le_def.mpr (Nat.le_of_lt hsz))
    refine ⟨by omega, ?_, fun a => ?_, fun a => ?_⟩
    · intro file addr len off answer hmem
      rw [hacts, List.mem_singleton] at hmem
      injection hmem with _ _ hlen
      rw [hlen]
    · refine iff_of_false (hclear a) ?_
      unfold pageUp
      omega
    · rw [or_iff_right (hclear a), hzero]
      omega

/-- What is cleared and mapped for a bss that does not start in the first page. -/
theorem high_bytes (kernelDs fp : Bool) (hmap : answers.map = .granted)
    (hrbase : sp.xsRbase.toNat < 2 ^ 31)
    (hne : sp.xsVsize ≠ sp.xsPsize) (hhigh : 4096 ≤ sp.bssBase.toNat) (a : Nat) :
    (Cleared (bssActs kernelDs fp sp answers) a ↔ sp.bssBase.toNat ≤ a ∧
      a < pageUp sp.bssBase.toNat ∧ a < putLimit kernelDs) ∧
    (Zeroed (bssActs kernelDs fp sp answers) a ↔ pageUp sp.bssBase.toNat % 2 ^ 32 ≤ a ∧
      a < pageUp sp.bssBase.toNat % 2 ^ 32 + (sp.xsVsize - sp.xsPsize -
        (pageAlign sp.bssBase - sp.bssBase)).toNat) := by
  have hacts := bssActs_high kernelDs fp hmap hrbase hne hhigh
  constructor
  · have hspan : Cleared (bssActs kernelDs fp sp answers) a ↔ sp.bssBase.toNat ≤ a ∧
        a < sp.bssBase.toNat + min (pageUp sp.bssBase.toNat - sp.bssBase.toNat)
          (putLimit kernelDs - sp.bssBase.toNat) := by
      rw [← pageAlign_sub]
      simp only [Cleared, hacts, clearMemory, List.mem_cons, Act.clear.injEq, reduceCtorEq,
        List.not_mem_nil, or_false, Span.mem_iff]
      constructor
      · rintro ⟨addr, n, ⟨rfl, rfl⟩, h⟩
        exact h
      · exact fun h => ⟨_, _, ⟨rfl, rfl⟩, h⟩
    rw [hspan]
    omega
  · rw [← pageAlign_toNat_mod]
    simp [Zeroed, hacts, clearMemory, Span.mem_iff]

/-- The length of the mapping as a number. -/
theorem high_length (sp : Xseg) (hsize : sp.xsPsize.toNat ≤ sp.xsVsize.toNat) :
    (sp.xsVsize - sp.xsPsize - (pageAlign sp.bssBase - sp.bssBase)).toNat =
      (2 ^ 32 - (pageUp sp.bssBase.toNat - sp.bssBase.toNat) +
        (sp.xsVsize.toNat - sp.xsPsize.toNat)) % 2 ^ 32 := by
  have hdiff : (sp.xsVsize - sp.xsPsize).toNat = sp.xsVsize.toNat - sp.xsPsize.toNat :=
    toNat_sub_of_le (le_def.mpr hsize)
  rw [toNat_sub, hdiff, pageAlign_sub]

theorem lt_putLimit (kernelDs : Bool) {n : Nat} (h : n < 2 ^ 31) : n < putLimit kernelDs := by
  unfold putLimit taskSize
  split <;> omega

section

variable (h : BssExact kernelDs fp sp answers) (hmap : answers.map = .granted)
  (hrbase : sp.xsRbase.toNat < 2 ^ 31) (hne : sp.xsVsize.toNat ≠ sp.xsPsize.toNat)
  (hhigh : 4096 ≤ sp.bssBase.toNat)

include h hmap hrbase hne hhigh

/-- If the bytes are right the file part ends inside the address space: the first byte that
is cleared or mapped is the first of the bss. -/
theorem BssExact.inSpace : sp.fileEnd = sp.bssBase.toNat := by
  have hne' : sp.xsVsize ≠ sp.xsPsize := fun heq => hne (congrArg BitVec.toNat heq)
  have hsize := h.size
  have hbytes := high_bytes kernelDs fp hmap hrbase hne' hhigh sp.bssBase.toNat
  have hfirst := h.bytes sp.bssBase.toNat
  have hbase := bssBase_toNat sp
  have hfile : sp.fileEnd = sp.xsRbase.toNat + sp.xsPsize.toNat := rfl
  by_contra hout
  have hlow : sp.bssBase.toNat < 2 ^ 31 := by omega
  have hlimit := lt_putLimit kernelDs hlow
  by_cases hmod : sp.bssBase.toNat % 4096 = 0
  · -- nothing to clear: the mapping starts there
    have hup : pageUp sp.bssBase.toNat = sp.bssBase.toNat := by
      unfold pageUp
      omega
    have hlen := high_length sp (by omega)
    have hzero := hbytes.2.mpr ⟨by omega, by omega⟩
    have := (hfirst.mp (Or.inr hzero)).1
    omega
  · have hclear := hbytes.1.mpr ⟨Nat.le_refl _, by unfold pageUp; omega, hlimit⟩
    have := (hfirst.mp (Or.inl hclear)).1
    omega

theorem BssExact.fits : BssFits kernelDs sp := by
  have hne' : sp.xsVsize ≠ sp.xsPsize := fun heq => hne (congrArg BitVec.toNat heq)
  have hin := h.inSpace hmap hrbase hne hhigh
  have hlt := sp.bssBase.isLt
  have hsize := h.size
  have hsizes : sp.xsPsize.toNat < sp.xsVsize.toNat := by omega
  have hend := memEnd_eq sp
  have hlen := high_length sp (Nat.le_of_lt hsizes)
  have hbytes := high_bytes kernelDs fp hmap hrbase hne' hhigh
  rw [← hin] at hlen hbytes hhigh hlt
  have hreach : pageUp sp.fileEnd ≤ sp.memEnd := by
    -- otherwise the length wraps and is more than the bss
    have hrest := h.rest false (pageAlign sp.bssBase)
      (sp.xsVsize - sp.xsPsize - (pageAlign sp.bssBase - sp.bssBase)) 0 answers.bss (by
        rw [bssActs_high _ _ hmap hrbase hne' (by omega)]
        exact List.mem_cons_of_mem _ (List.mem_singleton_self _))
    have hup : pageUp sp.fileEnd = (sp.fileEnd + 4095) / 4096 * 4096 := rfl
    omega
  refine ⟨hsizes, hlt, ?_, fun htop => ?_⟩
  · by_cases hmod : sp.fileEnd % 4096 = 0
    · exact Or.inl hmod
    · have hclear := (hbytes sp.fileEnd).1.mp ((h.clear sp.fileEnd).mpr
        ⟨Nat.le_refl _, by unfold pageUp; omega⟩)
      exact Or.inr ⟨hhigh, hreach, pageUp_le_putLimit hclear.2.2⟩
  · -- `PAGE_ALIGN` is zero, so what is mapped starts there
    have hbottom := (hbytes 0).2
    by_contra hne0
    have hzero := hbottom.mpr ⟨by omega, by omega⟩
    have := ((h.bytes 0).mp (Or.inr hzero)).1
    omega

end

theorem BssFits.exact (h : BssFits kernelDs sp) (hmap : answers.map = .granted)
    (hrbase : sp.xsRbase.toNat < 2 ^ 31) (hhigh : 4096 ≤ sp.bssBase.toNat) :
    BssExact kernelDs fp sp answers := by
  obtain ⟨hsizes, hspace, hstart, htop⟩ := h
  have hne : sp.xsVsize ≠ sp.xsPsize := fun heq => by
    rw [heq] at hsizes
    omega
  have hin : sp.bssBase.toNat = sp.fileEnd := by
    rw [bssBase_toNat, Nat.mod_eq_of_lt hspace]
  have hend := memEnd_eq sp
  have hdiff : (sp.xsVsize - sp.xsPsize).toNat = sp.xsVsize.toNat - sp.xsPsize.toNat :=
    toNat_sub_of_le (le_def.mpr (Nat.le_of_lt hsizes))
  have hlen := high_length sp (Nat.le_of_lt hsizes)
  have hbytes := high_bytes kernelDs fp hmap hrbase hne hhigh
  have hup : sp.fileEnd ≤ pageUp sp.fileEnd ∧ pageUp sp.fileEnd ≤ 2 ^ 32 ∧
      (sp.fileEnd % 4096 = 0 → pageUp sp.fileEnd = sp.fileEnd) := by
    unfold pageUp
    omega
  rw [hin] at hlen hbytes
  refine ⟨by omega, ?_, fun a => ?_, fun a => ?_⟩
  · intro file addr len off answer hmem
    rw [bssActs_high _ _ hmap hrbase hne hhigh] at hmem
    simp only [clearMemory, List.mem_cons, reduceCtorEq, false_or, List.not_mem_nil, or_false,
      Act.mmap.injEq] at hmem
    rw [hmem.2.2.1]
    omega
  · rw [(hbytes a).1]
    omega
  · rw [(hbytes a).1, (hbytes a).2]
    omega

/-! ## Every segment -/

/-- For every segment whose file part is mapped, the rest is cleared and mapped exactly if
there is none, or the sizes are in order, the bss starts on a page or behind the first page,
and it reaches the next boundary. -/
theorem xout_bss_iff (kernelDs fp : Bool) (sp : Xseg) (answers : SegAnswers)
    (hmap : answers.map = .granted) (hrbase : sp.xsRbase.toNat < 2 ^ 31) :
    BssExact kernelDs fp sp answers ↔ sp.xsPsize = sp.xsVsize ∨ BssFits kernelDs sp := by
  by_cases hne : sp.xsVsize = sp.xsPsize
  · refine iff_of_true ?_ (Or.inl hne.symm)
    have hend : sp.memEnd = sp.fileEnd := by
      unfold Xseg.memEnd Xseg.fileEnd
      rw [hne]
    refine ⟨by rw [hne, sub_self]; exact Nat.zero_add _, ?_, fun a => ?_, fun a => ?_⟩
    · intro file addr len off answer hmem
      rw [bssActs_none hne] at hmem
      exact nomatch hmem
    all_goals rw [bssActs_none hne, hend]
    · refine iff_of_false (fun ⟨_, _, h, _⟩ => nomatch h) ?_
      omega
    · refine iff_of_false (fun h => h.elim (fun ⟨_, _, h, _⟩ => nomatch h)
        fun ⟨_, _, _, _, h, _⟩ => nomatch h) ?_
      omega
  · rw [or_iff_right (Ne.symm hne)]
    by_cases hlow : sp.bssBase.toNat < 4096
    · exact low_exact_iff hmap hrbase hne hlow
    · have hhigh := Nat.le_of_not_lt hlow
      have hsizes : sp.xsVsize.toNat ≠ sp.xsPsize.toNat := fun h => hne (eq_of_toNat_eq h)
      exact ⟨fun h => h.fits hmap hrbase hsizes hhigh, fun h => h.exact hmap hrbase hhigh⟩

/-- Half a page of file and two more pages of bss. -/
theorem long_bss_exact :
    BssExact false true (dataSegment 0x1000 0x800 0x2800 0x5000) ⟨.granted, .granted, 0⟩ := by
  refine (xout_bss_iff false true _ _ rfl (by decide)).mpr (Or.inr ?_)
  exact ⟨by decide, by decide, by decide, by decide⟩

/-- Half a page of file and 256 bytes of bss behind it: the loader clears 2048 bytes and
asks for a mapping of almost four gigabytes, which is refused. -/
theorem short_bss_wraps :
    let sp := dataSegment 0x1000 0x800 0x900 0x5000
    let answers : SegAnswers := ⟨.granted, .refused 21, 0⟩
    bssActs false true sp answers =
      [.clear 0x5800 0x800, .mmap false 0x6000 0xFFFFF900 0 (.refused 21)] ∧
    ¬ BssExact false true sp answers := by
  intro sp answers
  refine ⟨by decide, fun h => ?_⟩
  exact absurd (h.rest false 0x6000 0xFFFFF900 0 (.refused 21) (by decide)) (by decide)

end AbiEmu.Binfmt.Xout
