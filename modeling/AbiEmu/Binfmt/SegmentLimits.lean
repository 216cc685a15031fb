import AbiEmu.Binfmt.XoutLoad
import AbiEmu.Binfmt.XoutBss

/-!
# The memory limits of a segmented program

`xout_load_object` goes through its table in order, and every call of `xout_amen` raises the
limits of the memory map: the end of the code, the end of the data, and the break. The break
is compared as it is and stored rounded up to a page, so it is not a plain running maximum.
Since it is always the start of a page, it is the maximum of the rounded ends all the same
(`amen_limits`), and so the order of the table does not matter.

What counts as text is not the table alone. An impure program has its data mirrored to the
text segment, and the second round raises the end of the code to the end of the data
(`limits_of_segments`).
-/

namespace AbiEmu.Binfmt.Segments

open List BitVec

open Xout (Xseg Mm)
open XoutLoad (Entry Thread Table mapTable mapTable_err isImpure)
open AbiEmu.Span (pageUp)

/-! ## The loop over the table -/

/-- The calls of `xout_amen`, with fuel for each; `answers i` are those for entry `i`. -/
def amens (c : Call) (answers : Nat → Nat → Answers) (fuel : Nat) (i : Nat) (s : State) :
    Option Outcome :=
  xoutAmen c (answers i) fuel 0 s

/-- `do_mmap` has granted nothing beyond `TASK_SIZE`. -/
def InSpace (steps : List Step) : Prop :=
  ∀ file addr len off, Step.act (.mmap file addr len off .granted) ∈ steps →
    addr.toNat + len.toNat ≤ taskSize

/-- The end of what the step was granted. -/
def Step.grantedEnd : Step → Nat
  | .act (.mmap _ addr len _ .granted) => addr.toNat + len.toNat
  | _ => 0

theorem inSpace_iff (steps : List Step) :
    (∀ s ∈ steps, s.grantedEnd ≤ taskSize) ↔ InSpace steps := by
  refine ⟨fun h file addr len off hs => h _ hs, fun h s hs => ?_⟩
  unfold Step.grantedEnd
  split
  next file addr len off => exact h file addr len off hs
  · exact Nat.zero_le _

instance (steps : List Step) : Decidable (InSpace steps) :=
  decidable_of_iff _ (inSpace_iff steps)

/-- The loop over the table got through with every segment mapped, from limits of zero, and
left these limits. -/
structure Maps (h : Header) (kernelDs fp pageable : Bool) (es : List Entry) (mm : Mm) : Prop where
  run : ∃ answers fuel err addr regs t, 0 ≤ err ∧
    mapTable (amens ⟨h, kernelDs, fp, pageable, isImpure (es.map Entry.seg)⟩ answers fuel) err
      ⟨addr, ⟨0, 0, 0, 0⟩, regs⟩ es = some t ∧
    0 ≤ t.err ∧ (∀ p ∈ t.calls, InSpace p.2.steps) ∧ t.thread.mm = mm

/-! ## The limits -/

/-- The largest value over the list, or zero. -/
def top {α : Type} (f : α → Nat) (as : List α) : Nat := as.foldr (fun a n => max (f a) n) 0

variable {α : Type}

theorem top_perm (f : α → Nat) {as bs : List α} (h : as.Perm bs) : top f as = top f bs := by
  refine h.foldr_eq' (fun a _ b _ n => ?_) 0
  omega

/-- The segment is mapped as text, by itself or as a mirror. -/
def Seg.asText (impure : Bool) (s : Seg) : Bool :=
  s.isText || impure && decide (0x47 ≤ s.xsSeg.toNat)

/-- The limits of a table. -/
structure Limits (impure : Bool) (segs : List Seg) (mm : Mm) : Prop where
  endCode : mm.endCode.toNat =
    top (fun s => s.fileEnd) (segs.filter fun s => s.isMem && s.asText impure)
  endData : mm.endData.toNat = top (fun s => s.fileEnd) (segs.filter fun s => s.isMem && s.isData)
  brk : mm.brk.toNat = top (fun s => pageUp s.memEnd) (segs.filter fun s => s.isMem)
  startBrk : mm.startBrk = mm.brk

/-! ## One update -/

/-- The break is the start of a page and nothing has been added to it. -/
structure Settled (mm : Mm) : Prop where
  startBrk : mm.startBrk = mm.brk
  aligned : mm.brk.toNat % 4096 = 0

/-- What `xout_amen` does to the limits, in numbers. -/
structure Raised (mm mm' : Mm) (sp : Xseg) : Prop where
  endCode : mm'.endCode.toNat =
    if sp.isText then max sp.fileEnd mm.endCode.toNat else mm.endCode.toNat
  endData : mm'.endData.toNat =
    if sp.isData then max sp.fileEnd mm.endData.toNat else mm.endData.toNat
  brk : mm'.brk.toNat = max (pageUp sp.memEnd) mm.brk.toNat
  settled : Settled mm'

variable {sp : Xseg}

theorem not_isData_of_isText (h : sp.isText = true) : sp.isData = false := by
  unfold Xseg.isText at h
  unfold Xseg.isData
  rw [beq_iff_eq] at h
  rw [h]
  rfl

variable {mm : Mm}

/-- A break that is the start of a page is below an end exactly if it is below its page. -/
theorem raise_brk (hmm : Settled mm) {memEnd : Word} (hmem : memEnd.toNat ≤ taskSize) :
    let mm' := if mm.brk < memEnd then
      { mm with startBrk := pageAlign memEnd, brk := pageAlign memEnd } else mm
    mm'.brk.toNat = max (pageUp memEnd.toNat) mm.brk.toNat ∧ Settled mm' ∧
      mm'.endCode = mm.endCode ∧ mm'.endData = mm.endData := by
  have hpage : (pageAlign memEnd).toNat = pageUp memEnd.toNat := by
    refine pageAlign_eq_pageUp ?_
    unfold taskSize at hmem
    omega
  have hal := hmm.aligned
  have hup : memEnd.toNat ≤ pageUp memEnd.toNat ∧ pageUp memEnd.toNat % 4096 = 0 ∧
      pageUp memEnd.toNat < memEnd.toNat + 4096 := by
    unfold pageUp
    omega
  split_ifs with hlt
  · have hnat : mm.brk.toNat < memEnd.toNat := lt_def.mp hlt
    refine ⟨?_, ⟨rfl, ?_⟩, rfl, rfl⟩
    · show (pageAlign memEnd).toNat = _
      omega
    · show (pageAlign memEnd).toNat % 4096 = 0
      omega
  · have hnat : memEnd.toNat ≤ mm.brk.toNat := Nat.le_of_not_lt fun h => hlt (lt_def.mpr h)
    exact ⟨by omega, hmm, rfl, rfl⟩

/-- A limit that is raised to an end. -/
theorem raise_toNat (limit fileEnd : Word) :
    (if limit < fileEnd then fileEnd else limit).toNat = max fileEnd.toNat limit.toNat := by
  split
  next h =>
    have := lt_def.mp h
    omega
  next h =>
    have := mt lt_def.mpr h
    omega

theorem amen_limits (hmm : Settled mm) (hfile : sp.fileEnd < 2 ^ 32) (hmem : sp.memEnd ≤ taskSize) :
    Raised mm (mm.amen sp) sp := by
  have hfileEnd : (sp.xsRbase + sp.xsPsize).toNat = sp.fileEnd := by
    exact Nat.mod_eq_of_lt hfile
  have hmemEnd : (sp.xsRbase + sp.xsVsize).toNat = sp.memEnd := by
    refine Nat.mod_eq_of_lt ?_
    show sp.memEnd < 2 ^ 32
    unfold taskSize at hmem
    omega
  -- the ends of code and data first, then the break
  have hends : ∀ mm₁ : Mm, Settled mm₁ → mm₁.brk = mm.brk →
      mm₁.endCode.toNat = (if sp.isText then max sp.fileEnd mm.endCode.toNat
        else mm.endCode.toNat) →
      mm₁.endData.toNat = (if sp.isData then max sp.fileEnd mm.endData.toNat
        else mm.endData.toNat) →
      Raised mm (if mm₁.brk < sp.xsRbase + sp.xsVsize then
        { mm₁ with
          startBrk := pageAlign (sp.xsRbase + sp.xsVsize)
          brk := pageAlign (sp.xsRbase + sp.xsVsize) } else mm₁) sp := by
    intro mm₁ hmm₁ hbrk hcode hdata
    obtain ⟨hraise, hsettled, hc, hd⟩ := raise_brk hmm₁ (hmemEnd ▸ hmem)
    refine ⟨?_, ?_, ?_, hsettled⟩
    · rw [hc, hcode]
    · rw [hd, hdata]
    · rw [hraise, hmemEnd, hbrk]
  unfold Mm.amen
  split
  next htext =>
    refine hends _ ?_ ?_ ?_ ?_
    · split
      · exact ⟨hmm.startBrk, hmm.aligned⟩
      · exact hmm
    · split <;> rfl
    · rw [if_pos htext, ← hfileEnd, ← raise_toNat]
      split <;> rfl
    · rw [not_isData_of_isText htext]
      split <;> rfl
  next htext =>
    split
    next hdata =>
      refine hends _ ?_ ?_ ?_ ?_
      · split
        · exact ⟨hmm.startBrk, hmm.aligned⟩
        · exact hmm
      iterate 2 split <;> rfl
      · rw [if_pos hdata, ← hfileEnd, ← raise_toNat]
        split <;> rfl
    next hdata => exact hends mm hmm rfl (if_neg htext).symm (if_neg hdata).symm

/-! ## Where a granted segment ends -/

/-- The file part and the bss of a pageable segment lie in the address space, and the code
asks for all of the bss or wraps. -/
theorem paged_memEnd {bss : Nat} (hfile : sp.fileEnd ≤ taskSize)
    (hbss : bss = if 4096 ≤ sp.bssBase.toNat
      then (pageAlign sp.bssBase).toNat +
        (sp.xsVsize - sp.xsPsize - (pageAlign sp.bssBase - sp.bssBase)).toNat
      else sp.bssBase.toNat + (sp.xsVsize - sp.xsPsize).toNat)
    (hend : bss ≤ taskSize) : sp.memEnd ≤ taskSize := by
  have hmem := Xout.memEnd_eq sp
  by_cases hlt : sp.xsVsize.toNat < sp.xsPsize.toNat
  · omega
  have hbase : sp.bssBase.toNat = sp.fileEnd := by
    rw [Xout.bssBase_toNat]
    unfold taskSize at hfile
    omega
  have hdiff : (sp.xsVsize - sp.xsPsize).toNat = sp.xsVsize.toNat - sp.xsPsize.toNat :=
    toNat_sub_of_le (le_def.mpr (Nat.le_of_not_lt hlt))
  split_ifs at hbss with hpage
  · have hup : pageUp sp.fileEnd = (sp.fileEnd + 4095) / 4096 * 4096 := rfl
    have halign : (pageAlign sp.bssBase).toNat = pageUp sp.fileEnd := by
      rw [Xout.pageAlign_toNat_mod, hbase]
      unfold taskSize at hfile
      omega
    by_cases hshort : sp.memEnd ≤ pageUp sp.fileEnd
    · omega
    · rw [toNat_sub, toNat_sub (pageAlign sp.bssBase), halign, hbase, hdiff] at hbss
      omega
  · omega

theorem granted_memEnd (kernelDs fp : Bool) {pageable : Bool} {e : Xout.Entry}
    (hacc : Xout.accepted pageable e)
    (hin : ∀ file addr len off, Act.mmap file addr len off .granted ∈
        (Xout.xoutAmen kernelDs fp pageable e.1 e.2).acts → addr.toNat + len.toNat ≤ taskSize) :
    e.1.memEnd ≤ taskSize := by
  obtain ⟨hmap, hlow, hbss⟩ := hacc
  cases pageable with
  | false =>
    refine hin false e.1.xsRbase e.1.xsVsize 0 ?_
    rw [← hmap]
    exact mem_singleton.mpr rfl
  | true =>
    rw [Xout.xoutAmen_paged] at hin
    have hfile : e.1.fileEnd ≤ taskSize := by
      refine hin fp e.1.xsRbase e.1.xsPsize e.1.xsFilpos ?_
      rw [hmap]
      split
      · split <;> exact mem_cons_self
      · exact mem_cons_self
    by_cases hne : e.1.xsVsize = e.1.xsPsize
    · unfold Xseg.memEnd
      rw [hne]
      exact hfile
    · rw [if_pos ⟨hmap, hlow, hne⟩, (hbss rfl hne).1] at hin
      refine paged_memEnd hfile rfl ?_
      split
      next hpage =>
        refine hin false _ _ 0 ?_
        rw [if_pos hpage]
        exact mem_cons_of_mem _ (mem_cons_of_mem _ mem_cons_self)
      next hpage =>
        refine hin false _ _ 0 ?_
        rw [if_neg hpage]
        exact mem_cons_of_mem _ mem_cons_self

/-! ## One segment of 32 bits -/

variable {c : Call} {s t : State} {answers : Nat → Answers} {o : Outcome}

section Is32bit

variable (h386 : c.header.is386 = true) (h32 : s.sp.is32bit = true)
include h386 h32

/-- A program for the 386 enters a segment of 32 bits without changing it. -/
theorem entered_of_386 : (s.entered c).sp = s.sp ∧ (s.entered c).mm = s.mm := by
  have hplace : s.place = s := if_pos h32
  unfold State.entered State.enter
  rw [hplace]
  split
  · exact ⟨rfl, rfl⟩
  · split <;> exact ⟨rfl, rfl⟩

theorem round_of_386 (a : Answers) :
    (round c a s).state.sp = s.sp ∧ (round c a s).state.mm = s.mm.amen s.sp.toXseg := by
  obtain ⟨hsp, hmm⟩ := entered_of_386 h386 h32
  rw [round_state]
  refine ⟨hsp, ?_⟩
  rw [hsp, hmm]

variable {a : Answers}

/-- An accepted round makes the mappings of the segment. -/
theorem round_maps (hacc : Accepted c s.sp.toXseg a) {act : Act}
    (hact : act ∈ (Xout.xoutAmen c.kernelDs c.fp c.pageable s.sp.toXseg ⟨a.map, a.bss, 0⟩).acts) :
    Step.act act ∈ (round c a s).steps := by
  have hplace : s.place = s := if_pos h32
  have hsp : (s.enter c.header s.ldtBase).sp = s.sp := by
    have hentered := (entered_of_386 h386 h32).1
    unfold State.entered at hentered
    rwa [hplace] at hentered
  unfold round
  simp only [hacc.1, hplace, hsp]
  exact mem_append_right _ (mem_map_of_mem hact)

/-- So a segment whose mappings were granted ends in the address space. -/
theorem memEnd_le (hacc : Accepted c s.sp.toXseg a) (hin : InSpace (round c a s).steps) :
    s.sp.memEnd ≤ taskSize := by
  refine granted_memEnd c.kernelDs c.fp hacc.2 fun file addr len off hact => ?_
  exact hin file addr len off (round_maps h386 h32 hacc hact)

end Is32bit

/-- A call that returns has a round, and a round that is the last ends it. -/
theorem xoutAmen_some {fuel i : Nat} (ho : xoutAmen c answers fuel i s = some o) :
    ∃ n, fuel = n + 1 ∧ (¬ (round c (answers i) s).again c = true →
      o = ⟨(round c (answers i) s).steps, (round c (answers i) s).err,
        (round c (answers i) s).state, 1⟩) := by
  cases fuel with
  | zero => exact nomatch ho
  | succ n =>
    refine ⟨n, rfl, fun hlast => ?_⟩
    rw [xoutAmen, if_neg hlast] at ho
    exact (Option.some.inj ho).symm

variable {fuel : Nat}

/-- Under a selector that is mirrored the rounds end with an error. -/
theorem Mirrored.err_neg (himpure : c.impure = true) (heseg : 0x47 ≤ c.header.xeEseg.toNat) :
    ∀ {i : Nat} {t : State} {o : Outcome}, Mirrored c s t →
      xoutAmen c answers fuel i t = some o → o.err < 0 := by
  induction fuel with
  | zero => nofun
  | succ fuel ih =>
    intro i t o h ho
    by_cases hagain : (round c (answers i) t).again c = true
    · rw [xoutAmen_again hagain] at ho
      obtain ⟨o', ho', rfl⟩ := Option.map_eq_some_iff.mp ho
      have herr : o'.err < 0 := ih (h.next (answers i)) ho'
      exact herr
    · obtain ⟨-, -, hlast⟩ := xoutAmen_some ho
      obtain rfl := hlast hagain
      by_contra herr
      refine hagain ((h.again_iff (answers i)).mpr ⟨himpure, heseg, ?_⟩)
      have hacc := (round_err_iff c (answers i) t).mp (Int.not_lt.mp herr)
      rw [h.place_sp, h.sp] at hacc
      exact hacc

/-- The segment under the text's selector. -/
def Seg.mirror (h : Header) (s : Seg) : Seg := { s with xsSeg := h.xeEseg, xsType := 1 }

/-- What a call that went well leaves: the limits raised for the segment, and once more for
its mirror if it has one; and it begins with a round that was accepted. -/
theorem amen_outcome (h386 : c.header.is386 = true) (h32 : s.sp.is32bit = true)
    (ho : xoutAmen c answers fuel 0 s = some o) (hok : 0 ≤ o.err) :
    o.state.mm = (if c.impure && decide (0x47 ≤ s.sp.xsSeg.toNat) then
        (s.mm.amen s.sp.toXseg).amen (s.sp.mirror c.header).toXseg
      else s.mm.amen s.sp.toXseg) ∧
    (∀ step ∈ (round c (answers 0) s).steps, step ∈ o.steps) ∧
    Accepted c s.sp.toXseg (answers 0) := by
  have hplace : s.place = s := if_pos h32
  obtain ⟨hsp, hmm⟩ := round_of_386 h386 h32 (answers 0)
  obtain ⟨fuel, rfl, hlast⟩ := xoutAmen_some ho
  by_cases hagain : (round c (answers 0) s).again c = true
  · obtain ⟨himpure, hseg, hacc⟩ := (round_again_iff c (answers 0) s).mp hagain
    rw [hplace] at hacc
    rw [xoutAmen_again hagain] at ho
    obtain ⟨o', ho', rfl⟩ := Option.map_eq_some_iff.mp ho
    have hfirst := mirrored_first c (answers 0) s
    -- the second round is the last
    have heseg : ¬ 0x47 ≤ c.header.xeEseg.toNat := by
      intro h
      have herr : o'.err < 0 := hfirst.err_neg himpure h ho'
      exact Int.not_lt.mpr hok herr
    obtain ⟨-, -, hlast⟩ := xoutAmen_some ho'
    obtain rfl := hlast fun h => heseg ((hfirst.again_iff (answers 1)).mp h).2.1
    have hmirror : ((round c (answers 0) s).state.mirror c.header).sp = s.sp.mirror c.header := by
      show ({ (round c (answers 0) s).state.sp with xsSeg := _, xsType := _ } : Seg) = _
      rw [hsp]
      rfl
    have h32' : ((round c (answers 0) s).state.mirror c.header).sp.is32bit = true := by
      rw [hmirror]
      exact h32
    refine ⟨?_, fun step hstep => mem_append_left _ hstep, hacc⟩
    rw [himpure, decide_eq_true hseg, Bool.and_self, if_pos rfl]
    refine (round_of_386 h386 h32' (answers 1)).2.trans ?_
    rw [hmirror, ← hmm]
    rfl
  · obtain rfl := hlast hagain
    have hacc := (round_err_iff c (answers 0) s).mp hok
    refine ⟨?_, fun step hstep => hstep, hplace ▸ hacc⟩
    rw [hmm, if_neg]
    intro hmirror
    rw [Bool.and_eq_true, decide_eq_true_eq] at hmirror
    exact hagain ((round_again_iff c (answers 0) s).mpr ⟨hmirror.1, hmirror.2, hacc⟩)

/-! ## The whole table -/

/-- Limits raised for a table. -/
structure RaisedBy (impure : Bool) (segs : List Seg) (mm mm' : Mm) : Prop where
  endCode : mm'.endCode.toNat =
    max (top (fun s => s.fileEnd) (segs.filter fun s => s.isMem && s.asText impure))
      mm.endCode.toNat
  endData : mm'.endData.toNat =
    max (top (fun s => s.fileEnd) (segs.filter fun s => s.isMem && s.isData)) mm.endData.toNat
  brk : mm'.brk.toNat =
    max (top (fun s => pageUp s.memEnd) (segs.filter fun s => s.isMem)) mm.brk.toNat
  settled : Settled mm'

theorem top_nil (f : α → Nat) : top f [] = 0 := rfl

theorem raisedBy_nil (impure : Bool) (h : Settled mm) : RaisedBy impure [] mm mm := by
  refine ⟨?_, ?_, ?_, h⟩ <;> rw [filter_nil, top_nil, Nat.zero_max]

/-- The largest value with one more that may be filtered out. -/
theorem top_filter_cons (f : α → Nat) (p : α → Bool) (a : α) (as : List α) :
    top f ((a :: as).filter p) =
      if p a then max (f a) (top f (as.filter p)) else top f (as.filter p) := by
  rw [filter_cons]
  split <;> rfl

/-- An entry that is not of memory does not count. -/
theorem RaisedBy.skip {impure : Bool} {seg : Seg} {segs : List Seg} {mm mm' : Mm}
    (h : RaisedBy impure segs mm mm') (hmem : seg.isMem = false) :
    RaisedBy impure (seg :: segs) mm mm' := by
  refine ⟨?_, ?_, ?_, h.settled⟩
  · rw [h.endCode, top_filter_cons, hmem, Bool.false_and, if_neg Bool.false_ne_true]
  · rw [h.endData, top_filter_cons, hmem, Bool.false_and, if_neg Bool.false_ne_true]
  · rw [h.brk, top_filter_cons, hmem, if_neg Bool.false_ne_true]

/-- What one segment of memory does to the limits. -/
structure SegRaised (impure : Bool) (seg : Seg) (mm mm' : Mm) : Prop where
  endCode : mm'.endCode.toNat =
    if seg.asText impure then max seg.fileEnd mm.endCode.toNat else mm.endCode.toNat
  endData : mm'.endData.toNat =
    if seg.isData then max seg.fileEnd mm.endData.toNat else mm.endData.toNat
  brk : mm'.brk.toNat = max (pageUp seg.memEnd) mm.brk.toNat
  settled : Settled mm'

theorem RaisedBy.cons {impure : Bool} {seg : Seg} {segs : List Seg} {mm mm₁ mm' : Mm}
    (h : RaisedBy impure segs mm₁ mm') (hmem : seg.isMem = true)
    (hseg : SegRaised impure seg mm mm₁) : RaisedBy impure (seg :: segs) mm mm' := by
  refine ⟨?_, ?_, ?_, h.settled⟩
  · rw [h.endCode, hseg.endCode, top_filter_cons, hmem, Bool.true_and]
    split
    · omega
    · rfl
  · rw [h.endData, hseg.endData, top_filter_cons, hmem, Bool.true_and]
    split
    · omega
    · rfl
  · rw [h.brk, hseg.brk, top_filter_cons, if_pos hmem]
    omega

/-- The two rounds of a mirrored segment, or the one round of any other. -/
theorem segRaised_of_amen (h386 : c.header.is386 = true) (h32 : s.sp.is32bit = true)
    (hmm : Settled s.mm) (hfile : s.sp.fileEnd < 2 ^ 32) (ho : xoutAmen c answers fuel 0 s = some o)
    (hok : 0 ≤ o.err) (hin : InSpace o.steps) :
    SegRaised c.impure s.sp s.mm o.state.mm := by
  obtain ⟨hout, hsteps, hacc⟩ := amen_outcome h386 h32 ho hok
  have hmem := memEnd_le h386 h32 hacc fun file addr len off h =>
    hin file addr len off (hsteps _ h)
  have hfirst := amen_limits hmm hfile hmem
  split_ifs at hout with hmirror
  · have htext : (s.sp.mirror c.header).isText = true := rfl
    have hdata : (s.sp.mirror c.header).isData = false := rfl
    have hsecond : Raised (s.mm.amen s.sp.toXseg) o.state.mm (s.sp.mirror c.header).toXseg := by
      rw [hout]
      exact amen_limits hfirst.settled hfile hmem
    have hfileEnd : (s.sp.mirror c.header).fileEnd = s.sp.fileEnd := rfl
    have hmemEnd : (s.sp.mirror c.header).memEnd = s.sp.memEnd := rfl
    refine ⟨?_, ?_, ?_, hsecond.settled⟩
    · rw [hsecond.endCode, if_pos htext, hfirst.endCode, hfileEnd, Seg.asText, hmirror,
        Bool.or_true, if_pos rfl]
      split
      · omega
      · rfl
    · rw [hsecond.endData, hdata, hfirst.endData]
      rfl
    · rw [hsecond.brk, hfirst.brk, hmemEnd]
      omega
  · rw [Bool.not_eq_true] at hmirror
    rw [hout]
    refine ⟨?_, hfirst.endData, hfirst.brk, hfirst.settled⟩
    rw [hfirst.endCode, Seg.asText, hmirror, Bool.or_false]

/-- The loop raises the limits for every segment of memory. -/
theorem mapTable_raises (h386 : c.header.is386 = true) {answers : Nat → Nat → Answers}
    {es : List Entry}
    (h32 : ∀ e ∈ es, e.seg.isMem = true → e.seg.is32bit = true ∧ e.seg.fileEnd < 2 ^ 32) :
    ∀ {err : Int} {th : Thread} {t : Table}, mapTable (amens c answers fuel) err th es = some t →
      Settled th.mm → 0 ≤ t.err → (∀ p ∈ t.calls, InSpace p.2.steps) →
      RaisedBy c.impure (es.map Entry.seg) th.mm t.thread.mm := by
  induction es with
  | nil =>
    intro err th t h hmm hok hin
    obtain rfl := Option.some.inj h
    exact raisedBy_nil c.impure hmm
  | cons e es ih =>
    intro err th t h hmm hok hin
    replace ih := @ih fun e' he' => h32 e' (mem_cons_of_mem e he')
    have herr : ¬ err < 0 := Int.not_lt.mpr (mapTable_err h hok)
    rw [mapTable, if_neg herr] at h
    split_ifs at h with hmem
    · obtain ⟨o, ho, hrest⟩ := Option.bind_eq_some_iff.mp h
      obtain ⟨t', ht', rfl⟩ := Option.map_eq_some_iff.mp hrest
      obtain ⟨hbits, hfile⟩ := h32 e mem_cons_self hmem
      have hseg := segRaised_of_amen h386 hbits hmm hfile
        ho (mapTable_err ht' hok) (hin _ mem_cons_self)
      have hlater : RaisedBy c.impure (es.map Entry.seg) o.state.mm t'.thread.mm :=
        ih ht' hseg.settled hok fun p hp => hin p (mem_cons_of_mem _ hp)
      exact hlater.cons hmem hseg
    · obtain ⟨t', ht', rfl⟩ := Option.map_eq_some_iff.mp h
      have hlater : RaisedBy c.impure (es.map Entry.seg) th.mm t'.thread.mm :=
        ih ht' hmm hok hin
      exact hlater.skip (Bool.not_eq_true _ ▸ hmem)

theorem RaisedBy.limits {impure : Bool} {segs : List Seg}
    (h : RaisedBy impure segs ⟨0, 0, 0, 0⟩ mm) :
    Limits impure segs mm :=
  ⟨h.endCode.trans (Nat.max_zero _), h.endData.trans (Nat.max_zero _),
    h.brk.trans (Nat.max_zero _), h.settled.startBrk⟩

theorem Maps.limits {h : Header} {kernelDs fp pageable : Bool} {es : List Entry}
    (h386 : h.is386 = true)
    (h32 : ∀ e ∈ es, e.seg.isMem = true → e.seg.is32bit = true ∧ e.seg.fileEnd < 2 ^ 32)
    (hmaps : Maps h kernelDs fp pageable es mm) :
    Limits (isImpure (es.map Entry.seg)) (es.map Entry.seg) mm := by
  obtain ⟨answers, fuel, err, addr, regs, t, -, ht, hok, hin, rfl⟩ := hmaps.run
  have hmm : Settled ⟨0, 0, 0, 0⟩ := ⟨rfl, rfl⟩
  exact (mapTable_raises h386 h32 ht hmm hok hin).limits

/-! ## Permuted tables -/

variable {segs segs' : List Seg}

theorem isImpure_perm (h : segs.Perm segs') : isImpure segs = isImpure segs' := by
  unfold isImpure
  rw [h.any_eq, h.countP_eq]

/-- The limits of a table are one thing, whatever the order. -/
theorem Limits.unique {mm mm' : Mm} (h : Limits (isImpure segs) segs mm)
    (h' : Limits (isImpure segs') segs' mm') (hperm : segs.Perm segs') : mm = mm' := by
  rw [← isImpure_perm hperm] at h'
  have hcode : mm.endCode = mm'.endCode := eq_of_toNat_eq <| by
    rw [h.endCode, h'.endCode]
    exact top_perm _ (hperm.filter _)
  have hdata : mm.endData = mm'.endData := eq_of_toNat_eq <| by
    rw [h.endData, h'.endData]
    exact top_perm _ (hperm.filter _)
  have hbrk : mm.brk = mm'.brk := eq_of_toNat_eq <| by
    rw [h.brk, h'.brk]
    exact top_perm _ (hperm.filter _)
  have hstart : mm.startBrk = mm'.startBrk := h.startBrk.trans (hbrk.trans h'.startBrk.symm)
  cases mm
  cases mm'
  cases hcode
  cases hdata
  cases hbrk
  cases hstart
  rfl

/-- A program for the 386 whose segments of memory are all of 32 bits: once they are mapped,
`end_code` is the largest end in the file over the segments mapped as text, the mirror of an
impure program's data included, `end_data` the same over the data segments, and the break
the largest rounded end in memory; and any order of the table leaves the same. -/
theorem limits_of_segments {h : Header} {kernelDs fp pageable : Bool} {es : List Entry} {mm : Mm}
    (h386 : h.is386 = true)
    (h32 : ∀ e ∈ es, e.seg.isMem = true → e.seg.is32bit = true)
    (hfile : ∀ e ∈ es, e.seg.isMem = true → e.seg.fileEnd < 2 ^ 32)
    (hmaps : Maps h kernelDs fp pageable es mm) :
    Limits (isImpure (es.map Entry.seg)) (es.map Entry.seg) mm ∧
      ∀ es' mm', (es.map Entry.seg).Perm (es'.map Entry.seg) →
        Maps h kernelDs fp pageable es' mm' → mm' = mm := by
  have hlimits := hmaps.limits h386 fun e he hmem => ⟨h32 e he hmem, hfile e he hmem⟩
  refine ⟨hlimits, fun es' mm' hperm hmaps' => ?_⟩
  -- the other table has the same segments
  have hsame : ∀ e' ∈ es', ∃ e ∈ es, e.seg = e'.seg := by
    intro e' he'
    have hmem := hperm.mem_iff.mpr (mem_map_of_mem he')
    exact mem_map.mp hmem
  have hlimits' := hmaps'.limits h386 fun e' he' hmem => by
    obtain ⟨e, he, hseg⟩ := hsame e' he'
    rw [← hseg] at hmem ⊢
    exact ⟨h32 e he hmem, hfile e he hmem⟩
  exact (hlimits.unique hlimits' hperm).symm

/-- A segment of 32 bits under a selector that is mirrored. -/
def plainEntry (idx : Nat) (type : BitVec 16) (psize vsize rbase : Word) : Entry where
  idx := idx
  seg := ⟨⟨type, 0x8040, 0x400, psize, vsize, rbase⟩, 0x47⟩

/-- A run of the loop that can be looked at, with services that play along. -/
theorem maps_of_any {h : Header} {es : List Entry} (fuel : Nat)
    (hrun : (mapTable
        (amens ⟨h, false, false, false, isImpure (es.map Entry.seg)⟩ (fun _ _ => granting) fuel) 0
        ⟨0, ⟨0, 0, 0, 0⟩, ⟨0, 0, 0, 0, 0, 0, 0⟩⟩ es).any (fun t =>
          decide (0 ≤ t.err) && decide (∀ p ∈ t.calls, InSpace p.2.steps) &&
            decide (t.thread.mm = mm)) = true) :
    Maps h false false false es mm := by
  obtain ⟨t, ht, hall⟩ := (Option.any_eq_true _ _).mp hrun
  rw [Bool.and_eq_true, Bool.and_eq_true, decide_eq_true_eq, decide_eq_true_eq,
    decide_eq_true_eq] at hall
  exact ⟨_, fuel, 0, 0, _, t, Int.le_refl 0, ht, hall.1.1, hall.1.2, hall.2⟩

/-- Text and data in either order: the break is the page behind the data. -/
theorem text_and_data_limits :
    let text := plainEntry 0 1 0x800 0x800 0x1000
    let data := plainEntry 1 2 0x400 0x1234 0x400000
    let mm : Mm := ⟨0x1800, 0x400400, 0x402000, 0x402000⟩
    Maps ⟨0x4a, 0x3f⟩ false false false [text, data] mm ∧
      Limits false [text.seg, data.seg] mm ∧
      (∀ mm', Maps ⟨0x4a, 0x3f⟩ false false false [data, text] mm' → mm' = mm) := by
  intro text data mm
  have hmaps : Maps ⟨0x4a, 0x3f⟩ false false false [text, data] mm := maps_of_any 1 (by decide)
  have h := limits_of_segments rfl (by decide) (by decide) hmaps
  exact ⟨hmaps, h.1, fun mm' => h.2 [data, text] mm' (List.Perm.swap _ _ _)⟩

/-- An impure program has no text in its table, and an end of the code all the same. On an
older processor the first data segment is made 64 KB long, so the order of two moves the
break. -/
theorem limits_of_table_fail :
    let low := plainEntry 0 2 0x800 0x1000 0x1000
    let high := plainEntry 1 2 0x800 0x1000 0x100000
    let mm : Mm := ⟨0x1800, 0x1800, 0x2000, 0x2000⟩
    (Maps ⟨0x4a, 0x3f⟩ false false false [low] mm ∧ ¬ Limits false [low.seg] mm) ∧
      Maps ⟨0x44, 0x3f⟩ false false false [low, high] ⟨0, 0x100800, 0x101000, 0x101000⟩ ∧
      Maps ⟨0x44, 0x3f⟩ false false false [high, low] ⟨0, 0x100800, 0x110000, 0x110000⟩ := by
  intro low high mm
  refine ⟨⟨maps_of_any 2 (by decide), fun h => ?_⟩, maps_of_any 1 (by decide),
    maps_of_any 1 (by decide)⟩
  exact absurd h.endCode (by decide)

end AbiEmu.Binfmt.Segments
