import AbiEmu.Binfmt.Coff
import AbiEmu.Binfmt.Xout

/-!
# Where the loaders store

While a loader reads file bytes into memory or clears bytes by hand, the address
limit does not protect the kernel: the COFF loader lifts it around everything it
stores, and `kernel_read` lifts it for the x.out loader. The only protection is
that the loader stores where it has just mapped.

* COFF, mapped: the only stores clear the bytes from the start of the bss to the
  next page, and that page must belong to the text or the data. The mapping of
  the bss itself starts at the next page.
* COFF, read in: both reads take as many bytes as their section's file offset, and
  the read for the data comes before the `do_brk` for it.
* x.out, mapped: the bytes between the file part of a segment and the next page are
  cleared; they are in the pages just mapped, unless the segment has no file part.
* x.out, read in: every text and data segment is read, mapped or not.
-/

namespace AbiEmu.Binfmt

open AbiEmu.Span (pageDown pageUp)

/-! ## Spans of stores -/

/-- The addresses below `TASK_SIZE`. -/
def userSpan : Span := ⟨0, taskSize⟩

/-- The pages in place after an answer. -/
def Mapping.span (addr len : Word) : Mapping → Span
  | .granted => Span.pages ⟨addr.toNat, len.toNat⟩
  | .refused _ => ⟨0, 0⟩

variable {x : Nat}

theorem Mapping.mem_spans {answer : Mapping} {addr len : Word} :
    (∃ r ∈ answer.spans addr len, x ∈ r) ↔ x ∈ answer.span addr len := by
  cases answer with
  | granted => simp [Mapping.spans, Mapping.span]
  | refused errno => simp [Mapping.spans, Mapping.span, not_mem_empty]

variable {rs : List Span}

theorem byteInside_iff : ByteInside rs x ↔ x ∈ userSpan ∧ ∃ r ∈ rs, x ∈ r := by
  unfold ByteInside userSpan
  rw [Span.mem_iff]
  simp

/-- A span of stores into one mapped span. -/
theorem stores_within {s t : Span} (ht : ∀ x, (∃ r ∈ rs, x ∈ r) ↔ x ∈ t) :
    (∀ x ∈ s, ByteInside rs x) ↔ s.Within userSpan ∧ s.Within t := by
  simp only [byteInside_iff, ht, Span.within_iff]
  exact forall₂_and

/-- A span of stores into two mapped spans. -/
theorem stores_withinTwo {s t u : Span} (htu : ∀ x, (∃ r ∈ rs, x ∈ r) ↔ x ∈ t ∨ x ∈ u) :
    (∀ x ∈ s, ByteInside rs x) ↔ s.Within userSpan ∧ s.WithinTwo t u := by
  simp only [byteInside_iff, htu, Span.within_iff, Span.withinTwo_iff]
  exact forall₂_and

/-- The spans are whole pages. -/
def Paged (rs : List Span) : Prop := ∀ r ∈ rs, ∃ s : Span, r = s.pages

theorem Paged.samePage (hp : Paged rs) {x y : Nat}
    (hpage : pageDown x = pageDown y) (hx : ∃ r ∈ rs, x ∈ r) : ∃ r ∈ rs, y ∈ r := by
  obtain ⟨r, hr, hin⟩ := hx
  obtain ⟨s, rfl⟩ := hp r hr
  exact ⟨_, hr, Span.mem_pages_of_samePage hpage hin⟩

theorem Mapping.paged_spans (answer : Mapping) (addr len : Word) : Paged
    (answer.spans addr len) := by
  cases answer with
  | granted => exact fun r hr => ⟨_, List.mem_singleton.mp hr⟩
  | refused errno => exact nofun

theorem Act.paged_mapped (a : Act) : Paged a.mapped := by
  cases a with
  | mmap file addr len off answer | brk addr len answer => exact answer.paged_spans addr len
  | _ => exact nofun

theorem paged_flatMap {α : Type} {f : α → List Span} (hf : ∀ a, Paged (f a)) (as : List α) :
    Paged (as.flatMap f) := by
  intro r hr
  obtain ⟨a, -, hin⟩ := List.mem_flatMap.mp hr
  exact hf a r hin

theorem Paged.append {ts : List Span} (hr : Paged rs) (ht : Paged ts) : Paged (rs ++ ts) :=
  fun r hr' => (List.mem_append.mp hr').elim (hr r) (ht r)

/-- The rest of a page is one piece: it is in order if its first byte is mapped and the
page is the user's. -/
theorem restOfPage_inside (hp : Paged rs) {w : Nat} (hw : w % 4096 ≠ 0) :
    (∀ x ∈ (⟨w, pageUp w - w⟩ : Span), ByteInside rs x) ↔
      pageUp w ≤ taskSize ∧ ∃ r ∈ rs, w ∈ r := by
  have hup : w < pageUp w := by
    unfold pageUp
    omega
  constructor
  · intro h
    have hfirst := h w ⟨Nat.le_refl _, by dsimp only; omega⟩
    have hlast := (h (pageUp w - 1) ⟨by dsimp only; omega, by dsimp only; omega⟩).1
    exact ⟨by omega, hfirst.2⟩
  · intro h x hx
    have hge : w ≤ x := hx.1
    have hlt : x < w + (pageUp w - w) := hx.2
    refine ⟨by omega, hp.samePage ?_ h.2⟩
    unfold pageUp at hup hlt
    unfold pageDown
    omega

namespace Coff

/-! ## COFF -/

/-- `coff_clear_memory` has something to clear and its `verify_area` passes. -/
def Layout.Clears (l : Layout) : Prop :=
  l.bss.size ≠ 0 ∧ l.bss.vaddr.toNat % 4096 ≠ 0 ∧ pageUp l.bss.vaddr.toNat < 2 ^ 32

/-- The page in which the bss starts is the user's and in the text's or data's pages. -/
def Layout.ClearFits (l : Layout) (text data : Span) : Prop :=
  l.Clears → pageUp l.bss.vaddr.toNat ≤ taskSize ∧
    (l.bss.vaddr.toNat ∈ text ∨ l.bss.vaddr.toNat ∈ data)

/-- The pages `map_coff` asks for. -/
def Sect.mapSpan (s : Sect) : Span :=
  Span.pages ⟨(pageMask s.vaddr).toNat, (s.size + pageOff s.vaddr).toNat⟩

/-- The condition for a mapped image: if it gets past its mappings, the clearing fits. -/
def MapStores (k : Services) (l : Layout) : Prop :=
  k.mapText = .granted → (l.data.size ≠ 0 → k.mapData = .granted) →
    l.ClearFits l.text.mapSpan (if l.data.size = 0 then ⟨0, 0⟩ else l.data.mapSpan)

/-- The bytes stored by the read at the data section. -/
def dataStores (k : Services) (l : Layout) : Span :=
  ⟨l.data.vaddr.toNat, min k.readData l.data.scnptr.toNat⟩

/-- The bytes stored by the read at the text section. -/
def textStores (k : Services) (l : Layout) : Span :=
  ⟨l.text.vaddr.toNat, min k.readText l.text.scnptr.toNat⟩

/-- The condition for an image that is read in. -/
structure ReadStores (k : Services) (l : Layout) : Prop where
  dataUser : (dataStores k l).Within userSpan
  /-- When the data is read only the text has its pages. -/
  dataMapped : (dataStores k l).Within (k.brkText.span l.text.vaddr l.text.size)
  textUser : (textStores k l).Within userSpan
  textMapped : (textStores k l).WithinTwo (k.brkText.span l.text.vaddr l.text.size)
    (k.brkData.span l.data.vaddr l.data.size)
  clear : l.ClearFits (k.brkText.span l.text.vaddr l.text.size)
    (k.brkData.span l.data.vaddr l.data.size)

/-- The condition for a file: nothing is stored for one that is not accepted. -/
def StoresFit (k : Services) (f : File) (binary : Bool) : Prop :=
  ∀ l, accepts k f binary = some l →
    if k.mmapOp && l.aligned then MapStores k l else ReadStores k l

variable {l : Layout}

/-- The mapping of the bss starts above the bytes that are cleared. -/
theorem bssSpan_above (hclears : l.Clears) (answer : Mapping) (len : Word)
    (hx : x < pageUp l.bss.vaddr.toNat) : x ∉ answer.span (pageAlign l.bss.vaddr) len := by
  obtain ⟨-, -, hlt⟩ := hclears
  cases answer with
  | refused errno => exact not_mem_empty x
  | granted =>
    intro hin
    have hlo : pageDown (pageAlign l.bss.vaddr).toNat ≤ x := (Span.mem_pages.mp hin).2.1
    rw [pageAlign_eq_pageUp (by unfold pageUp at hlt; omega)] at hlo
    unfold pageDown pageUp at *
    omega

/-- What the bss step stores must be mapped before it. -/
theorem bss_stores (k : Services) (l : Layout) (hp : Paged rs) :
    StoresInside rs (bssImage k l).acts ↔
      (l.Clears → pageUp l.bss.vaddr.toNat ≤ taskSize ∧ ∃ r ∈ rs, l.bss.vaddr.toNat ∈ r) := by
  unfold bssImage
  rw [coffClearMemory_eq]
  split
  next h0 => exact iff_of_true trivial fun h => absurd h0 h.1
  next hsize =>
    rw [Load.after_acts, List.singleton_append, storesInside_mmap]
    split
    next h0 => exact iff_of_true trivial fun h => absurd h0 h.2.1
    next hmod =>
      split
      next hwrap => exact iff_of_true trivial fun h => absurd h.2.2 (Nat.not_lt.mpr hwrap)
      next hfit =>
        have hclears : l.Clears := ⟨hsize, hmod, Nat.lt_of_not_le hfit⟩
        rw [storesInside_clear, and_iff_left (storesInside_nil _),
          restOfPage_inside (hp.append (k.mapBss.paged_spans _ _)) hmod]
        simp only [List.mem_append, or_and_right, exists_or, Mapping.mem_spans]
        have hup : l.bss.vaddr.toNat < pageUp l.bss.vaddr.toNat := by
          unfold pageUp
          omega
        rw [or_iff_left (bssSpan_above hclears k.mapBss _ hup)]
        exact ⟨fun h _ => h, fun h => h hclears⟩

variable {k : Services}

/-- A mapped image stores nothing before its bss step, and does not get there when a
mapping is refused. -/
theorem map_stores_iff (hmap : (k.mmapOp && l.aligned) = true) :
    StoresInside [] (coffImage k l).acts ↔ MapStores k l := by
  have htext : Mapping.spans (pageMask l.text.vaddr) (l.text.size + pageOff l.text.vaddr) .granted =
      [l.text.mapSpan] := rfl
  have hdata : Mapping.spans (pageMask l.data.vaddr) (l.data.size + pageOff l.data.vaddr) .granted =
      [l.data.mapSpan] := rfl
  have hpaged : ∀ s : Sect, Paged [s.mapSpan] := fun s r hr => ⟨_, List.mem_singleton.mp hr⟩
  have hneg : -ENOEXEC < 0 := by decide
  unfold coffImage mapImage MapStores Layout.ClearFits mapCoff
  simp only [hmap, if_true, Mapping.ret_pageMask, ne_eq]
  by_cases ht : k.mapText = .granted
  · by_cases hsize : l.data.size = 0
    · simp only [ht, hsize, not_true_eq_false, if_false, if_true, Int.lt_irrefl, Load.after_acts,
        List.singleton_append, storesInside_mmap, List.nil_append, htext, forall_const,
        false_implies]
      rw [bss_stores k l (hpaged l.text)]
      simp [not_mem_empty]
    · by_cases hd : k.mapData = .granted
      · simp only [ht, hd, hsize, not_true_eq_false, not_false_eq_true, if_false, Int.lt_irrefl,
          Load.after_acts, List.cons_append, List.nil_append, storesInside_mmap, htext, hdata,
          forall_const]
        have hboth : Paged [l.text.mapSpan, l.data.mapSpan] :=
          (hpaged l.text).append (hpaged l.data)
        rw [bss_stores k l hboth]
        simp
      · simp only [ht, hd, hsize, not_true_eq_false, not_false_eq_true, if_false, if_true, hneg,
          storesInside_mmap, storesInside_nil, forall_const, false_implies]
  · simp only [ht, not_false_eq_true, if_true, hneg, storesInside_mmap, storesInside_nil,
      false_implies]

/-- An image that is read in stores twice before its bss step. -/
theorem read_stores_iff (hread : (k.mmapOp && l.aligned) = false) :
    StoresInside [] (coffImage k l).acts ↔ ReadStores k l := by
  have hacts : (coffImage k l).acts = (readImage k l).acts ++ (bssImage k l).acts := by
    unfold coffImage
    rw [hread]
    rfl
  have htwo : ∀ x, (∃ r ∈ k.brkText.spans l.text.vaddr l.text.size ++
      k.brkData.spans l.data.vaddr l.data.size, x ∈ r) ↔
      x ∈ k.brkText.span l.text.vaddr l.text.size ∨
        x ∈ k.brkData.span l.data.vaddr l.data.size := by
    intro x
    simp [or_and_right, exists_or, Mapping.mem_spans]
  rw [hacts]
  unfold readImage
  simp only [List.cons_append, List.nil_append, storesInside_brk, storesInside_read]
  rw [stores_within fun x => Mapping.mem_spans, stores_withinTwo htwo,
    bss_stores k l ((k.brkText.paged_spans _ _).append (k.brkData.paged_spans _ _)), htwo]
  constructor
  · intro h
    exact ⟨h.1.1, h.1.2, h.2.1.1, h.2.1.2, h.2.2⟩
  · intro h
    exact ⟨⟨h.dataUser, h.dataMapped⟩, ⟨h.textUser, h.textMapped⟩, h.clear⟩

theorem coff_stores_iff (k : Services) (f : File) (binary : Bool) :
    StoresInside [] (coffLoadObject k f binary).acts ↔ StoresFit k f binary := by
  unfold StoresFit
  cases hacc : accepts k f binary with
  | none =>
    exact iff_of_true (storesInside_quiet (coffLoadObject_refuses hacc) []) nofun
  | some l =>
    obtain ⟨pre, post, hpre, hpost, hacts, -⟩ := coffLoadObject_accepts hacc
    rw [hacts, storesInside_append, storesInside_append, mapped_quiet hpre, List.append_nil,
      and_iff_right (storesInside_quiet hpre []), and_iff_left (storesInside_quiet hpost _)]
    constructor
    · intro h l' hl'
      obtain rfl := Option.some.inj hl'
      split
      next hmap => exact (map_stores_iff hmap).mp h
      next hread => exact (read_stores_iff (Bool.not_eq_true _ ▸ hread)).mp h
    · intro h
      have hl := h l rfl
      split at hl
      next hmap => exact (map_stores_iff hmap).mpr hl
      next hread => exact (read_stores_iff (Bool.not_eq_true _ ▸ hread)).mpr hl

end Coff

namespace Xout

/-! ## x.out: the conditions -/

/-- The pages mapped for the bss of a segment of a pageable file. -/
def Xseg.bssPages (s : Xseg) : Span :=
  if 4096 ≤ s.bssBase.toNat then
    Span.pages ⟨(pageAlign s.bssBase).toNat,
      (s.xsVsize - s.xsPsize - (pageAlign s.bssBase - s.bssBase)).toNat⟩
  else Span.pages ⟨s.bssBase.toNat, (s.xsVsize - s.xsPsize).toNat⟩

/-- The pages mapped for the file part. -/
def Xseg.filePages (s : Xseg) : Span := Span.pages ⟨s.xsRbase.toNat, s.xsPsize.toNat⟩

/-- The address is in a page the first round maps for the segment. -/
def Xseg.Maps (paged : Bool) (s : Xseg) (x : Nat) : Prop :=
  if paged then x ∈ s.filePages ∨ s.xsVsize ≠ s.xsPsize ∧ x ∈ s.bssPages
  else x ∈ Span.pages ⟨s.xsRbase.toNat, s.xsVsize.toNat⟩

/-- `xout_amen` clears bytes for the segment: its mapping is granted, it has a bss, and the
bss starts in the middle of a page other than the first. -/
def clears (e : Entry) : Prop :=
  e.2.map = .granted ∧ e.1.xsRbase.toNat < 2 ^ 31 ∧ e.1.xsVsize ≠ e.1.xsPsize ∧
    4096 ≤ e.1.bssBase.toNat ∧ e.1.bssBase.toNat % 4096 ≠ 0

/-- The condition for a pageable file: a page in which bytes are cleared is the user's and
was mapped for the same segment or for one before it. -/
def PagedStores (k : Services) (f : File) : Prop :=
  ∀ pre e post, entries k f = pre ++ e :: post → e.1.isMem = true →
    (∀ e' ∈ pre, e'.1.isMem = true → accepted true e') → clears e →
    e.1.bssBase.toNat < putLimit k.kernelDs →
    pageUp e.1.bssBase.toNat ≤ taskSize ∧
      (e.1.bssBase.toNat ∈ e.1.filePages ∨
        ∃ e' ∈ pre, e'.1.isMem = true ∧ e'.1.Maps true e.1.bssBase.toNat)

/-- The condition for a file that is read in: if all memory segments are mapped, what is
read of a text or data segment lies below `TASK_SIZE` and in their pages. -/
def ReadStores (k : Services) (f : File) : Prop :=
  (∀ e ∈ entries k f, e.1.isMem = true → accepted false e) →
  ∀ pre e post, entries k f = pre ++ e :: post → e.1.isFile = true →
    (∀ e' ∈ pre, e'.1.isFile = true → e'.2.read = e'.1.xsPsize) →
    ∀ x ∈ (⟨e.1.xsRbase.toNat, bytesRead e.1 e.2⟩ : Span),
      x < taskSize ∧ ∃ e' ∈ entries k f, e'.1.isMem = true ∧ e'.1.Maps false x

/-- The condition for a file: nothing is stored for one that is not accepted. -/
def StoresFit (k : Services) (f : File) (executable : Bool) : Prop :=
  accepts k f executable → if pageable k f then PagedStores k f else ReadStores k f

/-! ## x.out: one segment -/

theorem pageAlign_sub (w : Word) : (pageAlign w - w).toNat = pageUp w.toNat - w.toNat := by
  rw [BitVec.toNat_sub, pageAlign_toNat]
  unfold pageDown pageUp
  omega

variable {kernelDs : Bool}

theorem pageUp_le_putLimit {n : Nat} (h : n < putLimit kernelDs) :
    pageUp n ≤ putLimit kernelDs := by
  -- both limits are the start of a page
  have hlimit : putLimit kernelDs % 4096 = 0 := by
    cases kernelDs
    · rfl
    · rfl
  unfold pageUp
  omega

/-- The stores of `xout_amen` for a segment of a pageable file. -/
theorem amen_stores {e : Entry} (hp : Paged rs) :
    StoresInside rs (xoutAmen kernelDs false true e.1 e.2).acts ↔
      (clears e → e.1.bssBase.toNat < putLimit kernelDs →
        pageUp e.1.bssBase.toNat ≤ taskSize ∧
          (e.1.bssBase.toNat ∈ e.1.filePages ∨ ∃ r ∈ rs, e.1.bssBase.toNat ∈ r)) := by
  rw [xoutAmen_paged]
  split
  next hbss =>
    obtain ⟨hmap, hlow, hne⟩ := hbss
    split
    next hpage =>
      simp only [storesInside_mmap, clearMemory, storesInside_clear, storesInside_nil, and_true,
        hmap, pageAlign_sub]
      by_cases hlimit : e.1.bssBase.toNat < putLimit kernelDs
      · have hlen : min (pageUp e.1.bssBase.toNat - e.1.bssBase.toNat)
            (putLimit kernelDs - e.1.bssBase.toNat) =
            pageUp e.1.bssBase.toNat - e.1.bssBase.toNat := by
          have hup := pageUp_le_putLimit hlimit
          omega
        rw [hlen]
        by_cases hmod : e.1.bssBase.toNat % 4096 = 0
        · -- the bss starts on a page: the span is empty
          refine iff_of_true (fun x hx => ?_) fun hc => absurd hmod hc.2.2.2.2
          have hge : e.1.bssBase.toNat ≤ x := hx.1
          have hlt : x < e.1.bssBase.toNat + (pageUp e.1.bssBase.toNat - e.1.bssBase.toNat) := hx.2
          unfold pageUp at hlt
          omega
        · rw [restOfPage_inside (hp.append (Mapping.paged_spans _ _ _)) hmod]
          simp only [List.mem_append, or_and_right, exists_or, Mapping.mem_spans]
          have hown : Mapping.span e.1.xsRbase e.1.xsPsize .granted = e.1.filePages := rfl
          rw [hown, or_comm]
          exact ⟨fun h _ _ => h, fun h => h ⟨hmap, hlow, hne, hpage, hmod⟩ hlimit⟩
      · refine iff_of_true (fun x hx => ?_) fun _ h => absurd h hlimit
        have hge : e.1.bssBase.toNat ≤ x := hx.1
        have hlt : x < e.1.bssBase.toNat + min (pageUp e.1.bssBase.toNat - e.1.bssBase.toNat)
          (putLimit kernelDs - e.1.bssBase.toNat) := hx.2
        omega
    next hpage =>
      refine iff_of_true ?_ fun hc => absurd hc.2.2.2.1 hpage
      exact storesInside_mmap.mpr (storesInside_mmap.mpr trivial)
  next hstop =>
    exact iff_of_true (storesInside_mmap.mpr trivial)
      fun hc => absurd ⟨hc.1, hc.2.1, hc.2.2.1⟩ hstop

/-! ## x.out: the rounds -/

/-- To say something of every entry of a list and the entries before it, say it of the
first and go on with the rest. -/
theorem forall_split_cons {α : Type} {P : List α → α → Prop} {a : α} {as : List α} :
    (∀ pre e post, a :: as = pre ++ e :: post → P pre e) ↔
      P [] a ∧ ∀ pre e post, as = pre ++ e :: post → P (a :: pre) e := by
  constructor
  · intro h
    exact ⟨h [] a as rfl, fun pre e post hsplit => h (a :: pre) e post (by rw [hsplit]; rfl)⟩
  · intro h pre e post hsplit
    cases pre with
    | nil =>
      obtain ⟨rfl, -⟩ := List.cons.inj hsplit
      exact h.1
    | cons b pre =>
      obtain ⟨rfl, hrest⟩ := List.cons.inj hsplit
      exact h.2 pre e post hrest

/-- The pages the first round maps for one entry. -/
def entrySpans (kernelDs paged : Bool) (e : Entry) : List Span :=
  (entryActs kernelDs paged e).flatMap Act.mapped

variable {kernelDs paged : Bool} {es : List Entry}

/-- The stores of the first round: an entry is reached if those before it are accepted,
and finds their pages in place. -/
theorem mapSegs_stores :
    ∀ {rs : List Span} {err : Int} {mm : Mm}, 0 ≤ err →
      (StoresInside rs (mapSegs kernelDs paged err mm es).1.acts ↔
        ∀ pre e post, es = pre ++ e :: post → e.1.isMem = true →
          (∀ e' ∈ pre, e'.1.isMem = true → accepted paged e') →
          StoresInside (rs ++ pre.flatMap (entrySpans kernelDs paged))
            (xoutAmen kernelDs false paged e.1 e.2).acts) := by
  induction es with
  | nil =>
    intro rs err mm _
    exact iff_of_true trivial fun pre e post h => absurd h (by simp)
  | cons e es ih =>
    intro rs err mm herr
    rw [forall_split_cons]
    unfold mapSegs
    rw [if_neg (Int.not_lt.mpr herr)]
    by_cases hmem : e.1.isMem = true
    · have hspans : entrySpans kernelDs paged e =
          (xoutAmen kernelDs false paged e.1 e.2).acts.flatMap Act.mapped := by
        unfold entrySpans entryActs
        rw [if_pos hmem]
      simp only [hmem, if_true, Load.after_acts, storesInside_append, List.flatMap_nil,
        List.append_nil, List.flatMap_cons, List.forall_mem_cons, forall_const, hspans,
        List.not_mem_nil, false_implies]
      refine and_congr_right fun _ => ?_
      by_cases hacc : accepted paged e
      · simp only [hacc, true_and]
        rw [ih ((amen_nonneg_iff kernelDs paged e).mpr hacc)]
        simp
      · -- the round stops after this entry
        rw [mapSegs_neg (Int.not_le.mp fun h => hacc ((amen_nonneg_iff kernelDs paged e).mp h))]
        exact iff_of_true trivial fun pre e' post _ _ hpre => absurd hpre.1 hacc
    · have hspans : entrySpans kernelDs paged e = [] := by
        unfold entrySpans entryActs
        rw [if_neg hmem]
        rfl
      simp only [hmem, Bool.false_eq_true, if_false, List.flatMap_cons, List.forall_mem_cons,
        false_implies, true_and, hspans, List.nil_append]
      exact ih herr

/-- The pages of an accepted memory segment. -/
theorem mem_entrySpans {e : Entry} (hmem : e.1.isMem = true) (hacc : accepted paged e) :
    (∃ r ∈ entrySpans kernelDs paged e, x ∈ r) ↔ e.1.Maps paged x := by
  obtain ⟨hmap, hlow, hbss⟩ := hacc
  unfold entrySpans entryActs Xseg.Maps Xseg.bssPages Xseg.filePages
  cases paged with
  | false => simp [hmem, hmap, xoutAmen, Act.mapped, Mapping.spans]
  | true =>
    rw [if_pos hmem, xoutAmen_paged]
    by_cases hsame : e.1.xsVsize = e.1.xsPsize
    · simp [hmap, hsame, Act.mapped, Mapping.spans]
    · obtain ⟨hgrant, -⟩ := hbss rfl hsame
      rw [if_pos ⟨hmap, hlow, hsame⟩]
      by_cases hpage : 4096 ≤ e.1.bssBase.toNat
      · simp [hmap, hsame, hpage, hgrant, Act.mapped, Mapping.spans, clearMemory]
      · simp [hmap, hsame, hpage, hgrant, Act.mapped, Mapping.spans]

/-- The pages in place after accepted entries. -/
theorem mem_roundSpans (hacc : ∀ e ∈ es, e.1.isMem = true → accepted paged e) :
    (∃ r ∈ es.flatMap (entrySpans kernelDs paged), x ∈ r) ↔
      ∃ e ∈ es, e.1.isMem = true ∧ e.1.Maps paged x := by
  simp only [List.mem_flatMap]
  constructor
  · intro h
    obtain ⟨r, ⟨e, he, hr⟩, hx⟩ := h
    by_cases hmem : e.1.isMem = true
    · exact ⟨e, he, hmem, (mem_entrySpans hmem (hacc e he hmem)).mp ⟨r, hr, hx⟩⟩
    · unfold entrySpans entryActs at hr
      rw [if_neg hmem] at hr
      exact nomatch hr
  · intro h
    obtain ⟨e, he, hmem, hx⟩ := h
    obtain ⟨r, hr, hx⟩ := (mem_entrySpans hmem (hacc e he hmem)).mpr hx
    exact ⟨r, ⟨e, he, hr⟩, hx⟩

variable {err : Int}

/-- The stores of the second round: an entry is reached if the reads before it are
complete. -/
theorem readSegs_stores : StoresInside rs (readSegs err es).acts ↔
      ∀ pre e post, es = pre ++ e :: post → e.1.isFile = true →
        (∀ e' ∈ pre, e'.1.isFile = true → e'.2.read = e'.1.xsPsize) →
        ∀ x ∈ (⟨e.1.xsRbase.toNat, bytesRead e.1 e.2⟩ : Span), ByteInside rs x := by
  induction es with
  | nil => exact iff_of_true trivial fun pre e post h => absurd h (by simp)
  | cons e es ih =>
    rw [forall_split_cons]
    unfold readSegs
    by_cases hfile : e.1.isFile = true
    · by_cases hread : e.2.read = e.1.xsPsize
      · simp [hfile, hread, readSeg, storesInside_read, ih]
      · simp [hfile, hread, readSeg, storesInside_read]
    · simp only [hfile, Bool.false_eq_true, if_false, List.forall_mem_cons, false_implies, true_and]
      exact ih

/-! ## x.out: the whole load -/

theorem pagedImage_stores {f : File} {mm : Mm} (herr : 0 ≤ err) (hpage : pageable k f = true) :
    StoresInside [] (xoutImage k f err mm).1.acts ↔ PagedStores k f := by
  have hacts : xoutImage k f err mm = mapSegs k.kernelDs true err mm (entries k f) := by
    unfold xoutImage
    simp [hpage]
  rw [hacts, mapSegs_stores herr]
  -- entry by entry: the pages in place are those of the accepted entries before it
  refine forall_congr' fun pre => forall_congr' fun e => forall_congr' fun post =>
    imp_congr_right fun _ => imp_congr_right fun _ => imp_congr_right fun hpre => ?_
  have hpaged : Paged (pre.flatMap (entrySpans k.kernelDs true)) :=
    paged_flatMap (fun e' => paged_flatMap Act.paged_mapped _) pre
  rw [List.nil_append, amen_stores hpaged, mem_roundSpans hpre]

/-- A file that is read in stores nothing before the second round, and does not get there
when a mapping is refused. -/
theorem readImage_stores {f : File} {mm : Mm} (herr : 0 ≤ err) (hread : pageable k f = false) :
    StoresInside [] (xoutImage k f err mm).1.acts ↔ ReadStores k f := by
  have hfirst : StoresInside [] (mapSegs k.kernelDs false err mm (entries k f)).1.acts := by
    rw [mapSegs_stores herr]
    intro pre e post _ _ _
    exact storesInside_mmap.mpr trivial
  unfold xoutImage ReadStores
  simp only [hread, Bool.false_eq_true, false_or]
  by_cases hall : ∀ e ∈ entries k f, e.1.isMem = true → accepted false e
  · obtain ⟨hstatus, hacts⟩ := mapSegs_ok
      (fun e he hmem => (amen_nonneg_iff k.kernelDs false e).mpr (hall e he hmem)) err mm herr
    rw [if_neg (Int.not_lt.mpr hstatus), Load.after_acts, storesInside_append,
      and_iff_right hfirst, hacts, List.nil_append, readSegs_stores, List.flatMap_assoc]
    rw [forall_prop_of_true hall]
    refine forall_congr' fun pre => forall_congr' fun e => forall_congr' fun post =>
      imp_congr_right fun _ => imp_congr_right fun _ => imp_congr_right fun _ =>
      forall_congr' fun x => imp_congr_right fun _ => and_congr_right fun _ => ?_
    exact mem_roundSpans hall
  · refine iff_of_true ?_ fun h => absurd h hall
    push Not at hall
    obtain ⟨e, he, hmem, hrefused⟩ := hall
    rw [if_pos]
    · exact hfirst
    · refine mapSegs_refused he hmem (Int.not_le.mp fun h => hrefused ?_) err mm
      exact (amen_nonneg_iff k.kernelDs false e).mp h

theorem xout_stores_iff (k : Services) (f : File) (executable : Bool) :
    StoresInside [] (xoutLoadObject k f executable).acts ↔ StoresFit k f executable := by
  unfold StoresFit
  by_cases hacc : accepts k f executable
  · obtain ⟨pre, post, hpre, hpost, hacts⟩ := xoutLoadObject_accepts hacc
    have herr : 0 ≤ startErr k executable := by
      unfold startErr
      split
      next hexec => exact hacc.2.2.2.2 hexec
      · exact hacc.2.2.1
    rw [hacts, storesInside_append, storesInside_append, mapped_quiet hpre, List.append_nil,
      and_iff_right (storesInside_quiet hpre []), and_iff_left (storesInside_quiet hpost _),
      forall_prop_of_true hacc]
    split
    next hpage => exact pagedImage_stores herr hpage
    next hread => exact readImage_stores herr (Bool.not_eq_true _ ▸ hread)
  · exact iff_of_true (storesInside_quiet (xoutLoadObject_refuses hacc) []) fun h => absurd h hacc

end Xout

/-! ## Both loaders -/

/-- The loaders store only into user pages that they have mapped themselves, exactly for
the headers and answers that fit. -/
theorem loaders_store_inside_iff (kc : Coff.Services) (coff : Coff.File) (binary : Bool)
    (kx : Xout.Services) (xout : Xout.File) (executable : Bool) :
    (StoresInside [] (Coff.coffLoadObject kc coff binary).acts ↔ Coff.StoresFit kc coff binary) ∧
    (StoresInside [] (Xout.xoutLoadObject kx xout executable).acts ↔
      Xout.StoresFit kx xout executable) :=
  ⟨Coff.coff_stores_iff kc coff binary, Xout.xout_stores_iff kx xout executable⟩

/-- On a file system that cannot map, the data of a COFF executable is read to its address,
here the first of the kernel's, before anything is mapped for it. The same goes for an x.out
data segment outside the memory image. -/
theorem loaders_store_outside :
    let text : Coff.Sect := ⟨0x1000, 0x1000, 0x1000⟩
    let data : Coff.Sect := ⟨0x2000, 0x1000, 0xC0000000⟩
    let bss : Coff.Sect := ⟨0, 0, 0x3000⟩
    let segment : Xout.Xseg := ⟨2, 0, 0, 0x1000, 0x1000, 0xC0000000⟩
    ¬ StoresInside [] (Coff.coffLoadObject { Coff.plainServices with mmapOp := false }
      (Coff.executable text data bss) true).acts ∧
    ¬ StoresInside [] (Xout.xoutLoadObject { Xout.plainServices 0x1000 with mmapOp := false }
      (Xout.oneSegment segment) true).acts := by
  intro text data bss segment
  constructor
  · intro h
    have hfit := (Coff.coff_stores_iff _ _ _).mp h (Coff.executableLayout text data bss true)
      (by decide)
    exact absurd hfit.dataMapped (by decide)
  · intro h
    have hfit := (Xout.xout_stores_iff _ _ _).mp h (by decide)
    have htable : Xout.entries { Xout.plainServices 0x1000 with mmapOp := false }
        (Xout.oneSegment segment) = [(segment, ⟨.granted, .granted, 0x1000⟩)] := by decide
    unfold Xout.ReadStores at hfit
    rw [htable] at hfit
    have hplaced : ∀ e ∈ [(segment, ⟨.granted, .granted, 0x1000⟩)],
        e.1.isMem = true → Xout.accepted false e := by
      intro e he hmem
      obtain rfl := List.mem_singleton.mp he
      exact absurd hmem (by decide)
    -- the read begins at the limit itself
    have hbyte := hfit hplaced [] _ [] rfl rfl (nofun) 0xC0000000 ⟨by decide, by decide⟩
    exact nomatch hbyte.1

end AbiEmu.Binfmt
