import AbiEmu.Binfmt.Coff

/-!
# What the COFF loader gives back

A load takes three things for its own use: a buffer for the section table, a
descriptor for the file, and the kernel's address limit while it fills user
memory. `Ledger` follows them through the acts of a load. A step that frees or
closes twice, or without having allocated or installed, has no ledger after it;
so a ledger at the end whose buffer and descriptor are not held any more says
that each was given back exactly once.

The buffer and the descriptor are given back on every path. The address limit is
not: the labels that clean up lie behind the `set_fs` that restores it, and a
mapping that fails, or a bss at the very top of the address space, jumps to them
from the region where the limit is lifted.
-/

namespace AbiEmu.Binfmt

open AbiEmu.Span (pageUp)

/-! ## The ledger -/

/-- Where a thing is that has to be given back. -/
inductive Holding (α : Type) where
  | never
  | held (a : α)
  | back
  deriving DecidableEq, Repr

/-- The thing is not held. -/
def Holding.settled {α : Type} : Holding α → Prop
  | .held _ => False
  | _ => True

/-- What a load has taken and given back. -/
structure Ledger where
  /-- The address limit is the kernel's. -/
  kernelDs : Bool
  buffer : Holding Unit
  descriptor : Holding Word
  deriving DecidableEq, Repr

/-- At entry nothing is taken. -/
def Ledger.entry (kernelDs : Bool) : Ledger := ⟨kernelDs, .never, .never⟩

/-- One act; `none` if it gives back what is not held or takes what it has. -/
def Ledger.step (g : Ledger) : Act → Option Ledger
  | .kmalloc => if g.buffer = .never then some { g with buffer := .held () } else none
  | .kfree => if g.buffer = .held () then some { g with buffer := .back } else none
  | .fdInstall fd =>
    if g.descriptor = .never then some { g with descriptor := .held fd } else none
  | .sysClose fd =>
    if g.descriptor = .held fd then some { g with descriptor := .back } else none
  | .setFs kernelDs => some { g with kernelDs := kernelDs }
  | _ => some g

/-- The ledger after a list of acts. -/
def Ledger.after (g : Ledger) : List Act → Option Ledger
  | [] => some g
  | a :: as => (g.step a).bind fun g' => g'.after as

/-- The acts give everything back: the buffer and the descriptor exactly once each if they
were taken, and the address limit is the one at entry. -/
def GivesBack (kernelDs : Bool) (acts : List Act) : Prop :=
  ∃ g, (Ledger.entry kernelDs).after acts = some g ∧
    g.kernelDs = kernelDs ∧ g.buffer.settled ∧ g.descriptor.settled

variable (g : Ledger)

@[simp] theorem Ledger.after_nil : g.after [] = some g := rfl

@[simp] theorem Ledger.after_cons (a : Act) (as : List Act) :
    g.after (a :: as) = (g.step a).bind fun g' => g'.after as := rfl

theorem Ledger.after_append (as bs : List Act) :
    g.after (as ++ bs) = (g.after as).bind fun g' => g'.after bs := by
  induction as generalizing g with
  | nil => rfl
  | cons a as ih =>
    rw [List.cons_append, Ledger.after_cons, Ledger.after_cons]
    cases g.step a with
    | none => rfl
    | some g' => exact ih g'

/-! ## Acts that concern the limit only -/

/-- An act that takes or gives back neither buffer nor descriptor. -/
def Act.loose : Act → Bool
  | .kmalloc | .kfree | .fdInstall _ | .sysClose _ => false
  | _ => true

/-- The address limit after an act. -/
def Act.limit (kernelDs : Bool) : Act → Bool
  | .setFs ds => ds
  | _ => kernelDs

/-- The address limit after a list of acts. -/
def limitAfter (kernelDs : Bool) (acts : List Act) : Bool := acts.foldl Act.limit kernelDs

theorem Ledger.step_loose {a : Act} (h : a.loose = true) :
    g.step a = some { g with kernelDs := a.limit g.kernelDs } := by
  cases a <;> first | rfl | exact nomatch h

variable {acts : List Act}

/-- Loose acts move the limit and nothing else. -/
theorem Ledger.after_loose (h : acts.all Act.loose = true) :
    g.after acts = some { g with kernelDs := limitAfter g.kernelDs acts } := by
  induction acts generalizing g with
  | nil => rfl
  | cons a as ih =>
    rw [List.all_cons, Bool.and_eq_true] at h
    rw [Ledger.after_cons, g.step_loose h.1, Option.bind_some, ih _ h.2]
    rfl

/-- Between a buffer and a descriptor that are taken first and given back last, everything
depends on the limit. -/
theorem givesBack_iff {kernelDs : Bool} {fd : Word} (h : acts.all Act.loose = true) :
    GivesBack kernelDs ([.kmalloc, .fdInstall fd] ++ acts ++ [.sysClose fd, .kfree]) ↔
      limitAfter kernelDs acts = kernelDs := by
  have hafter : (Ledger.entry kernelDs).after
      ([.kmalloc, .fdInstall fd] ++ acts ++ [.sysClose fd, .kfree]) =
      some ⟨limitAfter kernelDs acts, .back, .back⟩ := by
    show (Ledger.after ⟨kernelDs, .held (), .held fd⟩ (acts ++ _)) = _
    rw [Ledger.after_append, Ledger.after_loose _ h]
    simp [Ledger.step]
  unfold GivesBack
  rw [hafter]
  constructor
  · intro hback
    obtain ⟨g, hg, hlimit, -, -⟩ := hback
    obtain rfl := Option.some.inj hg
    exact hlimit
  · intro hlimit
    exact ⟨_, rfl, hlimit, trivial, trivial⟩

theorem limitAfter_append (kernelDs : Bool) (as bs : List Act) :
    limitAfter kernelDs (as ++ bs) = limitAfter (limitAfter kernelDs as) bs :=
  List.foldl_append

/-- An act on user memory concerns neither the limit nor the ledger. -/
theorem Act.loose_of_busy {a : Act} (h : a.quiet = false) (kernelDs : Bool) :
    a.loose = true ∧ a.limit kernelDs = kernelDs := by
  cases a <;> first | exact ⟨rfl, rfl⟩ | exact nomatch h

/-- The acts are on user memory. -/
def Busy (acts : List Act) : Prop := ∀ a ∈ acts, a.quiet = false

theorem Busy.append {as bs : List Act} (ha : Busy as) (hb : Busy bs) : Busy (as ++ bs) :=
  fun a h => (List.mem_append.mp h).elim (ha a) (hb a)

theorem Busy.loose (h : Busy acts) : acts.all Act.loose = true :=
  List.all_eq_true.mpr fun a ha => (Act.loose_of_busy (h a ha) false).1

theorem Busy.limit (h : Busy acts) (kernelDs : Bool) : limitAfter kernelDs acts = kernelDs := by
  induction acts with
  | nil => rfl
  | cons a as ih =>
    have hhead := (Act.loose_of_busy (h a (List.mem_cons_self ..)) kernelDs).2
    show limitAfter (a.limit kernelDs) as = kernelDs
    rw [hhead]
    exact ih fun b hb => h b (List.mem_cons_of_mem a hb)

/-- Signals are sent under whatever limit there is. -/
theorem trap_loose (ptraced : Bool) (status : Int) (kernelDs : Bool) :
    (trap ptraced status).all Act.loose = true ∧
      limitAfter kernelDs (trap ptraced status) = kernelDs := by
  unfold trap
  split
  · exact ⟨rfl, rfl⟩
  · split <;> exact ⟨rfl, rfl⟩

namespace Coff

/-! ## Filling memory -/

theorem busy_mapCoff (sect : Sect) (off : Word) (answer : Mapping) :
    Busy [mapCoff sect off answer] := by
  intro a ha
  obtain rfl := List.mem_singleton.mp ha
  rfl

section

variable (k : Services) (l : Layout)

include k l

theorem mapImage_busy : Busy (mapImage k l).acts := by
  have hboth : Busy [mapCoff l.text (pageMask l.text.scnptr) k.mapText,
      mapCoff l.data (pageMask l.data.scnptr) k.mapData] :=
    (busy_mapCoff _ _ _).append (busy_mapCoff _ _ _)
  unfold mapImage
  split
  · exact busy_mapCoff _ _ _
  · split
    · exact busy_mapCoff _ _ _
    · split <;> exact hboth

theorem readImage_busy : Busy (readImage k l).acts := by
  intro a ha
  unfold readImage at ha
  simp only [List.mem_cons, List.not_mem_nil, or_false] at ha
  rcases ha with rfl | rfl | rfl | rfl <;> rfl

theorem bssImage_busy : Busy (bssImage k l).acts := by
  have hmap : ∀ addr len : Word, Busy [.mmap false addr len 0 k.mapBss] := by
    intro addr len a ha
    obtain rfl := List.mem_singleton.mp ha
    rfl
  have hclear : ∀ (addr : Word) (n : Nat), Busy [.clear addr n] := by
    intro addr n a ha
    obtain rfl := List.mem_singleton.mp ha
    rfl
  unfold bssImage
  rw [coffClearMemory_eq]
  split
  · exact nofun
  · refine (hmap _ _).append ?_
    split
    · exact nofun
    · split
      · exact nofun
      · exact hclear _ _

theorem coffImage_busy : Busy (coffImage k l).acts := by
  have himage : Busy (if k.mmapOp && l.aligned then mapImage k l else readImage k l).acts := by
    split
    · exact mapImage_busy k l
    · exact readImage_busy k l
  unfold coffImage
  dsimp only
  generalize (if k.mmapOp && l.aligned then mapImage k l else readImage k l) = image at himage ⊢
  split
  · exact himage
  · exact himage.append (bssImage_busy k l)

end

/-! ## When filling memory fails -/

/-- The mappings of a mapped image succeed. -/
def MapsIn (k : Services) (l : Layout) : Prop :=
  k.mapText = .granted ∧ (l.data.size ≠ 0 → k.mapData = .granted)

/-- The bss does not start inside the last page of the address space. -/
def Layout.BssBelowTop (l : Layout) : Prop :=
  l.bss.size ≠ 0 → l.bss.vaddr.toNat % 4096 ≠ 0 → pageUp l.bss.vaddr.toNat < 2 ^ 32

variable (k : Services) (l : Layout)

theorem mapImage_ok : 0 ≤ (mapImage k l).status ↔ MapsIn k l := by
  have hneg : ¬ 0 ≤ -ENOEXEC := by decide
  unfold mapImage MapsIn
  simp only [ne_eq, Mapping.ret_pageMask]
  split
  next ht => exact iff_of_false hneg fun h => ht h.1
  next ht =>
    split
    next hsize => exact iff_of_true (Int.le_refl 0) ⟨not_not.mp ht, fun h => absurd hsize h⟩
    next hsize =>
      split
      next hd => exact iff_of_false hneg fun h => hd (h.2 hsize)
      next hd => exact iff_of_true (Int.le_refl 0) ⟨not_not.mp ht, fun _ => not_not.mp hd⟩

theorem bssImage_ok : 0 ≤ (bssImage k l).status ↔ l.BssBelowTop := by
  unfold bssImage Layout.BssBelowTop
  rw [coffClearMemory_eq]
  split
  next h0 => exact iff_of_true (Int.le_refl 0) fun h => absurd h0 h
  next hsize =>
    rw [Load.after_status]
    split
    next h0 => exact iff_of_true (Int.le_refl 0) fun _ h => absurd h0 h
    next hmod =>
      split
      next hwrap =>
        exact iff_of_false (by decide) fun h => Nat.not_lt.mpr hwrap (h hsize hmod)
      next hfit => exact iff_of_true (Int.le_refl 0) fun _ _ => Nat.lt_of_not_le hfit

/-- Filling memory succeeds. -/
def FillsIn (k : Services) (l : Layout) : Prop :=
  ((k.mmapOp && l.aligned) = true → MapsIn k l) ∧ l.BssBelowTop

theorem coffImage_ok : 0 ≤ (coffImage k l).status ↔ FillsIn k l := by
  have himage : 0 ≤ (if k.mmapOp && l.aligned then mapImage k l else readImage k l).status ↔
      ((k.mmapOp && l.aligned) = true → MapsIn k l) := by
    split
    next hmap => exact (mapImage_ok k l).trans ⟨fun h _ => h, fun h => h hmap⟩
    next hread => exact iff_of_true (Int.le_refl 0) fun h => absurd h hread
  unfold coffImage FillsIn
  dsimp only
  generalize (if k.mmapOp && l.aligned then mapImage k l else readImage k l) = image at himage ⊢
  split
  next hneg =>
    exact iff_of_false (Int.not_le.mpr hneg) fun h => Int.not_le.mpr hneg (himage.mpr h.1)
  next hok =>
    rw [Load.after_status, bssImage_ok]
    exact ⟨fun h => ⟨himage.mp (Int.not_lt.mp hok), h⟩, fun h => h.2⟩

/-! ## The whole load -/

/-- Filling memory ends under the kernel's limit if it fails, and under the limit at entry
otherwise. -/
theorem coffObject_loose (binary : Bool) (kernelDs : Bool) :
    (coffObject k l binary).acts.all Act.loose = true ∧
      limitAfter kernelDs (coffObject k l binary).acts =
        if (coffImage k l).status < 0 then true else k.kernelDs := by
  have hbusy := coffImage_busy k l
  have hlift : limitAfter kernelDs (.setFs true :: (coffImage k l).acts) = true :=
    hbusy.limit true
  have hloose : (.setFs true :: (coffImage k l).acts).all Act.loose = true := hbusy.loose
  unfold coffObject
  dsimp only [Load.after]
  split
  · exact ⟨hloose, hlift⟩
  · split
    · obtain ⟨htrap, hlimit⟩ := trap_loose k.ptraced
        (if l.libCount ≠ 0 then k.preloadShlibs else (coffImage k l).status) k.kernelDs
      refine ⟨?_, ?_⟩
      · rw [List.all_append, List.singleton_append, hloose, List.all_cons, htrap]
        rfl
      · rw [List.singleton_append, limitAfter_append, hlift]
        exact hlimit
    · refine ⟨?_, ?_⟩
      · rw [List.all_append, List.singleton_append, hloose]
        rfl
      · rw [List.singleton_append, limitAfter_append]
        rfl

/-- From the installed descriptor on, the limit moves only while memory is filled. -/
theorem withFile_loose (f : File) (binary : Bool) :
    (withFile k f binary).acts.all Act.loose = true ∧
      (limitAfter k.kernelDs (withFile k f binary).acts = k.kernelDs ↔
        (k.kernelDs = false → ∀ l, layout k f binary = some l →
          (binary = true → k.flushOldExec = 0 ∧ 0 ≤ k.setupArgPages) → FillsIn k l)) := by
  unfold withFile
  cases hlay : layout k f binary with
  | none => exact ⟨rfl, iff_of_true rfl nofun⟩
  | some l =>
    have hobject : limitAfter k.kernelDs (coffObject k l binary).acts = k.kernelDs ↔
        (k.kernelDs = false → FillsIn k l) := by
      rw [(coffObject_loose k l binary k.kernelDs).2, ← coffImage_ok]
      split
      next hneg =>
        cases hds : k.kernelDs with
        | false => exact iff_of_false nofun fun h => Int.not_le.mpr hneg (h rfl)
        | true => exact iff_of_true rfl nofun
      next hok => exact iff_of_true rfl fun _ => Int.not_lt.mp hok
    have hloose := (coffObject_loose k l binary k.kernelDs).1
    cases binary with
    | false =>
      refine ⟨hloose, hobject.trans ⟨fun h hds l' hl' _ => ?_, fun h hds => h hds l rfl nofun⟩⟩
      obtain rfl := Option.some.inj hl'
      exact h hds
    | true =>
      dsimp only
      rw [if_pos rfl]
      split
      next hflush =>
        exact ⟨rfl, iff_of_true rfl fun _ l' _ hb => absurd (hb rfl).1 hflush⟩
      next hflush =>
        split
        next hpages =>
          exact ⟨rfl, iff_of_true rfl fun _ l' _ hb => absurd (hb rfl).2 (Int.not_le.mpr hpages)⟩
        next hpages =>
          refine ⟨hloose, hobject.trans ⟨fun h hds l' hl' _ => ?_, fun h hds => ?_⟩⟩
          · obtain rfl := Option.some.inj hl'
            exact h hds
          · exact h hds l rfl fun _ => ⟨not_not.mp hflush, Int.not_lt.mp hpages⟩

/-- A load that stops before the descriptor gives back the buffer. -/
theorem givesBack_early (kernelDs : Bool) :
    GivesBack kernelDs [] ∧ GivesBack kernelDs [.kmalloc, .kfree] :=
  ⟨⟨_, rfl, rfl, trivial, trivial⟩, ⟨_, rfl, rfl, trivial, trivial⟩⟩

/-- The loader gives everything back, exactly if it enters under the kernel's limit or does
not fail while it fills memory. -/
theorem coff_gives_back_iff (k : Services) (f : File) (binary : Bool) :
    GivesBack k.kernelDs (coffLoadObject k f binary).acts ↔
      (k.kernelDs = false → ∀ l, accepts k f binary = some l → FillsIn k l) := by
  obtain ⟨hnone, hbuffer⟩ := givesBack_early k.kernelDs
  unfold coffLoadObject accepts
  split
  next hexec =>
    refine iff_of_true hnone fun _ l h => ?_
    rw [if_neg fun hok => by simp [hok.1] at hexec] at h
    exact nomatch h
  next hexec =>
    split
    next hmalloc =>
      refine iff_of_true hnone fun _ l h => ?_
      rw [if_neg fun hok => by simp [hok.2.1] at hmalloc] at h
      exact nomatch h
    next hmalloc =>
      split
      next hread =>
        refine iff_of_true hbuffer fun _ l h => ?_
        rw [if_neg fun hok => Int.not_lt.mpr hok.2.2.1 hread] at h
        exact nomatch h
      next hread =>
        split
        next hfd =>
          refine iff_of_true hbuffer fun _ l h => ?_
          rw [if_neg fun hok => hok.2.2.2.1 hfd] at h
          exact nomatch h
        next hfd =>
          obtain ⟨hloose, hlimit⟩ := withFile_loose k f binary
          rw [givesBack_iff hloose, hlimit]
          have hexec : f.filhdr.executable = true := by simpa using hexec
          have hmalloc : k.kmalloc = true := by simpa using hmalloc
          have hread : 0 ≤ k.readSections := Int.not_lt.mp hread
          refine forall_congr' fun _ => forall_congr' fun l => ?_
          by_cases hflush : binary = true → k.flushOldExec = 0 ∧ 0 ≤ k.setupArgPages
          · rw [if_pos ⟨hexec, hmalloc, hread, hfd, hflush⟩]
            exact ⟨fun h hl => h hl hflush, fun h hl _ => h hl⟩
          · rw [if_neg fun hok => hflush hok.2.2.2.2]
            exact iff_of_true (fun _ hb => absurd hb hflush) nofun

/-- The mapping of the text is refused with `-ENOMEM`: the load returns to a user process
that has the kernel's address limit from then on. -/
theorem refused_mapping_keeps_limit :
    let text : Sect := ⟨0x1000, 0x1000, 0x1000⟩
    let data : Sect := ⟨0x2000, 0x1000, 0x2000⟩
    let bss : Sect := ⟨0, 0, 0x3000⟩
    let k := { plainServices with mapText := .refused 11 }
    (coffLoadObject k (executable text data bss) true).status = -ENOEXEC ∧
    limitAfter false (coffLoadObject k (executable text data bss) true).acts = true ∧
    ¬ GivesBack false (coffLoadObject k (executable text data bss) true).acts := by
  intro text data bss k
  refine ⟨by decide, by decide, fun h => ?_⟩
  obtain ⟨g, hg, hlimit, -⟩ := h
  have hend : (Ledger.entry false).after (coffLoadObject k (executable text data bss) true).acts =
      some ⟨true, .back, .back⟩ := by decide
  rw [hend] at hg
  obtain rfl := Option.some.inj hg
  exact nomatch hlimit

end Coff

end AbiEmu.Binfmt
