import AbiEmu.Lib.Image
import AbiEmu.Lib.Word

/-!
# What a binary loader does to the task

`binfmt_coff.c` and `binfmt_xout.c` decide from a file's headers what to ask of
the kernel: allocate, install a descriptor, move the address limit, map pages,
read file bytes into user memory, clear bytes, send signals. A loader is modelled
as the list of these acts, in order, with its return value. Services outside the
loaders answer through a record of answers, and each mapping act carries its
answer: `do_mmap` with `MAP_FIXED` and `do_brk` return the address they were
asked for, or an error number.

Two meanings are read off the acts.

* `imageOf`: user memory after the load, for given file bytes and old memory. A
  granted mapping replaces whole pages, by zeros or by pages of the file; a read
  stores file bytes and a clear stores zeros.
* `StoresInside`: every byte that a read or a clear stores lies below
  `TASK_SIZE` and in a page that an earlier act of the same load had mapped.
-/

namespace AbiEmu.Binfmt

open AbiEmu.Span (pageDown pageUp)

/-! ## Words and pages -/

/-- `TASK_SIZE`, the first address that is not the user's. -/
def taskSize : Nat := 0xC0000000

/-- `w & PAGE_MASK`. -/
def pageMask (w : Word) : Word := w &&& 0xFFFFF000

/-- `w & ~PAGE_MASK`. -/
def pageOff (w : Word) : Word := w &&& 0xFFF

/-- `PAGE_ALIGN(w)`. -/
def pageAlign (w : Word) : Word := pageMask (w + 0xFFF)

variable (w : Word)

theorem pageOff_toNat : (pageOff w).toNat = w.toNat % 4096 := by
  unfold pageOff
  exact Nat.and_two_pow_sub_one_eq_mod w.toNat 12

theorem pageMask_toNat : (pageMask w).toNat = pageDown w.toNat := by
  have hmask : (0xFFFFF000 : Word) = BitVec.allOnes 32 <<< 12 := by decide
  rw [pageMask, hmask, Word.and_allOnes_shiftLeft_toNat]
  rfl

theorem pageAlign_toNat : (pageAlign w).toNat = pageDown ((w.toNat + 4095) % 2 ^ 32) := by
  unfold pageAlign
  rw [pageMask_toNat, BitVec.toNat_add]
  rfl

variable {w : Word}

/-- Away from the last page `PAGE_ALIGN` rounds up. -/
theorem pageAlign_eq_pageUp (h : w.toNat + 4095 < 2 ^ 32) :
    (pageAlign w).toNat = pageUp w.toNat := by
  rw [pageAlign_toNat, Nat.mod_eq_of_lt h]
  rfl

theorem ne_zero_of_lt {i : Nat} (hi : i < w.toNat) : w ≠ 0 := by
  intro h0
  rw [h0] at hi
  exact Nat.not_lt_zero i hi

theorem toInt_neg_iff : w.toInt < 0 ↔ 2 ^ 31 ≤ w.toNat := by
  rw [BitVec.toInt_eq_toNat_cond]
  split <;> omega

theorem sub_eq_zero_word {v w : Word} : v - w = 0 ↔ v = w := by
  rw [← BitVec.toNat_inj, ← BitVec.toNat_inj, BitVec.toNat_sub]
  show _ = 0 ↔ _
  omega

theorem pageMask_ne_zero : pageMask w ≠ 0 ↔ 4096 ≤ w.toNat := by
  rw [ne_eq, ← BitVec.toNat_inj, pageMask_toNat]
  show ¬ w.toNat / 4096 * 4096 = 0 ↔ _
  omega

/-! ## Answers and acts -/

/-- `EFAULT`. -/
def EFAULT : Int := 14
/-- `EINVAL`. -/
def EINVAL : Int := 22
/-- `ENOEXEC`. -/
def ENOEXEC : Int := 8
/-- `ENOMEM`. -/
def ENOMEM : Int := 12
/-- `SIGSEGV`. -/
def SIGSEGV : Nat := 11
/-- `SIGTRAP`. -/
def SIGTRAP : Nat := 5

/-- What a mapping service says. -/
inductive Mapping where
  /-- The pages are mapped at the address asked for. -/
  | granted
  /-- Error number `errno + 1`. -/
  | refused (errno : Fin 4095)
  deriving DecidableEq, Repr

/-- The word the service returns when asked for `addr`. -/
def Mapping.ret (addr : Word) : Mapping → Word
  | .granted => addr
  | .refused errno => -BitVec.ofNat 32 (errno + 1)

variable {answer : Mapping}

/-- A refused request never returns the page address asked for. -/
theorem Mapping.ret_pageMask : answer.ret (pageMask w) = pageMask w ↔ answer = .granted := by
  cases answer with
  | granted => exact ⟨fun _ => rfl, fun _ => rfl⟩
  | refused errno =>
    refine ⟨fun h => ?_, nofun⟩
    have hnat := congrArg BitVec.toNat h
    rw [pageMask_toNat] at hnat
    unfold Mapping.ret pageDown at hnat
    rw [BitVec.toNat_neg, BitVec.toNat_ofNat] at hnat
    omega

/-- The pages in place after the answer to a request for `len` bytes at `addr`. -/
def Mapping.spans (addr len : Word) : Mapping → List Span
  | .granted => [Span.pages ⟨addr.toNat, len.toNat⟩]
  | .refused _ => []

/-- An act of a loader. -/
inductive Act where
  /-- The buffer for the section or segment table. -/
  | kmalloc
  | kfree
  | fdInstall (fd : Word)
  | sysClose (fd : Word)
  /-- `set_fs`, to the kernel's limit or to the user's. -/
  | setFs (kernelDs : Bool)
  | flushOldExec
  | setPersonality (personality : Word)
  | setupArgPages
  | startThread (eip : Word)
  /-- `do_mmap` at a fixed address, of the file or (`file = false`) of zeros. -/
  | mmap (file : Bool) (addr len off : Word) (answer : Mapping)
  | brk (addr len : Word) (answer : Mapping)
  /-- A read that stores `n` bytes of the file from `pos` on at `addr`. -/
  | read (addr : Word) (pos : Int) (n : Nat)
  /-- `n` zero bytes stored from `addr` on. -/
  | clear (addr : Word) (n : Nat)
  | sendSig (sig : Nat)
  deriving DecidableEq, Repr

/-- What a loader did and what it returned. -/
structure Load where
  acts : List Act
  status : Int
  deriving DecidableEq, Repr

/-- The load with acts put before it. -/
def Load.after (pre : List Act) (l : Load) : Load := { l with acts := pre ++ l.acts }

@[simp] theorem Load.after_acts (pre : List Act) (l : Load) : (l.after pre).acts = pre ++ l.acts :=
  rfl

@[simp] theorem Load.after_status (pre : List Act) (l : Load) : (l.after pre).status = l.status :=
  rfl

/-- What a new process is sent at the end of its load. -/
def trap (ptraced : Bool) (status : Int) : List Act :=
  if status < 0 then [.sendSig SIGSEGV]
  else if ptraced then [.sendSig SIGTRAP]
  else []

/-! ## User memory after the acts -/

/-- What an act puts into user memory. -/
def Act.patches : Act → List Patch
  | .mmap file addr len off answer =>
    (answer.spans addr len).map fun s => ⟨s, if file then some off.toNat else none⟩
  | .brk addr len answer => (answer.spans addr len).map fun s => ⟨s, none⟩
  | .read addr pos n => [⟨⟨addr.toNat, n⟩, some pos.toNat⟩]
  | .clear addr n => [⟨⟨addr.toNat, n⟩, none⟩]
  | _ => []

/-- The patches of a list of acts. -/
def patchesOf (acts : List Act) : List Patch := acts.flatMap Act.patches

@[simp] theorem patchesOf_nil : patchesOf [] = [] := rfl

@[simp] theorem patchesOf_cons (a : Act) (acts : List Act) :
    patchesOf (a :: acts) = a.patches ++ patchesOf acts := rfl

@[simp] theorem patchesOf_append (as bs : List Act) :
    patchesOf (as ++ bs) = patchesOf as ++ patchesOf bs := List.flatMap_append

instance : Nontrivial Byte := ⟨0, 1, by decide⟩

/-- User memory after the acts. -/
def imageOf (acts : List Act) (file m : Nat → Byte) : Nat → Byte := paint file m (patchesOf acts)

/-! ## Where the loader stores -/

/-- The bytes an act stores itself. -/
def Act.stored : Act → Span
  | .read addr _ n => ⟨addr.toNat, n⟩
  | .clear addr n => ⟨addr.toNat, n⟩
  | _ => ⟨0, 0⟩

/-- The pages an act maps. -/
def Act.mapped : Act → List Span
  | .mmap _ addr len _ answer => answer.spans addr len
  | .brk addr len answer => answer.spans addr len
  | _ => []

/-- A stored byte is in order: below `TASK_SIZE` and in a mapped page. -/
def ByteInside (rs : List Span) (x : Nat) : Prop := x < taskSize ∧ ∃ r ∈ rs, x ∈ r

/-- Every byte the acts store is in order, where `rs` is already mapped. -/
def StoresInside : List Span → List Act → Prop
  | _, [] => True
  | rs, a :: as => (∀ x ∈ a.stored, ByteInside rs x) ∧ StoresInside (rs ++ a.mapped) as

@[simp] theorem storesInside_nil (rs : List Span) : StoresInside rs [] := trivial

variable {rs : List Span} {as : List Act} {a : Act}

theorem storesInside_cons : StoresInside rs (a :: as) ↔
      (∀ x ∈ a.stored, ByteInside rs x) ∧ StoresInside (rs ++ a.mapped) as := Iff.rfl

theorem not_mem_empty (x : Nat) : x ∉ (⟨0, 0⟩ : Span) := fun h => Nat.not_lt_zero x h.2

theorem storesInside_mmap {file : Bool} {addr len off : Word} : StoresInside rs
    (.mmap file addr len off answer :: as) ↔ StoresInside (rs ++ answer.spans addr len) as :=
  ⟨fun h => h.2, fun h => ⟨fun x hx => absurd hx (not_mem_empty x), h⟩⟩

theorem storesInside_brk {addr len : Word} :
    StoresInside rs (.brk addr len answer :: as) ↔ StoresInside (rs ++ answer.spans addr len) as :=
  ⟨fun h => h.2, fun h => ⟨fun x hx => absurd hx (not_mem_empty x), h⟩⟩

theorem storesInside_read {addr : Word} {pos : Int} {n : Nat} :
    StoresInside rs (.read addr pos n :: as) ↔
      (∀ x ∈ (⟨addr.toNat, n⟩ : Span), ByteInside rs x) ∧ StoresInside rs as := by
  rw [storesInside_cons, show (Act.read addr pos n).mapped = [] from rfl, List.append_nil]
  rfl

theorem storesInside_clear {addr : Word} {n : Nat} : StoresInside rs (.clear addr n :: as) ↔
      (∀ x ∈ (⟨addr.toNat, n⟩ : Span), ByteInside rs x) ∧ StoresInside rs as := by
  rw [storesInside_cons, show (Act.clear addr n).mapped = [] from rfl, List.append_nil]
  rfl

theorem storesInside_append {bs : List Act} : StoresInside rs (as ++ bs) ↔
      StoresInside rs as ∧ StoresInside (rs ++ as.flatMap Act.mapped) bs := by
  induction as generalizing rs with
  | nil => simp
  | cons a as ih =>
    rw [List.cons_append, storesInside_cons, ih, storesInside_cons, List.flatMap_cons,
      List.append_assoc, and_assoc]

/-- An act that neither stores nor maps. -/
def Act.quiet : Act → Bool
  | .mmap .. | .brk .. | .read .. | .clear .. => false
  | _ => true

section

variable (h : a.quiet = true)

include h

theorem Act.mapped_of_quiet : a.mapped = [] := by
  cases a <;> first | rfl | exact nomatch h

theorem Act.patches_of_quiet : a.patches = [] := by
  cases a <;> first | rfl | exact nomatch h

theorem Act.stored_of_quiet (x : Nat) : x ∉ a.stored := by
  cases a <;> first | exact not_mem_empty x | exact nomatch h

end

theorem trap_quiet (ptraced : Bool) (status : Int) :
    (trap ptraced status).all Act.quiet = true := by
  unfold trap
  split
  · rfl
  · split <;> rfl

section

variable {acts : List Act} (h : acts.all Act.quiet = true)

include h

/-- Quiet acts leave no trace in user memory. -/
theorem patchesOf_quiet : patchesOf acts = [] := by
  induction acts with
  | nil => rfl
  | cons a as ih =>
    rw [List.all_cons, Bool.and_eq_true] at h
    rw [patchesOf_cons, Act.patches_of_quiet h.1, ih h.2, List.append_nil]

theorem storesInside_quiet (rs : List Span) : StoresInside rs acts := by
  induction acts generalizing rs with
  | nil => trivial
  | cons a as ih =>
    rw [List.all_cons, Bool.and_eq_true] at h
    exact ⟨fun x hx => absurd hx (Act.stored_of_quiet h.1 x), ih h.2 _⟩

theorem mapped_quiet : acts.flatMap Act.mapped = [] := by
  induction acts with
  | nil => rfl
  | cons a as ih =>
    rw [List.all_cons, Bool.and_eq_true] at h
    rw [List.flatMap_cons, Act.mapped_of_quiet h.1, ih h.2, List.append_nil]

end

end AbiEmu.Binfmt
