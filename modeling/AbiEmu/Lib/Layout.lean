import AbiEmu.Lib.User

/-!
# Structures that are filled field by field

Code that hands a structure to another program assigns its fields and copies the
bytes. What no assignment covers, a field that was forgotten or the padding between
two, is what the place held before, on the stack of the function as a rule.

A `Field` is an offset with the bytes assigned there, and `assign` the bytes of the
place after the assignments. A covered byte does not depend on what was there
(`assign_covered`), an uncovered one is what was there (`assign_uncovered`), so the
first `n` bytes of a structure are those of two runs with different content of the
stack exactly where the fields cover them (`structBytes_eq_iff`).
-/

namespace AbiEmu

/-- Bytes assigned at an offset of a structure. -/
structure Field where
  off : Nat
  bytes : List Byte

namespace Field

/-- The byte at offset `i` belongs to the field. -/
def Covers (f : Field) (i : Nat) : Prop := f.off ≤ i ∧ i < f.off + f.bytes.length
  deriving Decidable

/-- The assignment of the field. -/
def put (f : Field) (frame : Nat → Byte) : Nat → Byte := fun i =>
  if f.Covers i then f.bytes.getD (i - f.off) 0 else frame i

theorem put_covered {f : Field} {i : Nat} (h : f.Covers i) (frame : Nat → Byte) :
    f.put frame i = f.bytes.getD (i - f.off) 0 :=
  if_pos h

theorem put_uncovered {f : Field} {i : Nat} (h : ¬ f.Covers i) (frame : Nat → Byte) :
    f.put frame i = frame i :=
  if_neg h

end Field

/-- The assignments of several fields, one after the other. -/
def assign : List Field → (Nat → Byte) → Nat → Byte
  | [], frame => frame
  | f :: fields, frame => assign fields (f.put frame)

/-- Some field covers the byte. -/
def Covered (fields : List Field) (i : Nat) : Prop := ∃ f ∈ fields, f.Covers i
  deriving Decidable

/-- The first `n` bytes of the structure. -/
def structBytes (fields : List Field) (n : Nat) (frame : Nat → Byte) : List Byte :=
  (List.range n).map (assign fields frame)

@[simp] theorem length_structBytes (fields : List Field) (n : Nat) (frame : Nat → Byte) :
    (structBytes fields n frame).length = n := by
  simp [structBytes]

variable {fields : List Field} {frame frame' : Nat → Byte} {i : Nat}

/-- A byte depends on nothing but the byte that was there. -/
theorem assign_congr (fields : List Field) : ∀ {frame frame' : Nat → Byte},
    frame i = frame' i → assign fields frame i = assign fields frame' i := by
  induction fields with
  | nil => intro frame frame' h; exact h
  | cons f fields ih =>
    intro frame frame' h
    refine ih ?_
    by_cases hf : f.Covers i
    · rw [Field.put_covered hf, Field.put_covered hf]
    · rw [Field.put_uncovered hf, Field.put_uncovered hf, h]

/-- A covered byte does not depend on what was there. -/
theorem assign_covered (frame frame' : Nat → Byte) (h : Covered fields i) :
    assign fields frame i = assign fields frame' i := by
  induction fields generalizing frame frame' with
  | nil =>
    obtain ⟨f, hf, -⟩ := h
    cases hf
  | cons f fields ih =>
    by_cases hf : f.Covers i
    · refine assign_congr fields ?_
      rw [Field.put_covered hf, Field.put_covered hf]
    · obtain ⟨g, hg, hgi⟩ := h
      rcases List.mem_cons.mp hg with rfl | hmem
      · exact absurd hgi hf
      · exact ih (f.put frame) (f.put frame') ⟨g, hmem, hgi⟩

/-- An uncovered byte is what was there. -/
theorem assign_uncovered (frame : Nat → Byte) (h : ¬ Covered fields i) :
    assign fields frame i = frame i := by
  induction fields generalizing frame with
  | nil => rfl
  | cons f fields ih =>
    have hf : ¬ f.Covers i := fun hi => h ⟨f, List.mem_cons_self, hi⟩
    have hrest : ¬ Covered fields i := by
      intro hi
      obtain ⟨g, hg, hgi⟩ := hi
      exact h ⟨g, List.mem_cons_of_mem _ hg, hgi⟩
    rw [assign, ih (f.put frame) hrest, Field.put_uncovered hf]

/-- Two runs give the same bytes exactly if they agree where no field covers. -/
theorem structBytes_eq_iff (fields : List Field) (n : Nat) (frame frame' : Nat → Byte) :
    structBytes fields n frame = structBytes fields n frame' ↔
      ∀ i < n, ¬ Covered fields i → frame i = frame' i := by
  unfold structBytes
  rw [List.map_inj_left]
  constructor
  · intro h i hi hc
    have hbyte := h i (List.mem_range.mpr hi)
    rwa [assign_uncovered frame hc, assign_uncovered frame' hc] at hbyte
  · intro h i hi
    by_cases hc : Covered fields i
    · exact assign_covered frame frame' hc
    · rw [assign_uncovered frame hc, assign_uncovered frame' hc]
      exact h i (List.mem_range.mp hi) hc

end AbiEmu
