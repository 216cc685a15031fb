import Mathlib.Data.BitVec

/-!
# Sets of bits

A loop over a list that ors one vector into its accumulator in every round,
written in `Except` because a round may fail. If no round fails, the loop comes
back, and a bit of the result was set at the start or by one of the rounds.

Flag words are tested and moved by masks: a vector within a mask is kept by it, and
a test of one bit is the bit.
-/

namespace AbiEmu.Bits

variable {ι ε : Type} {w : Nat}

/-- The bits of the result of such a loop. -/
theorem foldlM_or {step : BitVec w → ι → Except ε (BitVec w)} {g : ι → BitVec w} :
    ∀ {l : List ι} {a : BitVec w}, (∀ i ∈ l, ∀ acc, step acc i = .ok (acc ||| g i)) →
      ∃ r, l.foldlM step a = .ok r ∧
        ∀ j, r.getLsbD j = true ↔ a.getLsbD j = true ∨ ∃ i ∈ l, (g i).getLsbD j = true
  | [], a, _ => ⟨a, rfl, fun j => by simp⟩
  | i :: l, a, h => by
    obtain ⟨r, hr, hbits⟩ := foldlM_or fun k hk => h k (List.mem_cons_of_mem i hk)
    refine ⟨r, ?_, fun j => ?_⟩
    · rw [List.foldlM_cons, h i List.mem_cons_self a]
      exact hr
    · rw [hbits j, BitVec.getLsbD_or, Bool.or_eq_true, or_assoc]
      simp

variable {x mask : BitVec w}

/-- A mask keeps a vector that lies within it. -/
theorem and_eq_self_of_and_not (h : x &&& ~~~mask = 0) : x &&& mask = x := by
  ext i hi
  have hbit := congrArg (fun y : BitVec w => y.getLsbD i) h
  simp [hi] at hbit ⊢
  exact hbit

/-- A mask keeps exactly the vectors that lie within it. -/
theorem and_eq_self_iff : x &&& mask = x ↔ x &&& ~~~mask = 0 := by
  refine ⟨fun h => ?_, and_eq_self_of_and_not⟩
  have hnone : mask &&& ~~~mask = 0 := BitVec.and_not_self mask
  rw [← h, BitVec.and_assoc, hnone]
  exact BitVec.and_zero

/-- A vector adds nothing to the masks it lies within. -/
theorem or_eq_right_iff : x ||| mask = mask ↔ x &&& ~~~mask = 0 := by
  rw [← and_eq_self_iff]
  constructor
  · intro h
    rw [← h]
    ext i hi
    simp +contextual
  · intro h
    rw [← h]
    ext i hi
    simp

/-- A single bit that is set. -/
theorem and_twoPow_eq {x : BitVec w} {k : Nat} (h : x.getLsbD k = true) :
    x &&& BitVec.twoPow w k = BitVec.twoPow w k := by
  rw [BitVec.and_twoPow, if_pos h]

/-- The test of a single bit. -/
theorem and_twoPow_ne_zero (x : BitVec w) {k : Nat} (hk : k < w) :
    x &&& BitVec.twoPow w k ≠ 0 ↔ x.getLsbD k = true := by
  rw [BitVec.and_twoPow]
  split_ifs with hx
  · refine iff_of_true ?_ hx
    intro h
    have hbit := congrArg (fun y : BitVec w => y.getLsbD k) h
    simp [hk] at hbit
  · exact iff_of_false (fun h => h rfl) hx

/-- The bits of a word that entries are or-ed into. -/
theorem getLsbD_foldl_or (p : ι → Bool) (g : ι → BitVec w) (j : Nat) :
    ∀ (l : List ι) (x : BitVec w),
      (l.foldl (fun r i => if p i then r ||| g i else r) x).getLsbD j =
        (x.getLsbD j || l.any fun i => p i && (g i).getLsbD j)
  | [], x => by simp
  | i :: l, x => by
    rw [List.foldl_cons, getLsbD_foldl_or p g j l, List.any_cons]
    cases p i <;> simp [Bool.or_assoc]

end AbiEmu.Bits
