import AbiEmu.Lib.Bits
import AbiEmu.Signal.Tables

/-!
# Signal vectors (`include/abi/util/map.h`)

A program keeps a set of signals in one word, signal `s` in bit `s - 1`; the
kernel keeps 64 of them in a `sigset_t`. Three loops translate between the two.
Each walks the numbers 1 to 32, looks up the members of the vector and adds what
the table says, leaving out `-1`; they differ in how they test membership and in
how they add. `mapMembers` is that loop, and `mapMembers_bits` says once which
bits come out of it.
-/

namespace AbiEmu.Signal

/-- `sigset_t`. -/
abbrev Sigset := BitVec 64

/-- `sigismember`. -/
def sigismember (set : Sigset) (sig : Nat) : Bool := set.getLsbD (sig - 1)

/-- The bit of a signal in a `sigset_t`. The kernel counts from the start of the
set on, so that a number from 65 on, or zero, is a bit outside of it. -/
def kernelBit (sig : Word) : Sigset :=
  if sig = 0 then 0 else BitVec.twoPow 64 (sig.toNat - 1)

/-- The bit of a signal in a word, none for zero; the machine shifts by the low
five bits of the count. -/
def signalBit (sig : Word) : Word :=
  if sig = 0 then 0 else BitVec.twoPow 32 ((sig.toNat - 1) % 32)

/-- One round of the translation loop. -/
def mapMember {w : Nat} (member : Nat → Bool) (map : Table) (bit : Word → BitVec w)
    (newvec : BitVec w) (i : Nat) : Res (BitVec w) :=
  if member i then do
    let sig ← readAt map i
    pure (if sig ≠ -1 then newvec ||| bit sig else newvec)
  else pure newvec

/-- The translation loop. -/
def mapMembers {w : Nat} (member : Nat → Bool) (map : Table) (bit : Word → BitVec w) :
    Res (BitVec w) :=
  (List.range' 1 32).foldlM (mapMember member map bit) 0

/-- `map_bitvec`. -/
def mapBitvec (vec : Word) (map : Table) : Res Word :=
  mapMembers (fun i => vec.getLsbD (i - 1)) map signalBit

/-- `map_sigvec_from_kernel`. -/
def mapSigvecFromKernel (vec : Sigset) (map : Table) : Res Word :=
  mapMembers (sigismember vec) map signalBit

/-- `map_sigvec_to_kernel`; it adds with `sigaddset`. -/
def mapSigvecToKernel (vec : Word) (map : Table) : Res Sigset :=
  mapMembers (fun i => vec.getLsbD (i - 1)) map kernelBit

/-- The entry of a table, `-1` where there is none. -/
def entry (t : Table) (i : Nat) : Word := (t[i]?).getD (-1)

theorem readAt_entry (t : Table) {i : Nat} (hi : i < 33) : readAt t i = .ok (entry t i) := by
  rw [readAt_natCast t hi, entry, Vector.getElem?_eq_getElem hi, Option.getD_some]

section

variable {w : Nat} (member : Nat → Bool) (map : Table) (bit : Word → BitVec w)

include member map bit

/-- What a round does to the accumulator. -/
theorem mapMember_eq (newvec : BitVec w) {i : Nat} (hi : i < 33) :
    mapMember member map bit newvec i = .ok (newvec |||
      if member i = true ∧ entry map i ≠ -1 then bit (entry map i) else 0#w) := by
  unfold mapMember
  rw [readAt_entry map hi]
  split
  next hmem =>
    show Except.ok (if entry map i ≠ -1 then newvec ||| bit (entry map i) else newvec) = _
    split
    next hne => rw [if_pos ⟨hmem, hne⟩]
    next hne => rw [if_neg fun h => hne h.2, BitVec.or_zero]
  next hmem =>
    rw [if_neg fun h => hmem h.1, BitVec.or_zero]
    rfl

/-- The loop comes back, and a bit of the result is one that a member of the
vector adds. -/
theorem mapMembers_bits :
    ∃ r, mapMembers member map bit = .ok r ∧ ∀ j, r.getLsbD j = true ↔
      ∃ i, 1 ≤ i ∧ i ≤ 32 ∧ member i = true ∧ entry map i ≠ -1 ∧
        (bit (entry map i)).getLsbD j = true := by
  have hround : ∀ i ∈ List.range' 1 32, ∀ v, mapMember member map bit v i =
      .ok (v ||| if member i = true ∧ entry map i ≠ -1 then bit (entry map i) else 0#w) :=
    fun i hi v => mapMember_eq member map bit v (List.mem_range'_1.mp hi).2
  obtain ⟨r, hr, hbits⟩ := Bits.foldlM_or hround
  refine ⟨r, hr, fun j => ?_⟩
  rw [hbits j]
  constructor
  · rintro (hzero | ⟨i, hi, hj⟩)
    · simp at hzero
    · obtain ⟨hlow, hhigh⟩ := List.mem_range'_1.mp hi
      split at hj
      next h => exact ⟨i, hlow, by omega, h.1, h.2, hj⟩
      · simp at hj
  · rintro ⟨i, hlow, hhigh, hmem, hne, hj⟩
    refine .inr ⟨i, List.mem_range'_1.mpr ⟨hlow, by omega⟩, ?_⟩
    rw [if_pos ⟨hmem, hne⟩]
    exact hj

/-- The loop stays inside its table. -/
theorem mapMembers_inRange : InRange (mapMembers member map bit) := by
  obtain ⟨r, hr, -⟩ := mapMembers_bits member map bit
  rw [hr]
  exact inRange_ok r

end

theorem getLsbD_signalBit (sig : Word) (j : Nat) :
    (signalBit sig).getLsbD j = true ↔ sig ≠ 0 ∧ j = (sig.toNat - 1) % 32 := by
  unfold signalBit
  by_cases h : sig = 0
  · simp [h]
  · rw [if_neg h, BitVec.getLsbD_twoPow]
    simp only [Bool.and_eq_true, decide_eq_true_eq]
    exact ⟨fun hj => ⟨h, hj.2.symm⟩, fun hj => ⟨Nat.mod_lt _ (by omega), hj.2.symm⟩⟩

theorem getLsbD_kernelBit (sig : Word) (j : Nat) :
    (kernelBit sig).getLsbD j = true ↔ j < 64 ∧ sig.toNat = j + 1 := by
  unfold kernelBit
  by_cases h : sig = 0
  · simp [h]
  · have hpos : 0 < sig.toNat := by bv_omega
    rw [if_neg h, BitVec.getLsbD_twoPow]
    simp only [Bool.and_eq_true, decide_eq_true_eq]
    omega

/-- What `map_sigvec_from_kernel` translates. -/
theorem mapSigvecFromKernel_bits (vec : Sigset) (map : Table) :
    ∃ r, mapSigvecFromKernel vec map = .ok r ∧ ∀ j, r.getLsbD j = true ↔
      ∃ i, 1 ≤ i ∧ i ≤ 32 ∧ sigismember vec i = true ∧ entry map i ≠ -1 ∧ entry map i ≠ 0 ∧
        j = ((entry map i).toNat - 1) % 32 := by
  obtain ⟨r, hr, hbits⟩ := mapMembers_bits (sigismember vec) map signalBit
  refine ⟨r, hr, fun j => ?_⟩
  rw [hbits j]
  simp [getLsbD_signalBit]

/-- What `map_sigvec_to_kernel` translates. -/
theorem mapSigvecToKernel_bits (vec : Word) (map : Table) :
    ∃ r, mapSigvecToKernel vec map = .ok r ∧ ∀ j, r.getLsbD j = true ↔
      ∃ i, 1 ≤ i ∧ i ≤ 32 ∧ vec.getLsbD (i - 1) = true ∧ entry map i ≠ -1 ∧ j < 64 ∧
        (entry map i).toNat = j + 1 := by
  obtain ⟨r, hr, hbits⟩ := mapMembers_bits (fun i => vec.getLsbD (i - 1)) map kernelBit
  refine ⟨r, hr, fun j => ?_⟩
  rw [hbits j]
  simp [getLsbD_kernelBit]

/-- The two tables are inverse at a signal. -/
def InverseAt (map invmap : Table) (s : Nat) : Prop :=
  (1 ≤ s ∧ s ≤ 32) ∧ (1 ≤ (entry map s).toNat ∧ (entry map s).toNat ≤ 32) ∧
    entry invmap (entry map s).toNat = BitVec.ofNat 32 s

/-- Where the tables are inverse on `S`, the way to the kernel and back loses no member of
`S` and adds none to a part of it. `map_bitvec` agrees with `map_sigvec_to_kernel` for a
table that stays between 1 and 32. -/
theorem sigvec_inverse (map invmap : Table) (v : Word) :
    ∃ set back bits, mapSigvecToKernel v map = .ok set ∧
      mapSigvecFromKernel set invmap = .ok back ∧ mapBitvec v map = .ok bits ∧
      (∀ S : Nat → Prop, (∀ s, S s → InverseAt map invmap s) →
        (∀ s, S s → v.getLsbD (s - 1) = true → back.getLsbD (s - 1) = true) ∧
        ((∀ s, 1 ≤ s → v.getLsbD (s - 1) = true → S s) → back = v)) ∧
      ((∀ i, 1 ≤ i → i ≤ 32 → entry map i = -1 ∨
        1 ≤ (entry map i).toNat ∧ (entry map i).toNat ≤ 32) → bits = set.setWidth 32) := by
  obtain ⟨set, hset, hin⟩ := mapSigvecToKernel_bits v map
  obtain ⟨back, hback, hout⟩ := mapSigvecFromKernel_bits set invmap
  obtain ⟨bits, hbits, hword⟩ := mapMembers_bits (fun i => v.getLsbD (i - 1)) map signalBit
  refine ⟨set, back, bits, hset, hback, hbits, fun S hS => ?_, fun hmap => ?_⟩
  · have hkept : ∀ s, S s → v.getLsbD (s - 1) = true → back.getLsbD (s - 1) = true := by
      intro s hs hv
      obtain ⟨⟨hlow, hhigh⟩, ⟨hmlow, hmhigh⟩, hinv⟩ := hS s hs
      apply (hout _).mpr
      refine ⟨_, hmlow, hmhigh, (hin _).mpr ⟨s, hlow, hhigh, hv, ?_, ?_, ?_⟩, ?_⟩
      · bv_omega
      iterate 2 omega
      · rw [hinv]
        bv_omega
    refine ⟨hkept, fun hv => BitVec.eq_of_getLsbD_eq fun j hj => Bool.eq_iff_iff.mpr ⟨fun h => ?_,
      fun h => hkept (j + 1) (hv _ (by omega) h) h⟩⟩
    obtain ⟨i, hlow, -, hmem, -, -, hi⟩ := (hout j).mp h
    obtain ⟨s, hslow, hshigh, hvs, -, -, hs⟩ := (hin _).mp hmem
    have hinv := (hS s (hv s hslow hvs)).2.2
    rw [hs, Nat.sub_add_cancel hlow] at hinv
    have hj : j = s - 1 := by
      rw [hinv] at hi
      bv_omega
    rw [hj]
    exact hvs
  · refine BitVec.eq_of_getLsbD_eq fun j hj => ?_
    rw [Bool.eq_iff_iff, hword, BitVec.getLsbD_setWidth, Bool.and_eq_true, hin,
      and_iff_right (decide_eq_true hj)]
    simp only [getLsbD_signalBit]
    refine exists_congr fun i => and_congr_right fun hlow => and_congr_right fun hhigh =>
      and_congr_right fun _ => and_congr_right fun hne => ?_
    have hrange := (hmap i hlow hhigh).resolve_left hne
    bv_omega

end AbiEmu.Signal
