import Mathlib.Data.BitVec

/-!
# Machine words and byte memory

A 32-bit little-endian machine as seen by code that fetches words from another
address space: words and bytes are bit vectors, a memory is a total map from
addresses to bytes (an access that faults reads as zero on this machine, so
the map has a value everywhere), and addresses wrap at `2 ^ 32`.

`Mem.slot` is the `i`-th word above a stack pointer. The lemmas say how slots
move when the pointer moves by whole words, and that the word is determined by
its four bytes. `Mem.bytes` and `Mem.store` read and write runs of bytes.
-/

namespace AbiEmu

/-- A byte of memory. -/
abbrev Byte := BitVec 8

/-- A machine word, a register or an address. -/
abbrev Word := BitVec 32

/-- A byte-addressed memory. -/
abbrev Mem := Word → Byte

/-- The four bytes of a word, low byte first. -/
def Word.bytes (v : Word) : List Byte :=
  [v.extractLsb' 0 8, v.extractLsb' 8 8, v.extractLsb' 16 8, v.extractLsb' 24 8]

@[simp] theorem Word.length_bytes (v : Word) : v.bytes.length = 4 := rfl

@[simp] theorem Word.length_flatMap_bytes : ∀ ws : List Word,
    (ws.flatMap Word.bytes).length = 4 * ws.length
  | [] => rfl
  | w :: ws => by
    rw [List.flatMap_cons, List.length_append, length_flatMap_bytes ws, length_bytes,
      List.length_cons]
    omega

/-- The two bytes of half a word, low byte first. -/
def halfBytes (v : BitVec 16) : List Byte := [v.extractLsb' 0 8, v.extractLsb' 8 8]

@[simp] theorem length_halfBytes (v : BitVec 16) : (halfBytes v).length = 2 := rfl

/-- A word is put together from its bytes. -/
theorem Word.append_bytes (v : Word) :
    v.extractLsb' 24 8 ++ v.extractLsb' 16 8 ++ v.extractLsb' 8 8 ++ v.extractLsb' 0 8 = v := by
  ext i hi
  simp only [BitVec.getElem_append, BitVec.getElem_extractLsb']
  rw [← BitVec.getLsbD_eq_getElem hi]
  split_ifs <;> congr 1 <;> omega

/-- A word is determined by its bytes. -/
theorem Word.bytes_inj {v w : Word} (h : v.bytes = w.bytes) : v = w := by
  simp only [Word.bytes, List.cons.injEq, and_true] at h
  obtain ⟨h0, h1, h2, h3⟩ := h
  rw [← v.append_bytes, ← w.append_bytes, h0, h1, h2, h3]

/-- Half a word is put together from its bytes. -/
theorem append_halfBytes (v : BitVec 16) : v.extractLsb' 8 8 ++ v.extractLsb' 0 8 = v := by
  ext i hi
  simp only [BitVec.getElem_append, BitVec.getElem_extractLsb']
  rw [← BitVec.getLsbD_eq_getElem hi]
  split_ifs <;> congr 1 <;> omega

/-- Two bytes, the high one first. -/
theorem toNat_append_byte (hi lo : Byte) :
    (hi ++ lo : BitVec 16).toNat = 256 * hi.toNat + lo.toNat := by
  rw [BitVec.toNat_append, ← Nat.shiftLeft_add_eq_or_of_lt lo.isLt, Nat.shiftLeft_eq, Nat.mul_comm]

/-- A number that fits the positive half of a signed word. -/
theorem Word.toInt_ofNat {n : Nat} (hn : n < 2 ^ 31) : (BitVec.ofNat 32 n).toInt = n := by
  rw [BitVec.toInt_eq_toNat_of_lt]
  · rw [BitVec.toNat_ofNat, Nat.mod_eq_of_lt (by omega)]
  · rw [BitVec.toNat_ofNat, Nat.mod_eq_of_lt (by omega)]
    omega

/-- An address is moved on twice. -/
theorem add_ofNat_add (a : Word) (k l : Nat) :
    a + BitVec.ofNat 32 k + BitVec.ofNat 32 l = a + BitVec.ofNat 32 (k + l) := by
  rw [BitVec.add_assoc, ← BitVec.ofNat_add]

/-- A signed word that is not negative. -/
theorem Word.toNat_toInt {w : Word} (h : 0 ≤ w.toInt) : w.toInt.toNat = w.toNat := by
  rw [BitVec.toInt_eq_toNat_cond] at h ⊢
  split at h <;> omega

/-- A signed word that is negative. -/
theorem Word.toNat_pos {w : Word} (h : w.toInt < 0) : 0 < w.toNat := by
  rw [BitVec.toInt_eq_toNat_cond] at h
  split at h <;> omega

/-- Clearing the low `k` bits rounds down. -/
theorem Word.and_allOnes_shiftLeft_toNat (w : Word) (k : Nat) :
    (w &&& BitVec.allOnes 32 <<< k).toNat = w.toNat / 2 ^ k * 2 ^ k := by
  have hshift : w &&& BitVec.allOnes 32 <<< k = (w >>> k) <<< k := by
    ext i hi
    simp only [BitVec.getElem_and, BitVec.getElem_shiftLeft, BitVec.getElem_ushiftRight,
      BitVec.getElem_allOnes]
    by_cases hik : i < k
    · simp [hik]
    · have hi' : k + (i - k) = i := by omega
      simp [hik, hi', BitVec.getLsbD_eq_getElem hi]
  have hle : w.toNat / 2 ^ k * 2 ^ k < 2 ^ 32 :=
    Nat.lt_of_le_of_lt (Nat.div_mul_le_self ..) w.isLt
  rw [hshift, BitVec.toNat_shiftLeft, BitVec.toNat_ushiftRight, Nat.shiftRight_eq_div_pow,
    Nat.shiftLeft_eq, Nat.mod_eq_of_lt hle]

namespace Mem

/-- The little-endian word stored at `a`. -/
def word (m : Mem) (a : Word) : Word :=
  m (a + 3) ++ m (a + 2) ++ m (a + 1) ++ m a

/-- The little-endian half word stored at `a`. -/
def half (m : Mem) (a : Word) : BitVec 16 := m (a + 1) ++ m a

/-- The word at index `i` above the stack pointer `sp`. -/
def slot (m : Mem) (sp : Word) (i : Nat) : Word :=
  m.word (sp + BitVec.ofNat 32 (4 * i))

/-- The `n` bytes from `a` on. -/
def bytes (m : Mem) (a : Word) (n : Nat) : List Byte :=
  (List.range n).map fun i => m (a + BitVec.ofNat 32 i)

/-- The memory with `bs` stored from `a` on. -/
def store (m : Mem) (a : Word) (bs : List Byte) : Mem :=
  fun x => bs.getD (x - a).toNat (m x)

private theorem setWidth_append_right {w v : Nat} (x : BitVec w) (y : BitVec v) :
    (x ++ y).setWidth v = y := by
  apply BitVec.eq_of_getLsbD_eq
  intro i hi
  rw [BitVec.getLsbD_setWidth, BitVec.getLsbD_append]
  simp [hi]

/-- The low byte of a word is the byte at its address. -/
theorem word_low (m : Mem) (a : Word) : (m.word a).setWidth 8 = m a :=
  setWidth_append_right (m (a + 3) ++ m (a + 2) ++ m (a + 1)) (m a)

/-- A word is determined by its four bytes. -/
theorem word_congr {m m' : Mem} {a : Word}
    (h : ∀ j < 4, m' (a + BitVec.ofNat 32 j) = m (a + BitVec.ofNat 32 j)) :
    m'.word a = m.word a := by
  have h0 := h 0 (by omega)
  rw [BitVec.add_zero] at h0
  have h1 : m' (a + 1) = m (a + 1) := h 1 (by omega)
  have h2 : m' (a + 2) = m (a + 2) := h 2 (by omega)
  have h3 : m' (a + 3) = m (a + 3) := h 3 (by omega)
  rw [word, word, h0, h1, h2, h3]

/-- The low half of a word. -/
theorem word_low_half (m : Mem) (a : Word) : (m.word a).setWidth 16 = m.half a := by
  unfold word half
  rw [BitVec.append_assoc]
  exact setWidth_append_right (m (a + 3) ++ m (a + 2)) (m (a + 1) ++ m a)

/-- A memory whose bytes are all zero holds only zero words. -/
theorem word_of_zero {m : Mem} (h : ∀ a, m a = 0) (a : Word) : m.word a = 0 := by
  simp [word, h]

theorem slot_of_zero {m : Mem} (h : ∀ a, m a = 0) (sp : Word) (i : Nat) : m.slot sp i = 0 :=
  word_of_zero h _

end Mem

end AbiEmu
