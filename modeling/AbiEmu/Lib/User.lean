import Mathlib.Data.List.GetD
import Mathlib.Data.List.TakeWhile
import AbiEmu.Lib.Word

/-!
# User memory seen from the kernel

A kernel reaches into a process through checked copies. `Pages` says which
bytes of the process it may touch: those below the user limit, of these the
ones that can be read, and of these the ones that can be written. The copies
follow the usual kernel interface: `getUser` fetches a word or faults, `putUser`
stores one or leaves memory alone, `verifyWrite` only looks at the limit.

The lemmas are about a word that was just stored: it is read back, a word that
lies apart from it is not disturbed, and a store that changes nothing stored
what was there.
-/

namespace AbiEmu

/-- The bytes of a process the kernel may touch. -/
structure Pages where
  /-- The address lies below the user limit. -/
  user : Word → Bool
  readable : Word → Bool
  writable : Word → Bool
  user_of_readable : ∀ a, readable a = true → user a = true
  readable_of_writable : ∀ a, writable a = true → readable a = true

/-- The bytes a word was put together from. -/
theorem Word.bytes_append (b3 b2 b1 b0 : Byte) :
    Word.bytes (b3 ++ b2 ++ b1 ++ b0) = [b0, b1, b2, b3] := by
  have hbyte : ∀ {k : Nat} {b : Byte},
      (∀ i < 8, (b3 ++ b2 ++ b1 ++ b0).getLsbD (k + i) = b.getLsbD i) →
        (b3 ++ b2 ++ b1 ++ b0).extractLsb' k 8 = b := by
    intro k b h
    apply BitVec.eq_of_getLsbD_eq
    intro i hi
    rw [BitVec.getLsbD_extractLsb', h i hi, decide_eq_true hi, Bool.true_and]
  simp only [Word.bytes, List.cons.injEq, and_true]
  refine ⟨hbyte ?_, hbyte ?_, hbyte ?_, hbyte ?_⟩ <;> intro i hi <;>
    simp only [BitVec.getLsbD_append]
  · rw [if_pos (by omega), Nat.zero_add]
  · rw [if_neg (by omega), if_pos (by omega), show 8 + i - 8 = i by omega]
  · rw [if_neg (by omega), if_neg (by omega), if_pos (by omega),
      show 16 + i - 8 - 8 = i by omega]
  · rw [if_neg (by omega), if_neg (by omega), if_neg (by omega),
      show 24 + i - 8 - 8 - 8 = i by omega]

variable {bs cs : List Byte} {k n : Nat} {a : Word}

namespace Mem

section

variable (m : Mem)

include m

/-- A byte of a stored block. -/
theorem store_add (a : Word) {i : Nat} {b : Byte} (hi : i < 2 ^ 32) (hb : bs[i]? = some b) :
    m.store a bs (a + BitVec.ofNat 32 i) = b := by
  unfold store
  have hdiff : (a + BitVec.ofNat 32 i - a).toNat = i := by bv_omega
  rw [hdiff, List.getD_eq_getElem?_getD, hb, Option.getD_some]

/-- A byte apart from a stored block. -/
theorem store_apart (a : Word) {x : Word} (h : bs.length ≤ (x - a).toNat) :
    m.store a bs x = m x := by
  unfold store
  rw [List.getD_eq_getElem?_getD, List.getElem?_eq_none h, Option.getD_none]

/-- Nothing is stored. -/
@[simp] theorem store_nil (a : Word) : m.store a [] = m := rfl

/-- A word that was stored as part of a block. -/
theorem word_store (a v : Word) (hk : k + 4 ≤ 2 ^ 32) (hv : ∀ j < 4, bs[k + j]? = v.bytes[j]?) :
    (m.store a bs).word (a + BitVec.ofNat 32 k) = v := by
  have hbyte : ∀ j < 4, ∀ b, v.bytes[j]? = some b →
      m.store a bs (a + BitVec.ofNat 32 k + BitVec.ofNat 32 j) = b := by
    intro j hj b hb
    rw [show a + BitVec.ofNat 32 k + BitVec.ofNat 32 j = a + BitVec.ofNat 32 (k + j) by bv_omega]
    exact store_add m a (by omega) ((hv j hj).trans hb)
  have h0 := hbyte 0 (by omega) _ rfl
  have h1 : m.store a bs (a + BitVec.ofNat 32 k + 1) = _ := hbyte 1 (by omega) _ rfl
  have h2 : m.store a bs (a + BitVec.ofNat 32 k + 2) = _ := hbyte 2 (by omega) _ rfl
  have h3 : m.store a bs (a + BitVec.ofNat 32 k + 3) = _ := hbyte 3 (by omega) _ rfl
  rw [show a + BitVec.ofNat 32 k + BitVec.ofNat 32 0 = a + BitVec.ofNat 32 k by bv_omega] at h0
  rw [word, h0, h1, h2, h3, Word.append_bytes]

/-- Half a word that was stored as part of a block. -/
theorem half_store (a : Word) (v : BitVec 16) (hk : k + 2 ≤ 2 ^ 32)
    (hv : ∀ j < 2, bs[k + j]? = (halfBytes v)[j]?) :
    (m.store a bs).half (a + BitVec.ofNat 32 k) = v := by
  have h0 : m.store a bs (a + BitVec.ofNat 32 k) = v.extractLsb' 0 8 :=
    store_add m a (by omega) (hv 0 (by omega))
  have h1 : m.store a bs (a + BitVec.ofNat 32 k + 1) = v.extractLsb' 8 8 := by
    rw [show a + BitVec.ofNat 32 k + 1 = a + BitVec.ofNat 32 (k + 1) by bv_omega]
    exact store_add m a (by omega) (hv 1 (by omega))
  rw [half, h0, h1, append_halfBytes]

/-- The word read where one was stored. -/
@[simp] theorem word_store_bytes (a v : Word) : (m.store a v.bytes).word a = v := by
  have h : (m.store a v.bytes).word (a + BitVec.ofNat 32 0) = v :=
    word_store m a v (by omega) fun j _ => by rw [Nat.zero_add]
  rwa [show a + BitVec.ofNat 32 0 = a by bv_omega] at h

/-- A word that lies apart from a stored block. -/
theorem word_store_apart (a b : Word) (hlow : bs.length ≤ (b - a).toNat)
    (hhigh : (b - a).toNat + 4 ≤ 2 ^ 32) :
    (m.store a bs).word b = m.word b := by
  unfold word
  rw [store_apart m a (by bv_omega), store_apart m a (by bv_omega),
    store_apart m a (by bv_omega), store_apart m a hlow]

end

/-- Where a byte lies as seen from `n` bytes behind `a`. -/
theorem sub_add_toNat {x : Word} (hn : n ≤ 2 ^ 32) : (x - (a + BitVec.ofNat 32 n)).toNat =
      if n ≤ (x - a).toNat then (x - a).toNat - n else 2 ^ 32 + (x - a).toNat - n := by
  split
  next h => bv_omega
  next h => bv_omega

/-- Two adjacent blocks, stored in either order. -/
theorem store_adjacent (m : Mem) (a : Word) (hlen : bs.length + cs.length ≤ 2 ^ 32) :
    (m.store a bs).store (a + BitVec.ofNat 32 bs.length) cs = m.store a (bs ++ cs) ∧
      (m.store (a + BitVec.ofNat 32 bs.length) cs).store a bs = m.store a (bs ++ cs) := by
  constructor <;>
  · funext x
    unfold store
    rw [sub_add_toNat (by omega)]
    split_ifs with h
    · rw [List.getD_append_right _ _ _ _ h, List.getD_eq_default bs _ h]
    · rw [List.getD_append _ _ _ _ (by omega), List.getD_eq_default cs _ (by omega)]

section

variable (m : Mem) {b : Word} (hk : bs.length = k) (hb : b = a + BitVec.ofNat 32 k)
  (hlen : k + cs.length ≤ 2 ^ 32)

include m hk hb hlen

/-- A block stored behind another one of length `k`. -/
theorem store_behind : (m.store a bs).store b cs = m.store a (bs ++ cs) := by
  subst hk hb
  exact (store_adjacent m a hlen).1

/-- A block of length `k` stored below another one. -/
theorem store_below : (m.store b cs).store a bs = m.store a (bs ++ cs) := by
  subst hk hb
  exact (store_adjacent m a hlen).2

end

/-- Bytes that are the same one by one. -/
theorem bytes_congr {m m' : Mem}
    (h : ∀ i < n, m' (a + BitVec.ofNat 32 i) = m (a + BitVec.ofNat 32 i)) :
    m'.bytes a n = m.bytes a n :=
  List.map_congr_left fun i hi => h i (List.mem_range.mp hi)

/-- Two adjacent stretches of memory. -/
theorem bytes_add (m : Mem) (a : Word) (p q : Nat) :
    m.bytes a (p + q) = m.bytes a p ++ m.bytes (a + BitVec.ofNat 32 p) q := by
  unfold bytes
  rw [List.range_add, List.map_append, List.map_map]
  congr 1
  refine List.map_congr_left fun i _ => ?_
  rw [Function.comp_apply, add_ofNat_add]

@[simp] theorem length_bytes (m : Mem) (a : Word) (n : Nat) : (m.bytes a n).length = n := by
  rw [bytes, List.length_map, List.length_range]

/-- The bytes of a word of memory. -/
theorem bytes_word (m : Mem) (a : Word) : (m.word a).bytes = m.bytes a 4 := by
  rw [word, Word.bytes_append]
  simp [bytes, List.range_succ]

/-- A store changes nothing exactly if the word was there already. -/
theorem store_bytes_eq_self_iff (m : Mem) (a v : Word) : m.store a v.bytes = m ↔ m.word a = v := by
  refine ⟨fun h => ?_, ?_⟩
  · rw [← h, word_store_bytes]
  · rintro rfl
    funext x
    by_cases hx : (m.word a).bytes.length ≤ (x - a).toNat
    · exact store_apart m a hx
    · -- one of the four bytes of the word itself
      have hlt : (x - a).toNat < 4 := by simpa [Word.bytes] using hx
      rw [bytes_word, store, bytes, List.getD_eq_getElem?_getD, List.getElem?_map,
        List.getElem?_range hlt, Option.map_some, Option.getD_some]
      congr 1
      bv_omega

/-- The `j`-th element of the `i`-th block of a run of blocks of one length. -/
theorem getElem?_flatMap_of_length {α β : Type} {f : α → List β}
    (hf : ∀ a, (f a).length = n) : ∀ (as : List α) (i j : Nat), j < n →
    (as.flatMap f)[n * i + j]? = (as[i]?).bind fun a => (f a)[j]?
  | [], _, _, _ => by simp
  | a :: as, 0, j, hj => by
    rw [List.flatMap_cons, List.getElem?_append_left (by rw [hf]; omega)]
    simp
  | a :: as, i + 1, j, hj => by
    rw [List.flatMap_cons, List.getElem?_append_right (by rw [hf, Nat.mul_succ]; omega),
      List.getElem?_cons_succ, ← getElem?_flatMap_of_length hf as i j hj, hf]
    congr 1
    rw [Nat.mul_succ]
    omega

/-- The `j`-th byte of the `i`-th word of a run. -/
theorem getElem?_flatMap_bytes (ws : List Word) (i j : Nat) (hj : j < 4) :
    (ws.flatMap Word.bytes)[4 * i + j]? = (ws[i]?).bind fun w => w.bytes[j]? :=
  getElem?_flatMap_of_length Word.length_bytes ws i j hj

/-- The `j`-th byte of the `i`-th half of a run. -/
theorem getElem?_flatMap_halfBytes (vs : List (BitVec 16)) (i j : Nat) (hj : j < 2) :
    (vs.flatMap halfBytes)[2 * i + j]? = (vs[i]?).bind fun v => (halfBytes v)[j]? :=
  getElem?_flatMap_of_length length_halfBytes vs i j hj

/-- A word of a stored run of words. -/
theorem slot_store_words (m : Mem) (a : Word) {ws : List Word} {i : Nat} {w : Word}
    (hi : 4 * i + 4 ≤ 2 ^ 32) (hw : ws[i]? = some w) :
    (m.store a (ws.flatMap Word.bytes)).slot a i = w := by
  refine word_store m a w hi ?_
  intro j hj
  rw [getElem?_flatMap_bytes ws i j hj, hw, Option.bind_some]

/-- A part of a stored block. -/
theorem bytes_store (m : Mem) (a : Word) (bs cs ds : List Byte)
    (hlen : bs.length + cs.length ≤ 2 ^ 32) :
    (m.store a (bs ++ cs ++ ds)).bytes (a + BitVec.ofNat 32 bs.length) cs.length = cs := by
  unfold bytes
  refine List.ext_getElem (by simp) fun i hi hi' => ?_
  rw [List.getElem_map, List.getElem_range, add_ofNat_add]
  refine store_add m a (by omega) ?_
  rw [List.append_assoc, List.getElem?_append_right (by omega), Nat.add_sub_cancel_left,
    List.getElem?_append_left hi', List.getElem?_eq_getElem hi']

/-- A block stored over another one. -/
theorem store_over (m : Mem) (a : Word) (h : bs.length ≤ cs.length) :
    (m.store a bs).store a cs = m.store a cs := by
  funext x
  unfold store
  by_cases hx : (x - a).toNat < cs.length
  · rw [List.getD_eq_getElem _ _ hx, List.getD_eq_getElem _ _ hx]
  · rw [List.getD_eq_default cs _ (by omega), List.getD_eq_default cs _ (by omega),
      List.getD_eq_default bs _ (by omega)]

/-- Stores of the same length at the same place differ if the bytes do. -/
theorem store_eq_iff (m : Mem) (a : Word) (hlen : bs.length = cs.length)
    (hbound : bs.length ≤ 2 ^ 32) : m.store a bs = m.store a cs ↔ bs = cs := by
  refine ⟨fun h => List.ext_getElem hlen fun i hi hi' => ?_, congrArg (m.store a)⟩
  rw [← store_add m a (by omega) (List.getElem?_eq_getElem hi),
    ← store_add m a (by omega) (List.getElem?_eq_getElem hi'), h]

/-- A byte stored where it already was. -/
theorem store_keep (m : Mem) (a : Word) (bs : List Byte) :
    m.store a (bs ++ [m (a + BitVec.ofNat 32 bs.length)]) = m.store a bs := by
  funext x
  unfold store
  by_cases h : (x - a).toNat < bs.length
  · rw [List.getD_append _ _ _ _ h]
  · rw [List.getD_append_right _ _ _ _ (by omega), List.getD_eq_default bs _ (by omega)]
    by_cases heq : (x - a).toNat = bs.length
    · rw [heq, Nat.sub_self, List.getD_cons_zero]
      congr 1
      bv_omega
    · exact List.getD_eq_default _ _ (by rw [List.length_singleton]; omega)

end Mem

namespace Pages

/-- The bytes `[a, a + n)` can be read. -/
def canRead (p : Pages) (a : Word) (n : Nat) : Bool :=
  (List.range n).all fun i => p.readable (a + BitVec.ofNat 32 i)

/-- The bytes `[a, a + n)` can be written. -/
def canWrite (p : Pages) (a : Word) (n : Nat) : Bool :=
  (List.range n).all fun i => p.writable (a + BitVec.ofNat 32 i)

/-- `verify_area` for writing: the bytes `[a, a + n)` lie below the limit. -/
def verifyWrite (p : Pages) (a : Word) (n : Nat) : Bool :=
  (List.range n).all fun i => p.user (a + BitVec.ofNat 32 i)

/-- `verify_area` for reading makes the same check. -/
def verifyRead (p : Pages) (a : Word) (n : Nat) : Bool := p.verifyWrite a n

/-- How many of the `n` bytes from `a` on can be written before the first that cannot. -/
def reach (p : Pages) (a : Word) (n : Nat) : Nat :=
  ((List.range n).takeWhile fun i => p.writable (a + BitVec.ofNat 32 i)).length

/-- The variable a `get_user` fills; a fault leaves zero in it. -/
def getUser (p : Pages) (m : Mem) (a : Word) : Word :=
  if p.canRead a 4 then m.word a else 0

/-- The variable a `get_user` of two bytes fills. -/
def getHalf (p : Pages) (m : Mem) (a : Word) : BitVec 16 :=
  if p.canRead a 2 then m.half a else 0

/-- The variable a `get_user` of one byte fills. -/
def getByte (p : Pages) (m : Mem) (a : Word) : Byte :=
  if p.canRead a 1 then m a else 0

/-- Memory after a `put_user` whose result nobody looks at. -/
def putUser (p : Pages) (a v : Word) (m : Mem) : Mem :=
  if p.canWrite a 4 then m.store a v.bytes else m

/-- A `put_user` of one byte: whether it arrived, and memory afterwards. -/
def putByte (p : Pages) (a : Word) (b : Byte) (m : Mem) : Bool × Mem :=
  if p.canWrite a 1 then (true, m.store a [b]) else (false, m)

/-- A `put_user` of two bytes. -/
def putHalf (p : Pages) (a : Word) (v : BitVec 16) (m : Mem) : Bool × Mem :=
  if p.canWrite a 2 then (true, m.store a (halfBytes v)) else (false, m)

/-- The words a `copy_from_user` fetches; `none` is a fault. -/
def copyFromUser (p : Pages) (a : Word) (n : Nat) (m : Mem) : Option (List Word) :=
  if p.canRead a (4 * n) then some ((List.range n).map (m.slot a)) else none

/-- Memory after a `copy_to_user` of whole words; `none` is a fault. -/
def copyToUser (p : Pages) (a : Word) (ws : List Word) (m : Mem) : Option Mem :=
  if p.canWrite a (4 * ws.length) then some (m.store a (ws.flatMap Word.bytes)) else none

/-- The bytes a `copy_from_user` fetches; `none` is a fault. -/
def copyBytesFromUser (p : Pages) (a : Word) (n : Nat) (m : Mem) : Option (List Byte) :=
  if p.canRead a n then some (m.bytes a n) else none

/-- A `copy_to_user`: whether all bytes arrived, and memory afterwards. A copy that runs
into a byte it cannot write has stored those before it; one that would cross the limit is
not started. -/
def copyBytesToUser (p : Pages) (a : Word) (bs : List Byte) (m : Mem) : Bool × Mem :=
  if p.verifyWrite a bs.length then
    (p.canWrite a bs.length, m.store a (bs.take (p.reach a bs.length)))
  else (false, m)

variable {p : Pages}

theorem canRead_of_canWrite (h : p.canWrite a n = true) : p.canRead a n = true := by
  unfold canWrite at h
  unfold canRead
  rw [List.all_eq_true] at h ⊢
  exact fun i hi => p.readable_of_writable _ (h i hi)

theorem verifyRead_of_canRead (h : p.canRead a n = true) : p.verifyRead a n = true := by
  unfold canRead at h
  unfold verifyRead verifyWrite
  rw [List.all_eq_true] at h ⊢
  exact fun i hi => p.user_of_readable _ (h i hi)

theorem verifyWrite_of_canWrite (h : p.canWrite a n = true) : p.verifyWrite a n = true :=
  verifyRead_of_canRead (canRead_of_canWrite h)

variable {l : Nat}

/-- A part of a writable range. -/
theorem canWrite_part (h : p.canWrite a n = true) (hkl : k + l ≤ n) :
    p.canWrite (a + BitVec.ofNat 32 k) l = true := by
  unfold canWrite at h ⊢
  rw [List.all_eq_true] at h ⊢
  intro i hi
  rw [add_ofNat_add]
  refine h (k + i) (List.mem_range.mpr ?_)
  have := List.mem_range.mp hi
  omega

/-- The beginning of a writable range. -/
theorem canWrite_le (h : p.canWrite a n = true) (hl : l ≤ n) : p.canWrite a l = true := by
  have hpart := canWrite_part h (k := 0) (l := l) (by omega)
  rwa [BitVec.add_zero] at hpart

/-- A part of a readable range. -/
theorem canRead_part (h : p.canRead a n = true) (hkl : k + l ≤ n) :
    p.canRead (a + BitVec.ofNat 32 k) l = true := by
  unfold canRead at h ⊢
  rw [List.all_eq_true] at h ⊢
  intro i hi
  rw [add_ofNat_add]
  refine h (k + i) (List.mem_range.mpr ?_)
  have := List.mem_range.mp hi
  omega

theorem reach_of_canWrite (h : p.canWrite a n = true) : p.reach a n = n := by
  unfold canWrite at h
  rw [List.all_eq_true] at h
  unfold reach
  rw [List.takeWhile_eq_self_iff.mpr h, List.length_range]

/-- A copy into bytes that can all be written. -/
theorem copyBytesToUser_of_canWrite (m : Mem)
    (h : p.canWrite a bs.length = true) : p.copyBytesToUser a bs m = (true, m.store a bs) := by
  rw [copyBytesToUser, if_pos (verifyWrite_of_canWrite h), h, reach_of_canWrite h, List.take_length]

/-- A copy that arrived. -/
theorem copyBytesToUser_ok {m : Mem} (h : (p.copyBytesToUser a bs m).1 = true) :
    p.canWrite a bs.length = true ∧ (p.copyBytesToUser a bs m).2 = m.store a bs := by
  by_cases hw : p.canWrite a bs.length = true
  · exact ⟨hw, by rw [copyBytesToUser_of_canWrite m hw]⟩
  · unfold copyBytesToUser at h
    split at h
    · exact absurd h hw
    · cases h

/-- A word put behind a block. -/
theorem putUser_append (m : Mem) (v : Word)
    (h : p.canWrite (a + BitVec.ofNat 32 bs.length) 4 = true) (hlen : bs.length + 4 ≤ 2 ^ 32) :
    p.putUser (a + BitVec.ofNat 32 bs.length) v (m.store a bs) = m.store a (bs ++ v.bytes) := by
  rw [putUser, if_pos h]
  exact (Mem.store_adjacent m a hlen).1

/-- A byte put behind a block. -/
theorem putByte_append (m : Mem) (b : Byte)
    (h : p.canWrite (a + BitVec.ofNat 32 bs.length) 1 = true) (hlen : bs.length + 1 ≤ 2 ^ 32) :
    p.putByte (a + BitVec.ofNat 32 bs.length) b (m.store a bs) =
      (true, m.store a (bs ++ [b])) := by
  rw [putByte, if_pos h, (Mem.store_adjacent m a hlen).1]

/-- Two bytes put behind a block. -/
theorem putHalf_append (m : Mem) (v : BitVec 16)
    (h : p.canWrite (a + BitVec.ofNat 32 bs.length) 2 = true) (hlen : bs.length + 2 ≤ 2 ^ 32) :
    p.putHalf (a + BitVec.ofNat 32 bs.length) v (m.store a bs) =
      (true, m.store a (bs ++ halfBytes v)) := by
  rw [putHalf, if_pos h, (Mem.store_adjacent m a hlen).1]

/-- A block copied behind a block. -/
theorem copyBytesToUser_append (m : Mem) (bs : List Byte)
    (h : p.canWrite (a + BitVec.ofNat 32 bs.length) cs.length = true)
    (hlen : bs.length + cs.length ≤ 2 ^ 32) :
    p.copyBytesToUser (a + BitVec.ofNat 32 bs.length) cs (m.store a bs) =
      (true, m.store a (bs ++ cs)) := by
  rw [copyBytesToUser_of_canWrite _ h, (Mem.store_adjacent m a hlen).1]

section Behind

variable {p : Pages} {a : Word} {n : Nat} (h : p.canWrite a n = true) (hn : n ≤ 2 ^ 32)
  {bs : List Byte} {k : Nat} (hk : bs.length = k) (m : Mem)

include h hn hk

/-- Two bytes put behind the first `k` of a writable range. -/
theorem putHalf_behind (hle : k + 2 ≤ n) (v : BitVec 16) :
    (p.putHalf (a + BitVec.ofNat 32 k) v (m.store a bs)).2 = m.store a (bs ++ halfBytes v) := by
  subst hk
  rw [putHalf_append m v (canWrite_part h hle) (by omega)]

/-- A byte put behind them. -/
theorem putByte_behind (hle : k + 1 ≤ n) (b : Byte) :
    (p.putByte (a + BitVec.ofNat 32 k) b (m.store a bs)).2 = m.store a (bs ++ [b]) := by
  subst hk
  rw [putByte_append m b (canWrite_part h hle) (by omega)]

/-- A block copied behind them. -/
theorem copyBytesToUser_behind (hle : k + cs.length ≤ n) :
    p.copyBytesToUser (a + BitVec.ofNat 32 k) cs (m.store a bs) =
      (true, m.store a (bs ++ cs)) := by
  subst hk
  exact copyBytesToUser_append m bs (canWrite_part h hle) (by omega)

end Behind

/-- A process all of whose bytes are its own. -/
def everywhere : Pages :=
  ⟨fun _ => true, fun _ => true, fun _ => true, fun _ _ => rfl, fun _ _ => rfl⟩

/-- A process to which all addresses below the limit belong. -/
def below (limit : Nat) : Pages where
  user a := a.toNat < limit
  readable a := a.toNat < limit
  writable a := a.toNat < limit
  user_of_readable _ h := h
  readable_of_writable _ h := h

theorem canWrite_below {limit : Nat} (h : a.toNat + n ≤ limit) :
    (below limit).canWrite a n = true := by
  unfold canWrite
  rw [List.all_eq_true]
  intro i hi
  have hlt := List.mem_range.mp hi
  have hle : (a + BitVec.ofNat 32 i).toNat ≤ a.toNat + i := by
    exact (Nat.mod_le _ _).trans (Nat.add_le_add_left (Nat.mod_le _ _) _)
  exact decide_eq_true (by omega)

end Pages

end AbiEmu
