import Mathlib.Data.List.TakeWhile
import AbiEmu.Lib.User

/-!
# Directories of sixteen-byte slots (`abi/svr4/misc.c`)

A program of the old days reads a directory like a file. It finds slots of sixteen
bytes, two for the inode number and fourteen for the name; a longer name is cut into
slots of which all but the last carry the inode number `0xffff`. `decode` is the
program's side.

`slotBytes` is what `abi_read_dir` puts into the buffer for an entry. The inode number
of the last slot is stored through a `char` pointer, so that only its low byte is
written and the second byte is whatever the buffer held. `decode_bytesOf_iff` says when
the program gets back what the directory has: the second bytes must have been right,
and no folded number may be the mark.
-/

namespace AbiEmu.Dir

open List

def EBADF : Int := 9
def ENOMEM : Int := 12
def EFAULT : Int := 14
def EINVAL : Int := 22
def EOVERFLOW : Int := 75

/-- An entry of a directory, as `old_readdir` gives it. -/
structure Entry where
  ino : Word
  name : List Byte
  name_pos : 0 < name.length
  name_le : name.length ≤ 255
  no_nul : ∀ b ∈ name, b ≠ 0

/-- `reclen`: the bytes the slots of a name take. -/
def nameSize (p : List Byte) : Nat := 16 * ((p.length + 13) / 14)

/-- The bytes the slots of an entry take. -/
def Entry.size (e : Entry) : Nat := nameSize e.name

/-- The number an inode has for a program with short inode numbers
(`linux_to_svr4_o_ino_t`). -/
def linuxToSvr4OInoT (ino : Word) : BitVec 16 :=
  if ino &&& 0xffff ≠ 0 then ino.setWidth 16 else 0xfffe

/-- The value `abi_read_dir` hands to `put_user` for the last slot. -/
def readDirIno (ino : Word) : Word :=
  if ino &&& 0xffff ≠ 0 then ino &&& 0xffff else 0xfffe

/-! ## The bytes of an entry -/

/-- The last slot. The byte `hi` is not written. -/
def lastSlot (ino : Word) (hi : Byte) (p : List Byte) : List Byte :=
  (readDirIno ino).setWidth 8 :: hi :: p ++ List.replicate (14 - p.length) 0

/-- The inode number that is read in the last slot. -/
def slotIno (ino : Word) (hi : Byte) : BitVec 16 := hi ++ (readDirIno ino).setWidth 8

/-- The slots of a name; there are at most `n` before the last. -/
def slotBytes (ino : Word) (hi : Byte) : Nat → List Byte → List Byte
  | 0, p => lastSlot ino hi p
  | n + 1, p =>
    if 14 < p.length then 0xff :: 0xff :: p.take 14 ++ slotBytes ino hi n (p.drop 14)
    else lastSlot ino hi p

/-- The bytes of entries, each with the byte that is not written for it. -/
def bytesOf (l : List (Entry × Byte)) : List Byte :=
  l.flatMap fun x => slotBytes x.1.ino x.2 x.1.name.length x.1.name

/-- The entries that go into a buffer from `posn` on, each with the byte that `old`, the
buffer, holds where the second byte of its inode number should go. -/
def held (old : Nat → Byte) : Nat → List Entry → List (Entry × Byte)
  | _, [] => []
  | posn, e :: es => (e, old (posn + e.size - 15)) :: held old (posn + e.size) es

/-- What a call leaves in the buffer for the entries it serves. -/
def image (old : Nat → Byte) (posn : Nat) (es : List Entry) : List Byte :=
  bytesOf (held old posn es)

variable {p : List Byte}

theorem nameSize_drop (h : 14 < p.length) : nameSize p = 16 + nameSize (p.drop 14) := by
  unfold nameSize
  rw [length_drop]
  omega

theorem nameSize_short (hpos : 0 < p.length) (h : p.length ≤ 14) : nameSize p = 16 := by
  unfold nameSize
  omega

variable (e : Entry)

theorem Entry.size_pos : 16 ≤ e.size := by
  have := e.name_pos
  unfold Entry.size nameSize
  omega

theorem Entry.size_le : e.size ≤ 304 := by
  have := e.name_le
  unfold Entry.size nameSize
  omega

theorem length_lastSlot {ino : Word} {hi : Byte} (h : p.length ≤ 14) :
    (lastSlot ino hi p).length = 16 := by
  simp [lastSlot]
  omega

theorem length_slotBytes (ino : Word) (hi : Byte) : ∀ (n : Nat) (p : List Byte),
    0 < p.length → p.length ≤ 14 * (n + 1) → (slotBytes ino hi n p).length = nameSize p := by
  intro n
  induction n with
  | zero =>
    intro p hpos hp
    rw [slotBytes, length_lastSlot (by omega), nameSize_short hpos (by omega)]
  | succ n ih =>
    intro p hpos hp
    rw [slotBytes]
    split_ifs with hlong
    · have hdrop := length_drop (i := 14) (l := p)
      rw [length_append, ih _ (by omega) (by omega), nameSize_drop hlong]
      simp
      omega
    · rw [length_lastSlot (by omega), nameSize_short hpos (by omega)]

theorem Entry.length_slotBytes (hi : Byte) :
    (slotBytes e.ino hi e.name.length e.name).length = e.size :=
  Dir.length_slotBytes _ _ _ _ e.name_pos (by omega)

/-- The bytes of a list of entries. -/
def total (es : List Entry) : Nat := (es.map Entry.size).sum

@[simp] theorem total_nil : total [] = 0 := rfl

variable (es : List Entry)

@[simp] theorem total_cons : total (e :: es) = e.size + total es := by
  simp [total]

theorem total_append (es fs : List Entry) : total (es ++ fs) = total es + total fs := by
  simp [total]

theorem bytesOf_cons (hi : Byte) (l : List (Entry × Byte)) :
    bytesOf ((e, hi) :: l) = slotBytes e.ino hi e.name.length e.name ++ bytesOf l := rfl

theorem bytesOf_append (l l' : List (Entry × Byte)) : bytesOf (l ++ l') = bytesOf l ++ bytesOf l' :=
  flatMap_append

variable (old : Nat → Byte)

theorem image_cons (posn : Nat) (e : Entry) (es : List Entry) :
    image old posn (e :: es) = slotBytes e.ino (old (posn + e.size - 15)) e.name.length e.name ++
      image old (posn + e.size) es := rfl

theorem held_fst : ∀ posn, (held old posn es).map Prod.fst = es := by
  induction es with
  | nil => intro posn; rfl
  | cons e es ih => intro posn; rw [held, map_cons, ih]

theorem length_bytesOf (l : List (Entry × Byte)) : (bytesOf l).length = total (l.map Prod.fst) := by
  induction l with
  | nil => rfl
  | cons x l ih =>
    obtain ⟨e, hi⟩ := x
    rw [bytesOf_cons, length_append, e.length_slotBytes, ih, map_cons, total_cons]

theorem length_image (posn : Nat) (es : List Entry) : (image old posn es).length = total es := by
  rw [image, length_bytesOf, held_fst]

/-! ## The program's side -/

/-- The slots of a piece of output. -/
def slotsOf : Nat → List Byte → List (List Byte)
  | 0, _ => []
  | n + 1, bs => bs.take 16 :: slotsOf n (bs.drop 16)

/-- The slot is followed by another one of the same name. -/
def marked : List Byte → Bool
  | b0 :: b1 :: _ => b0 == 0xff && b1 == 0xff
  | _ => false

/-- The slots of names, joined; `head` is the part of a name that has been seen. Names
end at the first zero byte. -/
def join (head : List Byte) : List (List Byte) → Option (List (BitVec 16 × List Byte))
  | [] => if head = [] then some [] else none
  | slot :: slots =>
    if marked slot then join (head ++ slot.drop 2) slots
    else (join [] slots).map fun es =>
      (slot.getD 1 0 ++ slot.getD 0 0,
        head ++ (slot.drop 2).takeWhile fun b => b != 0) :: es

/-- The entries a program finds in what it has read. -/
def decode (bs : List Byte) : Option (List (BitVec 16 × List Byte)) :=
  join [] (slotsOf (bs.length / 16) bs)

theorem slotsOf_append {slot : List Byte} (h : slot.length = 16) (n : Nat) (bs : List Byte) :
    slotsOf (n + 1) (slot ++ bs) = slot :: slotsOf n bs := by
  rw [slotsOf, ← h, take_left, drop_left]

theorem append_eq_mark_iff (hi lo : Byte) :
    hi ++ lo = (0xffff : BitVec 16) ↔ lo = 0xff ∧ hi = 0xff := by
  constructor
  · intro h
    have hn := congrArg BitVec.toNat h
    rw [toNat_append_byte] at hn
    change _ = 65535 at hn
    exact ⟨BitVec.eq_of_toNat_eq (by change _ = 255; omega),
      BitVec.eq_of_toNat_eq (by change _ = 255; omega)⟩
  · intro h
    rw [h.1, h.2]
    rfl

theorem marked_lastSlot (ino : Word) (hi : Byte) (p : List Byte) :
    marked (lastSlot ino hi p) = true ↔ slotIno ino hi = 0xffff := by
  simp only [marked, lastSlot, cons_append, Bool.and_eq_true, beq_iff_eq]
  exact (append_eq_mark_iff _ _).symm

theorem takeWhile_lastSlot (hp : ∀ b ∈ p, b ≠ 0) (ino : Word) (hi : Byte) :
    ((lastSlot ino hi p).drop 2).takeWhile (fun b => b != 0) = p := by
  simp only [lastSlot, cons_append, drop_succ_cons, drop_zero]
  rw [takeWhile_append_of_pos (by simpa using hp)]
  cases hn : 14 - p.length <;> simp [replicate_succ]

/-- The slots of one entry: the entry, or, if its last slot looks like one to be
continued, the beginning of a name that never was. -/
theorem join_slotBytes (ino : Word) (hi : Byte) (k : Nat) (bs : List Byte) :
    ∀ (n : Nat) (p head : List Byte), 0 < p.length → p.length ≤ 14 * (n + 1) →
      (∀ b ∈ p, b ≠ 0) →
      (slotIno ino hi ≠ 0xffff →
        join head (slotsOf (nameSize p / 16 + k) (slotBytes ino hi n p ++ bs)) =
          (join [] (slotsOf k bs)).map fun es => (slotIno ino hi, head ++ p) :: es) ∧
      (slotIno ino hi = 0xffff →
        ∃ head', join head (slotsOf (nameSize p / 16 + k) (slotBytes ino hi n p ++ bs)) =
          join head' (slotsOf k bs)) := by
  have hlast : ∀ p head : List Byte, 0 < p.length → p.length ≤ 14 → (∀ b ∈ p, b ≠ 0) →
      (slotIno ino hi ≠ 0xffff →
        join head (slotsOf (nameSize p / 16 + k) (lastSlot ino hi p ++ bs)) =
          (join [] (slotsOf k bs)).map fun es => (slotIno ino hi, head ++ p) :: es) ∧
      (slotIno ino hi = 0xffff →
        ∃ head', join head (slotsOf (nameSize p / 16 + k) (lastSlot ino hi p ++ bs)) =
          join head' (slotsOf k bs)) := by
    intro p head hpos hp hnul
    rw [nameSize_short hpos hp, Nat.add_comm, slotsOf_append (length_lastSlot hp), join,
      takeWhile_lastSlot hnul]
    refine ⟨fun hne => ?_, fun heq => ⟨_, if_pos ((marked_lastSlot ino hi p).mpr heq)⟩⟩
    rw [if_neg (mt (marked_lastSlot ino hi p).mp hne)]
    rfl
  intro n
  induction n with
  | zero => intro p head hpos hp hnul; exact hlast p head hpos (by omega) hnul
  | succ n ih =>
    intro p head hpos hp hnul
    by_cases hlong : 14 < p.length
    · have hdrop := length_drop (i := 14) (l := p)
      have hslot : (0xff :: 0xff :: p.take 14 : List Byte).length = 16 := by simp; omega
      have hcount : nameSize p / 16 + k = nameSize (p.drop 14) / 16 + k + 1 := by
        rw [nameSize_drop hlong]
        omega
      have hstep : join head (slotsOf (nameSize p / 16 + k) (slotBytes ino hi (n + 1) p ++ bs)) =
          join (head ++ p.take 14)
            (slotsOf (nameSize (p.drop 14) / 16 + k) (slotBytes ino hi n (p.drop 14) ++ bs)) := by
        rw [slotBytes, if_pos hlong, hcount, append_assoc, slotsOf_append hslot, join,
          if_pos (by rfl)]
        rfl
      rw [hstep]
      have hrest := ih (p.drop 14) (head ++ p.take 14) (by omega) (by omega)
        fun b hb => hnul b (mem_of_mem_drop hb)
      rw [append_assoc, take_append_drop] at hrest
      exact hrest
    · rw [slotBytes, if_neg hlong]
      exact hlast p head hpos (by omega) hnul

theorem total_div : total (e :: es) / 16 = nameSize e.name / 16 + total es / 16 := by
  rw [total_cons, Entry.size, nameSize]
  omega

/-- No more entries are found than were put there. -/
theorem length_join_bytesOf (l : List (Entry × Byte)) : ∀ (head : List Byte)
    (found : List (BitVec 16 × List Byte)),
    join head (slotsOf (total (l.map Prod.fst) / 16) (bytesOf l)) = some found →
      found.length ≤ l.length := by
  induction l with
  | nil =>
    intro head found h
    rw [show slotsOf (total (map Prod.fst []) / 16) (bytesOf []) = [] from rfl, join] at h
    split at h
    · cases h
      rfl
    · cases h
  | cons x l ih =>
    obtain ⟨e, hi⟩ := x
    intro head found h
    have hone := join_slotBytes e.ino hi (total (l.map Prod.fst) / 16) (bytesOf l) e.name.length
      e.name head e.name_pos (by omega) e.no_nul
    rw [map_cons, total_div, bytesOf_cons] at h
    by_cases hmark : slotIno e.ino hi = 0xffff
    · obtain ⟨head', heq⟩ := hone.2 hmark
      rw [heq] at h
      exact (ih _ _ h).trans (Nat.le_succ _)
    · rw [hone.1 hmark] at h
      obtain ⟨found', hfound, rfl⟩ := Option.map_eq_some_iff.mp h
      exact Nat.succ_le_succ (ih _ _ hfound)

/-- A program that looks at its entries through `f` sees what it should, `g`, exactly if
no last slot is taken for another one and each entry is seen as it should be. -/
theorem decode_bytesOf_iff {γ : Type} (f : BitVec 16 × List Byte → γ) (g : Entry → γ)
    (l : List (Entry × Byte)) :
    (decode (bytesOf l)).map (List.map f) = some (l.map fun x => g x.1) ↔
      ∀ x ∈ l, slotIno x.1.ino x.2 ≠ 0xffff ∧ f (slotIno x.1.ino x.2, x.1.name) = g x.1 := by
  rw [decode, length_bytesOf]
  induction l with
  | nil => simp [slotsOf, join]
  | cons x l ih =>
    obtain ⟨e, hi⟩ := x
    have hone := join_slotBytes e.ino hi (total (l.map Prod.fst) / 16) (bytesOf l) e.name.length
      e.name [] e.name_pos (by omega) e.no_nul
    rw [map_cons, total_div, bytesOf_cons, forall_mem_cons, ← ih]
    by_cases hmark : slotIno e.ino hi = 0xffff
    · refine iff_of_false (fun h => ?_) fun h => h.1.1 hmark
      -- the entry runs into the next one, so one is missing
      obtain ⟨head', heq⟩ := hone.2 hmark
      rw [heq] at h
      obtain ⟨found, hfound, hmap⟩ := Option.map_eq_some_iff.mp h
      have hle := length_join_bytesOf l _ _ hfound
      have hlen := congrArg length hmap
      simp only [length_map, length_cons] at hlen
      omega
    · rw [hone.1 hmark, nil_append]
      cases join [] (slotsOf (total (l.map Prod.fst) / 16) (bytesOf l)) with
      | none => simp
      | some found => simpa [and_comm] using fun _ _ => hmark

end AbiEmu.Dir
