import Mathlib.Tactic.IntervalCases
import AbiEmu.Dir.Account
import AbiEmu.Dir.Getdents

/-!
# One inode number for one file

A program that finds its way through directories compares the inode number of an entry
with that of a file. Under a personality with short inode numbers there are four places
where it may get one: `read()` on the directory, `getdents`, `stat` and `xstat`. The
comments in the source demand that they fold the number in the same way.

`stat` and `xstat` do. `getdents` does not fold at all, and `read()` stores one byte of
the two. So the four agree on a number that is not zero exactly if there is nothing to
fold and the buffer of the `read()` held the second byte already (`inodes_agree_iff`).
-/

namespace AbiEmu.Dir

open BitVec

/-! ## Where the numbers are found -/

/-- A `read()` on a directory that serves an entry with the inode number `ino`. -/
structure ReadReport (ino : Word) where
  d : Directory
  p : Nat
  es : List (Nat × Entry)
  fuel : Nat
  call : Call
  pre : List Entry
  e : Entry
  post : List Entry
  listing : Listing d p es
  enough : es.length < fuel
  smooth : call.Smooth es
  served : (burst call.count.toInt es).served = pre ++ e :: post
  ino_eq : e.ino = ino

/-- The last slot of the entry. -/
def ReadReport.slot {ino : Word} (R : ReadReport ino) : Word :=
  R.call.buf + BitVec.ofNat 32 (total R.pre + R.e.size - 16)

/-- The number the program reads there after the call. -/
def ReadReport.value {ino : Word} (R : ReadReport ino) : BitVec 16 :=
  match abiReadDir R.d R.fuel R.call R.p with
  | some r => r.mem.half R.slot
  | none => 0

/-- A `getdents` with room for an entry with the inode number `ino`. -/
structure GetdentsReport (ino : Word) where
  pg : Pages
  file : DirFile
  dirent : Word
  n : Nat
  mem : Mem
  pre : List (Nat × Entry)
  q : Nat
  e : Entry
  post : List (Nat × Entry)
  fget : file.fget = true
  accepted : file.refused = none
  entries : file.entries = pre ++ (q, e) :: post
  small : n < 2 ^ 31
  writable : pg.canWrite dirent n = true
  room : recordsSize pre + reclen e.name ≤ n
  ino_eq : e.ino = ino

/-- The low half of the number in the record. -/
def GetdentsReport.value {ino : Word} (G : GetdentsReport ino) (personality : Word) : BitVec 16 :=
  match svr4Getdents G.pg personality G.file G.dirent (BitVec.ofNat 32 G.n) G.mem with
  | .ok (_, m) => m.half (G.dirent + BitVec.ofNat 32 (recordsSize G.pre))
  | .error _ => 0

/-- A `stat` of a file with the inode number `ino` that returns zero. -/
structure StatReport (ino : Word) where
  pg : Pages
  overflow : Overflow
  st : Kstat
  bufp : Word
  mem : Mem
  returns : (svr4Stat pg overflow (.ok st) bufp mem).1 = 0
  ino_eq : st.ino = ino

/-- `st_ino`. -/
def StatReport.value {ino : Word} (S : StatReport ino) : BitVec 16 :=
  (svr4Stat S.pg S.overflow (.ok S.st) S.bufp S.mem).2.half (S.bufp + 2)

/-- An `xstat` in the long version that returns zero. -/
structure XstatReport (ino personality : Word) where
  pg : Pages
  overflow : Overflow
  st : Kstat
  bufp : Word
  mem : Mem
  returns : (svr4Xstat pg overflow personality 2 (.ok st) bufp mem).1 = 0
  ino_eq : st.ino = ino

/-- The low half of `st_ino`. -/
def XstatReport.value {ino personality : Word} (X : XstatReport ino personality) : BitVec 16 :=
  (svr4Xstat X.pg X.overflow personality 2 (.ok X.st) X.bufp X.mem).2.half (X.bufp + 16)

/-! ## What they are -/

theorem held_append (old : Nat → Byte) (es fs : List Entry) : ∀ posn,
    held old posn (es ++ fs) = held old posn es ++ held old (posn + total es) fs := by
  induction es with
  | nil => intro posn; rfl
  | cons e es ih =>
    intro posn
    rw [List.cons_append, held, held, ih, List.cons_append, total_cons, Nat.add_assoc]

/-- The two bytes of the number in the last slot. -/
theorem slotBytes_last (ino : Word) (hi : Byte) : ∀ (n : Nat) (p : List Byte), 0 < p.length →
    p.length ≤ 14 * (n + 1) →
    (slotBytes ino hi n p)[nameSize p - 16]? = some ((readDirIno ino).setWidth 8) ∧
      (slotBytes ino hi n p)[nameSize p - 15]? = some hi := by
  intro n
  induction n with
  | zero =>
    intro p hpos hp
    rw [nameSize_short hpos (by omega)]
    exact ⟨rfl, rfl⟩
  | succ n ih =>
    intro p hpos hp
    rw [slotBytes]
    by_cases hlong : 14 < p.length
    · have hdrop := List.length_drop (i := 14) (l := p)
      have hsize : 16 ≤ nameSize (p.drop 14) := by unfold nameSize; omega
      have hslot : (0xff :: 0xff :: p.take 14 : List Byte).length = 16 := by simp; omega
      obtain ⟨hlo, hhi⟩ := ih (p.drop 14) (by omega) (by omega)
      rw [if_pos hlong, nameSize_drop hlong, List.getElem?_append_right (by omega),
        List.getElem?_append_right (by omega), hslot,
        show 16 + nameSize (p.drop 14) - 16 - 16 = nameSize (p.drop 14) - 16 by omega,
        show 16 + nameSize (p.drop 14) - 15 - 16 = nameSize (p.drop 14) - 15 by omega]
      exact ⟨hlo, hhi⟩
    · rw [if_neg hlong, nameSize_short hpos (by omega)]
      exact ⟨rfl, rfl⟩

variable {ino : Word}

/-- `read()` reports the low byte of the folded number, and the byte that was there. -/
theorem ReadReport.value_eq (R : ReadReport ino) :
    R.value = slotIno ino (R.call.mem (R.slot + 1)) := by
  have hs := R.smooth
  obtain ⟨fPos', -, hcall⟩ :=
    abiReadDir_eq R.listing R.enough hs.fget hs.page hs.writable hs.space
  have hspace := hs.space
  have hpos := R.e.size_pos
  rw [R.served, total_append, total_cons] at hspace
  have hslot : R.slot + 1 = R.call.buf + BitVec.ofNat 32 (total R.pre + R.e.size - 15) := by
    rw [ReadReport.slot, show (1 : Word) = BitVec.ofNat 32 1 from rfl, add_ofNat_add,
      show total R.pre + R.e.size - 16 + 1 = total R.pre + R.e.size - 15 by omega]
  -- the slots of the entry follow those of the entries before it
  have himage (i : Nat) (hi : i < R.e.size) :
      (image (fun i => R.call.mem (R.call.buf + BitVec.ofNat 32 i)) 0
        (burst R.call.count.toInt R.es).served)[total R.pre + i]? =
      (slotBytes R.e.ino (R.call.mem (R.slot + 1)) R.e.name.length R.e.name)[i]? := by
    have hlen := R.e.length_slotBytes (R.call.mem (R.slot + 1))
    rw [R.served, image, held_append, bytesOf_append, held, bytesOf_cons, Nat.zero_add, ← hslot,
      List.getElem?_append_right (by rw [length_bytesOf, held_fst]; omega), length_bytesOf,
        held_fst,
      Nat.add_sub_cancel_left, List.getElem?_append_left (by omega)]
  obtain ⟨hlo, hhi⟩ := slotBytes_last R.e.ino (R.call.mem (R.slot + 1)) R.e.name.length R.e.name
    R.e.name_pos (by omega)
  have hlow := Mem.store_add R.call.mem R.call.buf (by omega)
    ((himage (R.e.size - 16) (by omega)).trans hlo)
  have hhigh := Mem.store_add R.call.mem R.call.buf (by omega)
    ((himage (R.e.size - 15) (by omega)).trans hhi)
  rw [← Nat.add_sub_assoc (by omega)] at hlow hhigh
  rw [← hslot] at hhigh
  rw [ReadReport.value, hcall]
  dsimp only
  rw [Mem.half, hhigh, ReadReport.slot, hlow, slotIno, R.ino_eq]

theorem GetdentsReport.value_eq (G : GetdentsReport ino) (personality : Word) :
    G.value personality = ino.setWidth 16 := by
  obtain ⟨ret, m, hcall, hino⟩ := getdents_reports personality G.mem G.fget G.accepted G.entries
    G.small G.writable G.room
  have hword := (hino.trans G.ino_eq).symm
  rw [GetdentsReport.value, hcall, congrArg (setWidth 16) hword]
  exact (Mem.word_low_half ..).symm

theorem StatReport.value_eq (S : StatReport ino) : S.value = linuxToSvr4OInoT ino :=
  (svr4Stat_ino (Prod.ext S.returns rfl)).trans (congrArg linuxToSvr4OInoT S.ino_eq)

theorem XstatReport.value_eq {ino personality : Word} (X : XstatReport ino personality) :
    X.value = (linuxToSvr4InoT personality ino).setWidth 16 := by
  have hword := svr4Xstat_ino (Prod.ext X.returns rfl)
  rw [X.ino_eq] at hword
  rw [← hword]
  exact (Mem.word_low_half ..).symm

/-! ## When they agree -/

theorem low_eq_zero_iff (ino : Word) : ino &&& 0xffff = 0 ↔ ino.setWidth 16 = 0 := by
  have hand : (ino &&& 0xffff).toNat = ino.toNat % 2 ^ 16 := by
    exact Nat.and_two_pow_sub_one_eq_mod _ 16
  rw [← toNat_inj, ← toNat_inj, hand, toNat_setWidth]
  exact Iff.rfl

theorem linuxToSvr4OInoT_ne_zero (ino : Word) : linuxToSvr4OInoT ino ≠ 0 := by
  unfold linuxToSvr4OInoT
  split_ifs with h
  · exact mt (low_eq_zero_iff ino).mpr h
  · decide

/-- `xstat` folds as `stat` does. -/
theorem linuxToSvr4InoT_low {personality : Word} (h : shortInode personality = true) (ino : Word) :
    (linuxToSvr4InoT personality ino).setWidth 16 = linuxToSvr4OInoT ino := by
  unfold linuxToSvr4InoT linuxToSvr4OInoT
  rw [if_neg (by simp [h])]
  by_cases hlow : ino &&& 0xffff ≠ 0
  · rw [if_pos hlow, if_pos hlow]
  · rw [if_neg hlow, if_neg hlow]
    rfl

/-- The number that is not folded. -/
theorem setWidth_eq_fold_iff (ino : Word) :
    ino.setWidth 16 = linuxToSvr4OInoT ino ↔ ino &&& 0xffff ≠ 0 := by
  unfold linuxToSvr4OInoT
  split_ifs with h
  · exact iff_of_true rfl h
  · refine iff_of_false ?_ h
    rw [(low_eq_zero_iff ino).mp (not_not.mp h)]
    decide

/-- The number with the byte that was there. -/
theorem slotIno_eq_iff (h : ino &&& 0xffff ≠ 0) (hi : Byte) :
    slotIno ino hi = ino.setWidth 16 ↔ hi = ino.extractLsb' 8 8 := by
  have hbytes : ino.setWidth 16 = ino.extractLsb' 8 8 ++ (readDirIno ino).setWidth 8 := by
    rw [readDirIno, if_pos h]
    apply eq_of_getLsbD_eq
    intro i hi
    rw [getLsbD_append]
    interval_cases i <;> simp
  rw [slotIno, hbytes]
  exact append_left_inj ..

/-- Under a personality with short inode numbers the four calls report one number, and not
zero, for a file exactly if the low half of its number is not zero and the buffer of the
`read()` held the second byte of it. The number is then the low half, whatever else was in
the buffers. -/
theorem inodes_agree_iff {ino personality : Word} (h : shortInode personality = true)
    (R : ReadReport ino) (G : GetdentsReport ino) (S : StatReport ino)
    (X : XstatReport ino personality) :
    ((∃ v, v ≠ 0 ∧ R.value = v ∧ G.value personality = v ∧ S.value = v ∧ X.value = v) ↔
      ino &&& 0xffff ≠ 0 ∧ R.call.mem (R.slot + 1) = ino.extractLsb' 8 8) ∧
    (ino &&& 0xffff ≠ 0 → R.call.mem (R.slot + 1) = ino.extractLsb' 8 8 →
      R.value = ino.setWidth 16) := by
  rw [R.value_eq, G.value_eq, S.value_eq, X.value_eq, linuxToSvr4InoT_low h]
  refine ⟨⟨fun hv => ?_, fun hc => ?_⟩, fun hlow hold => (slotIno_eq_iff hlow _).mpr hold⟩
  · obtain ⟨v, -, hR, hG, hS, -⟩ := hv
    have hlow := (setWidth_eq_fold_iff ino).mp (hG.trans hS.symm)
    exact ⟨hlow, (slotIno_eq_iff hlow _).mp (hR.trans hG.symm)⟩
  · have hfold := (setWidth_eq_fold_iff ino).mpr hc.1
    exact ⟨linuxToSvr4OInoT ino, linuxToSvr4OInoT_ne_zero ino,
      ((slotIno_eq_iff hc.1 _).mpr hc.2).trans hfold, hfold, rfl, rfl⟩

/-! ## A file -/

/-- An entry with a short name. -/
def entryOf (ino : Word) : Entry :=
  ⟨ino, [0x66], by decide, by decide, List.forall_mem_singleton.mpr (by decide)⟩

theorem entryOf_size (ino : Word) : (entryOf ino).size = 16 := by
  simp [Entry.size, nameSize, entryOf]

theorem burst_entryOf (ino : Word) :
    burst (16 : Word).toInt [(0, entryOf ino)] = ⟨[entryOf ino], [], none⟩ := by
  have hcount : (16 : Word).toInt = 16 := rfl
  rw [hcount, (burst_put [] 0 (by rw [entryOf_size]; decide)).1, rounds]

/-- A directory of one entry, read into a buffer that is filled with `b`. -/
def readOf (ino : Word) (b : Byte) : ReadReport ino where
  d p := if p = 0 then .entry (entryOf ino) 1 else .stop 0
  p := 0
  es := [(0, entryOf ino)]
  fuel := 2
  call := ⟨.everywhere, 0x1000, 16, fun _ => b, true, true⟩
  pre := []
  e := entryOf ino
  post := []
  listing := .cons (if_pos rfl) (.nil (if_neg (by decide)))
  enough := Nat.lt_succ_self 1
  smooth := by
    refine ⟨rfl, rfl, ?_, ?_⟩ <;> rw [burst_entryOf]
    · simp [entryOf_size, Pages.canWrite, Pages.everywhere]
    · simp [entryOf_size]
  served := by rw [burst_entryOf]; rfl
  ino_eq := rfl

/-- The same directory through `getdents`. -/
def getdentsOf (ino : Word) : GetdentsReport ino where
  pg := .everywhere
  file := ⟨true, none, [(0, entryOf ino)], 1⟩
  dirent := 0x1000
  n := 12
  mem := fun _ => 0
  pre := []
  q := 0
  e := entryOf ino
  post := []
  fget := rfl
  accepted := rfl
  entries := rfl
  small := by decide
  writable := by decide
  room := by simp [recordsSize, reclen, entryOf]
  ino_eq := rfl

/-- What the kernel knows of the file. -/
def kstatOf (ino : Word) : Kstat :=
  ⟨ino, 0, 0, 1, 0, 0, 0, 0, ⟨0, 0⟩, ⟨0, 0⟩, ⟨0, 0⟩, 0, 0⟩

def statOf (ino : Word) : StatReport ino where
  pg := .everywhere
  overflow := ⟨0xfffe, 0xfffe⟩
  st := kstatOf ino
  bufp := 0x1000
  mem := fun _ => 0
  returns := rfl
  ino_eq := rfl

def xstatOf (ino personality : Word) : XstatReport ino personality where
  pg := .everywhere
  overflow := ⟨0xfffe, 0xfffe⟩
  st := kstatOf ino
  bufp := 0x1000
  mem := fun _ => 0
  returns := rfl
  ino_eq := rfl

/-- A small number and a zeroed buffer. -/
theorem small_inode_agrees :
    shortInode 0x01000000 = true ∧ ∃ v, v ≠ 0 ∧ (readOf 5 0).value = v ∧
      (getdentsOf 5).value 0x01000000 = v ∧ (statOf 5).value = v ∧
      (xstatOf 5 0x01000000).value = v :=
  ⟨by decide, (inodes_agree_iff (by decide) (readOf 5 0) (getdentsOf 5) (statOf 5)
    (xstatOf 5 0x01000000)).1.mpr ⟨by decide, by decide⟩⟩

/-- The number that `read()` reports depends on the buffer, and `getdents` reports zero for
a number that `stat` folds. -/
theorem inodes_differ :
    shortInode 0x01000000 = true ∧ (readOf 5 0).value = 5 ∧ (readOf 5 0xff).value = 0xff05 ∧
      (getdentsOf 0x10000).value 0x01000000 = 0 ∧ (statOf 0x10000).value = 0xfffe := by
  exact ⟨by decide, by decide, by decide, by decide, by decide⟩

end AbiEmu.Dir
