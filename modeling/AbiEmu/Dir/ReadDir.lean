import AbiEmu.Dir.Slots

/-!
# Reading a directory with `read()` (`abi/svr4/misc.c`)

`abi_read_dir` fetches entries with `old_readdir`, one for each call, and puts them into
the buffer as slots. It stops when the next entry might not fit, judging by the size of
the last one, and when an entry has been fetched that does not fit it seeks back to
where that entry was, unless it is the first.

The kernel behind it is a directory that answers the same way each time it is asked at
the same position (`Directory`). `burst` is what a call does to the list of the entries
that are still to come, without memory or file positions. Offsets in the buffer are `int`s
(`wrap`). `abiReadDir_eq` says that the call does this as long as the bytes it puts can be
written, and that it leaves the file before the rest exactly if the position it seeks back to
is one that an `int` holds.
-/

namespace AbiEmu.Dir

/-- What `old_readdir` comes to at a file position. -/
inductive Fetched where
  /-- It returns 1: an entry, and the position behind it. -/
  | entry (de : Entry) (next : Nat)
  /-- It returns 0 at the end, or an error. -/
  | stop (errno : Nat)

/-- A directory that does not change, by file position. -/
abbrev Directory := Nat → Fetched

/-- The entries from position `p` to the end, each with its position. -/
inductive Listing (d : Directory) : Nat → List (Nat × Entry) → Prop where
  | nil {p : Nat} (h : d p = .stop 0) : Listing d p []
  | cons {p q : Nat} {e : Entry} {es : List (Nat × Entry)} (h : d p = .entry e q)
      (hes : Listing d q es) : Listing d p ((p, e) :: es)

/-- A call: the process, its buffer and count, the content of its memory, and whether
the descriptor is open and the page for the entry is granted. -/
structure Call where
  pg : Pages
  buf : Word
  count : Word
  mem : Mem
  fget : Bool
  page : Bool

/-- What a call leaves: its result, the memory of the process and the file position. -/
structure Result where
  ret : Int
  mem : Mem
  fPos : Nat

/-! ## One entry -/

/-- `while (de->d_namlen > 14)`: all slots but the last, at most `n` of them. The result
of the `put_user` is not looked at. -/
def putLong (pg : Pages) : Nat → Word → List Byte → Mem → Option (Word × List Byte) × Mem
  | 0, a, p, m => (some (a, p), m)
  | n + 1, a, p, m =>
    if 14 < p.length then
      let m := (pg.putHalf a 0xffff m).2
      let copied := pg.copyBytesToUser (a + 2) (p.take 14) m
      if copied.1 then putLong pg n (a + 16) (p.drop 14) copied.2 else (none, copied.2)
    else (some (a, p), m)

/-- The loop that fills the rest of the last slot, `n` bytes from `a` on. -/
def zeroFill (pg : Pages) : Nat → Word → Mem → Bool × Mem
  | 0, _, m => (true, m)
  | n + 1, a, m =>
    let put := pg.putByte a 0 m
    if put.1 then zeroFill pg n (a + 1) put.2 else put

/-- The last slot. `buf` is a `char *`, so one byte of the inode number is stored. -/
def putLast (pg : Pages) (a : Word) (ino : Word) (p : List Byte) (m : Mem) : Bool × Mem :=
  let put := pg.putByte a ((readDirIno ino).setWidth 8) m
  if ¬ put.1 then put
  else
    let copied := pg.copyBytesToUser (a + 2) p put.2
    if ¬ copied.1 then copied
    else zeroFill pg (14 - p.length) (a + 2 + BitVec.ofNat 32 p.length) copied.2

/-- An entry at `a`: whether it arrived, and memory afterwards. -/
def putEntry (pg : Pages) (n : Nat) (a : Word) (ino : Word) (p : List Byte) (m : Mem) :
    Bool × Mem :=
  match putLong pg n a p m with
  | (none, m) => (false, m)
  | (some (a, p), m) => putLast pg a ino p m

/-! ## The call -/

/-- `sys_lseek(fd, here, 0)`; a negative offset is refused. -/
def sysLseek (here : Int) (fPos : Nat) : Nat := if 0 ≤ here then here.toNat else fPos

/-- The loop of `abi_read_dir`, and the result after it. `posn`, `reclen` and `error` are
its variables; `none` means that it takes more rounds than `fuel`. -/
def readLoop (d : Directory) (c : Call) : Nat → Word → Word → Int → Mem → Nat → Option Result
  | 0, _, _, _, _, _ => none
  | fuel + 1, posn, reclen, error, m, fPos =>
    if (posn + reclen).toInt < c.count.toInt then
      let here := (BitVec.ofNat 32 fPos).toInt
      match d fPos with
      | .stop errno => some ⟨if posn ≠ 0 then posn.toInt else -errno, m, fPos⟩
      | .entry de next =>
        let reclen := BitVec.ofNat 32 de.size
        if c.count.toInt < (posn + reclen).toInt then
          let fPos := if posn ≠ 0 then sysLseek here next else next
          readLoop d c fuel posn reclen 1 m fPos
        else
          let put := putEntry c.pg de.name.length (c.buf + posn) de.ino de.name m
          if put.1 then readLoop d c fuel (posn + reclen) reclen 1 put.2 next
          else some ⟨-EFAULT, put.2, next⟩
    else some ⟨if posn ≠ 0 then posn.toInt else error, m, fPos⟩

/-- `abi_read_dir`. -/
def abiReadDir (d : Directory) (fuel : Nat) (c : Call) (fPos : Nat) : Option Result :=
  if ¬ c.fget then some ⟨-EBADF, c.mem, fPos⟩
  else if ¬ c.page then some ⟨-ENOMEM, c.mem, fPos⟩
  else readLoop d c fuel 0 0 0 c.mem fPos

/-! ## What a call does to the list of entries -/

/-- The entries a call serves, those that are left to the next call, and the position it
seeks back to. -/
structure Burst where
  served : List Entry
  rest : List (Nat × Entry)
  back : Option Nat

/-- A number of bytes as an `int`. -/
abbrev wrap (n : Nat) : Int := (BitVec.ofNat 32 n).toInt

/-- The rounds of a call: `posn` bytes are in the buffer, the last entry took `last`. -/
def rounds (count : Int) (posn last : Nat) : List (Nat × Entry) → Burst
  | [] => ⟨[], [], none⟩
  | (p, e) :: es =>
    if wrap (posn + last) < count then
      if wrap (posn + e.size) ≤ count then
        let b := rounds count (posn + e.size) e.size es
        { b with served := e :: b.served }
      else if posn = 0 then ⟨[], es, none⟩
      else ⟨[], (p, e) :: es, some p⟩
    else ⟨[], (p, e) :: es, none⟩

/-- What a call does to the list of entries. -/
def burst (count : Int) (es : List (Nat × Entry)) : Burst := rounds count 0 0 es

/-- The result of a call that starts before `es`. -/
def burstRet (count : Int) (es : List (Nat × Entry)) : Int :=
  match es with
  | [] => 0
  | (_, e) :: _ =>
    if 0 < count ∧ count < e.size then 1 else wrap (total (burst count es).served)

/-! ## The call, entry by entry -/

section Call

variable {pg : Pages} {d : Directory} {c : Call}

theorem zeroFill_eq (m : Mem) (a : Word) : ∀ (n : Nat) (bs : List Byte),
    pg.canWrite (a + BitVec.ofNat 32 bs.length) n = true → bs.length + n ≤ 2 ^ 32 →
    zeroFill pg n (a + BitVec.ofNat 32 bs.length) (m.store a bs) =
      (true, m.store a (bs ++ List.replicate n 0)) := by
  intro n
  induction n with
  | zero => intro bs _ _; rw [zeroFill, List.replicate_zero, List.append_nil]
  | succ n ih =>
    intro bs hw hlen
    have hfirst : pg.canWrite (a + BitVec.ofNat 32 bs.length) 1 = true :=
      Pages.canWrite_le hw (by omega)
    have hnext : a + BitVec.ofNat 32 bs.length + 1 =
        a + BitVec.ofNat 32 (bs ++ [(0 : Byte)]).length := by
      rw [List.length_append, BitVec.ofNat_add, BitVec.add_assoc]
      rfl
    have hrest : pg.canWrite (a + BitVec.ofNat 32 (bs ++ [(0 : Byte)]).length) n = true := by
      rw [← hnext]
      exact Pages.canWrite_part hw (k := 1) (by omega)
    rw [zeroFill, Pages.putByte_append m 0 hfirst (by omega), if_pos rfl, hnext,
      ih _ hrest (by simp; omega), List.append_assoc, List.replicate_succ]
    rfl

theorem putLast_eq (m : Mem) (a ino : Word) {p : List Byte} (hp : p.length ≤ 14)
    (hw : pg.canWrite a 16 = true) :
    putLast pg a ino p m = (true, m.store a (lastSlot ino (m (a + 1)) p)) := by
  have hbyte : pg.canWrite a 1 = true :=
    Pages.canWrite_le hw (by omega)
  -- the second byte stays what it is
  have hput : pg.putByte a ((readDirIno ino).setWidth 8) m =
      (true, m.store a [(readDirIno ino).setWidth 8, m (a + 1)]) := by
    rw [Pages.putByte, if_pos hbyte]
    exact congrArg _ (Mem.store_keep m a [(readDirIno ino).setWidth 8]).symm
  have hname : pg.copyBytesToUser (a + 2) p (m.store a [(readDirIno ino).setWidth 8, m (a + 1)]) =
      (true, m.store a ([(readDirIno ino).setWidth 8, m (a + 1)] ++ p)) :=
    Pages.copyBytesToUser_append m [(readDirIno ino).setWidth 8, m (a + 1)]
      (Pages.canWrite_part hw (by simp; omega)) (by simp; omega)
  have hbehind : a + 2 + BitVec.ofNat 32 p.length = a + BitVec.ofNat 32
      ([(readDirIno ino).setWidth 8, m (a + 1)] ++ p).length := by
    rw [List.length_append, BitVec.ofNat_add, BitVec.add_assoc]
    rfl
  have hfill := zeroFill_eq m a (14 - p.length) ([(readDirIno ino).setWidth 8, m (a + 1)] ++ p)
    (Pages.canWrite_part hw (by simp; omega)) (by simp; omega)
  rw [putLast, hput, if_neg (by simp), hname, if_neg (by simp), hbehind, hfill]
  rfl

/-- An entry arrives as its slots; the second byte of the inode number is that of the
buffer. -/
theorem putEntry_eq (ino : Word) : ∀ (n : Nat) (a : Word) (p : List Byte) (m : Mem),
    0 < p.length → p.length ≤ 14 * (n + 1) → pg.canWrite a (nameSize p) = true →
    nameSize p ≤ 2 ^ 32 →
    putEntry pg n a ino p m =
      (true, m.store a (slotBytes ino (m (a + BitVec.ofNat 32 (nameSize p - 15))) n p)) := by
  intro n
  induction n with
  | zero =>
    intro a p m hpos hp hw _
    rw [nameSize_short hpos (by omega)] at hw ⊢
    exact putLast_eq m a ino (by omega) hw
  | succ n ih =>
    intro a p m hpos hp hw hsize
    by_cases hlong : 14 < p.length
    · have hdrop := List.length_drop (i := 14) (l := p)
      have hdropSize : 16 ≤ nameSize (p.drop 14) := by unfold nameSize; omega
      rw [nameSize_drop hlong] at hw hsize
      have hhalf : pg.canWrite a 2 = true :=
        Pages.canWrite_le hw (by omega)
      have hcopy : pg.copyBytesToUser (a + 2) (p.take 14) (m.store a [0xff, 0xff]) =
          (true, m.store a ([0xff, 0xff] ++ p.take 14)) :=
        Pages.copyBytesToUser_append m [0xff, 0xff] (Pages.canWrite_part hw (by simp; omega))
          (by simp; omega)
      have hlen : ([0xff, 0xff] ++ p.take 14 : List Byte).length = 16 := by simp; omega
      have hrest := ih (a + 16) (p.drop 14) (m.store a ([0xff, 0xff] ++ p.take 14)) (by omega)
        (by omega) (Pages.canWrite_part hw (k := 16) (by omega)) (by omega)
      -- the byte that is not written lies in a later slot
      have hold : m.store a ([0xff, 0xff] ++ p.take 14)
          (a + 16 + BitVec.ofNat 32 (nameSize (p.drop 14) - 15)) =
          m (a + BitVec.ofNat 32 (nameSize p - 15)) := by
        rw [nameSize_drop hlong, show a + 16 + BitVec.ofNat 32 (nameSize (p.drop 14) - 15) =
          a + BitVec.ofNat 32 (16 + nameSize (p.drop 14) - 15) by bv_omega]
        refine Mem.store_apart m a ?_
        bv_omega
      have hstep : putEntry pg (n + 1) a ino p m =
          putEntry pg n (a + 16) ino (p.drop 14) (m.store a ([0xff, 0xff] ++ p.take 14)) := by
        rw [putEntry, putLong, if_pos hlong, Pages.putHalf, if_pos hhalf]
        dsimp only
        rw [show halfBytes 0xffff = [0xff, 0xff] from rfl, hcopy, if_pos rfl]
        rfl
      have hfit : ([0xff, 0xff] ++ p.take 14 : List Byte).length + (slotBytes ino
          (m (a + BitVec.ofNat 32 (nameSize p - 15))) n (p.drop 14)).length ≤ 2 ^ 32 := by
        rw [hlen, length_slotBytes _ _ _ _ (by omega) (by omega)]
        exact hsize
      have happend := (Mem.store_adjacent m a hfit).1
      rw [hlen] at happend
      rw [hstep, hrest, hold, slotBytes, if_pos hlong]
      exact congrArg _ happend
    · rw [nameSize_short hpos (by omega)] at hw ⊢
      rw [putEntry, putLong, if_neg hlong, slotBytes, if_neg hlong]
      exact putLast_eq m a ino (by omega) hw


theorem held_congr {old old' : Nat → Byte} (es : List Entry) : ∀ (posn : Nat),
    (∀ i, posn ≤ i → i < posn + total es → old i = old' i) →
    held old posn es = held old' posn es := by
  induction es with
  | nil => intro posn _; rfl
  | cons e es ih =>
    intro posn h
    have hsize := e.size_pos
    rw [total_cons] at h
    rw [held, held, h (posn + e.size - 15) (by omega) (by omega),
      ih (posn + e.size) fun i hlo hhi => h i (by omega) (by omega)]

theorem ofNat_ne_zero {n : Nat} (hpos : 0 < n) (hn : n < 2 ^ 32) : BitVec.ofNat 32 n ≠ 0 := by
  intro h
  have := congrArg BitVec.toNat h
  rw [BitVec.toNat_ofNat, Nat.mod_eq_of_lt (by omega)] at this
  exact absurd this (by simpa using Nat.pos_iff_ne_zero.mp hpos)

theorem Listing.unique {p : Nat} {es fs : List (Nat × Entry)} (h : Listing d p es) :
    Listing d p fs → es = fs := by
  induction h generalizing fs with
  | nil hd =>
    intro h'
    cases h' with
    | nil _ => rfl
    | cons hd' _ =>
      rw [hd] at hd'
      cases hd'
  | cons hd _ ih =>
    intro h'
    cases h' with
    | nil hd' =>
      rw [hd] at hd'
      cases hd'
    | cons hd' hfs =>
      rw [hd] at hd'
      cases hd'
      rw [ih hfs]

/-- A seek goes back to the entry at `p` exactly if `p` is the `int` it was saved as. -/
theorem listing_seek_iff {p q : Nat} {e : Entry} {es : List (Nat × Entry)}
    (hd : d p = .entry e q) (hes : Listing d q es) :
    Listing d (sysLseek (wrap p) q) ((p, e) :: es) ↔ p < 2 ^ 31 := by
  constructor
  · intro h
    generalize hback : sysLseek (wrap p) q = x at h
    cases h with
    | cons _ _ =>
      unfold sysLseek at hback
      split at hback
      · have hlt : wrap p < 2 ^ 31 := BitVec.toInt_lt (x := BitVec.ofNat 32 p)
        omega
      · -- the entry behind would be the entry itself
        subst hback
        have hlen := congrArg List.length ((Listing.cons hd hes).unique hes)
        simp at hlen
  · intro hp
    have hback : sysLseek (wrap p) q = p := by
      rw [wrap, Word.toInt_ofNat hp, sysLseek, if_pos (by omega), Int.toNat_natCast]
    rw [hback]
    exact .cons hd hes

variable {k last : Nat}

/-- A round that ends the loop. -/
theorem readLoop_exit (h : ¬ wrap (k + last) < c.count.toInt) (fuel : Nat)
    (error : Int) (m : Mem) (fPos : Nat) :
    readLoop d c (fuel + 1) (BitVec.ofNat 32 k) (BitVec.ofNat 32 last) error m fPos =
      some ⟨if BitVec.ofNat 32 k ≠ 0 then wrap k else error, m, fPos⟩ := by
  rw [readLoop, ← BitVec.ofNat_add, if_neg h]

theorem readLoop_exit_pos (hpos : 0 < k) (hk : k < 2 ^ 32)
    (h : ¬ wrap (k + last) < c.count.toInt) (fuel : Nat) (error : Int) (m : Mem) (fPos : Nat) :
    readLoop d c (fuel + 1) (BitVec.ofNat 32 k) (BitVec.ofNat 32 last) error m fPos =
      some ⟨wrap k, m, fPos⟩ := by
  rw [readLoop_exit h, if_pos (ofNat_ne_zero hpos hk)]

/-- A round that finds no entry. -/
theorem readLoop_stop {k last fPos errno : Nat} (hd : d fPos = .stop errno)
    (hlast : wrap (k + last) < c.count.toInt) (fuel : Nat) (error : Int) (m : Mem) :
    readLoop d c (fuel + 1) (BitVec.ofNat 32 k) (BitVec.ofNat 32 last) error m fPos =
      some ⟨if BitVec.ofNat 32 k ≠ 0 then wrap k else -(errno : Int), m, fPos⟩ := by
  rw [readLoop, ← BitVec.ofNat_add, if_pos hlast, hd]

section

variable {k last q : Nat} {e : Entry} {fPos : Nat} (hd : d fPos = .entry e q)
  (hlast : wrap (k + last) < c.count.toInt)

include hd hlast

/-- A round that finds an entry for which there is no room. -/
theorem readLoop_skip (hfits : ¬ wrap (k + e.size) ≤ c.count.toInt) (fuel : Nat)
    (error : Int) (m : Mem) :
    readLoop d c (fuel + 1) (BitVec.ofNat 32 k) (BitVec.ofNat 32 last) error m fPos =
      readLoop d c fuel (BitVec.ofNat 32 k) (BitVec.ofNat 32 e.size) 1 m
        (if BitVec.ofNat 32 k ≠ 0 then sysLseek (wrap fPos) q else q) := by
  rw [readLoop, ← BitVec.ofNat_add, if_pos hlast, hd]
  dsimp only
  rw [← BitVec.ofNat_add, if_pos (Int.not_le.mp hfits)]

/-- A round that puts an entry. -/
theorem readLoop_put (hfits : wrap (k + e.size) ≤ c.count.toInt)
    (hw : c.pg.canWrite (c.buf + BitVec.ofNat 32 k) e.size = true) (fuel : Nat) (error : Int)
    (m : Mem) :
    readLoop d c (fuel + 1) (BitVec.ofNat 32 k) (BitVec.ofNat 32 last) error m fPos =
      readLoop d c fuel (BitVec.ofNat 32 (k + e.size)) (BitVec.ofNat 32 e.size) 1
        (m.store (c.buf + BitVec.ofNat 32 k) (slotBytes e.ino
          (m (c.buf + BitVec.ofNat 32 (k + e.size - 15))) e.name.length e.name)) q := by
  have hpos := e.size_pos
  have hle := e.size_le
  have hput := putEntry_eq e.ino e.name.length (c.buf + BitVec.ofNat 32 k) e.name m
    e.name_pos (by omega) hw (by change e.size ≤ _; omega)
  have hold : c.buf + BitVec.ofNat 32 k + BitVec.ofNat 32 (nameSize e.name - 15) =
      c.buf + BitVec.ofNat 32 (k + e.size - 15) := by
    rw [BitVec.add_assoc, ← BitVec.ofNat_add, Nat.add_sub_assoc (by omega)]
    rfl
  rw [hold] at hput
  rw [readLoop, ← BitVec.ofNat_add, if_pos hlast, hd]
  dsimp only
  rw [← BitVec.ofNat_add, if_neg (Int.not_lt.mpr hfits), hput, if_pos rfl]

end

/-- Every round takes an entry or is the last but one. -/
theorem exists_readLoop (d : Directory) (c : Call) (es : List (Nat × Entry)) :
    ∀ (fuel : Nat) (posn reclen : Word) (error : Int) (m : Mem) (fPos : Nat), Listing d fPos es →
      es.length < fuel → ∃ r, readLoop d c fuel posn reclen error m fPos = some r := by
  induction es with
  | nil =>
    intro fuel posn reclen error m fPos hl hfuel
    obtain ⟨fuel, rfl⟩ : ∃ n, fuel = n + 1 := ⟨fuel - 1, by omega⟩
    cases hl with
    | nil hd =>
      unfold readLoop
      rw [hd]
      split <;> exact ⟨_, rfl⟩
  | cons x es ih =>
    intro fuel posn reclen error m fPos hl hfuel
    rw [List.length_cons] at hfuel
    obtain ⟨fuel, rfl⟩ : ∃ n, fuel = n + 2 := ⟨fuel - 2, by omega⟩
    cases hl with
    | cons hd hes =>
      unfold readLoop
      rw [hd]
      dsimp only
      split
      · split
        next hlarge =>
          unfold readLoop
          rw [if_neg (by omega)]
          exact ⟨_, rfl⟩
        · split
          · exact ih _ _ _ _ _ _ hes (by omega)
          · exact ⟨_, rfl⟩
      · exact ⟨_, rfl⟩

/-- An entry in the buffer, and the others behind it. -/
theorem store_image_cons (m : Mem) (buf : Word) (k : Nat) (e : Entry) (es : List Entry) {m' : Mem}
    (hm : m' = m.store (buf + BitVec.ofNat 32 k)
      (slotBytes e.ino (m (buf + BitVec.ofNat 32 (k + e.size - 15))) e.name.length e.name))
    (hk : k + (e.size + total es) < 2 ^ 32) :
    m'.store (buf + BitVec.ofNat 32 (k + e.size))
        (image (fun i => m' (buf + BitVec.ofNat 32 i)) (k + e.size) es) =
      m.store (buf + BitVec.ofNat 32 k)
        (image (fun i => m (buf + BitVec.ofNat 32 i)) k (e :: es)) := by
  have hlen := e.length_slotBytes (m (buf + BitVec.ofNat 32 (k + e.size - 15)))
  -- the entry lies below what the others keep
  have hkept : image (fun i => m' (buf + BitVec.ofNat 32 i)) (k + e.size) es =
      image (fun i => m (buf + BitVec.ofNat 32 i)) (k + e.size) es := by
    refine congrArg bytesOf (held_congr es _ fun i hlo hhi => ?_)
    rw [hm]
    refine Mem.store_apart m _ ?_
    bv_omega
  have hfit : (slotBytes e.ino (m (buf + BitVec.ofNat 32 (k + e.size - 15))) e.name.length
      e.name).length + (image (fun i => m (buf + BitVec.ofNat 32 i)) (k + e.size) es).length
      ≤ 2 ^ 32 := by
    rw [hlen, length_image]
    omega
  have happend := (Mem.store_adjacent m (buf + BitVec.ofNat 32 k) hfit).1
  rw [hlen, add_ofNat_add, ← hm] at happend
  rw [hkept, image_cons]
  exact happend

/-- The rounds behind the first entry. -/
theorem readLoop_eq (d : Directory) (c : Call) (es : List (Nat × Entry)) :
    ∀ (fuel k last : Nat) (error : Int) (m : Mem) (fPos : Nat), Listing d fPos es →
      es.length < fuel → 0 < k →
      c.pg.canWrite (c.buf + BitVec.ofNat 32 k) (total (rounds c.count.toInt k last es).served)
        = true →
      k + total (rounds c.count.toInt k last es).served < 2 ^ 32 →
      ∃ fPos', (Listing d fPos' (rounds c.count.toInt k last es).rest ↔
          ∀ q ∈ (rounds c.count.toInt k last es).back, q < 2 ^ 31) ∧
        readLoop d c fuel (BitVec.ofNat 32 k) (BitVec.ofNat 32 last) error m fPos =
          some ⟨wrap (k + total (rounds c.count.toInt k last es).served),
            m.store (c.buf + BitVec.ofNat 32 k)
              (image (fun i => m (c.buf + BitVec.ofNat 32 i)) k
                (rounds c.count.toInt k last es).served),
            fPos'⟩ := by
  induction es with
  | nil =>
    intro fuel k last error m fPos hl hfuel hk _ hspace
    obtain ⟨fuel, rfl⟩ : ∃ n, fuel = n + 1 := ⟨fuel - 1, by omega⟩
    have hk' : k < 2 ^ 32 := by omega
    refine ⟨fPos, iff_of_true hl nofun, ?_⟩
    by_cases hloop : wrap (k + last) < c.count.toInt
    · cases hl with
      | nil hd =>
        rw [readLoop_stop hd hloop, if_pos (ofNat_ne_zero hk hk')]
        rfl
    · rw [readLoop_exit_pos hk hk' hloop]
      rfl
  | cons x es ih =>
    intro fuel k last error m fPos hl hfuel hk hw hspace
    obtain ⟨fuel, rfl⟩ : ∃ n, fuel = n + 1 := ⟨fuel - 1, by omega⟩
    obtain ⟨p, e⟩ := x
    have hk' : k < 2 ^ 32 := by omega
    rw [List.length_cons] at hfuel
    rw [rounds] at hw hspace ⊢
    by_cases hloop : wrap (k + last) < c.count.toInt
    · rw [if_pos hloop] at hw hspace ⊢
      by_cases hfits : wrap (k + e.size) ≤ c.count.toInt
      · -- the entry is put, and the loop goes on behind it
        rw [if_pos hfits] at hw hspace ⊢
        rw [total_cons] at hw hspace ⊢
        cases hl with
        | cons hd hes =>
          have hbehind := add_ofNat_add c.buf k e.size
          have hput := Pages.canWrite_le hw (l := e.size) (by omega)
          have hrest := Pages.canWrite_part hw (Nat.le_refl _)
          rw [hbehind] at hrest
          obtain ⟨fPos', hl', heq⟩ := ih fuel (k + e.size) e.size 1 _ _ hes (by omega) (by omega)
            hrest (by omega)
          refine ⟨fPos', hl', ?_⟩
          rw [readLoop_put hd hloop hfits hput, heq, Nat.add_assoc]
          congr 2
          exact store_image_cons m c.buf k e _ rfl (by omega)
      · -- the entry does not fit: back to where it was
        rw [if_neg hfits, if_neg (by omega)]
        cases hl with
        | @cons _ q _ _ hd hes =>
          refine ⟨sysLseek (wrap fPos) q, (listing_seek_iff hd hes).trans (by simp), ?_⟩
          obtain ⟨fuel, rfl⟩ : ∃ n, fuel = n + 1 := ⟨fuel - 1, by omega⟩
          rw [readLoop_skip hd hloop hfits, if_pos (ofNat_ne_zero hk hk'),
            readLoop_exit_pos hk hk' (by omega)]
          rfl
    · rw [if_neg hloop]
      refine ⟨fPos, iff_of_true hl nofun, ?_⟩
      rw [readLoop_exit_pos hk hk' hloop]
      rfl

section First

variable {count : Int} {e : Entry} (es : List (Nat × Entry)) (fPos : Nat)

/-- The first entry is put, and the other rounds follow. -/
theorem burst_put (hfits : (e.size : Int) ≤ count) :
    burst count ((fPos, e) :: es) =
        { rounds count e.size e.size es with
          served := e :: (rounds count e.size e.size es).served } ∧
      burstRet count ((fPos, e) :: es) =
        wrap (e.size + total (rounds count e.size e.size es).served) := by
  have hpos := e.size_pos
  have hle := e.size_le
  have hsize : wrap (0 + e.size) = e.size := by rw [wrap, Nat.zero_add, Word.toInt_ofNat (by omega)]
  have hzero : wrap (0 + 0) = 0 := rfl
  have hburst : burst count ((fPos, e) :: es) =
      { rounds count e.size e.size es with
        served := e :: (rounds count e.size e.size es).served } := by
    rw [burst, rounds, if_pos (by omega), if_pos (by omega), Nat.zero_add]
  refine ⟨hburst, ?_⟩
  rw [burstRet, if_neg (by omega), hburst, total_cons]

/-- The first entry does not fit: it is passed over. -/
theorem burst_pass (hloop : wrap (0 + 0) < count) (hfits : ¬ wrap (0 + e.size) ≤ count) :
    burst count ((fPos, e) :: es) = ⟨[], es, none⟩ ∧ burstRet count ((fPos, e) :: es) = 1 := by
  have hle := e.size_le
  constructor
  · rw [burst, rounds, if_pos hloop, if_neg hfits, if_pos rfl]
  · rw [wrap, Nat.zero_add, Word.toInt_ofNat (by omega)] at hfits
    exact if_pos ⟨hloop, by omega⟩

/-- Nothing is asked for. -/
theorem burst_unasked (e : Entry) (hloop : ¬ wrap (0 + 0) < count) :
    burst count ((fPos, e) :: es) = ⟨[], (fPos, e) :: es, none⟩ ∧
      burstRet count ((fPos, e) :: es) = 0 := by
  have hburst : burst count ((fPos, e) :: es) = ⟨[], (fPos, e) :: es, none⟩ := by
    rw [burst, rounds, if_neg hloop]
  refine ⟨hburst, ?_⟩
  rw [burstRet, if_neg fun h => hloop h.1, hburst]
  rfl

end First

/-- The call, in terms of the list of entries: it serves what the burst says, returns the
bytes of that or the result of `old_readdir`, and leaves the file where the rest begins. -/
theorem abiReadDir_eq {fPos fuel : Nat} {es : List (Nat × Entry)} (hl : Listing d fPos es)
    (hfuel : es.length < fuel) (hfget : c.fget = true) (hpage : c.page = true)
    (hw : c.pg.canWrite c.buf (total (burst c.count.toInt es).served) = true)
    (hspace : total (burst c.count.toInt es).served < 2 ^ 32) :
    ∃ fPos', (Listing d fPos' (burst c.count.toInt es).rest ↔
        ∀ q ∈ (burst c.count.toInt es).back, q < 2 ^ 31) ∧
      abiReadDir d fuel c fPos =
        some ⟨burstRet c.count.toInt es,
          c.mem.store c.buf (image (fun i => c.mem (c.buf + BitVec.ofNat 32 i)) 0
            (burst c.count.toInt es).served),
          fPos'⟩ := by
  obtain ⟨fuel, rfl⟩ : ∃ n, fuel = n + 1 := ⟨fuel - 1, by omega⟩
  have hcall : abiReadDir d (fuel + 1) c fPos =
      readLoop d c (fuel + 1) (BitVec.ofNat 32 0) (BitVec.ofNat 32 0) 0 c.mem fPos := by
    rw [abiReadDir, if_neg (by simp [hfget]), if_neg (by simp [hpage])]
    rfl
  rw [hcall]
  cases hl with
  | nil hd =>
    refine ⟨fPos, iff_of_true (.nil hd) nofun, ?_⟩
    by_cases hloop : wrap (0 + 0) < c.count.toInt
    · rw [readLoop_stop hd hloop]
      rfl
    · rw [readLoop_exit hloop]
      rfl
  | cons hd hes =>
    rename_i q e es
    have hpos := e.size_pos
    have hle := e.size_le
    rw [List.length_cons] at hfuel
    by_cases hloop : wrap (0 + 0) < c.count.toInt
    · by_cases hfits : wrap (0 + e.size) ≤ c.count.toInt
      · have hroom : (e.size : Int) ≤ c.count.toInt := by
          rwa [wrap, Nat.zero_add, Word.toInt_ofNat (by omega)] at hfits
        obtain ⟨hburst, hret⟩ := burst_put es fPos hroom
        rw [hret]
        rw [hburst] at hw hspace ⊢
        rw [total_cons] at hw hspace
        have hput := Pages.canWrite_part hw (k := 0) (l := e.size) (by omega)
        have hrest := Pages.canWrite_part hw (Nat.le_refl _)
        have hround := readLoop_put hd hloop hfits hput fuel 0 c.mem
        rw [Nat.zero_add] at hround
        obtain ⟨fPos', hl', heq⟩ := readLoop_eq d c es fuel e.size e.size 1 _ q hes (by omega)
          (by omega) hrest hspace
        refine ⟨fPos', hl', ?_⟩
        rw [hround, heq]
        congr 2
        have hstore := store_image_cons c.mem c.buf 0 e
          (rounds c.count.toInt e.size e.size es).served rfl (by omega)
        rw [Nat.zero_add, BitVec.add_zero] at hstore
        rw [BitVec.add_zero]
        exact hstore
      · obtain ⟨hburst, hret⟩ := burst_pass es fPos hloop hfits
        obtain ⟨fuel, rfl⟩ : ∃ n, fuel = n + 1 := ⟨fuel - 1, by omega⟩
        rw [hburst, hret]
        refine ⟨q, iff_of_true hes nofun, ?_⟩
        rw [readLoop_skip hd hloop hfits, if_neg (by simp), readLoop_exit (by omega)]
        rfl
    · obtain ⟨hburst, hret⟩ := burst_unasked es fPos e hloop
      rw [hburst, hret]
      refine ⟨fPos, iff_of_true (.cons hd hes) nofun, ?_⟩
      rw [readLoop_exit hloop]
      rfl

end Call

end AbiEmu.Dir
