import AbiEmu.Dir.ReadDir
import AbiEmu.Dir.Stat

/-!
# `getdents` (`abi/svr4/open.c`)

`svr4_getdents` hands `svr4_filldir` to the file system, which calls it for one entry
after the other until it declines. Each entry becomes a record with the inode number,
the position of the next entry, the length of the record and the name; the position is
filled in when the next entry comes, and for the last record at the end.

For a program with short inode numbers `svr4_filldir` means to avoid a number whose low
half is zero. But it looks at the record in the user's memory, through the bare pointer,
before the number is stored, and then stores the number as it is: `getdents_reports` says
that every record ends up with the plain number.
-/

namespace AbiEmu.Dir

/-- `struct svr4_getdents_callback`. -/
structure Callback where
  currentDir : Word
  previous : Word
  count : Word
  error : Int

/-- `ROUND_UP(NAME_OFFSET(dirent) + namlen + 1)`. -/
def reclen (name : List Byte) : Nat := (10 + name.length + 1 + 3) / 4 * 4

/-- The look at `dirent->d_ino`, and the store to it, without `get_user` and `put_user`:
memory that is not there ends in an oops. -/
def avoidZero (pg : Pages) (personality dirent : Word) (m : Mem) : Except Unit Mem :=
  if ¬ shortInode personality then .ok m
  else if ¬ pg.canRead dirent 4 then .error ()
  else if m.word dirent &&& 0xffff = 0 then
    if pg.canWrite dirent 4 then .ok (m.store dirent (Word.bytes 0xfffffffe)) else .error ()
  else .ok m

/-- `svr4_filldir`. -/
def svr4Filldir (pg : Pages) (personality : Word) (b : Callback) (name : List Byte)
    (offset : Nat) (ino : Word) (m : Mem) : Except Unit (Int × Callback × Mem) :=
  let len := reclen name
  let b := { b with error := -EINVAL }
  if b.count.toInt < (len : Int) then .ok (-EINVAL, b, m)
  else
    let m := if b.previous ≠ 0 then pg.putUser (b.previous + 4) (BitVec.ofNat 32 offset) m else m
    let dirent := b.currentDir
    let b := { b with previous := dirent }
    match avoidZero pg personality dirent m with
    | .error e => .error e
    | .ok m =>
      let m := pg.putUser dirent ino m
      let m := (pg.putHalf (dirent + 8) (BitVec.ofNat 16 len) m).2
      let copied := pg.copyBytesToUser (dirent + 10) name m
      if ¬ copied.1 then .ok (-EFAULT, b, copied.2)
      else
        let m := (pg.putByte (dirent + 10 + BitVec.ofNat 32 name.length) 0 copied.2).2
        .ok (0, { b with
          currentDir := dirent + BitVec.ofNat 32 len
          count := b.count - BitVec.ofNat 32 len }, m)

/-- The file system's loop over the entries from the file position on. -/
def fillFrom (pg : Pages) (personality : Word) :
    List (Nat × Entry) → Callback → Mem → Except Unit (Callback × Mem × List (Nat × Entry))
  | [], b, m => .ok (b, m, [])
  | (p, e) :: es, b, m =>
    match svr4Filldir pg personality b e.name p e.ino m with
    | .error e => .error e
    | .ok (r, b, m) => if r = 0 then fillFrom pg personality es b m else .ok (b, m, (p, e) :: es)

/-- The file: whether the descriptor is open, the error `vfs_readdir` returns without
looking at an entry, the entries still to come, and the position behind them. -/
structure DirFile where
  fget : Bool
  refused : Option Nat
  entries : List (Nat × Entry)
  endPos : Nat

/-- The file position before `rest`. -/
def DirFile.posOf (f : DirFile) : List (Nat × Entry) → Nat
  | [] => f.endPos
  | (p, _) :: _ => p

/-- `svr4_getdents`. -/
def svr4Getdents (pg : Pages) (personality : Word) (f : DirFile) (dirent count : Word) (m : Mem) :
    Except Unit (Int × Mem) :=
  if ¬ f.fget then .ok (-EBADF, m)
  else
    match f.refused with
    | some errno => .ok (-errno, m)
    | none =>
      match fillFrom pg personality f.entries ⟨dirent, 0, count, 0⟩ m with
      | .error e => .error e
      | .ok (b, m, rest) =>
        if b.previous ≠ 0 then
          .ok ((count - b.count).toInt,
            pg.putUser (b.previous + 4) (BitVec.ofNat 32 (f.posOf rest)) m)
        else .ok (b.error, m)

/-! ## One record -/

theorem reclen_ge (name : List Byte) : 11 + name.length ≤ reclen name := by
  unfold reclen
  omega

variable {n : Nat}

/-- A byte apart from a record. -/
theorem store_record_apart (m : Mem) (a x : Word) (k : Nat) (bs : List Byte)
    (hk : k + bs.length ≤ n) (hx : n ≤ (x - a).toNat) :
    m.store (a + BitVec.ofNat 32 k) bs x = m x := by
  refine Mem.store_apart m _ ?_
  bv_omega

section Fill

variable {pg : Pages} {personality : Word} {m : Mem}

theorem putUser_frame (pg : Pages) (a v : Word) (m : Mem) {x : Word} (hx : 4 ≤ (x - a).toNat) :
    pg.putUser a v m x = m x := by
  unfold Pages.putUser
  by_cases hw : pg.canWrite a 4 = true
  · rw [if_pos hw]
    exact Mem.store_apart m a hx
  · rw [if_neg hw]

variable {dirent : Word}

/-- Whatever the look at the record comes to, the number is stored over it. -/
theorem avoidZero_store (hw : pg.canWrite dirent 4 = true) (ino : Word) :
    ∃ m', avoidZero pg personality dirent m = .ok m' ∧
      m'.store dirent ino.bytes = m.store dirent ino.bytes := by
  unfold avoidZero
  by_cases hshort : shortInode personality = true
  · rw [if_neg (by simp [hshort]), if_neg (by simp [Pages.canRead_of_canWrite hw])]
    by_cases hzero : m.word dirent &&& 0xffff = 0
    · rw [if_pos hzero, if_pos hw]
      exact ⟨_, rfl, Mem.store_over m dirent (by simp)⟩
    · rw [if_neg hzero]
      exact ⟨m, rfl, rfl⟩
  · rw [if_pos hshort]
    exact ⟨m, rfl, rfl⟩

variable {e : Entry}

/-- The length, the name and its end go one behind the other. -/
theorem putTail_eq (m : Mem) (a : Word) (hw : pg.canWrite a (reclen e.name) = true)
    (len : BitVec 16) :
    (pg.putHalf (a + 8) len m).2 = m.store (a + 8) (halfBytes len) ∧
    pg.copyBytesToUser (a + 10) e.name (m.store (a + 8) (halfBytes len)) =
      (true, m.store (a + 8) (halfBytes len ++ e.name)) ∧
    (pg.putByte (a + 10 + BitVec.ofNat 32 e.name.length) 0
      (m.store (a + 8) (halfBytes len ++ e.name))).2 =
      m.store (a + 8) (halfBytes len ++ e.name ++ [0]) := by
  have hge := reclen_ge e.name
  have hname := e.name_le
  have hhalf : pg.canWrite (a + 8) 2 = true := Pages.canWrite_part hw (k := 8) (by omega)
  have hcopy : pg.canWrite (a + 10) e.name.length = true :=
    Pages.canWrite_part hw (k := 10) (by omega)
  have hbyte := Pages.canWrite_part hw (k := 10 + e.name.length) (l := 1) (by omega)
  have hten : a + 10 = a + 8 + BitVec.ofNat 32 (halfBytes len).length := by
    rw [length_halfBytes, BitVec.add_assoc]
    rfl
  have hend : a + 10 + BitVec.ofNat 32 e.name.length =
      a + 8 + BitVec.ofNat 32 (halfBytes len ++ e.name).length := by
    rw [List.length_append, BitVec.ofNat_add, ← BitVec.add_assoc, ← hten]
  rw [← add_ofNat_add] at hbyte
  refine ⟨?_, ?_, ?_⟩
  · rw [Pages.putHalf, if_pos hhalf]
  · rw [hten] at hcopy ⊢
    exact Pages.copyBytesToUser_append m _ hcopy (by simp; omega)
  · rw [show a + BitVec.ofNat 32 10 = a + 10 from rfl, hend] at hbyte
    rw [hend, Pages.putByte_append m 0 hbyte (by simp; omega)]

variable {b : Callback}

/-- A buffer for the records: `n` bytes that can be written. -/
structure Callback.Room (pg : Pages) (b : Callback) (n : Nat) : Prop where
  count : b.count = BitVec.ofNat 32 n
  small : n < 2 ^ 31
  writable : pg.canWrite b.currentDir n = true

theorem Callback.Room.count_eq (h : b.Room pg n) : b.count.toInt = n := by
  rw [h.count, Word.toInt_ofNat h.small]

/-- An entry that fits: its record has the plain number, and beside the record only the
position in the record before it changes. -/
theorem svr4Filldir_ok {p n : Nat} (h : b.Room pg n) (hfits : reclen e.name ≤ n) :
    ∃ m', svr4Filldir pg personality b e.name p e.ino m =
        .ok (0, ⟨b.currentDir + BitVec.ofNat 32 (reclen e.name), b.currentDir,
          b.count - BitVec.ofNat 32 (reclen e.name), -EINVAL⟩, m') ∧
      m'.word b.currentDir = e.ino ∧
      ∀ x, reclen e.name ≤ (x - b.currentDir).toNat →
        (b.previous ≠ 0 → 4 ≤ (x - (b.previous + 4)).toNat) → m' x = m x := by
  have hcount := h.count_eq
  have hw := Pages.canWrite_le h.writable hfits
  have hge := reclen_ge e.name
  have hname := e.name_le
  have hnumber : pg.canWrite b.currentDir 4 = true :=
    Pages.canWrite_le hw (by omega)
  unfold svr4Filldir
  dsimp only
  rw [if_neg (by omega)]
  generalize hm₀ : (if b.previous ≠ 0 then
    pg.putUser (b.previous + 4) (BitVec.ofNat 32 p) m else m) = m₀
  obtain ⟨m₁, havoid, hover⟩ := avoidZero_store hnumber e.ino
  have hput : pg.putUser b.currentDir e.ino m₁ = m₀.store b.currentDir e.ino.bytes := by
    rw [Pages.putUser, if_pos hnumber, hover]
  obtain ⟨hlen, hcopy, hend⟩ := putTail_eq (m₀.store b.currentDir e.ino.bytes) b.currentDir hw
    (BitVec.ofNat 16 (reclen e.name))
  rw [havoid]
  dsimp only
  rw [hput, hlen, hcopy, if_neg (by simp), hend]
  have htail : (halfBytes (BitVec.ofNat 16 (reclen e.name)) ++ e.name ++ [0]).length =
      3 + e.name.length := by
    simp
    omega
  refine ⟨_, rfl, ?_, fun x hx hprev => ?_⟩
  · rw [Mem.word_store_apart, Mem.word_store_bytes]
    all_goals bv_omega
  · have hblock := store_record_apart (m₀.store b.currentDir e.ino.bytes) b.currentDir x 8
      (halfBytes (BitVec.ofNat 16 (reclen e.name)) ++ e.name ++ [0]) (by omega) hx
    have hfirst := store_record_apart m₀ b.currentDir x 0 e.ino.bytes (by simp; omega) hx
    rw [BitVec.add_zero] at hfirst
    refine hblock.trans (hfirst.trans ?_)
    rw [← hm₀]
    by_cases hzero : b.previous ≠ 0
    · rw [if_pos hzero]
      exact putUser_frame pg _ _ m (hprev hzero)
    · rw [if_neg hzero]

/-- An entry that does not fit. -/
theorem svr4Filldir_full {p : Nat} (hfull : b.count.toInt < (reclen e.name : Int)) :
    svr4Filldir pg personality b e.name p e.ino m =
      .ok (-EINVAL, { b with error := -EINVAL }, m) := by
  unfold svr4Filldir
  rw [if_pos hfull]

/-! ## All records -/

/-- The bytes of the records of a list of entries. -/
def recordsSize (es : List (Nat × Entry)) : Nat := (es.map fun x => reclen x.2.name).sum

/-- The room behind a record. -/
theorem Callback.Room.next {n l : Nat} (h : b.Room pg n) (hl : l ≤ n) (previous : Word)
    (error : Int) :
    Callback.Room pg
      ⟨b.currentDir + BitVec.ofNat 32 l, previous, b.count - BitVec.ofNat 32 l, error⟩ (n - l) where
  count := by
    rw [h.count]
    exact BitVec.ofNat_sub_ofNat_of_le n l (by have := h.small; omega) hl
  small := by have := h.small; omega
  writable := Pages.canWrite_part h.writable (by omega)

theorem sub_add_toNat_of_le {a x : Word} {l : Nat} (h : l ≤ (x - a).toNat) :
    (x - (a + BitVec.ofNat 32 l)).toNat = (x - a).toNat - l := by
  bv_omega

/-- The loop stays in its buffer, but for the position in the record before it, and the
last record it filled lies in the buffer. -/
theorem fillFrom_frame (es : List (Nat × Entry)) : ∀ {b : Callback} {n : Nat} {m : Mem},
    b.Room pg n → ∃ b' m' rest, fillFrom pg personality es b m = .ok (b', m', rest) ∧
      (∀ x, n ≤ (x - b.currentDir).toNat →
        (b.previous ≠ 0 → 4 ≤ (x - (b.previous + 4)).toNat) → m' x = m x) ∧
      (b'.previous = b.previous ∨
        ∃ k, k + 12 ≤ n ∧ b'.previous = b.currentDir + BitVec.ofNat 32 k) := by
  induction es with
  | nil => intro b n m _; exact ⟨b, m, [], rfl, fun x _ _ => rfl, .inl rfl⟩
  | cons y es ih =>
    intro b n m h
    obtain ⟨p, e⟩ := y
    have hge := reclen_ge e.name
    have hpos := e.name_pos
    rw [fillFrom]
    by_cases hfits : reclen e.name ≤ n
    · obtain ⟨m₁, hfill, -, hframe⟩ := svr4Filldir_ok h hfits
      obtain ⟨b', m', rest, hrest, hframe', hprev⟩ :=
        ih (h.next hfits b.currentDir (-EINVAL))
      refine ⟨b', m', rest, ?_, fun x hx hx' => ?_, ?_⟩
      · rw [hfill]
        exact hrest
      · rw [hframe' x ?_ fun _ => ?_]
        · exact hframe x (by omega) hx'
        · dsimp only
          rw [sub_add_toNat_of_le (by omega)]
          omega
        · have := sub_add_toNat_of_le (a := b.currentDir) (x := x) (l := 4) (by omega)
          change 4 ≤ (x - (b.currentDir + BitVec.ofNat 32 4)).toNat
          omega
      · rcases hprev with hprev | ⟨k, hk, hprev⟩
        · exact .inr ⟨0, by omega, by rw [hprev, BitVec.add_zero]⟩
        · refine .inr ⟨reclen e.name + k, by omega, ?_⟩
          rw [hprev]
          exact add_ofNat_add ..
    · rw [svr4Filldir_full (by rw [h.count_eq]; omega)]
      exact ⟨_, m, _, rfl, fun x _ _ => rfl, .inl rfl⟩

/-- A word below the rest of the buffer, apart from the position beside it. -/
theorem word_of_frame {m' : Mem} {a : Word} {l n : Nat} (hl : 12 ≤ l) (hln : l ≤ n)
    (hn : n < 2 ^ 31)
    (h : ∀ x, n - l ≤ (x - (a + BitVec.ofNat 32 l)).toNat → 4 ≤ (x - (a + 4)).toNat → m' x = m x) :
    m'.word a = m.word a :=
  Mem.word_congr fun j hj => h _ (by bv_omega) (by bv_omega)

/-- Every record the loop fills has the plain number, and the last one it filled is not
below it. -/
theorem fillFrom_reports (personality : Word) (q : Nat) (e : Entry) (post : List (Nat × Entry))
    (pre : List (Nat × Entry)) : ∀ {b : Callback} {n : Nat} {m : Mem},
    b.Room pg n → recordsSize pre + reclen e.name ≤ n →
    ∃ b' m' rest, fillFrom pg personality (pre ++ (q, e) :: post) b m = .ok (b', m', rest) ∧
      m'.word (b.currentDir + BitVec.ofNat 32 (recordsSize pre)) = e.ino ∧
      ∃ k, recordsSize pre ≤ k ∧ k + 12 ≤ n ∧ b'.previous = b.currentDir + BitVec.ofNat 32 k := by
  induction pre with
  | nil =>
    intro b n m h hfits
    have hge := reclen_ge e.name
    have hpos := e.name_pos
    rw [show recordsSize [] = 0 from rfl, Nat.zero_add] at hfits
    obtain ⟨m₁, hfill, hino, -⟩ := svr4Filldir_ok h hfits
    obtain ⟨b', m', rest, hrest, hframe, hprev⟩ :=
      fillFrom_frame post (h.next hfits b.currentDir (-EINVAL))
    refine ⟨b', m', rest, ?_, ?_, ?_⟩
    · rw [List.nil_append, fillFrom, hfill]
      exact hrest
    · rw [show recordsSize [] = 0 from rfl, BitVec.add_zero, ← hino]
      exact word_of_frame (by omega) hfits h.small fun x hx hx' => hframe x hx fun _ => hx'
    · rcases hprev with hprev | ⟨k, hk, hprev⟩
      · exact ⟨0, Nat.le_refl _, by omega, by rw [hprev, BitVec.add_zero]⟩
      · refine ⟨reclen e.name + k, Nat.zero_le _, by omega, ?_⟩
        rw [hprev]
        exact add_ofNat_add ..
  | cons y pre ih =>
    intro b n m h hfits
    obtain ⟨p, f⟩ := y
    have hsize : recordsSize ((p, f) :: pre) = reclen f.name + recordsSize pre := by
      simp [recordsSize]
    obtain ⟨m₁, hfill, -, -⟩ := svr4Filldir_ok (e := f) h (by omega)
    obtain ⟨b', m', rest, hrest, hino, k, hlo, hhi, hprev⟩ :=
      ih (h.next (l := reclen f.name) (by omega) b.currentDir (-EINVAL)) (by omega)
    rw [add_ofNat_add] at hino hprev
    refine ⟨b', m', rest, ?_, hino, reclen f.name + k, by omega, by omega, hprev⟩
    rw [List.cons_append, fillFrom, hfill]
    exact hrest

/-- `getdents` reports the plain inode number of every entry there is room for. -/
theorem getdents_reports (personality : Word) (m : Mem) {f : DirFile}
    {pre post : List (Nat × Entry)} {q : Nat} (hfget : f.fget = true) (hread : f.refused = none)
    (hentries : f.entries = pre ++ (q, e) :: post) (hn : n < 2 ^ 31)
    (hw : pg.canWrite dirent n = true) (hroom : recordsSize pre + reclen e.name ≤ n) :
    ∃ ret m', svr4Getdents pg personality f dirent (BitVec.ofNat 32 n) m = .ok (ret, m') ∧
      m'.word (dirent + BitVec.ofNat 32 (recordsSize pre)) = e.ino := by
  obtain ⟨b', m', rest, hfill, hino, k, hlo, hhi, hprev⟩ :=
    fillFrom_reports personality q e post pre
      (b := ⟨dirent, 0, BitVec.ofNat 32 n, 0⟩) ⟨rfl, hn, hw⟩ hroom
  unfold svr4Getdents
  rw [if_neg (by simp [hfget]), hread, hentries]
  rw [hfill]
  dsimp only
  split_ifs
  · refine ⟨_, _, rfl, ?_⟩
    rw [← hino]
    -- the position in the last record lies behind the number of any
    refine Mem.word_congr fun j hj => putUser_frame pg _ _ m' ?_
    bv_omega
  · exact ⟨_, _, rfl, hino⟩

end Fill

end AbiEmu.Dir
