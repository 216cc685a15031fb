import AbiEmu.Lib.Strings

/-!
# The stack a new process starts with

By the time a loader runs, `exec` has put the argument and environment strings at
the top of the new stack, one behind the other from `bprm->p` on. The loader adds
the tables the program reads them through: the argument count, then the argument
pointers and the environment pointers, each list closed by a null word.
`coff_mktables` (`binfmt_coff.c`) and `xout_create_tables` (`binfmt_xout.c`) are
two copies of one algorithm. The second can also put the addresses of the two
lists behind the count, for programs that expect them there.

The tables end at `p` rounded down to a word, so they never reach the strings, and
each loop finds the next string by the length of the last. `loop_eq` is the
invariant of both loops: memory is the old one with the words written so far stored
from the stack pointer on.

The COFF loader stores with `__put_user`, which leaves out the limit check; on bytes
of the process it does what `put_user` does.
-/

namespace AbiEmu.Binfmt

open List

/-- The string fields of `current->mm`. -/
structure ArgFields where
  argStart : Word
  argEnd : Word
  envStart : Word
  envEnd : Word
  deriving DecidableEq, Repr

/-- What the tables leave behind: the stack pointer, user memory and the fields. -/
structure Tables where
  sp : Word
  mem : Mem
  mm : ArgFields

/-- `(-sizeof(char *)) & p`. -/
def wordDown (p : Word) : Word := -4 &&& p

/-- `while (argc-- > 0) { put_user(p, argv++); p += strlen_user(p); }`: the string
cursor, the table pointer and memory at the end. -/
def pointerLoop (pg : Pages) : Nat → Word → Word → Mem → Word × Word × Mem
  | 0, p, argv, m => (p, argv, m)
  | n + 1, p, argv, m =>
    let m := pg.putUser argv p m
    pointerLoop pg n (p + strlenUser pg m p) (argv + 4) m

/-- `coff_mktables`. -/
def coffMktables (pg : Pages) (p : Word) (argc envc : Int) (m : Mem) : Tables :=
  let sp := wordDown p
  let sp := sp - 4 * BitVec.ofInt 32 (envc + 1)
  let envp := sp
  let sp := sp - 4 * BitVec.ofInt 32 (argc + 1)
  let argv := sp
  let sp := sp - 4
  let m := pg.putUser sp (BitVec.ofInt 32 argc) m
  let args := pointerLoop pg argc.toNat p argv m
  let m := pg.putUser args.2.1 0 args.2.2
  let envs := pointerLoop pg envc.toNat args.1 envp m
  let m := pg.putUser envs.2.1 0 envs.2.2
  ⟨sp, m, ⟨p, args.1, args.1, envs.1⟩⟩

/-- `xout_create_tables`. -/
def xoutCreateTables (pg : Pages) (p : Word) (argc envc : Int) (ibcs : Bool) (m : Mem) : Tables :=
  let sp := wordDown p
  let sp := sp - 4 * BitVec.ofInt 32 (envc + 1)
  let envp := sp
  let sp := sp - 4 * BitVec.ofInt 32 (argc + 1)
  let argv := sp
  let pushed :=
    if ibcs then (sp, m)
    else
      let sp := sp - 4
      let m := pg.putUser sp envp m
      let sp := sp - 4
      (sp, pg.putUser sp argv m)
  let sp := pushed.1 - 4
  let m := pg.putUser sp (BitVec.ofInt 32 argc) pushed.2
  let args := pointerLoop pg argc.toNat p argv m
  let m := pg.putUser args.2.1 0 args.2.2
  let envs := pointerLoop pg envc.toNat args.1 envp m
  let m := pg.putUser envs.2.1 0 envs.2.2
  ⟨sp, m, ⟨p, args.1, args.1, envs.1⟩⟩

/-! ## Writing a table -/

/-- The words `[base, base + 4 * n)` can be written, and the strings `ss` lie above
them, from `p` to the end of the address space at most. -/
structure Room (pg : Pages) (base : Word) (n : Nat) (p : Word) (ss : List (List Byte)) : Prop where
  writable : pg.canWrite base (4 * n) = true
  below : base.toNat + 4 * n ≤ p.toNat
  fits : p.toNat + extent ss ≤ 2 ^ 32

/-- The memory `m` with the words `ws` written from `base` on. -/
def written (m : Mem) (base : Word) (ws : List Word) : Mem := m.store base (ws.flatMap Word.bytes)

theorem length_flatMap_bytes (ws : List Word) : (ws.flatMap Word.bytes).length = 4 * ws.length := by
  induction ws with
  | nil => rfl
  | cons w ws ih =>
    simp [Word.bytes]
    omega

section Writing

variable {pg : Pages} {base p : Word} {n : Nat} {ss : List (List Byte)} {m : Mem}

section

variable (h : Room pg base n p ss)

include h

theorem Room.lt : 4 * n < 2 ^ 32 := by
  have := h.below
  omega

/-- The next word of a table. -/
theorem putUser_next (ws : List Word) (hws : ws.length < n) (v : Word) :
    pg.putUser (base + BitVec.ofNat 32 (4 * ws.length)) v (written m base ws) =
      written m base (ws ++ [v]) := by
  have hlt := h.lt
  have hput : pg.canWrite (base + BitVec.ofNat 32 (4 * ws.length)) 4 = true :=
    Pages.canWrite_part h.writable (by omega)
  have hlen : (ws.flatMap Word.bytes).length + v.bytes.length ≤ 2 ^ 32 := by
    rw [length_flatMap_bytes]
    simp only [Word.bytes, length_cons, length_nil]
    omega
  have hstore := (Mem.store_adjacent m base hlen).1
  rw [length_flatMap_bytes] at hstore
  rw [Pages.putUser, if_pos hput, written, hstore, written, flatMap_append, flatMap_singleton]

/-- A table leaves the strings alone; `rest` are the last of them. -/
theorem Room.strings {k : Nat} {rest : List (List Byte)} (hk : k + extent rest ≤ extent ss)
    (hrest : Strings pg m (p + BitVec.ofNat 32 k) rest) (ws : List Word) (hws : ws.length ≤ n) :
    Strings pg (written m base ws) (p + BitVec.ofNat 32 k) rest := by
  refine hrest.frame rest fun i hi => ?_
  have hbelow := h.below
  have hfits := h.fits
  refine Mem.store_apart m base ?_
  rw [length_flatMap_bytes]
  bv_omega

/-- The loops: the strings at the cursor get their pointers behind the words written
so far, and the cursor ends behind them. -/
theorem loop_eq (rest : List (List Byte)) :
    ∀ (k : Nat) (ws : List Word), k + extent rest ≤ extent ss →
      Strings pg m (p + BitVec.ofNat 32 k) rest → ws.length + rest.length ≤ n →
      pointerLoop pg rest.length (p + BitVec.ofNat 32 k)
          (base + BitVec.ofNat 32 (4 * ws.length)) (written m base ws) =
        (after (p + BitVec.ofNat 32 k) rest,
          base + BitVec.ofNat 32 (4 * (ws.length + rest.length)),
          written m base (ws ++ starts (p + BitVec.ofNat 32 k) rest)) := by
  induction rest with
  | nil =>
    intro k ws _ _ _
    rw [starts, append_nil]
    rfl
  | cons s rest ih =>
    intro k ws hk hss hn
    rw [extent_cons] at hk
    rw [length_cons] at hn ⊢
    have hfits := h.fits
    -- the string is measured in the memory that already holds its pointer
    have hstill := h.strings (by rw [extent_cons]; omega) hss (ws ++ [p + BitVec.ofNat 32 k])
      (by simp; omega)
    have hnext : p + BitVec.ofNat 32 k + BitVec.ofNat 32 (s.length + 1) =
        p + BitVec.ofNat 32 (k + (s.length + 1)) := by
      rw [add_ofNat_add]
    have hargv : base + BitVec.ofNat 32 (4 * ws.length) + 4 =
        base + BitVec.ofNat 32 (4 * (ws ++ [p + BitVec.ofNat 32 k]).length) := by
      rw [length_append, length_singleton]
      bv_omega
    rw [pointerLoop, putUser_next h _ (by omega), hstill.1.strlenUser_eq (by omega), hnext, hargv,
      ih _ _ (by omega) (hnext ▸ hss.2) (by simp; omega), after, starts, hnext]
    rw [length_append, length_singleton, append_assoc, singleton_append,
      Nat.add_assoc, Nat.add_comm 1]

end

end Writing

/-! ## The whole stack -/

variable (p : Word)

theorem wordDown_toNat : (wordDown p).toNat = p.toNat / 4 * 4 := by
  have hmask : (-4 : Word) = BitVec.allOnes 32 <<< 2 := by decide
  rw [wordDown, BitVec.and_comm, hmask, Word.and_allOnes_shiftLeft_toNat]
  omega

/-- The words of the tables, `head` standing behind the count. -/
def tableWords (p : Word) (args envs : List (List Byte)) (head : List Word) : List Word :=
  BitVec.ofNat 32 args.length :: head ++ starts p args ++ [0] ++ starts (after p args) envs ++ [0]

/-- What a program finds when it starts: the count, the words `head`, and the tables.
The old memory is `m`. -/
structure StartsWith (m : Mem) (p : Word) (args envs : List (List Byte)) (head : List Word)
    (t : Tables) : Prop where
  aligned : t.sp.toNat % 4 = 0
  top : t.sp.toNat + 4 * (head.length + args.length + envs.length + 3) = p.toNat / 4 * 4
  argc : t.mem.slot t.sp 0 = BitVec.ofNat 32 args.length
  pushed : ∀ i w, head[i]? = some w → t.mem.slot t.sp (1 + i) = w
  argv : ∀ i < args.length, t.mem.slot t.sp (1 + head.length + i) = after p (args.take i)
  argvEnd : t.mem.slot t.sp (1 + head.length + args.length) = 0
  envp : ∀ j < envs.length, t.mem.slot t.sp (2 + head.length + args.length + j) =
    after p ((args ++ envs).take (args.length + j))
  envpEnd : t.mem.slot t.sp (2 + head.length + args.length + envs.length) = 0
  untouched : ∀ x, x.toNat < t.sp.toNat ∨ p.toNat / 4 * 4 ≤ x.toNat → t.mem x = m x
  mm : t.mm = ⟨p, after p args, after p args, after p (args ++ envs)⟩

/-- The second half of both functions, from the first loop on. -/
def fill (pg : Pages) (p argv envp sp : Word) (argc envc : Nat) (m : Mem) : Tables :=
  let args := pointerLoop pg argc p argv m
  let m := pg.putUser args.2.1 0 args.2.2
  let envs := pointerLoop pg envc args.1 envp m
  let m := pg.putUser envs.2.1 0 envs.2.2
  ⟨sp, m, ⟨p, args.1, args.1, envs.1⟩⟩

section Fill

variable {pg : Pages} {base p : Word} {n : Nat} {m : Mem} {args envs : List (List Byte)}
  {head : List Word}

theorem length_tableWords (args envs : List (List Byte)) (head : List Word) :
    (tableWords p args envs head).length = head.length + args.length + envs.length + 3 := by
  simp [tableWords]
  omega

/-- Once the count and `head` are written, the loops write the rest. -/
theorem fill_eq (h : Room pg base n p (args ++ envs))
    (hn : n = head.length + args.length + envs.length + 3)
    (hss : Strings pg m p (args ++ envs)) {argv envp : Word}
    (hargv : argv = base + BitVec.ofNat 32 (4 * (head.length + 1)))
    (henvp : envp = base + BitVec.ofNat 32 (4 * (head.length + 1 + args.length + 1))) :
    fill pg p argv envp base args.length envs.length
        (written m base (BitVec.ofNat 32 args.length :: head)) =
      ⟨base, written m base (tableWords p args envs head),
        ⟨p, after p args, after p args, after p (args ++ envs)⟩⟩ := by
  obtain ⟨hargs, henvs⟩ := (strings_append ..).mp hss
  have hzero : p + BitVec.ofNat 32 0 = p := by simp
  have hargsLoop := loop_eq h args 0 (BitVec.ofNat 32 args.length :: head)
    (by simp) (by rw [hzero]; exact hargs) (by simp; omega)
  rw [hzero, length_cons, ← hargv] at hargsLoop
  have hnull := putUser_next h (m := m)
    (BitVec.ofNat 32 args.length :: head ++ starts p args) (by simp; omega) 0
  have henvsLoop := loop_eq h envs (extent args)
    (BitVec.ofNat 32 args.length :: head ++ starts p args ++ [0])
    (by simp) (by rw [← after_eq]; exact henvs) (by simp; omega)
  have hend := putUser_next h (m := m)
    (BitVec.ofNat 32 args.length :: head ++ starts p args ++ [0] ++
      starts (after p args) envs) (by simp; omega) 0
  rw [← after_eq] at henvsLoop
  simp only [length_append, length_cons, length_nil, length_starts, Nat.zero_add]
    at hnull henvsLoop hend
  rw [← henvp] at henvsLoop
  unfold fill
  rw [hargsLoop]
  dsimp only
  rw [hnull, henvsLoop]
  rw [hend, tableWords, after_append]

/-! The words of the tables by position: `head`, the arguments, zero, the environment, zero. -/

theorem tableWords_head {i : Nat} (hi : i < head.length) :
    (tableWords p args envs head)[1 + i]? = head[i]? := by
  rw [tableWords, Nat.add_comm]
  simp only [append_assoc, cons_append]
  rw [getElem?_cons_succ, getElem?_append_left hi]

theorem tableWords_arg {i : Nat} (hi : i < args.length) :
    (tableWords p args envs head)[1 + head.length + i]? = (starts p args)[i]? := by
  rw [tableWords]
  simp only [append_assoc, cons_append]
  rw [show 1 + head.length + i = (head.length + i) + 1 by omega, getElem?_cons_succ,
    getElem?_append_right (by omega), getElem?_append_left (by simp; omega)]
  congr 1
  omega

theorem tableWords_null :
    (tableWords p args envs head)[1 + head.length + args.length]? = some 0 := by
  rw [tableWords]
  simp only [append_assoc, cons_append]
  rw [show 1 + head.length + args.length = (head.length + args.length) + 1 by omega,
    getElem?_cons_succ, getElem?_append_right (by omega),
    getElem?_append_right (by simp)]
  simp

theorem tableWords_env {j : Nat} (hj : j < envs.length) :
    (tableWords p args envs head)[2 + head.length + args.length + j]? =
      (starts (after p args) envs)[j]? := by
  rw [tableWords]
  simp only [append_assoc, cons_append]
  rw [show 2 + head.length + args.length + j = (head.length + (args.length + (j + 1))) + 1 by omega,
    getElem?_cons_succ, getElem?_append_right (by omega),
    getElem?_append_right (by simp)]
  simp only [nil_append, length_starts]
  rw [show head.length + (args.length + (j + 1)) - head.length - args.length = j + 1 by omega,
    getElem?_cons_succ, getElem?_append_left (by simpa using hj)]

theorem tableWords_end :
    (tableWords p args envs head)[2 + head.length + args.length + envs.length]? = some 0 := by
  have hlen : (BitVec.ofNat 32 args.length :: head ++ starts p args ++ [0] ++
      starts (after p args) envs).length = 2 + head.length + args.length + envs.length := by
    simp
    omega
  rw [tableWords, ← hlen, getElem?_concat_length]

/-- A memory that holds the words is a stack to start with. -/
theorem startsWith_written (hn : n = head.length + args.length + envs.length + 3)
    (hbase : base.toNat + 4 * n = p.toNat / 4 * 4) :
    StartsWith m p args envs head
      ⟨base, written m base (tableWords p args envs head),
        ⟨p, after p args, after p args, after p (args ++ envs)⟩⟩ := by
  have hslot : ∀ {i : Nat} {w : Word}, (tableWords p args envs head)[i]? = some w →
      (written m base (tableWords p args envs head)).slot base i = w := by
    intro i w hw
    have hi := (List.getElem?_eq_some_iff.mp hw).1
    rw [length_tableWords] at hi
    exact Mem.slot_store_words m base (by omega) hw
  refine ⟨?_, ?_, ?_, ?_, ?_, ?_, ?_, ?_, ?_, rfl⟩
  iterate 2
    · dsimp only
      omega
  · exact hslot rfl
  · intro i w hw
    have hi := (List.getElem?_eq_some_iff.mp hw).1
    exact hslot ((tableWords_head hi).trans hw)
  · intro i hi
    exact hslot ((tableWords_arg hi).trans (starts_getElem? args p i hi))
  · exact hslot tableWords_null
  · intro j hj
    have hargs : args.take (args.length + j) = args := take_of_length_le (by omega)
    refine hslot ((tableWords_env hj).trans ?_)
    rw [starts_getElem? envs (after p args) j hj, take_append, hargs, after_append,
      Nat.add_sub_cancel_left]
  · exact hslot tableWords_end
  · intro x hx
    refine Mem.store_apart m base ?_
    rw [length_flatMap_bytes, length_tableWords]
    bv_omega

end Fill

/-- The address of `n` words that end at `p` rounded down. -/
def stackBase (p : Word) (n : Nat) : Word := wordDown p - BitVec.ofNat 32 (4 * n)

/-- There is room for `n` words below `p`. -/
def HasRoom (pg : Pages) (p : Word) (n : Nat) : Prop :=
  4 * n ≤ p.toNat / 4 * 4 ∧ pg.canWrite (stackBase p n) (4 * n) = true

variable {n : Nat}

theorem stackBase_toNat {p : Word} (h : 4 * n ≤ p.toNat / 4 * 4) :
    (stackBase p n).toNat + 4 * n = p.toNat / 4 * 4 := by
  have hdown := wordDown_toNat p
  unfold stackBase
  bv_omega

/-- The table pointer below the words of another one. -/
theorem stackBase_sub (n k : Nat) :
    stackBase p n - 4 * BitVec.ofInt 32 (k + 1) = stackBase p (n + (k + 1)) := by
  have hcast : BitVec.ofInt 32 (k + 1) = BitVec.ofNat 32 (k + 1) :=
    BitVec.ofInt_natCast 32 (k + 1)
  unfold stackBase
  bv_omega

theorem stackBase_sub_four (n : Nat) : stackBase p n - 4 = stackBase p (n + 1) := by
  unfold stackBase
  bv_omega

/-- The words `k` words above the stack pointer. -/
theorem stackBase_add (n k : Nat) :
    stackBase p (n + k) + BitVec.ofNat 32 (4 * k) = stackBase p n := by
  unfold stackBase
  bv_omega

theorem wordDown_eq_stackBase : wordDown p = stackBase p 0 := by
  simp [stackBase]

section Stack

variable {pg : Pages} {p : Word} {m : Mem} {args envs : List (List Byte)}

theorem HasRoom.room (h : HasRoom pg p n) (hfits : p.toNat + extent (args ++ envs) ≤ 2 ^ 32) :
    Room pg (stackBase p n) n p (args ++ envs) where
  writable := h.2
  below := by
    have := stackBase_toNat h.1
    omega
  fits := hfits

/-- Words pushed from the top down are a table. -/
theorem putUser_below (h : HasRoom pg p n) {k : Nat} (hk : k < n) (v : Word) (ws : List Word)
    (hws : ws.length + k < n) :
    pg.putUser (stackBase p n + BitVec.ofNat 32 (4 * k)) v
        (written m (stackBase p n + BitVec.ofNat 32 (4 * (k + 1))) ws) =
      written m (stackBase p n + BitVec.ofNat 32 (4 * k)) (v :: ws) := by
  have hbase := stackBase_toNat h.1
  have hput : pg.canWrite (stackBase p n + BitVec.ofNat 32 (4 * k)) 4 = true :=
    Pages.canWrite_part h.2 (by omega)
  have hlen : v.bytes.length + (ws.flatMap Word.bytes).length ≤ 2 ^ 32 := by
    rw [length_flatMap_bytes]
    simp only [Word.bytes, length_cons, length_nil]
    omega
  have hstore := (Mem.store_adjacent m (stackBase p n + BitVec.ofNat 32 (4 * k)) hlen).2
  have haddr : stackBase p n + BitVec.ofNat 32 (4 * k) + BitVec.ofNat 32 v.bytes.length =
      stackBase p n + BitVec.ofNat 32 (4 * (k + 1)) := by
    simp only [Word.bytes, length_cons, length_nil]
    bv_omega
  rw [haddr] at hstore
  rw [Pages.putUser, if_pos hput, written, hstore, written, flatMap_cons]

theorem coffMktables_eq_fill (pg : Pages) (p : Word) (argc envc : Nat) (m : Mem) :
    coffMktables pg p argc envc m =
      fill pg p (stackBase p (envc + 1 + (argc + 1))) (stackBase p (envc + 1))
        (stackBase p (envc + 1 + (argc + 1) + 1)) argc envc
        (pg.putUser (stackBase p (envc + 1 + (argc + 1) + 1)) (BitVec.ofNat 32 argc) m) := by
  have henvp := stackBase_sub p 0 envc
  have hargv := stackBase_sub p (envc + 1) argc
  have hsp := stackBase_sub_four p (envc + 1 + (argc + 1))
  rw [← wordDown_eq_stackBase, Nat.zero_add] at henvp
  rw [← hsp, ← hargv, ← henvp, ← BitVec.ofInt_natCast]
  rfl

theorem xoutCreateTables_eq_fill (pg : Pages) (p : Word) (argc envc : Nat) (m : Mem) :
    xoutCreateTables pg p argc envc false m =
      fill pg p (stackBase p (envc + 1 + (argc + 1))) (stackBase p (envc + 1))
        (stackBase p (envc + 1 + (argc + 1) + 1 + 1 + 1)) argc envc
        (pg.putUser (stackBase p (envc + 1 + (argc + 1) + 1 + 1 + 1)) (BitVec.ofNat 32 argc)
          (pg.putUser (stackBase p (envc + 1 + (argc + 1) + 1 + 1))
            (stackBase p (envc + 1 + (argc + 1)))
            (pg.putUser (stackBase p (envc + 1 + (argc + 1) + 1))
              (stackBase p (envc + 1)) m))) := by
  have henvp := stackBase_sub p 0 envc
  have hargv := stackBase_sub p (envc + 1) argc
  have hsp := stackBase_sub_four p (envc + 1 + (argc + 1))
  have hsp' := stackBase_sub_four p (envc + 1 + (argc + 1) + 1)
  have hsp'' := stackBase_sub_four p (envc + 1 + (argc + 1) + 1 + 1)
  rw [← wordDown_eq_stackBase, Nat.zero_add] at henvp
  rw [← hsp'', ← hsp', ← hsp, ← hargv, ← henvp, ← BitVec.ofInt_natCast]
  rfl

/-- The stack after the count and `head` have been pushed. -/
theorem fill_startsWith (head : List Word) (hn : n = head.length + args.length + envs.length + 3)
    (hss : Strings pg m p (args ++ envs)) (hfits : p.toNat + extent (args ++ envs) ≤ 2 ^ 32)
    (hroom : HasRoom pg p n) :
    StartsWith m p args envs head
      (fill pg p (stackBase p (envs.length + 1 + (args.length + 1)))
        (stackBase p (envs.length + 1)) (stackBase p n) args.length envs.length
        (written m (stackBase p n) (BitVec.ofNat 32 args.length :: head))) := by
  have hargv := stackBase_add p (envs.length + 1 + (args.length + 1)) (head.length + 1)
  have henvp := stackBase_add p (envs.length + 1) (head.length + 1 + args.length + 1)
  rw [show envs.length + 1 + (args.length + 1) + (head.length + 1) = n by omega] at hargv
  rw [show envs.length + 1 + (head.length + 1 + args.length + 1) = n by omega] at henvp
  rw [fill_eq (hroom.room hfits) hn hss hargv.symm henvp.symm]
  exact startsWith_written hn (stackBase_toNat hroom.1)

theorem written_nil (m : Mem) (a : Word) : written m a [] = m := rfl

section

variable (hss : Strings pg m p (args ++ envs)) (hfits : p.toNat + extent (args ++ envs) ≤ 2 ^ 32)

include hss hfits

/-- The stack of a COFF program. -/
theorem coffMktables_startsWith (hroom : HasRoom pg p (args.length + envs.length + 3)) :
    StartsWith m p args envs [] (coffMktables pg p args.length envs.length m) := by
  have hn : envs.length + 1 + (args.length + 1) + 1 = args.length + envs.length + 3 := by omega
  have hcount := putUser_below hroom (m := m) (k := 0) (by omega)
    (BitVec.ofNat 32 args.length) [] (by simp)
  rw [written_nil, Nat.mul_zero, BitVec.add_zero] at hcount
  rw [coffMktables_eq_fill, hn, hcount]
  exact fill_startsWith [] (by simp) hss hfits hroom

/-- The stack of an x.out program that wants the addresses of its tables. -/
theorem xoutCreateTables_startsWith (hroom : HasRoom pg p (args.length + envs.length + 5)) :
    StartsWith m p args envs
      [stackBase p (envs.length + 1 + (args.length + 1)), stackBase p (envs.length + 1)]
      (xoutCreateTables pg p args.length envs.length false m) := by
  have hn : envs.length + 1 + (args.length + 1) + 3 = args.length + envs.length + 5 := by omega
  -- the three pushes, each below the last
  have hpush := fun (k : Nat) (hk : k < 3) v (ws : List Word) (hws : ws.length + k ≤ 3) =>
    putUser_below hroom (m := m) (k := k) (by omega) v ws (by omega)
  have hfirst := hpush 2 (by omega) (stackBase p (envs.length + 1)) [] (by simp)
  have hsecond := hpush 1 (by omega) (stackBase p (envs.length + 1 + (args.length + 1)))
    [stackBase p (envs.length + 1)] (by simp)
  have hthird := hpush 0 (by omega) (BitVec.ofNat 32 args.length)
    [stackBase p (envs.length + 1 + (args.length + 1)), stackBase p (envs.length + 1)] (by simp)
  have hone := stackBase_add p (envs.length + 1 + (args.length + 1) + 1) 2
  have htwo := stackBase_add p (envs.length + 1 + (args.length + 1) + 1 + 1) 1
  rw [← hn] at hfirst hsecond hthird
  rw [written_nil, hone] at hfirst
  rw [htwo, hone] at hsecond
  rw [Nat.mul_zero, BitVec.add_zero, htwo] at hthird
  rw [xoutCreateTables_eq_fill, hfirst, hsecond, hthird, hn]
  exact fill_startsWith _ (by simp; omega) hss hfits hroom

end

end Stack

/-- **The initial stack.** Whatever strings lie at `p`, if there is room below them the
loaders give the program a word-aligned stack with its count, the pointers to its
arguments and to its environment and their null words, right below `p` rounded down;
nothing else is touched, and `mm` records where the strings are. The two loaders agree
with `ibcs`; without, the addresses of the two tables follow the count. -/
theorem initial_stack (pg : Pages) (m : Mem) (p : Word) (args envs : List (List Byte))
    (hss : Strings pg m p (args ++ envs)) (hfits : p.toNat + extent (args ++ envs) ≤ 2 ^ 32) :
    (HasRoom pg p (args.length + envs.length + 3) →
      StartsWith m p args envs [] (coffMktables pg p args.length envs.length m) ∧
      xoutCreateTables pg p args.length envs.length true m =
        coffMktables pg p args.length envs.length m) ∧
    (HasRoom pg p (args.length + envs.length + 5) →
      let t := xoutCreateTables pg p args.length envs.length false m
      StartsWith m p args envs
        [t.sp + BitVec.ofNat 32 (4 * 3), t.sp + BitVec.ofNat 32 (4 * (4 + args.length))] t) := by
  refine ⟨fun hroom => ⟨coffMktables_startsWith hss hfits hroom, rfl⟩, fun hroom => ?_⟩
  have hstart := xoutCreateTables_startsWith hss hfits hroom
  have hsp : (xoutCreateTables pg p args.length envs.length false m).sp =
      stackBase p (envs.length + 1 + (args.length + 1) + 3) := by
    rw [xoutCreateTables_eq_fill]
    rfl
  have hargv := stackBase_add p (envs.length + 1 + (args.length + 1)) 3
  have henvp := stackBase_add p (envs.length + 1) (4 + args.length)
  rw [show envs.length + 1 + (4 + args.length) = envs.length + 1 + (args.length + 1) + 3 by omega]
    at henvp
  dsimp only
  rw [hsp, hargv, henvp]
  exact hstart

/-- `argv = {"a"}` and `envp = {"b"}`, from `0x1002` on. -/
def tinyStrings : Mem := fun x => if x = 0x1002 then 97 else if x = 0x1004 then 98 else 0

theorem initial_stack_tiny :
    Strings Pages.everywhere tinyStrings 0x1002 [[97], [98]] ∧
      StartsWith tinyStrings 0x1002 [[97]] [[98]] []
        (coffMktables Pages.everywhere 0x1002 1 1 tinyStrings) ∧
      StartsWith tinyStrings 0x1002 [[97]] [[98]] [0xff0, 0xff8]
        (xoutCreateTables Pages.everywhere 0x1002 1 1 false tinyStrings) := by
  have hss : Strings Pages.everywhere tinyStrings 0x1002 ([[97]] ++ [[98]]) := by
    refine ⟨⟨?_, by decide, by decide, fun _ _ => rfl⟩,
      ⟨?_, by decide, by decide, fun _ _ => rfl⟩, trivial⟩
    all_goals
      intro i hi
      obtain rfl : i = 0 := by simpa using hi
      rfl
  have hstack := initial_stack Pages.everywhere tinyStrings 0x1002 [[97]] [[98]] hss (by decide)
  exact ⟨hss, (hstack.1 ⟨by decide, by decide⟩).1, hstack.2 ⟨by decide, by decide⟩⟩

end AbiEmu.Binfmt
