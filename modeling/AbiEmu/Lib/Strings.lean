import AbiEmu.Lib.User

/-!
# Strings in user memory

`CString pg m a s` says that the readable bytes at `a` are those of `s`, none of
them zero, followed by a zero byte. `strlenUser` is the kernel's `strlen_user`: it
counts the bytes of a string with its terminator, and gives zero if it runs into a
byte it may not read.

`Strings` are several strings one behind the other, as a new process finds its
arguments and its environment. `after` is the address behind them, and `starts`
lists where each of them begins. `cstrings` cuts a run of bytes into the strings that
end in it.
-/

namespace AbiEmu

open List

/-- The bytes of a text. -/
def ascii (s : String) : List Byte := s.toList.map fun c => BitVec.ofNat 8 c.toNat

/-- A string with its terminator, at `a`. -/
structure CString (pg : Pages) (m : Mem) (a : Word) (s : List Byte) : Prop where
  byte : ∀ i (hi : i < s.length), m (a + BitVec.ofNat 32 i) = s[i]
  nonzero : ∀ b ∈ s, b ≠ 0
  terminated : m (a + BitVec.ofNat 32 s.length) = 0
  readable : ∀ i ≤ s.length, pg.readable (a + BitVec.ofNat 32 i) = true

/-- Count from `a` on; `n` bytes have been counted. -/
def strlenFrom (pg : Pages) (m : Mem) : Nat → Word → Nat → Nat
  | 0, _, _ => 0
  | fuel + 1, a, n =>
    if pg.readable a = false then 0
    else if m a = 0 then n + 1
    else strlenFrom pg m fuel (a + 1) (n + 1)

/-- `strlen_user`. There are `2 ^ 32` addresses to look at. -/
def strlenUser (pg : Pages) (m : Mem) (a : Word) : Word :=
  BitVec.ofNat 32 (strlenFrom pg m (2 ^ 32) a 0)

/-- The address behind the strings. -/
def after (a : Word) : List (List Byte) → Word
  | [] => a
  | s :: ss => after (a + BitVec.ofNat 32 (s.length + 1)) ss

/-- Where the strings begin. -/
def starts (a : Word) : List (List Byte) → List Word
  | [] => []
  | s :: ss => a :: starts (a + BitVec.ofNat 32 (s.length + 1)) ss

/-- The number of bytes the strings take. -/
def extent (ss : List (List Byte)) : Nat := (ss.map fun s => s.length + 1).sum

/-- Strings one behind the other, from `a` on. -/
def Strings (pg : Pages) (m : Mem) (a : Word) : List (List Byte) → Prop
  | [] => True
  | s :: ss => CString pg m a s ∧ Strings pg m (a + BitVec.ofNat 32 (s.length + 1)) ss

@[simp] theorem extent_nil : extent [] = 0 := rfl

@[simp] theorem extent_cons (s : List Byte) (ss : List (List Byte)) :
    extent (s :: ss) = s.length + 1 + extent ss := by
  simp [extent]

variable (ss : List (List Byte))

@[simp] theorem length_starts : ∀ a, (starts a ss).length = ss.length := by
  induction ss with
  | nil => intro a; rfl
  | cons s ss ih => intro a; simp [starts, ih]

theorem after_append (ss ts : List (List Byte)) :
    ∀ a, after a (ss ++ ts) = after (after a ss) ts := by
  induction ss with
  | nil => intro a; rfl
  | cons s ss ih => intro a; exact ih _

theorem strings_append (pg : Pages) (m : Mem) (ss ts : List (List Byte)) :
    ∀ a, Strings pg m a (ss ++ ts) ↔ Strings pg m a ss ∧ Strings pg m (after a ss) ts := by
  induction ss with
  | nil => intro a; exact ⟨fun h => ⟨trivial, h⟩, fun h => h.2⟩
  | cons s ss ih =>
    intro a
    rw [cons_append, Strings, Strings, ih, and_assoc]
    rfl

@[simp] theorem extent_append (ss ts : List (List Byte)) :
    extent (ss ++ ts) = extent ss + extent ts := by
  simp [extent]

/-- The `i`-th string begins behind those before it. -/
theorem starts_getElem? :
    ∀ (a : Word) (i : Nat), i < ss.length → (starts a ss)[i]? = some (after a (ss.take i)) := by
  induction ss with
  | nil => intro a i hi; exact absurd hi (Nat.not_lt_zero _)
  | cons s ss ih =>
    intro a i hi
    cases i with
    | zero => rfl
    | succ i =>
      exact ih _ i (Nat.lt_of_succ_lt_succ hi)

theorem after_eq : ∀ a, after a ss = a + BitVec.ofNat 32 (extent ss) := by
  induction ss with
  | nil => intro a; simp [after]
  | cons s ss ih =>
    intro a
    rw [after, ih, extent_cons, add_ofNat_add]

variable {pg : Pages}

/-- A string of the rest of a counted string. -/
theorem CString.tail {m : Mem} {a : Word} {b : Byte} {s : List Byte} (h : CString pg m a (b :: s)) :
    CString pg m (a + 1) s := by
  have hshift : ∀ i, a + 1 + BitVec.ofNat 32 i = a + BitVec.ofNat 32 (i + 1) := by
    intro i
    bv_omega
  refine ⟨fun i hi => ?_, fun c hc => h.nonzero c (mem_cons_of_mem _ hc), ?_, fun i hi => ?_⟩
  · rw [hshift, h.byte (i + 1) (Nat.succ_lt_succ hi), getElem_cons_succ]
  all_goals rw [hshift]
  · exact h.terminated
  · exact h.readable (i + 1) (Nat.succ_le_succ hi)

theorem strlenFrom_eq {m : Mem} (s : List Byte) :
    ∀ {fuel n : Nat} {a : Word}, CString pg m a s → s.length < fuel →
      strlenFrom pg m fuel a n = n + s.length + 1 := by
  induction s with
  | nil =>
    intro fuel n a h hfuel
    cases fuel with
    | zero => exact absurd hfuel (Nat.not_lt_zero _)
    | succ fuel =>
      have hr := h.readable 0 (Nat.le_refl _)
      have ht := h.terminated
      rw [length_nil, show a + BitVec.ofNat 32 0 = a by bv_omega] at ht
      rw [show a + BitVec.ofNat 32 0 = a by bv_omega] at hr
      rw [strlenFrom, if_neg (by simp [hr]), if_pos ht]
      rfl
  | cons b s ih =>
    intro fuel n a h hfuel
    cases fuel with
    | zero => exact absurd hfuel (Nat.not_lt_zero _)
    | succ fuel =>
      have hr := h.readable 0 (Nat.zero_le _)
      have hb := h.byte 0 (Nat.succ_pos _)
      rw [show a + BitVec.ofNat 32 0 = a by bv_omega] at hr hb
      have hne : m a ≠ 0 := by
        rw [hb]
        exact h.nonzero _ (mem_cons_self ..)
      rw [strlenFrom, if_neg (by simp [hr]), if_neg hne,
        ih h.tail (Nat.lt_of_succ_lt_succ hfuel), length_cons]
      omega

/-- The length of a string that is there. -/
theorem CString.strlenUser_eq {m : Mem} {a : Word} {s : List Byte} (h : CString pg m a s)
    (hlen : s.length < 2 ^ 32) :
    strlenUser pg m a = BitVec.ofNat 32 (s.length + 1) := by
  rw [strlenUser, strlenFrom_eq s h hlen, Nat.zero_add]

/-- Strings are still there in a memory that agrees on their bytes. -/
theorem Strings.frame {m m' : Mem} :
    ∀ {a : Word}, Strings pg m a ss →
      (∀ i < extent ss, m' (a + BitVec.ofNat 32 i) = m (a + BitVec.ofNat 32 i)) →
      Strings pg m' a ss := by
  induction ss with
  | nil => intro a _ _; trivial
  | cons s ss ih =>
    intro a h hagree
    rw [extent_cons] at hagree
    obtain ⟨hs, hss⟩ := h
    refine ⟨⟨fun i hi => ?_, hs.nonzero, ?_, hs.readable⟩, ih hss fun i hi => ?_⟩
    · rw [hagree i (by omega)]
      exact hs.byte i hi
    · rw [hagree s.length (by omega)]
      exact hs.terminated
    · rw [add_ofNat_add]
      exact hagree _ (by omega)

/-! ## The strings in a run of bytes -/

/-- The strings that end in `bs`; what is behind the last zero is none. -/
def cstrings (bs : List Byte) : List (List Byte) := (bs.splitOn 0).dropLast

end AbiEmu
