import AbiEmu.Lib.User

/-!
# Logs of what a call stores

A call that works on memory it was given pointers to is described by the list of
its stores, each labelled by the pointer it goes through. `replay` is memory
after the stores; what a pointer is used for is read off the list itself, so it
does not matter whether two pointers lead to the same bytes.

A `put` stores one word and is what length fields are set with, a `copy` stores
a block of bytes and is what buffers are filled with. `words p` and `blocks p`
are the stores through the pointer `p`, in order. Both are determined part by
part, so a log that is put together from pieces is understood piece by piece.
-/

namespace AbiEmu

/-- A store through the pointer `via`, or something else that happens to memory. -/
inductive Act (π : Type) where
  | put (via : π) (a v : Word)
  | copy (via : π) (a : Word) (bs : List Byte)
  | call (f : Mem → Mem)

variable {π : Type}

def Act.apply : Act π → Mem → Mem
  | put _ a v, m => m.store a v.bytes
  | copy _ a bs, m => m.store a bs
  | call f, m => f m

/-- Memory after the stores, first to last. -/
def replay (acts : List (Act π)) (m : Mem) : Mem := acts.foldl (fun m act => act.apply m) m

@[simp] theorem replay_nil (m : Mem) : replay ([] : List (Act π)) m = m := rfl

@[simp] theorem replay_cons (act : Act π) (acts : List (Act π)) (m : Mem) :
    replay (act :: acts) m = replay acts (act.apply m) := rfl

@[simp] theorem replay_append (as bs : List (Act π)) (m : Mem) :
    replay (as ++ bs) m = replay bs (replay as m) :=
  List.foldl_append

/-- The act stores into the byte at `x`; a call may store anywhere. -/
def Act.Stores (x : Word) : Act π → Prop
  | put _ a _ => (x - a).toNat < 4
  | copy _ a bs => (x - a).toNat < bs.length
  | call _ => True

/-- The bytes `[a, a + n)` lie below `limit`. -/
theorem below_iff {a : Word} {n limit : Nat} (hn : a.toNat + n ≤ 2 ^ 32) :
    (∀ x : Word, (x - a).toNat < n → x.toNat < limit) ↔ n = 0 ∨ a.toNat + n ≤ limit := by
  constructor
  · intro h
    by_cases h0 : n = 0
    · exact .inl h0
    · have hlast := h (a + BitVec.ofNat 32 (n - 1)) (by bv_omega)
      bv_omega
  · intro h x hx
    bv_omega

/-- A byte that nothing is stored into. -/
theorem replay_apart {x : Word} (m : Mem) : ∀ {acts : List (Act π)},
    (∀ act ∈ acts, ¬ act.Stores x) → replay acts m x = m x
  | [], _ => rfl
  | act :: acts, h => by
    obtain ⟨hact, hacts⟩ := List.forall_mem_cons.mp h
    rw [replay_cons, replay_apart _ hacts]
    cases act with
    | put p a v | copy p a bs => exact Mem.store_apart m a (Nat.not_lt.mp hact)
    | call f => exact absurd trivial hact

variable [DecidableEq π]

/-- The word the store puts through `p`. -/
def Act.word (p : π) : Act π → Option Word
  | put q _ v => if q = p then some v else none
  | _ => none

/-- The block the store copies through `p`, and where it goes. -/
def Act.block (p : π) : Act π → Option (Word × List Byte)
  | copy q a bs => if q = p then some (a, bs) else none
  | _ => none

/-- The words put through `p`. -/
def words (p : π) (acts : List (Act π)) : List Word := acts.filterMap (Act.word p)

/-- The blocks copied through `p`. -/
def blocks (p : π) (acts : List (Act π)) : List (Word × List Byte) :=
  acts.filterMap (Act.block p)

/-- How many bytes the blocks have. -/
def total (bl : List (Word × List Byte)) : Nat := (bl.map fun b => b.2.length).sum

/-- How many bytes were copied through `p`. -/
def placed (p : π) (acts : List (Act π)) : Nat := total (blocks p acts)

/-- Nothing is stored through `p`. -/
structure Unused (p : π) (acts : List (Act π)) : Prop where
  words : words p acts = []
  blocks : blocks p acts = []

section

variable (p q : π) (as bs : List (Act π))

@[simp] theorem words_append : words p (as ++ bs) = words p as ++ words p bs :=
  List.filterMap_append

@[simp] theorem blocks_append : blocks p (as ++ bs) = blocks p as ++ blocks p bs :=
  List.filterMap_append

@[simp] theorem blocks_copy (a : Word) (b : List Byte) :
    blocks p (.copy q a b :: as) = if q = p then (a, b) :: blocks p as else blocks p as := by
  split_ifs with h
  · exact List.filterMap_cons_some (if_pos h)
  · exact List.filterMap_cons_none (if_neg h)

end

end AbiEmu
