import Mathlib.Logic.Function.Basic
import Mathlib.Data.List.Nodup

/-!
# Singly linked queues in a heap

A heap maps addresses to nodes, and `next` reads the link of a node; `none` is
the null pointer. `Chain next heap p l` says that following the links from `p`
visits exactly the addresses `l` and then reaches null. A chain visits every
address once (`Chain.nodup`), and a heap that agrees on the visited addresses
has the same chain (`Chain.frame`).

`Queue next heap first last l` adds the tail pointer of a queue: it is the last
visited address. The queue lemmas say what a push at the front, an append at
the tail and the removal of the head do to it, in terms of the heap after the
operation, so that they serve any node type.

`freeAll` walks a list and frees its nodes on the way; of a chain it frees every
node (`Chain.freeAll_eq`). `walkTo` walks to the first node a test accepts and
keeps the node before it, whose link can then be moved past the one found
(`Chain.skip`).
-/

namespace AbiEmu

variable {α ν : Type} {next : ν → Option α} {heap heap' : α → Option ν}

/-- Following `next` from the given pointer visits exactly the listed addresses. -/
inductive Chain (next : ν → Option α) (heap : α → Option ν) : Option α → List α → Prop
  | nil : Chain next heap none []
  | cons {a : α} {n : ν} {l : List α} :
      heap a = some n → Chain next heap (next n) l → Chain next heap (some a) (a :: l)

variable {p : Option α} {l : List α} {a : α}

namespace Chain

theorem unique {l' : List α} (h : Chain next heap p l) (h' : Chain next heap p l') : l = l' := by
  induction h generalizing l' with
  | nil =>
    cases h' with
    | nil => rfl
  | cons hn _ ih =>
    cases h' with
    | cons hn' h' =>
      rw [hn] at hn'
      obtain rfl := Option.some.inj hn'
      rw [ih h']

section

variable (h : Chain next heap p l)

include h

/-- Every visited address holds a node. -/
theorem live (ha : a ∈ l) : ∃ n, heap a = some n := by
  induction h with
  | nil => exact nomatch ha
  | cons hn _ ih =>
    rcases List.mem_cons.mp ha with rfl | ha
    · exact ⟨_, hn⟩
    · exact ih ha

/-- The chain from a visited address is the rest of the chain. -/
theorem suffix (ha : a ∈ l) : ∃ l', (a :: l') <:+ l ∧ Chain next heap (some a) (a :: l') := by
  induction h with
  | nil => exact nomatch ha
  | cons hn hrest ih =>
    rcases List.mem_cons.mp ha with rfl | ha
    · exact ⟨_, List.suffix_rfl, .cons hn hrest⟩
    · obtain ⟨l', hsuf, hch⟩ := ih ha
      exact ⟨l', hsuf.trans (List.suffix_cons _ _), hch⟩

/-- A chain has no cycle. -/
theorem nodup : l.Nodup := by
  induction h with
  | nil => exact List.nodup_nil
  | cons hn hrest ih =>
    refine List.nodup_cons.mpr ⟨?_, ih⟩
    intro ha
    -- the chain would be a proper suffix of itself
    obtain ⟨l', hsuf, hch⟩ := hrest.suffix ha
    have heq := hch.unique (.cons hn hrest)
    have hlen := hsuf.length_le
    rw [heq] at hlen
    simp only [List.length_cons] at hlen
    omega

theorem frame (hagree : ∀ a ∈ l, heap' a = heap a) : Chain next heap' p l := by
  induction h with
  | nil => exact .nil
  | cons hn _ ih =>
    refine .cons ?_ (ih fun a ha => hagree a (List.mem_cons_of_mem _ ha))
    rw [hagree _ (List.mem_cons_self ..)]
    exact hn

theorem null_iff : p = none ↔ l = [] := by
  cases h with
  | nil => exact ⟨fun _ => rfl, fun _ => rfl⟩
  | cons _ _ =>
    constructor
    all_goals nofun

variable {na nb : ν}

/-- Linking a node behind the last one extends the chain. -/
theorem snoc {b : α} (hlast : l.getLast? = some b) (hb : heap' b = some nb) (hnb : next nb = some a)
    (ha : heap' a = some na) (hna : next na = none) (hagree : ∀ c ∈ l, c ≠ b → heap' c = heap c) :
    Chain next heap' p (l ++ [a]) := by
  induction h with
  | nil => exact nomatch hlast
  | @cons c n l hn hrest ih =>
    have hnodup := (Chain.cons hn hrest).nodup
    cases hl : l with
    | nil =>
      rw [hl] at hlast
      obtain rfl : c = b := by simpa using hlast
      refine .cons hb ?_
      rw [hnb]
      exact .cons ha (hna ▸ .nil)
    | cons d l' =>
      rw [← hl]
      have hlast' : l.getLast? = some b := by
        rw [hl] at hlast ⊢
        simpa using hlast
      have hcb : c ≠ b := by
        rintro rfl
        exact (List.nodup_cons.mp hnodup).1 (List.mem_of_getLast? hlast')
      refine .cons ?_ (ih hlast' fun e he => hagree e (List.mem_cons_of_mem _ he))
      rw [hagree c (List.mem_cons_self ..) hcb]
      exact hn

end

end Chain

section Free

variable [DecidableEq α]

/-- Free the nodes from `p` on, each after its link has been read. `none`: a node
that is not there was read, or the list did not end in `n` steps. -/
def freeAll (next : ν → Option α) : Nat → (α → Option ν) → Option α → Option (List α)
  | _, _, none => some []
  | 0, _, some _ => none
  | n + 1, heap, some a =>
    match heap a with
    | none => none
    | some node => (freeAll next n (Function.update heap a none) (next node)).map (a :: ·)

/-- Every node of a chain is freed, once. -/
theorem Chain.freeAll_eq (h : Chain next heap p l) {n : Nat}
    (hn : l.length ≤ n) : freeAll next n heap p = some l := by
  induction l generalizing heap p n with
  | nil =>
    cases h
    cases n <;> rfl
  | cons a l ih =>
    have hnodup := List.nodup_cons.mp h.nodup
    cases h with
    | @cons _ node _ ha hrest =>
      cases n with
      | zero => exact absurd hn (Nat.not_succ_le_zero _)
      | succ n =>
        have hrest' : Chain next (Function.update heap a none) (next node) l := by
          refine hrest.frame fun b hb => Function.update_of_ne ?_ ..
          rintro rfl
          exact hnodup.1 hb
        rw [freeAll, ha]
        dsimp only
        rw [ih hrest' (Nat.le_of_succ_le_succ hn), Option.map_some]

end Free

section Walk

/-- Walk from `p` to the first node that `stop` accepts; `prev` is the node whose
link leads to `p`. The result is the node found and the one before it. `none`: a
node that is not there was read, or the list did not end in `n` steps. -/
def walkTo (next : ν → Option α) (heap : α → Option ν) (stop : α → Bool) :
    Nat → Option α → Option α → Option (Option (Option α × α))
  | _, _, none => some none
  | 0, _, some _ => none
  | n + 1, prev, some a =>
    if stop a then some (some (prev, a))
    else
      match heap a with
      | none => none
      | some node => walkTo next heap stop n (some a) (next node)

/-- What a walk along a chain finds. -/
theorem Chain.walkTo_spec (h : Chain next heap p l) (stop : α → Bool) :
    ∀ {n : Nat} (prev : Option α), l.length ≤ n →
      ((∀ b ∈ l, stop b = false) ∧ walkTo next heap stop n prev p = some none) ∨
      ∃ l₁ a l₂, l = l₁ ++ a :: l₂ ∧ (∀ b ∈ l₁, stop b = false) ∧ stop a = true ∧
        walkTo next heap stop n prev p = some (some (l₁.getLast?.or prev, a)) := by
  induction h with
  | nil =>
    intro n prev _
    refine .inl ⟨nofun, ?_⟩
    cases n <;> rfl
  | @cons a node l ha _ ih =>
    intro n prev hn
    cases n with
    | zero => exact absurd hn (Nat.not_succ_le_zero _)
    | succ n =>
      cases hstop : stop a with
      | true =>
        refine .inr ⟨[], a, l, rfl, nofun, hstop, ?_⟩
        rw [walkTo, if_pos hstop]
        rfl
      | false =>
        have hwalk : walkTo next heap stop (n + 1) prev (some a) =
            walkTo next heap stop n (some a) (next node) := by
          rw [walkTo, if_neg (by rw [hstop]; exact Bool.false_ne_true), ha]
        rw [hwalk]
        rcases ih (some a) (Nat.le_of_succ_le_succ hn) with
          ⟨hall, hres⟩ | ⟨l₁, b, l₂, rfl, hall, hb, hres⟩
        · refine .inl ⟨?_, hres⟩
          exact List.forall_mem_cons.mpr ⟨hstop, hall⟩
        · refine .inr ⟨a :: l₁, b, l₂, rfl, List.forall_mem_cons.mpr ⟨hstop, hall⟩, hb, ?_⟩
          rw [hres]
          cases l₁ with
          | nil => rfl
          | cons c l₁ =>
            rfl

variable {n : ν}

/-- The chain behind its first node. -/
theorem Chain.tail (h : Chain next heap p (a :: l)) (hn : heap a = some n) :
    Chain next heap (next n) l := by
  cases h with
  | cons hn' hrest =>
    rw [hn] at hn'
    obtain rfl := Option.some.inj hn'
    exact hrest

/-- Moving the link of `b` past `a` takes `a` out of the chain. -/
theorem Chain.skip {l₁ l₂ : List α} {b : α} (h : Chain next heap p (l₁ ++ b :: a :: l₂))
    (ha : heap a = some na) (hb : heap' b = some nb) (hnb : next nb = next na)
    (hagree : ∀ c ∈ l₁ ++ l₂, heap' c = heap c) : Chain next heap' p (l₁ ++ b :: l₂) := by
  induction l₁ generalizing p with
  | nil =>
    cases h with
    | cons _ hrest =>
      refine .cons hb ?_
      rw [hnb]
      exact (hrest.tail ha).frame hagree
  | cons c l₁ ih =>
    cases h with
    | cons hc hrest =>
      refine .cons ?_ (ih hrest fun d hd => hagree d (List.mem_cons_of_mem _ hd))
      rw [hagree c (List.mem_cons_self ..)]
      exact hc

end Walk

/-- A queue with head pointer `first` and tail pointer `last` holds the
addresses `l`. -/
structure Queue (next : ν → Option α) (heap : α → Option ν) (first last : Option α)
    (l : List α) : Prop where
  chain : Chain next heap first l
  last_eq : last = l.getLast?

namespace Queue

variable {first last : Option α} {l : List α}

theorem empty : Queue next heap none none [] := ⟨.nil, rfl⟩

section

variable (h : Queue next heap first last l)

include h

/-- Head and tail pointer are null together. -/
theorem null_iff : first = none ↔ last = none := by
  rw [h.chain.null_iff, h.last_eq, List.getLast?_eq_none_iff]

/-- The same queue in a heap that agrees on it. -/
theorem frame (hagree : ∀ a ∈ l, heap' a = heap a) : Queue next heap' first last l :=
  ⟨h.chain.frame hagree, h.last_eq⟩

/-- A new node in front. -/
theorem push (hn : heap' a = some n) (hnext : next n = first) (hagree : ∀ b ∈ l, heap' b = heap b) :
    Queue next heap' (some a) (last.or (some a)) (a :: l) := by
  refine ⟨.cons hn (hnext ▸ h.chain.frame hagree), ?_⟩
  rw [h.last_eq]
  cases l with
  | nil => rfl
  | cons b l =>
    rfl

/-- A new node behind the last one. -/
theorem append {b : α} (hlast : last = some b) (hb : heap' b = some nb) (hnb : next nb = some a)
    (ha : heap' a = some na) (hna : next na = none) (hagree : ∀ c ∈ l, c ≠ b → heap' c = heap c) :
    Queue next heap' first (some a) (l ++ [a]) := by
  refine ⟨h.chain.snoc (h.last_eq ▸ hlast) hb hnb ha hna hagree, ?_⟩
  simp

end

/-- The queue without its head. -/
theorem pop (h : Queue next heap (some a) last (a :: l)) (hn : heap a = some n)
    (hagree : ∀ b ∈ l, heap' b = heap b) :
    Queue next heap' (next n) (if next n = none then none else last) l := by
  obtain ⟨hchain, hlast⟩ := h
  cases hchain with
  | cons hn' hrest =>
    rw [hn] at hn'
    obtain rfl := Option.some.inj hn'
    refine ⟨hrest.frame hagree, ?_⟩
    cases l with
    | nil =>
      rw [if_pos (hrest.null_iff.mpr rfl)]
      rfl
    | cons b l =>
      rw [if_neg (fun he => nomatch hrest.null_iff.mp he), hlast, List.getLast?_cons_cons]

end Queue

end AbiEmu
