import Mathlib.Data.List.Infix
import Mathlib.Data.List.Nodup

/-!
# Messages read in pieces

A mailbox holds messages that are handed out in pieces, the first pending one
first. `queued` and `delivered` are its history: the messages in the order they
came in (a message is named by its position there), and the pieces in the order
they were handed out. A piece says whether more of its message is to come.

`Exact` is what a reader relies on: the pieces of a message follow each other
without a piece of another one in between, together they are a prefix of the
message while it is pending and the whole message afterwards, and exactly the
last piece of a message says that it is the last.

A message may join behind the pending ones at any time (`Good.append`), but in
front of them only while no message is partly read (`Good.push`). With that,
`Good` holds throughout, and `Good.exact` is the guarantee.
-/

namespace AbiEmu

/-- A piece of message `serial`; `more` if it is not the last one. -/
structure Piece (α : Type) where
  serial : Nat
  content : List α
  more : Bool

/-- Pending messages with what is left of them, and the history. -/
structure Mailbox (α : Type) where
  pending : List (Nat × List α)
  queued : List (List α)
  delivered : List (Piece α)

namespace Mailbox

variable {α : Type} {mb : Mailbox α}

/-- A new message in front. -/
def push (mb : Mailbox α) (b : List α) : Mailbox α :=
  { mb with pending := (mb.queued.length, b) :: mb.pending, queued := mb.queued ++ [b] }

/-- A new message behind the others. -/
def append (mb : Mailbox α) (b : List α) : Mailbox α :=
  { mb with pending := mb.pending ++ [(mb.queued.length, b)], queued := mb.queued ++ [b] }

/-- Hand out the next `n` items of the first message. -/
def take (mb : Mailbox α) (n : Nat) : Mailbox α :=
  match mb.pending with
  | [] => mb
  | (i, b) :: rest =>
    { mb with
      pending := if n < b.length then (i, b.drop n) :: rest else rest
      delivered := mb.delivered ++ [⟨i, b.take n, decide (n < b.length)⟩] }

/-- The pieces of message `i` so far. -/
def pieces (mb : Mailbox α) (i : Nat) : List (Piece α) :=
  mb.delivered.filter fun p => p.serial = i

/-- Message `i` is pending. -/
def Pending (mb : Mailbox α) (i : Nat) : Prop := i ∈ mb.pending.map Prod.fst

/-- The last piece handed out was not the last of its message. -/
def PartlyRead (mb : Mailbox α) : Prop := ∃ p, mb.delivered.getLast? = some p ∧ p.more = true

/-- How much of the first pending message has been handed out. -/
def read (mb : Mailbox α) : Nat :=
  match mb.pending with
  | [] => 0
  | (i, _) :: _ => ((mb.pieces i).flatMap Piece.content).length

/-- The pieces are the whole message `b`, and the last one says so. -/
def Whole (ps : List (Piece α)) (b : List α) : Prop :=
  ps.flatMap Piece.content = b ∧
    ∃ init last, ps = init ++ [last] ∧ (∀ p ∈ init, p.more = true) ∧ last.more = false

/-- What a reader relies on. -/
def Exact (mb : Mailbox α) : Prop :=
  ∀ i b, mb.queued[i]? = some b →
    mb.pieces i <:+: mb.delivered ∧
    (mb.Pending i → (mb.pieces i).flatMap Piece.content <+: b ∧
      ∀ p ∈ mb.pieces i, p.more = true) ∧
    (¬ mb.Pending i → Whole (mb.pieces i) b)

/-- The invariant behind `Exact`. -/
structure Good (mb : Mailbox α) : Prop where
  nodup : (mb.pending.map Prod.fst).Nodup
  /-- The first message is partly read, by the pieces handed out last. -/
  head : ∀ i b rest, mb.pending = (i, b) :: rest →
    mb.pieces i <:+ mb.delivered ∧ (∀ p ∈ mb.pieces i, p.more = true) ∧
      mb.queued[i]? = some ((mb.pieces i).flatMap Piece.content ++ b)
  /-- The others are untouched. -/
  tail : ∀ x ∈ mb.pending.tail, mb.pieces x.1 = [] ∧ mb.queued[x.1]? = some x.2
  done : ∀ i b, mb.queued[i]? = some b → ¬ mb.Pending i → Whole (mb.pieces i) b
  known : ∀ p ∈ mb.delivered, p.serial < mb.queued.length
  contiguous : ∀ i, mb.pieces i <:+: mb.delivered

/-- What is left of a message is what its pieces have not delivered. -/
theorem Good.unread (h : mb.Good) {x : Nat × List α} (hx : x ∈ mb.pending) :
    (∀ p ∈ mb.pieces x.1, p.more = true) ∧
      mb.queued[x.1]? = some ((mb.pieces x.1).flatMap Piece.content ++ x.2) := by
  cases hp : mb.pending with
  | nil => rw [hp] at hx; exact nomatch hx
  | cons y rest =>
    rw [hp] at hx
    rcases List.mem_cons.mp hx with rfl | hrest
    · exact (h.head _ _ rest hp).2
    · obtain ⟨hnone, hq⟩ := h.tail x (by rw [hp]; exact hrest)
      rw [hnone]
      exact ⟨nofun, hq⟩

theorem Good.exact (h : mb.Good) : mb.Exact := by
  intro i b hb
  refine ⟨h.contiguous i, ?_, h.done i b hb⟩
  intro hpending
  obtain ⟨x, hmem, rfl⟩ := List.mem_map.mp hpending
  obtain ⟨hmore, hq⟩ := h.unread hmem
  rw [hb] at hq
  rw [Option.some.inj hq]
  exact ⟨List.prefix_append _ _, hmore⟩

variable {i : Nat}

section

variable (h : mb.Good)

include h

/-- A message that is not in yet has no pieces. -/
theorem Good.pieces_new (hi : mb.queued.length ≤ i) : mb.pieces i = [] := by
  refine List.filter_eq_nil_iff.mpr ?_
  intro p hp hserial
  have hlt := h.known p hp
  have heq : p.serial = i := of_decide_eq_true hserial
  omega

theorem Good.pending_lt (hi : mb.Pending i) : i < mb.queued.length := by
  obtain ⟨x, hmem, rfl⟩ := List.mem_map.mp hi
  exact (List.getElem?_eq_some_iff.mp (h.unread hmem).2).1

/-- While no message is partly read, the first one is untouched. -/
theorem Good.untouched (hnot : ¬ mb.PartlyRead) {b : List α} {rest : List (Nat × List α)}
    (hp : mb.pending = (i, b) :: rest) : mb.pieces i = [] := by
  obtain ⟨hsuf, hmore, _⟩ := h.head i b rest hp
  cases hl : (mb.pieces i).getLast? with
  | none => exact List.getLast?_eq_none_iff.mp hl
  | some p =>
    -- the last piece of this message is the last one of all
    exfalso
    have hmem : p ∈ mb.pieces i := List.mem_of_getLast? hl
    refine hnot ⟨p, ?_, hmore p hmem⟩
    obtain ⟨pre, hpre⟩ := hsuf
    rw [← hpre, List.getLast?_append, hl]
    rfl

theorem Good.read_eq_zero (hnot : ¬ mb.PartlyRead) : mb.read = 0 := by
  unfold read
  split
  · rfl
  next i b rest hp =>
    rw [h.untouched hnot hp]
    rfl

/-- Nothing is partly read while nothing is pending. -/
theorem Good.pending_of_partlyRead (hpart : mb.PartlyRead) : mb.pending ≠ [] := by
  intro hnil
  obtain ⟨p, hlast, hmore⟩ := hpart
  have hmem : p ∈ mb.delivered := List.mem_of_getLast? hlast
  have hlt := h.known p hmem
  -- its message is done, so its last piece says so
  have hnot : ¬ mb.Pending p.serial := by
    unfold Pending
    rw [hnil]
    exact List.not_mem_nil
  obtain ⟨_, init, last, hps, _, hfinal⟩ :=
    h.done p.serial _ (List.getElem?_eq_getElem hlt) hnot
  have heq : (mb.pieces p.serial).getLast? = some p := by
    unfold pieces
    obtain ⟨ds, hds⟩ := List.getLast?_eq_some_iff.mp hlast
    rw [hds, List.filter_append]
    simp
  rw [hps] at heq
  have hlp : last = p := by simpa using heq
  rw [hlp, hmore] at hfinal
  exact nomatch hfinal

end

/-! ## The operations keep the invariant -/

theorem good_empty : (⟨[], [], []⟩ : Mailbox α).Good where
  nodup := List.nodup_nil
  head := nofun
  tail := nofun
  done := nofun
  known := nofun
  contiguous := fun _ => List.nil_infix

/-- The history of the messages that were in before is unchanged. -/
theorem queued_before (hi : i < mb.queued.length) (b : List α) :
    (mb.queued ++ [b])[i]? = mb.queued[i]? :=
  List.getElem?_append_left hi

/-- The done messages after a new one came in. -/
theorem Good.done_new (h : mb.Good) {b c : List α} (hc : (mb.queued ++ [b])[i]? = some c)
    (hi : i ≠ mb.queued.length) (hnot : ¬ mb.Pending i) :
    Whole (mb.pieces i) c := by
  have hlt : i < mb.queued.length := by
    have hlen := (List.getElem?_eq_some_iff.mp hc).1
    rw [List.length_append, List.length_singleton] at hlen
    omega
  rw [queued_before hlt] at hc
  exact h.done i c hc hnot

theorem Good.push (h : mb.Good) (hnot : ¬ mb.PartlyRead) (b : List α) : (mb.push b).Good where
  nodup := by
    refine List.nodup_cons.mpr ⟨?_, h.nodup⟩
    intro hmem
    have hlt := h.pending_lt hmem
    omega
  head := by
    intro i c rest hp
    obtain ⟨hic, rfl⟩ := List.cons.inj hp
    obtain ⟨rfl, rfl⟩ := Prod.mk.inj hic
    have hnew : (mb.push b).pieces mb.queued.length = [] := h.pieces_new (le_refl _)
    rw [hnew]
    exact ⟨List.nil_suffix, nofun, by simp [Mailbox.push]⟩
  tail := by
    intro x hx
    have hx' : x ∈ mb.pending := hx
    have hlt := h.pending_lt (List.mem_map_of_mem hx')
    show mb.pieces x.1 = [] ∧ (mb.queued ++ [b])[x.1]? = some x.2
    rw [queued_before hlt]
    cases hp : mb.pending with
    | nil => rw [hp] at hx'; exact nomatch hx'
    | cons y rest =>
      rw [hp] at hx'
      rcases List.mem_cons.mp hx' with rfl | hrest
      · -- the old first message is untouched
        have hnone := h.untouched hnot hp
        have hq := (h.head _ _ _ hp).2.2
        rw [hnone] at hq
        exact ⟨hnone, hq⟩
      · exact h.tail x (by rw [hp]; exact hrest)
  done := by
    intro i c hc hpending
    refine h.done_new hc ?_ fun hmem => hpending (List.mem_cons_of_mem _ hmem)
    intro hi
    exact hpending (hi ▸ List.mem_cons_self ..)
  known := by
    intro p hp
    have hlt := h.known p hp
    show p.serial < (mb.queued ++ [b]).length
    rw [List.length_append]
    omega
  contiguous := h.contiguous

theorem Good.append (h : mb.Good) (b : List α) : (mb.append b).Good where
  nodup := by
    show ((mb.pending ++ [(mb.queued.length, b)]).map Prod.fst).Nodup
    rw [List.map_append]
    refine List.nodup_append.mpr ⟨h.nodup, List.nodup_singleton _, ?_⟩
    intro i hi j hj heq
    have hlt := h.pending_lt hi
    rw [List.map_singleton, List.mem_singleton] at hj
    omega
  head := by
    intro i c rest hp
    cases hold : mb.pending with
    | nil =>
      have hp' : [(mb.queued.length, b)] = (i, c) :: rest := by
        rw [← hp, Mailbox.append, hold]
        rfl
      obtain ⟨hic, rfl⟩ := List.cons.inj hp'
      obtain ⟨rfl, rfl⟩ := Prod.mk.inj hic
      have hnew : (mb.append b).pieces mb.queued.length = [] := h.pieces_new (le_refl _)
      rw [hnew]
      exact ⟨List.nil_suffix, nofun, by simp [Mailbox.append]⟩
    | cons x rest' =>
      have hp' : x :: (rest' ++ [(mb.queued.length, b)]) = (i, c) :: rest := by
        rw [← hp, Mailbox.append, hold]
        rfl
      obtain ⟨rfl, _⟩ := List.cons.inj hp'
      obtain ⟨hsuf, hmore, hq⟩ := h.head i c rest' hold
      refine ⟨hsuf, hmore, ?_⟩
      show (mb.queued ++ [b])[i]? = _
      rw [queued_before (List.getElem?_eq_some_iff.mp hq).1]
      exact hq
  tail := by
    intro x hx
    show mb.pieces x.1 = [] ∧ (mb.queued ++ [b])[x.1]? = some x.2
    have hx' : x ∈ (mb.pending ++ [(mb.queued.length, b)]).tail := hx
    cases hold : mb.pending with
    | nil =>
      rw [hold] at hx'
      exact nomatch hx'
    | cons y rest =>
      rw [hold] at hx'
      rcases List.mem_append.mp (show x ∈ rest ++ [(mb.queued.length, b)] from hx') with hr | hn
      · obtain ⟨hnone, hq⟩ := h.tail x (by rw [hold]; exact hr)
        rw [queued_before (List.getElem?_eq_some_iff.mp hq).1]
        exact ⟨hnone, hq⟩
      · obtain rfl := List.mem_singleton.mp hn
        exact ⟨h.pieces_new (le_refl _), by simp⟩
  done := by
    intro i c hc hpending
    have hpending' : i ∉ (mb.pending ++ [(mb.queued.length, b)]).map Prod.fst := hpending
    rw [List.map_append, List.mem_append, not_or] at hpending'
    refine h.done_new hc ?_ hpending'.1
    intro hi
    exact hpending'.2 (by simp [hi])
  known := by
    intro p hp
    have hlt := h.known p hp
    show p.serial < (mb.queued ++ [b]).length
    rw [List.length_append]
    omega
  contiguous := h.contiguous

section Take

variable {i n : Nat} {b : List α} {rest : List (Nat × List α)}

section

variable (hp : mb.pending = (i, b) :: rest)

include hp

theorem take_of_pending :
    mb.take n = { mb with
      pending := if n < b.length then (i, b.drop n) :: rest else rest
      delivered := mb.delivered ++ [⟨i, b.take n, decide (n < b.length)⟩] } := by
  unfold take
  rw [hp]

theorem pieces_take_self :
    (mb.take n).pieces i = mb.pieces i ++ [⟨i, b.take n, decide (n < b.length)⟩] := by
  rw [take_of_pending hp]
  unfold pieces
  simp

theorem pieces_take_ne {j : Nat} (hj : j ≠ i) : (mb.take n).pieces j = mb.pieces j := by
  rw [take_of_pending hp]
  unfold pieces
  simp [hj.symm]

end

section

variable (h : mb.Good) (hp : mb.pending = (i, b) :: rest)

include h hp

/-- A message other than the one being read, after a piece was handed out. -/
theorem Good.contiguous_take (j : Nat) : (mb.take n).pieces j <:+: (mb.take n).delivered := by
  have hdel : (mb.take n).delivered = mb.delivered ++ [⟨i, b.take n, decide (n < b.length)⟩] := by
    rw [take_of_pending hp]
  rw [hdel]
  by_cases hj : j = i
  · subst hj
    rw [pieces_take_self hp]
    obtain ⟨pre, hpre⟩ := (h.head j b rest hp).1
    refine List.IsSuffix.isInfix ⟨pre, ?_⟩
    rw [← List.append_assoc, hpre]
  · rw [pieces_take_ne hp hj]
    exact (h.contiguous j).trans (List.prefix_append _ _).isInfix

theorem Good.known_take : ∀ p ∈ (mb.take n).delivered, p.serial < (mb.take n).queued.length := by
  rw [take_of_pending hp]
  intro p hmem
  rcases List.mem_append.mp hmem with hold | hnew
  · exact h.known p hold
  · obtain rfl := List.mem_singleton.mp hnew
    exact (List.getElem?_eq_some_iff.mp (h.head i b rest hp).2.2).1

/-- The messages behind the first one are other messages. -/
theorem Good.ne_of_mem {x : Nat × List α} (hx : x ∈ rest) : x.1 ≠ i := by
  have hnodup := h.nodup
  rw [hp, List.map_cons, List.nodup_cons] at hnodup
  intro he
  have hmem : x.1 ∈ rest.map Prod.fst := List.mem_map_of_mem hx
  exact hnodup.1 (he ▸ hmem)

/-- A piece that is not the last one. -/
theorem Good.take_more (hn : n < b.length) : (mb.take n).Good := by
  have hpend : (mb.take n).pending = (i, b.drop n) :: rest := by
    rw [take_of_pending hp]
    exact if_pos hn
  have hq : (mb.take n).queued = mb.queued := by rw [take_of_pending hp]
  have hfst : (mb.take n).pending.map Prod.fst = mb.pending.map Prod.fst := by
    rw [hpend, hp]
    rfl
  obtain ⟨hsuf, hmore, hmsg⟩ := h.head i b rest hp
  refine ⟨hfst ▸ h.nodup, ?_, ?_, ?_, h.known_take hp, h.contiguous_take hp⟩
  · intro j c rest' hp'
    rw [hpend] at hp'
    obtain ⟨hjc, _⟩ := List.cons.inj hp'
    obtain ⟨rfl, rfl⟩ := Prod.mk.inj hjc
    rw [pieces_take_self hp, hq]
    refine ⟨?_, ?_, ?_⟩
    · rw [take_of_pending hp]
      obtain ⟨pre, hpre⟩ := hsuf
      exact ⟨pre, by rw [← List.append_assoc, hpre]⟩
    · intro p hmem
      rcases List.mem_append.mp hmem with hold | hnew
      · exact hmore p hold
      · obtain rfl := List.mem_singleton.mp hnew
        exact decide_eq_true hn
    · rw [hmsg, List.flatMap_append, List.append_assoc]
      simp
  · intro x hx
    rw [hpend] at hx
    obtain ⟨hnone, hx2⟩ := h.tail x (by rw [hp]; exact hx)
    rw [pieces_take_ne hp (h.ne_of_mem hp hx), hq]
    exact ⟨hnone, hx2⟩
  · intro j c hc hnot
    have hnot' : ¬ mb.Pending j := by
      unfold Pending at hnot ⊢
      rw [← hfst]
      exact hnot
    have hj : j ≠ i := by
      intro hji
      refine hnot' ?_
      unfold Pending
      rw [hp, hji]
      exact List.mem_cons_self ..
    rw [pieces_take_ne hp hj]
    exact h.done j c (hq ▸ hc) hnot'

/-- The last piece of a message. -/
theorem Good.take_last (hn : ¬ n < b.length) : (mb.take n).Good := by
  have hpend : (mb.take n).pending = rest := by
    rw [take_of_pending hp]
    exact if_neg hn
  have hq : (mb.take n).queued = mb.queued := by rw [take_of_pending hp]
  obtain ⟨_, hmore, hmsg⟩ := h.head i b rest hp
  -- the messages left are as they were
  have hrest : ∀ x ∈ rest, (mb.take n).pieces x.1 = [] ∧ (mb.take n).queued[x.1]? = some x.2 := by
    intro x hx
    obtain ⟨hnone, hx2⟩ := h.tail x (by rw [hp]; exact hx)
    rw [pieces_take_ne hp (h.ne_of_mem hp hx), hq]
    exact ⟨hnone, hx2⟩
  refine ⟨?_, ?_, ?_, ?_, h.known_take hp, h.contiguous_take hp⟩
  · have hnodup := h.nodup
    rw [hp, List.map_cons, List.nodup_cons] at hnodup
    rw [hpend]
    exact hnodup.2
  · intro j c rest' hp'
    rw [hpend] at hp'
    obtain ⟨hnone, hc⟩ := hrest (j, c) (by rw [hp']; exact List.mem_cons_self ..)
    rw [hnone]
    exact ⟨List.nil_suffix, nofun, hc⟩
  · intro x hx
    rw [hpend] at hx
    exact hrest x (List.mem_of_mem_tail hx)
  · intro j c hc hnot
    by_cases hj : j = i
    · subst hj
      rw [hq, hmsg] at hc
      rw [pieces_take_self hp, ← Option.some.inj hc]
      refine ⟨?_, _, _, rfl, hmore, decide_eq_false hn⟩
      rw [List.flatMap_append]
      simp only [List.flatMap_singleton]
      rw [List.take_of_length_le (not_lt.mp hn)]
    · rw [pieces_take_ne hp hj]
      refine h.done j c (hq ▸ hc) ?_
      intro hpending
      unfold Pending at hpending hnot
      rw [hp, List.map_cons] at hpending
      rw [hpend] at hnot
      rcases List.mem_cons.mp hpending with rfl | hmem
      · exact hj rfl
      · exact hnot hmem

theorem Good.take : (mb.take n).Good := by
  by_cases hn : n < b.length
  · exact h.take_more hp hn
  · exact h.take_last hp hn

/-- How far the first message has been read after a piece was handed out. -/
theorem Good.read_take : (mb.take n).read = if n < b.length then mb.read + n else 0 := by
  split_ifs with hn
  · have hpend : (mb.take n).pending = (i, b.drop n) :: rest := by
      rw [take_of_pending hp]
      exact if_pos hn
    have hread : (mb.take n).read = (((mb.take n).pieces i).flatMap Piece.content).length := by
      unfold read
      rw [hpend]
    have hold : mb.read = ((mb.pieces i).flatMap Piece.content).length := by
      unfold read
      rw [hp]
    rw [hread, hold, pieces_take_self hp, List.flatMap_append, List.length_append]
    simp only [List.flatMap_singleton, List.length_take]
    omega
  · refine (h.take_last hp hn).read_eq_zero ?_
    rintro ⟨p, hlast, hmore⟩
    rw [take_of_pending hp, List.getLast?_concat] at hlast
    obtain rfl := Option.some.inj hlast
    exact hn (of_decide_eq_true hmore)

end

end Take

theorem Good.read_push (h : mb.Good) (b : List α) : (mb.push b).read = 0 := by
  have hnew : (mb.push b).pieces mb.queued.length = [] := h.pieces_new (le_refl _)
  show (((mb.push b).pieces mb.queued.length).flatMap Piece.content).length = 0
  rw [hnew]
  rfl

/-- A message at the end does not change how far the first one has been read. -/
theorem Good.read_append (h : mb.Good) (b : List α) : (mb.append b).read = mb.read := by
  unfold read
  cases hp : mb.pending with
  | nil =>
    have hnew : (mb.append b).pieces mb.queued.length = [] := h.pieces_new (le_refl _)
    have hpend : (mb.append b).pending = [(mb.queued.length, b)] := by
      rw [Mailbox.append, hp]
      rfl
    rw [hpend]
    dsimp only
    rw [hnew]
    rfl
  | cons x rest =>
    have hpend : (mb.append b).pending = x :: (rest ++ [(mb.queued.length, b)]) := by
      rw [Mailbox.append, hp]
      rfl
    rw [hpend]
    rfl

end Mailbox

end AbiEmu
