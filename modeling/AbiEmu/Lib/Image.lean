import AbiEmu.Lib.Span
import Mathlib.Logic.Nontrivial.Basic

/-!
# Memory images painted from a file

Loading a program is a sequence of patches: each puts zeros, or consecutive
bytes of the file, into a span of memory. `paint` applies them in order, so the
byte at an address comes from the last patch over it. `origin` computes where it
comes from without looking at any byte: nowhere (the old byte is still there), a
zero, or a position of the file.

The two theorems at the end make `origin` the whole story about correctness of
an image: memory holds a given file byte, or a zero, for *every* file and every
old memory if and only if that is its origin. With particular contents a wrong
byte may equal the right one by accident; over all contents it cannot.
-/

namespace AbiEmu

/-- Zeros (`src = none`) or the bytes of the file from position `src` on, put
into the span. -/
structure Patch where
  span : Span
  src : Option Nat
  deriving DecidableEq, Repr

/-- The file position the patch takes the byte at `a` from, if any. -/
def Patch.pos (p : Patch) (a : Nat) : Option Nat :=
  p.src.map fun off => off + (a - p.span.lo)

variable {β : Type} [Zero β]

/-- The byte a position stands for; no position stands for zero. -/
def byteAt (file : Nat → β) : Option Nat → β
  | none => 0
  | some k => file k

/-- The memory after one patch. -/
def Patch.apply (file : Nat → β) (m : Nat → β) (p : Patch) : Nat → β :=
  fun a => if a ∈ p.span then byteAt file (p.pos a) else m a

/-- The memory after the patches, first to last. -/
def paint (file : Nat → β) (m : Nat → β) (ps : List Patch) : Nat → β :=
  ps.foldl (Patch.apply file) m

/-- Where the byte at `a` comes from after the patches: `none` if no patch
covers it, else what the last one over it has there. -/
def origin : List Patch → Nat → Option (Option Nat)
  | [], _ => none
  | p :: ps, a => (origin ps a).or (if a ∈ p.span then some (p.pos a) else none)

@[simp] theorem origin_nil (a : Nat) : origin [] a = none := rfl

theorem origin_cons (p : Patch) (ps : List Patch) (a : Nat) :
    origin (p :: ps) a = (origin ps a).or (if a ∈ p.span then some (p.pos a) else none) := rfl

/-- Later patches win. -/
theorem origin_append (ps qs : List Patch) (a : Nat) :
    origin (ps ++ qs) a = (origin qs a).or (origin ps a) := by
  induction ps with
  | nil => simp
  | cons p ps ih => rw [List.cons_append, origin_cons, ih, origin_cons, Option.or_assoc]

/-- Patches of zeros over the spans. -/
def zeros (zs : List Span) : List Patch := zs.map fun z => ⟨z, none⟩

@[simp] theorem zeros_append (zs ys : List Span) : zeros (zs ++ ys) = zeros zs ++ zeros ys :=
  List.map_append

variable {ps : List Patch}

/-- Where only zeros are painted, an address is a zero or was missed. -/
theorem origin_of_zero (hz : ∀ p ∈ ps, p.src = none) (a : Nat) :
    origin ps a = if ∃ p ∈ ps, a ∈ p.span then some none else none := by
  induction ps with
  | nil => simp
  | cons p ps ih =>
    have hsrc : p.pos a = none := by
      unfold Patch.pos
      rw [hz p (List.mem_cons_self ..)]
      rfl
    rw [origin_cons, ih fun q hq => hz q (List.mem_cons_of_mem p hq), hsrc]
    by_cases hp : a ∈ p.span
    · by_cases hps : ∃ q ∈ ps, a ∈ q.span <;> simp [hp, hps]
    · simp [hp]

theorem origin_zeros (zs : List Span) (a : Nat) :
    origin (zeros zs) a = if ∃ z ∈ zs, a ∈ z then some none else none := by
  rw [origin_of_zero (by simp [zeros])]
  simp [zeros]

/-- Where only file bytes are painted, no address becomes a zero. -/
theorem origin_ne_zero (hs : ∀ p ∈ ps, p.src ≠ none) (a : Nat) : origin ps a ≠ some none := by
  induction ps with
  | nil => exact nofun
  | cons p ps ih =>
    have hrest := ih fun q hq => hs q (List.mem_cons_of_mem p hq)
    have hsrc : p.pos a ≠ none := by
      intro h
      exact hs p (List.mem_cons_self ..) (Option.map_eq_none_iff.mp h)
    rw [origin_cons]
    cases ho : origin ps a with
    | none =>
      split
      · exact fun h => hsrc (Option.some.inj h)
      · exact nofun
    | some src => exact fun h => hrest (ho.trans h)

/-- Zeros painted last spoil exactly the addresses they cover. -/
theorem origin_append_zeros {zs : List Span} {a k : Nat} :
    origin (ps ++ zeros zs) a = some (some k) ↔ origin ps a = some (some k) ∧ ∀ z ∈ zs, a ∉ z := by
  rw [origin_append, origin_zeros]
  by_cases hzs : ∃ z ∈ zs, a ∈ z
  · obtain ⟨z, hz, ha⟩ := hzs
    rw [if_pos ⟨z, hz, ha⟩]
    exact ⟨fun h => (nomatch h), fun h => absurd ha (h.2 z hz)⟩
  · rw [if_neg hzs, Option.none_or]
    exact ⟨fun h => ⟨h, fun z hz ha => hzs ⟨z, hz, ha⟩⟩, fun h => h.1⟩

/-- Painting follows the origins. -/
theorem paint_eq (file m : Nat → β) (ps : List Patch) (a : Nat) :
    paint file m ps a = match origin ps a with
      | none => m a
      | some src => byteAt file src := by
  induction ps generalizing m with
  | nil => rfl
  | cons p ps ih =>
    have hstep : paint file m (p :: ps) = paint file (p.apply file m) ps := rfl
    rw [hstep, ih, origin_cons]
    cases origin ps a with
    | some src => rfl
    | none =>
      by_cases ha : a ∈ p.span
      all_goals simp [Patch.apply, ha]

variable [Nontrivial β] (ps : List Patch)

/-- A byte is the file's byte `k` whatever the file and the old memory hold, if
and only if it comes from there. -/
theorem forall_paint_eq_file (a k : Nat) :
    (∀ file m : Nat → β, paint file m ps a = file k) ↔ origin ps a = some (some k) := by
  obtain ⟨x, hx⟩ := exists_ne (0 : β)
  constructor
  · intro h
    match ho : origin ps a with
    | none =>
      -- nothing was put there: an old byte that differs from the file's shows it
      have hold := h (fun _ => 0) (fun _ => x)
      rw [paint_eq, ho] at hold
      exact absurd hold hx
    | some none =>
      have hzero := h (fun _ => x) (fun _ => 0)
      rw [paint_eq, ho] at hzero
      exact absurd hzero.symm hx
    | some (some j) =>
      -- a file whose bytes at `j` and `k` differ tells them apart
      have hfile := h (fun n => if n = j then x else 0) (fun _ => 0)
      rw [paint_eq, ho] at hfile
      by_cases hjk : k = j
      · rw [hjk]
      · simp only [byteAt, hjk, if_true, if_false] at hfile
        exact absurd hfile hx
  · intro ho file m
    rw [paint_eq, ho]
    rfl

/-- A byte is zero whatever the file and the old memory hold, if and only if a
patch of zeros put it there. -/
theorem forall_paint_eq_zero (a : Nat) :
    (∀ file m : Nat → β, paint file m ps a = 0) ↔ origin ps a = some none := by
  obtain ⟨x, hx⟩ := exists_ne (0 : β)
  constructor
  · intro h
    have hall := h (fun _ => x) (fun _ => x)
    rw [paint_eq] at hall
    match ho : origin ps a with
    | none => rw [ho] at hall; exact absurd hall hx
    | some none => rfl
    | some (some j) => rw [ho] at hall; exact absurd hall hx
  · intro ho file m
    rw [paint_eq, ho]
    rfl

/-- Both cases at once. -/
theorem forall_paint_eq (a : Nat) (src : Option Nat) :
    (∀ file m : Nat → β, paint file m ps a = byteAt file src) ↔ origin ps a = some src := by
  cases src with
  | none => exact forall_paint_eq_zero ps a
  | some k => exact forall_paint_eq_file ps a k

end AbiEmu
