import Mathlib.Logic.Basic
import Mathlib.Tactic.Common

/-!
# Ranges of addresses, and pages

A `Span` is a run of addresses given by its first address and its length.
Addresses are natural numbers: a span that would run past the end of an address
space simply has addresses that the space does not have.

Loaders compare spans byte by byte, headers give them by their ends. The lemmas
translate: `apart_iff`, `within_iff` and `withinTwo_iff` turn a statement about
every address of a span into comparisons of ends.

`pages` rounds a span outwards to whole pages of 4096 bytes, which is what a
memory manager maps when it is asked for the span; for the empty span it maps
nothing.
-/

namespace AbiEmu

/-- The addresses `lo, …, lo + len - 1`. -/
structure Span where
  lo : Nat
  len : Nat
  deriving DecidableEq, Repr

namespace Span

instance : Membership Nat Span := ⟨fun s a => s.lo ≤ a ∧ a < s.lo + s.len⟩

variable {a : Nat}

theorem mem_iff {s : Span} : a ∈ s ↔ s.lo ≤ a ∧ a < s.lo + s.len := Iff.rfl

instance (s : Span) (a : Nat) : Decidable (a ∈ s) :=
  inferInstanceAs (Decidable (s.lo ≤ a ∧ a < s.lo + s.len))

variable {s t u : Span}

/-! ## Comparing spans by their ends -/

/-- No address is in both. -/
def Apart (s t : Span) : Prop :=
  s.len = 0 ∨ t.len = 0 ∨ s.lo + s.len ≤ t.lo ∨ t.lo + t.len ≤ s.lo
  deriving Decidable

theorem apart_iff : s.Apart t ↔ ∀ a ∈ s, a ∉ t := by
  simp only [Apart, mem_iff]
  constructor
  · intro h a ha hat
    omega
  · intro h
    -- the higher of the two starts would be a common address
    by_contra hne
    have hcommon := h (max s.lo t.lo) (by omega)
    omega

/-- Every address of `s` is in `t`. -/
def Within (s t : Span) : Prop :=
  s.len = 0 ∨ t.lo ≤ s.lo ∧ s.lo + s.len ≤ t.lo + t.len
  deriving Decidable

theorem within_iff : s.Within t ↔ ∀ a ∈ s, a ∈ t := by
  simp only [Within, mem_iff]
  constructor
  · intro h a ha
    omega
  · intro h
    rcases Nat.eq_zero_or_pos s.len with h0 | hpos
    · exact Or.inl h0
    · have hfirst := h s.lo (by omega)
      have hlast := h (s.lo + s.len - 1) (by omega)
      omega

/-- `t` holds the start of `s`, `u` its end, and there is no gap between them. -/
def Bridged (s t u : Span) : Prop :=
  t.lo ≤ s.lo ∧ u.lo ≤ t.lo + t.len ∧ s.lo + s.len ≤ u.lo + u.len
  deriving Decidable

/-- Every address of `s` is in one of `t` and `u`. -/
def WithinTwo (s t u : Span) : Prop :=
  s.Within t ∨ s.Within u ∨ s.Bridged t u ∨ s.Bridged u t
  deriving Decidable

theorem withinTwo_iff : s.WithinTwo t u ↔ ∀ a ∈ s, a ∈ t ∨ a ∈ u := by
  simp only [WithinTwo, Within, Bridged, mem_iff]
  constructor
  · intro h a ha
    omega
  · intro h
    rcases Nat.eq_zero_or_pos s.len with h0 | hpos
    · exact Or.inl (Or.inl h0)
    · have hfirst := h s.lo (by omega)
      -- where a span ends inside `s`, the other one takes over
      have htend := h (t.lo + t.len)
      have huend := h (u.lo + u.len)
      omega

/-! ## Pages -/

/-- The start of the page of an address. -/
def pageDown (n : Nat) : Nat := n / 4096 * 4096

/-- The first page boundary at or above an address. -/
def pageUp (n : Nat) : Nat := (n + 4095) / 4096 * 4096

/-- The pages that hold an address of the span. -/
def pages (s : Span) : Span :=
  if s.len = 0 then ⟨s.lo, 0⟩
  else ⟨pageDown s.lo, pageUp (s.lo + s.len) - pageDown s.lo⟩

theorem mem_pages : a ∈ s.pages ↔ 0 < s.len ∧ pageDown s.lo ≤ a ∧ a < pageUp (s.lo + s.len) := by
  unfold pages
  split
  next h0 =>
    simp only [mem_iff]
    omega
  next hpos =>
    simp only [mem_iff, pageDown, pageUp]
    omega

theorem mem_pages_of_mem (h : a ∈ s) : a ∈ s.pages := by
  rw [mem_pages]
  rw [mem_iff] at h
  simp only [pageDown, pageUp]
  omega

/-- The rest of a page goes with its bytes. -/
theorem mem_pages_of_samePage {a b : Nat} (hpage : pageDown a = pageDown b) (h : a ∈ s.pages) :
    b ∈ s.pages := by
  rw [mem_pages] at h ⊢
  simp only [pageDown, pageUp] at *
  omega

end Span

end AbiEmu
