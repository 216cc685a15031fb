import Mathlib.Data.List.Basic

/-!
# Programs that keep a log

A program on a state can be written so that every step of interest leaves a note.
`result` is what the program does, `log` the notes in order. That the program is the
one that was meant is then a statement about `result`, and what it did on the way one
about `log`; both are determined step by step.

`Keeps P` says that every note satisfies `P`. It distributes over sequencing, so a
condition on a whole program is read off its steps.
-/

namespace AbiEmu

/-- A program on the state `σ` that leaves notes of type `τ`. -/
def Traced (σ τ α : Type) : Type := σ → (α × σ) × List τ

namespace Traced

variable {σ τ α β : Type}

instance : Monad (Traced σ τ) where
  pure x := fun s => ((x, s), [])
  bind p f := fun s => ((f (p s).1.1 (p s).1.2).1, (p s).2 ++ (f (p s).1.1 (p s).1.2).2)

/-- The value of the program and the state it ends in. -/
def result (p : Traced σ τ α) (s : σ) : α × σ := (p s).1

/-- The notes it leaves. -/
def log (p : Traced σ τ α) (s : σ) : List τ := (p s).2

/-- The state. -/
def get : Traced σ τ σ := fun s => ((s, s), [])

/-- Change the state. -/
def modify (f : σ → σ) : Traced σ τ Unit := fun s => (((), f s), [])

/-- Leave a note. -/
def note (t : τ) : Traced σ τ Unit := fun s => (((), s), [t])

variable (p : Traced σ τ α) (f : α → Traced σ τ β) (s : σ)

@[simp] theorem result_bind : (p >>= f).result s = (f (p.result s).1).result (p.result s).2 := rfl

@[simp] theorem result_get : (get : Traced σ τ σ).result s = (s, s) := rfl

@[simp] theorem result_modify (f : σ → σ) (s : σ) :
    (modify f : Traced σ τ Unit).result s = ((), f s) := rfl

theorem result_ite (c : Prop) [Decidable c] (p q : Traced σ τ α) (s : σ) :
    (if c then p else q).result s = if c then p.result s else q.result s :=
  apply_ite (result · s) c p q

theorem log_bind : (p >>= f).log s = p.log s ++ (f (p.result s).1).log (p.result s).2 := rfl

/-- Every note satisfies `P`. -/
def Keeps (P : τ → Prop) (p : Traced σ τ α) (s : σ) : Prop := ∀ t ∈ p.log s, P t

variable {P : τ → Prop}

@[simp] theorem keeps_pure (x : α) (s : σ) : Keeps P (pure x : Traced σ τ α) s ↔ True :=
  iff_true_intro nofun

@[simp] theorem keeps_bind :
    Keeps P (p >>= f) s ↔ Keeps P p s ∧ Keeps P (f (p.result s).1) (p.result s).2 :=
  List.forall_mem_append

@[simp] theorem keeps_get : Keeps P (get : Traced σ τ σ) s ↔ True :=
  iff_true_intro nofun

@[simp] theorem keeps_modify (f : σ → σ) (s : σ) : Keeps P (modify f : Traced σ τ Unit) s ↔ True :=
  iff_true_intro nofun

@[simp] theorem keeps_note (t : τ) (s : σ) : Keeps P (note t : Traced σ τ Unit) s ↔ P t :=
  List.forall_mem_singleton

theorem keeps_ite (c : Prop) [Decidable c] (p q : Traced σ τ α) (s : σ) :
    Keeps P (if c then p else q) s ↔ if c then Keeps P p s else Keeps P q s :=
  iff_of_eq (apply_ite (Keeps P · s) c p q)

/-- Two properties are kept together. -/
theorem keeps_and {Q : τ → Prop} : Keeps (fun t => P t ∧ Q t) p s ↔ Keeps P p s ∧ Keeps Q p s :=
  forall₂_and

end Traced

end AbiEmu
