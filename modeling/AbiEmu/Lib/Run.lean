import Mathlib.Algebra.Ring.Nat

/-!
# Runs of a fallible step function

A system is driven by operations: `step o s` either stops with an error or
gives a result and the next state. `run` does a list of operations in turn, and
`Along P` says that every operation of the list meets the condition `P` in the
state it starts from. The two rules reduce a statement about all runs to one
about a single step: an invariant that every admissible step keeps holds after
every admissible run, and an error that no admissible step raises in a state
with the invariant is never raised.

`results` keeps what the operations returned. A specification is a total
machine over states of its own, and `results_refine` is the simulation rule: if
related states take related steps with the same result, the two machines return
the same results over every run. The relation may depend on the operations
still to come, which is how a run pays for the steps its loops take.
-/

namespace AbiEmu

variable {O S R E : Type} {step : O → S → Except E (R × S)} {P : O → S → Prop} {I : S → Prop}

/-- The operations of a list, one after the other. -/
def run (step : O → S → Except E (R × S)) : List O → S → Except E S
  | [], s => .ok s
  | o :: os, s =>
    match step o s with
    | .error e => .error e
    | .ok (_, s') => run step os s'

/-- Every operation of the list meets `P` in the state it is started in. -/
def Along (step : O → S → Except E (R × S)) (P : O → S → Prop) : List O → S → Prop
  | [], _ => True
  | o :: os, s => P o s ∧ ∀ r s', step o s = .ok (r, s') → Along step P os s'

/-- A condition that every step meets. -/
theorem along_of_forall (h : ∀ o s, P o s) : ∀ (os : List O) (s : S), Along step P os s
  | [], _ => trivial
  | o :: os, s => ⟨h o s, fun _ s' _ => along_of_forall h os s'⟩

variable {Q : O → S → Prop}

/-- Conditions that agree on every step agree along every run. -/
theorem along_congr (h : ∀ o s, P o s ↔ Q o s) :
    ∀ {os : List O} {s : S}, Along step P os s ↔ Along step Q os s
  | [], _ => Iff.rfl
  | o :: os, s => by
    refine and_congr (h o s) ?_
    exact forall_congr' fun r => forall_congr' fun s' => imp_congr_right fun _ => along_congr h

section Rules

variable (hstep : ∀ o s r s', P o s → I s → step o s = .ok (r, s') → I s')

include hstep

/-- The invariant rule. -/
theorem run_inv : ∀ {os : List O} {s t : S}, Along step P os s → I s → run step os s = .ok t → I t
  | [], s, t, _, hI, hrun => by
    obtain rfl := Except.ok.inj hrun
    exact hI
  | o :: os, s, t, halong, hI, hrun => by
    cases ho : step o s with
    | error e => simp only [run, ho] at hrun; exact nomatch hrun
    | ok x =>
      obtain ⟨r, s'⟩ := x
      simp only [run, ho] at hrun
      exact run_inv (halong.2 r s' ho) (hstep o s r s' halong.1 hI ho) hrun

/-- The safety rule. -/
theorem run_ne_error {e : E} (hsafe : ∀ o s, P o s → I s → step o s ≠ .error e) :
    ∀ {os : List O} {s : S}, Along step P os s → I s → run step os s ≠ .error e
  | [], _, _, _ => nofun
  | o :: os, s, halong, hI => by
    cases ho : step o s with
    | error e' =>
      simp only [run, ho]
      rintro he
      obtain rfl := Except.error.inj he
      exact hsafe o s halong.1 hI ho
    | ok x =>
      obtain ⟨r, s'⟩ := x
      simp only [run, ho]
      exact run_ne_error hsafe (halong.2 r s' ho) (hstep o s r s' halong.1 hI ho)

/-- A property of single steps holds at every step of an admissible run. -/
theorem along_of_inv (hQ : ∀ o s, P o s → I s → Q o s) :
    ∀ {os : List O} {s : S}, Along step P os s → I s → Along step Q os s
  | [], _, _, _ => trivial
  | o :: os, s, halong, hI => by
    refine ⟨hQ o s halong.1 hI, ?_⟩
    intro r s' ho
    exact along_of_inv hQ (halong.2 r s' ho) (hstep o s r s' halong.1 hI ho)

end Rules

/-- Conditions that agree in every state with the invariant agree along every admissible
run; the invariant has to survive only the steps with the first condition. -/
theorem along_iff_of_inv {Q Q' : O → S → Prop}
    (hstep : ∀ o s r s', P o s → I s → Q o s → step o s = .ok (r, s') → I s')
    (hQ : ∀ o s, P o s → I s → (Q o s ↔ Q' o s)) :
    ∀ {os : List O} {s : S}, Along step P os s → I s → (Along step Q os s ↔ Along step Q' os s)
  | [], _, _, _ => Iff.rfl
  | o :: os, s, halong, hI => by
    have hiff := hQ o s halong.1 hI
    have hrest (hq : Q o s) : ∀ r s', step o s = .ok (r, s') →
        (Along step Q os s' ↔ Along step Q' os s') := fun r s' ho =>
      along_iff_of_inv hstep hQ (halong.2 r s' ho) (hstep o s r s' halong.1 hI hq ho)
    constructor
    · rintro ⟨hq, hall⟩
      exact ⟨hiff.mp hq, fun r s' ho => (hrest hq r s' ho).mp (hall r s' ho)⟩
    · rintro ⟨hq', hall⟩
      have hq := hiff.mpr hq'
      exact ⟨hq, fun r s' ho => (hrest hq r s' ho).mpr (hall r s' ho)⟩

/-- The budget rule: if every step succeeds and spends its cost, a run succeeds
that its budget covers. -/
theorem run_spends {B : Nat → S → Prop} {cost : O → Nat}
    (hstep : ∀ o s n, B (cost o + n) s → ∃ r s', step o s = .ok (r, s') ∧ B n s') :
    ∀ {os : List O} {s : S} {n : Nat}, B ((os.map cost).sum + n) s →
      ∃ t, run step os s = .ok t ∧ B n t
  | [], s, n, h => by
    rw [List.map_nil, List.sum_nil, Nat.zero_add] at h
    exact ⟨s, rfl, h⟩
  | o :: os, s, n, h => by
    rw [List.map_cons, List.sum_cons, Nat.add_assoc] at h
    obtain ⟨r, s', ho, h'⟩ := hstep o s _ h
    obtain ⟨t, hrun, ht⟩ := run_spends hstep h'
    refine ⟨t, ?_, ht⟩
    simp only [run, ho]
    exact hrun

section Refinement

variable {A : Type} {spec : O → A → R × A} {Rel : List O → S → A → Prop}

/-- The results of the operations of a list, and the state they lead to. -/
def results (step : O → S → Except E (R × S)) : List O → S → Except E (List R × S)
  | [], s => .ok ([], s)
  | o :: os, s =>
    match step o s with
    | .error e => .error e
    | .ok (r, s') => (results step os s').map fun x => (r :: x.1, x.2)

/-- The results a specification gives for a list of operations. -/
def answers (spec : O → A → R × A) : List O → A → List R × A
  | [], a => ([], a)
  | o :: os, a =>
    ((spec o a).1 :: (answers spec os (spec o a).2).1, (answers spec os (spec o a).2).2)

variable (hsim : ∀ o os s a, Rel (o :: os) s a →
  ∃ s', step o s = .ok ((spec o a).1, s') ∧ Rel os s' (spec o a).2)

include hsim

/-- The simulation rule. -/
theorem results_refine : ∀ {os : List O} {s : S} {a : A}, Rel os s a →
      ∃ t, results step os s = .ok ((answers spec os a).1, t) ∧ Rel [] t (answers spec os a).2
  | [], s, _, hrel => ⟨s, rfl, hrel⟩
  | o :: os, s, a, hrel => by
    obtain ⟨s', ho, hrel'⟩ := hsim o os s a hrel
    obtain ⟨t, hrun, ht⟩ := results_refine hrel'
    refine ⟨t, ?_, ht⟩
    simp only [results, ho, hrun, answers]
    rfl

/-- A property of single steps holds at every step of a simulated run. -/
theorem along_of_refine (hQ : ∀ o os s a, Rel (o :: os) s a → Q o s) :
    ∀ {os : List O} {s : S} {a : A}, Rel os s a → Along step Q os s
  | [], _, _, _ => trivial
  | o :: os, s, a, hrel => by
    refine ⟨hQ o os s a hrel, ?_⟩
    intro r s' ho
    obtain ⟨s'', ho', hrel'⟩ := hsim o os s a hrel
    rw [ho] at ho'
    obtain ⟨-, rfl⟩ := Prod.mk.inj (Except.ok.inj ho')
    exact along_of_refine hQ hrel'

end Refinement

end AbiEmu
