import AbiEmu.Lib.Trace
import Mathlib.Data.Multiset.AddSub
import Mathlib.Data.Multiset.Count

/-!
# References a program owns

A counted object lives as long as somebody holds a reference to it. A program that works
with such objects takes references, gives them back, and may look at an object only in
between. Some looks are not its own: a function it calls looks, and trusts that the caller
holds the object.

`Ref` are the notes such a program leaves. `walk` follows a log with the references that
are owned, and fails where something is given back or looked at that is not held. What a
log that can be followed says about the numbers of notes is `walk_count`, and where an
object is looked at one is held (`walk_used`, `walk_lent`).

`Pays` is the rule of pre- and postconditions that goes with it: from owning `own`, the
program can be followed to its end and what it then owns satisfies `Q`. It is computed
step by step.
-/

namespace AbiEmu

/-- A reference is taken or given back; the object is looked at, by the program or by a
function it calls. -/
inductive Ref (κ : Type) where
  | got (x : κ)
  | gave (x : κ)
  | used (x : κ)
  | lent (x : κ)
  deriving DecidableEq, Repr

namespace Ref

variable {κ : Type} [DecidableEq κ]

/-- What is owned after a note, if the object is held. With `lax` nobody asks what the
called functions look at. -/
def pay (lax : Bool) (own : Multiset κ) : Ref κ → Option (Multiset κ)
  | got x => some (x ::ₘ own)
  | gave x => if x ∈ own then some (own.erase x) else none
  | used x => if x ∈ own then some own else none
  | lent x => if lax = true ∨ x ∈ own then some own else none

/-- What is owned after a log. -/
def walk (lax : Bool) (own : Multiset κ) (log : List (Ref κ)) : Option (Multiset κ) :=
  log.foldlM (pay lax) own

variable {lax : Bool} {own own' : Multiset κ} {log : List (Ref κ)}

@[simp] theorem walk_nil : walk lax own ([] : List (Ref κ)) = some own := rfl

theorem walk_cons (r : Ref κ) : walk lax own (r :: log) = (pay lax own r).bind (walk lax · log) :=
  List.foldlM_cons ..

theorem walk_append (p q : List (Ref κ)) :
    walk lax own (p ++ q) = (walk lax own p).bind (walk lax · q) :=
  List.foldlM_append

/-- A step changes the number of references as its note says. -/
theorem pay_count {r : Ref κ} (h : pay lax own r = some own') (x : κ) :
    own.count x + [r].count (got x) = own'.count x + [r].count (gave x) := by
  cases r with
  | got y =>
    obtain rfl := Option.some.inj h
    by_cases hxy : x = y
    · simp [hxy]
    · simp [hxy, Ne.symm hxy]
  | gave y =>
    obtain ⟨hy, hown⟩ := Option.ite_none_right_eq_some.mp h
    obtain rfl := Option.some.inj hown
    by_cases hxy : x = y
    · subst hxy
      have hpos := Multiset.count_pos.mpr hy
      simp
      omega
    · simp [hxy, Ne.symm hxy]
  | used y | lent y =>
    obtain rfl := Option.some.inj (Option.ite_none_right_eq_some.mp h).2
    simp

/-- So does a whole log. -/
theorem walk_count (h : walk lax own log = some own') (x : κ) :
    own.count x + log.count (got x) = own'.count x + log.count (gave x) := by
  induction log generalizing own with
  | nil =>
    obtain rfl := Option.some.inj h
    rfl
  | cons r log ih =>
    obtain ⟨own1, hpay, hrest⟩ := Option.bind_eq_some_iff.mp h
    have hstep := pay_count hpay x
    have hlog := ih hrest
    rw [List.count_cons, List.count_cons, ← List.count_singleton, ← List.count_singleton]
    omega

variable {p q : List (Ref κ)} {x : κ}

/-- Where the program looks at an object it holds it. -/
theorem walk_used (h : walk lax own (p ++ used x :: q) = some own') :
    ∃ own1, walk lax own p = some own1 ∧ x ∈ own1 := by
  rw [walk_append] at h
  obtain ⟨own1, hp, hrest⟩ := Option.bind_eq_some_iff.mp h
  obtain ⟨_, hpay, -⟩ := Option.bind_eq_some_iff.mp hrest
  exact ⟨own1, hp, (Option.ite_none_right_eq_some.mp hpay).1⟩

/-- So it does where a called function looks, if that is asked. -/
theorem walk_lent (h : walk false own (p ++ lent x :: q) = some own') :
    ∃ own1, walk false own p = some own1 ∧ x ∈ own1 := by
  rw [walk_append] at h
  obtain ⟨own1, hp, hrest⟩ := Option.bind_eq_some_iff.mp h
  obtain ⟨_, hpay, -⟩ := Option.bind_eq_some_iff.mp hrest
  exact ⟨own1, hp, (Option.ite_none_right_eq_some.mp hpay).1.resolve_left Bool.false_ne_true⟩

end Ref

/-! ## Pre- and postconditions -/

open Traced Ref

variable {σ κ α β : Type} [DecidableEq κ]

/-- From `own` the program can be followed to its end, and its value, the state and what
is then owned satisfy `Q`. -/
def Pays (lax : Bool) (p : Traced σ (Ref κ) α) (own : Multiset κ) (s : σ)
    (Q : α → σ → Multiset κ → Prop) : Prop :=
  ∃ own', walk lax own (p.log s) = some own' ∧ Q (p.result s).1 (p.result s).2 own'

section Rules

variable {lax : Bool} {own : Multiset κ} {s : σ}

variable {p : Traced σ (Ref κ) α} {Q : α → σ → Multiset κ → Prop}

theorem Pays.mono {R : α → σ → Multiset κ → Prop}
    (h : Pays lax p own s Q) (hQR : ∀ x s' own', Q x s' own' → R x s' own') :
    Pays lax p own s R := by
  obtain ⟨own', hwalk, hQ⟩ := h
  exact ⟨own', hwalk, hQR _ _ _ hQ⟩

/-- The value and the state are those of the program. -/
theorem Pays.and_result (h : Pays lax p own s Q) :
    Pays lax p own s fun x s' own' => p.result s = (x, s') ∧ Q x s' own' := by
  obtain ⟨own', hwalk, hQ⟩ := h
  exact ⟨own', hwalk, rfl, hQ⟩

@[simp] theorem pays_pure (x : α) : Pays lax (pure x : Traced σ (Ref κ) α) own s Q ↔ Q x s own := by
  constructor
  · rintro ⟨own', hwalk, hQ⟩
    obtain rfl := Option.some.inj hwalk
    exact hQ
  · exact fun hQ => ⟨own, rfl, hQ⟩

@[simp] theorem pays_bind (p : Traced σ (Ref κ) α) (f : α → Traced σ (Ref κ) β)
    {Q : β → σ → Multiset κ → Prop} :
    Pays lax (p >>= f) own s Q ↔ Pays lax p own s fun x s' own' => Pays lax (f x) own' s' Q := by
  unfold Pays
  rw [log_bind]
  constructor
  · rintro ⟨own', hwalk, hQ⟩
    rw [walk_append] at hwalk
    obtain ⟨own1, hp, hrest⟩ := Option.bind_eq_some_iff.mp hwalk
    exact ⟨own1, hp, own', hrest, hQ⟩
  · rintro ⟨own1, hp, own', hrest, hQ⟩
    refine ⟨own', ?_, hQ⟩
    rw [walk_append, hp]
    exact hrest

/-- A step that leaves no note. -/
theorem pays_quiet (h : p.log s = []) :
    Pays lax p own s Q ↔ Q (p.result s).1 (p.result s).2 own := by
  unfold Pays
  rw [h]
  exact ⟨fun ⟨_, hwalk, hQ⟩ => Option.some.inj hwalk ▸ hQ, fun hQ => ⟨own, rfl, hQ⟩⟩

@[simp] theorem pays_get {Q : σ → σ → Multiset κ → Prop} :
    Pays lax (get : Traced σ (Ref κ) σ) own s Q ↔ Q s s own :=
  pays_quiet rfl

variable {Q : Unit → σ → Multiset κ → Prop}

@[simp] theorem pays_modify (f : σ → σ) :
    Pays lax (modify f : Traced σ (Ref κ) Unit) own s Q ↔ Q () (f s) own :=
  pays_quiet rfl

theorem pays_note {r : Ref κ} {own' : Multiset κ} (h : pay lax own r = some own') :
    Pays lax (note r : Traced σ (Ref κ) Unit) own s Q ↔ Q () s own' := by
  have hwalk : walk lax own [r] = some own' := by
    rw [walk_cons, h]
    rfl
  exact ⟨fun ⟨_, hw, hQ⟩ => Option.some.inj (hw.symm.trans hwalk) ▸ hQ, fun hQ => ⟨own', hwalk, hQ⟩⟩

variable (x : κ)

@[simp] theorem pays_got :
    Pays lax (note (.got x) : Traced σ (Ref κ) Unit) own s Q ↔ Q () s (x ::ₘ own) :=
  pays_note rfl

@[simp] theorem pays_gave :
    Pays lax (note (.gave x) : Traced σ (Ref κ) Unit) (x ::ₘ own) s Q ↔ Q () s own := by
  have hpay : pay lax (x ::ₘ own) (.gave x) = some ((x ::ₘ own).erase x) :=
    if_pos (Multiset.mem_cons_self x own)
  rw [Multiset.erase_cons_head] at hpay
  exact pays_note hpay

@[simp] theorem pays_used :
    Pays lax (note (.used x) : Traced σ (Ref κ) Unit) (x ::ₘ own) s Q ↔ Q () s (x ::ₘ own) := by
  have hpay : pay lax (x ::ₘ own) (.used x) = some (x ::ₘ own) :=
    if_pos (Multiset.mem_cons_self x own)
  exact pays_note hpay

@[simp] theorem pays_lent :
    Pays lax (note (.lent x) : Traced σ (Ref κ) Unit) (x ::ₘ own) s Q ↔ Q () s (x ::ₘ own) := by
  have hpay : pay lax (x ::ₘ own) (.lent x) = some (x ::ₘ own) :=
    if_pos (.inr (Multiset.mem_cons_self x own))
  exact pays_note hpay

/-- A look nobody asks about. -/
@[simp] theorem pays_lent_lax :
    Pays true (note (.lent x) : Traced σ (Ref κ) Unit) own s Q ↔ Q () s own := by
  have hpay : pay true own (.lent x) = some own := by simp [pay]
  exact pays_note hpay

end Rules

end AbiEmu
