import Mathlib.Data.Finset.Basic
import AbiEmu.Lib.Chain
import AbiEmu.Lib.Run

/-!
# The registry of execution domains (`kernel/exec_domain.c`)

The kernel keeps the execution domains it knows in a list linked through their
own `next` fields, starting at the variable `exec_domains`. A module registers
its domain when it is loaded and unregisters it when it goes.

The `next` field serves twice: as the link, and as a quick test for "already
registered". The last domain of the list has no successor, so that test alone
says nothing about it; `register_exec_domain` therefore scans the list as well.
Taking a domain out clears its link, so that it can come back.

`Spec` is what the registry is for: a set of domains, with the answers a caller
gets. `registry_refines` relates the pointers to it over every sequence of calls.
The loops of the source end because the list does; a fuel argument bounds them
here, and `Hang` says that it was too small.
-/

namespace AbiEmu.Exec

/-- The address of a domain. -/
abbrev Addr := Nat

/-- A loadable module. -/
abbrev Module := Nat

/-- `struct exec_domain`, as far as it is read here; `module` is null for a domain
of the kernel itself. -/
structure ExecDomain where
  persLow : BitVec 8
  persHigh : BitVec 8
  module : Option Module
  next : Option Addr
  deriving DecidableEq, Repr

/-- The variable `exec_domains` and the domains by address. -/
structure Registry where
  execDomains : Option Addr
  domain : Addr → ExecDomain

/-- A loop that did not end within its fuel. -/
inductive Hang where
  | loop
  deriving DecidableEq, Repr

def EBUSY : Int := 16
def EINVAL : Int := 22

namespace Registry

/-- `ep->next = p`. -/
def setNext (g : Registry) (ep : Addr) (p : Option Addr) : Registry :=
  { g with domain := Function.update g.domain ep { g.domain ep with next := p } }

/-- The first domain from `exec_domains` on that `stop` accepts, and the one before it. -/
def find (g : Registry) (stop : Addr → Bool) (fuel : Nat) : Option (Option (Option Addr × Addr)) :=
  walkTo ExecDomain.next (fun a => some (g.domain a)) stop fuel none g.execDomains

end Registry

/-- `register_exec_domain`. -/
def registerExecDomain (fuel : Nat) (ep : Option Addr) (g : Registry) :
    Except Hang (Int × Registry) :=
  match ep with
  | none => .ok (-EINVAL, g)
  | some d =>
    if (g.domain d).next ≠ none then .ok (-EBUSY, g)
    else
      match g.find (fun tmp => some tmp == ep) fuel with
      | none => .error .loop
      | some (some _) => .ok (-EBUSY, g)
      | some none => .ok (0, { g.setNext d g.execDomains with execDomains := ep })

/-- `unregister_exec_domain`. The pointer `epp` into the list is the domain whose
`next` it points to, or null for `exec_domains` itself. -/
def unregisterExecDomain (fuel : Nat) (ep : Option Addr) (g : Registry) :
    Except Hang (Int × Registry) :=
  match g.find (fun tmp => some tmp == ep) fuel with
  | none => .error .loop
  | some none => .ok (-EINVAL, g)
  | some (some (epp, d)) =>
    -- `*epp = ep->next`, where `*epp` is the variable or a field
    let g' :=
      match epp with
      | none => { g with execDomains := (g.domain d).next }
      | some prev => g.setNext prev (g.domain d).next
    .ok (0, g'.setNext d none)

/-- The calls on the registry. -/
inductive Call where
  | register (ep : Option Addr)
  | unregister (ep : Option Addr)
  deriving DecidableEq, Repr

/-- One call. -/
def call (fuel : Nat) : Call → Registry → Except Hang (Int × Registry)
  | .register ep, g => registerExecDomain fuel ep g
  | .unregister ep, g => unregisterExecDomain fuel ep g

/-- The registry as the kernel starts: only the default domain is listed, and no
domain has a successor. -/
def boot (defaultExecDomain : Addr) (domain : Addr → ExecDomain) : Registry where
  execDomains := some defaultExecDomain
  domain a := { domain a with next := none }

/-! ## What the registry is for -/

/-- The registry as a set: a domain is registered unless it is there, and
unregistered if it is. -/
def Spec.call : Call → Finset Addr → Int × Finset Addr
  | .register none, S => (-EINVAL, S)
  | .register (some ep), S => if ep ∈ S then (-EBUSY, S) else (0, insert ep S)
  | .unregister none, S => (-EINVAL, S)
  | .unregister (some ep), S => if ep ∈ S then (0, S.erase ep) else (-EINVAL, S)

/-- The pointers of `g` link exactly the domains `l`, in this order; the link of
every other domain is null. -/
structure Registry.Lists (g : Registry) (l : List Addr) : Prop where
  chain : Chain ExecDomain.next (fun a => some (g.domain a)) g.execDomains l
  unlinked : ∀ a, a ∉ l → (g.domain a).next = none

namespace Registry

variable {g : Registry} {l : List Addr} {fuel : Nat}

@[simp] theorem setNext_next_self (g : Registry) (ep : Addr) (p : Option Addr) :
    ((g.setNext ep p).domain ep).next = p := by
  simp [setNext]

theorem setNext_of_ne (g : Registry) {ep a : Addr} (h : a ≠ ep) (p : Option Addr) :
    (g.setNext ep p).domain a = g.domain a :=
  Function.update_of_ne h ..

/-- The links are all that `setNext` changes. -/
theorem setNext_module (g : Registry) (ep a : Addr) (p : Option Addr) :
    ((g.setNext ep p).domain a).module = (g.domain a).module := by
  by_cases ha : a = ep
  · subst ha
    simp [setNext]
  · rw [setNext_of_ne g ha]

theorem boot_lists (d : Addr) (domain : Addr → ExecDomain) : (boot d domain).Lists [d] where
  chain := .cons rfl .nil
  unlinked _ _ := rfl

/-- The scan for a domain, in terms of the list. -/
theorem Lists.find_spec (h : g.Lists l) (hfuel : l.length ≤ fuel) (ep : Addr) :
    (ep ∉ l ∧ g.find (fun tmp => some tmp == some ep) fuel = some none) ∨
      ∃ l₁ l₂, l = l₁ ++ ep :: l₂ ∧
        g.find (fun tmp => some tmp == some ep) fuel = some (some (l₁.getLast?, ep)) := by
  rcases h.chain.walkTo_spec (fun tmp => some tmp == some ep) none hfuel with
    ⟨hall, hres⟩ | ⟨l₁, a, l₂, hl, -, ha, hres⟩
  · refine .inl ⟨fun hep => ?_, hres⟩
    simpa using hall ep hep
  · obtain rfl : a = ep := by simpa using ha
    refine .inr ⟨l₁, l₂, hl, ?_⟩
    rw [Option.or_none] at hres
    exact hres

/-- A scan for the null pointer finds nothing. -/
theorem Lists.find_null (h : g.Lists l) (hfuel : l.length ≤ fuel) :
    g.find (fun tmp => some tmp == none) fuel = some none := by
  rcases h.chain.walkTo_spec (fun tmp => some tmp == none) none hfuel with
    ⟨-, hres⟩ | ⟨_, a, _, _, -, ha, -⟩
  · exact hres
  · exact absurd ha (by simp)

/-- A domain in front of the list. -/
theorem Lists.push (h : g.Lists l) {ep : Addr} (hep : ep ∉ l) :
    ({ g.setNext ep g.execDomains with execDomains := some ep } : Registry).Lists (ep :: l) where
  chain := by
    refine .cons rfl ?_
    rw [setNext_next_self]
    refine h.chain.frame fun a ha => ?_
    rw [setNext_of_ne g (ne_of_mem_of_not_mem ha hep)]
  unlinked a ha := by
    obtain ⟨hne, ha⟩ := not_or.mp (fun h' => ha (List.mem_cons.mpr h'))
    rw [setNext_of_ne g hne]
    exact h.unlinked a ha

/-- The first domain out of the list. -/
theorem Lists.pop {ep : Addr} (h : g.Lists (ep :: l)) :
    (({ g with execDomains := (g.domain ep).next } : Registry).setNext ep none).Lists l where
  chain := by
    have hep := (List.nodup_cons.mp h.chain.nodup).1
    refine (h.chain.tail rfl).frame fun a ha => ?_
    rw [setNext_of_ne _ (ne_of_mem_of_not_mem ha hep)]
  unlinked a ha := by
    by_cases hae : a = ep
    · subst hae
      rw [setNext_next_self]
    · rw [setNext_of_ne _ hae]
      exact h.unlinked a fun h' => ha ((List.mem_cons.mp h').resolve_left hae)

/-- A later domain out of the list. -/
theorem Lists.unlink {prev ep : Addr} {l₁ l₂ : List Addr} (h : g.Lists (l₁ ++ prev :: ep :: l₂)) :
    ((g.setNext prev (g.domain ep).next).setNext ep none).Lists (l₁ ++ prev :: l₂) where
  chain := by
    have hnodup := h.chain.nodup
    have hne : prev ≠ ep := by grind
    refine h.chain.skip rfl rfl ?_ ?_
    · rw [setNext_of_ne _ hne, setNext_next_self]
    · intro c hc
      have hc1 : c ≠ ep := by grind
      have hc2 : c ≠ prev := by grind
      rw [setNext_of_ne _ hc1, setNext_of_ne _ hc2]
  unlinked a ha := by
    by_cases hae : a = ep
    · subst hae
      rw [setNext_next_self]
    · have hap : a ≠ prev := by grind
      rw [setNext_of_ne _ hae, setNext_of_ne _ hap]
      exact h.unlinked a (by grind)

end Registry

/-! ## One call -/

section Call

variable {g : Registry} {l : List Addr} {fuel : Nat}

/-- What a call does to the list `l` of a registry, against the set: the answer,
the new list, and nothing at all after an error. -/
def Meets (res : Except Hang (Int × Registry)) (g : Registry) (l : List Addr)
    (expected : Int × Finset Addr) : Prop :=
  ∃ g' l', res = .ok (expected.1, g') ∧ g'.Lists l' ∧ l'.toFinset = expected.2 ∧
    l'.length ≤ l.length + 1 ∧ (expected.1 ≠ 0 → g' = g)

/-- A refused call. -/
theorem Meets.refused (h : g.Lists l) (r : Int) : Meets (.ok (r, g)) g l (r, l.toFinset) :=
  ⟨g, l, rfl, h, rfl, Nat.le_succ _, fun _ => rfl⟩

section

variable (h : g.Lists l) (hfuel : l.length ≤ fuel)

include h hfuel

theorem registerExecDomain_meets (ep : Option Addr) :
    Meets (registerExecDomain fuel ep g) g l (Spec.call (.register ep) l.toFinset) := by
  cases ep with
  | none => exact .refused h _
  | some ep =>
    rw [registerExecDomain, Spec.call]
    by_cases hnext : (g.domain ep).next = none
    · rw [if_neg (not_not.mpr hnext)]
      -- without a successor: the last domain of the list, or none of it
      rcases h.find_spec hfuel ep with ⟨hep, hfind⟩ | ⟨l₁, l₂, hl, hfind⟩
      · rw [hfind, if_neg (fun h' => hep (List.mem_toFinset.mp h'))]
        exact ⟨_, ep :: l, rfl, h.push hep, List.toFinset_cons, Nat.le_refl _, absurd rfl⟩
      · have hep : ep ∈ l := by simp [hl]
        rw [hfind, if_pos (List.mem_toFinset.mpr hep)]
        exact .refused h _
    · have hep : ep ∈ l := by_contra fun hep => hnext (h.unlinked ep hep)
      rw [if_pos hnext, if_pos (List.mem_toFinset.mpr hep)]
      exact .refused h _

theorem unregisterExecDomain_meets (ep : Option Addr) :
    Meets (unregisterExecDomain fuel ep g) g l (Spec.call (.unregister ep) l.toFinset) := by
  cases ep with
  | none =>
    rw [unregisterExecDomain, h.find_null hfuel]
    exact .refused h _
  | some ep =>
    rw [unregisterExecDomain, Spec.call]
    rcases h.find_spec hfuel ep with ⟨hep, hfind⟩ | ⟨l₁, l₂, rfl, hfind⟩
    · rw [hfind, if_neg (fun h' => hep (List.mem_toFinset.mp h'))]
      exact .refused h _
    · have hnodup := h.chain.nodup
      have hep : ep ∈ l₁ ++ ep :: l₂ := by simp
      have hout : (l₁ ++ l₂).toFinset = (l₁ ++ ep :: l₂).toFinset.erase ep := by
        ext a
        simp only [List.mem_toFinset, Finset.mem_erase]
        grind
      rw [hfind, if_pos (List.mem_toFinset.mpr hep)]
      refine ⟨_, l₁ ++ l₂, rfl, ?_, hout, by simp; omega, absurd rfl⟩
      rcases List.eq_nil_or_concat l₁ with rfl | ⟨l₀, prev, rfl⟩
      · exact h.pop
      · simp only [List.concat_eq_append, List.append_assoc, List.singleton_append,
          List.getLast?_append, List.getLast?_singleton, Option.some_or] at h ⊢
        exact h.unlink

theorem call_meets (c : Call) : Meets (call fuel c g) g l (Spec.call c l.toFinset) := by
  cases c with
  | register ep => exact registerExecDomain_meets h hfuel ep
  | unregister ep => exact unregisterExecDomain_meets h hfuel ep

end

end Call

/-! ## Every sequence of calls -/

/-- The pointers hold the set `S`, and the fuel covers a list that grows by one
domain with each call of `cs`. -/
def Holds (fuel : Nat) (cs : List Call) (g : Registry) (S : Finset Addr) : Prop :=
  ∃ l, g.Lists l ∧ l.toFinset = S ∧ l.length + cs.length ≤ fuel

theorem call_refines (fuel : Nat) (c : Call) (cs : List Call) (g : Registry) (S : Finset Addr)
    (h : Holds fuel (c :: cs) g S) :
    ∃ g', call fuel c g = .ok ((Spec.call c S).1, g') ∧ Holds fuel cs g' (Spec.call c S).2 := by
  obtain ⟨l, hl, rfl, hlen⟩ := h
  rw [List.length_cons] at hlen
  have hfuel : l.length ≤ fuel := by omega
  obtain ⟨g', l', hcall, hl', hS, hgrow, -⟩ := call_meets hl hfuel c
  exact ⟨g', hcall, l', hl', hS, by omega⟩

/-- A call that returns an error changes nothing. -/
def ErrorKeeps (fuel : Nat) (c : Call) (g : Registry) : Prop :=
  ∀ r g', call fuel c g = .ok (r, g') → r ≠ 0 → g' = g

theorem Holds.errorKeeps {fuel : Nat} {c : Call} {cs : List Call} {g : Registry} {S : Finset Addr}
    (h : Holds fuel (c :: cs) g S) : ErrorKeeps fuel c g := by
  obtain ⟨l, hl, rfl, hlen⟩ := h
  have hfuel : l.length ≤ fuel := by omega
  obtain ⟨g₁, _, hcall, -, -, -, hkeep⟩ := call_meets hl hfuel c
  intro r g' hr hne
  rw [hcall] at hr
  obtain ⟨rfl, rfl⟩ := Prod.mk.inj (Except.ok.inj hr)
  exact hkeep hne

/-- **The registry is the set it stands for.** From the list that holds only the
default domain, every sequence of calls ends, with the answers of the set; the
pointers then link the members of the set once each, in some order without a
cycle, every other domain has a null link, and no call that returned an error
changed anything. -/
theorem registry_refines (d : Addr) (domain : Addr → ExecDomain) (cs : List Call) (spare : Nat) :
    ∃ g l,
      results (call (cs.length + 1 + spare)) cs (boot d domain) =
        .ok ((answers Spec.call cs {d}).1, g) ∧
      Chain ExecDomain.next (fun a => some (g.domain a)) g.execDomains l ∧
      l.Nodup ∧
      (∀ a, a ∈ l ↔ a ∈ (answers Spec.call cs {d}).2) ∧
      (∀ a, a ∉ l → (g.domain a).next = none) ∧
      Along (call (cs.length + 1 + spare)) (ErrorKeeps (cs.length + 1 + spare)) cs
        (boot d domain) := by
  have hstart : Holds (cs.length + 1 + spare) cs (boot d domain) {d} :=
    ⟨[d], Registry.boot_lists d domain, rfl, by simp; omega⟩
  obtain ⟨g, hrun, l, hl, hS, -⟩ := results_refine (call_refines _) hstart
  refine ⟨g, l, hrun, hl.chain, hl.chain.nodup, fun a => ?_, hl.unlinked, ?_⟩
  · rw [← hS, List.mem_toFinset]
  · exact along_of_refine (call_refines _) (fun _ _ _ _ h => h.errorKeeps) hstart

end AbiEmu.Exec
