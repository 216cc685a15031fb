import Mathlib.Algebra.BigOperators.Group.Finset.Basic
import Mathlib.Algebra.BigOperators.Ring.Finset
import Mathlib.Data.Fintype.Basic
import AbiEmu.ExecDomain.Registry
import AbiEmu.Lib.Word

/-!
# References to the modules of execution domains (`kernel/exec_domain.c`)

A module must not be unloaded while a task runs in a domain of it, so a task
holds one reference to the module of its current domain. `lookup_exec_domain`
takes the reference before the task switches, and `__set_personality` gives one
back on each way out: that of the new domain when the switch fails, that of the
old one when it succeeds.

One way out gives nothing back. When the lookup finds the domain the task is in
already, the call only updates the personality and returns; the reference of the
lookup stays. `Op.leaks` names that call, `step_excess` says that it is the only
step after which the references and the tasks differ by more than before, and
`references_follow_iff` sums this up over every run.

Two domains may belong to one module, as those of SCO Unix and Xenix do, so the
tasks are counted by module.
-/

namespace AbiEmu.Exec

/-- `personality` and `exec_domain` of a task. -/
structure Thread where
  personality : Word
  execDomain : Addr
  deriving DecidableEq, Repr

/-- The configuration: `CONFIG_KMOD`, `CONFIG_ABI_LATE_PROBING`, and the address of
`default_exec_domain`. -/
structure Config where
  kmod : Bool
  lateProbing : Bool
  defaultExecDomain : Addr

/-- The registry, `n` tasks, and the reference counts of the modules. -/
structure Sys (n : Nat) where
  registry : Registry
  tasks : Fin n → Thread
  refs : Module → Int

/-- What the rest of the kernel answers to a lookup: for which domains
`try_module_get` succeeds in the first and in the second scan, and the calls on the
registry that the modules loaded by `request_module` make. -/
structure Probe where
  firstTry : Addr → Bool
  secondTry : Addr → Bool
  loaded : List Call

def ENOEXEC : Int := 8
def ENOMEM : Int := 12

variable {n : Nat}

/-- Add `k` references to a module; the kernel itself is not counted. -/
def addRefs (m : Option Module) (k : Int) (refs : Module → Int) : Module → Int :=
  match m with
  | none => refs
  | some m => Function.update refs m (refs m + k)

namespace Sys

/-- The module of a domain. -/
def moduleOf (s : Sys n) (ep : Addr) : Option Module := (s.registry.domain ep).module

/-- `try_module_get(ep->module)`, when it succeeds. -/
def get (s : Sys n) (ep : Addr) : Sys n := { s with refs := addRefs (s.moduleOf ep) 1 s.refs }

/-- `module_put(ep->module)`. -/
def put (s : Sys n) (ep : Addr) : Sys n := { s with refs := addRefs (s.moduleOf ep) (-1) s.refs }

def setTask (s : Sys n) (i : Fin n) (t : Thread) : Sys n :=
  { s with tasks := Function.update s.tasks i t }

end Sys

/-- One scan of `lookup_exec_domain`. A null module is always there. -/
def scan (g : Registry) (perId : BitVec 8) (tryModuleGet : Addr → Bool) (fuel : Nat) :
    Option (Option Addr) :=
  (g.find (fun ep =>
    decide ((g.domain ep).persLow ≤ perId ∧ perId ≤ (g.domain ep).persHigh) &&
      ((g.domain ep).module.isNone || tryModuleGet ep)) fuel).map (Option.map Prod.snd)

/-- What a lookup ends with that found nothing. -/
def Config.fallback (cfg : Config) : Option Addr :=
  if cfg.lateProbing then some cfg.defaultExecDomain else none

/-- `lookup_exec_domain`. -/
def lookupExecDomain (cfg : Config) (fuel : Nat) (personality : Word) (e : Probe) (s : Sys n) :
    Except Hang (Option Addr × Sys n) :=
  let perId := personality.setWidth 8
  match scan s.registry perId e.firstTry fuel with
  | none => .error .loop
  | some (some ep) => .ok (some ep, s.get ep)
  | some none =>
    if cfg.kmod then
      match run (call fuel) e.loaded s.registry with
      | .error h => .error h
      | .ok g =>
        let s := { s with registry := g }
        match scan g perId e.secondTry fuel with
        | none => .error .loop
        | some (some ep) => .ok (some ep, s.get ep)
        | some none => .ok (cfg.fallback, s)
    else .ok (cfg.fallback, s)

/-- `__set_personality` of the task `i`. `fsCount` is the count of its `fs_struct`, and
`copied` says whether `copy_fs_struct` succeeds. -/
def setPersonality (cfg : Config) (fuel : Nat) (i : Fin n) (personality : Word) (e : Probe)
    (fsCount : Nat) (copied : Bool) (s : Sys n) : Except Hang (Int × Sys n) :=
  match lookupExecDomain cfg fuel personality e s with
  | .error h => .error h
  | .ok (none, s) => .ok (-ENOEXEC, s)
  | .ok (some ep, s) =>
    if ep = (s.tasks i).execDomain then
      .ok (0, s.setTask i { s.tasks i with personality := personality })
    else if fsCount ≠ 1 ∧ copied = false then .ok (-ENOMEM, s.put ep)
    else
      let oep := (s.tasks i).execDomain
      .ok (0, (s.setTask i ⟨personality, ep⟩).put oep)

/-- The steps of a history. -/
inductive Op (n : Nat) where
  | setPersonality (i : Fin n) (personality : Word) (e : Probe) (fsCount : Nat) (copied : Bool)
  | registry (c : Call)

/-- One step. -/
def step (cfg : Config) (fuel : Nat) : Op n → Sys n → Except Hang (Int × Sys n)
  | .setPersonality i personality e fsCount copied, s =>
    setPersonality cfg fuel i personality e fsCount copied s
  | .registry c, s => (call fuel c s.registry).map fun x => (x.1, { s with registry := x.2 })

/-! ## Who uses a module -/

namespace Sys

/-- The number of tasks whose current domain belongs to the module `m`. -/
def users (s : Sys n) (m : Module) : Int :=
  (Finset.univ.filter fun i => s.moduleOf (s.tasks i).execDomain = some m).card

/-- The number of tasks whose current domain is `d`. -/
def on (s : Sys n) (d : Addr) : Int :=
  (Finset.univ.filter fun i => (s.tasks i).execDomain = d).card

/-- The references to a module that no task accounts for. -/
def excess (s : Sys n) (m : Module) : Int := s.refs m - s.users m

end Sys

/-- Whether a domain of module `mo` counts for `m`. -/
def weight (mo : Option Module) (m : Module) : Int := if mo = some m then 1 else 0

theorem addRefs_apply (mo : Option Module) (k : Int) (refs : Module → Int) (m : Module) :
    addRefs mo k refs m = refs m + k * weight mo m := by
  cases mo with
  | none => simp [addRefs, weight]
  | some m' =>
    by_cases h : m = m'
    · subst h
      simp [addRefs, weight]
    · simp [addRefs, weight, h, Ne.symm h]

namespace Sys

section

variable (s : Sys n)

include s

theorem users_eq_sum (m : Module) :
    s.users m = ∑ i, weight (s.moduleOf (s.tasks i).execDomain) m := by
  simp [users, weight]

variable (i : Fin n) (t : Thread)

@[simp] theorem setTask_moduleOf (a : Addr) : (s.setTask i t).moduleOf a = s.moduleOf a := rfl

@[simp] theorem setTask_refs : (s.setTask i t).refs = s.refs := rfl

theorem excess_get (ep : Addr) (m : Module) :
    (s.get ep).excess m = s.excess m + weight (s.moduleOf ep) m := by
  have hrefs : (s.get ep).refs m = s.refs m + 1 * weight (s.moduleOf ep) m := addRefs_apply ..
  have husers : (s.get ep).users m = s.users m := rfl
  rw [excess, excess, hrefs, husers]
  omega

theorem excess_put (ep : Addr) (m : Module) :
    (s.put ep).excess m = s.excess m - weight (s.moduleOf ep) m := by
  have hrefs : (s.put ep).refs m = s.refs m + (-1) * weight (s.moduleOf ep) m := addRefs_apply ..
  have husers : (s.put ep).users m = s.users m := rfl
  rw [excess, excess, hrefs, husers]
  omega

/-- A task that changes its domain leaves one module and joins another. -/
theorem users_setTask (m : Module) :
    (s.setTask i t).users m = s.users m - weight (s.moduleOf (s.tasks i).execDomain) m +
      weight (s.moduleOf t.execDomain) m := by
  rw [users_eq_sum, users_eq_sum, ← Finset.add_sum_erase _ _ (Finset.mem_univ i),
    ← Finset.add_sum_erase _ _ (Finset.mem_univ i)]
  have hrest : ∑ j ∈ Finset.univ.erase i,
        weight ((s.setTask i t).moduleOf ((s.setTask i t).tasks j).execDomain) m =
      ∑ j ∈ Finset.univ.erase i, weight (s.moduleOf (s.tasks j).execDomain) m := by
    refine Finset.sum_congr rfl fun j hj => ?_
    have hj : (s.setTask i t).tasks j = s.tasks j :=
      Function.update_of_ne (Finset.ne_of_mem_erase hj) ..
    rw [setTask_moduleOf, hj]
  have hself : (s.setTask i t).tasks i = t := Function.update_self ..
  rw [hrest, hself, setTask_moduleOf]
  omega

theorem excess_setTask (m : Module) :
    (s.setTask i t).excess m = s.excess m + weight (s.moduleOf (s.tasks i).execDomain) m -
      weight (s.moduleOf t.execDomain) m := by
  rw [excess, excess, users_setTask, setTask_refs]
  omega

variable {g : Registry}

/-- The registry matters only through the modules of the domains. -/
theorem excess_registry (hg : ∀ a, (g.domain a).module = (s.registry.domain a).module)
    (m : Module) :
    ({ s with registry := g } : Sys n).excess m = s.excess m := by
  unfold excess users moduleOf
  simp [hg]

end

end Sys

/-! ## One step -/

variable {fuel : Nat} {g g' : Registry} {r : Int}

/-- No call on the registry changes the module of a domain. -/
theorem call_module {c : Call} (h : call fuel c g = .ok (r, g')) (a : Addr) :
    (g'.domain a).module = (g.domain a).module := by
  cases c with
  | register ep =>
    cases ep with
    | none => cases h; rfl
    | some d =>
      rw [call, registerExecDomain] at h
      split_ifs at h with hnext
      · cases h; rfl
      · cases hfind : g.find (fun tmp => some tmp == some d) fuel with
        | none => rw [hfind] at h; cases h
        | some found =>
          rw [hfind] at h
          cases found with
          | some x => cases h; rfl
          | none => cases h; exact g.setNext_module d a _
  | unregister ep =>
    rw [call, unregisterExecDomain] at h
    cases hfind : g.find (fun tmp => some tmp == ep) fuel with
    | none => rw [hfind] at h; cases h
    | some found =>
      rw [hfind] at h
      rcases found with _ | ⟨_ | prev, d⟩
      · cases h; rfl
      · cases h
        rw [Registry.setNext_module]
      · cases h
        rw [Registry.setNext_module, Registry.setNext_module]

theorem run_call_module {cs : List Call} (h : run (call fuel) cs g = .ok g') (a : Addr) :
    (g'.domain a).module = (g.domain a).module := by
  refine run_inv (I := fun x => (x.domain a).module = (g.domain a).module)
    ?_ (along_of_forall (fun _ _ => trivial) cs g) rfl h
  intro c x r x' _ hx hcall
  rw [call_module hcall, hx]

variable {cfg : Config} {s s' : Sys n} {e : Probe}

/-- A lookup takes a reference to the module of the domain it returns, and changes
nothing else that counts. The default domain belongs to the kernel, so it makes no
difference that falling back on it takes none. -/
theorem lookupExecDomain_spec {personality : Word} {res : Option Addr}
    (hdef : s.moduleOf cfg.defaultExecDomain = none)
    (h : lookupExecDomain cfg fuel personality e s = .ok (res, s')) :
    (∀ a, s'.moduleOf a = s.moduleOf a) ∧ s'.tasks = s.tasks ∧
      ∀ m, s'.excess m = s.excess m + weight (res.bind s.moduleOf) m := by
  have hfallback : ∀ m, weight (cfg.fallback.bind s.moduleOf) m = 0 := by
    intro m
    unfold Config.fallback
    cases cfg.lateProbing with
    | true => simp [hdef, weight]
    | false => simp [weight]
  unfold lookupExecDomain at h
  dsimp only at h
  cases hfirst : scan s.registry (personality.setWidth 8) e.firstTry fuel with
  | none => rw [hfirst] at h; cases h
  | some first =>
    rw [hfirst] at h
    cases first with
    | some ep =>
      cases h
      exact ⟨fun _ => rfl, rfl, s.excess_get ep⟩
    | none =>
      cases hkmod : cfg.kmod with
      | false =>
        rw [hkmod] at h
        cases h
        refine ⟨fun _ => rfl, rfl, fun m => ?_⟩
        rw [hfallback, Int.add_zero]
      | true =>
        rw [hkmod] at h
        cases hload : run (call fuel) e.loaded s.registry with
        | error x => rw [hload] at h; cases h
        | ok g =>
          rw [hload] at h
          have hg := run_call_module hload
          dsimp only at h
          cases hsecond : scan g (personality.setWidth 8) e.secondTry fuel with
          | none => rw [hsecond] at h; cases h
          | some second =>
            rw [hsecond] at h
            cases second with
            | some ep =>
              cases h
              refine ⟨hg, rfl, fun m => ?_⟩
              rw [Sys.excess_get, s.excess_registry hg]
              congr 2
              exact hg ep
            | none =>
              cases h
              refine ⟨hg, rfl, fun m => ?_⟩
              rw [s.excess_registry hg, hfallback, Int.add_zero]

/-- The module whose reference a step keeps without need: the task was in a domain
of it, and the lookup found that domain again. -/
def Op.leaks (cfg : Config) (fuel : Nat) : Op n → Sys n → Option Module
  | .setPersonality i personality e _ _, s =>
    match lookupExecDomain cfg fuel personality e s with
    | .ok (some ep, _) => if ep = (s.tasks i).execDomain then s.moduleOf ep else none
    | _ => none
  | .registry _, _ => none

/-- A step changes the balance of references and tasks by what it leaks. -/
theorem step_excess {op : Op n} (hdef : s.moduleOf cfg.defaultExecDomain = none)
    (h : step cfg fuel op s = .ok (r, s')) :
    (∀ a, s'.moduleOf a = s.moduleOf a) ∧
      ∀ m, s'.excess m = s.excess m + weight (op.leaks cfg fuel s) m := by
  cases op with
  | registry c =>
    rw [step] at h
    cases hc : call fuel c s.registry with
    | error x => rw [hc] at h; cases h
    | ok x =>
      rw [hc] at h
      cases h
      refine ⟨call_module hc, fun m => ?_⟩
      rw [s.excess_registry (call_module hc)]
      exact (Int.add_zero _).symm
  | setPersonality i personality e fsCount copied =>
    rw [step, setPersonality] at h
    rw [Op.leaks]
    cases hl : lookupExecDomain cfg fuel personality e s with
    | error x => rw [hl] at h; cases h
    | ok x =>
      obtain ⟨res, s₁⟩ := x
      obtain ⟨hmod, htasks, hex⟩ := lookupExecDomain_spec hdef hl
      rw [hl] at h
      cases res with
      | none =>
        cases h
        exact ⟨hmod, hex⟩
      | some ep =>
        dsimp only at h ⊢
        rw [htasks] at h
        split at h
        next hep =>
          rw [if_pos hep]
          cases h
          refine ⟨hmod, fun m => ?_⟩
          rw [Sys.excess_setTask, hex, htasks]
          simp only [Option.bind_some]
          omega
        next hep =>
          rw [if_neg hep]
          have hnone (m : Module) : weight none m = 0 := rfl
          split_ifs at h with hcopy
          · cases h
            refine ⟨hmod, fun m => ?_⟩
            rw [Sys.excess_put, hex, hmod, hnone, Option.bind_some]
            omega
          · cases h
            refine ⟨hmod, fun m => ?_⟩
            rw [Sys.excess_put, Sys.excess_setTask, hex, Sys.setTask_moduleOf, htasks, hnone,
              Option.bind_some]
            simp only [hmod]
            omega

/-! ## Every run -/

/-- The number of registry calls of a step, which bounds what it adds to the list. -/
def Op.cost : Op n → Nat
  | .setPersonality _ _ e _ _ => e.loaded.length
  | .registry _ => 1

/-- The fuel covers the list of domains and `k` more. -/
def Covers (fuel : Nat) (k : Nat) (g : Registry) : Prop :=
  ∃ l, g.Lists l ∧ l.length + k ≤ fuel

theorem call_spends (c : Call) (g : Registry) (k : Nat) (h : Covers fuel (1 + k) g) :
    ∃ r g', call fuel c g = .ok (r, g') ∧ Covers fuel k g' := by
  obtain ⟨l, hl, hlen⟩ := h
  have hfuel : l.length ≤ fuel := by omega
  obtain ⟨g', l', hcall, hl', -, hgrow, -⟩ := call_meets hl hfuel c
  exact ⟨_, g', hcall, l', hl', by omega⟩

theorem scan_ne_none {fuel k : Nat} (h : Covers fuel k g) (perId : BitVec 8) (tries : Addr → Bool) :
    scan g perId tries fuel ≠ none := by
  obtain ⟨l, hl, hlen⟩ := h
  have hfuel : l.length ≤ fuel := by omega
  unfold scan Registry.find
  rcases hl.chain.walkTo_spec _ none hfuel with ⟨-, hres⟩ | ⟨_, _, _, -, -, -, hres⟩
  all_goals
    rw [hres]
    exact Option.some_ne_none _

theorem lookupExecDomain_spends (cfg : Config) {fuel k : Nat} (personality : Word) {s : Sys n}
    (h : Covers fuel (e.loaded.length + k) s.registry) :
    ∃ res s', lookupExecDomain cfg fuel personality e s = .ok (res, s') ∧
      Covers fuel k s'.registry := by
  have hless : Covers fuel k s.registry := by
    obtain ⟨l, hl, hlen⟩ := h
    exact ⟨l, hl, by omega⟩
  unfold lookupExecDomain
  dsimp only
  cases hfirst : scan s.registry (personality.setWidth 8) e.firstTry fuel with
  | none => exact absurd hfirst (scan_ne_none h _ _)
  | some first =>
    cases first with
    | some ep => exact ⟨_, _, rfl, hless⟩
    | none =>
      cases cfg.kmod with
      | false => exact ⟨_, _, rfl, hless⟩
      | true =>
        have hbudget : Covers fuel ((e.loaded.map fun _ => 1).sum + k) s.registry := by
          simpa [List.map_const'] using h
        obtain ⟨g, hrun, hg⟩ := run_spends call_spends hbudget
        rw [hrun]
        dsimp only
        cases hsecond : scan g (personality.setWidth 8) e.secondTry fuel with
        | none => exact absurd hsecond (scan_ne_none hg _ _)
        | some second =>
          cases second with
          | some ep | none => exact ⟨_, _, rfl, hg⟩

theorem step_spends (op : Op n) (s : Sys n) (k : Nat) (h : Covers fuel (op.cost + k) s.registry) :
    ∃ r s', step cfg fuel op s = .ok (r, s') ∧ Covers fuel k s'.registry := by
  cases op with
  | registry c =>
    obtain ⟨r, g', hc, hg'⟩ := call_spends c s.registry k h
    refine ⟨r, { s with registry := g' }, ?_, hg'⟩
    rw [step, hc]
    rfl
  | setPersonality i personality e fsCount copied =>
    obtain ⟨res, s', hl, hs'⟩ := lookupExecDomain_spends cfg personality h
    rw [step, setPersonality, hl]
    cases res with
    | none => exact ⟨_, _, rfl, hs'⟩
    | some ep =>
      dsimp only
      split
      · exact ⟨_, _, rfl, hs'⟩
      · split <;> exact ⟨_, _, rfl, hs'⟩

/-- What has leaked stays. -/
theorem run_excess_le {ops : List (Op n)} {s t : Sys n}
    (hdef : s.moduleOf cfg.defaultExecDomain = none) (h : run (step cfg fuel) ops s = .ok t)
    (m : Module) : s.excess m ≤ t.excess m := by
  have hinv := run_inv
    (I := fun x : Sys n => x.moduleOf cfg.defaultExecDomain = none ∧ s.excess m ≤ x.excess m)
    ?_ (along_of_forall (fun _ _ => trivial) ops s) ⟨hdef, Int.le_refl _⟩ h
  · exact hinv.2
  · intro op x r x' _ hx hstep
    obtain ⟨hmod, hex⟩ := step_excess hx.1 hstep
    refine ⟨(hmod _).trans hx.1, ?_⟩
    rw [hex m, weight]
    split <;> omega

/-- A run keeps the balance of every module exactly if none of its steps leaks. -/
theorem run_excess_iff {t : Sys n} :
    ∀ {ops : List (Op n)} {s : Sys n}, s.moduleOf cfg.defaultExecDomain = none →
      run (step cfg fuel) ops s = .ok t →
      ((∀ m, t.excess m = s.excess m) ↔
        Along (step cfg fuel) (fun op x => op.leaks cfg fuel x = none) ops s)
  | [], s, _, h => by
    obtain rfl := Except.ok.inj h
    exact ⟨fun _ => trivial, fun _ _ => rfl⟩
  | op :: ops, s, hdef, h => by
    cases ho : step cfg fuel op s with
    | error x => simp only [run, ho] at h; cases h
    | ok x =>
      obtain ⟨r, s'⟩ := x
      simp only [run, ho] at h
      obtain ⟨hmod, hex⟩ := step_excess hdef ho
      have hdef' : s'.moduleOf cfg.defaultExecDomain = none := (hmod _).trans hdef
      cases hleak : op.leaks cfg fuel s with
      | none =>
        have hsame : ∀ m, s'.excess m = s.excess m := by
          intro m
          rw [hex m, hleak]
          exact Int.add_zero _
        have ih := run_excess_iff hdef' h
        simp only [hsame] at ih
        rw [ih]
        constructor
        · intro hal
          refine ⟨hleak, fun r₁ s₁ ho₁ => ?_⟩
          rw [ho] at ho₁
          obtain ⟨-, rfl⟩ := Prod.mk.inj (Except.ok.inj ho₁)
          exact hal
        · intro hal
          exact hal.2 r s' ho
      | some m =>
        refine iff_of_false ?_ ?_
        · intro hall
          -- the step added one, and the rest of the run took nothing away
          have hle := run_excess_le hdef' h m
          have hadd := hex m
          rw [hleak, weight, if_pos rfl] at hadd
          have hm := hall m
          omega
        · intro hal
          exact Option.some_ne_none m (hleak.symm.trans hal.1)

/-- **References follow use, except for calls that find the task's own domain.** From
any registry whose list is intact, every history of switches, registrations and
failures ends; afterwards the count of every module has moved with the number of
its tasks, exactly if no call of the history took a second reference to the module
its task was in. -/
theorem references_follow_iff (cfg : Config) (fuel : Nat) (s : Sys n) (l : List Addr)
    (ops : List (Op n)) (hl : s.registry.Lists l)
    (hdef : s.moduleOf cfg.defaultExecDomain = none)
    (hfuel : l.length + (ops.map Op.cost).sum ≤ fuel) :
    ∃ t, run (step cfg fuel) ops s = .ok t ∧
      ((∀ m, t.refs m = s.refs m + t.users m - s.users m) ↔
        Along (step cfg fuel) (fun op x => op.leaks cfg fuel x = none) ops s) := by
  have hcovers : Covers fuel ((ops.map Op.cost).sum + 0) s.registry := ⟨l, hl, by omega⟩
  obtain ⟨t, hrun, -⟩ :=
    run_spends (B := fun k (x : Sys n) => Covers fuel k x.registry) step_spends hcovers
  refine ⟨t, hrun, ?_⟩
  rw [← run_excess_iff hdef hrun]
  refine forall_congr' fun m => ?_
  unfold Sys.excess
  omega

/-- **A module is not unloaded under a task.** If at first every module has a reference for
each of its tasks, it has after every history: none of the steps gives back too many. -/
theorem users_referenced (cfg : Config) (fuel : Nat) (s : Sys n) (ops : List (Op n)) {t : Sys n}
    (hdef : s.moduleOf cfg.defaultExecDomain = none) (h : run (step cfg fuel) ops s = .ok t)
    (hrefs : ∀ m, s.users m ≤ s.refs m) {i : Fin n} {m : Module}
    (hi : t.moduleOf (t.tasks i).execDomain = some m) : 0 < t.refs m := by
  have hle := run_excess_le hdef h m
  have hused : 0 < t.users m := by
    refine Int.natCast_pos.mpr (Finset.card_pos.mpr ⟨i, ?_⟩)
    exact Finset.mem_filter.mpr ⟨Finset.mem_univ i, hi⟩
  have := hrefs m
  unfold Sys.excess at hle
  omega

/-! ## A task that is asked to become what it is -/

/-- UnixWare 7 as the only domain besides the default one. -/
def uw7Registry : Registry where
  execDomains := some 1
  domain a :=
    if a = 1 then ⟨14, 14, some 7, some 0⟩ else ⟨0, 0, none, none⟩

/-- One task, in the UnixWare domain, with the reference it holds. -/
def uw7Sys : Sys 1 where
  registry := uw7Registry
  tasks _ := ⟨14, 1⟩
  refs m := if m = 7 then 1 else 0

theorem uw7Registry_lists : uw7Registry.Lists [1, 0] where
  chain := .cons rfl (.cons rfl .nil)
  unlinked a ha := by
    have h1 : a ≠ 1 := by
      intro h
      exact ha (h ▸ List.mem_cons_self ..)
    simp [uw7Registry, h1]

/-- The task sets its personality once more, with a flag it did not have. -/
def uw7Again : Op 1 := .setPersonality 0 0x0800000e ⟨fun _ => true, fun _ => true, []⟩ 1 true

/-- The task stays where it is, and the module gets a second reference. -/
theorem same_domain_leaks :
    ∃ t, run (step ⟨true, false, 0⟩ 2) [uw7Again] uw7Sys = .ok t ∧
      t.on 1 = uw7Sys.on 1 ∧ t.refs 7 = 2 ∧
      t.refs 7 ≠ uw7Sys.refs 7 + t.on 1 - uw7Sys.on 1 := by
  refine ⟨_, rfl, ?_⟩
  decide

theorem users_referenced_uw7 :
    ∃ t, run (step ⟨true, false, 0⟩ 2) [uw7Again] uw7Sys = .ok t ∧ 0 < t.refs 7 := by
  refine ⟨_, rfl, users_referenced ⟨true, false, 0⟩ 2 uw7Sys [uw7Again] rfl rfl (fun m => ?_)
    (i := 0) rfl⟩
  rw [Sys.users_eq_sum]
  simp [weight, uw7Sys, Sys.moduleOf, uw7Registry, eq_comm]

/-- Leaving the domain is accounted for. -/
theorem references_follow_uw7 :
    ∃ t, run (step ⟨true, false, 0⟩ 2)
        [.setPersonality 0 0 ⟨fun _ => true, fun _ => true, []⟩ 1 true] uw7Sys = .ok t ∧
      ∀ m, t.refs m = uw7Sys.refs m + t.users m - uw7Sys.users m := by
  obtain ⟨t, hrun, hiff⟩ := references_follow_iff ⟨true, false, 0⟩ 2 uw7Sys [1, 0]
    [.setPersonality 0 0 ⟨fun _ => true, fun _ => true, []⟩ 1 true] uw7Registry_lists rfl
    (by decide)
  exact ⟨t, hrun, hiff.mpr ⟨by decide, fun _ _ _ => trivial⟩⟩

end AbiEmu.Exec
