import AbiEmu.Lcall7.Return

/-!
# What arguments a handler acts on

Two ways of passing arguments meet in `lcall7_dispatch`. A counted entry has
its words fetched from stack index `off` on and passed as C arguments; an entry
marked `Spl` or `Fast` gets the register frame and fetches its parameters itself,
parameter `k` from stack index `k + 1` (`get_syscall_parameter`) in all functions but
one (`Handler.index`), whatever `off` is. The convention is
a number in the table and the prototype is in the handler's source file, and
nothing compares the two.

`Delivered ap off` says that a call through the entry works for every user
stack: parameter `k` of the function is the stack word `off + k`, and no user
word stands in for a register frame. `Sysent.fits` is the condition on the
entry alone under which that holds (`delivered_iff_fits`), and
`table_delivered_iff` runs it over all tables. The entries that do not fit:

* `sys_umount` (slot 22 everywhere) is declared with two parameters and called
  with one;
* `svr4_getpmsg` and `svr4_putpmsg` (slots 132 and 133 of four tables) take a
  register frame and are called with five words;
* `sys_getsockname` in the Wyse TCP table is called with a register frame;
* `abi_sigsuspend` in the `sysisc` table fetches its mask from index 1, where
  that dispatcher has the sub-call number, instead of index 2;
* `abi_procids` (slot 39) skips a word behind its first parameter under the SVR3, SCO,
  Wyse and Xenix personalities.
-/

namespace AbiEmu.Lcall7

open List

/-- The word at stack index `i` is in user memory. -/
def OnStack (esp : Word) (i : Nat) : Prop :=
  (esp + BitVec.ofNat 32 (4 * i)).toNat + 4 ≤ taskSize

/-- The ids of the personalities that have a domain with a `lcall7` handler. -/
inductive Perid where
  | svr4 | svr3 | scosvr3 | wysev386 | iscr4 | xenix | solaris | uw7
  deriving DecidableEq, Repr

/-- The domain registered for an id. -/
def Perid.domain : Perid → Personality
  | .svr4 | .svr3 => .ibcs
  | .scosvr3 => .sco
  | .wysev386 => .wyse
  | .iscr4 => .isc
  | .xenix => .xenix
  | .solaris => .solaris
  | .uw7 => .uw7

/-- The `offset` of `abi_procids`. -/
def Perid.procidsOffset : Perid → Nat
  | .svr3 | .scosvr3 | .wysev386 | .xenix => 1
  | _ => 0

/-- The stack index a function that is given the register frame fetches parameter `k`
from. -/
def Handler.index (id : Perid) (k : Nat) : Handler → Nat
  | .abiProcids => if k = 0 then 1 else k + 1 + id.procidsOffset
  | _ => k + 1

theorem Handler.index_le (id : Perid) (k : Nat) (h : Handler) : h.index id k ≤ k + 2 := by
  have hoffset : id.procidsOffset ≤ 1 := by cases id <;> decide
  unfold Handler.index
  split
  · split_ifs <;> omega
  · omega

/-- The parameter numbers a function acts on. -/
def Handler.paramNumbers (h : Handler) : List Nat :=
  match h.decl with
  | .counted n => List.range n
  | .frame ks => ks

/-- The function a call reaches. -/
def Call.handler : Call → Option Handler
  | .fast h => some h
  | .frame h => some h
  | .words h _ => some h
  | .unsupported => none

/-- The stack word a called function acts on as its parameter `k`: it fetches it
from the frame it expects, or finds it among the words it expects. A function
given the other of the two, or too few words, acts on something else. -/
def Call.arg (id : Perid) (m : Mem) (regs : PtRegs) (k : Nat) : Call → Option Word
  | .fast h | .frame h =>
    match h.decl with
    | .frame _ => some (m.slot regs.esp (h.index id k))
    | .counted _ => none
  | .words h args =>
    match h.decl with
    | .frame _ => none
    | .counted _ => args[k]?
  | .unsupported => none

/-- The function expects a register frame and is given a user's word instead. -/
def Call.Forged : Call → Prop
  | .words h args => (∃ ks, h.decl = .frame ks) ∧ args ≠ []
  | _ => False

/-- Calls through `ap` with argument offset `off` give the function the caller's
arguments, on every user stack. -/
def Delivered (id : Perid) (ap : Sysent) (off : Nat) : Prop :=
  ∀ (m : Mem) (regs : PtRegs),
    ¬ (selectCall m regs ap off).Forged ∧
    ∀ h, (selectCall m regs ap off).handler = some h →
      ∀ k ∈ h.paramNumbers, OnStack regs.esp (off + k) →
        (selectCall m regs ap off).arg id m regs k = some (m.slot regs.esp (off + k))

/-- The convention of the entry agrees with the prototype of its function. -/
def Sysent.fits (id : Perid) (ap : Sysent) (off : Nat) : Bool :=
  match ap.seSyscall with
  | none => true
  | some h =>
    if ap.seNargs = fast ∨ ap.seNargs = spl then
      match h.decl with
      | .frame ks => ks.all fun k => h.index id k = off + k
      | .counted n => n = 0
    else if 0 ≤ ap.seNargs ∧ ap.seNargs ≤ 7 then
      match h.decl with
      | .frame ks => ks = [] ∧ ap.seNargs = 0
      | .counted n => n ≤ ap.seNargs.toNat
    else true

/-! ## A stack that tells two words apart -/

/-- The memory with a single byte 1, at `a`. -/
def spot (a : Word) : Mem := fun b => if b = a then 1 else 0

theorem spot_slot_ne {i j : Nat} (hi : i < 1000) (hj : j < 1000) (hij : i ≠ j) :
    (spot (BitVec.ofNat 32 (4 * i))).slot 0 i ≠ (spot (BitVec.ofNat 32 (4 * i))).slot 0 j := by
  intro heq
  have hbyte := congrArg (BitVec.setWidth 8) heq
  have hne : BitVec.ofNat 32 (4 * j) ≠ BitVec.ofNat 32 (4 * i) := by
    intro h
    have := congrArg BitVec.toNat h
    simp only [BitVec.toNat_ofNat] at this
    omega
  simp only [Mem.slot, zero_add, Mem.word_low, spot] at hbyte
  rw [if_pos True.intro, if_neg hne] at hbyte
  exact nomatch hbyte

theorem onStack_zero {i : Nat} (hi : i < 1000) : OnStack 0 i := by
  unfold OnStack taskSize
  simp only [zero_add, BitVec.toNat_ofNat]
  omega

/-! ## Delivery is agreement of convention and prototype -/

theorem getArgs_getElem? (m : Mem) (regs : PtRegs) (off n k : Nat) :
    (getArgs m regs off n)[k]? =
      if k < n then some (getUser m (regs.esp + BitVec.ofNat 32 (4 * (k + off)))) else none := by
  unfold getArgs
  rw [getElem?_map]
  split_ifs with hk
  · rw [getElem?_range hk]
    rfl
  · rw [getElem?_eq_none (by simpa using hk)]
    rfl

/-- `get_user` reads a word that is on the stack. -/
theorem getUser_onStack {m : Mem} {esp : Word} {off k : Nat} (h : OnStack esp (off + k)) :
    getUser m (esp + BitVec.ofNat 32 (4 * (k + off))) = m.slot esp (off + k) := by
  rw [Nat.add_comm k off]
  exact if_pos h

/-- Handlers fetch parameter numbers below 6 and are declared with at most 7. -/
theorem paramNumbers_lt (h : Handler) : ∀ k ∈ h.paramNumbers, k < 8 := by
  cases h <;> decide

section
variable {id : Perid} {ap : Sysent} {off : Nat} {h : Handler}

/-- With one handler, delivery is about the parameters of that handler. -/
theorem delivered_iff (hh : ∀ m regs, (selectCall m regs ap off).handler = some h) :
    Delivered id ap off ↔ ∀ m regs, ¬ (selectCall m regs ap off).Forged ∧
      ∀ k ∈ h.paramNumbers, OnStack regs.esp (off + k) →
        (selectCall m regs ap off).arg id m regs k = some (m.slot regs.esp (off + k)) := by
  simp [Delivered, hh]

/-- A call with the register frame delivers to a function that expects one and looks for
its parameters where they are. -/
theorem delivered_frame (hoff : off < 900)
    (hc : ∀ m regs, selectCall m regs ap off = .fast h ∨ selectCall m regs ap off = .frame h) :
    Delivered id ap off ↔
      match h.decl with
      | .frame ks => ∀ k ∈ ks, h.index id k = off + k
      | .counted n => n = 0 := by
  have hforged : ∀ m regs, ¬ (selectCall m regs ap off).Forged := by
    intro m regs
    rcases hc m regs with hs | hs <;> rw [hs] <;> exact not_false
  have hlt := paramNumbers_lt h
  rw [delivered_iff fun m regs => by rcases hc m regs with hs | hs <;> rw [hs] <;> rfl]
  unfold Handler.paramNumbers at hlt ⊢
  cases hd : h.decl with
  | frame ks =>
    have harg : ∀ m regs k, (selectCall m regs ap off).arg id m regs k =
        some (m.slot regs.esp (h.index id k)) := by
      intro m regs k
      rcases hc m regs with hs | hs <;> simp only [hs, Call.arg, hd]
    rw [hd] at hlt
    constructor
    · intro hdel k hk
      by_contra hne
      have hk8 := hlt k hk
      have hle := h.index_le id k
      -- one byte tells the two words apart
      have hk' := (hdel (spot (BitVec.ofNat 32 (4 * (off + k)))) ⟨0, 0, 0, 0⟩).2 k hk
        (onStack_zero (by omega))
      rw [harg] at hk'
      exact spot_slot_ne (by omega) (by omega) (Ne.symm hne) (Option.some.inj hk').symm
    · intro hfit m regs
      refine ⟨hforged m regs, fun k hk _ => ?_⟩
      rw [harg, hfit k hk]
  | counted n =>
    constructor
    · intro hdel
      by_contra hn
      have hk' := (hdel (fun _ => 0) ⟨0, 0, 0, 0⟩).2 0
        (mem_range.mpr (Nat.pos_of_ne_zero hn)) (onStack_zero (by omega))
      rcases hc (fun _ => 0) ⟨0, 0, 0, 0⟩ with hs | hs <;>
        · rw [hs] at hk'
          simp only [Call.arg, hd] at hk'
          exact nomatch hk'
    · rintro rfl m regs
      exact ⟨hforged m regs, nofun⟩

/-- A call with `n` words delivers to a function that expects no more. -/
theorem delivered_words {n : Nat} (hoff : off < 900)
    (hc : ∀ m regs, selectCall m regs ap off = .words h (getArgs m regs off n)) :
    Delivered id ap off ↔
      match h.decl with
      | .frame ks => ks = [] ∧ n = 0
      | .counted a => a ≤ n := by
  have hlt := paramNumbers_lt h
  rw [delivered_iff fun m regs => by rw [hc]; rfl]
  unfold Handler.paramNumbers at hlt ⊢
  simp only [hc]
  cases hd : h.decl with
  | frame ks =>
    rw [hd] at hlt
    constructor
    · intro hdel
      obtain ⟨hforged, harg⟩ := hdel (fun _ => 0) ⟨0, 0, 0, 0⟩
      refine ⟨?_, ?_⟩
      · by_contra hks
        obtain ⟨k, hk⟩ := exists_mem_of_ne_nil ks hks
        have hk8 := hlt k hk
        have hk' := harg k hk (onStack_zero (by omega))
        simp only [Call.arg, hd] at hk'
        exact nomatch hk'
      · by_contra hn
        refine hforged ⟨⟨ks, hd⟩, fun hnil => hn ?_⟩
        simpa [getArgs] using congrArg length hnil
    · rintro ⟨rfl, rfl⟩ m regs
      exact ⟨fun hf => hf.2 rfl, nofun⟩
  | counted a =>
    have harg : ∀ m regs k, (Call.words h (getArgs m regs off n)).arg id m regs k =
        (getArgs m regs off n)[k]? := by
      intro m regs k
      simp [Call.arg, hd]
    rw [hd] at hlt
    simp only [harg, getArgs_getElem?, mem_range]
    constructor
    · intro hdel
      by_contra hle
      -- the first word the table does not ask for
      have hn8 := hlt n (mem_range.mpr (Nat.not_le.mp hle))
      have hk' := (hdel (fun _ => 0) ⟨0, 0, 0, 0⟩).2 n (Nat.not_le.mp hle)
        (onStack_zero (by omega))
      rw [if_neg (Nat.lt_irrefl n)] at hk'
      exact nomatch hk'
    · intro hle m regs
      refine ⟨?_, fun k hk hon => ?_⟩
      · rintro ⟨⟨ks, hks⟩, _⟩
        exact nomatch hd.symm.trans hks
      · rw [if_pos (by omega), getUser_onStack hon]

/-- An entry that is not called delivers trivially. -/
theorem delivered_unsupported (hc : ∀ m regs, selectCall m regs ap off = .unsupported) :
    Delivered id ap off := by
  intro m regs
  rw [hc]
  exact ⟨not_false, nofun⟩

/-- Delivery through an entry is agreement of its convention with the prototype. -/
theorem delivered_iff_fits (hoff : off < 900) :
    Delivered id ap off ↔ ap.fits id off = true := by
  unfold Sysent.fits
  cases hap : ap.seSyscall with
  | none =>
    have hc : ∀ m regs, selectCall m regs ap off = .unsupported := by
      intro m regs
      simp [selectCall, hap]
    exact ⟨fun _ => rfl, fun _ => delivered_unsupported hc⟩
  | some h =>
    dsimp only
    split_ifs with hframe hcount
    · have hc : ∀ m regs,
          selectCall m regs ap off = .fast h ∨ selectCall m regs ap off = .frame h := by
        intro m regs
        simp only [selectCall, hap]
        rcases hframe with hf | hs
        · rw [if_pos hf]; exact .inl rfl
        · rw [hs]; exact .inr rfl
      rw [delivered_frame hoff hc]
      cases h.decl <;> simp
    · have hc : ∀ m regs, selectCall m regs ap off =
          .words h (getArgs m regs off ap.seNargs.toNat) := by
        intro m regs
        obtain ⟨hnf, hns⟩ := not_or.mp hframe
        simp only [selectCall, hap]
        rw [if_neg hnf, if_neg hns, if_pos hcount]
      have hzero : ap.seNargs.toNat = 0 ↔ ap.seNargs = 0 := by omega
      rw [delivered_words hoff hc]
      cases h.decl <;> simp [hzero]
    · have hc : ∀ m regs, selectCall m regs ap off = .unsupported := by
        intro m regs
        obtain ⟨hnf, hns⟩ := not_or.mp hframe
        simp only [selectCall, hap]
        rw [if_neg hnf, if_neg hns, if_neg hcount]
      exact ⟨fun _ => rfl, fun _ => delivered_unsupported hc⟩

end

/-! ## All tables -/

/-- The slots whose convention does not agree with their function. -/
def Dispatcher.misdelivered (id : Perid) : Dispatcher → List Nat
  | .lcall7 =>
    match id with
    | .scosvr3 | .xenix | .wysev386 => [22, 39]
    | .svr3 => [22, 39, 132, 133]
    | .svr4 | .iscr4 | .uw7 | .solaris => [22, 132, 133]
  | .cxenix => []
  | .wyseClassNfs => []
  | .wyseClassTcp => [18]
  | .iscSysisc => [17]
  | .svr4Shmsys => []

/-- One pass over each table. -/
theorem misfits_eq (id : Perid) (d : Dispatcher) :
    (((d.table id.domain).zipIdx.filter fun e => !e.1.fits id d.off).map fun e => e.2) =
      d.misdelivered id := by
  cases id <;> cases d <;> decide +kernel

theorem table_fits (id : Perid) (d : Dispatcher) (i : Fin (d.table id.domain).length) :
    (d.table id.domain)[i].fits id d.off = true ↔ i.val ∉ d.misdelivered id := by
  rw [← misfits_eq, mem_map]
  constructor
  · rintro hfits ⟨⟨ap, j⟩, hmem, rfl⟩
    obtain ⟨hmem, hnot⟩ := mem_filter.mp hmem
    have hap : (d.table id.domain)[i.val]? = some ap := mem_zipIdx_iff_getElem?.mp hmem
    obtain ⟨_, hget⟩ := List.getElem?_eq_some_iff.mp hap
    have hfits' : ap.fits id d.off = true := hget ▸ hfits
    simp [hfits'] at hnot
  · intro hno
    by_contra hnot
    refine hno ⟨((d.table id.domain)[i], i.val), mem_filter.mpr ⟨?_, by simpa using hnot⟩, rfl⟩
    exact mem_zipIdx_iff_getElem?.mpr (getElem?_eq_getElem i.isLt)

/-- Calls through a slot of a table deliver the caller's arguments, on every user
stack, exactly when the slot is not one of those listed. -/
theorem table_delivered_iff (id : Perid) (d : Dispatcher) (i : Fin (d.table id.domain).length) :
    Delivered id (d.table id.domain)[i] d.off ↔ i.val ∉ d.misdelivered id := by
  have hoff : d.off < 900 := by cases d <;> decide
  rw [delivered_iff_fits hoff]
  exact table_fits id d i

/-- Slot 17 of the `sysisc` table: `sigsuspend` is given the sub-call number as
its signal mask. -/
theorem sysisc_sigsuspend_not_delivered :
    ¬ Delivered .iscr4 (sysiscTable.get ⟨17, by decide⟩) (Dispatcher.iscSysisc).off := by
  rw [delivered_iff_fits (by decide)]
  decide

end AbiEmu.Lcall7
