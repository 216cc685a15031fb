import AbiEmu.Signal.Action

/-!
# A mask that is set and read back

A program sets its blocked mask, or the mask of an action, and asks for it
again. The mask goes to the kernel through `signal_map`, the kernel drops the
two signals it never blocks, and it comes back through `signal_invmap`. All three
ways to do this come to the same function of the mask, `readBack`, and a signal
`s` comes back as `returned s`, if it comes back at all.

So a mask survives exactly if every signal in it returns as itself, and the
tables can be asked which do not. OpenServer maps `SIGEMT` to the kernel's
`SIGABRT`, which returns as `SIGABRT`. The others map `SIGEMT`, `SIGBUS` and
`SIGSYS` to `SIGUNUSED`, which no entry of their inverse table leads back from.

`Linux` says what is assumed of the kernel: a mask or action that was accepted
is the one reported later, without `SIGKILL` and `SIGSTOP`.
-/

namespace AbiEmu.Signal

open Lcall7 (Personality)

/-- The signals the kernel never blocks. -/
def unblockable : Sigset := kernelBit SIGKILL ||| kernelBit SIGSTOP

/-- A signal whose action can be changed. -/
def Settable (sig : Word) : Prop :=
  1 ≤ sig.toNat ∧ sig.toNat ≤ 64 ∧ sig ≠ SIGKILL ∧ sig ≠ SIGSTOP

/-- The kernel as far as masks and actions are concerned: `blocked` is the mask of
the process and `action` the table of its actions. -/
structure Linux (K : Type) extends Kernel K where
  blocked : K → Sigset
  action : K → Word → SigAction
  setmask : ∀ set s, ∃ s', rtSigprocmask SIG_SETMASK (some set) s = (0, blocked s, s') ∧
    blocked s' = set &&& ~~~unblockable
  getmask : ∀ how s, rtSigprocmask how none s = (0, blocked s, s)
  install : ∀ sig act s, Settable sig → ∃ s', rtSigaction sig (some act) s = (0, action s sig, s') ∧
    (action s' sig).mask = act.mask &&& ~~~unblockable
  inspect : ∀ sig s, Settable sig → rtSigaction sig none s = (0, action s sig, s)

/-- The mask a program finds after it has set `v`. -/
def readBack (d : Domain) (v : Word) : Res Word := do
  let set ← mapSigvecToKernel v d.signalMap
  mapSigvecFromKernel (set &&& ~~~unblockable) d.signalInvmap

/-- The number under which signal `s` of a program comes back. -/
def returned (d : Domain) (s : Nat) : Option Nat :=
  let sig := entry d.signalMap s
  let back := entry d.signalInvmap sig.toNat
  if 1 ≤ sig.toNat ∧ sig.toNat ≤ 32 ∧ sig ≠ SIGKILL ∧ sig ≠ SIGSTOP ∧ back ≠ -1 ∧ back ≠ 0 then
    some ((back.toNat - 1) % 32 + 1)
  else none

/-! ## The trip of a mask -/

variable {d : Domain}

theorem returned_eq_some_iff {s t : Nat} : returned d s = some t ↔
    ∃ i, 1 ≤ i ∧ i ≤ 32 ∧ (entry d.signalMap s).toNat = i ∧ i ≠ 9 ∧ i ≠ 19 ∧
      entry d.signalInvmap i ≠ -1 ∧ entry d.signalInvmap i ≠ 0 ∧
        t = ((entry d.signalInvmap i).toNat - 1) % 32 + 1 := by
  have hkill : entry d.signalMap s ≠ SIGKILL ↔ (entry d.signalMap s).toNat ≠ 9 :=
    not_congr ⟨fun h => by rw [h]; rfl, fun h => BitVec.eq_of_toNat_eq h⟩
  have hstop : entry d.signalMap s ≠ SIGSTOP ↔ (entry d.signalMap s).toNat ≠ 19 :=
    not_congr ⟨fun h => by rw [h]; rfl, fun h => BitVec.eq_of_toNat_eq h⟩
  unfold returned
  dsimp only
  constructor
  · intro h
    split at h
    next hc =>
      obtain ⟨h1, h32, h9, h19, hne, hzero⟩ := hc
      exact ⟨_, h1, h32, rfl, hkill.mp h9, hstop.mp h19, hne, hzero, (Option.some.inj h).symm⟩
    · cases h
  · rintro ⟨i, h1, h32, rfl, h9, h19, hne, hzero, rfl⟩
    rw [if_pos ⟨h1, h32, hkill.mpr h9, hstop.mpr h19, hne, hzero⟩]

theorem getLsbD_unblockable {i : Nat} (hi : 1 ≤ i) :
    unblockable.getLsbD (i - 1) = true ↔ i = 9 ∨ i = 19 := by
  unfold unblockable
  rw [BitVec.getLsbD_or, Bool.or_eq_true, getLsbD_kernelBit, getLsbD_kernelBit]
  show (_ ∧ 9 = _) ∨ (_ ∧ 19 = _) ↔ _
  omega

/-- What comes back: the numbers under which the members of the mask return. -/
theorem readBack_bits (d : Domain) (v : Word) :
    ∃ r, readBack d v = .ok r ∧ ∀ j, r.getLsbD j = true ↔
      ∃ s, 1 ≤ s ∧ s ≤ 32 ∧ v.getLsbD (s - 1) = true ∧ returned d s = some (j + 1) := by
  obtain ⟨set, hset, hsetBits⟩ := mapSigvecToKernel_bits v d.signalMap
  obtain ⟨r, hr, hrBits⟩ := mapSigvecFromKernel_bits (set &&& ~~~unblockable) d.signalInvmap
  refine ⟨r, by rw [readBack, hset]; exact hr, fun j => ?_⟩
  have hmember : ∀ i, 1 ≤ i → i ≤ 32 → (sigismember (set &&& ~~~unblockable) i = true ↔
      i ≠ 9 ∧ i ≠ 19 ∧ ∃ s, 1 ≤ s ∧ s ≤ 32 ∧ v.getLsbD (s - 1) = true ∧
        (entry d.signalMap s).toNat = i) := by
    intro i h1 h32
    unfold sigismember
    rw [BitVec.getLsbD_and, Bool.and_eq_true, hsetBits, BitVec.getLsbD_not, Bool.and_eq_true,
      Bool.not_eq_true', ← Bool.not_eq_true, getLsbD_unblockable h1, decide_eq_true_eq]
    constructor
    · rintro ⟨⟨s, hs1, hs32, hv, -, -, hentry⟩, -, hun⟩
      exact ⟨by omega, by omega, s, hs1, hs32, hv, by omega⟩
    · rintro ⟨h9, h19, s, hs1, hs32, hv, hentry⟩
      refine ⟨⟨s, hs1, hs32, hv, ?_, by omega, by omega⟩, by omega, by omega⟩
      intro hne
      rw [hne] at hentry
      simp at hentry
      omega
  rw [hrBits j]
  constructor
  · rintro ⟨i, h1, h32, hmem, hne, hzero, rfl⟩
    obtain ⟨h9, h19, s, hs1, hs32, hv, hentry⟩ := (hmember i h1 h32).mp hmem
    exact ⟨s, hs1, hs32, hv,
      returned_eq_some_iff.mpr ⟨i, h1, h32, hentry, h9, h19, hne, hzero, rfl⟩⟩
  · rintro ⟨s, hs1, hs32, hv, hret⟩
    obtain ⟨i, h1, h32, hentry, h9, h19, hne, hzero, hj⟩ := returned_eq_some_iff.mp hret
    exact ⟨i, h1, h32, (hmember i h1 h32).mpr ⟨h9, h19, s, hs1, hs32, hv, hentry⟩, hne, hzero,
      by omega⟩

/-! ## The calls -/

variable {K : Type}

/-- A call that sets the mask `v` and a later one that asks for it. -/
structure MaskCalls (p : Pages) (m : Mem) (v : Word) where
  how : Word
  set : Word
  /-- Where the first call reports, if anywhere. -/
  oset : Word
  how' : Word
  oset' : Word
  setmask : how = 0 ∨ how = 3
  set_ne : set ≠ 0
  set_readable : p.canRead set 4 = true
  word_set : m.word set = v
  how'_nonneg : 0 ≤ how'.toInt
  how'_le : how'.toInt ≤ 3
  oset'_ne : oset' ≠ 0
  oset'_writable : p.canWrite oset' 4 = true

/-- The mask the second call reports. -/
def MaskCalls.answer {p : Pages} {m : Mem} {v : Word} (c : MaskCalls p m v) (k : Linux K)
    (d : Domain) (kernel : K) : Res (Option Word) := do
  let (error, s) ← abiSigprocmask k.toKernel d p c.how c.set c.oset ⟨kernel, m⟩
  let (error', s) ← abiSigprocmask k.toKernel d p c.how' 0 c.oset' s
  pure (if error = 0 ∧ error' = 0 then some (s.mem.word c.oset') else none)

/-- A call that installs an action with the mask `v` for a signal and a later one
that asks for it. -/
structure ActionCalls (d : Domain) (p : Pages) (m : Mem) (v : Word) (l : Layout) where
  signum : Word
  action : Word
  oldaction : Word
  oldaction' : Word
  locals : Locals
  locals' : Locals
  signum_lt : signum.toNat < 32
  signum_settable : Settable (entry d.signalMap signum.toNat)
  action_ne : action ≠ 0
  action_readable : p.canRead action l.size = true
  mask_eq : m.slot action (l.index .mask) = v
  /-- The first call reports nowhere or where it may. -/
  oldaction_ok : oldaction = 0 ∨ p.canWrite oldaction l.size = true
  oldaction'_ne : oldaction' ≠ 0
  oldaction'_writable : p.canWrite oldaction' l.size = true

/-- The mask the second call reports, for `abi_sigaction` or `xnx_sigaction`. -/
def ActionCalls.answer {d : Domain} {p : Pages} {m : Mem} {v : Word} {l : Layout}
    (c : ActionCalls d p m v l)
    (sigaction : Locals → Word → Word → Word → Proc K → Res (Int × Proc K)) (kernel : K) :
    Res (Option Word) := do
  let (error, s) ← sigaction c.locals c.signum c.action c.oldaction ⟨kernel, m⟩
  let (error', s) ← sigaction c.locals' c.signum 0 c.oldaction' s
  pure (if error = 0 ∧ error' = 0 then some (s.mem.slot c.oldaction' (l.index .mask)) else none)

/-- A call of `abi_sigprocmask` that the kernel grants. -/
theorem abiSigprocmask_ok {k : Kernel K} {p : Pages} {how abinset : Word} (abioset : Word)
    (s : Proc K) {nset : Option Sigset} {kernelHow : Int} {old : Sigset} {kernel : K} {r : Word}
    (hset : newSet d p abinset s.mem = .ok nset) (hhow : readAt howcnv how.toInt = .ok kernelHow)
    (hk : k.rtSigprocmask kernelHow nset s.kernel = (0, old, kernel))
    (hr : mapSigvecFromKernel old d.signalInvmap = .ok r) :
    abiSigprocmask k d p how abinset abioset s =
      .ok (0, ⟨kernel, if abioset ≠ 0 then p.putUser abioset r s.mem else s.mem⟩) := by
  simp only [abiSigprocmask, hset, hhow, hk, hr, bind, Except.bind, pure, Except.pure, true_and]
  split <;> rfl

/-- Both calls of `abi_sigprocmask` succeed, and the second one reports what has
come back of the mask. -/
theorem MaskCalls.answer_eq {p : Pages} {m : Mem} {v : Word} (c : MaskCalls p m v) (k : Linux K)
    (d : Domain) (kernel : K) : c.answer k d kernel = (readBack d v).map some := by
  obtain ⟨set, hset, -⟩ := mapSigvecToKernel_bits v d.signalMap
  obtain ⟨kernel', hk, hblocked⟩ := k.setmask set kernel
  obtain ⟨old, hold, -⟩ := mapSigvecFromKernel_bits (k.blocked kernel) d.signalInvmap
  obtain ⟨r, hr, -⟩ := mapSigvecFromKernel_bits (k.blocked kernel') d.signalInvmap
  have hback : readBack d v = .ok r := by
    rw [readBack, hset, ← hr, hblocked]
    rfl
  have hnew : newSet d p c.set m = .ok (some set) := by
    rw [newSet, if_neg c.set_ne, Pages.getUser, if_pos c.set_readable, c.word_set, hset]
    rfl
  have hhow : readAt howcnv c.how.toInt = .ok SIG_SETMASK := by
    rcases c.setmask with h | h <;> rw [h] <;> rfl
  obtain ⟨how', hhow'⟩ : ∃ h, readAt howcnv c.how'.toInt = .ok h := by
    refine ((inRange_readAt howcnv _).mpr ⟨c.how'_nonneg, ?_⟩).exists_ok
    have := c.how'_le
    omega
  have hfirst := abiSigprocmask_ok c.oset ⟨kernel, m⟩ hnew hhow hk hold
  have hsecond := fun m' => abiSigprocmask_ok c.oset' ⟨kernel', m'⟩
    (show newSet d p 0 m' = .ok none from rfl) hhow' (k.getmask how' kernel') hr
  simp only [MaskCalls.answer, hfirst, hsecond, hback, bind, Except.bind, pure, Except.pure,
    Except.map, and_self, if_true, if_pos c.oset'_ne]
  rw [Pages.putUser, if_pos c.oset'_writable, Mem.word_store_bytes]

/-! ### Actions -/

section

variable (k : Linux K) {d : Domain} {p : Pages} {l : Layout} (flags : Word)
  (resv : Fin 2 → Word) {signo action oldaction : Word}

theorem length_words (l : Layout) (handler mask flags : Word) (resv : Fin 2 → Word) :
    (l.words handler mask flags resv).length = l.fields.length :=
  List.length_map ..

theorem words_mask (hl : Field.mask ∈ l.fields) (handler mask flags : Word)
    (resv : Fin 2 → Word) : (l.words handler mask flags resv)[l.index .mask]? = some mask := by
  rw [Layout.words, List.getElem?_map, Layout.index, List.getElem?_idxOf hl]
  rfl

/-- The action at `action`, with the flags or-ed into `flags`. -/
theorem newAction_some (hne : action ≠ 0) (m : Mem) :
    ∃ set, mapSigvecToKernel (m.slot action (l.index .mask)) d.signalMap = .ok set ∧
      newAction d l flags action m = .ok (some ⟨m.slot action (l.index .handler), 0,
        passFlags l.flagPairs (m.slot action (l.index .flags)) flags, set⟩) := by
  obtain ⟨set, hset, -⟩ := mapSigvecToKernel_bits (m.slot action (l.index .mask)) d.signalMap
  refine ⟨set, hset, ?_⟩
  rw [newAction, if_neg hne, hset]
  rfl

/-- A report that the program's memory takes: the words of the structure are there. -/
theorem reportAction_ok (osa : SigAction) (hsize : l.size ≤ 2 ^ 32)
    (hw : p.canWrite oldaction l.size = true) (s : Proc K) :
    ∃ r m', mapSigvecFromKernel osa.mask d.signalInvmap = .ok r ∧
      reportAction d p l resv oldaction osa s = .ok (0, ⟨s.kernel, m'⟩) ∧
      ∀ {i w}, (l.words osa.handler r (passFlags (l.flagPairs.map Prod.swap) osa.flags 0)
        resv)[i]? = some w → m'.slot oldaction i = w := by
  obtain ⟨r, hr, -⟩ := mapSigvecFromKernel_bits osa.mask d.signalInvmap
  unfold Layout.size at hsize hw
  simp only [reportAction, hr, bind, Except.bind]
  rw [Pages.copyToUser, length_words, if_pos hw]
  refine ⟨r, _, rfl, rfl, fun {i w} hi => Mem.slot_store_words s.mem oldaction ?_ hi⟩
  have hlt := (List.getElem?_eq_some_iff.mp hi).1
  rw [length_words] at hlt
  omega

/-- An action that is installed. -/
theorem changeAction_install {set : Sigset} {m : Mem} (kernel : K) (hsize : l.size ≤ 2 ^ 32)
    (hsig : Settable signo) (hne : action ≠ 0) (hread : p.canRead action l.size = true)
    (hold : oldaction = 0 ∨ p.canWrite oldaction l.size = true)
    (hset : mapSigvecToKernel (m.slot action (l.index .mask)) d.signalMap = .ok set) :
    ∃ s', changeAction k.toKernel d p l flags resv signo action oldaction ⟨kernel, m⟩ =
        .ok (0, s') ∧
      s'.kernel = (k.rtSigaction signo (some ⟨m.slot action (l.index .handler), 0,
        passFlags l.flagPairs (m.slot action (l.index .flags)) flags, set⟩) kernel).2.2 := by
  obtain ⟨set', hset', hnew⟩ := newAction_some flags hne m
  obtain rfl := Except.ok.inj (hset.symm.trans hset')
  generalize SigAction.mk _ _ _ set = act at hnew ⊢
  obtain ⟨kernel', hk, -⟩ := k.install signo act kernel hsig
  unfold changeAction
  rw [if_neg ?_, if_neg fun h => Bool.false_ne_true (h.2.symm.trans hread)]
  · simp only [hnew, hk, bind, Except.bind]
    by_cases hzero : oldaction = 0
    · rw [if_pos (.inr hzero)]
      exact ⟨_, rfl, rfl⟩
    · rw [if_neg fun h => h.elim (fun h => h rfl) hzero]
      obtain ⟨r, m', -, hm', -⟩ := reportAction_ok resv (k.action kernel signo) hsize
        (hold.resolve_left hzero) ⟨kernel', m⟩
      exact ⟨_, hm', rfl⟩
  · rintro ⟨hne', hverify⟩
    have := Pages.verifyWrite_of_canWrite (hold.resolve_left hne')
    rw [this] at hverify
    cases hverify

/-- An action that is asked for. -/
theorem changeAction_inspect (s : Proc K) (hsize : l.size ≤ 2 ^ 32) (hsig : Settable signo)
    (hne : oldaction ≠ 0) (hwrite : p.canWrite oldaction l.size = true) :
    ∃ r s', mapSigvecFromKernel (k.action s.kernel signo).mask d.signalInvmap = .ok r ∧
      changeAction k.toKernel d p l flags resv signo 0 oldaction s = .ok (0, s') ∧
      ∀ {i w}, (l.words (k.action s.kernel signo).handler r (passFlags (l.flagPairs.map Prod.swap)
        (k.action s.kernel signo).flags 0) resv)[i]? = some w → s'.mem.slot oldaction i = w := by
  obtain ⟨r, m', hr, hm', hwords⟩ := reportAction_ok resv (k.action s.kernel signo) hsize hwrite s
  refine ⟨r, ⟨s.kernel, m'⟩, hr, ?_, hwords⟩
  unfold changeAction
  rw [if_neg ?_, if_neg fun h => h.1 rfl]
  · simp only [newAction, if_true, k.inspect signo s.kernel hsig, bind, Except.bind, pure,
      Except.pure]
    rw [if_neg fun h => h.elim (fun h => h rfl) hne]
    exact hm'
  · rintro ⟨-, hverify⟩
    rw [Pages.verifyWrite_of_canWrite hwrite] at hverify
    cases hverify

end

/-- Both calls succeed, and the second one reports what has come back of the mask,
if the call looks the signal up in the table and then exchanges the actions. -/
theorem ActionCalls.answer_eq {p : Pages} {m : Mem} {v : Word} {l : Layout}
    (c : ActionCalls d p m v l) (k : Linux K) (kernel : K) (hl : Field.mask ∈ l.fields)
    (hsize : l.size ≤ 2 ^ 32)
    {sigaction : Locals → Word → Word → Word → Proc K → Res (Int × Proc K)}
    (hcall : ∀ locals action oldaction s, ∃ flags,
      sigaction locals c.signum action oldaction s =
        changeAction k.toKernel d p l flags locals.resv (entry d.signalMap c.signum.toNat) action
          oldaction s) :
    c.answer sigaction kernel = (readBack d v).map some := by
  obtain ⟨set, hset, -⟩ := mapSigvecToKernel_bits v d.signalMap
  rw [← c.mask_eq] at hset
  obtain ⟨flags, hfirst⟩ := hcall c.locals c.action c.oldaction ⟨kernel, m⟩
  obtain ⟨s', hinstall, hkernel⟩ := changeAction_install k flags c.locals.resv kernel hsize
    c.signum_settable c.action_ne c.action_readable c.oldaction_ok hset
  obtain ⟨kernel', hk, hmask⟩ := k.install (entry d.signalMap c.signum.toNat) _ kernel
    c.signum_settable
  rw [hk] at hkernel
  obtain ⟨flags', hsecond⟩ := hcall c.locals' 0 c.oldaction' s'
  obtain ⟨r, s'', hr, hinspect, hwords⟩ := changeAction_inspect k flags' c.locals'.resv s'
    hsize c.signum_settable c.oldaction'_ne c.oldaction'_writable
  have hslot := hwords (words_mask hl ..)
  have hback : readBack d v = .ok r := by
    rw [readBack, ← c.mask_eq, hset, ← hr, hkernel, hmask]
    rfl
  simp only [ActionCalls.answer, hfirst, hinstall, hsecond, hinspect, hslot, hback, bind,
    Except.bind, pure, Except.pure, Except.map, and_self, if_true]

/-! ## What the tables lose -/

/-- A signal of the program that the domain accepts and the kernel blocks. -/
def Blockable (d : Domain) (s : Nat) : Prop :=
  entry d.signalMap s ≠ -1 ∧ entry d.signalMap s ≠ 0 ∧ entry d.signalMap s ≠ SIGKILL ∧
    entry d.signalMap s ≠ SIGSTOP
  deriving Decidable

/-- A mask of such signals. -/
def Maskable (d : Domain) (v : Word) : Prop :=
  ∀ s < 33, 1 ≤ s → v.getLsbD (s - 1) = true → Blockable d s

instance (d : Domain) (v : Word) : Decidable (Maskable d v) :=
  inferInstanceAs (Decidable (∀ s < 33, _))

/-- The signals that do not return as themselves: `SIGEMT`, and outside
OpenServer `SIGBUS` and `SIGSYS` as well. -/
def lost : Personality → List Nat
  | .sco => [7]
  | .xenix | .ibcs | .isc | .uw7 | .solaris | .wyse => [7, 10, 12]

theorem returned_self (dom : Personality) : ∀ s < 33, 1 ≤ s → Blockable (domain dom) s →
    s ∉ lost dom → returned (domain dom) s = some s := by
  cases dom <;> decide +kernel

theorem returned_ne_lost (dom : Personality) : ∀ s ∈ lost dom, ∀ t < 33,
    returned (domain dom) t ≠ some s := by
  cases dom <;> decide +kernel

/-- A mask comes back unchanged exactly if none of the lost signals is in it. -/
theorem readBack_self_iff {dom : Personality} {v : Word} (hv : Maskable (domain dom) v) :
    readBack (domain dom) v = .ok v ↔ ∀ s ∈ lost dom, v.getLsbD (s - 1) = false := by
  obtain ⟨r, hr, hbits⟩ := readBack_bits (domain dom) v
  have hlost : ∀ s ∈ lost dom, 1 ≤ s := by cases dom <;> decide
  rw [hr]
  constructor
  · intro h s hs
    obtain rfl := Except.ok.inj h
    rw [← Bool.not_eq_true, hbits]
    rintro ⟨t, -, ht32, -, hret⟩
    rw [Nat.sub_add_cancel (hlost s hs)] at hret
    exact returned_ne_lost dom s hs t (by omega) hret
  · intro h
    have hself : ∀ s, 1 ≤ s → s ≤ 32 → v.getLsbD (s - 1) = true →
        returned (domain dom) s = some s := by
      intro s hs1 hs32 hmem
      refine returned_self dom s (by omega) hs1 (hv s (by omega) hs1 hmem) fun hs => ?_
      rw [h s hs] at hmem
      cases hmem
    congr 1
    apply BitVec.eq_of_getLsbD_eq
    intro j hj
    rw [Bool.eq_iff_iff, hbits j]
    constructor
    · rintro ⟨s, hs1, hs32, hmem, hret⟩
      rw [hself s hs1 hs32 hmem] at hret
      rw [← show s - 1 = j by have := Option.some.inj hret; omega]
      exact hmem
    · intro hmem
      exact ⟨j + 1, by omega, by omega, hmem, hself (j + 1) (by omega) (by omega) hmem⟩

/-! ## The calls look the signal up -/

section

variable {d : Domain} {p : Pages} {m : Mem} {v : Word} {l : Layout}

section

variable (c : ActionCalls d p m v l)

include c

theorem ActionCalls.readAt_signum :
    readAt d.signalMap c.signum.toInt = .ok (entry d.signalMap c.signum.toNat) := by
  have h := c.signum_lt
  rw [BitVec.toInt_eq_toNat_of_lt (by omega)]
  exact readAt_entry d.signalMap (by omega)

theorem ActionCalls.abiMapsig_eq :
    abiMapsig d c.signum = .ok (entry d.signalMap c.signum.toNat) ∧
      entry d.signalMap c.signum.toNat ≠ -1 := by
  refine ⟨?_, fun h => ?_⟩
  · rw [abiMapsig, nsignals, if_neg (Nat.not_le.mpr c.signum_lt), c.readAt_signum]
  · have := c.signum_settable.2.1
    rw [h] at this
    exact nomatch this

section

variable (k : Kernel K) (locals : Locals) (action oldaction : Word) (s : Proc K)

include k locals action oldaction s

theorem ActionCalls.abi_looks_up :
    abiSigaction k d p locals c.signum action oldaction s =
      changeAction k d p abiLayout locals.flags locals.resv (entry d.signalMap c.signum.toNat)
        action oldaction s := by
  obtain ⟨hmap, hsig⟩ := c.abiMapsig_eq
  simp only [abiSigaction, hmap, bind, Except.bind, if_neg hsig]

theorem ActionCalls.xnx_looks_up :
    xnxSigaction k d p locals c.signum action oldaction s =
      changeAction k d p scoLayout 0 locals.resv (entry d.signalMap c.signum.toNat)
        action oldaction s := by
  have h := c.signum_lt
  have hlt : ¬ ((nsignals : Int) ≤ c.signum.toInt) := by
    rw [BitVec.toInt_eq_toNat_of_lt (by omega), nsignals]
    omega
  simp [xnxSigaction, if_neg hlt, c.readAt_signum, bind, Except.bind]

end

end

end

/-- A mask that is set with any of the three calls is read back as it was set
exactly if no lost signal is in it. -/
theorem masks_survive_iff (k : Linux K) (dom : Personality) {p : Pages} {m : Mem} (kernel : K)
    {v : Word} (hv : Maskable (domain dom) v) (c : MaskCalls p m v)
    (a : ActionCalls (domain dom) p m v abiLayout) (x : ActionCalls (domain dom) p m v scoLayout) :
    (c.answer k (domain dom) kernel = .ok (some v) ∧
      a.answer (abiSigaction k.toKernel (domain dom) p) kernel = .ok (some v) ∧
      x.answer (xnxSigaction k.toKernel (domain dom) p) kernel = .ok (some v)) ↔
    ∀ s ∈ lost dom, v.getLsbD (s - 1) = false := by
  have ha := a.answer_eq k kernel (by decide) (by decide)
    fun locals action oldaction s => ⟨_, a.abi_looks_up k.toKernel locals action oldaction s⟩
  have hx := x.answer_eq k kernel (by decide) (by decide)
    fun locals action oldaction s => ⟨_, x.xnx_looks_up k.toKernel locals action oldaction s⟩
  rw [c.answer_eq, ha, hx, and_self, and_self, ← readBack_self_iff hv]
  obtain ⟨r, hr, -⟩ := readBack_bits (domain dom) v
  rw [hr]
  show Except.ok (some r) = Except.ok (some v) ↔ _
  rw [Except.ok.injEq, Except.ok.injEq, Option.some.injEq]

/-- The smallest such kernel: a mask and a table of actions. -/
def plainLinux : Linux (Sigset × (Word → SigAction)) where
  rtSigaction sig act s :=
    (0, s.2 sig, match act with
      | none => s
      | some act =>
        (s.1, fun x => if x = sig then { act with mask := act.mask &&& ~~~unblockable } else s.2 x))
  rtSigprocmask how set s :=
    (0, s.1, match set with
      | none => s
      | some set =>
        let set := set &&& ~~~unblockable
        (if how = SIG_BLOCK then s.1 ||| set
          else if how = SIG_UNBLOCK then s.1 &&& ~~~set
          else set, s.2))
  kill _ _ s := (0, s)
  blocked s := s.1
  action s sig := s.2 sig
  setmask _ _ := ⟨_, rfl, rfl⟩
  getmask _ _ := rfl
  install sig act s _ := ⟨_, rfl, by simp⟩
  inspect _ _ _ := rfl

/-- Memory with the word `v` at `0x1000`. -/
def holding (v : Word) : Mem := Mem.store (fun _ => 0) 0x1000 v.bytes

/-- `sigprocmask(SIG_SETMASK, 0x1000, NULL)`, then a look at `0x2000`. -/
def maskAt (v : Word) : MaskCalls Pages.everywhere (holding v) v where
  how := 3
  set := 0x1000
  oset := 0
  how' := 0
  oset' := 0x2000
  setmask := .inr rfl
  set_ne := by decide
  set_readable := rfl
  word_set := Mem.word_store_bytes _ _ v
  how'_nonneg := by decide
  how'_le := by decide
  oset'_ne := by decide
  oset'_writable := rfl

/-- An action for `SIGUSR1` whose mask is at `0x1000`, then a look at `0x2000`. -/
def actionAt (v : Word) (l : Layout) (action : Word) (hne : action ≠ 0)
    (hmask : action + BitVec.ofNat 32 (4 * l.index .mask) = 0x1000) :
    ActionCalls (domain .sco) Pages.everywhere (holding v) v l where
  signum := IBCS_SIGUSR1
  action := action
  oldaction := 0
  oldaction' := 0x2000
  locals := ⟨0, fun _ => 0⟩
  locals' := ⟨0, fun _ => 0⟩
  signum_lt := by decide
  signum_settable := by unfold Settable; decide
  action_ne := hne
  action_readable := by simp [Pages.canRead, Pages.everywhere]
  mask_eq := by
    rw [Mem.slot, hmask]
    exact Mem.word_store_bytes _ _ v
  oldaction_ok := .inl rfl
  oldaction'_ne := by decide
  oldaction'_writable := by simp [Pages.canWrite, Pages.everywhere]

/-- A mask of `SIGUSR1` alone survives. -/
theorem usr1_mask_survives :
    (maskAt 0x8000).answer plainLinux (domain .sco) (0, fun _ => ⟨0, 0, 0, 0⟩) =
      .ok (some 0x8000) :=
  ((masks_survive_iff plainLinux .sco (0, fun _ => ⟨0, 0, 0, 0⟩) (by decide) (maskAt 0x8000)
    (actionAt 0x8000 abiLayout 0xff8 (by decide) (by decide))
    (actionAt 0x8000 scoLayout 0xffc (by decide) (by decide))).mpr (by decide)).1

/-- A mask of `SIGEMT` alone is read back as one of `SIGABRT`. -/
theorem emt_mask_changes : Maskable (domain .sco) 0x40 ∧
    (maskAt 0x40).answer plainLinux (domain .sco) (0, fun _ => ⟨0, 0, 0, 0⟩) =
      .ok (some 0x20) := by
  refine ⟨by decide, ?_⟩
  rfl

end AbiEmu.Signal
