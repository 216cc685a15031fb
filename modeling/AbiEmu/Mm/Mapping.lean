import AbiEmu.Lib.Bits
import AbiEmu.Binfmt.Task

/-!
# The break and mappings (`abi/svr4/misc.c`, `mmap.c` of `svr4` and `uw7`, `solaris/lfs.c`)

`abi_brk` asks the kernel for a break only where the page-aligned break changes, so a
break within the page of the old one is accepted and forgotten. The last page of the
address space aligns to zero, and a break there is taken for one that covers nothing.

`uw7_mmap64` and `sol_mmap64` take an offset in two halves, and refuse the aligned ones
for the others. All three take anonymous memory to be asked for by another flag than
the program's, or give the kernel `MAP_ANONYMOUS` for the files.
-/

namespace AbiEmu.Mm

open AbiEmu.Binfmt BitVec

/-! ## `abi_brk` -/

/-- `sys_brk`, which sets the break to `brk` or leaves it, and returns what it is then. -/
def sysBrk (grants : Word → Word → Bool) (brk cur : Word) : Word :=
  if grants cur brk then brk else cur

/-- `abi_brk` with its result and the break it leaves. -/
def abiBrk (grants : Word → Word → Bool) (brk cur : Word) : Word × Word :=
  if brk = 0 then (cur, cur)
  else if pageAlign brk ≠ pageAlign cur then
    let sysbrk := sysBrk grants brk cur
    if pageAlign sysbrk ≠ pageAlign brk then (BitVec.ofInt 32 (-ENOMEM), sysbrk) else (0, sysbrk)
  else (0, cur)

/-- A break that was set is the one reported, and covered; one that was not set has not
moved the old one. -/
structure Remembers (grants : Word → Word → Bool) (brk cur : Word) : Prop where
  reported : (abiBrk grants brk cur).1 = 0 → (abiBrk grants 0 (abiBrk grants brk cur).2).1 = brk
  unmoved : (abiBrk grants brk cur).1 = BitVec.ofInt 32 (-ENOMEM) → (abiBrk grants brk cur).2 = cur
  covered : (abiBrk grants brk cur).1 = 0 → brk ≤ pageAlign (abiBrk grants brk cur).2

theorem le_pageAlign_iff {brk : Word} (h : brk ≠ 0) : brk ≤ pageAlign brk ↔ brk ≤ 0xfffff000 := by
  have hpos : brk.toNat ≠ 0 := fun h0 => h (eq_of_toNat_eq h0)
  rw [le_def, le_def, pageAlign_toNat]
  show _ ↔ brk.toNat ≤ 0xfffff000
  unfold Span.pageDown
  omega

variable {grants : Word → Word → Bool} {brk cur : Word}

/-- The promise for a call that returns `r` and leaves the break `left`. -/
theorem remembers_of {r left : Word} (h : abiBrk grants brk cur = (r, left)) :
    Remembers grants brk cur ↔
      (r = 0 → left = brk ∧ brk ≤ pageAlign left) ∧
        (r = BitVec.ofInt 32 (-ENOMEM) → left = cur) := by
  have hreport : abiBrk grants 0 left = (left, left) := if_pos rfl
  constructor
  · rintro ⟨hrep, hun, hcov⟩
    rw [h] at hrep hun hcov
    exact ⟨fun h0 => ⟨hrep h0, hcov h0⟩, hun⟩
  · rintro ⟨hok, hun⟩
    refine ⟨?_, ?_, ?_⟩ <;> rw [h]
    · rw [hreport]
      exact fun h0 => (hok h0).1
    · exact hun
    · exact fun h0 => (hok h0).2

section Break

variable (hbrk : brk ≠ 0)

include hbrk

theorem abiBrk_within (h : pageAlign brk = pageAlign cur) : abiBrk grants brk cur = (0, cur) := by
  rw [abiBrk, if_neg hbrk, if_neg (not_not.mpr h)]

theorem abiBrk_granted (h : pageAlign brk ≠ pageAlign cur) (hg : grants cur brk = true) :
    abiBrk grants brk cur = (0, brk) := by
  have hsys : sysBrk grants brk cur = brk := if_pos hg
  rw [abiBrk, if_neg hbrk, if_pos h, hsys, if_neg (not_not.mpr rfl)]

theorem abiBrk_refused (h : pageAlign brk ≠ pageAlign cur) (hg : ¬ grants cur brk = true) :
    abiBrk grants brk cur = (BitVec.ofInt 32 (-ENOMEM), cur) := by
  have hsys : sysBrk grants brk cur = cur := if_neg hg
  rw [abiBrk, if_neg hbrk, if_pos h, hsys, if_pos h.symm]

/-- Within the page of the old break only the old break itself is remembered, and what the
kernel grants in the last page is not covered. -/
theorem remembers_iff : Remembers grants brk cur ↔
    (pageAlign brk = pageAlign cur → brk = cur ∧ brk ≤ 0xfffff000) ∧
      (pageAlign brk ≠ pageAlign cur → grants cur brk = true → brk ≤ 0xfffff000) := by
  have herr : BitVec.ofInt 32 (-ENOMEM) ≠ 0#32 := by decide
  by_cases hpage : pageAlign brk = pageAlign cur
  · rw [remembers_of (abiBrk_within hbrk hpage), ← hpage, le_pageAlign_iff hbrk]
    exact ⟨fun h => ⟨fun _ => ⟨(h.1 rfl).1.symm, (h.1 rfl).2⟩, fun hne => absurd rfl hne⟩,
      fun h => ⟨fun _ => ⟨(h.1 rfl).1.symm, (h.1 rfl).2⟩, fun _ => rfl⟩⟩
  · by_cases hg : grants cur brk = true
    · rw [remembers_of (abiBrk_granted hbrk hpage hg), le_pageAlign_iff hbrk]
      simp [hpage, hg, herr.symm]
    · rw [remembers_of (abiBrk_refused hbrk hpage hg)]
      simp [hpage, hg, herr]

end Break

/-- A break in the next page. -/
theorem remembers_next_page : (0x08051000 : Word) ≠ 0 ∧
    Remembers (fun _ _ => true) 0x08051000 0x0804f800 :=
  ⟨by decide, (remembers_iff (by decide)).mpr ⟨by decide, by decide⟩⟩

/-- A break of 0x0804f900 is accepted within the page of 0x0804f800, which is reported
afterwards. -/
theorem break_forgotten :
    abiBrk (fun _ _ => true) 0x0804f900 0x0804f800 = (0, 0x0804f800) ∧
      (abiBrk (fun _ _ => true) 0 0x0804f800).1 = 0x0804f800 := by
  decide

/-! ## `mmap` -/

/-- Linux's `MAP_ANONYMOUS`, and the flag that is `SVR4_MAP_ANONYMOUS`, `UW7_MAP_ANONYMOUS`
and Solaris's `MAP_ANON`. -/
def MAP_ANONYMOUS : Word := 0x20
def ABI_MAP_ANONYMOUS : Word := 0x100

def EBADF : Int := 9
def EBADFD : Int := 77

/-- `MAP_EXECUTABLE | MAP_DENYWRITE`. -/
def MAP_EXEC_DENY : Word := 0x1800

/-- The arguments of `do_mmap_pgoff` and `do_mmap` but the last one. -/
structure Mapping (φ : Type) where
  file : Option φ
  addr : Word
  len : Word
  prot : Word
  flags : Word

/-- The arguments of the calls but the offset. -/
structure MmapArgs where
  addr : Word
  len : Word
  prot : Word
  flags : Word
  fd : Word

/-- `off | ((loff_t)off_hi << 32)`. -/
def off64 (off offHi : Word) : BitVec 64 := off.setWidth 64 ||| offHi.setWidth 64 <<< 32

/-- The two tests of the offset. -/
def refusesOffset (off : BitVec 64) (len : Word) : Prop :=
  (off + (pageAlign len).setWidth 64).slt off = true ∨ off &&& 0xfff = 0
  deriving Decidable

/-- `off64 >> PAGE_SHIFT` in an unsigned long. -/
def pgoff (off : BitVec 64) : Word := (off.sshiftRight 12).setWidth 32

variable {φ : Type}

/-- The common end of the two long calls: a file is looked up unless `flags` have
`MAP_ANONYMOUS`, and `do_mmap_pgoff` is called with the flags `given`. -/
def mmapPgoff (fget : Word → Option φ) (a : MmapArgs) (flags given page : Word) :
    Except Int (Mapping φ × Word) :=
  if flags &&& MAP_ANONYMOUS = 0 then
    match fget a.fd with
    | none => .error (-EBADF)
    | some file => .ok (⟨some file, a.addr, a.len, a.prot, given⟩, page)
  else .ok (⟨none, a.addr, a.len, a.prot, given⟩, page)

/-- `uw7_mmap64`: the call of `do_mmap_pgoff` or the error. -/
def uw7Mmap64 (fget : Word → Option φ) (a : MmapArgs) (off offHi : Word) :
    Except Int (Mapping φ × Word) :=
  if refusesOffset (off64 off offHi) a.len then .error (-EINVAL)
  else
    let flags := if a.flags &&& ABI_MAP_ANONYMOUS ≠ 0 then
      (a.flags ||| MAP_ANONYMOUS) &&& ~~~ABI_MAP_ANONYMOUS else a.flags
    let flags := flags &&& ~~~MAP_EXEC_DENY
    mmapPgoff fget a flags flags (pgoff (off64 off offHi))

/-- `sol_mmap64`. -/
def solMmap64 (fget : Word → Option φ) (a : MmapArgs) (offHi off : Word) :
    Except Int (Mapping φ × Word) :=
  if refusesOffset (off64 off offHi) a.len then .error (-EINVAL)
  else
    let flags := a.flags &&& ~~~MAP_EXEC_DENY
    let fixed := if flags &&& 0x80000000 = 0 ∧ a.addr ≠ 0 then flags ||| 0x10
      else flags &&& 0x7fffffff
    mmapPgoff fget a flags fixed (pgoff (off64 off offHi))

/-- `svr4_mmap`, which calls `do_mmap` with the offset in bytes. -/
def svr4Mmap (fget : Word → Option φ) (a : MmapArgs) (off : Word) : Except Int (Mapping φ × Word) :=
  let flags := a.flags &&& ~~~0x80000020
  if flags &&& ABI_MAP_ANONYMOUS = 0 then
    match fget a.fd with
    | none => .error (-EBADFD)
    | some file => .ok (⟨some file, a.addr, a.len, a.prot,
        flags &&& ~~~ABI_MAP_ANONYMOUS ||| MAP_ANONYMOUS⟩, off)
  else .ok (⟨none, a.addr, a.len, a.prot, flags⟩, off)

/-- The request ends beyond the last offset. -/
def Overflows (off : BitVec 64) (len : Word) : Prop := 2 ^ 63 ≤ off.toInt + Span.pageUp len.toNat

/-- A request with a bad offset is refused for it, any other comes to the kernel with its
page offset, unless its file is not open. -/
def OffsetRight (off : BitVec 64) (len : Word) (r : Except Int (Mapping φ × Word)) : Prop :=
  (¬ (4096 : Int) ∣ off.toInt ∨ Overflows off len → r = .error (-EINVAL)) ∧
  ((4096 : Int) ∣ off.toInt ∧ ¬ Overflows off len →
    r = .error (-EBADF) ∨ ∃ m page, r = .ok (m, page) ∧ off.toInt = 4096 * page.toNat)

/-- A call maps a file and not anonymous memory, or the other way round, as `flags` ask. -/
def FlagsRight (flags : Word) (r : Except Int (Mapping φ × Word)) : Prop :=
  ∀ m page, r = .ok (m, page) →
    (m.file.isSome ↔ flags &&& ABI_MAP_ANONYMOUS = 0) ∧
      (m.flags &&& MAP_ANONYMOUS ≠ 0 ↔ flags &&& ABI_MAP_ANONYMOUS ≠ 0)

/-! ### Offsets -/

variable (off : BitVec 64)

theorem toInt_dvd_iff : (4096 : Int) ∣ off.toInt ↔ off &&& 0xfff = 0 := by
  have hmod : (off &&& 0xfff).toNat = off.toNat % 4096 :=
    Nat.and_two_pow_sub_one_eq_mod off.toNat 12
  rw [← toNat_inj, hmod, toInt_eq_toNat_cond]
  show _ ↔ _ = 0
  split <;> omega

/-- The sum is compared with its sign, so it wraps where the request overflows. -/
theorem sum_slt_iff (len : Word) :
    (off + (pageAlign len).setWidth 64).slt off = true ↔
      2 ^ 63 ≤ off.toInt + (pageAlign len).toNat := by
  have hval : ((pageAlign len).setWidth 64).toInt = (pageAlign len).toNat := by
    rw [toInt_eq_toNat_of_lt, toNat_setWidth]
    · omega
    · rw [toNat_setWidth]
      omega
  rw [slt_iff_toInt_lt, toInt_add, hval, Int.bmod_def]
  omega

theorem wraps_iff (len : Word) :
    (off + (pageAlign len).setWidth 64).slt off = true ↔ Overflows off len ∧ len ≤ 0xfffff000 := by
  have hhi := toInt_lt (x := off)
  rw [sum_slt_iff, pageAlign_toNat, Overflows, le_def]
  show _ ↔ _ ∧ len.toNat ≤ 0xfffff000
  unfold Span.pageDown Span.pageUp
  omega

/-! ### Flags -/

section Requests

variable {fget : Word → Option φ} {a : MmapArgs} {flags given page : Word}

theorem mmapPgoff_ne : mmapPgoff fget a flags given page ≠ .error (-EINVAL) := by
  unfold mmapPgoff
  split
  · split
    · exact fun h => absurd (Except.error.inj h) (by decide)
    · exact fun h => by cases h
  · exact fun h => by cases h

/-- The two tests come out right where the sum overflows, and there only. -/
theorem offsetRight_mmap {off : BitVec 64} {len : Word} :
    OffsetRight off len (if refusesOffset off len then .error (-EINVAL)
      else mmapPgoff fget a flags given page) ↔
      Overflows off len ∧ ((4096 : Int) ∣ off.toInt ∨ len ≤ 0xfffff000) := by
  have htests : refusesOffset off len ↔
      Overflows off len ∧ len ≤ 0xfffff000 ∨ (4096 : Int) ∣ off.toInt := by
    rw [refusesOffset, wraps_iff, ← toInt_dvd_iff]
  split_ifs with hbad
  · have hfd : (.error (-EINVAL) : Except Int (Mapping φ × Word)) ≠ .error (-EBADF) :=
      fun h => absurd (Except.error.inj h) (by decide)
    rw [OffsetRight]
    tauto
  · rw [OffsetRight]
    simp only [mmapPgoff_ne]
    tauto

theorem flagsRight_error (e : Int) : FlagsRight flags (.error e : Except Int (Mapping φ × Word)) :=
  fun _ _ h => by cases h

theorem flagsRight_ok {m : Mapping φ} : FlagsRight flags (.ok (m, page)) ↔
    (m.file.isSome ↔ flags &&& ABI_MAP_ANONYMOUS = 0) ∧
      (m.flags &&& MAP_ANONYMOUS ≠ 0 ↔ flags &&& ABI_MAP_ANONYMOUS ≠ 0) := by
  refine ⟨fun h => h m page rfl, fun h m' page' heq => ?_⟩
  cases heq
  exact h

section

variable (h : given &&& MAP_ANONYMOUS = 0 ↔ flags &&& MAP_ANONYMOUS = 0)

include h

/-- The call is right if the flag it looks at is the one the program set. -/
theorem flagsRight_mmapPgoff :
    FlagsRight a.flags (mmapPgoff fget a flags given page) ↔
      (fget a.fd = none ∧ flags &&& MAP_ANONYMOUS = 0) ∨
        (flags &&& MAP_ANONYMOUS = 0 ↔ a.flags &&& ABI_MAP_ANONYMOUS = 0) := by
  by_cases hanon : flags &&& MAP_ANONYMOUS = 0
  · rw [mmapPgoff, if_pos hanon]
    cases fget a.fd with
    | none => exact iff_of_true (flagsRight_error _) (.inl ⟨rfl, hanon⟩)
    | some file =>
      rw [flagsRight_ok, ne_eq, h]
      tauto
  · rw [mmapPgoff, if_neg hanon, flagsRight_ok, ne_eq, h]
    tauto

theorem flagsRight_mmap {p : Prop} [Decidable p] :
    FlagsRight a.flags (if p then .error (-EINVAL) else mmapPgoff fget a flags given page) ↔
      p ∨ (fget a.fd = none ∧ flags &&& MAP_ANONYMOUS = 0) ∨
        (flags &&& MAP_ANONYMOUS = 0 ↔ a.flags &&& ABI_MAP_ANONYMOUS = 0) := by
  split
  next hp => exact iff_of_true (flagsRight_error _) (.inl hp)
  next hp => rw [flagsRight_mmapPgoff h, or_iff_right hp]

end

end Requests

/-- The flag is one bit. -/
theorem anonymous_iff (x : Word) : x &&& MAP_ANONYMOUS = 0 ↔ x.getLsbD 5 = false := by
  rw [← not_iff_not, ← ne_eq, show MAP_ANONYMOUS = twoPow 32 5 by decide,
    Bits.and_twoPow_ne_zero x (by decide), Bool.not_eq_false]

theorem uw7_flag (x : Word) :
    (if x &&& ABI_MAP_ANONYMOUS ≠ 0 then (x ||| MAP_ANONYMOUS) &&& ~~~ABI_MAP_ANONYMOUS else x) &&&
        ~~~MAP_EXEC_DENY &&& MAP_ANONYMOUS = 0 ↔
      x &&& MAP_ANONYMOUS = 0 ∧ x &&& ABI_MAP_ANONYMOUS = 0 := by
  rw [anonymous_iff, anonymous_iff]
  split
  next habi =>
    refine iff_of_false ?_ fun h => habi h.2
    simp [MAP_EXEC_DENY, ABI_MAP_ANONYMOUS, MAP_ANONYMOUS]
  next habi => simp [MAP_EXEC_DENY, not_not.mp habi]

/-- What the three calls get right. The two tests of the offset agree with what they are for
only where the sum overflows; the flag that is looked at is Linux's, and `svr4_mmap` sets it
for files. -/
theorem mmap_right_iff (fget : Word → Option φ) (a : MmapArgs) (off offHi : Word) :
    (OffsetRight (off64 off offHi) a.len (uw7Mmap64 fget a off offHi) ↔
      Overflows (off64 off offHi) a.len ∧
        ((4096 : Int) ∣ (off64 off offHi).toInt ∨ a.len ≤ 0xfffff000)) ∧
    (OffsetRight (off64 off offHi) a.len (solMmap64 fget a offHi off) ↔
      Overflows (off64 off offHi) a.len ∧
        ((4096 : Int) ∣ (off64 off offHi).toInt ∨ a.len ≤ 0xfffff000)) ∧
    (FlagsRight a.flags (uw7Mmap64 fget a off offHi) ↔ refusesOffset (off64 off offHi) a.len ∨
      (a.flags &&& ABI_MAP_ANONYMOUS = 0 → a.flags &&& MAP_ANONYMOUS = 0)) ∧
    (FlagsRight a.flags (solMmap64 fget a offHi off) ↔ refusesOffset (off64 off offHi) a.len ∨
      (fget a.fd = none ∧ a.flags &&& MAP_ANONYMOUS = 0) ∨
      (a.flags &&& MAP_ANONYMOUS = 0 ↔ a.flags &&& ABI_MAP_ANONYMOUS = 0)) ∧
    (FlagsRight a.flags (svr4Mmap fget a off) ↔
      fget a.fd = none ∧ a.flags &&& ABI_MAP_ANONYMOUS = 0) := by
  refine ⟨offsetRight_mmap, offsetRight_mmap, ?_, ?_, ?_⟩
  · refine (flagsRight_mmap .rfl).trans (or_congr_right ?_)
    rw [uw7_flag]
    tauto
  · refine (flagsRight_mmap ?_).trans ?_
    · rw [anonymous_iff, anonymous_iff]
      split <;> simp
    · rw [BitVec.and_assoc]
      rfl
  · have hmask : a.flags &&& ~~~0x80000020 &&& ABI_MAP_ANONYMOUS =
        a.flags &&& ABI_MAP_ANONYMOUS := by
      rw [BitVec.and_assoc]
      rfl
    have hrename : a.flags &&& ~~~0x80000020 &&& MAP_ANONYMOUS = 0 := by
      rw [BitVec.and_assoc]
      exact and_zero
    unfold svr4Mmap
    dsimp only
    rw [hmask]
    split_ifs with habi
    · rw [and_iff_left habi]
      cases fget a.fd with
      | none => exact iff_of_true (flagsRight_error _) rfl
      | some file =>
        rw [flagsRight_ok]
        simp only [anonymous_iff, ne_eq]
        simp [MAP_ANONYMOUS]
    · rw [flagsRight_ok]
      exact iff_of_false (fun h => h.2.mpr habi hrename) fun h => habi h.2

/-- A page of a file at offset 0x1000. -/
theorem aligned_offset_refused :
    (4096 : Int) ∣ (off64 0x1000 0).toInt ∧ ¬ Overflows (off64 0x1000 0) 0x1000 ∧
      uw7Mmap64 (fun _ => some ()) ⟨0, 0x1000, 1, 1, 3⟩ 0x1000 0 = .error (-EINVAL) := by
  refine ⟨by decide, ?_, rfl⟩
  unfold Overflows
  decide

end AbiEmu.Mm
