import AbiEmu.Report.Names

/-!
# The length the caller gives

A caller that passes a buffer of `n` bytes expects at most `n` bytes in it, none if `n`
is not positive, and the kernel must not read beyond the object it copies from.
`length_respected_iff` says for each call exactly when it keeps to this.

A copy of a whole object keeps to it if the count it uses is within both the length and
the object, and otherwise only if it is stopped before it gets there, by the limit of
user space or by a byte that cannot be written (`respects_copyOut_iff`). So each call
comes down to how its count relates to the length: `svr4_statfs` copies the whole
structure of a mounted file system into any shorter buffer, a negative length passes its
test and becomes a count of two gigabytes and more, a negative count is the greater one
in the minimum of `svr4_sysinfo`, and `sco_sysi86` takes the maximum, so a short buffer
overflows and a long one is filled with what lies behind the flags.
-/

namespace AbiEmu.Report

/-- The call keeps to the length `n` of the buffer and to its own objects. -/
structure Respects (n : Word) (o : Outcome) : Prop where
  stores : (o.stored : Int) ≤ max n.toInt 0
  reads : o.InBounds

/-- The calls that are told a length. -/
inductive LengthCall where
  | statfs (frame : Nat → Byte) (walk : Int) (answer : Int × Kstatfs) (buf len fstype : Word)
  | fstatfs (frame : Nat → Byte) (file : Bool) (answer : Int × Kstatfs) (buf len fstype : Word)
  | sysinfo (uts : Utsname) (cmd : Int) (buf count : Word)
  | gethostname (uts : Utsname) (name len : Word)
  | getdomainname (uts : Utsname) (name len : Word)
  | getipdomain (uts : Utsname) (m : Mem) (sp : Word)
  | getfeatures (beyond : Nat → Byte) (other : Outcome) (arg1 arg2 : Word)

namespace LengthCall

/-- The length the call is told. -/
def length (pg : Pages) : LengthCall → Word
  | statfs _ _ _ _ len _ => len
  | fstatfs _ _ _ _ len _ => len
  | sysinfo _ _ _ count => count
  | gethostname _ _ len => len
  | getdomainname _ _ len => len
  | getipdomain _ m sp => getipdomainLen pg m sp
  | getfeatures _ _ _ arg2 => arg2

/-- The call; `kernel` are the bytes the kernel can write outside user space. -/
def run (pg : Pages) (kernel : Word → Bool) : LengthCall → Outcome
  | statfs frame walk answer buf len fstype => svr4Statfs pg frame walk answer buf len fstype
  | fstatfs frame file answer buf len fstype => svr4Fstatfs pg frame file answer buf len fstype
  | sysinfo uts cmd buf count => svr4Sysinfo pg uts cmd buf count
  | gethostname uts name len => wyseGethostname pg kernel uts name len
  | getdomainname uts name len => wyseGetdomainname pg kernel uts name len
  | getipdomain uts m sp => socksysGetipdomain pg kernel uts m sp
  | getfeatures beyond other arg1 arg2 => scoSysi86 pg beyond other SI86GETFEATURES arg1 arg2

end LengthCall

/-! ## Copies -/

section Copies

variable (pg : Pages)

theorem respects_iff_le (n : Word) (o : Outcome) :
    Respects n o ↔ o.stored ≤ n.toInt.toNat ∧ o.InBounds := by
  refine ⟨fun h => ⟨?_, h.reads⟩, fun h => ⟨?_, h.2⟩⟩
  · have := h.stores
    omega
  · omega

theorem respects_returns (n : Word) (ret : Int) : Respects n (.returns ret) := by
  rw [respects_iff_le]
  exact ⟨Nat.zero_le _, Outcome.inBounds_returns ret⟩

/-- A copy whose count is within the length and the object, or that is stopped in time. -/
theorem respects_copyOut_iff (len a : Word) (src : Nat → Byte) (size n : Nat) (ok bad : Int) :
    Respects len (copyOut pg a src size n ok bad) ↔
      n ≤ min len.toInt.toNat size ∨ ¬ pg.Passes a n (min len.toInt.toNat size) := by
  rw [respects_iff_le, stored_copyOut, inBounds_copyOut, ← Nat.le_min, Pages.copied_le_iff]

/-- `svr4_statfs` and `svr4_fstatfs` keep to the length. -/
def StatfsFits (found : Except Int Kstatfs) (buf len fstype : Word) : Prop :=
  40 ≤ len.toInt ∨
    if fstype = 0 then found.isOk = false ∨ ¬ pg.Passes buf 40 len.toInt.toNat
    else 0 ≤ len.toInt ∨ ¬ pg.Passes buf len.toNat 0

theorem respects_reportStatfs_iff (frame : Nat → Byte) (found : Except Int Kstatfs)
    (buf len fstype : Word) :
    Respects len (reportStatfs pg frame found buf len fstype) ↔
      StatfsFits pg found buf len fstype := by
  unfold reportStatfs StatfsFits
  by_cases hlong : (svr4StatfsSize : Int) < len.toInt
  · rw [if_pos hlong]
    exact iff_of_true (respects_returns len _) (.inl hlong.le)
  have hmin : min len.toInt.toNat svr4StatfsSize = len.toInt.toNat := by omega
  rw [if_neg hlong]
  split_ifs with hmounted
  · cases found with
    | error e => exact iff_of_true (respects_returns len e) (.inr (.inl rfl))
    | ok st =>
      -- the whole structure is copied, whatever the length
      show Respects len (copyOut ..) ↔ _
      rw [respects_copyOut_iff, hmin]
      have hfits : svr4StatfsSize ≤ len.toInt.toNat ↔ 40 ≤ len.toInt := by
        unfold svr4StatfsSize
        omega
      rw [hfits]
      exact or_congr_right (or_iff_right Bool.noConfusion).symm
  · rw [respects_copyOut_iff, hmin]
    by_cases hneg : 0 ≤ len.toInt
    · exact iff_of_true (.inl (Word.toNat_toInt hneg).ge) (.inr (.inl hneg))
    · have hzero : len.toInt.toNat = 0 := by omega
      have hcount : ¬ len.toNat ≤ 0 := Nat.not_le_of_lt (Word.toNat_pos (Int.not_le.mp hneg))
      have hshort : ¬ 40 ≤ len.toInt := by omega
      rw [hzero, or_iff_right hcount, or_iff_right hshort, or_iff_right hneg]

/-- `svr4_sysinfo` keeps to the length. -/
def SysinfoFits (uts : Utsname) (cmd : Int) (buf count : Word) : Prop :=
  ∀ s, sysinfoString uts cmd = some s → count.toInt < 0 →
    ¬ pg.Passes buf (sysinfoLen s count).toNat 0

theorem sysinfoLen_toNat (s : CStr) (count : Word) :
    (sysinfoLen s count).toNat = min count.toNat (s.bytes.length + 1) := by
  unfold sysinfoLen
  split_ifs with h
  · omega
  · rw [BitVec.toNat_ofNat, Nat.mod_eq_of_lt (by omega)]
    omega

theorem respects_sysinfo_iff (uts : Utsname) (cmd : Int) (buf count : Word) :
    Respects count (svr4Sysinfo pg uts cmd buf count) ↔ SysinfoFits pg uts cmd buf count := by
  unfold svr4Sysinfo SysinfoFits
  cases hs : sysinfoString uts cmd with
  | none =>
    refine iff_of_true (respects_returns count _) ?_
    nofun
  | some s =>
    rw [respects_copyOut_iff]
    have hlen := sysinfoLen_toNat s count
    by_cases hneg : count.toInt < 0
    · have hcount := Word.toNat_pos hneg
      have hzero : min count.toInt.toNat (s.bytes.length + 1) = 0 := by omega
      rw [hzero, or_iff_right (by omega)]
      constructor
      · rintro h s' ⟨⟩ -
        exact h
      · intro h
        exact h s rfl hneg
    · have hcount := Word.toNat_toInt (Int.not_lt.mp hneg)
      refine iff_of_true (.inl ?_) fun s' _ h => absurd h hneg
      omega

/-- `sco_sysi86` keeps to the length. -/
def FeaturesFit (arg1 arg2 : Word) : Prop :=
  (12 ≤ arg2.toInt ∧ arg2.toInt ≤ 13) ∨
    ¬ pg.Passes arg1 (max arg2.toInt 12).toNat (min arg2.toInt.toNat 13)

theorem respects_sysi86_iff (beyond : Nat → Byte) (other : Outcome) (arg1 arg2 : Word) :
    Respects arg2 (scoSysi86 pg beyond other SI86GETFEATURES arg1 arg2) ↔
      FeaturesFit pg arg1 arg2 := by
  unfold scoSysi86 FeaturesFit
  rw [if_pos rfl, respects_copyOut_iff]
  refine or_congr_left ?_
  omega

end Copies

/-! ## Loops -/

section Loops

variable (pg : Pages) (kernel : Word → Bool)

/-- A loop that puts `s` and its terminator keeps to the length: if that is not positive,
none of the bytes the loop goes to can be written. -/
def LoopFits (name len : Word) (puts : Nat) : Prop :=
  0 < len.toInt ∨ ∀ i ≤ puts, ¬ pg.takes kernel (name + BitVec.ofNat 32 i) = true

/-- The bytes put are counted against the length. -/
theorem places_le_iff {name len : Word} {puts : Nat}
    (hputs : 0 < len.toInt → puts + 1 ≤ len.toInt.toNat) :
    pg.places kernel name (puts + 1) ≤ len.toInt.toNat ↔ LoopFits pg kernel name len puts := by
  unfold LoopFits
  by_cases hpos : 0 < len.toInt
  · exact iff_of_true ((pg.places_le kernel name _).trans (hputs hpos)) (.inl hpos)
  · have hzero : len.toInt.toNat = 0 := by omega
    rw [hzero, Nat.le_zero, Pages.places_eq_zero_iff, or_iff_right hpos]
    exact forall_congr' fun i => by rw [Nat.lt_succ_iff]

theorem count_down (len : Word) (h : 0 < len.toNat) : (len - 1).toNat = len.toNat - 1 := by
  bv_omega

theorem signed_count_down (len : Word) (h : 0 < len.toInt.toNat) :
    (len - 1).toInt.toNat = len.toInt.toNat - 1 := by
  have hcount := Word.toNat_toInt (w := len) (by omega)
  have hsmall := BitVec.toInt_lt (x := len)
  have hdown := count_down len (by omega)
  rw [BitVec.toInt_eq_toNat_of_lt (by omega), hdown]
  omega

/-- `wyse_gethostname` and `wyse_getdomainname` keep to the length. -/
def NameFits (s : CStr) (name len : Word) : Prop :=
  verifyArea pg name len.toNat = true →
    LoopFits pg kernel name len (min s.bytes.length (len - 1).toNat)

theorem respects_wyseGetname_iff (s : CStr) (name len : Word) :
    Respects len (wyseGetname pg kernel s name len) ↔ NameFits pg kernel s name len := by
  unfold wyseGetname NameFits
  by_cases hv : verifyArea pg name len.toNat = true
  · have hmore (l : Word) : (decide (l ≠ 0)) = true ↔ 0 < l.toNat := by
      rw [decide_eq_true_iff, Nat.pos_iff_ne_zero, ne_eq, ne_eq, BitVec.toNat_eq]
      rfl
    have hbounds : (putString pg kernel (· ≠ 0) s.bytes (len - 1) name).InBounds :=
      inBounds_putString pg kernel hmore count_down s.bytes (len - 1) name
    rw [if_neg (not_not.mpr hv), respects_iff_le, stored_putString pg kernel hmore count_down,
      and_iff_left hbounds, places_le_iff, forall_prop_of_true hv]
    intro hpos
    have hcount := Word.toNat_toInt hpos.le
    have := count_down len (by omega)
    omega
  · rw [if_pos hv]
    exact iff_of_true (respects_returns len _) fun h => absurd h hv

theorem strcmpLooks_le : ∀ as bs : List Byte,
    strcmpLooks as bs ≤ as.length + 1 ∧ strcmpLooks as bs ≤ bs.length + 1
  | [], bs => by simp [strcmpLooks]
  | a :: as, [] => by simp [strcmpLooks]
  | a :: as, b :: bs => by
    obtain ⟨hl, hr⟩ := strcmpLooks_le as bs
    rw [strcmpLooks]
    split
    · simp only [List.length_cons]
      omega
    · simp

/-- How often the loop of `socksys_getipdomain` goes round. -/
def ipDomainPuts (text : List Byte) (len : Word) : Nat :=
  if text ≠ ascii "(none)" then min text.length len.toInt.toNat else 0

theorem putIpDomain_spec (text : List Byte) (len name : Word) :
    (putIpDomain pg kernel text len name).stored =
        pg.places kernel name (ipDomainPuts text len + 1) ∧
      (putIpDomain pg kernel text len name).InBounds := by
  have hmore (l : Word) : (decide (0 < l.toInt)) = true ↔ 0 < l.toInt.toNat := by
    rw [decide_eq_true_iff]
    omega
  unfold putIpDomain ipDomainPuts
  split_ifs with h
  · exact ⟨stored_putString pg kernel hmore signed_count_down text len name,
      inBounds_putString pg kernel hmore signed_count_down text len name⟩
  · constructor
    · rw [Pages.places_succ, ← placed_putAct pg kernel name 0]
      rfl
    · nofun

/-- `socksys_getipdomain` keeps to the length. -/
def DomainFits (uts : Utsname) (m : Mem) (sp : Word) : Prop :=
  let name := getipdomainName m sp
  let len := getipdomainLen pg m sp
  pg.canRead sp 1 = true → verifyArea pg name len.toNat = true →
    LoopFits pg kernel name len (ipDomainPuts (ipDomain uts) (len - 1))

theorem respects_getipdomain_iff (uts : Utsname) (m : Mem) (sp : Word) :
    Respects (getipdomainLen pg m sp) (socksysGetipdomain pg kernel uts m sp) ↔
      DomainFits pg kernel uts m sp := by
  unfold socksysGetipdomain DomainFits
  by_cases hr : pg.canRead sp 1 = true
  swap
  · rw [if_pos hr]
    exact iff_of_true (respects_returns _ _) fun h => absurd h hr
  rw [if_neg (not_not.mpr hr), forall_prop_of_true hr]
  generalize getipdomainName m sp = name, getipdomainLen pg m sp = len
  by_cases hv : verifyArea pg name len.toNat = true
  swap
  · rw [if_pos hv]
    exact iff_of_true (respects_returns _ _) fun h => absurd h hv
  rw [if_neg (not_not.mpr hv), forall_prop_of_true hv]
  obtain ⟨hstored, hbounds⟩ := putIpDomain_spec pg kernel (ipDomain uts) (len - 1) name
  obtain ⟨hcl, hcr⟩ := strcmpLooks_le (ipDomain uts) (ascii "(none)")
  have hscan := (List.takeWhile_prefix (l := uts.nodename.bytes) (· ≠ 0x2e)).length_le
  rw [respects_iff_le, and_iff_left, ← places_le_iff, ← hstored]
  · rfl
  · intro hpos
    have hdown := signed_count_down len (by omega)
    unfold ipDomainPuts
    split <;> omega
  · intro r hmem
    simp only [List.mem_cons] at hmem
    rcases hmem with rfl | rfl | rfl | hput
    · exact Nat.succ_le_succ hscan
    · exact hcl
    · exact hcr
    · exact hbounds r hput

end Loops

/-! ## All calls -/

/-- What the calls need to keep to the length. -/
def LengthCall.Fits (pg : Pages) (kernel : Word → Bool) : LengthCall → Prop
  | statfs _ walk answer buf len fstype =>
    StatfsFits pg (if walk = 0 then vfsStatfs answer else .error walk) buf len fstype
  | fstatfs _ file answer buf len fstype =>
    StatfsFits pg (if file then vfsStatfs answer else .error (-EBADF)) buf len fstype
  | sysinfo uts cmd buf count => SysinfoFits pg uts cmd buf count
  | gethostname uts name len => NameFits pg kernel uts.nodename name len
  | getdomainname uts name len => NameFits pg kernel uts.domainname name len
  | getipdomain uts m sp => DomainFits pg kernel uts m sp
  | getfeatures _ _ arg1 arg2 => FeaturesFit pg arg1 arg2

/-- A call keeps to the length it is told exactly if `Fits` says so. -/
theorem length_respected_iff (pg : Pages) (kernel : Word → Bool) (c : LengthCall) :
    Respects (c.length pg) (c.run pg kernel) ↔ c.Fits pg kernel := by
  cases c with
  | statfs frame walk answer buf len fstype | fstatfs frame file answer buf len fstype =>
    exact respects_reportStatfs_iff pg frame _ buf len fstype
  | sysinfo uts cmd buf count => exact respects_sysinfo_iff pg uts cmd buf count
  | gethostname uts name len => exact respects_wyseGetname_iff pg kernel uts.nodename name len
  | getdomainname uts name len => exact respects_wyseGetname_iff pg kernel uts.domainname name len
  | getipdomain uts m sp => exact respects_getipdomain_iff pg kernel uts m sp
  | getfeatures beyond other arg1 arg2 => exact respects_sysi86_iff pg beyond other arg1 arg2

/-- Names of a machine. -/
def sampleUts : Utsname where
  sysname := literal "Linux"
  nodename := literal "unix"
  release := literal "2.6.0"
  machine := literal "i686"
  domainname := literal "(none)"
  utsVersion := literal "#1"

/-- One of its file systems. -/
def sampleFs : Kstatfs := ⟨0xef53, 4096, 1000, 500, 100, 50⟩

/-- One of its processes, which has all the memory a process can have. -/
def sampleProcess : Pages := .below 0xc0000000

/-- A kernel that protects itself. -/
def nowhere : Word → Bool := fun _ => false

/-- A buffer of the size of the structure, and one of the size of the flags. -/
theorem whole_buffers_respected :
    Respects 40
      ((LengthCall.statfs (fun _ => 0) 0 (0, sampleFs) 0x8000 40 0).run sampleProcess nowhere) ∧
    Respects 12
      ((LengthCall.getfeatures (fun _ => 0) (.returns 0) 0x8000 12).run sampleProcess nowhere) :=
  ⟨(length_respected_iff sampleProcess nowhere
      (.statfs (fun _ => 0) 0 (0, sampleFs) 0x8000 40 0)).mpr (.inl (by decide)),
    (length_respected_iff sampleProcess nowhere
      (.getfeatures (fun _ => 0) (.returns 0) 0x8000 12)).mpr (.inl (by decide))⟩

/-- 40 bytes in a buffer of four, negative lengths taken for large ones, a terminator where
there is no room, and a vector longer than its flags. -/
theorem buffers_overrun :
    ¬ Respects 4 (svr4Statfs sampleProcess (fun _ => 0) 0 (0, sampleFs) 0x8000 4 0) ∧
    ¬ Respects 0x80000000
      (svr4Fstatfs sampleProcess (fun _ => 0) true (0, sampleFs) 0x8000 0x80000000 1) ∧
    ¬ Respects (-1) (svr4Sysinfo sampleProcess sampleUts 106 0x8000 (-1)) ∧
    ¬ Respects 0 (wyseGethostname sampleProcess nowhere sampleUts 0x8000 0) ∧
    ¬ Respects 0 (socksysGetipdomain sampleProcess nowhere sampleUts (fun _ => 0) 0x8000) ∧
    ¬ Respects 4 (scoSysi86 sampleProcess (fun _ => 0) (.returns 0) SI86GETFEATURES 0x8000 4) ∧
    ¬ Respects 64
      (scoSysi86 sampleProcess (fun _ => 0) (.returns 0) SI86GETFEATURES 0x8000 64) := by
  have hwrite {a : Word} {n : Nat} (h : a.toNat + n ≤ 0xc0000000) :
      sampleProcess.canWrite a n = true := Pages.canWrite_below h
  have hpasses {a : Word} {n k : Nat} (hn : a.toNat + n ≤ 0xc0000000)
      (hk : a.toNat + (k + 1) ≤ 0xc0000000) : sampleProcess.Passes a n k :=
    ⟨Pages.verifyWrite_of_canWrite (hwrite hn), hwrite hk⟩
  have hloop {name len : Word} {puts : Nat} (hlen : ¬ 0 < len.toInt)
      (hname : sampleProcess.takes nowhere (name + BitVec.ofNat 32 0) = true) :
      ¬ LoopFits sampleProcess nowhere name len puts := by
    rintro (hpos | hall)
    · exact hlen hpos
    · exact hall 0 (Nat.zero_le _) hname
  refine ⟨?_, ?_, ?_, ?_, ?_, ?_, ?_⟩
  · rw [svr4Statfs, respects_reportStatfs_iff]
    rintro (h | h | h)
    · exact nomatch h
    · cases h
    · exact h (hpasses (by decide) (by decide))
  · rw [svr4Fstatfs, respects_reportStatfs_iff]
    rintro (h | h | h)
    iterate 2 exact nomatch h
    · exact h (hpasses (by decide) (by decide))
  · rw [respects_sysinfo_iff]
    intro h
    exact h _ rfl (by decide) (hpasses (by decide) (by decide))
  · rw [wyseGethostname, respects_wyseGetname_iff]
    intro h
    exact hloop (by decide) (by decide) (h rfl)
  · intro h
    have hlen : getipdomainLen sampleProcess (fun _ => 0) 0x8000 = 0 := rfl
    rw [← hlen, respects_getipdomain_iff] at h
    refine hloop ?_ (by decide) (h (hwrite (by decide)) ?_)
    · decide
    · rfl
  all_goals
    rw [respects_sysi86_iff]
    rintro (h | h)
    · exact nomatch h
    · exact h (hpasses (by decide) (by decide))

end AbiEmu.Report
