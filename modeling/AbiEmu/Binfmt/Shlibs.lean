import AbiEmu.Binfmt.Coff
import Mathlib.Tactic.IntervalCases

/-!
# The list of shared libraries (`coff_preload_shlib`)

A library section of a COFF program is a list of entries. Each begins with its own size
and the place of a path name, both counted in words, and the loader hands every path
to `sys_uselib`. The list is walked with a pointer and the number of bytes that are left.
The sizes come from the file, so they are multiplied and compared in words of 32 bits, partly
as signed and partly as unsigned numbers.

The walk keeps `phdr` and `nbytes` together: what is left lies between the pointer and the
end of the section (`Walk`). From this follow that every header is in the section and
that a path begins in its entry. Nothing says that the path also ends there. Since every
entry is behind the one before it, this is decided by the last path alone
(`shlib_walk_safe_iff`). Which path is the last is read off the section: `Listed` follows
the sizes from entry to entry.
-/

namespace AbiEmu.Binfmt.Shlibs

open List

open Coff (Scnhdr)

/-! ## The walk -/

/-- The bytes of the section buffer and of what lies behind it. -/
abbrev Buffer := Nat → Byte

/-- The word at an offset of the buffer. -/
def Buffer.word (buffer : Buffer) (i : Nat) : Word :=
  buffer (i + 3) ++ buffer (i + 2) ++ buffer (i + 1) ++ buffer i

/-- An entry whose header is read. -/
structure Entry where
  phdr : Nat
  entrySize : Word
  headerSize : Word
  deriving DecidableEq, Repr

/-- `COFF_SLIBHD`; the products are cut to an `int`. -/
def Entry.read (buffer : Buffer) (phdr : Nat) : Entry where
  phdr := phdr
  entrySize := buffer.word phdr * 4
  headerSize := buffer.word (phdr + 4) * 4

/-- Where the path begins. -/
def Entry.path (e : Entry) : Nat := e.phdr + e.headerSize.toNat

/-- The three checks, the first two on unsigned numbers. -/
def Entry.valid (e : Entry) (nbytes : Word) : Bool :=
  e.headerSize.toNat < nbytes.toNat && e.headerSize.toNat < e.entrySize.toNat &&
    0 < e.entrySize.toInt

/-- What the walk leaves. -/
structure Outcome where
  err : Int
  /-- The offsets a header was read at. -/
  headers : List Nat
  /-- The entries whose path was handed to `sys_uselib`. -/
  passed : List Entry
  deriving DecidableEq, Repr

/-- An entry before the rest of the walk. -/
def Outcome.cons (e : Entry) (o : Outcome) : Outcome :=
  { o with headers := e.phdr :: o.headers, passed := e :: o.passed }

/-- The loop; `uselib i` is the answer to the `i`-th path. -/
def walk (uselib : Nat → Int) (buffer : Buffer) :
    Nat → Nat → Nat → Word → Int → Option Outcome
  | 0, _, _, _, _ => none
  | fuel + 1, i, phdr, nbytes, err =>
    if nbytes.toInt ≤ 8 then some ⟨err, [], []⟩
    else
      let e := Entry.read buffer phdr
      if ¬ e.valid nbytes then some ⟨-ENOEXEC, [phdr], []⟩
      else if uselib i < 0 then some ⟨uselib i, [phdr], [e]⟩
      else
        (walk uselib buffer fuel (i + 1) (phdr + e.entrySize.toNat) (nbytes - e.entrySize)
          (uselib i)).map (·.cons e)

/-- What the rest of the kernel answers. -/
structure Services where
  kmalloc : Bool
  /-- The result of the read: a negative number, or the bytes it stored. -/
  kernelRead : Except Int (List Byte)
  /-- What lies in the buffer and behind it before the read. -/
  behind : Buffer
  uselib : Nat → Int

/-- The buffer after the read. -/
def Services.buffer (k : Services) (bs : List Byte) : Buffer := fun i => bs.getD i (k.behind i)

/-- `coff_preload_shlib`, with fuel for the loop. -/
def coffPreloadShlib (k : Services) (sect : Scnhdr) (fuel : Nat) : Option Outcome :=
  if sect.sSize.toInt < 8 then some ⟨-ENOEXEC, [], []⟩
  -- ENOMEM
  else if k.kmalloc = false then some ⟨-12, [], []⟩
  else
    match k.kernelRead with
    | .error e => some ⟨e, [], []⟩
    | .ok bs =>
      if bs.length ≠ sect.sSize.toNat then some ⟨-ENOEXEC, [], []⟩
      else walk k.uselib (k.buffer bs) fuel 0 0 sect.sSize bs.length

/-! ## Where the walk goes -/

variable {uselib : Nat → Int} {buffer : Buffer} {size : Nat}

/-- What is left lies between the pointer and the end of the section. An entry may be
longer than what is left; then the pointer is behind the end. -/
def Walk (size phdr : Nat) (nbytes : Word) : Prop := phdr + nbytes.toInt = size

/-- An entry with more than its header in the section, whose path begins in it. -/
structure Entry.Fits (e : Entry) (size : Nat) : Prop where
  header : e.phdr + 8 < size
  inEntry : e.headerSize.toNat < e.entrySize.toNat
  positive : 0 < e.entrySize.toInt
  inBuffer : e.path < size

/-- The `m`-th entry of the list that begins at `phdr`. -/
def entryAt (buffer : Buffer) : Nat → Nat → Entry
  | 0, phdr => .read buffer phdr
  | m + 1, phdr => entryAt buffer m (phdr + (Entry.read buffer phdr).entrySize.toNat)

/-- The `m`-th entry from `phdr` on fits, and so do those before it, whose libraries are loaded;
`i` is the number of the first. -/
def Listed (uselib : Nat → Int) (buffer : Buffer) (size : Nat) : Nat → Nat → Nat → Prop
  | 0, _, phdr => (Entry.read buffer phdr).Fits size
  | m + 1, i, phdr => (Entry.read buffer phdr).Fits size ∧ 0 ≤ uselib i ∧
    Listed uselib buffer size m (i + 1) (phdr + (Entry.read buffer phdr).entrySize.toNat)

variable {phdr : Nat}

theorem Listed.fits {i : Nat} : ∀ {m : Nat}, Listed uselib buffer size m i phdr →
    (Entry.read buffer phdr).Fits size
  | 0, h => h
  | _ + 1, h => h.1

/-- The checks of an entry, by what is left of the section. -/
theorem Walk.fits_iff {nbytes : Word} (h : Walk size phdr nbytes) :
    (Entry.read buffer phdr).Fits size ↔
      ¬ nbytes.toInt ≤ 8 ∧ (Entry.read buffer phdr).valid nbytes = true := by
  unfold Walk at h
  unfold Entry.valid
  simp only [Bool.and_eq_true, decide_eq_true_eq]
  constructor
  · rintro ⟨hheader, hin, hpos, hpath⟩
    have hheader' : phdr + 8 < size := hheader
    have hpath' : phdr + (Entry.read buffer phdr).headerSize.toNat < size := hpath
    have hnat := Word.toNat_toInt (w := nbytes) (by omega)
    exact ⟨by omega, ⟨by omega, hin⟩, hpos⟩
  · rintro ⟨hn, ⟨hleft, hin⟩, hpos⟩
    have hnat := Word.toNat_toInt (w := nbytes) (by omega)
    refine ⟨?_, hin, hpos, ?_⟩
    · show phdr + 8 < size
      omega
    · show phdr + (Entry.read buffer phdr).headerSize.toNat < size
      omega

/-- The next entry begins behind this one, and what is left is less by its size. -/
theorem Walk.next {nbytes entrySize : Word} (h : Walk size phdr nbytes) (hn : ¬ nbytes.toInt ≤ 8)
    (he : 0 < entrySize.toInt) :
    Walk size (phdr + entrySize.toNat) (nbytes - entrySize) ∧
      (nbytes - entrySize).toInt < nbytes.toInt := by
  have hsub : (nbytes - entrySize).toInt = nbytes.toInt - entrySize.toInt := by
    have h1 := BitVec.toInt_lt (x := nbytes)
    have h2 := BitVec.toInt_lt (x := entrySize)
    rw [BitVec.toInt_sub]
    exact Int.bmod_eq_of_le (by omega) (by omega)
  have hnat := Word.toNat_toInt (w := entrySize) (by omega)
  unfold Walk at h ⊢
  omega

/-- What the walk does: it reads headers inside the section, hands over paths that begin in
their entry, and every entry begins behind the paths before it. -/
structure Good (size phdr : Nat) (o : Outcome) : Prop where
  headers : ∀ a ∈ o.headers, a + 8 ≤ size
  fits : ∀ e ∈ o.passed, e.Fits size
  behind : ∀ e ∈ o.passed, phdr ≤ e.phdr
  ordered : o.passed.Pairwise fun e e' => e.path ≤ e'.path

/-- **The walk ends**, since every entry takes something off what is left. -/
theorem exists_walk : ∀ (fuel i phdr : Nat) (nbytes : Word) (err : Int),
    Walk size phdr nbytes → nbytes.toInt.toNat < fuel →
    ∃ o, walk uselib buffer fuel i phdr nbytes err = some o ∧ Good size phdr o := by
  intro fuel
  induction fuel with
  | zero => intro i phdr nbytes err _ h; exact absurd h (Nat.not_lt_zero _)
  | succ fuel ih =>
    intro i phdr nbytes err hwalk hfuel
    unfold walk
    by_cases hn : nbytes.toInt ≤ 8
    · exact ⟨_, if_pos hn, by simp, by simp, by simp, .nil⟩
    rw [if_neg hn]
    have hheader : phdr + 8 ≤ size := by
      unfold Walk at hwalk
      omega
    by_cases hv : (Entry.read buffer phdr).valid nbytes = true
    · have hfits := hwalk.fits_iff.mpr ⟨hn, hv⟩
      by_cases hu : uselib i < 0
      · refine ⟨_, by simp only [hv, hu, if_true, not_true, if_false]; rfl, ?_⟩
        refine ⟨by simpa using hheader, by simpa using hfits, ?_, pairwise_singleton ..⟩
        exact forall_mem_singleton.mpr (Nat.le_refl phdr)
      · obtain ⟨hnext, hless⟩ := hwalk.next hn hfits.positive
        obtain ⟨o, ho, hgood⟩ := ih (i + 1) _ _ (uselib i) hnext (by omega)
        refine ⟨o.cons (.read buffer phdr), by simp [hv, hu, ho], ?_⟩
        have hinEntry := hfits.inEntry
        refine ⟨forall_mem_cons.mpr ⟨hheader, hgood.headers⟩,
          forall_mem_cons.mpr ⟨hfits, hgood.fits⟩,
          forall_mem_cons.mpr ⟨Nat.le_refl phdr, fun e he => ?_⟩,
          pairwise_cons.mpr ⟨fun e he => ?_, hgood.ordered⟩⟩
        · exact Nat.le_of_add_right_le (hgood.behind e he)
        · -- the path is in its entry, and the next entry is behind it
          have hfrom := hgood.behind e he
          show phdr + _ ≤ e.phdr + _
          omega
    · refine ⟨_, by simp only [hv]; rfl, ?_⟩
      exact ⟨by simpa using hheader, by simp, by simp, .nil⟩

/-- The paths handed over are those of the listed entries. -/
theorem walk_passed : ∀ {fuel i phdr : Nat} {nbytes : Word} {err : Int} {o : Outcome},
    Walk size phdr nbytes → walk uselib buffer fuel i phdr nbytes err = some o →
    ∀ m e, o.passed[m]? = some e ↔
      Listed uselib buffer size m i phdr ∧ entryAt buffer m phdr = e
  | 0, _, _, _, _, _, _, h, _, _ => nomatch h
  | fuel + 1, i, phdr, nbytes, err, o, hwalk, h, m, e => by
    unfold walk at h
    by_cases hfits : (Entry.read buffer phdr).Fits size
    · obtain ⟨hn, hv⟩ := hwalk.fits_iff.mp hfits
      simp only [if_neg hn, hv, not_true, if_false] at h
      by_cases hu : uselib i < 0
      · -- no entry after this one
        rw [if_pos hu] at h
        obtain rfl := Option.some.inj h
        cases m with
        | zero => simpa [Listed, entryAt] using fun _ => hfits
        | succ m => simpa [Listed] using fun _ hload => absurd hu (Int.not_lt.mpr hload)
      · rw [if_neg hu] at h
        obtain ⟨rest, hrest, rfl⟩ := Option.map_eq_some_iff.mp h
        cases m with
        | zero => simpa [Outcome.cons, Listed, entryAt] using fun _ => hfits
        | succ m =>
          rw [Outcome.cons, getElem?_cons_succ,
            walk_passed (hwalk.next hn hfits.positive).1 hrest m e]
          exact and_congr_left' ⟨fun h => ⟨hfits, Int.not_lt.mp hu, h⟩, fun h => h.2.2⟩
    · have hnil : o.passed = [] := by
        by_cases hn : nbytes.toInt ≤ 8
        · rw [if_pos hn] at h
          obtain rfl := Option.some.inj h
          rfl
        · have hv : ¬ (Entry.read buffer phdr).valid nbytes = true :=
            fun hv => hfits (hwalk.fits_iff.mpr ⟨hn, hv⟩)
          simp only [if_neg hn, if_pos hv] at h
          obtain rfl := Option.some.inj h
          rfl
      rw [hnil, getElem?_nil]
      exact ⟨nofun, fun hlisted => absurd hlisted.1.fits hfits⟩

/-! ## The paths -/

/-- There is a zero in the section from `i` on. -/
def Terminated (buffer : Buffer) (size i : Nat) : Prop := ∃ j, i ≤ j ∧ j < size ∧ buffer j = 0

theorem Terminated.mono {i j : Nat} (h : Terminated buffer size j) (hij : i ≤ j) :
    Terminated buffer size i := by
  obtain ⟨k, hk, hrest⟩ := h
  exact ⟨k, hij.trans hk, hrest⟩

/-- The list is walked safely: every header is in the section, every path begins in its
entry and in the section, and ends in the section. -/
structure WalksSafely (buffer : Buffer) (size : Nat) (o : Outcome) : Prop where
  headers : ∀ a ∈ o.headers, a + 8 ≤ size
  inEntry : ∀ e ∈ o.passed, e.headerSize.toNat < e.entrySize.toNat ∧ e.path < size
  terminated : ∀ e ∈ o.passed, Terminated buffer size e.path

theorem Good.walksSafely_iff {o : Outcome} (h : Good size phdr o) :
    WalksSafely buffer size o ↔
      ∀ e, o.passed.getLast? = some e → Terminated buffer size e.path := by
  constructor
  · intro hsafe e he
    exact hsafe.terminated e (mem_of_getLast? he)
  · intro hlast
    refine ⟨h.headers, fun e he => ⟨(h.fits e he).inEntry, (h.fits e he).inBuffer⟩, ?_⟩
    intro e he
    -- every path is the last, or before it
    obtain hnil | ⟨front, last, hpassed⟩ := eq_nil_or_concat o.passed
    · rw [hnil] at he
      cases he
    rw [concat_eq_append] at hpassed
    have hends := hlast last (by rw [hpassed, getLast?_concat])
    have hord := h.ordered
    rw [hpassed] at he hord
    rcases mem_append.mp he with hfront | hmem
    · have hle := (pairwise_append.mp hord).2.2 e hfront last (mem_singleton_self last)
      exact hends.mono hle
    · rw [mem_singleton.mp hmem]
      exact hends

/-- The buffer a walk goes through, if there is one. -/
def Services.sectionBuffer (k : Services) : Buffer :=
  match k.kernelRead with
  | .error _ => k.behind
  | .ok bs => k.buffer bs

/-- The section is long enough, and is read as a whole. -/
def Services.Reads (k : Services) (sect : Scnhdr) : Prop :=
  8 ≤ sect.sSize.toInt ∧ k.kmalloc = true ∧
    ∃ bs, k.kernelRead = .ok bs ∧ bs.length = sect.sSize.toNat

/-- Behind the beginning of the last listed path there is a zero in the section. -/
def LastEnds (k : Services) (sect : Scnhdr) : Prop :=
  k.Reads sect → ∀ m, Listed k.uselib k.sectionBuffer sect.sSize.toNat m 0 0 →
    ¬ Listed k.uselib k.sectionBuffer sect.sSize.toNat (m + 1) 0 0 →
    Terminated k.sectionBuffer sect.sSize.toNat (entryAt k.sectionBuffer m 0).path

/-- A call that ends before the walk. -/
theorem good_nil (size : Nat) (err : Int) : Good size 0 ⟨err, [], []⟩ :=
  ⟨by simp, by simp, by simp, .nil⟩

/-- The call ends, and all it does is a walk through its section. -/
theorem exists_coffPreloadShlib (k : Services) (sect : Scnhdr) (fuel : Nat) :
    ∃ o, coffPreloadShlib k sect (sect.sSize.toNat + 1 + fuel) = some o ∧
      Good sect.sSize.toNat 0 o ∧ ∀ m e, o.passed[m]? = some e ↔ k.Reads sect ∧
        Listed k.uselib k.sectionBuffer sect.sSize.toNat m 0 0 ∧
        entryAt k.sectionBuffer m 0 = e := by
  have hnil {err : Int} (hno : ¬ k.Reads sect) : Good sect.sSize.toNat 0 ⟨err, [], []⟩ ∧
      ∀ (m : Nat) (e : Entry), ([] : List Entry)[m]? = some e ↔ k.Reads sect ∧
        Listed k.uselib k.sectionBuffer sect.sSize.toNat m 0 0 ∧
        entryAt k.sectionBuffer m 0 = e :=
    ⟨good_nil _ _, fun m e => ⟨by simp, fun h => absurd h.1 hno⟩⟩
  unfold coffPreloadShlib
  by_cases hsize : sect.sSize.toInt < 8
  · exact ⟨_, if_pos hsize, hnil fun h => absurd h.1 (Int.not_le.mpr hsize)⟩
  rw [if_neg hsize]
  by_cases hmem : k.kmalloc = false
  · exact ⟨_, if_pos hmem, hnil fun h => absurd (h.2.1.symm.trans hmem) (by decide)⟩
  rw [if_neg hmem]
  cases hread : k.kernelRead with
  | error e =>
    refine ⟨_, rfl, hnil fun h => ?_⟩
    obtain ⟨bs, hbs, -⟩ := h.2.2
    exact absurd (hread.symm.trans hbs) (by simp)
  | ok bs =>
    by_cases hlen : bs.length ≠ sect.sSize.toNat
    · refine ⟨_, if_pos hlen, hnil fun h => ?_⟩
      obtain ⟨bs', hbs', hlen'⟩ := h.2.2
      obtain rfl := Except.ok.inj (hread.symm.trans hbs')
      exact hlen hlen'
    · have hnat := Word.toNat_toInt (w := sect.sSize) (by omega)
      have hwalk : Walk sect.sSize.toNat 0 sect.sSize := by
        unfold Walk
        omega
      obtain ⟨o, ho, hgood⟩ := exists_walk (sect.sSize.toNat + 1 + fuel) 0 0 sect.sSize bs.length
        hwalk (by omega)
      have hreads : k.Reads sect :=
        ⟨Int.not_lt.mp hsize, by simpa using hmem, bs, hread, not_not.mp hlen⟩
      have hbuffer : k.sectionBuffer = k.buffer bs := by
        unfold Services.sectionBuffer
        rw [hread]
      refine ⟨o, by simpa [hlen] using ho, hgood, fun m e => ?_⟩
      rw [and_iff_right hreads, hbuffer]
      exact walk_passed hwalk ho m e

/-- **The list is walked to its end, and safely exactly if the last path handed over ends in
the section**, for every size and content, whatever `sys_uselib` answers. -/
theorem shlib_walk_safe_iff (k : Services) (sect : Scnhdr) (fuel : Nat) :
    ∃ o, coffPreloadShlib k sect (sect.sSize.toNat + 1 + fuel) = some o ∧
      (WalksSafely k.sectionBuffer sect.sSize.toNat o ↔ LastEnds k sect) := by
  obtain ⟨o, ho, hgood, hpassed⟩ := exists_coffPreloadShlib k sect fuel
  refine ⟨o, ho, hgood.walksSafely_iff.trans ⟨fun h hreads m hm hlast => ?_, fun h e he => ?_⟩⟩
  · have hget := (hpassed m _).mpr ⟨hreads, hm, rfl⟩
    have hend : o.passed[m + 1]? = none := by
      cases hnext : o.passed[m + 1]? with
      | none => rfl
      | some e => exact absurd ((hpassed (m + 1) e).mp hnext).2.1 hlast
    refine h _ ?_
    have hlen : o.passed.length - 1 = m := by
      have hlt := (List.getElem?_eq_some_iff.mp hget).1
      have hle := getElem?_eq_none_iff.mp hend
      omega
    rw [getLast?_eq_getElem?, hlen, hget]
  · rw [getLast?_eq_getElem?] at he
    have hlt := (List.getElem?_eq_some_iff.mp he).1
    obtain ⟨hreads, hm, rfl⟩ := (hpassed _ e).mp he
    refine h hreads _ hm fun hnext => ?_
    have hget := (hpassed _ _).mpr ⟨hreads, hnext, rfl⟩
    have hlt' := (List.getElem?_eq_some_iff.mp hget).1
    omega

/-- A section of three words whose one entry has its path in the last word, and no zero
behind its name. -/
def unterminated : Services where
  kmalloc := true
  kernelRead := .ok [3, 0, 0, 0, 2, 0, 0, 0, 0x2f, 0x6c, 0x69, 0x62]
  behind := fun _ => 0x78
  uselib := fun _ => 0

/-- Its path is handed over and runs out of the section. -/
theorem shlib_path_runs_out :
    ∃ o, coffPreloadShlib unterminated ⟨0, 12, 0, 0x800⟩ 13 = some o ∧
      ¬ WalksSafely unterminated.sectionBuffer 12 o := by
  have hrun : coffPreloadShlib unterminated ⟨0, 12, 0, 0x800⟩ 13 = some ⟨0, [0], [⟨0, 12, 8⟩]⟩ := by
    decide
  refine ⟨_, hrun, fun h => ?_⟩
  obtain ⟨j, hle, hlt, hzero⟩ := h.terminated ⟨0, 12, 8⟩ (mem_singleton_self _)
  have hle' : 8 ≤ j := hle
  interval_cases j <;> cases hzero

end AbiEmu.Binfmt.Shlibs
