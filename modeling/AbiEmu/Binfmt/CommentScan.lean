import AbiEmu.Binfmt.Comments
import Mathlib.Data.List.Intervals
import Mathlib.Logic.Relation

/-!
# The comment scan ends and stays in its page

Progress of `coff_parse_comments` is by `start`, which the loop over a page takes from its
counter: `Scans.start_le` bounds it by the number of bytes just read, and it is
positive once the zero is replaced. So `nbytes` never goes below zero, and as it falls
with every page the whole search ends (`exists_parses`).

The bytes looked at are another matter. A string is followed to its zero, and the bytes
behind what the read stored are those of an earlier page or of nobody. `Scans.known_iff`
says when a page is safe: each string tested has its zero among the bytes just read, or
one of the terminal clues is complete there, or the read reached the terminator; and
there is a zero at all, since the search for the end of the first string otherwise runs
to the byte behind.

A clue that is not terminal has changed the personality when it matched, and a read that
fails afterwards makes the function return zero.

Which strings are tested is read off the bytes: the `k`-th string of a page begins at
`head page k`, and the counter lets it be tested if it begins `k` or more bytes before the end
(`Counted`). `Advances` goes from read to read in these terms, and the conditions here and in
`AbiEmu.Binfmt.CommentClues` are about the reads so reached.
-/

namespace AbiEmu.Binfmt.Comments

open List

/-! ## Strings of a page -/

variable {page : Page} {bs : List Byte} {p n m err : Nat}

theorem length_stringFrom_le : ∀ {n p : Nat}, (stringFrom page n p).length ≤ n := by
  intro n
  induction n with
  | zero => intro p; exact Nat.le_refl _
  | succ n ih =>
    intro p
    unfold stringFrom
    split
    · exact Nat.zero_le _
    · exact Nat.succ_le_succ ih

/-- A string is shorter than `m` if there is a zero among the first `m` bytes. -/
theorem length_stringFrom_lt_iff :
    ∀ {n m p : Nat}, m ≤ n → ((stringFrom page n p).length < m ↔ ∃ i < m, page (p + i) = 0) := by
  intro n
  induction n with
  | zero =>
    intro m p hm
    obtain rfl : m = 0 := by omega
    exact iff_of_false (Nat.not_lt_zero _) fun ⟨i, hi, _⟩ => Nat.not_lt_zero i hi
  | succ n ih =>
    intro m p hm
    unfold stringFrom
    split
    next hzero =>
      constructor
      · intro hlt
        exact ⟨0, hlt, hzero⟩
      · rintro ⟨i, hi, _⟩
        exact Nat.zero_lt_of_lt hi
    next hnz =>
      cases m with
      | zero => exact iff_of_false (Nat.not_lt_zero _) fun ⟨i, hi, _⟩ => Nat.not_lt_zero i hi
      | succ m =>
        rw [length_cons, Nat.succ_lt_succ_iff, ih (Nat.le_of_succ_le_succ hm)]
        constructor
        · rintro ⟨i, hi, h⟩
          exact ⟨i + 1, Nat.succ_lt_succ hi, by rwa [show p + (i + 1) = p + 1 + i by omega]⟩
        · rintro ⟨i, hi, h⟩
          cases i with
          | zero => exact absurd h hnz
          | succ i =>
            exact ⟨i, Nat.lt_of_succ_lt_succ hi, by rwa [show p + 1 + i = p + (i + 1) by omega]⟩

/-- The bytes of a string are those of the page. -/
theorem getElem?_stringFrom :
    ∀ {n p i : Nat}, i < (stringFrom page n p).length →
      (stringFrom page n p)[i]? = some (page (p + i)) := by
  intro n
  induction n with
  | zero => intro p i hi; exact absurd hi (Nat.not_lt_zero i)
  | succ n ih =>
    intro p i hi
    unfold stringFrom at hi ⊢
    split at hi
    · exact absurd hi (Nat.not_lt_zero i)
    next hnz =>
      rw [if_neg hnz]
      cases i with
      | zero => rfl
      | succ i =>
        rw [getElem?_cons_succ, ih (Nat.lt_of_succ_lt_succ hi)]
        rw [show p + 1 + i = p + (i + 1) by omega]

theorem skip_eq : ∀ {n p : Nat}, skip page n p = (stringFrom page n p).length := by
  intro n
  induction n with
  | zero => intro p; rfl
  | succ n ih =>
    intro p
    unfold skip stringFrom
    split
    · rfl
    · rw [ih, length_cons]

theorem fill_lt {i : Nat} (hi : i < bs.length) : fill page bs i = bs[i] := by
  simp [fill, hi]

/-- There is a zero among the bytes just read, from `p` on. -/
theorem zero_mem_drop_iff (page : Page) :
    0 ∈ bs.drop p ↔ ∃ i < bs.length - p, fill page bs (p + i) = 0 := by
  rw [mem_iff_getElem]
  constructor
  · rintro ⟨i, hi, h⟩
    rw [length_drop] at hi
    rw [getElem_drop] at h
    exact ⟨i, hi, by rw [fill_lt (by omega)]; exact h⟩
  · rintro ⟨i, hi, h⟩
    rw [fill_lt (by omega)] at h
    exact ⟨i, by rw [length_drop]; exact hi, by rw [getElem_drop]; exact h⟩

/-- A string that runs through the bytes just read begins with them. -/
theorem take_stringFrom (h : bs.length - p ≤ (stringFrom (fill page bs) n p).length) :
    (stringFrom (fill page bs) n p).take (bs.length - p) = bs.drop p := by
  apply ext_getElem?
  intro i
  by_cases hi : i < bs.length - p
  · rw [getElem?_take_of_lt hi, getElem?_stringFrom (by omega), getElem?_drop,
      getElem?_eq_getElem (by omega), fill_lt (by omega)]
  · rw [getElem?_eq_none (by rw [length_take]; omega),
      getElem?_eq_none (by rw [length_drop]; omega)]

/-! ## How far the clues look -/

theorem strncmpReads_le : ∀ {n : Nat} {s text : List Byte},
    strncmpReads n s text ≤ s.length + 1 := by
  intro n
  induction n with
  | zero => intro s text; exact Nat.zero_le _
  | succ n ih =>
    intro s text
    cases s with
    | nil => exact Nat.le_refl _
    | cons b s =>
      unfold strncmpReads
      split
      · exact Nat.succ_le_succ ih
      · exact Nat.succ_le_succ (Nat.zero_le _)

/-- A comparison that goes on behind byte `k` has found no difference before it. -/
theorem take_eq_of_lt_strncmpReads : ∀ {n k : Nat} {s text : List Byte},
    k < strncmpReads n s text → k < n ∧ s.take k = text.take k := by
  intro n
  induction n with
  | zero => intro k s text h; exact absurd h (Nat.not_lt_zero k)
  | succ n ih =>
    intro k s text h
    cases k with
    | zero => exact ⟨Nat.succ_pos n, rfl⟩
    | succ k =>
      cases s with
      | nil => exact absurd h (by simp [strncmpReads])
      | cons b s =>
        unfold strncmpReads at h
        split at h
        next hhead =>
          obtain ⟨hk, htake⟩ := ih (Nat.lt_of_succ_lt_succ h)
          rw [head?_eq_some_iff] at hhead
          obtain ⟨text', rfl⟩ := hhead
          exact ⟨Nat.succ_lt_succ hk, by rw [take_succ_cons, take_succ_cons, htake]; rfl⟩
        · exact absurd h (by omega)

/-- A comparison without a difference looks at all it may. -/
theorem strncmpReads_of_eq : ∀ {n : Nat} {s text : List Byte},
    s.take n = text.take n → n ≤ text.length → strncmpReads n s text = n := by
  intro n
  induction n with
  | zero => intro s text _ _; rfl
  | succ n ih =>
    intro s text h hlen
    cases text with
    | nil => exact absurd hlen (Nat.not_succ_le_zero n)
    | cons c text =>
      cases s with
      | nil => cases h
      | cons b s =>
        obtain ⟨rfl, htail⟩ := cons.inj h
        rw [strncmpReads, if_pos (head?_cons ..), tail_cons, ih htail (Nat.le_of_succ_le_succ hlen)]

variable {s : List Byte} {c : Clue}

theorem Clue.reads_le : c.reads s ≤ s.length + 1 := by
  unfold Clue.reads
  split
  · exact Nat.le_refl _
  · exact strncmpReads_le

/-- No string is followed beyond its terminator. -/
theorem tryClues_reads_le : ∀ {cs : List Clue} {hits : Nat} {personality : Word},
    (tryClues s cs hits personality).reads ≤ s.length + 1 := by
  intro cs
  induction cs with
  | nil => intro hits personality; exact Nat.zero_le _
  | cons c cs ih =>
    intro hits personality
    refine Nat.max_le.mpr ⟨Clue.reads_le, ?_⟩
    split_ifs
    · exact Nat.zero_le _
    all_goals exact ih

/-- A clue for `strncmp` whose text has at least the length compared. -/
def Clue.IsPrefix (c : Clue) : Prop := 0 < c.len ∧ c.len.toNat ≤ c.text.length
  deriving Decidable

/-- The clue ends the search with the first `n` bytes of `s`. -/
structure Clue.Ends (c : Clue) (n : Nat) (s : List Byte) : Prop where
  terminal : c.terminal = true
  isPrefix : c.IsPrefix
  le : c.len.toNat ≤ n
  matched : c.Matches s

/-- The order of the table: behind a substring there is no text, and no text begins with
one that comes later. -/
def Ordered (cs : List Clue) : Prop :=
  cs.Pairwise fun c c' => 0 < c'.len →
    0 < c.len ∧ ¬ c'.text.take c'.len.toNat <+: c.text.take c.len.toNat

theorem Clue.matches_prefix (hc : 0 < c.len) :
    c.Matches s ↔ s.take c.len.toNat = c.text.take c.len.toNat := by
  unfold Clue.Matches
  have hneg : ¬ c.len < 0 := by omega
  simp [hneg, hc]

theorem Clue.reads_of_matches (hc : c.IsPrefix) (h : c.Matches s) : c.reads s = c.len.toNat := by
  have hpos := hc.1
  rw [Clue.reads, if_neg (by omega)]
  exact strncmpReads_of_eq ((Clue.matches_prefix hc.1).mp h) hc.2

/-- A clue before one that ends the search with `n` bytes does not look further either. -/
theorem Clue.reads_le_of_ends {c c' : Clue} (h : c'.Ends n s)
    (hne : 0 < c.len ∧ ¬ c'.text.take c'.len.toNat <+: c.text.take c.len.toNat) :
    c.reads s ≤ n := by
  by_contra hlt
  rw [Clue.reads, if_neg (by omega)] at hlt
  obtain ⟨hn, htake⟩ := take_eq_of_lt_strncmpReads (Nat.lt_of_not_le hlt)
  have hle := h.le
  apply hne.2
  rw [← (Clue.matches_prefix h.isPrefix.1).mp h.matched, prefix_take_iff]
  constructor
  · rw [← Nat.min_eq_left hle, ← take_take, htake]
    exact (List.take_prefix _ _).trans (List.take_prefix _ _)
  · rw [length_take]
    omega

theorem tryClues_reads_of_ends :
    ∀ {cs : List Clue} {hits : Nat} {personality : Word},
    Ordered cs → (∃ c ∈ cs, c.Ends n s) → (tryClues s cs hits personality).reads ≤ n := by
  intro cs
  induction cs with
  | nil => rintro hits personality - ⟨c, hc, -⟩; cases hc
  | cons c cs ih =>
    rintro hits personality hord ⟨c', hc', hends⟩
    obtain ⟨hfirst, hrest⟩ := pairwise_cons.mp hord
    refine Nat.max_le.mpr ?_
    rcases mem_cons.mp hc' with rfl | hmem
    · refine ⟨by rw [Clue.reads_of_matches hends.isPrefix hends.matched]; exact hends.le, ?_⟩
      rw [if_pos hends.matched, if_pos hends.terminal]
      exact Nat.zero_le _
    · refine ⟨Clue.reads_le_of_ends hends (hfirst c' hmem hends.isPrefix.1), ?_⟩
      split_ifs
      · exact Nat.zero_le _
      all_goals exact ih hrest ⟨c', hmem, hends⟩

/-- The last clue looks at the whole string, so a test that stays among the first `n` bytes
of a longer string has ended before. -/
theorem ends_of_tryClues_reads (hn : n ≤ s.length) :
    ∀ {cs : List Clue} {hits : Nat} {personality : Word},
      (∀ c ∈ cs, c.len < 0 ∨ c.IsPrefix) → (∃ c ∈ cs, c.len < 0) →
      (tryClues s cs hits personality).reads ≤ n → ∃ c ∈ cs, c.Ends n s := by
  intro cs
  induction cs with
  | nil => rintro hits personality - ⟨c, hc, -⟩; cases hc
  | cons c cs ih =>
    rintro hits personality hform ⟨c', hc', hneg⟩ hreads
    obtain ⟨hc, hrest⟩ := Nat.max_le.mp hreads
    have hnot : ¬ c.len < 0 := by
      intro h
      rw [Clue.reads, if_pos h] at hc
      omega
    have hprefix := (hform c (mem_cons_self ..)).resolve_left hnot
    have hmem : c' ∈ cs := by
      rcases mem_cons.mp hc' with rfl | h
      · exact absurd hneg hnot
      · exact h
    have hform' : ∀ c ∈ cs, c.len < 0 ∨ c.IsPrefix := fun c h => hform c (mem_cons_of_mem _ h)
    split_ifs at hrest with hmatch hterm
    · rw [Clue.reads_of_matches hprefix hmatch] at hc
      exact ⟨c, mem_cons_self .., hterm, hprefix, hc, hmatch⟩
    all_goals
      obtain ⟨d, hd, hends⟩ := ih hform' ⟨c', hmem, hneg⟩ hrest
      exact ⟨d, mem_cons_of_mem _ hd, hends⟩

theorem coffClues_ordered : Ordered coffClues := by
  unfold Ordered
  decide

theorem coffClues_form : ∀ c ∈ coffClues, c.len < 0 ∨ c.IsPrefix := by decide

theorem coffClues_substring : ∃ c ∈ coffClues, c.len < 0 := by decide


/-! ## The loop over a page -/

/-- What the loop over a page leaves, from a state of it on: it is at its end, a terminal
clue is found, the string is cut off by the counter, or the string is completed. -/
inductive Scans (page : Page) (err : Nat) : Nat → Nat → Nat → Nat → Word → Scanned → Prop where
  | done {p count start hits : Nat} {personality : Word} (hcount : err ≤ count) :
    Scans page err p count start hits personality ⟨false, start, hits, personality, []⟩
  | found {p count start hits : Nat} {personality : Word} {t : Tested}
    (hcount : count < err) (ht : test page p hits personality = t) (hfound : t.found = true) :
    Scans page err p count start hits personality
      ⟨true, start, t.hits, t.personality, [⟨p, looks true p t.reads⟩]⟩
  | cut {p count start hits k : Nat} {personality : Word} {t : Tested}
    (hcount : count < err) (ht : test page p hits personality = t) (hfound : t.found = false)
    (hk : skip page (err - count) p = k) (hend : err ≤ count + k) :
    Scans page err p count start hits personality
      ⟨false, start, t.hits, t.personality,
        [⟨p, looks true p t.reads ++ looks false p (k + 1)⟩]⟩
  | next {p count start hits k : Nat} {personality : Word} {t : Tested} {s : Scanned}
    (hcount : count < err) (ht : test page p hits personality = t) (hfound : t.found = false)
    (hk : skip page (err - count) p = k) (hend : count + k < err)
    (hrest : Scans page err (p + k + 1) (count + k + 2) (count + k + 1) t.hits t.personality s) :
    Scans page err p count start hits personality
      (s.cons ⟨p, looks true p t.reads ++ looks false p (k + 1)⟩)

/-- Every round advances the counter, so there is fuel enough for all that are left. -/
theorem exists_scans (page : Page) (err : Nat) :
    ∀ (fuel p count start hits : Nat) (personality : Word),
    err - count < fuel →
    ∃ s, scanPage page err fuel p count start hits personality = some s ∧
      Scans page err p count start hits personality s := by
  intro fuel
  induction fuel with
  | zero => intro p count start hits personality h; exact absurd h (Nat.not_lt_zero _)
  | succ fuel ih =>
    intro p count start hits personality hfuel
    unfold scanPage
    by_cases hcount : err ≤ count
    · exact ⟨_, if_pos hcount, .done hcount⟩
    rw [if_neg hcount]
    have hlt : count < err := Nat.lt_of_not_le hcount
    generalize ht : test page p hits personality = t
    generalize hk : skip page (err - count) p = k
    cases hfound : t.found with
    | true => exact ⟨_, by simp [hfound], .found hlt ht hfound⟩
    | false =>
      by_cases hend : count + k < err
      · obtain ⟨s, hs, hrest⟩ := ih (p + k + 1) (count + k + 2) (count + k + 1) t.hits
          t.personality (by omega)
        exact ⟨_, by simp [hfound, hend, hs], .next hlt ht hfound hk hend hrest⟩
      · -- the counter is past the end: the loop looks at it once more and is done
        obtain ⟨fuel, rfl⟩ : ∃ f, fuel = f + 1 := ⟨fuel - 1, by omega⟩
        have hle : err ≤ count + k + 1 := by omega
        exact ⟨_, by simp [hfound, hend, scanPage, hle, Scanned.cons],
          .cut hlt ht hfound hk (Nat.le_of_not_lt hend)⟩

variable {personality : Word} {p count start hits : Nat}

/-- What is read next starts behind a string that ended among the bytes just read. -/
theorem Scans.start_le {s : Scanned} (h : Scans page err p count start hits personality s)
    (hstart : start ≤ err) :
    s.start ≤ err := by
  induction h with
  | done _ | found _ _ _ | cut _ _ _ _ _ => exact hstart
  | next _ _ _ _ hend _ ih => exact ih hend

variable {hits : Nat}

/-- The section is advanced by at least one byte, and by no more than was read. -/
theorem Scans.advance_bounds {s : Scanned} (h : Scans page err 0 0 0 hits personality s)
    (herr : 0 < err) :
    0 < s.advance err ∧ s.advance err ≤ err := by
  unfold Scanned.advance
  split
  · exact ⟨herr, Nat.le_refl _⟩
  next hne => exact ⟨Nat.pos_of_ne_zero hne, h.start_le (Nat.zero_le _)⟩

/-! ## The bytes a page is looked at -/

/-- A terminal clue for `strncmp` is complete at the start of `bs`. -/
def Early (bs : List Byte) : Prop :=
  ∃ c ∈ coffClues, c.terminal = true ∧ c.IsPrefix ∧ c.text.take c.len.toNat <+: bs

/-- The string at `p` is decided by the bytes just read. -/
def Closed (bs : List Byte) (p : Nat) : Prop :=
  4095 ≤ bs.length ∨ 0 ∈ bs.drop p ∨ Early (bs.drop p)

theorem mem_looks {t : Bool} {l : Look} : l ∈ looks t p n ↔ ∃ i < n, l = ⟨p + i, t⟩ := by
  simp [looks, eq_comm]

theorem looks_false_known_iff : (∀ l ∈ looks false p (n + 1), l.Known err) ↔ p + n < err := by
  constructor
  · intro h
    have hlast := h ⟨p + n, false⟩ (mem_looks.mpr ⟨n, Nat.lt_succ_self n, rfl⟩)
    rcases hlast with hlt | ⟨hterm, -⟩
    · exact hlt
    · cases hterm
  · intro h l hl
    obtain ⟨i, hi, rfl⟩ := mem_looks.mp hl
    exact .inl (show p + i < err by omega)

/-- While the terminator is in place, nothing behind the page is looked at. -/
theorem looks_true_known_iff (hp : p < err) (hn : p + n ≤ 4096) :
    (∀ l ∈ looks true p n, l.Known err) ↔ p + n ≤ err ∨ 4095 ≤ err := by
  constructor
  · intro h
    by_contra hnot
    -- the first byte behind those just read
    have hbyte := h ⟨err, true⟩ (mem_looks.mpr ⟨err - p, by omega, by
      rw [show p + (err - p) = err by omega]⟩)
    rcases hbyte with hlt | ⟨-, heq⟩
    · exact Nat.lt_irrefl err hlt
    · exact absurd (show err = 4095 from heq) (by omega)
  · intro h l hl
    obtain ⟨i, hi, rfl⟩ := mem_looks.mp hl
    by_cases hlt : p + i < err
    · exact .inl hlt
    · exact .inr ⟨rfl, show p + i = 4095 by omega⟩

theorem exists_ends_iff : (∃ c ∈ coffClues, c.Ends n s) ↔ Early (s.take n) := by
  constructor
  · rintro ⟨c, hc, hends⟩
    refine ⟨c, hc, hends.terminal, hends.isPrefix, ?_⟩
    rw [← (Clue.matches_prefix hends.isPrefix.1).mp hends.matched]
    exact take_prefix_take_left hends.le
  · rintro ⟨c, hc, hterm, hprefix, hpre⟩
    have hlen := hpre.length_le
    rw [length_take, length_take, Nat.min_eq_left hprefix.2] at hlen
    refine ⟨c, hc, hterm, hprefix, by omega, ?_⟩
    rw [Clue.matches_prefix hprefix.1]
    have heq := prefix_iff_eq_take.mp (hpre.trans (List.take_prefix n s))
    rw [length_take, Nat.min_eq_left hprefix.2] at heq
    exact heq.symm

/-- The test of a string looks at bytes just read, and at the terminator, if they decide it. -/
theorem test_known_iff (hp : p < bs.length) (hlen : bs.length ≤ 4096) (hits : Nat)
    (personality : Word) :
    (∀ l ∈ looks true p (test (fill page bs) p hits personality).reads, l.Known bs.length) ↔
      Closed bs p := by
  have hreads : (test (fill page bs) p hits personality).reads ≤
      (stringAt (fill page bs) p).length + 1 := tryClues_reads_le
  have hstring : (stringAt (fill page bs) p).length ≤ 4095 - p := length_stringFrom_le
  rw [looks_true_known_iff hp (by omega)]
  unfold Closed
  by_cases hfull : 4095 ≤ bs.length
  · exact iff_of_true (.inr hfull) (.inl hfull)
  rw [or_iff_left hfull, or_iff_right hfull, zero_mem_drop_iff page,
    ← length_stringFrom_lt_iff (show bs.length - p ≤ 4095 - p by omega)]
  change _ ↔ (stringAt (fill page bs) p).length < bs.length - p ∨ _
  by_cases hclosed : (stringAt (fill page bs) p).length < bs.length - p
  · exact iff_of_true (by omega) (.inl hclosed)
  rw [or_iff_right hclosed]
  have hle : bs.length - p ≤ (stringAt (fill page bs) p).length := Nat.le_of_not_lt hclosed
  rw [← take_stringFrom hle, ← exists_ends_iff]
  constructor
  · intro h
    exact ends_of_tryClues_reads hle coffClues_form coffClues_substring
      (show (test (fill page bs) p hits personality).reads ≤ _ by omega)
  · intro h
    have hends : (test (fill page bs) p hits personality).reads ≤ bs.length - p :=
      tryClues_reads_of_ends coffClues_ordered h
    omega

/-- Every byte the rounds look at was just read, or is the terminator. -/
def Known (err : Nat) (rounds : List Round) : Prop :=
  ∀ round ∈ rounds, ∀ l ∈ round.looks, l.Known err

theorem known_cons {round : Round} {rounds : List Round} :
    Known err (round :: rounds) ↔ (∀ l ∈ round.looks, l.Known err) ∧ Known err rounds :=
  forall_mem_cons

theorem known_nil : Known err [] := by
  nofun

theorem forall_looks_append {ls ls' : List Look} :
    (∀ l ∈ ls ++ ls', l.Known err) ↔ (∀ l ∈ ls, l.Known err) ∧ ∀ l ∈ ls', l.Known err :=
  forall_mem_append

/-- A round that finds the end of its string among the bytes just read. -/
theorem round_known_iff {k : Nat} (hlen : bs.length ≤ 4096) (hk : p + k < bs.length) (hits : Nat)
    (personality : Word) :
    (∀ l ∈ looks true p (test (fill page bs) p hits personality).reads ++ looks false p (k + 1),
      l.Known bs.length) ↔ Closed bs p := by
  rw [forall_looks_append, looks_false_known_iff, and_iff_left hk]
  exact test_known_iff (by omega) hlen hits personality

/-- Once a string is completed the pointer stays behind the counter, so that the search
for the end of a string does not leave the bytes just read. -/
theorem Scans.known_iff_later {s : Scanned}
    (h : Scans (fill page bs) bs.length p count start hits personality s) (hlen : bs.length ≤ 4096)
    (hp : p < count) :
    Known bs.length s.rounds ↔ ∀ round ∈ s.rounds, Closed bs round.p := by
  induction h with
  | done _ => exact iff_of_true known_nil nofun
  | found hcount ht _ =>
    subst ht
    rw [known_cons, and_iff_left known_nil, forall_mem_singleton]
    exact test_known_iff (by omega) hlen _ _
  | cut hcount ht _ hk _ =>
    subst ht
    have hle := length_stringFrom_le.trans_eq' (skip_eq.symm.trans hk)
    rw [known_cons, and_iff_left known_nil, forall_mem_singleton]
    exact round_known_iff hlen (by omega) _ _
  | next hcount ht _ _ hend _ ih =>
    subst ht
    show Known _ (_ :: _) ↔ ∀ round ∈ _ :: _, _
    rw [known_cons, forall_mem_cons]
    exact and_congr (round_known_iff hlen (by omega) _ _) (ih (by omega))

/-- A page is safe to look through if its strings are, and there is a zero in it. -/
theorem Scans.known_iff {s : Scanned} (h : Scans (fill page bs) bs.length 0 0 0 hits personality s)
    (hlen : bs.length ≤ 4096) (hne : 0 < bs.length) :
    Known bs.length s.rounds ↔
      (∀ round ∈ s.rounds, Closed bs round.p) ∧ (s.found = true ∨ 0 ∈ bs) := by
  have hzero : 0 ∈ bs ↔ skip (fill page bs) (bs.length - 0) 0 < bs.length := by
    have hmem : 0 ∈ bs.drop 0 ↔ _ := zero_mem_drop_iff page
    rw [drop_zero] at hmem
    rw [hmem, skip_eq, Nat.sub_zero, length_stringFrom_lt_iff (Nat.le_refl _)]
  cases h with
  | done hcount => omega
  | found hcount ht _ =>
    subst ht
    rw [known_cons, and_iff_left known_nil, forall_mem_singleton, and_iff_left (.inl rfl)]
    exact test_known_iff hne hlen _ _
  | cut hcount ht _ hk hend =>
    -- no end of a string was found
    have hnot : ¬ 0 ∈ bs := by rw [hzero]; omega
    rw [known_cons, forall_looks_append, looks_false_known_iff]
    refine iff_of_false (fun h => ?_) (fun h => ?_)
    · omega
    · rcases h.2 with hfound | hmem
      · cases hfound
      · exact hnot hmem
  | next hcount ht _ hk hend hrest =>
    subst ht hk
    have hmem : 0 ∈ bs := by rw [hzero]; omega
    rw [and_iff_left (.inr hmem)]
    show Known _ (_ :: _) ↔ ∀ round ∈ _ :: _, _
    rw [known_cons, forall_mem_cons]
    exact and_congr (round_known_iff hlen hend _ _) (hrest.known_iff_later hlen (by omega))

/-! ## What strings say -/

/-- The clues a string matches, in the order of the table. -/
def matching (s : List Byte) : List Clue := coffClues.filter fun c => c.Matches s

/-- The clues up to the first terminal one. -/
def upToTerminal : List Clue → List Clue
  | [] => []
  | c :: cs => if c.terminal then [c] else c :: upToTerminal cs

/-- The clues applied one after the other. -/
def applyAll (cs : List Clue) (personality : Word) : Word :=
  cs.foldl (fun w c => c.apply w) personality

/-- The personality that strings lead to. -/
def namedBy (ss : List (List Byte)) (personality : Word) : Word :=
  applyAll (upToTerminal (ss.flatMap matching)) personality

/-- A string matches a terminal clue. -/
def Terminal (s : List Byte) : Prop := ∃ c ∈ matching s, c.terminal = true
  deriving Decidable

theorem upToTerminal_append {cs : List Clue} (h : ∀ c ∈ cs, c.terminal = false)
    (cs' : List Clue) : upToTerminal (cs ++ cs') = cs ++ upToTerminal cs' := by
  induction cs with
  | nil => rfl
  | cons c cs ih =>
    obtain ⟨hc, hcs⟩ := forall_mem_cons.mp h
    rw [cons_append, upToTerminal, hc, ih hcs]
    rfl

theorem applyAll_append (cs cs' : List Clue) (personality : Word) :
    applyAll (cs ++ cs') personality = applyAll cs' (applyAll cs personality) :=
  foldl_append

section

variable {ss : List (List Byte)} (h : ∀ s ∈ ss, ¬ Terminal s)

include h

theorem matching_not_terminal : ∀ c ∈ ss.flatMap matching, c.terminal = false := by
  intro c hc
  obtain ⟨s, hs, hcs⟩ := mem_flatMap.mp hc
  exact Bool.eq_false_iff.mpr fun hterm => h s hs ⟨c, hcs, hterm⟩

theorem namedBy_eq (personality : Word) :
    namedBy ss personality = applyAll (ss.flatMap matching) personality := by
  have hall := upToTerminal_append (matching_not_terminal h) []
  rw [append_nil, upToTerminal, append_nil] at hall
  rw [namedBy, hall]

/-- Strings without a terminal clue only change what the others start from. -/
theorem namedBy_append (ss' : List (List Byte)) (personality : Word) :
    namedBy (ss ++ ss') personality = namedBy ss' (namedBy ss personality) := by
  rw [namedBy_eq h]
  unfold namedBy
  rw [flatMap_append, upToTerminal_append (matching_not_terminal h), applyAll_append]

/-- They change it to that of SCO, if any of them matches a clue. -/
theorem namedBy_eq_self_iff (personality : Word) :
    namedBy ss personality = personality ↔
      personality = perScosvr3 ∨ ss.flatMap matching = [] := by
  have hmasks : ∀ c ∈ ss.flatMap matching, ∀ w, c.apply w = perScosvr3 := by
    intro c hc
    have hterm := matching_not_terminal h c hc
    obtain ⟨s, -, hcs⟩ := mem_flatMap.mp hc
    have hmem := (mem_filter.mp hcs).1
    simp only [coffClues, mem_cons, not_mem_nil, or_false] at hmem
    rcases hmem with rfl | rfl | rfl | rfl | rfl | rfl | rfl | rfl | rfl <;>
      simp_all [Clue.apply, perScosvr3]
  rw [namedBy_eq h]
  obtain hnil | ⟨front, last, hcs⟩ := eq_nil_or_concat (ss.flatMap matching)
  · rw [hnil]
    exact iff_of_true rfl (.inr rfl)
  · rw [concat_eq_append] at hcs
    rw [hcs, applyAll_append, or_iff_left (by simp)]
    have happly := hmasks last (by simp [hcs]) (applyAll front personality)
    exact ⟨fun heq => heq.symm.trans happly, fun heq => happly.trans heq.symm⟩

end

/-- The loop over the table applies the matching clues up to the first terminal one, and
says whether there was one, and how many matched if not. -/
theorem tryClues_eq : ∀ (cs : List Clue) (hits : Nat) (personality : Word),
    ((tryClues s cs hits personality).found = true ↔
      ∃ c ∈ cs.filter fun c => c.Matches s, c.terminal = true) ∧
    (tryClues s cs hits personality).personality =
      applyAll (upToTerminal (cs.filter fun c => c.Matches s)) personality ∧
    ((tryClues s cs hits personality).found = false →
      (tryClues s cs hits personality).hits =
        hits + (cs.filter fun c => c.Matches s).length) := by
  intro cs
  induction cs with
  | nil =>
    intro hits personality
    exact ⟨by simp [tryClues], rfl, fun _ => rfl⟩
  | cons c cs ih =>
    intro hits personality
    unfold tryClues
    by_cases hmatch : c.Matches s
    · cases hterm : c.terminal with
      | true =>
        exact ⟨by simp [hmatch, hterm], by simp [hmatch, hterm, upToTerminal, applyAll],
          by simp [hmatch]⟩
      | false =>
        obtain ⟨hfound, hpers, hhits⟩ := ih (hits + 1) (c.apply personality)
        refine ⟨?_, ?_, ?_⟩
        · simpa [hmatch, hterm] using hfound
        · simpa [hmatch, hterm, upToTerminal, applyAll] using hpers
        · simpa [hmatch, Nat.add_assoc, Nat.add_comm] using hhits
    · simpa [hmatch] using ih hits personality

/-! ## Where the strings of a page are -/

/-- Where the `k`-th string of a page begins. -/
def head (page : Page) : Nat → Nat
  | 0 => 0
  | k + 1 => head page k + skip page 4096 (head page k) + 1

/-- The `k`-th string, up to the terminator. -/
def nth (page : Page) (k : Nat) : List Byte := stringAt page (head page k)

/-- The counter is one ahead for every string before the `k`-th, and still lets it be tested. -/
def Counted (page : Page) (err k : Nat) : Prop := head page k + k < err

/-- The counter gets to the end of the `k`-th string. -/
def Passed (page : Page) (err k : Nat) : Prop := head page (k + 1) + k ≤ err

/-- The `k`-th string is tested. -/
def IsTested (page : Page) (err k : Nat) : Prop :=
  Counted page err k ∧ ∀ j < k, ¬ Terminal (nth page j)

/-- What is read next starts here, if `m` strings were passed. -/
def startOf (page : Page) : Nat → Nat
  | 0 => 0
  | m + 1 => head page (m + 1) + m

/-- How far the section is advanced. -/
def advanceOf (page : Page) (err m : Nat) : Nat :=
  if startOf page m = 0 then err else startOf page m

theorem head_succ (page : Page) (k : Nat) :
    head page (k + 1) = head page k + skip page 4096 (head page k) + 1 := rfl

theorem Counted.of_le {j k : Nat} (hjk : j ≤ k) (h : Counted page err k) :
    Counted page err j := by
  induction k with
  | zero => rwa [Nat.le_zero.mp hjk]
  | succ k ih =>
    rcases Nat.lt_or_eq_of_le hjk with hlt | rfl
    · refine ih (Nat.le_of_lt_succ hlt) ?_
      unfold Counted at h ⊢
      rw [head_succ] at h
      omega
    · exact h

theorem skip_eq_min : ∀ {n m p : Nat}, n ≤ m → skip page n p = min n (skip page m p)
  | 0, _, _, _ => (Nat.zero_min _).symm
  | n + 1, 0, _, h => absurd h (Nat.not_succ_le_zero n)
  | n + 1, m + 1, p, h => by
    unfold skip
    split
    · rfl
    · rw [skip_eq_min (Nat.le_of_succ_le_succ h), Nat.add_min_add_right]

/-- What the loop over a page comes to from the `k`-th string on: the strings up to the
`n`-th are tested. -/
structure Comes (page : Page) (err hits k : Nat) (personality : Word) (s : Scanned) (n : Nat) :
    Prop where
  le : k ≤ n
  rounds : s.rounds.map Round.p = (Ico k n).map (head page)
  counted : ∀ j < n, k ≤ j → Counted page err j
  personality : s.personality = namedBy ((Ico k n).map (nth page)) personality
  found : s.found = true → ∃ j, n = j + 1 ∧ k ≤ j ∧ Terminal (nth page j) ∧
    ∀ i < j, k ≤ i → ¬ Terminal (nth page i)
  ended : s.found = false → (∀ j < n, k ≤ j → ¬ Terminal (nth page j)) ∧ ¬ Counted page err n ∧
    s.hits = hits + (((Ico k n).map (nth page)).flatMap matching).length ∧
    ∃ m, (∀ j < m, k ≤ j → Passed page err j) ∧ ¬ Passed page err m ∧ s.start = startOf page m

theorem of_lt_of_le {P : Nat → Prop} {k : Nat} : ∀ j < k, k ≤ j → P j :=
  fun _ hj hk => absurd hj (Nat.not_lt.mpr hk)

theorem forall_from_succ {P : Nat → Prop} {k n : Nat} (hk : P k)
    (h : ∀ j < n, k + 1 ≤ j → P j) : ∀ j < n, k ≤ j → P j := by
  intro j hj hle
  rcases Nat.eq_or_lt_of_le hle with rfl | hlt
  · exact hk
  · exact h j hj hlt

theorem Scans.comes {s : Scanned} (h : Scans page err p count start hits personality s)
    (herr : err ≤ 4096) : ∀ k, p = head page k → count = head page k + k →
      start = startOf page k → ∃ n, Comes page err hits k personality s n := by
  have htest (k hits : Nat) (personality : Word) := tryClues_eq (s := nth page k) coffClues hits
    personality
  induction h with
  | done hcount =>
    rintro k rfl rfl rfl
    refine ⟨k, Nat.le_refl k, by simp, of_lt_of_le, by simp [namedBy, upToTerminal, applyAll],
      nofun, fun _ => ⟨of_lt_of_le, Nat.not_lt.mpr hcount, by simp, k, of_lt_of_le, ?_, rfl⟩⟩
    unfold Passed
    rw [head_succ]
    omega
  | found hcount ht hfound =>
    rintro k rfl rfl rfl
    subst ht
    obtain ⟨hterm, hpers, -⟩ := htest k _ _
    refine ⟨k + 1, Nat.le_succ k, by simp, forall_from_succ hcount of_lt_of_le, ?_,
      fun _ => ⟨k, rfl, Nat.le_refl k, hterm.mp hfound, of_lt_of_le⟩, nofun⟩
    refine hpers.trans ?_
    simp [namedBy, matching]
  | @cut _ _ _ _ c _ _ hcount ht hfound hk hend =>
    rintro k rfl rfl rfl
    subst ht
    obtain ⟨hterm, hpers, hhits⟩ := htest k _ _
    have hskip : skip page (err - (head page k + k)) (head page k) = _ :=
      skip_eq_min (show err - (head page k + k) ≤ 4096 by omega)
    have hnot : ¬ Terminal (nth page k) :=
      fun h => absurd ((hterm.mpr h).symm.trans hfound) (by decide)
    refine ⟨k + 1, Nat.le_succ k, by simp, forall_from_succ hcount of_lt_of_le, ?_, nofun,
      fun _ => ⟨forall_from_succ hnot of_lt_of_le, ?_, ?_, k, of_lt_of_le, ?_, rfl⟩⟩
    · refine hpers.trans ?_
      simp [namedBy, matching]
    · unfold Counted
      rw [head_succ]
      omega
    · refine (hhits hfound).trans ?_
      simp [matching]
    · unfold Passed
      rw [head_succ]
      omega
  | @next _ _ _ _ c _ _ _ hcount ht hfound hk hend _ ih =>
    rintro k rfl rfl rfl
    subst ht
    obtain ⟨hterm, hpers, hhits⟩ := htest k _ _
    have hnot : ¬ Terminal (nth page k) :=
      fun h => absurd ((hterm.mpr h).symm.trans hfound) (by decide)
    have hskip : skip page (err - (head page k + k)) (head page k) = _ :=
      skip_eq_min (show err - (head page k + k) ≤ 4096 by omega)
    have hhead : head page (k + 1) = head page k + c + 1 := by
      rw [head_succ]
      omega
    obtain ⟨n, hn⟩ := ih (k + 1) hhead.symm (by omega) (by rw [startOf, hhead]; omega)
    have hle := hn.le
    have hcons : Ico k n = k :: Ico (k + 1) n := Ico.eq_cons hle
    refine ⟨n, by omega, ?_, forall_from_succ hcount hn.counted, ?_, fun hf => ?_, fun hf => ?_⟩
    · rw [hcons, map_cons, ← hn.rounds]
      rfl
    · rw [hcons, map_cons, ← singleton_append, namedBy_append (by simpa using hnot)]
      refine hn.personality.trans (congrArg _ (hpers.trans ?_))
      simp [namedBy, matching]
    · obtain ⟨j, rfl, hj, hterm', hbefore⟩ := hn.found hf
      exact ⟨j, rfl, by omega, hterm', forall_from_succ hnot hbefore⟩
    · obtain ⟨hall, hcounted, htotal, m, hpassed, hm, hstart⟩ := hn.ended hf
      refine ⟨forall_from_succ hnot hall, hcounted, ?_, m, forall_from_succ ?_ hpassed, hm, hstart⟩
      · rw [hcons, map_cons, flatMap_cons, length_append]
        refine htotal.trans ?_
        rw [show (test page (head page k) _ _).hits = _ from hhits hfound, Nat.add_assoc]
        rfl
      · unfold Passed
        omega

/-! ## The section -/

variable {r : Reader}

/-- A read that is to be made: its number, the page before it, where it starts, how much is left
of the section, and the strings tested so far. -/
structure Stage where
  i : Nat
  page : Page
  offset : Word
  nbytes : Word
  seen : List (List Byte)

namespace Stage

/-- The read gives the bytes `bs`. -/
def Reads (r : Reader) (st : Stage) (bs : List Byte) : Prop :=
  st.nbytes ≠ 0 ∧ 0 < bs.length ∧ r.read st.i st.offset (min 4096 st.nbytes.toNat) = .ok bs

/-- The next read, when `n` strings have been tested and `m` passed. -/
def next (st : Stage) (bs : List Byte) (n m : Nat) : Stage :=
  let page := fill st.page bs
  let start := BitVec.ofNat 32 (advanceOf page bs.length m)
  ⟨st.i + 1, page, st.offset + start, st.nbytes - start, st.seen ++ (range n).map (nth page)⟩

end Stage

/-- In a page without a terminal clue `n` strings are tested and `m` passed. -/
structure Through (page : Page) (err n m : Nat) : Prop where
  tested : ∀ j < n, Counted page err j ∧ ¬ Terminal (nth page j)
  last : ¬ Counted page err n
  passed : ∀ j < m, Passed page err j
  cut : ¬ Passed page err m

/-- From one read to the next. -/
def Advances (r : Reader) (st st' : Stage) : Prop :=
  ∃ bs n m, st.Reads r bs ∧ Through (fill st.page bs) bs.length n m ∧ st' = st.next bs n m

theorem Through.unique {n m n' m' : Nat} (h : Through page err n m) (h' : Through page err n' m') :
    n = n' ∧ m = m' := by
  constructor
  · rcases Nat.lt_trichotomy n n' with hlt | heq | hlt
    · exact absurd (h'.tested n hlt).1 h.last
    · exact heq
    · exact absurd (h.tested n' hlt).1 h'.last
  · rcases Nat.lt_trichotomy m m' with hlt | heq | hlt
    · exact absurd (h'.passed m hlt) h.cut
    · exact heq
    · exact absurd (h.passed m' hlt) h'.cut

/-- The bytes just read decide every string that is tested, and have a zero unless a clue ends
the search. -/
structure PageClosed (page : Page) (bs : List Byte) : Prop where
  strings : ∀ k, IsTested (fill page bs) bs.length k → Closed bs (head (fill page bs) k)
  zero : (∃ k, IsTested (fill page bs) bs.length k ∧ Terminal (nth (fill page bs) k)) ∨ 0 ∈ bs

/-- A pass takes no more off `nbytes` than is left, and is safe exactly if its page is closed. -/
structure Pass.Sound (pass : Pass) (page : Page) (bs : List Byte) : Prop where
  start : pass.start ≤ pass.nbytes.toNat
  known : Known pass.bytes.length pass.rounds ↔ PageClosed page bs

/-- What the loop over the section leaves, from a read on: nothing is left to read,
a read fails or gives nothing, a terminal clue is found, or the section is advanced. -/
inductive Parses (r : Reader) (personality : Word) : Stage → Outcome → Prop where
  | done {st : Stage} (hn : st.nbytes = 0) : Parses r personality st
      ⟨(st.seen.flatMap matching).length, namedBy st.seen personality,
        (st.seen.flatMap matching).length, []⟩
  | failed {st : Stage} {hits : Nat} (hn : st.nbytes ≠ 0) (hread : ∀ bs, ¬ st.Reads r bs) :
    Parses r personality st ⟨0, namedBy st.seen personality, hits, []⟩
  | found {st : Stage} {bs : List Byte} {pass : Pass} {k hits : Nat} (hread : st.Reads r bs)
    (htested : IsTested (fill st.page bs) bs.length k) (hterm : Terminal (nth (fill st.page bs) k))
    (hpass : pass.Sound st.page bs) : Parses r personality st
      ⟨1, namedBy (st.seen ++ (range (k + 1)).map (nth (fill st.page bs))) personality, hits,
        [pass]⟩
  | next {st : Stage} {bs : List Byte} {pass : Pass} {n m : Nat} {o : Outcome}
    (hread : st.Reads r bs) (hthrough : Through (fill st.page bs) bs.length n m)
    (hpass : pass.Sound st.page bs) (hrest : Parses r personality (st.next bs n m) o) :
    Parses r personality st (o.cons pass)

/-- What is taken off `nbytes` is what is left less. -/
theorem nbytes_sub {nbytes : Word} {k : Nat} (h : k ≤ nbytes.toNat) :
    (nbytes - BitVec.ofNat 32 k).toNat = nbytes.toNat - k := by
  have hlt := nbytes.isLt
  have hk : (BitVec.ofNat 32 k).toNat = k := by
    rw [BitVec.toNat_ofNat, Nat.mod_eq_of_lt (Nat.lt_of_le_of_lt h hlt)]
  rw [BitVec.toNat_sub_of_le (by rw [BitVec.le_def, hk]; exact h), hk]

section

variable {s : Scanned} {n : Nat} (h : Comes (fill page bs) bs.length hits 0 personality s n)

include h

/-- The strings before the `n`-th are tested, and no others. -/
theorem Comes.tested_iff (k : Nat) : IsTested (fill page bs) bs.length k ↔ k < n := by
  cases hf : s.found with
  | true =>
    obtain ⟨j, rfl, -, hterm, hbefore⟩ := h.found hf
    refine ⟨fun hk => ?_, fun hk => ⟨h.counted k hk (Nat.zero_le k), fun i hi => ?_⟩⟩
    · by_contra hle
      exact hk.2 j (by omega) hterm
    · exact hbefore i (by omega) (Nat.zero_le i)
  | false =>
    obtain ⟨hall, hlast, -⟩ := h.ended hf
    refine ⟨fun hk => ?_, fun hk => ⟨h.counted k hk (Nat.zero_le k), fun i hi => ?_⟩⟩
    · by_contra hle
      exact hlast (hk.1.of_le (by omega))
    · exact hall i (by omega) (Nat.zero_le i)

theorem Comes.closed_iff :
    ((∀ round ∈ s.rounds, Closed bs round.p) ∧ (s.found = true ∨ 0 ∈ bs)) ↔
      PageClosed page bs := by
  have hrounds : (∀ round ∈ s.rounds, Closed bs round.p) ↔
      ∀ k, IsTested (fill page bs) bs.length k → Closed bs (head (fill page bs) k) := by
    have hmap : (∀ round ∈ s.rounds, Closed bs round.p) ↔
        ∀ q ∈ s.rounds.map Round.p, Closed bs q := by simp
    rw [hmap, h.rounds]
    simp only [h.tested_iff, mem_map, Ico.mem, Nat.zero_le, true_and, forall_exists_index, and_imp,
      forall_apply_eq_imp_iff₂]
  have hfound : s.found = true ↔
      ∃ k, IsTested (fill page bs) bs.length k ∧ Terminal (nth (fill page bs) k) := by
    simp only [h.tested_iff]
    constructor
    · intro hf
      obtain ⟨j, rfl, -, hterm, -⟩ := h.found hf
      exact ⟨j, Nat.lt_succ_self j, hterm⟩
    · rintro ⟨k, hk, hterm⟩
      by_contra hf
      exact (h.ended (Bool.eq_false_iff.mpr hf)).1 k hk (Nat.zero_le k) hterm
  rw [hrounds, hfound]
  exact ⟨fun hc => ⟨hc.1, hc.2⟩, fun hc => ⟨hc.1, hc.2⟩⟩

end

/-- Every page advances the section, so there is fuel enough for all that is left. -/
theorem exists_parses (personality : Word) : ∀ (fuel : Nat) (st : Stage),
    (∀ s ∈ st.seen, ¬ Terminal s) → st.nbytes.toNat < fuel →
    ∃ o, parseFrom r fuel st.i st.page st.offset st.nbytes (st.seen.flatMap matching).length
        (namedBy st.seen personality) = some o ∧ Parses r personality st o := by
  intro fuel
  induction fuel with
  | zero => intro st _ h; exact absurd h (Nat.not_lt_zero _)
  | succ fuel ih =>
    intro st hseen hfuel
    unfold parseFrom
    by_cases hn : st.nbytes = 0
    · exact ⟨_, if_pos hn, .done hn⟩
    rw [if_neg hn]
    have hfails (hno : ∀ bs, 0 < bs.length →
        r.read st.i st.offset (min 4096 st.nbytes.toNat) ≠ .ok bs) : Parses r personality st
        ⟨0, namedBy st.seen personality, (st.seen.flatMap matching).length, []⟩ :=
      .failed hn fun bs h => hno bs h.2.1 h.2.2
    cases hread : r.read st.i st.offset (min 4096 st.nbytes.toNat) with
    | error e => exact ⟨_, rfl, hfails fun bs _ h => by rw [hread] at h; cases h⟩
    | ok bs =>
      have hlen := r.length_le _ _ _ _ hread
      obtain ⟨s, hs, hscans⟩ := exists_scans (fill st.page bs) bs.length (bs.length + 1) 0 0 0
        (st.seen.flatMap matching).length (namedBy st.seen personality) (by omega)
      cases bs with
      | nil =>
        refine ⟨_, rfl, hfails fun bs hpos h => ?_⟩
        obtain rfl := Except.ok.inj (hread.symm.trans h)
        exact Nat.lt_irrefl 0 hpos
      | cons b rest =>
        have hne : 0 < (b :: rest).length := Nat.succ_pos _
        have hreads : st.Reads r (b :: rest) := ⟨hn, hne, hread⟩
        have hbounds := hscans.advance_bounds hne
        obtain ⟨n, hcomes⟩ := hscans.comes (by omega) 0 rfl rfl rfl
        have hpass : (Pass.of st.nbytes (b :: rest) s).Sound st.page (b :: rest) :=
          ⟨show s.advance _ ≤ st.nbytes.toNat by omega,
            (hscans.known_iff (by omega) hne).trans hcomes.closed_iff⟩
        have hpers : s.personality = namedBy (st.seen ++ (range n).map
            (nth (fill st.page (b :: rest)))) personality := by
          rw [namedBy_append hseen, hcomes.personality, Ico.zero_bot]
        cases hfound : s.found with
        | true =>
          obtain ⟨j, rfl, -, hterm, -⟩ := hcomes.found hfound
          refine ⟨_, by simp only [hs, Option.bind_some, hfound, if_true]; rfl, ?_⟩
          rw [hpers]
          exact .found hreads ((hcomes.tested_iff j).mpr (Nat.lt_succ_self j)) hterm hpass
        | false =>
          obtain ⟨hall, hlast, hhits, m, hpassed, hm, hstart⟩ := hcomes.ended hfound
          have hthrough : Through (fill st.page (b :: rest)) (b :: rest).length n m :=
            ⟨fun j hj => ⟨hcomes.counted j hj (Nat.zero_le j), hall j hj (Nat.zero_le j)⟩, hlast,
              fun j hj => hpassed j hj (Nat.zero_le j), hm⟩
          have hadvance : s.advance (b :: rest).length =
              advanceOf (fill st.page (b :: rest)) (b :: rest).length m := by
            rw [Scanned.advance, hstart]
            rfl
          have hseen' : ∀ x ∈ (st.next (b :: rest) n m).seen, ¬ Terminal x := by
            intro x hx
            rcases mem_append.mp hx with hold | hnew
            · exact hseen x hold
            · obtain ⟨j, hj, rfl⟩ := mem_map.mp hnew
              exact hall j (mem_range.mp hj) (Nat.zero_le j)
          obtain ⟨o, ho, hrest⟩ := ih (st.next (b :: rest) n m) hseen' (by
            show (st.nbytes - BitVec.ofNat 32 _).toNat < fuel
            rw [← hadvance, nbytes_sub (by omega)]
            omega)
          have hcount : ((st.next (b :: rest) n m).seen.flatMap matching).length = s.hits := by
            rw [hhits, Ico.zero_bot]
            exact (congrArg length flatMap_append).trans length_append
          rw [hcount, show namedBy (st.next (b :: rest) n m).seen personality = s.personality from
            hpers.symm] at ho
          refine ⟨_, ?_, .next hreads hthrough hpass hrest⟩
          simp only [hs, Option.bind_some, hfound, Bool.false_eq_true, if_false, hadvance]
          exact Option.map_eq_some_iff.mpr ⟨o, ho, rfl⟩

/-- The read is safe: it gives a page that is closed, or it fails before a clue has changed
the personality. -/
def Stage.Safe (r : Reader) (personality : Word) (st : Stage) : Prop :=
  (∀ bs, st.Reads r bs → PageClosed st.page bs) ∧
    (st.nbytes ≠ 0 → (∀ bs, ¬ st.Reads r bs) →
      personality = perScosvr3 ∨ st.seen.flatMap matching = [])

section

variable {st : Stage}

theorem Stage.Reads.unique {bs bs' : List Byte} (h : st.Reads r bs) (h' : st.Reads r bs') :
    bs = bs' :=
  Except.ok.inj (h.2.2.symm.trans h'.2.2)

/-- Nothing is read behind a read that ends the search. -/
theorem reach_last {st' : Stage} (hend : ∀ st₁, ¬ Advances r st st₁) :
    Relation.ReflTransGen (Advances r) st st' ↔ st' = st := by
  rw [Relation.ReflTransGen.cases_head_iff]
  refine ⟨fun h => ?_, fun h => .inl h.symm⟩
  rcases h with heq | ⟨st₁, hstep, -⟩
  · exact heq.symm
  · exact absurd hstep (hend st₁)

theorem reach_next {st' : Stage} {bs : List Byte} {n m : Nat} (hread : st.Reads r bs)
    (hthrough : Through (fill st.page bs) bs.length n m) :
    Relation.ReflTransGen (Advances r) st st' ↔
      st' = st ∨ Relation.ReflTransGen (Advances r) (st.next bs n m) st' := by
  rw [Relation.ReflTransGen.cases_head_iff]
  refine or_congr eq_comm ⟨?_, fun h => ⟨_, ⟨bs, n, m, hread, hthrough, rfl⟩, h⟩⟩
  rintro ⟨-, ⟨bs', n', m', hread', hthrough', rfl⟩, h⟩
  obtain rfl := hread.unique hread'
  obtain ⟨rfl, rfl⟩ := hthrough.unique hthrough'
  exact h

theorem not_advances_of_found {bs : List Byte} {k : Nat} (hread : st.Reads r bs)
    (htested : IsTested (fill st.page bs) bs.length k) (hterm : Terminal (nth (fill st.page bs) k))
    (st₁ : Stage) : ¬ Advances r st st₁ := by
  rintro ⟨bs', n, m, hread', hthrough, -⟩
  obtain rfl := hread.unique hread'
  have hlt : k < n := by
    by_contra hle
    exact hthrough.last (htested.1.of_le (by omega))
  exact (hthrough.tested k hlt).2 hterm

end

/-- The search keeps to its page and to the caller's variable. -/
structure StaysInPage (personality : Word) (o : Outcome) : Prop where
  /-- `nbytes` never goes below zero. -/
  noUnderflow : ∀ pass ∈ o.passes, pass.start ≤ pass.nbytes.toNat
  /-- Every byte looked at was stored by the read before, or is the terminator. -/
  known : ∀ pass ∈ o.passes, Known pass.bytes.length pass.rounds
  unchanged : o.ret = 0 → o.personality = personality

theorem staysInPage_cons {personality : Word} {pass : Pass} {bs : List Byte} {o : Outcome}
    (hpass : pass.Sound page bs) :
    StaysInPage personality (o.cons pass) ↔ PageClosed page bs ∧ StaysInPage personality o := by
  rw [← hpass.known]
  constructor
  · rintro ⟨hno, hknown, hun⟩
    obtain ⟨-, hno'⟩ := forall_mem_cons.mp hno
    obtain ⟨hfirst, hknown'⟩ := forall_mem_cons.mp hknown
    exact ⟨hfirst, hno', hknown', hun⟩
  · rintro ⟨hfirst, hno, hknown, hun⟩
    exact ⟨forall_mem_cons.mpr ⟨hpass.start, hno⟩, forall_mem_cons.mpr ⟨hfirst, hknown⟩, hun⟩

theorem Parses.staysInPage_iff {personality : Word} {st : Stage} {o : Outcome}
    (h : Parses r personality st o) : (∀ s ∈ st.seen, ¬ Terminal s) →
    (StaysInPage personality o ↔
      ∀ st', Relation.ReflTransGen (Advances r) st st' → st'.Safe r personality) := by
  induction h with
  | @done st hn =>
    intro hseen
    have hno (bs : List Byte) : ¬ st.Reads r bs := fun h => h.1 hn
    refine iff_of_true ⟨nofun, nofun, fun hret => ?_⟩ fun st' hst' => ?_
    · exact (namedBy_eq_self_iff hseen personality).mpr (.inr (length_eq_zero_iff.mp hret))
    · obtain rfl := (reach_last fun _ ⟨bs, _, _, h, _⟩ => hno bs h).mp hst'
      exact ⟨fun bs h => absurd h (hno bs), fun h => absurd hn h⟩
  | @failed st hits hn hno =>
    intro hseen
    simp only [reach_last fun _ ⟨bs, _, _, h, _⟩ => hno bs h, forall_eq]
    constructor
    · intro hstays
      exact ⟨fun bs h => absurd h (hno bs),
        fun _ _ => (namedBy_eq_self_iff hseen personality).mp (hstays.unchanged rfl)⟩
    · intro hsafe
      exact ⟨nofun, nofun, fun _ => (namedBy_eq_self_iff hseen personality).mpr (hsafe.2 hn hno)⟩
  | @found st bs pass k hits hread htested hterm hpass =>
    intro _
    simp only [reach_last (not_advances_of_found hread htested hterm), forall_eq]
    refine (staysInPage_cons (o := ⟨1, _, _, []⟩) hpass).trans ?_
    refine (and_iff_left ⟨nofun, nofun, nofun⟩).trans
      ⟨fun hclosed => ⟨fun bs' h => ?_, fun _ h => ?_⟩, fun h => h.1 bs hread⟩
    · exact hread.unique h ▸ hclosed
    · exact absurd hread (h bs)
  | @next st bs pass n m o hread hthrough hpass _ ih =>
    intro hseen
    have hseen' : ∀ x ∈ (st.next bs n m).seen, ¬ Terminal x := by
      intro x hx
      rcases mem_append.mp hx with hold | hnew
      · exact hseen x hold
      · obtain ⟨j, hj, rfl⟩ := mem_map.mp hnew
        exact (hthrough.tested j (mem_range.mp hj)).2
    rw [staysInPage_cons hpass, ih hseen']
    simp only [reach_next hread hthrough, forall_eq_or_imp]
    refine and_congr_left' ⟨fun hclosed => ⟨fun bs' h => ?_, fun _ h => ?_⟩, fun h => h.1 bs hread⟩
    · exact hread.unique h ▸ hclosed
    · exact absurd hread (h bs)

theorem limit_le (sect : Coff.Scnhdr) : (limit sect).toNat ≤ 8192 := by
  unfold limit
  split
  · exact Nat.le_refl _
  next h => exact Nat.le_of_not_lt h

/-- The first read of a section. -/
def Stage.first (page : Page) (sect : Coff.Scnhdr) : Stage :=
  ⟨0, page, sect.sScnptr, limit sect, []⟩

/-- The search ends after at most 8192 pages. -/
theorem exists_coffParseComments (r : Reader) (page : Page) (sect : Coff.Scnhdr)
    (personality : Word) (fuel : Nat) :
    ∃ o, coffParseComments r (some page) sect personality (8193 + fuel) = some o ∧
      Parses r personality (.first page sect) o := by
  have hlimit := limit_le sect
  exact exists_parses personality (8193 + fuel) (.first page sect) nofun
    (show (limit sect).toNat < _ by omega)

/-- **The search ends** whatever the reads give, and it keeps to its page and to the caller's
variable exactly if every read that is made gives a closed page, or fails before a clue has
changed the personality. -/
theorem comment_scan_stays_iff (r : Reader) (page : Option Page) (sect : Coff.Scnhdr)
    (personality : Word) (fuel : Nat) :
    ∃ o, coffParseComments r page sect personality (8193 + fuel) = some o ∧
      (StaysInPage personality o ↔ ∀ pg, page = some pg → ∀ st,
        Relation.ReflTransGen (Advances r) (.first pg sect) st → st.Safe r personality) := by
  cases page with
  | none => exact ⟨_, rfl, iff_of_true ⟨nofun, nofun, fun _ => rfl⟩ nofun⟩
  | some page =>
    obtain ⟨o, ho, hparses⟩ := exists_coffParseComments r page sect personality fuel
    refine ⟨o, ho, (hparses.staysInPage_iff nofun).trans ?_⟩
    exact ⟨fun h pg hpg => Option.some.inj hpg ▸ h, fun h => h page rfl⟩

/-- Reads that give one answer after the other, cut to the length asked for. -/
def Reader.ofList (answers : List (Except Int (List Byte))) : Reader where
  read i _ count := (answers.getD i (.error (-5))).map (·.take count)
  length_le := by
    intro i offset count bs h
    cases hanswer : answers.getD i (.error (-5)) with
    | error e => rw [hanswer] at h; cases h
    | ok xs =>
      rw [hanswer] at h
      cases h
      exact List.length_take_le ..

/-- What a read of the name of SCO's start file gives. -/
def crt1Source : List Byte := ascii "@(#) crt1.s.source 20.1 94/12/04" ++ [0]

/-- A section of one byte that is no zero makes the search look at the byte behind it. A
section whose first read ends behind the name of SCO's start file and whose second read
fails makes it return zero with the personality changed. -/
theorem comment_scan_runs_on :
    (∃ o, coffParseComments (.ofList [.ok [0x78]]) (some fun _ => 0) ⟨0, 1, 0, 0x200⟩ 0 8193 =
        some o ∧ ¬ StaysInPage 0 o) ∧
    ∃ o, coffParseComments (.ofList [.ok crt1Source, .error (-5)]) (some fun _ => 0)
        ⟨0, 100, 0, 0x200⟩ 0 8193 = some o ∧ ¬ StaysInPage 0 o := by
  constructor
  · have hrun : (coffParseComments (.ofList [.ok [0x78]]) (some fun _ => 0) ⟨0, 1, 0, 0x200⟩ 0
        8193).map (fun o => decide (∀ pass ∈ o.passes, ∀ round ∈ pass.rounds,
          ∀ l ∈ round.looks, l.Known pass.bytes.length)) = some false := by
      decide
    obtain ⟨o, ho, hfalse⟩ := Option.map_eq_some_iff.mp hrun
    exact ⟨o, ho, fun h => of_decide_eq_false hfalse h.known⟩
  · have hrun : (coffParseComments (.ofList [.ok crt1Source, .error (-5)]) (some fun _ => 0)
        ⟨0, 100, 0, 0x200⟩ 0 8193).map (fun o => (o.ret, o.personality)) =
        some (0, perScosvr3) := by
      decide
    obtain ⟨o, ho, hmap⟩ := Option.map_eq_some_iff.mp hrun
    obtain ⟨hret, hpers⟩ := Prod.mk.inj hmap
    refine ⟨o, ho, fun h => ?_⟩
    rw [h.unchanged hret] at hpers
    exact nomatch hpers

end AbiEmu.Binfmt.Comments
