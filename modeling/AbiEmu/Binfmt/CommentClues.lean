import AbiEmu.Binfmt.CommentScan

/-!
# Which clues the comment scan finds

A comment section is a sequence of strings, each of which may match clues of the table.
What the section says about the personality is the effect of the matching clues in
order, up to the first terminal one (`namedBy`). `coff_parse_comments` computes this for
the strings it gets to.

Which strings are these? Behind each string the counter gains one on the pointer, so the
loop over a page leaves as many bytes at the end of the page unseen as it has passed
strings. What is read next starts where the counter stood, which is behind the string
that should be next. `comment_clue_found_iff` follows the reads and says when the search
ends with what the section says all the same: at a terminal clue, or at the end of the section
after a single clue that is not terminal, since the number of those is then returned.
-/

namespace AbiEmu.Binfmt.Comments

open List Relation

/-! ## What is found -/

/-- The first string of a section that matches a terminal clue, and those before it. -/
structure FirstTerminal (sect : List Byte) (before : List (List Byte)) (s : List Byte) : Prop where
  strings : ∃ after, cstrings sect = before ++ s :: after
  before : ∀ b ∈ before, ¬ Terminal b
  terminal : Terminal s

/-- The function returns one, with the personality that the strings up to the first with a
terminal clue lead to. -/
def FindsFirst (sect : List Byte) (personality : Word) (o : Outcome) : Prop :=
  ∀ before s, FirstTerminal sect before s →
    o.ret = 1 ∧ o.personality = namedBy (before ++ [s]) personality

/-- The search ends here with the personality `w`: at a terminal clue, or at the end of the
section after one clue that is not terminal. -/
def Stage.Finds (r : Reader) (personality w : Word) (st : Stage) : Prop :=
  (∃ bs k, st.Reads r bs ∧ IsTested (fill st.page bs) bs.length k ∧
    Terminal (nth (fill st.page bs) k) ∧
    namedBy (st.seen ++ (range (k + 1)).map (nth (fill st.page bs))) personality = w) ∨
  (st.nbytes = 0 ∧ (st.seen.flatMap matching).length = 1 ∧ namedBy st.seen personality = w)

variable {r : Reader}

theorem Parses.finds_iff {personality : Word} {st : Stage} {o : Outcome}
    (h : Parses r personality st o) (w : Word) :
    (o.ret = 1 ∧ o.personality = w) ↔
      ∃ st', ReflTransGen (Advances r) st st' ∧ st'.Finds r personality w := by
  induction h with
  | @done st hn =>
    have hno (bs : List Byte) : ¬ st.Reads r bs := fun h => h.1 hn
    simp only [reach_last fun _ ⟨bs, _, _, h, _⟩ => hno bs h, exists_eq_left]
    refine ⟨fun h => .inr ⟨hn, h⟩, ?_⟩
    rintro (⟨bs, -, h, -⟩ | ⟨-, h⟩)
    · exact absurd h (hno bs)
    · exact h
  | @failed st hits hn hno =>
    simp only [reach_last fun _ ⟨bs, _, _, h, _⟩ => hno bs h, exists_eq_left]
    refine iff_of_false (fun h => absurd h.1 (by decide : (0 : Nat) ≠ 1)) ?_
    rintro (⟨bs, -, h, -⟩ | ⟨hzero, -⟩)
    · exact hno bs h
    · exact hn hzero
  | @found st bs pass k hits hread htested hterm hpass =>
    simp only [reach_last (not_advances_of_found hread htested hterm), exists_eq_left]
    refine ⟨fun h => .inl ⟨bs, k, hread, htested, hterm, h.2⟩, ?_⟩
    rintro (⟨bs', k', hread', htested', hterm', hw⟩ | ⟨hzero, -⟩)
    · obtain rfl := hread.unique hread'
      -- only the last string tested is terminal
      have hk : k = k' := by
        rcases Nat.lt_trichotomy k k' with hlt | heq | hlt
        · exact absurd hterm (htested'.2 k hlt)
        · exact heq
        · exact absurd hterm' (htested.2 k' hlt)
      subst hk
      exact ⟨trivial, hw⟩
    · exact absurd hzero hread.1
  | @next st bs pass n m o hread hthrough hpass _ ih =>
    refine ih.trans ?_
    simp only [reach_next hread hthrough, or_and_right, exists_or, exists_eq_left]
    refine (or_iff_right ?_).symm
    rintro (⟨bs', k, hread', htested, hterm, -⟩ | ⟨hzero, -⟩)
    · refine not_advances_of_found hread' htested hterm _ ⟨bs, n, m, hread, hthrough, rfl⟩
    · exact hread.1 hzero

/-! ## Complete reads -/

/-- The reads return all bytes asked for, out of the bytes of the section at `offset`. -/
def Reader.Complete (r : Reader) (offset : Word) (sect : List Byte) : Prop :=
  ∀ i k count, k + count ≤ sect.length →
    r.read i (offset + BitVec.ofNat 32 k) count = .ok ((sect.drop k).take count)

/-- A file of which the bytes at `offset` can be read. -/
def Reader.ofBytes (offset : Word) (sect : List Byte) : Reader where
  read _ start count := .ok ((sect.drop (start - offset).toNat).take count)
  length_le := by
    intro i start count bs h
    cases h
    exact List.length_take_le ..

theorem complete_ofBytes {offset : Word} {sect : List Byte} (h : sect.length < 2 ^ 32) :
    (Reader.ofBytes offset sect).Complete offset sect := by
  intro i k count hk
  have hoff : (offset + BitVec.ofNat 32 k - offset).toNat = k := by
    rw [BitVec.add_comm, BitVec.add_sub_cancel, BitVec.toNat_ofNat, Nat.mod_eq_of_lt (by omega)]
  show Except.ok _ = _
  rw [hoff]

/-- Reads that are complete give the bytes of the section. -/
theorem Parses.ofBytes {offset personality : Word} {sect : List Byte}
    (hr : r.Complete offset sect) (hsize : sect.length < 2 ^ 32) {st : Stage} {o : Outcome}
    (h : Parses r personality st o) : ∀ k, st.offset = offset + BitVec.ofNat 32 k →
      k + st.nbytes.toNat = sect.length → Parses (.ofBytes offset sect) personality st o := by
  have hreads {st : Stage} {k : Nat} (hoff : st.offset = offset + BitVec.ofNat 32 k)
      (hk : k + st.nbytes.toNat = sect.length) (bs : List Byte) :
      st.Reads r bs ↔ st.Reads (.ofBytes offset sect) bs := by
    unfold Stage.Reads
    rw [hoff, hr _ _ _ (by omega), complete_ofBytes hsize _ _ _ (by omega)]
  induction h with
  | done hn => exact fun _ _ _ => .done hn
  | failed hn hno =>
    exact fun k hoff hk => .failed hn fun bs h => hno bs ((hreads hoff hk bs).mpr h)
  | found hread htested hterm hpass =>
    exact fun k hoff hk => .found ((hreads hoff hk _).mp hread) htested hterm hpass
  | @next st bs pass n m o hread hthrough hpass _ ih =>
    intro k hoff hk
    have hlen := r.length_le _ _ _ _ hread.2.2
    have hstart : startOf (fill st.page bs) m ≤ bs.length := by
      cases m with
      | zero => exact Nat.zero_le _
      | succ m => exact hthrough.passed m (Nat.lt_succ_self m)
    have hle : advanceOf (fill st.page bs) bs.length m ≤ st.nbytes.toNat := by
      unfold advanceOf
      split <;> omega
    refine .next ((hreads hoff hk _).mp hread) hthrough hpass
      (ih (k + advanceOf (fill st.page bs) bs.length m) ?_ ?_)
    · show st.offset + BitVec.ofNat 32 _ = _
      rw [hoff, BitVec.add_assoc, ← BitVec.ofNat_add]
    · show _ + (st.nbytes - BitVec.ofNat 32 _).toNat = _
      rw [nbytes_sub hle]
      omega

/-- The name of another system, and then that of Interactive's. -/
def interactive : List Byte := ascii "AIX" ++ 0 :: (ascii "INTERACTIVE" ++ [0])

/-- The same name behind twelve empty strings. -/
def padded : List Byte := List.replicate 12 0 ++ (ascii "INTERACTIVE" ++ [0])

end AbiEmu.Binfmt.Comments
