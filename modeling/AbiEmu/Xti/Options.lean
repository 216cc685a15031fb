import AbiEmu.Xti.OptRounds

/-!
# Where the option loop reads

A `T_OPTMGMT_REQ` carries a buffer of options: a header of three words, the last of
them the length of the value, and then the value. The loop in `timod_optmgmt` walks
over them. It should read nothing but the buffer, `OPT_length` bytes from `opt_buf`
on, and come to an end.

`Round.accesses` is what a round of the loop looks at: the header, the word behind it
when `STREAMS` calls are traced, and the value it hands to `setsockopt`. `Stays` says
that all of this lies in the request.

The loop keeps the promise only for requests that keep a few of their own.

* The loop compares the remaining length with the header size as unsigned numbers, so
  a negative length starts it, and it looks at whatever `opt_buf` is, null included.
* An option is taken if its value fits into the remaining length, header and all; with
  the header taken off, the value may end up to twelve bytes behind the buffer, and the
  next remaining length is negative.
* A negative option length moves the cursor back, in front of the buffer or to bytes
  that were looked at before. With `-12` it stays where it is; the loop then meets the
  header again, with the length `getsockopt` reported written into it or, if the buffer
  cannot be written, as it was, and so without end.

`options_stay_iff` says that nothing else goes wrong.
-/

namespace AbiEmu.Xti

variable {s : Sys}

theorem timodOptmgmt_ends_of_rounds {e : Env} {fd flag optBuf optLen : Word} {doRet : Bool}
    (h : (optmgmtRounds e fd flag optBuf optLen doRet s).length < e.rounds) :
    ∃ x, timodOptmgmt e fd flag optBuf optLen doRet s = .ok x := by
  have hspaceEq : 1024 + optLen + 8 * (optLen / 12) = retSpace optLen := rfl
  unfold timodOptmgmt
  rw [hspaceEq]
  by_cases hread : optBuf ≠ 0 ∧ 0 < optLen.toInt ∧ ¬ e.verify false optBuf optLen.toInt = true
  · rw [if_pos hread]
    exact ⟨_, rfl⟩
  rw [if_neg hread]
  split_ifs with hnone
  · exact ⟨_, rfl⟩
  by_cases hspace : e.verify true (s.esp - retSpace optLen - 24) 24 = true
  · rw [if_neg (not_not.mpr hspace)]
    rw [optmgmtRounds, if_pos ⟨hread, hnone, hspace⟩] at h
    obtain ⟨x, hx⟩ := optLoop_ends h
    rw [hx]
    cases x with
    | fault t | done failed error retLen t => exact ⟨_, rfl⟩
  · rw [if_pos hspace]
    exact ⟨_, rfl⟩

/-! ## What a round looks at -/

/-- Bytes of user memory, from `addr` on; a negative number of bytes is none. -/
structure Access where
  addr : Word
  len : Int
  deriving DecidableEq, Repr

/-- The access lies in the request. -/
def Access.Inside (a : Access) (optBuf optLen : Word) : Prop :=
  0 < a.len → ((a.addr - optBuf).toNat : Int) + a.len ≤ optLen.toInt

namespace Round

variable (e : Env) (fd flag tsp : Word) (traced : Bool) (r : Round)

/-- The value is handed to `setsockopt`. -/
def Negotiated : Prop := r.Taken e ∧ e.verify true r.opt.retBuf 12 = true ∧ flag = T_NEGOTIATE
  deriving Decidable

/-- The accesses of a round. -/
def accesses : List Access :=
  ⟨r.opt.optBuf, 12⟩ ::
    ((if r.Taken e ∧ traced = true then [⟨r.opt.optBuf + 12, 4⟩] else []) ++
      (if r.Negotiated e flag then [⟨r.opt.optBuf + 12, r.len⟩] else []))

/-- What is left of the request behind the option. -/
def rest : Int := r.opt.optLen.toInt - (r.len + 12)

/-- The option fits into a request of `total` bytes: there is a word for the trace to
show, the value ends in the request, the loop goes on inside it and, if this is the last
header there is room for, not to another one. -/
def Fits (total : Int) : Prop :=
  (r.Taken e → traced = true → 16 ≤ r.opt.optLen.toInt) ∧
    (r.Negotiated e flag → 0 ≤ r.rest) ∧
    (r.GoesOn e fd flag tsp →
      (0 ≤ r.rest ∧ r.rest ≤ total) ∧ (total / 12 ≤ r.index + 1 → r.rest < 12))
  deriving Decidable

end Round

/-- The loop stays in the request: it looks at nothing else, it does not look at a null
buffer or at one too short for a header, and it has no more rounds than headers fit. -/
structure Stays (e : Env) (traced : Bool) (flag optBuf optLen : Word) (rs : List Round) :
    Prop where
  inside : ∀ r ∈ rs, ∀ a ∈ r.accesses e flag traced, a.Inside optBuf optLen
  quiet : optBuf = 0 ∨ optLen.toInt < 12 → rs = []
  count : (rs.length : Int) ≤ max 0 (optLen.toInt / 12)

/-! ## The cursor -/

/-- The cursor is `k` bytes into a request of `total` bytes at `buf`. -/
structure At (buf : Word) (total k : Nat) (o : OptState) : Prop where
  optBuf : o.optBuf = buf + BitVec.ofNat 32 k
  optLen : o.optLen = BitVec.ofNat 32 (total - k)
  le : k ≤ total

variable {n : Nat}

theorem sub_toNat_of_add (buf : Word) (hn : n < 2 ^ 32) :
    (buf + BitVec.ofNat 32 n - buf).toNat = n := by
  rw [BitVec.add_comm, BitVec.add_sub_cancel, BitVec.toNat_ofNat, Nat.mod_eq_of_lt hn]

variable {w : Word}

theorem toNat_lt_of_toInt (h : 0 ≤ w.toInt) : w.toNat < 2 ^ 31 := by
  rw [BitVec.toInt_eq_toNat_cond] at h
  by_cases hlt : 2 * w.toNat < 2 ^ 32
  · omega
  · omega

section Cursor

variable {e : Env} {fd flag tsp buf : Word} {traced : Bool} {total k : Nat} {o : OptState}

section

variable (h : At buf total k o) (ht : total < 2 ^ 31)

include h ht

theorem At.toInt : o.optLen.toInt = (total : Int) - k := by
  have hle := h.le
  rw [h.optLen, Word.toInt_ofNat (by omega)]
  omega

theorem At.toNat : o.optLen.toNat = total - k := by
  rw [h.optLen, BitVec.toNat_ofNat, Nat.mod_eq_of_lt (by omega)]

/-- An access `j` bytes behind the cursor. -/
theorem At.inside_iff {j : Nat} (hj : j < 2 ^ 31) (len : Int) :
    Access.Inside ⟨o.optBuf + BitVec.ofNat 32 j, len⟩ buf (BitVec.ofNat 32 total) ↔
      (0 < len → (j : Int) + len ≤ total - k) := by
  have hle := h.le
  have hoff : (o.optBuf + BitVec.ofNat 32 j - buf).toNat = k + j := by
    rw [h.optBuf, add_ofNat_add, sub_toNat_of_add _ (by omega)]
  unfold Access.Inside
  dsimp only
  rw [hoff, Word.toInt_ofNat ht]
  refine imp_congr_right fun _ => ?_
  omega

end

/-- What the accesses of a round ask of its option. -/
theorem Round.inside_iff {r : Round} (h : At buf total k r.opt) (ht : total < 2 ^ 31)
    (hlong : k + 12 ≤ total) :
    (∀ a ∈ r.accesses e flag traced, a.Inside buf (BitVec.ofNat 32 total)) ↔
      (r.Taken e → traced = true → 16 ≤ r.opt.optLen.toInt) ∧
        (r.Negotiated e flag → 0 ≤ r.rest) := by
  have hheader : Access.Inside ⟨r.opt.optBuf, 12⟩ buf (BitVec.ofNat 32 total) := by
    have := (h.inside_iff ht (j := 0) (by omega) 12).mpr (by omega)
    rwa [show r.opt.optBuf + BitVec.ofNat 32 0 = r.opt.optBuf by simp] at this
  have hpeek := h.inside_iff ht (j := 12) (by omega) 4
  have hvalue := h.inside_iff ht (j := 12) (by omega) r.len
  have hremaining := h.toInt ht
  unfold Round.accesses
  rw [List.forall_mem_cons, List.forall_mem_append]
  refine (and_iff_right hheader).trans (and_congr ?_ ?_)
  · split_ifs with htr
    · rw [List.forall_mem_singleton, hremaining]
      refine hpeek.trans ?_
      constructor
      · intro h4 _ _
        omega
      · intro h16 _
        have := h16 htr.1 htr.2
        omega
    · exact iff_of_true (by simp) fun h1 h2 => absurd ⟨h1, h2⟩ htr
  · split_ifs with hn
    · rw [List.forall_mem_singleton, Round.rest, hremaining]
      refine hvalue.trans ?_
      constructor
      · intro hv _
        by_cases hpos : 0 < r.len
        all_goals omega
      · intro hv _
        have := hv hn
        omega
    · exact iff_of_true (by simp) fun h1 => absurd h1 hn

variable {x : OptState × Sys} {i : Nat}

/-- The cursor after a round, wherever that is. -/
theorem At.step (h : At buf total k o) (hround : optRound e fd flag tsp i o s = .inr x) :
    x.1.optBuf = buf + BitVec.ofInt 32 (k + (Round.len ⟨i, o, s⟩ + 12)) ∧
      x.1.optLen = BitVec.ofInt 32 (total - k - (Round.len ⟨i, o, s⟩ + 12)) := by
  have hnext := (Round.goesOn_of_inr (r := ⟨i, o, s⟩) hround).2
  have hstep : 12 + Round.lenWord ⟨i, o, s⟩ = BitVec.ofInt 32 (Round.len ⟨i, o, s⟩ + 12) := by
    rw [BitVec.add_comm, BitVec.ofInt_add, Round.len, BitVec.ofInt_toInt]
    rfl
  constructor
  · refine (congrArg OptState.optBuf hnext).trans ?_
    show o.optBuf + (12 + Round.lenWord ⟨i, o, s⟩) = _
    rw [hstep, h.optBuf, BitVec.add_assoc, ← BitVec.ofInt_natCast, ← BitVec.ofInt_add]
  · refine (congrArg OptState.optLen hnext).trans ?_
    show o.optLen - (12 + Round.lenWord ⟨i, o, s⟩) = _
    rw [hstep, h.optLen, BitVec.sub_eq_iff_eq_add, ← BitVec.ofInt_natCast, ← BitVec.ofInt_add,
      Int.sub_add_cancel, Int.ofNat_sub h.le]

theorem Round.len_bounds (r : Round) : -2 ^ 31 ≤ r.len ∧ r.len < 2 ^ 31 := by
  have hle := BitVec.le_toInt (r.sys.mem.word (r.opt.optBuf + 8))
  have hlt := BitVec.toInt_lt (x := r.sys.mem.word (r.opt.optBuf + 8))
  exact ⟨hle, hlt⟩

/-- The cursor after a round that stays in the request. -/
theorem At.next (h : At buf total k o) (ht : total < 2 ^ 31)
    (hround : optRound e fd flag tsp i o s = .inr x)
    (hrest : 0 ≤ Round.rest ⟨i, o, s⟩ ∧ Round.rest ⟨i, o, s⟩ ≤ total) :
    At buf total (total - (Round.rest ⟨i, o, s⟩).toNat) x.1 := by
  obtain ⟨hbuf, hrem⟩ := h.step hround
  have hleft : Round.rest ⟨i, o, s⟩ = (total : Int) - k - (Round.len ⟨i, o, s⟩ + 12) :=
    congrArg (· - _) (h.toInt ht)
  refine ⟨hbuf.trans ?_, hrem.trans ?_, Nat.sub_le ..⟩
  · rw [← BitVec.ofInt_natCast]
    congr 2
    omega
  · rw [← BitVec.ofInt_natCast]
    congr 1
    omega

/-- A round that leaves the request sends the loop to a header outside it. -/
theorem rounds_outside (traced : Bool) {n : Nat} (h : At buf total k o) (ht : total < 2 ^ 31)
    (hlong : k + 12 ≤ total) (hround : optRound e fd flag tsp i o s = .inr x)
    (hout : ¬ (0 ≤ Round.rest ⟨i, o, s⟩ ∧ Round.rest ⟨i, o, s⟩ ≤ total)) :
    ∃ r ∈ optRounds e fd flag tsp (n + 1) (i + 1) x.1 x.2, ∃ a ∈ r.accesses e flag traced,
      ¬ a.Inside buf (BitVec.ofNat 32 total) := by
  obtain ⟨hbuf, hrem⟩ := h.step hround
  have hle := (Round.goesOn_of_inr (r := ⟨i, o, s⟩) hround).1.1.1.1.2
  have hremaining := h.toInt ht
  have hbounds := Round.len_bounds ⟨i, o, s⟩
  unfold Round.rest at hout
  dsimp only at hle hout
  rw [hremaining] at hle hout
  have hlen : ¬ x.1.optLen.toNat < 12 := by
    rw [hrem, BitVec.toNat_ofInt]
    omega
  rw [optRounds, if_neg hlen]
  refine ⟨⟨i + 1, x.1, x.2⟩, List.mem_cons_self .., ⟨x.1.optBuf, 12⟩, List.mem_cons_self .., ?_⟩
  intro hin
  have hin : ((x.1.optBuf - buf).toNat : Int) + 12 ≤ (BitVec.ofNat 32 total).toInt :=
    hin (show (0 : Int) < 12 by omega)
  rw [hbuf, BitVec.add_comm, BitVec.add_sub_cancel, BitVec.toNat_ofInt, Word.toInt_ofNat ht] at hin
  omega

/-- A length too short for a header starts no round. -/
theorem optRounds_of_short {n : Nat} (h : o.optLen.toNat < 12) :
    optRounds e fd flag tsp n i o s = [] := by
  cases n with
  | zero => rfl
  | succ n => rw [optRounds, if_pos h]

/-- A length that is long enough as an unsigned number starts one. -/
theorem optRounds_ne_nil {n : Nat} (hn : n ≠ 0) (h : 12 ≤ o.optLen.toNat) :
    optRounds e fd flag tsp n i o s ≠ [] := by
  obtain ⟨m, rfl⟩ := Nat.exists_eq_succ_of_ne_zero hn
  rw [optRounds, if_neg (Nat.not_lt.mpr h)]
  exact List.cons_ne_nil _ _

/-- The run: the accesses are inside and the rounds as few as the headers that fit exactly
if all options fit. The fuel is enough for one round more than there should be. -/
theorem rounds_stay_iff (traced : Bool) (ht : total < 2 ^ 31) :
    ∀ {n m i k : Nat} {o : OptState} {s : Sys}, At buf total k o → m + 2 ≤ n →
      i + m + 1 = total / 12 →
      ((∀ r ∈ optRounds e fd flag tsp n i o s, ∀ a ∈ r.accesses e flag traced,
          a.Inside buf (BitVec.ofNat 32 total)) ∧
        (optRounds e fd flag tsp n i o s).length ≤ m + 1 ↔
        ∀ r ∈ optRounds e fd flag tsp n i o s, r.Fits e fd flag tsp traced total) := by
  intro n
  induction n with
  | zero => intro m i k o s _ hn; exact absurd hn (by omega)
  | succ n ih =>
    intro m i k o s h hn hm
    rw [optRounds]
    split_ifs with hshort
    · simp
    rw [h.toNat ht] at hshort
    have hlong : k + 12 ≤ total := by omega
    have hinside : (∀ a ∈ Round.accesses e flag traced ⟨i, o, s⟩, a.Inside buf _) ↔ _ :=
      Round.inside_iff h ht hlong
    rw [List.forall_mem_cons, List.forall_mem_cons, hinside, List.length_cons, Round.Fits]
    cases hround : optRound e fd flag tsp i o s with
    | inl y =>
      -- the loop ends here
      have hends := (Round.leaves_of_inl (r := ⟨i, o, s⟩) hround).2
      simp [hends]
    | inr x =>
      have hon := (Round.goesOn_of_inr (r := ⟨i, o, s⟩) hround).1
      dsimp only
      by_cases hrest : 0 ≤ Round.rest ⟨i, o, s⟩ ∧ Round.rest ⟨i, o, s⟩ ≤ total
      · have hnext := h.next ht hround hrest
        have hleft := hnext.toNat ht
        cases m with
        | succ m =>
          have hmore : ¬ (total : Int) / 12 ≤ (i : Int) + 1 := by omega
          rw [← ih (m := m) hnext (by omega) (by omega)]
          simp [hon, hrest, hmore, and_assoc]
        | zero =>
          -- no further header is allowed
          have hlast : (total : Int) / 12 ≤ (i : Int) + 1 := by omega
          by_cases hfew : Round.rest ⟨i, o, s⟩ < 12
          · rw [optRounds_of_short (by omega)]
            simp [hrest, hfew]
          · refine iff_of_false (fun hall => ?_) fun hall => hfew ((hall.1.2.2 hon).2 hlast)
            have hsome : optRounds e fd flag tsp n (i + 1) x.1 x.2 ≠ [] :=
              optRounds_ne_nil (by omega) (by omega)
            have := List.length_pos_iff.mpr hsome
            have := hall.2
            omega
      · obtain ⟨n, rfl⟩ : ∃ l, n = l + 1 := ⟨n - 1, by omega⟩
        obtain ⟨r, hr, a, ha, hout⟩ := rounds_outside (n := n) traced h ht hlong hround hrest
        exact iff_of_false (fun hall => hout (hall.1.2 r hr a ha))
          fun hall => hrest (hall.1.2.2 hon).1

end Cursor

/-- The request gives the loop no length it takes for a huge one and, if there is
something to read, a place to read it. -/
def Presented (e : Env) (optBuf optLen : Word) (doRet : Bool) (s : Sys) : Prop :=
  optBorrows e optBuf optLen doRet s → 12 ≤ optLen.toNat → optBuf ≠ 0 ∧ 0 ≤ optLen.toInt

/-- A call without rounds stays in any request. -/
theorem Stays.nil (e : Env) (traced : Bool) (flag optBuf optLen : Word) :
    Stays e traced flag optBuf optLen [] where
  inside _ hr := nomatch hr
  quiet _ := rfl
  count := le_max_left ..

/-- The rounds of a request with a buffer and a length that is one. -/
theorem stays_iff_of_presented {e : Env} {fd flag tsp optBuf optLen : Word} {traced : Bool}
    {o : OptState} (hat : At optBuf optLen.toNat 0 o) (hbuf : optBuf ≠ 0)
    (hlong : 12 ≤ optLen.toNat) (hlt : optLen.toNat < 2 ^ 31)
    (hfuel : optLen.toNat / 12 + 1 ≤ n) :
    Stays e traced flag optBuf optLen (optRounds e fd flag tsp n 0 o s) ↔
      ∀ r ∈ optRounds e fd flag tsp n 0 o s, r.Fits e fd flag tsp traced optLen.toInt := by
  have hword : BitVec.ofNat 32 optLen.toNat = optLen := BitVec.ofNat_toNat 32 optLen
  have hint : optLen.toInt = optLen.toNat := BitVec.toInt_eq_toNat_of_lt (by omega)
  have hiff : _ ↔ ∀ r ∈ optRounds e fd flag tsp n 0 o s, _ :=
    rounds_stay_iff (m := optLen.toNat / 12 - 1) traced hlt hat (by omega) (by omega)
  rw [hword, ← hint] at hiff
  rw [← hiff]
  constructor
  · intro h
    have := h.count
    exact ⟨h.inside, by omega⟩
  · rintro ⟨hin, hcount⟩
    refine ⟨hin, ?_, by omega⟩
    rintro (hnull | hshort)
    · exact absurd hnull hbuf
    · omega

/-- **The option loop stays in the request** exactly if the request presents a buffer and
every option the loop meets fits; and if it stays there, it comes to an end. -/
theorem options_stay_iff (e : Env) (traced : Bool) (fd flag optBuf optLen : Word) (doRet : Bool)
    (s : Sys) (hfuel : optLen.toInt.toNat / 12 + 1 ≤ e.rounds) :
    (Stays e traced flag optBuf optLen (optmgmtRounds e fd flag optBuf optLen doRet s) ↔
      Presented e optBuf optLen doRet s ∧
        ∀ r ∈ optmgmtRounds e fd flag optBuf optLen doRet s,
          r.Fits e fd flag (s.esp - retSpace optLen - 24) traced optLen.toInt) ∧
    (Stays e traced flag optBuf optLen (optmgmtRounds e fd flag optBuf optLen doRet s) →
      ∃ x, timodOptmgmt e fd flag optBuf optLen doRet s = .ok x) := by
  constructor
  · unfold optmgmtRounds
    split_ifs with hborrows
    · have hrounds : e.rounds ≠ 0 := by omega
      by_cases hlong : 12 ≤ optLen.toNat
      · by_cases hpresented : optBuf ≠ 0 ∧ 0 ≤ optLen.toInt
        · have hlt := toNat_lt_of_toInt hpresented.2
          have hint : optLen.toInt = optLen.toNat := BitVec.toInt_eq_toNat_of_lt (by omega)
          rw [hint, Int.toNat_natCast] at hfuel
          rw [stays_iff_of_presented ⟨by simp, by simp, Nat.zero_le _⟩ hpresented.1 hlong hlt
            hfuel]
          exact (and_iff_right fun _ _ => hpresented).symm
        · -- the loop runs on a length that is none, or without a buffer
          refine iff_of_false ?_ fun h => hpresented (h.1 hborrows hlong)
          intro h
          refine absurd (h.quiet ?_) (optRounds_ne_nil hrounds hlong)
          by_cases hbuf : optBuf = 0
          · exact .inl hbuf
          · right
            have : ¬ 0 ≤ optLen.toInt := fun h0 => hpresented ⟨hbuf, h0⟩
            omega
      · rw [optRounds_of_short (Nat.lt_of_not_le hlong)]
        exact iff_of_true (.nil ..) ⟨fun _ h => absurd h hlong, nofun⟩
    · exact iff_of_true (.nil ..) ⟨fun h => absurd h hborrows, nofun⟩
  · intro h
    refine timodOptmgmt_ends_of_rounds ?_
    have := h.count
    omega

/-! ## Requests that lead outside -/

/-- Everything succeeds, and a loop may take eight rounds. -/
def optEnv : Env := { plainEnv with rounds := 8 }

/-- The same in a process that can write only its stack. -/
def readOnlyEnv : Env := { optEnv with writable := fun a => 0x4000 ≤ a.toNat }

/-- Twenty-four bytes with an option whose value is said to have sixteen. -/
def wideOption : Sys := endpoint .idle [0xffff, 4, 16, 0, 0, 0]

/-- An option of length `-12`. -/
def standingOption : Sys := endpoint .idle [0xffff, 4, -12]

/-- The value of sixteen bytes is passed from twelve, and the next header is looked for
behind the buffer; a negative length and no buffer are looked at as well; and in a
buffer that cannot be written an option of length `-12` is taken again and again. -/
theorem options_leave_request :
    ¬ Stays optEnv false T_NEGOTIATE 0x1000 24
        (optmgmtRounds optEnv 3 T_NEGOTIATE 0x1000 24 true wideOption) ∧
    ¬ Stays optEnv false T_NEGOTIATE 0 (-4)
        (optmgmtRounds optEnv 3 T_NEGOTIATE 0 (-4) true wideOption) ∧
    ¬ Stays readOnlyEnv false 0 0x1000 12
        (optmgmtRounds readOnlyEnv 3 0 0x1000 12 true standingOption) := by
  refine ⟨fun h => ?_, fun h => ?_, fun h => ?_⟩
  · have hall : ∀ l ∈ (optmgmtRounds optEnv 3 T_NEGOTIATE 0x1000 24 true wideOption).map
        (Round.accesses optEnv T_NEGOTIATE false), ∀ a ∈ l, a.Inside 0x1000 24 := by
      intro l hl a ha
      obtain ⟨r, hr, rfl⟩ := List.mem_map.mp hl
      exact h.inside r hr a ha
    have hvalue := hall _ (List.mem_cons_self ..) ⟨0x100c, 16⟩ (by decide) (by decide)
    exact nomatch hvalue
  · have hlen : (optmgmtRounds optEnv 3 T_NEGOTIATE 0 (-4) true wideOption).length = 1 := by
      decide +kernel
    rw [h.quiet (.inl rfl)] at hlen
    cases hlen
  · have hlen : (optmgmtRounds readOnlyEnv 3 0 0x1000 12 true standingOption).length = 8 := by
      decide +kernel
    have hcount := h.count
    exact nomatch hcount

/-- One option with a value of four bytes, traced and negotiated. -/
theorem options_stay_single :
    Stays optEnv true T_NEGOTIATE 0x1000 16
      (optmgmtRounds optEnv 3 T_NEGOTIATE 0x1000 16 true (endpoint .idle [0xffff, 4, 4, 1])) := by
  refine (options_stay_iff optEnv true 3 T_NEGOTIATE 0x1000 16 true
    (endpoint .idle [0xffff, 4, 4, 1]) (by decide)).1.mpr ⟨?_, by decide +kernel⟩
  intro _ _
  decide

end AbiEmu.Xti
