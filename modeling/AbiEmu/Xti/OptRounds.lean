import AbiEmu.Xti.Frame

/-!
# The rounds of the option loop

`optmgmtRounds` are the rounds the loop in `timod_optmgmt` goes through, one for each
option header it meets, each with what it finds in the request and in user memory.
`Round.Result` is a round with its ways out: the option is refused, it cannot be set,
`getsockopt` fails or its answer cannot be copied, or the loop goes on.

`optLoop_accounts` reads the end of the loop off its rounds: whether one of them faults,
whether all options got through, and how long the reply is.
-/

namespace AbiEmu.Xti

/-! ## Copies that fault -/

/-- `copy_from_user` of `n` bytes at `a` faults. -/
def Env.copyFaults (e : Env) (a : Word) (n : Int) : Prop :=
  ¬ (0 ≤ n ∧ e.canRead a n.toNat = true)
  deriving Decidable

variable {s : Sys} {e : Env} {a : Word} {n : Int}

theorem copyFromUser_eq_none_iff : copyFromUser e s a n = none ↔ e.copyFaults a n := by
  unfold copyFromUser Env.copyFaults
  split
  next h => exact ⟨nofun, fun hn => absurd h hn⟩
  next h => exact ⟨fun _ => h, fun _ => rfl⟩

theorem isNone_iff_faults : (copyFromUser e s a n).isNone = true ↔ e.copyFaults a n :=
  Option.isNone_iff_eq_none.trans copyFromUser_eq_none_iff

/-! ## The rounds of the loop -/

/-- A round: its number, and the state of the loop and of the system it starts in. -/
structure Round where
  index : Nat
  opt : OptState
  sys : Sys

/-- The rounds of the loop. -/
def optRounds (e : Env) (fd flag tsp : Word) : Nat → Nat → OptState → Sys → List Round
  | 0, _, _, _ => []
  | n + 1, i, o, s =>
    if o.optLen.toNat < 12 then []
    else
      ⟨i, o, s⟩ ::
        match optRound e fd flag tsp i o s with
        | .inl _ => []
        | .inr x => optRounds e fd flag tsp n (i + 1) x.1 x.2

/-- The rounds of a call of `timod_optmgmt`. -/
def optmgmtRounds (e : Env) (fd flag optBuf optLen : Word) (doRet : Bool) (s : Sys) :
    List Round :=
  if optBorrows e optBuf optLen doRet s then
    let retBase := s.esp - retSpace optLen
    optRounds e fd flag (retBase - 24) e.rounds 0 ⟨optBuf, optLen, retBase, 0, retSpace optLen⟩
      { s with esp := retBase - 24 }
  else []

variable {fd flag tsp : Word}

/-- A loop with fewer rounds than it was given comes to its end. -/
theorem optLoop_ends {e : Env} :
    ∀ {n i : Nat} {o : OptState} {s : Sys},
      (optRounds e fd flag tsp n i o s).length < n → ∃ x, optLoop e fd flag tsp n i o s = .ok x
  | 0, _, _, _, h => absurd h (Nat.not_lt_zero _)
  | n + 1, i, o, s, h => by
    rw [optLoop_succ]
    rw [optRounds] at h
    split_ifs at h ⊢
    · exact ⟨_, rfl⟩
    split
    next x hround => exact ⟨x, rfl⟩
    next x hround =>
      rw [hround, List.length_cons] at h
      exact optLoop_ends (Nat.lt_of_succ_lt_succ h)

/-! ## A round, step by step -/

namespace Round

variable (e : Env) (fd flag tsp : Word) (r : Round)

/-- The length in the header. -/
def len : Int := (r.sys.mem.word (r.opt.optBuf + 8)).toInt

/-- The header can be read, and its length passes the check. -/
def Taken : Prop :=
  (copyFromUser e r.sys r.opt.optBuf 12).isNone = false ∧ r.len ≤ r.opt.optLen.toInt
  deriving Decidable

def level : Word := r.sys.mem.word r.opt.optBuf
def name : Word := r.sys.mem.word (r.opt.optBuf + 4)

/-- The length in the header, as a word. -/
def lenWord : Word := r.sys.mem.word (r.opt.optBuf + 8)

/-- The header as it is copied into the reply. -/
def header : List Byte := [r.level, r.name, r.lenWord].flatMap Word.bytes

/-- The option is taken, and there seems to be room for its header in the reply. -/
def Offered : Prop := r.Taken e ∧ e.verify true r.opt.retBuf 12 = true
  deriving Decidable

/-- `setsockopt` is about to be called. -/
def setting : Sys := putArgs e tsp [fd, r.level, r.name, r.opt.optBuf + 12, r.lenWord] r.sys

/-- The option has been set, or is not to be. -/
def afterSet : Int × Sys :=
  setOption e fd flag tsp r.index r.opt r.level r.name r.lenWord r.sys

/-- The round gets as far as calling `getsockopt`. -/
def Asks : Prop := r.Offered e ∧ (r.afterSet e fd flag tsp).1 = 0
  deriving Decidable

/-- `getsockopt` is about to be called. -/
def asking : Sys :=
  putArgs e tsp [fd, r.level, r.name, r.opt.retBuf + 12, tsp + 20, r.opt.retSpace]
    (r.afterSet e fd flag tsp).2

/-- It has answered. -/
def answered : Int × Sys := socketcall (e.getsockopt r.index) (r.asking e fd flag tsp)

/-- The length it left behind. -/
def got : Word := getUserD e (r.answered e fd flag tsp).2 (tsp + 20)

/-- The header goes into the reply. -/
def copied : Sys :=
  { (r.answered e fd flag tsp).2 with
    mem := (r.answered e fd flag tsp).2.mem.store r.opt.retBuf r.header }

/-- Where the next round starts. -/
def next : OptState where
  optBuf := r.opt.optBuf + (12 + r.lenWord)
  optLen := r.opt.optLen - (12 + r.lenWord)
  retBuf := r.opt.retBuf + (12 + r.got e fd flag tsp)
  retLen := r.opt.retLen + (12 + r.got e fd flag tsp)
  retSpace := r.opt.retSpace - (12 + r.got e fd flag tsp)

/-- The option is through: the answer is there, and its header goes into the reply. -/
def GoesOn : Prop :=
  r.Asks e fd flag tsp ∧ (r.answered e fd flag tsp).1 = 0 ∧ e.canWrite r.opt.retBuf 12 = true
  deriving Decidable

/-- A copy of the header faults: on its way in, or on its way into the reply. -/
def Faults : Prop :=
  e.copyFaults r.opt.optBuf 12 ∨
    r.Asks e fd flag tsp ∧ (r.answered e fd flag tsp).1 = 0 ∧ ¬ e.canWrite r.opt.retBuf 12 = true
  deriving Decidable

/-- The round is the last one, and ends with a fault or with an error. -/
def Leaves : OptEnd → Prop
  | .fault _ => r.Faults e fd flag tsp
  | .done failed _ _ _ => ¬ r.Faults e fd flag tsp ∧ failed ≠ 0

/-- How a round can end. -/
inductive Result : OptEnd ⊕ OptState × Sys → Prop
  | refused {x : OptEnd} (hoff : ¬ r.Offered e) (hx : r.Leaves e fd flag tsp x)
      (hsys : x.sys = r.sys) : Result (.inl x)
  | unset {x : OptEnd} (hoff : r.Offered e) (hset : (r.afterSet e fd flag tsp).1 ≠ 0)
      (hx : r.Leaves e fd flag tsp x) (hsys : x.sys = (r.afterSet e fd flag tsp).2) :
      Result (.inl x)
  | failed {x : OptEnd} (hasks : r.Asks e fd flag tsp)
      (hget : ¬ ((r.answered e fd flag tsp).1 = 0 ∧ e.canWrite r.opt.retBuf 12 = true))
      (hx : r.Leaves e fd flag tsp x) (hsys : x.sys = (r.answered e fd flag tsp).2) :
      Result (.inl x)
  | next (hasks : r.Asks e fd flag tsp)
      (hget : (r.answered e fd flag tsp).1 = 0 ∧ e.canWrite r.opt.retBuf 12 = true) :
      Result (.inr (r.next e fd flag tsp,
        putUser e (r.opt.optBuf + 8) (r.got e fd flag tsp) (r.copied e fd flag tsp)))

variable {e fd flag tsp r} in
/-- A header that was read faults only on its way out. -/
theorem not_faults_of_read (hread : (copyFromUser e r.sys r.opt.optBuf 12).isNone = false)
    (hout : r.Asks e fd flag tsp → (r.answered e fd flag tsp).1 = 0 →
      e.canWrite r.opt.retBuf 12 = true) : ¬ r.Faults e fd flag tsp := by
  rintro (hin | ⟨hasks, hget, hwrite⟩)
  · rw [isNone_iff_faults.mpr hin] at hread
    cases hread
  · exact hwrite (hout hasks hget)

/-- A round ends in one of these ways. -/
theorem optRound_result : r.Result e fd flag tsp (optRound e fd flag tsp r.index r.opt r.sys) := by
  have hbad : TBADOPT ≠ 0 := by decide
  have hsyserr : TSYSERR ≠ 0 := by decide
  unfold optRound
  dsimp only
  split_ifs with hread hlen hret hset hget
  · refine .refused (fun h => ?_) (.inl (isNone_iff_faults.mp hread)) rfl
    rw [h.1.1] at hread
    cases hread
  · have hoff : ¬ r.Offered e := fun h => absurd h.1.2 (Int.not_le.mpr hlen)
    exact .refused hoff ⟨not_faults_of_read (Bool.eq_false_iff.mpr hread)
      fun hasks => absurd hasks.1 hoff, hbad⟩ rfl
  · exact .unset ⟨⟨Bool.eq_false_iff.mpr hread, Int.not_lt.mp hlen⟩, hret⟩ hset
      ⟨not_faults_of_read (Bool.eq_false_iff.mpr hread) fun hasks => absurd hasks.2 hset, hbad⟩ rfl
  · exact .failed ⟨⟨⟨Bool.eq_false_iff.mpr hread, Int.not_lt.mp hlen⟩, hret⟩, not_not.mp hset⟩
      (fun h => hget h.1)
      ⟨not_faults_of_read (Bool.eq_false_iff.mpr hread) fun _ h => absurd h hget, hbad⟩ rfl
  · have hasks : r.Asks e fd flag tsp :=
      ⟨⟨⟨Bool.eq_false_iff.mpr hread, Int.not_lt.mp hlen⟩, hret⟩, not_not.mp hset⟩
    by_cases hwrite : e.canWrite r.opt.retBuf 12 = true
    · have hcopy : copyToUser e r.opt.retBuf r.header (r.answered e fd flag tsp).2 =
          some (r.copied e fd flag tsp) := if_pos hwrite
      exact hcopy.symm ▸ .next hasks ⟨not_not.mp hget, hwrite⟩
    · have hcopy : copyToUser e r.opt.retBuf r.header (r.answered e fd flag tsp).2 = none :=
        if_neg hwrite
      exact hcopy.symm ▸ .failed hasks (fun h => hwrite h.2)
        (.inr ⟨hasks, not_not.mp hget, hwrite⟩) rfl
  · have hoff : ¬ r.Offered e := fun h => hret h.2
    exact .refused hoff ⟨not_faults_of_read (Bool.eq_false_iff.mpr hread)
      fun hasks => absurd hasks.1 hoff, hsyserr⟩ rfl

variable {e fd flag tsp r}

/-- The last round of a loop that ended early. -/
theorem leaves_of_inl {x : OptEnd} (h : optRound e fd flag tsp r.index r.opt r.sys = .inl x) :
    r.Leaves e fd flag tsp x ∧ ¬ r.GoesOn e fd flag tsp := by
  have hresult := r.optRound_result e fd flag tsp
  rw [h] at hresult
  cases hresult with
  | refused hoff hx => exact ⟨hx, fun hon => hoff hon.1.1⟩
  | unset _ hset hx => exact ⟨hx, fun hon => hset hon.1.2⟩
  | failed _ hget hx => exact ⟨hx, fun hon => hget hon.2⟩

/-- The loop goes on behind an option that is through. -/
theorem goesOn_of_inr {x : OptState × Sys}
    (h : optRound e fd flag tsp r.index r.opt r.sys = .inr x) :
    r.GoesOn e fd flag tsp ∧ x.1 = r.next e fd flag tsp := by
  have hresult := r.optRound_result e fd flag tsp
  rw [h] at hresult
  cases hresult with
  | next hasks hget => exact ⟨⟨hasks, hget⟩, rfl⟩

theorem GoesOn.not_faults (h : r.GoesOn e fd flag tsp) : ¬ r.Faults e fd flag tsp :=
  not_faults_of_read h.1.1.1.1 fun _ _ => h.2.2

end Round

/-! ## The end of the loop -/

/-- The length of the reply to the options of some rounds, headers included. -/
def replyLen (e : Env) (fd flag tsp : Word) (rs : List Round) : Word :=
  (rs.map fun r => 12 + r.got e fd flag tsp).sum

theorem replyLen_cons {e : Env} (r : Round) (rs : List Round) :
    replyLen e fd flag tsp (r :: rs) = 12 + r.got e fd flag tsp + replyLen e fd flag tsp rs := by
  unfold replyLen
  rw [List.map_cons, List.sum_cons]

/-- How the rounds of a loop account for its end: it faults in one of them, or it has
gone through them all or not, and its reply is that long. -/
def OptEnd.Accounts (e : Env) (fd flag tsp : Word) (rs : List Round) (start : Word) :
    OptEnd → Prop
  | .fault _ => ∃ r ∈ rs, r.Faults e fd flag tsp
  | .done failed _ retLen _ =>
    (∀ r ∈ rs, ¬ r.Faults e fd flag tsp) ∧ (failed = 0 ↔ ∀ r ∈ rs, r.GoesOn e fd flag tsp) ∧
      (failed = 0 → retLen = start + replyLen e fd flag tsp rs)

theorem optLoop_accounts {e : Env} {fd flag tsp : Word} :
    ∀ {n i : Nat} {o : OptState} {s : Sys} {x : OptEnd}, optLoop e fd flag tsp n i o s = .ok x →
      x.Accounts e fd flag tsp (optRounds e fd flag tsp n i o s) o.retLen
  | 0, _, _, _, _, h => nomatch h
  | n + 1, i, o, s, x, h => by
    rw [optLoop_succ] at h
    rw [optRounds]
    split_ifs at h ⊢
    · obtain rfl := Except.ok.inj h
      exact ⟨nofun, iff_of_true rfl nofun, fun _ => (BitVec.add_zero _).symm⟩
    cases hround : optRound e fd flag tsp i o s with
    | inl y =>
      rw [hround] at h
      obtain rfl := Except.ok.inj h
      obtain ⟨hx, hon⟩ := Round.leaves_of_inl (r := ⟨i, o, s⟩) hround
      cases y with
      | fault => exact ⟨_, List.mem_singleton_self _, hx⟩
      | done =>
        exact ⟨List.forall_mem_singleton.mpr hx.1,
          iff_of_false hx.2 fun hall => hon (hall _ (List.mem_singleton_self _)),
          fun h0 => absurd h0 hx.2⟩
    | inr y =>
      rw [hround] at h
      have ih := optLoop_accounts (show optLoop e fd flag tsp n (i + 1) y.1 y.2 = .ok x from h)
      obtain ⟨hon, hnext⟩ := Round.goesOn_of_inr (r := ⟨i, o, s⟩) hround
      cases x with
      | fault =>
        obtain ⟨r, hr, hfault⟩ := ih
        exact ⟨r, List.mem_cons_of_mem _ hr, hfault⟩
      | done failed error retLen t =>
        obtain ⟨hnone, hall, hlen⟩ := ih
        refine ⟨List.forall_mem_cons.mpr ⟨hon.not_faults, hnone⟩, ?_, fun h0 => ?_⟩
        · rw [List.forall_mem_cons, and_iff_right hon]
          exact hall
        · rw [hlen h0, congrArg OptState.retLen hnext, replyLen_cons]
          exact BitVec.add_assoc ..

/-- The rounds of a call that borrows account for its loop. -/
theorem optRun_accounts {e : Env} {fd flag optBuf optLen : Word} {doRet : Bool} {s : Sys}
    {x : OptEnd} (hb : optBorrows e optBuf optLen doRet s)
    (h : optRun e fd flag optBuf optLen s = .ok x) :
    x.Accounts e fd flag (s.esp - retSpace optLen - 24)
      (optmgmtRounds e fd flag optBuf optLen doRet s) 0 := by
  unfold optmgmtRounds
  rw [if_pos hb]
  exact optLoop_accounts h

end AbiEmu.Xti
