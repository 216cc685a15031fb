import AbiEmu.Xti.OptLog

/-!
# Where the answers to an option list go

`timod_optmgmt` builds its reply below the stack pointer of the caller. There is a
frame of six words for the calls it makes and, above it, room for the reply, which
ends at the stack pointer. `ret_buf` runs through that room, `ret_space` is what is
left of it and `ret_len` what has been used.

The ledger of the three variables is always right (`Booked`). The stores do not always
stay below the stack pointer:

* the room offered to `getsockopt` is counted from the header of the option, but the
  value goes behind the header, so a long value ends up to twelve bytes too high;
* after such a value the next header may have no room left;
* the length of the value is put into the request and not into the reply, and the
  request may lie anywhere.

`option_answers_fit_iff` says that there is nothing else.
-/

namespace AbiEmu.Xti

open List BitVec

/-! ## The ledger -/

/-- The states the loop goes through, the last one included. -/
def optStates (e : Env) (fd flag tsp : Word) : Nat → Nat → OptState → Sys → List OptState
  | 0, _, o, _ => [o]
  | n + 1, i, o, s =>
    o ::
      if o.optLen.toNat < 12 then []
      else
        match optRound e fd flag tsp i o s with
        | .inl _ => []
        | .inr x => optStates e fd flag tsp n (i + 1) x.1 x.2

/-- The states of a call of `timod_optmgmt`. -/
def optmgmtStates (e : Env) (fd flag optBuf optLen : Word) (doRet : Bool) (s : Sys) :
    List OptState :=
  if optBorrows e optBuf optLen doRet s then
    let retBase := s.esp - retSpace optLen
    optStates e fd flag (retBase - 24) e.rounds 0 ⟨optBuf, optLen, retBase, 0, retSpace optLen⟩
      { s with esp := retBase - 24 }
  else []

section States

variable {e : Env} {fd flag tsp : Word} {P : OptState → Prop}

/-- A round starts in one of the states. -/
theorem opt_mem_optStates : ∀ {n i : Nat} {o : OptState} {s : Sys} {r : Round},
    r ∈ optRounds e fd flag tsp n i o s → r.opt ∈ optStates e fd flag tsp n i o s
  | 0, _, _, _, _, h => nomatch h
  | n + 1, i, o, s, r, h => by
    rw [optRounds] at h
    rw [optStates]
    split_ifs at h ⊢
    · simp at h
    rcases List.mem_cons.mp h with rfl | h
    · exact List.mem_cons_self ..
    · refine List.mem_cons_of_mem _ ?_
      split
      next x hopt =>
        rw [hopt] at h
        simp at h
      next x hopt =>
        rw [hopt] at h
        exact opt_mem_optStates h

/-- What every round hands on to the next holds in all states. -/
theorem optStates_inv : ∀ {n i : Nat} {o : OptState} {s : Sys}, P o →
    (∀ r ∈ optRounds e fd flag tsp n i o s, P r.opt →
      ∀ x, optRound e fd flag tsp r.index r.opt r.sys = .inr x → P x.1) →
    ∀ o' ∈ optStates e fd flag tsp n i o s, P o'
  | 0, _, o, _, ho, _, o', ho' => List.mem_singleton.mp ho' ▸ ho
  | n + 1, i, o, s, ho, hstep, o', ho' => by
    rw [optRounds] at hstep
    rw [optStates] at ho'
    rcases List.mem_cons.mp ho' with rfl | ho'
    · exact ho
    split_ifs at hstep ho'
    · simp at ho'
    obtain ⟨hfirst, hrest⟩ := List.forall_mem_cons.mp hstep
    cases hopt : optRound e fd flag tsp i o s with
    | inl x =>
      rw [hopt] at ho'
      simp at ho'
    | inr x =>
      rw [hopt] at ho' hrest
      exact optStates_inv (hfirst ho x hopt) hrest o' ho'

end States

/-- The three variables agree: the room that is left ends at `esp`, and the bytes used
are those since `base`. -/
structure Booked (esp base : Word) (o : OptState) : Prop where
  space : o.retBuf + o.retSpace = esp
  length : o.retLen = o.retBuf - base

variable {e : Env}

theorem Booked.next {fd flag tsp esp base : Word} {r : Round} (h : Booked esp base r.opt) :
    Booked esp base (r.next e fd flag tsp) := by
  refine ⟨?_, ?_⟩
  · rw [← h.space]
    unfold Round.next
    bv_omega
  · show r.opt.retLen + _ = _
    rw [h.length]
    unfold Round.next
    bv_omega

/-- The ledger is right throughout, whatever the calls answer. -/
theorem optStates_booked {fd flag tsp esp base : Word} {n i : Nat} {o : OptState} {s : Sys}
    (ho : Booked esp base o) :
    ∀ o' ∈ optStates e fd flag tsp n i o s, Booked esp base o' := by
  refine optStates_inv ho ?_
  intro r _ hr x hx
  obtain ⟨-, hnext⟩ := Round.goesOn_of_inr hx
  rw [hnext]
  exact hr.next

/-! ## How much room is left -/

/-- `TASK_SIZE`. -/
def taskSize : Nat := 0xC0000000

/-- `verify_area` accepts nothing that reaches behind the user's addresses. -/
def Env.Limits (e : Env) : Prop :=
  ∀ write a n, e.verify write a n = true → a.toNat + n.toNat ≤ taskSize

/-- The scratch area of `space` bytes and the frame below it, where it lies. -/
structure Area (esp tsp : Word) (space : Nat) : Prop where
  frame : tsp.toNat + 24 + space = esp.toNat
  small : space < 2 ^ 21
  limit : tsp.toNat + 24 ≤ taskSize

/-- What is left of the room lies in the area; a header may have come too late for it. -/
structure Left (esp : Word) (space : Nat) (o : OptState) : Prop where
  ends : o.retBuf + o.retSpace = esp
  low : -12 ≤ o.retSpace.toInt
  high : o.retSpace.toInt ≤ space

/-- The room is as large as it is meant to be. -/
theorem retSpace_toNat {optLen : Word} (h0 : 0 ≤ optLen.toInt) :
    (retSpace optLen).toNat = 1024 + optLen.toNat + 8 * (optLen.toNat / 12) := by
  have hlt := toNat_lt_of_toInt h0
  have hsum : (1024 + optLen).toNat = 1024 + optLen.toNat := by
    exact Nat.mod_eq_of_lt (show 1024 + optLen.toNat < _ by omega)
  have hmul : (8 * (optLen / 12)).toNat = 8 * (optLen.toNat / 12) := by
    exact Nat.mod_eq_of_lt (show 8 * (optLen.toNat / 12) < _ by omega)
  unfold retSpace
  rw [toNat_add, hsum, hmul]
  exact Nat.mod_eq_of_lt (by omega)

/-- The area of a call that has verified its frame. -/
theorem area_of_verify (hv : e.Limits) {optLen esp : Word} (h0 : 0 ≤ optLen.toInt)
    (hmax : optLen.toInt ≤ 2 ^ 20) (h : e.verify true (esp - retSpace optLen - 24) 24 = true) :
    Area esp (esp - retSpace optLen - 24) (retSpace optLen).toNat := by
  have hnat := Word.toNat_toInt h0
  have hsmall : (retSpace optLen).toNat < 2 ^ 21 := by
    rw [retSpace_toNat h0]
    omega
  have hlimit : (esp - retSpace optLen - 24).toNat + 24 ≤ taskSize := hv _ _ _ h
  unfold taskSize at hlimit
  refine ⟨?_, hsmall, hlimit⟩
  bv_omega

section Room

variable {esp tsp : Word} {space : Nat} {o : OptState}

section

variable (h : Left esp space o) (harea : Area esp tsp space)

include h harea

/-- Where `ret_buf` stands. -/
theorem Left.retBuf_toNat : (o.retBuf.toNat : Int) = esp.toNat - o.retSpace.toInt := by
  have hframe := harea.frame
  have hsmall := harea.small
  have hlimit := harea.limit
  have hlow := h.low
  have hhigh := h.high
  have hends : o.retBuf = esp - o.retSpace := by
    rw [← h.ends, add_sub_cancel]
  unfold taskSize at hlimit
  have hint := toInt_eq_toNat_cond o.retSpace
  rw [hends, toNat_sub]
  split at hint <;> omega

/-- A block stored `k` bytes behind `ret_buf`. -/
theorem Left.below_iff {k n : Nat} (hk : k ≤ 12) (hn : n ≤ 2 ^ 21) :
    (∀ x : Word, (x - (o.retBuf + BitVec.ofNat 32 k)).toNat < n → x.toNat < esp.toNat) ↔
      n = 0 ∨ (k + n : Int) ≤ o.retSpace.toInt := by
  have hframe := harea.frame
  have hsmall := harea.small
  have hlimit := harea.limit
  have hlow := h.low
  have hbuf := h.retBuf_toNat harea
  unfold taskSize at hlimit
  have hstart : (o.retBuf + BitVec.ofNat 32 k).toNat = o.retBuf.toNat + k := by
    rw [toNat_add, toNat_ofNat]
    omega
  rw [AbiEmu.below_iff (by omega), hstart]
  omega

end

/-- The frame lies below. -/
theorem Area.frame_below (harea : Area esp tsp space) {x : Word} (hx : (x - tsp).toNat < 24) :
    x.toNat < esp.toNat := by
  have hframe := harea.frame
  refine (AbiEmu.below_iff (by omega)).mpr (.inr ?_) x hx
  omega

/-- An honest answer leaves the room as it should be. -/
theorem Left.next {fd flag : Word} {r : Round} (h : Left esp space r.opt)
    (harea : Area esp tsp space) (hgot : 0 ≤ (r.got e fd flag tsp).toInt)
    (hgiven : (r.got e fd flag tsp).toInt ≤ r.opt.retSpace.toInt) :
    Left esp space (r.next e fd flag tsp) := by
  have hsmall := harea.small
  have hhigh := h.high
  have hspace : (r.next e fd flag tsp).retSpace.toInt =
      r.opt.retSpace.toInt - (12 + (r.got e fd flag tsp).toInt) := by
    have h12 : (12 : Word).toInt = 12 := rfl
    show (r.opt.retSpace - (12 + r.got e fd flag tsp)).toInt = _
    rw [toInt_sub, toInt_add, h12]
    generalize (r.got e fd flag tsp).toInt = g at *
    have hsum : (12 + g).bmod (2 ^ 32) = 12 + g := Int.bmod_eq_of_le (by omega) (by omega)
    rw [hsum, Int.bmod_eq_of_le (by omega) (by omega)]
  refine ⟨?_, ?_, ?_⟩
  · rw [← h.ends]
    unfold Round.next
    bv_omega
  · omega
  · omega

end Room

/-! ## Stores below the stack pointer -/

/-- Everything is stored below `esp`. -/
def StoredBelow (esp : Word) (acts : List (Act Ptr)) : Prop :=
  ∀ act ∈ acts, ∀ x, act.Stores x → x.toNat < esp.toNat

variable {esp : Word}

theorem storedBelow_append {as bs : List (Act Ptr)} :
    StoredBelow esp (as ++ bs) ↔ StoredBelow esp as ∧ StoredBelow esp bs :=
  forall_mem_append

variable {acts : List (Act Ptr)}

theorem storedBelow_cons {act : Act Ptr} :
    StoredBelow esp (act :: acts) ↔
      (∀ x, act.Stores x → x.toNat < esp.toNat) ∧ StoredBelow esp acts :=
  forall_mem_cons

theorem storedBelow_nil (esp : Word) : StoredBelow esp [] :=
  nofun

/-- The length field of the option's header lies below `esp`. -/
def Round.FieldBelow (esp : Word) (r : Round) : Prop :=
  ∀ x : Word, (x - (r.opt.optBuf + 8)).toNat < 4 → x.toNat < esp.toNat

/-- What a round must fulfil to store nothing from `esp` on: a value must fit behind its
header; if the loop goes on, the header must have had room, and the length field of the
request, if it can be written, must lie below. -/
structure Round.Fitting (a : OptAnswers) (e : Env) (fd flag tsp esp : Word) (r : Round) : Prop where
  value : r.Asks e fd flag tsp → (a.get r.index).value = [] ∨
    12 + ((a.get r.index).value.length : Int) ≤ r.opt.retSpace.toInt
  header : r.GoesOn e fd flag tsp → 12 ≤ r.opt.retSpace.toInt
  field : r.GoesOn e fd flag tsp → e.canWrite (r.opt.optBuf + 8) 4 = true → r.FieldBelow esp

section Below

variable {a : OptAnswers} {e : Env} {fd flag tsp esp : Word} {space : Nat} {r : Round}

theorem putAct_below_iff (p : Ptr) (b v : Word) :
    StoredBelow esp (putAct e p b v) ↔
      (e.canWrite b 4 = true → ∀ x : Word, (x - b).toNat < 4 → x.toNat < esp.toNat) := by
  unfold putAct
  split_ifs with hw
  · rw [storedBelow_cons, forall_prop_of_true hw]
    exact and_iff_left (storedBelow_nil esp)
  · exact iff_of_true (storedBelow_nil esp) fun h => absurd h hw

theorem InFrame.storedBelow (h : InFrame tsp acts) (harea : Area esp tsp space) :
    StoredBelow esp acts :=
  fun act hact x hx => harea.frame_below (h act hact x hx)

/-- Of the stores of `getsockopt`, only the value can lie too high. -/
theorem askActs_below_iff (harea : Area esp tsp space) (hleft : Left esp space r.opt)
    (hvalue : (a.get r.index).value.length ≤ r.opt.retSpace.toInt.toNat) :
    StoredBelow esp (r.askActs a e fd tsp) ↔
      ((a.get r.index).value = [] ∨
        12 + ((a.get r.index).value.length : Int) ≤ r.opt.retSpace.toInt) := by
  have hsmall := harea.small
  have hhigh := hleft.high
  have hcopy := hleft.below_iff harea (n := (a.get r.index).value.length)
    (Nat.le_refl 12) (by omega)
  rw [length_eq_zero_iff] at hcopy
  obtain ⟨before, after, hacts, hbefore, hafter⟩ := askActs_split a e fd tsp r
  rw [hacts, storedBelow_append, storedBelow_cons, and_iff_right (hbefore.storedBelow harea),
    and_iff_left (hafter.storedBelow harea)]
  exact hcopy

section

variable (harea : Area esp tsp space) (hleft : Left esp space r.opt)

include harea hleft

theorem headerActs_below_iff (hasks : r.Asks e fd flag tsp) :
    StoredBelow esp (r.headerActs e fd flag tsp) ↔
      (r.GoesOn e fd flag tsp → 12 ≤ r.opt.retSpace.toInt ∧
        (e.canWrite (r.opt.optBuf + 8) 4 = true → r.FieldBelow esp)) := by
  have hheader := hleft.below_iff harea (k := 0) (n := 12) (by omega) (by omega)
  rw [show r.opt.retBuf + BitVec.ofNat 32 0 = r.opt.retBuf by simp] at hheader
  unfold Round.headerActs
  split_ifs with hget
  · rw [storedBelow_cons, forall_prop_of_true (show r.GoesOn e fd flag tsp from ⟨hasks, hget⟩)]
    refine and_congr ?_ (putAct_below_iff ..)
    refine Iff.trans hheader ?_
    omega
  · exact iff_of_true (storedBelow_nil esp) fun h => absurd h.2 hget

/-- A round stores below the stack pointer exactly if it is a fitting one. -/
theorem Round.acts_below_iff (ha : a.Honours e fd flag tsp r) :
    StoredBelow esp (r.acts a e fd flag tsp) ↔ r.Fitting a e fd flag tsp esp := by
  have hset : StoredBelow esp (if r.Offered e then r.setActs a e fd flag tsp else []) := by
    split
    · exact setActs_inFrame.storedBelow harea
    · exact storedBelow_nil esp
  unfold Round.acts
  rw [storedBelow_append, and_iff_right hset]
  by_cases hasks : r.Asks e fd flag tsp
  · rw [if_pos hasks, storedBelow_append, askActs_below_iff harea hleft (ha.value hasks).stored,
      headerActs_below_iff harea hleft hasks]
    constructor
    · intro h
      exact ⟨fun _ => h.1, fun hon => (h.2 hon).1, fun hon => (h.2 hon).2⟩
    · intro h
      exact ⟨h.value hasks, fun hon => ⟨h.header hon, h.field hon⟩⟩
  · rw [if_neg hasks]
    refine iff_of_true (storedBelow_nil esp) ?_
    have hstops : ¬ r.GoesOn e fd flag tsp := fun hon => hasks hon.1
    exact ⟨fun h => absurd h hasks, fun h => absurd h hstops, fun h => absurd h hstops⟩

end

end Below

/-! ## The whole call -/

/-- The answers fit: the ledger is right throughout, replaying the stores gives the
memory behind the call, and nothing is stored at the caller's stack pointer or above. -/
structure AnswersFit (a : OptAnswers) (e : Env) (fd flag optBuf optLen : Word) (doRet : Bool)
    (s : Sys) : Prop where
  booked : ∀ o ∈ optmgmtStates e fd flag optBuf optLen doRet s,
    Booked s.esp (s.esp - retSpace optLen) o
  replayed : ∀ ret t, timodOptmgmt e fd flag optBuf optLen doRet s = .ok (ret, t) →
    t.mem = replay (optmgmtActs a e fd flag optBuf optLen doRet s) s.mem
  below : StoredBelow s.esp (optmgmtActs a e fd flag optBuf optLen doRet s)

section Call

variable {a : OptAnswers} {e : Env} {fd flag tsp : Word}

/-- The room at the start of each round. -/
theorem rounds_left {space : Nat} (harea : Area esp tsp space) {n i : Nat} {o : OptState} {s : Sys}
    (ho : Left esp space o)
    (ha : ∀ r ∈ optRounds e fd flag tsp n i o s, a.Honours e fd flag tsp r) :
    ∀ r ∈ optRounds e fd flag tsp n i o s, Left esp space r.opt := by
  intro r hr
  refine optStates_inv ho ?_ r.opt (opt_mem_optStates hr)
  intro r hr hleft x hx
  obtain ⟨⟨hasks, hget, -⟩, hnext⟩ := Round.goesOn_of_inr hx
  obtain ⟨hgot, hgiven⟩ := ((ha r hr).value hasks).returned hget
  rw [hnext]
  exact hleft.next harea hgot hgiven

theorem optmgmt_booked (e : Env) (fd flag optBuf optLen : Word) (doRet : Bool) (s : Sys) :
    ∀ o ∈ optmgmtStates e fd flag optBuf optLen doRet s,
      Booked s.esp (s.esp - retSpace optLen) o := by
  unfold optmgmtStates
  split
  · refine optStates_booked ⟨?_, ?_⟩
    · exact BitVec.sub_add_cancel ..
    · exact (sub_self _).symm
  · nofun

variable {doRet : Bool}

/-- The stores of all rounds lie below exactly if all rounds are fitting. -/
theorem optmgmt_below_iff (hv : e.Limits) {optBuf optLen : Word} {s : Sys} (h0 : 0 ≤ optLen.toInt)
    (hmax : optLen.toInt ≤ 2 ^ 20)
    (ha : ∀ r ∈ optmgmtRounds e fd flag optBuf optLen doRet s,
      a.Honours e fd flag (s.esp - retSpace optLen - 24) r) :
    StoredBelow s.esp (optmgmtActs a e fd flag optBuf optLen doRet s) ↔
      ∀ r ∈ optmgmtRounds e fd flag optBuf optLen doRet s,
        r.Fitting a e fd flag (s.esp - retSpace optLen - 24) s.esp := by
  have hmem : StoredBelow s.esp (optmgmtActs a e fd flag optBuf optLen doRet s) ↔
      ∀ r ∈ optmgmtRounds e fd flag optBuf optLen doRet s,
        StoredBelow s.esp (r.acts a e fd flag (s.esp - retSpace optLen - 24)) := by
    exact forall_mem_flatMap
  rw [hmem]
  refine forall_congr' fun r => forall_congr' fun hr => ?_
  have har := ha r hr
  unfold optmgmtRounds at ha hr
  split_ifs at ha hr with hb
  · have harea := area_of_verify hv h0 hmax hb.2.2
    have hspace : (retSpace optLen).toInt = (retSpace optLen).toNat :=
      toInt_eq_toNat_of_lt (by have := harea.small; omega)
    have hleft := rounds_left harea
      ⟨BitVec.sub_add_cancel .., by rw [hspace]; omega, by rw [hspace]⟩ ha r hr
    exact r.acts_below_iff harea hleft har
  · exact nomatch hr

end Call

/-- Every call answers with `a`, below the stack pointer of `s`. -/
def answering (a : OptAnswer) (optLen : Word) (s : Sys) : Env :=
  { optEnv with
    verify := fun _ b n => decide (b.toNat + n.toNat ≤ taskSize)
    getsockopt := fun _ =>
      ⟨0, replay (a.acts (s.esp - retSpace optLen - 24) (s.esp - retSpace optLen + 12))⟩ }

def sole (a : OptAnswer) : OptAnswers := ⟨fun _ => ⟨none, none⟩, fun _ => a⟩

variable (a : OptAnswer)

theorem answering_limits (optLen : Word) (s : Sys) : (answering a optLen s).Limits := by
  intro write b n h
  exact of_decide_eq_true h

/-- The first round of a call. -/
def firstRound (optBuf optLen : Word) (s : Sys) : Round where
  index := 0
  opt := ⟨optBuf, optLen, s.esp - retSpace optLen, 0, retSpace optLen⟩
  sys := { s with esp := s.esp - retSpace optLen - 24 }

/-- A list with one option has one round. -/
theorem optmgmtRounds_single {fd flag optBuf optLen : Word} {s : Sys}
    (hb : optBorrows e optBuf optLen doRet s) (hn : e.rounds ≠ 0) (hlong : ¬ optLen.toNat < 12)
    (hlast : (optLen - (12 + s.mem.word (optBuf + 8))).toNat < 12) :
    optmgmtRounds e fd flag optBuf optLen doRet s = [firstRound optBuf optLen s] := by
  obtain ⟨n, hn⟩ := Nat.exists_eq_succ_of_ne_zero hn
  unfold optmgmtRounds
  rw [if_pos hb, hn]
  rw [optRounds, if_neg hlong]
  refine congrArg (_ :: ·) ?_
  split
  · rfl
  next x hx =>
    obtain ⟨-, hnext⟩ := Round.goesOn_of_inr (r := firstRound optBuf optLen s) hx
    refine optRounds_of_short ?_
    rw [hnext]
    exact hlast

/-- The length `getsockopt` stores last is the one that is read. -/
theorem answering_got {a : OptAnswer} {l : Word} (hl : a.len = some l)
    (fd flag optBuf optLen : Word) (s : Sys) :
    (firstRound optBuf optLen s).got (answering a optLen s) fd flag
      (s.esp - retSpace optLen - 24) = l := by
  have hacts : ∀ m : Mem,
      (replay (a.acts (s.esp - retSpace optLen - 24) (s.esp - retSpace optLen + 12)) m).word
        (s.esp - retSpace optLen - 24 + 20) = l := by
    intro m
    unfold OptAnswer.acts OptValue.acts
    rw [hl, replay_append]
    exact Mem.word_store_bytes ..
  exact hacts _

theorem answering_honours {a : OptAnswer} {l optLen : Word} (hl : a.len = some l)
    (hlen : 0 ≤ l.toInt ∧ l.toInt ≤ (retSpace optLen).toInt)
    (hvalue : a.value.length ≤ (retSpace optLen).toInt.toNat) (fd optBuf : Word) (s : Sys) :
    (sole a).Honours (answering a optLen s) fd 0 (s.esp - retSpace optLen - 24)
      (firstRound optBuf optLen s) where
  set _ hflag := absurd hflag (show ¬ (0 : Word) = T_NEGOTIATE by decide)
  get _ := rfl
  value _ := by
    rw [answering_got hl]
    exact ⟨hvalue, fun _ => hlen⟩

/-- An endpoint whose user asks for one option; the stack pointer is at `esp`. -/
def oneOption (esp : Word) : Sys := { endpoint .idle [0xffff, 4, 4, 1] with esp := esp }

theorem oneOption_rounds
    (hb : optBorrows (answering a 16 (oneOption esp)) 0x1000 16 true (oneOption esp)) :
    optmgmtRounds (answering a 16 (oneOption esp)) 3 0 0x1000 16 true (oneOption esp) =
      [firstRound 0x1000 16 (oneOption esp)] := by
  refine optmgmtRounds_single hb (show 8 ≠ 0 by decide) (by decide) ?_
  show ((16 : Word) - (12 + (endpoint .idle [0xffff, 4, 4, 1]).mem.word (0x1000 + 8))).toNat < 12
  decide +kernel

theorem oneOption_borrows :
    optBorrows (answering a 16 (oneOption 0x8000)) 0x1000 16 true (oneOption 0x8000) ∧
      optBorrows (answering a 16 (oneOption 0x800)) 0x1000 16 true (oneOption 0x800) := by
  refine ⟨⟨?_, ?_, ?_⟩, ⟨?_, ?_, ?_⟩⟩
  all_goals
    simp only [answering, oneOption]
    decide

/-- The call is made, and answered. -/
theorem oneOption_goesOn (esp : Word) (hv : (esp - retSpace 16).toNat + 12 ≤ taskSize) :
    (firstRound 0x1000 16 (oneOption esp)).GoesOn (answering a 16 (oneOption esp)) 3 0
      (esp - retSpace 16 - 24) := by
  refine ⟨⟨⟨⟨?_, ?_⟩, decide_eq_true hv⟩, rfl⟩, rfl, rfl⟩
  · rfl
  · show ((endpoint .idle [0xffff, 4, 4, 1]).mem.word (0x1000 + 8)).toInt ≤ (16 : Word).toInt
    decide +kernel

end AbiEmu.Xti
