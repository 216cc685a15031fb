import AbiEmu.Xti.Options
import AbiEmu.Xti.Scratch
import AbiEmu.Xti.Sockopt

/-!
# The stores of an option list

`Round.acts` are the stores of a round of the loop in `timod_optmgmt`, those of the two
calls included. What the calls store is given by `OptAnswers`, and `OptAnswers.Honours`
is their side of the bargain: no more bytes than the length word allows, and no greater
length.

`optmgmt_replay` ties the log to the model: replayed, the stores of all rounds give the
memory after the call.
-/

namespace AbiEmu.Xti

/-! ## The stores of a round -/

/-- What the calls of an option list store, round by round. -/
structure OptAnswers where
  set : Nat → FrameWords
  get : Nat → OptAnswer

namespace Round

variable (a : OptAnswers) (e : Env) (fd flag tsp : Word) (r : Round)

def setActs : List (Act Ptr) :=
  if flag = T_NEGOTIATE then
    argActs e tsp [fd, r.level, r.name, r.opt.optBuf + 12, r.lenWord] ++ (a.set r.index).acts tsp
  else []

def askActs : List (Act Ptr) :=
  argActs e tsp [fd, r.level, r.name, r.opt.retBuf + 12, tsp + 20, r.opt.retSpace] ++
    (a.get r.index).acts tsp (r.opt.retBuf + 12)

/-- The header goes into the reply, the length into the request. -/
def headerActs : List (Act Ptr) :=
  if (r.answered e fd flag tsp).1 = 0 ∧ e.canWrite r.opt.retBuf 12 = true then
    .copy .stack r.opt.retBuf r.header ::
      putAct e .ctlBuf (r.opt.optBuf + 8) (r.got e fd flag tsp)
  else []

def acts : List (Act Ptr) :=
  (if r.Offered e then r.setActs a e fd flag tsp else []) ++
    if r.Asks e fd flag tsp then r.askActs a e fd tsp ++ r.headerActs e fd flag tsp else []

end Round

/-- The calls of a round do what is said of them, and honour the length they are given:
the room for the reply that is left. -/
structure OptAnswers.Honours (a : OptAnswers) (e : Env) (fd flag tsp : Word) (r : Round) :
    Prop where
  set : r.Offered e → flag = T_NEGOTIATE →
    (e.setsockopt r.index).effect (r.setting e fd tsp).mem =
      replay ((a.set r.index).acts tsp) (r.setting e fd tsp).mem
  get : r.Asks e fd flag tsp →
    (e.getsockopt r.index).effect (r.asking e fd flag tsp).mem =
      replay ((a.get r.index).acts tsp (r.opt.retBuf + 12)) (r.asking e fd flag tsp).mem
  value : r.Asks e fd flag tsp →
    (a.get r.index).toOptValue.Honours r.opt.retSpace (r.got e fd flag tsp)
      (r.answered e fd flag tsp).1

/-- The stores of the option loop. -/
def optActs (a : OptAnswers) (e : Env) (fd flag tsp : Word) (rs : List Round) : List (Act Ptr) :=
  rs.flatMap (Round.acts a e fd flag tsp)

/-- The stores of a call of `timod_optmgmt`. -/
def optmgmtActs (a : OptAnswers) (e : Env) (fd flag optBuf optLen : Word) (doRet : Bool) (s : Sys) :
    List (Act Ptr) :=
  optActs a e fd flag (s.esp - retSpace optLen - 24)
    (optmgmtRounds e fd flag optBuf optLen doRet s)

section Replay

variable {a : OptAnswers} {e : Env} {fd flag tsp : Word}

section

variable {r : Round} (ha : a.Honours e fd flag tsp r)

include ha

theorem Round.afterSet_replay (hoff : r.Offered e) :
    (r.afterSet e fd flag tsp).2.mem = replay (r.setActs a e fd flag tsp) r.sys.mem := by
  unfold Round.afterSet Round.setActs setOption
  split_ifs with hflag
  · rw [replay_append, ← putArgs_replay]
    exact ha.set hoff hflag
  · rfl

theorem Round.answered_replay (hasks : r.Asks e fd flag tsp) :
    (r.answered e fd flag tsp).2.mem =
      replay (r.setActs a e fd flag tsp ++ r.askActs a e fd tsp) r.sys.mem := by
  have hget := ha.get hasks
  unfold Round.askActs
  rw [replay_append, ← r.afterSet_replay ha hasks.1, replay_append, ← putArgs_replay]
  exact hget

/-- The stores of a round make its memory. -/
theorem Round.replay_acts {x : OptEnd ⊕ OptState × Sys} (hx : r.Result e fd flag tsp x) :
    (x.elim OptEnd.sys Prod.snd).mem = replay (r.acts a e fd flag tsp) r.sys.mem := by
  unfold Round.acts
  cases hx with
  | refused hoff _ hsys =>
    rw [if_neg hoff, if_neg fun h => hoff h.1]
    exact congrArg Sys.mem hsys
  | unset hoff hset _ hsys =>
    rw [if_pos hoff, if_neg fun h => hset h.2, List.append_nil, ← r.afterSet_replay ha hoff]
    exact congrArg Sys.mem hsys
  | failed hasks hget _ hsys =>
    rw [if_pos hasks.1, if_pos hasks, Round.headerActs, if_neg hget, List.append_nil,
      ← r.answered_replay ha hasks]
    exact congrArg Sys.mem hsys
  | next hasks hget =>
    rw [if_pos hasks.1, if_pos hasks, Round.headerActs, if_pos hget, ← List.append_assoc,
      replay_append, ← r.answered_replay ha hasks]
    exact putUser_replay e .ctlBuf _ _ (r.copied e fd flag tsp)

end

theorem optLoop_replay : ∀ {n i : Nat} {o : OptState} {s : Sys} {x : OptEnd},
    optLoop e fd flag tsp n i o s = .ok x →
    (∀ r ∈ optRounds e fd flag tsp n i o s, a.Honours e fd flag tsp r) →
      x.sys.mem = replay (optActs a e fd flag tsp (optRounds e fd flag tsp n i o s)) s.mem
  | 0, _, _, _, _, h, _ => nomatch h
  | n + 1, i, o, s, x, h, ha => by
    rw [optLoop_succ] at h
    rw [optRounds] at ha ⊢
    split_ifs at h ha ⊢
    · obtain rfl := Except.ok.inj h
      rfl
    obtain ⟨hfirst, hrest⟩ := List.forall_mem_cons.mp ha
    have hround := Round.optRound_result e fd flag tsp ⟨i, o, s⟩
    unfold optActs
    rw [List.flatMap_cons, replay_append]
    split
    next y hopt =>
      rw [hopt] at h hround
      obtain rfl := Except.ok.inj h
      exact Round.replay_acts hfirst hround
    next y hopt =>
      rw [hopt] at h hround hrest
      rw [← Round.replay_acts hfirst hround]
      exact optLoop_replay h hrest

/-- The end of `timod_optmgmt` stores nothing. -/
theorem optReply_mem (e : Env) (flag retBase esp : Word) (doRet : Bool) (failed error : Int)
    (retLen : Word) (s : Sys) :
    (optReply e flag retBase esp doRet failed error retLen s).2.mem = s.mem := by
  unfold optReply
  split
  · rfl
  · split
    · rfl
    · unfold optAck
      split
      · rfl
      · split <;> rfl

/-- Replaying the stores of a call gives the memory behind it. -/
theorem optmgmt_replay {optBuf optLen : Word} {doRet : Bool} {s t : Sys} {ret : Int}
    (h : timodOptmgmt e fd flag optBuf optLen doRet s = .ok (ret, t))
    (ha : ∀ r ∈ optmgmtRounds e fd flag optBuf optLen doRet s,
      a.Honours e fd flag (s.esp - retSpace optLen - 24) r) :
    t.mem = replay (optmgmtActs a e fd flag optBuf optLen doRet s) s.mem := by
  unfold optmgmtActs
  unfold optmgmtRounds at ha ⊢
  rcases timodOptmgmt_loop h with ⟨hb, rfl⟩ | ⟨x, hb, hrun, hx⟩
  · rw [if_neg hb]
    rfl
  · rw [if_pos hb] at ha ⊢
    have hmem : x.sys.mem = _ := optLoop_replay hrun ha
    cases x with
    | fault u =>
      obtain rfl := hx
      exact hmem
    | done failed error retLen u =>
      obtain ⟨-, rfl⟩ := Prod.mk.inj hx
      exact (optReply_mem ..).trans hmem

end Replay

/-! ## Stores in the frame -/

/-- Everything is stored into the six words at `tsp`. -/
def InFrame (tsp : Word) (acts : List (Act Ptr)) : Prop :=
  ∀ act ∈ acts, ∀ x, act.Stores x → (x - tsp).toNat < 24

section InFrame

variable {a : OptAnswers} {e : Env} {fd flag tsp : Word} {r : Round}

theorem inFrame_append {as bs : List (Act Ptr)} :
    InFrame tsp (as ++ bs) ↔ InFrame tsp as ∧ InFrame tsp bs :=
  List.forall_mem_append

theorem inFrame_nil (tsp : Word) : InFrame tsp [] :=
  nofun

/-- One of the six words. -/
theorem frame_word {k : Nat} (hk : k + 4 ≤ 24) {x : Word}
    (hx : (x - (tsp + BitVec.ofNat 32 k)).toNat < 4) : (x - tsp).toNat < 24 := by
  rw [Mem.sub_add_toNat (by omega)] at hx
  split at hx <;> omega

/-- The arguments of a call. -/
theorem argActs_inFrame {args : List Word} (h : args.length ≤ 6) :
    InFrame tsp (argActs e tsp args) := by
  intro act hact x hx
  obtain ⟨v, hv, hact⟩ := List.mem_flatMap.mp hact
  have hindex : v.2 < args.length := (List.mem_zipIdx' hv).1
  unfold putAct at hact
  split at hact
  · obtain rfl := List.mem_singleton.mp hact
    exact frame_word (by omega) hx
  · exact nomatch hact

theorem puts_inFrame {k : Nat} (hk : k + 4 ≤ 24) (w : Option Word) :
    InFrame tsp (w.toList.map (.put .stack (tsp + BitVec.ofNat 32 k))) := by
  intro act hact x hx
  obtain ⟨v, -, rfl⟩ := List.mem_map.mp hact
  exact frame_word hk hx

theorem frameActs_inFrame (f : FrameWords) : InFrame tsp (f.acts tsp) :=
  inFrame_append.mpr
    ⟨puts_inFrame (k := 4) (by omega) f.level, puts_inFrame (k := 8) (by omega) f.name⟩

theorem setActs_inFrame : InFrame tsp (r.setActs a e fd flag tsp) := by
  unfold Round.setActs
  split
  · have hargs : InFrame tsp
        (argActs e tsp [fd, r.level, r.name, r.opt.optBuf + 12, r.lenWord]) :=
      argActs_inFrame (Nat.le_succ 5)
    exact inFrame_append.mpr ⟨hargs, frameActs_inFrame _⟩
  · exact inFrame_nil tsp

/-- Apart from the value, `getsockopt` and its arguments stay in the frame. -/
theorem askActs_split (a : OptAnswers) (e : Env) (fd tsp : Word) (r : Round) :
    ∃ before after, r.askActs a e fd tsp =
        before ++ .copy .stack (r.opt.retBuf + 12) (a.get r.index).value :: after ∧
      InFrame tsp before ∧ InFrame tsp after := by
  have hargs : InFrame tsp
      (argActs e tsp [fd, r.level, r.name, r.opt.retBuf + 12, tsp + 20, r.opt.retSpace]) :=
    argActs_inFrame (Nat.le_refl 6)
  refine ⟨_, _, ?_, inFrame_append.mpr ⟨hargs, frameActs_inFrame (a.get r.index).toFrameWords⟩,
    puts_inFrame (k := 20) (by omega) (a.get r.index).len⟩
  rw [List.append_assoc]
  rfl

end InFrame

end AbiEmu.Xti
