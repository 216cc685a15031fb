import AbiEmu.Xti.OptRounds

/-!
# The borrowed stack and the file flags

A request builds the arguments of its socket calls below the user's stack
pointer: `regs->esp` is lowered, and put back by hand on each way out. Around
some of these calls `O_NONBLOCK` is set or cleared in `f_flags`, and the old
flags are put back. A program should notice neither.

For each function there is one theorem that says where it leaves the two
(`..._ends`). The stack pointer stays low when a copy of user memory faults
while the space is borrowed: the request itself, an option, the reply to an
option list, or the address of a new connection. The flags are kept in a
16-bit variable, so a file that has one of the upper flags loses it in every
call that saves them. `scratch_invisible_iff` puts the conditions together.
-/

namespace AbiEmu.Xti

theorem not_mem_pair_iff {st st₁ st₂ : TState} : st ≠ st₁ ∧ st ≠ st₂ ↔ st ∉ [st₁, st₂] := by
  rw [List.mem_pair, not_or]

/-- A lowered stack pointer is another one. -/
theorem sub_ne_self (a : Word) : a - 1024 ≠ a := by bv_omega

theorem narrowed_narrowed (f : Word) : narrowed (narrowed f) = narrowed f := by
  unfold narrowed
  rw [BitVec.setWidth_setWidth_of_le (f.setWidth 16) (by omega : 16 ≤ 32), BitVec.setWidth_eq]

/-! ## Requests that copy themselves in while they hold the space -/

/-- What such a request checks before it borrows: that its own `size` bytes are
the user's, that the endpoint is in one of the states, that there is `space`. -/
structure Scratch where
  size : Int
  space : Int
  states : List TState

/-- The request borrows space. -/
def Scratch.borrows (q : Scratch) (e : Env) (c : PutArgs) (s : Sys) : Prop :=
  e.verify false c.ctlBuf q.size = true ∧ s.priv.state ∈ q.states ∧
    e.verify true (s.esp - 1024) q.space = true
  deriving Decidable

/-- It returns without giving the space back. -/
def Scratch.keeps (q : Scratch) (e : Env) (c : PutArgs) (s : Sys) : Prop :=
  q.borrows e c s ∧ e.copyFaults c.ctlBuf q.size
  deriving Decidable

def bindScratch : Scratch := ⟨16, 12, [.unbnd]⟩
def connScratch : Scratch := ⟨20, 12, [.unbnd, .idle]⟩
def unitdataScratch : Scratch := ⟨20, 24, [.idle, .dataXfer]⟩

/-- Where the stack pointer and the file flags end. -/
def Ends (t : Sys) (esp fflags : Word) : Prop := t.esp = esp ∧ t.fflags = fflags

variable {low esp fflags : Word}

theorem Ends.keeps {t : Sys} {P : Prop} [Decidable P] (hP : P) (h : Ends t low fflags) :
    Ends t (if P then low else esp) fflags := by
  rw [if_pos hP]
  exact h

theorem Ends.gives {t : Sys} {P : Prop} [Decidable P] (hP : ¬ P) (h : Ends t esp fflags) :
    Ends t (if P then low else esp) fflags := by
  rw [if_neg hP]
  exact h

section Putmsg

variable {e : Env} {c : PutArgs} {s t : Sys} {r : Int}

theorem answer_ends {prim : Word} {a : Addr} {n : TPrimsg}
    (h : answer e prim a n s = .ok (r, t)) : Ends t s.esp s.fflags ∧ t.fdOps = s.fdOps := by
  unfold answer at h
  split at h
  · exact nomatch h
  · exact of_ok h ⟨⟨rfl, rfl⟩, rfl⟩

theorem bindReply_ends {error : Int} (h : bindReply e c error s = .ok (r, t)) :
    Ends t s.esp s.fflags ∧ t.fdOps = s.fdOps := by
  unfold bindReply at h
  split at h
  · exact of_ok h ⟨⟨rfl, rfl⟩, rfl⟩
  split at h
  · exact of_ok h ⟨⟨rfl, rfl⟩, rfl⟩
  split at h
  · exact of_ok h ⟨⟨rfl, rfl⟩, rfl⟩
  · exact (answer_ends h : Ends t _ _ ∧ _)

theorem fixFamily_onlyMem (e : Env) (sin : Word) (s : Sys) : OnlyMem s (fixFamily e sin s) := by
  unfold fixFamily
  dsimp only
  split
  · exact putUser16_onlyMem ..
  · exact .refl s

theorem fixPort_onlyMem (e : Env) (sin : Word) (family : BitVec 16) (s : Sys) :
    OnlyMem s (fixPort e sin family s) := by
  unfold fixPort
  split
  · exact putUser16_onlyMem ..
  · exact .refl s

theorem connectArgs_onlyMem (e : Env) (c : PutArgs) (tsp destLen destOff : Word) (s : Sys) :
    OnlyMem s (connectArgs e c tsp destLen destOff s) :=
  ((putArgs_onlyMem ..).trans (fixFamily_onlyMem ..)).trans (fixPort_onlyMem ..)

theorem bindAddress_ends (e : Env) (c : PutArgs) (tsp addrLen addrOff conind : Word) (s : Sys) :
    (bindAddress e c tsp addrLen addrOff conind s).2.fflags = s.fflags ∧
      (bindAddress e c tsp addrLen addrOff conind s).2.fdOps = s.fdOps := by
  have hbind : OnlyMem s (bindCall e c tsp addrLen addrOff s).2 :=
    ((fixFamily_onlyMem ..).trans (putArgs_onlyMem ..)).trans (socketcall_onlyMem ..)
  unfold bindAddress
  dsimp only
  split_ifs
  · exact ⟨hbind.fflags, hbind.fdOps⟩
  · have hlisten := hbind.trans ((putArgs_onlyMem e tsp [c.fd, conind] _).trans
      (socketcall_onlyMem (e.socket .listen) _))
    exact ⟨hlisten.fflags, hlisten.fdOps⟩
  · exact ⟨hbind.fflags, hbind.fdOps⟩

/-- A request that stops before it borrows keeps nothing. -/
theorem ends_of_not_borrows {q : Scratch} {fflags : Word} (hb : ¬ q.borrows e c s)
    (ht : Ends t s.esp fflags) :
    Ends t (if q.keeps e c s then s.esp - 1024 else s.esp) fflags :=
  .gives (fun hk => hb hk.1) ht

theorem bindReq_ends (h : bindReq e c s = .ok (r, t)) :
    Ends t (if bindScratch.keeps e c s then s.esp - 1024 else s.esp) s.fflags ∧
      t.fdOps = s.fdOps := by
  unfold bindReq at h
  dsimp only at h
  split_ifs at h with hv hst htsp hcopy
  · obtain ⟨-, rfl⟩ := ok_inj h
    exact ⟨ends_of_not_borrows (fun hb => hst (List.mem_singleton.mp hb.2.1)) ⟨rfl, rfl⟩, rfl⟩
  · obtain ⟨-, rfl⟩ := ok_inj h
    have hb : bindScratch.borrows e c s := ⟨hv, List.mem_singleton.mpr (not_not.mp hst), htsp⟩
    exact ⟨.keeps ⟨hb, isNone_iff_faults.mp hcopy⟩ ⟨rfl, rfl⟩, rfl⟩
  · obtain ⟨⟨hesp, hff⟩, hfd⟩ := bindReply_ends h
    exact ⟨.gives (fun hk => hcopy (isNone_iff_faults.mpr hk.2))
      ⟨hesp, hff.trans (bindAddress_ends ..).1⟩, hfd.trans (bindAddress_ends ..).2⟩
  · obtain ⟨hends, hfd⟩ := bindReply_ends h
    exact ⟨.gives (fun hk => hcopy (isNone_iff_faults.mpr hk.2)) hends, hfd⟩
  · exact of_ok h ⟨ends_of_not_borrows (fun hb => htsp hb.2.2) ⟨rfl, rfl⟩, rfl⟩
  · exact of_ok h ⟨ends_of_not_borrows (fun hb => hv hb.1) ⟨rfl, rfl⟩, rfl⟩

theorem connRes_ends (h : connRes e c s = .ok (r, t)) : Ends t s.esp s.fflags := by
  unfold connRes at h
  split at h
  · exact of_ok h ⟨rfl, rfl⟩
  · dsimp only at h
    split_ifs at h <;> exact of_ok h ⟨rfl, rfl⟩

theorem connReply_ends {error : Int} (h : connReply e c error s = .ok (r, t)) :
    Ends t s.esp s.fflags ∧ t.fdOps = s.fdOps := by
  unfold connReply at h
  split at h
  · split at h
    · exact of_ok h ⟨⟨rfl, rfl⟩, rfl⟩
    split at h
    · exact of_ok h ⟨⟨rfl, rfl⟩, rfl⟩
    · exact (answer_ends h : Ends t _ _ ∧ _)
  split at h
  · exact of_ok h ⟨⟨rfl, rfl⟩, rfl⟩
  · exact (answer_ends h : Ends t _ _ ∧ _)

/-- The connect request gets as far as saving the flags. -/
def connSaves (e : Env) (c : PutArgs) (s : Sys) : Prop :=
  connScratch.borrows e c s ∧ ¬ e.copyFaults c.ctlBuf 20
  deriving Decidable

theorem connReq_ends (h : connReq e c s = .ok (r, t)) :
    Ends t (if connScratch.keeps e c s then s.esp - 1024 else s.esp)
      (if connSaves e c s then narrowed s.fflags else s.fflags) ∧ t.fdOps = s.fdOps := by
  have hquiet {t} (hb : ¬ connScratch.borrows e c s) (ht : Ends t s.esp s.fflags) :
      Ends t (if connScratch.keeps e c s then s.esp - 1024 else s.esp)
        (if connSaves e c s then narrowed s.fflags else s.fflags) := by
    rw [if_neg fun hs : connSaves e c s => hb hs.1]
    exact ends_of_not_borrows hb ht
  unfold connReq at h
  dsimp only at h
  split_ifs at h with hv hst htsp hcopy
  · exact of_ok h ⟨hquiet (fun hb => not_mem_pair_iff.mp hst hb.2.1) ⟨rfl, rfl⟩, rfl⟩
  · obtain ⟨-, rfl⟩ := ok_inj h
    have hb : connScratch.borrows e c s := ⟨hv, not_not.mp (mt not_mem_pair_iff.mpr hst), htsp⟩
    have hfault := isNone_iff_faults.mp hcopy
    rw [if_pos ⟨hb, hfault⟩, if_neg fun hs : connSaves e c s => hs.2 hfault]
    exact ⟨⟨rfl, rfl⟩, rfl⟩
  · have hb : connScratch.borrows e c s := ⟨hv, not_not.mp (mt not_mem_pair_iff.mpr hst), htsp⟩
    have hfine := mt isNone_iff_faults.mpr hcopy
    rw [if_neg fun hk : connScratch.keeps e c s => hfine hk.2, if_pos ⟨hb, hfine⟩]
    obtain ⟨⟨hesp, hff⟩, hfd⟩ := connReply_ends h
    have hargs := connectArgs_onlyMem e c (s.esp - 1024) (s.mem.word (c.ctlBuf + 4))
      (s.mem.word (c.ctlBuf + 8)) { s with esp := s.esp - 1024 }
    exact ⟨⟨hesp, hff.trans (congrArg narrowed hargs.fflags)⟩, hfd.trans hargs.fdOps⟩
  · exact of_ok h ⟨hquiet (fun hb => htsp hb.2.2) ⟨rfl, rfl⟩, rfl⟩
  · exact of_ok h ⟨hquiet (fun hb => hv hb.1) ⟨rfl, rfl⟩, rfl⟩

theorem disconReq_ends (e : Env) (c : PutArgs) (s : Sys) :
    Ends (disconReq e c s).2 s.esp s.fflags := by
  unfold disconReq
  split <;> exact ⟨rfl, rfl⟩

theorem dataReq_ends (e : Env) (c : PutArgs) (s : Sys) :
    Ends (dataReq e c s).2 s.esp s.fflags ∧ (dataReq e c s).2.fdOps = s.fdOps := by
  unfold dataReq
  dsimp only
  split_ifs
  · exact ⟨⟨rfl, rfl⟩, rfl⟩
  · exact ⟨⟨rfl, (putArgs_onlyMem ..).fflags⟩, (putArgs_onlyMem ..).fdOps⟩
  · exact ⟨⟨rfl, rfl⟩, rfl⟩

theorem unitdataReq_ends (e : Env) (c : PutArgs) (s : Sys) :
    Ends (unitdataReq e c s).2
      (if unitdataScratch.keeps e c s then s.esp - 1024 else s.esp) s.fflags ∧
    (unitdataReq e c s).2.fdOps = s.fdOps := by
  have hargs := putArgs_onlyMem e (s.esp - 1024)
    [c.fd, c.datBuf, BitVec.ofInt 32 c.datLen, 0] { s with esp := s.esp - 1024 }
  unfold unitdataReq
  dsimp only
  split
  next hv => exact ⟨ends_of_not_borrows (fun hb => hv hb.1) ⟨rfl, rfl⟩, rfl⟩
  split
  next hst =>
    exact ⟨ends_of_not_borrows (fun hb => not_mem_pair_iff.mp hst hb.2.1) ⟨rfl, rfl⟩, rfl⟩
  split
  next htsp => exact ⟨ends_of_not_borrows (fun hb => htsp hb.2.2) ⟨rfl, rfl⟩, rfl⟩
  split
  next hv hst htsp hcopy =>
    have hb : unitdataScratch.borrows e c s :=
      ⟨not_not.mp hv, not_not.mp (mt not_mem_pair_iff.mpr hst), not_not.mp htsp⟩
    exact ⟨.keeps ⟨hb, isNone_iff_faults.mp hcopy⟩ ⟨hargs.esp, hargs.fflags⟩, hargs.fdOps⟩
  split
  next hcopy _ =>
    -- the destination is stored behind the other arguments
    have hdest (a v a' v' : Word) :=
      (hargs.trans (putUser_onlyMem e a v _)).trans (putUser_onlyMem e a' v' _)
    exact ⟨.gives (fun hk => hcopy (isNone_iff_faults.mpr hk.2)) ⟨rfl, (hdest ..).fflags⟩,
      (hdest ..).fdOps⟩
  next hcopy _ =>
    exact ⟨.gives (fun hk => hcopy (isNone_iff_faults.mpr hk.2)) ⟨rfl, hargs.fflags⟩, hargs.fdOps⟩

end Putmsg

/-! ## `timod_optmgmt` -/

section Optmgmt

variable {e : Env} {s t : Sys} {r : Int} {fd flag optBuf optLen : Word} {doRet : Bool}

/-- The option loop works in user memory. -/
theorem optLoop_onlyMem {tsp : Word} {n i : Nat} {o : OptState} {x : OptEnd}
    (h : optLoop e fd flag tsp n i o s = .ok x) : OnlyMem s x.sys := by
  refine optLoop_keeps OnlyMem.refl OnlyMem.trans (fun i o s => ?_) h
  refine optRound_keeps OnlyMem.refl OnlyMem.trans ?_ ?_ copyToUser_onlyMem putUser_onlyMem
    e fd flag tsp i o s
  · intro e fd flag tsp i o level name len s
    unfold setOption
    split
    · exact (putArgs_onlyMem ..).trans (socketcall_onlyMem ..)
    · exact .refl s
  · intro e fd tsp i o level name s
    exact (putArgs_onlyMem ..).trans (socketcall_onlyMem ..)

/-- A user copy faults: of an option header in one of the rounds or, if all options got
through and there is memory for the answer, of the reply behind them. -/
def optFaults (e : Env) (fd flag tsp retBase : Word) (doRet : Bool) (rs : List Round) (s : Sys) :
    Prop :=
  (∃ r ∈ rs, r.Faults e fd flag tsp) ∨
    doRet = true ∧ (∀ r ∈ rs, r.GoesOn e fd flag tsp) ∧
      (s.timodMkctl e.ctlAlloc (16 + (replyLen e fd flag tsp rs).toInt)).isSome = true ∧
      e.copyFaults retBase (replyLen e fd flag tsp rs).toInt
  deriving Decidable

/-- `timod_optmgmt` returns without giving the space back. -/
def optKeeps (e : Env) (fd flag optBuf optLen : Word) (doRet : Bool) (s : Sys) : Prop :=
  optBorrows e optBuf optLen doRet s ∧
    optFaults e fd flag (s.esp - retSpace optLen - 24) (s.esp - retSpace optLen) doRet
      (optmgmtRounds e fd flag optBuf optLen doRet s) s
  deriving Decidable

/-- The same for `T_OPTMGMT_REQ`, which gives the options by their place in the
request. -/
def optReqKeeps (e : Env) (c : PutArgs) (s : Sys) : Prop :=
  e.verify false c.ctlBuf 16 = true ∧ ¬ e.copyFaults c.ctlBuf 16 ∧
    optKeeps e c.fd (s.mem.word (c.ctlBuf + 12))
      (if 0 < (s.mem.word (c.ctlBuf + 8)).toInt then c.ctlBuf + s.mem.word (c.ctlBuf + 8) else 0)
      (s.mem.word (c.ctlBuf + 4)) true s
  deriving Decidable

/-- The loop of a call that gets as far as that; the others store nothing. -/
theorem timodOptmgmt_loop {ret : Int}
    (h : timodOptmgmt e fd flag optBuf optLen doRet s = .ok (ret, t)) :
    (¬ optBorrows e optBuf optLen doRet s ∧ t = s) ∨
      ∃ x, optBorrows e optBuf optLen doRet s ∧ optRun e fd flag optBuf optLen s = .ok x ∧
        match x with
        | .fault u => t = u
        | .done failed error retLen u => (ret, t) =
          optReply e flag (s.esp - retSpace optLen) s.esp doRet failed error retLen u := by
  unfold timodOptmgmt at h
  dsimp only at h
  split_ifs at h with hv hret htsp
  · exact .inl ⟨fun hb => hb.1 hv, (ok_inj h).2.symm⟩
  · exact .inl ⟨fun hb => hb.2.1 hret, (ok_inj h).2.symm⟩
  · have hb : optBorrows e optBuf optLen doRet s := ⟨hv, hret, htsp⟩
    have hrun : optRun e fd flag optBuf optLen s = _ := rfl
    right
    split at h
    · cases h
    next u hloop => exact ⟨_, hb, hrun.trans hloop, (ok_inj h).2.symm⟩
    next hloop => exact ⟨_, hb, hrun.trans hloop, (Except.ok.inj h).symm⟩
  · exact .inl ⟨fun hb => htsp hb.2.2, (ok_inj h).2.symm⟩

/-- The copy of the reply faults. -/
def replyFaults (e : Env) (retBase retLen : Word) (doRet : Bool) (failed : Int) (s : Sys) : Prop :=
  doRet = true ∧ failed = 0 ∧ (s.timodMkctl e.ctlAlloc (16 + retLen.toInt)).isSome = true ∧
    e.copyFaults retBase retLen.toInt
  deriving Decidable

theorem optReply_ends (e : Env) (flag retBase esp retLen : Word) (doRet : Bool)
    (failed error : Int) (s : Sys) :
    Ends (optReply e flag retBase esp doRet failed error retLen s).2
      (if replyFaults e retBase retLen doRet failed s then s.esp else esp) s.fflags ∧
    (optReply e flag retBase esp doRet failed error retLen s).2.fdOps = s.fdOps := by
  unfold optReply
  split
  next hret => exact ⟨.gives (fun h => hret h.1) ⟨rfl, rfl⟩, rfl⟩
  split
  next hfailed => exact ⟨.gives (fun h => hfailed h.2.1) ⟨rfl, rfl⟩, rfl⟩
  next hret hfailed =>
    unfold optAck
    split
    next hb =>
      refine ⟨.gives (fun h => ?_) ⟨rfl, rfl⟩, rfl⟩
      have hgranted := h.2.2.1
      rw [hb] at hgranted
      cases hgranted
    next b k hb =>
      split
      next hcopy =>
        refine ⟨.keeps ⟨not_not.mp hret, not_not.mp hfailed, ?_, ?_⟩ ⟨rfl, rfl⟩, rfl⟩
        · rw [hb]
          rfl
        · exact copyFromUser_eq_none_iff.mp hcopy
      next reply hcopy =>
        refine ⟨.gives (fun h => ?_) ⟨rfl, rfl⟩, rfl⟩
        rw [copyFromUser_eq_none_iff.mpr h.2.2.2] at hcopy
        cases hcopy

/-- The reply of a loop that came to its end faults as its rounds say. -/
theorem replyFaults_iff {tsp retBase retLen : Word} {rs : List Round} {failed error : Int}
    {u : Sys} (hcore : u.toCore = s.toCore)
    (h : (OptEnd.done failed error retLen u).Accounts e fd flag tsp rs 0) :
    replyFaults e retBase retLen doRet failed u ↔ optFaults e fd flag tsp retBase doRet rs s := by
  obtain ⟨hnone, hall, hlen⟩ := h
  unfold replyFaults optFaults
  rw [hcore, ← hall, or_iff_right fun ⟨r, hr, hfault⟩ => hnone r hr hfault]
  refine and_congr_right fun _ => and_congr_right fun hzero => ?_
  rw [hlen hzero, show 0 + replyLen e fd flag tsp rs = _ from BitVec.zero_add _]

theorem timodOptmgmt_ends (h : timodOptmgmt e fd flag optBuf optLen doRet s = .ok (r, t)) :
    Ends t (if optKeeps e fd flag optBuf optLen doRet s then s.esp - retSpace optLen - 24
      else s.esp) s.fflags ∧ t.fdOps = s.fdOps := by
  rcases timodOptmgmt_loop h with ⟨hb, rfl⟩ | ⟨x, hb, hrun, hx⟩
  · exact ⟨.gives (fun hk => hb hk.1) ⟨rfl, rfl⟩, rfl⟩
  have hkeeps : optKeeps e fd flag optBuf optLen doRet s ↔ _ := and_iff_right hb
  have hrounds := optRun_accounts hb hrun
  have hmem : OnlyMem { s with esp := s.esp - retSpace optLen - 24 } x.sys := optLoop_onlyMem hrun
  cases x with
  | fault u =>
    obtain rfl := hx
    exact ⟨.keeps (hkeeps.mpr (.inl hrounds)) ⟨hmem.esp, hmem.fflags⟩, hmem.fdOps⟩
  | done failed error retLen u =>
    obtain rfl : t = _ := congrArg Prod.snd hx
    obtain ⟨⟨hesp, hff⟩, hfd⟩ := optReply_ends e flag (s.esp - retSpace optLen) s.esp retLen doRet
      failed error u
    refine ⟨⟨hesp.trans ?_, hff.trans hmem.fflags⟩, hfd.trans hmem.fdOps⟩
    exact if_congr ((replyFaults_iff hmem.toCore hrounds).trans hkeeps.symm) hmem.esp rfl

theorem optmgmtReq_ends {c : PutArgs} (h : optmgmtReq e c s = .ok (r, t)) :
    Ends t (if optReqKeeps e c s then s.esp - retSpace (s.mem.word (c.ctlBuf + 4)) - 24
      else s.esp) s.fflags ∧ t.fdOps = s.fdOps := by
  unfold optmgmtReq at h
  split at h
  next hv => exact of_ok h ⟨.gives (fun hk => hv hk.1) ⟨rfl, rfl⟩, rfl⟩
  next hv =>
    split at h
    next hcopy =>
      exact of_ok h ⟨.gives (fun hk => hk.2.1 (isNone_iff_faults.mp hcopy)) ⟨rfl, rfl⟩, rfl⟩
    next hcopy =>
      have hkeeps : optReqKeeps e c s ↔ _ := (and_iff_right (not_not.mp hv)).trans
        (and_iff_right (mt isNone_iff_faults.mpr hcopy))
      obtain ⟨⟨hesp, hff⟩, hfd⟩ := timodOptmgmt_ends h
      exact ⟨⟨hesp.trans (if_congr hkeeps.symm rfl rfl), hff⟩, hfd⟩

end Optmgmt

/-! ## `timod_update_socket` and `do_getmsg` -/

section Getmsg

/-- A connection is accepted and the copy of its address faults. -/
def addressFaults (e : Env) (fd : Word) (s : Sys) : Prop :=
  ¬ (e.socket .accept).result < 0 ∧
    (s.timodMkctl e.ctlAlloc (24 + (peerLength e fd s).toNat)).isSome = true ∧
    e.copyFaults (s.esp - 1024 + 16) (peerLength e fd s).toInt
  deriving Decidable

theorem timodUpdateSocket_ends (e : Env) (fd : Word) (s : Sys) :
    Ends (timodUpdateSocket e fd s).2
      (if callsAccept e s ∧ addressFaults e fd s then s.esp - 1024 else s.esp)
      (if callsAccept e s then narrowed s.fflags else s.fflags) := by
  have hupdates := timodUpdateSocket_updates e fd s
  generalize (timodUpdateSocket e fd s).1 = r, (timodUpdateSocket e fd s).2 = t at hupdates ⊢
  cases hupdates with
  | quiet hcall =>
    rw [if_neg hcall]
    exact .gives (fun h => hcall h.1) ⟨rfl, rfl⟩
  | refused hcall hres =>
    rw [if_pos hcall]
    exact .gives (fun h => h.2.1 hres) ⟨rfl, rfl⟩
  | dropped hcall hres hb =>
    rw [if_pos hcall]
    refine .gives (fun h => ?_) ⟨rfl, rfl⟩
    have hgranted := h.2.2.1
    rw [hb] at hgranted
    cases hgranted
  | fault hcall hres hb hcopy =>
    rw [if_pos hcall]
    refine .keeps ⟨hcall, hres, ?_, copyFromUser_eq_none_iff.mp hcopy⟩ ⟨rfl, rfl⟩
    rw [hb]
    rfl
  | announced hcall hres hb hcopy =>
    rw [if_pos hcall]
    refine .gives (fun h => ?_) ⟨rfl, rfl⟩
    rw [copyFromUser_eq_none_iff.mpr h.2.2.2] at hcopy
    cases hcopy

variable {e : Env} {c : GetArgs} {s t : Sys} {g : Got}

theorem deliver_ends {a : Addr} {it : TPrimsg} (h : deliver e c a it s = .ok g) :
    Ends g.sys s.esp s.fflags := by
  exact ⟨(deliver_onlyMem h).esp, (deliver_onlyMem h).fflags⟩

/-- `do_getmsg` puts the stack pointer back itself, if it comes to receiving data. -/
theorem receive_ends {esp : Word} (hv : e.verify true (esp - 1024) 24 = true) (s : Sys) :
    Ends (receive e c esp s).sys (if c.datMaxlen ≤ 0 then s.esp else esp)
      (if c.datMaxlen ≤ 0 then s.fflags else narrowed s.fflags) := by
  split
  next hdat =>
    have hmem := nothing_onlyMem e c s
    unfold receive
    rw [if_pos hdat]
    exact ⟨hmem.esp, hmem.fflags⟩
  next hdat =>
    have hmem := takeData_onlyMem e c (wantsAddr c s) (afterRecv e c esp s)
    rw [receive_eq hdat hv]
    exact ⟨hmem.esp, hmem.fflags⟩

/-- `do_getmsg` looks for a connection, and calls `accept`. -/
def getAccepts (e : Env) (c : GetArgs) (s : Sys) : Prop :=
  getEnters e s ∧ 0 ≤ c.ctlMaxlen ∧ s.priv.pfirst = none ∧ callsAccept e s
  deriving Decidable

/-- It saves the flags, for `accept` or for `recvfrom`. -/
def getSaves (e : Env) (c : GetArgs) (s : Sys) : Prop :=
  getAccepts e c s ∨
    (getEnters e s ∧ 0 < c.datMaxlen ∧ (0 ≤ c.ctlMaxlen → s.priv.pfirst = none))
  deriving Decidable

/-- It returns without giving the space back. -/
def getKeeps (e : Env) (c : GetArgs) (s : Sys) : Prop :=
  getAccepts e c s ∧ addressFaults e c.fd s ∧ c.datMaxlen ≤ 0
  deriving Decidable

/-- No message is queued when the address of the connection faults. -/
theorem pfirst_of_addressFaults {fd : Word} (hfault : addressFaults e fd s) :
    (timodUpdateSocket e fd s).2.priv.pfirst = s.priv.pfirst := by
  have hupdates := timodUpdateSocket_updates e fd s
  generalize (timodUpdateSocket e fd s).1 = r, (timodUpdateSocket e fd s).2 = t at hupdates ⊢
  cases hupdates with
  | quiet | refused | dropped => rfl
  | fault _ _ hb _ =>
    obtain ⟨-, -, rfl⟩ := timodMkctl_spec hb
    rfl
  | announced _ _ _ hcopy =>
    rw [copyFromUser_eq_none_iff.mpr hfault.2.2] at hcopy
    cases hcopy

/-- Where the two stand when `do_getmsg` has looked for a connection. -/
theorem getFrom_ends_looked (henter : getEnters e s) (hmax : 0 ≤ c.ctlMaxlen)
    (hempty : s.priv.pfirst = none) (h : getFrom e c s.esp (timodUpdateSocket e c.fd s).2 = .ok g) :
    Ends g.sys (if getKeeps e c s then s.esp - 1024 else s.esp)
      (if getSaves e c s then narrowed s.fflags else s.fflags) := by
  obtain ⟨hesp, hff⟩ := timodUpdateSocket_ends e c.fd s
  unfold getFrom at h
  rw [if_pos hmax] at h
  by_cases hcall : callsAccept e s
  · have haccepts : getAccepts e c s := ⟨henter, hmax, hempty, hcall⟩
    have hsaves : getSaves e c s := .inl haccepts
    rw [if_pos hcall] at hff
    rw [if_pos hsaves]
    split at h
    next a ha =>
      -- a message is there, so the address did not fault
      have hfine : ¬ addressFaults e c.fd s := fun hfault => by
        rw [pfirst_of_addressFaults hfault, hempty] at ha
        cases ha
      rw [if_neg fun hk => hfine hk.2] at hesp
      split at h
      · exact nomatch h
      · obtain ⟨hesp', hff'⟩ := deliver_ends h
        exact .gives (fun hk => hfine hk.2.1) ⟨hesp'.trans hesp, hff'.trans hff⟩
    · obtain rfl := Except.ok.inj h
      obtain ⟨hesp', hff'⟩ := receive_ends henter.1 (timodUpdateSocket e c.fd s).2
      split_ifs at hesp' hff' with hdat
      · refine ⟨hesp'.trans (hesp.trans ?_), hff'.trans hff⟩
        by_cases hfault : addressFaults e c.fd s
        · rw [if_pos ⟨hcall, hfault⟩, if_pos ⟨haccepts, hfault, hdat⟩]
        · rw [if_neg fun hk => hfault hk.2, if_neg fun hk : getKeeps e c s => hfault hk.2.1]
      · refine .gives (fun hk => hdat hk.2.2) ⟨hesp', hff'.trans ?_⟩
        rw [hff, narrowed_narrowed]
  · have hno : ¬ getAccepts e c s := fun ha => hcall ha.2.2.2
    rw [timodUpdateSocket_quiet hcall, hempty] at h
    obtain rfl := Except.ok.inj h
    obtain ⟨hesp', hff'⟩ := receive_ends henter.1 s
    refine .gives (fun hk => hno hk.1) ⟨hesp'.trans (ite_self _), hff'.trans ?_⟩
    split
    next hdat =>
      rw [if_neg]
      rintro (ha | hr)
      · exact hno ha
      · exact absurd hdat (not_le.mpr hr.2.1)
    next hdat =>
      rw [if_pos]
      exact .inr ⟨henter, not_le.mp hdat, fun _ => hempty⟩

/-- The same when it has not: the queue is not empty, or no control message is
asked for. -/
theorem getFrom_ends_straight (henter : getEnters e s)
    (hlook : ¬ (0 ≤ c.ctlMaxlen ∧ s.priv.pfirst = none)) (h : getFrom e c s.esp s = .ok g) :
    Ends g.sys (if getKeeps e c s then s.esp - 1024 else s.esp)
      (if getSaves e c s then narrowed s.fflags else s.fflags) := by
  have hno : ¬ getAccepts e c s := fun ha => hlook ⟨ha.2.1, ha.2.2.1⟩
  refine .gives (fun hk => hno hk.1) ?_
  unfold getFrom at h
  split at h
  next hmax =>
    have hsaves : ¬ getSaves e c s := by
      rintro (ha | hr)
      · exact hno ha
      · exact hlook ⟨hmax, hr.2.2 hmax⟩
    rw [if_neg hsaves]
    split at h
    · split at h
      · exact nomatch h
      · exact deliver_ends h
    next hnone => exact absurd ⟨hmax, hnone⟩ hlook
  next hmax =>
    obtain rfl := Except.ok.inj h
    obtain ⟨hesp, hff⟩ := receive_ends henter.1 s
    refine ⟨hesp.trans (ite_self _), hff.trans ?_⟩
    split
    next hdat =>
      rw [if_neg]
      rintro (ha | hr)
      · exact hno ha
      · exact absurd hdat (not_le.mpr hr.2.1)
    next hdat =>
      rw [if_pos]
      exact .inr ⟨henter, not_le.mp hdat, fun hpos => absurd hpos hmax⟩

theorem doGetmsg_ends (h : doGetmsg e c s = .ok g) :
    Ends g.sys (if getKeeps e c s then s.esp - 1024 else s.esp)
      (if getSaves e c s then narrowed s.fflags else s.fflags) := by
  by_cases henter : getEnters e s
  · rw [doGetmsg_eq henter] at h
    unfold lookForConnection at h
    split at h
    next hlook => exact getFrom_ends_looked henter hlook.1 hlook.2 h
    next hlook => exact getFrom_ends_straight henter hlook h
  · obtain ⟨r, -, hdown⟩ := doGetmsg_turned_down henter
    obtain rfl := Except.ok.inj (hdown.symm.trans h)
    have hsaves : ¬ getSaves e c s := by
      rintro (ha | hr)
      · exact henter ha.1
      · exact henter hr.1
    rw [if_neg hsaves]
    exact .gives (fun hk => henter hk.1.1) ⟨rfl, rfl⟩

end Getmsg

/-! ## The four functions -/

/-- A call of one of the functions that borrow the user's stack. -/
inductive ScratchCall where
  | putmsg (e : Env) (c : PutArgs)
  | getmsg (e : Env) (c : GetArgs)
  | optmgmt (e : Env) (fd flag optBuf optLen : Word) (doRet : Bool)
  | updateSocket (e : Env) (fd : Word)

/-- The endpoint when the call returns. -/
def ScratchCall.run (q : ScratchCall) (s : Sys) : Res Sys :=
  match q with
  | .putmsg e c => (doPutmsg e c s).map Prod.snd
  | .getmsg e c => (doGetmsg e c s).map Got.sys
  | .optmgmt e fd flag optBuf optLen doRet =>
    (timodOptmgmt e fd flag optBuf optLen doRet s).map Prod.snd
  | .updateSocket e fd => .ok (timodUpdateSocket e fd s).2

/-- The file flags fit in the variable that keeps them. -/
def FlagsFit (s : Sys) : Prop := narrowed s.fflags = s.fflags

/-- What a request must not meet. -/
def putRestores (e : Env) (c : PutArgs) (s : Sys) : Prop :=
  match getUser e s c.ctlBuf with
  | none => True
  | some cmd =>
    if cmd = T_BIND_REQ then ¬ bindScratch.keeps e c s
    else if cmd = T_CONN_REQ then ¬ connScratch.keeps e c s ∧ (connSaves e c s → FlagsFit s)
    else if cmd = T_UNITDATA_REQ then ¬ unitdataScratch.keeps e c s
    else if cmd = T_OPTMGMT_REQ then
      optReqKeeps e c s → retSpace (s.mem.word (c.ctlBuf + 4)) + 24 = 0
    else True

/-- No copy faults while the space is borrowed, and flags that are saved fit. The
space of an option list can come to a whole turn around the address space. -/
def ScratchCall.Restores (q : ScratchCall) (s : Sys) : Prop :=
  match q with
  | .putmsg e c => putRestores e c s
  | .getmsg e c => ¬ getKeeps e c s ∧ (getSaves e c s → FlagsFit s)
  | .optmgmt e fd flag optBuf optLen doRet =>
    optKeeps e fd flag optBuf optLen doRet s → retSpace optLen + 24 = 0
  | .updateSocket e fd => callsAccept e s → ¬ addressFaults e fd s ∧ FlagsFit s

section Restores

variable {s t : Sys} {P Q : Prop} [Decidable P] [Decidable Q]

theorem ends_iff (h : Ends t (if P then s.esp - 1024 else s.esp)
      (if Q then narrowed s.fflags else s.fflags)) :
    Ends t s.esp s.fflags ↔ ¬ P ∧ (Q → FlagsFit s) := by
  obtain ⟨hesp, hff⟩ := h
  unfold Ends FlagsFit
  rw [hesp, hff]
  split
  next hP => exact ⟨fun h => absurd h.1 (sub_ne_self _), fun h => absurd hP h.1⟩
  next hP =>
    split_ifs with hQ
    · exact ⟨fun h => ⟨hP, fun _ => h.2⟩, fun h => ⟨rfl, h.2 hQ⟩⟩
    · exact ⟨fun _ => ⟨hP, fun h => absurd h hQ⟩, fun _ => ⟨rfl, rfl⟩⟩

theorem ends_space_iff {space : Word}
    (h : Ends t (if P then s.esp - space - 24 else s.esp) s.fflags) :
    Ends t s.esp s.fflags ↔ (P → space + 24 = 0) := by
  obtain ⟨hesp, hff⟩ := h
  unfold Ends
  rw [hesp, hff]
  by_cases hP : P
  · rw [if_pos hP]
    constructor
    · rintro ⟨heq, -⟩ -
      bv_omega
    · intro hz
      have hz := hz hP
      exact ⟨by bv_omega, rfl⟩
  · simp [hP]

/-- A call that always puts both back. -/
theorem ends_iff_true (h : Ends t s.esp s.fflags) : Ends t s.esp s.fflags ↔ True :=
  iff_true_intro h

end Restores

theorem doPutmsg_ends_iff {c : PutArgs} {s t : Sys} {r : Int} (h : doPutmsg e c s = .ok (r, t)) :
    Ends t s.esp s.fflags ↔ putRestores e c s := by
  unfold putRestores
  have hdispatch := doPutmsg_dispatch e c s
  generalize getUser e s c.ctlBuf = cmd, doPutmsg e c s = x at h hdispatch ⊢
  cases hdispatch with
  | bind =>
    refine (ends_iff (Q := False) ?_).trans (and_iff_left nofun)
    exact (bindReq_ends h).1
  | connRes => exact ends_iff_true (connRes_ends h)
  | conn => exact ends_iff (connReq_ends h).1
  | discon =>
    obtain rfl : (disconReq e c s).2 = t := congrArg Prod.snd (Except.ok.inj h)
    exact ends_iff_true (disconReq_ends e c s)
  | data =>
    obtain rfl : (dataReq e c s).2 = t := congrArg Prod.snd (Except.ok.inj h)
    exact ends_iff_true (dataReq_ends e c s).1
  | unitdata =>
    obtain rfl : (unitdataReq e c s).2 = t := congrArg Prod.snd (Except.ok.inj h)
    refine (ends_iff (Q := False) ?_).trans (and_iff_left nofun)
    exact (unitdataReq_ends e c s).1
  | optmgmt => exact ends_space_iff (optmgmtReq_ends h).1
  | other hcmd =>
    obtain ⟨-, rfl⟩ := ok_inj h
    dsimp only
    rw [if_neg (hcmd _ (by decide)), if_neg (hcmd _ (by decide)), if_neg (hcmd _ (by decide)),
      if_neg (hcmd _ (by decide))]
    exact ends_iff_true ⟨rfl, rfl⟩
  | _ =>
    -- nothing is done on the user side
    exact of_ok h (ends_iff_true ⟨rfl, rfl⟩)

/-- What a call leaves of the stack pointer and the file flags when it returns. -/
theorem scratch_invisible_iff {q : ScratchCall} {s t : Sys} (h : q.run s = .ok t) :
    (t.esp = s.esp ∧ t.fflags = s.fflags) ↔ q.Restores s := by
  cases q with
  | putmsg e c =>
    obtain ⟨⟨r, t⟩, hput, rfl⟩ := map_eq_ok h
    exact doPutmsg_ends_iff hput
  | getmsg e c =>
    obtain ⟨g, hget, rfl⟩ := map_eq_ok h
    exact ends_iff (doGetmsg_ends hget)
  | optmgmt e fd flag optBuf optLen doRet =>
    obtain ⟨⟨r, t⟩, hopt, rfl⟩ := map_eq_ok h
    exact ends_space_iff (timodOptmgmt_ends hopt).1
  | updateSocket e fd =>
    obtain rfl := Except.ok.inj h
    refine (ends_iff (timodUpdateSocket_ends e fd s)).trans ?_
    constructor
    · intro hboth hcall
      exact ⟨fun hf => hboth.1 ⟨hcall, hf⟩, hboth.2 hcall⟩
    · intro hboth
      exact ⟨fun hf => (hboth hf.1).1 hf.2, fun hcall => (hboth hcall).2⟩

/-- Pages beyond the first word of the request are gone. -/
def unmappedEnv : Env := { plainEnv with readable := fun a => a.toNat < 0x1004 }

theorem bind_gives_stack_back :
    ∃ t, (ScratchCall.putmsg plainEnv (putAt 16)).run (endpoint .unbnd [T_BIND_REQ, 0, 0, 0]) =
      .ok t ∧ t.esp = (endpoint .unbnd [T_BIND_REQ, 0, 0, 0]).esp ∧
      t.fflags = (endpoint .unbnd [T_BIND_REQ, 0, 0, 0]).fflags := by
  have hreads : ¬ bindScratch.keeps plainEnv (putAt 16) (endpoint .unbnd [T_BIND_REQ, 0, 0, 0]) :=
    fun hk => hk.2 ⟨by decide, by decide⟩
  obtain ⟨t, ht⟩ : ∃ t, (ScratchCall.putmsg plainEnv (putAt 16)).run
      (endpoint .unbnd [T_BIND_REQ, 0, 0, 0]) = .ok t := ⟨_, rfl⟩
  exact ⟨t, ht, (scratch_invisible_iff ht).mpr hreads⟩

/-- A bind request on a page that is not there leaves the stack pointer 1024 bytes
down. -/
theorem bind_keeps_stack :
    ∃ t, (ScratchCall.putmsg unmappedEnv (putAt 16)).run (endpoint .unbnd [T_BIND_REQ, 0, 0, 0]) =
      .ok t ∧ ¬ (t.esp = (endpoint .unbnd [T_BIND_REQ, 0, 0, 0]).esp ∧
      t.fflags = (endpoint .unbnd [T_BIND_REQ, 0, 0, 0]).fflags) :=
  ⟨_, rfl, fun h => nomatch h.1⟩

end AbiEmu.Xti
