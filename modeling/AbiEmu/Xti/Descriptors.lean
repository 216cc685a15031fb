import AbiEmu.Lib.Run
import AbiEmu.Xti.Frame

/-!
# The descriptors a client names

A `T_CONN_IND` announces a new connection by its descriptor, in `SEQ_number`.
The client answers with the same number: `T_CONN_RES` accepts the connection,
`T_DISCON_REQ` rejects it. Between the two the connection is pending.
`History` carries an endpoint together with its pending connections, and
`Respects` is what the numbers promise: only a pending connection is closed or
duplicated (a disconnect that names no connection may close the endpoint), and
any other number is answered with an error and touches no descriptor.

The code keeps no record of what it announced. Whatever word stands in
`SEQ_number` goes to `sys_dup2` and `sys_close`, so the promise rests on the
client: `disposals_respect_iff` says for every run which numbers keep it.

The descriptor table is not the endpoint's own. Other calls of the process
change it between two operations, so each operation comes with the table it
finds.
-/

namespace AbiEmu.Xti

open List

/-! ## Pending connections -/

/-- The word at the offset `i` of a message. -/
def TPrimsg.word (n : TPrimsg) (i : Nat) : Word :=
  n.body (i + 3) ++ n.body (i + 2) ++ n.body (i + 1) ++ n.body i

/-- The `SEQ_number` of a `T_CONN_IND`. -/
def TPrimsg.announces (n : TPrimsg) : Option Word :=
  if n.type = T_CONN_IND then some (n.word 20) else none

/-- The connections announced between `k` and `k'`. -/
def announced (k k' : Core) : List Word :=
  (k'.queued.drop k.queued.length).filterMap TPrimsg.announces

/-- What a client can do about a connection. -/
inductive Disposal where
  /-- `T_CONN_RES`. -/
  | accept (seq : Word)
  /-- `T_DISCON_REQ`. -/
  | reject (seq : Word)
  deriving DecidableEq, Repr

/-- `SEQ_number` of the request. -/
def Disposal.seq : Disposal → Word
  | .accept n => n
  | .reject n => n

/-- The `SEQ_number` of a disconnect that names no connection. -/
def noSequence : Word := -1

/-- What the request disposes of, if its `SEQ_number` can be read. -/
def disposal (e : Env) (c : PutArgs) (s : Sys) : Option Disposal :=
  if getUser e s c.ctlBuf = some T_CONN_RES then
    (getUser e s (c.ctlBuf + 16)).map .accept
  else if getUser e s c.ctlBuf = some T_DISCON_REQ then
    (getUser e s (c.ctlBuf + 4)).map .reject
  else none

/-- The disposal an operation asks for. -/
def Op.disposal (op : Op) (s : Sys) : Option Disposal :=
  op.request.bind fun r => Xti.disposal r.1 r.2 s

/-- An endpoint and the connections it has announced that have been neither
accepted nor rejected since. -/
structure History where
  sys : Sys
  pending : List Word

/-- The connections that are left when a request has been made. -/
def stillPending (d : Option Disposal) (pending : List Word) : List Word :=
  pending.filter fun n => d.map Disposal.seq ≠ some n

/-- One operation: its request comes first, what it announces after that. -/
def History.step {F : Type} (o : (Word → Option F) × Op) (h : History) : Res (Int × History) :=
  match o.2.step h.sys with
  | .error stop => .error stop
  | .ok (r, s') =>
    .ok (r, ⟨s', stillPending (o.2.disposal h.sys) h.pending ++ announced h.sys.toCore s'.toCore⟩)

theorem connInd_announces (b : Block) (alen : Word) (conn : Int) (addr : List Byte) (k : Core)
    (next : Option Addr) :
    (k.entering (connInd b alen conn addr) next).announces = some (BitVec.ofInt 32 conn) := by
  have htype : (k.entering (connInd b alen conn addr) next).type = T_CONN_IND :=
    Word.append_bytes T_CONN_IND
  unfold TPrimsg.announces
  rw [if_pos htype]
  exact congrArg some (Word.append_bytes (BitVec.ofInt 32 conn))

/-! ## The descriptor table -/

section Table

variable {F : Type}

/-- The descriptor a call closes or duplicates. -/
def FdOp.subject : FdOp → Word
  | .close fd => fd
  | .dup2 old _ => old

/-- A descriptor call on the table, when `sys_dup2` returns `dup2`. -/
def FdOp.apply (dup2 : Int) (files : Word → Option F) : FdOp → Word → Option F
  | .close fd => Function.update files fd none
  | .dup2 old new => if dup2 < 0 then files else Function.update files new (files old)

/-- The descriptor calls made between `s` and `t`. -/
def fdCalls (s t : Sys) : List FdOp := t.fdOps.drop s.fdOps.length

/-- What the numbers promise for the request `d`, made as `c` while the table is
`files`. -/
structure Respects (files : Word → Option F) (pending : List Word) (e : Env) (c : PutArgs)
    (s : Sys) (d : Disposal) : Prop where
  /-- An open descriptor that is closed or duplicated is a pending connection, or
  the endpoint of a disconnect without a number. -/
  own : ∀ r t, doPutmsg e c s = .ok (r, t) → ∀ call ∈ fdCalls s t, files call.subject ≠ none →
    call.subject ∈ pending ∨ (d = .reject noSequence ∧ call.subject = c.fd)
  /-- Any other number leaves the table as it is, and is an error. -/
  other : d.seq ∉ pending → d ≠ .reject noSequence →
    ∃ r t, doPutmsg e c s = .ok (r, t) ∧ r < 0 ∧
      (fdCalls s t).foldl (FdOp.apply e.dup2) files = files

/-- The number is a pending connection's. Otherwise an accept names a closed
descriptor, other than the one to accept on, and `sys_dup2` fails; a disconnect
has the number for none, and that is no open descriptor but the endpoint's. -/
def Disposal.Honest (files : Word → Option F) (pending : List Word) (e : Env) (c : PutArgs) :
    Disposal → Prop
  | .accept n => n ∈ pending ∨ (n ≠ c.flags ∧ files n = none ∧ e.dup2 < 0)
  | .reject n => n ∈ pending ∨ (n = noSequence ∧ (files n = none ∨ n = c.fd))

end Table

/-! ## One request -/

section Request

variable {F : Type} {files : Word → Option F} {pending : List Word} {e : Env} {c : PutArgs}
  {s t : Sys} {r : Int} {n : Word}

section

variable (hn : getUser e s (c.ctlBuf + 16) = some n)

include hn

/-- `T_CONN_RES` makes no descriptor call, or both. -/
theorem connRes_fdOps (h : connRes e c s = .ok (r, t)) :
    (n = c.flags ∧ r = 0 ∧ t.fdOps = s.fdOps) ∨
    (n ≠ c.flags ∧ (e.dup2 < 0 ∧ r = e.dup2 ∨ ¬ e.dup2 < 0 ∧ r = 0) ∧
      t.fdOps = s.fdOps ++ [.dup2 n c.flags, .close n]) := by
  unfold connRes at h
  rw [hn] at h
  dsimp only at h
  split at h
  next hflags =>
    exact of_ok h (.inl ⟨hflags, rfl, rfl⟩)
  next hflags =>
    refine .inr ⟨hflags, ?_⟩
    split_ifs at h with hdup <;> obtain ⟨rfl, rfl⟩ := ok_inj h
    · exact ⟨.inl ⟨hdup, rfl⟩, rfl⟩
    all_goals exact ⟨.inr ⟨hdup, rfl⟩, rfl⟩

/-- A `T_CONN_RES` whose `sys_dup2` fails returns that error. -/
theorem connRes_refused (hflags : n ≠ c.flags) (hdup : e.dup2 < 0) :
    connRes e c s =
      .ok (e.dup2, { s with fdOps := s.fdOps ++ [.dup2 n c.flags, .close n] }) := by
  unfold connRes
  rw [hn]
  dsimp only
  rw [if_neg hflags, if_pos hdup]

theorem accept_respects_iff (hput : doPutmsg e c s = connRes e c s) :
    Respects files pending e c s (.accept n) ↔ (Disposal.accept n).Honest files pending e c := by
  constructor
  · intro h
    by_cases hp : n ∈ pending
    · exact .inl hp
    · obtain ⟨r, t, hok, hneg, hfiles⟩ := h.other hp nofun
      rw [hput] at hok
      rcases connRes_fdOps hn hok with ⟨-, rfl, -⟩ | ⟨hflags, hr, hops⟩
      · exact absurd hneg (by omega)
      · refine .inr ⟨hflags, ?_, by omega⟩
        -- the last call closes `n`
        have hclosed := congrFun hfiles n
        unfold fdCalls at hclosed
        rw [hops, drop_left] at hclosed
        simpa [FdOp.apply] using hclosed.symm
  · rintro h
    refine ⟨fun r t hok call hcall hopen => ?_, fun hp _ => ?_⟩
    · rw [hput] at hok
      unfold fdCalls at hcall
      rcases connRes_fdOps hn hok with ⟨-, -, hops⟩ | ⟨hflags, hr, hops⟩
      · rw [hops, drop_length] at hcall
        exact nomatch hcall
      · have hsubject : call.subject = n := by
          rw [hops, drop_left] at hcall
          rcases mem_pair.mp hcall with rfl | rfl <;> rfl
        rw [hsubject] at hopen ⊢
        exact .inl (h.resolve_right fun hother => hopen hother.2.1)
    · obtain ⟨hflags, hclosed, hdup⟩ := h.resolve_left hp
      refine ⟨_, _, hput.trans (connRes_refused hn hflags hdup), hdup, ?_⟩
      unfold fdCalls
      rw [drop_left]
      simp only [foldl_cons, foldl_nil, FdOp.apply, if_pos hdup]
      rw [← hclosed, Function.update_eq_self]

end

theorem reject_respects_iff (hput : doPutmsg e c s = .ok (closeReq n s)) :
    Respects files pending e c s (.reject n) ↔ (Disposal.reject n).Honest files pending e c := by
  have hcalls : fdCalls s (closeReq n s).2 = [.close n] := drop_left
  constructor
  · intro h
    by_cases hp : n ∈ pending
    · exact .inl hp
    · by_cases hseq : n = noSequence
      · refine .inr ⟨hseq, ?_⟩
        by_cases hopen : files n = none
        · exact .inl hopen
        · have hcall : FdOp.close n ∈ fdCalls s (closeReq n s).2 := by
            rw [hcalls]
            exact mem_singleton_self _
          have hown := h.own _ _ hput (.close n) hcall hopen
          exact .inr (hown.resolve_left hp).2
      · -- an error is promised, and the request returns 0
        obtain ⟨r, t, hok, hneg, -⟩ := h.other hp fun heq => hseq (Disposal.reject.inj heq)
        obtain ⟨rfl, -⟩ := ok_inj (hput.symm.trans hok)
        exact absurd hneg (by omega)
  · intro h
    refine ⟨fun r t hok call hcall hopen => ?_, fun hp hne => ?_⟩
    · obtain rfl : (closeReq n s).2 = t :=
        congrArg Prod.snd (Except.ok.inj (hput.symm.trans hok))
      rw [hcalls] at hcall
      obtain rfl := mem_singleton.mp hcall
      rcases h with hp | ⟨rfl, hclosed | hfd⟩
      · exact .inl hp
      · exact absurd hclosed hopen
      · exact .inr ⟨rfl, hfd⟩
    · rcases h with hp' | ⟨rfl, -⟩
      · exact absurd hp' hp
      · exact absurd rfl hne

/-- A request keeps the promise exactly when its number is an honest one. -/
theorem respects_iff {d : Disposal} (hd : disposal e c s = some d) :
    Respects files pending e c s d ↔ d.Honest files pending e c := by
  unfold disposal at hd
  split at hd
  next hcmd =>
    obtain ⟨n, hn, rfl⟩ := Option.map_eq_some_iff.mp hd
    refine accept_respects_iff hn ?_
    unfold doPutmsg
    rw [hcmd]
    rfl
  · split at hd
    next hcmd =>
      obtain ⟨n, hn, rfl⟩ := Option.map_eq_some_iff.mp hd
      refine reject_respects_iff ?_
      unfold doPutmsg
      rw [hcmd]
      show Except.ok (disconReq e c s) = _
      unfold disconReq
      rw [hn]
    · exact nomatch hd

end Request

/-! ## Runs -/

section Runs

variable {F : Type}

/-- The disposals of an operation have the property `P`, of the request that asks
for them. -/
def Disposes (P : Env → PutArgs → Disposal → Prop) (op : Op) (s : Sys) : Prop :=
  ∀ e c d, op.request = some (e, c) → disposal e c s = some d → P e c d

/-- In every run, each accept and each reject keeps the promise of the numbers
exactly when each of them names an honest one. -/
theorem disposals_respect_iff (ops : List ((Word → Option F) × Op)) (h : History) :
    Along History.step (fun o h =>
        Disposes (fun e c d => Respects o.1 h.pending e c h.sys d) o.2 h.sys) ops h ↔
      Along History.step (fun o h =>
        Disposes (fun e c d => d.Honest o.1 h.pending e c) o.2 h.sys) ops h := by
  refine along_congr fun o h => ?_
  constructor
  · intro hold e c d hreq hd
    exact (respects_iff hd).mp (hold e c d hreq hd)
  · intro hold e c d hreq hd
    exact (respects_iff hd).mpr (hold e c d hreq hd)

/-- A new endpoint closes descriptor 0 for a client that was told of no connection,
and reports success. -/
theorem reject_closes_any_descriptor :
    ¬ Along History.step (fun (o : (Word → Option Unit) × Op) h =>
        Disposes (fun e c d => Respects o.1 h.pending e c h.sys d) o.2 h.sys)
      [(fun _ => some (), .putmsg plainEnv (putAt 8))]
      ⟨endpoint .dataXfer [T_DISCON_REQ, 0], []⟩ := by
  intro hold
  have hd : disposal plainEnv (putAt 8) (endpoint .dataXfer [T_DISCON_REQ, 0]) =
      some (.reject 0) := by decide
  rcases (respects_iff hd).mp (hold.1 _ _ _ rfl hd) with hp | ⟨hseq, -⟩
  · exact nomatch hp
  · exact nomatch hseq

end Runs

end AbiEmu.Xti
