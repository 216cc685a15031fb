import AbiEmu.Xti.Types

/-!
# Queueing control messages (`abi/svr4/xti.c`)

The three things that happen to the queue of an endpoint: a new message is
linked in front, a new message is linked behind the last one, the first message
is unlinked and freed. Every operation of an endpoint does its queue work
through these, on blocks it got from `timod_mkctl`.

A link in front never fails, but is not made when `timod_mkctl` has no block.
A link at the tail goes through `plast` without looking, so it needs a last
message (`Stop.noTail` otherwise).
-/

namespace AbiEmu.Xti

open Lcall7 (Personality iABIErrors)

/-- `timod_mkctl`: a block for a message of `len` bytes. The size is unsigned. -/
def Core.timodMkctl (k : Core) (b : Option Block) (len : Int) : Option (Block × Core) :=
  match b with
  | none => none
  | some b =>
    if (12 + len) % 2 ^ 32 ≤ kmallocMax ∧ (k.heap b.addr).isNone then
      some (b, { k with heap := Function.update k.heap b.addr (some b.junk) })
    else none

/-- The block `n` as it enters the queue. -/
def Core.entering (k : Core) (n : TPrimsg) (next : Option Addr) : TPrimsg :=
  { n with next := next, serial := k.queued.length }

/-- Link the filled block `n` at `a` in front of the queue. -/
def Core.pushFront (k : Core) (a : Addr) (n : TPrimsg) : Core :=
  { k with
    heap := Function.update k.heap a (some (k.entering n k.priv.pfirst))
    priv := { k.priv with pfirst := some a, plast := k.priv.plast.or (some a) }
    queued := k.queued ++ [k.entering n k.priv.pfirst] }

/-- Link the filled block `n` at `a` behind the block `nl` at `last`. -/
def Core.linkTail (k : Core) (a : Addr) (n : TPrimsg) (last : Addr) (nl : TPrimsg) : Core :=
  { k with
    heap := Function.update (Function.update k.heap a (some (k.entering n none))) last
      (some { nl with next := some a })
    priv := { k.priv with plast := some a }
    queued := k.queued ++ [k.entering n none] }

/-- Link the filled block `n` at `a` behind the last message. -/
def Core.appendTail (k : Core) (a : Addr) (n : TPrimsg) : Res Core :=
  match k.priv.plast with
  | none => .error .noTail
  | some last =>
    match k.heap last with
    | none => .error .noTail
    | some nl => .ok (k.linkTail a n last nl)

/-- Unlink and free the first message. -/
def Core.dropHead (k : Core) : Res Core :=
  match k.priv.pfirst with
  | none => .error .noHead
  | some a =>
    match k.heap a with
    | none => .error .noHead
    | some it =>
      .ok { k with
        heap := Function.update k.heap a none
        priv := { k.priv with
          pfirst := it.next
          plast := if it.next = none then none else k.priv.plast
          offset := 0 } }

/-- Hand out `l` bytes of the message `it`, at `a`. The position belongs to the
endpoint, the length to the message. -/
def Core.handOut (k : Core) (a : Addr) (it : TPrimsg) (l : Int) : Core :=
  let bytes := (List.range l.toNat).map fun i => it.body (k.priv.offset.toNat + i)
  { k with
    heap := Function.update k.heap a (some { it with length := it.length - l })
    delivered := k.delivered ++
      [⟨it.serial, bytes, if it.length - l ≠ 0 then MORECTL else 0⟩] }

/-- The position moves on by `l`. -/
def Core.advance (k : Core) (l : Int) : Core :=
  { k with priv := { k.priv with offset := k.priv.offset + l } }

/-- Hand out `l` bytes of the first message `it`, at `a`: the rest stays, or the
message is unlinked. -/
def Core.takeChunk (k : Core) (a : Addr) (it : TPrimsg) (l : Int) : Res Core :=
  if it.length - l ≠ 0 then .ok ((k.handOut a it l).advance l)
  else (k.handOut a it l).dropHead

variable {k k' : Core}

theorem takeChunk_ok {a : Addr} {it : TPrimsg} {l : Int} (h : k.takeChunk a it l = .ok k') :
    (it.length - l ≠ 0 ∧ k' = (k.handOut a it l).advance l) ∨
      (¬ it.length - l ≠ 0 ∧ (k.handOut a it l).dropHead = .ok k') := by
  unfold Core.takeChunk at h
  split at h
  next hmore => exact .inl ⟨hmore, (Except.ok.inj h).symm⟩
  next hlast => exact .inr ⟨hlast, h⟩

theorem dropHead_ok (h : k.dropHead = .ok k') :
    ∃ a it, k.priv.pfirst = some a ∧ k.heap a = some it ∧
      k' = { k with
        heap := Function.update k.heap a none
        priv := { k.priv with
          pfirst := it.next
          plast := if it.next = none then none else k.priv.plast
          offset := 0 } } := by
  unfold Core.dropHead at h
  split at h
  · exact nomatch h
  next a ha =>
    split at h
    · exact nomatch h
    next it hit => exact ⟨a, it, ha, hit, (Except.ok.inj h).symm⟩

/-- The endpoint in another state. -/
def Core.setState (k : Core) (st : TState) : Core :=
  { k with priv := { k.priv with state := st } }

/-- A block filled with the words of a control message of its own length. -/
def Block.filled (b : Block) (words : List Word) : TPrimsg :=
  { b.junk with
    body := overlay b.junk.body 0 (words.flatMap Word.bytes)
    pri := MSG_HIPRI
    length := 4 * words.length }

/-- Queue a message of the given words in front, if there is a block for it. -/
def Core.queueWords (k : Core) (alloc : Option Block) (words : List Word) : Core :=
  match k.timodMkctl alloc (4 * words.length) with
  | none => k
  | some (b, k') => k'.pushFront b.addr (b.filled words)

/-- `timod_ok`. -/
def Core.timodOk (k : Core) (alloc : Option Block) (prim : Word) : Core :=
  k.queueWords alloc [T_OK_ACK, prim]

/-- `timod_error`. -/
def Core.timodError (k : Core) (p : Personality) (alloc : Option Block) (prim : Word)
    (terr uerr : Int) : Core :=
  k.queueWords alloc
    [T_ERROR_ACK, prim, BitVec.ofInt 32 terr, BitVec.ofInt 32 (iABIErrors p uerr)]

/-- `timod_ok` on an endpoint. -/
def timodOk (e : Env) (prim : Word) (s : Sys) : Sys :=
  { s with toCore := s.toCore.timodOk e.ackAlloc prim }

/-- `timod_error` on an endpoint. -/
def timodError (e : Env) (prim : Word) (terr uerr : Int) (s : Sys) : Sys :=
  { s with toCore := s.toCore.timodError e.personality e.ackAlloc prim terr uerr }

/-! ## The user side leaves the kernel side alone -/

@[simp] theorem putUser_toCore (e : Env) (a v : Word) (s : Sys) :
    (putUser e a v s).toCore = s.toCore := by
  unfold putUser
  split <;> rfl

@[simp] theorem putUser16_toCore (e : Env) (a : Word) (v : BitVec 16) (s : Sys) :
    (putUser16 e a v s).toCore = s.toCore := by
  unfold putUser16
  split <;> rfl

@[simp] theorem putArgs_toCore (e : Env) (tsp : Word) (args : List Word) (s : Sys) :
    (putArgs e tsp args s).toCore = s.toCore := by
  unfold putArgs
  generalize args.zipIdx = l
  induction l generalizing s with
  | nil => rfl
  | cons v l ih => rw [List.foldl_cons, ih, putUser_toCore]

@[simp] theorem socketcall_toCore (a : SockAnswer) (s : Sys) :
    (socketcall a s).2.toCore = s.toCore := rfl

section

variable {e : Env} {a : Word} {bs : List Byte} {s s' : Sys} (h : copyToUser e a bs s = some s')

include h

theorem copyToUser_some :
    e.canWrite a bs.length = true ∧ s' = { s with mem := s.mem.store a bs } := by
  unfold copyToUser at h
  split at h
  next hw => exact ⟨hw, (Option.some.inj h).symm⟩
  · exact nomatch h

theorem copyToUser_toCore : s'.toCore = s.toCore := by
  rw [(copyToUser_some h).2]

end

end AbiEmu.Xti
