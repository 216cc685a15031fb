import AbiEmu.Xti.Timod

/-!
# Socket options (`abi/svr4/socket.c`)

`abi_do_getsockopt` gets a frame of five words: descriptor, level, name, the place of
the value and the place of its length. It looks the option up, writes level and name
back into the frame as Linux knows them, and hands the frame on to the kernel. A few
options Linux does not have are answered on the spot.

A caller relies on `OptValue.Honours`: at most as many bytes are stored as the length
word allows, and it then holds at most what it held before. The kernel's own call is
taken to keep to that; `abiDoGetsockopt_honours` carries it over to the emulation, as
long as the length is not negative. The options answered on the spot compare it as an
unsigned number, so that a negative one is room enough.
-/

namespace AbiEmu.Xti

open Util (MapSegment mapValue)

/-! ## Answers -/

/-- The words of the frame that a call has replaced. -/
structure FrameWords where
  level : Option Word
  name : Option Word
  deriving DecidableEq, Repr

/-- The stores of these words. -/
def FrameWords.acts (f : FrameWords) (sp : Word) : List (Act Ptr) :=
  f.level.toList.map (.put .stack (sp + 4)) ++ f.name.toList.map (.put .stack (sp + 8))

/-- What `getsockopt` stores: a value, and its length unless the word stays as it is. -/
structure OptValue where
  value : List Byte
  len : Option Word
  deriving DecidableEq, Repr

/-- The stores of a value and its length. -/
def OptValue.acts (v : OptValue) (optval optlen : Word) : List (Act Ptr) :=
  .copy .stack optval v.value :: v.len.toList.map (.put .stack optlen)

/-- Everything a call stores. -/
structure OptAnswer extends FrameWords, OptValue where
  deriving DecidableEq, Repr

/-- The stores of a call; its length word is the one behind the arguments. -/
def OptAnswer.acts (a : OptAnswer) (sp optval : Word) : List (Act Ptr) :=
  a.toFrameWords.acts sp ++ a.toOptValue.acts optval (sp + 20)

/-- The length word held `given` and holds `got` after the call. -/
structure OptValue.Honours (v : OptValue) (given got : Word) (result : Int) : Prop where
  stored : v.value.length ≤ given.toInt.toNat
  returned : result = 0 → 0 ≤ got.toInt ∧ got.toInt ≤ given.toInt

/-! ## Looking an option up -/

def SOL_SOCKET : Word := 1

def SO_LINGER : Word := 13
def SO_RCVLOWAT : Word := 18
def SO_SNDLOWAT : Word := 19
def SO_RCVTIMEO : Word := 20
def SO_SNDTIMEO : Word := 21
def SO_USELOOPBACK : Word := 0xff02
def SO_ORDREL : Word := 0xff03
def SO_IMASOCKET : Word := 0xff04
def SO_PROTOTYPE : Word := 0xff09

def ENOPROTOOPT : Int := 92

/-- The name of an IP option; `none` is one that Linux does not have. -/
def ipOption (optname : Word) : Option Word :=
  let n := if optname - 1 = 0 then 4 else optname - 1
  if 4 < n.toInt then
    let n' := if (n + 24).toInt ≤ 33 then n + 24 - 1 else n + 24
    if n'.toInt < 32 ∨ 36 < n'.toInt then none else some n'
  else some n

/-- What becomes of a call: it goes to the kernel, it is over, it is the odd use of
`SO_LINGER`, or it is answered with a made-up value. -/
inductive Route where
  | pass
  | done (result : Int)
  | linger
  | fake (v : Word)
  deriving DecidableEq, Repr

def getRoute (optname : Word) : Route :=
  if optname = SO_LINGER then .linger
  else if optname = SO_PROTOTYPE then .fake 0
  else if optname = SO_ORDREL ∨ optname = SO_SNDTIMEO ∨ optname = SO_RCVTIMEO then
    .done (-ENOPROTOOPT)
  else if optname = SO_USELOOPBACK ∨ optname = SO_SNDLOWAT ∨ optname = SO_RCVLOWAT ∨
      optname = SO_IMASOCKET then .fake 1
  else .pass

/-- The switch on the level: the words to be put into the frame, and what follows.
`sockoptMap` is the personality's. -/
def lookUp (sockoptMap : Option (List MapSegment)) (route : Word → Route) (level optname : Word) :
    FrameWords × Route :=
  if level = 0 then
    match ipOption optname with
    | none => (⟨none, none⟩, .done (-EINVAL))
    | some n => (⟨none, some n⟩, .pass)
  else if level = 0xffff then
    let n := BitVec.ofInt 32 (mapValue sockoptMap optname.toInt 0)
    (⟨some SOL_SOCKET, some n⟩, route n)
  else (⟨none, none⟩, .pass)

/-- Put the words into the frame. -/
def FrameWords.put (e : Env) (sp : Word) (f : FrameWords) (s : Sys) : Sys :=
  let s1 := match f.level with
    | none => s
    | some w => putUser e (sp + 4) w s
  match f.name with
  | none => s1
  | some w => putUser e (sp + 8) w s1

/-! ## The call -/

/-- An option Linux does not have: the value `v`, if there is room for a long. -/
def fakeOption (e : Env) (optval optlen v : Word) (s : Sys) : Int × Sys :=
  match getUser e s optlen with
  | none => (-EFAULT, s)
  | some len =>
    if len.toNat < 4 then (-EINVAL, s)
    else if ¬ e.verify true optval 4 then (-EFAULT, s)
    else (0, putUser e optlen 4 (putUser e optval v s))

/-- `abi_do_getsockopt`; `kernel` is the answer to `SYS_GETSOCKOPT`. -/
def abiDoGetsockopt (e : Env) (sockoptMap : Option (List MapSegment)) (kernel : SockAnswer)
    (sp : Word) (s : Sys) : Int × Sys :=
  if ¬ e.verify false sp 20 then (-EFAULT, s)
  else
    let optval := getUserD e s (sp + 12)
    let optlen := getUserD e s (sp + 16)
    let x := lookUp sockoptMap getRoute (getUserD e s (sp + 4)) (getUserD e s (sp + 8))
    let s1 := x.1.put e sp s
    match x.2 with
    | .pass => socketcall kernel s1
    | .done r => (r, s1)
    | .linger =>
      if getUserD e s1 optlen = 4 then (0, putUser e optval 0 s1) else socketcall kernel s1
    | .fake v => fakeOption e optval optlen v s1

/-! ## What it stores -/

section Stores

variable {e : Env} {s : Sys}

/-- Those of the words that can be stored. -/
def FrameWords.written (e : Env) (sp : Word) (f : FrameWords) : FrameWords where
  level := if e.canWrite (sp + 4) 4 then f.level else none
  name := if e.canWrite (sp + 8) 4 then f.name else none

theorem FrameWords.put_replay (e : Env) (sp : Word) (f : FrameWords) (s : Sys) :
    (f.put e sp s).mem = replay ((f.written e sp).acts sp) s.mem := by
  rcases f with ⟨_ | w, _ | n⟩
  all_goals
    unfold FrameWords.put FrameWords.acts FrameWords.written putUser
    split_ifs
  all_goals rfl

/-- A stored word reads back where both accesses are allowed. -/
theorem getUserD_putUser_self {a : Word} (v : Word) (hwrite : e.canWrite a 4 = true)
    (hread : e.canRead a 4 = true) : getUserD e (putUser e a v s) a = v := by
  unfold getUserD getUser
  rw [if_pos hread, Option.getD_some, putUser, if_pos hwrite]
  exact Mem.word_store_bytes ..

/-- The word at `b` lies apart from the `n` bytes at `a`. -/
def WordApart (b a : Word) (n : Nat) : Prop := n ≤ (b - a).toNat ∧ (b - a).toNat + 4 ≤ 2 ^ 32

theorem getUserD_putUser_apart {a b : Word} (v : Word) (h : WordApart b a 4) :
    getUserD e (putUser e a v s) b = getUserD e s b := by
  unfold getUserD getUser putUser
  split_ifs
  · rw [Mem.word_store_apart s.mem a b (by rw [Word.length_bytes]; exact h.1) h.2]
  all_goals rfl

/-- A word that lies apart from level and name. -/
theorem FrameWords.getUserD_put (f : FrameWords) {sp b : Word} (h : WordApart b (sp + 4) 8) :
    getUserD e (f.put e sp s) b = getUserD e s b := by
  have hlevel : WordApart b (sp + 4) 4 := ⟨by have := h.1; omega, h.2⟩
  have hname : WordApart b (sp + 8) 4 := by
    unfold WordApart at *
    bv_omega
  unfold FrameWords.put
  rcases f with ⟨_ | w, _ | n⟩
  all_goals simp only [getUserD_putUser_apart _ hlevel, getUserD_putUser_apart _ hname]

end Stores

/-! ## The length word is honoured -/

section Honours

variable {e : Env} {sp optval optlen : Word} {s : Sys} {kernel : SockAnswer}

/-- The value a `put_user` stores, if it does. -/
def putValue (e : Env) (a v : Word) : List Byte := if e.canWrite a 4 then v.bytes else []

theorem putUser_copy (v : Word) :
    (putUser e optval v s).mem = replay [.copy Ptr.stack optval (putValue e optval v)] s.mem := by
  unfold putUser putValue
  split_ifs with hw
  · rfl
  · exact (Mem.store_nil s.mem optval).symm

theorem length_putValue (e : Env) (a v : Word) : (putValue e a v).length ≤ 4 := by
  unfold putValue
  split
  · exact Nat.le_refl 4
  · exact Nat.zero_le 4

/-- A call left an answer that honours the length word. -/
def Honoured (e : Env) (sp optval optlen : Word) (s : Sys) (r : Int × Sys) : Prop :=
  ∃ a : OptAnswer,
    r.2.mem = replay (a.toFrameWords.acts sp ++ a.toOptValue.acts optval optlen) s.mem ∧
    a.toOptValue.Honours (getUserD e s optlen) (getUserD e r.2 optlen) r.1

/-- A value is stored once the frame has been rewritten. -/
theorem honoured (f : FrameWords) (v : OptValue) {r : Int × Sys}
    (hmem : r.2.mem = replay (v.acts optval optlen) (f.put e sp s).mem)
    (hv : v.Honours (getUserD e s optlen) (getUserD e r.2 optlen) r.1) :
    Honoured e sp optval optlen s r := by
  refine ⟨⟨f.written e sp, v⟩, ?_, hv⟩
  rw [hmem, f.put_replay, ← replay_append]

variable (h0 : 0 ≤ (getUserD e s optlen).toInt) (hframe : WordApart optlen (sp + 4) 8)

include h0 hframe

/-- No value is stored, and the length word stays as it is. -/
theorem honoured_empty (f : FrameWords) (code : Int) :
    Honoured e sp optval optlen s (code, f.put e sp s) := by
  refine honoured f ⟨[], none⟩ (Mem.store_nil _ optval).symm ⟨Nat.zero_le _, fun _ => ?_⟩
  rw [f.getUserD_put hframe]
  exact ⟨h0, Int.le_refl _⟩

variable (hvalue : WordApart optlen optval 4)

include hvalue

/-- A value that was made up. -/
theorem fakeOption_honoured (f : FrameWords) (v : Word) :
    Honoured e sp optval optlen s (fakeOption e optval optlen v (f.put e sp s)) := by
  have hkept : getUserD e (f.put e sp s) optlen = _ := f.getUserD_put hframe
  have hempty : ∀ code, Honoured e sp optval optlen s (code, _) := honoured_empty h0 hframe f
  unfold fakeOption
  split
  · exact hempty _
  next len hget =>
    obtain rfl : len = getUserD e s optlen := by rw [← hkept, getUserD, hget]; rfl
    have hlen := Word.toNat_toInt h0
    split
    · exact hempty _
    split
    · exact hempty _
    refine honoured f ⟨putValue e optval v, if e.canWrite optlen 4 then some 4 else none⟩ ?_
      ⟨?_, fun _ => ?_⟩
    · rw [putUser_replay e .stack, putUser_copy, ← replay_append]
      unfold putAct OptValue.acts
      split <;> rfl
    · have := length_putValue e optval v
      dsimp only
      omega
    · -- the length word is 4 now, or cannot be written
      by_cases hw : e.canWrite optlen 4 = true
      · rw [getUserD_putUser_self 4 hw (Option.ite_none_right_eq_some.mp hget).1]
        exact ⟨by decide, by show 4 ≤ _; omega⟩
      · rw [putUser, if_neg hw, getUserD_putUser_apart v hvalue, hkept]
        exact ⟨h0, Int.le_refl _⟩

/-- **`abi_do_getsockopt` honours the length word** if the kernel's own call does. The
frame says where value and length are; the length lies apart from the value, and from
level and name. -/
theorem abiDoGetsockopt_honours (sockoptMap : Option (List MapSegment)) {v : OptValue}
    (hval : getUserD e s (sp + 12) = optval) (hlen : getUserD e s (sp + 16) = optlen)
    (heffect : ∀ m, kernel.effect m = replay (v.acts optval optlen) m)
    (hkernel : ∀ t, getUserD e t optlen = getUserD e s optlen →
      v.Honours (getUserD e s optlen) (getUserD e (socketcall kernel t).2 optlen)
        kernel.result) :
    Honoured e sp optval optlen s (abiDoGetsockopt e sockoptMap kernel sp s) := by
  unfold abiDoGetsockopt
  dsimp only
  split
  · exact honoured_empty h0 hframe ⟨none, none⟩ _
  rw [hval, hlen]
  generalize lookUp sockoptMap getRoute _ _ = x
  have hkept := x.1.getUserD_put (e := e) (s := s) hframe
  have hcall := honoured x.1 v (r := socketcall kernel (x.1.put e sp s)) (heffect _)
    (hkernel _ hkept)
  cases x.2 with
  | pass => exact hcall
  | done r => exact honoured_empty h0 hframe x.1 r
  | linger =>
    split_ifs with hfour
    · refine honoured x.1 ⟨putValue e optval 0, none⟩ (putUser_copy 0) ⟨?_, fun _ => ?_⟩
      · rw [← hkept, hfour]
        exact length_putValue ..
      · rw [getUserD_putUser_apart 0 hvalue, hkept]
        exact ⟨h0, Int.le_refl _⟩
    · exact hcall
  | fake w => exact fakeOption_honoured h0 hframe hvalue x.1 w

end Honours

theorem four_bytes_honoured :
    Honoured plainEnv 0x1000 0x2000 0x1014 (endpoint .unbnd [3, 0xffff, 4, 0x2000, 0x1014, 4])
      (abiDoGetsockopt plainEnv none
        ⟨0, replay (OptValue.acts ⟨[1, 0, 0, 0], some 4⟩ 0x2000 0x1014)⟩ 0x1000
        (endpoint .unbnd [3, 0xffff, 4, 0x2000, 0x1014, 4])) := by
  refine abiDoGetsockopt_honours (v := ⟨[1, 0, 0, 0], some 4⟩) (by decide)
    ⟨by decide, by decide⟩ ⟨by decide, by decide⟩ none rfl rfl (fun _ => rfl)
    fun t _ => ⟨by decide, fun _ => ?_⟩
  have hlen : ∀ m : Mem, ((m.store 0x2000 [1, 0, 0, 0]).store 0x1014 (Word.bytes 4)).word 0x1014 =
      4 := fun m => Mem.word_store_bytes ..
  show 0 ≤ (Mem.word _ _).toInt ∧ (Mem.word _ _).toInt ≤ _
  erw [hlen]
  decide

end AbiEmu.Xti
