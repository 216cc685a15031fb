import AbiEmu.Lib.Run
import AbiEmu.Dir.ReadDir

/-!
# Reading a whole directory

A program reads a directory by calling `read()` again and again, with buffers and
counts of its choice. What it has read should be the entries of the directory, each
once and in order; an entry that is larger than the count of a call may be passed over,
and a result of zero means the end.

`Serves` is this for one call and `Accounts` for a run of calls. Calls meet it exactly
if none of them starts at an entry that is larger than its count, and all of them are in
the range of an `int`. `abi_read_dir` passes an entry that is too large over as it should, but
returns the result of `old_readdir`, 1, or, for a count of zero, 0 before the end; a position
from `2 ^ 31` on is not found again. What the program then finds in its buffers is
another question (`decode`), and `directory_read_iff` answers both.
-/

namespace AbiEmu.Dir

open List

/-- One call of the program. -/
def step (d : Directory) (fuel : Nat) (c : Call) (fPos : Nat) : Except Unit (Result × Nat) :=
  match abiReadDir d fuel c fPos with
  | none => .error ()
  | some r => .ok (r, r.fPos)

/-! ## What is expected -/

/-- A call at position `p` passes over `skipped`, serves `now` and leaves `rest`. -/
structure Serves (d : Directory) (p : Nat) (c : Call) (r : Result)
    (skipped now rest : List (Nat × Entry)) : Prop where
  before : Listing d p (skipped ++ now ++ rest)
  after : Listing d r.fPos rest
  oversize : ∀ x ∈ skipped, c.count.toInt < x.2.size
  returns : r.ret = total (now.map Prod.snd)
  within : r.ret ≤ max c.count.toInt 0
  frame : ∀ a, r.ret ≤ ((a - c.buf).toNat : Int) → r.mem a = c.mem a
  atEnd : r.ret = 0 → now ++ rest = []

/-- The calls of a run serve these entries, each from where the one before it stopped. -/
inductive Accounts (d : Directory) : Nat → List (Call × Result) → List Entry → Prop where
  | nil {p : Nat} : Accounts d p [] []
  | cons {p : Nat} {c : Call} {r : Result} {skipped now rest : List (Nat × Entry)}
      {xs : List (Call × Result)} {served : List Entry} (h : Serves d p c r skipped now rest)
      (hxs : Accounts d r.fPos xs served) : Accounts d p ((c, r) :: xs) (now.map Prod.snd ++ served)

/-- What the program has read. -/
def output (xs : List (Call × Result)) : List Byte :=
  xs.flatMap fun x => x.2.mem.bytes x.1.buf x.2.ret.toNat

/-- The run serves entries, and the program, looking through `f`, sees them as `g`. -/
def ReadsAs {γ : Type} (f : BitVec 16 × List Byte → γ) (g : Entry → γ) (d : Directory) (p : Nat)
    (xs : List (Call × Result)) : Prop :=
  ∃ served, Accounts d p xs served ∧
    (decode (output xs)).map (List.map f) = some (served.map g)

/-! ## Where the calls of a run start -/

/-- The calls of a run, each with the entries that are still to come. -/
def begins : List Call → List (Nat × Entry) → List (Call × List (Nat × Entry))
  | [], _ => []
  | c :: cs, es => (c, es) :: begins cs (burst c.count.toInt es).rest

/-- Nothing outside the directory disturbs the call: the descriptor is open and the page
granted, and the bytes it puts can be written, each at an address of its own. -/
structure Call.Smooth (c : Call) (es : List (Nat × Entry)) : Prop where
  fget : c.fget = true
  page : c.page = true
  writable : c.pg.canWrite c.buf (total (burst c.count.toInt es).served) = true
  space : total (burst c.count.toInt es).served < 2 ^ 32

/-- What the call puts is counted by an `int`, and the entry it puts back stands at a
position that an `int` holds. -/
def Call.InRange (c : Call) (es : List (Nat × Entry)) : Prop :=
  total (burst c.count.toInt es).served < 2 ^ 31 ∧
    ∀ q ∈ (burst c.count.toInt es).back, q < 2 ^ 31
  deriving Decidable

/-- The first entry fits the count. -/
def Call.Roomy (c : Call) (es : List (Nat × Entry)) : Prop :=
  ∀ x ∈ es.head?, (x.2.size : Int) ≤ c.count.toInt
  deriving Decidable

/-- The entries the call serves, each with the byte that is not written for it. -/
def Call.held (c : Call) (es : List (Nat × Entry)) : List (Entry × Byte) :=
  Dir.held (fun i => c.mem (c.buf + BitVec.ofNat 32 i)) 0 (burst c.count.toInt es).served

/-! ## One call -/

variable {p : Nat} {es : List (Nat × Entry)}

variable (count : Int)

/-- Behind the first entry nothing is passed over. -/
theorem rounds_split (es : List (Nat × Entry)) : ∀ (posn last : Nat), 0 < posn →
    ∃ now, now.map Prod.snd = (rounds count posn last es).served ∧
      es = now ++ (rounds count posn last es).rest := by
  induction es with
  | nil => intro posn last _; exact ⟨[], rfl, rfl⟩
  | cons x es ih =>
    intro posn last hpos
    obtain ⟨p, e⟩ := x
    rw [rounds]
    rw [if_neg hpos.ne']
    split_ifs
    · obtain ⟨now, hnow, hes⟩ := ih (posn + e.size) e.size (by omega)
      refine ⟨(p, e) :: now, ?_, ?_⟩
      · rw [map_cons, hnow]
      · exact congrArg _ hes
    all_goals exact ⟨[], rfl, rfl⟩

theorem rounds_within (es : List (Nat × Entry)) : ∀ (posn last : Nat),
    (posn : Int) ≤ count → posn + total (rounds count posn last es).served < 2 ^ 31 →
      ((posn + total (rounds count posn last es).served : Nat) : Int) ≤ count := by
  induction es with
  | nil => intro posn last h _; simpa [rounds] using h
  | cons x es ih =>
    intro posn last h hsmall
    obtain ⟨p, e⟩ := x
    rw [rounds] at hsmall ⊢
    split_ifs at hsmall ⊢ with _ hfits
    · rw [total_cons] at hsmall ⊢
      rw [wrap, Word.toInt_ofNat (by omega)] at hfits
      have := ih _ e.size hfits (by omega)
      omega
    all_goals simpa using h

variable {c : Call}

theorem burstRet_roomy (h : c.Roomy es) :
    burstRet c.count.toInt es = wrap (total (burst c.count.toInt es).served) := by
  cases es with
  | nil => rfl
  | cons x es =>
    have hfits : (x.2.size : Int) ≤ c.count.toInt := h x rfl
    rw [burstRet, if_neg (by omega)]

/-- What a roomy call makes of the list of entries. -/
theorem burst_split (h : c.Roomy es) :
    (∃ now, now.map Prod.snd = (burst c.count.toInt es).served ∧
      es = now ++ (burst c.count.toInt es).rest) ∧
    (total (burst c.count.toInt es).served < 2 ^ 31 →
      (total (burst c.count.toInt es).served : Int) ≤ max c.count.toInt 0) ∧
    (total (burst c.count.toInt es).served = 0 → es = []) := by
  cases es with
  | nil => exact ⟨⟨[], rfl, rfl⟩, fun _ => Int.le_max_right .., fun _ => rfl⟩
  | cons x es =>
    obtain ⟨p, e⟩ := x
    have hpos := e.size_pos
    have hfits : (e.size : Int) ≤ c.count.toInt := h (p, e) rfl
    obtain ⟨now, hnow, hes⟩ := rounds_split c.count.toInt es e.size e.size (by omega)
    have hwithin := rounds_within c.count.toInt es e.size e.size hfits
    rw [(burst_put es _ hfits).1]
    rw [total_cons]
    refine ⟨⟨(p, e) :: now, ?_, ?_⟩, fun hsmall => ?_, fun hzero => by omega⟩
    · rw [map_cons, hnow]
    · exact congrArg _ hes
    · have := hwithin hsmall
      omega

/-- Two beginnings of one list with equally many bytes are the same. -/
theorem prefix_unique {now now' rest rest' : List (Nat × Entry)}
    (h : now ++ rest = now' ++ rest')
    (htotal : total (now.map Prod.snd) = total (now'.map Prod.snd)) : now = now' := by
  have hnil {more : List (Nat × Entry)} (hmore : total (more.map Prod.snd) = 0) : more = [] := by
    cases more with
    | nil => rfl
    | cons x more =>
      have hpos := x.2.size_pos
      rw [map_cons, total_cons] at hmore
      omega
  rcases append_eq_append_iff.mp h with ⟨more, rfl, -⟩ | ⟨more, rfl, -⟩
  all_goals
    rw [map_append, total_append] at htotal
    obtain rfl : more = [] := hnil (by omega)
    rw [append_nil]

theorem total_mod (es : List Entry) : total es % 16 = 0 := by
  induction es with
  | nil => rfl
  | cons e es ih =>
    rw [total_cons, Entry.size, nameSize]
    omega

section Run

variable {d : Directory} {fuel : Nat}

section

variable {c : Call} {r : Result} {skipped now rest : List (Nat × Entry)}
  (h : Serves d p c r skipped now rest)

include h

/-- What a call that serves entries returns is a number of slots. -/
theorem Serves.ret_mod : r.ret % 16 = 0 := by
  have hslots := total_mod (now.map Prod.snd)
  rw [h.returns]
  omega

/-- A call that leaves the file where it was has served nothing. -/
theorem Serves.ret_of_stuck (hp : r.fPos = p) : r.ret = 0 := by
  have hafter := h.after
  rw [hp] at hafter
  have hlen := congrArg length (h.before.unique hafter)
  simp only [length_append] at hlen
  have hnow : now = [] := eq_nil_of_length_eq_zero (by omega)
  rw [h.returns, hnow]
  rfl

end

/-- What an undisturbed call comes to. -/
structure Outcome (d : Directory) (c : Call) (es : List (Nat × Entry)) (r : Result) : Prop where
  ret : r.ret = burstRet c.count.toInt es
  mem : r.mem = c.mem.store c.buf (bytesOf (c.held es))
  after : Listing d r.fPos (burst c.count.toInt es).rest ↔
    ∀ q ∈ (burst c.count.toInt es).back, q < 2 ^ 31

theorem step_outcome (hl : Listing d p es) (hfuel : es.length < fuel) (hs : c.Smooth es) :
    ∃ r, step d fuel c p = .ok (r, r.fPos) ∧ Outcome d c es r := by
  obtain ⟨fPos', hafter, heq⟩ :=
    abiReadDir_eq hl hfuel hs.fget hs.page hs.writable hs.space
  refine ⟨⟨_, _, fPos'⟩, ?_, ⟨rfl, rfl, hafter⟩⟩
  rw [step, heq]
  rfl

theorem length_held (c : Call) (es : List (Nat × Entry)) :
    (bytesOf (c.held es)).length = total (burst c.count.toInt es).served := by
  rw [length_bytesOf, Call.held, held_fst]

variable {r : Result}

/-- What a program finds in its buffer after a roomy call. -/
theorem Outcome.bytes (ho : Outcome d c es r) (hroomy : c.Roomy es)
    (hsmall : total (burst c.count.toInt es).served < 2 ^ 31) :
    r.mem.bytes c.buf r.ret.toNat = bytesOf (c.held es) := by
  have hlen := length_held c es
  have hret : r.ret.toNat = (bytesOf (c.held es)).length := by
    rw [ho.ret, burstRet_roomy hroomy, hlen, wrap, Word.toInt_ofNat hsmall, Int.toNat_natCast]
  have hstored := Mem.bytes_store c.mem c.buf [] (bytesOf (c.held es)) []
    (by rw [length_nil, hlen]; omega)
  rw [nil_append, append_nil, length_nil, BitVec.add_zero] at hstored
  rw [hret, ho.mem]
  exact hstored

/-- A call that serves entries was roomy. -/
theorem Serves.roomy {skipped now rest : List (Nat × Entry)} (ho : Outcome d c es r)
    (hserves : Serves d p c r skipped now rest) : c.Roomy es := by
  intro x hx
  by_contra hlarge
  obtain ⟨es', rfl⟩ := head?_eq_some_iff.mp hx
  have hret := ho.ret
  by_cases hcount : 0 < c.count.toInt
  · -- the result of `old_readdir` is not a number of slots
    have hle := x.2.size_le
    have hsize : wrap (0 + x.2.size) = x.2.size := by
      rw [wrap, Nat.zero_add, Word.toInt_ofNat (by omega)]
    rw [(burst_pass es' x.1 hcount (hsize ▸ hlarge)).2] at hret
    have := hserves.ret_mod
    omega
  · -- nothing was asked for, and this is not the end
    obtain ⟨hburst, hzero⟩ := burst_unasked es' x.1 x.2 hcount
    have hrest := hserves.after.unique (ho.after.mpr (by simp [hburst]))
    have hnone := append_eq_nil_iff.mp (hserves.atEnd (hret.trans hzero))
    rw [hburst, hnone.2] at hrest
    cases hrest

/-- A call serves entries exactly if it is roomy and in range, and then those of its burst. -/
theorem serves_iff (hl : Listing d p es) (ho : Outcome d c es r) (hs : c.Smooth es)
    {now : List (Nat × Entry)} : (∃ skipped rest, Serves d p c r skipped now rest) ↔
      (c.Roomy es ∧ c.InRange es) ∧ es = now ++ (burst c.count.toInt es).rest := by
  constructor
  · intro h
    obtain ⟨skipped, rest, hserves⟩ := h
    have hes := hl.unique hserves.before
    have hroomy := hserves.roomy ho
    obtain ⟨⟨now', hnow, hes'⟩, -⟩ := burst_split hroomy
    cases skipped with
    | nil =>
      rw [nil_append] at hes
      -- what is returned is no negative number
      have hret := hserves.returns.symm.trans (ho.ret.trans (burstRet_roomy hroomy))
      have hspace := hs.space
      have hsmall : total (burst c.count.toInt es).served < 2 ^ 31 := by
        rw [wrap, BitVec.toInt_eq_toNat_cond, BitVec.toNat_ofNat, Nat.mod_eq_of_lt hspace] at hret
        split_ifs at hret <;> omega
      rw [wrap, Word.toInt_ofNat hsmall, ← hnow] at hret
      obtain rfl := prefix_unique (hes.symm.trans hes') (Int.natCast_inj.mp hret)
      have hrest := append_cancel_left (hes.symm.trans hes')
      exact ⟨⟨hroomy, hsmall, ho.after.mp (hrest ▸ hserves.after)⟩, hes'⟩
    | cons y ys =>
      have hfits := hroomy y (by rw [hes]; rfl)
      have hover := hserves.oversize y mem_cons_self
      omega
  · intro h
    obtain ⟨⟨hroomy, hsmall, hback⟩, hes⟩ := h
    obtain ⟨⟨now', hnow, hes'⟩, hwithin, hend⟩ := burst_split hroomy
    have hsame : now' = now := append_cancel_right (hes'.symm.trans hes)
    rw [hsame] at hnow
    have hret : r.ret = total (burst c.count.toInt es).served := by
      rw [ho.ret, burstRet_roomy hroomy, wrap, Word.toInt_ofNat hsmall]
    refine ⟨[], (burst c.count.toInt es).rest, ?_⟩
    exact {
      before := by rw [nil_append, ← hes]; exact hl
      after := ho.after.mpr hback
      oversize := fun _ hx => absurd hx not_mem_nil
      returns := by rw [hret, hnow]
      within := by rw [hret]; exact hwithin hsmall
      frame := by
        intro a ha
        rw [ho.mem]
        refine Mem.store_apart c.mem c.buf ?_
        rw [length_held]
        omega
      atEnd := by
        intro hzero
        rw [← hes]
        exact hend (by omega) }

section Runs

variable (hd : ∀ p, ∃ es, Listing d p es ∧ es.length < fuel)

include hd

/-- Calls come back wherever they start. -/
theorem exists_results : ∀ (calls : List Call) (p : Nat),
    ∃ rs p', results (step d fuel) calls p = .ok (rs, p')
  | [], p => ⟨[], p, rfl⟩
  | c :: cs, p => by
    obtain ⟨es, hl, hfuel⟩ := hd p
    obtain ⟨r, hr⟩ : ∃ r, abiReadDir d fuel c p = some r := by
      unfold abiReadDir
      split
      · exact ⟨_, rfl⟩
      · split
        · exact ⟨_, rfl⟩
        · exact exists_readLoop d c es fuel 0 0 0 c.mem p hl hfuel
    obtain ⟨rs, p', hrs⟩ := exists_results cs r.fPos
    refine ⟨r :: rs, p', ?_⟩
    rw [results, step, hr]
    dsimp only
    rw [hrs]
    rfl

/-- The calls of a run: they come back, they serve entries exactly if all of them are
roomy and in range, and then the output is that of their bursts. -/
theorem run_accounts (calls : List Call) : ∀ {p : Nat} {es : List (Nat × Entry)}, Listing d p es →
    (∀ x ∈ begins calls es, x.1.Smooth x.2) →
    ∃ rs p', results (step d fuel) calls p = .ok (rs, p') ∧
      (∀ served, Accounts d p (calls.zip rs) served ↔
        (∀ x ∈ begins calls es, x.1.Roomy x.2 ∧ x.1.InRange x.2) ∧
          served = (begins calls es).flatMap fun x => (burst x.1.count.toInt x.2).served) ∧
      ((∀ x ∈ begins calls es, x.1.Roomy x.2 ∧ x.1.InRange x.2) →
        output (calls.zip rs) = bytesOf ((begins calls es).flatMap fun x => x.1.held x.2)) := by
  induction calls with
  | nil =>
    intro p es hl _
    refine ⟨[], p, rfl, fun served => ⟨fun h => ?_, fun h => ?_⟩, fun _ => rfl⟩
    · cases h
      exact ⟨nofun, rfl⟩
    · rw [h.2]
      exact .nil
  | cons c cs ih =>
    intro p es hl hsmooth
    rw [begins, forall_mem_cons] at hsmooth
    have hfuel : es.length < fuel := by
      obtain ⟨fs, hfs, hlen⟩ := hd p
      rwa [hl.unique hfs]
    obtain ⟨r, hstep, ho⟩ := step_outcome hl hfuel hsmooth.1
    by_cases hback : ∀ q ∈ (burst c.count.toInt es).back, q < 2 ^ 31
    swap
    · -- the file is left somewhere else, and the account ends here
      obtain ⟨rs, p', hrun⟩ := exists_results hd cs r.fPos
      have hno : ¬ ∀ x ∈ begins (c :: cs) es, x.1.Roomy x.2 ∧ x.1.InRange x.2 :=
        fun h => hback (h (c, es) mem_cons_self).2.2
      refine ⟨r :: rs, p', ?_, fun served => iff_of_false (fun h => ?_) fun h => hno h.1,
        fun h => absurd h hno⟩
      · rw [results, hstep]
        dsimp only
        rw [hrun]
        rfl
      · rw [zip_cons_cons] at h
        cases h with
        | cons hserves _ =>
          exact hback ((serves_iff hl ho hsmooth.1).mp ⟨_, _, hserves⟩).1.2.2
    obtain ⟨rs, p', hrun, hacc, hout⟩ := ih (ho.after.mpr hback) hsmooth.2
    refine ⟨r :: rs, p', ?_, fun served => ?_, fun hroomy => ?_⟩
    · rw [results, hstep]
      dsimp only
      rw [hrun]
      rfl
    · rw [begins, forall_mem_cons, flatMap_cons, zip_cons_cons]
      constructor
      · intro h
        cases h with
        | cons hserves hxs =>
          rename_i skipped now rest served
          obtain ⟨hroomy, hes⟩ := (serves_iff hl ho hsmooth.1).mp ⟨skipped, rest, hserves⟩
          obtain ⟨hall, hserved⟩ := (hacc served).mp hxs
          obtain ⟨⟨now', hnow, hes'⟩, -⟩ := burst_split hroomy.1
          have hsame : now' = now := append_cancel_right (hes'.symm.trans hes)
          refine ⟨⟨hroomy, hall⟩, ?_⟩
          rw [← hsame, hnow, hserved]
      · intro h
        obtain ⟨⟨hroomy, hall⟩, hserved⟩ := h
        obtain ⟨⟨now, hnow, hes⟩, -⟩ := burst_split hroomy.1
        obtain ⟨skipped, rest, hserves⟩ := (serves_iff hl ho hsmooth.1).mpr ⟨hroomy, hes⟩
        rw [hserved, ← hnow]
        exact .cons hserves ((hacc _).mpr ⟨hall, rfl⟩)
    · rw [begins, forall_mem_cons] at hroomy
      have hfirst := ho.bytes hroomy.1.1 hroomy.1.2.1
      rw [begins, flatMap_cons, bytesOf_append, zip_cons_cons, ← hfirst, ← hout hroomy.2]
      rfl

end Runs

theorem held_entries (c : Call) (es : List (Nat × Entry)) :
    (c.held es).map Prod.fst = (burst c.count.toInt es).served :=
  held_fst _ _ 0

/-- A run accounts for the directory as a program sees it exactly if its calls are roomy
and each of the entries is seen as it should be. -/
theorem readsAs_iff {γ : Type} (f : BitVec 16 × List Byte → γ) (g : Entry → γ)
    {xs : List (Call × Result)} {bs : List (Call × List (Nat × Entry))}
    (hacc : ∀ served, Accounts d p xs served ↔ (∀ x ∈ bs, x.1.Roomy x.2 ∧ x.1.InRange x.2) ∧
      served = bs.flatMap fun x => (burst x.1.count.toInt x.2).served)
    (hout : (∀ x ∈ bs, x.1.Roomy x.2 ∧ x.1.InRange x.2) →
      output xs = bytesOf (bs.flatMap fun x => x.1.held x.2)) :
    ReadsAs f g d p xs ↔
      ∀ x ∈ bs, (x.1.Roomy x.2 ∧ x.1.InRange x.2) ∧
        ∀ y ∈ x.1.held x.2, slotIno y.1.ino y.2 ≠ 0xffff ∧
        f (slotIno y.1.ino y.2, y.1.name) = g y.1 := by
  have hserved : (bs.flatMap fun x => (burst x.1.count.toInt x.2).served).map g =
      (bs.flatMap fun x => x.1.held x.2).map fun y => g y.1 := by
    rw [map_flatMap, map_flatMap]
    refine flatMap_congr fun x _ => ?_
    rw [← held_entries, map_map]
    rfl
  have hdecode := decode_bytesOf_iff f g (bs.flatMap fun x => x.1.held x.2)
  simp only [mem_flatMap, forall_exists_index, and_imp] at hdecode
  rw [← hserved] at hdecode
  constructor
  · intro h
    obtain ⟨served, hserves, hdec⟩ := h
    obtain ⟨hroomy, rfl⟩ := (hacc served).mp hserves
    rw [hout hroomy] at hdec
    exact fun x hx => ⟨hroomy x hx, fun y hy => hdecode.mp hdec y x hx hy⟩
  · intro h
    have hroomy : ∀ x ∈ bs, x.1.Roomy x.2 ∧ x.1.InRange x.2 := fun x hx => (h x hx).1
    refine ⟨_, (hacc _).mpr ⟨hroomy, rfl⟩, ?_⟩
    rw [hout hroomy]
    exact hdecode.mpr fun y x hx hy => (h x hx).2 y hy

/-- Reading a directory that is finite from every position: the calls come back; they account
for the names of the directory exactly if every call has room for the entry it starts at and
is in the range of an `int` and no last slot looks like one to be continued, and for the
entries with their inode numbers exactly if, moreover, the buffer held the second byte of each
number already. -/
theorem directory_read_iff {p : Nat} {es : List (Nat × Entry)} (fuel : Nat)
    (hd : ∀ p, ∃ es, Listing d p es ∧ es.length < fuel) (hl : Listing d p es) (calls : List Call)
    (hsmooth : ∀ x ∈ begins calls es, x.1.Smooth x.2) :
    ∃ rs p', results (step d fuel) calls p = .ok (rs, p') ∧
      (ReadsAs Prod.snd Entry.name d p (calls.zip rs) ↔
        ∀ x ∈ begins calls es, (x.1.Roomy x.2 ∧ x.1.InRange x.2) ∧
          ∀ y ∈ x.1.held x.2, slotIno y.1.ino y.2 ≠ 0xffff) ∧
      (ReadsAs id (fun e => (linuxToSvr4OInoT e.ino, e.name)) d p (calls.zip rs) ↔
        ∀ x ∈ begins calls es, (x.1.Roomy x.2 ∧ x.1.InRange x.2) ∧
          ∀ y ∈ x.1.held x.2, slotIno y.1.ino y.2 = linuxToSvr4OInoT y.1.ino ∧
            linuxToSvr4OInoT y.1.ino ≠ 0xffff) := by
  obtain ⟨rs, p', hrun, hacc, hout⟩ := run_accounts hd calls hl hsmooth
  refine ⟨rs, p', hrun, ?_, ?_⟩
  · rw [readsAs_iff Prod.snd Entry.name hacc hout]
    simp
  · rw [readsAs_iff id _ hacc hout]
    refine forall₂_congr fun x _ => and_congr_right fun _ => forall₂_congr fun y _ => ?_
    rw [id_eq, Prod.mk.injEq]
    constructor
    · intro h
      exact ⟨h.2.1, h.2.1 ▸ h.1⟩
    · intro h
      exact ⟨h.1 ▸ h.2, h.1, rfl⟩

end Run

/-! ## Two directories -/

/-- A short name. -/
def shortEntry : Entry := ⟨5, [0x61], by decide, by decide, by decide⟩

/-- A name of two slots. -/
def longEntry : Entry := ⟨6, List.replicate 20 0x62, by decide, by decide, by decide⟩

/-- A directory of these two; the second stands at `q`. -/
def twoEntries (q : Nat) : Directory := fun p =>
  if p = 0 then .entry shortEntry q
  else if p = q then .entry longEntry (q + 1)
  else .stop 0

/-- A call on a zeroed buffer. -/
def zeroCall (count : Word) : Call := ⟨.everywhere, 0x1000, count, fun _ => 0, true, true⟩

theorem twoEntries_listing {q : Nat} (hq : q ≠ 0) :
    Listing (twoEntries q) 0 [(0, shortEntry), (q, longEntry)] := by
  refine .cons ?_ (.cons (q := q + 1) ?_ (.nil ?_))
  · rw [twoEntries, if_pos rfl]
  · rw [twoEntries, if_neg hq, if_pos rfl]
  · rw [twoEntries, if_neg (by omega), if_neg (by omega)]

/-- It is finite from every position. -/
theorem twoEntries_finite {q : Nat} (hq : q ≠ 0) (p : Nat) :
    ∃ es, Listing (twoEntries q) p es ∧ es.length < 4 := by
  have hall := twoEntries_listing hq
  by_cases h0 : p = 0
  · subst h0
    exact ⟨_, hall, by simp⟩
  by_cases hpq : p = q
  · subst hpq
    cases hall with
    | cons hd hes =>
      rw [twoEntries, if_pos rfl] at hd
      cases hd
      exact ⟨_, hes, by simp⟩
  · exact ⟨[], .nil (by rw [twoEntries, if_neg h0, if_neg hpq]), by decide⟩

/-- The whole directory, with the second entry put back by the first call. -/
theorem two_entries_read :
    ∃ rs p', results (step (twoEntries 12) 4) [zeroCall 40, zeroCall 40, zeroCall 40] 0 =
        .ok (rs, p') ∧
      ReadsAs Prod.snd Entry.name (twoEntries 12) 0
        ([zeroCall 40, zeroCall 40, zeroCall 40].zip rs) ∧
      ReadsAs id (fun e => (linuxToSvr4OInoT e.ino, e.name)) (twoEntries 12) 0
        ([zeroCall 40, zeroCall 40, zeroCall 40].zip rs) := by
  have hbegins : begins [zeroCall 40, zeroCall 40, zeroCall 40] [(0, shortEntry), (12, longEntry)] =
      [(zeroCall 40, [(0, shortEntry), (12, longEntry)]), (zeroCall 40, [(12, longEntry)]),
        (zeroCall 40, [])] := rfl
  obtain ⟨rs, p', hrun, hnames, hentries⟩ := directory_read_iff 4
    (twoEntries_finite (q := 12) (by omega)) (twoEntries_listing (q := 12) (by omega))
    [zeroCall 40, zeroCall 40, zeroCall 40] (by
      rw [hbegins]
      simp only [forall_mem_cons, not_mem_nil, false_implies, implies_true, and_true]
      exact ⟨⟨rfl, rfl, by decide, by decide⟩, ⟨rfl, rfl, by decide, by decide⟩,
        ⟨rfl, rfl, by decide, by decide⟩⟩)
  exact ⟨rs, p', hrun, hnames.mpr (by decide), hentries.mpr (by decide)⟩

/-- A count below the size of the first entry: the call says it has read one byte. An entry
at position `2 ^ 32` that is put back: the call goes back to the beginning instead, and the
first entry is read again. -/
theorem entries_lost_and_repeated :
    (∃ r p', results (step (twoEntries 12) 4) [zeroCall 8] 0 = .ok ([r], p') ∧ r.ret = 1 ∧
      ¬ ReadsAs Prod.snd Entry.name (twoEntries 12) 0 [(zeroCall 8, r)]) ∧
    ∃ r p', results (step (twoEntries (2 ^ 32)) 4) [zeroCall 40] 0 = .ok ([r], p') ∧
      r.ret = 16 ∧ p' = 0 ∧
      ¬ ReadsAs Prod.snd Entry.name (twoEntries (2 ^ 32)) 0 [(zeroCall 40, r)] := by
  constructor
  · refine ⟨⟨1, fun _ => 0, 12⟩, 12, rfl, rfl, ?_⟩
    intro h
    obtain ⟨served, hacc, -⟩ := h
    cases hacc with
    | cons hserves _ => exact nomatch hserves.ret_mod
  · obtain ⟨m, hcall⟩ : ∃ m, abiReadDir (twoEntries (2 ^ 32)) 4 (zeroCall 40) 0 = some ⟨16, m, 0⟩ :=
      ⟨_, rfl⟩
    refine ⟨⟨16, m, 0⟩, 0, ?_, rfl, rfl, ?_⟩
    · rw [results, step, hcall]
      rfl
    intro h
    obtain ⟨served, hacc, -⟩ := h
    cases hacc with
    | cons hserves _ =>
      have hret : (16 : Int) = 0 := hserves.ret_of_stuck rfl
      omega

end AbiEmu.Dir
