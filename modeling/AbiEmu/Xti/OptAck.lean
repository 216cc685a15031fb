import AbiEmu.Xti.Answers

/-!
# The acknowledgement of an option list

A `T_OPTMGMT_ACK` repeats the options of the request with the values they have now. An
option is a record: level, name, the length of the value, the value. `parseOpts` reads
such records, and `parseOpts_iff` says that it accepts exactly what `OptRec.bytes`
writes.

The reply is put together in the scratch area below the caller's stack pointer, record
behind record, and then copied into the message. `Walking` is where the loop stands in
the request and in the reply; `optLoop_builds` follows it through a whole list and says
what the reply is: the headers of the request as they were, each with the new value
behind it. The length of the new value has gone into the request instead.

So the reply is well formed, and the request unchanged, exactly if every value is as
long as the one in the request (`optmgmt_ack_iff`).
-/

namespace AbiEmu.Xti

open List

/-! ## Option records -/

/-- An option. -/
structure OptRec where
  level : Word
  name : Word
  value : List Byte
  deriving DecidableEq, Repr

/-- `struct opthdr`, and the value behind it. -/
def OptRec.bytes (q : OptRec) : List Byte :=
  [q.level, q.name, BitVec.ofNat 32 q.value.length].flatMap Word.bytes ++ q.value

/-- Read records; at most `n` of them. -/
def parseRecords : Nat → List Byte → Option (List OptRec)
  | _, [] => some []
  | n + 1, l0 :: l1 :: l2 :: l3 :: n0 :: n1 :: n2 :: n3 :: k0 :: k1 :: k2 :: k3 :: rest =>
    let len := (k3 ++ k2 ++ k1 ++ k0 : Word).toNat
    if rest.length < len then none
    else
      (parseRecords n (rest.drop len)).map
        (⟨l3 ++ l2 ++ l1 ++ l0, n3 ++ n2 ++ n1 ++ n0, rest.take len⟩ :: ·)
  | _, _ => none

/-- Read a list of options. -/
def parseOpts (bs : List Byte) : Option (List OptRec) := parseRecords bs.length bs

theorem OptRec.length_bytes (q : OptRec) : q.bytes.length = 12 + q.value.length := by
  unfold OptRec.bytes
  rw [length_append]
  rfl

theorem parseRecords_header (n : Nat) (l m k : Word) (rest : List Byte) :
    parseRecords (n + 1) ([l, m, k].flatMap Word.bytes ++ rest) =
      if rest.length < k.toNat then none
      else (parseRecords n (rest.drop k.toNat)).map (⟨l, m, rest.take k.toNat⟩ :: ·) := by
  conv_rhs => rw [← l.append_bytes, ← m.append_bytes, ← k.append_bytes]
  rfl

/-- The first record of a list. -/
theorem parseRecords_cons (n : Nat) (q : OptRec) (bs : List Byte) (hq : q.value.length < 2 ^ 32) :
    parseRecords (n + 1) (q.bytes ++ bs) = (parseRecords n bs).map (q :: ·) := by
  have hlen : (BitVec.ofNat 32 q.value.length).toNat = q.value.length := by
    rw [BitVec.toNat_ofNat, Nat.mod_eq_of_lt hq]
  unfold OptRec.bytes
  rw [append_assoc, parseRecords_header, hlen, length_append, if_neg (by omega),
    drop_left, take_left]

theorem parseRecords_flatMap : ∀ (n : Nat) (qs : List OptRec), qs.length ≤ n →
    (∀ q ∈ qs, q.value.length < 2 ^ 32) → parseRecords n (qs.flatMap OptRec.bytes) = some qs
  | n, [], _, _ => by cases n <;> rfl
  | 0, _ :: _, hn, _ => absurd hn (Nat.not_succ_le_zero _)
  | n + 1, q :: qs, hn, h => by
    obtain ⟨hq, hqs⟩ := List.forall_mem_cons.mp h
    rw [List.flatMap_cons, parseRecords_cons n q _ hq,
      parseRecords_flatMap n qs (Nat.le_of_succ_le_succ hn) hqs]
    rfl

theorem parseRecords_sound : ∀ {n : Nat} {bs : List Byte} {qs : List OptRec},
    parseRecords n bs = some qs →
      bs = qs.flatMap OptRec.bytes ∧ ∀ q ∈ qs, q.value.length < 2 ^ 32 := by
  intro n bs
  fun_induction parseRecords n bs with
  | case1 n =>
    intro qs h
    obtain rfl := Option.some.inj h
    exact ⟨rfl, nofun⟩
  | case2 =>
    nofun
  | case3 n l0 l1 l2 l3 n0 n1 n2 n3 k0 k1 k2 k3 rest len hlong =>
    rename_i ih
    intro qs h
    obtain ⟨qs', hrest, rfl⟩ := Option.map_eq_some_iff.mp h
    obtain ⟨hbytes, hall⟩ := ih hrest
    have htake : (rest.take len).length = len := by
      rw [length_take]
      omega
    have hlen : len < 2 ^ 32 := (k3 ++ k2 ++ k1 ++ k0 : Word).isLt
    refine ⟨?_, forall_mem_cons.mpr ⟨by rw [htake]; exact hlen, hall⟩⟩
    have hword : BitVec.ofNat 32 len = k3 ++ k2 ++ k1 ++ k0 := BitVec.ofNat_toNat ..
    rw [flatMap_cons, ← hbytes]
    unfold OptRec.bytes
    rw [htake, hword, append_assoc, take_append_drop]
    simp only [flatMap_cons, flatMap_nil, Word.bytes_append]
    rfl
  | case4 =>
    nofun

theorem length_flatMap_bytes (qs : List OptRec) : qs.length ≤ (qs.flatMap OptRec.bytes).length := by
  induction qs with
  | nil => exact Nat.le_refl 0
  | cons q qs ih =>
    rw [flatMap_cons, length_append, q.length_bytes, length_cons]
    omega

variable {bs : List Byte}

/-- What is read as a list of options is exactly what was written. -/
theorem parseOpts_iff {qs : List OptRec} :
    parseOpts bs = some qs ↔ bs = qs.flatMap OptRec.bytes ∧ ∀ q ∈ qs, q.value.length < 2 ^ 32 := by
  constructor
  · exact parseRecords_sound
  · intro h
    obtain ⟨rfl, hqs⟩ := h
    exact parseRecords_flatMap _ qs (length_flatMap_bytes qs) hqs

/-! ## What is expected, and what is built -/

/-- The options of the request with the values of the answers, from the `i`-th on. -/
def expected (a : OptAnswers) (i : Nat) (req : List OptRec) : List OptRec :=
  (req.zipIdx i).map fun x => { x.1 with value := (a.get x.2).value }

/-- The reply as it is built: the header of the request, then the value of the answer. -/
def built (a : OptAnswers) (i : Nat) (req : List OptRec) : List Byte :=
  (req.zipIdx i).flatMap fun x =>
    [x.1.level, x.1.name, BitVec.ofNat 32 x.1.value.length].flatMap Word.bytes ++
      (a.get x.2).value

/-- The answers are as long as the values of the request. -/
def SameLengths (a : OptAnswers) (i : Nat) (req : List OptRec) : Prop :=
  ∀ x ∈ req.zipIdx i, (a.get x.2).value.length = x.1.value.length

section Built

variable (a : OptAnswers)

section

variable (i : Nat) (q : OptRec) (req : List OptRec)

include i q req

theorem expected_bytes_cons :
    (expected a i (q :: req)).flatMap OptRec.bytes =
      [q.level, q.name, BitVec.ofNat 32 (a.get i).value.length].flatMap Word.bytes ++
        (a.get i).value ++ (expected a (i + 1) req).flatMap OptRec.bytes := rfl

theorem built_cons :
    built a i (q :: req) =
      [q.level, q.name, BitVec.ofNat 32 q.value.length].flatMap Word.bytes ++ (a.get i).value ++
        built a (i + 1) req := rfl

theorem length_built_cons : (built a i (q :: req)).length =
    12 + (a.get i).value.length + (built a (i + 1) req).length := by
  rw [built_cons, length_append, length_append]
  rfl

theorem sameLengths_cons :
    SameLengths a i (q :: req) ↔
      (a.get i).value.length = q.value.length ∧ SameLengths a (i + 1) req :=
  forall_mem_cons

end

/-- Two headers that differ in the length word only. -/
theorem header_inj {l n k k' : Word} {v bs bs' : List Byte}
    (h : [l, n, k].flatMap Word.bytes ++ v ++ bs = [l, n, k'].flatMap Word.bytes ++ v ++ bs') :
    k = k' ∧ bs = bs' := by
  rw [append_assoc, append_assoc] at h
  obtain ⟨hhead, hrest⟩ := append_inj h rfl
  have hword : k.bytes ++ [] = k'.bytes ++ [] :=
    append_cancel_left (append_cancel_left hhead)
  exact ⟨Word.bytes_inj hword, append_cancel_left hrest⟩

/-- The reply is the expected list exactly if the lengths agree. -/
theorem built_eq_iff {req : List OptRec} {i : Nat}
    (hreq : ∀ q ∈ req, q.value.length < 2 ^ 31)
    (ha : ∀ x ∈ req.zipIdx i, (a.get x.2).value.length < 2 ^ 31) :
    built a i req = (expected a i req).flatMap OptRec.bytes ↔ SameLengths a i req := by
  induction req generalizing i with
  | nil => exact iff_of_true rfl nofun
  | cons q req ih =>
    obtain ⟨hq, hreq⟩ := forall_mem_cons.mp hreq
    obtain ⟨hv, ha⟩ := forall_mem_cons.mp ha
    dsimp only at hv
    rw [sameLengths_cons, ← ih hreq ha, built_cons, expected_bytes_cons]
    constructor
    · intro h
      obtain ⟨hlen, hrest⟩ := header_inj h
      have hnat := congrArg BitVec.toNat hlen
      rw [BitVec.toNat_ofNat, BitVec.toNat_ofNat] at hnat
      exact ⟨by omega, hrest⟩
    · intro h
      rw [h.1, h.2]

end Built

/-! ## Where the loop stands -/

/-- The loop is `k` bytes into a request of `total` bytes, and `u` bytes into a room of
`space` bytes, which begins behind the frame at `tsp`. -/
structure Walking (tsp optBuf : Word) (space total k u : Nat) (o : OptState) : Prop where
  cursor : At optBuf total k o
  retBuf : o.retBuf = tsp + BitVec.ofNat 32 (24 + u)
  retLen : o.retLen = BitVec.ofNat 32 u
  retSpace : o.retSpace = BitVec.ofInt 32 (space - u)
  used : u ≤ space + 12

/-- The byte lies apart from the frame at `tsp` and from `room` bytes of reply behind it. -/
def Apart (tsp : Word) (room : Nat) (x : Word) : Prop := 24 + room ≤ (x - tsp).toNat

/-- `getsockopt` stores as many bytes as it says, and honours what it was given. -/
structure OptAnswers.Exact (a : OptAnswers) (e : Env) (fd flag tsp : Word) (r : Round) : Prop
    extends a.Honours e fd flag tsp r where
  exact : r.Asks e fd flag tsp → (r.answered e fd flag tsp).1 = 0 →
    (a.get r.index).value.length = (r.got e fd flag tsp).toNat

section Walk

variable {a : OptAnswers} {e : Env} {fd flag tsp optBuf : Word} {space total k u : Nat} {r : Round}

section

variable (hw : Walking tsp optBuf space total k u r.opt)

include hw

/-- A successful answer fits into what is left, but for the header in front of it. -/
theorem Walking.room (ha : a.Exact e fd flag tsp r) (hasks : r.Asks e fd flag tsp)
    (hget : (r.answered e fd flag tsp).1 = 0) :
    u + (a.get r.index).value.length ≤ space ∧ (a.get r.index).value.length < 2 ^ 31 ∧
      r.got e fd flag tsp = BitVec.ofNat 32 (a.get r.index).value.length := by
  have hexact := ha.exact hasks hget
  obtain ⟨hgot, hgiven⟩ := (ha.value hasks).returned hget
  have hused := hw.used
  have hnat := Word.toNat_toInt hgot
  rw [hw.retSpace, BitVec.toInt_ofInt, Int.bmod_def] at hgiven
  refine ⟨?_, ?_, ?_⟩
  · split at hgiven <;> omega
  · omega
  · rw [hexact, BitVec.ofNat_toNat, BitVec.setWidth_eq]

/-- The next round. -/
theorem Walking.next (htotal : total < 2 ^ 31) (ha : a.Exact e fd flag tsp r)
    (hasks : r.Asks e fd flag tsp) (hget : (r.answered e fd flag tsp).1 = 0) {l : Nat}
    (hlen : r.lenWord = BitVec.ofNat 32 l) (hfit : k + 12 + l ≤ total) :
    Walking tsp optBuf space total (k + 12 + l) (u + (12 + (a.get r.index).value.length))
      (r.next e fd flag tsp) := by
  obtain ⟨hroom, hshort, hgot⟩ := hw.room ha hasks hget
  have hstep : 12 + r.lenWord = BitVec.ofNat 32 (12 + l) := by
    rw [hlen, BitVec.ofNat_add]
    rfl
  have hback : 12 + r.got e fd flag tsp =
      BitVec.ofNat 32 (12 + (a.get r.index).value.length) := by
    rw [hgot, BitVec.ofNat_add]
    rfl
  refine ⟨⟨?_, ?_, hfit⟩, ?_, ?_, ?_, by omega⟩
  · show r.opt.optBuf + (12 + r.lenWord) = _
    rw [hstep, hw.cursor.optBuf, add_ofNat_add, ← Nat.add_assoc]
  · show r.opt.optLen - (12 + r.lenWord) = _
    rw [hstep, hw.cursor.optLen, BitVec.ofNat_sub_ofNat_of_le _ _ (by omega) (by omega),
      Nat.sub_sub, ← Nat.add_assoc]
  · show r.opt.retBuf + (12 + r.got e fd flag tsp) = _
    rw [hback, hw.retBuf, add_ofNat_add, Nat.add_assoc]
  · show r.opt.retLen + (12 + r.got e fd flag tsp) = _
    rw [hback, hw.retLen, ← BitVec.ofNat_add]
  · show r.opt.retSpace - (12 + r.got e fd flag tsp) = _
    rw [hback, hw.retSpace]
    apply BitVec.eq_of_toInt_eq
    rw [BitVec.toInt_sub, BitVec.toInt_ofInt, BitVec.toInt_ofInt, BitVec.toInt_ofNat',
      Int.bmod_sub_bmod, Int.sub_bmod_bmod]
    congr 1
    omega

end

end Walk

/-! ## The memory of a round -/

section Memory

variable {a : OptAnswers} {e : Env} {fd flag tsp optBuf : Word} {space room total k u : Nat}
  {r : Round}
  {x : Word}

section

variable (ha : a.Honours e fd flag tsp r) (hasks : r.Asks e fd flag tsp)

include ha hasks

/-- Outside the frame, the calls of a round store the value only. -/
theorem Round.answered_keeps (hframe : 24 ≤ (x - tsp).toNat)
    (hvalue : (a.get r.index).value.length ≤ (x - (r.opt.retBuf + 12)).toNat) :
    (r.answered e fd flag tsp).2.mem x = r.sys.mem x := by
  obtain ⟨before, after, hacts, hbefore, hafter⟩ := askActs_split a e fd tsp r
  rw [r.answered_replay ha hasks, hacts]
  refine replay_apart _ ?_
  have hframed : ∀ {acts : List (Act Ptr)}, InFrame tsp acts → ∀ act ∈ acts, ¬ act.Stores x :=
    fun h act hact hx => absurd (h act hact x hx) (Nat.not_lt.mpr hframe)
  refine forall_mem_append.mpr ⟨hframed setActs_inFrame, forall_mem_append.mpr
    ⟨hframed hbefore, forall_mem_cons.mpr ⟨Nat.not_lt.mpr hvalue, hframed hafter⟩⟩⟩

/-- The value is where it was asked for. -/
theorem Round.answered_value {j : Nat} (hj : j < (a.get r.index).value.length) (hj32 : j < 2 ^ 32)
    (hframe : 24 ≤ (r.opt.retBuf + 12 + BitVec.ofNat 32 j - tsp).toNat) :
    (r.answered e fd flag tsp).2.mem (r.opt.retBuf + 12 + BitVec.ofNat 32 j) =
      (a.get r.index).value[j] := by
  obtain ⟨before, after, hacts, hbefore, hafter⟩ := askActs_split a e fd tsp r
  have hframed : ∀ act ∈ after, ¬ act.Stores (r.opt.retBuf + 12 + BitVec.ofNat 32 j) :=
    fun act hact hx => absurd (hafter act hact _ hx) (Nat.not_lt.mpr hframe)
  rw [r.answered_replay ha hasks, hacts, replay_append, replay_append, replay_cons,
    replay_apart _ hframed]
  exact Mem.store_add _ _ hj32 (getElem?_eq_getElem hj)

end

section

variable (hw : Walking tsp optBuf space total k u r.opt)

include hw

/-- The length field of the option lies in the request. -/
theorem Walking.field_inside (htotal : total < 2 ^ 31) (hk : k + 12 ≤ total)
    (hx : (x - (r.opt.optBuf + 8)).toNat < 4) :
    k + 8 ≤ (x - optBuf).toNat ∧ (x - optBuf).toNat < k + 12 := by
  have hfield : r.opt.optBuf + 8 = optBuf + BitVec.ofNat 32 (k + 8) := by
    rw [hw.cursor.optBuf, ← add_ofNat_add]
    rfl
  rw [hfield, Mem.sub_add_toNat (by omega)] at hx
  split at hx <;> omega

/-- A byte of the scratch area, seen from `ret_buf`. -/
theorem Walking.retBuf_sub (hspace : space + 36 ≤ 2 ^ 32) (c : Nat) (hc : c ≤ 12) (hu : u ≤ space)
    (x : Word) :
    (x - (r.opt.retBuf + BitVec.ofNat 32 c)).toNat =
      if 24 + u + c ≤ (x - tsp).toNat then (x - tsp).toNat - (24 + u + c)
      else 2 ^ 32 + (x - tsp).toNat - (24 + u + c) := by
  rw [hw.retBuf, add_ofNat_add]
  exact Mem.sub_add_toNat (by omega)

/-- Behind the round, the scratch area is as the header left it. -/
theorem Walking.next_scratch (htotal : total < 2 ^ 31)
    (hapart : ∀ x : Word, (x - optBuf).toNat < total → Apart tsp room x) (hk : k + 12 ≤ total)
    (hx : ¬ Apart tsp room x) :
    (putUser e (r.opt.optBuf + 8) (r.got e fd flag tsp) (r.copied e fd flag tsp)).mem x =
      (r.copied e fd flag tsp).mem x := by
  unfold putUser
  split
  · refine Mem.store_apart _ _ (Nat.not_lt.mp fun hfield => hx ?_)
    have hinside := hw.field_inside htotal hk hfield
    exact hapart x (by omega)
  · rfl

end

section Next

variable (hw : Walking tsp optBuf space total k u r.opt) (htotal : total < 2 ^ 31)
  (hspace : space + 36 ≤ 2 ^ 32)
  (hapart : ∀ x : Word, (x - optBuf).toNat < total → Apart tsp room x)
  (ha : a.Exact e fd flag tsp r) (hasks : r.Asks e fd flag tsp)
  (hget : (r.answered e fd flag tsp).1 = 0)
  (hreach : u + (12 + (a.get r.index).value.length) ≤ room)

include hw hspace ha hasks hget

/-- The header in the reply leaves alone what lies outside this record. -/
theorem Walking.copied_keeps (hframe : 24 ≤ (x - tsp).toNat)
    (hx : (x - tsp).toNat < 24 + u ∨ 24 + u + (12 + (a.get r.index).value.length) ≤
      (x - tsp).toNat) :
    (r.copied e fd flag tsp).mem x = r.sys.mem x := by
  obtain ⟨hroom, hshort, -⟩ := hw.room ha hasks hget
  have hheader := hw.retBuf_sub hspace 0 (by omega) (by omega) x
  have hvalue := hw.retBuf_sub hspace 12 (Nat.le_refl 12) (by omega) x
  rw [BitVec.add_zero] at hheader
  have hstore : (r.copied e fd flag tsp).mem x = (r.answered e fd flag tsp).2.mem x := by
    refine Mem.store_apart _ _ (show 12 ≤ _ from ?_)
    rw [hheader]
    split <;> omega
  rw [hstore]
  refine r.answered_keeps ha.toHonours hasks hframe ?_
  show _ ≤ (x - (r.opt.retBuf + BitVec.ofNat 32 12)).toNat
  rw [hvalue]
  split <;> omega

/-- The record is the header of the request and the value. -/
theorem Walking.copied_record :
    (r.copied e fd flag tsp).mem.bytes r.opt.retBuf (12 + (a.get r.index).value.length) =
      r.header ++ (a.get r.index).value := by
  obtain ⟨hroom, hshort, -⟩ := hw.room ha hasks hget
  have hlength : r.header.length = 12 := rfl
  rw [Mem.bytes_add]
  congr 1
  · have hpart := Mem.bytes_store (r.answered e fd flag tsp).2.mem r.opt.retBuf [] r.header []
      (by rw [hlength]; decide)
    rw [show r.opt.retBuf + BitVec.ofNat 32 ([] : List Byte).length = r.opt.retBuf from
      BitVec.add_zero _] at hpart
    exact hpart
  · refine ext_getElem (Mem.length_bytes ..) fun j hj hj' => ?_
    have hoff : (r.opt.retBuf + 12 + BitVec.ofNat 32 j - tsp).toNat = 24 + u + 12 + j := by
      rw [hw.retBuf, show (12 : Word) = BitVec.ofNat 32 12 from rfl, add_ofNat_add, add_ofNat_add,
        sub_toNat_of_add tsp (by omega)]
      omega
    have hheader := hw.retBuf_sub hspace 0 (by omega) (by omega)
      (r.opt.retBuf + 12 + BitVec.ofNat 32 j)
    rw [BitVec.add_zero, hoff, if_pos (by omega)] at hheader
    have hkept : (r.copied e fd flag tsp).mem (r.opt.retBuf + 12 + BitVec.ofNat 32 j) =
        (r.answered e fd flag tsp).2.mem (r.opt.retBuf + 12 + BitVec.ofNat 32 j) := by
      refine Mem.store_apart _ _ ?_
      omega
    have hvalue := r.answered_value ha.toHonours hasks hj' (by omega) (by rw [hoff]; omega)
    simp only [Mem.bytes, getElem_map, getElem_range]
    exact hkept.trans hvalue

include hreach

/-- Apart from the frame and the reply only the length field of the option can change. -/
theorem Walking.next_apart (hx : Apart tsp room x) (hfield : 4 ≤ (x - (r.opt.optBuf + 8)).toNat) :
    (putUser e (r.opt.optBuf + 8) (r.got e fd flag tsp) (r.copied e fd flag tsp)).mem x =
      r.sys.mem x := by
  unfold Apart at hx
  rw [← hw.copied_keeps hspace ha hasks hget (show 24 ≤ (x - tsp).toNat by omega) (.inr (by omega))]
  unfold putUser
  split
  · exact Mem.store_apart _ _ hfield
  · rfl

include htotal hapart

/-- If the value has the length the request says, not even that. -/
theorem Walking.next_same (hk : k + 12 ≤ total) (hsame : r.got e fd flag tsp = r.lenWord)
    (hx : Apart tsp room x) :
    (putUser e (r.opt.optBuf + 8) (r.got e fd flag tsp) (r.copied e fd flag tsp)).mem x =
      r.sys.mem x := by
  have hkept : ∀ y, Apart tsp room y → (r.copied e fd flag tsp).mem y = r.sys.mem y := by
    intro y hy
    unfold Apart at hy
    exact hw.copied_keeps hspace ha hasks hget (by omega) (.inr (by omega))
  have hword : (r.copied e fd flag tsp).mem.word (r.opt.optBuf + 8) = r.got e fd flag tsp := by
    rw [hsame]
    refine Mem.word_congr fun j hj => hkept _ (hapart _ ?_)
    have hfield : (r.opt.optBuf + 8 + BitVec.ofNat 32 j - (r.opt.optBuf + 8)).toNat < 4 := by
      rw [sub_toNat_of_add _ (by omega)]
      exact hj
    have hinside := hw.field_inside htotal hk hfield
    omega
  rw [← hkept x hx]
  unfold putUser
  split
  · rw [(Mem.store_bytes_eq_self_iff ..).mpr hword]
  · rfl

/-- What is ahead of the option has not been touched. -/
theorem Walking.next_ahead {l n : Nat} (hlen : r.lenWord = BitVec.ofNat 32 l)
    (hk : k + 12 + l + n ≤ total) :
    (putUser e (r.opt.optBuf + 8) (r.got e fd flag tsp) (r.copied e fd flag tsp)).mem.bytes
        (r.next e fd flag tsp).optBuf n =
      r.sys.mem.bytes (r.opt.optBuf + BitVec.ofNat 32 (12 + l)) n := by
  have hahead : (r.next e fd flag tsp).optBuf = r.opt.optBuf + BitVec.ofNat 32 (12 + l) := by
    show r.opt.optBuf + (12 + r.lenWord) = _
    rw [hlen, BitVec.ofNat_add]
    rfl
  rw [hahead]
  refine Mem.bytes_congr fun j hj => ?_
  have hplace : (r.opt.optBuf + BitVec.ofNat 32 (12 + l) + BitVec.ofNat 32 j - optBuf).toNat =
      k + (12 + l) + j := by
    rw [hw.cursor.optBuf, add_ofNat_add, add_ofNat_add, sub_toNat_of_add _ (by omega)]
    omega
  refine hw.next_apart hspace ha hasks hget hreach (hapart _ (by omega))
    (Nat.not_lt.mp fun hfield => ?_)
  have hinside := hw.field_inside htotal (by omega) hfield
  omega

end Next

end Memory

/-! ## The whole list -/

variable {q : OptRec} {n : Nat}

/-- Memory that begins with a record. -/
theorem record_words {m : Mem} {b : Word} {rest : List Byte} (h : m.bytes b n = q.bytes ++ rest) :
    m.word b = q.level ∧ m.word (b + 4) = q.name ∧
      m.word (b + 8) = BitVec.ofNat 32 q.value.length ∧ n = 12 + q.value.length + rest.length ∧
      m.bytes (b + BitVec.ofNat 32 (12 + q.value.length)) rest.length = rest := by
  have hn : n = 12 + q.value.length + rest.length := by
    have hlen := congrArg length h
    rwa [Mem.length_bytes, length_append, q.length_bytes] at hlen
  rw [hn, Mem.bytes_add] at h
  obtain ⟨hrec, hrest⟩ := append_inj h (by rw [Mem.length_bytes, q.length_bytes])
  rw [show 12 + q.value.length = 4 + (4 + (4 + q.value.length)) by omega, Mem.bytes_add,
    Mem.bytes_add, Mem.bytes_add, ← Mem.bytes_word, ← Mem.bytes_word, ← Mem.bytes_word,
    add_ofNat_add] at hrec
  unfold OptRec.bytes at hrec
  simp only [flatMap_cons, flatMap_nil, append_nil, append_assoc] at hrec
  obtain ⟨hlevel, hrec⟩ := append_inj hrec rfl
  obtain ⟨hname, hrec⟩ := append_inj hrec rfl
  obtain ⟨hlen, -⟩ := append_inj hrec rfl
  exact ⟨Word.bytes_inj hlevel, Word.bytes_inj hname, Word.bytes_inj hlen, hn, hrest⟩

/-- What a run of the loop over the options `req`, from the `i`-th on, makes of the memory
`m`: the reply stands behind the `u` bytes that were there, and if the lengths agree
nothing has changed apart from the frame and the reply. -/
structure Replied (a : OptAnswers) (tsp : Word) (space room i u : Nat) (req : List OptRec)
    (m m' : Mem) (retLen : Word) : Prop where
  length : retLen = BitVec.ofNat 32 (u + (built a i req).length)
  fits : u + (built a i req).length ≤ space + 12
  bytes : m'.bytes (tsp + BitVec.ofNat 32 (24 + u)) (built a i req).length = built a i req
  kept : ∀ x : Word, 24 ≤ (x - tsp).toNat → (x - tsp).toNat < 24 + u → m' x = m x
  same : SameLengths a i req → ∀ x, Apart tsp room x → m' x = m x
  short : ∀ x ∈ req.zipIdx i, (a.get x.2).value.length < 2 ^ 31

section Run

variable {a : OptAnswers} {e : Env} {fd flag tsp optBuf : Word} {space room total : Nat}

/-- A round in front of a run. -/
theorem Replied.cons {i k u : Nat} {req : List OptRec} {r : Round} {m' : Mem} {retLen : Word}
    (hw : Walking tsp optBuf space total k u r.opt) (htotal : total < 2 ^ 31)
    (hspace : space + 36 ≤ 2 ^ 32)
    (hapart : ∀ x : Word, (x - optBuf).toNat < total → Apart tsp room x) (hi : r.index = i)
    (ha : a.Exact e fd flag tsp r) (hasks : r.Asks e fd flag tsp)
    (hget : (r.answered e fd flag tsp).1 = 0)
    (hreach : u + (12 + (a.get i).value.length) ≤ room) (hk : k + 12 ≤ total)
    (hheader : r.header = [q.level, q.name, BitVec.ofNat 32 q.value.length].flatMap Word.bytes)
    (hlen : r.lenWord = BitVec.ofNat 32 q.value.length)
    (h : Replied a tsp space room (i + 1) (u + (12 + (a.get i).value.length)) req
      (putUser e (r.opt.optBuf + 8) (r.got e fd flag tsp) (r.copied e fd flag tsp)).mem m' retLen) :
    Replied a tsp space room i u (q :: req) r.sys.mem m' retLen := by
  subst hi
  obtain ⟨hroom, hshort, hgot⟩ := hw.room ha hasks hget
  have hlength := length_built_cons a r.index q req
  have hfits := h.fits
  have hscratch : ∀ x : Word, 24 ≤ (x - tsp).toNat →
      (x - tsp).toNat < 24 + u + (12 + (a.get r.index).value.length) →
      m' x = (r.copied e fd flag tsp).mem x := by
    intro x hlow hhigh
    rw [h.kept x hlow (by omega)]
    refine hw.next_scratch htotal hapart hk ?_
    unfold Apart
    omega
  refine ⟨?_, by omega, ?_, ?_, ?_, ?_⟩
  · rw [h.length, hlength]
    congr 1
    omega
  · -- this record, and the ones behind it
    have hfirst : m'.bytes (tsp + BitVec.ofNat 32 (24 + u)) (12 + (a.get r.index).value.length) =
        r.header ++ (a.get r.index).value := by
      rw [← hw.copied_record hspace ha hasks hget, hw.retBuf]
      refine Mem.bytes_congr fun j hj => hscratch _ ?_ ?_
      all_goals
        rw [add_ofNat_add, sub_toNat_of_add _ (by omega)]
        omega
    have hrest := h.bytes
    rw [hlength, Mem.bytes_add, hfirst, add_ofNat_add, built_cons, hheader]
    rw [show 24 + (u + (12 + (a.get r.index).value.length)) =
      24 + u + (12 + (a.get r.index).value.length) by omega] at hrest
    rw [hrest]
  · intro x hlow hhigh
    rw [hscratch x hlow (by omega)]
    exact hw.copied_keeps hspace ha hasks hget hlow (.inl hhigh)
  · intro hsame x hx
    obtain ⟨hthis, hothers⟩ := (sameLengths_cons ..).mp hsame
    rw [h.same hothers x hx]
    refine hw.next_same htotal hspace hapart ha hasks hget hreach hk ?_ hx
    rw [hgot, hlen, hthis]
  · exact forall_mem_cons.mpr ⟨hshort, h.short⟩

/-- The run: a loop that ends without an error has answered every option. -/
theorem optLoop_builds (htotal : total < 2 ^ 31) (hspace : space + 36 ≤ 2 ^ 32)
    (hapart : ∀ x : Word, (x - optBuf).toNat < total → Apart tsp room x) (req : List OptRec) :
    ∀ {n i k u : Nat} {o : OptState} {s t : Sys} {error : Int} {retLen : Word},
      Walking tsp optBuf space total k u o → u + (built a i req).length ≤ room →
      s.mem.bytes o.optBuf (total - k) = req.flatMap OptRec.bytes →
      (∀ r ∈ optRounds e fd flag tsp n i o s, a.Exact e fd flag tsp r) →
      optLoop e fd flag tsp n i o s = .ok (.done 0 error retLen t) →
      Replied a tsp space room i u req s.mem t.mem retLen := by
  induction req with
  | nil =>
    intro n i k u o s t error retLen hw _ hreq _ hloop
    have hend : total - k = 0 := by
      have := congrArg length hreq
      rwa [Mem.length_bytes] at this
    have hshort : o.optLen.toNat < 12 := by
      rw [hw.cursor.toNat htotal]
      omega
    cases n with
    | zero => cases hloop
    | succ n =>
      rw [optLoop_succ, if_pos hshort] at hloop
      have hdone := Except.ok.inj hloop
      injection hdone with _ _ hlen hsys
      subst hlen hsys
      refine ⟨hw.retLen, hw.used, rfl, fun _ _ _ => rfl, fun _ _ _ => rfl, ?_⟩
      exact nofun
  | cons q req ih =>
    intro n i k u o s t error retLen hw hroom hreq ha hloop
    rw [length_built_cons] at hroom
    rw [flatMap_cons] at hreq
    obtain ⟨hlevel, hname, hlen, hn, hrest⟩ := record_words hreq
    have hlong : ¬ o.optLen.toNat < 12 := by
      rw [hw.cursor.toNat htotal]
      omega
    cases n with
    | zero => cases hloop
    | succ n =>
      rw [optLoop_succ, if_neg hlong] at hloop
      rw [optRounds, if_neg hlong] at ha
      obtain ⟨hfirst, hothers⟩ := forall_mem_cons.mp ha
      have hresult := Round.optRound_result e fd flag tsp ⟨i, o, s⟩
      generalize optRound e fd flag tsp i o s = x at hresult hloop hothers
      -- a round that is not the last one has not failed
      have hfails : ∀ y : OptEnd, Round.Leaves e fd flag tsp ⟨i, o, s⟩ y →
          ¬ (.ok y : Res OptEnd) = .ok (.done 0 error retLen t) := by
        intro y hy h
        obtain rfl := Except.ok.inj h
        exact hy.2 rfl
      cases hresult with
      | refused _ hx | unset _ _ hx | failed _ _ hx => exact absurd hloop (hfails _ hx)
      | next hasks hget =>
        have hheader : Round.header ⟨i, o, s⟩ =
            [q.level, q.name, BitVec.ofNat 32 q.value.length].flatMap Word.bytes := by
          rw [← hlevel, ← hname, ← hlen]
          rfl
        have hnext := hw.next htotal hfirst hasks hget.1 hlen (by omega)
        have hroom' : u + (12 + (a.get i).value.length) + (built a (i + 1) req).length ≤ room := by
          omega
        have hreach := (Nat.le_add_right ..).trans hroom'
        refine Replied.cons hw htotal hspace hapart rfl hfirst hasks hget.1 hreach
          (by omega) hheader hlen (ih hnext hroom' ?_ hothers hloop)
        rw [show total - (k + 12 + q.value.length) = (req.flatMap OptRec.bytes).length by omega]
        exact (hw.next_ahead htotal hspace hapart hfirst hasks hget.1 hreach hlen
          (by omega)).trans hrest

end Run

/-! ## The message -/

/-- A block filled from its start with as many bytes as its message has. -/
theorem payload_of_overlay {n : TPrimsg} {junk : Nat → Byte} (hbody : n.body = overlay junk 0 bs)
    (hlen : n.length.toNat = bs.length) : n.payload = bs := by
  unfold TPrimsg.payload
  rw [hbody, hlen]
  refine ext_getElem (by simp) fun i hi hi' => ?_
  rw [getElem_map, getElem_range]
  show (if 0 ≤ i then bs.getD (i - 0) (junk i) else junk i) = bs[i]
  rw [if_pos (Nat.zero_le i), Nat.sub_zero, getD_eq_getElem _ _ hi']

variable {it : TPrimsg}

theorem not_queued {q q' : List TPrimsg} (h : q' = q ++ [it]) : q' ≠ q := by
  intro hq
  have hlen := congrArg length (hq.symm.trans h)
  rw [length_append, length_singleton] at hlen
  omega

variable {flag retBase retLen esp : Word} {e : Env} {u t : Sys} {ret : Int}

/-- What `optAck` queues holds the reply. -/
theorem optAck_queues (h : (ret, t) = optAck e flag retBase retLen esp u)
    (hqueued : t.queued = u.queued ++ [it]) :
    0 ≤ retLen.toInt ∧ it.payload = [T_OPTMGMT_ACK, retLen, 16, flag].flatMap Word.bytes ++
      u.mem.bytes retBase retLen.toNat := by
  unfold optAck at h
  split at h
  · obtain ⟨-, rfl⟩ := Prod.mk.inj h
    exact absurd rfl (not_queued hqueued)
  next b k hk =>
    have hkq : k.queued = u.queued := timodMkctl_queued hk
    split at h
    · obtain ⟨-, rfl⟩ := Prod.mk.inj h
      exact absurd hkq (not_queued hqueued)
    next reply hcopy =>
      obtain ⟨hread, hreply⟩ := Option.ite_none_right_eq_some.mp hcopy
      obtain rfl := Option.some.inj hreply
      obtain ⟨-, rfl⟩ := Prod.mk.inj h
      have hit : [_] = [it] :=
        append_cancel_left ((congrArg (· ++ [_]) hkq).symm.trans hqueued)
      obtain rfl := singleton_inj.mp hit
      have hnat := Word.toNat_toInt hread.1
      refine ⟨hread.1, ?_⟩
      rw [hnat]
      refine payload_of_overlay rfl ?_
      rw [length_append, Mem.length_bytes]
      show (16 + retLen.toInt).toNat = 16 + retLen.toNat
      omega

/-- A reply that queues a `T_OPTMGMT_ACK` comes from a run without an error. -/
theorem optReply_queues {ret failed error : Int}
    (h : (ret, t) = optReply e flag retBase esp true failed error retLen u)
    (hqueued : t.queued = u.queued ++ [it]) (htype : it.type = T_OPTMGMT_ACK) :
    failed = 0 ∧ (ret, t) = optAck e flag retBase retLen esp u := by
  unfold optReply at h
  by_cases hfailed : failed ≠ 0
  · -- an error was queued, or nothing
    rw [if_pos hfailed] at h
    obtain ⟨-, rfl⟩ := Prod.mk.inj h
    obtain ⟨its, hits, htypes⟩ := queueWords_adds u.toCore e.ackAlloc T_ERROR_ACK
      [T_OPTMGMT_REQ, BitVec.ofInt 32 failed,
        BitVec.ofInt 32 (Lcall7.iABIErrors e.personality (-error))]
    obtain rfl := append_cancel_left (hqueued.symm.trans hits)
    have herror := htypes it (mem_singleton_self it)
    rw [htype] at herror
    exact nomatch herror
  · rw [if_neg hfailed] at h
    exact ⟨not_not.mp hfailed, h⟩

/-- An acknowledgement is queued by a run without an error, and holds the reply. -/
theorem queued_ack {fd flag optBuf optLen : Word} {s t : Sys}
    (hcall : timodOptmgmt e fd flag optBuf optLen true s = .ok (ret, t))
    (hqueued : t.queued = s.queued ++ [it]) (htype : it.type = T_OPTMGMT_ACK) :
    optBorrows e optBuf optLen true s ∧ ∃ error retLen,
      ∃ u : Sys, optRun e fd flag optBuf optLen s = .ok (.done 0 error retLen u) ∧
        t.mem = u.mem ∧ 0 ≤ retLen.toInt ∧
        it.payload = [T_OPTMGMT_ACK, retLen, 16, flag].flatMap Word.bytes ++
          u.mem.bytes (s.esp - retSpace optLen) retLen.toNat := by
  rcases timodOptmgmt_loop hcall with ⟨-, rfl⟩ | ⟨x, hb, hrun, hx⟩
  · exact absurd rfl (not_queued hqueued)
  refine ⟨hb, ?_⟩
  have hcore : x.sys.toCore = s.toCore :=
    optLoop_toCore (s := { s with esp := s.esp - retSpace optLen - 24 }) hrun
  cases x with
  | fault u =>
    obtain rfl := hx
    exact absurd (congrArg Core.queued hcore) (not_queued hqueued)
  | done failed error retLen u =>
    have hmem : t.mem = u.mem := (congrArg (fun p => p.2.mem) hx).trans (optReply_mem ..)
    have hu : t.queued = u.queued ++ [it] := by
      rw [hqueued, ← hcore]
      rfl
    obtain ⟨rfl, hack⟩ := optReply_queues hx hu htype
    exact ⟨error, retLen, u, hrun, hmem, optAck_queues hack hu⟩

/-- A well-formed acknowledgement of the options `req`: its header says how long the
options are, they are those of the request with the values of the answers, and the
request is as it was. -/
structure WellFormedAck (a : OptAnswers) (flag optBuf optLen : Word) (req : List OptRec)
    (s t : Sys) (it : TPrimsg) : Prop where
  header : it.payload.take 16 =
    [T_OPTMGMT_ACK, BitVec.ofNat 32 (it.payload.length - 16), 16, flag].flatMap Word.bytes
  options : parseOpts (it.payload.drop 16) = some (expected a 0 req)
  request : t.mem.bytes optBuf optLen.toNat = s.mem.bytes optBuf optLen.toNat

variable {optLen : Word}

theorem retSpace_bound (h0 : 0 ≤ optLen.toInt) : (retSpace optLen).toNat + 36 ≤ 2 ^ 32 := by
  have hlt := toNat_lt_of_toInt h0
  rw [retSpace_toNat h0]
  omega

theorem scratch_base (optLen esp : Word) :
    esp - retSpace optLen = esp - retSpace optLen - 24 + BitVec.ofNat 32 (24 + 0) := by
  bv_omega

/-- Where the loop starts. -/
theorem walking_start (optBuf optLen esp : Word) :
    Walking (esp - retSpace optLen - 24) optBuf (retSpace optLen).toNat optLen.toNat 0 0
      ⟨optBuf, optLen, esp - retSpace optLen, 0, retSpace optLen⟩ := by
  refine ⟨⟨?_, ?_, Nat.zero_le _⟩, scratch_base optLen esp, rfl, ?_, by omega⟩
  · exact (BitVec.add_zero _).symm
  · exact (BitVec.ofNat_toNat 32 optLen).symm
  · show retSpace optLen = BitVec.ofInt 32 ((retSpace optLen).toNat - 0)
    rw [Int.sub_zero, BitVec.ofInt_natCast, BitVec.ofNat_toNat, BitVec.setWidth_eq]

/-- The values of a request are no longer than the request. -/
theorem value_length_lt {req : List OptRec} (h : (req.flatMap OptRec.bytes).length < n) :
    ∀ q ∈ req, q.value.length < n := by
  induction req with
  | nil => exact nofun
  | cons q req ih =>
    rw [flatMap_cons, length_append, q.length_bytes] at h
    exact forall_mem_cons.mpr ⟨by omega, ih (by omega)⟩

/-- **A `T_OPTMGMT_ACK` is well formed** exactly if every option's value is as long as the
value the request had for it. The request lies apart from the argument frame and from the
reply that is built behind it. -/
theorem optmgmt_ack_iff (a : OptAnswers) (e : Env) (fd flag optBuf optLen : Word) (s t : Sys)
    (ret : Int) (req : List OptRec) (it : TPrimsg)
    (hcall : timodOptmgmt e fd flag optBuf optLen true s = .ok (ret, t))
    (hqueued : t.queued = s.queued ++ [it]) (htype : it.type = T_OPTMGMT_ACK)
    (h0 : 0 ≤ optLen.toInt) (hreq : s.mem.bytes optBuf optLen.toNat = req.flatMap OptRec.bytes)
    (hapart : ∀ x : Word, (x - optBuf).toNat < optLen.toNat →
      Apart (s.esp - retSpace optLen - 24) (built a 0 req).length x)
    (ha : ∀ r ∈ optmgmtRounds e fd flag optBuf optLen true s,
      a.Exact e fd flag (s.esp - retSpace optLen - 24) r) :
    WellFormedAck a flag optBuf optLen req s t it ↔ SameLengths a 0 req := by
  obtain ⟨hb, error, retLen, u, hrun, hmem, hnonneg, hpayload⟩ := queued_ack hcall hqueued htype
  have hstart := walking_start optBuf optLen s.esp
  unfold optmgmtRounds at ha
  rw [if_pos hb] at ha
  have hreplied := optLoop_builds (toNat_lt_of_toInt h0) (retSpace_bound h0) hapart req
    (s := { s with esp := s.esp - retSpace optLen - 24 }) hstart (Nat.zero_add _).le hreq ha hrun
  -- the reply is what was built
  have hfits := hreplied.fits
  have hspace := retSpace_bound h0
  have hlength : retLen.toNat = (built a 0 req).length := by
    rw [hreplied.length, BitVec.toNat_ofNat, Nat.zero_add]
    exact Nat.mod_eq_of_lt (by omega)
  have hbuilt := hreplied.bytes
  rw [← scratch_base, ← hlength] at hbuilt
  rw [hbuilt] at hpayload
  have hshort : ∀ q ∈ req, q.value.length < 2 ^ 31 := by
    refine value_length_lt ?_
    rw [← hreq, Mem.length_bytes]
    exact toNat_lt_of_toInt h0
  have hiff := built_eq_iff a hshort hreplied.short
  have hdrop : it.payload.drop 16 = built a 0 req := by
    rw [hpayload]
    exact drop_left' rfl
  constructor
  · intro h
    rw [← hiff, ← hdrop]
    exact (parseOpts_iff.mp h.options).1
  · intro hsame
    refine ⟨?_, ?_, ?_⟩
    · have hword : BitVec.ofNat 32 (it.payload.length - 16) = retLen := by
        rw [← length_drop, hdrop, ← hlength, BitVec.ofNat_toNat, BitVec.setWidth_eq]
      rw [hword, hpayload]
      exact take_left' rfl
    · refine parseOpts_iff.mpr ⟨hdrop.trans (hiff.mpr hsame), ?_⟩
      intro q hq
      obtain ⟨x, hx, rfl⟩ := mem_map.mp hq
      have := hreplied.short x hx
      dsimp only
      omega
    · rw [hmem]
      refine Mem.bytes_congr fun j hj => hreplied.same hsame _ (hapart _ ?_)
      rw [sub_toNat_of_add _ (by have := optLen.isLt; omega)]
      exact hj

/-! ## Two requests -/

/-- The same with memory for the acknowledgement. -/
def acking (a : OptAnswer) (optLen : Word) (s : Sys) : Env :=
  { answering a optLen s with ctlAlloc := some (freeBlock 1) }

theorem acking_exact {a : OptAnswer} {l optLen : Word} (hl : a.len = some l)
    (hlen : 0 ≤ l.toInt ∧ l.toInt ≤ (retSpace optLen).toInt)
    (hvalue : a.value.length ≤ (retSpace optLen).toInt.toNat) (hexact : a.value.length = l.toNat)
    (fd optBuf : Word) (s : Sys) :
    (sole a).Exact (acking a optLen s) fd 0 (s.esp - retSpace optLen - 24)
      (firstRound optBuf optLen s) where
  toHonours :=
    have h := answering_honours hl hlen hvalue fd optBuf s
    ⟨h.set, h.get, h.value⟩
  exact _ _ := by
    show a.value.length = (Round.got (answering a optLen s) fd 0 _ (firstRound ..)).toNat
    rw [answering_got hl, hexact]

/-- The answer to the option: four bytes. -/
def fourBytes : OptAnswer := ⟨⟨none, none⟩, ⟨[1, 0, 0, 0], some 4⟩⟩

/-- A request at `0x1000` is apart from a scratch area below `0x8000`. -/
theorem apart_of_low {room : Nat} (hlen : optLen.toNat ≤ 0x100)
    (hspace : (retSpace optLen).toNat ≤ 0x1000) (hroom : room ≤ 0x1000)
    (hx : (x - 0x1000).toNat < optLen.toNat) :
    Apart (0x8000 - retSpace optLen - 24) room x := by
  unfold Apart
  bv_omega

/-- An option with a value of four bytes is acknowledged with four bytes. -/
theorem four_bytes_acknowledged :
    ∃ t it, timodOptmgmt (acking fourBytes 16 (oneOption 0x8000)) 3 0 0x1000 16 true
        (oneOption 0x8000) = .ok (0, t) ∧
      t.queued = [it] ∧ it.type = T_OPTMGMT_ACK ∧
      WellFormedAck (sole fourBytes) 0 0x1000 16 [⟨0xffff, 4, [1, 0, 0, 0]⟩] (oneOption 0x8000) t
        it := by
  have hrounds : optmgmtRounds (acking fourBytes 16 (oneOption 0x8000)) 3 0 0x1000 16 true
      (oneOption 0x8000) = [firstRound 0x1000 16 (oneOption 0x8000)] :=
    optmgmtRounds_single (oneOption_borrows fourBytes).1 (show 8 ≠ 0 by decide) (by decide)
      (by decide +kernel)
  refine ⟨_, _, rfl, rfl, by decide +kernel, ?_⟩
  refine (optmgmt_ack_iff (sole fourBytes) (acking fourBytes 16 (oneOption 0x8000)) 3 0 0x1000 16
    (oneOption 0x8000) _ 0 _ _ rfl rfl (by decide +kernel) (by decide) (by decide +kernel)
    (fun x hx => apart_of_low (by decide) (by decide) (by decide) hx) ?_).mpr ?_
  · rw [hrounds, forall_mem_singleton]
    exact acking_exact rfl (by decide) (by decide) rfl 3 0x1000 (oneOption 0x8000)
  · exact forall_mem_singleton.mpr rfl

/-- An option asked for without a value: its header says that there is none. -/
def bareOption : Sys := endpoint .idle [0xffff, 4, 0]

/-- The acknowledgement keeps the length 0 of the request in front of a value of four
bytes, so it is no list of options; and the request now says 4. -/
theorem bare_option_garbled :
    (∀ r ∈ optmgmtRounds (acking fourBytes 12 bareOption) 3 0 0x1000 12 true bareOption,
      (sole fourBytes).Exact (acking fourBytes 12 bareOption) 3 0 (0x8000 - retSpace 12 - 24) r) ∧
    bareOption.mem.bytes 0x1000 12 = [⟨0xffff, 4, []⟩].flatMap OptRec.bytes ∧
    ∃ t it, timodOptmgmt (acking fourBytes 12 bareOption) 3 0 0x1000 12 true bareOption =
        .ok (0, t) ∧
      t.queued = [it] ∧ it.type = T_OPTMGMT_ACK ∧ parseOpts (it.payload.drop 16) = none ∧
      t.mem.word 0x1008 = 4 ∧
      ¬ WellFormedAck (sole fourBytes) 0 0x1000 12 [⟨0xffff, 4, []⟩] bareOption t it := by
  have hrounds : optmgmtRounds (acking fourBytes 12 bareOption) 3 0 0x1000 12 true bareOption =
      [firstRound 0x1000 12 bareOption] := by
    refine optmgmtRounds_single ⟨?_, ?_, ?_⟩ (show 8 ≠ 0 by decide) (by decide) (by decide +kernel)
    all_goals decide +kernel
  refine ⟨?_, by decide +kernel, ?_⟩
  · rw [hrounds, forall_mem_singleton]
    exact acking_exact rfl (by decide) (by decide) rfl 3 0x1000 bareOption
  · refine ⟨_, _, rfl, rfl, by decide +kernel, by decide +kernel, by decide +kernel, ?_⟩
    intro h
    exact absurd h.options (by decide +kernel)

end AbiEmu.Xti
