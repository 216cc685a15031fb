import AbiEmu.Xti.Makings

/-!
# How a message node is filled

A node has room for as many bytes as its function asked for, and that number comes from
the user: the length of the request, of a peer's address, of the options. `Making.Sound`
is the promise for one node: every store stays in the block, and the bytes that are
filled are as many as the recorded length says.

`sound_iff_fits` finds the lengths for which that holds. An echoed request of less than
four bytes has its type written behind the block, a connect request of negative length
already its length; the two messages with a header of their own write it before anyone
looks at the length of the rest. The lemma speaks about the recipes that can come up at
all, and `made_possible` is why every operation makes only those.
-/

namespace AbiEmu.Xti

/-! ## Stores -/

/-- All stores stay in the block, and the bytes of a finished node that are filled are
the first `length` ones. -/
structure Making.Sound (m : Making) : Prop where
  inside : ∀ w ∈ m.recipe.stores, w.span.Within ⟨0, m.size⟩
  exact : m.recipe.linked = true →
    ∀ i : Nat, (∃ w ∈ m.recipe.stores, 12 + i ∈ w.span) ↔ (i : Int) < m.node.length

/-- The lengths that are good enough. -/
def Recipe.Fits : Recipe → Prop
  | .ack _ => True
  | .discon _ => True
  | .bindAck ctlLen req => req.isSome = true → 4 ≤ ctlLen
  | .connCon ctlLen req => 0 ≤ ctlLen ∧ (req.isSome = true → 4 ≤ ctlLen)
  | .connInd alen _ _ => alen.toNat + 36 < 2 ^ 32
  | .optAck _ retLen _ => 0 ≤ retLen.toInt

/-- A C `int`. -/
def IsInt (n : Int) : Prop := -2 ^ 31 ≤ n ∧ n < 2 ^ 31

/-- What holds of a recipe whatever the user does: what was copied is as long as was
asked for. -/
def Recipe.Possible : Recipe → Prop
  | .ack words => words.length ≤ 4
  | .discon words => words.length ≤ 4
  | .bindAck ctlLen req => IsInt ctlLen ∧ ∀ bs ∈ req, (bs.length : Int) = ctlLen
  | .connCon ctlLen req => IsInt ctlLen ∧ ∀ bs ∈ req, (bs.length : Int) = ctlLen
  | .connInd alen _ addr => ∀ bs ∈ addr, (bs.length : Int) = alen.toInt
  | .optAck _ retLen reply => ∀ bs ∈ reply, (bs.length : Int) = retLen.toInt

/-- And the block is one that `kmalloc` grants. -/
def Making.Possible (m : Making) : Prop :=
  (12 + m.recipe.len) % 2 ^ 32 ≤ kmallocMax ∧ m.recipe.Possible

section Sound

variable {b : Block} {w : NodeStore} {size i : Nat}

/-- The store ends inside a block of `size` bytes. -/
def NodeStore.Ends (size : Nat) : NodeStore → Prop
  | next => 4 ≤ size
  | pri _ => 5 ≤ size
  | length _ => 12 ≤ size
  | data off bytes => bytes.length = 0 ∨ 12 + off + bytes.length ≤ size

/-- The store fills the byte `i` of the message. -/
def NodeStore.Fills (i : Nat) : NodeStore → Prop
  | data off bytes => off ≤ i ∧ i < off + bytes.length
  | _ => False

theorem storeEnds_iff : w.Ends size ↔ w.span.Within ⟨0, size⟩ := by
  cases w <;> simp only [NodeStore.Ends, NodeStore.span, Span.Within] <;> omega

theorem fills_iff : w.Fills i ↔ 12 + i ∈ w.span := by
  cases w <;> simp only [NodeStore.Fills, NodeStore.span, Span.mem_iff, false_iff] <;> omega

variable {m : Making}

/-- The promise as a statement about numbers, store by store. -/
theorem sound_iff : m.Sound ↔ m.recipe.stores.Forall (NodeStore.Ends m.size) ∧
    (m.recipe.linked = true → ∀ i : Nat,
      m.recipe.stores.foldr (fun w q => w.Fills i ∨ q) False ↔ (i : Int) < m.node.length) := by
  have hfills : ∀ (ws : List NodeStore) (i : Nat),
      ws.foldr (fun w q => w.Fills i ∨ q) False ↔ ∃ w ∈ ws, 12 + i ∈ w.span := by
    intro ws i
    induction ws with
    | nil => simp
    | cons w ws ih => rw [List.foldr_cons, ih, fills_iff, List.exists_mem_cons_iff]
  simp only [List.forall_iff_forall_mem, storeEnds_iff, hfills]
  exact ⟨fun h => ⟨h.inside, h.exact⟩, fun h => ⟨h.1, h.2⟩⟩

/-- A node is sound exactly if its lengths are good enough. -/
theorem sound_iff_fits (h : m.Possible) : m.Sound ↔ m.recipe.Fits := by
  obtain ⟨b, r⟩ := m
  obtain ⟨hgrant, hr⟩ := h
  rw [sound_iff, Making.size, Making.node]
  rcases r with words | words | ⟨ctlLen, _ | req⟩ | ⟨ctlLen, _ | req⟩ | ⟨alen, conn, _ | addr⟩ |
    ⟨flag, retLen, _ | reply⟩
  all_goals
    simp only [kmallocMax, Recipe.Possible, IsInt, Recipe.len, Option.mem_def, Option.some.injEq,
      forall_eq', reduceCtorEq, false_imp_iff, implies_true, and_true] at hgrant hr
    simp [Recipe.len, Recipe.stores, Recipe.linked, Recipe.Fits, NodeStore.apply, NodeStore.Ends,
      NodeStore.Fills]
  iterate 2 exact ⟨by omega, fun i => by omega⟩
  · exact ⟨fun hs => by omega, fun hfit => ⟨by omega, fun i => by omega⟩⟩
  · omega
  · exact ⟨fun hs => by omega, fun hfit => ⟨by omega, fun i => by omega⟩⟩
  · omega
  · -- a length that was copied is not negative
    rw [BitVec.toInt_eq_toNat_cond] at hr
    rw [BitVec.toInt_eq_toNat_cond]
    exact ⟨fun hs => by omega, fun hfit => ⟨by omega, fun i => by omega⟩⟩
  · have hlow : -2 ^ 31 ≤ retLen.toInt := BitVec.le_toInt retLen
    have hhigh : retLen.toInt < 2 ^ 31 := BitVec.toInt_lt
    omega
  · have hhigh : retLen.toInt < 2 ^ 31 := BitVec.toInt_lt
    exact ⟨fun hs => by omega, fun hfit => ⟨by omega, fun i => by omega⟩⟩

end Sound

/-! ## What the logs can hold -/

/-- Every node of the log is a possible one. -/
def AllPossible (ms : List Making) : Prop := ∀ m ∈ ms, m.Possible

namespace AllPossible

@[simp] theorem nil : AllPossible [] := nofun

theorem singleton (h : m.Possible) : AllPossible [m] :=
  List.forall_mem_singleton.mpr h

theorem append {ms ms' : List Making} (h : AllPossible ms) (h' : AllPossible ms') :
    AllPossible (ms ++ ms') :=
  List.forall_mem_append.mpr ⟨h, h'⟩

end AllPossible

section Possible

variable {e : Env} {c : PutArgs} {s : Sys} {k k' : Core} {alloc : Option Block}

/-- `kmalloc` grants a block only up to its limit. -/
theorem timodMkctl_size {len : Int} {x : Block × Core} (h : k.timodMkctl alloc len = some x) :
    (12 + len) % 2 ^ 32 ≤ kmallocMax := by
  unfold Core.timodMkctl at h
  cases alloc with
  | none => exact nomatch h
  | some b =>
    dsimp only at h
    split at h
    next hgrant => exact hgrant.1
    · exact nomatch h

/-- What is copied is as long as was asked for. -/
theorem copyFromUser_length {a : Word} {n : Int} :
    ∀ bs ∈ copyFromUser e s a n, (bs.length : Int) = n := by
  intro bs hbs
  unfold copyFromUser at hbs
  split at hbs
  next hn =>
    obtain rfl := Option.some.inj hbs
    rw [Mem.length_bytes]
    omega
  · exact nomatch hbs

theorem madeWords_possible {words : List Word} (h : words.length ≤ 4) :
    AllPossible (k.madeWords alloc words) := by
  unfold Core.madeWords
  split
  · exact .nil
  next b _ hb => exact .singleton ⟨timodMkctl_size hb, h⟩

@[simp] theorem okMade_possible (prim : Word) : AllPossible (okMade e prim k) :=
  madeWords_possible (by simp)

@[simp] theorem errorMade_possible (prim : Word) (terr uerr : Int) :
    AllPossible (errorMade e prim terr uerr k) :=
  madeWords_possible (by simp)

section

variable (hint : IsInt c.ctlLen)

include hint

theorem bindReplyMade_possible (error : Int) : AllPossible (bindReplyMade e c error s) := by
  unfold bindReplyMade
  split
  · exact errorMade_possible _ _ _
  · split
    · exact errorMade_possible _ _ _
    next b k hb =>
      split
      · exact .singleton ⟨timodMkctl_size hb, hint, nofun⟩
      next req hcopy =>
        refine .append (okMade_possible _) (.singleton ?_)
        exact ⟨timodMkctl_size hb, hint, hcopy ▸ copyFromUser_length⟩

theorem connReplyMade_possible (error : Int) : AllPossible (connReplyMade e c error s) := by
  unfold connReplyMade
  split
  · split
    · exact .nil
    next b k hb =>
      split
      · exact .singleton ⟨timodMkctl_size hb, hint, nofun⟩
      next req hcopy =>
        refine .append (okMade_possible _) (.singleton ?_)
        exact ⟨timodMkctl_size hb, hint, hcopy ▸ copyFromUser_length⟩
  · split
    · exact .nil
    next b k hb =>
      refine .append (okMade_possible _) (.singleton ?_)
      exact ⟨timodMkctl_size hb, by simp [Recipe.Possible]⟩

theorem bindMade_possible : AllPossible (bindMade e c s) := by
  unfold bindMade
  dsimp only
  split_ifs <;> simp [bindReplyMade_possible hint]

theorem connMade_possible : AllPossible (connMade e c s) := by
  unfold connMade
  dsimp only
  split_ifs <;> simp [connReplyMade_possible hint]

end

theorem connResMade_possible : AllPossible (connResMade e c s) := by
  unfold connResMade
  split
  · exact .nil
  · split_ifs <;> simp

theorem unitdataMade_possible : AllPossible (unitdataMade e c s) := by
  unfold unitdataMade
  split_ifs <;> simp

theorem optAckMade_possible (flag retBase retLen : Word) :
    AllPossible (optAckMade e flag retBase retLen s) := by
  unfold optAckMade
  split
  · exact .nil
  next b _ hb =>
    exact .singleton ⟨timodMkctl_size hb, copyFromUser_length⟩

theorem optmgmtMade_possible (fd flag optBuf optLen : Word) (doRet : Bool) :
    AllPossible (optmgmtMade e fd flag optBuf optLen doRet s) := by
  unfold optmgmtMade
  split
  · split
    · split_ifs <;> simp [optAckMade_possible]
    · exact .nil
  · exact .nil

theorem putMade_possible (hint : IsInt c.ctlLen) : AllPossible (putMade e c s) := by
  unfold putMade
  split
  · exact .nil
  · unfold optmgmtReqMade
    dsimp only
    split_ifs <;> simp [bindMade_possible hint, connResMade_possible, connMade_possible hint,
      unitdataMade_possible, optmgmtMade_possible]

theorem updateMade_possible (fd : Word) : AllPossible (updateMade e fd s) := by
  unfold updateMade
  split
  · split
    · exact .nil
    next b _ hb =>
      exact .singleton ⟨timodMkctl_size hb, copyFromUser_length⟩
  · exact .nil

/-- The length of the request is a number of type `int`. -/
def FileOp.IntLength (op : FileOp) : Prop := ∀ x ∈ op.request, IsInt x.2.ctlLen

theorem made_possible {op : FileOp} (hint : op.IntLength) (f : File) : AllPossible (op.made f) := by
  refine .append ?_ fun m hm => ?_
  · cases hreq : op.request with
    | none => exact .nil
    | some x => exact putMade_possible (hint x hreq)
  · obtain ⟨l, -, hm⟩ := List.mem_flatMap.mp hm
    exact updateMade_possible l.fd m hm

end Possible

end AbiEmu.Xti
