import AbiEmu.Lib.Word

/-!
# `abi/util/map.h`: number maps

A personality translates error numbers (and socket types, options, families)
through a list of segments. `mapValue` is the search: the first segment whose
range holds the value decides, a one-element segment maps to the value stored
in its `map` pointer, a longer one to the entry of its vector or, without a
vector, to the value itself. A missing map is the identity, and a value in no
segment becomes the caller's default.

The C list ends with a sentinel whose `start` is `-1`; here the list simply
ends. A segment that itself starts at `-1` would end the search, so `mapValue`
stops there too.
-/

namespace AbiEmu.Util

/-- What the `map` pointer of a segment holds. -/
inductive SegMap where
  | null
  /-- The pointer itself is the mapped value (one-element segments). -/
  | value (v : Int)
  /-- A vector of `u_char`. -/
  | table (t : List Nat)
  deriving DecidableEq, Repr

/-- `struct map_segment`. -/
structure MapSegment where
  start : Int
  stop : Int
  map : SegMap
  deriving DecidableEq, Repr

/-- `(int)seg->map`: the pointer of a one-element segment read as a number.
The address of a vector is not known to the model; no segment of the source
has one element and a vector. -/
def SegMap.asInt : SegMap → Int
  | .null => 0
  | .value v => v
  | .table _ => 0

/-- `seg->map ? seg->map[val-seg->start] : val`. -/
def SegMap.pick (m : SegMap) (val start : Int) : Int :=
  match m with
  | .null => val
  | .value v => v
  | .table t => (t.getD (val - start).toNat 0 : Nat)

/-- The segment search of `map_value`. -/
def searchSegments (val dflt : Int) : List MapSegment → Int
  | [] => dflt
  | seg :: rest =>
    if seg.start = -1 then dflt
    else if seg.start ≤ val ∧ val ≤ seg.stop then
      if seg.start = seg.stop then seg.map.asInt else seg.map.pick val seg.start
    else searchSegments val dflt rest

/-- `map_value`: `none` is a personality without a map. -/
def mapValue (m : Option (List MapSegment)) (val dflt : Int) : Int :=
  match m with
  | none => val
  | some segs => searchSegments val dflt segs

/-- The error map every personality builds from its own table `t`: the table
from 0 on, and Linux's three `RESTART` codes (512 to 514) as `EINTR`. -/
def errSegments (t : List Nat) : List MapSegment :=
  [⟨0, t.length - 1, .table t⟩, ⟨512, 514, .table [4, 4, 4]⟩]

/-- A value outside every segment is the default. -/
theorem searchSegments_outside {val dflt : Int} : ∀ {segs : List MapSegment},
    (∀ seg ∈ segs, ¬ (seg.start ≤ val ∧ val ≤ seg.stop)) → searchSegments val dflt segs = dflt
  | [], _ => rfl
  | seg :: rest, h => by
    unfold searchSegments
    split
    · rfl
    · rw [if_neg (h seg (List.mem_cons_self ..))]
      exact searchSegments_outside fun s hs => h s (List.mem_cons_of_mem _ hs)

/-- No personality maps a negative number, so asking for one gives the default. -/
theorem mapValue_errSegments_neg (t : List Nat) {val : Int} (dflt : Int) (h : val < 0) :
    mapValue (some (errSegments t)) val dflt = dflt := by
  refine searchSegments_outside ?_
  intro seg hseg
  simp only [errSegments, List.mem_cons, List.not_mem_nil, or_false] at hseg
  rcases hseg with rfl | rfl
  all_goals simp only; omega

end AbiEmu.Util
