import AbiEmu.Binfmt.Coff
import AbiEmu.Lib.Strings
import Mathlib.Data.List.Infix

/-!
# Comment sections (`coff_parse_comments`)

The COFF loader looks for a hint at the system a program was compiled on in the
program's comment sections. `coff_parse_comments` reads such a section into one page,
page after page, and tests each string it finds against a table of clues. A clue
changes the personality, and a *terminal* clue ends the search.

Two things about the loop over a page shape what follows. It keeps a pointer `p` and a
counter `count`. Behind every string it completes, the body advances both and the loop
header advances `count` once more, so that after `k` strings `count` is `p + k`. What is
read next starts at `start`, which is taken from `count`. And the last byte of the page is
set to zero only while a string is tested, so that the tests end inside the page, while the
search for the end of the string looks at the byte before it looks at the counter.

The page is given by its bytes, those behind it included (`Page`). Every round of the
loop records where its string begins and which bytes it looks at, and every read
records what it stored, so that statements about them are about lists. The loops run
on fuel; how much is enough is proved in `AbiEmu.Binfmt.CommentScan`.
-/

namespace AbiEmu.Binfmt.Comments

open Coff (Scnhdr)

/-! ## The clues -/

/-- `PER_SCOSVR3`, with sticky timeouts, whole seconds and short inode numbers. -/
def perScosvr3 : Word := 0x07000003
/-- `PER_WYSEV386`, with sticky timeouts and short inode numbers. -/
def perWysev386 : Word := 0x05000004
/-- `PER_ISCR4`, with sticky timeouts. -/
def perIscr4 : Word := 0x04000005
/-- `PERF_SHORT_INODE`. -/
def perfShortInode : Word := 0x01000000

/-- `coff_clue`. -/
structure Clue where
  terminal : Bool
  len : Int
  text : List Byte
  maskAnd : Word
  maskOr : Word

/-- `coff_clues`, without the entry of length zero that ends the table. -/
def coffClues : List Clue :=
  [⟨true, 36, ascii "@(#) UNIX System V/386 Release 3.2.1", 0, perWysev386⟩,
   ⟨true, 23, ascii "@(#) crt1.s 1.8 89/05/30", 0, perScosvr3⟩,
   ⟨true, 16, ascii "@(#)SCO UNIX 3.2", 0, perScosvr3⟩,
   ⟨true, 18, ascii "\"@(#) SCO UNIX 3.2", 0, perScosvr3⟩,
   ⟨true, 17, ascii "@(#) SCO UNIX 3.2", 0, perScosvr3⟩,
   ⟨true, 11, ascii "@(#)SCO 3.2", 0, perScosvr3⟩,
   ⟨false, 32, ascii "@(#) crt1.s.source 20.1 94/12/04", 0, perScosvr3⟩,
   ⟨true, 13, ascii "ods_30_compat", 0xffffffff, perfShortInode⟩,
   ⟨true, -1, ascii "INTERACTIVE", 0, perIscr4⟩]

/-- `strstr` for a negative length, `strncmp` for a positive one. -/
def Clue.Matches (c : Clue) (s : List Byte) : Prop :=
  (c.len < 0 ∧ c.text <:+: s) ∨ (0 < c.len ∧ s.take c.len.toNat = c.text.take c.len.toNat)
  deriving Decidable

/-- The personality once the clue has matched. -/
def Clue.apply (c : Clue) (personality : Word) : Word := personality &&& c.maskAnd ||| c.maskOr

/-- How many bytes of `s` and its terminator `strncmp` looks at: it stops at the first
difference, behind the terminator, or at the limit. -/
def strncmpReads : Nat → List Byte → List Byte → Nat
  | 0, _, _ => 0
  | _ + 1, [], _ => 1
  | n + 1, b :: s, text => if text.head? = some b then strncmpReads n s text.tail + 1 else 1

/-- How many bytes of `s` and its terminator a clue looks at; `strstr` takes the length
of the string first. -/
def Clue.reads (c : Clue) (s : List Byte) : Nat :=
  if c.len < 0 then s.length + 1 else strncmpReads c.len.toNat s c.text

/-- What becomes of one string. -/
structure Tested where
  /-- A terminal clue matched. -/
  found : Bool
  hits : Nat
  personality : Word
  /-- How many bytes were looked at, from the start of the string on. -/
  reads : Nat

/-- The loop over the table. -/
def tryClues (s : List Byte) : List Clue → Nat → Word → Tested
  | [], hits, personality => ⟨false, hits, personality, 0⟩
  | c :: cs, hits, personality =>
    let rest :=
      if c.Matches s then
        if c.terminal then ⟨true, hits, c.apply personality, 0⟩
        else tryClues s cs (hits + 1) (c.apply personality)
      else tryClues s cs hits personality
    { rest with reads := max (c.reads s) rest.reads }

/-! ## One page -/

/-- The bytes of the page and of what lies behind it, from the start of the page. -/
abbrev Page := Nat → Byte

/-- A read stores its bytes at the start of the page. -/
def fill (page : Page) (bs : List Byte) : Page := fun i => bs.getD i (page i)

/-- The bytes from `p` on, up to the first zero among the next `n`. -/
def stringFrom (page : Page) : Nat → Nat → List Byte
  | 0, _ => []
  | n + 1, p => if page p = 0 then [] else page p :: stringFrom page n (p + 1)

/-- The string at `p` while the last byte of the page is zero. -/
def stringAt (page : Page) (p : Nat) : List Byte := stringFrom page (4095 - p) p

/-- The test of the string at `p`. -/
def test (page : Page) (p hits : Nat) (personality : Word) : Tested :=
  tryClues (stringAt page p) coffClues hits personality

/-- How often `while (*p && count < err)` goes round, with `n` left to count. -/
def skip (page : Page) : Nat → Nat → Nat
  | 0, _ => 0
  | n + 1, p => if page p = 0 then 0 else skip page n (p + 1) + 1

/-- A byte that is looked at. -/
structure Look where
  index : Nat
  /-- The terminator is in place at the end of the page. -/
  terminated : Bool

/-- The byte is one of the `err` bytes just read, or the terminator. -/
def Look.Known (err : Nat) (l : Look) : Prop :=
  l.index < err ∨ l.terminated = true ∧ l.index = 4095
  deriving Decidable

/-- The `n` bytes from `p` on. -/
def looks (terminated : Bool) (p n : Nat) : List Look :=
  (List.range n).map fun i => ⟨p + i, terminated⟩

/-- One round of the loop over a page. -/
structure Round where
  /-- Where the string begins that is tested. -/
  p : Nat
  looks : List Look

/-- What the loop over a page leaves. -/
structure Scanned where
  found : Bool
  start : Nat
  hits : Nat
  personality : Word
  rounds : List Round

namespace Scanned

/-- A round before the rest of the loop. -/
def cons (round : Round) (s : Scanned) : Scanned := { s with rounds := round :: s.rounds }

/-- How far the section is advanced: a page without the end of a string is skipped. -/
def advance (s : Scanned) (err : Nat) : Nat := if s.start = 0 then err else s.start

end Scanned

/-- The loop over a page of which the last read stored `err` bytes. -/
def scanPage (page : Page) (err : Nat) : Nat → Nat → Nat → Nat → Nat → Word → Option Scanned
  | 0, _, _, _, _, _ => none
  | fuel + 1, p, count, start, hits, personality =>
    if err ≤ count then some ⟨false, start, hits, personality, []⟩
    else
      let t := test page p hits personality
      if t.found then some ⟨true, start, t.hits, t.personality, [⟨p, looks true p t.reads⟩]⟩
      else
        let k := skip page (err - count) p
        -- the byte is looked at once more than the pointer is advanced
        let round : Round := ⟨p, looks true p t.reads ++ looks false p (k + 1)⟩
        -- in both cases the loop header counts one more
        if count + k < err then
          (scanPage page err fuel (p + k + 1) (count + k + 2) (count + k + 1)
            t.hits t.personality).map (·.cons round)
        else
          (scanPage page err fuel (p + k) (count + k + 1) start
            t.hits t.personality).map (·.cons round)

/-! ## The section -/

/-- The answers of `kernel_read`: a negative result, or the bytes stored, at most as many
as asked for. The answer may change from read to read. -/
structure Reader where
  read : (i : Nat) → (offset : Word) → (count : Nat) → Except Int (List Byte)
  length_le : ∀ i offset count bs, read i offset count = .ok bs → bs.length ≤ count

/-- One page of the section. -/
structure Pass where
  /-- `nbytes` before the read. -/
  nbytes : Word
  bytes : List Byte
  found : Bool
  /-- What is taken off `nbytes` unless the search is over. -/
  start : Nat
  rounds : List Round

/-- A page that was read and looked through. -/
def Pass.of (nbytes : Word) (bytes : List Byte) (s : Scanned) : Pass :=
  ⟨nbytes, bytes, s.found, s.advance bytes.length, s.rounds⟩

/-- What the function leaves. -/
structure Outcome where
  ret : Nat
  personality : Word
  /-- The clues that matched without ending the search. -/
  hits : Nat
  passes : List Pass

/-- A pass before the rest. -/
def Outcome.cons (pass : Pass) (o : Outcome) : Outcome := { o with passes := pass :: o.passes }

/-- The loop over the section. The page keeps what earlier reads stored in it. -/
def parseFrom (r : Reader) : Nat → Nat → Page → Word → Word → Nat → Word → Option Outcome
  | 0, _, _, _, _, _, _ => none
  | fuel + 1, i, page, offset, nbytes, hits, personality =>
    if nbytes = 0 then some ⟨hits, personality, hits, []⟩
    else
      match r.read i offset (min 4096 nbytes.toNat) with
      | .error _ | .ok [] => some ⟨0, personality, hits, []⟩
      | .ok bs =>
        (scanPage (fill page bs) bs.length (bs.length + 1) 0 0 0 hits personality).bind fun s =>
          if s.found then some ⟨1, s.personality, s.hits, [.of nbytes bs s]⟩
          else
            let start := BitVec.ofNat 32 (s.advance bs.length)
            (parseFrom r fuel (i + 1) (fill page bs) (offset + start) (nbytes - start)
              s.hits s.personality).map (·.cons (.of nbytes bs s))

/-- How much of the section is looked at: its size, as an unsigned number, up to 8192. -/
def limit (sect : Scnhdr) : Word := if 8192 < sect.sSize.toNat then 8192 else sect.sSize

/-- `coff_parse_comments`, with fuel; `page` is the page it gets, if it gets one. -/
def coffParseComments (r : Reader) (page : Option Page) (sect : Scnhdr) (personality : Word)
    (fuel : Nat) : Option Outcome :=
  match page with
  | none => some ⟨0, personality, 0, []⟩
  | some page => parseFrom r fuel 0 page sect.sScnptr (limit sect) 0 personality

end AbiEmu.Binfmt.Comments
