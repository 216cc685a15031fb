import AbiEmu.Lib.CopyOut
import AbiEmu.Lib.Layout

/-!
# File systems (`abi/svr4/open.c`)

`svr4_statfs` and `svr4_fstatfs` fill a `struct svr4_statfs` on the stack and copy it
to the caller, who says how long its buffer is. For a mounted file system the values
are the kernel's and the whole structure is copied; for any other the values are made
up, the type is not among them, and as many bytes are copied as the caller asks for.
-/

namespace AbiEmu.Report

def EBADF : Int := 9
def EFAULT : Int := 14
def EINVAL : Int := 22

/-- What the kernel says of a file system, as far as it is passed on. -/
structure Kstatfs where
  fType : Word
  fBsize : Word
  fBlocks : BitVec 64
  fBfree : BitVec 64
  fFiles : BitVec 64
  fFfree : BitVec 64

/-- `sizeof(struct svr4_statfs)`. -/
def svr4StatfsSize : Nat := 40

/-- `memset` of a field to zero. -/
def clear (off n : Nat) : Field := ⟨off, List.replicate n 0⟩

/-- The fields that `copy_kstatfs` assigns. -/
def kstatfsFields (st : Kstatfs) : List Field :=
  [⟨0, halfBytes (st.fType.setWidth 16)⟩,
   ⟨4, Word.bytes st.fBsize⟩,
   ⟨8, Word.bytes 0⟩,
   ⟨12, Word.bytes (st.fBlocks.setWidth 32)⟩,
   ⟨16, Word.bytes (st.fBfree.setWidth 32)⟩,
   ⟨20, Word.bytes (st.fFiles.setWidth 32)⟩,
   ⟨24, Word.bytes (st.fFfree.setWidth 32)⟩,
   clear 28 6,
   clear 34 6]

/-- The fields assigned for a file system that is not mounted. -/
def unmountedFields : List Field :=
  [⟨4, Word.bytes 1024⟩,
   ⟨8, Word.bytes 0⟩,
   ⟨12, Word.bytes (8 * 1024 * 1024)⟩,
   ⟨16, Word.bytes (500 * 1024)⟩,
   ⟨20, Word.bytes 60000⟩,
   ⟨24, Word.bytes 50000⟩,
   clear 28 6,
   clear 34 6]

/-- `copy_kstatfs`, with what its caller makes of a copy that fails. -/
def copyKstatfs (pg : Pages) (frame : Nat → Byte) (st : Kstatfs) (buf : Word) : Outcome :=
  copyOut pg buf (assign (kstatfsFields st) frame) svr4StatfsSize svr4StatfsSize 0 (-EFAULT)

/-- The part the two calls share: `found` is the file system or why there is none, and
`frame` what the structure held before it was filled. -/
def reportStatfs (pg : Pages) (frame : Nat → Byte) (found : Except Int Kstatfs)
    (buf len fstype : Word) : Outcome :=
  if (svr4StatfsSize : Int) < len.toInt then .returns (-EINVAL)
  else if fstype = 0 then
    match found with
    | .error e => .returns e
    | .ok st => copyKstatfs pg frame st buf
  else
    -- the length becomes the unsigned count of the copy
    copyOut pg buf (assign unmountedFields frame) svr4StatfsSize len.toNat 0 (-EFAULT)

/-- `vfs_statfs`: its error, and what it filled in. -/
def vfsStatfs (answer : Int × Kstatfs) : Except Int Kstatfs :=
  if answer.1 = 0 then .ok answer.2 else .error answer.1

/-- `svr4_statfs`: `walk` is the result of `user_path_walk`. -/
def svr4Statfs (pg : Pages) (frame : Nat → Byte) (walk : Int) (answer : Int × Kstatfs)
    (buf len fstype : Word) : Outcome :=
  reportStatfs pg frame (if walk = 0 then vfsStatfs answer else .error walk) buf len fstype

/-- `svr4_fstatfs`: `file` says whether the descriptor is open. -/
def svr4Fstatfs (pg : Pages) (frame : Nat → Byte) (file : Bool) (answer : Int × Kstatfs)
    (buf len fstype : Word) : Outcome :=
  reportStatfs pg frame (if file then vfsStatfs answer else .error (-EBADF)) buf len fstype

end AbiEmu.Report
