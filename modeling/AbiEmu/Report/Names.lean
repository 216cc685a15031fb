import AbiEmu.Report.Statfs
import AbiEmu.Lib.Strings

/-!
# Names and features of the system

`svr4_sysinfo` (`abi/svr4/sysinfo.c`) copies one of the strings that describe the
system, `wyse_gethostname` and `wyse_getdomainname` (`abi/wyse/socket.c`) and
`socksys_getipdomain` (`abi/svr4/socksys.c`) put a name byte by byte, and
`sco_sysi86` (`abi/sco/misc.c`) copies a vector of feature flags. Each is told the
length of the caller's buffer and each limits itself in its own way: by an unsigned
minimum, by counting down to zero, by counting down while positive, and by a maximum.
-/

namespace AbiEmu.Report

/-- A string of the kernel, without its terminator. -/
structure CStr where
  bytes : List Byte
  nonzero : ∀ b ∈ bytes, b ≠ 0

/-- A string literal; a string ends at its first zero. -/
def literal (s : String) : CStr where
  bytes := (ascii s).takeWhile (· ≠ 0)
  nonzero := by
    intro b hb
    have htest := List.all_eq_true.mp List.all_takeWhile b hb
    exact of_decide_eq_true htest

/-- `system_utsname`, and the version the kernel was compiled with. -/
structure Utsname where
  sysname : CStr
  nodename : CStr
  release : CStr
  machine : CStr
  domainname : CStr
  utsVersion : CStr

/-! ## `sysinfo` -/

/-- The string `svr4_sysinfo` reports. The serial number is always `0xdeadbeef`. -/
def sysinfoString (uts : Utsname) (cmd : Int) : Option CStr :=
  match cmd with
  | 1 | 108 => some uts.sysname
  | 2 | 102 => some uts.nodename
  | 4 => some (literal "2")
  | 3 => some uts.release
  | 105 | 5 => some uts.machine
  | 6 | 100 => some (literal "IA32")
  | 101 => some (literal "PCI ISA")
  | 8 | 103 => some (literal "Generic AT")
  | 104 => some uts.utsVersion
  | 10 => some (literal "/etc/inittab")
  | 7 => some (literal "deadbeef")
  | 106 => some (literal "Linux")
  | 107 => some (literal "LBT")
  | 9 => some uts.domainname
  | 109 => some (literal "500000")
  | _ => none

/-- How many bytes `svr4_sysinfo` copies. The length of a string is unsigned, and so is
the comparison. -/
def sysinfoLen (s : CStr) (count : Word) : Word :=
  if count.toNat < s.bytes.length + 1 then count else BitVec.ofNat 32 (s.bytes.length + 1)

/-- `svr4_sysinfo`. -/
def svr4Sysinfo (pg : Pages) (uts : Utsname) (cmd : Int) (buf count : Word) : Outcome :=
  match sysinfoString uts cmd with
  | none => .returns (-EINVAL)
  | some s =>
    let slen := sysinfoLen s count
    copyOut pg buf (s.bytes.getD · 0) (s.bytes.length + 1) slen.toNat slen.toInt (-EFAULT)

/-! ## Host and domain -/

/-- `verify_area` for writing: the range ends at the limit or below. Of a range without
bytes that is asked of its address. -/
def verifyArea (pg : Pages) (a : Word) (n : Nat) : Bool :=
  if n = 0 then pg.user a || pg.user (a - 1) else pg.verifyWrite a n

/-- The part `wyse_gethostname` and `wyse_getdomainname` share. The loop stops at the
length it reaches by counting down, whatever it starts from. -/
def wyseGetname (pg : Pages) (kernel : Word → Bool) (s : CStr) (name len : Word) : Outcome :=
  if ¬ verifyArea pg name len.toNat then .returns (-EFAULT)
  else putString pg kernel (· ≠ 0) s.bytes (len - 1) name

/-- `wyse_gethostname`. -/
def wyseGethostname (pg : Pages) (kernel : Word → Bool) (uts : Utsname) (name len : Word) :
    Outcome :=
  wyseGetname pg kernel uts.nodename name len

/-- `wyse_getdomainname`. -/
def wyseGetdomainname (pg : Pages) (kernel : Word → Bool) (uts : Utsname) (name len : Word) :
    Outcome :=
  wyseGetname pg kernel uts.domainname name len

/-- The domain: what follows the first dot of the node's name, or else the domain name. -/
def ipDomain (uts : Utsname) : List Byte :=
  match uts.nodename.bytes.dropWhile (· ≠ 0x2e) with
  | _ :: rest => rest
  | [] => uts.domainname.bytes

/-- How many bytes of each string `strcmp` looks at. -/
def strcmpLooks : List Byte → List Byte → Nat
  | a :: as, b :: bs => if a = b then strcmpLooks as bs + 1 else 1
  | _, _ => 1

/-- The length `socksys_getipdomain` fetches; a fault leaves zero. -/
def getipdomainLen (pg : Pages) (m : Mem) (sp : Word) : Word := pg.getUser m (sp + 4)

/-- The buffer it fetches: one byte only, with its sign. -/
def getipdomainName (m : Mem) (sp : Word) : Word := (m sp).signExtend 32

/-- What `socksys_getipdomain` puts into the buffer. -/
def putIpDomain (pg : Pages) (kernel : Word → Bool) (text : List Byte) (len name : Word) :
    Outcome :=
  if text ≠ ascii "(none)" then putString pg kernel (fun l => 0 < l.toInt) text len name
  else ⟨0, putAct pg kernel name 0, []⟩

/-- `socksys_getipdomain`. -/
def socksysGetipdomain (pg : Pages) (kernel : Word → Bool) (uts : Utsname) (m : Mem) (sp : Word) :
    Outcome :=
  if ¬ pg.canRead sp 1 then .returns (-EFAULT)
  else
    let name := getipdomainName m sp
    let len := getipdomainLen pg m sp
    if ¬ verifyArea pg name len.toNat then .returns (-EFAULT)
    else
      let scanned := (uts.nodename.bytes.takeWhile (· ≠ 0x2e)).length + 1
      let text := ipDomain uts
      let compared := strcmpLooks text (ascii "(none)")
      let put := putIpDomain pg kernel text (len - 1) name
      { put with
        reads := ⟨scanned, uts.nodename.bytes.length + 1⟩ :: ⟨compared, text.length + 1⟩ ::
          ⟨compared, (ascii "(none)").length + 1⟩ :: put.reads }

/-! ## Features -/

/-- `OSR5_FEATURES` with its terminator; `beyond` is what follows it in the kernel. -/
def osr5Features (beyond : Nat → Byte) : Nat → Byte := fun i =>
  ([1, 1, 1, 1, 1, 1, 1, 1, 2, 1, 1, 1, 0] : List Byte).getD i (beyond i)

def SI86GETFEATURES : Word := 114

/-- `sco_sysi86`; `other` is what `svr4_sysi86` makes of the other commands. -/
def scoSysi86 (pg : Pages) (beyond : Nat → Byte) (other : Outcome) (cmd arg1 arg2 : Word) :
    Outcome :=
  if cmd = SI86GETFEATURES then
    let n := max arg2.toInt 12
    copyOut pg arg1 (osr5Features beyond) 13 n.toNat n (-EFAULT)
  else other

end AbiEmu.Report
