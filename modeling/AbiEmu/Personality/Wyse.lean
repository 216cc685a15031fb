import AbiEmu.Lcall7.Sysent
import AbiEmu.Util.Map

/-!
# `abi/wyse/sysent.c`: the Wyse V/386 personality

The main table and the two class tables for NFS and TCP calls, which are
selected by the upper bits of the call number.
-/

namespace AbiEmu.Lcall7

open Handler

/-- `wyse_err_table`. -/
def wyseErrTable : List Nat := [
  /-   0 -/ 0, 1, 2, 3, 4, 5, 6, 7, 8, 9,
  /-  10 -/ 10, 11, 12, 13, 14, 15, 16, 17, 18, 19,
  /-  20 -/ 20, 21, 22, 23, 24, 25, 26, 27, 28, 29,
  /-  30 -/ 30, 31, 32, 33, 34, 45, 78, 46, 228, 46,
  /-  40 -/ 22, 231, 227, 200, 37, 38, 39, 40, 41, 42,
  /-  50 -/ 43, 44, 50, 51, 52, 53, 54, 55, 56, 57,
  /-  60 -/ 60, 61, 62, 63, 64, 65, 66, 67, 68, 69,
  /-  70 -/ 70, 71, 74, 76, 77, 22, 80, 81, 82, 83,
  /-  80 -/ 84, 85, 86, 87, 22, 4, 22, 233, 203, 204,
  /-  90 -/ 205, 206, 207, 208, 209, 210, 211, 212, 213, 214,
  /- 100 -/ 215, 216, 217, 218, 219, 220, 221, 222, 223, 224,
  /- 110 -/ 225, 226, 229, 230, 202, 201, 237, 135, 137, 138,
  /- 120 -/ 139, 140, 234]

/-- `wyse_err_map`. -/
def wyseErrMap : List Util.MapSegment := Util.errSegments wyseErrTable

/-- `wyse_nfscall_table`. -/
def wyseNfscallTable : List Sysent := [
  /-   0 -/ unk, unk, unk, unk]

/-- `wyse_tcpcall_table`. -/
def wyseTcpcallTable : List Sysent := [
  /-   0 -/ ⟨sysSelect, 5⟩, ⟨wyseSocket, 3⟩, ⟨sysConnect, 3⟩, ⟨sysAccept, 3⟩, ⟨wyseSend, 4⟩,
    ⟨wyseRecv, 4⟩, ⟨sysBind, 3⟩, ⟨wyseSetsockopt, 5⟩, ⟨sysListen, 2⟩, ⟨none, 3⟩,
  /-  10 -/ ⟨none, 3⟩, ⟨wyseGetsockopt, 5⟩, ⟨wyseRecvfrom, 6⟩, ⟨wyseSendto, 6⟩, ⟨sysShutdown, 2⟩,
    ⟨sysSocketpair, 4⟩, unk, ⟨sysGetpeername, 3⟩, ⟨sysGetsockname, spl⟩, ⟨wyseWait3, 1⟩]

/-- `wyse_syscall_table`. -/
def wyseSyscallTable : List Sysent := [
  /-   0 -/ ⟨lcall7Syscall, fast⟩, ⟨sysExit, 1⟩, ⟨abiFork, spl⟩, ⟨abiRead, 3⟩, ⟨sysWrite, 3⟩,
    ⟨svr4Open, 3⟩, ⟨sysClose, 1⟩, ⟨abiWait, spl⟩, ⟨sysCreat, 2⟩, ⟨sysLink, 2⟩,
  /-  10 -/ ⟨sysUnlink, 1⟩, ⟨abiExec, spl⟩, ⟨sysChdir, 1⟩, ⟨abiTime, 0⟩, ⟨svr4Mknod, 3⟩,
    ⟨sysChmod, 2⟩, ⟨sysChown, 3⟩, ⟨abiBrk, 1⟩, ⟨svr4Stat, 2⟩, ⟨sysLseek, 3⟩,
  /-  20 -/ ⟨abiGetpid, spl⟩, unk, ⟨sysUmount, 1⟩, ⟨sysSetuid, 1⟩, ⟨abiGetuid, spl⟩, ⟨sysStime, 1⟩,
    ⟨wysePtrace, 4⟩, ⟨sysAlarm, 1⟩, ⟨svr4Fstat, 2⟩, ⟨sysPause, 0⟩,
  /-  30 -/ ⟨sysUtime, 2⟩, unk, unk, ⟨sysAccess, 2⟩, ⟨sysNice, 1⟩, ⟨svr4Statfs, 4⟩, ⟨sysSync, 0⟩,
    ⟨abiKill, 2⟩, ⟨svr4Fstatfs, 4⟩, ⟨abiProcids, spl⟩,
  /-  40 -/ unk, ⟨sysDup, 1⟩, ⟨abiPipe, spl⟩, ⟨sysTimes, 1⟩, ⟨none, 4⟩, unk, ⟨sysSetgid, 1⟩,
    ⟨abiGetgid, spl⟩, ⟨abiSigfunc, fast⟩, ⟨svr4Msgsys, spl⟩,
  /-  50 -/ ⟨svr4Sysi86, 3⟩, ⟨sysAcct, 1⟩, ⟨svr4Shmsys, fast⟩, ⟨svr4Semsys, spl⟩, ⟨svr4Ioctl, spl⟩,
    ⟨none, 3⟩, unk, ⟨v7Utsname, 1⟩, ⟨sysFsync, 1⟩, ⟨abiExec, spl⟩,
  /-  60 -/ ⟨sysUmask, 1⟩, ⟨sysChroot, 1⟩, ⟨svr4Fcntl, 3⟩, ⟨svr4Ulimit, 2⟩, unk, unk, unk, unk, unk,
    unk,
  /-  70 -/ unk, unk, unk, unk, unk, unk, unk, unk, unk, ⟨sysRmdir, 1⟩,
  /-  80 -/ ⟨abiMkdir, 2⟩, ⟨svr4Getdents, 3⟩, unk, unk, ⟨svr4Sysfs, 3⟩, ⟨svr4Getmsg, spl⟩,
    ⟨svr4Putmsg, spl⟩, ⟨sysPoll, 3⟩, unk, unk,
  /-  90 -/ unk, unk, unk, unk, unk, unk, unk, unk, unk, unk,
  /- 100 -/ unk, unk, unk, unk, unk, unk, unk, unk, unk, unk,
  /- 110 -/ unk, unk, unk, unk, unk, unk, unk, unk, unk, unk,
  /- 120 -/ unk, unk, unk, unk, unk, unk, unk, unk, ⟨svr4Lstat, 2⟩, ⟨sysReadlink, 3⟩,
  /- 130 -/ ⟨sysSymlink, 2⟩, ⟨wyseClassTcp, fast⟩, ⟨wyseClassNfs, fast⟩, ⟨wyseGethostname, 2⟩,
    ⟨sysSethostname, 2⟩, ⟨wyseGetdomainname, 2⟩, ⟨sysSetdomainname, 2⟩, unk, ⟨sysSetreuid, 2⟩,
    ⟨sysSetregid, 2⟩]

end AbiEmu.Lcall7
