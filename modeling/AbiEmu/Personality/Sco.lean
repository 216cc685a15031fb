import AbiEmu.Lcall7.Sysent
import AbiEmu.Util.Map

/-!
# `abi/sco/sysent.c`: the OpenServer and Xenix personalities

Both execution domains share the handler `sco_lcall7`, the error map and the
system call table; they differ in their signal maps only.
-/

namespace AbiEmu.Lcall7

open Handler

/-- `sco_err_table`. -/
def scoErrTable : List Nat := [
  /-   0 -/ 0, 1, 2, 3, 4, 5, 6, 7, 8, 9,
  /-  10 -/ 10, 11, 12, 13, 14, 15, 16, 17, 18, 19,
  /-  20 -/ 20, 21, 22, 23, 24, 25, 26, 27, 28, 29,
  /-  30 -/ 30, 31, 32, 33, 34, 45, 78, 46, 89, 145,
  /-  40 -/ 150, 90, 35, 36, 37, 38, 39, 40, 41, 42,
  /-  50 -/ 43, 44, 50, 51, 52, 53, 54, 55, 56, 57,
  /-  60 -/ 60, 61, 62, 63, 64, 65, 66, 67, 68, 69,
  /-  70 -/ 70, 71, 74, 76, 77, 79, 80, 81, 82, 83,
  /-  80 -/ 84, 85, 86, 87, 88, 152, 153, 22, 93, 94,
  /-  90 -/ 95, 96, 118, 97, 98, 99, 100, 101, 102, 103,
  /- 100 -/ 104, 105, 106, 107, 108, 63, 110, 111, 112, 113,
  /- 110 -/ 114, 115, 116, 117, 92, 91, 151, 135, 137, 138,
  /- 120 -/ 139, 140, 28]

/-- `sco_err_map`. -/
def scoErrMap : List Util.MapSegment := Util.errSegments scoErrTable

/-- `sco_syscall_table`. -/
def scoSyscallTable : List Sysent := [
  /-   0 -/ ⟨lcall7Syscall, fast⟩, ⟨sysExit, 1⟩, ⟨abiFork, spl⟩, ⟨abiRead, 3⟩, ⟨sysWrite, 3⟩,
    ⟨svr4Open, 3⟩, ⟨sysClose, 1⟩, ⟨abiWait, spl⟩, ⟨sysCreat, 2⟩, ⟨sysLink, 2⟩,
  /-  10 -/ ⟨sysUnlink, 1⟩, ⟨abiExec, spl⟩, ⟨sysChdir, 1⟩, ⟨abiTime, 0⟩, ⟨svr4Mknod, 3⟩,
    ⟨sysChmod, 2⟩, ⟨sysChown, 3⟩, ⟨abiBrk, 1⟩, ⟨svr4Stat, 2⟩, ⟨scoLseek, 3⟩,
  /-  20 -/ ⟨abiGetpid, spl⟩, unk, ⟨sysUmount, 1⟩, ⟨sysSetuid, 1⟩, ⟨abiGetuid, spl⟩, ⟨sysStime, 1⟩,
    ⟨scoPtrace, 4⟩, ⟨sysAlarm, 1⟩, ⟨svr4Fstat, 2⟩, ⟨sysPause, 0⟩,
  /-  30 -/ ⟨sysUtime, 2⟩, unk, unk, ⟨sysAccess, 2⟩, ⟨sysNice, 1⟩, ⟨svr4Statfs, 4⟩, ⟨sysSync, 0⟩,
    ⟨abiKill, 2⟩, ⟨svr4Fstatfs, 4⟩, ⟨abiProcids, spl⟩,
  /-  40 -/ ⟨cxenix, fast⟩, ⟨sysDup, 1⟩, ⟨abiPipe, spl⟩, ⟨sysTimes, 1⟩, unk, unk, ⟨sysSetgid, 1⟩,
    ⟨abiGetgid, spl⟩, ⟨abiSigfunc, fast⟩, ⟨svr4Msgsys, spl⟩,
  /-  50 -/ ⟨scoSysi86, 3⟩, ⟨sysAcct, 1⟩, ⟨svr4Shmsys, fast⟩, ⟨svr4Semsys, spl⟩, ⟨scoIoctl, spl⟩,
    ⟨none, 3⟩, unk, ⟨v7Utsname, 1⟩, ⟨sysFsync, 1⟩, ⟨abiExec, spl⟩,
  /-  60 -/ ⟨sysUmask, 1⟩, ⟨sysChroot, 1⟩, ⟨scoFcntl, 3⟩, ⟨svr4Ulimit, 2⟩, unk, unk, unk, unk, unk,
    unk,
  /-  70 -/ unk, unk, unk, unk, unk, unk, unk, unk, unk, ⟨sysRmdir, 1⟩,
  /-  80 -/ ⟨abiMkdir, 2⟩, ⟨svr4Getdents, 3⟩, unk, unk, ⟨svr4Sysfs, 3⟩, ⟨svr4Getmsg, spl⟩,
    ⟨svr4Putmsg, spl⟩, ⟨sysPoll, 3⟩, unk, ⟨swSecurity, 6⟩,
  /-  90 -/ ⟨sysSymlink, 2⟩, ⟨svr4Lstat, 2⟩, ⟨sysReadlink, 3⟩, unk, unk, ⟨abiSigprocmask, 3⟩,
    ⟨abiSigsuspend, spl⟩, ⟨none, 2⟩, ⟨abiSigaction, 3⟩, ⟨svr4Sigpending, 2⟩,
  /- 100 -/ ⟨svr4Context, spl⟩, unk, unk, ⟨scoStatvfs, 2⟩, ⟨scoFstatvfs, 2⟩, unk, unk, ⟨none, 4⟩,
    ⟨none, 3⟩, ⟨svr4Hrtsys, spl⟩,
  /- 110 -/ ⟨none, 3⟩, unk, unk, ⟨svr4Pathconf, 2⟩, ⟨sysMincore, 3⟩, ⟨scoMmap, 6⟩, ⟨sysMprotect, 3⟩,
    ⟨sysMunmap, 2⟩, ⟨svr4Fpathconf, 2⟩, ⟨abiFork, spl⟩,
  /- 120 -/ ⟨sysFchdir, 1⟩, ⟨sysReadv, 3⟩, ⟨sysWritev, 3⟩, ⟨scoXstat, 3⟩, ⟨scoLxstat, 3⟩,
    ⟨scoFxstat, 3⟩, ⟨svr4Xmknod, 4⟩, unk, ⟨svr4Getrlimit, 2⟩, ⟨svr4Setrlimit, 2⟩,
  /- 130 -/ unk, unk, unk, unk, unk, unk, unk, unk, unk, unk,
  /- 140 -/ ⟨socksysSyscall, 1⟩, unk, unk, unk, ⟨none, 2⟩, ⟨none, 4⟩, ⟨none, 3⟩, unk, unk, unk,
  /- 150 -/ unk, unk, unk, unk, unk, unk, unk, unk, unk, unk,
  /- 160 -/ unk, unk, unk, unk, unk, unk, unk, unk, unk, unk,
  /- 170 -/ unk, ⟨sysGettimeofday, 2⟩, ⟨sysSettimeofday, 2⟩]

end AbiEmu.Lcall7
