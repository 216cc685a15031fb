import AbiEmu.Lcall7.Sysent
import AbiEmu.Util.Map

/-!
# `abi/ibcs/sysent.c`: the iBCS2/iABI4 personality

The table is the one of a build with `CONFIG_ABI_XTI`, which is the default
whenever the emulation is enabled.
-/

namespace AbiEmu.Lcall7

open Handler

/-- `ibcs_err_table`. -/
def ibcsErrTable : List Nat := [
  /-   0 -/ 0, 1, 2, 3, 4, 5, 6, 7, 8, 9,
  /-  10 -/ 10, 11, 12, 13, 14, 15, 16, 17, 18, 19,
  /-  20 -/ 20, 21, 22, 23, 24, 25, 26, 27, 28, 29,
  /-  30 -/ 30, 31, 32, 33, 34, 45, 78, 46, 89, 93,
  /-  40 -/ 90, 90, 35, 36, 37, 38, 39, 40, 41, 42,
  /-  50 -/ 43, 44, 50, 51, 52, 53, 54, 55, 56, 57,
  /-  60 -/ 60, 61, 62, 63, 64, 65, 66, 67, 68, 69,
  /-  70 -/ 70, 71, 74, 76, 77, 79, 80, 81, 82, 83,
  /-  80 -/ 84, 85, 86, 87, 88, 91, 92, 94, 95, 96,
  /-  90 -/ 97, 98, 99, 120, 121, 122, 123, 124, 125, 126,
  /- 100 -/ 127, 128, 129, 130, 131, 132, 133, 134, 143, 144,
  /- 110 -/ 145, 146, 147, 148, 149, 150, 22, 135, 137, 138,
  /- 120 -/ 139, 140, 28]

/-- `ibcs_err_map`. -/
def ibcsErrMap : List Util.MapSegment := Util.errSegments ibcsErrTable

/-- `ibcs_syscall_table`. -/
def ibcsSyscallTable : List Sysent := [
  /-   0 -/ ⟨lcall7Syscall, fast⟩, ⟨sysExit, 1⟩, ⟨abiFork, spl⟩, ⟨abiRead, 3⟩, ⟨sysWrite, 3⟩,
    ⟨svr4Open, 3⟩, ⟨sysClose, 1⟩, ⟨abiWait, spl⟩, ⟨sysCreat, 2⟩, ⟨sysLink, 2⟩,
  /-  10 -/ ⟨sysUnlink, 1⟩, ⟨abiExec, spl⟩, ⟨sysChdir, 1⟩, ⟨abiTime, 0⟩, ⟨svr4Mknod, 3⟩,
    ⟨sysChmod, 2⟩, ⟨sysChown, 3⟩, ⟨abiBrk, 1⟩, ⟨svr4Stat, 2⟩, ⟨sysLseek, 3⟩,
  /-  20 -/ ⟨abiGetpid, spl⟩, unk, ⟨sysUmount, 1⟩, ⟨sysSetuid, 1⟩, ⟨abiGetuid, spl⟩, ⟨sysStime, 1⟩,
    unk, ⟨sysAlarm, 1⟩, ⟨svr4Fstat, 2⟩, ⟨sysPause, 0⟩,
  /-  30 -/ ⟨sysUtime, 2⟩, unk, unk, ⟨sysAccess, 2⟩, ⟨sysNice, 1⟩, ⟨svr4Statfs, 4⟩, ⟨sysSync, 0⟩,
    ⟨abiKill, 2⟩, ⟨svr4Fstatfs, 4⟩, ⟨abiProcids, spl⟩,
  /-  40 -/ unk, ⟨sysDup, 1⟩, ⟨abiPipe, spl⟩, ⟨sysTimes, 1⟩, unk, unk, ⟨sysSetgid, 1⟩,
    ⟨abiGetgid, spl⟩, ⟨abiSigfunc, fast⟩, ⟨svr4Msgsys, spl⟩,
  /-  50 -/ ⟨svr4Sysi86, 3⟩, ⟨sysAcct, 1⟩, ⟨svr4Shmsys, fast⟩, ⟨svr4Semsys, spl⟩, ⟨svr4Ioctl, spl⟩,
    ⟨none, 3⟩, unk, ⟨v7Utsname, 1⟩, ⟨sysFsync, 1⟩, ⟨abiExec, spl⟩,
  /-  60 -/ ⟨sysUmask, 1⟩, ⟨sysChroot, 1⟩, ⟨svr4Fcntl, 3⟩, ⟨svr4Ulimit, 2⟩, unk, unk, unk, unk, unk,
    unk,
  /-  70 -/ unk, unk, unk, unk, unk, unk, unk, unk, unk, ⟨sysRmdir, 1⟩,
  /-  80 -/ ⟨abiMkdir, 2⟩, ⟨svr4Getdents, 3⟩, unk, unk, ⟨svr4Sysfs, 3⟩, ⟨svr4Getmsg, spl⟩,
    ⟨svr4Putmsg, spl⟩, ⟨sysPoll, 3⟩, ⟨svr4Lstat, 2⟩, ⟨sysSymlink, 2⟩,
  /-  90 -/ ⟨sysReadlink, 3⟩, ⟨sysSetgroups, 2⟩, ⟨sysGetgroups, 2⟩, ⟨sysFchmod, 2⟩, ⟨sysFchown, 3⟩,
    ⟨abiSigprocmask, 3⟩, ⟨abiSigsuspend, spl⟩, ⟨none, 2⟩, ⟨abiSigaction, 3⟩, ⟨svr4Sigpending, 2⟩,
  /- 100 -/ ⟨svr4Context, spl⟩, unk, unk, ⟨svr4Statvfs, 2⟩, ⟨svr4Fstatvfs, 2⟩, unk, unk, ⟨none, 4⟩,
    ⟨none, 3⟩, ⟨svr4Hrtsys, spl⟩,
  /- 110 -/ ⟨none, 3⟩, unk, unk, ⟨svr4Pathconf, 2⟩, ⟨none, 3⟩, ⟨svr4Mmap, 6⟩, ⟨sysMprotect, 3⟩,
    ⟨sysMunmap, 2⟩, ⟨svr4Fpathconf, 2⟩, ⟨abiFork, spl⟩,
  /- 120 -/ ⟨sysFchdir, 1⟩, ⟨sysReadv, 3⟩, ⟨sysWritev, 3⟩, ⟨svr4Xstat, 3⟩, ⟨svr4Lxstat, 3⟩,
    ⟨svr4Fxstat, 3⟩, ⟨svr4Xmknod, 4⟩, unk, ⟨svr4Getrlimit, 2⟩, ⟨svr4Setrlimit, 2⟩,
  /- 130 -/ ⟨none, 3⟩, unk, ⟨svr4Getpmsg, 5⟩, ⟨svr4Putpmsg, 5⟩, ⟨sysRename, 2⟩, ⟨abiUtsname, 1⟩,
    ⟨svr4Setegid, 1⟩, ⟨svr4Sysconfig, 1⟩, unk, ⟨svr4Sysinfo, 3⟩,
  /- 140 -/ ⟨socksysSyscall, 1⟩, ⟨svr4Seteuid, 1⟩, unk, unk, ⟨none, 2⟩, ⟨none, 4⟩, ⟨none, 3⟩,
    ⟨none, 3⟩, ⟨none, 5⟩, ⟨none, 3⟩,
  /- 150 -/ ⟨none, 3⟩, ⟨none, 3⟩, unk, ⟨none, 2⟩, ⟨none, 2⟩, unk, ⟨none, 4⟩, ⟨none, 4⟩, unk, unk,
  /- 160 -/ unk, unk, unk, ⟨none, 2⟩, unk, ⟨none, 2⟩, unk, ⟨none, 2⟩, unk, ⟨sysSetitimer, 3⟩,
  /- 170 -/ ⟨sysGetitimer, 2⟩, ⟨sysGettimeofday, 2⟩, ⟨sysSettimeofday, 2⟩, unk, unk, unk, unk, unk,
    unk, unk,
  /- 180 -/ unk, unk, unk, unk, unk, unk, unk, unk, unk, unk,
  /- 190 -/ unk, ⟨sysTruncate, 2⟩, ⟨sysFtruncate, 2⟩, unk, unk, unk, unk, unk, unk, unk,
  /- 200 -/ unk, unk, unk, unk, unk, unk, unk, unk, unk, unk,
  /- 210 -/ unk, unk, unk, unk, unk, unk]

end AbiEmu.Lcall7
