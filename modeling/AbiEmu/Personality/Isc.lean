import AbiEmu.Personality.Ibcs

/-!
# `abi/isc/sysent.c`: the Interactive Unix personality

The main table and the `sysisc` sub-table behind call 105, whose sub-call
number is the first argument word.
-/

namespace AbiEmu.Lcall7

open Handler

/-- `isc_err_table`, the same numbers as in `ibcs_err_table`. -/
def iscErrTable : List Nat := ibcsErrTable

/-- `isc_err_map`. -/
def iscErrMap : List Util.MapSegment := Util.errSegments iscErrTable

/-- `sysisc_table`. -/
def sysiscTable : List Sysent := [
  /-   0 -/ unk, ⟨iscSetostype, 1⟩, ⟨sysRename, 2⟩, ⟨abiSigaction, 3⟩, ⟨abiSigprocmask, 3⟩,
    ⟨none, 1⟩, ⟨sysGetgroups16, 2⟩, ⟨sysSetgroups16, 2⟩, unk, unk,
  /-  10 -/ ⟨ibcsSysconf, 1⟩, ⟨sysWaitpid, 3⟩, ⟨sysSetsid, 0⟩, ⟨sysSetpgid, 2⟩, unk, unk, unk,
    ⟨abiSigsuspend, spl⟩, ⟨sysSymlink, 2⟩, ⟨sysReadlink, 3⟩,
  /-  20 -/ unk]

/-- `isc_syscall_table`. -/
def iscSyscallTable : List Sysent := [
  /-   0 -/ ⟨lcall7Syscall, fast⟩, ⟨sysExit, 1⟩, ⟨abiFork, spl⟩, ⟨abiRead, 3⟩, ⟨sysWrite, 3⟩,
    ⟨svr4Open, 3⟩, ⟨sysClose, 1⟩, ⟨abiWait, spl⟩, ⟨sysCreat, 2⟩, ⟨sysLink, 2⟩,
  /-  10 -/ ⟨sysUnlink, 1⟩, ⟨abiExec, spl⟩, ⟨sysChdir, 1⟩, ⟨abiTime, 0⟩, ⟨svr4Mknod, 3⟩,
    ⟨sysChmod, 2⟩, ⟨sysChown, 3⟩, ⟨abiBrk, 1⟩, ⟨svr4Stat, 2⟩, ⟨sysLseek, 3⟩,
  /-  20 -/ ⟨abiGetpid, spl⟩, unk, ⟨sysUmount, 1⟩, ⟨sysSetuid, 1⟩, ⟨abiGetuid, spl⟩, ⟨sysStime, 1⟩,
    unk, ⟨sysAlarm, 1⟩, ⟨svr4Fstat, 2⟩, ⟨sysPause, 0⟩,
  /-  30 -/ ⟨sysUtime, 2⟩, unk, unk, ⟨sysAccess, 2⟩, ⟨sysNice, 1⟩, ⟨svr4Statfs, 4⟩, ⟨sysSync, 0⟩,
    ⟨abiKill, 2⟩, ⟨svr4Fstatfs, 4⟩, ⟨abiProcids, spl⟩,
  /-  40 -/ unk, ⟨sysDup, 1⟩, ⟨abiPipe, spl⟩, ⟨sysTimes, 1⟩, unk, unk, ⟨sysSetgid, 1⟩,
    ⟨abiGetgid, spl⟩, ⟨abiSigfunc, fast⟩, ⟨svr4Msgsys, spl⟩,
  /-  50 -/ ⟨svr4Sysi86, 3⟩, ⟨sysAcct, 1⟩, ⟨svr4Shmsys, fast⟩, ⟨svr4Semsys, spl⟩, ⟨svr4Ioctl, spl⟩,
    ⟨none, 3⟩, unk, ⟨v7Utsname, 1⟩, ⟨sysFsync, 1⟩, ⟨abiExec, spl⟩,
  /-  60 -/ ⟨sysUmask, 1⟩, ⟨sysChroot, 1⟩, ⟨svr4Fcntl, 3⟩, ⟨svr4Ulimit, 2⟩, unk, unk, unk, unk, unk,
    unk,
  /-  70 -/ unk, unk, unk, unk, unk, unk, unk, unk, unk, ⟨sysRmdir, 1⟩,
  /-  80 -/ ⟨abiMkdir, 2⟩, ⟨svr4Getdents, 3⟩, unk, unk, ⟨svr4Sysfs, 3⟩, ⟨svr4Getmsg, spl⟩,
    ⟨svr4Putmsg, spl⟩, ⟨sysPoll, 3⟩, ⟨svr4Lstat, 2⟩, ⟨sysSymlink, 2⟩,
  /-  90 -/ ⟨sysReadlink, 3⟩, ⟨sysSetgroups, 2⟩, ⟨sysGetgroups, 2⟩, ⟨sysFchmod, 2⟩, ⟨sysFchown, 3⟩,
    ⟨abiSigprocmask, 3⟩, ⟨abiSigsuspend, spl⟩, ⟨none, 2⟩, ⟨abiSigaction, 3⟩, ⟨svr4Sigpending, 2⟩,
  /- 100 -/ ⟨svr4Context, spl⟩, unk, unk, ⟨svr4Statvfs, 2⟩, ⟨svr4Fstatvfs, 2⟩, ⟨iscSysisc, fast⟩,
    unk, ⟨none, 4⟩, ⟨none, 3⟩, ⟨svr4Hrtsys, spl⟩,
  /- 110 -/ ⟨none, 3⟩, unk, unk, ⟨svr4Pathconf, 2⟩, ⟨none, 3⟩, ⟨svr4Mmap, 6⟩, ⟨sysMprotect, 3⟩,
    ⟨sysMunmap, 2⟩, ⟨svr4Fpathconf, 2⟩, ⟨abiFork, spl⟩,
  /- 120 -/ ⟨sysFchdir, 1⟩, ⟨sysReadv, 3⟩, ⟨sysWritev, 3⟩, ⟨svr4Xstat, 3⟩, ⟨svr4Lxstat, 3⟩,
    ⟨svr4Fxstat, 3⟩, ⟨svr4Xmknod, 4⟩, unk, ⟨svr4Getrlimit, 2⟩, ⟨svr4Setrlimit, 2⟩,
  /- 130 -/ ⟨none, 3⟩, unk, ⟨svr4Getpmsg, 5⟩, ⟨svr4Putpmsg, 5⟩, ⟨sysRename, 2⟩, ⟨abiUtsname, 1⟩,
    ⟨svr4Setegid, 1⟩, ⟨svr4Sysconfig, 1⟩, unk, ⟨svr4Sysinfo, 3⟩,
  /- 140 -/ ⟨socksysSyscall, 1⟩, ⟨svr4Seteuid, 1⟩, unk, unk, ⟨none, 2⟩, ⟨none, 4⟩, ⟨none, 3⟩,
    ⟨none, 3⟩, ⟨none, 5⟩, ⟨none, 3⟩,
  /- 150 -/ ⟨none, 3⟩, ⟨none, 3⟩, unk, ⟨none, 2⟩, ⟨none, 2⟩, unk, ⟨none, 4⟩, ⟨none, 4⟩, unk, unk,
  /- 160 -/ unk, unk, unk, ⟨none, 2⟩, unk, ⟨none, 2⟩, unk, ⟨none, 2⟩, unk, ⟨sysSetitimer, 3⟩,
  /- 170 -/ ⟨sysGetitimer, 2⟩, ⟨sysGettimeofday, 2⟩, ⟨sysSettimeofday, 2⟩, unk, unk, unk, unk, unk,
    unk, unk,
  /- 180 -/ unk, unk, unk, unk, unk, unk, unk, unk, unk, unk,
  /- 190 -/ unk, ⟨sysTruncate, 2⟩, ⟨sysFtruncate, 2⟩, unk, unk, unk, unk, unk, unk, unk,
  /- 200 -/ unk, unk, unk, unk, unk, unk, unk, unk, unk, unk,
  /- 210 -/ unk, unk, unk, unk, unk, unk]

end AbiEmu.Lcall7
