import AbiEmu.Personality.Ibcs

/-!
# `abi/uw7/sysent.c`: the UnixWare 7 personality

The table of a build with `CONFIG_ABI_XTI`. The source numbers some rows
wrongly in its comments; the position in the list is what counts.
-/

namespace AbiEmu.Lcall7

open Handler

/-- `uw7_err_table`, the same numbers as in `ibcs_err_table`. -/
def uw7ErrTable : List Nat := ibcsErrTable

/-- `uw7_err_map`. -/
def uw7ErrMap : List Util.MapSegment := Util.errSegments uw7ErrTable

/-- `uw7_syscall_table`. -/
def uw7SyscallTable : List Sysent := [
  /-   0 -/ ⟨lcall7Syscall, fast⟩, ⟨sysExit, 1⟩, ⟨abiFork, spl⟩, ⟨abiRead, 3⟩, ⟨sysWrite, 3⟩,
    ⟨svr4Open, 3⟩, ⟨sysClose, 1⟩, ⟨abiWait, spl⟩, ⟨sysCreat, 2⟩, ⟨sysLink, 2⟩,
  /-  10 -/ ⟨sysUnlink, 1⟩, ⟨abiExec, spl⟩, ⟨sysChdir, 1⟩, ⟨abiTime, 0⟩, ⟨svr4Mknod, 3⟩,
    ⟨sysChmod, 2⟩, ⟨sysChown, 3⟩, ⟨abiBrk, 1⟩, ⟨svr4Stat, 2⟩, ⟨sysLseek, 3⟩,
  /-  20 -/ ⟨abiGetpid, spl⟩, unk, ⟨sysUmount, 1⟩, ⟨sysSetuid, 1⟩, ⟨abiGetuid, spl⟩, ⟨sysStime, 1⟩,
    ⟨none, 4⟩, ⟨sysAlarm, 1⟩, ⟨svr4Fstat, 2⟩, ⟨sysPause, 0⟩,
  /-  30 -/ ⟨sysUtime, 2⟩, ⟨uw7Stty, 2⟩, ⟨uw7Gtty, 2⟩, ⟨uw7Access, 2⟩, ⟨sysNice, 1⟩,
    ⟨svr4Statfs, 4⟩, ⟨sysSync, 0⟩, ⟨abiKill, 2⟩, ⟨svr4Fstatfs, 4⟩, ⟨abiProcids, spl⟩,
  /-  40 -/ unk, ⟨sysDup, 1⟩, ⟨abiPipe, spl⟩, ⟨sysTimes, 1⟩, ⟨none, 4⟩, unk, ⟨sysSetgid, 1⟩,
    ⟨abiGetgid, spl⟩, ⟨abiSigfunc, fast⟩, ⟨svr4Msgsys, spl⟩,
  /-  50 -/ ⟨svr4Sysi86, 3⟩, ⟨sysAcct, 1⟩, ⟨svr4Shmsys, fast⟩, ⟨svr4Semsys, spl⟩, ⟨uw7Ioctl, spl⟩,
    ⟨none, 3⟩, unk, ⟨v7Utsname, 1⟩, ⟨sysFsync, 1⟩, ⟨abiExec, spl⟩,
  /-  60 -/ ⟨sysUmask, 1⟩, ⟨sysChroot, 1⟩, ⟨svr4Fcntl, 3⟩, ⟨svr4Ulimit, 2⟩, unk, unk, unk, unk, unk,
    unk,
  /-  70 -/ unk, unk, unk, unk, unk, unk, unk, unk, unk, ⟨sysRmdir, 1⟩,
  /-  80 -/ ⟨sysMkdir, 2⟩, ⟨svr4Getdents, 3⟩, unk, unk, ⟨svr4Sysfs, 3⟩, ⟨svr4Getmsg, spl⟩,
    ⟨svr4Putmsg, spl⟩, ⟨sysPoll, 3⟩, ⟨svr4Lstat, 2⟩, ⟨sysSymlink, 2⟩,
  /-  90 -/ ⟨sysReadlink, 3⟩, ⟨sysSetgroups, 2⟩, ⟨sysGetgroups, 2⟩, ⟨sysFchmod, 2⟩, ⟨sysFchown, 3⟩,
    ⟨abiSigprocmask, 3⟩, ⟨abiSigsuspend, spl⟩, ⟨uw7Sigaltstack, 2⟩, ⟨abiSigaction, 3⟩,
    ⟨svr4Sigpending, 2⟩,
  /- 100 -/ ⟨uw7Context, spl⟩, unk, unk, ⟨svr4Statvfs, 2⟩, ⟨svr4Fstatvfs, 2⟩, unk, unk,
    ⟨svr4Waitid, 4⟩, ⟨none, 3⟩, ⟨svr4Hrtsys, spl⟩,
  /- 110 -/ ⟨none, 3⟩, unk, unk, ⟨svr4Pathconf, 2⟩, ⟨none, 3⟩, ⟨svr4Mmap, 6⟩, ⟨sysMprotect, 3⟩,
    ⟨sysMunmap, 2⟩, ⟨svr4Fpathconf, 2⟩, ⟨abiFork, spl⟩,
  /- 120 -/ ⟨sysFchdir, 1⟩, ⟨sysReadv, 3⟩, ⟨sysWritev, 3⟩, ⟨uw7Xstat, 3⟩, ⟨uw7Lxstat, 3⟩,
    ⟨uw7Fxstat, 3⟩, ⟨svr4Xmknod, 4⟩, ⟨none, spl⟩, ⟨svr4Getrlimit, 2⟩, ⟨svr4Setrlimit, 2⟩,
  /- 130 -/ ⟨sysLchown, 3⟩, unk, ⟨svr4Getpmsg, 5⟩, ⟨svr4Putpmsg, 5⟩, ⟨sysRename, 2⟩,
    ⟨abiUtsname, 1⟩, ⟨uw7Setegid, 1⟩, ⟨svr4Sysconfig, 1⟩, unk, ⟨svr4Sysinfo, 3⟩,
  /- 140 -/ ⟨socksysSyscall, 1⟩, ⟨uw7Seteuid, 1⟩, unk, unk, ⟨none, 2⟩, ⟨none, 4⟩, ⟨none, 3⟩,
    ⟨none, 3⟩, ⟨none, 5⟩, ⟨none, 3⟩,
  /- 150 -/ ⟨none, 3⟩, ⟨none, 3⟩, unk, ⟨none, 2⟩, ⟨none, 2⟩, unk, ⟨none, 4⟩, ⟨none, 4⟩, unk, unk,
  /- 160 -/ unk, unk, unk, ⟨none, 2⟩, unk, ⟨none, 2⟩, ⟨uw7Mldmode, 1⟩, ⟨none, 2⟩, unk,
    ⟨sysSetitimer, 3⟩,
  /- 170 -/ ⟨sysGetitimer, 2⟩, ⟨sysGettimeofday, 2⟩, ⟨sysSettimeofday, 2⟩, unk, unk, unk, unk, unk,
    unk, unk,
  /- 180 -/ unk, unk, unk, unk, unk, unk, unk, unk, unk, ⟨uw7Pread, 4⟩,
  /- 190 -/ ⟨uw7Pwrite, 4⟩, ⟨sysTruncate, 2⟩, ⟨sysFtruncate, 2⟩, unk, unk, ⟨abiFork, spl⟩,
    ⟨abiFork, spl⟩, unk, unk, unk,
  /- 200 -/ unk, unk, unk, unk, unk, unk, ⟨uw7Sleep, 1⟩, unk, unk, unk,
  /- 210 -/ unk, unk, unk, unk, unk, unk, ⟨uw7Fstatvfs64, 2⟩, ⟨uw7Statvfs64, 2⟩,
    ⟨uw7Ftruncate64, 3⟩, ⟨uw7Truncate64, 3⟩,
  /- 220 -/ ⟨uw7Getrlimit64, 2⟩, ⟨uw7Setrlimit64, 2⟩, ⟨uw7Lseek64, 4⟩, ⟨uw7Mmap64, 7⟩,
    ⟨uw7Pread64, 5⟩, ⟨uw7Pwrite64, 5⟩, ⟨uw7Creat64, 2⟩, unk, unk, unk,
  /- 230 -/ unk, unk, unk, unk, unk, unk, unk, unk, unk, unk,
  /- 240 -/ unk, unk, unk, unk, unk, unk, unk, unk, unk, unk,
  /- 250 -/ unk]

end AbiEmu.Lcall7
