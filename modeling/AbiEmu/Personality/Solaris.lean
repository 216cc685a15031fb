import AbiEmu.Personality.Ibcs

/-!
# `abi/solaris/sysent.c`: the Solaris personality

The table of a build with `CONFIG_ABI_XTI`. It has 256 entries, so no masked
call number is outside it. Entries 173 and 174 carry a negative argument
count.
-/

namespace AbiEmu.Lcall7

open Handler

/-- `solaris_err_table`, the same numbers as in `ibcs_err_table`. -/
def solarisErrTable : List Nat := ibcsErrTable

/-- `solaris_err_map`. -/
def solarisErrMap : List Util.MapSegment := Util.errSegments solarisErrTable

/-- `solaris_syscall_table`. -/
def solarisSyscallTable : List Sysent := [
  /-   0 -/ ⟨lcall7Syscall, fast⟩, ⟨sysExit, 1⟩, ⟨abiFork, spl⟩, ⟨abiRead, 3⟩, ⟨sysWrite, 3⟩,
    ⟨svr4Open, 3⟩, ⟨sysClose, 1⟩, ⟨abiWait, spl⟩, ⟨sysCreat, 2⟩, ⟨sysLink, 2⟩,
  /-  10 -/ ⟨sysUnlink, 1⟩, ⟨abiExec, spl⟩, ⟨sysChdir, 1⟩, ⟨abiTime, 0⟩, ⟨svr4Mknod, 3⟩,
    ⟨sysChmod, 2⟩, ⟨sysChown, 3⟩, ⟨abiBrk, 1⟩, ⟨svr4Stat, 2⟩, ⟨sysLseek, 3⟩,
  /-  20 -/ ⟨abiGetpid, spl⟩, unk, ⟨sysUmount, 1⟩, ⟨sysSetuid, 1⟩, ⟨abiGetuid, spl⟩, ⟨sysStime, 1⟩,
    unk, ⟨sysAlarm, 1⟩, ⟨svr4Fstat, 2⟩, ⟨sysPause, 0⟩,
  /-  30 -/ ⟨sysUtime, 2⟩, unk, unk, ⟨sysAccess, 2⟩, ⟨sysNice, 1⟩, ⟨svr4Statfs, 4⟩, ⟨sysSync, 0⟩,
    ⟨abiKill, 2⟩, ⟨svr4Fstatfs, 4⟩, ⟨abiProcids, spl⟩,
  /-  40 -/ unk, ⟨sysDup, 1⟩, ⟨abiPipe, spl⟩, ⟨sysTimes, 1⟩, ⟨none, 0⟩, unk, ⟨sysSetgid, 1⟩,
    ⟨abiGetgid, spl⟩, ⟨abiSigfunc, fast⟩, ⟨svr4Msgsys, spl⟩,
  /-  50 -/ ⟨svr4Sysi86, 3⟩, ⟨sysAcct, 1⟩, ⟨svr4Shmsys, fast⟩, ⟨svr4Semsys, spl⟩, ⟨svr4Ioctl, spl⟩,
    ⟨none, 3⟩, unk, ⟨v7Utsname, 1⟩, ⟨sysFsync, 1⟩, ⟨abiExec, spl⟩,
  /-  60 -/ ⟨sysUmask, 1⟩, ⟨sysChroot, 1⟩, ⟨svr4Fcntl, 3⟩, ⟨svr4Ulimit, 2⟩, unk, unk, unk, unk, unk,
    unk,
  /-  70 -/ unk, unk, unk, unk, unk, unk, unk, unk, unk, ⟨sysRmdir, 1⟩,
  /-  80 -/ ⟨abiMkdir, 2⟩, ⟨svr4Getdents, 3⟩, unk, unk, ⟨svr4Sysfs, 3⟩, ⟨svr4Getmsg, spl⟩,
    ⟨svr4Putmsg, spl⟩, ⟨sysPoll, 3⟩, ⟨svr4Lstat, 2⟩, ⟨sysSymlink, 2⟩,
  /-  90 -/ ⟨sysReadlink, 3⟩, ⟨sysSetgroups, 2⟩, ⟨sysGetgroups, 2⟩, ⟨sysFchmod, 2⟩, ⟨sysFchown, 3⟩,
    ⟨abiSigprocmask, 3⟩, ⟨abiSigsuspend, spl⟩, ⟨none, 2⟩, ⟨abiSigaction, 3⟩, ⟨svr4Sigpending, 2⟩,
  /- 100 -/ ⟨svr4Context, spl⟩, unk, unk, ⟨svr4Statvfs, 2⟩, ⟨svr4Fstatvfs, 2⟩, unk, unk, ⟨none, 4⟩,
    ⟨none, 3⟩, ⟨svr4Hrtsys, spl⟩,
  /- 110 -/ ⟨none, 3⟩, unk, unk, ⟨svr4Pathconf, 2⟩, ⟨none, 3⟩, ⟨svr4Mmap, 6⟩, ⟨sysMprotect, 3⟩,
    ⟨sysMunmap, 2⟩, ⟨svr4Fpathconf, 2⟩, ⟨abiFork, spl⟩,
  /- 120 -/ ⟨sysFchdir, 1⟩, ⟨sysReadv, 3⟩, ⟨sysWritev, 3⟩, ⟨svr4Xstat, 3⟩, ⟨svr4Lxstat, 3⟩,
    ⟨svr4Fxstat, 3⟩, ⟨svr4Xmknod, 4⟩, ⟨none, spl⟩, ⟨svr4Getrlimit, 2⟩, ⟨svr4Setrlimit, 2⟩,
  /- 130 -/ ⟨none, 3⟩, unk, ⟨svr4Getpmsg, 5⟩, ⟨svr4Putpmsg, 5⟩, ⟨sysRename, 2⟩, ⟨abiUtsname, 1⟩,
    ⟨svr4Setegid, 1⟩, ⟨svr4Sysconfig, 1⟩, unk, ⟨svr4Sysinfo, 3⟩,
  /- 140 -/ ⟨socksysSyscall, 1⟩, ⟨svr4Seteuid, 1⟩, unk, unk, unk, unk, unk, unk, unk, unk,
  /- 150 -/ unk, unk, unk, unk, unk, unk, ⟨sysGettimeofday, 2⟩, ⟨sysGetitimer, 2⟩,
    ⟨sysSetitimer, 3⟩, unk,
  /- 160 -/ unk, unk, unk, unk, unk, unk, unk, unk, unk, unk,
  /- 170 -/ unk, unk, unk, ⟨sysPread64, -4⟩, ⟨sysPwrite64, -4⟩, ⟨solLlseek, spl⟩, unk, unk, unk,
    unk,
  /- 180 -/ unk, unk, unk, unk, unk, ⟨solAcl, 4⟩, unk, unk, unk, unk,
  /- 190 -/ unk, unk, unk, unk, unk, unk, unk, unk, unk, ⟨sysNanosleep, 2⟩,
  /- 200 -/ unk, unk, ⟨sysSetreuid, 2⟩, ⟨sysSetregid, 2⟩, unk, unk, unk, unk, unk, unk,
  /- 210 -/ unk, unk, unk, ⟨solGetdents64, 3⟩, ⟨solMmap64, 7⟩, ⟨solStat64, 2⟩, ⟨solLstat64, 2⟩,
    ⟨solFstat64, 2⟩, unk, unk,
  /- 220 -/ unk, unk, unk, unk, unk, ⟨solOpen64, 3⟩, unk, unk, unk, unk,
  /- 230 -/ ⟨solarisSocket, 3⟩, ⟨solarisSocketpair, 1⟩, ⟨solarisBind, 3⟩, ⟨solarisListen, 2⟩,
    ⟨solarisAccept, 3⟩, ⟨solarisConnect, 3⟩, ⟨solarisShutdown, 2⟩, ⟨solarisRecv, 4⟩,
    ⟨solarisRecvfrom, 6⟩, ⟨solarisRecvmsg, 3⟩,
  /- 240 -/ ⟨solarisSend, 4⟩, ⟨solarisSendmsg, 3⟩, ⟨solarisSendto, 6⟩, ⟨solarisGetpeername, 3⟩,
    ⟨solarisGetsockname, 3⟩, ⟨solarisGetsockopt, 5⟩, ⟨solarisSetsockopt, 5⟩, unk, unk, unk,
  /- 250 -/ unk, unk, unk, unk, unk, unk]

end AbiEmu.Lcall7
