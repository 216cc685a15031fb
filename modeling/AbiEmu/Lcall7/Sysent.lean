import AbiEmu.Lib.Word

/-!
# System call handlers and table entries (`include/abi/util/sysent.h`)

A personality's system call table pairs a handler with a calling convention:
a number of words to fetch from the user stack, or one of the codes `Spl` and
`Fast` that pass the saved register frame down instead. `Handler.decl` records
the handler's C prototype, with which it should agree.

`Decl.frame ks` is a handler declared to take a `struct pt_regs *`; `ks` are
the numbers of the parameters it (or a function it hands the frame to) can fetch
from the stack by itself. Which of them a call fetches is the handler's affair:
`abi_wait` looks at the flags for that, `abi_procids` at its first parameter, and
both at the personality. `Decl.counted n`
is a handler declared with `n` one-word parameters. The native kernel calls
are declared outside this source tree; their entries follow the kernel's
`linux/syscalls.h`, where `sys_umount` takes a name and a flag word and the
two positional file calls end in a two-word offset.

The name and argument texts of an entry are read by the tracing code only and
are left out.
-/

namespace AbiEmu.Lcall7

/-- The functions that appear in a system call table. -/
inductive Handler where
  | sysAccept | sysAccess | sysAcct | sysAlarm | sysBind | sysChdir | sysChmod | sysChown
  | sysChroot | sysClose | sysConnect | sysCreat | sysDup | sysExit | sysFchdir | sysFchmod
  | sysFchown | sysFsync | sysFtruncate | sysGetgroups | sysGetgroups16 | sysGetitimer
  | sysGetpeername | sysGetsockname | sysGettimeofday | sysLchown | sysLink | sysListen
  | sysLseek | sysMincore | sysMkdir | sysMprotect | sysMunmap | sysNanosleep | sysNice
  | sysPause | sysPoll | sysPread64 | sysPwrite64 | sysReadlink | sysReadv | sysRename
  | sysRmdir | sysSelect | sysSetdomainname | sysSetgid | sysSetgroups | sysSetgroups16
  | sysSethostname | sysSetitimer | sysSetpgid | sysSetregid | sysSetreuid | sysSetsid
  | sysSettimeofday | sysSetuid | sysShutdown | sysSocketpair | sysStime | sysSymlink | sysSync
  | sysTimes | sysTruncate | sysUmask | sysUmount | sysUnlink | sysUtime | sysWaitpid | sysWrite
  | sysWritev
  | abiBrk | abiExec | abiFork | abiGetgid | abiGetpid | abiGetuid | abiKill | abiMkdir
  | abiPipe | abiProcids | abiRead | abiSigaction | abiSigfunc | abiSigprocmask | abiSigsuspend
  | abiTime | abiUtsname | abiWait | cxenix | ibcsSysconf | iscSetostype | iscSysisc
  | lcall7Syscall | scoFcntl | scoFstatvfs | scoFxstat | scoIoctl | scoLseek | scoLxstat
  | scoMmap | scoPtrace | scoStatvfs | scoSysi86 | scoXstat | socksysSyscall | solAcl
  | solFstat64 | solGetdents64 | solLlseek | solLstat64 | solMmap64 | solOpen64 | solStat64
  | solarisAccept | solarisBind | solarisConnect | solarisGetpeername | solarisGetsockname
  | solarisGetsockopt | solarisListen | solarisRecv | solarisRecvfrom | solarisRecvmsg
  | solarisSend | solarisSendmsg | solarisSendto | solarisSetsockopt | solarisShutdown
  | solarisSocket | solarisSocketpair | svr4Context | svr4Fcntl | svr4Fpathconf | svr4Fstat
  | svr4Fstatfs | svr4Fstatvfs | svr4Fxstat | svr4Getdents | svr4Getmsg | svr4Getpmsg
  | svr4Getrlimit | svr4Hrtsys | svr4Ioctl | svr4Lstat | svr4Lxstat | svr4Mknod | svr4Mmap
  | svr4Msgsys | svr4Open | svr4Pathconf | svr4Putmsg | svr4Putpmsg | svr4Semsys | svr4Setegid
  | svr4Seteuid | svr4Setrlimit | svr4Shmsys | svr4Sigpending | svr4Stat | svr4Statfs
  | svr4Statvfs | svr4Sysconfig | svr4Sysfs | svr4Sysi86 | svr4Sysinfo | svr4Ulimit | svr4Waitid
  | svr4Xmknod | svr4Xstat | swSecurity | uw7Access | uw7Context | uw7Creat64 | uw7Fstatvfs64
  | uw7Ftruncate64 | uw7Fxstat | uw7Getrlimit64 | uw7Gtty | uw7Ioctl | uw7Lseek64 | uw7Lxstat
  | uw7Mldmode | uw7Mmap64 | uw7Pread | uw7Pread64 | uw7Pwrite | uw7Pwrite64 | uw7Setegid
  | uw7Seteuid | uw7Setrlimit64 | uw7Sigaltstack | uw7Sleep | uw7Statvfs64 | uw7Stty
  | uw7Truncate64 | uw7Xstat | v7Utsname | wyseClassNfs | wyseClassTcp | wyseGetdomainname
  | wyseGethostname | wyseGetsockopt | wysePtrace | wyseRecv | wyseRecvfrom | wyseSend
  | wyseSendto | wyseSetsockopt | wyseSocket | wyseWait3 | xnxCreatsem | xnxEaccess | xnxExecseg
  | xnxFpathconf | xnxFtime | xnxLocking | xnxNap | xnxNbwaitsem | xnxOpensem | xnxPaccess
  | xnxPathconf | xnxProctl | xnxRdchk | xnxSdenter | xnxSdfree | xnxSdget | xnxSdgetv
  | xnxSdleave | xnxSdwaitv | xnxSigaction | xnxSigpending | xnxSigsem | xnxUnexecseg
  | xnxUtsname | xnxWaitsem
  deriving DecidableEq, Repr

/-- How a handler is declared. -/
inductive Decl where
  /-- `n` parameters of one word each. -/
  | counted (n : Nat)
  /-- A `struct pt_regs *`; `ks` are the parameters that can be fetched through it. -/
  | frame (ks : List Nat)
  deriving DecidableEq, Repr

/-- The C prototype of each handler. -/
def Handler.decl : Handler → Decl
  | abiFork | abiGetgid | abiGetpid | abiGetuid | abiPipe | cxenix | wyseClassNfs
  | wyseClassTcp => .frame []
  | abiSigsuspend | iscSysisc | lcall7Syscall => .frame [0]
  | abiSigfunc | svr4Context | uw7Context => .frame [0, 1]
  | abiExec | abiProcids | abiWait | scoIoctl | svr4Ioctl | uw7Ioctl => .frame [0, 1, 2]
  | solLlseek | svr4Getmsg | svr4Putmsg | svr4Shmsys => .frame [0, 1, 2, 3]
  | svr4Getpmsg | svr4Hrtsys | svr4Putpmsg | svr4Semsys => .frame [0, 1, 2, 3, 4]
  | svr4Msgsys => .frame [0, 1, 2, 3, 4, 5]
  | sysPause | sysSetsid | sysSync | abiTime => .counted 0
  | sysAcct | sysAlarm | sysChdir | sysChroot | sysClose | sysDup | sysExit | sysFchdir
  | sysFsync | sysNice | sysRmdir | sysSetgid | sysSetuid | sysStime | sysTimes
  | sysUmask | sysUnlink | abiBrk | abiUtsname | ibcsSysconf | iscSetostype
  | socksysSyscall | solarisSocketpair | svr4Setegid | svr4Seteuid | svr4Sysconfig
  | uw7Mldmode | uw7Setegid | uw7Seteuid | uw7Sleep | v7Utsname | wyseWait3 | xnxFtime
  | xnxNap | xnxNbwaitsem | xnxOpensem | xnxRdchk | xnxSdfree | xnxSdgetv | xnxSdleave
  | xnxSigpending | xnxSigsem | xnxUnexecseg | xnxUtsname | xnxWaitsem => .counted 1
  | sysAccess | sysChmod | sysCreat | sysFchmod | sysFtruncate | sysGetgroups
  | sysGetgroups16 | sysGetitimer | sysGettimeofday | sysLink | sysListen | sysMkdir
  | sysMunmap | sysNanosleep | sysRename | sysSetdomainname | sysSetgroups
  | sysSetgroups16 | sysSethostname | sysSetpgid | sysSetregid | sysSetreuid
  | sysSettimeofday | sysShutdown | sysSymlink | sysTruncate | sysUmount | sysUtime
  | abiKill | abiMkdir | scoFstatvfs | scoStatvfs | solFstat64 | solLstat64 | solStat64
  | solarisListen | solarisShutdown | svr4Fpathconf | svr4Fstat | svr4Fstatvfs
  | svr4Getrlimit | svr4Lstat | svr4Pathconf | svr4Setrlimit | svr4Sigpending | svr4Stat
  | svr4Statvfs | svr4Ulimit | uw7Access | uw7Creat64 | uw7Fstatvfs64 | uw7Getrlimit64
  | uw7Gtty | uw7Setrlimit64 | uw7Sigaltstack | uw7Statvfs64 | uw7Stty | wyseGetdomainname
  | wyseGethostname | xnxCreatsem | xnxEaccess | xnxExecseg | xnxFpathconf | xnxPathconf
  | xnxSdenter | xnxSdwaitv => .counted 2
  | sysAccept | sysBind | sysChown | sysConnect | sysFchown | sysGetpeername
  | sysGetsockname | sysLchown | sysLseek | sysMincore | sysMprotect | sysPoll
  | sysReadlink | sysReadv | sysSetitimer | sysWaitpid | sysWrite | sysWritev | abiRead
  | abiSigaction | abiSigprocmask | scoFcntl | scoFxstat | scoLseek | scoLxstat
  | scoSysi86 | scoXstat | solGetdents64 | solOpen64 | solarisAccept | solarisBind
  | solarisConnect | solarisGetpeername | solarisGetsockname | solarisRecvmsg
  | solarisSendmsg | solarisSocket | svr4Fcntl | svr4Fxstat | svr4Getdents | svr4Lxstat
  | svr4Mknod | svr4Open | svr4Sysfs | svr4Sysi86 | svr4Sysinfo | svr4Xstat
  | uw7Ftruncate64 | uw7Fxstat | uw7Lxstat | uw7Truncate64 | uw7Xstat | wyseSocket
  | xnxLocking | xnxProctl | xnxSigaction => .counted 3
  | sysSocketpair | scoPtrace | solAcl | solarisRecv | solarisSend | svr4Fstatfs
  | svr4Statfs | svr4Waitid | svr4Xmknod | uw7Lseek64 | uw7Pread | uw7Pwrite | wysePtrace
  | wyseRecv | wyseSend | xnxSdget => .counted 4
  | sysPread64 | sysPwrite64 | sysSelect | solarisGetsockopt | solarisSetsockopt
  | uw7Pread64 | uw7Pwrite64 | wyseGetsockopt | wyseSetsockopt | xnxPaccess => .counted 5
  | scoMmap | solarisRecvfrom | solarisSendto | svr4Mmap | swSecurity | wyseRecvfrom
  | wyseSendto => .counted 6
  | solMmap64 | uw7Mmap64 => .counted 7

/-- `Spl`: pass the register frame down. -/
def spl : Int := 0x65

/-- `Fast`: as `Spl`, and the handler sets the registers up for the return. -/
def fast : Int := 0x66

/-- `Ukn`, the same code as `Unimpl`: not implemented. -/
def ukn : Int := 0x67

/-- `struct sysent`: the function to call (`none` for a null pointer) and the
`short` that selects the calling convention. -/
structure Sysent where
  seSyscall : Option Handler
  seNargs : Int
  deriving DecidableEq, Repr

/-- An entry without a function. -/
def unk : Sysent := ⟨none, ukn⟩

end AbiEmu.Lcall7
