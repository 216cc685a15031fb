import AbiEmu.Lcall7.Sysent

/-!
# `abi/cxenix/sysent.c`: the Xenix extension calls

The sub-table behind OpenServer call 40. Its slot 0 is named "syscall" like
slot 0 of the main tables, but is left unimplemented.
-/

namespace AbiEmu.Lcall7

open Handler

/-- `cxenix_table`. -/
def cxenixTable : List Sysent := [
  /-   0 -/ unk, ⟨xnxLocking, 3⟩, ⟨xnxCreatsem, 2⟩, ⟨xnxOpensem, 1⟩, ⟨xnxSigsem, 1⟩,
    ⟨xnxWaitsem, 1⟩, ⟨xnxNbwaitsem, 1⟩, ⟨xnxRdchk, 1⟩, unk, unk,
  /-  10 -/ ⟨sysFtruncate, 2⟩, ⟨xnxFtime, 1⟩, ⟨xnxNap, 1⟩, ⟨xnxSdget, 4⟩, ⟨xnxSdfree, 1⟩,
    ⟨xnxSdenter, 2⟩, ⟨xnxSdleave, 1⟩, ⟨xnxSdgetv, 1⟩, ⟨xnxSdwaitv, 2⟩, unk,
  /-  20 -/ unk, ⟨none, 2⟩, unk, unk, unk, unk, unk, unk, unk, unk,
  /-  30 -/ unk, unk, ⟨xnxProctl, 3⟩, ⟨xnxExecseg, 2⟩, ⟨xnxUnexecseg, 1⟩, unk, ⟨sysSelect, 5⟩,
    ⟨xnxEaccess, 2⟩, ⟨xnxPaccess, 5⟩, ⟨xnxSigaction, 3⟩,
  /-  40 -/ ⟨abiSigprocmask, 3⟩, ⟨xnxSigpending, 1⟩, ⟨abiSigsuspend, spl⟩, ⟨sysGetgroups16, 2⟩,
    ⟨sysSetgroups16, 2⟩, ⟨ibcsSysconf, 1⟩, ⟨xnxPathconf, 2⟩, ⟨xnxFpathconf, 2⟩, ⟨sysRename, 2⟩, unk,
  /-  50 -/ ⟨xnxUtsname, 1⟩, unk, unk, unk, unk, ⟨sysGetitimer, 2⟩, ⟨sysSetitimer, 3⟩]

end AbiEmu.Lcall7
