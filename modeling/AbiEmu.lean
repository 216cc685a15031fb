import AbiEmu.Lcall7.Args
import AbiEmu.Lcall7.Depth
import AbiEmu.Binfmt.XoutImage
import AbiEmu.Binfmt.Release
import AbiEmu.Signal.Parent
import AbiEmu.Xti.Asked
import AbiEmu.ExecDomain.References
import AbiEmu.Binfmt.Tables
import AbiEmu.Limits.Ulimit
import AbiEmu.Dir.Inodes
import AbiEmu.Report.Lengths
import AbiEmu.Report.Quiet
import AbiEmu.Binfmt.CommentClues
import AbiEmu.Binfmt.Shlibs
import AbiEmu.Xti.OptAck
import AbiEmu.Xti.Touches
import AbiEmu.Xti.Leaks
import AbiEmu.Xti.Peek
import AbiEmu.Xti.FileRefs
import AbiEmu.Binfmt.CoffBss
import AbiEmu.Binfmt.SegmentLimits
import AbiEmu.Binfmt.XoutExits
import AbiEmu.Tty.ScoTermios
import AbiEmu.Tty.Uw7Termios
import AbiEmu.Tty.SvrTermio
import AbiEmu.Tty.BsdSpeeds
import AbiEmu.Signal.Flags
import AbiEmu.Tty.V7
import AbiEmu.Mm.Mapping
import AbiEmu.File.Fcntl
import AbiEmu.Solaris.Msgflags
import AbiEmu.Util.Creds
import AbiEmu.Cxenix.Nap
