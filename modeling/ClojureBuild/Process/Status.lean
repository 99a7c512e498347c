/-!
How a process ends.
-/

namespace ClojureBuild

/-- The end of a process: an exit code below 256, or the signal that ended it. -/
inductive ExitStatus where
  | exited (code : Nat)
  | killed (signal : Nat)
deriving DecidableEq, Repr, Inhabited

namespace ExitStatus

/-- A process that exits with a number shows its last eight bits. -/
def ofNumber (n : Nat) : ExitStatus := .exited (n % 256)

def succeeded (status : ExitStatus) : Bool := status == .exited 0

def signalNames : List (Nat × String) :=
  [(1, "HUP"), (2, "INT"), (3, "QUIT"), (4, "ILL"), (5, "TRAP"), (6, "ABRT"), (7, "BUS"),
    (8, "FPE"), (9, "KILL"), (10, "USR1"), (11, "SEGV"), (12, "USR2"), (13, "PIPE"), (14, "ALRM"),
    (15, "TERM"), (16, "STKFLT"), (17, "CHLD"), (18, "CONT"), (19, "STOP"), (20, "TSTP"),
    (21, "TTIN"), (22, "TTOU"), (23, "URG"), (24, "XCPU"), (25, "XFSZ"), (26, "VTALRM"),
    (27, "PROF"), (28, "WINCH"), (29, "IO"), (30, "PWR"), (31, "SYS")]

/-- Whether a signal ends a process that does nothing about it. -/
def isFatal (signal : Nat) : Bool :=
  0 < signal && !([17, 18, 19, 20, 21, 22, 23, 28].contains signal)

def message : ExitStatus → String
  | .exited code => "exit status: " ++ toString code
  | .killed signal =>
      "signal: " ++ toString signal ++
        (match signalNames.find? (·.1 == signal) with
         | some (_, name) => " (SIG" ++ name ++ ")"
         | none => "")

def number : ExitStatus → Nat
  | .exited code => code
  | .killed signal => 128 + signal

end ExitStatus

end ClojureBuild
