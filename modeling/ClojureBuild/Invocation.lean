import ClojureBuild.Path.Basic
/-!
Invocations of external programs: a program and its arguments, never joined into a command text.
Arguments are octet texts.
-/

namespace ClojureBuild

/-- A program to run and its arguments. -/
structure Invocation where
  program : Path
  args : List OsText
deriving DecidableEq, Repr, Inhabited

/-- The invocation as a log line shows it; arguments are not quoted. -/
def Invocation.display (i : Invocation) : String :=
  i.program.display ++ String.join (i.args.map fun arg => " " ++ Octets.toText arg)

end ClojureBuild
