import ClojureBuild.Process.Program.Edit
import ClojureBuild.Process.Program.Listing
import ClojureBuild.Process.Program.Search
/-!
The separate programs by their names, and the files that stand for them in the tree.
-/

namespace ClojureBuild

/-- The bytes that a program's file begins with; its name follows. -/
def programMark : List UInt8 := [0x7f, 0x45, 0x4c, 0x46]

def programImage (name : String) : ByteArray :=
  ⟨(programMark ++ name.toUTF8.toList).toArray⟩

def programOfImage? (content : ByteArray) : Option String :=
  if programMark.isPrefixOf content.toList then
    String.fromUTF8? ⟨(content.toList.drop programMark.length).toArray⟩
  else none

namespace Programs

open Program in
def plain : List (String × Program ExitStatus) :=
  [("true", return .exited 0), ("false", return .exited 1), ("sync", return .exited 0),
    ("echo", echo), ("printf", printf), ("test", test false), ("[", test true), ("seq", seq),
    ("cp", cp), ("mv", mv), ("ln", ln), ("rm", rm), ("rmdir", rmdir), ("mkdir", mkdir),
    ("touch", touch), ("chmod", chmod), ("install", install), ("mktemp", mktemp),
    ("truncate", truncate), ("unlink", unlink), ("basename", basename), ("dirname", dirname),
    ("readlink", readlink), ("realpath", realpath), ("pwd", pwd), ("cat", cat), ("head", head),
    ("tail", tail), ("wc", wc), ("sort", sort), ("uniq", uniq), ("cut", cut), ("tr", tr),
    ("tee", tee), ("tac", tac), ("rev", rev), ("nl", nl), ("paste", paste), ("fold", fold),
    ("comm", comm), ("cmp", cmp), ("diff", diff), ("yes", yes), ("grep", grepWith 'G'),
    ("egrep", grepWith 'E'), ("fgrep", grepWith 'F'), ("sed", sed), ("expr", expr), ("ls", ls),
    ("sleep", sleep), ("date", date), ("kill", kill), ("printenv", printenv), ("which", which),
    ("uname", uname), ("arch", saying "x86_64"), ("whoami", saying "root"),
    ("hostname", saying "localhost"), ("nproc", saying "1"), ("tty", do
      let _ ← saying "not a tty"
      return .exited 1),
    ("id", do
      let args := (← read).args
      saying (if args.contains "-n" || args.contains "-un" then "root"
        else if args.isEmpty then "uid=0(root) gid=0(root) groups=0(root)" else "0")),
    ("chown", return .exited 0), ("chgrp", return .exited 0)]

open Program in
def starting : List (String × (Spawner → Program ExitStatus)) :=
  [("env", env), ("nohup", nohup), ("nice", nice), ("timeout", timeout), ("xargs", xargs),
    ("find", find)]

def shells : List (String × Shell.Dialect) :=
  [("sh", .posix), ("dash", .posix), ("bash", .bash)]

def find? (spawn : Spawner) (name : String) : Option (Program ExitStatus) :=
  match plain.lookup name with
  | some program => some program
  | none => (starting.lookup name).map (· spawn)

def run (program : Program ExitStatus) (call : ProcessCall) (m : Machine) :
    Machine × ExitStatus :=
  match (program.run call).run.run m with
  | (.ok status, m) => (m, status)
  | (.error status, m) => (m, status)

def names : List String := shells.map (·.1) ++ plain.map (·.1) ++ starting.map (·.1)

def devices : List String :=
  ["full", "null", "random", "stderr", "stdin", "stdout", "tty", "urandom", "zero"]

def directories : List String :=
  ["/dev", "/etc", "/home", "/opt", "/proc", "/root", "/run", "/sys", "/tmp", "/usr/bin",
    "/usr/lib", "/usr/local/bin", "/usr/sbin", "/usr/share", "/var/tmp"]

/-- The directories of programs and libraries that have a second name. -/
def secondNames : List (String × String) :=
  [("bin", "usr/bin"), ("lib", "usr/lib"), ("sbin", "usr/sbin")]

/-- Puts the directories, the devices and the files of the programs into a world. -/
def install (w : World) : World :=
  let w := directories.foldl (fun w dir => (w.makeDirs ⟨dir⟩).1) w
  let w := secondNames.foldl (fun w (name, target) => w.put [name] (.link target)) w
  let w := devices.foldl (fun w name => w.put [name, "dev"] (.device w.clock)) w
  names.foldl (fun w name => w.put [name, "bin", "usr"] (.file (programImage name) 0 true)) w

end Programs

end ClojureBuild
