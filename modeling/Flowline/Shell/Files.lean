import Flowline.Json.Basic

/-!
# Files

The tree of files that commands see. It begins with the usual directories of a system and the
names of its programs; `Files.locate` finds what a path names.
-/

namespace Flowline.Shell

/-- A file that is no store of characters. -/
inductive Device where
  | null
  | zeros
  | full
  /-- The stream of that number of the process that opens it. -/
  | stream (n : Nat)
deriving DecidableEq

/-- What a name in the tree stands for. -/
inductive FileNode where
  | directory
  /-- A file, by the number of its content. -/
  | file (number : Nat)
  | link (target : String)
  | device (d : Device)
deriving DecidableEq

/-- An entry of the tree, with the permissions of its owner, its group and others. -/
structure FileEntry where
  node : FileNode
  mode : Nat

/-- Why a path names nothing that can be used. -/
inductive FileFault where
  | missing
  | notDirectory
  | isDirectory
  | present
  | notEmpty
  | tooManyLinks
deriving DecidableEq

/-- The fault in words. -/
def FileFault.message : FileFault → String
  | missing => "No such file or directory"
  | notDirectory => "Not a directory"
  | isDirectory => "Is a directory"
  | present => "File exists"
  | notEmpty => "Directory not empty"
  | tooManyLinks => "Too many levels of symbolic links"

/-- A tree of files: its entries by their full paths, and the contents of files by number. -/
structure Files where
  entries : Entries FileEntry
  contents : Array (Array Char)

namespace Files

/-- The path of some names, the innermost first. -/
def pathOf (names : List String) : String := "/" ++ "/".intercalate names.reverse

/-- The entry of some names, the innermost first. -/
def at? (fs : Files) (names : List String) : Option FileEntry := fs.entries.get? (pathOf names)

/-- Walk along a path from a directory that is reached. -/
def walk (fs : Files) (followLast : Bool) :
    Nat → List String → List String → Except FileFault (List String)
  | 0, _, _ => throw .tooManyLinks
  | _, reached, [] => return reached
  | fuel + 1, reached, part :: rest =>
    match fs.at? reached with
    | none => throw .missing
    | some entry =>
      if entry.node ≠ .directory then throw .notDirectory
      else if part == "" || part == "." then walk fs followLast fuel reached rest
      else if part == ".." then walk fs followLast fuel reached.tail rest
      else
        match fs.at? (part :: reached) with
        | none =>
          if rest.all (· == "") then return part :: reached else throw .missing
        | some { node := .link target, .. } =>
          if rest.isEmpty && !followLast then return part :: reached
          else
            let start := if target.toList.head? == some '/' then [] else reached
            walk fs followLast fuel start (target.splitOn "/" ++ rest)
        | some _ => walk fs followLast fuel (part :: reached) rest

/-- The names that a path stands for in a directory, without links. What the last name stands for
need not be there. -/
def locate (fs : Files) (followLast : Bool) (directory path : String) :
    Except FileFault (List String) :=
  if path == "" then throw .missing
  else
    let full := if path.toList.head? == some '/' then path else directory ++ "/" ++ path
    fs.walk followLast 1000 [] (full.splitOn "/")

/-- The entry that a path names. -/
def find (fs : Files) (followLast : Bool) (directory path : String) :
    Except FileFault (List String × FileEntry) := do
  let names ← fs.locate followLast directory path
  match fs.at? names with
  | some entry => return (names, entry)
  | none => throw .missing

/-- A path is a directory. -/
def isDirectory (fs : Files) (directory path : String) : Bool :=
  match fs.find true directory path with
  | .ok (_, entry) => entry.node = .directory
  | .error _ => false

/-- The content of a file. -/
def content (fs : Files) (number : Nat) : Array Char := fs.contents.getD number #[]

/-- Make the content of a file another one. -/
def setContent (fs : Files) (number : Nat) (content : Array Char) : Files :=
  { fs with contents := fs.contents.setIfInBounds number content }

/-- Change the content of a file. -/
def onContent (fs : Files) (number : Nat) (f : Array Char → Array Char) : Files :=
  { fs with contents := fs.contents.modify number f }

/-- Put an entry. -/
def put (fs : Files) (names : List String) (entry : FileEntry) : Files :=
  { fs with entries := fs.entries.put (pathOf names) entry }

/-- Put a new file without content. -/
def create (fs : Files) (names : List String) (mode : Nat) : Files × Nat :=
  let number := fs.contents.size
  ({ fs with contents := fs.contents.push #[] }.put names ⟨.file number, mode⟩, number)

/-- Remove an entry. -/
def remove (fs : Files) (names : List String) : Files :=
  { fs with entries := fs.entries.remove (pathOf names) }

/-- What stands in front of the paths of what a directory holds. -/
def inside (names : List String) : String := if names.isEmpty then "/" else pathOf names ++ "/"

/-- The names of what a directory holds, in order. -/
def children (fs : Files) (names : List String) : List String :=
  let start := (inside names).toList
  let found := fs.entries.filterMap fun (path, _) =>
    let cs := path.toList
    if start.isPrefixOf cs && start.length < cs.length then
      let name := cs.drop start.length
      if name.contains '/' then none else some (String.ofList name)
    else none
  found.mergeSort fun a b => !decide (b < a)

/-- Remove an entry, and all that it holds. -/
def removeTree (fs : Files) (names : List String) : Files :=
  let start := (inside names).toList
  { (fs.remove names) with
    entries := (fs.remove names).entries.filter fun (path, _) => !start.isPrefixOf path.toList }

/-- Give an entry, and all that it holds, another name. -/
def move (fs : Files) (source target : List String) : Files :=
  let start := (inside source).toList
  let fs := match fs.at? source with
    | some entry => (fs.remove source).put target entry
    | none => fs
  { fs with
    entries := fs.entries.map fun (path, entry) =>
      let cs := path.toList
      if start.isPrefixOf cs then
        (inside target ++ String.ofList (cs.drop start.length), entry)
      else (path, entry) }

/-- The programs that there are from the start. -/
def programs : List String :=
  ["dash", "bash", "cat", "echo", "ls", "true", "false", "sleep", "pwd", "test", "[",
    "printf", "env", "printenv", "head", "tail", "tr", "wc", "sort", "uniq", "cut", "grep",
    "egrep", "fgrep", "sed", "expr", "seq", "basename", "dirname", "tac", "rev", "tee", "xargs",
    "paste", "nl", "fold", "comm", "join", "yes", "mkdir", "rmdir", "rm", "touch", "cp", "mv", "ln",
    "chmod", "readlink", "realpath", "mktemp", "id", "whoami", "uname", "date", "hostname", "kill",
    "nohup", "nice", "timeout", "od", "find", "awk", "dd", "diff", "cmp", "cksum", "md5sum", "stat",
    "tty", "which", "perl"]

/-- The other files that there are from the start. -/
def records : List String :=
  ["/etc/passwd", "/etc/group", "/etc/hosts", "/etc/hostname", "/etc/resolv.conf", "/etc/profile",
    "/etc/os-release", "/etc/fstab", "/etc/shadow", "/etc/debian_version", "/etc/nsswitch.conf"]

/-- The directories that there are from the start. -/
def directories : List String :=
  ["/", "/tmp", "/usr", "/usr/bin", "/usr/sbin", "/usr/lib", "/usr/lib64", "/usr/share",
    "/usr/include", "/usr/games", "/usr/src", "/usr/libexec", "/usr/local", "/usr/local/bin",
    "/usr/local/etc", "/usr/local/games", "/usr/local/include", "/usr/local/lib",
    "/usr/local/sbin", "/usr/local/share", "/usr/local/src", "/boot", "/dev", "/dev/fd", "/dev/pts",
    "/dev/shm", "/etc", "/etc/default", "/etc/init.d", "/etc/ssl", "/etc/ssl/certs", "/home",
    "/media", "/mnt", "/opt", "/proc", "/proc/self", "/root", "/run", "/run/lock", "/srv", "/sys",
    "/var", "/var/backups", "/var/cache", "/var/lib", "/var/local", "/var/log", "/var/mail",
    "/var/opt", "/var/spool", "/var/tmp"]

/-- The links that there are from the start. -/
def links : List (String × String) :=
  [("/bin", "usr/bin"), ("/sbin", "usr/sbin"), ("/lib", "usr/lib"), ("/lib64", "usr/lib64"),
    ("/var/run", "/run"), ("/var/lock", "/run/lock"), ("/usr/local/man", "share/man"),
    ("/usr/bin/sh", "dash")]

/-- The devices that there are. -/
def devices : List (String × Device) :=
  [("/dev/null", .null), ("/dev/zero", .zeros), ("/dev/full", .full), ("/dev/stdin", .stream 0),
    ("/dev/stdout", .stream 1), ("/dev/stderr", .stream 2)] ++
  (List.range 10).map fun n => ("/dev/fd/" ++ String.ofList (Nat.toDigits 10 n), .stream n)

/-- The tree that commands begin with. -/
def standard : Files :=
  let readable (path : String) : String × FileEntry := (path, ⟨.file 0, 0o644⟩)
  { entries := devices.map (fun (path, d) => (path, ⟨.device d, 0o666⟩)) ++
      directories.map (fun path => (path, ⟨.directory, 0o755⟩)) ++
      links.map (fun (path, target) => (path, ⟨.link target, 0o777⟩)) ++
      records.map readable ++
      programs.map (fun name => ("/usr/bin/" ++ name, ⟨.file 0, 0o755⟩))
    contents := #[#[]] }

end Files

end Flowline.Shell
