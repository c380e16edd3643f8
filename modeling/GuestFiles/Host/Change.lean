import GuestFiles.Host.Lookup

/-! # Adding to a file system

Files, directories and links are added at paths. These are followed like any other path: through the
links that stand there already, and up at two dots. The directories on the way are made first. What
a host would refuse is refused. -/

namespace GuestFiles.Host

/-- The paths of the directories on the way to a path, which end before its slashes. The outermost
comes first. -/
def Path.way (path : Path) : List Path :=
  (List.range path.bytes.length).filterMap fun (i : Nat) =>
    if path.bytes[i]? = some slash then some ⟨path.bytes.take i⟩ else none

namespace Disk

/-- Puts a node under a name in a directory. The working directory has to stay where it is. -/
def put? (disk : Disk) (trail : Trail) (name : Name) (node : Node) : Option Disk :=
  let top := trail.put name node
  if h : ((Trail.mk top []).descend? disk.way).isSome then some ⟨top, disk.way, h⟩ else none

/-- Makes a directory at a path unless there is one. -/
def makeDir? (disk : Disk) (path : Path) : Option Disk :=
  match disk.locate path with
  | .ok ⟨.dir _, _⟩ => some disk
  | .ok ⟨.entry trail name none, false⟩ => disk.put? trail name (.dir .empty)
  | _ => none

def makeWay? (disk : Disk) (path : Path) : Option Disk :=
  path.way.foldlM makeDir? disk

/-- Adds a directory at a path unless there is one. The empty path asks for none. -/
def addDir? (disk : Disk) (path : Path) : Option Disk :=
  if path.bytes.isEmpty then
    some disk
  else do
    (← disk.makeWay? path).makeDir? path

/-- Writes a file at a path, or where a link at the path leads. A file that stands there is
replaced. -/
def addFile? (disk : Disk) (path : Path) (content : Content) : Option Disk := do
  let disk ← disk.makeWay? path
  match disk.locate path with
  | .ok ⟨.entry trail name _, _⟩ => disk.put? trail name (.file content)
  | _ => none

/-- Adds a link at a path at which nothing stands. -/
def addLink? (disk : Disk) (path target : Path) : Option Disk := do
  let disk ← disk.makeWay? path
  match disk.locate path with
  | .ok ⟨.entry trail name none, false⟩ => disk.put? trail name (.link target)
  | _ => none

end Disk

end GuestFiles.Host
