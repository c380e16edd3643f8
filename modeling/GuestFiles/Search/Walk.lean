import GuestFiles.Failure
import GuestFiles.Host.Lookup
import GuestFiles.Search.Hit

/-! # Searching a directory

A search looks at every regular file below its root, whatever the directories between them, and
keeps those whose names the pattern accepts. -/

namespace GuestFiles

open Host

/-- The name under which the guest sees a file. -/
def guestName (name : Name) : String :=
  Text.upper (Text.lossy name)

/-- Looks at one file: the hit if the pattern accepts it, and the lines the log gets. The size of an
accepted file has to be asked for, which fails when its path is too long. -/
def examineFile (pattern : ControlBlock) (root : Path) (file : Listing.FoundFile) :
    Logged (Except Failure (Option Hit)) := do
  let name := guestName file.name
  if !(← pattern.examine name) then
    Logged.write .trace ("skip " ++ file.path.shown)
    return .ok none
  else if !file.path.fits then
    return .error (.traversal root file.path file.depth .nameTooLong)
  else
    Logged.write .debug (file.path.shown ++ " matches " ++ pattern.filename)
    return .ok (some ⟨file.path, name, file.size⟩)

/-- Looks at what a walk meets, one after the other, up to the first failure. Only regular files are
looked at, whatever the names of directories and links. -/
def examineAll (pattern : ControlBlock) (root : Path) :
    List Listing.Met → Logged (Except Failure (List Hit))
  | [] => return .ok []
  | .closed path depth :: _ => return .error (.traversal root path depth .nameTooLong)
  | .dir _ _ :: rest => examineAll pattern root rest
  | .link _ _ :: rest => examineAll pattern root rest
  | .file file :: rest => do
    match ← examineFile pattern root file with
    | .error failure => return .error failure
    | .ok hit? => return (← examineAll pattern root rest).map (hit?.toList ++ ·)

/-- Searches the host from `root`. Nothing is found when the root cannot be reached, or when a path
on the way is too long. -/
def search (pattern : ControlBlock) (root : Path) (host : Host) :
    Logged (Except Failure (List Hit)) :=
  match host root with
  | .error fault => return .error (.traversal root root 0 fault)
  | .ok reached => examineAll pattern root (reached.walk root)

end GuestFiles
