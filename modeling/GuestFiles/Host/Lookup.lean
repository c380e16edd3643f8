import GuestFiles.Host.Fault
import GuestFiles.Host.Listing

/-! # Following a path

A path is followed name by name, from the working directory or from the top of the file system.
Links on the way are followed too, at most forty of them. -/

namespace GuestFiles

namespace Host

inductive Target where
  | file (content : Content)
  | dir (entries : Listing)

structure Reached where
  target : Target
  /-- Whether the path itself names a link to it. -/
  linked : Bool

end Host

/-- A host answers what a path leads to. -/
abbrev Host := Host.Path → Except Host.Fault Host.Reached

namespace Host

def maxName : Nat := 255

def maxLinks : Nat := 40

/-- A directory, with what lies above it. -/
structure Trail where
  here : Listing
  /-- For each directory above, nearest first, the name that leads down and the entries it is one
  of. -/
  above : List (Name × Listing)

namespace Trail

def down (name : Name) (entries : Listing) (trail : Trail) : Trail :=
  ⟨entries, (name, trail.here) :: trail.above⟩

/-- The directory above. Nothing is above the top, from where two dots lead back to it. -/
def up (trail : Trail) : Trail :=
  match trail.above with
  | [] => trail
  | (_, parent) :: rest => ⟨parent, rest⟩

/-- The top of the file system. -/
def top (trail : Trail) : Trail :=
  match trail.above.getLast? with
  | none => trail
  | some (_, entries) => ⟨entries, []⟩

/-- Where a path starts that is met in a directory. -/
def start (trail : Trail) (path : Path) : Trail :=
  if path.isAbsolute then trail.top else trail

/-- Goes down through the directories of the given names. -/
def descend? : Trail → List Name → Option Trail
  | trail, [] => some trail
  | trail, name :: rest =>
    match trail.here.get? name with
    | some (.dir entries) => (trail.down name entries).descend? rest
    | _ => none

/-- The entries at the top after a node has been put under a name in the directory. -/
def put (name : Name) (node : Node) (trail : Trail) : Listing :=
  trail.above.foldl (fun entries step => step.2.put step.1 (.dir entries))
    (trail.here.put name node)

end Trail

inductive Spot where
  | dir (trail : Trail)
  /-- A name in a directory, and what the file of that name holds if there is one. -/
  | entry (trail : Trail) (name : Name) (content? : Option Content)

/-- A place that was found by following a path. -/
structure Found where
  spot : Spot
  /-- Whether the path itself names a link to it. -/
  linked : Bool

def Found.reached : Found → Except Fault Reached
  | ⟨.dir trail, linked⟩ => .ok ⟨.dir trail.here, linked⟩
  | ⟨.entry _ _ (some content), linked⟩ => .ok ⟨.file content, linked⟩
  | ⟨.entry _ _ none, _⟩ => .error .noEntry

namespace Trail

/-- Follows names down from a directory. Only the last of them may be without an entry. `onLink`
goes on where a link is met: at its directory, with its target and the names after it. -/
def follow (onLink : Trail → Path → List Name → Except Fault Found) :
    Trail → List Name → Except Fault Found
  | trail, [] => .ok ⟨.dir trail, false⟩
  | trail, name :: rest =>
    if name = [] ∨ name = selfName then
      follow onLink trail rest
    else if name = parentName then
      follow onLink trail.up rest
    else if maxName < name.length then
      .error .nameTooLong
    else
      match trail.here.get? name with
      | none => if rest.isEmpty then .ok ⟨.entry trail name none, false⟩ else .error .noEntry
      | some (.file content) =>
        if rest.isEmpty then .ok ⟨.entry trail name (some content), false⟩
        else .error .notDirectory
      | some (.dir entries) => follow onLink (trail.down name entries) rest
      | some (.link target) => onLink trail target rest

/-- Follows names down from a directory, through at most `links` links. A link without names after
it is the end of the path. -/
def resolve : Nat → Trail → List Name → Except Fault Found
  | 0, trail, names => follow (fun _ _ _ => .error .tooManyLinks) trail names
  | links + 1, trail, names =>
    follow
      (fun trail target rest =>
        (resolve links (trail.start target) (target.names ++ rest)).map fun found =>
          { found with linked := rest.isEmpty || found.linked })
      trail names

end Trail

/-- A file system, and the directory in it from which paths are followed that do not start at the
top. -/
structure Disk where
  /-- The entries at the top. -/
  top : Listing
  /-- The names on the way down to the working directory. -/
  way : List Name
  exists_here : ((Trail.mk top []).descend? way).isSome

namespace Disk

/-- The working directory. -/
def here (disk : Disk) : Trail :=
  ((Trail.mk disk.top []).descend? disk.way).get disk.exists_here

/-- Finds the place that a path names. -/
def locate (disk : Disk) (path : Path) : Except Fault Found :=
  if path.bytes.contains 0 then .error .zeroByte
  else if !path.fits then .error .nameTooLong
  else if path.bytes.isEmpty then .error .noEntry
  else Trail.resolve maxLinks (disk.here.start path) path.names

def host (disk : Disk) : Host := fun path => do
  (← disk.locate path).reached

/-- The file system with the given working directory and nothing else but the top above it. -/
def around (listing : Listing) : Disk :=
  ⟨.dir [0x77] listing .empty, [[0x77]], rfl⟩

end Disk

/-! ## Reading and walking -/

def readText (host : Host) (path : Path) : Except Fault String := do
  match (← host path).target with
  | .dir _ => .error .isDirectory
  | .file content =>
    match Text.ofBytes? content.toList with
    | some text => .ok text
    | none => .error .notText

/-- What a walk meets that starts at the path `root` and reaches `reached`: first the root itself,
and then the content of a directory. A link at the root is followed to a directory, but it is met as
a link. -/
def Reached.walk (root : Path) : Reached → List Listing.Met
  | ⟨.dir entries, linked⟩ =>
    (if linked then .link root 0 else .dir root 0) :: entries.walk root 1
  | ⟨.file content, false⟩ => [.file ⟨root, 0, root.lastName, content.size⟩]
  | ⟨.file _, true⟩ => [.link root 0]

end Host

end GuestFiles
