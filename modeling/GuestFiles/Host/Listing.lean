import GuestFiles.Host.Path

/-! # What stands on the host

A directory is a listing of named files, links and further directories. -/

namespace GuestFiles.Host

inductive Content where
  /-- A number of zero bytes. -/
  | zeros (size : UInt64)
  | bytes (data : List UInt8)
  deriving DecidableEq, Repr

namespace Content

def size : Content → UInt64
  | .zeros size => size
  | .bytes data => data.length.toUInt64

def toList : Content → List UInt8
  | .zeros size => List.replicate size.toNat 0
  | .bytes data => data

end Content

/-- The entries of a directory, one after the other. -/
inductive Listing where
  | empty
  /-- A regular file, and the entries after it. -/
  | file (name : Name) (content : Content) (rest : Listing)
  /-- A symbolic link, and the entries after it. -/
  | link (name : Name) (target : Path) (rest : Listing)
  /-- A directory with its own entries, and the entries after it. -/
  | dir (name : Name) (entries : Listing) (rest : Listing)
  deriving Repr

inductive Node where
  | file (content : Content)
  | link (target : Path)
  | dir (entries : Listing)

namespace Listing

def get? (name : Name) : Listing → Option Node
  | .empty => none
  | .file n content rest => if n = name then some (.file content) else rest.get? name
  | .link n target rest => if n = name then some (.link target) else rest.get? name
  | .dir n entries rest => if n = name then some (.dir entries) else rest.get? name

def cons (name : Name) : Node → Listing → Listing
  | .file content, rest => .file name content rest
  | .link target, rest => .link name target rest
  | .dir entries, rest => .dir name entries rest

/-- Puts a node under a name, in the place of the entry that has the name or else at the end. -/
def put (name : Name) (node : Node) : Listing → Listing
  | .empty => cons name node .empty
  | .file n content rest =>
    if n = name then cons name node rest else .file n content (rest.put name node)
  | .link n target rest =>
    if n = name then cons name node rest else .link n target (rest.put name node)
  | .dir n entries rest =>
    if n = name then cons name node rest else .dir n entries (rest.put name node)

/-! ## Walking -/

/-- A regular file that a walk meets. -/
structure FoundFile where
  path : Path
  /-- How many directories the walk opened on the way to it. -/
  depth : Nat
  name : Name
  size : UInt64
  deriving DecidableEq, Repr

/-- What a walk meets. Links are met as such, and are not followed. -/
inductive Met where
  | file (file : FoundFile)
  | link (path : Path) (depth : Nat)
  | dir (path : Path) (depth : Nat)
  /-- A directory that cannot be opened because its path is too long. -/
  | closed (path : Path) (depth : Nat)
  deriving DecidableEq, Repr

/-- What a walk meets in a directory whose path is `base` and in the directories below it, in the
order of the listings, each directory in full before the entries after it. A directory is met before
it is opened. `depth` is the depth of the entries. -/
def walk (base : Path) (depth : Nat) : Listing → List Met
  | .empty => []
  | .file name content rest =>
    .file ⟨base.join name, depth, name, content.size⟩ :: rest.walk base depth
  | .link name _ rest => .link (base.join name) depth :: rest.walk base depth
  | .dir name entries rest =>
    .dir (base.join name) depth ::
      if (base.join name).fits then
        entries.walk (base.join name) (depth + 1) ++ rest.walk base depth
      else
        .closed (base.join name) depth :: rest.walk base depth

end Listing

end GuestFiles.Host
