import GuestFiles.ControlBlock.Pattern
import GuestFiles.Host.Path
import GuestFiles.Json.Scan

/-! # Hits of a search

A hit is a host file together with the name under which the guest sees it. Hits are ordered by that
name, then by the path on the host; their sizes take no part. -/

namespace GuestFiles

open Host

structure Hit where
  host : Path
  /-- The name the guest sees, in upper case. -/
  name : String
  size : UInt64
  deriving DecidableEq, Repr

namespace Hit

/-- The number of records that the file fills, the last of them perhaps in part. -/
def records (hit : Hit) : UInt64 :=
  hit.size / 128 + if hit.size % 128 = 0 then 0 else 1

def maxEntryRecords : UInt64 := 128

/-- The directory entry that the guest is shown for the file: the name, and the number of records up
to one full extent. -/
def entry (hit : Hit) : ControlBlock :=
  let (base, extension) := Text.splitFirst '.' hit.name.toList
  let named :=
    (ControlBlock.blank.setName (String.ofList base)).setExtension (String.ofList extension)
  named.setRc (min hit.records maxEntryRecords).toUInt8

/-! ## Order -/

/-- By name, then by path. -/
instance : Ord Hit where
  compare := compareLex (compareOn (·.name)) (compareOn (·.host))

/-- Whether two hits agree in name, size and the components of their paths. -/
def same (a b : Hit) : Bool :=
  a.host.components == b.host.components && a.name == b.name && a.size == b.size

/-- Hits in order. Hits that compare equal stay as they were. -/
def sort (hits : List Hit) : List Hit :=
  hits.mergeSort fun a b => (compare a b).isLE

/-! ## Writing -/

/-- A hit as a JSON object with a member on each line, none when its path is no text. -/
def json? (hit : Hit) : Option String :=
  hit.host.text?.map fun host =>
    "  \x7b\n    \"host\": " ++ String.ofList (Json.writeString host) ++
      ",\n    \"name\": " ++ String.ofList (Json.writeString hit.name) ++
      ",\n    \"size\": " ++ hit.size.toNat.repr ++ "\n  \x7d"

/-- A list of hits as JSON, none when a path is no text. -/
def jsonList? : List Hit → Option String
  | [] => some "[]"
  | hits => (hits.mapM json?).map fun items => "[\n" ++ String.intercalate ",\n" items ++ "\n]"

end Hit

end GuestFiles
