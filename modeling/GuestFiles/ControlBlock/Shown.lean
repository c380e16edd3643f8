import GuestFiles.ControlBlock.Position
import GuestFiles.Text.Quoted

/-! # A control block as a diagnostic text

The fields with their names, on one line or on a line each. Name and extension are quoted, the
allocation map is a list. -/

namespace GuestFiles.ControlBlock

/-- The value of a field in a diagnostic text. -/
inductive ShownValue where
  /-- A value that stays on its line. -/
  | single (text : String)
  | list (items : List String)

def shownFields (b : ControlBlock) : List (String × ShownValue) :=
  [("drive", .single b.drive.toNat.repr),
    ("name", .single (Text.quoted (Text.lossy b.name.toList))),
    ("ext", .single (Text.quoted (Text.lossy b.extension.toList))),
    ("ex", .single b.ex.toNat.repr),
    ("s1", .single b.s1.toNat.repr),
    ("s2", .single b.s2.toNat.repr),
    ("rc", .single b.rc.toNat.repr),
    ("al", .list (b.allocation.toList.map fun byte => byte.toNat.repr)),
    ("cr", .single b.cr.toNat.repr),
    ("random", .single b.random.toNat.repr)]

def ShownValue.line : ShownValue → String
  | .single text => text
  | .list items => "[" ++ String.intercalate ", " items ++ "]"

/-- A value at the end of an indented line, with each item of a list on a line of its own. -/
def ShownValue.lines : ShownValue → String
  | .single text => text
  | .list items =>
    "[\n" ++ String.join (items.map fun item => "        " ++ item ++ ",\n") ++ "    ]"

def shownLine (b : ControlBlock) : String :=
  "Fcb \x7b " ++
    String.intercalate ", " (b.shownFields.map fun (name, value) => name ++ ": " ++ value.line) ++
    " \x7d"

def shownLines (b : ControlBlock) : String :=
  "Fcb \x7b\n" ++
    String.join
      (b.shownFields.map fun (name, value) => "    " ++ name ++ ": " ++ value.lines ++ ",\n") ++
    "\x7d"

end GuestFiles.ControlBlock
