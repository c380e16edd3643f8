import GuestFiles.Text.CaseTable

/-! # Upper-casing by the full mappings of Unicode

Each character is mapped on its own, to one, two or three characters, without regard to a language
or to its neighbours. -/

namespace GuestFiles.Text

/-- The upper-case letter of `code`, when `code` is a letter of the run. -/
def CaseRun.map? (run : CaseRun) (code : Nat) : Option Nat :=
  if run.first ≤ code ∧ code ≤ run.last ∧ (code - run.first) % run.step = 0 then
    some (run.target + (code - run.first))
  else
    none

/-- The code points that stand for `code` in upper case. -/
def upperCodes (code : Nat) : List Nat :=
  match caseExpansions.lookup code with
  | some codes => codes
  | none => [(caseRuns.findSome? (·.map? code)).getD code]

/-- The characters that stand for `c` in upper case. The ASCII letters are decided without the
tables, which agree with the answer given here. -/
def upperChar (c : Char) : List Char :=
  if c.toNat < 0x80 then
    [c.toUpper]
  else
    (upperCodes c.toNat).map Char.ofNat

def upper (text : String) : String :=
  String.ofList (text.toList.flatMap upperChar)

@[simp] theorem toList_upper (text : String) :
    (upper text).toList = text.toList.flatMap upperChar := by
  simp [upper]

end GuestFiles.Text
