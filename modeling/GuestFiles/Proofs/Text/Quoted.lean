import GuestFiles.Failure
import GuestFiles.Proofs.Text.Hex

/-! # Diagnostics on one line

Quoting spells line breaks out. So a diagnostic is one line, whatever names it tells. -/

namespace GuestFiles

namespace Text

/-- A text without a line break. -/
def OneLine (text : String) : Prop :=
  '\n' ∉ text.toList

theorem oneLine_append (a b : String) : OneLine (a ++ b) ↔ OneLine a ∧ OneLine b := by
  simp [OneLine, not_or]

theorem oneLine_repr (n : Nat) : OneLine n.repr := by
  rw [OneLine, Nat.repr_eq_ofList_toDigits, String.toList_ofList]
  intro h
  have hdigit := Nat.isDigit_of_mem_toDigits (by decide) (by decide) h
  revert hdigit
  decide

/-! ## Hexadecimal digits -/

theorem newline_not_mem_lowerHex (n : Nat) : '\n' ∉ lowerHex n := by
  intro h
  have hupper : Char.toUpper '\n' ∈ bareHex n := List.mem_map_of_mem h
  exact newline_not_mem_hexDigits (mem_of_mem_bareHex n _ hupper)

/-! ## Quoted text -/

theorem newline_not_mem_escapeChar {quote : Char} (h : '\n' ≠ quote) (c : Char) :
    '\n' ∉ escapeChar quote c := by
  unfold escapeChar
  split
  · decide
  split
  · decide
  split
  · decide
  split
  · decide
  split
  · next hquote =>
      rcases hquote with rfl | rfl
      · decide
      · simp [h]
  split
  · have hhex := newline_not_mem_lowerHex c.toNat
    simp [hhex]
  · next hbreak _ _ => simp [Ne.symm hbreak]

theorem oneLine_quoted (text : String) : OneLine (quoted text) := by
  have hquote : '\n' ≠ '"' := by decide
  simp [OneLine, quoted, newline_not_mem_escapeChar hquote]

theorem oneLine_quotedChar (c : Char) : OneLine (quotedChar c) := by
  have hquote : '\n' ≠ '\'' := by decide
  simp [OneLine, quotedChar, newline_not_mem_escapeChar hquote]

theorem oneLine_quotedBytes (bs : List UInt8) : OneLine (quotedBytes bs) := by
  have hpiece : ∀ piece, '\n' ∉ quotedBytes.piece piece := by
    intro piece
    cases piece with
    | char c => exact newline_not_mem_escapeChar (by decide) c
    | broken bs => simp [quotedBytes.piece, newline_not_mem_hexByte]
  simp [OneLine, quotedBytes, hpiece]

end Text

/-! ## Diagnostics -/

theorem Host.Fault.oneLine_kind (fault : Fault) : Text.OneLine fault.kind := by
  cases fault <;> simp [kind, Text.OneLine]

theorem Host.Fault.oneLine_diagnostic (fault : Fault) : Text.OneLine fault.diagnostic := by
  unfold diagnostic
  split
  · simp only [Text.oneLine_append, Text.oneLine_quoted, Text.oneLine_repr, oneLine_kind]
    simp [Text.OneLine]
  · simp only [Text.oneLine_append, Text.oneLine_quoted, oneLine_kind]
    simp [Text.OneLine]

theorem Json.Fault.oneLine_diagnostic (fault : Fault) : Text.OneLine fault.diagnostic := by
  simp only [diagnostic, Text.oneLine_append, Text.oneLine_quoted, Text.oneLine_repr]
  simp [Text.OneLine]

/-- A diagnostic is one line. -/
theorem Failure.oneLine_diagnostic (failure : Failure) : Text.OneLine failure.diagnostic := by
  cases failure with
  | invalidDrive letter =>
      show Text.OneLine ("InvalidDrive(" ++ Text.quotedChar letter ++ ")")
      simp only [Text.oneLine_append, Text.oneLine_quotedChar]
      simp [Text.OneLine]
  | notMounted letter =>
      show Text.OneLine ("DriveNotMounted(" ++ Text.quotedChar letter ++ ")")
      simp only [Text.oneLine_append, Text.oneLine_quotedChar]
      simp [Text.OneLine]
  | traversal root path depth fault =>
      show Text.OneLine ("Traversal \x7b root: " ++ Text.quotedBytes root.bytes ++
        ", source: Error \x7b depth: " ++ depth.repr ++ ", inner: Io \x7b path: Some(" ++
        Text.quotedBytes path.bytes ++ "), err: " ++ fault.diagnostic ++ " \x7d \x7d \x7d")
      simp only [Text.oneLine_append, Text.oneLine_quotedBytes, Text.oneLine_repr,
        fault.oneLine_diagnostic]
      simp [Text.OneLine]
  | unreadable fault =>
      show Text.OneLine ("Io(" ++ fault.diagnostic ++ ")")
      simp only [Text.oneLine_append, fault.oneLine_diagnostic]
      simp [Text.OneLine]
  | badConfig fault =>
      show Text.OneLine ("Json(" ++ fault.diagnostic ++ ")")
      simp only [Text.oneLine_append, fault.oneLine_diagnostic]
      simp [Text.OneLine]

end GuestFiles
