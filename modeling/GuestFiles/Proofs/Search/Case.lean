import GuestFiles.Proofs.Search.Examine
import GuestFiles.Proofs.Text.Uppercase

/-! # The case of names

Whatever takes a name takes it in upper case, and upper-casing twice is upper-casing once. So a name
and the name in upper case make the same block and are accepted by the same patterns, and a search,
which puts a name in upper case before its pattern does so again, keeps the files whose names the
pattern accepts as they stand on the host. -/

namespace GuestFiles

open Host

namespace ControlBlock

theorem parse_upper (text : String) : parse (Text.upper text) = parse text := by
  simp only [parse, retype, Text.upper_upper]

theorem setName_upper (b : ControlBlock) (text : String) :
    b.setName (Text.upper text) = b.setName text := by
  simp only [setName, Text.upper_upper]

theorem setExtension_upper (b : ControlBlock) (text : String) :
    b.setExtension (Text.upper text) = b.setExtension text := by
  simp only [setExtension, Text.upper_upper]

theorem accepts_upper (b : ControlBlock) (candidate : String) :
    b.accepts (Text.upper candidate) = b.accepts candidate := by
  simp only [accepts, fieldsOf?, Text.upper_upper]

/-- A pattern accepts the guest name of a file when it accepts the name on the host, read as
text. -/
theorem accepts_guestName (b : ControlBlock) (name : Name) :
    b.accepts (guestName name) = b.accepts (Text.lossy name) :=
  accepts_upper b (Text.lossy name)

end ControlBlock

/-- Typing, naming and matching do not tell a text from the text in upper case. A search goes
through when nothing stops it on the walk from its root, and then answers the files whose names on
the host, read as text, the pattern accepts. -/
theorem case_insensitive (b : ControlBlock) :
    (∀ text, ControlBlock.parse (Text.upper text) = ControlBlock.parse text ∧
      b.setName (Text.upper text) = b.setName text ∧
      b.setExtension (Text.upper text) = b.setExtension text) ∧
    (∀ candidate, b.accepts (Text.upper candidate) = b.accepts candidate) ∧
    ∀ (root : Path) (host : Host) (hits : List Hit),
      (search b root host).value = .ok hits ↔
        ∃ (reached : Reached) (files : List Listing.FoundFile), host root = .ok reached ∧
          Listing.Met.files? (reached.walk root) = some files ∧
          (∀ file ∈ files, b.accepts (Text.lossy file.name) → file.path.fits) ∧
          hits = (files.filter fun file => b.accepts (Text.lossy file.name)).map (·.hit) := by
  refine ⟨fun text => ⟨ControlBlock.parse_upper text, b.setName_upper text,
    b.setExtension_upper text⟩, b.accepts_upper, fun root host hits => ?_⟩
  simp only [search_eq_ok_iff, ControlBlock.accepts_guestName]

end GuestFiles
