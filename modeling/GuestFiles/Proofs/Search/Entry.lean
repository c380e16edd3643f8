import GuestFiles.Proofs.ControlBlock.Fields
import GuestFiles.Proofs.Search.Examine

/-! # The entries of hits

The directory entry of a hit is typed from the name of the hit, while the search has compared the
padded segments of that name. The two rows of bytes are the same unless the name has a star: typing
expands it, and a name on the host keeps it. -/

namespace GuestFiles

open Host ControlBlock

namespace ControlBlock

variable {width : Nat} {segment : List UInt8}

theorem fill_eq_padded_iff (h : segment.length ≤ width) :
    fill width segment = padded width segment ↔ starByte ∉ segment := by
  refine ⟨fun heq hstar => ?_, fill_eq_padded h⟩
  obtain ⟨i, hfill, hpad⟩ := exists_any_of_star_mem h hstar
  rw [heq, hpad] at hfill
  exact absurd hfill (by decide)

/-- Without a star, and only then, filling shows question marks where the segment has them. -/
theorem any_of_fill_iff (h : segment.length ≤ width) :
    (∀ i : Nat, (fill width segment)[i]? = some anyByte →
      (padded width segment)[i]? = some anyByte) ↔ starByte ∉ segment := by
  constructor
  · intro hany hstar
    obtain ⟨i, hfill, hpad⟩ := exists_any_of_star_mem h hstar
    rw [hany i hfill] at hpad
    exact absurd hpad (by decide)
  · intro hstar i hfill
    rwa [fill_eq_padded h hstar] at hfill

end ControlBlock

theorem Hit.name_entry (hit : Hit) :
    hit.entry.name = field 8 (segments (Text.upper hit.name)).1 := by
  simp only [Hit.entry, setName, setExtension, setRawName, setRawExtension, setRc, setRaw,
    segments_upper]

theorem Hit.extension_entry (hit : Hit) :
    hit.entry.extension = field 3 (segments (Text.upper hit.name)).2 := by
  simp only [Hit.entry, setName, setExtension, setRawName, setRawExtension, setRc, setRaw,
    segments_upper]

/-- Typing the two parts of an upper-case name fills the fields with its segments. -/
theorem Hit.toList_entry {hit : Hit} (h : Text.upper hit.name = hit.name) :
    hit.entry.name.toList = fill 8 (segments hit.name).1 ∧
      hit.entry.extension.toList = fill 3 (segments hit.name).2 := by
  rw [hit.name_entry, hit.extension_entry, h]
  exact ⟨rfl, rfl⟩

/-- The entry of a hit holds the bytes under which the hit was matched, and no question mark that
the name does not have, exactly when the name has no star. -/
theorem entry_eq_matched_iff {pattern : ControlBlock} {root : Path} {host : Host} {hits : List Hit}
    (h : (search pattern root host).value = .ok hits) {hit : Hit} (hmem : hit ∈ hits) :
    ∃ name extension, fieldsOf? hit.name = some (name, extension) ∧
      name.toList = padded 8 (segments hit.name).1 ∧
      extension.toList = padded 3 (segments hit.name).2 ∧
      (hit.entry.name = name ∧ hit.entry.extension = extension ↔ '*' ∉ hit.name.toList) ∧
      ((∀ i : Nat,
          (hit.entry.name.toList[i]? = some anyByte → name.toList[i]? = some anyByte) ∧
            (hit.entry.extension.toList[i]? = some anyByte →
              extension.toList[i]? = some anyByte)) ↔
        '*' ∉ hit.name.toList) := by
  obtain ⟨haccepts, file, hfile⟩ := accepted_of_mem_search h hmem
  have hupper : Text.upper hit.name = hit.name := by
    rw [hfile]
    exact Text.upper_upper _
  have hfits := ((accepts_iff pattern hit.name).mp haccepts).1
  obtain ⟨name, extension, hfields, hname, hextension⟩ := exists_fieldsOf?_of_fits hfits
  obtain ⟨hbase, hrest⟩ := hfits
  rw [hupper] at hname hextension hbase hrest
  obtain ⟨hentryName, hentryExtension⟩ := Hit.toList_entry hupper
  refine ⟨name, extension, hfields, hname, hextension, ?_, ?_⟩
  · rw [← Vector.toList_inj, ← Vector.toList_inj, hname, hextension, hentryName, hentryExtension,
      fill_eq_padded_iff hbase, fill_eq_padded_iff hrest, star_mem_iff, not_or]
  · rw [forall_and, hname, hextension, hentryName, hentryExtension, any_of_fill_iff hbase,
      any_of_fill_iff hrest, star_mem_iff, not_or]

/-- A working directory with one file. -/
def oneFile (name : String) : Disk :=
  .around (.file (Text.bytes name) (.zeros 300) .empty)

theorem entry_eq_matched_question_mark :
    (search (.parse "a*.c") ⟨selfName⟩ (oneFile "a?b.c").host).value =
        .ok [⟨.ofText "./a?b.c", "A?B.C", 300⟩] ∧
      (Hit.entry ⟨.ofText "./a?b.c", "A?B.C", 300⟩).name.toList = Text.bytes "A?B     " := by
  have hvalue : (search (.parse "a*.c") ⟨selfName⟩ (oneFile "a?b.c").host).value =
      .ok [⟨.ofText "./a?b.c", "A?B.C", 300⟩] := rfl
  obtain ⟨name, extension, -, hname, -, hentry, -⟩ :=
    entry_eq_matched_iff hvalue List.mem_cons_self
  have hmatched := hentry.mpr (by decide)
  refine ⟨hvalue, ?_⟩
  rw [hmatched.1, hname]
  decide +kernel

/-- A star in the name of a file shows as question marks in its entry. -/
theorem entry_of_star :
    (search (.parse "*.*") ⟨selfName⟩ (oneFile "a*b").host).value =
        .ok [⟨.ofText "./a*b", "A*B", 300⟩] ∧
      (fieldsOf? "A*B").map (·.1.toList) = some (Text.bytes "A*B     ") ∧
      (Hit.entry ⟨.ofText "./a*b", "A*B", 300⟩).name.toList = Text.bytes "A???????" :=
  ⟨rfl, by decide +kernel, by decide +kernel⟩

end GuestFiles
