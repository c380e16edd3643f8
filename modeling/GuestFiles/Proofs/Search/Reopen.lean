import GuestFiles.Proofs.ControlBlock.Filename
import GuestFiles.Proofs.Search.Entry

/-! # Opening what a search has shown

A guest that was shown a file can ask for it again, by the directory entry itself or by typing the
name that the entry shows. A star in the name on the host has become question marks, which accept
the star too. -/

namespace GuestFiles

open Host ControlBlock

namespace ControlBlock

theorem accepts_congr {a b : ControlBlock} (hname : a.name = b.name)
    (hextension : a.extension = b.extension) (candidate : String) :
    a.accepts candidate = b.accepts candidate := by
  simp only [accepts, hname, hextension]

/-- A typed segment selects itself, whatever stars and question marks it has. -/
theorem selects_self (width : Nat) (segment : List UInt8) : selects width segment segment := by
  induction width generalizing segment with
  | zero => rfl
  | succ width ih =>
      cases segment with
      | nil => simp [selects, ih]
      | cons b rest => simp [selects, ih]

/-- A block whose fields were filled from the segments of an upper-case ASCII text that fits accepts
the text. -/
theorem accepts_of_fill {b : ControlBlock} {text : String}
    (hname : b.name.toList = fill 8 (segments text).1)
    (hextension : b.extension.toList = fill 3 (segments text).2)
    (hupper : Text.upper text = text) (hfits : Fits text)
    (hascii : ∀ c ∈ text.toList, c.toNat < 0x80) : b.accepts text = true := by
  have hlt := segments_lt_of_ascii (hupper.symm ▸ hascii)
  have hbase := hfits.base
  have hrest := hfits.extension
  rw [accepts_iff, hname, hextension]
  rw [hupper] at hlt hbase hrest ⊢
  exact ⟨hfits, (forall₂_fill_iff_selects hlt.1 hbase).mpr (selects_self _ _),
    (forall₂_fill_iff_selects hlt.2 hrest).mpr (selects_self _ _)⟩

end ControlBlock

/-- The entry of a hit with an ASCII name accepts that name. Without a space in the name and without
a colon in its second place, so does the block of the name that the entry shows. -/
theorem entry_accepts_of_mem_search {pattern : ControlBlock} {root : Path} {host : Host}
    {hits : List Hit} (h : (search pattern root host).value = .ok hits) {hit : Hit}
    (hmem : hit ∈ hits) (hascii : ∀ c ∈ hit.name.toList, c.toNat < 0x80) :
    hit.entry.accepts hit.name = true ∧
      (' ' ∉ hit.name.toList → (Text.bytes hit.name)[1]? ≠ some colonByte →
        (ControlBlock.parse hit.entry.filename).accepts hit.name = true) := by
  obtain ⟨haccepts, file, hfile⟩ := accepted_of_mem_search h hmem
  have hupper : Text.upper hit.name = hit.name := by
    rw [hfile]
    exact Text.upper_upper _
  have hfits := ((accepts_iff pattern hit.name).mp haccepts).1
  obtain ⟨hname, hextension⟩ := Hit.toList_entry hupper
  have hentry := accepts_of_fill hname hextension hupper hfits hascii
  refine ⟨hentry, fun hspace hcolon => ?_⟩
  obtain ⟨hnamed, hextended⟩ :=
    fields_parse_filename hname hextension hupper hfits hascii hspace hcolon
  rw [accepts_congr hnamed hextended, hentry]

/-- A file whose name has a star is shown with question marks, and is found under them. -/
theorem entry_accepts_of_mem_search_star :
    (search (.parse "*.*") ⟨selfName⟩ (oneFile "a*b.c").host).value =
        .ok [⟨.ofText "./a*b.c", "A*B.C", 300⟩] ∧
      (Hit.entry ⟨.ofText "./a*b.c", "A*B.C", 300⟩).filename = "A???????.C" ∧
      (Hit.entry ⟨.ofText "./a*b.c", "A*B.C", 300⟩).accepts "A*B.C" = true ∧
      (ControlBlock.parse "A???????.C").accepts "A*B.C" = true := by
  have hvalue : (search (.parse "*.*") ⟨selfName⟩ (oneFile "a*b.c").host).value =
      .ok [⟨.ofText "./a*b.c", "A*B.C", 300⟩] := rfl
  have hshown : (Hit.entry ⟨.ofText "./a*b.c", "A*B.C", 300⟩).filename = "A???????.C" := by
    decide +kernel
  have hascii : ∀ c ∈ "A*B.C".toList, c.toNat < 0x80 := ascii_of_all (by decide)
  obtain ⟨hentry, htyped⟩ := entry_accepts_of_mem_search hvalue List.mem_cons_self hascii
  refine ⟨hvalue, hshown, hentry, ?_⟩
  rw [← hshown]
  exact htyped (by decide) (by decide +kernel)

end GuestFiles
