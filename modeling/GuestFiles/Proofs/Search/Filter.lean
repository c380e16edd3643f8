import GuestFiles.Proofs.ControlBlock.Wildcard
import GuestFiles.Proofs.Search.Exact

/-! # Patterns as filters

Two stars accept every name that fits, and no other pattern accepts more. So a search for a pattern
answers those hits of the search for two stars whose names the pattern accepts, in the same order,
and both fail at the same place. There is one difference: a search asks for the size of the files
that its pattern accepts, and of no others. Where the path of a file is too long to be asked for,
the search for two stars ends, and a search whose pattern does not accept the file goes on. -/

namespace GuestFiles

open Host ControlBlock

theorem ControlBlock.accepts_stars_iff (candidate : String) :
    (parse "*.*").accepts candidate = true ↔ Fits candidate := by
  have hname : (parse "*.*").name.toList = List.replicate 8 anyByte := by decide +kernel
  have hextension : (parse "*.*").extension.toList = List.replicate 3 anyByte := by decide +kernel
  rw [accepts_iff, hname, hextension]
  constructor
  · exact And.left
  · intro hfits
    have hbase := forall₂_any (padded 8 (segments (Text.upper candidate)).1)
    have hrest := forall₂_any (padded 3 (segments (Text.upper candidate)).2)
    rw [length_padded hfits.base] at hbase
    rw [length_padded hfits.extension] at hrest
    exact ⟨hfits, hbase, hrest⟩

/-- The outcome of a search for `pattern` beside that of one for two stars over the same walk. -/
inductive Narrows (pattern : ControlBlock) (root : Path) (mets : List Listing.Met) :
    Except Failure (List Hit) → Except Failure (List Hit) → Prop where
  | failed (path : Path) (depth : Nat) (fault : Fault) :
    Narrows pattern root mets (.error (.traversal root path depth fault))
      (.error (.traversal root path depth fault))
  | found (hits : List Hit) :
    Narrows pattern root mets (.ok (hits.filter fun hit => pattern.accepts hit.name)) (.ok hits)
  /-- The search for two stars ends at a file that `pattern` does not accept, and the search for
  `pattern` goes on after it. -/
  | unasked {front rest : List Listing.Met} {file : Listing.FoundFile} {hits : List Hit}
    (hwalk : mets = front ++ .file file :: rest)
    (hfront : (examineAll (parse "*.*") root front).value = .ok hits)
    (hfits : Fits (guestName file.name))
    (hrejected : pattern.accepts (guestName file.name) = false) (hlong : ¬file.path.fits) :
    Narrows pattern root mets
      ((examineAll pattern root rest).value.map
        ((hits.filter fun hit => pattern.accepts hit.name) ++ ·))
      (.error (.traversal root file.path file.depth .nameTooLong))

section Walk

variable {pattern : ControlBlock} {root : Path} {file : Listing.FoundFile}
  {mets : List Listing.Met} {narrow wide : Except Failure (List Hit)}

theorem map_append_map_append (outcome : Except Failure (List Hit)) (front hits : List Hit) :
    (outcome.map (hits ++ ·)).map (front ++ ·) = outcome.map ((front ++ hits) ++ ·) := by
  cases outcome with
  | error failure => rfl
  | ok more => simp only [Except.map, List.append_assoc]

/-- What neither search looks at comes before what both do after it. -/
theorem Narrows.skip {met : Listing.Met}
    (hmet : ∀ mets, examineAll (parse "*.*") root (met :: mets) =
      examineAll (parse "*.*") root mets)
    (h : Narrows pattern root mets narrow wide) :
    Narrows pattern root (met :: mets) narrow wide := by
  cases h with
  | failed path depth fault => exact .failed path depth fault
  | found hits => exact .found hits
  | @unasked front _ _ _ hwalk hfront hfits hrejected hlong =>
    exact .unasked (congrArg (met :: ·) hwalk) ((hmet front).symm ▸ hfront) hfits hrejected hlong

/-- A file that two stars pass comes before what both searches do after it. -/
theorem Narrows.pass {hit? : Option Hit}
    (hfile : (examineFile (parse "*.*") root file).value = .ok hit?)
    (h : Narrows pattern root mets narrow wide) :
    Narrows pattern root (.file file :: mets)
      (narrow.map ((hit?.toList.filter fun hit => pattern.accepts hit.name) ++ ·))
      (wide.map (hit?.toList ++ ·)) := by
  cases h with
  | failed path depth fault => exact .failed path depth fault
  | found hits =>
    simp only [Except.map, ← List.filter_append]
    exact .found (hit?.toList ++ hits)
  | @unasked front rest other hits hwalk hfront hfits hrejected hlong =>
    have hpassed : (examineAll (parse "*.*") root (.file file :: front)).value =
        .ok (hit?.toList ++ hits) := by
      rw [examineAll_of_ok hfile, hfront]
      rfl
    rw [map_append_map_append, ← List.filter_append]
    exact .unasked (congrArg (.file file :: ·) hwalk) hpassed hfits hrejected hlong

/-- A file stops both searches, or only that for two stars, or neither. -/
theorem Narrows.step
    (h : Narrows pattern root mets (examineAll pattern root mets).value
      (examineAll (parse "*.*") root mets).value) :
    Narrows pattern root (.file file :: mets) (examineAll pattern root (.file file :: mets)).value
      (examineAll (parse "*.*") root (.file file :: mets)).value := by
  -- Where the name does not fit, neither search looks further at the file.
  by_cases hfits : Fits (guestName file.name)
  · have hstars := (accepts_stars_iff (guestName file.name)).mpr hfits
    by_cases hshort : file.path.fits
    · have hstep := h.pass (examineFile_of_fits hstars hshort)
      rw [examineAll_of_ok (examineFile_of_fits hstars hshort)]
      by_cases haccepts : pattern.accepts (guestName file.name)
      · rw [examineAll_of_ok (examineFile_of_fits haccepts hshort)]
        simpa [Listing.FoundFile.hit, haccepts] using hstep
      · rw [Bool.not_eq_true] at haccepts
        rw [examineAll_of_ok (examineFile_of_rejected haccepts)]
        simpa [Listing.FoundFile.hit, haccepts] using hstep
    · rw [examineAll_of_error (examineFile_of_not_fits hstars hshort)]
      by_cases haccepts : pattern.accepts (guestName file.name)
      · rw [examineAll_of_error (examineFile_of_not_fits haccepts hshort)]
        exact .failed file.path file.depth .nameTooLong
      · rw [Bool.not_eq_true] at haccepts
        rw [examineAll_of_ok (examineFile_of_rejected haccepts)]
        exact .unasked (List.nil_append _).symm rfl hfits haccepts hshort
  · have hstars : (parse "*.*").accepts (guestName file.name) = false := by
      rw [← Bool.not_eq_true, accepts_stars_iff]
      exact hfits
    have hrejected : pattern.accepts (guestName file.name) = false := by
      rw [← Bool.not_eq_true]
      exact fun haccepts => hfits (fits_of_accepts haccepts)
    rw [examineAll_of_ok (examineFile_of_rejected hstars),
      examineAll_of_ok (examineFile_of_rejected hrejected)]
    exact h.pass (examineFile_of_rejected hstars)

theorem examineAll_narrows (mets : List Listing.Met) :
    Narrows pattern root mets (examineAll pattern root mets).value
      (examineAll (parse "*.*") root mets).value := by
  induction mets with
  | nil => exact .found []
  | cons met rest ih =>
    cases met with
    | link path depth => exact ih.skip fun _ => rfl
    | dir path depth => exact ih.skip fun _ => rfl
    | closed path depth => exact .failed path depth .nameTooLong
    | file file => exact ih.step

end Walk

/-- A pattern only filters: where the search for two stars answers hits, the search for the pattern
answers those of them whose names it accepts, and where both fail they fail alike. The search for
two stars alone can end at a file that the pattern does not accept and whose path is too long; up to
there both do the same. Every name that is answered has at most 8 bytes before its first dot and at
most 3 after it. -/
theorem search_narrows (pattern : ControlBlock) (root : Path) (host : Host) :
    (match host root with
      | .error fault =>
        (search pattern root host).value = .error (.traversal root root 0 fault) ∧
          (search (.parse "*.*") root host).value = .error (.traversal root root 0 fault)
      | .ok reached =>
        Narrows pattern root (reached.walk root) (search pattern root host).value
          (search (.parse "*.*") root host).value) ∧
      ∀ hits, (search pattern root host).value = .ok hits → ∀ hit ∈ hits,
        (segments hit.name).1.length ≤ 8 ∧ (segments hit.name).2.length ≤ 3 := by
  constructor
  · cases hroot : host root with
    | error fault => exact ⟨search_of_error hroot, search_of_error hroot⟩
    | ok reached =>
      simp only [search_of_ok hroot]
      exact examineAll_narrows (reached.walk root)
  · intro hits hvalue hit hmem
    obtain ⟨haccepts, name, hname⟩ := accepted_of_mem_search hvalue hmem
    have hupper : Text.upper hit.name = hit.name := by
      rw [hname]
      exact Text.upper_upper _
    obtain ⟨hbase, hextension⟩ := fits_of_accepts haccepts
    rw [hupper] at hbase hextension
    exact ⟨hbase, hextension⟩

/-- A working directory with three files, one of which has too long a name. -/
def threeFiles : Disk :=
  .around (.file (Text.bytes "a.com") (.zeros 1)
    (.file (Text.bytes "b.text") (.zeros 2) (.file (Text.bytes "c.txt") (.zeros 3) .empty)))

theorem search_narrows_three_files :
    (search (.parse "*.*") ⟨selfName⟩ threeFiles.host).value =
        .ok [⟨.ofText "./a.com", "A.COM", 1⟩, ⟨.ofText "./c.txt", "C.TXT", 3⟩] ∧
      (search (.parse "c*.t*") ⟨selfName⟩ threeFiles.host).value =
        .ok [⟨.ofText "./c.txt", "C.TXT", 3⟩] ∧
      (segments "C.TXT").1.length ≤ 8 ∧ (segments "C.TXT").2.length ≤ 3 := by
  have hall : (search (.parse "*.*") ⟨selfName⟩ threeFiles.host).value =
      .ok [⟨.ofText "./a.com", "A.COM", 1⟩, ⟨.ofText "./c.txt", "C.TXT", 3⟩] := rfl
  obtain ⟨hnarrow, hnames⟩ := search_narrows (.parse "c*.t*") ⟨selfName⟩ threeFiles.host
  -- The root is reached, so the outcomes are compared along its walk.
  change Narrows _ _ _ _ _ at hnarrow
  have hsome : (search (.parse "c*.t*") ⟨selfName⟩ threeFiles.host).value =
      .ok [⟨.ofText "./c.txt", "C.TXT", 3⟩] := by
    rw [hall] at hnarrow
    generalize hvalue : (search (.parse "c*.t*") ⟨selfName⟩ threeFiles.host).value = outcome
      at hnarrow
    cases hnarrow with
    | found => exact congrArg Except.ok (by decide +kernel)
  have hnamed := hnames _ hsome _ List.mem_cons_self
  exact ⟨hall, hsome, hnamed⟩

theorem examineAll_walk_rejected {pattern : ControlBlock} {root : Path} {name : Name}
    {content : Content} (h : pattern.accepts (guestName name) = false) :
    (examineAll pattern root ((Listing.file name content .empty).walk root 1)).value = .ok [] := by
  let file : Listing.FoundFile := ⟨root.join name, 1, name, content.size⟩
  have hfile : (examineFile pattern root file).value = .ok none := examineFile_of_rejected h
  exact examineAll_of_ok hfile

/-- Below a root of 4095 bytes, a search that does not accept the file goes through, and the search
for two stars fails at the file. -/
theorem search_unasked_long_root :
    (search (.parse "B") longRoot smallTree.host).value = .ok [] ∧
      (search (.parse "*.*") longRoot smallTree.host).value =
        .error (.traversal longRoot (longRoot.below [[0x41]]) 1 .nameTooLong) := by
  have hlong : ¬(longRoot.below [[0x41]]).fits := by
    have hstem := longRoot.length_le_length_stem
    have hlength : longRoot.bytes.length = 4095 := by simp [longRoot, length_dots]
    simp only [Path.fits, Path.below, List.intercalate_singleton, List.length_append,
      List.length_singleton, Path.maxLength, decide_eq_true_eq]
    omega
  have hstars : (ControlBlock.parse "*.*").accepts (guestName [0x41]) := by decide +kernel
  have hrejected : (ControlBlock.parse "B").accepts (guestName [0x41]) = false := by
    decide +kernel
  rw [search_of_ok host_longRoot, search_of_ok host_longRoot]
  constructor
  · exact examineAll_walk_rejected hrejected
  · exact examineAll_walk_file hstars hlong

end GuestFiles
