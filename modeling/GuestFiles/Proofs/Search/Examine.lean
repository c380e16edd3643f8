import GuestFiles.Proofs.Host.Lookup
import GuestFiles.Proofs.Host.Walk
import GuestFiles.Search.Walk

/-! # Looking at what a walk meets

A search takes what a walk meets one after the other. It keeps the files that its pattern accepts,
and ends at the first thing that it cannot go beyond. -/

namespace GuestFiles

open Host

variable {pattern : ControlBlock} {root : Path}

theorem ControlBlock.examine_value (pattern : ControlBlock) (candidate : String) :
    (pattern.examine candidate).value = pattern.accepts candidate := by
  rw [examine]
  split_ifs <;> simp only [Logged.bind_value, Logged.pure_value]

/-- The hit for a file that a walk meets. -/
def Host.Listing.FoundFile.hit (file : Listing.FoundFile) : Hit :=
  ⟨file.path, guestName file.name, file.size⟩

variable {file : Listing.FoundFile} {mets : List Listing.Met}

theorem examineFile_of_rejected (h : pattern.accepts (guestName file.name) = false) :
    (examineFile pattern root file).value = .ok none := by
  simp [examineFile, ControlBlock.examine_value, h]

theorem examineFile_of_fits (h : pattern.accepts (guestName file.name)) (hfits : file.path.fits) :
    (examineFile pattern root file).value = .ok (some file.hit) := by
  simp [examineFile, ControlBlock.examine_value, h, hfits, Listing.FoundFile.hit]

theorem examineFile_of_not_fits (h : pattern.accepts (guestName file.name))
    (hlong : ¬file.path.fits) :
    (examineFile pattern root file).value =
      .error (.traversal root file.path file.depth .nameTooLong) := by
  simp [examineFile, ControlBlock.examine_value, h, hlong]

/-- A hit is that of the file, and the file was accepted. -/
theorem accepted_of_examineFile {hit : Hit}
    (h : (examineFile pattern root file).value = .ok (some hit)) :
    pattern.accepts (guestName file.name) ∧ file.hit = hit := by
  by_cases haccepts : pattern.accepts (guestName file.name)
  · by_cases hfits : file.path.fits
    · rw [examineFile_of_fits haccepts hfits] at h
      exact ⟨haccepts, Option.some.inj (Except.ok.inj h)⟩
    · rw [examineFile_of_not_fits haccepts hfits] at h
      cases h
  · rw [examineFile_of_rejected (Bool.not_eq_true _ ▸ haccepts)] at h
    cases h

/-- A file is looked at without a failure unless it is accepted and its path is too long. -/
theorem examineFile_passes (h : ¬(pattern.accepts (guestName file.name) ∧ ¬file.path.fits)) :
    ∃ hit?, (examineFile pattern root file).value = .ok hit? := by
  by_cases haccepts : pattern.accepts (guestName file.name)
  · have hfits : file.path.fits := by simpa [haccepts] using h
    exact ⟨_, examineFile_of_fits haccepts hfits⟩
  · exact ⟨_, examineFile_of_rejected (Bool.not_eq_true _ ▸ haccepts)⟩

theorem examineAll_of_error {failure : Failure}
    (h : (examineFile pattern root file).value = .error failure) :
    (examineAll pattern root (.file file :: mets)).value = .error failure := by
  simp only [examineAll, Logged.bind_value, h, Logged.pure_value]

theorem examineAll_of_ok {hit? : Option Hit}
    (h : (examineFile pattern root file).value = .ok hit?) :
    (examineAll pattern root (.file file :: mets)).value =
      (examineAll pattern root mets).value.map (hit?.toList ++ ·) := by
  simp only [examineAll, Logged.bind_value, h, Logged.pure_value]

/-- The entry for the root directory is passed over, whether it is met as a link or not. -/
theorem examineAll_walk_root (entries : Listing) (linked : Bool) :
    examineAll pattern root (Reached.walk root ⟨.dir entries, linked⟩) =
      examineAll pattern root (entries.walk root 1) := by
  cases linked <;> rfl

/-- Where nothing was closed and the accepted files can be asked for, these are answered. -/
theorem examineAll_of_files? {files : List Listing.FoundFile}
    (hfiles : Listing.Met.files? mets = some files)
    (hfits : ∀ file ∈ files, pattern.accepts (guestName file.name) → file.path.fits) :
    (examineAll pattern root mets).value =
      .ok ((files.filter fun file => pattern.accepts (guestName file.name)).map (·.hit)) := by
  induction mets generalizing files with
  | nil =>
    obtain rfl := Option.some.inj hfiles
    rfl
  | cons met mets ih =>
    cases met with
    | link path depth => exact ih hfiles hfits
    | dir path depth => exact ih hfiles hfits
    | closed path depth => cases hfiles
    | file file =>
      obtain ⟨others, hothers, rfl⟩ := Option.map_eq_some_iff.mp hfiles
      obtain ⟨hself, hrest⟩ := List.forall_mem_cons.mp hfits
      by_cases haccepts : pattern.accepts (guestName file.name)
      · have hfile : (examineFile pattern root file).value = .ok (some file.hit) :=
          examineFile_of_fits haccepts (hself haccepts)
        rw [examineAll_of_ok hfile, ih hothers hrest]
        simp [haccepts, Except.map]
      · have hfile : (examineFile pattern root file).value = .ok none :=
          examineFile_of_rejected (Bool.not_eq_true _ ▸ haccepts)
        rw [examineAll_of_ok hfile, ih hothers hrest]
        simp [haccepts, Except.map]

/-- A search that goes through has met no closed directory, and no file that it accepts under a path
that is too long. -/
theorem exists_files_of_examineAll {hits : List Hit}
    (h : (examineAll pattern root mets).value = .ok hits) :
    ∃ files, Listing.Met.files? mets = some files ∧
      ∀ file ∈ files, pattern.accepts (guestName file.name) → file.path.fits := by
  induction mets generalizing hits with
  | nil => exact ⟨[], rfl, by simp⟩
  | cons met rest ih =>
    cases met with
    | link path depth => exact ih h
    | dir path depth => exact ih h
    | closed path depth => cases h
    | file file =>
      by_cases hstops : pattern.accepts (guestName file.name) ∧ ¬file.path.fits
      · rw [examineAll_of_error (examineFile_of_not_fits hstops.1 hstops.2)] at h
        cases h
      · obtain ⟨hit?, hfile⟩ := examineFile_passes hstops
        rw [examineAll_of_ok hfile] at h
        obtain ⟨hits, hhits, -⟩ := exists_of_map_eq_ok h
        obtain ⟨others, hothers, hfits⟩ := ih hhits
        have hself : pattern.accepts (guestName file.name) → file.path.fits := by
          intro haccepts
          by_contra hlong
          exact hstops ⟨haccepts, hlong⟩
        exact ⟨file :: others, Option.map_eq_some_iff.mpr ⟨others, hothers, rfl⟩,
          List.forall_mem_cons.mpr ⟨hself, hfits⟩⟩

theorem examineAll_eq_ok_iff {hits : List Hit} :
    (examineAll pattern root mets).value = .ok hits ↔
      ∃ files, Listing.Met.files? mets = some files ∧
        (∀ file ∈ files, pattern.accepts (guestName file.name) → file.path.fits) ∧
        hits = (files.filter fun file => pattern.accepts (guestName file.name)).map (·.hit) := by
  constructor
  · intro h
    obtain ⟨files, hfiles, hfits⟩ := exists_files_of_examineAll h
    rw [examineAll_of_files? hfiles hfits] at h
    exact ⟨files, hfiles, hfits, (Except.ok.inj h).symm⟩
  · rintro ⟨files, hfiles, hfits, rfl⟩
    exact examineAll_of_files? hfiles hfits

/-- What a search cannot go beyond: a directory that cannot be opened, or an accepted file whose
size cannot be asked for. -/
inductive Stops (pattern : ControlBlock) : Listing.Met → Path → Nat → Prop where
  | closed {path : Path} {depth : Nat} : Stops pattern (.closed path depth) path depth
  | file {file : Listing.FoundFile} (haccepts : pattern.accepts (guestName file.name))
    (hlong : ¬file.path.fits) : Stops pattern (.file file) file.path file.depth

/-- A search that meets something it cannot go beyond fails there, or at something like it met
before. -/
theorem examineAll_of_stops {met : Listing.Met} {path : Path} {depth : Nat} (hmem : met ∈ mets)
    (hstops : Stops pattern met path depth) :
    ∃ first ∈ mets, ∃ path depth, Stops pattern first path depth ∧
      (examineAll pattern root mets).value = .error (.traversal root path depth .nameTooLong) := by
  induction mets with
  | nil => exact absurd hmem List.not_mem_nil
  | cons head rest ih =>
    -- What does not stop the search itself is met before what does.
    have hrest (hpasses : ∀ path depth, ¬Stops pattern head path depth) : met ∈ rest :=
      (List.mem_cons.mp hmem).resolve_left fun heq => hpasses _ _ (heq ▸ hstops)
    cases head with
    | link _ _ =>
      obtain ⟨first, hfirst, hfails⟩ := ih (hrest fun _ _ h => nomatch h)
      exact ⟨first, List.mem_cons_of_mem _ hfirst, hfails⟩
    | dir _ _ =>
      obtain ⟨first, hfirst, hfails⟩ := ih (hrest fun _ _ h => nomatch h)
      exact ⟨first, List.mem_cons_of_mem _ hfirst, hfails⟩
    | closed path depth => exact ⟨_, List.mem_cons_self, path, depth, .closed, rfl⟩
    | file file =>
      by_cases hfile : pattern.accepts (guestName file.name) ∧ ¬file.path.fits
      · obtain ⟨haccepts, hlong⟩ := hfile
        exact ⟨_, List.mem_cons_self, _, _, .file haccepts hlong,
          examineAll_of_error (examineFile_of_not_fits haccepts hlong)⟩
      · obtain ⟨hit?, hvalue⟩ := examineFile_passes hfile
        obtain ⟨first, hfirst, path, depth, hfails, herror⟩ := ih <| hrest fun _ _ h =>
          match h with
          | .file haccepts hlong => hfile ⟨haccepts, hlong⟩
        refine ⟨first, List.mem_cons_of_mem _ hfirst, path, depth, hfails, ?_⟩
        rw [examineAll_of_ok hvalue, herror]
        rfl

/-- Every hit was accepted under its name, which is the guest name of a file. -/
theorem accepted_of_mem_examineAll {hits : List Hit}
    (h : (examineAll pattern root mets).value = .ok hits) {hit : Hit} (hmem : hit ∈ hits) :
    pattern.accepts hit.name ∧ ∃ name, hit.name = guestName name := by
  induction mets generalizing hits with
  | nil =>
    obtain rfl := Except.ok.inj h
    exact absurd hmem List.not_mem_nil
  | cons head rest ih =>
    cases head with
    | link path depth => exact ih h hmem
    | dir path depth => exact ih h hmem
    | closed path depth => cases h
    | file file =>
      cases hfile : (examineFile pattern root file).value with
      | error failure =>
        rw [examineAll_of_error hfile] at h
        cases h
      | ok hit? =>
        rw [examineAll_of_ok hfile] at h
        obtain ⟨others, hothers, rfl⟩ := exists_of_map_eq_ok h
        rcases List.mem_append.mp hmem with hfirst | hmem
        · rw [Option.mem_toList] at hfirst
          obtain ⟨haccepts, rfl⟩ := accepted_of_examineFile (hfirst ▸ hfile)
          exact ⟨haccepts, file.name, rfl⟩
        · exact ih hothers hmem

/-- A search that fails says where, and nothing else goes wrong. -/
theorem traversal_of_examineAll {failure : Failure}
    (h : (examineAll pattern root mets).value = .error failure) :
    ∃ path depth fault, failure = .traversal root path depth fault := by
  induction mets with
  | nil => cases h
  | cons head rest ih =>
    cases head with
    | link path depth => exact ih h
    | dir path depth => exact ih h
    | closed path depth =>
      obtain rfl := Except.error.inj h
      exact ⟨path, depth, .nameTooLong, rfl⟩
    | file file =>
      by_cases hlong : pattern.accepts (guestName file.name) ∧ ¬file.path.fits
      · rw [examineAll_of_error (examineFile_of_not_fits hlong.1 hlong.2)] at h
        obtain rfl := Except.error.inj h
        exact ⟨file.path, file.depth, .nameTooLong, rfl⟩
      · obtain ⟨hit?, hvalue⟩ := examineFile_passes hlong
        rw [examineAll_of_ok hvalue] at h
        cases hrest : (examineAll pattern root rest).value with
        | error other =>
          rw [hrest] at h
          obtain rfl := Except.error.inj h
          exact ih hrest
        | ok hits =>
          rw [hrest] at h
          cases h

/-! ## From a root -/

theorem search_of_error {host : Host} {fault : Fault} (h : host root = .error fault) :
    (search pattern root host).value = .error (.traversal root root 0 fault) := by
  simp only [search, h, Logged.pure_value]

theorem search_of_ok {host : Host} {reached : Reached} (h : host root = .ok reached) :
    (search pattern root host).value = (examineAll pattern root (reached.walk root)).value := by
  simp only [search, h]

/-- A search answers the accepted files that its walk meets, in the order of the walk, when it
reaches its root and nothing on the walk stops it. -/
theorem search_eq_ok_iff {host : Host} {hits : List Hit} :
    (search pattern root host).value = .ok hits ↔
      ∃ (reached : Reached) (files : List Listing.FoundFile), host root = .ok reached ∧
        Listing.Met.files? (reached.walk root) = some files ∧
        (∀ file ∈ files, pattern.accepts (guestName file.name) → file.path.fits) ∧
        hits = (files.filter fun file => pattern.accepts (guestName file.name)).map (·.hit) := by
  cases hroot : host root with
  | error fault => simp [search_of_error hroot]
  | ok reached =>
    rw [search_of_ok hroot, examineAll_eq_ok_iff]
    simp

theorem traversal_of_search {host : Host} {failure : Failure}
    (h : (search pattern root host).value = .error failure) :
    ∃ path depth fault, failure = .traversal root path depth fault := by
  cases hroot : host root with
  | error fault =>
    rw [search_of_error hroot] at h
    obtain rfl := Except.error.inj h
    exact ⟨root, 0, fault, rfl⟩
  | ok reached =>
    rw [search_of_ok hroot] at h
    exact traversal_of_examineAll h

theorem accepted_of_mem_search {host : Host} {hits : List Hit}
    (h : (search pattern root host).value = .ok hits) {hit : Hit} (hmem : hit ∈ hits) :
    pattern.accepts hit.name ∧ ∃ name, hit.name = guestName name := by
  cases hroot : host root with
  | error fault =>
    rw [search_of_error hroot] at h
    cases h
  | ok reached =>
    rw [search_of_ok hroot] at h
    exact accepted_of_mem_examineAll h hmem

end GuestFiles
