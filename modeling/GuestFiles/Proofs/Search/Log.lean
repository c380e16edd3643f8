import GuestFiles.Proofs.Host.Walk
import GuestFiles.Proofs.ControlBlock.Fields
import GuestFiles.Proofs.Search.Examine
import Mathlib.Data.List.Perm.Basic

/-! # What a search logs

A search that goes through leaves one line for each regular file it meets, which says that the file
matches or that it is skipped, and one line more for each name that is too long for its fields.
Directories and links leave no line. -/

namespace GuestFiles

open Host ControlBlock

/-! ## Lines -/

/-- The line for a file that the pattern accepts. -/
def Hit.matchLine (pattern : ControlBlock) (hit : Hit) : LogLine :=
  ⟨.debug, hit.host.shown ++ " matches " ++ pattern.filename⟩

/-- The line for a file that is not answered. -/
def Host.Listing.FoundFile.skipLine (file : Listing.FoundFile) : LogLine :=
  ⟨.trace, "skip " ++ file.path.shown⟩

/-- The line for a name that is too long for its fields. -/
def longLine (name : String) : LogLine :=
  ⟨.trace, name ++ " is not an 8.3 name"⟩

/-- Whether a name has more than 8 bytes before its first dot, or more than 3 after it. -/
def isLong (name : String) : Bool :=
  8 < (segments name).1.length || 3 < (segments name).2.length

/-- Whether a line tells that something matched. -/
def LogLine.isMatch (line : LogLine) : Bool :=
  line.level == .debug

/-- Whether a line tells that a file was skipped. -/
def LogLine.isSkip (line : LogLine) : Bool :=
  line.level == .trace && "skip ".toList.isPrefixOf line.message.toList

/-- A guest name is in upper case already, so it is too long exactly when it does not fit. -/
theorem isLong_guestName_iff (name : Name) :
    isLong (guestName name) ↔ ¬Fits (guestName name) := by
  have hupper : Text.upper (guestName name) = guestName name := Text.upper_upper _
  have hfits : Fits (guestName name) ↔ (segments (guestName name)).1.length ≤ 8 ∧
      (segments (guestName name)).2.length ≤ 3 := by
    constructor
    · rintro ⟨hbase, hextension⟩
      exact ⟨hupper ▸ hbase, hupper ▸ hextension⟩
    · rintro ⟨hbase, hextension⟩
      exact ⟨hupper.symm ▸ hbase, hupper.symm ▸ hextension⟩
  simp only [hfits, isLong, Bool.or_eq_true, decide_eq_true_eq]
  omega

@[simp] theorem isMatch_matchLine (pattern : ControlBlock) (hit : Hit) :
    (hit.matchLine pattern).isMatch = true := rfl

@[simp] theorem isMatch_skipLine (file : Listing.FoundFile) : file.skipLine.isMatch = false := rfl

@[simp] theorem isMatch_longLine (name : String) : (longLine name).isMatch = false := rfl

@[simp] theorem isSkip_matchLine (pattern : ControlBlock) (hit : Hit) :
    (hit.matchLine pattern).isSkip = false := rfl

@[simp] theorem isSkip_skipLine (file : Listing.FoundFile) : file.skipLine.isSkip = true := by
  simp [LogLine.isSkip, Listing.FoundFile.skipLine]

/-- No guest name begins like the line of a skipped file, for guest names have no small letters. -/
@[simp] theorem isSkip_longLine (name : Name) : (longLine (guestName name)).isSkip = false := by
  have hsmall : 's' ∉ (guestName name).toList := by
    intro hmem
    have hkept := Text.upperChar_of_mem_upper hmem
    revert hkept
    decide
  rw [LogLine.isSkip, longLine, String.toList_append, Bool.and_eq_false_iff]
  right
  cases hname : (guestName name).toList with
  | nil => decide
  | cons c rest =>
      rw [hname, List.mem_cons, not_or] at hsmall
      simp [List.isPrefixOf, hsmall.1]

/-! ## The log of a walk -/

section Walk

variable {pattern : ControlBlock} {root : Path} {file : Listing.FoundFile}
  {files : List Listing.FoundFile}

theorem isNone_fieldsOf?_iff (candidate : String) :
    (fieldsOf? candidate).isNone ↔ ¬Fits candidate := by
  constructor
  · intro hnone hfits
    obtain ⟨name, extension, heq, -⟩ := exists_fieldsOf?_of_fits hfits
    simp [heq] at hnone
  · intro hfits
    cases heq : fieldsOf? candidate with
    | none => rfl
    | some fields => exact absurd (fieldsOf?_eq_some_iff.mp heq).1 hfits

theorem log_examine (pattern : ControlBlock) (name : Name) :
    (pattern.examine (guestName name)).log =
      if isLong (guestName name) then [longLine (guestName name)] else [] := by
  simp only [examine, isNone_fieldsOf?_iff, ← isLong_guestName_iff]
  split <;> rfl

/-- The lines for a file, in their order. -/
def linesFor (pattern : ControlBlock) (file : Listing.FoundFile) : List LogLine :=
  (if pattern.accepts (guestName file.name) then [file.hit.matchLine pattern] else []) ++
    ((if isLong (guestName file.name) then [longLine (guestName file.name)] else []) ++
      if !pattern.accepts (guestName file.name) then [file.skipLine] else [])

theorem isLong_of_accepts (h : pattern.accepts (guestName file.name)) :
    isLong (guestName file.name) = false := by
  rw [← Bool.not_eq_true, isLong_guestName_iff, not_not]
  exact fits_of_accepts h

theorem log_examineFile (h : pattern.accepts (guestName file.name) → file.path.fits) :
    (examineFile pattern root file).log = linesFor pattern file := by
  by_cases haccepts : pattern.accepts (guestName file.name)
  · simp [examineFile, examine_value, log_examine, linesFor, haccepts, h haccepts,
      isLong_of_accepts haccepts, Hit.matchLine, Listing.FoundFile.hit]
  · simp [examineFile, examine_value, log_examine, linesFor, haccepts,
      Listing.FoundFile.skipLine]

/-- Files leave their lines one after the other, and links and directories leave none. -/
theorem log_examineAll {mets : List Listing.Met} (hfiles : Listing.Met.files? mets = some files)
    (hfits : ∀ file ∈ files, pattern.accepts (guestName file.name) → file.path.fits) :
    (examineAll pattern root mets).log = files.flatMap (linesFor pattern) := by
  induction mets generalizing files with
  | nil =>
      obtain rfl := Option.some.inj hfiles
      rfl
  | cons met mets ih =>
      cases met with
      | link path depth => exact ih hfiles hfits
      | dir path depth => exact ih hfiles hfits
      | closed path depth => cases hfiles
      | file file =>
          obtain ⟨others, hothers, rfl⟩ := Option.map_eq_some_iff.mp hfiles
          obtain ⟨hfile, hrest⟩ := List.forall_mem_cons.mp hfits
          have hpasses : ¬(pattern.accepts (guestName file.name) ∧ ¬file.path.fits) :=
            fun ⟨haccepts, hlong⟩ => hlong (hfile haccepts)
          obtain ⟨hit?, hvalue⟩ : ∃ hit?, (examineFile pattern root file).value = .ok hit? :=
            examineFile_passes hpasses
          simp only [examineAll, Logged.bind_log, log_examineFile hfile, hvalue, Logged.pure_log,
            List.append_nil, ih hothers hrest, List.flatMap_cons]

end Walk

/-! ## Lines by their kind -/

theorem flatMap_if {α β : Type} (p : α → Bool) (f : α → β) (l : List α) :
    (l.flatMap fun a => if p a then [f a] else []) = (l.filter p).map f := by
  induction l with
  | nil => rfl
  | cons a l ih => by_cases h : p a <;> simp [List.flatMap_cons, h, ih]

/-- The lines that files leave, put in the order of their kinds: the matches, the names that are too
long, and the files that are skipped. -/
theorem flatMap_linesFor_perm (pattern : ControlBlock) (files : List Listing.FoundFile) :
    (files.flatMap (linesFor pattern)).Perm
      ((files.filter fun file => pattern.accepts (guestName file.name)).map
          (fun file => file.hit.matchLine pattern) ++
        ((files.filter fun file => isLong (guestName file.name)).map
            (fun file => longLine (guestName file.name)) ++
          (files.filter fun file => !pattern.accepts (guestName file.name)).map (·.skipLine))) := by
  have hrest := List.flatMap_append_perm files
    (fun file => if isLong (guestName file.name) then [longLine (guestName file.name)] else [])
    (fun file => if !pattern.accepts (guestName file.name) then [file.skipLine] else [])
  rw [← flatMap_if, ← flatMap_if, ← flatMap_if]
  exact ((hrest.append_left _).trans (List.flatMap_append_perm files _ _)).symm

/-! ## The files of a walk -/

/-- A regular file that is reached from a root: the root itself, or a file to which a way through
real directories leads from it. -/
inductive Regular (root : Path) : Reached → Listing.FoundFile → Prop where
  | root (content : Content) :
    Regular root ⟨.file content, false⟩ ⟨root, 0, root.lastName, content.size⟩
  | below {entries : Listing} {linked : Bool} {file : FileBelow}
    (h : entries.NodeAt file.way (.file file.content)) :
    Regular root ⟨.dir entries, linked⟩ (file.found root 1)

theorem regular_file_iff {root : Path} {content : Content} {linked : Bool}
    {file : Listing.FoundFile} :
    Regular root ⟨.file content, linked⟩ file ↔
      linked = false ∧ file = ⟨root, 0, root.lastName, content.size⟩ := by
  constructor
  · rintro ⟨⟩
    exact ⟨rfl, rfl⟩
  · rintro ⟨rfl, rfl⟩
    exact .root content

theorem regular_dir_iff {root : Path} {entries : Listing} (hwf : entries.WellFormed)
    {linked : Bool} {file : Listing.FoundFile} :
    Regular root ⟨.dir entries, linked⟩ file ↔ file ∈ entries.files.map (·.found root 1) := by
  rw [List.mem_map]
  constructor
  · rintro ⟨⟩
    next below h => exact ⟨below, (Listing.mem_files_iff hwf).mpr h, rfl⟩
  · rintro ⟨below, hmem, rfl⟩
    exact .below ((Listing.mem_files_iff hwf).mp hmem)

theorem nodup_found {root : Path} {entries : Listing} (hwf : entries.WellFormed) :
    (entries.files.map (·.found root 1)).Nodup := by
  refine (Listing.nodup_files hwf).map_on fun a ha b hb heq => ?_
  have hata := (Listing.mem_files_iff hwf).mp ha
  have hatb := (Listing.mem_files_iff hwf).mp hb
  have hway : a.way = b.way := by
    have hpath : (a.found root 1).path = (b.found root 1).path := congrArg _ heq
    exact Path.below_inj (hwf.proper hata) (hwf.proper hatb) a.way_ne_nil b.way_ne_nil hpath
  have hcontent : Node.file a.content = Node.file b.content := hata.unique (hway ▸ hatb)
  exact FileBelow.ext_way hway (Node.file.inj hcontent)

/-- A walk that can open all directories meets the regular files, each once. -/
theorem regular_of_walk {root : Path} {reached : Reached} {files : List Listing.FoundFile}
    (hwf : ∀ entries, reached.target = .dir entries → entries.WellFormed)
    (hwalk : Listing.Met.files? (reached.walk root) = some files) :
    files.Nodup ∧ ∀ file, file ∈ files ↔ Regular root reached file := by
  obtain ⟨target, linked⟩ := reached
  cases target with
  | file content =>
      cases linked with
      | false =>
          obtain rfl := Option.some.inj hwalk
          simp [regular_file_iff]
      | true =>
          obtain rfl := Option.some.inj hwalk
          simp [regular_file_iff]
  | dir entries =>
      have hentries := hwf entries rfl
      have hbelow : Listing.Met.files? (entries.walk root 1) = some files := by
        cases linked <;> exact hwalk
      have hopen : ∀ way inner, entries.NodeAt way (.dir inner) → (root.below way).fits := by
        intro way inner hat
        by_contra hlong
        obtain ⟨path, level, hmem⟩ := Listing.exists_closed_of_not_fits hentries hat hlong
        exact Listing.Met.not_mem_of_files? hbelow path level hmem
      rw [Listing.files?_walk hentries hopen] at hbelow
      obtain rfl := Option.some.inj hbelow
      exact ⟨nodup_found hentries, fun file => (regular_dir_iff hentries).symm⟩

/-! ## The log of a search -/

theorem log_search_of_ok {pattern : ControlBlock} {root : Path} {host : Host} {reached : Reached}
    (h : host root = .ok reached) :
    (search pattern root host).log = (examineAll pattern root (reached.walk root)).log := by
  simp only [search, h]

/-- The log of a search that goes through tells of every regular file that is reached from the root
through real directories, and of nothing else. It has one line for each hit, one for each other
file, and one more for each name that is too long for its fields. So there are as many lines of
matches as hits, and as many lines of matches and of skipped files as files. -/
theorem search_log (disk : Disk) (hwf : disk.top.WellFormed) (root : Path) (pattern : ControlBlock)
    (hits : List Hit) (h : (search pattern root disk.host).value = .ok hits) :
    ∃ (reached : Reached) (files : List Listing.FoundFile), disk.host root = .ok reached ∧
      files.Nodup ∧ (∀ file, file ∈ files ↔ Regular root reached file) ∧
      hits = (files.filter fun file => pattern.accepts (guestName file.name)).map (·.hit) ∧
      (search pattern root disk.host).log.Perm
        (hits.map (·.matchLine pattern) ++
          ((files.filter fun file => isLong (guestName file.name)).map
              (fun file => longLine (guestName file.name)) ++
            (files.filter fun file => !pattern.accepts (guestName file.name)).map (·.skipLine))) ∧
      (search pattern root disk.host).log.countP (·.isMatch) = hits.length ∧
      (search pattern root disk.host).log.countP (fun line => line.isMatch || line.isSkip) =
        files.length := by
  obtain ⟨reached, files, hroot, hwalk, hfits, rfl⟩ := search_eq_ok_iff.mp h
  have hreached : ∀ entries, reached.target = .dir entries → entries.WellFormed := by
    rintro entries hentries
    obtain ⟨target, linked⟩ := reached
    obtain rfl : target = .dir entries := hentries
    exact Disk.wellFormed_of_host hwf hroot
  obtain ⟨hnodup, hregular⟩ := regular_of_walk hreached hwalk
  have hperm := flatMap_linesFor_perm pattern files
  rw [log_search_of_ok hroot, log_examineAll hwalk hfits]
  refine ⟨reached, files, hroot, hnodup, hregular, rfl, ?_, ?_, ?_⟩
  · rwa [List.map_map]
  · simp [hperm.countP_eq, List.countP_map, Function.comp_def]
  · have hsplit := List.length_eq_length_filter_add (l := files)
      fun file => pattern.accepts (guestName file.name)
    simp [hperm.countP_eq, List.countP_map, Function.comp_def, hsplit]

/-- A working directory with two files, a link to one of them, and a directory whose name the
pattern accepts, with two files in it. -/
def loggedTree : Disk :=
  .around (.file (Text.bytes "a.com") (.zeros 1)
    (.link (Text.bytes "l.com") (.ofText "a.com")
      (.dir (Text.bytes "s.com")
        (.file (Text.bytes "skip b.html") (.zeros 2)
          (.file (Text.bytes "ﬁ.com") (.zeros 3) .empty))
        (.file (Text.bytes "d.txt") (.zeros 4) .empty))))

theorem search_log_tree :
    loggedTree.top.WellFormed ∧
      (search (.parse "*.com") ⟨selfName⟩ loggedTree.host).value =
        .ok [⟨.ofText "./a.com", "A.COM", 1⟩, ⟨.ofText "./s.com/ﬁ.com", "FI.COM", 3⟩] ∧
      (search (.parse "*.com") ⟨selfName⟩ loggedTree.host).log =
        [⟨.debug, "./a.com matches ????????.COM"⟩, ⟨.trace, "SKIP B.HTML is not an 8.3 name"⟩,
          ⟨.trace, "skip ./s.com/skip b.html"⟩, ⟨.debug, "./s.com/ﬁ.com matches ????????.COM"⟩,
          ⟨.trace, "skip ./d.txt"⟩] ∧
      ∃ (reached : Reached) (files : List Listing.FoundFile),
        loggedTree.host ⟨selfName⟩ = .ok reached ∧ files.Nodup ∧
          (∀ file, file ∈ files ↔ Regular ⟨selfName⟩ reached file) ∧ files.length = 4 := by
  have hwf : loggedTree.top.WellFormed := by decide +kernel
  have hlog : (search (.parse "*.com") ⟨selfName⟩ loggedTree.host).log =
      [⟨.debug, "./a.com matches ????????.COM"⟩, ⟨.trace, "SKIP B.HTML is not an 8.3 name"⟩,
        ⟨.trace, "skip ./s.com/skip b.html"⟩, ⟨.debug, "./s.com/ﬁ.com matches ????????.COM"⟩,
        ⟨.trace, "skip ./d.txt"⟩] := by decide +kernel
  have hvalue : (search (.parse "*.com") ⟨selfName⟩ loggedTree.host).value =
      .ok [⟨.ofText "./a.com", "A.COM", 1⟩, ⟨.ofText "./s.com/ﬁ.com", "FI.COM", 3⟩] := rfl
  obtain ⟨reached, files, hroot, hnodup, hregular, -, -, -, hcount⟩ :=
    search_log loggedTree hwf ⟨selfName⟩ (.parse "*.com") _ hvalue
  refine ⟨hwf, hvalue, hlog, reached, files, hroot, hnodup, hregular, ?_⟩
  rw [← hcount, hlog]
  decide

end GuestFiles
