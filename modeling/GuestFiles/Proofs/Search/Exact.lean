import GuestFiles.Proofs.Host.Walk
import GuestFiles.Proofs.Search.Examine

/-! # What a search finds

A search answers one hit for each regular file below its root whose guest name the pattern accepts,
and nothing else. It fails when the root cannot be reached, or when a path is too long that it has
to ask the host for: the path of a directory below the root, or of an accepted file. -/

namespace GuestFiles

open Host

variable {pattern : ControlBlock} {root : Path}

namespace Host.FileBelow

/-- The hit for a file below the directory `root`. -/
def hit (root : Path) (file : FileBelow) : Hit :=
  ⟨root.below file.way, guestName file.name, file.content.size⟩

theorem hit_found (root : Path) (depth : Nat) (file : FileBelow) :
    (file.found root depth).hit = file.hit root := rfl

theorem name_found (root : Path) (depth : Nat) (file : FileBelow) :
    (file.found root depth).name = file.name := rfl

/-- A file below a directory that a pattern accepts by its guest name. -/
def Accepted (pattern : ControlBlock) (entries : Listing) (file : FileBelow) : Prop :=
  entries.NodeAt file.way (.file file.content) ∧ pattern.accepts (guestName file.name)

end Host.FileBelow

/-- The ways to what a search has to ask the host for: the directories, and the accepted files. -/
inductive Asks (pattern : ControlBlock) (entries : Listing) : List Name → Prop where
  | dir {way : List Name} {inner : Listing} (h : entries.NodeAt way (.dir inner)) :
    Asks pattern entries way
  | file {file : FileBelow} (h : file.Accepted pattern entries) : Asks pattern entries file.way

/-- One hit for each accepted file, no other hit, and no two hits at one path. -/
structure Exact (pattern : ControlBlock) (root : Path) (entries : Listing) (hits : List Hit) :
    Prop where
  one_each : ∃ files : List FileBelow, files.Nodup ∧
    (∀ file, file ∈ files ↔ file.Accepted pattern entries) ∧ hits = files.map (·.hit root)
  hosts_nodup : (hits.map (·.host)).Nodup

section Dir

variable {entries : Listing}

theorem hosts_nodup (hwf : entries.WellFormed) {files : List FileBelow} (hnodup : files.Nodup)
    (hfiles : ∀ file ∈ files, entries.NodeAt file.way (.file file.content)) :
    ((files.map (·.hit root)).map (·.host)).Nodup := by
  rw [List.map_map]
  refine hnodup.map_on fun a ha b hb heq => ?_
  have hway : a.way = b.way :=
    Path.below_inj (hwf.proper (hfiles a ha)) (hwf.proper (hfiles b hb)) a.way_ne_nil
      b.way_ne_nil heq
  have hcontent : Node.file a.content = Node.file b.content :=
    (hfiles a ha).unique (hway ▸ hfiles b hb)
  exact FileBelow.ext_way hway (Node.file.inj hcontent)

/-- Where everything fits that is asked for, the accepted files are answered in the order of the
tree. -/
theorem examineAll_walk_files (hwf : entries.WellFormed)
    (hfits : ∀ way, Asks pattern entries way → (root.below way).fits) :
    (examineAll pattern root (entries.walk root 1)).value =
      .ok ((entries.files.filter fun file => pattern.accepts (guestName file.name)).map
        (·.hit root)) := by
  have hfiles : Listing.Met.files? (entries.walk root 1) = _ :=
    Listing.files?_walk hwf fun way inner h => hfits way (.dir h)
  rw [examineAll_of_files? hfiles]
  · simp only [List.filter_map, List.map_map, Function.comp_def, FileBelow.hit_found,
      FileBelow.name_found]
  · intro met hmet haccepts
    obtain ⟨file, hfile, rfl⟩ := List.mem_map.mp hmet
    exact hfits file.way (.file ⟨(Listing.mem_files_iff hwf).mp hfile, haccepts⟩)

theorem examineAll_walk_exact (hwf : entries.WellFormed)
    (hfits : ∀ way, Asks pattern entries way → (root.below way).fits) :
    ∃ hits, (examineAll pattern root (entries.walk root 1)).value = .ok hits ∧
      Exact pattern root entries hits := by
  let files := entries.files.filter fun file => pattern.accepts (guestName file.name)
  have hmem : ∀ file, file ∈ files ↔ file.Accepted pattern entries := by
    intro file
    rw [List.mem_filter, Listing.mem_files_iff hwf, FileBelow.Accepted]
  have hnodup : files.Nodup := (Listing.nodup_files hwf).filter _
  exact ⟨files.map (·.hit root), examineAll_walk_files hwf hfits, ⟨files, hnodup, hmem, rfl⟩,
    hosts_nodup hwf hnodup fun file h => ((hmem file).mp h).1⟩

theorem exists_stops_of_not_fits (hwf : entries.WellFormed) {way : List Name}
    (hasks : Asks pattern entries way) (hlong : ¬(root.below way).fits) :
    ∃ met ∈ entries.walk root 1, ∃ path depth, Stops pattern met path depth := by
  by_cases hopen : ∀ way inner, entries.NodeAt way (.dir inner) → (root.below way).fits
  · cases hasks with
    | dir h => exact absurd (hopen way _ h) hlong
    | @file file h =>
      have hmem : file.found root 1 ∈ entries.files.map (·.found root 1) :=
        List.mem_map_of_mem ((Listing.mem_files_iff hwf).mpr h.1)
      exact ⟨_, Listing.Met.mem_of_files? (Listing.files?_walk hwf hopen) hmem, _, _,
        .file h.2 hlong⟩
  · push Not at hopen
    obtain ⟨way, inner, h, hclosed⟩ := hopen
    obtain ⟨path, depth, hmem⟩ := Listing.exists_closed_of_not_fits hwf h hclosed
    exact ⟨_, hmem, path, depth, .closed⟩

theorem examineAll_walk_stops (hwf : entries.WellFormed) {way : List Name}
    (hasks : Asks pattern entries way) (hlong : ¬(root.below way).fits) :
    ∃ way, Asks pattern entries way ∧ ¬(root.below way).fits ∧
      (examineAll pattern root (entries.walk root 1)).value =
        .error (.traversal root (root.below way) way.length .nameTooLong) := by
  obtain ⟨met, hmet, path, depth, hstops⟩ := exists_stops_of_not_fits hwf hasks hlong
  obtain ⟨first, hfirst, path, depth, hfails, herror⟩ := examineAll_of_stops hmet hstops
  rw [herror]
  cases Listing.meets_of_mem_walk hwf hfirst with
  | @file file h =>
    cases hfails with
    | file haccepts hlong =>
      refine ⟨file.way, .file ⟨h, haccepts⟩, hlong, ?_⟩
      simp [FileBelow.found, FileBelow.way, Nat.add_comm]
  | link _ => cases hfails
  | dir _ => cases hfails
  | @closed name way _ h hclosed =>
    cases hfails
    refine ⟨name :: way, .dir h, hclosed, ?_⟩
    simp [Nat.add_comm]

end Dir

/-- A root that is itself a file is the only candidate. -/
theorem examineAll_root (hfits : root.fits) (content : Content) :
    (examineAll pattern root [.file ⟨root, 0, root.lastName, content.size⟩]).value =
      .ok (if pattern.accepts (guestName root.lastName) then
        [⟨root, guestName root.lastName, content.size⟩] else []) := by
  let file : Listing.FoundFile := ⟨root, 0, root.lastName, content.size⟩
  have h : (examineAll pattern root [.file file]).value = _ :=
    examineAll_of_files? rfl (by simp [file, hfits])
  by_cases haccepts : pattern.accepts (guestName root.lastName) <;>
    simpa [file, haccepts, Listing.FoundFile.hit] using h

/-- A search reaches its root or fails there, wherever in the file system the root lies and whatever
links lead to it. From a directory, reached directly or through a link, it answers exactly the
accepted files, unless a path that it asks for is too long. -/
theorem search_exact (disk : Disk) (hwf : disk.top.WellFormed) (root : Path)
    (pattern : ControlBlock) :
    match disk.host root with
    | .error fault => (search pattern root disk.host).value = .error (.traversal root root 0 fault)
    | .ok ⟨.file _, true⟩ => (search pattern root disk.host).value = .ok []
    | .ok ⟨.file content, false⟩ =>
      (search pattern root disk.host).value =
        .ok (if pattern.accepts (guestName root.lastName) then
          [⟨root, guestName root.lastName, content.size⟩] else [])
    | .ok ⟨.dir entries, _⟩ =>
      (∃ hits, (search pattern root disk.host).value = .ok hits ∧
        Exact pattern root entries hits ∧ ∀ way, Asks pattern entries way → (root.below way).fits) ∨
      ∃ way, Asks pattern entries way ∧ ¬(root.below way).fits ∧
        (search pattern root disk.host).value =
          .error (.traversal root (root.below way) way.length .nameTooLong) := by
  cases hroot : disk.host root with
  | error fault => exact search_of_error hroot
  | ok reached =>
    obtain ⟨target, linked⟩ := reached
    cases target with
    | file content =>
      cases linked with
      | true => exact search_of_ok hroot
      | false =>
        exact (search_of_ok hroot).trans (examineAll_root (Disk.fits_of_host hroot) content)
    | dir entries =>
      have hentries := Disk.wellFormed_of_host hwf hroot
      have hsearch : (search pattern root disk.host).value =
          (examineAll pattern root (entries.walk root 1)).value := by
        rw [search_of_ok hroot, examineAll_walk_root]
      simp only [hsearch]
      by_cases hfits : ∀ way, Asks pattern entries way → (root.below way).fits
      · obtain ⟨hits, hvalue, hexact⟩ := examineAll_walk_exact hentries hfits
        exact .inl ⟨hits, hvalue, hexact, hfits⟩
      · push Not at hfits
        obtain ⟨way, hasks, hlong⟩ := hfits
        exact .inr (examineAll_walk_stops hentries hasks hlong)

/-- A directory `srv` with two files, one of them below `s`, one whose name is no text, and a link
back up. -/
def servedFiles : Listing :=
  .file (Text.bytes "a.com") (.zeros 200)
    (.file [0xFF] (.zeros 1)
      (.link (Text.bytes "u") ⟨parentName⟩
        (.dir (Text.bytes "s") (.file (Text.bytes "B.COM") (.bytes [1, 2]) .empty) .empty)))

/-- The directory `srv` at the top, and beside it the working directory, with a link to `srv`. -/
def linkedDisk : Disk :=
  ⟨.dir (Text.bytes "srv") servedFiles
      (.dir (Text.bytes "w") (.link (Text.bytes "l") (.ofText "/srv") .empty) .empty),
    [Text.bytes "w"], rfl⟩

/-- A search from the top, through the directory above, and through a link to the top. -/
theorem search_exact_linked_root :
    linkedDisk.top.WellFormed ∧
      ∀ root ∈ [.ofText "/srv", .ofText "../../srv/", .ofText "l"],
        ∃ linked hits, linkedDisk.host root = .ok ⟨.dir servedFiles, linked⟩ ∧
          (search (.parse "*.COM") root linkedDisk.host).value = .ok hits ∧
          Exact (.parse "*.COM") root servedFiles hits ∧
          hits.map (·.name) = ["A.COM", "B.COM"] := by
  have hwf : linkedDisk.top.WellFormed := by decide +kernel
  have hfound {root : Path} {linked : Bool}
      (hroot : linkedDisk.host root = .ok ⟨.dir servedFiles, linked⟩)
      (hnames : (search (.parse "*.COM") root linkedDisk.host).value.toOption.map
        (·.map (·.name)) = some ["A.COM", "B.COM"]) :
      ∃ linked hits, linkedDisk.host root = .ok ⟨.dir servedFiles, linked⟩ ∧
        (search (.parse "*.COM") root linkedDisk.host).value = .ok hits ∧
        Exact (.parse "*.COM") root servedFiles hits ∧ hits.map (·.name) = ["A.COM", "B.COM"] := by
    have h := search_exact linkedDisk hwf root (.parse "*.COM")
    rw [hroot] at h
    rcases h with ⟨hits, hvalue, hexact, -⟩ | ⟨way, -, -, hvalue⟩
    · rw [hvalue] at hnames
      exact ⟨linked, hits, hroot, hvalue, hexact, Option.some.inj hnames⟩
    · rw [hvalue] at hnames
      cases hnames
  refine ⟨hwf, List.forall_mem_cons.mpr ⟨?_, List.forall_mem_cons.mpr ⟨?_,
    List.forall_mem_singleton.mpr ?_⟩⟩⟩
  · exact hfound rfl (by decide +kernel)
  · exact hfound rfl (by decide +kernel)
  · exact hfound rfl (by decide +kernel)

/-! ## A path that is too long -/

theorem examineAll_walk_file {name : Name} {content : Content}
    (haccepts : pattern.accepts (guestName name)) (hlong : ¬(root.below [name]).fits) :
    (examineAll pattern root ((Listing.file name content .empty).walk root 1)).value =
      .error (.traversal root (root.below [name]) 1 .nameTooLong) := by
  rw [Path.below_singleton] at hlong ⊢
  let file : Listing.FoundFile := ⟨root.join name, 1, name, content.size⟩
  have hfile : (examineFile pattern root file).value = _ := examineFile_of_not_fits haccepts hlong
  exact examineAll_of_error hfile

/-- A path that names the directory it stands in, as often as `n` says. -/
def dots (n : Nat) : List UInt8 :=
  (List.replicate n (slash :: selfName)).flatten

theorem dots_succ (n : Nat) : dots (n + 1) = slash :: 0x2E :: dots n := by
  simp [dots, List.replicate_succ]

theorem cut_dots (n : Nat) : Path.cut (dots n) = [] :: List.replicate n selfName := by
  induction n with
  | zero => rfl
  | succ n ih =>
    rw [dots_succ, Path.cut_cons_slash, Path.cut_cons_of_ne (by decide) ih, List.replicate_succ]

theorem length_dots (n : Nat) : (dots n).length = 2 * n := by
  induction n with
  | zero => rfl
  | succ n ih =>
    simp only [dots_succ, List.length_cons, ih]
    omega

theorem zero_not_mem_dots (n : Nat) : 0 ∉ dots n := by
  induction n with
  | zero => simp [dots]
  | succ n ih =>
    rw [dots_succ, List.mem_cons, List.mem_cons]
    exact fun h => h.elim (by decide) fun h => h.elim (by decide) ih

theorem follow_replicate_self {onLink : Trail → Path → List Name → Except Fault Found}
    (trail : Trail) (n : Nat) :
    trail.follow onLink (List.replicate n selfName) = .ok ⟨.dir trail, false⟩ := by
  induction n with
  | zero => rfl
  | succ n ih => rw [List.replicate_succ, Trail.follow_self (.inr rfl), ih]

/-- The directory `r` under a path of the most bytes that a host takes. -/
def longRoot : Path :=
  ⟨0x72 :: dots 2047⟩

/-- The directory `r` with one file, in the working directory. -/
def smallTree : Disk :=
  .around (.dir [0x72] (.file [0x41] (.zeros 1) .empty) .empty)

theorem host_longRoot :
    smallTree.host longRoot = .ok ⟨.dir (.file [0x41] (.zeros 1) .empty), false⟩ := by
  have hzero : ¬longRoot.bytes.contains 0 := by
    simpa [longRoot] using zero_not_mem_dots 2047
  have hfits : longRoot.fits := by
    simp [longRoot, Path.fits, length_dots, Path.maxLength]
  have hnames : longRoot.names = [0x72] :: List.replicate 2047 selfName :=
    Path.cut_cons_of_ne (by decide) (cut_dots 2047)
  have hlocate : smallTree.locate longRoot =
      .ok ⟨.dir (smallTree.here.down [0x72] (.file [0x41] (.zeros 1) .empty)), false⟩ := by
    rw [Disk.locate, if_neg hzero, if_neg (by simp [hfits]), if_neg (by decide), hnames]
    exact (Trail.follow_entry (by decide) (by decide) (by decide)).trans
      (follow_replicate_self _ 2047)
  rw [Disk.host, hlocate]
  rfl

/-- Below a root of 4095 bytes the size of an accepted file cannot be asked for. -/
theorem search_long_root :
    smallTree.top.WellFormed ∧
      smallTree.host longRoot = .ok ⟨.dir (.file [0x41] (.zeros 1) .empty), false⟩ ∧
      FileBelow.Accepted (.parse "*.*") (.file [0x41] (.zeros 1) .empty) ⟨[], [0x41], .zeros 1⟩ ∧
      (search (.parse "*.*") longRoot smallTree.host).value =
        .error (.traversal longRoot (longRoot.below [[0x41]]) 1 .nameTooLong) := by
  have haccepts : (ControlBlock.parse "*.*").accepts (guestName [0x41]) := by decide +kernel
  have hlong : ¬(longRoot.below [[0x41]]).fits := by
    have hstem := longRoot.length_le_length_stem
    have hlength : longRoot.bytes.length = 4095 := by simp [longRoot, length_dots]
    simp only [Path.fits, Path.below, List.intercalate_singleton, List.length_append,
      List.length_singleton, Path.maxLength, decide_eq_true_eq]
    omega
  refine ⟨by decide, host_longRoot, ⟨.here rfl, haccepts⟩, ?_⟩
  rw [search_of_ok host_longRoot]
  exact examineAll_walk_file haccepts hlong

end GuestFiles
