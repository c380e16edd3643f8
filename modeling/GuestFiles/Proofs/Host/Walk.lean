import GuestFiles.Host.Lookup
import GuestFiles.Proofs.Host.Tree

/-! # What a walk meets

A walk that can open every directory meets each regular file once, and besides only directories and
links. It cannot open a directory whose path is too long, and then it meets that directory as
closed. -/

namespace GuestFiles.Host

namespace Path

theorem below_singleton (path : Path) (name : Name) : path.below [name] = path.join name :=
  (join_eq_below path name).symm

end Path

namespace Listing

variable {listing entries : Listing} {base : Path} {depth : Nat} {way : List Name}

/-- Below a directory the ways go on from its path. -/
theorem NodeAt.below_join {node : Node} {name : Name} (hname : name.Proper)
    (h : entries.NodeAt way node) : (base.join name).below way = base.below (name :: way) := by
  obtain ⟨_, _, rfl, -⟩ := h.head_mem
  exact Path.below_join base hname (List.cons_ne_nil _ _)

/-! ## Files -/

/-- The regular files that a walk meets, unless it meets a closed directory. -/
def Met.files? : List Met → Option (List FoundFile)
  | [] => some []
  | .file found :: rest => (files? rest).map (found :: ·)
  | .link _ _ :: rest => files? rest
  | .dir _ _ :: rest => files? rest
  | .closed _ _ :: _ => none

theorem Met.files?_append {front rest : List Met} {files others : List FoundFile}
    (hfront : files? front = some files) (hrest : files? rest = some others) :
    files? (front ++ rest) = some (files ++ others) := by
  induction front generalizing files with
  | nil =>
    obtain rfl := Option.some.inj hfront
    exact hrest
  | cons met front ih =>
    cases met with
    | file file =>
      obtain ⟨more, hmore, rfl⟩ := Option.map_eq_some_iff.mp hfront
      exact Option.map_eq_some_iff.mpr ⟨more ++ others, ih hmore, rfl⟩
    | link path depth => exact ih hfront
    | dir path depth => exact ih hfront
    | closed path depth => cases hfront

theorem Met.mem_of_files? {mets : List Met} {files : List FoundFile}
    (h : files? mets = some files) {found : FoundFile} (hfound : found ∈ files) :
    .file found ∈ mets := by
  induction mets generalizing files with
  | nil =>
    obtain rfl := Option.some.inj h
    exact absurd hfound List.not_mem_nil
  | cons met mets ih =>
    cases met with
    | file file =>
      obtain ⟨more, hmore, rfl⟩ := Option.map_eq_some_iff.mp h
      rcases List.mem_cons.mp hfound with rfl | hfound
      · exact List.mem_cons_self
      · exact List.mem_cons_of_mem _ (ih hmore hfound)
    | link path depth => exact List.mem_cons_of_mem _ (ih h hfound)
    | dir path depth => exact List.mem_cons_of_mem _ (ih h hfound)
    | closed path depth => cases h

theorem Met.not_mem_of_files? {mets : List Met} {files : List FoundFile}
    (h : files? mets = some files) (path : Path) (depth : Nat) : .closed path depth ∉ mets := by
  induction mets generalizing files with
  | nil => exact List.not_mem_nil
  | cons met mets ih =>
    cases met with
    | file file =>
      obtain ⟨more, hmore, -⟩ := Option.map_eq_some_iff.mp h
      simpa using ih hmore
    | link other level => simpa using ih h
    | dir other level => simpa using ih h
    | closed other level => cases h

theorem files?_walk (hwf : listing.WellFormed)
    (hfits : ∀ way entries, listing.NodeAt way (.dir entries) → (base.below way).fits) :
    Met.files? (listing.walk base depth) = some (listing.files.map (·.found base depth)) := by
  induction listing generalizing base depth with
  | empty => rfl
  | file n content rest ih =>
    obtain ⟨-, hn, hrest⟩ := hwf
    have hwalk : Met.files? (rest.walk base depth) = _ := ih hrest fun way entries h =>
      hfits way entries ((nodeAt_file_iff hn).mpr (.inr h))
    simp only [walk, files, Met.files?, List.map_cons, hwalk, Option.map_some, FileBelow.found,
      FileBelow.way, List.nil_append, Path.below_singleton, List.length_nil, Nat.add_zero]
  | link n target rest ih =>
    obtain ⟨-, hn, hrest⟩ := hwf
    exact ih hrest fun way entries h => hfits way entries ((nodeAt_link_iff hn).mpr (.inr h))
  | dir n inner rest ihinner ih =>
    obtain ⟨hproper, hn, hinner, hrest⟩ := hwf
    have hopen : (base.join n).fits := by
      rw [← Path.below_singleton]
      exact hfits [n] inner ((nodeAt_dir_iff hn).mpr (.inl ⟨rfl, rfl⟩))
    have hbelow : Met.files? (inner.walk (base.join n) (depth + 1)) = _ :=
      ihinner hinner fun way entries h => by
        rw [h.below_join hproper]
        exact hfits (n :: way) entries ((nodeAt_dir_iff hn).mpr (.inr (.inl ⟨way, rfl, h⟩)))
    have hafter : Met.files? (rest.walk base depth) = _ := ih hrest fun way entries h =>
      hfits way entries ((nodeAt_dir_iff hn).mpr (.inr (.inr h)))
    rw [walk, if_pos hopen, Met.files?, Met.files?_append hbelow hafter, files, List.map_append,
      List.map_map]
    simp only [Function.comp_def, FileBelow.found_under base depth hproper]

/-! ## Everything that is met -/

/-- What a walk can meet in a tree: the files, links and directories, and as closed the directories
whose paths are too long. -/
inductive Meets (listing : Listing) (base : Path) (depth : Nat) : Met → Prop where
  | file {file : FileBelow} (h : listing.NodeAt file.way (.file file.content)) :
    Meets listing base depth (.file (file.found base depth))
  | link {name : Name} {way : List Name} {target : Path}
    (h : listing.NodeAt (name :: way) (.link target)) :
    Meets listing base depth (.link (base.below (name :: way)) (depth + way.length))
  | dir {name : Name} {way : List Name} {entries : Listing}
    (h : listing.NodeAt (name :: way) (.dir entries)) :
    Meets listing base depth (.dir (base.below (name :: way)) (depth + way.length))
  | closed {name : Name} {way : List Name} {entries : Listing}
    (h : listing.NodeAt (name :: way) (.dir entries)) (hclosed : ¬(base.below (name :: way)).fits) :
    Meets listing base depth (.closed (base.below (name :: way)) (depth + way.length))

theorem Meets.mono {other : Listing} {met : Met}
    (hsub : ∀ way node, listing.NodeAt way node → other.NodeAt way node)
    (h : listing.Meets base depth met) : other.Meets base depth met := by
  cases h with
  | file h => exact .file (hsub _ _ h)
  | link h => exact .link (hsub _ _ h)
  | dir h => exact .dir (hsub _ _ h)
  | closed h hclosed => exact .closed (hsub _ _ h) hclosed

theorem Meets.above {name : Name} {met : Met} (hname : name.Proper)
    (hsub : ∀ way node, entries.NodeAt way node → listing.NodeAt (name :: way) node)
    (h : entries.Meets (base.join name) (depth + 1) met) : listing.Meets base depth met := by
  have hdepth (first : Name) (way : List Name) :
      depth + 1 + way.length = depth + (first :: way).length := by
    rw [List.length_cons]
    omega
  cases h with
  | @file file h =>
    rw [← FileBelow.found_under base depth hname]
    exact .file (hsub file.way _ h)
  | @link first way _ h =>
    rw [h.below_join hname, hdepth first]
    exact .link (hsub _ _ h)
  | @dir first way _ h =>
    rw [h.below_join hname, hdepth first]
    exact .dir (hsub _ _ h)
  | @closed first way _ h hclosed =>
    rw [h.below_join hname] at hclosed ⊢
    rw [hdepth first]
    exact .closed (hsub _ _ h) hclosed

theorem meets_of_mem_walk (hwf : listing.WellFormed) {met : Met}
    (hmet : met ∈ listing.walk base depth) : listing.Meets base depth met := by
  induction listing generalizing base depth with
  | empty => exact absurd hmet List.not_mem_nil
  | file n content rest ih =>
    obtain ⟨-, hn, hrest⟩ := hwf
    rcases List.mem_cons.mp hmet with rfl | hmet
    · rw [← Path.below_singleton]
      exact @Meets.file _ _ _ ⟨[], n, content⟩ ((nodeAt_file_iff hn).mpr (.inl ⟨rfl, rfl⟩))
    · exact (ih hrest hmet).mono fun _ _ h => (nodeAt_file_iff hn).mpr (.inr h)
  | link n target rest ih =>
    obtain ⟨-, hn, hrest⟩ := hwf
    rcases List.mem_cons.mp hmet with rfl | hmet
    · rw [← Path.below_singleton]
      exact .link ((nodeAt_link_iff hn).mpr (.inl ⟨rfl, rfl⟩))
    · exact (ih hrest hmet).mono fun _ _ h => (nodeAt_link_iff hn).mpr (.inr h)
  | dir n inner rest ihinner ih =>
    obtain ⟨hproper, hn, hinner, hrest⟩ := hwf
    have hself : (dir n inner rest).NodeAt [n] (.dir inner) :=
      (nodeAt_dir_iff hn).mpr (.inl ⟨rfl, rfl⟩)
    have hafter (h : met ∈ rest.walk base depth) : (dir n inner rest).Meets base depth met :=
      (ih hrest h).mono fun _ _ h => (nodeAt_dir_iff hn).mpr (.inr (.inr h))
    rcases List.mem_cons.mp hmet with rfl | hmet
    · rw [← Path.below_singleton]
      exact .dir hself
    by_cases hopen : (base.join n).fits
    · rw [if_pos hopen] at hmet
      rcases List.mem_append.mp hmet with hmet | hmet
      · exact (ihinner hinner hmet).above hproper fun way _ h =>
          (nodeAt_dir_iff hn).mpr (.inr (.inl ⟨way, rfl, h⟩))
      · exact hafter hmet
    · rw [if_neg hopen] at hmet
      rcases List.mem_cons.mp hmet with rfl | hmet
      · rw [← Path.below_singleton] at hopen ⊢
        exact .closed hself hopen
      · exact hafter hmet

/-- A directory with too long a path stops the walk there or on the way to it. -/
theorem exists_closed_of_not_fits (hwf : listing.WellFormed)
    (h : listing.NodeAt way (.dir entries)) (hlong : ¬(base.below way).fits) :
    ∃ path level, Met.closed path level ∈ listing.walk base depth := by
  induction listing generalizing base depth way with
  | empty => exact absurd h (not_nodeAt_empty way _)
  | file n content rest ih =>
    obtain ⟨-, hn, hrest⟩ := hwf
    rcases (nodeAt_file_iff hn).mp h with ⟨-, hdir⟩ | h
    · exact absurd hdir (by simp)
    · obtain ⟨path, level, hmem⟩ := ih hrest h hlong
      exact ⟨path, level, List.mem_cons_of_mem _ hmem⟩
  | link n target rest ih =>
    obtain ⟨-, hn, hrest⟩ := hwf
    rcases (nodeAt_link_iff hn).mp h with ⟨-, hdir⟩ | h
    · exact absurd hdir (by simp)
    · obtain ⟨path, level, hmem⟩ := ih hrest h hlong
      exact ⟨path, level, List.mem_cons_of_mem _ hmem⟩
  | dir n inner rest ihinner ih =>
    obtain ⟨hproper, hn, hinner, hrest⟩ := hwf
    by_cases hopen : (base.join n).fits
    · rw [walk, if_pos hopen]
      rcases (nodeAt_dir_iff hn).mp h with ⟨rfl, -⟩ | ⟨more, rfl, hmore⟩ | h
      · exact absurd hopen (Path.below_singleton base n ▸ hlong)
      · rw [← hmore.below_join hproper] at hlong
        obtain ⟨path, level, hmem⟩ := ihinner hinner hmore hlong
        exact ⟨path, level, List.mem_cons_of_mem _ (List.mem_append_left _ hmem)⟩
      · obtain ⟨path, level, hmem⟩ := ih hrest h hlong
        exact ⟨path, level, List.mem_cons_of_mem _ (List.mem_append_right _ hmem)⟩
    · rw [walk, if_neg hopen]
      exact ⟨base.join n, depth, List.mem_cons_of_mem _ List.mem_cons_self⟩

end Listing

end GuestFiles.Host
