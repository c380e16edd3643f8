import GuestFiles.Proofs.Host.Join
import GuestFiles.Proofs.Search.Exact

/-! # Searching one entry of a directory

A search that starts at an entry of a directory answers what a search of the directory answers at
that entry and below it, in the same order. It has to be asked for the entry itself, which the
search of the directory is not when the entry is a file that the pattern rejects. -/

namespace GuestFiles

open Host

variable {pattern : ControlBlock} {root : Path} {entries : Listing} {hits : List Hit} {name : Name}

/-- The hits within a place. -/
def Hit.within (place : Path) (hits : List Hit) : List Hit :=
  hits.filter fun hit => hit.host.Within place

/-- A search of a directory that goes through can ask for all that it has to. -/
theorem examineAll_walk_eq_ok_iff (hwf : entries.WellFormed) :
    (examineAll pattern root (entries.walk root 1)).value = .ok hits ↔
      (∀ way, Asks pattern entries way → (root.below way).fits) ∧
        hits = (entries.files.filter fun file => pattern.accepts (guestName file.name)).map
          (·.hit root) := by
  constructor
  · intro h
    have hfits : ∀ way, Asks pattern entries way → (root.below way).fits := by
      intro way hasks
      by_contra hlong
      obtain ⟨_, -, -, herror⟩ := examineAll_walk_stops hwf hasks hlong
      rw [h] at herror
      cases herror
    rw [examineAll_walk_files hwf hfits] at h
    exact ⟨hfits, (Except.ok.inj h).symm⟩
  · rintro ⟨hfits, rfl⟩
    exact examineAll_walk_files hwf hfits

theorem Host.FileBelow.hit_under (root : Path) (hname : name.Proper) (file : FileBelow) :
    (file.under name).hit root = file.hit (root.join name) := by
  rw [hit, hit, way_under, Path.below_join root hname file.way_ne_nil]
  rfl

/-- The hits at an entry and below it are those of its files. -/
theorem within_hits (hwf : entries.WellFormed) {node : Node}
    (hget : entries.get? name = some node) (hname : name.Proper) (keep : FileBelow → Bool) :
    Hit.within (root.join name) ((entries.files.filter keep).map (·.hit root)) =
      ((node.files name).filter keep).map (·.hit root) := by
  have hwithin : ∀ file ∈ entries.files,
      (file.hit root).host.Within (root.join name) ↔ file.way.head? = some name := by
    intro file hfile
    have hproper := hwf.proper ((Listing.mem_files_iff hwf).mp hfile)
    exact root.below_within_join_iff hname hproper file.way_ne_nil
  have hfiles : (entries.files.filter keep).filter
      (fun file => (file.hit root).host.Within (root.join name)) =
        (node.files name).filter keep := by
    rw [← Listing.filter_head?_files hwf hget, List.filter_filter, List.filter_filter]
    apply List.filter_congr
    intro file hfile
    rw [Bool.and_comm, decide_eq_decide.mpr (hwithin file hfile)]
  rw [Hit.within, List.filter_map, ← hfiles]
  rfl

/-- What a search from a directory of the root asks for, the search from the root asks for too. -/
theorem Asks.under {inner : Listing} (hget : entries.get? name = some (.dir inner))
    {way : List Name} (h : Asks pattern inner way) : Asks pattern entries (name :: way) := by
  cases h with
  | dir h => exact .dir (.through hget h)
  | @file file h => exact @Asks.file _ _ (file.under name) ⟨.through hget h.1, h.2⟩

section Entry

variable {node : Node} {reached : Reached}

/-- From an entry that is reached, the files of the entry are looked at. -/
theorem examineAll_walk_join (hwf : entries.WellFormed) (hget : entries.get? name = some node)
    (hnode : node.reached? = some reached) (hname : name.Proper)
    (hfits : ∀ way, Asks pattern entries way → (root.below way).fits)
    (hjoin : (root.join name).fits) :
    (examineAll pattern (root.join name) (reached.walk (root.join name))).value =
      .ok (((node.files name).filter fun file => pattern.accepts (guestName file.name)).map
        (·.hit root)) := by
  cases node with
  | file content =>
    obtain rfl := Option.some.inj hnode
    rw [Reached.walk, examineAll_root hjoin content, Path.lastName_join root hname]
    by_cases haccepts : pattern.accepts (guestName name)
    · simp [Node.files, haccepts, FileBelow.hit, FileBelow.way, Path.below_singleton]
    · simp [Node.files, haccepts]
  | link target => cases hnode
  | dir inner =>
    obtain rfl := Option.some.inj hnode
    have hinner := Listing.wellFormed_of_get? hwf hget
    have hbelow : ∀ way, Asks pattern inner way → ((root.join name).below way).fits := by
      intro way hasks
      have hway : way ≠ [] := by
        cases hasks with
        | dir h =>
          obtain ⟨_, _, rfl, -⟩ := h.head_mem
          exact List.cons_ne_nil _ _
        | @file file _ => exact file.way_ne_nil
      rw [Path.below_join root hname hway]
      exact hfits _ (hasks.under hget)
    rw [examineAll_walk_root, examineAll_walk_files hinner hbelow, Node.files, List.filter_map,
      List.map_map]
    simp only [Function.comp_def, FileBelow.hit_under root hname]
    rfl

/-- A search from the path of an entry, where the search from its directory goes through. -/
theorem search_join {disk : Disk} (hwf : disk.top.WellFormed) {linked : Bool}
    (hroot : disk.host root = .ok ⟨.dir entries, linked⟩) (hget : entries.get? name = some node)
    (hnode : node.reached? = some reached) (hlength : name.length ≤ maxName) (hzero : 0 ∉ name)
    (hsearch : (search pattern root disk.host).value = .ok hits) :
    (search pattern (root.join name) disk.host).value =
      if (root.join name).fits then .ok (Hit.within (root.join name) hits)
      else .error (.traversal (root.join name) (root.join name) 0 .nameTooLong) := by
  have hentries := Disk.wellFormed_of_host hwf hroot
  have hname : name.Proper := hentries.proper (.here hget) name List.mem_cons_self
  rw [search_of_ok hroot, examineAll_walk_root] at hsearch
  obtain ⟨hfits, rfl⟩ := (examineAll_walk_eq_ok_iff hentries).mp hsearch
  by_cases hjoin : (root.join name).fits
  · have hhost := Disk.host_join hroot hget hnode hname hlength hzero hjoin
    rw [if_pos hjoin, search_of_ok hhost, within_hits hentries hget hname]
    exact examineAll_walk_join hentries hget hnode hname hfits hjoin
  · rw [if_neg hjoin]
    exact search_of_error (Disk.host_join_of_not_fits hroot hzero hjoin)

/-- A search that goes through has asked for every entry that is no link, apart from files that the
pattern rejects. -/
theorem file_rejected_of_not_fits {disk : Disk} (hwf : disk.top.WellFormed) {linked : Bool}
    (hroot : disk.host root = .ok ⟨.dir entries, linked⟩) (hget : entries.get? name = some node)
    (hnode : node.reached? = some reached)
    (hsearch : (search pattern root disk.host).value = .ok hits)
    (hlong : ¬(root.join name).fits) :
    (∃ content, node = .file content) ∧ pattern.accepts (guestName name) = false := by
  have hentries := Disk.wellFormed_of_host hwf hroot
  rw [search_of_ok hroot, examineAll_walk_root] at hsearch
  obtain ⟨hfits, -⟩ := (examineAll_walk_eq_ok_iff hentries).mp hsearch
  rw [← Path.below_singleton] at hlong
  cases node with
  | file content =>
    refine ⟨⟨content, rfl⟩, ?_⟩
    by_contra haccepts
    have hasks : Asks pattern entries [name] :=
      @Asks.file _ _ ⟨[], name, content⟩ ⟨.here hget, by simpa using haccepts⟩
    exact hlong (hfits _ hasks)
  | link target => cases hnode
  | dir inner => exact absurd (hfits _ (.dir (.here hget))) hlong

end Entry

end GuestFiles
