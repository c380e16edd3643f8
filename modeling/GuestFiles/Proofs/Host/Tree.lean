import GuestFiles.Host.Listing
import GuestFiles.Proofs.Host.Path
import Mathlib.Data.List.Nodup

/-! # Trees of directories

What stands in a tree is told by the names on the way down to it, where every name but the last is
the name of a directory: no way leads through a link. In a tree without repeated names a walk meets
each regular file once, unless a directory has a path that is too long. -/

namespace GuestFiles.Host

/-- A regular file below a directory. -/
structure FileBelow where
  /-- The names of the directories on the way down to the file, outermost first. -/
  above : List Name
  /-- The name of the file. -/
  name : Name
  /-- What the file holds. -/
  content : Content
  deriving DecidableEq, Repr

namespace FileBelow

/-- The names on the way down to the file, its own included. -/
def way (file : FileBelow) : List Name :=
  file.above ++ [file.name]

/-- The file as it lies below the directory above. -/
def under (name : Name) (file : FileBelow) : FileBelow :=
  { file with above := name :: file.above }

/-- The file as a walk meets it that starts from the directory `base`, whose entries have the given
depth. -/
def found (base : Path) (depth : Nat) (file : FileBelow) : Listing.FoundFile :=
  ⟨base.below file.way, depth + file.above.length, file.name, file.content.size⟩

@[simp] theorem way_ne_nil (file : FileBelow) : file.way ≠ [] := by
  simp [way]

@[simp] theorem way_under (name : Name) (file : FileBelow) :
    (file.under name).way = name :: file.way := rfl

@[simp] theorem content_under (name : Name) (file : FileBelow) :
    (file.under name).content = file.content := rfl

theorem under_inj {name : Name} {a b : FileBelow} (h : a.under name = b.under name) : a = b := by
  simp only [under, mk.injEq, List.cons.injEq, true_and] at h
  obtain ⟨habove, hname, hcontent⟩ := h
  cases a
  cases b
  simp_all

theorem ext_way {a b : FileBelow} (hway : a.way = b.way) (hcontent : a.content = b.content) :
    a = b := by
  obtain ⟨habove, hname⟩ := List.append_inj' hway rfl
  cases a
  cases b
  simp_all

/-- A file of the directory itself. -/
theorem eq_here_iff {file : FileBelow} {name : Name} {content : Content} :
    file = ⟨[], name, content⟩ ↔ file.way = [name] ∧ file.content = content := by
  constructor
  · rintro rfl
    exact ⟨rfl, rfl⟩
  · rintro ⟨hway, hcontent⟩
    exact ext_way hway hcontent

/-- A file with a longer way lies below a directory. -/
theorem exists_under {file : FileBelow} {name next : Name} {more : List Name}
    (h : file.way = name :: next :: more) :
    ∃ inner : FileBelow, inner.under name = file ∧ inner.way = next :: more := by
  obtain ⟨above, last, content⟩ := file
  cases above with
  | nil => simp [way] at h
  | cons first above =>
      obtain ⟨rfl, hmore⟩ := List.cons.inj h
      exact ⟨⟨above, last, content⟩, rfl, hmore⟩

/-- Walking down one directory before the file is met. -/
theorem found_under (base : Path) (depth : Nat) {name : Name} (h : name.Proper)
    (file : FileBelow) :
    (file.under name).found base depth = file.found (base.join name) (depth + 1) := by
  simp only [found, way_under, content_under, Path.below_join base h file.way_ne_nil]
  simp only [under, List.length_cons, Listing.FoundFile.mk.injEq, true_and, and_true]
  omega

end FileBelow

namespace Listing

/-- The names of the entries. -/
def names : Listing → List Name
  | .empty => []
  | .file name _ rest => name :: rest.names
  | .link name _ rest => name :: rest.names
  | .dir name _ rest => name :: rest.names

/-- In the directory and in those below it, names are proper and none is given twice. -/
def WellFormed : Listing → Prop
  | .empty => True
  | .file name _ rest => name.Proper ∧ name ∉ rest.names ∧ rest.WellFormed
  | .link name _ rest => name.Proper ∧ name ∉ rest.names ∧ rest.WellFormed
  | .dir name entries rest =>
    name.Proper ∧ name ∉ rest.names ∧ entries.WellFormed ∧ rest.WellFormed

instance decidableWellFormed : (listing : Listing) → Decidable listing.WellFormed
  | .empty => inferInstanceAs (Decidable True)
  | .file name _ rest =>
    have := decidableWellFormed rest
    inferInstanceAs (Decidable (name.Proper ∧ name ∉ rest.names ∧ rest.WellFormed))
  | .link name _ rest =>
    have := decidableWellFormed rest
    inferInstanceAs (Decidable (name.Proper ∧ name ∉ rest.names ∧ rest.WellFormed))
  | .dir name entries rest =>
    have := decidableWellFormed entries
    have := decidableWellFormed rest
    inferInstanceAs
      (Decidable (name.Proper ∧ name ∉ rest.names ∧ entries.WellFormed ∧ rest.WellFormed))

/-- What stands at the end of a way through real directories. -/
inductive NodeAt : Listing → List Name → Node → Prop where
  | here {listing : Listing} {name : Name} {node : Node} (h : listing.get? name = some node) :
      NodeAt listing [name] node
  | through {listing : Listing} {name : Name} {entries : Listing} {way : List Name} {node : Node}
      (h : listing.get? name = some (.dir entries)) (hrest : NodeAt entries way node) :
      NodeAt listing (name :: way) node

/-! ## Entries -/

/-- Listings grow by one entry at a time, and a directory comes with a listing of its own. -/
@[elab_as_elim]
theorem cons_induction {motive : Listing → Prop} (empty : motive .empty)
    (cons : ∀ name first rest, (∀ entries, first = .dir entries → motive entries) → motive rest →
      motive (cons name first rest))
    (listing : Listing) : motive listing := by
  induction listing with
  | empty => exact empty
  | file name content rest ih => exact cons name (.file content) rest (fun _ h => nomatch h) ih
  | link name target rest ih => exact cons name (.link target) rest (fun _ h => nomatch h) ih
  | dir name entries rest ihentries ih =>
      exact cons name (.dir entries) rest (fun _ h => Node.dir.inj h ▸ ihentries) ih

theorem get?_cons (name : Name) (first : Node) (rest : Listing) (other : Name) :
    (cons name first rest).get? other = if name = other then some first else rest.get? other := by
  cases first <;> rfl

theorem names_cons (name : Name) (first : Node) (rest : Listing) :
    (cons name first rest).names = name :: rest.names := by
  cases first <;> rfl

theorem wellFormed_cons_iff {name : Name} {first : Node} {rest : Listing} :
    (cons name first rest).WellFormed ↔
      name.Proper ∧ name ∉ rest.names ∧ (∀ entries, first = .dir entries → entries.WellFormed) ∧
        rest.WellFormed := by
  cases first <;> simp [cons, WellFormed]

theorem mem_names_of_get? {listing : Listing} {name : Name} {node : Node}
    (h : listing.get? name = some node) : name ∈ listing.names := by
  induction listing using cons_induction with
  | empty => cases h
  | cons n first rest _ ih =>
      rw [get?_cons] at h
      rw [names_cons]
      by_cases hn : n = name
      · exact hn ▸ List.mem_cons_self
      · rw [if_neg hn] at h
        exact List.mem_cons_of_mem n (ih h)

/-- The directories in a well-formed directory are well-formed. -/
theorem wellFormed_of_get? {listing entries : Listing} {name : Name} (hwf : listing.WellFormed)
    (h : listing.get? name = some (.dir entries)) : entries.WellFormed := by
  induction listing using cons_induction with
  | empty => cases h
  | cons n first rest _ ih =>
      obtain ⟨-, -, hentries, hrest⟩ := wellFormed_cons_iff.mp hwf
      rw [get?_cons] at h
      by_cases hn : n = name
      · rw [if_pos hn] at h
        exact hentries entries (Option.some.inj h)
      · rw [if_neg hn] at h
        exact ih hrest h

/-- A way starts with the name of an entry. -/
theorem NodeAt.head_mem {listing : Listing} {way : List Name} {node : Node}
    (h : listing.NodeAt way node) : ∃ name rest, way = name :: rest ∧ name ∈ listing.names := by
  cases h with
  | here h => exact ⟨_, _, rfl, mem_names_of_get? h⟩
  | through h _ => exact ⟨_, _, rfl, mem_names_of_get? h⟩

theorem not_nodeAt_nil {listing : Listing} {node : Node} : ¬listing.NodeAt [] node := by
  intro h
  obtain ⟨name, rest, hway, -⟩ := h.head_mem
  cases hway

/-- A way leads to one place. -/
theorem NodeAt.unique {listing : Listing} {way : List Name} {a b : Node}
    (ha : listing.NodeAt way a) (hb : listing.NodeAt way b) : a = b := by
  induction ha with
  | here h =>
    cases hb with
    | here h' => exact Option.some.inj (h.symm.trans h')
    | through _ hrest => exact absurd hrest not_nodeAt_nil
  | through h hrest ih =>
    cases hb with
    | here _ => exact absurd hrest not_nodeAt_nil
    | through h' hrest' =>
      obtain rfl := Node.dir.inj (Option.some.inj (h.symm.trans h'))
      exact ih hrest'

/-- Where a way leads depends on the entry of its first name alone. -/
theorem NodeAt.congr {a b : Listing} {name : Name} {way : List Name} {node : Node}
    (hget : a.get? name = b.get? name) (h : a.NodeAt (name :: way) node) :
    b.NodeAt (name :: way) node := by
  cases h with
  | here h => exact .here (hget ▸ h)
  | through h hrest => exact .through (hget ▸ h) hrest

@[simp] theorem not_nodeAt_empty (way : List Name) (node : Node) :
    ¬Listing.empty.NodeAt way node := by
  intro h
  obtain ⟨name, rest, -, hmem⟩ := h.head_mem
  exact absurd hmem List.not_mem_nil

/-- A way leads to the first entry, or through it, or to where it leads among the others. -/
theorem nodeAt_cons_iff {name : Name} {first : Node} {rest : Listing} (hname : name ∉ rest.names)
    {way : List Name} {node : Node} :
    (cons name first rest).NodeAt way node ↔
      (way = [name] ∧ node = first) ∨
        (∃ entries more, first = .dir entries ∧ way = name :: more ∧ entries.NodeAt more node) ∨
          rest.NodeAt way node := by
  have hself : (cons name first rest).get? name = some first := by
    rw [get?_cons, if_pos rfl]
  have hother : ∀ other, name ≠ other → (cons name first rest).get? other = rest.get? other := by
    intro other hne
    rw [get?_cons, if_neg hne]
  constructor
  · intro h
    obtain ⟨n, more, rfl, -⟩ := h.head_mem
    by_cases hn : name = n
    · subst n
      cases h with
      | here h => exact .inl ⟨rfl, Option.some.inj (h.symm.trans hself)⟩
      | through h hmore =>
          exact .inr (.inl ⟨_, more, Option.some.inj (hself.symm.trans h), rfl, hmore⟩)
    · exact .inr (.inr (h.congr (hother n hn)))
  · rintro (⟨rfl, rfl⟩ | ⟨entries, more, rfl, rfl, hmore⟩ | h)
    · exact .here hself
    · exact .through hself hmore
    · obtain ⟨n, more, rfl, hmem⟩ := h.head_mem
      have hn : name ≠ n := fun heq => hname (heq ▸ hmem)
      exact h.congr (hother n hn).symm

theorem nodeAt_file_iff {name : Name} {content : Content} {rest : Listing}
    (hname : name ∉ rest.names) {way : List Name} {node : Node} :
    (Listing.file name content rest).NodeAt way node ↔
      (way = [name] ∧ node = .file content) ∨ rest.NodeAt way node := by
  have h : (cons name (.file content) rest).NodeAt way node ↔ _ := nodeAt_cons_iff hname
  simpa [cons] using h

theorem nodeAt_link_iff {name : Name} {target : Path} {rest : Listing}
    (hname : name ∉ rest.names) {way : List Name} {node : Node} :
    (Listing.link name target rest).NodeAt way node ↔
      (way = [name] ∧ node = .link target) ∨ rest.NodeAt way node := by
  have h : (cons name (.link target) rest).NodeAt way node ↔ _ := nodeAt_cons_iff hname
  simpa [cons] using h

theorem nodeAt_dir_iff {name : Name} {entries rest : Listing}
    (hname : name ∉ rest.names) {way : List Name} {node : Node} :
    (Listing.dir name entries rest).NodeAt way node ↔
      (way = [name] ∧ node = .dir entries) ∨
        (∃ more, way = name :: more ∧ entries.NodeAt more node) ∨ rest.NodeAt way node := by
  have h : (cons name (.dir entries) rest).NodeAt way node ↔ _ := nodeAt_cons_iff hname
  simpa [cons] using h

/-- The names on a way in a well-formed tree are proper. -/
theorem WellFormed.proper {listing : Listing} (hwf : listing.WellFormed) {way : List Name}
    {node : Node} (h : listing.NodeAt way node) : ∀ name ∈ way, name.Proper := by
  induction listing using cons_induction generalizing way with
  | empty => exact absurd h (not_nodeAt_empty way node)
  | cons n first rest ihentries ih =>
      obtain ⟨hproper, hn, hentries, hrest⟩ := wellFormed_cons_iff.mp hwf
      rcases (nodeAt_cons_iff hn).mp h with ⟨rfl, -⟩ | ⟨entries, more, rfl, rfl, hmore⟩ | h
      · exact List.forall_mem_singleton.mpr hproper
      · exact List.forall_mem_cons.mpr
          ⟨hproper, ihentries entries rfl (hentries entries rfl) hmore⟩
      · exact ih hrest h

/-! ## Files -/

/-- The regular files in a directory and in those below it. -/
def files : Listing → List FileBelow
  | .empty => []
  | .file name content rest => ⟨[], name, content⟩ :: rest.files
  | .link _ _ rest => rest.files
  | .dir name entries rest => entries.files.map (·.under name) ++ rest.files

/-- The files of a tree are what stands at the end of a way and is a file. -/
theorem mem_files_iff {listing : Listing} (hwf : listing.WellFormed) {file : FileBelow} :
    file ∈ listing.files ↔ listing.NodeAt file.way (.file file.content) := by
  induction listing generalizing file with
  | empty => simp [files]
  | file n content rest ih =>
      obtain ⟨-, hn, hrest⟩ := hwf
      rw [files, List.mem_cons, nodeAt_file_iff hn, ih hrest, FileBelow.eq_here_iff]
      simp only [Node.file.injEq]
  | link n target rest ih =>
      obtain ⟨-, hn, hrest⟩ := hwf
      rw [files, nodeAt_link_iff hn, ih hrest]
      simp
  | dir n entries rest ihentries ih =>
      obtain ⟨-, hn, hentries, hrest⟩ := hwf
      rw [files, List.mem_append, nodeAt_dir_iff hn, ih hrest, List.mem_map]
      constructor
      · rintro (⟨inner, hinner, rfl⟩ | h)
        · exact .inr (.inl ⟨inner.way, rfl, (ihentries hentries).mp hinner⟩)
        · exact .inr (.inr h)
      · rintro (⟨-, h⟩ | ⟨more, hway, h⟩ | h)
        · exact absurd h (by simp)
        · obtain ⟨first, _, rfl, -⟩ := h.head_mem
          obtain ⟨inner, rfl, hmore⟩ := FileBelow.exists_under hway
          rw [← hmore] at h
          exact .inl ⟨inner, (ihentries hentries).mpr h, rfl⟩
        · exact .inr h

/-- No file of a tree is listed twice. -/
theorem nodup_files {listing : Listing} (hwf : listing.WellFormed) : listing.files.Nodup := by
  induction listing with
  | empty => exact List.nodup_nil
  | file n content rest ih =>
      obtain ⟨-, hn, hrest⟩ := hwf
      refine List.nodup_cons.mpr ⟨fun hmem => ?_, ih hrest⟩
      obtain ⟨first, _, hway, hfirst⟩ := ((mem_files_iff hrest).mp hmem).head_mem
      obtain ⟨rfl, -⟩ := List.cons.inj hway
      exact hn hfirst
  | link n target rest ih => exact ih hwf.2.2
  | dir n entries rest ihentries ih =>
      obtain ⟨-, hn, hentries, hrest⟩ := hwf
      refine List.Nodup.append ((ihentries hentries).map fun _ _ => FileBelow.under_inj)
        (ih hrest) fun file hbelow hmem => ?_
      obtain ⟨inner, -, rfl⟩ := List.mem_map.mp hbelow
      obtain ⟨first, _, hway, hfirst⟩ := ((mem_files_iff hrest).mp hmem).head_mem
      obtain ⟨rfl, -⟩ := List.cons.inj hway
      exact hn hfirst

/-! ## Files of one entry -/

end Listing

/-- The regular files at an entry of the given name and below it. -/
def Node.files (name : Name) : Node → List FileBelow
  | .file content => [⟨[], name, content⟩]
  | .link _ => []
  | .dir entries => entries.files.map (·.under name)

theorem Node.head?_way_of_mem_files {node : Node} {name : Name} {file : FileBelow}
    (h : file ∈ node.files name) : file.way.head? = some name := by
  cases node with
  | file content =>
      obtain rfl := List.mem_singleton.mp h
      rfl
  | link target => exact absurd h List.not_mem_nil
  | dir entries =>
      obtain ⟨inner, -, rfl⟩ := List.mem_map.mp h
      rfl

namespace Listing

theorem files_cons (name : Name) (first : Node) (rest : Listing) :
    (cons name first rest).files = first.files name ++ rest.files := by
  cases first <;> rfl

theorem head?_way_mem_names {listing : Listing} {file : FileBelow} (h : file ∈ listing.files)
    {name : Name} (hname : file.way.head? = some name) : name ∈ listing.names := by
  induction listing using cons_induction with
  | empty => exact absurd h List.not_mem_nil
  | cons n first rest _ ih =>
      rw [names_cons]
      rw [files_cons] at h
      rcases List.mem_append.mp h with h | h
      · rw [Node.head?_way_of_mem_files h] at hname
        exact Option.some.inj hname ▸ List.mem_cons_self
      · exact List.mem_cons_of_mem n (ih h)

/-- The files on ways that start with the name of an entry are those of the entry. -/
theorem filter_head?_files {listing : Listing} (hwf : listing.WellFormed) {name : Name}
    {node : Node} (hget : listing.get? name = some node) :
    (listing.files.filter fun file => file.way.head? = some name) = node.files name := by
  induction listing using cons_induction with
  | empty => cases hget
  | cons n first rest _ ih =>
      obtain ⟨-, hn, -, hrest⟩ := wellFormed_cons_iff.mp hwf
      rw [get?_cons] at hget
      rw [files_cons, List.filter_append]
      by_cases hname : n = name
      · subst n
        rw [if_pos rfl] at hget
        have hfirst : (first.files name).filter (fun file => file.way.head? = some name) =
            first.files name := by
          rw [List.filter_eq_self]
          exact fun file hfile => decide_eq_true (Node.head?_way_of_mem_files hfile)
        have hothers : rest.files.filter (fun file => file.way.head? = some name) = [] := by
          rw [List.filter_eq_nil_iff]
          exact fun file hfile heq => hn (head?_way_mem_names hfile (of_decide_eq_true heq))
        rw [hfirst, hothers, List.append_nil, Option.some.inj hget]
      · rw [if_neg hname] at hget
        have hfirst : (first.files n).filter (fun file => file.way.head? = some name) = [] := by
          rw [List.filter_eq_nil_iff]
          intro file hfile heq
          have heq := of_decide_eq_true heq
          rw [Node.head?_way_of_mem_files hfile] at heq
          exact hname (Option.some.inj heq)
        rw [hfirst, List.nil_append, ih hrest hget]

end Listing

end GuestFiles.Host
