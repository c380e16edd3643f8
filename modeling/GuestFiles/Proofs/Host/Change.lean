import GuestFiles.Host.Change
import GuestFiles.Proofs.Host.Lookup

/-! # Trees that are built up

Adding to a well-formed tree keeps it well-formed, wherever the links on the way lead. So every file
system that is built up from an empty working directory is well-formed. No addition takes a
directory away, so none is refused for the sake of the working directory. -/

namespace GuestFiles.Host

namespace Listing

variable {listing : Listing} {name : Name} {node : Node}

theorem wellFormed_empty : Listing.empty.WellFormed := trivial

theorem put_cons (n : Name) (first : Node) (rest : Listing) (name : Name) (node : Node) :
    (cons n first rest).put name node =
      if n = name then cons name node rest else cons n first (rest.put name node) := by
  cases first <;> rfl

theorem mem_names_put {other : Name} (h : other ∈ (listing.put name node).names) :
    other = name ∨ other ∈ listing.names := by
  induction listing using cons_induction with
  | empty =>
    rw [put, names_cons] at h
    exact List.mem_cons.mp h
  | cons n first rest _ ih =>
    rw [put_cons] at h
    rw [names_cons, List.mem_cons]
    by_cases hn : n = name
    · rw [if_pos hn, names_cons] at h
      exact (List.mem_cons.mp h).imp_right .inr
    · rw [if_neg hn, names_cons] at h
      rcases List.mem_cons.mp h with rfl | h
      · exact .inr (.inl rfl)
      · exact (ih h).imp_right .inr

theorem WellFormed.put (hwf : listing.WellFormed) (hname : name.Proper)
    (hnode : ∀ entries, node = .dir entries → entries.WellFormed) :
    (listing.put name node).WellFormed := by
  induction listing using cons_induction with
  | empty => exact wellFormed_cons_iff.mpr ⟨hname, List.not_mem_nil, hnode, trivial⟩
  | cons n first rest _ ih =>
    obtain ⟨hn, hother, hfirst, hrest⟩ := wellFormed_cons_iff.mp hwf
    rw [put_cons]
    by_cases heq : n = name
    · rw [if_pos heq]
      exact wellFormed_cons_iff.mpr ⟨hname, heq ▸ hother, hnode, hrest⟩
    · rw [if_neg heq]
      have hkept : n ∉ (rest.put name node).names := fun hmem =>
        (mem_names_put hmem).elim heq hother
      exact wellFormed_cons_iff.mpr ⟨hn, hkept, hfirst, ih hrest⟩

/-- Changed entries are put back into the directory above, and so on up to the top. -/
theorem wellFormed_foldl_put {above : List (Name × Listing)} {entries : Listing}
    (habove : ∀ step ∈ above, step.1.Proper ∧ step.2.WellFormed) (hwf : entries.WellFormed) :
    (above.foldl (fun entries step => step.2.put step.1 (.dir entries)) entries).WellFormed := by
  induction above generalizing entries with
  | nil => exact hwf
  | cons step rest ih =>
    obtain ⟨⟨hname, hparent⟩, hrest⟩ := List.forall_mem_cons.mp habove
    exact ih hrest (hparent.put hname fun inner hinner => Node.dir.inj hinner ▸ hwf)

end Listing

theorem Trail.WellFormed.put {trail : Trail} (h : trail.WellFormed) {name : Name} {node : Node}
    (hname : name.Proper) (hnode : ∀ entries, node = .dir entries → entries.WellFormed) :
    (trail.put name node).WellFormed :=
  Listing.wellFormed_foldl_put h.above (h.here.put hname hnode)

namespace Disk

variable {disk next : Disk} {path : Path}

theorem wellFormed_around {listing : Listing} (h : listing.WellFormed) :
    (around listing).top.WellFormed :=
  ⟨by decide, List.not_mem_nil, h, trivial⟩

theorem wellFormed_of_put? {trail : Trail} (htrail : trail.WellFormed) {name : Name} {node : Node}
    (hname : name.Proper) (hnode : ∀ entries, node = .dir entries → entries.WellFormed)
    (h : disk.put? trail name node = some next) : next.top.WellFormed := by
  simp only [put?] at h
  split_ifs at h
  obtain rfl := Option.some.inj h
  exact htrail.put hname hnode

theorem wellFormed_of_makeDir? (hwf : disk.top.WellFormed) (h : disk.makeDir? path = some next) :
    next.top.WellFormed := by
  rw [makeDir?] at h
  split at h
  · exact Option.some.inj h ▸ hwf
  · next trail name hlocate =>
    obtain ⟨htrail, hname, -⟩ := locate_wellFormed hwf hlocate
    exact wellFormed_of_put? htrail hname
      (fun _ hdir => Node.dir.inj hdir ▸ Listing.wellFormed_empty) h
  · cases h

theorem wellFormed_of_makeWay? (hwf : disk.top.WellFormed) (h : disk.makeWay? path = some next) :
    next.top.WellFormed := by
  rw [makeWay?] at h
  generalize path.way = paths at h
  induction paths generalizing disk with
  | nil => exact Option.some.inj h ▸ hwf
  | cons first rest ih =>
    rw [List.foldlM_cons] at h
    obtain ⟨made, hmade, hrest⟩ := Option.bind_eq_some_iff.mp h
    exact ih (wellFormed_of_makeDir? hwf hmade) hrest

theorem wellFormed_of_addDir? (hwf : disk.top.WellFormed) (h : disk.addDir? path = some next) :
    next.top.WellFormed := by
  rw [addDir?] at h
  split_ifs at h
  · exact Option.some.inj h ▸ hwf
  · obtain ⟨made, hmade, hlast⟩ := Option.bind_eq_some_iff.mp h
    exact wellFormed_of_makeDir? (wellFormed_of_makeWay? hwf hmade) hlast

theorem wellFormed_of_addFile? {content : Content} (hwf : disk.top.WellFormed)
    (h : disk.addFile? path content = some next) : next.top.WellFormed := by
  obtain ⟨made, hmade, hlast⟩ := Option.bind_eq_some_iff.mp h
  split at hlast
  · next trail name _ _ hlocate =>
    obtain ⟨htrail, hname, -⟩ := locate_wellFormed (wellFormed_of_makeWay? hwf hmade) hlocate
    exact wellFormed_of_put? htrail hname (fun _ hdir => by cases hdir) hlast
  · cases hlast

theorem wellFormed_of_addLink? {target : Path} (hwf : disk.top.WellFormed)
    (h : disk.addLink? path target = some next) : next.top.WellFormed := by
  obtain ⟨made, hmade, hlast⟩ := Option.bind_eq_some_iff.mp h
  split at hlast
  · next trail name hlocate =>
    obtain ⟨htrail, hname, -⟩ := locate_wellFormed (wellFormed_of_makeWay? hwf hmade) hlocate
    exact wellFormed_of_put? htrail hname (fun _ hdir => by cases hdir) hlast
  · cases hlast

/-- The file systems that additions lead to from an empty working directory. -/
inductive Built : Disk → Prop where
  | empty : Built (around .empty)
  | addDir {disk next : Disk} {path : Path} (h : Built disk)
    (hadd : disk.addDir? path = some next) : Built next
  | addFile {disk next : Disk} {path : Path} {content : Content} (h : Built disk)
    (hadd : disk.addFile? path content = some next) : Built next
  | addLink {disk next : Disk} {path target : Path} (h : Built disk)
    (hadd : disk.addLink? path target = some next) : Built next

theorem Built.wellFormed (h : disk.Built) : disk.top.WellFormed := by
  induction h with
  | empty => exact wellFormed_around Listing.wellFormed_empty
  | addDir _ hadd ih => exact wellFormed_of_addDir? ih hadd
  | addFile _ hadd ih => exact wellFormed_of_addFile? ih hadd
  | addLink _ hadd ih => exact wellFormed_of_addLink? ih hadd

end Disk

/-! ## Directories that stay -/

namespace Listing

/-- Names lead through directories to a directory. -/
def HasDir : Listing → List Name → Prop
  | _, [] => True
  | listing, name :: rest =>
    ∃ entries, listing.get? name = some (.dir entries) ∧ entries.HasDir rest

variable {listing entries changed : Listing} {name : Name} {node : Node} {way : List Name}

theorem get?_put (listing : Listing) (name : Name) (node : Node) (sought : Name) :
    (listing.put name node).get? sought =
      if name = sought then some node else listing.get? sought := by
  induction listing using cons_induction with
  | empty => rw [put, get?_cons]
  | cons n first rest _ ih =>
    rw [put_cons, get?_cons]
    by_cases hn : n = name
    · subst hn
      rw [if_pos rfl, get?_cons]
      split_ifs <;> rfl
    · rw [if_neg hn, get?_cons, ih]
      by_cases hsought : n = sought
      · rw [if_pos hsought, if_pos hsought, if_neg (hsought ▸ Ne.symm hn)]
      · rw [if_neg hsought, if_neg hsought]

theorem HasDir.put_entry (hget : ∀ entries, listing.get? name ≠ some (.dir entries))
    (h : listing.HasDir way) : (listing.put name node).HasDir way := by
  cases way with
  | nil => trivial
  | cons first rest =>
    obtain ⟨entries, hfirst, hrest⟩ := h
    have hne : name ≠ first := fun heq => hget entries (heq ▸ hfirst)
    refine ⟨entries, ?_, hrest⟩
    rw [get?_put, if_neg hne, hfirst]

theorem HasDir.put_dir (hget : listing.get? name = some (.dir entries))
    (hkept : ∀ way, entries.HasDir way → changed.HasDir way) (h : listing.HasDir way) :
    (listing.put name (.dir changed)).HasDir way := by
  cases way with
  | nil => trivial
  | cons first rest =>
    obtain ⟨inner, hfirst, hrest⟩ := h
    by_cases heq : name = first
    · subst heq
      obtain rfl := Node.dir.inj (Option.some.inj (hget.symm.trans hfirst))
      refine ⟨changed, ?_, hkept rest hrest⟩
      rw [get?_put, if_pos rfl]
    · refine ⟨inner, ?_, hrest⟩
      rw [get?_put, if_neg heq, hfirst]

end Listing

namespace Trail

variable {top changed : Listing} {trail : Trail} {way : List Name}

theorem isSome_descend?_iff : (trail.descend? way).isSome ↔ trail.here.HasDir way := by
  induction way generalizing trail with
  | nil => simp [descend?, Listing.HasDir]
  | cons name rest ih =>
    simp only [Option.isSome_iff_exists, descend?_cons_eq_some_iff] at ih ⊢
    rw [exists_comm]
    simp only [exists_and_left, ih, Listing.HasDir, down]

/-- The trail leads down from the top, each of its directories standing in the one above. -/
inductive Leads (top : Listing) : Trail → Prop where
  | top : Leads top ⟨top, []⟩
  | down {trail : Trail} {name : Name} {entries : Listing} (h : Leads top trail)
    (hget : trail.here.get? name = some (.dir entries)) : Leads top (trail.down name entries)

theorem Leads.top_eq (h : Leads top trail) : trail.top = ⟨top, []⟩ := by
  induction h with
  | top => rfl
  | @down trail name entries _ _ ih =>
    rw [Trail.top] at ih ⊢
    rw [Trail.down, List.getLast?_cons]
    cases hlast : trail.above.getLast? with
    | none =>
      rw [hlast] at ih
      simp only [Option.getD_none, ih]
    | some step =>
      rw [hlast] at ih
      exact ih

theorem kept_leads (top : Listing) : Kept (Leads top) where
  up h := by
    cases h with
    | top => exact .top
    | down h _ => exact h
  top h := h.top_eq ▸ .top
  down := .down

/-- What is kept of a directory, is kept of all above it. -/
theorem Leads.hasDir_foldl (h : Leads top trail)
    (hkept : ∀ way, trail.here.HasDir way → changed.HasDir way) (hway : top.HasDir way) :
    (trail.above.foldl (fun entries step => step.2.put step.1 (.dir entries)) changed).HasDir
      way := by
  induction h generalizing changed with
  | top => exact hkept way hway
  | down _ hget ih => exact ih fun way hway => hway.put_dir hget hkept

end Trail

/-- Whatever is put at a place without a directory, the working directory stays. -/
theorem Disk.exists_put?_of_locate {disk : Disk} {path : Path} {trail : Trail} {name : Name}
    {content? : Option Content} {linked : Bool}
    (h : disk.locate path = .ok ⟨.entry trail name content?, linked⟩) (node : Node) :
    ∃ next, disk.put? trail name node = some next := by
  obtain ⟨htrail, -, hget⟩ : Spot.Keeps (Trail.Leads disk.top) (.entry trail name content?) :=
    keeps_locate (Trail.kept_leads disk.top) .top h
  have hfree : ∀ entries, trail.here.get? name ≠ some (.dir entries) := by
    intro entries hdir
    rw [hget] at hdir
    cases content? <;> cases hdir
  have hstays : ((Trail.mk (trail.put name node) []).descend? disk.way).isSome :=
    Trail.isSome_descend?_iff.mpr
      (htrail.hasDir_foldl (fun _ hway => hway.put_entry hfree)
        (Trail.isSome_descend?_iff.mp disk.exists_here))
  exact ⟨_, dif_pos hstays⟩

end GuestFiles.Host
