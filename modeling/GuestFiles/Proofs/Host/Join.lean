import GuestFiles.Proofs.Host.Lookup
import GuestFiles.Proofs.Host.Order

/-! # Following a path one name further

The path of an entry leads through everything that the path of its directory leads through, links
included, and then to the entry. So an entry that is no link is reached under its own path, unless
that path is too long. -/

namespace GuestFiles.Host

/-- What is reached at an entry itself. A link would be followed. -/
def Node.reached? : Node → Option Reached
  | .file content => some ⟨.file content, false⟩
  | .dir entries => some ⟨.dir entries, false⟩
  | .link _ => none

namespace Path

/-! ## The names of the path of an entry -/

/-- The name of an entry stands behind a slash, which the path may end with already. -/
theorem bytes_join {path : Path} (hpath : path.bytes ≠ []) (name : Name) :
    (∃ front, path.bytes = front ++ [slash] ∧ (path.join name).bytes = front ++ slash :: name) ∨
      (path.join name).bytes = path.bytes ++ slash :: name := by
  obtain ⟨last, hlast⟩ := Option.ne_none_iff_exists'.mp (mt List.getLast?_eq_none_iff.mp hpath)
  by_cases hs : last = slash
  · obtain ⟨front, hfront⟩ := List.getLast?_eq_some_iff.mp (hs ▸ hlast)
    refine .inl ⟨front, hfront, ?_⟩
    simp [join, hfront]
  · right
    simp [join, hlast, hs]

theorem isAbsolute_join {path : Path} (hpath : path.bytes ≠ []) (name : Name) :
    (path.join name).isAbsolute = path.isAbsolute := by
  rcases bytes_join hpath name with ⟨front, hfront, hjoin⟩ | hjoin
  · rw [isAbsolute, isAbsolute, hjoin, hfront, List.head?_append, List.head?_append]
    rfl
  · rw [isAbsolute, isAbsolute, hjoin, List.head?_append_of_ne_nil _ hpath]

theorem zero_not_mem_join {path : Path} (hpath : path.bytes ≠ []) (hzero : 0 ∉ path.bytes)
    {name : Name} (hname : 0 ∉ name) : 0 ∉ (path.join name).bytes := by
  have hslash : (0 : UInt8) ≠ slash := by decide
  rcases bytes_join hpath name with ⟨front, hfront, hjoin⟩ | hjoin
  · rw [hfront] at hzero
    simp_all
  · simp_all

/-- The name of an entry stands in the place of the empty name behind a slash at the end. -/
theorem exists_names_join {path : Path} (hpath : path.bytes ≠ []) {name : Name}
    (hname : name.Proper) :
    ∃ front tail, path.names = front ++ tail ∧ (∀ other ∈ tail, other = []) ∧
      (path.join name).names = front ++ [name] := by
  have hcut : cut name = [name] := by
    have h := cut_intercalate (List.forall_mem_singleton.mpr hname) (List.cons_ne_nil name [])
    rwa [List.intercalate_singleton] at h
  rcases bytes_join hpath name with ⟨front, hfront, hjoin⟩ | hjoin
  · refine ⟨cut front, [[]], ?_, by simp, ?_⟩
    · rw [names, hfront, cut_append_slash, cut]
    · rw [names, hjoin, cut_append_slash, hcut]
  · refine ⟨path.names, [], by simp, by simp, ?_⟩
    rw [names, hjoin, cut_append_slash, hcut, names]

end Path

namespace Trail

variable {trail last : Trail} {front tail more : List Name} {found : Found} {linked : Bool}

/-- Empty names lead nowhere. -/
theorem follow_empty {onLink : Trail → Path → List Name → Except Fault Found}
    (htail : ∀ name ∈ tail, name = []) :
    trail.follow onLink tail = .ok ⟨.dir trail, false⟩ := by
  induction tail with
  | nil => rfl
  | cons name tail ih =>
    obtain ⟨hname, hrest⟩ := List.forall_mem_cons.mp htail
    rw [follow_self (.inl hname), ih hrest]

/-- Where names lead to a directory, further names in the place of empty ones lead on from it, if
they do behind a link. -/
theorem follow_append {onLink : Trail → Path → List Name → Except Fault Found}
    (htail : ∀ name ∈ tail, name = [])
    (hmore : last.follow onLink more = .ok found)
    (hlink : ∀ trail target rest, onLink trail target (rest ++ tail) = .ok ⟨.dir last, linked⟩ →
      onLink trail target (rest ++ more) = .ok found)
    (h : trail.follow onLink (front ++ tail) = .ok ⟨.dir last, linked⟩) :
    trail.follow onLink (front ++ more) = .ok found := by
  induction front generalizing trail with
  | nil =>
    rw [List.nil_append, follow_empty htail] at h
    cases h
    exact hmore
  | cons name rest ih =>
    rw [List.cons_append] at h ⊢
    by_cases hself : name = [] ∨ name = selfName
    · rw [follow_self hself] at h ⊢
      exact ih h
    by_cases hparent : name = parentName
    · subst hparent
      rw [follow_parent] at h ⊢
      exact ih h
    by_cases hlong : maxName < name.length
    · rw [follow_long hself hparent hlong] at h
      cases h
    rw [follow_entry hself hparent hlong] at h ⊢
    -- Only a directory or a link leads on to a directory.
    cases hget : trail.here.get? name with
    | none =>
      simp only [hget] at h
      split_ifs at h
      cases h
    | some node =>
      simp only [hget] at h ⊢
      cases node with
      | file content =>
        simp only at h
        split_ifs at h
        cases h
      | link target => exact hlink trail target rest h
      | dir entries => exact ih h

/-- The names behind a directory lead on from it, through whatever links its own names lead. -/
theorem resolve_append {links : Nat} {spot : Spot} (htail : ∀ name ∈ tail, name = [])
    (hne : more ≠ [])
    (hmore : ∀ onLink, last.follow onLink more = .ok ⟨spot, false⟩)
    (h : trail.resolve links (front ++ tail) = .ok ⟨.dir last, linked⟩) :
    trail.resolve links (front ++ more) = .ok ⟨spot, false⟩ := by
  induction links generalizing trail front linked with
  | zero => exact follow_append htail (hmore _) (fun _ _ _ hfound => nomatch hfound) h
  | succ links ih =>
    refine follow_append htail (hmore _) (fun trail target rest hfound => ?_) h
    obtain ⟨⟨inner, innerLinked⟩, hinner, heq⟩ := exists_of_map_eq_ok hfound
    obtain ⟨rfl, -⟩ := Found.mk.inj heq
    rw [← List.append_assoc] at hinner
    rw [← List.append_assoc, ih hinner]
    simp [Except.map, hne]

/-- An entry that is no link is reached from its directory. -/
theorem exists_follow_entry {name : Name} {node : Node} {reached : Reached}
    (hget : trail.here.get? name = some node) (hnode : node.reached? = some reached)
    (hname : name.Proper) (hlength : name.length ≤ maxName) :
    ∃ spot, (Found.mk spot false).reached = .ok reached ∧
      ∀ onLink, trail.follow onLink [name] = .ok ⟨spot, false⟩ := by
  have hself : ¬(name = [] ∨ name = selfName) := not_or.mpr ⟨hname.ne_nil, hname.ne_self⟩
  have hfollow : ∀ onLink, trail.follow onLink [name] = _ := fun onLink =>
    follow_entry hself hname.ne_parent (Nat.not_lt.mpr hlength)
  cases node with
  | file content =>
    refine ⟨.entry trail name (some content), ?_, fun onLink => ?_⟩
    · exact congrArg Except.ok (Option.some.inj hnode)
    · rw [hfollow, hget]
      rfl
  | link target => cases hnode
  | dir entries =>
    refine ⟨.dir (trail.down name entries), ?_, fun onLink => ?_⟩
    · exact congrArg Except.ok (Option.some.inj hnode)
    · rw [hfollow, hget]
      rfl

end Trail

namespace Disk

variable {disk : Disk} {entries : Listing} {root path : Path}

theorem locate_eq_ok_iff {found : Found} :
    disk.locate path = .ok found ↔ 0 ∉ path.bytes ∧ path.fits ∧ path.bytes ≠ [] ∧
      Trail.resolve maxLinks (disk.here.start path) path.names = .ok found := by
  rw [locate]
  by_cases hzero : 0 ∈ path.bytes
  · simp [hzero]
  by_cases hfits : path.fits
  · by_cases hempty : path.bytes = []
    · simp [hempty, hfits]
    · simp [hzero, hfits, hempty]
  · simp [hzero, hfits]

/-- An entry of a directory that is reached, and no link itself, is reached under its own path when
the path is not too long. -/
theorem host_join {linked : Bool} {name : Name} {node : Node} {reached : Reached}
    (hroot : disk.host root = .ok ⟨.dir entries, linked⟩)
    (hget : entries.get? name = some node) (hnode : node.reached? = some reached)
    (hname : name.Proper) (hlength : name.length ≤ maxName) (hzero : 0 ∉ name)
    (hfits : (root.join name).fits) : disk.host (root.join name) = .ok reached := by
  obtain ⟨trail, hlocate, rfl⟩ := exists_trail_of_host hroot
  obtain ⟨hrootZero, -, hpath, hresolve⟩ := locate_eq_ok_iff.mp hlocate
  obtain ⟨inner, hinner, hfollow⟩ := Trail.exists_follow_entry hget hnode hname hlength
  obtain ⟨front, tail, hnames, htail, hjoin⟩ := Path.exists_names_join hpath hname
  have hstart : disk.here.start (root.join name) = disk.here.start root := by
    rw [Trail.start, Trail.start, Path.isAbsolute_join hpath]
  have hfound : disk.locate (root.join name) = .ok ⟨inner, false⟩ := by
    refine locate_eq_ok_iff.mpr
      ⟨Path.zero_not_mem_join hpath hrootZero hzero, hfits, ?_, ?_⟩
    · rcases Path.bytes_join hpath name with ⟨_, _, heq⟩ | heq <;> simp [heq]
    · rw [hnames] at hresolve
      rw [hstart, hjoin]
      exact Trail.resolve_append htail (List.cons_ne_nil name []) hfollow hresolve
  rw [host, hfound]
  exact hinner

theorem host_join_of_not_fits {name : Name} {reached : Reached}
    (hroot : disk.host root = .ok reached) (hzero : 0 ∉ name)
    (hlong : ¬(root.join name).fits) : disk.host (root.join name) = .error .nameTooLong := by
  obtain ⟨found, hlocate, -⟩ := exists_locate_of_host hroot
  obtain ⟨hrootZero, -, hpath, -⟩ := locate_eq_ok_iff.mp hlocate
  have hjoin := Path.zero_not_mem_join hpath hrootZero hzero
  simp [host, locate, hjoin, hlong, bind, Except.bind]

end Disk

end GuestFiles.Host
