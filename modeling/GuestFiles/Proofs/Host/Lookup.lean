import GuestFiles.Host.Lookup
import GuestFiles.Proofs.Host.Tree
import Mathlib.Tactic.SplitIfs

/-! # Where paths lead

A path is followed by moves from directory to directory. What the moves keep holds wherever a path
leads, whatever links it goes through. So every directory that is reached in a well-formed tree is
well-formed itself. -/

namespace GuestFiles.Host

theorem exists_of_map_eq_ok {ε α β : Type} {f : α → β} {x : Except ε α} {b : β}
    (h : x.map f = .ok b) : ∃ a, x = .ok a ∧ f a = b := by
  cases x with
  | error e => cases h
  | ok a => exact ⟨a, rfl, Except.ok.inj h⟩

namespace Trail

variable {trail last : Trail} {names : List Name} {found : Found}

theorem descend?_cons_eq_some_iff {name : Name} {rest : List Name} :
    trail.descend? (name :: rest) = some last ↔
      ∃ entries, trail.here.get? name = some (.dir entries) ∧
        (trail.down name entries).descend? rest = some last := by
  rw [descend?]
  cases hget : trail.here.get? name with
  | none => simp
  | some node => cases node <;> simp

/-! ## One name -/

section Step

variable {onLink : Trail → Path → List Name → Except Fault Found} {name : Name} {rest : List Name}

theorem follow_self (h : name = [] ∨ name = selfName) :
    trail.follow onLink (name :: rest) = trail.follow onLink rest := by
  rw [follow, if_pos h]

theorem follow_parent :
    trail.follow onLink (parentName :: rest) = trail.up.follow onLink rest := by
  rw [follow, if_neg (by decide), if_pos rfl]

theorem follow_long (hself : ¬(name = [] ∨ name = selfName)) (hparent : name ≠ parentName)
    (hlong : maxName < name.length) :
    trail.follow onLink (name :: rest) = .error .nameTooLong := by
  rw [follow, if_neg hself, if_neg hparent, if_pos hlong]

/-- Any other name is looked up in the directory. -/
theorem follow_entry (hself : ¬(name = [] ∨ name = selfName)) (hparent : name ≠ parentName)
    (hlong : ¬maxName < name.length) :
    trail.follow onLink (name :: rest) =
      match trail.here.get? name with
      | none => if rest.isEmpty then .ok ⟨.entry trail name none, false⟩ else .error .noEntry
      | some (.file content) =>
        if rest.isEmpty then .ok ⟨.entry trail name (some content), false⟩
        else .error .notDirectory
      | some (.dir entries) => follow onLink (trail.down name entries) rest
      | some (.link target) => onLink trail target rest := by
  rw [follow, if_neg hself, if_neg hparent]
  exact if_neg hlong

end Step

/-! ## What moves keep -/

/-- A property that going up, to the top and down to a directory does not lose. -/
structure Kept (P : Trail → Prop) : Prop where
  up {trail : Trail} (h : P trail) : P trail.up
  top {trail : Trail} (h : P trail) : P trail.top
  down {trail : Trail} {name : Name} {entries : Listing} (h : P trail)
    (hget : trail.here.get? name = some (.dir entries)) : P (trail.down name entries)

variable {P : Trail → Prop}

theorem Kept.start (hP : Kept P) (h : P trail) (path : Path) : P (trail.start path) := by
  by_cases habsolute : path.isAbsolute
  · rw [Trail.start, if_pos habsolute]
    exact hP.top h
  · rwa [Trail.start, if_neg habsolute]

theorem Kept.descend? (hP : Kept P) {way : List Name} (h : P trail)
    (hway : trail.descend? way = some last) : P last := by
  induction way generalizing trail with
  | nil => exact Option.some.inj hway ▸ h
  | cons name rest ih =>
    obtain ⟨entries, hget, hrest⟩ := descend?_cons_eq_some_iff.mp hway
    exact ih (hP.down h hget) hrest

end Trail

/-- The trail to the place has the property. A name at its end is proper, and stands there for the
file that was found or for nothing. -/
def Spot.Keeps (P : Trail → Prop) : Spot → Prop
  | .dir trail => P trail
  | .entry trail name content? =>
    P trail ∧ name.Proper ∧ trail.here.get? name = content?.map .file

namespace Trail

variable {P : Trail → Prop} {trail : Trail} {names : List Name} {found : Found}

/-- Following keeps what its moves keep, when going on at a link does. -/
theorem Kept.follow (hP : Kept P) {onLink : Trail → Path → List Name → Except Fault Found}
    (hlink : ∀ {trail target rest found}, P trail → (∀ name ∈ rest, slash ∉ name) →
      onLink trail target rest = .ok found → found.spot.Keeps P)
    (htrail : P trail) (hnames : ∀ name ∈ names, slash ∉ name)
    (h : trail.follow onLink names = .ok found) : found.spot.Keeps P := by
  induction names generalizing trail with
  | nil =>
    obtain rfl := Except.ok.inj h
    exact htrail
  | cons name rest ih =>
    obtain ⟨hslash, hrest⟩ := List.forall_mem_cons.mp hnames
    by_cases hself : name = [] ∨ name = selfName
    · exact ih htrail hrest (follow_self hself ▸ h)
    by_cases hparent : name = parentName
    · subst hparent
      exact ih (hP.up htrail) hrest (follow_parent ▸ h)
    by_cases hlong : maxName < name.length
    · rw [follow_long hself hparent hlong] at h
      cases h
    rw [follow_entry hself hparent hlong] at h
    have hproper : name.Proper :=
      ⟨fun hnil => hself (.inl hnil), fun heq => hself (.inr heq), hparent, hslash⟩
    cases hget : trail.here.get? name with
    | none =>
      simp only [hget] at h
      split_ifs at h
      obtain rfl := Except.ok.inj h
      exact ⟨htrail, hproper, hget⟩
    | some node =>
      simp only [hget] at h
      cases node with
      | file content =>
        simp only at h
        split_ifs at h
        obtain rfl := Except.ok.inj h
        exact ⟨htrail, hproper, hget⟩
      | link target => exact hlink htrail hrest h
      | dir entries => exact ih (hP.down htrail hget) hrest h

theorem Kept.resolve (hP : Kept P) {links : Nat} (htrail : P trail)
    (hnames : ∀ name ∈ names, slash ∉ name) (h : trail.resolve links names = .ok found) :
    found.spot.Keeps P := by
  induction links generalizing trail names found with
  | zero => exact hP.follow (fun _ _ hfound => by cases hfound) htrail hnames h
  | succ links ih =>
    refine hP.follow (fun {trail target rest found} hbefore hrest hfound => ?_) htrail hnames h
    obtain ⟨inner, hinner, rfl⟩ := exists_of_map_eq_ok hfound
    have hgoing : ∀ name ∈ target.names ++ rest, slash ∉ name := fun name hmem =>
      (List.mem_append.mp hmem).elim Path.slash_not_mem_of_mem_cut (hrest name)
    have hspot : inner.spot.Keeps P := ih (hP.start hbefore _) hgoing hinner
    exact hspot

/-! ## Well-formed trails -/

/-- Every directory on the trail is well-formed, and the names that lead down it are proper. -/
structure WellFormed (trail : Trail) : Prop where
  here : trail.here.WellFormed
  above : ∀ step ∈ trail.above, step.1.Proper ∧ step.2.WellFormed

theorem wellFormed_mk_nil {listing : Listing} (h : listing.WellFormed) :
    (Trail.mk listing []).WellFormed :=
  ⟨h, by simp⟩

theorem kept_wellFormed : Kept WellFormed where
  up {trail} h := by
    obtain ⟨here, above⟩ := trail
    cases above with
    | nil => exact h
    | cons step rest =>
      obtain ⟨hstep, hrest⟩ := List.forall_mem_cons.mp h.above
      exact ⟨hstep.2, hrest⟩
  top {trail} h := by
    rw [Trail.top]
    cases hlast : trail.above.getLast? with
    | none => exact h
    | some step => exact wellFormed_mk_nil (h.above step (List.mem_of_getLast? hlast)).2
  down {trail name entries} h hget := by
    have hname : name.Proper := h.here.proper (.here hget) name List.mem_cons_self
    exact ⟨Listing.wellFormed_of_get? h.here hget,
      List.forall_mem_cons.mpr ⟨⟨hname, h.here⟩, h.above⟩⟩

end Trail

namespace Disk

variable {disk : Disk} {entries : Listing} {path : Path} {linked : Bool}

theorem descend?_way (disk : Disk) : (Trail.mk disk.top []).descend? disk.way = some disk.here :=
  (Option.some_get disk.exists_here).symm

/-- What moves keep from the top on, holds wherever a path leads. -/
theorem keeps_locate {P : Trail → Prop} (hP : Trail.Kept P) (htop : P ⟨disk.top, []⟩)
    {found : Found} (h : disk.locate path = .ok found) : found.spot.Keeps P := by
  rw [locate] at h
  split_ifs at h
  exact hP.resolve (hP.start (hP.descend? htop disk.descend?_way) path)
    (fun _ hmem => Path.slash_not_mem_of_mem_cut hmem) h

theorem locate_wellFormed (hwf : disk.top.WellFormed) {found : Found}
    (h : disk.locate path = .ok found) : found.spot.Keeps Trail.WellFormed :=
  keeps_locate Trail.kept_wellFormed (Trail.wellFormed_mk_nil hwf) h

theorem locate_fits {found : Found} (h : disk.locate path = .ok found) : path.fits := by
  rw [locate] at h
  split_ifs at h with _ hfits
  simpa using hfits

theorem exists_locate_of_host {reached : Reached} (h : disk.host path = .ok reached) :
    ∃ found, disk.locate path = .ok found ∧ found.reached = .ok reached := by
  cases hfound : disk.locate path with
  | error fault => simp [host, hfound, bind, Except.bind] at h
  | ok found => exact ⟨found, rfl, by simpa [host, hfound, bind, Except.bind] using h⟩

/-- The host reaches no path that is too long. -/
theorem fits_of_host {reached : Reached} (h : disk.host path = .ok reached) : path.fits := by
  obtain ⟨found, hfound, -⟩ := exists_locate_of_host h
  exact locate_fits hfound

/-- A directory that is reached is the last on a trail. -/
theorem exists_trail_of_host (h : disk.host path = .ok ⟨.dir entries, linked⟩) :
    ∃ trail : Trail, disk.locate path = .ok ⟨.dir trail, linked⟩ ∧ trail.here = entries := by
  obtain ⟨⟨spot, wasLinked⟩, hfound, hreached⟩ := exists_locate_of_host h
  cases spot with
  | dir trail =>
    simp only [Found.reached, Except.ok.injEq, Reached.mk.injEq, Target.dir.injEq] at hreached
    exact ⟨trail, hreached.2 ▸ hfound, hreached.1⟩
  | entry trail name content? => cases content? <;> simp [Found.reached] at hreached

/-- A directory that is reached is well-formed like the tree it stands in. -/
theorem wellFormed_of_host (hwf : disk.top.WellFormed)
    (h : disk.host path = .ok ⟨.dir entries, linked⟩) : entries.WellFormed := by
  obtain ⟨trail, hfound, rfl⟩ := exists_trail_of_host h
  have htrail : trail.WellFormed := locate_wellFormed hwf hfound
  exact htrail.here

end Disk

end GuestFiles.Host
