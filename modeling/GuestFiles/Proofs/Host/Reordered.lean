import GuestFiles.Proofs.Host.Lookup

/-! # Trees whose directories are listed in other orders

A host may list the entries of a directory in any order. The order changes neither what stands in a
tree at the end of a way, nor where a path leads. -/

namespace GuestFiles.Host

namespace Listing

/-- Two listings of one directory: the same entries in orders of their own, in the directory and in
those below it. -/
inductive Reordered : Listing → Listing → Prop where
  | refl (listing : Listing) : Reordered listing listing
  | cons (name : Name) (first : Node) {rest rest' : Listing} (h : Reordered rest rest') :
      Reordered (cons name first rest) (cons name first rest')
  | inside (name : Name) {entries entries' : Listing} (rest : Listing)
      (h : Reordered entries entries') :
      Reordered (cons name (.dir entries) rest) (cons name (.dir entries') rest)
  | swap {a b : Name} (hne : a ≠ b) (x y : Node) (rest : Listing) :
      Reordered (cons a x (cons b y rest)) (cons b y (cons a x rest))
  | trans {a b c : Listing} (hab : Reordered a b) (hbc : Reordered b c) : Reordered a c

end Listing

/-- Two readings of one node: the same file or link, or a directory listed in two orders. -/
inductive Node.Reordered : Node → Node → Prop where
  | refl (node : Node) : Reordered node node
  | dir {entries entries' : Listing} (h : entries.Reordered entries') :
      Reordered (.dir entries) (.dir entries')

theorem Node.Reordered.trans {a b c : Node} (hab : a.Reordered b) (hbc : b.Reordered c) :
    a.Reordered c := by
  cases hab with
  | refl => exact hbc
  | dir hab =>
      cases hbc with
      | refl => exact .dir hab
      | dir hbc => exact .dir (hab.trans hbc)

namespace Listing

variable {listing listing' : Listing}

theorem Reordered.symm (h : listing.Reordered listing') : listing'.Reordered listing := by
  induction h with
  | refl listing => exact .refl listing
  | cons name first _ ih => exact .cons name first ih
  | inside name rest _ ih => exact .inside name rest ih
  | swap hne x y rest => exact .swap hne.symm y x rest
  | trans _ _ ihab ihbc => exact .trans ihbc ihab

/-! ## Entries -/

theorem Reordered.mem_names_iff (h : listing.Reordered listing') (name : Name) :
    name ∈ listing.names ↔ name ∈ listing'.names := by
  induction h with
  | refl listing => rfl
  | cons n first _ ih => simp only [names_cons, List.mem_cons, ih]
  | inside n rest _ _ => simp only [names_cons, List.mem_cons]
  | swap _ x y rest => simp only [names_cons, List.mem_cons, or_left_comm]
  | trans _ _ ihab ihbc => exact ihab.trans ihbc

theorem Reordered.wellFormed (h : listing.Reordered listing') (hwf : listing.WellFormed) :
    listing'.WellFormed := by
  induction h with
  | refl listing => exact hwf
  | cons name first hrest ih =>
      obtain ⟨hname, hother, hfirst, hwf⟩ := wellFormed_cons_iff.mp hwf
      rw [hrest.mem_names_iff] at hother
      exact wellFormed_cons_iff.mpr ⟨hname, hother, hfirst, ih hwf⟩
  | inside name rest _ ih =>
      obtain ⟨hname, hother, hentries, hrest⟩ := wellFormed_cons_iff.mp hwf
      refine wellFormed_cons_iff.mpr ⟨hname, hother, ?_, hrest⟩
      rintro entries ⟨rfl⟩
      exact ih (hentries _ rfl)
  | swap hne x y rest =>
      obtain ⟨ha, hanot, hx, hwf⟩ := wellFormed_cons_iff.mp hwf
      obtain ⟨hb, hbnot, hy, hrest⟩ := wellFormed_cons_iff.mp hwf
      rw [names_cons, List.mem_cons, not_or] at hanot
      refine wellFormed_cons_iff.mpr ⟨hb, ?_, hy, wellFormed_cons_iff.mpr ⟨ha, hanot.2, hx, hrest⟩⟩
      rw [names_cons, List.mem_cons, not_or]
      exact ⟨hne.symm, hbnot⟩
  | trans _ _ ihab ihbc => exact ihbc (ihab hwf)

/-- Under each name stands the same, listed in another order if it is a directory. -/
theorem Reordered.get? (h : listing.Reordered listing') (name : Name) :
    Option.Rel Node.Reordered (listing.get? name) (listing'.get? name) := by
  have hrefl (found : Option Node) : Option.Rel Node.Reordered found found := by
    cases found with
    | none => exact .none
    | some node => exact .some (.refl node)
  induction h with
  | refl listing => exact hrefl _
  | cons n first _ ih =>
      rw [get?_cons, get?_cons]
      split_ifs
      · exact hrefl _
      · exact ih
  | inside n rest h _ =>
      rw [get?_cons, get?_cons]
      split_ifs
      · exact .some (.dir h)
      · exact hrefl _
  | @swap a b hne x y rest =>
      simp only [get?_cons]
      split_ifs with ha hb
      · exact absurd (ha.trans hb.symm) hne
      all_goals exact hrefl _
  | @trans a b c _ _ ihab ihbc =>
      generalize b.get? name = found at ihab ihbc
      generalize a.get? name = before at ihab ⊢
      generalize c.get? name = after at ihbc ⊢
      cases ihab with
      | none => exact ihbc
      | some hab =>
          cases ihbc with
          | some hbc => exact .some (hab.trans hbc)

/-- The same stands at the end of a way. -/
theorem NodeAt.reordered {way : List Name} {node : Node} (hat : listing.NodeAt way node)
    (h : listing.Reordered listing') :
    ∃ node', node.Reordered node' ∧ listing'.NodeAt way node' := by
  induction hat generalizing listing' with
  | @here _ name node hget =>
      have hrel := hget ▸ h.get? name
      cases hget' : listing'.get? name with
      | none => simp [hget'] at hrel
      | some node' => exact ⟨node', by simpa [hget'] using hrel, .here hget'⟩
  | @through _ name entries _ _ hget hrest ih =>
      have hrel := hget ▸ h.get? name
      cases hget' : listing'.get? name with
      | none => simp [hget'] at hrel
      | some node' =>
          rw [hget', Option.rel_some_some] at hrel
          cases hrel with
          | refl =>
              obtain ⟨node, hnode, hway⟩ := ih (.refl entries)
              exact ⟨node, hnode, .through hget' hway⟩
          | dir hentries =>
              obtain ⟨node, hnode, hway⟩ := ih hentries
              exact ⟨node, hnode, .through hget' hway⟩

theorem Reordered.nodeAt_file_iff (h : listing.Reordered listing') {way : List Name}
    {content : Content} :
    listing.NodeAt way (.file content) ↔ listing'.NodeAt way (.file content) := by
  have hside {a b : Listing} (h : a.Reordered b) (hat : a.NodeAt way (.file content)) :
      b.NodeAt way (.file content) := by
    obtain ⟨node, hnode, hat⟩ := hat.reordered h
    cases hnode with
    | refl => exact hat
  exact ⟨hside h, hside h.symm⟩

theorem Reordered.exists_dir_iff (h : listing.Reordered listing') {way : List Name} :
    (∃ entries, listing.NodeAt way (.dir entries)) ↔
      ∃ entries, listing'.NodeAt way (.dir entries) := by
  have hside {a b : Listing} (h : a.Reordered b) :
      (∃ entries, a.NodeAt way (.dir entries)) → ∃ entries, b.NodeAt way (.dir entries) := by
    rintro ⟨entries, hat⟩
    obtain ⟨node, hnode, hat⟩ := hat.reordered h
    cases hnode with
    | refl => exact ⟨_, hat⟩
    | dir _ => exact ⟨_, hat⟩
  exact ⟨hside h, hside h.symm⟩

end Listing

/-! ## Where paths lead -/

/-- The same fault, or two results that are related. -/
inductive SameOutcome {ε α β : Type} (r : α → β → Prop) : Except ε α → Except ε β → Prop where
  | error (e : ε) : SameOutcome r (.error e) (.error e)
  | ok {a : α} {b : β} (h : r a b) : SameOutcome r (.ok a) (.ok b)

theorem SameOutcome.map {ε α β γ δ : Type} {r : α → β → Prop} {s : γ → δ → Prop} {f : α → γ}
    {g : β → δ} {x : Except ε α} {y : Except ε β} (h : SameOutcome r x y)
    (hs : ∀ a b, r a b → s (f a) (g b)) : SameOutcome s (x.map f) (y.map g) := by
  cases h with
  | error e => exact .error e
  | ok h => exact .ok (hs _ _ h)

theorem SameOutcome.error_or_ok {ε α β : Type} {r : α → β → Prop} {x : Except ε α}
    {y : Except ε β} (h : SameOutcome r x y) :
    (∃ e, x = .error e ∧ y = .error e) ∨ ∃ a b, x = .ok a ∧ y = .ok b ∧ r a b := by
  cases h with
  | error e => exact .inl ⟨e, rfl, rfl⟩
  | ok h => exact .inr ⟨_, _, rfl, rfl, h⟩

/-- Two readings of one trail. -/
structure Trail.Reordered (trail trail' : Trail) : Prop where
  here : trail.here.Reordered trail'.here
  above : List.Forall₂ (fun step step' => step.2.Reordered step'.2) trail.above trail'.above

/-- Two readings of one file system, with one working directory. -/
structure Disk.Reordered (disk disk' : Disk) : Prop where
  top : disk.top.Reordered disk'.top
  way : disk.way = disk'.way

/-- Two readings of one place. -/
inductive Spot.Reordered : Spot → Spot → Prop where
  | dir {trail trail' : Trail} (h : trail.Reordered trail') : Reordered (.dir trail) (.dir trail')
  | entry (trail trail' : Trail) (name : Name) (content? : Option Content) :
      Reordered (.entry trail name content?) (.entry trail' name content?)

/-- Two readings of one place that was found. -/
structure Found.Reordered (found found' : Found) : Prop where
  spot : found.spot.Reordered found'.spot
  linked : found.linked = found'.linked

/-- Two readings of what a path leads to. -/
inductive Reached.Reordered : Reached → Reached → Prop where
  | file (content : Content) (linked : Bool) :
      Reordered ⟨.file content, linked⟩ ⟨.file content, linked⟩
  | dir {entries entries' : Listing} (h : entries.Reordered entries') (linked : Bool) :
      Reordered ⟨.dir entries, linked⟩ ⟨.dir entries', linked⟩

namespace Trail

variable {trail trail' : Trail}

theorem Reordered.down (h : trail.Reordered trail') (name : Name) {entries entries' : Listing}
    (hentries : entries.Reordered entries') :
    (trail.down name entries).Reordered (trail'.down name entries') :=
  ⟨hentries, .cons h.here h.above⟩

theorem Reordered.up (h : trail.Reordered trail') : trail.up.Reordered trail'.up := by
  obtain ⟨here, above⟩ := trail
  obtain ⟨here', above'⟩ := trail'
  obtain ⟨hhere, habove⟩ := h
  cases habove with
  | nil => exact ⟨hhere, .nil⟩
  | cons hstep hrest => exact ⟨hstep, hrest⟩

theorem forall₂_getLast? {α β : Type} {r : α → β → Prop} {xs : List α} {ys : List β}
    (h : List.Forall₂ r xs ys) : Option.Rel r xs.getLast? ys.getLast? := by
  induction h with
  | nil => exact .none
  | cons hfirst hrest ih =>
      cases hrest with
      | nil => exact .some hfirst
      | cons _ _ => simpa only [List.getLast?_cons_cons] using ih

theorem Reordered.top (h : trail.Reordered trail') : trail.top.Reordered trail'.top := by
  have hlast := forall₂_getLast? h.above
  rw [Trail.top, Trail.top]
  generalize trail.above.getLast? = last at hlast
  generalize trail'.above.getLast? = last' at hlast
  cases hlast with
  | none => exact h
  | some hstep => exact ⟨hstep, .nil⟩

theorem Reordered.start (h : trail.Reordered trail') (path : Path) :
    (trail.start path).Reordered (trail'.start path) := by
  by_cases habsolute : path.isAbsolute
  · simpa only [Trail.start, if_pos habsolute] using h.top
  · simpa only [Trail.start, if_neg habsolute] using h

/-- A way through directories leads down in both readings. -/
theorem Reordered.descend? {last last' : Trail} {way : List Name} (h : trail.Reordered trail')
    (hway : trail.descend? way = some last) (hway' : trail'.descend? way = some last') :
    last.Reordered last' := by
  induction way generalizing trail trail' with
  | nil =>
      obtain rfl := Option.some.inj hway
      obtain rfl := Option.some.inj hway'
      exact h
  | cons name rest ih =>
      obtain ⟨entries, hget, hrest⟩ := descend?_cons_eq_some_iff.mp hway
      obtain ⟨entries', hget', hrest'⟩ := descend?_cons_eq_some_iff.mp hway'
      have hentries : (Node.dir entries).Reordered (.dir entries') := by
        have hrel := h.here.get? name
        rwa [hget, hget', Option.rel_some_some] at hrel
      cases hentries with
      | refl => exact ih (h.down name (.refl entries)) hrest hrest'
      | dir hentries => exact ih (h.down name hentries) hrest hrest'

theorem follow_reordered {onLink onLink' : Trail → Path → List Name → Except Fault Found}
    (hlink : ∀ {trail trail' : Trail} (target : Path) (rest : List Name),
      trail.Reordered trail' →
        SameOutcome Found.Reordered (onLink trail target rest) (onLink' trail' target rest))
    (h : trail.Reordered trail') (names : List Name) :
    SameOutcome Found.Reordered (trail.follow onLink names) (trail'.follow onLink' names) := by
  induction names generalizing trail trail' with
  | nil => exact .ok ⟨.dir h, rfl⟩
  | cons name rest ih =>
      by_cases hself : name = [] ∨ name = selfName
      · rw [follow_self hself, follow_self hself]
        exact ih h
      by_cases hparent : name = parentName
      · subst hparent
        rw [follow_parent, follow_parent]
        exact ih h.up
      by_cases hlong : maxName < name.length
      · rw [follow_long hself hparent hlong, follow_long hself hparent hlong]
        exact .error _
      rw [follow_entry hself hparent hlong, follow_entry hself hparent hlong]
      -- What stands under the name decides how both go on.
      have hget := h.here.get? name
      generalize trail.here.get? name = found at hget ⊢
      generalize trail'.here.get? name = found' at hget ⊢
      cases hget with
      | none =>
          split_ifs
          · exact .ok ⟨.entry _ _ _ _, rfl⟩
          · exact .error _
      | @some node node' hnode =>
          cases hnode with
          | dir hentries => exact ih (h.down name hentries)
          | refl =>
              cases node with
              | file content =>
                  simp only
                  split_ifs
                  · exact .ok ⟨.entry _ _ _ _, rfl⟩
                  · exact .error _
              | dir entries => exact ih (h.down name (.refl entries))
              | link target => exact hlink target rest h

theorem resolve_reordered {links : Nat} (h : trail.Reordered trail') (names : List Name) :
    SameOutcome Found.Reordered (resolve links trail names) (resolve links trail' names) := by
  induction links generalizing trail trail' names with
  | zero => exact follow_reordered (fun _ _ _ => .error _) h names
  | succ links ih =>
      refine follow_reordered (fun target rest hlink => ?_) h names
      refine (ih (hlink.start target) _).map ?_
      intro found found' hfound
      exact ⟨hfound.spot, by rw [hfound.linked]⟩

end Trail

namespace Disk

variable {disk disk' : Disk}

theorem Reordered.here (h : disk.Reordered disk') : disk.here.Reordered disk'.here := by
  have htop : (Trail.mk disk.top []).Reordered (Trail.mk disk'.top []) := ⟨h.top, .nil⟩
  exact htop.descend? disk.descend?_way (h.way ▸ disk'.descend?_way)

theorem Reordered.locate (h : disk.Reordered disk') (path : Path) :
    SameOutcome Found.Reordered (disk.locate path) (disk'.locate path) := by
  rw [Disk.locate, Disk.locate]
  split_ifs
  · exact .error _
  · exact .error _
  · exact .error _
  · exact Trail.resolve_reordered (h.here.start path) _

end Disk

theorem Found.Reordered.reached {found found' : Found} (h : found.Reordered found') :
    SameOutcome Reached.Reordered found.reached found'.reached := by
  obtain ⟨spot, linked⟩ := found
  obtain ⟨spot', linked'⟩ := found'
  obtain ⟨hspot, rfl⟩ := h
  cases hspot with
  | dir htrail => exact .ok (.dir htrail.here linked)
  | entry _ _ _ content? =>
      cases content? with
      | none => exact .error _
      | some content => exact .ok (.file content linked)

/-- A path leads to the same in both readings, or both refuse it with the same fault. -/
theorem Disk.host_reordered {disk disk' : Disk} (h : disk.Reordered disk') (path : Path) :
    SameOutcome Reached.Reordered (disk.host path) (disk'.host path) := by
  rw [host, host]
  rcases (h.locate path).error_or_ok with ⟨fault, hfound, hfound'⟩ | ⟨_, _, hfound, hfound', h⟩
  · rw [hfound, hfound']
    exact .error fault
  · rw [hfound, hfound']
    exact h.reached

end GuestFiles.Host
