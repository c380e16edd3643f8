import GuestFiles.Proofs.Host.Reordered
import GuestFiles.Proofs.Search.Exact
import GuestFiles.Proofs.Search.Order

/-! # Sorted hits

The hits of a search come in the order in which the host lists its directories. No two of them
compare equal, for files of one name lie in different directories. So the sorted hits are the same
for every order of the directories. -/

namespace GuestFiles

open Host

variable {pattern : ControlBlock} {root : Path} {entries entries' : Listing}
  {hits hits' : List Hit}

/-! ## Hits of one directory -/

theorem Host.FileBelow.accepted_iff_of_reordered (h : entries.Reordered entries')
    {file : FileBelow} : file.Accepted pattern entries ↔ file.Accepted pattern entries' := by
  rw [Accepted, Accepted, h.nodeAt_file_iff]

theorem Asks.reordered (h : entries.Reordered entries') {way : List Name}
    (hasks : Asks pattern entries way) : Asks pattern entries' way := by
  cases hasks with
  | dir hat =>
      obtain ⟨inner, hat⟩ := h.exists_dir_iff.mp ⟨_, hat⟩
      exact .dir hat
  | file haccepted => exact .file ((FileBelow.accepted_iff_of_reordered h).mp haccepted)

/-- Files at different places have hits that do not compare equal. -/
theorem Host.FileBelow.eq_of_compare_hit (hwf : entries.WellFormed) {a b : FileBelow}
    (ha : entries.NodeAt a.way (.file a.content)) (hb : entries.NodeAt b.way (.file b.content))
    (h : compare (a.hit root) (b.hit root) = .eq) : a = b := by
  have hhost := (Hit.compare_eq_iff.mp h).2
  have hway : a.way = b.way :=
    Path.components_below_inj (hwf.proper ha) (hwf.proper hb) a.way_ne_nil b.way_ne_nil hhost
  have hcontent : Node.file a.content = Node.file b.content := ha.unique (hway ▸ hb)
  exact FileBelow.ext_way hway (Node.file.inj hcontent)

theorem Exact.pairwise_ne (hwf : entries.WellFormed) (h : Exact pattern root entries hits) :
    hits.Pairwise fun a b => compare a b ≠ .eq := by
  obtain ⟨files, hnodup, hmem, rfl⟩ := h.one_each
  rw [List.pairwise_map]
  refine List.Pairwise.imp_of_mem ?_ hnodup
  intro a b ha hb hne heq
  exact hne (FileBelow.eq_of_compare_hit hwf ((hmem a).mp ha).1 ((hmem b).mp hb).1 heq)

theorem Exact.perm (h : entries.Reordered entries') (hhits : Exact pattern root entries hits)
    (hhits' : Exact pattern root entries' hits') : hits.Perm hits' := by
  obtain ⟨files, hnodup, hmem, rfl⟩ := hhits.one_each
  obtain ⟨files', hnodup', hmem', rfl⟩ := hhits'.one_each
  have hfiles : files.Perm files' := by
    rw [List.perm_ext_iff_of_nodup hnodup hnodup']
    intro file
    rw [hmem, hmem', FileBelow.accepted_iff_of_reordered h]
  exact hfiles.map _

/-! ## Searches of one tree -/

/-- Two outcomes of a search over directories in two orders: both fail, with the same fault, or both
answer the same hits, which sorting puts in one order, each less than all after it. -/
inductive SameSorted (root : Path) : Except Failure (List Hit) → Except Failure (List Hit) → Prop
  where
  | failed (path path' : Path) (depth depth' : Nat) (fault : Fault) :
      SameSorted root (.error (.traversal root path depth fault))
        (.error (.traversal root path' depth' fault))
  | found {hits hits' : List Hit} (hsame : Hit.sort hits = Hit.sort hits')
      (hperm : (Hit.sort hits).Perm hits) (hperm' : (Hit.sort hits').Perm hits')
      (hne : hits.Pairwise fun a b => compare a b ≠ .eq)
      (hstrict : (Hit.sort hits).Pairwise fun a b => compare a b = .lt) :
      SameSorted root (.ok hits) (.ok hits')

theorem Exact.sameSorted (hwf : entries.WellFormed) (h : entries.Reordered entries')
    (hhits : Exact pattern root entries hits) (hhits' : Exact pattern root entries' hits') :
    SameSorted root (.ok hits) (.ok hits') := by
  have hne := hhits.pairwise_ne hwf
  exact .found (Hit.sort_eq_of_perm (hhits.perm h hhits') hne) (Hit.sort_perm hits)
    (Hit.sort_perm hits') hne (Hit.sort_strict hne)

theorem SameSorted.sort_eq (h : SameSorted root (.ok hits) (.ok hits')) :
    Hit.sort hits = Hit.sort hits' := by
  cases h with
  | found hsame => exact hsame

/-- One hit, or none, is in order. -/
theorem SameSorted.of_length_le_one (root : Path) (h : hits.length ≤ 1) :
    SameSorted root (.ok hits) (.ok hits) := by
  have hne : hits.Pairwise fun a b => compare a b ≠ .eq := by
    match hits, h with
    | [], _ => exact .nil
    | [hit], _ => exact List.pairwise_singleton _ hit
  exact .found rfl (Hit.sort_perm hits) (Hit.sort_perm hits) hne (Hit.sort_strict hne)

theorem examineAll_walk_reordered (hwf : entries.WellFormed) (h : entries.Reordered entries') :
    SameSorted root (examineAll pattern root (entries.walk root 1)).value
      (examineAll pattern root (entries'.walk root 1)).value := by
  have hwf' := h.wellFormed hwf
  by_cases hfits : ∀ way, Asks pattern entries way → (root.below way).fits
  · have hfits' : ∀ way, Asks pattern entries' way → (root.below way).fits := by
      intro way hasks
      exact hfits way (hasks.reordered h.symm)
    obtain ⟨hits, hvalue, hexact⟩ := examineAll_walk_exact hwf hfits
    obtain ⟨hits', hvalue', hexact'⟩ := examineAll_walk_exact hwf' hfits'
    rw [hvalue, hvalue']
    exact hexact.sameSorted hwf h hexact'
  · push Not at hfits
    obtain ⟨way, hasks, hlong⟩ := hfits
    obtain ⟨first, -, -, hvalue⟩ := examineAll_walk_stops hwf hasks hlong
    obtain ⟨first', -, -, hvalue'⟩ := examineAll_walk_stops hwf' (hasks.reordered h) hlong
    rw [hvalue, hvalue']
    exact .failed _ _ _ _ _

/-- However the directories of a file system are ordered, a search finds the same hits from every
root, and sorting puts them in the same order. No two of them compare equal, so each is less than
all after it. If the search fails in one order of the directories, it fails with the same fault in
every order. -/
theorem sort_search_of_reordered (disk disk' : Disk) (hwf : disk.top.WellFormed)
    (h : disk.Reordered disk') (root : Path) (pattern : ControlBlock) :
    SameSorted root (search pattern root disk.host).value
      (search pattern root disk'.host).value := by
  rcases (Disk.host_reordered h root).error_or_ok with
    ⟨fault, hroot, hroot'⟩ | ⟨reached, reached', hroot, hroot', hreached⟩
  · rw [search_of_error hroot, search_of_error hroot']
    exact .failed root root 0 0 fault
  · rw [search_of_ok hroot, search_of_ok hroot']
    cases hreached with
    | dir hentries linked =>
        rw [examineAll_walk_root, examineAll_walk_root]
        exact examineAll_walk_reordered (Disk.wellFormed_of_host hwf hroot) hentries
    | file content linked =>
        cases linked with
        | true => exact .of_length_le_one root (Nat.zero_le 1)
        | false =>
            have hvalue : (examineAll pattern root
                (Reached.walk root ⟨.file content, false⟩)).value = _ :=
              examineAll_root (Disk.fits_of_host hroot) content
            rw [hvalue]
            apply SameSorted.of_length_le_one
            split_ifs <;> simp

/-- Two files of one guest name, one of them in a directory with another file. -/
def twoNamed : Listing :=
  .file (Text.bytes "a.com") (.zeros 1)
    (.dir (Text.bytes "s")
      (.file (Text.bytes "A.COM") (.zeros 2) (.file (Text.bytes "b.com") (.zeros 3) .empty)) .empty)

/-- The same files, with both directories listed from the end. -/
def twoNamedReversed : Listing :=
  .dir (Text.bytes "s")
    (.file (Text.bytes "b.com") (.zeros 3) (.file (Text.bytes "A.COM") (.zeros 2) .empty))
    (.file (Text.bytes "a.com") (.zeros 1) .empty)

theorem reordered_twoNamed : twoNamed.Reordered twoNamedReversed := by
  have hinner : twoNamed.Reordered (.file (Text.bytes "a.com") (.zeros 1)
      (.dir (Text.bytes "s")
        (.file (Text.bytes "b.com") (.zeros 3) (.file (Text.bytes "A.COM") (.zeros 2) .empty))
        .empty)) :=
    .cons (Text.bytes "a.com") (.file (.zeros 1))
      (.inside (Text.bytes "s") .empty
        (.swap (by decide +kernel) (.file (.zeros 2)) (.file (.zeros 3)) .empty))
  exact hinner.trans (.swap (by decide +kernel) (.file (.zeros 1)) (.dir _) .empty)

/-- A file system with the files below its top, and beside them an empty working directory. -/
def served (files : Listing) : Disk :=
  ⟨.dir (Text.bytes "w") .empty (.dir (Text.bytes "srv") files .empty), [Text.bytes "w"], rfl⟩

/-- What is found, in the order of the first of them. -/
def namedHits : List Hit :=
  [⟨.ofText "/srv/a.com", "A.COM", 1⟩, ⟨.ofText "/srv/s/A.COM", "A.COM", 2⟩,
    ⟨.ofText "/srv/s/b.com", "B.COM", 3⟩]

theorem sort_search_of_reordered_two_named :
    (served twoNamed).top.WellFormed ∧ (served twoNamed).Reordered (served twoNamedReversed) ∧
      (search (.parse "*.com") (.ofText "/srv") (served twoNamed).host).value = .ok namedHits ∧
      (search (.parse "*.com") (.ofText "/srv") (served twoNamedReversed).host).value =
        .ok namedHits.reverse ∧
      Hit.sort namedHits = Hit.sort namedHits.reverse := by
  have hwf : (served twoNamed).top.WellFormed := by decide +kernel
  have hre : (served twoNamed).Reordered (served twoNamedReversed) :=
    ⟨.cons (Text.bytes "w") (.dir .empty)
      (.inside (Text.bytes "srv") .empty reordered_twoNamed), rfl⟩
  have hvalue : (search (.parse "*.com") (.ofText "/srv") (served twoNamed).host).value =
      .ok namedHits := rfl
  have hvalue' : (search (.parse "*.com") (.ofText "/srv") (served twoNamedReversed).host).value =
      .ok namedHits.reverse := rfl
  have hsorted := sort_search_of_reordered _ _ hwf hre (.ofText "/srv") (.parse "*.com")
  rw [hvalue, hvalue'] at hsorted
  exact ⟨hwf, hre, hvalue, hvalue', hsorted.sort_eq⟩

end GuestFiles
