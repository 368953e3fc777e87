import StorageAccess.Proofs.FileIndex
/-!
# The entries shown for a folder of a drive

A folder's entries are looked for by its path, anywhere in the paths of the index. The
children are always among what is found. A file that is none is found too when what
follows the first place of the folder's path in its own has no slash behind its
first character.
-/

open Posix

namespace StorageAccess

/-- Where a text is first found. -/
theorem find_eq_some_iff {needle s : Str} {n : Nat} :
    find needle s = some n ↔ ∃ u v, s = u ++ (needle ++ v) ∧ u.length = n ∧ ∀ m < n, ¬ needle <+: s.drop m := by
  have hget {i : Nat} (hi : i < s.tails.length) : s.tails[i] = s.drop i := List.getElem_tails ..
  unfold find
  rw [List.findIdx?_eq_some_iff_getElem]
  simp only [hget, List.isPrefixOf_iff_prefix]
  constructor
  · rintro ⟨hn, ⟨v, hv⟩, hbefore⟩
    have hle : n ≤ s.length := by
      rw [List.length_tails] at hn
      omega
    refine ⟨s.take n, v, ?_, List.length_take_of_le hle, fun m hm => ?_⟩
    · rw [hv, List.take_append_drop]
    · simpa using hbefore m hm
  · rintro ⟨u, v, rfl, rfl, hbefore⟩
    refine ⟨by simp; omega, ?_, fun m hm => by simpa using hbefore m hm⟩
    rw [List.drop_left]
    exact List.prefix_append _ _

namespace FileIndex

/-- The titles of a drive, as paths need them: none is empty or has a slash in it, and
those of siblings differ. -/
structure GoodTitles (files : Forest Str Str) : Prop where
  plain : ∀ r ∈ files.routes, ∀ title ∈ r.1, title ≠ [] ∧ '/' ∉ title
  distinct : files.Distinct

/-- The entries shown for the folder with the titles are those of its children. -/
def ShowsChildren (ix : FileIndex) (files : Forest Str Str) (titles : List Str) : Prop :=
  ∀ path id, (path, id) ∈ ix.getFileMap (pathOf titles) ↔
    ∃ title, (titles ++ [title], id) ∈ files.routes ∧ path = pathOf (titles ++ [title])

/-- Another path is cut at the first place of a folder's path in it. It is mistaken for
one of a child when there is something in front of this place, or no slash right behind
it, and then no slash behind the next character. -/
def Mistaken (folder path : Str) : Prop :=
  path ≠ folder ∧ ∃ u v, path = u ++ (folder ++ v) ∧ (∀ m < u.length, ¬ folder <+: path.drop m) ∧ '/' ∉ v.tail ∧
    (u ≠ [] ∨ v.head? ≠ some '/')

theorem directlyBelow_iff {folder path : Str} : directlyBelow folder path = true ↔
    path ≠ folder ∧ ∃ u v, path = u ++ (folder ++ v) ∧ (∀ m < u.length, ¬ folder <+: path.drop m) ∧ '/' ∉ v.tail := by
  have htail (u v : Str) : (u ++ (folder ++ v)).drop (u.length + folder.length + 1) = v.tail := by
    rw [← List.append_assoc, ← List.length_append, ← List.drop_drop, List.drop_left]
    exact List.drop_one
  have hfound (n : Nat) : (find folder path = some n ∧ '/' ∉ path.drop (n + folder.length + 1)) ↔
      ∃ u v, path = u ++ (folder ++ v) ∧ (∀ m < u.length, ¬ folder <+: path.drop m) ∧ '/' ∉ v.tail ∧ u.length = n := by
    rw [find_eq_some_iff]
    constructor
    · rintro ⟨⟨u, v, rfl, rfl, hbefore⟩, hslash⟩
      exact ⟨u, v, rfl, hbefore, htail u v ▸ hslash, rfl⟩
    · rintro ⟨u, v, rfl, hbefore, hslash, rfl⟩
      exact ⟨⟨u, v, rfl, rfl, hbefore⟩, (htail u v).symm ▸ hslash⟩
  unfold directlyBelow
  rw [Bool.and_eq_true, decide_eq_true_iff]
  refine and_congr_right fun _ => ?_
  constructor
  · intro h
    cases hfind : find folder path with
    | none => simp [hfind] at h
    | some n =>
      obtain ⟨u, v, hpath, hbefore, hslash, -⟩ := (hfound n).1 ⟨hfind, by simpa [hfind] using h⟩
      exact ⟨u, v, hpath, hbefore, hslash⟩
  · rintro ⟨u, v, hpath, hbefore, hslash⟩
    obtain ⟨hfind, hnone⟩ := (hfound u.length).2 ⟨u, v, hpath, hbefore, hslash, rfl⟩
    simpa [hfind] using hnone

/-! ## Paths of files -/

theorem pathOf_concat {titles : List Str} (h : titles ≠ []) (title : Str) :
    pathOf (titles ++ [title]) = pathOf titles ++ '/' :: title := by
  have hjoin : Joined.join '/' (titles ++ [title]) = Joined.join '/' titles ++ '/' :: title := by
    induction titles with
    | nil => exact absurd rfl h
    | cons t titles ih =>
      by_cases hnil : titles = []
      · rw [hnil, List.singleton_append, Joined.join_cons (List.cons_ne_nil _ _)]
        simp
      · rw [List.cons_append, Joined.join_cons (by simp), ih hnil, Joined.join_cons hnil, List.append_assoc]
        rfl
  rw [pathOf, hjoin]
  rfl

/-- Slash-free titles are told apart by their path. -/
theorem eq_of_pathOf {ts ts' : List Str} (hne : ts ≠ []) (hne' : ts' ≠ []) (h : ∀ t ∈ ts, '/' ∉ t) (h' : ∀ t ∈ ts', '/' ∉ t)
    (heq : pathOf ts = pathOf ts') : ts = ts' := by
  have hpieces := (Joined.join_eq_iff hne hne').1 (List.cons.inj heq).2
  rwa [Joined.pieces_eq_self_iff.2 h, Joined.pieces_eq_self_iff.2 h'] at hpieces

section Good
variable {files : Forest Str Str} (hgood : GoodTitles files)
include hgood

theorem GoodTitles.slash_not_mem {r : List Str × Str} (hr : r ∈ files.routes) : ∀ t ∈ r.1, '/' ∉ t := fun t ht =>
  (hgood.plain r hr t ht).2

/-- A file below the root has a path of two characters or more. -/
theorem GoodTitles.pathOf_ne_root {r : List Str × Str} (hr : r ∈ files.routes) : pathOf r.1 ≠ pathOf [] := by
  intro heq
  have hnil : Joined.join '/' r.1 = [] := (List.cons.inj heq).2
  obtain ⟨t, ts, hts⟩ := List.exists_cons_of_ne_nil (Forest.route_ne_nil hr)
  have ht := (hgood.plain r hr t (hts ▸ List.mem_cons_self)).1
  by_cases hts' : ts = []
  · rw [hts, hts', Joined.join_singleton] at hnil
    exact ht hnil
  · rw [hts, Joined.join_cons hts'] at hnil
    simp at hnil

/-- No two files share a path. -/
theorem GoodTitles.pathOf_inj {r r' : List Str × Str} (hr : r ∈ files.routes) (hr' : r' ∈ files.routes)
    (heq : pathOf r.1 = pathOf r'.1) : r = r' := by
  have htitles : r.1 = r'.1 := eq_of_pathOf (Forest.route_ne_nil hr) (Forest.route_ne_nil hr') (hgood.slash_not_mem hr)
    (hgood.slash_not_mem hr') heq
  exact List.inj_on_of_nodup_map (Forest.nodup_routes hgood.distinct) hr hr' htitles

/-- The index holds the files under their paths, and nothing else. -/
theorem GoodTitles.get_iff {drive : Drive} (h : drive.Holds files) {path id : Str} (hpath : path ≠ pathOf []) :
    (loadFileIds drive).mFileIds[path]? = some id ↔ ∃ titles, (titles, id) ∈ files.routes ∧ path = pathOf titles := by
  constructor
  · intro hget
    obtain ⟨titles, hmem, rfl⟩ := exists_file_of_get h hget
    rcases List.mem_cons.1 hmem with heq | hmem
    · exact absurd (congrArg (fun r => pathOf r.1) heq) hpath
    · exact ⟨titles, hmem, rfl⟩
  · rintro ⟨titles, hmem, rfl⟩
    obtain ⟨before, after, hfiles⟩ := List.append_of_mem hmem
    have hall : allFiles files = (([], "root".toList) :: before) ++ (titles, id) :: after := by rw [allFiles, hfiles]; rfl
    refine get_of_last h hall fun r' hr' heq => ?_
    have hr : r' ∈ files.routes := by
      rw [hfiles]
      exact List.mem_append_right _ (List.mem_cons_of_mem _ hr')
    have hdistinct := Forest.nodup_routes hgood.distinct
    rw [hfiles, List.map_append, List.map_cons] at hdistinct
    have hnot := (List.nodup_cons.1 (List.nodup_append.1 hdistinct).2.1).1
    exact hnot (List.mem_map.2 ⟨r', hr', congrArg Prod.fst (hgood.pathOf_inj hr hmem heq)⟩)

/-- A child is found, and is not mistaken. -/
theorem GoodTitles.child {titles : List Str} (hne : titles ≠ []) {title id : Str} (hchild : (titles ++ [title], id) ∈ files.routes) :
    directlyBelow (pathOf titles) (pathOf (titles ++ [title])) = true ∧
      ¬ Mistaken (pathOf titles) (pathOf (titles ++ [title])) := by
  have hslash : '/' ∉ title := hgood.slash_not_mem hchild title (by simp)
  have hpath := pathOf_concat hne title
  constructor
  · refine directlyBelow_iff.2 ⟨?_, [], '/' :: title, hpath, nofun, hslash⟩
    rw [hpath]
    exact fun heq => absurd (congrArg List.length heq) (by simp)
  · rintro ⟨-, u, v, hcut, hfirst, -, hcase⟩
    have hprefix : pathOf titles <+: pathOf (titles ++ [title]) := hpath ▸ List.prefix_append _ _
    obtain rfl : u = [] := by
      by_contra hu
      exact hfirst 0 (List.length_pos_iff.2 hu) hprefix
    rw [hpath, List.nil_append] at hcut
    rcases hcase with h | h
    · exact h rfl
    · exact h (by rw [← List.append_cancel_left hcut]; rfl)

/-- What is found besides the children is mistaken. -/
theorem GoodTitles.child_or_mistaken {titles : List Str} (hne : titles ≠ []) (htitles : ∀ t ∈ titles, '/' ∉ t)
    {r : List Str × Str} (hr : r ∈ files.routes) (hbelow : directlyBelow (pathOf titles) (pathOf r.1) = true) :
    (∃ title, r.1 = titles ++ [title]) ∨ Mistaken (pathOf titles) (pathOf r.1) := by
  obtain ⟨hother, u, v, hcut, hfirst, hslash⟩ := directlyBelow_iff.1 hbelow
  by_cases hcase : u ≠ [] ∨ v.head? ≠ some '/'
  · exact .inr ⟨hother, u, v, hcut, hfirst, hslash, hcase⟩
  · obtain ⟨rfl, hhead⟩ := not_or.1 hcase |>.imp not_not.1 not_not.1
    obtain ⟨w, rfl⟩ := List.head?_eq_some_iff.1 hhead
    refine .inl ⟨w, eq_of_pathOf (Forest.route_ne_nil hr) (by simp) (hgood.slash_not_mem hr) ?_ ?_⟩
    · intro t ht
      rcases List.mem_append.1 ht with ht | ht
      · exact htitles t ht
      · exact List.mem_singleton.1 ht ▸ hslash
    · rw [hcut, pathOf_concat hne, List.nil_append]

/-- Below the root are the files with one title. -/
theorem GoodTitles.directlyBelow_root {r : List Str × Str} (hr : r ∈ files.routes) :
    directlyBelow (pathOf []) (pathOf r.1) = true ↔ ∃ title, r.1 = [title] := by
  obtain ⟨t, ts, hts⟩ := List.exists_cons_of_ne_nil (Forest.route_ne_nil hr)
  obtain ⟨ht, hslash⟩ := hgood.plain r hr t (hts ▸ List.mem_cons_self)
  obtain ⟨c, t, rfl⟩ := List.exists_cons_of_ne_nil ht
  have hother := hgood.pathOf_ne_root hr
  rw [directlyBelow_iff, hts]
  constructor
  · rintro ⟨-, u, v, hcut, hfirst, htail⟩
    obtain rfl : u = [] := by
      by_contra hu
      exact hfirst 0 (List.length_pos_iff.2 hu) ⟨_, rfl⟩
    by_cases hnil : ts = []
    · exact ⟨c :: t, by rw [hnil]⟩
    · have hv : v = Joined.join '/' ((c :: t) :: ts) := (List.cons.inj hcut).2.symm
      rw [hv, Joined.join_cons hnil] at htail
      simp at htail
  · rintro ⟨title, htitle⟩
    obtain ⟨rfl, rfl⟩ := List.cons.inj htitle
    refine ⟨hts ▸ hother, [], c :: t, ?_, nofun, fun hm => hslash (List.mem_cons_of_mem _ hm)⟩
    rw [pathOf, Joined.join_singleton]
    rfl

end Good

theorem Mistaken.directlyBelow {folder path : Str} (h : Mistaken folder path) : FileIndex.directlyBelow folder path = true := by
  obtain ⟨hother, u, v, hcut, hfirst, hslash, -⟩ := h
  exact directlyBelow_iff.2 ⟨hother, u, v, hcut, hfirst, hslash⟩

theorem mem_getFileMap_iff {ix : FileIndex} {folder path id : Str} (h : folder ≠ []) :
    (path, id) ∈ ix.getFileMap folder ↔ ix.mFileIds[path]? = some id ∧ directlyBelow folder path = true := by
  rw [getFileMap, if_neg h, List.mem_filter, Std.ExtTreeMap.mem_toList_iff_getElem?_eq_some]

theorem pathOf_ne_nil (titles : List Str) : pathOf titles ≠ [] := List.cons_ne_nil _ _

/-- The root folder is below no folder. -/
theorem ne_root_of_directlyBelow {titles : List Str} {path : Str} (hbelow : directlyBelow (pathOf titles) path = true) :
    path ≠ pathOf [] := by
  rintro rfl
  obtain ⟨hother, u, v, hcut, -⟩ := directlyBelow_iff.1 hbelow
  have hlength := congrArg List.length hcut
  have hjoin : Joined.join '/' titles = [] := by
    have hnil : Joined.join '/' ([] : List Str) = [] := rfl
    apply List.length_eq_zero_iff.1
    simp [pathOf, hnil] at hlength
    omega
  exact hother (by rw [pathOf, pathOf, hjoin]; rfl)

theorem root_shown {drive : Drive} {files : Forest Str Str} (h : drive.Holds files) (hgood : GoodTitles files) :
    ShowsChildren (loadFileIds drive) files [] := by
  intro path id
  rw [mem_getFileMap_iff (pathOf_ne_nil [])]
  constructor
  · rintro ⟨hget, hbelow⟩
    obtain ⟨titles, hmem, rfl⟩ := (hgood.get_iff h (ne_root_of_directlyBelow hbelow)).1 hget
    obtain ⟨title, htitle⟩ := (hgood.directlyBelow_root hmem).1 hbelow
    obtain rfl : titles = [title] := htitle
    exact ⟨title, hmem, rfl⟩
  · rintro ⟨title, hmem, rfl⟩
    exact ⟨(hgood.get_iff h (hgood.pathOf_ne_root hmem)).2 ⟨_, hmem, rfl⟩, (hgood.directlyBelow_root hmem).2 ⟨title, rfl⟩⟩

/-- The entries of a folder are those of its children exactly when it is the root, or
no path of another file is mistaken for one of a child. -/
theorem folder_shown_iff {drive : Drive} {files : Forest Str Str} (h : drive.Holds files) (hgood : GoodTitles files)
    {titles : List Str} {folderId : Str} (hfolder : (titles, folderId) ∈ allFiles files) :
    ShowsChildren (loadFileIds drive) files titles ↔
      titles = [] ∨ ∀ r ∈ files.routes, ¬ Mistaken (pathOf titles) (pathOf r.1) := by
  by_cases hroot : titles = []
  · subst hroot
    exact iff_of_true (root_shown h hgood) (.inl rfl)
  · have hmem : (titles, folderId) ∈ files.routes :=
      (List.mem_cons.1 hfolder).resolve_left fun heq => hroot (congrArg Prod.fst heq)
    have htitles : ∀ t ∈ titles, '/' ∉ t := hgood.slash_not_mem hmem
    rw [or_iff_right hroot]
    constructor
    · intro hshows r hr hmistaken
      have hget := (hgood.get_iff h (hgood.pathOf_ne_root hr)).2 ⟨r.1, hr, rfl⟩
      have hshown := (mem_getFileMap_iff (pathOf_ne_nil titles)).2 ⟨hget, hmistaken.directlyBelow⟩
      obtain ⟨title, hchild, hpath⟩ := (hshows _ _).1 hshown
      exact (hgood.child hroot hchild).2 (hpath ▸ hmistaken)
    · intro hnone path id
      rw [mem_getFileMap_iff (pathOf_ne_nil titles)]
      constructor
      · rintro ⟨hget, hbelow⟩
        obtain ⟨route, hr, rfl⟩ := (hgood.get_iff h (ne_root_of_directlyBelow hbelow)).1 hget
        obtain ⟨title, htitle⟩ := (hgood.child_or_mistaken hroot htitles hr hbelow).resolve_right (hnone _ hr)
        obtain rfl : route = titles ++ [title] := htitle
        exact ⟨title, hr, rfl⟩
      · rintro ⟨title, hchild, rfl⟩
        exact ⟨(hgood.get_iff h (hgood.pathOf_ne_root hchild)).2 ⟨_, hchild, rfl⟩, (hgood.child hroot hchild).1⟩

/-- A folder with one file in it. -/
def oneFolder : Drive :=
  { Drive.quiet with
    listing := fun id =>
      if id = "root".toList then [("f1".toList, "a".toList)]
      else if id = "f1".toList then [("f2".toList, "b".toList)]
      else []
    depth := 2 }

def oneFolderFiles : Forest Str Str := .node "a".toList "f1".toList (.node "b".toList "f2".toList .nil .nil) .nil

theorem oneFolder_holds : oneFolder.Holds oneFolderFiles where
  root := rfl
  listed := ⟨rfl, ⟨rfl, trivial, trivial⟩, trivial⟩
  depth := by decide

theorem oneFolder_good : GoodTitles oneFolderFiles where
  plain := by decide
  distinct := ⟨nofun, ⟨nofun, trivial, trivial⟩, trivial⟩

/-- The folder `/a` shows `/a/b`. -/
theorem oneFolder_shown :
    oneFolder.Holds oneFolderFiles ∧ GoodTitles oneFolderFiles ∧ (["a".toList], "f1".toList) ∈ allFiles oneFolderFiles ∧
      ShowsChildren (loadFileIds oneFolder) oneFolderFiles ["a".toList] := by
  have hfolder : (["a".toList], "f1".toList) ∈ allFiles oneFolderFiles := by decide
  refine ⟨oneFolder_holds, oneFolder_good, hfolder, (folder_shown_iff oneFolder_holds oneFolder_good hfolder).2 (.inr ?_)⟩
  intro r hr hmistaken
  have hroutes : oneFolderFiles.routes = [(["a".toList], "f1".toList), (["a".toList, "b".toList], "f2".toList)] := rfl
  rw [hroutes, List.mem_pair] at hr
  rcases hr with rfl | rfl
  · exact hmistaken.1 rfl
  · exact (oneFolder_good.child (List.cons_ne_nil _ _) (hroutes ▸ List.mem_cons_of_mem _ List.mem_cons_self)).2 hmistaken

/-- The entries of the folder `/a` show its neighbour `/ab`. -/
theorem neighbour_shown :
    (twoFiles "a" "ab").Holds (twoRoots "a" "ab") ∧ GoodTitles (twoRoots "a" "ab") ∧
      ("/ab".toList, "f2".toList) ∈ (loadFileIds (twoFiles "a" "ab")).getFileMap (pathOf ["a".toList]) ∧
      ¬ ShowsChildren (loadFileIds (twoFiles "a" "ab")) (twoRoots "a" "ab") ["a".toList] := by
  have hholds := twoFiles_holds "a" "ab"
  have hgood : GoodTitles (twoRoots "a" "ab") := ⟨by decide, ⟨by decide, trivial, nofun, trivial, trivial⟩⟩
  have hshown : ("/ab".toList, "f2".toList) ∈ (loadFileIds (twoFiles "a" "ab")).getFileMap (pathOf ["a".toList]) := by
    refine (mem_getFileMap_iff (pathOf_ne_nil _)).2 ⟨(hgood.get_iff hholds (by decide)).2 ⟨["ab".toList], ?_, rfl⟩, by decide⟩
    exact List.mem_cons_of_mem _ List.mem_cons_self
  refine ⟨hholds, hgood, hshown, fun hshows => ?_⟩
  obtain ⟨title, hchild, -⟩ := (hshows _ _).1 hshown
  simp [twoRoots, Forest.routes] at hchild

end FileIndex

end StorageAccess
