import StorageAccess.Lib.Forest
import StorageAccess.Lib.Joined
import StorageAccess.Model.Service
/-!
# What the index of a drive holds

A drive is a forest of files below the root folder. The crawl writes one entry a file,
under the titles that lead to it, joined by slashes; where two files have one path,
the later entry takes the place of the earlier one.
-/

open Posix

namespace StorageAccess

/-! ## The crawl -/

/-- The drive holds a forest: its folders list the files in them, and the crawl goes
down to the last. -/
structure Drive.Holds (drive : Drive) (files : Forest Str Str) : Prop where
  root : drive.listing "root".toList = files.roots
  listed : files.Listed drive.listing
  depth : files.height ≤ drive.depth

namespace FileIndex

/-- The titles from the root on, joined. -/
def pathOf (titles : List Str) : Str := '/' :: Joined.join '/' titles

/-- All files in the order of the crawl, the root folder first. -/
def allFiles (files : Forest Str Str) : List (List Str × Str) := ([], "root".toList) :: files.routes

/-- Write the files of a forest below a path. -/
def writeAll (parentPath : Str) (files : Forest Str Str) (t : Table Str) : Table Str :=
  files.routes.foldl (fun t r => t.insert (parentPath ++ Joined.join '/' r.1) r.2) t

theorem writeAll_node (parentPath name id : Str) (children next : Forest Str Str) (t : Table Str) :
    writeAll parentPath (.node name id children next) t =
      writeAll parentPath next (writeAll (parentPath ++ name ++ ['/']) children (t.insert (parentPath ++ name) id)) := by
  simp only [writeAll, Forest.routes, List.foldl_cons, List.foldl_append, List.foldl_map, Joined.join_singleton]
  congr 1
  apply List.foldl_ext
  intro t r hr
  rw [Joined.join_cons (Forest.route_ne_nil hr)]
  simp

/-- The crawl of a folder writes all that is below it. -/
theorem getChildren_eq {listing : Str → List (Str × Str)} {files : Forest Str Str} {fileId : Str}
    (hroots : listing fileId = files.roots) (hlisted : files.Listed listing) {depth : Nat} (hdepth : files.height ≤ depth)
    {parentPath : Str} (h : parentPath.head? = some '/') (ix : FileIndex) :
    (getChildren listing depth fileId parentPath h ix).mFileIds = writeAll parentPath files ix.mFileIds := by
  induction depth generalizing files fileId parentPath ix with
  | zero =>
    cases files with
    | nil => rfl
    | node => simp [Forest.height] at hdepth
  | succ depth ih =>
    rw [getChildren, hroots]
    clear hroots
    induction files generalizing ix with
    | nil => rfl
    | node name id children next _ ihn =>
      obtain ⟨hid, hchildren, hnext⟩ := hlisted
      obtain ⟨hbelow, hbeside⟩ := Nat.max_le.1 hdepth
      rw [writeAll_node, Forest.roots, List.foldl_cons, ihn hnext hbeside, ih hid hchildren (by omega)]
      rfl

theorem loadFileIds_eq {drive : Drive} {files : Forest Str Str} (h : drive.Holds files) :
    (loadFileIds drive).mFileIds = (allFiles files).foldl (fun t r => t.insert (pathOf r.1) r.2) ∅ :=
  getChildren_eq h.root h.listed h.depth rfl _

/-- A path has the id of the last file that has it. -/
theorem get_loadFileIds {drive : Drive} {files : Forest Str Str} (h : drive.Holds files) (path : Str) :
    (loadFileIds drive).mFileIds[path]? = ((allFiles files).reverse.find? fun r => pathOf r.1 = path).map Prod.snd := by
  rw [loadFileIds_eq h, Table.get_foldl_insert_last, Std.ExtTreeMap.getElem?_empty, Option.or_none]

/-! ## Which files are found -/

/-- Every path is that of the file it has the id of. -/
theorem exists_file_of_get {drive : Drive} {files : Forest Str Str} (h : drive.Holds files) {path id : Str}
    (hget : (loadFileIds drive).mFileIds[path]? = some id) : ∃ titles, (titles, id) ∈ allFiles files ∧ path = pathOf titles := by
  rw [get_loadFileIds h] at hget
  obtain ⟨⟨titles, id'⟩, hfind, rfl⟩ := Option.map_eq_some_iff.1 hget
  have hpath : pathOf titles = path := by simpa using List.find?_some hfind
  exact ⟨titles, List.mem_reverse.1 (List.mem_of_find?_eq_some hfind), hpath.symm⟩

/-- A file that no later one shares its path with is found. -/
theorem get_of_last {drive : Drive} {files : Forest Str Str} (h : drive.Holds files) {before after : List (List Str × Str)}
    {r : List Str × Str} (hfiles : allFiles files = before ++ r :: after) (hlast : ∀ r' ∈ after, pathOf r'.1 ≠ pathOf r.1) :
    (loadFileIds drive).mFileIds[pathOf r.1]? = some r.2 := by
  have hafter : after.reverse.find? (fun r' => pathOf r'.1 = pathOf r.1) = none :=
    List.find?_eq_none.2 fun r' hr' => by simpa using hlast r' (List.mem_reverse.1 hr')
  rw [get_loadFileIds h, hfiles]
  simp [hafter]

theorem getFileId_of_get {ix : FileIndex} {path id : Str} (h : ix.mFileIds[path]? = some id) : ix.getFileId path = id := by
  rw [getFileId, Std.ExtTreeMap.getD_eq_getD_getElem?, h]
  rfl

/-- A path that is found has the id in the index. -/
theorem get_of_getFileId {ix : FileIndex} {path : Str} (h : ix.getFileId path ≠ []) :
    ix.mFileIds[path]? = some (ix.getFileId path) := by
  rw [getFileId, Std.ExtTreeMap.getD_eq_getD_getElem?] at h ⊢
  cases hget : ix.mFileIds[path]? with
  | none => exact absurd rfl (hget ▸ h)
  | some id => rfl

/-- The ids of a drive's files, the root folder among them, differ, and none is empty. -/
structure GoodIds (files : Forest Str Str) : Prop where
  distinct : ((allFiles files).map Prod.snd).Nodup
  ne : ∀ r ∈ allFiles files, r.2 ≠ []

/-- What the index says of the files: a path in it is that of the file it has the id
of, a file that no later one shares its path with is found by it, and these are all
files exactly when no two share a path. -/
structure Describes (ix : FileIndex) (files : Forest Str Str) : Prop where
  joined : ∀ (path id : Str), ix.mFileIds[path]? = some id → ∃ titles, (titles, id) ∈ allFiles files ∧ path = pathOf titles
  last : ∀ before r after, allFiles files = before ++ r :: after → (∀ r' ∈ after, pathOf r'.1 ≠ pathOf r.1) →
    ix.getFileId (pathOf r.1) = r.2
  all : GoodIds files →
    ((∀ r ∈ allFiles files, ∃ path, ix.getFileId path = r.2) ↔ ((allFiles files).map fun r => pathOf r.1).Nodup)

/-- A file that is found at all is found by its own path. -/
theorem getFileId_pathOf {drive : Drive} {files : Forest Str Str} (h : drive.Holds files) (hids : GoodIds files)
    {r : List Str × Str} (hr : r ∈ allFiles files) {path : Str} (hfound : (loadFileIds drive).getFileId path = r.2) :
    (loadFileIds drive).getFileId (pathOf r.1) = r.2 := by
  have hget := get_of_getFileId (hfound ▸ hids.ne r hr)
  rw [hfound] at hget
  obtain ⟨titles, hmem, rfl⟩ := exists_file_of_get h hget
  have hr' : (titles, r.2) = r := List.inj_on_of_nodup_map hids.distinct hmem hr rfl
  rw [← hr']
  exact hfound

theorem all_found_iff {drive : Drive} {files : Forest Str Str} (h : drive.Holds files) (hids : GoodIds files) :
    (∀ r ∈ allFiles files, ∃ path, (loadFileIds drive).getFileId path = r.2) ↔
      ((allFiles files).map fun r => pathOf r.1).Nodup := by
  constructor
  · intro hfound
    refine hids.distinct.of_map.map_on fun r hr r' hr' heq => ?_
    obtain ⟨path, hpath⟩ := hfound r hr
    obtain ⟨path', hpath'⟩ := hfound r' hr'
    have hid : r.2 = r'.2 := by
      rw [← getFileId_pathOf h hids hr hpath, heq, getFileId_pathOf h hids hr' hpath']
    exact List.inj_on_of_nodup_map hids.distinct hr hr' hid
  · intro hpaths r hr
    obtain ⟨before, after, hfiles⟩ := List.append_of_mem hr
    refine ⟨pathOf r.1, getFileId_of_get (get_of_last h hfiles fun r' hr' heq => ?_)⟩
    rw [hfiles, List.map_append, List.map_cons] at hpaths
    have hnot := (List.nodup_cons.1 (List.nodup_append.1 hpaths).2.1).1
    exact hnot (List.mem_map.2 ⟨r', hr', heq⟩)

theorem index_describes {drive : Drive} {files : Forest Str Str} (h : drive.Holds files) : Describes (loadFileIds drive) files where
  joined _ _ := exists_file_of_get h
  last _ _ _ hfiles hlast := getFileId_of_get (get_of_last h hfiles hlast)
  all := all_found_iff h

/-- A drive that lists two files in its root folder and nothing below. -/
def twoFiles (first second : String) : Drive :=
  { Drive.quiet with
    listing := fun id =>
      if id = "root".toList then [("f1".toList, first.toList), ("f2".toList, second.toList)] else []
    depth := 1 }

def twoRoots (first second : String) : Forest Str Str :=
  .node first.toList "f1".toList .nil (.node second.toList "f2".toList .nil .nil)

theorem twoFiles_holds (first second : String) : (twoFiles first second).Holds (twoRoots first second) where
  root := rfl
  listed := ⟨rfl, trivial, rfl, trivial, trivial⟩
  depth := by simp [twoRoots, twoFiles, Forest.height]

theorem index_describes_two : (twoFiles "a" "b").Holds (twoRoots "a" "b") ∧
    Describes (loadFileIds (twoFiles "a" "b")) (twoRoots "a" "b") :=
  ⟨twoFiles_holds "a" "b", index_describes (twoFiles_holds "a" "b")⟩

/-- Of two files with one title in one folder the first is not found by any path. -/
theorem same_title_not_found :
    (twoFiles "a" "a").Holds (twoRoots "a" "a") ∧ (["a".toList], "f1".toList) ∈ (twoRoots "a" "a").routes ∧
      ∀ path, (loadFileIds (twoFiles "a" "a")).getFileId path ≠ "f1".toList := by
  have hholds := twoFiles_holds "a" "a"
  refine ⟨hholds, List.mem_cons_self, fun path hfound => ?_⟩
  have hget := get_of_getFileId (by rw [hfound]; decide)
  rw [hfound] at hget
  obtain ⟨titles, hmem, rfl⟩ := exists_file_of_get hholds hget
  have hsecond : (loadFileIds (twoFiles "a" "a")).getFileId (pathOf ["a".toList]) = "f2".toList := by
    have hfiles : allFiles (twoRoots "a" "a") =
        [([], "root".toList), (["a".toList], "f1".toList)] ++ (["a".toList], "f2".toList) :: [] := rfl
    exact getFileId_of_get (get_of_last hholds hfiles nofun)
  have htitles : titles = ["a".toList] := by
    simp [allFiles, twoRoots, Forest.routes] at hmem
    exact hmem
  rw [htitles, hsecond] at hfound
  exact absurd hfound (by decide)

end FileIndex

end StorageAccess
