import Mathlib.Algebra.GroupWithZero.Nat
import StorageAccess.Lib.Routes
import StorageAccess.Proofs.FolderEntries
/-!
# The size of a folder

The size is summed over all routes of visible names, and keeps no record of the
files it has counted. The links a lookup may pass bound the routes, so the sum
ends; but a file that a link makes reachable a second time is counted twice.
-/

open Posix

namespace StorageAccess.FolderContent

/-! ## Sums of sizes -/

theorem foldl_sizes {α : Type} (skip : α → Bool) (size : α → Nat) (l : List α) (start : Nat) :
    l.foldl (fun total a => if skip a then total else (total + size a) % 2 ^ 64) (start % 2 ^ 64) =
      (start + ((l.filter (!skip ·)).map size).sum) % 2 ^ 64 := by
  induction l generalizing start with
  | nil => simp
  | cons a l ih =>
    rw [List.foldl_cons]
    by_cases hs : skip a
    · rw [if_pos hs, ih, List.filter_cons_of_neg (by simp [hs])]
    · rw [if_neg hs, Nat.mod_add_mod, ih, List.filter_cons_of_pos (by simp [hs]), List.map_cons, List.sum_cons,
        Nat.add_assoc]

theorem sum_map_mod_congr {α : Type} {n : Nat} {f g : α → Nat} {l : List α} (h : ∀ a ∈ l, f a % n = g a % n) :
    (l.map f).sum % n = (l.map g).sum % n := by
  induction l with
  | nil => rfl
  | cons a l ih =>
    rw [List.map_cons, List.sum_cons, List.map_cons, List.sum_cons, Nat.add_mod, h a List.mem_cons_self,
      ih fun b hb => h b (List.mem_cons_of_mem _ hb), ← Nat.add_mod]

/-! ## One directory after another -/

/-- The size of the file at a place. -/
def sizeAt (fs : FS) (m : Loc) : Nat :=
  match fs.get m with
  | some (.file content) => content.length
  | _ => 0

/-- The sizes of the files at the ends of routes, one for each route. -/
def sizeBelow (fs : FS) (routes : List (List Name × Loc)) : Nat := (routes.map fun q => sizeAt fs q.2).sum

/-- A name is shown in a listing. -/
def shown (n : Name) : Bool := !dotted n

/-- A path that is accepted, and where the walk to it ends. -/
structure At (fs : FS) (path : Str) (r : Loc × Nat) : Prop where
  valid : validateInternalPath fs path = true
  walk : fs.walk .follow maxLinks [] (components path) = .ok r

theorem getLast_of_valid {fs : FS} {path : Str} (h : validateInternalPath fs path = true) : path.getLast? ≠ some '/' := by
  simp only [validateInternalPath, Bool.and_eq_true, decide_eq_true_eq] at h
  exact h.1.2

theorem at_of_accepted {fs : FS} {path : Str} {l : Loc} (h : FolderContents.Accepted fs path l) :
    ∃ left, At fs path (l, left) := by
  obtain ⟨left, hwalk⟩ := FS.locate_eq_ok.1 (FS.look_found.1 h.dir).1
  exact ⟨left, h.valid, hwalk⟩

theorem status_of_walk {fs : FS} {p : List Name} {r : Loc × Nat} (h : fs.walk .follow maxLinks [] p = .ok r) {nd : Node}
    (hg : fs.get r.1 = some nd) : fs.status p = .found r.1 nd :=
  FS.look_found.2 ⟨FS.locate_eq_ok.2 ⟨r.2, h⟩, hg⟩

section
variable {fs : FS} {dir : Str} {r : Loc × Nat} (h : At fs dir r) {c : Name} (hc : IsName c)

include h hc

theorem walk_entryPath :
    fs.walk .follow maxLinks [] (components (entryPath dir c)) = fs.walk .follow r.2 r.1 [c] := by
  rw [components_entryPath (getLast_of_valid h.valid) hc, FS.walk_append fs .follow _ [c] (List.cons_ne_nil _ _), h.walk]
  rfl

theorem At.child {r' : Loc × Nat} (hw : fs.walk .follow r.2 r.1 [c] = .ok r') : At fs (entryPath dir c) r' := by
  have hwalk : fs.walk .follow maxLinks [] (components (entryPath dir c)) = .ok r' := (walk_entryPath h hc).trans hw
  have hd := FS.isDir_of_walk hw (List.cons_ne_nil _ _)
  obtain ⟨nd, hg⟩ := Option.ne_none_iff_exists'.1 (FS.get_of_walk fs .follow (by decide) r.2 r.1 [c] (by simp [hd]) hw)
  refine ⟨?_, hwalk⟩
  rw [validateInternalPath_entryPath h.valid hc, ← components_entryPath (getLast_of_valid h.valid) hc, FS.exists?,
    status_of_walk hwalk hg]

/-- An entry that no lookup finds is no path that is accepted. -/
theorem not_valid_of_error {e : Errno} (hw : fs.walk .follow r.2 r.1 [c] = .error e) :
    validateInternalPath fs (entryPath dir c) = false := by
  have hwalk := (walk_entryPath h hc).trans hw
  rw [validateInternalPath_entryPath h.valid hc, ← components_entryPath (getLast_of_valid h.valid) hc, FS.exists?,
    FS.status, FS.look, FS.locate, hwalk]
  cases e <;> rfl

end

theorem getFileSize_file {fs : FS} {path : Str} {r : Loc × Nat} (h : At fs path r) {content : List UInt8}
    (hg : fs.get r.1 = some (.file content)) (depth : Nat) : getFileSize fs depth path = content.length := by
  rw [getFileSize, h.valid, status_of_walk h.walk hg]
  rfl

/-- What a directory adds up: the entries that its listing shows. -/
theorem getFileSize_dir {fs : FS} {path : Str} {r : Loc × Nat} (h : At fs path r) (hg : fs.get r.1 = some .dir)
    (hp : hidden path = false) (depth : Nat) :
    getFileSize fs (depth + 1) path =
      (((fs.children r.1).filter (shown ·)).map fun c => getFileSize fs depth (entryPath path c)).sum % 2 ^ 64 := by
  have hfilter : ((fs.children r.1).map (entryPath path)).filter (!hidden ·) =
      ((fs.children r.1).filter (shown ·)).map (entryPath path) := by
    rw [List.filter_map]
    congr 1
    apply List.filter_congr
    intro c hc
    have hname := Job.isName_of_mem_children hc
    simp only [Function.comp_apply, entryPath, hidden_child path hname.2.2.2.1, hp, Bool.false_or, shown]
  have hfold := foldl_sizes hidden (getFileSize fs depth) ((fs.children r.1).map (entryPath path)) 0
  rw [hfilter, List.map_map, Nat.zero_add, Nat.zero_mod] at hfold
  rw [getFileSize, h.valid, status_of_walk h.walk hg]
  exact hfold

theorem sizeBelow_flatMap {α : Type} (fs : FS) (l : List α) (routes : α → List (List Name × Loc)) :
    sizeBelow fs (l.flatMap routes) = (l.map fun a => sizeBelow fs (routes a)).sum := by
  unfold sizeBelow
  induction l with
  | nil => rfl
  | cons a l ih => rw [List.flatMap_cons, List.map_append, List.sum_append, ih, List.map_cons, List.sum_cons]

/-- The size of a directory is the sum over the routes below it. -/
theorem getFileSize_eq_sizeBelow {fs : FS} {path : Str} {r : Loc × Nat} (h : At fs path r) (hg : fs.get r.1 = some .dir)
    (hp : hidden path = false) (depth : Nat) :
    getFileSize fs depth path = sizeBelow fs (fs.routes shown depth r) % 2 ^ 64 := by
  induction depth generalizing path r with
  | zero =>
    rw [getFileSize, h.valid, status_of_walk h.walk hg]
    rfl
  | succ depth ih =>
    rw [getFileSize_dir h hg hp, FS.routes_succ, sizeBelow_flatMap]
    apply sum_map_mod_congr
    intro c hc
    obtain ⟨hmem, hshown⟩ := List.mem_filter.1 hc
    have hname := Job.isName_of_mem_children hmem
    have hchild : hidden (entryPath path c) = false := by
      rw [entryPath, hidden_child path hname.2.2.2.1, hp]
      simpa [shown] using hshown
    unfold FS.routesBy
    cases hw : fs.walk .follow r.2 r.1 [c] with
    | error e =>
      rw [getFileSize, not_valid_of_error h hname hw]
      rfl
    | ok r' =>
      have h' := h.child hname hw
      obtain ⟨nd, hg'⟩ := Option.ne_none_iff_exists'.1
        (FS.get_of_walk fs .follow (by decide) r.2 r.1 [c] (by simp [hg]) hw)
      dsimp only
      rw [hg']
      cases nd with
      | file content =>
        rw [getFileSize_file h' hg']
        simp [sizeBelow, sizeAt, hg']
      | dir =>
        rw [ih h' hg' hchild, Nat.mod_mod]
        simp [sizeBelow, Function.comp_def]
      | link t =>
        rw [getFileSize, h'.valid, status_of_walk h'.walk hg']
        rfl

/-- Below a hidden directory every entry is hidden. -/
theorem getFileSize_hidden {fs : FS} {path : Str} {r : Loc × Nat} (h : At fs path r) (hg : fs.get r.1 = some .dir)
    (hp : hidden path = true) (depth : Nat) : getFileSize fs depth path = 0 := by
  rw [getFileSize, h.valid, status_of_walk h.walk hg]
  cases depth with
  | zero => rfl
  | succ depth =>
    have hfilter : ((fs.children r.1).map (entryPath path)).filter (!hidden ·) = [] := by
      rw [List.filter_eq_nil_iff]
      intro e he
      obtain ⟨c, hc, rfl⟩ := List.mem_map.1 he
      simp [entryPath, hidden_child path (Job.isName_of_mem_children hc).2.2.2.1, hp]
    have hfold := foldl_sizes hidden (getFileSize fs depth) ((fs.children r.1).map (entryPath path)) 0
    rw [hfilter] at hfold
    exact hfold

/-! ## The recursion ends -/

theorem foldlM_sizes {α : Type} {skip : α → Bool} {size? : α → Option Nat} {size : α → Nat} {l : List α}
    (h : ∀ a ∈ l, size? a = some (size a)) (start : Nat) :
    l.foldlM (fun total a => if skip a then some total else (size? a).map fun more => (total + more) % 2 ^ 64) start =
      some (l.foldl (fun total a => if skip a then total else (total + size a) % 2 ^ 64) start) := by
  induction l generalizing start with
  | nil => rfl
  | cons a l ih =>
    have hl := ih fun b hb => h b (List.mem_cons_of_mem _ hb)
    rw [List.foldlM_cons, List.foldl_cons, h a List.mem_cons_self]
    by_cases hs : skip a
    · rw [if_pos hs, if_pos hs]
      exact hl start
    · rw [if_neg hs, if_neg hs]
      exact hl _

/-- A directory the links allow no more names below than `depth` has a size. -/
theorem getFileSize?_eq {fs : FS} {path : Str} {r : Loc × Nat} (h : At fs path r) {depth : Nat}
    (hroom : fs.room r < depth) : getFileSize? fs depth path = some (getFileSize fs depth path) := by
  induction depth generalizing path r with
  | zero => omega
  | succ depth ih =>
    obtain ⟨nd, hg⟩ := Option.ne_none_iff_exists'.1
      (FS.get_of_walk fs .follow (by decide) maxLinks [] _ (by simp [fs.root]) h.walk)
    rw [getFileSize?, getFileSize, h.valid, status_of_walk h.walk hg]
    cases nd with
    | file content => rfl
    | link t => rfl
    | dir =>
      refine foldlM_sizes ?_ 0
      intro e he
      obtain ⟨c, hc, rfl⟩ := List.mem_map.1 he
      have hname := Job.isName_of_mem_children hc
      cases hw : fs.walk .follow r.2 r.1 [c] with
      | error e =>
        have hinvalid := not_valid_of_error h hname hw
        rw [← entryPath, getFileSize?, getFileSize, hinvalid]
        rfl
      | ok r' =>
        have hlt : fs.room r' < fs.room r := FS.room_of_walk_name hname hw
        exact ih (h.child hname hw) (by omega)

/-! ## Every file once -/

/-- Visible names lead from the directory to a file at `m`. -/
def FoundBelow (fs : FS) (dir : Str) (m : Loc) : Prop :=
  ∃ names ≠ [], (∀ c ∈ names, IsName c ∧ shown c = true) ∧
    ∃ content, fs.status (components dir ++ names) = .found m (.file content)

/-- The distinct files below a directory. -/
structure FilesBelow (fs : FS) (dir : Str) (files : List Loc) : Prop where
  nodup : files.Nodup
  complete : ∀ m, m ∈ files ↔ FoundBelow fs dir m

/-- The size of the directory is that of the files below it, each counted once. -/
def CountsOnce (fs : FS) (depth : Nat) (dir : Str) : Prop :=
  ∃ files, FilesBelow fs dir files ∧ getFileSize? fs depth dir = some (files.map (sizeAt fs)).sum

/-- Where the lookup of a directory ends. -/
def start (fs : FS) (dir : Str) : Loc × Nat :=
  match fs.walk .follow maxLinks [] (components dir) with
  | .ok r => r
  | .error _ => ([], 0)

/-- The files below a directory, one for each route to it. -/
def routeEnds (fs : FS) (dir : Str) : List Loc := (fs.routes shown fs.reach (start fs dir)).map Prod.snd

/-- The condition for counting every file once: no directory above is hidden, the sizes
fit 64 bits, and what is counted again vanishes in 64 bits. A hidden directory has the size 0. -/
def OnceEach (fs : FS) (dir : Str) : Prop :=
  if hidden dir then ∀ m ∈ routeEnds fs dir, sizeAt fs m = 0
  else ((routeEnds fs dir).dedup.map (sizeAt fs)).sum < 2 ^ 64 ∧ again (sizeAt fs) (routeEnds fs dir) % 2 ^ 64 = 0

theorem start_eq {fs : FS} {dir : Str} {r : Loc × Nat} (h : At fs dir r) : start fs dir = r := by
  rw [start, h.walk]

theorem mem_routeEnds_iff {fs : FS} {dir : Str} {r : Loc × Nat} (h : At fs dir r) (m : Loc) :
    m ∈ routeEnds fs dir ↔ FoundBelow fs dir m := by
  have hlinks : r.2 ≤ maxLinks := FS.walk_links_le h.walk
  have happend : ∀ names ≠ [], fs.walk .follow maxLinks [] (components dir ++ names) = fs.walk .follow r.2 r.1 names := by
    intro names hne
    rw [FS.walk_append fs .follow _ names hne, h.walk]
    rfl
  rw [routeEnds, start_eq h, List.mem_map]
  constructor
  · rintro ⟨⟨names, m⟩, hq, rfl⟩
    obtain ⟨⟨hne, hnames, ⟨k, hk⟩, content, hfile⟩, -⟩ := FS.mem_routes_iff.1 hq
    exact ⟨names, hne, hnames, content, status_of_walk ((happend names hne).trans hk) hfile⟩
  · rintro ⟨names, hne, hnames, content, hfound⟩
    obtain ⟨hloc, hfile⟩ := FS.look_found.1 hfound
    obtain ⟨k, hk⟩ := FS.locate_eq_ok.1 hloc
    rw [happend names hne] at hk
    have hroom := FS.length_le_room (fun c hc => (hnames c hc).1) hk
    have hreach : fs.room (r.1, r.2) < fs.reach := fs.room_lt_reach hlinks
    exact ⟨(names, m), FS.mem_routes_iff.2 ⟨⟨hne, hnames, ⟨k, hk⟩, content, hfile⟩, by omega⟩, rfl⟩

theorem filesBelow_iff {fs : FS} {dir : Str} {r : Loc × Nat} (h : At fs dir r) (files : List Loc) :
    FilesBelow fs dir files ↔ files.Perm (routeEnds fs dir).dedup := by
  have hmem := mem_routeEnds_iff h
  constructor
  · rintro ⟨hn, hc⟩
    apply (List.perm_ext_iff_of_nodup hn (List.nodup_dedup _)).2
    intro m
    rw [hc, List.mem_dedup, hmem]
  · intro hp
    refine ⟨hp.nodup_iff.2 (List.nodup_dedup _), fun m => ?_⟩
    rw [hp.mem_iff, List.mem_dedup, hmem]

theorem countsOnce_iff {fs : FS} {dir : Str} {r : Loc × Nat} (h : At fs dir r) (depth : Nat) :
    CountsOnce fs depth dir ↔ getFileSize? fs depth dir = some ((routeEnds fs dir).dedup.map (sizeAt fs)).sum := by
  constructor
  · rintro ⟨files, hfiles, hsize⟩
    rw [hsize, (((filesBelow_iff h files).1 hfiles).map (sizeAt fs)).sum_eq]
  · intro hsize
    exact ⟨_, (filesBelow_iff h _).2 (List.Perm.refl _), hsize⟩

/-- Given the depth the tree needs, the recursion returns, and it counts every file
once exactly under that condition. -/
theorem folder_size_iff {fs : FS} {dir : Str} {l : Loc} (h : FolderContents.Accepted fs dir l) {depth : Nat}
    (hd : fs.reach ≤ depth) :
    getFileSize? fs depth dir = some (getFileSize fs depth dir) ∧ (CountsOnce fs depth dir ↔ OnceEach fs dir) := by
  obtain ⟨left, hat⟩ := at_of_accepted h
  have hg : fs.get l = some .dir := (FS.look_found.1 h.dir).2
  have hlinks : left ≤ maxLinks := FS.walk_links_le hat.walk
  have hroom : fs.room (l, left) < fs.reach := fs.room_lt_reach hlinks
  have hends := getFileSize?_eq hat (Nat.lt_of_lt_of_le hroom hd)
  refine ⟨hends, ?_⟩
  rw [countsOnce_iff hat, hends, Option.some.injEq]
  unfold OnceEach
  split
  case isTrue hp =>
    rw [getFileSize_hidden hat hg hp, eq_comm, List.sum_eq_zero_iff_forall_eq_nat]
    simp
  case isFalse hp =>
    have hperm : (fs.routes shown depth (l, left)).Perm (fs.routes shown fs.reach (l, left)) :=
      FS.routes_perm hlinks hd (Nat.le_refl _)
    have hsum : sizeBelow fs (fs.routes shown depth (l, left)) = ((routeEnds fs dir).map (sizeAt fs)).sum := by
      rw [sizeBelow, (hperm.map _).sum_eq, routeEnds, start_eq hat, List.map_map]
      rfl
    rw [getFileSize_eq_sizeBelow hat hg (by simpa using hp), hsum, sum_map_eq_add_again]
    omega

/-- On a disk of any real size the condition is that one route leads to each file that is not empty. -/
theorem onceEach_of_one_route {fs : FS} {dir : Str} (hp : hidden dir = false)
    (hfits : ((routeEnds fs dir).dedup.map (sizeAt fs)).sum < 2 ^ 64)
    (hone : ∀ m ∈ routeEnds fs dir, 0 < sizeAt fs m → (routeEnds fs dir).count m = 1) : OnceEach fs dir := by
  have hagain : again (sizeAt fs) (routeEnds fs dir) = 0 := by
    rw [again_eq_zero_iff]
    convert hone
  rw [OnceEach, if_neg (by simp [hp]), hagain]
  exact ⟨hfits, rfl⟩

/-- A directory that holds one file. -/
def onceLinked : FS :=
  FS.ofEntries [(["media".toList], .dir), (["media".toList, "a".toList], .file [1])] (by decide)

theorem onceLinked_counted : CountsOnce onceLinked onceLinked.reach "/media".toList := by
  have hacc : FolderContents.Accepted onceLinked "/media".toList ["media".toList] := ⟨by decide, by decide⟩
  refine (folder_size_iff hacc (Nat.le_refl _)).2.2 (onceEach_of_one_route ?_ ?_ ?_)
  · decide
  · decide +kernel
  · decide +kernel

/-- A directory that holds a directory with one file of one byte, and a link to that directory. -/
def twiceLinked : FS :=
  FS.ofEntries [(["media".toList], .dir), (["media".toList, "s".toList], .dir),
    (["media".toList, "s".toList, "a".toList], .file [1]), (["media".toList, "t".toList], .link "s".toList)] (by decide)

/-- Its size is two bytes. -/
theorem twiceLinked_counted_twice :
    FolderContents.Accepted twiceLinked "/media".toList ["media".toList] ∧
      getFileSize? twiceLinked twiceLinked.reach "/media".toList = some 2 ∧
      FilesBelow twiceLinked "/media".toList [["media".toList, "s".toList, "a".toList]] ∧
      ¬ CountsOnce twiceLinked twiceLinked.reach "/media".toList := by
  have hacc : FolderContents.Accepted twiceLinked "/media".toList ["media".toList] := ⟨by decide, by decide⟩
  have hsize : getFileSize? twiceLinked twiceLinked.reach "/media".toList = some 2 := by decide +kernel
  obtain ⟨left, hat⟩ := at_of_accepted hacc
  have hfiles : (routeEnds twiceLinked "/media".toList).dedup = [["media".toList, "s".toList, "a".toList]] := by
    decide +kernel
  refine ⟨hacc, hsize, (filesBelow_iff hat _).2 (hfiles ▸ List.Perm.refl _), fun h => ?_⟩
  rw [countsOnce_iff hat, hsize, hfiles] at h
  revert h
  decide

end StorageAccess.FolderContent
