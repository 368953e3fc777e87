import StorageAccess.Lib.Changes
import StorageAccess.Proofs.Utility
/-!
# The entries of a folder

An entry is left out of a listing when its path has a component that starts with
a dot, wherever in the path that component stands. So a folder below a hidden
directory lists nothing, and any other lists its visible entries, each once.
-/

open Posix

namespace StorageAccess

/-! ## Hidden paths -/

/-- The name of an entry starts with a dot. -/
def dotted (n : Name) : Bool := n.head? = some '.'

namespace FolderContent

/-- An entry is hidden by its directory or by its own name. -/
theorem hidden_child (dir : Str) {n : Name} (hn : '/' ∉ n) :
    hidden (dir ++ '/' :: n) = (hidden dir || dotted n) := by
  have hiff : ['/', '.'] <:+: dir ++ '/' :: n ↔ ['/', '.'] <:+: dir ∨ n.head? = some '.' := by
    constructor
    · rintro ⟨before, after, h⟩
      rw [List.append_assoc] at h
      rcases List.append_eq_append_iff.1 h with ⟨rest, hdir, hrest⟩ | ⟨rest, hbefore, hrest⟩
      · -- the two characters start in the directory
        rcases rest with _ | ⟨c, _ | ⟨d, rest⟩⟩
        · simp at hrest
          exact .inr (by simp [← hrest])
        · simp at hrest
        · simp only [List.cons_append, List.cons.injEq] at hrest
          obtain ⟨rfl, rfl, -⟩ := hrest
          exact .inl ⟨before, rest, by simp [hdir]⟩
      · -- or at the separator, since the name has none
        rcases rest with _ | ⟨c, rest⟩
        · simp at hrest
          exact .inr (by simp [hrest])
        · simp only [List.cons_append, List.cons.injEq] at hrest
          exact absurd (by simp [hrest.2]) hn
    · rintro (⟨before, after, h⟩ | h)
      · exact ⟨before, after ++ '/' :: n, by simp [← h]⟩
      · cases n with
        | nil => simp at h
        | cons c n =>
          obtain rfl : c = '.' := by simpa using h
          exact ⟨dir, n, by simp⟩
  simp only [hidden, dotted, hiff, Bool.decide_or]

end FolderContent

/-! ## What stands at an entry -/

/-- The type of an entry, by what stands in the directory. A link counts as the
file it leads to, and one that leads nowhere has no type. -/
def entryType (fs : FS) (dir : List Name) (l : Loc) (n : Name) : FileType :=
  match fs.get (l ++ [n]) with
  | some (.file _) => .regular
  | some .dir => .directory
  | some (.link _) =>
    match fs.status (dir ++ [n]) with
    | .found _ (.file _) => .regular
    | .found _ _ => .linkfile
    | _ => .unknown
  | none => .unknown

/-- A path a directory gives its entry. -/
def entryPath (dir : Str) (n : Name) : Str := dir ++ '/' :: n

theorem components_entryPath {dir : Str} (hd : dir.getLast? ≠ some '/') {n : Name} (hn : IsName n) :
    components (entryPath dir n) = components dir ++ [n] :=
  components_child hd hn

theorem validateInternalPath_entryPath {fs : FS} {dir : Str} (hd : validateInternalPath fs dir = true) {n : Name}
    (hn : IsName n) : validateInternalPath fs (entryPath dir n) = fs.exists? (components dir ++ [n]) := by
  simp only [validateInternalPath, Bool.and_eq_true, decide_eq_true_eq] at hd
  obtain ⟨⟨⟨hne, hroot⟩, hlast⟩, -⟩ := hd
  have hroot' : (entryPath dir n).head? = some '/' := by
    rw [entryPath, List.head?_append_of_ne_nil _ hne, hroot]
  have hlast' : (entryPath dir n).getLast? ≠ some '/' := by
    rw [entryPath, List.getLast?_append_cons, List.getLast?_cons_of_ne_nil hn.1]
    exact fun h => hn.2.2.2.1 (List.mem_of_getLast? h)
  have hne' : entryPath dir n ≠ [] := by simp [entryPath]
  simp only [validateInternalPath, hne', hroot', hlast', components_entryPath hlast hn, ne_eq, not_false_eq_true,
    decide_true, Bool.true_and]

theorem getFileType_entryPath {fs : FS} {dir : Str} (hd : validateInternalPath fs dir = true) {l : Loc}
    (hl : fs.status (components dir) = .found l .dir) {n : Name} (hn : n ∈ fs.children l) :
    FolderContent.getFileType fs (entryPath dir n) = entryType fs (components dir) l n := by
  have hname := Job.isName_of_mem_children hn
  have hlast : dir.getLast? ≠ some '/' := by
    simp only [validateInternalPath, Bool.and_eq_true, decide_eq_true_eq] at hd
    exact hd.1.2
  obtain ⟨nd, hg⟩ := Option.ne_none_iff_exists'.1 (FS.mem_children.1 hn)
  have hkeep : fs.symlinkStatus (components dir ++ [n]) = .found (l ++ [n]) nd := by
    rw [FS.symlinkStatus, FS.look_child hl hname (by decide) (.inl rfl), hg]
  have hplain : (∀ t, nd ≠ .link t) → fs.status (components dir ++ [n]) = .found (l ++ [n]) nd :=
    FS.status_of_symlinkStatus hkeep
  simp only [FolderContent.getFileType, validateInternalPath_entryPath hd hname, components_entryPath hlast hname,
    entryType, hg, hkeep, FS.exists?]
  cases nd with
  | file content => simp [hplain (by simp)]
  | dir => simp [hplain (by simp)]
  | link t =>
    cases fs.status (components dir ++ [n]) with
    | found m nd' => cases nd' <;> simp
    | absent | failed => simp

/-! ## The listing -/

/-- The entries of a directory that are not hidden themselves. -/
def visibleNames (fs : FS) (l : Loc) : List Name := (fs.children l).filter (!dotted ·)

/-- What a listing says of an entry. -/
def FolderContent.entry (e : FolderContent) : Name × Str × FileType := (e.name, e.path, e.type)

/-- A listing holds every visible entry once, with its name, its path and its type, and their number. -/
structure ExactListing (fs : FS) (fullPath : Str) (l : Loc) (c : FolderContents) : Prop where
  entries : (c.contents.map FolderContent.entry).Perm
    ((visibleNames fs l).map fun n => (n, entryPath fullPath n, entryType fs (components fullPath) l n))
  count : c.getTotalCount = (visibleNames fs l).length

namespace FolderContents

theorem read_whole (os : Os) (fs : FS) (fullPath : Str) : read .whole os fs fullPath = init os fs fullPath := rfl

theorem entries_sublist {α : Type} (reading : Reading) (l : List α) : (reading.entries l).Sublist l := by
  cases reading with
  | whole => exact List.Sublist.refl l
  | denied => exact List.nil_sublist l
  | stops after => exact List.take_sublist after l

/-- A path that is accepted, with the directory it leads to. -/
structure Accepted (fs : FS) (fullPath : Str) (l : Loc) : Prop where
  valid : validateInternalPath fs fullPath = true
  dir : fs.status (components fullPath) = .found l .dir

/-- The entries that are listed: none below a hidden directory, else the visible ones that are read. -/
def listedNames (reading : Reading) (fs : FS) (fullPath : Str) (l : Loc) : List Name :=
  if FolderContent.hidden fullPath then [] else (reading.entries (fs.children l)).filter (!dotted ·)

variable {fs : FS} {fullPath : Str} {l : Loc} (h : Accepted fs fullPath l)

include h

theorem contents_read (reading : Reading) (os : Os) :
    (read reading os fs fullPath).contents =
      (listedNames reading fs fullPath l).map fun n => FolderContent.init os fs (entryPath fullPath n) := by
  have hhidden : ∀ n ∈ reading.entries (fs.children l), FolderContent.hidden (entryPath fullPath n) =
      (FolderContent.hidden fullPath || dotted n) := by
    intro n hn
    have hname := Job.isName_of_mem_children ((entries_sublist reading _).subset hn)
    exact FolderContent.hidden_child fullPath hname.2.2.2.1
  have hfilter : ((reading.entries (fs.children l)).map (entryPath fullPath)).filter (!FolderContent.hidden ·) =
      (listedNames reading fs fullPath l).map (entryPath fullPath) := by
    rw [List.filter_map, listedNames]
    by_cases hp : FolderContent.hidden fullPath
    · rw [if_pos hp, List.filter_eq_nil_iff.2 fun n hn => by simp [hhidden n hn, hp]]
    · rw [if_neg hp]
      congr 1
      apply List.filter_congr
      intro n hn
      simp [hhidden n hn, hp]
  simp only [read, h.valid, h.dir, Bool.not_true, Bool.false_eq_true, if_false]
  exact (congrArg (List.map (FolderContent.init os fs)) hfilter).trans (List.map_map ..)

theorem entries_read (reading : Reading) (os : Os) :
    (read reading os fs fullPath).contents.map FolderContent.entry =
      (listedNames reading fs fullPath l).map fun n => (n, entryPath fullPath n, entryType fs (components fullPath) l n) := by
  rw [contents_read h, List.map_map]
  apply List.map_congr_left
  intro n hn
  have hmem : n ∈ fs.children l := by
    rw [listedNames] at hn
    split at hn
    · cases hn
    · exact (entries_sublist reading _).subset (List.mem_of_mem_filter hn)
  have hname := Job.isName_of_mem_children hmem
  rw [← getFileType_entryPath h.valid h.dir hmem]
  simp only [Function.comp_apply, FolderContent.entry, FolderContent.init, entryPath, baseName_below fullPath hname.2.2.2.1]

theorem status_read (reading : Reading) (os : Os) :
    (read reading os fs fullPath).status < 0 ↔ reading.throws = true := by
  simp only [read, h.valid, h.dir, Bool.not_true, Bool.false_eq_true, if_false]
  cases reading.throws <;> simp [InternalOperErrors.code]

omit h

/-- Some visible entry was not read. -/
def Missed (reading : Reading) (fs : FS) (l : Loc) : Prop := ∃ n ∈ visibleNames fs l, n ∉ reading.entries (fs.children l)

theorem not_missed_whole (fs : FS) (l : Loc) : ¬ Missed .whole fs l := by
  rintro ⟨n, hn, hmissed⟩
  exact hmissed (List.mem_of_mem_filter hn)

/-- What a listing gives are the visible entries exactly when there are none, or
the directory is not hidden and all of them were read. -/
theorem listedNames_perm_iff (reading : Reading) (fs : FS) (fullPath : Str) (l : Loc) :
    (listedNames reading fs fullPath l).Perm (visibleNames fs l) ↔
      visibleNames fs l = [] ∨ FolderContent.hidden fullPath = false ∧ ¬ Missed reading fs l := by
  have hsub := (entries_sublist reading (fs.children l)).filter (!dotted ·)
  have hvisible := (FS.nodup_children fs l).filter (!dotted ·)
  unfold listedNames Missed
  by_cases hp : FolderContent.hidden fullPath
  · rw [if_pos hp, List.nil_perm]
    refine ⟨.inl, ?_⟩
    rintro (hnone | ⟨hshown, -⟩)
    · exact hnone
    · rw [hp] at hshown
      cases hshown
  rw [if_neg hp]
  constructor
  · intro hperm
    refine .inr ⟨by simpa using hp, ?_⟩
    rintro ⟨n, hn, hmissed⟩
    exact hmissed (List.mem_of_mem_filter (hperm.mem_iff.2 hn))
  · rintro (hnone | ⟨-, hall⟩)
    · rw [visibleNames] at hnone ⊢
      rw [hnone] at hsub
      rw [List.sublist_nil.1 hsub, hnone]
    · apply (List.perm_ext_iff_of_nodup (hvisible.sublist hsub) hvisible).2
      intro n
      refine ⟨fun hn => hsub.subset hn, fun hn => ?_⟩
      by_contra hout
      exact hall ⟨n, hn, fun hread => hout (List.mem_filter.2 ⟨hread, (List.mem_filter.1 hn).2⟩)⟩

/-- For every path and every way the reading goes: the status is negative exactly
when the path is no accepted directory or the reading throws; and the listing of an
accepted directory is exact unless it has visible entries that are hidden by a
directory above them or were not read, or more than the count can hold. -/
theorem folder_listing_iff (reading : Reading) (os : Os) (fs : FS) (fullPath : Str) :
    ((read reading os fs fullPath).status < 0 ↔ (∀ l, ¬ Accepted fs fullPath l) ∨ reading.throws = true) ∧
      ∀ l, Accepted fs fullPath l →
        (ExactListing fs fullPath l (read reading os fs fullPath) ↔
          (visibleNames fs l = [] ∨ FolderContent.hidden fullPath = false ∧ ¬ Missed reading fs l) ∧
            (visibleNames fs l).length < 2 ^ 32) := by
  constructor
  · by_cases hacc : ∃ l, Accepted fs fullPath l
    · obtain ⟨l, h⟩ := hacc
      rw [status_read h]
      exact ⟨.inr, fun hor => hor.resolve_left fun hnone => hnone l h⟩
    · refine iff_of_true ?_ (.inl fun l h => hacc ⟨l, h⟩)
      unfold read
      split
      · simp [InternalOperErrors.code]
      case isFalse hv =>
        split
        case h_1 l hdir => exact absurd ⟨l, by simpa using hv, hdir⟩ hacc
        case h_2 => simp [InternalOperErrors.code]
  · intro l h
    have hnames : (read reading os fs fullPath).contents.length = (listedNames reading fs fullPath l).length := by
      rw [contents_read h, List.length_map]
    constructor
    · rintro ⟨hentries, hcount⟩
      rw [entries_read h] at hentries
      have hperm : (listedNames reading fs fullPath l).Perm (visibleNames fs l) := by
        simpa [Function.comp_def] using hentries.map Prod.fst
      refine ⟨(listedNames_perm_iff reading fs fullPath l).1 hperm, ?_⟩
      rw [← hcount]
      exact Nat.mod_lt _ (by decide)
    · rintro ⟨hnames', hfits⟩
      have hperm := (listedNames_perm_iff reading fs fullPath l).2 hnames'
      refine ⟨?_, ?_⟩
      · rw [entries_read h]
        exact hperm.map _
      · rw [getTotalCount, hnames, hperm.length_eq, Nat.mod_eq_of_lt hfits]

/-- A directory with a file and a hidden directory, which holds another directory with a file. -/
def belowHidden : FS :=
  FS.ofEntries [(["media".toList], .dir), (["media".toList, "x".toList], .file [1]),
    (["media".toList, ".a".toList], .dir), (["media".toList, ".a".toList, "b".toList], .dir),
    (["media".toList, ".a".toList, "b".toList, "c".toList], .file [1])] (by decide)

theorem media_listed :
    ExactListing belowHidden "/media".toList ["media".toList] (read .whole Os.quiet belowHidden "/media".toList) := by
  have hacc : Accepted belowHidden "/media".toList ["media".toList] := ⟨by decide, by decide⟩
  have hnames : visibleNames belowHidden ["media".toList] = ["x".toList] := by decide
  refine ((folder_listing_iff .whole Os.quiet belowHidden "/media".toList).2 _ hacc).2 ⟨.inr ⟨?_, ?_⟩, ?_⟩
  · decide
  · exact not_missed_whole belowHidden _
  · rw [hnames]
    simp

/-- The file in the directory is not listed. -/
theorem below_hidden_empty :
    Accepted belowHidden "/media/.a/b".toList ["media".toList, ".a".toList, "b".toList] ∧
      (init Os.quiet belowHidden "/media/.a/b".toList).status = 0 ∧
      ¬ ExactListing belowHidden "/media/.a/b".toList ["media".toList, ".a".toList, "b".toList]
        (init Os.quiet belowHidden "/media/.a/b".toList) := by
  have hacc : Accepted belowHidden "/media/.a/b".toList ["media".toList, ".a".toList, "b".toList] := ⟨by decide, by decide⟩
  refine ⟨hacc, by decide, fun h => ?_⟩
  have hcount := h.count
  revert hcount
  decide

end FolderContents

end StorageAccess
