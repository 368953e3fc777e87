import StorageAccess.Proofs.Delivery
import StorageAccess.Proofs.FolderEntries
import StorageAccess.Proofs.Undo
/-!
# What a listing shows after a change

A folder whose path leads to the same directory before and after a copy, a
removal or a rename that reported success shows the names it showed before, but
for those the request was about.
-/

open Posix Json

namespace StorageAccess

/-! ## The names of a listing -/

/-- Filtering and dropping repetitions can be done in either order. -/
theorem dedup_filter {α : Type} [DecidableEq α] (p : α → Bool) (l : List α) : (l.filter p).dedup = l.dedup.filter p := by
  induction l with
  | nil => rfl
  | cons a l ih =>
    by_cases ha : a ∈ l
    · rw [List.dedup_cons_of_mem ha, ← ih]
      cases hp : p a with
      | true => rw [List.filter_cons_of_pos hp, List.dedup_cons_of_mem (List.mem_filter.2 ⟨ha, hp⟩)]
      | false => rw [List.filter_cons_of_neg (by simp [hp])]
    · rw [List.dedup_cons_of_notMem ha]
      cases hp : p a with
      | true =>
        rw [List.filter_cons_of_pos hp, List.filter_cons_of_pos hp, ← ih,
          List.dedup_cons_of_notMem fun h => ha (List.mem_of_mem_filter h)]
      | false => rw [List.filter_cons_of_neg (by simp [hp]), List.filter_cons_of_neg (by simp [hp]), ih]

/-- The entries of a directory that lost some of them. -/
theorem children_of_kept {fs fs' : FS} {l : Loc} (hnames : fs'.names = fs.names) {kept : Name → Bool}
    (hkept : ∀ n, fs'.get (l ++ [n]) = if kept n then fs.get (l ++ [n]) else none) :
    fs'.children l = (fs.children l).filter kept := by
  rw [FS.children, FS.children, ← dedup_filter, hnames, List.filter_filterMap]
  congr 1
  apply List.filterMap_congr
  intro m _
  by_cases hm : m ≠ [] ∧ m.dropLast = l
  case neg =>
    rw [if_neg fun h => hm ⟨h.1, h.2.1⟩, if_neg fun h => hm ⟨h.1, h.2.1⟩]
    rfl
  obtain ⟨hne, rfl⟩ := hm
  obtain ⟨d, n, rfl⟩ : ∃ d n, m = d ++ [n] := ⟨_, _, (List.dropLast_append_getLast hne).symm⟩
  rw [List.dropLast_concat] at hkept ⊢
  rw [hkept, List.getLastD_concat]
  cases hk : kept n <;> cases fs.get (d ++ [n]) <;> simp [Option.filter, hk]

namespace FolderContents

/-- The names a listing shows. -/
def names (c : FolderContents) : List Name := c.contents.map (·.name)

variable {fs fs' : FS} {dir : Str} {L : Loc}

theorem names_init (h : Accepted fs dir L) (os : Os) : (init os fs dir).names = listedNames .whole fs dir L := by
  have hentries := congrArg (List.map Prod.fst) (entries_read h .whole os)
  rw [List.map_map, List.map_map, read_whole] at hentries
  simpa [Function.comp_def, FolderContent.entry, names] using hentries

/-- The folder may show an entry of that name. -/
def Visible (dir : Str) (n : Name) : Prop := FolderContent.hidden dir = false ∧ dotted n = false

theorem mem_names (h : Accepted fs dir L) (os : Os) {n : Name} :
    n ∈ (init os fs dir).names ↔ Visible dir n ∧ fs.get (L ++ [n]) ≠ none := by
  rw [names_init h, listedNames, Visible]
  by_cases hd : FolderContent.hidden dir
  · simp [hd]
  · simp [hd, Reading.entries, FS.mem_children, and_comm]

theorem nodup_names (h : Accepted fs dir L) (os : Os) : (init os fs dir).names.Nodup := by
  rw [names_init h, listedNames]
  split
  · exact List.nodup_nil
  · exact (FS.nodup_children fs L).filter _

/-- A folder that lost some of its entries shows the rest in the order it had. -/
theorem names_of_kept (h : Accepted fs dir L) (h' : Accepted fs' dir L) (hnames : fs'.names = fs.names)
    {kept : Name → Bool} (hkept : ∀ n, fs'.get (L ++ [n]) = if kept n then fs.get (L ++ [n]) else none) (os os' : Os) :
    (init os' fs' dir).names = (init os fs dir).names.filter kept := by
  rw [names_init h, names_init h', listedNames, listedNames]
  split
  · rfl
  · rw [Reading.entries, Reading.entries, children_of_kept hnames hkept, List.filter_filter, List.filter_filter]
    exact List.filter_congr fun n _ => Bool.and_comm ..

end FolderContents

/-! ## Removing -/

/-- A removal by a path that names `l` takes what stands at `m`. By a path that ends
in `.` or `..` the directory itself stays. -/
def Takes (path : Str) (l m : Loc) : Prop := l <+: m ∧ (m = l → baseName path ≠ dot ∧ baseName path ≠ dotdot)

instance (path : Str) (l m : Loc) : Decidable (Takes path l m) := inferInstanceAs (Decidable (_ ∧ _))

/-- A removal that reports success takes all it is meant to and nothing else. -/
theorem removed_get {os : Os} {fs : FS} {path : Str} {l m : Loc} {nd : Node}
    (hok : (InternalRemove.init os fs path).2 = InternalOperErrors.success.code)
    (hpath : fs.symlinkStatus (components path) = .found l nd) (hm : m ≠ []) :
    (InternalRemove.init os fs path).1.get m = if Takes path l m then none else fs.get m := by
  unfold InternalRemove.init at hok ⊢
  split at hok
  case isFalse => exact absurd hok (by decide : InternalOperErrors.invalidPath.code ≠ _)
  case isTrue hv =>
  rw [if_pos hv, FS.removeAll_done hpath (Transfer.outcome_eq_success hok) hm]
  congr 1
  simp only [FS.region, FS.takesSelf, decide_eq_true_eq, Takes, components_getLastD (Transfer.validated hv).1, eq_iff_iff]
  exact and_congr_right fun _ => by rw [or_comm, ← imp_iff_not_or]

/-- After a removal that reports success, a folder shows what it showed before, in the
same order, without what was removed. -/
theorem listing_after_remove (os os₁ os₂ : Os) (fs : FS) (path dir : Str) {L l : Loc} {nd : Node}
    (hok : (InternalRemove.init os fs path).2 = InternalOperErrors.success.code)
    (hpath : fs.symlinkStatus (components path) = .found l nd) (hbefore : FolderContents.Accepted fs dir L)
    (hafter : FolderContents.Accepted (InternalRemove.init os fs path).1 dir L) :
    (FolderContents.init os₂ (InternalRemove.init os fs path).1 dir).names =
      (FolderContents.init os₁ fs dir).names.filter fun n => ¬ Takes path l (L ++ [n]) := by
  refine FolderContents.names_of_kept hbefore hafter ?_ (fun n => ?_) os₁ os₂
  · unfold InternalRemove.init
    split
    · exact FS.removeAll_names fs os.stuck _
    · rfl
  · rw [removed_get hok hpath (by simp)]
    by_cases ht : Takes path l (L ++ [n]) <;> simp [ht]

theorem tmp_accepted : FolderContents.Accepted twoNotes "/tmp".toList ["tmp".toList] := ⟨rfl, rfl⟩

theorem first_note_found :
    twoNotes.symlinkStatus (components "/tmp/a".toList) = .found ["tmp".toList, "a".toList] (.file [1]) := rfl

/-- One of two notes is removed, and the other is still shown. -/
theorem note_removed_from_listing :
    let removed := InternalRemove.init Os.quiet twoNotes "/tmp/a".toList
    (FolderContents.init Os.quiet removed.1 "/tmp".toList).names =
      (FolderContents.init Os.quiet twoNotes "/tmp".toList).names.filter
        fun n => ¬ Takes "/tmp/a".toList ["tmp".toList, "a".toList] (["tmp".toList] ++ [n]) :=
  listing_after_remove Os.quiet Os.quiet Os.quiet twoNotes "/tmp/a".toList "/tmp".toList rfl
    first_note_found tmp_accepted ⟨rfl, rfl⟩

/-! ## Renaming -/

/-- A rename that reports success carries what stood at the old place to the new one,
if the two differ. -/
theorem renamed_get {os : Os} {fs : FS} {oldAbsPath newName : Str} {o : Loc} {nd : Node}
    (hok : (InternalRename.init os fs oldAbsPath newName).2 = InternalOperErrors.success.code)
    (hold : fs.symlinkStatus (components oldAbsPath) = .found o nd) :
    (o = o.dropLast ++ [untilNul newName] ∧ (InternalRename.init os fs oldAbsPath newName).1 = fs) ∨
      ∀ m, (InternalRename.init os fs oldAbsPath newName).1.get m =
        FS.moved fs.get o (o.dropLast ++ [untilNul newName]) m := by
  have hrun := renameRun os fs oldAbsPath newName
  generalize InternalRename.init os fs oldAbsPath newName = renamed at hrun hok ⊢
  cases hrun with
  | refused status negative =>
    rw [show status = _ from hok] at negative
    exact absurd negative (by decide)
  | same o' allowed here =>
    obtain ⟨nd', hs⟩ := allowed.stands
    obtain ⟨rfl, -⟩ := FS.Lookup.found.inj (hold.symm.trans hs)
    exact .inl ⟨here, rfl⟩
  | moved o' allowed other can room =>
    obtain ⟨nd', hs⟩ := allowed.stands
    obtain ⟨rfl, -⟩ := FS.Lookup.found.inj (hold.symm.trans hs)
    exact .inr fun m => FS.moved_get can m

/-- After a rename that reports success, a folder that is not below the new name shows what
it showed before, without the old name and with the new one where they belong to it. -/
theorem listing_after_rename (os os₁ os₂ : Os) (fs : FS) (oldAbsPath newName dir : Str) {L o : Loc} {nd : Node}
    (hok : (InternalRename.init os fs oldAbsPath newName).2 = InternalOperErrors.success.code)
    (hold : fs.symlinkStatus (components oldAbsPath) = .found o nd) (hbefore : FolderContents.Accepted fs dir L)
    (hafter : FolderContents.Accepted (InternalRename.init os fs oldAbsPath newName).1 dir L)
    (hout : ¬ o.dropLast ++ [untilNul newName] <+: L) :
    let shown := (FolderContents.init os₁ fs dir).names
    let shown' := (FolderContents.init os₂ (InternalRename.init os fs oldAbsPath newName).1 dir).names
    shown'.Nodup ∧ ∀ n, n ∈ shown' ↔
      n ∈ shown ∧ L ++ [n] ≠ o ∨ FolderContents.Visible dir n ∧ L ++ [n] = o.dropLast ++ [untilNul newName] := by
  intro shown shown'
  refine ⟨FolderContents.nodup_names hafter os₂, fun n => ?_⟩
  have hget : fs.get o = some nd := (FS.look_found.1 hold).2
  rw [FolderContents.mem_names hafter, FolderContents.mem_names hbefore]
  rcases renamed_get hok hold with ⟨hsame, hfs⟩ | hmoved
  · rw [hfs, ← hsame]
    by_cases hn : L ++ [n] = o
    · simp [hn, hget]
    · simp [hn]
  -- the folder itself was not carried away
  have hstays : ¬ o <+: L := by
    intro hp
    have hdir := (FS.look_found.1 hafter.dir).2
    rw [hmoved, FS.moved, if_neg hout, if_pos hp] at hdir
    cases hdir
  rw [hmoved, FS.moved]
  by_cases hnew : L ++ [n] = o.dropLast ++ [untilNul newName]
  · rw [if_pos (hnew ▸ List.prefix_refl _), hnew, List.drop_length, List.append_nil, hget]
    exact ⟨fun h => .inr ⟨h.1, rfl⟩, fun h => ⟨h.elim (·.1.1) (·.1), by simp⟩⟩
  · have hnot {p : Loc} (hp : ¬ p <+: L) (hne : L ++ [n] ≠ p) : ¬ p <+: L ++ [n] := fun h =>
      (List.prefix_concat_iff.1 h).elim (fun e => hne e.symm) hp
    rw [if_neg (hnot hout hnew)]
    by_cases hn : L ++ [n] = o
    · rw [if_pos (hn ▸ List.prefix_refl _)]
      exact iff_of_false (fun h => h.2 rfl) fun h => h.elim (·.2 hn) fun h => hnew h.2
    · rw [if_neg (hnot hstays hn)]
      simp [hn, hnew]

/-- One of two notes takes the name of the other, and one name is shown. -/
theorem note_renamed_in_listing :
    let shown := (FolderContents.init Os.quiet twoNotes "/tmp".toList).names
    let shown' := (FolderContents.init Os.quiet (InternalRename.init Os.quiet twoNotes "/tmp/a".toList "b".toList).1
      "/tmp".toList).names
    shown'.Nodup ∧ ∀ n, n ∈ shown' ↔
      n ∈ shown ∧ ["tmp".toList] ++ [n] ≠ ["tmp".toList, "a".toList] ∨
        FolderContents.Visible "/tmp".toList n ∧ ["tmp".toList] ++ [n] = ["tmp".toList, "b".toList] :=
  listing_after_rename Os.quiet Os.quiet Os.quiet twoNotes "/tmp/a".toList "b".toList "/tmp".toList (by decide)
    first_note_found tmp_accepted ⟨by decide, rfl⟩ (by decide)

/-! ## Copying -/

/-- A copy of a file or a directory into a folder that reports success, where no link
stands in its way, adds its name to what the folder shows and changes nothing else there. -/
theorem listing_after_copy (os os₁ os₂ : Os) (fs : FS) (srcPath destPath : Str) (overwrite : Bool) {D s : Loc} {nd : Node}
    (hok : (InternalCopy.init os fs srcPath destPath overwrite).2.Succeeded)
    (hsrc : fs.symlinkStatus (components srcPath) = .found s nd) (hkind : ∀ t, nd ≠ .link t)
    (hname : IsName (baseName srcPath)) (hdest : FolderContents.Accepted fs destPath D)
    (hlink : fs.LinkFree (D ++ [baseName srcPath])) :
    let shown := (FolderContents.init os₁ fs destPath).names
    let shown' := (FolderContents.init os₂ (InternalCopy.init os fs srcPath destPath overwrite).1 destPath).names
    shown'.Nodup ∧ ∀ n, n ∈ shown' ↔ n ∈ shown ∨ FolderContents.Visible destPath n ∧ n = baseName srcPath := by
  intro shown shown'
  obtain ⟨fs₁, dest, hprep, hcopied, hfs⟩ := Transfer.copy_succeeded hok
  have hp := Transfer.prepared hprep
  obtain ⟨-, hlast, -⟩ := Transfer.validated hp.destination
  have hplain (t : Str) : fs.get (D ++ [baseName srcPath]) ≠ some (.link t) := hlink _ t (List.prefix_refl _)
  have hin : ∀ l, fs.locate .make (components (Transfer.place fs srcPath destPath)) = .ok l →
      D ++ [baseName srcPath] <+: l := by
    intro l hl
    rw [Transfer.place, if_pos (Transfer.isDir_iff.2 ⟨D, hdest.dir⟩), Transfer.components_desPath hname.1 hlast,
      FS.locate_child hdest.dir hname .make (.inr hplain), if_neg (by simp)] at hl
    rw [Except.ok.inj hl]
  -- the copy adds entries at and below the place of the source only
  have hgrew : FS.Grew (D ++ [baseName srcPath]) fs (InternalCopy.init os fs srcPath destPath overwrite).1 :=
    Transfer.grew_copied (by simp) hin hlink
  have hplace : fs.locate .make (components (Transfer.desPath srcPath destPath)) = .ok (D ++ [baseName srcPath]) := by
    rw [Transfer.components_desPath hname.1 hlast, FS.locate_child hdest.dir hname .make (.inr hplain), if_neg (by simp)]
  have harrived : (InternalCopy.init os fs srcPath destPath overwrite).1.get (D ++ [baseName srcPath]) ≠ none := by
    cases nd with
    | link t => exact absurd rfl (hkind t)
    | file content =>
      rw [hfs, delivers_file hprep hcopied hplace hsrc]
      simp
    | dir =>
      have hdir : fs.isDir (components srcPath) = true :=
        Transfer.isDir_iff.2 ⟨s, FS.status_of_symlinkStatus hsrc (by simp)⟩
      have hcopy : FS.Grew [] fs₁ (InternalCopy.init os fs srcPath destPath overwrite).1 := by
        rw [hfs]
        exact FS.grew_copyTree (.inl rfl) (.inl rfl)
      intro hnone
      cases hget : fs.get (D ++ [baseName srcPath]) with
      | some nd =>
        obtain ⟨nd', hthere, -⟩ := hgrew.extends_ _ nd hget
        cases hnone.symm.trans hthere
      | none =>
        have hmade := (FS.look_found.1 (hp.missing hdir hplace hget).2).2
        cases hnone.symm.trans (hcopy.extends_.dir hmade)
  have hafter : FolderContents.Accepted (InternalCopy.init os fs srcPath destPath overwrite).1 destPath D := by
    have hdir := FS.status_dir_of_extends hgrew.extends_ hdest.dir
    refine ⟨?_, hdir⟩
    have hvalid := hdest.valid
    simp only [validateInternalPath, Bool.and_eq_true] at hvalid ⊢
    exact ⟨hvalid.1, by rw [FS.exists?, hdir]⟩
  refine ⟨FolderContents.nodup_names hafter os₂, fun n => ?_⟩
  rw [FolderContents.mem_names hafter, FolderContents.mem_names hdest]
  by_cases hn : n = baseName srcPath
  · rw [hn]
    exact ⟨fun h => .inr ⟨h.1, rfl⟩, fun h => ⟨h.elim (·.1) (·.1), harrived⟩⟩
  · rw [hgrew.within _ fun h => hn (by simpa [eq_comm] using h)]
    simp [hn]

theorem folder_accepted : FolderContents.Accepted noteAndFolder "/tmp/d".toList ["tmp".toList, "d".toList] :=
  ⟨rfl, rfl⟩

/-- The folder shows the note that was copied into it. -/
theorem note_copied_into_listing :
    let copied := InternalCopy.init Os.quiet noteAndFolder "/tmp/a".toList "/tmp/d".toList false
    let shown := (FolderContents.init Os.quiet noteAndFolder "/tmp/d".toList).names
    let shown' := (FolderContents.init Os.quiet copied.1 "/tmp/d".toList).names
    shown'.Nodup ∧ ∀ n, n ∈ shown' ↔ n ∈ shown ∨ FolderContents.Visible "/tmp/d".toList n ∧ n = baseName "/tmp/a".toList := by
  have hsrc : noteAndFolder.symlinkStatus (components "/tmp/a".toList) = .found ["tmp".toList, "a".toList] (.file [1]) := by
    decide +kernel
  have hfree : noteAndFolder.get (["tmp".toList, "d".toList] ++ [baseName "/tmp/a".toList]) = none := rfl
  refine listing_after_copy Os.quiet Os.quiet Os.quiet noteAndFolder "/tmp/a".toList "/tmp/d".toList false
    rfl hsrc (by simp) (by decide) folder_accepted fun m t hm ht => ?_
  cases (FS.get_eq_none_below hfree hm).symm.trans ht

end StorageAccess
