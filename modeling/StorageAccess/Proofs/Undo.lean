import StorageAccess.Lib.Keeping
import StorageAccess.Proofs.Overwriting
/-!
# What can be undone

A copy to a free place is undone by removing what was copied, however far the
copy got. A rename to a free name is undone by renaming back.
-/

open Posix Json

namespace StorageAccess

/-! ## Copying -/

/-- Below a directory, a name that nothing answers to stands for a free place. -/
theorem free_place {fs : FS} {p : List Name} {D : Loc} {n : Name} (hd : fs.status p = .found D .dir)
    (hn : n ≠ [] ∧ '/' ∉ n ∧ Char.ofNat 0 ∉ n) (habs : fs.symlinkStatus (p ++ [n]) = .absent) : IsName n ∧ fs.get (D ++ [n]) = none := by
  have hname : IsName n := by
    refine ⟨hn.1, ?_, ?_, hn.2⟩
    all_goals
      intro hdots
      obtain ⟨m, nd, hm⟩ := FS.symlinkStatus_of_status (FS.status_dots (c := n) hd (by simp [hdots]))
      rw [hm] at habs
      cases habs
  exact ⟨hname, Job.get_of_symlinkStatus_absent hd hname habs⟩

/-- A transfer begins with two valid paths. -/
theorem copy_refused {os : Os} {fs : FS} {srcPath destPath : Str} {overwrite : Bool}
    (h : ¬ (validateInternalPath fs srcPath = true ∧ validateInternalPath fs destPath = true)) :
    (InternalCopy.init os fs srcPath destPath overwrite).1 = fs := by
  unfold InternalCopy.init Transfer.prepare
  by_cases hs : validateInternalPath fs srcPath = true
  · have hd : validateInternalPath fs destPath = false := Bool.eq_false_iff.2 fun hd => h ⟨hs, hd⟩
    simp [hs, hd]
  · simp [hs]

/-- The place of the source in a valid destination is a valid path once something stands there. -/
theorem validate_desPath {fs fs' : FS} {srcPath destPath : Str} (hs : validateInternalPath fs srcPath = true)
    (hd : validateInternalPath fs destPath = true)
    (he : fs'.exists? (components (Transfer.desPath srcPath destPath)) = true) :
    validateInternalPath fs' (Transfer.desPath srcPath destPath) = true := by
  obtain ⟨hbase, -, -⟩ := Transfer.validated hs
  simp only [validateInternalPath, Bool.and_eq_true, decide_eq_true_eq] at hd ⊢
  obtain ⟨⟨⟨hne, hhead⟩, -⟩, -⟩ := hd
  obtain ⟨c, rest, rfl⟩ := List.exists_cons_of_ne_nil hne
  refine ⟨⟨⟨by simp [Transfer.desPath], by simpa [Transfer.desPath] using hhead⟩, ?_⟩, he⟩
  have hlast : (Transfer.desPath srcPath (c :: rest)).getLast? = (baseName srcPath).getLast? := by
    obtain ⟨x, xs, hx⟩ := List.exists_cons_of_ne_nil hbase
    rw [Transfer.desPath, hx, List.getLast?_append, List.getLast?_cons_cons,
      List.getLast?_eq_some_getLast (List.cons_ne_nil x xs)]
    rfl
  rw [hlast]
  exact fun hl => slash_not_mem_baseName srcPath (List.mem_of_getLast? hl)

/-- A copy into a directory where nothing stands at the place of the source works at and below this place. -/
theorem copied_to_free {fs : FS} {srcPath destPath : Str} {D : Loc} (os : Os) (overwrite : Bool)
    (hs : validateInternalPath fs srcPath = true) (hd : validateInternalPath fs destPath = true)
    (hdest : fs.status (components destPath) = .found D .dir)
    (hfree : fs.symlinkStatus (components (Transfer.desPath srcPath destPath)) = .absent) :
    components (Transfer.desPath srcPath destPath) = components destPath ++ [baseName srcPath] ∧
      IsName (baseName srcPath) ∧ fs.get (D ++ [baseName srcPath]) = none ∧
      FS.Grew (D ++ [baseName srcPath]) fs (InternalCopy.init os fs srcPath destPath overwrite).1 := by
  obtain ⟨hbase, -, -⟩ := Transfer.validated hs
  obtain ⟨-, hlast, -⟩ := Transfer.validated hd
  have hc := Transfer.components_desPath hbase hlast
  obtain ⟨hname, hnone⟩ := free_place hdest (Transfer.plain_baseName hs) (hc ▸ hfree)
  refine ⟨hc, hname, hnone, Transfer.grew_copied (by simp) (fun m hm => ?_) fun m t hp hm => ?_⟩
  · rw [Transfer.place, if_pos (Transfer.isDir_iff.2 ⟨D, hdest⟩), hc,
      FS.locate_child hdest hname .make (.inr (by simp [hnone])), if_neg (by simp)] at hm
    rw [Except.ok.inj hm]
  · rw [FS.get_eq_none_below hnone hp] at hm
    cases hm

/-- Whatever a copy into a directory comes to, and whether or not it may overwrite,
removing the place it went to restores every entry, if nothing was there before
and what was copied can be removed. -/
theorem remove_undoes_copy (os os' : Os) (fs : FS) (srcPath destPath : Str) (overwrite : Bool) {D : Loc}
    (hdest : fs.status (components destPath) = .found D .dir)
    (hfree : fs.symlinkStatus (components (Transfer.desPath srcPath destPath)) = .absent)
    (hstuck : ∀ l, D ++ [baseName srcPath] <+: l → os'.stuck l = false) :
    let copied := InternalCopy.init os fs srcPath destPath overwrite
    let removed := InternalRemove.init os' copied.1 (Transfer.desPath srcPath destPath)
    ∀ l, removed.1.get l = fs.get l := by
  intro copied removed l
  -- where nothing is found, nothing is removed
  have hkeep (h : ∀ m nd, copied.1.symlinkStatus (components (Transfer.desPath srcPath destPath)) ≠ .found m nd) :
      removed.1 = copied.1 := by
    unfold removed InternalRemove.init
    split
    · exact FS.removeAll_eq_self _ _ _ h
    · rfl
  by_cases hvalid : validateInternalPath fs srcPath = true ∧ validateInternalPath fs destPath = true
  case neg =>
    have hsame : copied.1 = fs := copy_refused hvalid
    rw [hkeep (by simp [hsame, hfree]), hsame]
  obtain ⟨hs, hd⟩ := hvalid
  obtain ⟨hc, hname, hnone, hgrew⟩ := copied_to_free os overwrite hs hd hdest hfree
  have hdir := FS.status_dir_of_extends hgrew.extends_ hdest
  have hlook : copied.1.symlinkStatus (components destPath ++ [baseName srcPath]) = _ :=
    FS.look_child hdir hname (by decide) (.inl rfl)
  cases hget : copied.1.get (D ++ [baseName srcPath]) with
  | none =>
    rw [hget] at hlook
    rw [hkeep (by simp [hc, hlook])]
    by_cases hp : D ++ [baseName srcPath] <+: l
    · rw [FS.get_eq_none_below hget hp, FS.get_eq_none_below hnone hp]
    · exact hgrew.within l hp
  | some nd =>
    rw [hget] at hlook
    have hplain (t : Str) : copied.1.get (D ++ [baseName srcPath]) ≠ some (.link t) := by
      intro ht
      have hold := hgrew.links _ t ht
      rw [hnone] at hold
      cases hold
    have hexists : copied.1.exists? (components (Transfer.desPath srcPath destPath)) = true := by
      rw [hc, FS.exists?, FS.status, FS.look_child hdir hname (by decide) (.inr hplain), hget]
    have hremoved : removed.1 = (copied.1.removeAll os'.stuck (components (Transfer.desPath srcPath destPath))).1 := by
      unfold removed InternalRemove.init
      rw [if_pos (validate_desPath hs hd hexists)]
    rw [hremoved, hc]
    refine FS.removeAll_of_grew (by simp) hnone hgrew hstuck hlook ?_ l
    rw [List.getLastD_concat]
    exact ⟨hname.2.1, hname.2.2.1⟩

def noteAndFolder : FS :=
  FS.ofEntries [(["tmp".toList], .dir), (["tmp".toList, "a".toList], .file [1]), (["tmp".toList, "d".toList], .dir)]
    (by decide)

/-- The copy of a note into a folder is taken out of it again. -/
theorem copied_note_removed :
    let copied := InternalCopy.init Os.quiet noteAndFolder "/tmp/a".toList "/tmp/d".toList false
    let removed := InternalRemove.init Os.quiet copied.1 (Transfer.desPath "/tmp/a".toList "/tmp/d".toList)
    ∀ l, removed.1.get l = noteAndFolder.get l := by
  have hdest : noteAndFolder.status (components "/tmp/d".toList) = .found ["tmp".toList, "d".toList] .dir := by
    decide +kernel
  exact remove_undoes_copy Os.quiet Os.quiet noteAndFolder "/tmp/a".toList "/tmp/d".toList false hdest (by decide)
    fun _ _ => rfl

/-! ## Renaming -/

/-- The directory of a path is found at the same place in two trees that agree. -/
theorem locate_of_agrees {fs fs' : FS} (h : fs.Agrees fs') {p : List Name} {l l' : Loc} (hl : fs.locate .follow p = .ok l)
    (hl' : fs'.locate .follow p = .ok l') : l' = l := by
  obtain ⟨k, hw⟩ := FS.locate_eq_ok.1 hl
  obtain ⟨k', hw'⟩ := FS.locate_eq_ok.1 hl'
  exact congrArg Prod.fst (h.walks (by decide) (FS.walk_eq_ok_iff.1 hw) (FS.walk_eq_ok_iff.1 hw'))

/-- The old name stands in the directory `d` and can be carried to the new one beside it, which is free. -/
structure BesideFree (fs : FS) (oldAbsPath newName : Str) (front : List Name) (d : Loc) : Prop where
  paths : ∀ n : Name, n ≠ [] → '/' ∉ n → components (dirPart oldAbsPath ++ n) = front ++ [n]
  directory : fs.locate .follow front = .ok d
  name : IsName newName
  base : baseName oldAbsPath ≠ []
  nul : Char.ofNat 0 ∉ baseName oldAbsPath
  can : fs.CanMove (d ++ [baseName oldAbsPath]) (d ++ [newName])
  stood : fs.get (d ++ [baseName oldAbsPath]) ≠ none
  free : fs.get (d ++ [newName]) = none

/-- A rename that reports success to a name that was free has carried the tree there. -/
theorem renamed_to_free {os : Os} {fs : FS} {oldAbsPath newName : Str}
    (hok : (InternalRename.init os fs oldAbsPath newName).2 = InternalOperErrors.success.code)
    (hfree : fs.symlinkStatus (components (dirPart oldAbsPath ++ untilNul newName)) = .absent) :
    ∃ front d, BesideFree fs oldAbsPath (untilNul newName) front d ∧
      (InternalRename.init os fs oldAbsPath newName).1 = fs.move (d ++ [baseName oldAbsPath]) (d ++ [untilNul newName]) := by
  -- the new name is free in the directory where the old one stands
  have hplace {o : Loc} (h : RenameAllowed os fs oldAbsPath newName o) (hne : untilNul newName ≠ []) :
      ∃ front d, (∀ n : Name, n ≠ [] → '/' ∉ n → components (dirPart oldAbsPath ++ n) = front ++ [n]) ∧
        fs.locate .follow front = .ok d ∧ o = d ++ [baseName oldAbsPath] ∧ fs.get o ≠ none ∧ IsName (untilNul newName) ∧
        fs.get (d ++ [untilNul newName]) = none := by
    obtain ⟨hbase, -, -⟩ := Transfer.validated h.valid
    obtain ⟨front, hfront⟩ := components_sibling oldAbsPath
    have hold := hfront _ hbase (slash_not_mem_baseName oldAbsPath)
    rw [dirPart_append_baseName] at hold
    obtain ⟨nd, hs⟩ := h.stands
    obtain ⟨hloc, hget⟩ := FS.look_found.1 hs
    rw [hold] at hloc
    obtain ⟨d, hd, rfl⟩ := FS.locate_keep_concat hloc h.notDots
    have hdir := FS.closed fs d _ (by rw [hget]; nofun)
    have hslash : '/' ∉ untilNul newName := not_mem_untilNul h.named.2
    rw [hfront _ hne hslash] at hfree
    obtain ⟨hname, hnone⟩ := free_place (FS.look_found.2 ⟨hd, hdir⟩) ⟨hne, hslash, nul_not_mem_untilNul newName⟩ hfree
    exact ⟨front, d, hfront, hd, rfl, by rw [hget]; nofun, hname, hnone⟩
  have hrun := renameRun os fs oldAbsPath newName
  generalize InternalRename.init os fs oldAbsPath newName = renamed at hrun hok
  cases hrun with
  | refused status negative =>
    rw [show status = _ from hok] at negative
    exact absurd negative (by decide)
  | same o allowed here =>
    have hname : IsName (untilNul newName) := by
      obtain ⟨nd, hs⟩ := allowed.stands
      exact fs.named o.dropLast _ (by rw [← here, (FS.look_found.1 hs).2]; nofun)
    obtain ⟨-, d, -, -, rfl, hstood, -, hnone⟩ := hplace allowed hname.1
    rw [List.dropLast_concat] at here
    rw [← here] at hnone
    exact absurd hnone hstood
  | moved o allowed other can room =>
    have hname : untilNul newName ≠ [] := by
      have h := can.2.2.2.1
      rw [List.getLastD_concat] at h
      exact h.1
    obtain ⟨front, d, hfront, hd, rfl, hstood, hname, hnone⟩ := hplace allowed hname
    obtain ⟨hbase, -, hnul⟩ := Transfer.plain_baseName allowed.valid
    rw [List.dropLast_concat] at can ⊢
    exact ⟨front, d, ⟨hfront, hd, hname, hbase, hnul, can, hstood, hnone⟩, rfl⟩

/-- A rename to a free name is undone by renaming back, as long as the new path is
accepted and the kernel allows it. -/
theorem rename_undone (os os' : Os) (fs : FS) (oldAbsPath newName : Str)
    (hok : (InternalRename.init os fs oldAbsPath newName).2 = InternalOperErrors.success.code)
    (hfree : fs.symlinkStatus (components (dirPart oldAbsPath ++ untilNul newName)) = .absent)
    (hback : validateInternalPath (InternalRename.init os fs oldAbsPath newName).1 (dirPart oldAbsPath ++ untilNul newName) = true)
    (hallowed : os'.renameRefused = false) :
    let renamed := InternalRename.init os fs oldAbsPath newName
    let back := InternalRename.init os' renamed.1 (dirPart oldAbsPath ++ untilNul newName) (baseName oldAbsPath)
    back.2 = InternalOperErrors.success.code ∧ ∀ l, back.1.get l = fs.get l := by
  obtain ⟨front, d, h, hmoved⟩ := renamed_to_free hok hfree
  intro renamed back
  have hslash := slash_not_mem_baseName oldAbsPath
  have hnew := h.paths (untilNul newName) h.name.1 h.name.2.2.2.1
  have hagrees := FS.agrees_move h.can h.free
  have harrived : (fs.move (d ++ [baseName oldAbsPath]) (d ++ [untilNul newName])).get (d ++ [untilNul newName]) =
      fs.get (d ++ [baseName oldAbsPath]) := by
    have hself := FS.moved_get h.can (d ++ [untilNul newName])
    rwa [FS.moved, if_pos (List.prefix_refl _), List.drop_length, List.append_nil] at hself
  have hcan := FS.canMove_back h.can h.stood h.free
  have hrestored := FS.move_back h.can h.stood h.free
  have hleft : (fs.move (d ++ [baseName oldAbsPath]) (d ++ [untilNul newName])).get (d ++ [baseName oldAbsPath]) = none := by
    rw [FS.moved_get h.can, FS.moved, if_neg hcan.2.1, if_pos (List.prefix_refl _)]
  unfold back renamed
  rw [hmoved] at hback ⊢
  generalize fs.move (d ++ [baseName oldAbsPath]) (d ++ [untilNul newName]) = fs' at hback hagrees harrived hcan hrestored hleft ⊢
  -- the new path leads to the directory of the old one
  obtain ⟨-, -, m, nd', hfound⟩ := Transfer.validated hback
  rw [hnew] at hfound
  obtain ⟨d', hd'⟩ := FS.status_prefix hfound (by simp)
  obtain ⟨hloc, hdir⟩ := FS.look_found.1 hd'
  obtain rfl := locate_of_agrees hagrees h.directory hloc
  obtain ⟨nd, hnd⟩ := Option.ne_none_iff_exists'.1 h.stood
  have hlook : fs'.symlinkStatus (front ++ [untilNul newName]) = .found (d' ++ [untilNul newName]) nd := by
    rw [FS.symlinkStatus, FS.look_child hd' h.name (by decide) (.inl rfl), harrived, hnd]
  have hdirPart := dirPart_sibling oldAbsPath h.name.2.2.2.1
  have hrename : fs'.rename false (front ++ [untilNul newName]) (front ++ [baseName oldAbsPath]) =
      (fs'.move (d' ++ [untilNul newName]) (d' ++ [baseName oldAbsPath]), false) := by
    refine FS.rename_of_free hlook hloc ?_ hcan hleft
    rw [List.getLastD_concat]
    exact ⟨h.name.2.1, h.name.2.2.1⟩
  have hbase : untilNul (baseName oldAbsPath) = baseName oldAbsPath := untilNul_eq_self_iff.2 h.nul
  unfold InternalRename.init
  rw [hback, if_neg (by decide), if_neg (not_or.2 ⟨h.base, hslash⟩), hdirPart, hbase]
  dsimp only
  rw [h.paths _ h.base hslash, hnew, hallowed, hrename]
  exact ⟨rfl, hrestored⟩

/-- The note gets its name back. -/
theorem note_renamed_back :
    let renamed := InternalRename.init Os.quiet noteAndFolder "/tmp/a".toList "c".toList
    let back := InternalRename.init Os.quiet renamed.1 (dirPart "/tmp/a".toList ++ "c".toList) (baseName "/tmp/a".toList)
    back.2 = InternalOperErrors.success.code ∧ ∀ l, back.1.get l = noteAndFolder.get l :=
  rename_undone Os.quiet Os.quiet noteAndFolder "/tmp/a".toList "c".toList rfl rfl
    (by decide) rfl

end StorageAccess
