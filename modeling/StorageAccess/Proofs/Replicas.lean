import StorageAccess.Lib.Replica
import StorageAccess.Proofs.Delivery
import StorageAccess.Proofs.Undo
/-!
# Copies and moves to a free place

A copy that reports success to a directory that has nothing by the name of the
source leaves there what the source holds, but for its links, and changes nothing
else. A move is a rename as far as the tree can tell, if the source holds no
links; so what was moved there can be moved back.
-/

open Posix Json

namespace StorageAccess

/-- The source, no link itself, stands at `S`, and the destination is the directory at `D`,
outside the source, where nothing stands by the name of the source. -/
structure ToFree (fs : FS) (srcPath destPath : Str) (S D : Loc) : Prop where
  source : ∃ nd, fs.symlinkStatus (components srcPath) = .found S nd ∧ ∀ t, nd ≠ .link t
  directory : fs.status (components destPath) = .found D .dir
  free : fs.symlinkStatus (components (Transfer.desPath srcPath destPath)) = .absent
  outside : ¬ S <+: D

section
variable {os : Os} {fs : FS} {srcPath destPath : Str} {overwrite : Bool} {S D : Loc}

open Transfer

/-- The source and its free place are apart. -/
theorem ToFree.apart (h : ToFree fs srcPath destPath S D) {n : Name} (hnone : fs.get (D ++ [n]) = none) :
    Apart S (D ++ [n]) := by
  obtain ⟨nd, hsource, -⟩ := h.source
  have hget := (FS.look_found.1 hsource).2
  refine ⟨fun hp => ?_, fun hp => ?_⟩
  · -- the source would hold the destination, or stand at the free place
    rcases List.prefix_concat_iff.1 hp with rfl | hp
    · rw [hget] at hnone
      cases hnone
    · exact h.outside hp
  · rw [FS.get_eq_none_below hnone hp] at hget
    cases hget

/-- What a copy that reports success leaves at a free place. -/
theorem ToFree.mirrors (h : ToFree fs srcPath destPath S D)
    (hok : (InternalCopy.init os fs srcPath destPath overwrite).2.Succeeded) :
    fs.Mirrors (InternalCopy.init os fs srcPath destPath overwrite).1 S (D ++ [baseName srcPath]) := by
  obtain ⟨fs₁, dest, hprep, hcopied, hfs⟩ := copy_succeeded hok
  have hp := prepared hprep
  obtain ⟨hc, hname, hnone, -⟩ := copied_to_free os overwrite hp.source hp.destination h.directory h.free
  have hapart := h.apart hnone
  obtain ⟨nd, hS, hlink⟩ := h.source
  have hget := (FS.look_found.1 hS).2
  have hbelow (r : Loc) : fs.get (D ++ [baseName srcPath] ++ r) = none := FS.get_eq_none_below hnone (List.prefix_append _ r)
  have hplace : fs.locate .make (components (desPath srcPath destPath)) = .ok (D ++ [baseName srcPath]) := by
    rw [hc, FS.locate_child h.directory hname .make (.inr (by simp [hnone])), if_neg (by simp)]
  rw [hfs]
  cases nd with
  | link t => exact absurd rfl (hlink t)
  | file content =>
    have hthere := delivers_file hprep hcopied hplace hS
    intro r
    by_cases hr : r = []
    · rw [hr, List.append_nil, List.append_nil, hthere, hget]
      rfl
    · rw [FS.get_below_leaf hthere (by simp) hr, FS.get_below_leaf hget (by simp) hr]
      rfl
  | dir =>
    have hmade := madeDirs_prepare os fs srcPath destPath overwrite
    rw [hprep] at hmade
    have hdir : fs.isDir (components srcPath) = true := isDir_iff.2 ⟨S, FS.status_of_symlinkStatus hS (by simp)⟩
    obtain ⟨nd', hS', -⟩ := FS.look_of_extends hmade.grew.extends_ (by decide) hS
    have hsource : ∀ r, fs₁.get (S ++ r) = fs.get (S ++ r) := fun r =>
      hp.get hplace fun e => hapart.1 (e ▸ List.prefix_append S r)
    have hroute : Job.Route fs₁ (components srcPath) (components dest) S (D ++ [baseName srcPath]) := by
      rw [hp.target, if_pos hdir, hc]
      refine ⟨⟨nd', hS'⟩, ⟨_, _, D, rfl, FS.status_dir_of_extends hmade.grew.extends_ h.directory, hname, rfl⟩,
        fun r t _ ht => ?_, hapart⟩
      cases (hbelow r).symm.trans (hmade.grew.links _ t ht)
    -- at most the directory of the target was made
    have hvacant : Job.Vacant fs₁ S (D ++ [baseName srcPath]) := by
      intro r hr
      obtain rfl : r = [] := by
        by_contra hne
        rw [hp.get hplace (by simpa using hne), hbelow] at hr
        exact hr rfl
      rw [List.append_nil] at hr
      have htop := (hmade (D ++ [baseName srcPath])).resolve_left fun e => hr (e.trans hnone)
      exact ⟨rfl, htop.2, hmade.get hget⟩
    intro r
    rw [FS.mirrors_copyTree hroute hvacant hcopied r, hsource]

end

/-- A copy that reports success to a free place leaves there what the source holds,
but for its links, and everything else as it was. -/
theorem copy_is_replica (os : Os) (fs : FS) (srcPath destPath : Str) (overwrite : Bool) {S D : Loc}
    (h : ToFree fs srcPath destPath S D) (hok : (InternalCopy.init os fs srcPath destPath overwrite).2.Succeeded) :
    let copied := (InternalCopy.init os fs srcPath destPath overwrite).1
    fs.Mirrors copied S (D ++ [baseName srcPath]) ∧ ∀ m, ¬ D ++ [baseName srcPath] <+: m → copied.get m = fs.get m := by
  obtain ⟨fs₁, dest, hprep, -⟩ := Transfer.copy_succeeded hok
  have hp := Transfer.prepared hprep
  obtain ⟨-, -, -, hgrew⟩ := copied_to_free os overwrite hp.source hp.destination h.directory h.free
  exact ⟨h.mirrors hok, hgrew.within⟩

/-- A folder with a note and a link to it, and an empty folder beside it. -/
def twoFolders : FS :=
  FS.ofEntries [(["tmp".toList], .dir), (["tmp".toList, "s".toList], .dir), (["tmp".toList, "s".toList, "a".toList], .file [1]),
    (["tmp".toList, "s".toList, "k".toList], .link "a".toList), (["tmp".toList, "d".toList], .dir)] (by decide)

theorem folder_toFree : ToFree twoFolders "/tmp/s".toList "/tmp/d".toList ["tmp".toList, "s".toList] ["tmp".toList, "d".toList] where
  source := ⟨.dir, rfl, by simp⟩
  directory := by decide
  free := rfl
  outside := by decide

/-- The copy has the note and not the link. -/
theorem folder_replicated :
    let copied := (InternalCopy.init Os.quiet twoFolders "/tmp/s".toList "/tmp/d".toList false).1
    twoFolders.Mirrors copied ["tmp".toList, "s".toList] (["tmp".toList, "d".toList] ++ [baseName "/tmp/s".toList]) ∧
      ∀ m, ¬ ["tmp".toList, "d".toList] ++ [baseName "/tmp/s".toList] <+: m → copied.get m = twoFolders.get m :=
  copy_is_replica Os.quiet twoFolders "/tmp/s".toList "/tmp/d".toList false folder_toFree (by decide +kernel)

/-! ## Moving -/

section
variable {os : Os} {fs : FS} {srcPath destPath : Str} {overwrite : Bool} {S D : Loc}

/-- A move that reports success to a free place has carried the source there, if that holds no links. -/
theorem ToFree.moved (h : ToFree fs srcPath destPath S D) (hlinks : fs.LinkFree S)
    (hok : (InternalMove.init os fs srcPath destPath overwrite).2.Succeeded) (m : Loc) :
    (InternalMove.init os fs srcPath destPath overwrite).1.get m = FS.moved fs.get S (D ++ [baseName srcPath]) m := by
  obtain ⟨hcopy, hremoved, hfs⟩ := Transfer.move_succeeded hok
  obtain ⟨fs₁, dest, hprep, -⟩ := Transfer.copy_succeeded hcopy
  have hp := Transfer.prepared hprep
  obtain ⟨-, hname, hnone, hgrew⟩ := copied_to_free os overwrite hp.source hp.destination h.directory h.free
  have hmirrors := h.mirrors hcopy
  obtain ⟨nd, hS, -⟩ := h.source
  obtain ⟨nd', hS', -⟩ := FS.look_of_extends hgrew.extends_ (by decide) hS
  rw [hfs, FS.moved]
  split
  case isTrue hm =>
    obtain ⟨r, rfl⟩ := hm
    rw [List.drop_left, FS.removeAll_get_of_not_prefix, hmirrors]
    case h =>
      intro l nd'' hl hp
      obtain ⟨rfl, -⟩ := FS.Lookup.found.inj (hS'.symm.trans hl)
      exact (h.apart hnone).not_both hp (List.prefix_append _ r)
    cases hget : fs.get (S ++ r) with
    | none => rfl
    | some nd =>
      cases nd with
      | link t => exact absurd hget (hlinks _ t (List.prefix_append S r))
      | file | dir => rfl
  case isFalse hm =>
    split
    case isTrue hsm =>
      have hnamed : (components srcPath).getLastD [] ≠ dot ∧ (components srcPath).getLastD [] ≠ dotdot := by
        rw [components_getLastD hname.1]
        exact ⟨hname.2.1, hname.2.2.1⟩
      refine FS.removeAll_takes hS' hnamed hremoved hsm fun e => ?_
      -- the root holds the destination
      rw [e, List.prefix_nil] at hsm
      exact h.outside (hsm ▸ List.nil_prefix)
    case isFalse hsm =>
      refine (FS.removeAll_get_of_not_prefix _ _ _ fun l nd₁ hl => ?_).trans (hgrew.within m hm)
      rwa [← (FS.Lookup.found.inj (hS'.symm.trans hl)).1]

/-- The source stands by its name in a directory. -/
theorem ToFree.beside (h : ToFree fs srcPath destPath S D) (hname : IsName (baseName srcPath)) :
    ∃ U, S = U ++ [baseName srcPath] := by
  obtain ⟨nd, hS, -⟩ := h.source
  obtain ⟨hloc, -⟩ := FS.look_found.1 hS
  obtain ⟨front, hfront⟩ := components_sibling srcPath
  have hc := hfront _ hname.1 (slash_not_mem_baseName srcPath)
  rw [dirPart_append_baseName] at hc
  rw [hc] at hloc
  obtain ⟨U, -, rfl⟩ := FS.locate_keep_concat hloc ⟨hname.2.1, hname.2.2.1⟩
  exact ⟨U, rfl⟩

theorem baseName_desPath {fs' : FS} (hs : validateInternalPath fs' (Transfer.desPath srcPath destPath) = true)
    (hc : components (Transfer.desPath srcPath destPath) = components destPath ++ [baseName srcPath]) :
    baseName (Transfer.desPath srcPath destPath) = baseName srcPath := by
  rw [← components_getLastD (Transfer.validated hs).1, hc, List.getLastD_concat]

/-- What was moved to a free place can go back to where it was. -/
theorem ToFree.back {fs' : FS} {backPath : Str} {U : Loc} (h : ToFree fs srcPath destPath S D)
    (hname : IsName (baseName srcPath)) (hS : S = U ++ [baseName srcPath])
    (hc : components (Transfer.desPath srcPath destPath) = components destPath ++ [baseName srcPath])
    (hnone : fs.get (D ++ [baseName srcPath]) = none)
    (hmoved : ∀ m, fs'.get m = FS.moved fs.get S (D ++ [baseName srcPath]) m)
    (hparent : fs.status (components backPath) = .found U .dir)
    (hs : validateInternalPath fs' (Transfer.desPath srcPath destPath) = true)
    (hd : validateInternalPath fs' backPath = true) :
    ToFree fs' (Transfer.desPath srcPath destPath) backPath (D ++ [baseName srcPath]) U := by
  obtain ⟨nd, hsource, hlink⟩ := h.source
  have hget := (FS.look_found.1 hsource).2
  have hout : ¬ D ++ [baseName srcPath] <+: S := fun hp => by
    rw [FS.get_eq_none_below hnone hp] at hget
    cases hget
  have hagrees : fs.Agrees fs' := by
    intro l hl hl'
    have hp : ¬ D ++ [baseName srcPath] <+: l := fun hp => hl (FS.get_eq_none_below hnone hp)
    rw [hmoved, FS.moved, if_neg hp] at hl' ⊢
    split at hl'
    · exact absurd rfl hl'
    case isFalse hsl => rw [if_neg hsl]
  have harrived : fs'.get (D ++ [baseName srcPath]) = some nd := by
    rw [hmoved, FS.moved, if_pos (List.prefix_refl _), List.drop_length, List.append_nil, hget]
  have hleft : fs'.get S = none := by
    rw [hmoved, FS.moved, if_neg hout, if_pos (List.prefix_refl S)]
  -- the path of the destination leads where it led
  have hdir : fs'.status (components destPath) = .found D .dir := by
    obtain ⟨-, -, m, nd', hfound⟩ := Transfer.validated hs
    rw [hc] at hfound
    obtain ⟨D', hD'⟩ := FS.status_prefix hfound (by simp)
    rwa [locate_of_agrees hagrees (FS.look_found.1 h.directory).1 (FS.look_found.1 hD').1] at hD'
  have hback : fs'.status (components backPath) = .found U .dir := by
    obtain ⟨-, -, m, nd', hfound⟩ := Transfer.validated hd
    obtain ⟨hloc, hm⟩ := FS.look_found.1 hfound
    obtain rfl := locate_of_agrees hagrees (FS.look_found.1 hparent).1 hloc
    have hsame := hagrees m (by rw [(FS.look_found.1 hparent).2]; nofun) (by rw [hm]; nofun)
    rw [(FS.look_found.1 hparent).2, hm] at hsame
    rw [hfound, Option.some.inj hsame]
  have hbase := baseName_desPath hs hc
  obtain ⟨-, hlast, -⟩ := Transfer.validated hd
  refine ⟨⟨nd, ?_, hlink⟩, hback, ?_, fun hp => hout (hp.trans (hS ▸ List.prefix_append U _))⟩
  · rw [hc, FS.symlinkStatus, FS.look_child hdir hname (by decide) (.inl rfl), harrived]
  · rw [Transfer.components_desPath (hbase ▸ hname.1) hlast, hbase, FS.symlinkStatus,
      FS.look_child hback hname (by decide) (.inl rfl), ← hS, hleft]

end

/-- For the tree, a move that reports success to a free place is a rename, if the source holds no links. -/
theorem move_is_rename (os : Os) (fs : FS) (srcPath destPath : Str) (overwrite : Bool) {S D : Loc}
    (h : ToFree fs srcPath destPath S D) (hlinks : fs.LinkFree S)
    (hok : (InternalMove.init os fs srcPath destPath overwrite).2.Succeeded) :
    ∀ m, (InternalMove.init os fs srcPath destPath overwrite).1.get m = FS.moved fs.get S (D ++ [baseName srcPath]) m :=
  h.moved hlinks hok

/-- What was moved to a free place and moved back to the directory it came from is as it
was, and so is everything else. -/
theorem moved_there_and_back (os os' : Os) (fs : FS) (srcPath destPath backPath : Str) (overwrite overwrite' : Bool)
    {S D : Loc} (h : ToFree fs srcPath destPath S D) (hlinks : fs.LinkFree S)
    (hparent : fs.status (components backPath) = .found S.dropLast .dir)
    (hok : (InternalMove.init os fs srcPath destPath overwrite).2.Succeeded)
    (hback : (InternalMove.init os' (InternalMove.init os fs srcPath destPath overwrite).1
      (Transfer.desPath srcPath destPath) backPath overwrite').2.Succeeded) :
    ∀ m, (InternalMove.init os' (InternalMove.init os fs srcPath destPath overwrite).1
      (Transfer.desPath srcPath destPath) backPath overwrite').1.get m = fs.get m := by
  have hmoved := h.moved hlinks hok
  obtain ⟨hcopy, -, -⟩ := Transfer.move_succeeded hok
  obtain ⟨fs₁, dest, hprep, -⟩ := Transfer.copy_succeeded hcopy
  have hp := Transfer.prepared hprep
  obtain ⟨hc, hname, hnone, -⟩ := copied_to_free os overwrite hp.source hp.destination h.directory h.free
  obtain ⟨U, hS⟩ := h.beside hname
  rw [hS, List.dropLast_concat] at hparent
  generalize (InternalMove.init os fs srcPath destPath overwrite).1 = fs' at hback hmoved ⊢
  obtain ⟨hcopy', -, -⟩ := Transfer.move_succeeded hback
  obtain ⟨fs₂, dest', hprep', -⟩ := Transfer.copy_succeeded hcopy'
  have hp' := Transfer.prepared hprep'
  have hreturn := h.back hname hS hc hnone hmoved hparent hp'.source hp'.destination
  have hbase := baseName_desPath hp'.source hc
  have hlinks' : fs'.LinkFree (D ++ [baseName srcPath]) := by
    rintro m t ⟨r, rfl⟩ ht
    rw [hmoved, FS.moved, if_pos (List.prefix_append _ r), List.drop_left] at ht
    exact hlinks _ t (List.prefix_append S r) ht
  intro m
  rw [hreturn.moved hlinks' hback m, hbase, ← hS, funext hmoved]
  exact FS.moved_moved (fun _ hm => FS.get_eq_none_below hnone hm) m

theorem note_toFree :
    ToFree noteAndFolder "/tmp/a".toList "/tmp/d".toList ["tmp".toList, "a".toList] ["tmp".toList, "d".toList] where
  source := ⟨.file [1], rfl, by simp⟩
  directory := rfl
  free := rfl
  outside := by decide

theorem note_linkFree : noteAndFolder.LinkFree ["tmp".toList, "a".toList] := by
  rintro m t ⟨r, rfl⟩ ht
  have hfile : noteAndFolder.get ["tmp".toList, "a".toList] = some (.file [1]) := rfl
  by_cases hr : r = []
  · rw [hr, List.append_nil, hfile] at ht
    cases ht
  · rw [FS.get_below_leaf hfile (by simp) hr] at ht
    cases ht

/-- The note is carried into the folder. -/
theorem note_carried :
    (InternalMove.init Os.quiet noteAndFolder "/tmp/a".toList "/tmp/d".toList false).1.get =
      FS.moved noteAndFolder.get ["tmp".toList, "a".toList] (["tmp".toList, "d".toList] ++ [baseName "/tmp/a".toList]) := by
  funext m
  exact move_is_rename Os.quiet noteAndFolder "/tmp/a".toList "/tmp/d".toList false note_toFree note_linkFree
    rfl m

/-- The note is carried into the folder and back. -/
theorem note_carried_back :
    (InternalMove.init Os.quiet (InternalMove.init Os.quiet noteAndFolder "/tmp/a".toList "/tmp/d".toList false).1
      (Transfer.desPath "/tmp/a".toList "/tmp/d".toList) "/tmp".toList false).1.get = noteAndFolder.get := by
  funext m
  exact moved_there_and_back Os.quiet Os.quiet noteAndFolder "/tmp/a".toList "/tmp/d".toList "/tmp".toList false false
    note_toFree note_linkFree rfl rfl rfl m

end StorageAccess
