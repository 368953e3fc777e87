import StorageAccess.Lib.Keeping
import StorageAccess.Proofs.CloudMove
import StorageAccess.Proofs.Transfers
/-!
# What an operation does to entries in its way

`InternalCopy` without overwrite keeps every entry, however it ends. The download
from the cloud reads the same flag and does not look at it, and `InternalRename` has
no check like that of the copy: both put what they bring in the place of a file
that is there.
-/

open Posix Json

namespace StorageAccess

/-! ## Copying -/

/-- Without overwrite a copy keeps every entry, and one that its checks refuse changes nothing. -/
theorem copy_keeps (os : Os) (fs : FS) (srcPath destPath : Str) :
    let copied := InternalCopy.init os fs srcPath destPath false
    fs.Keeps copied.1 ∧
      (copied.2.status ∈ [InternalOperErrors.fileAlreadyExists.code, InternalOperErrors.invalidSourcePath.code,
        InternalOperErrors.invalidDestPath.code] → copied.1 = fs) := by
  intro copied
  have hmade := (Transfer.madeDirs_prepare os fs srcPath destPath false).keeps
  obtain ⟨⟨fs₁, r⟩, hprep⟩ : ∃ r, Transfer.prepare os fs srcPath destPath false = r := ⟨_, rfl⟩
  rw [hprep] at hmade
  cases r with
  | error e =>
    have hcopied : copied = (fs₁, Transfer.refused srcPath destPath e) := by simp [copied, InternalCopy.init, hprep]
    rw [hcopied]
    refine ⟨hmade, fun hstatus => ?_⟩
    by_cases hb : Transfer.begins fs srcPath destPath false = true
    · -- past the checks the status is another one
      have he : e = .permissionDenied := Transfer.denied_of_begins hb hprep
      rw [he] at hstatus
      simp [Transfer.refused, InternalOperErrors.code] at hstatus
    · have hsame := (Transfer.refused_of_not_begins (by simpa using hb) os).1
      change copied.1 = fs at hsame
      rwa [hcopied] at hsame
  | ok dest =>
    have hcopied : copied.1 = (fs₁.copy os.copyFault os.depth false (components srcPath) (components dest)).1 := by
      simp [copied, InternalCopy.init, hprep]
    refine ⟨?_, fun hstatus => ?_⟩
    · rw [hcopied]
      exact hmade.trans (FS.keeps_copyTree fs₁ _ _ _ _)
    · have hdone : copied.2.status = (Transfer.outcome
          (fs₁.copy os.copyFault os.depth false (components srcPath) (components dest)).2).code := by
        simp [copied, InternalCopy.init, hprep, Transfer.sized]
      rw [hdone, Transfer.outcome] at hstatus
      split at hstatus <;> exact absurd hstatus (by decide)

/-! ## Downloading -/

namespace GDriveProvider

/-- A request for a file of the cloud, not to overwrite anything. -/
structure Downloads (req : RequestData) : Prop where
  method : req.methodType = .copyMethod ∨ req.methodType = .moveMethod
  source : req.str "srcStorageType" = cloudName
  destination : req.str "destStorageType" ≠ cloudName
  overwrite : req.flag "overwrite" = false

/-- Where the checks let the download through, no file stands at its target, or one
with the content that arrives. -/
def DownloadHarmless (os : Os) (drive : Drive) (req : RequestData) (s : GDriveProvider) (w : World) : Prop :=
  ∀ user, s.Admitted w req user → FileBegins user w.fs req → ∀ file, drive.get (s.indexed req "srcPath") = some file →
    ∀ l old, w.fs.status (components (localTarget req)) = .found l (.file old) → arrived os drive file = old

theorem download_fs_iff {os : Os} {drive : Drive} {req : RequestData} {s : GDriveProvider} {w : World}
    {user : GDriveUserData} (hu : s.mDriveIdUserDataMap[transferDrive req]? = some user)
    (hd : req.str "destStorageType" ≠ cloudName) (hb : FileBegins user w.fs req) :
    w.fs.KeepsFiles (download os drive (looked user) req w).1.fs ↔
      ∀ file, drive.get (s.indexed req "srcPath") = some file →
        ∀ l old, w.fs.status (components (localTarget req)) = .found l (.file old) → arrived os drive file = old := by
  have hlooked : (looked user).index.getFileId (req.str "srcPath") = s.indexed req "srcPath" :=
    (indexed_of_known hu "srcPath").symm
  have hstep := downloadStep os drive (looked user) req w
  generalize download os drive (looked user) req w = result at hstep ⊢
  cases hstep with
  | refused invalid => exact absurd ((fileBegins_download hd user w.fs).1 hb) invalid
  | missing valid hget =>
    rw [hlooked] at hget
    exact iff_of_true (FS.Keeps.refl w.fs).files (by simp [hget])
  | unopened valid file hget hwrite =>
    -- what cannot be opened for writing is no file
    refine iff_of_true (FS.Keeps.refl w.fs).files ?_
    intro file' _ l old hs
    have hclosed := (FS.writeFile_isSome_iff w.fs os.writeCut _ _).not.1 (Option.not_isSome_iff_eq_none.2 hwrite)
    exact absurd (.inl ⟨l, old, hs⟩) hclosed
  | written valid file fs hget hwrite =>
    rw [hlooked] at hget
    refine (FS.writeFile_keepsFiles_iff hwrite).trans ⟨fun h file' hf => ?_, fun h => h file hget⟩
    obtain rfl := Option.some.inj (hget.symm.trans hf)
    exact h

theorem deleteFile_fs (drive : Drive) (fileId : Str) (w : World) : (deleteFile drive fileId w).1.fs = w.fs := by
  unfold deleteFile
  cases drive.delete <;> rfl

theorem andThen_delete_fs (drive : Drive) (fileId : Str) (result : World × Bool) :
    (andThen result (deleteFile drive fileId)).1.fs = result.1.fs := by
  unfold andThen
  split
  · exact deleteFile_fs ..
  · rfl

/-- A copy or move from the cloud downloads, once the checks are passed. -/
theorem handled_fetch (os : Os) (drive : Drive) {req : RequestData} {s : GDriveProvider} {w : World}
    (hmethod : req.methodType = .copyMethod ∨ req.methodType = .moveMethod) (hdest : req.str "destStorageType" ≠ cloudName) :
    (handleRequests os drive req s w).2.fs = w.fs ∧ (∀ user, ¬ s.Admitted w req user) ∨
      ∃ user, s.Admitted w req user ∧
        (handleRequests os drive req s w).2.fs = (download os drive (looked user) req w).1.fs := by
  unfold handleRequests
  rcases hmethod with hm | hm
  all_goals rw [hm]
  · rcases transfer_cases req s w _ with ⟨hn, hd⟩ | ⟨user, ha, e⟩
    · exact .inl ⟨(sameFiles_of_denied hd).fs, hn⟩
    · refine .inr ⟨user, ha, ?_⟩
      dsimp only
      rw [copy, e]
      dsimp only
      rw [if_neg hdest, (sameFiles_finish ..).fs]
  · rcases transfer_cases req s w _ with ⟨hn, hd⟩ | ⟨user, ha, e⟩
    · exact .inl ⟨(sameFiles_of_denied hd).fs, hn⟩
    · refine .inr ⟨user, ha, ?_⟩
      dsimp only
      rw [move, e]
      dsimp only
      rw [if_neg hdest, (sameFiles_finish ..).fs, andThen_delete_fs]

theorem handled_download {os : Os} {drive : Drive} {req : RequestData} {s : GDriveProvider} {w : World}
    (h : Downloads req) :
    (handleRequests os drive req s w).2.fs = w.fs ∧ (∀ user, ¬ s.Admitted w req user) ∨
      ∃ user, s.Admitted w req user ∧
        (handleRequests os drive req s w).2.fs = (download os drive (looked user) req w).1.fs :=
  handled_fetch os drive h.method h.destination

/-- A download keeps the local files exactly if it is harmless; the overwrite flag makes no difference. -/
theorem download_keeps_files_iff (os : Os) (drive : Drive) {req : RequestData} (h : Downloads req) (s : GDriveProvider)
    (w : World) :
    w.fs.KeepsFiles (handleRequests os drive req s w).2.fs ↔ DownloadHarmless os drive req s w := by
  rcases handled_download h with ⟨e, hn⟩ | ⟨user, ha, e⟩
  · rw [e]
    exact iff_of_true (FS.Keeps.refl w.fs).files fun user ha => absurd ha (hn user)
  rw [e]
  have honly : ∀ user', s.Admitted w req user' → user' = user := fun user' ha' =>
    Option.some.inj (ha'.known.symm.trans ha.known)
  by_cases hb : FileBegins user w.fs req
  · rw [download_fs_iff ha.known h.destination hb]
    refine ⟨fun hk user' ha' _ => hk, fun hk => hk user ha hb⟩
  · obtain ⟨r, hr⟩ := download_refused os drive (fun hf => hb ((fileBegins_download h.destination user w.fs).2 hf))
    rw [hr]
    refine iff_of_true (FS.Keeps.refl w.fs).files fun user' ha' hb' => absurd hb' ?_
    rwa [honly user' ha']

/-- The session's drive, with local files. -/
def besideDrive (fs : FS) : World := { signedIn.world with fs := fs }

def fetch : RequestData :=
  ⟨.gdrive, .copyMethod,
    (((((JValue.object.put "srcStorageType" (.text "cloud")).put "destStorageType" (.text "internal")).put "srcDriveId"
      (.text "GDRIVE_1")).put "destDriveId" (.text "INTERNAL_STORAGE")).put "srcPath" (.text "/a.txt")).put "destPath"
      (.text "/media"), "guest2".toList⟩

theorem downloads_fetch : Downloads fetch := ⟨.inl rfl, rfl, by decide, rfl⟩

def emptyMedia : FS := FS.ofEntries [(["media".toList], .dir)] (by decide)

theorem fetch_beside_nothing :
    emptyMedia.KeepsFiles (handleRequests Os.quiet (oneFile .done) fetch signedIn.gdrive (besideDrive emptyMedia)).2.fs := by
  refine (download_keeps_files_iff Os.quiet (oneFile .done) downloads_fetch signedIn.gdrive
    (besideDrive emptyMedia)).2 fun user _ _ file _ l old hs => ?_
  have habsent : emptyMedia.status (components (localTarget fetch)) = .absent := by decide
  change emptyMedia.status (components (localTarget fetch)) = _ at hs
  rw [habsent] at hs
  cases hs

def mediaWithNote : FS :=
  FS.ofEntries [(["media".toList], .dir), (["media".toList, "a.txt".toList], .file [1, 2, 3])] (by decide)

/-- The file of that name is emptied by the download, though the request does not say overwrite. -/
theorem fetch_over_note :
    Downloads fetch ∧
      ¬ mediaWithNote.KeepsFiles
        (handleRequests Os.quiet (oneFile .done) fetch signedIn.gdrive (besideDrive mediaWithNote)).2.fs := by
  refine ⟨downloads_fetch, fun h => ?_⟩
  have hkept := h ["media".toList, "a.txt".toList] [1, 2, 3] rfl
  have hempty : (handleRequests Os.quiet (oneFile .done) fetch signedIn.gdrive (besideDrive mediaWithNote)).2.fs.get
      ["media".toList, "a.txt".toList] = some (.file []) := rfl
  rw [hempty] at hkept
  cases hkept

end GDriveProvider

/-! ## Renaming -/

/-- A rename that fails changes nothing; one that succeeds puts the tree of the old path
beside it under the new name and leaves everything else as it was. No entry has a name
with a NUL. -/
def RenamesAlone (fs : FS) (oldAbsPath newName : Str) (renamed : FS × Int) : Prop :=
  (renamed.2 < 0 ∧ renamed.1 = fs) ∨
    (renamed.2 = InternalOperErrors.success.code ∧ Char.ofNat 0 ∉ newName ∧
      ∃ o nd, fs.symlinkStatus (components oldAbsPath) = .found o nd ∧ fs.Renamed renamed.1 o (o.dropLast ++ [newName]))

/-- The checks and the system let the entry `o` of the old path be renamed. -/
structure RenameAllowed (os : Os) (fs : FS) (oldAbsPath newName : Str) (o : Loc) : Prop where
  valid : validateInternalPath fs oldAbsPath = true
  named : newName ≠ [] ∧ '/' ∉ newName
  allowed : os.renameRefused = false
  notDots : baseName oldAbsPath ≠ dot ∧ baseName oldAbsPath ≠ dotdot
  stands : ∃ nd, fs.symlinkStatus (components oldAbsPath) = .found o nd

/-- The rename is refused, or no entry makes way for the tree but an equal one. A name
with a NUL is cut there, and then nothing at all may make way. -/
def RenameHarmless (os : Os) (fs : FS) (oldAbsPath newName : Str) : Prop :=
  ∀ o, RenameAllowed os fs oldAbsPath newName o →
    (Char.ofNat 0 ∈ newName → ¬ fs.MakesWay o (o.dropLast ++ [untilNul newName])) ∧
      (Char.ofNat 0 ∉ newName → fs.Replaces o (o.dropLast ++ [newName]) →
        ∀ r, fs.get (o.dropLast ++ newName :: r) = fs.get (o ++ r))

/-- The paths of a rename that passes its checks. -/
theorem renamePaths_iff (os : Os) {fs : FS} {oldAbsPath newName : Str} (hv : validateInternalPath fs oldAbsPath = true)
    (hne : newName ≠ []) (hslash : '/' ∉ newName) (o n : Loc) :
    FS.RenamePaths fs os.renameRefused (components oldAbsPath) (components (dirPart oldAbsPath ++ newName)) o n ↔
      os.renameRefused = false ∧ (baseName oldAbsPath ≠ dot ∧ baseName oldAbsPath ≠ dotdot) ∧
        (∃ nd, fs.symlinkStatus (components oldAbsPath) = .found o nd) ∧ n = o.dropLast ++ [newName] := by
  obtain ⟨hbase, -, -⟩ := Transfer.validated hv
  obtain ⟨front, hfront⟩ := components_sibling oldAbsPath
  have hold := hfront _ hbase (slash_not_mem_baseName oldAbsPath)
  rw [dirPart_append_baseName] at hold
  have hnew := hfront newName hne hslash
  -- the directory of the old path is where both names stand
  have hdir {nd : Node} (hnamed : baseName oldAbsPath ≠ dot ∧ baseName oldAbsPath ≠ dotdot)
      (hs : fs.symlinkStatus (components oldAbsPath) = .found o nd) : fs.locate .follow front = .ok o.dropLast := by
    have hloc := (FS.look_found.1 hs).1
    rw [hold] at hloc
    obtain ⟨l, hl, rfl⟩ := FS.locate_keep_concat hloc hnamed
    rwa [List.dropLast_concat]
  constructor
  · rintro ⟨allowed, named, ⟨nd, hs⟩, ⟨parent, hp, rfl⟩⟩
    rw [components_getLastD hbase] at named
    rw [hnew, List.dropLast_concat, hdir named hs] at hp
    rw [hnew, List.getLastD_concat, Except.ok.inj hp]
    exact ⟨allowed, named, ⟨nd, hs⟩, rfl⟩
  · rintro ⟨allowed, named, ⟨nd, hs⟩, rfl⟩
    refine ⟨allowed, by rwa [components_getLastD hbase], ⟨nd, hs⟩, o.dropLast, ?_, ?_⟩
    · rw [hnew, List.dropLast_concat]
      exact hdir named hs
    · rw [hnew, List.getLastD_concat]

/-- A rename that reports success destroys no other entry if the entry was renamed and its new name can be had. -/
theorem renamesAlone_success_iff {fs fs' : FS} {oldAbsPath newName : Str} {o : Loc} {nd : Node}
    (hs : fs.symlinkStatus (components oldAbsPath) = .found o nd) :
    RenamesAlone fs oldAbsPath newName (fs', (Transfer.outcome false).code) ↔
      Char.ofNat 0 ∉ newName ∧ fs.Renamed fs' o (o.dropLast ++ [newName]) := by
  constructor
  · rintro (⟨hneg, -⟩ | ⟨-, hnul, o', nd', hs', hr⟩)
    · exact absurd hneg (by decide : ¬ InternalOperErrors.success.code < 0)
    · obtain ⟨rfl, -⟩ := FS.Lookup.found.inj (hs.symm.trans hs')
      exact ⟨hnul, hr⟩
  · intro ⟨hnul, hr⟩
    exact .inr ⟨rfl, hnul, o, nd, hs, hr⟩

theorem slash_mem_of_validated {fs : FS} {path : Str} (h : validateInternalPath fs path = true) : '/' ∈ path := by
  simp only [validateInternalPath, Bool.and_eq_true, decide_eq_true_eq] at h
  exact List.mem_of_mem_head? h.1.1.2

/-- Nothing makes way for what has no name. -/
theorem not_makesWay_unnamed {fs : FS} {o l : Loc} (ho : fs.get o ≠ none) :
    ¬ fs.MakesWay o (l ++ [[]]) := by
  have hcan : ¬ fs.CanMove o (l ++ [[]]) := fun h => absurd h.2.2.2.1 (by simp [IsName])
  rintro (rfl | ⟨h, -⟩ | h)
  · exact (fs.named l [] ho).1 rfl
  · exact hcan h
  · exact hcan h.2.1

theorem RenameAllowed.unique {os : Os} {fs : FS} {oldAbsPath newName : Str} {o o' : Loc}
    (h : RenameAllowed os fs oldAbsPath newName o) (h' : RenameAllowed os fs oldAbsPath newName o') : o' = o := by
  obtain ⟨nd, hs⟩ := h.stands
  obtain ⟨nd', hs'⟩ := h'.stands
  exact (FS.Lookup.found.inj (hs'.symm.trans hs)).1

/-- What a rename comes to: the checks refuse it, the kernel does, or the tree is carried to the name that is left of the new one. -/
inductive RenameRun (os : Os) (fs : FS) (oldAbsPath newName : Str) : FS × Int → Prop
  | refused (status : Int) (negative : status < 0)
      (kept : ∀ o, RenameAllowed os fs oldAbsPath newName o → ¬ fs.MakesWay o (o.dropLast ++ [untilNul newName])) :
      RenameRun os fs oldAbsPath newName (fs, status)
  | same (o : Loc) (allowed : RenameAllowed os fs oldAbsPath newName o) (here : o = o.dropLast ++ [untilNul newName]) :
      RenameRun os fs oldAbsPath newName (fs, InternalOperErrors.success.code)
  | moved (o : Loc) (allowed : RenameAllowed os fs oldAbsPath newName o) (other : o ≠ o.dropLast ++ [untilNul newName])
      (can : fs.CanMove o (o.dropLast ++ [untilNul newName]))
      (room : fs.get (o.dropLast ++ [untilNul newName]) = none ∨ fs.Replaces o (o.dropLast ++ [untilNul newName])) :
      RenameRun os fs oldAbsPath newName (fs.move o (o.dropLast ++ [untilNul newName]), InternalOperErrors.success.code)

theorem renameRun (os : Os) (fs : FS) (oldAbsPath newName : Str) :
    RenameRun os fs oldAbsPath newName (InternalRename.init os fs oldAbsPath newName) := by
  unfold InternalRename.init
  split
  case isTrue hv =>
    refine .refused _ (by decide) fun o h => ?_
    simp [h.valid] at hv
  case isFalse hv =>
  split
  case isTrue hname =>
    refine .refused _ (by decide) fun o h => ?_
    exact hname.elim (absurd · h.named.1) (absurd · h.named.2)
  case isFalse hname =>
  replace hv : validateInternalPath fs oldAbsPath = true := by simpa using hv
  have hslash : '/' ∉ untilNul newName := not_mem_untilNul (not_or.1 hname).2
  dsimp only
  have hstep := FS.renameStep fs os.renameRefused (components oldAbsPath) (components (dirPart oldAbsPath ++ untilNul newName))
  generalize fs.rename os.renameRefused (components oldAbsPath) (components (dirPart oldAbsPath ++ untilNul newName)) = r
    at hstep
  by_cases hcut : untilNul newName = []
  case pos =>
    -- the kernel is asked for the directory itself, and no entry can be put there
    have hlast : (components (dirPart oldAbsPath ++ untilNul newName)).getLastD [] = dot := by
      rw [hcut, List.append_nil]
      exact components_dirPart_getLastD (slash_mem_of_validated hv)
    cases hstep with
    | failed =>
      refine .refused InternalOperErrors.permissionDenied.code (by decide) fun o h => ?_
      obtain ⟨nd, hs⟩ := h.stands
      rw [hcut]
      exact not_makesWay_unnamed (by rw [(FS.look_found.1 hs).2]; nofun)
    | same o paths =>
      obtain ⟨nd, hs⟩ := paths.source
      obtain ⟨parent, -, ho⟩ := paths.target
      rw [hlast] at ho
      refine absurd rfl (fs.named parent dot ?_).2.1
      rw [← ho, (FS.look_found.1 hs).2]
      nofun
    | moved o n paths other can =>
      obtain ⟨parent, -, rfl⟩ := paths.target
      have hname : IsName ((parent ++ [dot]).getLastD []) := hlast ▸ can.2.2.2.1
      rw [List.getLastD_concat] at hname
      exact absurd rfl hname.2.1
  case neg =>
  have hpaths := renamePaths_iff os hv hcut hslash
  cases hstep with
  | failed kept =>
    refine .refused InternalOperErrors.permissionDenied.code (by decide) fun o h => kept o _ ((hpaths o _).2 ⟨h.allowed, h.notDots, h.stands, rfl⟩)
  | same o paths =>
    obtain ⟨allowed, notDots, stands, here⟩ := (hpaths o o).1 paths
    exact .same o ⟨hv, not_or.1 hname, allowed, notDots, stands⟩ here
  | moved o n paths other can room =>
    obtain ⟨allowed, notDots, stands, rfl⟩ := (hpaths o n).1 paths
    exact .moved o ⟨hv, not_or.1 hname, allowed, notDots, stands⟩ other can room

/-- A rename destroys no other entry exactly if it is harmless. -/
theorem renames_alone_iff (os : Os) (fs : FS) (oldAbsPath newName : Str) :
    RenamesAlone fs oldAbsPath newName (InternalRename.init os fs oldAbsPath newName) ↔
      RenameHarmless os fs oldAbsPath newName := by
  have hcut : Char.ofNat 0 ∉ newName → untilNul newName = newName := untilNul_eq_self_iff.2
  have hrun := renameRun os fs oldAbsPath newName
  generalize InternalRename.init os fs oldAbsPath newName = renamed at hrun
  cases hrun with
  | refused status negative kept =>
    refine iff_of_true (.inl ⟨negative, rfl⟩) fun o h => ⟨fun _ => kept o h, fun hnul hr => ?_⟩
    have hkept := kept o h
    rw [hcut hnul] at hkept
    exact absurd (.inr (.inr hr)) hkept
  | same o allowed here =>
    obtain ⟨nd, hs⟩ := allowed.stands
    refine (renamesAlone_success_iff hs).trans ⟨fun ⟨hnul, _⟩ o' h' => ?_, fun h => ?_⟩
    · -- the new name is the old one
      obtain rfl := allowed.unique h'
      rw [hcut hnul] at here
      exact ⟨fun h => absurd h hnul, fun _ hr => absurd here hr.1⟩
    · have hnul : Char.ofNat 0 ∉ newName := fun hnul => (h o allowed).1 hnul (.inl here)
      rw [hcut hnul] at here
      refine ⟨hnul, ?_⟩
      rw [← here]
      exact FS.Renamed.refl fs o
  | moved o allowed other can room =>
    obtain ⟨nd, hs⟩ := allowed.stands
    have hway : fs.MakesWay o (o.dropLast ++ [untilNul newName]) := .inr (room.imp_left fun hfree => ⟨can, hfree⟩)
    refine (renamesAlone_success_iff hs).trans ⟨fun ⟨hnul, hr⟩ o' h' => ?_, fun h => ?_⟩
    all_goals
      have hput (r : Loc) : o.dropLast ++ newName :: r = o.dropLast ++ [newName] ++ r := by
        rw [List.append_assoc, List.singleton_append]
    · -- what made way must have been equal, or free
      obtain rfl := allowed.unique h'
      rw [hcut hnul] at can other hr
      have hmove := (FS.renamed_move_iff can (by rw [List.dropLast_concat]) other).1 hr
      refine ⟨fun h => absurd h hnul, fun _ ⟨_, _, nd₁, nd₂, _, hn, _⟩ r => ?_⟩
      rw [hput]
      exact (hmove.resolve_left (by simp [hn])) r
    · have hnul : Char.ofNat 0 ∉ newName := fun hnul => (h o allowed).1 hnul hway
      rw [hcut hnul] at can other room ⊢
      refine ⟨hnul, (FS.renamed_move_iff can (by rw [List.dropLast_concat]) other).2 (room.imp_right fun hr r => ?_)⟩
      rw [← hput]
      exact (h o allowed).2 hnul hr r

def twoNotes : FS :=
  FS.ofEntries [(["tmp".toList], .dir), (["tmp".toList, "a".toList], .file [1]), (["tmp".toList, "b".toList], .file [2])]
    (by decide)

/-- The file that has the new name is replaced without a word. -/
theorem rename_onto_note :
    ¬ RenamesAlone twoNotes "/tmp/a".toList "b".toList
      (InternalRename.init Os.quiet twoNotes "/tmp/a".toList "b".toList) := by
  rintro (⟨hneg, -⟩ | ⟨-, -, o, nd, hs, hr⟩)
  · exact absurd hneg (by decide)
  · have hfound : twoNotes.symlinkStatus (components "/tmp/a".toList) = .found ["tmp".toList, "a".toList] (.file [1]) := by
      decide +kernel
    obtain ⟨rfl, -⟩ := FS.Lookup.found.inj (hfound.symm.trans hs)
    have hother := hr.entries ["tmp".toList, "b".toList] (by decide) (by decide)
    exact absurd hother (by decide +kernel)

end StorageAccess
