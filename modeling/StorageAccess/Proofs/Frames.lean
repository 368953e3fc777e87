import StorageAccess.Proofs.BackDoor
import StorageAccess.Proofs.Effects
import StorageAccess.Proofs.Overwriting
/-!
# Places apart from every operation

The log of a run is a full account of what the requests do to the files: nothing
changes at or below a place that each logged operation works apart from. What the
kernel does to the tree when a share is mounted is its own.
-/

open Posix Json

namespace StorageAccess

open SAFUtilityOperation

/-! ## Operations apart from a place -/

/-- The places the operation changes are apart from `M`. What mounting changes is up to the kernel. -/
def FsOp.ApartFrom (fs : FS) (M : Loc) : FsOp → Prop
  | .copy srcPath destPath => WritesApart fs srcPath destPath M
  | .move srcPath destPath => WritesApart fs srcPath destPath M ∧ EntryApart fs srcPath M
  | .remove path => EntryApart fs path M
  | .rename path newName => EntryApart fs path M ∧ NewNameApart fs path newName M
  | .makeDirs path => ∃ D, Apart D M ∧ FS.LeadsInto D fs (components path)
  | .writeFile path => ∀ l, fs.locate .make (components path) = .ok l → Apart l M
  | _ => True

/-- The trees are the same at and below `M`. -/
def Untouched (M : Loc) (fs fs' : FS) : Prop := ∀ m, M <+: m → fs'.get m = fs.get m

/-- If everything done was apart from `M`, nothing at or below it has changed. -/
def Spares (M : Loc) (w w' : World) : Prop := (∀ op ∈ newOps w w', op.ApartFrom w.fs M) → Untouched M w.fs w'.fs

variable {M : Loc} {req : RequestData} {w w' : World}

theorem Spares.of_fs (h : w'.fs = w.fs) : Spares M w w' := fun _ _ _ => by rw [h]

/-- One operation was done. -/
theorem Spares.of_op (op : FsOp) (hops : w'.ops = w.ops ++ [op]) (h : op.ApartFrom w.fs M → Untouched M w.fs w'.fs) :
    Spares M w w' := by
  intro happart
  rw [newOps_of_append hops] at happart
  exact h (happart op List.mem_cons_self)

/-- One operation was done if something held, and changes nothing else. -/
theorem Spares.of_opIf (done : Bool) (op : FsOp) (hops : w'.ops = (w.logIf done op).ops)
    (hnot : done = false → w'.fs = w.fs) (h : op.ApartFrom w.fs M → Untouched M w.fs w'.fs) : Spares M w w' := by
  cases done with
  | false => exact .of_fs (hnot rfl)
  | true => exact .of_op op hops h

/-- What is done before changes no files. -/
theorem Spares.after {w₁ : World} (hfs : w₁.fs = w.fs) (hops : w.ops <+: w₁.ops) (h : Spares M w₁ w') :
    Spares M w w' := by
  intro happart
  rw [Untouched, ← hfs]
  refine h fun op hop => ?_
  rw [hfs]
  exact happart op ((List.drop_sublist_drop_left _ hops.length_le).subset hop)

/-- What is done afterwards changes no files. -/
theorem Spares.followed {w₁ : World} (h : Spares M w w₁) (hfs : w'.fs = w₁.fs) (hops : w₁.ops <+: w'.ops) :
    Spares M w w' := by
  intro happart
  rw [hfs]
  exact h fun op hop => happart op ((hops.drop _).subset hop)

theorem Spares.reply (h : Spares M w w') (r : JValue) : Spares M w (w'.reply r) := h.followed rfl (List.prefix_refl _)

theorem Denied.spares (h : Denied w w') : Spares M w w' := by
  obtain ⟨rs, rfl⟩ := h
  exact .of_fs rfl

theorem Refused.spares (h : Refused w w') : Spares M w w' := h.denied.spares

theorem spares_remove (os : Os) (path : Str) : Spares M w (SAFUtilityOperation.remove os w path).1 :=
  .of_opIf _ (.remove path) rfl (fun hv => by simp [SAFUtilityOperation.remove, InternalRemove.init, hv])
    fun h _ hm => remove_get h hm

theorem spares_rename (os : Os) (path newName : Str) : Spares M w (SAFUtilityOperation.rename os w path newName).1 :=
  .of_opIf _ (.rename path newName) rfl (fun hb => rename_refused hb os)
    fun h _ hm => rename_get h.1 h.2 hm

/-- A transfer is logged when it begins, and changes nothing before. -/
theorem Started.spares {os : Os} (h : Started os req w w') : Spares M w w' := by
  obtain ⟨-, r, rfl⟩ := h
  by_cases hb : Transfer.begins w.fs (req.str "srcPath") (req.str "destPath") (req.flag "overwrite") = true
  case neg =>
    obtain ⟨hc, hmv⟩ := Transfer.refused_of_not_begins (by simpa using hb) os
    apply Spares.of_fs
    rw [World.reply_fs, transferOp]
    split
    · exact hmv
    · exact hc
  by_cases hmove : req.methodType = .moveMethod
  · refine .of_op (.move (req.str "srcPath") (req.str "destPath")) ?_ fun ha m hm => ?_
    · simp [transferOp, hmove, SAFUtilityOperation.move, World.logIf, hb]
    · simp only [World.reply_fs, transferOp, hmove, if_true]
      exact move_get ha.1 ha.2 hm
  · refine .of_op (.copy (req.str "srcPath") (req.str "destPath")) ?_ fun ha m hm => ?_
    · simp [transferOp, hmove, SAFUtilityOperation.copy, World.logIf, hb]
    · simp only [World.reply_fs, transferOp, hmove, if_false]
      exact copy_get ha hm

/-! ## The handlers -/

/-- The folder of the session is there, or was made by an operation apart from `M`. -/
theorem ownFolderApart_of_ops {os : Os} {w₁ : World} {sessionId : Str} (hfs : w₁.fs = w.fs) (hbefore : w.ops <+: w₁.ops)
    (hafter : (getInternalPath os w₁ sessionId).1.ops <+: w'.ops) (happart : ∀ op ∈ newOps w w', op.ApartFrom w.fs M) :
    OwnFolderApart w.fs sessionId M := by
  by_cases hexists : w.fs.exists? (components (internalFolder sessionId)) = true
  · exact .inl hexists
  obtain ⟨rest, hmade⟩ : ∃ rest, (getInternalPath os w₁ sessionId).1.ops =
      w₁.ops ++ .makeDirs (internalFolder sessionId) :: rest := by
    unfold getInternalPath
    dsimp only
    rw [if_neg (hfs ▸ hexists)]
    split
    · exact ⟨permissionCalls (internalFolder sessionId) sessionId, by simp [chownChmod, permissionCalls]⟩
    · exact ⟨[], rfl⟩
  obtain ⟨before, hbefore⟩ := hbefore
  obtain ⟨after, hafter⟩ := hafter
  have hnew : newOps w w' = before ++ .makeDirs (internalFolder sessionId) :: (rest ++ after) := by
    apply newOps_of_append
    rw [← hafter, hmade, ← hbefore]
    simp
  exact .inr (happart (.makeDirs (internalFolder sessionId)) (by simp [hnew]))

theorem spares_getInternalPath (os : Os) (sessionId : Str) : Spares M w (getInternalPath os w sessionId).1 := by
  intro happart
  have hown : OwnFolderApart w.fs sessionId M :=
    ownFolderApart_of_ops rfl (List.prefix_refl _) (List.prefix_refl _) happart
  exact (getInternalPath_apart os hown).1

/-- What was done is logged behind what was done before. -/
theorem Does.grows {calls : List FsOp} (h : Does calls w w') : w.ops <+: w'.ops := by
  obtain ⟨ops, -, he⟩ := h
  exact ⟨ops, he.symm⟩

namespace InternalStorageProvider

theorem spares_checked {go : World → World} (hgo : Spares M w (go w)) : Spares M w (checked req w go) := by
  rcases checked_cases req w go with hr | ⟨-, h⟩
  · exact hr.spares
  · rw [h]; exact hgo

/-- The world a request for properties has sought its path in. -/
theorem spares_sought (os : Os) : Spares M w (sought os req w).1 := by
  unfold sought
  split
  · exact spares_getInternalPath os req.sessionId
  · exact .of_fs rfl

theorem spares_getProperties (os : Os) : Spares M w (getProperties os req w) := by
  have hstep := propertiesStep os req w
  generalize getProperties os req w = w' at hstep
  cases hstep with
  | otherDrive => exact .of_fs rfl
  | refused => exact (spares_sought os).reply _
  | failed own valid done op =>
    have hlogged : Spares M w ((sought os req w).1.logIf done op) := (spares_sought os).followed rfl (List.prefix_append ..)
    exact hlogged.reply _
  | described own valid done op =>
    refine Spares.reply (fun happart => ?_) _
    have hlast := (does_getInternalPath os ((sought os req w).1.logIf done op) req.sessionId).grows
    by_cases hp : req.str "path" = []
    case neg =>
      -- the folder is only made at the end
      have hsought : sought os req w = (w, req.str "path") := if_neg hp
      rw [hsought] at happart ⊢
      have hlogged : w.ops <+: (w.logIf done op).ops := List.prefix_append ..
      have hown : OwnFolderApart w.fs req.sessionId M :=
        ownFolderApart_of_ops (World.logIf_fs w done op) hlogged (List.prefix_refl _) happart
      exact (getInternalPath_apart os (w := w.logIf done op) hown).1
    have hsought : (sought os req w).1 = (getInternalPath os w req.sessionId).1 := by rw [sought, if_pos hp]
    rw [hsought] at happart hlast ⊢
    have hown : OwnFolderApart w.fs req.sessionId M :=
      ownFolderApart_of_ops rfl (List.prefix_refl _) ((List.prefix_append ..).trans hlast) happart
    obtain ⟨hfirst, hagain⟩ := getInternalPath_apart os hown
    have hsecond := (getInternalPath_apart os (w := (getInternalPath os w req.sessionId).1.logIf done op) hagain).1
    exact fun m hm => (hsecond m hm).trans (hfirst m hm)

theorem spares_handleRequests (os : Os) (req : RequestData) (w : World) : Spares M w (handleRequests os req w) := by
  by_cases ht : IsTransfer req
  · exact (handleRequests_transfer_cases os ht w).elim (·.2.spares) (·.2.spares)
  unfold handleRequests
  cases h : req.methodType with
  | listMethod => exact spares_checked (.of_fs rfl)
  | getPropMethod => exact spares_getProperties os
  | removeMethod => exact spares_checked ((spares_remove os _).reply _)
  | renameMethod => exact spares_checked ((spares_rename os _ _).reply _)
  | listStoragesMethod => exact (spares_getInternalPath os req.sessionId).reply _
  | ejectMethod | extraMethod => exact .of_fs rfl
  | copyMethod | moveMethod => simp [IsTransfer, h] at ht

end InternalStorageProvider

namespace USBStorageProvider

theorem spares_checked {reg : Registry} {unmounted : USBErrors} {go : World → World} (hgo : Spares M w (go w)) :
    Spares M w (checked reg unmounted req w go) := by
  rcases checked_cases reg unmounted req w go with hr | ⟨-, -, h⟩
  · exact hr.spares
  · rw [h]; exact hgo

theorem spares_onReply (luna : Luna) (nextReq responses : List JValue) (root : JValue) :
    Spares M w (onReply luna nextReq responses root w) := by
  rw [onReply_eq]
  exact .of_fs rfl

theorem spares_getPropertiesMethod (os : Os) (luna : Luna) (reg : Registry) :
    Spares M w (getPropertiesMethod os luna reg req w) := by
  unfold getPropertiesMethod
  apply spares_checked
  dsimp only
  split
  · exact .of_fs rfl
  split
  · exact .of_fs rfl
  split
  · split <;> exact .of_fs rfl
  · exact spares_onReply luna _ _ _

theorem spares_handleRequests (os : Os) (luna : Luna) (reg : Registry) (req : RequestData) (w : World) :
    Spares M w (handleRequests os luna reg req w) := by
  by_cases ht : IsTransfer req
  · exact (handleRequests_transfer_cases os luna reg ht w).elim (·.2.spares) (·.2.spares)
  unfold handleRequests
  cases h : req.methodType with
  | listMethod => exact spares_checked (.of_fs rfl)
  | getPropMethod => exact spares_getPropertiesMethod os luna reg
  | removeMethod => exact spares_checked ((spares_remove os _).reply _)
  | renameMethod => exact spares_checked ((spares_rename os _ _).reply _)
  | ejectMethod => exact spares_checked (spares_onReply luna _ _ _)
  | listStoragesMethod | extraMethod => exact .of_fs rfl
  | copyMethod | moveMethod => simp [IsTransfer, h] at ht

end USBStorageProvider

namespace NetworkProvider

/-- The trees that mounting and unmounting leave are as before at and below `M`, and the
directory that an eject removes afterwards is apart from it. -/
structure TreesApart (M : Loc) (net : Net) (fs : FS) (path : Str) : Prop where
  mounting : ∀ tree, net.mkdir = some tree ∨ net.mount = some tree → Untouched M fs tree
  unmounting : ∀ tree, net.umount = some tree → Untouched M fs tree ∧ EntryApart tree path M

theorem setPathPerm_fs (w : World) (path sessionId : Str) : (setPathPerm w path sessionId).fs = w.fs := by
  unfold setPathPerm
  split <;> rfl

theorem MountStep.untouched {net : Net} {s s' : NetworkProvider} (h : MountStep net req s w s' w')
    (happart : ∀ tree, net.mkdir = some tree ∨ net.mount = some tree → Untouched M w.fs tree) : Untouched M w.fs w'.fs := by
  cases h with
  | incomplete _ _ _ world | known _ _ _ world | unmade _ _ _ _ world => rw [world]; exact fun _ _ => rfl
  | inUse _ _ made dir _ _ world | failed _ _ made dir _ _ _ world => rw [world]; exact happart made (.inl dir)
  | mounted _ _ made _ _ tree mount _ world =>
    rw [world, World.reply_fs, setDriveDetails, afterMount, setPathPerm_fs]
    exact happart tree (.inr mount)

theorem EjectStep.untouched {os : Os} {net : Net} {s s' : NetworkProvider} (h : EjectStep os net req s w s' w')
    (happart : TreesApart M net w.fs (s.sharePath (req.str "driveId"))) : Untouched M w.fs w'.fs := by
  cases h with
  | refused _ _ world | unlisted _ _ _ world | stuck _ _ _ _ _ world => rw [world]; exact fun _ _ => rfl
  | ejected _ path found tree freed _ world =>
    obtain ⟨hsame, hentry⟩ := happart.unmounting tree freed
    rw [sharePath, Std.ExtTreeMap.getD_eq_getD_getElem?, found] at hentry
    rw [world]
    exact fun m hm => (remove_get hentry hm).trans (hsame m hm)

theorem spares_checked {s : NetworkProvider} {go : World → World} (hgo : Spares M w (go w)) :
    Spares M w (s.checked req w go) := by
  rcases checked_cases req s w go with hr | ⟨-, -, h⟩
  · exact hr.spares
  · rw [h]; exact hgo

/-- Listing a folder and reading its properties changes no file. -/
theorem list_fs (os : Os) (net : Net) (req : RequestData) (s : NetworkProvider) (w : World) :
    (list os net req s w).2.fs = w.fs := by
  unfold list
  dsimp only
  repeat' split
  all_goals rfl

theorem getProperties_fs (os : Os) (net : Net) (req : RequestData) (s : NetworkProvider) (w : World) :
    (getProperties os net req s w).2.fs = w.fs := by
  unfold getProperties
  dsimp only
  repeat' split
  all_goals rfl

theorem spares_handleRequests (os : Os) (net : Net) (req : RequestData) (s : NetworkProvider) (w : World)
    (hmounts : req.methodType ∈ [.extraMethod, .ejectMethod] → TreesApart M net w.fs (s.sharePath (req.str "driveId"))) :
    Spares M w (handleRequests os net req s w).2 := by
  by_cases ht : IsTransfer req
  · exact (handleRequests_transfer_cases os net ht s w).elim (·.2.spares) (·.2.spares)
  unfold handleRequests
  cases h : req.methodType with
  | extraMethod =>
    dsimp only
    unfold extraMethod
    split
    · have hapart := hmounts (by simp [h])
      exact fun _ => (mountStep_mountSambaServer net req s w).untouched hapart.mounting
    split <;> exact .of_fs rfl
  | listMethod => exact .of_fs (list_fs ..)
  | getPropMethod => exact .of_fs (getProperties_fs ..)
  | removeMethod => exact spares_checked ((spares_remove os _).reply _)
  | renameMethod => exact spares_checked ((spares_rename os _ _).reply _)
  | listStoragesMethod => exact .of_fs rfl
  | ejectMethod =>
    have hapart := hmounts (by simp [h])
    exact fun _ => (ejectStep_eject os net req s w).untouched hapart
  | copyMethod | moveMethod => simp [IsTransfer, h] at ht

end NetworkProvider

namespace GDriveProvider

variable {s : GDriveProvider}

theorem spares_guarded {driveId : Str} {go : GDriveProvider → GDriveUserData → World → GDriveProvider × World}
    (hgo : ∀ user, Spares M w (go (s.lookedUp driveId user) (looked user) w).2) :
    Spares M w (guarded driveId req s w go).2 := by
  rcases guarded_cases driveId req s w go with ⟨-, r, s', h, -⟩ | ⟨-, user, -, ⟨-, r, h, -⟩ | ⟨-, h⟩⟩
  · rw [h]; exact .of_fs rfl
  · rw [h]; exact .of_fs rfl
  · rw [h]; exact hgo user

theorem spares_transfer {go : GDriveProvider → GDriveUserData → World → GDriveProvider × World}
    (hgo : ∀ user, Spares M w (go (s.lookedUp (transferDrive req) user) (looked user) w).2) :
    Spares M w (s.transfer req w go).2 := by
  rcases transfer_cases req s w go with ⟨-, hd⟩ | ⟨user, -, h⟩
  · exact hd.spares
  · rw [h]; exact hgo user

theorem spares_finish {drive : Drive} {user : GDriveUserData} {result : World × Bool} (h : Spares M w result.1) :
    Spares M w (finish drive req s user result).2 := by
  unfold finish
  split
  · exact h.reply _
  · exact h

theorem patchFile_fs (drive : Drive) (fileId title : Str) (w : World) : (patchFile drive fileId title w).1.fs = w.fs := by
  unfold patchFile
  extract_lets w'
  split <;> rfl

theorem copyFile_fs (drive : Drive) (fileId parent : Str) (w : World) : (copyFile drive fileId parent w).1.fs = w.fs := by
  unfold copyFile
  extract_lets w'
  split <;> rfl

theorem insertFile_fs (drive : Drive) (parent title : Str) (content : List UInt8) (w : World) :
    (insertFile drive parent title content w).1.fs = w.fs := by
  unfold insertFile
  cases drive.insert <;> rfl

theorem upload_fs (drive : Drive) (user : GDriveUserData) (req : RequestData) (w : World) :
    (upload drive user req w).1.fs = w.fs := by
  have hstep := uploadStep drive user req w
  generalize upload drive user req w = result at hstep
  cases hstep with
  | refused => rfl
  | sent => exact insertFile_fs ..

/-- A download writes one file, which is where its path leads. -/
theorem spares_download (os : Os) (drive : Drive) (user : GDriveUserData) (req : RequestData) (w : World) :
    Spares M w (download os drive user req w).1 := by
  have hstep := downloadStep os drive user req w
  generalize download os drive user req w = result at hstep
  cases hstep with
  | refused | missing | unopened => exact .of_fs rfl
  | written valid file fs get write =>
    intro happart m hm
    have hplace := happart (.writeFile (req.str "destPath" ++ '/' :: baseName (req.str "srcPath"))) (by simp [newOps])
    obtain ⟨l, data, hl, rfl⟩ := FS.writeFile_eq_set write
    exact FS.set_get_of_ne w.fs l _ fun h => (hplace l hl).not_both (h ▸ List.prefix_refl l) hm

theorem spares_move (os : Os) (drive : Drive) : Spares M w (move os drive req s w).2 := by
  apply spares_transfer
  intro user
  dsimp only
  split
  · split
    · split
      · exact .of_fs rfl
      · exact spares_finish (.of_fs ((andThen_delete_fs ..).trans (copyFile_fs ..)))
    · refine spares_finish ?_
      unfold andThen
      split
      · have hsent := (does_upload drive (looked user) req w).grows
        exact .after (upload_fs ..) hsent (spares_remove os (req.str "srcPath"))
      · exact .of_fs (upload_fs ..)
  · refine spares_finish ?_
    have hdownload : Spares M w (download os drive (looked user) req w).1 := spares_download os drive (looked user) req w
    unfold andThen
    split
    · exact hdownload.followed (deleteFile_fs ..) (does_deleteFile ..).grows
    · exact hdownload

theorem spares_handleRequests (os : Os) (drive : Drive) (req : RequestData) (s : GDriveProvider) (w : World) :
    Spares M w (handleRequests os drive req s w).2 := by
  unfold handleRequests
  cases req.methodType with
  | extraMethod =>
    refine .of_fs ?_
    unfold extraMethod attachCloud authenticateCloud setToken
    dsimp only
    repeat' split
    all_goals rfl
  | listMethod =>
    apply spares_guarded
    intro user
    dsimp only
    repeat' split
    all_goals exact .of_fs rfl
  | getPropMethod =>
    apply spares_guarded
    intro user
    dsimp only
    repeat' split
    all_goals exact .of_fs rfl
  | removeMethod =>
    apply spares_guarded
    intro user
    have hfs := deleteFile_fs drive ((looked user).index.getFileId (req.str "path")) w
    dsimp only
    split
    · exact .of_fs rfl
    split
    all_goals
      next e =>
        rw [e] at hfs
        exact .of_fs hfs
  | renameMethod =>
    apply spares_guarded
    intro user
    have hfs := patchFile_fs drive ((looked user).index.getFileId (req.str "path")) (req.str "newName") w
    dsimp only
    split
    · exact .of_fs rfl
    split
    all_goals
      next e =>
        rw [e] at hfs
        exact .of_fs hfs
  | copyMethod =>
    apply spares_transfer
    intro user
    dsimp only
    split
    · split
      · split
        · exact .of_fs rfl
        · exact spares_finish (.of_fs (copyFile_fs ..))
      · exact spares_finish (.of_fs (upload_fs ..))
    · exact spares_finish (spares_download os drive _ req w)
  | moveMethod => exact spares_move os drive
  | listStoragesMethod | ejectMethod => exact .of_fs rfl

end GDriveProvider

/-! ## Runs -/

/-- Everything a step does, and what others and the kernel do meanwhile, is apart from `M`. -/
def WorksApart (M : Loc) (s : Service) : Service.Label → Prop
  | .devices .. => True
  | .others fs _ => Untouched M s.world.fs fs
  | .request env req => (∀ op ∈ s.did (.request env req), op.ApartFrom s.world.fs M) ∧
      (route req = .network → req.methodType ∈ [.extraMethod, .ejectMethod] →
        NetworkProvider.TreesApart M env.net s.world.fs (s.network.sharePath (req.str "driveId")))

theorem untouched_step (s : Service) (l : Service.Label) (h : WorksApart M s l) :
    Untouched M s.world.fs (s.step l).world.fs := by
  cases l with
  | devices root req => exact fun _ _ => rfl
  | others fs cloud => exact h
  | request env req =>
    obtain ⟨happart, hmounts⟩ := h
    refine (?_ : Spares M s.world (s.handle env req).world) happart
    unfold Service.handle
    cases hroute : route req with
    | internal => exact InternalStorageProvider.spares_handleRequests env.os req s.world
    | usb => exact USBStorageProvider.spares_handleRequests env.os env.luna s.usb req s.world
    | network => exact NetworkProvider.spares_handleRequests env.os env.net req s.network s.world (hmounts hroute)
    | gdrive => exact GDriveProvider.spares_handleRequests env.os env.drive req s.gdrive s.world

/-- In every run, whatever providers the requests go to: at and below a place that every
logged operation, the mounts and the other programs are apart from, each entry is at the
end what it was at the beginning. -/
theorem apart_untouched (fs : FS) (cloud : Table CloudFile) (ls : List Service.Label) (M : Loc)
    (hls : Runs.Meets Service.step (WorksApart M) (Service.start fs cloud) ls) :
    Untouched M fs (Runs.run Service.step (Service.start fs cloud) ls).world.fs := by
  have hstep : ∀ s l, Untouched M fs s.world.fs → WorksApart M s l → Untouched M fs (s.step l).world.fs :=
    fun s l hs hl m hm => (untouched_step s l hl m hm).trans (hs m hm)
  exact Runs.inv_run hstep (fun _ _ => rfl) hls

/-- A session removes its mount directory, and the other one is left alone. -/
theorem other_mount_untouched :
    (Runs.run Service.step (Service.start twoMounts ∅)
      [.request Env.quiet (internalRemove "/tmp/nas_12:34:56_7" "guest")]).world.fs.get
        ["tmp".toList, "nas_12:34:56_70".toList] = twoMounts.get ["tmp".toList, "nas_12:34:56_70".toList] := by
  have hdid : (Service.start twoMounts ∅).did (.request Env.quiet (internalRemove "/tmp/nas_12:34:56_7" "guest")) =
      [.remove "/tmp/nas_12:34:56_7".toList] := rfl
  have hown : twoMounts.symlinkStatus (components "/tmp/nas_12:34:56_7".toList) =
      .found ["tmp".toList, "nas_12:34:56_7".toList] .dir := rfl
  have hremove : FsOp.ApartFrom twoMounts ["tmp".toList, "nas_12:34:56_70".toList] (.remove "/tmp/nas_12:34:56_7".toList) := by
    intro l nd hl
    obtain ⟨rfl, -⟩ := FS.Lookup.found.inj (hl.symm.trans hown)
    exact .inl (apart_concat (r := ["tmp".toList]) (by decide))
  have hstep : WorksApart ["tmp".toList, "nas_12:34:56_70".toList] (Service.start twoMounts ∅)
      (.request Env.quiet (internalRemove "/tmp/nas_12:34:56_7" "guest")) := by
    refine ⟨fun op hop => ?_, fun h => absurd h (by decide)⟩
    rw [hdid, List.mem_singleton] at hop
    exact hop ▸ hremove
  exact apart_untouched twoMounts ∅ [_] _ ⟨hstep, trivial⟩ _ (List.prefix_refl _)

end StorageAccess
