import StorageAccess.Proofs.Confinement
/-!
# Who may use both ends of a transfer

`Service.Begins` collects, provider by provider, the checks a copy or move request
passes before any file is touched. They cover internal paths, the paths of SAMBA
drives and the ownership of cloud drives; `transfer_authorised_iff` says that what
they leave out is all that can be missing.
-/

open Posix Json

namespace StorageAccess

open SAFUtilityOperation

/-! ## The two ends -/

/-- One end of a transfer. -/
structure Side where
  storageType : Str
  driveId : Str
  path : Str

def source (req : RequestData) : Side := ⟨req.str "srcStorageType", req.str "srcDriveId", req.str "srcPath"⟩

def destination (req : RequestData) : Side := ⟨req.str "destStorageType", req.str "destDriveId", req.str "destPath"⟩

/-- The path lies on a registered and mounted USB drive with the given id. -/
def OnMountedDrive (reg : USBStorageProvider.Registry) (driveId path : Str) : Prop :=
  ∃ drive, USBStorageProvider.findDrive reg driveId = some drive ∧ drive.isMounted = true ∧
    lexical drive.mountPath <+: lexical path

namespace Side

/-- The end passes the check of its own storage. -/
structure Authorised (s : Service) (sessionId : Str) (e : Side) : Prop where
  internal : e.storageType = "internal".toList → SAFUtilityOperation.validateInternalPath s.world.fs e.path sessionId = true
  network : e.storageType = "network".toList →
    validateSambaPath s.world.fs s.world.mSambaDrivePathMap e.path e.driveId = true ∧
      s.network.validateSambaOperation e.driveId sessionId = true
  usb : e.storageType = "usb".toList → OnMountedDrive s.usb e.driveId e.path
  cloud : e.storageType = "cloud".toList → s.gdrive.Owns sessionId e.driveId

/-- What no provider checks of both ends: who owns a network drive, and where a USB drive is. -/
structure Unguarded (s : Service) (sessionId : Str) (e : Side) : Prop where
  network : e.storageType = "network".toList → s.network.validateSambaOperation e.driveId sessionId = true
  usb : e.storageType = "usb".toList → OnMountedDrive s.usb e.driveId e.path

theorem Authorised.unguarded {s : Service} {sessionId : Str} {e : Side} (h : e.Authorised s sessionId) :
    e.Unguarded s sessionId := ⟨fun hn => (h.network hn).2, h.usb⟩

end Side

/-! ## The checks before a transfer -/

/-- The file operations of the internal, USB and network providers get past their own checks. -/
def LocalBegins (w : World) (req : RequestData) : Prop :=
  Transfer.begins w.fs (req.str "srcPath") (req.str "destPath") (req.flag "overwrite") = true

namespace GDriveProvider

/-- The source is there, and so is a local destination. -/
def FileBegins (user : GDriveUserData) (fs : FS) (req : RequestData) : Prop :=
  if req.str "destStorageType" = cloudName ∧ req.str "srcStorageType" ≠ cloudName then
    getMimeType (extension (req.str "srcPath")) ≠ [] ∧ fs.exists? (components (req.str "srcPath")) = true
  else user.index.getFileId (req.str "srcPath") ≠ [] ∧
    (req.str "destStorageType" ≠ cloudName → StorageAccess.validateInternalPath fs (req.str "destPath") = true)

end GDriveProvider

/-- The request passes every check on its way to the files. -/
def Service.Begins (s : Service) (req : RequestData) : Prop :=
  match route req with
  | .internal => InternalStorageProvider.Ready req ∧ Passes s.world req ∧ LocalBegins s.world req
  | .usb => USBStorageProvider.Ready s.usb req ∧ Passes s.world req ∧ LocalBegins s.world req
  | .network => NetworkProvider.Ready req s.network ∧ Passes s.world req ∧ LocalBegins s.world req
  | .gdrive => ∃ user, s.gdrive.Admitted s.world req user ∧ GDriveProvider.FileBegins user s.world.fs req

/-- The handler did some operation on files. -/
def UsedFiles (w w' : World) : Prop := w.ops.length < w'.ops.length

theorem Denied.not_usedFiles {w w' : World} (h : Denied w w') : ¬ UsedFiles w w' := by
  obtain ⟨rs, rfl⟩ := h
  exact Nat.lt_irrefl _

/-- A transfer that was started uses files when it gets past its own checks. -/
theorem Started.usedFiles_iff {os : Os} {req : RequestData} {w w' : World} (h : Started os req w w') :
    UsedFiles w w' ↔ LocalBegins w req := by
  obtain ⟨-, r, rfl⟩ := h
  unfold UsedFiles LocalBegins transferOp
  split <;> cases hb : Transfer.begins w.fs (req.str "srcPath") (req.str "destPath") (req.flag "overwrite") <;>
    simp [SAFUtilityOperation.move, SAFUtilityOperation.copy, World.logIf, hb]

/-- A transfer that is either denied or started uses files when its checks all pass. -/
theorem usedFiles_iff_of_cases {os : Os} {req : RequestData} {w w' : World} {ready : Prop}
    (h : (¬ (ready ∧ Passes w req) ∧ Denied w w') ∨ (ready ∧ Started os req w w')) :
    UsedFiles w w' ↔ ready ∧ Passes w req ∧ LocalBegins w req := by
  rcases h with ⟨hn, hd⟩ | ⟨hr, hs⟩
  · exact iff_of_false hd.not_usedFiles fun h => hn ⟨h.1, h.2.1⟩
  · rw [hs.usedFiles_iff]
    exact ⟨fun hb => ⟨hr, hs.1, hb⟩, fun h => h.2.2⟩

/-! ## The steps of a cloud transfer -/

namespace GDriveProvider

/-- The step used files if `b` holds, and else ended the handler. -/
def UsesIf (b : Prop) (w : World) (result : World × Bool) : Prop :=
  (b ∧ UsedFiles w result.1) ∨ (¬ b ∧ result.1.ops = w.ops ∧ result.2 = false)

theorem usesIf_upload (drive : Drive) (user : GDriveUserData) (req : RequestData) (w : World) :
    UsesIf (CanUpload req w.fs) w (upload drive user req w) := by
  have hstep := uploadStep drive user req w
  generalize upload drive user req w = result at hstep
  cases hstep with
  | refused invalid => exact .inr ⟨invalid, rfl, rfl⟩
  | sent valid =>
    refine .inl ⟨valid, ?_⟩
    unfold insertFile
    cases drive.insert <;> simp [UsedFiles]

theorem usesIf_download (os : Os) (drive : Drive) (user : GDriveUserData) (req : RequestData) (w : World) :
    UsesIf (CanDownload user req w.fs) w (download os drive user req w) := by
  have hstep := downloadStep os drive user req w
  generalize download os drive user req w = result at hstep
  cases hstep with
  | refused invalid => exact .inr ⟨invalid, rfl, rfl⟩
  | missing valid | unopened valid | written valid => exact .inl ⟨valid, by simp [UsedFiles]⟩

theorem usedFiles_copyFile (drive : Drive) (fileId parent : Str) (w : World) :
    UsedFiles w (copyFile drive fileId parent w).1 := by
  unfold copyFile
  extract_lets w'
  split <;> simp [UsedFiles, w']

theorem usedFiles_deleteFile (drive : Drive) (fileId : Str) (w : World) :
    UsedFiles w (deleteFile drive fileId w).1 := by
  unfold deleteFile
  cases drive.delete <;> simp [UsedFiles]

theorem finish_ops (drive : Drive) (req : RequestData) (s : GDriveProvider) (user : GDriveUserData)
    (result : World × Bool) : (finish drive req s user result).2.ops = result.1.ops := by
  unfold finish
  split <;> rfl

theorem UsesIf.finish {drive : Drive} {req : RequestData} {s : GDriveProvider} {user : GDriveUserData} {b : Prop}
    {w : World} {result : World × Bool} (h : UsesIf b w result) :
    UsedFiles w (finish drive req s user result).2 ↔ b := by
  unfold UsedFiles
  rw [finish_ops]
  rcases h with ⟨hb, hu⟩ | ⟨hn, he, -⟩
  · exact iff_of_true hu hb
  · exact iff_of_false (by simp [he]) hn

theorem UsesIf.andThen {b : Prop} {w : World} {result : World × Bool} {next : World → World × Bool}
    (h : UsesIf b w result) (hnext : ∀ w, w.ops.length ≤ (next w).1.ops.length) : UsesIf b w (andThen result next) := by
  unfold GDriveProvider.andThen
  rcases h with ⟨hb, hu⟩ | ⟨hn, he, hf⟩
  · refine .inl ⟨hb, ?_⟩
    split
    · exact Nat.lt_of_lt_of_le hu (hnext _)
    · exact hu
  · rw [if_neg (by simp [hf])]
    exact .inr ⟨hn, he, hf⟩

theorem UsesIf.of_used {w : World} {result : World × Bool} (h : UsedFiles w result.1) : UsesIf True w result :=
  .inl ⟨trivial, h⟩

theorem fileBegins_upload {req : RequestData} (hd : req.str "destStorageType" = cloudName)
    (hs : req.str "srcStorageType" ≠ cloudName) (user : GDriveUserData) (fs : FS) :
    FileBegins user fs req ↔ CanUpload req fs := by
  rw [FileBegins, if_pos ⟨hd, hs⟩]
  exact Iff.rfl

theorem fileBegins_copy {req : RequestData} (hd : req.str "destStorageType" = cloudName)
    (hs : req.str "srcStorageType" = cloudName) (user : GDriveUserData) (fs : FS) :
    FileBegins user fs req ↔ user.index.getFileId (req.str "srcPath") ≠ [] := by
  rw [FileBegins, if_neg fun h => h.2 hs]
  exact ⟨And.left, fun h => ⟨h, fun hn => absurd hd hn⟩⟩

theorem fileBegins_download {req : RequestData} (hd : req.str "destStorageType" ≠ cloudName) (user : GDriveUserData)
    (fs : FS) : FileBegins user fs req ↔ CanDownload user req fs := by
  rw [FileBegins, if_neg fun h => hd h.1]
  exact ⟨fun h => ⟨h.1, h.2 hd⟩, fun h => ⟨h.1, fun _ => h.2⟩⟩

/-- The work of a transfer uses files when its source and destination are there. -/
theorem usedFiles_transfer_iff {req : RequestData} {s : GDriveProvider} {w : World}
    {go : GDriveProvider → GDriveUserData → World → GDriveProvider × World}
    (hgo : ∀ s user, UsedFiles w (go s (looked user) w).2 ↔ FileBegins user w.fs req) :
    UsedFiles w (s.transfer req w go).2 ↔ ∃ user, s.Admitted w req user ∧ FileBegins user w.fs req := by
  rcases transfer_cases req s w go with ⟨hn, hd⟩ | ⟨user, ha, e⟩
  · exact iff_of_false hd.not_usedFiles fun ⟨user, ha, _⟩ => hn user ha
  · rw [e, hgo]
    refine ⟨fun hb => ⟨user, ha, hb⟩, fun ⟨user', ha', hb⟩ => ?_⟩
    rwa [Option.some.inj (ha.known.symm.trans ha'.known)]

theorem usedFiles_copy_iff (os : Os) (drive : Drive) (req : RequestData) (s : GDriveProvider) (w : World) :
    UsedFiles w (copy os drive req s w).2 ↔ ∃ user, s.Admitted w req user ∧ FileBegins user w.fs req := by
  apply usedFiles_transfer_iff
  intro s user
  dsimp only
  split
  case isTrue hd =>
    split
    case isTrue hs =>
      rw [fileBegins_copy hd hs]
      split
      case isTrue hi => exact iff_of_false (Nat.lt_irrefl _) fun h => h hi
      case isFalse hi => exact iff_of_true ((UsesIf.of_used (usedFiles_copyFile ..)).finish.2 trivial) hi
    case isFalse hs =>
      rw [fileBegins_upload hd hs]
      exact (usesIf_upload drive (looked user) req w).finish
  case isFalse hd =>
    rw [fileBegins_download hd]
    exact (usesIf_download os drive (looked user) req w).finish

theorem usedFiles_move_iff (os : Os) (drive : Drive) (req : RequestData) (s : GDriveProvider) (w : World) :
    UsedFiles w (move os drive req s w).2 ↔ ∃ user, s.Admitted w req user ∧ FileBegins user w.fs req := by
  apply usedFiles_transfer_iff
  intro s user
  have hdelete (w : World) := Nat.le_of_lt (usedFiles_deleteFile drive ((looked user).index.getFileId (req.str "srcPath")) w)
  have hremove (w : World) : w.ops.length ≤ (removeLocal os (req.str "srcPath") w).1.ops.length := by
    simp [removeLocal, SAFUtilityOperation.remove, World.logIf_ops]
  dsimp only
  split
  case isTrue hd =>
    split
    case isTrue hs =>
      rw [fileBegins_copy hd hs]
      split
      case isTrue hi => exact iff_of_false (Nat.lt_irrefl _) fun h => h hi
      case isFalse hi =>
        exact iff_of_true (((UsesIf.of_used (usedFiles_copyFile ..)).andThen hdelete).finish.2 trivial) hi
    case isFalse hs =>
      rw [fileBegins_upload hd hs]
      exact ((usesIf_upload drive (looked user) req w).andThen hremove).finish
  case isFalse hd =>
    rw [fileBegins_download hd]
    exact ((usesIf_download os drive (looked user) req w).andThen hdelete).finish

end GDriveProvider

/-- A transfer uses files exactly when it passes every check. -/
theorem Service.usedFiles_iff (env : Env) {req : RequestData} (ht : IsTransfer req) (s : Service) :
    UsedFiles s.world (s.handle env req).world ↔ s.Begins req := by
  unfold Service.handle Service.Begins
  cases route req with
  | internal => exact usedFiles_iff_of_cases (InternalStorageProvider.handleRequests_transfer_cases env.os ht s.world)
  | usb =>
    exact usedFiles_iff_of_cases
      (USBStorageProvider.handleRequests_transfer_cases env.os env.luna s.usb ht s.world)
  | network =>
    exact usedFiles_iff_of_cases
      (NetworkProvider.handleRequests_transfer_cases env.os env.net ht s.network s.world)
  | gdrive =>
    dsimp only
    unfold GDriveProvider.handleRequests
    rcases ht with h | h <;> rw [h]
    · exact GDriveProvider.usedFiles_copy_iff env.os env.drive req s.gdrive s.world
    · exact GDriveProvider.usedFiles_move_iff env.os env.drive req s.gdrive s.world

/-! ## What the checks leave out -/

theorem Service.Begins.passes {s : Service} {req : RequestData} (h : s.Begins req) : Passes s.world req := by
  unfold Service.Begins at h
  cases hr : route req with
  | internal | usb | network => rw [hr] at h; exact h.2.1
  | gdrive =>
    rw [hr] at h
    obtain ⟨user, ha, -⟩ := h
    exact ha.passes

theorem route_of_cloud_source {req : RequestData}
    (ha : SAFLunaService.getStorageDeviceType (req.str "srcStorageType") = some req.storageType)
    (h : req.str "srcStorageType" = "cloud".toList) : route req = .gdrive := by
  rw [h] at ha
  have hg : req.storageType = .gdrive := (Option.some.inj ha).symm
  simp [route, hg]

theorem route_of_cloud_destination {req : RequestData} (ht : IsTransfer req)
    (h : req.str "destStorageType" = "cloud".toList) : route req = .gdrive := by
  by_cases hg : req.storageType = .gdrive
  · simp [route, hg]
  · rw [route, if_pos ⟨ht, hg, h⟩]

/-- The checks cover internal paths, the paths of SAMBA drives and the owners of cloud drives. -/
theorem Service.Begins.authorised {s : Service} {req : RequestData} (hb : s.Begins req) (ht : IsTransfer req)
    (ha : SAFLunaService.getStorageDeviceType (req.str "srcStorageType") = some req.storageType)
    (hs : (source req).Unguarded s req.sessionId) (hd : (destination req).Unguarded s req.sessionId) :
    (source req).Authorised s req.sessionId ∧ (destination req).Authorised s req.sessionId := by
  have hp := hb.passes.2
  have hcloud : route req = .gdrive → ∃ user, s.gdrive.Admitted s.world req user := by
    intro hr
    unfold Service.Begins at hb
    rw [hr] at hb
    exact hb.imp fun _ h => h.1
  refine ⟨⟨hp.srcInternal, fun hn => ⟨hp.srcNetwork hn, hs.network hn⟩, hs.usb, fun hc => ?_⟩,
    ⟨hp.destInternal, fun hn => ⟨hp.destNetwork hn, hd.network hn⟩, hd.usb, fun hc => ?_⟩⟩
  · obtain ⟨user, hadm⟩ := hcloud (route_of_cloud_source ha hc)
    have howns := hadm.owns
    have hsc : req.str "srcStorageType" = GDriveProvider.cloudName := hc
    rwa [GDriveProvider.transferDrive, if_pos hsc] at howns
  · obtain ⟨user, hadm⟩ := hcloud (route_of_cloud_destination ht hc)
    have howns := hadm.owns
    rw [GDriveProvider.transferDrive] at howns
    split at howns
    case isTrue hsc => rwa [hadm.oneDrive hsc hc] at howns
    case isFalse => exact howns

/-- A transfer uses files only with both ends authorised, exactly when a check stops
it or the checks that are missing would have let it pass. -/
theorem transfer_authorised_iff (env : Env) (method : MethodType) (payload : JValue) (sessionId : Str)
    (req : RequestData) (hacc : SAFLunaService.accept method payload sessionId = some req) (ht : IsTransfer req)
    (s : Service) :
    (UsedFiles s.world (s.handle env req).world →
        (source req).Authorised s req.sessionId ∧ (destination req).Authorised s req.sessionId) ↔
      ¬ s.Begins req ∨ ((source req).Unguarded s req.sessionId ∧ (destination req).Unguarded s req.sessionId) := by
  rw [s.usedFiles_iff env ht, ← imp_iff_not_or]
  refine forall_congr' fun hb => ⟨fun h => ⟨h.1.unguarded, h.2.unguarded⟩, fun h => ?_⟩
  have hm : method = .copyMethod ∨ method = .moveMethod := methodType_of_accept hacc ▸ ht
  exact hb.authorised ht (storageType_of_accept hacc hm) h.1 h.2

/-- A picture, a folder for it, and a folder outside every storage. -/
def pictures : FS :=
  FS.ofEntries [(["media".toList], .dir), (["media".toList, "a.png".toList], .file [1, 2, 3]),
    (["tmp".toList], .dir), (["srv".toList], .dir)] (by decide)

def copyCall (destStorageType destDriveId destPath : String) : JValue :=
  (((((JValue.object.put "srcStorageType" (.text "internal")).put "srcDriveId" (.text "INTERNAL_STORAGE")).put "srcPath"
    (.text "/media/a.png")).put "destStorageType" (.text destStorageType)).put "destDriveId" (.text destDriveId)).put
    "destPath" (.text destPath)

def copyRequest (payload : JValue) : RequestData :=
  ⟨.internal, .copyMethod, payload.put "storageType" (.text "internal"), "guest".toList⟩

theorem copy_to_tmp_authorised :
    let req := copyRequest (copyCall "internal" "INTERNAL_STORAGE" "/tmp")
    let s := Service.start pictures ∅
    UsedFiles s.world (s.handle Env.quiet req).world ∧
      (source req).Authorised s req.sessionId ∧ (destination req).Authorised s req.sessionId := by
  intro req s
  have hused : UsedFiles s.world (s.handle Env.quiet req).world := by
    unfold UsedFiles
    decide +kernel
  have hfree : ∀ e : Side, e.storageType = "internal".toList → e.Unguarded s req.sessionId := fun e he =>
    ⟨fun h => absurd (he.symm.trans h) (by decide), fun h => absurd (he.symm.trans h) (by decide)⟩
  exact ⟨hused, (transfer_authorised_iff Env.quiet .copyMethod
    (copyCall "internal" "INTERNAL_STORAGE" "/tmp") "guest".toList req rfl (.inl rfl) s).2
    (.inr ⟨hfree _ rfl, hfree _ rfl⟩) hused⟩

/-- The destination is said to be on a USB drive, but there is none. -/
theorem copy_to_no_drive :
    let req := copyRequest (copyCall "usb" "S1" "/srv")
    let s := Service.start pictures ∅
    SAFLunaService.accept .copyMethod (copyCall "usb" "S1" "/srv") "guest".toList = some req ∧
      UsedFiles s.world (s.handle Env.quiet req).world ∧ ¬ (destination req).Authorised s req.sessionId := by
  refine ⟨rfl, ?_, fun h => ?_⟩
  · unfold UsedFiles
    decide +kernel
  · obtain ⟨drive, hd, -⟩ := h.usb rfl
    simp [Service.start, USBStorageProvider.findDrive] at hd

end StorageAccess
