import StorageAccess.Lib.Removal
import StorageAccess.Proofs.Authorisation
import StorageAccess.Proofs.Cloud
/-!
# Where a file is after a cloud move

A move transfers the file and then deletes its source, and looks at the outcome
of neither. Each route has one way to lose the file: a copy or an upload that
came back with an error, a download that did not arrive whole.
`move_keeps_iff` says that these are the only ways.
-/

open Posix Json

namespace StorageAccess.GDriveProvider

open SAFUtilityOperation

/-! ## The file and its places -/

/-- The id the drive's index holds for a path of the request. -/
def indexed (s : GDriveProvider) (req : RequestData) (key : String) : Str :=
  match s.mDriveIdUserDataMap[transferDrive req]? with
  | some user => user.index.getFileId (req.str key)
  | none => []

/-- The cloud folder the request moves to. -/
def folder (s : GDriveProvider) (req : RequestData) : Str :=
  if s.indexed req "destPath" = [] then "root".toList else s.indexed req "destPath"

/-- The local path the request moves to. -/
def localTarget (req : RequestData) : Str := req.str "destPath" ++ '/' :: baseName (req.str "srcPath")

def Uploads (req : RequestData) : Prop :=
  req.str "destStorageType" = cloudName ∧ req.str "srcStorageType" ≠ cloudName

/-- The drive stores the content under the id. -/
def Stored (w : World) (fileId : Str) (content : List UInt8) : Prop :=
  ∃ file, w.cloud[fileId]? = some file ∧ file.content = content

/-- The file is where the request moves it from. -/
def AtSource (s : GDriveProvider) (req : RequestData) (content : List UInt8) (w : World) : Prop :=
  (Uploads req → w.fs.readFile (components (req.str "srcPath")) = some content) ∧
    (¬ Uploads req → Stored w (s.indexed req "srcPath") content)

/-- The cloud folder holds the content, in a file whose id is not excepted. -/
def InFolder (s : GDriveProvider) (req : RequestData) (content : List UInt8) (w : World) (except : Str → Prop) : Prop :=
  ∃ fileId file, ¬ except fileId ∧ w.cloud[fileId]? = some file ∧ file.parent = s.folder req ∧ file.content = content

/-- The file is where the request moves it to. -/
def AtDestination (s : GDriveProvider) (req : RequestData) (content : List UInt8) (w : World) : Prop :=
  (req.str "destStorageType" = cloudName → InFolder s req content w fun _ => False) ∧
    (req.str "destStorageType" ≠ cloudName → w.fs.readFile (components (localTarget req)) = some content)

/-- The file's full content exists at its source or at its destination. -/
def Kept (s : GDriveProvider) (req : RequestData) (content : List UInt8) (w : World) : Prop :=
  AtSource s req content w ∨ AtDestination s req content w

/-! ## When a route loses nothing -/

/-- What a download writes to the local file. -/
def arrived (os : Os) (drive : Drive) (file : GFile) : List UInt8 :=
  let body := (drive.request (if file.downloadUrl = [] then file.exportPdf else file.downloadUrl)).content
  (os.writeCut.map body.take).getD body

/-- The local source of an upload stays: its path is not one that is removed, or the entry is stuck. -/
def SourceStays (os : Os) (fs : FS) (srcPath : Str) : Prop :=
  StorageAccess.validateInternalPath fs srcPath = true →
    ∀ l nd, fs.symlinkStatus (components srcPath) = .found l nd → os.stuck l = true

/-- The steps before the delete went well, or the delete does nothing, or the
content was at the destination already. -/
def TransferSafe (os : Os) (drive : Drive) (req : RequestData) (s : GDriveProvider) (w : World)
    (content : List UInt8) : Prop :=
  if req.str "destStorageType" = cloudName then
    if req.str "srcStorageType" = cloudName then
      drive.copy = .error → drive.delete = .done → InFolder s req content w (· = s.indexed req "srcPath")
    else drive.insert = .error → SourceStays os w.fs (req.str "srcPath") ∨ InFolder s req content w fun _ => False
  else
    drive.delete = .done → ∀ file, drive.get (s.indexed req "srcPath") = some file →
      w.fs.Opens (components (localTarget req)) → arrived os drive file = content

/-- A request that passes every check loses nothing on its route. -/
def MoveSafe (os : Os) (drive : Drive) (req : RequestData) (s : GDriveProvider) (w : World)
    (content : List UInt8) : Prop :=
  ∀ user, s.Admitted w req user → FileBegins user w.fs req → TransferSafe os drive req s w content

/-! ## The routes -/

/-- Nothing that `Kept` looks at changed. -/
structure SameFiles (w w' : World) : Prop where
  fs : w'.fs = w.fs
  cloud : w'.cloud = w.cloud

theorem SameFiles.kept_iff {w w' : World} (h : SameFiles w w') (s : GDriveProvider) (req : RequestData)
    (content : List UInt8) : Kept s req content w' ↔ Kept s req content w := by
  simp only [Kept, AtSource, AtDestination, InFolder, Stored, h.fs, h.cloud]

theorem sameFiles_of_denied {w w' : World} (h : Denied w w') : SameFiles w w' := by
  obtain ⟨rs, rfl⟩ := h
  exact ⟨rfl, rfl⟩

theorem sameFiles_finish (drive : Drive) (req : RequestData) (s : GDriveProvider) (user : GDriveUserData)
    (result : World × Bool) : SameFiles result.1 (finish drive req s user result).2 := by
  unfold finish
  split <;> exact ⟨rfl, rfl⟩

theorem stored_erase {w w' : World} {fileId : Str} (h : w'.cloud = w.cloud.erase fileId) (content : List UInt8) :
    ¬ Stored w' fileId content := by
  rintro ⟨file, hf, -⟩
  rw [h, Table.get_erase, if_pos rfl] at hf
  cases hf

section Routes

variable {os : Os} {drive : Drive} {req : RequestData} {s : GDriveProvider} {w : World} {content : List UInt8}

/-- A copy within the drive, then the delete. -/
theorem kept_copy_iff (hd : req.str "destStorageType" = cloudName) (hs : req.str "srcStorageType" = cloudName)
    (h : AtSource s req content w) :
    Kept s req content
        (andThen (copyFile drive (s.indexed req "srcPath") (s.folder req) w) (deleteFile drive (s.indexed req "srcPath"))).1 ↔
      TransferSafe os drive req s w content := by
  have hup : ¬ Uploads req := fun hu => hu.2 hs
  obtain ⟨file, hfile, hcontent⟩ := h.2 hup
  simp only [TransferSafe, if_pos hd, if_pos hs]
  have source (w' : World) (hst : Stored w' (s.indexed req "srcPath") content) : Kept s req content w' :=
    .inl ⟨fun hu => absurd hu hup, fun _ => hst⟩
  have target (w' : World) (hin : InFolder s req content w' fun _ => False) : Kept s req content w' :=
    .inr ⟨fun _ => hin, fun hn => absurd hd hn⟩
  unfold copyFile
  extract_lets logged
  have hlogged : logged.cloud[s.indexed req "srcPath"]? = some file := hfile
  rw [hlogged]
  cases hcopy : drive.copy with
  | threw => exact iff_of_true (source _ ⟨file, hfile, hcontent⟩) nofun
  | done =>
    -- the new file is in the folder, and the delete does not touch its id
    have hne : s.indexed req "srcPath" ≠ drive.newId logged.cloud := by
      intro e
      exact drive.fresh logged.cloud (e ▸ (Table.mem_iff_get _).2 ⟨file, hlogged⟩)
    refine iff_of_true (target _ ?_) nofun
    refine ⟨drive.newId logged.cloud, { file with parent := s.folder req }, id, ?_, rfl, hcontent⟩
    simp only [andThen, deleteFile, if_true]
    cases drive.delete with
    | done =>
      dsimp only
      rw [Table.get_erase, if_neg hne]
      exact (Table.get_insert _ _ _ _).trans (if_pos rfl)
    | error | threw => exact (Table.get_insert _ _ _ _).trans (if_pos rfl)
  | error =>
    simp only [andThen, deleteFile, if_true, forall_const]
    cases hdelete : drive.delete with
    | threw | error => exact iff_of_true (source _ ⟨file, hfile, hcontent⟩) nofun
    | done =>
      simp only [forall_const]
      constructor
      · rintro (hsrc | hdst)
        · exact absurd (hsrc.2 hup) (stored_erase rfl content)
        · obtain ⟨fileId, found, -, hf, hp, hc⟩ := hdst.1 hd
          rw [Table.get_erase] at hf
          split at hf
          · cases hf
          case isFalse hid => exact ⟨fileId, found, fun e => hid e.symm, hf, hp, hc⟩
      · rintro ⟨fileId, found, hid, hf, hp, hc⟩
        refine target _ ⟨fileId, found, id, ?_, hp, hc⟩
        rw [Table.get_erase, if_neg (fun e => hid e.symm)]
        exact hf

/-- What the drive's index says of the request, on the drive with the given user data. -/
theorem indexed_of_known {user : GDriveUserData} (hu : s.mDriveIdUserDataMap[transferDrive req]? = some user)
    (key : String) : s.indexed req key = user.index.getFileId (req.str key) := by
  rw [indexed, hu]

theorem folder_of_known {user : GDriveUserData} (hu : s.mDriveIdUserDataMap[transferDrive req]? = some user) :
    s.folder req = destFolder (looked user) (req.str "destPath") := by
  rw [folder, indexed_of_known hu]
  rfl

theorem upload_refused (drive : Drive) {user : GDriveUserData}
    (hb : ¬ CanUpload req w.fs) : ∃ r, upload drive user req w = (w.reply r, false) := by
  have hstep := uploadStep drive user req w
  generalize upload drive user req w = result at hstep
  cases hstep with
  | refused invalid code => exact ⟨_, rfl⟩
  | sent valid => exact absurd valid hb

theorem download_refused (os : Os) (drive : Drive) {user : GDriveUserData}
    (hb : ¬ CanDownload user req w.fs) : ∃ r, download os drive (looked user) req w = (w.reply r, false) := by
  have hstep := downloadStep os drive (looked user) req w
  generalize download os drive (looked user) req w = result at hstep
  cases hstep with
  | refused invalid code => exact ⟨_, rfl⟩
  | missing valid | unopened valid | written valid => exact absurd valid hb

/-- Removing a local file through its path leaves it readable exactly if it stays. -/
theorem readFile_removeLocal (hr : w.fs.readFile (components (req.str "srcPath")) = some content) :
    (removeLocal os (req.str "srcPath") w).1.fs.readFile (components (req.str "srcPath")) = some content ↔
      SourceStays os w.fs (req.str "srcPath") := by
  have hstatus : ∃ l nd, w.fs.status (components (req.str "srcPath")) = .found l nd := by
    unfold FS.readFile at hr
    split at hr
    · exact ⟨_, _, ‹_›⟩
    · cases hr
  obtain ⟨_, _, hst⟩ := hstatus
  obtain ⟨l, nd, hk⟩ := FS.symlinkStatus_of_status hst
  have hfs : (removeLocal os (req.str "srcPath") w).1.fs = (InternalRemove.init os w.fs (req.str "srcPath")).1 := rfl
  rw [hfs, InternalRemove.init, SourceStays]
  split
  case isFalse hv => exact iff_of_true hr fun h => absurd h hv
  case isTrue hv =>
    dsimp only
    rw [FS.readFile_removeAll hr hk]
    constructor
    · intro h _ m nd' hm
      rw [hk] at hm
      injection hm with hlm
      by_contra hstuck
      rw [← hlm] at hstuck
      rw [if_neg hstuck] at h
      cases h
    · intro h
      rw [if_pos (h hv l nd hk)]

/-- An upload, then the removal of the local file. -/
theorem kept_upload_iff {user : GDriveUserData} (hu : s.mDriveIdUserDataMap[transferDrive req]? = some user)
    (hd : req.str "destStorageType" = cloudName) (hs : req.str "srcStorageType" ≠ cloudName)
    (hb : FileBegins user w.fs req) (h : AtSource s req content w) :
    Kept s req content (andThen (upload drive (looked user) req w) (removeLocal os (req.str "srcPath"))).1 ↔
      TransferSafe os drive req s w content := by
  have hup : Uploads req := ⟨hd, hs⟩
  have hr := h.1 hup
  have source (w' : World) (hw : w'.fs.readFile (components (req.str "srcPath")) = some content) :
      Kept s req content w' := .inl ⟨fun _ => hw, fun hn => absurd hup hn⟩
  have target (w' : World) (hin : InFolder s req content w' fun _ => False) : Kept s req content w' :=
    .inr ⟨fun _ => hin, fun hn => absurd hd hn⟩
  simp only [TransferSafe, if_pos hd, if_neg hs]
  have hstep := uploadStep drive (looked user) req w
  generalize upload drive (looked user) req w = result at hstep ⊢
  cases hstep with
  | refused invalid => exact absurd ((fileBegins_upload hd hs user w.fs).1 hb) invalid
  | sent valid =>
    rw [hr, Option.getD_some, insertFile]
    cases drive.insert with
    | threw => exact iff_of_true (source _ hr) (by simp)
    | done =>
      refine iff_of_true (target _ ⟨drive.newId w.cloud, ⟨s.folder req, baseName (req.str "srcPath"), content⟩, id, ?_,
        rfl, rfl⟩) (by simp)
      rw [folder_of_known hu]
      exact (Table.get_insert _ _ _ _).trans (if_pos rfl)
    | error =>
      -- an error in the answer is taken for success, and the local file is removed
      simp only [andThen, if_true, forall_const]
      constructor
      · rintro (hsrc | hdst)
        · exact .inl ((readFile_removeLocal (w := w.log (.readFile (req.str "srcPath"))) hr).1 (hsrc.1 hup))
        · exact .inr (hdst.1 hd)
      · rintro (hstays | hin)
        · exact source _ ((readFile_removeLocal (w := w.log (.readFile (req.str "srcPath"))) hr).2 hstays)
        · exact target _ hin

/-- A download, then the delete. -/
theorem kept_download_iff {user : GDriveUserData} (hu : s.mDriveIdUserDataMap[transferDrive req]? = some user)
    (hd : req.str "destStorageType" ≠ cloudName) (hb : FileBegins user w.fs req) (h : AtSource s req content w) :
    Kept s req content
        (andThen (download os drive (looked user) req w) (deleteFile drive (s.indexed req "srcPath"))).1 ↔
      TransferSafe os drive req s w content := by
  have hup : ¬ Uploads req := fun hu => hd hu.1
  have source (w' : World) (hw : w'.cloud = w.cloud) : Kept s req content w' := by
    refine .inl ⟨fun hu => absurd hu hup, fun _ => ?_⟩
    rw [Stored, hw]
    exact h.2 hup
  have hlooked : (looked user).index.getFileId (req.str "srcPath") = s.indexed req "srcPath" :=
    (indexed_of_known hu "srcPath").symm
  simp only [TransferSafe, if_neg hd]
  -- nothing is deleted unless the file was written, so every failure keeps the source
  have hstep := downloadStep os drive (looked user) req w
  generalize download os drive (looked user) req w = result at hstep ⊢
  cases hstep with
  | refused invalid => exact absurd ((fileBegins_download hd user w.fs).1 hb) invalid
  | missing valid hget =>
    rw [hlooked] at hget
    exact iff_of_true (source _ rfl) (by simp [hget])
  | unopened valid file hget hwrite =>
    rw [hlooked] at hget
    refine iff_of_true (source _ rfl) ?_
    intro _ file' _ ho
    have hclosed := (FS.writeFile_isSome_iff w.fs os.writeCut _ _).not.1 (Option.not_isSome_iff_eq_none.2 hwrite)
    exact absurd ho hclosed
  | written valid file fs hget hwrite =>
    rw [hlooked] at hget
    have ho : w.fs.Opens (components (localTarget req)) :=
      (FS.writeFile_isSome_iff w.fs os.writeCut _ _).1 (Option.isSome_of_eq_some hwrite)
    have hread := FS.readFile_writeFile hwrite
    simp only [andThen, deleteFile, if_true]
    cases drive.delete with
    | threw | error => exact iff_of_true (source _ rfl) (by simp)
    | done =>
      simp only [hget, forall_const, Option.some.injEq]
      -- the source is gone, so what was written must be its content
      constructor
      · rintro (hsrc | hdst) file' rfl -
        · exact absurd (hsrc.2 hup) (stored_erase rfl content)
        · exact Option.some.inj (hread.symm.trans (hdst.2 hd))
      · intro harrived
        refine .inr ⟨fun h => absurd h hd, fun _ => ?_⟩
        rw [← harrived file rfl ho]
        exact hread

end Routes

/-- A move keeps the file's content exactly on the routes that are safe. -/
theorem move_keeps_iff (os : Os) (drive : Drive) (req : RequestData) (s : GDriveProvider) (w : World)
    (content : List UInt8) (h : AtSource s req content w) :
    Kept s req content (move os drive req s w).2 ↔ MoveSafe os drive req s w content := by
  rcases transfer_cases req s w _ with ⟨hn, hd⟩ | ⟨user, ha, e⟩
  · rw [move, (sameFiles_of_denied hd).kept_iff]
    exact iff_of_true (.inl h) fun user ha => absurd ha (hn user)
  -- the user that is looked up is the one that was admitted
  have hsafe : MoveSafe os drive req s w content ↔ (FileBegins user w.fs req → TransferSafe os drive req s w content) := by
    refine ⟨fun hm => hm user ha, fun ht user' ha' hb => ht ?_⟩
    rwa [Option.some.inj (ha.known.symm.trans ha'.known)]
  have hsource : (looked user).index.getFileId (req.str "srcPath") = s.indexed req "srcPath" :=
    (indexed_of_known ha.known "srcPath").symm
  rw [move, e, hsafe]
  dsimp only
  rw [hsource]
  split
  case isTrue hd =>
    split
    case isTrue hs =>
      rw [fileBegins_copy hd hs, ← indexed_of_known ha.known "srcPath"]
      split
      case isTrue hi =>
        exact iff_of_true (.inl h) fun hn => absurd hi hn
      case isFalse hi =>
        rw [(sameFiles_finish ..).kept_iff, ← folder_of_known ha.known, kept_copy_iff hd hs h]
        exact ⟨fun ht _ => ht, fun ht => ht hi⟩
    case isFalse hs =>
      rw [(sameFiles_finish ..).kept_iff]
      by_cases hb : FileBegins user w.fs req
      · rw [kept_upload_iff ha.known hd hs hb h]
        exact ⟨fun ht _ => ht, fun ht => ht hb⟩
      · obtain ⟨r, hr⟩ := upload_refused drive (fun hf => hb ((fileBegins_upload hd hs user w.fs).2 hf))
        rw [hr]
        exact iff_of_true (.inl h) fun hf => absurd hf hb
  case isFalse hd =>
    rw [(sameFiles_finish ..).kept_iff]
    by_cases hb : FileBegins user w.fs req
    · rw [kept_download_iff ha.known hd hb h]
      exact ⟨fun ht _ => ht, fun ht => ht hb⟩
    · obtain ⟨r, hr⟩ := download_refused os drive (fun hf => hb ((fileBegins_download hd user w.fs).2 hf))
      rw [hr]
      exact iff_of_true (.inl h) fun hf => absurd hf hb

/-! ## A drive with one file -/

/-- A drive that holds one file and answers a copy as given. -/
def oneFile (copy : Call) : Drive :=
  { Drive.quiet with
    listing := fun id => if id = "root".toList then [("f1".toList, "a.txt".toList)] else []
    depth := 2
    copy := copy }

def signIn : RequestData :=
  commandRequest "token" "" (((JValue.object.put "clientId" (.text "c")).put "clientSecret" (.text "s")).put
    "refreshToken" (.text "r")) "guest2"

/-- The service once the session has logged in and set its token. -/
def signedIn : Service :=
  Runs.run Service.step
    (Service.start (FS.ofEntries [] FS.isTree_nil) ((∅ : Table CloudFile).insert "f1".toList
      ⟨"root".toList, "a.txt".toList, [1, 2, 3]⟩))
    [.request Env.quiet login, .request { Env.quiet with drive := oneFile .done } signIn]

def moveWithin : RequestData :=
  ⟨.gdrive, .moveMethod,
    (((((JValue.object.put "srcStorageType" (.text "cloud")).put "destStorageType" (.text "cloud")).put "srcDriveId"
      (.text "GDRIVE_1")).put "destDriveId" (.text "GDRIVE_1")).put "srcPath" (.text "/a.txt")).put "destPath" (.text "/"),
    "guest2".toList⟩

theorem atSource_signedIn : AtSource signedIn.gdrive moveWithin [1, 2, 3] signedIn.world :=
  ⟨fun h => absurd rfl h.2, fun _ => ⟨⟨"root".toList, "a.txt".toList, [1, 2, 3]⟩, rfl, rfl⟩⟩

theorem move_within_drive_keeps :
    Kept signedIn.gdrive moveWithin [1, 2, 3]
      (move Os.quiet (oneFile .done) moveWithin signedIn.gdrive signedIn.world).2 := by
  refine (move_keeps_iff Os.quiet (oneFile .done) moveWithin signedIn.gdrive signedIn.world [1, 2, 3]
    atSource_signedIn).2 fun user _ _ => ?_
  have hcloud : moveWithin.str "destStorageType" = cloudName ∧ moveWithin.str "srcStorageType" = cloudName := ⟨rfl, rfl⟩
  rw [TransferSafe, if_pos hcloud.1, if_pos hcloud.2]
  exact nofun

/-- The copy comes back with an error and the delete goes through: the drive is empty. -/
theorem move_after_failed_copy_loses :
    AtSource signedIn.gdrive moveWithin [1, 2, 3] signedIn.world ∧
      ¬ Kept signedIn.gdrive moveWithin [1, 2, 3]
        (move Os.quiet (oneFile .error) moveWithin signedIn.gdrive signedIn.world).2 := by
  refine ⟨atSource_signedIn, fun h => ?_⟩
  have hempty : (move Os.quiet (oneFile .error) moveWithin signedIn.gdrive signedIn.world).2.cloud = ∅ :=
    Std.ExtTreeMap.isEmpty_iff.1 rfl
  rcases h with h | h
  · obtain ⟨file, hf, -⟩ := h.2 fun hu => absurd rfl hu.2
    simp [hempty] at hf
  · obtain ⟨fileId, file, -, hf, -⟩ := h.1 rfl
    simp [hempty] at hf

end StorageAccess.GDriveProvider
