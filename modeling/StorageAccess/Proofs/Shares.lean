import StorageAccess.Proofs.Mounting
/-!
# The tables of the network provider

Mounting a share fills four tables of the provider and the copy of one of them
the utility singleton keeps; ejecting it clears them again. The tables agree in
every run, so that looking a drive up never inserts it.
-/

open Posix Json

namespace StorageAccess

open SAFUtilityOperation

/-! ## Handlers that leave the table of mount paths alone -/

/-- The singleton's table of mount paths is as before. -/
def SameDrives (w w' : World) : Prop := w'.mSambaDrivePathMap = w.mSambaDrivePathMap

theorem Refused.sameDrives {w w' : World} (h : Refused w w') : SameDrives w w' := by
  obtain ⟨r, rfl⟩ := h
  rfl

theorem Denied.sameDrives {w w' : World} (h : Denied w w') : SameDrives w w' := by
  obtain ⟨rs, rfl⟩ := h
  rfl

theorem Started.sameDrives {os : Os} {req : RequestData} {w w' : World} (h : Started os req w w') : SameDrives w w' := by
  obtain ⟨-, r, rfl⟩ := h
  unfold transferOp
  split <;> rfl

theorem sameDrives_getInternalPath (os : Os) (w : World) (sessionId : Str) :
    SameDrives w (getInternalPath os w sessionId).1 := by
  unfold getInternalPath
  dsimp only
  split
  · rfl
  · split <;> rfl

namespace InternalStorageProvider

theorem sameDrives_checked {req : RequestData} {w : World} {go : World → World} (hgo : SameDrives w (go w)) :
    SameDrives w (checked req w go) := by
  rcases checked_cases req w go with hr | ⟨-, h⟩
  · exact hr.sameDrives
  · rw [h]; exact hgo

theorem sameDrives_getProperties (os : Os) (req : RequestData) (w : World) : SameDrives w (getProperties os req w) := by
  have hp : SameDrives w (sought os req w).1 := by
    unfold sought
    split
    · exact sameDrives_getInternalPath ..
    · rfl
  have hstep := propertiesStep os req w
  generalize getProperties os req w = w' at hstep
  cases hstep with
  | otherDrive => rfl
  | refused => exact hp
  | failed => exact hp
  | described own valid done op => exact (sameDrives_getInternalPath os ((sought os req w).1.logIf done op) req.sessionId).trans hp

theorem sameDrives_handleRequests (os : Os) (req : RequestData) (w : World) : SameDrives w (handleRequests os req w) := by
  by_cases ht : IsTransfer req
  · exact (handleRequests_transfer_cases os ht w).elim (·.2.sameDrives) (·.2.sameDrives)
  unfold handleRequests
  cases h : req.methodType with
  | listMethod => exact sameDrives_checked rfl
  | getPropMethod => exact sameDrives_getProperties os req w
  | removeMethod => exact sameDrives_checked rfl
  | renameMethod => exact sameDrives_checked rfl
  | listStoragesMethod => exact sameDrives_getInternalPath ..
  | ejectMethod | extraMethod => rfl
  | copyMethod | moveMethod => simp [IsTransfer, h] at ht

end InternalStorageProvider

namespace USBStorageProvider

theorem sameDrives_checked {reg : Registry} {unmounted : USBErrors} {req : RequestData} {w : World} {go : World → World}
    (hgo : SameDrives w (go w)) : SameDrives w (checked reg unmounted req w go) := by
  rcases checked_cases reg unmounted req w go with hr | ⟨-, -, h⟩
  · exact hr.sameDrives
  · rw [h]; exact hgo

theorem sameDrives_onReply (luna : Luna) (nextReq responses : List JValue) (root : JValue) (w : World) :
    SameDrives w (onReply luna nextReq responses root w) := by
  rw [onReply_eq]
  rfl

theorem sameDrives_handleRequests (os : Os) (luna : Luna) (reg : Registry) (req : RequestData) (w : World) :
    SameDrives w (handleRequests os luna reg req w) := by
  by_cases ht : IsTransfer req
  · exact (handleRequests_transfer_cases os luna reg ht w).elim (·.2.sameDrives) (·.2.sameDrives)
  unfold handleRequests
  cases h : req.methodType with
  | listMethod => exact sameDrives_checked rfl
  | getPropMethod =>
    refine sameDrives_checked ?_
    dsimp only
    split
    · rfl
    split
    · rfl
    split
    · split <;> rfl
    · exact sameDrives_onReply ..
  | removeMethod => exact sameDrives_checked rfl
  | renameMethod => exact sameDrives_checked rfl
  | ejectMethod => exact sameDrives_checked (sameDrives_onReply ..)
  | listStoragesMethod | extraMethod => rfl
  | copyMethod | moveMethod => simp [IsTransfer, h] at ht

end USBStorageProvider

namespace GDriveProvider

theorem sameDrives_guarded {driveId : Str} {req : RequestData} {s : GDriveProvider} {w : World}
    {go : GDriveProvider → GDriveUserData → World → GDriveProvider × World}
    (hgo : ∀ s user, SameDrives w (go s user w).2) : SameDrives w (guarded driveId req s w go).2 := by
  rcases guarded_cases driveId req s w go with ⟨-, r, s', h, -⟩ | ⟨-, user, -, ⟨-, r, h, -⟩ | ⟨-, h⟩⟩
  · rw [h]; rfl
  · rw [h]; rfl
  · rw [h]; exact hgo _ _

theorem sameDrives_finish {drive : Drive} {req : RequestData} {s : GDriveProvider} {user : GDriveUserData} {w : World}
    {result : World × Bool} (h : SameDrives w result.1) : SameDrives w (finish drive req s user result).2 := by
  unfold finish
  split <;> exact h

theorem sameDrives_andThen {w : World} {result : World × Bool} {next : World → World × Bool} (h : SameDrives w result.1)
    (hnext : ∀ w, SameDrives w (next w).1) : SameDrives w (andThen result next).1 := by
  unfold andThen
  split
  · exact (hnext _).trans h
  · exact h

theorem sameDrives_deleteFile (drive : Drive) (fileId : Str) (w : World) :
    SameDrives w (deleteFile drive fileId w).1 := by
  unfold deleteFile
  cases drive.delete <;> rfl

theorem sameDrives_patchFile (drive : Drive) (fileId title : Str) (w : World) :
    SameDrives w (patchFile drive fileId title w).1 := by
  unfold patchFile
  extract_lets w'
  split <;> rfl

theorem sameDrives_copyFile (drive : Drive) (fileId parent : Str) (w : World) :
    SameDrives w (copyFile drive fileId parent w).1 := by
  unfold copyFile
  extract_lets w'
  split <;> rfl

theorem sameDrives_upload (drive : Drive) (user : GDriveUserData) (req : RequestData) (w : World) :
    SameDrives w (upload drive user req w).1 := by
  have hstep := uploadStep drive user req w
  generalize upload drive user req w = result at hstep
  cases hstep with
  | refused => rfl
  | sent valid =>
    unfold insertFile
    cases drive.insert <;> rfl

theorem sameDrives_download (os : Os) (drive : Drive) (user : GDriveUserData) (req : RequestData) (w : World) :
    SameDrives w (download os drive user req w).1 := by
  have hstep := downloadStep os drive user req w
  generalize download os drive user req w = result at hstep
  cases hstep with
  | refused | missing | unopened | written => rfl

theorem sameDrives_transfer {req : RequestData} {s : GDriveProvider} {w : World}
    {go : GDriveProvider → GDriveUserData → World → GDriveProvider × World}
    (hgo : ∀ w s user, SameDrives w (go s user w).2) : SameDrives w (s.transfer req w go).2 := by
  unfold transfer
  split
  case h_1 w' hv => exact (validate_false hv).1 ▸ rfl
  case h_2 w' hv =>
    obtain ⟨rfl, -, -⟩ := validate_true hv
    split
    · rfl
    · exact sameDrives_guarded (hgo _)

theorem sameDrives_handleRequests (os : Os) (drive : Drive) (req : RequestData) (s : GDriveProvider) (w : World) :
    SameDrives w (handleRequests os drive req s w).2 := by
  unfold handleRequests
  cases req.methodType with
  | extraMethod =>
    unfold extraMethod attachCloud authenticateCloud setToken
    dsimp only
    repeat' split
    all_goals rfl
  | listMethod =>
    apply sameDrives_guarded
    intro s user
    dsimp only
    repeat' split
    all_goals rfl
  | getPropMethod =>
    apply sameDrives_guarded
    intro s user
    dsimp only
    repeat' split
    all_goals rfl
  | removeMethod =>
    apply sameDrives_guarded
    intro s user
    have h := sameDrives_deleteFile drive (user.index.getFileId (req.str "path")) w
    dsimp only
    split
    · rfl
    split <;> simp_all [SameDrives]
  | renameMethod =>
    apply sameDrives_guarded
    intro s user
    have h := sameDrives_patchFile drive (user.index.getFileId (req.str "path")) (req.str "newName") w
    dsimp only
    split
    · rfl
    split <;> simp_all [SameDrives]
  | copyMethod =>
    apply sameDrives_transfer
    intro w s user
    dsimp only
    repeat' split
    · rfl
    · exact sameDrives_finish (sameDrives_copyFile ..)
    · exact sameDrives_finish (sameDrives_upload ..)
    · exact sameDrives_finish (sameDrives_download ..)
  | moveMethod =>
    apply sameDrives_transfer
    intro w s user
    dsimp only
    repeat' split
    · rfl
    · exact sameDrives_finish (sameDrives_andThen (sameDrives_copyFile ..) (sameDrives_deleteFile _ _))
    · exact sameDrives_finish (sameDrives_andThen (sameDrives_upload ..) fun _ => rfl)
    · exact sameDrives_finish (sameDrives_andThen (sameDrives_download ..) (sameDrives_deleteFile _ _))
  | listStoragesMethod | ejectMethod => rfl

end GDriveProvider

namespace NetworkProvider

/-! ## Looking a drive up -/

/-- Every drive with an owner has a path, and the other way round. -/
structure Listed (s : NetworkProvider) : Prop where
  shares : ∀ d, d ∈ s.mSambaSessionData ↔ d ∈ s.mSambaPathMap
  servers : ∀ d, d ∈ s.mUpnpSessionData ↔ d ∈ s.mUpnpPathMap

theorem lookSambaPath_of_mem {s : NetworkProvider} {d : Str} (h : d ∈ s.mSambaPathMap) : s.lookSambaPath d = s := by
  simp only [lookSambaPath, Table.touch_of_mem _ h]

theorem lookUpnpPath_of_mem {s : NetworkProvider} {d : Str} (h : d ∈ s.mUpnpPathMap) : s.lookUpnpPath d = s := by
  simp only [lookUpnpPath, Table.touch_of_mem _ h]

theorem foldl_eq_self {α : Type} {f : NetworkProvider → α → NetworkProvider} {s : NetworkProvider} {l : List α}
    (h : ∀ a ∈ l, f s a = s) : l.foldl f s = s := by
  induction l with
  | nil => rfl
  | cons a l ih =>
    rw [List.foldl_cons, h a List.mem_cons_self]
    exact ih fun b hb => h b (List.mem_cons_of_mem _ hb)

theorem mem_ownedBy {sessions : Table Str} {sessionId d : Str} :
    d ∈ ownedBy sessions sessionId ↔ sessions[d]? = some sessionId := by
  simp [ownedBy, Std.ExtTreeMap.mem_toList_iff_getElem?_eq_some]

theorem mem_of_validateOperation {s : NetworkProvider} (hs : Listed s) {d sessionId : Str}
    (h : s.validateOperation d sessionId = true) : (if isUpnp d then d ∈ s.mUpnpPathMap else d ∈ s.mSambaPathMap) := by
  unfold validateOperation validateUpnpOperation validateSambaOperation at h
  split
  case isTrue hu =>
    rw [if_pos hu, decide_eq_true_eq] at h
    exact (hs.servers d).1 ((Table.mem_iff_get _).2 ⟨_, h⟩)
  case isFalse hu =>
    rw [if_neg hu, decide_eq_true_eq] at h
    exact (hs.shares d).1 ((Table.mem_iff_get _).2 ⟨_, h⟩)

theorem list_fst {s : NetworkProvider} (hs : Listed s) (os : Os) (net : Net) (req : RequestData) (w : World) :
    (list os net req s w).1 = s := by
  unfold list
  dsimp only
  split
  · rfl
  case isFalse hv =>
    have hmem := mem_of_validateOperation hs (by simpa using hv)
    split
    · split <;> rfl
    case isFalse hu =>
      rw [if_pos (by simpa using hu)] at hmem
      split
      · rfl
      · split <;> exact lookUpnpPath_of_mem hmem

theorem getProperties_fst {s : NetworkProvider} (hs : Listed s) (os : Os) (net : Net) (req : RequestData) (w : World) :
    (getProperties os net req s w).1 = s := by
  unfold getProperties
  dsimp only
  split
  · rfl
  case isFalse hv =>
    have hmem := mem_of_validateOperation hs (by simpa using hv)
    split
    case isTrue hu => exact lookUpnpPath_of_mem (by simpa [hu] using hmem)
    case isFalse hu =>
      rw [if_neg hu] at hmem
      repeat' split
      all_goals exact lookSambaPath_of_mem hmem

theorem listStoragesMethod_fst {s : NetworkProvider} (hs : Listed s) (req : RequestData) (w : World) :
    (listStoragesMethod req s w).1 = s := by
  have hshares : (ownedBy s.mSambaSessionData req.sessionId).foldl lookSambaPath s = s :=
    foldl_eq_self fun d hd => lookSambaPath_of_mem ((hs.shares d).1 ((Table.mem_iff_get _).2 ⟨_, mem_ownedBy.1 hd⟩))
  have hservers : (ownedBy s.mUpnpSessionData req.sessionId).foldl lookUpnpPath s = s :=
    foldl_eq_self fun d hd => lookUpnpPath_of_mem ((hs.servers d).1 ((Table.mem_iff_get _).2 ⟨_, mem_ownedBy.1 hd⟩))
  simp only [listStoragesMethod, hshares, hservers]

/-! ## Steps -/

def IsMount (req : RequestData) : Prop :=
  req.methodType = .extraMethod ∧ operationType req = "mountSambaServer".toList

def IsDiscover (req : RequestData) : Prop :=
  req.methodType = .extraMethod ∧ operationType req = "discoverUPnPMediaServer".toList

theorem handleRequests_mount {req : RequestData} (hreq : IsMount req) (os : Os) (net : Net) (s : NetworkProvider)
    (w : World) : handleRequests os net req s w =
      if validateExtraCommand ["ip", "sharePath"] req = true then mountSambaServer net req s w
      else (s, w.reply (failReply SAFErrors.invalidParam.code (getCloudErrorString SAFErrors.invalidParam.code))) := by
  have hne : "mountSambaServer".toList ≠ "discoverUPnPMediaServer".toList := by decide
  simp only [handleRequests, hreq.1, extraMethod, hreq.2, true_and, if_neg hne]

/-- A handler leaves the provider as it is, forgets under which key a share was
mounted, mounts a share, ejects one or finds media servers. -/
inductive DrivesStep (net : Net) (req : RequestData) (s : NetworkProvider) (w : World) (s' : NetworkProvider)
    (w' : World) : Prop
  | same (tables : s' = s) (world : SameDrives w w')
  | kept (driveId : Str) (tables : s' = s.eraseShareKey driveId) (world : SameDrives w w')
  | mounted (request : IsMount req) (succeeds : MountSucceeds net req s) (key : Str)
      (tables : s' = s.addShare key req.sessionId (newMount net req)) (world : w'.mSambaDrivePathMap = s'.mSambaPathMap)
  | ejected (driveId path : Str) (found : s.mSambaPathMap[driveId]? = some path) (tables : s' = s.dropShare driveId path)
      (world : w'.mSambaDrivePathMap = s'.mSambaPathMap)
  | discovered (request : IsDiscover req) (tables : s' = net.scannedDevices.foldl (addServer req.sessionId) s)
      (world : SameDrives w w')

theorem sameDrives_checked {req : RequestData} {s : NetworkProvider} {w : World} {go : World → World}
    (hgo : SameDrives w (go w)) : SameDrives w (s.checked req w go) := by
  rcases checked_cases req s w go with hr | ⟨-, -, h⟩
  · exact hr.sameDrives
  · rw [h]; exact hgo

/-- A handler mounts or ejects, finds media servers, or leaves the tables as they are. -/
inductive NetworkStep (os : Os) (net : Net) (req : RequestData) (s : NetworkProvider) (w : World) (s' : NetworkProvider)
    (w' : World) : Prop
  | mount (request : IsMount req) (step : MountStep net req s w s' w')
  | eject (request : req.methodType = .ejectMethod) (step : EjectStep os net req s w s' w')
  | discovered (request : IsDiscover req) (tables : s' = net.scannedDevices.foldl (addServer req.sessionId) s)
      (world : SameDrives w w')
  | same (tables : s' = s) (world : SameDrives w w')

theorem networkStep_handleRequests {s : NetworkProvider} (hs : Listed s) (os : Os) (net : Net) (req : RequestData)
    (w : World) : NetworkStep os net req s w (handleRequests os net req s w).1 (handleRequests os net req s w).2 := by
  by_cases ht : IsTransfer req
  · have hw := (handleRequests_transfer_cases os net ht s w).elim (·.2.sameDrives) (·.2.sameDrives)
    rw [handleRequests_transfer os net ht] at hw ⊢
    exact .same rfl hw
  unfold handleRequests
  -- no other method touches the tables: a drive that is listed has a path
  cases h : req.methodType with
  | extraMethod =>
    dsimp only
    unfold extraMethod
    split
    case isTrue hm => exact .mount ⟨h, hm.1⟩ (mountStep_mountSambaServer net req s w)
    split
    case isTrue hd => exact .discovered ⟨h, hd⟩ rfl rfl
    case isFalse => exact .same rfl rfl
  | listMethod =>
    refine .same (list_fst hs os net req w) ?_
    dsimp only
    unfold list
    dsimp only
    repeat' split
    all_goals rfl
  | getPropMethod =>
    refine .same (getProperties_fst hs os net req w) ?_
    dsimp only
    unfold getProperties
    dsimp only
    repeat' split
    all_goals rfl
  | removeMethod => exact .same rfl (sameDrives_checked rfl)
  | renameMethod => exact .same rfl (sameDrives_checked rfl)
  | listStoragesMethod => exact .same (listStoragesMethod_fst hs req w) rfl
  | ejectMethod => exact .eject h (ejectStep_eject os net req s w)
  | copyMethod | moveMethod => simp [IsTransfer, h] at ht

theorem NetworkStep.drivesStep {os : Os} {net : Net} {req : RequestData} {s s' : NetworkProvider} {w w' : World}
    (h : NetworkStep os net req s w s' w') : DrivesStep net req s w s' w' := by
  cases h with
  | mount request step =>
    cases step with
    | incomplete text missing tables world => exact .same tables (world ▸ rfl)
    | known complete found tables world => exact .same tables (world ▸ rfl)
    | unmade complete new nodir tables world => exact .same tables (world ▸ rfl)
    | inUse complete new made dir used tables world => exact .same tables (world ▸ rfl)
    | failed complete new made dir free unmounted tables world => exact .same tables (world ▸ rfl)
    | mounted complete new made dir free tree mount tables world => 
      exact .mounted request ⟨complete, new, by simp [dir], free, by simp [mount]⟩ _ tables (world ▸ rfl)
  | eject request step =>
    cases step with
    | refused foreign tables world => exact .same tables (world ▸ rfl)
    | unlisted own lost tables world => exact .kept _ tables (world ▸ rfl)
    | stuck own path found busy tables world => exact .kept _ tables (world ▸ rfl)
    | ejected own path found tree freed tables world => exact .ejected _ path found tables (world ▸ rfl)
  | discovered request tables world => exact .discovered request tables world
  | same tables world => exact .same tables world

/-! ## Paths and owners -/

theorem Listed.init : Listed NetworkProvider.init := by
  constructor <;> simp [NetworkProvider.init]

theorem Listed.addShare {s : NetworkProvider} (hs : Listed s) (key sessionId path : Str) :
    Listed (s.addShare key sessionId path) where
  shares d := by simp only [NetworkProvider.addShare, Table.mem_insert_iff, hs.shares]
  servers := hs.servers

theorem Listed.eraseShareKey {s : NetworkProvider} (hs : Listed s) (driveId : Str) : Listed (s.eraseShareKey driveId) := by
  obtain ⟨hpaths, hsessions, -, hupnp, howners, -⟩ := eraseShareKey_paths s driveId
  exact ⟨by rw [hpaths, hsessions]; exact hs.shares, by rw [hupnp, howners]; exact hs.servers⟩

theorem Listed.dropShare {s : NetworkProvider} (hs : Listed s) (driveId path : Str) : Listed (s.dropShare driveId path) where
  shares d := by simp only [NetworkProvider.dropShare, Table.mem_erase_iff, hs.shares]
  servers := (hs.eraseShareKey driveId).servers

theorem Listed.addServer {s : NetworkProvider} (hs : Listed s) (sessionId url : Str) :
    Listed (addServer sessionId s url) := by
  rcases addServer_cases sessionId s url with ⟨-, h⟩ | ⟨-, h⟩
  · rwa [h]
  · rw [h]
    exact ⟨hs.shares, fun d => by simp only [withServer, Table.mem_insert_iff, hs.servers]⟩

theorem Listed.addServers {s : NetworkProvider} (hs : Listed s) (sessionId : Str) (urls : List Str) :
    Listed (urls.foldl (NetworkProvider.addServer sessionId) s) := by
  induction urls generalizing s with
  | nil => exact hs
  | cons url urls ih => exact ih (hs.addServer sessionId url)

theorem Listed.drivesStep {net : Net} {req : RequestData} {s s' : NetworkProvider} {w w' : World} (hs : Listed s)
    (h : DrivesStep net req s w s' w') : Listed s' := by
  cases h with
  | same tables => rwa [tables]
  | kept driveId tables => exact tables ▸ hs.eraseShareKey driveId
  | mounted _ _ key tables => exact tables ▸ hs.addShare key _ _
  | ejected driveId path _ tables => exact tables ▸ hs.dropShare driveId path
  | discovered _ tables => exact tables ▸ hs.addServers _ _

/-- Finding media servers leaves the SAMBA tables alone. -/
theorem addServers_samba (sessionId : Str) (urls : List Str) (s : NetworkProvider) :
    (urls.foldl (NetworkProvider.addServer sessionId) s).mSambaPathMap = s.mSambaPathMap ∧
      (urls.foldl (NetworkProvider.addServer sessionId) s).mSambaSessionData = s.mSambaSessionData ∧
      (urls.foldl (NetworkProvider.addServer sessionId) s).mntpathmap = s.mntpathmap ∧
      (urls.foldl (NetworkProvider.addServer sessionId) s).mSambaDriveMap = s.mSambaDriveMap ∧
      (urls.foldl (NetworkProvider.addServer sessionId) s).sambaIds = s.sambaIds := by
  induction urls generalizing s with
  | nil => exact ⟨rfl, rfl, rfl, rfl, rfl⟩
  | cons url urls ih =>
    rw [List.foldl_cons]
    have hrest := ih (NetworkProvider.addServer sessionId s url)
    rcases addServer_cases sessionId s url with ⟨-, h⟩ | ⟨-, h⟩ <;> rwa [h] at hrest ⊢

/-! ## Numbers of shares -/

theorem sambaId_injective : Function.Injective sambaId := fun _ _ h =>
  toDigits_injective (List.append_cancel_left h)

theorem nextId_ne (n : Nat) : nextId n ≠ n := by
  unfold nextId
  omega

/-- The drives with an owner are among those numbered so far. -/
def Numbered (s : NetworkProvider) : Prop :=
  ∀ d ∈ s.mSambaSessionData, ∃ k, k ≤ s.sambaIds ∧ d = sambaId k

theorem Numbered.not_mem {s : NetworkProvider} (hs : Numbered s) : sambaId (s.sambaIds + 1) ∉ s.mSambaSessionData := by
  intro h
  obtain ⟨k, hk, he⟩ := hs _ h
  have := sambaId_injective he
  omega

/-- The key forgotten for a drive is the one it was mounted under. -/
theorem get_eraseShareKey {s : NetworkProvider}
    (hinj : ∀ k k' d : Str, s.mSambaDriveMap[k]? = some d → s.mSambaDriveMap[k']? = some d → k = k') (driveId k d : Str) :
    (s.eraseShareKey driveId).mSambaDriveMap[k]? = some d ↔ s.mSambaDriveMap[k]? = some d ∧ d ≠ driveId := by
  refine ⟨fun h => ⟨get_of_eraseShareKey h, ?_⟩, fun h => get_eraseShareKey_of_ne h.1 h.2⟩
  rintro rfl
  have hk := get_of_eraseShareKey h
  rcases eraseShareKey_cases s d with ⟨key, hkey, he⟩ | ⟨hnone, -⟩
  · -- the key that was forgotten is the only one
    rw [he, Table.get_erase, if_pos (hinj key k d hkey hk)] at h
    cases h
  · exact hnone k hk

end NetworkProvider

/-! ## The tables agree -/

/-- The tables of the shares, and the utility singleton's copy, agree. -/
structure Consistent (s : Service) : Prop where
  keys : ∀ d, d ∈ s.network.mSambaSessionData ↔ d ∈ s.network.mSambaPathMap
  paths : ∀ d d' p : Str, s.network.mSambaPathMap[d]? = some p → s.network.mSambaPathMap[d']? = some p → d = d'
  dirs : ∀ p, p ∈ s.network.mntpathmap ↔ ∃ d : Str, s.network.mSambaPathMap[d]? = some p
  copy : s.world.mSambaDrivePathMap = s.network.mSambaPathMap
  shares : ∀ k k' d : Str, s.network.mSambaDriveMap[k]? = some d → s.network.mSambaDriveMap[k']? = some d → k = k'
  owned : ∀ k d : Str, s.network.mSambaDriveMap[k]? = some d → d ∈ s.network.mSambaSessionData

theorem step_network {env : Env} {req : RequestData} (h : route req = .network) (s : Service) :
    s.step (.request env req) = { s with
      network := (NetworkProvider.handleRequests env.os env.net req s.network s.world).1
      world := (NetworkProvider.handleRequests env.os env.net req s.network s.world).2 } := by
  simp only [Service.step, Service.handle, h]

/-- A step of the service runs a handler of the network provider, or leaves its tables alone. -/
inductive TablesStep (s : Service) (l : Service.Label) (s' : Service) : Prop
  | elsewhere (tables : s'.network = s.network) (world : SameDrives s.world s'.world)
  | handled (env : Env) (req : RequestData) (label : l = .request env req) (routed : route req = .network)
      (step : NetworkProvider.NetworkStep env.os env.net req s.network s.world s'.network s'.world)

theorem tablesStep {s : Service} (hs : s.network.Listed) (l : Service.Label) : TablesStep s l (s.step l) := by
  cases l with
  | devices root req => exact .elsewhere rfl rfl
  | others fs cloud => exact .elsewhere rfl rfl
  | request env req =>
    cases hr : route req with
    | internal =>
      simp only [Service.step, Service.handle, hr]
      exact .elsewhere rfl (InternalStorageProvider.sameDrives_handleRequests env.os req s.world)
    | usb =>
      simp only [Service.step, Service.handle, hr]
      exact .elsewhere rfl (USBStorageProvider.sameDrives_handleRequests env.os env.luna s.usb req s.world)
    | gdrive =>
      simp only [Service.step, Service.handle, hr]
      exact .elsewhere rfl (GDriveProvider.sameDrives_handleRequests env.os env.drive req s.gdrive s.world)
    | network =>
      rw [step_network hr]
      exact .handled env req rfl hr (NetworkProvider.networkStep_handleRequests hs env.os env.net req s.world)

theorem NetworkProvider.Listed.step {s : Service} (hs : s.network.Listed) (l : Service.Label) : (s.step l).network.Listed := by
  cases tablesStep hs l with
  | elsewhere tables => rwa [tables]
  | handled env req label routed step => exact hs.drivesStep step.drivesStep

/-- What carries the agreement of the tables along a run. -/
structure SharesInv (s : Service) : Prop where
  listed : s.network.Listed
  consistent : Consistent s
  numbered : s.network.Numbered

theorem SharesInv.start (fs : FS) (cloud : Table CloudFile) : SharesInv (Service.start fs cloud) where
  listed := .init
  consistent := by constructor <;> simp [Service.start, NetworkProvider.init]
  numbered := by simp [NetworkProvider.Numbered, Service.start, NetworkProvider.init]

/-- What another provider does leaves the agreement as it is. -/
theorem SharesInv.frame {s s' : Service} (hs : SharesInv s) (hnet : s'.network = s.network)
    (hworld : SameDrives s.world s'.world) : SharesInv s' where
  listed := hnet ▸ hs.listed
  consistent := ⟨hnet ▸ hs.consistent.keys, hnet ▸ hs.consistent.paths, hnet ▸ hs.consistent.dirs,
    (hworld.trans hs.consistent.copy).trans (by rw [hnet]), hnet ▸ hs.consistent.shares, hnet ▸ hs.consistent.owned⟩
  numbered := hnet ▸ hs.numbered

/-- A share mounted under a new number, at a path that was not in use. -/
theorem Consistent.addShare {s : Service} (hs : SharesInv s) (hfew : s.network.sambaIds + 1 < 2 ^ 32)
    {key sessionId path : Str} (hfree : path ∉ s.network.mntpathmap) {w : World}
    (hworld : w.mSambaDrivePathMap = (s.network.addShare key sessionId path).mSambaPathMap) :
    Consistent { s with network := s.network.addShare key sessionId path, world := w } := by
  have hid : NetworkProvider.nextId s.network.sambaIds = s.network.sambaIds + 1 := Nat.mod_eq_of_lt hfew
  have hnew := hs.numbered.not_mem
  have hc := hs.consistent
  have hunused (d : Str) : s.network.mSambaPathMap[d]? ≠ some path := fun h => hfree ((hc.dirs path).2 ⟨d, h⟩)
  have hunshared (k : Str) : s.network.mSambaDriveMap[k]? ≠ some (NetworkProvider.sambaId (s.network.sambaIds + 1)) :=
    fun h => hnew (hc.owned k _ h)
  unfold NetworkProvider.addShare
  rw [hid]
  refine ⟨fun d => ?keys, Table.unique_insert _ hunused hc.paths, fun p => ?dirs, ?copy,
    Table.unique_insert _ hunshared hc.shares, fun k d h => ?owned⟩
  case keys => simp only [Table.mem_insert_iff, hc.keys]
  case copy => rw [hworld, NetworkProvider.addShare, hid]
  case dirs =>
    simp only [Table.mem_insert_iff, Table.get_insert]
    constructor
    · rintro (rfl | hp)
      · exact ⟨_, if_pos rfl⟩
      · obtain ⟨d, hd⟩ := (hc.dirs p).1 hp
        refine ⟨d, (if_neg ?_).trans hd⟩
        rintro rfl
        exact hnew ((hc.keys _).2 ((Table.mem_iff_get _).2 ⟨p, hd⟩))
    · rintro ⟨d, hd⟩
      split at hd
      · exact .inl (Option.some.inj hd)
      · exact .inr ((hc.dirs p).2 ⟨d, hd⟩)
  case owned =>
    simp only [Table.mem_insert_iff, Table.get_insert] at h ⊢
    split at h
    · exact .inl (Option.some.inj h)
    · exact .inr (hc.owned k d h)

/-- Forgetting the key of a share. -/
theorem Consistent.eraseShareKey {s : Service} (hc : Consistent s) (driveId : Str) {w : World}
    (hworld : SameDrives s.world w) :
    Consistent { s with network := s.network.eraseShareKey driveId, world := w } := by
  obtain ⟨hpaths, hsessions, hdirs, -⟩ := NetworkProvider.eraseShareKey_paths s.network driveId
  have hkept (k d : Str) (h : (s.network.eraseShareKey driveId).mSambaDriveMap[k]? = some d) :
      s.network.mSambaDriveMap[k]? = some d := ((NetworkProvider.get_eraseShareKey hc.shares driveId k d).1 h).1
  refine ⟨?_, ?_, ?_, (hworld.trans hc.copy).trans hpaths.symm, fun k k' d h h' => ?_, fun k d h => ?_⟩
  · simpa only [hsessions, hpaths] using hc.keys
  · simpa only [hpaths] using hc.paths
  · simpa only [hdirs, hpaths] using hc.dirs
  · exact hc.shares k k' d (hkept k d h) (hkept k' d h')
  · simpa only [hsessions] using hc.owned k d (hkept k d h)

/-- A share that is ejected leaves every table. -/
theorem Consistent.dropShare {s : Service} (hc : Consistent s) {driveId path : Str}
    (hfound : s.network.mSambaPathMap[driveId]? = some path) {w : World}
    (hworld : w.mSambaDrivePathMap = (s.network.dropShare driveId path).mSambaPathMap) :
    Consistent { s with network := s.network.dropShare driveId path, world := w } := by
  have hkept (k d : Str) : (s.network.dropShare driveId path).mSambaDriveMap[k]? = some d ↔
      s.network.mSambaDriveMap[k]? = some d ∧ d ≠ driveId := NetworkProvider.get_eraseShareKey hc.shares driveId k d
  refine ⟨fun d => ?keys, fun d d' p h h' => ?paths, fun p => ?dirs, hworld, fun k k' d h h' => ?shares,
    fun k d h => ?owned⟩
  case keys => simp only [NetworkProvider.dropShare, Table.mem_erase_iff, hc.keys]
  case paths =>
    simp only [NetworkProvider.dropShare, Table.get_erase] at h h'
    split at h
    · cases h
    split at h'
    · cases h'
    exact hc.paths d d' p h h'
  case dirs =>
    simp only [NetworkProvider.dropShare, Table.mem_erase_iff, Table.get_erase]
    constructor
    · rintro ⟨hne, hp⟩
      obtain ⟨d, hd⟩ := (hc.dirs p).1 hp
      refine ⟨d, (if_neg ?_).trans hd⟩
      rintro rfl
      exact hne (Option.some.inj (hfound.symm.trans hd))
    · rintro ⟨d, hd⟩
      split at hd
      · cases hd
      case isFalse hne =>
        refine ⟨?_, (hc.dirs p).2 ⟨d, hd⟩⟩
        rintro rfl
        exact hne (hc.paths _ _ _ hfound hd)
  case shares => exact hc.shares k k' d ((hkept k d).1 h).1 ((hkept k' d).1 h').1
  case owned =>
    obtain ⟨hd, hne⟩ := (hkept k d).1 h
    simpa only [NetworkProvider.dropShare, Table.mem_erase_iff] using ⟨hne.symm, hc.owned k d hd⟩

/-! ## Runs -/

/-- The drive ids a step issues. -/
def issued (s : Service) (l : Service.Label) : List Str :=
  if (s.step l).network.sambaIds = s.network.sambaIds then []
  else [NetworkProvider.sambaId (s.step l).network.sambaIds]

/-- The drive ids a run issues, in order. -/
def issuedAlong : Service → List Service.Label → List Str
  | _, [] => []
  | s, l :: ls => issued s l ++ issuedAlong (s.step l) ls

theorem issued_of_eq {s : Service} {l : Service.Label} (h : (s.step l).network.sambaIds = s.network.sambaIds) :
    issued s l = [] := if_pos h

/-- A step of the network provider keeps the tables in agreement, and issues the
next number or none. -/
theorem SharesInv.drivesStep {net : Net} {req : RequestData} {s : Service} (hs : SharesInv s) {s' : NetworkProvider}
    {w' : World} (hstep : NetworkProvider.DrivesStep net req s.network s.world s' w')
    (hfew : s'.sambaIds ≠ s.network.sambaIds → s.network.sambaIds + 1 < 2 ^ 32) :
    SharesInv { s with network := s', world := w' } ∧
      (s'.sambaIds = s.network.sambaIds ∨ s'.sambaIds = s.network.sambaIds + 1) := by
  have hlisted : s'.Listed := hs.listed.drivesStep hstep
  cases hstep with
  | same tables world =>
    subst tables
    exact ⟨hs.frame rfl world, .inl rfl⟩
  | kept driveId tables world =>
    subst tables
    obtain ⟨-, hsessions, -, -, -, hids⟩ := NetworkProvider.eraseShareKey_paths s.network driveId
    refine ⟨⟨hlisted, hs.consistent.eraseShareKey driveId world, ?_⟩, .inl hids⟩
    simpa only [NetworkProvider.Numbered, hsessions, hids] using hs.numbered
  | mounted _ succeeds key tables world =>
    subst tables
    -- the counter moved, so it has not wrapped
    have hne := NetworkProvider.nextId_ne s.network.sambaIds
    have hid : NetworkProvider.nextId s.network.sambaIds = s.network.sambaIds + 1 := Nat.mod_eq_of_lt (hfew hne)
    refine ⟨⟨hlisted, Consistent.addShare hs (hfew hne) succeeds.free world, fun d hd => ?_⟩, .inr hid⟩
    simp only [NetworkProvider.addShare, hid, Table.mem_insert_iff] at hd ⊢
    rcases hd with rfl | hd
    · exact ⟨_, le_rfl, rfl⟩
    · obtain ⟨k, hk, he⟩ := hs.numbered d hd
      exact ⟨k, by omega, he⟩
  | ejected driveId path found tables world =>
    subst tables
    obtain ⟨-, -, -, -, -, hids⟩ := NetworkProvider.eraseShareKey_paths s.network driveId
    refine ⟨⟨hlisted, hs.consistent.dropShare found world, fun d hd => ?_⟩, .inl hids⟩
    simp only [NetworkProvider.dropShare, Table.mem_erase_iff] at hd
    simpa only [NetworkProvider.dropShare, hids] using hs.numbered d hd.2
  | discovered _ tables world =>
    subst tables
    obtain ⟨hpaths, hsessions, hdirs, hshares, hids⟩ :=
      NetworkProvider.addServers_samba req.sessionId net.scannedDevices s.network
    have hc := hs.consistent
    refine ⟨⟨hlisted, ⟨?_, ?_, ?_, (world.trans hc.copy).trans hpaths.symm, ?_, ?_⟩, ?_⟩, .inl hids⟩
    · simpa only [hsessions, hpaths] using hc.keys
    · simpa only [hpaths] using hc.paths
    · simpa only [hdirs, hpaths] using hc.dirs
    · simpa only [hshares] using hc.shares
    · simpa only [hshares, hsessions] using hc.owned
    · simpa only [NetworkProvider.Numbered, hsessions, hids] using hs.numbered

theorem SharesInv.step {s : Service} (hs : SharesInv s) (l : Service.Label)
    (hfew : (s.step l).network.sambaIds ≠ s.network.sambaIds → s.network.sambaIds + 1 < 2 ^ 32) :
    SharesInv (s.step l) ∧
      ((s.step l).network.sambaIds = s.network.sambaIds ∨ (s.step l).network.sambaIds = s.network.sambaIds + 1) := by
  cases tablesStep hs.listed l with
  | elsewhere tables world => exact ⟨hs.frame tables world, .inl (by rw [tables])⟩
  | handled env req label routed step =>
    obtain ⟨hnext, hids⟩ := hs.drivesStep step.drivesStep hfew
    exact ⟨hnext.frame rfl rfl, hids⟩

/-- While fewer than 2^32 ids are issued, they are the next numbers, and the tables agree. -/
theorem SharesInv.run {s : Service} (hs : SharesInv s) (ls : List Service.Label)
    (hfew : s.network.sambaIds + (issuedAlong s ls).length < 2 ^ 32) :
    SharesInv (Runs.run Service.step s ls) ∧
      issuedAlong s ls = (List.range' (s.network.sambaIds + 1) (issuedAlong s ls).length).map NetworkProvider.sambaId := by
  induction ls generalizing s with
  | nil => exact ⟨hs, rfl⟩
  | cons l ls ih =>
    have hlen : (issuedAlong s (l :: ls)).length = (issued s l).length + (issuedAlong (s.step l) ls).length :=
      List.length_append
    have hissued : (s.step l).network.sambaIds ≠ s.network.sambaIds →
        issued s l = [NetworkProvider.sambaId (s.step l).network.sambaIds] := fun h => if_neg h
    obtain ⟨hstep, hids⟩ := hs.step l fun hne => by
      rw [hlen, hissued hne, List.length_singleton] at hfew
      omega
    by_cases hsame : (s.step l).network.sambaIds = s.network.sambaIds
    · simp only [issuedAlong, issued_of_eq hsame, List.nil_append] at hfew ⊢
      obtain ⟨hrun, hnums⟩ := ih hstep (by omega)
      exact ⟨hrun, hsame ▸ hnums⟩
    · have hnext := hids.resolve_left hsame
      simp only [issuedAlong, hissued hsame, List.singleton_append, List.length_cons] at hfew ⊢
      obtain ⟨hrun, hnums⟩ := ih hstep (by omega)
      refine ⟨hrun, ?_⟩
      rw [List.range'_succ, List.map_cons, ← hnext, ← hnums]

/-- In every run that issues fewer than 2^32 ids the tables of the shares agree at
the end, and no id is issued twice. -/
theorem samba_tables_consistent (fs : FS) (cloud : Table CloudFile) (ls : List Service.Label)
    (hfew : (issuedAlong (Service.start fs cloud) ls).length < 2 ^ 32) :
    Consistent (Runs.run Service.step (Service.start fs cloud) ls) ∧
      (issuedAlong (Service.start fs cloud) ls).Nodup := by
  obtain ⟨hrun, hnums⟩ := (SharesInv.start fs cloud).run ls (by simpa [Service.start, NetworkProvider.init] using hfew)
  refine ⟨hrun.consistent, ?_⟩
  rw [hnums]
  exact List.Nodup.map NetworkProvider.sambaId_injective List.nodup_range'

/-- The tree after two mounts within one second, the one reading of the milliseconds a prefix of the other. -/
def twoMounts : FS :=
  FS.ofEntries [(["tmp".toList], .dir), (["tmp".toList, "nas_12:34:56_7".toList], .dir),
    (["tmp".toList, "nas_12:34:56_70".toList], .dir)] (by decide)

def mountCall (share sessionId : String) : RequestData :=
  ⟨.network, .extraMethod,
    JValue.object.put "operation" ((JValue.object.put "type" (.text "mountSambaServer")).put "payload"
      (((((JValue.object.put "ip" (.text "nas")).put "sharePath" (.text share)).put "userName" (.text "u")).put "password"
        (.text "p")).put "securityMode" (.text "s"))),
    sessionId.toList⟩

def mountEnv (millis : Fin 1000) : Env :=
  { Env.quiet with net := { Net.quiet with
      clock := { Net.quiet.clock with millis }, mkdir := some twoMounts, mount := some twoMounts } }

def mounts : List Service.Label :=
  [.request (mountEnv ⟨7, by decide⟩) (mountCall "a" "guest"), .request (mountEnv ⟨70, by decide⟩) (mountCall "b" "guest2")]

theorem issued_mounts : issuedAlong (Service.start twoMounts ∅) mounts = ["SAMBA_1".toList, "SAMBA_2".toList] := by
  decide +kernel

theorem two_mounts_consistent :
    Consistent (Runs.run Service.step (Service.start twoMounts ∅) mounts) ∧
      (issuedAlong (Service.start twoMounts ∅) mounts).Nodup :=
  samba_tables_consistent twoMounts ∅ mounts (by rw [issued_mounts]; decide)

end StorageAccess
