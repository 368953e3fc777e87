import StorageAccess.Proofs.Collisions
/-!
# What a request does

Every use of the file system, of the mounts and of a cloud drive is logged. For each
provider `calls` lists what a request may do, in which order and on which paths, from its
method and parameters alone; no handler does anything else.
-/

open Posix Json

namespace StorageAccess

open SAFUtilityOperation

/-! ## Doing some of a list of operations -/

/-- From the one world to the other some of the operations were done, in their order, and no others. -/
def Does (calls : List FsOp) (w w' : World) : Prop := ∃ ops : List FsOp, ops.Sublist calls ∧ w'.ops = w.ops ++ ops

namespace Does

variable {calls calls' : List FsOp} {w w' w'' : World}

theorem none (h : w'.ops = w.ops) : Does calls w w' := ⟨[], List.nil_sublist _, by rw [h, List.append_nil]⟩

theorem all (h : w'.ops = w.ops ++ calls) : Does calls w w' := ⟨calls, List.Sublist.refl _, h⟩

theorem mono (h : Does calls w w') (hc : calls.Sublist calls') : Does calls' w w' := by
  obtain ⟨ops, hops, he⟩ := h
  exact ⟨ops, hops.trans hc, he⟩

/-- What is done only if something holds is done at most. -/
theorem logIf (d : Bool) {op : FsOp} (h : w'.ops = (w.logIf d op).ops) : Does [op] w w' := by
  cases d with
  | false => exact none (h.trans (List.append_nil _))
  | true => exact all h

theorem reply (h : Does calls w w') (r : JValue) : Does calls w (w'.reply r) := h

theorem append (h : Does calls w w') (h' : Does calls' w' w'') : Does (calls ++ calls') w w'' := by
  obtain ⟨ops, hops, he⟩ := h
  obtain ⟨ops', hops', he'⟩ := h'
  exact ⟨ops ++ ops', hops.append hops', by rw [he', he, List.append_assoc]⟩

theorem newOps (h : Does calls w w') : (newOps w w').Sublist calls ∧ w'.ops = w.ops ++ newOps w w' := by
  obtain ⟨ops, hops, he⟩ := h
  rw [newOps_of_append he]
  exact ⟨hops, he⟩

end Does

theorem Refused.does {w w' : World} (h : Refused w w') (calls : List FsOp) : Does calls w w' := by
  obtain ⟨r, rfl⟩ := h
  exact .none rfl

theorem Denied.does {w w' : World} (h : Denied w w') (calls : List FsOp) : Does calls w w' := by
  obtain ⟨rs, rfl⟩ := h
  exact .none rfl

/-! ## The calls the file providers share -/

/-- The one operation of a method on a path. -/
def pathCalls (req : RequestData) : List FsOp :=
  match req.methodType with
  | .listMethod => [.list (req.str "path")]
  | .removeMethod => [.remove (req.str "path")]
  | .renameMethod => [.rename (req.str "path") (req.str "newName")]
  | .copyMethod => [.copy (req.str "srcPath") (req.str "destPath")]
  | .moveMethod => [.move (req.str "srcPath") (req.str "destPath")]
  | _ => []

/-- Asking for the space at an empty path means `/tmp`. -/
def spaceCall (path : Str) : FsOp := .space (if path = [] then "/tmp".toList else path)

section Operations
variable (os : Os) (w : World) (path : Str)

theorem does_listPath : Does [.list path] w (getListFolderContents os w path).1 := .logIf _ rfl

theorem does_spacePath : Does [spaceCall path] w (SAFUtilityOperation.getProperties os w path).1 := .logIf _ rfl

theorem does_removePath : Does [.remove path] w (SAFUtilityOperation.remove os w path).1 := .logIf _ rfl

theorem does_renamePath (newName : Str) : Does [.rename path newName] w (SAFUtilityOperation.rename os w path newName).1 :=
  .logIf _ rfl

end Operations

/-- The commands that give a path to a session. -/
def permissionCalls (path sessionId : Str) : List FsOp :=
  [.shell ("chown ".toList ++ sessionId ++ ": ".toList ++ path), .shell ("chmod 700 ".toList ++ path)]

/-- The session's own folder is made and given to it. -/
def folderCalls (sessionId : Str) : List FsOp :=
  .makeDirs (internalFolder sessionId) :: permissionCalls (internalFolder sessionId) sessionId

theorem does_transferOp (os : Os) {req : RequestData} (h : IsTransfer req) (w : World) :
    Does (pathCalls req) w (transferOp os req w).1 := by
  unfold transferOp pathCalls
  rcases h with h | h
  · rw [h]
    refine ⟨_, ?_, rfl⟩
    split <;> simp
  · rw [h]
    refine ⟨_, ?_, rfl⟩
    split <;> simp

theorem Started.does {os : Os} {req : RequestData} (ht : IsTransfer req) {w w' : World} (h : Started os req w w') :
    Does (pathCalls req) w w' := by
  obtain ⟨-, r, rfl⟩ := h
  obtain ⟨ops, hops, he⟩ := does_transferOp os ht w
  exact ⟨ops, hops, he⟩

theorem does_chownChmod (w : World) (path sessionId : Str) :
    Does (permissionCalls path sessionId) w (chownChmod w path sessionId) := by
  refine .all ?_
  simp only [chownChmod, World.log_ops, permissionCalls, List.append_assoc, List.singleton_append]

theorem does_setPathPerm (w : World) (path sessionId : Str) :
    Does (permissionCalls path sessionId) w (setPathPerm w path sessionId) := by
  unfold setPathPerm
  split
  · exact does_chownChmod ..
  · exact .none rfl

theorem does_getInternalPath (os : Os) (w : World) (sessionId : Str) :
    Does (folderCalls sessionId) w (getInternalPath os w sessionId).1 := by
  unfold getInternalPath
  dsimp only
  split
  · exact .none rfl
  have hmade (fs : FS) : Does [.makeDirs (internalFolder sessionId)] w
      { w.log (.makeDirs (internalFolder sessionId)) with fs := fs } := .all rfl
  split
  case h_1 fs' _ => exact (hmade fs').append (does_chownChmod ..)
  case h_2 fs' _ => exact (hmade fs').mono (by simp [folderCalls])

/-! ## The internal storage -/

namespace InternalStorageProvider

def calls (req : RequestData) : List FsOp :=
  match req.methodType with
  | .getPropMethod =>
    if req.str "path" = [] then
      folderCalls req.sessionId ++ .space (internalFolder req.sessionId) :: folderCalls req.sessionId
    else .space (req.str "path") :: folderCalls req.sessionId
  | .listStoragesMethod => folderCalls req.sessionId
  | _ => pathCalls req

theorem does_checked {calls : List FsOp} {req : RequestData} {w : World} {go : World → World} (hgo : Does calls w (go w)) :
    Does calls w (checked req w go) := by
  rcases checked_cases req w go with hr | ⟨-, h⟩
  · exact hr.does _
  · rw [h]; exact hgo

/-- A path that passes the check is not empty. -/
theorem ne_nil_of_valid {fs : FS} {path sessionId : Str}
    (h : SAFUtilityOperation.validateInternalPath fs path sessionId = true) : path ≠ [] := by
  rintro rfl
  cases h

theorem getInternalPath_snd (os : Os) (w : World) (sessionId : Str) :
    (getInternalPath os w sessionId).2 = internalFolder sessionId ∨ (getInternalPath os w sessionId).2 = [] := by
  unfold getInternalPath
  dsimp only
  split
  · exact .inl rfl
  · split
    · exact .inl rfl
    · exact .inr rfl

theorem does_getProperties (os : Os) {req : RequestData} (h : req.methodType = .getPropMethod) (w : World) :
    Does (calls req) w (getProperties os req w) := by
  -- what is done up to the check, and the path asked about once it has passed
  obtain ⟨before, path, hcalls, hsought, hpath⟩ : ∃ before path,
      calls req = before ++ .space path :: folderCalls req.sessionId ∧ Does before w (sought os req w).1 ∧
      ((sought os req w).2 ≠ [] → (sought os req w).2 = path) := by
    unfold calls sought
    rw [h]
    dsimp only
    split
    · exact ⟨_, _, rfl, does_getInternalPath .., (getInternalPath_snd os w req.sessionId).resolve_right⟩
    · exact ⟨[], _, rfl, .none rfl, fun _ => rfl⟩
  rw [hcalls]
  unfold getProperties
  dsimp only
  split
  · exact .none rfl
  generalize hfound : (if req.str "path" = [] then getInternalPath os w req.sessionId else (w, req.str "path")) = found
  obtain rfl : sought os req w = found := hfound
  split
  · exact hsought.mono (by simp)
  case isFalse hv =>
  have hne := ne_nil_of_valid (by simpa using hv)
  have hspace : Does [.space path] (sought os req w).1
      (SAFUtilityOperation.getProperties os (sought os req w).1 (sought os req w).2).1 := by
    rw [← hpath hne]
    have hdone := does_spacePath os (sought os req w).1 (sought os req w).2
    rwa [spaceCall, if_neg hne] at hdone
  have hdone := hsought.append hspace
  split
  · exact hdone.mono (by simp)
  · have hown := hdone.append (does_getInternalPath os _ req.sessionId)
    rw [List.append_assoc] at hown
    exact hown

theorem does_handleRequests (os : Os) (req : RequestData) (w : World) : Does (calls req) w (handleRequests os req w) := by
  by_cases ht : IsTransfer req
  · have hcalls : calls req = pathCalls req := by rcases ht with h | h <;> simp [calls, h]
    rw [hcalls]
    exact (handleRequests_transfer_cases os ht w).elim (·.2.does _) (·.2.does ht)
  unfold handleRequests
  cases h : req.methodType with
  | listMethod =>
    simp only [calls, pathCalls, h]
    exact does_checked ((does_listPath os w _).reply _)
  | getPropMethod => exact does_getProperties os h w
  | removeMethod =>
    simp only [calls, pathCalls, h]
    exact does_checked ((does_removePath os w _).reply _)
  | renameMethod =>
    simp only [calls, pathCalls, h]
    exact does_checked ((does_renamePath os w _ _).reply _)
  | listStoragesMethod =>
    rw [calls, h]
    exact does_getInternalPath ..
  | ejectMethod | extraMethod => exact .none rfl
  | copyMethod | moveMethod => simp [IsTransfer, h] at ht

end InternalStorageProvider

/-! ## The USB drives -/

namespace USBStorageProvider

def calls (req : RequestData) : List FsOp :=
  match req.methodType with
  | .getPropMethod => if req.params.hasKey "path" then [spaceCall (req.str "path")] else []
  | _ => pathCalls req

theorem does_checked {calls : List FsOp} {reg : Registry} {unmounted : USBErrors} {req : RequestData} {w : World}
    {go : World → World} (hgo : Does calls w (go w)) : Does calls w (checked reg unmounted req w go) := by
  rcases checked_cases reg unmounted req w go with hr | ⟨-, -, h⟩
  · exact hr.does _
  · rw [h]; exact hgo

theorem does_onReply (luna : Luna) (nextReq responses : List JValue) (root : JValue) (calls : List FsOp) (w : World) :
    Does calls w (onReply luna nextReq responses root w) := by
  rw [onReply_eq]
  exact .none rfl

theorem does_getPropertiesMethod (os : Os) (luna : Luna) (reg : Registry) {req : RequestData}
    (h : req.methodType = .getPropMethod) (w : World) : Does (calls req) w (getPropertiesMethod os luna reg req w) := by
  unfold getPropertiesMethod
  apply does_checked
  dsimp only
  split
  · exact .none rfl
  split
  · exact .none rfl
  split
  case isTrue hpath =>
    have hcalls : calls req = [spaceCall (req.str "path")] := by simp only [calls, h, hpath, if_true]
    rw [hcalls]
    split <;> exact (does_spacePath os w _).reply _
  case isFalse => exact does_onReply ..

theorem does_handleRequests (os : Os) (luna : Luna) (reg : Registry) (req : RequestData) (w : World) :
    Does (calls req) w (handleRequests os luna reg req w) := by
  by_cases ht : IsTransfer req
  · have hcalls : calls req = pathCalls req := by rcases ht with h | h <;> simp [calls, h]
    rw [hcalls]
    exact (handleRequests_transfer_cases os luna reg ht w).elim (·.2.does _) (·.2.does ht)
  unfold handleRequests
  cases h : req.methodType with
  | listMethod =>
    simp only [calls, pathCalls, h]
    exact does_checked ((does_listPath os w _).reply _)
  | getPropMethod => exact does_getPropertiesMethod os luna reg h w
  | removeMethod =>
    simp only [calls, pathCalls, h]
    exact does_checked ((does_removePath os w _).reply _)
  | renameMethod =>
    simp only [calls, pathCalls, h]
    exact does_checked ((does_renamePath os w _ _).reply _)
  | ejectMethod => exact does_checked (does_onReply ..)
  | listStoragesMethod | extraMethod => exact .none rfl
  | copyMethod | moveMethod => simp [IsTransfer, h] at ht

end USBStorageProvider

/-! ## The network drives -/

namespace NetworkProvider

/-- The path a drive is mounted at. -/
def sharePath (s : NetworkProvider) (driveId : Str) : Str := s.mSambaPathMap.getD driveId []

/-- The directory is made, the share mounted in it, and it is given to the session. -/
def mountCalls (net : Net) (req : RequestData) : List FsOp :=
  .shell ("mkdir -p ".toList ++ newMount net req) ::
    .mount (mountSource (share req).ip (share req).userName) (newMount net req) (newData net req) net.mount.isSome ::
    permissionCalls (newMount net req) req.sessionId

/-- Media servers are asked over the network, which is not logged. -/
def calls (net : Net) (req : RequestData) (s : NetworkProvider) : List FsOp :=
  match req.methodType with
  | .extraMethod => if operationType req = "mountSambaServer".toList then mountCalls net req else []
  | .ejectMethod =>
    [.umount (s.sharePath (req.str "driveId")) net.umount.isSome, .remove (s.sharePath (req.str "driveId"))]
  | .getPropMethod =>
    if isUpnp (req.str "driveId") then []
    else [spaceCall (if req.params.hasKey "path" then req.str "path" else s.sharePath (req.str "driveId"))]
  | .listMethod => if isUpnp (req.str "driveId") then [] else pathCalls req
  | _ => pathCalls req

theorem MountStep.does {net : Net} {req : RequestData} {s s' : NetworkProvider} {w w' : World}
    (h : MountStep net req s w s' w') : Does (mountCalls net req) w w' := by
  have hmade (made : FS) : Does [.shell ("mkdir -p ".toList ++ newMount net req)] w (afterMkdir net req w made) := .all rfl
  cases h with
  | incomplete _ _ _ world | known _ _ _ world => exact .none (by rw [world]; rfl)
  | unmade _ _ _ _ world =>
    have hdone : Does [.shell ("mkdir -p ".toList ++ newMount net req)] w w' := .all (by rw [world]; rfl)
    exact hdone.mono (by simp [mountCalls])
  | inUse _ _ made _ _ _ world =>
    rw [world]
    exact (hmade made).mono (by simp [mountCalls])
  | failed _ _ made _ _ unmounted _ world =>
    rw [world, mountCalls, unmounted]
    refine ((hmade made).append (.all rfl)).mono ?_
    simp
  | mounted _ _ made _ _ tree mount _ world =>
    rw [world, mountCalls, mount]
    have hmount : Does [.mount (mountSource (share req).ip (share req).userName) (newMount net req) (newData net req) true]
        (afterMkdir net req w made) { (afterMkdir net req w made).log (.mount (mountSource (share req).ip
          (share req).userName) (newMount net req) (newData net req) true) with fs := tree } := .all rfl
    exact ((hmade made).append hmount).append (does_setPathPerm _ (newMount net req) req.sessionId)

theorem EjectStep.does {os : Os} {net : Net} {req : RequestData} {s s' : NetworkProvider} {w w' : World}
    (h : EjectStep os net req s w s' w') :
    Does [.umount (s.sharePath (req.str "driveId")) net.umount.isSome, .remove (s.sharePath (req.str "driveId"))] w w' := by
  have hpath {path : Str} (h : s.mSambaPathMap[req.str "driveId"]? = some path) :
      s.sharePath (req.str "driveId") = path := by
    rw [sharePath, Std.ExtTreeMap.getD_eq_getD_getElem?, h, Option.getD_some]
  cases h with
  | refused _ _ world | unlisted _ _ _ world => exact .none (by rw [world]; rfl)
  | stuck _ path found busy _ world =>
    have hdone : Does [.umount path false] w w' := .all (by rw [world]; rfl)
    rw [hpath found, busy]
    exact hdone.mono (by simp)
  | ejected _ path found tree freed _ world =>
    rw [hpath found, freed]
    have humount : Does [.umount path true] w { w.log (.umount path true) with fs := tree } := .all rfl
    rw [world]
    exact humount.append (does_removePath os _ path)

theorem does_checked {calls : List FsOp} {req : RequestData} {s : NetworkProvider} {w : World} {go : World → World}
    (hgo : Does calls w (go w)) : Does calls w (s.checked req w go) := by
  rcases checked_cases req s w go with hr | ⟨-, -, h⟩
  · exact hr.does _
  · rw [h]; exact hgo

theorem does_list (os : Os) (net : Net) {req : RequestData} (h : req.methodType = .listMethod) (s : NetworkProvider)
    (w : World) : Does (calls net req s) w (list os net req s w).2 := by
  unfold list
  dsimp only
  split
  · exact .none rfl
  split
  case isTrue hu =>
    have hcalls : calls net req s = [.list (req.str "path")] := by simp_all [calls, pathCalls]
    rw [hcalls]
    split
    · exact .none rfl
    · exact (does_listPath os w _).reply _
  · split
    · exact .none rfl
    · split <;> exact .none rfl

theorem does_getProperties (os : Os) (net : Net) {req : RequestData} (h : req.methodType = .getPropMethod)
    (s : NetworkProvider) (w : World) : Does (calls net req s) w (getProperties os net req s w).2 := by
  have hpath : (s.lookSambaPath (req.str "driveId")).mSambaPathMap.getD (req.str "driveId") [] =
      s.sharePath (req.str "driveId") := Table.getD_touch ..
  unfold getProperties
  dsimp only
  split
  · exact .none rfl
  split
  · exact .none rfl
  case isFalse hu =>
    simp only [calls, h, if_neg hu, hpath]
    generalize (if req.params.hasKey "path" = true then req.str "path" else s.sharePath (req.str "driveId")) = path
    split
    · exact .none rfl
    · split <;> exact (does_spacePath os w path).reply _

theorem does_handleRequests (os : Os) (net : Net) (req : RequestData) (s : NetworkProvider) (w : World) :
    Does (calls net req s) w (handleRequests os net req s w).2 := by
  by_cases ht : IsTransfer req
  · have hcalls : calls net req s = pathCalls req := by rcases ht with h | h <;> simp [calls, h]
    rw [hcalls]
    exact (handleRequests_transfer_cases os net ht s w).elim (·.2.does _) (·.2.does ht)
  unfold handleRequests
  cases h : req.methodType with
  | extraMethod =>
    dsimp only
    unfold extraMethod
    split
    case isTrue hm =>
      have hcalls : calls net req s = mountCalls net req := by simp only [calls, h, if_pos hm.1]
      rw [hcalls]
      exact (mountStep_mountSambaServer net req s w).does
    split <;> exact .none rfl
  | listMethod => exact does_list os net h s w
  | getPropMethod => exact does_getProperties os net h s w
  | removeMethod =>
    simp only [calls, pathCalls, h]
    exact does_checked ((does_removePath os w _).reply _)
  | renameMethod =>
    simp only [calls, pathCalls, h]
    exact does_checked ((does_renamePath os w _ _).reply _)
  | listStoragesMethod => exact .none rfl
  | ejectMethod =>
    rw [calls, h]
    exact (ejectStep_eject os net req s w).does
  | copyMethod | moveMethod => simp [IsTransfer, h] at ht

end NetworkProvider

/-! ## The cloud drives -/

namespace GDriveProvider

/-- The file id the index of a drive has for a path. -/
def fileId (s : GDriveProvider) (driveId path : Str) : Str :=
  match s.mDriveIdUserDataMap[driveId]? with
  | some user => user.index.getFileId path
  | none => []

/-- The source of a transfer. -/
def sourceId (s : GDriveProvider) (req : RequestData) : Str := s.fileId (transferDrive req) (req.str "srcPath")

def uploadCalls (req : RequestData) : List FsOp :=
  [.readFile (req.str "srcPath"), .cloudInsert (baseName (req.str "srcPath"))]

def downloadCalls (req : RequestData) (s : GDriveProvider) : List FsOp :=
  [.cloudGet (s.sourceId req), .writeFile (req.str "destPath" ++ '/' :: baseName (req.str "srcPath"))]

/-- Listing files and reading their properties is not logged. -/
def calls (req : RequestData) (s : GDriveProvider) : List FsOp :=
  match req.methodType with
  | .removeMethod => [.cloudDelete (s.fileId (req.str "driveId") (req.str "path"))]
  | .renameMethod => [.cloudPatch (s.fileId (req.str "driveId") (req.str "path"))]
  | .copyMethod =>
    if req.str "destStorageType" = cloudName then
      if req.str "srcStorageType" = cloudName then [.cloudCopy (s.sourceId req)] else uploadCalls req
    else downloadCalls req s
  | .moveMethod =>
    if req.str "destStorageType" = cloudName then
      if req.str "srcStorageType" = cloudName then [.cloudCopy (s.sourceId req), .cloudDelete (s.sourceId req)]
      else uploadCalls req ++ [.remove (req.str "srcPath")]
    else downloadCalls req s ++ [.cloudDelete (s.sourceId req)]
  | _ => []

theorem does_guarded {calls : List FsOp} {driveId : Str} {req : RequestData} {s : GDriveProvider} {w : World}
    {go : GDriveProvider → GDriveUserData → World → GDriveProvider × World}
    (hgo : ∀ user, s.mDriveIdUserDataMap[driveId]? = some user →
      Does calls w (go (s.lookedUp driveId user) (looked user) w).2) : Does calls w (guarded driveId req s w go).2 := by
  rcases guarded_cases driveId req s w go with ⟨-, r, s', h, -⟩ | ⟨-, user, hu, ⟨-, r, h, -⟩ | ⟨-, h⟩⟩
  · rw [h]; exact .none rfl
  · rw [h]; exact .none rfl
  · rw [h]; exact hgo user hu

theorem does_transfer {calls : List FsOp} {req : RequestData} {s : GDriveProvider} {w : World}
    {go : GDriveProvider → GDriveUserData → World → GDriveProvider × World}
    (hgo : ∀ user, s.mDriveIdUserDataMap[transferDrive req]? = some user →
      Does calls w (go (s.lookedUp (transferDrive req) user) (looked user) w).2) : Does calls w (s.transfer req w go).2 := by
  rcases transfer_cases req s w go with ⟨-, hd⟩ | ⟨user, ha, h⟩
  · exact hd.does _
  · rw [h]; exact hgo user ha.known

theorem does_finish {calls : List FsOp} {drive : Drive} {req : RequestData} {s : GDriveProvider} {user : GDriveUserData}
    {w : World} {result : World × Bool} (h : Does calls w result.1) :
    Does calls w (finish drive req s user result).2 := by
  unfold finish
  split <;> exact h

theorem does_andThen {calls calls' : List FsOp} {w : World} {result : World × Bool} {next : World → World × Bool}
    (h : Does calls w result.1) (hnext : ∀ w, Does calls' w (next w).1) :
    Does (calls ++ calls') w (andThen result next).1 := by
  unfold andThen
  split
  · exact h.append (hnext _)
  · exact h.mono (List.sublist_append_left _ _)

theorem does_deleteFile (drive : Drive) (fileId : Str) (w : World) :
    Does [.cloudDelete fileId] w (deleteFile drive fileId w).1 := by
  unfold deleteFile
  cases drive.delete <;> exact .all rfl

theorem does_patchFile (drive : Drive) (fileId title : Str) (w : World) :
    Does [.cloudPatch fileId] w (patchFile drive fileId title w).1 := by
  unfold patchFile
  extract_lets w'
  split <;> exact .all rfl

theorem does_copyFile (drive : Drive) (fileId parent : Str) (w : World) :
    Does [.cloudCopy fileId] w (copyFile drive fileId parent w).1 := by
  unfold copyFile
  extract_lets w'
  split <;> exact .all rfl

theorem does_insertFile (drive : Drive) (parent title : Str) (content : List UInt8) (w : World) :
    Does [.cloudInsert title] w (insertFile drive parent title content w).1 := by
  unfold insertFile
  cases drive.insert <;> exact .all rfl

theorem does_upload (drive : Drive) (user : GDriveUserData) (req : RequestData) (w : World) :
    Does (uploadCalls req) w (upload drive user req w).1 := by
  have hstep := uploadStep drive user req w
  generalize upload drive user req w = result at hstep
  cases hstep with
  | refused => exact .none rfl
  | sent =>
    have hread : Does [.readFile (req.str "srcPath")] w (w.log (.readFile (req.str "srcPath"))) := .all rfl
    exact hread.append (does_insertFile ..)

theorem does_download (os : Os) (drive : Drive) (user : GDriveUserData) (req : RequestData) (w : World) :
    Does [.cloudGet (user.index.getFileId (req.str "srcPath")),
      .writeFile (req.str "destPath" ++ '/' :: baseName (req.str "srcPath"))] w (download os drive user req w).1 := by
  have hget : Does [.cloudGet (user.index.getFileId (req.str "srcPath"))] w
      (w.log (.cloudGet (user.index.getFileId (req.str "srcPath")))) := .all rfl
  have hstep := downloadStep os drive user req w
  generalize download os drive user req w = result at hstep
  cases hstep with
  | refused => exact .none rfl
  | missing | unopened => exact hget.mono (by simp)
  | written => exact hget.append (.all rfl)

theorem does_remove (drive : Drive) {req : RequestData} (h : req.methodType = .removeMethod) (s : GDriveProvider)
    (w : World) : Does (calls req s) w (remove drive req s w).2 := by
  apply does_guarded
  intro user hu
  have hcalls : calls req s = [.cloudDelete ((looked user).index.getFileId (req.str "path"))] := by
    simp only [calls, h, fileId, hu, looked]
  have hdone := does_deleteFile drive ((looked user).index.getFileId (req.str "path")) w
  rw [hcalls]
  dsimp only
  split
  · exact .none rfl
  split
  all_goals
    next e =>
      rw [e] at hdone
      exact hdone

theorem does_rename (drive : Drive) {req : RequestData} (h : req.methodType = .renameMethod) (s : GDriveProvider)
    (w : World) : Does (calls req s) w (rename drive req s w).2 := by
  apply does_guarded
  intro user hu
  have hcalls : calls req s = [.cloudPatch ((looked user).index.getFileId (req.str "path"))] := by
    simp only [calls, h, fileId, hu, looked]
  have hdone := does_patchFile drive ((looked user).index.getFileId (req.str "path")) (req.str "newName") w
  rw [hcalls]
  dsimp only
  split
  · exact .none rfl
  split
  all_goals
    next e =>
      rw [e] at hdone
      exact hdone

theorem sourceId_eq {s : GDriveProvider} {req : RequestData} {user : GDriveUserData}
    (hu : s.mDriveIdUserDataMap[transferDrive req]? = some user) :
    s.sourceId req = (looked user).index.getFileId (req.str "srcPath") := by
  simp only [sourceId, fileId, hu, looked]

theorem does_copy (os : Os) (drive : Drive) {req : RequestData} (h : req.methodType = .copyMethod) (s : GDriveProvider)
    (w : World) : Does (calls req s) w (copy os drive req s w).2 := by
  apply does_transfer
  intro user hu
  dsimp only
  split
  case isTrue hdest =>
    split
    case isTrue hsrc =>
      have hcalls : calls req s = [.cloudCopy ((looked user).index.getFileId (req.str "srcPath"))] := by
        simp only [calls, h, if_pos hdest, if_pos hsrc, sourceId_eq hu]
      rw [hcalls]
      split
      · exact .none rfl
      · exact does_finish (does_copyFile ..)
    case isFalse hsrc =>
      have hcalls : calls req s = uploadCalls req := by simp only [calls, h, if_pos hdest, if_neg hsrc]
      rw [hcalls]
      exact does_finish (does_upload ..)
  case isFalse hdest =>
    have hcalls : calls req s = downloadCalls req s := by simp only [calls, h, if_neg hdest]
    rw [hcalls, downloadCalls, sourceId_eq hu]
    exact does_finish (does_download ..)

theorem does_move (os : Os) (drive : Drive) {req : RequestData} (h : req.methodType = .moveMethod) (s : GDriveProvider)
    (w : World) : Does (calls req s) w (move os drive req s w).2 := by
  apply does_transfer
  intro user hu
  dsimp only
  split
  case isTrue hdest =>
    split
    case isTrue hsrc =>
      have hcalls : calls req s = [.cloudCopy ((looked user).index.getFileId (req.str "srcPath"))] ++
          [.cloudDelete ((looked user).index.getFileId (req.str "srcPath"))] := by
        simp only [calls, h, if_pos hdest, if_pos hsrc, sourceId_eq hu, List.singleton_append]
      rw [hcalls]
      split
      · exact .none rfl
      · exact does_finish (does_andThen (does_copyFile ..) (does_deleteFile drive _))
    case isFalse hsrc =>
      have hcalls : calls req s = uploadCalls req ++ [.remove (req.str "srcPath")] := by
        simp only [calls, h, if_pos hdest, if_neg hsrc]
      rw [hcalls]
      exact does_finish (does_andThen (does_upload ..) fun w => does_removePath os w _)
  case isFalse hdest =>
    have hcalls : calls req s = downloadCalls req s ++ [.cloudDelete (s.sourceId req)] := by
      simp only [calls, h, if_neg hdest]
    rw [hcalls, downloadCalls, sourceId_eq hu]
    exact does_finish (does_andThen (does_download ..) (does_deleteFile drive _))

theorem does_handleRequests (os : Os) (drive : Drive) (req : RequestData) (s : GDriveProvider) (w : World) :
    Does (calls req s) w (handleRequests os drive req s w).2 := by
  unfold handleRequests
  cases h : req.methodType with
  | extraMethod =>
    refine .none ?_
    unfold extraMethod attachCloud authenticateCloud setToken
    dsimp only
    repeat' split
    all_goals rfl
  | listMethod =>
    apply does_guarded
    intro user _
    dsimp only
    repeat' split
    all_goals exact .none rfl
  | getPropMethod =>
    apply does_guarded
    intro user _
    dsimp only
    repeat' split
    all_goals exact .none rfl
  | removeMethod => exact does_remove drive h s w
  | renameMethod => exact does_rename drive h s w
  | copyMethod => exact does_copy os drive h s w
  | moveMethod => exact does_move os drive h s w
  | listStoragesMethod | ejectMethod => exact .none rfl

end GDriveProvider

/-! ## Runs -/

namespace Service

/-- What a step may do to the files, the mounts and the cloud drives. -/
def calls (s : Service) : Label → List FsOp
  | .request env req =>
    match route req with
    | .internal => InternalStorageProvider.calls req
    | .usb => USBStorageProvider.calls req
    | .network => NetworkProvider.calls env.net req s.network
    | .gdrive => GDriveProvider.calls req s.gdrive
  | _ => []

theorem does_step (s : Service) (l : Label) : Does (s.calls l) s.world (s.step l).world := by
  cases l with
  | devices root req | others fs cloud => exact .none rfl
  | request env req =>
    simp only [calls, step, handle]
    cases route req with
    | internal => exact InternalStorageProvider.does_handleRequests ..
    | usb => exact USBStorageProvider.does_handleRequests ..
    | network => exact NetworkProvider.does_handleRequests ..
    | gdrive => exact GDriveProvider.does_handleRequests ..

/-- What a step does. -/
def did (s : Service) (l : Label) : List FsOp := newOps s.world (s.step l).world

theorem ops_run (s : Service) (ls : List Label) :
    (Runs.run step s ls).world.ops = s.world.ops ++ Runs.logged step did s ls := by
  induction ls generalizing s with
  | nil => exact (List.append_nil _).symm
  | cons l ls ih => rw [Runs.run_cons, ih, (s.does_step l).newOps.2, Runs.logged, List.append_assoc, did]

/-- In every run, whatever else goes on, each request does only what its method, its parameters and
the tables of its provider call for, at most once each and in their order; the log of the run is
what its requests did. -/
theorem run_does_calls (fs : FS) (cloud : Table CloudFile) (ls : List Label) :
    (Runs.run step (start fs cloud) ls).world.ops = Runs.logged step did (start fs cloud) ls ∧
      Runs.Meets step (fun s l => (did s l).Sublist (s.calls l)) (start fs cloud) ls :=
  ⟨ops_run _ ls, (Runs.meets_true ..).imp fun s l _ => (s.does_step l).newOps.1⟩

end Service

end StorageAccess
