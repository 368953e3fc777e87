import StorageAccess.Proofs.Mounting
/-!
# How often a request is answered

Every handler answers once, with two exceptions: the extra methods of the
internal and the USB provider are not answered at all, and the shared validator
answers twice when both of its checks refuse.
-/

open Posix Json

namespace StorageAccess

open SAFUtilityOperation

/-- The handler sent `n` replies. -/
def Answered (n : Nat) (w w' : World) : Prop := w'.replies.length = w.replies.length + n

theorem answered_reply (w : World) (r : JValue) : Answered 1 w (w.reply r) := by
  simp [Answered]

theorem Refused.answered {w w' : World} (h : Refused w w') : Answered 1 w w' := by
  obtain ⟨r, rfl⟩ := h
  exact answered_reply w r

theorem answered_of_eq {n : Nat} {w w₁ w' : World} (h : w₁.replies = w.replies) (ha : Answered n w₁ w') :
    Answered n w w' := by
  rw [Answered, ← h]; exact ha

@[simp]
theorem getInternalPath_replies (os : Os) (w : World) (sessionId : Str) :
    (getInternalPath os w sessionId).1.replies = w.replies := by
  unfold getInternalPath
  dsimp only
  split
  · rfl
  · split <;> rfl

theorem answered_polled (errorText : Int → String) (os : Os) (req : RequestData) (w : World) :
    Answered 1 w (polled errorText os req w) := by
  have hr : (transferOp os req w).1.replies = w.replies := by unfold transferOp; split <;> rfl
  rw [polled_eq]
  exact answered_of_eq hr (answered_reply _ _)

/-! ## The validator -/

/-- How often a request that reaches the validator is answered. -/
def validatorReplies (w : World) (req : RequestData) : Nat := max 1 (refusals w req).length

theorem answered_validator {w : World} {req : RequestData} {go : World → World} (hgo : Answered 1 w (go w)) :
    Answered (validatorReplies w req) w (afterValidator w req go) := by
  unfold afterValidator
  obtain ⟨⟨w', b⟩, hr⟩ : ∃ r, validateInterProviderOperation w req = r := ⟨_, rfl⟩
  rw [hr]
  cases b with
  | true =>
    obtain ⟨rfl, hu, hf⟩ := validate_true hr
    simpa [validatorReplies, refusals, hu, hf] using hgo
  | false =>
    obtain ⟨rfl, hne⟩ := validate_false hr
    have hpos : 1 ≤ (refusals w req).length := List.length_pos_iff.2 hne
    simp [Answered, validatorReplies, hpos]

theorem validatorReplies_eq_one_iff (w : World) (req : RequestData) :
    validatorReplies w req = 1 ↔ ¬ (isUpnpDestination req = true ∧ ¬ PathsAccepted w req) := by
  rw [← faultyEndpoint_eq_none_iff]
  unfold validatorReplies refusals
  cases isUpnpDestination req <;> cases faultyEndpoint w req <;> simp

/-! ## The internal provider -/

namespace InternalStorageProvider

theorem answered_checked {req : RequestData} {w : World} {go : World → World} (hgo : Answered 1 w (go w)) :
    Answered 1 w (checked req w go) := by
  rcases checked_cases req w go with hr | ⟨-, h⟩
  · exact hr.answered
  · rw [h]; exact hgo

theorem answered_transfer {req : RequestData} {w : World} {go : World → World} (hgo : Answered 1 w (go w)) :
    Answered (open Classical in if Ready req then validatorReplies w req else 1) w (transfer req w go) := by
  rcases transfer_cases req w go with ⟨hn, hr⟩ | ⟨hy, h⟩
  · rw [if_neg hn]; exact hr.answered
  · rw [if_pos hy, h]; exact answered_validator hgo

theorem sought_replies (os : Os) (req : RequestData) (w : World) : (sought os req w).1.replies = w.replies := by
  unfold sought
  split
  · exact getInternalPath_replies os w req.sessionId
  · rfl

theorem answered_getProperties (os : Os) (req : RequestData) (w : World) : Answered 1 w (getProperties os req w) := by
  have hstep := propertiesStep os req w
  generalize getProperties os req w = w' at hstep
  cases hstep with
  | otherDrive => exact answered_reply _ _
  | refused => exact answered_of_eq (sought_replies os req w) (answered_reply _ _)
  | failed own valid done op =>
    have hlog : ((sought os req w).1.logIf done op).replies = w.replies := sought_replies os req w
    exact answered_of_eq hlog (answered_reply _ _)
  | described own valid done op =>
    have hown := getInternalPath_replies os ((sought os req w).1.logIf done op) req.sessionId
    exact answered_of_eq (hown.trans (sought_replies os req w)) (answered_reply _ _)

theorem answered_of_method (os : Os) (req : RequestData) (w : World)
    (hm : req.methodType ∉ [.extraMethod, .copyMethod, .moveMethod]) : Answered 1 w (handleRequests os req w) := by
  unfold handleRequests
  cases h : req.methodType with
  | listMethod => exact answered_checked (answered_of_eq rfl (answered_reply _ _))
  | getPropMethod => exact answered_getProperties os req w
  | removeMethod => exact answered_checked (answered_of_eq rfl (answered_reply _ _))
  | renameMethod => exact answered_checked (answered_of_eq rfl (answered_reply _ _))
  | ejectMethod => exact answered_reply _ _
  | listStoragesMethod => exact answered_of_eq (getInternalPath_replies ..) (answered_reply _ _)
  | copyMethod | moveMethod | extraMethod => simp [h] at hm

theorem answered_of_isTransfer (os : Os) (req : RequestData) (w : World) (hm : IsTransfer req) :
    Answered (open Classical in if Ready req then validatorReplies w req else 1) w (handleRequests os req w) := by
  rw [handleRequests_transfer os hm]
  exact answered_transfer (answered_polled ..)

end InternalStorageProvider

/-! ## The USB provider -/

namespace USBStorageProvider

theorem answered_checked {reg : Registry} {unmounted : USBErrors} {req : RequestData} {w : World} {go : World → World}
    (hgo : Answered 1 w (go w)) : Answered 1 w (checked reg unmounted req w go) := by
  rcases checked_cases reg unmounted req w go with hr | ⟨-, -, h⟩
  · exact hr.answered
  · rw [h]; exact hgo

theorem answered_transfer {reg : Registry} {req : RequestData} {w : World} {go : World → World}
    (hgo : Answered 1 w (go w)) :
    Answered (open Classical in if Ready reg req then validatorReplies w req else 1) w (transfer reg req w go) := by
  rcases transfer_cases reg req w go with ⟨hn, hr⟩ | ⟨hy, h⟩
  · rw [if_neg hn]; exact hr.answered
  · rw [if_pos hy, h]; exact answered_validator hgo

/-- A chain of calls to the device manager ends in one reply, however long it is. -/
theorem answered_onReply (luna : Luna) (nextReq responses : List JValue) (root : JValue) (w : World) :
    Answered 1 w (onReply luna nextReq responses root w) := by
  rw [onReply_eq]
  exact answered_reply _ _

theorem answered_getPropertiesMethod (os : Os) (luna : Luna) (reg : Registry) (req : RequestData) (w : World) :
    Answered 1 w (getPropertiesMethod os luna reg req w) := by
  refine answered_checked ?_
  dsimp only
  split
  · exact answered_reply _ _
  split
  · exact answered_reply _ _
  split
  · split <;> exact answered_of_eq rfl (answered_reply _ _)
  · exact answered_onReply ..

theorem answered_of_method (os : Os) (luna : Luna) (reg : Registry) (req : RequestData) (w : World)
    (hm : req.methodType ∉ [.extraMethod, .copyMethod, .moveMethod, .listStoragesMethod]) :
    Answered 1 w (handleRequests os luna reg req w) := by
  unfold handleRequests
  cases h : req.methodType with
  | listMethod => exact answered_checked (answered_of_eq rfl (answered_reply _ _))
  | getPropMethod => exact answered_getPropertiesMethod os luna reg req w
  | removeMethod => exact answered_checked (answered_of_eq rfl (answered_reply _ _))
  | renameMethod => exact answered_checked (answered_of_eq rfl (answered_reply _ _))
  | ejectMethod => exact answered_checked (answered_onReply ..)
  | copyMethod | moveMethod | extraMethod | listStoragesMethod => simp [h] at hm

theorem answered_of_isTransfer (os : Os) (luna : Luna) (reg : Registry) (req : RequestData) (w : World)
    (hm : IsTransfer req) :
    Answered (open Classical in if Ready reg req then validatorReplies w req else 1) w
      (handleRequests os luna reg req w) := by
  rw [handleRequests_transfer os luna reg hm]
  exact answered_transfer (answered_polled ..)

end USBStorageProvider

/-! ## The network provider -/

namespace NetworkProvider

theorem answered_checked {req : RequestData} {s : NetworkProvider} {w : World} {go : World → World}
    (hgo : Answered 1 w (go w)) : Answered 1 w (s.checked req w go) := by
  rcases checked_cases req s w go with hr | ⟨-, -, h⟩
  · exact hr.answered
  · rw [h]; exact hgo

theorem answered_mountSambaServer (net : Net) (req : RequestData) (s : NetworkProvider) (w : World) :
    Answered 1 w (mountSambaServer net req s w).2 := by
  cases mountStep_mountSambaServer net req s w with
  | incomplete text missing tables world => exact world ▸ answered_reply _ _
  | known complete found tables world => exact world ▸ answered_reply _ _
  | unmade complete new nodir tables world => exact world ▸ answered_reply _ _
  | inUse complete new made dir used tables world => exact world ▸ answered_reply _ _
  | failed complete new made dir free unmounted tables world => exact world ▸ answered_reply _ _
  | mounted complete new made dir free tree mount tables world =>
    rw [world]
    simp [Answered, afterMount_replies]

theorem answered_extraMethod (net : Net) (req : RequestData) (s : NetworkProvider) (w : World) :
    Answered 1 w (extraMethod net req s w).2 := by
  unfold extraMethod
  split
  · exact answered_mountSambaServer net req s w
  split
  · exact answered_reply _ _
  · exact answered_reply _ _

theorem answered_list (os : Os) (net : Net) (req : RequestData) (s : NetworkProvider) (w : World) :
    Answered 1 w (list os net req s w).2 := by
  unfold list
  dsimp only
  repeat' split
  all_goals exact answered_reply _ _

theorem answered_getProperties (os : Os) (net : Net) (req : RequestData) (s : NetworkProvider) (w : World) :
    Answered 1 w (getProperties os net req s w).2 := by
  unfold getProperties
  dsimp only
  repeat' split
  all_goals exact answered_reply _ _

theorem answered_eject (os : Os) (net : Net) (req : RequestData) (s : NetworkProvider) (w : World) :
    Answered 1 w (eject os net req s w).2 := by
  cases ejectStep_eject os net req s w with
  | refused foreign tables world => exact world ▸ answered_reply _ _
  | unlisted own lost tables world => exact world ▸ answered_reply _ _
  | stuck own path found busy tables world => exact world ▸ answered_reply _ _
  | ejected own path found tree freed tables world => exact world ▸ answered_reply _ _

theorem answered_of_method (os : Os) (net : Net) (req : RequestData) (s : NetworkProvider) (w : World)
    (hm : req.methodType ∉ [.copyMethod, .moveMethod]) : Answered 1 w (handleRequests os net req s w).2 := by
  unfold handleRequests
  cases h : req.methodType with
  | extraMethod => exact answered_extraMethod net req s w
  | listMethod => exact answered_list os net req s w
  | getPropMethod => exact answered_getProperties os net req s w
  | removeMethod => exact answered_checked (answered_of_eq rfl (answered_reply _ _))
  | renameMethod => exact answered_checked (answered_of_eq rfl (answered_reply _ _))
  | listStoragesMethod => exact answered_reply _ _
  | ejectMethod => exact answered_eject os net req s w
  | copyMethod | moveMethod => simp [h] at hm

theorem answered_of_isTransfer (os : Os) (net : Net) (req : RequestData) (s : NetworkProvider) (w : World)
    (hm : IsTransfer req) : Answered (validatorReplies w req) w (handleRequests os net req s w).2 := by
  rw [handleRequests_transfer os net hm]
  refine answered_validator ?_
  rcases owned_cases req s (polled getInternalErrorString os req) w with ⟨-, hr⟩ | ⟨-, h⟩
  · exact hr.answered
  · rw [h]; exact answered_polled ..

end NetworkProvider

/-! ## The cloud provider -/

/-- No call to the library throws. -/
structure Drive.Returns (drive : Drive) : Prop where
  get : ∀ id, (drive.get id).isSome
  about : drive.about.isSome
  copy : drive.copy ≠ .threw
  insert : drive.insert ≠ .threw
  patch : drive.patch ≠ .threw
  delete : drive.delete ≠ .threw

namespace GDriveProvider

theorem answered_guarded {driveId : Str} {req : RequestData} {s : GDriveProvider} {w : World}
    {go : GDriveProvider → GDriveUserData → World → GDriveProvider × World}
    (hgo : ∀ s user, Answered 1 w (go s user w).2) : Answered 1 w (guarded driveId req s w go).2 := by
  rcases guarded_cases driveId req s w go with ⟨-, r, s', h, -⟩ | ⟨-, user, -, ⟨-, r, h, -⟩ | ⟨-, h⟩⟩
  · rw [h]; exact answered_reply _ _
  · rw [h]; exact answered_reply _ _
  · rw [h]; exact hgo _ _

theorem answered_extraMethod (drive : Drive) (req : RequestData) (s : GDriveProvider) (w : World) :
    Answered 1 w (extraMethod drive req s w).2 := by
  unfold extraMethod attachCloud authenticateCloud setToken
  dsimp only
  repeat' split
  all_goals exact answered_reply _ _

theorem listPage_isSome {drive : Drive} (hd : drive.Returns) (files : List (Str × Str)) :
    ∃ contents, listPage drive files = some contents := by
  induction files with
  | nil => exact ⟨[], rfl⟩
  | cons entry files ih =>
    obtain ⟨contents, hc⟩ := ih
    obtain ⟨file, hf⟩ := Option.isSome_iff_exists.1 (hd.get entry.2)
    obtain ⟨about, ha⟩ := Option.isSome_iff_exists.1 hd.about
    exact ⟨fileObject entry.1 file about :: contents, by simp [listPage, hf, ha, hc]⟩

theorem answered_list {drive : Drive} (hd : drive.Returns) (req : RequestData) (s : GDriveProvider) (w : World) :
    Answered 1 w (list drive req s w).2 := by
  apply answered_guarded
  intro s user
  extract_lets s' index files start stop page
  split
  · exact answered_reply _ _
  obtain ⟨contents, hc⟩ := listPage_isSome hd page
  rw [hc]
  exact answered_reply _ _

theorem answered_getProperties {drive : Drive} (hd : drive.Returns) (req : RequestData) (s : GDriveProvider) (w : World) :
    Answered 1 w (getProperties drive req s w).2 := by
  apply answered_guarded
  intro s user
  extract_lets root path
  obtain ⟨file, hf⟩ := Option.isSome_iff_exists.1 (hd.get path)
  obtain ⟨about, ha⟩ := Option.isSome_iff_exists.1 hd.about
  rw [hf, ha]
  exact answered_reply _ _

/-- A step that goes on has not replied; one that ends the handler has, once. -/
def Reported (w : World) (result : World × Bool) : Prop :=
  if result.2 then result.1.replies = w.replies else Answered 1 w result.1

theorem answered_finish {drive : Drive} {req : RequestData} {s : GDriveProvider} {user : GDriveUserData} {w : World}
    {result : World × Bool} (h : Reported w result) : Answered 1 w (finish drive req s user result).2 := by
  obtain ⟨w', b⟩ := result
  cases b with
  | true => exact answered_of_eq h (answered_reply _ _)
  | false => exact h

theorem reported_andThen {w : World} {result : World × Bool} {next : World → World × Bool} (h : Reported w result)
    (hnext : ∀ w', Reported w' (next w')) : Reported w (andThen result next) := by
  obtain ⟨w', b⟩ := result
  cases b with
  | false => exact h
  | true =>
    have e : w'.replies = w.replies := h
    have hn := hnext w'
    unfold Reported Answered at hn
    rwa [e] at hn

theorem reported_deleteFile {drive : Drive} (hd : drive.Returns) (fileId : Str) (w : World) :
    Reported w (deleteFile drive fileId w) := by
  unfold deleteFile
  cases h : drive.delete with
  | threw => exact absurd h hd.delete
  | done | error => rfl

theorem reported_patchFile {drive : Drive} (hd : drive.Returns) (fileId title : Str) (w : World) :
    Reported w (patchFile drive fileId title w) := by
  unfold patchFile
  extract_lets w'
  split
  · rfl
  case h_2 h => exact absurd h hd.patch
  · rfl

theorem reported_copyFile {drive : Drive} (hd : drive.Returns) (fileId parent : Str) (w : World) :
    Reported w (copyFile drive fileId parent w) := by
  unfold copyFile
  extract_lets w'
  split
  · rfl
  case h_2 h => exact absurd h hd.copy
  · rfl

theorem reported_upload {drive : Drive} (hd : drive.Returns) (user : GDriveUserData) (req : RequestData) (w : World) :
    Reported w (upload drive user req w) := by
  have hstep := uploadStep drive user req w
  generalize upload drive user req w = result at hstep
  cases hstep with
  | refused invalid code => exact answered_reply w _
  | sent valid =>
    unfold insertFile
    cases h : drive.insert with
    | threw => exact absurd h hd.insert
    | done | error => rfl

theorem reported_download (os : Os) {drive : Drive} (hd : drive.Returns) (user : GDriveUserData) (req : RequestData)
    (w : World) : Reported w (download os drive user req w) := by
  have hstep := downloadStep os drive user req w
  generalize download os drive user req w = result at hstep
  cases hstep with
  | refused invalid code => exact answered_reply w _
  | missing valid get =>
    have hfound := hd.get (user.index.getFileId (req.str "srcPath"))
    simp [get] at hfound
  | unopened => exact answered_reply _ _
  | written => rfl

theorem answered_remove {drive : Drive} (hd : drive.Returns) (req : RequestData) (s : GDriveProvider) (w : World) :
    Answered 1 w (remove drive req s w).2 := by
  apply answered_guarded
  intro s user
  extract_lets fileId
  split
  · exact answered_reply _ _
  have h := reported_deleteFile hd fileId w
  split
  case h_1 e => rw [e] at h; exact answered_of_eq h (answered_reply _ _)
  case h_2 e => rw [e] at h; exact h

theorem answered_rename {drive : Drive} (hd : drive.Returns) (req : RequestData) (s : GDriveProvider) (w : World) :
    Answered 1 w (rename drive req s w).2 := by
  apply answered_guarded
  intro s user
  extract_lets fileId
  split
  · exact answered_reply _ _
  have h := reported_patchFile hd fileId (req.str "newName") w
  split
  case h_1 e => rw [e] at h; exact answered_of_eq h (answered_reply _ _)
  case h_2 e => rw [e] at h; exact h

theorem answered_transfer {req : RequestData} {s : GDriveProvider} {w : World}
    {go : GDriveProvider → GDriveUserData → World → GDriveProvider × World}
    (hgo : ∀ s user, Answered 1 w (go s user w).2) : Answered (validatorReplies w req) w (s.transfer req w go).2 := by
  let work (w : World) : World :=
    (if req.str "srcStorageType" = cloudName ∧ req.str "destStorageType" = cloudName ∧
        req.str "srcDriveId" ≠ req.str "destDriveId" then
      (s, w.reply (errorReply SAFErrors.safErrorNotSupported.code "Not supported yet"))
    else guarded (transferDrive req) req s w go).2
  have e : (s.transfer req w go).2 = afterValidator w req work := by
    unfold transfer afterValidator
    obtain ⟨w', b⟩ := validateInterProviderOperation w req
    cases b <;> rfl
  rw [e]
  refine answered_validator ?_
  simp only [work]
  split
  · exact answered_reply _ _
  · exact answered_guarded hgo

theorem answered_copy (os : Os) {drive : Drive} (hd : drive.Returns) (req : RequestData) (s : GDriveProvider) (w : World) :
    Answered (validatorReplies w req) w (copy os drive req s w).2 := by
  apply answered_transfer
  intro s user
  extract_lets srcFileID
  split
  · split
    · split
      · exact answered_reply _ _
      · exact answered_finish (reported_copyFile hd _ _ w)
    · exact answered_finish (reported_upload hd user req w)
  · exact answered_finish (reported_download os hd user req w)

theorem answered_move (os : Os) {drive : Drive} (hd : drive.Returns) (req : RequestData) (s : GDriveProvider) (w : World) :
    Answered (validatorReplies w req) w (move os drive req s w).2 := by
  apply answered_transfer
  intro s user
  extract_lets srcFileID copied
  have hdelete := reported_deleteFile hd srcFileID
  split
  · split
    · split
      · exact answered_reply _ _
      · exact answered_finish (reported_andThen (reported_copyFile hd _ _ w) hdelete)
    · exact answered_finish (reported_andThen (reported_upload hd user req w) fun _ => rfl)
  · exact answered_finish (reported_andThen (reported_download os hd user req w) hdelete)

theorem answered_of_method (os : Os) {drive : Drive} (hd : drive.Returns) (req : RequestData) (s : GDriveProvider)
    (w : World) (hm : req.methodType ∉ [.copyMethod, .moveMethod]) :
    Answered 1 w (handleRequests os drive req s w).2 := by
  unfold handleRequests
  cases h : req.methodType with
  | extraMethod => exact answered_extraMethod drive req s w
  | listMethod => exact answered_list hd req s w
  | getPropMethod => exact answered_getProperties hd req s w
  | removeMethod => exact answered_remove hd req s w
  | renameMethod => exact answered_rename hd req s w
  | listStoragesMethod | ejectMethod => exact answered_reply _ _
  | copyMethod | moveMethod => simp [h] at hm

theorem answered_of_isTransfer (os : Os) {drive : Drive} (hd : drive.Returns) (req : RequestData) (s : GDriveProvider)
    (w : World) (hm : IsTransfer req) : Answered (validatorReplies w req) w (handleRequests os drive req s w).2 := by
  unfold handleRequests
  rcases hm with h | h <;> rw [h]
  · exact answered_copy os hd req s w
  · exact answered_move os hd req s w

end GDriveProvider

/-! ## The service -/

/-- The checks a provider makes of a copy or move request before the shared validator. -/
def Service.Ready (s : Service) (req : RequestData) : Prop :=
  match route req with
  | .internal => InternalStorageProvider.Ready req
  | .usb => USBStorageProvider.Ready s.usb req
  | .network => True
  | .gdrive => True

/-- An extra method of a provider whose switch has no case for it. -/
def Unhandled (req : RequestData) : Prop :=
  req.methodType = .extraMethod ∧ (route req = .internal ∨ route req = .usb)

open Classical in
/-- How often the service answers a request. -/
noncomputable def Service.repliesTo (s : Service) (req : RequestData) : Nat :=
  if Unhandled req then 0
  else if IsTransfer req then if s.Ready req then validatorReplies s.world req else 1
  else 1

theorem answered_handle (env : Env) (hret : env.drive.Returns) (req : RequestData)
    (hm : req.methodType ≠ .listStoragesMethod) (s : Service) :
    Answered (s.repliesTo req) s.world (s.handle env req).world := by
  unfold Service.repliesTo
  by_cases hext : Unhandled req
  · rw [if_pos hext]
    obtain ⟨he, hr | hr⟩ := hext
    · simp [Service.handle, hr, InternalStorageProvider.handleRequests, he, Answered]
    · simp [Service.handle, hr, USBStorageProvider.handleRequests, he, Answered]
  rw [if_neg hext]
  by_cases ht : IsTransfer req
  · rw [if_pos ht]
    unfold Service.handle Service.Ready
    cases route req with
    | internal => exact InternalStorageProvider.answered_of_isTransfer env.os req s.world ht
    | usb => exact USBStorageProvider.answered_of_isTransfer env.os env.luna s.usb req s.world ht
    | network => simpa using NetworkProvider.answered_of_isTransfer env.os env.net req s.network s.world ht
    | gdrive => simpa using GDriveProvider.answered_of_isTransfer env.os hret req s.gdrive s.world ht
  · rw [if_neg ht]
    have hcm : req.methodType ≠ .copyMethod ∧ req.methodType ≠ .moveMethod := not_or.1 ht
    unfold Service.handle
    cases hr : route req with
    | internal =>
      have he : req.methodType ≠ .extraMethod := fun he => hext ⟨he, .inl hr⟩
      exact InternalStorageProvider.answered_of_method env.os req s.world (by simp [he, hcm])
    | usb =>
      have he : req.methodType ≠ .extraMethod := fun he => hext ⟨he, .inr hr⟩
      exact USBStorageProvider.answered_of_method env.os env.luna s.usb req s.world (by simp [he, hcm, hm])
    | network => exact NetworkProvider.answered_of_method env.os env.net req s.network s.world (by simp [hcm])
    | gdrive => exact GDriveProvider.answered_of_method env.os hret req s.gdrive s.world (by simp [hcm])

/-- An accepted request is answered exactly once, unless it is an extra method no
provider handles, or a transfer to a media server with a path that is refused too. -/
theorem answered_once_iff (env : Env) (hret : env.drive.Returns) (method : MethodType) (payload : JValue)
    (sessionId : Str) (req : RequestData) (hacc : SAFLunaService.accept method payload sessionId = some req)
    (hm : method ≠ .listStoragesMethod) (s : Service) :
    Answered 1 s.world (s.handle env req).world ↔
      ¬ Unhandled req ∧
        ¬ (IsTransfer req ∧ s.Ready req ∧ isUpnpDestination req = true ∧ ¬ PathsAccepted s.world req) := by
  have hsent := answered_handle env hret req (methodType_of_accept hacc ▸ hm) s
  have hone : Answered 1 s.world (s.handle env req).world ↔ s.repliesTo req = 1 := by
    unfold Answered at hsent ⊢
    omega
  have hval := validatorReplies_eq_one_iff s.world req
  rw [hone, Service.repliesTo]
  by_cases hu : Unhandled req
  · simp [hu]
  by_cases ht : IsTransfer req
  · by_cases hr : s.Ready req <;> simp_all
  · simp [hu, ht]

theorem returns_quiet : Drive.quiet.Returns where
  get _ := rfl
  about := rfl
  copy := by decide
  insert := by decide
  patch := by decide
  delete := by decide

/-- A request to list the internal storage, and one for an extra command of it. -/
def listCall : JValue :=
  ((((JValue.object.put "storageType" (.text "internal")).put "driveId" (.text "INTERNAL_STORAGE")).put "path"
    (.text "/media")).put "offset" (.num 1)).put "limit" (.num 10)

def extraCall : JValue :=
  (JValue.object.put "storageType" (.text "internal")).put "operation" (JValue.object.put "type" (.text "login"))

theorem list_answered_once :
    Answered 1 (Service.start (FS.ofEntries [] (by decide)) ∅).world
      ((Service.start (FS.ofEntries [] (by decide)) ∅).handle Env.quiet
        ⟨.internal, .listMethod, listCall, "guest".toList⟩).world :=
  (answered_once_iff Env.quiet returns_quiet .listMethod listCall "guest".toList _ rfl (by decide) _).2
    ⟨fun h => absurd h.1 nofun, fun h => h.1.elim nofun nofun⟩

theorem extraCommand_unanswered :
    SAFLunaService.accept .extraMethod extraCall "guest".toList =
        some ⟨.internal, .extraMethod, extraCall, "guest".toList⟩ ∧
      ¬ Answered 1 (Service.start (FS.ofEntries [] (by decide)) ∅).world
        ((Service.start (FS.ofEntries [] (by decide)) ∅).handle Env.quiet
          ⟨.internal, .extraMethod, extraCall, "guest".toList⟩).world :=
  ⟨rfl, nofun⟩

end StorageAccess
