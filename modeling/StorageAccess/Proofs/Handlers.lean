import StorageAccess.Proofs.Utility
/-!
# The checks before a handler's work

Each provider makes the same checks in several handlers. A check that fails
sends one reply and changes nothing else, and the lemmas here say what holds
when all of them pass.
-/

open Posix Json

namespace StorageAccess

open SAFUtilityOperation

/-! ## The front end -/

theorem methodType_of_accept {method : MethodType} {payload : JValue} {sessionId : Str} {req : RequestData}
    (h : SAFLunaService.accept method payload sessionId = some req) : req.methodType = method := by
  unfold SAFLunaService.accept at h
  dsimp only at h
  repeat' split at h
  all_goals first
    | contradiction
    | (cases h; rfl)
    | (obtain ⟨t, -, rfl⟩ := Option.map_eq_some_iff.1 h; rfl)

theorem isObject_of_accept {method : MethodType} {payload : JValue} {sessionId : Str} {req : RequestData}
    (h : SAFLunaService.accept method payload sessionId = some req) : payload.isObject = true := by
  cases payload with
  | obj fields => rfl
  | null | bool | num | str | arr => simp [SAFLunaService.accept, SAFLunaService.Schema.accepts] at h

/-- The front end hands a transfer over under its source's storage type. -/
theorem storageType_of_accept {method : MethodType} {payload : JValue} {sessionId : Str} {req : RequestData}
    (h : SAFLunaService.accept method payload sessionId = some req)
    (hm : method = .copyMethod ∨ method = .moveMethod) :
    SAFLunaService.getStorageDeviceType (req.str "srcStorageType") = some req.storageType := by
  have hobj : payload.isObject = true := isObject_of_accept h
  rcases hm with rfl | rfl
  all_goals
    unfold SAFLunaService.accept at h
    dsimp only at h
    split at h
    · cases h
    split at h
    · cases h
    split at h
    case h_1 type other hs hd =>
      cases h
      simpa [RequestData.str, JValue.get_put _ hobj] using hs
    case h_2 => cases h

/-! ## Refusals -/

/-- The handler refused with one reply. -/
def Refused (w w' : World) : Prop := ∃ r, w' = w.reply r

/-- The handler did nothing but reply. -/
def Denied (w w' : World) : Prop := ∃ rs, w' = { w with replies := w.replies ++ rs }

theorem Refused.denied {w w' : World} (h : Refused w w') : Denied w w' := by
  obtain ⟨r, rfl⟩ := h
  exact ⟨[r], rfl⟩

theorem newReplies_of_append {w w' : World} {rs : List JValue} (h : w'.replies = w.replies ++ rs) :
    newReplies w w' = rs := by
  simp [newReplies, h]

/-- A world that was answered once has one new reply. -/
theorem mem_newReplies_reply {w w₁ w' : World} {r r' : JValue} (hw' : w' = w₁.reply r) (hw : w₁.replies = w.replies) :
    r' ∈ newReplies w w' ↔ r' = r := by
  rw [newReplies_of_append (by rw [hw', World.reply_replies, hw]), List.mem_singleton]

/-- Go on with a request the shared validator let pass. -/
def afterValidator (w : World) (req : RequestData) (go : World → World) : World :=
  if (validateInterProviderOperation w req).2 then go (validateInterProviderOperation w req).1
  else (validateInterProviderOperation w req).1

theorem afterValidator_eq (w : World) (req : RequestData) (go : World → World) :
    (match validateInterProviderOperation w req with | (w, false) => w | (w, true) => go w) =
      afterValidator w req go := by
  unfold afterValidator
  obtain ⟨w', b⟩ := validateInterProviderOperation w req
  cases b <;> rfl

theorem afterValidator_cases (w : World) (req : RequestData) (go : World → World) :
    (¬ Passes w req ∧ Denied w (afterValidator w req go)) ∨ (Passes w req ∧ afterValidator w req go = go w) := by
  unfold afterValidator
  rcases validate_cases w req with ⟨hn, h⟩ | ⟨hp, h⟩ <;> rw [h]
  · exact .inl ⟨hn, _, rfl⟩
  · exact .inr ⟨hp, rfl⟩

/-- The request copies or moves: the methods that use the shared validator. -/
def IsTransfer (req : RequestData) : Prop := req.methodType = .copyMethod ∨ req.methodType = .moveMethod

/-- The file system operation a copy or move request starts. -/
def transferOp (os : Os) (req : RequestData) (w : World) : World × Transfer :=
  if req.methodType = .moveMethod then
    SAFUtilityOperation.move os w (req.str "srcPath") (req.str "destPath") (req.flag "overwrite")
  else SAFUtilityOperation.copy os w (req.str "srcPath") (req.str "destPath") (req.flag "overwrite")

theorem done_transferOp (os : Os) (req : RequestData) (w : World) : (transferOp os req w).2.Done := by
  unfold transferOp
  split
  · exact done_move os w.fs _ _ _
  · exact done_copy os w.fs _ _ _

/-- The operation, polled to its end. -/
def polled (errorText : Int → String) (os : Os) (req : RequestData) (w : World) : World :=
  pollStatus errorText true os (os.patience + 1) (-20) .object (transferOp os req w).2 (transferOp os req w).1

theorem polled_of_copy (errorText : Int → String) (os : Os) {req : RequestData} (h : req.methodType = .copyMethod) :
    polled errorText os req = fun w =>
      let (w, t) := SAFUtilityOperation.copy os w (req.str "srcPath") (req.str "destPath") (req.flag "overwrite")
      pollStatus errorText true os (os.patience + 1) (-20) .object t w := by
  funext w
  simp [polled, transferOp, h]

theorem polled_of_move (errorText : Int → String) (shared : Bool) (os : Os) {req : RequestData}
    (h : req.methodType = .moveMethod) :
    polled errorText os req = fun w =>
      let (w, t) := SAFUtilityOperation.move os w (req.str "srcPath") (req.str "destPath") (req.flag "overwrite")
      pollStatus errorText shared os (os.patience + 1) (-20) .object t w := by
  funext w
  -- whether the rounds share their object makes no difference to the one round there is
  have hdone := done_transferOp os req w
  simp only [polled, transferOp, h, ↓reduceIte] at hdone ⊢
  rw [pollStatus_eq errorText true os _ _ hdone, pollStatus_eq errorText shared os _ _ hdone]

/-- A transfer that was started changes the world as the operation does and sends one reply. -/
theorem polled_eq (errorText : Int → String) (os : Os) (req : RequestData) (w : World) :
    polled errorText os req w = (transferOp os req w).1.reply (transferReply errorText (transferOp os req w).2.status) :=
  pollStatus_eq errorText true os _ _ (done_transferOp os req w) _

/-- The validator let the request pass, and the operation was done and answered once. -/
def Started (os : Os) (req : RequestData) (w w' : World) : Prop :=
  Passes w req ∧ Refused (transferOp os req w).1 w'

theorem afterValidator_polled_cases (errorText : Int → String) (os : Os) (req : RequestData) (w : World) :
    (¬ Passes w req ∧ Denied w (afterValidator w req (polled errorText os req))) ∨
      Started os req w (afterValidator w req (polled errorText os req)) := by
  rcases afterValidator_cases w req (polled errorText os req) with hd | ⟨hp, h⟩
  · exact .inl hd
  · exact .inr ⟨hp, _, h.trans (polled_eq errorText os req w)⟩

namespace InternalStorageProvider

theorem checked_cases (req : RequestData) (w : World) (go : World → World) :
    Refused w (checked req w go) ∨
      (SAFUtilityOperation.validateInternalPath w.fs (req.str "path") req.sessionId = true ∧
        checked req w go = go w) := by
  unfold checked
  split
  · exact .inl ⟨_, rfl⟩
  case isFalse hv =>
    split
    · exact .inl ⟨_, rfl⟩
    · exact .inr ⟨by simpa using hv, rfl⟩

/-- The world and the path a request for properties goes on with: without a path, the folder of the session. -/
def sought (os : Os) (req : RequestData) (w : World) : World × Str :=
  if req.str "path" = [] then getInternalPath os w req.sessionId else (w, req.str "path")

/-- How a request for properties ends. -/
inductive PropertiesStep (os : Os) (req : RequestData) (w : World) : World → Prop
  | otherDrive (other : req.str "driveId" ≠ defaultInternalStorageId) : PropertiesStep os req w (w.reply invalidDriveId)
  | refused (own : req.str "driveId" = defaultInternalStorageId)
      (invalid : SAFUtilityOperation.validateInternalPath (sought os req w).1.fs (sought os req w).2 req.sessionId = false) :
      PropertiesStep os req w ((sought os req w).1.reply
        (errorReply SAFErrors.invalidPath.code (getInternalErrorString SAFErrors.invalidPath.code)))
  | failed (own : req.str "driveId" = defaultInternalStorageId)
      (valid : SAFUtilityOperation.validateInternalPath (sought os req w).1.fs (sought os req w).2 req.sessionId = true)
      (done : Bool) (op : FsOp) (errorCode : Int) (errorText : String) :
      PropertiesStep os req w (((sought os req w).1.logIf done op).reply (failReply errorCode errorText))
  | described (own : req.str "driveId" = defaultInternalStorageId)
      (valid : SAFUtilityOperation.validateInternalPath (sought os req w).1.fs (sought os req w).2 req.sessionId = true)
      (done : Bool) (op : FsOp) (i : InternalSpaceInfo) (modTime : Str) (storageType : Option Str) (whole : Bool) :
      PropertiesStep os req w ((getInternalPath os ((sought os req w).1.logIf done op) req.sessionId).1.reply
        (i.describe modTime storageType whole (JValue.object.put "returnValue" (.bool true))))

theorem propertiesStep (os : Os) (req : RequestData) (w : World) :
    PropertiesStep os req w (getProperties os req w) := by
  unfold getProperties
  dsimp only
  split
  case isTrue h => exact .otherDrive (Ne.symm h)
  case isFalse h =>
  have hown := (not_not.1 h).symm
  generalize hfound : (if req.str "path" = [] then getInternalPath os w req.sessionId else (w, req.str "path")) = found
  obtain rfl : sought os req w = found := hfound
  split
  case isTrue hv => exact .refused hown (by simpa using hv)
  case isFalse hv =>
  have hvalid : SAFUtilityOperation.validateInternalPath (sought os req w).1.fs (sought os req w).2 req.sessionId = true := by
    simpa using hv
  split
  · exact .failed hown hvalid _ _ _ _
  · exact .described hown hvalid _ _ _ _ _ _

/-- The check `copy` and `move` make before the shared validator. -/
def Ready (req : RequestData) : Prop := req.str "srcDriveId" = defaultInternalStorageId

theorem transfer_cases (req : RequestData) (w : World) (go : World → World) :
    (¬ Ready req ∧ Refused w (transfer req w go)) ∨
      (Ready req ∧ transfer req w go = afterValidator w req go) := by
  rw [← afterValidator_eq]
  unfold transfer Ready
  by_cases h : defaultInternalStorageId = req.str "srcDriveId"
  · exact .inr ⟨h.symm, if_neg (not_not.2 h)⟩
  · exact .inl ⟨fun e => h e.symm, _, if_pos h⟩

theorem handleRequests_transfer (os : Os) {req : RequestData} (h : IsTransfer req) (w : World) :
    handleRequests os req w = transfer req w (polled getInternalErrorString os req) := by
  rcases h with h | h
  · simp only [handleRequests, h, copy, polled_of_copy _ os h]
  · simp only [handleRequests, h, move, polled_of_move _ true os h]

theorem handleRequests_transfer_cases (os : Os) {req : RequestData} (h : IsTransfer req) (w : World) :
    (¬ (Ready req ∧ Passes w req) ∧ Denied w (handleRequests os req w)) ∨
      (Ready req ∧ Started os req w (handleRequests os req w)) := by
  rw [handleRequests_transfer os h]
  rcases transfer_cases req w (polled getInternalErrorString os req) with ⟨hn, hr⟩ | ⟨hy, e⟩
  · exact .inl ⟨fun hp => hn hp.1, hr.denied⟩
  · rw [e]
    exact (afterValidator_polled_cases _ os req w).imp (fun hd => ⟨fun hp => hd.1 hp.2, hd.2⟩) fun hs => ⟨hy, hs⟩

end InternalStorageProvider

namespace USBStorageProvider

/-- Every pending call is answered, and the replies are kept in order. -/
theorem onReply_eq (luna : Luna) (nextReq responses : List JValue) (root : JValue) (w : World) :
    onReply luna nextReq responses root w = w.reply (.arr (responses ++ root :: nextReq.map fun next =>
      luna (String.ofList (next.get "uri").asString) (next.get "payload").asString)) := by
  induction nextReq generalizing responses root with
  | nil => rfl
  | cons next nextReq ih =>
    rw [onReply, ih]
    simp

theorem checked_cases (reg : Registry) (unmounted : USBErrors) (req : RequestData) (w : World) (go : World → World) :
    Refused w (checked reg unmounted req w go) ∨
      (isStorageIdExists reg (req.str "driveId") = true ∧ isStorageDriveMounted reg (req.str "driveId") = true ∧
        checked reg unmounted req w go = go w) := by
  unfold checked
  split
  · exact .inl ⟨_, rfl⟩
  case isFalse he =>
    split
    · exact .inl ⟨_, rfl⟩
    case isFalse hm => exact .inr ⟨by simpa using he, by simpa using hm, rfl⟩

/-- A drive that is there and mounted. -/
def Mounted (reg : Registry) (driveId : Str) : Prop :=
  isStorageIdExists reg driveId = true ∧ isStorageDriveMounted reg driveId = true

/-- The checks `copyMethod` and `moveMethod` make before the shared validator. -/
def Ready (reg : Registry) (req : RequestData) : Prop :=
  Mounted reg (req.str "srcDriveId") ∧ (req.str "destStorageType" = "usb".toList → Mounted reg (req.str "destDriveId"))

theorem transfer_cases (reg : Registry) (req : RequestData) (w : World) (go : World → World) :
    (¬ Ready reg req ∧ Refused w (transfer reg req w go)) ∨
      (Ready reg req ∧ transfer reg req w go = afterValidator w req go) := by
  rw [← afterValidator_eq]
  unfold transfer Ready Mounted
  generalize "usb".toList = usb
  by_cases hs : isStorageIdExists reg (req.str "srcDriveId") = true
  case neg => exact .inl ⟨fun hr => hs hr.1.1, usbError .usbStorageNotExists, by simp [hs]⟩
  by_cases hd : req.str "destStorageType" = usb → isStorageIdExists reg (req.str "destDriveId") = true
  case neg =>
    push Not at hd
    exact .inl ⟨fun hr => hd.2 (hr.2 hd.1).1, usbError .usbStorageNotExists, by simp [hs, hd.1, hd.2]⟩
  have hgate : ¬ (decide (req.str "destStorageType" = usb) && !isStorageIdExists reg (req.str "destDriveId")) = true := by
    simpa using hd
  by_cases hm : isStorageDriveMounted reg (req.str "srcDriveId") = true
  case neg =>
    refine .inl ⟨fun hr => hm hr.1.2, usbError .driveNotMounted, ?_⟩
    rw [if_neg (by simp [hs]), if_neg hgate, if_pos (by simp [hm])]
  by_cases hdm : req.str "destStorageType" = usb → isStorageDriveMounted reg (req.str "destDriveId") = true
  case neg =>
    push Not at hdm
    refine .inl ⟨fun hr => hdm.2 (hr.2 hdm.1).2, usbError .driveNotMounted, ?_⟩
    rw [if_neg (by simp [hs]), if_neg hgate, if_pos (by simp [hdm.1, hdm.2])]
  refine .inr ⟨⟨⟨hs, hm⟩, fun hu => ⟨hd hu, hdm hu⟩⟩, ?_⟩
  rw [if_neg (by simp [hs]), if_neg hgate]
  exact if_neg (by simpa [hm] using hdm)

theorem handleRequests_transfer (os : Os) (luna : Luna) (reg : Registry) {req : RequestData} (h : IsTransfer req)
    (w : World) : handleRequests os luna reg req w = transfer reg req w (polled getUSBErrorString os req) := by
  rcases h with h | h
  · simp only [handleRequests, h, copyMethod, polled_of_copy _ os h]
  · simp only [handleRequests, h, moveMethod, polled_of_move _ false os h]

theorem handleRequests_transfer_cases (os : Os) (luna : Luna) (reg : Registry) {req : RequestData} (h : IsTransfer req)
    (w : World) :
    (¬ (Ready reg req ∧ Passes w req) ∧ Denied w (handleRequests os luna reg req w)) ∨
      (Ready reg req ∧ Started os req w (handleRequests os luna reg req w)) := by
  rw [handleRequests_transfer os luna reg h]
  rcases transfer_cases reg req w (polled getUSBErrorString os req) with ⟨hn, hr⟩ | ⟨hy, e⟩
  · exact .inl ⟨fun hp => hn hp.1, hr.denied⟩
  · rw [e]
    exact (afterValidator_polled_cases _ os req w).imp (fun hd => ⟨fun hp => hd.1 hp.2, hd.2⟩) fun hs => ⟨hy, hs⟩

end USBStorageProvider

namespace NetworkProvider

theorem checked_cases (req : RequestData) (s : NetworkProvider) (w : World) (go : World → World) :
    Refused w (s.checked req w go) ∨
      (s.validateSambaOperation (req.str "driveId") req.sessionId = true ∧
        validateSambaPath w.fs w.mSambaDrivePathMap (req.str "path") (req.str "driveId") = true ∧
        s.checked req w go = go w) := by
  unfold checked
  split
  · exact .inl ⟨_, rfl⟩
  case isFalse ho =>
    split
    · exact .inl ⟨_, rfl⟩
    case isFalse hp => exact .inr ⟨by simpa using ho, by simpa using hp, rfl⟩

/-- The work of `copy` and `move` once the validator let the request pass. -/
def owned (req : RequestData) (s : NetworkProvider) (go : World → World) (w : World) : World :=
  if !s.validateSambaOperation (req.str "srcDriveId") req.sessionId then w.reply invalidDriveId else go w

theorem transfer_eq (req : RequestData) (s : NetworkProvider) (w : World) (go : World → World) :
    s.transfer req w go = afterValidator w req (owned req s go) := afterValidator_eq w req (owned req s go)

/-- The check `copy` and `move` make after the shared validator. -/
def Ready (req : RequestData) (s : NetworkProvider) : Prop :=
  s.validateSambaOperation (req.str "srcDriveId") req.sessionId = true

theorem owned_cases (req : RequestData) (s : NetworkProvider) (go : World → World) (w : World) :
    (¬ Ready req s ∧ Refused w (owned req s go w)) ∨ (Ready req s ∧ owned req s go w = go w) := by
  unfold owned Ready
  split
  case isTrue h => exact .inl ⟨by simpa using h, _, rfl⟩
  case isFalse h => exact .inr ⟨by simpa using h, rfl⟩

theorem handleRequests_transfer (os : Os) (net : Net) {req : RequestData} (h : IsTransfer req) (s : NetworkProvider)
    (w : World) :
    handleRequests os net req s w = (s, afterValidator w req (owned req s (polled getInternalErrorString os req))) := by
  rw [← transfer_eq]
  rcases h with h | h
  · simp only [handleRequests, h, copy, polled_of_copy _ os h]
  · simp only [handleRequests, h, move, polled_of_move _ true os h]

theorem handleRequests_transfer_cases (os : Os) (net : Net) {req : RequestData} (h : IsTransfer req)
    (s : NetworkProvider) (w : World) :
    (¬ (Ready req s ∧ Passes w req) ∧ Denied w (handleRequests os net req s w).2) ∨
      (Ready req s ∧ Started os req w (handleRequests os net req s w).2) := by
  rw [handleRequests_transfer os net h]
  rcases afterValidator_cases w req (owned req s (polled getInternalErrorString os req)) with ⟨hn, hd⟩ | ⟨hp, e⟩
  · exact .inl ⟨fun hr => hn hr.2, hd⟩
  rcases owned_cases req s (polled getInternalErrorString os req) w with ⟨hn, hr⟩ | ⟨ho, e'⟩
  · rw [e]; exact .inl ⟨fun hy => hn hy.1, hr.denied⟩
  · exact .inr ⟨ho, hp, _, e.trans (e'.trans (polled_eq _ os req w))⟩

end NetworkProvider

namespace GDriveProvider

/-- The drive is known and belongs to the session. -/
def Owns (s : GDriveProvider) (sessionId driveId : Str) : Prop :=
  driveId ∈ s.mDriveIdUserDataMap ∧ s.mDriveIdSessionMap.getD driveId [] = sessionId

/-- What the checks leave of a drive's user data: the look-up of the refresh token may add it, empty. -/
def looked (user : GDriveUserData) : GDriveUserData :=
  { user with mAuthParam := touch user.mAuthParam refreshTokenKey [] }

/-- The provider after the checks of a request on one of the session's drives. -/
def lookedUp (s : GDriveProvider) (driveId : Str) (user : GDriveUserData) : GDriveProvider :=
  { s with mDriveIdSessionMap := touch s.mDriveIdSessionMap driveId [] }.setUser driveId (looked user)

/-- The drive has a refresh token. -/
def HasToken (user : GDriveUserData) : Prop := user.mAuthParam.getD refreshTokenKey [] ≠ []

theorem guarded_cases (driveId : Str) (req : RequestData) (s : GDriveProvider) (w : World)
    (go : GDriveProvider → GDriveUserData → World → GDriveProvider × World) :
    (¬ s.Owns req.sessionId driveId ∧ ∃ r s', guarded driveId req s w go = (s', w.reply r) ∧
      s'.mDriveIdUserDataMap = s.mDriveIdUserDataMap ∧ (r.get "returnValue").asBool = false) ∨
    (s.Owns req.sessionId driveId ∧ ∃ user, s.mDriveIdUserDataMap[driveId]? = some user ∧
      ((¬ HasToken user ∧ ∃ r, guarded driveId req s w go = (s.lookedUp driveId user, w.reply r) ∧
          (r.get "returnValue").asBool = false) ∨
        (HasToken user ∧ guarded driveId req s w go = go (s.lookedUp driveId user) (looked user) w))) := by
  unfold guarded
  split
  case h_1 hn =>
    refine .inl ⟨fun ho => ?_, _, _, rfl, rfl, rfl⟩
    simp [Std.ExtTreeMap.getElem?_eq_some_getElem ho.1] at hn
  case h_2 user hu =>
    have hmem : driveId ∈ s.mDriveIdUserDataMap := (Table.mem_iff_get _).2 ⟨user, hu⟩
    have hsession := Table.getD_touch s.mDriveIdSessionMap driveId []
    have htoken := Table.getD_touch user.mAuthParam refreshTokenKey []
    dsimp only
    by_cases hs : s.mDriveIdSessionMap.getD driveId [] = req.sessionId
    case neg => exact .inl ⟨fun ho => hs ho.2, _, _, if_pos (hsession ▸ hs), rfl, rfl⟩
    refine .inr ⟨⟨hmem, hs⟩, user, hu, ?_⟩
    rw [if_neg (not_not.2 (hsession.trans hs))]
    by_cases ht : user.mAuthParam.getD refreshTokenKey [] = []
    · exact .inl ⟨not_not.2 ht, _, if_pos (htoken.trans ht), rfl⟩
    · exact .inr ⟨ht, if_neg (htoken ▸ ht)⟩

/-- The checks let a request of the owner pass on an authenticated drive. -/
theorem guarded_of_owns {driveId : Str} {req : RequestData} {s : GDriveProvider} {user : GDriveUserData}
    (ho : s.Owns req.sessionId driveId) (hu : s.mDriveIdUserDataMap[driveId]? = some user) (ht : HasToken user) (w : World)
    (go : GDriveProvider → GDriveUserData → World → GDriveProvider × World) :
    guarded driveId req s w go = go (s.lookedUp driveId user) (looked user) w := by
  rcases guarded_cases driveId req s w go with ⟨hn, -⟩ | ⟨-, user', hu', ⟨hn, -⟩ | ⟨-, e⟩⟩
  · exact absurd ho hn
  · exact absurd (Option.some.inj (hu.symm.trans hu') ▸ ht) hn
  · rw [e, Option.some.inj (hu.symm.trans hu')]

/-- A transfer between two cloud paths names one drive. -/
def OneDrive (req : RequestData) : Prop :=
  req.str "srcStorageType" = cloudName → req.str "destStorageType" = cloudName →
    req.str "srcDriveId" = req.str "destDriveId"

/-- The request passes every check of a copy or move, on the drive with the given user data. -/
structure Admitted (s : GDriveProvider) (w : World) (req : RequestData) (user : GDriveUserData) : Prop where
  passes : Passes w req
  oneDrive : OneDrive req
  owns : s.Owns req.sessionId (transferDrive req)
  known : s.mDriveIdUserDataMap[transferDrive req]? = some user
  token : HasToken user

theorem transfer_cases (req : RequestData) (s : GDriveProvider) (w : World)
    (go : GDriveProvider → GDriveUserData → World → GDriveProvider × World) :
    ((∀ user, ¬ s.Admitted w req user) ∧ Denied w (s.transfer req w go).2) ∨
      ∃ user, s.Admitted w req user ∧ s.transfer req w go = go (s.lookedUp (transferDrive req) user) (looked user) w := by
  unfold transfer
  rcases validate_cases w req with ⟨hn, h⟩ | ⟨hp, h⟩ <;> simp only [h]
  · exact .inl ⟨fun user ha => hn ha.passes, _, rfl⟩
  by_cases ho : OneDrive req
  case neg =>
    have hne : req.str "srcStorageType" = cloudName ∧ req.str "destStorageType" = cloudName ∧
        req.str "srcDriveId" ≠ req.str "destDriveId" := by
      simpa only [OneDrive, Classical.not_imp] using ho
    rw [if_pos hne]
    exact .inl ⟨fun user ha => ho ha.oneDrive, [_], rfl⟩
  rw [if_neg fun hne => hne.2.2 (ho hne.1 hne.2.1)]
  rcases guarded_cases (transferDrive req) req s w go with ⟨hn, r, s', e, -⟩ | ⟨hy, user, hu, ⟨ht, r, e, -⟩ | ⟨ht, e⟩⟩
  · rw [e]; exact .inl ⟨fun user ha => hn ha.owns, [r], rfl⟩
  · rw [e]
    refine .inl ⟨fun user' ha => ht ?_, [r], rfl⟩
    rw [Option.some.inj (hu.symm.trans ha.known)]
    exact ha.token
  · exact .inr ⟨user, ⟨hp, ho, hy, hu, ht⟩, e⟩

/-- The local file of an upload is there and of a type that can be sent. -/
def CanUpload (req : RequestData) (fs : FS) : Prop :=
  getMimeType (extension (req.str "srcPath")) ≠ [] ∧ fs.exists? (components (req.str "srcPath")) = true

/-- The file of a download is known, and so is a place for it. -/
def CanDownload (user : GDriveUserData) (req : RequestData) (fs : FS) : Prop :=
  user.index.getFileId (req.str "srcPath") ≠ [] ∧ StorageAccess.validateInternalPath fs (req.str "destPath") = true

/-- How an upload ends. -/
inductive UploadStep (drive : Drive) (user : GDriveUserData) (req : RequestData) (w : World) : World × Bool → Prop
  | refused (invalid : ¬ CanUpload req w.fs) (code : Int) : UploadStep drive user req w (w.reply (cloudFailure code), false)
  | sent (valid : CanUpload req w.fs) : UploadStep drive user req w
      (insertFile drive (destFolder user (req.str "destPath")) (baseName (req.str "srcPath"))
        ((w.fs.readFile (components (req.str "srcPath"))).getD []) (w.log (.readFile (req.str "srcPath"))))

theorem uploadStep (drive : Drive) (user : GDriveUserData) (req : RequestData) (w : World) :
    UploadStep drive user req w (upload drive user req w) := by
  unfold upload
  dsimp only
  split
  case isTrue hmime => exact .refused (fun h => h.1 hmime) _
  case isFalse hmime =>
  split
  case isTrue hexists => exact .refused (fun h => by simp [h.2] at hexists) _
  case isFalse hexists => exact .sent ⟨hmime, by simpa using hexists⟩

/-- How a download ends: without the file, at a target that does not open, or with what
arrived written to it. -/
inductive DownloadStep (os : Os) (drive : Drive) (user : GDriveUserData) (req : RequestData) (w : World) :
    World × Bool → Prop
  | refused (invalid : ¬ CanDownload user req w.fs) (code : Int) :
      DownloadStep os drive user req w (w.reply (cloudFailure code), false)
  | missing (valid : CanDownload user req w.fs) (get : drive.get (user.index.getFileId (req.str "srcPath")) = none) :
      DownloadStep os drive user req w (w.log (.cloudGet (user.index.getFileId (req.str "srcPath"))), false)
  | unopened (valid : CanDownload user req w.fs) (file : GFile)
      (get : drive.get (user.index.getFileId (req.str "srcPath")) = some file)
      (write : w.fs.writeFile os.writeCut (components (req.str "destPath" ++ '/' :: baseName (req.str "srcPath")))
        (drive.request (if file.downloadUrl = [] then file.exportPdf else file.downloadUrl)).content = none) :
      DownloadStep os drive user req w
        ((w.log (.cloudGet (user.index.getFileId (req.str "srcPath")))).reply (cloudFailure SAFErrors.unknownError.code), false)
  | written (valid : CanDownload user req w.fs) (file : GFile) (fs : FS)
      (get : drive.get (user.index.getFileId (req.str "srcPath")) = some file)
      (write : w.fs.writeFile os.writeCut (components (req.str "destPath" ++ '/' :: baseName (req.str "srcPath")))
        (drive.request (if file.downloadUrl = [] then file.exportPdf else file.downloadUrl)).content = some fs) :
      DownloadStep os drive user req w
        ({ (w.log (.cloudGet (user.index.getFileId (req.str "srcPath")))).log
            (.writeFile (req.str "destPath" ++ '/' :: baseName (req.str "srcPath"))) with fs := fs }, true)

theorem downloadStep (os : Os) (drive : Drive) (user : GDriveUserData) (req : RequestData) (w : World) :
    DownloadStep os drive user req w (download os drive user req w) := by
  unfold download
  dsimp only
  split
  case isTrue hid => exact .refused (fun h => h.1 hid) _
  case isFalse hid =>
  split
  case isTrue hdest => exact .refused (fun h => by simp [h.2] at hdest) _
  case isFalse hdest =>
  have hvalid : CanDownload user req w.fs := ⟨hid, by simpa using hdest⟩
  split
  case h_1 hget => exact .missing hvalid hget
  case h_2 file hget =>
    split
    case h_1 hwrite => exact .unopened hvalid file hget hwrite
    case h_2 fs hwrite => exact .written hvalid file fs hget hwrite

end GDriveProvider

end StorageAccess
