import StorageAccess.Proofs.Advertised
import StorageAccess.Proofs.Replies
/-!
# The form of replies

A reply says whether the request succeeded in `returnValue` and has an
`errorCode` when it did not. Most replies have this form; those of the first
checks leave `returnValue` out, those of a failed mount have no `errorCode`, and
the properties of a SAMBA path that is not valid come with both success and code.
-/

open Posix Json

namespace StorageAccess

open SAFUtilityOperation

/-- A boolean `returnValue`, and an `errorCode` exactly where that is false. -/
def WellFormed (r : JValue) : Prop :=
  ∃ b, r.get "returnValue" = .bool b ∧ (r.hasKey "errorCode" = true ↔ b = false)

/-- Every reply the handler sent has the form. -/
def Formed (w w' : World) : Prop := ∀ r ∈ newReplies w w', WellFormed r

/-! ## Single replies -/

theorem wellFormed_success : WellFormed (JValue.object.put "returnValue" (.bool true)) :=
  ⟨true, rfl, iff_of_false (by decide) nofun⟩

theorem wellFormed_failReply (errorCode : Int) (errorText : String) : WellFormed (failReply errorCode errorText) :=
  ⟨false, rfl, iff_of_true rfl rfl⟩

theorem not_wellFormed_errorReply (errorCode : Int) (errorText : String) :
    ¬ WellFormed (errorReply errorCode errorText) := by
  rintro ⟨b, h, -⟩
  exact absurd h nofun

theorem WellFormed.isObject {r : JValue} (h : WellFormed r) : r.isObject = true := by
  obtain ⟨b, hb, -⟩ := h
  cases r with
  | obj fields => rfl
  | null | bool | num | str | arr => cases hb

/-- Other members do not matter. -/
theorem WellFormed.put {r : JValue} (h : WellFormed r) (key : String) (v : JValue)
    (hkey : "returnValue" ≠ key ∧ "errorCode" ≠ key) : WellFormed (r.put key v) := by
  have hobj := h.isObject
  obtain ⟨b, hb, hcode⟩ := h
  refine ⟨b, by rw [JValue.get_put r hobj, if_neg hkey.1, hb], ?_⟩
  rw [JValue.hasKey_put r hobj, decide_eq_false hkey.2, Bool.false_or, hcode]

theorem wellFormed_listReply (errorText : Int → String) (sizeValue : Nat → JValue) (c : FolderContents)
    (offset limit : Int) : WellFormed (listReply errorText sizeValue c offset limit) := by
  unfold listReply
  split
  · exact ((wellFormed_success.put _ _ (by decide)).put _ _ (by decide)).put _ _ (by decide)
  · exact wellFormed_failReply _ _

theorem wellFormed_statusReply (errorText : Int → String) (status : Int) : WellFormed (statusReply errorText status) := by
  unfold statusReply
  split
  · exact wellFormed_failReply _ _
  · exact wellFormed_success

theorem wellFormed_transferReply (errorText : Int → String) (status : Int) :
    WellFormed (transferReply errorText status) := by
  unfold transferReply
  split
  · exact wellFormed_failReply _ _
  · exact wellFormed_success.put _ _ (by decide)

theorem WellFormed.describe {r : JValue} (h : WellFormed r) (i : InternalSpaceInfo) (modTime : Str)
    (storageType : Option Str) (whole : Bool) : WellFormed (i.describe modTime storageType whole r) := by
  have hrest {r : JValue} (hr : WellFormed r) : WellFormed (i.describe modTime none whole r) := by
    have hattr := ((hr.put "writable" (.bool i.writable) (by decide)).put "deletable" (.bool i.deletable) (by decide)).put
      "attributes" (.arr [JValue.object.put "LastModTimeStamp" (.str modTime)]) (by decide)
    unfold InternalSpaceInfo.describe
    dsimp only
    split
    · exact (hattr.put _ _ (by decide)).put _ _ (by decide)
    · exact hattr
  cases storageType with
  | none => exact hrest h
  | some t => exact hrest (h.put _ _ (by decide))

theorem wellFormed_endpoint (e : Endpoint) : WellFormed e.reply := by
  cases e <;> exact wellFormed_failReply _ _

/-! ## Handlers -/

theorem formed_reply_iff {w w₁ : World} (h : w₁.replies = w.replies) (r : JValue) :
    Formed w (w₁.reply r) ↔ WellFormed r := by
  have happend : (w₁.reply r).replies = w.replies ++ [r] := by rw [World.reply, h]
  rw [Formed, newReplies_of_append happend, List.forall_mem_singleton]

theorem formed_of_eq {w w' : World} (h : w'.replies = w.replies) : Formed w w' := by
  have happend : w'.replies = w.replies ++ [] := by rw [h, List.append_nil]
  rw [Formed, newReplies_of_append happend]
  exact nofun

theorem formed_validate (w : World) (req : RequestData) : Formed w (validateInterProviderOperation w req).1 := by
  rcases validate_cases w req with ⟨-, h⟩ | ⟨-, h⟩ <;> rw [h]
  · have happend : ({ w with replies := w.replies ++ refusals w req } : World).replies = w.replies ++ refusals w req := rfl
    rw [Formed, newReplies_of_append happend]
    intro r hr
    unfold refusals at hr
    rcases List.mem_append.1 hr with hr | hr
    · split at hr
      · exact List.mem_singleton.1 hr ▸ wellFormed_failReply _ _
      · cases hr
    · obtain ⟨e, -, rfl⟩ := Option.map_eq_some_iff.1 (Option.mem_toList.1 hr)
      exact wellFormed_endpoint e
  · exact formed_of_eq rfl

/-- After the shared validator only the handler's own replies matter. -/
theorem formed_afterValidator_iff {w : World} {req : RequestData} {go : World → World} {P : Prop}
    (hgo : Formed w (go w) ↔ P) : Formed w (afterValidator w req go) ↔ (Passes w req → P) := by
  have hv := formed_validate w req
  unfold afterValidator
  rcases validate_cases w req with ⟨hn, h⟩ | ⟨hp, h⟩ <;> rw [h] at hv ⊢
  · exact iff_of_true hv fun hp => absurd hp hn
  · exact ⟨fun hf _ => hgo.1 hf, fun hf => hgo.2 (hf hp)⟩

theorem formed_polled (errorText : Int → String) (os : Os) (req : RequestData) (w : World) :
    Formed w (polled errorText os req w) := by
  have hr : (transferOp os req w).1.replies = w.replies := by unfold transferOp; split <;> rfl
  rw [polled_eq]
  exact (formed_reply_iff hr _).2 (wellFormed_transferReply _ _)

/-! ## The internal provider -/

namespace InternalStorageProvider

/-- The folder of the session is there or can be made. -/
def FolderAvailable (os : Os) (w : World) (sessionId : Str) : Prop :=
  w.fs.exists? (components (internalFolder sessionId)) = true ∨
    (w.fs.createDirectories os.mkdirFault (components (internalFolder sessionId))).2 = false

/-- The checks whose refusals have no `returnValue` pass. -/
def InOrder (os : Os) (req : RequestData) (w : World) : Prop :=
  match req.methodType with
  | .listMethod | .removeMethod | .renameMethod =>
    SAFUtilityOperation.validateInternalPath w.fs (req.str "path") req.sessionId = true ∧
      req.str "driveId" = defaultInternalStorageId
  | .getPropMethod =>
    req.str "driveId" = defaultInternalStorageId ∧
      if req.str "path" = [] then FolderAvailable os w req.sessionId
      else SAFUtilityOperation.validateInternalPath w.fs (req.str "path") req.sessionId = true
  | .copyMethod | .moveMethod => Ready req
  | .extraMethod | .listStoragesMethod | .ejectMethod => True

/-- The empty path lies below none of the folders. -/
theorem validateInternalPath_nil (fs : FS) (sessionId : Str) :
    SAFUtilityOperation.validateInternalPath fs [] sessionId = false := by
  have hnil (p : Str) (hp : p ≠ []) : p.isPrefixOf [] = false := by
    cases p with
    | nil => exact absurd rfl hp
    | cons c p => rfl
  have hhome : homePrefix sessionId ≠ [] := List.append_ne_nil_of_left_ne_nil (by decide) _
  rw [SAFUtilityOperation.validateInternalPath, hnil _ (by decide), hnil _ (by decide), hnil _ hhome]
  rfl

/-- The folder given out for a session passes the path check exactly when there is one. -/
theorem validate_getInternalPath_iff (os : Os) (w : World) (sessionId : Str) :
    SAFUtilityOperation.validateInternalPath (getInternalPath os w sessionId).1.fs (getInternalPath os w sessionId).2
      sessionId = true ↔ FolderAvailable os w sessionId := by
  have hprefix : (homePrefix sessionId).isPrefixOf (internalFolder sessionId) = true := by
    unfold internalFolder
    split <;> exact List.isPrefixOf_iff_prefix.2 (List.prefix_append _ _)
  unfold getInternalPath FolderAvailable
  dsimp only
  split
  case isTrue he => exact iff_of_true (by simp [SAFUtilityOperation.validateInternalPath, hprefix, he]) (.inl he)
  case isFalse he =>
    split
    case h_1 fs' hc =>
      have hmade : fs'.exists? (components (internalFolder sessionId)) = true := FS.exists_createDirectories hc
      refine iff_of_true ?_ (.inr (congrArg Prod.snd hc))
      simp [SAFUtilityOperation.validateInternalPath, hprefix, hmade, chownChmod, World.log]
    case h_2 fs' hc =>
      refine iff_of_false ?_ (not_or.2 ⟨he, fun h => Bool.false_ne_true (h.symm.trans (congrArg Prod.snd hc))⟩)
      rw [validateInternalPath_nil]
      exact Bool.false_ne_true

theorem formed_checked_iff {req : RequestData} {w : World} {go : World → World} (hgo : Formed w (go w)) :
    Formed w (checked req w go) ↔
      SAFUtilityOperation.validateInternalPath w.fs (req.str "path") req.sessionId = true ∧
        req.str "driveId" = defaultInternalStorageId := by
  unfold checked
  split
  case isTrue hv =>
    rw [formed_reply_iff rfl]
    exact iff_of_false (not_wellFormed_errorReply _ _) fun h => by simp [h.1] at hv
  case isFalse hv =>
    split
    case isTrue hd =>
      rw [formed_reply_iff rfl]
      exact iff_of_false (not_wellFormed_errorReply _ _) fun h => hd h.2.symm
    case isFalse hd => exact iff_of_true hgo ⟨by simpa using hv, (not_not.1 hd).symm⟩

theorem formed_getProperties_iff (os : Os) (req : RequestData) (w : World) :
    Formed w (getProperties os req w) ↔ req.str "driveId" = defaultInternalStorageId ∧
      if req.str "path" = [] then FolderAvailable os w req.sessionId
      else SAFUtilityOperation.validateInternalPath w.fs (req.str "path") req.sessionId = true := by
  have hreplies := sought_replies os req w
  have hvalid : SAFUtilityOperation.validateInternalPath (sought os req w).1.fs (sought os req w).2 req.sessionId = true ↔
      if req.str "path" = [] then FolderAvailable os w req.sessionId
      else SAFUtilityOperation.validateInternalPath w.fs (req.str "path") req.sessionId = true := by
    unfold sought
    split
    · exact validate_getInternalPath_iff os w req.sessionId
    · exact Iff.rfl
  rw [← hvalid]
  have hstep := propertiesStep os req w
  generalize getProperties os req w = w' at hstep
  cases hstep with
  | otherDrive other =>
    rw [formed_reply_iff rfl]
    exact iff_of_false (not_wellFormed_errorReply _ _) fun h => other h.1
  | refused own invalid =>
    rw [formed_reply_iff hreplies]
    exact iff_of_false (not_wellFormed_errorReply _ _) fun h => by simp [h.2] at invalid
  | failed own valid done op =>
    have hlog : ((sought os req w).1.logIf done op).replies = w.replies := hreplies
    exact iff_of_true ((formed_reply_iff hlog _).2 (wellFormed_failReply _ _)) ⟨own, valid⟩
  | described own valid done op =>
    have hown := getInternalPath_replies os ((sought os req w).1.logIf done op) req.sessionId
    exact iff_of_true ((formed_reply_iff (hown.trans hreplies) _).2 (wellFormed_success.describe _ _ _ _)) ⟨own, valid⟩

theorem formed_iff (os : Os) (req : RequestData) (w : World) (hm : req.methodType ∉ [.listStoragesMethod, .ejectMethod]) :
    Formed w (handleRequests os req w) ↔ InOrder os req w := by
  by_cases ht : IsTransfer req
  · have hready : InOrder os req w ↔ Ready req := by unfold InOrder; rcases ht with h | h <;> rw [h]
    rw [handleRequests_transfer os ht, hready]
    rcases transfer_cases req w (polled getInternalErrorString os req) with ⟨hn, -⟩ | ⟨hy, e⟩
    · unfold transfer
      rw [if_pos fun h => hn h.symm, formed_reply_iff rfl]
      exact iff_of_false (not_wellFormed_errorReply _ _) hn
    · rw [e]
      exact iff_of_true ((formed_afterValidator_iff (iff_of_true (formed_polled _ os req w) trivial)).2 fun _ => trivial) hy
  unfold handleRequests InOrder
  cases h : req.methodType with
  | listMethod => exact formed_checked_iff ((formed_reply_iff rfl _).2 (wellFormed_listReply ..))
  | removeMethod => exact formed_checked_iff ((formed_reply_iff rfl _).2 (wellFormed_statusReply ..))
  | renameMethod => exact formed_checked_iff ((formed_reply_iff rfl _).2 (wellFormed_statusReply ..))
  | getPropMethod => exact formed_getProperties_iff os req w
  | extraMethod => exact iff_of_true (formed_of_eq rfl) trivial
  | copyMethod | moveMethod => simp [IsTransfer, h] at ht
  | listStoragesMethod | ejectMethod => simp [h] at hm

end InternalStorageProvider

/-! ## The network provider -/

namespace NetworkProvider

/-- The mount request names its share in full, the share is new and both commands
succeed, or its directory is already taken for one. -/
structure Mounts (net : Net) (req : RequestData) (s : NetworkProvider) : Prop where
  user : (payload req).hasKey "userName" = true
  password : (payload req).hasKey "password" = true
  security : (payload req).hasKey "securityMode" = true
  new : shareKey ((payload req).get "ip").asString ((payload req).get "userName").asString
    ((payload req).get "sharePath").asString ∉ s.mSambaDriveMap
  made : net.mkdir.isSome
  mounted : newMount net req ∈ s.mntpathmap ∨ net.mount.isSome

/-- The path a properties request asks about: the drive's own where it names none. -/
def askedPath (req : RequestData) (s : NetworkProvider) : Str :=
  if req.params.hasKey "path" then req.str "path" else s.mSambaPathMap.getD (req.str "driveId") []

/-- The checks whose refusals lack `returnValue` or `errorCode`, or have both, pass. -/
def InOrder (net : Net) (req : RequestData) (s : NetworkProvider) (w : World) : Prop :=
  match req.methodType with
  | .extraMethod =>
    operationType req = "mountSambaServer".toList → validateExtraCommand ["ip", "sharePath"] req = true → Mounts net req s
  | .listMethod =>
    s.validateOperation (req.str "driveId") req.sessionId = true ∧
      if isUpnp (req.str "driveId") then PathLike (req.str "path")
      else validateSambaPath w.fs w.mSambaDrivePathMap (req.str "path") (req.str "driveId") = true
  | .getPropMethod =>
    s.validateOperation (req.str "driveId") req.sessionId = true ∧
      (isUpnp (req.str "driveId") = false →
        validateSambaPath w.fs w.mSambaDrivePathMap (askedPath req s) (req.str "driveId") = true)
  | .removeMethod | .renameMethod =>
    s.validateSambaOperation (req.str "driveId") req.sessionId = true ∧
      validateSambaPath w.fs w.mSambaDrivePathMap (req.str "path") (req.str "driveId") = true
  | .copyMethod | .moveMethod => Passes w req → Ready req s
  | .listStoragesMethod | .ejectMethod => True

theorem not_wellFormed_mountError {key : String} (hkey : "errorCode" ≠ key) (text : Str) :
    ¬ WellFormed (mountError key text) := by
  rintro ⟨b, hb, hcode⟩
  have hreturn : (mountError key text).get "returnValue" = .bool false ∨
      (mountError key text).get "returnValue" = .str text := by
    rw [mountError, JValue.get_put _ rfl]
    split
    · exact .inr rfl
    · exact .inl rfl
  have hnone : (mountError key text).hasKey "errorCode" = false := by
    rw [mountError, JValue.hasKey_put _ rfl, decide_eq_false hkey]
    rfl
  rw [hnone] at hcode
  rcases hreturn with h | h
  · rw [h] at hb
    cases hb
    exact absurd (hcode.2 rfl) nofun
  · rw [h] at hb
    cases hb

theorem wellFormed_extraReply (req : RequestData) (payload : JValue) : WellFormed (extraReply req payload) :=
  wellFormed_success.put _ _ (by decide)

theorem formed_mountSambaServer_iff (net : Net) (req : RequestData) (s : NetworkProvider) (w : World) :
    Formed w (mountSambaServer net req s w).2 ↔ Mounts net req s := by
  have hbad {w₁ : World} (hw : w₁.replies = w.replies) {key : String} (hkey : "errorCode" ≠ key) (text : Str)
      (h : ¬ Mounts net req s) : Formed w (w₁.reply (mountError key text)) ↔ Mounts net req s := by
    rw [formed_reply_iff hw]
    exact iff_of_false (not_wellFormed_mountError hkey text) h
  have hgood {w₁ : World} (hw : w₁.replies = w.replies) (h : Mounts net req s) :
      Formed w (w₁.reply (mountReply net req)) ↔ Mounts net req s :=
    (formed_reply_iff hw _).trans (iff_of_true (wellFormed_extraReply _ _) h)
  cases mountStep_mountSambaServer net req s w with
  | incomplete text missing tables world =>
    exact world ▸ hbad rfl (by decide) _ fun hm => missing ⟨hm.user, hm.password, hm.security⟩
  | known complete found tables world => exact world ▸ hbad rfl (by decide) _ fun hm => hm.new found
  | unmade complete new nodir tables world => exact world ▸ hbad rfl (by decide) _ fun hm => by simpa [nodir] using hm.made
  | inUse complete new made dir used tables world =>
    exact world ▸ hgood rfl ⟨complete.user, complete.password, complete.security, new, by simp [dir], .inl used⟩
  | failed complete new made dir free unmounted tables world =>
    exact world ▸ hbad rfl (by decide) _ fun hm => hm.mounted.elim free (by simp [unmounted])
  | mounted complete new made dir free tree mount tables world =>
    exact world ▸ hgood (afterMount_replies ..)
      ⟨complete.user, complete.password, complete.security, new, by simp [dir], .inr (by simp [mount])⟩

theorem formed_extraMethod_iff (net : Net) (req : RequestData) (s : NetworkProvider) (w : World) :
    Formed w (extraMethod net req s w).2 ↔
      (operationType req = "mountSambaServer".toList → validateExtraCommand ["ip", "sharePath"] req = true →
        Mounts net req s) := by
  unfold extraMethod
  split
  case isTrue h => rw [formed_mountSambaServer_iff]; exact ⟨fun hm _ _ => hm, fun hm => hm h.1 h.2⟩
  case isFalse h =>
    refine iff_of_true ?_ fun h₁ h₂ => absurd ⟨h₁, h₂⟩ h
    split
    · exact (formed_reply_iff rfl _).2 (wellFormed_extraReply _ _)
    · exact (formed_reply_iff rfl _).2 (wellFormed_failReply _ _)

theorem formed_list_iff (os : Os) (net : Net) (req : RequestData) (s : NetworkProvider) (w : World) :
    Formed w (list os net req s w).2 ↔ s.validateOperation (req.str "driveId") req.sessionId = true ∧
      if isUpnp (req.str "driveId") then PathLike (req.str "path")
      else validateSambaPath w.fs w.mSambaDrivePathMap (req.str "path") (req.str "driveId") = true := by
  unfold list
  dsimp only
  split
  case isTrue hv =>
    rw [formed_reply_iff rfl]
    exact iff_of_false (not_wellFormed_errorReply _ _) fun h => by simp [h.1] at hv
  case isFalse hv =>
  have hvalid : s.validateOperation (req.str "driveId") req.sessionId = true := by simpa using hv
  rw [hvalid, eq_self, true_and]
  by_cases hu : isUpnp (req.str "driveId") = true
  case neg =>
    rw [if_neg hu, if_pos (by simpa using hu)]
    split
    case isTrue hp =>
      refine (formed_reply_iff ?_ _).trans (iff_of_false (not_wellFormed_errorReply _ _) (by simpa using hp))
      rfl
    case isFalse hp =>
      refine iff_of_true ((formed_reply_iff ?_ _).2 (wellFormed_listReply ..)) (by simpa using hp)
      rfl
  case pos =>
    rw [if_pos hu, if_neg (by simp [hu]), pathLike_iff]
    split
    case isTrue hp =>
      rw [formed_reply_iff rfl]
      exact iff_of_false (not_wellFormed_errorReply _ _) (not_not.2 hp)
    case isFalse hp =>
      refine iff_of_true ?_ hp
      split
      · exact (formed_reply_iff rfl _).2 (wellFormed_failReply _ _)
      · refine (formed_reply_iff rfl _).2 ?_
        exact ((wellFormed_success.put _ _ (by decide)).put _ _ (by decide)).put _ _ (by decide)

theorem formed_getProperties_iff (os : Os) (net : Net) (req : RequestData) (s : NetworkProvider) (w : World) :
    Formed w (getProperties os net req s w).2 ↔ s.validateOperation (req.str "driveId") req.sessionId = true ∧
      (isUpnp (req.str "driveId") = false →
        validateSambaPath w.fs w.mSambaDrivePathMap (askedPath req s) (req.str "driveId") = true) := by
  have hobj : WellFormed ((JValue.object.put "returnValue" (.bool true)).put "storageType" (.text "network")) :=
    wellFormed_success.put _ _ (by decide)
  unfold getProperties
  dsimp only
  split
  case isTrue hv =>
    rw [formed_reply_iff rfl]
    exact iff_of_false (not_wellFormed_errorReply _ _) fun h => by simp [h.1] at hv
  case isFalse hv =>
  have hvalid : s.validateOperation (req.str "driveId") req.sessionId = true := by simpa using hv
  rw [hvalid, eq_self, true_and]
  split
  case isTrue hu =>
    refine iff_of_true ((formed_reply_iff rfl _).2 (hobj.put _ _ (by decide))) ?_
    intro hn
    simp [hu] at hn
  case isFalse hu =>
    have hasked : (if req.params.hasKey "path" = true then req.str "path"
        else (s.lookSambaPath (req.str "driveId")).mSambaPathMap.getD (req.str "driveId") []) = askedPath req s := by
      rw [lookSambaPath, Table.getD_touch, askedPath]
    simp only [hasked]
    split
    case isTrue hp =>
      refine (formed_reply_iff rfl _).trans (iff_of_false ?_ fun h => ?_)
      · rintro ⟨b, hb, hcode⟩
        cases hb
        cases hcode.1 rfl
      · simp [h (by simpa using hu)] at hp
    case isFalse hp =>
      refine iff_of_true ?_ fun _ => by simpa using hp
      split
      · refine (formed_reply_iff rfl _).2 ⟨false, rfl, iff_of_true rfl rfl⟩
      · refine (formed_reply_iff rfl _).2 ?_
        exact (hobj.describe _ _ _ _).put _ _ (by decide)

theorem formed_checked_iff {req : RequestData} {s : NetworkProvider} {w : World} {go : World → World}
    (hgo : Formed w (go w)) :
    Formed w (s.checked req w go) ↔ s.validateSambaOperation (req.str "driveId") req.sessionId = true ∧
      validateSambaPath w.fs w.mSambaDrivePathMap (req.str "path") (req.str "driveId") = true := by
  unfold checked
  split
  case isTrue ho =>
    rw [formed_reply_iff rfl]
    exact iff_of_false (not_wellFormed_errorReply _ _) fun h => by simp [h.1] at ho
  case isFalse ho =>
    split
    case isTrue hp =>
      rw [formed_reply_iff rfl]
      exact iff_of_false (not_wellFormed_errorReply _ _) fun h => by simp [h.2] at hp
    case isFalse hp => exact iff_of_true hgo ⟨by simpa using ho, by simpa using hp⟩

theorem formed_iff (os : Os) (net : Net) (req : RequestData) (s : NetworkProvider) (w : World)
    (hm : req.methodType ∉ [.listStoragesMethod, .ejectMethod]) :
    Formed w (handleRequests os net req s w).2 ↔ InOrder net req s w := by
  by_cases ht : IsTransfer req
  · have hready : InOrder net req s w ↔ (Passes w req → Ready req s) := by unfold InOrder; rcases ht with h | h <;> rw [h]
    rw [handleRequests_transfer os net ht, hready]
    refine formed_afterValidator_iff ?_
    unfold owned Ready
    split
    case isTrue ho =>
      rw [formed_reply_iff rfl]
      exact iff_of_false (not_wellFormed_errorReply _ _) (by simpa using ho)
    case isFalse ho => exact iff_of_true (formed_polled _ os req w) (by simpa using ho)
  unfold handleRequests InOrder
  cases h : req.methodType with
  | extraMethod => exact formed_extraMethod_iff net req s w
  | listMethod => exact formed_list_iff os net req s w
  | getPropMethod => exact formed_getProperties_iff os net req s w
  | removeMethod => exact formed_checked_iff ((formed_reply_iff rfl _).2 (wellFormed_statusReply ..))
  | renameMethod => exact formed_checked_iff ((formed_reply_iff rfl _).2 (wellFormed_statusReply ..))
  | copyMethod | moveMethod => simp [IsTransfer, h] at ht
  | listStoragesMethod | ejectMethod => simp [h] at hm

end NetworkProvider

/-! ## The cloud provider -/

namespace GDriveProvider

/-- The checks whose refusals have no `returnValue` pass. -/
def InOrder (req : RequestData) (s : GDriveProvider) (w : World) : Prop :=
  match req.methodType with
  | .extraMethod =>
    operationType req = "authenticate".toList → validateExtraCommand ["secretToken"] req = true →
      req.str "driveId" ∈ s.mDriveIdUserDataMap
  | .listMethod | .getPropMethod | .removeMethod | .renameMethod => req.str "driveId" ∈ s.mDriveIdUserDataMap
  | .copyMethod | .moveMethod => Passes w req → OneDrive req ∧ transferDrive req ∈ s.mDriveIdUserDataMap
  | .listStoragesMethod | .ejectMethod => True

theorem wellFormed_cloudFailure (errorCode : Int) : WellFormed (cloudFailure errorCode) := wellFormed_failReply _ _

theorem wellFormed_extraReply (req : RequestData) (response : Str) : WellFormed (extraReply req response) :=
  wellFormed_success.put _ _ (by decide)

theorem formed_failure (w : World) (errorCode : Int) : Formed w (w.reply (cloudFailure errorCode)) :=
  (formed_reply_iff rfl _).2 (wellFormed_cloudFailure errorCode)

/-- An unknown drive is refused in the short form, and everything else the checks refuse in the full one. -/
theorem formed_guarded_iff {driveId : Str} {req : RequestData} {s : GDriveProvider} {w : World}
    {go : GDriveProvider → GDriveUserData → World → GDriveProvider × World}
    (hgo : ∀ s user, Formed w (go s user w).2) :
    Formed w (guarded driveId req s w go).2 ↔ driveId ∈ s.mDriveIdUserDataMap := by
  unfold guarded
  split
  case h_1 hn =>
    refine (formed_reply_iff rfl _).trans (iff_of_false (not_wellFormed_errorReply _ _) fun hm => ?_)
    simp [Std.ExtTreeMap.getElem?_eq_some_getElem hm] at hn
  case h_2 user hu =>
    refine iff_of_true ?_ ((Table.mem_iff_get _).2 ⟨user, hu⟩)
    dsimp only
    split
    · exact formed_failure w _
    split
    · exact formed_failure w _
    · exact hgo _ _

theorem formed_authenticateCloud_iff (drive : Drive) (req : RequestData) (s : GDriveProvider) (w : World) :
    Formed w (authenticateCloud drive req s w).2 ↔ req.str "driveId" ∈ s.mDriveIdUserDataMap := by
  unfold authenticateCloud
  dsimp only
  split
  case h_1 hn =>
    refine (formed_reply_iff rfl _).trans (iff_of_false (not_wellFormed_errorReply _ _) fun hm => ?_)
    simp [Std.ExtTreeMap.getElem?_eq_some_getElem hm] at hn
  case h_2 user hu =>
    refine iff_of_true ?_ ((Table.mem_iff_get _).2 ⟨user, hu⟩)
    split
    · exact formed_failure w _
    split
    · exact (formed_reply_iff rfl _).2 (wellFormed_extraReply _ _)
    · exact formed_failure w _

theorem formed_attachCloud (drive : Drive) (req : RequestData) (s : GDriveProvider) (w : World) :
    Formed w (attachCloud drive req s w).2 := by
  unfold attachCloud
  dsimp only
  split
  · exact formed_failure w _
  split
  · exact formed_failure w _
  · exact (formed_reply_iff rfl _).2 (wellFormed_extraReply _ _)

theorem formed_setToken (drive : Drive) (req : RequestData) (s : GDriveProvider) (w : World) :
    Formed w (setToken drive req s w).2 := by
  unfold setToken
  split
  · exact formed_failure w _
  dsimp only
  split
  · exact formed_failure w _
  · exact (formed_reply_iff rfl _).2 wellFormed_success

theorem formed_extraMethod_iff (drive : Drive) (req : RequestData) (s : GDriveProvider) (w : World) :
    Formed w (extraMethod drive req s w).2 ↔
      (operationType req = "authenticate".toList → validateExtraCommand ["secretToken"] req = true →
        req.str "driveId" ∈ s.mDriveIdUserDataMap) := by
  unfold extraMethod
  split
  case isTrue h =>
    refine iff_of_true (formed_attachCloud drive req s w) ?_
    intro ha
    exact absurd (h.1.symm.trans ha) (by decide)
  split
  case isTrue h => rw [formed_authenticateCloud_iff]; exact ⟨fun hm _ _ => hm, fun hm => hm h.1 h.2⟩
  case isFalse h =>
    refine iff_of_true ?_ fun h₁ h₂ => absurd ⟨h₁, h₂⟩ h
    split
    · exact formed_setToken drive req s w
    · exact formed_failure w _

section

variable {P : JValue → Prop} {w : World} {result : World × Bool}

/-- A step that goes on has not replied, and one that ends the handler replies only what `P` allows. -/
def Reports (P : JValue → Prop) (w : World) (result : World × Bool) : Prop :=
  if result.2 then result.1.replies = w.replies else ∀ r ∈ newReplies w result.1, P r

theorem reports_finish {drive : Drive} {req : RequestData} {s : GDriveProvider} {user : GDriveUserData}
    (h : Reports P w result) (hp : P progressReply) : ∀ r ∈ newReplies w (finish drive req s user result).2, P r := by
  obtain ⟨w', b⟩ := result
  cases b with
  | true =>
    intro r hr
    exact (mem_newReplies_reply rfl h).1 hr ▸ hp
  | false => exact h

theorem reports_of_eq (h : result.1.replies = w.replies) : Reports P w result := by
  unfold Reports
  split
  · exact h
  · simp [newReplies, h]

theorem reports_andThen {next : World → World × Bool} (h : Reports P w result)
    (hnext : ∀ w', (next w').1.replies = w'.replies) : Reports P w (andThen result next) := by
  obtain ⟨w', b⟩ := result
  cases b with
  | false => exact h
  | true => exact reports_of_eq ((hnext w').trans h)

theorem deleteFile_replies (drive : Drive) (fileId : Str) (w : World) : (deleteFile drive fileId w).1.replies = w.replies := by
  unfold deleteFile
  dsimp only
  split <;> rfl

theorem patchFile_replies (drive : Drive) (fileId title : Str) (w : World) :
    (patchFile drive fileId title w).1.replies = w.replies := by
  unfold patchFile
  extract_lets w'
  split <;> rfl

theorem reports_copyFile (drive : Drive) (fileId parent : Str) (w : World) :
    Reports P w (copyFile drive fileId parent w) := by
  refine reports_of_eq ?_
  unfold copyFile
  extract_lets w'
  split <;> rfl

theorem reports_insertFile (drive : Drive) (parent title : Str) (content : List UInt8) (w : World) :
    Reports P w (insertFile drive parent title content w) := by
  refine reports_of_eq ?_
  unfold insertFile
  cases drive.insert <;> rfl

end

theorem reports_upload (drive : Drive) (user : GDriveUserData) (req : RequestData) (w : World) :
    Reports WellFormed w (upload drive user req w) := by
  have hstep := uploadStep drive user req w
  generalize upload drive user req w = result at hstep
  cases hstep with
  | refused invalid code => exact formed_failure w code
  | sent valid => exact reports_insertFile drive _ _ _ (w.log (.readFile (req.str "srcPath")))

theorem reports_download (os : Os) (drive : Drive) (user : GDriveUserData) (req : RequestData) (w : World) :
    Reports WellFormed w (download os drive user req w) := by
  have hstep := downloadStep os drive user req w
  generalize download os drive user req w = result at hstep
  cases hstep with
  | refused invalid code => exact formed_failure w code
  | unopened => exact (formed_reply_iff rfl _).2 (wellFormed_cloudFailure _)
  | missing | written => exact reports_of_eq rfl

theorem formed_finish {drive : Drive} {req : RequestData} {s : GDriveProvider} {user : GDriveUserData} {w : World}
    {result : World × Bool} (h : Reports WellFormed w result) : Formed w (finish drive req s user result).2 :=
  reports_finish h (wellFormed_success.put _ _ (by decide))

theorem formed_transfer_iff {req : RequestData} {s : GDriveProvider} {w : World}
    {go : GDriveProvider → GDriveUserData → World → GDriveProvider × World} (hgo : ∀ s user, Formed w (go s user w).2) :
    Formed w (s.transfer req w go).2 ↔ (Passes w req → OneDrive req ∧ transferDrive req ∈ s.mDriveIdUserDataMap) := by
  have hv := formed_validate w req
  unfold transfer
  rcases validate_cases w req with ⟨hn, h⟩ | ⟨hp, h⟩ <;> rw [h] at hv ⊢
  · exact iff_of_true hv fun hp => absurd hp hn
  have hone : OneDrive req ↔ ¬ (req.str "srcStorageType" = cloudName ∧ req.str "destStorageType" = cloudName ∧
      req.str "srcDriveId" ≠ req.str "destDriveId") := by
    simp [OneDrive]
  dsimp only
  split
  case isTrue ht =>
    refine (formed_reply_iff rfl _).trans (iff_of_false (not_wellFormed_errorReply _ _) fun hc => ?_)
    exact hone.1 (hc hp).1 ht
  case isFalse ht =>
    rw [formed_guarded_iff hgo]
    exact ⟨fun hm _ => ⟨hone.2 ht, hm⟩, fun hc => (hc hp).2⟩

theorem formed_list_iff (drive : Drive) (req : RequestData) (s : GDriveProvider) (w : World) :
    Formed w (list drive req s w).2 ↔ req.str "driveId" ∈ s.mDriveIdUserDataMap := by
  apply formed_guarded_iff
  intro s user
  extract_lets s' index files start stop page
  split
  · exact formed_failure w _
  split
  · refine (formed_reply_iff rfl _).2 ?_
    exact ((wellFormed_success.put _ _ (by decide)).put _ _ (by decide)).put _ _ (by decide)
  · exact formed_of_eq rfl

theorem formed_getProperties_iff (drive : Drive) (req : RequestData) (s : GDriveProvider) (w : World) :
    Formed w (getProperties drive req s w).2 ↔ req.str "driveId" ∈ s.mDriveIdUserDataMap := by
  apply formed_guarded_iff
  intro s user
  have hobj : WellFormed ((((JValue.object.put "returnValue" (.bool true)).put "storageType" (.text "cloud")).put "writable"
      (.bool true)).put "deletable" (.bool true)) :=
    ((wellFormed_success.put _ _ (by decide)).put _ _ (by decide)).put _ _ (by decide)
  extract_lets root path
  split
  · refine (formed_reply_iff rfl _).2 (WellFormed.put ?_ _ _ (by decide))
    split
    · exact (hobj.put _ _ (by decide)).put _ _ (by decide)
    · exact hobj
  · exact formed_of_eq rfl

/-- `remove` and `rename` change one file of the index. -/
theorem formed_change_iff {drive : Drive} {req : RequestData} {s : GDriveProvider} {w : World}
    {change : Str → World → World × Bool} {status : String} (hchange : ∀ id w, (change id w).1.replies = w.replies) :
    Formed w (guarded (req.str "driveId") req s w fun s user w =>
        let fileId := user.index.getFileId (req.str "path")
        if fileId = [] then (s, w.reply (cloudFailure SAFErrors.invalidPath.code))
        else
          match change fileId w with
          | (w, true) => (s.reload drive (req.str "driveId") user, w.reply (done status))
          | (w, false) => (s, w)).2 ↔ req.str "driveId" ∈ s.mDriveIdUserDataMap := by
  apply formed_guarded_iff
  intro s user
  extract_lets fileId
  have hreplies := hchange fileId w
  split
  · exact formed_failure w _
  split
  case h_1 w' h =>
    rw [h] at hreplies
    exact (formed_reply_iff hreplies _).2 (wellFormed_success.put _ _ (by decide))
  case h_2 w' h =>
    rw [h] at hreplies
    exact formed_of_eq hreplies

theorem formed_iff (os : Os) (drive : Drive) (req : RequestData) (s : GDriveProvider) (w : World)
    (hm : req.methodType ∉ [.listStoragesMethod, .ejectMethod]) :
    Formed w (handleRequests os drive req s w).2 ↔ InOrder req s w := by
  unfold handleRequests InOrder
  cases h : req.methodType with
  | extraMethod => exact formed_extraMethod_iff drive req s w
  | listMethod => exact formed_list_iff drive req s w
  | getPropMethod => exact formed_getProperties_iff drive req s w
  | removeMethod => exact formed_change_iff fun id w => deleteFile_replies drive id w
  | renameMethod => exact formed_change_iff fun id w => patchFile_replies drive id (req.str "newName") w
  | copyMethod =>
    apply formed_transfer_iff
    intro s user
    extract_lets srcFileID
    split
    · split
      · split
        · exact formed_failure w _
        · exact formed_finish (reports_copyFile ..)
      · exact formed_finish (reports_upload ..)
    · exact formed_finish (reports_download ..)
  | moveMethod =>
    apply formed_transfer_iff
    intro s user
    extract_lets srcFileID
    split
    · split
      · split
        · exact formed_failure w _
        · exact formed_finish (reports_andThen (reports_copyFile ..) fun w' => deleteFile_replies drive srcFileID w')
      · exact formed_finish (reports_andThen (reports_upload ..) fun w' => rfl)
    · exact formed_finish (reports_andThen (reports_download ..) fun w' => deleteFile_replies drive srcFileID w')
  | listStoragesMethod | ejectMethod => simp [h] at hm

end GDriveProvider

/-! ## All handlers -/

/-- The request goes to one of the handlers that answer a client directly. -/
structure Direct (req : RequestData) : Prop where
  route : route req ≠ .usb
  method : req.methodType ∉ [.listStoragesMethod, .ejectMethod]

/-- The checks that are refused in a form of their own pass. -/
def InOrder (env : Env) (req : RequestData) (s : Service) : Prop :=
  match route req with
  | .internal => InternalStorageProvider.InOrder env.os req s.world
  | .network => NetworkProvider.InOrder env.net req s.network s.world
  | .gdrive => GDriveProvider.InOrder req s.gdrive s.world
  | .usb => True

/-- The shared validator's replies are well formed, and those to a request are
exactly when the checks pass whose refusals are not. -/
theorem replies_wellFormed_iff (env : Env) (req : RequestData) (hreq : Direct req) (s : Service) :
    Formed s.world (validateInterProviderOperation s.world req).1 ∧
      (Formed s.world (s.handle env req).world ↔ InOrder env req s) := by
  refine ⟨formed_validate s.world req, ?_⟩
  unfold Service.handle InOrder
  cases h : route req with
  | internal => exact InternalStorageProvider.formed_iff env.os req s.world hreq.method
  | network => exact NetworkProvider.formed_iff env.os env.net req s.network s.world hreq.method
  | gdrive => exact GDriveProvider.formed_iff env.os env.drive req s.gdrive s.world hreq.method
  | usb => exact absurd h hreq.route

/-- A list of the temporary files, on a drive named `id`. -/
def listTmp (id : String) : RequestData :=
  ⟨.internal, .listMethod, (JValue.object.put "driveId" (.text id)).put "path" (.text "/tmp"), "guest".toList⟩

theorem listTmp_wellFormed :
    Direct (listTmp "INTERNAL_STORAGE") ∧
      Formed (Service.start sharedFile ∅).world
        ((Service.start sharedFile ∅).handle Env.quiet (listTmp "INTERNAL_STORAGE")).world :=
  have hreq : Direct (listTmp "INTERNAL_STORAGE") := ⟨by decide, by decide⟩
  ⟨hreq, (replies_wellFormed_iff Env.quiet _ hreq _).2.2 ⟨rfl, rfl⟩⟩

/-- A list request that names another drive is refused without `returnValue`. -/
theorem listTmp_malformed :
    Direct (listTmp "USB_STORAGE") ∧
      ¬ Formed (Service.start sharedFile ∅).world
        ((Service.start sharedFile ∅).handle Env.quiet (listTmp "USB_STORAGE")).world := by
  refine ⟨⟨by decide, by decide⟩, fun h => ?_⟩
  have hchecked : Formed (Service.start sharedFile ∅).world
      (InternalStorageProvider.handleRequests Env.quiet.os (listTmp "USB_STORAGE") (Service.start sharedFile ∅).world) := h
  rw [InternalStorageProvider.formed_iff _ _ _ (by decide)] at hchecked
  exact absurd hchecked.2 (by decide)

end StorageAccess
