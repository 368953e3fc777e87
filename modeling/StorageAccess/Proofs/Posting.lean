import StorageAccess.Proofs.Calls
/-!
# What a client is sent

The client of a call gets one JSON object for each reply of the provider: the
callbacks never take the branch for a message without a storage type, and the
lists that the USB provider collects do not reach the client.
-/

open Posix Json

namespace StorageAccess

open SAFUtilityOperation

/-- Every reply the handler sent is a JSON object. -/
def Objects (w w' : World) : Prop := ∀ r ∈ newReplies w w', r.isObject = true

theorem Formed.objects {w w' : World} (h : Formed w w') : Objects w w' := fun r hr => (h r hr).isObject

theorem objects_reply {w w₁ : World} (h : w₁.replies = w.replies) {r : JValue} (hr : r.isObject = true) :
    Objects w (w₁.reply r) := by
  have happend : (w₁.reply r).replies = w.replies ++ [r] := by rw [World.reply, h]
  rwa [Objects, newReplies_of_append happend, List.forall_mem_singleton]

theorem objects_of_eq {w w' : World} (h : w'.replies = w.replies) : Objects w w' := (formed_of_eq h).objects

/-- After the shared validator only the handler's own replies matter. -/
theorem objects_afterValidator {w : World} (req : RequestData) {go : World → World} (hgo : Objects w (go w)) :
    Objects w (afterValidator w req go) := by
  have hv := (formed_validate w req).objects
  unfold afterValidator
  rcases validate_cases w req with ⟨-, h⟩ | ⟨-, h⟩ <;> rw [h] at hv ⊢
  · exact hv
  · exact hgo

theorem objects_polled (errorText : Int → String) (os : Os) (req : RequestData) (w : World) :
    Objects w (polled errorText os req w) := (formed_polled errorText os req w).objects

/-! ## The internal provider -/

namespace InternalStorageProvider

theorem objects_checked {req : RequestData} {w : World} {go : World → World} (hgo : Objects w (go w)) :
    Objects w (checked req w go) := by
  unfold checked
  split
  · exact objects_reply rfl rfl
  split
  · exact objects_reply rfl rfl
  · exact hgo

theorem objects_getProperties (os : Os) (req : RequestData) (w : World) : Objects w (getProperties os req w) := by
  have hreplies := sought_replies os req w
  have hstep := propertiesStep os req w
  generalize getProperties os req w = w' at hstep
  cases hstep with
  | otherDrive => exact objects_reply rfl rfl
  | refused => exact objects_reply hreplies rfl
  | failed own valid done op =>
    have hlog : ((sought os req w).1.logIf done op).replies = w.replies := hreplies
    exact objects_reply hlog rfl
  | described own valid done op =>
    have hown := getInternalPath_replies os ((sought os req w).1.logIf done op) req.sessionId
    exact objects_reply (hown.trans hreplies) (wellFormed_success.describe _ _ _ _).isObject

/-- Every reply of the internal provider is an object, given that the parameters of the request are one. -/
theorem objects_handleRequests (os : Os) (req : RequestData) (hreq : req.params.isObject = true) (w : World) :
    Objects w (handleRequests os req w) := by
  by_cases ht : IsTransfer req
  · rw [handleRequests_transfer os ht]
    unfold transfer
    split
    · exact objects_reply rfl rfl
    · have hafter := objects_afterValidator req (objects_polled getInternalErrorString os req w)
      rwa [← afterValidator_eq] at hafter
  unfold handleRequests
  cases h : req.methodType with
  | listMethod => exact objects_checked (objects_reply rfl (wellFormed_listReply ..).isObject)
  | removeMethod => exact objects_checked (objects_reply rfl (wellFormed_statusReply ..).isObject)
  | renameMethod => exact objects_checked (objects_reply rfl (wellFormed_statusReply ..).isObject)
  | getPropMethod => exact objects_getProperties os req w
  | extraMethod => exact objects_of_eq rfl
  | ejectMethod => exact objects_reply rfl (by rw [JValue.isObject_put, hreq])
  | listStoragesMethod => exact objects_reply (getInternalPath_replies ..) (by rw [JValue.isObject_put, hreq])
  | copyMethod | moveMethod => simp [IsTransfer, h] at ht

end InternalStorageProvider

/-! ## The USB provider -/

namespace USBStorageProvider

theorem objects_checked {P : JValue → Prop} {reg : Registry} {unmounted : USBErrors} {req : RequestData} {w : World}
    {go : World → World} (herror : ∀ e, P (usbError e)) (hgo : ∀ r ∈ newReplies w (go w), P r) :
    ∀ r ∈ newReplies w (checked reg unmounted req w go), P r := by
  have hrefused (e : USBErrors) : ∀ r ∈ newReplies w (w.reply (usbError e)), P r := by
    rw [newReplies_of_append (World.reply_replies w _), List.forall_mem_singleton]
    exact herror e
  unfold checked
  split
  · exact hrefused _
  split
  · exact hrefused _
  · exact hgo

/-- Every reply is an object, but for the lists that `getProperties` and `eject` collect. -/
theorem objects_of_method (os : Os) (luna : Luna) (reg : Registry) (req : RequestData) (w : World)
    (hm : req.methodType ∉ [.getPropMethod, .ejectMethod]) : Objects w (handleRequests os luna reg req w) := by
  by_cases ht : IsTransfer req
  · rw [handleRequests_transfer os luna reg ht]
    unfold transfer
    dsimp only
    split
    · exact objects_reply rfl rfl
    split
    · exact objects_reply rfl rfl
    split
    · exact objects_reply rfl rfl
    · have hafter := objects_afterValidator req (objects_polled getUSBErrorString os req w)
      rwa [← afterValidator_eq] at hafter
  unfold handleRequests
  cases h : req.methodType with
  | listMethod => exact objects_checked (fun _ => rfl) (objects_reply rfl (wellFormed_listReply ..).isObject)
  | removeMethod => exact objects_checked (fun _ => rfl) (objects_reply rfl (wellFormed_statusReply ..).isObject)
  | renameMethod => exact objects_checked (fun _ => rfl) (objects_reply rfl (wellFormed_statusReply ..).isObject)
  | extraMethod | listStoragesMethod => exact objects_of_eq rfl
  | copyMethod | moveMethod => simp [IsTransfer, h] at ht
  | getPropMethod | ejectMethod => simp [h] at hm

/-- A reply to a request for properties is an object, or without a path the list of the replies collected. -/
theorem getProperties_replies (os : Os) (luna : Luna) (reg : Registry) (req : RequestData) (w : World) :
    ∀ r ∈ newReplies w (getPropertiesMethod os luna reg req w),
      r.isObject = true ∨ (req.params.hasKey "path" = false ∧ r.isArray = true) := by
  have hobject {w₁ : World} (h : w₁.replies = w.replies) {r : JValue} (hr : r.isObject = true) :
      ∀ r' ∈ newReplies w (w₁.reply r), r'.isObject = true ∨ (req.params.hasKey "path" = false ∧ r'.isArray = true) :=
    fun r' hr' => .inl (objects_reply h hr r' hr')
  refine objects_checked (fun _ => .inl rfl) ?_
  dsimp only
  split
  · exact hobject rfl rfl
  split
  · exact hobject rfl rfl
  split
  · split
    · exact hobject rfl rfl
    · exact hobject rfl (wellFormed_success.describe _ _ _ _).isObject
  case isFalse hpath =>
    rw [onGetPropertiesReply, onReply_eq, newReplies_of_append (World.reply_replies w _), List.forall_mem_singleton]
    exact .inr ⟨Bool.eq_false_iff.2 hpath, rfl⟩

/-- An eject request is answered by an error, or by the one reply of the device manager. -/
theorem eject_replies (luna : Luna) (reg : Registry) (req : RequestData) (hnext : (req.params.get "nextReq").items = [])
    (hresponse : (req.params.get "response").items = []) (w : World) :
    ∀ r ∈ newReplies w (ejectMethod luna reg req w),
      (∃ e, r = usbError e) ∨ ∃ payload, r = .arr [luna usbEjectMethod payload] := by
  refine objects_checked (fun e => .inl ⟨e, rfl⟩) ?_
  dsimp only
  rw [hnext, hresponse, onReply_eq, newReplies_of_append (World.reply_replies w _), List.forall_mem_singleton]
  exact .inr ⟨_, rfl⟩

end USBStorageProvider

/-! ## The network provider -/

namespace NetworkProvider

theorem objects_mountSambaServer (net : Net) (req : RequestData) (s : NetworkProvider) (w : World) :
    Objects w (mountSambaServer net req s w).2 := by
  have hstep := mountStep_mountSambaServer net req s w
  generalize mountSambaServer net req s w = r at hstep
  cases hstep with
  | incomplete _ _ _ world => exact world ▸ objects_reply rfl rfl
  | known _ _ _ world => exact world ▸ objects_reply rfl rfl
  | unmade _ _ _ _ world => exact world ▸ objects_reply rfl rfl
  | inUse _ _ _ _ _ _ world => exact world ▸ objects_reply rfl rfl
  | failed _ _ _ _ _ _ _ world => exact world ▸ objects_reply rfl rfl
  | mounted _ _ _ _ _ _ _ _ world => exact world ▸ objects_reply (afterMount_replies ..) rfl

theorem objects_extraMethod (net : Net) (req : RequestData) (s : NetworkProvider) (w : World) :
    Objects w (extraMethod net req s w).2 := by
  unfold extraMethod
  split
  · exact objects_mountSambaServer net req s w
  split
  · exact objects_reply rfl rfl
  · exact objects_reply rfl rfl

theorem objects_list (os : Os) (net : Net) (req : RequestData) (s : NetworkProvider) (w : World) :
    Objects w (list os net req s w).2 := by
  unfold list
  dsimp only
  split
  · exact objects_reply rfl rfl
  split
  · split
    · exact objects_reply rfl rfl
    · exact objects_reply rfl (wellFormed_listReply ..).isObject
  split
  · exact objects_reply rfl rfl
  split <;> exact objects_reply rfl rfl

theorem objects_getProperties (os : Os) (net : Net) (req : RequestData) (s : NetworkProvider) (w : World) :
    Objects w (getProperties os net req s w).2 := by
  have hstart : WellFormed ((JValue.object.put "returnValue" (.bool true)).put "storageType" (.text "network")) :=
    wellFormed_success.put _ _ (by decide)
  unfold getProperties
  extract_lets driveId respObj s₁ own path devs s₂ own₂ path₂
  split
  · exact objects_reply rfl rfl
  split
  · exact objects_reply rfl rfl
  split
  · exact objects_reply rfl rfl
  dsimp only
  split
  · exact objects_reply rfl rfl
  · refine objects_reply rfl ?_
    rw [JValue.isObject_put]
    exact (hstart.describe _ _ _ _).isObject

theorem objects_checked {req : RequestData} {s : NetworkProvider} {w : World} {go : World → World}
    (hgo : Objects w (go w)) : Objects w (s.checked req w go) := by
  unfold checked
  split
  · exact objects_reply rfl rfl
  split
  · exact objects_reply rfl rfl
  · exact hgo

/-- The answers to an eject request, within its parameters. -/
theorem eject_replies (os : Os) (net : Net) (req : RequestData) (s : NetworkProvider) (w : World) :
    ∀ r ∈ newReplies w (eject os net req s w).2, ∃ respObj : JValue, respObj.isObject = true ∧
      r = req.params.put "response" respObj := by
  have hone {w₁ : World} (h : w₁.replies = w.replies) {respObj : JValue} (hobj : respObj.isObject = true) :
      ∀ r ∈ newReplies w (w₁.reply (ejectReply req respObj)), ∃ respObj : JValue, respObj.isObject = true ∧
        r = req.params.put "response" respObj := by
    have happend : (w₁.reply (ejectReply req respObj)).replies = w.replies ++ [ejectReply req respObj] := by
      rw [World.reply, h]
    rw [newReplies_of_append happend, List.forall_mem_singleton]
    exact ⟨respObj, hobj, rfl⟩
  have hstep := ejectStep_eject os net req s w
  generalize eject os net req s w = r at hstep
  cases hstep with
  | refused _ _ world => exact world ▸ hone rfl rfl
  | unlisted _ _ _ world => exact world ▸ hone rfl rfl
  | stuck _ _ _ _ _ world => exact world ▸ hone rfl rfl
  | ejected _ _ _ _ _ _ world => exact world ▸ hone rfl rfl

theorem objects_handleRequests (os : Os) (net : Net) (req : RequestData) (hreq : req.params.isObject = true)
    (s : NetworkProvider) (w : World) : Objects w (handleRequests os net req s w).2 := by
  by_cases ht : IsTransfer req
  · rw [handleRequests_transfer os net ht]
    refine objects_afterValidator req ?_
    unfold owned
    split
    · exact objects_reply rfl rfl
    · exact objects_polled _ os req w
  unfold handleRequests
  cases h : req.methodType with
  | extraMethod => exact objects_extraMethod net req s w
  | listMethod => exact objects_list os net req s w
  | getPropMethod => exact objects_getProperties os net req s w
  | removeMethod => exact objects_checked (objects_reply rfl (wellFormed_statusReply ..).isObject)
  | renameMethod => exact objects_checked (objects_reply rfl (wellFormed_statusReply ..).isObject)
  | copyMethod | moveMethod => simp [IsTransfer, h] at ht
  | listStoragesMethod => exact objects_reply rfl (by rw [JValue.isObject_put, hreq])
  | ejectMethod =>
    intro r hr
    obtain ⟨respObj, -, rfl⟩ := eject_replies os net req s w r hr
    rw [JValue.isObject_put, hreq]

end NetworkProvider

/-! ## The cloud provider -/

namespace GDriveProvider

theorem objects_failure (w : World) (errorCode : Int) : Objects w (w.reply (cloudFailure errorCode)) :=
  (formed_failure w errorCode).objects

/-- A drive that is not there is refused in the short form. -/
theorem objects_guarded {driveId : Str} {req : RequestData} {s : GDriveProvider} {w : World}
    {go : GDriveProvider → GDriveUserData → World → GDriveProvider × World} (h : driveId ∉ s.mDriveIdUserDataMap) :
    Objects w (guarded driveId req s w go).2 := by
  unfold guarded
  split
  · exact objects_reply rfl rfl
  case h_2 user hu => exact absurd ((Table.mem_iff_get _).2 ⟨user, hu⟩) h

theorem objects_transfer {req : RequestData} {s : GDriveProvider} {w : World}
    {go : GDriveProvider → GDriveUserData → World → GDriveProvider × World}
    (h : OneDrive req → transferDrive req ∉ s.mDriveIdUserDataMap) : Objects w (s.transfer req w go).2 := by
  have hv := (formed_validate w req).objects
  unfold transfer
  rcases validate_cases w req with ⟨-, hr⟩ | ⟨-, hr⟩ <;> rw [hr] at hv ⊢
  · exact hv
  dsimp only
  split
  · exact objects_reply rfl rfl
  case isFalse hone => exact objects_guarded (h (by simpa [OneDrive] using hone))

theorem objects_extraMethod (drive : Drive) (req : RequestData) (s : GDriveProvider) (w : World) :
    Objects w (extraMethod drive req s w).2 := by
  unfold extraMethod
  split
  · exact (formed_attachCloud drive req s w).objects
  split
  · unfold authenticateCloud
    dsimp only
    split
    · exact objects_reply rfl rfl
    split
    · exact objects_failure w _
    split
    · exact objects_reply rfl rfl
    · exact objects_failure w _
  split
  · exact (formed_setToken drive req s w).objects
  · exact objects_failure w _

/-- Every reply is an object: it has the form of the others, or is one of the short refusals. -/
theorem objects_handleRequests (os : Os) (drive : Drive) (req : RequestData) (hreq : req.params.isObject = true)
    (s : GDriveProvider) (w : World) : Objects w (handleRequests os drive req s w).2 := by
  by_cases hm : req.methodType ∈ [.listStoragesMethod, .ejectMethod]
  · unfold handleRequests
    simp only [List.mem_cons, List.not_mem_nil, or_false] at hm
    rcases hm with h | h <;> rw [h]
    · exact objects_reply rfl (by rw [JValue.isObject_put, hreq])
    · exact objects_reply rfl (by rw [JValue.isObject_put, hreq])
  by_cases hin : InOrder req s w
  · exact ((formed_iff os drive req s w hm).2 hin).objects
  unfold InOrder at hin
  unfold handleRequests
  cases h : req.methodType with
  | extraMethod => exact objects_extraMethod drive req s w
  | listMethod | getPropMethod | removeMethod | renameMethod =>
    rw [h] at hin
    exact objects_guarded hin
  | copyMethod | moveMethod =>
    rw [h] at hin
    exact objects_transfer fun hone hmem => hin fun _ => ⟨hone, hmem⟩
  | listStoragesMethod | ejectMethod => simp [h] at hm

end GDriveProvider

/-! ## All calls -/

namespace SAFLunaService

theorem isObject_readReply {respObj : JValue} (h : respObj.isObject = true) (eachObj : JValue) :
    (USBPbnJsonParser.readReply respObj eachObj).isObject = true := by
  unfold USBPbnJsonParser.readReply
  extract_lets infoObj withTotal withDrive
  split
  · rw [JValue.isObject_put, h]
  split
  · rw [JValue.isObject_put, JValue.isObject_put, h]
  split
  · unfold withDrive withTotal
    rw [JValue.isObject_put]
    split <;> split <;> simp [h]
  · exact h

/-- Collected replies are read into one object. -/
theorem isObject_parseGetProperties {rootObj : JValue} (h : rootObj.isObject = true ∨ rootObj.isArray = true) :
    (USBPbnJsonParser.parseGetProperties rootObj).isObject = true := by
  have hfold (l : List JValue) (respObj : JValue) (hobj : respObj.isObject = true) :
      (l.foldl USBPbnJsonParser.readReply respObj).isObject = true := by
    induction l generalizing respObj with
    | nil => exact hobj
    | cons x l ih => exact ih _ (isObject_readReply hobj x)
  unfold USBPbnJsonParser.parseGetProperties
  split
  · exact hfold _ _ rfl
  case isFalse harray =>
  split
  · exact h.resolve_right harray
  · exact hfold _ _ rfl

/-- But for the two methods whose replies the USB provider collects, a provider replies objects. -/
theorem objects_handle (env : Env) (s : Service) (req : RequestData) (hreq : req.params.isObject = true)
    (hm : route req = .usb → req.methodType ∉ [.getPropMethod, .ejectMethod]) :
    Objects s.world (s.handle env req).world := by
  unfold Service.handle
  cases h : route req with
  | internal => exact InternalStorageProvider.objects_handleRequests env.os req hreq s.world
  | usb => exact USBStorageProvider.objects_of_method env.os env.luna s.usb req s.world (hm h)
  | network => exact NetworkProvider.objects_handleRequests env.os env.net req hreq s.network s.world
  | gdrive => exact GDriveProvider.objects_handleRequests env.os env.drive req hreq s.gdrive s.world

theorem route_of_not_transfer {req : RequestData} (h : ¬ IsTransfer req) : route req = req.storageType :=
  if_neg fun hr => h hr.1

/-- Outside the USB provider an eject request is answered within its parameters. -/
theorem eject_replies (env : Env) (s : Service) (req : RequestData) (he : req.methodType = .ejectMethod)
    (hr : route req ≠ .usb) : ∀ r ∈ newReplies s.world (s.handle env req).world,
      ∃ respObj : JValue, respObj.isObject = true ∧ r = req.params.put "response" respObj := by
  have hone (respObj : JValue) (hobj : respObj.isObject = true) :
      ∀ r ∈ newReplies s.world (s.world.reply (req.params.put "response" respObj)),
        ∃ respObj : JValue, respObj.isObject = true ∧ r = req.params.put "response" respObj := by
    rw [newReplies_of_append (World.reply_replies s.world _), List.forall_mem_singleton]
    exact ⟨respObj, hobj, rfl⟩
  unfold Service.handle
  cases h : route req with
  | internal =>
    rw [InternalStorageProvider.handleRequests, he]
    exact hone _ rfl
  | usb => exact absurd h hr
  | network =>
    rw [NetworkProvider.handleRequests, he]
    exact NetworkProvider.eject_replies env.os env.net req s.network s.world
  | gdrive =>
    rw [GDriveProvider.handleRequests, he]
    exact hone _ rfl

theorem postReply_eq {reqObj rootObj : JValue} {storageType : StorageType} (h : storageTypeOf reqObj = some storageType) :
    postReply reqObj rootObj = rootObj := by
  rw [postReply, h]

/-- What is posted for a reply of the provider is an object. -/
theorem isObject_onReply {env : Env} (hluna : ∀ uri payload, (env.luna uri payload).isObject = true) {type : MethodType}
    {reqObj : JValue} {sessionId : Str} {req : RequestData} (h : MadeOf type reqObj sessionId req) (s : Service)
    {callback : JValue → JValue → JValue} (hc : onReply type = some callback) :
    ∀ r ∈ newReplies s.world (s.handle env req).world, (callback reqObj r).isObject = true := by
  have hm : type ≠ .listStoragesMethod := by
    rintro rfl
    cases hc
  have htype := h.storageType hm
  have hplain (hn : type ∉ [.getPropMethod, .ejectMethod]) :=
    objects_handle env s req h.isObject fun _ => by rw [h.methodType]; exact hn
  intro r hr
  cases type with
  | listStoragesMethod => exact absurd rfl hm
  | extraMethod =>
    cases hc
    exact hplain (by decide) r hr
  | listMethod | copyMethod | moveMethod | removeMethod | renameMethod =>
    cases hc
    refine Eq.trans ?_ (hplain (by decide) r hr)
    exact congrArg JValue.isObject (postReply_eq htype)
  | getPropMethod =>
    cases hc
    have hroute : route req = req.storageType := route_of_not_transfer (by simp [IsTransfer, h.methodType])
    unfold onGetPropertiesReply
    rw [htype]
    by_cases husb : req.storageType = .usb
    · -- the list of collected replies comes only where it is read
      rw [Service.handle, hroute, husb] at hr
      simp only [USBStorageProvider.handleRequests, h.methodType] at hr
      have hreplies := USBStorageProvider.getProperties_replies env.os env.luna s.usb req s.world r hr
      rw [h.params] at hreplies
      rw [husb]
      dsimp only [paramsOf, id] at hreplies ⊢
      split
      case isTrue hpath => exact hreplies.resolve_right fun hlist => by simp [hpath] at hlist
      case isFalse => exact isObject_parseGetProperties (hreplies.imp_right And.right)
    · have hobj := objects_handle env s req h.isObject (fun hu => absurd (hroute.symm.trans hu) husb) r hr
      cases hs : req.storageType with
      | usb => exact absurd hs husb
      | internal | gdrive | network => exact hobj
  | ejectMethod =>
    cases hc
    have hroute : route req = req.storageType := route_of_not_transfer (by simp [IsTransfer, h.methodType])
    have hparams : req.params = reqObj := h.params
    have hunknown {key : String} (hk : (schema .ejectMethod).props.lookup key = none) :
        (req.params.get key).items = [] := by
      rw [hparams, Schema.get_unknown h.form hk]
      rfl
    unfold onEjectReply
    rw [htype]
    by_cases husb : req.storageType = .usb
    · rw [Service.handle, hroute, husb] at hr
      simp only [USBStorageProvider.handleRequests, h.methodType] at hr
      rw [husb]
      rcases USBStorageProvider.eject_replies env.luna s.usb req (hunknown (by decide)) (hunknown (by decide)) s.world r hr
        with ⟨e, rfl⟩ | ⟨payload, rfl⟩
      · rfl
      · exact hluna _ payload
    · obtain ⟨respObj, hobj, rfl⟩ := eject_replies env s req h.methodType (fun hu => husb (hroute.symm.trans hu)) r hr
      have hget : (req.params.put "response" respObj).get "response" = respObj := JValue.get_put_self _ h.isObject _ _
      cases hs : req.storageType with
      | usb => exact absurd hs husb
      | internal | gdrive | network =>
        dsimp only
        rw [hget, hobj]

/-- What the client of a device method is sent: one error that names the first check
its message fails, or one object for each reply of the provider its request is handed
to. But for the methods that unpack a reply, that object is the reply itself. -/
theorem call_answered_in_objects (env : Env) (hluna : ∀ uri payload, (env.luna uri payload).isObject = true)
    (type : MethodType) (hm : type ≠ .listStoragesMethod) (message : Option JValue) (sessionId : Str) (s : Service) :
    (∃ errorCode, Fault type message errorCode ∧
        call type message sessionId = .respond (respondWithError errorCode)) ∨
      ∃ req, call type message sessionId = .addRequest req ∧
        let replies := newReplies s.world (s.handle env req).world
        let sent := posts type message replies
        sent.length = replies.length ∧ (∀ r ∈ sent, r.isObject = true) ∧
          (type ∉ [.getPropMethod, .ejectMethod] → sent = replies) := by
  rcases call_cases type message sessionId with ⟨req, hreq, hcall⟩ | ⟨-, errorCode, hfault, hcall⟩
  case inr => exact .inl ⟨errorCode, hfault, hcall⟩
  obtain ⟨reqObj, rfl, hmade⟩ := madeOf hreq
  obtain ⟨callback, hc⟩ : ∃ callback, onReply type = some callback := by
    cases type with
    | listStoragesMethod => exact absurd rfl hm
    | _ => exact ⟨_, rfl⟩
  have hobj := isObject_onReply hluna hmade s hc
  refine .inr ⟨req, hcall, ?_⟩
  unfold posts
  rw [hc]
  dsimp only
  refine ⟨List.length_map .., fun r hr => ?_, fun hn => ?_⟩
  · obtain ⟨reply, hreply, rfl⟩ := List.mem_map.1 hr
    exact hobj reply hreply
  · -- these methods post the reply they get
    have hsame (reply : JValue) : callback reqObj reply = reply := by
      cases type with
      | getPropMethod | ejectMethod => exact absurd (by decide) hn
      | listStoragesMethod => cases hc
      | extraMethod =>
        cases hc
        rfl
      | listMethod | copyMethod | moveMethod | removeMethod | renameMethod =>
        cases hc
        exact postReply_eq (hmade.storageType hm)
    exact List.map_id'' hsame _

/-- A call to eject the internal storage. -/
def ejectInternal : JValue :=
  (JValue.object.put "storageType" (.text "internal")).put "driveId" (.text "INTERNAL_STORAGE")

/-- The call is answered by the object its provider has put into the parameters. -/
theorem ejectInternal_answered :
    let s := Service.start (FS.ofEntries [] FS.isTree_nil) ∅
    (∃ errorCode, Fault .ejectMethod (some ejectInternal) errorCode ∧
        call .ejectMethod (some ejectInternal) "guest".toList = .respond (respondWithError errorCode)) ∨
      ∃ req, call .ejectMethod (some ejectInternal) "guest".toList = .addRequest req ∧
        let replies := newReplies s.world (s.handle Env.quiet req).world
        let sent := posts .ejectMethod (some ejectInternal) replies
        sent.length = replies.length ∧ (∀ r ∈ sent, r.isObject = true) ∧
          (.ejectMethod ∉ [MethodType.getPropMethod, .ejectMethod] → sent = replies) :=
  call_answered_in_objects Env.quiet (fun _ _ => rfl) .ejectMethod (by decide) (some ejectInternal) "guest".toList _

end SAFLunaService

end StorageAccess
