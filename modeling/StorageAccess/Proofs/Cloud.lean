import StorageAccess.Proofs.Handlers
/-!
# Cloud drives and their sessions

Every handler of the cloud provider but one looks at the owner of the drive a
request names before it does anything. The one is the command `authenticate`, and
the list of storages names every drive: runs without these two keep the drives of
a session to itself.
-/

open Posix Json

namespace StorageAccess

open SAFUtilityOperation

/-- A reply that reports success. -/
def Success (r : JValue) : Prop := (r.get "returnValue").asBool = true

/-- What the validator says of a request it refuses reports no success. -/
theorem not_success_of_mem_refusals {w : World} {req : RequestData} {r : JValue} (h : r ∈ refusals w req) :
    ¬ Success r := by
  have hu : ¬ Success (failReply SAFErrors.storageTypeNotSupported.code "Operation not Permitted") := nofun
  have he : ∀ e : Endpoint, ¬ Success e.reply := fun e => by cases e <;> nofun
  rcases List.mem_append.1 h with h | h
  · split at h
    · rw [List.mem_singleton.1 h]; exact hu
    · cases h
  · obtain ⟨e, -, rfl⟩ := Option.map_eq_some_iff.1 (Option.mem_toList.1 h)
    exact he e

namespace GDriveProvider

/-! ## Requests that name a drive -/

def IsCommand (type : String) (req : RequestData) : Prop :=
  req.methodType = .extraMethod ∧ operationType req = type.toList

/-- The request names the drive, by its id or by the client it was made for. -/
def Names (s : GDriveProvider) (req : RequestData) (driveId : Str) : Prop :=
  (req.methodType ∈ [.listMethod, .getPropMethod, .removeMethod, .renameMethod] ∧ req.str "driveId" = driveId) ∨
  (IsTransfer req ∧
    ((req.str "srcStorageType" = cloudName ∧ req.str "srcDriveId" = driveId) ∨
      (req.str "destStorageType" = cloudName ∧ req.str "destDriveId" = driveId))) ∨
  (IsCommand "authenticate" req ∧ req.str "driveId" = driveId) ∨
  ((IsCommand "login" req ∨ IsCommand "token" req) ∧ s.mClientIdDriveId[param req "clientId"]? = some driveId)

/-- The drive belongs to another session than the request's. -/
def Foreign (s : GDriveProvider) (req : RequestData) (driveId : Str) : Prop :=
  ∃ owner, s.mDriveIdSessionMap[driveId]? = some owner ∧ owner ≠ req.sessionId

/-- All users' data are as before, and no reply reports success. -/
def Repelled (s : GDriveProvider) (w : World) (result : GDriveProvider × World) : Prop :=
  result.1.mDriveIdUserDataMap = s.mDriveIdUserDataMap ∧ ∀ r ∈ newReplies w result.2, ¬ Success r

theorem repelled_reply {s s' : GDriveProvider} {w : World} {r : JValue}
    (hs : s'.mDriveIdUserDataMap = s.mDriveIdUserDataMap) (hr : ¬ Success r) : Repelled s w (s', w.reply r) := by
  refine ⟨hs, fun r' h => ?_⟩
  rw [newReplies_of_append (World.reply_replies w r), List.mem_singleton] at h
  rwa [h]

theorem Foreign.not_owns {s : GDriveProvider} {req : RequestData} {driveId : Str} (h : s.Foreign req driveId) :
    ¬ s.Owns req.sessionId driveId := by
  obtain ⟨owner, ho, hne⟩ := h
  rintro ⟨-, hs⟩
  rw [Std.ExtTreeMap.getD_eq_getD_getElem?, ho] at hs
  exact hne hs

theorem repelled_guarded {driveId : Str} {req : RequestData} {s : GDriveProvider} (h : s.Foreign req driveId) (w : World)
    (go : GDriveProvider → GDriveUserData → World → GDriveProvider × World) :
    Repelled s w (guarded driveId req s w go) := by
  rcases guarded_cases driveId req s w go with ⟨-, r, s', e, hs, hr⟩ | ⟨ho, -⟩
  · rw [e]
    exact repelled_reply hs (by simp [Success, hr])
  · exact absurd ho h.not_owns

/-- A transfer that names a foreign drive at either end is refused. -/
theorem repelled_transfer {driveId : Str} {req : RequestData} {s : GDriveProvider} (h : s.Foreign req driveId)
    (hn : (req.str "srcStorageType" = cloudName ∧ req.str "srcDriveId" = driveId) ∨
      (req.str "destStorageType" = cloudName ∧ req.str "destDriveId" = driveId)) (w : World)
    (go : GDriveProvider → GDriveUserData → World → GDriveProvider × World) : Repelled s w (s.transfer req w go) := by
  unfold transfer
  rcases validate_cases w req with ⟨-, e⟩ | ⟨-, e⟩ <;> simp only [e]
  · refine ⟨rfl, fun r hr => ?_⟩
    rw [newReplies_of_append rfl] at hr
    exact not_success_of_mem_refusals hr
  split
  · exact repelled_reply rfl nofun
  case isFalse ho =>
    suffices hd : transferDrive req = driveId by
      rw [hd]
      exact repelled_guarded h w go
    unfold transferDrive
    rcases hn with ⟨hs, rfl⟩ | ⟨hd, rfl⟩
    · rw [if_pos hs]
    · split
      case isTrue hs => exact not_not.1 fun hne => ho ⟨hs, hd, hne⟩
      case isFalse => rfl

/-- The command `authenticate`, with a token, for a drive of another session: its owner is not looked at. -/
def AuthenticatesForeign (s : GDriveProvider) (req : RequestData) : Prop :=
  IsCommand "authenticate" req ∧ validateExtraCommand ["secretToken"] req = true ∧ s.Foreign req (req.str "driveId")

/-- An extra command other than `authenticate` names a drive by its client. -/
theorem client_of_names {driveId : Str} {req : RequestData} {s : GDriveProvider} (hm : req.methodType = .extraMethod)
    (hn : s.Names req driveId) (hne : operationType req ≠ "authenticate".toList) :
    s.mClientIdDriveId[param req "clientId"]? = some driveId := by
  rcases hn with hn | hn | hn | hn
  · simp [hm] at hn
  · simp [IsTransfer, hm] at hn
  · exact absurd hn.1.2 hne
  · exact hn.2

theorem repelled_attachCloud (drive : Drive) {driveId : Str} {req : RequestData} {s : GDriveProvider}
    (hc : s.mClientIdDriveId[param req "clientId"]? = some driveId) (w : World) :
    Repelled s w (attachCloud drive req s w) := by
  have hmem : param req "clientId" ∈ s.mClientIdDriveId := (Table.mem_iff_get _).2 ⟨driveId, hc⟩
  unfold attachCloud
  extract_lets clientId
  rw [if_pos (Std.ExtTreeMap.contains_iff_mem.2 hmem)]
  exact repelled_reply rfl nofun

theorem repelled_setToken (drive : Drive) {driveId : Str} {req : RequestData} {s : GDriveProvider}
    (h : s.Foreign req driveId) (hc : s.mClientIdDriveId[param req "clientId"]? = some driveId) (w : World) :
    Repelled s w (setToken drive req s w) := by
  obtain ⟨owner, ho, hne⟩ := h
  have howner : (touch s.mDriveIdSessionMap driveId []).getD driveId [] = owner := by
    rw [Table.getD_touch, Std.ExtTreeMap.getD_eq_getD_getElem?, ho]
    rfl
  unfold setToken
  rw [hc]
  dsimp only
  rw [howner, if_pos hne]
  exact repelled_reply rfl nofun

theorem repelled_extraMethod (drive : Drive) {driveId : Str} {req : RequestData} {s : GDriveProvider}
    (hm : req.methodType = .extraMethod) (h : s.Foreign req driveId) (hn : s.Names req driveId)
    (hauth : ¬ s.AuthenticatesForeign req) (w : World) : Repelled s w (extraMethod drive req s w) := by
  unfold extraMethod
  split
  case isTrue hl =>
    exact repelled_attachCloud drive (client_of_names hm hn (by rw [hl.1]; decide)) w
  split
  case isTrue ha =>
    have hd : req.str "driveId" = driveId := by
      rcases hn with hn | hn | hn | ⟨hl | ht, -⟩
      · simp [hm] at hn
      · simp [IsTransfer, hm] at hn
      · exact hn.2
      · exact absurd (hl.2.symm.trans ha.1) (by decide)
      · exact absurd (ht.2.symm.trans ha.1) (by decide)
    exact absurd ⟨⟨hm, ha.1⟩, ha.2, hd.symm ▸ h⟩ hauth
  split
  case isTrue ht =>
    exact repelled_setToken drive h (client_of_names hm hn (by rw [ht.1]; decide)) w
  · exact repelled_reply rfl nofun

theorem repelled_handleRequests (os : Os) (drive : Drive) {driveId : Str} {req : RequestData} {s : GDriveProvider}
    (h : s.Foreign req driveId) (hn : s.Names req driveId) (hauth : ¬ s.AuthenticatesForeign req) (w : World) :
    Repelled s w (handleRequests os drive req s w) := by
  have hlisted (hm : req.methodType ∈ [.listMethod, .getPropMethod, .removeMethod, .renameMethod]) :
      req.str "driveId" = driveId := by
    rcases hn with hn | hn | hn | hn
    · exact hn.2
    · rcases hn.1 with h | h <;> simp [h] at hm
    · simp [hn.1.1] at hm
    · rcases hn.1 with h | h <;> simp [h.1] at hm
  have htransfer (hm : IsTransfer req) :
      (req.str "srcStorageType" = cloudName ∧ req.str "srcDriveId" = driveId) ∨
        (req.str "destStorageType" = cloudName ∧ req.str "destDriveId" = driveId) := by
    rcases hn with hn | hn | hn | hn
    · rcases hm with h | h <;> simp [h] at hn
    · exact hn.2
    · rcases hm with h | h <;> simp [h, IsCommand] at hn
    · rcases hm with h | h <;> simp [h, IsCommand] at hn
  unfold handleRequests
  cases hm : req.methodType with
  | extraMethod => exact repelled_extraMethod drive hm h hn hauth w
  | listMethod => exact repelled_guarded ((hlisted (by simp [hm])).symm ▸ h) w _
  | getPropMethod => exact repelled_guarded ((hlisted (by simp [hm])).symm ▸ h) w _
  | removeMethod => exact repelled_guarded ((hlisted (by simp [hm])).symm ▸ h) w _
  | renameMethod => exact repelled_guarded ((hlisted (by simp [hm])).symm ▸ h) w _
  | copyMethod => exact repelled_transfer h (htransfer (.inl hm)) w _
  | moveMethod => exact repelled_transfer h (htransfer (.inr hm)) w _
  | listStoragesMethod | ejectMethod => simp [Names, IsTransfer, IsCommand, hm] at hn

/-! ## The list of storages -/

/-- The drive ids a reply to a list of storages names. -/
def listedDrives (r : JValue) : List Str :=
  (((r.get "response").get "cloud").items).map fun entry => (entry.get "driveId").asString

theorem listedDrives_subset (s : GDriveProvider) (req : RequestData) (w : World) :
    ∀ r ∈ newReplies w (listStoragesMethod req s w), ∀ driveId ∈ listedDrives r, driveId ∈ s.mDriveIdSessionMap := by
  intro r hr driveId hd
  rw [newReplies_of_append rfl, List.mem_singleton] at hr
  subst hr
  unfold listedDrives at hd
  cases hobj : req.params.isObject with
  | false => cases hp : req.params <;> simp_all [JValue.put, JValue.get, JValue.items, JValue.isObject]
  | true =>
    rw [JValue.get_put_self _ hobj, JValue.get_put_self _ rfl] at hd
    simp only [JValue.items, List.map_map, List.mem_map] at hd
    obtain ⟨key, hk, rfl⟩ := hd
    exact Std.ExtTreeMap.mem_keys.1 hk

end GDriveProvider

/-! ## Runs -/

/-- The step keeps the cloud drives of other sessions from the one it serves. -/
def KeepsCloud (s : Service) : Service.Label → Prop
  | .request env req => route req = .gdrive →
      (∀ driveId, s.gdrive.Names req driveId → s.gdrive.Foreign req driveId →
        GDriveProvider.Repelled s.gdrive s.world ((s.handle env req).gdrive, (s.handle env req).world)) ∧
      (req.methodType = .listStoragesMethod → ∀ r ∈ newReplies s.world (s.handle env req).world,
        ∀ driveId ∈ GDriveProvider.listedDrives r, s.gdrive.mDriveIdSessionMap[driveId]? = some req.sessionId)
  | _ => True

/-- The step does not authenticate a foreign drive, nor list the storages while there is one. -/
def AsksOwnCloud (s : Service) : Service.Label → Prop
  | .request _ req => route req = .gdrive →
      ¬ s.gdrive.AuthenticatesForeign req ∧
      (req.methodType = .listStoragesMethod → ∀ driveId, ¬ s.gdrive.Foreign req driveId)
  | _ => True

theorem keepsCloud_of_asksOwnCloud (s : Service) (l : Service.Label) (h : AsksOwnCloud s l) : KeepsCloud s l := by
  cases l with
  | devices root req => trivial
  | others fs cloud => trivial
  | request env req =>
    intro hr
    obtain ⟨hauth, hlist⟩ := h hr
    have hhandle : ((s.handle env req).gdrive, (s.handle env req).world) =
        GDriveProvider.handleRequests env.os env.drive req s.gdrive s.world := by
      unfold Service.handle
      rw [hr]
    refine ⟨fun driveId hn hf => ?_, fun hm r hrep driveId hd => ?_⟩
    · rw [hhandle]
      exact GDriveProvider.repelled_handleRequests env.os env.drive hf hn hauth s.world
    · have hw : (s.handle env req).world = GDriveProvider.listStoragesMethod req s.gdrive s.world := by
        have hsnd := congrArg Prod.snd hhandle
        simpa only [GDriveProvider.handleRequests, hm] using hsnd
      rw [hw] at hrep
      have hmem := GDriveProvider.listedDrives_subset s.gdrive req s.world r hrep driveId hd
      obtain ⟨owner, ho⟩ := (Table.mem_iff_get _).1 hmem
      rw [ho]
      exact congrArg some (not_not.1 fun hne => hlist hm driveId ⟨owner, ho, hne⟩)

/-- In every run that asks so, every step keeps the drives of other sessions from the one it serves. -/
theorem cloud_isolated (fs : FS) (cloud : Table CloudFile) (ls : List Service.Label)
    (hls : Runs.Meets Service.step AsksOwnCloud (Service.start fs cloud) ls) :
    Runs.Meets Service.step KeepsCloud (Service.start fs cloud) ls :=
  hls.imp keepsCloud_of_asksOwnCloud

def commandRequest (type : String) (driveId : String) (payload : JValue) (sessionId : String) : RequestData :=
  ⟨.gdrive, .extraMethod,
    (JValue.object.put "driveId" (.text driveId)).put "operation"
      ((JValue.object.put "type" (.text type)).put "payload" payload),
    sessionId.toList⟩

def login : RequestData :=
  commandRequest "login" "" ((JValue.object.put "clientId" (.text "c")).put "clientSecret" (.text "s")) "guest2"

def authenticate : RequestData :=
  commandRequest "authenticate" "GDRIVE_1" (JValue.object.put "secretToken" (.text "t")) "guest"

def removeFromCloud : RequestData :=
  ⟨.gdrive, .removeMethod, (JValue.object.put "driveId" (.text "GDRIVE_1")).put "path" (.text "/a"), "guest".toList⟩

/-- The service once another session has a cloud drive. -/
def loggedIn : Service :=
  Service.step (Service.start (FS.ofEntries [] FS.isTree_nil) ∅) (.request Env.quiet login)

theorem foreign_loggedIn {req : RequestData} (h : req.sessionId = "guest".toList) :
    loggedIn.gdrive.Foreign req "GDRIVE_1".toList :=
  ⟨"guest2".toList, rfl, by rw [h]; decide⟩

theorem remove_repelled :
    GDriveProvider.Repelled loggedIn.gdrive loggedIn.world
      ((loggedIn.handle Env.quiet removeFromCloud).gdrive, (loggedIn.handle Env.quiet removeFromCloud).world) := by
  have hrun : Runs.Meets Service.step AsksOwnCloud (Service.start (FS.ofEntries [] (by decide)) ∅)
      [.request Env.quiet login, .request Env.quiet removeFromCloud] :=
    ⟨fun _ => ⟨fun h => absurd h.1.2 (by decide), nofun⟩, fun _ => ⟨fun h => absurd h.1.1 nofun, nofun⟩, trivial⟩
  have hkept := cloud_isolated _ _ _ hrun
  exact (hkept.2.1 rfl).1 "GDRIVE_1".toList (.inl ⟨by decide, by decide⟩) (foreign_loggedIn rfl)

/-- Another session's drive is given a token, a credential and a file index, and the reply reports success. -/
theorem authenticate_not_repelled :
    loggedIn.gdrive.Names authenticate "GDRIVE_1".toList ∧ loggedIn.gdrive.Foreign authenticate "GDRIVE_1".toList ∧
      ¬ GDriveProvider.Repelled loggedIn.gdrive loggedIn.world
        ((loggedIn.handle Env.quiet authenticate).gdrive, (loggedIn.handle Env.quiet authenticate).world) := by
  refine ⟨.inr (.inr (.inl ⟨⟨rfl, by decide⟩, by decide⟩)), foreign_loggedIn rfl, fun h => ?_⟩
  have hany : (newReplies loggedIn.world (loggedIn.handle Env.quiet authenticate).world).any
      (fun r => (r.get "returnValue").asBool) = true := rfl
  obtain ⟨r, hr, hs⟩ := List.any_eq_true.1 hany
  exact h.2 r hr hs

end StorageAccess
