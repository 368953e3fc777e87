import StorageAccess.Proofs.CloudMove
import StorageAccess.Proofs.Shares
/-!
# Network drives and their owners

Every handler of the network provider asks for the owner of the drive before it
does anything. A transfer to the cloud is handled by the cloud provider, which
asks for the owner of the cloud drive only.
-/

open Posix Json

namespace StorageAccess

open SAFUtilityOperation

/-! ## Error replies -/

/-- The reply is an error code and its text; for `eject` they stand next to the request's parameters. -/
def IsError (req : RequestData) (r : JValue) : Prop :=
  ∃ code text, r = errorReply code text ∨ r = failReply code text ∨ r = req.params.put "response" (errorReply code text)

theorem isError_errorReply (req : RequestData) (code : Int) (text : String) : IsError req (errorReply code text) :=
  ⟨code, text, .inl rfl⟩

theorem isError_failReply (req : RequestData) (code : Int) (text : String) : IsError req (failReply code text) :=
  ⟨code, text, .inr (.inl rfl)⟩

theorem isError_of_mem_refusals {w : World} {req : RequestData} {r : JValue} (h : r ∈ refusals w req) : IsError req r := by
  rcases List.mem_append.1 h with h | h
  · split at h
    · rw [List.mem_singleton.1 h]
      exact isError_failReply ..
    · cases h
  · obtain ⟨e, -, rfl⟩ := Option.map_eq_some_iff.1 (Option.mem_toList.1 h)
    cases e <;> exact isError_failReply ..

/-- The handler replied, with errors only. -/
def ErrorReplies (req : RequestData) (w w' : World) : Prop :=
  ∃ rs, rs ≠ [] ∧ w'.replies = w.replies ++ rs ∧ ∀ r ∈ rs, IsError req r

/-- The handler did nothing but reply with errors. -/
def OnlyErrors (req : RequestData) (w w' : World) : Prop :=
  ∃ rs, rs ≠ [] ∧ w' = { w with replies := w.replies ++ rs } ∧ ∀ r ∈ rs, IsError req r

theorem OnlyErrors.errorReplies {req : RequestData} {w w' : World} (h : OnlyErrors req w w') : ErrorReplies req w w' := by
  obtain ⟨rs, hne, rfl, hrs⟩ := h
  exact ⟨rs, hne, rfl, hrs⟩

theorem onlyErrors_reply {req : RequestData} {r : JValue} (h : IsError req r) (w : World) : OnlyErrors req w (w.reply r) :=
  ⟨[r], List.cons_ne_nil _ _, rfl, fun _ hr => List.mem_singleton.1 hr ▸ h⟩

theorem onlyErrors_validator {w w' : World} {req : RequestData} (h : validateInterProviderOperation w req = (w', false)) :
    OnlyErrors req w w' := by
  obtain ⟨rfl, hne⟩ := validate_false h
  exact ⟨_, hne, rfl, fun r hr => isError_of_mem_refusals hr⟩

namespace NetworkProvider

/-! ## Drives of other sessions -/

/-- The drive has another owner than the session, or none. -/
def Foreign (s : NetworkProvider) (sessionId d : Str) : Prop :=
  (∃ owner, s.mSambaSessionData[d]? = some owner ∧ owner ≠ sessionId) ∨
    (∃ owner, s.mUpnpSessionData[d]? = some owner ∧ owner ≠ sessionId) ∨ (d ∉ s.mSambaSessionData ∧ d ∉ s.mUpnpSessionData)

/-- The ids of shares and of media servers look different. -/
structure Named (s : NetworkProvider) : Prop where
  shares : ∀ d ∈ s.mSambaSessionData, ∃ n, d = sambaId n
  servers : ∀ d ∈ s.mUpnpSessionData, ∃ n, d = upnpId n

theorem isUpnp_upnpId (n : Nat) : isUpnp (upnpId n) = true :=
  decide_eq_true ⟨[], '_' :: Nat.toDigits 10 n, rfl⟩

theorem isUpnp_sambaId (n : Nat) : isUpnp (sambaId n) = false := by
  apply decide_eq_false
  intro h
  have hmem : 'U' ∈ sambaId n := h.subset (by decide)
  rcases List.mem_append.1 hmem with h | h
  · exact absurd h (by decide)
  · exact not_mem_toDigits rfl h

/-- A foreign drive passes the check of neither kind. -/
theorem Foreign.refused {s : NetworkProvider} (hs : Named s) {sessionId d : Str} (h : s.Foreign sessionId d) :
    s.validateSambaOperation d sessionId = false ∧ s.validateUpnpOperation d sessionId = false := by
  have hapart : d ∈ s.mSambaSessionData → d ∉ s.mUpnpSessionData := by
    intro hd hd'
    obtain ⟨n, rfl⟩ := hs.shares d hd
    obtain ⟨m, hm⟩ := hs.servers _ hd'
    have := isUpnp_sambaId n
    rw [hm, isUpnp_upnpId] at this
    cases this
  unfold validateSambaOperation validateUpnpOperation
  simp only [decide_eq_false_iff_not]
  rcases h with ⟨owner, ho, hne⟩ | ⟨owner, ho, hne⟩ | ⟨hn, hn'⟩
  · refine ⟨fun h => hne (Option.some.inj (ho.symm.trans h)), fun h => ?_⟩
    exact hapart ((Table.mem_iff_get _).2 ⟨_, ho⟩) ((Table.mem_iff_get _).2 ⟨_, h⟩)
  · refine ⟨fun h => ?_, fun h => hne (Option.some.inj (ho.symm.trans h))⟩
    exact hapart ((Table.mem_iff_get _).2 ⟨_, h⟩) ((Table.mem_iff_get _).2 ⟨_, ho⟩)
  · exact ⟨fun h => hn ((Table.mem_iff_get _).2 ⟨_, h⟩), fun h => hn' ((Table.mem_iff_get _).2 ⟨_, h⟩)⟩

/-- The request reads or changes the network drive, or transfers from it. -/
def Uses (req : RequestData) (d : Str) : Prop :=
  req.storageType = .network ∧
    ((req.methodType ∈ [.listMethod, .getPropMethod, .removeMethod, .renameMethod, .ejectMethod] ∧ req.str "driveId" = d) ∨
      (IsTransfer req ∧ req.str "srcStorageType" = "network".toList ∧ req.str "srcDriveId" = d))

theorem onlyErrors_owned {req : RequestData} {s : NetworkProvider}
    (hf : s.validateSambaOperation (req.str "srcDriveId") req.sessionId = false) (go : World → World) (w : World) :
    OnlyErrors req w (afterValidator w req (owned req s go)) := by
  unfold afterValidator
  obtain ⟨⟨w', b⟩, hv⟩ : ∃ r, validateInterProviderOperation w req = r := ⟨_, rfl⟩
  rw [hv]
  cases b with
  | false => exact onlyErrors_validator hv
  | true =>
    obtain ⟨rfl, -⟩ := validate_true hv
    simp only [owned, hf, Bool.not_false, if_true]
    exact onlyErrors_reply (isError_errorReply ..) w'

/-- A request on a foreign drive is answered with an error and changes nothing. -/
theorem onlyErrors_handleRequests {s : NetworkProvider} (hs : Named s) {req : RequestData} {d : Str} (hu : Uses req d)
    (hf : s.Foreign req.sessionId d) (os : Os) (net : Net) (w : World) :
    (handleRequests os net req s w).1 = s ∧ OnlyErrors req w (handleRequests os net req s w).2 := by
  obtain ⟨hshare, hserver⟩ := hf.refused hs
  have hboth : s.validateOperation d req.sessionId = false := by
    unfold validateOperation
    split <;> assumption
  have hdenied : OnlyErrors req w (w.reply invalidDriveId) := onlyErrors_reply (isError_errorReply ..) w
  rcases hu with ⟨-, ⟨hm, rfl⟩ | ⟨ht, -, rfl⟩⟩
  · unfold handleRequests
    cases h : req.methodType with
    | listMethod => simpa [list, hboth] using hdenied
    | getPropMethod => simpa [getProperties, hboth] using hdenied
    | removeMethod => simpa [remove, checked, hshare] using hdenied
    | renameMethod => simpa [rename, checked, hshare] using hdenied
    | ejectMethod =>
      simp only [eject, hshare, Bool.not_false, if_true, true_and]
      exact onlyErrors_reply ⟨_, _, .inr (.inr rfl)⟩ w
    | copyMethod | moveMethod | extraMethod | listStoragesMethod => simp [h] at hm
  · rw [handleRequests_transfer os net ht]
    exact ⟨rfl, onlyErrors_owned hshare _ w⟩

end NetworkProvider

namespace GDriveProvider

/-! ## Transfers to the cloud -/

/-- A transfer that the cloud provider does not admit is answered with errors. -/
theorem onlyErrors_transfer {req : RequestData} {s : GDriveProvider} {w : World}
    {go : GDriveProvider → GDriveUserData → World → GDriveProvider × World} (hn : ∀ user, ¬ s.Admitted w req user) :
    OnlyErrors req w (s.transfer req w go).2 := by
  unfold transfer
  obtain ⟨⟨w', b⟩, hv⟩ : ∃ r, validateInterProviderOperation w req = r := ⟨_, rfl⟩
  simp only [hv]
  cases b with
  | false => exact onlyErrors_validator hv
  | true =>
    obtain ⟨rfl, hu, hf⟩ := validate_true hv
    dsimp only
    split
    · exact onlyErrors_reply (isError_errorReply ..) w'
    case isFalse hone =>
      unfold guarded
      split
      · exact onlyErrors_reply (isError_errorReply ..) w'
      case h_2 user huser =>
        dsimp only
        split
        · exact onlyErrors_reply (isError_failReply ..) w'
        case isFalse howns =>
          split
          · exact onlyErrors_reply (isError_failReply ..) w'
          case isFalse htoken =>
            -- every check passed, which only an admitted user does
            refine absurd ⟨⟨hu, (faultyEndpoint_eq_none_iff w' req).1 hf⟩, ?_, ⟨?_, ?_⟩, huser, ?_⟩ (hn user)
            · intro hs hd
              exact not_not.1 fun hne => hone ⟨hs, hd, hne⟩
            · exact (Table.mem_iff_get _).2 ⟨user, huser⟩
            · rw [← Table.getD_touch]
              exact not_not.1 howns
            · rw [HasToken, ← Table.getD_touch]
              exact htoken

theorem not_isError_progressReply (req : RequestData) : ¬ IsError req progressReply := by
  rintro ⟨code, text, h | h | h⟩
  · exact absurd (congrArg (·.get "progress") h) nofun
  · exact absurd (congrArg (·.get "progress") h) nofun
  · have hobj : req.params.isObject = true := by
      rw [← JValue.isObject_put req.params "response" (errorReply code text), ← h]
      rfl
    have hresponse := congrArg (·.get "response") h
    simp only [JValue.get_put_self _ hobj] at hresponse
    cases hresponse

/-- A handler that reports progress, or ends without a reply, did not reply with errors. -/
theorem not_errorReplies {req : RequestData} {w w' : World}
    (h : w'.replies = w.replies ++ [progressReply] ∨ w'.replies = w.replies) : ¬ ErrorReplies req w w' := by
  rintro ⟨rs, hne, he, hrs⟩
  rcases h with h | h
  · have hprogress : rs = [progressReply] := List.append_cancel_left (he.symm.trans h)
    exact not_isError_progressReply req (hrs _ (hprogress ▸ List.mem_singleton_self _))
  · exact hne (List.append_right_eq_self.1 (he.symm.trans h))

/-- The upload is refused with an error, or it is tried. -/
theorem upload_cases (drive : Drive) (user : GDriveUserData) (req : RequestData) (w : World) :
    (¬ CanUpload req w.fs ∧ ∃ code, upload drive user req w = (w.reply (cloudFailure code), false)) ∨
      (CanUpload req w.fs ∧ (upload drive user req w).1.replies = w.replies) := by
  have hstep := uploadStep drive user req w
  generalize upload drive user req w = result at hstep
  cases hstep with
  | refused invalid code => exact .inl ⟨invalid, code, rfl⟩
  | sent valid =>
    refine .inr ⟨valid, ?_⟩
    unfold insertFile
    cases drive.insert <;> rfl

/-- What follows an upload is nothing for a copy, and the removal of the source for a move. -/
theorem finish_upload_cases {drive : Drive} {req : RequestData} {s : GDriveProvider} {user : GDriveUserData} {w : World}
    {next : World → World × Bool} (hnext : ∀ w, (next w).1.replies = w.replies) :
    let result := finish drive req s user (andThen (upload drive user req w) next)
    (¬ CanUpload req w.fs ∧ OnlyErrors req w result.2) ∨ (CanUpload req w.fs ∧ ¬ ErrorReplies req w result.2) := by
  intro result
  rcases upload_cases drive user req w with ⟨hn, code, e⟩ | ⟨hy, hr⟩
  · refine .inl ⟨hn, ?_⟩
    simp only [result, e]
    exact onlyErrors_reply (isError_failReply ..) w
  · refine .inr ⟨hy, not_errorReplies ?_⟩
    have hafter : (andThen (upload drive user req w) next).1.replies = w.replies := by
      unfold andThen
      split
      · rw [hnext, hr]
      · exact hr
    unfold result finish
    split
    · exact .inl (by rw [World.reply_replies, hafter])
    · exact .inr hafter

theorem andThen_done (result : World × Bool) : (andThen result fun w => (w, true)) = result := by
  obtain ⟨w, b⟩ := result
  cases b <;> rfl

/-- A transfer of a local file to the cloud is answered with errors and nothing
else, or the file is uploaded and the answer is no error. -/
theorem handleRequests_upload_cases {req : RequestData} (ht : IsTransfer req)
    (hd : req.str "destStorageType" = cloudName) (hs : req.str "srcStorageType" ≠ cloudName) (os : Os) (drive : Drive)
    (s : GDriveProvider) (w : World) :
    ((¬ ∃ user, s.Admitted w req user ∧ FileBegins user w.fs req) ∧ OnlyErrors req w (handleRequests os drive req s w).2) ∨
      ((∃ user, s.Admitted w req user ∧ FileBegins user w.fs req) ∧
        ¬ ErrorReplies req w (handleRequests os drive req s w).2) := by
  have hgo : ∃ next : World → World × Bool, (∀ w, (next w).1.replies = w.replies) ∧
      handleRequests os drive req s w = s.transfer req w fun s user w =>
        finish drive req s user (andThen (upload drive user req w) next) := by
    rcases ht with h | h
    · refine ⟨fun w => (w, true), fun _ => rfl, ?_⟩
      simp only [handleRequests, h, copy, if_pos hd, if_neg hs, andThen_done]
    · refine ⟨removeLocal os (req.str "srcPath"), fun _ => rfl, ?_⟩
      simp only [handleRequests, h, move, if_pos hd, if_neg hs]
  obtain ⟨next, hnext, e⟩ := hgo
  rw [e]
  by_cases hadm : ∃ user, s.Admitted w req user
  case neg => exact .inl ⟨fun h => hadm (h.imp fun _ => And.left), onlyErrors_transfer fun user h => hadm ⟨user, h⟩⟩
  obtain ⟨user, ha⟩ := hadm
  rcases transfer_cases req s w fun s user w => finish drive req s user (andThen (upload drive user req w) next) with
    ⟨hn, -⟩ | ⟨user', ha', e'⟩
  · exact absurd ha (hn user)
  rw [e']
  refine (finish_upload_cases hnext).imp (fun h => ⟨?_, h.2⟩) fun h => ⟨?_, h.2⟩
  · rintro ⟨user'', -, hb⟩
    exact h.1 ((fileBegins_upload hd hs user'' w.fs).1 hb)
  · exact ⟨user', ha', (fileBegins_upload hd hs user' w.fs).2 h.1⟩

end GDriveProvider

/-! ## The names of network drives over runs -/

theorem NetworkProvider.Named.addServers {s : NetworkProvider} (hs : Named s) (sessionId : Str) (urls : List Str) :
    Named (urls.foldl (addServer sessionId) s) := by
  induction urls generalizing s with
  | nil => exact hs
  | cons url urls ih =>
    refine ih ?_
    rcases addServer_cases sessionId s url with ⟨-, h⟩ | ⟨-, h⟩
    · rwa [h]
    · rw [h]
      refine ⟨hs.shares, fun d hd => ?_⟩
      exact ((Table.mem_insert_iff ..).1 hd).elim (fun h => ⟨_, h.symm⟩) (hs.servers d)

theorem NetworkProvider.Named.drivesStep {net : Net} {req : RequestData} {s s' : NetworkProvider} {w w' : World}
    (hs : Named s) (h : DrivesStep net req s w s' w') : Named s' := by
  cases h with
  | same tables => rwa [tables]
  | kept driveId tables =>
    obtain ⟨-, hsessions, -, -, howners, -⟩ := eraseShareKey_paths s driveId
    exact tables ▸ ⟨by rw [hsessions]; exact hs.shares, by rw [howners]; exact hs.servers⟩
  | mounted _ _ key tables =>
    refine tables ▸ ⟨fun d hd => ?_, hs.servers⟩
    simp only [addShare, Table.mem_insert_iff] at hd
    exact hd.elim (fun h => ⟨_, h.symm⟩) (hs.shares d)
  | ejected driveId path _ tables =>
    obtain ⟨-, -, -, -, howners, -⟩ := eraseShareKey_paths s driveId
    refine tables ▸ ⟨fun d hd => ?_, fun d hd => hs.servers d (howners ▸ hd)⟩
    simp only [dropShare, Table.mem_erase_iff] at hd
    exact hs.shares d hd.2
  | discovered _ tables => exact tables ▸ hs.addServers _ _

/-- What every state reached has of the network provider's drives. -/
structure NetworkInv (s : Service) : Prop where
  listed : s.network.Listed
  named : s.network.Named
  copy : s.world.mSambaDrivePathMap = s.network.mSambaPathMap
  mounts : ∀ d path : Str, s.network.mSambaPathMap[d]? = some path → ∃ ip c, path = NetworkProvider.mountPath ip c

theorem NetworkInv.start (fs : FS) (cloud : Table CloudFile) : NetworkInv (Service.start fs cloud) where
  listed := .init
  named := by constructor <;> simp [Service.start, NetworkProvider.init]
  copy := rfl
  mounts := by simp [Service.start, NetworkProvider.init]

theorem NetworkInv.frame {s s' : Service} (hs : NetworkInv s) (hlisted : s'.network.Listed) (hnamed : s'.network.Named)
    (hpaths : s'.network.mSambaPathMap = s.network.mSambaPathMap) (hworld : SameDrives s.world s'.world) :
    NetworkInv s' where
  listed := hlisted
  named := hnamed
  copy := (hworld.trans hs.copy).trans hpaths.symm
  mounts := by simpa only [hpaths] using hs.mounts

theorem NetworkInv.drivesStep {net : Net} {req : RequestData} {s : Service} (hs : NetworkInv s) {s' : NetworkProvider}
    {w' : World} (hstep : NetworkProvider.DrivesStep net req s.network s.world s' w') :
    NetworkInv { s with network := s', world := w' } := by
  have hlisted : s'.Listed := hs.listed.drivesStep hstep
  have hnamed : s'.Named := hs.named.drivesStep hstep
  cases hstep with
  | same tables world => exact hs.frame hlisted hnamed (by rw [tables]) world
  | kept driveId tables world =>
    exact hs.frame hlisted hnamed (tables ▸ (NetworkProvider.eraseShareKey_paths s.network driveId).1) world
  | discovered _ tables world =>
    have hpaths := (NetworkProvider.addServers_samba req.sessionId net.scannedDevices s.network).1
    exact hs.frame hlisted hnamed (tables ▸ hpaths) world
  | mounted _ _ key tables world =>
    refine ⟨hlisted, hnamed, world, fun d path hp => ?_⟩
    simp only [tables, NetworkProvider.addShare, Table.get_insert] at hp
    split at hp
    · exact ⟨_, net.clock, (Option.some.inj hp).symm⟩
    · exact hs.mounts d path hp
  | ejected driveId path _ tables world =>
    refine ⟨hlisted, hnamed, world, fun d path hp => ?_⟩
    simp only [tables, NetworkProvider.dropShare, Table.get_erase] at hp
    split at hp
    · cases hp
    · exact hs.mounts d path hp

theorem NetworkInv.step (s : Service) (l : Service.Label) (hs : NetworkInv s) : NetworkInv (s.step l) := by
  cases tablesStep hs.listed l with
  | elsewhere tables world => exact hs.frame (tables ▸ hs.listed) (tables ▸ hs.named) (by rw [tables]) world
  | handled env req label routed step =>
    have hnext := hs.drivesStep step.drivesStep
    exact hnext.frame hnext.listed hnext.named rfl rfl

theorem NetworkInv.run (fs : FS) (cloud : Table CloudFile) (ls : List Service.Label) :
    NetworkInv (Runs.run Service.step (Service.start fs cloud) ls) :=
  Runs.inv_run_all NetworkInv.step ls (.start fs cloud)

/-! ## Answers to the owner alone -/

/-- The network provider and the files are as before, and the request is answered with errors. -/
structure Repelled (req : RequestData) (s s' : Service) : Prop where
  tables : s'.network = s.network
  files : s'.world.fs = s.world.fs
  replies : ErrorReplies req s.world s'.world

theorem OnlyErrors.repelled {req : RequestData} {s s' : Service} (hnet : s'.network = s.network)
    (h : OnlyErrors req s.world s'.world) : Repelled req s s' := by
  refine ⟨hnet, ?_, h.errorReplies⟩
  obtain ⟨rs, -, e, -⟩ := h
  rw [e]

/-- The drive ids in a reply to a request for the storages. -/
def NetworkProvider.listedDrives (r : JValue) : List Str :=
  ((r.get "response").get "network").items.map fun e => (e.get "driveId").asString

/-- A request on another session's drive is repelled, and a list of the drives
holds the session's own. -/
structure AnswersOwner (env : Env) (req : RequestData) (s : Service) : Prop where
  repels : ∀ d, NetworkProvider.Uses req d → s.network.Foreign req.sessionId d → Repelled req s (s.handle env req)
  lists : req.methodType = .listStoragesMethod → req.storageType = .network → req.params.isObject = true →
    ∃ r, (s.handle env req).world.replies = s.world.replies ++ [r] ∧
      ∀ d, d ∈ NetworkProvider.listedDrives r ↔ s.network.mSambaSessionData[d]? = some req.sessionId ∨
        s.network.mUpnpSessionData[d]? = some req.sessionId

/-- A transfer from a foreign drive that the cloud provider carries out. -/
def UploadsForeign (req : RequestData) (s : Service) : Prop :=
  route req = .gdrive ∧ s.Begins req ∧ ∃ d, NetworkProvider.Uses req d ∧ s.network.Foreign req.sessionId d

/-- A request on a foreign drive is repelled unless it uploads. -/
theorem repelled_iff {s : Service} (hs : NetworkInv s) (env : Env) {req : RequestData} {d : Str}
    (hu : NetworkProvider.Uses req d) (hf : s.network.Foreign req.sessionId d) :
    Repelled req s (s.handle env req) ↔ ¬ (route req = .gdrive ∧ s.Begins req) := by
  have hroute : route req = .network ∨
      (route req = .gdrive ∧ IsTransfer req ∧ req.str "destStorageType" = GDriveProvider.cloudName) := by
    unfold route
    split
    case isTrue h => exact .inr ⟨rfl, h.1, h.2.2⟩
    case isFalse => exact .inl hu.1
  rcases hroute with hr | ⟨hr, ht, hd⟩
  · refine iff_of_true ?_ fun h => absurd (hr.symm.trans h.1) nofun
    obtain ⟨hs', he⟩ := NetworkProvider.onlyErrors_handleRequests hs.named hu hf env.os env.net s.world
    simp only [Service.handle, hr]
    exact OnlyErrors.repelled hs' he
  · have hsrc : req.str "srcStorageType" ≠ GDriveProvider.cloudName := by
      rcases hu.2 with ⟨hm, -⟩ | ⟨-, hnet, -⟩
      · rcases ht with h | h <;> simp [h] at hm
      · rw [hnet]; decide
    have hbegins : s.Begins req ↔ ∃ user, s.gdrive.Admitted s.world req user ∧
        GDriveProvider.FileBegins user s.world.fs req := by
      simp only [Service.Begins, hr]
    rw [hbegins]
    simp only [hr, true_and]
    simp only [Service.handle, hr]
    rcases GDriveProvider.handleRequests_upload_cases ht hd hsrc env.os env.drive s.gdrive s.world with ⟨hn, he⟩ | ⟨hy, hn⟩
    · exact iff_of_true (OnlyErrors.repelled rfl he) hn
    · exact iff_of_false (fun h => hn h.replies) (not_not.2 hy)

/-- The provider lists a session's own drives and no others. -/
theorem lists_owned {s : Service} (env : Env) {req : RequestData} (hm : req.methodType = .listStoragesMethod)
    (ht : req.storageType = .network) (hobj : req.params.isObject = true) :
    ∃ r, (s.handle env req).world.replies = s.world.replies ++ [r] ∧
      ∀ d, d ∈ NetworkProvider.listedDrives r ↔ s.network.mSambaSessionData[d]? = some req.sessionId ∨
        s.network.mUpnpSessionData[d]? = some req.sessionId := by
  have hr : route req = .network := (if_neg (by simp [hm])).trans ht
  simp only [Service.handle, hr, NetworkProvider.handleRequests, hm]
  refine ⟨_, rfl, fun d => ?_⟩
  have hid (name : Str) (paths : Table Str) :
      (fun e : JValue => (e.get "driveId").asString) ∘ NetworkProvider.driveEntry name paths = id := rfl
  simp only [NetworkProvider.listedDrives, JValue.get_put_self _ hobj, JValue.get_put_self _ JValue.isObject_object,
    JValue.items, List.map_append, List.map_map, hid, List.map_id, List.mem_append, NetworkProvider.mem_ownedBy]

/-- In every state reached, a request is answered as its owner's alone exactly
when it is no transfer from a foreign drive that reaches the cloud. -/
theorem network_answers_owner_iff (fs : FS) (cloud : Table CloudFile) (ls : List Service.Label) (env : Env)
    (req : RequestData) :
    let s := Runs.run Service.step (Service.start fs cloud) ls
    AnswersOwner env req s ↔ ¬ UploadsForeign req s := by
  intro s
  have hs : NetworkInv s := NetworkInv.run fs cloud ls
  constructor
  · rintro h ⟨hr, hb, d, hu, hf⟩
    exact (repelled_iff hs env hu hf).1 (h.repels d hu hf) ⟨hr, hb⟩
  · intro h
    refine ⟨fun d hu hf => (repelled_iff hs env hu hf).2 fun hn => h ⟨hn.1, hn.2, d, hu, hf⟩, ?_⟩
    exact lists_owned env

/-- The tree with a share that holds one file. -/
def sharedFile : FS :=
  FS.ofEntries [(["tmp".toList], .dir), (["tmp".toList, "nas_12:34:56_7".toList], .dir),
    (["tmp".toList, "nas_12:34:56_7".toList, "a.txt".toList], .file [1])] (by decide)

/-- One session mounted a share, another signed in to its cloud drive. -/
def shareAndCloud : Service :=
  Runs.run Service.step (Service.start sharedFile ∅)
    [.request { Env.quiet with net := { Net.quiet with mkdir := some sharedFile, mount := some sharedFile } }
        (mountCall "a" "guest"),
      .request Env.quiet login,
      .request { Env.quiet with drive := GDriveProvider.oneFile .done } GDriveProvider.signIn]

def moveToCloud : RequestData :=
  ⟨.network, .moveMethod,
    (((((JValue.object.put "srcStorageType" (.text "network")).put "destStorageType" (.text "cloud")).put "srcDriveId"
      (.text "SAMBA_1")).put "destDriveId" (.text "GDRIVE_1")).put "srcPath" (.text "/tmp/nas_12:34:56_7/a.txt")).put
      "destPath" (.text "/"),
    "guest2".toList⟩

/-- The session of the cloud drive moves the file away from the other session's share. -/
theorem foreign_share_emptied :
    NetworkProvider.Uses moveToCloud "SAMBA_1".toList ∧
      shareAndCloud.network.Foreign moveToCloud.sessionId "SAMBA_1".toList ∧
      ¬ AnswersOwner Env.quiet moveToCloud shareAndCloud := by
  have hu : NetworkProvider.Uses moveToCloud "SAMBA_1".toList := ⟨rfl, .inr ⟨.inr rfl, rfl, rfl⟩⟩
  have hf : shareAndCloud.network.Foreign moveToCloud.sessionId "SAMBA_1".toList :=
    .inl ⟨"guest".toList, rfl, by decide⟩
  refine ⟨hu, hf, fun h => ?_⟩
  have hfile := congrArg (fun fs : FS => fs.readFile (components "/tmp/nas_12:34:56_7/a.txt".toList))
    (h.repels _ hu hf).files
  exact absurd hfile (by decide)

end StorageAccess
