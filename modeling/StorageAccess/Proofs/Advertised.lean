import StorageAccess.Proofs.Drives
import StorageAccess.Proofs.Owners
/-!
# Listing what is advertised

A request for the storages gives each drive with a path. For a share this is the
mount directory, which can be listed; for a media server it is the URL of its
description, which the path check of a media server takes for a path only where
it starts with a slash.
-/

open Posix Json

namespace StorageAccess

open SAFUtilityOperation

/-! ## Mount directories as paths -/

namespace NetworkProvider

theorem toDigits_getLast (n : Nat) : ∃ c, (Nat.toDigits 10 n).getLast? = some c ∧ c ≠ '/' := by
  obtain ⟨c, hc⟩ := Option.isSome_iff_exists.1 (List.getLast?_isSome.2 (Nat.toDigits_ne_nil (b := 10) (n := n)))
  refine ⟨c, hc, ?_⟩
  rintro rfl
  exact not_mem_toDigits rfl (List.mem_of_getLast? hc)

/-- A mount directory is absolute and does not end in a slash. -/
theorem mountPath_shape (ip : Str) (c : Clock) :
    (mountPath ip c).head? = some '/' ∧ (mountPath ip c).getLast? ≠ some '/' := by
  obtain ⟨d, hd, hne⟩ := toDigits_getLast c.millis
  obtain ⟨front, hfront⟩ : ∃ front, mountPath ip c = front ++ Nat.toDigits 10 c.millis := by
    unfold mountPath getTimestamp
    generalize "/tmp/".toList = tmp
    refine ⟨tmp ++ ip ++ '_' :: twoDigits c.hour ++ ':' :: twoDigits c.minute ++ ':' :: twoDigits c.second ++ ['_'], ?_⟩
    simp only [List.append_assoc, List.cons_append, List.nil_append]
  refine ⟨rfl, ?_⟩
  rw [hfront, List.getLast?_append, hd, Option.some_or]
  exact fun h => hne (Option.some.inj h)

end NetworkProvider

/-! ## Lists of what is advertised -/

/-- A path the check of a media server accepts. -/
def PathLike (path : Str) : Prop := path.head? = some '/' ∧ path.getLast? ≠ some '/'

theorem pathLike_iff (path : Str) :
    PathLike path ↔ ¬ (path = [] ∨ path.head? ≠ some '/' ∨ path.getLast? = some '/') := by
  constructor
  · rintro h (e | hn | hn)
    · rw [e] at h; exact absurd h.1 nofun
    · exact hn h.1
    · exact h.2 hn
  · intro h
    push Not at h
    exact ⟨h.2.1, h.2.2⟩

/-- The reply refuses the drive or the path. -/
def Refuses (r : JValue) : Prop :=
  r.get "errorCode" = .num SAFErrors.invalidParam.code ∨ r.get "errorCode" = .num SAFErrors.invalidPath.code

/-- The request lists a drive of the network provider by the id and path of an entry. -/
structure ListsEntry (sessionId : Str) (entry : JValue) (req : RequestData) : Prop where
  method : req.methodType = .listMethod
  type : req.storageType = .network
  session : req.sessionId = sessionId
  drive : req.str "driveId" = (entry.get "driveId").asString
  path : req.str "path" = (entry.get "path").asString

/-- The entries of the network provider's answers to the session. -/
def advertised (s : Service) (sessionId : Str) : List JValue :=
  (NetworkProvider.ownedBy s.network.mSambaSessionData sessionId).map
      (NetworkProvider.driveEntry NetworkProvider.sambaName s.network.mSambaPathMap) ++
    (NetworkProvider.ownedBy s.network.mUpnpSessionData sessionId).map
      (NetworkProvider.driveEntry NetworkProvider.upnpName s.network.mUpnpPathMap)

/-- Each answer to the session gives drives and paths whose lists are not refused,
as far as the mount directories are still there. -/
def Listable (s : Service) (sessionId : Str) : Prop :=
  ∀ env ask, ask.methodType = .listStoragesMethod → ask.storageType = .network → ask.sessionId = sessionId →
    ask.params.isObject = true →
    ∀ r ∈ newReplies s.world (s.handle env ask).world, ∀ entry ∈ ((r.get "response").get "network").items,
    ∀ env req, ListsEntry sessionId entry req →
      (NetworkProvider.isUpnp (req.str "driveId") = false → s.world.fs.isDir (components (req.str "path")) = true) →
      ∀ r ∈ newReplies s.world (s.handle env req).world, ¬ Refuses r

theorem replies_ask {s : Service} (hs : NetworkInv s) (env : Env) {ask : RequestData}
    (hm : ask.methodType = .listStoragesMethod) (ht : ask.storageType = .network) (hobj : ask.params.isObject = true) :
    ∃ r, newReplies s.world (s.handle env ask).world = [r] ∧
      ((r.get "response").get "network").items = advertised s ask.sessionId := by
  have hr : route ask = .network := (if_neg (by simp [hm])).trans ht
  have hfst := NetworkProvider.listStoragesMethod_fst hs.listed ask s.world
  simp only [NetworkProvider.listStoragesMethod] at hfst
  simp only [Service.handle, hr, NetworkProvider.handleRequests, hm, NetworkProvider.listStoragesMethod]
  refine ⟨_, newReplies_of_append rfl, ?_⟩
  rw [hfst, JValue.get_put_self _ hobj, JValue.get_put_self _ JValue.isObject_object]
  rfl

/-- The contents of a directory are read whenever its path has the shape of one. -/
theorem status_of_isDir (os : Os) {fs : FS} {path : Str} (hpath : PathLike path)
    (hdir : fs.isDir (components path) = true) :
    fs.exists? (components path) = true ∧ (FolderContents.init os fs path).status = 0 := by
  obtain ⟨l, hl⟩ : ∃ l, fs.status (components path) = .found l .dir := by
    unfold FS.isDir at hdir
    split at hdir
    case h_1 l h => exact ⟨l, h⟩
    case h_2 => cases hdir
  have he : fs.exists? (components path) = true := by rw [FS.exists?, hl]
  have hne : path ≠ [] := by rintro rfl; cases hpath.1
  have hv : validateInternalPath fs path = true := by simp [validateInternalPath, hne, hpath.1, hpath.2, he]
  refine ⟨he, ?_⟩
  simp only [FolderContents.init, hv, Bool.not_true, Bool.false_eq_true, if_false, hl]
  rfl

/-- A share's mount directory is listed, for every page. -/
theorem share_listed {s : Service} (hs : NetworkInv s) (env : Env) {req : RequestData} {d : Str}
    (hm : req.methodType = .listMethod) (ht : req.storageType = .network) (hd : req.str "driveId" = d)
    (howner : s.network.mSambaSessionData[d]? = some req.sessionId)
    (hpath : req.str "path" = s.network.mSambaPathMap.getD d [])
    (hdir : s.world.fs.isDir (components (req.str "path")) = true) :
    ∃ r, newReplies s.world (s.handle env req).world = [r] ∧ ¬ Refuses r := by
  have hr : route req = .network := (if_neg (by simp [hm])).trans ht
  have hmem : d ∈ s.network.mSambaSessionData := (Table.mem_iff_get _).2 ⟨_, howner⟩
  obtain ⟨n, rfl⟩ := hs.named.shares d hmem
  obtain ⟨path, hp⟩ := (Table.mem_iff_get _).1 ((hs.listed.shares _).1 hmem)
  rw [Std.ExtTreeMap.getD_eq_getD_getElem?, hp, Option.getD_some] at hpath
  obtain ⟨ip, c, rfl⟩ := hs.mounts _ _ hp
  obtain ⟨he, hstatus⟩ := status_of_isDir env.os (hpath ▸ NetworkProvider.mountPath_shape ip c) hdir
  have hvalid : s.network.validateOperation (req.str "driveId") req.sessionId = true := by
    simp [NetworkProvider.validateOperation, hd, NetworkProvider.isUpnp_sambaId, NetworkProvider.validateSambaOperation,
      howner]
  have hplace : validateSambaPath s.world.fs s.world.mSambaDrivePathMap (req.str "path") (req.str "driveId") = true := by
    have hprefix : NetworkProvider.mountPath ip c <+: req.str "path" := by rw [hpath]
    simp [validateSambaPath, hs.copy, hd, hp, he, hprefix]
  have hkind : NetworkProvider.isUpnp (req.str "driveId") = false := by rw [hd, NetworkProvider.isUpnp_sambaId]
  simp only [Service.handle, hr, NetworkProvider.handleRequests, hm, NetworkProvider.list, hvalid, hplace, hkind,
    Bool.not_true, Bool.not_false, Bool.false_eq_true, if_false, if_true]
  refine ⟨_, newReplies_of_append rfl, ?_⟩
  -- a list that was read is answered without an error code
  have hsuccess : ∀ sizeValue offset limit, (listReply getInternalErrorString sizeValue
      (FolderContents.init env.os s.world.fs (req.str "path")) offset limit).get "errorCode" = .null := by
    intro sizeValue offset limit
    rw [listReply, if_pos (by omega)]
    rfl
  rintro (h | h)
  · cases (hsuccess ..).symm.trans h
  · cases (hsuccess ..).symm.trans h

/-- A media server is listed for a path of the right shape, and refused for any other. -/
theorem server_listed {s : Service} (hs : NetworkInv s) (env : Env) {req : RequestData} {d : Str}
    (hm : req.methodType = .listMethod) (ht : req.storageType = .network) (hd : req.str "driveId" = d)
    (howner : s.network.mUpnpSessionData[d]? = some req.sessionId) :
    ∃ r, newReplies s.world (s.handle env req).world = [r] ∧ (Refuses r ↔ ¬ PathLike (req.str "path")) := by
  have hr : route req = .network := (if_neg (by simp [hm])).trans ht
  obtain ⟨n, rfl⟩ := hs.named.servers d ((Table.mem_iff_get _).2 ⟨_, howner⟩)
  have hvalid : s.network.validateOperation (req.str "driveId") req.sessionId = true := by
    simp [NetworkProvider.validateOperation, hd, NetworkProvider.isUpnp_upnpId, NetworkProvider.validateUpnpOperation,
      howner]
  have hkind : NetworkProvider.isUpnp (req.str "driveId") = true := by rw [hd, NetworkProvider.isUpnp_upnpId]
  simp only [Service.handle, hr, NetworkProvider.handleRequests, hm, NetworkProvider.list, hvalid, hkind, Bool.not_true,
    Bool.false_eq_true, if_false]
  by_cases hp : PathLike (req.str "path")
  · rw [if_neg ((pathLike_iff _).1 hp)]
    split
    · refine ⟨_, newReplies_of_append rfl, iff_of_false ?_ (not_not.2 hp)⟩
      rintro (h | h) <;> cases h
    · refine ⟨_, newReplies_of_append rfl, iff_of_false ?_ (not_not.2 hp)⟩
      rintro (h | h) <;> cases h
  · rw [if_pos (not_not.1 (mt (pathLike_iff _).2 hp))]
    exact ⟨_, newReplies_of_append rfl, iff_of_true (.inr rfl) hp⟩

/-- The paths the session's media servers are advertised with have the shape of a path. -/
def ServersPathLike (s : Service) (sessionId : Str) : Prop :=
  ∀ d : Str, s.network.mUpnpSessionData[d]? = some sessionId → PathLike (s.network.mUpnpPathMap.getD d [])

/-- The list request for an entry. -/
def listEntry (sessionId d path : Str) : RequestData :=
  ⟨.network, .listMethod, (JValue.object.put "driveId" (.str d)).put "path" (.str path), sessionId⟩

theorem listable_iff {s : Service} (hs : NetworkInv s) (sessionId : Str) :
    Listable s sessionId ↔ ServersPathLike s sessionId := by
  constructor
  · intro h d howner
    -- the session asks for its drives, and then for the entry of this one
    let ask : RequestData := ⟨.network, .listStoragesMethod, .object, sessionId⟩
    have hobj : ask.params.isObject = true := rfl
    obtain ⟨r, hr, hitems⟩ := replies_ask hs Env.quiet rfl rfl hobj
    have hentry : NetworkProvider.driveEntry NetworkProvider.upnpName s.network.mUpnpPathMap d ∈
        ((r.get "response").get "network").items := by
      rw [hitems]
      exact List.mem_append_right _ (List.mem_map_of_mem (NetworkProvider.mem_ownedBy.2 howner))
    let req := listEntry sessionId d (s.network.mUpnpPathMap.getD d [])
    have hdrive : req.str "driveId" = d := rfl
    obtain ⟨r', hr', hiff⟩ := server_listed hs Env.quiet rfl rfl hdrive howner
    have hkind : NetworkProvider.isUpnp d = true := by
      obtain ⟨n, rfl⟩ := hs.named.servers d ((Table.mem_iff_get _).2 ⟨_, howner⟩)
      exact NetworkProvider.isUpnp_upnpId n
    have hok := h Env.quiet ask rfl rfl rfl rfl r (hr ▸ List.mem_singleton_self r) _ hentry Env.quiet req
      ⟨rfl, rfl, rfl, rfl, rfl⟩ (fun hn => absurd (hkind.symm.trans hn) nofun) r' (hr' ▸ List.mem_singleton_self r')
    exact not_not.1 fun hn => hok (hiff.2 hn)
  · rintro h env ask hm ht rfl hobj r hr entry hentry env' req hlists hdir r' hr'
    obtain ⟨answer, ha, hitems⟩ := replies_ask hs env hm ht hobj
    obtain rfl := List.mem_singleton.1 (ha ▸ hr)
    rw [hitems] at hentry
    rcases List.mem_append.1 hentry with hentry | hentry
    · obtain ⟨d, hd, rfl⟩ := List.mem_map.1 hentry
      have howner := NetworkProvider.mem_ownedBy.1 hd
      obtain ⟨n, rfl⟩ := hs.named.shares d ((Table.mem_iff_get _).2 ⟨_, howner⟩)
      have hdrive : req.str "driveId" = NetworkProvider.sambaId n := hlists.drive
      have hthere := hdir (by rw [hdrive]; exact NetworkProvider.isUpnp_sambaId n)
      obtain ⟨r'', hr'', hok⟩ := share_listed hs env' hlists.method hlists.type hdrive
        (by rw [hlists.session]; exact howner) hlists.path hthere
      obtain rfl := List.mem_singleton.1 (hr'' ▸ hr')
      exact hok
    · obtain ⟨d, hd, rfl⟩ := List.mem_map.1 hentry
      have howner := NetworkProvider.mem_ownedBy.1 hd
      obtain ⟨r'', hr'', hiff⟩ := server_listed hs env' hlists.method hlists.type hlists.drive
        (by rw [hlists.session]; exact howner)
      obtain rfl := List.mem_singleton.1 (hr'' ▸ hr')
      rw [hiff, not_not]
      have hpath : req.str "path" = s.network.mUpnpPathMap.getD d [] := hlists.path
      exact hpath ▸ h d howner

/-! ## Runs -/

/-- Every new media server a scan finds describes itself at a URL with the shape of a path. -/
def FindsPaths (s : Service) : Service.Label → Prop
  | .request env req => route req = .network → NetworkProvider.IsDiscover req →
      ∀ url ∈ env.net.scannedDevices, NetworkProvider.serverKey url ∈ s.network.mUpnpDriveMap ∨ PathLike url
  | _ => True

/-- The media servers' paths have the shape of one. -/
structure ServersInv (s : Service) : Prop where
  network : NetworkInv s
  servers : ∀ d url : Str, s.network.mUpnpPathMap[d]? = some url → PathLike url

namespace NetworkProvider

/-- A server that was seen is known, as those known before. -/
theorem mem_addServer_iff {s : NetworkProvider} (sessionId url key : Str) :
    key ∈ (addServer sessionId s url).mUpnpDriveMap ↔ key ∈ s.mUpnpDriveMap ∨ serverKey url = key := by
  rcases addServer_cases sessionId s url with ⟨hknown, h⟩ | ⟨-, h⟩
  · rw [h]
    refine ⟨.inl, fun hk => hk.elim id ?_⟩
    rintro rfl
    exact hknown
  · rw [h]
    exact (Table.mem_insert_iff ..).trans or_comm

theorem addServer_pathLike {s : NetworkProvider} (hs : ∀ d url : Str, s.mUpnpPathMap[d]? = some url → PathLike url)
    {u : Str} (hu : serverKey u ∈ s.mUpnpDriveMap ∨ PathLike u) (sessionId d url : Str)
    (h : (addServer sessionId s u).mUpnpPathMap[d]? = some url) : PathLike url := by
  rcases addServer_cases sessionId s u with ⟨-, he⟩ | ⟨hnew, he⟩
  · exact hs d url (by rwa [he] at h)
  · rw [he, withServer, Table.get_insert] at h
    split at h
    · exact Option.some.inj h ▸ hu.resolve_left hnew
    · exact hs d url h

/-- A scan whose new servers have paths of the right shape adds no others. -/
theorem addServers_pathLike {s : NetworkProvider} {urls : List Str}
    (hs : ∀ d url : Str, s.mUpnpPathMap[d]? = some url → PathLike url)
    (hurls : ∀ url ∈ urls, serverKey url ∈ s.mUpnpDriveMap ∨ PathLike url) (sessionId d url : Str)
    (h : (urls.foldl (addServer sessionId) s).mUpnpPathMap[d]? = some url) : PathLike url := by
  induction urls generalizing s with
  | nil => exact hs d url h
  | cons u urls ih =>
    refine ih (s := addServer sessionId s u) ?_ ?_ h
    · exact addServer_pathLike hs (hurls u List.mem_cons_self) sessionId
    · intro v hv
      exact (hurls v (List.mem_cons_of_mem _ hv)).imp_left fun hm => (mem_addServer_iff ..).2 (.inl hm)

theorem drivesStep_pathLike {net : Net} {req : RequestData} {s s' : NetworkProvider} {w w' : World}
    (hs : ∀ d url : Str, s.mUpnpPathMap[d]? = some url → PathLike url) (hstep : DrivesStep net req s w s' w')
    (hfinds : IsDiscover req → ∀ url ∈ net.scannedDevices, serverKey url ∈ s.mUpnpDriveMap ∨ PathLike url) :
    ∀ d url : Str, s'.mUpnpPathMap[d]? = some url → PathLike url := by
  cases hstep with
  | same tables => rwa [tables]
  | mounted _ _ key tables => exact tables ▸ hs
  | kept driveId tables =>
    obtain ⟨-, -, -, hservers, -⟩ := eraseShareKey_paths s driveId
    rwa [tables, hservers]
  | ejected driveId path _ tables =>
    obtain ⟨-, -, -, hservers, -⟩ := eraseShareKey_paths s driveId
    rwa [tables, dropShare, hservers]
  | discovered request tables => exact tables ▸ addServers_pathLike hs (hfinds request) req.sessionId

end NetworkProvider

theorem ServersInv.start (fs : FS) (cloud : Table CloudFile) : ServersInv (Service.start fs cloud) :=
  ⟨.start fs cloud, fun d url h => absurd h (by simp [Service.start, NetworkProvider.init])⟩

theorem ServersInv.step (s : Service) (l : Service.Label) (hs : ServersInv s) (hl : FindsPaths s l) :
    ServersInv (s.step l) := by
  refine ⟨NetworkInv.step s l hs.network, ?_⟩
  cases tablesStep hs.network.listed l with
  | elsewhere tables => exact tables ▸ hs.servers
  | handled env req label routed step =>
    subst label
    exact NetworkProvider.drivesStep_pathLike hs.servers step.drivesStep (hl routed)

theorem ServersInv.pathLike {s : Service} (hs : ServersInv s) (sessionId : Str) : ServersPathLike s sessionId := by
  intro d howner
  obtain ⟨url, hurl⟩ := (Table.mem_iff_get _).1 ((hs.network.listed.servers d).1 ((Table.mem_iff_get _).2 ⟨_, howner⟩))
  rw [Std.ExtTreeMap.getD_eq_getD_getElem?, hurl, Option.getD_some]
  exact hs.servers d url hurl

/-- What a session is told of can be listed exactly when its media servers were
found at paths, and so it is as long as only such servers are found. -/
theorem advertised_listable (fs : FS) (cloud : Table CloudFile) (ls : List Service.Label) (sessionId : Str) :
    let s := Runs.run Service.step (Service.start fs cloud) ls
    (Listable s sessionId ↔ ServersPathLike s sessionId) ∧
      (Runs.Meets Service.step FindsPaths (Service.start fs cloud) ls → Listable s sessionId) := by
  intro s
  have hiff := listable_iff (NetworkInv.run fs cloud ls) sessionId
  refine ⟨hiff, fun hls => hiff.2 ?_⟩
  exact (Runs.inv_run ServersInv.step (ServersInv.start fs cloud) hls).pathLike sessionId

/-- A share that is there can be listed by the session that mounted it. -/
theorem share_listable : Listable (Runs.run Service.step (Service.start sharedFile ∅)
    [.request { Env.quiet with net := { Net.quiet with mkdir := some sharedFile, mount := some sharedFile } }
      (mountCall "a" "guest")]) "guest".toList :=
  (advertised_listable sharedFile ∅ _ _).2 ⟨fun _ h => absurd h.2 (by decide +kernel), trivial⟩

def discoverCall : RequestData :=
  ⟨.network, .extraMethod,
    JValue.object.put "operation" (JValue.object.put "type" (.text "discoverUPnPMediaServer")), "guest".toList⟩

/-- A scan that finds one media server. -/
def oneServer : Env :=
  { Env.quiet with net := { Net.quiet with scannedDevices := ["http://10.0.0.2:8200/description.xml".toList] } }

theorem server_not_listable :
    ¬ Listable (Runs.run Service.step (Service.start sharedFile ∅) [.request oneServer discoverCall]) "guest".toList := by
  rw [listable_iff (NetworkInv.run _ _ _)]
  intro h
  exact absurd (h "UPNP_1".toList (by decide)).1 (by decide)

end StorageAccess
