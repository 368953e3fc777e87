import StorageAccess.Lib.Registry
import StorageAccess.Proofs.Advertised
/-!
# Media servers and the sessions that find them

The tables of the media servers are a registry keyed by address and port: a
server keeps the session that found it first and the URL it had then. A session
can use every server it is told of exactly when it found them all first, at the
URLs it is told.
-/

open Posix Json

namespace StorageAccess

open SAFUtilityOperation

namespace NetworkProvider

theorem mem_addServers_iff {s : NetworkProvider} (sessionId : Str) (urls : List Str) (key : Str) :
    key ∈ (urls.foldl (NetworkProvider.addServer sessionId) s).mUpnpDriveMap ↔
      key ∈ s.mUpnpDriveMap ∨ ∃ url ∈ urls, serverKey url = key := by
  induction urls generalizing s with
  | nil => simp
  | cons url urls ih =>
    rw [List.foldl_cons, ih, mem_addServer_iff, or_assoc]
    simp only [List.mem_cons, exists_eq_or_imp]

/-! ## The registry -/

/-- The session and the URL that are kept for a server. -/
def record (s : NetworkProvider) (key : Str) : Option (Str × Str) :=
  s.mUpnpDriveMap[key]?.bind fun driveId =>
    s.mUpnpSessionData[driveId]?.bind fun sessionId => s.mUpnpPathMap[driveId]?.map fun url => (sessionId, url)

theorem record_eq_some_iff {s : NetworkProvider} {key sessionId url : Str} :
    record s key = some (sessionId, url) ↔ ∃ driveId, s.mUpnpDriveMap[key]? = some driveId ∧
      s.mUpnpSessionData[driveId]? = some sessionId ∧ s.mUpnpPathMap[driveId]? = some url := by
  simp [record, Option.bind_eq_some_iff, Option.map_eq_some_iff]

/-- The servers' drives are among those numbered so far, and each has a session and a URL. -/
structure Recorded (s : NetworkProvider) : Prop where
  numbered : ∀ key driveId : Str, s.mUpnpDriveMap[key]? = some driveId → ∃ n ≤ s.upnpIds, driveId = upnpId n
  recorded : ∀ key ∈ s.mUpnpDriveMap, (record s key).isSome

theorem upnpId_injective : Function.Injective upnpId := fun _ _ h => toDigits_injective (List.append_cancel_left h)

theorem Recorded.record_eq_none {s : NetworkProvider} {key : Str} (h : key ∉ s.mUpnpDriveMap) : record s key = none := by
  rw [record, Std.ExtTreeMap.getElem?_eq_none h]
  rfl

/-- A server that was not known is noted, as long as its number belongs to no other. -/
theorem Recorded.record_withServer {s : NetworkProvider} (hs : Recorded s) (hid : nextId s.upnpIds = s.upnpIds + 1)
    {url : Str} (hnew : serverKey url ∉ s.mUpnpDriveMap) (sessionId : Str) :
    record (s.withServer sessionId url) = Registry.note serverKey (fun u => (sessionId, u)) (record s) url := by
  have hfresh (key driveId : Str) (hd : s.mUpnpDriveMap[key]? = some driveId) : upnpId (s.upnpIds + 1) ≠ driveId := by
    obtain ⟨n, hn, rfl⟩ := hs.numbered key driveId hd
    intro he
    have := upnpId_injective he
    omega
  funext key
  rw [Registry.note_apply]
  by_cases hk : serverKey url = key
  · subst hk
    rw [Recorded.record_eq_none hnew, if_pos rfl]
    simp [record, withServer, Table.get_insert]
  · rw [if_neg hk, Option.or_none]
    simp only [record, withServer, hid, Table.get_insert, if_neg hk]
    cases hd : s.mUpnpDriveMap[key]? with
    | none => rfl
    | some driveId => simp only [Option.bind_some, if_neg (hfresh key driveId hd)]

/-- While the counter does not wrap, seeing a server notes it in the registry. -/
theorem Recorded.addServer {s : NetworkProvider} (hs : Recorded s) (hfew : s.upnpIds + 1 < 2 ^ 32) (sessionId url : Str) :
    Recorded (NetworkProvider.addServer sessionId s url) ∧
      record (NetworkProvider.addServer sessionId s url) =
        Registry.note serverKey (fun u => (sessionId, u)) (record s) url ∧
      (NetworkProvider.addServer sessionId s url).upnpIds ≤ s.upnpIds + 1 := by
  have hid : nextId s.upnpIds = s.upnpIds + 1 := Nat.mod_eq_of_lt hfew
  rcases addServer_cases sessionId s url with ⟨hknown, h⟩ | ⟨hnew, h⟩
  · rw [h]
    exact ⟨hs, (if_pos (hs.recorded _ hknown)).symm, Nat.le_succ _⟩
  have hrecord := hs.record_withServer hid hnew sessionId
  rw [h]
  refine ⟨⟨fun key driveId hd => ?_, fun key hm => ?_⟩, hrecord, hid.le⟩
  · simp only [withServer, hid, Table.get_insert] at hd ⊢
    split at hd
    · exact ⟨_, le_rfl, (Option.some.inj hd).symm⟩
    · obtain ⟨n, hn, he⟩ := hs.numbered key driveId hd
      exact ⟨n, by omega, he⟩
  · rw [hrecord, Registry.note_apply]
    rcases (Table.mem_insert_iff ..).1 hm with rfl | hm
    · simp
    · obtain ⟨v, hv⟩ := Option.isSome_iff_exists.1 (hs.recorded key hm)
      rw [hv, Option.some_or]
      rfl

theorem Recorded.addServers {s : NetworkProvider} (hs : Recorded s) (sessionId : Str) (urls : List Str)
    (hfew : s.upnpIds + urls.length < 2 ^ 32) :
    Recorded (urls.foldl (NetworkProvider.addServer sessionId) s) ∧
      record (urls.foldl (NetworkProvider.addServer sessionId) s) =
        urls.foldl (Registry.note serverKey fun u => (sessionId, u)) (record s) ∧
      (urls.foldl (NetworkProvider.addServer sessionId) s).upnpIds ≤ s.upnpIds + urls.length := by
  induction urls generalizing s with
  | nil => exact ⟨hs, rfl, le_rfl⟩
  | cons url urls ih =>
    rw [List.length_cons] at hfew
    obtain ⟨hs', hrecord, hids⟩ := hs.addServer (by omega) sessionId url
    obtain ⟨hrec, hnotes, hcount⟩ := ih hs' (by omega)
    simp only [List.foldl_cons, List.length_cons]
    exact ⟨hrec, hrecord ▸ hnotes, by omega⟩

end NetworkProvider

/-! ## Discoveries -/

/-- The request reaches the network provider and asks for media servers. -/
def AsksDiscover (req : RequestData) : Prop := route req = .network ∧ NetworkProvider.IsDiscover req

instance (req : RequestData) : Decidable (AsksDiscover req) :=
  inferInstanceAs (Decidable (route req = .network ∧ req.methodType = .extraMethod ∧
    NetworkProvider.operationType req = "discoverUPnPMediaServer".toList))

/-- The media servers a step's scan finds. -/
def scannedIn (_ : Service) : Service.Label → List Str
  | .request env req => if AsksDiscover req then env.net.scannedDevices else []
  | _ => []

/-- The media servers the scans of a run find, in order. -/
def scannedAlong (s : Service) (ls : List Service.Label) : List Str := Runs.logged Service.step scannedIn s ls

theorem step_discover {env : Env} {req : RequestData} (hreq : AsksDiscover req) (s : Service) :
    s.step (.request env req) = { s with
      network := env.net.scannedDevices.foldl (NetworkProvider.addServer req.sessionId) s.network
      world := s.world.reply (NetworkProvider.extraReply req
        (JValue.object.put "mediaServer" (.arr (env.net.scannedDevices.map NetworkProvider.mediaObject)))) } := by
  have hmount : ¬ (NetworkProvider.operationType req = "mountSambaServer".toList ∧
      NetworkProvider.validateExtraCommand ["ip", "sharePath"] req = true) := by
    rw [hreq.2.2]
    exact fun h => absurd h.1 (by decide)
  simp only [step_network hreq.1, NetworkProvider.handleRequests, hreq.2.1, NetworkProvider.extraMethod, if_neg hmount,
    if_pos hreq.2.2, NetworkProvider.discoverUPnPMediaServer]

/-- The tables of the media servers are as before. -/
structure SameServers (s s' : NetworkProvider) : Prop where
  drives : s'.mUpnpDriveMap = s.mUpnpDriveMap
  sessions : s'.mUpnpSessionData = s.mUpnpSessionData
  paths : s'.mUpnpPathMap = s.mUpnpPathMap
  ids : s'.upnpIds = s.upnpIds

theorem SameServers.of_eq {s s' : NetworkProvider} (h : s' = s) : SameServers s s' := by
  subst h
  exact ⟨rfl, rfl, rfl, rfl⟩

/-- Other requests leave the servers as they are. -/
theorem sameServers_of_not_discover {s : Service} (hs : s.network.Listed) {l : Service.Label}
    (hl : ∀ env req, l = .request env req → ¬ AsksDiscover req) : SameServers s.network (s.step l).network := by
  cases tablesStep hs l with
  | elsewhere tables => exact .of_eq tables
  | handled env req label routed step =>
    cases step with
    | same tables => exact .of_eq tables
    | discovered request => exact absurd ⟨routed, request⟩ (hl env req label)
    | mount request step =>
      rcases step.tables_cases with tables | ⟨-, -, tables⟩
      · exact .of_eq tables
      · rw [tables]
        exact ⟨rfl, rfl, rfl, rfl⟩
    | eject request step =>
      obtain ⟨keys, hkeys⟩ := NetworkProvider.eraseShareKey_eq s.network (req.str "driveId")
      cases step with
      | refused foreign tables => exact .of_eq tables
      | unlisted own lost tables | stuck own path found busy tables =>
        rw [tables, hkeys]
        exact ⟨rfl, rfl, rfl, rfl⟩
      | ejected own path found tree freed tables =>
        rw [tables, NetworkProvider.dropShare, hkeys]
        exact ⟨rfl, rfl, rfl, rfl⟩

theorem SameServers.record_eq {s s' : NetworkProvider} (h : SameServers s s') :
    NetworkProvider.record s' = NetworkProvider.record s := by
  funext key
  simp only [NetworkProvider.record, h.drives, h.sessions, h.paths]

theorem SameServers.recorded {s s' : NetworkProvider} (h : SameServers s s') (hs : s.Recorded) : s'.Recorded where
  numbered := by simpa only [h.drives, h.ids] using hs.numbered
  recorded := by simpa only [h.drives, h.record_eq] using hs.recorded

/-! ## Servers a session can use -/

/-- The payload inside the answer to an extra command. -/
def replyPayload (r : JValue) : JValue := ((r.get "responsePayload").items.headD .null).get "payload"

/-- The session is shown the drive, with the path, when it asks for its storages. -/
def ShownTo (s : Service) (sessionId driveId path : Str) : Prop :=
  ∀ env ask, ask.methodType = .listStoragesMethod → ask.storageType = .network → ask.sessionId = sessionId →
    ask.params.isObject = true → ∃ r ∈ newReplies s.world (s.handle env ask).world,
      ∃ entry ∈ ((r.get "response").get "network").items,
        entry.get "driveId" = .str driveId ∧ entry.get "path" = .str path

/-- The server with the URL has a drive that the session may use, and that has the URL for its path. -/
def Usable (s : Service) (sessionId url : Str) : Prop :=
  ∃ driveId, s.network.mUpnpDriveMap[NetworkProvider.serverKey url]? = some driveId ∧
    s.network.validateUpnpOperation driveId sessionId = true ∧ s.network.mUpnpPathMap[driveId]? = some url ∧
    ShownTo s sessionId driveId url

theorem shownTo_of_own {s : Service} (hs : NetworkInv s) {sessionId driveId url : Str}
    (howner : s.network.mUpnpSessionData[driveId]? = some sessionId)
    (hurl : s.network.mUpnpPathMap[driveId]? = some url) : ShownTo s sessionId driveId url := by
  rintro env ask hm ht rfl hobj
  obtain ⟨r, hr, hitems⟩ := replies_ask hs env hm ht hobj
  refine ⟨r, hr ▸ List.mem_singleton_self r, NetworkProvider.driveEntry NetworkProvider.upnpName s.network.mUpnpPathMap driveId,
    ?_, rfl, ?_⟩
  · rw [hitems]
    exact List.mem_append_right _ (List.mem_map_of_mem (NetworkProvider.mem_ownedBy.2 howner))
  · have hpath : s.network.mUpnpPathMap.getD driveId [] = url := by
      rw [Std.ExtTreeMap.getD_eq_getD_getElem?, hurl, Option.getD_some]
    rw [← hpath]
    rfl

theorem usable_iff {s : Service} (hs : NetworkInv s) (sessionId url : Str) :
    Usable s sessionId url ↔ NetworkProvider.record s.network (NetworkProvider.serverKey url) = some (sessionId, url) := by
  rw [NetworkProvider.record_eq_some_iff]
  refine exists_congr fun driveId => and_congr_right fun _ => ?_
  simp only [NetworkProvider.validateUpnpOperation, decide_eq_true_eq]
  exact ⟨fun h => ⟨h.1, h.2.1⟩, fun h => ⟨h.1, h.2, shownTo_of_own hs h.1 h.2⟩⟩

/-- After a discovery the session that asked can use every server in the answer. -/
def DiscoveryUsable (s : Service) : Service.Label → Prop
  | .request env req => AsksDiscover req → ∀ r ∈ newReplies s.world (s.step (.request env req)).world,
      ∀ m ∈ ((replyPayload r).get "mediaServer").items,
        Usable (s.step (.request env req)) req.sessionId (m.get "descriptionUrl").asString
  | _ => True

/-- The servers found that are known were found first by the same session at the
same URL, and no two servers found have one address and port. -/
def FoundAlike (s : Service) : Service.Label → Prop
  | .request env req => AsksDiscover req →
      (∀ url ∈ env.net.scannedDevices, ∀ found, NetworkProvider.record s.network (NetworkProvider.serverKey url) = some found →
        found = (req.sessionId, url)) ∧
      ∀ url ∈ env.net.scannedDevices, ∀ url' ∈ env.net.scannedDevices,
        NetworkProvider.serverKey url = NetworkProvider.serverKey url' → url = url'
  | _ => True

/-- What holds of the tables before a run that wraps no counter. -/
structure ServersKnown (s : Service) (ls : List Service.Label) : Prop where
  network : NetworkInv s
  recorded : s.network.Recorded
  few : s.network.upnpIds + (scannedAlong s ls).length < 2 ^ 32

theorem ServersKnown.scan {s : Service} {env : Env} {req : RequestData} {ls : List Service.Label}
    (hs : ServersKnown s (.request env req :: ls)) (hreq : AsksDiscover req) :
    s.network.upnpIds + env.net.scannedDevices.length + (scannedAlong (s.step (.request env req)) ls).length < 2 ^ 32 := by
  have hfew := hs.few
  rw [scannedAlong, Runs.logged, scannedIn, if_pos hreq, List.length_append, ← Nat.add_assoc] at hfew
  exact hfew

theorem ServersKnown.step (s : Service) (l : Service.Label) (ls : List Service.Label) (hs : ServersKnown s (l :: ls)) :
    ServersKnown (s.step l) ls := by
  have hnetwork : NetworkInv (s.step l) := NetworkInv.step s l hs.network
  by_cases hl : ∃ env req, l = .request env req ∧ AsksDiscover req
  · obtain ⟨env, req, rfl, hreq⟩ := hl
    have hscan := hs.scan hreq
    obtain ⟨hrecorded, -, hids⟩ := hs.recorded.addServers req.sessionId env.net.scannedDevices (by omega)
    refine ⟨hnetwork, ?_, ?_⟩
    · rw [step_discover hreq]
      exact hrecorded
    · have hcount : (s.step (.request env req)).network.upnpIds ≤ s.network.upnpIds + env.net.scannedDevices.length := by
        rw [step_discover hreq]
        exact hids
      omega
  · have hsame := sameServers_of_not_discover hs.network.listed fun env req he hreq => hl ⟨env, req, he, hreq⟩
    refine ⟨hnetwork, hsame.recorded hs.recorded, ?_⟩
    have hfew := hs.few
    rw [scannedAlong, Runs.logged, List.length_append] at hfew
    rw [hsame.ids]
    exact lt_of_le_of_lt (Nat.add_le_add_left (Nat.le_add_left _ _) _) hfew

theorem discoveryUsable_iff (s : Service) (l : Service.Label) (ls : List Service.Label) (hs : ServersKnown s (l :: ls)) :
    DiscoveryUsable s l ↔ FoundAlike s l := by
  cases l with
  | devices root req => exact Iff.rfl
  | others fs cloud => exact Iff.rfl
  | request env req =>
    apply forall_congr'
    intro hreq
    have hnetwork : NetworkInv (s.step (.request env req)) := NetworkInv.step s _ hs.network
    have hscan := hs.scan hreq
    obtain ⟨-, hrecord, -⟩ := hs.recorded.addServers req.sessionId env.net.scannedDevices (by omega)
    have hrecord' : NetworkProvider.record (s.step (.request env req)).network =
        env.net.scannedDevices.foldl (Registry.note NetworkProvider.serverKey fun u => (req.sessionId, u))
          (NetworkProvider.record s.network) := by
      rw [step_discover hreq]
      exact hrecord
    have hreply : newReplies s.world (s.step (.request env req)).world = [NetworkProvider.extraReply req
        (JValue.object.put "mediaServer" (.arr (env.net.scannedDevices.map NetworkProvider.mediaObject)))] := by
      rw [step_discover hreq]
      exact newReplies_of_append rfl
    have hitems : ((replyPayload (NetworkProvider.extraReply req (JValue.object.put "mediaServer"
        (.arr (env.net.scannedDevices.map NetworkProvider.mediaObject))))).get "mediaServer").items =
          env.net.scannedDevices.map NetworkProvider.mediaObject := rfl
    have hurl (url : Str) : ((NetworkProvider.mediaObject url).get "descriptionUrl").asString = url := rfl
    simp only [hreply, List.forall_mem_singleton, hitems, List.forall_mem_map, hurl, usable_iff hnetwork, hrecord',
      Registry.all_noted_iff, Prod.mk.injEq, true_and]

theorem ServersKnown.start (fs : FS) (cloud : Table CloudFile) {ls : List Service.Label}
    (hfew : (scannedAlong (Service.start fs cloud) ls).length < 2 ^ 32) : ServersKnown (Service.start fs cloud) ls where
  network := .start fs cloud
  recorded := by constructor <;> simp [Service.start, NetworkProvider.init]
  few := by simpa [Service.start, NetworkProvider.init] using hfew

/-- In every run that finds fewer than 2^32 servers, every session can use the
servers it is told of exactly when it is told of none that were found otherwise before. -/
theorem discovered_usable_iff (fs : FS) (cloud : Table CloudFile) (ls : List Service.Label)
    (hfew : (scannedAlong (Service.start fs cloud) ls).length < 2 ^ 32) :
    Runs.Meets Service.step DiscoveryUsable (Service.start fs cloud) ls ↔
      Runs.Meets Service.step FoundAlike (Service.start fs cloud) ls :=
  Runs.meets_congr_inv ServersKnown.step discoveryUsable_iff (.start fs cloud hfew)

/-- The session that finds a server can use it. -/
theorem first_finder_can_use :
    Runs.Meets Service.step DiscoveryUsable (Service.start sharedFile ∅) [.request oneServer discoverCall] := by
  refine (discovered_usable_iff sharedFile ∅ [.request oneServer discoverCall] (by decide)).2 ⟨fun _ => ⟨?_, ?_⟩, trivial⟩
  · intro url _ found hfound
    simp [NetworkProvider.record, Service.start, NetworkProvider.init] at hfound
  · intro url hurl url' hurl' _
    rw [List.mem_singleton.1 hurl, List.mem_singleton.1 hurl']

/-- The session that finds it next cannot. -/
theorem second_finder_cannot_use :
    ¬ Runs.Meets Service.step DiscoveryUsable (Service.start sharedFile ∅)
      [.request oneServer discoverCall, .request oneServer { discoverCall with sessionId := "guest2".toList }] := by
  rintro ⟨-, h, -⟩
  have hs : ServersKnown (Service.start sharedFile ∅) [.request oneServer discoverCall,
      .request oneServer { discoverCall with sessionId := "guest2".toList }] := .start sharedFile ∅ (by decide)
  have halike := (discoveryUsable_iff _ _ _ (hs.step _ _ _)).1 h (by decide)
  have hfound := halike.1 _ (List.mem_singleton_self _)
    ("guest".toList, "http://10.0.0.2:8200/description.xml".toList) rfl
  exact absurd (congrArg Prod.fst hfound) (by decide)

end StorageAccess
