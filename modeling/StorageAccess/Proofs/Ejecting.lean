import StorageAccess.Proofs.Drives
/-!
# Ejects that fail

An eject forgets the key of its share before it calls `umount2`. Where that call
fails the share stays mounted and its key is gone, so that it can be mounted once
more. In a run whose ejects unmount what they are allowed to, a failed eject
changes no table, and the share of its drive is refused when it is asked for again.
-/

open Posix Json

namespace StorageAccess

open SAFUtilityOperation

/-- The drives a step mounts, with their shares. -/
def mountedIn (s : Service) : Service.Label → List (Str × NetworkProvider.Share)
  | .request env req => (issued s (.request env req)).map fun driveId => (driveId, NetworkProvider.share req)
  | _ => []

/-- The drives a run mounts, with their shares, in order. -/
def mountedAlong (s : Service) (ls : List Service.Label) : List (Str × NetworkProvider.Share) :=
  Runs.logged Service.step mountedIn s ls

theorem mountedIn_of_addShare {s : Service} {env : Env} {req : RequestData} {key sessionId path : Str}
    (h : (s.step (.request env req)).network = s.network.addShare key sessionId path) :
    mountedIn s (.request env req) =
      [(NetworkProvider.sambaId (NetworkProvider.nextId s.network.sambaIds), NetworkProvider.share req)] := by
  have hids : (s.step (.request env req)).network.sambaIds = NetworkProvider.nextId s.network.sambaIds := by
    rw [h]
    rfl
  rw [mountedIn, issued, hids, if_neg (NetworkProvider.nextId_ne _)]
  rfl

/-! ## Shares that are known -/

/-- The request is answered that it failed, and nothing else happens. -/
def RefusedMount (s : Service) (env : Env) (req : RequestData) : Prop :=
  ∃ r, s.step (.request env req) = { s with world := s.world.reply r } ∧ r.get "returnValue" = .bool false

/-- A share whose key is in the table is not mounted. -/
theorem refusedMount_of_mem {s : Service} {env : Env} {req : RequestData} (hreq : AsksMount req)
    (h : (NetworkProvider.share req).key ∈ s.network.mSambaDriveMap) : RefusedMount s env req := by
  rw [RefusedMount, step_network hreq.1, NetworkProvider.handleRequests_mount hreq.2]
  split
  case isFalse => exact ⟨_, rfl, rfl⟩
  case isTrue =>
    cases NetworkProvider.mountStep_mountSambaServer env.net req s.network s.world with
    | incomplete text missing tables world => exact ⟨_, by rw [tables, world], rfl⟩
    | known complete found tables world => exact ⟨_, by rw [tables, world], rfl⟩
    | unmade complete new | inUse complete new | failed complete new | mounted complete new => exact absurd h new

/-- The share mounted as the drive is known, so that it cannot be mounted a second time. -/
def StillMounted (s : Service) (mounted : List (Str × NetworkProvider.Share)) (driveId : Str) : Prop :=
  driveId ∈ s.network.mSambaPathMap → ∃ t, (driveId, t) ∈ mounted ∧ s.network.mSambaDriveMap[t.key]? = some driveId ∧
    ∀ env req, AsksMount req → NetworkProvider.share req = t → RefusedMount s env req

/-- Every drive that is mounted was mounted in this run, and is in the table under the key of its share. -/
structure Recalled (s : Service) (mounted : List (Str × NetworkProvider.Share)) : Prop where
  listed : s.network.Listed
  key : ∀ driveId ∈ s.network.mSambaPathMap, ∃ t, (driveId, t) ∈ mounted ∧ s.network.mSambaDriveMap[t.key]? = some driveId

theorem Recalled.stillMounted {s : Service} {mounted : List (Str × NetworkProvider.Share)} (hs : Recalled s mounted)
    (driveId : Str) : StillMounted s mounted driveId := by
  intro hd
  obtain ⟨t, ht, hkey⟩ := hs.key driveId hd
  refine ⟨t, ht, hkey, ?_⟩
  rintro env req hreq rfl
  exact refusedMount_of_mem hreq ((Table.mem_iff_get _).2 ⟨driveId, hkey⟩)

/-! ## Runs -/

def AsksEject (req : RequestData) : Prop := route req = .network ∧ req.methodType = .ejectMethod

/-- An eject by the session that owns the drive succeeds in `umount2`. -/
def Unmounts (s : Service) : Service.Label → Prop
  | .request env req => AsksEject req → s.network.validateSambaOperation (req.str "driveId") req.sessionId = true →
      env.net.umount.isSome
  | _ => True

/-- A drive the session owns has a directory. -/
theorem NetworkProvider.Listed.mem_of_own {s : NetworkProvider} (hs : s.Listed) {driveId sessionId : Str}
    (h : s.validateSambaOperation driveId sessionId = true) : driveId ∈ s.mSambaPathMap :=
  (hs.shares driveId).1 ((Table.mem_iff_get _).2 ⟨sessionId, by simpa [validateSambaOperation] using h⟩)

theorem Recalled.step {s : Service} {mounted : List (Str × NetworkProvider.Share)} {l : Service.Label}
    (hs : Recalled s mounted) (hl : Unmounts s l) : Recalled (s.step l) (mounted ++ mountedIn s l) := by
  have hlisted : (s.step l).network.Listed := hs.listed.step l
  -- a step that leaves the paths and the keys of the shares as they are
  have hsame (hpaths : (s.step l).network.mSambaPathMap = s.network.mSambaPathMap)
      (hkeys : (s.step l).network.mSambaDriveMap = s.network.mSambaDriveMap) :
      Recalled (s.step l) (mounted ++ mountedIn s l) := by
    refine ⟨hlisted, ?_⟩
    rw [hpaths, hkeys]
    intro d hd
    obtain ⟨t, ht, hkey⟩ := hs.key d hd
    exact ⟨t, List.mem_append_left _ ht, hkey⟩
  cases tablesStep hs.listed l with
  | elsewhere tables world => exact hsame (by rw [tables]) (by rw [tables])
  | handled env req label routed step =>
    cases step with
    | same tables world => exact hsame (by rw [tables]) (by rw [tables])
    | discovered request tables world =>
      obtain ⟨hpaths, -, -, hkeys, -⟩ := NetworkProvider.addServers_samba req.sessionId env.net.scannedDevices s.network
      exact hsame (tables ▸ hpaths) (tables ▸ hkeys)
    | eject request step =>
      cases step with
      | refused foreign tables world => exact hsame (by rw [tables]) (by rw [tables])
      | unlisted own lost tables world =>
        obtain ⟨path, hpath⟩ := (Table.mem_iff_get _).1 (hs.listed.mem_of_own own)
        rw [hpath] at lost
        cases lost
      | stuck own path found busy tables world =>
        subst label
        simpa [busy] using hl ⟨routed, request⟩ own
      | ejected own path found tree freed tables world =>
        refine ⟨hlisted, ?_⟩
        rw [tables]
        intro d hd
        obtain ⟨hne, hd⟩ := (Table.mem_erase_iff ..).1 hd
        obtain ⟨t, ht, hkey⟩ := hs.key d hd
        exact ⟨t, List.mem_append_left _ ht, NetworkProvider.get_eraseShareKey_of_ne hkey hne.symm⟩
    | mount request step =>
      rcases step.tables_cases with tables | ⟨new, -, tables⟩
      · exact hsame (by rw [tables]) (by rw [tables])
      refine ⟨hlisted, ?_⟩
      rw [label] at tables ⊢
      rw [mountedIn_of_addShare tables, tables]
      intro d hd
      rcases (Table.mem_insert_iff ..).1 hd with rfl | hd
      · exact ⟨_, List.mem_append_right _ (List.mem_singleton_self _), by rw [NetworkProvider.addShare, Table.get_insert, if_pos rfl]⟩
      · obtain ⟨t, ht, hkey⟩ := hs.key d hd
        refine ⟨t, List.mem_append_left _ ht, ?_⟩
        rw [NetworkProvider.addShare, Table.get_insert, if_neg]
        · exact hkey
        · intro e
          exact new ((Table.mem_iff_get _).2 ⟨d, e ▸ hkey⟩)

/-! ## Ejects that report a failure -/

/-- An eject is answered with `returnValue` false or an error code. -/
def EjectFailed (w w' : World) : Prop :=
  ∃ r ∈ newReplies w w', (r.get "response").get "returnValue" = .bool false ∨ (r.get "response").hasKey "errorCode" = true

/-- Every table of the network provider, and the singleton's copy, is as before. -/
def SameTables (s s' : Service) : Prop := s'.network = s.network ∧ SameDrives s.world s'.world

/-- What an eject answers stands in the request's parameters, where these are an object. -/
theorem NetworkProvider.get_ejectReply (req : RequestData) (respObj : JValue) :
    (ejectReply req respObj).get "response" = respObj ∨ (ejectReply req respObj).get "response" = .null := by
  unfold ejectReply
  cases h : req.params with
  | obj fields => exact .inl (JValue.get_put_self _ rfl _ _)
  | null | bool | num | str | arr => exact .inr rfl

theorem NetworkProvider.hasKey_ejectedObject (req : RequestData) : (ejectedObject req).hasKey "errorCode" = false := by
  rw [ejectedObject, JValue.hasKey_put _ rfl, JValue.hasKey_put _ rfl]
  rfl

/-- What an eject does to the tables is undone by nothing, so it must not fail after its first change. -/
theorem sameTables_iff_unmounts {s : Service} {mounted : List (Str × NetworkProvider.Share)} (hs : Recalled s mounted)
    {env : Env} {req : RequestData} (hreq : AsksEject req) (hfailed : EjectFailed s.world (s.step (.request env req)).world) :
    SameTables s (s.step (.request env req)) ↔ Unmounts s (.request env req) := by
  have hmethod : NetworkProvider.handleRequests env.os env.net req s.network s.world =
      NetworkProvider.eject env.os env.net req s.network s.world := by
    simp only [NetworkProvider.handleRequests, hreq.2]
  simp only [step_network hreq.1, hmethod, SameTables] at hfailed ⊢
  cases NetworkProvider.ejectStep_eject env.os env.net req s.network s.world with
  | refused foreign tables world =>
    exact iff_of_true ⟨tables, world ▸ rfl⟩ fun _ own => by rw [foreign] at own; cases own
  | unlisted own lost tables world =>
    obtain ⟨path, hpath⟩ := (Table.mem_iff_get _).1 (hs.listed.mem_of_own own)
    rw [hpath] at lost
    cases lost
  | stuck own path found busy tables world =>
    obtain ⟨t, -, hkey⟩ := hs.key _ (hs.listed.mem_of_own own)
    refine iff_of_false (fun h => NetworkProvider.eraseShareKey_ne hkey (tables.symm.trans h.1)) fun h => ?_
    simpa [busy] using h hreq own
  | ejected own path found tree freed tables world =>
    obtain ⟨r, hr, hfailed⟩ := hfailed
    replace hr := (mem_newReplies_reply world rfl).1 hr
    -- the object inside the reply has `returnValue` true and no error code
    rcases NetworkProvider.get_ejectReply req (NetworkProvider.ejectedObject req) with h | h
    · rw [hr, h] at hfailed
      rcases hfailed with h | h
      · cases h
      · rw [NetworkProvider.hasKey_ejectedObject] at h
        cases h
    · rw [hr, h] at hfailed
      rcases hfailed with h | h <;> cases h

/-- An eject that cannot unmount reports a failure, whoever asks. -/
theorem ejectFailed_of_busy (s : Service) (env : Env) (req : RequestData) (hreq : AsksEject req)
    (hobj : req.params.isObject = true) (hbusy : env.net.umount = none) :
    EjectFailed s.world (s.step (.request env req)).world := by
  have hsent {w w' : World} {respObj : JValue} (hw' : w' = w.reply (NetworkProvider.ejectReply req respObj))
      (hw : w.replies = s.world.replies)
      (hbad : respObj.get "returnValue" = .bool false ∨ respObj.hasKey "errorCode" = true) : EjectFailed s.world w' := by
    have hget : (NetworkProvider.ejectReply req respObj).get "response" = respObj := JValue.get_put_self _ hobj _ _
    exact ⟨_, (mem_newReplies_reply hw' hw).2 rfl, by rwa [hget]⟩
  simp only [step_network hreq.1, NetworkProvider.handleRequests, hreq.2]
  cases NetworkProvider.ejectStep_eject env.os env.net req s.network s.world with
  | refused foreign tables world => exact hsent world rfl (.inr rfl)
  | unlisted own lost tables world => exact hsent world rfl (.inl rfl)
  | stuck own path found busy tables world => exact hsent world rfl (.inl rfl)
  | ejected own path found tree freed =>
    rw [hbusy] at freed
    cases freed

theorem Recalled.start (fs : FS) (cloud : Table CloudFile) : Recalled (Service.start fs cloud) [] where
  listed := .init
  key := by simp [Service.start, NetworkProvider.init]

/-- In every run whose ejects unmount what they are allowed to, an eject that
reports a failure changes no table, and the share of its drive is still known,
exactly when it is not `umount2` that failed. -/
theorem failed_eject_keeps_iff (fs : FS) (cloud : Table CloudFile) (ls : List Service.Label)
    (hls : Runs.Meets Service.step Unmounts (Service.start fs cloud) ls) (env : Env) (req : RequestData)
    (hreq : AsksEject req) :
    let s := Runs.run Service.step (Service.start fs cloud) ls
    let s' := s.step (.request env req)
    EjectFailed s.world s'.world →
      (SameTables s s' ∧ StillMounted s' (mountedAlong (Service.start fs cloud) ls) (req.str "driveId") ↔
        Unmounts s (.request env req)) := by
  intro s s' hfailed
  have hs : Recalled s (mountedAlong (Service.start fs cloud) ls) :=
    Runs.inv_logged (fun _ _ _ => Recalled.step) (Recalled.start fs cloud) hls
  have htables : SameTables s s' ↔ Unmounts s (.request env req) := sameTables_iff_unmounts hs hreq hfailed
  refine ⟨fun h => htables.1 h.1, fun h => ⟨htables.2 h, ?_⟩⟩
  have hs' : Recalled s' (mountedAlong (Service.start fs cloud) ls) :=
    ⟨(htables.2 h).1 ▸ hs.listed, (htables.2 h).1 ▸ hs.key⟩
  exact hs'.stillMounted _

def ejectCall (driveId sessionId : String) : RequestData :=
  ⟨.network, .ejectMethod, (JValue.object.put "storageType" (.text "network")).put "driveId" (.text driveId),
    sessionId.toList⟩

/-- A session that ejects the drive of another changes nothing. -/
theorem foreign_eject_keeps :
    SameTables mounted (mounted.step (.request Env.quiet (ejectCall "SAMBA_1" "guest2"))) ∧
      StillMounted (mounted.step (.request Env.quiet (ejectCall "SAMBA_1" "guest2")))
        (mountedAlong (Service.start twoMounts ∅) mounts) "SAMBA_1".toList := by
  have hls : Runs.Meets Service.step Unmounts (Service.start twoMounts ∅) mounts :=
    ⟨fun h => absurd h.2 (by decide), fun h => absurd h.2 (by decide), trivial⟩
  have hfailed := ejectFailed_of_busy mounted Env.quiet (ejectCall "SAMBA_1" "guest2") ⟨rfl, rfl⟩ rfl rfl
  exact (failed_eject_keeps_iff twoMounts ∅ mounts hls Env.quiet (ejectCall "SAMBA_1" "guest2") ⟨rfl, rfl⟩ hfailed).2
    fun _ own => absurd own (by decide +kernel)

/-- `umount2` fails for the owner's eject: the drive stays mounted, its key is gone, and the share is mounted again. -/
theorem busy_eject_forgets :
    let s := mounted.step (.request Env.quiet (ejectCall "SAMBA_1" "guest"))
    EjectFailed mounted.world s.world ∧ ¬ SameTables mounted s ∧
      s.network.mSambaPathMap["SAMBA_1".toList]? = some "/tmp/nas_12:34:56_7".toList ∧
      (s.step (.request (mountEnv 99) (mountCall "a" "guest"))).network.mSambaPathMap["SAMBA_3".toList]? =
        some "/tmp/nas_12:34:56_99".toList := by
  refine ⟨ejectFailed_of_busy mounted _ _ ⟨rfl, rfl⟩ rfl rfl, ?_, rfl, rfl⟩
  intro h
  have hkey : mounted.network.mSambaDriveMap[NetworkProvider.shareKey "nas".toList "u".toList "a".toList]? = some "SAMBA_1".toList := by
    decide +kernel
  rw [← h.1] at hkey
  exact absurd hkey (by decide)

end StorageAccess
