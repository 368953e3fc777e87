import StorageAccess.Lib.Joined
import StorageAccess.Proofs.Ejecting
import StorageAccess.Proofs.Servers
/-!
# Paths and keys that collide

A mount directory is named by the address and the time of day, and a share is
known by its address, user and path joined into one key. A request whose directory
is in use already is answered like a mount and mounts nothing; one whose key is that
of another share is refused. Both happen exactly when the names collide.
-/

open Posix Json

namespace StorageAccess

open SAFUtilityOperation

/-! ## Mounts that are answered with success -/

namespace NetworkProvider

/-- The commands that give a path to a session, where it is there. -/
def permissionOps (fs : FS) (path sessionId : Str) : List FsOp :=
  if fs.exists? (components path) then
    [.shell ("chown ".toList ++ sessionId ++ ": ".toList ++ path), .shell ("chmod 700 ".toList ++ path)]
  else []

theorem setPathPerm_ops (w : World) (path sessionId : Str) :
    (setPathPerm w path sessionId).ops = w.ops ++ permissionOps w.fs path sessionId := by
  unfold setPathPerm permissionOps
  split
  · simp [chownChmod]
  · exact (List.append_nil _).symm

/-- The operations of a request that mounts. -/
def mountOps (net : Net) (req : RequestData) (tree : FS) : List FsOp :=
  .shell ("mkdir -p ".toList ++ newMount net req) ::
    .mount (mountSource (share req).ip (share req).userName) (newMount net req) (newData net req) true ::
    permissionOps tree (newMount net req) req.sessionId

theorem afterMount_ops (net : Net) (req : RequestData) (w : World) (made tree : FS) :
    (afterMount net req (afterMkdir net req w made) tree).ops = w.ops ++ mountOps net req tree := by
  simp [afterMount, afterMkdir, setPathPerm_ops, mountOps]

/-- What a mount request must hold to be looked up among the shares. -/
structure Valid (req : RequestData) : Prop where
  extra : validateExtraCommand ["ip", "sharePath"] req = true
  complete : Complete req

end NetworkProvider

/-- A mount at the path was made for the request, and the tables hold it for the session. -/
structure MountedAt (req : RequestData) (w : World) (s' : Service) (path : Str) : Prop where
  mount : ∃ data, FsOp.mount (NetworkProvider.mountSource (NetworkProvider.share req).ip (NetworkProvider.share req).userName)
    path data true ∈ newOps w s'.world
  drive : ∃ driveId, s'.network.mSambaDriveMap[(NetworkProvider.share req).key]? = some driveId ∧
    s'.network.mSambaSessionData[driveId]? = some req.sessionId ∧ s'.network.mSambaPathMap[driveId]? = some path

/-- A mount request that is answered with `returnValue` true mounted its share at the path it is told. -/
def SuccessIsMount (s : Service) : Service.Label → Prop
  | .request env req => AsksMount req → ∀ r ∈ newReplies s.world (s.step (.request env req)).world,
      r.get "returnValue" = .bool true →
        MountedAt req s.world (s.step (.request env req)) ((replyPayload r).get "mountPath").asString
  | _ => True

/-- A request that passes its own checks makes a directory that is not in use. -/
def FreshPath (s : Service) : Service.Label → Prop
  | .request env req => AsksMount req → NetworkProvider.Valid req →
      (NetworkProvider.share req).key ∉ s.network.mSambaDriveMap → env.net.mkdir.isSome →
        NetworkProvider.newMount env.net req ∉ s.network.mntpathmap
  | _ => True

theorem newOps_of_append {w w' : World} {ops : List FsOp} (h : w'.ops = w.ops ++ ops) : newOps w w' = ops := by
  simp [newOps, h]

/-- A reply with `returnValue` false reports no success. -/
theorem forall_success_of_fail {w w₁ w' : World} {r : JValue} (hw' : w' = w₁.reply r) (hw : w₁.replies = w.replies)
    (hr : r.get "returnValue" = .bool false) {P : JValue → Prop} :
    ∀ r ∈ newReplies w w', r.get "returnValue" = .bool true → P r := by
  intro r' hr' htrue
  rw [(mem_newReplies_reply hw' hw).1 hr', hr] at htrue
  cases htrue

theorem successIsMount_iff (s : Service) (l : Service.Label) : SuccessIsMount s l ↔ FreshPath s l := by
  cases l with
  | devices root req => exact Iff.rfl
  | others fs cloud => exact Iff.rfl
  | request env req =>
    apply forall_congr'
    intro hreq
    rw [step_network hreq.1, NetworkProvider.handleRequests_mount hreq.2]
    split
    case isFalse hv => exact iff_of_true (forall_success_of_fail rfl rfl rfl) fun hvalid => absurd hvalid.extra hv
    case isTrue hv =>
    cases NetworkProvider.mountStep_mountSambaServer env.net req s.network s.world with
    | incomplete text missing tables world =>
      exact iff_of_true (forall_success_of_fail world rfl rfl) fun hvalid => absurd hvalid.complete missing
    | known complete found tables world =>
      exact iff_of_true (forall_success_of_fail world rfl rfl) fun _ hnew => absurd found hnew
    | unmade complete new nodir tables world =>
      exact iff_of_true (forall_success_of_fail world rfl rfl) fun _ _ hmade => by simp [nodir] at hmade
    | failed complete new made dir free unmounted tables world =>
      exact iff_of_true (forall_success_of_fail world rfl rfl) fun _ _ _ => free
    | inUse complete new made dir used tables world =>
      -- the key was looked for before, so no drive of the request is in the tables
      refine iff_of_false (fun h => ?_) fun h => h ⟨hv, complete⟩ new (by simp [dir]) used
      obtain ⟨driveId, hkey, -⟩ := (h _ ((mem_newReplies_reply world rfl).2 rfl) rfl).drive
      rw [tables] at hkey
      exact new ((Table.mem_iff_get _).2 ⟨driveId, hkey⟩)
    | mounted complete new made dir free tree mount tables world =>
      refine iff_of_true (fun r hr _ => ?_) fun _ _ _ => free
      have hops : (NetworkProvider.mountSambaServer env.net req s.network s.world).2.ops =
          s.world.ops ++ NetworkProvider.mountOps env.net req tree := by
        rw [world]
        exact NetworkProvider.afterMount_ops env.net req s.world made tree
      obtain rfl := (mem_newReplies_reply world (NetworkProvider.afterMount_replies ..)).1 hr
      refine ⟨⟨NetworkProvider.newData env.net req, ?_⟩, ?_⟩
      · rw [newOps_of_append hops]
        exact List.mem_cons_of_mem _ List.mem_cons_self
      · refine ⟨NetworkProvider.sambaId (NetworkProvider.nextId s.network.sambaIds), ?_⟩
        simp only [tables, NetworkProvider.addShare, Table.get_insert, if_true, true_and]
        rfl

/-- In every run each mount request that is answered with success mounted its share,
exactly when no request that passes its checks is given a directory in use. -/
theorem success_is_mount_iff (s : Service) (ls : List Service.Label) :
    Runs.Meets Service.step SuccessIsMount s ls ↔ Runs.Meets Service.step FreshPath s ls :=
  Runs.meets_congr successIsMount_iff

/-- The second of two requests within one millisecond is told the path of the first. -/
theorem same_millisecond_mounts_nothing :
    ¬ Runs.Meets Service.step SuccessIsMount (Service.start twoMounts ∅)
      [.request (mountEnv 7) (mountCall "a" "guest"), .request (mountEnv 7) (mountCall "b" "guest2")] := by
  rintro ⟨-, h, -⟩
  have hfresh := (successIsMount_iff _ _).1 h (by decide) ⟨by decide, by decide, by decide, by decide⟩
    (by decide) (by decide)
  exact absurd hfresh (by decide +kernel)

/-! ## Keys of different names -/

namespace NetworkProvider

/-- What stands between two `_` in the key of a share, whether they join the fields or are in one. -/
def Share.pieces (t : Share) : List Str := Joined.pieces '_' [t.ip, t.userName, t.sharePath]

def serverPieces (url : Str) : List Str := Joined.pieces '_' [(parseMediaServer url).1, (parseMediaServer url).2]

theorem Share.key_eq_join (t : Share) : t.key = Joined.join '_' [t.ip, t.userName, t.sharePath] := by
  rw [Joined.join_cons (by simp), Joined.join_cons (by simp), Joined.join_singleton, Share.key, shareKey,
    List.append_assoc]
  rfl

theorem Share.key_eq_iff (t t' : Share) : t.key = t'.key ↔ t.pieces = t'.pieces := by
  rw [t.key_eq_join, t'.key_eq_join]
  exact Joined.join_eq_iff (by simp) (by simp)

theorem serverKey_eq_iff (url url' : Str) : serverKey url = serverKey url' ↔ serverPieces url = serverPieces url' := by
  have hjoin (url : Str) : serverKey url = Joined.join '_' [(parseMediaServer url).1, (parseMediaServer url).2] := by
    rw [Joined.join_cons (by simp), Joined.join_singleton]
    rfl
  rw [hjoin, hjoin]
  exact Joined.join_eq_iff (by simp) (by simp)

/-- Shares with one key differ in the number of `_` in the address or the user, or are one. -/
theorem Share.eq_of_key {t t' : Share} (hkey : t.key = t'.key)
    (hip : (t.ip.splitOn '_').length = (t'.ip.splitOn '_').length)
    (huser : (t.userName.splitOn '_').length = (t'.userName.splitOn '_').length) : t = t' := by
  have hpieces : t.pieces = t'.pieces := (t.key_eq_iff t').1 hkey
  have hshare : (t.sharePath.splitOn '_').length = (t'.sharePath.splitOn '_').length := by
    have hlength := congrArg List.length hpieces
    simp only [Share.pieces, Joined.pieces, List.flatMap_cons, List.flatMap_nil, List.length_append, List.length_nil] at hlength
    omega
  have hfields := Joined.eq_of_pieces hpieces (by simp only [List.map_cons, List.map_nil, hip, huser, hshare])
  simp only [List.cons.injEq, and_true] at hfields
  obtain ⟨ip, user, sharePath⟩ := t
  obtain ⟨rfl, rfl, rfl⟩ := hfields
  rfl

end NetworkProvider

/-- The request is refused because the share is mounted already. -/
def SaysMounted (s : Service) (env : Env) (req : RequestData) : Prop :=
  NetworkProvider.alreadyMounted ∈ newReplies s.world (s.step (.request env req)).world

theorem saysMounted_iff {req : RequestData} (hreq : AsksMount req) (s : Service) (env : Env) :
    SaysMounted s env req ↔
      NetworkProvider.Valid req ∧ (NetworkProvider.share req).key ∈ s.network.mSambaDriveMap := by
  -- other replies have another text under `error`, or none
  have hother {w₁ w' : World} {r : JValue} (hw' : w' = w₁.reply r) (hw : w₁.replies = s.world.replies)
      (hr : r.get "error" ≠ .str "Already Mounted ".toList) : NetworkProvider.alreadyMounted ∉ newReplies s.world w' := by
    intro hm
    exact hr (congrArg (JValue.get · "error") ((mem_newReplies_reply hw' hw).1 hm).symm)
  rw [SaysMounted, step_network hreq.1, NetworkProvider.handleRequests_mount hreq.2]
  split
  case isFalse hv => exact iff_of_false (hother rfl rfl nofun) fun h => hv h.1.extra
  case isTrue hv =>
  cases NetworkProvider.mountStep_mountSambaServer env.net req s.network s.world with
  | incomplete text missing tables world => exact iff_of_false (hother world rfl nofun) fun h => missing h.1.complete
  | unmade complete new nodir tables world => exact iff_of_false (hother world rfl nofun) fun h => new h.2
  | inUse complete new made dir used tables world => exact iff_of_false (hother world rfl nofun) fun h => new h.2
  | failed complete new made dir free unmounted tables world =>
    refine iff_of_false (hother world rfl fun he => ?_) fun h => new h.2
    have htext : "unable to mount: ".toList ++ NetworkProvider.newMount env.net req = "Already Mounted ".toList :=
      JValue.str.inj he
    simp at htext
  | mounted complete new made dir free tree mount tables world =>
    exact iff_of_false (hother world (NetworkProvider.afterMount_replies ..) nofun) fun h => new h.2
  | known complete found tables world =>
    exact iff_of_true ((mem_newReplies_reply world rfl).2 rfl) ⟨⟨hv, complete⟩, found⟩

/-- The keys in the table are those of shares that were mounted. -/
structure Keyed (s : Service) (mounted : List (Str × NetworkProvider.Share)) : Prop where
  listed : s.network.Listed
  shares : ∀ key driveId : Str, s.network.mSambaDriveMap[key]? = some driveId → ∃ t, (driveId, t) ∈ mounted ∧ t.key = key

theorem Keyed.start (fs : FS) (cloud : Table CloudFile) : Keyed (Service.start fs cloud) [] where
  listed := .init
  shares := by simp [Service.start, NetworkProvider.init]

theorem Keyed.step {s : Service} {mounted : List (Str × NetworkProvider.Share)} {l : Service.Label} (hs : Keyed s mounted) :
    Keyed (s.step l) (mounted ++ mountedIn s l) := by
  -- a step that adds no key
  have hfewer (hkeys : ∀ key driveId : Str, (s.step l).network.mSambaDriveMap[key]? = some driveId →
      s.network.mSambaDriveMap[key]? = some driveId) : Keyed (s.step l) (mounted ++ mountedIn s l) := by
    refine ⟨hs.listed.step l, fun key driveId h => ?_⟩
    obtain ⟨t, ht, hkey⟩ := hs.shares key driveId (hkeys key driveId h)
    exact ⟨t, List.mem_append_left _ ht, hkey⟩
  cases tablesStep hs.listed l with
  | elsewhere tables => exact hfewer fun _ _ h => tables ▸ h
  | handled env req label routed step =>
    cases step with
    | same tables => exact hfewer fun _ _ h => tables ▸ h
    | discovered request tables =>
      obtain ⟨-, -, -, hkeys, -⟩ := NetworkProvider.addServers_samba req.sessionId env.net.scannedDevices s.network
      exact hfewer fun _ _ h => by rwa [tables, hkeys] at h
    | eject request step =>
      cases step with
      | refused foreign tables => exact hfewer fun _ _ h => tables ▸ h
      | unlisted own lost tables | stuck own path found busy tables | ejected own path found tree freed tables =>
        exact hfewer fun _ _ h => NetworkProvider.get_of_eraseShareKey (tables ▸ h)
    | mount request step =>
      rcases step.tables_cases with tables | ⟨-, -, tables⟩
      · exact hfewer fun _ _ h => tables ▸ h
      refine ⟨hs.listed.step l, fun key driveId h => ?_⟩
      subst label
      rw [mountedIn_of_addShare tables]
      rw [tables, NetworkProvider.addShare, Table.get_insert] at h
      split at h
      case isTrue hkey =>
        obtain rfl := Option.some.inj h
        exact ⟨_, List.mem_append_right _ (List.mem_singleton_self _), hkey⟩
      case isFalse =>
        obtain ⟨t, ht, hkey⟩ := hs.shares key driveId h
        exact ⟨t, List.mem_append_left _ ht, hkey⟩

/-- The servers in the table are those that were found. -/
structure Seen (s : Service) (scanned : List Str) : Prop where
  listed : s.network.Listed
  servers : ∀ key, key ∈ s.network.mUpnpDriveMap ↔ ∃ url ∈ scanned, NetworkProvider.serverKey url = key

theorem Seen.start (fs : FS) (cloud : Table CloudFile) : Seen (Service.start fs cloud) [] where
  listed := .init
  servers := by simp [Service.start, NetworkProvider.init]

theorem Seen.step {s : Service} {scanned : List Str} {l : Service.Label} (hs : Seen s scanned) :
    Seen (s.step l) (scanned ++ scannedIn s l) := by
  refine ⟨hs.listed.step l, fun key => ?_⟩
  by_cases hl : ∃ env req, l = .request env req ∧ AsksDiscover req
  · obtain ⟨env, req, rfl, hreq⟩ := hl
    rw [scannedIn, if_pos hreq, step_discover hreq, NetworkProvider.mem_addServers_iff, hs.servers]
    simp only [List.mem_append, or_and_right, exists_or]
  · have hsame := sameServers_of_not_discover hs.listed fun env req he hreq => hl ⟨env, req, he, hreq⟩
    have hnone : scannedIn s l = [] := by
      cases l with
      | request env req => exact if_neg fun hreq => hl ⟨env, req, rfl, hreq⟩
      | devices root req => rfl
      | others fs cloud => rfl
    rw [hnone, List.append_nil, hsame.drives, hs.servers]

/-- In every run a share that was not mounted is refused as mounted exactly when a
share that still is has the same pieces, and a server that was not found is taken
for a known one exactly when one that was found has. -/
theorem keys_tell_apart_iff (fs : FS) (cloud : Table CloudFile) (ls : List Service.Label) :
    let s := Runs.run Service.step (Service.start fs cloud) ls
    let mounted := mountedAlong (Service.start fs cloud) ls
    let scanned := scannedAlong (Service.start fs cloud) ls
    (∀ env req, AsksMount req → (∀ p ∈ mounted, p.2 ≠ NetworkProvider.share req) →
      (¬ SaysMounted s env req ↔ (NetworkProvider.Valid req → ∀ p ∈ mounted,
        s.network.mSambaDriveMap[p.2.key]? = some p.1 → p.2.pieces ≠ (NetworkProvider.share req).pieces))) ∧
    ∀ (sessionId : Str) (before : List Str) (url : Str),
      (∀ url' ∈ scanned ++ before, NetworkProvider.parseMediaServer url' ≠ NetworkProvider.parseMediaServer url) →
      (NetworkProvider.serverKey url ∉ (before.foldl (NetworkProvider.addServer sessionId) s.network).mUpnpDriveMap ↔
        ∀ url' ∈ scanned ++ before, NetworkProvider.serverPieces url' ≠ NetworkProvider.serverPieces url) := by
  intro s mounted scanned
  have hkeyed : Keyed s mounted :=
    Runs.inv_logged (fun _ _ _ hs _ => Keyed.step hs) (Keyed.start fs cloud) (Runs.meets_true _ _ _)
  have hseen : Seen s scanned :=
    Runs.inv_logged (fun _ _ _ hs _ => Seen.step hs) (Seen.start fs cloud) (Runs.meets_true _ _ _)
  constructor
  · intro env req hreq _
    rw [saysMounted_iff hreq, not_and]
    refine forall_congr' fun hvalid => ⟨fun hfree p hp hlive hpieces => ?_, fun hapart hmem => ?_⟩
    · have hkey : p.2.key = (NetworkProvider.share req).key := (p.2.key_eq_iff _).2 hpieces
      exact hfree (hkey ▸ (Table.mem_iff_get _).2 ⟨p.1, hlive⟩)
    · obtain ⟨driveId, hd⟩ := (Table.mem_iff_get _).1 hmem
      obtain ⟨t, ht, hkey⟩ := hkeyed.shares _ _ hd
      exact hapart (driveId, t) ht (hkey ▸ hd) ((t.key_eq_iff _).1 hkey)
  · intro sessionId before url _
    rw [NetworkProvider.mem_addServers_iff, hseen.servers]
    simp only [ne_eq, ← NetworkProvider.serverKey_eq_iff, List.forall_mem_append, not_or, not_exists, not_and]

def userCall (userName share : String) : RequestData :=
  ⟨.network, .extraMethod,
    JValue.object.put "operation" ((JValue.object.put "type" (.text "mountSambaServer")).put "payload"
      (((((JValue.object.put "ip" (.text "nas")).put "sharePath" (.text share)).put "userName" (.text userName)).put
        "password" (.text "p")).put "securityMode" (.text "s"))),
    "guest".toList⟩

/-- Two shares are mounted and a server is found; a third share and another server are new. -/
theorem others_told_apart :
    let ls := mounts ++ [.request oneServer discoverCall]
    let s := Runs.run Service.step (Service.start twoMounts ∅) ls
    ¬ SaysMounted s (mountEnv 9) (mountCall "c" "guest") ∧
      NetworkProvider.serverKey "http://10.0.0.3:8200/description.xml".toList ∉ s.network.mUpnpDriveMap := by
  intro ls s
  have h := keys_tell_apart_iff twoMounts ∅ ls
  exact ⟨(h.1 (mountEnv 9) (mountCall "c" "guest") (by decide) (by decide)).2
      fun _ => by decide,
    (h.2 [] [] "http://10.0.0.3:8200/description.xml".toList (by decide +kernel)).2 (by decide)⟩

/-- The user and the share of one request, cut elsewhere, are those of another; and the
same of two servers' addresses and ports. -/
theorem other_cuts_confused :
    let s := Runs.run Service.step (Service.start twoMounts ∅) [.request (mountEnv 7) (userCall "u" "a_b")]
    (∀ p ∈ mountedAlong (Service.start twoMounts ∅) [.request (mountEnv 7) (userCall "u" "a_b")],
        p.2 ≠ NetworkProvider.share (userCall "u_a" "b")) ∧
      SaysMounted s (mountEnv 70) (userCall "u_a" "b") ∧
      NetworkProvider.parseMediaServer "http://n_a:b/x".toList ≠ NetworkProvider.parseMediaServer "http://n:a_b/x".toList ∧
      NetworkProvider.serverKey "http://n_a:b/x".toList ∈
        (NetworkProvider.addServer "guest".toList s.network "http://n:a_b/x".toList).mUpnpDriveMap := by
  refine ⟨by decide, ?_, by decide +kernel, rfl⟩
  rw [saysMounted_iff (by decide)]
  exact ⟨⟨by decide, by decide, by decide, by decide⟩, rfl⟩

end StorageAccess
