import StorageAccess.Proofs.Handlers
/-!
# What mounting, ejecting and finding servers do

A mount request and an eject request each end in one of a few ways, and a media
server that was found is new or known. What every
way does to the tables and to the world is stated here once, with the checks
that led to it, so that the other modules need not look at the code again.
-/

open Posix Json

namespace StorageAccess

open SAFUtilityOperation

@[simp]
theorem chownChmod_replies (w : World) (path sessionId : Str) : (chownChmod w path sessionId).replies = w.replies := rfl

@[simp]
theorem setPathPerm_replies (w : World) (path sessionId : Str) : (setPathPerm w path sessionId).replies = w.replies := by
  unfold setPathPerm; split <;> rfl

namespace NetworkProvider

/-- What a mount request asks for: the share of a user on a server. -/
structure Share where
  ip : Str
  userName : Str
  sharePath : Str
  deriving DecidableEq

def Share.key (t : Share) : Str := shareKey t.ip t.userName t.sharePath

/-- The share a mount request names. -/
def share (req : RequestData) : Share :=
  ⟨((payload req).get "ip").asString, ((payload req).get "userName").asString, ((payload req).get "sharePath").asString⟩

/-- The members `mountSambaServer` looks for itself. -/
structure Complete (req : RequestData) : Prop where
  user : (payload req).hasKey "userName" = true
  password : (payload req).hasKey "password" = true
  security : (payload req).hasKey "securityMode" = true

/-- The directory a mount request makes. -/
def newMount (net : Net) (req : RequestData) : Str := mountPath ((payload req).get "ip").asString net.clock

/-- The share is new, and the directory can be made, is in no use and takes the share. -/
structure MountSucceeds (net : Net) (req : RequestData) (s : NetworkProvider) : Prop where
  complete : Complete req
  new : (share req).key ∉ s.mSambaDriveMap
  made : net.mkdir.isSome = true
  free : newMount net req ∉ s.mntpathmap
  mount : net.mount.isSome = true

/-- The options a mount request is mounted with. -/
def newData (net : Net) (req : RequestData) : Str :=
  mountData net (share req).ip (share req).userName ((payload req).get "password").asString
    ((payload req).get "securityMode").asString

def alreadyMounted : JValue := mountError "error" "Already Mounted ".toList

def mountReply (net : Net) (req : RequestData) : JValue :=
  extraReply req (JValue.object.put "mountPath" (.str (newMount net req)))

/-- The command that makes the directory has run, and left the tree it gives. -/
def afterMkdir (net : Net) (req : RequestData) (w : World) (made : FS) : World :=
  { w.log (.shell ("mkdir -p ".toList ++ newMount net req)) with fs := made }

/-- The share is mounted, and its directory belongs to the session. -/
def afterMount (net : Net) (req : RequestData) (w : World) (tree : FS) : World :=
  let source := mountSource (share req).ip (share req).userName
  setPathPerm { w.log (.mount source (newMount net req) (newData net req) true) with fs := tree } (newMount net req)
    req.sessionId

theorem afterMount_replies (net : Net) (req : RequestData) (w : World) (made tree : FS) (paths : Table Str) :
    (setDriveDetails (afterMount net req (afterMkdir net req w made) tree) paths).replies = w.replies := by
  simp [setDriveDetails, afterMount, afterMkdir]

/-- How a mount request ends. -/
inductive MountStep (net : Net) (req : RequestData) (s : NetworkProvider) (w : World) (s' : NetworkProvider)
    (w' : World) : Prop
  | incomplete (text : Str) (missing : ¬ Complete req) (tables : s' = s) (world : w' = w.reply (mountError "errorText" text))
  | known (complete : Complete req) (found : (share req).key ∈ s.mSambaDriveMap) (tables : s' = s)
      (world : w' = w.reply alreadyMounted)
  | unmade (complete : Complete req) (new : (share req).key ∉ s.mSambaDriveMap) (nodir : net.mkdir = none) (tables : s' = s)
      (world : w' = (w.log (.shell ("mkdir -p ".toList ++ newMount net req))).reply
        (mountError "errorText" "Cannot create mount path  directory".toList))
  | inUse (complete : Complete req) (new : (share req).key ∉ s.mSambaDriveMap) (made : FS) (dir : net.mkdir = some made)
      (used : newMount net req ∈ s.mntpathmap) (tables : s' = s)
      (world : w' = (afterMkdir net req w made).reply (mountReply net req))
  | failed (complete : Complete req) (new : (share req).key ∉ s.mSambaDriveMap) (made : FS) (dir : net.mkdir = some made)
      (free : newMount net req ∉ s.mntpathmap) (unmounted : net.mount = none) (tables : s' = s)
      (world : w' = ((afterMkdir net req w made).log (.mount (mountSource (share req).ip (share req).userName)
        (newMount net req) (newData net req) false)).reply (mountError "error" ("unable to mount: ".toList ++ newMount net req)))
  | mounted (complete : Complete req) (new : (share req).key ∉ s.mSambaDriveMap) (made : FS) (dir : net.mkdir = some made)
      (free : newMount net req ∉ s.mntpathmap) (tree : FS) (mount : net.mount = some tree)
      (tables : s' = s.addShare (share req).key req.sessionId (newMount net req))
      (world : w' = (setDriveDetails (afterMount net req (afterMkdir net req w made) tree) s'.mSambaPathMap).reply
        (mountReply net req))

theorem mountStep_mountSambaServer (net : Net) (req : RequestData) (s : NetworkProvider) (w : World) :
    MountStep net req s w (mountSambaServer net req s w).1 (mountSambaServer net req s w).2 := by
  unfold mountSambaServer
  extract_lets ip userName password sharePath securityMode path uniqueKey mounted w'
  split
  case isTrue h => exact .incomplete _ (fun hc => by simp [hc.user] at h) rfl rfl
  case isFalse hu =>
  split
  case isTrue h => exact .incomplete _ (fun hc => by simp [hc.password] at h) rfl rfl
  case isFalse hp =>
  split
  case isTrue h => exact .incomplete _ (fun hc => by simp [hc.security] at h) rfl rfl
  case isFalse hs =>
  have hcomplete : Complete req := ⟨by simpa using hu, by simpa using hp, by simpa using hs⟩
  split
  case isTrue h => exact .known hcomplete (Std.ExtTreeMap.contains_iff_mem.1 h) rfl rfl
  case isFalse hn =>
  have hnew : (share req).key ∉ s.mSambaDriveMap := fun h => hn (Std.ExtTreeMap.contains_iff_mem.2 h)
  cases hmade : net.mkdir with
  | none => exact .unmade hcomplete hnew hmade rfl rfl
  | some made =>
    dsimp only
    split
    case isTrue h => exact .inUse hcomplete hnew made hmade (Std.ExtTreeMap.contains_iff_mem.1 h) rfl rfl
    case isFalse h =>
    have hfree : newMount net req ∉ s.mntpathmap := fun hm => h (Std.ExtTreeMap.contains_iff_mem.2 hm)
    cases hmount : net.mount with
    | none => exact .failed hcomplete hnew made hmade hfree hmount rfl rfl
    | some tree => exact .mounted hcomplete hnew made hmade hfree tree hmount rfl rfl

/-- The tables change where the share is mounted, and only there. -/
theorem MountStep.tables_cases {net : Net} {req : RequestData} {s s' : NetworkProvider} {w w' : World}
    (h : MountStep net req s w s' w') :
    s' = s ∨ (share req).key ∉ s.mSambaDriveMap ∧ newMount net req ∉ s.mntpathmap ∧
      s' = s.addShare (share req).key req.sessionId (newMount net req) := by
  cases h with
  | incomplete _ _ tables | known _ _ tables | unmade _ _ _ tables | inUse _ _ _ _ _ tables | failed _ _ _ _ _ _ tables =>
    exact .inl tables
  | mounted _ new _ _ free _ _ tables => exact .inr ⟨new, free, tables⟩

/-! ## Ejecting -/

/-- A drive's own key is forgotten, if it has one. -/
theorem eraseShareKey_cases (s : NetworkProvider) (driveId : Str) :
    (∃ key : Str, s.mSambaDriveMap[key]? = some driveId ∧
      s.eraseShareKey driveId = { s with mSambaDriveMap := s.mSambaDriveMap.erase key }) ∨
    (∀ key : Str, s.mSambaDriveMap[key]? ≠ some driveId) ∧ s.eraseShareKey driveId = s := by
  unfold eraseShareKey
  split
  case h_1 entry hfind =>
    have hentry := Std.ExtTreeMap.mem_toList_iff_getElem?_eq_some.1 (List.mem_of_find?_eq_some hfind)
    have hval : entry.2 = driveId := by simpa using List.find?_some hfind
    exact .inl ⟨entry.1, hval ▸ hentry, rfl⟩
  case h_2 hfind =>
    refine .inr ⟨fun key h => ?_, rfl⟩
    have hlisted := List.find?_eq_none.1 hfind (key, driveId) (Std.ExtTreeMap.mem_toList_iff_getElem?_eq_some.2 h)
    simp at hlisted

/-- Forgetting a key touches one table. -/
theorem eraseShareKey_eq (s : NetworkProvider) (driveId : Str) :
    ∃ keys, s.eraseShareKey driveId = { s with mSambaDriveMap := keys } := by
  rcases eraseShareKey_cases s driveId with ⟨key, -, h⟩ | ⟨-, h⟩
  · exact ⟨_, h⟩
  · exact ⟨s.mSambaDriveMap, h⟩

theorem get_of_eraseShareKey {s : NetworkProvider} {driveId k d : Str}
    (h : (s.eraseShareKey driveId).mSambaDriveMap[k]? = some d) : s.mSambaDriveMap[k]? = some d := by
  rcases eraseShareKey_cases s driveId with ⟨key, -, he⟩ | ⟨-, he⟩
  · rw [he, Table.get_erase] at h
    split at h
    · cases h
    · exact h
  · rwa [he] at h

/-- Other drives keep their keys. -/
theorem get_eraseShareKey_of_ne {s : NetworkProvider} {driveId k d : Str} (h : s.mSambaDriveMap[k]? = some d)
    (hne : d ≠ driveId) : (s.eraseShareKey driveId).mSambaDriveMap[k]? = some d := by
  rcases eraseShareKey_cases s driveId with ⟨key, hkey, he⟩ | ⟨-, he⟩
  · rw [he, Table.get_erase, if_neg]
    · exact h
    rintro rfl
    exact hne (Option.some.inj (h.symm.trans hkey))
  · rwa [he]

/-- A drive that has a key loses one. -/
theorem eraseShareKey_ne {s : NetworkProvider} {driveId k : Str} (h : s.mSambaDriveMap[k]? = some driveId) :
    s.eraseShareKey driveId ≠ s := by
  intro hsame
  rcases eraseShareKey_cases s driveId with ⟨key, hkey, he⟩ | ⟨hnone, -⟩
  · have hgone := congrArg (fun s : NetworkProvider => s.mSambaDriveMap[key]?) (he.symm.trans hsame)
    dsimp only at hgone
    rw [Table.get_erase, if_pos rfl, hkey] at hgone
    cases hgone
  · exact hnone k h

theorem eraseShareKey_paths (s : NetworkProvider) (driveId : Str) :
    (s.eraseShareKey driveId).mSambaPathMap = s.mSambaPathMap ∧
      (s.eraseShareKey driveId).mSambaSessionData = s.mSambaSessionData ∧
      (s.eraseShareKey driveId).mntpathmap = s.mntpathmap ∧ (s.eraseShareKey driveId).mUpnpPathMap = s.mUpnpPathMap ∧
      (s.eraseShareKey driveId).mUpnpSessionData = s.mUpnpSessionData ∧
      (s.eraseShareKey driveId).sambaIds = s.sambaIds := by
  obtain ⟨keys, h⟩ := eraseShareKey_eq s driveId
  rw [h]
  exact ⟨rfl, rfl, rfl, rfl, rfl, rfl⟩

/-- The tables once a share is unmounted. -/
def dropShare (s : NetworkProvider) (driveId path : Str) : NetworkProvider :=
  { s.eraseShareKey driveId with
    mntpathmap := s.mntpathmap.erase path
    mSambaSessionData := s.mSambaSessionData.erase driveId
    mSambaPathMap := s.mSambaPathMap.erase driveId }

/-- An eject answers inside the request it was sent. -/
def ejectReply (req : RequestData) (respObj : JValue) : JValue := req.params.put "response" respObj

def ejectedObject (req : RequestData) : JValue :=
  (JValue.object.put "returnValue" (.bool true)).put "unmountPath: " (.str (req.str "driveId"))

/-- The share is unmounted, and what was below its directory removed. -/
def afterUmount (os : Os) (path : Str) (w : World) (tree : FS) : World :=
  (SAFUtilityOperation.remove os { w.log (.umount path true) with fs := tree } path).1

/-- How an eject request ends. -/
inductive EjectStep (os : Os) (net : Net) (req : RequestData) (s : NetworkProvider) (w : World) (s' : NetworkProvider)
    (w' : World) : Prop
  | refused (foreign : s.validateSambaOperation (req.str "driveId") req.sessionId = false) (tables : s' = s)
      (world : w' = w.reply (ejectReply req invalidDriveId))
  | unlisted (own : s.validateSambaOperation (req.str "driveId") req.sessionId = true)
      (lost : s.mSambaPathMap[req.str "driveId"]? = none) (tables : s' = s.eraseShareKey (req.str "driveId"))
      (world : w' = w.reply (ejectReply req (mountError "error" ("Not Mounted : ".toList ++ req.str "driveId"))))
  | stuck (own : s.validateSambaOperation (req.str "driveId") req.sessionId = true) (path : Str)
      (found : s.mSambaPathMap[req.str "driveId"]? = some path) (busy : net.umount = none)
      (tables : s' = s.eraseShareKey (req.str "driveId"))
      (world : w' = (w.log (.umount path false)).reply
        (ejectReply req (mountError "error" ("Unable to eject : ".toList ++ req.str "driveId"))))
  | ejected (own : s.validateSambaOperation (req.str "driveId") req.sessionId = true) (path : Str)
      (found : s.mSambaPathMap[req.str "driveId"]? = some path) (tree : FS) (freed : net.umount = some tree)
      (tables : s' = s.dropShare (req.str "driveId") path)
      (world : w' = (setDriveDetails (afterUmount os path w tree) s'.mSambaPathMap).reply
        (ejectReply req (ejectedObject req)))

theorem ejectStep_eject (os : Os) (net : Net) (req : RequestData) (s : NetworkProvider) (w : World) :
    EjectStep os net req s w (eject os net req s w).1 (eject os net req s w).2 := by
  obtain ⟨hpaths, hsessions, hdirs, -⟩ := eraseShareKey_paths s (req.str "driveId")
  unfold eject
  dsimp only
  split
  case isTrue h => exact .refused (by simpa using h) rfl rfl
  case isFalse h =>
  have hown : s.validateSambaOperation (req.str "driveId") req.sessionId = true := by simpa using h
  split
  case h_1 hlost => exact .unlisted hown (hpaths ▸ hlost) rfl rfl
  case h_2 path hfound =>
    rw [hpaths] at hfound
    cases hnet : net.umount with
    | none => exact .stuck hown path hfound hnet rfl rfl
    | some tree =>
      refine .ejected hown path hfound tree hnet ?_ rfl
      simp only [dropShare, hpaths, hsessions, hdirs]

/-! ## Finding media servers -/

/-- The tables once a server that was not known has the next number. -/
def withServer (s : NetworkProvider) (sessionId url : Str) : NetworkProvider :=
  let driveId := upnpId (nextId s.upnpIds)
  { s with
    mUpnpDriveMap := s.mUpnpDriveMap.insert (serverKey url) driveId
    mUpnpSessionData := s.mUpnpSessionData.insert driveId sessionId
    mUpnpPathMap := s.mUpnpPathMap.insert driveId url
    upnpIds := nextId s.upnpIds }

/-- A server that is known changes nothing. -/
theorem addServer_cases (sessionId : Str) (s : NetworkProvider) (url : Str) :
    serverKey url ∈ s.mUpnpDriveMap ∧ addServer sessionId s url = s ∨
    serverKey url ∉ s.mUpnpDriveMap ∧ addServer sessionId s url = s.withServer sessionId url := by
  unfold addServer
  extract_lets uniqueKey driveId
  split
  case isTrue h => exact .inl ⟨Std.ExtTreeMap.contains_iff_mem.1 h, rfl⟩
  case isFalse h => exact .inr ⟨fun hm => h (Std.ExtTreeMap.contains_iff_mem.2 hm), rfl⟩

end NetworkProvider

end StorageAccess
