import StorageAccess.Model.Utility
import StorageAccess.Model.XmlHandler
/-!
# The network storage provider

SAMBA shares are mounted below `/tmp`; media servers are found by UPnP. Every
drive belongs to the session that mounted or discovered it.
-/

open Posix Json

namespace StorageAccess

/-- The time of day `getTimestamp` reads. -/
structure Clock where
  hour : Fin 24
  minute : Fin 60
  second : Fin 60
  millis : Fin 1000

/-- What the network and the commands do during one request. `mkdir`, `mount` and
`umount` are the trees left by calls that succeed. -/
structure Net where
  clock : Clock
  uid : Nat
  gid : Nat
  mkdir : Option FS
  mount : Option FS
  umount : Option FS
  scannedDevices : List Str
  containerId : Str → Str → Int
  dirContents : Int → List DirDetails

structure NetworkProvider where
  mSambaDriveMap : Table Str
  mSambaSessionData : Table Str
  mSambaPathMap : Table Str
  mUpnpDriveMap : Table Str
  mUpnpSessionData : Table Str
  mUpnpPathMap : Table Str
  mntpathmap : Table Str
  sambaIds : Nat
  upnpIds : Nat

namespace NetworkProvider

open SAFUtilityOperation

def init : NetworkProvider := ⟨∅, ∅, ∅, ∅, ∅, ∅, ∅, 0, 0⟩

def sambaName : Str := "SAMBA".toList

def upnpName : Str := "UPNP".toList

def invalidDriveId : JValue := errorReply SAFErrors.invalidParam.code "Invalid DriveID"

def invalidPath : JValue := errorReply SAFErrors.invalidPath.code "Invalid Path"

def payload (req : RequestData) : JValue := (req.params.get "operation").get "payload"

def operationType (req : RequestData) : Str := ((req.params.get "operation").get "type").asString

def validateExtraCommand (extraParams : List String) (req : RequestData) : Bool :=
  extraParams.all fun paramName => (payload req).hasKey paramName && ((payload req).get paramName).asString ≠ []

/-- Two digits, as `%T` prints them. -/
def twoDigits (n : Nat) : Str := if n < 10 then '0' :: Nat.toDigits 10 n else Nat.toDigits 10 n

/-- The time of day and, without padding, the milliseconds. -/
def getTimestamp (c : Clock) : Str :=
  twoDigits c.hour ++ ':' :: twoDigits c.minute ++ ':' :: twoDigits c.second ++ '_' :: Nat.toDigits 10 c.millis

def validateSambaOperation (s : NetworkProvider) (driveId sessionId : Str) : Bool :=
  s.mSambaSessionData[driveId]? = some sessionId

def validateUpnpOperation (s : NetworkProvider) (driveId sessionId : Str) : Bool :=
  s.mUpnpSessionData[driveId]? = some sessionId

/-- The next value of a 32-bit counter. -/
def nextId (n : Nat) : Nat := (n + 1) % 2 ^ 32

def sambaId (n : Nat) : Str := "SAMBA_".toList ++ Nat.toDigits 10 n

def upnpId (n : Nat) : Str := "UPNP_".toList ++ Nat.toDigits 10 n

/-! ## Mounting and discovering -/

def mountPath (ip : Str) (c : Clock) : Str := "/tmp/".toList ++ ip ++ '_' :: getTimestamp c

def shareKey (ip userName sharePath : Str) : Str := ip ++ '_' :: userName ++ '_' :: sharePath

def mountSource (ip userName : Str) : Str := "//".toList ++ ip ++ '/' :: userName

def mountData (net : Net) (ip userName password securityMode : Str) : Str :=
  "ip=".toList ++ ip ++ ",unc=\\\\".toList ++ ip ++ '\\' :: userName ++ ",user=".toList ++ userName ++ ",pass=".toList ++
    password ++ ",sec=".toList ++ securityMode ++ ",uid=".toList ++ Nat.toDigits 10 net.uid ++ ",gid=".toList ++
    Nat.toDigits 10 net.gid

/-- A failure of `mountSambaServer`, which names no error code. -/
def mountError (key : String) (text : Str) : JValue :=
  (JValue.object.put "returnValue" (.bool false)).put key (.str text)

/-- The reply of an extra command that succeeded. -/
def extraReply (req : RequestData) (payload : JValue) : JValue :=
  let responsePayObj := (JValue.object.put "type" (.str (operationType req))).put "payload" payload
  (JValue.object.put "returnValue" (.bool true)).put "responsePayload" (.arr [responsePayObj])

/-- The tables once a share is mounted. -/
def addShare (s : NetworkProvider) (uniqueKey sessionId path : Str) : NetworkProvider :=
  let driveId := sambaId (nextId s.sambaIds)
  { s with
    mSambaDriveMap := s.mSambaDriveMap.insert uniqueKey driveId
    mSambaSessionData := s.mSambaSessionData.insert driveId sessionId
    mSambaPathMap := s.mSambaPathMap.insert driveId path
    mntpathmap := s.mntpathmap.insert path path
    sambaIds := nextId s.sambaIds }

def mountSambaServer (net : Net) (req : RequestData) (s : NetworkProvider) (w : World) : NetworkProvider × World :=
  let ip := ((payload req).get "ip").asString
  let userName := ((payload req).get "userName").asString
  let password := ((payload req).get "password").asString
  let sharePath := ((payload req).get "sharePath").asString
  let securityMode := ((payload req).get "securityMode").asString
  if !(payload req).hasKey "userName" then (s, w.reply (mountError "errorText" "User name not specified for Drive".toList))
  else if !(payload req).hasKey "password" then (s, w.reply (mountError "errorText" "Password not specified for Drive".toList))
  else if !(payload req).hasKey "securityMode" then
    (s, w.reply (mountError "errorText" "Security Mode not specified for Drive".toList))
  else
    let path := mountPath ip net.clock
    let uniqueKey := shareKey ip userName sharePath
    let mounted := extraReply req (JValue.object.put "mountPath" (.str path))
    if s.mSambaDriveMap.contains uniqueKey then (s, w.reply (mountError "error" "Already Mounted ".toList))
    else
      let w := w.log (.shell ("mkdir -p ".toList ++ path))
      match net.mkdir with
      | none => (s, w.reply (mountError "errorText" "Cannot create mount path  directory".toList))
      | some made =>
        let w := { w with fs := made }
        -- a directory that is in use already is answered like a mount
        if s.mntpathmap.contains path then (s, w.reply mounted)
        else
          let source := mountSource ip userName
          let data := mountData net ip userName password securityMode
          match net.mount with
          | some tree =>
            let w := setPathPerm { w.log (.mount source path data true) with fs := tree } path req.sessionId
            let s := s.addShare uniqueKey req.sessionId path
            (s, (setDriveDetails w s.mSambaPathMap).reply mounted)
          | none =>
            (s, (w.log (.mount source path data false)).reply (mountError "error" ("unable to mount: ".toList ++ path)))

/-- The part of a string before the last `/`, or all of it. -/
def beforeLastSlash (s : Str) : Str := if '/' ∈ s then (dirPart s).dropLast else s

/-- The address and port of a server's description URL. -/
def parseMediaServer (url : Str) : Str × Str :=
  let temp := url.drop (match find "//".toList url with | some i => i + 2 | none => 1)
  let ip := temp.takeWhile (· ≠ ':')
  let temp := beforeLastSlash temp
  let port := if ':' ∈ temp then (temp.dropWhile (· ≠ ':')).drop 1 else temp
  (ip, port)

def mediaObject (url : Str) : JValue :=
  ((((JValue.object.put "ip" (.str (parseMediaServer url).1)).put "port" (.str (parseMediaServer url).2)).put
    "descriptionUrl" (.str url)).put "name" (.text "MEDIA SERVER")).put "urn"
    (.text "urn:schemas-upnp-org:service:ContentDirectory:1")

def serverKey (url : Str) : Str := (parseMediaServer url).1 ++ '_' :: (parseMediaServer url).2

/-- The tables once a media server was seen. -/
def addServer (sessionId : Str) (s : NetworkProvider) (url : Str) : NetworkProvider :=
  let uniqueKey := serverKey url
  -- a server that is known stays with the session that found it first
  if s.mUpnpDriveMap.contains uniqueKey then s
  else
    let driveId := upnpId (nextId s.upnpIds)
    { s with
      mUpnpDriveMap := s.mUpnpDriveMap.insert uniqueKey driveId
      mUpnpSessionData := s.mUpnpSessionData.insert driveId sessionId
      mUpnpPathMap := s.mUpnpPathMap.insert driveId url
      upnpIds := nextId s.upnpIds }

def discoverUPnPMediaServer (net : Net) (req : RequestData) (s : NetworkProvider) (w : World) : NetworkProvider × World :=
  (net.scannedDevices.foldl (addServer req.sessionId) s,
    w.reply (extraReply req (JValue.object.put "mediaServer" (.arr (net.scannedDevices.map mediaObject)))))

def extraMethod (net : Net) (req : RequestData) (s : NetworkProvider) (w : World) : NetworkProvider × World :=
  if operationType req = "mountSambaServer".toList ∧ validateExtraCommand ["ip", "sharePath"] req then
    mountSambaServer net req s w
  else if operationType req = "discoverUPnPMediaServer".toList then discoverUPnPMediaServer net req s w
  else (s, w.reply (failReply SAFErrors.invalidParam.code (getCloudErrorString SAFErrors.invalidParam.code)))

/-! ## Reading a drive -/

def isUpnp (driveId : Str) : Bool := upnpName <:+: driveId

/-- A drive the session may use, of the kind its id names. -/
def validateOperation (s : NetworkProvider) (driveId sessionId : Str) : Bool :=
  if isUpnp driveId then s.validateUpnpOperation driveId sessionId else s.validateSambaOperation driveId sessionId

/-- A size as a signed 32-bit number. -/
def sizeNumber (size : Nat) : JValue := .num (FolderContents.wrap32 size)

def upnpFile (dev : DirDetails) : JValue :=
  ((((JValue.object.put "name" (.str dev.title)).put "id" (.num dev.id)).put "childCount" (.num dev.childCount)).put
    "mimeType" (.str dev.className)).put "url" (.str dev.resUrl)

/-- `mUpnpPathMap[driveId]`. -/
def lookUpnpPath (s : NetworkProvider) (driveId : Str) : NetworkProvider :=
  { s with mUpnpPathMap := touch s.mUpnpPathMap driveId [] }

/-- `mSambaPathMap[driveId]`. -/
def lookSambaPath (s : NetworkProvider) (driveId : Str) : NetworkProvider :=
  { s with mSambaPathMap := touch s.mSambaPathMap driveId [] }

/-- An unknown drive and a drive of another session get the same reply. -/
def list (os : Os) (net : Net) (req : RequestData) (s : NetworkProvider) (w : World) : NetworkProvider × World :=
  let driveId := req.str "driveId"
  let path := req.str "path"
  if !s.validateOperation driveId req.sessionId then (s, w.reply invalidDriveId)
  else if !isUpnp driveId then
    if !validateSambaPath w.fs w.mSambaDrivePathMap path driveId then (s, w.reply invalidPath)
    else
      let (w, contents) := getListFolderContents os w path
      (s, w.reply (listReply getInternalErrorString sizeNumber contents (req.int "offset") (req.int "limit")))
  -- the path of a container on the server, which the file system knows nothing of
  else if path = [] ∨ path.head? ≠ some '/' ∨ path.getLast? = some '/' then (s, w.reply invalidPath)
  else
    let s := s.lookUpnpPath driveId
    match net.dirContents (net.containerId (s.mUpnpPathMap.getD driveId []) path) with
    | [] => (s, w.reply (failReply 101 "UPNP List Faild "))
    | devs => (s, w.reply ((((JValue.object.put "returnValue" (.bool true)).put "files" (.arr (devs.map upnpFile))).put
        "totalCount" (.num devs.length)).put "fullPath" (.str path)))

def upnpAttributes (dev : DirDetails) : JValue :=
  (((((JValue.object.put "id" (.num dev.id)).put "restricted" (.num dev.restricted)).put "mimeType"
    (.str dev.className)).put "title" (.str dev.title)).put "childCount" (.num dev.childCount)).put "url" (.str dev.resUrl)

/-- An invalid path is reported in an object that already says `returnValue` true,
and the attributes of a SAMBA path are overwritten by an empty list. -/
def getProperties (os : Os) (net : Net) (req : RequestData) (s : NetworkProvider) (w : World) : NetworkProvider × World :=
  let driveId := req.str "driveId"
  let respObj := (JValue.object.put "returnValue" (.bool true)).put "storageType" (.text "network")
  if !s.validateOperation driveId req.sessionId then (s, w.reply invalidDriveId)
  else if isUpnp driveId then
    let s := s.lookUpnpPath driveId
    let own := s.mUpnpPathMap.getD driveId []
    let path := if req.params.hasKey "path" then req.str "path" else own
    let devs := net.dirContents (net.containerId own path)
    (s, w.reply (respObj.put "attributes" (.arr ((devs.take 1).map upnpAttributes))))
  else
    let s := s.lookSambaPath driveId
    let own := s.mSambaPathMap.getD driveId []
    let path := if req.params.hasKey "path" then req.str "path" else own
    if !validateSambaPath w.fs w.mSambaDrivePathMap path driveId then
      (s, w.reply ((respObj.put "errorCode" (.num SAFErrors.invalidPath.code)).put "errorText" (.text "Invalid Path")))
    else
      let (w, info) := SAFUtilityOperation.getProperties os w path
      if info.status < 0 then
        let errorCode := getInternalErrorCode info.status
        (s, w.reply (((respObj.put "returnValue" (.bool false)).put "errorCode" (.num errorCode)).put "errorText"
          (.text (getInternalErrorString errorCode))))
      else
        let storageType := if req.params.hasKey "storageType" then some (req.str "storageType") else none
        let described := info.describe (FolderContent.getModTime os w.fs path) storageType (path = own) respObj
        (s, w.reply (described.put "attributes" .array))

/-! ## Changing a drive -/

/-- `copy` and `move` check both paths first and then the source drive. The
destination drive id is read but not checked. -/
def transfer (req : RequestData) (s : NetworkProvider) (w : World) (go : World → World) : World :=
  match validateInterProviderOperation w req with
  | (w, false) => w
  | (w, true) =>
    if !s.validateSambaOperation (req.str "srcDriveId") req.sessionId then w.reply invalidDriveId
    else go w

def copy (os : Os) (req : RequestData) (s : NetworkProvider) (w : World) : World :=
  s.transfer req w fun w =>
    let (w, t) := SAFUtilityOperation.copy os w (req.str "srcPath") (req.str "destPath") (req.flag "overwrite")
    pollStatus getInternalErrorString true os (os.patience + 1) (-20) .object t w

def move (os : Os) (req : RequestData) (s : NetworkProvider) (w : World) : World :=
  s.transfer req w fun w =>
    let (w, t) := SAFUtilityOperation.move os w (req.str "srcPath") (req.str "destPath") (req.flag "overwrite")
    pollStatus getInternalErrorString true os (os.patience + 1) (-20) .object t w

/-- `remove` and `rename` check the drive, then the path. -/
def checked (req : RequestData) (s : NetworkProvider) (w : World) (go : World → World) : World :=
  if !s.validateSambaOperation (req.str "driveId") req.sessionId then w.reply invalidDriveId
  else if !validateSambaPath w.fs w.mSambaDrivePathMap (req.str "path") (req.str "driveId") then w.reply invalidPath
  else go w

def remove (os : Os) (req : RequestData) (s : NetworkProvider) (w : World) : World :=
  s.checked req w fun w =>
    let (w, status) := SAFUtilityOperation.remove os w (req.str "path")
    w.reply (statusReply getInternalErrorString status)

def rename (os : Os) (req : RequestData) (s : NetworkProvider) (w : World) : World :=
  s.checked req w fun w =>
    let (w, status) := SAFUtilityOperation.rename os w (req.str "path") (req.str "newName")
    w.reply (statusReply getInternalErrorString status)

/-! ## Listing and ejecting drives -/

def driveEntry (driveName : Str) (paths : Table Str) (driveId : Str) : JValue :=
  ((JValue.object.put "driveName" (.str driveName)).put "driveId" (.str driveId)).put "path" (.str (paths.getD driveId []))

/-- The drive ids of a session, in key order. -/
def ownedBy (sessions : Table Str) (sessionId : Str) : List Str :=
  (sessions.toList.filter (·.2 = sessionId)).map (·.1)

/-- The paths of the listed drives are looked up with `operator[]`. -/
def listStoragesMethod (req : RequestData) (s : NetworkProvider) (w : World) : NetworkProvider × World :=
  let shares := ownedBy s.mSambaSessionData req.sessionId
  let servers := ownedBy s.mUpnpSessionData req.sessionId
  let s := servers.foldl lookUpnpPath (shares.foldl lookSambaPath s)
  let networkResArr := shares.map (driveEntry sambaName s.mSambaPathMap) ++ servers.map (driveEntry upnpName s.mUpnpPathMap)
  (s, w.reply (req.params.put "response" (JValue.object.put "network" (.arr networkResArr))))

/-- The first entry for the drive leaves `mSambaDriveMap` before the share is unmounted. -/
def eraseShareKey (s : NetworkProvider) (driveId : Str) : NetworkProvider :=
  match s.mSambaDriveMap.toList.find? (·.2 = driveId) with
  | some entry => { s with mSambaDriveMap := s.mSambaDriveMap.erase entry.1 }
  | none => s

def eject (os : Os) (net : Net) (req : RequestData) (s : NetworkProvider) (w : World) : NetworkProvider × World :=
  let driveId := req.str "driveId"
  let answer (w : World) (respObj : JValue) := w.reply (req.params.put "response" respObj)
  if !s.validateSambaOperation driveId req.sessionId then (s, answer w invalidDriveId)
  else
    let s := s.eraseShareKey driveId
    match s.mSambaPathMap[driveId]? with
    | none => (s, answer w (mountError "error" ("Not Mounted : ".toList ++ driveId)))
    | some path =>
      match net.umount with
      | none => (s, answer (w.log (.umount path false)) (mountError "error" ("Unable to eject : ".toList ++ driveId)))
      | some tree =>
        -- what became of the removal is not looked at
        let (w, _) := SAFUtilityOperation.remove os { w.log (.umount path true) with fs := tree } path
        let s := { s with
          mntpathmap := s.mntpathmap.erase path
          mSambaSessionData := s.mSambaSessionData.erase driveId
          mSambaPathMap := s.mSambaPathMap.erase driveId }
        (s, answer (setDriveDetails w s.mSambaPathMap)
          ((JValue.object.put "returnValue" (.bool true)).put "unmountPath: " (.str driveId)))

def handleRequests (os : Os) (net : Net) (req : RequestData) (s : NetworkProvider) (w : World) : NetworkProvider × World :=
  match req.methodType with
  | .extraMethod => extraMethod net req s w
  | .listMethod => list os net req s w
  | .getPropMethod => getProperties os net req s w
  | .removeMethod => (s, remove os req s w)
  | .moveMethod => (s, move os req s w)
  | .copyMethod => (s, copy os req s w)
  | .renameMethod => (s, rename os req s w)
  | .listStoragesMethod => listStoragesMethod req s w
  | .ejectMethod => eject os net req s w

end NetworkProvider

end StorageAccess
