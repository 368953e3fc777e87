import StorageAccess.Model.Utility
/-!
# The cloud storage provider

Each client that logs in gets a drive, which belongs to its session. A drive's
user data are its authentication parameters, its credential and an index from
paths to file ids that is rebuilt from the drive after each change.
-/

open Posix Json

namespace StorageAccess

/-! ## The library and the service behind it -/

/-- A call that changes a drive: it succeeds, returns an error response or throws. -/
inductive Call
  | done
  | error
  | threw
  deriving DecidableEq, Repr

/-- A file resource as `Get` returns it; after an error response its fields are empty. -/
structure GFile where
  id : Str
  title : Str
  mimeType : Str
  fileSize : Int
  downloadUrl : Str
  exportPdf : Str

structure GAbout where
  quotaBytesTotal : Int
  quotaBytesUsed : Int

structure HttpResponse where
  status : Nat
  content : List UInt8

/-- What a credential holds. -/
structure Credential where
  fields : Table Str

/-- What the library and the drive do during one request. `listing` gives ids and
titles of a folder's children; `get` and `about` give nothing when the call throws. -/
structure Drive where
  listing : Str → List (Str × Str)
  depth : Nat
  get : Str → Option GFile
  about : Option GAbout
  authorizeUrl : Str
  buildCredential : Str → Credential → Table Str → Bool × Credential × Table Str
  request : Str → HttpResponse
  copy : Call
  insert : Call
  patch : Call
  delete : Call
  newId : Table CloudFile → Str
  fresh : ∀ t, newId t ∉ t

/-! ## The file index -/

/-- The paths of a drive's files, each absolute, with the file ids. -/
structure FileIndex where
  mFileIds : Table Str
  absolute : ∀ path ∈ mFileIds, path.head? = some '/'

namespace FileIndex

def empty : FileIndex := ⟨∅, by simp⟩

/-- `mFileIds[path] = id`. -/
def set (ix : FileIndex) (path id : Str) (h : path.head? = some '/') : FileIndex where
  mFileIds := ix.mFileIds.insert path id
  absolute := by
    intro p hp
    rcases Std.ExtTreeMap.mem_insert.1 hp with e | hp
    · rwa [← Std.LawfulEqCmp.eq_of_compare e]
    · exact ix.absolute p hp

/-- `getChildren`, to the depth the drive's folders are nested. -/
def getChildren (listing : Str → List (Str × Str)) : Nat → Str → (parentPath : Str) → parentPath.head? = some '/' →
    FileIndex → FileIndex
  | 0, _, _, _, ix => ix
  | depth + 1, fileId, parentPath, h, ix =>
    (listing fileId).foldl
      (fun ix file => getChildren listing depth file.1 (parentPath ++ file.2 ++ ['/'])
        (by cases parentPath <;> simp_all) (ix.set (parentPath ++ file.2) file.1 (by cases parentPath <;> simp_all))) ix

def loadFileIds (drive : Drive) : FileIndex :=
  getChildren drive.listing drive.depth "root".toList ['/'] rfl (empty.set ['/'] "root".toList rfl)

def getFileId (ix : FileIndex) (path : Str) : Str := ix.mFileIds.getD path []

/-- Whether `getFileMap` counts an entry as directly below `path`. -/
def directlyBelow (path key : Str) : Bool :=
  key ≠ path && match find path key with
    | some pos => '/' ∉ key.drop (pos + path.length + 1)
    | none => false

def getFileMap (ix : FileIndex) (path : Str) : List (Str × Str) :=
  if path = [] then ix.mFileIds.toList else ix.mFileIds.toList.filter (directlyBelow path ·.1)

end FileIndex

/-! ## The provider -/

structure GDriveUserData where
  index : FileIndex
  mAuthParam : Table Str
  mCred : Option Credential

structure GDriveProvider where
  mClientIdDriveId : Table Str
  mDriveIdSessionMap : Table Str
  mDriveIdUserDataMap : Table GDriveUserData
  ids : Nat

namespace GDriveProvider

open SAFUtilityOperation

def init : GDriveProvider := ⟨∅, ∅, ∅, 0⟩

def gdriveName : Str := "GDRIVE".toList

def cloudName : Str := "cloud".toList

def driveIdOf (n : Nat) : Str := gdriveName ++ '_' :: Nat.toDigits 10 n

def cloudFailure (errorCode : Int) : JValue := failReply errorCode (getCloudErrorString errorCode)

def invalidDriveId : JValue := errorReply SAFErrors.invalidParam.code "Invalid DriveID"

def payload (req : RequestData) : JValue := (req.params.get "operation").get "payload"

def operationType (req : RequestData) : Str := ((req.params.get "operation").get "type").asString

def param (req : RequestData) (key : String) : Str := ((payload req).get key).asString

def validateExtraCommand (extraParams : List String) (req : RequestData) : Bool :=
  extraParams.all fun paramName => (payload req).hasKey paramName && ((payload req).get paramName).asString ≠ []

/-- The parameter names of the authentication map. -/
def clientIdKey : Str := "client_id".toList
def clientSecretKey : Str := "client_secret".toList
def refreshTokenKey : Str := "refresh_token".toList
def accessTokenKey : Str := "access_token".toList

def setUser (s : GDriveProvider) (driveId : Str) (user : GDriveUserData) : GDriveProvider :=
  { s with mDriveIdUserDataMap := s.mDriveIdUserDataMap.insert driveId user }

/-- Rebuild a drive's index from the drive. -/
def reload (drive : Drive) (s : GDriveProvider) (driveId : Str) (user : GDriveUserData) : GDriveProvider :=
  s.setUser driveId { user with index := FileIndex.loadFileIds drive }

/-- The reply of an extra command that returns a text. -/
def extraReply (req : RequestData) (response : Str) : JValue :=
  let payloadObj := JValue.object.put "response" (.str response)
  let responsePayObj := (JValue.object.put "type" (.str (operationType req))).put "payload" payloadObj
  (JValue.object.put "returnValue" (.bool true)).put "responsePayload" (.arr [responsePayObj])

/-! ## Logging in -/

def newUser (clientId clientSecret : Str) : GDriveUserData where
  index := FileIndex.empty
  mAuthParam := ((∅ : Table Str).insert clientIdKey clientId).insert clientSecretKey clientSecret
  mCred := none

def attachCloud (drive : Drive) (req : RequestData) (s : GDriveProvider) (w : World) : GDriveProvider × World :=
  let clientId := param req "clientId"
  if s.mClientIdDriveId.contains clientId then (s, w.reply (cloudFailure CloudErrors.alreadyAuthenticated.code))
  else
    let driveId := driveIdOf (s.ids + 1)
    let s := { s with
      mClientIdDriveId := s.mClientIdDriveId.insert clientId driveId
      mDriveIdSessionMap := s.mDriveIdSessionMap.insert driveId req.sessionId
      mDriveIdUserDataMap := s.mDriveIdUserDataMap.insert driveId (newUser clientId (param req "clientSecret"))
      ids := s.ids + 1 }
    -- without a URL the login fails, but the drive stays
    if drive.authorizeUrl = [] then (s, w.reply (cloudFailure CloudErrors.invalidUrl.code))
    else (s, w.reply (extraReply req drive.authorizeUrl))

/-- The session is not looked at. The token and the new credential are stored
before the credential is built. -/
def authenticateCloud (drive : Drive) (req : RequestData) (s : GDriveProvider) (w : World) : GDriveProvider × World :=
  let driveId := req.str "driveId"
  match s.mDriveIdUserDataMap[driveId]? with
  | none => (s, w.reply invalidDriveId)
  | some user =>
    let code := param req "secretToken"
    let auth := touch (touch (user.mAuthParam.insert accessTokenKey code) clientIdKey []) clientSecretKey []
    let cred : Credential := ⟨auth⟩
    if code = [] then
      (s.setUser driveId { user with mAuthParam := auth, mCred := some cred },
        w.reply (cloudFailure CloudErrors.invalidUrl.code))
    else
      match drive.buildCredential code cred auth with
      | (true, cred, auth) =>
        let auth := touch auth refreshTokenKey []
        let user := { user with mAuthParam := auth, mCred := some cred }
        (s.reload drive driveId user, w.reply (extraReply req (auth.getD refreshTokenKey [])))
      | (false, cred, auth) =>
        (s.setUser driveId { user with mAuthParam := auth, mCred := some cred },
          w.reply (cloudFailure CloudErrors.invalidUrl.code))

/-- The `token` command, which checks the session of the client's drive. -/
def setToken (drive : Drive) (req : RequestData) (s : GDriveProvider) (w : World) : GDriveProvider × World :=
  match s.mClientIdDriveId[param req "clientId"]? with
  | none => (s, w.reply (cloudFailure SAFErrors.invalidParam.code))
  | some driveId =>
    let s := { s with mDriveIdSessionMap := touch s.mDriveIdSessionMap driveId [] }
    if s.mDriveIdSessionMap.getD driveId [] ≠ req.sessionId then
      (s, w.reply (cloudFailure SAFErrors.storageTypeNotSupported.code))
    else
      let user := s.mDriveIdUserDataMap.getD driveId ⟨FileIndex.empty, ∅, none⟩
      let auth := ((user.mAuthParam.insert clientIdKey (param req "clientId")).insert clientSecretKey
        (param req "clientSecret")).insert refreshTokenKey (param req "refreshToken")
      (s.reload drive driveId { user with mAuthParam := auth, mCred := some ⟨auth⟩ },
        w.reply (JValue.object.put "returnValue" (.bool true)))

def extraMethod (drive : Drive) (req : RequestData) (s : GDriveProvider) (w : World) : GDriveProvider × World :=
  if operationType req = "login".toList ∧ validateExtraCommand ["clientId", "clientSecret"] req then
    attachCloud drive req s w
  else if operationType req = "authenticate".toList ∧ validateExtraCommand ["secretToken"] req then
    authenticateCloud drive req s w
  else if operationType req = "token".toList ∧
      validateExtraCommand ["clientId", "clientSecret", "refreshToken"] req then
    setToken drive req s w
  else (s, w.reply (cloudFailure SAFErrors.invalidParam.code))

/-! ## Using a drive -/

/-- The checks all other methods make: the drive is known, belongs to the session
and is authenticated. -/
def guarded (driveId : Str) (req : RequestData) (s : GDriveProvider) (w : World)
    (go : GDriveProvider → GDriveUserData → World → GDriveProvider × World) : GDriveProvider × World :=
  match s.mDriveIdUserDataMap[driveId]? with
  | none => (s, w.reply invalidDriveId)
  | some user =>
    let s := { s with mDriveIdSessionMap := touch s.mDriveIdSessionMap driveId [] }
    if s.mDriveIdSessionMap.getD driveId [] ≠ req.sessionId then
      (s, w.reply (cloudFailure SAFErrors.storageTypeNotSupported.code))
    else
      let user := { user with mAuthParam := touch user.mAuthParam refreshTokenKey [] }
      let s := s.setUser driveId user
      if user.mAuthParam.getD refreshTokenKey [] = [] then
        (s, w.reply (cloudFailure CloudErrors.authenticationNotDone.code))
      else go s user w

def getFileType (mimeType : Str) : String :=
  if "folder".toList <:+: mimeType then "directory" else if mimeType ≠ [] then "regular" else "unknown"

def fileObject (path : Str) (file : GFile) (about : GAbout) : JValue :=
  let size := if file.fileSize = -1 then 0 else FolderContents.wrap32 (about.quotaBytesTotal - file.fileSize)
  ((((JValue.object.put "path" (.str path)).put "name" (.str file.title)).put "mimeType" (.str file.mimeType)).put
    "type" (.text (getFileType file.mimeType))).put "size" (.num size)

/-- The entries of a page; nothing when a call throws. -/
def listPage (drive : Drive) : List (Str × Str) → Option (List JValue)
  | [] => some []
  | (path, id) :: rest =>
    match drive.get id, drive.about, listPage drive rest with
    | some file, some about, some files => some (fileObject path file about :: files)
    | _, _, _ => none

def list (drive : Drive) (req : RequestData) (s : GDriveProvider) (w : World) : GDriveProvider × World :=
  let driveId := req.str "driveId"
  let path := req.str "path"
  guarded driveId req s w fun s user w =>
    let s := s.reload drive driveId user
    let index := FileIndex.loadFileIds drive
    if index.getFileId path = [] then (s, w.reply (cloudFailure SAFErrors.invalidPath.code))
    else
      let files := index.getFileMap path
      let start := FolderContents.start files.length (req.int "offset")
      let stop := FolderContents.stop files.length (req.int "offset") (req.int "limit")
      let page := (files.drop start.toNat).take (stop - start.toNat).toNat
      match listPage drive page with
      | some contents =>
        (s, w.reply ((((JValue.object.put "returnValue" (.bool true)).put "files" (.arr contents)).put "fullPath"
          (.str path)).put "totalCount" (.num contents.length)))
      -- the exception ends the task, and nothing is replied
      | none => (s, w)

def getProperties (drive : Drive) (req : RequestData) (s : GDriveProvider) (w : World) : GDriveProvider × World :=
  guarded (req.str "driveId") req s w fun s user w =>
    let root := "root".toList
    -- `path` is a file id from here on
    let path := if req.params.hasKey "path" then user.index.getFileId (req.str "path") else root
    match drive.get path, drive.about with
    | some _, some about =>
      let respObj := (((JValue.object.put "returnValue" (.bool true)).put "storageType" (.text "cloud")).put "writable"
        (.bool true)).put "deletable" (.bool true)
      let respObj := if path = root then
          (respObj.put "totalSpace" (.num (FolderContents.wrap32 (about.quotaBytesTotal.tdiv 1000000)))).put "freeSpace"
            (.num (FolderContents.wrap32 (about.quotaBytesUsed.tdiv 1000000)))
        else respObj
      (s, w.reply (respObj.put "attributes" .array))
    | _, _ => (s, w)

def done (status : String) : JValue := (JValue.object.put "returnValue" (.bool true)).put "status" (.text status)

/-- `Delete(...).execute()`: the world after it, unless it throws. -/
def deleteFile (drive : Drive) (fileId : Str) (w : World) : World × Bool :=
  let w := w.log (.cloudDelete fileId)
  match drive.delete with
  -- only an exception is noticed, an error response is not
  | .done => ({ w with cloud := w.cloud.erase fileId }, true)
  | .error => (w, true)
  | .threw => (w, false)

def remove (drive : Drive) (req : RequestData) (s : GDriveProvider) (w : World) : GDriveProvider × World :=
  let driveId := req.str "driveId"
  guarded driveId req s w fun s user w =>
    let fileId := user.index.getFileId (req.str "path")
    if fileId = [] then (s, w.reply (cloudFailure SAFErrors.invalidPath.code))
    else
      match deleteFile drive fileId w with
      | (w, true) => (s.reload drive driveId user, w.reply (done "File Deleted"))
      | (w, false) => (s, w)

/-- `Patch(...).execute()` with a new title. -/
def patchFile (drive : Drive) (fileId title : Str) (w : World) : World × Bool :=
  let w := w.log (.cloudPatch fileId)
  match drive.patch, w.cloud[fileId]? with
  | .done, some file => ({ w with cloud := w.cloud.insert fileId { file with title := title } }, true)
  | .threw, _ => (w, false)
  | _, _ => (w, true)

def rename (drive : Drive) (req : RequestData) (s : GDriveProvider) (w : World) : GDriveProvider × World :=
  let driveId := req.str "driveId"
  guarded driveId req s w fun s user w =>
    let fileId := user.index.getFileId (req.str "path")
    if fileId = [] then (s, w.reply (cloudFailure SAFErrors.invalidPath.code))
    else
      match patchFile drive fileId (req.str "newName") w with
      | (w, true) => (s.reload drive driveId user, w.reply (done "File Renamed"))
      | (w, false) => (s, w)

/-! ## Copying and moving -/

def mimetypesMap : List (String × String) :=
  [("xls", "application/vnd.ms-excel"), ("xlsx", "application/vnd.openxmlformats-officedocument.spreadsheetml.sheet"),
   ("xml", "text/xml"), ("ods", "application/vnd.oasis.opendocument.spreadsheet"), ("csv", "text/plain"),
   ("tmpl", "text/plain"), ("pdf", "application/pdf"), ("php", "application/x-httpd-php"), ("jpg", "image/jpeg"),
   ("png", "image/png"), ("gif", "image/gif"), ("bmp", "image/bmp"), ("txt", "text/plain"),
   ("doc", "application/msword"), ("js", "text/js"), ("swf", "application/x-shockwave-flash"), ("mp3", "audio/mpeg"),
   ("zip", "application/zip"), ("rar", "application/rar"), ("tar", "application/tar"), ("arj", "application/arj"),
   ("cab", "application/cab"), ("html", "text/html"), ("htm", "text/html"), ("default", "application/octet-stream"),
   ("folder", "application/vnd.google-apps.folder")]

/-- The mime type of a file name extension, empty when it is not known. -/
def getMimeType (fileType : Str) : Str :=
  match mimetypesMap.find? (·.1.toList = fileType.map Char.toLower) with
  | some entry => entry.2.toList
  | none => []

/-- What follows the last dot of a path, or all of it. -/
def extension (path : Str) : Str := path.rtakeWhile (· ≠ '.')

/-- The folder a copy goes to: a destination that is not in the index is the root. -/
def destFolder (user : GDriveUserData) (destPath : Str) : Str :=
  if user.index.getFileId destPath = [] then "root".toList else user.index.getFileId destPath

/-- `Copy(...).execute()`: a file with the same content in another folder. -/
def copyFile (drive : Drive) (fileId parent : Str) (w : World) : World × Bool :=
  let w := w.log (.cloudCopy fileId)
  match drive.copy, w.cloud[fileId]? with
  | .done, some file => ({ w with cloud := w.cloud.insert (drive.newId w.cloud) { file with parent := parent } }, true)
  | .threw, _ => (w, false)
  | _, _ => (w, true)

/-- `Insert(...).execute()`: a new file with the content of a local one. -/
def insertFile (drive : Drive) (parent title : Str) (content : List UInt8) (w : World) : World × Bool :=
  let w := w.log (.cloudInsert title)
  match drive.insert with
  | .done => ({ w with cloud := w.cloud.insert (drive.newId w.cloud) ⟨parent, title, content⟩ }, true)
  | .error => (w, true)
  | .threw => (w, false)

def progressReply : JValue := (JValue.object.put "returnValue" (.bool true)).put "progress" (.num 100)

/-- Upload a local file: `false` after an error reply or a throw. -/
def upload (drive : Drive) (user : GDriveUserData) (req : RequestData) (w : World) : World × Bool :=
  let srcPath := req.str "srcPath"
  if getMimeType (extension srcPath) = [] then (w.reply (cloudFailure CloudErrors.invalidFile.code), false)
  else if !w.fs.exists? (components srcPath) then (w.reply (cloudFailure SAFErrors.unknownError.code), false)
  else
    -- a directory opens like a file and reads as nothing
    let content := (w.fs.readFile (components srcPath)).getD []
    insertFile drive (destFolder user (req.str "destPath")) (baseName srcPath) content (w.log (.readFile srcPath))

/-- Download a file to a local folder. The status of the HTTP response is not
looked at, nor is the outcome of the write. -/
def download (os : Os) (drive : Drive) (user : GDriveUserData) (req : RequestData) (w : World) : World × Bool :=
  let srcPath := req.str "srcPath"
  let srcFileID := user.index.getFileId srcPath
  if srcFileID = [] then (w.reply (cloudFailure SAFErrors.invalidSourcePath.code), false)
  else if !StorageAccess.validateInternalPath w.fs (req.str "destPath") then
    (w.reply (cloudFailure SAFErrors.invalidDestPath.code), false)
  else
    let destPath := req.str "destPath" ++ '/' :: baseName srcPath
    let w := w.log (.cloudGet srcFileID)
    match drive.get srcFileID with
    | none => (w, false)
    | some file =>
      let url := if file.downloadUrl = [] then file.exportPdf else file.downloadUrl
      match w.fs.writeFile os.writeCut (components destPath) (drive.request url).content with
      | none => (w.reply (cloudFailure SAFErrors.unknownError.code), false)
      | some fs => ({ w.log (.writeFile destPath) with fs := fs }, true)

/-- The drive a copy or move request works on. -/
def transferDrive (req : RequestData) : Str :=
  if req.str "srcStorageType" = cloudName then req.str "srcDriveId" else req.str "destDriveId"

/-- The checks of a copy or move request: both endpoints' paths, one drive only, and the drive itself. -/
def transfer (req : RequestData) (s : GDriveProvider) (w : World)
    (go : GDriveProvider → GDriveUserData → World → GDriveProvider × World) : GDriveProvider × World :=
  match validateInterProviderOperation w req with
  | (w, false) => (s, w)
  | (w, true) =>
    if req.str "srcStorageType" = cloudName ∧ req.str "destStorageType" = cloudName ∧
        req.str "srcDriveId" ≠ req.str "destDriveId" then
      (s, w.reply (errorReply SAFErrors.safErrorNotSupported.code "Not supported yet"))
    else guarded (transferDrive req) req s w go

/-- The reply after a transfer that went through. -/
def finish (drive : Drive) (req : RequestData) (s : GDriveProvider) (user : GDriveUserData) (result : World × Bool) :
    GDriveProvider × World :=
  if result.2 then (s.reload drive (transferDrive req) user, result.1.reply progressReply) else (s, result.1)

def copy (os : Os) (drive : Drive) (req : RequestData) (s : GDriveProvider) (w : World) : GDriveProvider × World :=
  s.transfer req w fun s user w =>
    let srcFileID := user.index.getFileId (req.str "srcPath")
    if req.str "destStorageType" = cloudName then
      if req.str "srcStorageType" = cloudName then
        if srcFileID = [] then (s, w.reply (cloudFailure SAFErrors.invalidSourcePath.code))
        else finish drive req s user (copyFile drive srcFileID (destFolder user (req.str "destPath")) w)
      else finish drive req s user (upload drive user req w)
    else finish drive req s user (download os drive user req w)

/-- Go on after a step that did not throw. -/
def andThen (result : World × Bool) (next : World → World × Bool) : World × Bool :=
  if result.2 then next result.1 else result

/-- Remove the local file that was uploaded. What became of it is not looked at. -/
def removeLocal (os : Os) (srcPath : Str) (w : World) : World × Bool := ((SAFUtilityOperation.remove os w srcPath).1, true)

/-- The source is deleted after the transfer, whatever the calls returned. -/
def move (os : Os) (drive : Drive) (req : RequestData) (s : GDriveProvider) (w : World) : GDriveProvider × World :=
  s.transfer req w fun s user w =>
    let srcFileID := user.index.getFileId (req.str "srcPath")
    if req.str "destStorageType" = cloudName then
      if req.str "srcStorageType" = cloudName then
        if srcFileID = [] then (s, w.reply (cloudFailure SAFErrors.invalidSourcePath.code))
        else
          let copied := copyFile drive srcFileID (destFolder user (req.str "destPath")) w
          finish drive req s user (andThen copied (deleteFile drive srcFileID))
      else finish drive req s user (andThen (upload drive user req w) (removeLocal os (req.str "srcPath")))
    else finish drive req s user (andThen (download os drive user req w) (deleteFile drive srcFileID))

/-! ## Listing the drives -/

/-- Every drive is listed, whoever asks. -/
def listStoragesMethod (req : RequestData) (s : GDriveProvider) (w : World) : World :=
  let gdriveResArr := s.mDriveIdSessionMap.keys.map fun driveId =>
    ((JValue.object.put "driveName" (.str gdriveName)).put "driveId" (.str driveId)).put "path" (.text "/")
  w.reply (req.params.put "response" (JValue.object.put "cloud" (.arr gdriveResArr)))

def eject (req : RequestData) (w : World) : World :=
  w.reply (req.params.put "response" (failReply SAFErrors.unknownError.code "Not supported yet"))

def handleRequests (os : Os) (drive : Drive) (req : RequestData) (s : GDriveProvider) (w : World) :
    GDriveProvider × World :=
  match req.methodType with
  | .extraMethod => extraMethod drive req s w
  | .listMethod => list drive req s w
  | .getPropMethod => getProperties drive req s w
  | .removeMethod => remove drive req s w
  | .moveMethod => move os drive req s w
  | .copyMethod => copy os drive req s w
  | .renameMethod => rename drive req s w
  | .listStoragesMethod => (s, listStoragesMethod req s w)
  | .ejectMethod => (s, eject req w)

end GDriveProvider

end StorageAccess
