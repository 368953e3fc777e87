import StorageAccess.Model.Common
/-!
# The utility operations

The path validators, the operation objects the providers build (`InternalCopy`,
`InternalMove` and so on: constructing one performs the operation), and the
polling loop that reports their progress.
-/

open Posix Json

namespace StorageAccess

/-- The free function `validateInternalPath`: absolute, no trailing `/`, exists. -/
def validateInternalPath (fs : FS) (path : Str) : Bool :=
  path ≠ [] && path.head? = some '/' && path.getLast? ≠ some '/' && fs.exists? (components path)

/-! ## Status values -/

inductive InternalOperErrors
  | noError
  | unknown
  | invalidPath
  | invalidSourcePath
  | invalidDestPath
  | fileAlreadyExists
  | permissionDenied
  | success
  deriving DecidableEq, Repr

def InternalOperErrors.code : InternalOperErrors → Int
  | .noError => 0
  | .unknown => -1
  | .invalidPath => -2
  | .invalidSourcePath => -3
  | .invalidDestPath => -4
  | .fileAlreadyExists => -5
  | .permissionDenied => -6
  | .success => 100

def getInternalErrorCode (errorCode : Int) : Int :=
  let convMap : List (Int × SAFErrors) :=
    [(0, .noError), (-1, .unknownError), (-2, .invalidPath), (-3, .invalidSourcePath), (-4, .invalidDestPath),
     (-5, .fileAlreadyExists), (-6, .permissionDenied), (100, .noError)]
  ((convMap.lookup errorCode).getD .unknownError).code

/-! ## Listing a folder -/

inductive FileType
  | unknown
  | regular
  | linkfile
  | directory
  deriving DecidableEq, Repr

def FileType.text : FileType → String
  | .unknown => "unknown"
  | .regular => "regular"
  | .linkfile => "linkfile"
  | .directory => "directory"

structure FolderContent where
  name : Str
  path : Str
  type : FileType
  size : Nat
  modTime : Str

namespace FolderContent

def getFileType (fs : FS) (filePath : Str) : FileType :=
  if !validateInternalPath fs filePath then .unknown
  else match fs.status (components filePath), fs.symlinkStatus (components filePath) with
    | .found _ (.file _), _ => .regular
    -- `is_regular_file` and `is_directory` follow links, so a link is one only where it leads to no file
    | _, .found _ (.link _) => .linkfile
    | .found _ .dir, _ => .directory
    | _, _ => .unknown

/-- `filePath` is hidden when it or a directory above it starts with a dot. -/
def hidden (filePath : Str) : Bool := ['/', '.'] <:+: filePath

/-- The size of a file, or of all visible files below a directory. Links to
directories are followed, down to the depth the system allows a path. -/
def getFileSize (fs : FS) : Nat → Str → Nat
  | depth, filePath =>
    if !validateInternalPath fs filePath then 0
    else match fs.status (components filePath) with
      | .found _ (.file content) => content.length
      | .found l .dir =>
        match depth with
        | 0 => 0
        | depth + 1 =>
          ((fs.children l).map (filePath ++ '/' :: ·)).foldl
            (fun size entryPath => if hidden entryPath then size else (size + getFileSize fs depth entryPath) % 2 ^ 64) 0
      | _ => 0

/-- The same recursion, with no result where it goes deeper than `depth`. -/
def getFileSize? (fs : FS) : Nat → Str → Option Nat
  | depth, filePath =>
    if !validateInternalPath fs filePath then some 0
    else match fs.status (components filePath) with
      | .found _ (.file content) => some content.length
      | .found l .dir =>
        match depth with
        | 0 => none
        | depth + 1 =>
          ((fs.children l).map (filePath ++ '/' :: ·)).foldlM
            (fun size entryPath =>
              if hidden entryPath then some size
              else (getFileSize? fs depth entryPath).map fun more => (size + more) % 2 ^ 64) 0
      | _ => some 0

def getModTime (os : Os) (fs : FS) (path : Str) : Str :=
  if validateInternalPath fs path then os.modTime path else []

def init (os : Os) (fs : FS) (path : Str) : FolderContent where
  name := baseName path
  path := path
  type := getFileType fs path
  size := getFileSize fs os.depth path
  modTime := getModTime os fs path

end FolderContent

structure FolderContents where
  fullPath : Str
  contents : List FolderContent
  status : Int

namespace FolderContents

def init (os : Os) (fs : FS) (fullPath : Str) : FolderContents :=
  if !validateInternalPath fs fullPath then ⟨fullPath, [], InternalOperErrors.invalidPath.code⟩
  else match fs.status (components fullPath) with
    | .found l .dir =>
      let entries := ((fs.children l).map (fullPath ++ '/' :: ·)).filter (!FolderContent.hidden ·)
      ⟨fullPath, entries.map (FolderContent.init os fs), InternalOperErrors.noError.code⟩
    | _ => ⟨fullPath, [], InternalOperErrors.invalidPath.code⟩

/-- The count is taken after the loop on every exit but that for an invalid path, and held in 32 bits. -/
def getTotalCount (c : FolderContents) : Nat := c.contents.length % 2 ^ 32

end FolderContents

/-- What becomes of reading a directory: all of it is read, none of it where
permission is denied, or an error ends it after some entries. -/
inductive Reading
  | whole
  | denied
  | stops (after : Nat)
  deriving DecidableEq, Repr

namespace Reading

/-- The entries that are read. -/
def entries {α : Type} : Reading → List α → List α
  | .whole, names => names
  | .denied, _ => []
  | .stops after, names => names.take after

/-- Denied permission is skipped without an error. -/
def throws : Reading → Bool
  | .stops _ => true
  | _ => false

end Reading

namespace FolderContents

/-- `init` of a directory that may not be readable. An error leaves the entries read before it. -/
def read (reading : Reading) (os : Os) (fs : FS) (fullPath : Str) : FolderContents :=
  if !validateInternalPath fs fullPath then ⟨fullPath, [], InternalOperErrors.invalidPath.code⟩
  else match fs.status (components fullPath) with
    | .found l .dir =>
      let entries := ((reading.entries (fs.children l)).map (fullPath ++ '/' :: ·)).filter (!FolderContent.hidden ·)
      ⟨fullPath, entries.map (FolderContent.init os fs),
        if reading.throws then InternalOperErrors.invalidPath.code else InternalOperErrors.noError.code⟩
    | _ => ⟨fullPath, [], InternalOperErrors.invalidPath.code⟩

/-- A 32-bit signed value, as arithmetic on `int` leaves it. -/
def wrap32 (n : Int) : Int := (n + 2 ^ 31) % 2 ^ 32 - 2 ^ 31

/-- The first index of a page. -/
def start (count : Nat) (offset : Int) : Int :=
  -- an offset past the end starts one past `size()`, so that the loop visits nothing
  let start := if offset > wrap32 count then wrap32 (count + 1) else wrap32 (offset - 1)
  if start < 0 then wrap32 (count + 1) else start

/-- The index after the last of a page. The sum is compared as an unsigned 64-bit value. -/
def stop (count : Nat) (offset limit : Int) : Int :=
  let last := wrap32 (limit + offset - 1)
  -- a negative sum compares as a huge one, and the page is the whole rest of the folder
  let stop := if last % 2 ^ 64 > count then wrap32 count else last
  if stop < 0 then wrap32 count else stop

/-- The entries of one page. -/
def page (c : FolderContents) (offset limit : Int) : List FolderContent :=
  let first := start c.contents.length offset
  let last := stop c.contents.length offset limit
  (c.contents.drop first.toNat).take (last - first).toNat

end FolderContents

/-- The reply to a list request, with the provider's error texts and its way to write a size. -/
def listReply (errorText : Int → String) (sizeValue : Nat → JValue) (c : FolderContents) (offset limit : Int) :
    JValue :=
  if c.status ≥ 0 then
    let files := (c.page offset limit).map fun e =>
      (((JValue.object.put "name" (.str e.name)).put "path" (.str e.path)).put "type" (.text e.type.text)).put "size"
        (sizeValue e.size)
    (((JValue.object.put "returnValue" (.bool true)).put "files" (.arr files)).put "totalCount"
      (.num c.contents.length)).put "fullPath" (.str c.fullPath)
  else
    failReply (getInternalErrorCode c.status) (errorText (getInternalErrorCode c.status))

/-- A size written as text. -/
def sizeText (size : Nat) : JValue := .str (Nat.toDigits 10 size)

/-! ## Space and properties -/

/-- The sizes are held in 32-bit fields. -/
structure InternalSpaceInfo where
  capacity : Nat
  free : Nat
  available : Nat
  writable : Bool
  deletable : Bool
  status : Int

namespace InternalSpaceInfo

def init (os : Os) (fs : FS) (path : Str) : InternalSpaceInfo :=
  let failed := ⟨0, 0, 0, false, false, InternalOperErrors.invalidPath.code⟩
  if !validateInternalPath fs path then failed
  else match os.space path with
    | some s => ⟨s.capacity % 2 ^ 32, s.free % 2 ^ 32, s.available % 2 ^ 32, s.ownerWrite, s.groupWrite,
        InternalOperErrors.success.code⟩
    | none => failed

def getCapacityMB (i : InternalSpaceInfo) : Nat := i.capacity / 1000000

def getFreeSpaceMB (i : InternalSpaceInfo) : Nat := i.free / 1000000

/-- The members of a properties reply, with the space figures if `whole`. -/
def describe (i : InternalSpaceInfo) (modTime : Str) (storageType : Option Str) (whole : Bool) (respObj : JValue) :
    JValue :=
  let respObj := match storageType with
    | some t => respObj.put "storageType" (.str t)
    | none => respObj
  let attrObj := JValue.object.put "LastModTimeStamp" (.str modTime)
  let respObj := ((respObj.put "writable" (.bool i.writable)).put "deletable" (.bool i.deletable)).put "attributes"
    (.arr [attrObj])
  if whole then
    (respObj.put "totalSpace" (.num i.getCapacityMB)).put "freeSpace" (.num i.getFreeSpaceMB)
  else respObj

end InternalSpaceInfo

/-! ## Copying and moving -/

/-- `InternalCopy` and `InternalMove` have the same fields; the sizes are 32-bit. -/
structure Transfer where
  srcPath : Str
  destPath : Str
  srcSize : Nat
  destSize : Nat
  status : Int

namespace Transfer

/-- The checks of `init` before the copy, and the path the copy goes to. -/
def prepare (os : Os) (fs : FS) (srcPath destPath : Str) (overwrite : Bool) :
    FS × Except InternalOperErrors Str :=
  if !validateInternalPath fs srcPath then (fs, .error .invalidSourcePath)
  else if !validateInternalPath fs destPath then (fs, .error .invalidDestPath)
  else
    -- a file is copied into `destPath`, a directory onto `desPath`
    let desPath := destPath ++ '/' :: baseName srcPath
    match fs.status (components desPath) with
    | .failed => (fs, .error .permissionDenied)
    | .found _ _ =>
      if !overwrite then (fs, .error .fileAlreadyExists)
      else (fs, .ok (if fs.isDir (components srcPath) then desPath else destPath))
    | .absent =>
      if fs.isDir (components srcPath) then
        match fs.createDirectories os.mkdirFault (components desPath) with
        | (fs', true) => (fs', .error .permissionDenied)
        | (fs', false) => (fs', .ok desPath)
      else (fs, .ok destPath)

/-- Whether `init` gets past its checks, so that it makes or copies entries. -/
def begins (fs : FS) (srcPath destPath : Str) (overwrite : Bool) : Bool :=
  validateInternalPath fs srcPath && validateInternalPath fs destPath &&
    match fs.status (components (destPath ++ '/' :: baseName srcPath)) with
    | .failed => false
    | .found _ _ => overwrite
    | .absent => true

/-- A transfer that ends before the copy. -/
def refused (srcPath destPath : Str) (e : InternalOperErrors) : Transfer := ⟨srcPath, destPath, 0, 0, e.code⟩

/-- The status a step leaves that may throw. -/
def outcome (threw : Bool) : InternalOperErrors := if threw then .permissionDenied else .success

def sized (os : Os) (fs : FS) (srcPath destPath : Str) (e : InternalOperErrors) : Transfer :=
  ⟨srcPath, destPath, FolderContent.getFileSize fs os.depth srcPath % 2 ^ 32,
    FolderContent.getFileSize fs os.depth destPath % 2 ^ 32, e.code⟩

end Transfer

/-- `InternalCopy::init`. -/
def InternalCopy.init (os : Os) (fs : FS) (srcPath destPath : Str) (overwrite : Bool) : FS × Transfer :=
  match Transfer.prepare os fs srcPath destPath overwrite with
  | (fs, .error e) => (fs, Transfer.refused srcPath destPath e)
  | (fs, .ok dest) =>
    let copied := fs.copy os.copyFault os.depth overwrite (components srcPath) (components dest)
    (copied.1, Transfer.sized os fs srcPath dest (Transfer.outcome copied.2))

/-- `InternalMove::init`. The source is removed whatever the copy came to. -/
def InternalMove.init (os : Os) (fs : FS) (srcPath destPath : Str) (overwrite : Bool) : FS × Transfer :=
  match Transfer.prepare os fs srcPath destPath overwrite with
  | (fs, .error e) => (fs, Transfer.refused srcPath destPath e)
  | (fs, .ok dest) =>
    let copied := fs.copy os.copyFault os.depth overwrite (components srcPath) (components dest)
    let removed := copied.1.removeAll os.stuck (components srcPath)
    (removed.1, Transfer.sized os fs srcPath dest (if removed.2 then .permissionDenied else Transfer.outcome copied.2))

/-- `getStatus` once the destination has the size `size`. The change it computes
in 32-bit arithmetic is the source size. -/
def Transfer.progress (t : Transfer) (size : Nat) : Transfer :=
  let size := size % 2 ^ 32
  let change := (t.srcSize + 2 ^ 32 - size + size) % 2 ^ 32
  { t with
    destSize := size
    status :=
      if t.status ≥ 0 then
        if change > 0 then FolderContents.wrap32 (change / t.srcSize * 100 % 2 ^ 32 : Nat) else InternalOperErrors.success.code
      else t.status }

/-- `InternalCopy::getStatus` and `InternalMove::getStatus`, which differ only in
what they read of the destination after a failure. -/
def Transfer.getStatus (os : Os) (fs : FS) (t : Transfer) : Transfer :=
  t.progress (FolderContent.getFileSize fs os.depth t.destPath)

/-- The loop that polls a transfer: it replies when the status changed and ends
at 100 or at an error. Where the rounds share one reply object, a round writes
over the object of the round before. -/
def pollStatus (errorText : Int → String) (shared : Bool) (os : Os) : Nat → Int → JValue → Transfer → World → World
  | 0, _, _, _, w => w
  | rounds + 1, prevStatus, respObj, t, w =>
    let t := t.getStatus os w.fs
    let retStatus := t.status
    let respObj := (if shared then respObj else JValue.object).put "returnValue" (.bool (0 ≤ retStatus))
    let respObj :=
      if 0 ≤ retStatus then respObj.put "progress" (.num retStatus)
      else
        -- the error branch asks for the status a second time
        let errorCode := getInternalErrorCode (t.getStatus os w.fs).status
        (respObj.put "errorCode" (.num errorCode)).put "errorText" (.text (errorText errorCode))
    let w := if retStatus ≠ prevStatus then w.reply respObj else w
    if retStatus ≥ 100 ∨ retStatus < 0 then w else pollStatus errorText shared os rounds retStatus respObj t w

/-- `getStatus`, where a division by zero ends the program. -/
def Transfer.progress? (t : Transfer) (size : Nat) : Option Transfer :=
  let change := (t.srcSize + 2 ^ 32 - size % 2 ^ 32 + size % 2 ^ 32) % 2 ^ 32
  if t.status ≥ 0 ∧ change > 0 ∧ t.srcSize = 0 then none else some (t.progress size)

/-- The same loop while the destination changes: each poll finds the next of the
sizes. There is no result when a poll divides by zero or the rounds run out. -/
def pollSizes (errorText : Int → String) (shared : Bool) :
    Nat → (Nat → Nat) → Int → JValue → Transfer → World → Option World
  | 0, _, _, _, _, _ => none
  | rounds + 1, sizes, prevStatus, respObj, t, w =>
    match t.progress? (sizes 0) with
    | none => none
    | some t =>
      let retStatus := t.status
      let respObj := (if shared then respObj else JValue.object).put "returnValue" (.bool (0 ≤ retStatus))
      if 0 ≤ retStatus then
        let respObj := respObj.put "progress" (.num retStatus)
        let w := if retStatus ≠ prevStatus then w.reply respObj else w
        if retStatus ≥ 100 then some w
        else pollSizes errorText shared rounds (fun poll => sizes (poll + 1)) retStatus respObj t w
      else
        match t.progress? (sizes 1) with
        | none => none
        | some t =>
          let errorCode := getInternalErrorCode t.status
          let respObj := (respObj.put "errorCode" (.num errorCode)).put "errorText" (.text (errorText errorCode))
          some (if retStatus ≠ prevStatus then w.reply respObj else w)

/-! ## Removing and renaming -/

/-- `InternalRemove::init`: the tree after it and the status. -/
def InternalRemove.init (os : Os) (fs : FS) (path : Str) : FS × Int :=
  if validateInternalPath fs path then
    let removed := fs.removeAll os.stuck (components path)
    (removed.1, (Transfer.outcome removed.2).code)
  else (fs, InternalOperErrors.invalidPath.code)

/-- `InternalRename::init`: the tree after it and the status. -/
def InternalRename.init (os : Os) (fs : FS) (oldAbsPath newName : Str) : FS × Int :=
  if !validateInternalPath fs oldAbsPath then (fs, InternalOperErrors.invalidSourcePath.code)
  else if newName = [] ∨ '/' ∈ newName then (fs, InternalOperErrors.invalidDestPath.code)
  else
    -- the new path is handed on as a C string
    let newAbsPath := dirPart oldAbsPath ++ untilNul newName
    let renamed := fs.rename os.renameRefused (components oldAbsPath) (components newAbsPath)
    (renamed.1, (Transfer.outcome renamed.2).code)

/-- Whether `init` gets past its checks to the renaming. -/
def InternalRename.begins (fs : FS) (oldAbsPath newName : Str) : Bool :=
  validateInternalPath fs oldAbsPath && newName ≠ [] && '/' ∉ newName

/-- The reply to a remove or rename request. -/
def statusReply (errorText : Int → String) (status : Int) : JValue :=
  if status < 0 then failReply (getInternalErrorCode status) (errorText (getInternalErrorCode status))
  else JValue.object.put "returnValue" (.bool true)

/-! ## The singleton's validators -/

namespace SAFUtilityOperation

def homePrefix (sessionId : Str) : Str := "/home/".toList ++ sessionId

def validateInternalPath (fs : FS) (path sessionId : Str) : Bool :=
  ("/media".toList.isPrefixOf path || "/tmp".toList.isPrefixOf path || (homePrefix sessionId).isPrefixOf path) &&
    fs.exists? (components path)

def validateSambaPath (fs : FS) (mSambaDrivePathMap : Table Str) (path driveId : Str) : Bool :=
  match mSambaDrivePathMap[driveId]? with
  | some mountPath => mountPath.isPrefixOf path && fs.exists? (components path)
  | none => false

/-- `setDriveDetails` for SAMBA. -/
def setDriveDetails (w : World) (inputMap : Table Str) : World := { w with mSambaDrivePathMap := inputMap }

def isUpnpDestination (req : RequestData) : Bool :=
  req.str "destStorageType" = "network".toList && "UPNP".toList <:+: req.str "destDriveId"

/-- Which endpoint of a copy or move request the path checks refuse, if any. -/
inductive Endpoint
  | destination
  | source
  deriving DecidableEq, Repr

/-- The chain of path checks, destination before source. -/
def faultyEndpoint (w : World) (req : RequestData) : Option Endpoint :=
  let srcPath := req.str "srcPath"
  let destPath := req.str "destPath"
  if req.str "destStorageType" = "network".toList ∧
      !validateSambaPath w.fs w.mSambaDrivePathMap destPath (req.str "destDriveId") then some .destination
  else if req.str "destStorageType" = "internal".toList ∧ !validateInternalPath w.fs destPath req.sessionId then
    some .destination
  else if req.str "srcStorageType" = "network".toList ∧
      !validateSambaPath w.fs w.mSambaDrivePathMap srcPath (req.str "srcDriveId") then some .source
  else if req.str "srcStorageType" = "internal".toList ∧ !validateInternalPath w.fs srcPath req.sessionId then
    some .source
  else none

def Endpoint.reply : Endpoint → JValue
  | .destination => failReply SAFErrors.permissionDenied.code "No such file or directory at destination"
  | .source => failReply SAFErrors.invalidSourcePath.code "No such file or directory at source"

/-- Both checks may refuse, and each one replies. -/
def validateInterProviderOperation (w : World) (req : RequestData) : World × Bool :=
  let w' := if isUpnpDestination req then
      w.reply (failReply SAFErrors.storageTypeNotSupported.code "Operation not Permitted")
    else w
  match faultyEndpoint w req with
  | some e => (w'.reply e.reply, false)
  | none => (w', !isUpnpDestination req)

/-- The folder of a session. A session id that holds `root` has no `rootfs`. -/
def internalFolder (sessionId : Str) : Str :=
  if "root".toList <:+: sessionId then homePrefix sessionId ++ "/safInternal".toList
  else homePrefix sessionId ++ "/rootfs/safInternal".toList

/-- Give a path to a session. Owners and modes are not part of the tree, so the commands leave it as it is. -/
def chownChmod (w : World) (path sessionId : Str) : World :=
  (w.log (.shell ("chown ".toList ++ sessionId ++ ": ".toList ++ path))).log (.shell ("chmod 700 ".toList ++ path))

def setPathPerm (w : World) (path sessionId : Str) : World :=
  if w.fs.exists? (components path) then chownChmod w path sessionId else w

/-- `getInternalPath` makes the folder where it is missing; where that fails the path is empty. -/
def getInternalPath (os : Os) (w : World) (sessionId : Str) : World × Str :=
  let path := internalFolder sessionId
  if w.fs.exists? (components path) then (w, path)
  else
    let w := w.log (.makeDirs path)
    match w.fs.createDirectories os.mkdirFault (components path) with
    | (fs', false) => (chownChmod { w with fs := fs' } path sessionId, path)
    | (fs', true) => ({ w with fs := fs' }, [])

/-! The operations as the providers start them. What the checks of an operation object refuse is not done. -/

def getListFolderContents (os : Os) (w : World) (path : Str) : World × FolderContents :=
  (w.logIf (StorageAccess.validateInternalPath w.fs path) (.list path), FolderContents.init os w.fs path)

def getProperties (os : Os) (w : World) (path : Str) : World × InternalSpaceInfo :=
  let path := if path = [] then "/tmp".toList else path
  (w.logIf (StorageAccess.validateInternalPath w.fs path) (.space path), InternalSpaceInfo.init os w.fs path)

def copy (os : Os) (w : World) (srcPath destPath : Str) (overwrite : Bool) : World × Transfer :=
  let done := InternalCopy.init os w.fs srcPath destPath overwrite
  ({ w.logIf (Transfer.begins w.fs srcPath destPath overwrite) (.copy srcPath destPath) with fs := done.1 }, done.2)

def move (os : Os) (w : World) (srcPath destPath : Str) (overwrite : Bool) : World × Transfer :=
  let done := InternalMove.init os w.fs srcPath destPath overwrite
  ({ w.logIf (Transfer.begins w.fs srcPath destPath overwrite) (.move srcPath destPath) with fs := done.1 }, done.2)

def remove (os : Os) (w : World) (path : Str) : World × Int :=
  let done := InternalRemove.init os w.fs path
  ({ w.logIf (StorageAccess.validateInternalPath w.fs path) (.remove path) with fs := done.1 }, done.2)

def rename (os : Os) (w : World) (path newName : Str) : World × Int :=
  let done := InternalRename.init os w.fs path newName
  ({ w.logIf (InternalRename.begins w.fs path newName) (.rename path newName) with fs := done.1 }, done.2)

end SAFUtilityOperation

end StorageAccess
