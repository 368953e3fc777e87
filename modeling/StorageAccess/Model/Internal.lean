import StorageAccess.Model.Utility
/-!
# The internal storage provider
-/

open Posix Json

namespace StorageAccess.InternalStorageProvider

open SAFUtilityOperation

def defaultInternalDriveName : Str := "INTERNAL".toList

def defaultInternalStorageId : Str := "INTERNAL_STORAGE".toList

def permissionDenied : JValue := errorReply SAFErrors.permissionDenied.code "Permission Denied"

def invalidDriveId : JValue := errorReply SAFErrors.invalidParam.code "Invalid DriveID"

/-- `list`, `remove` and `rename` check the path, then the drive id, then go on. -/
def checked (req : RequestData) (w : World) (go : World → World) : World :=
  if !SAFUtilityOperation.validateInternalPath w.fs (req.str "path") req.sessionId then w.reply permissionDenied
  else if defaultInternalStorageId ≠ req.str "driveId" then w.reply invalidDriveId
  else go w

def listFolderContents (os : Os) (req : RequestData) (w : World) : World :=
  checked req w fun w =>
    let (w, contents) := getListFolderContents os w (req.str "path")
    w.reply (listReply getInternalErrorString sizeText contents (req.int "offset") (req.int "limit"))

def getProperties (os : Os) (req : RequestData) (w : World) : World :=
  if defaultInternalStorageId ≠ req.str "driveId" then w.reply invalidDriveId
  else
    let found := if req.str "path" = [] then getInternalPath os w req.sessionId else (w, req.str "path")
    if !SAFUtilityOperation.validateInternalPath found.1.fs found.2 req.sessionId then
      found.1.reply (errorReply SAFErrors.invalidPath.code (getInternalErrorString SAFErrors.invalidPath.code))
    else
      let props := SAFUtilityOperation.getProperties os found.1 found.2
      if props.2.status < 0 then
        let errorCode := getInternalErrorCode props.2.status
        props.1.reply (failReply errorCode (getInternalErrorString errorCode))
      else
        let storageType := if req.params.hasKey "storageType" then some (req.str "storageType") else none
        let modTime := FolderContent.getModTime os props.1.fs found.2
        let own := getInternalPath os props.1 req.sessionId
        own.1.reply (props.2.describe modTime storageType (found.2 = own.2) (JValue.object.put "returnValue" (.bool true)))

/-- The part `copy` and `move` share: the source drive id, then the checks of both endpoints. -/
def transfer (req : RequestData) (w : World) (go : World → World) : World :=
  if defaultInternalStorageId ≠ req.str "srcDriveId" then w.reply invalidDriveId
  else
    match validateInterProviderOperation w req with
    | (w, false) => w
    | (w, true) => go w

def copy (os : Os) (req : RequestData) (w : World) : World :=
  transfer req w fun w =>
    let (w, t) := SAFUtilityOperation.copy os w (req.str "srcPath") (req.str "destPath") (req.flag "overwrite")
    pollStatus getInternalErrorString true os (os.patience + 1) (-20) .object t w

def move (os : Os) (req : RequestData) (w : World) : World :=
  transfer req w fun w =>
    let (w, t) := SAFUtilityOperation.move os w (req.str "srcPath") (req.str "destPath") (req.flag "overwrite")
    pollStatus getInternalErrorString true os (os.patience + 1) (-20) .object t w

def remove (os : Os) (req : RequestData) (w : World) : World :=
  checked req w fun w =>
    let (w, status) := SAFUtilityOperation.remove os w (req.str "path")
    w.reply (statusReply getInternalErrorString status)

def rename (os : Os) (req : RequestData) (w : World) : World :=
  checked req w fun w =>
    let (w, status) := SAFUtilityOperation.rename os w (req.str "path") (req.str "newName")
    w.reply (statusReply getInternalErrorString status)

def eject (req : RequestData) (w : World) : World :=
  w.reply (req.params.put "response" (failReply SAFErrors.unknownError.code "Not supported yet"))

def listStoragesMethod (os : Os) (req : RequestData) (w : World) : World :=
  let own := getInternalPath os w req.sessionId
  let internalRes := ((JValue.object.put "driveName" (.str defaultInternalDriveName)).put "driveId"
    (.str defaultInternalStorageId)).put "path" (.str own.2)
  own.1.reply (req.params.put "response" (JValue.object.put "internal" (.arr [internalRes])))

/-- The switch has no case for the extra methods: they end without a reply. -/
def handleRequests (os : Os) (req : RequestData) (w : World) : World :=
  match req.methodType with
  | .listMethod => listFolderContents os req w
  | .getPropMethod => getProperties os req w
  | .copyMethod => copy os req w
  | .moveMethod => move os req w
  | .removeMethod => remove os req w
  | .ejectMethod => eject req w
  | .renameMethod => rename os req w
  | .listStoragesMethod => listStoragesMethod os req w
  | .extraMethod => w

end StorageAccess.InternalStorageProvider
