import StorageAccess.Model.Utility
/-!
# The USB storage provider

A drive id is a serial number, then `-` and a partition's uuid when the device
has several. The registry is refreshed from the replies of the device manager.
-/

open Posix Json

namespace StorageAccess.USBStorageProvider

open SAFUtilityOperation

structure USBDriveInfo where
  driveName : Str
  mountPath : Str
  uuid : Str
  isMounted : Bool
  deriving DecidableEq, Repr

structure USBDeviceInfo where
  storageType : Str
  deviceNumber : Int
  storageDriveList : List USBDriveInfo
  deriving DecidableEq, Repr

/-- `usbStorages`, by serial number. -/
abbrev Registry := Table USBDeviceInfo

/-! ## Looking up a drive id -/

/-- The serial number and the partition part of a drive id. -/
def splitId (driveId : Str) : Str × Str :=
  (driveId.takeWhile (· ≠ '-'), (driveId.dropWhile (· ≠ '-')).drop 1)

/-- The partition a drive id selects on a device. -/
def selectDrive (dev : USBDeviceInfo) (subId : Str) : Option USBDriveInfo :=
  match dev.storageDriveList with
  | [] => none
  -- the id of the only partition may leave its uuid out
  | [drive] => if subId = [] ∨ drive.uuid = subId then some drive else none
  | drives => if subId = [] then none else drives.find? (·.uuid = subId)

/-- The partition of the registry a drive id selects. -/
def findDrive (reg : Registry) (driveId : Str) : Option USBDriveInfo :=
  reg[(splitId driveId).1]?.bind (selectDrive · (splitId driveId).2)

def isStorageIdExists (reg : Registry) (driveId : Str) : Bool := (findDrive reg driveId).isSome

def isStorageDriveMounted (reg : Registry) (driveId : Str) : Bool :=
  match findDrive reg driveId with
  | some drive => drive.isMounted
  | none => false

/-- The name of the partition, or a word for what is wrong with the id. A
partition without a name reads as missing when the device has several. -/
def getDriveName (reg : Registry) (driveId : Str) : Str :=
  let subId := (splitId driveId).2
  match reg[(splitId driveId).1]? with
  | none => []
  | some dev =>
    match dev.storageDriveList with
    | [] => []
    | [drive] => if subId = [] ∨ drive.uuid = subId then drive.driveName else "NO SUB".toList
    | drives =>
      if subId = [] then "UUID".toList
      else match drives.find? (·.uuid = subId) with
        | some drive => if drive.driveName = [] then "NO SUB".toList else drive.driveName
        | none => "NO SUB".toList

def getStorageNumber (reg : Registry) (driveId : Str) : Int :=
  match reg[(splitId driveId).1]? with
  | some dev => dev.deviceNumber
  | none => 0

def getStorageType (reg : Registry) (driveId : Str) : Str :=
  match reg[(splitId driveId).1]? with
  | some dev => dev.storageType
  | none => []

/-! ## Refreshing the registry -/

def driveInfo (j : JValue) : USBDriveInfo where
  driveName := (j.get "driveName").asString
  mountPath := (j.get "mountName").asString
  uuid := (j.get "uuid").asString
  isMounted := (j.get "isMounted").asBool

def deviceInfo (j : JValue) : USBDeviceInfo where
  storageType := (j.get "deviceType").asString
  deviceNumber := (j.get "deviceNum").asInt
  storageDriveList := (j.get "storageDriveList").items.map driveInfo

/-- The list of devices in a reply of the device manager. -/
def infoList (pbnObj : JValue) : List JValue :=
  let nested := match pbnObj.get "deviceListInfo" with
    | .arr [info] => (info.get "storageDeviceList").items
    | _ => []
  -- a list that is not nested comes first
  if (pbnObj.get "storageDeviceList").isArray then (pbnObj.get "storageDeviceList").items else nested

/-- `cleanDeviceInfo` and `populateDeviceInfo`. -/
def populateDeviceInfo (pbnObj : JValue) : Registry :=
  (infoList pbnObj).foldl
    (fun reg j => if j.hasKey "serialNumber" then reg.insert (j.get "serialNumber").asString (deviceInfo j) else reg) ∅

/-! ## Replies of the device manager -/

/-- The reply a call to another service gets. -/
abbrev Luna := String → Str → JValue

def usbAttachMethod : String := "luna://com.webos.service.pdm/getAttachedStorageDeviceList"

def usbWriteQMethod : String := "luna://com.webos.service.pdm/isWritableDrive"

def usbSpaceMethod : String := "luna://com.webos.service.pdm/getSpaceInfo"

def usbEjectMethod : String := "luna://com.webos.service.pdm/eject"

/-- `onReply` for the calls that are still to make, with the replies so far. -/
def onReply (luna : Luna) : List JValue → List JValue → JValue → World → World
  | [], responses, root, w => w.reply (.arr (responses ++ [root]))
  | next :: nextReq, responses, root, w =>
    onReply luna nextReq (responses ++ [root])
      (luna (String.ofList (next.get "uri").asString) (next.get "payload").asString) w

/-- `onGetPropertiesReply`: the device type goes before the first reply. -/
def onGetPropertiesReply (luna : Luna) (deviceType : Str) (nextReq responses : List JValue) (root : JValue) (w : World) :
    World :=
  onReply luna nextReq (responses ++ [JValue.object.put "storageType" (.str deviceType)]) root w

/-! ## The methods -/

def usbError (e : USBErrors) : JValue := failReply e.code (getUSBErrorString e.code)

/-- The id and mount checks of a request on one drive; `unmounted` is the error for a drive that is not mounted. -/
def checked (reg : Registry) (unmounted : USBErrors) (req : RequestData) (w : World) (go : World → World) : World :=
  if !isStorageIdExists reg (req.str "driveId") then w.reply (usbError .usbStorageNotExists)
  else if !isStorageDriveMounted reg (req.str "driveId") then w.reply (usbError unmounted)
  else go w

def drivePayload (driveName : Str) : Str := "\x7b\"driveName\": \"".toList ++ driveName ++ "\"\x7d".toList

def getPropertiesMethod (os : Os) (luna : Luna) (reg : Registry) (req : RequestData) (w : World) : World :=
  checked reg .driveNotMounted req w fun w =>
    let devDriveName := getDriveName reg (req.str "driveId")
    if devDriveName = "UUID".toList then w.reply (usbError .morePartitionsInUsb)
    else if devDriveName = "NO SUB".toList then w.reply (usbError .usbSubStorageNotExists)
    else if req.params.hasKey "path" then
      let (w, info) := SAFUtilityOperation.getProperties os w (req.str "path")
      if info.status < 0 then
        let errorCode := getInternalErrorCode info.status
        w.reply (failReply errorCode (getUSBErrorString errorCode))
      else
        let storageType := if req.params.hasKey "storageType" then some (req.str "storageType") else none
        let modTime := FolderContent.getModTime os w.fs (if req.str "path" = [] then "/tmp".toList else req.str "path")
        w.reply (info.describe modTime storageType false (JValue.object.put "returnValue" (.bool true)))
    else
      let spaceObj := (JValue.object.put "uri" (.text usbSpaceMethod)).put "payload" (.str (drivePayload devDriveName))
      onGetPropertiesReply luna (getStorageType reg (req.str "driveId")) [spaceObj] (req.params.get "response").items
        (luna usbWriteQMethod (drivePayload devDriveName)) w

def ejectMethod (luna : Luna) (reg : Registry) (req : RequestData) (w : World) : World :=
  checked reg .usbDriveAlreadyEjected req w fun w =>
    let payload := "\x7b\"deviceNum\": ".toList ++ (toString (getStorageNumber reg (req.str "driveId"))).toList ++ "\x7d".toList
    onReply luna (req.params.get "nextReq").items (req.params.get "response").items (luna usbEjectMethod payload) w

/-- The checks `copyMethod` and `moveMethod` share. -/
def transfer (reg : Registry) (req : RequestData) (w : World) (go : World → World) : World :=
  let toUsb : Bool := req.str "destStorageType" = "usb".toList
  if !isStorageIdExists reg (req.str "srcDriveId") then w.reply (usbError .usbStorageNotExists)
  else if toUsb && !isStorageIdExists reg (req.str "destDriveId") then w.reply (usbError .usbStorageNotExists)
  else if !isStorageDriveMounted reg (req.str "srcDriveId") ||
      (toUsb && !isStorageDriveMounted reg (req.str "destDriveId")) then w.reply (usbError .driveNotMounted)
  else
    match validateInterProviderOperation w req with
    | (w, false) => w
    | (w, true) => go w

def copyMethod (os : Os) (reg : Registry) (req : RequestData) (w : World) : World :=
  transfer reg req w fun w =>
    let (w, t) := SAFUtilityOperation.copy os w (req.str "srcPath") (req.str "destPath") (req.flag "overwrite")
    pollStatus getUSBErrorString true os (os.patience + 1) (-20) .object t w

def moveMethod (os : Os) (reg : Registry) (req : RequestData) (w : World) : World :=
  transfer reg req w fun w =>
    let (w, t) := SAFUtilityOperation.move os w (req.str "srcPath") (req.str "destPath") (req.flag "overwrite")
    pollStatus getUSBErrorString false os (os.patience + 1) (-20) .object t w

def removeMethod (os : Os) (reg : Registry) (req : RequestData) (w : World) : World :=
  checked reg .driveNotMounted req w fun w =>
    let (w, status) := SAFUtilityOperation.remove os w (req.str "path")
    w.reply (statusReply getUSBErrorString status)

def listFolderContentsMethod (os : Os) (reg : Registry) (req : RequestData) (w : World) : World :=
  checked reg .driveNotMounted req w fun w =>
    let (w, contents) := getListFolderContents os w (req.str "path")
    w.reply (listReply getUSBErrorString sizeText contents (req.int "offset") (req.int "limit"))

def renameMethod (os : Os) (reg : Registry) (req : RequestData) (w : World) : World :=
  checked reg .driveNotMounted req w fun w =>
    let (w, status) := SAFUtilityOperation.rename os w (req.str "path") (req.str "newName")
    w.reply (statusReply getUSBErrorString status)

/-- What a reply of the device manager says of the drives: for each partition its name, id, file system and path. -/
def parseListOfStorages (replyObj : JValue) : JValue :=
  let devices := if (replyObj.get "returnValue").asBool then infoList replyObj else []
  if (replyObj.get "returnValue").asBool && (replyObj.get "deviceListInfo").items.length > 1 then
    usbError .moreAttachedStoragesThanUsb
  else
    let member (name : String) (v : JValue) (key : String) (obj : JValue) : JValue :=
      if v.hasKey key then obj.put name (v.get key) else obj
    let partitions := devices.flatMap fun device => (device.get "storageDriveList").items.map fun drive =>
      let obj := member "driveName" drive "driveName" JValue.object
      let obj := if drive.hasKey "uuid" then
          obj.put "driveId" (.str ((device.get "serialNumber").asString ++ '-' :: (drive.get "uuid").asString))
        else obj
      member "path" drive "mountName" (member "fileSystem" drive "fsType" obj)
    JValue.object.put "usb" (.arr partitions)

/-- `onListStoragesMethodReply`: each reply to the subscription refreshes the registry and answers the request. -/
def onListStoragesMethodReply (root : JValue) (req : RequestData) (w : World) : Registry × World :=
  (populateDeviceInfo root,
    w.reply ((req.params.put "response" (parseListOfStorages root)).put "storageType" (.text "usb")))

/-- The switch has no case for the extra methods: they end without a reply.
Listing the storages only starts the subscription. -/
def handleRequests (os : Os) (luna : Luna) (reg : Registry) (req : RequestData) (w : World) : World :=
  match req.methodType with
  | .getPropMethod => getPropertiesMethod os luna reg req w
  | .ejectMethod => ejectMethod luna reg req w
  | .copyMethod => copyMethod os reg req w
  | .moveMethod => moveMethod os reg req w
  | .removeMethod => removeMethod os reg req w
  | .renameMethod => renameMethod os reg req w
  | .listMethod => listFolderContentsMethod os reg req w
  | .listStoragesMethod => w
  | .extraMethod => w

end StorageAccess.USBStorageProvider
