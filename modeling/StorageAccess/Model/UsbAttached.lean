import StorageAccess.Model.Usb
/-!
# The look-ups of the USB storage provider

Each look-up splits the drive id and runs through the attached devices in the
order of their serial numbers, and through the partitions of a device that
matches. What follows a match that gives no result differs from one to the next.
-/

open Posix

namespace StorageAccess.USBStorageProvider.Attached

/-- The attached devices in the order of their serial numbers. -/
abbrev Devices := List (Str × USBDeviceInfo)

/-- The loop of `getDriveName`, with the name so far. -/
def driveNameLoop (mainId subId : Str) : Devices → Str → Str
  | [], usbDriveName => usbDriveName
  | (serial, dev) :: rest, usbDriveName =>
    if serial = mainId then
      match dev.storageDriveList with
      | [] => driveNameLoop mainId subId rest usbDriveName
      | [drive] => if subId = [] then drive.driveName else if drive.uuid = subId then drive.driveName else "NO SUB".toList
      | drives =>
        if subId = [] then driveNameLoop mainId subId rest "UUID".toList
        else
          let usbDriveName := match drives.find? (·.uuid = subId) with
            | some drive => drive.driveName
            | none => usbDriveName
          if usbDriveName = [] then "NO SUB".toList else driveNameLoop mainId subId rest usbDriveName
    else driveNameLoop mainId subId rest usbDriveName

def getDriveName (reg : Registry) (driveId : Str) : Str :=
  driveNameLoop (splitId driveId).1 (splitId driveId).2 reg.toList []

/-- The loop of `isStorageIdExists`. -/
def storageIdLoop (mainId subId : Str) : Devices → Bool
  | [] => false
  | (serial, dev) :: rest =>
    if serial = mainId then
      match dev.storageDriveList with
      | [] => storageIdLoop mainId subId rest
      | [drive] => if subId = [] then true else if drive.uuid = subId then true else storageIdLoop mainId subId rest
      | drives =>
        if subId = [] then storageIdLoop mainId subId rest
        else if drives.any (·.uuid = subId) then true
        else storageIdLoop mainId subId rest
    else storageIdLoop mainId subId rest

def isStorageIdExists (reg : Registry) (driveId : Str) : Bool :=
  storageIdLoop (splitId driveId).1 (splitId driveId).2 reg.toList

/-- The loop of `isStorageDriveMounted`. -/
def driveMountedLoop (mainId subId : Str) : Devices → Bool
  | [] => false
  | (serial, dev) :: rest =>
    if serial = mainId then
      match dev.storageDriveList with
      | [] => driveMountedLoop mainId subId rest
      | [drive] =>
        if subId = [] then drive.isMounted
        else if drive.uuid = subId then drive.isMounted
        else driveMountedLoop mainId subId rest
      | drives =>
        if subId = [] then driveMountedLoop mainId subId rest
        else match drives.find? (·.uuid = subId) with
          | some drive => drive.isMounted
          | none => driveMountedLoop mainId subId rest
    else driveMountedLoop mainId subId rest

def isStorageDriveMounted (reg : Registry) (driveId : Str) : Bool :=
  driveMountedLoop (splitId driveId).1 (splitId driveId).2 reg.toList

/-- The loop of `getStorageNumber`. -/
def storageNumberLoop (mainId : Str) : Devices → Int
  | [] => 0
  | (serial, dev) :: rest => if serial = mainId then dev.deviceNumber else storageNumberLoop mainId rest

def getStorageNumber (reg : Registry) (driveId : Str) : Int := storageNumberLoop (splitId driveId).1 reg.toList

/-- The loop of `getStorageType`. -/
def storageTypeLoop (mainId : Str) : Devices → Str
  | [] => []
  | (serial, dev) :: rest => if serial = mainId then dev.storageType else storageTypeLoop mainId rest

def getStorageType (reg : Registry) (driveId : Str) : Str := storageTypeLoop (splitId driveId).1 reg.toList

end StorageAccess.USBStorageProvider.Attached
