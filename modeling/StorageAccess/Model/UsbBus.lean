import StorageAccess.Model.UsbReplies
/-!
# Several requests at the device manager

The provider makes the first call of a request and goes on. Each message brings
its request back with it, in the context of the call, so that messages for
several requests come in any order, and the registry is refreshed in between.
-/

open Posix Json

namespace StorageAccess.USBStorageProvider.Chained

/-- The requests that have made their first call, in the order in which they made it. -/
structure Bus where
  usbStorages : Registry
  requests : List ReqContext

namespace Bus

/-- A handler takes a request, a list of devices comes, or a message for one of the requests does. -/
inductive Label
  | getProperties (params : JValue)
  | eject (params : JValue)
  | devices (root : JValue)
  | message (request : Nat) (dom : Option JValue)

/-- The first call of a request for the properties of a drive, unless it is answered without one. -/
def askProperties (usbStorages : Registry) (params : JValue) : Option ReqContext :=
  let driveId := (params.get "driveId").asString
  let devDriveName := getDriveName usbStorages driveId
  if !isStorageIdExists usbStorages driveId then none
  else if !isStorageDriveMounted usbStorages driveId then none
  else if devDriveName = "UUID".toList ∨ devDriveName = "NO SUB".toList ∨ params.hasKey "path" = true then none
  else some (getPropertiesMethod params devDriveName)

/-- The call that ejects a drive, unless the request is answered without it. -/
def askEject (usbStorages : Registry) (params : JValue) : Option ReqContext :=
  let driveId := (params.get "driveId").asString
  let payload := "\x7b\"deviceNum\": ".toList ++ (toString (getStorageNumber usbStorages driveId)).toList ++ "\x7d".toList
  if !isStorageIdExists usbStorages driveId then none
  else if !isStorageDriveMounted usbStorages driveId then none
  else some (.start params ⟨usbEjectMethod.toList, payload, .onReply⟩)

def step (s : Bus) : Label → Bus
  | .getProperties params => { s with requests := s.requests ++ (askProperties s.usbStorages params).toList }
  | .eject params => { s with requests := s.requests ++ (askEject s.usbStorages params).toList }
  | .devices root => { s with usbStorages := populateDeviceInfo root }
  | .message request dom => { s with requests := s.requests.modify request (deliver · ⟨dom, s.usbStorages⟩) }

end Bus

end StorageAccess.USBStorageProvider.Chained
