import StorageAccess.Lib.Runs
import StorageAccess.Model.Internal
import StorageAccess.Model.Usb
import StorageAccess.Model.Network
import StorageAccess.Model.GDrive
/-!
# The service

`accept` is what the front end checks of a call before it hands a request over,
`route` the provider the manager chooses, and `handle` runs that provider's
handler to its end. A run of the service interleaves handled requests with the
replies of the device manager and with whatever other programs do to the files.
-/

open Posix Json

namespace StorageAccess

/-! ## The front end -/

namespace SAFLunaService

inductive PropType
  | string
  | integer
  | boolean
  | isTrue
  | operation
  deriving DecidableEq

/-- The members of a command's payload that must be strings. -/
def payloadStrings : List String :=
  ["clientId", "clientSecret", "secretToken", "refreshToken", "userName", "password", "ip", "serverType", "uid", "gid",
   "sec"]

def operationOk (j : JValue) : Bool :=
  j.isObject && (!j.hasKey "type" || (j.get "type").isString) &&
    (!j.hasKey "payload" || ((j.get "payload").isObject &&
      payloadStrings.all fun key => !(j.get "payload").hasKey key || ((j.get "payload").get key).isString))

def PropType.accepts : PropType → JValue → Bool
  | .string, v => v.isString
  | .integer, v => v.isNumber
  | .boolean, v => v.isBool
  | .isTrue, v => v.isBool && v.asBool
  | .operation, v => operationOk v

/-- A strict schema: no other members. -/
structure Schema where
  props : List (String × PropType)
  required : List String

def Schema.accepts (s : Schema) : JValue → Bool
  | .obj fields =>
    (fields.all fun f => match s.props.lookup f.1 with
      | some t => t.accepts f.2
      | none => false) && s.required.all fun key => (JValue.obj fields).hasKey key
  | _ => false

def transferSchema : Schema where
  props := [("srcStorageType", .string), ("srcDriveId", .string), ("destStorageType", .string), ("destDriveId", .string),
    ("srcPath", .string), ("destPath", .string), ("srcRefreshToken", .string), ("destRefreshToken", .string),
    ("overwrite", .boolean), ("subscribe", .boolean)]
  required := ["srcStorageType", "srcDriveId", "destStorageType", "destDriveId", "srcPath", "destPath"]

def schema : MethodType → Schema
  | .extraMethod => ⟨[("storageType", .string), ("driveId", .string), ("operation", .operation)],
      ["storageType", "operation"]⟩
  | .listMethod => ⟨[("storageType", .string), ("driveId", .string), ("path", .string), ("limit", .integer),
      ("offset", .integer), ("refreshToken", .string), ("refresh", .isTrue)],
      ["storageType", "driveId", "path", "offset", "limit"]⟩
  | .getPropMethod => ⟨[("storageType", .string), ("driveId", .string), ("path", .string), ("refreshToken", .string)],
      ["storageType", "driveId"]⟩
  | .listStoragesMethod => ⟨[("subscribe", .boolean)], []⟩
  | .copyMethod => transferSchema
  | .moveMethod => transferSchema
  | .removeMethod => ⟨[("storageType", .string), ("driveId", .string), ("path", .string), ("refreshToken", .string)],
      ["storageType", "driveId", "path"]⟩
  | .ejectMethod => ⟨[("storageType", .string), ("driveId", .string)], ["storageType", "driveId"]⟩
  | .renameMethod => ⟨[("storageType", .string), ("driveId", .string), ("path", .string), ("newName", .string)],
      ["storageType", "driveId", "path", "newName"]⟩

/-- The members a method refuses to take empty. -/
def nonEmpty : MethodType → List String
  | .extraMethod => []
  | .listMethod => ["storageType", "path", "driveId"]
  | .getPropMethod => ["storageType", "driveId"]
  | .listStoragesMethod => []
  | .copyMethod => ["srcStorageType", "srcDriveId", "destStorageType", "destDriveId", "srcPath", "destPath"]
  | .moveMethod => ["srcStorageType", "srcDriveId", "destStorageType", "destDriveId", "srcPath", "destPath"]
  | .removeMethod => ["storageType", "driveId", "path"]
  | .ejectMethod => ["storageType", "driveId"]
  | .renameMethod => ["storageType", "driveId", "path", "newName"]

def getStorageDeviceType (type : Str) : Option StorageType :=
  if type = "internal".toList then some .internal
  else if type = "usb".toList then some .usb
  else if type = "cloud".toList then some .gdrive
  else if type = "network".toList then some .network
  else none

/-- The request of a call that passes the checks of its method. -/
def accept (method : MethodType) (payload : JValue) (sessionId : Str) : Option RequestData :=
  let text (key : String) : Str := (payload.get key).asString
  if !(schema method).accepts payload then none
  else if (nonEmpty method).any fun key => text key = [] then none
  else
    match method with
    | .listMethod =>
      let offset := (payload.get "offset").asInt
      -- `-1` is what the two numbers start from
      if offset < 1 ∨ offset > 100 ∨ (payload.get "limit").asInt = -1 then none
      else (getStorageDeviceType (text "storageType")).map (⟨·, method, payload, sessionId⟩)
    | .copyMethod | .moveMethod =>
      match getStorageDeviceType (text "srcStorageType"), getStorageDeviceType (text "destStorageType") with
      | some type, some _ => some ⟨type, method, payload.put "storageType" (.str (text "srcStorageType")), sessionId⟩
      | _, _ => none
    -- the round over the providers starts with the USB provider
    | .listStoragesMethod => some ⟨.usb, method, payload.put "storageType" (.text "usb"), sessionId⟩
    | _ => (getStorageDeviceType (text "storageType")).map (⟨·, method, payload, sessionId⟩)

end SAFLunaService

/-! ## The manager and the providers -/

/-- The provider of a request: what goes to the cloud is handled by the cloud provider. -/
def route (req : RequestData) : StorageType :=
  if (req.methodType = .copyMethod ∨ req.methodType = .moveMethod) ∧ req.storageType ≠ .gdrive ∧
      req.str "destStorageType" = "cloud".toList then .gdrive
  else req.storageType

/-- Everything outside the program during one request. -/
structure Env where
  os : Os
  luna : USBStorageProvider.Luna
  net : Net
  drive : Drive

structure Service where
  usb : USBStorageProvider.Registry
  network : NetworkProvider
  gdrive : GDriveProvider
  world : World

namespace Service

/-- `DocumentProviderManager::addRequest`, with the handler run to its end. -/
def handle (env : Env) (req : RequestData) (s : Service) : Service :=
  match route req with
  | .internal => { s with world := InternalStorageProvider.handleRequests env.os req s.world }
  | .usb => { s with world := USBStorageProvider.handleRequests env.os env.luna s.usb req s.world }
  | .network =>
    let (network, world) := NetworkProvider.handleRequests env.os env.net req s.network s.world
    { s with network := network, world := world }
  | .gdrive =>
    let (gdrive, world) := GDriveProvider.handleRequests env.os env.drive req s.gdrive s.world
    { s with gdrive := gdrive, world := world }

/-- What happens in one step of a run. -/
inductive Label
  | request (env : Env) (req : RequestData)
  | devices (root : JValue) (req : RequestData)
  | others (fs : FS) (cloud : Table CloudFile)

def step (s : Service) : Label → Service
  | .request env req => s.handle env req
  | .devices root req =>
    let (usb, world) := USBStorageProvider.onListStoragesMethodReply root req s.world
    { s with usb := usb, world := world }
  | .others fs cloud => { s with world := { s.world with fs := fs, cloud := cloud } }

/-- The service as it starts, on the files that are there. -/
def start (fs : FS) (cloud : Table CloudFile) : Service :=
  ⟨∅, NetworkProvider.init, GDriveProvider.init, ⟨fs, ∅, cloud, [], []⟩⟩

end Service

/-! ## A quiet environment -/

/-- An id longer than all there are. -/
def freshId (t : Table CloudFile) : Str := 'f' :: t.keys.flatten

theorem freshId_not_mem (t : Table CloudFile) : freshId t ∉ t := by
  intro h
  have hlen := List.Sublist.length_le (List.sublist_flatten_of_mem (Std.ExtTreeMap.mem_keys.2 h))
  simp only [freshId, List.length_cons] at hlen
  omega

/-- Nothing fails and nothing is there. -/
def Os.quiet : Os := ⟨16, none, none, fun _ => false, false, none, fun _ => none, fun _ => [], 0⟩

def Net.quiet : Net := ⟨⟨12, 34, 56, 7⟩, 0, 0, none, none, none, [], fun _ _ => 0, fun _ => []⟩

def Drive.quiet : Drive where
  listing _ := []
  depth := 0
  get id := some ⟨id, [], [], 0, [], []⟩
  about := some ⟨0, 0⟩
  authorizeUrl := "https:".toList
  buildCredential _ cred auth := (true, cred, auth)
  request _ := ⟨200, []⟩
  copy := .done
  insert := .done
  patch := .done
  delete := .done
  newId := freshId
  fresh := freshId_not_mem

def Env.quiet : Env := ⟨Os.quiet, fun _ _ => JValue.object.put "returnValue" (.bool true), Net.quiet, Drive.quiet⟩

end StorageAccess
