import StorageAccess.Model.Service
/-!
# Listing the storage providers

A request for the storage providers goes round the four providers. The reply of
each comes back to the front end, which keeps its progress in the parameters of
the request and hands them to the next provider. Copies of a JSON value share
it, so all requests of one call have the same parameters.
-/

open Posix Json

namespace StorageAccess

namespace SAFLunaService

/-- The overload of `getStorageDeviceType` that reads a request's parameters. -/
def storageTypeOf (jsonObj : JValue) : Option StorageType :=
  if (jsonObj.get "storageType").isString then getStorageDeviceType (jsonObj.get "storageType").asString
  else if (jsonObj.get "srcStorageType").isString then getStorageDeviceType (jsonObj.get "srcStorageType").asString
  else none

/-- What the front end does with a provider's reply. -/
inductive Next
  | addRequest (type : StorageType)
  | postToClient (respObj : JValue)

/-- The responses so far, with the one that just came. -/
def collected (rootObj : JValue) : JValue :=
  let providerRespArray := if rootObj.hasKey "listStorageResponse" then rootObj.get "listStorageResponse" else .null
  if rootObj.hasKey "response" then providerRespArray.append (rootObj.get "response") else providerRespArray

/-- The parameters after the reply, and what follows. -/
def onListOfStoragesReply (rootObj : JValue) : JValue × Next :=
  match storageTypeOf rootObj with
  | some .usb =>
    let respObj := if rootObj.hasKey "response" then rootObj.get "response" else .object
    ((rootObj.put "storageType" (.text "internal")).put "listStorageResponse" (.arr [respObj]), .addRequest .internal)
  | some .internal =>
    let rootObj := rootObj.put "storageType" (.text "cloud")
    (rootObj.put "listStorageResponse" (collected rootObj), .addRequest .gdrive)
  | some .gdrive =>
    let rootObj := rootObj.put "storageType" (.text "network")
    (rootObj.put "listStorageResponse" (collected rootObj), .addRequest .network)
  | some .network =>
    let responses := collected rootObj
    let responseObj := (JValue.object.put "returnValue" (.bool true)).put "storageProviders" responses
    -- the array grows where it stands
    (if rootObj.hasKey "listStorageResponse" then rootObj.put "listStorageResponse" responses else rootObj,
      .postToClient responseObj)
  | none => (rootObj, .postToClient (JValue.object.put "returnValue" (.bool false)))

end SAFLunaService

/-- One call on its way. `pending` are its requests in the providers' queues,
`called` says that the device manager was asked, and `produced` records what the
providers answered. -/
structure ListCall where
  service : Service
  params : JValue
  sessionId : Str
  called : Bool
  pending : List StorageType
  produced : List (StorageType × JValue)
  posted : List JValue

namespace ListCall

def start (service : Service) (req : RequestData) : ListCall :=
  ⟨service, req.params, req.sessionId, false, [req.storageType], [], []⟩

def request (c : ListCall) (type : StorageType) : RequestData := ⟨type, .listStoragesMethod, c.params, c.sessionId⟩

/-- A provider's reply arrives at the front end. -/
def receive (type : StorageType) (c : ListCall) (rootObj : JValue) : ListCall :=
  let c := { c with produced := c.produced ++ [(type, rootObj.get "response")] }
  match SAFLunaService.onListOfStoragesReply rootObj with
  | (params, .addRequest next) => { c with params := params, pending := c.pending ++ [next] }
  | (params, .postToClient respObj) => { c with params := params, posted := c.posted ++ [respObj] }

/-- A provider handles one of the call's requests. The USB provider asks the device manager. -/
def serve (env : Env) (type : StorageType) (c : ListCall) : ListCall :=
  if type ∈ c.pending then
    let service := c.service.handle env (c.request type)
    (newReplies c.service.world service.world).foldl (receive type)
      { c with service := service, called := c.called || type = .usb, pending := c.pending.erase type }
  else c

/-- The device manager answers or notifies, in a message that parses. -/
def notify (root : JValue) (c : ListCall) : ListCall :=
  if c.called then
    let (usb, world) := USBStorageProvider.onListStoragesMethodReply root (c.request .usb) c.service.world
    (newReplies c.service.world world).foldl (receive .usb) { c with service := { c.service with usb := usb, world := world } }
  else c

/-- A provider takes up a request, the device manager sends a message, which may
not parse, or something else happens to the service. -/
inductive Label
  | serve (env : Env) (type : StorageType)
  | notify (root : Option JValue)
  | others (l : Service.Label)

def step (c : ListCall) : Label → ListCall
  | .serve env type => c.serve env type
  | .notify (some root) => c.notify root
  | .notify none => c
  | .others l => { c with service := c.service.step l }

end ListCall

end StorageAccess
