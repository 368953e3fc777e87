import StorageAccess.Model.ListStorages
/-!
# The replies of the device manager, one by one

A request that takes several calls keeps the calls still to make and the replies
so far in its parameters. Each reply makes the next call or answers the request,
and the front end reads the collected replies.
-/

open Posix Json

namespace StorageAccess

namespace USBStorageProvider.Chained

/-- The function an `LSCall` hands the reply to. -/
inductive Handler
  | onReply
  | onGetPropertiesReply
  deriving DecidableEq, Repr

structure LSCall where
  uri : Str
  payload : Str
  handler : Handler
  deriving DecidableEq, Repr

/-- What happens to a request: a call goes out, a message comes in, its callback is invoked. -/
inductive BusEvent
  | call (c : LSCall)
  | message (dom : Option JValue)
  | cb (rootObj : JValue)

/-- A request with the calls whose reply is still to come, and what has happened to it. -/
structure ReqContext where
  params : JValue
  inFlight : List LSCall
  events : List BusEvent

/-- What the parser makes of a payload, and `usbStorages` as it stands when the message comes. -/
structure Message where
  dom : Option JValue
  usbStorages : Registry

namespace ReqContext

def lsCall (x : ReqContext) (c : LSCall) : ReqContext :=
  { x with inFlight := x.inFlight ++ [c], events := x.events ++ [.call c] }

def cb (x : ReqContext) (rootObj : JValue) : ReqContext := { x with events := x.events ++ [.cb rootObj] }

def start (params : JValue) (first : LSCall) : ReqContext := ReqContext.lsCall ⟨params, [], []⟩ first

end ReqContext

/-- The parameters with more in their `response`, which is made where it is missing. -/
def respond (params : JValue) (replies : List JValue) : JValue :=
  let params := if params.hasKey "response" then params else params.put "response" .array
  params.put "response" (replies.foldl .append (params.get "response"))

/-- What a pending request asks for. -/
def nextCall (next : JValue) : LSCall := ⟨(next.get "uri").asString, (next.get "payload").asString, .onReply⟩

/-- The first pending request is taken off the list and called; without one the request is answered. -/
def proceed (x : ReqContext) : ReqContext :=
  match (x.params.get "nextReq").items with
  | next :: nextReqArr => { x with params := x.params.put "nextReq" (.arr nextReqArr) }.lsCall (nextCall next)
  | [] => x.cb (x.params.get "response")

/-- A payload that is no JSON is dropped. -/
def onReply (x : ReqContext) (m : Message) : ReqContext :=
  match m.dom with
  | some root => proceed { x with params := respond x.params [root] }
  | none => x

def onGetPropertiesReply (x : ReqContext) (m : Message) : ReqContext :=
  let deviceType := getStorageType m.usbStorages (x.params.get "driveId").asString
  let typeObj := JValue.object.put "storageType" (.str deviceType)
  match m.dom with
  | some root => proceed { x with params := respond x.params [typeObj, root] }
  | none => x

def Handler.run : Handler → ReqContext → Message → ReqContext
  | .onReply => Chained.onReply
  | .onGetPropertiesReply => Chained.onGetPropertiesReply

/-- A message for a request answers the oldest call in flight; without one there is nothing to answer. -/
def deliver (x : ReqContext) (m : Message) : ReqContext :=
  match x.inFlight with
  | c :: inFlight => c.handler.run { x with inFlight := inFlight, events := x.events ++ [.message m.dom] } m
  | [] => x

/-- The calls of `getPropertiesMethod` for a drive. -/
def getPropertiesMethod (params : JValue) (devDriveName : Str) : ReqContext :=
  let spaceObj := (JValue.object.put "uri" (.text usbSpaceMethod)).put "payload" (.str (drivePayload devDriveName))
  .start (params.put "nextReq" (.arr [spaceObj]))
    ⟨usbWriteQMethod.toList, drivePayload devDriveName, .onGetPropertiesReply⟩

end USBStorageProvider.Chained

/-! ## Reading the collected replies -/

namespace USBPbnJsonParser

/-- One reply, by the first of the keys it has. -/
def readReply (respObj eachObj : JValue) : JValue :=
  if eachObj.hasKey "storageType" then respObj.put "storageType" (.str (eachObj.get "storageType").asString)
  else if eachObj.hasKey "isWritable" then
    (respObj.put "writable" (.bool (eachObj.get "isWritable").asBool)).put "deletable"
      (.bool (eachObj.get "isWritable").asBool)
  else if eachObj.hasKey "spaceInfo" then
    let infoObj := eachObj.get "spaceInfo"
    let respObj := if infoObj.hasKey "totalSize" then respObj.put "totalSpace" (infoObj.get "totalSize") else respObj
    let respObj := if infoObj.hasKey "driveSize" then respObj.put "totalSpace" (infoObj.get "driveSize") else respObj
    respObj.put "freeSpace" (infoObj.get "freeSize")
  else respObj

/-- Only a value that is no array is an error by its `returnValue`. -/
def parseGetProperties (rootObj : JValue) : JValue :=
  if rootObj.isArray then rootObj.items.foldl readReply (JValue.object.put "returnValue" (.bool true))
  else if !(rootObj.get "returnValue").asBool then rootObj
  else rootObj.items.foldl readReply .object

end USBPbnJsonParser

/-- What the front end posts for a request for properties, from the value its provider answers with. -/
def SAFLunaService.onGetPropertiesReply (reqObj rootObj : JValue) : JValue :=
  match storageTypeOf reqObj with
  | some .usb => if reqObj.hasKey "path" then rootObj else USBPbnJsonParser.parseGetProperties rootObj
  | some _ => rootObj
  -- a member put on a value that is no object is lost
  | none => .null

end StorageAccess
