import StorageAccess.Model.UsbReplies
/-!
# The calls of the clients

What each method of the service does with a message: it responds with an error or
hands a request over. What a provider replies is turned into what the client gets
by a function of the method, which reads the client's message once more.
-/

open Posix Json

namespace StorageAccess

/-- `SAFErrors::INVALID_JSON_FORMAT`. -/
def invalidJsonFormat : Int := 8009

/-- The only reply of a list of replies. -/
def USBPbnJsonParser.parseEject (rootObj : JValue) : JValue :=
  match rootObj with
  | .arr [only] => only
  | rootObj => rootObj

namespace SAFLunaService

/-! ## Taking a call -/

/-- What a method does with a message. The manager looks up the provider of a
request's storage type, and calls through a null pointer where there is none. -/
inductive Taken
  | respond (respObj : JValue)
  | addRequest (req : RequestData)
  | noProvider

/-- `respondWithError`, with the text of the code. -/
def respondWithError (errorCode : Int) : JValue :=
  ((JValue.object.put "returnValue" (.bool false)).put "errorText" (.text (getSAFErrorString errorCode))).put "errorCode"
    (.num errorCode)

/-- `REQUEST_BUILDER`: the storage type is read from the parameters. -/
def requestBuilder (type : MethodType) (params : JValue) (sessionId : Str) : Taken :=
  match storageTypeOf params with
  | some storageType => .addRequest ⟨storageType, type, params, sessionId⟩
  | none => .noProvider

/-- The steps of a method, for what the parser makes of a message: the schema, the
check of the values, and the storage types under the keys `types`. -/
def take (type : MethodType) (invalid : JValue → Bool) (types : List String) (params : JValue → JValue)
    (message : Option JValue) (sessionId : Str) : Taken :=
  match message with
  | none => .respond (respondWithError invalidJsonFormat)
  | some requestObj =>
    if !(schema type).accepts requestObj then .respond (respondWithError invalidJsonFormat)
    else if invalid requestObj then .respond (respondWithError SAFErrors.invalidParam.code)
    else if types.any fun key => (getStorageDeviceType (requestObj.get key).asString).isNone then
      .respond (respondWithError SAFErrors.storageTypeNotSupported.code)
    else requestBuilder type (params requestObj) sessionId

def anyEmpty (keys : List String) (requestObj : JValue) : Bool := keys.any fun key => (requestObj.get key).asString = []

def handleExtraCommand : Option JValue → Str → Taken := take .extraMethod (fun _ => false) ["storageType"] id

def list : Option JValue → Str → Taken :=
  take .listMethod
    (fun requestObj => anyEmpty ["storageType", "path", "driveId"] requestObj || (requestObj.get "offset").asInt < 1 ||
      (requestObj.get "offset").asInt > 100 || (requestObj.get "limit").asInt = -1)
    ["storageType"] id

def getProperties : Option JValue → Str → Taken :=
  take .getPropMethod (anyEmpty ["storageType", "driveId"]) ["storageType"] id

/-- The USB provider is among the supported ones, so the round starts with it. -/
def listStorageProviders : Option JValue → Str → Taken :=
  take .listStoragesMethod (fun _ => false) [] (·.put "storageType" (.text "usb"))

/-- The parameters of a transfer name its source's storage type once more. -/
def withSourceType (requestObj : JValue) : JValue :=
  requestObj.put "storageType" (.str (requestObj.get "srcStorageType").asString)

def transferKeys : List String := ["srcStorageType", "srcDriveId", "destStorageType", "destDriveId", "srcPath", "destPath"]

def copy : Option JValue → Str → Taken :=
  take .copyMethod (anyEmpty transferKeys) ["srcStorageType", "destStorageType"] withSourceType

def move : Option JValue → Str → Taken :=
  take .moveMethod (anyEmpty transferKeys) ["srcStorageType", "destStorageType"] withSourceType

def remove : Option JValue → Str → Taken :=
  take .removeMethod (anyEmpty ["storageType", "driveId", "path"]) ["storageType"] id

def eject : Option JValue → Str → Taken := take .ejectMethod (anyEmpty ["storageType", "driveId"]) ["storageType"] id

def rename : Option JValue → Str → Taken :=
  take .renameMethod (anyEmpty ["storageType", "driveId", "path", "newName"]) ["storageType"] id

/-- The method of each request. -/
def call : MethodType → Option JValue → Str → Taken
  | .extraMethod => handleExtraCommand
  | .listMethod => list
  | .getPropMethod => getProperties
  | .listStoragesMethod => listStorageProviders
  | .copyMethod => copy
  | .moveMethod => move
  | .removeMethod => remove
  | .ejectMethod => eject
  | .renameMethod => rename

/-! ## Posting a reply -/

/-- The reply itself, if the message it answers names a storage type. -/
def postReply (reqObj rootObj : JValue) : JValue :=
  match storageTypeOf reqObj with
  | some _ => rootObj
  -- a member put on a value that is no object is lost
  | none => .null

def onHandleExtraCommandReply (_reqObj rootObj : JValue) : JValue := rootObj

def onListReply : JValue → JValue → JValue := postReply

def onCopyReply : JValue → JValue → JValue := postReply

def onMoveReply : JValue → JValue → JValue := postReply

def onRemoveReply : JValue → JValue → JValue := postReply

def onRenameReply : JValue → JValue → JValue := postReply

def onEjectReply (reqObj rootObj : JValue) : JValue :=
  match storageTypeOf reqObj with
  | some .usb => USBPbnJsonParser.parseEject rootObj
  | some _ => rootObj.get "response"
  | none => JValue.object.put "returnValue" (.bool false)

/-- The callback of a request, for the methods whose replies go to the client. -/
def onReply : MethodType → Option (JValue → JValue → JValue)
  | .extraMethod => some onHandleExtraCommandReply
  | .listMethod => some onListReply
  | .getPropMethod => some onGetPropertiesReply
  | .listStoragesMethod => none
  | .copyMethod => some onCopyReply
  | .moveMethod => some onMoveReply
  | .removeMethod => some onRemoveReply
  | .ejectMethod => some onEjectReply
  | .renameMethod => some onRenameReply

/-- What the callback of a request posts, given the message of the call. -/
def posts (type : MethodType) (message : Option JValue) (replies : List JValue) : List JValue :=
  match message, onReply type with
  | some reqObj, some onReply => replies.map (onReply reqObj)
  | _, _ => []

end SAFLunaService

end StorageAccess
