import StorageAccess.Model.Network
/-!
# Reading the content directory of a media server

A path is resolved one component after another, each with a Browse request for the
children of the container reached so far. Where a call throws there is no result.
-/

open Posix Xml

namespace StorageAccess

/-! ## The HTTP client -/

inductive CurlMethod
  | get
  | put
  | post
  | delete
  | head
  deriving DecidableEq, Repr

namespace CurlClient

def headerAcceptJson : Str := "accept: application/json".toList

def upnpContentTypeXml : Str := "content-type: text/xml".toList

def upnpSoapAction : Str := "soapaction: \"urn:schemas-upnp-org:service:ContentDirectory:1#Browse\"".toList

def upnpBrowseChildFlag : Str := "BrowseDirectChildren".toList

def upnpBrowseMetadataFlag : Str := "BrowseMetadata".toList

def upnpDefFilter : Str := "*".toList

def upnpDefSortCriteria : Str := []

/-- One argument of the Browse action, on a line of its own. -/
def argument (name : String) (text : Str) : Str :=
  "   <".toList ++ name.toList ++ '>' :: (text ++ "</".toList ++ name.toList ++ ">\n".toList)

/-- What stands before the arguments, literal by literal. -/
def envelopeHead : List String :=
  ["<?xml version=\"1.0\"?>\n",
   "<s:Envelope xmlns:s=\"http://schemas.xmlsoap.org/soap/envelope/\"",
   "s:encodingStyle=\"http://schemas.xmlsoap.org/soap/encoding/\">\n",
   " <s:Body>\n  <u:Browse xmlns:u=\"urn:schemas-upnp-org:service:ContentDirectory:1\">\n"]

def envelopeTail : String := "  </u:Browse>\n </s:Body>\n</s:Envelope>\n"

/-- The body of a Browse request. -/
def setUpnpXmlData (objId : Int) (flag filter : Str) (start count : Int) (sort : Str) : Str :=
  envelopeHead.flatMap String.toList ++
    (argument "ObjectID" (toText objId) ++
      argument "BrowseFlag" (if flag = upnpBrowseChildFlag then upnpBrowseChildFlag else upnpBrowseMetadataFlag) ++
      argument "Filter" filter ++ argument "StartingIndex" (toText start) ++ argument "RequestedCount" (toText count) ++
      argument "SortCriteria" sort) ++ envelopeTail.toList

end CurlClient

/-- A request as `send` makes it. -/
structure CurlRequest where
  method : CurlMethod
  url : Str
  requestHeaders : List Str
  requestBody : Str
  deriving DecidableEq, Repr

/-- What the servers answer, and how libxml reads a text. There is no response body
when `send` does not return 0, and no node when a text is no document. -/
structure Web where
  send : CurlRequest → Option Str
  xmlReadDoc : Str → Tree

/-! ## Resolving a path -/

structure UpnpOperation where
  mDirPathNames : List Str
  mControlUrl : Str

namespace UpnpOperation

open CurlClient

def init : UpnpOperation := ⟨[], []⟩

/-- The loop that splits a path: the names so far, and whether it ended without
throwing. `none` is `npos`, which a step of one makes 0. -/
def splitLoop (temp : Str) (pos : Option Nat) (mDirPathNames : List Str) : List Str × Bool :=
  match pos with
  | none => (mDirPathNames, true)
  | some pos =>
    if _h : pos + 1 ≤ temp.length then
      let rest := temp.drop (pos + 1)
      let pos := find "/".toList rest
      let val := rest.take (pos.getD rest.length)
      if val ≠ [] then splitLoop rest pos (mDirPathNames ++ [val])
      else splitLoop rest (some (match pos with | some pos => pos + 1 | none => 0)) mDirPathNames
    -- `substr` throws past the end
    else (mDirPathNames, false)
termination_by temp.length
decreasing_by all_goals simp; omega

def splitPath (path : Str) : List Str × Bool := splitLoop path (find "/".toList path) []

/-- The request for the children of a container. -/
def browse (mControlUrl : Str) (objId : Int) : CurlRequest where
  method := .get
  url := mControlUrl
  requestHeaders := [upnpContentTypeXml, upnpSoapAction]
  requestBody := setUpnpXmlData objId upnpBrowseChildFlag upnpDefFilter 0 0 upnpDefSortCriteria

/-- The first child with the title decides, whatever it is. -/
def getNextDirId (web : Web) (op : UpnpOperation) (pId : Int) (nextDir : Str) : Option Int :=
  match web.send (browse op.mControlUrl pId) with
  | none => some (-1)
  | some resXml => do
    let result ← XMLHandler.getValue (if resXml = [] then .null else web.xmlReadDoc resXml) "Result".toList
    let dirs ← XMLHandler.getCurDirDetails (web.xmlReadDoc result) pId
    match dirs.find? (·.title = nextDir) with
    | some dir => some dir.id
    | none => some (-1)

def walkNames (web : Web) (op : UpnpOperation) : List Str → (id contId : Int) → Option Int
  | [], _, contId => some contId
  | dirName :: names, id, _ => do
    let id ← getNextDirId web op id dirName
    if id < 0 then some id else walkNames web op names id id

/-- The request for the description of a server. -/
def description (url : Str) : CurlRequest where
  method := .get
  url := url
  requestHeaders := [headerAcceptJson]
  requestBody := []

def getContainerId (web : Web) (url path : Str) (op : UpnpOperation) : UpnpOperation × Option Int :=
  let op := { op with mControlUrl := [] }
  match web.send (description url) with
  | none => (op, some (-1))
  | some temp =>
    match XMLHandler.getValueUnderSameParent (web.xmlReadDoc temp) "controlURL".toList "serviceType".toList
      "service:ContentDirectory:1".toList with
    | none => (op, none)
    | some controlUrl =>
      let op := { op with mControlUrl := NetworkProvider.beforeLastSlash url ++ controlUrl }
      match splitPath path with
      | (names, false) => ({ op with mDirPathNames := names }, none)
      | (names, true) =>
        let op := { op with mDirPathNames := names }
        (op, walkNames web op names 0 (-1))

/-- What became of the request is not looked at. -/
def listDirContents (web : Web) (id : Int) (op : UpnpOperation) : Option (List DirDetails) := do
  let temp := (web.send (browse op.mControlUrl id)).getD []
  let result ← XMLHandler.getValue (web.xmlReadDoc temp) "Result".toList
  XMLHandler.getCurDirDetails (web.xmlReadDoc result) id

end UpnpOperation

/-- The network as a request finds it that lists a path of a server: the container the
path leads to and what is listed for it. `none` where a call throws. -/
def Net.through (net : Net) (web : Web) (op : UpnpOperation) (url path : Str) : Option Net :=
  match UpnpOperation.getContainerId web url path op with
  | (_, none) => none
  | (op, some id) =>
    (UpnpOperation.listDirContents web id op).map fun devs => { net with
      containerId := fun url' path' => if url' = url ∧ path' = path then id else net.containerId url' path'
      dirContents := fun id' => if id' = id then devs else net.dirContents id' }

end StorageAccess
