import StorageAccess.Model.UpnpOperation
/-!
# The HTTP client

`CurlClient` collects the options of a request, has libcurl perform it and keeps
what came back. libcurl hands over the headers and the body in pieces, each through
a callback that appends it to a buffer. A read of memory that was never written is
undefined, and there is no result.
-/

open Posix

namespace StorageAccess

/-! ## Buffers -/

/-- A byte of memory, `none` where it was never written. -/
abbrev Memory := List (Option Char)

def nul : Char := '\x00'

/-- The text a pointer to characters stands for: up to the first NUL. -/
def cString : Memory → Option Str
  | [] | none :: _ => none
  | some c :: rest => if c = nul then some [] else (cString rest).map (c :: ·)

/-- `c_str()` of a string, as a reader of C strings sees it. -/
def cStr (s : Str) : Str := s.takeWhile (· ≠ nul)

namespace CurlClient

/-- The memory is `none` for a null pointer. -/
structure MemoryChunk where
  memory : Option Memory
  size : Nat
  deriving DecidableEq, Repr

/-- One byte is allocated, if there is room for it, and not written. -/
def MemoryChunk.init (room : Bool) : MemoryChunk := ⟨if room then some [none] else none, 0⟩

/-- What libcurl hands to a callback: a piece of the body or of the headers, and
whether `realloc` will have room for it. -/
structure Arrival where
  body : Bool
  contents : Str
  room : Bool
  deriving DecidableEq, Repr

/-- The chunk after the callback, and the number of bytes it says it took. -/
def writeCallback (a : Arrival) (mem : MemoryChunk) : MemoryChunk × Nat :=
  if a.room then
    -- `realloc` keeps the bytes before; of a null pointer there are none
    let kept := (mem.memory.getD (List.replicate mem.size none)).take mem.size
    (⟨some (kept ++ a.contents.map some ++ [some nul]), mem.size + a.contents.length⟩, a.contents.length)
  else (⟨none, mem.size⟩, 0)

/-- The two buffers of a request. -/
structure Buffers where
  rsp_body : MemoryChunk
  rsp_header : MemoryChunk
  deriving DecidableEq, Repr

/-- The callbacks of a transfer, which ends where one of them takes fewer bytes than it got. -/
def receive : List Arrival → Buffers → Buffers × Bool
  | [], b => (b, true)
  | a :: as, b =>
    let (mem, taken) := writeCallback a (if a.body then b.rsp_body else b.rsp_header)
    let b := if a.body then { b with rsp_body := mem } else { b with rsp_header := mem }
    if taken = a.contents.length then receive as b else (b, false)

def crlf : Str := "\r\n".toList

/-- The loop that cuts the headers into lines. -/
def headerLoop (header_s : Str) (headers : List Str) : List Str :=
  match find crlf header_s with
  | none => headers
  | some npos =>
    -- `substr` throws past the end
    if _h : npos + 2 ≤ header_s.length then headerLoop (header_s.drop (npos + 2)) (headers ++ [header_s.take npos])
    else headers
termination_by header_s.length
decreasing_by simp; omega

/-- A null pointer has no headers. -/
def decomposeHeader (header : Option Memory) (headers : List Str) : Option (List Str) :=
  match header with
  | none => some headers
  | some header => (cString header).map (headerLoop · headers)

/-! ## The client -/

inductive UseSsl
  | sslNone
  | sslTry
  | sslControl
  | sslAll
  deriving DecidableEq, Repr

/-- The options libcurl gets. The timeout of 60 seconds is set first and replaced by one of 300 milliseconds. -/
structure EasyOptions where
  timeoutMs : Nat
  httpHeader : List Str
  url : Str
  followLocation : Bool
  sslVerifyPeer : Bool
  postFields : Str
  useSsl : Option UseSsl
  username : Option Str
  customRequest : Option Str
  deriving DecidableEq, Repr

/-- What libcurl and the allocator do during one request. -/
structure Exchange where
  handle : Bool
  /-- the header that cannot be appended to the list, if any -/
  refusedHeader : Option Nat
  bodyRoom : Bool
  headerRoom : Bool
  arrivals : List Arrival
  ok : Bool
  responseCode : Option Int
  deriving DecidableEq, Repr

/-- What libcurl does with each set of options. -/
abbrev Curl := EasyOptions → Exchange

inductive MpmResult
  | ok
  | internalError
  | outOfMemory
  | networkError
  deriving DecidableEq, Repr

def MpmResult.code : MpmResult → Int
  | .ok => 0
  | .internalError => 4
  | .outOfMemory => 8
  | .networkError => 23

def invalidResponseCode : Int := 0

def getCurlMethodString : CurlMethod → Str
  | .get => "GET".toList
  | .put => "PUT".toList
  | .post => "POST".toList
  | .delete => "DELETE".toList
  | .head => "HEAD".toList

end CurlClient

structure CurlClient where
  m_url : Str
  m_xml : Str
  m_method : Str
  m_requestHeaders : List Str
  m_requestBody : Str
  m_username : Str
  m_response : Str
  m_outHeaders : List Str
  m_useSsl : CurlClient.UseSsl
  m_lastResponseCode : Int
  deriving DecidableEq, Repr

namespace CurlClient

def init : CurlClient := ⟨[], [], [], [], [], [], [], [], .sslTry, invalidResponseCode⟩

/-- The options of the next request. -/
def options (c : CurlClient) : EasyOptions where
  timeoutMs := 300
  httpHeader := c.m_requestHeaders.map cStr
  url := cStr c.m_url
  followLocation := true
  sslVerifyPeer := false
  postFields := cStr c.m_requestBody
  useSsl := if c.m_useSsl = .sslNone then none else some c.m_useSsl
  username := if c.m_username = [] then none else some (cStr c.m_username)
  customRequest := if c.m_method = [] then none else some (cStr c.m_method)

/-- Whether some header of the request cannot be appended. -/
def Exchange.refuses (e : Exchange) (requestHeaders : List Str) : Bool :=
  match e.refusedHeader with
  | none => false
  | some i => i < requestHeaders.length

/-- `doInternalRequest`, called by `send` for the fields of the client. Nothing clears
the headers and the response of earlier requests. -/
def send (curl : Curl) (c : CurlClient) : Option (MpmResult × CurlClient) :=
  let e := curl c.options
  let c := { c with m_lastResponseCode := invalidResponseCode }
  if !e.handle then some (.internalError, c)
  else if e.refuses c.m_requestHeaders then some (.outOfMemory, c)
  else
    let (b, taken) := receive e.arrivals ⟨.init e.bodyRoom, .init e.headerRoom⟩
    if !(taken && e.ok) then some (.networkError, c)
    else do
      let response ← match b.rsp_body.memory with
        | none => some c.m_response
        | some memory => cString memory
      -- what the function returns is not looked at
      let outHeaders ← decomposeHeader b.rsp_header.memory c.m_outHeaders
      some (.ok, { c with
        m_lastResponseCode := e.responseCode.getD invalidResponseCode
        m_response := response
        m_outHeaders := outHeaders })

/-- The calls of a client. -/
inductive Action
  | setRequestHeaders (requestHeaders : List Str)
  | addRequestHeader (header : Str)
  | setUserName (userName : Str)
  | setMethodType (method : CurlMethod)
  | setURL (url : Str)
  | setUpnpXmlData (objId : Int) (flag filter : Str) (start count : Int) (sort : Str)
  | setRequestBody (requestBody : Str)
  | setUseSSLOption (sslOption : UseSsl)
  | send (curl : Curl)

def step (c : CurlClient) : Action → Option CurlClient
  | .setRequestHeaders requestHeaders => some { c with m_requestHeaders := requestHeaders }
  | .addRequestHeader header => some { c with m_requestHeaders := c.m_requestHeaders ++ [header] }
  | .setUserName userName => some { c with m_username := userName }
  | .setMethodType method => some { c with m_method := getCurlMethodString method }
  | .setURL url => some { c with m_url := url }
  | .setUpnpXmlData objId flag filter start count sort =>
    some { c with m_xml := CurlClient.setUpnpXmlData objId flag filter start count sort }
  | .setRequestBody requestBody => some { c with m_requestBody := requestBody }
  | .setUseSSLOption sslOption => some { c with m_useSsl := sslOption }
  | .send curl => (c.send curl).map (·.2)

/-- A client that was set up for a request. -/
def forRequest (r : CurlRequest) : CurlClient :=
  { CurlClient.init with
    m_method := getCurlMethodString r.method
    m_url := r.url
    m_requestHeaders := r.requestHeaders
    m_requestBody := r.requestBody }

/-- What such a client answers: the response of a request that succeeds. -/
def answer (curl : Curl) (r : CurlRequest) : Option Str :=
  match (forRequest r).send curl with
  | some (.ok, c) => some c.m_response
  | _ => none

/-- The servers as the content directory code reaches them, with a client of its own for each request. -/
def web (curl : Curl) (xmlReadDoc : Str → Xml.Tree) : Web := ⟨answer curl, xmlReadDoc⟩

end CurlClient

end StorageAccess
