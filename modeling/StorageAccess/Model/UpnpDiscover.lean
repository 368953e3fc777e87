import StorageAccess.Model.Network
/-!
# Discovering media servers

`startScan` collects the locations that content directories announce while the
main loop runs. `mScanCompFlag` keeps a second scan out, and `getScannedDevices`
waits until it is false.
-/

open Posix

namespace StorageAccess

/-- A signal of the resource browser. -/
inductive Announcement
  | available (usn : Str) (locations : List Str)
  | unavailable (usn : Str)

/-- What the gssdp library does during one scan: whether `gssdp_client_new` reports
an error, which of the two constructors return an object, and the signals until
the main loop is left. -/
structure Gssdp where
  clientError : Bool
  newClient : Bool
  newBrowser : Bool
  announcements : List Announcement

/-- `client` and `browser` say whether the pointer is set. -/
structure UpnpDiscover where
  mMsgType : Option Str
  client : Bool
  browser : Bool
  mScanCompFlag : Bool
  mScannedDevs : List Str

namespace UpnpDiscover

def init : UpnpDiscover := ⟨none, false, false, false, []⟩

def upnpContentDir : Str := "urn:schemas-upnp-org:service:ContentDirectory:1".toList

def updateDeviceInfo (msg : Str) (addFlag : Bool) (d : UpnpDiscover) : UpnpDiscover :=
  if addFlag then { d with mScannedDevs := d.mScannedDevs ++ [msg] } else { d with mScannedDevs := [] }

def onResourceUnavailable (usn : Str) (d : UpnpDiscover) : UpnpDiscover :=
  if upnpContentDir <:+: usn then updateDeviceInfo usn false d else d

/-- The test a location has to pass. -/
def describes (location : Str) : Bool := "description.xml".toList <:+: location

def onResourceAvailable (usn : Str) (locations : List Str) (d : UpnpDiscover) : UpnpDiscover :=
  if upnpContentDir <:+: usn then
    locations.foldl (fun d location => if describes location then updateDeviceInfo location true d else d) d
  else d

/-- The handlers that are connected for the message type. -/
def onSignal (msgType : Str) (d : UpnpDiscover) : Announcement → UpnpDiscover
  | .available usn locations =>
    if "available".toList <+: msgType ∨ "all".toList <+: msgType then onResourceAvailable usn locations d else d
  | .unavailable usn =>
    if "unavailable".toList <+: msgType ∨ "all".toList <+: msgType then onResourceUnavailable usn d else d

/-- The timeout of two seconds ends the main loop. The interface and the target keep
their defaults, as the options are never parsed. -/
def startScan (g : Gssdp) (d : UpnpDiscover) : UpnpDiscover :=
  if d.mScanCompFlag then d
  else
    let d := { d with mScannedDevs := [], mScanCompFlag := true }
    -- the error ends the function with the flag set
    if !d.client && g.clientError then { d with client := g.newClient }
    else
      let d := { d with client := d.client || g.newClient, browser := d.browser || g.newBrowser }
      let msgType := d.mMsgType.getD "available".toList
      let d := { d with mMsgType := some msgType }
      if ¬ "available".toList <+: msgType ∧ ¬ "all".toList <+: msgType ∧ ¬ "unavailable".toList <+: msgType then d
      else { g.announcements.foldl (onSignal msgType) d with client := false, browser := false, mScanCompFlag := false }

/-- The loop looks at the flag so many times, and no other thread changes it. -/
def getScannedDevices : Nat → UpnpDiscover → Option (List Str)
  | 0, _ => none
  | polls + 1, d => if d.mScanCompFlag then getScannedDevices polls d else some d.mScannedDevs

end UpnpDiscover

/-! ## The dispatcher thread -/

/-- The thread that handles the requests. Once `waiting` it is in the loop of
`getScannedDevices` for good. -/
structure Discovery where
  upnp : UpnpDiscover
  network : NetworkProvider
  world : World
  waiting : Bool

namespace Discovery

/-- A `discoverUPnPMediaServer` request, and what gssdp does meanwhile. -/
structure Call where
  gssdp : Gssdp
  net : Net
  req : RequestData

def discoverUPnPMediaServer (t : Discovery) (c : Call) : Discovery :=
  if t.waiting then t
  else
    let upnp := t.upnp.startScan c.gssdp
    match upnp.getScannedDevices 1 with
    | none => { t with upnp := upnp, waiting := true }
    | some devs =>
      let (network, world) :=
        NetworkProvider.discoverUPnPMediaServer { c.net with scannedDevices := devs } c.req t.network t.world
      { t with upnp := upnp, network := network, world := world }

end Discovery

end StorageAccess
