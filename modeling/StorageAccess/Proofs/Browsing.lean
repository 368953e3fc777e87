import StorageAccess.Proofs.ContentDirectory
import StorageAccess.Proofs.Servers
/-!
# Browsing the media servers that were found

Over a run the tables of the media servers keep, for every server, the session
that found it first and the URL it found it at. This session can list what the
server has: a path of titles is answered with the children of the object the
first objects with these titles lead to.
-/

open Posix Json

namespace StorageAccess

/-! ## Who found which server -/

/-- The first that found the server with the address and port. -/
def firstFound (found : List (Str × Str)) (key : Str) : Option (Str × Str) :=
  found.find? fun f => NetworkProvider.serverKey f.2 = key

/-- Every drive of a media server that has an owner is the drive of one server. -/
structure DrivesNamed (s : NetworkProvider) : Prop where
  named : ∀ driveId ∈ s.mUpnpSessionData, ∃ key : Str, s.mUpnpDriveMap[key]? = some driveId
  apart : ∀ key key' driveId : Str, s.mUpnpDriveMap[key]? = some driveId → s.mUpnpDriveMap[key']? = some driveId → key = key'

namespace NetworkProvider

end NetworkProvider

/-- The tables stand for the first finds. -/
structure FirstFinds (s : NetworkProvider) (found : List (Str × Str)) : Prop where
  record : ∀ key, s.record key = firstFound found key
  named : DrivesNamed s
  recorded : s.Recorded

section Found
variable {s : NetworkProvider} {found : List (Str × Str)}

/-- The drive of a server that was found. -/
theorem FirstFinds.drive (h : FirstFinds s found) {key sessionId url : Str}
    (hfirst : firstFound found key = some (sessionId, url)) :
    ∃ driveId, s.mUpnpDriveMap[key]? = some driveId ∧ s.mUpnpSessionData[driveId]? = some sessionId ∧
      s.mUpnpPathMap[driveId]? = some url ∧ NetworkProvider.isUpnp driveId = true := by
  obtain ⟨driveId, hdrive, hsession, hpath⟩ := NetworkProvider.record_eq_some_iff.1 ((h.record key).trans hfirst)
  obtain ⟨n, -, rfl⟩ := h.recorded.numbered key driveId hdrive
  exact ⟨_, hdrive, hsession, hpath, NetworkProvider.isUpnp_upnpId n⟩

end Found

open UpnpOperation

section Listed
variable {web : Web} {url : Str} {dir : ContentDirectory} {titles : List Str} {o : DirObject}

end Listed

/-- The entry a listing shows for an object. -/
def EntryOf (o : DirObject) (file : JValue) : Prop := file.get "name" = .str o.title ∧ file.get "id" = .num o.id

section Album
open XMLHandler

end Album

end StorageAccess
