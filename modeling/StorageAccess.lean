import StorageAccess.Lib.Path
import StorageAccess.Lib.Disk
import StorageAccess.Lib.Walk
import StorageAccess.Lib.Filesystem
import StorageAccess.Lib.Changes
import StorageAccess.Lib.Removal
import StorageAccess.Lib.Json
import StorageAccess.Lib.Runs
import StorageAccess.Model.Common
import StorageAccess.Model.Utility
import StorageAccess.Model.Internal
import StorageAccess.Model.Usb
import StorageAccess.Model.Network
import StorageAccess.Model.GDrive
import StorageAccess.Model.Service
import StorageAccess.Proofs.Utility
import StorageAccess.Proofs.Transfers
import StorageAccess.Proofs.Handlers
import StorageAccess.Proofs.Replies
import StorageAccess.Proofs.MoveFailure
import StorageAccess.Proofs.Confinement
import StorageAccess.Proofs.Drives
import StorageAccess.Proofs.Authorisation
import StorageAccess.Proofs.Cloud
import StorageAccess.Proofs.CloudMove
import StorageAccess.Proofs.Paging
import StorageAccess.Proofs.DriveIds
import StorageAccess.Proofs.Owners
import StorageAccess.Proofs.Advertised
import StorageAccess.Model.ListStorages
import StorageAccess.Proofs.CloudTables
import StorageAccess.Proofs.Forms
import StorageAccess.Model.Dispatch
import StorageAccess.Proofs.ListStorages
import StorageAccess.Proofs.Dispatch
import StorageAccess.Lib.Places
import StorageAccess.Proofs.BackDoor
import StorageAccess.Lib.Delivery
import StorageAccess.Proofs.Delivery
import StorageAccess.Proofs.Limits
import StorageAccess.Lib.Keeping
import StorageAccess.Proofs.Overwriting
import StorageAccess.Lib.Bounded
import StorageAccess.Lib.Carrying
import StorageAccess.Proofs.Recursion
import StorageAccess.Lib.Joined
import StorageAccess.Proofs.Ejecting
import StorageAccess.Lib.Registry
import StorageAccess.Proofs.Servers
import StorageAccess.Proofs.Collisions
import StorageAccess.Lib.Shell
import StorageAccess.Proofs.Commands
import StorageAccess.Model.UpnpDiscover
import StorageAccess.Proofs.Discovery
import StorageAccess.Proofs.LookUps
import StorageAccess.Proofs.Didl
import StorageAccess.Model.UpnpOperation
import StorageAccess.Lib.Fields
import StorageAccess.Proofs.UpnpPaths
import StorageAccess.Proofs.ContentDirectory
import StorageAccess.Lib.XmlText
import StorageAccess.Proofs.BrowseRequest
import StorageAccess.Lib.Forest
import StorageAccess.Proofs.FileIndex
import StorageAccess.Proofs.FolderMap
import StorageAccess.Proofs.SignIn
import StorageAccess.Proofs.Figures
import StorageAccess.Proofs.Progress
import StorageAccess.Proofs.FolderEntries
import StorageAccess.Lib.Routes
import StorageAccess.Proofs.FolderSize
import StorageAccess.Model.UsbAttached
import StorageAccess.Proofs.UsbLookUps
import StorageAccess.Model.UsbReplies
import StorageAccess.Proofs.Chains
import StorageAccess.Proofs.UsbProperties
import StorageAccess.Proofs.Validator
import StorageAccess.Lib.Fairness
import StorageAccess.Model.FrontEnd
import StorageAccess.Model.UsbBus
import StorageAccess.Proofs.Calls
import StorageAccess.Proofs.Liveness
import StorageAccess.Proofs.Posting
import StorageAccess.Proofs.Undo
import StorageAccess.Proofs.Unmounting
import StorageAccess.Proofs.UsbBus
import StorageAccess.Lib.Leases
import StorageAccess.Proofs.Effects
import StorageAccess.Proofs.Leases
import StorageAccess.Proofs.MountTable
import StorageAccess.Model.CurlClient
import StorageAccess.Proofs.CloudRoundTrip
import StorageAccess.Proofs.CurlClient
import StorageAccess.Proofs.Listings
import StorageAccess.Proofs.Browsing
import StorageAccess.Lib.Replica
import StorageAccess.Proofs.Replicas
import StorageAccess.Proofs.Accounts
import StorageAccess.Proofs.Frames
