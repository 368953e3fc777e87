import Mathlib.Tactic.Common
import StorageAccess.Lib.Filesystem
import StorageAccess.Lib.Json
/-!
# Requests, errors and the world a handler acts on

A handler takes a `RequestData` and a `World` and returns the next `World`. The
world records every reply and every file operation, in order.
-/

open Posix Json

namespace StorageAccess

/-- A `std::map` keyed by strings. -/
abbrev Table (α : Type) := Std.ExtTreeMap Str α

/-- What `operator[]` leaves of a map: a missing key is inserted with the default value. -/
def touch {α : Type} (t : Table α) (key : Str) (default : α) : Table α :=
  if t.contains key then t else t.insert key default

namespace Table

variable {α : Type} (t : Table α)

theorem get_insert (k a : Str) (v : α) : (t.insert k v)[a]? = if k = a then some v else t[a]? := by
  simp [Std.ExtTreeMap.getElem?_insert, Std.LawfulEqCmp.compare_eq_iff_eq]

theorem get_erase (k a : Str) : (t.erase k)[a]? = if k = a then none else t[a]? := by
  simp [Std.ExtTreeMap.getElem?_erase, Std.LawfulEqCmp.compare_eq_iff_eq]

theorem mem_iff_get {a : Str} : a ∈ t ↔ ∃ v, t[a]? = some v := by
  rw [← Std.ExtTreeMap.isSome_getElem?_iff_mem, Option.isSome_iff_exists]

theorem mem_insert_iff (k a : Str) (v : α) : a ∈ t.insert k v ↔ k = a ∨ a ∈ t := by
  rw [Std.ExtTreeMap.mem_insert, Std.LawfulEqCmp.compare_eq_iff_eq]

theorem mem_erase_iff (k a : Str) : a ∈ t.erase k ↔ k ≠ a ∧ a ∈ t := by
  rw [Std.ExtTreeMap.mem_erase, ne_eq, Std.LawfulEqCmp.compare_eq_iff_eq]

/-- A value that had no key belongs to the new key alone. -/
theorem unique_insert {k₀ : Str} {v₀ : α} (hunused : ∀ k : Str, t[k]? ≠ some v₀)
    (hunique : ∀ (k k' : Str) (v : α), t[k]? = some v → t[k']? = some v → k = k') (k k' : Str) (v : α)
    (h : (t.insert k₀ v₀)[k]? = some v) (h' : (t.insert k₀ v₀)[k']? = some v) : k = k' := by
  rw [get_insert] at h h'
  split at h <;> split at h'
  case isTrue.isTrue hk hk' => exact hk.symm.trans hk'
  case isTrue.isFalse => exact absurd (h'.trans h.symm) (hunused k')
  case isFalse.isTrue => exact absurd (h.trans h'.symm) (hunused k)
  case isFalse.isFalse => exact hunique k k' v h h'

/-- `operator[]` inserts nothing for a key that is there. -/
theorem touch_of_mem {k : Str} (h : k ∈ t) (d : α) : touch t k d = t := if_pos (Std.ExtTreeMap.contains_iff_mem.2 h)

/-- Items with distinct keys, inserted one after another. -/
theorem get_foldl_insert {β : Type} (key : β → Str) (value : β → α) {l : List β} (hn : (l.map key).Nodup) (a : Str) :
    (l.foldl (fun t x => t.insert (key x) (value x)) t)[a]? = ((l.find? fun x => key x = a).map value).or t[a]? := by
  induction l generalizing t with
  | nil => simp
  | cons x l ih =>
    obtain ⟨hx, hl⟩ := List.nodup_cons.1 (List.map_cons ▸ hn)
    rw [List.foldl_cons, ih _ hl, get_insert]
    by_cases hk : key x = a
    · subst hk
      have hnone : l.find? (fun y => key y = key x) = none :=
        List.find?_eq_none.2 fun y hy => by simpa using fun e => hx (List.mem_map.2 ⟨y, hy, e⟩)
      simp [hnone]
    · simp [hk]

/-- Of the items with one key the last stays. -/
theorem get_foldl_insert_last {β : Type} (key : β → Str) (value : β → α) (l : List β) (a : Str) :
    (l.foldl (fun t x => t.insert (key x) (value x)) t)[a]? = ((l.reverse.find? fun x => key x = a).map value).or t[a]? := by
  induction l generalizing t with
  | nil => simp
  | cons x l ih =>
    rw [List.foldl_cons, ih, get_insert, List.reverse_cons, List.find?_append]
    cases l.reverse.find? fun y => key y = a with
    | some y => simp
    | none => by_cases hk : key x = a <;> simp [hk]

theorem getD_touch (k : Str) (d : α) : (touch t k d).getD k d = t.getD k d := by
  unfold touch
  split
  · rfl
  case isFalse h =>
    have hk : k ∉ t := fun hm => h (Std.ExtTreeMap.contains_iff_mem.2 hm)
    rw [Std.ExtTreeMap.getD_insert_self, Std.ExtTreeMap.getD_eq_fallback hk]

end Table

/-- `std::string::find`. -/
def find (needle s : Str) : Option Nat := s.tails.findIdx? (needle.isPrefixOf ·)

inductive StorageType
  | internal
  | usb
  | gdrive
  | network
  deriving DecidableEq, Repr

inductive MethodType
  | listMethod
  | getPropMethod
  | listStoragesMethod
  | copyMethod
  | moveMethod
  | removeMethod
  | ejectMethod
  | renameMethod
  | extraMethod
  deriving DecidableEq, Repr

structure RequestData where
  storageType : StorageType
  methodType : MethodType
  params : JValue
  sessionId : Str

namespace RequestData

def str (req : RequestData) (key : String) : Str := (req.params.get key).asString

def int (req : RequestData) (key : String) : Int := (req.params.get key).asInt

def flag (req : RequestData) (key : String) : Bool := (req.params.get key).asBool

end RequestData

/-! ## Errors -/

inductive SAFErrors
  | unknownError
  | invalidParam
  | storageTypeNotSupported
  | invalidPath
  | invalidSourcePath
  | invalidDestPath
  | fileAlreadyExists
  | noError
  | permissionDenied
  | safErrorNotSupported
  deriving DecidableEq, Repr

def SAFErrors.code : SAFErrors → Int
  | .unknownError => 8000
  | .invalidParam => 8003
  | .storageTypeNotSupported => 8013
  | .invalidPath => 8014
  | .invalidSourcePath => 8015
  | .invalidDestPath => 8016
  | .fileAlreadyExists => 8017
  | .noError => 8018
  | .permissionDenied => 8019
  | .safErrorNotSupported => 8282

inductive CloudErrors
  | attachNotDone
  | authenticationNotDone
  | alreadyAuthenticated
  | invalidUrl
  | invalidFile
  deriving DecidableEq, Repr

def CloudErrors.code : CloudErrors → Int
  | .attachNotDone => 6000
  | .authenticationNotDone => 6001
  | .alreadyAuthenticated => 6002
  | .invalidUrl => 6003
  | .invalidFile => 6004

inductive USBErrors
  | morePartitionsInUsb
  | usbStorageNotExists
  | usbSubStorageNotExists
  | moreAttachedStoragesThanUsb
  | driveNotMounted
  | usbDriveAlreadyEjected
  deriving DecidableEq, Repr

def USBErrors.code : USBErrors → Int
  | .morePartitionsInUsb => 9000
  | .usbStorageNotExists => 9001
  | .usbSubStorageNotExists => 9002
  | .moreAttachedStoragesThanUsb => 9003
  | .driveNotMounted => 9004
  | .usbDriveAlreadyEjected => 9005

/-- The text a table holds for an error code. -/
def errorString (table : List (Int × String)) (errorCode : Int) : String :=
  (table.lookup errorCode).getD "Unknown Error"

def getSAFErrorString : Int → String :=
  errorString
    [(8282, "Not supported yet"), (2000, "Configuration success"), (2001, "Failed to load config file"),
     (2002, "No category foud in config"), (2003, "No valid found in config"), (8000, "Unknown error"),
     (8001, "Service is not ready"), (8002, "Initialize error"), (8003, "Invalid parameter"),
     (8004, "Internal error"), (8005, "Memory Allocation Error"), (8006, "Required parameter is missing"),
     (8008, "Service is already running"), (8009, "Invalid JSON format"), (8010, "Input text must not be empty"),
     (8011, "No error"), (8014, "No such file or directory"), (8015, "No such file or directory at source"),
     (8016, "No such file or directory at destination"), (8017, "File Exists"), (8018, "No Error"),
     (8019, "Permission Denied"), (8013, "Operation not permitted")]

def getInternalErrorString : Int → String :=
  errorString
    [(8000, "Internal Unknown Error"), (8003, "Invalid Internal Parameters"), (8014, "Invalid Internal Path"),
     (8015, "Invalid Internal Source Path"), (8016, "Invalid Internal Destination Path"),
     (8017, "Internal File Already Exists"), (8019, "Internal File Permission Denied"), (8018, "Internal No Error")]

def getCloudErrorString : Int → String :=
  errorString
    [(8000, "Cloud Unknown Error"), (8003, "Invalid Cloud Parameters"), (8014, "Invalid Cloud Path"),
     (8015, "Invalid Cloud Source Path"), (8016, "Invalid Cloud Destination Path"), (8017, "Cloud File Already Exists"),
     (6000, "Attach Cloud Not Done"), (6001, "Permission Denied"), (6002, "Already Authenticated"),
     (6003, "Invalid URL"), (6004, "File Not Supported")]

def getUSBErrorString : Int → String :=
  errorString
    [(8282, "USB not supported"), (8000, "USB unknown error"), (9000, "USB Storage has more partitions"),
     (9001, "No USB Storage Exists with ID given"), (9002, "No USB drive found"),
     (9003, "More attached storages apart from USB"), (8014, "Invalid USB Path"), (8015, "Invalid USB Source Path"),
     (8016, "Invalid USB Destination Path"), (8017, "USB File Already Exists"), (9004, "USB Drive Not Mounted"),
     (8018, "USB No error"), (9005, "Drive Already Ejected")]

/-! ## The world -/

/-- A use of the file system or of a cloud drive on behalf of a request. -/
inductive FsOp
  | list (path : Str)
  | space (path : Str)
  | copy (srcPath destPath : Str)
  | move (srcPath destPath : Str)
  | remove (path : Str)
  | rename (path newName : Str)
  | makeDirs (path : Str)
  | shell (command : Str)
  | mount (source path data : Str) (done : Bool)
  | umount (path : Str) (done : Bool)
  | readFile (path : Str)
  | writeFile (path : Str)
  | cloudGet (fileId : Str)
  | cloudCopy (fileId : Str)
  | cloudInsert (title : Str)
  | cloudPatch (fileId : Str)
  | cloudDelete (fileId : Str)
  deriving DecidableEq, Repr

/-- What `fs::space` and `fs::status` say of a path. -/
structure SpaceInfo where
  capacity : Nat
  free : Nat
  available : Nat
  ownerWrite : Bool
  groupWrite : Bool

/-- What the operating system decides during one request. -/
structure Os where
  depth : Nat
  mkdirFault : Option Fault
  copyFault : Option Fault
  stuck : Loc → Bool
  renameRefused : Bool
  writeCut : Option Nat
  space : Str → Option SpaceInfo
  modTime : Str → Str
  patience : Nat

/-- A file a cloud drive stores. -/
structure CloudFile where
  parent : Str
  title : Str
  content : List UInt8
  deriving DecidableEq, Repr

/-- The state outside the providers' own tables. `mSambaDrivePathMap` is the map
the utility singleton keeps; `cloud` is what the cloud drives store by file id. -/
structure World where
  fs : FS
  mSambaDrivePathMap : Table Str
  cloud : Table CloudFile
  replies : List JValue
  ops : List FsOp

namespace World

def reply (w : World) (respObj : JValue) : World := { w with replies := w.replies ++ [respObj] }

def log (w : World) (op : FsOp) : World := { w with ops := w.ops ++ [op] }

def logIf (w : World) (done : Bool) (op : FsOp) : World := { w with ops := w.ops ++ if done then [op] else [] }

@[simp] theorem reply_fs (w : World) (r : JValue) : (w.reply r).fs = w.fs := rfl
@[simp] theorem reply_ops (w : World) (r : JValue) : (w.reply r).ops = w.ops := rfl
@[simp] theorem reply_cloud (w : World) (r : JValue) : (w.reply r).cloud = w.cloud := rfl
@[simp] theorem reply_paths (w : World) (r : JValue) : (w.reply r).mSambaDrivePathMap = w.mSambaDrivePathMap := rfl
@[simp] theorem reply_replies (w : World) (r : JValue) : (w.reply r).replies = w.replies ++ [r] := rfl
@[simp] theorem log_fs (w : World) (o : FsOp) : (w.log o).fs = w.fs := rfl
@[simp] theorem log_ops (w : World) (o : FsOp) : (w.log o).ops = w.ops ++ [o] := rfl
@[simp] theorem log_cloud (w : World) (o : FsOp) : (w.log o).cloud = w.cloud := rfl
@[simp] theorem log_paths (w : World) (o : FsOp) : (w.log o).mSambaDrivePathMap = w.mSambaDrivePathMap := rfl
@[simp] theorem log_replies (w : World) (o : FsOp) : (w.log o).replies = w.replies := rfl
@[simp] theorem logIf_fs (w : World) (d : Bool) (o : FsOp) : (w.logIf d o).fs = w.fs := rfl
@[simp] theorem logIf_cloud (w : World) (d : Bool) (o : FsOp) : (w.logIf d o).cloud = w.cloud := rfl
@[simp] theorem logIf_paths (w : World) (d : Bool) (o : FsOp) : (w.logIf d o).mSambaDrivePathMap = w.mSambaDrivePathMap := rfl
@[simp] theorem logIf_replies (w : World) (d : Bool) (o : FsOp) : (w.logIf d o).replies = w.replies := rfl

theorem logIf_ops (w : World) (d : Bool) (o : FsOp) : (w.logIf d o).ops = w.ops ++ if d then [o] else [] := rfl

end World

/-- The replies a handler sent. -/
def newReplies (w w' : World) : List JValue := w'.replies.drop w.replies.length

/-- An error reply without `returnValue`, as most early exits send it. -/
def errorReply (errorCode : Int) (errorText : String) : JValue :=
  (JValue.object.put "errorCode" (.num errorCode)).put "errorText" (.text errorText)

/-- An error reply with `returnValue` false. -/
def failReply (errorCode : Int) (errorText : String) : JValue :=
  ((JValue.object.put "returnValue" (.bool false)).put "errorCode" (.num errorCode)).put "errorText" (.text errorText)

end StorageAccess
