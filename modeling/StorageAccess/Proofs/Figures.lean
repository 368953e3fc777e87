import StorageAccess.Proofs.CloudMove
import StorageAccess.Proofs.Paging
/-!
# The figures a client reads

Byte counts have 64 bits in the program. On their way into a reply some are put
into 32-bit fields: the space of a disk before it is divided, the size of an
entry when it is written as an `int`. A figure is right as far as it fits.
-/

open Posix Json

namespace StorageAccess

/-! ## The space on a disk -/

/-- The properties reply with the space figures of a path. -/
def spaceReply (os : Os) (fs : FS) (path modTime : Str) (storageType : Option Str) (respObj : JValue) : JValue :=
  (InternalSpaceInfo.init os fs path).describe modTime storageType true respObj

/-- The reply gives the space of the disk in megabytes. -/
structure TrueFigures (s : SpaceInfo) (r : JValue) : Prop where
  totalSpace : r.get "totalSpace" = .num (s.capacity / 10 ^ 6 : Nat)
  freeSpace : r.get "freeSpace" = .num (s.free / 10 ^ 6 : Nat)
  ordered : ∀ total free, r.get "totalSpace" = .num total → r.get "freeSpace" = .num free → free ≤ total

theorem get_spaceReply {os : Os} {fs : FS} {path : Str} {s : SpaceInfo} (hpath : validateInternalPath fs path = true)
    (hspace : os.space path = some s) (modTime : Str) (storageType : Option Str) {respObj : JValue}
    (hobj : respObj.isObject = true) :
    let r := spaceReply os fs path modTime storageType respObj
    r.get "totalSpace" = .num (s.capacity % 2 ^ 32 / 1000000 : Nat) ∧
      r.get "freeSpace" = .num (s.free % 2 ^ 32 / 1000000 : Nat) := by
  intro r
  have hinfo : InternalSpaceInfo.init os fs path = ⟨s.capacity % 2 ^ 32, s.free % 2 ^ 32, s.available % 2 ^ 32,
      s.ownerWrite, s.groupWrite, InternalOperErrors.success.code⟩ := by
    simp only [InternalSpaceInfo.init, hpath, hspace, Bool.not_true, Bool.false_eq_true, if_false]
  have hput : ∀ o : JValue, o.isObject = true → ∀ total free : JValue,
      ((o.put "totalSpace" total).put "freeSpace" free).get "totalSpace" = total ∧
        ((o.put "totalSpace" total).put "freeSpace" free).get "freeSpace" = free := by
    intro o ho total free
    have hwith : (o.put "totalSpace" total).isObject = true := (JValue.isObject_put ..).trans ho
    rw [JValue.get_put _ hwith, if_neg (by decide), JValue.get_put_self _ ho, JValue.get_put_self _ hwith]
    exact ⟨rfl, rfl⟩
  simp only [r, spaceReply, hinfo, InternalSpaceInfo.describe, if_true]
  apply hput
  cases storageType <;> simpa using hobj

/-- The figures are right exactly for the disks whose size fits 32 bits. -/
theorem spaceReply_true_iff {os : Os} {fs : FS} {path : Str} {s : SpaceInfo}
    (hpath : validateInternalPath fs path = true) (hspace : os.space path = some s) (hfree : s.free ≤ s.capacity)
    (hcap : s.capacity < 2 ^ 31 * 10 ^ 6) (modTime : Str) (storageType : Option Str) {respObj : JValue}
    (hobj : respObj.isObject = true) :
    TrueFigures s (spaceReply os fs path modTime storageType respObj) ↔ s.capacity < 2 ^ 32 := by
  obtain ⟨htotal, hleft⟩ := get_spaceReply hpath hspace modTime storageType hobj
  constructor
  · rintro ⟨h, -, -⟩
    rw [htotal, JValue.num.injEq] at h
    -- past 2 ^ 32 the field holds less than what the disk has, by at least 2 ^ 32 bytes
    omega
  · intro hfits
    have hc : s.capacity % 2 ^ 32 = s.capacity := Nat.mod_eq_of_lt hfits
    have hf : s.free % 2 ^ 32 = s.free := Nat.mod_eq_of_lt (by omega)
    rw [hc] at htotal
    rw [hf] at hleft
    refine ⟨htotal, hleft, fun total free ht hl => ?_⟩
    rw [htotal, JValue.num.injEq] at ht
    rw [hleft, JValue.num.injEq] at hl
    omega

/-- An operating system that reports one disk everywhere. -/
def withDisk (s : SpaceInfo) : Os := { Os.quiet with space := fun _ => some s }

/-- A file system with an empty `/tmp`. -/
def onlyTmp : FS := FS.ofEntries [(["tmp".toList], .dir)] (by decide)

theorem spaceReply_of_two_gigabytes :
    TrueFigures ⟨2000000000, 1500000000, 1500000000, true, true⟩
      (spaceReply (withDisk ⟨2000000000, 1500000000, 1500000000, true, true⟩) onlyTmp "/tmp".toList [] none .object) :=
  (spaceReply_true_iff (by decide) rfl (by simp) (by simp) [] none rfl).2 (by simp)

/-- A disk of five gigabytes, four of them free. -/
def fiveGigabytes : SpaceInfo := ⟨5000000000, 4000000000, 4000000000, true, true⟩

def fiveGigabytesReply : JValue := spaceReply (withDisk fiveGigabytes) onlyTmp "/tmp".toList [] none .object

/-- It reads as 705 megabytes with 4000 free. -/
theorem spaceReply_of_five_gigabytes :
    fiveGigabytes.free ≤ fiveGigabytes.capacity ∧ fiveGigabytes.capacity < 2 ^ 31 * 10 ^ 6 ∧
      fiveGigabytesReply.get "totalSpace" = .num 705 ∧ fiveGigabytesReply.get "freeSpace" = .num 4000 ∧
      ¬ TrueFigures fiveGigabytes fiveGigabytesReply := by
  have hpath : validateInternalPath onlyTmp "/tmp".toList = true := by decide
  have hspace : (withDisk fiveGigabytes).space "/tmp".toList = some fiveGigabytes := rfl
  have hr : fiveGigabytesReply.get "totalSpace" = .num 705 ∧ fiveGigabytesReply.get "freeSpace" = .num 4000 :=
    get_spaceReply hpath hspace [] none JValue.isObject_object
  refine ⟨by simp [fiveGigabytes], by simp [fiveGigabytes], hr.1, hr.2, fun h => ?_⟩
  have hle := h.ordered 705 4000 hr.1 hr.2
  omega

/-! ## The size of an entry -/

/-- A value read as a number: a number, or the digits of one. -/
def numberOf : JValue → Option Int
  | .num n => some n
  | .str digits => if digits ≠ [] ∧ digits.all Char.isDigit then some (Nat.ofDigitChars 10 digits 0) else none
  | _ => none

/-- What an entry of a list reply stands for. -/
inductive ListedFile
  | entry (e : FolderContent)
  | cloudFile (file : GFile) (about : GAbout)

/-- The size of an entry. A cloud drive says -1 of what has none. -/
def ListedFile.size : ListedFile → Int
  | .entry e => e.size
  | .cloudFile file _ => if file.fileSize = -1 then 0 else file.fileSize

/-- The object a list reply holds for an entry of the folder of the request. -/
inductive StandsFor (env : Env) (s : Service) (req : RequestData) : JValue → ListedFile → Prop
  | text {e : FolderContent} (type : req.storageType = .internal ∨ req.storageType = .usb)
      (listed : e ∈ (FolderContents.init env.os s.world.fs (req.str "path")).contents) :
      StandsFor env s req (entryObject sizeText e) (.entry e)
  | number {e : FolderContent} (type : req.storageType = .network)
      (listed : e ∈ (FolderContents.init env.os s.world.fs (req.str "path")).contents) :
      StandsFor env s req (entryObject NetworkProvider.sizeNumber e) (.entry e)
  | cloud {file : Str × Str} {got : GFile} {about : GAbout} (type : req.storageType = .gdrive)
      (listed : file ∈ (FileIndex.loadFileIds env.drive).getFileMap (req.str "path"))
      (read : env.drive.get file.2 = some got) (quota : env.drive.about = some about) :
      StandsFor env s req (GDriveProvider.fileObject file.1 got about) (.cloudFile got about)

/-- The size of an entry survives the way its provider writes it. A cloud file is
written as what the drive would have left without it. -/
def ListedFile.Fits (type : StorageType) : ListedFile → Prop
  | .entry e => type = .network → e.size < 2 ^ 31
  | .cloudFile file about =>
    file.fileSize ≠ -1 → file.fileSize < 2 ^ 31 ∧ (about.quotaBytesTotal - 2 * file.fileSize) % 2 ^ 32 = 0

theorem numberOf_sizeText (size : Nat) : numberOf (sizeText size) = some (size : Int) := by
  have hdigits : ((Nat.toDigits 10 size).all Char.isDigit) = true :=
    List.all_eq_true.2 fun _ h => isDigit_of_mem_toDigits h
  have hne : Nat.toDigits 10 size ≠ [] := Nat.toDigits_ne_nil
  have hvalue : Nat.ofDigitChars 10 (Nat.toDigits 10 size) 0 = size := Nat.ofDigitChars_toDigits (by decide) (by decide)
  simp only [numberOf, sizeText, hne, hdigits, hvalue, ne_eq, not_false_eq_true, and_self, if_true]

theorem get_entryObject (sizeValue : Nat → JValue) (e : FolderContent) :
    (entryObject sizeValue e).get "size" = sizeValue e.size := rfl

theorem get_fileObject (path : Str) (file : GFile) (about : GAbout) :
    (GDriveProvider.fileObject path file about).get "size" =
      .num (if file.fileSize = -1 then 0 else FolderContents.wrap32 (about.quotaBytesTotal - file.fileSize)) := rfl

/-- An entry shows its size exactly when that survives the writing. -/
theorem StandsFor.size_iff {env : Env} {s : Service} {req : RequestData} {obj : JValue} {l : ListedFile}
    (h : StandsFor env s req obj l) (hpos : 0 ≤ l.size) (hmax : l.size < 2 ^ 63) :
    numberOf (obj.get "size") = some l.size ↔ l.Fits req.storageType := by
  cases h with
  | text type listed =>
    rw [get_entryObject, numberOf_sizeText]
    refine iff_of_true rfl fun hnetwork => ?_
    rw [hnetwork] at type
    simp at type
  | @number e type listed =>
    simp only [get_entryObject, NetworkProvider.sizeNumber, numberOf, ListedFile.size, ListedFile.Fits, type, true_implies,
      Option.some.injEq, FolderContents.wrap32] at hmax ⊢
    omega
  | @cloud file got about type listed read quota =>
    rw [get_fileObject]
    by_cases habsent : got.fileSize = -1
    · simp [numberOf, ListedFile.size, ListedFile.Fits, habsent]
    · simp only [numberOf, ListedFile.size, ListedFile.Fits, habsent, if_false, ne_eq, not_false_eq_true, true_implies,
        Option.some.injEq, FolderContents.wrap32] at hpos hmax ⊢
      omega

/-! ## The entries of a reply -/

/-- The entries a list reply holds. -/
def filesOf (r : JValue) : List JValue := (r.get "files").items

theorem filesOf_failReply (errorCode : Int) (errorText : String) : filesOf (failReply errorCode errorText) = [] := rfl

theorem filesOf_errorReply (errorCode : Int) (errorText : String) : filesOf (errorReply errorCode errorText) = [] := rfl

theorem mem_filesOf_listReply {errorText : Int → String} {sizeValue : Nat → JValue} {c : FolderContents}
    {offset limit : Int} {obj : JValue} (h : obj ∈ filesOf (listReply errorText sizeValue c offset limit)) :
    ∃ e ∈ c.contents, obj = entryObject sizeValue e := by
  unfold listReply at h
  split at h
  · have hpage : obj ∈ (c.page offset limit).map (entryObject sizeValue) := h
    obtain ⟨e, he, rfl⟩ := List.mem_map.1 hpage
    exact ⟨e, List.mem_of_mem_drop (List.mem_of_mem_take he), rfl⟩
  · rw [filesOf_failReply] at h
    cases h

/-- The new replies list nothing but entries of the folder of the request. -/
def OnlyEntries (env : Env) (s : Service) (req : RequestData) (w' : World) : Prop :=
  ∀ r ∈ newReplies s.world w', ∀ obj ∈ filesOf r, ∃ l, StandsFor env s req obj l

theorem onlyEntries_reply {env : Env} {s : Service} {req : RequestData} {w : World}
    (hw : w.replies = s.world.replies) {r : JValue} (h : ∀ obj ∈ filesOf r, ∃ l, StandsFor env s req obj l) :
    OnlyEntries env s req (w.reply r) := by
  intro r' hr'
  rw [(mem_newReplies_reply rfl hw).1 hr']
  exact h

/-- A reply without a `files` member lists nothing. -/
theorem onlyEntries_empty {env : Env} {s : Service} {req : RequestData} {r : JValue} (h : filesOf r = []) :
    OnlyEntries env s req (s.world.reply r) := by
  apply onlyEntries_reply rfl
  rw [h]
  simp

theorem onlyEntries_internal {env : Env} {s : Service} {req : RequestData} (hm : req.methodType = .listMethod)
    (ht : req.storageType = .internal) :
    OnlyEntries env s req (InternalStorageProvider.handleRequests env.os req s.world) := by
  simp only [InternalStorageProvider.handleRequests, hm, InternalStorageProvider.listFolderContents,
    InternalStorageProvider.checked]
  split
  · exact onlyEntries_empty (filesOf_errorReply ..)
  split
  · exact onlyEntries_empty (filesOf_errorReply ..)
  apply onlyEntries_reply rfl
  intro obj h
  obtain ⟨e, he, rfl⟩ := mem_filesOf_listReply h
  exact ⟨_, .text (.inl ht) he⟩

theorem onlyEntries_usb {env : Env} {s : Service} {req : RequestData} (hm : req.methodType = .listMethod)
    (ht : req.storageType = .usb) :
    OnlyEntries env s req (USBStorageProvider.handleRequests env.os env.luna s.usb req s.world) := by
  simp only [USBStorageProvider.handleRequests, hm, USBStorageProvider.listFolderContentsMethod,
    USBStorageProvider.checked]
  split
  · exact onlyEntries_empty (filesOf_failReply ..)
  split
  · exact onlyEntries_empty (filesOf_failReply ..)
  apply onlyEntries_reply rfl
  intro obj h
  obtain ⟨e, he, rfl⟩ := mem_filesOf_listReply h
  exact ⟨_, .text (.inr ht) he⟩

theorem onlyEntries_samba {env : Env} {s : Service} {req : RequestData} (hm : req.methodType = .listMethod)
    (ht : req.storageType = .network) (hk : NetworkProvider.isUpnp (req.str "driveId") = false) :
    OnlyEntries env s req (NetworkProvider.handleRequests env.os env.net req s.network s.world).2 := by
  simp only [NetworkProvider.handleRequests, hm, NetworkProvider.list, hk, Bool.not_false, if_true]
  split
  · exact onlyEntries_empty (filesOf_errorReply ..)
  split
  · exact onlyEntries_empty (filesOf_errorReply ..)
  apply onlyEntries_reply rfl
  intro obj h
  obtain ⟨e, he, rfl⟩ := mem_filesOf_listReply h
  exact ⟨_, .number ht he⟩

theorem exists_reads {drive : Drive} {files : List (Str × Str)} {entries : List JValue}
    (h : List.Forall₂ (Reads drive) files entries) {obj : JValue} (hobj : obj ∈ entries) :
    ∃ file ∈ files, Reads drive file obj := by
  induction h with
  | nil => cases hobj
  | @cons file entry files entries hread _ ih =>
    rcases List.mem_cons.1 hobj with rfl | hrest
    · exact ⟨file, List.mem_cons_self, hread⟩
    · obtain ⟨file', hfile, hread'⟩ := ih hrest
      exact ⟨file', List.mem_cons_of_mem _ hfile, hread'⟩

theorem onlyEntries_cloud {env : Env} {s : Service} {req : RequestData} (hm : req.methodType = .listMethod)
    (ht : req.storageType = .gdrive) :
    OnlyEntries env s req (GDriveProvider.handleRequests env.os env.drive req s.gdrive s.world).2 := by
  simp only [GDriveProvider.handleRequests, hm, GDriveProvider.list, GDriveProvider.guarded]
  split
  · exact onlyEntries_empty (filesOf_errorReply ..)
  split
  · exact onlyEntries_empty (filesOf_failReply ..)
  split
  · exact onlyEntries_empty (filesOf_failReply ..)
  split
  · exact onlyEntries_empty (filesOf_failReply ..)
  split
  case h_1 contents hread =>
    apply onlyEntries_reply rfl
    intro obj h
    have hobj : obj ∈ contents := h
    -- every entry of the page was read for a file of the folder
    obtain ⟨file, hfile, got, about, hget, habout, rfl⟩ := exists_reads ((listPage_eq_some_iff ..).1 hread) hobj
    exact ⟨_, .cloud ht (List.mem_of_mem_drop (List.mem_of_mem_take hfile)) hget habout⟩
  case h_2 => simp [OnlyEntries, newReplies]

/-- The folder of the request is no container of a media server. -/
def NoContainer (req : RequestData) : Prop :=
  req.storageType = .network → NetworkProvider.isUpnp (req.str "driveId") = false

theorem onlyEntries_handle {env : Env} {s : Service} {req : RequestData} (hm : req.methodType = .listMethod)
    (hk : NoContainer req) : OnlyEntries env s req (s.handle env req).world := by
  have hroute : route req = req.storageType := if_neg (by simp [hm])
  unfold Service.handle
  rw [hroute]
  cases ht : req.storageType with
  | internal => exact onlyEntries_internal hm ht
  | usb => exact onlyEntries_usb hm ht
  | network => exact onlyEntries_samba hm ht (hk ht)
  | gdrive => exact onlyEntries_cloud hm ht

/-- Every entry of a list reply, of whatever provider, shows the size of what it
stands for exactly when that survives the writing, so that two entries of one
size then read alike. -/
theorem sizes_shown_iff (env : Env) (s : Service) (req : RequestData) (hm : req.methodType = .listMethod)
    (hk : NoContainer req) :
    (∀ r ∈ newReplies s.world (s.handle env req).world, ∀ obj ∈ filesOf r, ∃ l, StandsFor env s req obj l) ∧
      ∀ obj l, StandsFor env s req obj l → 0 ≤ l.size → l.size < 2 ^ 63 →
        ((numberOf (obj.get "size") = some l.size ↔ l.Fits req.storageType) ∧
          ∀ env' s' req' obj' l', StandsFor env' s' req' obj' l' → l'.size = l.size → l.Fits req.storageType →
            l'.Fits req'.storageType → numberOf (obj'.get "size") = numberOf (obj.get "size")) := by
  refine ⟨onlyEntries_handle hm hk, fun obj l h hpos hmax => ⟨h.size_iff hpos hmax, ?_⟩⟩
  intro env' s' req' obj' l' h' hsize hfits hfits'
  rw [(h.size_iff hpos hmax).2 hfits, (h'.size_iff (hsize ▸ hpos) (hsize ▸ hmax)).2 hfits', hsize]

/-- A cloud drive of some size that holds a file of ten bytes. -/
def tenBytes (quota : Int) : Env :=
  { Env.quiet with
    drive := { GDriveProvider.oneFile .done with
      get := fun id => some ⟨id, "a.txt".toList, "text/plain".toList, 10, [], []⟩
      about := some ⟨quota, 10⟩ } }

def listRoot : RequestData :=
  ⟨.gdrive, .listMethod,
    ((((JValue.object.put "storageType" (.text "cloud")).put "driveId" (.text "GDRIVE_1")).put "path" (.text "/")).put
      "offset" (.num 1)).put "limit" (.num 10), "guest2".toList⟩

theorem noContainer_listRoot : NoContainer listRoot := by simp [NoContainer, listRoot]

theorem size_of_tenBytes {quota : Int} {obj : JValue} {l : ListedFile}
    (h : StandsFor (tenBytes quota) GDriveProvider.signedIn listRoot obj l) :
    ∃ file, file.fileSize = 10 ∧ l = .cloudFile file ⟨quota, 10⟩ := by
  cases h with
  | text type => simp [listRoot] at type
  | number type => simp [listRoot] at type
  | cloud _ _ read about =>
    cases read
    cases about
    exact ⟨_, rfl, rfl⟩

/-- Half full, the drive leaves as much as the file has. -/
theorem half_full_drive_shown :
    ∃ obj l, StandsFor (tenBytes 20) GDriveProvider.signedIn listRoot obj l ∧ numberOf (obj.get "size") = some 10 := by
  have hlisted : ((newReplies GDriveProvider.signedIn.world
      (GDriveProvider.signedIn.handle (tenBytes 20) listRoot).world).any fun r => (filesOf r).any fun _ => true) = true := by
    decide +kernel
  obtain ⟨r, hr, hany⟩ := List.any_eq_true.1 hlisted
  obtain ⟨obj, hobj, -⟩ := List.any_eq_true.1 hany
  obtain ⟨hentries, hshown⟩ := sizes_shown_iff (tenBytes 20) GDriveProvider.signedIn listRoot rfl noContainer_listRoot
  obtain ⟨l, h⟩ := hentries r hr obj hobj
  refine ⟨obj, l, h, ?_⟩
  obtain ⟨file, hsize, rfl⟩ := size_of_tenBytes h
  have hl : (ListedFile.cloudFile file ⟨20, 10⟩).size = 10 := by simp [ListedFile.size, hsize]
  refine ((hshown obj _ h (by simp [hl]) (by simp [hl])).1.2 ?_).trans (congrArg some hl)
  simp [ListedFile.Fits, hsize]

/-- On a drive of sixteen gigabytes the file of ten bytes shows a negative size. -/
theorem ten_bytes_shown_wrong :
    listRoot.methodType = .listMethod ∧ NoContainer listRoot ∧
      ∃ r ∈ newReplies GDriveProvider.signedIn.world (GDriveProvider.signedIn.handle (tenBytes 16106127360) listRoot).world,
        ∃ obj ∈ filesOf r, ∃ l, StandsFor (tenBytes 16106127360) GDriveProvider.signedIn listRoot obj l ∧ l.size = 10 ∧
          numberOf (obj.get "size") = some (-1073741834) := by
  have hshown : ((newReplies GDriveProvider.signedIn.world
      (GDriveProvider.signedIn.handle (tenBytes 16106127360) listRoot).world).any fun r =>
        (filesOf r).any fun obj => numberOf (obj.get "size") = some (-1073741834)) = true := rfl
  obtain ⟨r, hr, hany⟩ := List.any_eq_true.1 hshown
  obtain ⟨obj, hobj, hvalue⟩ := List.any_eq_true.1 hany
  obtain ⟨l, hl⟩ := onlyEntries_handle (s := GDriveProvider.signedIn) rfl noContainer_listRoot r hr obj hobj
  obtain ⟨file, hsize, rfl⟩ := size_of_tenBytes hl
  exact ⟨rfl, noContainer_listRoot, r, hr, obj, hobj, _, hl, by simp [ListedFile.size, hsize], of_decide_eq_true hvalue⟩

end StorageAccess
