import StorageAccess.Model.UsbAttached
import StorageAccess.Proofs.DriveIds
import StorageAccess.Proofs.Handlers
/-!
# The look-ups of a USB drive id

The five look-ups search the attached devices on their own. They find the same
device and the same partition, the one `findDrive` selects. The errors of a
request for properties are named by two of them, which do not mean the same by
an id that exists.
-/

open Posix Json

namespace StorageAccess.USBStorageProvider

namespace Attached

/-! ## The device of a serial number -/

/-- The device with a serial number. -/
def device (mainId : Str) (devices : Devices) : Option USBDeviceInfo :=
  (devices.find? (·.1 = mainId)).map Prod.snd

theorem device_toList (reg : Registry) (mainId : Str) : device mainId reg.toList = reg[mainId]? := by
  unfold device
  cases hfind : reg.toList.find? (·.1 = mainId) with
  | some entry =>
    obtain ⟨serial, dev⟩ := entry
    obtain rfl : serial = mainId := by simpa using List.find?_some hfind
    exact (Std.ExtTreeMap.mem_toList_iff_getElem?_eq_some.1 (List.mem_of_find?_eq_some hfind)).symm
  | none =>
    cases hdev : reg[mainId]? with
    | none => rfl
    | some dev =>
      have hnot := List.find?_eq_none.1 hfind (mainId, dev) (Std.ExtTreeMap.mem_toList_iff_getElem?_eq_some.2 hdev)
      simp at hnot

/-- No serial number is attached twice. -/
def Distinct (devices : Devices) : Prop := devices.Pairwise (·.1 ≠ ·.1)

theorem distinct_toList (reg : Registry) : Distinct reg.toList := by
  refine Std.ExtTreeMap.distinct_keys_toList.imp fun hne heq => hne ?_
  rw [heq]
  exact Std.ReflCmp.compare_self

theorem device_cons (mainId serial : Str) (dev : USBDeviceInfo) (rest : Devices) :
    device mainId ((serial, dev) :: rest) = if serial = mainId then some dev else device mainId rest := by
  unfold device
  by_cases h : serial = mainId <;> simp [h]

/-- Past the device itself there is none with its serial number. -/
theorem device_rest {mainId : Str} {dev : USBDeviceInfo} {rest : Devices} (h : Distinct ((mainId, dev) :: rest)) :
    device mainId rest = none := by
  rw [device, Option.map_eq_none_iff, List.find?_eq_none]
  intro entry hentry
  have hne := (List.pairwise_cons.1 h).1 entry hentry
  simpa using Ne.symm hne

/-! ## The loops -/

section
variable {mainId subId : Str} {devices : Devices}

theorem storageNumberLoop_eq : storageNumberLoop mainId devices = ((device mainId devices).map (·.deviceNumber)).getD 0 := by
  induction devices with
  | nil => rfl
  | cons entry rest ih =>
    rw [storageNumberLoop, device_cons]
    split
    · rfl
    · exact ih

theorem storageTypeLoop_eq : storageTypeLoop mainId devices = ((device mainId devices).map (·.storageType)).getD [] := by
  induction devices with
  | nil => rfl
  | cons entry rest ih =>
    rw [storageTypeLoop, device_cons]
    split
    · rfl
    · exact ih

/-- What a partition that is selected gives, and else what `r` is. -/
theorem selected_eq {α : Type} (dev : USBDeviceInfo) (f : USBDriveInfo → α) (r : α) :
    ((selectDrive dev subId).map f).getD r =
      match dev.storageDriveList with
      | [] => r
      | [drive] => if subId = [] then f drive else if drive.uuid = subId then f drive else r
      | drives =>
        if subId = [] then r
        else match drives.find? (·.uuid = subId) with
          | some drive => f drive
          | none => r := by
  rw [selectDrive]
  rcases dev.storageDriveList with _ | ⟨drive, _ | ⟨drive', drives⟩⟩
  · rfl
  · by_cases hsub : subId = []
    · simp [hsub]
    · by_cases hu : drive.uuid = subId <;> simp [hsub, hu]
  · by_cases hsub : subId = []
    · simp [hsub]
    · simp only [hsub, if_false]
      cases (drive :: drive' :: drives).find? (·.uuid = subId) <;> rfl

/-- A loop that goes on after a device without the partition finds nothing more. -/
theorem selectLoop_eq {α : Type} {loop : Devices → α} {f : USBDriveInfo → α} {nothing : α} (hnil : loop [] = nothing)
    (hcons : ∀ serial dev rest, loop ((serial, dev) :: rest) =
      if serial = mainId then ((selectDrive dev subId).map f).getD (loop rest) else loop rest) (h : Distinct devices) :
    loop devices = (((device mainId devices).bind (selectDrive · subId)).map f).getD nothing := by
  induction devices with
  | nil => exact hnil
  | cons entry rest ih =>
    obtain ⟨serial, dev⟩ := entry
    have hrest := ih (List.pairwise_cons.1 h).2
    rw [hcons, device_cons]
    split
    case isFalse => exact hrest
    case isTrue hs =>
      subst hs
      -- what follows the device adds nothing
      rw [device_rest h] at hrest
      rw [hrest]
      rfl

theorem storageIdLoop_cons (serial : Str) (dev : USBDeviceInfo) (rest : Devices) :
    storageIdLoop mainId subId ((serial, dev) :: rest) =
      if serial = mainId then ((selectDrive dev subId).map fun _ => true).getD (storageIdLoop mainId subId rest)
      else storageIdLoop mainId subId rest := by
  rw [storageIdLoop, selected_eq]
  rcases dev.storageDriveList with _ | ⟨drive, _ | ⟨drive', drives⟩⟩
  · rfl
  · rfl
  · have hany : ((drive :: drive' :: drives).any fun x => x.uuid = subId) =
        ((drive :: drive' :: drives).find? fun x => x.uuid = subId).isSome := List.isSome_find?.symm
    dsimp only
    rw [hany]
    cases (drive :: drive' :: drives).find? (·.uuid = subId) <;> rfl

theorem driveMountedLoop_cons (serial : Str) (dev : USBDeviceInfo) (rest : Devices) :
    driveMountedLoop mainId subId ((serial, dev) :: rest) =
      if serial = mainId then ((selectDrive dev subId).map (·.isMounted)).getD (driveMountedLoop mainId subId rest)
      else driveMountedLoop mainId subId rest := by
  rw [selected_eq]
  rfl

theorem storageIdLoop_eq (h : Distinct devices) :
    storageIdLoop mainId subId devices = ((device mainId devices).bind (selectDrive · subId)).isSome := by
  rw [selectLoop_eq rfl storageIdLoop_cons h]
  cases (device mainId devices).bind (selectDrive · subId) <;> rfl

theorem driveMountedLoop_eq (h : Distinct devices) :
    driveMountedLoop mainId subId devices =
      (((device mainId devices).bind (selectDrive · subId)).map (·.isMounted)).getD false :=
  selectLoop_eq rfl driveMountedLoop_cons h

/-- Past the device itself the name stays as it is. -/
theorem driveNameLoop_rest (h : device mainId devices = none) (usbDriveName : Str) :
    driveNameLoop mainId subId devices usbDriveName = usbDriveName := by
  induction devices with
  | nil => rfl
  | cons entry rest ih =>
    obtain ⟨serial, dev⟩ := entry
    rw [device_cons] at h
    rw [driveNameLoop]
    split at h
    · cases h
    case isFalse hs =>
      rw [if_neg hs]
      exact ih h

/-- The name a device gives for the partition part of an id. -/
def nameOn (dev : USBDeviceInfo) (subId : Str) : Str :=
  match dev.storageDriveList with
  | [] => []
  | [drive] => if subId = [] ∨ drive.uuid = subId then drive.driveName else "NO SUB".toList
  | drives =>
    if subId = [] then "UUID".toList
    else match drives.find? (·.uuid = subId) with
      | some drive => if drive.driveName = [] then "NO SUB".toList else drive.driveName
      | none => "NO SUB".toList

theorem driveNameLoop_eq (h : Distinct devices) :
    driveNameLoop mainId subId devices [] = ((device mainId devices).map (nameOn · subId)).getD [] := by
  induction devices with
  | nil => rfl
  | cons entry rest ih =>
    obtain ⟨serial, dev⟩ := entry
    rw [driveNameLoop, device_cons]
    by_cases hs : serial = mainId
    case neg =>
      rw [if_neg hs, if_neg hs]
      exact ih (List.pairwise_cons.1 h).2
    subst hs
    have hrest (name : Str) : driveNameLoop serial subId rest name = name := driveNameLoop_rest (device_rest h) name
    rw [if_pos rfl, if_pos rfl, Option.map_some, Option.getD_some, nameOn]
    rcases dev.storageDriveList with _ | ⟨drive, _ | ⟨drive', drives⟩⟩
    · exact hrest []
    · by_cases hsub : subId = []
      · simp [hsub]
      · by_cases hu : drive.uuid = subId <;> simp [hsub, hu]
    · by_cases hsub : subId = []
      · simp only [hsub, if_true]
        rw [← hsub]
        exact hrest _
      · simp only [hsub, if_false, hrest]
        cases (drive :: drive' :: drives).find? (·.uuid = subId) <;> rfl

end

/-! ## The look-ups -/

variable (reg : Registry) (driveId : Str)

theorem isStorageIdExists_eq : isStorageIdExists reg driveId = USBStorageProvider.isStorageIdExists reg driveId := by
  rw [isStorageIdExists, storageIdLoop_eq (distinct_toList reg), device_toList]
  rfl

theorem isStorageDriveMounted_eq :
    isStorageDriveMounted reg driveId = USBStorageProvider.isStorageDriveMounted reg driveId := by
  rw [isStorageDriveMounted, driveMountedLoop_eq (distinct_toList reg), device_toList,
    USBStorageProvider.isStorageDriveMounted, findDrive]
  cases reg[(splitId driveId).1]?.bind (selectDrive · (splitId driveId).2) <;> rfl

theorem getDriveName_eq : getDriveName reg driveId = USBStorageProvider.getDriveName reg driveId := by
  rw [getDriveName, driveNameLoop_eq (distinct_toList reg), device_toList, USBStorageProvider.getDriveName]
  cases reg[(splitId driveId).1]? <;> rfl

theorem getStorageNumber_eq : getStorageNumber reg driveId = USBStorageProvider.getStorageNumber reg driveId := by
  rw [getStorageNumber, storageNumberLoop_eq, device_toList, USBStorageProvider.getStorageNumber]
  cases reg[(splitId driveId).1]? <;> rfl

theorem getStorageType_eq : getStorageType reg driveId = USBStorageProvider.getStorageType reg driveId := by
  rw [getStorageType, storageTypeLoop_eq, device_toList, USBStorageProvider.getStorageType]
  cases reg[(splitId driveId).1]? <;> rfl

end Attached

/-! ## One partition for all look-ups -/

theorem mem_of_selectDrive {dev : USBDeviceInfo} {subId : Str} {drive : USBDriveInfo} (h : selectDrive dev subId = some drive) :
    drive ∈ dev.storageDriveList := by
  unfold selectDrive at h
  split at h
  · cases h
  case h_2 only hlist =>
    split at h
    · cases h
      rw [hlist]
      exact List.mem_cons_self
    · cases h
  case h_3 =>
    split at h
    · cases h
    · exact List.mem_of_find?_eq_some h

/-- What the look-ups say of an id agrees with one partition of one device. -/
structure Meant (reg : Registry) (driveId : Str) (dev : USBDeviceInfo) (drive : USBDriveInfo) : Prop where
  device : reg[(splitId driveId).1]? = some dev
  partition : drive ∈ dev.storageDriveList
  mounted : Attached.isStorageDriveMounted reg driveId = drive.isMounted
  name : drive.driveName ≠ [] → Attached.getDriveName reg driveId = drive.driveName
  number : Attached.getStorageNumber reg driveId = dev.deviceNumber
  type : Attached.getStorageType reg driveId = dev.storageType

/-- The five look-ups mean the same partition, and an id that does not exist is not mounted. -/
theorem lookUps_agree (reg : Registry) (driveId : Str) :
    (Attached.isStorageIdExists reg driveId = true → ∃ dev drive, Meant reg driveId dev drive) ∧
      (Attached.isStorageIdExists reg driveId = false → Attached.isStorageDriveMounted reg driveId = false) := by
  rw [Attached.isStorageIdExists_eq, isStorageIdExists]
  constructor
  · intro h
    obtain ⟨drive, hfind⟩ := Option.isSome_iff_exists.1 h
    obtain ⟨dev, hdev, hselect⟩ := Option.bind_eq_some_iff.1 hfind
    refine ⟨dev, drive, hdev, mem_of_selectDrive hselect, ?_, fun hname => ?_, ?_, ?_⟩
    · rw [Attached.isStorageDriveMounted_eq, isStorageDriveMounted, hfind]
    · rw [Attached.getDriveName_eq, getDriveName_of_findDrive hfind hname]
    · rw [Attached.getStorageNumber_eq, getStorageNumber, hdev]
    · rw [Attached.getStorageType_eq, getStorageType, hdev]
  · intro h
    have hnone : findDrive reg driveId = none := by simpa using h
    rw [Attached.isStorageDriveMounted_eq, isStorageDriveMounted, hnone]

/-! ## The errors of a request for properties -/

/-- What is wrong with a drive id, in the order in which it is looked at. -/
def idFault (reg : Registry) (driveId : Str) : Option USBErrors :=
  if !isStorageIdExists reg driveId then some .usbStorageNotExists
  else if !isStorageDriveMounted reg driveId then some .driveNotMounted
  else if getDriveName reg driveId = "UUID".toList then some .morePartitionsInUsb
  else if getDriveName reg driveId = "NO SUB".toList then some .usbSubStorageNotExists
  else none

/-- What a request for properties goes on with when nothing is wrong with its drive id. -/
def goOn (os : Os) (luna : Luna) (reg : Registry) (req : RequestData) (w : World) : World :=
  if req.params.hasKey "path" then
    let (w, info) := SAFUtilityOperation.getProperties os w (req.str "path")
    if info.status < 0 then
      let errorCode := getInternalErrorCode info.status
      w.reply (failReply errorCode (getUSBErrorString errorCode))
    else
      let storageType := if req.params.hasKey "storageType" then some (req.str "storageType") else none
      let modTime := FolderContent.getModTime os w.fs (if req.str "path" = [] then "/tmp".toList else req.str "path")
      w.reply (info.describe modTime storageType false (JValue.object.put "returnValue" (.bool true)))
  else
    let payload := drivePayload (getDriveName reg (req.str "driveId"))
    let spaceObj := (JValue.object.put "uri" (.text usbSpaceMethod)).put "payload" (.str payload)
    onGetPropertiesReply luna (getStorageType reg (req.str "driveId")) [spaceObj] (req.params.get "response").items
      (luna usbWriteQMethod payload) w

theorem getPropertiesMethod_eq (os : Os) (luna : Luna) (reg : Registry) (req : RequestData) (w : World) :
    getPropertiesMethod os luna reg req w =
      match idFault reg (req.str "driveId") with
      | some e => w.reply (usbError e)
      | none => goOn os luna reg req w := by
  simp only [getPropertiesMethod, checked, idFault]
  split
  · rfl
  split
  · rfl
  split
  · rfl
  split
  · rfl
  · rfl

theorem get_errorCode_describe (i : InternalSpaceInfo) (modTime : Str) (storageType : Option Str) :
    (i.describe modTime storageType false (JValue.object.put "returnValue" (.bool true))).get "errorCode" = .null := by
  cases storageType <;> rfl

/-- The errors of the file operations are no USB errors. -/
theorem getInternalErrorCode_ne (status : Int) (e : USBErrors) : getInternalErrorCode status ≠ e.code := by
  have hne : ∀ s : SAFErrors, s.code ≠ e.code := by
    intro s
    cases s <;> cases e <;> decide
  exact hne _

/-- A request that goes on is not answered with an error about the id. -/
theorem goOn_errorCode (os : Os) (luna : Luna) (reg : Registry) (req : RequestData) (w : World) (e : USBErrors) {r : JValue}
    (hr : r ∈ newReplies w (goOn os luna reg req w)) : r.get "errorCode" ≠ .num e.code := by
  unfold goOn at hr
  dsimp only at hr
  split at hr
  · split at hr
    · rw [(mem_newReplies_reply rfl rfl).1 hr]
      intro h
      exact getInternalErrorCode_ne _ e (JValue.num.inj h)
    · rw [(mem_newReplies_reply rfl rfl).1 hr, get_errorCode_describe]
      simp
  · rw [onGetPropertiesReply, onReply_eq] at hr
    rw [(mem_newReplies_reply rfl rfl).1 hr]
    simp [JValue.get]

theorem usbError_injective {e e' : USBErrors} (h : usbError e = usbError e') : e = e' := by
  have hcode : e.code = e'.code := JValue.num.inj (congrArg (·.get "errorCode") h)
  cases e <;> cases e' <;> first | rfl | cases hcode

/-- The one reply is the error exactly when that is what is wrong. -/
theorem replies_error_iff (os : Os) (luna : Luna) (reg : Registry) (req : RequestData) (w : World) (e : USBErrors) :
    newReplies w (getPropertiesMethod os luna reg req w) = [usbError e] ↔ idFault reg (req.str "driveId") = some e := by
  rw [getPropertiesMethod_eq]
  cases hfault : idFault reg (req.str "driveId") with
  | some e' =>
    have hnew : newReplies w (w.reply (usbError e')) = [usbError e'] := newReplies_of_append rfl
    dsimp only
    rw [hnew, Option.some.injEq, List.cons.injEq, and_iff_left rfl]
    exact ⟨usbError_injective, congrArg usbError⟩
  | none =>
    refine iff_of_false (fun h => ?_) (by simp)
    have hmem : usbError e ∈ newReplies w (goOn os luna reg req w) := h ▸ List.mem_singleton_self _
    exact goOn_errorCode os luna reg req w e hmem rfl

/-- What each error says of an id. -/
def FaultOf (reg : Registry) (driveId : Str) : USBErrors → Prop
  | .usbStorageNotExists => reg[(splitId driveId).1]? = none
  | .morePartitionsInUsb =>
    ∃ dev, reg[(splitId driveId).1]? = some dev ∧ 1 < dev.storageDriveList.length ∧ (splitId driveId).2 = []
  | .usbSubStorageNotExists =>
    ∃ dev, reg[(splitId driveId).1]? = some dev ∧ (splitId driveId).2 ≠ [] ∧
      ∀ drive ∈ dev.storageDriveList, drive.uuid ≠ (splitId driveId).2
  | .driveNotMounted => ∃ drive, findDrive reg driveId = some drive ∧ drive.isMounted = false
  | .moreAttachedStoragesThanUsb | .usbDriveAlreadyEjected => False

/-- A request for properties is answered with the error that says what is wrong with its id,
and goes on when nothing is. -/
structure NamesFault (os : Os) (luna : Luna) (reg : Registry) (req : RequestData) (w : World) : Prop where
  named : ∀ e, newReplies w (getPropertiesMethod os luna reg req w) = [usbError e] ↔ FaultOf reg (req.str "driveId") e
  goesOn : (∀ e, ¬ FaultOf reg (req.str "driveId") e) →
    getPropertiesMethod os luna reg req w = goOn os luna reg req w

theorem namesFault_iff_idFault (os : Os) (luna : Luna) (reg : Registry) (req : RequestData) (w : World) :
    NamesFault os luna reg req w ↔
      ∀ e, idFault reg (req.str "driveId") = some e ↔ FaultOf reg (req.str "driveId") e := by
  constructor
  · intro h e
    rw [← replies_error_iff os luna reg req w, h.named]
  · intro h
    refine ⟨fun e => (replies_error_iff os luna reg req w e).trans (h e), fun hnone => ?_⟩
    have hfault : idFault reg (req.str "driveId") = none :=
      Option.eq_none_iff_forall_not_mem.2 fun e he => hnone e ((h e).1 he)
    rw [getPropertiesMethod_eq, hfault]

/-- An id without a partition part selects the only partition, another the one with its uuid. -/
theorem selectDrive_cases {dev : USBDeviceInfo} {subId : Str} {drive : USBDriveInfo} (h : selectDrive dev subId = some drive) :
    (subId = [] ∧ dev.storageDriveList.length = 1) ∨ (subId ≠ [] ∧ drive.uuid = subId) := by
  by_cases hsub : subId = []
  · refine .inl ⟨hsub, ?_⟩
    unfold selectDrive at h
    split at h
    · cases h
    case h_2 only hlist => rw [hlist, List.length_singleton]
    case h_3 =>
      rw [if_pos hsub] at h
      cases h
  · rw [selectDrive_eq_find? dev hsub] at h
    exact .inr ⟨hsub, by simpa using List.find?_some h⟩

/-- The name of a selected partition; one of several reads as missing when it has none. -/
theorem getDriveName_selected {reg : Registry} {driveId : Str} {dev : USBDeviceInfo} {drive : USBDriveInfo}
    (hdev : reg[(splitId driveId).1]? = some dev) (hselect : selectDrive dev (splitId driveId).2 = some drive) :
    getDriveName reg driveId =
      if drive.driveName = [] ∧ dev.storageDriveList.length ≠ 1 then "NO SUB".toList else drive.driveName := by
  simp only [getDriveName, hdev]
  unfold selectDrive at hselect
  split at hselect
  · cases hselect
  case h_2 only hlist =>
    obtain ⟨hsub, hi⟩ := Option.ite_none_right_eq_some.1 hselect
    rw [if_pos hsub, Option.some.inj hi, hlist, if_neg (by simp)]
  case h_3 hnone hmany =>
    obtain ⟨hsub, hi⟩ := Option.ite_none_left_eq_some.1 hselect
    have hlen : dev.storageDriveList.length ≠ 1 := by
      intro hone
      obtain ⟨only, hlist⟩ := List.length_eq_one_iff.1 hone
      exact hmany only hlist
    rw [if_neg hsub, hi]
    dsimp only
    by_cases hempty : drive.driveName = []
    · rw [if_pos hempty, if_pos ⟨hempty, hlen⟩]
    · rw [if_neg hempty, if_neg fun h => hempty h.1]

/-- No device has the serial number, or the id selects a partition; and when that is
mounted its name is no word for a fault, nor empty on a device with several. -/
def SoundId (reg : Registry) (driveId : Str) : Prop :=
  reg[(splitId driveId).1]? = none ∨
    ∃ dev drive, reg[(splitId driveId).1]? = some dev ∧ selectDrive dev (splitId driveId).2 = some drive ∧
      (drive.isMounted = true → drive.driveName ≠ "UUID".toList ∧ drive.driveName ≠ "NO SUB".toList ∧
        (drive.driveName = [] → dev.storageDriveList.length = 1))

theorem idFault_of_findDrive_none {reg : Registry} {driveId : Str} (h : findDrive reg driveId = none) :
    idFault reg driveId = some .usbStorageNotExists := by
  simp [idFault, isStorageIdExists, h]

theorem idFault_of_findDrive {reg : Registry} {driveId : Str} {drive : USBDriveInfo} (h : findDrive reg driveId = some drive) :
    idFault reg driveId =
      if drive.isMounted = false then some .driveNotMounted
      else if getDriveName reg driveId = "UUID".toList then some .morePartitionsInUsb
      else if getDriveName reg driveId = "NO SUB".toList then some .usbSubStorageNotExists
      else none := by
  have hexists : isStorageIdExists reg driveId = true := by rw [isStorageIdExists, h, Option.isSome_some]
  have hmounted : isStorageDriveMounted reg driveId = drive.isMounted := by rw [isStorageDriveMounted, h]
  rw [idFault, hexists, hmounted]
  cases drive.isMounted <;> rfl

/-- Without the device the only fault is that there is none. -/
theorem faultOf_of_no_device {reg : Registry} {driveId : Str} (h : reg[(splitId driveId).1]? = none) (e : USBErrors) :
    FaultOf reg driveId e ↔ e = .usbStorageNotExists := by
  cases e <;> simp [FaultOf, h, findDrive]

/-- Once a partition is selected the only fault is that it is not mounted. -/
theorem faultOf_selected {reg : Registry} {driveId : Str} {dev : USBDeviceInfo} {drive : USBDriveInfo}
    (hdev : reg[(splitId driveId).1]? = some dev) (hselect : selectDrive dev (splitId driveId).2 = some drive) (e : USBErrors) :
    FaultOf reg driveId e ↔ e = .driveNotMounted ∧ drive.isMounted = false := by
  have hfind : findDrive reg driveId = some drive := by rw [findDrive, hdev, Option.bind_some, hselect]
  cases e with
  | usbStorageNotExists => simp [FaultOf, hdev]
  | morePartitionsInUsb =>
    refine iff_of_false ?_ (by simp)
    rintro ⟨dev', hdev', hmany, hsub⟩
    cases hdev.symm.trans hdev'
    rcases selectDrive_cases hselect with ⟨-, hone⟩ | ⟨hne, -⟩
    · omega
    · exact hne hsub
  | usbSubStorageNotExists =>
    refine iff_of_false ?_ (by simp)
    rintro ⟨dev', hdev', hsub, hall⟩
    cases hdev.symm.trans hdev'
    rcases selectDrive_cases hselect with ⟨hnone, -⟩ | ⟨-, huuid⟩
    · exact hsub hnone
    · exact hall drive (mem_of_selectDrive hselect) huuid
  | driveNotMounted => simp [FaultOf, hfind]
  | moreAttachedStoragesThanUsb => simp [FaultOf]
  | usbDriveAlreadyEjected => simp [FaultOf]

/-- With a partition selected only the words a name may be mistaken for are left. -/
theorem soundId_selected {reg : Registry} {driveId : Str} {dev : USBDeviceInfo} {drive : USBDriveInfo}
    (hdev : reg[(splitId driveId).1]? = some dev) (hselect : selectDrive dev (splitId driveId).2 = some drive) :
    SoundId reg driveId ↔
      (drive.isMounted = true → drive.driveName ≠ "UUID".toList ∧ drive.driveName ≠ "NO SUB".toList ∧
        (drive.driveName = [] → dev.storageDriveList.length = 1)) := by
  constructor
  · rintro (h | ⟨dev', drive', hdev', hselect', hname⟩)
    · cases hdev.symm.trans h
    · cases hdev.symm.trans hdev'
      cases hselect.symm.trans hselect'
      exact hname
  · intro hname
    exact .inr ⟨dev, drive, hdev, hselect, hname⟩

theorem not_soundId_unselected {reg : Registry} {driveId : Str} {dev : USBDeviceInfo}
    (hdev : reg[(splitId driveId).1]? = some dev) (hselect : selectDrive dev (splitId driveId).2 = none) :
    ¬ SoundId reg driveId := by
  rintro (h | ⟨dev', drive, hdev', hselect', -⟩)
  · cases hdev.symm.trans h
  · cases hdev.symm.trans hdev'
    cases hselect.symm.trans hselect'

/-- The right fault is named exactly for such ids. An id that selects nothing on a device
that is there counts as one that does not exist, so the errors about partitions are not reached. -/
theorem names_fault_iff (os : Os) (luna : Luna) (reg : Registry) (req : RequestData) (w : World) :
    NamesFault os luna reg req w ↔ SoundId reg (req.str "driveId") := by
  rw [namesFault_iff_idFault]
  generalize req.str "driveId" = driveId
  cases hdev : reg[(splitId driveId).1]? with
  | none =>
    refine iff_of_true (fun e => ?_) (.inl hdev)
    rw [idFault_of_findDrive_none (by rw [findDrive, hdev]; rfl), faultOf_of_no_device hdev, Option.some.injEq, eq_comm]
  | some dev =>
    cases hselect : selectDrive dev (splitId driveId).2 with
    | none =>
      refine iff_of_false (fun h => ?_) (not_soundId_unselected hdev hselect)
      have hfind : findDrive reg driveId = none := by rw [findDrive, hdev, Option.bind_some, hselect]
      have hfault := (h .usbStorageNotExists).1 (idFault_of_findDrive_none hfind)
      rw [FaultOf, hdev] at hfault
      cases hfault
    | some drive =>
      have hfind : findDrive reg driveId = some drive := by rw [findDrive, hdev, Option.bind_some, hselect]
      rw [soundId_selected hdev hselect]
      simp only [faultOf_selected hdev hselect, idFault_of_findDrive hfind, getDriveName_selected hdev hselect]
      cases hm : drive.isMounted with
      | false => simp [eq_comm]
      | true =>
        by_cases hempty : drive.driveName = [] ∧ dev.storageDriveList.length ≠ 1
        · simp [hempty]
        · by_cases huuid : drive.driveName = "UUID".toList
          · simp [huuid]
          · by_cases hsub : drive.driveName = "NO SUB".toList
            · simp [hsub]
            · simp only [Bool.true_eq_false, if_false, if_neg hempty, if_neg huuid, if_neg hsub]
              grind

/-- A device with two partitions. -/
def twoPartitions : Registry :=
  (∅ : Registry).insert "S1".toList ⟨"usb".toList, 1,
    [⟨"sda1".toList, "/tmp/usb/sda1".toList, "A".toList, true⟩, ⟨"sda2".toList, "/tmp/usb/sda2".toList, "B".toList, true⟩]⟩

/-- A request that names the device and no partition. -/
def askDevice : RequestData :=
  ⟨.usb, .getPropMethod, (JValue.object.put "storageType" (.text "usb")).put "driveId" (.text "S1"), "guest".toList⟩

/-- The device is there and has two partitions, and the reply says that it does not exist. -/
theorem several_partitions_reported_missing :
    let w := (Service.start (FS.ofEntries [] FS.isTree_nil) ∅).world
    FaultOf twoPartitions "S1".toList .morePartitionsInUsb ∧
      newReplies w (getPropertiesMethod Os.quiet Env.quiet.luna twoPartitions askDevice w) = [usbError .usbStorageNotExists] ∧
      ¬ NamesFault Os.quiet Env.quiet.luna twoPartitions askDevice w := by
  intro w
  have hdev : twoPartitions[(splitId "S1".toList).1]? = some ⟨"usb".toList, 1,
      [⟨"sda1".toList, "/tmp/usb/sda1".toList, "A".toList, true⟩, ⟨"sda2".toList, "/tmp/usb/sda2".toList, "B".toList, true⟩]⟩ := by
    decide +kernel
  have hreply : newReplies w (getPropertiesMethod Os.quiet Env.quiet.luna twoPartitions askDevice w) =
      [usbError .usbStorageNotExists] := by
    rw [replies_error_iff]
    decide +kernel
  refine ⟨⟨_, hdev, by simp, rfl⟩, hreply, fun h => ?_⟩
  have hnone : twoPartitions[(splitId "S1".toList).1]? = none := (h.named .usbStorageNotExists).1 hreply
  rw [hdev] at hnone
  cases hnone

end StorageAccess.USBStorageProvider
