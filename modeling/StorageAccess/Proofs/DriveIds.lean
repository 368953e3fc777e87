import StorageAccess.Model.Usb
/-!
# USB drive ids

A drive id is a device's serial number, `-` and a partition's uuid. Looking an id
up cuts it at its first `-`, which is the one between them only when the serial
number holds none.
-/

open Posix Json

namespace StorageAccess.USBStorageProvider

/-! ## Cutting an id -/

@[simp]
theorem splitId_dash (s : Str) : splitId ('-' :: s) = ([], s) := rfl

theorem splitId_cons {c : Char} (hc : c ≠ '-') (s : Str) : splitId (c :: s) = (c :: (splitId s).1, (splitId s).2) := by
  simp [splitId, hc]

theorem splitId_append {serial : Str} (h : '-' ∉ serial) (uuid : Str) : splitId (serial ++ '-' :: uuid) = (serial, uuid) := by
  induction serial with
  | nil => rfl
  | cons c serial ih =>
    obtain ⟨hc, hs⟩ := not_or.1 (List.mem_cons.not.1 h)
    rw [List.cons_append, splitId_cons (Ne.symm hc), ih hs]

/-- The parts an id is cut into make it up again, and the second ends in the uuid. -/
theorem splitId_parts (serial uuid : Str) :
    ∃ main rest, splitId (serial ++ '-' :: uuid) = (main, rest ++ uuid) ∧ '-' ∉ main ∧
      main ++ '-' :: (rest ++ uuid) = serial ++ '-' :: uuid := by
  induction serial with
  | nil => exact ⟨[], [], rfl, List.not_mem_nil, rfl⟩
  | cons c serial ih =>
    by_cases hc : c = '-'
    · subst hc
      exact ⟨[], serial ++ ['-'], by simp, List.not_mem_nil, by simp⟩
    · obtain ⟨main, rest, hsplit, hmain, hid⟩ := ih
      refine ⟨c :: main, rest, ?_, by simp [hmain, Ne.symm hc], by simp [hid]⟩
      rw [List.cons_append, splitId_cons hc, hsplit]

/-! ## The devices of a reply -/

def serial (device : JValue) : Str := (device.get "serialNumber").asString

def partitions (device : JValue) : List JValue := (device.get "storageDriveList").items

/-- The devices of a reply, each with one of its partitions. -/
def drives (root : JValue) : List (JValue × JValue) :=
  (infoList root).flatMap fun device => (partitions device).map fun drive => (device, drive)

/-- The id the answer gives a partition. -/
def idOf (d : JValue × JValue) : Str := serial d.1 ++ '-' :: (driveInfo d.2).uuid

/-- What the device manager's replies look like. -/
structure WellFormed (root : JValue) : Prop where
  returns : (root.get "returnValue").asBool = true
  oneList : (root.get "deviceListInfo").items.length ≤ 1
  serials : ∀ device ∈ infoList root, device.hasKey "serialNumber" = true
  distinct : ((infoList root).map serial).Nodup
  names : ∀ device ∈ infoList root, ∀ drive ∈ partitions device, (driveInfo drive).driveName ≠ []
  uuids : ∀ device ∈ infoList root, ∀ drive ∈ partitions device, (driveInfo drive).uuid ≠ []
  distinctUuids : ∀ device ∈ infoList root, ((partitions device).map fun drive => (driveInfo drive).uuid).Nodup

theorem mem_drives {root : JValue} {d : JValue × JValue} :
    d ∈ drives root ↔ d.1 ∈ infoList root ∧ d.2 ∈ partitions d.1 := by
  obtain ⟨device, drive⟩ := d
  simp only [drives, List.mem_flatMap, List.mem_map, Prod.mk.injEq]
  constructor
  · rintro ⟨device', hd, drive', hp, rfl, rfl⟩
    exact ⟨hd, hp⟩
  · rintro ⟨hd, hp⟩
    exact ⟨device, hd, drive, hp, rfl, rfl⟩

/-! ## The registry after a reply -/

/-- Among items with distinct keys a search finds the item with the key. -/
theorem find?_eq_some_iff {α : Type} {key : α → Str} {l : List α} (hn : (l.map key).Nodup) (k : Str) (x : α) :
    l.find? (fun y => key y = k) = some x ↔ x ∈ l ∧ key x = k := by
  induction l with
  | nil => simp
  | cons a l ih =>
    obtain ⟨ha, hl⟩ := List.nodup_cons.1 (List.map_cons ▸ hn)
    by_cases hk : key a = k
    · subst hk
      simp only [List.find?_cons_of_pos, decide_true, Option.some.injEq, List.mem_cons]
      constructor
      · rintro rfl
        exact ⟨.inl rfl, rfl⟩
      · rintro ⟨rfl | hx, hkey⟩
        · rfl
        · exact absurd (List.mem_map.2 ⟨x, hx, hkey⟩) ha
    · rw [List.find?_cons_of_neg (by simpa using hk), ih hl, List.mem_cons]
      constructor
      · rintro ⟨hx, rfl⟩
        exact ⟨.inr hx, rfl⟩
      · rintro ⟨rfl | hx, rfl⟩
        · exact absurd rfl hk
        · exact ⟨hx, rfl⟩

theorem get_populateDeviceInfo {root : JValue} (h : WellFormed root) (s : Str) :
    (populateDeviceInfo root)[s]? = ((infoList root).find? fun device => serial device = s).map deviceInfo := by
  have hinsert : populateDeviceInfo root =
      (infoList root).foldl (fun reg device => reg.insert (serial device) (deviceInfo device)) ∅ :=
    List.foldl_ext _ _ _ fun reg device hd => if_pos (h.serials device hd)
  rw [hinsert, Table.get_foldl_insert ∅ serial deviceInfo h.distinct]
  simp

/-- An id with a second part selects by uuid, however many partitions there are. -/
theorem selectDrive_eq_find? (dev : USBDeviceInfo) {subId : Str} (h : subId ≠ []) :
    selectDrive dev subId = dev.storageDriveList.find? fun drive => drive.uuid = subId := by
  unfold selectDrive
  split
  case h_1 e => rw [e]; rfl
  case h_2 drive e => by_cases hu : drive.uuid = subId <;> simp [e, h, hu]
  case h_3 => rw [if_neg h]

/-- What an id finds after a reply: the partition with its second part as uuid on
the device with its first part as serial number. -/
theorem findDrive_eq_some_iff {root : JValue} (h : WellFormed root) {id main subId : Str}
    (hsplit : splitId id = (main, subId)) (hsub : subId ≠ []) (info : USBDriveInfo) :
    findDrive (populateDeviceInfo root) id = some info ↔
      ∃ d ∈ drives root, serial d.1 = main ∧ (driveInfo d.2).uuid = subId ∧ driveInfo d.2 = info := by
  have hdevice (device : JValue) (hd : device ∈ infoList root) :
      selectDrive (deviceInfo device) subId = some info ↔
        ∃ drive ∈ partitions device, (driveInfo drive).uuid = subId ∧ driveInfo drive = info := by
    have hn : ((partitions device).map driveInfo).map (·.uuid) = (partitions device).map fun drive => (driveInfo drive).uuid := by
      rw [List.map_map]; rfl
    rw [selectDrive_eq_find? _ hsub]
    refine (find?_eq_some_iff (hn ▸ h.distinctUuids device hd) subId info).trans ?_
    constructor
    · rintro ⟨hi, hu⟩
      obtain ⟨drive, hp, rfl⟩ := List.mem_map.1 hi
      exact ⟨drive, hp, hu, rfl⟩
    · rintro ⟨drive, hp, hu, rfl⟩
      exact ⟨List.mem_map.2 ⟨drive, hp, rfl⟩, hu⟩
  rw [findDrive, hsplit, get_populateDeviceInfo h, Option.bind_map, Option.bind_eq_some_iff]
  constructor
  · rintro ⟨device, hfind, hselect⟩
    obtain ⟨hd, hs⟩ := (find?_eq_some_iff h.distinct main device).1 hfind
    obtain ⟨drive, hp, hu, hi⟩ := (hdevice device hd).1 hselect
    exact ⟨(device, drive), mem_drives.2 ⟨hd, hp⟩, hs, hu, hi⟩
  · rintro ⟨⟨device, drive⟩, hm, hs, hu, hi⟩
    obtain ⟨hd, hp⟩ := mem_drives.1 hm
    exact ⟨device, (find?_eq_some_iff h.distinct main device).2 ⟨hd, hs⟩, (hdevice device hd).2 ⟨drive, hp, hu, hi⟩⟩

/-! ## Round trips -/

theorem getDriveName_of_findDrive {reg : Registry} {id : Str} {info : USBDriveInfo} (h : findDrive reg id = some info)
    (hname : info.driveName ≠ []) : getDriveName reg id = info.driveName := by
  obtain ⟨dev, hdev, hselect⟩ := Option.bind_eq_some_iff.1 h
  simp only [getDriveName, hdev]
  unfold selectDrive at hselect
  split at hselect
  case h_1 => cases hselect
  case h_2 drive e =>
    obtain ⟨hsub, hi⟩ := Option.ite_none_right_eq_some.1 hselect
    rw [if_pos hsub, Option.some.inj hi]
  case h_3 hne hne' =>
    obtain ⟨hsub, hi⟩ := Option.ite_none_left_eq_some.1 hselect
    simp [hsub, hi, hname]

/-- The look-ups of an id give what the partition says of itself. -/
def RoundTrips (reg : Registry) (id : Str) (info : USBDriveInfo) : Prop :=
  isStorageIdExists reg id = true ∧ getDriveName reg id = info.driveName ∧ isStorageDriveMounted reg id = info.isMounted

theorem roundTrips_iff {reg : Registry} {id : Str} {info : USBDriveInfo}
    (hnames : ∀ found, findDrive reg id = some found → found.driveName ≠ []) :
    RoundTrips reg id info ↔
      ∃ found, findDrive reg id = some found ∧ found.driveName = info.driveName ∧ found.isMounted = info.isMounted := by
  unfold RoundTrips isStorageIdExists isStorageDriveMounted
  cases hf : findDrive reg id with
  | none => simp
  | some found => simp [getDriveName_of_findDrive hf (hnames found hf)]

/-- The partition's device has no `-` in its serial number, or another partition
has the same id, a serial number without one, the same name and the same flag. -/
def Decodes (root : JValue) (d : JValue × JValue) : Prop :=
  '-' ∉ serial d.1 ∨ ∃ other ∈ drives root, '-' ∉ serial other.1 ∧ idOf other = idOf d ∧
    (driveInfo other.2).driveName = (driveInfo d.2).driveName ∧ (driveInfo other.2).isMounted = (driveInfo d.2).isMounted

theorem roundTrips_idOf_iff {root : JValue} (h : WellFormed root) {d : JValue × JValue} (hd : d ∈ drives root) :
    RoundTrips (populateDeviceInfo root) (idOf d) (driveInfo d.2) ↔ Decodes root d := by
  obtain ⟨main, rest, hsplit, hmain, hid⟩ := splitId_parts (serial d.1) (driveInfo d.2).uuid
  have huuid := h.uuids d.1 (mem_drives.1 hd).1 d.2 (mem_drives.1 hd).2
  have hfind := findDrive_eq_some_iff h hsplit (by simp [huuid])
  -- another drive is found under the id exactly when its serial has no dash and the ids agree
  have hcut (other : JValue × JValue) : (serial other.1 = main ∧ (driveInfo other.2).uuid = rest ++ (driveInfo d.2).uuid) ↔
      ('-' ∉ serial other.1 ∧ idOf other = idOf d) := by
    constructor
    · rintro ⟨rfl, hu⟩
      exact ⟨hmain, by rw [idOf, hu, hid, idOf]⟩
    · rintro ⟨hs, he⟩
      have := splitId_append hs (driveInfo other.2).uuid
      rw [← idOf, he, idOf, hsplit] at this
      exact ⟨(congrArg Prod.fst this).symm, (congrArg Prod.snd this).symm⟩
  have hnames : ∀ found, findDrive (populateDeviceInfo root) (idOf d) = some found → found.driveName ≠ [] := by
    intro found hf
    obtain ⟨other, ho, -, -, rfl⟩ := (hfind found).1 hf
    exact h.names other.1 (mem_drives.1 ho).1 other.2 (mem_drives.1 ho).2
  rw [roundTrips_iff hnames]
  constructor
  · rintro ⟨found, hf, hname, hmounted⟩
    obtain ⟨other, ho, hs, hu, rfl⟩ := (hfind found).1 hf
    obtain ⟨hdash, he⟩ := (hcut other).1 ⟨hs, hu⟩
    exact .inr ⟨other, ho, hdash, he, hname, hmounted⟩
  · intro hdec
    obtain ⟨other, ho, hdash, he, hname, hmounted⟩ : ∃ other ∈ drives root, '-' ∉ serial other.1 ∧ idOf other = idOf d ∧
        (driveInfo other.2).driveName = (driveInfo d.2).driveName ∧
        (driveInfo other.2).isMounted = (driveInfo d.2).isMounted :=
      hdec.elim (fun hdash => ⟨d, hd, hdash, rfl, rfl, rfl⟩) fun ho => ho
    obtain ⟨hs, hu⟩ := (hcut other).2 ⟨hdash, he⟩
    exact ⟨driveInfo other.2, (hfind _).2 ⟨other, ho, hs, hu, rfl⟩, hname, hmounted⟩

theorem forall₂_flatMap_map {α β γ : Type} {R : α × β → γ → Prop} {f : α → β → γ} {l : List α} {parts : α → List β}
    (h : ∀ a ∈ l, ∀ b ∈ parts a, R (a, b) (f a b)) :
    List.Forall₂ R (l.flatMap fun a => (parts a).map fun b => (a, b)) (l.flatMap fun a => (parts a).map (f a)) := by
  have hmap : (l.flatMap fun a => (parts a).map (f a)) =
      (l.flatMap fun a => (parts a).map fun b => (a, b)).map fun d => f d.1 d.2 := by
    simp [List.map_flatMap, Function.comp_def]
  rw [hmap, List.forall₂_map_right_iff, List.forall₂_same]
  rintro ⟨a, b⟩ hab
  simp only [List.mem_flatMap, List.mem_map, Prod.mk.injEq] at hab
  obtain ⟨a', ha, b', hb, rfl, rfl⟩ := hab
  exact h a' ha b' hb

/-- The answer's entries are the partitions, in the order of the devices, each with its id. -/
theorem answer_entries {root : JValue} (h : WellFormed root) :
    List.Forall₂ (fun d entry => entry.get "driveId" = .str (idOf d)) (drives root)
      ((parseListOfStorages root).get "usb").items := by
  have hone : ¬ ((root.get "returnValue").asBool && (root.get "deviceListInfo").items.length > 1) = true := by
    simpa [h.returns] using h.oneList
  unfold parseListOfStorages
  extract_lets devices member entries
  have hdevices : devices = infoList root := if_pos h.returns
  rw [if_neg hone, JValue.get_put_self _ JValue.isObject_object]
  -- the members of an entry do not touch each other
  have hmember (name key : String) (v : JValue) {obj : JValue} (ho : obj.isObject = true) :
      (member name v key obj).isObject = true ∧ (name ≠ "driveId" → (member name v key obj).get "driveId" = obj.get "driveId") := by
    unfold member
    split
    · exact ⟨by simpa using ho, fun hn => by rw [JValue.get_put _ ho, if_neg hn.symm]⟩
    · exact ⟨ho, fun _ => rfl⟩
  simp only [JValue.items, entries, hdevices]
  apply forall₂_flatMap_map
  intro device hd drive hp
  have huuid : drive.hasKey "uuid" = true := by
    by_contra hk
    exact h.uuids device hd drive hp (by simp [driveInfo, JValue.get_of_not_hasKey hk, JValue.asString])
  obtain ⟨ho, -⟩ := hmember "driveName" "driveName" drive JValue.isObject_object
  generalize hobj : member "driveName" drive "driveName" JValue.object = obj at ho ⊢
  have hput : (obj.put "driveId" (.str (idOf (device, drive)))).isObject = true := by simpa using ho
  obtain ⟨hfs, hget⟩ := hmember "fileSystem" "fsType" drive hput
  obtain ⟨-, hget'⟩ := hmember "path" "mountName" drive hfs
  rw [if_pos huuid]
  refine (hget' (by decide)).trans ((hget (by decide)).trans ?_)
  exact JValue.get_put_self _ ho _ _

/-- After a reply of the device manager every id in the answer to it looks up its
own partition exactly when it decodes to that partition or to one like it. -/
theorem drive_ids_round_trip_iff {root : JValue} (h : WellFormed root) (req : RequestData) (w : World) :
    let reg := (onListStoragesMethodReply root req w).1
    List.Forall₂ (fun d entry => RoundTrips reg (idOf d) (driveInfo d.2) ∧ entry.get "driveId" = .str (idOf d)) (drives root)
        ((parseListOfStorages root).get "usb").items ↔ ∀ d ∈ drives root, Decodes root d := by
  intro reg
  rw [List.forall₂_and_left]
  constructor
  · intro hall d hd
    exact (roundTrips_idOf_iff h hd).1 (hall.1 d hd)
  · intro hall
    exact ⟨fun d hd => (roundTrips_idOf_iff h hd).2 (hall d hd), answer_entries h⟩

def partition (name uuid : String) : JValue :=
  ((((JValue.object.put "driveName" (.text name)).put "uuid" (.text uuid)).put "isMounted" (.bool true))).put "mountName"
    (.text ("/tmp/usb/" ++ name))

def deviceList (devices : List (String × List JValue)) : JValue :=
  (JValue.object.put "returnValue" (.bool true)).put "storageDeviceList"
    (.arr (devices.map fun d => (JValue.object.put "serialNumber" (.text d.1)).put "storageDriveList" (.arr d.2)))

/-- A stick with two partitions, one of them with a `-` in its uuid. -/
def oneStick : JValue := deviceList [("A", [partition "sda1" "1", partition "sda2" "2-3"])]

/-- A stick whose serial number holds a `-`. -/
def dashedStick : JValue := deviceList [("A-B", [partition "sda1" "1"])]

theorem oneStick_wellFormed : WellFormed oneStick := by
  constructor <;> decide +kernel

theorem dashedStick_wellFormed : WellFormed dashedStick := by
  constructor <;> decide +kernel

def listCall : RequestData := ⟨.usb, .listStoragesMethod, JValue.object, "guest".toList⟩

def noWorld : World := ⟨FS.ofEntries [] FS.isTree_nil, ∅, ∅, [], []⟩

theorem oneStick_round_trips :
    List.Forall₂ (fun d entry => RoundTrips (onListStoragesMethodReply oneStick listCall noWorld).1 (idOf d) (driveInfo d.2) ∧
      entry.get "driveId" = .str (idOf d)) (drives oneStick) ((parseListOfStorages oneStick).get "usb").items :=
  (drive_ids_round_trip_iff oneStick_wellFormed listCall noWorld).2 fun d hd => .inl (by
    have hall : ∀ d ∈ drives oneStick, '-' ∉ serial d.1 := by decide
    exact hall d hd)

/-- The id the answer gives the partition is not found. -/
theorem dashedStick_not_found :
    WellFormed dashedStick ∧
      (((parseListOfStorages dashedStick).get "usb").items.map fun entry => (entry.get "driveId").asString) =
        ["A-B-1".toList] ∧
      isStorageIdExists (onListStoragesMethodReply dashedStick listCall noWorld).1 "A-B-1".toList = false :=
  ⟨dashedStick_wellFormed, rfl, rfl⟩

end StorageAccess.USBStorageProvider
