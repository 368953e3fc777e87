import StorageAccess.Proofs.Handlers
/-!
# The pages of a folder

The list code computes the first and the last index of a page in 32-bit
arithmetic and compares one of them with an unsigned 64-bit size. For the offsets
and limits the front end admits the page is the window that was asked for, and
successive pages put together are the folder, as far as the offsets go.
-/

open Posix Json

namespace StorageAccess.FolderContents

/-- The indices a loop from `start` up to `stop` visits. -/
def visited (start stop : Int) : List Int := (List.range (stop - start).toNat).map fun i : Nat => start + i

theorem mem_visited {start stop i : Int} : i ∈ visited start stop ↔ start ≤ i ∧ i < stop := by
  simp only [visited, List.mem_map, List.mem_range]
  constructor
  · rintro ⟨j, hj, rfl⟩
    omega
  · intro h
    exact ⟨(i - start).toNat, by omega, by omega⟩

theorem wrap32_of_range {x : Int} (h : -2 ^ 31 ≤ x) (h' : x < 2 ^ 31) : wrap32 x = x := by
  unfold wrap32
  omega

/-- A sum that is too large for an `int` comes out negative. -/
theorem wrap32_of_overflow {x : Int} (h : 2 ^ 31 ≤ x) (h' : x < 2 ^ 32) : wrap32 x = x - 2 ^ 32 := by
  unfold wrap32
  omega

theorem start_eq {n : Nat} (hn : n < 2 ^ 31) {offset : Int} (ho : 1 ≤ offset) (ho' : offset ≤ 100) :
    start n offset = if offset > n then (n : Int) + 1 else offset - 1 := by
  have hn₀ : wrap32 n = n := wrap32_of_range (by omega) (by omega)
  have hoff : wrap32 (offset - 1) = offset - 1 := wrap32_of_range (by omega) (by omega)
  simp only [start, hn₀, hoff]
  split
  case isTrue hbeyond =>
    rw [wrap32_of_range (by omega) (by omega), if_neg (by omega)]
  case isFalse => rw [if_neg (by omega)]

/-- A negative end is a huge unsigned number, so the comparison with the size already replaces it. -/
theorem stop_of_last {n : Nat} (hn : n < 2 ^ 31) {offset limit last : Int} (hw : wrap32 (limit + offset - 1) = last)
    (hl : -2 ^ 31 ≤ last) (hl' : last < 2 ^ 31) :
    stop n offset limit = if 0 ≤ last ∧ last ≤ n then last else (n : Int) := by
  have hn₀ : wrap32 n = n := wrap32_of_range (by omega) (by omega)
  simp only [stop, hn₀, hw]
  by_cases hneg : last < 0
  · have hmod : last % 2 ^ 64 = last + 2 ^ 64 := by omega
    have hbig : last + 2 ^ 64 > n := by omega
    have hsize : ¬ (n : Int) < 0 := by omega
    have hout : ¬ (0 ≤ last ∧ last ≤ n) := by omega
    simp only [hmod, if_pos hbig, if_neg hsize, if_neg hout]
  · have hmod : last % 2 ^ 64 = last := Int.emod_eq_of_lt (by omega) (by omega)
    rw [hmod]
    split <;> grind

/-- The end of a page is the end of the folder when the sum of limit and offset
overflows, is negative or lies beyond it. -/
theorem stop_eq {n : Nat} (hn : n < 2 ^ 31) {offset limit : Int} (ho : 1 ≤ offset) (ho' : offset ≤ 100)
    (hl : -2 ^ 31 ≤ limit) (hl' : limit < 2 ^ 31) :
    stop n offset limit = if 0 ≤ limit + offset - 1 ∧ limit + offset - 1 ≤ n then limit + offset - 1 else (n : Int) := by
  by_cases hbig : 2 ^ 31 ≤ limit + offset - 1
  · have hw := wrap32_of_overflow hbig (by omega)
    rw [stop_of_last hn hw (by omega) (by omega), if_neg (by omega), if_neg (by omega)]
  · exact stop_of_last hn (wrap32_of_range (by omega) (by omega)) (by omega) (by omega)

/-- A run of list entries, by their positions. -/
theorem take_drop_eq_filterMap {α : Type} (l : List α) (first count : Nat) :
    (l.drop first).take count = (List.range count).filterMap fun i => l[first + i]? := by
  induction count with
  | zero => rfl
  | succ count ih =>
    rw [List.take_add_one, ih, List.range_succ, List.filterMap_append, List.getElem?_drop]
    cases h : l[first + count]? <;> simp [h]

/-- A page holds the entries at the indices the loop visits. -/
theorem page_eq (c : FolderContents) {offset limit : Int} (h : 0 ≤ start c.contents.length offset) :
    c.page offset limit =
      (visited (start c.contents.length offset) (stop c.contents.length offset limit)).filterMap
        fun i => c.contents[i.toNat]? := by
  obtain ⟨first, hfirst⟩ := Int.eq_ofNat_of_zero_le h
  simp only [page, visited, hfirst, List.filterMap_map, Int.toNat_natCast]
  exact take_drop_eq_filterMap ..

/-- Every index the loop visits is in range, and for a limit that is not negative
the loop visits the window that was asked for. -/
theorem page_window (c : FolderContents) (hn : c.contents.length < 2 ^ 31 - 1) (offset limit : Int)
    (ho : 1 ≤ offset) (ho' : offset ≤ 100) (hl : -2 ^ 31 ≤ limit) (hl' : limit < 2 ^ 31) :
    let n := c.contents.length
    let indices := visited (start n offset) (stop n offset limit)
    (∀ i ∈ indices, 0 ≤ i ∧ i < n) ∧ c.page offset limit = indices.filterMap (fun i => c.contents[i.toNat]?) ∧
      (0 ≤ limit → ∀ i : Int, i ∈ indices ↔ offset - 1 ≤ i ∧ i < min (n : Int) (offset - 1 + limit)) := by
  intro n indices
  have hs : start n offset = _ := start_eq (by omega) ho ho'
  have he : stop n offset limit = _ := stop_eq (by omega) ho ho' hl hl'
  have hfirst : 0 ≤ start n offset := by rw [hs]; split <;> omega
  refine ⟨fun i hi => ?_, page_eq c hfirst, fun hpos i => ?_⟩
  · rw [mem_visited, hs, he] at hi
    grind
  · rw [mem_visited, hs, he]
    grind

def threeEntries : FolderContents := ⟨"/tmp".toList, List.replicate 3 ⟨"f".toList, "/tmp/f".toList, .regular, 0, []⟩, 0⟩

/-- With the largest limit the sum overflows, and the page still ends with the folder. -/
theorem page_window_overflow :
    (2 : Int) ∈ visited (start 3 3) (stop 3 3 (2 ^ 31 - 1)) ∧ (3 : Int) ∉ visited (start 3 3) (stop 3 3 (2 ^ 31 - 1)) := by
  have h := (page_window threeEntries (by decide) 3 (2 ^ 31 - 1) (by decide) (by decide) (by decide) (by decide)).2.2
    (by decide)
  exact ⟨(h 2).2 (by decide), fun h3 => absurd ((h 3).1 h3) (by decide)⟩

/-! ## Windows and slices -/

/-- The part of a list a page shows. -/
def window {α : Type} (l : List α) (offset limit : Int) : List α :=
  (l.drop (start l.length offset).toNat).take (stop l.length offset limit - start l.length offset).toNat

theorem map_window {α β : Type} (f : α → β) (l : List α) (offset limit : Int) :
    (window l offset limit).map f = window (l.map f) offset limit := by
  rw [window, window, List.map_take, List.map_drop, List.length_map]

/-- For an offset in range and a limit that is not negative, the window is a slice of the list. -/
theorem slice_eq {α : Type} (l : List α) (hn : l.length < 2 ^ 31) {offset limit : Int} (ho : 1 ≤ offset)
    (ho' : offset ≤ 100) (hl : 0 ≤ limit) (hl' : limit < 2 ^ 31) :
    window l offset limit = (l.drop (offset - 1).toNat).take limit.toNat := by
  rw [window, start_eq hn ho ho', stop_eq hn ho ho' (by omega) hl']
  by_cases hbeyond : offset > l.length
  · rw [if_pos hbeyond, List.drop_of_length_le (by omega), List.drop_of_length_le (by omega), List.take_nil,
      List.take_nil]
  rw [if_neg hbeyond]
  by_cases hin : 0 ≤ limit + offset - 1 ∧ limit + offset - 1 ≤ l.length
  · rw [if_pos hin, show limit + offset - 1 - (offset - 1) = limit by omega]
  · have hshort (n : Nat) (h : l.length ≤ (offset - 1).toNat + n) :
        (l.drop (offset - 1).toNat).take n = l.drop (offset - 1).toNat :=
      List.take_of_length_le (by rw [List.length_drop]; omega)
    rw [if_neg hin, hshort _ (by omega), hshort _ (by omega)]

/-- Slices of one length, put together. -/
theorem flatMap_slices {α : Type} (l : List α) (limit pages : Nat) :
    (List.range pages).flatMap (fun j => (l.drop (j * limit)).take limit) = l.take (pages * limit) := by
  induction pages with
  | zero => simp
  | succ pages ih =>
    rw [List.range_succ, List.flatMap_append, ih, Nat.succ_mul, List.take_add]
    simp

end StorageAccess.FolderContents

/-! ## The requests for the pages -/

namespace StorageAccess

open SAFUtilityOperation SAFLunaService FolderContents

/-- A list call for a page of `limit` entries, the pages counted from 0. -/
def atPage (payload : JValue) (limit index : Nat) : JValue :=
  (payload.put "limit" (.num limit)).put "offset" (.num (index * limit + 1 : Nat))

/-- The schema does not look at the value of a number. -/
theorem accepts_offset (fields : List (String × JValue)) (a b : Int) :
    (schema .listMethod).accepts (.obj (("offset", .num a) :: fields)) =
      (schema .listMethod).accepts (.obj (("offset", .num b) :: fields)) := by
  have hkey (key : String) : (JValue.obj (("offset", .num a) :: fields)).hasKey key =
      (JValue.obj (("offset", .num b) :: fields)).hasKey key := by
    simp only [JValue.hasKey, List.lookup_cons]
    split <;> rfl
  simp only [Schema.accepts, List.all_cons, hkey]
  rfl

theorem get_atPage {payload : JValue} (hobj : payload.isObject = true) (limit index : Nat) (key : String) :
    (atPage payload limit index).get key =
      if key = "offset" then .num (index * limit + 1 : Nat) else if key = "limit" then .num limit else payload.get key := by
  rw [atPage, JValue.get_put _ (by simpa using hobj), JValue.get_put _ hobj]

/-- Where the first page is accepted, so is every page whose offset is at most 100. -/
theorem accept_atPage {payload : JValue} {limit : Nat} {sessionId : Str} {first : RequestData}
    (h : accept .listMethod (atPage payload limit 0) sessionId = some first) {j : Nat} (hj : j * limit + 1 ≤ 100) :
    accept .listMethod (atPage payload limit j) sessionId = some { first with params := atPage payload limit j } := by
  have hobj : payload.isObject = true := by simpa [atPage] using isObject_of_accept h
  have hget := get_atPage hobj limit
  have hschema : (schema .listMethod).accepts (atPage payload limit j) =
      (schema .listMethod).accepts (atPage payload limit 0) := by
    cases payload with
    | obj fields => exact accepts_offset ..
    | null | bool | num | str | arr => simp [JValue.isObject] at hobj
  have htext : ∀ key ∈ ["storageType", "path", "driveId"], ∀ index, (atPage payload limit index).get key = payload.get key := by
    intro key hkey index
    simp only [List.mem_cons, List.not_mem_nil, or_false] at hkey
    rcases hkey with rfl | rfl | rfl <;> exact hget ..
  have hempty (index : Nat) : ((nonEmpty .listMethod).any fun key => ((atPage payload limit index).get key).asString = []) =
      ((nonEmpty .listMethod).any fun key => (payload.get key).asString = []) := by
    simp only [nonEmpty, List.any_cons, htext "storageType" (by simp), htext "path" (by simp), htext "driveId" (by simp),
      List.any_nil]
  -- the offset of every page is within the bounds of the request
  have hbounds : ∀ index, index * limit + 1 ≤ 100 → ¬ (((atPage payload limit index).get "offset").asInt < 1 ∨
      ((atPage payload limit index).get "offset").asInt > 100 ∨ ((atPage payload limit index).get "limit").asInt = -1) := by
    intro index hindex
    simp only [hget, JValue.asInt]
    simp
    omega
  simp only [accept, hschema, hempty, htext "storageType" (by simp)] at h ⊢
  split at h
  · cases h
  case isFalse hok =>
    rw [if_neg hok]
    split at h
    · cases h
    case isFalse hfull =>
      rw [if_neg (hbounds 0 (by omega))] at h
      rw [if_neg hfull, if_neg (hbounds j hj)]
      obtain ⟨type, htype, rfl⟩ := Option.map_eq_some_iff.1 h
      rw [htype]
      rfl

/-! ## The replies with the pages -/

/-- The JSON of an entry of a local folder. -/
def entryObject (sizeValue : Nat → JValue) (e : FolderContent) : JValue :=
  (((JValue.object.put "name" (.str e.name)).put "path" (.str e.path)).put "type" (.text e.type.text)).put "size"
    (sizeValue e.size)

/-- What a local provider lists of a folder. -/
def entryObjects (sizeValue : Nat → JValue) (env : Env) (s : Service) (req : RequestData) : List JValue :=
  (FolderContents.init env.os s.world.fs (req.str "path")).contents.map (entryObject sizeValue)

/-- The path of the request is a folder. -/
def IsFolder (env : Env) (s : Service) (req : RequestData) : Prop :=
  0 ≤ (FolderContents.init env.os s.world.fs (req.str "path")).status

/-- The session may list the folder of the request, and it has these entries. -/
inductive Lists (env : Env) (s : Service) (req : RequestData) : List JValue → Prop
  | internal (type : req.storageType = .internal)
      (path : SAFUtilityOperation.validateInternalPath s.world.fs (req.str "path") req.sessionId = true)
      (drive : req.str "driveId" = InternalStorageProvider.defaultInternalStorageId) (folder : IsFolder env s req) :
      Lists env s req (entryObjects sizeText env s req)
  | usb (type : req.storageType = .usb) (drive : USBStorageProvider.Mounted s.usb (req.str "driveId"))
      (folder : IsFolder env s req) : Lists env s req (entryObjects sizeText env s req)
  | samba (type : req.storageType = .network) (kind : NetworkProvider.isUpnp (req.str "driveId") = false)
      (owned : s.network.validateSambaOperation (req.str "driveId") req.sessionId = true)
      (path : validateSambaPath s.world.fs s.world.mSambaDrivePathMap (req.str "path") (req.str "driveId") = true)
      (folder : IsFolder env s req) : Lists env s req (entryObjects NetworkProvider.sizeNumber env s req)
  | cloud (type : req.storageType = .gdrive) (user : GDriveUserData)
      (owns : s.gdrive.Owns req.sessionId (req.str "driveId"))
      (known : s.gdrive.mDriveIdUserDataMap[req.str "driveId"]? = some user) (token : GDriveProvider.HasToken user)
      (found : (FileIndex.loadFileIds env.drive).getFileId (req.str "path") ≠ []) (entries : List JValue)
      (read : GDriveProvider.listPage env.drive ((FileIndex.loadFileIds env.drive).getFileMap (req.str "path")) =
        some entries) : Lists env s req entries

/-- The reply carries one page of the entries. -/
def IsPage (entries : List JValue) (limit index : Nat) (r : JValue) : Prop :=
  r.get "returnValue" = .bool true ∧ r.get "files" = .arr ((entries.drop (index * limit)).take limit)

/-- The numbers of a page, as the handlers read them. -/
theorem int_atPage {req : RequestData} {payload : JValue} {limit index : Nat} (hobj : payload.isObject = true)
    (hreq : req.params = atPage payload limit index) (hindex : index * limit + 1 ≤ 100) :
    req.int "offset" = (index * limit + 1 : Nat) ∧ req.int "limit" = (min limit (2 ^ 31 - 1) : Nat) := by
  constructor
  · rw [RequestData.int, hreq, get_atPage hobj, if_pos rfl, JValue.asInt]
    omega
  · rw [RequestData.int, hreq, get_atPage hobj, if_neg (by decide), if_pos rfl, JValue.asInt]
    omega

/-- The window of a page, for a list shorter than the largest `int`. -/
theorem window_atPage {α : Type} (l : List α) (hn : l.length < 2 ^ 31) {req : RequestData} {payload : JValue}
    {limit index : Nat} (hobj : payload.isObject = true) (hreq : req.params = atPage payload limit index)
    (hindex : index * limit + 1 ≤ 100) :
    window l (req.int "offset") (req.int "limit") = (l.drop (index * limit)).take limit := by
  obtain ⟨hoffset, hlimit⟩ := int_atPage hobj hreq hindex
  rw [slice_eq l hn (by omega) (by omega) (by omega) (by omega), hoffset, hlimit]
  rw [show ((index * limit + 1 : Nat) - 1 : Int).toNat = index * limit by omega, Int.toNat_natCast]
  rcases Nat.le_total limit (2 ^ 31 - 1) with h | h
  · rw [min_eq_left h]
  · rw [List.take_of_length_le (by rw [List.length_drop]; omega),
      List.take_of_length_le (by rw [List.length_drop]; omega)]

/-- The reply carries the entries from `offset` on, `limit` of them as the list code counts. -/
def HasWindow (entries : List JValue) (offset limit : Int) (r : JValue) : Prop :=
  r.get "returnValue" = .bool true ∧ r.get "files" = .arr (window entries offset limit)

theorem hasWindow_listReply (errorText : Int → String) (sizeValue : Nat → JValue) {env : Env} {s : Service}
    {req : RequestData} (hfolder : IsFolder env s req) (offset limit : Int) :
    let r := listReply errorText sizeValue (FolderContents.init env.os s.world.fs (req.str "path")) offset limit
    HasWindow (entryObjects sizeValue env s req) offset limit r ∧
      r.get "totalCount" = .num (entryObjects sizeValue env s req).length := by
  intro r
  have hr : r = _ := if_pos hfolder
  unfold entryObjects
  generalize FolderContents.init env.os s.world.fs (req.str "path") = c at hr ⊢
  rw [List.length_map]
  refine ⟨⟨by rw [hr]; rfl, ?_⟩, by rw [hr]; rfl⟩
  rw [← map_window, hr]
  rfl

/-- The drive gives the entry for the file. -/
def Reads (drive : Drive) (file : Str × Str) (entry : JValue) : Prop :=
  ∃ got about, drive.get file.2 = some got ∧ drive.about = some about ∧
    entry = GDriveProvider.fileObject file.1 got about

theorem listPage_eq_some_iff (drive : Drive) (files : List (Str × Str)) (entries : List JValue) :
    GDriveProvider.listPage drive files = some entries ↔ List.Forall₂ (Reads drive) files entries := by
  induction files generalizing entries with
  | nil => simp [GDriveProvider.listPage, eq_comm]
  | cons file files ih =>
    unfold GDriveProvider.listPage
    constructor
    · intro h
      split at h
      case h_1 got about rest hget habout hrest =>
        cases h
        exact .cons ⟨got, about, hget, habout, rfl⟩ ((ih rest).1 hrest)
      case h_2 => cases h
    · rintro (_ | ⟨⟨got, about, hget, habout, rfl⟩, hrest⟩)
      simp only [hget, habout, (ih _).2 hrest]

/-- The files of a slice are read as the slice of what the whole reads as. -/
theorem listPage_slice {drive : Drive} {files : List (Str × Str)} {entries : List JValue}
    (h : GDriveProvider.listPage drive files = some entries) (first count : Nat) :
    GDriveProvider.listPage drive ((files.drop first).take count) = some ((entries.drop first).take count) := by
  rw [listPage_eq_some_iff] at h ⊢
  exact List.forall₂_take count (List.forall₂_drop first h)

/-- A request for a part of a folder the session may list is answered with that part. -/
theorem Lists.reply {env : Env} {s : Service} {req : RequestData} {entries : List JValue} (h : Lists env s req entries)
    (hmethod : req.methodType = .listMethod) (hn : entries.length < 2 ^ 31) (ho : 1 ≤ req.int "offset")
    (ho' : req.int "offset" ≤ 100) :
    ∃ r, (s.handle env req).world.replies = s.world.replies ++ [r] ∧
      HasWindow entries (req.int "offset") (req.int "limit") r ∧
      (req.storageType ≠ .gdrive → r.get "totalCount" = .num entries.length) := by
  have hroute : route req = req.storageType := if_neg (by simp [hmethod])
  cases h with
  | internal type path drive folder =>
    have hr := hasWindow_listReply getInternalErrorString sizeText folder (req.int "offset") (req.int "limit")
    refine ⟨_, ?_, hr.1, fun _ => hr.2⟩
    simp only [Service.handle, hroute, type, InternalStorageProvider.handleRequests, hmethod,
      InternalStorageProvider.listFolderContents, InternalStorageProvider.checked, path, drive]
    rfl
  | usb type drive folder =>
    have hr := hasWindow_listReply getUSBErrorString sizeText folder (req.int "offset") (req.int "limit")
    refine ⟨_, ?_, hr.1, fun _ => hr.2⟩
    simp only [Service.handle, hroute, type, USBStorageProvider.handleRequests, hmethod,
      USBStorageProvider.listFolderContentsMethod, USBStorageProvider.checked, drive.1, drive.2]
    rfl
  | samba type kind owned path folder =>
    have hr := hasWindow_listReply getInternalErrorString NetworkProvider.sizeNumber folder (req.int "offset")
      (req.int "limit")
    refine ⟨_, ?_, hr.1, fun _ => hr.2⟩
    simp only [Service.handle, hroute, type, NetworkProvider.handleRequests, hmethod, NetworkProvider.list,
      NetworkProvider.validateOperation, kind, owned, path]
    rfl
  | cloud type user owns known token found _ read =>
    generalize hfiles : (FileIndex.loadFileIds env.drive).getFileMap (req.str "path") = files at read
    have hlen := ((listPage_eq_some_iff ..).1 read).length_eq
    have hstart : 0 ≤ start files.length (req.int "offset") := by
      rw [start_eq (hlen ▸ hn) ho ho']
      split <;> omega
    -- the files that are read are the window of the files, so the entries are that of the entries
    have hpage := listPage_slice read (start files.length (req.int "offset")).toNat
      (stop files.length (req.int "offset") (req.int "limit") - start files.length (req.int "offset")).toNat
    have hwindow : (entries.drop (start files.length (req.int "offset")).toNat).take
        (stop files.length (req.int "offset") (req.int "limit") - start files.length (req.int "offset")).toNat =
        window entries (req.int "offset") (req.int "limit") := by rw [window, hlen]
    rw [hwindow] at hpage
    refine ⟨(((JValue.object.put "returnValue" (.bool true)).put "files"
      (.arr (window entries (req.int "offset") (req.int "limit")))).put "fullPath" (.str (req.str "path"))).put "totalCount"
        (.num (window entries (req.int "offset") (req.int "limit")).length), ?_, ⟨rfl, rfl⟩, fun h => absurd type h⟩
    simp only [Service.handle, hroute, type, GDriveProvider.handleRequests, hmethod, GDriveProvider.list,
      GDriveProvider.guarded_of_owns owns known token, if_neg found, hfiles, Int.toNat_of_nonneg hstart, hpage]
    rfl

/-- A request for a page of a folder the session may list is answered with that page. -/
theorem Lists.page {env : Env} {s : Service} {req : RequestData} {entries : List JValue} (h : Lists env s req entries)
    (hmethod : req.methodType = .listMethod) (hn : entries.length < 2 ^ 31) {payload : JValue}
    (hobj : payload.isObject = true) {limit index : Nat} (hreq : req.params = atPage payload limit index)
    (hindex : index * limit + 1 ≤ 100) :
    ∃ r, (s.handle env req).world.replies = s.world.replies ++ [r] ∧ IsPage entries limit index r ∧
      (req.storageType ≠ .gdrive → r.get "totalCount" = .num entries.length) := by
  obtain ⟨hoffset, -⟩ := int_atPage hobj hreq hindex
  obtain ⟨r, hr, ⟨hok, hfiles⟩, hcount⟩ := h.reply hmethod hn (by omega) (by omega)
  rw [window_atPage entries hn hobj hreq hindex] at hfiles
  exact ⟨r, hr, ⟨hok, hfiles⟩, hcount⟩

/-- In any states in which the folder has the same entries, the pages with offsets
up to 100 are accepted and answered, and put together they are the folder as far
as they go. -/
theorem folder_by_pages {payload : JValue} {sessionId : Str} {limit : Nat} {first : RequestData}
    (hfirst : accept .listMethod (atPage payload limit 0) sessionId = some first) {pages : Nat}
    (hpages : ∀ j < pages, j * limit + 1 ≤ 100) {entries : List JValue} (hn : entries.length < 2 ^ 31) (env : Nat → Env)
    (s : Nat → Service)
    (hlists : ∀ j < pages, Lists (env j) (s j) { first with params := atPage payload limit j } entries) :
    ∃ reply : Nat → JValue,
      (∀ j < pages, ∃ req, accept .listMethod (atPage payload limit j) sessionId = some req ∧
        ((s j).handle (env j) req).world.replies = (s j).world.replies ++ [reply j] ∧
        (reply j).get "returnValue" = .bool true ∧
        (first.storageType ≠ .gdrive → (reply j).get "totalCount" = .num entries.length)) ∧
      (List.range pages).flatMap (fun j => ((reply j).get "files").items) = entries.take (pages * limit) := by
  have hobj : payload.isObject = true := by simpa [atPage] using isObject_of_accept hfirst
  have hmethod := methodType_of_accept hfirst
  have hpage : ∀ j, ∃ r, j < pages →
      ((s j).handle (env j) { first with params := atPage payload limit j }).world.replies = (s j).world.replies ++ [r] ∧
        IsPage entries limit j r ∧ (first.storageType ≠ .gdrive → r.get "totalCount" = .num entries.length) := by
    intro j
    by_cases hj : j < pages
    · obtain ⟨r, hr⟩ := (hlists j hj).page hmethod hn hobj rfl (hpages j hj)
      exact ⟨r, fun _ => hr⟩
    · exact ⟨.null, fun h => absurd h hj⟩
  choose reply hreply using hpage
  refine ⟨reply, fun j hj => ?_, ?_⟩
  · obtain ⟨hr, hp, hc⟩ := hreply j hj
    exact ⟨_, accept_atPage hfirst (hpages j hj), hr, hp.1, hc⟩
  · rw [← flatMap_slices]
    apply List.flatMap_congr
    intro j hj
    rw [(hreply j (List.mem_range.1 hj)).2.1.2]
    rfl

/-- A folder with 101 files. -/
def hundredAndOne : FS :=
  FS.ofEntries ((["tmp".toList], .dir) :: (List.range 101).map fun i =>
    (["tmp".toList, [Char.ofNat (i + 256)]], .file [])) (by decide)

def folderCall : JValue :=
  ((JValue.object.put "storageType" (.text "internal")).put "driveId" (.text "INTERNAL_STORAGE")).put "path" (.text "/tmp")

def folderPage (limit index : Nat) : RequestData :=
  ⟨.internal, .listMethod, atPage folderCall limit index, "guest".toList⟩

/-- The entries of the folder. -/
def folderEntries : List JValue :=
  (FolderContents.init Os.quiet hundredAndOne "/tmp".toList).contents.map (entryObject sizeText)

theorem folder_readable :
    SAFUtilityOperation.validateInternalPath hundredAndOne "/tmp".toList "guest".toList = true ∧
      0 ≤ (FolderContents.init Os.quiet hundredAndOne "/tmp".toList).status := by
  decide +kernel

/-- The paths of the folder's visible entries. -/
def visiblePaths : List Str :=
  ((hundredAndOne.children ["tmp".toList]).map ("/tmp".toList ++ '/' :: ·)).filter (!FolderContent.hidden ·)

theorem folderEntries_eq_map :
    folderEntries = (visiblePaths.map (FolderContent.init Os.quiet hundredAndOne)).map (entryObject sizeText) := by
  have hvalid : validateInternalPath hundredAndOne "/tmp".toList = true := rfl
  have hdir : hundredAndOne.status (components "/tmp".toList) = .found ["tmp".toList] .dir := rfl
  simp only [folderEntries, FolderContents.init, hvalid, Bool.not_true, Bool.false_eq_true, if_false, hdir]
  rfl

theorem folderEntries_length_le : folderEntries.length ≤ 103 := by
  have hnames : hundredAndOne.names.length = 103 := by simp [hundredAndOne, FS.ofEntries]
  rw [folderEntries_eq_map, List.length_map, List.length_map]
  calc visiblePaths.length
    _ ≤ (hundredAndOne.children ["tmp".toList]).length := (List.length_filter_le ..).trans (List.length_map _).le
    _ ≤ hundredAndOne.names.length := (List.dedup_sublist _).length_le.trans (List.length_filterMap_le ..)
    _ = 103 := hnames

/-- The names of the folder's files. -/
def fileName (i : Nat) : Name := [Char.ofNat (i + 256)]

theorem fileName_injective {i j : Nat} (hi : i < 101) (hj : j < 101) (h : fileName i = fileName j) : i = j := by
  have hcode : ∀ k < 101, (Char.ofNat (k + 256)).toNat = k + 256 := by decide
  have hchar := congrArg Char.toNat (List.cons.inj h).1
  rw [hcode i hi, hcode j hj] at hchar
  omega

theorem fileName_mem_children {i : Nat} (hi : i < 101) : fileName i ∈ hundredAndOne.children ["tmp".toList] := by
  rw [FS.mem_children]
  refine FS.get_ofEntries_ne_none _ (List.mem_cons_of_mem _ ?_)
  rw [List.map_map]
  exact List.mem_map.2 ⟨i, List.mem_range.2 hi, rfl⟩

theorem length_folderEntries_ge : 101 ≤ folderEntries.length := by
  have hvisible : ∀ i < 101, (!FolderContent.hidden ("/tmp".toList ++ '/' :: fileName i)) = true := by decide
  have hnodup : ((List.range 101).map fun i => "/tmp".toList ++ '/' :: fileName i).Nodup := by
    refine List.Nodup.map_on (fun i hi j hj h => ?_) List.nodup_range
    exact fileName_injective (List.mem_range.1 hi) (List.mem_range.1 hj) (List.cons.inj (List.append_cancel_left h)).2
  have hsub : ((List.range 101).map fun i => "/tmp".toList ++ '/' :: fileName i) ⊆ visiblePaths := by
    intro path hp
    obtain ⟨i, hi, rfl⟩ := List.mem_map.1 hp
    have hlt := List.mem_range.1 hi
    exact List.mem_filter.2 ⟨List.mem_map_of_mem (fileName_mem_children hlt), hvisible i hlt⟩
  have hlen := hnodup.length_le_of_subset hsub
  rwa [List.length_map, List.length_range, ← List.length_map (f := FolderContent.init Os.quiet hundredAndOne),
    ← List.length_map (f := entryObject sizeText), ← folderEntries_eq_map] at hlen

theorem lists_folder (limit index : Nat) :
    Lists Env.quiet (Service.start hundredAndOne ∅) (folderPage limit index) folderEntries := by
  have hpath : (folderPage limit index).str "path" = "/tmp".toList := rfl
  have hentries : entryObjects sizeText Env.quiet (Service.start hundredAndOne ∅) (folderPage limit index) =
      folderEntries := by
    simp only [entryObjects, hpath]
    rfl
  rw [← hentries]
  refine .internal rfl ?_ rfl ?_
  · rw [hpath]
    exact folder_readable.1
  · unfold IsFolder
    rw [hpath]
    exact folder_readable.2

theorem two_pages_of_fifty :
    ∃ reply : Nat → JValue,
      (∀ j < 2, ∃ req, accept .listMethod (atPage folderCall 50 j) "guest".toList = some req ∧
        ((Service.start hundredAndOne ∅).handle Env.quiet req).world.replies = [reply j] ∧
        (reply j).get "returnValue" = .bool true ∧
        (StorageType.internal ≠ .gdrive → (reply j).get "totalCount" = .num folderEntries.length)) ∧
      (List.range 2).flatMap (fun j => ((reply j).get "files").items) = folderEntries.take (2 * 50) := by
  have hfirst : accept .listMethod (atPage folderCall 50 0) "guest".toList = some (folderPage 50 0) := rfl
  exact folder_by_pages hfirst (by omega) (folderEntries_length_le.trans_lt (by omega)) (fun _ => Env.quiet)
    (fun _ => Service.start hundredAndOne ∅) fun j _ => lists_folder 50 j

/-- The front end refuses the second page of a folder of 101 entries with 100 to a page. -/
theorem second_hundred_refused :
    Lists Env.quiet (Service.start hundredAndOne ∅) (folderPage 100 0) folderEntries ∧ 1 * 100 + 1 ≤ folderEntries.length ∧
      accept .listMethod (atPage folderCall 100 0) "guest".toList = some (folderPage 100 0) ∧
      accept .listMethod (atPage folderCall 100 1) "guest".toList = none :=
  ⟨lists_folder 100 0, length_folderEntries_ge, rfl, rfl⟩

end StorageAccess
