import StorageAccess.Proofs.Drives
import StorageAccess.Proofs.Replies
import StorageAccess.Proofs.Transfers
/-!
# The internal storage and the drives mounted in it

Network drives are mounted in `/tmp`, which is a root of the internal storage of
every session, and the internal provider knows nothing of drives. It keeps out of
a mount directory exactly as far as its requests work on places apart from it:
`foreign_mounts_kept_out` shows that no more is needed.
-/

open Posix Json

namespace StorageAccess

open SAFUtilityOperation

/-! ## Keeping out of a place -/

/-- A reply names the path in a list of files. -/
def Shows (r : JValue) (path : Str) : Prop := ∃ e ∈ (r.get "files").items, (e.get "path").asString = path

/-- No path at or below `M` is listed, changed or removed. -/
structure KeptOut (M : Loc) (w w' : World) : Prop where
  files : ∀ m, M <+: m → w'.fs.get m = w.fs.get m
  lists : ∀ r ∈ newReplies w w', ∀ path, Shows r path →
    ∀ l nd, w.fs.symlinkStatus (components path) = .found l nd → ¬ M <+: l

theorem not_shows_of_get {r : JValue} (h : r.get "files" = .null) (path : Str) : ¬ Shows r path := by
  rintro ⟨e, he, -⟩
  rw [h] at he
  cases he

/-- Files that stay as they are at and below `M`, and one reply that lists nothing. -/
theorem keptOut_reply {M : Loc} {w w₁ : World} {r : JValue} (hfiles : ∀ m, M <+: m → w₁.fs.get m = w.fs.get m)
    (hreplies : w₁.replies = w.replies) (hr : r.get "files" = .null) : KeptOut M w (w₁.reply r) where
  files := hfiles
  lists := by
    intro r' hr' path hl
    replace hr' := (mem_newReplies_reply rfl hreplies).1 hr'
    exact absurd (hr' ▸ hl) (not_shows_of_get hr path)

/-- The handler did nothing but refuse. -/
theorem keptOut_refusals {M : Loc} {w : World} {rs : List JValue} (h : ∀ r ∈ rs, r.get "files" = .null) :
    KeptOut M w { w with replies := w.replies ++ rs } where
  files _ _ := rfl
  lists := by
    intro r hr path hl
    rw [newReplies_of_append rfl] at hr
    exact absurd hl (not_shows_of_get (h r hr) path)

theorem get_files_refusals {w : World} {req : RequestData} {r : JValue} (h : r ∈ refusals w req) :
    r.get "files" = .null := by
  have he : ∀ e : Endpoint, e.reply.get "files" = .null := fun e => by cases e <;> rfl
  rcases List.mem_append.1 h with h | h
  · split at h
    · rw [List.mem_singleton.1 h]; rfl
    · cases h
  · obtain ⟨e, -, rfl⟩ := Option.map_eq_some_iff.1 (Option.mem_toList.1 h)
    exact he e

theorem get_files_statusReply (errorText : Int → String) (status : Int) :
    (statusReply errorText status).get "files" = .null := by
  unfold statusReply
  split <;> rfl

theorem get_files_transferReply (errorText : Int → String) (status : Int) :
    (transferReply errorText status).get "files" = .null := by
  unfold transferReply
  split <;> rfl

/-! ## Places apart from a mount directory -/

/-- The folder the path leads to is neither in `M` nor the one `M` stands in. -/
def FolderApart (fs : FS) (path : Str) (M : Loc) : Prop :=
  ∀ l, fs.status (components path) = .found l .dir → ¬ M <+: l ∧ (l = M.dropLast → fs.get M = none)

/-- The entry the path names is apart from `M`, or nothing stands at `M`. -/
def EntryApart (fs : FS) (path : Str) (M : Loc) : Prop :=
  ∀ l nd, fs.symlinkStatus (components path) = .found l nd → Apart l M ∨ fs.get M = none

/-- The place of the new name is apart from `M`. -/
def NewNameApart (fs : FS) (path newName : Str) (M : Loc) : Prop :=
  let new := components (dirPart path ++ untilNul newName)
  newName ≠ [] → '/' ∉ newName → ∀ l, fs.locate .follow new.dropLast = .ok l → Apart (l ++ [new.getLastD []]) M

/-- The place a transfer writes to is apart from `M`, and no link stands there. -/
def WritesApart (fs : FS) (srcPath destPath : Str) (M : Loc) : Prop :=
  ∀ l, fs.locate .make (components (Transfer.place fs srcPath destPath)) = .ok l → Apart l M ∧ fs.LinkFree l

/-- The folder of the session is there, or its directories are made at a place apart from `M`. -/
def OwnFolderApart (fs : FS) (sessionId : Str) (M : Loc) : Prop :=
  fs.exists? (components (internalFolder sessionId)) = true ∨
    ∃ D, Apart D M ∧ FS.LeadsInto D fs (components (internalFolder sessionId))

/-! ## The operations -/

/-- The entries of a listed folder stand in it. -/
theorem entry_of_init {os : Os} {fs : FS} {fullPath : Str} {e : FolderContent}
    (h : e ∈ (FolderContents.init os fs fullPath).contents) :
    ∃ l n, fs.status (components fullPath) = .found l .dir ∧ n ∈ fs.children l ∧
      components e.path = components fullPath ++ [n] := by
  unfold FolderContents.init at h
  split at h
  · cases h
  case isFalse hv =>
  split at h
  case h_2 => cases h
  case h_1 l hl =>
    obtain ⟨entryPath, hmem, rfl⟩ := List.mem_map.1 h
    obtain ⟨n, hn, rfl⟩ := List.mem_map.1 (List.mem_filter.1 hmem).1
    have hlast := (Transfer.validated (by simpa using hv)).2.1
    exact ⟨l, n, hl, hn, components_child hlast (Job.isName_of_mem_children hn)⟩

theorem mem_page {c : FolderContents} {offset limit : Int} {e : FolderContent} (h : e ∈ c.page offset limit) :
    e ∈ c.contents := List.mem_of_mem_drop (List.mem_of_mem_take h)

theorem shows_listReply {errorText : Int → String} {sizeValue : Nat → JValue} {c : FolderContents} {offset limit : Int}
    {path : Str} (h : Shows (listReply errorText sizeValue c offset limit) path) : ∃ e ∈ c.contents, e.path = path := by
  unfold listReply at h
  split at h
  case isFalse => exact absurd h (not_shows_of_get rfl path)
  case isTrue =>
    obtain ⟨j, hj, rfl⟩ := h
    obtain ⟨e, he, rfl⟩ := List.mem_map.1 hj
    exact ⟨e, mem_page he, rfl⟩

/-- A folder apart from `M` lists no entry of it. -/
theorem keptOut_list {os : Os} {M : Loc} {w : World} {path : Str} {offset limit : Int} (h : FolderApart w.fs path M)
    (errorText : Int → String) (sizeValue : Nat → JValue) :
    KeptOut M w ((getListFolderContents os w path).1.reply
      (listReply errorText sizeValue (FolderContents.init os w.fs path) offset limit)) where
  files _ _ := rfl
  lists := by
    intro r hr entryPath hl l' nd hk hM
    replace hr := (mem_newReplies_reply rfl rfl).1 hr
    obtain ⟨e, he, rfl⟩ := shows_listReply (hr ▸ hl)
    obtain ⟨l, n, hs, hn, hc⟩ := entry_of_init he
    obtain ⟨hbelow, hparent⟩ := h l hs
    have hplace := (FS.look_found.1 hk).1
    rw [hc, FS.locate_child hs (Job.isName_of_mem_children hn) .keep (.inl rfl)] at hplace
    obtain rfl : l ++ [n] = l' := by
      split at hplace
      · cases hplace
      · exact Except.ok.inj hplace
    -- the entry is `M` itself, so that the folder is the one `M` stands in
    have hMeq : M = l ++ [n] := (List.prefix_concat_iff.1 hM).resolve_right hbelow
    exact FS.mem_children.1 hn (hMeq ▸ hparent (by rw [hMeq, List.dropLast_concat]))

theorem removeAll_get_of_entryApart {fs fs' : FS} (stuck : Loc → Bool) {path : Str} {M m : Loc}
    (h : EntryApart fs path M) (hm : M <+: m) (hget : fs'.get m = fs.get m)
    (hsame : ∀ l nd, fs'.symlinkStatus (components path) = .found l nd →
      ∃ nd', fs.symlinkStatus (components path) = .found l nd') :
    (fs'.removeAll stuck (components path)).1.get m = fs.get m := by
  by_cases hM : fs.get M = none
  · have hnone := FS.get_eq_none_below hM hm
    rw [hnone] at hget ⊢
    cases hr : (fs'.removeAll stuck (components path)).1.get m with
    | none => rfl
    | some nd => rw [FS.get_of_removeAll hr] at hget; cases hget
  · rw [FS.removeAll_get_of_not_prefix fs' stuck (components path) fun l nd hl => ?_, hget]
    obtain ⟨nd', hl'⟩ := hsame l nd hl
    exact fun hp => ((h l nd' hl').resolve_right hM).not_both hp hm

theorem remove_get {os : Os} {fs : FS} {path : Str} {M m : Loc} (h : EntryApart fs path M) (hm : M <+: m) :
    (InternalRemove.init os fs path).1.get m = fs.get m := by
  unfold InternalRemove.init
  split
  · exact removeAll_get_of_entryApart os.stuck h hm rfl fun l nd hl => ⟨nd, hl⟩
  · rfl

theorem rename_get {os : Os} {fs : FS} {path newName : Str} {M m : Loc} (h : EntryApart fs path M)
    (hnew : NewNameApart fs path newName M) (hm : M <+: m) :
    (InternalRename.init os fs path newName).1.get m = fs.get m := by
  unfold InternalRename.init
  split
  · rfl
  split
  · rfl
  case isFalse hname =>
    obtain ⟨hne, hslash⟩ := not_or.1 hname
    refine FS.rename_get fs os.renameRefused _ _ (fun l nd hl hp => ?_) fun l hl hp => ?_
    · exact FS.get_eq_none_below ((h l nd hl).resolve_left fun ha => ha.not_both hp hm) hm
    · exact (hnew hne hslash l hl).not_both hp hm

theorem apart_ne_nil {l M : Loc} (h : Apart l M) : l ≠ [] := by
  rintro rfl
  exact h.1 List.nil_prefix

/-- A copy that writes apart from `M`. -/
theorem copy_get {os : Os} {fs : FS} {srcPath destPath : Str} {overwrite : Bool} {M m : Loc}
    (h : WritesApart fs srcPath destPath M) (hm : M <+: m) :
    (InternalCopy.init os fs srcPath destPath overwrite).1.get m = fs.get m := by
  cases hplace : fs.locate .make (components (Transfer.place fs srcPath destPath)) with
  | ok l =>
    obtain ⟨hapart, hlink⟩ := h l hplace
    refine (Transfer.grew_copied (apart_ne_nil hapart) (fun l' hl' => ?_) hlink).within m fun hp => hapart.not_both hp hm
    obtain rfl := Except.ok.inj (hplace.symm.trans hl')
    exact List.prefix_refl l
  | error e =>
    -- the path leads nowhere, so nothing is written anywhere
    have hlink := fs.linkFree_unnamed m
    refine (Transfer.grew_copied (by simp) (fun l hl => ?_) hlink).within m fun hp => ?_
    · rw [hplace] at hl; cases hl
    · have hlen := hp.length_le
      rw [List.length_append, List.length_singleton] at hlen
      omega

/-- A move that also takes its source from apart from `M`. -/
theorem move_get {os : Os} {fs : FS} {srcPath destPath : Str} {overwrite : Bool} {M m : Loc}
    (h : WritesApart fs srcPath destPath M) (hs : EntryApart fs srcPath M) (hm : M <+: m) :
    (InternalMove.init os fs srcPath destPath overwrite).1.get m = fs.get m := by
  have hcopy : (InternalCopy.init os fs srcPath destPath overwrite).1.get m = fs.get m := copy_get h hm
  rcases Transfer.move_cases os fs srcPath destPath overwrite with e | ⟨hv, e⟩ <;> rw [e]
  · exact hcopy
  · refine removeAll_get_of_entryApart os.stuck hs hm hcopy ?_
    intro l nd hl
    -- the copy leaves the source where it was
    obtain ⟨-, -, l', nd', hfound⟩ := Transfer.validated hv
    obtain ⟨o, nd₀, ho⟩ := FS.symlinkStatus_of_status hfound
    obtain ⟨nd₁, ho', -⟩ :=
      FS.look_of_extends (Transfer.grew_copy os fs srcPath destPath overwrite).extends_ (by decide) ho
    obtain ⟨rfl, -⟩ := FS.Lookup.found.inj (ho'.symm.trans hl)
    exact ⟨nd₀, ho⟩

/-- The folder of a session is made apart from `M`, and so it is when it is asked for again. -/
theorem getInternalPath_apart (os : Os) {w : World} {sessionId : Str} {M : Loc} (h : OwnFolderApart w.fs sessionId M) :
    (∀ m, M <+: m → (getInternalPath os w sessionId).1.fs.get m = w.fs.get m) ∧
      OwnFolderApart (getInternalPath os w sessionId).1.fs sessionId M := by
  unfold getInternalPath
  dsimp only
  split
  · exact ⟨fun _ _ => rfl, h⟩
  case isFalse hno =>
    obtain ⟨D, hD, hleads⟩ := h.resolve_left hno
    have hgrew : FS.Grew D w.fs (w.fs.createDirectories os.mkdirFault (components (internalFolder sessionId))).1 :=
      FS.grew_createDirectories hleads
    split
    all_goals
      next e =>
        rw [World.log_fs] at e
        rw [e] at hgrew
        exact ⟨fun m hm => hgrew.within m fun hp => hD.not_both hp hm, .inr ⟨D, hD, hleads.grew hgrew⟩⟩

/-! ## The handlers -/

namespace InternalStorageProvider

/-- The checks of `list`, `remove` and `rename` let the request pass. -/
def Accepted (req : RequestData) (w : World) : Prop :=
  SAFUtilityOperation.validateInternalPath w.fs (req.str "path") req.sessionId = true ∧
    req.str "driveId" = defaultInternalStorageId

/-- A request for properties that looks for the folder of the session. -/
def SeeksFolder (req : RequestData) (w : World) : Prop :=
  req.str "driveId" = defaultInternalStorageId ∧
    (req.str "path" = [] ∨ SAFUtilityOperation.validateInternalPath w.fs (req.str "path") req.sessionId = true)

/-- The transfer gets past all checks. -/
def Transfers (req : RequestData) (w : World) : Prop :=
  Ready req ∧ Passes w req ∧ Transfer.begins w.fs (req.str "srcPath") (req.str "destPath") (req.flag "overwrite") = true

/-- What the request works on, unless it is refused, is apart from `M`. -/
def StaysOut (req : RequestData) (w : World) (M : Loc) : Prop :=
  match req.methodType with
  | .listMethod => Accepted req w → FolderApart w.fs (req.str "path") M
  | .getPropMethod => SeeksFolder req w → OwnFolderApart w.fs req.sessionId M
  | .removeMethod => Accepted req w → EntryApart w.fs (req.str "path") M
  | .renameMethod => Accepted req w →
      EntryApart w.fs (req.str "path") M ∧ NewNameApart w.fs (req.str "path") (req.str "newName") M
  | .copyMethod => Transfers req w → WritesApart w.fs (req.str "srcPath") (req.str "destPath") M
  | .moveMethod => Transfers req w →
      WritesApart w.fs (req.str "srcPath") (req.str "destPath") M ∧ EntryApart w.fs (req.str "srcPath") M
  | _ => True

variable {M : Loc} {req : RequestData} {w : World}

theorem keptOut_checked {go : World → World} (hgo : Accepted req w → KeptOut M w (go w)) :
    KeptOut M w (checked req w go) := by
  unfold checked
  split
  · exact keptOut_reply (fun _ _ => rfl) rfl rfl
  case isFalse hv =>
  split
  · exact keptOut_reply (fun _ _ => rfl) rfl rfl
  case isFalse hd => exact hgo ⟨by simpa using hv, (not_not.1 hd).symm⟩

theorem get_files_describe (i : InternalSpaceInfo) (modTime : Str) (storageType : Option Str) (whole : Bool) :
    (i.describe modTime storageType whole (JValue.object.put "returnValue" (.bool true))).get "files" = .null := by
  cases storageType <;> cases whole <;> rfl

theorem keptOut_getProperties (os : Os) (h : SeeksFolder req w → OwnFolderApart w.fs req.sessionId M) :
    KeptOut M w (getProperties os req w) := by
  have hreplies := sought_replies os req w
  have hseeks (own : req.str "driveId" = defaultInternalStorageId)
      (hv : req.str "path" = [] ∨
        SAFUtilityOperation.validateInternalPath (sought os req w).1.fs (sought os req w).2 req.sessionId = true) :
      OwnFolderApart w.fs req.sessionId M := by
    refine h ⟨own, ?_⟩
    by_cases hp : req.str "path" = []
    · exact .inl hp
    · rw [sought, if_neg hp] at hv
      exact .inr (hv.resolve_left hp)
  have hfiles (own : req.str "driveId" = defaultInternalStorageId) (m : Loc) (hm : M <+: m) :
      (sought os req w).1.fs.get m = w.fs.get m := by
    unfold sought
    split
    case isTrue hp => exact (getInternalPath_apart os (hseeks own (.inl hp))).1 m hm
    case isFalse => rfl
  have hstep := propertiesStep os req w
  generalize getProperties os req w = w' at hstep
  cases hstep with
  | otherDrive => exact keptOut_reply (fun _ _ => rfl) rfl rfl
  | refused own => exact keptOut_reply (hfiles own) hreplies rfl
  | failed own => exact keptOut_reply (hfiles own) hreplies rfl
  | described own valid done op =>
    have hown : OwnFolderApart (sought os req w).1.fs req.sessionId M := by
      have hw := hseeks own (.inr valid)
      unfold sought
      split
      · exact (getInternalPath_apart os hw).2
      · exact hw
    have hmade := (getInternalPath_apart os (w := (sought os req w).1.logIf done op) hown).1
    have hagain := getInternalPath_replies os ((sought os req w).1.logIf done op) req.sessionId
    exact keptOut_reply (fun m hm => (hmade m hm).trans (hfiles own m hm)) (hagain.trans hreplies) (get_files_describe ..)

theorem keptOut_transfer {go : World → World} (hgo : Ready req → Passes w req → KeptOut M w (go w)) :
    KeptOut M w (transfer req w go) := by
  unfold transfer
  split
  · exact keptOut_reply (fun _ _ => rfl) rfl rfl
  case isFalse hid =>
    rcases validate_cases w req with ⟨-, e⟩ | ⟨hp, e⟩ <;> simp only [e]
    · exact keptOut_refusals fun r hr => get_files_refusals hr
    · exact hgo (not_not.1 hid).symm hp

/-- A transfer that changes nothing in `M`, answered once. -/
theorem keptOut_polled (os : Os) (h : ∀ m, M <+: m → (transferOp os req w).1.fs.get m = w.fs.get m) :
    KeptOut M w (polled getInternalErrorString os req w) := by
  rw [polled_eq]
  refine keptOut_reply h ?_ (get_files_transferReply ..)
  unfold transferOp
  split <;> rfl

/-- The request works on a path, or copies or moves. -/
def WorksOnPaths (req : RequestData) : Prop :=
  req.methodType ∈ [.listMethod, .getPropMethod, .removeMethod, .renameMethod] ∨ IsTransfer req

theorem keptOut_handleRequests (os : Os) (hreq : WorksOnPaths req) (h : StaysOut req w M) :
    KeptOut M w (handleRequests os req w) := by
  unfold StaysOut at h
  by_cases ht : IsTransfer req
  · rw [handleRequests_transfer os ht]
    refine keptOut_transfer fun hr hp => keptOut_polled os fun m hm => ?_
    by_cases hb : Transfer.begins w.fs (req.str "srcPath") (req.str "destPath") (req.flag "overwrite") = true
    case neg =>
      obtain ⟨hc, hmv⟩ := Transfer.refused_of_not_begins (by simpa using hb) os
      unfold transferOp
      split
      · exact congrArg (·.get m) hmv
      · exact congrArg (·.get m) hc
    rcases ht with hc | hmv
    · rw [hc] at h
      simp only [transferOp, hc, reduceCtorEq, if_false]
      exact copy_get (h ⟨hr, hp, hb⟩) hm
    · rw [hmv] at h
      simp only [transferOp, hmv, if_true]
      exact move_get (h ⟨hr, hp, hb⟩).1 (h ⟨hr, hp, hb⟩).2 hm
  unfold handleRequests
  cases hm : req.methodType with
  | listMethod => rw [hm] at h; exact keptOut_checked fun ha => keptOut_list (h ha) _ _
  | getPropMethod => rw [hm] at h; exact keptOut_getProperties os h
  | removeMethod =>
    rw [hm] at h
    exact keptOut_checked fun ha => keptOut_reply (fun m hM => remove_get (h ha) hM) rfl (get_files_statusReply ..)
  | renameMethod =>
    rw [hm] at h
    exact keptOut_checked fun ha =>
      keptOut_reply (fun m hM => rename_get (h ha).1 (h ha).2 hM) rfl (get_files_statusReply ..)
  | copyMethod | moveMethod => simp [IsTransfer, hm] at ht
  | ejectMethod | listStoragesMethod | extraMethod => simp [WorksOnPaths, IsTransfer, hm] at hreq

end InternalStorageProvider

/-! ## Runs -/

/-- A drive of another session is mounted at `M`. -/
def ForeignMount (s : Service) (sessionId : Str) (M : Loc) : Prop :=
  ∃ driveId owner path : Str, s.network.mSambaSessionData[driveId]? = some owner ∧ owner ≠ sessionId ∧
    s.network.mSambaPathMap[driveId]? = some path ∧ s.world.fs.locate .make (components path) = .ok M

/-- The internal provider handles the request, which works on paths and copies or moves between internal ones only. -/
def WorksInside (req : RequestData) : Prop :=
  route req = .internal ∧ InternalStorageProvider.WorksOnPaths req ∧
    (IsTransfer req → req.str "srcStorageType" = "internal".toList ∧ req.str "destStorageType" = "internal".toList)

/-- Such a request works on places apart from the mounts of other sessions. -/
def StaysOut (s : Service) : Service.Label → Prop
  | .request _ req => WorksInside req →
      ∀ M, ForeignMount s req.sessionId M → InternalStorageProvider.StaysOut req s.world M
  | _ => True

/-- Such a request lists, changes and removes nothing in the mounts of other sessions. -/
def KeepsOut (s : Service) : Service.Label → Prop
  | .request env req => WorksInside req →
      ∀ M, ForeignMount s req.sessionId M → KeptOut M s.world (s.handle env req).world
  | _ => True

/-- In every run whose internal requests stay apart from other sessions' mounts, these are kept out of. -/
theorem foreign_mounts_kept_out (fs : FS) (cloud : Table CloudFile) (ls : List Service.Label)
    (hls : Runs.Meets Service.step StaysOut (Service.start fs cloud) ls) :
    Runs.Meets Service.step KeepsOut (Service.start fs cloud) ls := by
  apply hls.imp
  intro s l hl
  cases l with
  | devices root req => trivial
  | others fs cloud => trivial
  | request env req =>
    intro hreq M hM
    simp only [Service.handle, hreq.1]
    exact InternalStorageProvider.keptOut_handleRequests env.os hreq.2.1 (hl hreq M hM)

/-- A session removes a path through the internal storage. -/
def internalRemove (path sessionId : String) : RequestData :=
  ⟨.internal, .removeMethod, (JValue.object.put "driveId" (.text "INTERNAL_STORAGE")).put "path" (.text path),
    sessionId.toList⟩

theorem worksInside_internalRemove (path sessionId : String) : WorksInside (internalRemove path sessionId) := by
  refine ⟨rfl, .inl (by simp [internalRemove]), fun h => ?_⟩
  rcases h with h | h <;> cases h

theorem mounted_owners {driveId owner : Str} (h : mounted.network.mSambaSessionData[driveId]? = some owner) :
    (driveId = "SAMBA_1".toList ∧ owner = "guest".toList) ∨ (driveId = "SAMBA_2".toList ∧ owner = "guest2".toList) := by
  have hkeys : mounted.network.mSambaSessionData.keys = ["SAMBA_1".toList, "SAMBA_2".toList] := rfl
  have hmem : driveId ∈ mounted.network.mSambaSessionData.keys :=
    Std.ExtTreeMap.mem_keys.2 ((Table.mem_iff_get _).2 ⟨owner, h⟩)
  rw [hkeys] at hmem
  rcases List.mem_pair.1 hmem with rfl | rfl
  · have howner : mounted.network.mSambaSessionData["SAMBA_1".toList]? = some "guest".toList := rfl
    exact .inl ⟨rfl, Option.some.inj (h.symm.trans howner)⟩
  · have howner : mounted.network.mSambaSessionData["SAMBA_2".toList]? = some "guest2".toList := rfl
    exact .inr ⟨rfl, Option.some.inj (h.symm.trans howner)⟩

theorem foreign_mount_of_guest {M : Loc} (h : ForeignMount mounted "guest".toList M) :
    M = ["tmp".toList, "nas_12:34:56_70".toList] := by
  obtain ⟨driveId, owner, path, ho, hne, hp, hM⟩ := h
  rcases mounted_owners ho with ⟨-, rfl⟩ | ⟨rfl, -⟩
  · exact absurd rfl hne
  · have hpath : mounted.network.mSambaPathMap["SAMBA_2".toList]? = some "/tmp/nas_12:34:56_70".toList := by
      decide +kernel
    obtain rfl := Option.some.inj (hp.symm.trans hpath)
    have hplace : mounted.world.fs.status (components "/tmp/nas_12:34:56_70".toList) =
        .found ["tmp".toList, "nas_12:34:56_70".toList] .dir := by decide +kernel
    exact Except.ok.inj (hM.symm.trans (FS.make_of_status hplace))

/-- A session removes the mount directory of its own drive and leaves the other alone. -/
theorem own_mount_removed :
    Runs.Meets Service.step KeepsOut (Service.start twoMounts ∅)
      (mounts ++ [.request Env.quiet (internalRemove "/tmp/nas_12:34:56_7" "guest")]) := by
  refine foreign_mounts_kept_out twoMounts ∅ _ ⟨fun h => ?_, fun h => ?_, fun _ M hM _ l nd hl => ?_, trivial⟩
  · exact absurd h.1 (by decide)
  · exact absurd h.1 (by decide)
  · rw [foreign_mount_of_guest hM]
    have hown : mounted.world.fs.symlinkStatus (components "/tmp/nas_12:34:56_7".toList) =
        .found ["tmp".toList, "nas_12:34:56_7".toList] .dir := rfl
    obtain ⟨rfl, -⟩ := FS.Lookup.found.inj (hl.symm.trans hown)
    exact .inl (apart_concat (r := ["tmp".toList]) (by decide))

/-- A session removes the mount directory of another session's drive. -/
theorem foreign_mount_removed :
    ¬ Runs.Meets Service.step KeepsOut (Service.start twoMounts ∅)
      (mounts ++ [.request Env.quiet (internalRemove "/tmp/nas_12:34:56_70" "guest")]) := by
  rintro ⟨-, -, h, -⟩
  have hM : ForeignMount mounted "guest".toList ["tmp".toList, "nas_12:34:56_70".toList] :=
    ⟨"SAMBA_2".toList, "guest2".toList, "/tmp/nas_12:34:56_70".toList, rfl, by decide, rfl,
      rfl⟩
  have hkept := (h (worksInside_internalRemove _ _) _ hM).files _ (List.prefix_refl _)
  revert hkept
  decide +kernel

end StorageAccess
