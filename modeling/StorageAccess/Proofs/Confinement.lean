import StorageAccess.Lib.Prefixes
import StorageAccess.Proofs.Handlers
/-!
# Where accepted paths lead

The path checks compare strings, while the kernel resolves components. For each
kind of storage a theorem says exactly which accepted paths stay inside it: those
that go on from the string of a root with whole components and never climb above
it, and those that come back to a root after a `..`.
-/

open Posix Json

namespace StorageAccess

open SAFUtilityOperation

/-! ## The internal storage of a session -/

/-- The home of a session whose id is a file name. -/
def home (sessionId : Str) : Loc := ["home".toList, sessionId]

/-- `/media`, `/tmp` and `/home/<sessionId>`. -/
def rootPaths (sessionId : Str) : List Str := ["/media".toList, "/tmp".toList, homePrefix sessionId]

/-- Where they lead. -/
def roots (sessionId : Str) : List Loc := (rootPaths sessionId).map lexical

/-- The path is at or below a root of the session, and in no other session's home. -/
structure Confined (sessionId path : Str) : Prop where
  root : ∃ root ∈ roots sessionId, root <+: lexical path
  foreign : ∀ other, IsName other → other ≠ sessionId → ¬ home other <+: lexical path

/-- What it takes to stay confined. A session id that is no file name has no home of
its own, and its root may even be another session's home. -/
structure StaysConfined (sessionId path : Str) : Prop where
  named : IsName sessionId → ∃ root ∈ rootPaths sessionId, GoesOnFrom root path ∨ ComesBackTo (lexical root) path
  unnamed : ¬ IsName sessionId → (∃ root ∈ roots sessionId, StaysBelow root path) ∧
    ∀ other, IsName other → other ≠ sessionId → ¬ StaysBelow (home other) path

theorem lexical_homePrefix {sessionId : Str} (h : IsName sessionId) : lexical (homePrefix sessionId) = home sessionId := by
  have hc : components (homePrefix sessionId) = home sessionId :=
    components_append_name "/home".toList h
  rw [lexical, hc]
  apply collapse_names
  intro c hmem
  rcases List.mem_pair.1 hmem with rfl | rfl
  · decide
  · exact ⟨h.2.1, h.2.2.1⟩

theorem lexical_media : lexical "/media".toList = ["media".toList] := by decide

theorem lexical_tmp : lexical "/tmp".toList = ["tmp".toList] := by decide

/-- A named session's roots do not reach into another session's home. -/
theorem roots_foreign {sessionId other : Str} (h : IsName sessionId) (hne : other ≠ sessionId) {root l : Loc}
    (hr : root ∈ roots sessionId) (hl : root <+: l) : ¬ home other <+: l := by
  simp only [roots, rootPaths, List.map_cons, List.map_nil, lexical_homePrefix h, lexical_media, lexical_tmp] at hr
  have hapart : Apart root (home other) := by
    rcases List.mem_cons.1 hr with rfl | hr
    · simp [Apart, home]
    rcases List.mem_pair.1 hr with rfl | rfl
    · simp [Apart, home]
    · exact apart_concat (r := ["home".toList]) hne.symm
  exact hapart.not_both hl

/-- A named session's roots differ in their first name, which is also how they are written. -/
theorem first_of_root {sessionId root : Str} (h : IsName sessionId) (hr : root ∈ rootPaths sessionId) :
    ∃ n ∈ ["media".toList, "tmp".toList, "home".toList], '/' :: n <+: root ∧ (lexical root).head? = some n ∧
      ∀ root' ∈ rootPaths sessionId, (lexical root').head? = some n → root' = root := by
  have hhome : (lexical (homePrefix sessionId)).head? = some "home".toList := by rw [lexical_homePrefix h]; rfl
  have hmedia : (lexical "/media".toList).head? = some "media".toList := by rw [lexical_media]; rfl
  have htmp : (lexical "/tmp".toList).head? = some "tmp".toList := by rw [lexical_tmp]; rfl
  simp only [rootPaths, List.mem_cons, List.not_mem_nil, or_false] at hr ⊢
  rcases hr with rfl | rfl | rfl
  · refine ⟨_, .inl rfl, List.prefix_refl _, hmedia, ?_⟩
    rintro _ (rfl | rfl | rfl) he
    · rfl
    · exact absurd (htmp.symm.trans he) (by decide)
    · exact absurd (hhome.symm.trans he) (by decide)
  · refine ⟨_, .inr (.inl rfl), List.prefix_refl _, htmp, ?_⟩
    rintro _ (rfl | rfl | rfl) he
    · exact absurd (hmedia.symm.trans he) (by decide)
    · rfl
    · exact absurd (hhome.symm.trans he) (by decide)
  · refine ⟨_, .inr (.inr rfl), ⟨'/' :: sessionId, rfl⟩, hhome, ?_⟩
    rintro _ (rfl | rfl | rfl) he
    · exact absurd (hmedia.symm.trans he) (by decide)
    · exact absurd (htmp.symm.trans he) (by decide)
    · rfl

/-- The last component of a named session's root is a name. -/
theorem baseName_root {sessionId root : Str} (h : IsName sessionId) (hr : root ∈ rootPaths sessionId) :
    '/' ∈ root ∧ baseName root ≠ [] ∧ baseName root ≠ dot ∧ baseName root ≠ dotdot := by
  simp only [rootPaths, List.mem_cons, List.not_mem_nil, or_false] at hr
  rcases hr with rfl | rfl | rfl
  · decide
  · decide
  · have hid : baseName (homePrefix sessionId) = sessionId := baseName_below "/home".toList h.2.2.2.1
    rw [hid]
    exact ⟨List.mem_cons_self, h.1, h.2.1, h.2.2.1⟩

/-- Of the paths that begin with the string of a root, those at or below a root. -/
theorem prefix_root_iff {sessionId path root root' : Str} (h : IsName sessionId) (hr : root ∈ rootPaths sessionId)
    (hb : root <+: path) (hr' : root' ∈ rootPaths sessionId) :
    lexical root' <+: lexical path ↔ GoesOnFrom root' path ∨ ComesBackTo (lexical root') path := by
  obtain ⟨hslash, hbase⟩ := baseName_root h hr'
  by_cases hb' : root' <+: path
  · exact prefix_lexical_iff_of_begins hslash hbase hb'
  refine ⟨fun hp => ?_, fun hp =>
    hp.elim (prefix_lexical_of_goesOnFrom hslash hbase.1) prefix_lexical_of_comesBackTo⟩
  -- without a `..` the path has the first name of the root it begins with
  obtain ⟨a, b, hc, ha, hup⟩ := (prefix_lexical_iff _ _).1 hp
  refine .inr ⟨a, b, hc, by_contra fun hno => hb' ?_, ha, hup⟩
  obtain ⟨n, hn, hwritten, hfirst, honly⟩ := first_of_root h hr
  obtain ⟨n', hn', -, hfirst', -⟩ := first_of_root h hr'
  have hplain : ∀ n ∈ ["media".toList, "tmp".toList, "home".toList], n ≠ [] ∧ '/' ∉ n ∧ n.head? ≠ some '.' := by decide
  obtain ⟨hnil, hslashes, hletter⟩ := hplain n hn
  obtain ⟨x, hx⟩ := head?_components hnil hslashes (hwritten.trans hb)
  rw [hc] at hx
  have hhead : (n ++ x).head? = n.head? := List.head?_append_of_ne_nil n hnil
  have hdot : n ++ x ≠ dot := fun e => hletter (by rw [← hhead, e]; rfl)
  have hcollapse := head?_collapse hno (by rw [ha]; intro e; rw [e] at hfirst'; cases hfirst') hx hdot
  rw [ha, hfirst', Option.some.injEq] at hcollapse
  have hsame : ∀ n ∈ ["media".toList, "tmp".toList, "home".toList],
      ∀ m ∈ ["media".toList, "tmp".toList, "home".toList], n <+: m → m = n := by decide
  rw [honly root' hr' (hsame n hn n' hn' ⟨x, hcollapse.symm⟩ ▸ hfirst')]
  exact hb

/-- The accepted paths that are confined to the session's storage. -/
theorem internal_confined_iff (fs : FS) (path sessionId : Str) :
    (SAFUtilityOperation.validateInternalPath fs path sessionId = true → Confined sessionId path) ↔
      (SAFUtilityOperation.validateInternalPath fs path sessionId = true → StaysConfined sessionId path) := by
  refine forall_congr' fun hv => ?_
  by_cases hname : IsName sessionId
  case pos =>
    obtain ⟨r, hr, hbegins⟩ : ∃ r ∈ rootPaths sessionId, r <+: path := by
      simp only [SAFUtilityOperation.validateInternalPath, Bool.and_eq_true, Bool.or_eq_true, List.isPrefixOf_iff_prefix] at hv
      rcases hv.1 with (h | h) | h
      · exact ⟨_, by simp [rootPaths], h⟩
      · exact ⟨_, by simp [rootPaths], h⟩
      · exact ⟨_, by simp [rootPaths], h⟩
    constructor
    · intro h
      refine ⟨fun _ => ?_, absurd hname⟩
      obtain ⟨_, hmem, hl⟩ := h.root
      obtain ⟨root, hroot, rfl⟩ := List.mem_map.1 hmem
      exact ⟨root, hroot, (prefix_root_iff hname hr hbegins hroot).1 hl⟩
    · intro h
      obtain ⟨root, hroot, hstays⟩ := h.named hname
      have hl := (prefix_root_iff hname hr hbegins hroot).2 hstays
      have hmem : lexical root ∈ roots sessionId := List.mem_map_of_mem hroot
      exact ⟨⟨_, hmem, hl⟩, fun other _ hne => roots_foreign hname hne hmem hl⟩
  case neg =>
    constructor
    · intro h
      refine ⟨fun hn => absurd hn hname, fun _ => ⟨?_, fun other ho hne hs => h.foreign other ho hne ?_⟩⟩
      · obtain ⟨root, hroot, hl⟩ := h.root
        exact ⟨root, hroot, (prefix_lexical_iff root path).1 hl⟩
      · exact (prefix_lexical_iff _ _).2 hs
    · intro h
      obtain ⟨⟨root, hroot, hs⟩, hforeign⟩ := h.unnamed hname
      exact ⟨⟨root, hroot, (prefix_lexical_iff root path).2 hs⟩, fun other ho hne hl =>
        hforeign other ho hne ((prefix_lexical_iff _ _).1 hl)⟩

/-- Two sessions' homes, one id a prefix of the other. -/
def twoHomes : FS :=
  FS.ofEntries [(["home".toList], .dir), (home "guest".toList, .dir), (home "guest2".toList, .dir)] (by decide)

theorem guest_enters_guest2 :
    SAFUtilityOperation.validateInternalPath twoHomes "/home/guest2".toList "guest".toList = true ∧
      ¬ Confined "guest".toList "/home/guest2".toList :=
  ⟨rfl, fun h => h.foreign "guest2".toList (by decide) (by decide) (by decide)⟩

/-! ## The drives of the USB provider -/

/-- The operations a handler did. -/
def newOps (w w' : World) : List FsOp := w'.ops.drop w.ops.length

/-- The path of an operation on one path. -/
def FsOp.path? : FsOp → Option Str
  | .list path | .space path | .remove path | .rename path _ => some path
  | _ => none

namespace USBStorageProvider

/-- The operation works on a path at or below the mount path of the drive. -/
def OnDrive (reg : Registry) (driveId : Str) (op : FsOp) : Prop :=
  ∃ drive path, findDrive reg driveId = some drive ∧ op.path? = some path ∧ lexical drive.mountPath <+: lexical path

/-- The methods that work on a path of a drive. -/
def UsesPath (req : RequestData) : Prop :=
  req.methodType ∈ [.listMethod, .removeMethod, .renameMethod] ∨
    (req.methodType = .getPropMethod ∧ req.params.hasKey "path" = true)

/-- The path the method works on; asking for the properties of an empty path means `/tmp`. -/
def usedPath (req : RequestData) : Str :=
  if req.methodType = .getPropMethod ∧ req.str "path" = [] then "/tmp".toList else req.str "path"

/-- The properties are refused to an id that does not name one partition. -/
def NameUnclear (reg : Registry) (req : RequestData) : Prop :=
  req.methodType = .getPropMethod ∧
    (getDriveName reg (req.str "driveId") = "UUID".toList ∨ getDriveName reg (req.str "driveId") = "NO SUB".toList)

theorem checked_of_mounted {reg : Registry} {req : RequestData} (h : Mounted reg (req.str "driveId"))
    (unmounted : USBErrors) (w : World) (go : World → World) : checked reg unmounted req w go = go w := by
  unfold checked
  rw [if_neg (by simp [h.1]), if_neg (by simp [h.2])]

/-- The checks of the operation object let the path, and the new name, through. -/
def Begins (fs : FS) (req : RequestData) : Prop :=
  StorageAccess.validateInternalPath fs (usedPath req) = true ∧
    (req.methodType = .renameMethod → req.str "newName" ≠ [] ∧ '/' ∉ req.str "newName")

theorem begins_iff {fs : FS} {req : RequestData} (h : req.methodType ≠ .renameMethod) :
    StorageAccess.validateInternalPath fs (usedPath req) = true ↔ Begins fs req :=
  ⟨fun hb => ⟨hb, fun hr => absurd hr h⟩, And.left⟩

theorem begins_iff_of_rename {fs : FS} {req : RequestData} (h : req.methodType = .renameMethod) :
    InternalRename.begins fs (usedPath req) (req.str "newName") = true ↔ Begins fs req := by
  simp [InternalRename.begins, Begins, h, and_assoc]

/-- What became of the one operation of a method. -/
def Tried (reg : Registry) (req : RequestData) (w w' : World) : Prop :=
  ((NameUnclear reg req ∨ ¬ Begins w.fs req) ∧ newOps w w' = []) ∨
    (¬ NameUnclear reg req ∧ Begins w.fs req ∧ ∃ op, newOps w w' = [op] ∧ op.path? = some (usedPath req))

theorem Tried.of_one {reg : Registry} {req : RequestData} {w w' : World} {done : Bool} (op : FsOp)
    (hclear : ¬ NameUnclear reg req) (hb : done = true ↔ Begins w.fs req) (hp : op.path? = some (usedPath req))
    (hops : newOps w w' = if done then [op] else []) : Tried reg req w w' := by
  unfold Tried
  rw [hops]
  by_cases hbegins : Begins w.fs req
  · exact .inr ⟨hclear, hbegins, op, if_pos (hb.2 hbegins), hp⟩
  · exact .inl ⟨.inr hbegins, if_neg fun hdone => hbegins (hb.1 hdone)⟩

/-- On a mounted drive the methods do their one operation on the path they are given, wherever it leads. -/
theorem tried_of_usesPath (os : Os) (luna : Luna) {reg : Registry} {req : RequestData} (hu : UsesPath req)
    (hm : Mounted reg (req.str "driveId")) (w : World) : Tried reg req w (handleRequests os luna reg req w) := by
  rcases hu with h | ⟨h, hkey⟩
  · have hclear : ¬ NameUnclear reg req := fun hn => by simp [hn.1] at h
    have hpath : usedPath req = req.str "path" := if_neg fun hp => by simp [hp.1] at h
    simp only [List.mem_cons, List.not_mem_nil, or_false] at h
    rcases h with h | h | h
    · refine .of_one (.list (usedPath req)) hclear (begins_iff (by simp [h])) rfl ?_
      simp [handleRequests, h, listFolderContentsMethod, checked_of_mounted hm, newOps, getListFolderContents,
        World.logIf_ops, hpath]
    · refine .of_one (.remove (usedPath req)) hclear (begins_iff (by simp [h])) rfl ?_
      simp [handleRequests, h, removeMethod, checked_of_mounted hm, newOps, SAFUtilityOperation.remove,
        World.logIf_ops, hpath]
    · refine .of_one (.rename (usedPath req) (req.str "newName")) hclear (begins_iff_of_rename h) rfl ?_
      simp [handleRequests, h, renameMethod, checked_of_mounted hm, newOps, SAFUtilityOperation.rename,
        World.logIf_ops, hpath]
  by_cases hn : NameUnclear reg req
  · refine .inl ⟨.inl hn, ?_⟩
    simp only [handleRequests, h, getPropertiesMethod, checked_of_mounted hm]
    rcases hn.2 with hu | hs
    · simp [hu, newOps]
    · rw [if_neg (by rw [hs]; decide), if_pos hs]
      simp [newOps]
  · refine .of_one (.space (usedPath req)) hn (begins_iff (by simp [h])) rfl ?_
    obtain ⟨hu, hs⟩ := not_or.1 fun hor => hn ⟨h, hor⟩
    have hpath : usedPath req = if req.str "path" = [] then "/tmp".toList else req.str "path" := by simp [usedPath, h]
    simp only [handleRequests, h, getPropertiesMethod, checked_of_mounted hm]
    rw [if_neg hu, if_neg hs, if_pos hkey, hpath]
    split <;> simp [newOps, SAFUtilityOperation.getProperties, World.logIf_ops]

/-- The requests on a mounted drive that stay on it: those that reach no operation, and those whose path does. -/
theorem operation_on_drive_iff (os : Os) (luna : Luna) (reg : Registry) (req : RequestData) (hu : UsesPath req)
    (hm : Mounted reg (req.str "driveId")) (w : World) :
    (∀ op ∈ newOps w (handleRequests os luna reg req w), OnDrive reg (req.str "driveId") op) ↔
      NameUnclear reg req ∨ ¬ Begins w.fs req ∨
        ∃ drive, findDrive reg (req.str "driveId") = some drive ∧ StaysBelow (lexical drive.mountPath) (usedPath req) := by
  simp only [← prefix_lexical_iff]
  rcases tried_of_usesPath os luna hu hm w with ⟨hn, he⟩ | ⟨hn, hb, op, he, hp⟩
  · simpa [he, ← or_assoc] using .inl hn
  · simp [he, hn, hb, OnDrive, hp]

/-- One stick with one partition. -/
def sda1 : USBDriveInfo := ⟨"sda1".toList, "/media/sda1".toList, "U1".toList, true⟩

def stick : Registry := (∅ : Registry).insert "S1".toList ⟨"usb".toList, 1, [sda1]⟩

theorem findDrive_stick : findDrive stick "S1".toList = some sda1 := rfl

theorem mounted_stick : Mounted stick "S1".toList := by
  constructor <;> decide +kernel

def removeCall (path : String) : RequestData :=
  ⟨.usb, .removeMethod, (JValue.object.put "driveId" (.text "S1")).put "path" (.text path), "guest".toList⟩

/-- The stick's folder with one file, beside a home. -/
def stickTree : FS :=
  FS.ofEntries [(["home".toList], .dir), (home "guest2".toList, .dir), (["media".toList], .dir),
    (["media".toList, "sda1".toList], .dir), (["media".toList, "sda1".toList, "a".toList], .file [1])] (by decide)

theorem remove_on_stick :
    Mounted stick "S1".toList ∧
      ∀ op ∈ newOps (Service.start stickTree ∅).world
          (handleRequests Os.quiet Env.quiet.luna stick (removeCall "/media/sda1/a") (Service.start stickTree ∅).world),
        OnDrive stick "S1".toList op :=
  ⟨mounted_stick,
    (operation_on_drive_iff Os.quiet Env.quiet.luna stick (removeCall "/media/sda1/a") (.inl (by decide)) mounted_stick
        _).2
      (.inr (.inr ⟨sda1, findDrive_stick, ["media".toList, "sda1".toList], ["a".toList], rfl, rfl,
        rfl⟩))⟩

theorem remove_off_stick :
    ¬ ∀ op ∈ newOps (Service.start stickTree ∅).world
        (handleRequests Os.quiet Env.quiet.luna stick (removeCall "/home/guest2") (Service.start stickTree ∅).world),
      OnDrive stick "S1".toList op := by
  intro h
  have hu : UsesPath (removeCall "/home/guest2") := .inl (by decide)
  obtain ⟨hn | hb, -⟩ | ⟨-, -, op, hops, hpath⟩ :=
    tried_of_usesPath Os.quiet Env.quiet.luna hu mounted_stick (Service.start stickTree ∅).world
  · exact absurd hn.1 (by decide)
  · exact absurd ⟨rfl, fun hr => absurd hr (by decide)⟩ hb
  obtain ⟨drive, path, hd, hp, hl⟩ := h op (by simp [hops])
  rw [findDrive_stick] at hd
  obtain rfl : sda1 = drive := by simpa using hd
  obtain rfl : usedPath (removeCall "/home/guest2") = path := by simpa [hpath] using hp
  exact absurd hl (by decide)

end USBStorageProvider

end StorageAccess
