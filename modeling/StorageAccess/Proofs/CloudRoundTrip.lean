import StorageAccess.Proofs.FileIndex
import StorageAccess.Proofs.Overwriting
import StorageAccess.Proofs.Owners
/-!
# To the cloud and back

A local file that is stored in the cloud and fetched again by its path there reads
as it did, whatever happened to the local files in between. The drive is taken to
list what the cloud has and to hand out what is stored.
-/

open Posix Json

namespace StorageAccess

/-- The drive hands out every file of the cloud: by its id, and its content by its address. -/
def Drive.Serves (drive : Drive) (cloud : Table CloudFile) : Prop :=
  ∀ id file, cloud[id]? = some file → ∃ g, drive.get id = some g ∧
    (drive.request (if g.downloadUrl = [] then g.exportPdf else g.downloadUrl)).content = file.content

namespace FileIndex

/-- The forest has the files of the cloud below their folders. -/
def Displays (files : Forest Str Str) (cloud : Table CloudFile) : Prop :=
  ∀ id file titles, cloud[id]? = some file → (titles, file.parent) ∈ allFiles files →
    (titles ++ [file.title], id) ∈ allFiles files

/-- Where no two files share a path each is found by its own. -/
theorem getFileId_of_mem {drive : Drive} {files : Forest Str Str} (h : drive.Holds files)
    (hpaths : ((allFiles files).map fun r => pathOf r.1).Nodup) {r : List Str × Str} (hr : r ∈ allFiles files) :
    (loadFileIds drive).getFileId (pathOf r.1) = r.2 := by
  obtain ⟨before, after, hfiles⟩ := List.append_of_mem hr
  refine getFileId_of_get (get_of_last h hfiles fun r' hr' heq => ?_)
  rw [hfiles, List.map_append, List.map_cons] at hpaths
  have hnodup := (List.nodup_append.1 hpaths).2.1
  exact (List.nodup_cons.1 hnodup).1 (List.mem_map.2 ⟨r', hr', heq⟩)

end FileIndex

namespace GDriveProvider

open FileIndex SAFUtilityOperation

/-- A copy or move of a local file to the cloud that the checks and the service let through. -/
structure Stores (drive : Drive) (req : RequestData) (s : GDriveProvider) (w : World) (user : GDriveUserData) : Prop where
  transfer : IsTransfer req
  uploads : Uploads req
  admitted : s.Admitted w req user
  sendable : CanUpload req w.fs
  inserted : drive.insert = .done

/-- The file is put into the folder under its name, and the index is rebuilt from the drive. -/
theorem stored (os : Os) {drive : Drive} {req : RequestData} {s : GDriveProvider} {w : World} {user : GDriveUserData}
    (h : Stores drive req s w user) :
    let done := handleRequests os drive req s w
    done.2.cloud = w.cloud.insert (drive.newId w.cloud)
        ⟨s.folder req, baseName (req.str "srcPath"), (w.fs.readFile (components (req.str "srcPath"))).getD []⟩ ∧
      done.1.mDriveIdUserDataMap[transferDrive req]? = some { looked user with index := loadFileIds drive } := by
  intro done
  -- a move goes on to remove the local file
  obtain ⟨next, hnext, hgo⟩ : ∃ next : World → World × Bool, (∀ w, (next w).1.cloud = w.cloud ∧ (next w).2 = true) ∧
      done = s.transfer req w fun s user w => finish drive req s user (andThen (upload drive user req w) next) := by
    unfold done
    rcases h.transfer with hm | hm
    · refine ⟨fun w => (w, true), fun _ => ⟨rfl, rfl⟩, ?_⟩
      simp only [handleRequests, hm, copy, if_pos h.uploads.1, if_neg h.uploads.2, andThen_done]
    · refine ⟨removeLocal os (req.str "srcPath"), fun _ => ⟨rfl, rfl⟩, ?_⟩
      simp only [handleRequests, hm, move, if_pos h.uploads.1, if_neg h.uploads.2]
  rcases transfer_cases req s w fun s user w => finish drive req s user (andThen (upload drive user req w) next) with
    ⟨hn, -⟩ | ⟨user', ha, e⟩
  · exact absurd h.admitted (hn user)
  obtain rfl := Option.some.inj (h.admitted.known.symm.trans ha.known)
  rw [hgo, e]
  have hstep := uploadStep drive (looked user) req w
  generalize upload drive (looked user) req w = result at hstep
  cases hstep with
  | refused invalid => exact absurd h.sendable invalid
  | sent valid =>
    rw [insertFile, h.inserted]
    dsimp only
    rw [andThen, if_pos rfl, finish, if_pos (hnext _).2]
    refine ⟨?_, ?_⟩
    · rw [folder_of_known h.admitted.known]
      exact (hnext _).1
    · exact (Table.get_insert ..).trans (if_pos rfl)

/-- A copy or move of a cloud file to a local folder that the checks let through. -/
structure Fetches (req : RequestData) (s : GDriveProvider) (w : World) (user : GDriveUserData) : Prop where
  transfer : IsTransfer req
  local_ : req.str "destStorageType" ≠ cloudName
  admitted : s.Admitted w req user
  folder : StorageAccess.validateInternalPath w.fs (req.str "destPath") = true
  opens : w.fs.Opens (components (localTarget req))

/-- The content of the file is written to the local path. -/
theorem fetched {os : Os} {drive : Drive} {req : RequestData} {s : GDriveProvider} {w : World} {user : GDriveUserData}
    (h : Fetches req s w user) (hserves : drive.Serves w.cloud) (hcut : os.writeCut = none) {file : CloudFile}
    (hid : s.indexed req "srcPath" ≠ []) (hfile : w.cloud[s.indexed req "srcPath"]? = some file) :
    (handleRequests os drive req s w).2.fs.readFile (components (localTarget req)) = some file.content := by
  rcases handled_fetch os drive h.transfer h.local_ with ⟨-, hn⟩ | ⟨user', ha, e⟩
  · exact absurd h.admitted (hn user)
  obtain rfl := Option.some.inj (h.admitted.known.symm.trans ha.known)
  rw [e]
  have hlooked : (looked user).index.getFileId (req.str "srcPath") = s.indexed req "srcPath" :=
    (indexed_of_known ha.known "srcPath").symm
  obtain ⟨g, hg, hcontent⟩ := hserves _ file hfile
  have hstep := downloadStep os drive (looked user) req w
  generalize download os drive (looked user) req w = result at hstep ⊢
  cases hstep with
  | refused invalid => exact absurd ⟨hlooked ▸ hid, h.folder⟩ invalid
  | missing valid hget => cases (hlooked ▸ hget : drive.get (s.indexed req "srcPath") = none).symm.trans hg
  | unopened valid g' hget hwrite =>
    exact absurd h.opens ((FS.writeFile_isSome_iff w.fs os.writeCut _ _).not.1 (Option.not_isSome_iff_eq_none.2 hwrite))
  | written valid g' fs hget hwrite =>
    rw [hlooked, hg] at hget
    obtain rfl := Option.some.inj hget
    have hread := FS.readFile_writeFile hwrite
    rwa [hcut, hcontent] at hread

/-- A local file that is stored in the cloud and fetched again by its path there reads as it did,
whatever happened to the local files in between, if the drive lists what the cloud has, no two
files have one path, and it still has the file and hands it out. -/
theorem fetched_as_stored (os os' : Os) (drive drive' : Drive) (store fetch : RequestData) (s s' : GDriveProvider)
    (w w₁ w' : World) {user user' : GDriveUserData} {content : List UInt8} {files : Forest Str Str} {titles : List Str}
    (hstore : Stores drive store s w user) (hread : w.fs.readFile (components (store.str "srcPath")) = some content)
    (hstored : handleRequests os drive store s w = (s', w₁)) (hholds : drive.Holds files) (hdisplays : Displays files w₁.cloud)
    (hids : ∀ r ∈ allFiles files, r.2 ≠ []) (hpaths : ((allFiles files).map fun r => pathOf r.1).Nodup)
    (hfolder : (titles, s.folder store) ∈ allFiles files)
    (hkept : ∀ (id : Str) file, w₁.cloud[id]? = some file → w'.cloud[id]? = some file)
    (hfetch : Fetches fetch s' w' user') (hserves : drive'.Serves w'.cloud) (hcut : os'.writeCut = none)
    (hdrive : transferDrive fetch = transferDrive store)
    (hsource : fetch.str "srcPath" = pathOf (titles ++ [baseName (store.str "srcPath")])) :
    (handleRequests os' drive' fetch s' w').2.fs.readFile (components (localTarget fetch)) = some content := by
  have hdone := stored os hstore
  rw [hstored, hread, Option.getD_some] at hdone
  obtain ⟨hcloud, hindex⟩ := hdone
  have hfile : w₁.cloud[drive.newId w.cloud]? = some ⟨s.folder store, baseName (store.str "srcPath"), content⟩ := by
    rw [hcloud]
    exact (Table.get_insert ..).trans (if_pos rfl)
  have hroute := hdisplays _ _ _ hfile hfolder
  -- the path leads to the new file
  have hindexed : s'.indexed fetch "srcPath" = drive.newId w.cloud := by
    rw [indexed, hdrive, hindex, hsource]
    exact getFileId_of_mem hholds hpaths hroute
  have hstill := hkept _ _ hfile
  rw [← hindexed] at hstill
  exact fetched hfetch hserves hcut (hindexed ▸ hids _ hroute) hstill

/-! ## A note that is moved to the cloud -/

/-- A drive that lists two files in its root folder and hands out those of the cloud. -/
def serving (cloud : Table CloudFile) : Drive :=
  { twoFiles "a.txt" "b.txt" with
    listing := fun id =>
      if id = "root".toList then [("f1".toList, "a.txt".toList), ("ff1".toList, "b.txt".toList)] else []
    get := fun id => some ⟨id, [], [], 0, id, []⟩
    request := fun url => ⟨200, (cloud[url]?.map (·.content)).getD []⟩ }

theorem serves_serving (cloud : Table CloudFile) : (serving cloud).Serves cloud := by
  intro id file h
  have hurl : (if id = [] then ([] : Str) else id) = id := by
    split
    case isTrue h => exact h.symm
    case isFalse => rfl
  refine ⟨_, rfl, ?_⟩
  change ((cloud[if id = [] then ([] : Str) else id]?).map (·.content)).getD [] = _
  rw [hurl, h]
  rfl

def afterMove : Forest Str Str := .node "a.txt".toList "f1".toList .nil (.node "b.txt".toList "ff1".toList .nil .nil)

theorem serving_holds (cloud : Table CloudFile) : (serving cloud).Holds afterMove where
  root := rfl
  listed := ⟨rfl, trivial, rfl, trivial, trivial⟩
  depth := Nat.le_refl 1

def noteAndMedia : FS :=
  FS.ofEntries [(["media".toList], .dir), (["tmp".toList], .dir), (["tmp".toList, "b.txt".toList], .file [7])] (by decide)

/-- Move the note to the root folder of the session's drive. -/
def putNote : RequestData :=
  ⟨.gdrive, .moveMethod,
    (((((JValue.object.put "srcStorageType" (.text "internal")).put "destStorageType" (.text "cloud")).put "srcDriveId"
      (.text "INTERNAL_STORAGE")).put "destDriveId" (.text "GDRIVE_1")).put "srcPath" (.text "/tmp/b.txt")).put "destPath"
      (.text "/"), "guest2".toList⟩

/-- Copy it from there to another local folder. -/
def getNote : RequestData :=
  ⟨.gdrive, .copyMethod,
    (((((JValue.object.put "srcStorageType" (.text "cloud")).put "destStorageType" (.text "internal")).put "srcDriveId"
      (.text "GDRIVE_1")).put "destDriveId" (.text "INTERNAL_STORAGE")).put "srcPath" (.text "/b.txt")).put "destPath"
      (.text "/media"), "guest2".toList⟩

theorem exists_admitted {s : GDriveProvider} {w : World} {req : RequestData} (hup : isUpnpDestination req = false)
    (hpaths : faultyEndpoint w req = none) (hone : OneDrive req) (howns : s.Owns req.sessionId (transferDrive req))
    (htoken : (s.mDriveIdUserDataMap[transferDrive req]?.map
      fun user => decide (user.mAuthParam.getD refreshTokenKey [] ≠ [])) = some true) :
    ∃ user, s.Admitted w req user := by
  obtain ⟨user, huser, htoken⟩ := Option.map_eq_some_iff.1 htoken
  have htoken' : user.mAuthParam.getD refreshTokenKey [] ≠ [] := of_decide_eq_true htoken
  exact ⟨user, ⟨hup, (faultyEndpoint_eq_none_iff w req).1 hpaths⟩, hone, howns, huser, htoken'⟩

def notePut : GDriveProvider × World :=
  handleRequests Os.quiet (serving ∅) putNote signedIn.gdrive (besideDrive noteAndMedia)

theorem notePut_cloud : notePut.2.cloud.toList =
    [("f1".toList, ⟨"root".toList, "a.txt".toList, [1, 2, 3]⟩), ("ff1".toList, ⟨"root".toList, "b.txt".toList, [7]⟩)] := by
  decide +kernel

theorem displays_afterMove : Displays afterMove notePut.2.cloud := by
  intro id file titles hfile hparent
  have hmem := Std.ExtTreeMap.mem_toList_iff_getElem?_eq_some.2 hfile
  have hroot : (titles, "root".toList) ∈ allFiles afterMove → titles = [] := by
    intro h
    simp only [allFiles, afterMove, Forest.routes, List.map_nil, List.nil_append, List.mem_cons, Prod.mk.injEq,
      List.not_mem_nil, or_false] at h
    rcases h with h | h | h
    · exact h.1
    · exact absurd h.2 (by decide)
    · exact absurd h.2 (by decide)
  rw [notePut_cloud] at hmem
  rcases List.mem_cons.1 hmem with h | h
  · cases h
    rw [hroot hparent]
    decide +kernel
  · cases List.mem_singleton.1 h
    rw [hroot hparent]
    decide +kernel

/-- The note is moved from one local folder to the cloud and copied from there to another. -/
theorem note_through_cloud :
    (handleRequests Os.quiet (serving notePut.2.cloud) getNote notePut.1 notePut.2).2.fs.readFile
      (components (localTarget getNote)) = some [7] := by
  obtain ⟨user, hput⟩ : ∃ user, signedIn.gdrive.Admitted (besideDrive noteAndMedia) putNote user :=
    exists_admitted rfl rfl (fun hs => absurd hs (by decide +kernel))
      ⟨by decide +kernel, by decide +kernel⟩ (by decide +kernel)
  obtain ⟨user', hget⟩ : ∃ user, notePut.1.Admitted notePut.2 getNote user :=
    exists_admitted (by decide +kernel) (by decide +kernel) (fun _ hd => absurd hd (by decide))
      ⟨by decide +kernel, by decide⟩ rfl
  have hstore : Stores (serving ∅) putNote signedIn.gdrive (besideDrive noteAndMedia) user :=
    ⟨.inr rfl, ⟨rfl, by decide +kernel⟩, hput, ⟨by decide +kernel, by decide +kernel⟩, rfl⟩
  have hfree : notePut.2.fs.status (components (localTarget getNote)) = .absent := by decide +kernel
  have hplace : notePut.2.fs.locate .make (components (localTarget getNote)) = .ok ["media".toList, "b.txt".toList] := by
    decide +kernel
  have hfolder : (([] : List Str), signedIn.gdrive.folder putNote) ∈ allFiles afterMove := by decide +kernel
  have hfetch : Fetches getNote notePut.1 notePut.2 user' :=
    ⟨.inl rfl, by decide +kernel, hget, by decide +kernel, .inr ⟨hfree, _, hplace⟩⟩
  exact fetched_as_stored Os.quiet Os.quiet (serving ∅) (serving notePut.2.cloud) putNote getNote signedIn.gdrive notePut.1
    (besideDrive noteAndMedia) notePut.2 notePut.2 hstore (by decide +kernel) rfl (serving_holds ∅) displays_afterMove
    (by decide +kernel) (by decide +kernel) hfolder (fun _ _ h => h) hfetch (serves_serving _) rfl (by decide +kernel)
    (by decide +kernel)

end GDriveProvider

end StorageAccess
