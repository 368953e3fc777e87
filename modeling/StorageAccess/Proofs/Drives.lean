import StorageAccess.Proofs.Confinement
import StorageAccess.Proofs.Shares
/-!
# SAMBA drives over whole runs

The network provider records where each drive is mounted, and the utility
singleton keeps a copy of that table for the path check. In every run whose
mounts make directories apart from those in use, two drives' mount directories
stay apart, and the paths accepted for a drive lie in its directory alone exactly
when they go on from its string with whole components, or come back to it.
-/

open Posix Json

namespace StorageAccess

open SAFUtilityOperation

/-! ## Runs -/

/-- The request reaches the network provider and asks for a mount. -/
def AsksMount (req : RequestData) : Prop := route req = .network ∧ NetworkProvider.IsMount req

instance (req : RequestData) : Decidable (AsksMount req) :=
  inferInstanceAs (Decidable (route req = .network ∧ req.methodType = .extraMethod ∧
    NetworkProvider.operationType req = "mountSambaServer".toList))

/-- A mount that succeeds makes a directory that is neither inside a mounted one nor around it. -/
def MountsApart (s : Service) : Service.Label → Prop
  | .request env req => AsksMount req → NetworkProvider.MountSucceeds env.net req s.network →
      ∀ driveId path : Str, s.network.mSambaPathMap[driveId]? = some path →
        Apart (lexical path) (lexical (NetworkProvider.newMount env.net req))
  | _ => True

/-- The singleton knows the mounted drives, their directories are marked as in use,
and two drives' directories are apart. -/
structure DrivesApart (s : Service) : Prop where
  listed : s.network.Listed
  world : s.world.mSambaDrivePathMap = s.network.mSambaPathMap
  dirs : ∀ driveId path : Str, s.network.mSambaPathMap[driveId]? = some path → path ∈ s.network.mntpathmap
  apart : ∀ d d' p p' : Str, d ≠ d' → s.network.mSambaPathMap[d]? = some p → s.network.mSambaPathMap[d']? = some p' →
    Apart (lexical p) (lexical p')

theorem DrivesApart.start (fs : FS) (cloud : Table CloudFile) : DrivesApart (Service.start fs cloud) where
  listed := .init
  world := rfl
  dirs := by simp [Service.start, NetworkProvider.init]
  apart := by simp [Service.start, NetworkProvider.init]

/-- A step that leaves the mounted drives as they are. -/
theorem DrivesApart.frame {s s' : Service} (hs : DrivesApart s) (hlisted : s'.network.Listed)
    (hpaths : s'.network.mSambaPathMap = s.network.mSambaPathMap) (hdirs : s'.network.mntpathmap = s.network.mntpathmap)
    (hworld : SameDrives s.world s'.world) : DrivesApart s' where
  listed := hlisted
  world := (hworld.trans hs.world).trans hpaths.symm
  dirs := by simpa only [hpaths, hdirs] using hs.dirs
  apart := by simpa only [hpaths] using hs.apart

/-- A step of the network provider keeps the drives apart. -/
theorem DrivesApart.network {net : Net} {req : RequestData} {s : Service} (hs : DrivesApart s) {s' : NetworkProvider}
    {w' : World} (hstep : NetworkProvider.DrivesStep net req s.network s.world s' w')
    (hok : NetworkProvider.IsMount req → NetworkProvider.MountSucceeds net req s.network →
      ∀ driveId path : Str, s.network.mSambaPathMap[driveId]? = some path →
        Apart (lexical path) (lexical (NetworkProvider.newMount net req))) :
    DrivesApart { s with network := s', world := w' } := by
  have hlisted : s'.Listed := hs.listed.drivesStep hstep
  cases hstep with
  | same tables world => exact hs.frame hlisted (by rw [tables]) (by rw [tables]) world
  | kept driveId tables world =>
    obtain ⟨hpaths, -, hdirs, -⟩ := NetworkProvider.eraseShareKey_paths s.network driveId
    exact hs.frame hlisted (tables ▸ hpaths) (tables ▸ hdirs) world
  | discovered _ tables world =>
    obtain ⟨hpaths, -, hdirs, -⟩ := NetworkProvider.addServers_samba req.sessionId net.scannedDevices s.network
    exact hs.frame hlisted (tables ▸ hpaths) (tables ▸ hdirs) world
  | mounted request succeeds key tables world =>
    subst tables
    have hnew : ∀ d p : Str, s.network.mSambaPathMap[d]? = some p →
        Apart (lexical p) (lexical (NetworkProvider.newMount net req)) := hok request succeeds
    refine ⟨hlisted, world, ?_, ?_⟩
    · intro d p hp
      simp only [NetworkProvider.addShare, Table.get_insert, Table.mem_insert_iff] at hp ⊢
      split at hp
      · exact .inl (Option.some.inj hp)
      · exact .inr (hs.dirs d p hp)
    · intro d d' p p' hne hp hp'
      simp only [NetworkProvider.addShare, Table.get_insert] at hp hp'
      split at hp
      case isTrue hd =>
        rw [if_neg fun e => hne (hd.symm.trans e)] at hp'
        exact Option.some.inj hp ▸ (hnew d' p' hp').symm
      case isFalse =>
        split at hp'
        · exact Option.some.inj hp' ▸ hnew d p hp
        · exact hs.apart d d' p p' hne hp hp'
  | ejected driveId path found tables world =>
    subst tables
    have hkept : ∀ d p : Str, (s.network.dropShare driveId path).mSambaPathMap[d]? = some p →
        driveId ≠ d ∧ s.network.mSambaPathMap[d]? = some p := by
      intro d p hp
      simp only [NetworkProvider.dropShare, Table.get_erase] at hp
      split at hp
      · cases hp
      case isFalse hne => exact ⟨hne, hp⟩
    refine ⟨hlisted, world, ?_, ?_⟩
    · -- no other drive has the directory whose mark is taken away
      intro d p hp
      obtain ⟨hne, hp⟩ := hkept d p hp
      simp only [NetworkProvider.dropShare, Table.mem_erase_iff]
      refine ⟨?_, hs.dirs d p hp⟩
      rintro rfl
      exact (hs.apart driveId d path path hne found hp).1 (List.prefix_refl _)
    · intro d d' p p' hne hp hp'
      exact hs.apart d d' p p' hne (hkept d p hp).2 (hkept d' p' hp').2

theorem DrivesApart.step (s : Service) (l : Service.Label) (hs : DrivesApart s) (hl : MountsApart s l) :
    DrivesApart (s.step l) := by
  cases tablesStep hs.listed l with
  | elsewhere tables world => exact hs.frame (tables ▸ hs.listed) (by rw [tables]) (by rw [tables]) world
  | handled env req label routed step =>
    subst label
    have hnext := hs.network step.drivesStep fun hm => hl ⟨routed, hm⟩
    exact hnext.frame hnext.listed rfl rfl rfl

/-! ## The names of mount directories -/

namespace NetworkProvider

theorem isDigit_of_mem_twoDigits {n : Nat} {ch : Char} (h : ch ∈ twoDigits n) : ch.isDigit = true := by
  unfold twoDigits at h
  split at h
  · rcases List.mem_cons.1 h with rfl | h
    · rfl
    · exact isDigit_of_mem_toDigits h
  · exact isDigit_of_mem_toDigits h

/-- A time of day is written in digits and the signs between them. -/
theorem mem_getTimestamp {c : Clock} {ch : Char} (h : ch ∈ getTimestamp c) : ch.isDigit = true ∨ ch = ':' ∨ ch = '_' := by
  simp only [getTimestamp, List.mem_append, List.mem_cons] at h
  rcases h with ((h | rfl | h) | rfl | h) | rfl | h
  · exact .inl (isDigit_of_mem_twoDigits h)
  · exact .inr (.inl rfl)
  · exact .inl (isDigit_of_mem_twoDigits h)
  · exact .inr (.inl rfl)
  · exact .inl (isDigit_of_mem_twoDigits h)
  · exact .inr (.inr rfl)
  · exact .inl (isDigit_of_mem_toDigits h)

theorem slash_not_mem_getTimestamp (c : Clock) : '/' ∉ getTimestamp c := fun h =>
  absurd (mem_getTimestamp h) (by decide)

theorem mountPath_eq (ip : Str) (c : Clock) :
    mountPath ip c = "/tmp".toList ++ '/' :: (ip ++ '_' :: getTimestamp c) :=
  List.append_assoc "/tmp/".toList ip ('_' :: getTimestamp c)

/-- The directory of a server whose address holds no `/` is an entry of `/tmp`. -/
theorem lexical_mountPath {ip : Str} (h : '/' ∉ ip) (c : Clock) :
    lexical (mountPath ip c) = ["tmp".toList] ++ [ip ++ '_' :: getTimestamp c] := by
  have hmem : '_' ∈ ip ++ '_' :: getTimestamp c := by simp
  have hslash : '/' ∉ ip ++ '_' :: getTimestamp c := by simp [h, slash_not_mem_getTimestamp]
  have htmp : ("/tmp".toList.splitOn '/').filter (· ≠ []) = ["tmp".toList] := by decide
  rw [lexical, mountPath_eq, components_append_slash _ _ (by simp), components_of_no_slash (by simp) hslash, htmp]
  apply collapse_names
  intro n hn
  rcases List.mem_pair.1 hn with rfl | rfl
  · decide
  · exact ⟨fun e => absurd (e ▸ hmem) (by decide), fun e => absurd (e ▸ hmem) (by decide)⟩

/-- Two such directories are one, or apart: that one name continues another does not matter. -/
theorem mountPath_apart {ip ip' : Str} (h : '/' ∉ ip) (h' : '/' ∉ ip') {c c' : Clock}
    (hne : mountPath ip c ≠ mountPath ip' c') : Apart (lexical (mountPath ip c)) (lexical (mountPath ip' c')) := by
  rw [lexical_mountPath h, lexical_mountPath h']
  exact apart_concat fun e => hne (by rw [mountPath_eq, mountPath_eq, e])

end NetworkProvider

/-- The address of a mount request is one of `P`. -/
def MountAddress (P : Str → Prop) : Service.Label → Prop
  | .request _ req => AsksMount req → P ((NetworkProvider.payload req).get "ip").asString
  | _ => True

/-- The drives' directories were made for addresses of `P`, each at some time. -/
structure MountedFor (P : Str → Prop) (s : Service) : Prop where
  listed : s.network.Listed
  made : ∀ driveId path : Str, s.network.mSambaPathMap[driveId]? = some path →
    ∃ ip c, P ip ∧ path = NetworkProvider.mountPath ip c

theorem MountedFor.start (P : Str → Prop) (fs : FS) (cloud : Table CloudFile) : MountedFor P (Service.start fs cloud) := by
  refine ⟨.init, fun driveId path hp => ?_⟩
  simp [Service.start, NetworkProvider.init] at hp

theorem MountedFor.step {P : Str → Prop} (s : Service) (l : Service.Label) (hs : MountedFor P s) (hl : MountAddress P l) :
    MountedFor P (s.step l) := by
  refine ⟨hs.listed.step l, fun driveId path hp => ?_⟩
  cases tablesStep hs.listed l with
  | elsewhere tables => exact hs.made driveId path (by rwa [tables] at hp)
  | handled env req label routed step =>
    cases step.drivesStep with
    | same tables => exact hs.made driveId path (by rwa [tables] at hp)
    | kept id tables =>
      rw [tables, (NetworkProvider.eraseShareKey_paths s.network id).1] at hp
      exact hs.made driveId path hp
    | discovered _ tables =>
      rw [tables, (NetworkProvider.addServers_samba req.sessionId env.net.scannedDevices s.network).1] at hp
      exact hs.made driveId path hp
    | mounted request succeeds key tables =>
      subst label
      simp only [tables, NetworkProvider.addShare, Table.get_insert] at hp
      split at hp
      · exact ⟨_, env.net.clock, hl ⟨routed, request⟩, (Option.some.inj hp).symm⟩
      · exact hs.made driveId path hp
    | ejected id old found tables =>
      simp only [tables, NetworkProvider.dropShare, Table.get_erase] at hp
      split at hp
      · cases hp
      · exact hs.made driveId path hp

theorem mountsApart_of_address {s : Service} {l : Service.Label} (hs : DrivesApart s) (hm : MountedFor ('/' ∉ ·) s)
    (hl : MountAddress ('/' ∉ ·) l) : MountsApart s l := by
  cases l with
  | devices root req => trivial
  | others fs cloud => trivial
  | request env req =>
    intro hask hsucceeds driveId path hp
    obtain ⟨ip, c, hip, rfl⟩ := hm.made driveId path hp
    -- a path in use is marked, so the new one differs from every other
    refine NetworkProvider.mountPath_apart hip (hl hask) fun e => hsucceeds.free ?_
    rw [NetworkProvider.newMount, ← e]
    exact hs.dirs driveId _ hp

/-- Mounts of servers whose addresses hold no `/` are always apart, whatever the clock reads. -/
theorem mountsApart_of_plainAddress (fs : FS) (cloud : Table CloudFile) {ls : List Service.Label}
    (hls : Runs.Meets Service.step (fun _ => MountAddress ('/' ∉ ·)) (Service.start fs cloud) ls) :
    Runs.Meets Service.step MountsApart (Service.start fs cloud) ls := by
  let Inv (s : Service) : Prop := DrivesApart s ∧ MountedFor ('/' ∉ ·) s
  have hstep : ∀ s l, Inv s → MountAddress ('/' ∉ ·) l → Inv (s.step l) := fun s l hs hl =>
    ⟨hs.1.step s l (mountsApart_of_address hs.1 hs.2 hl), hs.2.step s l hl⟩
  exact Runs.Meets.imp_inv hstep (fun _ _ hs hl => mountsApart_of_address hs.1 hs.2 hl)
    ⟨.start fs cloud, .start _ fs cloud⟩ hls

/-- The last component of a mount directory is a name. -/
theorem baseName_mountPath (ip : Str) (c : Clock) :
    '/' ∈ NetworkProvider.mountPath ip c ∧ baseName (NetworkProvider.mountPath ip c) ≠ [] ∧
      baseName (NetworkProvider.mountPath ip c) ≠ dot ∧ baseName (NetworkProvider.mountPath ip c) ≠ dotdot := by
  have hslash : '/' ∉ '_' :: NetworkProvider.getTimestamp c := by
    simp [NetworkProvider.slash_not_mem_getTimestamp]
  have hbase : baseName (NetworkProvider.mountPath ip c) =
      baseName ("/tmp/".toList ++ ip) ++ '_' :: NetworkProvider.getTimestamp c := baseName_append _ hslash
  have hmem : '_' ∈ baseName (NetworkProvider.mountPath ip c) := by simp [hbase]
  refine ⟨by simp [NetworkProvider.mountPath], ?_, fun e => ?_, fun e => ?_⟩
  · rintro e
    rw [e] at hmem
    cases hmem
  · exact absurd (e ▸ hmem) (by decide)
  · exact absurd (e ▸ hmem) (by decide)

/-! ## The separation of drives -/

/-- The path is at or below the drive's mount directory and in no other drive's. -/
def NetworkProvider.Separated (s : NetworkProvider) (driveId path : Str) : Prop :=
  ∃ mountPath, s.mSambaPathMap[driveId]? = some mountPath ∧ lexical mountPath <+: lexical path ∧
    ∀ other otherPath : Str, other ≠ driveId → s.mSambaPathMap[other]? = some otherPath →
      ¬ lexical otherPath <+: lexical path

/-- In every run whose mounts stay apart, the paths accepted for a drive that are
in its mount directory, and then in no other's, are those that go on from its string
with a whole component, or come back to it. -/
theorem samba_separated_iff (fs : FS) (cloud : Table CloudFile) (ls : List Service.Label)
    (hls : Runs.Meets Service.step MountsApart (Service.start fs cloud) ls) (driveId path : Str) :
    let s := Runs.run Service.step (Service.start fs cloud) ls
    (validateSambaPath s.world.fs s.world.mSambaDrivePathMap path driveId = true → s.network.Separated driveId path) ↔
      (validateSambaPath s.world.fs s.world.mSambaDrivePathMap path driveId = true →
        ∃ mountPath, s.network.mSambaPathMap[driveId]? = some mountPath ∧
          (GoesOnFrom mountPath path ∨ ComesBackTo (lexical mountPath) path)) := by
  intro s
  have hs : DrivesApart s := Runs.inv_run DrivesApart.step (DrivesApart.start fs cloud) hls
  have hmade : MountedFor (fun _ => True) s := by
    refine Runs.inv_run_all (fun s l h => h.step s l ?_) ls (.start _ fs cloud)
    cases l <;> simp [MountAddress]
  refine forall_congr' fun hv => ?_
  obtain ⟨mountPath, hm, hbegins⟩ : ∃ mountPath, s.network.mSambaPathMap[driveId]? = some mountPath ∧ mountPath <+: path := by
    unfold validateSambaPath at hv
    rw [hs.world] at hv
    split at hv
    case h_1 mountPath hm =>
      exact ⟨mountPath, hm, List.isPrefixOf_iff_prefix.1 (Bool.and_eq_true_iff.1 hv).1⟩
    case h_2 => cases hv
  obtain ⟨ip, c, -, rfl⟩ := hmade.made driveId mountPath hm
  obtain ⟨hslash, hbase⟩ := baseName_mountPath ip c
  have hiff := prefix_lexical_iff_of_begins hslash hbase hbegins
  constructor
  · rintro ⟨_, hm', hl, -⟩
    obtain rfl := Option.some.inj (hm.symm.trans hm')
    exact ⟨_, hm, hiff.1 hl⟩
  · rintro ⟨_, hm', hstays⟩
    obtain rfl := Option.some.inj (hm.symm.trans hm')
    have hl := hiff.2 hstays
    exact ⟨_, hm, hl, fun other p hne hp => (hs.apart driveId other _ p hne.symm hm hp).not_both hl⟩

def mounted : Service := Runs.run Service.step (Service.start twoMounts ∅) mounts

theorem mounts_apart : Runs.Meets Service.step MountsApart (Service.start twoMounts ∅) mounts :=
  mountsApart_of_plainAddress twoMounts ∅ ⟨fun _ => by decide, fun _ => by decide, trivial⟩

theorem path_mounted : mounted.network.mSambaPathMap["SAMBA_1".toList]? = some "/tmp/nas_12:34:56_7".toList := by
  decide +kernel

theorem own_directory_separated : mounted.network.Separated "SAMBA_1".toList "/tmp/nas_12:34:56_7".toList :=
  (samba_separated_iff twoMounts ∅ mounts mounts_apart _ _).2
    (fun _ => ⟨_, path_mounted, .inl ⟨[], (List.append_nil _).symm, .inl rfl, rfl⟩⟩)
    rfl

/-- The check of the first drive accepts the directory of the second. -/
theorem next_directory_accepted :
    Runs.Meets Service.step MountsApart (Service.start twoMounts ∅) mounts ∧
      validateSambaPath mounted.world.fs mounted.world.mSambaDrivePathMap "/tmp/nas_12:34:56_70".toList
        "SAMBA_1".toList = true ∧
      ¬ mounted.network.Separated "SAMBA_1".toList "/tmp/nas_12:34:56_70".toList := by
  refine ⟨mounts_apart, rfl, ?_⟩
  rintro ⟨mountPath, hm, hl, -⟩
  obtain rfl : "/tmp/nas_12:34:56_7".toList = mountPath := Option.some.inj (path_mounted.symm.trans hm)
  exact absurd hl (by decide)

end StorageAccess
