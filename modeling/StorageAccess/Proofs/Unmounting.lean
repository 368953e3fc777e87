import StorageAccess.Proofs.Ejecting
/-!
# A mount and its eject

An eject takes from the tables what the mount of its drive has put there, and
nothing else: the two together leave every table as it was, but for the number
of the next drive.
-/

open Posix Json

namespace StorageAccess

/-- A key that was put in and taken out again is gone without a trace. -/
theorem Table.erase_insert {α : Type} {t : Table α} {key : Str} (h : key ∉ t) (v : α) : (t.insert key v).erase key = t := by
  refine Std.ExtTreeMap.ext_getElem? fun a => ?_
  rw [Table.get_erase, Table.get_insert]
  split
  case isTrue e =>
    subst e
    exact (Std.ExtTreeMap.getElem?_eq_none h).symm
  case isFalse => rfl

namespace NetworkProvider

/-- A share that is dropped leaves the tables as they were before it was added. -/
theorem dropShare_addShare {s : NetworkProvider} {key sessionId path : Str} (hkey : key ∉ s.mSambaDriveMap)
    (hpath : path ∉ s.mntpathmap) (hpaths : sambaId (nextId s.sambaIds) ∉ s.mSambaPathMap)
    (howners : sambaId (nextId s.sambaIds) ∉ s.mSambaSessionData)
    (hkeys : ∀ k : Str, s.mSambaDriveMap[k]? ≠ some (sambaId (nextId s.sambaIds))) :
    (s.addShare key sessionId path).dropShare (sambaId (nextId s.sambaIds)) path =
      { s with sambaIds := nextId s.sambaIds } := by
  have herase : (s.addShare key sessionId path).eraseShareKey (sambaId (nextId s.sambaIds)) =
      { s.addShare key sessionId path with mSambaDriveMap := s.mSambaDriveMap } := by
    rcases eraseShareKey_cases (s.addShare key sessionId path) (sambaId (nextId s.sambaIds)) with
      ⟨k, hk, he⟩ | ⟨hnone, -⟩
    · -- no other key stands for the new drive
      obtain rfl : key = k := by
        rw [addShare, Table.get_insert] at hk
        by_contra hne
        rw [if_neg hne] at hk
        exact hkeys k hk
      rw [he, addShare, Table.erase_insert hkey]
    · exact absurd (by rw [addShare, Table.get_insert, if_pos rfl]) (hnone key)
  rw [dropShare, herase, addShare, Table.erase_insert hpath, Table.erase_insert howners, Table.erase_insert hpaths]

/-- An eject numbers no drive. -/
theorem EjectStep.sambaIds {os : Os} {net : Net} {req : RequestData} {s s' : NetworkProvider} {w w' : World}
    (h : EjectStep os net req s w s' w') : s'.sambaIds = s.sambaIds := by
  obtain ⟨-, -, -, -, -, hids⟩ := eraseShareKey_paths s (req.str "driveId")
  cases h with
  | refused _ tables => rw [tables]
  | unlisted _ _ tables | stuck _ _ _ _ tables | ejected _ _ _ _ _ tables => rwa [tables]

end NetworkProvider

/-- The step mounts no share, ejects none and looks for no media servers. -/
def KeepsDrives : Service.Label → Prop
  | .request _ req => route req = .network → ¬ NetworkProvider.IsMount req ∧ ¬ NetworkProvider.IsDiscover req ∧
      req.methodType ≠ .ejectMethod
  | _ => True

theorem KeepsDrives.step {s : Service} {l : Service.Label} (hs : s.network.Listed) (hl : KeepsDrives l) :
    (s.step l).network = s.network ∧ SameDrives s.world (s.step l).world := by
  cases tablesStep hs l with
  | elsewhere tables world => exact ⟨tables, world⟩
  | handled env req label routed step =>
    subst label
    obtain ⟨hmount, hdiscover, heject⟩ := hl routed
    cases step with
    | mount request => exact absurd request hmount
    | eject request => exact absurd request heject
    | discovered request => exact absurd request hdiscover
    | same tables world => exact ⟨tables, world⟩

theorem keepsDrives_run {s : Service} {ls : List Service.Label} (hs : s.network.Listed) (hls : ∀ l ∈ ls, KeepsDrives l) :
    (Runs.run Service.step s ls).network = s.network ∧ SameDrives s.world (Runs.run Service.step s ls).world := by
  induction ls generalizing s with
  | nil => exact ⟨rfl, rfl⟩
  | cons l ls ih =>
    obtain ⟨hnet, hworld⟩ := (hls l List.mem_cons_self).step hs
    obtain ⟨hnet', hworld'⟩ := ih (hnet ▸ hs) fun l' hl' => hls l' (List.mem_cons_of_mem l hl')
    exact ⟨hnet'.trans hnet, hworld'.trans hworld⟩

/-- A step that issues a drive id mounts a share under it. -/
theorem addShare_of_issued {s : Service} {l : Service.Label} {driveId : Str} (hs : s.network.Listed)
    (h : issued s l = [driveId]) : ∃ env req, l = .request env req ∧
      (NetworkProvider.share req).key ∉ s.network.mSambaDriveMap ∧
      NetworkProvider.newMount env.net req ∉ s.network.mntpathmap ∧
      driveId = NetworkProvider.sambaId (NetworkProvider.nextId s.network.sambaIds) ∧
      (s.step l).network = s.network.addShare (NetworkProvider.share req).key req.sessionId
        (NetworkProvider.newMount env.net req) := by
  have hmoved : (s.step l).network.sambaIds ≠ s.network.sambaIds := by
    intro hsame
    rw [issued_of_eq hsame] at h
    cases h
  rw [issued, if_neg hmoved] at h
  cases tablesStep hs l with
  | elsewhere tables => exact absurd (congrArg NetworkProvider.sambaIds tables) hmoved
  | handled env req label routed step =>
    cases step with
    | same tables => exact absurd (congrArg NetworkProvider.sambaIds tables) hmoved
    | discovered request tables =>
      obtain ⟨-, -, -, -, hids⟩ := NetworkProvider.addServers_samba req.sessionId env.net.scannedDevices s.network
      exact absurd (by rw [tables, hids]) hmoved
    | eject request step => exact absurd step.sambaIds hmoved
    | mount request step =>
      rcases step.tables_cases with tables | ⟨hnew, hfree, tables⟩
      · exact absurd (congrArg NetworkProvider.sambaIds tables) hmoved
      · refine ⟨env, req, label, hnew, hfree, ?_, tables⟩
        rw [← List.singleton_inj.1 h, tables]
        rfl

/-- As long as the counter has not wrapped, it runs through the numbers a run issues. -/
theorem SharesInv.cons {s : Service} (hs : SharesInv s) {l : Service.Label} {ls : List Service.Label}
    (hfew : s.network.sambaIds + (issuedAlong s (l :: ls)).length < 2 ^ 32) :
    ((s.step l).network.sambaIds ≠ s.network.sambaIds → s.network.sambaIds + 1 < 2 ^ 32) ∧ SharesInv (s.step l) ∧
      (s.step l).network.sambaIds + (issuedAlong (s.step l) ls).length =
        s.network.sambaIds + (issuedAlong s (l :: ls)).length := by
  have hlen : (issuedAlong s (l :: ls)).length = (issued s l).length + (issuedAlong (s.step l) ls).length :=
    List.length_append
  have hissued (h : (s.step l).network.sambaIds ≠ s.network.sambaIds) : (issued s l).length = 1 :=
    congrArg List.length (if_neg h)
  have hroom (hne : (s.step l).network.sambaIds ≠ s.network.sambaIds) : s.network.sambaIds + 1 < 2 ^ 32 := by
    have hone := hissued hne
    omega
  obtain ⟨hstep, hids⟩ := hs.step l hroom
  have hnext : (s.step l).network.sambaIds = s.network.sambaIds + (issued s l).length := by
    by_cases hsame : (s.step l).network.sambaIds = s.network.sambaIds
    · rw [issued_of_eq hsame, hsame]
      rfl
    · rw [hissued hsame]
      exact hids.resolve_left hsame
  exact ⟨hroom, hstep, by rw [hnext, hlen, Nat.add_assoc]⟩

theorem sambaIds_run {s : Service} (hs : SharesInv s) (ls : List Service.Label)
    (hfew : s.network.sambaIds + (issuedAlong s ls).length < 2 ^ 32) :
    (Runs.run Service.step s ls).network.sambaIds = s.network.sambaIds + (issuedAlong s ls).length := by
  induction ls generalizing s with
  | nil => rfl
  | cons l ls ih =>
    obtain ⟨-, hstep, hcount⟩ := hs.cons hfew
    rw [Runs.run_cons, ih hstep (hcount ▸ hfew), hcount]

/-- In every run that numbers fewer than 2^32 drives: a mount, whatever is done to the
drives meanwhile but mounting, ejecting and discovering, and the eject of the drive by
the session that mounted it leave every table as it was, but for the drive's number. -/
theorem eject_undoes_mount (fs : FS) (cloud : Table CloudFile) (before : List Service.Label)
    (hfew : (issuedAlong (Service.start fs cloud) before).length + 1 < 2 ^ 32) (env : Env) (mount : RequestData)
    (driveId : Str)
    (hmount : issued (Runs.run Service.step (Service.start fs cloud) before) (.request env mount) = [driveId])
    (between : List Service.Label) (hbetween : ∀ l ∈ between, KeepsDrives l) (env' : Env) (eject : RequestData)
    (heject : AsksEject eject) (hdrive : eject.str "driveId" = driveId) (howner : eject.sessionId = mount.sessionId)
    (hfreed : env'.net.umount.isSome) :
    let s := Runs.run Service.step (Service.start fs cloud) before
    let s' := Runs.run Service.step s (.request env mount :: between ++ [.request env' eject])
    s'.network = { s.network with sambaIds := s.network.sambaIds + 1 } ∧ SameDrives s.world s'.world := by
  intro s s'
  have hzero : (Service.start fs cloud).network.sambaIds = 0 := rfl
  obtain ⟨hs, -⟩ := (SharesInv.start fs cloud).run before (by omega)
  have hids := sambaIds_run (SharesInv.start fs cloud) before (by omega)
  change SharesInv s at hs
  change s.network.sambaIds = _ at hids
  have hnext : NetworkProvider.nextId s.network.sambaIds = s.network.sambaIds + 1 := Nat.mod_eq_of_lt (by omega)
  -- the mount puts the drive into the tables
  obtain ⟨env₁, mount₁, hlabel, hkey, hfree, hid, hadded⟩ := addShare_of_issued hs.listed hmount
  cases hlabel
  have hnew : driveId ∉ s.network.mSambaSessionData := by
    rw [hid, hnext]
    exact hs.numbered.not_mem
  have hlisted := hs.listed.step (.request env mount)
  -- what comes between leaves them alone
  obtain ⟨hkept, -⟩ := keepsDrives_run hlisted hbetween
  have hs' : s' = (Runs.run Service.step (s.step (.request env mount)) between).step (.request env' eject) := by
    unfold s'
    rw [List.cons_append, Runs.run_cons, Runs.run, List.foldl_append]
    rfl
  generalize Runs.run Service.step (s.step (.request env mount)) between = s₂ at hkept hs'
  rw [hadded] at hkept
  have hown : s₂.network.validateSambaOperation (eject.str "driveId") eject.sessionId = true := by
    rw [NetworkProvider.validateSambaOperation, hkept, hdrive, howner, hid, NetworkProvider.addShare, Table.get_insert]
    simp
  have hpath : s₂.network.mSambaPathMap[eject.str "driveId"]? = some (NetworkProvider.newMount env.net mount) := by
    rw [hkept, hdrive, hid, NetworkProvider.addShare, Table.get_insert, if_pos rfl]
  have hdropped : s₂.network.dropShare (eject.str "driveId") (NetworkProvider.newMount env.net mount) =
      { s.network with sambaIds := s.network.sambaIds + 1 } := by
    rw [hkept, hdrive, hid, NetworkProvider.dropShare_addShare hkey hfree, hnext]
    · exact hid ▸ fun h => hnew ((hs.consistent.keys _).2 h)
    · exact hid ▸ hnew
    · exact hid ▸ fun k h => hnew (hs.consistent.owned k _ h)
  have hmethod : NetworkProvider.handleRequests env'.os env'.net eject s₂.network s₂.world =
      NetworkProvider.eject env'.os env'.net eject s₂.network s₂.world := by
    simp only [NetworkProvider.handleRequests, heject.2]
  rw [hs', step_network heject.1, hmethod]
  dsimp only
  cases NetworkProvider.ejectStep_eject env'.os env'.net eject s₂.network s₂.world with
  | refused foreign => exact absurd hown (by rw [foreign]; decide)
  | unlisted _ lost =>
    rw [hpath] at lost
    cases lost
  | stuck _ _ _ busy =>
    rw [busy] at hfreed
    cases hfreed
  | ejected _ path found _ _ tables world =>
    obtain rfl := Option.some.inj (hpath.symm.trans found)
    rw [hdropped] at tables
    refine ⟨tables, ?_⟩
    have hcopy : (NetworkProvider.eject env'.os env'.net eject s₂.network s₂.world).2.mSambaDrivePathMap =
        (NetworkProvider.eject env'.os env'.net eject s₂.network s₂.world).1.mSambaPathMap := by
      rw [world]
      rfl
    rw [SameDrives, hcopy, tables]
    exact hs.consistent.copy.symm

def umountEnv : Env := { Env.quiet with net := { Net.quiet with umount := some twoMounts } }

/-- A share is mounted, its files change, and it is ejected. -/
theorem share_mounted_and_ejected :
    let s := Runs.run Service.step (Service.start twoMounts ∅) []
    let s' := Runs.run Service.step s (.request (mountEnv ⟨7, by decide⟩) (mountCall "a" "guest") ::
      [.others twoMounts ∅] ++ [.request umountEnv (ejectCall "SAMBA_1" "guest")])
    s'.network = { s.network with sambaIds := s.network.sambaIds + 1 } ∧ SameDrives s.world s'.world := by
  refine eject_undoes_mount twoMounts ∅ [] (by decide) (mountEnv ⟨7, by decide⟩) (mountCall "a" "guest") "SAMBA_1".toList
    (by decide) [.others twoMounts ∅] (fun l hl => ?_) umountEnv (ejectCall "SAMBA_1" "guest") ⟨rfl, rfl⟩ rfl rfl rfl
  rw [List.mem_singleton.1 hl]
  trivial

end StorageAccess
