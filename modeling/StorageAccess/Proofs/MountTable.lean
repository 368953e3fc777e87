import Mathlib.Data.Finset.Basic
import StorageAccess.Proofs.Effects
import StorageAccess.Proofs.Unmounting
/-!
# The mounts of a run

What a run mounts and unmounts is replayed on a table of mounted directories. The
table never fails, and at the end it holds the directories of the drives.
-/

open Posix Json

namespace StorageAccess

open SAFUtilityOperation

/-! ## Replaying a log -/

/-- The directories that are mounted after an operation. Mounting one that is mounted, or
unmounting one that is not, is no step of the table, whether or not the attempt succeeds. -/
def mountTable (mounted : Finset Str) : FsOp → Option (Finset Str)
  | .mount _ path _ done => if path ∈ mounted then none else some (if done then insert path mounted else mounted)
  | .umount path done => if path ∈ mounted then some (if done then mounted.erase path else mounted) else none
  | _ => some mounted

def FsOp.mounts : FsOp → Bool
  | .mount .. | .umount .. => true
  | _ => false

theorem mountTable_of_not_mounts {op : FsOp} (h : op.mounts = false) (mounted : Finset Str) :
    mountTable mounted op = some mounted := by
  cases op with
  | mount | umount => cases h
  | _ => rfl

/-- The log replays to the table, which holds the directories in use. -/
structure Replays (s : Service) (mounted : Finset Str) : Prop where
  log : s.world.ops.foldlM mountTable ∅ = some mounted
  dirs : ∀ path, path ∈ mounted ↔ path ∈ s.network.mntpathmap

/-- Operations that neither mount nor unmount are skipped. -/
theorem foldlM_mountTable {ops : List FsOp} (h : ∀ op ∈ ops, op.mounts = false) (mounted : Finset Str) :
    ops.foldlM mountTable mounted = some mounted := by
  induction ops with
  | nil => rfl
  | cons op ops ih =>
    rw [List.foldlM_cons, mountTable_of_not_mounts (h op List.mem_cons_self)]
    exact ih fun o ho => h o (List.mem_cons_of_mem _ ho)

theorem Does.not_mounts {calls : List FsOp} {w w' : World} (h : Does calls w w') (hcalls : ∀ op ∈ calls, op.mounts = false)
    {before mounted : Finset Str} (hlog : w.ops.foldlM mountTable before = some mounted) :
    w'.ops.foldlM mountTable before = some mounted := by
  obtain ⟨ops, hops, he⟩ := h
  rw [he, List.foldlM_append, hlog]
  exact foldlM_mountTable (fun op ho => hcalls op (hops.subset ho)) mounted

/-! ## Requests that mount nothing -/

theorem mounts_pathCalls (req : RequestData) : ∀ op ∈ pathCalls req, op.mounts = false := by
  unfold pathCalls
  split <;> simp [FsOp.mounts]

theorem mounts_folderCalls (sessionId : Str) : ∀ op ∈ folderCalls sessionId, op.mounts = false := by
  simp [folderCalls, permissionCalls, FsOp.mounts]

theorem InternalStorageProvider.mounts_calls (req : RequestData) :
    ∀ op ∈ InternalStorageProvider.calls req, op.mounts = false := by
  have hfolder := mounts_folderCalls req.sessionId
  unfold InternalStorageProvider.calls
  split
  · split
    · simp only [List.mem_append, List.mem_cons]
      rintro op (h | rfl | h)
      · exact hfolder op h
      · rfl
      · exact hfolder op h
    · simp only [List.mem_cons]
      rintro op (rfl | h)
      · rfl
      · exact hfolder op h
  · exact hfolder
  · exact mounts_pathCalls req

theorem USBStorageProvider.mounts_calls (req : RequestData) :
    ∀ op ∈ USBStorageProvider.calls req, op.mounts = false := by
  unfold USBStorageProvider.calls
  split
  · split <;> simp [spaceCall, FsOp.mounts]
  · exact mounts_pathCalls req

theorem GDriveProvider.mounts_calls (req : RequestData) (s : GDriveProvider) :
    ∀ op ∈ s.calls req, op.mounts = false := by
  unfold GDriveProvider.calls uploadCalls downloadCalls
  repeat' split
  all_goals simp [FsOp.mounts]

/-- Only the commands to mount and to eject touch the mounts. -/
theorem NetworkProvider.mounts_calls {req : RequestData} (hmount : ¬ IsMount req) (heject : req.methodType ≠ .ejectMethod)
    (net : Net) (s : NetworkProvider) : ∀ op ∈ s.calls net req, op.mounts = false := by
  unfold NetworkProvider.calls
  split
  case h_1 hm =>
    rw [if_neg fun h => hmount ⟨hm, h⟩]
    exact nofun
  case h_2 hm => exact absurd hm heject
  case h_3 => split <;> simp [spaceCall, FsOp.mounts]
  case h_4 =>
    split
    · simp
    · exact mounts_pathCalls req
  case h_5 => exact mounts_pathCalls req

/-! ## Steps -/

namespace NetworkProvider

variable {s s' : Service}

/-- A mount request mounts a directory that is not in use, if any. -/
theorem MountStep.replays {net : Net} {req : RequestData} {mounted : Finset Str} (hm : Replays s mounted)
    (h : MountStep net req s.network s.world s'.network s'.world) : ∃ mounted', Replays s' mounted' := by
  obtain ⟨hlog, hdirs⟩ := hm
  -- up to the mount itself there is the command that makes the directory
  have hmkdir {ops : List FsOp}
      (hops : s'.world.ops = s.world.ops ++ .shell ("mkdir -p ".toList ++ newMount net req) :: ops) :
      s'.world.ops.foldlM mountTable ∅ = ops.foldlM mountTable mounted := by
    rw [hops, List.foldlM_append, hlog]
    rfl
  cases h with
  | incomplete _ _ tables world | known _ _ tables world =>
    exact ⟨mounted, by rwa [world], by rwa [tables]⟩
  | unmade _ _ _ tables world | inUse _ _ _ _ _ tables world =>
    have hlog' : s'.world.ops.foldlM mountTable ∅ = [].foldlM mountTable mounted := hmkdir (by rw [world]; rfl)
    exact ⟨mounted, hlog', by rwa [tables]⟩
  | failed _ _ made _ free _ tables world =>
    have hops : s'.world.ops = s.world.ops ++ .shell ("mkdir -p ".toList ++ newMount net req) ::
        [.mount (mountSource (share req).ip (share req).userName) (newMount net req) (newData net req) false] := by
      rw [world]
      exact List.append_assoc ..
    refine ⟨mounted, (hmkdir hops).trans ?_, by rwa [tables]⟩
    rw [List.foldlM_cons, mountTable, if_neg (mt (hdirs _).1 free)]
    rfl
  | mounted _ _ made _ free tree _ tables world =>
    have hops : s'.world.ops = s.world.ops ++ mountOps net req tree := by
      rw [world]
      exact afterMount_ops net req s.world made tree
    refine ⟨insert (newMount net req) mounted, (hmkdir hops).trans ?_, fun path => ?_⟩
    · rw [List.foldlM_cons, mountTable, if_neg (mt (hdirs _).1 free)]
      refine foldlM_mountTable ?_ _
      unfold permissionOps
      split <;> simp [FsOp.mounts]
    · rw [tables, addShare, Table.mem_insert_iff, Finset.mem_insert, hdirs, eq_comm]

/-- An eject unmounts a directory in use, if any. -/
theorem EjectStep.replays {os : Os} {net : Net} {req : RequestData} {mounted : Finset Str} (hm : Replays s mounted)
    (hs : Consistent s) (h : EjectStep os net req s.network s.world s'.network s'.world) :
    ∃ mounted', Replays s' mounted' := by
  obtain ⟨hlog, hdirs⟩ := hm
  obtain ⟨-, -, hkeys, -⟩ := eraseShareKey_paths s.network (req.str "driveId")
  cases h with
  | refused _ tables world => exact ⟨mounted, by rwa [world], by rwa [tables]⟩
  | unlisted _ _ tables world => exact ⟨mounted, by rwa [world], by rwa [tables, hkeys]⟩
  | stuck _ path found _ tables world =>
    refine ⟨mounted, ?_, by rwa [tables, hkeys]⟩
    rw [world, World.reply_ops, World.log_ops, List.foldlM_append, hlog]
    have hin : path ∈ mounted := (hdirs path).2 ((hs.dirs path).2 ⟨_, found⟩)
    simp [mountTable, hin]
  | ejected _ path found tree _ tables world =>
    refine ⟨mounted.erase path, ?_, fun p => ?_⟩
    · obtain ⟨removed, hremoved, hops⟩ := does_removePath os { s.world.log (.umount path true) with fs := tree } path
      have hops' : s'.world.ops = s.world.ops ++ ([.umount path true] ++ removed) := by
        rw [world, ← List.append_assoc]
        exact hops
      have hin : path ∈ mounted := (hdirs path).2 ((hs.dirs path).2 ⟨_, found⟩)
      rw [hops', List.foldlM_append, hlog, Option.bind_eq_bind, Option.bind_some]
      -- the removal is no mount
      rcases List.sublist_singleton.1 hremoved with rfl | rfl <;> simp [mountTable, hin]
    · rw [tables, dropShare, Table.mem_erase_iff, Finset.mem_erase, hdirs]
      exact and_congr_left fun _ => ne_comm

end NetworkProvider

/-- A step that is no mount and no eject. -/
theorem Replays.quiet {s : Service} {l : Service.Label} {mounted : Finset Str} (hm : Replays s mounted)
    (hdirs : (s.step l).network.mntpathmap = s.network.mntpathmap)
    (hcalls : ∀ op ∈ s.calls l, op.mounts = false) : Replays (s.step l) mounted where
  log := (s.does_step l).not_mounts hcalls hm.log
  dirs := by rw [hdirs]; exact hm.dirs

theorem Replays.step {s : Service} (hs : SharesInv s) {mounted : Finset Str} (hm : Replays s mounted) (l : Service.Label) :
    ∃ mounted', Replays (s.step l) mounted' := by
  cases l with
  | devices root req | others fs cloud => exact ⟨mounted, hm.quiet rfl nofun⟩
  | request env req =>
    cases hr : route req with
    | internal =>
      have hcalls : s.calls (.request env req) = InternalStorageProvider.calls req := by simp only [Service.calls, hr]
      refine ⟨mounted, hm.quiet ?_ (hcalls ▸ InternalStorageProvider.mounts_calls req)⟩
      simp only [Service.step, Service.handle, hr]
    | usb =>
      have hcalls : s.calls (.request env req) = USBStorageProvider.calls req := by simp only [Service.calls, hr]
      refine ⟨mounted, hm.quiet ?_ (hcalls ▸ USBStorageProvider.mounts_calls req)⟩
      simp only [Service.step, Service.handle, hr]
    | gdrive =>
      have hcalls : s.calls (.request env req) = GDriveProvider.calls req s.gdrive := by simp only [Service.calls, hr]
      refine ⟨mounted, hm.quiet ?_ (hcalls ▸ GDriveProvider.mounts_calls req s.gdrive)⟩
      simp only [Service.step, Service.handle, hr]
    | network =>
      by_cases hmount : NetworkProvider.IsMount req
      · have hstep := NetworkProvider.mountStep_mountSambaServer env.net req s.network s.world
        rw [step_network hr, NetworkProvider.handleRequests_mount hmount]
        split
        · exact NetworkProvider.MountStep.replays hm hstep
        · exact ⟨mounted, hm.log, hm.dirs⟩
      by_cases heject : req.methodType = .ejectMethod
      · have hstep := NetworkProvider.ejectStep_eject env.os env.net req s.network s.world
        have hhandle : NetworkProvider.handleRequests env.os env.net req s.network s.world =
            NetworkProvider.eject env.os env.net req s.network s.world := by
          simp only [NetworkProvider.handleRequests, heject]
        rw [step_network hr, hhandle]
        exact NetworkProvider.EjectStep.replays hm hs.consistent hstep
      have hcalls : s.calls (.request env req) = NetworkProvider.calls env.net req s.network := by
        simp only [Service.calls, hr]
      refine ⟨mounted, hm.quiet ?_ (hcalls ▸ NetworkProvider.mounts_calls hmount heject env.net s.network)⟩
      rw [step_network hr]
      cases NetworkProvider.networkStep_handleRequests hs.listed env.os env.net req s.world with
      | mount request => exact absurd request hmount
      | eject request => exact absurd request heject
      | discovered _ tables =>
        obtain ⟨-, -, hdirs, -⟩ := NetworkProvider.addServers_samba req.sessionId env.net.scannedDevices s.network
        rw [tables, hdirs]
      | same tables => rw [tables]

/-! ## Runs -/

theorem Replays.run {s : Service} (hs : SharesInv s) {mounted : Finset Str} (hm : Replays s mounted)
    (ls : List Service.Label) (hfew : s.network.sambaIds + (issuedAlong s ls).length < 2 ^ 32) :
    ∃ mounted', Replays (Runs.run Service.step s ls) mounted' := by
  induction ls generalizing s mounted with
  | nil => exact ⟨mounted, hm⟩
  | cons l ls ih =>
    obtain ⟨-, hstep, hcount⟩ := hs.cons hfew
    obtain ⟨mounted', hm'⟩ := hm.step hs l
    exact ih hstep hm' (hcount ▸ hfew)

end StorageAccess
