import StorageAccess.Lib.Leases
import StorageAccess.Proofs.Collisions
import StorageAccess.Proofs.Unmounting
/-!
# The shares are leases

The tables of the shares, and the copy of one of them the utility singleton keeps,
stand for one table of leases: a drive is leased to a session, at the directory it is
mounted in, under the key of its share. Mounting grants a lease, ejecting releases one,
and an eject that fails forgets its key.
-/

open Posix Json

namespace StorageAccess

open SAFUtilityOperation

/-- The drives by their ids: the session each belongs to, where it is mounted, and the key of its share. -/
abbrev ShareLeases := Leases Str Str Str Str

namespace NetworkProvider

/-! ## What the leases are to do -/

open Classical in
/-- Mount a share as the next drive. -/
noncomputable def mountLease (net : Net) (req : RequestData) (n : Nat) (t : ShareLeases) : ShareLeases × Bool :=
  if ¬ Valid req ∨ t.Known (share req).key ∨ net.mkdir = none then (t, false)
  -- a directory that is in use is answered like a mount
  else if ¬ t.Free (newMount net req) then (t, true)
  else if net.mount = none then (t, false)
  else (t.grant (sambaId (nextId n)) ⟨req.sessionId, newMount net req, some (share req).key⟩, true)

open Classical in
/-- Eject a drive. -/
noncomputable def ejectLease (net : Net) (req : RequestData) (t : ShareLeases) : ShareLeases × Bool :=
  if ¬ t.HeldBy (req.str "driveId") req.sessionId then (t, false)
  else if net.umount = none then (t.forget (req.str "driveId"), false)
  else (t.release (req.str "driveId"), true)

/-! ## What the tables say -/

/-- The key a drive is known under. -/
def keyOf (s : NetworkProvider) (d : Str) : Option Str := (s.mSambaDriveMap.toList.find? (·.2 = d)).map (·.1)

def leases (s : NetworkProvider) : ShareLeases := fun d =>
  match s.mSambaSessionData[d]?, s.mSambaPathMap[d]? with
  | some owner, some path => some ⟨owner, path, s.keyOf d⟩
  | _, _ => none

theorem leases_eq_some {s : NetworkProvider} {d : Str} {x : Lease Str Str Str} :
    s.leases d = some x ↔
      s.mSambaSessionData[d]? = some x.holder ∧ s.mSambaPathMap[d]? = some x.place ∧ s.keyOf d = x.key := by
  unfold leases
  obtain ⟨holder, place, key⟩ := x
  cases s.mSambaSessionData[d]? <;> cases s.mSambaPathMap[d]? <;> simp

theorem leases_congr {s s' : NetworkProvider} {d : Str} (hsession : s'.mSambaSessionData[d]? = s.mSambaSessionData[d]?)
    (hpath : s'.mSambaPathMap[d]? = s.mSambaPathMap[d]?) (hkey : s'.keyOf d = s.keyOf d) : s'.leases d = s.leases d := by
  unfold leases
  rw [hsession, hpath, hkey]

theorem keyOf_eq_some {s : NetworkProvider}
    (hinj : ∀ k k' d : Str, s.mSambaDriveMap[k]? = some d → s.mSambaDriveMap[k']? = some d → k = k') {d k : Str} :
    s.keyOf d = some k ↔ s.mSambaDriveMap[k]? = some d := by
  have hfound {entry : Str × Str} (h : s.mSambaDriveMap.toList.find? (·.2 = d) = some entry) :
      s.mSambaDriveMap[entry.1]? = some d := by
    have hval : entry.2 = d := by simpa using List.find?_some h
    exact hval ▸ Std.ExtTreeMap.mem_toList_iff_getElem?_eq_some.1 (List.mem_of_find?_eq_some h)
  unfold keyOf
  constructor
  · intro h
    obtain ⟨entry, hentry, rfl⟩ := Option.map_eq_some_iff.1 h
    exact hfound hentry
  · intro h
    have hmem := Std.ExtTreeMap.mem_toList_iff_getElem?_eq_some.2 h
    have hsome : (s.mSambaDriveMap.toList.find? (·.2 = d)).isSome :=
      List.find?_isSome.2 ⟨(k, d), hmem, decide_eq_true rfl⟩
    obtain ⟨entry, hentry⟩ := Option.isSome_iff_exists.1 hsome
    rw [hentry, Option.map_some, hinj _ _ d (hfound hentry) h]

end NetworkProvider

section Reading

variable {s : Service} (hc : Consistent s)

include hc

theorem leases_get {d path : Str} (h : s.network.mSambaPathMap[d]? = some path) :
    ∃ owner, s.network.mSambaSessionData[d]? = some owner ∧
      s.network.leases d = some ⟨owner, path, s.network.keyOf d⟩ := by
  obtain ⟨owner, howner⟩ := (Table.mem_iff_get _).1 ((hc.keys d).2 ((Table.mem_iff_get _).2 ⟨path, h⟩))
  exact ⟨owner, howner, NetworkProvider.leases_eq_some.2 ⟨howner, h, rfl⟩⟩

/-- The session may use a drive exactly if it holds the lease. -/
theorem validateSambaOperation_iff (d sessionId : Str) :
    s.network.validateSambaOperation d sessionId = true ↔ s.network.leases.HeldBy d sessionId := by
  rw [NetworkProvider.validateSambaOperation, decide_eq_true_eq]
  constructor
  · intro h
    obtain ⟨path, hpath⟩ := (Table.mem_iff_get _).1 ((hc.keys d).1 ((Table.mem_iff_get _).2 ⟨sessionId, h⟩))
    exact ⟨⟨sessionId, path, _⟩, NetworkProvider.leases_eq_some.2 ⟨h, hpath, rfl⟩, rfl⟩
  · rintro ⟨x, hx, rfl⟩
    exact (NetworkProvider.leases_eq_some.1 hx).1

theorem free_iff (path : Str) : s.network.leases.Free path ↔ path ∉ s.network.mntpathmap := by
  rw [hc.dirs]
  constructor
  · rintro hfree ⟨d, hd⟩
    obtain ⟨owner, -, hx⟩ := leases_get hc hd
    exact hfree d _ hx rfl
  · rintro h d x hx rfl
    exact h ⟨d, (NetworkProvider.leases_eq_some.1 hx).2.1⟩

theorem known_iff (key : Str) : s.network.leases.Known key ↔ key ∈ s.network.mSambaDriveMap := by
  constructor
  · rintro ⟨d, x, hx, hkey⟩
    have hd := (NetworkProvider.keyOf_eq_some hc.shares).1 ((NetworkProvider.leases_eq_some.1 hx).2.2.trans hkey)
    exact (Table.mem_iff_get _).2 ⟨d, hd⟩
  · intro h
    obtain ⟨d, hd⟩ := (Table.mem_iff_get _).1 h
    obtain ⟨path, hpath⟩ := (Table.mem_iff_get _).1 ((hc.keys d).1 (hc.owned key d hd))
    obtain ⟨owner, -, hx⟩ := leases_get hc hpath
    exact ⟨d, _, hx, (NetworkProvider.keyOf_eq_some hc.shares).2 hd⟩

end Reading

/-! ## Steps -/

section Steps

variable {s : Service}

theorem leases_addShare (hs : SharesInv s) (hfew : s.network.sambaIds + 1 < 2 ^ 32) {key sessionId path : Str}
    (hkey : key ∉ s.network.mSambaDriveMap) (hpath : path ∉ s.network.mntpathmap) :
    (s.network.addShare key sessionId path).leases =
      s.network.leases.grant (NetworkProvider.sambaId (NetworkProvider.nextId s.network.sambaIds))
        ⟨sessionId, path, some key⟩ := by
  have hafter : Consistent { s with
      network := s.network.addShare key sessionId path
      world := { s.world with mSambaDrivePathMap := (s.network.addShare key sessionId path).mSambaPathMap } } :=
    Consistent.addShare hs hfew hpath rfl
  funext d
  rw [Leases.grant_apply]
  split
  case isTrue hd =>
    subst hd
    refine NetworkProvider.leases_eq_some.2 ⟨?_, ?_, (NetworkProvider.keyOf_eq_some hafter.shares).2 ?_⟩
    all_goals simp only [NetworkProvider.addShare, Table.get_insert, if_true]
  case isFalse hd =>
    refine NetworkProvider.leases_congr ?_ ?_ (Option.ext fun k => ?_)
    · simp only [NetworkProvider.addShare, Table.get_insert, if_neg (Ne.symm hd)]
    · simp only [NetworkProvider.addShare, Table.get_insert, if_neg (Ne.symm hd)]
    · rw [NetworkProvider.keyOf_eq_some hafter.shares, NetworkProvider.keyOf_eq_some hs.consistent.shares]
      simp only [NetworkProvider.addShare, Table.get_insert]
      split
      case isTrue hk =>
        subst hk
        rw [Std.ExtTreeMap.getElem?_eq_none hkey]
        simpa using Ne.symm hd
      case isFalse => exact Iff.rfl

theorem leases_eraseShareKey (hc : Consistent s) (driveId : Str) :
    (s.network.eraseShareKey driveId).leases = s.network.leases.forget driveId := by
  obtain ⟨hpaths, hsessions, -⟩ := NetworkProvider.eraseShareKey_paths s.network driveId
  have hkept := NetworkProvider.get_eraseShareKey hc.shares driveId
  have hshares (k k' d : Str) (h : (s.network.eraseShareKey driveId).mSambaDriveMap[k]? = some d)
      (h' : (s.network.eraseShareKey driveId).mSambaDriveMap[k']? = some d) : k = k' :=
    hc.shares k k' d ((hkept k d).1 h).1 ((hkept k' d).1 h').1
  funext d
  rw [Leases.forget_apply]
  split
  case isTrue hd =>
    subst hd
    have hgone : (s.network.eraseShareKey d).keyOf d = none := by
      refine Option.eq_none_iff_forall_ne_some.2 fun k hk => ?_
      exact ((hkept k d).1 ((NetworkProvider.keyOf_eq_some hshares).1 hk)).2 rfl
    unfold NetworkProvider.leases
    rw [hpaths, hsessions, hgone]
    cases s.network.mSambaSessionData[d]? <;> cases s.network.mSambaPathMap[d]? <;> rfl
  case isFalse hd =>
    refine NetworkProvider.leases_congr (by rw [hsessions]) (by rw [hpaths]) (Option.ext fun k => ?_)
    rw [NetworkProvider.keyOf_eq_some hshares, NetworkProvider.keyOf_eq_some hc.shares, hkept]
    exact and_iff_left hd

theorem leases_dropShare (hc : Consistent s) (driveId path : Str) :
    (s.network.dropShare driveId path).leases = s.network.leases.release driveId := by
  funext d
  rw [Leases.release_apply]
  split
  case isTrue hd =>
    subst hd
    unfold NetworkProvider.leases NetworkProvider.dropShare
    simp only [Table.get_erase, if_true]
  case isFalse hd =>
    have hforget := congrFun (leases_eraseShareKey hc driveId) d
    rw [Leases.forget_apply, if_neg hd] at hforget
    obtain ⟨hpaths, hsessions, -⟩ := NetworkProvider.eraseShareKey_paths s.network driveId
    rw [← hforget]
    refine NetworkProvider.leases_congr ?_ ?_ rfl
    · rw [hsessions, NetworkProvider.dropShare, Table.get_erase, if_neg (Ne.symm hd)]
    · rw [hpaths, NetworkProvider.dropShare, Table.get_erase, if_neg (Ne.symm hd)]

open NetworkProvider in
/-- A mount request grants a lease where it should, and is answered accordingly. -/
theorem NetworkProvider.MountStep.leases (hs : SharesInv s) {env : Env} {req : RequestData} {s' : NetworkProvider}
    {w' : World} (hfew : s'.sambaIds ≠ s.network.sambaIds → s.network.sambaIds + 1 < 2 ^ 32)
    (hextra : validateExtraCommand ["ip", "sharePath"] req = true) (h : MountStep env.net req s.network s.world s' w') :
    ∃ r, newReplies s.world w' = [r] ∧
      (s'.leases, (r.get "returnValue").asBool) = mountLease env.net req s.network.sambaIds s.network.leases := by
  have hc := hs.consistent
  have hvalid (hcomplete : Complete req) : ¬ ¬ Valid req := not_not.2 ⟨hextra, hcomplete⟩
  unfold mountLease
  cases h with
  | incomplete text missing tables world =>
    refine ⟨_, newReplies_of_append (by rw [world]; rfl), ?_⟩
    rw [if_pos (.inl fun hv => missing hv.complete), tables]
    rfl
  | known complete found tables world =>
    refine ⟨_, newReplies_of_append (by rw [world]; rfl), ?_⟩
    rw [if_pos (.inr (.inl ((known_iff hc _).2 found))), tables]
    rfl
  | unmade complete new nodir tables world =>
    refine ⟨_, newReplies_of_append (by rw [world]; rfl), ?_⟩
    rw [if_pos (.inr (.inr nodir)), tables]
    rfl
  | inUse complete new made dir used tables world =>
    refine ⟨mountReply env.net req, newReplies_of_append (by rw [world]; rfl), ?_⟩
    rw [if_neg (by simp [hvalid complete, known_iff hc, new, dir]), if_pos (by simpa [free_iff hc] using used), tables]
    rfl
  | failed complete new made dir free unmounted tables world =>
    refine ⟨_, newReplies_of_append (by rw [world]; rfl), ?_⟩
    rw [if_neg (by simp [hvalid complete, known_iff hc, new, dir]), if_neg (by simpa [free_iff hc] using free),
      if_pos unmounted, tables]
    rfl
  | mounted complete new made dir free tree mount tables world =>
    have hreplies : w'.replies = s.world.replies ++ [mountReply env.net req] := by
      rw [world, World.reply_replies, afterMount_replies]
    refine ⟨mountReply env.net req, newReplies_of_append hreplies, ?_⟩
    rw [if_neg (by simp [hvalid complete, known_iff hc, new, dir]), if_neg (by simpa [free_iff hc] using free),
      if_neg (by simp [mount]), tables, leases_addShare hs _ new free]
    · rfl
    · exact hfew (by rw [tables]; exact nextId_ne _)

open NetworkProvider in
/-- An eject request of the holder releases the lease, or forgets its key. -/
theorem NetworkProvider.EjectStep.leases (hc : Consistent s) {env : Env} {req : RequestData} {s' : NetworkProvider}
    {w' : World} (h : EjectStep env.os env.net req s.network s.world s' w') :
    ∃ r, newReplies s.world w' = [ejectReply req r] ∧
      (s'.leases, (r.get "returnValue").asBool) = ejectLease env.net req s.network.leases := by
  have hheld := validateSambaOperation_iff hc (req.str "driveId") req.sessionId
  unfold ejectLease
  cases h with
  | refused foreign tables world =>
    refine ⟨_, newReplies_of_append (by rw [world]; rfl), ?_⟩
    rw [if_pos (by rw [← hheld, foreign]; decide), tables]
    rfl
  | unlisted own lost tables world =>
    obtain ⟨x, hx, -⟩ := hheld.1 own
    rw [(leases_eq_some.1 hx).2.1] at lost
    cases lost
  | stuck own path found busy tables world =>
    refine ⟨_, newReplies_of_append (by rw [world]; rfl), ?_⟩
    rw [if_neg (not_not.2 (hheld.1 own)), if_pos busy, tables, leases_eraseShareKey hc]
    rfl
  | ejected own path found tree freed tables world =>
    refine ⟨_, newReplies_of_append (by rw [world]; rfl), ?_⟩
    rw [if_neg (not_not.2 (hheld.1 own)), if_neg (by simp [freed]), tables, leases_dropShare hc]
    rfl

end Steps

end StorageAccess
