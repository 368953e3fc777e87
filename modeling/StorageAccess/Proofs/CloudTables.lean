import StorageAccess.Proofs.Cloud
/-!
# The tables of the cloud drives

A login fills three tables, and every other handler reads them with
`operator[]`, behind a look-up in one of them. As the tables agree on which
drives there are, no look-up adds a key.
-/

open Posix Json

namespace StorageAccess

open SAFUtilityOperation

namespace GDriveProvider

/-- Each client has a drive of its own, and the drives are those with an owner and those with user data. -/
structure Consistent (s : GDriveProvider) : Prop where
  injective : ∀ c c' d : Str, s.mClientIdDriveId[c]? = some d → s.mClientIdDriveId[c']? = some d → c = c'
  sessions : ∀ d : Str, d ∈ s.mDriveIdSessionMap ↔ ∃ c : Str, s.mClientIdDriveId[c]? = some d
  users : ∀ d : Str, d ∈ s.mDriveIdUserDataMap ↔ ∃ c : Str, s.mClientIdDriveId[c]? = some d

/-- No table got a key, and no drive another owner or client. -/
structure SameKeys (s s' : GDriveProvider) : Prop where
  clients : s'.mClientIdDriveId = s.mClientIdDriveId
  sessions : s'.mDriveIdSessionMap = s.mDriveIdSessionMap
  users : ∀ d, d ∈ s'.mDriveIdUserDataMap ↔ d ∈ s.mDriveIdUserDataMap
  ids : s'.ids = s.ids

/-- A login gave a new client the next drive: one key more in each table. -/
structure Attached (req : RequestData) (s s' : GDriveProvider) : Prop where
  login : IsCommand "login" req
  new : param req "clientId" ∉ s.mClientIdDriveId
  clients : s'.mClientIdDriveId = s.mClientIdDriveId.insert (param req "clientId") (driveIdOf (s.ids + 1))
  sessions : s'.mDriveIdSessionMap = s.mDriveIdSessionMap.insert (driveIdOf (s.ids + 1)) req.sessionId
  users : ∀ d, d ∈ s'.mDriveIdUserDataMap ↔ driveIdOf (s.ids + 1) = d ∨ d ∈ s.mDriveIdUserDataMap
  ids : s'.ids = s.ids + 1

/-- Keys are added by a login alone. -/
def TablesStep (req : RequestData) (s s' : GDriveProvider) : Prop := SameKeys s s' ∨ Attached req s s'

/-! ## Handlers -/

theorem SameKeys.refl (s : GDriveProvider) : SameKeys s s := ⟨rfl, rfl, fun _ => Iff.rfl, rfl⟩

theorem Consistent.mem_sessions_iff {s : GDriveProvider} (hs : Consistent s) (d : Str) :
    d ∈ s.mDriveIdSessionMap ↔ d ∈ s.mDriveIdUserDataMap := (hs.sessions d).trans (hs.users d).symm

/-- Writing the data of a known drive adds no key. -/
theorem SameKeys.setUser {s s' : GDriveProvider} (h : SameKeys s s') {driveId : Str}
    (hd : driveId ∈ s.mDriveIdUserDataMap) (user : GDriveUserData) : SameKeys s (s'.setUser driveId user) := by
  refine ⟨h.clients, h.sessions, fun d => ?_, h.ids⟩
  simp only [GDriveProvider.setUser, Table.mem_insert_iff, h.users]
  constructor
  · rintro (rfl | hd')
    · exact hd
    · exact hd'
  · exact .inr

theorem SameKeys.reload {s s' : GDriveProvider} (h : SameKeys s s') {driveId : Str}
    (hd : driveId ∈ s.mDriveIdUserDataMap) (drive : Drive) (user : GDriveUserData) :
    SameKeys s (s'.reload drive driveId user) := h.setUser hd _

/-- The session of a drive with user data is looked up where it is. -/
theorem touch_session {s : GDriveProvider} (hs : Consistent s) {driveId : Str} (hd : driveId ∈ s.mDriveIdUserDataMap) :
    { s with mDriveIdSessionMap := touch s.mDriveIdSessionMap driveId [] } = s := by
  rw [Table.touch_of_mem _ ((hs.mem_sessions_iff driveId).2 hd)]

theorem sameKeys_guarded {s : GDriveProvider} (hs : Consistent s) {driveId : Str} {req : RequestData} {w : World}
    {go : GDriveProvider → GDriveUserData → World → GDriveProvider × World}
    (hgo : ∀ s' user, SameKeys s s' → driveId ∈ s.mDriveIdUserDataMap → SameKeys s (go s' user w).1) :
    SameKeys s (guarded driveId req s w go).1 := by
  unfold guarded
  split
  case h_1 => exact .refl s
  case h_2 user hu =>
    have hd : driveId ∈ s.mDriveIdUserDataMap := (Table.mem_iff_get _).2 ⟨user, hu⟩
    rw [touch_session hs hd]
    dsimp only
    split
    · exact .refl s
    have hset := (SameKeys.refl s).setUser hd { user with mAuthParam := touch user.mAuthParam refreshTokenKey [] }
    split
    · exact hset
    · exact hgo _ _ hset hd

theorem sameKeys_transfer {s : GDriveProvider} (hs : Consistent s) {req : RequestData} {w : World}
    {go : GDriveProvider → GDriveUserData → World → GDriveProvider × World}
    (hgo : ∀ s' user w, SameKeys s s' → transferDrive req ∈ s.mDriveIdUserDataMap → SameKeys s (go s' user w).1) :
    SameKeys s (s.transfer req w go).1 := by
  unfold transfer
  split
  · exact .refl s
  split
  · exact .refl s
  · exact sameKeys_guarded hs fun s' user => hgo s' user _

theorem sameKeys_finish {s s' : GDriveProvider} (h : SameKeys s s') {req : RequestData}
    (hd : transferDrive req ∈ s.mDriveIdUserDataMap) (drive : Drive) (user : GDriveUserData) (result : World × Bool) :
    SameKeys s (finish drive req s' user result).1 := by
  unfold finish
  split
  · exact h.reload hd drive user
  · exact h

theorem sameKeys_authenticateCloud (drive : Drive) (req : RequestData) (s : GDriveProvider) (w : World) :
    SameKeys s (authenticateCloud drive req s w).1 := by
  unfold authenticateCloud
  dsimp only
  split
  · exact .refl s
  case h_2 user hu =>
    have hd : req.str "driveId" ∈ s.mDriveIdUserDataMap := (Table.mem_iff_get _).2 ⟨user, hu⟩
    split
    · exact (SameKeys.refl s).setUser hd _
    split
    · exact (SameKeys.refl s).reload hd drive _
    · exact (SameKeys.refl s).setUser hd _

theorem sameKeys_setToken {s : GDriveProvider} (hs : Consistent s) (drive : Drive) (req : RequestData) (w : World) :
    SameKeys s (setToken drive req s w).1 := by
  unfold setToken
  split
  · exact .refl s
  case h_2 driveId hc =>
    have hd : driveId ∈ s.mDriveIdUserDataMap := (hs.users driveId).2 ⟨_, hc⟩
    rw [touch_session hs hd]
    dsimp only
    split
    · exact .refl s
    · exact (SameKeys.refl s).reload hd drive _

theorem tablesStep_extraMethod {s : GDriveProvider} (hs : Consistent s) (drive : Drive) {req : RequestData}
    (hm : req.methodType = .extraMethod) (w : World) : TablesStep req s (extraMethod drive req s w).1 := by
  unfold extraMethod
  split
  case isTrue hlogin =>
    unfold attachCloud
    dsimp only
    split
    · exact .inl (.refl s)
    case isFalse hnew =>
      have hc : param req "clientId" ∉ s.mClientIdDriveId := fun h => hnew (Std.ExtTreeMap.contains_iff_mem.2 h)
      split <;> exact .inr ⟨⟨hm, hlogin.1⟩, hc, rfl, rfl, fun d => Table.mem_insert_iff .., rfl⟩
  case isFalse =>
    refine .inl ?_
    split
    · exact sameKeys_authenticateCloud drive req s w
    split
    · exact sameKeys_setToken hs drive req w
    · exact .refl s

theorem tablesStep_handleRequests {s : GDriveProvider} (hs : Consistent s) (os : Os) (drive : Drive) (req : RequestData)
    (w : World) : TablesStep req s (handleRequests os drive req s w).1 := by
  unfold handleRequests
  cases h : req.methodType with
  | extraMethod => exact tablesStep_extraMethod hs drive h w
  | listMethod =>
    refine .inl (sameKeys_guarded hs fun s' user hk hd => ?_)
    extract_lets s'' index files start stop page
    have hk' : SameKeys s s'' := hk.reload hd drive user
    repeat' split
    all_goals exact hk'
  | getPropMethod =>
    refine .inl (sameKeys_guarded hs fun s' user hk hd => ?_)
    extract_lets root path
    split <;> exact hk
  | removeMethod | renameMethod =>
    refine .inl (sameKeys_guarded hs fun s' user hk hd => ?_)
    extract_lets fileId
    split
    · exact hk
    split
    · exact hk.reload hd drive user
    · exact hk
  | copyMethod | moveMethod =>
    refine .inl (sameKeys_transfer hs fun s' user w hk hd => ?_)
    extract_lets srcFileID
    repeat' split
    · exact hk
    all_goals exact sameKeys_finish hk hd drive user _
  | listStoragesMethod | ejectMethod => exact .inl (.refl s)

/-! ## Consistency -/

theorem driveIdOf_injective : Function.Injective driveIdOf := fun _ _ h =>
  toDigits_injective (List.cons.inj (List.append_cancel_left h)).2

/-- The tables agree, and their drives are among those numbered so far. -/
structure TablesInv (s : GDriveProvider) : Prop where
  consistent : Consistent s
  numbered : ∀ c d : Str, s.mClientIdDriveId[c]? = some d → ∃ k, k ≤ s.ids ∧ d = driveIdOf k

theorem TablesInv.init : TablesInv GDriveProvider.init := by
  refine ⟨⟨?_, ?_, ?_⟩, ?_⟩ <;> simp [GDriveProvider.init]

/-- The next drive is none of those that are there. -/
theorem TablesInv.fresh {s : GDriveProvider} (hs : TablesInv s) (c : Str) :
    s.mClientIdDriveId[c]? ≠ some (driveIdOf (s.ids + 1)) := by
  intro h
  obtain ⟨k, hk, he⟩ := hs.numbered c _ h
  have := driveIdOf_injective he
  omega

theorem TablesInv.not_mem_sessions {s : GDriveProvider} (hs : TablesInv s) :
    driveIdOf (s.ids + 1) ∉ s.mDriveIdSessionMap := by
  rw [hs.consistent.sessions]
  rintro ⟨c, hc⟩
  exact hs.fresh c hc

theorem TablesInv.sameKeys {s s' : GDriveProvider} (hs : TablesInv s) (h : SameKeys s s') : TablesInv s' := by
  have hc := hs.consistent
  refine ⟨⟨?_, fun d => ?_, fun d => ?_⟩, ?_⟩
  · rw [h.clients]; exact hc.injective
  · rw [h.clients, h.sessions]; exact hc.sessions d
  · rw [h.clients, h.users]; exact hc.users d
  · rw [h.clients, h.ids]; exact hs.numbered

/-- A new client has its drive, and the others keep theirs. -/
theorem get_clients_iff {s s' : GDriveProvider} {req : RequestData} (h : Attached req s s') (c d : Str) :
    s'.mClientIdDriveId[c]? = some d ↔
      (param req "clientId" = c ∧ driveIdOf (s.ids + 1) = d) ∨ s.mClientIdDriveId[c]? = some d := by
  rw [h.clients, Table.get_insert]
  split
  case isTrue hc =>
    have hnone : s.mClientIdDriveId[c]? = none := Std.ExtTreeMap.getElem?_eq_none (hc ▸ h.new)
    simp [hc, hnone]
  case isFalse hc => simp [hc]

theorem TablesInv.attached {s s' : GDriveProvider} {req : RequestData} (hs : TablesInv s) (h : Attached req s s') :
    TablesInv s' := by
  have hc := hs.consistent
  have hvalues (d : Str) : (∃ c : Str, s'.mClientIdDriveId[c]? = some d) ↔
      driveIdOf (s.ids + 1) = d ∨ ∃ c : Str, s.mClientIdDriveId[c]? = some d := by
    simp only [get_clients_iff h, exists_or, exists_eq_left']
  refine ⟨⟨fun c c' d h₁ h₂ => ?_, fun d => ?_, fun d => ?_⟩, fun c d hd => ?_⟩
  · rcases (get_clients_iff h c d).1 h₁ with ⟨hc₁, rfl⟩ | h₁ <;> rcases (get_clients_iff h c' _).1 h₂ with ⟨hc₂, he⟩ | h₂
    · exact hc₁.symm.trans hc₂
    · exact absurd h₂ (hs.fresh c')
    · exact absurd (he ▸ h₁) (hs.fresh c)
    · exact hc.injective c c' d h₁ h₂
  · rw [hvalues, h.sessions, Table.mem_insert_iff, hc.sessions]
  · rw [hvalues, h.users, hc.users]
  · rw [h.ids]
    rcases (get_clients_iff h c d).1 hd with ⟨-, rfl⟩ | hd
    · exact ⟨_, le_rfl, rfl⟩
    · obtain ⟨k, hk, he⟩ := hs.numbered c d hd
      exact ⟨k, by omega, he⟩

/-- A drive keeps its owner. -/
theorem TablesInv.owner {s s' : GDriveProvider} {req : RequestData} (hs : TablesInv s) (h : TablesStep req s s')
    {d owner : Str} (hd : s.mDriveIdSessionMap[d]? = some owner) : s'.mDriveIdSessionMap[d]? = some owner := by
  rcases h with h | h
  · rw [h.sessions, hd]
  · have hne : driveIdOf (s.ids + 1) ≠ d := by
      rintro rfl
      exact hs.not_mem_sessions ((Table.mem_iff_get _).2 ⟨owner, hd⟩)
    rw [h.sessions, Table.get_insert, if_neg hne, hd]

end GDriveProvider

/-! ## Runs -/

theorem tablesStep_handle {s : Service} (hs : s.gdrive.Consistent) (env : Env) (req : RequestData) :
    GDriveProvider.TablesStep req s.gdrive (s.handle env req).gdrive := by
  unfold Service.handle
  cases route req with
  | internal | usb | network => exact .inl (.refl s.gdrive)
  | gdrive => exact GDriveProvider.tablesStep_handleRequests hs env.os env.drive req s.world

theorem tablesInv_step (s : Service) (l : Service.Label) (hs : s.gdrive.TablesInv) : (s.step l).gdrive.TablesInv := by
  cases l with
  | devices root req => exact hs
  | others fs cloud => exact hs
  | request env req =>
    rcases tablesStep_handle hs.consistent env req with h | h
    · exact hs.sameKeys h
    · exact hs.attached h

theorem owner_step (s : Service) (l : Service.Label) (hs : s.gdrive.TablesInv) {d owner : Str}
    (hd : s.gdrive.mDriveIdSessionMap[d]? = some owner) : (s.step l).gdrive.mDriveIdSessionMap[d]? = some owner := by
  cases l with
  | devices root req => exact hd
  | others fs cloud => exact hd
  | request env req => exact hs.owner (tablesStep_handle hs.consistent env req) hd

/-- In every state reached the tables agree, each drive keeps its owner whatever
follows, and a request adds a key to a table only as the login of a new client. -/
theorem cloud_tables_consistent (fs : FS) (cloud : Table CloudFile) (ls ls' : List Service.Label) :
    let s := Runs.run Service.step (Service.start fs cloud) ls
    s.gdrive.Consistent ∧
      (∀ d owner : Str, s.gdrive.mDriveIdSessionMap[d]? = some owner →
        (Runs.run Service.step s ls').gdrive.mDriveIdSessionMap[d]? = some owner) ∧
      ∀ env req, GDriveProvider.TablesStep req s.gdrive (s.handle env req).gdrive := by
  intro s
  have hs : s.gdrive.TablesInv := Runs.inv_run_all tablesInv_step ls GDriveProvider.TablesInv.init
  refine ⟨hs.consistent, fun d owner hd => ?_, fun env req => tablesStep_handle hs.consistent env req⟩
  have hkept : ∀ s' l, (s'.gdrive.TablesInv ∧ s'.gdrive.mDriveIdSessionMap[d]? = some owner) →
      ((Service.step s' l).gdrive.TablesInv ∧ (Service.step s' l).gdrive.mDriveIdSessionMap[d]? = some owner) :=
    fun s' l h => ⟨tablesInv_step s' l h.1, owner_step s' l h.1 h.2⟩
  exact (Runs.inv_run_all hkept ls' ⟨hs, hd⟩).2

end StorageAccess
