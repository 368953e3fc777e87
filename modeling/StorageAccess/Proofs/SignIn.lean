import StorageAccess.Proofs.CloudTables
/-!
# Failed logins and authentications

A login stores the new client before it asks for the URL, and an authentication the
token and a new credential before the credential is built. Where one of these calls
fails the request is answered with a failure, and what was stored stays. All other
failures leave the tables of the provider as they were.
-/

open Posix Json

namespace StorageAccess

/-- Writing a value changes nothing exactly when it is there. -/
theorem Table.insert_eq_self_iff {α : Type} (t : Table α) (k : Str) (v : α) : t.insert k v = t ↔ t[k]? = some v := by
  constructor
  · intro h
    rw [← h, Table.get_insert, if_pos rfl]
  · intro h
    apply Std.ExtTreeMap.ext_getElem?
    intro a
    rw [Table.get_insert]
    split
    case isTrue ha => rw [← ha, h]
    case isFalse => rfl

namespace GDriveProvider

/-- A reply that says of itself that the request failed. -/
def Failure (respObj : JValue) : Prop := respObj.get "returnValue" = .bool false ∨ respObj.hasKey "errorCode" = true

theorem not_failure_extraReply (req : RequestData) (response : Str) : ¬ Failure (extraReply req response) := by
  rintro (h | h)
  · cases h
  · cases h

theorem not_failure_success : ¬ Failure (JValue.object.put "returnValue" (.bool true)) := by
  rintro (h | h)
  · cases h
  · cases h

/-! ## How a command ends -/

/-- The login of a new client that gets no URL. -/
structure LoginStuck (drive : Drive) (req : RequestData) (s : GDriveProvider) : Prop where
  command : operationType req = "login".toList
  complete : validateExtraCommand ["clientId", "clientSecret"] req = true
  new : param req "clientId" ∉ s.mClientIdDriveId
  noUrl : drive.authorizeUrl = []

/-- The parameters of a drive once a token was given. -/
def tokenGiven (req : RequestData) (user : GDriveUserData) : Table Str :=
  touch (touch (user.mAuthParam.insert accessTokenKey (param req "secretToken")) clientIdKey []) clientSecretKey []

/-- The authentication of a drive for which no credential is built: `cred` and `auth` are what the call leaves. -/
structure NotBuilt (drive : Drive) (req : RequestData) (s : GDriveProvider) (user : GDriveUserData) (cred : Credential)
    (auth : Table Str) : Prop where
  command : operationType req = "authenticate".toList
  complete : validateExtraCommand ["secretToken"] req = true
  known : s.mDriveIdUserDataMap[req.str "driveId"]? = some user
  refused : drive.buildCredential (param req "secretToken") ⟨tokenGiven req user⟩ (tokenGiven req user) = (false, cred, auth)

/-- No URL is missing for a new client, and where no credential is built the call
leaves the parameters and the credential that are stored. -/
structure StoresNothing (drive : Drive) (req : RequestData) (s : GDriveProvider) : Prop where
  login : ¬ LoginStuck drive req s
  authentication : ∀ user cred auth, NotBuilt drive req s user cred auth → auth = user.mAuthParam ∧ user.mCred = some cred

/-- How a login, an authentication or a token request ends. -/
inductive SignInStep (drive : Drive) (req : RequestData) (s : GDriveProvider) (w : World) (s' : GDriveProvider)
    (w' : World) : Prop
  | refused (stores : StoresNothing drive req s) (tables : s' = s)
  | noUrl (stuck : LoginStuck drive req s)
      (clients : s'.mClientIdDriveId = s.mClientIdDriveId.insert (param req "clientId") (driveIdOf (s.ids + 1)))
  | notBuilt (user : GDriveUserData) (cred : Credential) (auth : Table Str) (unbuilt : NotBuilt drive req s user cred auth)
      (tables : s' = s.setUser (req.str "driveId") { user with mAuthParam := auth, mCred := some cred })
  | done (respObj : JValue) (success : ¬ Failure respObj) (world : w' = w.reply respObj)

/-- Login and authentication are different commands. -/
theorem login_ne_authenticate : "login".toList ≠ "authenticate".toList := by decide

theorem signInStep_attachCloud {drive : Drive} {req : RequestData} {s : GDriveProvider}
    (hcommand : operationType req = "login".toList) (hcomplete : validateExtraCommand ["clientId", "clientSecret"] req = true)
    (w : World) : SignInStep drive req s w (attachCloud drive req s w).1 (attachCloud drive req s w).2 := by
  unfold attachCloud
  dsimp only
  split
  case isTrue hknown =>
    refine .refused ⟨fun h => h.new (Std.ExtTreeMap.contains_iff_mem.1 hknown), fun user cred auth h => ?_⟩ rfl
    exact absurd (hcommand.symm.trans h.command) login_ne_authenticate
  case isFalse hnew =>
    have hclient : param req "clientId" ∉ s.mClientIdDriveId := fun h => hnew (Std.ExtTreeMap.contains_iff_mem.2 h)
    split
    case isTrue hurl => exact .noUrl ⟨hcommand, hcomplete, hclient, hurl⟩ rfl
    case isFalse => exact .done _ (not_failure_extraReply req _) rfl

/-- A parameter that the check passed is not empty. -/
theorem param_ne_nil {keys : List String} {req : RequestData} (h : validateExtraCommand keys req = true) {key : String}
    (hkey : key ∈ keys) : param req key ≠ [] := by
  have hvalid := List.all_eq_true.1 h key hkey
  exact of_decide_eq_true (Bool.and_eq_true_iff.1 hvalid).2

theorem signInStep_authenticateCloud {drive : Drive} {req : RequestData} {s : GDriveProvider}
    (hcommand : operationType req = "authenticate".toList) (hcomplete : validateExtraCommand ["secretToken"] req = true)
    (w : World) : SignInStep drive req s w (authenticateCloud drive req s w).1 (authenticateCloud drive req s w).2 := by
  have htoken : param req "secretToken" ≠ [] := param_ne_nil hcomplete List.mem_cons_self
  unfold authenticateCloud
  dsimp only
  split
  case h_1 hunknown =>
    refine .refused ⟨fun h => login_ne_authenticate (h.command.symm.trans hcommand), fun user cred auth h => ?_⟩ rfl
    exact absurd (hunknown.symm.trans h.known) nofun
  case h_2 user hknown =>
    rw [if_neg htoken]
    split
    case h_1 => exact .done _ (not_failure_extraReply req _) rfl
    case h_2 cred auth hbuild => exact .notBuilt user cred auth ⟨hcommand, hcomplete, hknown, hbuild⟩ rfl

theorem signInStep_setToken {drive : Drive} {req : RequestData} {s : GDriveProvider} (hs : Consistent s)
    (hstores : StoresNothing drive req s) (w : World) :
    SignInStep drive req s w (setToken drive req s w).1 (setToken drive req s w).2 := by
  unfold setToken
  split
  case h_1 => exact .refused hstores rfl
  case h_2 driveId hclient =>
    have hd : driveId ∈ s.mDriveIdUserDataMap := (hs.users driveId).2 ⟨_, hclient⟩
    rw [touch_session hs hd]
    dsimp only
    split
    · exact .refused hstores rfl
    · exact .done _ not_failure_success rfl

theorem signInStep_extraMethod (drive : Drive) (req : RequestData) {s : GDriveProvider} (hs : Consistent s) (w : World) :
    SignInStep drive req s w (extraMethod drive req s w).1 (extraMethod drive req s w).2 := by
  unfold extraMethod
  split
  case isTrue h => exact signInStep_attachCloud h.1 h.2 w
  case isFalse hlogin =>
    split
    case isTrue h => exact signInStep_authenticateCloud h.1 h.2 w
    case isFalse hauth =>
      have hstores : StoresNothing drive req s :=
        ⟨fun h => hlogin ⟨h.command, h.complete⟩, fun _ _ _ h => absurd ⟨h.command, h.complete⟩ hauth⟩
      split
      · exact signInStep_setToken hs hstores w
      · exact .refused hstores rfl

/-! ## What a failure leaves -/

/-- The three tables are as before. -/
structure TablesKept (s s' : GDriveProvider) : Prop where
  clients : s'.mClientIdDriveId = s.mClientIdDriveId
  sessions : s'.mDriveIdSessionMap = s.mDriveIdSessionMap
  users : s'.mDriveIdUserDataMap = s.mDriveIdUserDataMap

/-- Storing a drive's user data changes no table exactly when they are those it has. -/
theorem tablesKept_setUser_iff {s : GDriveProvider} {driveId : Str} {user user' : GDriveUserData}
    (hknown : s.mDriveIdUserDataMap[driveId]? = some user) : TablesKept s (s.setUser driveId user') ↔ user = user' := by
  have hinsert := Table.insert_eq_self_iff s.mDriveIdUserDataMap driveId user'
  rw [hknown, Option.some_inj] at hinsert
  exact ⟨fun h => hinsert.1 h.users, fun h => ⟨rfl, rfl, hinsert.2 h⟩⟩

/-- After a failure the tables are as before exactly when nothing was stored. -/
theorem SignInStep.tablesKept_iff {drive : Drive} {req : RequestData} {s s' : GDriveProvider} {w w' : World}
    (h : SignInStep drive req s w s' w') (hfailed : ∃ r ∈ newReplies w w', Failure r) :
    TablesKept s s' ↔ StoresNothing drive req s := by
  cases h with
  | refused stores tables =>
    subst tables
    exact iff_of_true ⟨rfl, rfl, rfl⟩ stores
  | noUrl stuck clients =>
    refine iff_of_false (fun hsame => stuck.new ?_) fun hstores => hstores.login stuck
    rw [← hsame.clients, clients]
    exact Std.ExtTreeMap.mem_insert_self
  | notBuilt user cred auth unbuilt tables =>
    rw [tables, tablesKept_setUser_iff unbuilt.known]
    constructor
    · intro huser
      refine ⟨fun hlogin => login_ne_authenticate (hlogin.command.symm.trans unbuilt.command), ?_⟩
      rintro user' cred' auth' h'
      obtain rfl : user = user' := Option.some.inj (unbuilt.known.symm.trans h'.known)
      have hcall := unbuilt.refused.symm.trans h'.refused
      simp only [Prod.mk.injEq, true_and] at hcall
      obtain ⟨rfl, rfl⟩ := hcall
      exact ⟨(congrArg GDriveUserData.mAuthParam huser).symm, congrArg GDriveUserData.mCred huser⟩
    · intro hstores
      obtain ⟨rfl, hcred⟩ := hstores.authentication user cred auth unbuilt
      rw [← hcred]
  | done respObj success world =>
    obtain ⟨r, hr, hfailure⟩ := hfailed
    rw [mem_newReplies_reply world rfl] at hr
    exact absurd (hr ▸ hfailure) success

end GDriveProvider

/-! ## Runs -/

open GDriveProvider

theorem step_gdrive {env : Env} {req : RequestData} (h : route req = .gdrive) (s : Service) :
    s.step (.request env req) = { s with
      gdrive := (handleRequests env.os env.drive req s.gdrive s.world).1
      world := (handleRequests env.os env.drive req s.gdrive s.world).2 } := by
  simp only [Service.step, Service.handle, h]

/-- A login, an authentication or a token request. -/
def AsksSignIn (req : RequestData) : Prop :=
  route req = .gdrive ∧ (IsCommand "login" req ∨ IsCommand "authenticate" req ∨ IsCommand "token" req)

theorem AsksSignIn.method {req : RequestData} (h : AsksSignIn req) : req.methodType = .extraMethod := by
  rcases h.2 with h | h | h <;> exact h.1

/-- The request is answered with a failure. -/
def SignInFailed (s s' : Service) : Prop := ∃ r ∈ newReplies s.world s'.world, Failure r

theorem signInFailed_of_any {s s' : Service} (h : (newReplies s.world s'.world).any (·.hasKey "errorCode") = true) :
    SignInFailed s s' := by
  obtain ⟨r, hr, hkey⟩ := List.any_eq_true.1 h
  exact ⟨r, hr, .inr hkey⟩

/-- After every run, a login, an authentication or a token request that is answered
with a failure leaves the tables of the provider as they were exactly when it stores
nothing on the way. -/
theorem failed_sign_in_keeps_iff (fs : FS) (cloud : Table CloudFile) (ls : List Service.Label) (env : Env) (req : RequestData)
    (hreq : AsksSignIn req) :
    let s := Runs.run Service.step (Service.start fs cloud) ls
    let s' := s.step (.request env req)
    SignInFailed s s' → (TablesKept s.gdrive s'.gdrive ↔ StoresNothing env.drive req s.gdrive) := by
  intro s s' hfailed
  have hs : s.gdrive.TablesInv := Runs.inv_run_all tablesInv_step ls GDriveProvider.TablesInv.init
  have hmethod : handleRequests env.os env.drive req s.gdrive s.world = extraMethod env.drive req s.gdrive s.world := by
    unfold handleRequests
    rw [hreq.method]
  have hs' : s' = { s with gdrive := (extraMethod env.drive req s.gdrive s.world).1
                           world := (extraMethod env.drive req s.gdrive s.world).2 } := by
    rw [← hmethod]
    exact step_gdrive hreq.1 s
  rw [hs'] at hfailed ⊢
  exact (signInStep_extraMethod env.drive req hs.consistent s.world).tablesKept_iff hfailed

/-- The login of a client that is logged in is refused, and changes nothing. -/
theorem second_login_keeps :
    SignInFailed loggedIn (loggedIn.step (.request Env.quiet login)) ∧
      TablesKept loggedIn.gdrive (loggedIn.step (.request Env.quiet login)).gdrive := by
  have hfailed : SignInFailed loggedIn (loggedIn.step (.request Env.quiet login)) :=
    signInFailed_of_any rfl
  have hclient : param login "clientId" ∈ loggedIn.gdrive.mClientIdDriveId := rfl
  refine ⟨hfailed, (failed_sign_in_keeps_iff (FS.ofEntries [] (by decide)) ∅ [.request Env.quiet login] Env.quiet login
    ⟨rfl, .inl ⟨rfl, rfl⟩⟩ hfailed).2 ⟨fun h => h.new hclient, fun _ _ _ h => ?_⟩⟩
  exact absurd h.command (by decide)

/-- The library knows no URL and builds no credential. -/
def noCredential : Env :=
  { Env.quiet with drive := { Drive.quiet with authorizeUrl := [], buildCredential := fun _ cred auth => (false, cred, auth) } }

def started : Service := Service.start (FS.ofEntries [] FS.isTree_nil) ∅

/-- The client of a login that got no URL cannot log in any more, and an
authentication that failed has replaced the token. -/
theorem failed_sign_ins_store :
    let stuck := started.step (.request noCredential login)
    let refused := loggedIn.step (.request noCredential authenticate)
    (SignInFailed started stuck ∧ ¬ TablesKept started.gdrive stuck.gdrive ∧
      SignInFailed stuck (stuck.step (.request Env.quiet login))) ∧
    SignInFailed loggedIn refused ∧ ¬ TablesKept loggedIn.gdrive refused.gdrive := by
  intro stuck refused
  refine ⟨⟨signInFailed_of_any rfl, fun h => ?_, signInFailed_of_any rfl⟩,
    signInFailed_of_any rfl, fun h => ?_⟩
  · have hclient : "c".toList ∈ stuck.gdrive.mClientIdDriveId := rfl
    rw [h.clients] at hclient
    exact absurd hclient (by decide)
  · have htoken : (refused.gdrive.mDriveIdUserDataMap["GDRIVE_1".toList]?.map fun user => user.mAuthParam[accessTokenKey]?) =
        some (some "t".toList) := rfl
    rw [h.users] at htoken
    exact absurd htoken (by decide +kernel)

end StorageAccess
