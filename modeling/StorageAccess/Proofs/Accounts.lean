import StorageAccess.Proofs.SignIn
import StorageAccess.Proofs.Forms
/-!
# Cloud drives as accounts

For a session a cloud drive is an account: a login opens it for the session, a sign-in
gives it a refresh token, and a drive can be used by the owner of its account, while
there is a token. The tables of the provider hold the accounts of a run, and nothing
but logins and sign-ins changes these.
-/

open Posix Json

namespace StorageAccess

open SAFUtilityOperation

/-! ## Accounts -/

structure Account where
  owner : Str
  token : Str
  deriving DecidableEq, Repr

namespace Account

/-- What happens to accounts. -/
inductive Event
  | opened (driveId owner : Str)
  | signedIn (driveId token : Str)
  deriving DecidableEq, Repr

/-- The accounts after an event. A sign-in to an account that is not there changes nothing. -/
def apply (accounts : Str → Option Account) : Event → Str → Option Account
  | .opened driveId owner => Function.update accounts driveId (some ⟨owner, []⟩)
  | .signedIn driveId token => Function.update accounts driveId ((accounts driveId).map fun a => { a with token := token })

/-- The session may use the drive of an account. -/
def Open (a : Option Account) (sessionId : Str) : Prop := ∃ token, a = some ⟨sessionId, token⟩ ∧ token ≠ []

/-- What keeps a session from the drive of an account. -/
inductive Refusal
  | unknown
  | notOwner
  | noToken
  deriving DecidableEq, Repr

/-- The first of these that holds. -/
def refusal (a : Option Account) (sessionId : Str) : Option Refusal :=
  match a with
  | none => some .unknown
  | some a => if a.owner ≠ sessionId then some .notOwner else if a.token = [] then some .noToken else none

/-- An account is open where nothing keeps the session from it. -/
theorem open_iff (a : Option Account) (sessionId : Str) : Open a sessionId ↔ refusal a sessionId = none := by
  cases a with
  | none => exact ⟨nofun, nofun⟩
  | some a =>
    simp only [refusal, ne_eq, ite_not]
    constructor
    · rintro ⟨token, ha, ht⟩
      obtain rfl := Option.some.inj ha
      simpa using ht
    · intro h
      split at h
      case isTrue ho =>
        subst ho
        exact ⟨a.token, rfl, by simpa using h⟩
      case isFalse => cases h

end Account

namespace GDriveProvider

variable {s s' : GDriveProvider} {driveId : Str} {user user' : GDriveUserData}
  {req : RequestData}

/-- The refresh token of a drive. -/
def token (user : GDriveUserData) : Str := user.mAuthParam.getD refreshTokenKey []

/-- The accounts the tables stand for. -/
def accounts (s : GDriveProvider) (driveId : Str) : Option Account :=
  s.mDriveIdUserDataMap[driveId]?.map fun user => ⟨s.mDriveIdSessionMap.getD driveId [], token user⟩

/-- What a login, an authentication or a token request does to the accounts. -/
def signInEvents (drive : Drive) (req : RequestData) (s : GDriveProvider) : List Account.Event :=
  if operationType req = "login".toList ∧ validateExtraCommand ["clientId", "clientSecret"] req then
    if s.mClientIdDriveId.contains (param req "clientId") then []
    else [.opened (driveIdOf (s.ids + 1)) req.sessionId]
  else if operationType req = "authenticate".toList ∧ validateExtraCommand ["secretToken"] req then
    match s.mDriveIdUserDataMap[req.str "driveId"]? with
    | none => []
    | some user =>
      -- whoever asks, and also where no credential is built
      let built := drive.buildCredential (param req "secretToken") ⟨tokenGiven req user⟩ (tokenGiven req user)
      [.signedIn (req.str "driveId") (built.2.2.getD refreshTokenKey [])]
  else if operationType req = "token".toList ∧ validateExtraCommand ["clientId", "clientSecret", "refreshToken"] req then
    match s.mClientIdDriveId[param req "clientId"]? with
    | none => []
    | some driveId =>
      if s.mDriveIdSessionMap.getD driveId [] = req.sessionId then [.signedIn driveId (param req "refreshToken")] else []
  else []

/-- What a request does to the accounts. -/
def events (drive : Drive) (req : RequestData) (s : GDriveProvider) : List Account.Event :=
  match req.methodType with
  | .extraMethod => signInEvents drive req s
  | _ => []

/-! ## Handlers -/

theorem getD_touch_any (t : Table Str) (k a : Str) : (touch t k []).getD a [] = t.getD a [] := by
  by_cases h : k = a
  · rw [h, Table.getD_touch]
  · unfold touch
    split
    · rfl
    · rw [Std.ExtTreeMap.getD_eq_getD_getElem?, Table.get_insert, if_neg h, ← Std.ExtTreeMap.getD_eq_getD_getElem?]

/-- Storing the data of a known drive gives its account the token of these data. -/
theorem accounts_setUser (hu : s.mDriveIdUserDataMap[driveId]? = some user) (user' : GDriveUserData) :
    (s.setUser driveId user').accounts = Account.apply s.accounts (.signedIn driveId (token user')) := by
  funext d
  rw [Account.apply, Function.update_apply, accounts, setUser, Table.get_insert]
  by_cases hd : driveId = d
  · subst hd
    simp [accounts, hu]
  · rw [if_neg hd, if_neg (Ne.symm hd)]
    rfl

/-- Data with the token that was there leave the accounts as they were. -/
theorem accounts_setUser_of_token (hu : s.mDriveIdUserDataMap[driveId]? = some user) (htoken : token user' = token user) :
    (s.setUser driveId user').accounts = s.accounts := by
  rw [accounts_setUser hu]
  have hsame : (s.accounts driveId).map (fun a => { a with token := token user' }) = s.accounts driveId := by
    simp [accounts, hu, htoken]
  rw [Account.apply, hsame, Function.update_eq_self]

theorem accounts_touch (s : GDriveProvider) (driveId : Str) :
    accounts { s with mDriveIdSessionMap := touch s.mDriveIdSessionMap driveId [] } = s.accounts := by
  funext d
  simp only [accounts, getD_touch_any]

theorem token_looked (user : GDriveUserData) : token (looked user) = token user := getD_touch_any _ _ _

theorem accounts_lookedUp (hu : s.mDriveIdUserDataMap[driveId]? = some user) :
    (s.lookedUp driveId user).accounts = s.accounts := by
  have hset := accounts_setUser_of_token (s := { s with mDriveIdSessionMap := touch s.mDriveIdSessionMap driveId [] }) hu
    (token_looked user)
  exact hset.trans (accounts_touch s driveId)

/-- A drive that was looked up and read again has the account it had. -/
theorem accounts_reload (hu : s.mDriveIdUserDataMap[driveId]? = some user) (drive : Drive) :
    ((s.lookedUp driveId user).reload drive driveId (looked user)).accounts = s.accounts := by
  have hlooked : (s.lookedUp driveId user).mDriveIdUserDataMap[driveId]? = some (looked user) := by
    rw [lookedUp, setUser, Table.get_insert, if_pos rfl]
  rw [← accounts_lookedUp hu]
  exact accounts_setUser_of_token hlooked rfl

/-- The checks of a drive leave the accounts to what comes after them. -/
theorem accounts_guarded (req : RequestData) (w : World)
    {go : GDriveProvider → GDriveUserData → World → GDriveProvider × World}
    (hgo : ∀ user, s.mDriveIdUserDataMap[driveId]? = some user →
      (go (s.lookedUp driveId user) (looked user) w).1.accounts = s.accounts) :
    (guarded driveId req s w go).1.accounts = s.accounts := by
  unfold guarded
  split
  case h_1 => rfl
  case h_2 user hu =>
    dsimp only
    split
    · exact accounts_touch s driveId
    split
    · exact accounts_lookedUp hu
    · exact hgo user hu

theorem accounts_transfer (req : RequestData) (w : World)
    {go : GDriveProvider → GDriveUserData → World → GDriveProvider × World}
    (hgo : ∀ user w, s.mDriveIdUserDataMap[transferDrive req]? = some user →
      (go (s.lookedUp (transferDrive req) user) (looked user) w).1.accounts = s.accounts) :
    (s.transfer req w go).1.accounts = s.accounts := by
  unfold transfer
  split
  · rfl
  split
  · rfl
  · exact accounts_guarded req _ fun user => hgo user _

theorem accounts_finish (hu : s.mDriveIdUserDataMap[transferDrive req]? = some user) (drive : Drive) (result : World × Bool) :
    (finish drive req (s.lookedUp (transferDrive req) user) (looked user) result).1.accounts = s.accounts := by
  unfold finish
  split
  · exact accounts_reload hu drive
  · exact accounts_lookedUp hu

/-! ## Signing in -/

/-- Nobody has given the drive of a new client a token. -/
theorem token_newUser (clientId clientSecret : Str) : token (newUser clientId clientSecret) = [] := by
  have hid : clientIdKey ≠ refreshTokenKey := by decide
  have hsecret : clientSecretKey ≠ refreshTokenKey := by decide
  rw [token, Std.ExtTreeMap.getD_eq_getD_getElem?, newUser, Table.get_insert, if_neg hsecret, Table.get_insert, if_neg hid]
  rfl

/-- The login of a new client opens the account of the next drive for the session. -/
theorem accounts_attachCloud (drive : Drive) (w : World) :
    (attachCloud drive req s w).1.accounts =
      Runs.run Account.apply s.accounts
        (if s.mClientIdDriveId.contains (param req "clientId") then [] else [.opened (driveIdOf (s.ids + 1)) req.sessionId]) := by
  unfold attachCloud
  dsimp only
  split
  case isTrue => rfl
  case isFalse =>
    rw [apply_ite Prod.fst, ite_self]
    funext d
    rw [Runs.run_cons, Runs.run_nil, Account.apply, Function.update_apply, accounts, Table.get_insert]
    by_cases hd : driveIdOf (s.ids + 1) = d
    · rw [if_pos hd, if_pos hd.symm, Option.map_some, token_newUser, ← hd, Std.ExtTreeMap.getD_insert_self]
    · rw [if_neg hd, if_neg (Ne.symm hd), Std.ExtTreeMap.getD_eq_getD_getElem?, Table.get_insert, if_neg hd,
        ← Std.ExtTreeMap.getD_eq_getD_getElem?]
      rfl

/-- An authentication gives the drive the token the library leaves. -/
theorem accounts_authenticateCloud (hcomplete : validateExtraCommand ["secretToken"] req = true) (drive : Drive) (w : World) :
    (authenticateCloud drive req s w).1.accounts =
      Runs.run Account.apply s.accounts
        (match s.mDriveIdUserDataMap[req.str "driveId"]? with
        | none => []
        | some user =>
          [.signedIn (req.str "driveId") ((drive.buildCredential (param req "secretToken") ⟨tokenGiven req user⟩
            (tokenGiven req user)).2.2.getD refreshTokenKey [])]) := by
  have hcode : param req "secretToken" ≠ [] := param_ne_nil hcomplete List.mem_cons_self
  unfold authenticateCloud
  dsimp only
  cases hu : s.mDriveIdUserDataMap[req.str "driveId"]? with
  | none => rfl
  | some user =>
    dsimp only
    rw [if_neg hcode, Runs.run_cons, Runs.run_nil]
    split
    case h_1 cred auth hbuilt =>
      have hstored := getD_touch_any auth refreshTokenKey refreshTokenKey
      rw [tokenGiven, hbuilt, ← hstored]
      exact accounts_setUser hu _
    case h_2 cred auth hbuilt =>
      rw [tokenGiven, hbuilt]
      exact accounts_setUser hu _

/-- The owner of a client's drive gives it a token. -/
theorem accounts_setToken (hs : Consistent s) (drive : Drive) (w : World) :
    (setToken drive req s w).1.accounts =
      Runs.run Account.apply s.accounts
        (match s.mClientIdDriveId[param req "clientId"]? with
        | none => []
        | some driveId =>
          if s.mDriveIdSessionMap.getD driveId [] = req.sessionId then [.signedIn driveId (param req "refreshToken")]
          else []) := by
  unfold setToken
  cases hclient : s.mClientIdDriveId[param req "clientId"]? with
  | none => rfl
  | some driveId =>
    have hd : driveId ∈ s.mDriveIdUserDataMap := (hs.users driveId).2 ⟨_, hclient⟩
    obtain ⟨user, hu⟩ := (Table.mem_iff_get _).1 hd
    dsimp only
    rw [Table.touch_of_mem _ ((hs.mem_sessions_iff driveId).2 hd)]
    by_cases howner : s.mDriveIdSessionMap.getD driveId [] = req.sessionId
    · rw [if_neg (not_not.2 howner), if_pos howner, Runs.run_cons, Runs.run_nil, Std.ExtTreeMap.getD_eq_getD_getElem?, hu]
      let auth := ((user.mAuthParam.insert clientIdKey (param req "clientId")).insert clientSecretKey
        (param req "clientSecret")).insert refreshTokenKey (param req "refreshToken")
      have hset := accounts_setUser hu ⟨FileIndex.loadFileIds drive, auth, some ⟨auth⟩⟩
      have htoken : token ⟨FileIndex.loadFileIds drive, auth, some ⟨auth⟩⟩ = param req "refreshToken" :=
        Std.ExtTreeMap.getD_insert_self
      rw [htoken] at hset
      exact hset
    · rw [if_pos howner, if_neg howner, Runs.run_nil]

theorem accounts_extraMethod (hs : Consistent s) (drive : Drive) (req : RequestData) (w : World) :
    (extraMethod drive req s w).1.accounts = Runs.run Account.apply s.accounts (signInEvents drive req s) := by
  unfold extraMethod signInEvents
  split
  · exact accounts_attachCloud drive w
  split
  case isTrue h => exact accounts_authenticateCloud h.2 drive w
  split
  · exact accounts_setToken hs drive w
  · rfl

/-- A request does to the accounts what its events do. -/
theorem accounts_handleRequests (hs : Consistent s) (os : Os) (drive : Drive) (req : RequestData) (w : World) :
    (handleRequests os drive req s w).1.accounts = Runs.run Account.apply s.accounts (events drive req s) := by
  unfold handleRequests events
  cases req.methodType with
  | extraMethod => exact accounts_extraMethod hs drive req w
  | listMethod =>
    refine accounts_guarded req w fun user hu => ?_
    extract_lets s' index files start stop page
    have hs' : s'.accounts = s.accounts := accounts_reload hu drive
    repeat' split
    all_goals exact hs'
  | getPropMethod =>
    refine accounts_guarded req w fun user hu => ?_
    extract_lets root path
    split <;> exact accounts_lookedUp hu
  | removeMethod | renameMethod =>
    refine accounts_guarded req w fun user hu => ?_
    extract_lets fileId
    split
    · exact accounts_lookedUp hu
    split
    · exact accounts_reload hu drive
    · exact accounts_lookedUp hu
  | copyMethod | moveMethod =>
    refine accounts_transfer req w fun user w hu => ?_
    extract_lets srcFileID
    repeat' split
    · exact accounts_lookedUp hu
    all_goals exact accounts_finish hu drive _
  | listStoragesMethod | ejectMethod => rfl

/-! ## Using a drive -/

/-- How a request is told what keeps it from its drive. -/
def refusalReply : Account.Refusal → JValue
  | .unknown => invalidDriveId
  | .notOwner => cloudFailure SAFErrors.storageTypeNotSupported.code
  | .noToken => cloudFailure CloudErrors.authenticationNotDone.code

/-- The checks of a drive end a request with the reply that its account asks for, and let it go on where there is none. -/
theorem guarded_refusal (driveId : Str) (req : RequestData) (s : GDriveProvider) (w : World)
    (go : GDriveProvider → GDriveUserData → World → GDriveProvider × World) :
    (∃ f, Account.refusal (s.accounts driveId) req.sessionId = some f ∧
        (guarded driveId req s w go).2 = w.reply (refusalReply f)) ∨
      (Account.refusal (s.accounts driveId) req.sessionId = none ∧ ∃ s' user, guarded driveId req s w go = go s' user w) := by
  unfold guarded accounts
  cases s.mDriveIdUserDataMap[driveId]? with
  | none => exact .inl ⟨.unknown, rfl, rfl⟩
  | some user =>
    have hsession := Table.getD_touch s.mDriveIdSessionMap driveId []
    have htoken := Table.getD_touch user.mAuthParam refreshTokenKey []
    simp only [Option.map_some, Account.refusal, hsession, htoken, token]
    by_cases ho : s.mDriveIdSessionMap.getD driveId [] = req.sessionId
    case neg =>
      rw [if_pos ho, if_pos ho]
      exact .inl ⟨.notOwner, rfl, rfl⟩
    rw [if_neg (not_not.2 ho), if_neg (not_not.2 ho)]
    by_cases ht : user.mAuthParam.getD refreshTokenKey [] = []
    case pos =>
      rw [if_pos ht, if_pos ht]
      exact .inl ⟨.noToken, rfl, rfl⟩
    rw [if_neg ht, if_neg ht]
    exact .inr ⟨rfl, _, _, rfl⟩

/-- A request to list, look at, remove or rename files of a drive, or to copy or move from or to one. -/
def UsesDrive (req : RequestData) : Prop :=
  req.methodType ∈ [.listMethod, .getPropMethod, .removeMethod, .renameMethod] ∨ IsTransfer req

/-- The drive such a request works on. -/
def driveOf (req : RequestData) : Str :=
  match req.methodType with
  | .copyMethod | .moveMethod => transferDrive req
  | _ => req.str "driveId"

/-- No check that a copy or move makes before that of the drive refuses the request. -/
def ReachesDrive (w : World) (req : RequestData) : Prop := IsTransfer req → Passes w req ∧ OneDrive req

/-- The request ends with replies that it failed, and nothing else is done. Where it got
as far as its drive there is one reply, `f`. -/
def TurnedAway (w : World) (req : RequestData) (f : Account.Refusal) (w' : World) : Prop :=
  ∃ rs : List JValue, rs ≠ [] ∧ (∀ r ∈ rs, ¬ Success r) ∧ w' = { w with replies := w.replies ++ rs } ∧
    (ReachesDrive w req → rs = [refusalReply f])

/-- A reply that does not tell of a drive that is unknown, another's or without a token. -/
def Unrelated (r : JValue) : Prop := ∀ f, r ≠ refusalReply f

/-- The account of a drive decides whether a request goes on to the drive. -/
def Decides (a : Option Account) (req : RequestData) (w w' : World) : Prop :=
  (∀ f, Account.refusal a req.sessionId = some f → TurnedAway w req f w') ∧
    (Account.Open a req.sessionId → ∀ r ∈ newReplies w w', Unrelated r)

theorem not_success_refusalReply (f : Account.Refusal) : ¬ Success (refusalReply f) := by
  cases f <;> nofun

theorem turnedAway_reply (w : World) (req : RequestData) (f : Account.Refusal) :
    TurnedAway w req f (w.reply (refusalReply f)) :=
  ⟨[refusalReply f], nofun, fun _ hr => List.mem_singleton.1 hr ▸ not_success_refusalReply f, rfl, fun _ => rfl⟩

theorem unrelated_of_success {r : JValue} (h : r.get "returnValue" = .bool true) : Unrelated r := by
  rintro f rfl
  exact not_success_refusalReply f (by rw [Success, h]; rfl)

/-- Each of these replies has a text of its own. -/
theorem unrelated_of_text {r : JValue}
    (h : (r.get "errorText").asString ∉
      ["Invalid DriveID", getCloudErrorString 8013, getCloudErrorString 6001].map String.toList) : Unrelated r := by
  rintro f rfl
  cases f <;> exact h (by decide)

theorem unrelated_refusals {w : World} {req : RequestData} {r : JValue} (h : r ∈ refusals w req) : Unrelated r := by
  rcases List.mem_append.1 h with h | h
  · split at h
    · rw [List.mem_singleton.1 h]
      exact unrelated_of_text (by decide)
    · cases h
  · obtain ⟨e, -, rfl⟩ := Option.map_eq_some_iff.1 (Option.mem_toList.1 h)
    cases e <;> exact unrelated_of_text (by decide)

theorem unrelated_reply {w w₁ : World} {r : JValue} (h : w₁.replies = w.replies) (hr : Unrelated r) :
    ∀ r' ∈ newReplies w (w₁.reply r), Unrelated r' := by
  intro r' hr'
  rwa [(mem_newReplies_reply rfl h).1 hr']

theorem unrelated_of_eq {w w' : World} (h : w'.replies = w.replies) : ∀ r ∈ newReplies w w', Unrelated r := by
  simp [newReplies, h]

theorem decides_guarded {driveId : Str} {req : RequestData} {s : GDriveProvider} {w : World}
    {go : GDriveProvider → GDriveUserData → World → GDriveProvider × World}
    (hgo : ∀ s user, ∀ r ∈ newReplies w (go s user w).2, Unrelated r) :
    Decides (s.accounts driveId) req w (guarded driveId req s w go).2 := by
  rw [Decides, Account.open_iff]
  rcases guarded_refusal driveId req s w go with ⟨f, hf, e⟩ | ⟨hf, s', user, e⟩ <;> rw [hf, e]
  · refine ⟨fun f' hf' => ?_, nofun⟩
    obtain rfl := Option.some.inj hf'
    exact turnedAway_reply w req f
  · exact ⟨nofun, fun _ => hgo s' user⟩

/-- The checks a copy or move makes before may turn the request away whatever its account is. -/
theorem decides_transfer {req : RequestData} {s : GDriveProvider} {w : World} (ht : IsTransfer req)
    {go : GDriveProvider → GDriveUserData → World → GDriveProvider × World}
    (hgo : ∀ s user, ∀ r ∈ newReplies w (go s user w).2, Unrelated r) :
    Decides (s.accounts (transferDrive req)) req w (s.transfer req w go).2 := by
  unfold transfer
  rcases validate_cases w req with ⟨hn, h⟩ | ⟨hp, h⟩ <;> rw [h]
  · have hne : refusals w req ≠ [] := (validate_false h).2
    refine ⟨fun f _ => ⟨_, hne, fun r hr => not_success_of_mem_refusals hr, rfl, fun hr => absurd (hr ht).1 hn⟩, fun _ => ?_⟩
    intro r hr
    rw [newReplies_of_append rfl] at hr
    exact unrelated_refusals hr
  dsimp only
  split
  case isTrue hdrives =>
    refine ⟨fun f _ => ⟨[_], nofun, ?_, rfl, fun hr => ?_⟩, fun _ => unrelated_reply rfl (unrelated_of_text (by decide))⟩
    · intro r hr
      rw [List.mem_singleton.1 hr]
      nofun
    · exact absurd ((hr ht).2 hdrives.1 hdrives.2.1) hdrives.2.2
  case isFalse => exact decides_guarded hgo

theorem reports_upload_unrelated (drive : Drive) (user : GDriveUserData) (req : RequestData) (w : World) :
    Reports Unrelated w (upload drive user req w) := by
  unfold upload
  extract_lets srcPath content
  split
  · exact unrelated_reply rfl (unrelated_of_text (by decide))
  split
  · exact unrelated_reply rfl (unrelated_of_text (by decide))
  · exact reports_insertFile drive _ _ _ (w.log (.readFile srcPath))

theorem reports_download_unrelated (os : Os) (drive : Drive) (user : GDriveUserData) (req : RequestData) (w : World) :
    Reports Unrelated w (download os drive user req w) := by
  unfold download
  extract_lets srcPath srcFileID destPath w'
  split
  · exact unrelated_reply rfl (unrelated_of_text (by decide))
  split
  · exact unrelated_reply rfl (unrelated_of_text (by decide))
  split
  · exact unrelated_of_eq rfl
  extract_lets url
  split
  · exact unrelated_reply rfl (unrelated_of_text (by decide))
  · exact reports_of_eq rfl

/-- `remove` and `rename` answer for the file, not for the drive. -/
theorem unrelated_change {drive : Drive} {driveId path : Str} {change : Str → World → World × Bool} {status : String}
    (hchange : ∀ id w, (change id w).1.replies = w.replies) (s : GDriveProvider) (user : GDriveUserData) (w : World) :
    ∀ r ∈ newReplies w (
        let fileId := user.index.getFileId path
        if fileId = [] then (s, w.reply (cloudFailure SAFErrors.invalidPath.code))
        else
          match change fileId w with
          | (w, true) => (s.reload drive driveId user, w.reply (done status))
          | (w, false) => (s, w)).2, Unrelated r := by
  extract_lets fileId
  have hreplies := hchange fileId w
  split
  · exact unrelated_reply rfl (unrelated_of_text (by decide))
  split
  case h_1 w' h =>
    rw [h] at hreplies
    exact unrelated_reply hreplies (unrelated_of_success rfl)
  case h_2 w' h =>
    rw [h] at hreplies
    exact unrelated_of_eq hreplies

theorem decides_handleRequests {req : RequestData} (h : UsesDrive req) (os : Os) (drive : Drive) (s : GDriveProvider)
    (w : World) : Decides (s.accounts (driveOf req)) req w (handleRequests os drive req s w).2 := by
  have hdone : Unrelated progressReply := unrelated_of_success rfl
  unfold handleRequests driveOf
  cases hm : req.methodType with
  | listMethod =>
    refine decides_guarded fun s user => ?_
    extract_lets s' index files start stop page
    split
    · exact unrelated_reply rfl (unrelated_of_text (by decide))
    split
    · exact unrelated_reply rfl (unrelated_of_success rfl)
    · exact unrelated_of_eq rfl
  | getPropMethod =>
    refine decides_guarded fun s user => ?_
    extract_lets root path
    split
    · refine unrelated_reply rfl (unrelated_of_success ?_)
      split <;> rfl
    · exact unrelated_of_eq rfl
  | removeMethod => exact decides_guarded fun s user => unrelated_change (fun id w => deleteFile_replies drive id w) s user w
  | renameMethod =>
    exact decides_guarded fun s user => unrelated_change (fun id w => patchFile_replies drive id (req.str "newName") w) s user w
  | copyMethod =>
    refine decides_transfer (.inl hm) fun s user => ?_
    extract_lets srcFileID
    split
    · split
      · split
        · exact unrelated_reply rfl (unrelated_of_text (by decide))
        · exact reports_finish (reports_copyFile ..) hdone
      · exact reports_finish (reports_upload_unrelated ..) hdone
    · exact reports_finish (reports_download_unrelated ..) hdone
  | moveMethod =>
    refine decides_transfer (.inr hm) fun s user => ?_
    extract_lets srcFileID
    split
    · split
      · split
        · exact unrelated_reply rfl (unrelated_of_text (by decide))
        · exact reports_finish (reports_andThen (reports_copyFile ..) fun w => deleteFile_replies drive srcFileID w) hdone
      · exact reports_finish (reports_andThen (reports_upload_unrelated ..) fun w => rfl) hdone
    · exact reports_finish (reports_andThen (reports_download_unrelated ..) fun w => deleteFile_replies drive srcFileID w) hdone
  | extraMethod | listStoragesMethod | ejectMethod => simp [UsesDrive, IsTransfer, hm] at h

end GDriveProvider

/-! ## Runs -/

open GDriveProvider

/-- What a step of the service does to the accounts. -/
def Service.accountEvents (s : Service) : Service.Label → List Account.Event
  | .request env req => if route req = .gdrive then events env.drive req s.gdrive else []
  | .devices .. | .others .. => []

theorem accounts_step (s : Service) (l : Service.Label) (hs : s.gdrive.TablesInv) :
    Runs.run Account.apply s.gdrive.accounts (s.accountEvents l) = (s.step l).gdrive.accounts := by
  cases l with
  | devices root req => rfl
  | others fs cloud => rfl
  | request env req =>
    by_cases hroute : route req = .gdrive
    · rw [step_gdrive hroute, Service.accountEvents, if_pos hroute]
      exact (accounts_handleRequests hs.consistent env.os env.drive req s.world).symm
    · rw [Service.accountEvents, if_neg hroute, Runs.run_nil, Service.step, Service.handle]
      split <;> first | rfl | contradiction

/-- At the start there are no accounts. -/
theorem accounts_start (fs : FS) (cloud : Table CloudFile) : (Service.start fs cloud).gdrive.accounts = fun _ => none := by
  funext d
  simp [accounts, Service.start, GDriveProvider.init]

/-- After every run the drives of the provider are the accounts that the logins and
sign-ins of the run left, and the account of a drive decides about each request that
works on it: where the session may not use the account the request ends with the
account's refusal, or with that of a check before, and nothing else is done. -/
theorem drives_are_accounts (fs : FS) (cloud : Table CloudFile) (ls : List Service.Label) :
    let s := Runs.run Service.step (Service.start fs cloud) ls
    let accounts := Runs.run Account.apply (fun _ => none)
      (Runs.logged Service.step Service.accountEvents (Service.start fs cloud) ls)
    s.gdrive.accounts = accounts ∧
      ∀ (env : Env) (req : RequestData), route req = .gdrive → UsesDrive req →
        Decides (accounts (driveOf req)) req s.world (s.step (.request env req)).world := by
  intro s accounts
  have hrun := Runs.run_logged (s := Service.start fs cloud) tablesInv_step accounts_step ls GDriveProvider.TablesInv.init
  rw [accounts_start] at hrun
  refine ⟨hrun.symm, fun env req hroute huses => ?_⟩
  rw [show accounts = s.gdrive.accounts from hrun, step_gdrive hroute]
  exact decides_handleRequests huses env.os env.drive s.gdrive s.world

/-- The account of `GDRIVE_1` is another session's. -/
theorem remove_turned_away :
    TurnedAway loggedIn.world removeFromCloud .notOwner (loggedIn.step (.request Env.quiet removeFromCloud)).world :=
  ((drives_are_accounts (FS.ofEntries [] FS.isTree_nil) ∅ [.request Env.quiet login]).2 Env.quiet removeFromCloud rfl
    (.inl (by decide))).1 .notOwner rfl

end StorageAccess
