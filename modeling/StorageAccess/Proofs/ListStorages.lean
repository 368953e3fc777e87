import StorageAccess.Model.ListStorages
import StorageAccess.Proofs.Replies
/-!
# Answers to a list of the storage providers

Every message of the device manager starts another round of the providers, and
every round ends in a reply to the client. So the client gets one reply exactly
when there was one message, and then it holds the four responses in order.
-/

open Posix Json

namespace StorageAccess

/-! ## The front end -/

namespace SAFLunaService

/-- The parameters say which provider a reply comes from. -/
theorem storageTypeOf_of_get {rootObj : JValue} (text : String) (h : rootObj.get "storageType" = .text text) :
    storageTypeOf rootObj = getStorageDeviceType text.toList := by
  rw [storageTypeOf, h]
  rfl

theorem isObject_onListOfStoragesReply {rootObj : JValue} (h : rootObj.isObject = true) :
    (onListOfStoragesReply rootObj).1.isObject = true := by
  unfold onListOfStoragesReply
  split
  · simpa using h
  · simpa using h
  · simpa using h
  · dsimp only
    split
    · simpa using h
    · exact h
  · exact h

/-- A reply is followed by a request to a provider other than the USB provider, or by the answer. -/
theorem onListOfStoragesReply_cases (rootObj : JValue) :
    (∃ type, type ≠ .usb ∧ (onListOfStoragesReply rootObj).2 = .addRequest type) ∨
      ∃ respObj, (onListOfStoragesReply rootObj).2 = .postToClient respObj := by
  unfold onListOfStoragesReply
  split
  · exact .inl ⟨.internal, by decide, rfl⟩
  · exact .inl ⟨.gdrive, by decide, rfl⟩
  · exact .inl ⟨.network, by decide, rfl⟩
  · exact .inr ⟨_, rfl⟩
  · exact .inr ⟨_, rfl⟩

/-- The responses grow by the one that came. -/
theorem collected_eq {rootObj : JValue} {responses : List JValue} (hkey : rootObj.hasKey "response" = true)
    (h : rootObj.get "listStorageResponse" = .arr responses) :
    collected rootObj = .arr (responses ++ [rootObj.get "response"]) := by
  have hresponses : rootObj.hasKey "listStorageResponse" = true := by
    by_contra hn
    rw [JValue.get_of_not_hasKey hn] at h
    cases h
  rw [collected, if_pos hresponses, if_pos hkey, h]
  rfl

end SAFLunaService

namespace ListCall

open SAFLunaService

/-! ## Single replies -/

/-- What a reply does besides handing on the parameters: one more request is
pending or one more answer posted. -/
theorem receive_cases (type : StorageType) (c : ListCall) {rootObj : JValue} (h : rootObj.isObject = true) :
    (receive type c rootObj).called = c.called ∧ (receive type c rootObj).params.isObject = true ∧
      ((∃ next, next ≠ .usb ∧ (receive type c rootObj).pending = c.pending ++ [next] ∧
          (receive type c rootObj).posted = c.posted) ∨
        ∃ respObj, (receive type c rootObj).pending = c.pending ∧
          (receive type c rootObj).posted = c.posted ++ [respObj]) := by
  have hobj := isObject_onListOfStoragesReply h
  have hnext := onListOfStoragesReply_cases rootObj
  unfold receive
  obtain ⟨⟨params, next⟩, he⟩ : ∃ r, onListOfStoragesReply rootObj = r := ⟨_, rfl⟩
  rw [he] at hobj hnext ⊢
  rcases hnext with ⟨type', hne, rfl⟩ | ⟨respObj, rfl⟩
  · exact ⟨rfl, hobj, .inl ⟨type', hne, rfl, rfl⟩⟩
  · exact ⟨rfl, hobj, .inr ⟨respObj, rfl, rfl⟩⟩

/-- The providers other than the USB provider reply once, with the parameters and their response. -/
theorem newReplies_handle (s : Service) (env : Env) {req : RequestData} (hm : req.methodType = .listStoragesMethod)
    (ht : req.storageType ≠ .usb) :
    ∃ response, newReplies s.world (s.handle env req).world = [req.params.put "response" response] := by
  have hr : route req = req.storageType := if_neg (by simp [hm])
  unfold Service.handle
  rw [hr]
  cases h : req.storageType with
  | usb => exact absurd h ht
  | internal =>
    simp only [InternalStorageProvider.handleRequests, hm]
    refine ⟨_, newReplies_of_append (congrArg (· ++ [_]) ?_)⟩
    exact getInternalPath_replies env.os s.world req.sessionId
  | network =>
    simp only [NetworkProvider.handleRequests, hm]
    exact ⟨_, newReplies_of_append rfl⟩
  | gdrive =>
    simp only [GDriveProvider.handleRequests, hm]
    exact ⟨_, newReplies_of_append rfl⟩

/-- A call whose request a provider takes out of its queue. -/
def taken (env : Env) (type : StorageType) (c : ListCall) : ListCall :=
  { c with service := c.service.handle env (c.request type), called := c.called || type = .usb,
           pending := c.pending.erase type }

theorem serve_eq {c : ListCall} (env : Env) {type : StorageType} (h : type ∈ c.pending) :
    c.serve env type =
      (newReplies c.service.world (c.taken env type).service.world).foldl (receive type) (c.taken env type) := if_pos h

/-- The USB provider asks the device manager and says nothing. -/
theorem serve_usb {c : ListCall} (env : Env) (h : .usb ∈ c.pending) : c.serve env .usb = c.taken env .usb := by
  have hr : route (c.request .usb) = .usb := if_neg (by simp [request])
  have hnone : newReplies c.service.world (c.taken env .usb).service.world = [] := by
    have hm : (c.request .usb).methodType = .listStoragesMethod := rfl
    refine newReplies_of_append ?_
    simp only [taken, Service.handle, hr, USBStorageProvider.handleRequests, hm, List.append_nil]
  rw [serve_eq env h, hnone, List.foldl_nil]

theorem serve_other {c : ListCall} (env : Env) {type : StorageType} (h : type ∈ c.pending) (hne : type ≠ .usb) :
    ∃ response, c.serve env type = receive type (c.taken env type) (c.params.put "response" response) := by
  have hm : (c.request type).methodType = .listStoragesMethod := rfl
  obtain ⟨response, hr⟩ := newReplies_handle c.service env hm hne
  exact ⟨response, by rw [serve_eq env h, taken, hr]; rfl⟩

theorem notify_eq {c : ListCall} (root : JValue) (h : c.called = true) :
    ∃ service response, c.notify root = receive .usb { c with service := service }
      ((c.params.put "response" response).put "storageType" (.text "usb")) := by
  let reply := USBStorageProvider.onListStoragesMethodReply root (c.request .usb) c.service.world
  refine ⟨{ c.service with usb := reply.1, world := reply.2 }, USBStorageProvider.parseListOfStorages root,
    (if_pos h).trans ?_⟩
  have hreplies : newReplies c.service.world reply.2 = [_] := newReplies_of_append rfl
  exact congrArg (List.foldl (receive .usb) _) hreplies

/-! ## One round -/

/-- The client has one answer, made of the responses of the four providers, each given once. -/
def AnsweredOnce (c : ListCall) : Prop :=
  ∃ respObj, c.posted = [respObj] ∧ c.produced.map (·.1) = [.usb, .internal, .gdrive, .network] ∧
    respObj.get "storageProviders" = .arr (c.produced.map (·.2))

/-- Nothing has come of the call so far. -/
structure Idle (c : ListCall) : Prop where
  posted : c.posted = []
  produced : c.produced = []
  object : c.params.isObject = true

/-- One provider is asked, after the earlier ones have answered. -/
structure Asked (c : ListCall) (type : StorageType) (text : String) (earlier : List StorageType) : Prop where
  called : c.called = true
  pending : c.pending = [type]
  posted : c.posted = []
  object : c.params.isObject = true
  storageType : c.params.get "storageType" = .text text
  responses : c.params.get "listStorageResponse" = .arr (c.produced.map (·.2))
  produced : c.produced.map (·.1) = earlier

/-- The first message has the internal provider asked next. -/
theorem Idle.notify {c : ListCall} (h : Idle c) (root : JValue) (hcalled : c.called = true) (hpending : c.pending = []) :
    Asked (c.notify root) .internal "internal" [.usb] := by
  obtain ⟨service, response, e⟩ := notify_eq root hcalled
  let rootObj := (c.params.put "response" response).put "storageType" (.text "usb")
  have hobj : rootObj.isObject = true := by simp [rootObj, h.object]
  have htype : storageTypeOf rootObj = some .usb :=
    storageTypeOf_of_get "usb" (JValue.get_put_self _ (by simp [h.object]) _ _)
  have hkey : rootObj.hasKey "response" = true := by
    simp [rootObj, JValue.hasKey_put, h.object]
  have hnext : onListOfStoragesReply rootObj = ((rootObj.put "storageType" (.text "internal")).put "listStorageResponse"
      (.arr [rootObj.get "response"]), .addRequest .internal) := by
    simp only [onListOfStoragesReply, htype, hkey, if_true]
  rw [e]
  change Asked (receive .usb { c with service := service } rootObj) .internal "internal" [.usb]
  simp only [receive, hnext, h.produced, h.posted, hpending, List.nil_append]
  refine ⟨hcalled, rfl, rfl, by simpa using hobj, ?_, ?_, rfl⟩
  · rw [JValue.get_put _ (by simpa using hobj), if_neg (by decide), JValue.get_put_self _ hobj]
  · rw [JValue.get_put_self _ (by simpa using hobj)]
    rfl

/-- A provider that is asked hands the round on to the next. -/
theorem Asked.serve {c : ListCall} {type next : StorageType} {text nextText : String} {earlier : List StorageType}
    (h : Asked c type text earlier) (env : Env) (hne : type ≠ .usb)
    (hnext : ∀ rootObj : JValue, rootObj.get "storageType" = .text text → onListOfStoragesReply rootObj =
      ((rootObj.put "storageType" (.text nextText)).put "listStorageResponse"
        (collected (rootObj.put "storageType" (.text nextText))), .addRequest next)) :
    Asked (c.serve env type) next nextText (earlier ++ [type]) := by
  obtain ⟨response, e⟩ := serve_other env (by rw [h.pending]; exact List.mem_singleton_self type) hne
  let rootObj := c.params.put "response" response
  have hobj : rootObj.isObject = true := by simp [rootObj, h.object]
  have htext : rootObj.get "storageType" = .text text := by
    rw [JValue.get_put _ h.object, if_neg (by decide), h.storageType]
  have hcollected : collected (rootObj.put "storageType" (.text nextText)) =
      .arr (c.produced.map (·.2) ++ [rootObj.get "response"]) := by
    have hkey : (rootObj.put "storageType" (.text nextText)).hasKey "response" = true := by
      simp [rootObj, JValue.hasKey_put, h.object]
    have hlist : (rootObj.put "storageType" (.text nextText)).get "listStorageResponse" =
        .arr (c.produced.map (·.2)) := by
      rw [JValue.get_put _ hobj, if_neg (by decide), JValue.get_put _ h.object, if_neg (by decide), h.responses]
    rw [collected_eq hkey hlist, JValue.get_put _ hobj, if_neg (by decide)]
  rw [e]
  change Asked (receive type (c.taken env type) rootObj) next nextText (earlier ++ [type])
  simp only [receive, hnext rootObj htext, taken, h.pending, h.posted, List.erase_cons_head, List.nil_append, hcollected]
  refine ⟨by simp [h.called], rfl, rfl, by simpa using hobj, ?_, ?_, ?_⟩
  · rw [JValue.get_put _ (by simpa using hobj), if_neg (by decide), JValue.get_put_self _ hobj]
  · rw [JValue.get_put_self _ (by simpa using hobj), List.map_append]
    rfl
  · rw [List.map_append, h.produced]
    rfl

/-- The network provider's response completes the answer. -/
theorem Asked.answered {c : ListCall} (h : Asked c .network "network" [.usb, .internal, .gdrive]) (env : Env) :
    AnsweredOnce (c.serve env .network) := by
  obtain ⟨response, e⟩ := serve_other env (by rw [h.pending]; exact List.mem_singleton_self _) (by decide)
  let rootObj := c.params.put "response" response
  have htype : storageTypeOf rootObj = some .network :=
    storageTypeOf_of_get "network" (by rw [JValue.get_put _ h.object, if_neg (by decide), h.storageType])
  have hcollected : collected rootObj = .arr (c.produced.map (·.2) ++ [rootObj.get "response"]) := by
    refine collected_eq ?_ ?_
    · rw [JValue.hasKey_put _ h.object, decide_eq_true rfl, Bool.true_or]
    · rw [JValue.get_put _ h.object, if_neg (by decide), h.responses]
  rw [e]
  change AnsweredOnce (receive .network (c.taken env .network) rootObj)
  simp only [AnsweredOnce, receive, onListOfStoragesReply, htype, hcollected, taken, h.posted, List.nil_append,
    List.map_append, h.produced]
  exact ⟨_, rfl, rfl, rfl⟩

/-! ## Runs -/

/-- How many messages a step delivers: those that parse, once the device manager was asked. -/
def delivers (c : ListCall) : Label → Nat
  | .notify (some _) => if c.called then 1 else 0
  | _ => 0

/-- How many messages a run delivers. -/
def delivered : ListCall → List Label → Nat
  | _, [] => 0
  | c, l :: ls => c.delivers l + delivered (c.step l) ls

/-- What holds with the number of messages delivered, and is kept by every step, holds after a run. -/
theorem inv_run_delivered {P : ListCall → Nat → Prop} (hstep : ∀ c n l, P c n → P (c.step l) (n + c.delivers l))
    {c : ListCall} {n : Nat} (ls : List Label) (h : P c n) : P (Runs.run step c ls) (n + delivered c ls) := by
  induction ls generalizing c n with
  | nil => exact h
  | cons l ls ih =>
    have hrest := ih (hstep c n l h)
    rwa [Nat.add_assoc] at hrest

/-- Each message delivered is still being worked on or was answered. -/
structure Balanced (c : ListCall) (n : Nat) : Prop where
  object : c.params.isObject = true
  balance : (c.called = false ∧ c.pending = [.usb] ∧ c.posted = [] ∧ n = 0) ∨
    (c.called = true ∧ .usb ∉ c.pending ∧ c.posted.length + c.pending.length = n)

theorem balanced_receive {c : ListCall} {n : Nat} (hcalled : c.called = true) (husb : .usb ∉ c.pending)
    (hn : c.posted.length + c.pending.length + 1 = n) (type : StorageType) {rootObj : JValue}
    (hobj : rootObj.isObject = true) : Balanced (receive type c rootObj) n := by
  obtain ⟨hcalled', hobj', ⟨next, hne, hpending, hposted⟩ | ⟨respObj, hpending, hposted⟩⟩ := receive_cases type c hobj
  · refine ⟨hobj', .inr ⟨hcalled'.trans hcalled, ?_, ?_⟩⟩
    · rw [hpending, List.mem_append, List.mem_singleton]
      exact not_or.2 ⟨husb, hne.symm⟩
    · rw [hpending, hposted, List.length_append, List.length_singleton]
      omega
  · refine ⟨hobj', .inr ⟨hcalled'.trans hcalled, by rwa [hpending], ?_⟩⟩
    rw [hpending, hposted, List.length_append, List.length_singleton]
    omega

theorem Balanced.step (c : ListCall) (n : Nat) (l : Label) (h : Balanced c n) : Balanced (c.step l) (n + c.delivers l) := by
  cases l with
  | others l => exact ⟨h.object, h.balance⟩
  | serve env type =>
    by_cases hmem : type ∈ c.pending
    case neg =>
      have e : c.step (.serve env type) = c := if_neg hmem
      rw [e]
      exact h
    rcases h.balance with ⟨hcalled, hpending, hposted, rfl⟩ | ⟨hcalled, husb, hn⟩
    · obtain rfl : type = .usb := List.mem_singleton.1 (hpending ▸ hmem)
      have e : c.step (.serve env .usb) = c.taken env .usb := serve_usb env hmem
      rw [e]
      exact ⟨h.object, .inr ⟨by simp [taken], by simp [taken, hpending], by simp [taken, hpending, hposted, delivers]⟩⟩
    · -- a provider that answers leaves the pending ones and adds a reply
      have hne : type ≠ .usb := fun e => husb (e ▸ hmem)
      obtain ⟨response, e⟩ := serve_other env hmem hne
      have hlen := List.length_erase_of_mem hmem
      have hpos := List.length_pos_of_mem hmem
      have hobj : (c.params.put "response" response).isObject = true := by simp [h.object]
      have hafter : (c.taken env type).posted.length + (c.taken env type).pending.length + 1 = n := by
        simp only [taken, hlen]
        omega
      change Balanced (c.serve env type) n
      rw [e]
      exact balanced_receive (by simp [taken, hcalled]) (fun hm => husb (List.mem_of_mem_erase hm)) hafter type hobj
  | notify root =>
    cases root with
    | none => exact h
    | some root =>
      rcases h.balance with ⟨hcalled, hpending, hposted, rfl⟩ | ⟨hcalled, husb, hn⟩
      · have e : c.step (.notify (some root)) = c := if_neg (by simp [hcalled])
        have hzero : c.delivers (.notify (some root)) = 0 := if_neg (by simp [hcalled])
        rw [e, hzero]
        exact h
      · -- a notification adds a reply that no pending provider gave
        obtain ⟨service, response, e⟩ := notify_eq root hcalled
        have hone : c.delivers (.notify (some root)) = 1 := if_pos hcalled
        have hobj : ((c.params.put "response" response).put "storageType" (.text "usb")).isObject = true := by
          simp [h.object]
        rw [hone]
        change Balanced (c.notify root) (n + 1)
        rw [e]
        refine balanced_receive ?_ ?_ ?_ .usb hobj
        · exact hcalled
        · exact husb
        · exact congrArg (· + 1) hn

/-- How far the one round has come. -/
inductive Progress (c : ListCall) : Nat → Prop
  | waiting (idle : Idle c) (called : c.called = false) (pending : c.pending = [.usb]) : Progress c 0
  | listening (idle : Idle c) (called : c.called = true) (pending : c.pending = []) : Progress c 0
  | internal (asked : Asked c .internal "internal" [.usb]) : Progress c 1
  | cloud (asked : Asked c .gdrive "cloud" [.usb, .internal]) : Progress c 1
  | network (asked : Asked c .network "network" [.usb, .internal, .gdrive]) : Progress c 1
  | answered (pending : c.pending = []) (once : AnsweredOnce c) : Progress c 1
  | again (n : Nat) : Progress c (n + 2)

/-- A request that is not in a queue is not taken up. -/
theorem serve_of_not_mem {c : ListCall} (env : Env) {type : StorageType} (h : type ∉ c.pending) : c.serve env type = c :=
  if_neg h

theorem Asked.serve_self {c : ListCall} {type type' : StorageType} {text : String} {earlier : List StorageType}
    (h : Asked c type text earlier) (env : Env) (hne : type' ≠ type) : c.serve env type' = c :=
  serve_of_not_mem env (by rw [h.pending, List.mem_singleton]; exact hne)

theorem Asked.answered_pending {c : ListCall} (h : Asked c .network "network" [.usb, .internal, .gdrive]) (env : Env) :
    (c.serve env .network).pending = [] := by
  obtain ⟨response, e⟩ := serve_other env (by rw [h.pending]; exact List.mem_singleton_self _) (by decide)
  have htype : storageTypeOf (c.params.put "response" response) = some .network :=
    storageTypeOf_of_get "network" (by rw [JValue.get_put _ h.object, if_neg (by decide), h.storageType])
  rw [e, receive]
  simp only [onListOfStoragesReply, htype, taken, h.pending, List.erase_cons_head]

theorem Progress.serve {c : ListCall} {n : Nat} (h : Progress c n) (env : Env) (type : StorageType) :
    Progress (c.serve env type) n := by
  cases h with
  | waiting idle called pending =>
    by_cases ht : type = .usb
    · subst ht
      rw [serve_usb env (by rw [pending]; exact List.mem_singleton_self _)]
      exact .listening ⟨idle.posted, idle.produced, idle.object⟩ (by simp [taken]) (by simp [taken, pending])
    · rw [serve_of_not_mem env (by rw [pending, List.mem_singleton]; exact ht)]
      exact .waiting idle called pending
  | listening idle called pending =>
    rw [serve_of_not_mem env (by rw [pending]; exact List.not_mem_nil)]
    exact .listening idle called pending
  | internal asked =>
    -- the providers are asked one after another
    by_cases ht : type = .internal
    · subst ht
      refine .cloud (asked.serve env (by decide) fun rootObj hr => ?_)
      simp only [onListOfStoragesReply, storageTypeOf_of_get "internal" hr]
      rfl
    · rw [asked.serve_self env ht]; exact .internal asked
  | cloud asked =>
    by_cases ht : type = .gdrive
    · subst ht
      refine .network (asked.serve env (by decide) fun rootObj hr => ?_)
      simp only [onListOfStoragesReply, storageTypeOf_of_get "cloud" hr]
      rfl
    · rw [asked.serve_self env ht]; exact .cloud asked
  | network asked =>
    by_cases ht : type = .network
    · subst ht; exact .answered (asked.answered_pending env) (asked.answered env)
    · rw [asked.serve_self env ht]; exact .network asked
  | answered pending once =>
    rw [serve_of_not_mem env (by rw [pending]; exact List.not_mem_nil)]
    exact .answered pending once
  | again n => exact .again n

theorem Progress.step (c : ListCall) (n : Nat) (l : Label) (h : Progress c n) : Progress (c.step l) (n + c.delivers l) := by
  cases l with
  | serve env type => exact h.serve env type
  | others l =>
    cases h with
    | waiting idle called pending => exact .waiting ⟨idle.posted, idle.produced, idle.object⟩ called pending
    | listening idle called pending => exact .listening ⟨idle.posted, idle.produced, idle.object⟩ called pending
    | internal asked => exact .internal { asked with }
    | cloud asked => exact .cloud { asked with }
    | network asked => exact .network { asked with }
    | answered pending once => exact .answered pending once
    | again n => exact .again n
  | notify root =>
    cases root with
    | none => exact h
    | some root =>
      by_cases hcalled : c.called = true
      case neg =>
        have e : c.step (.notify (some root)) = c := if_neg hcalled
        have hzero : c.delivers (.notify (some root)) = 0 := if_neg hcalled
        rw [e, hzero]
        exact h
      have hone : c.delivers (.notify (some root)) = 1 := if_pos hcalled
      rw [hone]
      cases h with
      | waiting idle called => exact absurd (called.symm.trans hcalled) nofun
      | listening idle called pending => exact .internal (idle.notify root called pending)
      | internal | cloud | network | answered => exact .again 0
      | again n => exact .again (n + 1)

end ListCall

/-- Once all requests of a call for the storage providers are done, it was
answered once and in full exactly when the device manager sent one message. -/
theorem providers_listed_once_iff (s : Service) {payload : JValue} {sessionId : Str} {req : RequestData}
    (hreq : SAFLunaService.accept .listStoragesMethod payload sessionId = some req) (ls : List ListCall.Label)
    (hdone : (Runs.run ListCall.step (ListCall.start s req) ls).pending = []) :
    (Runs.run ListCall.step (ListCall.start s req) ls).AnsweredOnce ↔
      ListCall.delivered (ListCall.start s req) ls = 1 := by
  have hstart : req.storageType = .usb ∧ req.params.isObject = true := by
    have hobj := isObject_of_accept hreq
    simp only [SAFLunaService.accept, SAFLunaService.nonEmpty, List.any_nil, Bool.false_eq_true, if_false] at hreq
    split at hreq
    · cases hreq
    · cases hreq
      exact ⟨rfl, by simpa using hobj⟩
  have hpending : (ListCall.start s req).pending = [.usb] := congrArg (fun type => [type]) hstart.1
  have hbalanced := ListCall.inv_run_delivered ListCall.Balanced.step ls
    (n := 0) ⟨hstart.2, .inl ⟨rfl, hpending, rfl, rfl⟩⟩
  have hprogress := ListCall.inv_run_delivered ListCall.Progress.step ls
    (n := 0) (.waiting (c := ListCall.start s req) ⟨rfl, rfl, hstart.2⟩ rfl hpending)
  rw [Nat.zero_add] at hbalanced hprogress
  -- with nobody pending, as many replies are posted as were delivered
  constructor
  · rintro ⟨respObj, hposted, -, -⟩
    rcases hbalanced.balance with ⟨-, hp, -, -⟩ | ⟨-, -, hn⟩
    · rw [hdone] at hp
      cases hp
    · rw [← hn, hposted, hdone]
      rfl
  · intro hn
    rw [hn] at hprogress
    cases hprogress with
    | internal asked => rw [asked.pending] at hdone; cases hdone
    | cloud asked => rw [asked.pending] at hdone; cases hdone
    | network asked => rw [asked.pending] at hdone; cases hdone
    | answered _ once => exact once

/-- A request for the storage providers, as the front end takes it. -/
def listProviders : RequestData :=
  ⟨.usb, .listStoragesMethod, JValue.object.put "storageType" (.text "usb"), "guest".toList⟩

theorem accept_listProviders :
    SAFLunaService.accept .listStoragesMethod .object "guest".toList = some listProviders := rfl

/-- The device manager says that there are no devices. -/
def noDevices : ListCall.Label :=
  .notify (some ((JValue.object.put "returnValue" (.bool true)).put "storageDeviceList" .array))

/-- The providers take up what is in their queues. -/
def served (types : List StorageType) : List ListCall.Label := types.map (.serve Env.quiet)

theorem one_message_answers :
    ListCall.AnsweredOnce (Runs.run ListCall.step (ListCall.start (Service.start (FS.ofEntries [] (by decide)) ∅) listProviders)
      (served [.usb] ++ noDevices :: served [.internal, .gdrive, .network])) :=
  (providers_listed_once_iff _ accept_listProviders _ (by decide +kernel)).2 rfl

/-- A second message, as the subscription sends it when a device comes, has the client answered twice. -/
theorem two_messages_answer_twice :
    let c := Runs.run ListCall.step (ListCall.start (Service.start (FS.ofEntries [] (by decide)) ∅) listProviders)
      (served [.usb] ++ noDevices :: noDevices :: served [.internal, .internal, .gdrive, .network])
    c.pending = [] ∧ ¬ c.AnsweredOnce := by
  intro c
  refine ⟨by decide +kernel, ?_⟩
  rintro ⟨respObj, hposted, -, -⟩
  have htwo : c.posted.length = 2 := by decide +kernel
  rw [hposted] at htwo
  cases htwo

end StorageAccess
