import StorageAccess.Lib.Runs
import StorageAccess.Model.UsbReplies
import StorageAccess.Proofs.UsbLookUps
/-!
# Chains of calls to the device manager

The pending calls and the replies so far are members of the request's parameters,
so a reply must neither drop a call nor a reply before it. `Waiting` says what is
left to call and what has come; every reply keeps it until nothing is left.
-/

open Posix Json

namespace StorageAccess.USBStorageProvider.Chained

open Runs

/-! ## What happens to a request -/

def BusEvent.call? : BusEvent → Option LSCall
  | .call c => some c
  | _ => none

def BusEvent.answer? : BusEvent → Option JValue
  | .cb rootObj => some rootObj
  | _ => none

def ReqContext.calls (x : ReqContext) : List LSCall := x.events.filterMap BusEvent.call?

def ReqContext.answers (x : ReqContext) : List JValue := x.events.filterMap BusEvent.answer?

/-- A reply of the device manager that parses. -/
def parsed (reply : JValue × Registry) : Message := ⟨some reply.1, reply.2⟩

/-- Every call is followed by its reply, and the answer comes after the last one. -/
def exchange (calls : List LSCall) (roots : List JValue) (response : JValue) : List BusEvent :=
  (calls.zip roots).flatMap (fun (c, root) => [.call c, .message (some root)]) ++ [.cb response]

/-- What a handler puts before the reply it is given. -/
def Handler.before (h : Handler) (driveId : Str) (usbStorages : Registry) : List JValue :=
  match h with
  | .onReply => []
  | .onGetPropertiesReply => [JValue.object.put "storageType" (.str (getStorageType usbStorages driveId))]

@[simp]
theorem calls_exchange (calls : List LSCall) (roots : List JValue) (response : JValue) (h : calls.length = roots.length) :
    (exchange calls roots response).filterMap BusEvent.call? = calls := by
  induction calls generalizing roots with
  | nil => rfl
  | cons c calls ih =>
    cases roots with
    | nil => cases h
    | cons root roots =>
      have hrest := ih roots (Nat.succ.inj h)
      simp only [exchange, List.zip_cons_cons, List.flatMap_cons, List.cons_append, List.nil_append] at hrest ⊢
      simp only [List.filterMap_cons, BusEvent.call?, hrest]

@[simp]
theorem answers_exchange (calls : List LSCall) (roots : List JValue) (response : JValue) :
    (exchange calls roots response).filterMap BusEvent.answer? = [response] := by
  have hnone : ((calls.zip roots).flatMap fun (c, root) => [BusEvent.call c, .message (some root)]).filterMap
      BusEvent.answer? = [] := by
    rw [List.filterMap_eq_nil_iff]
    intro e he
    obtain ⟨pair, -, he⟩ := List.mem_flatMap.1 he
    simp only [List.mem_cons, List.not_mem_nil, or_false] at he
    rcases he with rfl | rfl <;> rfl
  rw [exchange, List.filterMap_append, hnone]
  rfl

/-! ## One reply -/

theorem foldl_append (done replies : List JValue) : replies.foldl JValue.append (.arr done) = .arr (done ++ replies) := by
  induction replies generalizing done with
  | nil => simp
  | cons r replies ih => simp [JValue.append, ih]

/-- The responses so far, none where nothing has been collected. -/
def Holds (params : JValue) (done : List JValue) : Prop :=
  if params.hasKey "response" then params.get "response" = .arr done else done = []

theorem get_response_respond {params : JValue} (hobj : params.isObject = true) {done : List JValue}
    (h : Holds params done) (replies : List JValue) :
    (respond params replies).get "response" = .arr (done ++ replies) := by
  unfold Holds at h
  unfold respond
  cases hkey : params.hasKey "response" with
  | true =>
    rw [if_pos hkey] at h
    simp only [if_true, h, foldl_append]
    exact JValue.get_put_self _ hobj _ _
  | false =>
    rw [hkey] at h
    obtain rfl : done = [] := h
    simp only [Bool.false_eq_true, if_false, JValue.get_put_self _ hobj]
    rw [JValue.get_put_self _ (by simpa using hobj)]
    exact foldl_append [] replies

theorem isObject_respond (params : JValue) (replies : List JValue) :
    (respond params replies).isObject = params.isObject := by
  unfold respond
  split <;> simp

theorem get_respond {params : JValue} (hobj : params.isObject = true) (replies : List JValue) {key : String}
    (hkey : key ≠ "response") : (respond params replies).get key = params.get key := by
  unfold respond
  split
  · rw [JValue.get_put _ hobj, if_neg hkey]
  · rw [JValue.get_put _ (by simpa using hobj), if_neg hkey, JValue.get_put _ hobj, if_neg hkey]

/-- One call is under way, the replies so far are kept, and the rest is still to call. -/
structure Waiting (x : ReqContext) (c : LSCall) (done pending : List JValue) : Prop where
  object : x.params.isObject = true
  flight : x.inFlight = [c]
  response : Holds x.params done
  next : (x.params.get "nextReq").items = pending

section

variable {x : ReqContext} {c : LSCall} {done pending : List JValue} (root : JValue) (usbStorages : Registry)

/-- The replies there are once a call has got its own. -/
def collected (x : ReqContext) (c : LSCall) (done : List JValue) (root : JValue) (usbStorages : Registry) : List JValue :=
  done ++ (c.handler.before (x.params.get "driveId").asString usbStorages ++ [root])

/-- Both handlers add the reply to the parameters, leave the rest of them alone and go on. -/
theorem deliver_parsed (h : Waiting x c done pending) :
    ∃ params : JValue, deliver x (parsed (root, usbStorages)) =
        proceed ⟨params, [], x.events ++ [.message (some root)]⟩ ∧
      params.isObject = true ∧ params.get "response" = .arr (collected x c done root usbStorages) ∧
      (params.get "nextReq").items = pending := by
  refine ⟨respond x.params (c.handler.before (x.params.get "driveId").asString usbStorages ++ [root]), ?_, ?_, ?_, ?_⟩
  · unfold deliver
    rw [h.flight]
    cases hc : c.handler <;> simp [Handler.run, onReply, onGetPropertiesReply, parsed, Handler.before, hc]
  · rw [isObject_respond, h.object]
  · exact get_response_respond h.object h.response _
  · rw [get_respond h.object _ (by decide), h.next]

/-- With calls pending, the first one is made and nothing else. -/
theorem deliver_next {next : JValue} (h : Waiting x c done (next :: pending)) :
    Waiting (deliver x (parsed (root, usbStorages))) (nextCall next) (collected x c done root usbStorages) pending ∧
      (deliver x (parsed (root, usbStorages))).events = x.events ++ [.message (some root), .call (nextCall next)] := by
  obtain ⟨params, hdeliver, hobj, hresponse, hnext⟩ := deliver_parsed root usbStorages h
  rw [hdeliver]
  unfold proceed
  simp only [hnext]
  refine ⟨⟨?_, rfl, ?_, ?_⟩, by simp [ReqContext.lsCall]⟩
  · simpa [ReqContext.lsCall] using hobj
  · have hget : (params.put "nextReq" (.arr pending)).get "response" = .arr (collected x c done root usbStorages) := by
      rw [JValue.get_put _ hobj, if_neg (by decide), hresponse]
    have hkey : (params.put "nextReq" (.arr pending)).hasKey "response" = true := by
      by_contra hkey
      rw [JValue.get_of_not_hasKey hkey] at hget
      cases hget
    change Holds (params.put "nextReq" (.arr pending)) _
    rw [Holds, if_pos hkey]
    exact hget
  · change ((params.put "nextReq" (.arr pending)).get "nextReq").items = pending
    rw [JValue.get_put_self _ hobj]
    rfl

/-- Without pending calls the request is answered with everything that came. -/
theorem deliver_last (h : Waiting x c done []) :
    (deliver x (parsed (root, usbStorages))).inFlight = [] ∧
      (deliver x (parsed (root, usbStorages))).events =
        x.events ++ [.message (some root), .cb (.arr (collected x c done root usbStorages))] := by
  obtain ⟨params, hdeliver, -, hresponse, hnext⟩ := deliver_parsed root usbStorages h
  rw [hdeliver]
  unfold proceed
  simp only [hnext, hresponse, ReqContext.cb]
  exact ⟨trivial, by simp⟩

end

/-! ## A chain of replies -/

/-- From the call under way on, every call gets its reply before the next one is made. -/
theorem run_waiting {x : ReqContext} {c : LSCall} {done pending : List JValue} {earlier : List BusEvent}
    (h : Waiting x c done pending) (hevents : x.events = earlier ++ [.call c]) (root : JValue) (usbStorages : Registry)
    (rest : List (JValue × Registry)) (hlen : rest.length = pending.length) :
    (run deliver x (((root, usbStorages) :: rest).map parsed)).inFlight = [] ∧
      (run deliver x (((root, usbStorages) :: rest).map parsed)).events =
        earlier ++ exchange (c :: pending.map nextCall) (root :: rest.map Prod.fst)
          (.arr (collected x c done root usbStorages ++ rest.map Prod.fst)) := by
  induction pending generalizing x c done earlier root usbStorages rest with
  | nil =>
    obtain rfl := List.eq_nil_of_length_eq_zero hlen
    obtain ⟨hflight, hlast⟩ := deliver_last root usbStorages h
    refine ⟨hflight, hlast.trans ?_⟩
    simp [hevents, exchange]
  | cons next pending ih =>
    obtain ⟨⟨root', usbStorages'⟩, rest, rfl⟩ := List.exists_cons_of_length_eq_add_one hlen
    obtain ⟨hwaiting, hstep⟩ := deliver_next root usbStorages h
    have hcall : (deliver x (parsed (root, usbStorages))).events =
        (earlier ++ [.call c, .message (some root)]) ++ [.call (nextCall next)] := by
      rw [hstep, hevents]
      simp
    obtain ⟨hflight, hrun⟩ := ih hwaiting hcall root' usbStorages' rest (Nat.succ.inj hlen)
    refine ⟨hflight, hrun.trans ?_⟩
    -- what `onReply` collects is the reply alone
    simp [exchange, collected, nextCall, Handler.before]

/-- A request that waits for the replies to its first call and to the pending ones. -/
theorem waiting_start {params : JValue} (hobj : params.isObject = true) (hnew : params.hasKey "response" = false)
    (first : LSCall) : Waiting (.start params first) first [] (params.get "nextReq").items where
  object := hobj
  flight := rfl
  response := by
    change Holds params []
    simp [Holds, hnew]
  next := rfl

/-- Every pending call is made once, in order and after the reply before it; the request is
answered once, with all replies in the order in which they came. -/
theorem chain_complete (params : JValue) (hobj : params.isObject = true) (hnew : params.hasKey "response" = false)
    (first : LSCall) (root : JValue) (usbStorages : Registry) (rest : List (JValue × Registry))
    (hlen : rest.length = (params.get "nextReq").items.length) :
    let x := run deliver (.start params first) (((root, usbStorages) :: rest).map parsed)
    let calls := first :: (params.get "nextReq").items.map nextCall
    let response := JValue.arr (first.handler.before (params.get "driveId").asString usbStorages ++ root :: rest.map Prod.fst)
    x.events = exchange calls (root :: rest.map Prod.fst) response ∧ x.calls = calls ∧ x.answers = [response] ∧
      x.inFlight = [] := by
  intro x calls response
  have hstart : (ReqContext.start params first).events = [] ++ [.call first] := rfl
  obtain ⟨hflight, hevents⟩ := run_waiting (waiting_start hobj hnew first) hstart root usbStorages rest hlen
  have hresponse : collected (.start params first) first [] root usbStorages ++ rest.map Prod.fst =
      first.handler.before (params.get "driveId").asString usbStorages ++ root :: rest.map Prod.fst := by
    simp [collected, ReqContext.start, ReqContext.lsCall]
  rw [hresponse, List.nil_append] at hevents
  refine ⟨hevents, ?_, ?_, hflight⟩
  · rw [ReqContext.calls, hevents, calls_exchange]
    simp [hlen]
  · rw [ReqContext.answers, hevents, answers_exchange]

/-- A request for the properties of a drive, without a path. -/
def askDrive : JValue := (JValue.object.put "storageType" (.text "usb")).put "driveId" (.text "S1")

def spaceRequest : JValue :=
  (JValue.object.put "uri" (.text usbSpaceMethod)).put "payload" (.str (drivePayload "sda1".toList))

def writableReply : JValue := (JValue.object.put "returnValue" (.bool true)).put "isWritable" (.bool true)

def spaceReply : JValue :=
  (JValue.object.put "returnValue" (.bool true)).put "spaceInfo"
    ((JValue.object.put "totalSize" (.num 64)).put "freeSize" (.num 16))

/-- The two calls for the properties of a drive, each with its reply. -/
theorem chain_complete_properties :
    (run deliver (getPropertiesMethod askDrive "sda1".toList)
        ([(writableReply, ∅), (spaceReply, ∅)].map parsed)).answers =
      [.arr [JValue.object.put "storageType" (.str []), writableReply, spaceReply]] :=
  (chain_complete (askDrive.put "nextReq" (.arr [spaceRequest])) rfl rfl
    ⟨usbWriteQMethod.toList, drivePayload "sda1".toList, .onGetPropertiesReply⟩ writableReply ∅ [(spaceReply, ∅)] rfl).2.2.1

/-! ## The provider answers with what the chain hands on -/

/-- What the device manager replies to a call. -/
def served (luna : Luna) (c : LSCall) : JValue := luna (String.ofList c.uri) c.payload

/-- Answered by the device manager call by call, a request gets the reply the provider gives at once. -/
theorem answers_eq_onReply (luna : Luna) (reg : Registry) (w : World) {params : JValue} (hobj : params.isObject = true)
    (hnew : params.hasKey "response" = false) (first : LSCall) :
    (run deliver (.start params first)
        ((first :: (params.get "nextReq").items.map nextCall).map fun c => parsed (served luna c, reg))).answers =
      newReplies w (USBStorageProvider.onReply luna (params.get "nextReq").items
        (first.handler.before (params.get "driveId").asString reg) (served luna first) w) := by
  have hstart : (ReqContext.start params first).events = [] ++ [.call first] := rfl
  have hchain := run_waiting (waiting_start hobj hnew first) hstart (served luna first) reg
    ((params.get "nextReq").items.map fun next => (served luna (nextCall next), reg)) (by simp)
  rw [newReplies_of_append (congrArg World.replies (onReply_eq luna _ _ _ w)), ReqContext.answers]
  -- the messages are the replies to the calls
  have hmessages : (first :: (params.get "nextReq").items.map nextCall).map (fun c => parsed (served luna c, reg)) =
      ((served luna first, reg) :: (params.get "nextReq").items.map fun next => (served luna (nextCall next), reg)).map
        parsed := by
    simp
  rw [hmessages, hchain.2, List.nil_append, answers_exchange]
  simp [collected, ReqContext.start, ReqContext.lsCall, served, nextCall]

/-- A request for the properties of a drive is answered by the chain of its calls. -/
theorem goOn_eq_chain (os : Os) (luna : Luna) (reg : Registry) (req : RequestData) (w : World)
    (hobj : req.params.isObject = true) (hnew : req.params.hasKey "response" = false)
    (hpath : req.params.hasKey "path" = false) :
    newReplies w (goOn os luna reg req w) =
      (run deliver (getPropertiesMethod req.params (getDriveName reg (req.str "driveId")))
        [parsed (luna usbWriteQMethod (drivePayload (getDriveName reg (req.str "driveId"))), reg),
          parsed (luna usbSpaceMethod (drivePayload (getDriveName reg (req.str "driveId"))), reg)]).answers := by
  have hnone : (req.params.get "response").items = [] := by
    rw [JValue.get_of_not_hasKey (by simp [hnew])]
    rfl
  unfold goOn getPropertiesMethod
  simp only [hpath, Bool.false_eq_true, if_false, USBStorageProvider.onGetPropertiesReply, hnone, List.nil_append]
  generalize drivePayload (getDriveName reg (req.str "driveId")) = payload
  generalize hspace : (JValue.object.put "uri" (.text usbSpaceMethod)).put "payload" (.str payload) = spaceObj
  have hcall : nextCall spaceObj = ⟨usbSpaceMethod.toList, payload, .onReply⟩ := by
    rw [← hspace]
    rfl
  have hget : ((req.params.put "nextReq" (.arr [spaceObj])).get "nextReq").items = [spaceObj] := by
    rw [JValue.get_put_self _ hobj]
    rfl
  have hdrive : (req.params.put "nextReq" (.arr [spaceObj])).get "driveId" = req.params.get "driveId" := by
    rw [JValue.get_put _ hobj, if_neg (by decide)]
  have hobj' : (req.params.put "nextReq" (.arr [spaceObj])).isObject = true := by simpa using hobj
  have hnew' : (req.params.put "nextReq" (.arr [spaceObj])).hasKey "response" = false := by
    rw [JValue.hasKey_put _ hobj, hnew]
    decide
  have hchain := answers_eq_onReply luna reg w hobj' hnew'
    ⟨usbWriteQMethod.toList, payload, .onGetPropertiesReply⟩
  simp only [hget, hdrive, hcall, Handler.before, served, List.map_cons, List.map_nil, String.ofList_toList] at hchain
  exact hchain.symm

end StorageAccess.USBStorageProvider.Chained
