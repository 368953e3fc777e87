import StorageAccess.Model.UsbBus
import StorageAccess.Proofs.Chains
/-!
# Requests at the device manager do not mix

A message concerns the request it is for and no other, so that a request goes
through its own replies as if it were alone, whatever comes in between. It is
answered once as many of them came as it has calls, all of them JSON.
-/

open Posix Json

namespace StorageAccess.USBStorageProvider.Chained

open Runs

/-! ## One request -/

/-- A request that waits for no reply takes none. -/
theorem run_idle {x : ReqContext} (h : x.inFlight = []) (msgs : List Message) : run deliver x msgs = x := by
  induction msgs with
  | nil => rfl
  | cons m msgs ih =>
    have hdeliver : deliver x m = x := by
      unfold deliver
      rw [h]
    rw [run_cons, hdeliver, ih]

/-- A payload that is no JSON ends the chain. -/
theorem deliver_unparsed {x : ReqContext} {c : LSCall} (h : x.inFlight = [c]) {m : Message} (hm : m.dom = none) :
    (deliver x m).inFlight = [] ∧ (deliver x m).events = x.events ++ [.message none] := by
  unfold deliver
  rw [h]
  cases hc : c.handler <;> simp [Handler.run, onReply, onGetPropertiesReply, hm, hc]

/-- The replies up to the first payload that is no JSON. -/
def replies : List Message → List JValue
  | [] => []
  | m :: msgs =>
    match m.dom with
    | some root => root :: replies msgs
    | none => []

/-- `usbStorages` as it stands when the first message comes. -/
def firstStorages (msgs : List Message) : Registry := (msgs.head?.map Message.usbStorages).getD ∅

/-- What a request with so many more calls answers, once the replies are enough. -/
def answer (more : Nat) (before roots : List JValue) : List JValue :=
  if more < roots.length then [.arr (before ++ roots.take (more + 1))] else []

/-- Whatever messages come for it, a request makes its calls one for each reply, and
answers when it has the last one. -/
theorem run_messages {x : ReqContext} {c : LSCall} {done pending : List JValue} (h : Waiting x c done pending)
    (hnone : x.answers = []) (msgs : List Message) :
    (run deliver x msgs).answers = answer pending.length
        (done ++ c.handler.before (x.params.get "driveId").asString (firstStorages msgs)) (replies msgs) ∧
      (run deliver x msgs).calls = x.calls ++ (pending.take (replies msgs).length).map nextCall := by
  induction msgs generalizing x c done pending with
  | nil => exact ⟨hnone, (List.append_nil _).symm⟩
  | cons m msgs ih =>
    obtain ⟨dom, usbStorages⟩ := m
    rw [run_cons]
    cases dom with
    | none =>
      obtain ⟨hflight, hevents⟩ := deliver_unparsed h.flight (m := ⟨none, usbStorages⟩) rfl
      rw [run_idle hflight, ReqContext.answers, ReqContext.calls, hevents, List.filterMap_append, List.filterMap_append]
      refine ⟨?_, ?_⟩
      · exact (List.append_nil _).trans hnone
      · simp [BusEvent.call?, replies, ReqContext.calls]
    | some root =>
      have hreplies : replies (⟨some root, usbStorages⟩ :: msgs) = root :: replies msgs := rfl
      have hfirst : firstStorages (⟨some root, usbStorages⟩ :: msgs) = usbStorages := rfl
      have hparsed : (⟨some root, usbStorages⟩ : Message) = parsed (root, usbStorages) := rfl
      rw [hreplies, hfirst, hparsed]
      cases pending with
      | nil =>
        obtain ⟨hflight, hevents⟩ := deliver_last root usbStorages h
        rw [run_idle hflight, ReqContext.answers, ReqContext.calls, hevents, List.filterMap_append, List.filterMap_append]
        rw [ReqContext.answers] at hnone
        rw [hnone]
        exact ⟨by simp [answer, collected, List.filterMap_cons, BusEvent.answer?],
          by simp [ReqContext.calls, List.filterMap_cons, BusEvent.call?]⟩
      | cons next pending =>
        obtain ⟨hwaiting, hevents⟩ := deliver_next root usbStorages h
        have hanswers : (deliver x (parsed (root, usbStorages))).answers = [] := by
          rw [ReqContext.answers, hevents, List.filterMap_append]
          exact (List.append_nil _).trans hnone
        have hcalls : (deliver x (parsed (root, usbStorages))).calls = x.calls ++ [nextCall next] := by
          rw [ReqContext.calls, hevents, List.filterMap_append]
          rfl
        -- the next handler puts nothing before its reply
        have hbefore (d : Str) (reg : Registry) : (nextCall next).handler.before d reg = [] := rfl
        obtain ⟨hans, hcall⟩ := ih hwaiting hanswers
        refine ⟨hans.trans ?_, hcall.trans ?_⟩
        · rw [hbefore, List.append_nil, answer, answer, List.length_cons, List.length_cons]
          simp [collected]
        · rw [hcalls, List.append_assoc]
          simp

/-! ## Many requests -/

namespace Bus

/-- What a step brings to a request. -/
def hear (request : Nat) (s : Bus) : Label → List Message
  | .message r dom => if r = request then [⟨dom, s.usbStorages⟩] else []
  | .getProperties _ | .eject _ | .devices _ => []

/-- The messages for a request. -/
def heard (request : Nat) (s : Bus) (ls : List Label) : List Message := logged step (hear request) s ls

theorem requests_step {s : Bus} {i : Nat} {x : ReqContext} (h : s.requests[i]? = some x) (l : Label) :
    (s.step l).requests[i]? = some (run deliver x (hear i s l)) := by
  have hmore (more : List ReqContext) : (s.requests ++ more)[i]? = some x := by
    rw [List.getElem?_append_left (List.getElem?_eq_some_iff.1 h).1]
    exact h
  cases l with
  | getProperties params => exact hmore _
  | eject params => exact hmore _
  | devices root => exact h
  | message r dom =>
    unfold step
    dsimp only
    rw [List.getElem?_modify, h]
    by_cases hr : r = i
    · simp [hear, hr]
    · simp [hear, hr]

/-- A request goes through the messages for it, whatever else happens. -/
theorem requests_run {s : Bus} {i : Nat} {x : ReqContext} (h : s.requests[i]? = some x) (ls : List Label) :
    (run step s ls).requests[i]? = some (run deliver x (heard i s ls)) := by
  induction ls generalizing s x with
  | nil => exact h
  | cons l ls ih =>
    rw [run_cons, ih (requests_step h l)]
    exact congrArg some List.foldl_append.symm

/-- The request a label starts. -/
def asked (s : Bus) : Label → Option ReqContext
  | .getProperties params => askProperties s.usbStorages params
  | .eject params => askEject s.usbStorages params
  | .devices _ | .message _ _ => none

/-- The parameters are those of a call: an object that has collected no replies yet. -/
def Fresh : Label → Prop
  | .getProperties params | .eject params => params.isObject = true ∧ params.hasKey "response" = false
  | .devices _ | .message _ _ => True

theorem requests_asked {s : Bus} {ask : Label} {x : ReqContext} (h : asked s ask = some x) :
    (s.step ask).requests = s.requests ++ [x] := by
  cases ask with
  | getProperties params | eject params =>
    unfold asked at h
    dsimp only at h
    unfold step
    dsimp only
    rw [h]
    rfl
  | devices root | message r dom => cases h

/-- A request that was just started waits for the reply to its first call. -/
theorem waiting_asked {s : Bus} {ask : Label} {x : ReqContext} (hfresh : Fresh ask) (h : asked s ask = some x) :
    ∃ first, Waiting x first [] (x.params.get "nextReq").items ∧ x.calls = [first] ∧ x.answers = [] := by
  cases ask with
  | getProperties params =>
    unfold asked askProperties at h
    dsimp only at h
    split at h
    · cases h
    split at h
    · cases h
    split at h
    · cases h
    cases h
    refine ⟨_, waiting_start ?_ ?_ _, rfl, rfl⟩
    · exact (JValue.isObject_put ..).trans hfresh.1
    · rw [JValue.hasKey_put _ hfresh.1, hfresh.2]
      decide
  | eject params =>
    unfold asked askEject at h
    dsimp only at h
    split at h
    · cases h
    split at h
    · cases h
    cases h
    exact ⟨_, waiting_start hfresh.1 hfresh.2 _, rfl, rfl⟩
  | devices root | message r dom => cases h

/-- However the messages for any number of requests interleave, with refreshed lists of
devices and new requests in between: a request makes its next call when a reply to the
one before comes, and is answered once, with its own replies in their order, when it
has all of them. A payload that is no JSON, or none at all, leaves it unanswered. -/
theorem answered_by_own_replies (usbStorages : Registry) (before : List Label) (ask : Label) (hfresh : Fresh ask)
    (x : ReqContext) (hask : asked (run step ⟨usbStorages, []⟩ before) ask = some x) (after : List Label) :
    let s := run step ⟨usbStorages, []⟩ before
    let i := s.requests.length
    let msgs := heard i (s.step ask) after
    let pending := (x.params.get "nextReq").items
    ∃ first y, x.inFlight = [first] ∧ (run step s (ask :: after)).requests[i]? = some y ∧
      y.calls = first :: (pending.take (replies msgs).length).map nextCall ∧
      y.answers = answer pending.length
        (first.handler.before (x.params.get "driveId").asString (firstStorages msgs)) (replies msgs) := by
  intro s i msgs pending
  obtain ⟨first, hwaiting, hcalls, hnone⟩ := waiting_asked hfresh hask
  have hstart : (s.step ask).requests[i]? = some x := by
    rw [requests_asked hask]
    exact List.getElem?_concat_length
  obtain ⟨hanswers, hmade⟩ := run_messages hwaiting hnone msgs
  refine ⟨first, run deliver x msgs, hwaiting.flight, requests_run hstart after, ?_, hanswers⟩
  rw [hmade, hcalls]
  rfl

def oneStick : Registry := (∅ : Registry).insert "S1".toList ⟨"usb".toList, 1, [⟨"sda1".toList, "/media/sda1".toList, [], true⟩]⟩

theorem asked_oneStick : asked ⟨oneStick, []⟩ (.getProperties askDrive) = some (getPropertiesMethod askDrive "sda1".toList) := by
  have hid : (askDrive.get "driveId").asString = "S1".toList := rfl
  have hexists : isStorageIdExists oneStick "S1".toList = true := rfl
  have hmounted : isStorageDriveMounted oneStick "S1".toList = true := rfl
  have hname : getDriveName oneStick "S1".toList = "sda1".toList := rfl
  unfold asked askProperties
  dsimp only
  rw [hid, hexists, hmounted, hname]
  exact if_neg (by decide)

/-- Two requests for the same drive: the messages for the one are not taken for the other's. -/
theorem first_of_two_answered :
    ((run step ⟨oneStick, []⟩ [.getProperties askDrive, .getProperties askDrive, .message 1 (some spaceReply),
      .message 0 (some writableReply), .devices .null, .message 1 none, .message 0 (some spaceReply)]).requests[0]?.map
        ReqContext.answers) =
      some [.arr [JValue.object.put "storageType" (.text "usb"), writableReply, spaceReply]] := by
  obtain ⟨first, y, hflight, hy, -, hanswers⟩ :=
    answered_by_own_replies oneStick [] (.getProperties askDrive) ⟨rfl, rfl⟩ _ asked_oneStick
      [.getProperties askDrive, .message 1 (some spaceReply), .message 0 (some writableReply), .devices .null,
        .message 1 none, .message 0 (some spaceReply)]
  have htype : JValue.text "usb" = .str (getStorageType oneStick "S1".toList) := congrArg JValue.str rfl
  cases hflight
  change (run step ⟨oneStick, []⟩ _).requests[0]? = some y at hy
  rw [hy, Option.map_some, hanswers, htype]
  rfl

end Bus

end StorageAccess.USBStorageProvider.Chained
