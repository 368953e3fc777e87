import StorageAccess.Proofs.Handlers
/-!
# The validator of copies and moves

The check for a UPnP destination stands before the chain of path checks and does
not end it, so a request that fails both is refused twice.
-/

open Posix Json

namespace StorageAccess.SAFUtilityOperation

/-- What is wrong with an endpoint of a request. -/
def AtFault (w : World) (req : RequestData) : Endpoint → Prop
  | .destination =>
    isUpnpDestination req = true ∨
      (req.str "destStorageType" = "network".toList ∧
        validateSambaPath w.fs w.mSambaDrivePathMap (req.str "destPath") (req.str "destDriveId") = false) ∨
      (req.str "destStorageType" = "internal".toList ∧
        validateInternalPath w.fs (req.str "destPath") req.sessionId = false)
  | .source =>
    (req.str "srcStorageType" = "network".toList ∧
        validateSambaPath w.fs w.mSambaDrivePathMap (req.str "srcPath") (req.str "srcDriveId") = false) ∨
      (req.str "srcStorageType" = "internal".toList ∧
        validateInternalPath w.fs (req.str "srcPath") req.sessionId = false)

/-- The destination is looked at before the source. -/
structure FirstFault (w : World) (req : RequestData) (e : Endpoint) : Prop where
  fault : AtFault w req e
  first : e = .source → ¬ AtFault w req .destination

/-- The endpoint an error of the validator is about, by its code. -/
def named (reply : JValue) : Option Endpoint :=
  let code := (reply.get "errorCode").asInt
  if code = SAFErrors.storageTypeNotSupported.code ∨ code = SAFErrors.permissionDenied.code then some .destination
  else if code = SAFErrors.invalidSourcePath.code then some .source
  else none

/-- What is promised of the validator: it replies exactly when it refuses, once, and names the first endpoint at fault. -/
structure RefusesOnce (w : World) (req : RequestData) : Prop where
  accepts : (validateInterProviderOperation w req).2 = true ↔ Passes w req
  quiet : (validateInterProviderOperation w req).2 = true → newReplies w (validateInterProviderOperation w req).1 = []
  told : (validateInterProviderOperation w req).2 = false →
    ∃ reply e, newReplies w (validateInterProviderOperation w req).1 = [reply] ∧
      reply.get "returnValue" = .bool false ∧ named reply = some e ∧ FirstFault w req e

theorem named_reply (e : Endpoint) : named e.reply = some e := by
  cases e <;> rfl

/-- The chain of path checks finds the first fault, unless the destination is a UPnP drive. -/
theorem firstFault_of_faultyEndpoint {w : World} {req : RequestData} {e : Endpoint} (hu : isUpnpDestination req = false)
    (h : faultyEndpoint w req = some e) : FirstFault w req e := by
  unfold faultyEndpoint at h
  extract_lets srcPath destPath at h
  split at h
  case isTrue hd =>
    cases h
    exact ⟨.inr (.inl (by simpa using hd)), by simp⟩
  case isFalse hd₁ =>
  split at h
  case isTrue hd =>
    cases h
    exact ⟨.inr (.inr (by simpa using hd)), by simp⟩
  case isFalse hd₂ =>
  -- nothing is wrong with the destination
  have hdest : ¬ AtFault w req .destination := by
    rintro (hup | hnet | hint)
    · rw [hu] at hup
      cases hup
    · exact hd₁ (by simpa using hnet)
    · exact hd₂ (by simpa using hint)
  split at h
  case isTrue hs =>
    cases h
    exact ⟨.inl (by simpa using hs), fun _ => hdest⟩
  case isFalse =>
  split at h
  case isTrue hs =>
    cases h
    exact ⟨.inr (by simpa using hs), fun _ => hdest⟩
  · cases h

theorem refusesOnce_of_passes {w : World} {req : RequestData} (hp : Passes w req) : RefusesOnce w req := by
  have h : validateInterProviderOperation w req = (w, true) := by
    rcases validate_cases w req with ⟨hn, -⟩ | ⟨-, h⟩
    · exact absurd hp hn
    · exact h
  refine ⟨?_, ?_, ?_⟩
  · simp [h, hp]
  · intro _
    rw [h]
    exact newReplies_of_append (by simp)
  · simp [h]

/-- Of a request that does not pass, the promise is about the refusals. -/
theorem refusesOnce_iff_told {w : World} {req : RequestData} (hn : ¬ Passes w req) :
    RefusesOnce w req ↔ ∃ reply e, refusals w req = [reply] ∧ reply.get "returnValue" = .bool false ∧
      named reply = some e ∧ FirstFault w req e := by
  have h : validateInterProviderOperation w req = ({ w with replies := w.replies ++ refusals w req }, false) := by
    rcases validate_cases w req with ⟨-, h⟩ | ⟨hp, -⟩
    · exact h
    · exact absurd hp hn
  have hnew : newReplies w (validateInterProviderOperation w req).1 = refusals w req := by
    rw [h]
    exact newReplies_of_append rfl
  constructor
  · intro hone
    rw [← hnew]
    exact hone.told (by rw [h])
  · intro htold
    refine ⟨?_, ?_, fun _ => ?_⟩
    · simp [h, hn]
    · simp [h]
    · rwa [hnew]

/-- The validator keeps its promise unless the destination is a UPnP drive and a path check fails too. -/
theorem refuses_once_iff (w : World) (req : RequestData) :
    RefusesOnce w req ↔ ¬ (isUpnpDestination req = true ∧ ¬ PathsAccepted w req) := by
  by_cases hp : Passes w req
  · refine iff_of_true (refusesOnce_of_passes hp) ?_
    rintro ⟨-, hpaths⟩
    exact hpaths hp.2
  rw [refusesOnce_iff_told hp, ← faultyEndpoint_eq_none_iff]
  cases hu : isUpnpDestination req with
  | true =>
    cases hf : faultyEndpoint w req with
    | some e =>
      -- both checks refuse, and each of them replies
      refine iff_of_false ?_ (by simp)
      rintro ⟨reply, -, hreply, -⟩
      simp [refusals, hu, hf] at hreply
    | none =>
      refine iff_of_true ?_ (by simp)
      refine ⟨failReply SAFErrors.storageTypeNotSupported.code "Operation not Permitted", .destination, ?_, rfl, rfl,
        .inl hu, by simp⟩
      simp [refusals, hu, hf]
  | false =>
    refine iff_of_true ?_ (by simp)
    cases hf : faultyEndpoint w req with
    | some e =>
      refine ⟨e.reply, e, ?_, ?_, named_reply e, firstFault_of_faultyEndpoint hu hf⟩
      · simp [refusals, hu, hf]
      · cases e <;> rfl
    | none => exact absurd ⟨hu, (faultyEndpoint_eq_none_iff w req).1 hf⟩ hp

/-- A copy to a UPnP drive. -/
def copyToUpnp : RequestData where
  storageType := .internal
  methodType := .copyMethod
  params := .obj [("srcStorageType", .text "internal"), ("srcDriveId", .text "INTERNAL_STORAGE"), ("srcPath", .text "/tmp/a"),
    ("destStorageType", .text "network"), ("destDriveId", .text "UPNP_1"), ("destPath", .text "/tmp"),
    ("storageType", .text "internal")]
  sessionId := "guest".toList

/-- No share is mounted as that drive, so the copy is refused for its destination twice. -/
theorem upnp_refused_twice :
    let w := (Service.start (FS.ofEntries [] FS.isTree_nil) ∅).world
    newReplies w (validateInterProviderOperation w copyToUpnp).1 =
        [failReply SAFErrors.storageTypeNotSupported.code "Operation not Permitted", Endpoint.reply .destination] ∧
      ¬ RefusesOnce w copyToUpnp := by
  intro w
  have hu : isUpnpDestination copyToUpnp = true := by decide
  have hf : faultyEndpoint w copyToUpnp = some .destination := by decide
  have hnew : newReplies w (validateInterProviderOperation w copyToUpnp).1 =
      [failReply SAFErrors.storageTypeNotSupported.code "Operation not Permitted", Endpoint.reply .destination] := by
    refine newReplies_of_append ?_
    simp [validateInterProviderOperation, hu, hf, World.reply]
  refine ⟨hnew, fun hone => ?_⟩
  have hfalse : (validateInterProviderOperation w copyToUpnp).2 = false := by simp [validateInterProviderOperation, hf]
  obtain ⟨reply, e, hreply, -⟩ := hone.told hfalse
  rw [hnew] at hreply
  cases hreply

end StorageAccess.SAFUtilityOperation
