import StorageAccess.Model.Service
/-!
# What the utility operations do

One lemma per operation, for the providers' proofs: the status a transfer ends
with, the one reply of the polling loop, and the outcome of the shared validator.
-/

open Posix Json

namespace StorageAccess

/-! ## Numbers in ids -/

theorem toDigits_injective : Function.Injective (Nat.toDigits 10) :=
  Function.LeftInverse.injective fun _ => Nat.ofDigitChars_toDigits (by decide) (by decide)

theorem isDigit_of_mem_toDigits {n : Nat} {ch : Char} (h : ch ∈ Nat.toDigits 10 n) : ch.isDigit = true :=
  Nat.isDigit_of_mem_toDigits (by decide) (by decide) h

theorem not_mem_toDigits {n : Nat} {ch : Char} (h : ch.isDigit = false) : ch ∉ Nat.toDigits 10 n := by
  intro hm
  rw [isDigit_of_mem_toDigits hm] at h
  cases h

/-! ## Status and polling -/

/-- The progress computed for a transfer that did not fail is always 100. -/
theorem progress_status (t : Transfer) (ht : t.srcSize < 2 ^ 32) (size : Nat) :
    (t.progress size).status = if t.status ≥ 0 then 100 else t.status := by
  have hsize : size % 2 ^ 32 < 2 ^ 32 := Nat.mod_lt _ (by decide)
  have hchange : (t.srcSize + 2 ^ 32 - size % 2 ^ 32 + size % 2 ^ 32) % 2 ^ 32 = t.srcSize := by omega
  simp only [Transfer.progress, hchange]
  split
  · split
    case isTrue h0 => simp [Nat.div_self h0, FolderContents.wrap32]
    case isFalse => rfl
  · rfl

/-- What the polling loop replies. -/
def transferReply (errorText : Int → String) (status : Int) : JValue :=
  if status < 0 then failReply (getInternalErrorCode status) (errorText (getInternalErrorCode status))
  else (JValue.object.put "returnValue" (.bool true)).put "progress" (.num 100)

/-- A transfer that is done: the size is held in 32 bits and the status is no
value the loop starts from. -/
structure Transfer.Done (t : Transfer) : Prop where
  size : t.srcSize < 2 ^ 32
  fresh : t.status ≠ -20
  ends : t.status ≥ 0 → t.status = 100

/-- The loop ends in its first round, with one reply, so that no member of an earlier round is left in it. -/
theorem pollStatus_eq (errorText : Int → String) (shared : Bool) (os : Os) (rounds : Nat) (t : Transfer) (ht : t.Done)
    (w : World) :
    pollStatus errorText shared os (rounds + 1) (-20) .object t w = w.reply (transferReply errorText t.status) := by
  have hs : ∀ fs, (t.getStatus os fs).status = t.status := by
    intro fs
    rw [Transfer.getStatus, progress_status t ht.size]
    split
    case isTrue h => exact (ht.ends h).symm
    case isFalse => rfl
  have hd : (t.getStatus os w.fs).srcSize < 2 ^ 32 := ht.size
  have hs' : ((t.getStatus os w.fs).getStatus os w.fs).status = t.status := by
    rw [Transfer.getStatus, progress_status _ hd, hs]
    split
    case isTrue h => exact (ht.ends h).symm
    case isFalse => rfl
  have hne := ht.fresh
  by_cases hneg : t.status < 0
  · have hfail : ¬ 0 ≤ t.status := by omega
    simp [pollStatus, transferReply, failReply, hs, hs', hne, hneg, hfail]
  · have h100 : t.status = 100 := ht.ends (by omega)
    simp [pollStatus, transferReply, hs, h100]

theorem done_refused (src dest : Str) (e : InternalOperErrors) (he : e ≠ .success) (hn : e ≠ .noError) :
    (Transfer.refused src dest e).Done where
  size := by simp [Transfer.refused]
  fresh := by cases e <;> simp [Transfer.refused, InternalOperErrors.code]
  ends := by cases e <;> simp_all [Transfer.refused, InternalOperErrors.code]

theorem done_sized (os : Os) (fs : FS) (src dest : Str) (e : InternalOperErrors) (hn : e ≠ .noError) :
    (Transfer.sized os fs src dest e).Done where
  size := Nat.mod_lt _ (by decide)
  fresh := by cases e <;> simp [Transfer.sized, InternalOperErrors.code]
  ends := by cases e <;> simp_all [Transfer.sized, InternalOperErrors.code]

/-- The errors `prepare` ends with. -/
theorem prepare_error {os : Os} {fs fs' : FS} {src dest : Str} {overwrite : Bool} {e : InternalOperErrors}
    (h : Transfer.prepare os fs src dest overwrite = (fs', .error e)) :
    e = .invalidSourcePath ∨ e = .invalidDestPath ∨ e = .permissionDenied ∨ e = .fileAlreadyExists := by
  simp only [Transfer.prepare] at h
  repeat' split at h
  all_goals simp_all

theorem prepare_error_code {os : Os} {fs fs' : FS} {srcPath destPath : Str} {overwrite : Bool}
    {e : InternalOperErrors} (h : Transfer.prepare os fs srcPath destPath overwrite = (fs', .error e)) : e.code < 0 := by
  rcases prepare_error h with rfl | rfl | rfl | rfl <;> decide

theorem done_copy (os : Os) (fs : FS) (src dest : Str) (overwrite : Bool) :
    (InternalCopy.init os fs src dest overwrite).2.Done := by
  unfold InternalCopy.init
  split
  case h_1 hp =>
    rcases prepare_error hp with rfl | rfl | rfl | rfl <;> exact done_refused _ _ _ (by decide) (by decide)
  case h_2 => exact done_sized _ _ _ _ _ (by unfold Transfer.outcome; split <;> decide)

theorem done_move (os : Os) (fs : FS) (src dest : Str) (overwrite : Bool) :
    (InternalMove.init os fs src dest overwrite).2.Done := by
  unfold InternalMove.init
  split
  case h_1 hp =>
    rcases prepare_error hp with rfl | rfl | rfl | rfl <;> exact done_refused _ _ _ (by decide) (by decide)
  case h_2 =>
    refine done_sized _ _ _ _ _ ?_
    unfold Transfer.outcome
    split
    · decide
    · split <;> decide

/-! ## The validator -/

namespace SAFUtilityOperation

/-- The validator passes a request only when both checks do, and says nothing then. -/
theorem validate_true {w w' : World} {req : RequestData} (h : validateInterProviderOperation w req = (w', true)) :
    w' = w ∧ isUpnpDestination req = false ∧ faultyEndpoint w req = none := by
  simp only [validateInterProviderOperation] at h
  split at h
  · simp at h
  case h_2 hf =>
    simp only [Prod.mk.injEq, Bool.not_eq_true'] at h
    obtain ⟨rfl, hu⟩ := h
    exact ⟨by simp [hu], hu, hf⟩

/-- What the validator replies when it refuses. -/
def refusals (w : World) (req : RequestData) : List JValue :=
  (if isUpnpDestination req then [failReply SAFErrors.storageTypeNotSupported.code "Operation not Permitted"] else []) ++
    ((faultyEndpoint w req).map Endpoint.reply).toList

/-- A request the validator refuses leaves everything but the replies as it is. -/
theorem validate_false {w w' : World} {req : RequestData} (h : validateInterProviderOperation w req = (w', false)) :
    w' = { w with replies := w.replies ++ refusals w req } ∧ refusals w req ≠ [] := by
  simp only [validateInterProviderOperation] at h
  split at h
  case h_1 e he =>
    obtain ⟨rfl, -⟩ := Prod.mk.inj h
    refine ⟨?_, by simp [refusals, he]⟩
    by_cases hu : isUpnpDestination req <;> simp [refusals, hu, he, World.reply]
  case h_2 he =>
    obtain ⟨rfl, hu⟩ := Prod.mk.inj h
    replace hu : isUpnpDestination req = true := by simpa using hu
    exact ⟨by simp [refusals, hu, he, World.reply], by simp [refusals, hu]⟩

/-- Both endpoints' paths pass the check of their storage, where it has one. -/
structure PathsAccepted (w : World) (req : RequestData) : Prop where
  destNetwork : req.str "destStorageType" = "network".toList →
    validateSambaPath w.fs w.mSambaDrivePathMap (req.str "destPath") (req.str "destDriveId") = true
  destInternal : req.str "destStorageType" = "internal".toList →
    validateInternalPath w.fs (req.str "destPath") req.sessionId = true
  srcNetwork : req.str "srcStorageType" = "network".toList →
    validateSambaPath w.fs w.mSambaDrivePathMap (req.str "srcPath") (req.str "srcDriveId") = true
  srcInternal : req.str "srcStorageType" = "internal".toList →
    validateInternalPath w.fs (req.str "srcPath") req.sessionId = true

theorem faultyEndpoint_eq_none_iff (w : World) (req : RequestData) :
    faultyEndpoint w req = none ↔ PathsAccepted w req := by
  have pass (P : Prop) (b : Bool) : ¬ (P ∧ !b) ↔ (P → b = true) := by simp
  unfold faultyEndpoint
  extract_lets srcPath destPath
  constructor
  · intro h
    split at h
    · cases h
    case isFalse h₁ =>
    split at h
    · cases h
    case isFalse h₂ =>
    split at h
    · cases h
    case isFalse h₃ =>
    split at h
    · cases h
    case isFalse h₄ => exact ⟨(pass _ _).1 h₁, (pass _ _).1 h₂, (pass _ _).1 h₃, (pass _ _).1 h₄⟩
  · rintro ⟨h₁, h₂, h₃, h₄⟩
    rw [if_neg ((pass _ _).2 h₁), if_neg ((pass _ _).2 h₂), if_neg ((pass _ _).2 h₃), if_neg ((pass _ _).2 h₄)]

/-- The request passes both checks of the validator. -/
def Passes (w : World) (req : RequestData) : Prop := isUpnpDestination req = false ∧ PathsAccepted w req

theorem validate_cases (w : World) (req : RequestData) :
    (¬ Passes w req ∧
        validateInterProviderOperation w req = ({ w with replies := w.replies ++ refusals w req }, false)) ∨
      (Passes w req ∧ validateInterProviderOperation w req = (w, true)) := by
  obtain ⟨⟨w', b⟩, hr⟩ : ∃ r, validateInterProviderOperation w req = r := ⟨_, rfl⟩
  cases b with
  | true =>
    obtain ⟨rfl, hu, hf⟩ := validate_true hr
    exact .inr ⟨⟨hu, (faultyEndpoint_eq_none_iff w' req).1 hf⟩, hr⟩
  | false =>
    obtain ⟨rfl, hne⟩ := validate_false hr
    refine .inl ⟨fun hp => hne ?_, hr⟩
    simp [refusals, hp.1, (faultyEndpoint_eq_none_iff w req).2 hp.2]

end SAFUtilityOperation

/-- A rename that its checks refuse changes nothing. -/
theorem rename_refused {fs : FS} {oldAbsPath newName : Str} (h : InternalRename.begins fs oldAbsPath newName = false)
    (os : Os) : (InternalRename.init os fs oldAbsPath newName).1 = fs := by
  unfold InternalRename.init
  split
  · rfl
  case isFalse hv =>
  split
  · rfl
  case isFalse hn =>
  have hvalid : validateInternalPath fs oldAbsPath = true := by simpa using hv
  rw [not_or] at hn
  simp [InternalRename.begins, hn, hvalid] at h

end StorageAccess
