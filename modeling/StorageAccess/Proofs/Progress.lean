import StorageAccess.Proofs.Handlers
/-!
# The progress of a transfer

The progress is computed from 32-bit sizes that cancel out, so that the size of
the destination never shows: a call neither fails nor goes back, and the polling
loops end in their first round whatever the polls find.
-/

open Posix Json

namespace StorageAccess

/-! ## One call and a sequence of calls -/

/-- The change a call computes is the source size. -/
theorem change_eq {srcSize : Nat} (h : srcSize < 2 ^ 32) (size : Nat) :
    (srcSize + 2 ^ 32 - size % 2 ^ 32 + size % 2 ^ 32) % 2 ^ 32 = srcSize := by
  omega

/-- No call divides by zero. -/
theorem progress?_eq (t : Transfer) (ht : t.srcSize < 2 ^ 32) (size : Nat) : t.progress? size = some (t.progress size) := by
  unfold Transfer.progress?
  dsimp only
  rw [change_eq ht, if_neg]
  rintro ⟨-, hchange, hzero⟩
  omega

theorem eq_progress_of_progress? {t t' : Transfer} {size : Nat} (h : t.progress? size = some t') :
    t' = t.progress size := by
  unfold Transfer.progress? at h
  dsimp only at h
  split at h
  · cases h
  · exact (Option.some.inj h).symm

/-- The statuses that calls return one after another, the destination having the given size at each. -/
def Transfer.statuses? (t : Transfer) : List Nat → Option (List Int)
  | [] => some []
  | size :: sizes => (t.progress? size).bind fun t => (t.statuses? sizes).map (t.status :: ·)

/-- From the first call on every status is the same. -/
theorem statuses?_eq (t : Transfer) (ht : t.srcSize < 2 ^ 32) (sizes : List Nat) :
    t.statuses? sizes = some (List.replicate sizes.length (if 0 ≤ t.status then 100 else t.status)) := by
  induction sizes generalizing t with
  | nil => rfl
  | cons size sizes ih =>
    have hstatus := progress_status t ht size
    rw [Transfer.statuses?, progress?_eq t ht, Option.bind_some, ih (t.progress size) ht, Option.map_some, hstatus,
      List.length_cons, List.replicate_succ]
    split <;> simp_all

/-- What a client may rely on: no call fails, an error stays, and otherwise the status climbs from 0 to 100. -/
structure Transfer.Reports (t : Transfer) (sizes : List Nat) : Prop where
  returns : ∃ statuses, t.statuses? sizes = some statuses ∧ statuses.length = sizes.length
  error : ∀ statuses, t.statuses? sizes = some statuses → t.status < 0 → ∀ s ∈ statuses, s = t.status
  bounded : ∀ statuses, t.statuses? sizes = some statuses → 0 ≤ t.status → ∀ s ∈ statuses, 0 ≤ s ∧ s ≤ 100
  climbs : ∀ statuses, t.statuses? sizes = some statuses → 0 ≤ t.status → (t.status :: statuses).Pairwise (· ≤ ·)

theorem reports {t : Transfer} (ht : t.srcSize < 2 ^ 32) (hmax : t.status ≤ 100) (sizes : List Nat) :
    t.Reports sizes := by
  have heq := statuses?_eq t ht sizes
  have hall : ∀ {P : List Int → Prop}, P (List.replicate sizes.length (if 0 ≤ t.status then 100 else t.status)) →
      ∀ statuses, t.statuses? sizes = some statuses → P statuses := by
    intro P hp statuses h
    rwa [← Option.some.inj (heq.symm.trans h)]
  refine ⟨⟨_, heq, List.length_replicate⟩, hall fun hneg s hs => ?_, hall fun hpos s hs => ?_, hall fun hpos => ?_⟩
  · rw [List.eq_of_mem_replicate hs, if_neg (by omega)]
  · rw [List.eq_of_mem_replicate hs, if_pos hpos]
    omega
  · rw [if_pos hpos, List.pairwise_cons]
    refine ⟨fun s hs => ?_, List.pairwise_replicate.2 (.inr (Int.le_refl 100))⟩
    rw [List.eq_of_mem_replicate hs]
    exact hmax

/-! ## The loops -/

/-- Whatever the polls find, the loop ends in its first round with one reply. -/
theorem pollSizes_eq (errorText : Int → String) (shared : Bool) (rounds : Nat) (sizes : Nat → Nat) (t : Transfer)
    (ht : t.srcSize < 2 ^ 32) (hfresh : t.status ≠ -20) (w : World) :
    pollSizes errorText shared (rounds + 1) sizes (-20) .object t w = some (w.reply (transferReply errorText t.status)) := by
  have hfirst := progress?_eq t ht (sizes 0)
  have hsecond := progress?_eq (t.progress (sizes 0)) ht (sizes 1)
  have hstatus := progress_status t ht (sizes 0)
  have hstatus' := progress_status (t.progress (sizes 0)) ht (sizes 1)
  by_cases hneg : t.status < 0
  · have hfail : ¬ 0 ≤ t.status := by omega
    simp [pollSizes, transferReply, failReply, hfirst, hsecond, hstatus, hstatus', hneg, hfail, hfresh]
  · have hpos : 0 ≤ t.status := by omega
    simp [pollSizes, transferReply, hfirst, hstatus, hneg, hpos]

/-- While the files stay as they are, this is the loop of the handlers. -/
theorem pollStatus_of_pollSizes (errorText : Int → String) (shared : Bool) (os : Os) (rounds : Nat) (prevStatus : Int)
    (respObj : JValue) (t : Transfer) (w w' : World)
    (h : pollSizes errorText shared rounds (fun _ => FolderContent.getFileSize w.fs os.depth t.destPath) prevStatus respObj
      t w = some w') :
    pollStatus errorText shared os rounds prevStatus respObj t w = w' := by
  induction rounds generalizing prevStatus respObj t w with
  | zero => cases h
  | succ rounds ih =>
    rw [pollSizes] at h
    split at h
    · cases h
    case h_2 t₁ hfirst =>
    have ht₁ : t.getStatus os w.fs = t₁ := (eq_progress_of_progress? hfirst).symm
    have hdest : t₁.destPath = t.destPath := by
      rw [← ht₁]
      rfl
    dsimp only at h
    simp only [pollStatus, ht₁]
    split at h
    case isTrue hpos =>
      rw [if_pos hpos]
      split at h
      case isTrue hend =>
        rw [if_pos (.inl hend)]
        exact Option.some.inj h
      case isFalse hend =>
        rw [if_neg (by omega)]
        have hfs : (if t₁.status ≠ prevStatus then w.reply (((if shared then respObj else JValue.object).put "returnValue"
            (.bool (0 ≤ t₁.status))).put "progress" (.num t₁.status)) else w).fs = w.fs := by
          split <;> rfl
        apply ih
        rw [hfs, hdest]
        exact h
    case isFalse hneg =>
      rw [if_neg hneg, if_pos (.inr (by omega))]
      split at h
      · cases h
      case h_2 t₂ hsecond =>
      have ht₂ : t₁.getStatus os w.fs = t₂ := by
        rw [Transfer.getStatus, hdest]
        exact (eq_progress_of_progress? hsecond).symm
      rw [ht₂]
      exact Option.some.inj h

/-! ## The handlers -/

/-- The handler's loop for the operation of a request: whatever the polls find, it ends
with one reply, which says that the operation is done or names its error. -/
def LoopEnds (errorText : Int → String) (shared : Bool) (os : Os) (req : RequestData) (go : World → World) : Prop :=
  ∀ w rounds sizes,
    go w = (transferOp os req w).1.reply (transferReply errorText (transferOp os req w).2.status) ∧
      pollSizes errorText shared (rounds + 1) sizes (-20) .object (transferOp os req w).2 (transferOp os req w).1 =
        some (go w)

theorem loopEnds_polled (errorText : Int → String) (shared : Bool) (os : Os) (req : RequestData) :
    LoopEnds errorText shared os req (polled errorText os req) := by
  intro w rounds sizes
  have hdone := done_transferOp os req w
  rw [polled_eq]
  exact ⟨rfl, pollSizes_eq errorText shared rounds sizes _ hdone.size hdone.fresh _⟩

/-- The six handlers that copy or move files poll the operation to its end. -/
structure HandlersEnd (os : Os) (req : RequestData) : Prop where
  internal : ∃ go, LoopEnds getInternalErrorString true os req go ∧
    ∀ w, InternalStorageProvider.handleRequests os req w = InternalStorageProvider.transfer req w go
  -- the rounds of `moveMethod` do not share their reply
  usb : ∃ go, LoopEnds getUSBErrorString (req.methodType = .copyMethod) os req go ∧
    ∀ luna reg w, USBStorageProvider.handleRequests os luna reg req w = USBStorageProvider.transfer reg req w go
  network : ∃ go, LoopEnds getInternalErrorString true os req go ∧
    ∀ net s w, NetworkProvider.handleRequests os net req s w = (s, s.transfer req w go)

theorem handlersEnd (os : Os) {req : RequestData} (h : IsTransfer req) : HandlersEnd os req where
  internal := ⟨_, loopEnds_polled _ _ os req, fun w => InternalStorageProvider.handleRequests_transfer os h w⟩
  usb := ⟨_, loopEnds_polled _ _ os req, fun luna reg w => USBStorageProvider.handleRequests_transfer os luna reg h w⟩
  network := by
    refine ⟨_, loopEnds_polled _ _ os req, fun net s w => ?_⟩
    rw [NetworkProvider.handleRequests_transfer os net h s w, NetworkProvider.transfer_eq]

/-- Every transfer with a status that `init` leaves reports safely, and the loops that poll it end. -/
theorem progress_ends (t : Transfer) (ht : t.srcSize < 2 ^ 32) (e : InternalOperErrors) (he : t.status = e.code) :
    (∀ sizes, t.Reports sizes) ∧
      (∀ errorText shared rounds sizes w, pollSizes errorText shared (rounds + 1) sizes (-20) .object t w =
        some (w.reply (transferReply errorText t.status))) ∧
      ∀ os req, IsTransfer req → HandlersEnd os req := by
  have hmax : t.status ≤ 100 := by
    rw [he]
    cases e <;> simp [InternalOperErrors.code]
  have hfresh : t.status ≠ -20 := by
    rw [he]
    cases e <;> simp [InternalOperErrors.code]
  refine ⟨reports ht hmax, fun errorText shared rounds sizes w => ?_, fun os req h => handlersEnd os h⟩
  exact pollSizes_eq errorText shared rounds sizes t ht hfresh w

/-- An empty file that was copied, polled three times. -/
theorem progress_ends_empty :
    (Transfer.mk "/tmp/a".toList "/media".toList 0 0 InternalOperErrors.success.code).Reports [0, 2 ^ 32, 7] :=
  (progress_ends _ (by simp) .success rfl).1 _

end StorageAccess
