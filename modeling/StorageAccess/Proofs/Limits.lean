import StorageAccess.Proofs.Paging
/-!
# Pages for two limits

The front end refuses a limit of -1 and no other negative one. The list code
compares the sum of limit and offset as an unsigned number, so that a negative sum
stands for the whole rest of the folder, and a small one for nothing. A larger limit
therefore returns at least as much exactly when it does not step from the one to the
other.
-/

open Posix Json

namespace StorageAccess

open SAFLunaService FolderContents

/-- The larger limit shows at least what the smaller one does: nothing is left of the
folder, the smaller sum is not negative, or the larger limit shows the rest too. -/
def LimitGrows (count : Nat) (offset smaller larger : Int) : Prop :=
  count < offset ∨ 0 ≤ smaller + offset - 1 ∨ larger + offset - 1 < 0 ∨ count ≤ larger + offset - 1

theorem window_prefix_iff {α : Type} (l : List α) (hn : l.length < 2 ^ 31) {offset smaller larger : Int} (ho : 1 ≤ offset)
    (ho' : offset ≤ 100) (hle : smaller ≤ larger) (hs : -2 ^ 31 ≤ smaller) (hl : larger < 2 ^ 31) :
    window l offset smaller <+: window l offset larger ↔ LimitGrows l.length offset smaller larger := by
  unfold window LimitGrows
  rw [List.take_isPrefix_take, List.length_drop, start_eq hn ho ho', stop_eq hn ho ho' hs (by omega),
    stop_eq hn ho ho' (by omega) hl]
  by_cases hbeyond : offset > l.length
  · rw [if_pos hbeyond]
    exact iff_of_true (.inr (by omega)) (.inl hbeyond)
  rw [if_neg hbeyond]
  -- a page ends at its sum or with the folder
  by_cases hfirst : 0 ≤ smaller + offset - 1 ∧ smaller + offset - 1 ≤ l.length
  · rw [if_pos hfirst]
    by_cases hsecond : 0 ≤ larger + offset - 1 ∧ larger + offset - 1 ≤ l.length
    · rw [if_pos hsecond]
      exact iff_of_true (.inl (by omega)) (.inr (.inl hfirst.1))
    · rw [if_neg hsecond]
      exact iff_of_true (.inl (by omega)) (.inr (.inl hfirst.1))
  · rw [if_neg hfirst]
    by_cases hsecond : 0 ≤ larger + offset - 1 ∧ larger + offset - 1 ≤ l.length
    · rw [if_pos hsecond]
      omega
    · rw [if_neg hsecond]
      exact iff_of_true (.inl le_rfl) (by omega)

/-- The numbers of a list request the front end accepts. -/
theorem bounds_of_accept {payload : JValue} {sessionId : Str} {req : RequestData}
    (h : accept .listMethod payload sessionId = some req) :
    1 ≤ req.int "offset" ∧ req.int "offset" ≤ 100 ∧ req.int "limit" ≠ -1 := by
  simp only [accept] at h
  split at h
  · cases h
  split at h
  · cases h
  split at h
  · cases h
  case isFalse hbounds =>
    obtain ⟨type, -, rfl⟩ := Option.map_eq_some_iff.1 h
    simp only [RequestData.int]
    omega

/-- Of two requests for one folder from one offset, the larger limit returns at least
what the smaller one does, exactly when the limits grow. -/
theorem larger_limit_iff {payload payload' : JValue} {sessionId : Str} {req req' : RequestData}
    (h : accept .listMethod payload sessionId = some req) (h' : accept .listMethod payload' sessionId = some req')
    (hoffset : req'.int "offset" = req.int "offset") (hlimit : req.int "limit" ≤ req'.int "limit") {env env' : Env}
    {s s' : Service} {entries : List JValue} (hlists : Lists env s req entries) (hlists' : Lists env' s' req' entries)
    (hn : entries.length < 2 ^ 31) :
    ∃ r r', (s.handle env req).world.replies = s.world.replies ++ [r] ∧
      (s'.handle env' req').world.replies = s'.world.replies ++ [r'] ∧
      ((r.get "files").items <+: (r'.get "files").items ↔
        LimitGrows entries.length (req.int "offset") (req.int "limit") (req'.int "limit")) := by
  obtain ⟨ho, ho', -⟩ := bounds_of_accept h
  obtain ⟨r, hr, ⟨-, hfiles⟩, -⟩ := hlists.reply (methodType_of_accept h) hn ho ho'
  obtain ⟨r', hr', ⟨-, hfiles'⟩, -⟩ := hlists'.reply (methodType_of_accept h') hn (by omega) (by omega)
  refine ⟨r, r', hr, hr', ?_⟩
  rw [hfiles, hfiles', hoffset]
  have hlow : -2 ^ 31 ≤ req.int "limit" := by
    unfold RequestData.int JValue.asInt
    split <;> omega
  have hhigh : req'.int "limit" < 2 ^ 31 := by
    unfold RequestData.int JValue.asInt
    split <;> omega
  exact window_prefix_iff entries hn ho ho' hlimit hlow hhigh

def threeNotes : FS :=
  FS.ofEntries [(["tmp".toList], .dir), (["tmp".toList, "a".toList], .file []), (["tmp".toList, "b".toList], .file []),
    (["tmp".toList, "c".toList], .file [])] (by decide)

/-- A list call for the folder from its second entry on. -/
def fromSecond (limit : Int) : JValue := (folderCall.put "limit" (.num limit)).put "offset" (.num 2)

def fromSecondRequest (limit : Int) : RequestData := ⟨.internal, .listMethod, fromSecond limit, "guest".toList⟩

/-- The files in the replies. -/
def listed (limit : Int) : List JValue :=
  ((Service.start threeNotes ∅).handle Env.quiet (fromSecondRequest limit)).world.replies.flatMap fun r => (r.get "files").items

theorem lists_threeNotes (limit : Int) :
    Lists Env.quiet (Service.start threeNotes ∅) (fromSecondRequest limit)
      (entryObjects sizeText Env.quiet (Service.start threeNotes ∅) (fromSecondRequest limit)) := by
  have hpath : (fromSecondRequest limit).str "path" = "/tmp".toList := rfl
  have hvalid : SAFUtilityOperation.validateInternalPath threeNotes "/tmp".toList "guest".toList = true := rfl
  refine .internal rfl ?_ rfl ?_
  · rwa [hpath]
  · rw [IsFolder, hpath]
    decide +kernel

theorem two_instead_of_one :
    ∃ r r',
      ((Service.start threeNotes ∅).handle Env.quiet (fromSecondRequest 1)).world.replies = [r] ∧
      ((Service.start threeNotes ∅).handle Env.quiet (fromSecondRequest 2)).world.replies = [r'] ∧
      ((r.get "files").items <+: (r'.get "files").items ↔ LimitGrows 3 2 1 2) := by
  have hfirst : accept .listMethod (fromSecond 1) "guest".toList = some (fromSecondRequest 1) := rfl
  have hsecond : accept .listMethod (fromSecond 2) "guest".toList = some (fromSecondRequest 2) := rfl
  exact larger_limit_iff hfirst hsecond rfl (by decide) (lists_threeNotes 1) (lists_threeNotes 2) (by decide)

/-- A limit of -5 is accepted and shows the rest of the folder, a limit of 0 shows nothing of it. -/
theorem larger_limit_shows_less :
    accept .listMethod (fromSecond (-5)) "guest".toList = some (fromSecondRequest (-5)) ∧
      accept .listMethod (fromSecond 0) "guest".toList = some (fromSecondRequest 0) ∧
      (listed (-5)).length = 2 ∧ listed 0 = [] ∧ ¬ listed (-5) <+: listed 0 := by
  have hlength : (listed (-5)).length = 2 := rfl
  have hnone : listed 0 = [] := rfl
  refine ⟨rfl, rfl, hlength, hnone, fun hp => ?_⟩
  rw [hnone, List.prefix_nil] at hp
  rw [hp] at hlength
  cases hlength

end StorageAccess
