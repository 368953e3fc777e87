import StorageAccess.Proofs.Handlers
import StorageAccess.Proofs.Transfers
/-!
# What a move that fails leaves of its source

`InternalMove` removes its source after the copy whatever the copy came to, and
ends with an error if either fails. `failed_move_intact_iff` is about every outcome
of `fs::copy`: it says when a move that ends with an error leaves the source as it
was all the same.
-/

open Posix Json

namespace StorageAccess

/-! ## Any outcome of the copy -/

/-- `InternalMove::init` where `fs::copy` leaves the tree `copied.1` and throws if `copied.2`. -/
def InternalMove.initWith (copied : FS × Bool) (os : Os) (fs : FS) (srcPath destPath : Str) (overwrite : Bool) :
    FS × Transfer :=
  match Transfer.prepare os fs srcPath destPath overwrite with
  | (fs, .error e) => (fs, Transfer.refused srcPath destPath e)
  | (fs, .ok dest) =>
    let removed := copied.1.removeAll os.stuck (components srcPath)
    (removed.1, Transfer.sized os fs srcPath dest (if removed.2 then .permissionDenied else Transfer.outcome copied.2))

/-- What `fs::copy` comes to in a move. -/
def InternalMove.copied (os : Os) (fs : FS) (srcPath destPath : Str) (overwrite : Bool) : FS × Bool :=
  match Transfer.prepare os fs srcPath destPath overwrite with
  | (fs, .error _) => (fs, false)
  | (fs, .ok dest) => fs.copy os.copyFault os.depth overwrite (components srcPath) (components dest)

theorem InternalMove.init_eq (os : Os) (fs : FS) (srcPath destPath : Str) (overwrite : Bool) :
    InternalMove.init os fs srcPath destPath overwrite =
      InternalMove.initWith (InternalMove.copied os fs srcPath destPath overwrite) os fs srcPath destPath overwrite := by
  unfold InternalMove.init InternalMove.initWith InternalMove.copied
  generalize Transfer.prepare os fs srcPath destPath overwrite = prepared
  obtain ⟨fs₁, r⟩ := prepared
  cases r <;> rfl

/-! ## What stays of the source -/

/-- The entries at and below the source path, also through a link at its end. -/
def UnderSource (fs : FS) (p : List Name) (m : Loc) : Prop :=
  ∃ l nd, (fs.symlinkStatus p = .found l nd ∨ fs.status p = .found l nd) ∧ l <+: m

/-- Every file and directory of the source is there with the content it had. -/
def SourceIntact (fs fs' : FS) (p : List Name) : Prop :=
  ∀ m nd, UnderSource fs p m → fs.get m = some nd → (∀ t, nd ≠ .link t) → fs'.get m = some nd

/-- The copy left every file and directory of the source as it was, and the removal takes none
of them: it comes to something stuck before. -/
def Survives (fs copied : FS) (stuck : Loc → Bool) (p : List Name) : Prop :=
  ∀ m nd, UnderSource fs p m → fs.get m = some nd → (∀ t, nd ≠ .link t) →
    copied.get m = some nd ∧ ¬ copied.Removable stuck p m

/-- The move is refused, or its target cannot be made, or neither the copy nor the removal fails, or the source
survives both. -/
def FailsSafely (copied : FS × Bool) (os : Os) (fs : FS) (srcPath destPath : Str) (overwrite : Bool) : Prop :=
  Transfer.begins fs srcPath destPath overwrite = true → Transfer.TargetCanBeMade os fs srcPath destPath →
    copied.2 = true ∨ copied.1.RemovalFails os.stuck (components srcPath) →
      Survives fs copied.1 os.stuck (components srcPath)

/-- A move that got past its checks ends with an error exactly if the copy or the removal fails. -/
theorem move_failed_iff {copied : FS × Bool} {os : Os} {fs fs₁ : FS} {srcPath destPath dest : Str} {overwrite : Bool}
    (h : Transfer.prepare os fs srcPath destPath overwrite = (fs₁, .ok dest)) :
    (InternalMove.initWith copied os fs srcPath destPath overwrite).2.status < 0 ↔
      copied.2 = true ∨ copied.1.RemovalFails os.stuck (components srcPath) := by
  have hstatus : (InternalMove.initWith copied os fs srcPath destPath overwrite).2.status =
      (if (copied.1.removeAll os.stuck (components srcPath)).2 then InternalOperErrors.permissionDenied
        else Transfer.outcome copied.2).code := by
    unfold InternalMove.initWith
    rw [h]
    rfl
  rw [hstatus, ← FS.removeAll_fails_iff]
  cases (copied.1.removeAll os.stuck (components srcPath)).2 <;> cases copied.2 <;> decide

/-- The source is intact after the removal exactly if it survived the copy and the removal. -/
theorem intact_removeAll_iff (fs copied : FS) (stuck : Loc → Bool) (p : List Name) :
    SourceIntact fs (copied.removeAll stuck p).1 p ↔ Survives fs copied stuck p := by
  refine forall_congr' fun m => forall_congr' fun nd => forall_congr' fun _ => forall_congr' fun _ =>
    forall_congr' fun _ => ⟨fun h => ?_, fun ⟨hm, hstays⟩ => ?_⟩
  · have hm := FS.get_of_removeAll h
    exact ⟨hm, (copied.removeAll_keeps_iff stuck p hm).1 h⟩
  · exact (copied.removeAll_keeps_iff stuck p hm).2 hstays

/-- Whatever `fs::copy` comes to, a move that ends with an error leaves its source intact exactly
if it fails safely; and the copy the code makes is one such outcome. -/
theorem failed_move_intact_iff (os : Os) (fs : FS) (srcPath destPath : Str) (overwrite : Bool) :
    (∀ copied : FS × Bool,
      ((InternalMove.initWith copied os fs srcPath destPath overwrite).2.status < 0 →
        SourceIntact fs (InternalMove.initWith copied os fs srcPath destPath overwrite).1 (components srcPath)) ↔
      FailsSafely copied os fs srcPath destPath overwrite) ∧
    InternalMove.init os fs srcPath destPath overwrite =
      InternalMove.initWith (InternalMove.copied os fs srcPath destPath overwrite) os fs srcPath destPath overwrite := by
  refine ⟨fun copied => ?_, InternalMove.init_eq os fs srcPath destPath overwrite⟩
  have hiff := Transfer.prepared_iff os fs srcPath destPath overwrite
  have hmade := Transfer.madeDirs_prepare os fs srcPath destPath overwrite
  obtain ⟨⟨fs₁, r⟩, hprep⟩ : ∃ r, Transfer.prepare os fs srcPath destPath overwrite = r := ⟨_, rfl⟩
  rw [hprep] at hmade
  cases r with
  | error e =>
    -- refused: at most directories were made
    refine iff_of_true (fun _ m nd _ hm _ => ?_) fun hb hm => ?_
    · have hfs : (InternalMove.initWith copied os fs srcPath destPath overwrite).1 = fs₁ := by
        simp [InternalMove.initWith, hprep]
      rw [hfs]
      exact hmade.get hm
    · obtain ⟨fs₂, dest, h⟩ := hiff.2 ⟨hb, hm⟩
      simp [hprep] at h
  | ok dest =>
    obtain ⟨hb, hm⟩ := hiff.1 ⟨fs₁, dest, hprep⟩
    have hfs : (InternalMove.initWith copied os fs srcPath destPath overwrite).1 =
        (copied.1.removeAll os.stuck (components srcPath)).1 := by simp [InternalMove.initWith, hprep]
    rw [move_failed_iff hprep, hfs, intact_removeAll_iff]
    exact ⟨fun h _ _ => h, fun h => h hb hm⟩

/-- A file and a directory to move it to. -/
def oneNote : FS :=
  FS.ofEntries [(["media".toList], .dir), (["tmp".toList], .dir), (["tmp".toList, "note".toList], .file [1, 2, 3])] (by decide)

/-- The device is full: the copy fails, the source is removed and the error is reported. -/
theorem move_to_full_device_loses :
    let moved := InternalMove.init { Os.quiet with copyFault := some ⟨0, none⟩ } oneNote "/tmp/note".toList "/media".toList false
    moved.2.status < 0 ∧ ¬ SourceIntact oneNote moved.1 (components "/tmp/note".toList) := by
  refine ⟨by decide, fun h => ?_⟩
  have hkept := h ["tmp".toList, "note".toList] (.file [1, 2, 3])
    ⟨["tmp".toList, "note".toList], .file [1, 2, 3], .inl rfl, List.prefix_refl _⟩ rfl nofun
  revert hkept
  decide +kernel

end StorageAccess
