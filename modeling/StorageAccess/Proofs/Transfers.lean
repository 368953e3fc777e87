import StorageAccess.Lib.Places
import StorageAccess.Lib.Removal
import StorageAccess.Proofs.Utility
/-!
# What a copy or a move does to the files

`InternalCopy` and `InternalMove` make the same checks and the same copy. The
copy of a directory goes to its place in the destination, which is made first;
that of anything else goes to the destination itself.
-/

open Posix Json

namespace StorageAccess

namespace Transfer

/-- The place of the source in the destination directory. -/
def desPath (srcPath destPath : Str) : Str := destPath ++ '/' :: baseName srcPath

/-- What holds once the checks are passed: the tree and the path the copy starts from. -/
structure Prepared (os : Os) (fs : FS) (srcPath destPath : Str) (overwrite : Bool) (fs₁ : FS) (dest : Str) : Prop where
  source : validateInternalPath fs srcPath = true
  destination : validateInternalPath fs destPath = true
  replaces : ∀ l nd, fs.status (components (desPath srcPath destPath)) = .found l nd → overwrite = true
  resolves : fs.status (components (desPath srcPath destPath)) ≠ .failed
  target : dest = if fs.isDir (components srcPath) then desPath srcPath destPath else destPath
  made : fs.isDir (components srcPath) = true → fs.status (components (desPath srcPath destPath)) = .absent →
    fs.createDirectories os.mkdirFault (components (desPath srcPath destPath)) = (fs₁, false)
  same : fs.isDir (components srcPath) = false ∨ fs.status (components (desPath srcPath destPath)) ≠ .absent → fs₁ = fs

theorem prepared {os : Os} {fs fs₁ : FS} {srcPath destPath dest : Str} {overwrite : Bool}
    (h : prepare os fs srcPath destPath overwrite = (fs₁, .ok dest)) :
    Prepared os fs srcPath destPath overwrite fs₁ dest := by
  unfold prepare at h
  split at h
  · simp at h
  case isFalse hs =>
  split at h
  · simp at h
  case isFalse hd =>
  have hs' : validateInternalPath fs srcPath = true := by simpa using hs
  have hd' : validateInternalPath fs destPath = true := by simpa using hd
  have hdes : destPath ++ '/' :: baseName srcPath = desPath srcPath destPath := rfl
  simp only [hdes] at h
  cases hst : fs.status (components (desPath srcPath destPath)) with
  | failed => simp [hst] at h
  | found l nd =>
    simp only [hst] at h
    split at h
    · simp at h
    case isFalse ho =>
      obtain ⟨rfl, ht⟩ := Prod.mk.inj h
      exact ⟨hs', hd', fun _ _ _ => by simpa using ho, by simp [hst], (Except.ok.inj ht).symm, by simp [hst],
        fun _ => rfl⟩
  | absent =>
    -- the target is made before the copy for a directory only
    simp only [hst] at h
    split at h
    case isTrue hdir =>
      split at h
      case h_1 => simp at h
      case h_2 fs' hmk =>
        obtain ⟨rfl, ht⟩ := Prod.mk.inj h
        exact ⟨hs', hd', by simp [hst], by simp [hst], by rw [if_pos hdir, ← Except.ok.inj ht],
          fun _ _ => hmk, fun hn => by simp [hdir, hst] at hn⟩
    case isFalse hdir =>
      obtain ⟨rfl, ht⟩ := Prod.mk.inj h
      exact ⟨hs', hd', by simp [hst], by simp [hst], by rw [if_neg hdir]; exact (Except.ok.inj ht).symm,
        fun hn => absurd hn hdir, fun _ => rfl⟩

/-- The tree after the checks: as it was, or with what became of the missing target directory. -/
theorem prepare_cases (os : Os) (fs : FS) (srcPath destPath : Str) (overwrite : Bool) :
    (prepare os fs srcPath destPath overwrite).1 = fs ∨
      validateInternalPath fs srcPath = true ∧ validateInternalPath fs destPath = true ∧
        fs.status (components (desPath srcPath destPath)) = .absent ∧
        (prepare os fs srcPath destPath overwrite).1 =
          (fs.createDirectories os.mkdirFault (components (desPath srcPath destPath))).1 := by
  unfold prepare
  split
  · exact .inl rfl
  case isFalse hs =>
  split
  · exact .inl rfl
  case isFalse hd =>
  dsimp only
  split
  · exact .inl rfl
  · split <;> exact .inl rfl
  case h_3 habs =>
    split
    case isFalse => exact .inl rfl
    case isTrue =>
      refine .inr ⟨by simpa using hs, by simpa using hd, habs, ?_⟩
      split
      all_goals
        next e => exact (congrArg Prod.fst e).symm

/-- The checks make directories at most. -/
theorem madeDirs_prepare (os : Os) (fs : FS) (srcPath destPath : Str) (overwrite : Bool) :
    fs.MadeDirs (prepare os fs srcPath destPath overwrite).1 := by
  rcases prepare_cases os fs srcPath destPath overwrite with e | ⟨-, -, -, e⟩
  · rw [e]
    exact FS.MadeDirs.refl fs
  · rw [e]
    exact FS.madeDirs_mkdirs [] _ (Job.start fs os.mkdirFault)

/-- A copy keeps every entry and makes no link. -/
theorem grew_copy (os : Os) (fs : FS) (srcPath destPath : Str) (overwrite : Bool) :
    FS.Grew [] fs (InternalCopy.init os fs srcPath destPath overwrite).1 := by
  have hmade := madeDirs_prepare os fs srcPath destPath overwrite
  unfold InternalCopy.init
  split
  case h_1 hp =>
    rw [hp] at hmade
    exact hmade.grew
  case h_2 fs₁ dest hp =>
    rw [hp] at hmade
    exact hmade.grew.trans (FS.grew_copyTree (.inl rfl) (.inl rfl))

/-- A move is a copy, after which the source is removed unless the checks refused it. -/
theorem move_cases (os : Os) (fs : FS) (srcPath destPath : Str) (overwrite : Bool) :
    (InternalMove.init os fs srcPath destPath overwrite).1 = (InternalCopy.init os fs srcPath destPath overwrite).1 ∨
      (validateInternalPath fs srcPath = true ∧ (InternalMove.init os fs srcPath destPath overwrite).1 =
        ((InternalCopy.init os fs srcPath destPath overwrite).1.removeAll os.stuck (components srcPath)).1) := by
  unfold InternalMove.init InternalCopy.init
  split
  case h_1 => exact .inl rfl
  case h_2 fs₁ dest hp => exact .inr ⟨(prepared hp).source, rfl⟩

/-- A transfer that does not get past its checks leaves the files as they are. -/
theorem refused_of_not_begins {fs : FS} {srcPath destPath : Str} {overwrite : Bool}
    (h : begins fs srcPath destPath overwrite = false) (os : Os) :
    (InternalCopy.init os fs srcPath destPath overwrite).1 = fs ∧
      (InternalMove.init os fs srcPath destPath overwrite).1 = fs := by
  suffices he : ∃ e, prepare os fs srcPath destPath overwrite = (fs, .error e) by
    obtain ⟨e, he⟩ := he
    simp [InternalCopy.init, InternalMove.init, he]
  unfold begins at h
  unfold prepare
  split
  · exact ⟨_, rfl⟩
  case isFalse hs =>
  split
  · exact ⟨_, rfl⟩
  case isFalse hd =>
  rw [Bool.not_eq_true', Bool.not_eq_false] at hs hd
  rw [hs, hd, Bool.true_and, Bool.true_and] at h
  dsimp only
  split at h
  case h_1 => exact ⟨_, rfl⟩
  case h_2 => rw [h]; exact ⟨_, rfl⟩
  case h_3 => cases h

/-- Past its checks a transfer fails only where the directory of the source cannot be made. -/
theorem denied_of_begins {os : Os} {fs fs₁ : FS} {srcPath destPath : Str} {overwrite : Bool} {e : InternalOperErrors}
    (hb : begins fs srcPath destPath overwrite = true) (h : prepare os fs srcPath destPath overwrite = (fs₁, .error e)) :
    e = .permissionDenied := by
  simp only [begins, Bool.and_eq_true] at hb
  obtain ⟨⟨hs, hd⟩, hplace⟩ := hb
  unfold prepare at h
  rw [hs, hd, Bool.not_true, if_neg Bool.false_ne_true, if_neg Bool.false_ne_true] at h
  dsimp only at h
  split at h
  case h_1 hst =>
    rw [hst] at hplace
    cases hplace
  case h_2 hst =>
    rw [hst] at hplace
    change overwrite = true at hplace
    rw [hplace, Bool.not_true, if_neg Bool.false_ne_true] at h
    cases h
  case h_3 =>
    split at h
    case isTrue =>
      split at h
      case h_1 =>
        cases h
        rfl
      case h_2 => cases h
    case isFalse => cases h

/-! ## Where a transfer writes -/

/-- The path of the one place a transfer writes at or below. -/
def place (fs : FS) (srcPath destPath : Str) : Str :=
  if fs.isDir (components destPath) then desPath srcPath destPath else destPath

theorem components_desPath {srcPath destPath : Str} (hs : baseName srcPath ≠ []) (hd : destPath.getLast? ≠ some '/') :
    components (desPath srcPath destPath) = components destPath ++ [baseName srcPath] :=
  components_below hd hs (slash_not_mem_baseName srcPath)

theorem validated {fs : FS} {path : Str} (h : validateInternalPath fs path = true) :
    baseName path ≠ [] ∧ path.getLast? ≠ some '/' ∧ ∃ l nd, fs.status (components path) = .found l nd := by
  simp only [validateInternalPath, Bool.and_eq_true, decide_eq_true_eq] at h
  obtain ⟨⟨⟨hne, -⟩, hlast⟩, he⟩ := h
  refine ⟨baseName_ne_nil hne hlast, hlast, ?_⟩
  unfold FS.exists? at he
  split at he
  case h_1 l nd hs => exact ⟨l, nd, hs⟩
  case h_2 => cases he

/-- The last component of a valid path can stand in another path. -/
theorem plain_baseName {fs : FS} {path : Str} (h : validateInternalPath fs path = true) :
    baseName path ≠ [] ∧ '/' ∉ baseName path ∧ Char.ofNat 0 ∉ baseName path := by
  obtain ⟨hbase, -, l, nd, hs⟩ := validated h
  have hslash := slash_not_mem_baseName path
  obtain ⟨front, hfront⟩ := components_sibling path
  have hc := hfront _ hbase hslash
  rw [dirPart_append_baseName] at hc
  rw [hc] at hs
  refine ⟨hbase, hslash, ?_⟩
  rcases FS.isName_of_locate (FS.look_found.1 hs).1 with e | e | hname
  · rw [e]; decide
  · rw [e]; decide
  · exact hname.2.2.2.2

theorem isDir_iff {fs : FS} {p : List Name} : fs.isDir p = true ↔ ∃ l, fs.status p = .found l .dir := by
  unfold FS.isDir
  split
  case h_1 l h => exact iff_of_true rfl ⟨l, h⟩
  case h_2 h => exact iff_of_false (by simp) fun ⟨l, e⟩ => h l e

/-! ## Whether the copy starts -/

/-- The target directory, where it is missing, can be made: the destination is a directory in
which no link has its name, and the device allows it. -/
def TargetCanBeMade (os : Os) (fs : FS) (srcPath destPath : Str) : Prop :=
  let desPath := components (desPath srcPath destPath)
  fs.isDir (components srcPath) = true → fs.status desPath = .absent →
    fs.isDir (components destPath) = true ∧ fs.symlinkStatus desPath = .absent ∧ os.mkdirFault = none

/-- Where the target is missing, its directory can be made exactly if nothing stands in the way. -/
theorem targetCanBeMade_iff {os : Os} {fs : FS} {srcPath destPath : Str} (hs : validateInternalPath fs srcPath = true)
    (hd : validateInternalPath fs destPath = true) (hdir : fs.isDir (components srcPath) = true)
    (habs : fs.status (components (desPath srcPath destPath)) = .absent) :
    TargetCanBeMade os fs srcPath destPath ↔
      (fs.createDirectories os.mkdirFault (components (desPath srcPath destPath))).2 = false := by
  obtain ⟨-, hlast, l, nd, hl⟩ := validated hd
  have hc := components_desPath (plain_baseName hs).1 hlast
  have hdest : nd = .dir ↔ fs.isDir (components destPath) = true := by
    rw [isDir_iff]
    exact ⟨fun e => ⟨l, e ▸ hl⟩, fun ⟨m, hm⟩ => (FS.Lookup.found.inj (hl.symm.trans hm)).2⟩
  unfold TargetCanBeMade
  simp only [hdir, habs, true_imp_iff]
  rw [hc] at habs ⊢
  rw [FS.createDirectories_ok_iff hl (plain_baseName hs) habs, hdest]

/-- A transfer comes to its copy exactly if its checks let it begin and its target can be made. -/
theorem prepared_iff (os : Os) (fs : FS) (srcPath destPath : Str) (overwrite : Bool) :
    (∃ fs₁ dest, prepare os fs srcPath destPath overwrite = (fs₁, .ok dest)) ↔
      begins fs srcPath destPath overwrite = true ∧ TargetCanBeMade os fs srcPath destPath := by
  unfold prepare begins
  cases hs : validateInternalPath fs srcPath with
  | false => simp
  | true =>
  cases hd : validateInternalPath fs destPath with
  | false => simp
  | true =>
  have htarget := @targetCanBeMade_iff os fs srcPath destPath hs hd
  have hdes : destPath ++ '/' :: baseName srcPath = desPath srcPath destPath := rfl
  simp only [hdes, Bool.not_true, Bool.false_eq_true, if_false, Bool.true_and]
  cases hst : fs.status (components (desPath srcPath destPath)) with
  | failed => simp
  | found l nd =>
    have hmade : TargetCanBeMade os fs srcPath destPath := fun _ habs => by simp [hst] at habs
    cases overwrite <;> simp [hmade]
  | absent =>
    cases hdir : fs.isDir (components srcPath) with
    | false =>
      have hmade : TargetCanBeMade os fs srcPath destPath := fun h => by simp [hdir] at h
      simp [hmade]
    | true =>
      rw [htarget hdir hst]
      obtain ⟨⟨fs₁, threw⟩, hmk⟩ :
        ∃ r, fs.createDirectories os.mkdirFault (components (desPath srcPath destPath)) = r := ⟨_, rfl⟩
      cases threw <;> simp [hmk]

/-! ## At and below one place -/

section

variable {D : Loc} {os : Os} {fs : FS} {srcPath destPath : Str} {overwrite : Bool}

/-- The directory that is made for the source is the place the transfer writes to. -/
theorem grew_made (fault : Option Fault) (hD : D ≠ []) (hs : validateInternalPath fs srcPath = true)
    (hd : validateInternalPath fs destPath = true)
    (hin : ∀ l, fs.locate .make (components (place fs srcPath destPath)) = .ok l → D <+: l) (hlink : fs.LinkFree D)
    (habs : fs.status (components (desPath srcPath destPath)) = .absent) :
    FS.Grew D fs (fs.createDirectories fault (components (desPath srcPath destPath))).1 ∧
      ((fs.createDirectories fault (components (desPath srcPath destPath))).2 = false →
        Job.Under D fs (components (desPath srcPath destPath))) := by
  obtain ⟨hbase, -, -⟩ := validated hs
  obtain ⟨-, hlast, l, nd, hl⟩ := validated hd
  have hc := components_desPath hbase hlast
  rw [hc] at habs ⊢
  refine FS.grew_createDirectories_child hD hl (plain_baseName hs) habs (fun hnd m hm => ?_) hlink
  have hplace : place fs srcPath destPath = desPath srcPath destPath := if_pos (isDir_iff.2 ⟨l, hnd ▸ hl⟩)
  rw [hplace, hc] at hin
  exact hin m hm

theorem grew_prepare (hD : D ≠ [])
    (hin : ∀ l, fs.locate .make (components (place fs srcPath destPath)) = .ok l → D <+: l) (hlink : fs.LinkFree D) :
    FS.Grew D fs (prepare os fs srcPath destPath overwrite).1 := by
  rcases prepare_cases os fs srcPath destPath overwrite with e | ⟨hs, hd, habs, e⟩
  · rw [e]
    exact FS.Grew.refl D fs
  · rw [e]
    exact (grew_made os.mkdirFault hD hs hd hin hlink habs).1

/-- Once the directory of the source is there, a path to it leads to the place the transfer writes to. -/
theorem Prepared.found {fs₁ : FS} {dest : Str} (h : Prepared os fs srcPath destPath overwrite fs₁ dest)
    (hdir : fs.isDir (components srcPath) = true) (hD : D ≠ [])
    (hin : ∀ l, fs.locate .make (components (place fs srcPath destPath)) = .ok l → D <+: l) (hlink : fs.LinkFree D)
    (hgrew : FS.Grew D fs fs₁) : ∃ l nd, fs₁.status (components dest) = .found l nd ∧ D <+: l := by
  rw [h.target, if_pos hdir]
  cases hst : fs.status (components (desPath srcPath destPath)) with
  | failed => exact absurd hst h.resolves
  | absent =>
    have hmk := h.made hdir hst
    have hu := (grew_made os.mkdirFault hD h.source h.destination hin hlink hst).2 (by rw [hmk])
    have he := FS.exists_createDirectories hmk
    unfold FS.exists? at he
    split at he
    case h_1 l nd hfound => exact ⟨l, nd, hfound, (hu.grew hgrew).leads (FS.make_of_status hfound)⟩
    case h_2 => cases he
  | found l nd =>
    rw [h.same (.inr (by simp [hst]))]
    refine ⟨l, nd, hst, hin l ?_⟩
    obtain ⟨hbase, -, -⟩ := validated h.source
    obtain ⟨-, hlast, m, nd', hm⟩ := validated h.destination
    have hc := components_desPath hbase hlast
    have hdest : nd' = .dir := by
      by_contra hne
      rw [hc, FS.status, FS.look, Job.locate_below_leaf hm hne] at hst
      cases hst
    rw [place, if_pos (isDir_iff.2 ⟨m, hdest ▸ hm⟩)]
    exact FS.make_of_status hst

/-- A transfer copies to the one place it writes to, if no link stands there. -/
theorem grew_copied (hD : D ≠ [])
    (hin : ∀ l, fs.locate .make (components (place fs srcPath destPath)) = .ok l → D <+: l) (hlink : fs.LinkFree D) :
    FS.Grew D fs (InternalCopy.init os fs srcPath destPath overwrite).1 := by
  have hgrew : FS.Grew D fs (prepare os fs srcPath destPath overwrite).1 := grew_prepare hD hin hlink
  obtain ⟨⟨fs₁, r⟩, hprep⟩ : ∃ r, prepare os fs srcPath destPath overwrite = r := ⟨_, rfl⟩
  rw [hprep] at hgrew
  dsimp only at hgrew
  cases r with
  | error e => simpa [InternalCopy.init, hprep] using hgrew
  | ok dest =>
    have hp := prepared hprep
    have hfs : (InternalCopy.init os fs srcPath destPath overwrite).1 =
        (fs₁.copy os.copyFault os.depth overwrite (components srcPath) (components dest)).1 := by
      simp [InternalCopy.init, hprep]
    rw [hfs]
    refine hgrew.trans ?_
    by_cases hdir : fs.isDir (components srcPath) = true
    · obtain ⟨l, nd, hfound, hl⟩ := hp.found hdir hD hin hlink hgrew
      refine FS.grew_copyTree_found (fun s content hk => ?_) hfound hl
        fun m t hm ht => hlink m t hm (hgrew.links m t ht)
      obtain ⟨s', hs'⟩ := isDir_iff.1 hdir
      have hfile := FS.status_of_symlinkStatus hk (by simp)
      rw [FS.status_dir_of_extends hgrew.extends_ hs'] at hfile
      cases hfile
    · obtain rfl := hp.same (.inl (by simpa using hdir))
      rw [hp.target, if_neg hdir]
      obtain ⟨hbase, -, -⟩ := validated hp.source
      obtain ⟨-, hlast, -⟩ := validated hp.destination
      refine FS.grew_copyTree_leaf (fun s hk => ?_) (fun l hl m hm => ?_) fun hno m hm => ?_
      · exact hdir (isDir_iff.2 ⟨s, FS.status_of_symlinkStatus hk (by simp)⟩)
      · refine hin m ?_
        rw [place, if_pos (isDir_iff.2 ⟨l, FS.status_of_symlinkStatus hl (by simp)⟩), components_desPath hbase hlast]
        rwa [components_getLastD hbase] at hm
      · refine hin m ?_
        rwa [place, if_neg fun h => (isDir_iff.1 h).elim hno]

end

end Transfer

end StorageAccess
