import StorageAccess.Lib.Changes
/-!
# The place a copy goes to

Copying to a path works at and below the place the path leads to, as long as no
link stands there. A file that is copied into a directory goes to one place of
its own, and nothing can be put below what is no directory.
-/

namespace Posix

open FS

/-- No link stands at or below `D`. -/
def FS.LinkFree (fs : FS) (D : Loc) : Prop := ∀ m t, D <+: m → fs.get m ≠ some (.link t)

/-- Nothing stands at or below a place without a name. -/
theorem FS.linkFree_unnamed (fs : FS) (l : Loc) : fs.LinkFree (l ++ [[]]) := by
  have hnone : fs.get (l ++ [[]]) = none := by
    by_contra h
    exact (fs.named l [] h).1 rfl
  intro m t hm ht
  rw [get_eq_none_below hnone hm] at ht
  cases ht

namespace Job

/-- A name in a directory leads into the places around it that hold no link. -/
theorem under_child {D : Loc} {fs : FS} {dir : List Name} {l : Loc} {c : Name} (hs : fs.status dir = .found l .dir)
    (hc : IsName c) (hD : D <+: l ++ [c]) (hl : fs.LinkFree D) : Under D fs (dir ++ [c]) :=
  .inr ⟨dir, c, l, rfl, hs, hc, hD, hl⟩

/-- No path leads on from what is no directory. -/
theorem locate_below_leaf {fs : FS} {p : List Name} {l : Loc} {nd : Node} (hs : fs.status p = .found l nd)
    (hnd : nd ≠ .dir) (last : Last) (n : Name) : fs.locate last (p ++ [n]) = .error .noent := by
  obtain ⟨hloc, hg⟩ := look_found.1 hs
  obtain ⟨k, hw⟩ := locate_eq_ok.1 hloc
  have hd : fs.get l ≠ some .dir := by simpa [hg] using hnd
  unfold locate
  rw [walk_append fs last p [n] (by simp), hw, Except.bind]
  simp [walk_cons, hd, Except.map]

/-- Copying to a place below what is no directory changes nothing. -/
theorem copy_below_leaf {overwrite : Bool} {depth : Nat} {src p : List Name} {j : Job} {l : Loc} {nd : Node}
    (hs : j.fs.status p = .found l nd) (hnd : nd ≠ .dir) (n : Name) :
    (copy overwrite depth src (p ++ [n]) j).fs = j.fs := by
  have hnone := fun last => locate_below_leaf hs hnd last n
  have hstatus : j.fs.status (p ++ [n]) = .absent := by rw [status, look, hnone]
  have hkeep : j.fs.symlinkStatus (p ++ [n]) = .absent := by rw [symlinkStatus, look, hnone]
  have hmkdir : j.mkdir (p ++ [n]) = j.fail := by simp only [mkdir, hkeep, hnone]
  have hensure : j.ensure (p ++ [n]) = j.fail := by rw [ensure, if_pos hkeep, hmkdir]
  have hstep := copyStep overwrite depth src (p ++ [n]) j
  generalize copy overwrite depth src (p ++ [n]) j = j' at hstep
  cases hstep with
  | failed | skipped => rfl
  | into s content found m target => rw [hkeep] at target; cases target
  | file s content => simp only [copyFile, hstatus, hnone, fail]
  | unmade => rw [hensure]; rfl
  | dir s found target nofile k deeper made => rw [hensure] at made; cases made

/-- Copying anything but a file to a path that finds something works at and below what it finds. -/
theorem grew_copy_found {D : Loc} {overwrite : Bool} {depth : Nat} {src dst : List Name} {j : Job} {l : Loc} {nd : Node}
    (hsrc : ∀ s content, j.fs.symlinkStatus src ≠ .found s (.file content)) (hs : j.fs.status dst = .found l nd)
    (hD : D <+: l) (hl : j.fs.LinkFree D) : Grew D j.fs (copy overwrite depth src dst j).fs := by
  obtain ⟨m, nd', hk⟩ := symlinkStatus_of_status hs
  have hensure : j.ensure dst = j := if_neg (by simp [hk])
  have hstep := copyStep overwrite depth src dst j
  generalize copy overwrite depth src dst j = j' at hstep
  cases hstep with
  | failed | skipped => exact Grew.refl D _
  | into s content found => exact absurd found (hsrc s content)
  | file s content found => exact absurd found (hsrc s content)
  | unmade => rw [hensure]; exact Grew.refl D _
  | dir s found target nofile n deeper made =>
    rw [hensure]
    by_cases hnd : nd = .dir
    · subst hnd
      let P (fs : FS) : Prop := ∀ c, IsName c → Under D fs (dst ++ [c])
      have hP : P j.fs := fun c hc => under_child hs hc (hD.trans (List.prefix_append l [c])) hl
      refine grew_each (fun fs fs' hfs hg c hc => (hfs c hc).grew hg) _ (fun c hc k hk => ?_) j hP
      have hname := isName_of_mem_children hc
      exact grew_copy overwrite n _ _ k (hk c hname) (.inr (by simpa using hname))
    · -- the path leads to a file, below which no entry can be made
      let P (fs : FS) : Prop := ∃ nd, fs.status dst = .found l nd ∧ nd ≠ .dir
      refine grew_each (P := P) (fun fs fs' hfs hg => ?_) _ (fun c _ k hk => ?_) j ⟨nd, hs, hnd⟩
      · obtain ⟨nd, h, hne⟩ := hfs
        obtain ⟨nd', h', hkind⟩ := look_of_extends hg.extends_ (by decide) h
        exact ⟨nd', h', fun e => hne (Node.kind_eq_dir.1 (by rw [← hkind, e]; rfl))⟩
      · obtain ⟨nd, h, hne⟩ := hk
        rw [copy_below_leaf h hne]
        exact Grew.refl D _

/-- Copying what is no directory works at and below the one place the copy goes to. -/
theorem grew_copy_leaf {D : Loc} {overwrite : Bool} {depth : Nat} {src dst : List Name} {j : Job}
    (hsrc : ∀ s, j.fs.symlinkStatus src ≠ .found s .dir)
    (hinto : ∀ l, j.fs.symlinkStatus dst = .found l .dir →
      ∀ m, j.fs.locate .make (dst ++ [src.getLastD []]) = .ok m → D <+: m)
    (honto : (∀ l, j.fs.status dst ≠ .found l .dir) → ∀ m, j.fs.locate .make dst = .ok m → D <+: m) :
    Grew D j.fs (copy overwrite depth src dst j).fs := by
  have hstep := copyStep overwrite depth src dst j
  generalize copy overwrite depth src dst j = j' at hstep
  cases hstep with
  | failed | skipped => exact Grew.refl D _
  | into s content _ l hd => exact grew_copyFile overwrite content s (hinto l hd)
  | file s content =>
    by_cases hd : ∃ l, j.fs.status dst = .found l .dir
    · obtain ⟨l, hd⟩ := hd
      simp only [copyFile, hd]
      exact Grew.refl D _
    · exact grew_copyFile overwrite content s (honto fun l h => hd ⟨l, h⟩)
  | unmade s hs => exact absurd hs (hsrc s)
  | dir s hs => exact absurd hs (hsrc s)

end Job

namespace FS

theorem grew_copyTree_found {D : Loc} {fs : FS} {fault : Option Fault} {depth : Nat} {overwrite : Bool}
    {src dst : List Name} {l : Loc} {nd : Node} (hsrc : ∀ s content, fs.symlinkStatus src ≠ .found s (.file content))
    (hs : fs.status dst = .found l nd) (hD : D <+: l) (hl : fs.LinkFree D) :
    Grew D fs (fs.copy fault depth overwrite src dst).1 :=
  Job.grew_copy_found (j := Job.start fs fault) hsrc hs hD hl

theorem grew_copyTree_leaf {D : Loc} {fs : FS} {fault : Option Fault} {depth : Nat} {overwrite : Bool}
    {src dst : List Name} (hsrc : ∀ s, fs.symlinkStatus src ≠ .found s .dir)
    (hinto : ∀ l, fs.symlinkStatus dst = .found l .dir →
      ∀ m, fs.locate .make (dst ++ [src.getLastD []]) = .ok m → D <+: m)
    (honto : (∀ l, fs.status dst ≠ .found l .dir) → ∀ m, fs.locate .make dst = .ok m → D <+: m) :
    Grew D fs (fs.copy fault depth overwrite src dst).1 :=
  Job.grew_copy_leaf (j := Job.start fs fault) hsrc hinto honto

/-- Making the directories of a path comes down to the last where the others are there. -/
theorem createDirectories_concat {fs : FS} {fault : Option Fault} {p : List Name} {n : Name}
    (h : ∀ b d, p = b ++ d → ∃ m, fs.status b = .found m .dir) :
    fs.createDirectories fault (p ++ [n]) = (mkdirs p [n] (Job.start fs fault)).finish fault := by
  unfold createDirectories
  rw [mkdirs_append [] p [n] (Job.start fs fault) fun b d hbd _ => h b d hbd, List.nil_append]

/-- No directory can be made below what is no directory. -/
theorem createDirectories_below_leaf {fs : FS} {fault : Option Fault} {p : List Name} {l : Loc} {nd : Node}
    (hs : fs.status p = .found l nd) (hnd : nd ≠ .dir) (n : Name) :
    fs.createDirectories fault (p ++ [n]) = (fs, true) := by
  rcases List.eq_nil_or_concat p with rfl | ⟨dir, c, rfl⟩
  · have hroot : fs.status [] = .found [] .dir := look_found.2 ⟨rfl, fs.root⟩
    rw [hs] at hroot
    cases hroot
    exact absurd rfl hnd
  rw [List.concat_eq_append] at hs ⊢
  have hpre : ∀ b d, dir = b ++ d → b ≠ [] → ∃ m, (Job.start fs fault).fs.status ([] ++ b) = .found m .dir := by
    rintro b d rfl -
    rw [List.append_assoc] at hs
    rw [List.nil_append]
    exact status_prefix hs (by simp)
  unfold createDirectories
  rw [List.append_assoc, mkdirs_append [] dir ([c] ++ [n]) (Job.start fs fault) hpre, List.nil_append,
    List.singleton_append, mkdirs]
  have hstart : (Job.start fs fault).fs = fs := rfl
  rw [hstart, hs]
  cases nd with
  | dir => exact absurd rfl hnd
  | file | link => rfl

/-- The last directory of a path can be made where its name is free in a directory and the device allows it. -/
theorem createDirectories_ok_iff {fs : FS} {fault : Option Fault} {p : List Name} {l : Loc} {nd : Node} {n : Name}
    (hs : fs.status p = .found l nd) (hn : n ≠ [] ∧ '/' ∉ n ∧ Char.ofNat 0 ∉ n) (habs : fs.status (p ++ [n]) = .absent) :
    (fs.createDirectories fault (p ++ [n])).2 = false ↔
      nd = .dir ∧ fs.symlinkStatus (p ++ [n]) = .absent ∧ fault = none := by
  by_cases hnd : nd = .dir
  case neg => simp [createDirectories_below_leaf hs hnd, hnd]
  subst hnd
  have hpre : ∀ b d, p = b ++ d → ∃ m, fs.status b = .found m .dir := by
    rintro b d rfl
    exact status_dir_prefix hs
  have hstart : (Job.start fs fault).fs = fs := rfl
  have hmkdirs : mkdirs p [n] (Job.start fs fault) = (Job.start fs fault).mkdir (p ++ [n]) := by
    unfold mkdirs
    rw [hstart, habs]
    dsimp only
    split <;> rfl
  rw [createDirectories_concat hpre, hmkdirs]
  simp only [Job.finish, Bool.or_eq_false_iff, Option.isSome_eq_false_iff, Option.isNone_iff_eq_none, true_and]
  refine and_congr_left fun hfault => ⟨fun h => (missing_of_mkdir h).1, fun h => ?_⟩
  have hname := isName_of_absent hs hn habs
  have hfree := Job.get_of_symlinkStatus_absent hs hname h
  have hmake := locate_child hs hname .make (.inr (by simp [hfree]))
  rw [if_neg (by simp)] at hmake
  simp [Job.mkdir, h, hmake, Job.put, Job.start, hfault]

/-- A missing directory is made at the place its path leads to, if at all. -/
theorem grew_createDirectories_child {D : Loc} {fs : FS} {fault : Option Fault} {p : List Name} {l : Loc} {nd : Node}
    {n : Name} (hD : D ≠ []) (hs : fs.status p = .found l nd) (hn : n ≠ [] ∧ '/' ∉ n ∧ Char.ofNat 0 ∉ n)
    (habs : fs.status (p ++ [n]) = .absent)
    (hin : nd = .dir → ∀ m, fs.locate .make (p ++ [n]) = .ok m → D <+: m) (hlink : fs.LinkFree D) :
    Grew D fs (fs.createDirectories fault (p ++ [n])).1 ∧
      ((fs.createDirectories fault (p ++ [n])).2 = false → Job.Under D fs (p ++ [n])) := by
  by_cases hnd : nd = .dir
  case neg =>
    rw [createDirectories_below_leaf hs hnd]
    exact ⟨Grew.refl D fs, fun h => by cases h⟩
  subst hnd
  have hname : IsName n := isName_of_absent hs hn habs
  by_cases hl : ∃ t, fs.get (l ++ [n]) = some (.link t)
  · -- a link to nowhere is in the way
    obtain ⟨t, ht⟩ := hl
    have hk : fs.symlinkStatus (p ++ [n]) = .found (l ++ [n]) (.link t) := by
      rw [symlinkStatus, look_child hs hname (by decide) (.inl rfl), ht]
    have hpre : ∀ b d, p = b ++ d → ∃ m, fs.status b = .found m .dir := by
      rintro b d rfl
      exact status_dir_prefix hs
    have hmade : fs.createDirectories fault (p ++ [n]) = (fs, true) := by
      have hstart : (Job.start fs fault).fs = fs := rfl
      rw [createDirectories_concat hpre, mkdirs, hstart, habs]
      simp [Job.mkdir, hstart, hk, Job.fail, Job.finish]
    rw [hmade]
    exact ⟨Grew.refl D fs, fun h => by cases h⟩
  have hnl : ∀ t, fs.get (l ++ [n]) ≠ some (.link t) := fun t ht => hl ⟨t, ht⟩
  have hmake : fs.locate .make (p ++ [n]) = .ok (l ++ [n]) := by
    rw [locate_child hs hname .make (.inr hnl)]
    simp
  have hu : Job.Under D fs (p ++ [n]) := Job.under_child hs hname (hin rfl _ hmake) hlink
  exact ⟨grew_createDirectories (LeadsInto.of_under hD hu), fun _ => hu⟩

end FS

end Posix
