import StorageAccess.Lib.Bounded
import StorageAccess.Proofs.Transfers
/-!
# How far a recursive copy goes

`InternalCopy` and `InternalMove` make the target directory before `fs::copy` starts
to walk, and nothing keeps the target out of the source. A copy that makes no entry
in its source is bounded by what it copies, however deep a path may be; a copy to a
new directory in the source goes on into what it makes.
-/

open Posix Json

namespace StorageAccess

open Transfer

/-- From some limit on the depth of a path on, the limit makes no difference to the operation or
to the tree `copied` its copy leaves, and the copy makes no more entries than the source has, itself
counted for the target directory. -/
def Bounded (init : Os → FS × Transfer) (copied : Os → FS) (os : Os) (fs : FS) (S : Loc) : Prop :=
  ∃ limit, ∀ depth, limit ≤ depth →
    (init { os with depth := depth }).1 = (init { os with depth := limit }).1 ∧
    (init { os with depth := depth }).2.status = (init { os with depth := limit }).2.status ∧
    copied { os with depth := depth } = copied { os with depth := limit } ∧
    (fs.created (copied { os with depth := depth })).card ≤ (fs.tree S).card

/-- The tree a transfer leaves when its copy ends, before a move removes the source. -/
def Transfer.copied (os : Os) (fs : FS) (srcPath destPath : Str) (overwrite : Bool) : FS :=
  match prepare os fs srcPath destPath overwrite with
  | (fs, .error _) => fs
  | (fs, .ok dest) => (fs.copy os.copyFault os.depth overwrite (components srcPath) (components dest)).1

def CopyBounded (os : Os) (fs : FS) (srcPath destPath : Str) (overwrite : Bool) (S : Loc) : Prop :=
  Bounded (InternalCopy.init · fs srcPath destPath overwrite) (copied · fs srcPath destPath overwrite) os fs S

def MoveBounded (os : Os) (fs : FS) (srcPath destPath : Str) (overwrite : Bool) (S : Loc) : Prop :=
  Bounded (InternalMove.init · fs srcPath destPath overwrite) (copied · fs srcPath destPath overwrite) os fs S

/-- Where the checks let a transfer start, and unless its source path is a link, none of the entries it
makes is made in the source: the target directory is not, nor is what is copied to it. -/
def CopiesOutside (fs : FS) (srcPath destPath : Str) (overwrite : Bool) : Prop :=
  begins fs srcPath destPath overwrite = true → TargetCanBeMade Os.quiet fs srcPath destPath →
    ∀ S, fs.symlinkStatus (components srcPath) = .found S .dir →
      FS.Outside S fs (components (desPath srcPath destPath))

section

variable {os : Os} {fs fs₁ : FS} {srcPath destPath dest : Str} {overwrite : Bool} {S : Loc}

/-- What the checks make: nothing, or they try the one target directory that is missing. -/
theorem prepare_mkdir (os : Os) (fs : FS) (srcPath destPath : Str) (overwrite : Bool) :
    (prepare os fs srcPath destPath overwrite).1 = fs ∨ (prepare os fs srcPath destPath overwrite).1 =
      ((Job.start fs os.mkdirFault).mkdir (components (desPath srcPath destPath))).fs := by
  rcases prepare_cases os fs srcPath destPath overwrite with e | ⟨hs, hd, habs, e⟩
  · exact .inl e
  obtain ⟨hbase, -, -⟩ := validated hs
  obtain ⟨-, hlast, l, nd, hl⟩ := validated hd
  rw [e]
  rw [components_desPath hbase hlast] at habs ⊢
  rcases FS.createDirectories_child os.mkdirFault hl habs with he | ⟨-, he, -⟩
  · rw [he]
    exact .inl rfl
  · exact .inr he

theorem card_created_prepare (os : Os) (fs : FS) (srcPath destPath : Str) (overwrite : Bool) :
    (fs.created (prepare os fs srcPath destPath overwrite).1).card ≤ 1 := by
  rcases prepare_mkdir os fs srcPath destPath overwrite with e | e
  · rw [e, FS.created_self]
    simp
  · rw [e]
    exact Job.card_created_mkdir (Job.start fs os.mkdirFault) _

/-- The target directory is there when the copy starts, and the copy makes nothing in the source, as before. -/
theorem Transfer.Prepared.outside (hprep : prepare os fs srcPath destPath overwrite = (fs₁, .ok dest))
    (hdir : fs.isDir (components srcPath) = true) (hsrc : fs.symlinkStatus (components srcPath) = .found S .dir)
    (h : CopiesOutside fs srcPath destPath overwrite) :
    FS.Adds S (components dest) 1 fs fs₁ ∧ FS.Outside S fs₁ (components dest) ∧
      ∃ l nd, fs₁.status (components dest) = .found l nd := by
  have hp := prepared hprep
  obtain ⟨hbegins, hmade⟩ := (prepared_iff os fs srcPath destPath overwrite).1 ⟨fs₁, dest, hprep⟩
  have hout := h hbegins (fun hd ha => ⟨(hmade hd ha).1, (hmade hd ha).2.1, rfl⟩) S hsrc
  rw [hp.target, if_pos hdir]
  suffices hadds : FS.Adds S (components (desPath srcPath destPath)) 1 fs fs₁ ∧
      ∃ l nd, fs₁.status (components (desPath srcPath destPath)) = .found l nd from
    ⟨hadds.1, hout.fills hadds.1.fills, hadds.2⟩
  cases hst : fs.status (components (desPath srcPath destPath)) with
  | failed => exact absurd hst hp.resolves
  | found l nd =>
    obtain rfl := hp.same (.inr (by simp [hst]))
    exact ⟨FS.Adds.refl S _ 1 _, l, nd, hst⟩
  | absent =>
    have hmk := hp.made hdir hst
    have hthere := FS.exists_createDirectories hmk
    have hadds := Job.adds_ensure (r := []) (j := Job.start fs os.mkdirFault)
      (by rw [List.append_nil, Job.start, (FS.look_found.1 hsrc).2]) fun l hl => hout fs (FS.Fills.refl S _ fs) [] l hl
    have hensure : (Job.start fs os.mkdirFault).ensure (components (desPath srcPath destPath)) =
        (Job.start fs os.mkdirFault).mkdir (components (desPath srcPath destPath)) := if_pos (hmade hdir hst).2.1
    rw [List.append_nil, hensure] at hadds
    refine ⟨?_, ?_⟩
    · rcases prepare_mkdir os fs srcPath destPath overwrite with e | e <;> rw [hprep] at e
      · rw [show fs₁ = fs from e]
        exact FS.Adds.refl S _ 1 fs
      · rw [show fs₁ = _ from e]
        exact hadds
    · unfold FS.exists? at hthere
      split at hthere
      case h_1 l nd hfound => exact ⟨l, nd, hfound⟩
      case h_2 => cases hthere

/-- The copy of a source directory, as both operations make it. -/
theorem copied_bounded (hprep : prepare os fs srcPath destPath overwrite = (fs₁, .ok dest))
    (hs : fs.status (components srcPath) = .found S .dir) (h : CopiesOutside fs srcPath destPath overwrite) :
    ∃ limit, ∀ depth, limit ≤ depth →
      fs₁.copy os.copyFault depth overwrite (components srcPath) (components dest) =
        fs₁.copy os.copyFault limit overwrite (components srcPath) (components dest) ∧
      (fs.created (fs₁.copy os.copyFault depth overwrite (components srcPath) (components dest)).1).card ≤
        (fs.tree S).card := by
  have hpos : 1 ≤ (fs.tree S).card := FS.tree_pos (by simp [(FS.look_found.1 hs).2])
  have hfirst := card_created_prepare os fs srcPath destPath overwrite
  rw [hprep] at hfirst
  obtain ⟨m, nd, hk⟩ := FS.symlinkStatus_of_status hs
  by_cases hlink : ∃ t, nd = .link t
  · -- a link to a directory is not copied
    obtain ⟨t, rfl⟩ := hlink
    have hmade := (madeDirs_prepare os fs srcPath destPath overwrite).grew
    rw [hprep] at hmade
    obtain ⟨nd', hk', hkind⟩ := FS.look_of_extends hmade.extends_ (by decide) hk
    obtain rfl := Node.kind_eq_link.1 hkind
    have hskipped (depth : Nat) := Job.copy_link (j := Job.start fs₁ os.copyFault) overwrite depth (components dest) hk'
    refine ⟨0, fun depth _ => ⟨?_, ?_⟩⟩
    · rw [FS.copy, FS.copy, (hskipped depth).2]
    · change (fs.created (Job.copy overwrite depth _ _ (Job.start fs₁ os.copyFault)).fs).card ≤ _
      rw [(hskipped depth).1]
      exact hfirst.trans hpos
  · have hfound := FS.status_of_symlinkStatus hk fun t e => hlink ⟨t, e⟩
    obtain ⟨rfl, rfl⟩ := FS.Lookup.found.inj (hs.symm.trans hfound)
    obtain ⟨hadds, hout, l, nd', hdst⟩ := Prepared.outside hprep (isDir_iff.2 ⟨S, hs⟩) hk h
    obtain ⟨nd, hsrc, hkind⟩ := FS.look_of_extends hadds.fills.grew.extends_ (by decide) hk
    rw [Node.kind_eq_dir.1 hkind] at hsrc
    have hlevel : Job.Level S fs₁ (components srcPath) (components dest) := ⟨hsrc, hout⟩
    obtain ⟨limit, hlimit⟩ := FS.copyTree_depth os.copyFault overwrite hlevel
    refine ⟨limit, fun depth hdepth => ⟨hlimit depth hdepth, ?_⟩⟩
    have hcopied := FS.adds_copyTree os.copyFault depth overwrite hlevel hdst
    rw [hadds.fills.tree_eq (List.prefix_refl S)] at hcopied
    exact (hadds.trans hcopied).count.trans (by omega)

/-- A transfer that makes no entry in its source is bounded. -/
theorem bounded_of_outside (os : Os) (hs : fs.status (components srcPath) = .found S .dir)
    (h : CopiesOutside fs srcPath destPath overwrite) :
    CopyBounded os fs srcPath destPath overwrite S ∧ MoveBounded os fs srcPath destPath overwrite S := by
  have hpos : 1 ≤ (fs.tree S).card := FS.tree_pos (by simp [(FS.look_found.1 hs).2])
  have hfirst := card_created_prepare os fs srcPath destPath overwrite
  obtain ⟨⟨fs₁, r⟩, hprep⟩ : ∃ r, prepare os fs srcPath destPath overwrite = r := ⟨_, rfl⟩
  have hprep' (depth : Nat) : prepare { os with depth := depth } fs srcPath destPath overwrite = (fs₁, r) := hprep
  rw [hprep] at hfirst
  cases r with
  | error e =>
    refine ⟨⟨0, fun depth _ => ?_⟩, ⟨0, fun depth _ => ?_⟩⟩
    · simp only [InternalCopy.init, copied, hprep']
      exact ⟨trivial, trivial, trivial, hfirst.trans hpos⟩
    · simp only [InternalMove.init, copied, hprep']
      exact ⟨trivial, trivial, trivial, hfirst.trans hpos⟩
  | ok dest =>
    obtain ⟨limit, hlimit⟩ := copied_bounded hprep hs h
    refine ⟨⟨limit, fun depth hdepth => ?_⟩, ⟨limit, fun depth hdepth => ?_⟩⟩
    all_goals
      obtain ⟨hsame, hcount⟩ := hlimit depth hdepth
      rw [hsame] at hcount
    · simp only [InternalCopy.init, copied, hprep', hsame, sized]
      exact ⟨trivial, trivial, trivial, hcount⟩
    · simp only [InternalMove.init, copied, hprep', hsame, sized]
      exact ⟨trivial, trivial, trivial, hcount⟩

/-! ## A target in the source -/

/-- A new target in the source is copied into itself as deep as a path may go. -/
theorem copied_deep (hb : begins fs srcPath destPath overwrite = true) (ht : TargetCanBeMade Os.quiet fs srcPath destPath)
    (hsrc : fs.symlinkStatus (components srcPath) = .found S .dir)
    (habs : fs.status (components (desPath srcPath destPath)) = .absent)
    (hout : ¬ FS.Outside S fs (components (desPath srcPath destPath))) (depth : Nat) :
    Job.Deep (copied { Os.quiet with depth := depth + 1 } fs srcPath destPath overwrite) depth := by
  obtain ⟨fs₁, dest, hprep⟩ := (prepared_iff Os.quiet fs srcPath destPath overwrite).2 ⟨hb, ht⟩
  have hp := prepared hprep
  have hS := (FS.look_found.1 hsrc).2
  have hdir : fs.isDir (components srcPath) = true := isDir_iff.2 ⟨S, FS.status_of_symlinkStatus hsrc (by simp)⟩
  obtain ⟨hdest, hmissing, -⟩ := ht hdir habs
  obtain ⟨L, hL⟩ := isDir_iff.1 hdest
  obtain ⟨hplain, hlast⟩ := And.intro (plain_baseName hp.source) (validated hp.destination).2.1
  have hc := components_desPath hplain.1 hlast
  have htarget := hp.target
  rw [if_pos hdir] at htarget
  subst htarget
  rw [hc] at habs hmissing hout
  have hname : IsName (baseName srcPath) := FS.isName_of_absent hL hplain habs
  have hfree := Job.get_of_symlinkStatus_absent hL hname hmissing
  -- the place is in the source, and it is not the source itself
  have hin : S <+: L ++ [baseName srcPath] := by
    by_contra h
    exact hout (FS.outside_of_missing hL hname hfree hS h)
  obtain ⟨t, ht⟩ := hin
  have hne : t ≠ [] := by
    rintro rfl
    rw [List.append_nil] at ht
    rw [← ht, hS] at hfree
    cases hfree
  have hmade : fs₁ = fs.set (L ++ [baseName srcPath]) .dir := by
    have hmk := hp.made hdir (by rw [hc]; exact habs)
    rw [hc] at hmk
    have hthere := FS.exists_createDirectories hmk
    rcases prepare_mkdir Os.quiet fs srcPath destPath overwrite with e | e <;> rw [hprep] at e
    · rw [show fs₁ = fs from e, FS.exists?, habs] at hthere
      cases hthere
    · have hensure : (Job.start fs none).ensure (components destPath ++ [baseName srcPath]) =
          (Job.start fs none).mkdir (components destPath ++ [baseName srcPath]) := if_pos hmissing
      rw [(Job.ensure_free (j := Job.start fs none) hL hname hfree rfl).2.2] at hensure
      rw [hc] at e
      exact (show fs₁ = _ from e).trans (congrArg Job.fs hensure).symm
  have hcan : fs.CanSet (L ++ [baseName srcPath]) .dir := FS.canSet_child (FS.look_found.1 hL).2 hname fun _ => rfl
  have hset := FS.set_get fs hcan
  rw [← hmade, ← ht] at hset
  have hgrew := (madeDirs_prepare Os.quiet fs srcPath destPath overwrite).grew
  rw [hprep] at hgrew
  obtain ⟨nd, hsrc₁, hkind⟩ := FS.look_of_extends hgrew.extends_ (by decide) hsrc
  rw [Node.kind_eq_dir.1 hkind] at hsrc₁
  have hdst : fs₁.status (components destPath ++ [baseName srcPath]) = .found (S ++ t) .dir := by
    have hthere : fs₁.get (L ++ [baseName srcPath]) = some .dir := by rw [← ht, hset, if_pos rfl]
    rw [ht, FS.status, FS.look_child (FS.status_dir_of_extends hgrew.extends_ hL) hname (by decide)
      (.inr (by simp [hthere])), hthere]
  have hempty (c : Name) : fs₁.get (S ++ t ++ [c]) = none := by
    rw [hset, if_neg (by simp), ht]
    exact FS.get_eq_none_below hfree (List.prefix_append _ [c])
  have hdeep := Job.copy_into_itself (j := Job.start fs₁ none) overwrite hne depth hsrc₁ hdst hempty rfl rfl
  have hfs : copied { Os.quiet with depth := depth + 1 } fs srcPath destPath overwrite =
      (Job.copy overwrite (depth + 1) (components srcPath) (components destPath ++ [baseName srcPath])
        (Job.start fs₁ none)).fs := by
    have hprep' : prepare { Os.quiet with depth := depth + 1 } fs srcPath destPath overwrite =
        (fs₁, .ok (desPath srcPath destPath)) := hprep
    simp only [copied, hprep', hc]
    rfl
  rw [hfs]
  obtain ⟨m, hm, hlen⟩ := hdeep
  exact ⟨m, hm, by omega⟩

/-- A new target in the source is copied without bound. -/
theorem not_bounded (hb : begins fs srcPath destPath overwrite = true) (ht : TargetCanBeMade Os.quiet fs srcPath destPath)
    (hsrc : fs.symlinkStatus (components srcPath) = .found S .dir)
    (habs : fs.status (components (desPath srcPath destPath)) = .absent)
    (hout : ¬ FS.Outside S fs (components (desPath srcPath destPath))) (init : Os → FS × Transfer) (T : Loc) :
    ¬ Bounded init (copied · fs srcPath destPath overwrite) Os.quiet fs T := by
  rintro ⟨limit, h⟩
  -- one tree would have entries at every depth
  let last := copied { Os.quiet with depth := limit } fs srcPath destPath overwrite
  obtain ⟨-, -, hsame, -⟩ := h (limit + last.depth + 1 + 1) (by omega)
  obtain ⟨m, hm, hlen⟩ := copied_deep hb ht hsrc habs hout (limit + last.depth + 1)
  have hlast : last.get m ≠ none := fun hn => hm ((congrArg (FS.get · m) hsame).trans hn)
  exact Job.not_deep last ⟨m, hlast, by omega⟩

end

/-- A copy or a move of a directory that makes nothing in its source is bounded. Where there is no
target to be replaced, only such a copy or move is. -/
theorem transfer_bounded {fs : FS} {srcPath destPath : Str} {overwrite : Bool} {S : Loc}
    (hs : fs.status (components srcPath) = .found S .dir) :
    (CopiesOutside fs srcPath destPath overwrite → ∀ os,
      CopyBounded os fs srcPath destPath overwrite S ∧ MoveBounded os fs srcPath destPath overwrite S) ∧
    (overwrite = false ∨ fs.status (components (desPath srcPath destPath)) = .absent →
      ((∀ os, CopyBounded os fs srcPath destPath overwrite S) → CopiesOutside fs srcPath destPath overwrite) ∧
      ((∀ os, MoveBounded os fs srcPath destPath overwrite S) → CopiesOutside fs srcPath destPath overwrite)) := by
  refine ⟨fun h os => bounded_of_outside os hs h, fun hnew => ?_⟩
  have hmissing (hb : begins fs srcPath destPath overwrite = true) :
      fs.status (components (desPath srcPath destPath)) = .absent := by
    rcases hnew with rfl | habs
    case inr => exact habs
    cases hst : fs.status (components (desPath srcPath destPath)) with
    | absent => rfl
    | failed | found =>
      rw [desPath] at hst
      simp only [begins, hst, Bool.and_false, Bool.false_eq_true] at hb
  refine ⟨fun h hb ht S' hS' => ?_, fun h hb ht S' hS' => ?_⟩
  all_goals
    by_contra hout
    exact not_bounded hb ht hS' (hmissing hb) hout _ S (h Os.quiet)

/-! ## An empty directory, copied elsewhere and into itself -/

def sourceDir : Loc := ["tmp".toList, "a".toList]

def emptyDir : FS :=
  FS.ofEntries [(["tmp".toList], .dir), (sourceDir, .dir), (["media".toList], .dir)] (by decide)

theorem emptyDir_source : emptyDir.symlinkStatus (components "/tmp/a".toList) = .found sourceDir .dir := rfl

theorem copiesOutside_media : CopiesOutside emptyDir "/tmp/a".toList "/media".toList false := by
  intro _ _ S hS
  obtain ⟨rfl, -⟩ := FS.Lookup.found.inj (emptyDir_source.symm.trans hS)
  have hmedia : emptyDir.status (components "/media".toList) = .found ["media".toList] .dir := rfl
  exact FS.outside_of_missing (c := "a".toList) hmedia (by decide) rfl (FS.look_found.1 hS).2 (by decide)

theorem copy_to_media_bounded :
    CopyBounded Os.quiet emptyDir "/tmp/a".toList "/media".toList false sourceDir ∧
      MoveBounded Os.quiet emptyDir "/tmp/a".toList "/media".toList false sourceDir :=
  (transfer_bounded (FS.status_of_symlinkStatus emptyDir_source (by simp))).1 copiesOutside_media Os.quiet

/-- The directory holds nothing, and it is copied into itself without bound. -/
theorem copy_into_itself_unbounded :
    ¬ CopyBounded Os.quiet emptyDir "/tmp/a".toList "/tmp/a".toList false sourceDir ∧
      ¬ MoveBounded Os.quiet emptyDir "/tmp/a".toList "/tmp/a".toList false sourceDir := by
  have hinside : ¬ FS.Outside sourceDir emptyDir (components (desPath "/tmp/a".toList "/tmp/a".toList)) := fun h =>
    h emptyDir (FS.Fills.refl _ _ _) [] ["tmp".toList, "a".toList, "a".toList]
      (.inl ⟨rfl, rfl, rfl⟩) (by decide)
  have hb : begins emptyDir "/tmp/a".toList "/tmp/a".toList false = true := rfl
  have ht : TargetCanBeMade Os.quiet emptyDir "/tmp/a".toList "/tmp/a".toList := fun _ _ =>
    ⟨rfl, rfl, rfl⟩
  exact ⟨not_bounded hb ht emptyDir_source (by decide) hinside _ _,
    not_bounded hb ht emptyDir_source rfl hinside _ _⟩

end StorageAccess
