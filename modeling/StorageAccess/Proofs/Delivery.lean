import StorageAccess.Lib.Carrying
import StorageAccess.Proofs.Transfers
/-!
# What a successful copy or move delivers

A copy reports success when nothing was thrown, also when `fs::copy` skipped the
source or wrote it somewhere else. `delivers_iff` says what a success that delivers
the files and loses nothing takes, and that it is enough wherever nothing of what
the transfer itself puts into the source gets in its way.
-/

open Posix Json

namespace StorageAccess

/-! ## What is promised -/

/-- Every file of the source tree is in the tree that the name of the source leads to in the destination,
with its content. -/
def Delivered (fs fs' : FS) (srcPath destPath : Str) : Prop :=
  ∀ S nd, fs.symlinkStatus (components srcPath) = .found S nd →
    ∀ r content, fs.get (S ++ r) = some (.file content) →
      ∃ P, fs.locate .make (components (Transfer.desPath srcPath destPath)) = .ok P ∧
        fs'.get (P ++ r) = some (.file content)

/-- Every file and link of the source tree is at its old place or at its new one. -/
def NothingLost (fs fs' : FS) (srcPath destPath : Str) : Prop :=
  ∀ S nd, fs.symlinkStatus (components srcPath) = .found S nd →
    ∀ r nd', fs.get (S ++ r) = some nd' → nd' ≠ .dir → fs'.get (S ++ r) = some nd' ∨
      ∃ P, fs.locate .make (components (Transfer.desPath srcPath destPath)) = .ok P ∧ fs'.get (P ++ r) = some nd'

/-! ## When it is kept -/

/-- A source with files goes into a directory, and there is room for them. -/
def HasRoom (fs : FS) (srcPath destPath : Str) : Prop :=
  ∀ S nd, fs.symlinkStatus (components srcPath) = .found S nd →
    (∀ r content, fs.get (S ++ r) = some (.file content) →
      ∃ P, fs.locate .make (components (Transfer.desPath srcPath destPath)) = .ok P) ∧
    ∀ P, fs.locate .make (components (Transfer.desPath srcPath destPath)) = .ok P →
      fs.RoomFor P (components (Transfer.desPath srcPath destPath)) fun r nd => fs.get (S ++ r) = some nd

/-- What the transfer itself puts into a source directory does not get in its way. -/
def Untangled (fs : FS) (srcPath destPath : Str) : Prop :=
  ∀ S P, fs.symlinkStatus (components srcPath) = .found S .dir →
    fs.locate .make (components (Transfer.desPath srcPath destPath)) = .ok P →
      fs.Untangled S P (components (Transfer.desPath srcPath destPath))

/-- The transfer of a directory puts nothing into it, and meets no link that dangles at the place of a directory. -/
def NothingAdded (fs : FS) (srcPath destPath : Str) : Prop :=
  ∀ S P, fs.symlinkStatus (components srcPath) = .found S .dir →
    fs.locate .make (components (Transfer.desPath srcPath destPath)) = .ok P →
      (∀ r content, fs.get (S ++ r) = some (.file content) → ¬ S <+: P ++ r) ∧
      ∀ q, fs.get (S ++ q) = some .dir →
        (∀ m, fs.MadeAt (components (Transfer.desPath srcPath destPath) ++ q) m → ¬ S <+: m) ∧
        ∀ l t, fs.symlinkStatus (components (Transfer.desPath srcPath destPath) ++ q) = .found l (.link t) →
          ∃ l' nd', fs.status (components (Transfer.desPath srcPath destPath) ++ q) = .found l' nd'

/-- Every link of the source stands at its place in the destination already, outside the source. -/
def LinksThere (fs : FS) (srcPath destPath : Str) : Prop :=
  ∀ S nd, fs.symlinkStatus (components srcPath) = .found S nd →
    ∀ r t, fs.get (S ++ r) = some (.link t) →
      ∃ P, fs.locate .make (components (Transfer.desPath srcPath destPath)) = .ok P ∧
        fs.get (P ++ r) = some (.link t) ∧ ¬ S <+: P ++ r

/-- No file of the source goes into the source. -/
def FilesOutside (fs : FS) (srcPath destPath : Str) : Prop :=
  ∀ S nd P, fs.symlinkStatus (components srcPath) = .found S nd →
    fs.locate .make (components (Transfer.desPath srcPath destPath)) = .ok P →
      ∀ r content, fs.get (S ++ r) = some (.file content) → ¬ S <+: P ++ r

/-! ## Success -/

/-- The transfer ended with the status for success. -/
def Transfer.Succeeded (t : Transfer) : Prop := t.status = InternalOperErrors.success.code

instance (t : Transfer) : Decidable t.Succeeded := inferInstanceAs (Decidable (_ = _))

namespace Transfer

variable {os : Os} {fs : FS} {srcPath destPath : Str} {overwrite : Bool}

theorem not_succeeded_refused {fs₁ : FS} {e : InternalOperErrors}
    (h : prepare os fs srcPath destPath overwrite = (fs₁, .error e)) : ¬ (refused srcPath destPath e).Succeeded := by
  intro hs
  have hneg := prepare_error_code h
  rw [show e.code = InternalOperErrors.success.code from hs] at hneg
  exact absurd hneg (by decide)

theorem outcome_eq_success {threw : Bool} (h : (outcome threw).code = InternalOperErrors.success.code) : threw = false := by
  cases threw with
  | false => rfl
  | true => exact absurd h (by decide)

/-- A copy that succeeded got past its checks, and nothing was thrown. -/
theorem copy_succeeded (h : (InternalCopy.init os fs srcPath destPath overwrite).2.Succeeded) :
    ∃ fs₁ dest, prepare os fs srcPath destPath overwrite = (fs₁, .ok dest) ∧
      (fs₁.copy os.copyFault os.depth overwrite (components srcPath) (components dest)).2 = false ∧
      (InternalCopy.init os fs srcPath destPath overwrite).1 =
        (fs₁.copy os.copyFault os.depth overwrite (components srcPath) (components dest)).1 := by
  unfold InternalCopy.init at h ⊢
  split at h
  case h_1 hp => exact absurd h (not_succeeded_refused hp)
  case h_2 fs₁ dest hp =>
    rw [hp]
    exact ⟨fs₁, dest, rfl, outcome_eq_success h, rfl⟩

/-- A move that succeeded was a copy that did, and a removal that went through. -/
theorem move_succeeded (h : (InternalMove.init os fs srcPath destPath overwrite).2.Succeeded) :
    (InternalCopy.init os fs srcPath destPath overwrite).2.Succeeded ∧
      ((InternalCopy.init os fs srcPath destPath overwrite).1.removeAll os.stuck (components srcPath)).2 = false ∧
      (InternalMove.init os fs srcPath destPath overwrite).1 =
        ((InternalCopy.init os fs srcPath destPath overwrite).1.removeAll os.stuck (components srcPath)).1 := by
  unfold InternalMove.init at h ⊢
  unfold InternalCopy.init
  split at h
  case h_1 hp => exact absurd h (not_succeeded_refused hp)
  case h_2 fs₁ dest hp =>
    dsimp only at h ⊢
    generalize fs₁.copy os.copyFault os.depth overwrite (components srcPath) (components dest) = copied at h ⊢
    cases hr : (copied.1.removeAll os.stuck (components srcPath)).2 with
    | true => simp [Succeeded, sized, hr, InternalOperErrors.code] at h
    | false => exact ⟨by simpa [Succeeded, sized, hr] using h, rfl, rfl⟩

/-! ## The place of the source -/

variable {fs₁ : FS} {dest : Str} {P : Loc}

/-- The destination of a source whose place can be told is a directory. -/
theorem dir_of_place (hsrc : validateInternalPath fs srcPath = true) (hd : validateInternalPath fs destPath = true)
    (hP : fs.locate .make (components (desPath srcPath destPath)) = .ok P) :
    ∃ L, fs.status (components destPath) = .found L .dir := by
  rw [components_desPath (validated hsrc).1 (validated hd).2.1] at hP
  exact FS.dir_of_locate hP (by simp)

/-- Where the place of the source is free its path finds nothing. -/
theorem Prepared.absent (hp : Prepared os fs srcPath destPath overwrite fs₁ dest)
    (hP : fs.locate .make (components (desPath srcPath destPath)) = .ok P) (hnone : fs.get P = none) :
    fs.status (components (desPath srcPath destPath)) = .absent := by
  cases hlook : fs.status (components (desPath srcPath destPath)) with
  | absent => rfl
  | failed => exact absurd hlook hp.resolves
  | found l nd =>
    obtain rfl := Except.ok.inj (hP.symm.trans (FS.make_of_status hlook))
    cases hnone.symm.trans (FS.look_found.1 hlook).2

/-- What is there already is replaced only if it may be. -/
theorem Prepared.free (hp : Prepared os fs srcPath destPath overwrite fs₁ dest)
    (hP : fs.locate .make (components (desPath srcPath destPath)) = .ok P) : overwrite = true ∨ fs.get P = none := by
  cases hget : fs.get P with
  | none => exact .inr rfl
  | some nd => exact .inl (hp.replaces P nd (FS.status_of_make hP hget))

/-- The checks change at most the place of the source. -/
theorem Prepared.get (hp : Prepared os fs srcPath destPath overwrite fs₁ dest)
    (hP : fs.locate .make (components (desPath srcPath destPath)) = .ok P) {m : Loc} (hm : m ≠ P) :
    fs₁.get m = fs.get m := by
  by_cases hmade : fs.isDir (components srcPath) = true ∧ fs.status (components (desPath srcPath destPath)) = .absent
  · obtain ⟨L, hL⟩ := dir_of_place hp.source hp.destination hP
    have hfst := congrArg Prod.fst (hp.made hmade.1 hmade.2)
    rw [components_desPath (validated hp.source).1 (validated hp.destination).2.1] at hfst hP
    rw [← show _ = fs₁ from hfst]
    exact FS.createDirectories_get_of_ne hL hP hm
  · rw [hp.same]
    by_cases hdir : fs.isDir (components srcPath) = true
    · exact .inr fun e => hmade ⟨hdir, e⟩
    · exact .inl (by simpa using hdir)

/-- A missing target directory was made where its path leads. -/
theorem Prepared.missing (hp : Prepared os fs srcPath destPath overwrite fs₁ dest)
    (hdir : fs.isDir (components srcPath) = true) (hP : fs.locate .make (components (desPath srcPath destPath)) = .ok P)
    (hnone : fs.get P = none) :
    fs.MadeAt (components (desPath srcPath destPath)) P ∧
      fs₁.status (components (desPath srcPath destPath)) = .found P .dir := by
  have habs := hp.absent hP hnone
  have hmade := hp.made hdir habs
  obtain ⟨L, hL⟩ := dir_of_place hp.source hp.destination hP
  rw [components_desPath (validated hp.source).1 (validated hp.destination).2.1] at hP habs hmade ⊢
  obtain ⟨hmissing, hthere⟩ := FS.made_of_createDirectories hL habs hmade
  have hname := FS.isName_of_missing hL hmissing hP
  have hfree := Job.get_of_symlinkStatus_absent hL hname hmissing
  rw [FS.locate_child hL hname .make (.inr (by simp [hfree])), if_neg (by simp)] at hP
  obtain rfl := Except.ok.inj hP
  exact ⟨FS.Leads.made (.inl hL) hname hfree, hthere hname⟩

end Transfer

/-! ## Delivery -/

section

variable {os : Os} {fs fs₁ fs' : FS} {srcPath destPath dest : Str} {overwrite : Bool} {S P : Loc} {nd : Node}

open Transfer

/-- The copy of a file goes to its place in the destination. -/
theorem delivers_file (hprep : prepare os fs srcPath destPath overwrite = (fs₁, .ok dest))
    (hok : (fs₁.copy os.copyFault os.depth overwrite (components srcPath) (components dest)).2 = false)
    (hP : fs.locate .make (components (desPath srcPath destPath)) = .ok P) {content : List UInt8}
    (hS : fs.symlinkStatus (components srcPath) = .found S (.file content)) :
    (fs₁.copy os.copyFault os.depth overwrite (components srcPath) (components dest)).1.get P = some (.file content) := by
  have hp := prepared hprep
  have hdir : ¬ fs.isDir (components srcPath) = true := by
    rw [isDir_iff]
    rintro ⟨l, hl⟩
    cases (FS.status_of_symlinkStatus hS (by simp)).symm.trans hl
  obtain rfl := hp.same (.inl (by simpa using hdir))
  have hroom := hp.free hP
  obtain ⟨L, hL⟩ := dir_of_place hp.source hp.destination hP
  rw [components_desPath (validated hp.source).1 (validated hp.destination).2.1] at hP
  rw [hp.target, if_neg hdir] at hok ⊢
  have hthrew : (Job.copy overwrite os.depth (components srcPath) (components destPath)
      (Job.start fs₁ os.copyFault)).threw = false := (Bool.or_eq_false_iff.1 hok).1
  change (Job.copy overwrite os.depth (components srcPath) (components destPath)
      (Job.start fs₁ os.copyFault)).fs.get P = _
  have hstep := Job.copyStep overwrite os.depth (components srcPath) (components destPath) (Job.start fs₁ os.copyFault)
  generalize Job.copy overwrite os.depth (components srcPath) (components destPath) (Job.start fs₁ os.copyFault) = j
    at hstep hthrew
  cases hstep with
  | failed => cases hthrew
  | skipped s t found => cases found.symm.trans hS
  | into s c found l target =>
    obtain ⟨rfl, hc⟩ := FS.Lookup.found.inj (found.symm.trans hS)
    cases hc
    rw [components_getLastD (validated hp.source).1] at hthrew ⊢
    exact Job.copyFile_arrives (j := Job.start fs₁ os.copyFault) hP hroom hthrew
  | file s c found target =>
    -- through a link to a directory nothing is copied
    have hstatus : (Job.start fs₁ os.copyFault).fs.status (components destPath) = .found L .dir := hL
    simp only [Job.copyFile, hstatus, Job.fail] at hthrew
    cases hthrew
  | unmade s found => cases found.symm.trans hS
  | dir s found => cases found.symm.trans hS

/-- A directory is copied to its place in the destination. -/
theorem delivers_dir (hprep : prepare os fs srcPath destPath overwrite = (fs₁, .ok dest))
    (hok : (fs₁.copy os.copyFault os.depth overwrite (components srcPath) (components dest)).2 = false)
    (hP : fs.locate .make (components (desPath srcPath destPath)) = .ok P)
    (hS : fs.symlinkStatus (components srcPath) = .found S .dir)
    (hu : fs.Untangled S P (components (desPath srcPath destPath))) :
    fs.Delivers (fs₁.copy os.copyFault os.depth overwrite (components srcPath) (components dest)).1 S P := by
  have hp := prepared hprep
  have hmade := madeDirs_prepare os fs srcPath destPath overwrite
  rw [hprep] at hmade
  have hdir : fs.isDir (components srcPath) = true := isDir_iff.2 ⟨S, FS.status_of_symlinkStatus hS (by simp)⟩
  have hcarries : FS.Carries fs S P (components (desPath srcPath destPath)) fs fs₁ := by
    refine ⟨hmade.grew.extends_, fun m => ?_⟩
    by_cases hm : m = P
    · subst hm
      refine (hmade m).imp_right fun ⟨hnone, hthere⟩ => .inl ⟨hnone, hthere, [], .start ?_, ?_⟩
      · rw [List.append_nil, (FS.look_found.1 hS).2]
      · rw [List.append_nil]
        exact (hp.missing hdir hP hnone).1
    · exact .inl (hp.get hP hm)
  have htarget : dest = desPath srcPath destPath := by rw [hp.target, if_pos hdir]
  rw [htarget] at hok ⊢
  cases hget : fs.get P with
  | none =>
    obtain ⟨hplace, hthere⟩ := hp.missing hdir hP hget
    exact FS.delivers_untangled hS hu (hp.free hP) hcarries hthere (fun _ => .inr hplace) hok
  | some nd =>
    have hthere := FS.status_of_make hP hget
    obtain ⟨nd', hthere', hkind⟩ := FS.look_of_extends hmade.grew.extends_ (by decide) hthere
    refine FS.delivers_untangled hS hu (hp.free hP) hcarries hthere' ?_ hok
    rintro rfl
    rw [Node.kind_eq_dir.1 hkind.symm] at hthere
    exact .inl hthere

/-- A copy that succeeded and delivers had room. -/
theorem room_of_delivered (hok : (InternalCopy.init os fs srcPath destPath overwrite).2.Succeeded)
    (h : Delivered fs (InternalCopy.init os fs srcPath destPath overwrite).1 srcPath destPath) : HasRoom fs srcPath destPath := by
  obtain ⟨fs₁, dest, hprep, hcopied, hfs⟩ := copy_succeeded hok
  have hp := prepared hprep
  have hgrew := grew_copy os fs srcPath destPath overwrite
  have hmade := madeDirs_prepare os fs srcPath destPath overwrite
  rw [hprep] at hmade
  intro S nd hS
  refine ⟨fun r content hr => ?_, fun P hP r content hr => ?_⟩
  · obtain ⟨P, hP, -⟩ := h S nd hS r content hr
    exact ⟨P, hP⟩
  obtain ⟨P', hP', hget⟩ := h S nd hS r content hr
  obtain rfl := Except.ok.inj (hP.symm.trans hP')
  refine ⟨fun hdir => ?_, fun hlinked => ?_, fun q hq => ?_⟩
  · cases hget.symm.trans (hgrew.extends_.dir hdir)
  · obtain ⟨q, t, hq, ht⟩ := hlinked
    have hlink := hgrew.extends_.link ht
    by_cases e : q = r
    · subst e
      cases hlink.symm.trans hget
    · have hdir := FS.get_of_prefix (InternalCopy.init os fs srcPath destPath overwrite).1
        ((List.prefix_append_right_inj P).2 hq) (by simpa using e) (hget ▸ Option.some_ne_none _)
      cases hlink.symm.trans hdir
  · -- something stands where the path of the directory leads, and it is no file
    obtain rfl : nd = .dir := by
      by_contra hnd
      have hSget := (FS.look_found.1 hS).2
      obtain rfl := FS.eq_nil_of_leaf hSget hnd hq
      rw [List.append_nil, hSget] at hq
      exact hnd (Option.some.inj hq)
    have hdir : fs.isDir (components srcPath) = true := isDir_iff.2 ⟨S, FS.status_of_symlinkStatus hS (by simp)⟩
    have hstands := FS.stands_of_copied hS hmade.grew.extends_ hcopied hq
    rw [← hfs, hp.target, if_pos hdir] at hstands
    exact hstands.not_madeAt hgrew.extends_ hget

/-- A copy that succeeded delivers, if there was room. -/
theorem delivered_of_room (hok : (InternalCopy.init os fs srcPath destPath overwrite).2.Succeeded)
    (hroom : HasRoom fs srcPath destPath) (hu : Untangled fs srcPath destPath) :
    Delivered fs (InternalCopy.init os fs srcPath destPath overwrite).1 srcPath destPath := by
  obtain ⟨fs₁, dest, hprep, hcopied, hfs⟩ := copy_succeeded hok
  intro S nd hS r content hr
  obtain ⟨P, hP⟩ := (hroom S nd hS).1 r content hr
  have hSget := (FS.look_found.1 hS).2
  rw [hfs]
  refine ⟨P, hP, ?_⟩
  by_cases hnd : nd = .dir
  · subst hnd
    exact delivers_dir hprep hcopied hP hS (hu S P hS hP) r content hr
  · obtain rfl := FS.eq_nil_of_leaf hSget hnd hr
    rw [List.append_nil] at hr ⊢
    obtain rfl : nd = .file content := Option.some.inj (hSget.symm.trans hr)
    exact delivers_file hprep hcopied hP hS

/-! ## What a move takes away -/

/-- What a move that succeeded leaves of the copy it made: nothing of the source but its top, if the path ends in a dot. -/
theorem moved_get (hok : (InternalMove.init os fs srcPath destPath overwrite).2.Succeeded)
    (hS : fs.symlinkStatus (components srcPath) = .found S nd) {m : Loc}
    (hm : (InternalCopy.init os fs srcPath destPath overwrite).1.get m ≠ some .dir) :
    (InternalMove.init os fs srcPath destPath overwrite).1.get m =
      if S <+: m then none else (InternalCopy.init os fs srcPath destPath overwrite).1.get m := by
  obtain ⟨-, hremoved, hfs⟩ := move_succeeded hok
  have hgrew := grew_copy os fs srcPath destPath overwrite
  obtain ⟨nd', hS', hk⟩ := FS.look_of_extends hgrew.extends_ (by decide) hS
  have hroot : m ≠ [] := fun e => hm (by rw [e, FS.root])
  rw [hfs, FS.removeAll_done hS' hremoved hroot]
  by_cases hp : S <+: m
  · rw [if_pos hp, if_pos]
    refine ⟨hp, ?_⟩
    -- the path of what is no directory ends in a name
    cases hself : FS.takesSelf (components srcPath) with
    | true => exact .inl rfl
    | false =>
      refine .inr fun e => hm ?_
      have hdots : (components srcPath).getLastD [] = dot ∨ (components srcPath).getLastD [] = dotdot := by
        by_contra h
        rw [not_or] at h
        rw [FS.takesSelf, decide_eq_true h] at hself
        cases hself
      rw [e, (FS.look_found.1 hS').2, FS.dir_of_dots hS' hdots]
  · rw [if_neg hp, if_neg fun h => hp h.1]

/-- What is no directory is there after a move if its copy left it there, outside the source. -/
theorem moved_get_iff (hok : (InternalMove.init os fs srcPath destPath overwrite).2.Succeeded)
    (hS : fs.symlinkStatus (components srcPath) = .found S nd) {m : Loc} {nd' : Node} (hnd : nd' ≠ .dir) :
    (InternalMove.init os fs srcPath destPath overwrite).1.get m = some nd' ↔
      (InternalCopy.init os fs srcPath destPath overwrite).1.get m = some nd' ∧ ¬ S <+: m := by
  constructor
  · intro h
    have hcopied : (InternalCopy.init os fs srcPath destPath overwrite).1.get m = some nd' := by
      rw [(move_succeeded hok).2.2] at h
      exact FS.get_of_removeAll h
    refine ⟨hcopied, fun hp => ?_⟩
    rw [moved_get hok hS (by simp [hcopied, hnd]), if_pos hp] at h
    cases h
  · rintro ⟨hcopied, hp⟩
    rw [moved_get hok hS (by simp [hcopied, hnd]), if_neg hp, hcopied]

/-- A move delivers what its copy does, where that does not go into the source. -/
theorem moved_delivered_iff (hok : (InternalMove.init os fs srcPath destPath overwrite).2.Succeeded) :
    Delivered fs (InternalMove.init os fs srcPath destPath overwrite).1 srcPath destPath ↔
      Delivered fs (InternalCopy.init os fs srcPath destPath overwrite).1 srcPath destPath ∧
        FilesOutside fs srcPath destPath := by
  constructor
  · intro h
    refine ⟨fun S nd hS r content hr => ?_, fun S nd P hS hP r content hr => ?_⟩
    · obtain ⟨P, hP, hget⟩ := h S nd hS r content hr
      exact ⟨P, hP, ((moved_get_iff hok hS (by simp)).1 hget).1⟩
    · obtain ⟨P', hP', hget⟩ := h S nd hS r content hr
      obtain rfl := Except.ok.inj (hP.symm.trans hP')
      exact ((moved_get_iff hok hS (by simp)).1 hget).2
  · rintro ⟨h, hfiles⟩ S nd hS r content hr
    obtain ⟨P, hP, hget⟩ := h S nd hS r content hr
    exact ⟨P, hP, (moved_get_iff hok hS (by simp)).2 ⟨hget, hfiles S nd P hS hP r content hr⟩⟩

/-- A move that delivers the files loses nothing exactly if the links are there already. -/
theorem moved_kept_iff (hok : (InternalMove.init os fs srcPath destPath overwrite).2.Succeeded)
    (hdel : Delivered fs (InternalMove.init os fs srcPath destPath overwrite).1 srcPath destPath) :
    NothingLost fs (InternalMove.init os fs srcPath destPath overwrite).1 srcPath destPath ↔ LinksThere fs srcPath destPath := by
  have hgrew := grew_copy os fs srcPath destPath overwrite
  constructor
  · intro h S nd hS r t hr
    rcases h S nd hS r (.link t) hr (by simp) with hold | ⟨P, hP, hnew⟩
    · exact absurd (List.prefix_append S r) ((moved_get_iff hok hS (by simp)).1 hold).2
    · exact ⟨P, hP, ((moved_get_iff hok hS (by simp)).1 hnew).imp_left (hgrew.links _ t)⟩
  · intro h S nd hS r nd' hr hnd
    cases nd' with
    | dir => exact absurd rfl hnd
    | file content => exact .inr (hdel S nd hS r content hr)
    | link t =>
      obtain ⟨P, hP, hlink, hp⟩ := h S nd hS r t hr
      exact .inr ⟨P, hP, (moved_get_iff hok hS (by simp)).2 ⟨hgrew.extends_.link hlink, hp⟩⟩

/-- A copy that succeeded delivers exactly if there was room, where that is all it needs. -/
theorem copied_iff (hok : (InternalCopy.init os fs srcPath destPath overwrite).2.Succeeded)
    (hu : HasRoom fs srcPath destPath → Untangled fs srcPath destPath) :
    Delivered fs (InternalCopy.init os fs srcPath destPath overwrite).1 srcPath destPath ↔ HasRoom fs srcPath destPath :=
  ⟨room_of_delivered hok, fun hroom => delivered_of_room hok hroom (hu hroom)⟩

/-- What a move that succeeded, delivers and loses nothing has needed. -/
theorem needs_of_moved (hok : (InternalMove.init os fs srcPath destPath overwrite).2.Succeeded)
    (hdel : Delivered fs (InternalMove.init os fs srcPath destPath overwrite).1 srcPath destPath)
    (hkept : NothingLost fs (InternalMove.init os fs srcPath destPath overwrite).1 srcPath destPath) :
    HasRoom fs srcPath destPath ∧ LinksThere fs srcPath destPath ∧ FilesOutside fs srcPath destPath := by
  obtain ⟨hcopied, hfiles⟩ := (moved_delivered_iff hok).1 hdel
  exact ⟨room_of_delivered (move_succeeded hok).1 hcopied, (moved_kept_iff hok hdel).1 hkept, hfiles⟩

theorem moved_iff (hok : (InternalMove.init os fs srcPath destPath overwrite).2.Succeeded)
    (hu : HasRoom fs srcPath destPath → Untangled fs srcPath destPath) :
    (Delivered fs (InternalMove.init os fs srcPath destPath overwrite).1 srcPath destPath ∧
        NothingLost fs (InternalMove.init os fs srcPath destPath overwrite).1 srcPath destPath) ↔
      HasRoom fs srcPath destPath ∧ LinksThere fs srcPath destPath ∧ FilesOutside fs srcPath destPath := by
  refine ⟨fun ⟨hdel, hkept⟩ => needs_of_moved hok hdel hkept, fun ⟨hroom, hlinks, hfiles⟩ => ?_⟩
  have hcopied := delivered_of_room (move_succeeded hok).1 hroom (hu hroom)
  have hdel := (moved_delivered_iff hok).2 ⟨hcopied, hfiles⟩
  exact ⟨hdel, (moved_kept_iff hok hdel).2 hlinks⟩

/-- What puts nothing into its source needs room for the source only. -/
theorem NothingAdded.untangled (h : NothingAdded fs srcPath destPath) (hroom : HasRoom fs srcPath destPath) :
    Untangled fs srcPath destPath := by
  intro S P hS hP
  obtain ⟨hfiles, hdirs⟩ := h S P hS hP
  exact FS.untangled_of_outside ((hroom S .dir hS).2 P hP) hfiles (fun q m hq => (hdirs q hq).1 m)
    fun q l t hq => (hdirs q hq).2 l t

end

/-- What the success of a copy and of a move takes to keep its promise. -/
theorem delivers_iff (os : Os) (fs : FS) (srcPath destPath : Str) (overwrite : Bool) :
    ((InternalCopy.init os fs srcPath destPath overwrite).2.Succeeded →
      let fs' := (InternalCopy.init os fs srcPath destPath overwrite).1
      (Delivered fs fs' srcPath destPath → HasRoom fs srcPath destPath) ∧
      (NothingAdded fs srcPath destPath ∨ Untangled fs srcPath destPath →
        (Delivered fs fs' srcPath destPath ↔ HasRoom fs srcPath destPath))) ∧
    ((InternalMove.init os fs srcPath destPath overwrite).2.Succeeded →
      let fs' := (InternalMove.init os fs srcPath destPath overwrite).1
      let kept := HasRoom fs srcPath destPath ∧ LinksThere fs srcPath destPath ∧ FilesOutside fs srcPath destPath
      (Delivered fs fs' srcPath destPath ∧ NothingLost fs fs' srcPath destPath → kept) ∧
      (NothingAdded fs srcPath destPath ∨ Untangled fs srcPath destPath →
        (Delivered fs fs' srcPath destPath ∧ NothingLost fs fs' srcPath destPath ↔ kept))) := by
  have hu (h : NothingAdded fs srcPath destPath ∨ Untangled fs srcPath destPath) (hroom : HasRoom fs srcPath destPath) :
      Untangled fs srcPath destPath := h.elim (·.untangled hroom) id
  exact ⟨fun hok => ⟨room_of_delivered hok, fun h => copied_iff hok (hu h)⟩,
    fun hok => ⟨fun ⟨hdel, hkept⟩ => needs_of_moved hok hdel hkept, fun h => moved_iff hok (hu h)⟩⟩

/-- A note, and a file and a directory to move it to. -/
def noteAndKeep : FS :=
  FS.ofEntries [(["media".toList], .dir), (["media".toList, "keep".toList], .file [9]), (["tmp".toList], .dir),
    (["tmp".toList, "note".toList], .file [1, 2, 3])] (by decide)

theorem symlinkStatus_note : noteAndKeep.symlinkStatus (components "/tmp/note".toList) =
    .found ["tmp".toList, "note".toList] (.file [1, 2, 3]) := rfl

theorem get_note : noteAndKeep.get ["tmp".toList, "note".toList] = some (.file [1, 2, 3]) :=
  (FS.look_found.1 symlinkStatus_note).2

theorem note_place : noteAndKeep.locate .make (components (Transfer.desPath "/tmp/note".toList "/media".toList)) =
    .ok ["media".toList, "note".toList] := rfl

theorem note_free (r : Loc) : noteAndKeep.get (["media".toList, "note".toList] ++ r) = none := by
  have hnone : noteAndKeep.get ["media".toList, "note".toList] = none := rfl
  exact FS.get_eq_none_below hnone (List.prefix_append _ r)

/-- Below the note stands nothing. -/
theorem note_alone {S r : Loc} {nd nd' : Node} (hS : noteAndKeep.symlinkStatus (components "/tmp/note".toList) = .found S nd)
    (hr : noteAndKeep.get (S ++ r) = some nd') : r = [] ∧ nd' = .file [1, 2, 3] := by
  obtain ⟨rfl, -⟩ := FS.Lookup.found.inj (symlinkStatus_note.symm.trans hS)
  obtain rfl := FS.eq_nil_of_leaf get_note (by simp) hr
  rw [List.append_nil, get_note] at hr
  exact ⟨rfl, (Option.some.inj hr).symm⟩

theorem note_hasRoom : HasRoom noteAndKeep "/tmp/note".toList "/media".toList := by
  refine fun S nd hS => ⟨fun _ _ _ => ⟨_, note_place⟩, fun P hP r content _ => ?_⟩
  obtain rfl := Except.ok.inj (note_place.symm.trans hP)
  refine ⟨fun hd => ?_, fun hlinked => ?_, fun q hq => ?_⟩
  · cases (note_free r).symm.trans hd
  · obtain ⟨q, t, -, ht⟩ := hlinked
    cases (note_free q).symm.trans ht
  · cases (note_alone hS hq).2

theorem note_kept : LinksThere noteAndKeep "/tmp/note".toList "/media".toList ∧
    FilesOutside noteAndKeep "/tmp/note".toList "/media".toList := by
  refine ⟨fun S nd hS r t hr => ?_, fun S nd P hS hP r content hr hp => ?_⟩
  · cases (note_alone hS hr).2
  · obtain ⟨rfl, -⟩ := note_alone hS hr
    obtain ⟨rfl, -⟩ := FS.Lookup.found.inj (symlinkStatus_note.symm.trans hS)
    obtain rfl := Except.ok.inj (note_place.symm.trans hP)
    exact absurd hp (by decide)

/-- Moved into a directory, the note arrives. -/
theorem note_moved :
    Delivered noteAndKeep (InternalMove.init Os.quiet noteAndKeep "/tmp/note".toList "/media".toList false).1
        "/tmp/note".toList "/media".toList ∧
      NothingLost noteAndKeep (InternalMove.init Os.quiet noteAndKeep "/tmp/note".toList "/media".toList false).1
        "/tmp/note".toList "/media".toList := by
  refine (((delivers_iff Os.quiet noteAndKeep "/tmp/note".toList "/media".toList false).2 rfl).2
    (.inl fun S P hS _ => ?_)).2 ⟨note_hasRoom, note_kept⟩
  cases symlinkStatus_note.symm.trans hS

/-- Moved onto a file that may not be overwritten, the note is gone, and the move reports success. -/
theorem note_lost :
    let moved := InternalMove.init Os.quiet noteAndKeep "/tmp/note".toList "/media/keep".toList false
    moved.2.Succeeded ∧ ¬ Delivered noteAndKeep moved.1 "/tmp/note".toList "/media/keep".toList ∧
      ¬ NothingLost noteAndKeep moved.1 "/tmp/note".toList "/media/keep".toList := by
  intro moved
  have hnoplace (P : Loc) :
      noteAndKeep.locate .make (components (Transfer.desPath "/tmp/note".toList "/media/keep".toList)) ≠ .ok P := by
    have hnoent : noteAndKeep.locate .make (components (Transfer.desPath "/tmp/note".toList "/media/keep".toList)) =
        .error .noent := rfl
    rw [hnoent]
    simp
  refine ⟨rfl, fun h => ?_, fun h => ?_⟩
  · obtain ⟨P, hP, -⟩ := h _ _ symlinkStatus_note [] _ get_note
    exact hnoplace P hP
  · rcases h _ _ symlinkStatus_note [] _ get_note (by simp) with hold | ⟨P, hP, -⟩
    · have hgone : moved.1.get ["tmp".toList, "note".toList] = none := rfl
      cases hgone.symm.trans hold
    · exact hnoplace P hP

/-! ## Files that go into the source -/

/-- A folder in a folder of its name, and a file in it of the name of one further in. -/
def folderInFolder : FS :=
  FS.ofEntries [(["tmp".toList], .dir), (["tmp".toList, "d".toList], .dir), (["tmp".toList, "d".toList, "d".toList], .dir),
    (["tmp".toList, "d".toList, "d".toList, "x".toList], .file [2]), (["tmp".toList, "d".toList, "d".toList, "d".toList], .dir),
    (["tmp".toList, "d".toList, "d".toList, "d".toList, "x".toList], .file [1])] (by decide)

/-- The same tree, where the directories list their entries the other way round. -/
def folderInFolder' : FS :=
  { folderInFolder with
    names := folderInFolder.names.reverse
    finite := fun l h => List.mem_reverse.2 (folderInFolder.finite l h) }

def innerFolder : Loc := ["tmp".toList, "d".toList, "d".toList]

theorem delivered_of_entries {fs' : FS} (hall : ∀ m ∈ folderInFolder.names, innerFolder <+: m →
      folderInFolder.get m = some .dir ∨ fs'.get (["tmp".toList, "d".toList] ++ m.drop 3) = folderInFolder.get m) :
    Delivered folderInFolder fs' "/tmp/d/d".toList "/tmp".toList := by
  have hS : folderInFolder.symlinkStatus (components "/tmp/d/d".toList) = .found innerFolder .dir := rfl
  intro S nd hS' r content hr
  obtain ⟨rfl, -⟩ := FS.Lookup.found.inj (hS.symm.trans hS')
  have hmem : innerFolder ++ r ∈ folderInFolder.names := folderInFolder.finite _ (by rw [hr]; simp)
  have hthere := hall (innerFolder ++ r) hmem (List.prefix_append innerFolder r)
  rw [hr, show (innerFolder ++ r).drop 3 = r from rfl] at hthere
  exact ⟨["tmp".toList, "d".toList], rfl, hthere.resolve_left (by simp)⟩

theorem delivered_in_order : Delivered folderInFolder
    (InternalCopy.init Os.quiet folderInFolder "/tmp/d/d".toList "/tmp".toList true).1 "/tmp/d/d".toList "/tmp".toList :=
  delivered_of_entries (by decide +kernel)

theorem not_delivered_in_other_order : ¬ Delivered folderInFolder'
    (InternalCopy.init Os.quiet folderInFolder' "/tmp/d/d".toList "/tmp".toList true).1 "/tmp/d/d".toList "/tmp".toList := by
  intro h
  have hS : folderInFolder'.symlinkStatus (components "/tmp/d/d".toList) = .found innerFolder .dir := by decide +kernel
  have hP : folderInFolder'.locate .make (components (Transfer.desPath "/tmp/d/d".toList "/tmp".toList)) =
      .ok ["tmp".toList, "d".toList] := by decide +kernel
  obtain ⟨P, hP', hget⟩ := h innerFolder .dir hS ["x".toList] [2] (by decide +kernel)
  rw [← Except.ok.inj (hP.symm.trans hP')] at hget
  revert hget
  decide +kernel

/-- Where a copy puts a file of its source over another, the order of the listing decides. -/
theorem order_decides :
    folderInFolder'.get = folderInFolder.get ∧
      (InternalCopy.init Os.quiet folderInFolder "/tmp/d/d".toList "/tmp".toList true).2.Succeeded ∧
      (InternalCopy.init Os.quiet folderInFolder' "/tmp/d/d".toList "/tmp".toList true).2.Succeeded ∧
      Delivered folderInFolder (InternalCopy.init Os.quiet folderInFolder "/tmp/d/d".toList "/tmp".toList true).1
        "/tmp/d/d".toList "/tmp".toList ∧
      ¬ Delivered folderInFolder' (InternalCopy.init Os.quiet folderInFolder' "/tmp/d/d".toList "/tmp".toList true).1
        "/tmp/d/d".toList "/tmp".toList :=
  ⟨rfl, by decide +kernel, by decide +kernel, delivered_in_order, not_delivered_in_other_order⟩

end StorageAccess
