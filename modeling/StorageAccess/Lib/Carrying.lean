import StorageAccess.Lib.Delivery
/-!
# Copies into what is there already

What a copy puts into its target may stand in the source too, and then it is copied
again: `Comes` says what that may be. Where there is room for all of it every file of
a source arrives, although trees overlap and links of the target are followed.
-/

namespace Posix

open FS

namespace FS

/-- The files at and below `S` are at and below `P`, with the content they had. -/
def Delivers (fs fs' : FS) (S P : Loc) : Prop :=
  ∀ r content, fs.get (S ++ r) = some (.file content) → fs'.get (P ++ r) = some (.file content)

/-- A link stands at the place of the entry `r`, or above it in the target. -/
def Crossed (fs : FS) (P r : Loc) : Prop := ∃ r' t, r' <+: r ∧ fs.get (P ++ r') = some (.link t)

/-- What is missing of a path, from a name in a directory on, is made at `m`. -/
def MadeAt (fs : FS) (path : List Name) (m : Loc) : Prop :=
  ∃ p c w l, path = p ++ c :: w ∧ IsName c ∧ fs.status p = .found l .dir ∧ fs.get (l ++ [c]) = none ∧ m = l ++ c :: w

/-- What stands in the source, and what a copy of it may put there: a file whose place is
in the source, and a directory that is made there. -/
inductive Comes (fs : FS) (S P : Loc) (dst : List Name) : Loc → Node → Prop
  | start {r : Loc} {nd : Node} (stands : fs.get (S ++ r) = some nd) : Comes fs S P dst r nd
  | file {q r : Loc} {content : List UInt8} (comes : Comes fs S P dst q (.file content)) (place : P ++ q = S ++ r) :
      Comes fs S P dst r (.file content)
  | dir {q r : Loc} (comes : Comes fs S P dst q .dir) (made : fs.MadeAt (dst ++ q) (S ++ r)) : Comes fs S P dst r .dir

/-- The target has room for the files of `C`: no directory is at the place of one, or
made there, and no link on the way. -/
def RoomFor (fs : FS) (P : Loc) (dst : List Name) (C : Loc → Node → Prop) : Prop :=
  ∀ r content, C r (.file content) →
    fs.get (P ++ r) ≠ some .dir ∧ ¬ fs.Crossed P r ∧ ∀ q, C q .dir → ¬ fs.MadeAt (dst ++ q) (P ++ r)

/-- Whatever comes to stand in the source has room in the target and leaves the files of the
source what they are, and a link at the place of a directory that is not empty leads somewhere. -/
structure Untangled (fs : FS) (S P : Loc) (dst : List Name) : Prop where
  room : fs.RoomFor P dst (fs.Comes S P dst)
  same : ∀ r content content', fs.get (S ++ r) = some (.file content) → fs.Comes S P dst r (.file content') →
    content' = content
  leads : ∀ q c nd l t, fs.Comes S P dst (q ++ [c]) nd → (∀ t, nd ≠ .link t) →
    fs.symlinkStatus (dst ++ q) = .found l (.link t) → ∃ l' nd', fs.status (dst ++ q) = .found l' nd'

/-- A copy that puts nothing into its source needs room for what stands there at the start. -/
theorem untangled_of_outside {fs : FS} {S P : Loc} {dst : List Name}
    (hroom : fs.RoomFor P dst fun r nd => fs.get (S ++ r) = some nd)
    (hfiles : ∀ r content, fs.get (S ++ r) = some (.file content) → ¬ S <+: P ++ r)
    (hdirs : ∀ q m, fs.get (S ++ q) = some .dir → fs.MadeAt (dst ++ q) m → ¬ S <+: m)
    (hlinks : ∀ q l t, fs.get (S ++ q) = some .dir → fs.symlinkStatus (dst ++ q) = .found l (.link t) →
      ∃ l' nd', fs.status (dst ++ q) = .found l' nd') : fs.Untangled S P dst := by
  have hstart {r : Loc} {nd : Node} (h : fs.Comes S P dst r nd) : fs.get (S ++ r) = some nd := by
    induction h with
    | start stands => exact stands
    | file comes place ih => exact absurd (place ▸ List.prefix_append S _) (hfiles _ _ ih)
    | dir comes made ih => exact absurd (List.prefix_append S _) (hdirs _ _ ih made)
  refine ⟨fun r content hr => ?_, fun r content content' h hr => ?_, fun q c nd l t hq hnd hl => ?_⟩
  · obtain ⟨hnodir, hcross, hmade⟩ := hroom r content (hstart hr)
    exact ⟨hnodir, hcross, fun q hq => hmade q (hstart hq)⟩
  · cases h.symm.trans (hstart hr)
    rfl
  · refine hlinks q l t (fs.closed _ c ?_) hl
    rw [List.append_assoc, hstart hq]
    simp

/-- Each place is as it was, or has a directory made for one of the source, or a file of the source that belongs there. -/
structure Carries (fs : FS) (S P : Loc) (dst : List Name) (k k' : FS) : Prop where
  extends_ : Extends k k'
  places : ∀ m, k'.get m = k.get m ∨
    (k.get m = none ∧ k'.get m = some .dir ∧ ∃ q, fs.Comes S P dst q .dir ∧ fs.MadeAt (dst ++ q) m) ∨
    (∃ q content, m = P ++ q ∧ fs.Comes S P dst q (.file content) ∧ k'.get m = some (.file content))

/-- Where a path leads, or will lead once what is missing of it is made. -/
def Leads (fs : FS) (path : List Name) (l : Loc) : Prop := fs.status path = .found l .dir ∨ fs.MadeAt path l

section

variable {fs k k' k'' : FS} {S P : Loc} {dst : List Name}

theorem Carries.refl (fs : FS) (S P : Loc) (dst : List Name) (k : FS) : Carries fs S P dst k k :=
  ⟨Extends.refl k, fun _ => .inl rfl⟩

theorem Carries.trans (h : Carries fs S P dst k k') (h' : Carries fs S P dst k' k'') : Carries fs S P dst k k'' where
  extends_ := h.extends_.trans h'.extends_
  places m := by
    rcases h'.places m with e | ⟨hnone, hdir, hq⟩ | hfile
    · rw [e]
      exact h.places m
    · rcases h.places m with e | ⟨-, hdir', -⟩ | ⟨_, _, -, -, hfile'⟩
      · exact .inr (.inl ⟨e ▸ hnone, hdir, hq⟩)
      · cases hnone.symm.trans hdir'
      · cases hnone.symm.trans hfile'
    · exact .inr (.inr hfile)

/-- What is in the source by now is something that may come there. -/
theorem Carries.comes (h : Carries fs S P dst fs k) {r : Loc} {nd : Node} (hr : k.get (S ++ r) = some nd) :
    fs.Comes S P dst r nd := by
  rcases h.places (S ++ r) with e | ⟨-, hdir, q, hq, hmade⟩ | ⟨q, content, e, hq, hfile⟩
  · exact .start (e ▸ hr)
  · cases hr.symm.trans hdir
    exact .dir hq hmade
  · cases hr.symm.trans hfile
    exact .file hq e.symm

/-- No link is made. -/
theorem Carries.link (h : Carries fs S P dst k k') {m : Loc} {t : Str} (hm : k'.get m = some (.link t)) :
    k.get m = some (.link t) := by
  rcases h.places m with e | ⟨-, hdir, -⟩ | ⟨_, _, -, -, hfile⟩
  · rw [← e, hm]
  · cases hm.symm.trans hdir
  · cases hm.symm.trans hfile

theorem Carries.not_link (h : Carries fs S P dst fs k) {r : Loc} (hr : ¬ fs.Crossed P r) (t : Str) :
    k.get (P ++ r) ≠ some (.link t) := fun hk => hr ⟨r, t, List.prefix_refl r, h.link hk⟩

/-- Where there is room for a file no directory is made. -/
theorem Carries.not_dir (h : Carries fs S P dst fs k) (hroom : fs.RoomFor P dst (fs.Comes S P dst)) {r : Loc}
    {content : List UInt8} (hr : fs.Comes S P dst r (.file content)) : k.get (P ++ r) ≠ some .dir := by
  obtain ⟨hnodir, -, hnone⟩ := hroom r content hr
  intro hk
  rcases h.places (P ++ r) with e | ⟨-, -, q, hq, hmade⟩ | ⟨_, _, -, -, hfile⟩
  · exact hnodir (e ▸ hk)
  · exact hnone q hq hmade
  · cases hk.symm.trans hfile

/-- A file that has arrived stays. -/
theorem Carries.keeps (h : Carries fs S P dst k k') (hu : fs.Untangled S P dst) {r : Loc} {content : List UInt8}
    (hr : fs.get (S ++ r) = some (.file content)) (hk : k.get (P ++ r) = some (.file content)) :
    k'.get (P ++ r) = some (.file content) := by
  rcases h.places (P ++ r) with e | ⟨hnone, -⟩ | ⟨q, content', e, hq, hfile⟩
  · rw [e, hk]
  · cases hk.symm.trans hnone
  · obtain rfl := List.append_cancel_left e
    rw [hfile, hu.same _ _ _ hr hq]

theorem Leads.made {p : List Name} {l : Loc} {c : Name} (h : fs.Leads p l) (hc : IsName c)
    (hnone : fs.get (l ++ [c]) = none) : fs.MadeAt (p ++ [c]) (l ++ [c]) := by
  rcases h with hfound | ⟨p', d, w, l', rfl, hd, hs, hfree, rfl⟩
  · exact ⟨p, c, [], l, rfl, hc, hfound, hnone, rfl⟩
  · exact ⟨p', d, w ++ [c], l', by simp, hd, hs, hfree, by simp⟩

/-- Where a directory will be made nothing is. -/
theorem MadeAt.free {path : List Name} {m : Loc} (h : fs.MadeAt path m) : fs.get m = none := by
  obtain ⟨p, c, w, l, -, -, -, hnone, rfl⟩ := h
  rw [List.append_cons]
  exact get_eq_none_below hnone (List.prefix_append _ w)

/-- A path that leads to a directory now will lead there or does so from the start, where
the links on it do. -/
theorem Leads.child {p : List Name} {l m : Loc} {c : Name} (h : fs.Leads p l) (hk : Carries fs S P dst fs k)
    (hs : k.status p = .found l .dir) (hc : IsName c) (hm : k.status (p ++ [c]) = .found m .dir)
    (hlink : ∀ l t, fs.symlinkStatus (p ++ [c]) = .found l (.link t) → ∃ l' nd', fs.status (p ++ [c]) = .found l' nd') :
    fs.Leads (p ++ [c]) m ∧ ((∀ t, fs.get (l ++ [c]) ≠ some (.link t)) → m = l ++ [c]) := by
  have hplain (hnl : ∀ t, fs.get (l ++ [c]) ≠ some (.link t)) : m = l ++ [c] ∧ k.get (l ++ [c]) = some .dir := by
    have hlook : k.status (p ++ [c]) = _ := look_child hs hc (by decide) (.inr fun t ht => hnl t (hk.link ht))
    rw [hm] at hlook
    split at hlook
    case h_1 nd hget =>
      obtain ⟨rfl, rfl⟩ := FS.Lookup.found.inj hlook
      exact ⟨rfl, hget⟩
    case h_2 => cases hlook
  refine ⟨?_, fun hnl => (hplain hnl).1⟩
  cases hget : fs.get (l ++ [c]) with
  | none =>
    obtain ⟨rfl, -⟩ := hplain (by simp [hget])
    exact .inr (h.made hc hget)
  | some nd =>
    have hfound : fs.status p = .found l .dir := by
      refine h.resolve_right fun hmade => ?_
      cases hget.symm.trans (get_eq_none_below hmade.free (List.prefix_append l [c]))
    have hkeep : fs.symlinkStatus (p ++ [c]) = _ := look_child hfound hc (by decide) (.inl rfl)
    simp only [hget] at hkeep
    by_cases hnl : ∃ t, nd = .link t
    · obtain ⟨t, rfl⟩ := hnl
      obtain ⟨l', nd', hl'⟩ := hlink _ t hkeep
      obtain ⟨nd'', hl'', hkind⟩ := look_of_extends hk.extends_ (by decide) hl'
      obtain ⟨rfl, rfl⟩ := FS.Lookup.found.inj (hm.symm.trans hl'')
      rw [Node.kind_eq_dir.1 hkind.symm] at hl'
      exact .inl hl'
    · rw [not_exists] at hnl
      obtain ⟨rfl, hdir⟩ := hplain fun t ht => hnl t (Option.some.inj (hget.symm.trans ht))
      obtain ⟨nd', hget', hkind⟩ := hk.extends_ _ nd hget
      rw [Option.some.inj (hget'.symm.trans hdir)] at hkind
      rw [Node.kind_eq_dir.1 hkind.symm] at hkeep
      exact .inl (status_of_symlinkStatus hkeep (by simp))

end

end FS

namespace Job

section

variable {fs : FS} {S P : Loc} {src dst : List Name} {overwrite : Bool} {depth : Nat} {r : Loc} {c : Name} {k : Job}

theorem carries_put {m : Loc} {nd : Node} (hfits : k.fs.Fits m nd) (hok : (k.put m nd).threw = false)
    (hplace : (k.fs.get m = none ∧ nd = .dir ∧ ∃ q, fs.Comes S P dst q .dir ∧ fs.MadeAt (dst ++ q) m) ∨
      ∃ q content, m = P ++ q ∧ fs.Comes S P dst q (.file content) ∧ nd = .file content) :
    Carries fs S P dst k.fs (k.put m nd).fs where
  extends_ := (grew_put hfits List.nil_prefix).extends_
  places m' := by
    by_cases e : m' = m
    · subst e
      rw [put_fs hok]
      by_cases hc : k.fs.CanSet m' nd
      · rw [set_get k.fs hc, if_pos rfl]
        rcases hplace with ⟨hnone, rfl, hq⟩ | ⟨q, content, hm, hq, rfl⟩
        · exact .inr (.inl ⟨hnone, rfl, hq⟩)
        · exact .inr (.inr ⟨q, content, hm, hq, rfl⟩)
      · rw [FS.set, dif_neg hc]
        exact .inl rfl
    · exact .inl (put_get_of_ne e)

/-- A series of steps that did not end early does what each of its steps does, if what one did stays done. -/
theorem each_done (R : FS → FS → Prop) (Done : Name → FS → Prop) (k₀ : FS) {step : Name → Job → Job}
    (hrefl : ∀ k, R k k) (htrans : ∀ k k' k'', R k k' → R k' k'' → R k k'')
    (hkeep : ∀ c k k', R k k' → Done c k → Done c k') (ns : List Name)
    (hstep : ∀ c ∈ ns, ∀ k : Job, R k₀ k.fs → (step c k).threw = false → R k.fs (step c k).fs ∧ Done c (step c k).fs)
    (k : Job) (hk : R k₀ k.fs) (hok : (each step ns k).threw = false) :
    R k.fs (each step ns k).fs ∧ ∀ c ∈ ns, Done c (each step ns k).fs := by
  induction ns generalizing k with
  | nil => exact ⟨hrefl _, by simp⟩
  | cons c ns ih =>
    unfold each at hok ⊢
    split at hok
    case isTrue hthrew => rw [hthrew] at hok; cases hok
    case isFalse hthrew =>
    rw [if_neg hthrew]
    have hthis : (step c k).threw = false := by
      by_contra hthis
      rw [each_of_threw (by simpa using hthis)] at hok
      exact hthis hok
    obtain ⟨hfirst, hdone⟩ := hstep c List.mem_cons_self k hk hthis
    obtain ⟨hrest, hall⟩ := ih (fun d hd => hstep d (List.mem_cons_of_mem c hd)) _ (htrans _ _ _ hk hfirst) hok
    refine ⟨htrans _ _ _ hfirst hrest, fun d hd => ?_⟩
    rcases List.mem_cons.1 hd with rfl | hd
    · exact hkeep d _ _ hrest hdone
    · exact hall d hd

/-- The entries of the source are found by their paths. -/
theorem source_found (hsrc : fs.symlinkStatus src = .found S .dir) (hk : Extends fs k.fs) {nd : Node}
    (hr : k.fs.get (S ++ r) = some nd) : k.fs.symlinkStatus (src ++ r) = .found (S ++ r) nd := by
  obtain ⟨nd', hs, hkind⟩ := look_of_extends hk (by decide) hsrc
  rw [Node.kind_eq_dir.1 hkind] at hs
  exact look_below hs hr

/-- What is copied, a link apart, is copied into a directory. -/
theorem parent_of_copy {p : List Name} {s : Loc} {nd : Node} (hs : k.fs.symlinkStatus src = .found s nd)
    (hnd : ∀ t, nd ≠ .link t) (hok : (copy overwrite depth src (p ++ [c]) k).threw = false) :
    ∃ l, k.fs.status p = .found l .dir := by
  have hstep := copyStep overwrite depth src (p ++ [c]) k
  generalize copy overwrite depth src (p ++ [c]) k = k' at hstep hok
  cases hstep with
  | failed => cases hok
  | skipped s t found => exact absurd (FS.Lookup.found.inj (hs.symm.trans found)).2 (hnd t)
  | into s content found l target => exact dir_of_look target
  | file s content found target =>
    unfold copyFile at hok
    split at hok
    case h_1 l c' hfound => exact dir_of_look hfound
    case h_2 =>
      split at hok
      case h_1 l hl => exact dir_of_locate hl (by simp)
      case h_2 => cases hok
    case h_3 => cases hok
  | unmade s found threw =>
    rw [hok] at threw
    cases threw
  | dir s found target nofile n deeper made =>
    cases hkeep : k.fs.symlinkStatus (p ++ [c]) with
    | failed => exact absurd hkeep target
    | found l nd' => exact dir_of_look hkeep
    | absent =>
      rw [ensure, if_pos hkeep] at made
      obtain ⟨-, l, hl⟩ := missing_of_mkdir made
      exact dir_of_locate hl (by simp)

/-- A file is carried to its place. -/
theorem carries_copyFile {content : List UInt8} (hroom : fs.RoomFor P dst (fs.Comes S P dst))
    (hk : Carries fs S P dst fs k.fs) (hr : fs.Comes S P dst (r ++ [c]) (.file content)) (hc : IsName c)
    (hdir : k.fs.status (dst ++ r) = .found (P ++ r) .dir) (hfree : overwrite = true ∨ fs.get P = none)
    (hok : (copyFile overwrite content (S ++ (r ++ [c])) (dst ++ (r ++ [c])) k).threw = false) :
    let k' := copyFile overwrite content (S ++ (r ++ [c])) (dst ++ (r ++ [c])) k
    Carries fs S P dst k.fs k'.fs ∧ ∃ content', fs.Comes S P dst (r ++ [c]) (.file content') ∧
      k'.fs.get (P ++ (r ++ [c])) = some (.file content') := by
  intro k'
  have hnl := hk.not_link (hroom _ _ hr).2.1
  have hnodir := hk.not_dir hroom hr
  rw [← List.append_assoc] at hnl hnodir
  have hlook : k.fs.status (dst ++ r ++ [c]) = _ := look_child hdir hc (by decide) (.inr hnl)
  have hput (hfits : k.fs.Fits (P ++ r ++ [c]) (.file content)) (hthrew : (k.put (P ++ r ++ [c]) (.file content)).threw = false) :
      Carries fs S P dst k.fs (k.put (P ++ r ++ [c]) (.file content)).fs ∧
        ∃ content', fs.Comes S P dst (r ++ [c]) (.file content') ∧
          (k.put (P ++ r ++ [c]) (.file content)).fs.get (P ++ r ++ [c]) = some (.file content') := by
    refine ⟨carries_put hfits hthrew (.inr ⟨r ++ [c], content, List.append_assoc .., hr, rfl⟩), content, hr, ?_⟩
    rw [put_fs hthrew, set_get k.fs (canSet_child (look_found.1 hdir).2 hc fun h => absurd h hnodir), if_pos rfl]
  simp only [k', ← List.append_assoc] at hok ⊢
  unfold copyFile at hok ⊢
  cases hget : k.fs.get (P ++ r ++ [c]) with
  | none =>
    have hmake : k.fs.locate .make (dst ++ r ++ [c]) = .ok (P ++ r ++ [c]) := by
      rw [locate_child hdir hc .make (.inr hnl), if_neg (by simp)]
    simp only [hlook, hget, hmake] at hok ⊢
    exact hput (fits_free hget (by simp)) hok
  | some nd =>
    cases nd with
    | link t => exact absurd hget (hnl t)
    | dir => exact absurd hget hnodir
    | file old =>
      simp only [hlook, hget] at hok ⊢
      split at hok
      case isTrue => cases hok
      case isFalse hself =>
      rw [if_neg hself]
      split at hok
      case isTrue hover =>
        rw [if_pos hover]
        exact hput (fits_file hget) hok
      case isFalse hover =>
        -- what is skipped was copied before
        rw [if_neg hover, hget]
        have hnone := get_eq_none_below (hfree.resolve_left hover) (List.prefix_append P (r ++ [c]))
        rw [List.append_assoc] at hget
        refine ⟨Carries.refl .., old, ?_, rfl⟩
        rcases hk.places (P ++ (r ++ [c])) with e | ⟨-, hmade, -⟩ | ⟨q, content', e, hq, hfile⟩
        · cases (hnone.symm.trans e.symm).trans hget
        · cases hmade.symm.trans hget
        · obtain rfl := List.append_cancel_left e
          cases hfile.symm.trans hget
          exact hq

/-- A directory of the source has one at its place, there or made. -/
theorem carries_ensure {l : Loc} (hk : Carries fs S P dst fs k.fs) (hr : fs.Comes S P dst (r ++ [c]) .dir) (hc : IsName c)
    (hdir : k.fs.status (dst ++ r) = .found l .dir) (hleads : fs.Leads (dst ++ r) l)
    (hok : (k.ensure (dst ++ (r ++ [c]))).threw = false) :
    Carries fs S P dst k.fs (k.ensure (dst ++ (r ++ [c]))).fs := by
  rw [← List.append_assoc] at hok ⊢
  unfold ensure at hok ⊢
  split at hok
  case isFalse h =>
    rw [if_neg h]
    exact Carries.refl ..
  case isTrue habs =>
    rw [if_pos habs]
    have hnone := get_of_symlinkStatus_absent hdir hc habs
    have hmake : k.fs.locate .make (dst ++ r ++ [c]) = .ok (l ++ [c]) := by
      rw [locate_child hdir hc .make (.inr (by simp [hnone])), if_neg (by simp)]
    have hmkdir : k.mkdir (dst ++ r ++ [c]) = k.put (l ++ [c]) .dir := by simp only [mkdir, habs, hmake]
    rw [hmkdir] at hok ⊢
    refine carries_put (fits_free hnone (by simp)) hok (.inl ⟨hnone, rfl, r ++ [c], hr, ?_⟩)
    rw [← List.append_assoc]
    refine hleads.made hc ?_
    by_contra hthere
    obtain ⟨nd, hnd⟩ := Option.ne_none_iff_exists'.1 hthere
    obtain ⟨nd', hnd', -⟩ := hk.extends_ _ nd hnd
    cases hnone.symm.trans hnd'

/-- Where the path of the entry `r` leads it led from the start, or what was missing of it was made. -/
def Way (fs : FS) (P : Loc) (dst : List Name) (k : FS) (r : Loc) : Prop :=
  ∀ l, k.status (dst ++ r) = .found l .dir → fs.Leads (dst ++ r) l ∧ (¬ fs.Crossed P r → l = P ++ r)

theorem not_crossed_above {t : Loc} (h : ¬ fs.Crossed P (r ++ t)) : ¬ fs.Crossed P r := by
  rintro ⟨r', t', hp, ht⟩
  exact h ⟨r', t', hp.trans (List.prefix_append r t), ht⟩

/-- The way goes on to an entry at whose place no link dangles. -/
theorem Way.below {k : FS} {m : Loc} (hway : Way fs P dst k r) (hm : k.status (dst ++ r) = .found m .dir)
    (hk : Carries fs S P dst fs k) (hc : IsName c)
    (hlink : ∀ l t, fs.symlinkStatus (dst ++ (r ++ [c])) = .found l (.link t) →
      ∃ l' nd', fs.status (dst ++ (r ++ [c])) = .found l' nd') : Way fs P dst k (r ++ [c]) := by
  intro l hl
  obtain ⟨hleads, hplace⟩ := hway m hm
  rw [← List.append_assoc] at hl hlink ⊢
  obtain ⟨hl', hplain⟩ := hleads.child hk hm hc hl hlink
  refine ⟨hl', fun hcross => ?_⟩
  obtain rfl := hplace (not_crossed_above hcross)
  rw [hplain fun t ht => hcross ⟨r ++ [c], t, List.prefix_refl _, by rwa [← List.append_assoc]⟩, List.append_assoc]

/-- The files of the source at and below the entry `r` are at their places. -/
def Arrived (fs : FS) (S P r : Loc) (k : FS) : Prop :=
  ∀ q content, fs.get (S ++ (r ++ q)) = some (.file content) → k.get (P ++ (r ++ q)) = some (.file content)

theorem Arrived.keeps {k k' : FS} (h : Arrived fs S P r k) (hu : fs.Untangled S P dst) (hk : Carries fs S P dst k k') :
    Arrived fs S P r k' := fun q content hq => hk.keeps hu hq (h q content hq)

/-- The files of a directory have arrived when those of its entries have. -/
theorem arrived_of_entries {k k' : FS} (hk : Extends fs k) (hdir : k.get (S ++ r) = some .dir)
    (h : ∀ c ∈ k.children (S ++ r), Arrived fs S P (r ++ [c]) k') : Arrived fs S P r k' := by
  intro q content hq
  cases q with
  | nil =>
    rw [List.append_nil] at hq
    obtain ⟨_, hthere⟩ := hk.file hq
    cases hdir.symm.trans hthere
  | cons c q =>
    rw [List.append_cons] at hq ⊢
    refine h c (mem_children.2 fun hnone => ?_) q content hq
    obtain ⟨_, hthere⟩ := hk.file hq
    rw [← List.append_assoc, ← List.append_assoc, get_eq_none_below hnone (List.prefix_append _ q)] at hthere
    cases hthere

/-- What is no directory holds no other file than itself. -/
theorem arrived_of_leaf {k k' : FS} {nd : Node} (hk : Extends fs k) (hr : k.get (S ++ r) = some nd) (hnd : nd ≠ .dir)
    (h : ∀ content, fs.get (S ++ r) = some (.file content) → k'.get (P ++ r) = some (.file content)) :
    Arrived fs S P r k' := by
  intro q content hq
  obtain ⟨_, hthere⟩ := hk.file hq
  obtain rfl : q = [] := by
    rw [← List.append_assoc] at hthere
    exact eq_nil_of_leaf hr hnd hthere
  rw [List.append_nil] at hq ⊢
  exact h content hq

/-- A copy that goes through carries the source to its place, and every file of it arrives. -/
theorem carries_copy (hsrc : fs.symlinkStatus src = .found S .dir) (hu : fs.Untangled S P dst)
    (hfree : overwrite = true ∨ fs.get P = none) (hk : Carries fs S P dst fs k.fs) {nd : Node}
    (hr : k.fs.get (S ++ (r ++ [c])) = some nd) (hway : (∀ t, nd ≠ .link t) → Way fs P dst k.fs r)
    (hok : (copy overwrite depth (src ++ (r ++ [c])) (dst ++ (r ++ [c])) k).threw = false) :
    Carries fs S P dst k.fs (copy overwrite depth (src ++ (r ++ [c])) (dst ++ (r ++ [c])) k).fs ∧
      Arrived fs S P (r ++ [c]) (copy overwrite depth (src ++ (r ++ [c])) (dst ++ (r ++ [c])) k).fs := by
  induction depth using Nat.strong_induction_on generalizing r c k nd with
  | _ depth ih =>
  have hS := source_found hsrc hk.extends_ hr
  have hcomes := hk.comes hr
  have hc : IsName c := by
    rw [← List.append_assoc] at hr
    exact k.fs.named _ c (hr ▸ Option.some_ne_none nd)
  have hparent (hnl : ∀ t, nd ≠ .link t) : ∃ l, k.fs.status (dst ++ r) = .found l .dir :=
    parent_of_copy (c := c) hS hnl (by rwa [List.append_assoc])
  have hstep := copyStep overwrite depth (src ++ (r ++ [c])) (dst ++ (r ++ [c])) k
  generalize copy overwrite depth (src ++ (r ++ [c])) (dst ++ (r ++ [c])) k = k' at hstep hok hparent
  cases hstep with
  | failed => cases hok
  | skipped s t found =>
    obtain ⟨rfl, rfl⟩ := FS.Lookup.found.inj (hS.symm.trans found)
    refine ⟨Carries.refl .., arrived_of_leaf hk.extends_ hr (by simp) fun content h => ?_⟩
    obtain ⟨_, hthere⟩ := hk.extends_.file h
    cases hr.symm.trans hthere
  | into s content found l target =>
    -- no directory is at the place of a file
    obtain ⟨rfl, rfl⟩ := FS.Lookup.found.inj (hS.symm.trans found)
    obtain ⟨m, hm⟩ := hparent (by simp)
    obtain rfl := (hway (by simp) m hm).2 (not_crossed_above (hu.room _ _ hcomes).2.1)
    have hkeep : k.fs.symlinkStatus (dst ++ r ++ [c]) = _ := look_child hm hc (by decide) (.inl rfl)
    rw [List.append_assoc, List.append_assoc, target] at hkeep
    split at hkeep
    case h_2 => cases hkeep
    case h_1 nd hget =>
      obtain ⟨-, rfl⟩ := FS.Lookup.found.inj hkeep
      exact absurd hget (hk.not_dir hu.room hcomes)
  | file s content found =>
    obtain ⟨rfl, rfl⟩ := FS.Lookup.found.inj (hS.symm.trans found)
    obtain ⟨m, hm⟩ := hparent (by simp)
    obtain rfl := (hway (by simp) m hm).2 (not_crossed_above (hu.room _ _ hcomes).2.1)
    obtain ⟨hcarries, content', hcomes', hthere⟩ := carries_copyFile hu.room hk hcomes hc hm hfree hok
    refine ⟨hcarries, arrived_of_leaf hk.extends_ hr (by simp) fun content₀ h => ?_⟩
    rw [hthere, hu.same _ _ _ h hcomes']
  | unmade s found threw =>
    rw [hok] at threw
    cases threw
  | dir s found target nofile n deeper made =>
    obtain ⟨rfl, rfl⟩ := FS.Lookup.found.inj (hS.symm.trans found)
    obtain ⟨m, hm⟩ := hparent (by simp)
    have hleads := hway (by simp) m hm
    have hmade := carries_ensure hk hcomes hc hm hleads.1 made
    obtain ⟨hall, hdone⟩ := each_done (Carries fs S P dst) (fun d t => Arrived fs S P (r ++ [c] ++ [d]) t) _
      (Carries.refl fs S P dst) (fun _ _ _ => Carries.trans) (fun d t t' ht hd => hd.keeps hu ht) _
      (fun d hd k₁ hk₁ hok₁ => by
        have hk₁' := hmade.trans hk₁
        obtain ⟨nd₀, hnd₀⟩ := Option.ne_none_iff_exists'.1 (mem_children.1 hd)
        obtain ⟨nd₁, hnd₁, -⟩ := hk₁.extends_ _ nd₀ hnd₀
        rw [List.append_assoc] at hnd₁
        rw [List.append_assoc src, List.append_assoc dst] at hok₁ ⊢
        have hm₁ := status_dir_of_extends hk₁'.extends_ hm
        have hway₁ : Way fs P dst k₁.fs r := fun l hl => by
          obtain ⟨rfl, -⟩ := FS.Lookup.found.inj (hm₁.symm.trans hl)
          exact hleads
        exact ih n (by omega) (hk.trans hk₁') hnd₁ (fun hnl => hway₁.below hm₁ (hk.trans hk₁') hc fun l t =>
          hu.leads _ d nd₁ l t ((hk.trans hk₁').comes hnd₁) hnl) hok₁) _ (Carries.refl ..) hok
    exact ⟨hmade.trans hall, arrived_of_entries (hk.trans hmade).extends_ (hmade.extends_.dir hr) hdone⟩

end

end Job

namespace FS

/-- Something that is no file stands where a path leads. -/
def Stands (fs : FS) (path : List Name) : Prop := ∃ l nd, fs.symlinkStatus path = .found l nd ∧ ∀ content, nd ≠ .file content

theorem Stands.extends {fs fs' : FS} {path : List Name} (h : fs.Stands path) (hext : Extends fs fs') : fs'.Stands path := by
  obtain ⟨l, nd, hl, hnd⟩ := h
  obtain ⟨nd', hl', hkind⟩ := look_of_extends hext (by decide) hl
  refine ⟨l, nd', hl', ?_⟩
  rintro content rfl
  cases nd with
  | file c => exact hnd c rfl
  | dir | link => cases hkind

/-- No file is where a directory was to be made, if its path leads to none. -/
theorem Stands.not_madeAt {fs fs' : FS} {path : List Name} {m : Loc} {content : List UInt8} (h : fs'.Stands path)
    (hext : Extends fs fs') (hm : fs'.get m = some (.file content)) : ¬ fs.MadeAt path m := by
  rintro ⟨p, c, w, l, rfl, -, hs, -, rfl⟩
  obtain ⟨l', nd, hl, hnd⟩ := h
  obtain ⟨-, rfl⟩ := FS.Lookup.found.inj (hl.symm.trans (look_under (status_dir_of_extends hext hs) hm))
  exact hnd content rfl

end FS

namespace Job

/-- Where a directory could be made one is found. -/
theorem symlinkStatus_mkdir {j : Job} {p : List Name} (hok : (j.mkdir p).threw = false) :
    ∃ l, (j.mkdir p).fs.symlinkStatus p = .found l .dir := by
  obtain ⟨habs, l, hl⟩ := missing_of_mkdir hok
  rcases List.eq_nil_or_concat p with rfl | ⟨q, c, rfl⟩
  · have hroot : j.fs.symlinkStatus [] = .found [] .dir := look_found.2 ⟨rfl, j.fs.root⟩
    cases habs.symm.trans hroot
  rw [List.concat_eq_append] at habs hl hok ⊢
  obtain ⟨m, hm⟩ := dir_of_locate hl (by simp)
  have hc := isName_of_missing hm habs hl
  have hmade := (look_found.1 (status_mkdir hm hc habs hok)).2
  have hdir := status_dir_of_extends (grew_mkdir (D := []) (j := j) (p := q ++ [c]) fun _ _ => List.nil_prefix).extends_ hm
  exact ⟨m ++ [c], by rw [symlinkStatus, look_child hdir hc (by decide) (.inl rfl), hmade]⟩

theorem stands_ensure {k : Job} {p : List Name} (hok : (k.ensure p).threw = false) (hfound : k.fs.symlinkStatus p ≠ .failed)
    (hfile : ∀ l c, k.fs.symlinkStatus p ≠ .found l (.file c)) : (k.ensure p).fs.Stands p := by
  unfold ensure at hok ⊢
  split at hok
  case isTrue habs =>
    rw [if_pos habs]
    obtain ⟨l, hl⟩ := symlinkStatus_mkdir hok
    exact ⟨l, .dir, hl, by simp⟩
  case isFalse habs =>
    rw [if_neg habs]
    cases hkeep : k.fs.symlinkStatus p with
    | absent => exact absurd hkeep habs
    | failed => exact absurd hkeep hfound
    | found l nd =>
      refine ⟨l, nd, hkeep, ?_⟩
      rintro content rfl
      exact hfile l content hkeep

/-- After a copy that went through, something stands where the path of each directory leads. -/
theorem stands_copy {fs : FS} {S : Loc} {src dst : List Name} (overwrite : Bool) (hsrc : fs.symlinkStatus src = .found S .dir)
    {depth : Nat} {r : Loc} {k : Job} (hk : Extends fs k.fs)
    (hok : (copy overwrite depth (src ++ r) (dst ++ r) k).threw = false) (q : Loc) (hq : r <+: q)
    (hdir : fs.get (S ++ q) = some .dir) : (copy overwrite depth (src ++ r) (dst ++ r) k).fs.Stands (dst ++ q) := by
  induction depth using Nat.strong_induction_on generalizing r k with
  | _ depth ih =>
  have hr : fs.get (S ++ r) = some .dir := by
    by_cases e : r = q
    · rw [e, hdir]
    · exact fs.get_of_prefix ((List.prefix_append_right_inj S).2 hq) (by simpa using e) (by simp [hdir])
  have hS := source_found hsrc hk (hk.dir hr)
  have hstep := copyStep overwrite depth (src ++ r) (dst ++ r) k
  generalize copy overwrite depth (src ++ r) (dst ++ r) k = k' at hstep hok
  cases hstep with
  | failed => cases hok
  | skipped s t found => cases hS.symm.trans found
  | into s content found => cases hS.symm.trans found
  | file s content found => cases hS.symm.trans found
  | unmade s found threw =>
    rw [hok] at threw
    cases threw
  | dir s found target nofile n deeper made =>
    obtain ⟨rfl, -⟩ := FS.Lookup.found.inj (hS.symm.trans found)
    have hthere := stands_ensure made target nofile
    have hmade : Extends k.fs (k.ensure (dst ++ r)).fs := (grew_ensure (D := []) fun _ _ => List.nil_prefix).extends_
    obtain ⟨hall, hdone⟩ := each_done Extends (fun d t => r ++ [d] <+: q → t.Stands (dst ++ q))
      (k.ensure (dst ++ r)).fs Extends.refl (fun _ _ _ => Extends.trans) (fun d t t' ht hd hq => (hd hq).extends ht) _
      (fun d hd k₁ hk₁ hok₁ => by
        refine ⟨(grew_copy (D := []) overwrite n _ _ k₁ (.inl rfl) (.inl rfl)).extends_, fun hq => ?_⟩
        rw [List.append_assoc src, List.append_assoc dst] at hok₁ ⊢
        exact ih n (by omega) ((hk.trans hmade).trans hk₁) hok₁ hq) _ (Extends.refl _) hok
    obtain ⟨w, rfl⟩ := hq
    cases w with
    | nil =>
      rw [List.append_nil]
      exact hthere.extends hall
    | cons d w =>
      refine hdone d (mem_children.2 ?_) ⟨w, by simp⟩
      intro hnone
      obtain ⟨nd, hnd, -⟩ := (hk.trans hmade) _ _ hdir
      rw [List.append_cons, ← List.append_assoc, ← List.append_assoc,
        get_eq_none_below hnone (List.prefix_append _ w)] at hnd
      cases hnd

end Job

namespace FS

variable {fs k : FS} {fault : Option Fault} {depth : Nat} {overwrite : Bool} {src dst : List Name} {S P : Loc}

/-- Where there is room for all that comes to stand in the source, every file of it arrives. -/
theorem delivers_untangled (hsrc : fs.symlinkStatus src = .found S .dir) (hu : fs.Untangled S P dst)
    (hfree : overwrite = true ∨ fs.get P = none) (hk : Carries fs S P dst fs k) {top : Node} (hdst : k.status dst = .found P top)
    (hleads : top = .dir → fs.Leads dst P) (hok : (k.copy fault depth overwrite src dst).2 = false) :
    fs.Delivers (k.copy fault depth overwrite src dst).1 S P := by
  have hthrew : (Job.copy overwrite depth src dst (Job.start k fault)).threw = false := (Bool.or_eq_false_iff.1 hok).1
  change fs.Delivers (Job.copy overwrite depth src dst (Job.start k fault)).fs S P
  have hS : (Job.start k fault).fs.symlinkStatus src = .found S .dir := by
    obtain ⟨nd, hs, hkind⟩ := look_of_extends hk.extends_ (by decide) hsrc
    rwa [Node.kind_eq_dir.1 hkind] at hs
  have hstep := Job.copyStep overwrite depth src dst (Job.start k fault)
  generalize Job.copy overwrite depth src dst (Job.start k fault) = j at hstep hthrew
  cases hstep with
  | failed => cases hthrew
  | skipped s t found => cases hS.symm.trans found
  | into s content found => cases hS.symm.trans found
  | file s content found => cases hS.symm.trans found
  | unmade s found threw =>
    rw [hthrew] at threw
    cases threw
  | dir s found target nofile n deeper made =>
    obtain ⟨rfl, -⟩ := FS.Lookup.found.inj (hS.symm.trans found)
    obtain ⟨m, nd, hkeep⟩ := symlinkStatus_of_status hdst
    have hstay : (Job.start k fault).ensure dst = Job.start k fault := by
      rw [Job.ensure, if_neg]
      intro habs
      cases habs.symm.trans hkeep
    rw [hstay] at hthrew ⊢
    obtain ⟨-, hdone⟩ := Job.each_done (Carries fs S P dst) (fun c t => Job.Arrived fs S P [c] t) k
      (Carries.refl fs S P dst) (fun _ _ _ => Carries.trans) (fun c t t' ht hd => hd.keeps hu ht) _
      (fun c hc k₁ hk₁ hok₁ => by
        obtain ⟨nd, hnd⟩ := Option.ne_none_iff_exists'.1 (mem_children.1 hc)
        obtain ⟨nd₁, hnd₁, -⟩ := hk₁.extends_ _ nd hnd
        refine Job.carries_copy (r := []) hsrc hu hfree (hk.trans hk₁) hnd₁ (fun _ l hl => ?_) hok₁
        rw [List.append_nil] at hl ⊢
        obtain ⟨top', htop, hkind⟩ := look_of_extends hk₁.extends_ (by decide) hdst
        obtain ⟨rfl, rfl⟩ := FS.Lookup.found.inj (hl.symm.trans htop)
        exact ⟨hleads (Node.kind_eq_dir.1 hkind.symm), fun _ => (List.append_nil l).symm⟩) _ (Carries.refl ..) hthrew
    have hdir : k.get (S ++ []) = some .dir := by
      rw [List.append_nil]
      exact (look_found.1 hS).2
    exact Job.arrived_of_entries hk.extends_ hdir (by rwa [List.append_nil])

/-- The path of each directory leads to something once a copy went through. -/
theorem stands_of_copied (hsrc : fs.symlinkStatus src = .found S .dir) (hk : Extends fs k)
    (hok : (k.copy fault depth overwrite src dst).2 = false) {q : Loc} (hq : fs.get (S ++ q) = some .dir) :
    (k.copy fault depth overwrite src dst).1.Stands (dst ++ q) := by
  have hthrew : (Job.copy overwrite depth (src ++ []) (dst ++ []) (Job.start k fault)).threw = false := by
    rw [List.append_nil, List.append_nil]
    exact (Bool.or_eq_false_iff.1 hok).1
  have hstands := Job.stands_copy (k := Job.start k fault) overwrite hsrc hk hthrew q List.nil_prefix hq
  rwa [List.append_nil, List.append_nil] at hstands

end FS

end Posix
