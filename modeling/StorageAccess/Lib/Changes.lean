import StorageAccess.Lib.Filesystem
/-!
# What an operation leaves as it was

An operation that only adds entries and rewrites files keeps every lookup that
succeeded before it: the tree after it `Extends` the tree before. `Grew D` says in
addition that it worked at and below `D` only and made no links. Making
directories, writing and copying grow a tree; removing takes away what its path
names, and nothing else.
-/

namespace Posix

/-- An entry without the content of a file: all that a lookup sees of it. -/
def Node.kind : Node → Node
  | .file _ => .file []
  | nd => nd

theorem Node.kind_eq_dir {nd : Node} : nd.kind = .dir ↔ nd = .dir := by cases nd <;> simp [kind]

theorem Node.kind_eq_link {nd : Node} {t : Str} : nd.kind = .link t ↔ nd = .link t := by cases nd <;> simp [kind]

namespace FS

/-- Every entry is still there, as what it was; only the contents of files may differ. -/
def Extends (fs fs' : FS) : Prop := ∀ l nd, fs.get l = some nd → ∃ nd', fs'.get l = some nd' ∧ nd'.kind = nd.kind

theorem Extends.refl (fs : FS) : Extends fs fs := fun _ nd h => ⟨nd, h, rfl⟩

theorem Extends.trans {fs₁ fs₂ fs₃ : FS} (h : Extends fs₁ fs₂) (h' : Extends fs₂ fs₃) : Extends fs₁ fs₃ := by
  intro l nd hl
  obtain ⟨nd₂, h₂, k₂⟩ := h l nd hl
  obtain ⟨nd₃, h₃, k₃⟩ := h' l nd₂ h₂
  exact ⟨nd₃, h₃, k₃.trans k₂⟩

theorem Extends.dir {fs fs' : FS} (h : Extends fs fs') {l : Loc} (hl : fs.get l = some .dir) :
    fs'.get l = some .dir := by
  obtain ⟨nd, hg, hk⟩ := h l .dir hl
  rw [hg, Node.kind_eq_dir.1 hk]

theorem Extends.link {fs fs' : FS} (h : Extends fs fs') {l : Loc} {t : Str} (hl : fs.get l = some (.link t)) :
    fs'.get l = some (.link t) := by
  obtain ⟨nd, hg, hk⟩ := h l (.link t) hl
  rw [hg, Node.kind_eq_link.1 hk]

theorem Extends.file {fs fs' : FS} (h : Extends fs fs') {l : Loc} {c : List UInt8} (hl : fs.get l = some (.file c)) :
    ∃ c', fs'.get l = some (.file c') := by
  obtain ⟨nd, hg, hk⟩ := h l (.file c) hl
  cases nd with
  | file c' => exact ⟨c', hg⟩
  | dir | link => simp [Node.kind] at hk

/-! ## Lookups in a tree that was extended -/

/-- A lookup that succeeded succeeds again. One for a place where an entry could
be made now finds what was made there. -/
theorem walk_of_extends {fs fs' : FS} (h : Extends fs fs') {last last' : Last} (hk : last = .keep ↔ last' = .keep)
    {r : Loc × Nat} (hm : last = .make → ∃ nd, fs'.get r.1 = some nd ∧ ∀ t, nd ≠ .link t) (n : Nat) (cur : Loc)
    (p : List Name) (hw : fs.walk last n cur p = .ok r) : fs'.walk last' n cur p = .ok r := by
  replace hw := walk_eq_ok_iff.1 hw
  refine walk_eq_ok_iff.2 ?_
  induction hw with
  | done n cur => exact .done n cur
  | dot dir _ ih => exact .dot (h.dir dir) (ih hm)
  | dotdot dir _ ih => exact .dotdot (h.dir dir) (ih hm)
  | enter dir name entry plain _ ih =>
    obtain ⟨nd', entry', hkind⟩ := h _ _ entry
    refine .enter (h.dir dir) name entry' (fun t ht => ?_) (ih hm)
    rw [ht] at hkind
    exact plain t (Node.kind_eq_link.1 hkind.symm)
  | link dir name entry through _ ih =>
    exact .link (h.dir dir) name (h.link entry) (fun hlast => through ⟨hlast.1, hk.2 hlast.2⟩) (ih hm)
  | keep dir name entry stops => exact .keep (h.dir dir) name (h.link entry) (hk.1 stops)
  | make dir name free makes =>
    -- the walk goes on into the entry that was made
    obtain ⟨nd, entry, plain⟩ := hm makes
    exact .enter (h.dir dir) ⟨name.2.1, name.2.2.1⟩ entry plain (.done _ _)

/-- A lookup that follows links does not end at one. -/
theorem walk_not_link {fs : FS} {last : Last} (hl : last ≠ .keep) (n : Nat) (cur : Loc) (p : List Name)
    (hcur : ∀ t, fs.get cur ≠ some (.link t)) {r : Loc × Nat} (hw : fs.walk last n cur p = .ok r) :
    ∀ t, fs.get r.1 ≠ some (.link t) := by
  replace hw := walk_eq_ok_iff.1 hw
  induction hw with
  | done => exact hcur
  | dot _ _ ih => exact ih hcur
  | dotdot dir _ ih =>
    have hup := get_dropLast (by rw [dir]; simp)
    exact ih (by simp [hup])
  | enter _ _ entry plain _ ih => exact ih fun t ht => plain t (Option.some.inj (entry.symm.trans ht))
  | link dir _ _ _ _ ih => exact ih (by split <;> simp [fs.root, dir])
  | keep _ _ _ stops => exact absurd stops hl
  | make _ _ free => simp [free]

theorem locate_eq_ok {fs : FS} {last : Last} {p : List Name} {l : Loc} :
    fs.locate last p = .ok l ↔ ∃ k, fs.walk last maxLinks [] p = .ok (l, k) := by
  unfold locate
  cases fs.walk last maxLinks [] p with
  | error e => simp [Except.map]
  | ok r => obtain ⟨m, k⟩ := r; simp [Except.map]

/-- A place for a new entry that a path leads to holds an entry exactly if the path finds it. -/
theorem status_of_make {fs : FS} {p : List Name} {l : Loc} {nd : Node} (h : fs.locate .make p = .ok l)
    (hg : fs.get l = some nd) : fs.status p = .found l nd := by
  obtain ⟨k, hw⟩ := locate_eq_ok.1 h
  have hnl := walk_not_link (by decide) maxLinks [] p (by simp [fs.root]) hw
  refine look_found.2 ⟨locate_eq_ok.2 ⟨k, ?_⟩, hg⟩
  exact walk_of_extends (Extends.refl fs) (by decide) (fun _ => ⟨nd, hg, fun t e => hnl t (e ▸ hg)⟩) maxLinks [] p hw

/-- A path that finds an entry leads there when it may make one. -/
theorem make_of_status {fs : FS} {p : List Name} {l : Loc} {nd : Node} (h : fs.status p = .found l nd) :
    fs.locate .make p = .ok l := by
  obtain ⟨k, hw⟩ := locate_eq_ok.1 (look_found.1 h).1
  exact locate_eq_ok.2 ⟨k, walk_of_extends (Extends.refl fs) (by decide) (fun h => by cases h) maxLinks [] p hw⟩

/-- What following links finds, not following the last one finds too, there or at that link. -/
theorem walk_keep_of_follow {fs : FS} (n : Nat) (cur : Loc) (p : List Name) {r : Loc × Nat}
    (hw : fs.walk .follow n cur p = .ok r) : ∃ r', fs.walk .keep n cur p = .ok r' := by
  replace hw := walk_eq_ok_iff.1 hw
  simp only [walk_eq_ok_iff]
  induction hw with
  | done n cur => exact ⟨_, .done n cur⟩
  | dot dir _ ih => exact ih.imp fun _ => .dot dir
  | dotdot dir _ ih => exact ih.imp fun _ => .dotdot dir
  | enter dir name entry plain _ ih => exact ih.imp fun _ => .enter dir name entry plain
  | @link _ _ _ rest _ _ dir name entry _ _ ih =>
    by_cases hrest : rest = []
    · subst hrest
      exact ⟨_, .keep dir name entry rfl⟩
    · exact ih.imp fun _ => .link dir name entry fun h => hrest h.1
  | keep _ _ _ stops => cases stops
  | make _ _ _ makes => cases makes

/-- A lookup that does not end at a link never had to stop at one. -/
theorem walk_follow_of_keep {fs : FS} (n : Nat) (cur : Loc) (p : List Name) {r : Loc × Nat}
    (hr : ∀ t, fs.get r.1 ≠ some (.link t)) (hw : fs.walk .keep n cur p = .ok r) : fs.walk .follow n cur p = .ok r := by
  replace hw := walk_eq_ok_iff.1 hw
  refine walk_eq_ok_iff.2 ?_
  induction hw with
  | done n cur => exact .done n cur
  | dot dir _ ih => exact .dot dir (ih hr)
  | dotdot dir _ ih => exact .dotdot dir (ih hr)
  | enter dir name entry plain _ ih => exact .enter dir name entry plain (ih hr)
  | link dir name entry _ _ ih => exact .link dir name entry (by simp) (ih hr)
  | keep _ _ entry => exact absurd entry (hr _)
  | make _ _ _ makes => cases makes

theorem status_of_symlinkStatus {fs : FS} {p : List Name} {l : Loc} {nd : Node} (h : fs.symlinkStatus p = .found l nd)
    (hnl : ∀ t, nd ≠ .link t) : fs.status p = .found l nd := by
  obtain ⟨hloc, hg⟩ := look_found.1 h
  obtain ⟨k, hw⟩ := locate_eq_ok.1 hloc
  refine look_found.2 ⟨locate_eq_ok.2 ⟨k, walk_follow_of_keep maxLinks [] p (fun t ht => ?_) hw⟩, hg⟩
  exact hnl t (Option.some.inj (hg.symm.trans ht))

theorem symlinkStatus_of_status {fs : FS} {p : List Name} {l : Loc} {nd : Node} (h : fs.status p = .found l nd) :
    ∃ m nd', fs.symlinkStatus p = .found m nd' := by
  obtain ⟨k, hw⟩ := locate_eq_ok.1 (look_found.1 h).1
  obtain ⟨⟨m, k'⟩, hk⟩ := walk_keep_of_follow maxLinks [] p hw
  obtain ⟨nd', hg⟩ := Option.ne_none_iff_exists'.1
    (get_of_walk fs .keep (by decide) maxLinks [] p (by simp [fs.root]) hk)
  exact ⟨m, nd', look_found.2 ⟨locate_eq_ok.2 ⟨k', hk⟩, hg⟩⟩

/-- A path that finds nothing leads, if anywhere, to a free place. -/
theorem get_of_make_of_absent {fs : FS} {p : List Name} {l : Loc} (h : fs.locate .make p = .ok l)
    (ha : fs.status p = .absent ∨ fs.symlinkStatus p = .absent) : fs.get l = none := by
  cases hg : fs.get l with
  | none => rfl
  | some nd =>
    have hs := status_of_make h hg
    obtain ⟨m, nd', hk⟩ := symlinkStatus_of_status hs
    rcases ha with ha | ha
    · rw [hs] at ha; cases ha
    · rw [hk] at ha; cases ha

theorem look_of_extends {fs fs' : FS} (h : Extends fs fs') {last : Last} (hl : last ≠ .make) {p : List Name} {l : Loc}
    {nd : Node} (hf : fs.look last p = .found l nd) :
    ∃ nd', fs'.look last p = .found l nd' ∧ nd'.kind = nd.kind := by
  obtain ⟨hloc, hg⟩ := look_found.1 hf
  obtain ⟨nd', hg', hk⟩ := h l nd hg
  refine ⟨nd', look_found.2 ⟨?_, hg'⟩, hk⟩
  unfold locate at hloc ⊢
  cases hw : fs.walk last maxLinks [] p with
  | error e => rw [hw] at hloc; cases hloc
  | ok r =>
    rw [walk_of_extends h Iff.rfl (fun h => absurd h hl) maxLinks [] p hw]
    rwa [hw] at hloc

theorem status_dir_of_extends {fs fs' : FS} (h : Extends fs fs') {p : List Name} {l : Loc}
    (hf : fs.status p = .found l .dir) : fs'.status p = .found l .dir := by
  obtain ⟨nd, hs, hk⟩ := look_of_extends h (by decide) hf
  rwa [Node.kind_eq_dir.1 hk] at hs

/-! ## Lookups below a directory -/

theorem locate_child {fs : FS} {p : List Name} {l : Loc} {c : Name} (hp : fs.status p = .found l .dir) (hc : IsName c)
    (last : Last) (hl : last = .keep ∨ ∀ t, fs.get (l ++ [c]) ≠ some (.link t)) :
    fs.locate last (p ++ [c]) =
      if fs.get (l ++ [c]) = none ∧ last ≠ .make then .error .noent else .ok (l ++ [c]) := by
  obtain ⟨hloc, hd⟩ := look_found.1 hp
  obtain ⟨k, hw⟩ := locate_eq_ok.1 hloc
  unfold locate
  rw [walk_append fs last p [c] (by simp), hw, Except.bind, walk_name fs last k l c hd hc]
  cases hg : fs.get (l ++ [c]) with
  | none => by_cases hm : last = .make <;> simp [hm, Except.map]
  | some nd =>
    cases nd with
    | link t =>
      obtain rfl : last = .keep := hl.resolve_right fun h => h t hg
      simp [Except.map]
    | file | dir => simp [Except.map]

/-- What a plain name below a directory finds, unless it is a link to follow. -/
theorem look_child {fs : FS} {p : List Name} {l : Loc} {c : Name} (hp : fs.status p = .found l .dir) (hc : IsName c)
    {last : Last} (hm : last ≠ .make) (hl : last = .keep ∨ ∀ t, fs.get (l ++ [c]) ≠ some (.link t)) :
    fs.look last (p ++ [c]) = match fs.get (l ++ [c]) with
      | some nd => .found (l ++ [c]) nd
      | none => .absent := by
  unfold look
  rw [locate_child hp hc last hl]
  cases hg : fs.get (l ++ [c]) with
  | none => simp [hm]
  | some nd => simp [hg]

/-! ## Places for new entries -/

/-- A free place that a lookup leads to is a name in a directory. -/
theorem walk_make_free {fs : FS} {r : Loc × Nat} (hr : fs.get r.1 = none) (n : Nat) (cur : Loc) (p : List Name)
    (hcur : fs.get cur ≠ none) (hw : fs.walk .make n cur p = .ok r) :
    ∃ u c, r.1 = u ++ [c] ∧ fs.get u = some .dir ∧ IsName c := by
  replace hw := walk_eq_ok_iff.1 hw
  induction hw with
  | done => exact absurd hr hcur
  | dot _ _ ih => exact ih hr hcur
  | dotdot _ _ ih => exact ih hr (by simp [get_dropLast hcur])
  | enter _ _ entry _ _ ih => exact ih hr (by simp [entry])
  | link dir _ _ _ _ ih => exact ih hr (by split <;> simp [fs.root, dir])
  | keep _ _ _ stops => cases stops
  | @make _ cur c dir name => exact ⟨cur, c, rfl, dir, name⟩

/-- A node may be put at a free place that a path leads to. -/
theorem canSet_make {fs : FS} {p : List Name} {l : Loc} (h : fs.locate .make p = .ok l) (hg : fs.get l = none)
    (nd : Node) : fs.CanSet l nd := by
  obtain ⟨k, hw⟩ := locate_eq_ok.1 h
  obtain ⟨u, c, rfl, hu, hc⟩ := walk_make_free hg maxLinks [] p (by simp [fs.root]) hw
  exact ⟨by rw [List.dropLast_concat, hu], by simpa using hc, by simp [hg]⟩

/-- A file may be rewritten where it is. -/
theorem canSet_file {fs : FS} {l : Loc} {c content : List UInt8} (h : fs.get l = some (.file c)) :
    fs.CanSet l (.file content) := by
  rcases List.eq_nil_or_concat l with rfl | ⟨u, x, rfl⟩
  · simp [fs.root] at h
  · rw [List.concat_eq_append] at h ⊢
    exact ⟨by rw [List.dropLast_concat, fs.closed u x (by simp [h])], by simpa using fs.named u x (by simp [h]),
      by simp [h]⟩

theorem canSet_child {fs : FS} {l : Loc} {c : Name} {nd : Node} (hl : fs.get l = some .dir) (hc : IsName c)
    (hd : fs.get (l ++ [c]) = some .dir → nd = .dir) : fs.CanSet (l ++ [c]) nd :=
  ⟨by rw [List.dropLast_concat, hl], by simpa using hc, hd⟩

/-! ## Growing a tree -/

/-- The tree was extended at and below `D` only, and by no links. -/
structure Grew (D : Loc) (fs fs' : FS) : Prop where
  extends_ : Extends fs fs'
  within : ∀ m, ¬ D <+: m → fs'.get m = fs.get m
  links : ∀ l t, fs'.get l = some (.link t) → fs.get l = some (.link t)

theorem Grew.refl (D : Loc) (fs : FS) : Grew D fs fs := ⟨Extends.refl fs, fun _ _ => rfl, fun _ _ h => h⟩

theorem Grew.trans {D : Loc} {fs₁ fs₂ fs₃ : FS} (h : Grew D fs₁ fs₂) (h' : Grew D fs₂ fs₃) : Grew D fs₁ fs₃ where
  extends_ := h.extends_.trans h'.extends_
  within m hm := (h'.within m hm).trans (h.within m hm)
  links l t hl := h.links l t (h'.links l t hl)

theorem Grew.mono {D E : Loc} {fs fs' : FS} (h : Grew E fs fs') (hp : D <+: E) : Grew D fs fs' where
  extends_ := h.extends_
  within m hm := h.within m fun he => hm (hp.trans he)
  links := h.links

/-- A node may be put at a free place, or a file where a file is. -/
def Fits (fs : FS) (l : Loc) (nd : Node) : Prop :=
  (∀ t, nd ≠ .link t) ∧ ∀ nd', fs.get l = some nd' → nd'.kind = nd.kind

theorem grew_set {fs : FS} {l : Loc} {nd : Node} (h : fs.Fits l nd) {D : Loc} (hD : D <+: l) : Grew D fs (fs.set l nd) := by
  by_cases hc : fs.CanSet l nd
  case neg => rw [set, dif_neg hc]; exact Grew.refl D fs
  refine ⟨fun m nd' hm => ?_, fun m hm => ?_, fun m t hm => ?_⟩
  · by_cases e : m = l
    · subst e
      exact ⟨nd, by rw [set_get fs hc, if_pos rfl], (h.2 nd' hm).symm⟩
    · exact ⟨nd', by rw [set_get fs hc, if_neg e, hm], rfl⟩
  · exact set_get_of_ne fs l nd fun e => hm (e ▸ hD)
  · rw [set_get fs hc] at hm
    split at hm
    · exact absurd (Option.some.inj hm) (h.1 t)
    · exact hm

end FS

namespace Job

open FS

theorem grew_put {j : Job} {l : Loc} {nd : Node} (h : j.fs.Fits l nd) {D : Loc} (hD : D <+: l) :
    Grew D j.fs (j.put l nd).fs := by
  unfold put
  split
  · exact grew_set h hD
  · unfold torn
    split
    case h_1 content k =>
      refine grew_set ⟨by simp, fun nd' hg => ?_⟩ hD
      rw [h.2 nd' hg]
      rfl
    · exact Grew.refl D _
  · exact grew_set h hD

theorem fits_file {fs : FS} {l : Loc} {c content : List UInt8} (h : fs.get l = some (.file c)) :
    fs.Fits l (.file content) := by
  refine ⟨by simp, fun nd hg => ?_⟩
  rw [h] at hg
  cases hg
  rfl

theorem fits_free {fs : FS} {l : Loc} {nd : Node} (h : fs.get l = none) (hl : ∀ t, nd ≠ .link t) : fs.Fits l nd :=
  ⟨hl, fun nd' hg => by rw [h] at hg; cases hg⟩

/-- The path leads into `D`, by a plain name below a directory and with no link in
its way; or else `D` is the whole tree. -/
def Under (D : Loc) (fs : FS) (p : List Name) : Prop :=
  D = [] ∨ ∃ dir c l, p = dir ++ [c] ∧ fs.status dir = .found l .dir ∧ IsName c ∧ D <+: l ++ [c] ∧
    ∀ m t, D <+: m → fs.get m ≠ some (.link t)

theorem Under.grew {D : Loc} {fs fs' : FS} {p : List Name} (h : Under D fs p) (hg : Grew D fs fs') : Under D fs' p := by
  rcases h with h | ⟨dir, c, l, rfl, hs, hc, hD, hl⟩
  · exact .inl h
  · exact .inr ⟨dir, c, l, rfl, status_dir_of_extends hg.extends_ hs, hc, hD, fun m t hm ht => hl m t hm (hg.links m t ht)⟩

theorem Under.child {D : Loc} {fs : FS} {p : List Name} {l : Loc} {n : Name} (h : Under D fs p)
    (hs : fs.status p = .found l .dir) (hn : D = [] ∨ IsName n) : Under D fs (p ++ [n]) := by
  rcases h with h | ⟨dir, c, m, rfl, hm, hc, hD, hl⟩
  · exact .inl h
  rcases hn with h | hn
  · exact .inl h
  refine .inr ⟨dir ++ [c], n, l, rfl, hs, hn, ?_, hl⟩
  rw [status, look_child hm hc (by decide) (.inr fun t => hl _ t hD)] at hs
  split at hs
  · cases hs; exact hD.trans (List.prefix_append _ _)
  · cases hs

/-- Where entries are made or rewritten through the path. -/
theorem Under.leads {D : Loc} {fs : FS} {p : List Name} (h : Under D fs p) {l : Loc} (hl : fs.locate .make p = .ok l) :
    D <+: l := by
  rcases h with h | ⟨dir, c, m, rfl, hm, hc, hD, hlink⟩
  · exact h ▸ List.nil_prefix
  rw [locate_child hm hc .make (.inr fun t => hlink _ t hD)] at hl
  split at hl
  · cases hl
  · cases hl; exact hD

/-- A file is written at the one place its path leads to. -/
theorem grew_copyFile {D : Loc} (overwrite : Bool) (content : List UInt8) (src : Loc) {dst : List Name} {j : Job}
    (h : ∀ l, j.fs.locate .make dst = .ok l → D <+: l) : Grew D j.fs (copyFile overwrite content src dst j).fs := by
  unfold copyFile
  split
  case h_1 l c hs =>
    obtain ⟨hloc, hg⟩ := look_found.1 hs
    split
    · exact Grew.refl D _
    split
    · exact grew_put (fits_file hg) (h l (make_of_status hs))
    · exact Grew.refl D _
  case h_2 ha =>
    split
    case h_1 l hl =>
      exact grew_put (fits_free (get_of_make_of_absent hl (.inl ha)) (by simp)) (h l hl)
    · exact Grew.refl D _
  · exact Grew.refl D _

/-- A directory is made at the one place its path leads to. -/
theorem grew_mkdir {D : Loc} {p : List Name} {j : Job} (h : ∀ l, j.fs.locate .make p = .ok l → D <+: l) :
    Grew D j.fs (j.mkdir p).fs := by
  unfold mkdir
  split
  case h_1 l ha hl =>
    exact grew_put (fits_free (get_of_make_of_absent hl (.inr ha)) (by simp)) (h l hl)
  · exact Grew.refl D _

theorem put_fs {j : Job} {l : Loc} {nd : Node} (h : (j.put l nd).threw = false) : (j.put l nd).fs = j.fs.set l nd := by
  unfold put at h ⊢
  split <;> simp_all

theorem get_of_symlinkStatus_absent {fs : FS} {dir : List Name} {l : Loc} {c : Name}
    (hs : fs.status dir = .found l .dir) (hc : IsName c) (ha : fs.symlinkStatus (dir ++ [c]) = .absent) :
    fs.get (l ++ [c]) = none := by
  rw [symlinkStatus, look_child hs hc (by decide) (.inl rfl)] at ha
  split at ha
  · cases ha
  · assumption

/-- A directory that was made is there. -/
theorem status_mkdir {j : Job} {dir : List Name} {l : Loc} {c : Name} (hs : j.fs.status dir = .found l .dir)
    (hc : IsName c) (ha : j.fs.symlinkStatus (dir ++ [c]) = .absent) (hok : (j.mkdir (dir ++ [c])).threw = false) :
    (j.mkdir (dir ++ [c])).fs.status (dir ++ [c]) = .found (l ++ [c]) .dir := by
  have hnone := get_of_symlinkStatus_absent hs hc ha
  have hmake : j.fs.locate .make (dir ++ [c]) = .ok (l ++ [c]) := by
    rw [locate_child hs hc .make (.inr (by simp [hnone]))]
    simp
  have hput : j.mkdir (dir ++ [c]) = j.put (l ++ [c]) .dir := by simp only [mkdir, ha, hmake]
  rw [hput] at hok ⊢
  have hset : j.fs.CanSet (l ++ [c]) .dir := canSet_child (look_found.1 hs).2 hc fun _ => rfl
  have hdir : (j.put (l ++ [c]) .dir).fs.get (l ++ [c]) = some .dir := by
    rw [put_fs hok, set_get _ hset, if_pos rfl]
  have hgrew : Grew [] j.fs (j.put (l ++ [c]) .dir).fs := grew_put (fits_free hnone (by simp)) List.nil_prefix
  have hs' := status_dir_of_extends hgrew.extends_ hs
  rw [status, look_child hs' hc (by decide) (.inr (by simp [hdir])), hdir]

/-- The directory a recursive copy goes on in, made where it was missing. -/
def ensure (j : Job) (dst : List Name) : Job := if j.fs.symlinkStatus dst = .absent then j.mkdir dst else j

theorem grew_ensure {D : Loc} {j : Job} {dst : List Name} (h : ∀ l, j.fs.locate .make dst = .ok l → D <+: l) :
    Grew D j.fs (j.ensure dst).fs := by
  unfold ensure
  split
  · exact grew_mkdir h
  · exact Grew.refl D _

/-- Below a directory that is there or was made, paths lead on into `D`. -/
theorem Under.ensure_child {D : Loc} {j : Job} {dst : List Name} {n : Name} (h : Under D j.fs dst)
    (hok : (j.ensure dst).threw = false) (hfail : j.fs.symlinkStatus dst ≠ .failed)
    (hfile : ∀ l c, j.fs.symlinkStatus dst ≠ .found l (.file c)) (hn : IsName n) :
    Under D (j.ensure dst).fs (dst ++ [n]) := by
  have hu := h.grew (grew_ensure fun l hl => h.leads hl)
  rcases h with h | ⟨dir, c, l, rfl, hs, hc, hD, hl⟩
  · exact .inl h
  refine hu.child (l := l ++ [c]) ?_ (.inr hn)
  unfold ensure at hok ⊢
  split
  case isTrue ha => rw [if_pos ha] at hok; exact status_mkdir hs hc ha hok
  case isFalse ha =>
    rw [symlinkStatus, look_child hs hc (by decide) (.inl rfl)] at ha hfile
    rw [status, look_child hs hc (by decide) (.inr fun t => hl _ t hD)]
    cases hg : j.fs.get (l ++ [c]) with
    | none => simp [hg] at ha
    | some nd =>
      cases nd with
      | file content => exact absurd (by rw [hg]) (hfile (l ++ [c]) content)
      | link t => exact absurd hg (hl _ t hD)
      | dir => rfl

/-- A series of steps that each grow the tree grows it. -/
theorem grew_each {D : Loc} {step : Name → Job → Job} {P : FS → Prop} (hP : ∀ fs fs', P fs → Grew D fs fs' → P fs')
    (ns : List Name) (hstep : ∀ n ∈ ns, ∀ j, P j.fs → Grew D j.fs (step n j).fs) (j : Job) (hj : P j.fs) :
    Grew D j.fs (each step ns j).fs := by
  induction ns generalizing j with
  | nil => exact Grew.refl D _
  | cons n ns ih =>
    unfold each
    split
    · exact Grew.refl D _
    · have h := hstep n List.mem_cons_self j hj
      exact h.trans (ih (fun m hm => hstep m (List.mem_cons_of_mem n hm)) _ (hP _ _ hj h))

theorem isName_of_mem_children {fs : FS} {l : Loc} {n : Name} (h : n ∈ fs.children l) : IsName n :=
  fs.named l n (mem_children.1 h)

/-- What one call of `copy` does. -/
inductive CopyStep (overwrite : Bool) (depth : Nat) (src dst : List Name) (j : Job) : Job → Prop
  | failed : CopyStep overwrite depth src dst j j.fail
  | skipped (s : Loc) (t : Str) (found : j.fs.symlinkStatus src = .found s (.link t)) :
      CopyStep overwrite depth src dst j j
  | into (s : Loc) (content : List UInt8) (found : j.fs.symlinkStatus src = .found s (.file content)) (l : Loc)
      (target : j.fs.symlinkStatus dst = .found l .dir) :
      CopyStep overwrite depth src dst j (j.copyFile overwrite content s (dst ++ [src.getLastD []]))
  | file (s : Loc) (content : List UInt8) (found : j.fs.symlinkStatus src = .found s (.file content))
      (target : ∀ l, j.fs.symlinkStatus dst ≠ .found l .dir) :
      CopyStep overwrite depth src dst j (j.copyFile overwrite content s dst)
  | unmade (s : Loc) (found : j.fs.symlinkStatus src = .found s .dir) (threw : (j.ensure dst).threw = true) :
      CopyStep overwrite depth src dst j (j.ensure dst)
  | dir (s : Loc) (found : j.fs.symlinkStatus src = .found s .dir) (target : j.fs.symlinkStatus dst ≠ .failed)
      (nofile : ∀ l c, j.fs.symlinkStatus dst ≠ .found l (.file c)) (n : Nat) (deeper : depth = n + 1)
      (made : (j.ensure dst).threw = false) :
      CopyStep overwrite depth src dst j
        (each (fun c => copy overwrite n (src ++ [c]) (dst ++ [c])) ((j.ensure dst).fs.children s) (j.ensure dst))

theorem copyStep (overwrite : Bool) (depth : Nat) (src dst : List Name) (j : Job) :
    CopyStep overwrite depth src dst j (copy overwrite depth src dst j) := by
  unfold copy
  split
  · exact .failed
  · exact .failed
  · exact .failed
  case h_4 s nd hs ht =>
    split
    · exact .failed
    split
    case h_1 t => exact .skipped s t hs
    case h_2 content l hd => exact .into s content hs l hd
    case h_3 content hd => exact .file s content hs fun l h => hd l h
    case h_4 l content hf => exact .failed
    case h_5 hf =>
      split
      · exact .failed
      case h_2 n =>
        change CopyStep _ _ _ _ _ (if (j.ensure dst).threw = true then j.ensure dst else _)
        split
        case isTrue hthrew => exact .unmade s hs hthrew
        case isFalse hthrew => exact .dir s hs ht (fun l c h => hf l c h) n rfl (by simpa using hthrew)

/-- Copying works at and below its target only. -/
theorem grew_copy {D : Loc} (overwrite : Bool) (depth : Nat) (src dst : List Name) (j : Job) (h : Under D j.fs dst)
    (hsrc : D = [] ∨ IsName (src.getLastD [])) : Grew D j.fs (copy overwrite depth src dst j).fs := by
  induction depth using Nat.strong_induction_on generalizing src dst j with
  | _ depth ih =>
  have hstep := copyStep overwrite depth src dst j
  generalize copy overwrite depth src dst j = j' at hstep
  cases hstep with
  | failed => exact Grew.refl D _
  | skipped => exact Grew.refl D _
  | into s content hs l hd =>
    rcases hsrc with rfl | hname
    · exact grew_copyFile overwrite _ _ fun _ _ => List.nil_prefix
    · have hu := h.child (status_of_symlinkStatus hd (by simp)) (.inr hname)
      exact grew_copyFile overwrite _ _ fun l hl => hu.leads hl
  | file => exact grew_copyFile overwrite _ _ fun l hl => h.leads hl
  | unmade => exact grew_ensure fun l hl => h.leads hl
  | dir s hs ht hf n hn hmade =>
    -- the copies of the entries lead on into `D`, whatever was copied before
    let P (fs : FS) : Prop := ∀ c, IsName c → Under D fs (dst ++ [c])
    have hP : P (j.ensure dst).fs := fun c hc => h.ensure_child hmade ht hf hc
    refine (grew_ensure fun l hl => h.leads hl).trans
      (grew_each (fun fs fs' hfs hg c hc => (hfs c hc).grew hg) _ (fun c hc k hk => ?_) _ hP)
    have hname := isName_of_mem_children hc
    exact ih n (by omega) _ _ k (hk c hname) (.inr (by simpa using hname))

end Job

namespace FS

/-! ## The operations -/

/-- What copying does to the tree. -/
theorem grew_copyTree {fs : FS} {D : Loc} {fault : Option Fault} {depth : Nat} {overwrite : Bool} {src dst : List Name}
    (h : Job.Under D fs dst) (hsrc : D = [] ∨ IsName (src.getLastD [])) :
    Grew D fs (fs.copy fault depth overwrite src dst).1 :=
  Job.grew_copy overwrite depth src dst (Job.start fs fault) h hsrc

/-- A path that leads on from its first part has found a directory there. -/
theorem dir_of_locate {fs : FS} {last : Last} {a b : List Name} {l : Loc} (h : fs.locate last (a ++ b) = .ok l)
    (hb : b ≠ []) : ∃ m, fs.status a = .found m .dir := by
  obtain ⟨k, hw⟩ := locate_eq_ok.1 h
  rw [walk_append fs last a b hb] at hw
  cases ha : fs.walk .follow maxLinks [] a with
  | error e => rw [ha] at hw; cases hw
  | ok r =>
    rw [ha] at hw
    obtain ⟨c, rest, rfl⟩ := List.exists_cons_of_ne_nil hb
    refine ⟨r.1, look_found.2 ⟨locate_eq_ok.2 ⟨r.2, ha⟩, ?_⟩⟩
    by_contra hd
    change fs.walk last r.2 r.1 (c :: rest) = .ok (l, k) at hw
    simp [walk_cons, hd] at hw

/-- What stands below the directory a path leads to is found by the names. -/
theorem look_under {fs : FS} {p : List Name} {l r : Loc} {c : Name} {nd : Node} (hs : fs.status p = .found l .dir)
    (hr : fs.get (l ++ c :: r) = some nd) : fs.symlinkStatus (p ++ c :: r) = .found (l ++ c :: r) nd := by
  induction r using List.reverseRecOn generalizing nd with
  | nil =>
    have hne : fs.get (l ++ [c]) ≠ none := hr ▸ Option.some_ne_none nd
    rw [symlinkStatus, look_child hs (fs.named _ c hne) (by decide) (.inl rfl), hr]
  | append_singleton r d ih =>
    rw [← List.cons_append, ← List.append_assoc] at hr ⊢
    have hne : fs.get (l ++ c :: r ++ [d]) ≠ none := hr ▸ Option.some_ne_none nd
    have hdir := status_of_symlinkStatus (ih (fs.closed _ d hne)) (by simp)
    rw [← List.append_assoc, symlinkStatus, look_child hdir (fs.named _ d hne) (by decide) (.inl rfl), hr]

/-- Below a directory, a path finds the entries by their names. -/
theorem look_below {fs : FS} {src : List Name} {S r : Loc} (hs : fs.symlinkStatus src = .found S .dir) {nd : Node}
    (hr : fs.get (S ++ r) = some nd) : fs.symlinkStatus (src ++ r) = .found (S ++ r) nd := by
  cases r with
  | nil =>
    rw [List.append_nil] at hr
    rwa [List.append_nil, List.append_nil, ← Option.some.inj ((look_found.1 hs).2.symm.trans hr)]
  | cons c r => exact look_under (status_of_symlinkStatus hs (by simp)) hr

/-- A path that is found leads through a directory. -/
theorem dir_of_look {fs : FS} {last : Last} {p : List Name} {c : Name} {l : Loc} {nd : Node}
    (h : fs.look last (p ++ [c]) = .found l nd) : ∃ m, fs.status p = .found m .dir :=
  dir_of_locate (look_found.1 h).1 (by simp)

theorem status_prefix {fs : FS} {a b : List Name} {l : Loc} {nd : Node} (h : fs.status (a ++ b) = .found l nd)
    (hb : b ≠ []) : ∃ m, fs.status a = .found m .dir := dir_of_locate (look_found.1 h).1 hb

/-- A path to a directory has passed directories only. -/
theorem status_dir_prefix {fs : FS} {a b : List Name} {l : Loc} (h : fs.status (a ++ b) = .found l .dir) :
    ∃ m, fs.status a = .found m .dir := by
  by_cases hb : b = []
  · rw [hb, List.append_nil] at h
    exact ⟨l, h⟩
  · exact status_prefix h hb

/-- Making a path's directories starts where they are missing. -/
theorem mkdirs_append (done a b : List Name) (j : Job)
    (h : ∀ c d, a = c ++ d → c ≠ [] → ∃ m, j.fs.status (done ++ c) = .found m .dir) :
    mkdirs done (a ++ b) j = mkdirs (done ++ a) b j := by
  induction a generalizing done with
  | nil => simp
  | cons c a ih =>
    obtain ⟨m, hm⟩ := h [c] a rfl (by simp)
    rw [List.cons_append, mkdirs, hm]
    dsimp only
    rw [ih (done ++ [c]), List.append_assoc, List.singleton_append]
    intro c' d hcd hne
    rw [List.append_assoc, List.singleton_append]
    exact h (c :: c') d (by rw [hcd, List.cons_append]) (by simp)

/-- `.` leads from a directory to itself, `..` to its parent. -/
theorem status_dots {fs : FS} {p : List Name} {l : Loc} {c : Name} (hp : fs.status p = .found l .dir)
    (hc : c = dot ∨ c = dotdot) : fs.status (p ++ [c]) = .found (if c = dot then l else l.dropLast) .dir := by
  obtain ⟨hloc, hd⟩ := look_found.1 hp
  obtain ⟨k, hw⟩ := locate_eq_ok.1 hloc
  have hup : fs.get l.dropLast = some .dir := get_dropLast (by simp [hd])
  have hstep (m : Loc) (hm : m = if c = dot then l else l.dropLast) :
      fs.walk .follow maxLinks [] (p ++ [c]) = .ok (m, k) := by
    rw [walk_append fs .follow p [c] (by simp), hw, Except.bind]
    rcases hc with rfl | rfl <;> simp [walk_cons, walk_nil, hd, hm, dot, dotdot]
  refine look_found.2 ⟨locate_eq_ok.2 ⟨k, hstep _ rfl⟩, ?_⟩
  split <;> assumption

/-- A last name that finds nothing in a directory is none of the dots. -/
theorem isName_of_absent {fs : FS} {p : List Name} {l : Loc} {c : Name} (hs : fs.status p = .found l .dir)
    (hplain : c ≠ [] ∧ '/' ∉ c ∧ Char.ofNat 0 ∉ c) (habs : fs.status (p ++ [c]) = .absent) : IsName c := by
  refine ⟨hplain.1, ?_, ?_, hplain.2⟩
  all_goals
    intro hdots
    cases habs.symm.trans (status_dots (c := c) hs (by simp [hdots]))

/-- The last component of a path that leads somewhere is a name or one of the dots. -/
theorem isName_of_locate {fs : FS} {last : Last} {p : List Name} {c : Name} {m : Loc}
    (h : fs.locate last (p ++ [c]) = .ok m) : c = dot ∨ c = dotdot ∨ IsName c := by
  obtain ⟨k, hw⟩ := locate_eq_ok.1 h
  rw [walk_append fs last p [c] (by simp)] at hw
  cases hp : fs.walk .follow maxLinks [] p with
  | error e => rw [hp] at hw; cases hw
  | ok r =>
    obtain ⟨l, left⟩ := r
    rw [hp] at hw
    have hnamed {nd : Node} (entry : fs.get (l ++ [c]) = some nd) : IsName c := fs.named l c (by simp [entry])
    cases walk_eq_ok_iff.1 hw with
    | dot => exact .inl rfl
    | dotdot => exact .inr (.inl rfl)
    | enter _ _ entry => exact .inr (.inr (hnamed entry))
    | link _ _ entry => exact .inr (.inr (hnamed entry))
    | keep _ _ entry => exact .inr (.inr (hnamed entry))
    | make _ name => exact .inr (.inr name)

/-- A last name under which something can be made in a directory, but nothing is, is none of the dots. -/
theorem isName_of_missing {fs : FS} {last : Last} {p : List Name} {c : Name} {l m : Loc} (hs : fs.status p = .found l .dir)
    (habs : fs.symlinkStatus (p ++ [c]) = .absent) (hm : fs.locate last (p ++ [c]) = .ok m) : IsName c := by
  refine (or_assoc.2 (isName_of_locate hm)).resolve_left fun hdots => ?_
  obtain ⟨m', nd, hk⟩ := symlinkStatus_of_status (status_dots hs hdots)
  cases habs.symm.trans hk

/-- A directory is made at a place where nothing is, not even a link. -/
theorem missing_of_mkdir {j : Job} {p : List Name} (h : (j.mkdir p).threw = false) :
    j.fs.symlinkStatus p = .absent ∧ ∃ l, j.fs.locate .make p = .ok l := by
  unfold Job.mkdir at h
  split at h
  case h_1 l habs hl => exact ⟨habs, l, hl⟩
  case h_2 => cases h

/-- When every directory of a path was made, the path leads to a directory. -/
theorem status_mkdirs {done rest : List Name} {j : Job} {l : Loc} (hs : j.fs.status done = .found l .dir)
    (hok : (mkdirs done rest j).threw = false) : ∃ m, (mkdirs done rest j).fs.status (done ++ rest) = .found m .dir := by
  induction rest generalizing done j l with
  | nil => exact ⟨l, by rwa [List.append_nil]⟩
  | cons c rest ih =>
    rw [List.append_cons]
    rw [mkdirs] at hok ⊢
    split at hok
    case h_1 m hm => exact ih hm hok
    case h_2 ha =>
      dsimp only at hok ⊢
      split at hok
      case isTrue h => rw [h] at hok; cases hok
      case isFalse hmade =>
        rw [if_neg hmade]
        have hok' : (j.mkdir (done ++ [c])).threw = false := by simpa using hmade
        obtain ⟨hmissing, m, hm⟩ := missing_of_mkdir hok'
        have hname : IsName c := by
          refine (or_assoc.2 (isName_of_locate hm)).resolve_left fun hdots => ?_
          cases ha.symm.trans (status_dots hs hdots)
        exact ih (Job.status_mkdir hs hname hmissing hok') hok
    case h_3 => cases hok

/-- Directories that could all be made are there. -/
theorem exists_createDirectories {fs fs' : FS} {fault : Option Fault} {p : List Name}
    (h : fs.createDirectories fault p = (fs', false)) : fs'.exists? p = true := by
  have hroot : fs.status [] = .found [] .dir := look_found.2 ⟨rfl, fs.root⟩
  obtain ⟨rfl, hok⟩ := Prod.mk.inj h
  obtain ⟨m, hm⟩ := status_mkdirs (j := Job.start fs fault) hroot (Bool.or_eq_false_iff.1 hok).1
  rw [List.nil_append] at hm
  simp only [exists?, hm]

/-- What is missing of the path would be made at and below `D`. -/
def LeadsInto (D : Loc) (fs : FS) (p : List Name) : Prop :=
  ∃ a c rest l, p = a ++ c :: rest ∧ fs.status a = .found l .dir ∧ Job.Under D fs (a ++ [c]) ∧ ∀ n ∈ rest, IsName n

theorem LeadsInto.of_under {D : Loc} {fs : FS} {p : List Name} (hD : D ≠ []) (h : Job.Under D fs p) :
    LeadsInto D fs p := by
  have hu := h
  rcases h with rfl | ⟨dir, c, l, rfl, hs, -⟩
  · exact absurd rfl hD
  · exact ⟨dir, c, [], l, rfl, hs, hu, by simp⟩

theorem LeadsInto.grew {D : Loc} {fs fs' : FS} {p : List Name} (h : LeadsInto D fs p) (hg : Grew D fs fs') :
    LeadsInto D fs' p := by
  obtain ⟨a, c, rest, l, rfl, hs, hu, hrest⟩ := h
  exact ⟨a, c, rest, l, rfl, status_dir_of_extends hg.extends_ hs, hu.grew hg, hrest⟩

theorem grew_mkdirs_of_under {D : Loc} (done : List Name) (c : Name) (rest : List Name) (j : Job)
    (h : Job.Under D j.fs (done ++ [c])) (hrest : ∀ n ∈ rest, IsName n) :
    Grew D j.fs (mkdirs done (c :: rest) j).fs := by
  induction rest generalizing done c j with
  | nil =>
    unfold mkdirs
    split
    · exact Grew.refl D _
    · dsimp only
      split <;> exact Job.grew_mkdir fun l hl => h.leads hl
    · exact Grew.refl D _
  | cons n rest ih =>
    have hn : IsName n := hrest n List.mem_cons_self
    have hrest' : ∀ m ∈ rest, IsName m := fun m hm => hrest m (List.mem_cons_of_mem n hm)
    rw [mkdirs]
    split
    case h_1 l hs => exact ih (done ++ [c]) n j (h.child hs (.inr hn)) hrest'
    case h_2 ha =>
      have hmade : Grew D j.fs (j.mkdir (done ++ [c])).fs := Job.grew_mkdir fun l hl => h.leads hl
      dsimp only
      split
      case isTrue => exact hmade
      case isFalse hok =>
        -- the directory that was made was missing, so paths lead on below it
        replace hok : (j.mkdir (done ++ [c])).threw = false := by simpa using hok
        have hmissing := (missing_of_mkdir hok).1
        have hensure : j.ensure (done ++ [c]) = j.mkdir (done ++ [c]) := if_pos hmissing
        have hchild := h.ensure_child (n := n) (by rwa [hensure]) (by simp [hmissing]) (by simp [hmissing]) hn
        rw [hensure] at hchild
        exact hmade.trans (ih (done ++ [c]) n _ hchild hrest')
    case h_3 => exact Grew.refl D _

/-- Making the directories of a path works at and below the place it leads into. -/
theorem grew_createDirectories {fs : FS} {D : Loc} {fault : Option Fault} {p : List Name} (h : LeadsInto D fs p) :
    Grew D fs (fs.createDirectories fault p).1 := by
  obtain ⟨a, c, rest, l, rfl, hs, hu, hrest⟩ := h
  have hpre : ∀ b d, a = b ++ d → b ≠ [] → ∃ m, (Job.start fs fault).fs.status ([] ++ b) = .found m .dir := by
    rintro b d rfl -
    exact status_dir_prefix hs
  change Grew D fs (mkdirs [] (a ++ c :: rest) (Job.start fs fault)).fs
  rw [mkdirs_append [] a (c :: rest) (Job.start fs fault) hpre, List.nil_append]
  exact grew_mkdirs_of_under a c rest (Job.start fs fault) hu hrest

/-- Directories were made where nothing was. -/
def MadeDirs (fs fs' : FS) : Prop := ∀ m, fs'.get m = fs.get m ∨ (fs.get m = none ∧ fs'.get m = some .dir)

theorem MadeDirs.refl (fs : FS) : MadeDirs fs fs := fun _ => .inl rfl

theorem MadeDirs.trans {fs₁ fs₂ fs₃ : FS} (h : MadeDirs fs₁ fs₂) (h' : MadeDirs fs₂ fs₃) : MadeDirs fs₁ fs₃ := by
  intro m
  rcases h m with e | ⟨hn, hd⟩ <;> rcases h' m with e' | ⟨hn', hd'⟩
  · exact .inl (e'.trans e)
  · exact .inr ⟨e ▸ hn', hd'⟩
  · exact .inr ⟨hn, e'.trans hd⟩
  · exact .inr ⟨hn, hd'⟩

theorem MadeDirs.get {fs fs' : FS} (h : MadeDirs fs fs') {m : Loc} {nd : Node} (hm : fs.get m = some nd) :
    fs'.get m = some nd := by
  rcases h m with e | ⟨hn, -⟩
  · rw [e, hm]
  · rw [hm] at hn; cases hn

theorem MadeDirs.grew {fs fs' : FS} (h : MadeDirs fs fs') : Grew [] fs fs' where
  extends_ _ nd hl := ⟨nd, h.get hl, rfl⟩
  within m hm := absurd List.nil_prefix hm
  links l t hl := by
    rcases h l with e | ⟨-, hd⟩
    · rwa [e] at hl
    · rw [hd] at hl; cases hl

theorem madeDirs_set {fs : FS} {l : Loc} (hl : fs.get l = none) : MadeDirs fs (fs.set l .dir) := by
  intro m
  by_cases hm : m = l
  · subst hm
    by_cases hc : fs.CanSet m .dir
    · exact .inr ⟨hl, by rw [set_get fs hc, if_pos rfl]⟩
    · rw [set, dif_neg hc]; exact .inl rfl
  · exact .inl (set_get_of_ne fs l .dir hm)

theorem madeDirs_mkdir (j : Job) (p : List Name) : MadeDirs j.fs (j.mkdir p).fs := by
  unfold Job.mkdir
  split
  case h_1 l ha hl =>
    have hfree := get_of_make_of_absent hl (.inr ha)
    unfold Job.put
    split
    · exact madeDirs_set hfree
    · exact MadeDirs.refl _
    · exact madeDirs_set hfree
  · exact MadeDirs.refl _

theorem madeDirs_mkdirs (done p : List Name) (j : Job) : MadeDirs j.fs (mkdirs done p j).fs := by
  induction p generalizing done j with
  | nil => exact MadeDirs.refl _
  | cons c rest ih =>
    unfold mkdirs
    split
    · exact ih _ j
    · dsimp only
      split
      · exact madeDirs_mkdir j _
      · exact (madeDirs_mkdir j _).trans (ih _ _)
    · exact MadeDirs.refl _

/-- What was written to a file through a path is read back through it. -/
theorem readFile_writeFile {fs fs' : FS} {cut : Option Nat} {s : Str} {content : List UInt8}
    (h : fs.writeFile cut (components s) content = some fs') :
    fs'.readFile (components s) = some ((cut.map content.take).getD content) := by
  unfold writeFile at h
  extract_lets data at h
  unfold readFile
  split at h
  case h_1 l c hs =>
    obtain ⟨-, hg⟩ := look_found.1 hs
    obtain rfl := Option.some.inj h
    obtain ⟨nd, hf, -⟩ := look_of_extends (grew_set (Job.fits_file hg) List.nil_prefix).extends_ (by decide) hs
    have hnd := (look_found.1 hf).2
    rw [set_get fs (canSet_file hg), if_pos rfl] at hnd
    rw [status, hf, ← Option.some.inj hnd]
  case h_2 ha =>
    split at h
    case h_2 => cases h
    case h_1 l hl =>
    obtain rfl := Option.some.inj h
    have hg := get_of_make_of_absent hl (.inl ha)
    have hnew : (fs.set l (.file data)).get l = some (.file data) := by
      rw [set_get fs (canSet_make hl hg _), if_pos rfl]
    obtain ⟨k, hw⟩ := locate_eq_ok.1 hl
    have hgrew : Grew [] fs (fs.set l (.file data)) := grew_set (Job.fits_free hg (by simp)) List.nil_prefix
    have hw' : (fs.set l (.file data)).walk .follow maxLinks [] (components s) = .ok (l, k) :=
      walk_of_extends hgrew.extends_ (by decide) (fun _ => ⟨_, hnew, by simp⟩) maxLinks [] (components s) hw
    have hf : (fs.set l (.file data)).status (components s) = .found l (.file data) :=
      look_found.2 ⟨locate_eq_ok.2 ⟨k, hw'⟩, hnew⟩
    rw [hf]
  case h_3 => cases h

/-- Renaming changes nothing outside the new place but what stands at the old one. -/
theorem rename_get (fs : FS) (refused : Bool) (old new : List Name) {m : Loc}
    (hold : ∀ l nd, fs.symlinkStatus old = .found l nd → l <+: m → fs.get m = none)
    (hnew : ∀ l, fs.locate .follow new.dropLast = .ok l → ¬ l ++ [new.getLastD []] <+: m) :
    (fs.rename refused old new).1.get m = fs.get m := by
  unfold rename
  split
  case h_1 o nd parent ho hp =>
    have hmove := move_get fs o (parent ++ [new.getLastD []]) (hold o nd ho) (hnew parent hp)
    dsimp only
    repeat' split
    all_goals first | rfl | exact hmove
  · rfl

end FS

end Posix
