import StorageAccess.Lib.Delivery
/-!
# What is left of the entries that are there

A copy that skips existing files adds entries and changes none. Opening a file for
writing changes the file that stands there, and renaming replaces the entry that
has the new name: both keep what is there exactly when it is what they put in its
place.
-/

namespace Posix.FS

/-- Every entry is there as it was. -/
def Keeps (fs fs' : FS) : Prop := ∀ l nd, fs.get l = some nd → fs'.get l = some nd

/-- Every file has the content it had. -/
def KeepsFiles (fs fs' : FS) : Prop := ∀ l content, fs.get l = some (.file content) → fs'.get l = some (.file content)

theorem Keeps.refl (fs : FS) : Keeps fs fs := fun _ _ h => h

theorem Keeps.trans {fs₁ fs₂ fs₃ : FS} (h : Keeps fs₁ fs₂) (h' : Keeps fs₂ fs₃) : Keeps fs₁ fs₃ :=
  fun l nd hl => h' l nd (h l nd hl)

theorem Keeps.files {fs fs' : FS} (h : Keeps fs fs') : KeepsFiles fs fs' := fun l content hl => h l (.file content) hl

theorem MadeDirs.keeps {fs fs' : FS} (h : MadeDirs fs fs') : Keeps fs fs' := fun _ _ hl => h.get hl

theorem keeps_set {fs : FS} {l : Loc} (hl : fs.get l = none) (nd : Node) : Keeps fs (fs.set l nd) := by
  intro m nd' hm
  rw [set_get_of_ne fs l nd, hm]
  rintro rfl
  rw [hl] at hm
  cases hm

end Posix.FS

namespace Posix.Job

open FS

/-! ## Copying without overwriting -/

theorem keeps_put {j : Job} {l : Loc} (hl : j.fs.get l = none) (nd : Node) : Keeps j.fs (j.put l nd).fs := by
  intro m nd' hm
  rw [put_get_of_ne, hm]
  rintro rfl
  rw [hl] at hm
  cases hm

/-- A file is written only where nothing stands. -/
theorem keeps_copyFile (content : List UInt8) (src : Loc) (dst : List Name) (j : Job) :
    Keeps j.fs (copyFile false content src dst j).fs := by
  unfold copyFile
  split
  case h_1 =>
    rw [if_neg Bool.false_ne_true]
    split <;> exact Keeps.refl _
  case h_2 ha =>
    split
    case h_1 l hl => exact keeps_put (get_of_make_of_absent hl (.inl ha)) _
    case h_2 => exact Keeps.refl _
  case h_3 => exact Keeps.refl _

theorem keeps_ensure (j : Job) (dst : List Name) : Keeps j.fs (j.ensure dst).fs := by
  unfold ensure
  split
  · exact (madeDirs_mkdir j dst).keeps
  · exact Keeps.refl _

theorem keeps_each {step : Name → Job → Job} (hstep : ∀ n j, Keeps j.fs (step n j).fs) (ns : List Name) (j : Job) :
    Keeps j.fs (each step ns j).fs := by
  induction ns generalizing j with
  | nil => exact Keeps.refl _
  | cons n ns ih =>
    unfold each
    split
    · exact Keeps.refl _
    · exact (hstep n j).trans (ih _)

/-- A copy that skips existing files keeps every entry, also where it stops on the way. -/
theorem keeps_copy (depth : Nat) (src dst : List Name) (j : Job) : Keeps j.fs (copy false depth src dst j).fs := by
  induction depth using Nat.strong_induction_on generalizing src dst j with
  | _ depth ih =>
  have hstep := copyStep false depth src dst j
  generalize copy false depth src dst j = j' at hstep
  cases hstep with
  | failed => exact Keeps.refl _
  | skipped => exact Keeps.refl _
  | into s content => exact keeps_copyFile content s _ j
  | file s content => exact keeps_copyFile content s _ j
  | unmade => exact keeps_ensure j dst
  | dir s found target nofile n deeper made =>
    exact (keeps_ensure j dst).trans (keeps_each (fun c k => ih n (by omega) _ _ k) _ _)

end Posix.Job

namespace Posix.FS

theorem keeps_copyTree (fs : FS) (fault : Option Fault) (depth : Nat) (src dst : List Name) :
    Keeps fs (fs.copy fault depth false src dst).1 := Job.keeps_copy depth src dst (Job.start fs fault)

/-! ## Writing a file -/

/-- A file that is written is the one its path leads to. -/
theorem writeFile_eq_set {fs fs' : FS} {cut : Option Nat} {p : List Name} {content : List UInt8}
    (h : fs.writeFile cut p content = some fs') : ∃ l data, fs.locate .make p = .ok l ∧ fs' = fs.set l (.file data) := by
  unfold writeFile at h
  split at h
  case h_1 l _ hs => exact ⟨l, _, make_of_status hs, (Option.some.inj h).symm⟩
  case h_2 hs =>
    split at h
    case h_1 l hl => exact ⟨l, _, hl, (Option.some.inj h).symm⟩
    case h_2 => cases h
  case h_3 => cases h

/-- Writing through a path keeps the files exactly if the path leads to no file, or to one with that content. -/
theorem writeFile_keepsFiles_iff {fs fs' : FS} {cut : Option Nat} {s : Str} {content : List UInt8}
    (h : fs.writeFile cut (components s) content = some fs') :
    KeepsFiles fs fs' ↔
      ∀ l old, fs.status (components s) = .found l (.file old) → (cut.map content.take).getD content = old := by
  unfold writeFile at h
  extract_lets data at h
  split at h
  case h_1 l c hs =>
    obtain rfl := Option.some.inj h
    have hg := (look_found.1 hs).2
    have hset : ∀ m, (fs.set l (.file data)).get m = if m = l then some (.file data) else fs.get m :=
      set_get fs (canSet_file hg)
    constructor
    · intro hkeeps l' old hs'
      obtain ⟨rfl, e⟩ := Lookup.found.inj (hs.symm.trans hs')
      have hnew := hkeeps l c hg
      rw [hset, if_pos rfl] at hnew
      cases e
      cases hnew
      rfl
    · -- only the file written to may differ
      intro hsame m old hm
      rw [hset]
      split
      case isTrue e =>
        rw [e, hg] at hm
        rw [← hm, ← hsame l c hs]
      case isFalse => exact hm
  case h_2 ha =>
    split at h
    case h_2 => cases h
    case h_1 l hl =>
      obtain rfl := Option.some.inj h
      refine iff_of_true (keeps_set (get_of_make_of_absent hl (.inl ha)) _).files ?_
      intro l' old hs'
      rw [ha] at hs'
      cases hs'
  case h_3 => cases h

/-! ## Renaming -/

/-- The tree at `o` is at `n`, and everything else is as it was. -/
structure Renamed (fs fs' : FS) (o n : Loc) : Prop where
  arrived : ∀ r, fs'.get (n ++ r) = fs.get (o ++ r)
  entries : ∀ m, fs.get m ≠ none → ¬ o <+: m → fs'.get m = fs.get m
  trees : ∀ m r, fs.get m ≠ none → Apart o m → fs'.get (m ++ r) = fs.get (m ++ r)

/-- The entry at `n` makes way for the tree at `o`. -/
def Replaces (fs : FS) (o n : Loc) : Prop :=
  o ≠ n ∧ fs.CanMove o n ∧ ∃ nd old, fs.get o = some nd ∧ fs.get n = some old ∧ (nd = .dir ↔ old = .dir)

theorem Renamed.refl (fs : FS) (o : Loc) : Renamed fs fs o o := ⟨fun _ => rfl, fun _ _ _ => rfl, fun _ _ _ _ => rfl⟩

theorem moved_get {fs : FS} {o n : Loc} (h : fs.CanMove o n) (m : Loc) : (fs.move o n).get m = moved fs.get o n m := by
  rw [move, dif_pos h]

/-- Nothing stands below the place a tree is carried to. -/
theorem CanMove.leaf {fs : FS} {o n m : Loc} (h : fs.CanMove o n) (hp : n <+: m) (hm : fs.get m ≠ none) : m = n := by
  by_contra hne
  exact hm (h.2.2.2.2 m (fs.finite m hm) hp hne)

/-- Carrying a tree to a name beside it keeps everything else exactly if the name
was free or stood for an equal tree. -/
theorem renamed_move_iff {fs : FS} {o n : Loc} (h : fs.CanMove o n) (hbeside : o.dropLast = n.dropLast) (hne : o ≠ n) :
    Renamed fs (fs.move o n) o n ↔ fs.get n = none ∨ ∀ r, fs.get (n ++ r) = fs.get (o ++ r) := by
  have hn : n ≠ [] := by
    rintro rfl
    exact absurd h.2.2.2.1 (by decide)
  have hlength : o.length = n.length := by
    have hl := congrArg List.length hbeside
    rw [List.length_dropLast, List.length_dropLast] at hl
    have ho := List.length_pos_iff.2 h.1
    have hn' := List.length_pos_iff.2 hn
    omega
  have hapart : Apart o n := ⟨h.2.1, fun hp => hne (hp.eq_of_length hlength.symm).symm⟩
  have harrived (r : Loc) : (fs.move o n).get (n ++ r) = fs.get (o ++ r) := by
    rw [moved_get h, moved, if_pos (List.prefix_append n r), List.drop_left]
  have hother (m : Loc) (ho : ¬ o <+: m) (hn : ¬ n <+: m) : (fs.move o n).get m = fs.get m := by
    rw [moved_get h, moved, if_neg hn, if_neg ho]
  constructor
  · intro hr
    apply or_iff_not_imp_left.2
    intro hn r
    rw [← hr.trees n r hn hapart, harrived]
  · intro hold
    -- what stands at `n` after the move, if something did before
    have htree (hn : fs.get n ≠ none) (r : Loc) : (fs.move o n).get (n ++ r) = fs.get (n ++ r) := by
      rw [harrived, hold.resolve_left hn]
    refine ⟨harrived, fun m hm ho => ?_, fun m r hm ho => ?_⟩
    · by_cases hp : n <+: m
      · obtain rfl := h.leaf hp hm
        have hself := htree hm []
        rwa [List.append_nil] at hself
      · exact hother m ho hp
    · have hnot : ¬ o <+: m ++ r := fun hp => (prefix_total hp (List.prefix_append m r)).elim ho.1 ho.2
      by_cases hp : n <+: m ++ r
      · rcases prefix_total hp (List.prefix_append m r) with hnm | hmn
        · obtain rfl := h.leaf hnm hm
          exact htree hm r
        · -- what is above the new name is above the old one
          by_cases e : m = n
          · subst e
            exact htree hm r
          · rw [← List.dropLast_append_getLast hn] at hmn e
            have hup := (List.prefix_concat_iff.1 hmn).resolve_left e
            rw [← hbeside] at hup
            exact absurd (hup.trans (List.dropLast_prefix o)) ho.2
      · exact hother _ hnot hp

/-- A rename that is allowed looks for `o` and for `n`: the entry of the old path, and
the last name of the new one in its directory. -/
structure RenamePaths (fs : FS) (refused : Bool) (old new : List Name) (o n : Loc) : Prop where
  allowed : refused = false
  named : old.getLastD [] ≠ dot ∧ old.getLastD [] ≠ dotdot
  source : ∃ nd, fs.symlinkStatus old = .found o nd
  target : ∃ parent, fs.locate .follow new.dropLast = .ok parent ∧ n = parent ++ [new.getLastD []]

theorem RenamePaths.unique {fs : FS} {refused : Bool} {old new : List Name} {o n o' n' : Loc}
    (h : RenamePaths fs refused old new o n) (h' : RenamePaths fs refused old new o' n') : o' = o ∧ n' = n := by
  obtain ⟨nd, hs⟩ := h.source
  obtain ⟨nd', hs'⟩ := h'.source
  obtain ⟨parent, hp, rfl⟩ := h.target
  obtain ⟨parent', hp', rfl⟩ := h'.target
  rw [hs] at hs'
  rw [hp] at hp'
  cases hs'
  cases hp'
  exact ⟨rfl, rfl⟩

/-- The kernel lets the entry at `o` have the place `n`: it is there, or the place is free, or what is there makes way. -/
def MakesWay (fs : FS) (o n : Loc) : Prop := o = n ∨ (fs.CanMove o n ∧ fs.get n = none) ∨ fs.Replaces o n

/-- What a rename does. -/
inductive RenameStep (fs : FS) (refused : Bool) (old new : List Name) : FS × Bool → Prop
  | failed (kept : ∀ o n, RenamePaths fs refused old new o n → ¬ fs.MakesWay o n) : RenameStep fs refused old new (fs, true)
  | same (o : Loc) (paths : RenamePaths fs refused old new o o) : RenameStep fs refused old new (fs, false)
  | moved (o n : Loc) (paths : RenamePaths fs refused old new o n) (other : o ≠ n) (can : fs.CanMove o n)
      (room : fs.get n = none ∨ fs.Replaces o n) : RenameStep fs refused old new (fs.move o n, false)

theorem renameStep (fs : FS) (refused : Bool) (old new : List Name) :
    RenameStep fs refused old new (fs.rename refused old new) := by
  unfold rename
  split
  case h_2 hnot =>
    refine .failed ?_
    intro o n hp
    obtain ⟨nd, hs⟩ := hp.source
    obtain ⟨parent, hl, -⟩ := hp.target
    exact absurd hl (hnot o nd parent hs)
  case h_1 o nd parent hs hl =>
  extract_lets n
  have hget : fs.get o = some nd := (look_found.1 hs).2
  split
  case isTrue hno =>
    refine .failed ?_
    intro o' n' hp
    simp only [hp.allowed, hp.named, decide_false, Bool.or_false, Bool.false_eq_true] at hno
  case isFalse hyes =>
  have hpaths : RenamePaths fs refused old new o n := by
    simp only [Bool.or_eq_true, decide_eq_true_eq, not_or, Bool.not_eq_true] at hyes
    exact ⟨hyes.1.1, ⟨hyes.1.2, hyes.2⟩, ⟨nd, hs⟩, ⟨parent, hl, rfl⟩⟩
  -- the paths are unique: where these replace nothing, no others do
  have hkeeps (h : ¬ fs.MakesWay o n) : RenameStep fs refused old new (fs, true) := by
    refine .failed ?_
    intro o' n' hp
    obtain ⟨rfl, rfl⟩ := hpaths.unique hp
    exact h
  split
  case isTrue he => exact .same o (he ▸ hpaths)
  case isFalse hne =>
  split
  case isTrue hcan => exact hkeeps fun hr => hr.elim hne (Or.rec (fun h => hcan h.1) fun h => hcan h.2.1)
  case isFalse hcan =>
  have hcan := not_not.1 hcan
  have replaces {old' : Node} (hn : fs.get n = some old') (hkind : nd = .dir ↔ old' = .dir) : fs.Replaces o n :=
    ⟨hne, hcan, nd, old', hget, hn, hkind⟩
  have keeps {old' : Node} (hn : fs.get n = some old') (hkind : ¬ (nd = .dir ↔ old' = .dir)) : ¬ fs.MakesWay o n := by
    rintro (he | ⟨-, hfree⟩ | ⟨-, -, nd', old'', hg, hg', hk⟩)
    · exact hne he
    · rw [hn] at hfree
      cases hfree
    rw [hget] at hg
    rw [hn] at hg'
    cases hg
    cases hg'
    exact hkind hk
  split
  case h_1 hn => exact .moved o n hpaths hne hcan (.inl hn)
  case h_2 hn => exact .moved o n hpaths hne hcan (.inr (replaces hn Iff.rfl))
  case h_3 hn hnd => exact hkeeps (keeps hn (by simpa using hnd))
  case h_4 hold hn => exact hkeeps (keeps hn (by simpa using hold))
  case h_5 hold hn _ hnd => exact .moved o n hpaths hne hcan (.inr (replaces hn (iff_of_false hnd hold)))

/-- An entry found through a plain name stands in the directory of its path. -/
theorem locate_keep_concat {fs : FS} {a : List Name} {c : Name} {o : Loc} (h : fs.locate .keep (a ++ [c]) = .ok o)
    (hc : c ≠ dot ∧ c ≠ dotdot) : ∃ l, fs.locate .follow a = .ok l ∧ o = l ++ [c] := by
  obtain ⟨k, hw⟩ := locate_eq_ok.1 h
  rw [walk_append fs .keep a [c] (by simp)] at hw
  cases ha : fs.walk .follow maxLinks [] a with
  | error e => rw [ha] at hw; cases hw
  | ok r =>
    obtain ⟨l, left⟩ := r
    rw [ha] at hw
    refine ⟨l, locate_eq_ok.2 ⟨left, ha⟩, ?_⟩
    cases walk_eq_ok_iff.1 hw with
    | dot => exact absurd rfl hc.1
    | dotdot => exact absurd rfl hc.2
    | enter dir name entry plain next =>
      cases next
      rfl
    | link dir name entry through => exact absurd ⟨rfl, rfl⟩ through
    | keep => rfl
    | make _ _ _ makes => cases makes

/-! ## Undoing -/

/-- A tree that is carried to a free name can be carried back. -/
theorem canMove_back {fs : FS} {o n : Loc} (h : fs.CanMove o n) (ho : fs.get o ≠ none) (hfree : fs.get n = none) :
    (fs.move o n).CanMove n o := by
  have hn : n ≠ [] := by
    rintro rfl
    exact absurd h.2.2.2.1 (by decide)
  have hno : ¬ n <+: o := fun hp => ho (get_eq_none_below hfree hp)
  have hup : ¬ o <+: o.dropLast := by
    intro hp
    have hle := hp.length_le
    have hpos := List.length_pos_iff.2 h.1
    rw [List.length_dropLast] at hle
    omega
  refine ⟨hn, hno, ?_, ?_, fun m _ hp _ => ?_⟩
  · rw [moved_get h, moved, if_neg fun hp => hno (hp.trans (List.dropLast_prefix o)), if_neg hup]
    exact get_dropLast ho
  · rw [← List.dropLast_append_getLast h.1] at ho
    rw [List.getLastD_eq_getLast?, List.getLast?_eq_some_getLast h.1]
    exact fs.named _ _ ho
  · have hnm : ¬ n <+: m := fun hp' => (prefix_total hp hp').elim h.2.1 hno
    rw [moved_get h, moved, if_neg hnm, if_pos hp]

theorem moved_moved {get : Loc → Option Node} {o n : Loc} (hfree : ∀ m, n <+: m → get m = none) (m : Loc) :
    moved (moved get o n) n o m = get m := by
  unfold moved
  split
  case isTrue hp =>
    obtain ⟨r, rfl⟩ := hp
    rw [List.drop_left, if_pos (List.prefix_append n r), List.drop_left]
  case isFalse ho =>
    split
    case isTrue hp => exact (hfree m hp).symm
    case isFalse => rfl

/-- Carrying a tree to a free name and back leaves everything as it was. -/
theorem move_back {fs : FS} {o n : Loc} (h : fs.CanMove o n) (ho : fs.get o ≠ none) (hfree : fs.get n = none) (m : Loc) :
    ((fs.move o n).move n o).get m = fs.get m := by
  rw [moved_get (canMove_back h ho hfree), funext (moved_get h)]
  exact moved_moved (fun _ hp => get_eq_none_below hfree hp) m

/-- The trees agree wherever both have an entry. -/
def Agrees (fs fs' : FS) : Prop := ∀ l, fs.get l ≠ none → fs'.get l ≠ none → fs'.get l = fs.get l

/-- What a path finds in both of two trees that agree is the same. -/
theorem Agrees.walks {fs fs' : FS} (h : Agrees fs fs') {last : Last} (hl : last ≠ .make) {k : Nat} {cur : Loc}
    {p : List Name} {r r' : Loc × Nat} (hw : Walks fs last k cur p r) (hw' : Walks fs' last k cur p r') : r' = r := by
  have same {l : Loc} {nd nd' : Node} (hnd : fs.get l = some nd) (hnd' : fs'.get l = some nd') : nd = nd' := by
    have he := h l (by rw [hnd]; nofun) (by rw [hnd']; nofun)
    rw [hnd, hnd'] at he
    exact (Option.some.inj he).symm
  induction hw with
  | done => cases hw'; rfl
  | dot dir next ih =>
    cases hw' with
    | dot _ next' => exact ih next'
    | enter _ name' | link _ name' | keep _ name' => exact absurd rfl name'.1
    | make _ name' => exact absurd rfl name'.2.1
  | dotdot dir next ih =>
    cases hw' with
    | dotdot _ next' => exact ih next'
    | enter _ name' | link _ name' | keep _ name' => exact absurd rfl name'.2
    | make _ name' => exact absurd rfl name'.2.2.1
  | enter dir name entry plain next ih =>
    cases hw' with
    | dot => exact absurd rfl name.1
    | dotdot => exact absurd rfl name.2
    | enter _ _ _ _ next' => exact ih next'
    | link _ _ entry' => exact absurd (same entry entry') (plain _)
    | keep _ _ entry' => exact absurd (same entry entry') (plain _)
    | make _ _ _ makes => exact absurd makes hl
  | link dir name entry through next ih =>
    cases hw' with
    | dot => exact absurd rfl name.1
    | dotdot => exact absurd rfl name.2
    | enter _ _ entry' plain' => exact absurd (same entry entry').symm (plain' _)
    | link _ _ entry' _ next' =>
      cases same entry entry'
      exact ih next'
    | keep _ _ _ stops => exact absurd ⟨rfl, stops⟩ through
    | make _ _ _ makes => exact absurd makes hl
  | keep dir name entry stops =>
    cases hw' with
    | dot => exact absurd rfl name.1
    | dotdot => exact absurd rfl name.2
    | enter _ _ entry' plain' => exact absurd (same entry entry').symm (plain' _)
    | link _ _ _ through => exact absurd ⟨rfl, stops⟩ through
    | keep => rfl
    | make _ _ _ makes => exact absurd makes hl
  | make dir name free makes => exact absurd makes hl

theorem agrees_move {fs : FS} {o n : Loc} (h : fs.CanMove o n) (hfree : fs.get n = none) : Agrees fs (fs.move o n) := by
  intro l hl hl'
  have hnot : ¬ n <+: l := fun hp => hl (get_eq_none_below hfree hp)
  rw [moved_get h, moved, if_neg hnot] at hl' ⊢
  split at hl'
  · exact absurd rfl hl'
  case isFalse ho => rw [if_neg ho]

/-- A rename to a free name carries the tree there. -/
theorem rename_of_free {fs : FS} {old dir : List Name} {c : Name} {o parent : Loc} {nd : Node}
    (hs : fs.symlinkStatus old = .found o nd) (hp : fs.locate .follow dir = .ok parent)
    (hnamed : old.getLastD [] ≠ dot ∧ old.getLastD [] ≠ dotdot) (hcan : fs.CanMove o (parent ++ [c]))
    (hfree : fs.get (parent ++ [c]) = none) :
    fs.rename false old (dir ++ [c]) = (fs.move o (parent ++ [c]), false) := by
  have hne : o ≠ parent ++ [c] := by
    rintro e
    rw [← e, (look_found.1 hs).2] at hfree
    cases hfree
  unfold rename
  rw [hs, List.dropLast_concat, hp, List.getLastD_concat]
  dsimp only
  rw [if_neg (by rw [decide_eq_false hnamed.1, decide_eq_false hnamed.2]; decide), if_neg hne, if_neg (not_not.2 hcan),
    hfree]

end Posix.FS
