import StorageAccess.Lib.Changes
/-!
# What removing takes away

Removing by a path takes the entry the path names, links not followed, and all
below it, in an order in which what a directory holds comes before the directory.
It ends at the first entry that is stuck. So with an entry all that is below it is
taken, and what is stuck stays with every directory above it.
-/

namespace Posix.FS

theorem get_ne_none_of_look {fs : FS} {last : Last} {p : List Name} {l : Loc} {nd : Node}
    (h : fs.look last p = .found l nd) : fs.get l ≠ none := by
  rw [(look_found.1 h).2]
  exact Option.some_ne_none nd

/-- A path that ends in `.` or `..` names a directory. -/
theorem dir_of_dots {fs : FS} {last : Last} {p : List Name} {l : Loc} {nd : Node} (h : fs.look last p = .found l nd)
    (hp : p.getLastD [] = dot ∨ p.getLastD [] = dotdot) : nd = .dir := by
  obtain ⟨hloc, hg⟩ := look_found.1 h
  obtain ⟨k, hw⟩ := locate_eq_ok.1 hloc
  rcases List.eq_nil_or_concat p with rfl | ⟨a, c, rfl⟩
  · rcases hp with hp | hp <;> exact absurd hp (by decide)
  rw [List.concat_eq_append] at hw hp
  rw [walk_append fs last a [c] (by simp)] at hw
  cases ha : fs.walk .follow maxLinks [] a with
  | error e => rw [ha] at hw; cases hw
  | ok r =>
    rw [ha] at hw
    change fs.walk last r.2 r.1 [c] = .ok (l, k) at hw
    by_cases hd : fs.get r.1 = some .dir
    case neg => simp [walk_cons, hd] at hw
    have hparent : fs.get r.1.dropLast = some .dir := get_dropLast (by simp [hd])
    have hc : c = dot ∨ c = dotdot := by simpa using hp
    have hl : l = r.1 ∨ l = r.1.dropLast := by
      have hdots : dotdot ≠ dot := by decide
      rw [walk_cons, if_neg (not_not.2 hd)] at hw
      rcases hc with rfl | rfl
      · rw [if_pos rfl, walk_nil] at hw
        exact .inl (Prod.mk.inj (Except.ok.inj hw)).1.symm
      · rw [if_neg hdots, if_pos rfl, walk_nil] at hw
        exact .inr (Prod.mk.inj (Except.ok.inj hw)).1.symm
    rcases hl with rfl | rfl
    · exact Option.some.inj (hg.symm.trans hd)
    · exact Option.some.inj (hg.symm.trans hparent)

/-- Nothing stands below an entry that is no directory. -/
theorem get_below_eq_none {fs : FS} {l m : Loc} (hl : fs.get l ≠ some .dir) (hp : l <+: m) (hne : l ≠ m) :
    fs.get m = none := by
  by_contra h
  exact hl (fs.get_of_prefix hp hne h)

/-! ## The order of a removal -/

/-- `l` and what is below it; `l` itself only if `self`. -/
def region (self : Bool) (l m : Loc) : Prop := l <+: m ∧ (self = true ∨ m ≠ l)

instance (self : Bool) (l m : Loc) : Decidable (region self l m) := inferInstanceAs (Decidable (_ ∧ _))

theorem region.below {self : Bool} {l m m' : Loc} (h : region self l m) (hm : m <+: m') : region self l m' := by
  refine ⟨h.1.trans hm, h.2.imp_right fun hne e => hne ?_⟩
  exact (h.1.eq_of_length (Nat.le_antisymm h.1.length_le (e ▸ hm.length_le))).symm

theorem postorder_concat (fs : FS) (depth : Nat) (l : Loc) : ∃ ls, fs.postorder depth l = ls ++ [l] := by
  cases depth with
  | zero => exact ⟨[], rfl⟩
  | succ depth => exact ⟨_, rfl⟩

theorem prefix_of_mem_postorder {fs : FS} {depth : Nat} {l m : Loc} (h : m ∈ fs.postorder depth l) : l <+: m := by
  induction depth generalizing l with
  | zero => rw [List.mem_singleton.1 h]
  | succ depth ih =>
    rcases List.mem_append.1 h with h | h
    · obtain ⟨n, -, hn⟩ := List.mem_flatMap.1 h
      exact (List.prefix_append l [n]).trans (ih hn)
    · rw [List.mem_singleton.1 h]

theorem get_of_mem_postorder {fs : FS} {depth : Nat} {l m : Loc} (hl : fs.get l ≠ none)
    (h : m ∈ fs.postorder depth l) : fs.get m ≠ none := by
  induction depth generalizing l with
  | zero => rwa [List.mem_singleton.1 h]
  | succ depth ih =>
    rcases List.mem_append.1 h with h | h
    · obtain ⟨n, hn, hm⟩ := List.mem_flatMap.1 h
      exact ih (mem_children.1 hn) hm
    · rwa [List.mem_singleton.1 h]

theorem mem_postorder {fs : FS} {depth : Nat} {l m : Loc} (hm : fs.get m ≠ none) (hp : l <+: m)
    (hlen : m.length ≤ l.length + depth) : m ∈ fs.postorder depth l := by
  induction depth generalizing l with
  | zero => rw [hp.eq_of_length (Nat.le_antisymm hp.length_le hlen)]; exact List.mem_singleton_self m
  | succ depth ih =>
    obtain ⟨r, rfl⟩ := hp
    cases r with
    | nil => simp [postorder]
    | cons n r =>
      have hbelow : l ++ [n] <+: l ++ n :: r := ⟨r, by simp⟩
      have hn : fs.get (l ++ [n]) ≠ none := fun e => hm (get_eq_none_below e hbelow)
      refine List.mem_append_left _ (List.mem_flatMap.2 ⟨n, mem_children.2 hn, ih hbelow ?_⟩)
      simp only [List.length_append, List.length_cons, List.length_nil] at hlen ⊢
      omega

/-- No entry comes before one that it is at or above. -/
theorem pairwise_postorder (fs : FS) (depth : Nat) (l : Loc) : (fs.postorder depth l).Pairwise fun m m' => ¬ m <+: m' := by
  induction depth generalizing l with
  | zero => exact List.pairwise_singleton _ l
  | succ depth ih =>
    have habove : ∀ {n m : Loc} {c : Name}, n ++ [c] <+: m → ¬ m <+: n := fun hm hn => by
      have := (hm.trans hn).length_le
      rw [List.length_append, List.length_singleton] at this
      omega
    refine List.pairwise_append.2 ⟨List.pairwise_flatMap.2 ⟨fun n _ => ih (l ++ [n]), ?_⟩, List.pairwise_singleton _ l, ?_⟩
    · refine (fs.nodup_children l).imp fun hne m hm m' hm' hp => ?_
      exact (apart_concat hne).not_both ((prefix_of_mem_postorder hm).trans hp) (prefix_of_mem_postorder hm')
    · intro m hm m' hm'
      obtain ⟨n, -, hn⟩ := List.mem_flatMap.1 hm
      rw [List.mem_singleton.1 hm']
      exact habove (prefix_of_mem_postorder hn)

theorem pairwise_removals (fs : FS) (self : Bool) (l : Loc) : (fs.removals self l).Pairwise fun m m' => ¬ m <+: m' := by
  unfold removals
  split
  · exact pairwise_postorder fs fs.depth l
  · exact (pairwise_postorder fs fs.depth l).sublist (List.dropLast_sublist _)

/-- There is to remove what stands in the region. -/
theorem mem_removals_iff {fs : FS} {self : Bool} {l m : Loc} (hl : fs.get l ≠ none) :
    m ∈ fs.removals self l ↔ region self l m ∧ fs.get m ≠ none := by
  have hpost : m ∈ fs.postorder fs.depth l ↔ l <+: m ∧ fs.get m ≠ none :=
    ⟨fun h => ⟨prefix_of_mem_postorder h, get_of_mem_postorder hl h⟩, fun h =>
      mem_postorder h.2 h.1 ((length_le_depth h.2).trans (Nat.le_add_left ..))⟩
  cases self with
  | true => simp [removals, region, hpost]
  | false =>
    obtain ⟨ls, hls⟩ := postorder_concat fs fs.depth l
    have hne : m ∈ ls → m ≠ l := by
      rintro hm rfl
      have hpair := pairwise_postorder fs fs.depth m
      rw [hls] at hpair
      exact (List.pairwise_append.1 hpair).2.2 m hm m (List.mem_singleton_self m) (List.prefix_refl m)
    simp only [removals, hls, List.mem_append, List.mem_singleton] at hpost ⊢
    simp only [region, Bool.false_eq_true, if_false, List.dropLast_concat, false_or, ne_eq]
    constructor
    · exact fun h => ⟨⟨(hpost.1 (.inl h)).1, hne h⟩, (hpost.1 (.inl h)).2⟩
    · exact fun h => (hpost.2 ⟨h.1.1, h.2⟩).resolve_right h.1.2

/-- The entries a removal takes before it meets one that is stuck. -/
def removed (fs : FS) (stuck : Loc → Bool) (self : Bool) (l : Loc) : List Loc :=
  (fs.removals self l).takeWhile (!stuck ·)

theorem region_of_mem_removed {fs : FS} {stuck : Loc → Bool} {self : Bool} {l m : Loc} (hl : fs.get l ≠ none)
    (h : m ∈ fs.removed stuck self l) : region self l m ∧ fs.get m ≠ none :=
  (mem_removals_iff hl).1 ((List.takeWhile_sublist _).subset h)

/-- What is taken is not stuck. -/
theorem free_of_mem_removed {fs : FS} {stuck : Loc → Bool} {self : Bool} {l m : Loc}
    (h : m ∈ fs.removed stuck self l) : stuck m = false := by
  simpa using List.mem_takeWhile_imp h

/-- With an entry all that is below it is taken. -/
theorem mem_removed_below {fs : FS} {stuck : Loc → Bool} {self : Bool} {l m m' : Loc} (hl : fs.get l ≠ none)
    (h : m ∈ fs.removed stuck self l) (hp : m <+: m') (hm' : fs.get m' ≠ none) : m' ∈ fs.removed stuck self l := by
  have hmem : m' ∈ fs.removals self l := (mem_removals_iff hl).2 ⟨(region_of_mem_removed hl h).1.below hp, hm'⟩
  have hpair := fs.pairwise_removals self l
  rw [← List.takeWhile_append_dropWhile (p := (!stuck ·)) (l := fs.removals self l)] at hmem hpair
  refine (List.mem_append.1 hmem).resolve_right fun hlate => ?_
  exact (List.pairwise_append.1 hpair).2.2 m h m' hlate hp

/-- Where nothing to remove is stuck, all of it is taken. -/
theorem removed_of_free {fs : FS} {stuck : Loc → Bool} {self : Bool} {l : Loc}
    (h : ∀ m ∈ fs.removals self l, stuck m = false) : fs.removed stuck self l = fs.removals self l :=
  List.takeWhile_eq_self_iff.2 fun m hm => by simp [h m hm]

theorem taken_iff_of_get {fs : FS} {stuck : Loc → Bool} {self : Bool} {l m : Loc} (hl : fs.get l ≠ none)
    (hm : fs.get m ≠ none) : taken (fs.removed stuck self l) m = true ↔ m ≠ [] ∧ m ∈ fs.removed stuck self l := by
  simp only [taken, List.any_eq_true, Bool.and_eq_true, decide_eq_true_eq, List.isPrefixOf_iff_prefix]
  constructor
  · rintro ⟨r, hr, hne, hp⟩
    refine ⟨fun e => hne (List.prefix_nil.1 (e ▸ hp)), mem_removed_below hl hr hp hm⟩
  · exact fun h => ⟨m, h.2, h.1, List.prefix_refl m⟩

theorem region_of_taken {fs : FS} {stuck : Loc → Bool} {self : Bool} {l m : Loc} (hl : fs.get l ≠ none)
    (h : taken (fs.removed stuck self l) m = true) : region self l m := by
  simp only [taken, List.any_eq_true, Bool.and_eq_true, List.isPrefixOf_iff_prefix] at h
  obtain ⟨r, hr, -, hp⟩ := h
  exact (region_of_mem_removed hl hr).1.below hp

/-! ## What a removal leaves -/

/-- Whether removing by the path takes what the path names, and not only what is below it. -/
def takesSelf (p : List Name) : Bool := p.getLastD [] ≠ dot ∧ p.getLastD [] ≠ dotdot

/-- Removing takes away entries at and below what the path names, without following a last link. -/
theorem removeAll_get (fs : FS) (stuck : Loc → Bool) (p : List Name) {l : Loc} {nd : Node}
    (h : fs.symlinkStatus p = .found l nd) (m : Loc) :
    (fs.removeAll stuck p).1.get m = if taken (fs.removed stuck (takesSelf p) l) m then none else fs.get m := by
  unfold removeAll
  rw [h]
  rfl

theorem removeAll_eq_self (fs : FS) (stuck : Loc → Bool) (p : List Name)
    (h : ∀ l nd, fs.symlinkStatus p ≠ .found l nd) : (fs.removeAll stuck p).1 = fs := by
  unfold removeAll
  cases hs : fs.symlinkStatus p with
  | found l nd => exact absurd hs (h l nd)
  | absent | failed => rfl

theorem removeAll_get_of_not_prefix (fs : FS) (stuck : Loc → Bool) (p : List Name) {m : Loc}
    (h : ∀ l nd, fs.symlinkStatus p = .found l nd → ¬ l <+: m) : (fs.removeAll stuck p).1.get m = fs.get m := by
  cases hs : fs.symlinkStatus p with
  | found l nd =>
    rw [removeAll_get fs stuck p hs, if_neg]
    exact fun ht => h l nd hs (region_of_taken (get_ne_none_of_look hs) ht).1
  | absent | failed => rw [removeAll_eq_self fs stuck p (by simp [hs])]

/-- What is there after a removal was there before. -/
theorem get_of_removeAll {fs : FS} {stuck : Loc → Bool} {p : List Name} {m : Loc} {nd : Node}
    (hm : (fs.removeAll stuck p).1.get m = some nd) : fs.get m = some nd := by
  cases hs : fs.symlinkStatus p with
  | found l nd' =>
    rw [removeAll_get fs stuck p hs] at hm
    split at hm
    · cases hm
    · exact hm
  | absent | failed => rwa [removeAll_eq_self fs stuck p (by simp [hs])] at hm

theorem extends_removeAll (fs : FS) (stuck : Loc → Bool) (p : List Name) : Extends (fs.removeAll stuck p).1 fs :=
  fun _ nd hm => ⟨nd, get_of_removeAll hm, rfl⟩

/-- Removing by the path takes the entry at `m`: it is to be removed, and nothing that is stuck comes before. -/
def Removable (fs : FS) (stuck : Loc → Bool) (p : List Name) (m : Loc) : Prop :=
  ∃ l nd, fs.symlinkStatus p = .found l nd ∧ m ≠ [] ∧ m ∈ fs.removed stuck (takesSelf p) l

theorem removeAll_keeps_iff (fs : FS) (stuck : Loc → Bool) (p : List Name) {m : Loc} {nd : Node}
    (hm : fs.get m = some nd) : (fs.removeAll stuck p).1.get m = some nd ↔ ¬ fs.Removable stuck p m := by
  unfold Removable
  cases hs : fs.symlinkStatus p with
  | absent | failed =>
    rw [removeAll_eq_self fs stuck p (by simp [hs])]
    exact iff_of_true hm (by simp)
  | found l nd' =>
    have htaken : taken (fs.removed stuck (takesSelf p) l) m = true ↔ m ≠ [] ∧ m ∈ fs.removed stuck (takesSelf p) l :=
      taken_iff_of_get (get_ne_none_of_look hs) (hm ▸ Option.some_ne_none nd)
    rw [removeAll_get fs stuck p hs]
    constructor
    · rintro h ⟨l', nd'', hl', hmem⟩
      obtain ⟨rfl, -⟩ : l = l' ∧ nd' = nd'' := by simpa using hl'
      rw [if_pos (htaken.2 hmem)] at h
      cases h
    · intro hn
      rw [if_neg fun ht => hn ⟨l, nd', rfl, htaken.1 ht⟩, hm]

/-- A removal that goes through leaves nothing of what it was to remove, and all the rest. -/
theorem removeAll_free {fs : FS} {stuck : Loc → Bool} {p : List Name} {l : Loc} {nd : Node}
    (h : fs.symlinkStatus p = .found l nd) (hfree : ∀ m ∈ fs.removals (takesSelf p) l, stuck m = false) {m : Loc}
    (hroot : m ≠ []) : (fs.removeAll stuck p).1.get m = if region (takesSelf p) l m then none else fs.get m := by
  have hl := get_ne_none_of_look h
  rw [removeAll_get fs stuck p h]
  by_cases hm : fs.get m = none
  · simp [hm]
  have hiff : taken (fs.removed stuck (takesSelf p) l) m = true ↔ region (takesSelf p) l m := by
    rw [taken_iff_of_get hl hm, removed_of_free hfree, mem_removals_iff hl]
    exact ⟨fun h => h.2.1, fun h => ⟨hroot, h, hm⟩⟩
  simp only [hiff]

theorem free_of_removeAll {fs : FS} {stuck : Loc → Bool} {p : List Name} {l : Loc} {nd : Node}
    (h : fs.symlinkStatus p = .found l nd) (hok : (fs.removeAll stuck p).2 = false) :
    ∀ m ∈ fs.removals (takesSelf p) l, stuck m = false := by
  intro m hm
  unfold removeAll at hok
  rw [h] at hok
  simpa using List.any_eq_false.1 (Bool.or_eq_false_iff.1 hok).1 m hm

theorem removeAll_done {fs : FS} {stuck : Loc → Bool} {p : List Name} {l m : Loc} {nd : Node}
    (h : fs.symlinkStatus p = .found l nd) (hok : (fs.removeAll stuck p).2 = false) (hroot : m ≠ []) :
    (fs.removeAll stuck p).1.get m = if region (takesSelf p) l m then none else fs.get m :=
  removeAll_free h (free_of_removeAll h hok) hroot

/-- Something of what is to be removed is stuck, or the path itself cannot be: it leads
nowhere for its links, or ends in `.` or `..` and still resolves when the directory is empty. -/
def RemovalFails (fs : FS) (stuck : Loc → Bool) (p : List Name) : Prop :=
  fs.symlinkStatus p = .failed ∨ ∃ l nd, fs.symlinkStatus p = .found l nd ∧
    ((∃ m, region (takesSelf p) l m ∧ fs.get m ≠ none ∧ stuck m = true) ∨
      takesSelf p = false ∧ (fs.removeEntries (fs.removals false l)).exists? p = true)

theorem removeAll_fails_iff (fs : FS) (stuck : Loc → Bool) (p : List Name) :
    (fs.removeAll stuck p).2 = true ↔ fs.RemovalFails stuck p := by
  unfold RemovalFails
  cases hs : fs.symlinkStatus p with
  | absent => simp [removeAll, hs]
  | failed => simp [removeAll, hs]
  | found l nd =>
    have hl := get_ne_none_of_look hs
    have hthrew : (fs.removeAll stuck p).2 = ((fs.removals (takesSelf p) l).any stuck ||
        (!takesSelf p && (fs.removeEntries (fs.removed stuck (takesSelf p) l)).exists? p)) := by
      unfold removeAll
      rw [hs]
      rfl
    have hany : (fs.removals (takesSelf p) l).any stuck = true ↔
        ∃ m, region (takesSelf p) l m ∧ fs.get m ≠ none ∧ stuck m = true := by
      simp only [List.any_eq_true, mem_removals_iff hl, and_assoc]
    have hfound : (∃ l' nd', Lookup.found l nd = .found l' nd' ∧
        ((∃ m, region (takesSelf p) l' m ∧ fs.get m ≠ none ∧ stuck m = true) ∨
          takesSelf p = false ∧ (fs.removeEntries (fs.removals false l')).exists? p = true)) ↔
        ((fs.removals (takesSelf p) l).any stuck = true ∨
          takesSelf p = false ∧ (fs.removeEntries (fs.removals false l)).exists? p = true) := by
      rw [hany]
      constructor
      · rintro ⟨l', nd', e, h⟩
        cases e
        exact h
      · exact fun h => ⟨l, nd, rfl, h⟩
    rw [hfound, hthrew, Bool.or_eq_true]
    by_cases hstuck : (fs.removals (takesSelf p) l).any stuck = true
    · simp [hstuck]
    · -- where nothing is stuck the directory is emptied
      have hfree : ∀ m ∈ fs.removals (takesSelf p) l, stuck m = false := by
        simpa using List.any_eq_false.1 (Bool.eq_false_iff.2 hstuck)
      rw [removed_of_free hfree]
      cases takesSelf p <;> simp

/-- A removal that goes through takes all that is below what the path names, and that too. -/
theorem removeAll_takes {fs : FS} {stuck : Loc → Bool} {p : List Name} {l m : Loc} {nd : Node}
    (h : fs.symlinkStatus p = .found l nd) (hp : p.getLastD [] ≠ dot ∧ p.getLastD [] ≠ dotdot)
    (hok : (fs.removeAll stuck p).2 = false) (hm : l <+: m) (hroot : m ≠ []) :
    (fs.removeAll stuck p).1.get m = none := by
  rw [removeAll_done h hok hroot, if_pos ⟨hm, .inl (decide_eq_true hp)⟩]

/-- Removing by a path that names no directory takes that entry, unless it is stuck. -/
theorem removeAll_leaf {fs : FS} {stuck : Loc → Bool} {p : List Name} {l : Loc} {nd : Node}
    (h : fs.symlinkStatus p = .found l nd) (hnd : nd ≠ .dir) (m : Loc) :
    (fs.removeAll stuck p).1.get m = if m = l ∧ stuck l = false then none else fs.get m := by
  have hg := (look_found.1 h).2
  have hl := get_ne_none_of_look h
  have hroot : l ≠ [] := by rintro rfl; exact hnd (Option.some.inj (hg.symm.trans fs.root))
  have hself : takesSelf p = true :=
    decide_eq_true ⟨fun e => hnd (dir_of_dots h (.inl e)), fun e => hnd (dir_of_dots h (.inr e))⟩
  have hleaf : fs.get l ≠ some .dir := fun e => hnd (Option.some.inj (hg.symm.trans e))
  by_cases hm : fs.get m = none
  · rw [removeAll_get fs stuck p h, hm]
    simp
  have honly : ∀ m', m' ∈ fs.removals (takesSelf p) l → m' = l := by
    intro m' hm'
    obtain ⟨hp, hget⟩ := (mem_removals_iff hl).1 hm'
    by_contra hne
    exact hget (get_below_eq_none hleaf hp.1 (Ne.symm hne))
  by_cases hs : stuck l = false
  · have hmroot : m = [] → ¬ region (takesSelf p) l m := by
      rintro rfl hr
      exact hroot (List.prefix_nil.1 hr.1)
    have hiff : region (takesSelf p) l m ↔ m = l :=
      ⟨fun hr => honly m ((mem_removals_iff hl).2 ⟨hr, hm⟩), fun e => ⟨e ▸ List.prefix_refl l, .inl hself⟩⟩
    by_cases he : m = []
    · rw [removeAll_get fs stuck p h, if_neg fun ht => hmroot he (region_of_taken hl ht), if_neg]
      exact fun hc => hroot (hc.1 ▸ he)
    · rw [removeAll_free h (fun m' hm' => honly m' hm' ▸ hs) he]
      simp [hiff, hs]
  · rw [removeAll_get fs stuck p h, if_neg, if_neg fun hc => hs hc.2]
    intro ht
    have hmem := ((taken_iff_of_get hl hm).1 ht).2
    exact hs (honly m ((List.takeWhile_sublist _).subset hmem) ▸ free_of_mem_removed hmem)

/-- The trees with the same entries in the same order are the same. -/
theorem eq_of_get {fs fs' : FS} (h : ∀ m, fs.get m = fs'.get m) (hn : fs.names = fs'.names) : fs = fs' := by
  obtain ⟨get, names, _, _, _, _⟩ := fs
  obtain ⟨get', names', _, _, _, _⟩ := fs'
  obtain rfl : get = get' := funext h
  obtain rfl : names = names' := hn
  rfl

theorem removeAll_names (fs : FS) (stuck : Loc → Bool) (p : List Name) : (fs.removeAll stuck p).1.names = fs.names := by
  unfold removeAll
  cases fs.symlinkStatus p <;> rfl

/-- Whether a file can still be read through the path it was removed by. -/
theorem readFile_removeAll {fs : FS} {stuck : Loc → Bool} {p : List Name} {content : List UInt8} {l : Loc} {nd : Node}
    (hr : fs.readFile p = some content) (hs : fs.symlinkStatus p = .found l nd) :
    (fs.removeAll stuck p).1.readFile p = if stuck l = true then some content else none := by
  obtain ⟨m, hstatus⟩ : ∃ m, fs.status p = .found m (.file content) := by
    unfold readFile at hr
    split at hr
    case h_1 m c hst => exact ⟨m, by rw [hst, Option.some.inj hr]⟩
    case h_2 => cases hr
  have hnd : nd ≠ .dir := by
    rintro rfl
    have hdir := status_of_symlinkStatus hs (by simp)
    rw [hstatus] at hdir
    cases hdir
  split
  case isTrue hstuck =>
    have hsame : (fs.removeAll stuck p).1 = fs :=
      eq_of_get (fun m => by rw [removeAll_leaf hs hnd, if_neg (by simp [hstuck])]) (removeAll_names fs stuck p)
    rw [hsame, hr]
  case isFalse hfree =>
    -- a file found through the path would be found there before, where nothing is left
    have hgone : (fs.removeAll stuck p).1.get l = none := by
      rw [removeAll_leaf hs hnd, if_pos ⟨rfl, by simpa using hfree⟩]
    unfold readFile
    split
    case h_2 => rfl
    case h_1 m' c hst =>
      obtain ⟨m'', nd'', hk⟩ := symlinkStatus_of_status hst
      obtain ⟨nd₀, hk₀, -⟩ := look_of_extends (extends_removeAll fs stuck p) (by decide) hk
      have e : fs.symlinkStatus p = .found m'' nd₀ := hk₀
      rw [hs] at e
      injection e with hl
      rw [← hl] at hk
      rw [(look_found.1 hk).2] at hgone
      cases hgone

/-- A path through which a file can be written. -/
def Opens (fs : FS) (p : List Name) : Prop :=
  (∃ l c, fs.status p = .found l (.file c)) ∨ (fs.status p = .absent ∧ ∃ l, fs.locate .make p = .ok l)

theorem writeFile_isSome_iff (fs : FS) (cut : Option Nat) (p : List Name) (content : List UInt8) :
    (fs.writeFile cut p content).isSome ↔ fs.Opens p := by
  unfold writeFile Opens
  extract_lets data
  cases hs : fs.status p with
  | failed => simp
  | absent => cases hl : fs.locate .make p <;> simp
  | found l nd => cases nd <;> simp

/-- Removing all that grew at a free place, none of it stuck, leaves the tree as it was. -/
theorem removeAll_of_grew {fs fs' : FS} {stuck : Loc → Bool} {p : List Name} {P : Loc} {nd : Node} (hP : P ≠ [])
    (hfree : fs.get P = none) (hg : Grew P fs fs') (hstuck : ∀ l, P <+: l → stuck l = false)
    (hs : fs'.symlinkStatus p = .found P nd) (hnamed : p.getLastD [] ≠ dot ∧ p.getLastD [] ≠ dotdot) (m : Loc) :
    (fs'.removeAll stuck p).1.get m = fs.get m := by
  have hl := get_ne_none_of_look hs
  by_cases hp : P <+: m
  · have hm : m ≠ [] := by
      rintro rfl
      exact hP (List.prefix_nil.1 hp)
    rw [removeAll_free hs (fun m' hm' => hstuck m' ((mem_removals_iff hl).1 hm').1.1) hm,
      if_pos ⟨hp, .inl (decide_eq_true hnamed)⟩]
    exact (get_eq_none_below hfree hp).symm
  · rw [removeAll_get fs' stuck p hs, if_neg fun ht => hp (region_of_taken hl ht).1]
    exact hg.within m hp

end Posix.FS
