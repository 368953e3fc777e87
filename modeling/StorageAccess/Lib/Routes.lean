import Mathlib.Algebra.BigOperators.Group.Finset.Basic
import Mathlib.Algebra.GroupWithZero.Nat
import StorageAccess.Lib.Changes
/-!
# Routes below a directory

A route is a list of names that leads from a directory to a file, through
directories and links to directories. Links may lead back to a directory above,
but a lookup passes only so many of them, so the routes have a bounded length.
`routes` lists them, each once; one file may end many routes.
-/

namespace Posix

namespace FS

/-! ## How long a route may be -/

/-- Each link lets a route start anew from any place in the tree. -/
def reach (fs : FS) : Nat := (maxLinks + 1) * (fs.depth + 1)

/-- How many names may follow, from a place with the links that are left. -/
def room (fs : FS) (r : Loc × Nat) : Nat := r.2 * (fs.depth + 1) + (fs.depth - r.1.length)

theorem room_lt_reach (fs : FS) {r : Loc × Nat} (h : r.2 ≤ maxLinks) : fs.room r < fs.reach := by
  have hlinks : r.2 * (fs.depth + 1) ≤ maxLinks * (fs.depth + 1) := Nat.mul_le_mul_right _ h
  unfold room reach
  rw [Nat.succ_mul]
  omega

/-- A walk uses up links. -/
theorem walk_links_le {fs : FS} {last : Last} {n : Nat} {cur : Loc} {p : List Name} {r : Loc × Nat}
    (h : fs.walk last n cur p = .ok r) : r.2 ≤ n := by
  replace h := walk_eq_ok_iff.1 h
  induction h with
  | done | keep | make => exact Nat.le_refl _
  | dot _ _ ih | dotdot _ _ ih | enter _ _ _ _ _ ih => exact ih
  | link _ _ _ _ _ ih => exact Nat.le_succ_of_le ih

theorem isDir_of_walk {fs : FS} {last : Last} {n : Nat} {cur : Loc} {p : List Name} {r : Loc × Nat}
    (h : fs.walk last n cur p = .ok r) (hp : p ≠ []) : fs.get cur = some .dir := by
  cases p with
  | nil => exact absurd rfl hp
  | cons c rest =>
    rw [walk_cons] at h
    by_contra hd
    rw [if_pos hd] at h
    cases h

/-- Every name of a route takes up room. -/
theorem room_of_walk_name {fs : FS} {n : Nat} {cur : Loc} {c : Name} (hc : IsName c) {r : Loc × Nat}
    (h : fs.walk .follow n cur [c] = .ok r) : fs.room r < fs.room (cur, n) := by
  have hd := isDir_of_walk h (List.cons_ne_nil _ _)
  have hend : r.1.length ≤ fs.depth :=
    length_le_depth (get_of_walk fs .follow (by decide) n cur [c] (by simp [hd]) h)
  rw [walk_name fs .follow n cur c hd hc] at h
  cases hg : fs.get (cur ++ [c]) with
  | none => simp [hg] at h
  | some nd =>
    rw [hg] at h
    cases nd with
    | link t =>
      dsimp only at h
      rw [if_neg (by decide)] at h
      cases n with
      | zero => cases h
      | succ n =>
        -- the link that was passed makes up for the depth that is gained
        have hlinks : r.2 * (fs.depth + 1) ≤ n * (fs.depth + 1) := Nat.mul_le_mul_right _ (walk_links_le h)
        simp only [room, Nat.succ_mul]
        omega
    | file | dir =>
      cases h
      have hlen : (cur ++ [c]).length ≤ fs.depth := hend
      rw [List.length_append, List.length_singleton] at hlen
      simp only [room, List.length_append, List.length_singleton]
      omega

theorem walk_route_cons {fs : FS} {n : Nat} {cur : Loc} {c : Name} {names : List Name} {r : Loc × Nat} :
    fs.walk .follow n cur (c :: names) = .ok r ↔
      ∃ r', fs.walk .follow n cur [c] = .ok r' ∧ fs.walk .follow r'.2 r'.1 names = .ok r := by
  cases names with
  | nil => simp [walk_nil]
  | cons c' names =>
    rw [← List.singleton_append, walk_append fs .follow [c] (c' :: names) (List.cons_ne_nil _ _)]
    cases fs.walk .follow n cur [c] <;> simp [Except.bind]

/-- A route is no longer than the room there is. -/
theorem length_le_room {fs : FS} {names : List Name} (hnames : ∀ c ∈ names, IsName c) {n : Nat} {cur : Loc}
    {r : Loc × Nat} (h : fs.walk .follow n cur names = .ok r) : names.length ≤ fs.room (cur, n) := by
  induction names generalizing n cur with
  | nil => exact Nat.zero_le _
  | cons c names ih =>
    obtain ⟨r', hr', hrest⟩ := walk_route_cons.1 h
    have hlt := room_of_walk_name (hnames c List.mem_cons_self) hr'
    have hle : names.length ≤ fs.room r' := ih (fun c' hc' => hnames c' (List.mem_cons_of_mem _ hc')) hrest
    rw [List.length_cons]
    omega

/-! ## All routes -/

/-- The routes of at most so many names that `shown` admits, each with the file it ends at. -/
def routes (fs : FS) (shown : Name → Bool) : Nat → Loc × Nat → List (List Name × Loc)
  | 0, _ => []
  | depth + 1, r =>
    ((fs.children r.1).filter (shown ·)).flatMap fun c =>
      match fs.walk .follow r.2 r.1 [c] with
      | .ok r' =>
        match fs.get r'.1 with
        | some (.file _) => [([c], r'.1)]
        | some .dir => (fs.routes shown depth r').map fun q => (c :: q.1, q.2)
        | _ => []
      | .error _ => []

/-- The names lead from a place to a file at `m`. -/
structure IsRoute (fs : FS) (shown : Name → Bool) (r : Loc × Nat) (names : List Name) (m : Loc) : Prop where
  nonempty : names ≠ []
  shown : ∀ c ∈ names, IsName c ∧ shown c = true
  leads : ∃ k, fs.walk .follow r.2 r.1 names = .ok (m, k)
  file : ∃ content, fs.get m = some (.file content)

/-- The routes that begin with a name. -/
theorem isRoute_cons_iff {fs : FS} {shown : Name → Bool} {r : Loc × Nat} {c : Name} {names : List Name} {m : Loc} :
    fs.IsRoute shown r (c :: names) m ↔
      c ∈ fs.children r.1 ∧ shown c = true ∧ ∃ r', fs.walk .follow r.2 r.1 [c] = .ok r' ∧
        ((names = [] ∧ r'.1 = m ∧ ∃ content, fs.get m = some (.file content)) ∨
          (fs.get r'.1 = some .dir ∧ fs.IsRoute shown r' names m)) := by
  constructor
  · rintro ⟨-, hnames, ⟨k, hk⟩, hfile⟩
    obtain ⟨⟨hc, hshown⟩, hrest⟩ := List.forall_mem_cons.1 hnames
    obtain ⟨r', hr', hk'⟩ := walk_route_cons.1 hk
    refine ⟨?_, hshown, r', hr', ?_⟩
    · have hd := isDir_of_walk hr' (List.cons_ne_nil _ _)
      rw [mem_children]
      intro hnone
      rw [walk_name fs .follow r.2 r.1 c hd hc, hnone] at hr'
      simp at hr'
    · cases names with
      | nil =>
        rw [walk_nil] at hk'
        cases hk'
        exact .inl ⟨rfl, rfl, hfile⟩
      | cons c' names =>
        exact .inr ⟨isDir_of_walk hk' (List.cons_ne_nil _ _), List.cons_ne_nil _ _, hrest, ⟨k, hk'⟩, hfile⟩
  · rintro ⟨hc, hshown, r', hr', ⟨rfl, rfl, hfile⟩ | ⟨-, hroute⟩⟩
    · exact ⟨List.cons_ne_nil _ _, List.forall_mem_singleton.2 ⟨Job.isName_of_mem_children hc, hshown⟩, ⟨r'.2, hr'⟩, hfile⟩
    · obtain ⟨k, hk⟩ := hroute.leads
      exact ⟨List.cons_ne_nil _ _, List.forall_mem_cons.2 ⟨⟨Job.isName_of_mem_children hc, hshown⟩, hroute.shown⟩,
        ⟨k, walk_route_cons.2 ⟨r', hr', hk⟩⟩, hroute.file⟩

/-- The routes listed for one name. -/
def routesBy (fs : FS) (shown : Name → Bool) (depth : Nat) (r : Loc × Nat) (c : Name) : List (List Name × Loc) :=
  match fs.walk .follow r.2 r.1 [c] with
  | .ok r' =>
    match fs.get r'.1 with
    | some (.file _) => [([c], r'.1)]
    | some .dir => (fs.routes shown depth r').map fun q => (c :: q.1, q.2)
    | _ => []
  | .error _ => []

theorem routes_succ (fs : FS) (shown : Name → Bool) (depth : Nat) (r : Loc × Nat) :
    fs.routes shown (depth + 1) r = ((fs.children r.1).filter (shown ·)).flatMap (fs.routesBy shown depth r) := rfl

theorem mem_routesBy_iff {fs : FS} {shown : Name → Bool} {depth : Nat} {r : Loc × Nat} {c : Name}
    {q : List Name × Loc} :
    q ∈ fs.routesBy shown depth r c ↔
      ∃ r', fs.walk .follow r.2 r.1 [c] = .ok r' ∧
        ((q = ([c], r'.1) ∧ ∃ content, fs.get r'.1 = some (.file content)) ∨
          (fs.get r'.1 = some .dir ∧ ∃ q' ∈ fs.routes shown depth r', q = (c :: q'.1, q'.2))) := by
  unfold routesBy
  cases fs.walk .follow r.2 r.1 [c] with
  | error => simp
  | ok r' =>
    cases hg : fs.get r'.1 with
    | none => simp [hg]
    | some nd =>
      cases nd with
      | file content => simp [hg]
      | dir => simp [hg, eq_comm]
      | link t => simp [hg]

theorem head_of_mem_routesBy {fs : FS} {shown : Name → Bool} {depth : Nat} {r : Loc × Nat} {c : Name}
    {q : List Name × Loc} (h : q ∈ fs.routesBy shown depth r c) : q.1.head? = some c := by
  obtain ⟨-, -, ⟨rfl, -⟩ | ⟨-, -, -, rfl⟩⟩ := mem_routesBy_iff.1 h
  · rfl
  · rfl

theorem mem_routes_iff {fs : FS} {shown : Name → Bool} {depth : Nat} {r : Loc × Nat} {names : List Name} {m : Loc} :
    (names, m) ∈ fs.routes shown depth r ↔ fs.IsRoute shown r names m ∧ names.length ≤ depth := by
  induction depth generalizing r names with
  | zero =>
    refine iff_of_false (List.not_mem_nil) ?_
    rintro ⟨h, hlen⟩
    exact h.nonempty (List.length_eq_zero_iff.1 (Nat.le_zero.1 hlen))
  | succ depth ih =>
    simp only [routes_succ, List.mem_flatMap, List.mem_filter, mem_routesBy_iff]
    cases names with
    | nil =>
      refine iff_of_false ?_ fun h => h.1.nonempty rfl
      rintro ⟨c, -, r', -, ⟨h, -⟩ | ⟨-, q, -, h⟩⟩ <;> simp at h
    | cons c names =>
      rw [isRoute_cons_iff]
      constructor
      · rintro ⟨c', ⟨hc, hshown⟩, r', hr', ⟨h, hfile⟩ | ⟨hd, q, hq, h⟩⟩
        · simp only [Prod.mk.injEq, List.cons.injEq] at h
          obtain ⟨⟨rfl, rfl⟩, rfl⟩ := h
          exact ⟨⟨hc, hshown, r', hr', .inl ⟨rfl, rfl, hfile⟩⟩, by simp⟩
        · simp only [Prod.mk.injEq, List.cons.injEq] at h
          obtain ⟨⟨rfl, rfl⟩, rfl⟩ := h
          obtain ⟨hroute, hlen⟩ := ih.1 hq
          exact ⟨⟨hc, hshown, r', hr', .inr ⟨hd, hroute⟩⟩, by simpa using hlen⟩
      · rintro ⟨⟨hc, hshown, r', hr', ⟨rfl, rfl, hfile⟩ | ⟨hd, hroute⟩⟩, hlen⟩
        · exact ⟨c, ⟨hc, hshown⟩, r', hr', .inl ⟨rfl, hfile⟩⟩
        · refine ⟨c, ⟨hc, hshown⟩, r', hr', .inr ⟨hd, (names, m), ih.2 ⟨hroute, ?_⟩, rfl⟩⟩
          simpa using hlen

theorem nodup_routes (fs : FS) (shown : Name → Bool) (depth : Nat) (r : Loc × Nat) : (fs.routes shown depth r).Nodup := by
  induction depth generalizing r with
  | zero => exact List.nodup_nil
  | succ depth ih =>
    rw [routes_succ, List.nodup_flatMap]
    refine ⟨fun c _ => ?_, ((fs.nodup_children r.1).filter _).imp fun hne => ?_⟩
    · unfold routesBy
      split
      · split
        · exact List.nodup_singleton _
        · refine (ih _).map fun q q' h => ?_
          simpa [Prod.ext_iff] using h
        · exact List.nodup_nil
      · exact List.nodup_nil
    · -- routes by different names differ in their first
      rw [Function.onFun, List.disjoint_left]
      intro q hq hq'
      exact hne (Option.some.inj ((head_of_mem_routesBy hq).symm.trans (head_of_mem_routesBy hq')))

/-- Past the bound, more depth gives no more routes. -/
theorem routes_perm {fs : FS} {shown : Name → Bool} {depth depth' : Nat} {r : Loc × Nat} (hr : r.2 ≤ maxLinks)
    (hd : fs.reach ≤ depth) (hd' : fs.reach ≤ depth') : (fs.routes shown depth r).Perm (fs.routes shown depth' r) := by
  have hfits : ∀ {names m}, fs.IsRoute shown r names m → ∀ d, fs.reach ≤ d → names.length ≤ d := by
    intro names m h d hle
    obtain ⟨k, hk⟩ := h.leads
    have hroom := length_le_room (fun c hc => (h.shown c hc).1) hk
    have hreach := fs.room_lt_reach hr
    have heta : fs.room (r.1, r.2) = fs.room r := rfl
    omega
  apply (List.perm_ext_iff_of_nodup (nodup_routes ..) (nodup_routes ..)).2
  rintro ⟨names, m⟩
  rw [mem_routes_iff, mem_routes_iff]
  exact and_congr_right fun h => iff_of_true (hfits h depth hd) (hfits h depth' hd')

end FS

/-! ## Sums over lists with repetitions -/

/-- What the members of a list add beyond their first occurrence. -/
def again {α : Type} [DecidableEq α] (size : α → Nat) (l : List α) : Nat :=
  (l.dedup.map fun a => (l.count a - 1) * size a).sum

variable {α : Type} [DecidableEq α] (size : α → Nat) (l : List α)

theorem sum_map_eq_add_again : (l.map size).sum = (l.dedup.map size).sum + again size l := by
  have hset : l.dedup.toFinset = l.toFinset := by
    ext a
    simp
  have hterm : ∀ a ∈ l.dedup, l.count a * size a = size a + (l.count a - 1) * size a := by
    intro a ha
    have hpos : 0 < l.count a := List.count_pos_iff.2 (List.mem_dedup.1 ha)
    calc l.count a * size a
      _ = (1 + (l.count a - 1)) * size a := by rw [Nat.add_sub_cancel' hpos]
      _ = size a + (l.count a - 1) * size a := by rw [Nat.add_mul, Nat.one_mul]
  calc (l.map size).sum
    _ = (l.dedup.map fun a => l.count a * size a).sum := by
      rw [Finset.sum_list_map_count, ← hset, List.sum_toFinset _ (List.nodup_dedup l)]
      rfl
    _ = (l.dedup.map fun a => size a + (l.count a - 1) * size a).sum := by rw [List.map_congr_left hterm]
    _ = (l.dedup.map size).sum + again size l := List.sum_map_add

/-- Nothing is added twice when what has a size occurs once. -/
theorem again_eq_zero_iff : again size l = 0 ↔ ∀ a ∈ l, 0 < size a → l.count a = 1 := by
  unfold again
  rw [List.sum_eq_zero_iff_forall_eq_nat]
  constructor
  · intro h a ha hpos
    have hzero := h _ (List.mem_map_of_mem (List.mem_dedup.2 ha))
    have hcount : 0 < l.count a := List.count_pos_iff.2 ha
    rcases Nat.mul_eq_zero.1 hzero with h1 | h1 <;> omega
  · intro h n hn
    obtain ⟨a, ha, rfl⟩ := List.mem_map.1 hn
    by_cases hpos : 0 < size a
    · rw [h a (List.mem_dedup.1 ha) hpos, Nat.sub_self, Nat.zero_mul]
    · rw [Nat.eq_zero_of_not_pos hpos, Nat.mul_zero]

end Posix
