import StorageAccess.Lib.Path
/-!
# Paths that continue a string

A check may compare path strings where the kernel resolves components. Of the paths
that begin with the string of a root, those at or below the root are of two kinds:
some end the root's last component there and never climb out again, the others come
back to the root after a `..`.
-/

namespace Posix

/-- The path goes on from `root` with a component of its own, or ends there, and then never climbs above it. -/
def GoesOnFrom (root path : Str) : Prop :=
  ∃ t, path = root ++ t ∧ (t = [] ∨ t.head? = some '/') ∧ (height 0 (components t)).isSome

/-- The path passes a `..` before it arrives at `root`, and then never climbs above it. -/
def ComesBackTo (root : Loc) (path : Str) : Prop :=
  ∃ a b, components path = a ++ b ∧ dotdot ∈ a ∧ collapse a = root ∧ (height 0 b).isSome

/-! ## The components of a path that continues a string -/

/-- Where a component ends, the rest of the path has the remaining components. -/
theorem components_append_of_boundary {n : Name} {t : Str} (hn : n ≠ []) (hslash : '/' ∉ n)
    (ht : t = [] ∨ t.head? = some '/') : components (n ++ t) = n :: components t := by
  rcases t with _ | ⟨c, u⟩
  · rw [List.append_nil, components_of_no_slash hn hslash]
    rfl
  obtain rfl : c = '/' := by simpa using ht
  have hsplit : (n.splitOn '/').filter (· ≠ []) = [n] := by simp [splitOn_no_slash hslash, hn]
  by_cases hu : u = []
  · subst hu
    rw [components, List.splitOn_append_cons_self, List.filter_append, hsplit, List.getLast?_concat]
    rfl
  · have hroot : components ('/' :: u) = components u := components_append_slash [] u hu
    rw [components_append_slash n u hu, hsplit, hroot]
    rfl

/-- Of a path that continues a component, this component may be longer. -/
theorem components_append (n : Name) (t : Str) (hn : n ≠ []) (hslash : '/' ∉ n) :
    ∃ x u, t = x ++ u ∧ (u = [] ∨ u.head? = some '/') ∧ components (n ++ t) = (n ++ x) :: components u := by
  let x : Str := t.takeWhile (· ≠ '/')
  let u : Str := t.dropWhile (· ≠ '/')
  have htu : t = x ++ u := (List.takeWhile_append_dropWhile).symm
  have hx : '/' ∉ x := fun h => by simpa using List.mem_takeWhile_imp h
  have hu : u = [] ∨ u.head? = some '/' := by
    by_cases hnil : u = []
    · exact .inl hnil
    · have hhead := List.head_dropWhile_not (fun c : Char => decide (c ≠ '/')) hnil
      simp only [decide_eq_false_iff_not, not_not] at hhead
      exact .inr (by rw [List.head?_eq_some_head hnil, hhead])
  refine ⟨x, u, htu, hu, ?_⟩
  conv_lhs => rw [htu, ← List.append_assoc]
  exact components_append_of_boundary (by simp [hn]) (by simp [hslash, hx]) hu

/-- The first component of a path that begins with `/` and a name continues this name. -/
theorem head?_components {n path : Str} (hn : n ≠ []) (hslash : '/' ∉ n) (h : '/' :: n <+: path) :
    ∃ x, (components path).head? = some (n ++ x) := by
  obtain ⟨t, rfl⟩ := h
  obtain ⟨x, u, -, -, hc⟩ := components_append n t hn hslash
  refine ⟨x, ?_⟩
  rw [List.cons_append, show components ('/' :: (n ++ t)) = _ from components_append_slash [] (n ++ t) (by simp [hn]), hc]
  rfl

/-- A path through no `..` collapses to its names. -/
theorem collapse_of_no_dotdot {a : List Name} (h : dotdot ∉ a) : collapse a = a.filter (· ≠ dot) := by
  induction a using List.reverseRecOn with
  | nil => rfl
  | append_singleton a c ih =>
    have ha : dotdot ∉ a := fun hm => h (List.mem_append_left _ hm)
    have hc : c ≠ dotdot := fun e => h (by simp [e])
    rw [collapse_concat, ih ha, List.filter_append, push]
    by_cases hd : c = dot
    · simp [hd]
    · simp [hd, hc]

/-- The first name of a path through no `..` is the first of what it collapses to. -/
theorem head?_collapse {a b : List Name} {c : Name} (h : dotdot ∉ a) (ha : collapse a ≠ [])
    (hc : (a ++ b).head? = some c) (hdot : c ≠ dot) : (collapse a).head? = some c := by
  cases a with
  | nil => exact absurd rfl ha
  | cons d a =>
    obtain rfl : d = c := by simpa using hc
    rw [collapse_of_no_dotdot h, List.filter_cons_of_pos (by simpa using hdot), List.head?_cons]

/-- Dots lead nowhere. -/
theorem height_of_dots {a b : List Name} (h : a.filter (· ≠ dot) = []) : height 0 (a ++ b) = height 0 b := by
  induction a with
  | nil => rfl
  | cons c a ih =>
    rw [List.filter_eq_nil_iff] at h
    have hc : c = dot := by simpa using h c List.mem_cons_self
    have ha : a.filter (· ≠ dot) = [] := List.filter_eq_nil_iff.2 fun d hd => h d (List.mem_cons_of_mem c hd)
    rw [List.cons_append, height, if_pos hc, ih ha]

/-! ## Where such a path leads -/

/-- The last component of a root goes on in what is put after it. -/
theorem components_root {root : Str} (hslash : '/' ∈ root) (hbase : baseName root ≠ []) :
    ∃ front, components root = front ++ [baseName root] ∧
      ∀ t, components (root ++ t) = front ++ components (baseName root ++ t) := by
  have hd : dirPart root ≠ [] := by
    intro e
    have hr := dirPart_append_baseName root
    rw [e, List.nil_append] at hr
    exact slash_not_mem_baseName root (by rwa [hr])
  have hall : ∀ t, components (root ++ t) =
      ((dirPart root).dropLast.splitOn '/').filter (· ≠ []) ++ components (baseName root ++ t) := by
    intro t
    conv_lhs => rw [← dirPart_append_baseName root, dirPart_eq hd]
    rw [List.append_assoc, List.append_assoc, List.singleton_append, components_append_slash _ _ (by simp [hbase])]
  refine ⟨_, ?_, hall⟩
  have hself := hall []
  rwa [List.append_nil, List.append_nil, components_of_no_slash hbase (slash_not_mem_baseName root)] at hself

theorem prefix_lexical_of_goesOnFrom {root path : Str} (hslash : '/' ∈ root) (hbase : baseName root ≠ [])
    (h : GoesOnFrom root path) : lexical root <+: lexical path := by
  obtain ⟨t, rfl, ht, hup⟩ := h
  obtain ⟨front, hroot, hall⟩ := components_root hslash hbase
  have hc : components (root ++ t) = components root ++ components t := by
    rw [hall, components_append_of_boundary hbase (slash_not_mem_baseName root) ht, hroot, List.append_assoc,
      List.singleton_append]
  rw [lexical, lexical, hc]
  exact prefix_collapse_of_split hup

theorem prefix_lexical_of_comesBackTo {root : Loc} {path : Str} (h : ComesBackTo root path) : root <+: lexical path := by
  obtain ⟨a, b, hc, -, rfl, hup⟩ := h
  rw [lexical, hc]
  exact prefix_collapse_of_split hup

/-- A path that begins with the string of a root is at or below it if it goes on from
there or comes back. -/
theorem prefix_lexical_iff_of_begins {root path : Str} (hslash : '/' ∈ root)
    (hbase : baseName root ≠ [] ∧ baseName root ≠ dot ∧ baseName root ≠ dotdot) (h : root <+: path) :
    lexical root <+: lexical path ↔ GoesOnFrom root path ∨ ComesBackTo (lexical root) path := by
  refine ⟨fun hp => ?_, fun hp =>
    hp.elim (prefix_lexical_of_goesOnFrom hslash hbase.1) prefix_lexical_of_comesBackTo⟩
  obtain ⟨a, b, hc, ha, hup⟩ := (prefix_lexical_iff _ _).1 hp
  refine or_iff_not_imp_right.2 fun hback => ?_
  have hno : dotdot ∉ a := fun hm => hback ⟨a, b, hc, hm, ha, hup⟩
  obtain ⟨t, rfl⟩ := h
  obtain ⟨front, hroot, hall⟩ := components_root hslash hbase.1
  obtain ⟨x, u, ht, hu, hcomp⟩ := components_append (baseName root) t hbase.1 (slash_not_mem_baseName root)
  have hlast : collapse a = collapse front ++ [baseName root] := by
    rw [ha, lexical, hroot, collapse_concat, push, if_neg hbase.2.1, if_neg hbase.2.2]
  rw [hall, hcomp, eq_comm, List.append_eq_append_iff] at hc
  rcases hc with ⟨rest, hfront, hb⟩ | ⟨cs, hcs, hrest⟩
  · -- the root is not yet reached where its own last component stands
    rw [hb, height_append] at hup
    have hrest : (height 0 rest).isSome := by
      cases hh : height 0 rest with
      | none => rw [hh] at hup; cases hup
      | some k => rfl
    have hlen := (prefix_collapse_of_split (a := a) hrest).length_le
    rw [← hfront, hlast, List.length_append, List.length_singleton] at hlen
    omega
  rcases cs with _ | ⟨c, cs⟩
  · rw [List.append_nil] at hcs
    rw [hcs] at hlast
    simp at hlast
  obtain ⟨rfl, hu'⟩ := List.cons_eq_cons.1 hrest
  replace hu' : components u = cs ++ b := hu'
  have hdot : baseName root ++ x ≠ dot := by
    intro e
    obtain ⟨d, n, hn⟩ := List.exists_cons_of_ne_nil hbase.1
    rw [hn] at e
    obtain ⟨rfl, hnx⟩ := List.cons_eq_cons.1 e
    have hnil : n = [] := (List.append_eq_nil_iff.1 hnx).1
    exact hbase.2.1 (by rw [hn, hnil]; rfl)
  have hfront : dotdot ∉ front := fun hm => hno (hcs ▸ List.mem_append_left _ hm)
  rw [collapse_of_no_dotdot hno, collapse_of_no_dotdot hfront, hcs, List.filter_append, List.filter_cons_of_pos (by simpa using hdot),
    List.append_cancel_left_eq, List.cons_eq_cons] at hlast
  obtain rfl : x = [] := by simpa using hlast.1
  refine ⟨t, rfl, ?_, ?_⟩
  · rwa [ht]
  · rw [ht, List.nil_append, hu', height_of_dots hlast.2]
    exact hup

end Posix
