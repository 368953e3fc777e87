import Mathlib.Data.List.DropRight
import Mathlib.Data.List.Infix
/-!
# Paths as strings and as component lists

A path string splits at `/` into components. `collapse` removes `.` and `..`
from them without looking at any file system. `prefix_collapse_iff` says when
the collapsed path is at or below a given location: some prefix of the
components collapses to it and the rest never climbs out again.

A path string holds no NUL: the kernel would end it there, and no name has one.
`untilNul` is what the kernel reads of a text that may hold one.
-/

namespace Posix

abbrev Str := List Char

/-- One component of a path. -/
abbrev Name := List Char

/-- A place in the directory tree: the names from the root down. -/
abbrev Loc := List Name

def dot : Name := ['.']

def dotdot : Name := ['.', '.']

/-- The components of a path string. A trailing `/` asks for a directory, which
is what a last component `.` asks for. -/
def components (s : Str) : List Name :=
  (s.splitOn '/').filter (· ≠ []) ++ if s.getLast? = some '/' then [dot] else []

/-- What is left of a string that is handed on as a C string. -/
def untilNul (s : Str) : Str := s.takeWhile (· ≠ Char.ofNat 0)

/-- What follows the last `/` of a path string. -/
def baseName (s : Str) : Name := s.rtakeWhile (· ≠ '/')

/-- A path string up to and including its last `/`. -/
def dirPart (s : Str) : Str := s.rdropWhile (· ≠ '/')

/-- A component that names an entry: not empty, not `.` or `..`, and without `/` and NUL. -/
def IsName (n : Name) : Prop := n ≠ [] ∧ n ≠ dot ∧ n ≠ dotdot ∧ '/' ∉ n ∧ Char.ofNat 0 ∉ n

instance (n : Name) : Decidable (IsName n) := inferInstanceAs (Decidable (_ ∧ _))

theorem dirPart_append_baseName (s : Str) : dirPart s ++ baseName s = s := by
  simp only [dirPart, baseName, List.rdropWhile, List.rtakeWhile]
  rw [← List.reverse_append, List.takeWhile_append_dropWhile, List.reverse_reverse]

theorem slash_not_mem_baseName (s : Str) : '/' ∉ baseName s := by
  intro h
  simpa using List.mem_rtakeWhile_imp h

/-- What holds no `/` makes the last component longer. -/
theorem baseName_append (s : Str) {t : Str} (ht : '/' ∉ t) : baseName (s ++ t) = baseName s ++ t := by
  have hall : ∀ c ∈ t.reverse, decide (c ≠ '/') = true := by
    intro c hc
    simp only [ne_eq, decide_eq_true_eq]
    rintro rfl
    exact ht (List.mem_reverse.1 hc)
  rw [baseName, List.rtakeWhile, List.reverse_append, List.takeWhile_append_of_pos hall, List.reverse_append,
    List.reverse_reverse]
  rfl

theorem baseName_below (dir : Str) {n : Name} (hn : '/' ∉ n) : baseName (dir ++ '/' :: n) = n := by
  have hslash : baseName (dir ++ ['/']) = [] := by simp [baseName, List.rtakeWhile]
  rw [List.append_cons, baseName_append _ hn, hslash, List.nil_append]

theorem untilNul_eq_self_iff {s : Str} : untilNul s = s ↔ Char.ofNat 0 ∉ s := by
  rw [untilNul, List.takeWhile_eq_self_iff]
  simp only [ne_eq, decide_not, Bool.not_eq_true', decide_eq_false_iff_not]
  exact ⟨fun h hm => h _ hm rfl, fun h c hc he => h (he ▸ hc)⟩

/-! ## Splitting -/

theorem splitOn_no_slash {s : Str} (h : '/' ∉ s) : s.splitOn '/' = [s] := by
  simpa using List.splitOn_eq_singleton h

theorem components_of_no_slash {s : Str} (hs : s ≠ []) (h : '/' ∉ s) : components s = [s] := by
  have hl : s.getLast? ≠ some '/' := fun e => h (List.mem_of_getLast? e)
  simp [components, splitOn_no_slash h, hl, hs]

/-- Below a directory string, the components of the rest are added at the end. -/
theorem components_append_slash (s t : Str) (ht : t ≠ []) :
    components (s ++ '/' :: t) = (s.splitOn '/').filter (· ≠ []) ++ components t := by
  have hl : (s ++ '/' :: t).getLast? = t.getLast? := by
    obtain ⟨c, u, rfl⟩ := List.exists_cons_of_ne_nil ht
    simp [List.getLast?_append, List.getLast?_cons_cons, List.getLast?_eq_some_getLast (List.cons_ne_nil c u)]
  simp [components, List.splitOn_append_cons_self, hl, List.filter_append]

theorem components_append_name (s : Str) {n : Name} (hn : IsName n) :
    components (s ++ '/' :: n) = (s.splitOn '/').filter (· ≠ []) ++ [n] := by
  rw [components_append_slash s n hn.1, components_of_no_slash hn.1 hn.2.2.2.1]

/-- Below a string without a trailing `/`, what holds no `/` is one more component. -/
theorem components_below {s : Str} {n : Name} (hs : s.getLast? ≠ some '/') (hn : n ≠ []) (h : '/' ∉ n) :
    components (s ++ '/' :: n) = components s ++ [n] := by
  rw [components_append_slash s n hn, components_of_no_slash hn h, components, if_neg hs, List.append_nil]

theorem components_child {s : Str} {n : Name} (hs : s.getLast? ≠ some '/') (hn : IsName n) :
    components (s ++ '/' :: n) = components s ++ [n] := components_below hs hn.1 hn.2.2.2.1

theorem dirPart_eq {s : Str} (h : dirPart s ≠ []) : dirPart s = (dirPart s).dropLast ++ ['/'] := by
  have hlast : (dirPart s).getLast h = '/' := by
    have hnot := List.rdropWhile_last_not (fun c : Char => decide (c ≠ '/')) s h
    simp only [decide_eq_true_eq, not_not] at hnot
    exact hnot
  rw [← hlast, List.dropLast_append_getLast]

/-- What is put in the place of a path string's last component comes to be its last
component, and the others stay. -/
theorem components_sibling (s : Str) :
    ∃ front, ∀ n : Name, n ≠ [] → '/' ∉ n → components (dirPart s ++ n) = front ++ [n] := by
  by_cases hd : dirPart s = []
  · refine ⟨[], fun n hn h => ?_⟩
    rw [hd, List.nil_append, components_of_no_slash hn h]
    rfl
  · refine ⟨((dirPart s).dropLast.splitOn '/').filter (· ≠ []), fun n hn h => ?_⟩
    rw [dirPart_eq hd, List.append_assoc, List.singleton_append, components_append_slash _ n hn,
      components_of_no_slash hn h, List.dropLast_concat]

theorem components_sibling_getLastD (s : Str) {n : Name} (hn : n ≠ []) (h : '/' ∉ n) :
    (components (dirPart s ++ n)).getLastD [] = n := by
  obtain ⟨front, hfront⟩ := components_sibling s
  rw [hfront n hn h, List.getLastD_concat]

/-- The last component of a path string is what follows its last `/`. -/
theorem components_getLastD {s : Str} (h : baseName s ≠ []) : (components s).getLastD [] = baseName s := by
  have hc := components_sibling_getLastD s h (slash_not_mem_baseName s)
  rwa [dirPart_append_baseName] at hc

/-- A path string that ends in its last `/` asks for a directory. -/
theorem components_dirPart_getLastD {s : Str} (h : '/' ∈ s) : (components (dirPart s)).getLastD [] = dot := by
  have hd : dirPart s ≠ [] := by
    intro e
    have hs := dirPart_append_baseName s
    rw [e, List.nil_append] at hs
    exact slash_not_mem_baseName s (by rwa [hs])
  have hl : (dirPart s).getLast? = some '/' := by rw [dirPart_eq hd, List.getLast?_concat]
  rw [components, if_pos hl, List.getLastD_concat]

theorem nul_not_mem_untilNul (s : Str) : Char.ofNat 0 ∉ untilNul s := fun h => by simpa using List.mem_takeWhile_imp h

theorem not_mem_untilNul {s : Str} {c : Char} (h : c ∉ s) : c ∉ untilNul s :=
  fun hc => h ((List.takeWhile_sublist _).subset hc)

theorem baseName_ne_nil {s : Str} (hs : s ≠ []) (h : s.getLast? ≠ some '/') : baseName s ≠ [] := by
  intro e
  have hd := dirPart_append_baseName s
  rw [e, List.append_nil] at hd
  have hne : dirPart s ≠ [] := by rwa [hd]
  rw [← hd, dirPart_eq hne] at h
  simp at h

/-- What comes before the last component stays where another takes its place. -/
theorem dirPart_sibling (s : Str) {n : Name} (h : '/' ∉ n) : dirPart (dirPart s ++ n) = dirPart s := by
  unfold dirPart
  rw [List.rdropWhile, List.reverse_append, List.dropWhile_append_of_pos (by
    intro c hc
    have hmem : c ∈ n := List.mem_reverse.1 hc
    simpa using fun e : c = '/' => h (e ▸ hmem))]
  exact List.rdropWhile_idempotent _ _

/-! ## Collapsing -/

/-- Where one component leads. -/
def push (l : Loc) (c : Name) : Loc :=
  if c = dot then l else if c = dotdot then l.dropLast else l ++ [c]

/-- The location a component list names when no component is a link. -/
def collapse (cs : List Name) : Loc := cs.foldl push []

/-- How far below its start a component list ends, when it starts `k` levels
below it; `none` when it climbs above the start on the way. -/
def height : Nat → List Name → Option Nat
  | k, [] => some k
  | k, c :: cs =>
    if c = dot then height k cs
    else if c = dotdot then
      match k with
      | 0 => none
      | k + 1 => height k cs
    else height (k + 1) cs

@[simp]
theorem collapse_nil : collapse [] = [] := rfl

theorem collapse_append (a b : List Name) : collapse (a ++ b) = b.foldl push (collapse a) :=
  List.foldl_append ..

theorem collapse_concat (cs : List Name) (c : Name) : collapse (cs ++ [c]) = push (collapse cs) c := by
  simp [collapse_append]

theorem collapse_names {cs : List Name} (h : ∀ c ∈ cs, c ≠ dot ∧ c ≠ dotdot) : collapse cs = cs := by
  induction cs using List.reverseRecOn with
  | nil => rfl
  | append_singleton cs c ih =>
    have hc := h c (by simp)
    rw [collapse_concat, ih (fun d hd => h d (by simp [hd])), push, if_neg hc.1, if_neg hc.2]

theorem height_append (a b : List Name) (k : Nat) : height k (a ++ b) = (height k a).bind (height · b) := by
  induction a generalizing k with
  | nil => rfl
  | cons c a ih =>
    simp only [List.cons_append, height]
    split
    · exact ih k
    · split
      · cases k with
        | zero => rfl
        | succ k => exact ih k
      · exact ih (k + 1)

/-- Components that stay below a location lead to a location below it. -/
theorem foldl_push_of_height (r : Loc) (b : List Name) (t : Loc) (n : Nat) (h : height t.length b = some n) :
    ∃ t' : Loc, t'.length = n ∧ b.foldl push (r ++ t) = r ++ t' := by
  induction b generalizing t with
  | nil => exact ⟨t, by simpa [height] using h, rfl⟩
  | cons c b ih =>
    simp only [height] at h
    simp only [List.foldl_cons, push]
    split at h
    case isTrue hc => simpa [hc] using ih t h
    case isFalse hc =>
      split at h
      case isTrue hd =>
        rcases List.eq_nil_or_concat t with rfl | ⟨u, x, rfl⟩
        · simp at h
        · have hu : height u.length b = some n := by simpa using h
          obtain ⟨t', ht', e⟩ := ih u hu
          exact ⟨t', ht', by rw [if_neg hc, if_pos hd, List.concat_eq_append, ← List.append_assoc,
            List.dropLast_concat, e]⟩
      case isFalse hd =>
        obtain ⟨t', ht', e⟩ := ih (t ++ [c]) (by simpa using h)
        exact ⟨t', ht', by rw [if_neg hc, if_neg hd, List.append_assoc, e]⟩

/-- The rest of a component list may pass through `r` again: what counts is the
last prefix that collapses to `r`. -/
theorem split_of_prefix_collapse (r : Loc) (cs : List Name) (h : r <+: collapse cs) :
    ∃ a b, cs = a ++ b ∧ collapse a = r ∧ (height 0 b).isSome := by
  induction cs using List.reverseRecOn with
  | nil =>
    have hr : r = [] := by simpa using h
    exact ⟨[], [], rfl, by simp [hr], rfl⟩
  | append_singleton cs c ih =>
    by_cases hr : r = collapse (cs ++ [c])
    · exact ⟨cs ++ [c], [], by simp, hr.symm, rfl⟩
    rw [collapse_concat] at h hr
    -- below `r`, the last component neither leaves `r` nor arrives at it
    have key : r <+: collapse cs ∧ (c = dotdot → r.length + 1 < (collapse cs).length) := by
      unfold push at h hr
      split at h
      case isTrue hc => exact ⟨h, fun e => absurd (hc.symm.trans e) (by decide)⟩
      case isFalse hc =>
        split at h
        case isTrue hd =>
          rw [if_neg hc, if_pos hd] at hr
          refine ⟨h.trans (List.dropLast_prefix _), fun _ => ?_⟩
          have hlt : r.length < (collapse cs).dropLast.length :=
            lt_of_le_of_ne h.length_le (fun e => hr (h.eq_of_length e))
          simp at hlt; omega
        case isFalse hd =>
          rw [if_neg hc, if_neg hd] at hr
          exact ⟨(List.prefix_concat_iff.1 h).resolve_left hr, fun e => absurd e hd⟩
    obtain ⟨a, b, rfl, ha, hb⟩ := ih key.1
    refine ⟨a, b ++ [c], by simp, ha, ?_⟩
    obtain ⟨n, hn⟩ := Option.isSome_iff_exists.1 hb
    obtain ⟨t', ht', e⟩ := foldl_push_of_height r b [] n hn
    rw [height_append, hn, Option.bind_some]
    by_cases hd : c = dotdot
    · have hlen := key.2 hd
      rw [collapse_append, ha, ← List.append_nil r, e] at hlen
      simp at hlen
      obtain ⟨m, rfl⟩ : ∃ m, n = m + 1 := ⟨n - 1, by omega⟩
      simp [height, hd, show dotdot ≠ dot by decide]
    · by_cases hc : c = dot <;> simp [height, hc, hd]

theorem prefix_collapse_of_split {a b : List Name} (h : (height 0 b).isSome) :
    collapse a <+: collapse (a ++ b) := by
  obtain ⟨n, hn⟩ := Option.isSome_iff_exists.1 h
  obtain ⟨t', -, e⟩ := foldl_push_of_height (collapse a) b [] n hn
  exact ⟨t', by rw [collapse_append, ← List.append_nil (collapse a), e, List.append_nil]⟩

/-- A collapsed path is at or below `r` exactly when some prefix of its
components collapses to `r` and the rest never climbs above `r`. -/
theorem prefix_collapse_iff (r : Loc) (cs : List Name) :
    r <+: collapse cs ↔ ∃ a b, cs = a ++ b ∧ collapse a = r ∧ (height 0 b).isSome := by
  constructor
  · exact split_of_prefix_collapse r cs
  · rintro ⟨a, b, rfl, rfl, hb⟩
    exact prefix_collapse_of_split hb

/-- The location a path string names when it passes no link. -/
def lexical (path : Str) : Loc := collapse (components path)

/-- Some prefix of the path's components leads to `root`, and the rest never climbs above it. -/
def StaysBelow (root : Loc) (path : Str) : Prop :=
  ∃ a b, components path = a ++ b ∧ collapse a = root ∧ (height 0 b).isSome

theorem prefix_lexical_iff (root : Loc) (path : Str) : root <+: lexical path ↔ StaysBelow root path :=
  prefix_collapse_iff root (components path)

/-- Neither location is at or below the other. -/
def Apart (l m : Loc) : Prop := ¬ l <+: m ∧ ¬ m <+: l

theorem Apart.symm {l m : Loc} (h : Apart l m) : Apart m l := ⟨h.2, h.1⟩

/-- Of two locations above one place, one is above the other. -/
theorem prefix_total {r s l : Loc} (hr : r <+: l) (hs : s <+: l) : r <+: s ∨ s <+: r :=
  List.prefix_or_prefix_of_prefix hr hs

/-- Nothing is below two locations that are apart. -/
theorem Apart.not_both {r s l : Loc} (h : Apart r s) (hr : r <+: l) : ¬ s <+: l := fun hs =>
  (prefix_total hr hs).elim h.1 h.2

theorem apart_concat {r : Loc} {m n : Name} (h : m ≠ n) : Apart (r ++ [m]) (r ++ [n]) := by
  simp [Apart, List.prefix_append_right_inj, h, h.symm]

end Posix
