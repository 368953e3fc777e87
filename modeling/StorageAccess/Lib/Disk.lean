import Mathlib.Data.List.Dedup
import StorageAccess.Lib.Path
/-!
# Directory trees

`FS` is a directory tree: what stands at each location, with every entry's
parent a directory and only finitely many entries. `walk` resolves a component
list as the kernel does: `.` and `..` are physical, links are followed, and
after too many links the lookup fails.
-/

namespace Posix

inductive Node
  | file (content : List UInt8)
  | dir
  | link (target : Str)
  deriving DecidableEq, Repr

/-- A directory tree. The order of `names` is the order in which directories
list their entries. -/
structure FS where
  get : Loc → Option Node
  names : List Loc
  root : get [] = some .dir
  closed : ∀ l n, get (l ++ [n]) ≠ none → get l = some .dir
  named : ∀ l n, get (l ++ [n]) ≠ none → IsName n
  finite : ∀ l, get l ≠ none → l ∈ names

namespace FS

/-! ## Changing a tree -/

/-- `nd` may be put at `l`: the parent is a directory, and a directory stays one. -/
def CanSet (fs : FS) (l : Loc) (nd : Node) : Prop :=
  fs.get l.dropLast = some .dir ∧ IsName (l.getLastD []) ∧ (fs.get l = some .dir → nd = .dir)

instance (fs : FS) (l : Loc) (nd : Node) : Decidable (fs.CanSet l nd) := inferInstanceAs (Decidable (_ ∧ _))

/-- Put a node at a location. Nothing happens where that would break the tree. -/
def set (fs : FS) (l : Loc) (nd : Node) : FS :=
  if h : fs.CanSet l nd then
    { get := fun m => if m = l then some nd else fs.get m
      names := fs.names ++ [l]
      root := by
        have hl : l ≠ [] := by rintro rfl; exact absurd h.2.1 (by decide)
        rw [if_neg hl.symm, fs.root]
      closed := by
        intro m n hm
        have key : fs.get m = some .dir := by
          by_cases e : m ++ [n] = l
          · have := h.1; rwa [← e, List.dropLast_concat] at this
          · exact fs.closed m n (by simpa [e] using hm)
        by_cases e : m = l
        · rw [if_pos e, h.2.2 (e ▸ key)]
        · rw [if_neg e, key]
      named := by
        intro m n hm
        by_cases e : m ++ [n] = l
        · have := h.2.1; rw [← e] at this; simpa using this
        · exact fs.named m n (by simpa [e] using hm)
      finite := by
        intro m hm
        by_cases e : m = l
        · simp [e]
        · simp [fs.finite m (by simpa [e] using hm)] }
  else fs

theorem set_get (fs : FS) {l : Loc} {nd : Node} (h : fs.CanSet l nd) (m : Loc) :
    (fs.set l nd).get m = if m = l then some nd else fs.get m := by
  rw [set, dif_pos h]

/-- Putting a node changes its own location only. -/
theorem set_get_of_ne (fs : FS) (l : Loc) (nd : Node) {m : Loc} (h : m ≠ l) :
    (fs.set l nd).get m = fs.get m := by
  by_cases hc : fs.CanSet l nd
  · rw [set_get fs hc, if_neg h]
  · rw [set, dif_neg hc]

/-- A list of entries is a tree when every entry has a name and stands in a directory. -/
def IsTree (entries : List (Loc × Node)) : Prop :=
  ∀ e ∈ entries, e.1 ≠ [] ∧ IsName (e.1.getLastD []) ∧ (e.1.dropLast = [] ∨ entries.lookup e.1.dropLast = some .dir)

instance (entries : List (Loc × Node)) : Decidable (IsTree entries) := List.decidableBAll ..

theorem exists_of_lookup {entries : List (Loc × Node)} {l : Loc} (h : entries.lookup l ≠ none) :
    ∃ e ∈ entries, e.1 = l := by
  obtain ⟨e, he, hl⟩ := List.lookup_isSome_iff.1 (Option.isSome_iff_ne_none.2 h)
  exact ⟨e, he, (eq_of_beq hl).symm⟩

theorem isTree_nil : IsTree [] := by decide

/-- The tree with the given entries. -/
def ofEntries (entries : List (Loc × Node)) (h : IsTree entries) : FS where
  get l := if l = [] then some .dir else entries.lookup l
  names := [] :: entries.map (·.1)
  root := rfl
  closed := by
    intro l n hn
    obtain ⟨e, he, hl⟩ := exists_of_lookup (by simpa using hn)
    simpa [hl, or_iff_not_imp_left] using (h e he).2.2
  named := by
    intro l n hn
    obtain ⟨e, he, hl⟩ := exists_of_lookup (by simpa using hn)
    simpa [hl] using (h e he).2.1
  finite := by
    intro l hl
    by_cases hne : l = []
    · simp [hne]
    · obtain ⟨e, he, rfl⟩ := exists_of_lookup (by simpa [hne] using hl)
      simp only [List.mem_cons, List.mem_map]
      exact .inr ⟨e, he, rfl⟩

theorem get_ofEntries_ne_none {entries : List (Loc × Node)} (h : IsTree entries) {l : Loc} (hl : l ∈ entries.map (·.1)) :
    (ofEntries entries h).get l ≠ none := by
  obtain ⟨e, he, rfl⟩ := List.mem_map.1 hl
  have hfound : (entries.lookup e.1).isSome = true := List.lookup_isSome_iff.2 ⟨e, he, beq_self_eq_true _⟩
  unfold ofEntries
  dsimp only
  split
  · nofun
  · exact Option.isSome_iff_ne_none.1 hfound

/-- Take away the locations `gone`, which with a location hold all below it. -/
def prune (fs : FS) (gone : Loc → Bool) (hroot : gone [] = false)
    (hdown : ∀ l n, gone l = true → gone (l ++ [n]) = true) : FS where
  get m := if gone m then none else fs.get m
  names := fs.names
  root := by simp [hroot, fs.root]
  closed := by
    intro l n h
    have hn : gone (l ++ [n]) = false := by by_contra e; simp [e] at h
    have hl : gone l = false := by by_contra e; simp [hdown l n (by simpa using e)] at hn
    simp only [hl, hn, Bool.false_eq_true, if_false] at h ⊢
    exact fs.closed l n h
  named := by
    intro l n h
    exact fs.named l n (fun e => h (by simp [e]))
  finite := by
    intro l h
    exact fs.finite l (fun e => h (by simp [e]))

/-- The tree at `o` may be carried to `n`: `n` is not below `o`, and nothing
stands below `n`. -/
def CanMove (fs : FS) (o n : Loc) : Prop :=
  o ≠ [] ∧ ¬ o <+: n ∧ fs.get n.dropLast = some .dir ∧ IsName (n.getLastD []) ∧
    ∀ m ∈ fs.names, n <+: m → m ≠ n → fs.get m = none

instance (fs : FS) (o n : Loc) : Decidable (fs.CanMove o n) := inferInstanceAs (Decidable (_ ∧ _ ∧ _ ∧ _ ∧ _))

/-- What stands at `m` once the tree at `o` was carried to `n`. -/
def moved (get : Loc → Option Node) (o n m : Loc) : Option Node :=
  if n <+: m then get (o ++ m.drop n.length) else if o <+: m then none else get m

theorem prefix_of_prefix_concat {n l : Loc} {k : Name} (h : n <+: l ++ [k]) (hne : n ≠ l ++ [k]) : n <+: l :=
  (List.prefix_concat_iff.1 h).resolve_left hne

/-- Carry the tree at `o` to `n`. -/
def move (fs : FS) (o n : Loc) : FS :=
  if h : fs.CanMove o n then
    { get := moved fs.get o n
      names := fs.names ++ fs.names.map fun m => n ++ m.drop o.length
      root := by
        have hn : n ≠ [] := by rintro rfl; exact absurd h.2.2.2.1 (by decide)
        simp [moved, hn, h.1, fs.root]
      closed := by
        intro l k hk
        unfold moved at hk ⊢
        by_cases hn : n <+: l
        · rw [if_pos (hn.trans (List.prefix_append ..)), List.drop_append_of_le_length hn.length_le,
            ← List.append_assoc] at hk
          rw [if_pos hn]
          exact fs.closed _ _ hk
        · rw [if_neg hn]
          by_cases e : n = l ++ [k]
          · have ho : ¬ o <+: l := fun ho => h.2.1 (by rw [e]; exact ho.trans (List.prefix_append ..))
            rw [if_neg ho]
            simpa [e] using h.2.2.1
          · rw [if_neg fun hp => hn (prefix_of_prefix_concat hp e)] at hk
            by_cases ho : o <+: l
            · rw [if_pos (ho.trans (List.prefix_append ..))] at hk
              exact absurd rfl hk
            · rw [if_neg ho]
              split at hk
              · exact absurd rfl hk
              · exact fs.closed l k hk
      named := by
        intro l k hk
        unfold moved at hk
        by_cases e : n = l ++ [k]
        · have := h.2.2.2.1; rw [e] at this; simpa using this
        · split at hk
          case isTrue hp =>
            have hl := prefix_of_prefix_concat hp e
            rw [List.drop_append_of_le_length hl.length_le, ← List.append_assoc] at hk
            exact fs.named _ _ hk
          case isFalse hp =>
            split at hk
            · exact absurd rfl hk
            · exact fs.named _ _ hk
      finite := by
        intro m hm
        unfold moved at hm
        rw [List.mem_append, List.mem_map]
        split at hm
        case isTrue hp =>
          obtain ⟨r, rfl⟩ := hp
          exact .inr ⟨o ++ r, fs.finite _ (by simpa using hm), by simp⟩
        case isFalse hp =>
          split at hm
          · exact absurd rfl hm
          · exact .inl (fs.finite m hm) }
  else fs

/-- Carrying a tree changes nothing outside its new place but what stands at its old one. -/
theorem move_get (fs : FS) (o n : Loc) {m : Loc} (ho : o <+: m → fs.get m = none) (hn : ¬ n <+: m) :
    (fs.move o n).get m = fs.get m := by
  rw [move]
  split
  · by_cases hp : o <+: m
    · simp [moved, hn, hp, ho hp]
    · simp [moved, hn, hp]
  · rfl

/-! ## Reading a tree -/

/-- The names in the directory at `l`, in the order it lists them. -/
def children (fs : FS) (l : Loc) : List Name :=
  (fs.names.filterMap fun m =>
    if m ≠ [] ∧ m.dropLast = l ∧ (fs.get m).isSome then some (m.getLastD []) else none).dedup

theorem mem_children {fs : FS} {l : Loc} {n : Name} : n ∈ fs.children l ↔ fs.get (l ++ [n]) ≠ none := by
  simp only [children, List.mem_dedup, List.mem_filterMap, Option.ite_none_right_eq_some, Option.some.injEq]
  constructor
  · rintro ⟨m, -, ⟨hne, hd, hs⟩, hl⟩
    have e : m = l ++ [n] := by
      rw [← List.dropLast_append_getLast hne, hd]
      simp [← hl, List.getLastD_eq_getLast?, List.getLast?_eq_some_getLast hne]
    rw [← e]
    exact Option.isSome_iff_ne_none.1 hs
  · intro h
    exact ⟨l ++ [n], fs.finite _ h, ⟨by simp, by simp, Option.isSome_iff_ne_none.2 h⟩, by simp⟩

theorem nodup_children (fs : FS) (l : Loc) : (fs.children l).Nodup := List.nodup_dedup _

/-- The depth of the tree. -/
def depth (fs : FS) : Nat := (fs.names.map List.length).foldr max 0

theorem length_le_depth {fs : FS} {l : Loc} (h : fs.get l ≠ none) : l.length ≤ fs.depth := by
  have hle : ∀ ns : List Loc, l ∈ ns → l.length ≤ (ns.map List.length).foldr max 0 := by
    intro ns hl
    induction ns with
    | nil => cases hl
    | cons n ns ih =>
      rcases List.mem_cons.1 hl with rfl | hl
      · exact Nat.le_max_left ..
      · exact (ih hl).trans (Nat.le_max_right ..)
  exact hle fs.names (fs.finite l h)

/-- Every place above an entry is a directory. -/
theorem get_of_prefix (fs : FS) {l m : Loc} (h : l <+: m) (hne : l ≠ m) (hm : fs.get m ≠ none) :
    fs.get l = some .dir := by
  obtain ⟨r, rfl⟩ := h
  induction r using List.reverseRecOn with
  | nil => simp at hne
  | append_singleton r n ih =>
    rw [← List.append_assoc] at hm
    have hd := fs.closed _ _ hm
    by_cases e : l = l ++ r
    · rwa [← e] at hd
    · exact ih e (by simp [hd])

/-- Below what is no directory stands nothing. -/
theorem eq_nil_of_leaf {fs : FS} {l r : Loc} {nd nd' : Node} (hl : fs.get l = some nd) (hnd : nd ≠ .dir)
    (hr : fs.get (l ++ r) = some nd') : r = [] := by
  by_contra hne
  have hdir := fs.get_of_prefix (List.prefix_append l r) (by simpa using hne) (hr ▸ Option.some_ne_none nd')
  exact hnd (Option.some.inj (hl.symm.trans hdir))

theorem get_below_leaf {fs : FS} {l r : Loc} {nd : Node} (hl : fs.get l = some nd) (hnd : nd ≠ .dir) (hr : r ≠ []) :
    fs.get (l ++ r) = none := by
  by_contra h
  obtain ⟨nd', hnd'⟩ := Option.ne_none_iff_exists'.1 h
  exact hr (eq_nil_of_leaf hl hnd hnd')

/-- `..` of an entry is a directory, also at the root. -/
theorem get_dropLast {fs : FS} {l : Loc} (h : fs.get l ≠ none) : fs.get l.dropLast = some .dir := by
  by_cases hl : l = []
  · rw [hl]
    exact fs.root
  · refine fs.get_of_prefix (List.dropLast_prefix l) (fun e => ?_) h
    have hlen : l.dropLast.length = l.length - 1 := List.length_dropLast
    have hpos := List.length_pos_iff.2 hl
    rw [e] at hlen
    omega

/-- Nothing stands below a place where nothing stands. -/
theorem get_eq_none_below {fs : FS} {l m : Loc} (h : fs.get l = none) (hp : l <+: m) : fs.get m = none := by
  by_contra hm
  by_cases e : l = m
  · exact hm (e ▸ h)
  · rw [fs.get_of_prefix hp e hm] at h
    cases h

end FS

end Posix
