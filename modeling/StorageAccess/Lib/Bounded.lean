import Mathlib.Data.Finset.Card
import Mathlib.Data.Finset.Lattice.Fold
import StorageAccess.Lib.Delivery
import StorageAccess.Lib.Keeping
/-!
# How much a copy makes

A copy lists a directory when it reaches it, so that it may meet what it has made
itself. Where it makes no entry in the source it does not: it goes through the
source once, makes an entry at most for each it finds there, and is done at the
depth of the source, however much deeper it may go. Where its target is a new
directory in the source, it goes on as deep as it may.
-/

namespace Posix

open FS

namespace FS

/-! ## Counting entries -/

/-- The entries at and below `S`. -/
def tree (fs : FS) (S : Loc) : Finset Loc := fs.names.toFinset.filter fun m => S <+: m ∧ fs.get m ≠ none

/-- The entries at and below the names `ns` in `S`. -/
def branches (fs : FS) (S : Loc) (ns : List Name) : Finset Loc :=
  fs.names.toFinset.filter fun m => (∃ c ∈ ns, S ++ [c] <+: m) ∧ fs.get m ≠ none

/-- The entries of the second tree where the first has none. -/
def created (fs fs' : FS) : Finset Loc := fs'.names.toFinset.filter fun m => fs.get m = none ∧ fs'.get m ≠ none

theorem mem_tree {fs : FS} {S m : Loc} : m ∈ fs.tree S ↔ S <+: m ∧ fs.get m ≠ none := by
  rw [tree, Finset.mem_filter, List.mem_toFinset]
  exact ⟨fun h => h.2, fun h => ⟨fs.finite m h.2, h⟩⟩

theorem mem_branches {fs : FS} {S m : Loc} {ns : List Name} :
    m ∈ fs.branches S ns ↔ (∃ c ∈ ns, S ++ [c] <+: m) ∧ fs.get m ≠ none := by
  rw [branches, Finset.mem_filter, List.mem_toFinset]
  exact ⟨fun h => h.2, fun h => ⟨fs.finite m h.2, h⟩⟩

theorem mem_created {fs fs' : FS} {m : Loc} : m ∈ fs.created fs' ↔ fs.get m = none ∧ fs'.get m ≠ none := by
  rw [created, Finset.mem_filter, List.mem_toFinset]
  exact ⟨fun h => h.2, fun h => ⟨fs'.finite m h.2, h⟩⟩

@[simp]
theorem created_self (fs : FS) : fs.created fs = ∅ := by
  apply Finset.eq_empty_of_forall_notMem
  intro m hm
  exact (mem_created.1 hm).2 (mem_created.1 hm).1

theorem card_created_le (fs₁ fs₂ fs₃ : FS) :
    (fs₁.created fs₃).card ≤ (fs₁.created fs₂).card + (fs₂.created fs₃).card := by
  refine (Finset.card_le_card fun m hm => ?_).trans (Finset.card_union_le _ _)
  obtain ⟨h₁, h₃⟩ := mem_created.1 hm
  rw [Finset.mem_union, mem_created, mem_created]
  by_cases h₂ : fs₂.get m = none
  · exact .inr ⟨h₂, h₃⟩
  · exact .inl ⟨h₁, h₂⟩

theorem tree_pos {fs : FS} {S : Loc} (h : fs.get S ≠ none) : 1 ≤ (fs.tree S).card :=
  Finset.card_pos.2 ⟨S, mem_tree.2 ⟨List.prefix_refl S, h⟩⟩

/-- The branches of a directory and the directory itself are entries of its tree. -/
theorem card_branches_lt {fs : FS} {S : Loc} (h : fs.get S ≠ none) (ns : List Name) :
    (fs.branches S ns).card + 1 ≤ (fs.tree S).card := by
  have hS : S ∈ fs.tree S := mem_tree.2 ⟨List.prefix_refl S, h⟩
  rw [← Finset.card_erase_add_one hS]
  refine Nat.succ_le_succ (Finset.card_le_card fun m hm => ?_)
  obtain ⟨⟨c, -, hp⟩, hg⟩ := mem_branches.1 hm
  refine Finset.mem_erase.2 ⟨?_, mem_tree.2 ⟨(List.prefix_append S [c]).trans hp, hg⟩⟩
  rintro rfl
  have hlen := hp.length_le
  rw [List.length_append, List.length_singleton] at hlen
  omega

theorem card_branches_cons (fs : FS) (S : Loc) {c : Name} {ns : List Name} (hc : c ∉ ns) :
    (fs.tree (S ++ [c])).card + (fs.branches S ns).card ≤ (fs.branches S (c :: ns)).card := by
  have hdisjoint : Disjoint (fs.tree (S ++ [c])) (fs.branches S ns) := by
    apply Finset.disjoint_left.2
    intro m hm hm'
    obtain ⟨⟨d, hd, hp⟩, -⟩ := mem_branches.1 hm'
    have hne : c ≠ d := fun e => hc (e ▸ hd)
    exact (apart_concat hne).not_both (mem_tree.1 hm).1 hp
  rw [← Finset.card_union_of_disjoint hdisjoint]
  refine Finset.card_le_card fun m hm => mem_branches.2 ?_
  rcases Finset.mem_union.1 hm with hm | hm
  · obtain ⟨hp, hg⟩ := mem_tree.1 hm
    exact ⟨⟨c, List.mem_cons_self, hp⟩, hg⟩
  · obtain ⟨⟨d, hd, hp⟩, hg⟩ := mem_branches.1 hm
    exact ⟨⟨d, List.mem_cons_of_mem c hd, hp⟩, hg⟩

/-! ## Growing beside the source -/

/-- The paths the copy of a file goes to: that of the place of the entry `r`, and
in a directory that stands there the file's own name. -/
def FileGoes (fs : FS) (dst : List Name) (r : Loc) (p : List Name) : Prop :=
  p = dst ++ r ∨ (∃ l, fs.symlinkStatus (dst ++ r) = .found l .dir) ∧ p = dst ++ r ++ [r.getLastD []]

/-- The copy of the entry `r` of the source `S` would make an entry at `l`. -/
def Makes (fs : FS) (S : Loc) (dst : List Name) (r l : Loc) : Prop :=
  (fs.get (S ++ r) = some .dir ∧ fs.symlinkStatus (dst ++ r) = .absent ∧ fs.locate .make (dst ++ r) = .ok l) ∨
    ∃ content p, fs.get (S ++ r) = some (.file content) ∧ fs.FileGoes dst r p ∧
      fs.status p = .absent ∧ fs.locate .make p = .ok l

/-- What stands at `l` is where the copy of the entry `r` of the source `S` would put it. -/
def Holds (fs : FS) (S : Loc) (dst : List Name) (r l : Loc) : Prop :=
  (fs.get (S ++ r) = some .dir ∧ fs.symlinkStatus (dst ++ r) = .found l .dir) ∨
    ∃ content p old, fs.get (S ++ r) = some (.file content) ∧ fs.FileGoes dst r p ∧ fs.status p = .found l (.file old)

/-- Some entries of the source are at their places in the target: the tree grew there, and not in the source. -/
structure Fills (S : Loc) (dst : List Name) (fs fs' : FS) : Prop where
  grew : Grew [] fs fs'
  beside : ∀ m, S <+: m → fs.get m = none → fs'.get m = none
  places : ∀ l, fs.get l = none → fs'.get l ≠ none → ∃ r, fs'.Holds S dst r l

/-- Whichever entries of the source are at their places already, the copy of no other makes one in the source. -/
def Outside (S : Loc) (fs : FS) (dst : List Name) : Prop :=
  ∀ fs', Fills S dst fs fs' → ∀ r l, fs'.Makes S dst r l → ¬ S <+: l

/-- The tree was filled by `n` entries at most. -/
structure Adds (S : Loc) (dst : List Name) (n : Nat) (fs fs' : FS) : Prop where
  fills : Fills S dst fs fs'
  count : (fs.created fs').card ≤ n

section

variable {S : Loc} {dst : List Name} {n k : Nat} {fs fs' fs₁ fs₂ fs₃ : FS} {r l : Loc} {p : List Name}

theorem FileGoes.extends_ (h : fs.FileGoes dst r p) (hext : Extends fs fs') : fs'.FileGoes dst r p := by
  refine h.imp_right fun ⟨⟨l, hl⟩, hp⟩ => ⟨⟨l, ?_⟩, hp⟩
  obtain ⟨nd, hs, hk⟩ := look_of_extends hext (by decide) hl
  rwa [Node.kind_eq_dir.1 hk] at hs

theorem Holds.extends_ (h : fs.Holds S dst r l) (hext : Extends fs fs') : fs'.Holds S dst r l := by
  rcases h with ⟨hS, hl⟩ | ⟨content, p, old, hS, hp, hl⟩
  · obtain ⟨nd, hs, hk⟩ := look_of_extends hext (by decide) hl
    rw [Node.kind_eq_dir.1 hk] at hs
    exact .inl ⟨hext.dir hS, hs⟩
  · obtain ⟨content', hS'⟩ := hext.file hS
    obtain ⟨nd, hs, hk⟩ := look_of_extends hext (by decide) hl
    cases nd with
    | dir | link => simp [Node.kind] at hk
    | file old' => exact .inr ⟨content', p, old', hS', hp.extends_ hext, hs⟩

theorem Fills.refl (S : Loc) (dst : List Name) (fs : FS) : Fills S dst fs fs :=
  ⟨Grew.refl [] fs, fun _ _ h => h, fun _ h h' => absurd h h'⟩

theorem Fills.trans (h : Fills S dst fs₁ fs₂) (h' : Fills S dst fs₂ fs₃) : Fills S dst fs₁ fs₃ where
  grew := h.grew.trans h'.grew
  beside m hm hn := h'.beside m hm (h.beside m hm hn)
  places l hn hg := by
    by_cases h₂ : fs₂.get l = none
    · exact h'.places l h₂ hg
    · obtain ⟨r, hr⟩ := h.places l hn h₂
      exact ⟨r, hr.extends_ h'.grew.extends_⟩

theorem Outside.fills (h : Outside S fs dst) (hf : Fills S dst fs fs') : Outside S fs' dst :=
  fun fs₁ hf' => h fs₁ (hf.trans hf')

theorem Adds.refl (S : Loc) (dst : List Name) (n : Nat) (fs : FS) : Adds S dst n fs fs := ⟨Fills.refl S dst fs, by simp⟩

theorem Adds.trans (h : Adds S dst n fs₁ fs₂) (h' : Adds S dst k fs₂ fs₃) : Adds S dst (n + k) fs₁ fs₃ :=
  ⟨h.fills.trans h'.fills, (card_created_le fs₁ fs₂ fs₃).trans (Nat.add_le_add h.count h'.count)⟩

theorem Adds.mono (h : Adds S dst n fs fs') (hle : n ≤ k) : Adds S dst k fs fs' := ⟨h.fills, h.count.trans hle⟩

theorem Fills.get_eq_none_iff (h : Fills S dst fs fs') {m : Loc} (hm : S <+: m) : fs'.get m = none ↔ fs.get m = none := by
  refine ⟨fun hn => ?_, h.beside m hm⟩
  by_contra hg
  obtain ⟨nd, hnd⟩ := Option.ne_none_iff_exists'.1 hg
  obtain ⟨nd', hnd', -⟩ := h.grew.extends_ m nd hnd
  rw [hn] at hnd'
  cases hnd'

theorem Fills.tree_eq (h : Fills S dst fs fs') {T : Loc} (hT : S <+: T) : fs'.tree T = fs.tree T := by
  ext m
  rw [mem_tree, mem_tree]
  exact and_congr_right fun hm => not_congr (h.get_eq_none_iff (hT.trans hm))

theorem Fills.branches_eq (h : Fills S dst fs fs') {T : Loc} (hT : S <+: T) (ns : List Name) :
    fs'.branches T ns = fs.branches T ns := by
  ext m
  rw [mem_branches, mem_branches]
  refine and_congr_right fun ⟨c, _, hp⟩ => not_congr (h.get_eq_none_iff ?_)
  exact hT.trans ((List.prefix_append T [c]).trans hp)

/-- A directory made where the path found nothing is what the path finds. -/
theorem symlinkStatus_made (hext : Extends fs fs') (habs : fs.symlinkStatus p = .absent) (hl : fs.locate .make p = .ok l)
    (hg : fs'.get l = some .dir) : fs'.symlinkStatus p = .found l .dir := by
  rcases List.eq_nil_or_concat p with rfl | ⟨q, c, rfl⟩
  · have hroot : fs.symlinkStatus [] = .found [] .dir := look_found.2 ⟨rfl, fs.root⟩
    rw [habs] at hroot
    cases hroot
  rw [List.concat_eq_append] at habs hl ⊢
  obtain ⟨m, hm⟩ := dir_of_locate hl (by simp)
  have hc := isName_of_missing hm habs hl
  have hnone := Job.get_of_symlinkStatus_absent hm hc habs
  rw [locate_child hm hc .make (.inr (by simp [hnone])), if_neg (by simp)] at hl
  obtain rfl := Except.ok.inj hl
  rw [symlinkStatus, look_child (status_dir_of_extends hext hm) hc (by decide) (.inl rfl), hg]

/-- A file made where the path leads is what the path finds. -/
theorem status_made (hext : Extends fs fs') (hl : fs.locate .make p = .ok l) {content : List UInt8}
    (hg : fs'.get l = some (.file content)) : fs'.status p = .found l (.file content) := by
  obtain ⟨k, hw⟩ := locate_eq_ok.1 hl
  refine look_found.2 ⟨locate_eq_ok.2 ⟨k, ?_⟩, hg⟩
  exact walk_of_extends hext (by decide) (fun _ => ⟨_, hg, by simp⟩) maxLinks [] p hw

/-- One entry made where the copy of an entry of the source makes one. -/
theorem fills_set {nd : Node} (hfree : fs.get l = none) (hnl : ∀ t, nd ≠ .link t) (hout : ¬ S <+: l)
    (hholds : ∀ fs', Extends fs fs' → fs'.get l = some nd → fs'.Holds S dst r l) : Fills S dst fs (fs.set l nd) := by
  have hgrew : Grew [] fs (fs.set l nd) := grew_set (Job.fits_free hfree hnl) List.nil_prefix
  refine ⟨hgrew, fun m hm hn => ?_, fun m hn hg => ⟨r, ?_⟩⟩
  · rw [set_get_of_ne fs l nd (fun e => hout (e ▸ hm)), hn]
  · obtain rfl : m = l := by
      by_contra hne
      exact hg ((set_get_of_ne fs l nd hne).trans hn)
    by_cases hc : fs.CanSet m nd
    · exact hholds _ hgrew.extends_ (by rw [set_get fs hc, if_pos rfl])
    · rw [set, dif_neg hc] at hg
      exact absurd hn hg

/-- The components of a place that something stands at are names. -/
theorem isName_of_mem (h : fs.get (S ++ r) ≠ none) {c : Name} (hc : c ∈ r) : IsName c := by
  obtain ⟨a, b, rfl⟩ := List.append_of_mem hc
  rw [List.append_cons, ← List.append_assoc, ← List.append_assoc] at h
  exact fs.named (S ++ a) c fun hn => h (get_eq_none_below hn (List.prefix_append _ b))

/-- Where paths lead on from a path into `D`, they lead into `D`. -/
theorem leads_below {D : Loc} (h : Job.Under D fs p) (hr : ∀ c ∈ r, IsName c) (hl : fs.locate .make (p ++ r) = .ok l) :
    D <+: l := by
  induction r generalizing p with
  | nil => exact h.leads (by rwa [List.append_nil] at hl)
  | cons c r ih =>
    rw [List.append_cons] at hl
    obtain ⟨m, hm⟩ := dir_of_locate (a := p) (b := [c] ++ r) (by rwa [← List.append_assoc]) (by simp)
    exact ih (h.child hm (.inr (hr c List.mem_cons_self))) (fun d hd => hr d (List.mem_cons_of_mem c hd)) hl

/-- Where the target is missing from a directory, nothing is made in the source unless the target is. -/
theorem outside_of_missing {dir : List Name} {L : Loc} {c : Name} (hdir : fs.status dir = .found L .dir) (hc : IsName c)
    (hfree : fs.get (L ++ [c]) = none) (hS : fs.get S = some .dir) (hout : ¬ S <+: L ++ [c]) : Outside S fs (dir ++ [c]) := by
  intro fs' hf r l hmakes hp
  have hlinks (m : Loc) (t : Str) (hm : L ++ [c] <+: m) : fs'.get m ≠ some (.link t) := fun ht => by
    have hold := hf.grew.links m t ht
    rw [get_eq_none_below hfree hm] at hold
    cases hold
  have hunder : Job.Under (L ++ [c]) fs' (dir ++ [c]) :=
    .inr ⟨dir, c, L, rfl, status_dir_of_extends hf.grew.extends_ hdir, hc, List.prefix_refl _, hlinks⟩
  have hbelow : L ++ [c] <+: l := by
    rcases hmakes with ⟨hr, -, hl⟩ | ⟨content, p, hr, hgoes, -, hl⟩
    · exact leads_below hunder (fun n hn => isName_of_mem (hr ▸ Option.some_ne_none _) hn) hl
    have hnames : ∀ n ∈ r, IsName n := fun n hn => isName_of_mem (hr ▸ Option.some_ne_none _) hn
    rcases hgoes with rfl | ⟨-, rfl⟩
    · exact leads_below hunder hnames hl
    rw [List.append_assoc] at hl
    refine leads_below hunder (fun n hn => ?_) hl
    rcases List.mem_append.1 hn with hn | hn
    · exact hnames n hn
    · -- the file is not the source directory itself
      have hne : r ≠ [] := by
        rintro rfl
        rw [List.append_nil, hf.grew.extends_.dir hS] at hr
        cases hr
      obtain rfl := List.mem_singleton.1 hn
      obtain ⟨q, d, rfl⟩ : ∃ q d, r = q ++ [d] := ⟨_, _, (List.dropLast_append_getLast hne).symm⟩
      rw [List.getLastD_concat]
      exact hnames d (List.mem_append_right q (List.mem_singleton_self d))
  rcases List.prefix_or_prefix_of_prefix hp hbelow with h | h
  · exact hout h
  · rw [get_eq_none_below hfree h] at hS
    cases hS

end

end FS

namespace Job

/-! ## One copy -/

theorem card_created_put (j : Job) (l : Loc) (nd : Node) : (j.fs.created (j.put l nd).fs).card ≤ 1 := by
  refine Finset.card_le_one_iff_subset_singleton.2 ⟨l, fun m hm => Finset.mem_singleton.2 ?_⟩
  obtain ⟨hn, hg⟩ := mem_created.1 hm
  by_contra hne
  exact hg ((put_get_of_ne hne).trans hn)

theorem card_created_mkdir (j : Job) (p : List Name) : (j.fs.created (j.mkdir p).fs).card ≤ 1 := by
  unfold mkdir
  split
  · exact card_created_put ..
  · simp [fail]

/-- A write leaves the tree as it was, or an entry of the same kind at its place. -/
theorem put_cases (j : Job) (l : Loc) (nd : Node) :
    (j.put l nd).fs = j.fs ∨ ∃ nd', nd'.kind = nd.kind ∧ (j.put l nd).fs = j.fs.set l nd' := by
  unfold put
  split
  · exact .inr ⟨nd, rfl, rfl⟩
  · unfold torn
    split
    next content n _ => exact .inr ⟨.file (content.take n), rfl, rfl⟩
    · exact .inl rfl
  · exact .inr ⟨nd, rfl, rfl⟩

section

variable {overwrite : Bool} {depth : Nat} {src dst p : List Name} {S r : Loc} {j : Job}

/-- A directory is made at its place. -/
theorem adds_ensure (hS : j.fs.get (S ++ r) = some .dir) (hout : ∀ l, j.fs.Makes S dst r l → ¬ S <+: l) :
    Adds S dst 1 j.fs (j.ensure (dst ++ r)).fs := by
  unfold ensure
  split
  case isFalse => exact Adds.refl S dst 1 _
  case isTrue habs =>
    refine ⟨?_, card_created_mkdir j _⟩
    unfold mkdir
    split
    case h_2 => exact Fills.refl S dst _
    case h_1 l _ hl =>
      rcases put_cases j l .dir with e | ⟨nd, hk, e⟩
      · rw [e]
        exact Fills.refl S dst _
      · rw [e]
        obtain rfl := Node.kind_eq_dir.1 hk
        exact fills_set (get_of_make_of_absent hl (.inr habs)) (by simp) (hout l (.inl ⟨hS, habs, hl⟩))
          fun fs' hext hg => .inl ⟨hext.dir hS, symlinkStatus_made hext habs hl hg⟩

/-- A file is made at its place, or in the directory that stands there. -/
theorem adds_copyFile (overwrite : Bool) {content : List UInt8} (l : Loc) (hS : j.fs.get (S ++ r) = some (.file content))
    (hp : j.fs.FileGoes dst r p) (hout : ∀ l, j.fs.Makes S dst r l → ¬ S <+: l) :
    Adds S dst 1 j.fs (copyFile overwrite content l p j).fs := by
  unfold copyFile
  split
  case h_1 m old hs =>
    split
    · exact Adds.refl S dst 1 _
    split
    case isFalse => exact Adds.refl S dst 1 _
    case isTrue =>
      have hg := (look_found.1 hs).2
      have hgrew : Grew [] j.fs (j.put m (.file content)).fs := grew_put (fits_file hg) List.nil_prefix
      have hsame (k : Loc) (hn : j.fs.get k = none) : (j.put m (.file content)).fs.get k = none := by
        rw [put_get_of_ne (fun e => by rw [e, hg] at hn; cases hn), hn]
      exact ⟨⟨hgrew, fun k _ hn => hsame k hn, fun k hn hk => absurd (hsame k hn) hk⟩, card_created_put ..⟩
  case h_2 habs =>
    split
    case h_2 => exact Adds.refl S dst 1 _
    case h_1 m hl =>
      refine ⟨?_, card_created_put ..⟩
      rcases put_cases j m (.file content) with e | ⟨nd, hk, e⟩
      · rw [e]
        exact Fills.refl S dst _
      · rw [e]
        cases nd with
        | dir | link => simp [Node.kind] at hk
        | file arrived =>
          refine fills_set (r := r) (get_of_make_of_absent hl (.inl habs)) (by simp)
            (hout m (.inr ⟨content, p, hS, hp, habs, hl⟩)) fun fs' hext hg => ?_
          obtain ⟨content', hS'⟩ := hext.file hS
          exact .inr ⟨content', p, arrived, hS', hp.extends_ hext, status_made hext hl hg⟩
  case h_3 => exact Adds.refl S dst 1 _

/-- A link is skipped, or the copy fails. -/
theorem copy_link (overwrite : Bool) (depth : Nat) (dst : List Name) {l : Loc} {t : Str}
    (h : j.fs.symlinkStatus src = .found l (.link t)) :
    (copy overwrite depth src dst j).fs = j.fs ∧ copy overwrite depth src dst j = copy overwrite 0 src dst j := by
  unfold copy
  rw [h]
  split
  · exact ⟨rfl, rfl⟩
  · exact ⟨rfl, rfl⟩
  · exact ⟨rfl, rfl⟩
  case h_4 s nd hs _ =>
    obtain ⟨-, rfl⟩ := Lookup.found.inj hs
    dsimp only
    split <;> exact ⟨rfl, rfl⟩

/-- The directory that is copied, no entry of which is made in it. -/
structure Level (S : Loc) (fs : FS) (src dst : List Name) : Prop where
  source : fs.symlinkStatus src = .found S .dir
  outside : Outside S fs dst

theorem Level.fills {fs fs' : FS} (h : Level S fs src dst) (hf : Fills S dst fs fs') : Level S fs' src dst := by
  refine ⟨?_, h.outside.fills hf⟩
  obtain ⟨nd, hs, hk⟩ := look_of_extends hf.grew.extends_ (by decide) h.source
  rwa [Node.kind_eq_dir.1 hk] at hs

theorem Level.out {fs : FS} (h : Level S fs src dst) (l : Loc) (hl : fs.Makes S dst r l) : ¬ S <+: l :=
  h.outside fs (Fills.refl S dst fs) r l hl

/-- The entries `ns` are copied one after another, and make no more than their trees hold. -/
theorem adds_each
    (hcopy : ∀ c k, Level S k.fs src dst → k.fs.get (S ++ r ++ [c]) ≠ none →
      Adds S dst (k.fs.tree (S ++ r ++ [c])).card k.fs (copy overwrite depth (src ++ r ++ [c]) (dst ++ r ++ [c]) k).fs)
    (ns : List Name) (hnodup : ns.Nodup) (k : Job) (h : Level S k.fs src dst)
    (hmem : ∀ c ∈ ns, k.fs.get (S ++ r ++ [c]) ≠ none) :
    Adds S dst (k.fs.branches (S ++ r) ns).card k.fs
      (each (fun c => copy overwrite depth (src ++ r ++ [c]) (dst ++ r ++ [c])) ns k).fs := by
  induction ns generalizing k with
  | nil => exact Adds.refl S dst _ _
  | cons c ns ih =>
    obtain ⟨hc, hrest⟩ := List.nodup_cons.1 hnodup
    unfold each
    split
    · exact Adds.refl S dst _ _
    have hstep := hcopy c k h (hmem c List.mem_cons_self)
    have hmem' : ∀ d ∈ ns, (copy overwrite depth (src ++ r ++ [c]) (dst ++ r ++ [c]) k).fs.get (S ++ r ++ [d]) ≠ none := by
      intro d hd
      rw [ne_eq, hstep.fills.get_eq_none_iff ((List.prefix_append S r).trans (List.prefix_append _ [d]))]
      exact hmem d (List.mem_cons_of_mem c hd)
    have hothers := ih hrest _ (h.fills hstep.fills) hmem'
    rw [hstep.fills.branches_eq (List.prefix_append S r)] at hothers
    exact (hstep.trans hothers).mono (card_branches_cons k.fs (S ++ r) hc)

/-- The copy of an entry makes no more entries than its tree has. -/
theorem adds_copy (overwrite : Bool) (depth : Nat) (r : Loc) (j : Job) (h : Level S j.fs src dst)
    (hr : j.fs.get (S ++ r) ≠ none) :
    Adds S dst (j.fs.tree (S ++ r)).card j.fs (copy overwrite depth (src ++ r) (dst ++ r) j).fs := by
  induction depth using Nat.strong_induction_on generalizing r j with
  | _ depth ih =>
  obtain ⟨nd, hnd⟩ := Option.ne_none_iff_exists'.1 hr
  have hsrc := look_below h.source hnd
  have hone : 1 ≤ (j.fs.tree (S ++ r)).card := tree_pos hr
  have hstep := copyStep overwrite depth (src ++ r) (dst ++ r) j
  generalize copy overwrite depth (src ++ r) (dst ++ r) j = j' at hstep
  cases hstep with
  | failed => exact Adds.refl S dst _ _
  | skipped => exact Adds.refl S dst _ _
  | into s content found l target =>
    obtain ⟨rfl, rfl⟩ := FS.Lookup.found.inj (found.symm.trans hsrc)
    -- the file goes into the directory that has its name
    have hlast : (src ++ r).getLastD [] = r.getLastD [] := by
      rcases List.eq_nil_or_concat r with rfl | ⟨q, c, rfl⟩
      · rw [List.append_nil, (look_found.1 h.source).2] at hnd
        cases hnd
      · rw [List.concat_eq_append, ← List.append_assoc, List.getLastD_concat, List.getLastD_concat]
    rw [hlast]
    exact (adds_copyFile overwrite _ hnd (.inr ⟨⟨l, target⟩, rfl⟩) h.out).mono hone
  | file s content found target =>
    obtain ⟨rfl, rfl⟩ := FS.Lookup.found.inj (found.symm.trans hsrc)
    exact (adds_copyFile overwrite _ hnd (.inl rfl) h.out).mono hone
  | unmade s found threw =>
    obtain ⟨rfl, rfl⟩ := FS.Lookup.found.inj (found.symm.trans hsrc)
    exact (adds_ensure hnd h.out).mono hone
  | dir s found target nofile n deeper made =>
    obtain ⟨rfl, rfl⟩ := FS.Lookup.found.inj (found.symm.trans hsrc)
    have hmade : Adds S dst 1 j.fs (j.ensure (dst ++ r)).fs := adds_ensure hnd h.out
    have hrows := adds_each (r := r) (fun c k hk hc => by
      rw [List.append_assoc] at hc
      have hcopied := ih n (by omega) (r ++ [c]) k hk hc
      rwa [← List.append_assoc, ← List.append_assoc, ← List.append_assoc] at hcopied)
      _ (nodup_children _ (S ++ r)) _ (h.fills hmade.fills) fun c hc => mem_children.1 hc
    rw [hmade.fills.branches_eq (List.prefix_append S r)] at hrows
    refine (hmade.trans hrows).mono ?_
    rw [Nat.add_comm]
    exact card_branches_lt hr _

end

/-! ## How deep a copy goes -/

section

variable {overwrite : Bool} {depth : Nat} {src dst : List Name} {S r : Loc}

/-- Two limits agree where they agree on the entries of the directory. -/
theorem copy_congr {d d' : Nat} {j : Job}
    (h : ∀ s, j.fs.symlinkStatus src = .found s .dir → (j.ensure dst).threw = false →
      each (fun c => copy overwrite d (src ++ [c]) (dst ++ [c])) ((j.ensure dst).fs.children s) (j.ensure dst) =
        each (fun c => copy overwrite d' (src ++ [c]) (dst ++ [c])) ((j.ensure dst).fs.children s) (j.ensure dst)) :
    copy overwrite (d + 1) src dst j = copy overwrite (d' + 1) src dst j := by
  rw [copy, copy]
  split
  · rfl
  · rfl
  · rfl
  case h_4 s nd hs ht =>
    split
    · rfl
    split
    · rfl
    · rfl
    · rfl
    · rfl
    case h_5 =>
      change (if (j.ensure dst).threw = true then j.ensure dst else each _ _ _) =
        if (j.ensure dst).threw = true then j.ensure dst else each _ _ _
      split
      · rfl
      case isFalse hok => exact h s hs (by simpa using hok)

theorem each_congr {step step' : Name → Job → Job} {P : Job → Prop} (ns : List Name)
    (hstep : ∀ c ∈ ns, ∀ k, P k → step c k = step' c k ∧ P (step c k)) (k : Job) (hk : P k) :
    each step ns k = each step' ns k := by
  induction ns generalizing k with
  | nil => rfl
  | cons c ns ih =>
    obtain ⟨he, hP⟩ := hstep c List.mem_cons_self k hk
    unfold each
    split
    · rfl
    · rw [← he]
      exact ih (fun d hd => hstep d (List.mem_cons_of_mem c hd)) _ hP

/-- No entry of the source is `n` names below `l`. -/
def Shallow (S : Loc) (fs : FS) (l : Loc) (n : Nat) : Prop := ∀ m, S <+: m → fs.get m ≠ none → m.length < l.length + n

theorem Shallow.fills {fs fs' : FS} {l : Loc} {n : Nat} (h : Shallow S fs l n) (hf : Fills S dst fs fs') :
    Shallow S fs' l n :=
  fun m hm hg => h m hm (mt (hf.get_eq_none_iff hm).2 hg)

theorem Shallow.child {fs : FS} {l : Loc} {n : Nat} (h : Shallow S fs l (n + 1)) (c : Name) : Shallow S fs (l ++ [c]) n := by
  intro m hm hg
  have hlen := h m hm hg
  rw [List.length_append, List.length_singleton]
  omega

/-- A copy goes no deeper than the source. -/
theorem copy_depth (overwrite : Bool) (n : Nat) {d d' : Nat} (hd : n ≤ d) (hd' : n ≤ d') (r : Loc) (j : Job)
    (h : Level S j.fs src dst) (hr : j.fs.get (S ++ r) ≠ none) (hdeep : Shallow S j.fs (S ++ r) n) :
    copy overwrite d (src ++ r) (dst ++ r) j = copy overwrite d' (src ++ r) (dst ++ r) j := by
  induction n generalizing d d' r j with
  | zero => exact absurd (hdeep _ (List.prefix_append S r) hr) (Nat.lt_irrefl _)
  | succ n ih =>
    obtain ⟨d, rfl⟩ : ∃ e, d = e + 1 := ⟨d - 1, by omega⟩
    obtain ⟨d', rfl⟩ : ∃ e, d' = e + 1 := ⟨d' - 1, by omega⟩
    obtain ⟨nd, hnd⟩ := Option.ne_none_iff_exists'.1 hr
    apply copy_congr
    intro s hs hok
    obtain ⟨rfl, rfl⟩ := FS.Lookup.found.inj (hs.symm.trans (look_below h.source hnd))
    have hmade : Adds S dst 1 j.fs (j.ensure (dst ++ r)).fs := adds_ensure hnd h.out
    let P (k : Job) : Prop := Fills S dst (j.ensure (dst ++ r)).fs k.fs
    refine each_congr (P := P) _ (fun c hc k hk => ?_) _ (Fills.refl S dst _)
    -- what was copied before leaves the source, and so its depth, as it was
    have hfills := hmade.fills.trans hk
    have hc' : k.fs.get (S ++ (r ++ [c])) ≠ none := by
      rw [ne_eq, hk.get_eq_none_iff (List.prefix_append S _), ← List.append_assoc]
      exact mem_children.1 hc
    have hle : n ≤ d := by omega
    have hle' : n ≤ d' := by omega
    have hsame := ih hle hle' (r ++ [c]) k (h.fills hfills) hc'
      (by rw [← List.append_assoc]; exact (hdeep.fills hfills).child c)
    have hcopied := (adds_copy overwrite d (r ++ [c]) k (h.fills hfills) hc').fills
    rw [← List.append_assoc, ← List.append_assoc] at hsame hcopied
    exact ⟨hsame, hk.trans hcopied⟩

end

end Job

namespace FS

/-! ## The whole copy -/

/-- Making the last directory of a path fails without a change, or is one attempt at that directory. -/
theorem createDirectories_child {fs : FS} (fault : Option Fault) {p : List Name} {l : Loc} {nd : Node} {n : Name}
    (hs : fs.status p = .found l nd) (habs : fs.status (p ++ [n]) = .absent) :
    fs.createDirectories fault (p ++ [n]) = (fs, true) ∨
      nd = .dir ∧ (fs.createDirectories fault (p ++ [n])).1 = ((Job.start fs fault).mkdir (p ++ [n])).fs ∧
        ((fs.createDirectories fault (p ++ [n])).2 = false → fs.symlinkStatus (p ++ [n]) = .absent) := by
  by_cases hnd : nd = .dir
  case neg => exact .inl (createDirectories_below_leaf hs hnd n)
  subst hnd
  have hpre : ∀ b d, p = b ++ d → ∃ m, fs.status b = .found m .dir := by
    rintro b d rfl
    exact status_dir_prefix hs
  have hstart : (Job.start fs fault).fs = fs := rfl
  have hmkdirs : mkdirs p [n] (Job.start fs fault) = (Job.start fs fault).mkdir (p ++ [n]) := by
    unfold mkdirs
    rw [hstart, habs]
    dsimp only
    split
    · rfl
    · rfl
  rw [createDirectories_concat hpre, hmkdirs]
  exact .inr ⟨rfl, rfl, fun hok => (missing_of_mkdir (Bool.or_eq_false_iff.1 hok).1).1⟩

section

variable {fs : FS} {src dst : List Name} {S P : Loc} {nd : Node}

/-- A copy of a directory to a place that is there makes no more than the directory holds. -/
theorem adds_copyTree (fault : Option Fault) (depth : Nat) (overwrite : Bool) (h : Job.Level S fs src dst)
    (ht : fs.status dst = .found P nd) :
    Adds S dst ((fs.tree S).card - 1) fs (fs.copy fault depth overwrite src dst).1 := by
  change Adds S dst _ fs (Job.copy overwrite depth src dst (Job.start fs fault)).fs
  have hthere : (Job.start fs fault).ensure dst = Job.start fs fault := by
    obtain ⟨m, nd', hk⟩ := symlinkStatus_of_status ht
    exact if_neg (by simp [Job.start, hk])
  have hstep := Job.copyStep overwrite depth src dst (Job.start fs fault)
  generalize Job.copy overwrite depth src dst (Job.start fs fault) = j' at hstep
  cases hstep with
  | failed => exact Adds.refl S dst _ fs
  | skipped => exact Adds.refl S dst _ fs
  | into s content found =>
    obtain ⟨-, hk⟩ := Lookup.found.inj (found.symm.trans h.source)
    cases hk
  | file s content found =>
    obtain ⟨-, hk⟩ := Lookup.found.inj (found.symm.trans h.source)
    cases hk
  | unmade => rw [hthere]; exact Adds.refl S dst _ fs
  | dir s found target nofile n deeper made =>
    obtain ⟨rfl, -⟩ := Lookup.found.inj (found.symm.trans h.source)
    rw [hthere]
    have hrows := Job.adds_each (r := []) (fun c k hk hc => by
      rw [List.append_nil] at hc
      have hcopied := Job.adds_copy overwrite n [c] k hk hc
      rwa [List.append_nil, List.append_nil, List.append_nil])
      (fs.children s) (nodup_children fs s) (Job.start fs fault) h (by
        intro c hc
        rw [List.append_nil]
        exact mem_children.1 hc)
    rw [List.append_nil, List.append_nil, List.append_nil] at hrows
    have hthere : fs.get s ≠ none := by simp [(look_found.1 h.source).2]
    exact hrows.mono (Nat.le_sub_one_of_lt (card_branches_lt hthere (fs.children s)))

/-- From the depth of the tree on, the limit makes no difference. -/
theorem copyTree_depth (fault : Option Fault) (overwrite : Bool) (h : Job.Level S fs src dst) :
    ∃ limit, ∀ depth, limit ≤ depth → fs.copy fault depth overwrite src dst = fs.copy fault limit overwrite src dst := by
  have hdeep : Job.Shallow S fs (S ++ []) (fs.depth + 1) := fun m _ hg => by
    have hlen := length_le_depth hg
    omega
  refine ⟨fs.depth + 1, fun depth hdepth => ?_⟩
  have hsame := Job.copy_depth overwrite (fs.depth + 1) hdepth (Nat.le_refl _) [] (Job.start fs fault) h
    (by rw [List.append_nil, Job.start, (look_found.1 h.source).2]; simp) hdeep
  rw [List.append_nil, List.append_nil] at hsame
  rw [copy, copy, hsame]

end

end FS

namespace Job

/-! ## A copy into its own source -/

/-- Some entry is at least `n` names deep. -/
def Deep (fs : FS) (n : Nat) : Prop := ∃ m, fs.get m ≠ none ∧ n ≤ m.length

theorem Deep.extends_ {fs fs' : FS} {n : Nat} (h : Deep fs n) (hext : Extends fs fs') : Deep fs' n := by
  obtain ⟨m, hm, hn⟩ := h
  obtain ⟨nd, hnd⟩ := Option.ne_none_iff_exists'.1 hm
  obtain ⟨nd', hnd', -⟩ := hext m nd hnd
  exact ⟨m, by simp [hnd'], hn⟩

/-- No tree has entries at every depth. -/
theorem not_deep (fs : FS) : ¬ Deep fs (fs.depth + 1) := by
  rintro ⟨m, hm, hn⟩
  have hlen := length_le_depth hm
  omega

variable {overwrite : Bool} {depth : Nat} {src dst : List Name} {S P t r : Loc} {j k : Job} {ns : List Name}

/-- A directory is copied by copying its entries. -/
theorem copy_dir (hs : j.fs.symlinkStatus src = .found S .dir) (hfail : j.fs.symlinkStatus dst ≠ .failed)
    (hfile : ∀ l c, j.fs.symlinkStatus dst ≠ .found l (.file c)) (hother : equivalent j.fs src dst = false)
    (hok : (j.ensure dst).threw = false) :
    copy overwrite (depth + 1) src dst j =
      each (fun c => copy overwrite depth (src ++ [c]) (dst ++ [c])) ((j.ensure dst).fs.children S) (j.ensure dst) := by
  rw [copy, hs]
  cases hdst : j.fs.symlinkStatus dst with
  | failed => exact absurd hdst hfail
  | absent =>
    have hensure : (j.mkdir dst) = j.ensure dst := (if_pos hdst).symm
    dsimp only
    rw [if_neg (by simp [hother]), if_pos rfl, hensure, if_neg (by simp [hok])]
  | found l nd =>
    have hensure : j.ensure dst = j := if_neg (by simp [hdst])
    rw [hensure] at hok ⊢
    cases nd with
    | file c => exact absurd hdst (hfile l c)
    | dir | link =>
      simp only [hother, Bool.false_eq_true, if_false, reduceCtorEq]
      rw [if_neg (by simp [hok])]

/-- A directory is made where nothing is, as the device allows every write. -/
theorem ensure_free {dir : List Name} {l : Loc} {c : Name} (hdir : j.fs.status dir = .found l .dir) (hc : IsName c)
    (hfree : j.fs.get (l ++ [c]) = none) (hsound : j.fault = none) :
    j.fs.symlinkStatus (dir ++ [c]) = .absent ∧ j.fs.status (dir ++ [c]) = .absent ∧
      j.ensure (dir ++ [c]) = { j with fs := j.fs.set (l ++ [c]) .dir } := by
  have hkeep : j.fs.symlinkStatus (dir ++ [c]) = _ := look_child hdir hc (by decide) (.inl rfl)
  have hfollow : j.fs.status (dir ++ [c]) = _ := look_child hdir hc (by decide) (.inr (by simp [hfree]))
  have hmake : j.fs.locate .make (dir ++ [c]) = _ := locate_child hdir hc .make (.inr (by simp [hfree]))
  rw [hfree] at hkeep hfollow
  rw [if_neg (by simp)] at hmake
  refine ⟨hkeep, hfollow, ?_⟩
  simp only [Job.ensure, hkeep, if_true, mkdir, hmake, put, hsound]

/-- A path that finds nothing leads to no other entry. -/
theorem equivalent_of_absent {fs : FS} {p q : List Name} (hq : fs.status q = .absent) : equivalent fs p q = false := by
  simp [equivalent, hq]

/-- At the limit no directory is copied. -/
theorem copy_limit (hs : j.fs.symlinkStatus src = .found S .dir) (ht : j.fs.symlinkStatus dst = .absent)
    (hother : equivalent j.fs src dst = false) : copy overwrite 0 src dst j = j.fail := by
  simp [copy, hs, ht, hother]

/-- The entries `ns` are copied to places where nothing stands. -/
theorem each_free (hcopy : ∀ c k, Route k.fs (src ++ [c]) (dst ++ [c]) (S ++ [c]) (P ++ [c]) → k.fs.get (P ++ [c]) = none →
      k.fault = none → k.threw = false → (copy overwrite depth (src ++ [c]) (dst ++ [c]) k).fault = none ∧
        ((copy overwrite depth (src ++ [c]) (dst ++ [c]) k).threw = true →
          Deep (copy overwrite depth (src ++ [c]) (dst ++ [c]) k).fs (S.length + depth + 1)))
    (hnodup : ns.Nodup) (hrows : Rows k.fs src dst S P) (hmem : ∀ c ∈ ns, c ∈ k.fs.children S)
    (hfree : ∀ c ∈ ns, k.fs.get (P ++ [c]) = none) (hsound : k.fault = none) (hok : k.threw = false) :
    (each (fun c => copy overwrite depth (src ++ [c]) (dst ++ [c])) ns k).fault = none ∧
      ((each (fun c => copy overwrite depth (src ++ [c]) (dst ++ [c])) ns k).threw = true →
        Deep (each (fun c => copy overwrite depth (src ++ [c]) (dst ++ [c])) ns k).fs (S.length + depth + 1)) := by
  induction ns generalizing k with
  | nil => exact ⟨hsound, fun h => by cases hok.symm.trans h⟩
  | cons c ns ih =>
    obtain ⟨hc, hrest⟩ := List.nodup_cons.1 hnodup
    have hroute := hrows.route (hmem c List.mem_cons_self)
    have hnone := hfree c List.mem_cons_self
    obtain ⟨hsound', hdeep⟩ := hcopy c k hroute hnone hsound hok
    rw [each, if_neg (by simp [hok])]
    cases hok' : (copy overwrite depth (src ++ [c]) (dst ++ [c]) k).threw with
    | true =>
      rw [each_of_threw hok']
      exact ⟨hsound', hdeep⟩
    | false =>
      have hroom : Room overwrite k.fs (S ++ [c]) (P ++ [c]) := fun q _ _ =>
        .inl (get_eq_none_below hnone (List.prefix_append _ q))
      have hgrew := grew_copy_of_room overwrite depth _ _ k _ _ hroute hroom
      refine ih hrest (hrows.grew (hgrew.mono (List.prefix_append P [c]))) (fun d hd => ?_) (fun d hd => ?_) hsound' hok'
      · rw [mem_children, source_get hrows.apart (hgrew.mono (List.prefix_append P [c]))]
        exact mem_children.1 (hmem d (List.mem_cons_of_mem c hd))
      · rw [hgrew.within _ (not_prefix_sibling (r := []) fun e => hc (e ▸ hd))]
        exact hfree d (List.mem_cons_of_mem c hd)

/-- A copy to a place where nothing stands, apart from its source, fails at most for its depth. -/
theorem copy_free (overwrite : Bool) (depth : Nat) (src dst : List Name) (j : Job) (S P : Loc)
    (h : Route j.fs src dst S P) (hfree : j.fs.get P = none) (hsound : j.fault = none) (hok : j.threw = false) :
    (copy overwrite depth src dst j).fault = none ∧
      ((copy overwrite depth src dst j).threw = true → Deep (copy overwrite depth src dst j).fs (S.length + depth)) := by
  induction depth using Nat.strong_induction_on generalizing src dst j S P with
  | _ depth ih =>
  obtain ⟨dir, c, l, rfl, hdir, hc, rfl⟩ := h.target
  obtain ⟨hkeep, hfollow, hensure⟩ := ensure_free hdir hc hfree hsound
  obtain ⟨nd, hsrc⟩ := h.source
  have hother : equivalent j.fs src (dir ++ [c]) = false := equivalent_of_absent hfollow
  cases nd with
  | link t => simp [copy, hsrc, hkeep, hother, hsound, hok]
  | file content => simp [copy, hsrc, hkeep, hother, copyFile, hfollow, h.make, put, hsound, hok]
  | dir =>
    cases depth with
    | zero =>
      rw [copy_limit hsrc hkeep hother]
      exact ⟨hsound, fun _ => ⟨S, by simp [fail, (look_found.1 hsrc).2], Nat.le_refl _⟩⟩
    | succ depth =>
      have hok' : (j.ensure (dir ++ [c])).threw = false := by rw [hensure, hok]
      obtain ⟨hrows, hsame⟩ := h.ensure (look_found.1 hsrc).2 hok' (by simp [hkeep])
      rw [copy_dir hsrc (by simp [hkeep]) (by simp [hkeep]) hother hok', ← Nat.add_assoc]
      refine each_free (fun e k hroute hnone hs ho => ?_) (nodup_children _ _) hrows (fun c hc => hc) (fun e _ => ?_)
        (by rw [hensure, hsound]) hok'
      · have hcopied := ih depth (Nat.lt_succ_self depth) _ _ k _ _ hroute hnone hs ho
        rwa [List.length_append, List.length_singleton, Nat.add_right_comm] at hcopied
      · rw [hsame _ (by simp)]
        exact get_eq_none_below hfree (List.prefix_append _ [e])

/-- What the entries `ns` of a directory of the source are when the directory they are copied to is in the source
too: `t` leads from the source to its target, and `r` to the directory. -/
structure Inwards (src dst : List Name) (S t r : Loc) (k : Job) (ns : List Name) : Prop where
  source : k.fs.symlinkStatus src = .found S .dir
  target : k.fs.status (dst ++ r) = .found (S ++ t ++ r) .dir
  sound : k.fault = none
  ok : k.threw = false
  free : ∀ c ∈ ns, k.fs.get (S ++ t ++ r ++ [c]) = none
  there : ∀ c ∈ ns, k.fs.get (S ++ r ++ [c]) ≠ none

theorem Inwards.lookup (h : Inwards src dst S t r k ns) {c : Name} (hc : c ∈ ns) :
    ∃ nd, k.fs.get (S ++ r ++ [c]) = some nd ∧ k.fs.symlinkStatus (src ++ r ++ [c]) = .found (S ++ r ++ [c]) nd := by
  obtain ⟨nd, hnd⟩ := Option.ne_none_iff_exists'.1 (h.there c hc)
  rw [List.append_assoc] at hnd
  refine ⟨nd, by rw [List.append_assoc, hnd], ?_⟩
  rw [List.append_assoc, List.append_assoc]
  exact look_below h.source hnd

/-- The next directory on the way to the target is not the place of another entry. -/
theorem apart_step {c d : Name} (hc : r ++ [c] <+: t ++ r) (hd : d ≠ c) : Apart (S ++ r ++ [d]) (S ++ t ++ r ++ [d]) := by
  obtain ⟨w, hw⟩ := hc
  have hplace : S ++ t ++ r ++ [d] = S ++ r ++ [c] ++ (w ++ [d]) := by
    rw [List.append_assoc S t r, ← hw]
    simp
  rw [hplace]
  have hapart := apart_append (apart_concat (r := S ++ r) hd) [] (w ++ [d])
  rwa [List.append_nil] at hapart

/-- An entry beside the way to the target is copied, or the copy ends for its depth. -/
theorem Inwards.beside (overwrite : Bool) (depth : Nat) {c d : Name} (h : Inwards src dst S t r k (d :: ns)) (hnodup : (d :: ns).Nodup)
    (hc : r ++ [c] <+: t ++ r) (hd : d ≠ c) :
    Inwards src dst S t r (copy overwrite depth (src ++ r ++ [d]) (dst ++ r ++ [d]) k) ns ∨
      (copy overwrite depth (src ++ r ++ [d]) (dst ++ r ++ [d]) k).threw = true ∧
        Deep (copy overwrite depth (src ++ r ++ [d]) (dst ++ r ++ [d]) k).fs (S.length + r.length + 1 + depth) := by
  obtain ⟨nd, hnd, hsrc⟩ := h.lookup List.mem_cons_self
  have hnone := h.free d List.mem_cons_self
  have hroute : Route k.fs (src ++ r ++ [d]) (dst ++ r ++ [d]) (S ++ r ++ [d]) (S ++ t ++ r ++ [d]) := by
    refine ⟨⟨nd, hsrc⟩, ⟨_, _, _, rfl, h.target, k.fs.named _ d (h.there d List.mem_cons_self), rfl⟩, ?_,
      apart_step hc hd⟩
    intro q link _ hlink
    rw [get_eq_none_below hnone (List.prefix_append _ q)] at hlink
    cases hlink
  obtain ⟨hsound, hdeep⟩ := copy_free overwrite depth _ _ k _ _ hroute hnone h.sound h.ok
  cases hok : (copy overwrite depth (src ++ r ++ [d]) (dst ++ r ++ [d]) k).threw with
  | true =>
    refine .inr ⟨rfl, ?_⟩
    have hlen : (S ++ r ++ [d]).length = S.length + r.length + 1 := by simp [Nat.add_assoc]
    rw [← hlen]
    exact hdeep hok
  | false =>
    have hroom : Room overwrite k.fs (S ++ r ++ [d]) (S ++ t ++ r ++ [d]) := fun q _ _ =>
      .inl (get_eq_none_below hnone (List.prefix_append _ q))
    have hgrew := grew_copy_of_room overwrite depth _ _ k _ _ hroute hroom
    obtain ⟨nd', hsource, hk⟩ := look_of_extends hgrew.extends_ (by decide) h.source
    rw [Node.kind_eq_dir.1 hk] at hsource
    refine .inl ⟨hsource, status_dir_of_extends hgrew.extends_ h.target, hsound, hok, fun e he => ?_, fun e he => ?_⟩
    · rw [hgrew.within _ (not_prefix_sibling (r := []) fun e' => (List.nodup_cons.1 hnodup).1 (e' ▸ he))]
      exact h.free e (List.mem_cons_of_mem d he)
    · obtain ⟨nd, hnd⟩ := Option.ne_none_iff_exists'.1 (h.there e (List.mem_cons_of_mem d he))
      obtain ⟨nd', hnd', -⟩ := hgrew.extends_ _ nd hnd
      exact hnd' ▸ Option.some_ne_none nd'

/-- The copies go on to the entry that leads to the target. -/
theorem each_inwards {c : Name} (hc : r ++ [c] <+: t ++ r)
    (hstep : ∀ k ns, Inwards src dst S t r k (c :: ns) →
      (copy overwrite depth (src ++ r ++ [c]) (dst ++ r ++ [c]) k).threw = true ∧
        Deep (copy overwrite depth (src ++ r ++ [c]) (dst ++ r ++ [c]) k).fs (S.length + r.length + 1 + depth))
    (hnodup : ns.Nodup) (hmem : c ∈ ns) (h : Inwards src dst S t r k ns) :
    (each (fun c => copy overwrite depth (src ++ r ++ [c]) (dst ++ r ++ [c])) ns k).threw = true ∧
      Deep (each (fun c => copy overwrite depth (src ++ r ++ [c]) (dst ++ r ++ [c])) ns k).fs
        (S.length + r.length + 1 + depth) := by
  induction ns generalizing k with
  | nil => cases hmem
  | cons d ns ih =>
    rw [each, if_neg (by simp [h.ok])]
    by_cases hd : d = c
    · subst hd
      obtain ⟨hthrew, hdeep⟩ := hstep k ns h
      rw [each_of_threw hthrew]
      exact ⟨hthrew, hdeep⟩
    · rcases h.beside overwrite depth hnodup hc hd with hnext | ⟨hthrew, hdeep⟩
      · exact ih (List.nodup_cons.1 hnodup).2 ((List.mem_cons.1 hmem).resolve_left (Ne.symm hd)) hnext
      · rw [each_of_threw hthrew]
        exact ⟨hthrew, hdeep⟩

/-- The next directory on the way to the target. -/
theorem exists_step (ht : t ≠ []) (hr : r <+: t ++ r) : ∃ c, r ++ [c] <+: t ++ r := by
  obtain ⟨w, hw⟩ := hr
  cases w with
  | nil =>
    have hlen := congrArg List.length hw
    rw [List.append_nil, List.length_append] at hlen
    exact absurd (List.length_eq_zero_iff.1 (show t.length = 0 by omega)) ht
  | cons c w => exact ⟨c, w, by rw [List.append_assoc, List.singleton_append, hw]⟩

/-- A copy on the way to its own target throws, and has been as deep as it could go. -/
theorem copy_inwards (overwrite : Bool) (ht : t ≠ []) (depth : Nat) (r : Loc) (hr : r <+: t ++ r) (k : Job)
    (h : Inwards src dst S t r k (k.fs.children (S ++ r))) :
    (each (fun c => copy overwrite depth (src ++ r ++ [c]) (dst ++ r ++ [c])) (k.fs.children (S ++ r)) k).threw = true ∧
      Deep (each (fun c => copy overwrite depth (src ++ r ++ [c]) (dst ++ r ++ [c])) (k.fs.children (S ++ r)) k).fs
        (S.length + r.length + 1 + depth) := by
  induction depth using Nat.strong_induction_on generalizing r k with
  | _ depth ih =>
  obtain ⟨c, hc⟩ := exists_step ht hr
  have hway : S ++ (r ++ [c]) <+: S ++ t ++ r := by
    rw [List.append_assoc]
    exact (List.prefix_append_right_inj S).2 hc
  have hdir (k : Job) (ns : List Name) (hk : Inwards src dst S t r k ns) : k.fs.get (S ++ (r ++ [c])) = some .dir := by
    have htarget := (look_found.1 hk.target).2
    by_cases e : S ++ (r ++ [c]) = S ++ t ++ r
    · rw [e, htarget]
    · exact k.fs.get_of_prefix hway e (htarget ▸ Option.some_ne_none _)
  refine each_inwards hc (fun k ns hk => ?_) (nodup_children _ _) (mem_children.2 ?_) h
  case refine_2 => rw [List.append_assoc, hdir k _ h]; simp
  have hfree := hk.free c List.mem_cons_self
  have hname : IsName c := k.fs.named _ c (hk.there c List.mem_cons_self)
  obtain ⟨hkeep, hfollow, hensure⟩ := ensure_free hk.target hname hfree hk.sound
  have hsrc : k.fs.symlinkStatus (src ++ r ++ [c]) = .found (S ++ r ++ [c]) .dir := by
    rw [List.append_assoc, List.append_assoc]
    exact look_below hk.source (hdir k _ hk)
  have hother : equivalent k.fs (src ++ r ++ [c]) (dst ++ r ++ [c]) = false := equivalent_of_absent hfollow
  cases depth with
  | zero =>
    rw [copy_limit hsrc hkeep hother]
    exact ⟨rfl, S ++ r ++ [c], hk.there c List.mem_cons_self, by simp [Nat.add_assoc]⟩
  | succ depth =>
    have hok : (k.ensure (dst ++ r ++ [c])).threw = false := by rw [hensure, hk.ok]
    have hset (m : Loc) : (k.ensure (dst ++ r ++ [c])).fs.get m = if m = S ++ t ++ r ++ [c] then some .dir else k.fs.get m := by
      rw [hensure]
      exact set_get _ (canSet_child (look_found.1 hk.target).2 hname fun _ => rfl) m
    have hgrew : Grew [] k.fs (k.ensure (dst ++ r ++ [c])).fs := grew_ensure fun _ _ => List.nil_prefix
    have hsource : (k.ensure (dst ++ r ++ [c])).fs.symlinkStatus src = .found S .dir := by
      obtain ⟨nd, hs, hkind⟩ := look_of_extends hgrew.extends_ (by decide) hk.source
      rwa [Node.kind_eq_dir.1 hkind] at hs
    have htarget : (k.ensure (dst ++ r ++ [c])).fs.status (dst ++ r ++ [c]) = .found (S ++ t ++ r ++ [c]) .dir := by
      have hmade : (k.ensure (dst ++ r ++ [c])).fs.get (S ++ t ++ r ++ [c]) = some .dir := by rw [hset, if_pos rfl]
      rw [status, look_child (status_dir_of_extends hgrew.extends_ hk.target) hname (by decide) (.inr fun t h => by rw [hmade] at h; cases h),
        hmade]
    have hempty (d : Name) : (k.ensure (dst ++ r ++ [c])).fs.get (S ++ t ++ r ++ [c] ++ [d]) = none := by
      rw [hset, if_neg (by simp)]
      exact get_eq_none_below hfree (List.prefix_append _ [d])
    rw [copy_dir hsrc (fun h => by rw [hkeep] at h; cases h) (fun l c h => by rw [hkeep] at h; cases h) hother hok]
    have hsound : (k.ensure (dst ++ r ++ [c])).fault = none := by rw [hensure, hk.sound]
    generalize k.ensure (dst ++ r ++ [c]) = k' at hok hsource htarget hempty hsound ⊢
    rw [List.append_assoc] at htarget
    have hplace : S ++ t ++ r ++ [c] = S ++ t ++ (r ++ [c]) := List.append_assoc ..
    rw [hplace] at htarget hempty
    have hnext := ih depth (Nat.lt_succ_self depth) (r ++ [c])
      (hc.trans ((List.prefix_append_right_inj t).2 (List.prefix_append r [c]))) k'
      ⟨hsource, htarget, hsound, hok, fun d _ => hempty d, fun d hd => mem_children.1 hd⟩
    have hdeeper : S.length + (r ++ [c]).length + 1 + depth = S.length + r.length + 1 + (depth + 1) := by
      rw [List.length_append, List.length_singleton]
      omega
    rw [hdeeper, ← List.append_assoc, ← List.append_assoc, ← List.append_assoc] at hnext
    exact hnext

/-- A copy into a new directory in the source goes as deep as it may. -/
theorem copy_into_itself (overwrite : Bool) (ht : t ≠ []) (depth : Nat) (hsrc : j.fs.symlinkStatus src = .found S .dir)
    (hdst : j.fs.status dst = .found (S ++ t) .dir) (hempty : ∀ c, j.fs.get (S ++ t ++ [c]) = none)
    (hsound : j.fault = none) (hok : j.threw = false) :
    Deep (copy overwrite (depth + 1) src dst j).fs (S.length + 1 + depth) := by
  obtain ⟨m, nd, hkeep⟩ := symlinkStatus_of_status hdst
  have hthere : j.ensure dst = j := if_neg (by simp [hkeep])
  have hother : equivalent j.fs src dst = false := by
    have hfollow := status_of_symlinkStatus hsrc (by simp)
    simp [equivalent, hfollow, hdst, ht]
  have hfile (l : Loc) (c : List UInt8) : j.fs.symlinkStatus dst ≠ .found l (.file c) := fun h => by
    have hs := status_of_symlinkStatus h (by simp)
    rw [hdst] at hs
    cases hs
  rw [copy_dir hsrc (by rw [hkeep]; nofun) hfile hother (by rw [hthere, hok]), hthere]
  have hin : Inwards src dst S t [] j (j.fs.children (S ++ [])) :=
    ⟨hsrc, by rwa [List.append_nil, List.append_nil], hsound, hok, fun c _ => by rw [List.append_nil]; exact hempty c,
      fun c hc => mem_children.1 hc⟩
  have hinto := copy_inwards overwrite ht depth [] List.nil_prefix j hin
  simp only [List.append_nil, List.length_nil, Nat.add_zero] at hinto
  exact hinto.2

end Job

end Posix
