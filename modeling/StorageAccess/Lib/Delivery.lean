import StorageAccess.Lib.Places
/-!
# Copies to a place of their own

A copy to a place apart from its source, where no link stands at the place of a
source entry and there is room for the files, works at and below that place only.
A file goes to where its path leads.
-/

namespace Posix

open FS

/-- What stands at and below a place. -/
def FS.below (fs : FS) (S r : Loc) : Option Node := fs.get (S ++ r)

namespace Job

/-- No link stands at the place of an entry of the source. -/
def Clear (fs : FS) (S P : Loc) : Prop := ∀ r t, fs.get (S ++ r) ≠ none → fs.get (P ++ r) ≠ some (.link t)

/-- The source path names what stands at `S`; the target path is a name in a directory and
leads to the place `P`, which is apart from `S` and has no links in the way. -/
structure Route (fs : FS) (src dst : List Name) (S P : Loc) : Prop where
  source : ∃ nd, fs.symlinkStatus src = .found S nd
  target : ∃ dir c l, dst = dir ++ [c] ∧ fs.status dir = .found l .dir ∧ IsName c ∧ P = l ++ [c]
  clear : Clear fs S P
  apart : Apart S P

/-- Every file of the source has room at its place in the target. -/
def Room (overwrite : Bool) (fs : FS) (S P : Loc) : Prop :=
  ∀ r content, fs.get (S ++ r) = some (.file content) →
    fs.get (P ++ r) = none ∨ (overwrite = true ∧ ∃ old, fs.get (P ++ r) = some (.file old))

/-- What is in the way at the target is no link. -/
theorem Route.not_link {fs : FS} {src dst : List Name} {S P : Loc} (h : Route fs src dst S P) (t : Str) :
    fs.get P ≠ some (.link t) := by
  obtain ⟨nd, hs⟩ := h.source
  have hclear := h.clear [] t
  rw [List.append_nil, List.append_nil, (look_found.1 hs).2] at hclear
  exact hclear (by simp)

/-- What stands at the target, found through its path. -/
theorem Route.look {fs : FS} {src dst : List Name} {S P : Loc} (h : Route fs src dst S P) {last : Last}
    (hl : last ≠ .make) : fs.look last dst = match fs.get P with
      | some nd => .found P nd
      | none => .absent := by
  have hnl := h.not_link
  obtain ⟨dir, c, l, rfl, hs, hc, rfl⟩ := h.target
  exact look_child hs hc hl (.inr hnl)

theorem Route.make {fs : FS} {src dst : List Name} {S P : Loc} (h : Route fs src dst S P) :
    fs.locate .make dst = .ok P := by
  have hnl := h.not_link
  obtain ⟨dir, c, l, rfl, hs, hc, rfl⟩ := h.target
  rw [locate_child hs hc .make (.inr hnl)]
  simp

theorem Route.leads {fs : FS} {src dst : List Name} {S P : Loc} (h : Route fs src dst S P) (l : Loc)
    (hl : fs.locate .make dst = .ok l) : P <+: l := by
  rw [Except.ok.inj (h.make.symm.trans hl)]

theorem put_get_of_ne {j : Job} {l m : Loc} {nd : Node} (h : m ≠ l) : (j.put l nd).fs.get m = j.fs.get m := by
  unfold put
  split
  · exact set_get_of_ne j.fs l nd h
  · unfold torn
    split
    · exact set_get_of_ne j.fs l _ h
    · rfl
  · exact set_get_of_ne j.fs l nd h

/-- Making a directory changes the place its path leads to and no other. -/
theorem mkdir_get_of_ne {j : Job} {p : List Name} {l m : Loc} (hl : j.fs.locate .make p = .ok l) (h : m ≠ l) :
    (j.mkdir p).fs.get m = j.fs.get m := by
  unfold mkdir
  split
  case h_1 l' _ hl' =>
    obtain rfl := Except.ok.inj (hl.symm.trans hl')
    exact put_get_of_ne h
  · rfl

/-- A file that could be copied arrives where its path leads, unless one that is there was to stay. -/
theorem copyFile_arrives {overwrite : Bool} {content : List UInt8} {src l : Loc} {p : List Name} {j : Job}
    (hmake : j.fs.locate .make p = .ok l) (hroom : overwrite = true ∨ j.fs.get l = none)
    (hok : (copyFile overwrite content src p j).threw = false) :
    (copyFile overwrite content src p j).fs.get l = some (.file content) := by
  have hput (hcan : j.fs.CanSet l (.file content)) (hthrew : (j.put l (.file content)).threw = false) :
      (j.put l (.file content)).fs.get l = some (.file content) := by
    rw [put_fs hthrew, set_get j.fs hcan, if_pos rfl]
  unfold copyFile at hok ⊢
  cases hlook : j.fs.status p with
  | failed => simp [hlook, fail] at hok
  | absent =>
    simp only [hlook, hmake] at hok ⊢
    exact hput (canSet_make hmake (get_of_make_of_absent hmake (.inl hlook)) _) hok
  | found m nd =>
    obtain rfl := Except.ok.inj (hmake.symm.trans (make_of_status hlook))
    have hget := (look_found.1 hlook).2
    cases nd with
    | dir | link => simp [hlook, fail] at hok
    | file old =>
      obtain rfl := hroom.resolve_right (by simp [hget])
      simp only [hlook, if_true] at hok ⊢
      split at hok
      case isTrue => cases hok
      case isFalse hself =>
      rw [if_neg hself]
      exact hput (canSet_file hget) hok

/-- A job that threw goes no further. -/
theorem each_of_threw {step : Name → Job → Job} {ns : List Name} {j : Job} (h : j.threw = true) : each step ns j = j := by
  cases ns with
  | nil => rfl
  | cons n ns => rw [each, if_pos h]

theorem apart_append {S P : Loc} (h : Apart S P) (a b : Loc) : Apart (S ++ a) (P ++ b) := by
  refine ⟨fun hp => ?_, fun hp => ?_⟩
  · exact h.not_both ((List.prefix_append S a).trans hp) (List.prefix_append P b)
  · exact h.not_both (List.prefix_append S a) ((List.prefix_append P b).trans hp)

theorem not_prefix_sibling {P : Loc} {c d : Name} {r : Loc} (h : c ≠ d) : ¬ P ++ [c] <+: P ++ d :: r := by
  simp [List.prefix_append_right_inj, h]

section

variable {overwrite : Bool} {depth : Nat} {src dst : List Name} {S P : Loc}

/-- The entries of a source directory, on their way to the target directory. -/
structure Rows (fs : FS) (src dst : List Name) (S P : Loc) : Prop where
  source : fs.status src = .found S .dir
  target : fs.status dst = .found P .dir
  clear : Clear fs S P
  apart : Apart S P

/-- What growing the target leaves of the source. -/
theorem source_get {fs fs' : FS} (h : Apart S P) (hg : Grew P fs fs') (r : Loc) : fs'.get (S ++ r) = fs.get (S ++ r) :=
  hg.within _ fun hp => h.not_both (List.prefix_append S r) hp

theorem Clear.grew {fs fs' : FS} (h : Clear fs S P) (ha : Apart S P) (hg : Grew P fs fs') : Clear fs' S P := by
  intro r t hr ht
  rw [source_get ha hg] at hr
  exact h r t hr (hg.links _ t ht)

theorem Clear.child {fs : FS} (h : Clear fs S P) (c : Name) : Clear fs (S ++ [c]) (P ++ [c]) := by
  intro r t hr
  rw [List.append_assoc] at hr ⊢
  exact h (c :: r) t hr

theorem Rows.grew {fs fs' : FS} (h : Rows fs src dst S P) (hg : Grew P fs fs') : Rows fs' src dst S P where
  source := status_dir_of_extends hg.extends_ h.source
  target := status_dir_of_extends hg.extends_ h.target
  clear := h.clear.grew h.apart hg
  apart := h.apart

theorem Rows.route {fs : FS} (h : Rows fs src dst S P) {c : Name} (hc : c ∈ fs.children S) :
    Route fs (src ++ [c]) (dst ++ [c]) (S ++ [c]) (P ++ [c]) where
  source := by
    obtain ⟨nd, hnd⟩ := Option.ne_none_iff_exists'.1 (mem_children.1 hc)
    exact ⟨nd, by rw [symlinkStatus, look_child h.source (isName_of_mem_children hc) (by decide) (.inl rfl), hnd]⟩
  target := ⟨dst, c, P, rfl, h.target, isName_of_mem_children hc, rfl⟩
  clear := h.clear.child c
  apart := apart_append h.apart [c] [c]

/-- The entries `ns` are copied one after another, each to its own place. What a copy
needs of the two places, and what it does if it goes through, may be any relation
between what stands in them. -/
theorem entries_each (needs does : (Loc → Option Node) → (Loc → Option Node) → Prop) {made : Job}
    (hrows : Rows made.fs src dst S P)
    (hneeds : ∀ c, needs (made.fs.below (S ++ [c])) (made.fs.below (P ++ [c])))
    (hcopy : ∀ c k, Route k.fs (src ++ [c]) (dst ++ [c]) (S ++ [c]) (P ++ [c]) →
      needs (k.fs.below (S ++ [c])) (k.fs.below (P ++ [c])) →
        Grew (P ++ [c]) k.fs (copy overwrite depth (src ++ [c]) (dst ++ [c]) k).fs ∧
          ((copy overwrite depth (src ++ [c]) (dst ++ [c]) k).threw = false → does (k.fs.below (S ++ [c]))
            ((copy overwrite depth (src ++ [c]) (dst ++ [c]) k).fs.below (P ++ [c]))))
    (ns : List Name) (hnodup : ns.Nodup) (hmem : ∀ c ∈ ns, c ∈ made.fs.children S) (k : Job)
    (hgrew : Grew P made.fs k.fs) (hsame : ∀ c ∈ ns, k.fs.below (P ++ [c]) = made.fs.below (P ++ [c])) :
    let done := each (fun c => copy overwrite depth (src ++ [c]) (dst ++ [c])) ns k
    Grew P made.fs done.fs ∧ (∀ m, (∀ c ∈ ns, ¬ P ++ [c] <+: m) → done.fs.get m = k.fs.get m) ∧
      (done.threw = false → ∀ c ∈ ns, does (made.fs.below (S ++ [c])) (done.fs.below (P ++ [c]))) := by
  induction ns generalizing k with
  | nil => exact ⟨hgrew, fun _ _ => rfl, by simp⟩
  | cons c ns ih =>
    intro done
    cases hk : k.threw with
    | true =>
      have hdone : done = k := each_of_threw hk
      rw [hdone, hk]
      exact ⟨hgrew, fun _ _ => rfl, fun h => by cases h⟩
    | false =>
    obtain ⟨hc, hrest⟩ := List.nodup_cons.1 hnodup
    have hdone : done = each (fun c => copy overwrite depth (src ++ [c]) (dst ++ [c])) ns
        (copy overwrite depth (src ++ [c]) (dst ++ [c]) k) := if_neg (by simp [hk])
    have hsource (d : Name) : k.fs.below (S ++ [d]) = made.fs.below (S ++ [d]) := by
      funext r
      rw [FS.below, FS.below, List.append_assoc, source_get hrows.apart hgrew]
    have hchild : c ∈ k.fs.children S := by
      rw [mem_children, source_get hrows.apart hgrew]
      exact mem_children.1 (hmem c List.mem_cons_self)
    have hneedsk : needs (k.fs.below (S ++ [c])) (k.fs.below (P ++ [c])) := by
      rw [hsource, hsame c List.mem_cons_self]
      exact hneeds c
    obtain ⟨hstep, hdoes⟩ := hcopy c k ((hrows.grew hgrew).route hchild) hneedsk
    have hlater (d : Name) (hd : d ∈ ns) : (copy overwrite depth (src ++ [c]) (dst ++ [c]) k).fs.below (P ++ [d]) =
        made.fs.below (P ++ [d]) := by
      rw [← hsame d (List.mem_cons_of_mem c hd)]
      funext r
      rw [FS.below, FS.below, List.append_assoc]
      exact hstep.within _ (not_prefix_sibling fun e => hc (e ▸ hd))
    obtain ⟨hall, hframe, hothers⟩ := ih hrest (fun d hd => hmem d (List.mem_cons_of_mem c hd)) _
      (hgrew.trans (hstep.mono (List.prefix_append P [c]))) hlater
    rw [hdone]
    refine ⟨hall, fun m hm => ?_, fun hok d hd => ?_⟩
    · rw [hframe m fun d hd => hm d (List.mem_cons_of_mem c hd)]
      exact hstep.within m (hm c List.mem_cons_self)
    · rcases List.mem_cons.1 hd with rfl | hd
      · -- what comes after leaves the place of the first entry alone
        have hthrew : (copy overwrite depth (src ++ [d]) (dst ++ [d]) k).threw = false := by
          cases ht : (copy overwrite depth (src ++ [d]) (dst ++ [d]) k).threw with
          | false => rfl
          | true => rw [each_of_threw ht, ht] at hok; cases hok
        have hkept : (each (fun c => copy overwrite depth (src ++ [c]) (dst ++ [c])) ns
            (copy overwrite depth (src ++ [d]) (dst ++ [d]) k)).fs.below (P ++ [d]) =
              (copy overwrite depth (src ++ [d]) (dst ++ [d]) k).fs.below (P ++ [d]) := by
          funext r
          rw [FS.below, FS.below, List.append_assoc]
          exact hframe _ fun e he => not_prefix_sibling fun e' => hc (e' ▸ he)
        rw [hkept, ← hsource]
        exact hdoes hthrew
      · exact hothers hok d hd

/-- The directory of the target, there or made, and nothing else changed. -/
theorem Route.ensure {j : Job} (h : Route j.fs src dst S P) (hS : j.fs.get S = some .dir)
    (hok : (j.ensure dst).threw = false) (hfile : ∀ l c, j.fs.symlinkStatus dst ≠ .found l (.file c)) :
    Rows (j.ensure dst).fs src dst S P ∧ ∀ m, m ≠ P → (j.ensure dst).fs.get m = j.fs.get m := by
  have hgrew : Grew P j.fs (j.ensure dst).fs := grew_ensure h.leads
  have hsrc : j.fs.status src = .found S .dir := by
    obtain ⟨nd, hs⟩ := h.source
    obtain rfl : Node.dir = nd := Option.some.inj (hS.symm.trans (look_found.1 hs).2)
    exact status_of_symlinkStatus hs (by simp)
  have hkeep : j.fs.symlinkStatus dst = _ := h.look (by decide)
  have hdst : (j.ensure dst).fs.status dst = .found P .dir := by
    cases hP : j.fs.get P with
    | none =>
      simp only [hP] at hkeep
      obtain ⟨dir, c, l, rfl, hs, hc, rfl⟩ := h.target
      rw [Job.ensure, if_pos hkeep] at hok ⊢
      exact status_mkdir hs hc hkeep hok
    | some nd =>
      have hfound : j.fs.status dst = _ := h.look (by decide)
      simp only [hP] at hkeep hfound
      rw [Job.ensure, if_neg (by simp [hkeep])]
      cases nd with
      | file c => exact absurd hkeep (hfile P c)
      | link t => exact absurd hP (h.not_link t)
      | dir => exact hfound
  refine ⟨⟨status_dir_of_extends hgrew.extends_ hsrc, hdst, h.clear.grew h.apart hgrew, h.apart⟩, fun m hm => ?_⟩
  unfold Job.ensure
  split
  · exact mkdir_get_of_ne h.make hm
  · rfl

end

/-- A copy with room for its files works in its target only. -/
theorem grew_copy_of_room (overwrite : Bool) (depth : Nat) (src dst : List Name) (j : Job) (S P : Loc)
    (h : Route j.fs src dst S P) (hroom : Room overwrite j.fs S P) : Grew P j.fs (copy overwrite depth src dst j).fs := by
  induction depth using Nat.strong_induction_on generalizing src dst j S P with
  | _ depth ih =>
  obtain ⟨nd, hsrc⟩ := h.source
  have hS := (look_found.1 hsrc).2
  have hstep := copyStep overwrite depth src dst j
  generalize copy overwrite depth src dst j = j' at hstep
  cases hstep with
  | failed => exact Grew.refl P _
  | skipped => exact Grew.refl P _
  | into s content found l target =>
    obtain ⟨rfl, rfl⟩ := FS.Lookup.found.inj (found.symm.trans hsrc)
    have hplace := hroom [] content (by rwa [List.append_nil])
    rw [List.append_nil] at hplace
    have hkeep : j.fs.symlinkStatus dst = _ := h.look (by decide)
    rcases hplace with hnone | ⟨-, old, hold⟩
    · simp [hkeep, hnone] at target
    · simp [hkeep, hold] at target
  | file s content => exact grew_copyFile overwrite content s h.leads
  | unmade => exact grew_ensure h.leads
  | dir s found target nofile n deeper made =>
    obtain ⟨rfl, rfl⟩ := FS.Lookup.found.inj (found.symm.trans hsrc)
    obtain ⟨hrows, hsame⟩ := h.ensure hS made nofile
    have hbelow (c : Name) (r : Loc) : (j.ensure dst).fs.get (P ++ c :: r) = j.fs.get (P ++ c :: r) := hsame _ (by simp)
    have hroom' (c : Name) : Room overwrite (j.ensure dst).fs (s ++ [c]) (P ++ [c]) := by
      intro r content hr
      rw [List.append_assoc, hsame _ fun e => h.apart.1 (e ▸ List.prefix_append s _)] at hr
      rw [List.append_assoc, List.singleton_append, hbelow]
      exact hroom (c :: r) content hr
    obtain ⟨hgrew, -, -⟩ := entries_each (fun a b => ∀ r content, a r = some (.file content) →
        b r = none ∨ (overwrite = true ∧ ∃ old, b r = some (.file old))) (fun _ _ => True) hrows hroom'
      (fun c k hroute hroomk => ⟨ih n (by omega) _ _ k _ _ hroute hroomk, fun _ => trivial⟩)
      _ (nodup_children _ _) (fun c hc => hc) _ (Grew.refl P _) (fun _ _ => rfl)
    exact (grew_ensure h.leads).trans hgrew

end Job

namespace FS

/-- Making the last directory of a path changes its place and no other. -/
theorem createDirectories_get_of_ne {fs : FS} {fault : Option Fault} {p : List Name} {n : Name} {l P m : Loc}
    (hs : fs.status p = .found l .dir) (hmake : fs.locate .make (p ++ [n]) = .ok P) (hm : m ≠ P) :
    (fs.createDirectories fault (p ++ [n])).1.get m = fs.get m := by
  rw [createDirectories_concat fun b d hbd => status_dir_prefix (hbd ▸ hs)]
  change (mkdirs p [n] (Job.start fs fault)).fs.get m = fs.get m
  unfold mkdirs
  split
  · rfl
  · have hmkdir : ((Job.start fs fault).mkdir (p ++ [n])).fs.get m = fs.get m := Job.mkdir_get_of_ne hmake hm
    dsimp only
    split <;> exact hmkdir
  · rfl

/-- A last directory that was made was missing, not even a link, and is found now. -/
theorem made_of_createDirectories {fs fs' : FS} {fault : Option Fault} {p : List Name} {n : Name} {l : Loc}
    (hs : fs.status p = .found l .dir) (habs : fs.status (p ++ [n]) = .absent)
    (h : fs.createDirectories fault (p ++ [n]) = (fs', false)) :
    fs.symlinkStatus (p ++ [n]) = .absent ∧ (IsName n → fs'.status (p ++ [n]) = .found (l ++ [n]) .dir) := by
  rw [createDirectories_concat fun b d hbd => status_dir_prefix (hbd ▸ hs)] at h
  obtain ⟨rfl, hok⟩ := Prod.mk.inj h
  replace hok := (Bool.or_eq_false_iff.1 hok).1
  have hstart : (Job.start fs fault).fs.status (p ++ [n]) = .absent := habs
  simp only [mkdirs, hstart, ite_self] at hok ⊢
  obtain ⟨hmissing, -⟩ := missing_of_mkdir hok
  exact ⟨hmissing, fun hn => Job.status_mkdir hs hn hmissing hok⟩

end FS

end Posix
