import StorageAccess.Lib.Delivery
/-!
# Copies to a place where nothing stands

A copy that goes through to a place where nothing stands leaves there what stands
at and below its source, but for the links, which it skips.
-/

namespace Posix

open FS

/-- What a copy makes of an entry. -/
def Node.copied : Node → Option Node
  | .link _ => none
  | nd => some nd

/-- What stands at and below `P` is what stood at and below `S`, without the links. -/
def FS.Mirrors (fs fs' : FS) (S P : Loc) : Prop := ∀ r, fs'.get (P ++ r) = (fs.get (S ++ r)).bind Node.copied

namespace Job

/-- Nothing stands at the target, or a directory for one with nothing in it. -/
def Vacant (fs : FS) (S P : Loc) : Prop :=
  ∀ r, fs.get (P ++ r) ≠ none → r = [] ∧ fs.get P = some .dir ∧ fs.get S = some .dir

theorem Vacant.room {fs : FS} {S P : Loc} (h : Vacant fs S P) (overwrite : Bool) : Room overwrite fs S P := by
  intro r content hr
  by_contra hroom
  obtain ⟨rfl, -, hS⟩ := h r fun hnone => hroom (.inl hnone)
  rw [List.append_nil, hS] at hr
  cases hr

/-- A copy that goes through to a vacant place mirrors its source. -/
theorem mirrors_copy (overwrite : Bool) (depth : Nat) (src dst : List Name) (j : Job) (S P : Loc)
    (h : Route j.fs src dst S P) (hvacant : Vacant j.fs S P) :
    Grew P j.fs (copy overwrite depth src dst j).fs ∧
      ((copy overwrite depth src dst j).threw = false → j.fs.Mirrors (copy overwrite depth src dst j).fs S P) := by
  refine ⟨grew_copy_of_room overwrite depth src dst j S P h (hvacant.room overwrite), ?_⟩
  induction depth using Nat.strong_induction_on generalizing src dst j S P with
  | _ depth ih =>
  obtain ⟨nd, hsrc⟩ := h.source
  have hS := (look_found.1 hsrc).2
  have hnone (hnd : nd ≠ .dir) (r : Loc) : j.fs.get (P ++ r) = none := by
    by_contra hr
    obtain ⟨-, -, hdir⟩ := hvacant r hr
    exact hnd (Option.some.inj (hS.symm.trans hdir))
  have hstep := copyStep overwrite depth src dst j
  generalize copy overwrite depth src dst j = j' at hstep
  intro hok
  cases hstep with
  | failed => cases hok
  | skipped s t found =>
    obtain ⟨rfl, rfl⟩ := FS.Lookup.found.inj (found.symm.trans hsrc)
    intro r
    rw [hnone (by simp)]
    by_cases hr : r = []
    · rw [hr, List.append_nil, hS]
      rfl
    · rw [get_below_leaf hS (by simp) hr]
      rfl
  | into s content found l target =>
    obtain ⟨rfl, rfl⟩ := FS.Lookup.found.inj (found.symm.trans hsrc)
    have hkeep : j.fs.symlinkStatus dst = _ := h.look (by decide)
    have hfree := hnone (by simp) []
    rw [List.append_nil] at hfree
    simp [hkeep, hfree] at target
  | file s content found =>
    obtain ⟨rfl, rfl⟩ := FS.Lookup.found.inj (found.symm.trans hsrc)
    have hfree := hnone (by simp) []
    rw [List.append_nil] at hfree
    have hthere := copyFile_arrives h.make (.inr hfree) hok
    intro r
    by_cases hr : r = []
    · rw [hr, List.append_nil, List.append_nil, hthere, hS]
      rfl
    · rw [get_below_leaf hthere (by simp) hr, get_below_leaf hS (by simp) hr]
      rfl
  | unmade s found threw =>
    rw [hok] at threw
    cases threw
  | dir s found target nofile n deeper made =>
    obtain ⟨rfl, rfl⟩ := FS.Lookup.found.inj (found.symm.trans hsrc)
    obtain ⟨hrows, hsame⟩ := h.ensure hS made nofile
    have hsource : ∀ r, (j.ensure dst).fs.get (s ++ r) = j.fs.get (s ++ r) := fun r =>
      hsame _ fun e => h.apart.1 (e ▸ List.prefix_append s r)
    have hbelow (c : Name) (r : Loc) : (j.ensure dst).fs.get (P ++ c :: r) = none := by
      rw [hsame _ (by simp)]
      by_contra hr
      exact absurd (hvacant _ hr).1 (List.cons_ne_nil c r)
    obtain ⟨hgrew, hframe, hall⟩ := entries_each (fun _ b => ∀ r, b r = none) (fun a b => ∀ r, b r = (a r).bind Node.copied)
      hrows (fun c r => by rw [FS.below, List.append_assoc]; exact hbelow c r)
      (fun c k hroute hfree => by
        have hvacantk : Vacant k.fs (s ++ [c]) (P ++ [c]) := fun r hr => absurd (hfree r) hr
        exact ⟨grew_copy_of_room overwrite n _ _ k _ _ hroute (hvacantk.room overwrite),
          ih n (by omega) _ _ k _ _ hroute hvacantk⟩)
      _ (nodup_children _ _) (fun c hc => hc) _ (Grew.refl P _) (fun _ _ => rfl)
    intro r
    cases r with
    | nil =>
      rw [List.append_nil, List.append_nil, hS, hgrew.extends_.dir (look_found.1 hrows.target).2]
      rfl
    | cons c r =>
      by_cases hchild : c ∈ (j.ensure dst).fs.children s
      · have hmirrors := hall hok c hchild r
        rw [FS.below, FS.below, List.append_assoc, List.append_assoc] at hmirrors
        rw [← hsource]
        exact hmirrors
      · rw [mem_children, hsource, not_not] at hchild
        have hgone : j.fs.get (s ++ c :: r) = none := by
          rw [List.append_cons]
          exact get_eq_none_below hchild (List.prefix_append _ r)
        rw [hgone, hframe _ fun d hd => not_prefix_sibling fun e => ?_, hbelow]
        · rfl
        · rw [mem_children, hsource, e] at hd
          exact hd hchild

end Job

namespace FS

theorem mirrors_copyTree {fs : FS} {fault : Option Fault} {depth : Nat} {overwrite : Bool} {src dst : List Name}
    {S P : Loc} (h : Job.Route fs src dst S P) (hvacant : Job.Vacant fs S P)
    (hok : (fs.copy fault depth overwrite src dst).2 = false) :
    fs.Mirrors (fs.copy fault depth overwrite src dst).1 S P :=
  (Job.mirrors_copy overwrite depth src dst (Job.start fs fault) S P h hvacant).2 (Bool.or_eq_false_iff.1 hok).1

end FS

end Posix
