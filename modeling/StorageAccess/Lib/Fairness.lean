import StorageAccess.Lib.Runs
/-!
# Fair runs

A scheduler is fair when it takes a step of every kind again and again. `Round`
is a stretch of labels with a step of every kind in it. Where a rank never rises,
and a step of the kind that is due lowers it, a round lowers it too: so many
rounds as the rank bring it to zero, whatever else happens in them.
-/

namespace Runs

variable {S L K : Type*} {step : S → L → S} {ok : S → L → Prop}

theorem run_append (step : S → L → S) (s : S) (ls ls' : List L) :
    run step s (ls ++ ls') = run step (run step s ls) ls' := List.foldl_append

theorem meets_append {s : S} {ls ls' : List L} :
    Meets step ok s (ls ++ ls') ↔ Meets step ok s ls ∧ Meets step ok (run step s ls) ls' := by
  induction ls generalizing s with
  | nil => simp [Meets]
  | cons l ls ih => rw [List.cons_append, Meets, Meets, ih, run_cons, and_assoc]

/-- A step of every kind is taken. -/
def Round (kind : L → Option K) (ls : List L) : Prop := ∀ k, ∃ l ∈ ls, kind l = some k

/-- As long as the rank is positive some kind of step is due. No step raises the
rank, one that is due lowers it, and while it stays the same the same kind is due. -/
structure Ranked (step : S → L → S) (ok : S → L → Prop) (Inv : S → Prop) (kind : L → Option K) (rank : S → Nat)
    (due : S → K) : Prop where
  keeps : ∀ s l, Inv s → ok s l → Inv (step s l)
  reached : ∀ s l, Inv s → ok s l → rank s = 0 → rank (step s l) = 0
  waits : ∀ s l, Inv s → ok s l → 0 < rank s →
    rank (step s l) < rank s ∨ rank (step s l) = rank s ∧ due (step s l) = due s ∧ kind l ≠ some (due s)

namespace Ranked

variable {Inv : S → Prop} {kind : L → Option K} {rank : S → Nat} {due : S → K}

theorem step_le (h : Ranked step ok Inv kind rank due) {s : S} {l : L} (hs : Inv s) (hl : ok s l) :
    rank (step s l) ≤ rank s := by
  rcases Nat.eq_zero_or_pos (rank s) with hzero | hpos
  · rw [h.reached s l hs hl hzero]
    exact Nat.zero_le _
  · rcases h.waits s l hs hl hpos with hlt | ⟨heq, -, -⟩
    · exact Nat.le_of_lt hlt
    · exact Nat.le_of_eq heq

theorem run_le (h : Ranked step ok Inv kind rank due) {s : S} {ls : List L} (hs : Inv s) (hls : Meets step ok s ls) :
    rank (run step s ls) ≤ rank s := by
  induction ls generalizing s with
  | nil => exact Nat.le_refl _
  | cons l ls ih => exact Nat.le_trans (ih (h.keeps s l hs hls.1) hls.2) (h.step_le hs hls.1)

/-- The rank falls where the kind that is due occurs. -/
theorem run_lt (h : Ranked step ok Inv kind rank due) {s : S} {ls : List L} (hs : Inv s) (hls : Meets step ok s ls)
    (hpos : 0 < rank s) (hdue : ∃ l ∈ ls, kind l = some (due s)) : rank (run step s ls) < rank s := by
  induction ls generalizing s with
  | nil =>
    obtain ⟨l, hl, -⟩ := hdue
    cases hl
  | cons l ls ih =>
    have hnext := h.keeps s l hs hls.1
    rw [run_cons]
    rcases h.waits s l hs hls.1 hpos with hlt | ⟨hrank, hsame, hother⟩
    · exact Nat.lt_of_le_of_lt (h.run_le hnext hls.2) hlt
    · -- the step that is due comes later
      obtain ⟨l', hl', hkind⟩ := hdue
      rcases List.mem_cons.1 hl' with rfl | hl'
      · exact absurd hkind hother
      · have hlt := ih hnext hls.2 (by omega) ⟨l', hl', by rw [hsame, hkind]⟩
        omega

/-- Every round lowers the rank until it is zero. -/
theorem rounds (h : Ranked step ok Inv kind rank due) {s : S} {rounds : List (List L)} (hs : Inv s)
    (hround : ∀ ls ∈ rounds, Round kind ls) (hls : Meets step ok s rounds.flatten) :
    rank (run step s rounds.flatten) ≤ rank s - rounds.length := by
  induction rounds generalizing s with
  | nil => exact Nat.le_refl _
  | cons ls rounds ih =>
    rw [List.flatten_cons] at hls ⊢
    obtain ⟨hfirst, hrest⟩ := meets_append.1 hls
    have hfall : rank (run step s ls) ≤ rank s - 1 := by
      rcases Nat.eq_zero_or_pos (rank s) with hzero | hpos
      · have hle := h.run_le hs hfirst
        omega
      · have hlt := h.run_lt hs hfirst hpos (hround ls List.mem_cons_self (due s))
        omega
    have hrec := ih (inv_run h.keeps hs hfirst) (fun ls' hls' => hround ls' (List.mem_cons_of_mem ls hls')) hrest
    rw [run_append, List.length_cons]
    omega

end Ranked

end Runs
