import Mathlib.Algebra.Ring.Parity
import Mathlib.Data.List.Basic
/-!
# Fields between separators

A list splits at a separator into its fields, of which the empty ones are dropped.
The separators come in runs, and each run but the outer ones lies between two
fields.
-/

namespace Fields

variable {α : Type*} [DecidableEq α] {sep : α}

/-- What is between the separators, where there is something. -/
def fields (sep : α) (s : List α) : List (List α) := (s.splitOn sep).filter (· ≠ [])

/-- The lengths of the runs of separators, where the first one has begun with `k`. -/
def runsFrom (sep : α) : Nat → List α → List Nat
  | k, [] => if k = 0 then [] else [k]
  | k, a :: s => if a = sep then runsFrom sep (k + 1) s else (if k = 0 then [] else [k]) ++ runsFrom sep 0 s

def runs (sep : α) (s : List α) : List Nat := runsFrom sep 0 s

/-- Every run has an odd length. -/
def OddRuns (sep : α) (k : Nat) (s : List α) : Prop := ∀ m ∈ runsFrom sep k s, Odd m

instance (k : Nat) (s : List α) : Decidable (OddRuns sep k s) := List.decidableBAll ..

/-! ## A field and what follows it -/

section Word
variable {w : List α}

theorem fields_cons_sep (s : List α) : fields sep (sep :: s) = fields sep s := by
  have hsplit : (sep :: s).splitOn sep = [] :: s.splitOn sep := List.splitOn_append_cons_self [] s
  simp [fields, hsplit]

theorem fields_word (hw : sep ∉ w) (hne : w ≠ []) : fields sep w = [w] := by
  simp [fields, List.splitOn_eq_singleton hw, hne]

theorem fields_word_append (hw : sep ∉ w) (hne : w ≠ []) (s : List α) : fields sep (w ++ sep :: s) = w :: fields sep s := by
  simp [fields, List.splitOn_append_cons_self, List.splitOn_eq_singleton hw, hne]

theorem runsFrom_zero_word (hw : sep ∉ w) : runsFrom sep 0 w = [] := by
  induction w with
  | nil => rfl
  | cons a w ih =>
    obtain ⟨ha, hw⟩ := not_or.1 (List.mem_cons.not.1 hw)
    simp [runsFrom, Ne.symm ha, ih hw]

theorem runsFrom_zero_append (hw : sep ∉ w) (s : List α) : runsFrom sep 0 (w ++ sep :: s) = runsFrom sep 1 s := by
  induction w with
  | nil => simp [runsFrom]
  | cons a w ih =>
    obtain ⟨ha, hw⟩ := not_or.1 (List.mem_cons.not.1 hw)
    simp [runsFrom, Ne.symm ha, ih hw]

/-- A run of one ends at a field. -/
theorem oddRuns_word (hw : sep ∉ w) (hne : w ≠ []) : OddRuns sep 1 w := by
  obtain ⟨a, w, rfl⟩ := List.exists_cons_of_ne_nil hne
  obtain ⟨ha, hw⟩ := not_or.1 (List.mem_cons.not.1 hw)
  simp [OddRuns, runsFrom, Ne.symm ha, runsFrom_zero_word hw]

theorem oddRuns_word_append (hw : sep ∉ w) (hne : w ≠ []) (s : List α) :
    OddRuns sep 1 (w ++ sep :: s) ↔ OddRuns sep 1 s := by
  obtain ⟨a, w, rfl⟩ := List.exists_cons_of_ne_nil hne
  obtain ⟨ha, hw⟩ := not_or.1 (List.mem_cons.not.1 hw)
  simp [OddRuns, runsFrom, Ne.symm ha, runsFrom_zero_append hw]

end Word

/-- Two more separators do not change whether a run is odd. -/
theorem oddRuns_add_two {k : Nat} (hk : k ≠ 0) (s : List α) : OddRuns sep (k + 2) s ↔ OddRuns sep k s := by
  have hodd (k : Nat) : Odd (k + 2) ↔ Odd k := by simp [Nat.odd_add]
  induction s generalizing k with
  | nil => simp [OddRuns, runsFrom, hk, hodd]
  | cons a s ih =>
    by_cases ha : a = sep
    · simpa [OddRuns, runsFrom, ha, Nat.add_right_comm] using ih (Nat.succ_ne_zero k)
    · simp [OddRuns, runsFrom, ha, hk, hodd]

theorem not_oddRuns_two {a : α} (ha : a ≠ sep) (s : List α) : ¬ OddRuns sep 2 (a :: s) := by
  have heven : ¬ Odd 2 := by decide
  simp [OddRuns, runsFrom, ha, heven]

/-- A list begins with a separator, is a field, or is a field and goes on. -/
theorem cases_word (sep : α) (s : List α) (hs : s ≠ []) :
    (∃ r, s = sep :: r) ∨ (sep ∉ s) ∨ ∃ w r, w ≠ [] ∧ sep ∉ w ∧ s = w ++ sep :: r := by
  by_cases hm : sep ∈ s
  · obtain ⟨w, r, rfl, hw⟩ := List.eq_append_cons_of_mem hm
    by_cases hne : w = []
    · exact .inl ⟨r, by rw [hne]; rfl⟩
    · exact .inr (.inr ⟨w, r, hne, hw, rfl⟩)
  · exact .inr (.inl hm)

/-- The fields have all the elements but the separators. -/
theorem flatten_fields (s : List α) : (fields sep s).flatten = s.filter (· ≠ sep) := by
  induction h : s.length using Nat.strong_induction_on generalizing s with
  | _ n ih =>
    have hplain {w : List α} (hw : sep ∉ w) : w.filter (· ≠ sep) = w :=
      List.filter_eq_self.2 fun a ha => by simpa using ne_of_mem_of_not_mem ha hw
    by_cases hs : s = []
    · subst hs
      rfl
    rcases cases_word sep s hs with ⟨r, rfl⟩ | hw | ⟨w, r, hne, hw, rfl⟩
    · rw [fields_cons_sep, ih r.length (by simp [← h]) r rfl]
      simp
    · rw [fields_word hw hs, hplain hw]
      simp
    · rw [fields_word_append hw hne, List.flatten_cons, ih r.length (by simp [← h]; omega) r rfl, List.filter_append, hplain hw]
      simp

end Fields
