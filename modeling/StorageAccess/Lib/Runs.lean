import Mathlib.Order.Basic
/-!
# Runs of a state machine

A machine is a function from a state and a label to the next state. `Meets` says
that every step of a run meets a condition on the state it starts in and its
label; an invariant that such steps keep holds at the end of such runs. What the
steps of a run do may be logged, and an invariant may speak of the log so far.
-/

namespace Runs

variable {S L : Type*}

/-- The state after a list of labels. -/
def run (step : S → L → S) (s : S) (ls : List L) : S := ls.foldl step s

/-- Every step of the run meets the condition. -/
def Meets (step : S → L → S) (ok : S → L → Prop) : S → List L → Prop
  | _, [] => True
  | s, l :: ls => ok s l ∧ Meets step ok (step s l) ls

@[simp]
theorem run_nil (step : S → L → S) (s : S) : run step s [] = s := rfl

@[simp]
theorem run_cons (step : S → L → S) (s : S) (l : L) (ls : List L) : run step s (l :: ls) = run step (step s l) ls := rfl

/-- An invariant kept by every step that meets the condition holds after a run whose steps all do. -/
theorem inv_run {step : S → L → S} {ok : S → L → Prop} {Inv : S → Prop}
    (hstep : ∀ s l, Inv s → ok s l → Inv (step s l)) {s : S} {ls : List L} (hs : Inv s)
    (hls : Meets step ok s ls) : Inv (run step s ls) := by
  induction ls generalizing s with
  | nil => exact hs
  | cons l ls ih => exact ih (hstep s l hs hls.1) hls.2

theorem Meets.imp {step : S → L → S} {ok ok' : S → L → Prop} (himp : ∀ s l, ok s l → ok' s l) {s : S} {ls : List L}
    (hls : Meets step ok s ls) : Meets step ok' s ls := by
  induction ls generalizing s with
  | nil => trivial
  | cons l ls ih => exact ⟨himp s l hls.1, ih hls.2⟩

/-- A condition that implies another wherever an invariant holds does so along a run. -/
theorem Meets.imp_inv {step : S → L → S} {ok ok' : S → L → Prop} {Inv : S → Prop}
    (hstep : ∀ s l, Inv s → ok s l → Inv (step s l)) (himp : ∀ s l, Inv s → ok s l → ok' s l) {s : S} {ls : List L}
    (hs : Inv s) (hls : Meets step ok s ls) : Meets step ok' s ls := by
  induction ls generalizing s with
  | nil => trivial
  | cons l ls ih => exact ⟨himp s l hs hls.1, ih (hstep s l hs hls.1) hls.2⟩

/-- What the steps of a run log, in order. -/
def logged {A : Type*} (step : S → L → S) (log : S → L → List A) : S → List L → List A
  | _, [] => []
  | s, l :: ls => log s l ++ logged step log (step s l) ls

/-- An invariant of the state and the log so far, kept by every step that meets the condition. -/
theorem inv_logged {A : Type*} {step : S → L → S} {log : S → L → List A} {ok : S → L → Prop} {Inv : S → List A → Prop}
    (hstep : ∀ s before l, Inv s before → ok s l → Inv (step s l) (before ++ log s l)) {s : S} {before : List A}
    {ls : List L} (hs : Inv s before) (hls : Meets step ok s ls) :
    Inv (run step s ls) (before ++ logged step log s ls) := by
  induction ls generalizing s before with
  | nil => simpa [logged] using hs
  | cons l ls ih =>
    rw [logged, ← List.append_assoc]
    exact ih (hstep s before l hs hls.1) hls.2

/-- Every run meets the trivial condition. -/
theorem meets_true (step : S → L → S) (s : S) (ls : List L) : Meets step (fun _ _ => True) s ls := by
  induction ls generalizing s with
  | nil => trivial
  | cons l ls ih => exact ⟨trivial, ih (step s l)⟩

/-- Conditions that agree wherever an invariant holds agree on a run. The invariant
may speak of the labels that are still to come. -/
theorem meets_congr_inv {step : S → L → S} {ok ok' : S → L → Prop} {I : S → List L → Prop}
    (hstep : ∀ s l ls, I s (l :: ls) → I (step s l) ls) (h : ∀ s l ls, I s (l :: ls) → (ok s l ↔ ok' s l)) {s : S}
    {ls : List L} (hs : I s ls) : Meets step ok s ls ↔ Meets step ok' s ls := by
  induction ls generalizing s with
  | nil => exact Iff.rfl
  | cons l ls ih => exact and_congr (h s l ls hs) (ih (hstep s l ls hs))

/-- Conditions that agree on every state and label agree on every run. -/
theorem meets_congr {step : S → L → S} {ok ok' : S → L → Prop} (h : ∀ s l, ok s l ↔ ok' s l) {s : S} {ls : List L} :
    Meets step ok s ls ↔ Meets step ok' s ls :=
  meets_congr_inv (I := fun _ _ => True) (fun _ _ _ _ => trivial) (fun s l _ _ => h s l) trivial

/-- An invariant of every step holds after every run. -/
theorem inv_run_all {step : S → L → S} {Inv : S → Prop} (hstep : ∀ s l, Inv s → Inv (step s l)) {s : S} (ls : List L)
    (hs : Inv s) : Inv (run step s ls) := by
  induction ls generalizing s with
  | nil => exact hs
  | cons l ls ih => exact ih (hstep s l hs)

/-- Where each step comes to what another machine does with its log, a run comes to what
that machine does with the whole log. -/
theorem run_logged {S' L' : Type*} {step : S → L → S} {log : S → L → List L'} {step' : S' → L' → S'} {shown : S → S'}
    {Inv : S → Prop} (hkeep : ∀ s l, Inv s → Inv (step s l))
    (hstep : ∀ s l, Inv s → run step' (shown s) (log s l) = shown (step s l)) {s : S} (ls : List L) (hs : Inv s) :
    run step' (shown s) (logged step log s ls) = shown (run step s ls) := by
  induction ls generalizing s with
  | nil => rfl
  | cons l ls ih =>
    have hrest := ih (hkeep s l hs)
    rw [← hstep s l hs] at hrest
    rw [logged, run_cons, ← hrest]
    exact List.foldl_append

end Runs
