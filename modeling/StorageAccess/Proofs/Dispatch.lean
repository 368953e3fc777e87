import StorageAccess.Model.Dispatch
/-!
# The order in which requests are handled

The thread takes requests from the front of the queue that the clients append
to, and while a task runs the thread is held up by its future. So requests are
handled in the order in which they came, each once, and one after another.
-/

namespace StorageAccess

/-! ## What is seen -/

/-- The request whose handling begins. -/
def Event.begun {R : Type} : Event R → Option R
  | .begins request => some request
  | .ends _ => none

namespace Dispatcher

variable {R : Type} {data : R → RequestData} {provider : StorageType}

/-- The requests handed to `handleRequests`. -/
def handed (s : Dispatcher R) : List R := s.trace.filterMap Event.begun

/-- The request an action pushes. -/
def Action.pushed : Action R → Option R
  | .addRequest request => some request
  | _ => none

/-- One request after another, the last one perhaps not yet to its end. -/
def Serial (trace : List (Event R)) : Prop :=
  ∃ (done : List R) (current : Option R),
    trace = (done.flatMap fun request => [.begins request, .ends request]) ++ current.toList.map .begins

/-! ## Steps -/

/-- A step appends what it pushes to what was handed over or is still queued. -/
theorem handed_append_mQueue_step (s : Dispatcher R) (a : Action R) :
    (step data provider s a).handed ++ (step data provider s a).mQueue = s.handed ++ s.mQueue ++ a.pushed.toList := by
  unfold handed
  cases a with
  | addRequest request => dsimp only [step]; split <;> exact (List.append_assoc ..).symm
  | quit => exact (List.append_nil _).symm
  | notify | stir | lock | sleep => dsimp only [step]; split <;> exact (List.append_nil _).symm
  | wake =>
    dsimp only [step]
    split
    case h_1 request rest _ hqueue =>
      split
      · exact (List.append_nil _).symm
      · simp [hqueue, Event.begun, Action.pushed]
    · exact (List.append_nil _).symm
    · exact (List.append_nil _).symm
  | handle =>
    dsimp only [step]
    split
    · split
      · exact (List.append_nil _).symm
      · simp [Event.begun, Action.pushed]
    · exact (List.append_nil _).symm
  | complete =>
    dsimp only [step]
    split
    · simp [Event.begun, Action.pushed]
    · exact (List.append_nil _).symm
  | join => dsimp only [step]; split <;> exact (List.append_nil _).symm
  | relock => dsimp only [step]; split <;> exact (List.append_nil _).symm

/-- The request that is being handled. -/
def current (s : Dispatcher R) : Option R :=
  match s.phase with
  | .handing request => some request
  | .joining _ => s.task
  | _ => none

/-- A task runs only while the thread waits for it, and the trace is one request
after another, up to the current one. -/
structure Sequential (s : Dispatcher R) : Prop where
  task : ∀ request, s.task = some request → s.phase = .joining request
  trace : ∃ done : List R, s.trace = (done.flatMap fun request => [.begins request, .ends request]) ++
    s.current.toList.map .begins

theorem Sequential.start : Sequential (start : Dispatcher R) := ⟨nofun, [], rfl⟩

/-- Where the thread waits for no task, none runs. -/
theorem Sequential.task_eq_none {s : Dispatcher R} (hs : Sequential s) (h : ∀ request, s.phase ≠ .joining request) :
    s.task = none := by
  cases ht : s.task with
  | none => rfl
  | some request => exact absurd (hs.task request ht) (h request)

/-- The end of the current request closes the trace. -/
theorem Sequential.ends {s : Dispatcher R} (hs : Sequential s) {request : R} (h : s.current = some request) :
    ∃ done : List R, s.trace ++ [.ends request] = done.flatMap fun request => [.begins request, .ends request] := by
  obtain ⟨done, htrace⟩ := hs.trace
  refine ⟨done ++ [request], ?_⟩
  rw [htrace, h, List.flatMap_append]
  simp

theorem Sequential.step (data : R → RequestData) (provider : StorageType) (s : Dispatcher R) (a : Action R)
    (hs : Sequential s) : Sequential (step data provider s a) := by
  obtain ⟨done, htrace⟩ := hs.trace
  cases a with
  | addRequest request =>
    dsimp only [Dispatcher.step]
    split
    case h_1 hphase | h_2 hphase =>
      have hnone := hs.task_eq_none (by simp [hphase])
      exact ⟨by simp [hnone], done, by simpa [current, hphase] using htrace⟩
    case h_3 => exact ⟨hs.task, hs.trace⟩
  | quit => exact ⟨hs.task, hs.trace⟩
  | notify | stir | lock | sleep =>
    -- the steps that only change the phase keep the trace as it is
    dsimp only [Dispatcher.step]
    split
    case h_1 hphase =>
      have hnone := hs.task_eq_none (by simp [hphase])
      exact ⟨by simp [hnone], done, by simpa [current, hphase] using htrace⟩
    case h_2 => exact hs
  | wake =>
    dsimp only [Dispatcher.step]
    split
    case h_1 request rest hphase hqueue =>
      have hnone := hs.task_eq_none (by simp [hphase])
      have hclosed : s.trace = done.flatMap fun request => [.begins request, .ends request] := by
        simpa [current, hphase] using htrace
      split
      · exact ⟨by simp [hnone], done, by simpa [current] using hclosed⟩
      · exact ⟨by simp [hnone], done, by simp [current, hclosed]⟩
    case h_2 hphase hqueue =>
      have hnone := hs.task_eq_none (by simp [hphase])
      refine ⟨by simp [hnone], done, ?_⟩
      cases hquit : s.mQuit <;> simpa [current, hphase, hquit] using htrace
    case h_3 => exact hs
  | handle =>
    dsimp only [Dispatcher.step]
    split
    case h_1 request hphase =>
      have hnone := hs.task_eq_none (by simp [hphase])
      have hcurrent : s.current = some request := by simp [current, hphase]
      split
      · exact ⟨by simp, done, by simpa [current, hphase] using htrace⟩
      · obtain ⟨done', hdone⟩ := hs.ends hcurrent
        exact ⟨by simp [hnone], done', by simpa [current] using hdone⟩
    case h_2 => exact hs
  | complete =>
    -- a task that completes ends the request that is open
    dsimp only [Dispatcher.step]
    split
    case h_1 request htask =>
      have hphase := hs.task request htask
      have hcurrent : s.current = some request := by simp [current, hphase, htask]
      obtain ⟨done', hdone⟩ := hs.ends hcurrent
      exact ⟨nofun, done', by simpa [current, hphase] using hdone⟩
    case h_2 => exact hs
  | join =>
    dsimp only [Dispatcher.step]
    split
    case h_1 request hphase htask => exact ⟨by simp [htask], done, by simpa [current, hphase, htask] using htrace⟩
    case h_2 => exact hs
  | relock =>
    dsimp only [Dispatcher.step]
    split
    case h_1 hphase =>
      have hnone := hs.task_eq_none (by simp [hphase])
      refine ⟨by simp [hnone], done, ?_⟩
      cases hquit : s.mQuit <;> simpa [current, hphase, hquit] using htrace
    case h_2 => exact hs

/-! ## Runs -/

/-- The requests of the `addRequest` calls, in their order. -/
def pushed (actions : List (Action R)) : List R := actions.filterMap Action.pushed

theorem handed_append_mQueue_run (actions : List (Action R)) (s : Dispatcher R) :
    (Runs.run (step data provider) s actions).handed ++ (Runs.run (step data provider) s actions).mQueue =
      s.handed ++ s.mQueue ++ pushed actions := by
  induction actions generalizing s with
  | nil => exact (List.append_nil _).symm
  | cons a actions ih =>
    rw [Runs.run_cons, ih, handed_append_mQueue_step, List.append_assoc]
    cases a <;> rfl

/-- In every interleaving the requests handed over are the first of those pushed,
the rest are queued, none is handed over twice, and each is handled to its end
before the next begins. -/
theorem requests_in_order (data : R → RequestData) (provider : StorageType) (actions : List (Action R)) :
    let s := Runs.run (step data provider) start actions
    s.handed <+: pushed actions ∧ s.handed ++ s.mQueue = pushed actions ∧
      ((pushed actions).Nodup → s.handed.Nodup) ∧ Serial s.trace := by
  intro s
  have hall : s.handed ++ s.mQueue = pushed actions := handed_append_mQueue_run actions start
  have hfirst : s.handed <+: pushed actions := ⟨s.mQueue, hall⟩
  obtain ⟨done, htrace⟩ := (Runs.inv_run_all (Sequential.step data provider) actions .start).trace
  exact ⟨hfirst, hall, fun hn => hn.sublist hfirst.sublist, done, _, htrace⟩

end Dispatcher

end StorageAccess
