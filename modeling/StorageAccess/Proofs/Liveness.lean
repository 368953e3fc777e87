import StorageAccess.Lib.Fairness
import StorageAccess.Proofs.Dispatch
/-!
# Every request is handled

The thread of a provider works through its queue under any scheduler that lets
the clients, the thread and the task each take their turn. A request waits for
the ones before it and for no later one, and no thread sleeps while there is one.
Once the provider quits, the thread ends after the request it has begun, and what
is still queued is dropped; but the destructor's notification can come too early,
and then the thread sleeps on.
-/

namespace StorageAccess

/-- The request whose handling ends. -/
def Event.done {R : Type} : Event R → Option R
  | .begins _ => none
  | .ends request => some request

namespace Dispatcher

variable {R : Type} {data : R → RequestData} {provider : StorageType}

/-- Whose step an action is: the clients' have no turn. -/
def Action.turn : Action R → Option Turn
  | .addRequest _ | .quit | .notify | .stir => none
  | .lock => some .lock
  | .wake => some .wake
  | .sleep => some .sleep
  | .handle => some .handle
  | .complete => some .complete
  | .join => some .join
  | .relock => some .relock

/-- The step without which nothing moves. -/
def due (s : Dispatcher R) : Turn :=
  match s.phase with
  | .starting => .lock
  | .waiting | .ended => .wake
  | .dozing | .sleeping => .sleep
  | .handing _ => .handle
  | .joining _ => if s.task.isSome then .complete else .join
  | .returned => .relock

/-- The thread sleeps or is about to. -/
def Asleep (s : Dispatcher R) : Prop := s.phase = .dozing ∨ s.phase = .sleeping

/-- At least `k` requests were handed over and the provider goes on; its thread sleeps only
while the queue is empty. -/
structure Open (k : Nat) (s : Dispatcher R) : Prop where
  sequential : Sequential s
  goesOn : s.mQuit = false ∧ s.phase ≠ .ended
  enough : k ≤ s.handed.length + s.mQueue.length
  rests : s.Asleep → s.mQueue = []

/-! ## One step -/

theorem handed_end (s : Dispatcher R) (request : R) :
    (s.trace ++ [Event.ends request]).filterMap Event.begun = s.handed := by
  rw [List.filterMap_append]
  exact List.append_nil _

/-- Nothing is due: the thread is past its loop or asleep. -/
def Idle (s : Dispatcher R) : Prop := s.phase = .ended ∨ s.phase = .sleeping

/-- What a step can do. A step that does nothing is not the one that is due. -/
inductive Moves (s : Dispatcher R) : Action R → Dispatcher R → Prop
  | pushes (request : R) (awake : ¬ s.Asleep) : Moves s (.addRequest request) { s with mQueue := s.mQueue ++ [request] }
  | rouses (request : R) (asleep : s.Asleep) :
      Moves s (.addRequest request) { s with mQueue := s.mQueue ++ [request], phase := .waiting }
  | quits : Moves s .quit { s with mQuit := true }
  | wakes (a : Action R) (kind : a = .notify ∨ a = .stir) (phase : s.phase = .sleeping) :
      Moves s a { s with phase := .waiting }
  | rests (a : Action R) (other : a.turn ≠ some s.due ∨ s.Idle) : Moves s a s
  | locks (phase : s.phase = .starting) : Moves s .lock { s with phase := .waiting }
  | takes (request : R) (rest : List R) (phase : s.phase = .waiting) (queue : s.mQueue = request :: rest)
      (goesOn : s.mQuit = false) :
      Moves s .wake { s with mQueue := rest, phase := .handing request, trace := s.trace ++ [.begins request] }
  | leaves (phase : s.phase = .waiting) (quit : s.mQuit = true) : Moves s .wake { s with phase := .ended }
  | dozes (phase : s.phase = .waiting) (queue : s.mQueue = []) (goesOn : s.mQuit = false) :
      Moves s .wake { s with phase := .dozing }
  | sleeps (phase : s.phase = .dozing) : Moves s .sleep { s with phase := .sleeping }
  | starts (request : R) (phase : s.phase = .handing request) :
      Moves s .handle { s with phase := .joining request, task := some request }
  | skips (request : R) (phase : s.phase = .handing request) :
      Moves s .handle { s with phase := .returned, trace := s.trace ++ [.ends request] }
  | completes (request : R) (task : s.task = some request) :
      Moves s .complete { s with task := none, trace := s.trace ++ [.ends request] }
  | joins (request : R) (phase : s.phase = .joining request) (task : s.task = none) :
      Moves s .join { s with phase := .returned }
  | relocks (phase : s.phase = .returned) :
      Moves s .relock { s with phase := if s.mQuit then .ended else .waiting }

/-- Where the thread is when a step is due. -/
def DueAt (s : Dispatcher R) : Turn → Prop
  | .lock => s.phase = .starting
  | .wake => s.phase = .waiting ∨ s.phase = .ended
  | .sleep => s.phase = .dozing ∨ s.phase = .sleeping
  | .handle => ∃ request, s.phase = .handing request
  | .complete => s.task ≠ none
  | .join => ∃ request, s.phase = .joining request ∧ s.task = none
  | .relock => s.phase = .returned

theorem dueAt (s : Dispatcher R) : s.DueAt s.due := by
  unfold due
  cases hphase : s.phase with
  | starting => exact hphase
  | waiting | dozing => exact .inl hphase
  | ended | sleeping => exact .inr hphase
  | handing request => exact ⟨request, hphase⟩
  | returned => exact hphase
  | joining request =>
    cases htask : s.task with
    | none => exact ⟨request, hphase, htask⟩
    | some running => simp [DueAt, htask]

/-- A step that does nothing where it would be due finds nothing to do. -/
theorem Moves.of_not_due {s : Dispatcher R} {a : Action R} {t : Turn} (ha : a.turn = some t) (h : s.DueAt t → s.Idle) :
    Moves s a s := by
  refine .rests a ?_
  by_cases hdue : a.turn = some s.due
  · rw [ha] at hdue
    cases hdue
    exact .inr (h s.dueAt)
  · exact .inl hdue

theorem moves_step (data : R → RequestData) (provider : StorageType) (s : Dispatcher R) (a : Action R) :
    Moves s a (step data provider s a) := by
  cases a with
  | addRequest request =>
    dsimp only [step]
    split
    case h_1 hphase => exact .rouses request (.inl hphase)
    case h_2 hphase => exact .rouses request (.inr hphase)
    case h_3 hdozing hsleeping => exact .pushes request fun hasleep => hasleep.elim hdozing hsleeping
  | quit => exact .quits
  | notify | stir =>
    dsimp only [step]
    split
    case h_1 hphase => exact .wakes _ (by simp) hphase
    case h_2 => exact .rests _ (.inl nofun)
  | lock =>
    dsimp only [step]
    split
    case h_1 hphase => exact .locks hphase
    case h_2 hphase => exact .of_not_due rfl fun hdue => absurd hdue hphase
  | wake =>
    dsimp only [step]
    split
    case h_1 request rest hphase hqueue =>
      split
      case isTrue hquit => exact .leaves hphase hquit
      case isFalse hquit => exact .takes request rest hphase hqueue (Bool.eq_false_iff.2 hquit)
    case h_2 hphase hqueue =>
      split
      case isTrue hquit => exact .leaves hphase hquit
      case isFalse hquit => exact .dozes hphase hqueue (Bool.eq_false_iff.2 hquit)
    case h_3 hmore hnone =>
      -- the thread is not at the condition variable
      refine .of_not_due rfl fun hdue => hdue.elim (fun hwait => ?_) .inl
      cases hqueue : s.mQueue with
      | nil => exact absurd hqueue (hnone hwait)
      | cons request rest => exact absurd hqueue (hmore request rest hwait)
  | sleep =>
    dsimp only [step]
    split
    case h_1 hphase => exact .sleeps hphase
    case h_2 hphase => exact .of_not_due rfl fun hdue => .inr (hdue.resolve_left hphase)
  | handle =>
    dsimp only [step]
    split
    case h_1 request hphase =>
      split
      · exact .starts request hphase
      · exact .skips request hphase
    case h_2 hphase =>
      refine .of_not_due rfl ?_
      rintro ⟨request, hdue⟩
      exact absurd hdue (hphase request)
  | complete =>
    dsimp only [step]
    split
    case h_1 request htask => exact .completes request htask
    case h_2 htask => exact .of_not_due rfl fun hdue => absurd htask hdue
  | join =>
    dsimp only [step]
    split
    case h_1 request hphase htask => exact .joins request hphase htask
    case h_2 hnot =>
      refine .of_not_due rfl ?_
      rintro ⟨request, hphase, htask⟩
      exact absurd htask (hnot request hphase)
  | relock =>
    dsimp only [step]
    split
    case h_1 hphase => exact .relocks hphase
    case h_2 hphase => exact .of_not_due rfl fun hdue => absurd hdue hphase

/-! ## No request waits for ever -/

theorem Open.step (data : R → RequestData) (provider : StorageType) {k : Nat} {s : Dispatcher R} {a : Action R}
    (hs : Open k s) (ha : a ≠ .quit) : Open k (step data provider s a) := by
  have hall := congrArg List.length (@handed_append_mQueue_step R data provider s a)
  simp only [List.length_append] at hall
  have henough := hs.enough
  have hmoves := moves_step data provider s a
  have hsequential := Sequential.step data provider s a hs.sequential
  generalize Dispatcher.step data provider s a = s' at hmoves hsequential hall
  have hready (hgoes : s'.mQuit = false ∧ s'.phase ≠ .ended) (hrests : s'.Asleep → s'.mQueue = []) : Open k s' :=
    ⟨hsequential, hgoes, by omega, hrests⟩
  cases hmoves with
  | quits => exact absurd rfl ha
  | leaves _ quit => exact absurd (hs.goesOn.1.symm.trans quit) (by decide)
  | relocks => exact hready ⟨hs.goesOn.1, by simp [hs.goesOn.1]⟩ (by simp [Asleep, hs.goesOn.1])
  | pushes _ awake => exact hready hs.goesOn fun hasleep => absurd hasleep awake
  | rests | completes => exact hready hs.goesOn hs.rests
  | dozes _ queue => exact hready ⟨hs.goesOn.1, nofun⟩ fun _ => queue
  | sleeps phase => exact hready ⟨hs.goesOn.1, nofun⟩ fun _ => hs.rests (.inl phase)
  | rouses | wakes | locks | takes | starts | skips | joins => exact hready ⟨hs.goesOn.1, nofun⟩ (by simp [Asleep])

theorem Open.start : Open 0 (start : Dispatcher R) := ⟨.start, ⟨rfl, nofun⟩, Nat.zero_le _, by simp [Asleep, Dispatcher.start]⟩

/-- The provider quits, with these requests begun. -/
structure Quitting (begun : List R) (s : Dispatcher R) : Prop where
  sequential : Sequential s
  quit : s.mQuit = true
  begun : s.handed = begun

theorem Quitting.step (data : R → RequestData) (provider : StorageType) {begun : List R} {s : Dispatcher R}
    (hs : Quitting begun s) (a : Action R) : Quitting begun (step data provider s a) := by
  have hsequential := Sequential.step data provider s a hs.sequential
  have hmoves := moves_step data provider s a
  generalize Dispatcher.step data provider s a = s' at hmoves hsequential
  cases hmoves with
  | takes _ _ _ _ goesOn => exact absurd (hs.quit.symm.trans goesOn) (by decide)
  | skips request => exact ⟨hsequential, hs.quit, (handed_end s request).trans hs.begun⟩
  | completes request => exact ⟨hsequential, hs.quit, (handed_end s request).trans hs.begun⟩
  | quits => exact ⟨hsequential, rfl, hs.begun⟩
  | _ => exact ⟨hsequential, hs.quit, hs.begun⟩

/-- No more requests are begun, and none that was pushed is lost from the queue. -/
theorem Quitting.run (data : R → RequestData) (provider : StorageType) {begun : List R} {s : Dispatcher R}
    (hs : Quitting begun s) (actions : List (Action R)) :
    Quitting begun (Runs.run (Dispatcher.step data provider) s actions) :=
  Runs.inv_run_all (fun _ a hs => hs.step data provider a) actions hs

/-- The destructor notifies between the thread's look at its queue and its sleep. -/
example : (Runs.run (step (fun _ : Nat => ⟨.usb, .listMethod, .object, []⟩) .usb) start
    [.lock, .wake, .quit, .notify, .sleep, .wake]).phase = .sleeping := rfl

end Dispatcher

end StorageAccess
