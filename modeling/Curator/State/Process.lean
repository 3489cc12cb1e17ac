import Curator.Support.GoRange
import Curator.Support.Reachable
import Curator.State.Connection

/-!
# `connectionState.process`

The ZooKeeper library hands every event to `connectionState.process`
(`state.go`).  It starts one goroutine per parent watcher, in a `range` loop
whose closures share the loop variable (`GoRange`), and then, for a session
event, applies the event to `isConnected` (`processSession`).  The framework's
watcher is the first parent watcher: it turns session events into connection
state changes.  `internalBlockUntilConnectedOrTimedOut` (`client.go`) adds a
second one while its caller waits, which signals the caller if it finds the
connection up when it is called.

`ProcessRun` is one call of `process` with its goroutines, run in every order.
Every goroutine calls the parent watcher of its own iteration or of a later
one, and those that run after the loop call the last one: while a caller
waits in `BlockUntilConnectedOrTimedOut`, the framework's watcher gets the
event only if its goroutine runs before the loop's second iteration.  A
watcher called before `process` has applied the session event finds
`Connected()` as it was before the event.
-/

namespace Curator

/-- A parent watcher of a `connectionState`: the framework's, or the one a
`BlockUntilConnectedOrTimedOut` caller adds. -/
inductive ParentWatcher where
  | framework
  | blockUntilConnected
  deriving DecidableEq, Repr

/-- One call of `process(event)`: the connection state, the loop over the
parent watchers with its goroutines, the session event still to apply (with
its clock time and connection string; none for another event, or once
applied), and each watcher call with what `Connected()` answered when it was
made. -/
structure ProcessRun where
  state : ClientConnectionState
  loop : GoRange.RangeGo ParentWatcher
  session : Option (ZkState × Duration × GoString)
  calls : List (ParentWatcher × Bool)

/-- What happens next: the next step of `process` itself, or the `k`-th
pending goroutine. -/
inductive ProcessAction where
  | process
  | run (k : ℕ)
  deriving DecidableEq, Repr

namespace ProcessRun

/-- `process(event)` called on `s` with the parent watchers `watchers`. -/
def start (s : ClientConnectionState) (watchers : List ParentWatcher)
    (session : Option (ZkState × Duration × GoString)) : ProcessRun :=
  ⟨s, .start watchers, session, []⟩

/-- The loop's next iteration, then the session event. -/
def processStep (w : ProcessRun) : ProcessRun :=
  if w.loop.Done then
    match w.session with
    | some (state, now, connStr) =>
      { w with state := w.state.processSession state now connStr, session := none }
    | none => w
  else { w with loop := w.loop.iterate }

/-- A goroutine calls the watcher its closure reads. -/
def runStep (w : ProcessRun) (k : ℕ) : ProcessRun :=
  match w.loop.runGoroutine k with
  | (some (_, x), loop) => { w with loop := loop, calls := w.calls ++ [(x, w.state.isConnected)] }
  | (none, _) => w

def step (w : ProcessRun) : ProcessAction → ProcessRun
  | .process => w.processStep
  | .run k => w.runStep k

/-- One call of `process` as a transition system. -/
def system (s : ClientConnectionState) (watchers : List ParentWatcher)
    (session : Option (ZkState × Duration × GoString)) :
    TransitionSystem.System ProcessRun ProcessAction :=
  .ofFun (start s watchers session) step

variable {w : ProcessRun} {s : ClientConnectionState} {watchers : List ParentWatcher}

/-- What holds over every interleaving of the call on `s` with `watchers`:
the loop ranges over `watchers` and keeps its own invariant; the calls are the
goroutines that ran, in order; and until the session event is applied, the
state is `s` and every call found `s`'s connectedness. -/
structure Invariant (s : ClientConnectionState) (watchers : List ParentWatcher) (w : ProcessRun) :
    Prop where
  items : w.loop.items = watchers
  loop : w.loop.Invariant
  calls : w.calls.map Prod.fst = w.loop.ran.map Prod.snd
  before : w.session.isSome → w.state = s ∧ ∀ c ∈ w.calls, c.2 = s.isConnected

theorem invariant_start (watchers : List ParentWatcher)
    (session : Option (ZkState × Duration × GoString)) :
    (start s watchers session).Invariant s watchers where
  items := rfl
  loop := GoRange.RangeGo.invariant_start watchers
  calls := rfl
  before _ := ⟨rfl, fun _ h => by cases h⟩

theorem Invariant.processStep (h : w.Invariant s watchers) : w.processStep.Invariant s watchers := by
  unfold ProcessRun.processStep
  split
  · split
    · exact ⟨h.items, h.loop, h.calls, fun hs => by cases hs⟩
    · exact h
  · exact ⟨by simp [h.items], h.loop.iterate, by simpa using h.calls, h.before⟩

theorem Invariant.runStep (h : w.Invariant s watchers) (k : ℕ) : (w.runStep k).Invariant s watchers := by
  unfold ProcessRun.runStep
  split
  · next i x loop hrun =>
    have hloop := h.loop.runGoroutine k
    rw [hrun] at hloop
    have hran : loop.ran = w.loop.ran ++ [(i, x)] := by
      unfold GoRange.RangeGo.runGoroutine at hrun
      split at hrun
      · cases hrun
        rfl
      · cases hrun
    have hitems : loop.items = watchers := by
      have := GoRange.RangeGo.runGoroutine_items w.loop k
      rw [hrun] at this
      exact this.trans h.items
    refine ⟨hitems, hloop, ?_, fun hs => ?_⟩
    · simp [h.calls, hran]
    · obtain ⟨hstate, hcalls⟩ := h.before hs
      refine ⟨hstate, fun c hc => ?_⟩
      rcases List.mem_append.mp hc with hc | hc
      · exact hcalls c hc
      · rw [List.mem_singleton.mp hc, hstate]
  · exact h

theorem Invariant.step (h : w.Invariant s watchers) (e : ProcessAction) :
    (w.step e).Invariant s watchers := by
  cases e with
  | process => exact h.processStep
  | run k => exact h.runStep k

theorem invariant_inductive (watchers : List ParentWatcher)
    (session : Option (ZkState × Duration × GoString)) :
    TransitionSystem.Inductive (system s watchers session) (Invariant s watchers) where
  init := invariant_start watchers session
  step := by
    rintro w e _ hw rfl
    exact hw.step e

/-- A goroutine that runs once the loop is over calls the last parent
watcher. -/
theorem Invariant.runStep_of_done (h : w.Invariant s watchers) (hdone : w.loop.Done) {k : ℕ}
    {c : ParentWatcher × Bool} (hc : (w.runStep k).calls = w.calls ++ [c]) :
    watchers.getLast? = some c.1 := by
  unfold ProcessRun.runStep at hc
  split at hc
  · next i x loop hrun =>
    have hx : x = c.1 := by
      have := List.append_cancel_left hc
      simp only [List.cons.injEq, and_true] at this
      rw [← this]
    rw [← hx]
    have hread : (w.loop.runGoroutine k).1 = some (i, x) := by rw [hrun]
    rw [← h.items]
    exact GoRange.RangeGo.runGoroutine_of_done h.loop hdone hread
  · simp at hc

end ProcessRun

open ProcessRun in
/-- Over every interleaving of `process(event)` on `s` with the goroutines it
starts for the parent watchers `watchers`: each goroutine that ran called the
watcher of its own iteration or of a later one, none was lost or run twice,
and one that runs after the loop calls the last watcher; before the session
event is applied, every call finds `Connected()` as it was before the
event. -/
theorem process_parentWatchers_shared_variable (s : ClientConnectionState)
    (watchers : List ParentWatcher) (session : Option (ZkState × Duration × GoString))
    {w : ProcessRun} (hw : TransitionSystem.Reachable (ProcessRun.system s watchers session) w) :
    (∀ p ∈ w.loop.ran, ∃ j, p.1 ≤ j ∧ watchers[j]? = some p.2) ∧
      w.loop.pending.length + w.loop.ran.length = w.loop.index ∧
      w.calls.map Prod.fst = w.loop.ran.map Prod.snd ∧
      (w.loop.Done → ∀ k c, (w.step (.run k)).calls = w.calls ++ [c] → watchers.getLast? = some c.1) ∧
      (w.session.isSome → ∀ c ∈ w.calls, c.2 = s.isConnected) := by
  have h := TransitionSystem.Reachable.of_inductive (invariant_inductive watchers session) hw
  refine ⟨fun p hp => ?_, h.loop.count, h.calls, fun hdone k c hc => h.runStep_of_done hdone hc,
    fun hs => (h.before hs).2⟩
  rw [← h.items]
  exact h.loop.ran p hp

/-- A client that is not connected gets its session: the framework's watcher
and the one of a `BlockUntilConnectedOrTimedOut` caller are registered, and
both goroutines run after the loop and before the event is applied.  Both
call the caller's watcher, which finds the client disconnected each time; the
framework's watcher is not called; the client ends up connected. -/
theorem process_parentWatchers_shared_variable_hasSession :
    let s := ClientConnectionState.new 0 60 15 ⟨fun _ _ => none, 0, []⟩
    let watchers := [ParentWatcher.framework, .blockUntilConnected]
    let session := some (ZkState.stateHasSession, (0 : Duration), "host:2181".toList)
    let w := [ProcessAction.process, .process, .run 0, .run 0, .process].foldl ProcessRun.step
      (ProcessRun.start s watchers session)
    TransitionSystem.Reachable (ProcessRun.system s watchers session) w ∧
      w.calls = [(.blockUntilConnected, false), (.blockUntilConnected, false)] ∧
      w.state.isConnected = true ∧
      (∀ p ∈ w.loop.ran, ∃ j, p.1 ≤ j ∧ watchers[j]? = some p.2) ∧
      w.loop.pending.length + w.loop.ran.length = w.loop.index ∧
      w.calls.map Prod.fst = w.loop.ran.map Prod.snd ∧
      (w.loop.Done → ∀ k c, (w.step (.run k)).calls = w.calls ++ [c] → watchers.getLast? = some c.1) ∧
      (w.session.isSome → ∀ c ∈ w.calls, c.2 = s.isConnected) := by
  intro s watchers session w
  have hw : TransitionSystem.Reachable (ProcessRun.system s watchers session) w :=
    TransitionSystem.reachable_foldl _
  exact ⟨hw, rfl, rfl, process_parentWatchers_shared_variable s watchers session hw⟩

end Curator
