import Curator.State.Events

/-!
# `BlockUntilConnected` beside `processEvents`

`BlockUntilConnected(maxWaitTime)` (`state.go`) returns at once when
`currentConnectionState` is connected.  Otherwise it makes an unbuffered
channel `c`, adds a listener that sends every connected state it is called
with to `c`, and waits on `c`, with a timer when `maxWaitTime > 0`.  Its
deferred calls remove the listener, then close `c`.  `processEvents` calls
the listeners inside `ListenerContainer.ForEach` (`listener.go`), which holds
the container's read lock for the whole loop; `Add` and `Remove` take its
write lock.  A `sync.RWMutex` hands out the write lock only while no reader
holds the lock, and lets no new reader in once a writer waits for it.
`Close()`, after closing `events`, empties the container with `Clear`, which
takes the write lock as well.

`WaiterWorld` runs such calls, one after another, beside the pipeline of
`ManagerWorld`; `processEvents`'s hand-over to the listeners becomes the loop
of `ForEach`, every other listener returns from its call, and `Close()` goes
on from `close(m.events)` to its `Clear`.  Over every interleaving:

* the pipeline runs as `ManagerWorld` runs (`Invariant.pipeline`);
* `processEvents` never sends on the closed `c`, for the listener is removed
  before `c` is closed, and a call that returned leaves the container as it
  found it, unless `Clear` has emptied it;
* but once `processEvents` sends a connected state to a waiter that has left
  its receive and asked for the write lock, neither moves again: the waiter's
  `RemoveListener` waits for the read lock `processEvents` holds, and
  `processEvents` waits for a receiver that is gone.  Two connected states in
  a row, such as `READ_ONLY` and then the first `SyncConnected`, get there
  without a timer.
-/

namespace Curator

/-- A listener in the manager's container: the one `BlockUntilConnected`
adds, or another one, which returns from every call. -/
inductive Listener where
  | waiter
  | other
  deriving DecidableEq, Repr

/-- Where a `BlockUntilConnected` call is: not running; about to read
`currentConnectionState`; past the check, making `c` and the listener; in
`AddListener`, waiting for the write lock; at its receive from `c` (with the
timer when `timed`); past the receive with the error `r` it returns; in the
deferred `RemoveListener`, waiting for the write lock; at the deferred
`close(c)`; returned. -/
inductive WaiterPc where
  | idle
  | checking (timed : Bool)
  | preparing (timed : Bool)
  | adding (timed : Bool)
  | waiting (timed : Bool)
  | leaving (r : Option ZkError)
  | removing (r : Option ZkError)
  | closing (r : Option ZkError)
  | returned (r : Option ZkError)
  deriving DecidableEq, Repr

/-- The waiter has asked for the container's write lock and not got it. -/
def WaiterPc.wantsLock : WaiterPc → Bool
  | .adding _ | .removing _ => true
  | _ => false

/-- The waiter's listener is in the container: from `AddListener` to
`RemoveListener`. -/
def WaiterPc.listening : WaiterPc → Bool
  | .waiting _ | .leaving _ | .removing _ => true
  | _ => false

/-- Where `Close()` is once its state change succeeded: before its
`close(m.events)`, in `m.listeners.Clear()` waiting for the write lock, or
past it. -/
inductive ClearPc where
  | idle
  | clearing
  | cleared
  deriving DecidableEq, Repr

/-- The pipeline, the listener container, `processEvents` inside `ForEach`
(holding the read lock, at the listener with this index), the waiter, its
channel `c`, whether `processEvents` has panicked, and `Close()`'s `Clear`. -/
structure WaiterWorld where
  pipeline : ManagerWorld
  listeners : List Listener
  forEach : Option ℕ
  waiter : WaiterPc
  chanClosed : Bool
  panicked : Bool
  clearer : ClearPc

/-- What happens next: a step of the pipeline (its `consume` being
`processEvents` with its `ForEach`, its `closeChannel` taking `Close()` on to
`Clear`), a call of `BlockUntilConnected`, the waiter's next step, its timer
firing, or the `Clear` of `Close()`. -/
inductive WaiterAction where
  | pipeline (a : ManagerAction)
  | call (timed : Bool)
  | wait
  | timerFires
  | clear
  deriving DecidableEq, Repr

namespace WaiterWorld

/-- A new manager whose container holds `others` listeners. -/
def init (others : ℕ) : WaiterWorld :=
  ⟨ManagerWorld.init, List.replicate others .other, none, .idle, false, false, .idle⟩

/-- The waiter's listener sends a connected state on the unbuffered `c`: a
send on the closed channel panics, a waiting receiver takes the state, and
otherwise the send blocks. -/
def sendStep (w : WaiterWorld) (i : ℕ) : WaiterWorld :=
  if w.chanClosed then { w with panicked := true }
  else
    match w.waiter with
    | .waiting _ => { w with waiter := .leaving none, forEach := some (i + 1) }
    | _ => w

/-- The next step of `processEvents`: its receive as in `ManagerWorld`, and in
place of the hand-over the loop of `ForEach`, which takes the read lock unless
a writer (the waiter, or `Clear`) waits for it, calls each listener, and
releases the lock. -/
def consumeStep (w : WaiterWorld) : WaiterWorld :=
  match w.pipeline.consumer, w.forEach with
  | .delivering _, none =>
    if w.waiter.wantsLock || w.clearer == .clearing then w else { w with forEach := some 0 }
  | .delivering s, some i =>
    match w.listeners[i]? with
    | none => { w with pipeline := w.pipeline.consumeStep, forEach := none }
    | some .other => { w with forEach := some (i + 1) }
    | some .waiter => if s.isConnected then w.sendStep i else { w with forEach := some (i + 1) }
  | _, _ => { w with pipeline := w.pipeline.consumeStep }

/-- The waiter's next step; the write lock is taken only while no reader holds
the lock, and `Remove` drops the first listener equal to the waiter's. -/
def waitStep (w : WaiterWorld) : WaiterWorld :=
  match w.waiter with
  | .checking timed =>
    if w.pipeline.manager.currentConnectionState.isConnected then { w with waiter := .returned none }
    else { w with waiter := .preparing timed }
  | .preparing timed => { w with waiter := .adding timed }
  | .adding timed =>
    if w.forEach = none then { w with listeners := w.listeners ++ [.waiter], waiter := .waiting timed }
    else w
  | .leaving r => { w with waiter := .removing r }
  | .removing r =>
    if w.forEach = none then { w with listeners := w.listeners.erase .waiter, waiter := .closing r }
    else w
  | .closing r => { w with chanClosed := true, waiter := .returned r }
  | .idle | .waiting _ | .returned _ => w

/-- The timer of a timed call fires while it waits on `c`. -/
def timerStep (w : WaiterWorld) : WaiterWorld :=
  match w.waiter with
  | .waiting true => { w with waiter := .leaving (some .errTimeout) }
  | _ => w

/-- A new call of `BlockUntilConnected`, with a new channel `c`, once the last
one has returned. -/
def callStep (w : WaiterWorld) (timed : Bool) : WaiterWorld :=
  match w.waiter with
  | .idle | .returned _ => { w with waiter := .checking timed, chanClosed := false }
  | _ => w

/-- `close(m.events)`, after which `Close()` calls `m.listeners.Clear()`. -/
def closeChannelStep (w : WaiterWorld) : WaiterWorld :=
  match w.pipeline.closer with
  | .closing => { w with pipeline := w.pipeline.step .closeChannel, clearer := .clearing }
  | .idle => w

/-- `Clear` empties the container once it has the write lock. -/
def clearStep (w : WaiterWorld) : WaiterWorld :=
  match w.clearer with
  | .clearing => if w.forEach = none then { w with listeners := [], clearer := .cleared } else w
  | .idle | .cleared => w

/-- A step; after a panic of `processEvents` the program has stopped. -/
def step (w : WaiterWorld) (e : WaiterAction) : WaiterWorld :=
  if w.panicked then w
  else
    match e with
    | .pipeline .consume => w.consumeStep
    | .pipeline .closeChannel => w.closeChannelStep
    | .pipeline a => { w with pipeline := w.pipeline.step a }
    | .call timed => w.callStep timed
    | .wait => w.waitStep
    | .timerFires => w.timerStep
    | .clear => w.clearStep

/-- The pipeline with a `BlockUntilConnected` caller, as a transition system. -/
def system (others : ℕ) : TransitionSystem.System WaiterWorld WaiterAction :=
  .ofFun (init others) step

/-! ### What each step does -/

variable {w : WaiterWorld} {others : ℕ}

theorem step_consume (h : w.panicked = false) : w.step (.pipeline .consume) = w.consumeStep := by
  simp [step.eq_def, h]

theorem step_closeChannel (h : w.panicked = false) :
    w.step (.pipeline .closeChannel) = w.closeChannelStep := by
  simp [step.eq_def, h]

theorem step_pipeline (h : w.panicked = false) {a : ManagerAction} (ha : a ≠ .consume)
    (hb : a ≠ .closeChannel) : w.step (.pipeline a) = { w with pipeline := w.pipeline.step a } := by
  cases a <;> first | exact absurd rfl ha | exact absurd rfl hb | simp [step.eq_def, h]

theorem step_call (h : w.panicked = false) (timed : Bool) : w.step (.call timed) = w.callStep timed := by
  simp [step.eq_def, h]

theorem step_wait (h : w.panicked = false) : w.step .wait = w.waitStep := by
  simp [step.eq_def, h]

theorem step_timerFires (h : w.panicked = false) : w.step .timerFires = w.timerStep := by
  simp [step.eq_def, h]

theorem step_clear (h : w.panicked = false) : w.step .clear = w.clearStep := by
  simp [step.eq_def, h]

theorem closeChannelStep_of_closing (hc : w.pipeline.closer = .closing) :
    w.closeChannelStep = { w with pipeline := w.pipeline.step .closeChannel, clearer := .clearing } := by
  simp [closeChannelStep.eq_def, hc]

theorem closeChannelStep_of_idle (hc : w.pipeline.closer = .idle) : w.closeChannelStep = w := by
  simp [closeChannelStep.eq_def, hc]

/-- `processEvents`'s step in the middle of `ForEach` at the waiter's listener. -/
theorem consumeStep_of_waiter {s : ConnectionState} {i : ℕ} (hc : w.pipeline.consumer = .delivering s)
    (hi : w.forEach = some i) (hl : w.listeners[i]? = some Listener.waiter) :
    w.consumeStep = if s.isConnected then w.sendStep i else { w with forEach := some (i + 1) } := by
  simp only [consumeStep.eq_def, hc, hi, hl]

/-- Every step of `processEvents` keeps the container, `c` and `Close()`'s
`Clear`, moves the pipeline as `ManagerWorld` does, and moves the waiter only
from its receive to past it, by a send of its listener. -/
theorem consumeStep_frame (w : WaiterWorld) :
    w.consumeStep.listeners = w.listeners ∧ w.consumeStep.chanClosed = w.chanClosed ∧
      w.consumeStep.clearer = w.clearer ∧
      (w.consumeStep.pipeline = w.pipeline ∨ w.consumeStep.pipeline = w.pipeline.consumeStep) := by
  unfold consumeStep
  split
  · split <;> exact ⟨rfl, rfl, rfl, .inl rfl⟩
  · split
    · exact ⟨rfl, rfl, rfl, .inr rfl⟩
    · exact ⟨rfl, rfl, rfl, .inl rfl⟩
    · split
      · unfold sendStep
        split
        · exact ⟨rfl, rfl, rfl, .inl rfl⟩
        · split <;> exact ⟨rfl, rfl, rfl, .inl rfl⟩
      · exact ⟨rfl, rfl, rfl, .inl rfl⟩
  · exact ⟨rfl, rfl, rfl, .inr rfl⟩

/-- The waiter moves under `processEvents` only by taking a state from its
listener, and `processEvents` panics only by a send of the waiter's listener
on the closed `c`. -/
theorem consumeStep_waiter (w : WaiterWorld) :
    (w.consumeStep.waiter = w.waiter ∨
      ∃ (t : Bool) (i : ℕ), w.waiter = .waiting t ∧ w.listeners[i]? = some Listener.waiter ∧ w.chanClosed = false ∧
        w.consumeStep.waiter = .leaving none) ∧
    (w.consumeStep.panicked = true →
      w.panicked = true ∨ ∃ i : ℕ, w.listeners[i]? = some Listener.waiter ∧ w.chanClosed = true) := by
  unfold consumeStep
  split
  · split
    · exact ⟨.inl rfl, .inl⟩
    · exact ⟨.inl rfl, .inl⟩
  · next s i _ _ =>
    split
    · exact ⟨.inl rfl, .inl⟩
    · exact ⟨.inl rfl, .inl⟩
    · next hl =>
      split
      · unfold sendStep
        split
        · next hclosed => exact ⟨.inl rfl, fun _ => .inr ⟨i, hl, hclosed⟩⟩
        · next hopen =>
          split
          · next t ht => exact ⟨.inr ⟨t, i, ht, hl, by simpa using hopen, rfl⟩, .inl⟩
          · exact ⟨.inl rfl, .inl⟩
      · exact ⟨.inl rfl, .inl⟩
  · exact ⟨.inl rfl, .inl⟩

/-! ### The invariant -/

/-- The listeners other than the waiter's: those the manager started with,
until `Clear` empties the container. -/
def kept (others : ℕ) (w : WaiterWorld) : List Listener :=
  if w.clearer = .cleared then [] else List.replicate others .other

theorem waiter_not_mem_kept (others : ℕ) (w : WaiterWorld) : Listener.waiter ∉ w.kept others := by
  unfold kept
  split <;> simp

/-- The container holds the kept listeners, and the waiter's behind them only
while it listens: `Clear` may have dropped it. -/
def HoldsListeners (others : ℕ) (w : WaiterWorld) : Prop :=
  w.listeners = w.kept others ∨
    (w.waiter.listening = true ∧ w.listeners = w.kept others ++ [.waiter])

theorem kept_congr {w' : WaiterWorld} (hc : w'.clearer = w.clearer) :
    w'.kept others = w.kept others := by
  simp only [kept, hc]

theorem HoldsListeners.congr {w' : WaiterWorld} (h : w.HoldsListeners others)
    (hl : w'.listeners = w.listeners) (hk : w'.kept others = w.kept others)
    (hw : w'.waiter.listening = w.waiter.listening) : w'.HoldsListeners others := by
  unfold HoldsListeners
  rw [hl, hk, hw]
  exact h

/-- What holds in every reachable world: the pipeline is one `ManagerWorld`
reaches; the container holds the kept listeners, and the waiter's while it
listens; `c` is closed only after the call returned; `Clear` comes after
`close(m.events)`; and nothing panicked. -/
structure Invariant (others : ℕ) (w : WaiterWorld) : Prop where
  pipeline : TransitionSystem.Reachable ManagerWorld.system w.pipeline
  listeners : w.HoldsListeners others
  closed : w.chanClosed = true → ∃ r, w.waiter = .returned r
  cleared : w.clearer ≠ .idle → w.pipeline.closed = true
  panicked : w.panicked = false

theorem invariant_init (others : ℕ) : (init others).Invariant others where
  pipeline := .init
  listeners := .inl rfl
  closed h := by cases h
  cleared h := absurd rfl h
  panicked := rfl

/-- A waiter that does not listen has no listener in the container. -/
theorem Invariant.listeners_of_not_listening (h : w.Invariant others)
    (hl : w.waiter.listening = false) : w.listeners = w.kept others := by
  rcases h.listeners with h' | ⟨hl', -⟩
  · exact h'
  · rw [hl] at hl'
    cases hl'

/-- The waiter's listener is in the container only while it listens. -/
theorem Invariant.listening_of_mem (h : w.Invariant others) (hm : Listener.waiter ∈ w.listeners) :
    w.waiter.listening = true := by
  rcases h.listeners with h' | ⟨hl, -⟩
  · rw [h'] at hm
    exact absurd hm (waiter_not_mem_kept others w)
  · exact hl

/-- While the call has not returned, `c` is open. -/
theorem Invariant.open_of_ne_returned (h : w.Invariant others) (hw : ∀ r, w.waiter ≠ .returned r) :
    w.chanClosed = false := by
  cases hc : w.chanClosed
  · rfl
  · obtain ⟨r, hr⟩ := h.closed hc
    exact absurd hr (hw r)

/-- A listener of the waiter that `processEvents` reaches sends on an open
`c`. -/
theorem Invariant.open_of_listener (h : w.Invariant others) {i : ℕ}
    (hi : w.listeners[i]? = some Listener.waiter) : w.chanClosed = false := by
  have hl := h.listening_of_mem (List.mem_of_getElem? hi)
  refine h.open_of_ne_returned fun r hr => ?_
  rw [hr] at hl
  cases hl

/-- Once `Clear` is reached the channel `events` is closed, and every step of
the pipeline keeps it so. -/
theorem Invariant.cleared_step (h : w.Invariant others) {p : ManagerWorld} {a : ManagerAction}
    (hp : p = w.pipeline ∨ p = w.pipeline.step a) (hc : w.clearer ≠ .idle) : p.closed = true := by
  have hclosed := h.cleared hc
  rcases hp with rfl | rfl
  · exact hclosed
  · exact ((ManagerWorld.invariant_of_reachable h.pipeline).afterClose_step hclosed a).closed

/-- A step of the waiter alone that keeps whether it listens. -/
theorem Invariant.with_waiter (h : w.Invariant others) {p : WaiterPc}
    (hl : p.listening = w.waiter.listening) (hopen : w.chanClosed = false) :
    ({ w with waiter := p } : WaiterWorld).Invariant others where
  pipeline := h.pipeline
  listeners := h.listeners.congr rfl rfl hl
  closed hc := by rw [hopen] at hc; cases hc
  cleared := h.cleared
  panicked := h.panicked

theorem Invariant.consumeStep (h : w.Invariant others) : w.consumeStep.Invariant others := by
  obtain ⟨hlist, hclosed, hclear, hpipe⟩ := consumeStep_frame w
  obtain ⟨hwait, hpanic⟩ := consumeStep_waiter w
  refine ⟨?_, ?_, ?_, ?_, ?_⟩
  · rcases hpipe with hp | hp <;> rw [hp]
    · exact h.pipeline
    · exact .step .consume h.pipeline rfl
  · rcases hwait with hw | ⟨t, i, ht, -, -, hw⟩
    · exact h.listeners.congr hlist (kept_congr hclear) (by rw [hw])
    · exact h.listeners.congr hlist (kept_congr hclear) (by rw [hw, ht]; rfl)
  · intro hc
    rw [hclosed] at hc
    obtain ⟨r, hr⟩ := h.closed hc
    rcases hwait with hw | ⟨t, i, ht, -, hopen, -⟩
    · exact ⟨r, hw.trans hr⟩
    · rw [hopen] at hc
      cases hc
  · rw [hclear]
    exact h.cleared_step (hpipe.imp id fun hp => show _ = w.pipeline.step .consume from hp)
  · cases hp : w.consumeStep.panicked
    · rfl
    · rcases hpanic hp with hp' | ⟨i, hi, hc⟩
      · rw [h.panicked] at hp'
        cases hp'
      · rw [h.open_of_listener hi] at hc
        cases hc

theorem Invariant.waitStep (h : w.Invariant others) : w.waitStep.Invariant others := by
  cases hw : w.waiter with
  | idle | waiting _ | returned _ =>
    simp only [WaiterWorld.waitStep.eq_def, hw]
    exact h
  | checking timed =>
    have hopen := h.open_of_ne_returned (by simp [hw])
    simp only [WaiterWorld.waitStep.eq_def, hw]
    split
    · refine ⟨h.pipeline, .inl ?_, fun _ => ⟨none, rfl⟩, h.cleared, h.panicked⟩
      exact h.listeners_of_not_listening (by rw [hw]; rfl)
    · exact h.with_waiter (by rw [hw]; rfl) hopen
  | preparing timed =>
    simp only [WaiterWorld.waitStep.eq_def, hw]
    exact h.with_waiter (by rw [hw]; rfl) (h.open_of_ne_returned (by simp [hw]))
  | adding timed =>
    have hopen := h.open_of_ne_returned (by simp [hw])
    simp only [WaiterWorld.waitStep.eq_def, hw]
    split
    · refine ⟨h.pipeline, .inr ⟨rfl, ?_⟩, (fun hc => by rw [hopen] at hc; cases hc), h.cleared,
        h.panicked⟩
      rw [h.listeners_of_not_listening (by rw [hw]; rfl)]
      rfl
    · exact h
  | leaving r =>
    simp only [WaiterWorld.waitStep.eq_def, hw]
    exact h.with_waiter (by rw [hw]; rfl) (h.open_of_ne_returned (by simp [hw]))
  | removing r =>
    have hopen := h.open_of_ne_returned (by simp [hw])
    simp only [WaiterWorld.waitStep.eq_def, hw]
    split
    · refine ⟨h.pipeline, .inl ?_, (fun hc => by rw [hopen] at hc; cases hc), h.cleared, h.panicked⟩
      have hnot := waiter_not_mem_kept others w
      rcases h.listeners with hl | ⟨-, hl⟩ <;> rw [hl]
      · exact List.erase_of_not_mem hnot
      · rw [List.erase_append_right _ hnot, List.erase_cons_head, List.append_nil]
        rfl
    · exact h
  | closing r =>
    simp only [WaiterWorld.waitStep.eq_def, hw]
    refine ⟨h.pipeline, .inl ?_, fun _ => ⟨r, rfl⟩, h.cleared, h.panicked⟩
    exact h.listeners_of_not_listening (by rw [hw]; rfl)

theorem Invariant.timerStep (h : w.Invariant others) : w.timerStep.Invariant others := by
  unfold WaiterWorld.timerStep
  split
  · next hw => exact h.with_waiter (by rw [hw]; rfl) (h.open_of_ne_returned (by simp [hw]))
  · exact h

/-- A new call starts outside the container, with a new open channel. -/
theorem Invariant.callStep_of_done (h : w.Invariant others) (hw : w.waiter.listening = false)
    (timed : Bool) :
    ({ w with waiter := .checking timed, chanClosed := false } : WaiterWorld).Invariant others where
  pipeline := h.pipeline
  listeners := .inl (h.listeners_of_not_listening hw)
  closed hc := by cases hc
  cleared := h.cleared
  panicked := h.panicked

theorem Invariant.callStep (h : w.Invariant others) (timed : Bool) :
    (w.callStep timed).Invariant others := by
  cases hw : w.waiter with
  | idle =>
    simp only [WaiterWorld.callStep.eq_def, hw]
    exact h.callStep_of_done (by rw [hw]; rfl) timed
  | returned r =>
    simp only [WaiterWorld.callStep.eq_def, hw]
    exact h.callStep_of_done (by rw [hw]; rfl) timed
  | _ =>
    simp only [WaiterWorld.callStep.eq_def, hw]
    exact h

/-- `close(m.events)` happens once, while `Close()` has not reached `Clear`,
so what the container keeps does not change. -/
theorem Invariant.closeChannelStep (h : w.Invariant others) :
    w.closeChannelStep.Invariant others := by
  cases hc : w.pipeline.closer with
  | idle =>
    rw [closeChannelStep_of_idle hc]
    exact h
  | closing =>
    have hopen := ((ManagerWorld.invariant_of_reachable h.pipeline).closing hc).1
    have hidle : w.clearer = .idle := by
      by_contra hne
      rw [h.cleared hne] at hopen
      cases hopen
    rw [closeChannelStep_of_closing hc]
    refine ⟨.step .closeChannel h.pipeline rfl, h.listeners.congr rfl ?_ rfl, h.closed,
      fun _ => ?_, h.panicked⟩
    · simp [hidle, kept]
    · show w.pipeline.closeChannelStep.closed = true
      rw [ManagerWorld.closeChannelStep_of_closing hc hopen]

theorem Invariant.clearStep (h : w.Invariant others) : w.clearStep.Invariant others := by
  cases hc : w.clearer with
  | clearing =>
    simp only [WaiterWorld.clearStep.eq_def, hc]
    split
    · exact ⟨h.pipeline, .inl rfl, h.closed, fun _ => h.cleared (by rw [hc]; simp), h.panicked⟩
    · exact h
  | idle | cleared =>
    simp only [WaiterWorld.clearStep.eq_def, hc]
    exact h

theorem Invariant.step (h : w.Invariant others) (e : WaiterAction) : (w.step e).Invariant others := by
  cases e with
  | pipeline a =>
    by_cases ha : a = .consume
    · rw [ha, step_consume h.panicked]
      exact h.consumeStep
    by_cases hb : a = .closeChannel
    · rw [hb, step_closeChannel h.panicked]
      exact h.closeChannelStep
    rw [step_pipeline h.panicked ha hb]
    exact ⟨.step a h.pipeline rfl, h.listeners, h.closed, h.cleared_step (.inr rfl), h.panicked⟩
  | call timed =>
    rw [step_call h.panicked]
    exact h.callStep timed
  | wait =>
    rw [step_wait h.panicked]
    exact h.waitStep
  | timerFires =>
    rw [step_timerFires h.panicked]
    exact h.timerStep
  | clear =>
    rw [step_clear h.panicked]
    exact h.clearStep

theorem invariant_inductive (others : ℕ) :
    TransitionSystem.Inductive (system others) (Invariant others) where
  init := invariant_init others
  step := by
    rintro w e _ hw rfl
    exact hw.step e

theorem invariant_of_reachable (hw : TransitionSystem.Reachable (system others) w) :
    w.Invariant others :=
  TransitionSystem.Reachable.of_inductive (invariant_inductive others) hw

/-! ### The deadlock -/

/-- `processEvents` is inside `ForEach` at the waiter's listener with a
connected state to send, and the waiter, past its receive, waits for the write
lock in `RemoveListener`. -/
structure Deadlocked (w : WaiterWorld) : Prop where
  sending : ∃ (i : ℕ) (s : ConnectionState), w.forEach = some i ∧
    w.listeners[i]? = some Listener.waiter ∧ w.pipeline.consumer = .delivering s ∧ s.isConnected = true
  removing : ∃ r, w.waiter = .removing r

/-- In a deadlock every step leaves `processEvents`, the waiter, the container
and what the listeners got as they are; only the pipeline's other goroutines
move. -/
theorem Deadlocked.step (h : w.Invariant others) (hd : w.Deadlocked) (e : WaiterAction) :
    (w.step e).forEach = w.forEach ∧ (w.step e).listeners = w.listeners ∧
      (w.step e).waiter = w.waiter ∧ (w.step e).pipeline.consumer = w.pipeline.consumer ∧
      (w.step e).pipeline.delivered = w.pipeline.delivered := by
  obtain ⟨⟨i, s, hi, hl, hc, hs⟩, ⟨r, hr⟩⟩ := hd
  have hmanager := ManagerWorld.invariant_of_reachable h.pipeline
  cases e with
  | pipeline a =>
    by_cases ha : a = .consume
    · have hopen := h.open_of_listener hl
      have hsend : w.sendStep i = w := by simp [WaiterWorld.sendStep.eq_def, hopen, hr]
      rw [ha, step_consume h.panicked, consumeStep_of_waiter hc hi hl, if_pos hs, hsend]
      exact ⟨rfl, rfl, rfl, rfl, rfl⟩
    obtain ⟨hcons, hdel⟩ := hmanager.consumer_step ha (by rw [hc]; simp)
    by_cases hb : a = .closeChannel
    · rw [hb] at hcons hdel
      rw [hb, step_closeChannel h.panicked]
      cases hcl : w.pipeline.closer with
      | idle =>
        rw [closeChannelStep_of_idle hcl]
        exact ⟨rfl, rfl, rfl, rfl, rfl⟩
      | closing =>
        rw [closeChannelStep_of_closing hcl]
        exact ⟨rfl, rfl, rfl, hcons, hdel⟩
    · rw [step_pipeline h.panicked ha hb]
      exact ⟨rfl, rfl, rfl, hcons, hdel⟩
  | call timed =>
    have hcall : w.callStep timed = w := by simp [WaiterWorld.callStep.eq_def, hr]
    rw [step_call h.panicked, hcall]
    exact ⟨rfl, rfl, rfl, rfl, rfl⟩
  | wait =>
    have hwait : w.waitStep = w := by simp [WaiterWorld.waitStep.eq_def, hr, hi]
    rw [step_wait h.panicked, hwait]
    exact ⟨rfl, rfl, rfl, rfl, rfl⟩
  | timerFires =>
    have htimer : w.timerStep = w := by simp [WaiterWorld.timerStep.eq_def, hr]
    rw [step_timerFires h.panicked, htimer]
    exact ⟨rfl, rfl, rfl, rfl, rfl⟩
  | clear =>
    have hclear : w.clearStep = w := by
      unfold WaiterWorld.clearStep
      split <;> simp [hi]
    rw [step_clear h.panicked, hclear]
    exact ⟨rfl, rfl, rfl, rfl, rfl⟩

end WaiterWorld

open WaiterWorld in
/-- Over every interleaving of `BlockUntilConnected` calls with the event
pipeline and `Close()`: `processEvents` never panics, for `c` is closed only
after the listener has left the container, which `RemoveListener` can enter
only outside `ForEach`; the pipeline runs as it does without a caller; and a
call that has returned leaves the container as it found it, or empty once
`Close()`'s `Clear` has run. -/
theorem blockUntilConnected_safe {others : ℕ} {w : WaiterWorld}
    (hw : TransitionSystem.Reachable (WaiterWorld.system others) w) :
    w.panicked = false ∧ TransitionSystem.Reachable ManagerWorld.system w.pipeline ∧
      (w.chanClosed = true → Listener.waiter ∉ w.listeners) ∧
      (∀ r, w.waiter = .returned r →
        w.listeners = if w.clearer = .cleared then [] else List.replicate others .other) := by
  have h := invariant_of_reachable hw
  refine ⟨h.panicked, h.pipeline, fun hc hm => ?_, fun r hr => ?_⟩
  · obtain ⟨r, hr⟩ := h.closed hc
    have hl := h.listening_of_mem hm
    rw [hr] at hl
    cases hl
  · exact h.listeners_of_not_listening (by rw [hr]; rfl)

/-- A timed call on a manager that never connects, beside another listener:
the timer fires, the listener is removed and `c` closed; then `Close()`
empties the container. -/
theorem blockUntilConnected_safe_timeout :
    let w := [WaiterAction.pipeline .start, .call true, .wait, .wait, .wait, .timerFires,
      .wait, .wait, .wait, .pipeline .close, .pipeline .closeChannel, .clear].foldl
      WaiterWorld.step (WaiterWorld.init 1)
    TransitionSystem.Reachable (WaiterWorld.system 1) w ∧ w.waiter = .returned (some .errTimeout) ∧
      w.chanClosed = true ∧ w.clearer = .cleared ∧ w.panicked = false ∧
      TransitionSystem.Reachable ManagerWorld.system w.pipeline ∧
      (w.chanClosed = true → Listener.waiter ∉ w.listeners) ∧
      (∀ r, w.waiter = .returned r →
        w.listeners = if w.clearer = .cleared then [] else List.replicate 1 .other) := by
  intro w
  have hw : TransitionSystem.Reachable (WaiterWorld.system 1) w := TransitionSystem.reachable_foldl _
  exact ⟨hw, rfl, rfl, rfl, blockUntilConnected_safe hw⟩

open WaiterWorld in
/-- Once `processEvents` is sending a connected state to a `BlockUntilConnected`
caller that has left its receive for its deferred `RemoveListener`, the two
never move again, whatever else happens: the call never returns, and the
listeners never get another state. -/
theorem blockUntilConnected_deadlock {others : ℕ} {w : WaiterWorld}
    (hw : TransitionSystem.Reachable (WaiterWorld.system others) w) (hd : w.Deadlocked)
    (es : List WaiterAction) :
    (es.foldl WaiterWorld.step w).Deadlocked ∧ (es.foldl WaiterWorld.step w).waiter = w.waiter ∧
      (es.foldl WaiterWorld.step w).pipeline.delivered = w.pipeline.delivered := by
  let P : WaiterWorld → Prop := fun v => v.Deadlocked ∧ v.forEach = w.forEach ∧
    v.listeners = w.listeners ∧ v.waiter = w.waiter ∧ v.pipeline.consumer = w.pipeline.consumer ∧
    v.pipeline.delivered = w.pipeline.delivered
  have hstable : TransitionSystem.Stable (WaiterWorld.system others) P := by
    rintro v e _ hv ⟨hvd, hf, hl, hwt, hc, hdel⟩ rfl
    obtain ⟨hf', hl', hwt', hc', hdel'⟩ := hvd.step (invariant_of_reachable hv) e
    obtain ⟨⟨i, s, hi, hli, hcs, hs⟩, ⟨r, hr⟩⟩ := hvd
    refine ⟨⟨⟨i, s, ?_, ?_, ?_, hs⟩, ⟨r, ?_⟩⟩, hf'.trans hf, hl'.trans hl, hwt'.trans hwt,
      hc'.trans hc, hdel'.trans hdel⟩
    · rw [hf', hi]
    · rw [hl', hli]
    · rw [hc', hcs]
    · rw [hwt', hr]
  obtain ⟨hd', -, -, hwt, -, hdel⟩ :=
    hstable.foldl hw ⟨hd, rfl, rfl, rfl, rfl, rfl⟩ es
  exact ⟨hd', hwt, hdel⟩

/-- `BlockUntilConnected()` without a timer, with no other listener: the
connection comes up read-only, then read-write.  The caller takes `READ_ONLY`;
before its `RemoveListener` asks for the lock, `processEvents` takes the
`CONNECTED` of the first `SyncConnected` into `ForEach`. -/
theorem blockUntilConnected_deadlock_readOnly :
    let w := [WaiterAction.pipeline .start, .call false, .wait, .wait, .wait,
      .pipeline (.call (.watched .stateConnectedReadOnly)), .pipeline .post,
      .pipeline (.call (.watched .stateSyncConnected)), .pipeline .post,
      .pipeline .consume, .pipeline .consume, .pipeline .consume, .pipeline .consume,
      .pipeline .consume, .pipeline .consume, .wait].foldl WaiterWorld.step (WaiterWorld.init 0)
    TransitionSystem.Reachable (WaiterWorld.system 0) w ∧ w.Deadlocked ∧
      w.pipeline.delivered = [.readOnly] ∧ w.waiter = .removing none ∧
      ∀ es : List WaiterAction, (es.foldl WaiterWorld.step w).Deadlocked ∧
        (es.foldl WaiterWorld.step w).waiter = w.waiter ∧
        (es.foldl WaiterWorld.step w).pipeline.delivered = w.pipeline.delivered := by
  intro w
  have hw : TransitionSystem.Reachable (WaiterWorld.system 0) w := TransitionSystem.reachable_foldl _
  have hd : w.Deadlocked := ⟨⟨0, .connected, rfl, rfl, rfl, rfl⟩, ⟨none, rfl⟩⟩
  exact ⟨hw, hd, rfl, rfl, fun es => blockUntilConnected_deadlock hw hd es⟩

end Curator
