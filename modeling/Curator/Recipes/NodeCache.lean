import Curator.Server
import Curator.State.Manager

/-!
# The node cache

A `NodeCache` keeps the data of one node.  `reset()` asks the server, in the
background and with the cache's watcher, whether the node exists; the
callback asks, again in the background with the watcher, for its data, and
stores what it gets.  Every watch the server fires calls `reset()` again, and
the connection state listener calls it when the connection comes back.

The world holds the server's store, the cache, the watches the cache's
requests left on the node (each delivers one notification at the node's next
change), and the work left to the framework's goroutines: notifications to
deliver, background requests to send and callbacks to run.  Any pending item
may run next, so requests and callbacks interleave in every order.

The model is of a cache made with `dataIsCompressed` false: a compressed
cache adds `Decompressed()` to both of its reads, whose effect on a read is
`GetDataBuilder.decompressing` of `Curator.Compression`.

Two behaviours of the code decide what the cache converges to:

* `reset()` does nothing while `isConnected` is false.  It starts false, and
  only the connection state listener sets it, on a change of state posted
  after `Start` registered the listener.  A cache started on a framework that
  stays connected never sends a request (`idle_foldl`).
* `checkExistsBuilder` reports a missing node as `(nil, nil)`, never as
  `ErrNoNode`, so the branch of `processBackgroundResult` that clears the
  data never runs: once the cache holds data it holds data for ever
  (`data_isSome_foldl`).
-/

namespace Curator

/-- A `ChildData`. -/
structure ChildData where
  path : GoString
  stat : Stat
  data : Bytes
  deriving DecidableEq, Repr

/-- A `NodeCache` without compression, without its client and its listeners.
`listening` records whether its connection state listener is registered. -/
structure NodeCache where
  path : GoString
  state : State
  isConnected : Bool
  data : Option ChildData
  listening : Bool
  deriving DecidableEq, Repr

/-- `NewNodeCache(client, path, false)`. -/
def newNodeCache (path : GoString) : NodeCache :=
  ⟨path, .latent, false, none, false⟩

/-- The event a background callback of the cache gets: the answer of a
`GetData` or of a `CheckExists`. -/
inductive CuratorEvent where
  | getData (result : Except ZkError (Bytes × Stat))
  | exists (result : Except ZkError (Option Stat))

/-- Work left to the framework: the watcher's notification, the two
background requests of the cache, and a callback with a request's answer. -/
inductive CacheTask where
  | notify
  | checkExists
  | getData
  | callback (event : CuratorEvent)

/-- A pending callback telling the cache that the node is missing. -/
def CacheTask.reportsMissing : CacheTask → Bool
  | .callback (.exists (.error .errNoNode)) => true
  | _ => false

namespace NodeCache

/-- `reset()`: a started, connected cache sends `CheckExists` with its watcher
in the background.  The background `ForPath` answers `(nil, nil)` at once, so
`reset()` never fails. -/
def reset (c : NodeCache) : List CacheTask :=
  if c.state = .started ∧ c.isConnected = true then [.checkExists] else []

/-- `setNewData(newData)`; the listeners it notifies are not modelled. -/
def setNewData (c : NodeCache) (newData : Option ChildData) : NodeCache :=
  { c with data := newData }

/-- `processBackgroundResult(event)`. -/
def processBackgroundResult (c : NodeCache) : CuratorEvent → NodeCache × List CacheTask
  | .getData result =>
    match result with
    | .ok (data, stat) => (c.setNewData (some ⟨c.path, stat, data⟩), [])
    | .error _ => (c, [])
  | .exists result =>
    match result with
    | .error .errNoNode => (c.setNewData none, [])
    | .ok _ => (c, [.getData])
    | .error _ => (c, [])

/-- `internalRebuild()`: a foreground `GetData` without a watch. -/
def internalRebuild (c : NodeCache) (fault : Option ZkError) (st : Store) :
    Option ZkError × NodeCache :=
  match (st.withFault fault fun st => st.get c.path).1 with
  | .ok (data, stat) => (none, { c with data := some ⟨c.path, stat, data⟩ })
  | .error .errNoNode => (none, { c with data := none })
  | .error e => (some e, c)

/-- `StartAndInitalize(buildInitial)`, given the answer `ensure` of
`ensurePath.Ensure` (on the `ExcludingLast` view of the path) and the fault of
the initial `GetData`. -/
def startAndInitalize (c : NodeCache) (buildInitial : Bool) (ensure fault : Option ZkError)
    (st : Store) : Option ZkError × NodeCache × List CacheTask :=
  let r := c.state.change .latent .started
  let c := { c with state := r.1 }
  if !r.2 then (some (.message "Cannot be started more than once"), c, [])
  else
    match ensure with
    | some e => (some e, c, [])
    | none =>
      let c := { c with listening := true }
      if buildInitial then
        match c.internalRebuild fault st with
        | (some e, c) => (some e, c, [])
        | (none, c) => (none, c, c.reset)
      else (none, c, c.reset)

/-- `Start()`. -/
def start (c : NodeCache) (ensure : Option ZkError) (st : Store) :
    Option ZkError × NodeCache × List CacheTask :=
  c.startAndInitalize false ensure none st

/-- `Close()`: the listener is removed whether or not the cache was started. -/
def close (c : NodeCache) : NodeCache :=
  { c with state := (c.state.change .started .stopped).1, listening := false }

/-- The connection state listener of the cache, on `newState`.  The reset it
makes on reconnection never fails, so its panic is never reached. -/
def stateChanged (c : NodeCache) (newState : ConnectionState) : NodeCache × List CacheTask :=
  if newState.isConnected then
    -- `isConnected.CompareAndSwap(false, true)`
    if !c.isConnected then
      let c := { c with isConnected := true }
      (c, c.reset)
    else (c, [])
  else ({ c with isConnected := false }, [])

end NodeCache

/-- A change another client makes to the node. -/
inductive NodeChange where
  | setData (data : Bytes)
  | create (data : Bytes)
  | delete

/-- The change as the server applies it; only a change that succeeds fires
the watches. -/
def NodeChange.apply (path : GoString) (st : Store) : NodeChange → Except ZkError Unit × Store
  | .setData data =>
    let r := st.set path data (-1)
    (r.1.map fun _ => (), r.2)
  | .create data =>
    let r := st.create path data .persistent
    (r.1.map fun _ => (), r.2)
  | .delete => st.delete path (-1)

/-- The cache, the server and the work in flight. -/
structure CacheWorld where
  store : Store
  cache : NodeCache
  watches : ℕ
  tasks : List CacheTask

/-- What happens next: a call of the cache's owner, a change of the
connection's state, a change of the node, or the `k`-th pending task, whose
request may fail with `fault`. -/
inductive CacheAction where
  | startAndInitalize (buildInitial : Bool) (ensure fault : Option ZkError)
  | close
  | stateChanged (newState : ConnectionState)
  | change (op : NodeChange)
  | run (k : ℕ) (fault : Option ZkError)

/-- Did the connection's state change? -/
def CacheAction.isStateChanged : CacheAction → Bool
  | .stateChanged _ => true
  | _ => false

/-- A request failing with `ErrNoNode` without the store saying so. -/
def CacheAction.injectsNoNode : CacheAction → Bool
  | .run _ (some .errNoNode) => true
  | _ => false

namespace CacheWorld

/-- A new cache on `path` over the store `st`. -/
def init (st : Store) (path : GoString) : CacheWorld :=
  ⟨st, newNodeCache path, 0, []⟩

/-- A request that reached the server leaves a watch. -/
def watchesAfter {α : Type} (watches : ℕ) : Except ZkError α → ℕ
  | .ok _ => watches + 1
  | .error _ => watches

/-- `GetData` on a missing node fails with `ErrNoNode` and leaves no watch;
`CheckExists` leaves one either way. -/
def runTask (w : CacheWorld) (fault : Option ZkError) : CacheTask → CacheWorld
  | .notify => { w with tasks := w.tasks ++ w.cache.reset }
  | .checkExists =>
    let r := (w.store.withFault fault fun st => st.exists w.cache.path).1
    { w with watches := watchesAfter w.watches r, tasks := w.tasks ++ [.callback (.exists r)] }
  | .getData =>
    let r := (w.store.withFault fault fun st => st.get w.cache.path).1
    { w with watches := watchesAfter w.watches r, tasks := w.tasks ++ [.callback (.getData r)] }
  | .callback event =>
    let r := w.cache.processBackgroundResult event
    { w with cache := r.1, tasks := w.tasks ++ r.2 }

def step (w : CacheWorld) : CacheAction → CacheWorld
  | .startAndInitalize buildInitial ensure fault =>
    let r := w.cache.startAndInitalize buildInitial ensure fault w.store
    { w with cache := r.2.1, tasks := w.tasks ++ r.2.2 }
  | .close => { w with cache := w.cache.close }
  | .stateChanged newState =>
    if w.cache.listening then
      let r := w.cache.stateChanged newState
      { w with cache := r.1, tasks := w.tasks ++ r.2 }
    else w
  | .change op =>
    let r := op.apply w.cache.path w.store
    match r.1 with
    -- every watch on the node delivers its notification
    | .ok () => ⟨r.2, w.cache, 0, w.tasks ++ List.replicate w.watches .notify⟩
    | .error _ => w
  | .run k fault =>
    match w.tasks[k]? with
    | some t => runTask { w with tasks := w.tasks.eraseIdx k } fault t
    | none => w

/-- The node as the server holds it, as the cache would hold it. -/
def current (w : CacheWorld) : Option ChildData :=
  (w.store.lookup w.cache.path).map fun n => ⟨w.cache.path, n.stat, n.data⟩

/-- What the cache is for: with no notification, request or callback left,
it holds the node as the server has it, or nothing when the node is missing. -/
def Settled (w : CacheWorld) : Prop :=
  w.tasks = [] → w.cache.data = w.current

instance (w : CacheWorld) : Decidable w.Settled :=
  inferInstanceAs (Decidable (w.tasks = [] → w.cache.data = w.current))

end CacheWorld

/-! ### What the cache's own steps do -/

namespace NodeCache

variable (c : NodeCache)

theorem reset_of_disconnected (h : c.isConnected = false) : c.reset = [] := by
  simp [reset, h]

/-- `internalRebuild` changes only the data. -/
theorem internalRebuild_eq (fault : Option ZkError) (st : Store) :
    ∃ err d, c.internalRebuild fault st = (err, { c with data := d }) := by
  unfold internalRebuild
  split
  · exact ⟨none, _, rfl⟩
  · exact ⟨none, none, rfl⟩
  · exact ⟨some _, c.data, rfl⟩

/-- The first `StartAndInitalize`. -/
theorem startAndInitalize_of_latent (h : c.state = .latent) (buildInitial : Bool)
    (ensure fault : Option ZkError) (st : Store) :
    c.startAndInitalize buildInitial ensure fault st =
      match ensure with
      | some e => (some e, { c with state := .started }, [])
      | none =>
        let c' : NodeCache := { c with state := .started, listening := true }
        if buildInitial then
          match c'.internalRebuild fault st with
          | (some e, c'') => (some e, c'', [])
          | (none, c'') => (none, c'', c''.reset)
        else (none, c', c'.reset) := by
  unfold startAndInitalize
  rw [State.change_of_eq h]
  rfl

/-- Every later `StartAndInitalize` fails and changes nothing. -/
theorem startAndInitalize_of_started (h : c.state ≠ .latent) (buildInitial : Bool)
    (ensure fault : Option ZkError) (st : Store) :
    c.startAndInitalize buildInitial ensure fault st =
      (some (.message "Cannot be started more than once"), c, []) := by
  unfold startAndInitalize
  rw [State.change_of_ne h]
  rfl

/-- `StartAndInitalize` leaves the cache's view of the connection alone and
the cache out of `LATENT`; a cache that had left `LATENT` keeps its data and
starts nothing. -/
theorem startAndInitalize_frame (buildInitial : Bool) (ensure fault : Option ZkError)
    (st : Store) :
    (c.startAndInitalize buildInitial ensure fault st).2.1.isConnected = c.isConnected ∧
      (c.startAndInitalize buildInitial ensure fault st).2.1.state ≠ .latent ∧
      (c.state ≠ .latent → (c.startAndInitalize buildInitial ensure fault st).2.1.data = c.data ∧
        (c.startAndInitalize buildInitial ensure fault st).2.2 = []) := by
  by_cases hs : c.state = .latent
  · rw [c.startAndInitalize_of_latent hs]
    refine ⟨?_, ?_, fun h => absurd hs h⟩ <;> cases ensure with
    | some e => simp
    | none =>
      cases buildInitial with
      | false => simp
      | true =>
        obtain ⟨err, d, hr⟩ := internalRebuild_eq
          ({ c with state := .started, listening := true } : NodeCache) fault st
        simp only [hr, if_true]
        cases err <;> simp
  · rw [c.startAndInitalize_of_started hs]
    exact ⟨rfl, hs, fun _ => ⟨rfl, rfl⟩⟩

/-- What `StartAndInitalize` leaves to run: nothing, or the reset of a cache
with the same view of the connection. -/
theorem startAndInitalize_tasks (buildInitial : Bool) (ensure fault : Option ZkError)
    (st : Store) :
    (c.startAndInitalize buildInitial ensure fault st).2.2 = [] ∨
      ∃ c' : NodeCache, c'.isConnected = c.isConnected ∧
        (c.startAndInitalize buildInitial ensure fault st).2.2 = c'.reset := by
  by_cases hs : c.state = .latent
  · rw [c.startAndInitalize_of_latent hs]
    cases ensure with
    | some e => exact .inl rfl
    | none =>
      cases buildInitial with
      | false => exact .inr ⟨{ c with state := .started, listening := true }, rfl, rfl⟩
      | true =>
        obtain ⟨err, d, hr⟩ := internalRebuild_eq
          ({ c with state := .started, listening := true } : NodeCache) fault st
        simp only [hr, if_true]
        cases err with
        | some e => exact .inl rfl
        | none => exact .inr ⟨{ c with state := .started, listening := true, data := d }, rfl, rfl⟩
  · rw [c.startAndInitalize_of_started hs]
    exact .inl rfl

theorem startAndInitalize_tasks_of_disconnected (h : c.isConnected = false) (buildInitial : Bool)
    (ensure fault : Option ZkError) (st : Store) :
    (c.startAndInitalize buildInitial ensure fault st).2.2 = [] := by
  rcases c.startAndInitalize_tasks buildInitial ensure fault st with hnil | ⟨c', hc', hreset⟩
  · exact hnil
  · rw [hreset]
    exact c'.reset_of_disconnected (hc'.trans h)

/-- `Start()` leaves the data as it was. -/
theorem start_data (ensure : Option ZkError) (st : Store) : (c.start ensure st).2.1.data = c.data := by
  by_cases hs : c.state = .latent
  · rw [start, c.startAndInitalize_of_latent hs]
    cases ensure <;> rfl
  · rw [start, c.startAndInitalize_of_started hs]

theorem close_state_ne_latent (h : c.state ≠ .latent) : c.close.state ≠ .latent := by
  have hr : c.state.change .started .stopped = (.stopped, true) ∨
      c.state.change .started .stopped = (c.state, false) := by
    by_cases hs : c.state = .started
    · exact .inl (State.change_of_eq hs)
    · exact .inr (State.change_of_ne hs)
  rcases hr with hr | hr <;> simp [close, hr, h]

/-- A reset queues no report of a missing node. -/
theorem reset_reportsMissing : ∀ t ∈ c.reset, t.reportsMissing = false := by
  unfold reset
  split <;> simp [CacheTask.reportsMissing]

/-- The connection state listener changes only the cache's view of the
connection, and queues at most a reset. -/
theorem stateChanged_frame (newState : ConnectionState) :
    (c.stateChanged newState).1.state = c.state ∧ (c.stateChanged newState).1.data = c.data ∧
      ∀ t ∈ (c.stateChanged newState).2, t.reportsMissing = false := by
  unfold stateChanged
  split
  · split
    · exact ⟨rfl, rfl, reset_reportsMissing _⟩
    · exact ⟨rfl, rfl, by simp⟩
  · exact ⟨rfl, rfl, by simp⟩

theorem processBackgroundResult_state (event : CuratorEvent) :
    (c.processBackgroundResult event).1.state = c.state := by
  unfold processBackgroundResult
  split <;> split <;> rfl

/-- A callback queues at most a `GetData`. -/
theorem processBackgroundResult_reportsMissing (event : CuratorEvent) :
    ∀ t ∈ (c.processBackgroundResult event).2, t.reportsMissing = false := by
  unfold processBackgroundResult
  split <;> split <;> simp [CacheTask.reportsMissing]

/-- Only the callback that reports the node missing clears the data. -/
theorem processBackgroundResult_data_isSome {event : CuratorEvent}
    (h : (CacheTask.callback event).reportsMissing = false) (hd : c.data.isSome) :
    (c.processBackgroundResult event).1.data.isSome := by
  unfold processBackgroundResult
  split
  · split
    · rfl
    · exact hd
  · split
    · simp [CacheTask.reportsMissing] at h
    · exact hd
    · exact hd

end NodeCache

namespace CacheWorld

theorem runTask_state (w : CacheWorld) (fault : Option ZkError) (t : CacheTask) :
    (w.runTask fault t).cache.state = w.cache.state := by
  cases t with
  | callback event => exact w.cache.processBackgroundResult_state event
  | _ => rfl

/-- A task queues no report of a missing node unless its request fails with a
made-up `ErrNoNode`: `CheckExists` answers `(nil, nil)` for a missing node. -/
theorem runTask_reportsMissing (w : CacheWorld) {fault : Option ZkError}
    (hf : fault ≠ some .errNoNode) (h : ∀ t ∈ w.tasks, t.reportsMissing = false)
    (t : CacheTask) : ∀ t' ∈ (w.runTask fault t).tasks, t'.reportsMissing = false := by
  cases t with
  | notify => exact List.forall_mem_append.mpr ⟨h, w.cache.reset_reportsMissing⟩
  | checkExists =>
    refine List.forall_mem_append.mpr ⟨h, ?_⟩
    intro t ht
    rw [List.mem_singleton.mp ht]
    cases fault with
    | none => rfl
    | some e => cases e <;> first | rfl | exact absurd rfl hf
  | getData =>
    refine List.forall_mem_append.mpr ⟨h, ?_⟩
    intro t ht
    rw [List.mem_singleton.mp ht]
    rfl
  | callback event =>
    exact List.forall_mem_append.mpr ⟨h, w.cache.processBackgroundResult_reportsMissing event⟩

theorem runTask_data_isSome (w : CacheWorld) (fault : Option ZkError) {t : CacheTask}
    (ht : t.reportsMissing = false) (hd : w.cache.data.isSome) :
    (w.runTask fault t).cache.data.isSome := by
  cases t with
  | callback event => exact w.cache.processBackgroundResult_data_isSome ht hd
  | _ => exact hd

/-- The cache's state never goes back to `LATENT`. -/
theorem state_ne_latent_step {w : CacheWorld} (h : w.cache.state ≠ .latent) (e : CacheAction) :
    (w.step e).cache.state ≠ .latent := by
  cases e with
  | startAndInitalize buildInitial ensure fault =>
    exact (w.cache.startAndInitalize_frame buildInitial ensure fault w.store).2.1
  | close => exact w.cache.close_state_ne_latent h
  | stateChanged newState =>
    simp only [step]
    split
    · rw [(w.cache.stateChanged_frame newState).1]
      exact h
    · exact h
  | change op =>
    simp only [step]
    split <;> exact h
  | run k fault =>
    simp only [step]
    split
    · rw [runTask_state]
      exact h
    · exact h

/-! ### A cache started on a framework that stays connected -/

/-- Nothing in flight: the cache thinks itself disconnected, and no
notification, request, callback or watch is pending. -/
structure Idle (w : CacheWorld) : Prop where
  disconnected : w.cache.isConnected = false
  noTasks : w.tasks = []
  noWatches : w.watches = 0

/-- Without a change of the connection's state, an idle world stays idle, and
once started the cache keeps its data. -/
theorem Idle.step {w : CacheWorld} (h : w.Idle) {e : CacheAction}
    (he : e.isStateChanged = false) :
    (w.step e).Idle ∧ (w.cache.state ≠ .latent → (w.step e).cache.data = w.cache.data) := by
  cases e with
  | startAndInitalize buildInitial ensure fault =>
    obtain ⟨hconn, -, hdata⟩ := w.cache.startAndInitalize_frame buildInitial ensure fault w.store
    refine ⟨⟨?_, ?_, h.noWatches⟩, fun hs => (hdata hs).1⟩
    · rw [← h.disconnected]
      exact hconn
    · simp only [CacheWorld.step]
      rw [h.noTasks, w.cache.startAndInitalize_tasks_of_disconnected h.disconnected]
      rfl
  | close => exact ⟨⟨h.disconnected, h.noTasks, h.noWatches⟩, fun _ => rfl⟩
  | stateChanged newState => cases he
  | change op =>
    simp only [CacheWorld.step]
    split
    · refine ⟨⟨h.disconnected, ?_, rfl⟩, fun _ => rfl⟩
      rw [h.noTasks, h.noWatches]
      rfl
    · exact ⟨h, fun _ => rfl⟩
  | run k fault =>
    have hk : w.tasks[k]? = none := by simp [h.noTasks]
    rw [CacheWorld.step, hk]
    exact ⟨h, fun _ => rfl⟩

/-- Over every run without a change of the connection's state, an idle world
stays idle, and a started cache keeps its data. -/
theorem idle_foldl : ∀ (es : List CacheAction) {w : CacheWorld}, w.Idle →
    (∀ e ∈ es, e.isStateChanged = false) →
      (es.foldl step w).Idle ∧
        (w.cache.state ≠ .latent → (es.foldl step w).cache.data = w.cache.data)
  | [], _, h, _ => ⟨h, fun _ => rfl⟩
  | e :: es, w, h, hes => by
    obtain ⟨hstep, hdata⟩ := h.step (hes e List.mem_cons_self)
    obtain ⟨hrun, hrest⟩ := idle_foldl es hstep (fun e' he' => hes e' (List.mem_cons_of_mem e he'))
    refine ⟨hrun, fun hs => ?_⟩
    rw [List.foldl_cons, hrest (state_ne_latent_step hs e), hdata hs]

/-- `Start()` on a framework whose state never changes afterwards: whatever
else happens to the node, nothing is ever pending and the cache holds no
data. -/
theorem start_on_connected_framework_never_reads (st : Store) (path : GoString)
    (ensure : Option ZkError) (es : List CacheAction) (hes : ∀ e ∈ es, e.isStateChanged = false) :
    (es.foldl step ((init st path).step (.startAndInitalize false ensure none))).tasks = [] ∧
      (es.foldl step ((init st path).step (.startAndInitalize false ensure none))).cache.data =
        none := by
  have hinit : (init st path).Idle := ⟨rfl, rfl, rfl⟩
  have hstart := hinit.step (e := .startAndInitalize false ensure none) rfl
  obtain ⟨hidle, hdata⟩ := idle_foldl es hstart.1 hes
  refine ⟨hidle.noTasks, ?_⟩
  rw [hdata ((newNodeCache path).startAndInitalize_frame false ensure none st).2.1]
  exact (newNodeCache path).start_data ensure st

/-- `/n` holds `[1]`; the framework is connected before `Start()` and stays
connected. -/
theorem nodeCache_start_connected_unsettled :
    let st : Store := ⟨[(pathSeparator, ⟨[], 0⟩), ("/n".toList, ⟨[1], 0⟩)], []⟩
    let w := (init st "/n".toList).step (.startAndInitalize false none none)
    ((newNodeCache "/n".toList).start none st).1 = none ∧ w.tasks = [] ∧
      w.current = some ⟨"/n".toList, ⟨0⟩, [1]⟩ ∧ ¬ w.Settled := by
  decide

/-! ### A missing node is never reported -/

/-- No task added by a step reports the node missing. -/
theorem reportsMissing_step {w : CacheWorld} (h : ∀ t ∈ w.tasks, t.reportsMissing = false)
    {e : CacheAction} (he : e.injectsNoNode = false) :
    ∀ t ∈ (w.step e).tasks, t.reportsMissing = false := by
  cases e with
  | startAndInitalize buildInitial ensure fault =>
    refine List.forall_mem_append.mpr ⟨h, ?_⟩
    rcases w.cache.startAndInitalize_tasks buildInitial ensure fault w.store with
      hnil | ⟨c', -, hc'⟩
    · rw [hnil]
      simp
    · rw [hc']
      exact c'.reset_reportsMissing
  | close => exact h
  | stateChanged newState =>
    simp only [step]
    split
    · exact List.forall_mem_append.mpr ⟨h, (w.cache.stateChanged_frame newState).2.2⟩
    · exact h
  | change op =>
    simp only [step]
    split
    · refine List.forall_mem_append.mpr ⟨h, fun t ht => ?_⟩
      rw [(List.mem_replicate.mp ht).2]
      rfl
    · exact h
  | run k fault =>
    have hf : fault ≠ some .errNoNode := by
      rintro rfl
      cases he
    simp only [step]
    split
    · exact runTask_reportsMissing _ hf (fun t ht => h t (List.mem_of_mem_eraseIdx ht)) _
    · exact h

/-- A started cache that holds data holds data after every step. -/
theorem data_isSome_step {w : CacheWorld} (hs : w.cache.state ≠ .latent)
    (hd : w.cache.data.isSome) (h : ∀ t ∈ w.tasks, t.reportsMissing = false) (e : CacheAction) :
    (w.step e).cache.data.isSome := by
  cases e with
  | startAndInitalize buildInitial ensure fault =>
    simp only [step]
    rw [((w.cache.startAndInitalize_frame buildInitial ensure fault w.store).2.2 hs).1]
    exact hd
  | close => exact hd
  | stateChanged newState =>
    simp only [step]
    split
    · rw [(w.cache.stateChanged_frame newState).2.1]
      exact hd
    · exact hd
  | change op =>
    simp only [step]
    split <;> exact hd
  | run k fault =>
    simp only [step]
    split
    · next t ht =>
      exact runTask_data_isSome _ fault (h t (List.mem_of_getElem? ht)) hd
    · exact hd

/-- Over every run in which no request fails with a made-up `ErrNoNode`, a
started cache that holds data holds data for ever, whatever becomes of the
node. -/
theorem data_isSome_foldl : ∀ (es : List CacheAction) {w : CacheWorld},
    w.cache.state ≠ .latent → w.cache.data.isSome → (∀ t ∈ w.tasks, t.reportsMissing = false) →
      (∀ e ∈ es, e.injectsNoNode = false) → (es.foldl step w).cache.data.isSome
  | [], _, _, hd, _, _ => hd
  | e :: es, w, hs, hd, h, hes => by
    have he := hes e List.mem_cons_self
    exact data_isSome_foldl es (state_ne_latent_step hs e) (data_isSome_step hs hd h e)
      (reportsMissing_step h he) (fun e' he' => hes e' (List.mem_cons_of_mem e he'))

/-- A reconnection opens the gate and the cache reads `[1]`; then `/n` is
deleted and every notification, request and callback runs: the cache still
holds `[1]`. -/
example :
    let st : Store := ⟨[(pathSeparator, ⟨[], 0⟩), ("/n".toList, ⟨[1], 0⟩)], []⟩
    let w := ([.startAndInitalize false none none, .stateChanged .reconnected, .run 0 none,
      .run 0 none, .run 0 none, .run 0 none, .change .delete, .run 0 none, .run 0 none,
      .run 0 none, .run 0 none, .run 0 none, .run 0 none, .run 0 none, .run 0 none,
      .run 0 none, .run 0 none] : List CacheAction).foldl step (init st "/n".toList)
    w.tasks = [] ∧ w.current = none ∧ w.cache.data = some ⟨"/n".toList, ⟨0⟩, [1]⟩ := by
  decide

end CacheWorld

/-! ### The cache holds only versions the node had -/

/-- The data and stat a pending `GetData` callback carries. -/
def CacheTask.readData : CacheTask → Option (Bytes × Stat)
  | .callback (.getData (.ok r)) => some r
  | _ => none

/-- A `Get` that answers, through a fault or not, answers the stored node. -/
theorem Store.withFault_get_of_ok {st : Store} {fault : Option ZkError} {path : GoString}
    {data : Bytes} {stat : Stat} (h : (st.withFault fault fun st => st.get path).1 = .ok (data, stat)) :
    ∃ n, st.lookup path = some n ∧ n.data = data ∧ n.stat = stat := by
  cases fault with
  | some e => cases h
  | none =>
    simp only [Store.withFault, Store.get] at h
    split at h
    · cases h
    · next n hn =>
      cases h
      exact ⟨n, hn, rfl, rfl⟩

namespace NodeCache

variable (c : NodeCache)

/-- What the cache on `c.path` would hold of `st`. -/
theorem internalRebuild_data {fault : Option ZkError} {st : Store} {d : ChildData}
    (h : (c.internalRebuild fault st).2.data = some d) :
    c.data = some d ∨
      (st.lookup c.path).map (fun n => (⟨c.path, n.stat, n.data⟩ : ChildData)) = some d := by
  unfold internalRebuild at h
  split at h
  · next data stat hget =>
    obtain ⟨n, hn, rfl, rfl⟩ := Store.withFault_get_of_ok hget
    exact .inr (by rw [hn]; exact h)
  · cases h
  · exact .inl h

theorem startAndInitalize_data {buildInitial : Bool} {ensure fault : Option ZkError} {st : Store}
    {d : ChildData} (h : (c.startAndInitalize buildInitial ensure fault st).2.1.data = some d) :
    c.data = some d ∨
      (st.lookup c.path).map (fun n => (⟨c.path, n.stat, n.data⟩ : ChildData)) = some d := by
  by_cases hs : c.state = .latent
  · rw [c.startAndInitalize_of_latent hs] at h
    cases ensure with
    | some e => exact .inl h
    | none =>
      cases buildInitial with
      | false => exact .inl h
      | true =>
        let c' : NodeCache := { c with state := .started, listening := true }
        have hr : ∀ err c'', c'.internalRebuild fault st = (err, c'') → c''.data = some d →
            c.data = some d ∨
              (st.lookup c.path).map (fun n => (⟨c.path, n.stat, n.data⟩ : ChildData)) = some d :=
          fun err c'' heq hd => c'.internalRebuild_data (by rw [heq]; exact hd)
        simp only [if_true] at h
        split at h
        · next e c'' heq => exact hr _ _ heq h
        · next c'' heq => exact hr _ _ heq h
  · rw [c.startAndInitalize_of_started hs] at h
    exact .inl h

theorem startAndInitalize_path (buildInitial : Bool) (ensure fault : Option ZkError) (st : Store) :
    (c.startAndInitalize buildInitial ensure fault st).2.1.path = c.path := by
  by_cases hs : c.state = .latent
  · rw [c.startAndInitalize_of_latent hs]
    cases ensure with
    | some e => rfl
    | none =>
      cases buildInitial with
      | false => rfl
      | true =>
        obtain ⟨err, d, hr⟩ := internalRebuild_eq
          ({ c with state := .started, listening := true } : NodeCache) fault st
        simp only [hr, if_true]
        cases err <;> rfl
  · rw [c.startAndInitalize_of_started hs]

/-- A callback stores only the data of the `GetData` answer it carries. -/
theorem processBackgroundResult_data {event : CuratorEvent} {d : ChildData}
    (h : (c.processBackgroundResult event).1.data = some d) :
    c.data = some d ∨ ∃ r, (CacheTask.callback event).readData = some r ∧ d = ⟨c.path, r.2, r.1⟩ := by
  unfold processBackgroundResult at h
  split at h
  · split at h
    · next data stat => exact .inr ⟨(data, stat), rfl, (Option.some.inj h).symm⟩
    · exact .inl h
  · split at h
    · cases h
    · exact .inl h
    · exact .inl h

theorem processBackgroundResult_path (event : CuratorEvent) :
    (c.processBackgroundResult event).1.path = c.path := by
  unfold processBackgroundResult
  split <;> split <;> rfl

theorem stateChanged_path (newState : ConnectionState) : (c.stateChanged newState).1.path = c.path := by
  unfold stateChanged
  split
  · split <;> rfl
  · rfl

theorem reset_readData : ∀ t ∈ c.reset, t.readData = none := by
  unfold reset
  split <;> simp [CacheTask.readData]

theorem processBackgroundResult_readData (event : CuratorEvent) :
    ∀ t ∈ (c.processBackgroundResult event).2, t.readData = none := by
  unfold processBackgroundResult
  split <;> split <;> simp [CacheTask.readData]

theorem stateChanged_readData (newState : ConnectionState) :
    ∀ t ∈ (c.stateChanged newState).2, t.readData = none := by
  unfold stateChanged
  split
  · split
    · exact reset_readData _
    · simp
  · simp

theorem startAndInitalize_readData (buildInitial : Bool) (ensure fault : Option ZkError) (st : Store) :
    ∀ t ∈ (c.startAndInitalize buildInitial ensure fault st).2.2, t.readData = none := by
  rcases c.startAndInitalize_tasks buildInitial ensure fault st with hnil | ⟨c', -, hc'⟩
  · simp [hnil]
  · rw [hc']
    exact c'.reset_readData

end NodeCache

namespace CacheWorld

variable {w : CacheWorld} {seen seen' : Option ChildData → Prop}

/-- Every version of the node that matters is in `seen`: the node as the
server holds it now, the data the cache holds, and the data of every pending
`GetData` answer. -/
structure SeenBy (seen : Option ChildData → Prop) (w : CacheWorld) : Prop where
  current : seen w.current
  data : ∀ d, w.cache.data = some d → seen (some d)
  reads : ∀ t ∈ w.tasks, ∀ r, t.readData = some r → seen (some ⟨w.cache.path, r.2, r.1⟩)

theorem SeenBy.mono (h : w.SeenBy seen) (hsub : ∀ x, seen x → seen' x) : w.SeenBy seen' :=
  ⟨hsub _ h.current, fun d hd => hsub _ (h.data d hd), fun t ht r hr => hsub _ (h.reads t ht r hr)⟩

/-- A world that keeps the store and the cache's path, whose data is in `seen`,
and whose tasks are the old ones and some new ones that read only what is in
`seen`. -/
theorem SeenBy.of_append (h : w.SeenBy seen) {w' : CacheWorld} {new : List CacheTask}
    (hstore : w'.store = w.store) (hpath : w'.cache.path = w.cache.path)
    (hdata : ∀ d, w'.cache.data = some d → seen (some d)) (htasks : w'.tasks = w.tasks ++ new)
    (hnew : ∀ t ∈ new, ∀ r, t.readData = some r → seen (some ⟨w.cache.path, r.2, r.1⟩)) :
    w'.SeenBy seen := by
  have hcur : w'.current = w.current := by rw [CacheWorld.current, CacheWorld.current, hstore, hpath]
  refine ⟨hcur ▸ h.current, hdata, fun t ht r hr => ?_⟩
  rw [hpath]
  rw [htasks] at ht
  rcases List.mem_append.mp ht with ht | ht
  · exact h.reads t ht r hr
  · exact hnew t ht r hr

/-- A task keeps the server's store and the cache's path. -/
theorem runTask_frame (w : CacheWorld) (fault : Option ZkError) (t : CacheTask) :
    (w.runTask fault t).store = w.store ∧ (w.runTask fault t).cache.path = w.cache.path := by
  cases t with
  | callback event => exact ⟨rfl, w.cache.processBackgroundResult_path event⟩
  | _ => exact ⟨rfl, rfl⟩

theorem step_path (w : CacheWorld) (e : CacheAction) : (w.step e).cache.path = w.cache.path := by
  cases e with
  | startAndInitalize buildInitial ensure fault =>
    exact w.cache.startAndInitalize_path buildInitial ensure fault w.store
  | close => rfl
  | stateChanged newState =>
    simp only [step]
    split
    · exact w.cache.stateChanged_path newState
    · rfl
  | change op =>
    simp only [step]
    split <;> rfl
  | run k fault =>
    simp only [step]
    split
    · exact (runTask_frame _ fault _).2
    · rfl

/-- New tasks that read nothing. -/
theorem readData_none_seen {new : List CacheTask} (hnew : ∀ t ∈ new, t.readData = none)
    (path : GoString) : ∀ t ∈ new, ∀ r, t.readData = some r → seen (some ⟨path, r.2, r.1⟩) := by
  intro t ht r hr
  rw [hnew t ht] at hr
  cases hr

/-- The answer of a `GetData` request is the node as the server holds it. -/
theorem SeenBy.getData_read (h : w.SeenBy seen) (fault : Option ZkError) :
    ∀ t ∈ [CacheTask.callback (.getData (w.store.withFault fault fun st => st.get w.cache.path).1)],
      ∀ r, t.readData = some r → seen (some ⟨w.cache.path, r.2, r.1⟩) := by
  intro t ht r hr
  rw [List.mem_singleton.mp ht] at hr
  cases hget : (w.store.withFault fault fun st => st.get w.cache.path).1 with
  | error e =>
    rw [hget] at hr
    cases hr
  | ok r' =>
    rw [hget] at hr
    obtain ⟨data, stat⟩ := r'
    simp only [CacheTask.readData, Option.some.injEq] at hr
    subst hr
    obtain ⟨n, hn, hdata, hstat⟩ := Store.withFault_get_of_ok hget
    have hcur : w.current = some ⟨w.cache.path, stat, data⟩ := by
      rw [CacheWorld.current, hn, ← hdata, ← hstat]
      rfl
    exact hcur ▸ h.current

/-- Running a task whose read is in `seen` keeps everything in `seen`. -/
theorem SeenBy.runTask (h : w.SeenBy seen) (fault : Option ZkError) {t : CacheTask}
    (ht : ∀ r, t.readData = some r → seen (some ⟨w.cache.path, r.2, r.1⟩)) :
    (w.runTask fault t).SeenBy seen := by
  cases t with
  | notify =>
    exact h.of_append rfl rfl h.data rfl (readData_none_seen w.cache.reset_readData _)
  | checkExists =>
    exact h.of_append rfl rfl h.data rfl
      (readData_none_seen (fun t ht => by rw [List.mem_singleton.mp ht]; rfl) _)
  | getData => exact h.of_append rfl rfl h.data rfl (h.getData_read fault)
  | callback event =>
    refine h.of_append rfl (w.cache.processBackgroundResult_path event) (fun d hd => ?_) rfl
      (readData_none_seen (w.cache.processBackgroundResult_readData event) _)
    rcases w.cache.processBackgroundResult_data hd with hd | ⟨r, hr, rfl⟩
    · exact h.data d hd
    · exact ht r hr

/-- Every step keeps in `seen` what was there, the node's new version
added. -/
theorem SeenBy.step (h : w.SeenBy seen) (e : CacheAction) :
    (w.step e).SeenBy fun x => seen x ∨ x = (w.step e).current := by
  cases e with
  | startAndInitalize buildInitial ensure fault =>
    have hstep : (w.step (.startAndInitalize buildInitial ensure fault)).SeenBy seen := by
      refine h.of_append rfl (w.cache.startAndInitalize_path buildInitial ensure fault w.store)
        (fun d hd => ?_) rfl
        (readData_none_seen (w.cache.startAndInitalize_readData buildInitial ensure fault w.store) _)
      rcases w.cache.startAndInitalize_data hd with hd | hd
      · exact h.data d hd
      · rw [← hd]
        exact h.current
    exact hstep.mono fun _ hx => .inl hx
  | close => exact ⟨.inl h.current, fun d hd => .inl (h.data d hd), fun t ht r hr => .inl (h.reads t ht r hr)⟩
  | stateChanged newState =>
    simp only [CacheWorld.step]
    split
    · have hstep : ({ w with
          cache := (w.cache.stateChanged newState).1
          tasks := w.tasks ++ (w.cache.stateChanged newState).2 } : CacheWorld).SeenBy seen := by
        refine h.of_append rfl (w.cache.stateChanged_path newState) (fun d hd => ?_) rfl
          (readData_none_seen (w.cache.stateChanged_readData newState) _)
        rw [(w.cache.stateChanged_frame newState).2.1] at hd
        exact h.data d hd
      exact hstep.mono fun _ hx => .inl hx
    · exact h.mono fun _ hx => .inl hx
  | change op =>
    simp only [CacheWorld.step]
    split
    · refine ⟨.inr rfl, fun d hd => .inl (h.data d hd), fun t ht r hr => ?_⟩
      rcases List.mem_append.mp ht with ht | ht
      · exact .inl (h.reads t ht r hr)
      · rw [(List.mem_replicate.mp ht).2] at hr
        cases hr
    · exact h.mono fun _ hx => .inl hx
  | run k fault =>
    simp only [CacheWorld.step]
    split
    · next t hk =>
      have h' : ({ w with tasks := w.tasks.eraseIdx k } : CacheWorld).SeenBy seen :=
        ⟨h.current, h.data, fun t' ht' => h.reads t' (List.mem_of_mem_eraseIdx ht')⟩
      exact (h'.runTask fault (h.reads t (List.mem_of_getElem? hk))).mono fun _ hx => .inl hx
    · exact h.mono fun _ hx => .inl hx

/-- Over a run from a world where only the node's version counts, everything
that counts is a version the node had after some prefix of the run. -/
theorem SeenBy.foldl (w₀ : CacheWorld) (h₀ : w₀.SeenBy (· = w₀.current)) :
    ∀ es : List CacheAction, (es.foldl CacheWorld.step w₀).SeenBy
      fun x => ∃ i ≤ es.length, x = ((es.take i).foldl CacheWorld.step w₀).current := by
  intro es
  induction es using List.reverseRecOn with
  | nil => exact h₀.mono fun x hx => ⟨0, le_refl _, hx⟩
  | append_singleton es e ih =>
    rw [List.foldl_append, List.foldl_cons, List.foldl_nil]
    refine (ih.step e).mono fun x hx => ?_
    rcases hx with ⟨i, hi, rfl⟩ | rfl
    · exact ⟨i, by simp; omega, by rw [List.take_append_of_le_length hi]⟩
    · refine ⟨es.length + 1, by simp, ?_⟩
      rw [List.take_of_length_le (by simp), List.foldl_append, List.foldl_cons, List.foldl_nil]

/-- Over every run of a new cache, whatever the node goes through, whichever
requests fail and in whatever order notifications, requests and callbacks
run: the data the cache holds, with its stat, is a version the node really
had at some point of the run, never one it made up or put together from two
versions. -/
theorem nodeCache_data_was_held (st : Store) (path : GoString) (es : List CacheAction)
    {d : ChildData} (hd : (es.foldl step (init st path)).cache.data = some d) :
    ∃ i ≤ es.length, ((es.take i).foldl step (init st path)).current = some d := by
  have h₀ : (init st path).SeenBy (· = (init st path).current) :=
    ⟨rfl, (fun _ hd => by cases hd), (fun _ ht => by simp [init] at ht)⟩
  obtain ⟨i, hi, hx⟩ := (SeenBy.foldl _ h₀ es).data d hd
  exact ⟨i, hi, hx.symm⟩

/-- The cache reads `[1]`, the node is set to `[2]`, and then the callback
with the old answer runs: the cache holds `[1]`, the node's version before the
change. -/
theorem nodeCache_data_was_held_stale :
    let st : Store := ⟨[(pathSeparator, ⟨[], 0⟩), ("/n".toList, ⟨[1], 0⟩)], []⟩
    let es : List CacheAction := [.startAndInitalize false none none, .stateChanged .reconnected,
      .run 0 none, .run 0 none, .run 0 none, .change (.setData [2]), .run 0 none]
    (es.foldl step (init st "/n".toList)).cache.data = some ⟨"/n".toList, ⟨0⟩, [1]⟩ ∧
      (es.foldl step (init st "/n".toList)).current = some ⟨"/n".toList, ⟨1⟩, [2]⟩ ∧
      ∃ i ≤ es.length, ((es.take i).foldl step (init st "/n".toList)).current =
        some ⟨"/n".toList, ⟨0⟩, [1]⟩ := by
  intro st es
  have hd : (es.foldl step (init st "/n".toList)).cache.data = some ⟨"/n".toList, ⟨0⟩, [1]⟩ := by
    decide
  exact ⟨hd, by decide, nodeCache_data_was_held st "/n".toList es hd⟩

end CacheWorld

end Curator
