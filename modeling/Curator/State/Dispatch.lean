import Curator.Support.GoSpawn
import Curator.State.History
import Curator.State.Process

/-!
# From ZooKeeper events to the framework's calls

A connection that a `zookeeperFactory` dials hands its events to
`NewWatchers(holder.watcher).Watch(events)` (`state.go`, `watcher.go`): for
each event received, `Fire` starts a goroutine running
`connectionState.process(event)`.  Each of those starts one goroutine per
parent watcher (`GoRange`), then applies a session event to `isConnected` in
three steps: the load of `isConnected`, `checkState`, and the store when the
connectedness changed.  The framework's parent watcher hands the event to
`processEvent`, which calls `validateConnection(event.State)`: the
`FrameworkCall.watched` calls of `State.History` and `State.Events`.

`DispatchWorld` is that system, with all its goroutines, in every
interleaving.  With the framework's watcher as the only parent watcher, every
event reaches `validateConnection` once and none is lost
(`dispatch_validates_each_event_once`), but the events of a connection reach
it in every order, whatever the order they arrived in
(`dispatch_validates_in_every_order`): once each `process` has started its
goroutine, those goroutines are the pending messages of a `GoSpawn.Pool`.
-/

namespace Curator

open scoped List

/-- A ZooKeeper event as `process` reads it: whether its type is
`EventSession`, and its state. -/
structure ZkEvent where
  session : Bool
  state : ZkState
  deriving DecidableEq, Repr

/-- Where the session part of `process(event)` is: in the `range` loop, past
the load of `isConnected`, past `checkState`, or at the end of the call. -/
inductive SessionPc where
  | looping
  | loaded (wasConnected : Bool)
  | checked (wasConnected newIsConnected : Bool)
  | done
  deriving DecidableEq, Repr

/-- A goroutine `process(event)` started by `Fire`, with the goroutines its
loop over the parent watchers started. -/
structure ProcessCall where
  event : ZkEvent
  loop : GoRange.RangeGo ParentWatcher
  session : SessionPc
  deriving DecidableEq, Repr

/-- The client's `connectionState`, every `process` goroutine started so far,
in the order their events arrived, and the framework's calls of
`validateConnection`, in the order they were made. -/
structure DispatchWorld where
  conn : ClientConnectionState
  procs : List ProcessCall
  calls : List FrameworkCall

/-- What happens next: the next event arrives and `Fire` starts its
`process`; the `p`-th `process` takes the next iteration of its loop; the
`k`-th goroutine that loop started and has not run calls its watcher; or the
`p`-th `process` takes the next step of its session part, at clock time `now`
and with the ensemble provider's connection string. -/
inductive DispatchAction where
  | deliver (e : ZkEvent)
  | iterate (p : ℕ)
  | runWatcher (p k : ℕ)
  | session (p : ℕ) (now : Duration) (connStr : GoString)
  deriving DecidableEq, Repr

namespace ProcessCall

/-- The `validateConnection` call that the goroutines of `c` have made through
the framework's watcher, once one of them has run. -/
def validated (c : ProcessCall) : Option FrameworkCall :=
  if c.loop.ran = [] then none else some (.watched c.event.state)

/-- The goroutine of `c` that runs the framework's watcher, as a message of
`GoSpawn.Pool`: the call it is to make, while it has not run. -/
def spawned (c : ProcessCall) : Option FrameworkCall :=
  if c.loop.pending = [] then none else some (.watched c.event.state)

end ProcessCall

namespace DispatchWorld

/-- A connection dialed on `connectionState` `s`, before its first event. -/
def init (s : ClientConnectionState) : DispatchWorld := ⟨s, [], []⟩

/-- `Watch` receives `e`, and `Fire` starts `process(e)` over the parent
watchers `watchers`. -/
def deliver (w : DispatchWorld) (watchers : List ParentWatcher) (e : ZkEvent) : DispatchWorld :=
  { w with procs := w.procs ++ [⟨e, .start watchers, .looping⟩] }

/-- The next iteration of the loop of the `p`-th `process`. -/
def iterate (w : DispatchWorld) (p : ℕ) : DispatchWorld :=
  match w.procs[p]? with
  | some c => { w with procs := w.procs.set p { c with loop := c.loop.iterate } }
  | none => w

/-- A goroutine of the `p`-th `process` calls the watcher its closure reads;
the framework's watcher has `processEvent` validate the event's state. -/
def runWatcher (w : DispatchWorld) (p k : ℕ) : DispatchWorld :=
  match w.procs[p]? with
  | some c =>
    match c.loop.runGoroutine k with
    | (some (_, x), loop) =>
      { w with
        procs := w.procs.set p { c with loop := loop },
        calls := if x = .framework then w.calls ++ [.watched c.event.state] else w.calls }
    | (none, _) => w
  | none => w

/-- The next step of the session part of the `p`-th `process`, once its loop
is over: the load of `isConnected` for a session event, `checkState`, then the
store of the new connectedness, with the window restarted, when it differs
from the one loaded. -/
def sessionStep (w : DispatchWorld) (p : ℕ) (now : Duration) (connStr : GoString) :
    DispatchWorld :=
  match w.procs[p]? with
  | some c =>
    match c.session with
    | .looping =>
      if c.loop.Done then
        let session := if c.event.session then SessionPc.loaded w.conn.isConnected else .done
        { w with procs := w.procs.set p { c with session := session } }
      else w
    | .loaded wasConnected =>
      let r := w.conn.checkState c.event.state wasConnected connStr
      { w with conn := r.2, procs := w.procs.set p { c with session := .checked wasConnected r.1 } }
    | .checked wasConnected newIsConnected =>
      let conn := if newIsConnected != wasConnected then
          { w.conn with isConnected := newIsConnected, connectionStart := now }
        else w.conn
      { w with conn := conn, procs := w.procs.set p { c with session := .done } }
    | .done => w
  | none => w

/-- One step, `Fire` starting `process` over the parent watchers
`watchers`. -/
def step (watchers : List ParentWatcher) (w : DispatchWorld) : DispatchAction → DispatchWorld
  | .deliver e => w.deliver watchers e
  | .iterate p => w.iterate p
  | .runWatcher p k => w.runWatcher p k
  | .session p now connStr => w.sessionStep p now connStr

/-- The events of a connection dialed on `s`, with every interleaving of the
goroutines they start. -/
def system (watchers : List ParentWatcher) (s : ClientConnectionState) :
    TransitionSystem.System DispatchWorld DispatchAction :=
  .ofFun (init s) (step watchers)

/-! ### No event lost or validated twice -/

/-- What holds whatever the interleaving, with the framework's watcher the
only parent watcher: the loop of each `process` keeps its invariant over that
one watcher, and the calls of `validateConnection` are, up to order, those of
the `process` goroutines whose watcher goroutine ran. -/
structure Invariant (w : DispatchWorld) : Prop where
  loops : ∀ c ∈ w.procs, c.loop.Invariant ∧ c.loop.items = [.framework]
  calls : w.calls ~ w.procs.filterMap ProcessCall.validated

variable {w : DispatchWorld}

theorem invariant_init (s : ClientConnectionState) : (init s).Invariant where
  loops _ h := by cases h
  calls := List.Perm.refl _

/-- Replacing the `p`-th `process` by one with a loop as good and the same
call made keeps the invariant, whatever happens to the connection state. -/
theorem Invariant.set (h : w.Invariant) {p : ℕ} {c : ProcessCall} (hp : w.procs[p]? = some c)
    (c' : ProcessCall) (hloop : c'.loop.Invariant ∧ c'.loop.items = [.framework]) (hv : c'.validated = c.validated)
    (conn : ClientConnectionState) : (⟨conn, w.procs.set p c', w.calls⟩ : DispatchWorld).Invariant where
  loops := GoSpawn.forall_mem_set h.loops p hloop
  calls := by
    have hperm := GoSpawn.filterMap_set_perm ProcessCall.validated hp c'
    rw [hv] at hperm
    exact h.calls.trans ((List.perm_append_right_iff _).mp hperm).symm

/-- Over one parent watcher, the loop starts one goroutine, pending or run. -/
theorem pending_add_ran_le_one {r : GoRange.RangeGo ParentWatcher} (hr : r.Invariant)
    (hitems : r.items = [.framework]) : r.pending.length + r.ran.length ≤ 1 := by
  have hle := hr.index_le
  rw [hitems, List.length_singleton] at hle
  rw [hr.count]
  exact hle

/-- One parent watcher: a goroutine of the loop can run only while none has. -/
theorem ran_eq_nil_of_pending {r : GoRange.RangeGo ParentWatcher} (hr : r.Invariant)
    (hitems : r.items = [.framework]) {k i : ℕ} (hk : r.pending[k]? = some i) : r.ran = [] := by
  have hlen : 0 < r.pending.length :=
    Nat.lt_of_le_of_lt (Nat.zero_le k) (List.getElem?_eq_some_iff.mp hk).1
  have hone := pending_add_ran_le_one hr hitems
  exact List.eq_nil_of_length_eq_zero (by omega)

theorem Invariant.deliver (h : w.Invariant) (e : ZkEvent) :
    (w.deliver [.framework] e).Invariant where
  loops c hc := by
    rcases List.mem_append.mp hc with hc | hc
    · exact h.loops c hc
    · rw [List.mem_singleton.mp hc]
      exact ⟨GoRange.RangeGo.invariant_start _, rfl⟩
  calls := by
    simpa [DispatchWorld.deliver, List.filterMap_append, ProcessCall.validated, GoRange.RangeGo.start] using h.calls

theorem Invariant.iterate (h : w.Invariant) (p : ℕ) : (w.iterate p).Invariant := by
  unfold DispatchWorld.iterate
  split
  · next c hc =>
    obtain ⟨hloop, hitems⟩ := h.loops c (List.mem_of_getElem? hc)
    refine h.set hc { c with loop := c.loop.iterate } ⟨hloop.iterate, by rw [GoRange.RangeGo.iterate_items, hitems]⟩ ?_ w.conn
    simp [ProcessCall.validated]
  · exact h

/-- A goroutine that runs calls the framework's watcher, the first and only
time one of its `process` does. -/
theorem Invariant.runWatcher (h : w.Invariant) (p k : ℕ) : (w.runWatcher p k).Invariant := by
  unfold DispatchWorld.runWatcher
  split
  · next c hc =>
    obtain ⟨hloop, hitems⟩ := h.loops c (List.mem_of_getElem? hc)
    split
    · next i x loop hrun =>
      have hread : (c.loop.runGoroutine k).1 = some (i, x) := by rw [hrun]
      obtain ⟨hpend, -, hx, -⟩ := hloop.runGoroutine_read hread
      have hfw : x = .framework := by
        rw [hitems] at hx
        exact (List.mem_singleton.mp (List.mem_of_getElem? hx))
      have hnil := ran_eq_nil_of_pending hloop hitems hpend
      have hloop' : loop = { c.loop with pending := c.loop.pending.eraseIdx k, ran := [(i, x)] } := by
        have := GoRange.RangeGo.runGoroutine_of_some hread
        rw [hrun, hnil] at this
        exact this
      have hran : loop.ran = [(i, x)] := by rw [hloop']
      have hinv : loop.Invariant := by
        have := hloop.runGoroutine k
        rw [hrun] at this
        exact this
      have hperm := GoSpawn.filterMap_set_perm ProcessCall.validated hc { c with loop := loop }
      simp only [ProcessCall.validated, hnil, hran, List.cons_ne_nil, ↓reduceIte,
        Option.toList_some, Option.toList_none, List.append_nil] at hperm
      refine ⟨GoSpawn.forall_mem_set h.loops p ⟨hinv, by rw [hloop']; exact hitems⟩, ?_⟩
      simp only [hfw, if_true]
      exact (h.calls.append_right _).trans hperm.symm
    · exact h
  · exact h

theorem Invariant.sessionStep (h : w.Invariant) (p : ℕ) (now : Duration) (connStr : GoString) :
    (w.sessionStep p now connStr).Invariant := by
  unfold DispatchWorld.sessionStep
  split
  · next c hc =>
    have hloop := h.loops c (List.mem_of_getElem? hc)
    split
    · split
      · exact h.set hc _ (by exact hloop) (by rfl) _
      · exact h
    · exact h.set hc _ (by exact hloop) (by rfl) _
    · exact h.set hc _ (by exact hloop) (by rfl) _
    · exact h
  · exact h

theorem Invariant.step (h : w.Invariant) (e : DispatchAction) :
    (w.step [.framework] e).Invariant := by
  cases e with
  | deliver e => exact h.deliver e
  | iterate p => exact h.iterate p
  | runWatcher p k => exact h.runWatcher p k
  | session p now connStr => exact h.sessionStep p now connStr

theorem invariant_inductive (s : ClientConnectionState) :
    TransitionSystem.Inductive (system [.framework] s) Invariant where
  init := invariant_init s
  step := by
    rintro w e _ hw rfl
    exact hw.step e

/-! ### Every order of the events -/

/-- The goroutines of `w` that run the framework's watcher, as a pool whose
log is the framework's calls. -/
def pool (w : DispatchWorld) : GoSpawn.Pool FrameworkCall := ⟨w.procs.map ProcessCall.spawned, w.calls⟩

/-- The loop over the framework's watcher after its one iteration has one
goroutine pending, and none once that goroutine has run. -/
theorem iterate_start_pending :
    (GoRange.RangeGo.start [ParentWatcher.framework]).iterate.pending = [0] := rfl

theorem runGoroutine_iterate_start_pending :
    ((GoRange.RangeGo.start [ParentWatcher.framework]).iterate.runGoroutine 0).2.pending = [] := rfl

/-- Every `process` has done the one iteration of its loop over the
framework's watcher, and the goroutine it started may have run. -/
def Ready (w : DispatchWorld) : Prop :=
  ∀ c ∈ w.procs, c.loop = (GoRange.RangeGo.start [.framework]).iterate ∨
    c.loop = ((GoRange.RangeGo.start [.framework]).iterate.runGoroutine 0).2

theorem runWatcher_events (w : DispatchWorld) (p k : ℕ) :
    (w.runWatcher p k).procs.map ProcessCall.event = w.procs.map ProcessCall.event := by
  unfold DispatchWorld.runWatcher
  split
  · next c hc =>
    obtain ⟨hp, hget⟩ := List.getElem?_eq_some_iff.mp hc
    split
    · have hself : (w.procs.map ProcessCall.event).set p c.event = w.procs.map ProcessCall.event := by
        rw [← hget, ← List.getElem_map ProcessCall.event]
        · exact List.set_getElem_self _
        · simpa using hp
      simpa only [List.map_set] using hself
    · rfl
  · rfl

theorem foldl_runWatcher_events (w : DispatchWorld) (is : List ℕ) :
    (is.foldl (fun w p => w.runWatcher p 0) w).procs.map ProcessCall.event =
      w.procs.map ProcessCall.event := by
  induction is generalizing w with
  | nil => rfl
  | cons p is ih => rw [List.foldl_cons, ih, runWatcher_events]

/-- On a ready world, the goroutine of the `p`-th `process` running its
watcher is the `p`-th goroutine of the pool running. -/
theorem Ready.runWatcher (h : w.Ready) (p : ℕ) :
    (w.runWatcher p 0).Ready ∧ (w.runWatcher p 0).pool = w.pool.run p := by
  unfold DispatchWorld.runWatcher
  split
  · next c hc =>
    have hslot : w.pool.slots[p]? = some c.spawned := by simp [pool, hc]
    rcases h c (List.mem_of_getElem? hc) with hl | hl
    · have hrun : c.loop.runGoroutine 0 =
          (some (0, .framework), ((GoRange.RangeGo.start [.framework]).iterate.runGoroutine 0).2) := by
        rw [hl]
        rfl
      have hsp : c.spawned = some (.watched c.event.state) := by
        simp [ProcessCall.spawned, hl, iterate_start_pending]
      rw [hsp] at hslot
      simp only [hrun, if_true]
      refine ⟨GoSpawn.forall_mem_set h p (Or.inr rfl), ?_⟩
      rw [GoSpawn.Pool.run_of_pending hslot]
      simp only [pool, List.map_set]
      rfl
    · have hrun : c.loop.runGoroutine 0 = (none, c.loop) := by
        rw [hl]
        rfl
      have hsp : c.spawned = none := by
        simp [ProcessCall.spawned, hl, runGoroutine_iterate_start_pending]
      rw [hsp] at hslot
      simp only [hrun]
      exact ⟨h, (GoSpawn.Pool.run_of_not_pending (Or.inl hslot)).symm⟩
  · next hc =>
    have hslot : w.pool.slots[p]? = none := by simp [pool, hc]
    exact ⟨h, (GoSpawn.Pool.run_of_not_pending (Or.inr hslot)).symm⟩

theorem Ready.foldl_runWatcher (h : w.Ready) (is : List ℕ) :
    (is.foldl (fun w p => w.runWatcher p 0) w).pool = is.foldl GoSpawn.Pool.run w.pool := by
  induction is generalizing w with
  | nil => rfl
  | cons p is ih =>
    obtain ⟨h', hpool⟩ := h.runWatcher p
    rw [List.foldl_cons, List.foldl_cons, ih h', hpool]

/-- The goroutines of `process` calls that have each done their iteration
are all pending, in order. -/
theorem reduceOption_spawned_iterated (evs : List ZkEvent) :
    ((evs.map fun e => (⟨e, (GoRange.RangeGo.start [.framework]).iterate, .looping⟩ : ProcessCall)).map
      ProcessCall.spawned).reduceOption = evs.map (fun e => .watched e.state) := by
  induction evs with
  | nil => rfl
  | cons e evs ih =>
    have hsp : ProcessCall.spawned ⟨e, (GoRange.RangeGo.start [.framework]).iterate, .looping⟩ =
        some (.watched e.state) := by
      simp [ProcessCall.spawned, iterate_start_pending]
    rw [List.map_cons, List.map_cons, hsp, List.reduceOption_cons_of_some, ih, List.map_cons]

/-- An event arrives and its `process` does its one iteration. -/
theorem iterate_deliver (w : DispatchWorld) (e : ZkEvent) :
    (w.deliver [.framework] e).iterate w.procs.length =
      { w with procs := w.procs ++ [⟨e, (GoRange.RangeGo.start [.framework]).iterate, .looping⟩] } := by
  simp [DispatchWorld.iterate, DispatchWorld.deliver]

/-- The events `evs` arrive in this order, each `process` doing its one
iteration before the next event arrives. -/
theorem exists_delivered (s : ClientConnectionState) (evs : List ZkEvent) :
    ∃ w, TransitionSystem.Reachable (system [.framework] s) w ∧
      w.procs = evs.map (fun e => ⟨e, (GoRange.RangeGo.start [.framework]).iterate, .looping⟩) ∧
      w.calls = [] := by
  induction evs using List.reverseRecOn with
  | nil => exact ⟨init s, .init, rfl, rfl⟩
  | append_singleton evs e ih =>
    obtain ⟨w, hw, hprocs, hcalls⟩ := ih
    refine ⟨(w.deliver [.framework] e).iterate w.procs.length, ?_, ?_, ?_⟩
    · exact .step (.iterate w.procs.length) (.step (.deliver e) hw rfl) rfl
    · rw [iterate_deliver, hprocs, List.map_append, List.map_singleton]
    · rw [iterate_deliver]
      exact hcalls

end DispatchWorld

/-- Over every interleaving of the goroutines that `Fire` and `process` start
on a connection, with the framework's watcher the only parent watcher: the
calls of `validateConnection` are, up to order, the states of the events whose
watcher goroutine ran, each once, and no `process` runs its watcher twice. -/
theorem dispatch_validates_each_event_once (s : ClientConnectionState) {w : DispatchWorld}
    (hw : TransitionSystem.Reachable (DispatchWorld.system [.framework] s) w) :
    w.calls ~ w.procs.filterMap ProcessCall.validated ∧ ∀ c ∈ w.procs, c.loop.ran.length ≤ 1 := by
  have h := TransitionSystem.Reachable.of_inductive (DispatchWorld.invariant_inductive s) hw
  refine ⟨h.calls, fun c hc => ?_⟩
  obtain ⟨hloop, hitems⟩ := h.loops c hc
  have hone := DispatchWorld.pending_add_ran_le_one hloop hitems
  omega

/-- Two events: the second's watcher goroutine runs first, so
`validateConnection` sees the states in the other order. -/
theorem dispatch_validates_each_event_once_reordered :
    let w := [DispatchAction.deliver ⟨true, .stateDisconnected⟩, .deliver ⟨true, .stateSyncConnected⟩,
      .iterate 0, .iterate 1, .runWatcher 1 0, .runWatcher 0 0].foldl
      (DispatchWorld.step [.framework]) (DispatchWorld.init (.new 0 60 15 ⟨fun _ _ => none, 0, []⟩))
    w.calls = [.watched .stateSyncConnected, .watched .stateDisconnected] ∧
      (w.calls ~ w.procs.filterMap ProcessCall.validated ∧ ∀ c ∈ w.procs, c.loop.ran.length ≤ 1) :=
  ⟨by decide, dispatch_validates_each_event_once _
    (TransitionSystem.reachable_ofFun_iff.mpr ⟨_, rfl⟩)⟩

open DispatchWorld in
/-- The events of a connection arrive in the order `evs`; for every order
`evs'` of them, the goroutines can run so that the framework validates the
events' states in the order `evs'`: the goroutine of each event is a pending
message of `GoSpawn.Pool`, and the watcher goroutines run in any order. -/
theorem dispatch_validates_in_every_order (s : ClientConnectionState) {evs evs' : List ZkEvent}
    (hperm : evs' ~ evs) :
    ∃ w, TransitionSystem.Reachable (DispatchWorld.system [.framework] s) w ∧
      w.procs.map ProcessCall.event = evs ∧ w.calls = evs'.map (fun e => .watched e.state) := by
  obtain ⟨w₀, hw₀, hprocs, hcalls⟩ := exists_delivered s evs
  have hready : w₀.Ready := by
    intro c hc
    rw [hprocs] at hc
    obtain ⟨e, -, rfl⟩ := List.mem_map.mp hc
    exact Or.inl rfl
  have hpending : w₀.pool.pending = evs.map (fun e => .watched e.state) := by
    rw [GoSpawn.Pool.pending, pool, hprocs]
    exact reduceOption_spawned_iterated evs
  have horder : evs'.map (fun e => FrameworkCall.watched e.state) ~ w₀.pool.pending := by
    rw [hpending]
    exact hperm.map _
  obtain ⟨is, hlog, -⟩ := GoSpawn.Pool.exists_runs horder
  refine ⟨is.foldl (fun w p => w.runWatcher p 0) w₀, ?_, ?_, ?_⟩
  · have hrun : is.foldl (fun w p => w.runWatcher p 0) w₀ =
        (is.map (fun p => DispatchAction.runWatcher p 0)).foldl (step [.framework]) w₀ := by
      rw [List.foldl_map]
      rfl
    rw [hrun]
    exact TransitionSystem.Reachable.foldl hw₀ _
  · rw [foldl_runWatcher_events, hprocs, List.map_map]
    exact List.map_id _
  · show (is.foldl (fun w p => w.runWatcher p 0) w₀).pool.log = _
    rw [hready.foldl_runWatcher, hlog]
    simp [pool, hcalls]

/-- Two events arrive in one order and are validated in the other. -/
theorem dispatch_validates_in_every_order_swapped :
    [(⟨true, .stateSyncConnected⟩ : ZkEvent), ⟨true, .stateDisconnected⟩] ~
        [⟨true, .stateDisconnected⟩, ⟨true, .stateSyncConnected⟩] ∧
      ∃ w, TransitionSystem.Reachable (DispatchWorld.system [.framework]
          (.new 0 60 15 ⟨fun _ _ => none, 0, []⟩)) w ∧
        w.procs.map ProcessCall.event = [⟨true, .stateDisconnected⟩, ⟨true, .stateSyncConnected⟩] ∧
        w.calls = [(⟨true, .stateSyncConnected⟩ : ZkEvent), ⟨true, .stateDisconnected⟩].map
          (fun e => .watched e.state) :=
  ⟨by decide, dispatch_validates_in_every_order _ (by decide)⟩

end Curator
