import Curator.Support.Reachable
import Curator.Support.Region
import Curator.State.HolderSteps

/-!
# Starting and closing the framework

`curatorFramework.Start` and `Close` (`framework.go`) guard the framework's
lifecycle with a compare-and-swap on its `State`, then start, or close, the
connection state manager and the ZooKeeper client in turn.
`curatorZookeeperClient.Start` (`client.go`) guards the client with a
compare-and-swap of its own on `started`, and the client's `Conn` hands out a
connection only while `started` is set.

`FrameworkWorld` is one framework with any number of goroutines calling
`Start`, `Close` and the client's `Conn`, and registering listeners, in every
interleaving.  A call is cut where the code moves from one component to the
next: the check that begins it, then each component's call as one step; the
three calls that reach the client's `connectionState` (its `Start()`, its
`Close()` and `Conn()`) run as the routines of `State.HolderSteps`, one step
per access of the unlocked holder, and a goroutine run alone through one of
them computes the sequential call (`foldl_run_routine`).  Each program point
carries an assertion about the framework's state, the manager's state and the
client's flag (`FrameworkPc.Ok`) that every step of every goroutine keeps.
With it, the bodies of `Start` and of `Close` each run in at most one
goroutine, nothing is started before `Start`, and a started framework has its
manager and its client started.  A `Close` run alone on a started framework
stops the manager, unsets `started` and closes the connection the holder
caches, and no other.  What the races between these calls leave behind is in
`State.Races`.
-/

namespace Curator

theorem ConnectionStateManager.start_of_latent {m : ConnectionStateManager} (h : m.state = .latent) :
    m.start = ({ m with state := .started, events := [] }, none) := by
  simp [ConnectionStateManager.start, h]

theorem ConnectionStateManager.close_state (m : ConnectionStateManager) :
    m.close.state = if m.state = .started then .stopped else m.state := by
  by_cases h : m.state = .started <;> simp [ConnectionStateManager.close, h]

/-- An error `curatorFramework.Start` returns: one `fmt.Errorf` builds from a
text alone, or from a text followed by the `%s` of the error it wraps. -/
inductive FrameworkStartError where
  | message (text : String)
  | wrapped (text : String) (err : ZkError)
  deriving DecidableEq, Repr

/-- A call a goroutine makes: `Start()` or `Close()` of the framework, or
`Conn()` of its ZooKeeper client. -/
inductive LifecycleCall where
  | start
  | close
  | conn
  deriving DecidableEq, Repr

/-- Where a goroutine is: between calls, at a step of `Start`, `Close` or
`Conn` past the check that begins it (in the routine of the client's
`connectionState` for the last steps of each), or returned with the call's
result. -/
inductive FrameworkPc where
  | idle
  | startingManager
  | startingClient
  | startingConnection (p : StartPc)
  | startReturned (err : Option FrameworkStartError)
  | notifyingListeners
  | clearingListeners
  | closingManager
  | closingClient
  | closingConnection (p : CloseAndClearPc)
  | closeReturned (err : Option ZkError)
  | connecting (p : ConnPc)
  | connReturned (result : Except ZkError (Option ConnId))
  deriving DecidableEq, Repr

namespace FrameworkPc

/-- Between calls: the goroutine may begin a new one. -/
def isIdle : FrameworkPc → Bool
  | .idle | .startReturned _ | .closeReturned _ | .connReturned _ => true
  | _ => false

/-- Inside `Start`, past its compare-and-swap. -/
def inStart : FrameworkPc → Bool
  | .startingManager | .startingClient | .startingConnection _ => true
  | _ => false

/-- Inside `Close`, past its compare-and-swap. -/
def inClose : FrameworkPc → Bool
  | .notifyingListeners | .clearingListeners | .closingManager | .closingClient
    | .closingConnection _ => true
  | _ => false

/-- Inside `Conn`, past the client's check. -/
def inConn : FrameworkPc → Bool
  | .connecting _ => true
  | _ => false

/-- The connection the goroutine's routine has dialed and not yet written to
the holder. -/
def held : FrameworkPc → Option ConnId
  | .startingConnection p => p.held
  | .closingConnection p => p.held
  | .connecting p => p.held
  | _ => none

/-- What holds of the framework's state, the manager's state and the client's
`started` flag while a goroutine is at this point.  Inside `Start` the
framework has left `LATENT`; the manager is still `LATENT` before its step and
the flag unset before the client's; while the framework stays `STARTED`, each
step of `Start` has done its work.  Inside `Close` the framework is
`STOPPED`. -/
def Ok : FrameworkPc → State → State → Bool → Prop
  | .startingManager, state, manager, started =>
    state ≠ .latent ∧ manager = .latent ∧ started = false
  | .startingClient, state, manager, started =>
    state ≠ .latent ∧ started = false ∧ (state = .started → manager = .started)
  | .startingConnection _, state, manager, started =>
    state ≠ .latent ∧ (state = .started → manager = .started ∧ started = true)
  | .notifyingListeners, state, _, _ | .clearingListeners, state, _, _
    | .closingManager, state, _, _ | .closingClient, state, _, _
    | .closingConnection _, state, _, _ => state = .stopped
  | .connecting _, state, _, _ => state ≠ .latent
  | _, _, _, _ => True

variable {p : FrameworkPc} {state manager : State} {started : Bool}

theorem ok_of_isIdle (hp : p.isIdle) : p.Ok state manager started := by
  cases p <;> simp only [isIdle, Bool.false_eq_true] at hp <;> trivial

theorem Ok.ne_latent_of_inStart (h : p.Ok state manager started) (hp : p.inStart) :
    state ≠ .latent := by
  cases p <;> simp only [inStart, Bool.false_eq_true] at hp <;> exact h.1

theorem Ok.stopped_of_inClose (h : p.Ok state manager started) (hp : p.inClose) :
    state = .stopped := by
  cases p <;> simp only [inClose, Bool.false_eq_true] at hp <;> exact h

/-- Only `Start`, `Close` and `Conn` past their checks say anything of a
`LATENT` framework, and none of them is reached while it is. -/
theorem Ok.isIdle_of_latent (h : p.Ok .latent manager started) : p.isIdle := by
  cases p with
  | startingManager => exact absurd rfl h.1
  | startingClient => exact absurd rfl h.1
  | startingConnection _ => exact absurd rfl h.1
  | notifyingListeners | clearingListeners | closingManager | closingClient
    | closingConnection _ => cases h
  | connecting _ => exact absurd rfl h
  | idle | startReturned _ | closeReturned _ | connReturned _ => rfl

theorem inStart_of_isIdle (hp : p.isIdle) : p.inStart = false := by
  cases p <;> first | rfl | cases hp

theorem inClose_of_isIdle (hp : p.isIdle) : p.inClose = false := by
  cases p <;> first | rfl | cases hp

theorem inStart_of_inClose (hp : p.inClose) : p.inStart = false := by
  cases p <;> first | rfl | cases hp

theorem inClose_of_inStart (hp : p.inStart) : p.inClose = false := by
  cases p <;> first | rfl | cases hp

theorem ok_of_inClose (hp : p.inClose) : p.Ok .stopped manager started := by
  cases p <;> first | rfl | cases hp

/-- Outside `Start`, what a goroutine knows does not involve the manager or
the client's flag. -/
theorem Ok.congr (h : p.Ok state manager started) (hp : p.inStart = false) (manager' : State)
    (started' : Bool) : p.Ok state manager' started' := by
  cases p <;> first | exact h | cases hp

/-- What holds while the framework is `STARTED` still holds once it is
`STOPPED`. -/
theorem Ok.of_started (h : p.Ok .started manager started) : p.Ok .stopped manager started := by
  cases p with
  | startingManager => exact ⟨State.noConfusion, h.2⟩
  | startingClient => exact ⟨State.noConfusion, h.2.1, fun hs => State.noConfusion hs⟩
  | startingConnection _ => exact ⟨State.noConfusion, fun hs => State.noConfusion hs⟩
  | notifyingListeners | clearingListeners | closingManager | closingClient
    | closingConnection _ => exact State.noConfusion h
  | connecting _ => exact State.noConfusion
  | idle | startReturned _ | closeReturned _ | connReturned _ => trivial

/-- In a `STOPPED` framework a step of `Close` may stop the manager and unset
the flag: what every goroutine knows survives it, as long as a `LATENT`
manager stays `LATENT` and an unset flag unset. -/
theorem Ok.of_stopped (h : p.Ok .stopped manager started) {manager' : State} {started' : Bool}
    (hm : manager = .latent → manager' = .latent) (hb : started = false → started' = false) :
    p.Ok .stopped manager' started' := by
  cases p with
  | startingManager => exact ⟨h.1, hm h.2.1, hb h.2.2⟩
  | startingClient => exact ⟨h.1, hb h.2.1, fun hs => State.noConfusion hs⟩
  | startingConnection _ => exact ⟨h.1, fun hs => State.noConfusion hs⟩
  | _ => exact h

end FrameworkPc

/-- A framework with the goroutines that call it: its state, its connection
state manager, its client's `started` flag and the client's
`connectionState`, its `CuratorListener`s and `UnhandledErrorListener`s, the
listeners that received the `CLOSING` event, in order, and where each
goroutine is. -/
structure FrameworkWorld where
  state : State
  manager : ConnectionStateManager
  started : Bool
  conn : ClientConnectionState
  listeners : List ℕ
  unhandledErrorListeners : List ℕ
  closing : List ℕ
  pcs : ℕ → FrameworkPc

/-- What happens next: goroutine `i` begins a call, or takes its next step at
clock time `now`, or a listener is registered. -/
inductive FrameworkAction where
  | call (i : ℕ) (c : LifecycleCall)
  | run (i : ℕ) (now : Duration)
  | addListener (l : ℕ)
  | addUnhandledErrorListener (l : ℕ)
  deriving DecidableEq, Repr

/-- The goroutine an action moves, if any. -/
def FrameworkAction.goroutine : FrameworkAction → Option ℕ
  | .call i _ | .run i _ => some i
  | .addListener _ | .addUnhandledErrorListener _ => none

namespace FrameworkWorld

/-- `newCuratorFramework`: nothing started, no listener, and the client's
`connectionState` as `newConnectionState` builds it at clock time `now`. -/
def init (now sessionTimeout connectionTimeout : Duration) (dialer : Dialer) : FrameworkWorld :=
  ⟨.latent, ConnectionStateManager.new, false,
    ClientConnectionState.new now sessionTimeout connectionTimeout dialer, [], [], [],
    fun _ => .idle⟩

/-- Goroutine `i` moves to `p`. -/
def setPc (w : FrameworkWorld) (i : ℕ) (p : FrameworkPc) : FrameworkWorld :=
  { w with pcs := Function.update w.pcs i p }

/-- Goroutine `i` after a step of the routine it runs on the client's
`connectionState`: at the routine's next point, as `wrap` places it, or
returned, as `ret` says, with the state the step left. -/
def advance {π ρ : Type} (w : FrameworkWorld) (i : ℕ) (wrap : π → FrameworkPc)
    (ret : ρ → FrameworkPc) (r : (π ⊕ ρ) × ClientConnectionState) : FrameworkWorld :=
  { w.setPc i (Sum.elim wrap ret r.1) with conn := r.2 }

/-- `Start()`: the compare-and-swap from `LATENT` to `STARTED`. -/
def callStart (w : FrameworkWorld) (i : ℕ) : FrameworkWorld :=
  match w.state.change .latent .started with
  | (_, false) => w.setPc i (.startReturned (some (.message "Cannot be started more than once")))
  | (state, true) => { w.setPc i .startingManager with state := state }

/-- `Close()`: the compare-and-swap from `STARTED` to `STOPPED`; a framework
that is not started makes it return nil. -/
def callClose (w : FrameworkWorld) (i : ℕ) : FrameworkWorld :=
  match w.state.change .started .stopped with
  | (_, false) => w.setPc i (.closeReturned none)
  | (state, true) => { w.setPc i .notifyingListeners with state := state }

/-- `Conn()` of the client: refused unless `started` is set. -/
def callConn (w : FrameworkWorld) (i : ℕ) : FrameworkWorld :=
  if w.started then w.setPc i (.connecting .dequeuing)
  else w.setPc i (.connReturned (.error (.message "Client is not started")))

section Steps

variable (connStr : GoString) (ensembleError : Option ZkError)

/-- The next step of goroutine `i` at clock time `now`, with the ensemble
provider's connection string and the error its `Start()` returns. -/
def runStep (w : FrameworkWorld) (i : ℕ) (now : Duration) : FrameworkWorld :=
  match w.pcs i with
  | .startingManager =>
    let r := w.manager.start
    match r.2 with
    | some e =>
      { w.setPc i (.startReturned (some (.wrapped "fail to start state manager, " e))) with
        manager := r.1 }
    | none => { w.setPc i .startingClient with manager := r.1 }
  | .startingClient =>
    -- the compare-and-swap of `curatorZookeeperClient.Start()`
    if w.started then
      w.setPc i (.startReturned (some (.wrapped "fail to start client, " (.message "Already started"))))
    else { w.setPc i (.startingConnection .starting) with started := true }
  | .startingConnection p =>
    w.advance i .startingConnection (fun err => .startReturned (err.map (.wrapped "fail to start client, ")))
      (w.conn.startStep connStr ensembleError p)
  | .notifyingListeners => { w.setPc i .clearingListeners with closing := w.closing ++ w.listeners }
  | .clearingListeners =>
    { w.setPc i .closingManager with listeners := [], unhandledErrorListeners := [] }
  | .closingManager => { w.setPc i .closingClient with manager := w.manager.close }
  | .closingClient => { w.setPc i (.closingConnection .reading) with started := false }
  | .closingConnection p => w.advance i .closingConnection .closeReturned (w.conn.closeStep connStr p)
  | .connecting p => w.advance i .connecting .connReturned (w.conn.connStep connStr now p)
  | _ => w

/-- One step of the world; a goroutine begins a call only between calls. -/
def step (w : FrameworkWorld) : FrameworkAction → FrameworkWorld
  | .call i c =>
    if (w.pcs i).isIdle then
      match c with
      | .start => w.callStart i
      | .close => w.callClose i
      | .conn => w.callConn i
    else w
  | .run i now => w.runStep connStr ensembleError i now
  | .addListener l => { w with listeners := w.listeners ++ [l] }
  | .addUnhandledErrorListener l =>
    { w with unhandledErrorListeners := w.unhandledErrorListeners ++ [l] }

/-- The framework `newCuratorFramework` builds, with every interleaving of
calls and registrations. -/
def system (now sessionTimeout connectionTimeout : Duration) (dialer : Dialer) :
    TransitionSystem.System FrameworkWorld FrameworkAction :=
  .ofFun (init now sessionTimeout connectionTimeout dialer) (step connStr ensembleError)

end Steps

section Equations

variable (w : FrameworkWorld) (i : ℕ) (p : FrameworkPc)

@[simp] theorem setPc_state : (w.setPc i p).state = w.state := rfl
@[simp] theorem setPc_manager : (w.setPc i p).manager = w.manager := rfl
@[simp] theorem setPc_started : (w.setPc i p).started = w.started := rfl
@[simp] theorem setPc_conn : (w.setPc i p).conn = w.conn := rfl
@[simp] theorem setPc_listeners : (w.setPc i p).listeners = w.listeners := rfl
@[simp] theorem setPc_unhandledErrorListeners :
    (w.setPc i p).unhandledErrorListeners = w.unhandledErrorListeners := rfl
@[simp] theorem setPc_closing : (w.setPc i p).closing = w.closing := rfl
@[simp] theorem setPc_pcs : (w.setPc i p).pcs = Function.update w.pcs i p := rfl

section Advance

variable {π ρ : Type} (wrap : π → FrameworkPc) (ret : ρ → FrameworkPc)
  (r : (π ⊕ ρ) × ClientConnectionState)

@[simp] theorem advance_state : (w.advance i wrap ret r).state = w.state := rfl
@[simp] theorem advance_manager : (w.advance i wrap ret r).manager = w.manager := rfl
@[simp] theorem advance_started : (w.advance i wrap ret r).started = w.started := rfl
@[simp] theorem advance_conn : (w.advance i wrap ret r).conn = r.2 := rfl
@[simp] theorem advance_closing : (w.advance i wrap ret r).closing = w.closing := rfl
@[simp] theorem advance_pcs :
    (w.advance i wrap ret r).pcs = Function.update w.pcs i (Sum.elim wrap ret r.1) := rfl

end Advance

theorem callStart_of_latent (h : w.state = .latent) :
    w.callStart i = { w.setPc i .startingManager with state := .started } := by
  simp [callStart, h]

theorem callStart_of_ne (h : w.state ≠ .latent) :
    w.callStart i = w.setPc i (.startReturned (some (.message "Cannot be started more than once"))) := by
  simp [callStart, h]

theorem callClose_of_started (h : w.state = .started) :
    w.callClose i = { w.setPc i .notifyingListeners with state := .stopped } := by
  simp [callClose, h]

theorem callClose_of_ne (h : w.state ≠ .started) : w.callClose i = w.setPc i (.closeReturned none) := by
  simp [callClose, h]

variable (connStr : GoString) (ensembleError : Option ZkError) (now : Duration)

theorem runStep_of_isIdle (h : (w.pcs i).isIdle) : w.runStep connStr ensembleError i now = w := by
  cases hpc : w.pcs i <;> rw [hpc] at h <;>
    simp only [FrameworkPc.isIdle, Bool.false_eq_true] at h <;> rw [runStep.eq_def, hpc]

/-- `Start()` of a manager that is still `LATENT` succeeds. -/
theorem runStep_startingManager (h : w.pcs i = .startingManager) (hm : w.manager.state = .latent) :
    w.runStep connStr ensembleError i now =
      { w.setPc i .startingClient with manager := { w.manager with state := .started, events := [] } } := by
  rw [runStep.eq_def, h]
  simp [ConnectionStateManager.start_of_latent hm]

/-- The client's compare-and-swap succeeds while the flag is unset. -/
theorem runStep_startingClient (h : w.pcs i = .startingClient) (hb : w.started = false) :
    w.runStep connStr ensembleError i now =
      { w.setPc i (.startingConnection .starting) with started := true } := by
  rw [runStep.eq_def, h]
  simp [hb]

theorem runStep_startingConnection {p : StartPc} (h : w.pcs i = .startingConnection p) :
    w.runStep connStr ensembleError i now =
      w.advance i .startingConnection (fun err => .startReturned (err.map (.wrapped "fail to start client, ")))
        (w.conn.startStep connStr ensembleError p) := by
  rw [runStep.eq_def, h]

theorem runStep_notifyingListeners (h : w.pcs i = .notifyingListeners) :
    w.runStep connStr ensembleError i now =
      { w.setPc i .clearingListeners with closing := w.closing ++ w.listeners } := by
  rw [runStep.eq_def, h]

theorem runStep_clearingListeners (h : w.pcs i = .clearingListeners) :
    w.runStep connStr ensembleError i now =
      { w.setPc i .closingManager with listeners := [], unhandledErrorListeners := [] } := by
  rw [runStep.eq_def, h]

theorem runStep_closingManager (h : w.pcs i = .closingManager) :
    w.runStep connStr ensembleError i now =
      { w.setPc i .closingClient with manager := w.manager.close } := by
  rw [runStep.eq_def, h]

theorem runStep_closingClient (h : w.pcs i = .closingClient) :
    w.runStep connStr ensembleError i now =
      { w.setPc i (.closingConnection .reading) with started := false } := by
  rw [runStep.eq_def, h]

theorem runStep_closingConnection {p : CloseAndClearPc} (h : w.pcs i = .closingConnection p) :
    w.runStep connStr ensembleError i now =
      w.advance i .closingConnection .closeReturned (w.conn.closeStep connStr p) := by
  rw [runStep.eq_def, h]

theorem runStep_connecting {p : ConnPc} (h : w.pcs i = .connecting p) :
    w.runStep connStr ensembleError i now =
      w.advance i .connecting .connReturned (w.conn.connStep connStr now p) := by
  rw [runStep.eq_def, h]

theorem step_call_start (h : (w.pcs i).isIdle) :
    w.step connStr ensembleError (.call i .start) = w.callStart i := by
  simp [step, h]

theorem step_call_close (h : (w.pcs i).isIdle) :
    w.step connStr ensembleError (.call i .close) = w.callClose i := by
  simp [step, h]

theorem step_call_conn (h : (w.pcs i).isIdle) :
    w.step connStr ensembleError (.call i .conn) = w.callConn i := by
  simp [step, h]

theorem step_call_of_busy (h : (w.pcs i).isIdle = false) (c : LifecycleCall) :
    w.step connStr ensembleError (.call i c) = w := by
  simp [step, h]

theorem step_run : w.step connStr ensembleError (.run i now) = w.runStep connStr ensembleError i now :=
  rfl

end Equations

variable {w : FrameworkWorld} {s₀ : ClientConnectionState} {i : ℕ}

/-- What holds in every world reached from a framework whose client's
`connectionState` was `s₀`: every goroutine's assertion; at most one goroutine
inside `Start` and one inside `Close`; nothing started while the framework is
`LATENT`; a `STARTED` framework with no `Start` under way has its manager and
its client started; and no listener told of closing before `Close`. -/
structure Invariant (s₀ : ClientConnectionState) (w : FrameworkWorld) : Prop where
  ok : ∀ i, (w.pcs i).Ok w.state w.manager.state w.started
  startOne : Region.AtMostOne FrameworkPc.inStart w.pcs
  closeOne : Region.AtMostOne FrameworkPc.inClose w.pcs
  latent : w.state = .latent → w.manager.state = .latent ∧ w.started = false ∧ w.conn = s₀
  running : w.state = .started → Region.Empty FrameworkPc.inStart w.pcs →
    w.manager.state = .started ∧ w.started = true
  closing : w.state ≠ .stopped → w.closing = []

theorem invariant_init (now sessionTimeout connectionTimeout : Duration) (dialer : Dialer) :
    (init now sessionTimeout connectionTimeout dialer).Invariant
      (ClientConnectionState.new now sessionTimeout connectionTimeout dialer) where
  ok _ := trivial
  startOne _ _ h := by cases h
  closeOne _ _ h := by cases h
  latent _ := ⟨rfl, rfl, rfl⟩
  running h := by cases h
  closing _ := rfl

/-- While the framework is `LATENT`, every goroutine is between calls. -/
theorem Invariant.isIdle_of_latent (h : w.Invariant s₀) (hl : w.state = .latent) (j : ℕ) :
    (w.pcs j).isIdle := by
  have hok := h.ok j
  rw [hl] at hok
  exact hok.isIdle_of_latent

/-- Before the framework is `STOPPED`, no goroutine is inside `Close`. -/
theorem Invariant.inClose_of_ne_stopped (h : w.Invariant s₀) (hs : w.state ≠ .stopped) (j : ℕ) :
    (w.pcs j).inClose = false := by
  cases hj : (w.pcs j).inClose with
  | false => rfl
  | true => exact absurd ((h.ok j).stopped_of_inClose hj) hs

/-- A step of goroutine `i` that leaves the framework's, the manager's and the
flag's states alone: it keeps the invariant when the new point's assertion
holds, the goroutine enters neither body from outside, one that leaves
`Start` has done its work, and the client's `connectionState` does not change
before `Start`. -/
theorem Invariant.frame (h : w.Invariant s₀) {w' : FrameworkWorld} {p : FrameworkPc}
    (hpcs : w'.pcs = Function.update w.pcs i p) (hstate : w'.state = w.state)
    (hmanager : w'.manager.state = w.manager.state) (hstarted : w'.started = w.started)
    (hok : p.Ok w.state w.manager.state w.started)
    (hstart : p.inStart → (w.pcs i).inStart) (hclose : p.inClose → (w.pcs i).inClose)
    (hrun : w.state = .started → p.inStart = false → (w.pcs i).inStart →
      w.manager.state = .started ∧ w.started = true)
    (hconn : w.state = .latent → w'.conn = w.conn)
    (hclosing : w.state ≠ .stopped → w'.closing = w.closing) : w'.Invariant s₀ where
  ok j := by
    rw [hpcs, hstate, hmanager, hstarted]
    by_cases hji : j = i
    · rw [hji, Function.update_self]
      exact hok
    · rw [Function.update_of_ne hji]
      exact h.ok j
  startOne := by
    rw [hpcs]
    exact h.startOne.update hstart
  closeOne := by
    rw [hpcs]
    exact h.closeOne.update hclose
  latent hl := by
    rw [hstate] at hl
    obtain ⟨hm, hb, hc⟩ := h.latent hl
    exact ⟨hmanager.trans hm, hstarted.trans hb, (hconn hl).trans hc⟩
  running hs he := by
    rw [hstate] at hs
    rw [hpcs] at he
    rw [hmanager, hstarted]
    cases hi : (w.pcs i).inStart with
    | false => exact h.running hs (he.of_update hi)
    | true =>
      have hp : p.inStart = false := by
        have := he i
        rwa [Function.update_self] at this
      exact hrun hs hp hi
  closing hs := by
    rw [hstate] at hs
    rw [hclosing hs]
    exact h.closing hs

/-- A step inside `Close`, in a `STOPPED` framework, that may stop the manager,
unset the flag and touch the listeners. -/
theorem Invariant.closeBody (h : w.Invariant s₀) {w' : FrameworkWorld} {p : FrameworkPc}
    (hpcs : w'.pcs = Function.update w.pcs i p) (hi : (w.pcs i).inClose) (hp : p.inClose)
    (hstate : w'.state = w.state)
    (hmanager : w.manager.state = .latent → w'.manager.state = .latent)
    (hstarted : w.started = false → w'.started = false) : w'.Invariant s₀ := by
  have hstop : w.state = .stopped := (h.ok i).stopped_of_inClose hi
  refine ⟨fun j => ?_, ?_, ?_, fun hl => ?_, fun hs => ?_, fun hs => ?_⟩
  · rw [hpcs, hstate, hstop]
    by_cases hji : j = i
    · rw [hji, Function.update_self]
      exact FrameworkPc.ok_of_inClose hp
    · rw [Function.update_of_ne hji]
      have hok := h.ok j
      rw [hstop] at hok
      exact hok.of_stopped hmanager hstarted
  · rw [hpcs]
    exact h.startOne.update fun hs => absurd hs (by rw [FrameworkPc.inStart_of_inClose hp]; simp)
  · rw [hpcs]
    exact h.closeOne.update fun _ => hi
  · rw [hstate, hstop] at hl
    cases hl
  · rw [hstate, hstop] at hs
    cases hs
  · rw [hstate, hstop] at hs
    exact absurd rfl hs

/-- A goroutine that moves between two points outside both bodies. -/
theorem Invariant.setPc_of_isIdle (h : w.Invariant s₀) (hi : (w.pcs i).isIdle)
    {p : FrameworkPc} (hp : p.isIdle) : (w.setPc i p).Invariant s₀ :=
  have hout : (w.pcs i).inStart = false := FrameworkPc.inStart_of_isIdle hi
  h.frame rfl rfl rfl rfl (FrameworkPc.ok_of_isIdle hp)
    (fun hs => absurd hs (by rw [FrameworkPc.inStart_of_isIdle hp]; simp))
    (fun hc => absurd hc (by rw [FrameworkPc.inClose_of_isIdle hp]; simp))
    (fun _ _ hs => absurd hs (by rw [hout]; simp)) (fun _ => rfl) (fun _ => rfl)

/-- A step inside `Start` that may start the manager and set the flag, but
touches nothing else the invariant mentions. -/
theorem Invariant.startBody (h : w.Invariant s₀) {w' : FrameworkWorld} {p : FrameworkPc}
    (hpcs : w'.pcs = Function.update w.pcs i p) (hi : (w.pcs i).inStart) (hp : p.inStart)
    (hstate : w'.state = w.state) (hok : p.Ok w.state w'.manager.state w'.started)
    (hclosing : w'.closing = w.closing) : w'.Invariant s₀ := by
  have hl : w.state ≠ .latent := (h.ok i).ne_latent_of_inStart hi
  refine ⟨fun j => ?_, ?_, ?_, fun hl' => ?_, fun _ he => ?_, fun hs => ?_⟩
  · rw [hpcs, hstate]
    by_cases hji : j = i
    · rw [hji, Function.update_self]
      exact hok
    · rw [Function.update_of_ne hji]
      have hj : (w.pcs j).inStart = false := by
        cases hj : (w.pcs j).inStart with
        | false => rfl
        | true => exact absurd (h.startOne j i hj hi) hji
      exact (h.ok j).congr hj _ _
  · rw [hpcs]
    exact h.startOne.update fun _ => hi
  · rw [hpcs]
    exact h.closeOne.update fun hc => absurd hc (by rw [FrameworkPc.inClose_of_inStart hp]; simp)
  · rw [hstate] at hl'
    exact absurd hl' hl
  · have hei := he i
    rw [hpcs, Function.update_self, hp] at hei
    cases hei
  · rw [hstate] at hs
    rw [hclosing]
    exact h.closing hs

/-- A step of the routine that goroutine `i` runs on the client's
`connectionState`, in a framework that has left `LATENT`: it keeps the
invariant when every point of the routine has the assertion of the point it
steps from and is inside the same bodies, the routine returns between calls,
and a return from `Start` comes after its work. -/
theorem Invariant.advance (h : w.Invariant s₀) {π ρ : Type} {wrap : π → FrameworkPc}
    {ret : ρ → FrameworkPc} {p : π} (hpc : w.pcs i = wrap p)
    (hwrap : ∀ p', (wrap p').Ok w.state w.manager.state w.started ∧
      (wrap p').inStart = (wrap p).inStart ∧ (wrap p').inClose = (wrap p).inClose)
    (hret : ∀ x, (ret x).isIdle) (hl : w.state ≠ .latent)
    (hdone : w.state = .started → (wrap p).inStart →
      w.manager.state = .started ∧ w.started = true)
    (r : (π ⊕ ρ) × ClientConnectionState) : (w.advance i wrap ret r).Invariant s₀ := by
  rw [← hpc] at hwrap hdone
  rcases r with ⟨p' | x, s'⟩
  · obtain ⟨hok, hs, hc⟩ := hwrap p'
    exact h.frame (p := wrap p') rfl rfl rfl rfl hok (fun h' => hs ▸ h') (fun h' => hc ▸ h')
      (fun _ hp hi => by rw [hs, hi] at hp; cases hp) (fun hl' => absurd hl' hl) (fun _ => rfl)
  · have hx := hret x
    exact h.frame (p := ret x) rfl rfl rfl rfl (FrameworkPc.ok_of_isIdle hx)
      (fun hs => absurd hs (by rw [FrameworkPc.inStart_of_isIdle hx]; simp))
      (fun hc => absurd hc (by rw [FrameworkPc.inClose_of_isIdle hx]; simp))
      (fun hst _ hi => hdone hst hi) (fun hl' => absurd hl' hl) (fun _ => rfl)

theorem Invariant.callStart (h : w.Invariant s₀) (hi : (w.pcs i).isIdle) :
    (w.callStart i).Invariant s₀ := by
  by_cases hl : w.state = .latent
  · rw [callStart_of_latent w i hl]
    have hidle := h.isIdle_of_latent hl
    obtain ⟨hm, hb, -⟩ := h.latent hl
    refine ⟨fun j => ?_, .update_of_empty fun j => FrameworkPc.inStart_of_isIdle (hidle j),
      h.closeOne.update (fun hc => by cases hc), (fun hs => by cases hs), (fun _ he => ?_),
      (fun _ => h.closing (by rw [hl]; exact State.noConfusion))⟩
    · simp only [setPc_pcs, setPc_manager, setPc_started]
      by_cases hji : j = i
      · rw [hji, Function.update_self]
        exact ⟨State.noConfusion, hm, hb⟩
      · rw [Function.update_of_ne hji]
        exact FrameworkPc.ok_of_isIdle (hidle j)
    · have hei := he i
      simp only [setPc_pcs, Function.update_self] at hei
      cases hei
  · rw [callStart_of_ne w i hl]
    exact h.setPc_of_isIdle hi rfl

theorem Invariant.callClose (h : w.Invariant s₀) (hi : (w.pcs i).isIdle) :
    (w.callClose i).Invariant s₀ := by
  by_cases hs : w.state = .started
  · rw [callClose_of_started w i hs]
    have hempty : Region.Empty FrameworkPc.inClose w.pcs :=
      h.inClose_of_ne_stopped (by rw [hs]; exact State.noConfusion)
    refine ⟨fun j => ?_, h.startOne.update (fun hc => by cases hc), .update_of_empty hempty,
      (fun hl => by cases hl), (fun hs' => by cases hs'), (fun hs' => absurd rfl hs')⟩
    simp only [setPc_pcs, setPc_manager, setPc_started]
    by_cases hji : j = i
    · rw [hji, Function.update_self]
      rfl
    · rw [Function.update_of_ne hji]
      have hok := h.ok j
      rw [hs] at hok
      exact hok.of_started
  · rw [callClose_of_ne w i hs]
    exact h.setPc_of_isIdle hi rfl

theorem Invariant.callConn (h : w.Invariant s₀) (hi : (w.pcs i).isIdle) :
    (w.callConn i).Invariant s₀ := by
  unfold FrameworkWorld.callConn
  split
  · next hb =>
    have hl : w.state ≠ .latent := fun hl => by
      rw [(h.latent hl).2.1] at hb
      cases hb
    exact h.frame rfl rfl rfl rfl hl (fun hs => by cases hs) (fun hc => by cases hc)
      (fun _ _ hs => absurd hs (by rw [FrameworkPc.inStart_of_isIdle hi]; simp))
      (fun _ => rfl) (fun _ => rfl)
  · exact h.setPc_of_isIdle hi rfl

section Run

variable (connStr : GoString) (ensembleError : Option ZkError)

theorem Invariant.runStep (h : w.Invariant s₀) (now : Duration) :
    (w.runStep connStr ensembleError i now).Invariant s₀ := by
  have hok := h.ok i
  cases hpc : w.pcs i with
  | startingManager =>
    rw [hpc] at hok
    obtain ⟨hl, hm, hb⟩ := hok
    rw [runStep_startingManager w i connStr ensembleError now hpc hm]
    exact h.startBody rfl (by rw [hpc]; rfl) rfl rfl ⟨hl, hb, fun _ => rfl⟩ rfl
  | startingClient =>
    rw [hpc] at hok
    obtain ⟨hl, hb, hm⟩ := hok
    rw [runStep_startingClient w i connStr ensembleError now hpc hb]
    exact h.startBody rfl (by rw [hpc]; rfl) rfl rfl ⟨hl, fun hs => ⟨hm hs, rfl⟩⟩ rfl
  | startingConnection p =>
    rw [hpc] at hok
    obtain ⟨hl, hrun⟩ := hok
    rw [runStep_startingConnection w i connStr ensembleError now hpc]
    exact h.advance hpc (fun _ => ⟨⟨hl, hrun⟩, rfl, rfl⟩) (fun _ => rfl) hl (fun hs _ => hrun hs) _
  | notifyingListeners =>
    rw [runStep_notifyingListeners w i connStr ensembleError now hpc]
    exact h.closeBody rfl (by rw [hpc]; rfl) rfl rfl id id
  | clearingListeners =>
    rw [runStep_clearingListeners w i connStr ensembleError now hpc]
    exact h.closeBody rfl (by rw [hpc]; rfl) rfl rfl id id
  | closingManager =>
    rw [runStep_closingManager w i connStr ensembleError now hpc]
    refine h.closeBody rfl (by rw [hpc]; rfl) rfl rfl (fun hm => ?_) id
    rw [ConnectionStateManager.close_state, hm]
    rfl
  | closingClient =>
    rw [runStep_closingClient w i connStr ensembleError now hpc]
    exact h.closeBody rfl (by rw [hpc]; rfl) rfl rfl id (fun _ => rfl)
  | closingConnection p =>
    rw [hpc] at hok
    rw [runStep_closingConnection w i connStr ensembleError now hpc]
    exact h.advance hpc (fun _ => ⟨hok, rfl, rfl⟩) (fun _ => rfl)
      (by rw [hok]; exact State.noConfusion) (fun _ hi => by cases hi) _
  | connecting p =>
    rw [hpc] at hok
    rw [runStep_connecting w i connStr ensembleError now hpc]
    exact h.advance hpc (fun _ => ⟨hok, rfl, rfl⟩) (fun _ => rfl) hok (fun _ hi => by cases hi) _
  | idle | startReturned _ | closeReturned _ | connReturned _ =>
    rw [runStep_of_isIdle w i connStr ensembleError now (by rw [hpc]; rfl)]
    exact h

theorem Invariant.step (h : w.Invariant s₀) (e : FrameworkAction) :
    (w.step connStr ensembleError e).Invariant s₀ := by
  cases e with
  | call i c =>
    simp only [FrameworkWorld.step]
    split
    · next hi =>
      cases c with
      | start => exact h.callStart hi
      | close => exact h.callClose hi
      | conn => exact h.callConn hi
    · exact h
  | run i now => exact h.runStep connStr ensembleError now
  | addListener l =>
    exact h.frame (i := 0) (p := w.pcs 0) (Function.update_eq_self 0 w.pcs).symm rfl rfl rfl
      (h.ok 0) id id (fun _ hp hs => by rw [hp] at hs; cases hs) (fun _ => rfl) (fun _ => rfl)
  | addUnhandledErrorListener l =>
    exact h.frame (i := 0) (p := w.pcs 0) (Function.update_eq_self 0 w.pcs).symm rfl rfl rfl
      (h.ok 0) id id (fun _ hp hs => by rw [hp] at hs; cases hs) (fun _ => rfl) (fun _ => rfl)

theorem invariant_inductive (now sessionTimeout connectionTimeout : Duration) (dialer : Dialer) :
    TransitionSystem.Inductive (system connStr ensembleError now sessionTimeout connectionTimeout dialer)
      (Invariant (ClientConnectionState.new now sessionTimeout connectionTimeout dialer)) where
  init := invariant_init now sessionTimeout connectionTimeout dialer
  step := by
    rintro w e _ hw rfl
    exact hw.step connStr ensembleError e

end Run

section Frame

variable (connStr : GoString) (ensembleError : Option ZkError)

/-- A goroutine that does not move stays where it is. -/
theorem step_pcs_of_ne (w : FrameworkWorld) {e : FrameworkAction} {j : ℕ}
    (hj : e.goroutine ≠ some j) : (w.step connStr ensembleError e).pcs j = w.pcs j := by
  cases e with
  | call i c =>
    have hji : j ≠ i := fun h => hj (by rw [h]; rfl)
    simp only [FrameworkWorld.step]
    split
    · cases c <;>
        simp only [FrameworkWorld.callStart, FrameworkWorld.callClose, FrameworkWorld.callConn] <;>
        split <;> simp [Function.update_of_ne hji]
    · rfl
  | run i now =>
    have hji : j ≠ i := fun h => hj (by rw [h]; rfl)
    simp only [FrameworkWorld.step, FrameworkWorld.runStep]
    split <;> (try split) <;> simp [advance, Function.update_of_ne hji]
  | addListener l => rfl
  | addUnhandledErrorListener l => rfl

/-- Over a run whose actions do not move goroutine `j`, it stays where it
is; by induction on the run. -/
theorem foldl_pcs_of_ne (es : List FrameworkAction) {j : ℕ}
    (hj : ∀ e ∈ es, e.goroutine ≠ some j) (w : FrameworkWorld) :
    (es.foldl (step connStr ensembleError) w).pcs j = w.pcs j := by
  induction es generalizing w with
  | nil => rfl
  | cons e es ih =>
    rw [List.foldl_cons, ih (fun e' he' => hj e' (List.mem_cons_of_mem e he')),
      step_pcs_of_ne connStr ensembleError w (hj e List.mem_cons_self)]

/-- What a step of goroutine `i` can do: a step of one of the three routines
on the client's `connectionState`, or a move to a point where it holds no
connection, the `connectionState` unchanged. -/
theorem runStep_cases (w : FrameworkWorld) (i : ℕ) (now : Duration) :
    (∃ p, w.pcs i = .startingConnection p ∧ w.runStep connStr ensembleError i now =
      w.advance i .startingConnection
        (fun err => .startReturned (err.map (.wrapped "fail to start client, ")))
        (w.conn.startStep connStr ensembleError p)) ∨
    (∃ p, w.pcs i = .closingConnection p ∧ w.runStep connStr ensembleError i now =
      w.advance i .closingConnection .closeReturned (w.conn.closeStep connStr p)) ∨
    (∃ p, w.pcs i = .connecting p ∧ w.runStep connStr ensembleError i now =
      w.advance i .connecting .connReturned (w.conn.connStep connStr now p)) ∨
    ∃ p : FrameworkPc, (w.runStep connStr ensembleError i now).pcs = Function.update w.pcs i p ∧
      (w.runStep connStr ensembleError i now).conn = w.conn ∧ p.held = none := by
  cases hpc : w.pcs i with
  | startingConnection p =>
    exact .inl ⟨p, rfl, runStep_startingConnection w i connStr ensembleError now hpc⟩
  | closingConnection p =>
    exact .inr (.inl ⟨p, rfl, runStep_closingConnection w i connStr ensembleError now hpc⟩)
  | connecting p =>
    exact .inr (.inr (.inl ⟨p, rfl, runStep_connecting w i connStr ensembleError now hpc⟩))
  | idle | startReturned _ | closeReturned _ | connReturned _ =>
    rw [runStep_of_isIdle w i connStr ensembleError now (by rw [hpc]; rfl)]
    exact .inr (.inr (.inr ⟨w.pcs i, (Function.update_eq_self i w.pcs).symm, rfl, by rw [hpc]; rfl⟩))
  | startingManager =>
    refine .inr (.inr (.inr ?_))
    rw [runStep.eq_def, hpc]
    dsimp only
    split <;> exact ⟨_, rfl, rfl, rfl⟩
  | startingClient =>
    refine .inr (.inr (.inr ?_))
    rw [runStep.eq_def, hpc]
    dsimp only
    split <;> exact ⟨_, rfl, rfl, rfl⟩
  | notifyingListeners | clearingListeners | closingManager | closingClient =>
    refine .inr (.inr (.inr ?_))
    rw [runStep.eq_def, hpc]
    exact ⟨_, rfl, rfl, rfl⟩

/-- Which dials fail is fixed: no step changes it. -/
theorem step_dialError (w : FrameworkWorld) (e : FrameworkAction) :
    (w.step connStr ensembleError e).conn.zooKeeper.dialer.dialError =
      w.conn.zooKeeper.dialer.dialError := by
  cases e with
  | call i c =>
    simp only [FrameworkWorld.step]
    split
    · cases c <;> simp only [FrameworkWorld.callStart, FrameworkWorld.callClose,
        FrameworkWorld.callConn] <;> split <;> rfl
    · rfl
  | run i now =>
    rw [step_run]
    rcases runStep_cases connStr ensembleError w i now with
      ⟨p, -, he⟩ | ⟨p, -, he⟩ | ⟨p, -, he⟩ | ⟨p, -, hc, -⟩
    · rw [he]
      exact (ClientConnectionState.startStep_effect connStr ensembleError p w.conn).dialError
    · rw [he]
      exact ClientConnectionState.closeStep_dialError connStr p w.conn
    · rw [he]
      exact (ClientConnectionState.connStep_effect connStr now p w.conn).dialError
    · rw [hc]
  | addListener l => rfl
  | addUnhandledErrorListener l => rfl

theorem foldl_dialError (es : List FrameworkAction) (w : FrameworkWorld) :
    (es.foldl (step connStr ensembleError) w).conn.zooKeeper.dialer.dialError =
      w.conn.zooKeeper.dialer.dialError := by
  induction es generalizing w with
  | nil => rfl
  | cons e es ih => rw [List.foldl_cons, ih, step_dialError]

/-- Steps of a goroutine between calls do nothing. -/
theorem foldl_run_of_isIdle {v : FrameworkWorld} (hi : (v.pcs i).isIdle) (t : Duration) (n : ℕ) :
    (List.replicate n (FrameworkAction.run i t)).foldl (step connStr ensembleError) v = v := by
  induction n with
  | zero => rfl
  | succ n ih =>
    rw [List.replicate_succ, List.foldl_cons, step_run, runStep_of_isIdle v i connStr ensembleError t hi]
    exact ih

@[simp] theorem setPc_advance {π ρ : Type} (v : FrameworkWorld) (wrap : π → FrameworkPc)
    (ret : ρ → FrameworkPc) (r : (π ⊕ ρ) × ClientConnectionState) (p : FrameworkPc)
    (s : ClientConnectionState) :
    { (v.advance i wrap ret r).setPc i p with conn := s } = { v.setPc i p with conn := s } := by
  simp [advance, setPc, Function.update_idem]

/-- Goroutine `i` run alone through a routine on the client's
`connectionState`: the routine run alone from the world's state, returning
within `n` steps, is what `n` steps of the goroutine make of the world; by
induction on `n`. -/
theorem foldl_run_routine {π ρ : Type} {wrap : π → FrameworkPc} {ret : ρ → FrameworkPc}
    {stepFn : π → ClientConnectionState → (π ⊕ ρ) × ClientConnectionState} {t : Duration}
    (hstep : ∀ (v : FrameworkWorld) (p : π), v.pcs i = wrap p →
      v.runStep connStr ensembleError i t = v.advance i wrap ret (stepFn p v.conn))
    (hret : ∀ x, (ret x).isIdle) :
    ∀ {n : ℕ} {v : FrameworkWorld} {p : π} {x : ρ} {s' : ClientConnectionState},
      v.pcs i = wrap p → Steps.run stepFn n p v.conn = (.inr x, s') →
      (List.replicate n (FrameworkAction.run i t)).foldl (step connStr ensembleError) v =
        { v.setPc i (ret x) with conn := s' }
  | 0, _, _, _, _, _, hrun => by simp [Steps.run] at hrun
  | n + 1, v, p, x, s', hv, hrun => by
    rw [List.replicate_succ, List.foldl_cons, step_run, hstep v p hv]
    rcases hs : stepFn p v.conn with ⟨p' | x', s₁⟩
    · rw [Steps.run_succ_of_step hs] at hrun
      rw [foldl_run_routine hstep hret (by simp) hrun, setPc_advance]
    · rw [Steps.run_succ, hs, Steps.resume_inr] at hrun
      simp only [Prod.mk.injEq, Sum.inr.injEq] at hrun
      obtain ⟨rfl, rfl⟩ := hrun
      exact foldl_run_of_isIdle connStr ensembleError (by simpa using hret x') t n

/-- A `Close` call with no other goroutine stepping: the compare-and-swap of a
`STARTED` framework, the listeners told of closing and cleared, the manager
closed, the flag unset and the client's `connectionState` closed. -/
theorem closeCall_eq {w : FrameworkWorld} {i : ℕ} (hi : (w.pcs i).isIdle) (hst : w.state = .started)
    (t : Duration) :
    (FrameworkAction.call i .close :: List.replicate 8 (.run i t)).foldl
        (step connStr ensembleError) w =
      { w.setPc i (.closeReturned (w.conn.close connStr).1) with
        state := .stopped, manager := w.manager.close, started := false,
        conn := (w.conn.close connStr).2, listeners := [], unhandledErrorListeners := [],
        closing := w.closing ++ w.listeners } := by
  have hbody : [FrameworkAction.call i .close, .run i t, .run i t, .run i t, .run i t].foldl
      (step connStr ensembleError) w =
        { w.setPc i (.closingConnection .reading) with
          state := .stopped, manager := w.manager.close, started := false,
          listeners := [], unhandledErrorListeners := [], closing := w.closing ++ w.listeners } := by
    simp only [List.foldl_cons, List.foldl_nil, step_call_close w i connStr ensembleError hi,
      callClose_of_started w i hst, step_run]
    simp [runStep_notifyingListeners, runStep_clearingListeners, runStep_closingManager,
      runStep_closingClient, FrameworkWorld.setPc, Function.update_idem]
  have hsplit : FrameworkAction.call i .close :: List.replicate 8 (.run i t) =
      [FrameworkAction.call i .close, .run i t, .run i t, .run i t, .run i t] ++
        List.replicate 4 (.run i t) := rfl
  rw [hsplit, List.foldl_append, hbody]
  refine Eq.trans (foldl_run_routine connStr ensembleError
    (fun v p hv => runStep_closingConnection v i connStr ensembleError t hv) (fun _ => rfl)
    (by simp) (ClientConnectionState.run_closeStep connStr w.conn)) ?_
  simp [FrameworkWorld.setPc, Function.update_idem]

end Frame

end FrameworkWorld

open FrameworkWorld in
/-- Over every interleaving of any number of `Start`, `Close` and `Conn` calls
and listener registrations, on a framework whose dialer has nothing open: at
most one goroutine is inside `Start` and at most one inside `Close`; `Start`'s
body runs only once the framework has left `LATENT`, `Close`'s only once it is
`STOPPED`; while it is `LATENT` nothing is started and no connection open; and
a `STARTED` framework with no `Start` under way has its manager `STARTED` and
its client started. -/
theorem framework_lifecycle_exclusive (connStr : GoString) (ensembleError : Option ZkError)
    (now sessionTimeout connectionTimeout : Duration) {dialer : Dialer}
    (hd : dialer.openConns = []) {w : FrameworkWorld}
    (hw : TransitionSystem.Reachable
      (system connStr ensembleError now sessionTimeout connectionTimeout dialer) w) :
    (∀ i j, (w.pcs i).inStart → (w.pcs j).inStart → i = j) ∧
      (∀ i j, (w.pcs i).inClose → (w.pcs j).inClose → i = j) ∧
      (∀ i, (w.pcs i).inStart → w.state ≠ .latent) ∧
      (∀ i, (w.pcs i).inClose → w.state = .stopped) ∧
      (w.state = .latent → w.manager.state = .latent ∧ w.started = false ∧
        w.conn.zooKeeper.dialer.openConns = []) ∧
      (w.state = .started → (∀ i, (w.pcs i).inStart = false) →
        w.manager.state = .started ∧ w.started = true) := by
  have h := TransitionSystem.Reachable.of_inductive
    (invariant_inductive connStr ensembleError now sessionTimeout connectionTimeout dialer) hw
  refine ⟨h.startOne, h.closeOne, fun i hi => (h.ok i).ne_latent_of_inStart hi,
    fun i hi => (h.ok i).stopped_of_inClose hi, fun hl => ?_, h.running⟩
  obtain ⟨hm, hb, hc⟩ := h.latent hl
  refine ⟨hm, hb, ?_⟩
  rw [hc]
  exact hd

/-- Two goroutines call `Start` at once: the second is refused by the
compare-and-swap while the first runs the body, which dials one connection. -/
theorem framework_lifecycle_exclusive_twoStarts :
    let connStr := "host:2181".toList
    let dialer : Dialer := ⟨fun _ _ => none, 0, []⟩
    let w := (FrameworkAction.call 0 .start :: .call 1 .start :: List.replicate 7 (.run 0 0)).foldl
      (FrameworkWorld.step connStr none) (FrameworkWorld.init 0 60 15 dialer)
    w.pcs 0 = .startReturned none ∧
      w.pcs 1 = .startReturned (some (.message "Cannot be started more than once")) ∧
      w.conn.zooKeeper.dialer.openConns = [0] ∧
      (∀ i j, (w.pcs i).inStart → (w.pcs j).inStart → i = j) ∧
      (∀ i j, (w.pcs i).inClose → (w.pcs j).inClose → i = j) ∧
      (∀ i, (w.pcs i).inStart → w.state ≠ .latent) ∧
      (∀ i, (w.pcs i).inClose → w.state = .stopped) ∧
      (w.state = .latent → w.manager.state = .latent ∧ w.started = false ∧
        w.conn.zooKeeper.dialer.openConns = []) ∧
      (w.state = .started → (∀ i, (w.pcs i).inStart = false) →
        w.manager.state = .started ∧ w.started = true) := by
  intro connStr dialer w
  have hw : TransitionSystem.Reachable (FrameworkWorld.system connStr none 0 60 15 dialer) w :=
    TransitionSystem.reachable_foldl _
  have h0 : w.pcs 0 = .startReturned none := by decide
  have h1 : w.pcs 1 = .startReturned (some (.message "Cannot be started more than once")) := by
    decide
  have hopen : w.conn.zooKeeper.dialer.openConns = [0] := by decide
  exact ⟨h0, h1, hopen, framework_lifecycle_exclusive connStr none 0 60 15 rfl hw⟩

open FrameworkWorld in
/-- On a reachable framework, a `Close` that begins while the framework is
`STARTED` with no `Start` under way, and runs to its end with no other
goroutine stepping: the framework and its manager are `STOPPED` and the client
not started; the connection the client's holder caches is closed and every
other stays as it was, so a holder that kept only its cached connection open
keeps none; every `CuratorListener` registered received `CLOSING`, once and in
order, and no listener of either kind is left; and no goroutine is inside
`Start` or `Close`. -/
theorem framework_close_releases (connStr : GoString) (ensembleError : Option ZkError)
    (now sessionTimeout connectionTimeout : Duration) {dialer : Dialer} {w : FrameworkWorld}
    (hw : TransitionSystem.Reachable
      (system connStr ensembleError now sessionTimeout connectionTimeout dialer) w)
    (hst : w.state = .started) (hstart : ∀ j, (w.pcs j).inStart = false) {i : ℕ}
    (hi : (w.pcs i).isIdle) (t : Duration) :
    let w' := (FrameworkAction.call i .close :: List.replicate 8 (.run i t)).foldl
      (FrameworkWorld.step connStr ensembleError) w
    w'.state = .stopped ∧ w'.manager.state = .stopped ∧ w'.started = false ∧
      w'.conn.zooKeeper.dialer.openConns = w.conn.zooKeeper.cachedConn.elim
        w.conn.zooKeeper.dialer.openConns w.conn.zooKeeper.dialer.openConns.erase ∧
      (w.conn.zooKeeper.OnlyCachedOpen → w'.conn.zooKeeper.dialer.openConns = []) ∧
      w'.closing = w.listeners ∧ w'.listeners = [] ∧ w'.unhandledErrorListeners = [] ∧
      ∀ j, (w'.pcs j).inStart = false ∧ (w'.pcs j).inClose = false := by
  intro w'
  have h := TransitionSystem.Reachable.of_inductive
    (invariant_inductive connStr ensembleError now sessionTimeout connectionTimeout dialer) hw
  obtain ⟨hm, -⟩ := h.running hst hstart
  have hns : w.state ≠ .stopped := by
    rw [hst]
    exact State.noConfusion
  have hw' : w' = _ := closeCall_eq connStr ensembleError hi hst t
  rw [hw']
  refine ⟨rfl, ?_, rfl, HandleHolder.closeAndClear_openConns_eq connStr,
    HandleHolder.closeAndClear_openConns connStr, ?_, rfl, rfl, fun j => ?_⟩
  · show w.manager.close.state = .stopped
    rw [ConnectionStateManager.close_state, if_pos hm]
  · show w.closing ++ w.listeners = w.listeners
    rw [h.closing hns, List.nil_append]
  · have hstart' : Region.Empty FrameworkPc.inStart w.pcs := hstart
    have hclose : Region.Empty FrameworkPc.inClose w.pcs := h.inClose_of_ne_stopped hns
    exact ⟨hstart'.update rfl j, hclose.update rfl j⟩

/-- A framework started by goroutine `0` is closed by goroutine `1`: the
listener registered before receives `CLOSING`, and the one connection open is
closed. -/
theorem framework_close_releases_afterStart :
    let connStr := "host:2181".toList
    let dialer : Dialer := ⟨fun _ _ => none, 0, []⟩
    let w := (FrameworkAction.addListener 7 :: .call 0 .start :: List.replicate 7 (.run 0 0)).foldl
      (FrameworkWorld.step connStr none) (FrameworkWorld.init 0 60 15 dialer)
    let w' := (FrameworkAction.call 1 .close :: List.replicate 8 (.run 1 0)).foldl
      (FrameworkWorld.step connStr none) w
    w.conn.zooKeeper.dialer.openConns = [0] ∧ w.conn.zooKeeper.OnlyCachedOpen ∧
      w'.state = .stopped ∧ w'.manager.state = .stopped ∧ w'.started = false ∧
      w'.conn.zooKeeper.dialer.openConns = w.conn.zooKeeper.cachedConn.elim
        w.conn.zooKeeper.dialer.openConns w.conn.zooKeeper.dialer.openConns.erase ∧
      (w.conn.zooKeeper.OnlyCachedOpen → w'.conn.zooKeeper.dialer.openConns = []) ∧
      w'.closing = w.listeners ∧ w'.listeners = [] ∧ w'.unhandledErrorListeners = [] ∧
      ∀ j, (w'.pcs j).inStart = false ∧ (w'.pcs j).inClose = false := by
  intro connStr dialer w
  have hw : TransitionSystem.Reachable (FrameworkWorld.system connStr none 0 60 15 dialer) w :=
    TransitionSystem.reachable_foldl _
  have hstart : ∀ j, (w.pcs j).inStart = false := by
    intro j
    by_cases h0 : j = 0
    · rw [h0]
      decide
    · rw [FrameworkWorld.foldl_pcs_of_ne connStr none _
        (by simp [FrameworkAction.goroutine, Ne.symm h0]) _]
      rfl
  have hst : w.state = .started := by decide
  have hi : (w.pcs 1).isIdle := by decide
  have hopen : w.conn.zooKeeper.dialer.openConns = [0] := by decide
  have honly : w.conn.zooKeeper.OnlyCachedOpen := by
    show w.conn.zooKeeper.dialer.openConns = w.conn.zooKeeper.cachedConn.toList
    decide
  exact ⟨hopen, honly, framework_close_releases connStr none 0 60 15 hw hst hstart hi 0⟩

end Curator
