import Mathlib.Logic.Function.Iterate
import Curator.Support.GoChannel
import Curator.Support.Reachable
import Curator.State.History

/-!
# The manager's event pipeline

`connectionStateManager` hands its state changes from the goroutine holding
its lock to the `processEvents` goroutine through the buffered channel
`events` (`state.go`).  The lock holder runs the loop of `postState`: send if
there is room, else receive (drop) the oldest state and try again.
`processEvents` receives one state at a time and hands it to the listeners.
`Close()` changes the manager's state to `STOPPED`, then closes the channel.
The three run interleaved, one channel operation at a time.

`ManagerWorld` is that system, driven by the framework's calls
(`FrameworkCall`), with a record of what happened: the states the lock
decided to post, the channel's log, and the states handed to the listeners.
Over every interleaving (`ManagerWorld.Invariant`):

* the listeners get posted states in the order they were posted, none twice
  and none made up, and exactly the posted states while nothing is dropped;
* while no post is in progress and the channel is open, the newest state sent
  is buffered or was taken by `processEvents`: only older states are dropped;
* a post makes at most two passes of its loop, for the send after a receive
  always finds room;
* the states posted form a `WellFormedHistory`;
* once the channel is closed nothing more is posted or sent, and the
  listeners only get what was already under way (`AfterClose`).

In the framework `Start()` runs before any call reaches the manager (the
manager starts before the client whose events drive it, as
`State.Lifecycle` shows), so it is one step here.  A failing sync's `LOST`
may come at any time, as a watched `StateExpired` may.  A state handed to the
listeners is recorded as delivered; the listeners' container, and
`BlockUntilConnected` waiting on it, are added in `State.Waiter`.
-/

namespace Curator

/-- The goroutines that receive from `events`. -/
inductive Receiver where
  | postState
  | processEvents
  deriving DecidableEq, Repr

/-- Where the goroutine holding the manager's lock is in `postState(s)`: not
posting, at the send of the loop's first pass, at the receive after a failed
send, or at the send of the next pass. -/
inductive PosterPc where
  | idle
  | sending (s : ConnectionState)
  | receiving (s : ConnectionState)
  | resending (s : ConnectionState)
  deriving DecidableEq, Repr

/-- The state a post in progress is to send. -/
def PosterPc.pending : PosterPc → List ConnectionState
  | .idle => []
  | .sending s | .receiving s | .resending s => [s]

/-- Where `processEvents` is: not started yet, at its receive, between the
receive and the listeners, or returned after the channel was closed and
drained. -/
inductive ConsumerPc where
  | notStarted
  | receiving
  | delivering (s : ConnectionState)
  | exited
  deriving DecidableEq, Repr

/-- The state `processEvents` holds between its receive and the listeners. -/
def ConsumerPc.inHand : ConsumerPc → List ConnectionState
  | .delivering s => [s]
  | _ => []

/-- Where `Close()` is: not running, or past its state change and about to
close the channel. -/
inductive CloserPc where
  | idle
  | closing
  deriving DecidableEq, Repr

/-- The manager, its channel's closedness, its three goroutines, and the
record of the run: the states decided under the lock, the channel's log, and
the states handed to the listeners. -/
structure ManagerWorld where
  manager : ConnectionStateManager
  closed : Bool
  poster : PosterPc
  consumer : ConsumerPc
  closer : CloserPc
  posted : List ConnectionState
  log : GoChannel.Log Receiver ConnectionState
  delivered : List ConnectionState

/-- What happens next: `Start()`, a framework call taking the free lock, the
next step of the lock holder, of `processEvents`, or of `Close()`. -/
inductive ManagerAction where
  | start
  | call (c : FrameworkCall)
  | post
  | consume
  | close
  | closeChannel
  deriving DecidableEq, Repr

namespace ManagerWorld

/-- The channel `events`: the manager's buffer and `QueueSize`. -/
def chan (w : ManagerWorld) : GoChannel.Chan ConnectionState :=
  ⟨w.manager.events, w.manager.queueSize, w.closed⟩

/-- A new manager, before `Start()`. -/
def init : ManagerWorld :=
  ⟨ConnectionStateManager.new, false, .idle, .notStarted, .idle, [], .empty, []⟩

/-- `Start()`: the state change, the channel, and `go m.processEvents()`. -/
def startStep (w : ManagerWorld) : ManagerWorld :=
  match w.manager.start with
  | (m, none) => { w with manager := m, consumer := .receiving }
  | (_, some _) => w

/-- A call that has taken the lock decides; a state to post starts the loop
of `postState`. -/
def callLocked (w : ManagerWorld) (sc : StateCall) : ManagerWorld :=
  let r := sc.locked w.manager
  { w with
    manager := r.manager
    posted := w.posted ++ r.toPost.toList
    poster := match r.toPost with
      | some s => .sending s
      | none => .idle }

/-- A framework call: it waits while another call holds the lock. -/
def callStep (w : ManagerWorld) (c : FrameworkCall) : ManagerWorld :=
  match w.poster, c.stateCall with
  | .idle, some sc => w.callLocked sc
  | _, _ => w

/-- The send at the top of the loop of `postState`; a send on the closed
channel panics, and `postState` recovers and returns. -/
def trySendStep (w : ManagerWorld) (s : ConnectionState) : ManagerWorld :=
  match w.chan.trySend s with
  | .sent c =>
    { w with
      manager := { w.manager with events := c.buf }
      poster := .idle
      log := w.log.send s }
  | .full => { w with poster := .receiving s }
  | .panics => { w with poster := .idle }

/-- The receive of `postState` after a failed send. -/
def tryRecvStep (w : ManagerWorld) (s : ConnectionState) : ManagerWorld :=
  match w.chan.recv with
  | .received x c =>
    { w with
      manager := { w.manager with events := c.buf }
      poster := .resending s
      log := w.log.recv .postState x }
  | .drained => { w with poster := .idle }
  | .empty => { w with poster := .resending s }

/-- The lock holder's next step in `postState`. -/
def postStep (w : ManagerWorld) : ManagerWorld :=
  match w.poster with
  | .idle => w
  | .sending s | .resending s => w.trySendStep s
  | .receiving s => w.tryRecvStep s

/-- The next step of `processEvents`: a receive that waits on an open empty
channel and returns on a drained one, or the hand-over to the listeners. -/
def consumeStep (w : ManagerWorld) : ManagerWorld :=
  match w.consumer with
  | .receiving =>
    match w.chan.recv with
    | .received x c =>
      { w with
        manager := { w.manager with events := c.buf }
        consumer := .delivering x
        log := w.log.recv .processEvents x }
    | .drained => { w with consumer := .exited }
    | .empty => w
  | .delivering s => { w with consumer := .receiving, delivered := w.delivered ++ [s] }
  | .notStarted | .exited => w

/-- `Close()` up to its state change; it returns at once unless the manager
was started. -/
def closeStep (w : ManagerWorld) : ManagerWorld :=
  match w.manager.state.change .started .stopped with
  | (_, true) => { w with manager := w.manager.close, closer := .closing }
  | (_, false) => w

/-- `close(m.events)`; the channel is closed only here, once. -/
def closeChannelStep (w : ManagerWorld) : ManagerWorld :=
  match w.closer, w.chan.close with
  | .closing, some c => { w with closed := c.closed, closer := .idle }
  | _, _ => w

def step (w : ManagerWorld) : ManagerAction → ManagerWorld
  | .start => w.startStep
  | .call c => w.callStep c
  | .post => w.postStep
  | .consume => w.consumeStep
  | .close => w.closeStep
  | .closeChannel => w.closeChannelStep

/-- The pipeline as a transition system. -/
def system : TransitionSystem.System ManagerWorld ManagerAction :=
  .ofFun init step

/-! ### What each step does -/

variable {w : ManagerWorld} {s x : ConnectionState} {rest : List ConnectionState}

theorem trySendStep_of_room (hopen : w.closed = false)
    (hroom : w.manager.events.length < w.manager.queueSize) :
    w.trySendStep s = { w with
      manager := { w.manager with events := w.manager.events ++ [s] }
      poster := .idle
      log := w.log.send s } := by
  have hsend : w.chan.trySend s = .sent { w.chan with buf := w.chan.buf ++ [s] } :=
    GoChannel.Chan.trySend_of_room hopen hroom
  rw [trySendStep, hsend]
  rfl

theorem trySendStep_of_full (hopen : w.closed = false)
    (hfull : w.manager.queueSize ≤ w.manager.events.length) :
    w.trySendStep s = { w with poster := .receiving s } := by
  have hsend : w.chan.trySend s = .full := GoChannel.Chan.trySend_of_full hopen hfull
  rw [trySendStep, hsend]

theorem trySendStep_of_closed (hclosed : w.closed = true) :
    w.trySendStep s = { w with poster := .idle } := by
  simp [trySendStep, chan, GoChannel.Chan.trySend, hclosed]

theorem tryRecvStep_of_cons (hbuf : w.manager.events = x :: rest) :
    w.tryRecvStep s = { w with
      manager := { w.manager with events := rest }
      poster := .resending s
      log := w.log.recv .postState x } := by
  have hrecv : w.chan.recv = .received x { w.chan with buf := rest } :=
    GoChannel.Chan.recv_cons hbuf
  rw [tryRecvStep, hrecv]

theorem tryRecvStep_of_nil (hbuf : w.manager.events = []) :
    w.tryRecvStep s = { w with poster := if w.closed then .idle else .resending s } := by
  cases hclosed : w.closed <;> simp [tryRecvStep, chan, GoChannel.Chan.recv, hbuf, hclosed]

theorem consumeStep_of_cons (hc : w.consumer = .receiving) (hbuf : w.manager.events = x :: rest) :
    w.consumeStep = { w with
      manager := { w.manager with events := rest }
      consumer := .delivering x
      log := w.log.recv .processEvents x } := by
  have hrecv : w.chan.recv = .received x { w.chan with buf := rest } :=
    GoChannel.Chan.recv_cons hbuf
  rw [consumeStep, hc]
  simp only [hrecv]

theorem consumeStep_of_nil (hc : w.consumer = .receiving) (hbuf : w.manager.events = []) :
    w.consumeStep = if w.closed then { w with consumer := .exited } else w := by
  cases hclosed : w.closed <;> simp [consumeStep, hc, chan, GoChannel.Chan.recv, hbuf, hclosed]

theorem consumeStep_of_delivering (hc : w.consumer = .delivering s) :
    w.consumeStep = { w with consumer := .receiving, delivered := w.delivered ++ [s] } := by
  simp only [consumeStep, hc]

theorem consumeStep_of_idle (hc : w.consumer = .notStarted ∨ w.consumer = .exited) :
    w.consumeStep = w := by
  rcases hc with hc | hc <;> simp only [consumeStep, hc]

theorem closeStep_of_started (hst : w.manager.state = .started) :
    w.closeStep = { w with
      manager := { w.manager with state := .stopped }
      closer := .closing } := by
  simp [closeStep, ConnectionStateManager.close, hst]

theorem closeStep_of_ne (hst : w.manager.state ≠ .started) : w.closeStep = w := by
  simp [closeStep, hst]

theorem closeChannelStep_of_closing (hc : w.closer = .closing) (hopen : w.closed = false) :
    w.closeChannelStep = { w with closed := true, closer := .idle } := by
  have hclose : w.chan.close = some { w.chan with closed := true } :=
    GoChannel.Chan.close_of_open hopen
  simp only [closeChannelStep, hc, hclose]

theorem closeChannelStep_of_idle (hc : w.closer = .idle) : w.closeChannelStep = w := by
  simp [closeChannelStep, hc]

theorem startStep_of_latent (hst : w.manager.state = .latent) :
    w.startStep = { w with
      manager := { w.manager with state := .started, events := [] }
      consumer := .receiving } := by
  simp [startStep, ConnectionStateManager.start, hst]

theorem startStep_of_ne (hst : w.manager.state ≠ .latent) : w.startStep = w := by
  simp [startStep, ConnectionStateManager.start, hst]

theorem callStep_of_idle {c : FrameworkCall} {sc : StateCall} (hp : w.poster = .idle)
    (hc : c.stateCall = some sc) : w.callStep c = w.callLocked sc := by
  simp only [callStep, hp, hc]

theorem callStep_of_busy {c : FrameworkCall} (hp : w.poster ≠ .idle ∨ c.stateCall = none) :
    w.callStep c = w := by
  unfold callStep
  split
  · next sc hp' hc => rcases hp with hp | hp <;> simp_all
  · rfl

/-- A call that decides nothing to post changes nothing. -/
theorem callLocked_of_none {sc : StateCall} (hp : w.poster = .idle)
    (hto : (sc.locked w.manager).toPost = none) : w.callLocked sc = w := by
  have hman := StateCall.locked_of_none hto
  simp only [ManagerWorld.callLocked, hman, hto, Option.toList_none, List.append_nil]
  rw [← hp]

/-- A manager that is not started refuses every call. -/
theorem callStep_of_ne_started {c : FrameworkCall} (hst : w.manager.state ≠ .started) :
    w.callStep c = w := by
  cases hc : c.stateCall with
  | none => exact callStep_of_busy (.inr hc)
  | some sc =>
    by_cases hp : w.poster = .idle
    · rw [callStep_of_idle hp hc]
      cases hto : (sc.locked w.manager).toPost with
      | none => exact callLocked_of_none hp hto
      | some p => exact absurd (StateCall.started_of_toPost hto) hst
    · exact callStep_of_busy (.inl hp)

/-! ### The invariant -/

/-- What holds in every reachable state of the pipeline: the buffer within
`QueueSize` and accounted for by the channel's log; `processEvents` got what
it delivered and what it holds; every decided state sent but the one in
progress or, once the channel is closed, one lost with its post; a send after
a receive has room; an idle lock holder with an open channel did not make the
last receipt unless something is buffered; a closed channel belongs to a
stopped manager; nothing happens before `Start()`; and the decisions' history
invariant. -/
structure Invariant (w : ManagerWorld) : Prop where
  cap_pos : 1 ≤ w.manager.queueSize
  withinCap : w.chan.WithinCap
  agrees : w.log.Agrees w.chan
  delivered : w.log.receivedBy .processEvents = w.delivered ++ w.consumer.inHand
  posted : w.posted = w.log.sent ++ w.poster.pending ∨
    (w.closed = true ∧ w.poster = .idle ∧ ∃ s, w.posted = w.log.sent ++ [s])
  resend_room : ∀ s, w.poster = .resending s →
    w.closed = true ∨ w.manager.events.length < w.manager.queueSize
  newest : w.poster = .idle → w.closed = false →
    w.log.received.getLast?.map Prod.fst = some .postState → w.manager.events ≠ []
  closed_stopped : w.closed = true → w.manager.state = .stopped
  closing : w.closer = .closing → w.closed = false ∧ w.manager.state = .stopped
  latent : w.manager.state = .latent → w.manager.events = [] ∧ w.log.received = [] ∧
    w.poster = .idle ∧ w.consumer = .notStarted
  history : HistoryInv w.manager w.posted

theorem invariant_init : init.Invariant where
  cap_pos := by decide
  withinCap := Nat.zero_le _
  agrees := GoChannel.Log.agrees_empty _ rfl
  delivered := rfl
  posted := .inl rfl
  resend_room _ h := by cases h
  newest _ _ h := by cases h
  closed_stopped h := by cases h
  closing h := by cases h
  latent _ := ⟨rfl, rfl, rfl, rfl⟩
  history := historyInv_new _ rfl rfl

/-- A post in progress is the one state decided and not yet sent. -/
theorem Invariant.posted_of_busy (h : w.Invariant) (hp : w.poster ≠ .idle) :
    w.posted = w.log.sent ++ w.poster.pending := by
  rcases h.posted with h' | ⟨-, hidle, -⟩
  · exact h'
  · exact absurd hidle hp

/-- Nothing runs before `Start()`. -/
theorem Invariant.state_ne_latent (h : w.Invariant)
    (hbusy : w.poster ≠ .idle ∨ w.consumer ≠ .notStarted) : w.manager.state ≠ .latent := by
  intro hl
  obtain ⟨-, -, hp, hc⟩ := h.latent hl
  rcases hbusy with hbusy | hbusy
  · exact hbusy hp
  · exact hbusy hc

/-- Only a stopped manager's channel is closed. -/
theorem Invariant.open_of_ne_stopped (h : w.Invariant) (hst : w.manager.state ≠ .stopped) :
    w.closed = false := by
  cases hcl : w.closed
  · rfl
  · exact absurd (h.closed_stopped hcl) hst

/-- The send of the lock holder keeps the invariant. -/
theorem Invariant.trySendStep (h : w.Invariant)
    (hp : w.poster = .sending s ∨ w.poster = .resending s) : (w.trySendStep s).Invariant := by
  have hbusy : w.poster ≠ .idle := by rcases hp with hp | hp <;> rw [hp] <;> simp
  have hposted : w.posted = w.log.sent ++ [s] := by
    rw [h.posted_of_busy hbusy]
    rcases hp with hp | hp <;> rw [hp] <;> rfl
  have hnl := h.state_ne_latent (.inl hbusy)
  cases hclosed : w.closed
  · by_cases hroom : w.manager.events.length < w.manager.queueSize
    · rw [trySendStep_of_room hclosed hroom]
      exact {
        cap_pos := h.cap_pos
        withinCap := by
          simp only [GoChannel.Chan.WithinCap, chan, List.length_append, List.length_singleton]
          omega
        agrees := h.agrees.send (GoChannel.Chan.trySend_of_room hclosed hroom)
        delivered := h.delivered
        posted := .inl (by simp [hposted, PosterPc.pending])
        resend_room := fun _ h => by cases h
        newest := fun _ _ _ => by simp
        closed_stopped := h.closed_stopped
        closing := h.closing
        latent := fun hl => absurd hl hnl
        history := h.history.of_eq rfl rfl }
    · rw [trySendStep_of_full hclosed (Nat.le_of_not_lt hroom)]
      exact {
        cap_pos := h.cap_pos
        withinCap := h.withinCap
        agrees := h.agrees
        delivered := h.delivered
        posted := .inl (by rw [hposted]; rfl)
        resend_room := fun _ h => by cases h
        newest := fun h => by cases h
        closed_stopped := h.closed_stopped
        closing := h.closing
        latent := fun hl => absurd hl hnl
        history := h.history }
  · rw [trySendStep_of_closed hclosed]
    exact {
      cap_pos := h.cap_pos
      withinCap := h.withinCap
      agrees := h.agrees
      delivered := h.delivered
      posted := .inr ⟨hclosed, rfl, s, hposted⟩
      resend_room := fun _ h => by cases h
      newest := fun _ hc => by simp_all
      closed_stopped := h.closed_stopped
      closing := h.closing
      latent := fun hl => absurd hl hnl
      history := h.history }

/-- The receive of the lock holder keeps the invariant. -/
theorem Invariant.tryRecvStep (h : w.Invariant) (hp : w.poster = .receiving s) :
    (w.tryRecvStep s).Invariant := by
  have hbusy : w.poster ≠ .idle := by rw [hp]; simp
  have hposted : w.posted = w.log.sent ++ [s] := by
    rw [h.posted_of_busy hbusy, hp]
    rfl
  have hnl := h.state_ne_latent (.inl hbusy)
  cases hbuf : w.manager.events with
  | cons x rest =>
    have hlen := h.withinCap
    simp only [GoChannel.Chan.WithinCap, chan, hbuf, List.length_cons] at hlen
    rw [tryRecvStep_of_cons hbuf]
    exact {
      cap_pos := h.cap_pos
      withinCap := by
        simp only [GoChannel.Chan.WithinCap, chan]
        omega
      agrees := h.agrees.recv (GoChannel.Chan.recv_cons hbuf) .postState
      delivered := by
        rw [GoChannel.Log.receivedBy_recv_of_ne (by decide)]
        exact h.delivered
      posted := .inl (by rw [hposted]; rfl)
      resend_room := fun _ _ => .inr (by simp only; omega)
      newest := fun h => by cases h
      closed_stopped := h.closed_stopped
      closing := h.closing
      latent := fun hl => absurd hl hnl
      history := h.history.of_eq rfl rfl }
  | nil =>
    by_cases hclosed : w.closed = true
    · rw [tryRecvStep_of_nil hbuf, if_pos hclosed]
      exact {
        cap_pos := h.cap_pos
        withinCap := h.withinCap
        agrees := h.agrees
        delivered := h.delivered
        posted := .inr ⟨hclosed, rfl, s, hposted⟩
        resend_room := fun _ h => by cases h
        newest := fun _ hc => by simp_all
        closed_stopped := h.closed_stopped
        closing := h.closing
        latent := fun hl => absurd hl hnl
        history := h.history }
    · rw [tryRecvStep_of_nil hbuf, if_neg hclosed]
      exact {
        cap_pos := h.cap_pos
        withinCap := h.withinCap
        agrees := h.agrees
        delivered := h.delivered
        posted := .inl (by rw [hposted]; rfl)
        resend_room := fun _ _ => .inr (by simp only [hbuf, List.length_nil]; exact h.cap_pos)
        newest := fun h => by cases h
        closed_stopped := h.closed_stopped
        closing := h.closing
        latent := fun hl => absurd hl hnl
        history := h.history }

theorem Invariant.postStep (h : w.Invariant) : w.postStep.Invariant := by
  cases hp : w.poster with
  | idle =>
    simp only [ManagerWorld.postStep, hp]
    exact h
  | sending s =>
    simp only [ManagerWorld.postStep, hp]
    exact h.trySendStep (.inl hp)
  | resending s =>
    simp only [ManagerWorld.postStep, hp]
    exact h.trySendStep (.inr hp)
  | receiving s =>
    simp only [ManagerWorld.postStep, hp]
    exact h.tryRecvStep hp

/-- A step of `processEvents` keeps the invariant. -/
theorem Invariant.consumeStep (h : w.Invariant) : w.consumeStep.Invariant := by
  cases hc : w.consumer with
  | receiving =>
    have hnl := h.state_ne_latent (.inr (by rw [hc]; simp))
    cases hbuf : w.manager.events with
    | cons x rest =>
      have hlen := h.withinCap
      simp only [GoChannel.Chan.WithinCap, chan, hbuf, List.length_cons] at hlen
      rw [consumeStep_of_cons hc hbuf]
      exact {
        cap_pos := h.cap_pos
        withinCap := by
          simp only [GoChannel.Chan.WithinCap, chan]
          omega
        agrees := h.agrees.recv (GoChannel.Chan.recv_cons hbuf) .processEvents
        delivered := by
          rw [GoChannel.Log.receivedBy_recv_self, h.delivered, hc]
          simp [ConsumerPc.inHand]
        posted := h.posted
        resend_room := fun s' hs' => by
          rcases h.resend_room s' hs' with hcl | hroom
          · exact .inl hcl
          · rw [hbuf, List.length_cons] at hroom
            exact .inr (by simp only; omega)
        newest := fun _ _ hl => by simp at hl
        closed_stopped := h.closed_stopped
        closing := h.closing
        latent := fun hl => absurd hl hnl
        history := h.history.of_eq rfl rfl }
    | nil =>
      rw [consumeStep_of_nil hc hbuf]
      by_cases hclosed : w.closed = true
      · rw [if_pos hclosed]
        exact {
          cap_pos := h.cap_pos
          withinCap := h.withinCap
          agrees := h.agrees
          delivered := by rw [h.delivered, hc]; rfl
          posted := h.posted
          resend_room := h.resend_room
          newest := h.newest
          closed_stopped := h.closed_stopped
          closing := h.closing
          latent := fun hl => absurd hl hnl
          history := h.history }
      · rw [if_neg hclosed]
        exact h
  | delivering s =>
    have hnl := h.state_ne_latent (.inr (by rw [hc]; simp))
    rw [consumeStep_of_delivering hc]
    exact {
      cap_pos := h.cap_pos
      withinCap := h.withinCap
      agrees := h.agrees
      delivered := by rw [h.delivered, hc]; simp [ConsumerPc.inHand]
      posted := h.posted
      resend_room := h.resend_room
      newest := h.newest
      closed_stopped := h.closed_stopped
      closing := h.closing
      latent := fun hl => absurd hl hnl
      history := h.history }
  | notStarted =>
    rw [consumeStep_of_idle (.inl hc)]
    exact h
  | exited =>
    rw [consumeStep_of_idle (.inr hc)]
    exact h

/-- A framework call's decision keeps the invariant. -/
theorem Invariant.callLocked (h : w.Invariant) (hp : w.poster = .idle) {sc : StateCall}
    (hsc : sc.FromFramework) : (w.callLocked sc).Invariant := by
  obtain ⟨hst, hev, hq⟩ := StateCall.locked_frame sc w.manager
  have hchan : (w.callLocked sc).chan = w.chan := by
    simp only [ManagerWorld.callLocked, chan, hev, hq]
  cases hto : (sc.locked w.manager).toPost with
  | none =>
    rw [callLocked_of_none hp hto]
    exact h
  | some p =>
    have hstarted := StateCall.started_of_toPost hto
    have hopen : w.closed = false := h.open_of_ne_stopped (by rw [hstarted]; decide)
    have hposted : w.posted = w.log.sent := by
      rcases h.posted with h' | ⟨hcl, -, -⟩
      · rw [h', hp]
        simp [PosterPc.pending]
      · rw [hopen] at hcl
        cases hcl
    have hhist := h.history.locked hsc
    rw [hto, Option.toList_some] at hhist
    exact {
      cap_pos := by simp only [ManagerWorld.callLocked, hq]; exact h.cap_pos
      withinCap := by rw [hchan]; exact h.withinCap
      agrees := by rw [hchan]; exact h.agrees
      delivered := h.delivered
      posted := .inl (by simp [ManagerWorld.callLocked, hto, hposted, PosterPc.pending])
      resend_room := fun _ hs' => by simp [ManagerWorld.callLocked, hto] at hs'
      newest := fun hs' => by simp [ManagerWorld.callLocked, hto] at hs'
      closed_stopped := fun hcl => by
        simp only [ManagerWorld.callLocked] at hcl
        rw [hopen] at hcl
        cases hcl
      closing := fun hcl => by
        simp only [ManagerWorld.callLocked, hst] at hcl ⊢
        exact h.closing hcl
      latent := fun hl => by
        simp only [ManagerWorld.callLocked, hst] at hl
        rw [hstarted] at hl
        cases hl
      history := by simpa [ManagerWorld.callLocked, hto] using hhist }

theorem Invariant.callStep (h : w.Invariant) (c : FrameworkCall) : (w.callStep c).Invariant := by
  cases hc : c.stateCall with
  | none =>
    rw [callStep_of_busy (.inr hc)]
    exact h
  | some sc =>
    by_cases hp : w.poster = .idle
    · rw [callStep_of_idle hp hc]
      exact h.callLocked hp (FrameworkCall.stateCall_fromFramework hc)
    · rw [callStep_of_busy (.inl hp)]
      exact h

/-- `Close()`'s state change keeps the invariant. -/
theorem Invariant.closeStep (h : w.Invariant) : w.closeStep.Invariant := by
  by_cases hst : w.manager.state = .started
  · have hopen : w.closed = false := h.open_of_ne_stopped (by rw [hst]; decide)
    rw [closeStep_of_started hst]
    exact {
      cap_pos := h.cap_pos
      withinCap := h.withinCap
      agrees := h.agrees
      delivered := h.delivered
      posted := h.posted
      resend_room := h.resend_room
      newest := h.newest
      closed_stopped := fun _ => rfl
      closing := fun _ => ⟨hopen, rfl⟩
      latent := fun hl => by cases hl
      history := h.history.of_eq rfl rfl }
  · rw [closeStep_of_ne hst]
    exact h

/-- `close(m.events)` keeps the invariant. -/
theorem Invariant.closeChannelStep (h : w.Invariant) : w.closeChannelStep.Invariant := by
  cases hc : w.closer with
  | idle =>
    rw [closeChannelStep_of_idle hc]
    exact h
  | closing =>
    obtain ⟨hopen, hstopped⟩ := h.closing hc
    rw [closeChannelStep_of_closing hc hopen]
    exact {
      cap_pos := h.cap_pos
      withinCap := h.withinCap
      agrees := h.agrees
      delivered := h.delivered
      posted := by
        rcases h.posted with h' | ⟨hcl, -⟩
        · exact .inl h'
        · rw [hopen] at hcl
          cases hcl
      resend_room := fun _ _ => .inl rfl
      newest := fun _ hcl => by cases hcl
      closed_stopped := fun _ => hstopped
      closing := fun hcl => by cases hcl
      latent := fun hl => by
        simp only at hl
        rw [hstopped] at hl
        cases hl
      history := h.history }

/-- `Start()` keeps the invariant. -/
theorem Invariant.startStep (h : w.Invariant) : w.startStep.Invariant := by
  by_cases hst : w.manager.state = .latent
  · obtain ⟨hbuf, hrecv, hp, hc⟩ := h.latent hst
    have hopen : w.closed = false := h.open_of_ne_stopped (by rw [hst]; decide)
    have hcloser : w.closer = .idle := by
      cases hcl : w.closer
      · rfl
      · have := (h.closing hcl).2
        rw [hst] at this
        cases this
    rw [startStep_of_latent hst]
    exact {
      cap_pos := h.cap_pos
      withinCap := Nat.zero_le _
      agrees := h.agrees.of_buf_eq hbuf.symm
      delivered := by rw [h.delivered, hc]; rfl
      posted := h.posted
      resend_room := fun _ hs' => by
        simp only at hs'
        rw [hp] at hs'
        cases hs'
      newest := fun _ _ hl => by simp [hrecv] at hl
      closed_stopped := fun hcl => by
        simp only at hcl
        rw [hopen] at hcl
        cases hcl
      closing := fun hcl => by
        simp only at hcl
        rw [hcloser] at hcl
        cases hcl
      latent := fun hl => by cases hl
      history := h.history.of_eq rfl rfl }
  · rw [startStep_of_ne hst]
    exact h

theorem Invariant.step (h : w.Invariant) (e : ManagerAction) : (w.step e).Invariant := by
  cases e with
  | start => exact h.startStep
  | call c => exact h.callStep c
  | post => exact h.postStep
  | consume => exact h.consumeStep
  | close => exact h.closeStep
  | closeChannel => exact h.closeChannelStep

/-- Once `processEvents` has started, only its own steps move it or add to what
the listeners got. -/
theorem Invariant.consumer_step (h : w.Invariant) {a : ManagerAction} (ha : a ≠ .consume)
    (hc : w.consumer ≠ .notStarted) :
    (w.step a).consumer = w.consumer ∧ (w.step a).delivered = w.delivered := by
  cases a with
  | start =>
    rw [ManagerWorld.step, startStep_of_ne (h.state_ne_latent (.inr hc))]
    exact ⟨rfl, rfl⟩
  | call c =>
    simp only [ManagerWorld.step, ManagerWorld.callStep]
    split <;> exact ⟨rfl, rfl⟩
  | post =>
    simp only [ManagerWorld.step, ManagerWorld.postStep]
    split
    · exact ⟨rfl, rfl⟩
    all_goals
      first
      | (unfold ManagerWorld.trySendStep; split <;> exact ⟨rfl, rfl⟩)
      | (unfold ManagerWorld.tryRecvStep; split <;> exact ⟨rfl, rfl⟩)
  | consume => exact absurd rfl ha
  | close =>
    simp only [ManagerWorld.step, ManagerWorld.closeStep]
    split <;> exact ⟨rfl, rfl⟩
  | closeChannel =>
    simp only [ManagerWorld.step, ManagerWorld.closeChannelStep]
    split <;> exact ⟨rfl, rfl⟩

theorem invariant_inductive : TransitionSystem.Inductive system Invariant where
  init := invariant_init
  step := by
    rintro w e _ hw rfl
    exact hw.step e

theorem invariant_of_reachable (hw : TransitionSystem.Reachable system w) : w.Invariant :=
  TransitionSystem.Reachable.of_inductive invariant_inductive hw

/-- What was sent is a prefix of what the lock decided to post. -/
theorem Invariant.sent_prefix (h : w.Invariant) : w.log.sent <+: w.posted := by
  rcases h.posted with h' | ⟨-, -, p, h'⟩
  · rw [h']
    exact List.prefix_append _ _
  · rw [h']
    exact List.prefix_append _ _

/-! ### After the channel is closed -/

/-- How the pipeline can move on from `w` once its channel is closed: the
channel stays closed, nothing more is decided or sent, the listeners keep what
they got, and what they got, what `processEvents` holds and what is buffered
only lose states. -/
structure AfterClose (w w' : ManagerWorld) : Prop where
  closed : w'.closed = true
  posted : w'.posted = w.posted
  sent : w'.log.sent = w.log.sent
  delivered : w.delivered <+: w'.delivered
  outstanding : (w'.delivered ++ w'.consumer.inHand ++ w'.manager.events).Sublist
    (w.delivered ++ w.consumer.inHand ++ w.manager.events)

theorem AfterClose.refl (hclosed : w.closed = true) : AfterClose w w :=
  ⟨hclosed, rfl, rfl, List.prefix_refl _, List.Sublist.refl _⟩

theorem AfterClose.trans {w₁ w₂ w₃ : ManagerWorld} (h₁ : AfterClose w₁ w₂)
    (h₂ : AfterClose w₂ w₃) : AfterClose w₁ w₃ :=
  ⟨h₂.closed, h₂.posted.trans h₁.posted, h₂.sent.trans h₁.sent, h₁.delivered.trans h₂.delivered,
    h₂.outstanding.trans h₁.outstanding⟩

/-- A post that ends on the closed channel changes only the lock holder's pc. -/
theorem AfterClose.of_poster (hclosed : w.closed = true) (p : PosterPc) :
    AfterClose w { w with poster := p } :=
  ⟨hclosed, rfl, rfl, List.prefix_refl _, List.Sublist.refl _⟩

/-- Once the channel is closed, every step of every goroutine keeps to
`AfterClose`: the manager is stopped, so no call decides and `Close()` and
`Start()` do nothing; a send panics; receives only move or drop buffered
states. -/
theorem Invariant.afterClose_step (h : w.Invariant) (hclosed : w.closed = true)
    (e : ManagerAction) : AfterClose w (w.step e) := by
  have hstopped := h.closed_stopped hclosed
  cases e with
  | start =>
    rw [ManagerWorld.step, startStep_of_ne (by rw [hstopped]; decide)]
    exact .refl hclosed
  | call c =>
    rw [ManagerWorld.step, callStep_of_ne_started (by rw [hstopped]; decide)]
    exact .refl hclosed
  | close =>
    rw [ManagerWorld.step, closeStep_of_ne (by rw [hstopped]; decide)]
    exact .refl hclosed
  | closeChannel =>
    cases hc : w.closer with
    | idle =>
      rw [ManagerWorld.step, closeChannelStep_of_idle hc]
      exact .refl hclosed
    | closing =>
      have := (h.closing hc).1
      rw [hclosed] at this
      cases this
  | post =>
    cases hp : w.poster with
    | idle =>
      simp only [ManagerWorld.step, ManagerWorld.postStep, hp]
      exact .refl hclosed
    | sending s =>
      simp only [ManagerWorld.step, ManagerWorld.postStep, hp]
      rw [trySendStep_of_closed hclosed]
      exact .of_poster hclosed _
    | resending s =>
      simp only [ManagerWorld.step, ManagerWorld.postStep, hp]
      rw [trySendStep_of_closed hclosed]
      exact .of_poster hclosed _
    | receiving s =>
      simp only [ManagerWorld.step, ManagerWorld.postStep, hp]
      cases hbuf : w.manager.events with
      | nil =>
        rw [tryRecvStep_of_nil hbuf, if_pos hclosed]
        exact .of_poster hclosed _
      | cons x rest =>
        rw [tryRecvStep_of_cons hbuf]
        refine ⟨hclosed, rfl, rfl, List.prefix_refl _, ?_⟩
        rw [hbuf]
        exact (List.sublist_cons_self x rest).append_left _
  | consume =>
    cases hc : w.consumer with
    | receiving =>
      cases hbuf : w.manager.events with
      | nil =>
        rw [ManagerWorld.step, consumeStep_of_nil hc hbuf, if_pos hclosed]
        exact ⟨hclosed, rfl, rfl, List.prefix_refl _, by simp [hc, hbuf, ConsumerPc.inHand]⟩
      | cons x rest =>
        rw [ManagerWorld.step, consumeStep_of_cons hc hbuf]
        exact ⟨hclosed, rfl, rfl, List.prefix_refl _, by simp [hc, hbuf, ConsumerPc.inHand]⟩
    | delivering s =>
      rw [ManagerWorld.step, consumeStep_of_delivering hc]
      exact ⟨hclosed, rfl, rfl, List.prefix_append _ _, by simp [hc, ConsumerPc.inHand]⟩
    | notStarted =>
      rw [ManagerWorld.step, consumeStep_of_idle (.inl hc)]
      exact .refl hclosed
    | exited =>
      rw [ManagerWorld.step, consumeStep_of_idle (.inr hc)]
      exact .refl hclosed

/-- Over any run from a reachable world with a closed channel. -/
theorem Invariant.afterClose_foldl (h : w.Invariant) (hclosed : w.closed = true)
    (es : List ManagerAction) : AfterClose w (es.foldl ManagerWorld.step w) := by
  induction es generalizing w with
  | nil => exact .refl hclosed
  | cons e es ih =>
    have hstep := h.afterClose_step hclosed e
    exact hstep.trans (ih (h.step e) hstep.closed)

end ManagerWorld

open ManagerWorld in
/-- Over every interleaving of the framework's calls, the lock holder's
`postState` loop, `processEvents` and `Close()`: the states handed to the
listeners, then the one `processEvents` holds, then those buffered, were sent
in that order (none out of order, none twice, none that was not sent), and
every state sent was decided under the lock in that order; the buffer holds
the states sent last, within `QueueSize`; and as long as `postState` never
dropped a state, the listeners get exactly the states sent. -/
theorem managerEvents_in_order {w : ManagerWorld}
    (hw : TransitionSystem.Reachable ManagerWorld.system w) :
    (w.delivered ++ w.consumer.inHand ++ w.manager.events).Sublist w.log.sent ∧
      w.log.sent <+: w.posted ∧ w.manager.events <:+ w.log.sent ∧
      w.manager.events.length ≤ w.manager.queueSize ∧
      ((∀ e ∈ w.log.received, e.1 = .processEvents) →
        w.delivered ++ w.consumer.inHand ++ w.manager.events = w.log.sent) := by
  have h := invariant_of_reachable hw
  rw [← h.delivered]
  exact ⟨h.agrees.receivedBy_append_sublist _, h.sent_prefix, h.agrees.buf_suffix, h.withinCap,
    fun hall => h.agrees.receivedBy_append_eq hall⟩

/-- A run: `Start()`, a reconnection and a disconnection, each posted, then
`processEvents` takes the first state and hands it over, and `Close()`. -/
theorem managerEvents_in_order_run :
    let w := [ManagerAction.start, .call (.watched .stateSyncConnected), .post,
      .call (.watched .stateDisconnected), .post, .consume, .consume, .close, .closeChannel].foldl
      ManagerWorld.step ManagerWorld.init
    TransitionSystem.Reachable ManagerWorld.system w ∧
      w.delivered = [.connected] ∧ w.manager.events = [.suspended] ∧
      (w.delivered ++ w.consumer.inHand ++ w.manager.events).Sublist w.log.sent ∧
      w.log.sent <+: w.posted ∧ w.manager.events <:+ w.log.sent ∧
      w.manager.events.length ≤ w.manager.queueSize ∧
      ((∀ e ∈ w.log.received, e.1 = .processEvents) →
        w.delivered ++ w.consumer.inHand ++ w.manager.events = w.log.sent) := by
  intro w
  have hw : TransitionSystem.Reachable ManagerWorld.system w := TransitionSystem.reachable_foldl _
  exact ⟨hw, rfl, rfl, managerEvents_in_order hw⟩

open ManagerWorld in
/-- While no post is in progress and the channel is open, the newest state
sent was not dropped: it is the last one buffered or, with nothing buffered,
`processEvents` has taken it, as the last state it handed to the listeners or
the one it holds. -/
theorem managerEvents_newest_kept {w : ManagerWorld}
    (hw : TransitionSystem.Reachable ManagerWorld.system w) (hidle : w.poster = .idle)
    (hopen : w.closed = false) {s : ConnectionState} (hs : w.log.sent.getLast? = some s) :
    w.manager.events.getLast? = some s ∨
      (w.manager.events = [] ∧ (w.delivered ++ w.consumer.inHand).getLast? = some s) := by
  have h := invariant_of_reachable hw
  by_cases hbuf : w.manager.events = []
  · right
    refine ⟨hbuf, ?_⟩
    have hlast := h.agrees.getLast?_of_nil hbuf
    rw [hs] at hlast
    obtain ⟨⟨r, x⟩, hrx, hx⟩ := Option.map_eq_some_iff.mp hlast.symm
    simp only at hx
    subst hx
    cases r with
    | postState => exact absurd hbuf (h.newest hidle hopen (by simp [hrx]))
    | processEvents =>
      rw [← h.delivered]
      exact GoChannel.Log.getLast?_receivedBy hrx
  · left
    rw [← hs, h.agrees.getLast?_of_ne_nil hbuf]
    rfl

/-- After a reconnection is posted and taken by `processEvents`, its
`CONNECTED` is the newest state sent, and it is the state `processEvents`
holds. -/
theorem managerEvents_newest_kept_run :
    let w := [ManagerAction.start, .call (.watched .stateSyncConnected), .post, .consume].foldl
      ManagerWorld.step ManagerWorld.init
    TransitionSystem.Reachable ManagerWorld.system w ∧ w.poster = .idle ∧ w.closed = false ∧
      w.log.sent.getLast? = some .connected ∧
      (w.manager.events.getLast? = some .connected ∨
        (w.manager.events = [] ∧ (w.delivered ++ w.consumer.inHand).getLast? = some .connected)) := by
  intro w
  have hw : TransitionSystem.Reachable ManagerWorld.system w := TransitionSystem.reachable_foldl _
  have hidle : w.poster = .idle := rfl
  have hopen : w.closed = false := rfl
  have hs : w.log.sent.getLast? = some .connected := rfl
  exact ⟨hw, hidle, hopen, hs, managerEvents_newest_kept hw hidle hopen hs⟩

open ManagerWorld in
/-- `postState` makes at most two passes of its loop: after its receive, the
send of the next pass always ends the post, buffering its state unless the
channel was closed meanwhile. -/
theorem postState_resend_returns {w : ManagerWorld}
    (hw : TransitionSystem.Reachable ManagerWorld.system w) {s : ConnectionState}
    (hp : w.poster = .resending s) :
    w.postStep.poster = .idle ∧ (w.closed = false →
      w.postStep.manager.events = w.manager.events ++ [s] ∧
        w.postStep.log.sent = w.log.sent ++ [s]) := by
  have h := invariant_of_reachable hw
  have hstep : w.postStep = w.trySendStep s := by simp only [ManagerWorld.postStep, hp]
  rw [hstep]
  rcases h.resend_room s hp with hclosed | hroom
  · rw [trySendStep_of_closed hclosed]
    refine ⟨rfl, fun hopen => ?_⟩
    rw [hclosed] at hopen
    cases hopen
  · by_cases hclosed : w.closed = true
    · rw [trySendStep_of_closed hclosed]
      refine ⟨rfl, fun hopen => ?_⟩
      rw [hclosed] at hopen
      cases hopen
    · have hopen : w.closed = false := by simpa using hclosed
      rw [trySendStep_of_room hopen hroom]
      exact ⟨rfl, fun _ => ⟨rfl, rfl⟩⟩

/-- Twenty-five alternating reconnections and disconnections fill the buffer
nobody drains; the next post drops the oldest state and its second pass
returns. -/
theorem postState_resend_returns_run :
    let w := ([ManagerAction.start] ++
      (List.replicate 13 [ManagerAction.call (.watched .stateSyncConnected), .post,
        .call (.watched .stateDisconnected), .post]).flatten ++ [ManagerAction.post]).foldl
      ManagerWorld.step ManagerWorld.init
    TransitionSystem.Reachable ManagerWorld.system w ∧ w.poster = .resending .suspended ∧
      w.postStep.poster = .idle ∧ (w.closed = false →
        w.postStep.manager.events = w.manager.events ++ [.suspended] ∧
          w.postStep.log.sent = w.log.sent ++ [.suspended]) := by
  intro w
  have hw : TransitionSystem.Reachable ManagerWorld.system w := TransitionSystem.reachable_foldl _
  have hp : w.poster = .resending .suspended := by decide
  exact ⟨hw, hp, postState_resend_returns hw hp⟩

open ManagerWorld in
/-- Over every interleaving, the states decided under the lock and the states
sent read as `state.go` documents them, and so do the states the listeners
get, as long as `postState` never dropped one. -/
theorem managerEvents_wellFormed {w : ManagerWorld}
    (hw : TransitionSystem.Reachable ManagerWorld.system w) :
    WellFormedHistory w.posted ∧ WellFormedHistory w.log.sent ∧
      ((∀ e ∈ w.log.received, e.1 = .processEvents) → WellFormedHistory w.delivered) := by
  have h := invariant_of_reachable hw
  have hsent : WellFormedHistory w.log.sent := h.history.wellFormed.of_prefix h.sent_prefix
  refine ⟨h.history.wellFormed, hsent, fun hall => hsent.of_prefix ?_⟩
  rw [← h.agrees.receivedBy_append_eq hall, h.delivered, List.append_assoc]
  exact List.prefix_append _ _

theorem managerEvents_wellFormed_run :
    let w := [ManagerAction.start, .call (.watched .stateSyncConnected), .post, .consume, .consume,
      .call (.watched .stateDisconnected), .post, .call .syncFailed, .post,
      .call (.watched .stateSyncConnected), .post].foldl ManagerWorld.step ManagerWorld.init
    TransitionSystem.Reachable ManagerWorld.system w ∧
      w.posted = [.connected, .suspended, .lost, .reconnected] ∧
      WellFormedHistory w.posted ∧ WellFormedHistory w.log.sent ∧
      ((∀ e ∈ w.log.received, e.1 = .processEvents) → WellFormedHistory w.delivered) := by
  intro w
  have hw : TransitionSystem.Reachable ManagerWorld.system w := TransitionSystem.reachable_foldl _
  exact ⟨hw, rfl, managerEvents_wellFormed hw⟩

open ManagerWorld in
/-- Run with no other goroutine in between, the interleaved loop computes the
sequential `postState` of a started manager with an open channel: at once if
there is room, and in three steps (a failed send, the drop of the oldest
state, the send) if the buffer is full. -/
theorem postState_alone_refines {w : ManagerWorld}
    (hw : TransitionSystem.Reachable ManagerWorld.system w) {s : ConnectionState}
    (hp : w.poster = .sending s) (hst : w.manager.state = .started) (hopen : w.closed = false) :
    ∃ n ≤ 3, (postStep^[n] w).poster = .idle ∧
      w.manager.postState s = some (postStep^[n] w).manager := by
  have h := invariant_of_reachable hw
  rw [ConnectionStateManager.postState_of_started hst h.cap_pos s]
  have hfirst : w.postStep = w.trySendStep s := by simp only [ManagerWorld.postStep, hp]
  by_cases hroom : w.manager.events.length < w.manager.queueSize
  · refine ⟨1, by omega, ?_⟩
    change w.postStep.poster = .idle ∧ _ = some w.postStep.manager
    rw [hfirst, trySendStep_of_room hopen hroom,
      BoundedBuffer.rtake_of_length_le (by simp only [List.length_append, List.length_singleton]; omega)]
    exact ⟨rfl, rfl⟩
  · have hfull : w.manager.events.length = w.manager.queueSize := by
      have := h.withinCap
      simp only [GoChannel.Chan.WithinCap, chan] at this
      omega
    obtain ⟨x, rest, hbuf⟩ : ∃ x rest, w.manager.events = x :: rest := by
      cases hq : w.manager.events with
      | nil =>
        have := h.cap_pos
        rw [hq] at hfull
        simp at hfull
        omega
      | cons x rest => exact ⟨x, rest, rfl⟩
    rw [hbuf, List.length_cons] at hfull
    refine ⟨3, le_refl _, ?_⟩
    have h1 : w.postStep = { w with poster := .receiving s } := by
      rw [hfirst, trySendStep_of_full hopen (by rw [hbuf, List.length_cons]; omega)]
    have h2 : ({ w with poster := .receiving s } : ManagerWorld).postStep =
        { w with
          manager := { w.manager with events := rest }
          poster := .resending s
          log := w.log.recv .postState x } := by
      simp only [ManagerWorld.postStep]
      exact tryRecvStep_of_cons hbuf
    have h3 : ({ w with
          manager := { w.manager with events := rest }
          poster := .resending s
          log := w.log.recv .postState x } : ManagerWorld).postStep =
        { w with
          manager := { w.manager with events := rest ++ [s] }
          poster := .idle
          log := (w.log.recv .postState x).send s } := by
      simp only [ManagerWorld.postStep]
      exact trySendStep_of_room hopen (by simp only; omega)
    have hrtake : (w.manager.events ++ [s]).rtake w.manager.queueSize = rest ++ [s] := by
      rw [hbuf, List.rtake, List.length_append, List.length_cons, List.length_singleton,
        show rest.length + 1 + 1 - w.manager.queueSize = 1 by omega]
      rfl
    change (postStep (postStep (postStep w))).poster = .idle ∧
      _ = some (postStep (postStep (postStep w))).manager
    rw [h1, h2, h3, hrtake]
    exact ⟨rfl, rfl⟩

theorem postState_alone_refines_run :
    let w := [ManagerAction.start, .call (.watched .stateSyncConnected)].foldl
      ManagerWorld.step ManagerWorld.init
    TransitionSystem.Reachable ManagerWorld.system w ∧ w.poster = .sending .connected ∧
      w.manager.state = .started ∧ w.closed = false ∧
      ∃ n ≤ 3, (ManagerWorld.postStep^[n] w).poster = .idle ∧
        w.manager.postState .connected = some (ManagerWorld.postStep^[n] w).manager := by
  intro w
  have hw : TransitionSystem.Reachable ManagerWorld.system w := TransitionSystem.reachable_foldl _
  have hp : w.poster = .sending .connected := rfl
  have hst : w.manager.state = .started := rfl
  have hopen : w.closed = false := rfl
  exact ⟨hw, hp, hst, hopen, postState_alone_refines hw hp hst hopen⟩

open ManagerWorld in
/-- Once `Close()` has closed the channel, whatever the goroutines do next:
the channel stays closed, no state is decided or sent any more, the
listeners keep what they got, and every state they get afterwards was held
by `processEvents` or buffered at that point, in that order. -/
theorem managerEvents_after_close {w : ManagerWorld}
    (hw : TransitionSystem.Reachable ManagerWorld.system w) (hclosed : w.closed = true)
    (es : List ManagerAction) :
    let w' := es.foldl ManagerWorld.step w
    w'.closed = true ∧ w'.posted = w.posted ∧ w'.log.sent = w.log.sent ∧
      w.delivered <+: w'.delivered ∧
      (w'.delivered ++ w'.consumer.inHand ++ w'.manager.events).Sublist
        (w.delivered ++ w.consumer.inHand ++ w.manager.events) := by
  intro w'
  have h := (invariant_of_reachable hw).afterClose_foldl hclosed es
  exact ⟨h.closed, h.posted, h.sent, h.delivered, h.outstanding⟩

/-- Two states are buffered when `Close()` closes the channel; a later
reconnection is refused, and `processEvents` still hands the first buffered
state over. -/
theorem managerEvents_after_close_run :
    let w := [ManagerAction.start, .call (.watched .stateSyncConnected), .post,
      .call (.watched .stateDisconnected), .post, .close, .closeChannel].foldl
      ManagerWorld.step ManagerWorld.init
    let es := [ManagerAction.call (.watched .stateSyncConnected), .post, .consume, .consume]
    let w' := es.foldl ManagerWorld.step w
    TransitionSystem.Reachable ManagerWorld.system w ∧ w.closed = true ∧
      w.manager.events = [.connected, .suspended] ∧ w'.delivered = [.connected] ∧
      w'.closed = true ∧ w'.posted = w.posted ∧ w'.log.sent = w.log.sent ∧
      w.delivered <+: w'.delivered ∧
      (w'.delivered ++ w'.consumer.inHand ++ w'.manager.events).Sublist
        (w.delivered ++ w.consumer.inHand ++ w.manager.events) := by
  intro w es w'
  have hw : TransitionSystem.Reachable ManagerWorld.system w := TransitionSystem.reachable_foldl _
  have hclosed : w.closed = true := rfl
  exact ⟨hw, hclosed, rfl, rfl, managerEvents_after_close hw hclosed es⟩

end Curator
