import Mathlib.Logic.Function.Iterate
import Curator.Basic
import Curator.Support.BoundedBuffer
import Curator.Support.Reachable
import Curator.State.Manager

/-!
# The connection and its holder

`connectionState` (`state.go`) owns the ZooKeeper connection through a
`handleHolder`, whose `helper` is nil, a `zookeeperFactory` that dials on
first use, or a `zookeeperCache` holding the dialed connection.  `Conn()`
hands out the connection; while the session is not connected it first runs
`checkTimeout`, which resets the connection once the window that started at
`connectionStart` exceeds the larger timeout.

The outside world is explicit: each call receives the clock reading `now` and
the ensemble provider's current connection string, and the `Dialer` records
which `Dial` calls fail, how many were made and which dialed connections are
still open.  A connection is named by the number of the `Dial` that returned
it, so every successful dial yields a fresh one.
-/

namespace Curator

/-- `MAX_BACKGROUND_ERRORS`. -/
def maxBackgroundErrors : ℕ := 10

/-- A connection returned by the dialer, named by the number of its `Dial`. -/
abbrev ConnId := ℕ

/-- The dialer's side of the world. -/
structure Dialer where
  dialError : ℕ → GoString → Option ZkError
  dials : ℕ
  openConns : List ConnId

/-- One `zookeeperDialer.Dial(connectString, ...)` call. -/
def Dialer.dial (d : Dialer) (connectString : GoString) : Except ZkError ConnId × Dialer :=
  match d.dialError d.dials connectString with
  | some e => (.error e, { d with dials := d.dials + 1 })
  | none => (.ok d.dials, { d with dials := d.dials + 1, openConns := d.openConns ++ [d.dials] })

/-- `conn.Close()`. -/
def Dialer.close (d : Dialer) (c : ConnId) : Dialer :=
  { d with openConns := d.openConns.erase c }

/-- The `helper` of a `handleHolder`, when it is not nil. -/
inductive ZookeeperHelper where
  | factory
  | cache (connnectString : GoString) (conn : ConnId)
  deriving DecidableEq, Repr

/-- A `handleHolder` with the dialer it dials through. -/
structure HandleHolder where
  helper : Option ZookeeperHelper
  dialer : Dialer

namespace HandleHolder

/-- `handleHolder.getConnectionString()`; a factory's string is empty. -/
def getConnectionString (h : HandleHolder) : GoString :=
  match h.helper with
  | some (.cache s _) => s
  | _ => []

/-- `handleHolder.hasNewConnectionString()`, against the provider's current
string `connStr`. -/
def hasNewConnectionString (h : HandleHolder) (connStr : GoString) : Bool :=
  match h.helper with
  | none => false
  | some _ => connStr != h.getConnectionString

/-- `handleHolder.getZookeeperConnection()`: a factory dials with the current
string and caches what it got. -/
def getZookeeperConnection (h : HandleHolder) (connStr : GoString) :
    Except ZkError (Option ConnId) × HandleHolder :=
  match h.helper with
  | none => (.ok none, h)
  | some .factory =>
    let r := h.dialer.dial connStr
    match r.1 with
    | .error e => (.error e, { h with dialer := r.2 })
    | .ok c => (.ok (some c), ⟨some (.cache connStr c), r.2⟩)
  | some (.cache _ c) => (.ok (some c), h)

/-- `handleHolder.internalClose()`: closes the connection the helper hands
out, dialing one first if the helper is a factory. -/
def internalClose (h : HandleHolder) (connStr : GoString) : Option ZkError × HandleHolder :=
  match h.helper with
  | none => (none, h)
  | some _ =>
    let r := h.getZookeeperConnection connStr
    match r.1 with
    | .error e => (some e, r.2)
    | .ok (some c) => (none, { r.2 with dialer := r.2.dialer.close c })
    | .ok none => (none, r.2)

/-- `handleHolder.closeAndReset()`. -/
def closeAndReset (h : HandleHolder) (connStr : GoString) : Option ZkError × HandleHolder :=
  let r := h.internalClose connStr
  match r.1 with
  | some e => (some e, r.2)
  | none => (none, { r.2 with helper := some .factory })

/-- `handleHolder.closeAndClear()`: a factory is left in place. -/
def closeAndClear (h : HandleHolder) (connStr : GoString) : Option ZkError × HandleHolder :=
  match h.helper with
  | some .factory => (none, h)
  | _ =>
    let r := h.internalClose connStr
    (r.1, { r.2 with helper := none })

end HandleHolder

@[simp] theorem Dialer.dial_dialError (d : Dialer) (connectString : GoString) :
    (d.dial connectString).2.dialError = d.dialError := by
  unfold Dialer.dial
  split <;> rfl

@[simp] theorem Dialer.close_dialError (d : Dialer) (c : ConnId) :
    (d.close c).dialError = d.dialError := rfl

/-- A `Dial` fails, and only counts the call, or returns a fresh connection,
named after the call, and opens it. -/
theorem Dialer.dial_cases (d : Dialer) (connectString : GoString) :
    (∃ e, d.dial connectString = (.error e, { d with dials := d.dials + 1 })) ∨
      d.dial connectString =
        (.ok d.dials, { d with dials := d.dials + 1, openConns := d.openConns ++ [d.dials] }) := by
  unfold Dialer.dial
  split
  · next e _ => exact .inl ⟨e, rfl⟩
  · exact .inr rfl

/-- The dialer lets every dial to `connStr` succeed. -/
def Dialer.DialsSucceed (d : Dialer) (connStr : GoString) : Prop :=
  ∀ n, d.dialError n connStr = none

namespace HandleHolder

variable (h : HandleHolder) (connStr : GoString)

@[simp] theorem getZookeeperConnection_dialError :
    (h.getZookeeperConnection connStr).2.dialer.dialError = h.dialer.dialError := by
  unfold getZookeeperConnection
  split
  · rfl
  · dsimp only
    split <;> simp
  · rfl

@[simp] theorem internalClose_dialError :
    (h.internalClose connStr).2.dialer.dialError = h.dialer.dialError := by
  unfold internalClose
  split
  · rfl
  · dsimp only
    split <;> simp

@[simp] theorem closeAndReset_dialError :
    (h.closeAndReset connStr).2.dialer.dialError = h.dialer.dialError := by
  unfold closeAndReset
  dsimp only
  split <;> simp

/-- `internalClose` fails only by dialing through a factory, which it leaves
in place. -/
theorem internalClose_helper_of_error {e : ZkError} (he : (h.internalClose connStr).1 = some e) :
    (h.internalClose connStr).2.helper = some .factory := by
  rcases h with ⟨_ | _ | ⟨cs, c⟩, d⟩
  · simp [internalClose] at he
  · simp only [internalClose, getZookeeperConnection] at *
    cases hr : (d.dial connStr).1 with
    | error e' => simp
    | ok c => simp [hr] at he
  · simp [internalClose, getZookeeperConnection] at he

/-- After `closeAndReset`, failed or not, the helper is a factory. -/
theorem closeAndReset_helper : (h.closeAndReset connStr).2.helper = some .factory := by
  unfold closeAndReset
  dsimp only
  split
  · next e he => exact internalClose_helper_of_error h connStr he
  · rfl

/-! ### The connections a holder leaves open

A holder keeps open exactly the connection its cache holds.  A factory dials
only in `getZookeeperConnection`, which caches what it got, and
`internalClose` closes whatever the helper hands out, the connection a factory
dials for it included. -/

/-- The connection a holder's cache hands out. -/
def cachedConn (h : HandleHolder) : Option ConnId :=
  match h.helper with
  | some (.cache _ c) => some c
  | _ => none

/-- The dialer's open connections are the one the cache holds, and no other. -/
def OnlyCachedOpen (h : HandleHolder) : Prop :=
  h.dialer.openConns = h.cachedConn.toList

variable {h}

theorem getZookeeperConnection_onlyCachedOpen (hh : h.OnlyCachedOpen) :
    (h.getZookeeperConnection connStr).2.OnlyCachedOpen := by
  rcases h with ⟨_ | _ | ⟨cs, c⟩, d⟩
  · exact hh
  · have hd : d.openConns = [] := hh
    rcases d.dial_cases connStr with ⟨e, he⟩ | he
    · simp [getZookeeperConnection, he, OnlyCachedOpen, cachedConn, hd]
    · simp [getZookeeperConnection, he, OnlyCachedOpen, cachedConn, hd]
  · exact hh

/-- `internalClose` leaves nothing open, whether or not it fails. -/
theorem internalClose_openConns (hh : h.OnlyCachedOpen) :
    (h.internalClose connStr).2.dialer.openConns = [] := by
  rcases h with ⟨_ | _ | ⟨cs, c⟩, d⟩
  · exact hh
  · have hd : d.openConns = [] := hh
    rcases d.dial_cases connStr with ⟨e, he⟩ | he
    · simp [internalClose, getZookeeperConnection, he, hd]
    · simp [internalClose, getZookeeperConnection, he, hd, Dialer.close]
  · have hd : d.openConns = [c] := hh
    simp [internalClose, getZookeeperConnection, hd, Dialer.close]

theorem closeAndReset_openConns (hh : h.OnlyCachedOpen) :
    (h.closeAndReset connStr).2.dialer.openConns = [] := by
  unfold closeAndReset
  dsimp only
  split <;> exact internalClose_openConns connStr hh

theorem closeAndReset_onlyCachedOpen (hh : h.OnlyCachedOpen) :
    (h.closeAndReset connStr).2.OnlyCachedOpen := by
  rw [OnlyCachedOpen, closeAndReset_openConns connStr hh, cachedConn,
    closeAndReset_helper h connStr]
  rfl

/-- `closeAndClear` leaves the helper a factory or nil. -/
theorem closeAndClear_cachedConn : (h.closeAndClear connStr).2.cachedConn = none := by
  unfold closeAndClear
  split
  · next hf => simp [cachedConn, hf]
  · rfl

theorem closeAndClear_openConns (hh : h.OnlyCachedOpen) :
    (h.closeAndClear connStr).2.dialer.openConns = [] := by
  have hclear := closeAndClear_cachedConn (h := h) connStr
  unfold closeAndClear at hclear ⊢
  split
  · next hf =>
    rw [hf] at hclear
    rw [OnlyCachedOpen, hclear] at hh
    exact hh
  · exact internalClose_openConns connStr hh

/-- What `closeAndClear` leaves open, whatever the holder: all that was open
but the connection its cache held. -/
theorem closeAndClear_openConns_eq :
    (h.closeAndClear connStr).2.dialer.openConns =
      h.cachedConn.elim h.dialer.openConns h.dialer.openConns.erase := by
  rcases h with ⟨_ | _ | ⟨cs, c⟩, d⟩ <;>
    simp [closeAndClear, internalClose, getZookeeperConnection, cachedConn, Dialer.close]

theorem closeAndClear_onlyCachedOpen (hh : h.OnlyCachedOpen) :
    (h.closeAndClear connStr).2.OnlyCachedOpen := by
  rw [OnlyCachedOpen, closeAndClear_openConns connStr hh, closeAndClear_cachedConn]
  rfl

/-- `closeAndClear` of a holder whose cache holds a connection leaves it nil. -/
theorem closeAndClear_helper_of_cached (hc : h.cachedConn ≠ none) :
    (h.closeAndClear connStr).2.helper = none := by
  rcases h with ⟨_ | _ | ⟨cs, c⟩, d⟩
  · exact absurd rfl hc
  · exact absurd rfl hc
  · rfl

/-- The connection `getZookeeperConnection` hands out is the one the holder
then caches. -/
theorem getZookeeperConnection_cachedConn {c : ConnId}
    (hc : (h.getZookeeperConnection connStr).1 = .ok (some c)) :
    (h.getZookeeperConnection connStr).2.cachedConn = some c := by
  rcases h with ⟨_ | _ | ⟨cs, c'⟩, d⟩
  · simp [getZookeeperConnection] at hc
  · rcases d.dial_cases connStr with ⟨e, he⟩ | he
    · simp [getZookeeperConnection, he] at hc
    · simp only [getZookeeperConnection, he, Except.ok.injEq, Option.some.injEq] at hc
      simp [getZookeeperConnection, he, cachedConn, hc]
  · simp only [getZookeeperConnection, Except.ok.injEq, Option.some.injEq] at hc
    simp [getZookeeperConnection, cachedConn, hc]

/-- The connection the cache holds, if any, is open: `internalClose` alone
breaks it, closing the cached connection, and the write after it mends it. -/
def CachedOpen (h : HandleHolder) : Prop :=
  ∀ c, h.cachedConn = some c → c ∈ h.dialer.openConns

theorem cachedOpen_of_cachedConn (hc : h.cachedConn = none) : h.CachedOpen := by
  intro c hc'
  rw [hc] at hc'
  cases hc'

theorem getZookeeperConnection_cachedOpen (hh : h.CachedOpen) :
    (h.getZookeeperConnection connStr).2.CachedOpen := by
  rcases h with ⟨_ | _ | ⟨cs, c⟩, d⟩
  · exact hh
  · rcases d.dial_cases connStr with ⟨e, he⟩ | he
    · simp [getZookeeperConnection, he, CachedOpen, cachedConn]
    · simp [getZookeeperConnection, he, CachedOpen, cachedConn]
  · exact hh

theorem closeAndReset_cachedConn : (h.closeAndReset connStr).2.cachedConn = none := by
  simp [cachedConn, closeAndReset_helper h connStr]

/-- The calls a `handleHolder` receives, each with the ensemble provider's
connection string at the time. -/
inductive HolderOp where
  | getZookeeperConnection (connStr : GoString)
  | closeAndReset (connStr : GoString)
  | closeAndClear (connStr : GoString)

/-- The holder after one call. -/
def step (h : HandleHolder) : HolderOp → HandleHolder
  | .getZookeeperConnection connStr => (h.getZookeeperConnection connStr).2
  | .closeAndReset connStr => (h.closeAndReset connStr).2
  | .closeAndClear connStr => (h.closeAndClear connStr).2

/-- The holder `newConnectionState` builds, with a nil helper, over a dialer,
and every sequence of calls it receives; the dialer decides which `Dial`
fails. -/
def system (d : Dialer) : TransitionSystem.System HandleHolder HolderOp :=
  TransitionSystem.System.ofFun ⟨none, d⟩ step

theorem step_onlyCachedOpen (hh : h.OnlyCachedOpen) (op : HolderOp) :
    (h.step op).OnlyCachedOpen := by
  cases op with
  | getZookeeperConnection connStr => exact getZookeeperConnection_onlyCachedOpen connStr hh
  | closeAndReset connStr => exact closeAndReset_onlyCachedOpen connStr hh
  | closeAndClear connStr => exact closeAndClear_onlyCachedOpen connStr hh

theorem onlyCachedOpen_inductive {d : Dialer} (hd : d.openConns = []) :
    TransitionSystem.Inductive (system d) OnlyCachedOpen where
  init := hd
  step := by
    rintro h op _ hh rfl
    exact step_onlyCachedOpen hh op

/-- Over a dialer with nothing open yet, every holder a sequence of calls
reaches keeps open only the connection its cache holds. -/
theorem onlyCachedOpen_of_reachable {d : Dialer} (hd : d.openConns = [])
    (hh : TransitionSystem.Reachable (system d) h) : h.OnlyCachedOpen :=
  TransitionSystem.Reachable.of_inductive (onlyCachedOpen_inductive hd) hh

theorem OnlyCachedOpen.length_le (hh : h.OnlyCachedOpen) : h.dialer.openConns.length ≤ 1 := by
  rw [hh]
  cases h.cachedConn <;> simp

theorem OnlyCachedOpen.eq_of_mem (hh : h.OnlyCachedOpen) {c : ConnId}
    (hc : c ∈ h.dialer.openConns) : h.cachedConn = some c := by
  rw [hh] at hc
  cases hcache : h.cachedConn with
  | none => simp [hcache] at hc
  | some c' =>
    rw [hcache, Option.mem_toList] at hc
    exact hc

end HandleHolder

/-- Over a dialer with nothing open yet, whatever calls the holder received
and whichever dials failed: at most one dialed connection is open, the one the
cache hands out, also in the state `internalClose` passes through after
dialing for a factory; and after `closeAndReset` or `closeAndClear`, whatever
they return, none is. -/
theorem handleHolder_at_most_one_open {d : Dialer} (hd : d.openConns = []) {h : HandleHolder}
    (hh : TransitionSystem.Reachable (HandleHolder.system d) h) :
    h.dialer.openConns.length ≤ 1 ∧ (∀ c ∈ h.dialer.openConns, h.cachedConn = some c) ∧
      ∀ connStr : GoString,
        (h.getZookeeperConnection connStr).2.dialer.openConns.length ≤ 1 ∧
        (h.closeAndReset connStr).2.dialer.openConns = [] ∧
        (h.closeAndClear connStr).2.dialer.openConns = [] := by
  have hinv := HandleHolder.onlyCachedOpen_of_reachable hd hh
  refine ⟨hinv.length_le, fun c hc => hinv.eq_of_mem hc, fun connStr => ⟨?_, ?_, ?_⟩⟩
  · exact (HandleHolder.getZookeeperConnection_onlyCachedOpen connStr hinv).length_le
  · exact HandleHolder.closeAndReset_openConns connStr hinv
  · exact HandleHolder.closeAndClear_openConns connStr hinv

/-- The calls of the holder test up to its successful dial: the connection it
dialed is the one open. -/
theorem handleHolder_at_most_one_open_test :
    let d : Dialer := ⟨fun _ _ => none, 0, []⟩
    let h := [HandleHolder.HolderOp.getZookeeperConnection "connStr".toList,
      .closeAndReset "connStr".toList, .getZookeeperConnection "connStr".toList].foldl
        HandleHolder.step ⟨none, d⟩
    d.openConns = [] ∧ TransitionSystem.Reachable (HandleHolder.system d) h ∧
      h.dialer.openConns = [0] ∧
      (h.dialer.openConns.length ≤ 1 ∧ (∀ c ∈ h.dialer.openConns, h.cachedConn = some c) ∧
        ∀ connStr : GoString,
          (h.getZookeeperConnection connStr).2.dialer.openConns.length ≤ 1 ∧
          (h.closeAndReset connStr).2.dialer.openConns = [] ∧
          (h.closeAndClear connStr).2.dialer.openConns = []) := by
  intro d h
  have hh : TransitionSystem.Reachable (HandleHolder.system d) h :=
    TransitionSystem.reachable_foldl _
  exact ⟨rfl, hh, rfl, handleHolder_at_most_one_open rfl hh⟩

/-- The fields of `connectionState` (`state.go`) that its methods read and
write; `backgroundErrors` is the buffer of its channel, oldest first. -/
structure ClientConnectionState where
  sessionTimeout : Duration
  connectionTimeout : Duration
  zooKeeper : HandleHolder
  instanceIndex : ℕ
  connectionStart : Duration
  isConnected : Bool
  backgroundErrors : List ZkError

namespace ClientConnectionState

/-- `newConnectionState(...)` built at clock time `now`. -/
def new (now sessionTimeout connectionTimeout : Duration) (dialer : Dialer) :
    ClientConnectionState :=
  ⟨sessionTimeout, connectionTimeout, ⟨none, dialer⟩, 0, now, false, []⟩

/-- `connectionState.reset()`: the error of `closeAndReset` is dropped. -/
def reset (s : ClientConnectionState) (connStr : GoString) :
    Option ZkError × ClientConnectionState :=
  let s := { s with instanceIndex := s.instanceIndex + 1, isConnected := false }
  let r := ((s.zooKeeper.closeAndReset connStr).2).getZookeeperConnection connStr
  match r.1 with
  | .error e => (some e, { s with zooKeeper := r.2 })
  | .ok _ => (none, { s with zooKeeper := r.2 })

/-- `connectionState.queueBackgroundException(err)` on its channel of
capacity `MAX_BACKGROUND_ERRORS`: the loop always returns there
(`queueBackgroundException_loop`), so its other outcome is not
reached. -/
def queueBackgroundException (s : ClientConnectionState) (err : ZkError) :
    ClientConnectionState :=
  match BoundedBuffer.sendDroppingOldest maxBackgroundErrors err
      (s.backgroundErrors.length + 1) s.backgroundErrors with
  | some q => { s with backgroundErrors := q }
  | none => s

/-- `connectionState.dequeBackgroundException()`; only non-nil errors are
ever queued. -/
def dequeBackgroundException (s : ClientConnectionState) :
    Option ZkError × ClientConnectionState :=
  match s.backgroundErrors with
  | [] => (none, s)
  | e :: q => (some e, { s with backgroundErrors := q })

/-- `handleNewConnectionString` and `handleExpiredSession`: reset, and queue
the error if the reset failed. -/
def resetInBackground (s : ClientConnectionState) (connStr : GoString) :
    ClientConnectionState :=
  let r := s.reset connStr
  match r.1 with
  | some e => r.2.queueBackgroundException e
  | none => r.2

/-- `minTimeout` and `maxTimeout` of `connectionState.checkTimeout()`. -/
def timeouts (s : ClientConnectionState) : Duration × Duration :=
  if s.sessionTimeout > s.connectionTimeout then (s.connectionTimeout, s.sessionTimeout)
  else (s.sessionTimeout, s.connectionTimeout)

/-- `connectionState.checkTimeout()` at clock time `now`. -/
def checkTimeout (s : ClientConnectionState) (now : Duration) (connStr : GoString) :
    Option ZkError × ClientConnectionState :=
  let minTimeout := s.timeouts.1
  let maxTimeout := s.timeouts.2
  let elapsed := now - s.connectionStart
  if elapsed ≥ minTimeout then
    if s.zooKeeper.hasNewConnectionString connStr then (none, s.resetInBackground connStr)
    else if elapsed ≥ maxTimeout then s.reset connStr
    else (some .errConnectionLoss, s)
  else (none, s)

/-- `connectionState.Conn()` at clock time `now`. -/
def conn (s : ClientConnectionState) (now : Duration) (connStr : GoString) :
    Except ZkError (Option ConnId) × ClientConnectionState :=
  let r := s.dequeBackgroundException
  match r.1 with
  | some e => (.error e, r.2)
  | none =>
    let s := r.2
    if !s.isConnected then
      let r := s.checkTimeout now connStr
      match r.1 with
      | some e => (.error e, r.2)
      | none =>
        let c := r.2.zooKeeper.getZookeeperConnection connStr
        (c.1, { r.2 with zooKeeper := c.2 })
    else
      let c := s.zooKeeper.getZookeeperConnection connStr
      (c.1, { s with zooKeeper := c.2 })

/-- `connectionState.Start()`, given the error of `ensembleProvider.Start()`. -/
def start (s : ClientConnectionState) (connStr : GoString)
    (ensembleError : Option ZkError) : Option ZkError × ClientConnectionState :=
  match ensembleError with
  | some e => (some e, s)
  | none => s.reset connStr

/-- `connectionState.checkState(state, err, wasConnected)`: the new
connectedness, after the resets it triggers.  Every case of the switch
overwrites the initial `isConnected := wasConnected`. -/
def checkState (s : ClientConnectionState) (state : ZkState) (_wasConnected : Bool)
    (connStr : GoString) : Bool × ClientConnectionState :=
  let (isConnected, checkNewConnectionString, s) : Bool × Bool × ClientConnectionState :=
    match state with
    | .stateHasSession => (true, true, s)
    | .stateExpired => (false, false, s.resetInBackground connStr)
    | _ => (false, true, s)
  if checkNewConnectionString && s.zooKeeper.hasNewConnectionString connStr then
    (false, s.resetInBackground connStr)
  else (isConnected, s)

/-- The session-event part of `connectionState.process(event)` at clock time
`now`: the window restarts only when connectedness flips. -/
def processSession (s : ClientConnectionState) (state : ZkState) (now : Duration)
    (connStr : GoString) : ClientConnectionState :=
  let wasConnected := s.isConnected
  let r := s.checkState state wasConnected connStr
  if r.1 != wasConnected then { r.2 with isConnected := r.1, connectionStart := now }
  else r.2

/-- `connectionState.Close()`, given the provider's string. -/
def close (s : ClientConnectionState) (connStr : GoString) :
    Option ZkError × ClientConnectionState :=
  let r := s.zooKeeper.closeAndClear connStr
  (r.1, { s with zooKeeper := r.2, isConnected := false })

/-- The calls a `connectionState` receives, each at its clock time `now` and
with the provider's connection string at that time. -/
inductive ConnCall where
  | start (now : Duration) (connStr : GoString) (ensembleError : Option ZkError)
  | conn (now : Duration) (connStr : GoString)
  | session (state : ZkState) (now : Duration) (connStr : GoString)
  | close (now : Duration) (connStr : GoString)

/-- Is this a session event handed to `process`? -/
def ConnCall.isSession : ConnCall → Bool
  | .session _ _ _ => true
  | _ => false

/-- The clock time of a call. -/
def ConnCall.now : ConnCall → Duration
  | .start now _ _ | .conn now _ | .session _ now _ | .close now _ => now

/-- One call of a run. -/
def call (s : ClientConnectionState) : ConnCall → ClientConnectionState
  | .start _ connStr e => (s.start connStr e).2
  | .conn now connStr => (s.conn now connStr).2
  | .session state now connStr => s.processSession state now connStr
  | .close _ connStr => (s.close connStr).2

/-- A run of calls. -/
def run (s : ClientConnectionState) : List ConnCall → ClientConnectionState
  | [] => s
  | c :: cs => (s.call c).run cs

/-- A run of `Conn()` calls at the given clock times, one connection string
throughout. -/
def connRun (s : ClientConnectionState) (connStr : GoString) : List Duration →
    ClientConnectionState
  | [] => s
  | t :: ts => (s.conn t connStr).2.connRun connStr ts

/-- The connection-timeout window of a state: where it starts, and the two
timeouts it is measured against. -/
def window (s : ClientConnectionState) : Duration × Duration × Duration :=
  (s.connectionStart, s.sessionTimeout, s.connectionTimeout)

section Window

variable (s : ClientConnectionState) (connStr : GoString)

theorem timeouts_fst_le_snd : s.timeouts.1 ≤ s.timeouts.2 := by
  unfold timeouts
  split_ifs with h
  · exact Int.le_of_lt h
  · exact Int.not_lt.mp h

/-- What `reset` changes: the instance index, the connectedness and the
holder, whose dialer stays the same. -/
theorem reset_eq : ∃ zk, (s.reset connStr).2 =
    { s with instanceIndex := s.instanceIndex + 1, isConnected := false, zooKeeper := zk } ∧
    zk.dialer.dialError = s.zooKeeper.dialer.dialError := by
  unfold reset
  dsimp only
  split <;> exact ⟨_, rfl, by simp⟩

theorem reset_window : (s.reset connStr).2.window = s.window := by
  obtain ⟨zk, hzk, -⟩ := reset_eq s connStr
  rw [hzk]
  rfl

theorem queueBackgroundException_window (err : ZkError) :
    (s.queueBackgroundException err).window = s.window := by
  unfold queueBackgroundException
  split <;> rfl

theorem dequeBackgroundException_window : s.dequeBackgroundException.2.window = s.window := by
  unfold dequeBackgroundException
  split <;> rfl

theorem resetInBackground_window : (s.resetInBackground connStr).window = s.window := by
  unfold resetInBackground
  dsimp only
  split
  · rw [queueBackgroundException_window, reset_window]
  · exact reset_window s connStr

/-- What `checkTimeout` leaves: the state as it was, or after a reset, in the
foreground or in the background. -/
theorem checkTimeout_cases (now : Duration) :
    (s.checkTimeout now connStr).2 = s ∨ (s.checkTimeout now connStr).2 = (s.reset connStr).2 ∨
      (s.checkTimeout now connStr).2 = s.resetInBackground connStr := by
  unfold checkTimeout
  dsimp only
  split_ifs
  · exact .inr (.inr rfl)
  · exact .inr (.inl rfl)
  · exact .inl rfl
  · exact .inl rfl

theorem checkTimeout_window (now : Duration) : (s.checkTimeout now connStr).2.window = s.window := by
  rcases checkTimeout_cases s connStr now with h | h | h <;> rw [h]
  · exact reset_window s connStr
  · exact resetInBackground_window s connStr

theorem conn_window (now : Duration) : (s.conn now connStr).2.window = s.window := by
  have hdeque := dequeBackgroundException_window s
  unfold conn
  dsimp only
  split
  · exact hdeque
  · split_ifs
    · have htimeout := checkTimeout_window s.dequeBackgroundException.2 connStr now
      split
      · rw [htimeout, hdeque]
      · change (s.dequeBackgroundException.2.checkTimeout now connStr).2.window = s.window
        rw [htimeout, hdeque]
    · exact hdeque

theorem start_window (ensembleError : Option ZkError) :
    (s.start connStr ensembleError).2.window = s.window := by
  cases ensembleError with
  | some e => rfl
  | none => exact reset_window s connStr

/-- What `checkState` leaves: the state as it was, or after a background
reset; an expired session is not checked for a new string after its reset. -/
theorem checkState_cases (state : ZkState) (wasConnected : Bool) :
    (s.checkState state wasConnected connStr).2 = s ∨
      (s.checkState state wasConnected connStr).2 = s.resetInBackground connStr := by
  cases state <;> simp only [checkState] <;> split_ifs <;> simp_all

theorem checkState_window (state : ZkState) (wasConnected : Bool) :
    (s.checkState state wasConnected connStr).2.window = s.window := by
  rcases checkState_cases s connStr state wasConnected with h | h <;> rw [h]
  exact resetInBackground_window s connStr

/-- A session event restarts the window at `now`, or leaves it alone. -/
theorem processSession_window (state : ZkState) (now : Duration) :
    (s.processSession state now connStr).window = s.window ∨
      (s.processSession state now connStr).window = (now, s.window.2) := by
  have hcheck := checkState_window s connStr state s.isConnected
  unfold processSession
  dsimp only
  split_ifs
  · right
    simp only [window] at hcheck ⊢
    rw [Prod.mk.injEq] at hcheck
    rw [hcheck.2]
  · left
    exact hcheck

end Window

/-- One call of a run: only a session event moves the window, and only to its
own clock time. -/
theorem call_window (s : ClientConnectionState) (c : ConnCall) :
    (s.call c).window = s.window ∨
      (c.isSession = true ∧ (s.call c).window = (c.now, s.window.2)) := by
  cases c with
  | start now connStr e => exact .inl (start_window s connStr e)
  | conn now connStr => exact .inl (conn_window s connStr now)
  | session state now connStr =>
    rcases processSession_window s connStr state now with h | h
    · exact .inl h
    · exact .inr ⟨rfl, h⟩
  | close now connStr => exact .inl rfl

/-- Over a whole run the timeouts never change, and the window start is the
initial one or the clock time of one of the run's session events: no reset
restarts it. -/
theorem run_window (cs : List ConnCall) (s : ClientConnectionState) :
    (s.run cs).window = s.window ∨
      ∃ c ∈ cs, c.isSession = true ∧ (s.run cs).window = (c.now, s.window.2) := by
  induction cs generalizing s with
  | nil => exact .inl rfl
  | cons c cs ih =>
    have htimeouts : (s.call c).window.2 = s.window.2 := by
      rcases call_window s c with h | ⟨-, h⟩ <;> rw [h]
    rcases ih (s.call c) with h | ⟨c', hc', hsession, h⟩
    · rcases call_window s c with hc | ⟨hsession, hc⟩
      · exact .inl (h.trans hc)
      · exact .inr ⟨c, List.mem_cons_self, hsession, h.trans hc⟩
    · exact .inr ⟨c', List.mem_cons_of_mem c hc', hsession, by rw [run, h, htimeouts]⟩

/-! ### The background-error channel

`queueBackgroundException` sends to a channel of capacity
`MAX_BACKGROUND_ERRORS` that only `dequeBackgroundException` reads.  On a
full channel its blocking receive takes the oldest error at once, so its loop
is the drop-oldest send of `BoundedBuffer`. -/

section Background

/-- The loop of `queueBackgroundException` returns within the passes it is
given, keeping the newest errors with `err` last. -/
theorem queueBackgroundException_loop (s : ClientConnectionState) (err : ZkError) :
    BoundedBuffer.sendDroppingOldest maxBackgroundErrors err (s.backgroundErrors.length + 1)
        s.backgroundErrors =
      some ((s.backgroundErrors ++ [err]).rtake maxBackgroundErrors) :=
  BoundedBuffer.sendDroppingOldest_eq_rtake (by decide) err (Nat.le_refl _)

theorem queueBackgroundException_eq (s : ClientConnectionState) (err : ZkError) :
    s.queueBackgroundException err =
      { s with backgroundErrors := (s.backgroundErrors ++ [err]).rtake maxBackgroundErrors } := by
  unfold queueBackgroundException
  rw [queueBackgroundException_loop]

/-- Errors queued with none dequeued in between: the channel holds the newest
`MAX_BACKGROUND_ERRORS` of those it held and those queued, oldest first.  The
induction is on the errors; each send keeps the buffer within the capacity. -/
theorem foldl_queueBackgroundException (es : List ZkError) :
    ∀ s : ClientConnectionState, s.backgroundErrors.length ≤ maxBackgroundErrors →
      es.foldl queueBackgroundException s =
        { s with backgroundErrors := (s.backgroundErrors ++ es).rtake maxBackgroundErrors } := by
  induction es with
  | nil =>
    intro s hlen
    simp [BoundedBuffer.rtake_of_length_le hlen]
  | cons e es ih =>
    intro s _
    rw [List.foldl_cons, queueBackgroundException_eq,
      ih { s with backgroundErrors := (s.backgroundErrors ++ [e]).rtake maxBackgroundErrors }
        (BoundedBuffer.length_rtake_le _ _), BoundedBuffer.rtake_concat_append]

/-- Successive `dequeBackgroundException` calls answer the buffered errors
oldest first, then nil once all are taken. -/
theorem dequeBackgroundException_iterate (i : ℕ) : ∀ s : ClientConnectionState,
    ((fun t : ClientConnectionState => t.dequeBackgroundException.2)^[i]
        s).dequeBackgroundException.1 = s.backgroundErrors[i]? := by
  induction i with
  | zero =>
    intro s
    cases h : s.backgroundErrors <;> simp [dequeBackgroundException, h]
  | succ i ih =>
    intro s
    rw [Function.iterate_succ_apply, ih]
    cases h : s.backgroundErrors <;> simp [dequeBackgroundException, h]

end Background

/-! ### The holder under the connection state

Every call of a `connectionState` acts on its holder by holder calls:
`reset` by `closeAndReset` then `getZookeeperConnection`, `Conn()` by
`getZookeeperConnection` after the resets of `checkTimeout`, `Close()` by
`closeAndClear`.  So the holder of every run is one the calls of
`HandleHolder.system` reach. -/

section Holder

variable (s : ClientConnectionState) (connStr : GoString)

theorem reset_zooKeeper :
    (s.reset connStr).2.zooKeeper =
      [.closeAndReset connStr, .getZookeeperConnection connStr].foldl HandleHolder.step
        s.zooKeeper := by
  unfold reset
  dsimp only
  split <;> rfl

theorem queueBackgroundException_zooKeeper (err : ZkError) :
    (s.queueBackgroundException err).zooKeeper = s.zooKeeper := by
  rw [queueBackgroundException_eq]

theorem dequeBackgroundException_zooKeeper : s.dequeBackgroundException.2.zooKeeper = s.zooKeeper := by
  unfold dequeBackgroundException
  split <;> rfl

/-- The connection `Conn()` returns is the one its holder then caches. -/
theorem conn_cachedConn (now : Duration) {c : ConnId} (hc : (s.conn now connStr).1 = .ok (some c)) :
    (s.conn now connStr).2.zooKeeper.cachedConn = some c := by
  unfold conn at hc ⊢
  dsimp only at hc ⊢
  split
  · next e he => simp [he] at hc
  · next he =>
    simp only [he] at hc
    split_ifs at hc ⊢
    · split
      · next e he' => simp [he'] at hc
      · next he' =>
        simp only [he'] at hc
        exact HandleHolder.getZookeeperConnection_cachedConn connStr hc
    · exact HandleHolder.getZookeeperConnection_cachedConn connStr hc

/-- After `reset`, the connection the holder caches is open. -/
theorem reset_cachedOpen : (s.reset connStr).2.zooKeeper.CachedOpen := by
  rw [reset_zooKeeper]
  exact HandleHolder.getZookeeperConnection_cachedOpen connStr
    (HandleHolder.cachedOpen_of_cachedConn (HandleHolder.closeAndReset_cachedConn connStr))

theorem resetInBackground_cachedOpen : (s.resetInBackground connStr).zooKeeper.CachedOpen := by
  unfold resetInBackground
  dsimp only
  split
  · rw [queueBackgroundException_zooKeeper]
    exact reset_cachedOpen s connStr
  · exact reset_cachedOpen s connStr

/-- `Conn()` leaves the connection its holder caches open. -/
theorem conn_cachedOpen (now : Duration) (hh : s.zooKeeper.CachedOpen) :
    (s.conn now connStr).2.zooKeeper.CachedOpen := by
  have hdeque := dequeBackgroundException_zooKeeper s
  have hcheck : ∀ t : ClientConnectionState, t.zooKeeper.CachedOpen →
      (t.checkTimeout now connStr).2.zooKeeper.CachedOpen := by
    intro t ht
    rcases checkTimeout_cases t connStr now with h | h | h <;> rw [h]
    · exact ht
    · exact reset_cachedOpen t connStr
    · exact resetInBackground_cachedOpen t connStr
  unfold conn
  dsimp only
  split
  · rw [hdeque]
    exact hh
  · rw [← hdeque] at hh
    split_ifs
    · have htimeout := hcheck _ hh
      split
      · exact htimeout
      · exact HandleHolder.getZookeeperConnection_cachedOpen connStr htimeout
    · exact HandleHolder.getZookeeperConnection_cachedOpen connStr hh

end Holder

section Expired

variable {s : ClientConnectionState} {connStr : GoString} {now : Duration}

theorem reset_error_of_dialsSucceed (hd : s.zooKeeper.dialer.DialsSucceed connStr) :
    (s.reset connStr).1 = none := by
  have hfactory := HandleHolder.closeAndReset_helper s.zooKeeper connStr
  have hdial : (s.zooKeeper.closeAndReset connStr).2.dialer.dialError
      (s.zooKeeper.closeAndReset connStr).2.dialer.dials connStr = none := by
    rw [HandleHolder.closeAndReset_dialError]
    exact hd _
  simp [reset, HandleHolder.getZookeeperConnection, hfactory, Dialer.dial, hdial]

theorem resetInBackground_of_dialsSucceed (hd : s.zooKeeper.dialer.DialsSucceed connStr) :
    s.resetInBackground connStr = (s.reset connStr).2 := by
  simp [resetInBackground, reset_error_of_dialsSucceed hd]

/-- Once the larger timeout has passed, `checkTimeout` resets, whether or not
the connection string changed. -/
theorem checkTimeout_of_expired (hd : s.zooKeeper.dialer.DialsSucceed connStr)
    (hnow : s.timeouts.2 ≤ now - s.connectionStart) :
    s.checkTimeout now connStr = (none, (s.reset connStr).2) := by
  have hmin : s.timeouts.1 ≤ now - s.connectionStart := Int.le_trans (timeouts_fst_le_snd s) hnow
  unfold checkTimeout
  dsimp only
  by_cases hnew : s.zooKeeper.hasNewConnectionString connStr = true
  · simp [hmin, hnew, resetInBackground_of_dialsSucceed hd]
  · simp only [hmin, hnew, hnow, if_true]
    exact Prod.ext (reset_error_of_dialsSucceed hd) rfl

/-- `Conn()` on a state that is not connected, has no queued error and whose
window has passed the larger timeout resets the connection, and leaves a
state of the same kind. -/
theorem conn_of_expired (hconn : s.isConnected = false) (herr : s.backgroundErrors = [])
    (hd : s.zooKeeper.dialer.DialsSucceed connStr)
    (hnow : s.timeouts.2 ≤ now - s.connectionStart) :
    ∃ zk, (s.conn now connStr).2 =
      { s with instanceIndex := s.instanceIndex + 1, isConnected := false, zooKeeper := zk } ∧
      zk.dialer.dialError = s.zooKeeper.dialer.dialError := by
  have hdeque : s.dequeBackgroundException = (none, s) := by
    simp [dequeBackgroundException, herr]
  obtain ⟨zk, hzk, hdial⟩ := reset_eq s connStr
  refine ⟨(zk.getZookeeperConnection connStr).2, ?_, by simp [hdial]⟩
  simp [conn, hdeque, hconn, checkTimeout_of_expired hd hnow, hzk]

/-- Every `Conn()` call of a run at clock times past the window's larger
timeout resets the connection again, however close to the previous reset it
comes: the window start never moves. -/
theorem connRun_of_expired (hconn : s.isConnected = false) (herr : s.backgroundErrors = [])
    (hd : s.zooKeeper.dialer.DialsSucceed connStr) (ts : List Duration)
    (hts : ∀ t ∈ ts, s.timeouts.2 ≤ t - s.connectionStart) :
    ∃ zk, s.connRun connStr ts =
      { s with instanceIndex := s.instanceIndex + ts.length, isConnected := false,
               zooKeeper := zk } := by
  induction ts generalizing s with
  | nil =>
    refine ⟨s.zooKeeper, ?_⟩
    cases s
    simp_all [connRun]
  | cons t ts ih =>
    obtain ⟨zk, hs, hdial⟩ := conn_of_expired hconn herr hd (hts t List.mem_cons_self)
    have hd' : zk.dialer.DialsSucceed connStr := by
      intro n
      rw [hdial]
      exact hd n
    let s' : ClientConnectionState :=
      { s with instanceIndex := s.instanceIndex + 1, isConnected := false, zooKeeper := zk }
    obtain ⟨zk', hrun⟩ := @ih s' rfl herr hd' (fun t' ht' => hts t' (List.mem_cons_of_mem t ht'))
    refine ⟨zk', ?_⟩
    rw [connRun, hs, hrun]
    simp only [s', List.length_cons, ClientConnectionState.mk.injEq, true_and, and_true]
    omega

end Expired

section Cleared

variable {s : ClientConnectionState} {connStr : GoString} {now : Duration}

/-- Before the smaller timeout has passed, `checkTimeout` does nothing. -/
theorem checkTimeout_of_lt (hnow : now - s.connectionStart < s.timeouts.1) :
    s.checkTimeout now connStr = (none, s) := by
  unfold checkTimeout
  exact if_neg (Int.not_le.mpr hnow)

/-- `Conn()` on a state whose holder `Close()` has cleared, with no queued
error and before the smaller timeout: no connection, and no error either. -/
theorem conn_of_cleared (hh : s.zooKeeper.helper = none) (hconn : s.isConnected = false)
    (herr : s.backgroundErrors = []) (hnow : now - s.connectionStart < s.timeouts.1) :
    (s.conn now connStr).1 = .ok none := by
  simp [conn, dequeBackgroundException, herr, hconn, checkTimeout_of_lt hnow,
    HandleHolder.getZookeeperConnection, hh]

end Cleared

/-- With both timeouts at 10, a client started at clock 0 has its first
`Conn()` at 10 reset the connection, and a second `Conn()` at 10 resets it
again at no distance from that reset.  With timeouts 20 and 10 and `Start()`
at clock 15, a `Conn()` at 15 fails with `ErrConnectionLoss`. -/
theorem conn_resets_again_within_window :
    let d : Dialer := ⟨fun _ _ => none, 0, []⟩
    let host := "host:2181".toList
    let s := ((new 0 10 10 d).start host none).2
    let u := ((new 0 20 10 d).start host none).2
    s.instanceIndex = 1 ∧ (s.conn 10 host).2.instanceIndex = 2 ∧
      (s.conn 10 host).2.connectionStart = 0 ∧
      ((s.conn 10 host).2.conn 10 host).2.instanceIndex = 3 ∧
      (u.conn 15 host).1 = .error .errConnectionLoss := by
  decide

end ClientConnectionState

/-- `postState` on the started manager's channel, with room for one state, and
`queueBackgroundException` on its channel of `MAX_BACKGROUND_ERRORS`, with
nothing reading either: every call returns, and each channel then holds the
newest entries that fit, in posting order, the oldest being the ones dropped:
from an empty channel, the last `min n capacity` of the `n` posted.
`dequeBackgroundException` then answers the errors oldest first, and nil after
the last. -/
theorem postState_queueBackgroundException_keep_newest :
    (∀ (m : ConnectionStateManager) (xs : List ConnectionState), m.state = .started →
      1 ≤ m.queueSize → m.events.length ≤ m.queueSize →
      ∃ m', xs.foldlM ConnectionStateManager.postState m = some m' ∧
        m'.events = (m.events ++ xs).rtake m.queueSize ∧
        (m.events = [] → m'.events = xs.rtake m.queueSize ∧
          m'.events.length = min m.queueSize xs.length)) ∧
    (∀ (s : ClientConnectionState) (e : ZkError),
      BoundedBuffer.sendDroppingOldest maxBackgroundErrors e (s.backgroundErrors.length + 1)
        s.backgroundErrors = some ((s.backgroundErrors ++ [e]).rtake maxBackgroundErrors)) ∧
    (∀ (s : ClientConnectionState) (es : List ZkError),
      s.backgroundErrors.length ≤ maxBackgroundErrors →
      (es.foldl ClientConnectionState.queueBackgroundException s).backgroundErrors =
          (s.backgroundErrors ++ es).rtake maxBackgroundErrors ∧
        (s.backgroundErrors = [] →
          (es.foldl ClientConnectionState.queueBackgroundException s).backgroundErrors =
              es.rtake maxBackgroundErrors ∧
            (es.foldl ClientConnectionState.queueBackgroundException s).backgroundErrors.length =
              min maxBackgroundErrors es.length) ∧
        ∀ i, ((fun t : ClientConnectionState => t.dequeBackgroundException.2)^[i]
            (es.foldl ClientConnectionState.queueBackgroundException s)).dequeBackgroundException.1 =
          ((s.backgroundErrors ++ es).rtake maxBackgroundErrors)[i]?) := by
  refine ⟨fun m xs hm hcap hlen => ?_, ClientConnectionState.queueBackgroundException_loop,
    fun s es hlen => ?_⟩
  · refine ⟨_, ConnectionStateManager.foldlM_postState xs m hm hcap hlen, rfl, fun hnil => ?_⟩
    have hevents : (m.events ++ xs).rtake m.queueSize = xs.rtake m.queueSize := by
      rw [hnil, List.nil_append]
    exact ⟨hevents, (congrArg List.length hevents).trans (BoundedBuffer.length_rtake xs _)⟩
  · have hrun := ClientConnectionState.foldl_queueBackgroundException es s hlen
    refine ⟨by rw [hrun], fun hnil => ?_, fun i => ?_⟩
    · have herrors : (s.backgroundErrors ++ es).rtake maxBackgroundErrors =
          es.rtake maxBackgroundErrors := by
        rw [hnil, List.nil_append]
      rw [hrun]
      exact ⟨herrors, (congrArg List.length herrors).trans (BoundedBuffer.length_rtake es _)⟩
    · rw [ClientConnectionState.dequeBackgroundException_iterate, hrun]

/-- `TestPostState` and `TestBackgroundException`: 25 `CONNECTED` then 25
`RECONNECTED` posted to the started manager leave 25 `RECONNECTED`; after
`ErrAPIError` and ten `ErrConnectionLoss`, the first error dequeued is
`ErrConnectionLoss`. -/
theorem postState_queueBackgroundException_keep_newest_tests :
    let m := ConnectionStateManager.new.start.1
    let xs := List.replicate 25 ConnectionState.connected ++ List.replicate 25 .reconnected
    let s := ClientConnectionState.new 0 15 15 ⟨fun _ _ => none, 0, []⟩
    let es := ZkError.errAPIError :: List.replicate 10 .errConnectionLoss
    (m.state = .started ∧ 1 ≤ m.queueSize ∧ m.events.length ≤ m.queueSize) ∧
      (m.events ++ xs).rtake m.queueSize = List.replicate 25 .reconnected ∧
      s.backgroundErrors.length ≤ maxBackgroundErrors ∧
      ((s.backgroundErrors ++ es).rtake maxBackgroundErrors)[0]? = some .errConnectionLoss ∧
      (∃ m', xs.foldlM ConnectionStateManager.postState m = some m' ∧
        m'.events = (m.events ++ xs).rtake m.queueSize ∧
        (m.events = [] → m'.events = xs.rtake m.queueSize ∧
          m'.events.length = min m.queueSize xs.length)) ∧
      ((es.foldl ClientConnectionState.queueBackgroundException s).backgroundErrors =
          (s.backgroundErrors ++ es).rtake maxBackgroundErrors ∧
        (s.backgroundErrors = [] →
          (es.foldl ClientConnectionState.queueBackgroundException s).backgroundErrors =
              es.rtake maxBackgroundErrors ∧
            (es.foldl ClientConnectionState.queueBackgroundException s).backgroundErrors.length =
              min maxBackgroundErrors es.length) ∧
        ∀ i, ((fun t : ClientConnectionState => t.dequeBackgroundException.2)^[i]
            (es.foldl ClientConnectionState.queueBackgroundException s)).dequeBackgroundException.1 =
          ((s.backgroundErrors ++ es).rtake maxBackgroundErrors)[i]?) := by
  intro m xs s es
  have hm : m.state = .started := rfl
  have hcap : 1 ≤ m.queueSize := by decide
  have hlen : m.events.length ≤ m.queueSize := by decide
  have hs : s.backgroundErrors.length ≤ maxBackgroundErrors := by decide
  exact ⟨⟨hm, hcap, hlen⟩, by decide, hs, by decide,
    postState_queueBackgroundException_keep_newest.1 m xs hm hcap hlen,
    postState_queueBackgroundException_keep_newest.2.2 s es hs⟩

end Curator
