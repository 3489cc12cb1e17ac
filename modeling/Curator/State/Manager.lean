import Curator.Basic
import Curator.Support.BoundedBuffer

/-!
# The connection state manager

`connectionStateManager` (`state.go`) turns the session events the framework
sees into `ConnectionState` changes, posts each change to a buffered channel
and lets a goroutine hand them to the listeners.  `AddStateChange` and
`SetToSuspended` run under the manager's lock: they compare with
`currentConnectionState`, update it, and post one state; the first change to
a non-negative state is announced as `CONNECTED` whatever its argument.

Each call is split as the code is: the decision taken under the lock
(`LockedResult`: the new fields and the state handed to `postState`, if any),
then the post.  `postState` loops until its send succeeds, dropping the
oldest buffered entry while the channel is full; the loop is run for a bounded
number of passes, and `none` is a call that does not return.
-/

namespace Curator

/-- A `ConnectionState`. -/
inductive ConnectionState where
  | unknown
  | connected
  | suspended
  | reconnected
  | lost
  | readOnly
  deriving DecidableEq, Repr

/-- `ConnectionState.Connected()`. -/
def ConnectionState.isConnected : ConnectionState → Bool
  | .connected => true
  | .reconnected => true
  | .readOnly => true
  | _ => false

/-- The states `AddStateChange` does not exempt from the first-connection
announcement: all but `LOST`, `SUSPENDED` and `READ_ONLY`. -/
def ConnectionState.NonNegative (s : ConnectionState) : Prop :=
  s ≠ .lost ∧ s ≠ .suspended ∧ s ≠ .readOnly

instance (s : ConnectionState) : Decidable s.NonNegative :=
  inferInstanceAs (Decidable (_ ∧ _ ∧ _))

/-- `STATE_QUEUE_SIZE`. -/
def stateQueueSize : ℕ := 25

/-- The fields of `connectionStateManager` the calls read and write; `events`
is the channel's buffer, oldest first. -/
structure ConnectionStateManager where
  state : State
  currentConnectionState : ConnectionState
  initialConnectMessageSent : Bool
  events : List ConnectionState
  queueSize : ℕ

namespace ConnectionStateManager

/-- `newConnectionStateManager(client)`. -/
def new : ConnectionStateManager :=
  ⟨.latent, .unknown, false, [], stateQueueSize⟩

/-- `connectionStateManager.Start()`: makes the channel with `QueueSize`. -/
def start (m : ConnectionStateManager) : ConnectionStateManager × Option ZkError :=
  match m.state.change .latent .started with
  | (_, false) => (m, some (.message "Cannot be started more than once"))
  | (st, true) => ({ m with state := st, events := [] }, none)

/-- `connectionStateManager.Close()`: a closed channel keeps its buffer. -/
def close (m : ConnectionStateManager) : ConnectionStateManager :=
  match m.state.change .started .stopped with
  | (_, false) => m
  | (st, true) => { m with state := st }

/-- The `for` loop of `postState` on an open channel of capacity `cap` that
nothing else reads, for at most `fuel` passes: send when there is room, else
receive (drop) the oldest entry and try again. -/
def postStateLoop (cap : ℕ) (s : ConnectionState) (fuel : ℕ)
    (q : List ConnectionState) : Option (List ConnectionState) :=
  BoundedBuffer.sendDroppingOldest cap s fuel q

/-- `connectionStateManager.postState(state)`.  Before `Start` the channel is
nil and both selects always fall through, so the call does not return; after
`Close` the send panics and the panic is recovered.  On the open channel the
loop drops at most every buffered entry before it sends, which bounds the
passes it can make before returning. -/
def postState (m : ConnectionStateManager) (s : ConnectionState) :
    Option ConnectionStateManager :=
  match m.state with
  | .latent => none
  | .stopped => some m
  | .started =>
    (postStateLoop m.queueSize s (m.events.length + 1) m.events).map
      fun q => { m with events := q }

/-- What a call decided under the lock: the manager's new fields and the
state it hands to `postState`, if any. -/
structure LockedResult where
  manager : ConnectionStateManager
  toPost : Option ConnectionState

/-- The part of `SetToSuspended` before its post. -/
def setToSuspendedLocked (m : ConnectionStateManager) : LockedResult :=
  if m.state ≠ .started then ⟨m, none⟩
  else if m.currentConnectionState = .lost ∨ m.currentConnectionState = .suspended then
    ⟨m, none⟩
  else ⟨{ m with currentConnectionState := .suspended }, some .suspended⟩

/-- The part of `AddStateChange(newConnectionState)` before its post. -/
def addStateChangeLocked (m : ConnectionStateManager)
    (newConnectionState : ConnectionState) : LockedResult :=
  if m.state ≠ .started then ⟨m, none⟩
  else if m.currentConnectionState = newConnectionState then ⟨m, none⟩
  else
    let m := { m with currentConnectionState := newConnectionState }
    match newConnectionState with
    | .lost => ⟨m, some newConnectionState⟩
    | .suspended => ⟨m, some newConnectionState⟩
    | .readOnly => ⟨m, some newConnectionState⟩
    | _ =>
      if m.initialConnectMessageSent then ⟨m, some newConnectionState⟩
      else ⟨{ m with initialConnectMessageSent := true }, some .connected⟩

/-- Post what the lock decided and answer whether anything was posted. -/
def LockedResult.post (r : LockedResult) : Option (ConnectionStateManager × Bool) :=
  match r.toPost with
  | none => some (r.manager, false)
  | some s => (r.manager.postState s).map fun m => (m, true)

/-- `connectionStateManager.SetToSuspended()`. -/
def setToSuspended (m : ConnectionStateManager) : Option (ConnectionStateManager × Bool) :=
  (setToSuspendedLocked m).post

/-- `connectionStateManager.AddStateChange(newConnectionState)`. -/
def addStateChange (m : ConnectionStateManager) (newConnectionState : ConnectionState) :
    Option (ConnectionStateManager × Bool) :=
  (addStateChangeLocked m newConnectionState).post

/-! ### What each call decides -/

variable {m : ConnectionStateManager}

/-- Everything `AddStateChange` decides on a started manager. -/
theorem addStateChangeLocked_spec (hm : m.state = .started) (s : ConnectionState) :
    let r := m.addStateChangeLocked s
    r.manager.state = .started ∧ r.manager.queueSize = m.queueSize ∧
      r.manager.events = m.events ∧
      (m.currentConnectionState = s → r.manager = m ∧ r.toPost = none) ∧
      (m.currentConnectionState ≠ s →
        r.manager.currentConnectionState = s ∧
        r.toPost = some (if s.NonNegative ∧ m.initialConnectMessageSent = false
          then .connected else s) ∧
        r.manager.initialConnectMessageSent =
          (m.initialConnectMessageSent || decide s.NonNegative)) := by
  by_cases hcur : m.currentConnectionState = s
  · simp [addStateChangeLocked, hm, hcur]
  · cases s <;> cases hsent : m.initialConnectMessageSent <;>
      simp [addStateChangeLocked, hm, hcur, hsent, ConnectionState.NonNegative]

/-- Everything `SetToSuspended` decides on a started manager. -/
theorem setToSuspendedLocked_spec (hm : m.state = .started) :
    let r := m.setToSuspendedLocked
    r.manager.state = .started ∧ r.manager.queueSize = m.queueSize ∧
      r.manager.events = m.events ∧
      r.manager.initialConnectMessageSent = m.initialConnectMessageSent ∧
      ((m.currentConnectionState = .lost ∨ m.currentConnectionState = .suspended) →
        r.manager = m ∧ r.toPost = none) ∧
      (m.currentConnectionState ≠ .lost → m.currentConnectionState ≠ .suspended →
        r.manager.currentConnectionState = .suspended ∧ r.toPost = some .suspended) := by
  by_cases hls : m.currentConnectionState = .lost ∨ m.currentConnectionState = .suspended
  · rcases hls with h | h <;> simp [setToSuspendedLocked, hm, h]
  · have hl : m.currentConnectionState ≠ .lost := fun h => hls (Or.inl h)
    have hs : m.currentConnectionState ≠ .suspended := fun h => hls (Or.inr h)
    simp [setToSuspendedLocked, hm, hl, hs]

/-! ### Posting -/

/-- On the started manager's open channel with room for one state, `postState`
returns, with the newest `QueueSize` states of the buffer and `s` last. -/
theorem postState_of_started (hm : m.state = .started) (hcap : 1 ≤ m.queueSize)
    (s : ConnectionState) :
    m.postState s = some { m with events := (m.events ++ [s]).rtake m.queueSize } := by
  simp [postState, hm, postStateLoop,
    BoundedBuffer.sendDroppingOldest_eq_rtake hcap s (Nat.le_refl _)]

/-- A sequence of `postState` calls on the started manager while nothing drains
the channel: every call returns, and the buffer then holds the newest
`QueueSize` of the states it held and those posted, oldest first.  The
induction is on the posts; each keeps the buffer within the capacity. -/
theorem foldlM_postState (xs : List ConnectionState) :
    ∀ m : ConnectionStateManager, m.state = .started → 1 ≤ m.queueSize →
      m.events.length ≤ m.queueSize →
      xs.foldlM postState m = some { m with events := (m.events ++ xs).rtake m.queueSize } := by
  induction xs with
  | nil =>
    intro m _ _ hlen
    simp [BoundedBuffer.rtake_of_length_le hlen]
  | cons x xs ih =>
    intro m hm hcap _
    rw [List.foldlM_cons, postState_of_started hm hcap x]
    change xs.foldlM postState { m with events := (m.events ++ [x]).rtake m.queueSize } = _
    rw [ih { m with events := (m.events ++ [x]).rtake m.queueSize } hm hcap
      (BoundedBuffer.length_rtake_le _ _), BoundedBuffer.rtake_concat_append]

/-- A post on a started manager with room for one entry returns, keeps every
field but the buffer, and answers whether something was posted. -/
theorem LockedResult.post_spec {r : LockedResult} (hm : r.manager.state = .started)
    (hcap : 1 ≤ r.manager.queueSize) :
    ∃ m', r.post = some (m', r.toPost.isSome) ∧ m'.state = .started ∧
      m'.queueSize = r.manager.queueSize ∧
      m'.currentConnectionState = r.manager.currentConnectionState ∧
      m'.initialConnectMessageSent = r.manager.initialConnectMessageSent := by
  cases hpost : r.toPost with
  | none => exact ⟨r.manager, by simp [LockedResult.post, hpost], hm, rfl, rfl, rfl⟩
  | some s =>
      refine ⟨{ r.manager with events := (r.manager.events ++ [s]).rtake r.manager.queueSize },
        ?_, hm, rfl, rfl, rfl⟩
      simp [LockedResult.post, hpost, postState_of_started hm hcap s]

end ConnectionStateManager

/-! ### Runs of calls -/

/-- A call the framework makes on the manager. -/
inductive StateCall where
  | addStateChange (s : ConnectionState)
  | setToSuspended
  deriving DecidableEq, Repr

/-- The decision a call takes under the lock. -/
def StateCall.locked (m : ConnectionStateManager) : StateCall → ConnectionStateManager.LockedResult
  | .addStateChange s => m.addStateChangeLocked s
  | .setToSuspended => m.setToSuspendedLocked

/-- The calls the framework makes: every argument but `UNKNOWN`. -/
def StateCall.Known : StateCall → Prop
  | .addStateChange s => s ≠ .unknown
  | .setToSuspended => True

instance (c : StateCall) : Decidable c.Known :=
  match c with
  | .addStateChange s => inferInstanceAs (Decidable (s ≠ .unknown))
  | .setToSuspended => inferInstanceAs (Decidable True)

/-- `curatorFramework.validateConnection(state)`: the call it makes, if any;
`StateDisconnected` goes through `suspendConnection`. -/
def validateConnection : ZkState → Option StateCall
  | .stateDisconnected => some .setToSuspended
  | .stateExpired => some (.addStateChange .lost)
  | .stateSyncConnected => some (.addStateChange .reconnected)
  | .stateConnectedReadOnly => some (.addStateChange .readOnly)
  | _ => none

/-- What one call did: its answer, the state it posted, and the current state
before and after it. -/
structure CallRecord where
  call : StateCall
  answer : Bool
  posted : Option ConnectionState
  before : ConnectionState
  after : ConnectionState

/-- Run the calls one after another, recording each. -/
def runCalls :
    ConnectionStateManager → List StateCall → Option (ConnectionStateManager × List CallRecord)
  | m, [] => some (m, [])
  | m, c :: cs =>
    match (c.locked m).post with
    | none => none
    | some (m₁, answer) =>
      (runCalls m₁ cs).map fun res =>
        (res.1, ⟨c, answer, (c.locked m).toPost, m.currentConnectionState,
          m₁.currentConnectionState⟩ :: res.2)

/-- The call posted a state for a non-negative argument. -/
def CallRecord.postsForNonNegative (r : CallRecord) : Bool :=
  match r.call with
  | .addStateChange s => decide s.NonNegative && r.posted.isSome
  | .setToSuspended => false

/-- Some of the first `i` calls posted a state for a non-negative argument. -/
def announcedBefore (recs : List CallRecord) (i : ℕ) : Bool :=
  (recs.take i).any CallRecord.postsForNonNegative

/-- The state a call is to post: `CONNECTED` for the first post from a
non-negative argument, the argument itself otherwise. -/
def StateCall.expectedPost (announced : Bool) : StateCall → ConnectionState
  | .addStateChange s => if s.NonNegative ∧ announced = false then .connected else s
  | .setToSuspended => .suspended

/-- The contract of one call: it answers `true` exactly when it changes the
current state and then posts exactly one state, `SetToSuspended` succeeds
exactly outside `SUSPENDED` and `LOST`, and a posted state is the expected one
and agrees with the new current state on `Connected()`. -/
structure CallRecord.Contract (announced : Bool) (r : CallRecord) : Prop where
  answer_iff_changed : r.answer = true ↔ r.after ≠ r.before
  answer_iff_posted : r.answer = true ↔ r.posted.isSome
  suspend_iff : r.call = .setToSuspended →
    (r.answer = true ↔ r.before ≠ .suspended ∧ r.before ≠ .lost)
  posted_eq : ∀ p, r.posted = some p → p = r.call.expectedPost announced
  posted_connected : ∀ p, r.posted = some p → p.isConnected = r.after.isConnected

/-- A non-negative state other than `UNKNOWN` is connected. -/
theorem ConnectionState.isConnected_of_nonNegative {s : ConnectionState}
    (hs : s.NonNegative) (hu : s ≠ .unknown) : s.isConnected = true := by
  cases s <;> simp_all [ConnectionState.NonNegative, ConnectionState.isConnected]

/-- One call on a started manager with room in its channel returns, keeps the
manager started, meets its contract with respect to the flag it found, and
raises the flag exactly when it posted for a non-negative argument. -/
theorem StateCall.step_contract {m : ConnectionStateManager} (hm : m.state = .started)
    (hcap : 1 ≤ m.queueSize) {c : StateCall} (hc : c.Known) :
    ∃ m₁ answer, (c.locked m).post = some (m₁, answer) ∧ m₁.state = .started ∧
      m₁.queueSize = m.queueSize ∧
      let r : CallRecord := ⟨c, answer, (c.locked m).toPost, m.currentConnectionState,
        m₁.currentConnectionState⟩
      r.Contract m.initialConnectMessageSent ∧
        m₁.initialConnectMessageSent = (m.initialConnectMessageSent || r.postsForNonNegative) := by
  cases c with
  | addStateChange s =>
      obtain ⟨hst, hq, -, hsame, hchange⟩ :=
        ConnectionStateManager.addStateChangeLocked_spec hm s
      obtain ⟨m₁, hpost, hst₁, hq₁, hcur₁, hsent₁⟩ :=
        ConnectionStateManager.LockedResult.post_spec (r := m.addStateChangeLocked s) hst
          (hq ▸ hcap)
      refine ⟨m₁, _, hpost, hst₁, hq₁.trans hq, ?_⟩
      by_cases hcur : m.currentConnectionState = s
      · obtain ⟨hman, hnone⟩ := hsame hcur
        have hcur' : m₁.currentConnectionState = m.currentConnectionState := by
          rw [hcur₁, hman]
        have hsent' : m₁.initialConnectMessageSent = m.initialConnectMessageSent := by
          rw [hsent₁, hman]
        refine ⟨⟨?_, ?_, ?_, ?_, ?_⟩, ?_⟩ <;>
          simp [StateCall.locked, hnone, hcur', hsent', CallRecord.postsForNonNegative]
      · obtain ⟨hnew, hto, hflag⟩ := hchange hcur
        have hcur' : m₁.currentConnectionState = s := hcur₁.trans hnew
        refine ⟨⟨?_, ?_, ?_, ?_, ?_⟩, ?_⟩
        · simp [hto, hcur', Ne.symm hcur]
        · simp [StateCall.locked, hto]
        · intro h
          cases h
        · intro p hp
          simp only [StateCall.locked, hto, Option.some.injEq] at hp
          rw [← hp]
          rfl
        · intro p hp
          simp only [StateCall.locked, hto, Option.some.injEq] at hp
          rw [← hp, hcur']
          split_ifs with hfirst
          · exact (ConnectionState.isConnected_of_nonNegative hfirst.1 hc).symm
          · rfl
        · simp [StateCall.locked, hto, CallRecord.postsForNonNegative, hsent₁, hflag]
  | setToSuspended =>
      obtain ⟨hst, hq, -, hsent, hstay, hmove⟩ :=
        ConnectionStateManager.setToSuspendedLocked_spec hm
      obtain ⟨m₁, hpost, hst₁, hq₁, hcur₁, hsent₁⟩ :=
        ConnectionStateManager.LockedResult.post_spec (r := m.setToSuspendedLocked) hst
          (hq ▸ hcap)
      refine ⟨m₁, _, hpost, hst₁, hq₁.trans hq, ?_⟩
      by_cases hls : m.currentConnectionState = .lost ∨ m.currentConnectionState = .suspended
      · obtain ⟨hman, hnone⟩ := hstay hls
        have hcur' : m₁.currentConnectionState = m.currentConnectionState := by
          rw [hcur₁, hman]
        refine ⟨⟨?_, ?_, ?_, ?_, ?_⟩, ?_⟩
        · simp [hnone, hcur']
        · simp [StateCall.locked, hnone]
        · intro _
          rcases hls with h | h <;> simp [hnone, h]
        · simp [StateCall.locked, hnone]
        · simp [StateCall.locked, hnone]
        · simp [CallRecord.postsForNonNegative, hsent₁, hsent]
      · have hl : m.currentConnectionState ≠ .lost := fun h => hls (Or.inl h)
        have hs : m.currentConnectionState ≠ .suspended := fun h => hls (Or.inr h)
        obtain ⟨hnew, hto⟩ := hmove hl hs
        have hcur' : m₁.currentConnectionState = .suspended := hcur₁.trans hnew
        refine ⟨⟨?_, ?_, ?_, ?_, ?_⟩, ?_⟩
        · simp [hto, hcur', Ne.symm hs]
        · simp [StateCall.locked, hto]
        · intro _
          simp [hto, hl, hs]
        · intro p hp
          simp only [StateCall.locked, hto, Option.some.injEq] at hp
          rw [← hp]
          rfl
        · intro p hp
          simp only [StateCall.locked, hto, Option.some.injEq] at hp
          rw [← hp, hcur']
        · simp [CallRecord.postsForNonNegative, hsent₁, hsent]

theorem announcedBefore_zero (r : CallRecord) (recs : List CallRecord) :
    announcedBefore (r :: recs) 0 = false := by
  simp [announcedBefore]

theorem announcedBefore_succ (r : CallRecord) (recs : List CallRecord) (i : ℕ) :
    announcedBefore (r :: recs) (i + 1) = (r.postsForNonNegative || announcedBefore recs i) := by
  simp [announcedBefore]

/-- Every run of known calls from a started manager returns, and each call
meets its contract with respect to the flag the run started with and the
posts made before it. -/
theorem runCalls_contract (calls : List StateCall) :
    ∀ (m : ConnectionStateManager), m.state = .started → 1 ≤ m.queueSize →
      (∀ c ∈ calls, c.Known) →
      ∃ m' recs, runCalls m calls = some (m', recs) ∧ recs.map CallRecord.call = calls ∧
        ∀ (i : ℕ) (hi : i < recs.length),
          recs[i].Contract (m.initialConnectMessageSent || announcedBefore recs i) := by
  induction calls with
  | nil =>
      intro m _ _ _
      exact ⟨m, [], rfl, rfl, fun i hi => absurd hi (Nat.not_lt_zero i)⟩
  | cons c cs ih =>
      intro m hm hcap hknown
      obtain ⟨m₁, answer, hpost, hst₁, hq₁, hcontract, hflag⟩ :=
        StateCall.step_contract hm hcap (hknown c List.mem_cons_self)
      obtain ⟨m', recs, hrun, hcalls, hrecs⟩ :=
        ih m₁ hst₁ (hq₁ ▸ hcap) (fun c' hc' => hknown c' (List.mem_cons_of_mem c hc'))
      refine ⟨m', ⟨c, answer, (c.locked m).toPost, m.currentConnectionState,
        m₁.currentConnectionState⟩ :: recs, ?_, ?_, ?_⟩
      · simp [runCalls, hpost, hrun]
      · simp [hcalls]
      · intro i hi
        cases i with
        | zero =>
            rw [announcedBefore_zero, Bool.or_false]
            exact hcontract
        | succ i =>
            rw [announcedBefore_succ, ← Bool.or_assoc, ← hflag]
            exact hrecs i (by simpa using hi)

end Curator
