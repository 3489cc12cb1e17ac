import Curator.Support.Steps
import Curator.State.Connection

/-!
# The holder without a lock

`handleHolder` (`state.go`) has no lock: the goroutines that call `Conn()`,
`Start()` and `Close()` of one client read and write its `helper` field as
they go.  Here each method of the holder, and each of the three calls of
`connectionState` that reach it, is a routine of `Steps`, with one step for
each read or write of `helper`:

* a read that finds a factory dials in the same step, for the dial reads
  nothing another goroutine writes;
* the two reads of `internalClose` (its nil check, then the read of
  `getZookeeperConnection`) are one step: a nil at the second read ends the
  call as a nil at the first does;
* a connection that `internalClose` caches is closed in the step that caches
  it.

Run alone, each routine computes its function of `State.Connection`
(`run_getConnStep` to `run_connStep`), so the sequential model is what a
routine does when no other goroutine steps in between.  Between its steps
another goroutine may find the helper half changed: a factory whose dial is
under way, or a cache whose connection `internalClose` has just closed.
-/

namespace Curator

/-- Where `getZookeeperConnection()` is: at its read of `helper`, or with the
connection `c` a factory dialed, to be cached. -/
inductive GetConnPc where
  | reading
  | caching (c : ConnId)
  deriving DecidableEq, Repr

/-- Where `internalClose()` is: at its read of `helper`, or with the
connection `c` a factory dialed for it, to be cached and closed. -/
inductive InternalClosePc where
  | reading
  | caching (c : ConnId)
  deriving DecidableEq, Repr

/-- Where the holder's part of `connectionState.reset()` is: in the
`internalClose` of `closeAndReset`, at its write of the factory, or in the
`getZookeeperConnection` that follows. -/
inductive ResetPc where
  | closing (p : InternalClosePc)
  | settingFactory
  | getting (g : GetConnPc)
  deriving DecidableEq, Repr

/-- Where `closeAndClear()` is: at its read of `helper`, in its
`internalClose`, or at its write of nil, with the error it then returns. -/
inductive CloseAndClearPc where
  | reading
  | closing (p : InternalClosePc)
  | clearing (err : Option ZkError)
  deriving DecidableEq, Repr

namespace HandleHolder

variable (connStr : GoString)

/-- A step of `getZookeeperConnection()`. -/
def getConnStep : GetConnPc → HandleHolder →
    (GetConnPc ⊕ Except ZkError (Option ConnId)) × HandleHolder
  | .reading, h =>
    match h.helper with
    | none => (.inr (.ok none), h)
    | some (.cache _ c) => (.inr (.ok (some c)), h)
    | some .factory =>
      let r := h.dialer.dial connStr
      match r.1 with
      | .error e => (.inr (.error e), { h with dialer := r.2 })
      | .ok c => (.inl (.caching c), { h with dialer := r.2 })
  | .caching c, h => (.inr (.ok (some c)), { h with helper := some (.cache connStr c) })

/-- A step of `internalClose()`. -/
def internalCloseStep : InternalClosePc → HandleHolder →
    (InternalClosePc ⊕ Option ZkError) × HandleHolder
  | .reading, h =>
    match h.helper with
    | none => (.inr none, h)
    | some (.cache _ c) => (.inr none, { h with dialer := h.dialer.close c })
    | some .factory =>
      let r := h.dialer.dial connStr
      match r.1 with
      | .error e => (.inr (some e), { h with dialer := r.2 })
      | .ok c => (.inl (.caching c), { h with dialer := r.2 })
  | .caching c, h => (.inr none, ⟨some (.cache connStr c), h.dialer.close c⟩)

/-- A step of the holder's part of `reset()`: `closeAndReset()`, whose error
`reset()` drops, then `getZookeeperConnection()`, whose error it returns. -/
def resetStep : ResetPc → HandleHolder → (ResetPc ⊕ Option ZkError) × HandleHolder
  | .closing p, h =>
    match internalCloseStep connStr p h with
    | (.inl p', h') => (.inl (.closing p'), h')
    | (.inr none, h') => (.inl .settingFactory, h')
    | (.inr (some _), h') => (.inl (.getting .reading), h')
  | .settingFactory, h => (.inl (.getting .reading), { h with helper := some .factory })
  | .getting g, h =>
    match getConnStep connStr g h with
    | (.inl g', h') => (.inl (.getting g'), h')
    | (.inr (.ok _), h') => (.inr none, h')
    | (.inr (.error e), h') => (.inr (some e), h')

/-- A step of `closeAndClear()`. -/
def closeAndClearStep : CloseAndClearPc → HandleHolder →
    (CloseAndClearPc ⊕ Option ZkError) × HandleHolder
  | .reading, h =>
    match h.helper with
    | some .factory => (.inr none, h)
    | _ => (.inl (.closing .reading), h)
  | .closing p, h =>
    match internalCloseStep connStr p h with
    | (.inl p', h') => (.inl (.closing p'), h')
    | (.inr err, h') => (.inl (.clearing err), h')
  | .clearing err, h => (.inr err, { h with helper := none })

end HandleHolder

/-- Where `connectionState.Start()` is: at `ensembleProvider.Start()`, or in
its `reset()`. -/
inductive StartPc where
  | starting
  | resetting (p : ResetPc)
  deriving DecidableEq, Repr

/-- Where `connectionState.Conn()` is: at `dequeBackgroundException()`, at
its check of `isConnected` with `checkTimeout()`'s tests, in a `reset()` of
`checkTimeout()` (`queued` when it is `handleNewConnectionString`'s, which
queues its error), or in the last `getZookeeperConnection()`. -/
inductive ConnPc where
  | dequeuing
  | checking
  | resetting (queued : Bool) (p : ResetPc)
  | getting (g : GetConnPc)
  deriving DecidableEq, Repr

namespace ClientConnectionState

/-- The first two statements of `reset()`. -/
def beginReset (s : ClientConnectionState) : ClientConnectionState :=
  { s with instanceIndex := s.instanceIndex + 1, isConnected := false }

/-- The state with another holder. -/
def withHolder (s : ClientConnectionState) (h : HandleHolder) : ClientConnectionState :=
  { s with zooKeeper := h }

@[simp] theorem beginReset_zooKeeper (s : ClientConnectionState) :
    s.beginReset.zooKeeper = s.zooKeeper := rfl

@[simp] theorem withHolder_zooKeeper (s : ClientConnectionState) (h : HandleHolder) :
    (s.withHolder h).zooKeeper = h := rfl

variable (connStr : GoString)

/-- A step of `connectionState.Start()`, given the error of
`ensembleProvider.Start()`. -/
def startStep (ensembleError : Option ZkError) : StartPc → ClientConnectionState →
    (StartPc ⊕ Option ZkError) × ClientConnectionState
  | .starting, s =>
    match ensembleError with
    | some e => (.inr (some e), s)
    | none => (.inl (.resetting (.closing .reading)), s.beginReset)
  | .resetting p, s =>
    match HandleHolder.resetStep connStr p s.zooKeeper with
    | (.inl p', h) => (.inl (.resetting p'), s.withHolder h)
    | (.inr err, h) => (.inr err, s.withHolder h)

/-- A step of `connectionState.Close()`: `closeAndClear()`, then
`isConnected` is unset. -/
def closeStep (p : CloseAndClearPc) (s : ClientConnectionState) :
    (CloseAndClearPc ⊕ Option ZkError) × ClientConnectionState :=
  match HandleHolder.closeAndClearStep connStr p s.zooKeeper with
  | (.inl p', h) => (.inl p', s.withHolder h)
  | (.inr err, h) => (.inr err, { s.withHolder h with isConnected := false })

/-- A step of `connectionState.Conn()` at clock time `now`. -/
def connStep (now : Duration) : ConnPc → ClientConnectionState →
    (ConnPc ⊕ Except ZkError (Option ConnId)) × ClientConnectionState
  | .dequeuing, s =>
    match s.dequeBackgroundException with
    | (some e, s') => (.inr (.error e), s')
    | (none, s') => (.inl .checking, s')
  | .checking, s =>
    if !s.isConnected then
      if now - s.connectionStart ≥ s.timeouts.1 then
        if s.zooKeeper.hasNewConnectionString connStr then
          (.inl (.resetting true (.closing .reading)), s.beginReset)
        else if now - s.connectionStart ≥ s.timeouts.2 then
          (.inl (.resetting false (.closing .reading)), s.beginReset)
        else (.inr (.error .errConnectionLoss), s)
      else (.inl (.getting .reading), s)
    else (.inl (.getting .reading), s)
  | .resetting queued p, s =>
    match HandleHolder.resetStep connStr p s.zooKeeper with
    | (.inl p', h) => (.inl (.resetting queued p'), s.withHolder h)
    | (.inr none, h) => (.inl (.getting .reading), s.withHolder h)
    | (.inr (some e), h) =>
      if queued then (.inl (.getting .reading), (s.withHolder h).queueBackgroundException e)
      else (.inr (.error e), s.withHolder h)
  | .getting g, s =>
    match HandleHolder.getConnStep connStr g s.zooKeeper with
    | (.inl g', h) => (.inl (.getting g'), s.withHolder h)
    | (.inr r, h) => (.inr r, s.withHolder h)

end ClientConnectionState

/-! ### Run alone, each routine is its sequential call -/

namespace HandleHolder

variable (connStr : GoString) (h : HandleHolder)

theorem run_getConnStep :
    Steps.run (getConnStep connStr) 2 .reading h =
      (.inr (h.getZookeeperConnection connStr).1, (h.getZookeeperConnection connStr).2) := by
  rcases h with ⟨_ | _ | ⟨cs, c⟩, d⟩
  · rfl
  · rcases d.dial_cases connStr with ⟨e, he⟩ | he
    · simp [Steps.run_succ, getConnStep, getZookeeperConnection, he]
    · simp [Steps.run_succ, Steps.resume_inl_succ, getConnStep, getZookeeperConnection, he]
  · rfl

theorem run_internalCloseStep :
    Steps.run (internalCloseStep connStr) 2 .reading h =
      (.inr (h.internalClose connStr).1, (h.internalClose connStr).2) := by
  rcases h with ⟨_ | _ | ⟨cs, c⟩, d⟩
  · rfl
  · rcases d.dial_cases connStr with ⟨e, he⟩ | he
    · simp [Steps.run_succ, internalCloseStep, internalClose, getZookeeperConnection, he]
    · simp [Steps.run_succ, Steps.resume_inl_succ, internalCloseStep, internalClose,
        getZookeeperConnection, he]
  · rfl

/-- `reset()` calls `internalClose` at `.closing`; what follows depends on
whether it failed. -/
theorem resetStep_calls_internalClose :
    Steps.Calls (resetStep connStr) (internalCloseStep connStr) ResetPc.closing id (fun _ h => h)
      (fun err h => match err with
        | none => (.inl .settingFactory, h)
        | some _ => (.inl (.getting .reading), h)) where
  step p h := by
    rcases hr : internalCloseStep connStr p h with ⟨p' | _ | e, h'⟩ <;> simp [resetStep, hr]
  get_put _ _ := rfl
  put_put _ _ _ := rfl

/-- `reset()` calls `getZookeeperConnection` at `.getting`, and returns its
error. -/
theorem resetStep_calls_getConn :
    Steps.Calls (resetStep connStr) (getConnStep connStr) ResetPc.getting id (fun _ h => h)
      (fun r h => (.inr (match r with | .ok _ => none | .error e => some e), h)) where
  step g h := by
    rcases hr : getConnStep connStr g h with ⟨g' | _ | e, h'⟩ <;> simp [resetStep, hr]
  get_put _ _ := rfl
  put_put _ _ _ := rfl

theorem run_resetStep :
    Steps.run (resetStep connStr) 5 (.closing .reading) h =
      (.inr (match ((h.closeAndReset connStr).2.getZookeeperConnection connStr).1 with
        | .ok _ => none
        | .error e => some e),
        ((h.closeAndReset connStr).2.getZookeeperConnection connStr).2) := by
  have hget := run_getConnStep connStr (h.closeAndReset connStr).2
  show Steps.run _ (2 + 3) _ h = _
  refine Steps.run_call (resetStep_calls_internalClose connStr) (run_internalCloseStep connStr h) ?_
  cases herr : (h.internalClose connStr).1 with
  | none =>
    have hcar : h.closeAndReset connStr =
        (none, { (h.internalClose connStr).2 with helper := some .factory }) := by
      simp [closeAndReset, herr]
    rw [hcar] at hget ⊢
    show Steps.resume (resetStep connStr) (.inl .settingFactory, (h.internalClose connStr).2) (2 + 1) = _
    rw [Steps.resume_inl_succ]
    show Steps.run (resetStep connStr) (2 + 0) (.getting .reading) _ = _
    exact Steps.run_call (resetStep_calls_getConn connStr) hget (Steps.resume_zero _)
  | some e =>
    have hcar : h.closeAndReset connStr = (some e, (h.internalClose connStr).2) := by
      simp [closeAndReset, herr]
    rw [hcar] at hget ⊢
    have hrun : Steps.run (resetStep connStr) (2 + 0) (.getting .reading) (h.internalClose connStr).2 =
        _ := Steps.run_call (resetStep_calls_getConn connStr) hget (Steps.resume_zero _)
    exact Steps.run_of_le hrun (by omega)

/-- `closeAndClear()` calls `internalClose` at `.closing`, then clears. -/
theorem closeAndClearStep_calls_internalClose :
    Steps.Calls (closeAndClearStep connStr) (internalCloseStep connStr) CloseAndClearPc.closing id
      (fun _ h => h) (fun err h => (.inl (.clearing err), h)) where
  step p h := by
    rcases hr : internalCloseStep connStr p h with ⟨p' | err, h'⟩ <;> simp [closeAndClearStep, hr]
  get_put _ _ := rfl
  put_put _ _ _ := rfl

theorem run_closeAndClearStep :
    Steps.run (closeAndClearStep connStr) 4 .reading h =
      (.inr (h.closeAndClear connStr).1, (h.closeAndClear connStr).2) := by
  cases hf : h.helper with
  | some z =>
    cases z with
    | factory =>
      have hstep : closeAndClearStep connStr .reading h = (.inr none, h) := by
        simp [closeAndClearStep, hf]
      rw [Steps.run_of_le (Steps.run_one_of_step hstep) (by omega)]
      simp [closeAndClear, hf]
    | cache cs c =>
      have hstep : closeAndClearStep connStr .reading h = (.inl (.closing .reading), h) := by
        simp [closeAndClearStep, hf]
      rw [Steps.run_succ_of_step hstep]
      show Steps.run _ (2 + 1) _ h = _
      refine Steps.run_call (closeAndClearStep_calls_internalClose connStr)
        (run_internalCloseStep connStr h) ?_
      simp [Steps.resume_inl_succ, closeAndClearStep, closeAndClear, hf]
  | none =>
    have hstep : closeAndClearStep connStr .reading h = (.inl (.closing .reading), h) := by
      simp [closeAndClearStep, hf]
    rw [Steps.run_succ_of_step hstep]
    show Steps.run _ (2 + 1) _ h = _
    refine Steps.run_call (closeAndClearStep_calls_internalClose connStr)
      (run_internalCloseStep connStr h) ?_
    simp [Steps.resume_inl_succ, closeAndClearStep, closeAndClear, hf]

end HandleHolder

namespace ClientConnectionState

variable (connStr : GoString)

/-- The holder's part of `reset()`, run alone, is that of the sequential
`reset()`, which changes nothing else than `beginReset`. -/
theorem run_reset (s : ClientConnectionState) :
    Steps.run (HandleHolder.resetStep connStr) 5 (.closing .reading) s.beginReset.zooKeeper =
      (.inr (s.reset connStr).1, (s.reset connStr).2.zooKeeper) ∧
    (s.reset connStr).2 = s.beginReset.withHolder (s.reset connStr).2.zooKeeper := by
  refine ⟨?_, ?_⟩
  · rw [HandleHolder.run_resetStep]
    unfold reset
    dsimp only
    split <;> simp_all [beginReset]
  · unfold reset
    dsimp only
    split <;> rfl

theorem startStep_calls_reset (ensembleError : Option ZkError) :
    Steps.Calls (startStep connStr ensembleError) (HandleHolder.resetStep connStr) StartPc.resetting
      zooKeeper withHolder (fun err s => (.inr err, s)) where
  step p s := by
    rcases hr : HandleHolder.resetStep connStr p s.zooKeeper with ⟨p' | err, h'⟩ <;>
      simp [startStep, hr]
  get_put _ _ := rfl
  put_put _ _ _ := rfl

theorem run_startStep (ensembleError : Option ZkError) (s : ClientConnectionState) :
    Steps.run (startStep connStr ensembleError) 6 .starting s =
      (.inr (s.start connStr ensembleError).1, (s.start connStr ensembleError).2) := by
  cases ensembleError with
  | some e => exact Steps.run_of_le (Steps.run_one_of_step rfl) (by omega)
  | none =>
    obtain ⟨hrun, hs⟩ := run_reset connStr s
    rw [Steps.run_succ_of_step rfl]
    show Steps.run _ (5 + 0) _ s.beginReset = _
    rw [Steps.run_call (startStep_calls_reset connStr none) hrun (Steps.resume_zero _)]
    simp only [start]
    rw [← hs]

theorem closeStep_calls_closeAndClear :
    Steps.Calls (closeStep connStr) (HandleHolder.closeAndClearStep connStr) id zooKeeper withHolder
      (fun err s => (.inr err, { s with isConnected := false })) where
  step p s := by
    rcases hr : HandleHolder.closeAndClearStep connStr p s.zooKeeper with ⟨p' | err, h'⟩ <;>
      simp [closeStep, hr]
  get_put _ _ := rfl
  put_put _ _ _ := rfl

theorem run_closeStep (s : ClientConnectionState) :
    Steps.run (closeStep connStr) 4 .reading s = (.inr (s.close connStr).1, (s.close connStr).2) :=
  Steps.run_call (closeStep_calls_closeAndClear connStr)
    (HandleHolder.run_closeAndClearStep connStr s.zooKeeper) (Steps.resume_zero _)

variable (now : Duration)

theorem connStep_calls_reset (queued : Bool) :
    Steps.Calls (connStep connStr now) (HandleHolder.resetStep connStr) (ConnPc.resetting queued)
      zooKeeper withHolder (fun err s => match err with
        | none => (.inl (.getting .reading), s)
        | some e =>
          if queued then (.inl (.getting .reading), s.queueBackgroundException e)
          else (.inr (.error e), s)) where
  step p s := by
    rcases hr : HandleHolder.resetStep connStr p s.zooKeeper with ⟨p' | _ | e, h'⟩ <;>
      simp [connStep, hr]
  get_put _ _ := rfl
  put_put _ _ _ := rfl

theorem connStep_calls_getConn :
    Steps.Calls (connStep connStr now) (HandleHolder.getConnStep connStr) ConnPc.getting zooKeeper
      withHolder (fun r s => (.inr r, s)) where
  step g s := by
    rcases hr : HandleHolder.getConnStep connStr g s.zooKeeper with ⟨g' | r, h'⟩ <;>
      simp [connStep, hr]
  get_put _ _ := rfl
  put_put _ _ _ := rfl

/-- The last `getZookeeperConnection()` of `Conn()`, run alone. -/
theorem run_connStep_getting (t : ClientConnectionState) (n : ℕ) :
    Steps.run (connStep connStr now) (2 + n) (.getting .reading) t =
      (.inr (t.zooKeeper.getZookeeperConnection connStr).1,
        t.withHolder (t.zooKeeper.getZookeeperConnection connStr).2) :=
  Steps.run_call (connStep_calls_getConn connStr now)
    (HandleHolder.run_getConnStep connStr t.zooKeeper) (Steps.resume_inr _ _ _)

/-- The `reset()` of `checkTimeout()` past the larger timeout, run alone, then
the last `getZookeeperConnection()`. -/
theorem run_connStep_reset (t : ClientConnectionState) :
    Steps.run (connStep connStr now) 7 (.resetting false (.closing .reading)) t.beginReset =
      match t.reset connStr with
      | (some e, t') => (.inr (.error e), t')
      | (none, t') => (.inr (t'.zooKeeper.getZookeeperConnection connStr).1,
          t'.withHolder (t'.zooKeeper.getZookeeperConnection connStr).2) := by
  obtain ⟨hrun, hs⟩ := run_reset connStr t
  show Steps.run _ (5 + 2) _ t.beginReset = _
  cases hr : t.reset connStr with
  | mk err t' =>
    rw [hr] at hrun hs
    dsimp only at hs
    cases err with
    | none =>
      refine Steps.run_call (connStep_calls_reset connStr now false) hrun ?_
      rw [← hs]
      exact run_connStep_getting connStr now t' 0
    | some e =>
      refine Steps.run_call (connStep_calls_reset connStr now false) hrun ?_
      rw [← hs]
      rfl

/-- The `reset()` of `handleNewConnectionString`, run alone, then the last
`getZookeeperConnection()`. -/
theorem run_connStep_resetInBackground (t : ClientConnectionState) :
    Steps.run (connStep connStr now) 7 (.resetting true (.closing .reading)) t.beginReset =
      (.inr ((t.resetInBackground connStr).zooKeeper.getZookeeperConnection connStr).1,
        (t.resetInBackground connStr).withHolder
          ((t.resetInBackground connStr).zooKeeper.getZookeeperConnection connStr).2) := by
  obtain ⟨hrun, hs⟩ := run_reset connStr t
  show Steps.run _ (5 + 2) _ t.beginReset = _
  unfold resetInBackground
  cases hr : t.reset connStr with
  | mk err t' =>
    rw [hr] at hrun hs
    dsimp only at hs ⊢
    refine Steps.run_call (connStep_calls_reset connStr now true) hrun ?_
    rw [← hs]
    cases err with
    | none => exact run_connStep_getting connStr now t' 0
    | some e => exact run_connStep_getting connStr now (t'.queueBackgroundException e) 0

theorem run_connStep (s : ClientConnectionState) :
    Steps.run (connStep connStr now) 9 .dequeuing s = (.inr (s.conn now connStr).1, (s.conn now connStr).2) := by
  unfold conn
  rcases hd : s.dequeBackgroundException with ⟨_ | e, s'⟩
  · have hdeq : connStep connStr now .dequeuing s = (.inl .checking, s') := by simp [connStep, hd]
    rw [Steps.run_succ_of_step hdeq]
    dsimp only
    by_cases hc : s'.isConnected = true
    · have hchk : connStep connStr now .checking s' = (.inl (.getting .reading), s') := by
        simp [connStep, hc]
      rw [Steps.run_succ_of_step hchk, if_neg (by simp [hc])]
      exact run_connStep_getting connStr now s' 5
    · rw [if_pos (show (!s'.isConnected) = true by simp [hc])]
      unfold checkTimeout
      dsimp only
      by_cases hmin : now - s'.connectionStart ≥ s'.timeouts.1
      · by_cases hnew : s'.zooKeeper.hasNewConnectionString connStr = true
        · have hchk : connStep connStr now .checking s' =
              (.inl (.resetting true (.closing .reading)), s'.beginReset) := by
            simp [connStep, hc, hmin, hnew]
          rw [Steps.run_succ_of_step hchk,
            Steps.run_of_le (run_connStep_resetInBackground connStr now s') (by omega),
            if_pos hmin, if_pos hnew]
          rfl
        · by_cases hmax : now - s'.connectionStart ≥ s'.timeouts.2
          · have hchk : connStep connStr now .checking s' =
                (.inl (.resetting false (.closing .reading)), s'.beginReset) := by
              simp [connStep, hc, hmin, hnew, hmax]
            have hrun := run_connStep_reset connStr now s'
            rw [Steps.run_succ_of_step hchk, if_pos hmin, if_neg hnew, if_pos hmax]
            rcases hr : s'.reset connStr with ⟨_ | e, t'⟩ <;> rw [hr] at hrun
            · exact Steps.run_of_le hrun (by omega)
            · exact Steps.run_of_le hrun (by omega)
          · have hchk : connStep connStr now .checking s' = (.inr (.error .errConnectionLoss), s') := by
              simp [connStep, hc, hmin, hnew, hmax]
            rw [Steps.run_of_le (Steps.run_one_of_step hchk) (by omega), if_pos hmin, if_neg hnew,
              if_neg hmax]
      · have hchk : connStep connStr now .checking s' = (.inl (.getting .reading), s') := by
          simp [connStep, hc, hmin]
        rw [Steps.run_succ_of_step hchk, if_neg hmin]
        exact run_connStep_getting connStr now s' 5
  · have hdeq : connStep connStr now .dequeuing s = (.inr (.error e), s') := by simp [connStep, hd]
    exact Steps.run_of_le (Steps.run_one_of_step hdeq) (by omega)

end ClientConnectionState


/-! ### What one step does to the holder

A step of a routine does one of a few things to the holder and to the
connection the routine holds between its dial and its write (`Effect`): it
opens only a connection it dials, a fresh one; it closes only the connection
the holder caches or one it dialed itself; it caches only one it dialed; and
only `closeAndClear` writes nil.  Every fact below about the open connections
follows from that list. -/

/-- The connection a routine has dialed and not yet written to the holder. -/
def GetConnPc.held : GetConnPc → Option ConnId
  | .reading => none
  | .caching c => some c

/-- The connection `internalClose` has dialed and not yet cached and closed. -/
def InternalClosePc.held : InternalClosePc → Option ConnId
  | .reading => none
  | .caching c => some c

/-- The connection `reset()` has dialed and not yet written. -/
def ResetPc.held : ResetPc → Option ConnId
  | .closing p => p.held
  | .settingFactory => none
  | .getting g => g.held

/-- The connection `closeAndClear()` has dialed and not yet closed. -/
def CloseAndClearPc.held : CloseAndClearPc → Option ConnId
  | .reading => none
  | .closing p => p.held
  | .clearing _ => none

/-- The connection `connectionState.Start()` has dialed and not yet written. -/
def StartPc.held : StartPc → Option ConnId
  | .starting => none
  | .resetting p => p.held

/-- The connection `connectionState.Conn()` has dialed and not yet written. -/
def ConnPc.held : ConnPc → Option ConnId
  | .dequeuing | .checking => none
  | .resetting _ p => p.held
  | .getting g => g.held

@[simp] theorem Dialer.dial_dials (d : Dialer) (connectString : GoString) :
    (d.dial connectString).2.dials = d.dials + 1 := by
  unfold Dialer.dial
  split <;> rfl

@[simp] theorem Dialer.close_dials (d : Dialer) (c : ConnId) : (d.close c).dials = d.dials := rfl

theorem Dialer.mem_dial {d : Dialer} {connectString : GoString} {c : ConnId} (hc : c ∈ d.openConns) :
    c ∈ (d.dial connectString).2.openConns := by
  rcases d.dial_cases connectString with ⟨e, he⟩ | he <;> rw [he]
  · exact hc
  · exact List.mem_append_left _ hc

/-- A dial that succeeds opens a fresh connection, named after the call. -/
theorem Dialer.dial_ok {d : Dialer} {connectString : GoString} {c : ConnId}
    (h : (d.dial connectString).1 = .ok c) : c = d.dials ∧ c ∈ (d.dial connectString).2.openConns := by
  rcases d.dial_cases connectString with ⟨e, he⟩ | he <;> rw [he] at h ⊢
  · cases h
  · cases h
    exact ⟨rfl, List.mem_append_right _ (List.mem_singleton_self _)⟩

theorem Dialer.mem_close {d : Dialer} {c c' : ConnId} (hne : c' ≠ c) (hc : c ∈ d.openConns) :
    c ∈ (d.close c').openConns :=
  (List.mem_erase_of_ne (Ne.symm hne)).mpr hc

theorem Dialer.dial_of_dialsSucceed {d : Dialer} {connStr : GoString} (hd : d.DialsSucceed connStr) :
    (d.dial connStr).1 = .ok d.dials := by
  simp [Dialer.dial, hd d.dials]

namespace HandleHolder

/-- `c` is open, was dialed before, and the holder does not cache it. -/
def OpenUncached (c : ConnId) (h : HandleHolder) : Prop :=
  c ∈ h.dialer.openConns ∧ c < h.dialer.dials ∧ h.cachedConn ≠ some c

/-- The connection the holder caches, if any, is one its dialer dialed. -/
def CachedDialed (h : HandleHolder) : Prop :=
  ∀ c, h.cachedConn = some c → c < h.dialer.dials

/-- The holder hands out an open connection, one its dialer dialed. -/
def ServesOpen (h : HandleHolder) : Prop :=
  ∃ c, h.cachedConn = some c ∧ c ∈ h.dialer.openConns ∧ c < h.dialer.dials

theorem ServesOpen.cachedDialed {h : HandleHolder} (hs : h.ServesOpen) : h.CachedDialed := by
  intro c hc
  obtain ⟨c', hc', -, hlt⟩ := hs
  rw [hc] at hc'
  cases hc'
  exact hlt

variable (connStr : GoString)

/-- What one step does to the connection its routine holds and to the holder:
nothing; a factory's dial that fails, or that opens the connection the routine
then holds; the close of the cached connection; the write of the held
connection to the cache, which `internalClose` closes at once; or the write of
a factory. -/
inductive Effect : Option ConnId → HandleHolder → Option ConnId → HandleHolder → Prop where
  | keep (h : HandleHolder) : Effect none h none h
  | dialFail {h : HandleHolder} {e : ZkError} (hf : h.helper = some .factory)
      (he : (h.dialer.dial connStr).1 = .error e) :
      Effect none h none { h with dialer := (h.dialer.dial connStr).2 }
  | dial {h : HandleHolder} {c : ConnId} (hf : h.helper = some .factory)
      (hc : (h.dialer.dial connStr).1 = .ok c) :
      Effect none h (some c) { h with dialer := (h.dialer.dial connStr).2 }
  | closeCached {h : HandleHolder} {c : ConnId} (hc : h.cachedConn = some c) :
      Effect none h none { h with dialer := h.dialer.close c }
  | cache (h : HandleHolder) (c : ConnId) :
      Effect (some c) h none { h with helper := some (.cache connStr c) }
  | cacheClose (h : HandleHolder) (c : ConnId) :
      Effect (some c) h none ⟨some (.cache connStr c), h.dialer.close c⟩
  | setFactory (h : HandleHolder) : Effect none h none { h with helper := some .factory }

theorem getConnStep_effect (g : GetConnPc) (h : HandleHolder) :
    Effect connStr g.held h (Sum.elim GetConnPc.held (fun _ => none) (getConnStep connStr g h).1)
      (getConnStep connStr g h).2 := by
  cases g with
  | reading =>
    rcases h with ⟨_ | _ | ⟨cs, c⟩, d⟩
    · exact .keep _
    · cases hd : (d.dial connStr).1 with
      | error e =>
        have hstep : getConnStep connStr .reading ⟨some .factory, d⟩ =
            (.inr (.error e), ⟨some .factory, (d.dial connStr).2⟩) := by
          simp [getConnStep, hd]
        rw [hstep]
        exact .dialFail rfl hd
      | ok c =>
        have hstep : getConnStep connStr .reading ⟨some .factory, d⟩ =
            (.inl (.caching c), ⟨some .factory, (d.dial connStr).2⟩) := by
          simp [getConnStep, hd]
        rw [hstep]
        exact .dial rfl hd
    · exact .keep _
  | caching c => exact .cache h c

theorem internalCloseStep_effect (p : InternalClosePc) (h : HandleHolder) :
    Effect connStr p.held h
      (Sum.elim InternalClosePc.held (fun _ => none) (internalCloseStep connStr p h).1)
      (internalCloseStep connStr p h).2 := by
  cases p with
  | reading =>
    rcases h with ⟨_ | _ | ⟨cs, c⟩, d⟩
    · exact .keep _
    · cases hd : (d.dial connStr).1 with
      | error e =>
        have hstep : internalCloseStep connStr .reading ⟨some .factory, d⟩ =
            (.inr (some e), ⟨some .factory, (d.dial connStr).2⟩) := by
          simp [internalCloseStep, hd]
        rw [hstep]
        exact .dialFail rfl hd
      | ok c =>
        have hstep : internalCloseStep connStr .reading ⟨some .factory, d⟩ =
            (.inl (.caching c), ⟨some .factory, (d.dial connStr).2⟩) := by
          simp [internalCloseStep, hd]
        rw [hstep]
        exact .dial rfl hd
    · exact .closeCached rfl
  | caching c => exact .cacheClose h c

theorem resetStep_effect (p : ResetPc) (h : HandleHolder) :
    Effect connStr p.held h (Sum.elim ResetPc.held (fun _ => none) (resetStep connStr p h).1)
      (resetStep connStr p h).2 := by
  cases p with
  | closing q =>
    have he := internalCloseStep_effect connStr q h
    rcases hr : internalCloseStep connStr q h with ⟨q' | _ | e, h'⟩ <;> rw [hr] at he <;>
      simp only [resetStep, hr] <;> exact he
  | settingFactory => exact .setFactory h
  | getting g =>
    have he := getConnStep_effect connStr g h
    rcases hr : getConnStep connStr g h with ⟨g' | _ | e, h'⟩ <;> rw [hr] at he <;>
      simp only [resetStep, hr] <;> exact he

/-- `closeAndClear()` steps as the others do, or writes nil. -/
theorem closeAndClearStep_effect (p : CloseAndClearPc) (h : HandleHolder) :
    Effect connStr p.held h
        (Sum.elim CloseAndClearPc.held (fun _ => none) (closeAndClearStep connStr p h).1)
        (closeAndClearStep connStr p h).2 ∨
      p.held = none ∧ Sum.elim CloseAndClearPc.held (fun _ => none) (closeAndClearStep connStr p h).1 = none ∧
        (closeAndClearStep connStr p h).2 = { h with helper := none } := by
  cases p with
  | reading =>
    left
    cases hf : h.helper with
    | none =>
      simp only [closeAndClearStep, hf]
      exact .keep h
    | some z =>
      cases z <;> simp only [closeAndClearStep, hf] <;> exact .keep h
  | closing q =>
    left
    have he := internalCloseStep_effect connStr q h
    rcases hr : internalCloseStep connStr q h with ⟨q' | err, h'⟩ <;> rw [hr] at he <;>
      simp only [closeAndClearStep, hr] <;> exact he
  | clearing err => exact .inr ⟨rfl, rfl, rfl⟩

namespace Effect

variable {connStr : GoString} {held held' : Option ConnId} {h h' : HandleHolder}

theorem dialError (he : Effect connStr held h held' h') : h'.dialer.dialError = h.dialer.dialError := by
  cases he <;> simp

/-- Only `closeAndClear` writes nil. -/
theorem helper_ne_none (he : Effect connStr held h held' h') (hh : h.helper ≠ none) :
    h'.helper ≠ none := by
  cases he <;> simp [hh]

/-- A connection open and uncached, which the stepping routine does not hold,
stays so, and the routine does not come to hold it. -/
theorem openUncached (he : Effect connStr held h held' h') {c : ConnId} (hu : h.OpenUncached c)
    (hc : held ≠ some c) : h'.OpenUncached c ∧ held' ≠ some c := by
  obtain ⟨hopen, hlt, hcache⟩ := hu
  cases he with
  | keep => exact ⟨⟨hopen, hlt, hcache⟩, hc⟩
  | dialFail hf hd => exact ⟨⟨Dialer.mem_dial hopen, by simpa using Nat.lt_succ_of_lt hlt, hcache⟩, by simp⟩
  | @dial _ c' hf hd =>
    obtain ⟨rfl, -⟩ := Dialer.dial_ok hd
    exact ⟨⟨Dialer.mem_dial hopen, by simpa using Nat.lt_succ_of_lt hlt, hcache⟩,
      by simpa using Nat.ne_of_gt hlt⟩
  | @closeCached _ c' hc' =>
    have hne : c' ≠ c := fun he => hcache (he ▸ hc')
    exact ⟨⟨Dialer.mem_close hne hopen, hlt, hcache⟩, hc⟩
  | cache _ c' =>
    have hne : c' ≠ c := fun he => hc (by rw [he])
    exact ⟨⟨hopen, hlt, by simp [cachedConn, hne]⟩, by simp⟩
  | cacheClose _ c' =>
    have hne : c' ≠ c := fun he => hc (by rw [he])
    exact ⟨⟨Dialer.mem_close hne hopen, hlt, by simp [cachedConn, hne]⟩, by simp⟩
  | setFactory => exact ⟨⟨hopen, hlt, by simp [cachedConn]⟩, hc⟩

/-- What the routine comes to hold is a fresh connection: open, uncached and
dialed at or after every connection dialed before the step. -/
theorem held_fresh (he : Effect connStr held h held' h') (hcd : h.CachedDialed) {c : ConnId}
    (hc : held' = some c) : h'.OpenUncached c ∧ h.dialer.dials ≤ c := by
  cases he with
  | @dial _ c' hf hd =>
    cases hc
    obtain ⟨rfl, hopen⟩ := Dialer.dial_ok hd
    exact ⟨⟨hopen, by simp, fun hcc => Nat.lt_irrefl _ (hcd _ hcc)⟩, le_refl _⟩
  | _ => cases hc

theorem cachedDialed (he : Effect connStr held h held' h') (hcd : h.CachedDialed)
    (hheld : ∀ c, held = some c → c < h.dialer.dials) : h'.CachedDialed := by
  intro c hc
  cases he with
  | keep => exact hcd c hc
  | dialFail hf hd => simpa using Nat.lt_succ_of_lt (hcd c hc)
  | dial hf hd => simpa using Nat.lt_succ_of_lt (hcd c hc)
  | closeCached hc' => exact hcd c hc
  | cache _ c' =>
    simp only [cachedConn, Option.some.injEq] at hc
    subst hc
    exact hheld _ rfl
  | cacheClose _ c' =>
    simp only [cachedConn, Option.some.injEq] at hc
    subst hc
    simpa using hheld _ rfl
  | setFactory => simp [cachedConn] at hc

end Effect

end HandleHolder

/-! ### Writes that are still to come

Where every dial succeeds, a routine past the points below writes the helper
before it returns, whatever the other goroutines do: it holds a connection to
write, or it is in a `reset()` that writes a factory, or it is about to read a
factory, which it dials.  Its step keeps it so, or leaves the holder serving
an open connection. -/

/-- `getZookeeperConnection()` will write the helper. -/
def GetConnPc.WillWrite (helper : Option ZookeeperHelper) : GetConnPc → Prop
  | .reading => helper = some .factory
  | .caching _ => True

/-- `reset()` will write the helper: in its `internalClose` and its write of
the factory always, in its `getZookeeperConnection` as that says. -/
def ResetPc.WillWrite (helper : Option ZookeeperHelper) : ResetPc → Prop
  | .closing _ | .settingFactory => True
  | .getting g => g.WillWrite helper

/-- `Conn()` will write the helper, in a `reset()` or in its last
`getZookeeperConnection()`. -/
def ConnPc.WillWrite (helper : Option ZookeeperHelper) : ConnPc → Prop
  | .dequeuing | .checking => False
  | .resetting _ p => p.WillWrite helper
  | .getting g => g.WillWrite helper

namespace HandleHolder

variable {connStr : GoString} {h : HandleHolder}

theorem internalCloseStep_ne_error (hd : h.dialer.DialsSucceed connStr) (q : InternalClosePc)
    (e : ZkError) : (internalCloseStep connStr q h).1 ≠ .inr (some e) := by
  cases q with
  | reading =>
    cases hf : h.helper with
    | none => simp [internalCloseStep, hf]
    | some z => cases z <;> simp [internalCloseStep, hf, Dialer.dial_of_dialsSucceed hd]
  | caching c => simp [internalCloseStep]

/-- At a nil or a cache, `getZookeeperConnection` hands out what the holder
caches and writes nothing. -/
theorem getConnStep_reading_of_ne (hf : h.helper ≠ some .factory) :
    getConnStep connStr .reading h = (.inr (.ok h.cachedConn), h) := by
  rcases h with ⟨_ | _ | ⟨cs, c⟩, d⟩
  · rfl
  · exact absurd rfl hf
  · rfl

theorem getConnStep_willWrite (hd : h.dialer.DialsSucceed connStr) {g : GetConnPc}
    (hw : g.WillWrite h.helper)
    (hheld : ∀ c, g.held = some c → c ∈ h.dialer.openConns ∧ c < h.dialer.dials) :
    Sum.elim (GetConnPc.WillWrite (getConnStep connStr g h).2.helper) (fun _ => False)
        (getConnStep connStr g h).1 ∨ (getConnStep connStr g h).2.ServesOpen := by
  cases g with
  | reading =>
    have hf : h.helper = some .factory := hw
    have hstep : getConnStep connStr .reading h =
        (.inl (.caching h.dialer.dials), { h with dialer := (h.dialer.dial connStr).2 }) := by
      simp [getConnStep, hf, Dialer.dial_of_dialsSucceed hd]
    rw [hstep]
    exact .inl trivial
  | caching c =>
    obtain ⟨hopen, hlt⟩ := hheld c rfl
    exact .inr ⟨c, rfl, hopen, hlt⟩

theorem resetStep_willWrite (hd : h.dialer.DialsSucceed connStr) {p : ResetPc}
    (hw : p.WillWrite h.helper)
    (hheld : ∀ c, p.held = some c → c ∈ h.dialer.openConns ∧ c < h.dialer.dials) :
    Sum.elim (ResetPc.WillWrite (resetStep connStr p h).2.helper) (fun _ => False)
        (resetStep connStr p h).1 ∨ (resetStep connStr p h).2.ServesOpen := by
  cases p with
  | closing q =>
    rcases hr : internalCloseStep connStr q h with ⟨q' | _ | e, h'⟩
    · simp [resetStep, hr, ResetPc.WillWrite]
    · simp [resetStep, hr, ResetPc.WillWrite]
    · exact absurd (congrArg Prod.fst hr) (internalCloseStep_ne_error hd q e)
  | settingFactory => simp [resetStep, ResetPc.WillWrite, GetConnPc.WillWrite]
  | getting g =>
    have hg := getConnStep_willWrite hd hw hheld
    rcases hr : getConnStep connStr g h with ⟨g' | _ | e, h'⟩ <;> rw [hr] at hg
    · simpa [resetStep, hr, ResetPc.WillWrite] using hg
    · simpa [resetStep, hr] using hg
    · simpa [resetStep, hr] using hg

end HandleHolder

namespace ClientConnectionState

variable (connStr : GoString)

theorem startStep_effect (ensembleError : Option ZkError) (p : StartPc) (s : ClientConnectionState) :
    HandleHolder.Effect connStr p.held s.zooKeeper
      (Sum.elim StartPc.held (fun _ => none) (startStep connStr ensembleError p s).1)
      (startStep connStr ensembleError p s).2.zooKeeper := by
  cases p with
  | starting => cases ensembleError <;> exact .keep _
  | resetting q =>
    have he := HandleHolder.resetStep_effect connStr q s.zooKeeper
    rcases hr : HandleHolder.resetStep connStr q s.zooKeeper with ⟨q' | err, h'⟩ <;> rw [hr] at he <;>
      simp only [startStep, hr, withHolder_zooKeeper] <;> exact he

theorem closeStep_effect (p : CloseAndClearPc) (s : ClientConnectionState) :
    HandleHolder.Effect connStr p.held s.zooKeeper
        (Sum.elim CloseAndClearPc.held (fun _ => none) (closeStep connStr p s).1)
        (closeStep connStr p s).2.zooKeeper ∨
      p.held = none ∧ Sum.elim CloseAndClearPc.held (fun _ => none) (closeStep connStr p s).1 = none ∧
        (closeStep connStr p s).2.zooKeeper = { s.zooKeeper with helper := none } := by
  have he := HandleHolder.closeAndClearStep_effect connStr p s.zooKeeper
  rcases hr : HandleHolder.closeAndClearStep connStr p s.zooKeeper with ⟨q' | err, h'⟩ <;>
    rw [hr] at he <;> simp only [closeStep, hr, withHolder_zooKeeper] <;> exact he

theorem closeStep_openUncached {p : CloseAndClearPc} {s : ClientConnectionState} {c : ConnId}
    (hu : s.zooKeeper.OpenUncached c) (hp : p.held ≠ some c) :
    (closeStep connStr p s).2.zooKeeper.OpenUncached c ∧
      Sum.elim CloseAndClearPc.held (fun _ => none) (closeStep connStr p s).1 ≠ some c := by
  rcases closeStep_effect connStr p s with he | ⟨-, hheld, hz⟩
  · exact he.openUncached hu hp
  · rw [hheld, hz]
    exact ⟨⟨hu.1, hu.2.1, by simp [HandleHolder.cachedConn]⟩, by simp⟩

theorem closeStep_dialError (p : CloseAndClearPc) (s : ClientConnectionState) :
    (closeStep connStr p s).2.zooKeeper.dialer.dialError = s.zooKeeper.dialer.dialError := by
  rcases closeStep_effect connStr p s with he | ⟨-, -, hz⟩
  · exact he.dialError
  · rw [hz]

theorem connStep_effect (now : Duration) (p : ConnPc) (s : ClientConnectionState) :
    HandleHolder.Effect connStr p.held s.zooKeeper
      (Sum.elim ConnPc.held (fun _ => none) (connStep connStr now p s).1)
      (connStep connStr now p s).2.zooKeeper := by
  cases p with
  | dequeuing =>
    rcases hd : s.dequeBackgroundException with ⟨_ | e, s'⟩ <;>
      have hzk : s'.zooKeeper = s.zooKeeper := by simpa [hd] using dequeBackgroundException_zooKeeper s
    · simp only [connStep, hd, hzk]
      exact .keep _
    · simp only [connStep, hd, hzk]
      exact .keep _
  | checking =>
    simp only [connStep]
    split_ifs <;> exact .keep _
  | resetting queued q =>
    have he := HandleHolder.resetStep_effect connStr q s.zooKeeper
    rcases hr : HandleHolder.resetStep connStr q s.zooKeeper with ⟨q' | _ | e, h'⟩ <;> rw [hr] at he
    · simp only [connStep, hr, withHolder_zooKeeper]
      exact he
    · simp only [connStep, hr, withHolder_zooKeeper]
      exact he
    · cases queued <;> simp [connStep, hr, queueBackgroundException_zooKeeper] <;> exact he
  | getting g =>
    have he := HandleHolder.getConnStep_effect connStr g s.zooKeeper
    rcases hr : HandleHolder.getConnStep connStr g s.zooKeeper with ⟨g' | r, h'⟩ <;> rw [hr] at he <;>
      simp only [connStep, hr, withHolder_zooKeeper] <;> exact he

variable {connStr} {now : Duration} {s : ClientConnectionState}

/-- A `Conn()` that will write keeps so, or leaves the holder serving an open
connection. -/
theorem connStep_willWrite (hd : s.zooKeeper.dialer.DialsSucceed connStr) {p : ConnPc}
    (hw : p.WillWrite s.zooKeeper.helper)
    (hheld : ∀ c, p.held = some c → c ∈ s.zooKeeper.dialer.openConns ∧ c < s.zooKeeper.dialer.dials) :
    Sum.elim (ConnPc.WillWrite (connStep connStr now p s).2.zooKeeper.helper) (fun _ => False)
        (connStep connStr now p s).1 ∨ (connStep connStr now p s).2.zooKeeper.ServesOpen := by
  cases p with
  | dequeuing => exact hw.elim
  | checking => exact hw.elim
  | resetting queued q =>
    have hr' := HandleHolder.resetStep_willWrite hd hw hheld
    rcases hr : HandleHolder.resetStep connStr q s.zooKeeper with ⟨q' | _ | e, h'⟩ <;> rw [hr] at hr'
    · simpa [connStep, hr, ConnPc.WillWrite] using hr'
    · exact .inr (by simpa [connStep, hr] using hr')
    · cases queued
      · simpa [connStep, hr] using hr'
      · exact .inr (by simpa [connStep, hr, queueBackgroundException_zooKeeper] using hr')
  | getting g =>
    have hg := HandleHolder.getConnStep_willWrite hd hw hheld
    rcases hr : HandleHolder.getConnStep connStr g s.zooKeeper with ⟨g' | r, h'⟩ <;> rw [hr] at hg
    · simpa [connStep, hr, ConnPc.WillWrite] using hg
    · simpa [connStep, hr] using hg

/-- A `Conn()` that will not write leaves the holder as it is. -/
theorem connStep_zooKeeper_of_not_willWrite {p : ConnPc} (hw : ¬ p.WillWrite s.zooKeeper.helper) :
    (connStep connStr now p s).2.zooKeeper = s.zooKeeper := by
  cases p with
  | dequeuing =>
    rcases hd : s.dequeBackgroundException with ⟨_ | e, s'⟩ <;>
      have hzk : s'.zooKeeper = s.zooKeeper := by simpa [hd] using dequeBackgroundException_zooKeeper s
    · simpa [connStep, hd] using hzk
    · simpa [connStep, hd] using hzk
  | checking =>
    simp only [connStep]
    split_ifs <;> rfl
  | resetting queued q =>
    cases q with
    | closing q => exact absurd trivial hw
    | settingFactory => exact absurd trivial hw
    | getting g =>
      cases g with
      | caching c => exact absurd trivial hw
      | reading =>
        have hf : s.zooKeeper.helper ≠ some .factory := hw
        simp [connStep, HandleHolder.resetStep, HandleHolder.getConnStep_reading_of_ne hf]
  | getting g =>
    cases g with
    | caching c => exact absurd trivial hw
    | reading =>
      have hf : s.zooKeeper.helper ≠ some .factory := hw
      simp [connStep, HandleHolder.getConnStep_reading_of_ne hf]

end ClientConnectionState

end Curator
