import Curator.EnsurePath
import Curator.Support.Decimal

/-!
# `InterProcessMutex`

`recipes/locks.go` implements the mutex with the standard lock driver: a
client creates an `EPHEMERAL_SEQUENTIAL` node `lock-` under the base path,
lists the base path's children sorted by the text after `lock-`, and holds
the lock when its node comes first; otherwise it watches the node before its
own and lists again when the watch fires or its timer does.  `Release`
deletes the node once the re-entrant count drops to zero.

A client's call is cut at its requests (`LockPc`); `InterProcessMutex.step`
sends the next request of the running call and does everything the code does
up to the request after it.  The select of `internalLockLoop` ends either way
in the next pass of the loop, so when it ends is the scheduler's choice.

Two details of the source decide what a failed pass does.  Inside
`internalLockLoop`, `if children, err := ...; err != nil` declares a new
`err`: the named result `err` is never set, and `doDelete` is never set
either, so no exit of the loop deletes the node or reports an error.  And
`sequenceNodeName` is `path[len(basePath)+1:]`, read off the created path.
-/

namespace Curator

open ListSearch

/-- `LockPrefix`. -/
def lockPrefix : GoString := "lock-".toList

/-- `StandardLockInternalsDriver.FixForSorting`: the text after the last
occurrence of `lockName`. -/
def fixForSorting (str lockName : GoString) : GoString :=
  match lastIndexOf lockName str with
  | some idx =>
    let idx := idx + lockName.length
    if idx ≤ str.length then str.drop idx else []
  | none => str

/-- `PredicateResults`. -/
structure PredicateResults where
  getsTheLock : Bool
  pathToWatch : GoString
  deriving DecidableEq, Repr

/-- `StandardLockInternalsDriver.GetsTheLock`: the first child named
`sequenceNodeName` gets the lock when fewer than `maxLeases` children stand
before it, and watches the child `maxLeases` places before it otherwise. -/
def getsTheLock (children : List GoString) (sequenceNodeName : GoString) (maxLeases : ℕ) :
    Except ZkError PredicateResults :=
  match children.findIdx? (· == sequenceNodeName) with
  | some i =>
    let gets := decide (i < maxLeases)
    .ok ⟨gets, if gets then [] else children.getD (i - maxLeases) []⟩
  | none => .error .errNoNode

/-- A `lockInternals`, without the client and the driver. -/
structure LockInternals where
  basePath : GoString
  lockName : GoString
  lockPath : GoString
  maxLeases : ℕ
  deriving DecidableEq, Repr

/-- `newLockInternals(client, driver, basePath, lockName, maxLeases)`. -/
def newLockInternals (basePath lockName : GoString) (maxLeases : ℕ) :
    Except ZkError LockInternals :=
  match validatePath basePath with
  | some e => .error e
  | none => .ok ⟨basePath, lockName, joinPath basePath [lockName], maxLeases⟩

/-- The `sort.Sort` of `getSortedChildren`, by `FixForSorting` of the
children compared as text.  `sort.Sort` leaves the order of equal keys
open; the model takes merge sort's. -/
def LockInternals.sortChildren (l : LockInternals) (children : List GoString) :
    List GoString :=
  children.mergeSort fun lhs rhs =>
    !decide (fixForSorting rhs l.lockName < fixForSorting lhs l.lockName)

/-- `getSortedChildren()`, with `GetChildren().ForPath(basePath)`'s
answer. -/
def LockInternals.getSortedChildren (l : LockInternals) (fault : Option ZkError)
    (st : Store) : Except ZkError (List GoString) :=
  match (st.withFault fault fun st => st.children l.basePath).1 with
  | .error e => .error e
  | .ok children => .ok (l.sortChildren children)

theorem LockInternals.getSortedChildren_of_children {l : LockInternals} {st : Store}
    {children : List GoString} (h : (st.children l.basePath).1 = .ok children) :
    l.getSortedChildren none st = .ok (l.sortChildren children) := by
  simp [LockInternals.getSortedChildren, Store.withFault, h]

/-- A listing that answered got through to the store: its answer is the base
path's children, sorted. -/
theorem LockInternals.exists_children_of_getSortedChildren {l : LockInternals}
    {fault : Option ZkError} {st : Store} {sorted : List GoString}
    (h : l.getSortedChildren fault st = .ok sorted) :
    ∃ children, (st.children l.basePath).1 = .ok children ∧ sorted = l.sortChildren children := by
  unfold LockInternals.getSortedChildren at h
  cases fault with
  | some e => simp [Store.withFault] at h
  | none =>
    simp only [Store.withFault] at h
    split at h
    · simp at h
    · next children hc => exact ⟨children, hc, (Except.ok.inj h).symm⟩

/-- `deleteOurPath(path)`: a missing node counts as deleted. -/
def LockInternals.deleteOurPath (_l : LockInternals) (path : GoString) (fault : Option ZkError)
    (st : Store) : Option ZkError × Store :=
  let r := st.withFault fault fun st => st.delete path (-1)
  match r.1 with
  | .error .errNoNode => (none, r.2)
  | .error e => (some e, r.2)
  | .ok () => (none, r.2)

/-- `int32` arithmetic: the value `atomic.AddInt32` stores for the sum `x`. -/
def wrapInt32 (x : ℤ) : ℤ := (x + 2 ^ 31) % 2 ^ 32 - 2 ^ 31

theorem wrapInt32_of_fits {x : ℤ} (hlo : -2 ^ 31 ≤ x) (hhi : x < 2 ^ 31) : wrapInt32 x = x := by
  unfold wrapInt32
  omega

theorem wrapInt32_lt (x : ℤ) : wrapInt32 x < 2 ^ 31 := by
  unfold wrapInt32
  omega

theorem le_wrapInt32 (x : ℤ) : -2 ^ 31 ≤ wrapInt32 x := by
  unfold wrapInt32
  omega

/-- An `InterProcessMutex`; `lockCount` is its `int32`. -/
structure InterProcessMutex where
  basePath : GoString
  internals : LockInternals
  lockPath : GoString
  lockCount : ℤ
  lockNodeBytes : Option Bytes
  deriving DecidableEq, Repr

/-- `NewInterProcessMutex(client, path)`, with the standard driver. -/
def newInterProcessMutex (path : GoString) : Except ZkError InterProcessMutex :=
  match validatePath path with
  | some e => .error e
  | none =>
    match newLockInternals path lockPrefix 1 with
    | .error e => .error e
    | .ok internals => .ok ⟨path, internals, [], 0, none⟩

/-- `IsAcquiredInThisProcess()`. -/
def InterProcessMutex.isAcquiredInThisProcess (m : InterProcessMutex) : Bool :=
  decide (0 < m.lockCount)

/-- Which of the two acquiring calls runs. -/
inductive LockCall where
  | acquire
  | acquireTimeout
  deriving DecidableEq, Repr

/-- Where a client is: idle after its last call, with that call's answer, or
at the next request of the running call. -/
inductive LockPc where
  | idle
  | acquireReturned (locked : Bool) (err : Option ZkError)
  | releaseReturned (err : Option ZkError)
  | creating (call : LockCall) (retryCount : ℕ)
  | makingDirs (call : LockCall) (retryCount : ℕ)
  | creatingAgain (call : LockCall) (retryCount : ℕ)
  | listing (call : LockCall) (ourPath : GoString)
  | watching (call : LockCall) (ourPath pathToWatch : GoString)
  | waiting (call : LockCall) (ourPath : GoString)
  | deleting (path : GoString)
  deriving DecidableEq, Repr

/-- Is the client between calls? -/
def LockPc.isIdle : LockPc → Bool
  | .idle | .acquireReturned _ _ | .releaseReturned _ => true
  | _ => false

/-- A scheduled step of one client: a call it starts, or the next request of
the call it runs, with the fault injected into that request and the clock
reading `AllowRetry` is given; or the `MakeDirs` of `CreatingParentsIfNeeded`,
with the fault injected into each of its requests. -/
inductive LockEvent where
  | acquire (call : LockCall)
  | release
  | advance (fault : Option ZkError) (elapsed : Duration)
  | makeDirs (faults : ℕ → Option ZkError) (elapsed : Duration)

namespace InterProcessMutex

variable (m : InterProcessMutex) (policy : RetryPolicy)

/-- What `Acquire` and `AcquireTimeout` answer for `internalLock`'s result. -/
def answer : LockCall → Bool → Option ZkError → LockPc
  | .acquire, _, some e => .acquireReturned false (some e)
  | .acquire, false, none =>
    .acquireReturned false
      (some (.message ("Lost connection while trying to acquire lock: " ++ String.ofList m.basePath)))
  | .acquire, true, none => .acquireReturned true none
  | .acquireTimeout, locked, err => .acquireReturned locked err

/-- `attemptLock` after a failed create: `ErrNoNode` is retried while the
framework's policy allows, any other error ends the call. -/
def attemptLockError (call : LockCall) (retryCount : ℕ) (e : ZkError) (elapsed : Duration) :
    LockPc :=
  if e = .errNoNode ∧ (policy.allowRetry (retryCount + 1) elapsed defaultRetrySleeper).1 then
    .creating call (retryCount + 1)
  else m.answer call false (some e)

/-- The end of `internalLockLoop` and what `attemptLock` and `internalLock`
do with it: the loop's `err` is nil on every exit and `doDelete` false, so
the node is kept, and `attemptLock` returns `ourPath` exactly when the loop
has the lock. -/
def afterLockLoop (call : LockCall) (ourPath : GoString) (haveTheLock : Bool) :
    InterProcessMutex × LockPc :=
  if haveTheLock then ({ m with lockPath := ourPath, lockCount := 1 }, m.answer call true none)
  else (m, m.answer call false none)

/-- One step of the client owning `m` at `pc`. -/
def step (pc : LockPc) (ev : LockEvent) (st : Store) : InterProcessMutex × LockPc × Store :=
  match ev, pc.isIdle with
  | .acquire call, true =>
    -- `internalLock`: re-entering only counts
    if m.isAcquiredInThisProcess then
      ({ m with lockCount := wrapInt32 (m.lockCount + 1) }, .acquireReturned true none, st)
    else (m, .creating call 0, st)
  | .release, true =>
    if !m.isAcquiredInThisProcess then
      (m, .releaseReturned
        (some (.message ("You do not own the lock: " ++ String.ofList m.basePath))), st)
    else
      let count := wrapInt32 (m.lockCount - 1)
      let m := { m with lockCount := count }
      if 0 < count then (m, .releaseReturned none, st)
      else if count < 0 then
        (m, .releaseReturned
          (some (.message ("Lock count has gone negative for lock: " ++ String.ofList m.basePath))), st)
      else (m, .deleting m.lockPath, st)
  | .advance fault elapsed, false =>
    match pc with
    | .creating call retryCount =>
      let r := st.withFault fault fun st =>
        st.create m.internals.lockPath (m.lockNodeBytes.getD []) .ephemeralSequential
      match r.1 with
      | .ok ourPath => (m, .listing call ourPath, r.2)
      -- `CreatingParentsIfNeeded`
      | .error .errNoNode => (m, .makingDirs call retryCount, r.2)
      | .error e => (m, m.attemptLockError policy call retryCount e elapsed, r.2)
    | .creatingAgain call retryCount =>
      let r := st.withFault fault fun st =>
        st.create m.internals.lockPath (m.lockNodeBytes.getD []) .ephemeralSequential
      match r.1 with
      | .ok ourPath => (m, .listing call ourPath, r.2)
      | .error e => (m, m.attemptLockError policy call retryCount e elapsed, r.2)
    | .listing call ourPath =>
      match m.internals.getSortedChildren fault st with
      | .error _ =>
        let r := m.afterLockLoop call ourPath false
        (r.1, r.2, st)
      | .ok children =>
        let sequenceNodeName := ourPath.drop (m.internals.basePath.length + 1)
        match getsTheLock children sequenceNodeName m.internals.maxLeases with
        | .error _ =>
          let r := m.afterLockLoop call ourPath false
          (r.1, r.2, st)
        | .ok results =>
          if results.getsTheLock then
            let r := m.afterLockLoop call ourPath true
            (r.1, r.2, st)
          else
            (m, .watching call ourPath (joinPath m.internals.basePath [results.pathToWatch]), st)
    -- `GetData().UsingWatcher(...)`: its answer is not read
    | .watching call ourPath _ => (m, .waiting call ourPath, st)
    | .waiting call ourPath => (m, .listing call ourPath, st)
    | .deleting path =>
      let r := m.internals.deleteOurPath path fault st
      (m, .releaseReturned r.1, r.2)
    | pc => (m, pc, st)
  | .makeDirs faults elapsed, false =>
    match pc with
    | .makingDirs call retryCount =>
      let r := makeDirs faults m.internals.lockPath false ⟨st, 0⟩
      match r.1 with
      | some e => (m, m.attemptLockError policy call retryCount e elapsed, r.2.store)
      | none => (m, .creatingAgain call retryCount, r.2.store)
    | pc => (m, pc, st)
  | _, _ => (m, pc, st)

/-- What an `Acquire` does: a busy client ignores it; an idle one that holds
the lock only counts, and one that does not starts creating its node. -/
theorem step_acquire_cases (pc : LockPc) (call : LockCall) (st : Store) :
    (pc.isIdle = false ∧ m.step policy pc (.acquire call) st = (m, pc, st)) ∨
      (pc.isIdle = true ∧ 0 < m.lockCount ∧ m.step policy pc (.acquire call) st =
        ({ m with lockCount := wrapInt32 (m.lockCount + 1) }, .acquireReturned true none, st)) ∨
      (pc.isIdle = true ∧ m.lockCount ≤ 0 ∧
        m.step policy pc (.acquire call) st = (m, .creating call 0, st)) := by
  cases hidle : pc.isIdle with
  | false => exact .inl ⟨rfl, by simp [step.eq_def, hidle]⟩
  | true =>
    by_cases hpos : 0 < m.lockCount
    · exact .inr (.inl ⟨rfl, hpos, by simp [step.eq_def, hidle, isAcquiredInThisProcess, hpos]⟩)
    · exact .inr (.inr ⟨rfl, by omega, by simp [step.eq_def, hidle, isAcquiredInThisProcess, hpos]⟩)

/-- What a `Release` does: a busy client ignores it; an idle one that holds
the lock counts down, in `int32`, and then answers, starts deleting its node
when the count reached 0, or reports a negative count; and one that does not
hold it is refused. -/
theorem step_release_cases (pc : LockPc) (st : Store) :
    (pc.isIdle = false ∧ m.step policy pc .release st = (m, pc, st)) ∨
      (pc.isIdle = true ∧ 0 < m.lockCount ∧ 0 < wrapInt32 (m.lockCount - 1) ∧
        m.step policy pc .release st =
          ({ m with lockCount := wrapInt32 (m.lockCount - 1) }, .releaseReturned none, st)) ∨
      (pc.isIdle = true ∧ 0 < m.lockCount ∧ wrapInt32 (m.lockCount - 1) = 0 ∧
        m.step policy pc .release st = ({ m with lockCount := 0 }, .deleting m.lockPath, st)) ∨
      (pc.isIdle = true ∧ 0 < m.lockCount ∧ wrapInt32 (m.lockCount - 1) < 0 ∧
        m.step policy pc .release st = ({ m with lockCount := wrapInt32 (m.lockCount - 1) },
          .releaseReturned (some (.message
            ("Lock count has gone negative for lock: " ++ String.ofList m.basePath))), st)) ∨
      (pc.isIdle = true ∧ m.lockCount ≤ 0 ∧ m.step policy pc .release st =
        (m, .releaseReturned
          (some (.message ("You do not own the lock: " ++ String.ofList m.basePath))), st)) := by
  cases hidle : pc.isIdle with
  | false => exact .inl ⟨rfl, by simp [step.eq_def, hidle]⟩
  | true =>
    by_cases hacq : m.isAcquiredInThisProcess = true
    · have hpos : 0 < m.lockCount := by simpa [isAcquiredInThisProcess] using hacq
      have hstep : m.step policy pc .release st =
          let m' := { m with lockCount := wrapInt32 (m.lockCount - 1) }
          if 0 < wrapInt32 (m.lockCount - 1) then (m', .releaseReturned none, st)
          else if wrapInt32 (m.lockCount - 1) < 0 then
            (m', .releaseReturned (some (.message
              ("Lock count has gone negative for lock: " ++ String.ofList m.basePath))), st)
          else (m', .deleting m.lockPath, st) := by
        simp only [step.eq_def, hidle, hacq, Bool.not_true, Bool.false_eq_true, if_false]
      rcases Int.lt_trichotomy 0 (wrapInt32 (m.lockCount - 1)) with hmore | hzero | hneg
      · refine .inr (.inl ⟨rfl, hpos, hmore, ?_⟩)
        rw [hstep]
        exact if_pos hmore
      · refine .inr (.inr (.inl ⟨rfl, hpos, hzero.symm, ?_⟩))
        rw [hstep, if_neg (by omega), if_neg (by omega), ← hzero]
      · refine .inr (.inr (.inr (.inl ⟨rfl, hpos, hneg, ?_⟩)))
        rw [hstep, if_neg (by omega), if_pos hneg]
    · have hcount : m.lockCount ≤ 0 := by simpa [isAcquiredInThisProcess] using hacq
      exact .inr (.inr (.inr (.inr ⟨rfl, hcount, by simp [step.eq_def, hidle, hacq]⟩)))

/-- A listing whose `GetsTheLock` gives the lock ends the call with it, the
count set to 1 and the node recorded. -/
theorem step_listing_of_grant {call : LockCall} {ourPath : GoString}
    {fault : Option ZkError} {elapsed : Duration} {st : Store} {children : List GoString}
    {r : PredicateResults} (hc : m.internals.getSortedChildren fault st = .ok children)
    (hg : getsTheLock children (ourPath.drop (m.internals.basePath.length + 1))
      m.internals.maxLeases = .ok r) (hr : r.getsTheLock = true) :
    m.step policy (.listing call ourPath) (.advance fault elapsed) st =
      ({ m with lockPath := ourPath, lockCount := 1 }, m.answer call true none, st) := by
  simp [step.eq_def, LockPc.isIdle, hc, hg, hr, afterLockLoop]

/-- A listing whose `GetsTheLock` fails ends the call without the lock and
keeps the node. -/
theorem step_listing_of_getsTheLock_error {call : LockCall} {ourPath : GoString}
    {fault : Option ZkError} {elapsed : Duration} {st : Store} {children : List GoString}
    {e : ZkError} (hc : m.internals.getSortedChildren fault st = .ok children)
    (hg : getsTheLock children (ourPath.drop (m.internals.basePath.length + 1))
      m.internals.maxLeases = .error e) :
    m.step policy (.listing call ourPath) (.advance fault elapsed) st =
      (m, m.answer call false none, st) := by
  simp [step.eq_def, LockPc.isIdle, hc, hg, afterLockLoop]

/-! ### The wait of `internalLockLoop`

After a listing that does not give the lock, the loop watches the node
before ours and waits in a `select` for the watch or for a timer of
`waitTime - time.Now().Sub(startTime)`; either way the next pass lists again.
Nothing in the loop compares the clock with the deadline: once it has
passed, the timer fires at once and the loop goes on listing. -/

/-- The three requests of one pass of the loop. -/
def InLockLoop (call : LockCall) (ourPath watch : GoString) (pc : LockPc) : Prop :=
  pc = .listing call ourPath ∨ pc = .watching call ourPath watch ∨ pc = .waiting call ourPath

/-- The client's steps on `advance` events, each with the fault and the clock
reading it lists. -/
def runAdvances : List (Option ZkError × Duration) → InterProcessMutex → LockPc → Store →
    InterProcessMutex × LockPc × Store
  | [], m, pc, st => (m, pc, st)
  | (fault, elapsed) :: evs, m, pc, st =>
    let r := m.step policy pc (.advance fault elapsed) st
    runAdvances evs r.1 r.2.1 r.2.2

/-- A listing that does not give the lock watches the node it names. -/
theorem step_listing_of_watch {call : LockCall} {ourPath : GoString}
    {fault : Option ZkError} {elapsed : Duration} {st : Store} {children : List GoString}
    {r : PredicateResults} (hc : m.internals.getSortedChildren fault st = .ok children)
    (hg : getsTheLock children (ourPath.drop (m.internals.basePath.length + 1))
      m.internals.maxLeases = .ok r) (hr : r.getsTheLock = false) :
    m.step policy (.listing call ourPath) (.advance fault elapsed) st =
      (m, .watching call ourPath (joinPath m.internals.basePath [r.pathToWatch]), st) := by
  simp [step.eq_def, LockPc.isIdle, hc, hg, hr]

/-- Setting the watch and waiting change nothing but where the client is,
whatever the fault and the clock. -/
theorem step_watching {call : LockCall} {ourPath watch : GoString} {fault : Option ZkError}
    {elapsed : Duration} {st : Store} :
    m.step policy (.watching call ourPath watch) (.advance fault elapsed) st =
      (m, .waiting call ourPath, st) := by
  simp [step.eq_def, LockPc.isIdle]

theorem step_waiting {call : LockCall} {ourPath : GoString} {fault : Option ZkError}
    {elapsed : Duration} {st : Store} :
    m.step policy (.waiting call ourPath) (.advance fault elapsed) st =
      (m, .listing call ourPath, st) := by
  simp [step.eq_def, LockPc.isIdle]

section Loop

variable {call : LockCall} {ourPath : GoString} {st : Store} {children : List GoString}
  {r : PredicateResults} (hc : m.internals.getSortedChildren none st = .ok children)
  (hg : getsTheLock children (ourPath.drop (m.internals.basePath.length + 1))
    m.internals.maxLeases = .ok r) (hr : r.getsTheLock = false)
include hc hg hr

/-- On a store where a listing does not give the lock, a fault-free step of
the loop stays in the loop and changes neither the mutex nor the store. -/
theorem step_inLockLoop {pc : LockPc}
    (hpc : InLockLoop call ourPath (joinPath m.internals.basePath [r.pathToWatch]) pc)
    (elapsed : Duration) :
    ∃ pc', m.step policy pc (.advance none elapsed) st = (m, pc', st) ∧
      InLockLoop call ourPath (joinPath m.internals.basePath [r.pathToWatch]) pc' := by
  rcases hpc with rfl | rfl | rfl
  · exact ⟨_, m.step_listing_of_watch policy hc hg hr, .inr (.inl rfl)⟩
  · exact ⟨_, m.step_watching policy, .inr (.inr rfl)⟩
  · exact ⟨_, m.step_waiting policy, .inl rfl⟩

/-- The loop never ends while no request fails, whatever the clock: by
induction on the events, each step keeps it in the loop. -/
theorem runAdvances_inLockLoop :
    ∀ (evs : List (Option ZkError × Duration)), (∀ e ∈ evs, e.1 = none) → ∀ {pc : LockPc},
      InLockLoop call ourPath (joinPath m.internals.basePath [r.pathToWatch]) pc →
      ∃ pc', runAdvances policy evs m pc st = (m, pc', st) ∧
        InLockLoop call ourPath (joinPath m.internals.basePath [r.pathToWatch]) pc'
  | [], _, pc, hpc => ⟨pc, rfl, hpc⟩
  | (fault, elapsed) :: evs, hnone, pc, hpc => by
    have hfault : fault = none := hnone _ List.mem_cons_self
    subst hfault
    obtain ⟨pc', hstep, hpc'⟩ := m.step_inLockLoop policy hc hg hr hpc elapsed
    simp only [runAdvances, hstep]
    exact runAdvances_inLockLoop evs (fun e he => hnone e (List.mem_cons_of_mem _ he)) hpc'

end Loop

end InterProcessMutex

/-- The mutex on `/lock` while another client holds it with
`/lock/lock-0000000000`: `AcquireTimeout` creates `/lock/lock-0000000001`
and, for every retry policy, every sequence of clock readings (so also one
past any deadline) and as long as no request fails, never returns. -/
theorem acquireTimeout_never_times_out :
    newInterProcessMutex "/lock".toList = .ok ⟨"/lock".toList,
      ⟨"/lock".toList, lockPrefix, joinPath "/lock".toList [lockPrefix], 1⟩, [], 0, none⟩ ∧
    ∀ (policy : RetryPolicy) (elapsed : List Duration),
      let m : InterProcessMutex := ⟨"/lock".toList,
        ⟨"/lock".toList, lockPrefix, joinPath "/lock".toList [lockPrefix], 1⟩, [], 0, none⟩
      let st : Store := ⟨[(pathSeparator, ⟨[], 0⟩), ("/lock".toList, ⟨[], 0⟩),
        ("/lock/lock-0000000000".toList, ⟨[], 0⟩)], [("/lock".toList, 1)]⟩
      let r₁ := m.step policy .idle (.acquire .acquireTimeout) st
      (InterProcessMutex.runAdvances policy (elapsed.map (none, ·)) r₁.1 r₁.2.1 r₁.2.2).2.1.isIdle =
        false := by
  refine ⟨by decide, fun policy elapsed => ?_⟩
  intro m st r₁
  let ourPath := "/lock/lock-0000000001".toList
  let st₁ : Store := ⟨st.nodes ++ [(ourPath, ⟨[], 0⟩)], [("/lock".toList, 2), ("/lock".toList, 1)]⟩
  have hr₁ : r₁ = (m, .creating .acquireTimeout 0, st) := by
    simp [r₁, InterProcessMutex.step.eq_def, LockPc.isIdle,
      InterProcessMutex.isAcquiredInThisProcess, m]
  have hcreate : ∀ e : Duration, m.step policy (.creating .acquireTimeout 0) (.advance none e) st =
      (m, .listing .acquireTimeout ourPath, st₁) := fun e => by
    simp only [InterProcessMutex.step.eq_def, LockPc.isIdle]
    rw [show (st.withFault none fun st => st.create m.internals.lockPath
      (m.lockNodeBytes.getD []) .ephemeralSequential) = (.ok ourPath, st₁) by decide]
  have hsorted : m.internals.getSortedChildren none st₁ =
      .ok ["lock-0000000000".toList, "lock-0000000001".toList] := by
    rw [LockInternals.getSortedChildren_of_children (show (st₁.children m.internals.basePath).1 =
      .ok ["lock-0000000000".toList, "lock-0000000001".toList] by decide),
      LockInternals.sortChildren, List.mergeSort_of_pairwise]
    decide
  have hgets : getsTheLock ["lock-0000000000".toList, "lock-0000000001".toList]
      (ourPath.drop (m.internals.basePath.length + 1)) m.internals.maxLeases =
      .ok ⟨false, "lock-0000000000".toList⟩ := by decide
  rw [hr₁]
  cases elapsed with
  | nil => rfl
  | cons e rest =>
    simp only [List.map_cons, InterProcessMutex.runAdvances, hcreate]
    obtain ⟨pc, hrun, hpc⟩ := m.runAdvances_inLockLoop policy hsorted hgets rfl
      (rest.map (none, ·)) (by simp) (.inl rfl)
    rw [hrun]
    rcases hpc with rfl | rfl | rfl <;> rfl

/-! ### The lock nodes -/

/-- The node the server names after the `s`-th value of the base path's
counter. -/
def LockInternals.lockNodePath (l : LockInternals) (s : ℕ) : GoString :=
  l.lockPath ++ sequenceSuffix s

section Nodes

variable {basePath : GoString} {s t : ℕ}

theorem isDigit_of_mem_sequenceSuffix (hs : s < 10 ^ 10) {c : Char}
    (hc : c ∈ sequenceSuffix s) : c.isDigit = true :=
  Decimal.isDigit_of_mem_zeroPad (by decide) hs hc

theorem sequenceSuffix_lt_sequenceSuffix_iff (hs : s < 10 ^ 10) (ht : t < 10 ^ 10) :
    sequenceSuffix s < sequenceSuffix t ↔ s < t :=
  Decimal.zeroPad_lt_zeroPad_iff (by decide) hs ht

theorem sequenceSuffix_injective (hs : s < 10 ^ 10) (ht : t < 10 ^ 10)
    (h : sequenceSuffix s = sequenceSuffix t) : s = t :=
  Decimal.zeroPad_injective (by decide) hs ht h

theorem not_mem_sequenceSuffix {c : Char} (hc : c.isDigit = false) (hs : s < 10 ^ 10) :
    c ∉ sequenceSuffix s := by
  intro h
  rw [isDigit_of_mem_sequenceSuffix hs h] at hc
  contradiction

theorem sep_not_mem_lockName (hs : s < 10 ^ 10) : '/' ∉ lockPrefix ++ sequenceSuffix s := by
  rw [List.mem_append, not_or]
  exact ⟨by decide, not_mem_sequenceSuffix (by decide) hs⟩

/-- The lock path of a valid base path: the separator and `lock-` after the
base path, or after nothing for the root. -/
theorem lockPath_eq (hB : validatePath basePath = none) :
    joinPath basePath [lockPrefix] =
      (if basePath = pathSeparator then [] else basePath) ++ '/' :: lockPrefix := by
  rcases validatePath_shape hB with rfl | ⟨r, rfl, hr, hlast⟩
  · decide
  · have hne : ('/' :: r) ≠ pathSeparator := by simp [pathSeparator, hr]
    rw [if_neg hne, joinPath, List.foldl_cons, List.foldl_nil, joinParent_of_child hr hlast,
      joinChild_of_bare _ (by decide) (by decide) (by decide)]

/-- Everything the server files under the lock path, and the lock path
itself, has the base path as parent. -/
theorem parentOf_lockPath_append (hB : validatePath basePath = none) {name : GoString}
    (hname : '/' ∉ name) : parentOf (joinPath basePath [lockPrefix] ++ name) = basePath := by
  have hsep : '/' ∉ lockPrefix ++ name := by
    rw [List.mem_append, not_or]
    exact ⟨by decide, hname⟩
  rw [lockPath_eq hB, List.append_assoc, List.cons_append, parentOf_append hsep]
  by_cases hroot : basePath = pathSeparator
  · simp [hroot]
  · have hnil : basePath ≠ [] := by
      rintro rfl
      simp [validatePath] at hB
    simp [hroot, hnil]

theorem getNodeFromPath_lockNode (hB : validatePath basePath = none) (hs : s < 10 ^ 10) :
    getNodeFromPath (joinPath basePath [lockPrefix] ++ sequenceSuffix s) =
      lockPrefix ++ sequenceSuffix s := by
  rw [lockPath_eq hB, List.append_assoc, List.cons_append]
  exact getNodeFromPath_append (sep_not_mem_lockName hs)

theorem lockPath_append_ne (hB : validatePath basePath = none) (name : GoString) :
    joinPath basePath [lockPrefix] ++ name ≠ basePath := by
  intro h
  have hlen := congrArg List.length h
  rw [lockPath_eq hB] at hlen
  by_cases hroot : basePath = pathSeparator
  · simp [hroot, pathSeparator, lockPrefix] at hlen
  · simp [hroot] at hlen

/-- `sequenceNodeName`, `path[len(basePath)+1:]`, of a lock node: its name
under the base path, except under the root, where one more character is
cut. -/
theorem sequenceNodeName_lockNode (hB : validatePath basePath = none) (name : GoString) :
    (joinPath basePath [lockPrefix] ++ name).drop (basePath.length + 1) =
      if basePath = pathSeparator then "ock-".toList ++ name else lockPrefix ++ name := by
  rw [lockPath_eq hB]
  by_cases hroot : basePath = pathSeparator
  · subst hroot
    rfl
  · simp [hroot]

theorem fixForSorting_lockName (hs : s < 10 ^ 10) :
    fixForSorting (lockPrefix ++ sequenceSuffix s) lockPrefix = sequenceSuffix s := by
  have hnot : 'l' ∉ "ock-".toList ++ sequenceSuffix s := by
    rw [List.mem_append, not_or]
    exact ⟨by decide, not_mem_sequenceSuffix (by decide) hs⟩
  have hlast : lastIndexOf lockPrefix (lockPrefix ++ sequenceSuffix s) = some 0 :=
    lastIndexOf_self_append hnot
  rw [fixForSorting, hlast]
  simp [lockPrefix]

/-- Under the root, `sequenceNodeName` holds no `lock-`. -/
theorem fixForSorting_rootName (hs : s < 10 ^ 10) :
    fixForSorting ("ock-".toList ++ sequenceSuffix s) lockPrefix =
      "ock-".toList ++ sequenceSuffix s := by
  have hnot : 'l' ∉ "ock-".toList ++ sequenceSuffix s := by
    rw [List.mem_append, not_or]
    exact ⟨by decide, not_mem_sequenceSuffix (by decide) hs⟩
  have hnone : lastIndexOf lockPrefix ("ock-".toList ++ sequenceSuffix s) = none :=
    lastIndexOf_of_head_not_mem hnot
  rw [fixForSorting, hnone]

/-- A numeral sorts before every text that starts with a letter `o`. -/
theorem sequenceSuffix_lt_rootName (hs : s < 10 ^ 10) (rest : GoString) :
    sequenceSuffix s < "ock-".toList ++ rest := by
  have hlen : (sequenceSuffix s).length = 10 := Decimal.length_zeroPad (by decide) hs
  have hne : sequenceSuffix s ≠ [] := List.ne_nil_of_length_pos (by rw [hlen]; decide)
  obtain ⟨c, cs, hcs⟩ := List.exists_cons_of_ne_nil hne
  have hdigit : c.isDigit = true := isDigit_of_mem_sequenceSuffix hs (hcs ▸ List.mem_cons_self)
  have hlt : c < 'o' := by
    simp only [Char.isDigit, Bool.and_eq_true, decide_eq_true_eq] at hdigit
    obtain ⟨-, h9⟩ := hdigit
    have h9' : c.val ≤ ('9' : Char).val := h9
    have ho : ('9' : Char).val < ('o' : Char).val := by decide
    exact Char.lt_def.mpr (UInt32.lt_of_le_of_lt h9' ho)
  rw [hcs]
  exact List.cons_lt_cons_iff.mpr (.inl hlt)

end Nodes

/-! ### The order of the children -/

section Sorting

variable {l : LockInternals}

theorem sortKey_trans (key : GoString → GoString) (a b c : GoString)
    (hab : (!decide (key b < key a)) = true) (hbc : (!decide (key c < key b)) = true) :
    (!decide (key c < key a)) = true := by
  simp only [Bool.not_eq_true', decide_eq_false_iff_not, List.not_lt] at hab hbc ⊢
  exact List.le_trans hab hbc

theorem sortKey_total (key : GoString → GoString) (a b : GoString) :
    ((!decide (key b < key a)) || (!decide (key a < key b))) = true := by
  by_contra h
  simp only [Bool.or_eq_true, Bool.not_eq_true', decide_eq_false_iff_not, not_or,
    not_not] at h
  exact List.lt_asymm h.1 h.2

/-- When the first child of the sorted listing is `name`, no child sorts
strictly before `name`. -/
theorem getsTheLock_sortChildren {cs : List GoString} {name : GoString} {r : PredicateResults}
    (h : getsTheLock (l.sortChildren cs) name 1 = .ok r) (hr : r.getsTheLock = true) :
    ∀ x ∈ cs, x = name ∨ ¬ fixForSorting x l.lockName < fixForSorting name l.lockName := by
  intro x hx
  have hmem : x ∈ l.sortChildren cs := (List.mergeSort_perm cs _).mem_iff.mpr hx
  have hsorted := List.pairwise_mergeSort
    (sortKey_trans fun c => fixForSorting c l.lockName)
    (sortKey_total fun c => fixForSorting c l.lockName) cs
  unfold LockInternals.sortChildren at h hmem
  revert h hmem hsorted
  cases cs.mergeSort (fun lhs rhs =>
      !decide (fixForSorting rhs l.lockName < fixForSorting lhs l.lockName)) with
  | nil =>
    intro _ hmem
    cases hmem
  | cons first rest =>
    intro h hmem hsorted
    have hfirst : first = name := by
      by_contra hne
      have hp : (first == name) = false := by simpa using hne
      simp only [getsTheLock, List.findIdx?_cons, hp, Bool.false_eq_true, if_false] at h
      cases hidx : rest.findIdx? (· == name) with
      | none => simp [hidx] at h
      | some i =>
        simp only [hidx, Option.map_some] at h
        obtain rfl := Except.ok.inj h
        simp at hr
    subst hfirst
    rcases List.mem_cons.mp hmem with rfl | hrest
    · exact .inl rfl
    · exact .inr (by simpa using (List.pairwise_cons.mp hsorted).1 x hrest)

end Sorting

/-! ### A lock on the root

`sequenceNodeName` cuts `len(basePath) + 1` characters off the created path.
Under a base path other than the root that is the base path and its
separator (`sequenceNodeName_lockNode`); the root's lock path is `/lock-`,
with no second separator, so the cut also takes the `l` of `lock-`. -/

/-- A mutex on `/` acquires on a store holding only the root: it creates
`/lock-0000000000`, whose name `GetChildren("/")` lists as `lock-0000000000`,
but looks itself up as `ock-0000000000`; `GetsTheLock` answers `ErrNoNode`
and `Acquire` fails. -/
theorem lock_sequenceNodeName_root_mismatch :
    let m : InterProcessMutex := ⟨pathSeparator,
      ⟨pathSeparator, lockPrefix, joinPath pathSeparator [lockPrefix], 1⟩, [], 0, none⟩
    let policy := newRetryOneTime 0
    let r₁ := m.step policy .idle (.acquire .acquire) Store.empty
    let r₂ := r₁.1.step policy r₁.2.1 (.advance none 0) r₁.2.2
    let r₃ := r₂.1.step policy r₂.2.1 (.advance none 0) r₂.2.2
    newInterProcessMutex pathSeparator = .ok m ∧
      r₂.2.1 = .listing .acquire "/lock-0000000000".toList ∧
      (r₂.2.2.children pathSeparator).1 = .ok ["lock-0000000000".toList] ∧
      "/lock-0000000000".toList.drop (pathSeparator.length + 1) = "ock-0000000000".toList ∧
      getsTheLock ["lock-0000000000".toList] "ock-0000000000".toList 1 = .error .errNoNode ∧
      r₃.2.1 = .acquireReturned false
        (some (.message "Lost connection while trying to acquire lock: /")) := by
  intro m policy r₁ r₂ r₃
  let st₂ : Store := ⟨[(pathSeparator, ⟨[], 0⟩), ("/lock-0000000000".toList, ⟨[], 0⟩)],
    [(pathSeparator, 1)]⟩
  have hr₂ : r₂ = (m, .listing .acquire "/lock-0000000000".toList, st₂) := by decide
  have hsorted : m.internals.getSortedChildren none st₂ = .ok ["lock-0000000000".toList] := by
    rw [LockInternals.getSortedChildren_of_children (show (st₂.children m.internals.basePath).1 =
      .ok ["lock-0000000000".toList] by decide), LockInternals.sortChildren, List.mergeSort_singleton]
  have hgets : getsTheLock ["lock-0000000000".toList] "ock-0000000000".toList 1 =
      .error .errNoNode := by decide
  have hr₃ : r₃ = (m, m.answer .acquire false none, st₂) := by
    show r₂.1.step policy r₂.2.1 (.advance none 0) r₂.2.2 = _
    rw [hr₂]
    exact m.step_listing_of_getsTheLock_error policy hsorted hgets
  refine ⟨rfl, by rw [hr₂], by rw [hr₂]; decide, by decide, hgets, ?_⟩
  rw [hr₃]
  rfl

end Curator
