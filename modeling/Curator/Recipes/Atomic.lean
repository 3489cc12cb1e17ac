import Curator.Retry
import Curator.Server

/-!
# `DistributedAtomicValue`

`recipes/atomic.go` keeps a value in one node.  Reads go through
`currentValue`, which answers the data with its stat, or asks for the node to
be created when it is missing.  `CompareAndSet` writes at the version it read.
`TrySet` repeats `tryOnce` (read, then create or versioned set) while the
policy allows, first optimistically and then, when a `PromotedToLock` is
configured, again under a mutex.  `ForceSet` sets at any version and falls
back to creating the node.  `Initialize` creates the node with
`Create().ForPath`.

Each framework builder the recipe calls sends one request to the store: no
fault is injected here, so the builder's retry loop runs its closure once.
The mutex of `PromotedToLock` locks another path; only its answer
(`acquired`) enters, and its release touches no node of the value.  The
debugging stats are not modelled; the attempt counts the policies read are.
-/

namespace Curator

/-- The error of a builder's answer, nil for a value. -/
def errorOf {α : Type} : Except ZkError α → Option ZkError
  | .error e => some e
  | .ok _ => none

/-- A request whose answer is read only for its error. -/
def requestError {α : Type} (r : Except ZkError α × Store) : Option ZkError × Store :=
  (errorOf r.1, r.2)

/-- The part of `PromotedToLock` the recipe reads itself. -/
structure PromotedToLock where
  retryPolicy : RetryPolicy

/-- A `distributedAtomicValue`, with the framework's `defaultData`. -/
structure DistributedAtomicValue where
  path : GoString
  defaultData : Bytes
  retryPolicy : RetryPolicy
  promotedToLock : Option PromotedToLock

/-- A `mutableAtomicValue`. -/
structure MutableAtomicValue where
  preValue : Bytes
  postValue : Bytes
  succeeded : Bool
  deriving DecidableEq, Repr

/-- `var result mutableAtomicValue`. -/
def MutableAtomicValue.empty : MutableAtomicValue := ⟨[], [], false⟩

/-- What one `TrySet` learns from its environment: the clock readings of the
optimistic and of the promoted loop after each attempt, and the answer of
`mutex.AcquireTimeout`. -/
structure AtomicEnv where
  elapsed : ℕ → Duration
  promotedElapsed : ℕ → Duration
  acquired : Except ZkError Bool

namespace DistributedAtomicValue

variable (v : DistributedAtomicValue)

/-- `currentValue(result, stat)`: whether the node has to be created, the
value read (nil for a missing node) and the stat stored. -/
def currentValue (st : Store) : Except ZkError (Bool × Bytes × Stat) :=
  match (st.get v.path).1 with
  | .ok (data, stat) => .ok (false, data, stat)
  | .error .errNoNode => .ok (true, [], ⟨0⟩)
  | .error e => .error e

/-- The write of `tryOnce`: create the node, or set it at the version read;
`true` when it took effect, `false` when a concurrent change was detected. -/
def tryOnceWrite (newValue : Bytes) (createIt : Bool) (stat : Stat) (st : Store) :
    Except ZkError Bool × Store :=
  let r := if createIt then requestError (st.create v.path newValue .persistent)
    else requestError (st.set v.path newValue stat.version)
  match r.1 with
  | none => (.ok true, r.2)
  | some e =>
    if e = .errNodeExists ∨ e = .errBadVersion ∨ e = .errNoNode then (.ok false, r.2)
    else (.error e, r.2)

/-- `tryOnce(result, newValue)`. -/
def tryOnce (newValue : Bytes) (result : MutableAtomicValue) (st : Store) :
    Except ZkError Bool × MutableAtomicValue × Store :=
  match v.currentValue st with
  | .error e => (.error e, result, st)
  | .ok (createIt, pre, stat) =>
    let result := { result with preValue := pre }
    let w := v.tryOnceWrite newValue createIt stat st
    match w.1 with
    | .ok true => (.ok true, { result with postValue := newValue }, w.2)
    | r => (r, result, w.2)

/-- The loop of `tryOptimistic` and of `tryWithMutex` under `policy`, after
`tries` attempts, for at most `fuel` more; `elapsed n` is the clock reading
after the `n`-th attempt. -/
def tryLoop (policy : RetryPolicy) (elapsed : ℕ → Duration) (newValue : Bytes) :
    ℕ → ℕ → MutableAtomicValue → Store → Option (Option ZkError × MutableAtomicValue × Store)
  | 0, _, _, _ => none
  | fuel + 1, tries, result, st =>
    let tries := tries + 1
    match v.tryOnce newValue result st with
    | (.error e, result, st) => some (some e, result, st)
    | (.ok true, result, st) => some (none, { result with succeeded := true }, st)
    | (.ok false, result, st) =>
      if !(policy.allowRetry tries (elapsed tries) defaultRetrySleeper).1 then
        some (none, result, st)
      else tryLoop policy elapsed newValue fuel tries result st

/-- `tryOptimistic(result, newValue)`. -/
def tryOptimistic (elapsed : ℕ → Duration) (newValue : Bytes) (fuel : ℕ)
    (result : MutableAtomicValue) (st : Store) :
    Option (Option ZkError × MutableAtomicValue × Store) :=
  v.tryLoop v.retryPolicy elapsed newValue fuel 0 result st

/-- `tryWithMutex(result, newValue)`, given the mutex's answer. -/
def tryWithMutex (p : PromotedToLock) (acquired : Except ZkError Bool)
    (elapsed : ℕ → Duration) (newValue : Bytes) (fuel : ℕ) (result : MutableAtomicValue)
    (st : Store) : Option (Option ZkError × MutableAtomicValue × Store) :=
  match acquired with
  | .error e => some (some e, result, st)
  | .ok false => some (none, result, st)
  | .ok true => v.tryLoop p.retryPolicy elapsed newValue fuel 0 result st

/-- `TrySet(newValue)`; `none` when a loop has not ended within `fuel`
attempts. -/
def trySet (env : AtomicEnv) (fuel : ℕ) (newValue : Bytes) (st : Store) :
    Option (Except ZkError MutableAtomicValue × Store) :=
  match v.tryOptimistic env.elapsed newValue fuel .empty st with
  | none => none
  | some (some e, _, st) => some (.error e, st)
  | some (none, result, st) =>
    match result.succeeded, v.promotedToLock with
    | false, some p =>
      match v.tryWithMutex p env.acquired env.promotedElapsed newValue fuel result st with
      | none => none
      | some (some e, _, st) => some (.error e, st)
      | some (none, result, st) => some (.ok result, st)
    | _, _ => some (.ok result, st)

/-- The write of `CompareAndSet`, at the version read. -/
def compareAndSetWrite (newValue : Bytes) (pre : Bytes) (stat : Stat) (st : Store) :
    Except ZkError MutableAtomicValue × Store :=
  let result := { MutableAtomicValue.empty with preValue := pre }
  let w := requestError (st.set v.path newValue stat.version)
  match w.1 with
  | none => (.ok { result with succeeded := true, postValue := newValue }, w.2)
  | some e =>
    if e = .errBadVersion ∨ e = .errNoNode then (.ok { result with succeeded := false }, w.2)
    else (.error e, w.2)

/-- `CompareAndSet(expectedValue, newValue)`. -/
def compareAndSet (expectedValue newValue : Bytes) (st : Store) :
    Except ZkError MutableAtomicValue × Store :=
  match v.currentValue st with
  | .error e => (.error e, st)
  | .ok (createIt, pre, stat) =>
    if !createIt && expectedValue == pre then v.compareAndSetWrite newValue pre stat st
    else (.ok { MutableAtomicValue.empty with preValue := pre, succeeded := false }, st)

/-- `Get()`. -/
def get (st : Store) : Except ZkError MutableAtomicValue :=
  match v.currentValue st with
  | .error e => .error e
  | .ok (_, pre, _) => .ok ⟨pre, pre, true⟩

/-- `ForceSet(newValue)`: set at any version; on `ErrNoNode` create, and on
`ErrNodeExists` set once more. -/
def forceSet (newValue : Bytes) (st : Store) : Option ZkError × Store :=
  let r := requestError (st.set v.path newValue (-1))
  match r.1 with
  | some .errNoNode =>
    let c := requestError (r.2.create v.path newValue .persistent)
    match c.1 with
    | some .errNodeExists => requestError (c.2.set v.path newValue (-1))
    | _ => c
  | _ => r

/-- `Initialize(value)`: `Create().ForPath(v.path)` sends the framework's
`defaultData`, and `value` is not read (`initialize` is a keyword of Lean). -/
def initializeValue (_value : Bytes) (st : Store) : Except ZkError Bool × Store :=
  let c := requestError (st.create v.path v.defaultData .persistent)
  match c.1 with
  | none => (.ok true, c.2)
  | some .errNodeExists => (.ok false, c.2)
  | some e => (.error e, c.2)

end DistributedAtomicValue

/-- A call of the recipe's API. -/
inductive AtomicCall where
  | get
  | forceSet (newValue : Bytes)
  | compareAndSet (expectedValue newValue : Bytes)
  | trySet (newValue : Bytes)
  | initializeValue (value : Bytes)
  deriving DecidableEq, Repr

/-- What a caller reads from a call: `Get()`'s `PostValue()`, whether the
other calls succeeded, or their error. -/
inductive AtomicAnswer where
  | postValue (value : Bytes)
  | succeeded (b : Bool)
  | done
  | failed (e : ZkError)
  deriving DecidableEq, Repr

/-- The answer of `CompareAndSet` and `TrySet`: `Succeeded()`, or the error. -/
def AtomicAnswer.ofResult : Except ZkError MutableAtomicValue → AtomicAnswer
  | .ok r => .succeeded r.succeeded
  | .error e => .failed e

namespace DistributedAtomicValue

variable (v : DistributedAtomicValue)

/-- One call against the store; `TrySet` with the environment `env` and at
most `fuel` attempts per loop. -/
def call (env : AtomicEnv) (fuel : ℕ) (st : Store) : AtomicCall → Option (AtomicAnswer × Store)
  | .get =>
    some ((match v.get st with
      | .ok r => .postValue r.postValue
      | .error e => .failed e), st)
  | .forceSet x =>
    let r := v.forceSet x st
    some ((match r.1 with
      | none => .done
      | some e => .failed e), r.2)
  | .compareAndSet e x =>
    let r := v.compareAndSet e x st
    some (.ofResult r.1, r.2)
  | .trySet x => (v.trySet env fuel x st).map fun r => (.ofResult r.1, r.2)
  | .initializeValue x =>
    let r := v.initializeValue x st
    some ((match r.1 with
      | .ok b => .succeeded b
      | .error e => .failed e), r.2)

/-- Calls made one at a time. -/
def runCalls (env : AtomicEnv) (fuel : ℕ) : Store → List AtomicCall →
    Option (List AtomicAnswer × Store)
  | st, [] => some ([], st)
  | st, c :: cs =>
    match v.call env fuel st c with
    | none => none
    | some (a, st) => (runCalls env fuel st cs).map fun r => (a :: r.1, r.2)

/-! ### Each call on its own -/

section Spec

variable {v} {st : Store}

theorem currentValue_of_present {n : ZNode} (h : st.lookup v.path = some n) :
    v.currentValue st = .ok (false, n.data, n.stat) := by
  simp [currentValue, Store.get, h]

theorem currentValue_of_absent (h : st.lookup v.path = none) :
    v.currentValue st = .ok (true, [], ⟨0⟩) := by
  simp [currentValue, Store.get, h]

theorem get_of_present {n : ZNode} (h : st.lookup v.path = some n) :
    v.get st = .ok ⟨n.data, n.data, true⟩ := by
  simp [get, currentValue_of_present h]

theorem get_of_absent (h : st.lookup v.path = none) : v.get st = .ok ⟨[], [], true⟩ := by
  simp [get, currentValue_of_absent h]

/-- Alone on the store, `tryOnce` on a present node writes at the version it
read. -/
theorem tryOnce_of_present {n : ZNode} (h : st.lookup v.path = some n) (x : Bytes)
    (result : MutableAtomicValue) :
    v.tryOnce x result st =
      (.ok true, { result with preValue := n.data, postValue := x },
        (st.set v.path x n.stat.version).2) := by
  have hset := (Store.set_of_matches x h (Store.versionMatches_stat n)).1
  simp [tryOnce, currentValue_of_present h, tryOnceWrite, requestError, errorOf, hset]

/-- Alone on the store, `tryOnce` on a missing node under a present parent
creates it. -/
theorem tryOnce_of_absent (hparent : (st.lookup (parentOf v.path)).isSome)
    (h : st.lookup v.path = none) (x : Bytes) (result : MutableAtomicValue) :
    v.tryOnce x result st =
      (.ok true, { result with preValue := [], postValue := x },
        (st.create v.path x .persistent).2) := by
  have hcreate := (Store.create_of_absent x hparent h).1
  simp [tryOnce, currentValue_of_absent h, tryOnceWrite, requestError, errorOf, hcreate]

/-- A first attempt that takes effect ends `TrySet` with success. -/
theorem trySet_of_first {x : Bytes} {r : MutableAtomicValue} {st' : Store}
    (h : v.tryOnce x .empty st = (.ok true, r, st')) (env : AtomicEnv) (fuel : ℕ) :
    v.trySet env (fuel + 1) x st = some (.ok { r with succeeded := true }, st') := by
  simp [trySet, tryOptimistic, tryLoop, h]

theorem compareAndSet_of_present {n : ZNode} (h : st.lookup v.path = some n)
    (e x : Bytes) :
    v.compareAndSet e x st =
      if e = n.data then (.ok ⟨n.data, x, true⟩, (st.set v.path x n.stat.version).2)
      else (.ok ⟨n.data, [], false⟩, st) := by
  have hset := (Store.set_of_matches x h (Store.versionMatches_stat n)).1
  by_cases he : e = n.data
  · simp [compareAndSet, currentValue_of_present h, he, compareAndSetWrite, requestError,
      errorOf, hset]
  · simp [compareAndSet, currentValue_of_present h, he, MutableAtomicValue.empty]

theorem compareAndSet_of_absent (h : st.lookup v.path = none) (e x : Bytes) :
    v.compareAndSet e x st = (.ok ⟨[], [], false⟩, st) := by
  simp [compareAndSet, currentValue_of_absent h, MutableAtomicValue.empty]

theorem forceSet_of_present {n : ZNode} (h : st.lookup v.path = some n) (x : Bytes) :
    v.forceSet x st = (none, (st.set v.path x (-1)).2) := by
  have hset := (Store.set_of_matches x h (Store.versionMatches_any n)).1
  simp [forceSet, requestError, errorOf, hset]

theorem forceSet_of_absent (hparent : (st.lookup (parentOf v.path)).isSome)
    (h : st.lookup v.path = none) (x : Bytes) :
    v.forceSet x st = (none, (st.create v.path x .persistent).2) := by
  have hcreate := (Store.create_of_absent x hparent h).1
  simp [forceSet, requestError, errorOf, Store.set_of_absent x (-1) h, hcreate]

/-- `Initialize` on a missing node creates it with the framework's
`defaultData`, whatever value it was given. -/
theorem initializeValue_of_absent (hparent : (st.lookup (parentOf v.path)).isSome)
    (h : st.lookup v.path = none) (value : Bytes) :
    v.initializeValue value st = (.ok true, (st.create v.path v.defaultData .persistent).2) := by
  have hcreate := (Store.create_of_absent v.defaultData hparent h).1
  simp [initializeValue, requestError, errorOf, hcreate]

theorem initializeValue_of_present (hparent : (st.lookup (parentOf v.path)).isSome)
    (h : (st.lookup v.path).isSome) (value : Bytes) :
    v.initializeValue value st = (.ok false, st) := by
  simp [initializeValue, requestError, errorOf, Store.create_of_present v.defaultData hparent h]

end Spec

end DistributedAtomicValue

end Curator
