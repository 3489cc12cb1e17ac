import Curator.Recipes.AtomicRegister
import Curator.Support.Reachable

/-!
# Concurrent clients of one atomic value

Any number of clients run `CompareAndSet`, `TrySet` and `ForceSet` on the same
value.  Each operation is cut at its requests: a step of a client sends its
next request, and a run interleaves the steps of all clients in any order,
each step answered by the store at that moment.  The steps use the requests
of `Atomic.lean` unchanged (`currentValue`, `compareAndSetWrite`,
`tryOnceWrite`, and the sets and creates of `ForceSet`); the environment of a
step is the clock reading `AllowRetry` is given and the mutex's answer.

A ghost log records every step that changed the store, in server order, with
the client that made it and the data it left at the node: it is read off the
store, not off the answers.  Every reachable world satisfies `Invariant`, and so
`LinearHistory`: a client that answered `Succeeded()` made exactly one write,
of its new value, and its `PreValue()` is what the write before it left; a
client whose answer does not report a write made none; every write is one
that its client reports; and the node holds what the last write left.
-/

namespace Curator

/-- The operations whose interleavings are considered. -/
inductive AtomicOp where
  | compareAndSet (expectedValue newValue : Bytes)
  | trySet (newValue : Bytes)
  | forceSet (newValue : Bytes)

/-- The value an operation writes. -/
def AtomicOp.newValue : AtomicOp → Bytes
  | .compareAndSet _ x | .trySet x | .forceSet x => x

/-- Which loop of `TrySet` an attempt belongs to. -/
inductive TryPhase where
  | optimistic
  | promoted (p : PromotedToLock)

/-- Where an operation is: the request it sends next, or its answer. -/
inductive OpPc where
  | casRead
  | casWrite (pre : Bytes) (stat : Stat)
  | tryRead (phase : TryPhase) (tries : ℕ)
  | tryWrite (phase : TryPhase) (tries : ℕ) (createIt : Bool) (pre : Bytes) (stat : Stat)
  | tryDecide (phase : TryPhase) (tries : ℕ) (pre : Bytes)
  | acquire (p : PromotedToLock) (pre : Bytes)
  | forceSetData
  | forceCreate
  | forceSetAgain
  | done (answer : Except ZkError MutableAtomicValue)
  | forced (err : Option ZkError)

/-- The first request of an operation. -/
def AtomicOp.startPc : AtomicOp → OpPc
  | .compareAndSet _ _ => .casRead
  | .trySet _ => .tryRead .optimistic 0
  | .forceSet _ => .forceSetData

namespace DistributedAtomicValue

variable (v : DistributedAtomicValue)

/-- The retry policy of a loop of `TrySet`. -/
def phasePolicy : TryPhase → RetryPolicy
  | .optimistic => v.retryPolicy
  | .promoted p => p.retryPolicy

/-- One step of an operation: its next request against `st`, with the clock
reading `elapsed` and the mutex's answer `acquired`. -/
def opStep (op : AtomicOp) (elapsed : Duration) (acquired : Except ZkError Bool) (pc : OpPc)
    (st : Store) : OpPc × Store :=
  match op, pc with
  | .compareAndSet e _, .casRead =>
    match v.currentValue st with
    | .error err => (.done (.error err), st)
    | .ok (createIt, pre, stat) =>
      if !createIt && e == pre then (.casWrite pre stat, st)
      else (.done (.ok { MutableAtomicValue.empty with preValue := pre, succeeded := false }), st)
  | .compareAndSet _ x, .casWrite pre stat =>
    let r := v.compareAndSetWrite x pre stat st
    (.done r.1, r.2)
  | .trySet _, .tryRead phase tries =>
    match v.currentValue st with
    | .error err => (.done (.error err), st)
    | .ok (createIt, pre, stat) => (.tryWrite phase tries createIt pre stat, st)
  -- `tryOnce`'s write; the attempt count is raised before `AllowRetry` reads it
  | .trySet x, .tryWrite phase tries createIt pre stat =>
    let w := v.tryOnceWrite x createIt stat st
    match w.1 with
    | .error err => (.done (.error err), w.2)
    | .ok true => (.done (.ok ⟨pre, x, true⟩), w.2)
    | .ok false => (.tryDecide phase (tries + 1) pre, w.2)
  -- the end of a failed attempt: retry, promote to the mutex, or give up
  | .trySet _, .tryDecide phase tries pre =>
    if ((v.phasePolicy phase).allowRetry tries elapsed defaultRetrySleeper).1 then
      (.tryRead phase tries, st)
    else
      match phase, v.promotedToLock with
      | .optimistic, some p => (.acquire p pre, st)
      | _, _ => (.done (.ok ⟨pre, [], false⟩), st)
  | .trySet _, .acquire p pre =>
    match acquired with
    | .error err => (.done (.error err), st)
    | .ok false => (.done (.ok ⟨pre, [], false⟩), st)
    | .ok true => (.tryRead (.promoted p) 0, st)
  | .forceSet x, .forceSetData =>
    let r := requestError (st.set v.path x (-1))
    match r.1 with
    | some .errNoNode => (.forceCreate, r.2)
    | err => (.forced err, r.2)
  | .forceSet x, .forceCreate =>
    let c := requestError (st.create v.path x .persistent)
    match c.1 with
    | some .errNodeExists => (.forceSetAgain, c.2)
    | err => (.forced err, c.2)
  | .forceSet x, .forceSetAgain =>
    let r := requestError (st.set v.path x (-1))
    (.forced r.1, r.2)
  | _, pc => (pc, st)

end DistributedAtomicValue

/-- Has the operation answered? -/
def OpPc.isTerminal : OpPc → Bool
  | .done _ | .forced _ => true
  | _ => false

/-- Does the answer say that the operation wrote: `Succeeded()` for
`CompareAndSet` and `TrySet`, a nil error for `ForceSet`? -/
def OpPc.reportsWrite : OpPc → Bool
  | .done (.ok r) => r.succeeded
  | .forced none => true
  | _ => false

/-- A change of the store, with the client that made it and the data it left
at the node. -/
structure WriteEntry where
  id : ℕ
  after : Bytes
  deriving DecidableEq, Repr

/-- The clients' world: the store, where each client is, and the ghost log of
the changes of the store, in server order. -/
structure AtomicWorld where
  store : Store
  pcs : ℕ → OpPc
  log : List WriteEntry

/-- One scheduled step: the client that moves, the clock reading it sees, and
the mutex's answer if it asks for the lock. -/
structure AtomicEvent where
  id : ℕ
  elapsed : Duration
  acquired : Except ZkError Bool

namespace AtomicWorld

variable (v : DistributedAtomicValue) (ops : List AtomicOp)

/-- All clients at their first request, on the store `st`. -/
def init (st : Store) : AtomicWorld :=
  ⟨st, fun i => ((ops[i]?).map AtomicOp.startPc).getD (.forced none), []⟩

/-- The step of the client the event names; a name without a client changes
nothing.  A step that changes the store is logged with the data it left. -/
def step (w : AtomicWorld) (ev : AtomicEvent) : AtomicWorld :=
  match ops[ev.id]? with
  | none => w
  | some op =>
    let r := v.opStep op ev.elapsed ev.acquired (w.pcs ev.id) w.store
    ⟨r.2, Function.update w.pcs ev.id r.1,
      if r.2 = w.store then w.log else w.log ++ [⟨ev.id, (v.register r.2).getD []⟩]⟩

/-- The clients running `ops` on the store `st`. -/
def system (st : Store) : TransitionSystem.System AtomicWorld AtomicEvent :=
  TransitionSystem.System.ofFun (init ops st) (step v ops)

end AtomicWorld

/-- The value left before the `k`-th write of `log`: the initial value before
the first, and what the write before it left otherwise. -/
def precedingValue (init : Option Bytes) (log : List WriteEntry) : ℕ → Option Bytes
  | 0 => init
  | k + 1 => (log[k]?).map WriteEntry.after

/-! ### What one request can do to the node -/

/-- What a client holding a read of `pre` at `stat` knows of the node: it is
there, at the version read and with the data read, or at a later version. -/
def ReadCurrent (node : Option ZNode) (pre : Bytes) (stat : Stat) : Prop :=
  ∃ n, node = some n ∧ 0 ≤ stat.version ∧ stat.version ≤ n.version ∧
    (stat.version = n.version → n.data = pre)

/-- What a client about to write knows of the node; a create is planned only
after reading the node missing, as nil. -/
def PendingOk (node : Option ZNode) : OpPc → Prop
  | .casWrite pre stat => ReadCurrent node pre stat
  | .tryWrite _ _ createIt pre stat => if createIt then pre = [] else ReadCurrent node pre stat
  | _ => True

/-- The node at `path` after a write of `x`: `x` at the next version, or at
version zero for a node just created. -/
def WriteEffect (path : GoString) (x : Bytes) (st st' : Store) : Prop :=
  st'.lookup path = some ⟨x, ((st.lookup path).map fun n => n.version + 1).getD 0⟩

/-- The answer of an operation that wrote: the value it read and its new
value. -/
def ResultOk (op : AtomicOp) (pre : Bytes) : OpPc → Prop
  | .done (.ok r) => r.preValue = pre ∧ r.postValue = op.newValue
  | _ => True

section Requests

variable {path : GoString} {x pre : Bytes} {stat : Stat} {st st' : Store}

theorem readCurrent_stat (n : ZNode) : ReadCurrent (some n) n.data n.stat :=
  ⟨n, rfl, by simp [ZNode.stat], Int.le_refl _, fun _ => rfl⟩

/-- A write changes the store. -/
theorem WriteEffect.ne (h : WriteEffect path x st st') : st' ≠ st := by
  intro heq
  subst heq
  cases hn : st'.lookup path with
  | none => simp [WriteEffect, hn] at h
  | some n =>
    simp only [WriteEffect, hn, Option.map_some, Option.getD_some, Option.some.injEq] at h
    have := congrArg ZNode.version h
    simp at this

/-- A later write leaves a read stale, never wrong. -/
theorem ReadCurrent.of_writeEffect (hr : ReadCurrent (st.lookup path) pre stat)
    (h : WriteEffect path x st st') : ReadCurrent (st'.lookup path) pre stat := by
  obtain ⟨n, hn, h0, hle, -⟩ := hr
  simp only [WriteEffect, hn, Option.map_some, Option.getD_some] at h
  refine ⟨⟨x, n.version + 1⟩, h, h0, ?_, fun heq => ?_⟩
  · push_cast
    omega
  · push_cast at heq
    omega

theorem PendingOk.of_writeEffect {pc : OpPc} (hp : PendingOk (st.lookup path) pc)
    (h : WriteEffect path x st st') : PendingOk (st'.lookup path) pc := by
  cases pc with
  | casWrite pre stat => exact ReadCurrent.of_writeEffect hp h
  | tryWrite phase tries createIt pre stat =>
    cases createIt with
    | true => exact hp
    | false => exact ReadCurrent.of_writeEffect hp h
  | _ => trivial

/-- A set at the version of a read either writes, and then the node still held
what was read, or finds a later version. -/
theorem Store.set_cases_of_readCurrent (x : Bytes) (h : ReadCurrent (st.lookup path) pre stat) :
    (∃ s, (st.set path x stat.version).1 = .ok s ∧
        WriteEffect path x st (st.set path x stat.version).2 ∧
        (st.lookup path).map ZNode.data = some pre) ∨
      st.set path x stat.version = (.error .errBadVersion, st) := by
  obtain ⟨n, hn, h0, -, hdata⟩ := h
  by_cases hv : stat.version = n.version
  · have hm : Store.versionMatches stat.version n = true := by simp [Store.versionMatches, hv]
    have hset := Store.set_of_matches x hn hm
    refine .inl ⟨_, hset.1, ?_, by simp [hn, hdata hv]⟩
    simp [WriteEffect, hset.2, hn]
  · have hm : Store.versionMatches stat.version n = false := by
      simp only [Store.versionMatches, Bool.or_eq_false_iff, beq_eq_false_iff_ne]
      exact ⟨by omega, hv⟩
    exact .inr (Store.set_of_mismatch x hn hm)

/-- A set at any version writes a present node and finds a missing one
missing. -/
theorem Store.set_any_cases (st : Store) (path : GoString) (x : Bytes) :
    (∃ s, (st.set path x (-1)).1 = .ok s ∧ WriteEffect path x st (st.set path x (-1)).2) ∨
      st.set path x (-1) = (.error .errNoNode, st) := by
  cases hn : st.lookup path with
  | none => exact .inr (Store.set_of_absent x (-1) hn)
  | some n =>
    have hset := Store.set_of_matches x hn (Store.versionMatches_any n)
    refine .inl ⟨_, hset.1, ?_⟩
    simp [WriteEffect, hset.2, hn]

/-- A persistent create writes a missing node, or fails on a present node or a
missing parent. -/
theorem Store.create_cases (st : Store) (path : GoString) (x : Bytes) :
    ((st.create path x .persistent).1 = .ok path ∧
        WriteEffect path x st (st.create path x .persistent).2 ∧ st.lookup path = none) ∨
      st.create path x .persistent = (.error .errNodeExists, st) ∨
      st.create path x .persistent = (.error .errNoNode, st) := by
  cases hparent : st.lookup (parentOf path) with
  | none => exact .inr (.inr (Store.create_of_no_parent x .persistent hparent))
  | some m =>
    have hp : (st.lookup (parentOf path)).isSome := by simp [hparent]
    cases hn : st.lookup path with
    | none =>
      have hcreate := Store.create_of_absent x hp hn
      refine .inl ⟨hcreate.1, ?_, rfl⟩
      simp [WriteEffect, hcreate.2, hn]
    | some n => exact .inr (.inl (Store.create_of_present x hp (by simp [hn])))

end Requests

/-! ### What one step of an operation can do -/

namespace DistributedAtomicValue

/-- What one step of `op` from the store `st` can do: leave the store as it
is and report no write, or write `op`'s new value and report it, with the
data the node held before as `PreValue()`. -/
inductive StepEffect (v : DistributedAtomicValue) (op : AtomicOp) (st : Store) :
    OpPc × Store → Prop
  | unchanged {pc : OpPc} : pc.reportsWrite = false → PendingOk (st.lookup v.path) pc →
      StepEffect v op st (pc, st)
  | write {pc : OpPc} {st' : Store} : WriteEffect v.path op.newValue st st' →
      pc.reportsWrite = true → ResultOk op ((v.register st).getD []) pc →
      StepEffect v op st (pc, st')

section Steps

variable {v : DistributedAtomicValue} {st : Store} {elapsed : Duration}
  {acquired : Except ZkError Bool}

theorem currentValue_cases (v : DistributedAtomicValue) (st : Store) :
    (∃ n, st.lookup v.path = some n ∧ v.currentValue st = .ok (false, n.data, n.stat)) ∨
      (st.lookup v.path = none ∧ v.currentValue st = .ok (true, [], ⟨0⟩)) := by
  cases hn : st.lookup v.path with
  | none => exact .inr ⟨rfl, currentValue_of_absent hn⟩
  | some n => exact .inl ⟨n, rfl, currentValue_of_present hn⟩

/-- A read of a present node is current. -/
theorem readCurrent_of_lookup {n : ZNode} (hn : st.lookup v.path = some n) :
    ReadCurrent (st.lookup v.path) n.data n.stat := by
  rw [hn]
  exact readCurrent_stat n

theorem register_of_writeEffect {x : Bytes} {st' : Store} (h : WriteEffect v.path x st st') :
    v.register st' = some x := by
  simp [register, WriteEffect] at h ⊢
  simp [h]

theorem stepEffect_casRead (e x : Bytes) :
    StepEffect v (.compareAndSet e x) st
      (v.opStep (.compareAndSet e x) elapsed acquired .casRead st) := by
  rcases currentValue_cases v st with ⟨n, hn, hcur⟩ | ⟨-, hcur⟩
  · by_cases he : e = n.data
    · simp only [opStep.eq_def, hcur, he, beq_self_eq_true, Bool.not_false, Bool.and_self, if_true]
      exact .unchanged rfl (readCurrent_of_lookup hn)
    · simp only [opStep.eq_def, hcur]
      rw [if_neg (by simpa using he)]
      exact .unchanged rfl trivial
  · simp only [opStep.eq_def, hcur, Bool.not_true, Bool.false_and, Bool.false_eq_true, if_false]
    exact .unchanged rfl trivial

theorem stepEffect_casWrite {e x pre : Bytes} {stat : Stat}
    (h : ReadCurrent (st.lookup v.path) pre stat) :
    StepEffect v (.compareAndSet e x) st
      (v.opStep (.compareAndSet e x) elapsed acquired (.casWrite pre stat) st) := by
  rcases Store.set_cases_of_readCurrent x h with ⟨s, hset, hw, hpre⟩ | hbad
  · simp only [opStep.eq_def, compareAndSetWrite, requestError, errorOf, hset]
    have hreg : v.register st = some pre := hpre
    exact .write hw rfl (by simp [ResultOk, hreg, AtomicOp.newValue])
  · simp only [opStep.eq_def, compareAndSetWrite, requestError, errorOf, hbad]
    exact .unchanged rfl trivial

theorem stepEffect_tryRead (x : Bytes) (phase : TryPhase) (tries : ℕ) :
    StepEffect v (.trySet x) st (v.opStep (.trySet x) elapsed acquired (.tryRead phase tries) st) := by
  rcases currentValue_cases v st with ⟨n, hn, hcur⟩ | ⟨-, hcur⟩
  · simp only [opStep.eq_def, hcur]
    exact .unchanged rfl (readCurrent_of_lookup hn)
  · simp only [opStep.eq_def, hcur]
    exact .unchanged rfl rfl

/-- `tryOnce`'s write, from a read the store has not contradicted. -/
theorem stepEffect_tryWrite {x pre : Bytes} {phase : TryPhase} {tries : ℕ} {createIt : Bool}
    {stat : Stat} (h : PendingOk (st.lookup v.path) (.tryWrite phase tries createIt pre stat)) :
    StepEffect v (.trySet x) st
      (v.opStep (.trySet x) elapsed acquired (.tryWrite phase tries createIt pre stat) st) := by
  cases createIt with
  | true =>
    have hpre : pre = [] := h
    rcases Store.create_cases st v.path x with ⟨hc, hw, hn⟩ | hc | hc
    · simp only [opStep.eq_def, tryOnceWrite, if_true, requestError, errorOf, hc]
      have hreg : v.register st = none := by simp [register, hn]
      exact .write hw rfl (by simp [ResultOk, hreg, hpre, AtomicOp.newValue])
    all_goals
      simp only [opStep.eq_def, tryOnceWrite, if_true, requestError, errorOf, hc]
      exact .unchanged rfl trivial
  | false =>
    rcases Store.set_cases_of_readCurrent x h with ⟨s, hset, hw, hpre⟩ | hbad
    · simp only [opStep.eq_def, tryOnceWrite, Bool.false_eq_true, if_false, requestError, errorOf, hset]
      have hreg : v.register st = some pre := hpre
      exact .write hw rfl (by simp [ResultOk, hreg, AtomicOp.newValue])
    · simp only [opStep.eq_def, tryOnceWrite, Bool.false_eq_true, if_false, requestError, errorOf, hbad]
      exact .unchanged rfl trivial

/-- Deciding what follows a failed attempt, and asking for the mutex, send no
request to the node. -/
theorem stepEffect_tryDecide (x pre : Bytes) (phase : TryPhase) (tries : ℕ) :
    StepEffect v (.trySet x) st
      (v.opStep (.trySet x) elapsed acquired (.tryDecide phase tries pre) st) := by
  simp only [opStep.eq_def]
  split
  · exact .unchanged rfl trivial
  · split <;> exact .unchanged rfl trivial

theorem stepEffect_acquire (x pre : Bytes) (p : PromotedToLock) :
    StepEffect v (.trySet x) st (v.opStep (.trySet x) elapsed acquired (.acquire p pre) st) := by
  simp only [opStep.eq_def]
  split <;> exact .unchanged rfl trivial

theorem stepEffect_forceSetData (x : Bytes) :
    StepEffect v (.forceSet x) st (v.opStep (.forceSet x) elapsed acquired .forceSetData st) := by
  rcases Store.set_any_cases st v.path x with ⟨s, hset, hw⟩ | hset
  · simp only [opStep.eq_def, requestError, errorOf, hset]
    exact .write hw rfl trivial
  · simp only [opStep.eq_def, requestError, errorOf, hset]
    exact .unchanged rfl trivial

theorem stepEffect_forceCreate (x : Bytes) :
    StepEffect v (.forceSet x) st (v.opStep (.forceSet x) elapsed acquired .forceCreate st) := by
  rcases Store.create_cases st v.path x with ⟨hc, hw, -⟩ | hc | hc
  · simp only [opStep.eq_def, requestError, errorOf, hc]
    exact .write hw rfl trivial
  all_goals
    simp only [opStep.eq_def, requestError, errorOf, hc]
    exact .unchanged rfl trivial

theorem stepEffect_forceSetAgain (x : Bytes) :
    StepEffect v (.forceSet x) st (v.opStep (.forceSet x) elapsed acquired .forceSetAgain st) := by
  rcases Store.set_any_cases st v.path x with ⟨s, hset, hw⟩ | hset
  · simp only [opStep.eq_def, requestError, errorOf, hset]
    exact .write hw rfl trivial
  · simp only [opStep.eq_def, requestError, errorOf, hset]
    exact .unchanged rfl trivial

/-- A client that has not answered either leaves the store as it is or makes
one write that it reports. -/
theorem stepEffect_opStep {op : AtomicOp} {pc : OpPc} (hpc : pc.isTerminal = false)
    (hok : PendingOk (st.lookup v.path) pc) :
    StepEffect v op st (v.opStep op elapsed acquired pc st) := by
  cases op <;> cases pc
  case compareAndSet.casRead e x => exact stepEffect_casRead e x
  case compareAndSet.casWrite e x pre stat => exact stepEffect_casWrite hok
  case trySet.tryRead x phase tries => exact stepEffect_tryRead x phase tries
  case trySet.tryWrite x phase tries createIt pre stat => exact stepEffect_tryWrite hok
  case trySet.tryDecide x phase tries pre => exact stepEffect_tryDecide x pre phase tries
  case trySet.acquire x p pre => exact stepEffect_acquire x pre p
  case forceSet.forceSetData x => exact stepEffect_forceSetData x
  case forceSet.forceCreate x => exact stepEffect_forceCreate x
  case forceSet.forceSetAgain x => exact stepEffect_forceSetAgain x
  all_goals first
    | exact .unchanged rfl hok
    | simp [OpPc.isTerminal] at hpc

theorem opStep_of_isTerminal {op : AtomicOp} {pc : OpPc} (h : pc.isTerminal = true) :
    v.opStep op elapsed acquired pc st = (pc, st) := by
  cases pc <;> simp [OpPc.isTerminal] at h <;> cases op <;> rfl

end Steps

end DistributedAtomicValue

theorem OpPc.isTerminal_of_reportsWrite {pc : OpPc} (h : pc.reportsWrite = true) :
    pc.isTerminal = true := by
  cases pc <;> simp_all [OpPc.reportsWrite, OpPc.isTerminal]

theorem PendingOk.of_reportsWrite {node : Option ZNode} {pc : OpPc} (h : pc.reportsWrite = true) :
    PendingOk node pc := by
  cases pc <;> simp_all [OpPc.reportsWrite, PendingOk]

/-! ### The log -/

section Log

variable {init : Option Bytes} {log : List WriteEntry}

theorem getElem?_append_singleton_eq_some {α : Type*} {l : List α} {a b : α} {k : ℕ} :
    (l ++ [a])[k]? = some b ↔ l[k]? = some b ∨ (k = l.length ∧ a = b) := by
  rw [List.getElem?_append]
  split
  · next hk =>
    have hne : k ≠ l.length := by omega
    simp [hne]
  · next hk =>
    have hl : l[k]? = none := List.getElem?_eq_none (by omega)
    rw [hl, List.getElem?_singleton]
    by_cases hlen : k = l.length
    · simp [hlen]
    · have hpos : k - l.length ≠ 0 := by omega
      simp [hlen, hpos]

/-- A write appended to the log changes no earlier write's predecessor. -/
theorem precedingValue_append_of_le {k : ℕ} (h : k ≤ log.length) (es : List WriteEntry) :
    precedingValue init (log ++ es) k = precedingValue init log k := by
  cases k with
  | zero => rfl
  | succ k => simp [precedingValue, List.getElem?_append_left (show k < log.length by omega)]

theorem precedingValue_append_length (e : WriteEntry) :
    precedingValue init (log ++ [e]) (log ++ [e]).length = some e.after := by
  simp [precedingValue]

end Log

namespace AtomicWorld

section Step

variable {v : DistributedAtomicValue} {ops : List AtomicOp} {w : AtomicWorld} {ev : AtomicEvent}
  {op : AtomicOp}

theorem step_of_none (hop : ops[ev.id]? = none) : step v ops w ev = w := by
  simp [step, hop]

theorem step_of_isTerminal (hop : ops[ev.id]? = some op) (ht : (w.pcs ev.id).isTerminal = true) :
    step v ops w ev = w := by
  simp [step, hop, DistributedAtomicValue.opStep_of_isTerminal ht]

theorem step_of_unchanged {pc : OpPc}
    (hop : ops[ev.id]? = some op)
    (hr : v.opStep op ev.elapsed ev.acquired (w.pcs ev.id) w.store = (pc, w.store)) :
    step v ops w ev = ⟨w.store, Function.update w.pcs ev.id pc, w.log⟩ := by
  simp [step, hop, hr]

theorem step_of_write {pc : OpPc} {st' : Store}
    (hop : ops[ev.id]? = some op)
    (hr : v.opStep op ev.elapsed ev.acquired (w.pcs ev.id) w.store = (pc, st'))
    (hne : st' ≠ w.store) :
    step v ops w ev =
      ⟨st', Function.update w.pcs ev.id pc, w.log ++ [⟨ev.id, (v.register st').getD []⟩]⟩ := by
  simp [step, hop, hr, hne]

end Step

end AtomicWorld

/-! ### The invariant -/

namespace AtomicWorld

/-- The invariant of every interleaving, from an initial node read as `init`:
the node holds what the last write left; every pending read is current or
stale; a client that reports no write has no entry; every entry is its
client's reported write of its new value, read after the entry before it; and
a client that reports a write has exactly one entry. -/
structure Invariant (v : DistributedAtomicValue) (ops : List AtomicOp) (init : Option Bytes)
    (w : AtomicWorld) : Prop where
  last : v.register w.store = precedingValue init w.log w.log.length
  pending : ∀ i, PendingOk (w.store.lookup v.path) (w.pcs i)
  unwritten : ∀ i, (w.pcs i).reportsWrite = false → ∀ e : WriteEntry, e ∈ w.log → e.id ≠ i
  entries : ∀ (k : ℕ) (e : WriteEntry), w.log[k]? = some e →
    ∃ op, ops[e.id]? = some op ∧ e.after = op.newValue ∧ (w.pcs e.id).reportsWrite = true ∧
      ResultOk op ((precedingValue init w.log k).getD []) (w.pcs e.id)
  unique : ∀ (k k' : ℕ) (e e' : WriteEntry), w.log[k]? = some e → w.log[k']? = some e' →
    e.id = e'.id → k = k'
  written : ∀ i op, ops[i]? = some op → (w.pcs i).reportsWrite = true →
    ∃ (k : ℕ) (e : WriteEntry), w.log[k]? = some e ∧ e.id = i

section Preservation

variable {v : DistributedAtomicValue} {ops : List AtomicOp} {init : Option Bytes}
  {w : AtomicWorld}

theorem invariant_init (st : Store) : Invariant v ops (v.register st) (AtomicWorld.init ops st) where
  last := rfl
  pending i := by
    simp only [AtomicWorld.init]
    cases ops[i]? with
    | none => trivial
    | some op => cases op <;> trivial
  unwritten _ _ e he := by cases he
  entries k e hk := by simp [AtomicWorld.init] at hk
  unique k k' e e' hk := by simp [AtomicWorld.init] at hk
  written i op hop hrep := by
    simp only [AtomicWorld.init, hop, Option.map_some, Option.getD_some] at hrep
    cases op <;> simp [AtomicOp.startPc, OpPc.reportsWrite] at hrep

/-- A step of client `j` that leaves the store as it is keeps the invariant. -/
theorem Invariant.of_unchanged (hi : Invariant v ops init w) {j : ℕ} (hj : (w.pcs j).reportsWrite = false)
    {pc : OpPc} (hrep : pc.reportsWrite = false) (hok : PendingOk (w.store.lookup v.path) pc) :
    Invariant v ops init ⟨w.store, Function.update w.pcs j pc, w.log⟩ where
  last := hi.last
  pending i := by
    by_cases hij : i = j
    · subst hij
      simpa using hok
    · simpa [Function.update_of_ne hij] using hi.pending i
  unwritten i hi' e he := by
    by_cases hij : i = j
    · subst hij
      exact hi.unwritten i hj e he
    · simp only [Function.update_of_ne hij] at hi'
      exact hi.unwritten i hi' e he
  entries k e hk := by
    obtain ⟨op, hop, hafter, hrep', hres⟩ := hi.entries k e hk
    have hne : e.id ≠ j := by
      rintro rfl
      rw [hj] at hrep'
      contradiction
    simp only [Function.update_of_ne hne]
    exact ⟨op, hop, hafter, hrep', hres⟩
  unique := hi.unique
  written i op hop hrep' := by
    by_cases hij : i = j
    · subst hij
      simp [hrep] at hrep'
    · simp only [Function.update_of_ne hij] at hrep'
      exact hi.written i op hop hrep'

/-- A step of client `j` that writes `op`'s new value keeps the invariant;
the entry it appends is that write. -/
theorem Invariant.of_write (hi : Invariant v ops init w) {j : ℕ} {op : AtomicOp}
    (hop : ops[j]? = some op) (hj : (w.pcs j).reportsWrite = false) {pc : OpPc} {st' : Store}
    (hw : WriteEffect v.path op.newValue w.store st') (hrep : pc.reportsWrite = true)
    (hres : ResultOk op ((v.register w.store).getD []) pc) :
    Invariant v ops init ⟨st', Function.update w.pcs j pc, w.log ++ [⟨j, op.newValue⟩]⟩ where
  last := by
    rw [DistributedAtomicValue.register_of_writeEffect hw, precedingValue_append_length]
  pending i := by
    by_cases hij : i = j
    · subst hij
      simpa using PendingOk.of_reportsWrite hrep
    · simpa [Function.update_of_ne hij] using (hi.pending i).of_writeEffect hw
  unwritten i hi' e he := by
    by_cases hij : i = j
    · subst hij
      simp [hrep] at hi'
    · simp only [Function.update_of_ne hij] at hi'
      rcases List.mem_append.mp he with he | he
      · exact hi.unwritten i hi' e he
      · rw [List.mem_singleton] at he
        subst he
        exact fun h => hij h.symm
  entries k e hk := by
    rcases getElem?_append_singleton_eq_some.mp hk with hk | ⟨rfl, rfl⟩
    · obtain ⟨op', hop', hafter, hrep', hres'⟩ := hi.entries k e hk
      have hne : e.id ≠ j := by
        rintro rfl
        rw [hj] at hrep'
        contradiction
      have hle : k ≤ w.log.length := Nat.le_of_lt (List.getElem?_eq_some_iff.mp hk).1
      refine ⟨op', hop', hafter, ?_, ?_⟩
      · simpa [Function.update_of_ne hne] using hrep'
      · simpa [Function.update_of_ne hne, precedingValue_append_of_le hle] using hres'
    · refine ⟨op, hop, rfl, by simpa using hrep, ?_⟩
      simpa [precedingValue_append_of_le (Nat.le_refl _), ← hi.last] using hres
  unique k k' e e' hk hk' hid := by
    have hfresh : ∀ e'' : WriteEntry, e'' ∈ w.log → e''.id ≠ j := hi.unwritten j hj
    rcases getElem?_append_singleton_eq_some.mp hk with hk | ⟨rfl, rfl⟩ <;>
      rcases getElem?_append_singleton_eq_some.mp hk' with hk' | ⟨rfl, rfl⟩
    · exact hi.unique k k' e e' hk hk' hid
    · exact absurd hid (hfresh e (List.mem_of_getElem? hk))
    · exact absurd hid.symm (hfresh e' (List.mem_of_getElem? hk'))
    · rfl
  written i op' hop' hrep' := by
    by_cases hij : i = j
    · subst hij
      exact ⟨w.log.length, ⟨i, op.newValue⟩, List.getElem?_concat_length, rfl⟩
    · simp only [Function.update_of_ne hij] at hrep'
      obtain ⟨k, e, hk, hid⟩ := hi.written i op' hop' hrep'
      exact ⟨k, e, getElem?_append_singleton_eq_some.mpr (.inl hk), hid⟩

/-- Every step keeps the invariant: a client that has answered no longer
moves, and one that has not makes at most one write, which it reports. -/
theorem Invariant.step (hi : Invariant v ops init w) (ev : AtomicEvent) :
    Invariant v ops init (step v ops w ev) := by
  cases hop : ops[ev.id]? with
  | none =>
    rw [step_of_none hop]
    exact hi
  | some op =>
    cases ht : (w.pcs ev.id).isTerminal with
    | true =>
      rw [step_of_isTerminal hop ht]
      exact hi
    | false =>
      have hj : (w.pcs ev.id).reportsWrite = false := by
        cases h : (w.pcs ev.id).reportsWrite with
        | false => rfl
        | true =>
          rw [OpPc.isTerminal_of_reportsWrite h] at ht
          contradiction
      have heff : DistributedAtomicValue.StepEffect v op w.store
          (v.opStep op ev.elapsed ev.acquired (w.pcs ev.id) w.store) :=
        DistributedAtomicValue.stepEffect_opStep ht (hi.pending ev.id)
      cases hr : v.opStep op ev.elapsed ev.acquired (w.pcs ev.id) w.store with
      | mk pc st' =>
        rw [hr] at heff
        cases heff with
        | unchanged hrep hok =>
          rw [step_of_unchanged hop hr]
          exact hi.of_unchanged hj hrep hok
        | write hw hrep hres =>
          rw [step_of_write hop hr hw.ne, DistributedAtomicValue.register_of_writeEffect hw,
            Option.getD_some]
          exact hi.of_write hop hj hw hrep hres

theorem invariant_inductive (st : Store) :
    TransitionSystem.Inductive (system v ops st) (Invariant v ops (v.register st)) where
  init := invariant_init st
  step s ev t hs hst := by
    have ht : t = step v ops s ev := hst
    subst ht
    exact hs.step ev

end Preservation

/-! ### The history every interleaving produces -/

/-- A world's history of writes is linear: every client that answered
`Succeeded()` made exactly one write, of its new value, and its `PreValue()`
is what the write before it left (the initial value for the first write); a
client whose answer reports no write made none; every write is one that its
client reports; and the node holds what the last write left. -/
structure LinearHistory (v : DistributedAtomicValue) (ops : List AtomicOp) (init : Option Bytes)
    (w : AtomicWorld) : Prop where
  succeeded : ∀ i op r, ops[i]? = some op → w.pcs i = .done (.ok r) → r.succeeded = true →
    ∃ k, w.log[k]? = some ⟨i, op.newValue⟩ ∧
      (∀ (k' : ℕ) (e : WriteEntry), w.log[k']? = some e → e.id = i → k' = k) ∧
      r.postValue = op.newValue ∧ r.preValue = (precedingValue init w.log k).getD []
  unreported : ∀ i, (w.pcs i).reportsWrite = false → ∀ e : WriteEntry, e ∈ w.log → e.id ≠ i
  reported : ∀ e : WriteEntry, e ∈ w.log →
    ∃ op, ops[e.id]? = some op ∧ e.after = op.newValue ∧ (w.pcs e.id).reportsWrite = true
  current : v.register w.store = precedingValue init w.log w.log.length

variable {v : DistributedAtomicValue} {ops : List AtomicOp} {init : Option Bytes}
  {w : AtomicWorld}

theorem Invariant.linearHistory (hi : Invariant v ops init w) : LinearHistory v ops init w where
  succeeded i op r hop hpc hsucc := by
    have hrep : (w.pcs i).reportsWrite = true := by simp [hpc, OpPc.reportsWrite, hsucc]
    obtain ⟨k, e, hk, rfl⟩ := hi.written i op hop hrep
    obtain ⟨op', hop', hafter, -, hres⟩ := hi.entries k e hk
    obtain rfl : op' = op := Option.some.inj (hop'.symm.trans hop)
    rw [hpc] at hres
    obtain ⟨hpre, hpost⟩ := hres
    refine ⟨k, ?_, fun k' e' hk' hid => hi.unique k' k e' e hk' hk hid, hpost, hpre⟩
    rw [hk, ← hafter]
  unreported := hi.unwritten
  reported e he := by
    obtain ⟨k, hk⟩ := List.getElem?_of_mem he
    obtain ⟨op, hop, hafter, hrep, -⟩ := hi.entries k e hk
    exact ⟨op, hop, hafter, hrep⟩
  current := hi.last

end AtomicWorld

open AtomicWorld in
/-- Over every interleaving of the requests of any number of `CompareAndSet`,
`TrySet` (with or without a mutex) and `ForceSet` calls on one node, the
history of writes is linear, counted from the value the node first held. -/
theorem atomic_interleavings_linearHistory {v : DistributedAtomicValue} {ops : List AtomicOp}
    {st : Store} {w : AtomicWorld} (hw : TransitionSystem.Reachable (system v ops st) w) :
    LinearHistory v ops (v.register st) w :=
  (TransitionSystem.Reachable.of_inductive (invariant_inductive st) hw).linearHistory

/-- Two `TrySet`s racing to create `/v`: both read it missing, the first
creates it, and the second's create finds it there. -/
theorem atomic_interleavings_linearHistory_race :
    let v : DistributedAtomicValue := ⟨"/v".toList, [], newRetryOneTime 0, none⟩
    let ops : List AtomicOp := [.trySet [1], .trySet [2]]
    let w := ([⟨0, 0, .ok false⟩, ⟨1, 0, .ok false⟩, ⟨0, 0, .ok false⟩, ⟨1, 0, .ok false⟩] :
      List AtomicEvent).foldl (AtomicWorld.step v ops) (AtomicWorld.init ops Store.empty)
    TransitionSystem.Reachable (AtomicWorld.system v ops Store.empty) w ∧
      AtomicWorld.LinearHistory v ops (v.register Store.empty) w := by
  intro v ops w
  have hw : TransitionSystem.Reachable (AtomicWorld.system v ops Store.empty) w :=
    TransitionSystem.reachable_foldl _
  exact ⟨hw, atomic_interleavings_linearHistory hw⟩

end Curator
