import Mathlib.Data.List.Nodup
import Curator.Recipes.Locks
import Curator.Support.Reachable

/-!
# Clients of one lock

Any number of clients, each with its own `InterProcessMutex` on the same base
path, call `Acquire`, `AcquireTimeout` and `Release` in any interleaving of
their requests; every request may fail with an injected error, and when the
wait of `internalLockLoop` ends is the scheduler's choice.

Ghost state records, in order, every lock node a client created (with the
value of the base path's counter it was named after), every grant of the
lock, and every node a client left behind when its acquire ended without the
lock.  `seqs i` is the counter value of client `i`'s latest node.

While the counter stays within ten digits, every reachable world satisfies
`Invariant`: at most one client holds the lock; the grants are in increasing
order of their nodes; every grant is smaller than every node left behind, and
that node stays.
-/

namespace Curator

/-- Did the client's step create its lock node? -/
def LockPc.createdNode : LockPc → LockPc → Bool
  | .creating _ _, .listing _ _ | .creatingAgain _ _, .listing _ _ => true
  | _, _ => false

/-- Did the client's step get it the lock? -/
def LockPc.grantedLock : LockPc → LockPc → Bool
  | .listing _ _, .acquireReturned true _ => true
  | _, _ => false

/-- Did the client's acquire end without the lock, after creating its node? -/
def LockPc.abandonedNode : LockPc → LockPc → Bool
  | .listing _ _, .acquireReturned false _ => true
  | _, _ => false

/-- The node a client waits on the lock with. -/
def LockPc.ourPath? : LockPc → Option GoString
  | .listing _ p | .watching _ p _ | .waiting _ p => some p
  | _ => none

theorem LockPc.createdNode_of_ourPath {pc pc' : LockPc} (h : pc'.ourPath? = none) :
    pc.createdNode pc' = false := by
  unfold LockPc.createdNode
  split <;> simp_all [LockPc.ourPath?]

theorem LockPc.grantedLock_of_ourPath {pc pc' : LockPc} (h : pc.ourPath? = none) :
    pc.grantedLock pc' = false := by
  unfold LockPc.grantedLock
  split <;> simp_all [LockPc.ourPath?]

theorem LockPc.abandonedNode_of_ourPath {pc pc' : LockPc} (h : pc.ourPath? = none) :
    pc.abandonedNode pc' = false := by
  unfold LockPc.abandonedNode
  split <;> simp_all [LockPc.ourPath?]

/-- The clients' world. -/
structure LockWorld where
  store : Store
  mutexes : ℕ → InterProcessMutex
  pcs : ℕ → LockPc
  seqs : ℕ → ℕ
  created : List (ℕ × ℕ)
  grants : List (ℕ × ℕ)
  abandoned : List ℕ

/-- One scheduled step: the client that moves, and what it does. -/
structure ClientEvent where
  id : ℕ
  ev : LockEvent

namespace LockWorld

variable (policy : RetryPolicy)

/-- Every client idle with the mutex `m`, on the store `st`. -/
def init (m : InterProcessMutex) (st : Store) : LockWorld :=
  ⟨st, fun _ => m, fun _ => .idle, fun _ => 0, [], [], []⟩

/-- The world after client `i` moved to `r`, with the ghost state the move
records. -/
def after (w : LockWorld) (i : ℕ) (r : InterProcessMutex × LockPc × Store) : LockWorld :=
  let pc := w.pcs i
  let counter := w.store.counter (w.mutexes i).internals.basePath
  ⟨r.2.2, Function.update w.mutexes i r.1, Function.update w.pcs i r.2.1,
    if pc.createdNode r.2.1 then Function.update w.seqs i counter else w.seqs,
    if pc.createdNode r.2.1 then w.created ++ [(i, counter)] else w.created,
    if pc.grantedLock r.2.1 then w.grants ++ [(i, w.seqs i)] else w.grants,
    if pc.abandonedNode r.2.1 then w.abandoned ++ [w.seqs i] else w.abandoned⟩

/-- The step of one client, with the ghost state it moves. -/
def step (w : LockWorld) (e : ClientEvent) : LockWorld :=
  w.after e.id ((w.mutexes e.id).step policy (w.pcs e.id) e.ev w.store)

/-- The clients of the mutex `m` on the store `st`. -/
def system (m : InterProcessMutex) (st : Store) : TransitionSystem.System LockWorld ClientEvent :=
  TransitionSystem.System.ofFun (init m st) (step policy)

end LockWorld

/-! ### What one step of a client can do -/

namespace InterProcessMutex

/-- The steps of a client, by what they do to its mutex, its place and the
store. -/
inductive Effect (m : InterProcessMutex) (pc : LockPc) (st : Store) :
    InterProcessMutex × LockPc × Store → Prop
  | stay : Effect m pc st (m, pc, st)
  /-- A move that sends no request changing a node and records nothing. -/
  | move {pc' : LockPc} :
      (pc'.ourPath? = none ∨ pc'.ourPath? = pc.ourPath?) → (∀ p, pc' ≠ .deleting p) →
      (pc'.isIdle = false → pc.isIdle = false ∨ m.lockCount ≤ 0) →
      pc.createdNode pc' = false → pc.grantedLock pc' = false → pc.abandonedNode pc' = false →
      Effect m pc st (m, pc', st)
  | reenter : pc.isIdle = true → 0 < m.lockCount →
      Effect m pc st ({ m with lockCount := wrapInt32 (m.lockCount + 1) }, .acquireReturned true none,
        st)
  | releaseOne : pc.isIdle = true → 0 < m.lockCount → 0 < wrapInt32 (m.lockCount - 1) →
      Effect m pc st ({ m with lockCount := wrapInt32 (m.lockCount - 1) }, .releaseReturned none, st)
  | releaseLast : pc.isIdle = true → 0 < m.lockCount → wrapInt32 (m.lockCount - 1) = 0 →
      Effect m pc st ({ m with lockCount := 0 }, .deleting m.lockPath, st)
  | releaseNegative {err : Option ZkError} : pc.isIdle = true → 0 < m.lockCount →
      wrapInt32 (m.lockCount - 1) < 0 →
      Effect m pc st ({ m with lockCount := wrapInt32 (m.lockCount - 1) }, .releaseReturned err, st)
  | create {call : LockCall} {p : GoString} {st' : Store} : pc.createdNode (.listing call p) = true →
      st.create m.internals.lockPath (m.lockNodeBytes.getD []) .ephemeralSequential =
        (.ok p, st') →
      Effect m pc st (m, .listing call p, st')
  | makeDirs {pc' : LockPc} {st' : Store} : pc.isIdle = false → pc.ourPath? = none →
      pc'.ourPath? = none → (∀ p, pc' ≠ .deleting p) →
      pc.createdNode pc' = false → pc.grantedLock pc' = false → pc.abandonedNode pc' = false →
      (∀ q, (st.lookup q).isSome → (st'.lookup q).isSome) → st'.counters = st.counters →
      Effect m pc st (m, pc', st')
  | grant {call : LockCall} {p : GoString} {children : List GoString} {r : PredicateResults} :
      pc = .listing call p → (st.children m.internals.basePath).1 = .ok children →
      getsTheLock (m.internals.sortChildren children) (p.drop (m.internals.basePath.length + 1))
        m.internals.maxLeases = .ok r → r.getsTheLock = true →
      Effect m pc st ({ m with lockPath := p, lockCount := 1 }, .acquireReturned true none, st)
  | abandon {call : LockCall} {p : GoString} {err : Option ZkError} : pc = .listing call p →
      Effect m pc st (m, .acquireReturned false err, st)
  | delete {p : GoString} {st' : Store} {err : Option ZkError} : pc = .deleting p →
      (st' = st ∨ st' = (st.delete p (-1)).2) →
      Effect m pc st (m, .releaseReturned err, st')

section Effects

variable (m : InterProcessMutex) (policy : RetryPolicy) {st : Store}

theorem answer_true (call : LockCall) : m.answer call true none = .acquireReturned true none := by
  cases call <;> rfl

theorem answer_false (call : LockCall) (err : Option ZkError) :
    ∃ err', m.answer call false err = .acquireReturned false err' := by
  cases call <;> cases err <;> exact ⟨_, rfl⟩

/-- After a failed create, `attemptLock` tries again or ends the call without
the lock. -/
theorem attemptLockError_cases (call : LockCall) (retryCount : ℕ) (e : ZkError)
    (elapsed : Duration) :
    m.attemptLockError policy call retryCount e elapsed = .creating call (retryCount + 1) ∨
      ∃ err, m.attemptLockError policy call retryCount e elapsed = .acquireReturned false err := by
  unfold attemptLockError
  split
  · exact .inl rfl
  · exact .inr (m.answer_false call (some e))

/-- A busy client that holds no node and moves to a place without one
records nothing. -/
theorem effect_quiet {pc pc' : LockPc} (hpc : pc.isIdle = false) (hpath : pc.ourPath? = none)
    (hpath' : pc'.ourPath? = none) (hdel : ∀ p, pc' ≠ .deleting p) :
    Effect m pc st (m, pc', st) :=
  .move (.inl hpath') hdel (fun _ => .inl hpc) (LockPc.createdNode_of_ourPath hpath')
    (LockPc.grantedLock_of_ourPath hpath) (LockPc.abandonedNode_of_ourPath hpath)

theorem attemptLockError_quiet (call : LockCall) (retryCount : ℕ) (e : ZkError)
    (elapsed : Duration) :
    (m.attemptLockError policy call retryCount e elapsed).ourPath? = none ∧
      ∀ p, m.attemptLockError policy call retryCount e elapsed ≠ .deleting p := by
  rcases m.attemptLockError_cases policy call retryCount e elapsed with h | ⟨err, h⟩ <;>
    rw [h] <;> exact ⟨rfl, fun p => by simp⟩

theorem withFault_create_cases (fault : Option ZkError) (path : GoString) (data : Bytes)
    (mode : CreateMode) :
    (∃ p st', st.create path data mode = (.ok p, st') ∧
        st.withFault fault (fun st => st.create path data mode) = (.ok p, st')) ∨
      ∃ e, st.withFault fault (fun st => st.create path data mode) = (.error e, st) := by
  cases fault with
  | some e => exact .inr ⟨e, rfl⟩
  | none =>
    cases hc : st.create path data mode with
    | mk r st' =>
      cases r with
      | ok p => exact .inl ⟨p, st', rfl, by simp [Store.withFault, hc]⟩
      | error e =>
        have hst : st' = st := by
          have := Store.create_of_error (congrArg Prod.fst hc)
          rwa [hc] at this
        subst hst
        exact .inr ⟨e, by simp [Store.withFault, hc]⟩

theorem effect_acquire (pc : LockPc) (call : LockCall) :
    Effect m pc st (m.step policy pc (.acquire call) st) := by
  rcases m.step_acquire_cases policy pc call st with
    ⟨-, h⟩ | ⟨hidle, hpos, h⟩ | ⟨-, hcount, h⟩ <;> rw [h]
  · exact .stay
  · exact .reenter hidle hpos
  · exact .move (.inl rfl) (by simp) (fun _ => .inr hcount) (LockPc.createdNode_of_ourPath rfl)
      (by cases pc <;> rfl) (by cases pc <;> rfl)

theorem effect_release (pc : LockPc) : Effect m pc st (m.step policy pc .release st) := by
  rcases m.step_release_cases policy pc st with
    ⟨-, h⟩ | ⟨hidle, hpos, hmore, h⟩ | ⟨hidle, hpos, hzero, h⟩ | ⟨hidle, hpos, hneg, h⟩ | ⟨-, -, h⟩ <;>
    rw [h]
  · exact .stay
  · exact .releaseOne hidle hpos hmore
  · exact .releaseLast hidle hpos hzero
  · exact .releaseNegative hidle hpos hneg
  · exact .move (.inl rfl) (by simp) (fun h => by simp [LockPc.isIdle] at h)
      (LockPc.createdNode_of_ourPath rfl) (by cases pc <;> rfl) (by cases pc <;> rfl)

theorem effect_creating (call : LockCall) (retryCount : ℕ) (fault : Option ZkError)
    (elapsed : Duration) :
    Effect m (.creating call retryCount) st
      (m.step policy (.creating call retryCount) (.advance fault elapsed) st) := by
  rcases @withFault_create_cases st fault m.internals.lockPath (m.lockNodeBytes.getD [])
    .ephemeralSequential with ⟨p, st', hc, hr⟩ | ⟨e, hr⟩
  · simp only [step.eq_def, LockPc.isIdle, hr]
    exact .create rfl hc
  · simp only [step.eq_def, LockPc.isIdle, hr]
    split
    · next heq => simp at heq
    · exact effect_quiet m rfl rfl rfl (by simp)
    · next e' _ _ =>
      exact effect_quiet m rfl rfl (m.attemptLockError_quiet policy call retryCount e' elapsed).1
        (m.attemptLockError_quiet policy call retryCount e' elapsed).2

theorem effect_creatingAgain (call : LockCall) (retryCount : ℕ) (fault : Option ZkError)
    (elapsed : Duration) :
    Effect m (.creatingAgain call retryCount) st
      (m.step policy (.creatingAgain call retryCount) (.advance fault elapsed) st) := by
  rcases @withFault_create_cases st fault m.internals.lockPath (m.lockNodeBytes.getD [])
    .ephemeralSequential with ⟨p, st', hc, hr⟩ | ⟨e, hr⟩
  · simp only [step.eq_def, LockPc.isIdle, hr]
    exact .create rfl hc
  · simp only [step.eq_def, LockPc.isIdle, hr]
    exact effect_quiet m rfl rfl (m.attemptLockError_quiet policy call retryCount e elapsed).1
      (m.attemptLockError_quiet policy call retryCount e elapsed).2

theorem effect_makingDirs (call : LockCall) (retryCount : ℕ) (faults : ℕ → Option ZkError)
    (elapsed : Duration) :
    Effect m (.makingDirs call retryCount) st
      (m.step policy (.makingDirs call retryCount) (.makeDirs faults elapsed) st) := by
  obtain ⟨hkeep, hcounters⟩ := makeDirs_frame faults m.internals.lockPath false ⟨st, 0⟩
  simp only [step.eq_def, LockPc.isIdle]
  split
  · next e _ =>
    have hq := m.attemptLockError_quiet policy call retryCount e elapsed
    exact .makeDirs rfl rfl hq.1 hq.2 (LockPc.createdNode_of_ourPath hq.1)
      (LockPc.grantedLock_of_ourPath rfl) (LockPc.abandonedNode_of_ourPath rfl) hkeep hcounters
  · exact .makeDirs rfl rfl rfl (by simp) rfl rfl rfl hkeep hcounters

theorem effect_listing (call : LockCall) (ourPath : GoString) (fault : Option ZkError)
    (elapsed : Duration) :
    Effect m (.listing call ourPath) st
      (m.step policy (.listing call ourPath) (.advance fault elapsed) st) := by
  simp only [step.eq_def, LockPc.isIdle]
  split
  · obtain ⟨err, h⟩ := m.answer_false call none
    simp only [afterLockLoop, Bool.false_eq_true, if_false, h]
    exact .abandon rfl
  · next sorted hsorted =>
    obtain ⟨children, hchildren, rfl⟩ : ∃ children,
        (st.children m.internals.basePath).1 = .ok children ∧
          sorted = m.internals.sortChildren children :=
      LockInternals.exists_children_of_getSortedChildren hsorted
    split
    · obtain ⟨err, h⟩ := m.answer_false call none
      simp only [afterLockLoop, Bool.false_eq_true, if_false, h]
      exact .abandon rfl
    · next r hr =>
      split
      · next hgets =>
        simp only [afterLockLoop, if_true, answer_true]
        exact .grant rfl hchildren hr hgets
      · exact .move (.inr rfl) (by simp) (fun _ => .inl rfl) rfl rfl rfl

theorem effect_deleting (path : GoString) (fault : Option ZkError) (elapsed : Duration) :
    Effect m (.deleting path) st (m.step policy (.deleting path) (.advance fault elapsed) st) := by
  simp only [step.eq_def, LockPc.isIdle]
  have hst : (m.internals.deleteOurPath path fault st).2 = st ∨
      (m.internals.deleteOurPath path fault st).2 = (st.delete path (-1)).2 := by
    unfold LockInternals.deleteOurPath
    cases fault with
    | some e =>
      left
      simp only [Store.withFault]
      split <;> rfl
    | none =>
      right
      simp only [Store.withFault]
      split <;> rfl
  exact .delete rfl hst

/-- Every step of a client is one of its effects. -/
theorem step_effect (pc : LockPc) (ev : LockEvent) :
    Effect m pc st (m.step policy pc ev st) := by
  cases ev with
  | acquire call => exact m.effect_acquire policy pc call
  | release => exact m.effect_release policy pc
  | advance fault elapsed =>
    cases pc with
    | creating call retryCount => exact m.effect_creating policy call retryCount fault elapsed
    | creatingAgain call retryCount =>
      exact m.effect_creatingAgain policy call retryCount fault elapsed
    | listing call ourPath => exact m.effect_listing policy call ourPath fault elapsed
    | watching call ourPath pathToWatch =>
      exact .move (.inr rfl) (by simp) (fun _ => .inl rfl) rfl rfl rfl
    | waiting call ourPath => exact .move (.inr rfl) (by simp) (fun _ => .inl rfl) rfl rfl rfl
    | deleting path => exact m.effect_deleting policy path fault elapsed
    | idle | acquireReturned _ _ | releaseReturned _ | makingDirs _ _ => exact .stay
  | makeDirs faults elapsed =>
    cases pc with
    | makingDirs call retryCount => exact m.effect_makingDirs policy call retryCount faults elapsed
    | _ => exact .stay

end Effects

end InterProcessMutex

/-! ### What a grant says about the other lock nodes -/

/-- The internals `NewInterProcessMutex` builds on a valid base path. -/
structure LockInternals.Standard (l : LockInternals) : Prop where
  valid : validatePath l.basePath = none
  lockName : l.lockName = lockPrefix
  lockPath : l.lockPath = joinPath l.basePath [lockPrefix]
  maxLeases : l.maxLeases = 1

theorem newInterProcessMutex_standard {path : GoString} {m : InterProcessMutex}
    (h : newInterProcessMutex path = .ok m) :
    m.internals.Standard ∧ m.internals.basePath = path ∧ m.lockCount = 0 := by
  unfold newInterProcessMutex newLockInternals at h
  cases hv : validatePath path with
  | some e => simp [hv] at h
  | none =>
    simp only [hv] at h
    obtain rfl := Except.ok.inj h
    exact ⟨⟨hv, rfl, rfl, rfl⟩, rfl, rfl⟩

section Grant

variable {l : LockInternals} {st : Store} {b s : ℕ}

theorem LockInternals.Standard.lockNodePath_eq (hl : l.Standard) (s : ℕ) :
    l.lockNodePath s = joinPath l.basePath [lockPrefix] ++ sequenceSuffix s := by
  rw [LockInternals.lockNodePath, hl.lockPath]

theorem LockInternals.Standard.lockNodePath_injective (hl : l.Standard) (hs : s < 10 ^ 10)
    (hb : b < 10 ^ 10) (h : l.lockNodePath s = l.lockNodePath b) : s = b := by
  rw [hl.lockNodePath_eq, hl.lockNodePath_eq] at h
  exact sequenceSuffix_injective hs hb (List.append_cancel_left h)

/-- A live lock node is listed among the children of the base path. -/
theorem mem_childrenOf_of_live (hl : l.Standard) (hs : s < 10 ^ 10)
    (hlive : (st.lookup (l.lockNodePath s)).isSome) :
    lockPrefix ++ sequenceSuffix s ∈ st.childrenOf l.basePath := by
  rw [hl.lockNodePath_eq] at hlive
  rw [← getNodeFromPath_lockNode hl.valid hs]
  exact Store.getNodeFromPath_mem_childrenOf hlive (lockPath_append_ne hl.valid _)
    (parentOf_lockPath_append hl.valid (not_mem_sequenceSuffix (by decide) hs))

/-- A listing grants the lock to the node of `b` only when every other live
lock node comes after it. -/
theorem grant_lt (hl : l.Standard) {children : List GoString} {r : PredicateResults}
    (hchildren : (st.children l.basePath).1 = .ok children)
    (hgets : getsTheLock (l.sortChildren children)
      ((l.lockNodePath b).drop (l.basePath.length + 1)) l.maxLeases = .ok r)
    (hr : r.getsTheLock = true) (hb : b < 10 ^ 10) (hs : s < 10 ^ 10)
    (hlive : (st.lookup (l.lockNodePath s)).isSome) (hne : s ≠ b) : b < s := by
  rw [hl.maxLeases] at hgets
  have hmem : lockPrefix ++ sequenceSuffix s ∈ children := by
    rw [Store.children_of_ok hchildren]
    exact mem_childrenOf_of_live hl hs hlive
  have hfirst := getsTheLock_sortChildren hgets hr _ hmem
  rw [hl.lockNodePath_eq, sequenceNodeName_lockNode hl.valid, hl.lockName] at hfirst
  split at hfirst
  · exfalso
    rcases hfirst with heq | hnlt
    · have hl' : lockPrefix ++ sequenceSuffix s = 'l' :: ("ock-".toList ++ sequenceSuffix s) :=
        rfl
      have ho : "ock-".toList ++ sequenceSuffix b = 'o' :: ("ck-".toList ++ sequenceSuffix b) :=
        rfl
      rw [hl', ho] at heq
      exact absurd (List.cons.inj heq).1 (by decide)
    · rw [fixForSorting_lockName hs, fixForSorting_rootName hb] at hnlt
      exact hnlt (sequenceSuffix_lt_rootName hs _)
  · rcases hfirst with heq | hnlt
    · exact absurd (sequenceSuffix_injective hs hb (List.append_cancel_left heq)) hne
    · rw [fixForSorting_lockName hs, fixForSorting_lockName hb,
        sequenceSuffix_lt_sequenceSuffix_iff hs hb] at hnlt
      omega

end Grant

/-! ### The invariant of the clients' world -/

theorem eq_of_pairwise_snd_lt {α : Type} {xs : List (α × ℕ)}
    (h : xs.Pairwise (fun a b => a.2 < b.2)) {a b : α × ℕ} (ha : a ∈ xs) (hb : b ∈ xs)
    (hab : a.2 = b.2) : a = b :=
  List.inj_on_of_nodup_map (List.pairwise_map.mpr (h.imp Nat.ne_of_lt)) ha hb hab

theorem LockPc.flags_self (pc : LockPc) :
    pc.createdNode pc = false ∧ pc.grantedLock pc = false ∧ pc.abandonedNode pc = false := by
  cases pc <;> exact ⟨rfl, rfl, rfl⟩

/-- An idle client records nothing. -/
theorem LockPc.flags_of_isIdle {pc : LockPc} (h : pc.isIdle = true) (pc' : LockPc) :
    pc.createdNode pc' = false ∧ pc.grantedLock pc' = false ∧ pc.abandonedNode pc' = false := by
  cases pc <;> first | exact ⟨rfl, rfl, rfl⟩ | cases h

theorem LockPc.isIdle_of_createdNode {pc : LockPc} {call : LockCall} {p : GoString}
    (h : pc.createdNode (.listing call p) = true) : pc.isIdle = false := by
  cases pc <;> first | rfl | cases h

theorem LockPc.flags_listing (pc : LockPc) (call : LockCall) (p : GoString) :
    pc.grantedLock (.listing call p) = false ∧ pc.abandonedNode (.listing call p) = false := by
  cases pc <;> exact ⟨rfl, rfl⟩

namespace LockWorld

section Invariant

variable {l : LockInternals} {w : LockWorld} {i : ℕ}

@[simp] theorem after_store (w : LockWorld) (i : ℕ) (r : InterProcessMutex × LockPc × Store) :
    (w.after i r).store = r.2.2 := rfl

@[simp] theorem after_mutexes (w : LockWorld) (i : ℕ) (r : InterProcessMutex × LockPc × Store) :
    (w.after i r).mutexes = Function.update w.mutexes i r.1 := rfl

@[simp] theorem after_pcs (w : LockWorld) (i : ℕ) (r : InterProcessMutex × LockPc × Store) :
    (w.after i r).pcs = Function.update w.pcs i r.2.1 := rfl

theorem after_seqs (w : LockWorld) (i : ℕ) (r : InterProcessMutex × LockPc × Store) :
    (w.after i r).seqs = if (w.pcs i).createdNode r.2.1 then
      Function.update w.seqs i (w.store.counter (w.mutexes i).internals.basePath) else w.seqs :=
  rfl

theorem after_created (w : LockWorld) (i : ℕ) (r : InterProcessMutex × LockPc × Store) :
    (w.after i r).created = if (w.pcs i).createdNode r.2.1 then
      w.created ++ [(i, w.store.counter (w.mutexes i).internals.basePath)] else w.created :=
  rfl

theorem after_grants (w : LockWorld) (i : ℕ) (r : InterProcessMutex × LockPc × Store) :
    (w.after i r).grants =
      if (w.pcs i).grantedLock r.2.1 then w.grants ++ [(i, w.seqs i)] else w.grants :=
  rfl

theorem after_abandoned (w : LockWorld) (i : ℕ) (r : InterProcessMutex × LockPc × Store) :
    (w.after i r).abandoned =
      if (w.pcs i).abandonedNode r.2.1 then w.abandoned ++ [w.seqs i] else w.abandoned :=
  rfl

theorem after_stay (w : LockWorld) (i : ℕ) : w.after i (w.mutexes i, w.pcs i, w.store) = w := by
  obtain ⟨hc, hg, ha⟩ := (w.pcs i).flags_self
  simp [after, hc, hg, ha]

/-- A step that records nothing keeps the ghost history. -/
theorem after_ghost_of_quiet (m' : InterProcessMutex) (st' : Store) {pc' : LockPc}
    (hc : (w.pcs i).createdNode pc' = false) (hg : (w.pcs i).grantedLock pc' = false)
    (ha : (w.pcs i).abandonedNode pc' = false) :
    (w.after i (m', pc', st')).seqs = w.seqs ∧ (w.after i (m', pc', st')).created = w.created ∧
      (w.after i (m', pc', st')).grants = w.grants ∧
      (w.after i (m', pc', st')).abandoned = w.abandoned := by
  simp [after_seqs, after_created, after_grants, after_abandoned, hc, hg, ha]

/-- What holds of client `i`.  Its mutex is on the shared internals and
counts its holds, and a busy client holds nothing.  While it waits, it waits
with its latest node, which is live, comes after every grant and was not left
behind.  While it holds the lock, its mutex names that node, which is live
and was granted; the node a releasing client deletes is that node. -/
structure ClientInvariant (l : LockInternals) (w : LockWorld) (i : ℕ) : Prop where
  internals : (w.mutexes i).internals = l
  range : -2 ^ 31 ≤ (w.mutexes i).lockCount ∧ (w.mutexes i).lockCount < 2 ^ 31
  busy : (w.pcs i).isIdle = false → (w.mutexes i).lockCount ≤ 0
  waiting : ∀ p, (w.pcs i).ourPath? = some p →
    p = l.lockNodePath (w.seqs i) ∧ (i, w.seqs i) ∈ w.created ∧ (w.store.lookup p).isSome ∧
      (∀ g ∈ w.grants, g.2 < w.seqs i) ∧ w.seqs i ∉ w.abandoned
  holding : 0 < (w.mutexes i).lockCount →
    (w.mutexes i).lockPath = l.lockNodePath (w.seqs i) ∧ (i, w.seqs i) ∈ w.grants ∧
      (w.store.lookup (w.mutexes i).lockPath).isSome
  deleting : ∀ p, w.pcs i = .deleting p →
    p = l.lockNodePath (w.seqs i) ∧ (i, w.seqs i) ∈ w.grants

/-- The invariant of the clients' world: what holds of every client, the
ghost history in increasing order of nodes below the counter, every grant
smaller than every node left behind, which stays, and one holder at most. -/
structure Invariant (l : LockInternals) (w : LockWorld) : Prop where
  client : ∀ i, ClientInvariant l w i
  createdOrder : w.created.Pairwise (fun a b => a.2 < b.2)
  createdBound : ∀ e ∈ w.created, e.2 < w.store.counter l.basePath
  grantsOrder : w.grants.Pairwise (fun a b => a.2 < b.2)
  grantsCreated : ∀ g ∈ w.grants, g ∈ w.created
  abandoned : ∀ s ∈ w.abandoned, (w.store.lookup (l.lockNodePath s)).isSome ∧
    (∀ g ∈ w.grants, g.2 < s) ∧ ∃ i, (i, s) ∈ w.created
  exclusive : ∀ i j, 0 < (w.mutexes i).lockCount → 0 < (w.mutexes j).lockCount → i = j

theorem invariant_init {m : InterProcessMutex} (st : Store) (hm : m.internals = l)
    (hc : m.lockCount = 0) : Invariant l (init m st) := by
  refine ⟨fun i => ⟨hm, ⟨by simp [init, hc], by simp [init, hc]⟩, fun _ => by simp [init, hc], ?_, ?_,
    ?_⟩, .nil, ?_, .nil, ?_, ?_, ?_⟩
  · intro p hp
    cases hp
  · intro hpos
    simp [init, hc] at hpos
  · intro p hp
    cases hp
  all_goals simp [init, hc]

theorem Invariant.created_inj (hinv : Invariant l w) {j k s : ℕ} (hj : (j, s) ∈ w.created)
    (hk : (k, s) ∈ w.created) : j = k :=
  congrArg Prod.fst (eq_of_pairwise_snd_lt hinv.createdOrder hj hk rfl)

/-- The node a releasing client deletes is its granted one. -/
theorem Invariant.mem_grants_of_deleting (hl : l.Standard) (hinv : Invariant l w)
    (hbound : w.store.counter l.basePath ≤ 10 ^ 10) {s : ℕ}
    (hpc : w.pcs i = .deleting (l.lockNodePath s)) (hs : s < w.store.counter l.basePath) :
    (i, s) ∈ w.grants := by
  obtain ⟨hpath, hmem⟩ := (hinv.client i).deleting _ hpc
  have hsi : w.seqs i < w.store.counter l.basePath :=
    hinv.createdBound _ (hinv.grantsCreated _ hmem)
  rw [hl.lockNodePath_injective (by omega) (by omega) hpath]
  exact hmem

/-- A step of another client keeps what holds of client `j`, when it keeps
`j`'s node and records no grant or abandoned node against `j`'s waiting. -/
theorem ClientInvariant.frame {w w' : LockWorld} {j : ℕ} (h : ClientInvariant l w j)
    (hm : w'.mutexes j = w.mutexes j) (hpc : w'.pcs j = w.pcs j) (hseq : w'.seqs j = w.seqs j)
    (hcreated : ∀ e ∈ w.created, e ∈ w'.created) (hgrants : ∀ g ∈ w.grants, g ∈ w'.grants)
    (hgc : ∀ g ∈ w.grants, g ∈ w.created)
    (hlive : (j, w.seqs j) ∈ w.created → (w.store.lookup (l.lockNodePath (w.seqs j))).isSome →
      (w'.store.lookup (l.lockNodePath (w.seqs j))).isSome)
    (hwait : ∀ p, (w.pcs j).ourPath? = some p →
      (∀ g ∈ w'.grants, g.2 < w.seqs j) ∧ w.seqs j ∉ w'.abandoned) :
    ClientInvariant l w' j where
  internals := hm ▸ h.internals
  range := hm ▸ h.range
  busy := by
    rw [hpc, hm]
    exact h.busy
  waiting := by
    intro p hp
    rw [hpc] at hp
    obtain ⟨rfl, hmem, hsome, -, -⟩ := h.waiting p hp
    rw [hseq]
    exact ⟨rfl, hcreated _ hmem, hlive hmem hsome, hwait _ hp⟩
  holding := by
    rw [hm, hseq]
    intro hpos
    obtain ⟨hpath, hmem, hsome⟩ := h.holding hpos
    rw [hpath] at hsome ⊢
    exact ⟨rfl, hgrants _ hmem, hlive (hgc _ hmem) hsome⟩
  deleting := by
    intro p hp
    rw [hpc] at hp
    obtain ⟨hpath, hmem⟩ := h.deleting p hp
    rw [hseq]
    exact ⟨hpath, hgrants _ hmem⟩

/-- A step that records nothing, removes no node but the one its client
deletes, keeps the counters and makes no new holder keeps the invariant, once
it holds of its own client afterwards. -/
theorem Invariant.of_quiet (hl : l.Standard) (hinv : Invariant l w)
    (hbound : w.store.counter l.basePath ≤ 10 ^ 10) {m' : InterProcessMutex} {pc' : LockPc}
    {st' : Store} (hc : (w.pcs i).createdNode pc' = false)
    (hg : (w.pcs i).grantedLock pc' = false) (ha : (w.pcs i).abandonedNode pc' = false)
    (hkeep : ∀ q, (w.store.lookup q).isSome → (st'.lookup q).isSome ∨ w.pcs i = .deleting q)
    (hcounters : st'.counters = w.store.counters)
    (hholder : 0 < m'.lockCount → 0 < (w.mutexes i).lockCount)
    (hself : ClientInvariant l (w.after i (m', pc', st')) i) :
    Invariant l (w.after i (m', pc', st')) := by
  obtain ⟨hseqs, hcreated, hgrants, habandoned⟩ := after_ghost_of_quiet m' st' hc hg ha
  have hcounter : st'.counter l.basePath = w.store.counter l.basePath := by
    simp only [Store.counter, hcounters]
  have hlive : ∀ s, s < w.store.counter l.basePath →
      (w.store.lookup (l.lockNodePath s)).isSome →
      (st'.lookup (l.lockNodePath s)).isSome ∨ (i, s) ∈ w.grants := by
    intro s hs hsome
    rcases hkeep _ hsome with h | h
    · exact .inl h
    · exact .inr (hinv.mem_grants_of_deleting hl hbound h hs)
  refine ⟨fun j => ?_, ?_, ?_, ?_, ?_, ?_, ?_⟩
  · by_cases hji : j = i
    · subst hji
      exact hself
    · refine (hinv.client j).frame (Function.update_of_ne hji _ _) (Function.update_of_ne hji _ _)
        (by rw [hseqs]) (by rw [hcreated]; exact fun e he => he)
        (by rw [hgrants]; exact fun g hg => hg) hinv.grantsCreated (fun hmem hsome => ?_)
        (fun p hp => ?_)
      · rcases hlive _ (hinv.createdBound _ hmem) hsome with h | h
        · exact h
        · exact absurd (hinv.created_inj hmem (hinv.grantsCreated _ h)) hji
      · obtain ⟨-, -, -, hlt, hnot⟩ := (hinv.client j).waiting p hp
        rw [hgrants, habandoned]
        exact ⟨hlt, hnot⟩
  · rw [hcreated]
    exact hinv.createdOrder
  · rw [hcreated, after_store, hcounter]
    exact hinv.createdBound
  · rw [hgrants]
    exact hinv.grantsOrder
  · rw [hgrants, hcreated]
    exact hinv.grantsCreated
  · rw [habandoned, hgrants, hcreated]
    intro s hs
    obtain ⟨hsome, hlt, k, hk⟩ := hinv.abandoned s hs
    refine ⟨?_, hlt, k, hk⟩
    rcases hlive s (hinv.createdBound _ hk) hsome with h | h
    · exact h
    · exact absurd (hlt _ h) (Nat.lt_irrefl s)
  · have hold : ∀ n, 0 < (Function.update w.mutexes i m' n).lockCount →
        0 < (w.mutexes n).lockCount := by
      intro n hn
      by_cases hni : n = i
      · subst hni
        rw [Function.update_self] at hn
        exact hholder hn
      · rwa [Function.update_of_ne hni] at hn
    intro j k hj hk
    exact hinv.exclusive j k (hold j hj) (hold k hk)

/-- What holds of a client after a step that records nothing. -/
theorem ClientInvariant.after_quiet {m' : InterProcessMutex} {pc' : LockPc} {st' : Store}
    (hc : (w.pcs i).createdNode pc' = false) (hg : (w.pcs i).grantedLock pc' = false)
    (ha : (w.pcs i).abandonedNode pc' = false) (hint : m'.internals = l)
    (hrange : -2 ^ 31 ≤ m'.lockCount ∧ m'.lockCount < 2 ^ 31)
    (hbusy : pc'.isIdle = false → m'.lockCount ≤ 0)
    (hwaiting : ∀ p, pc'.ourPath? = some p →
      p = l.lockNodePath (w.seqs i) ∧ (i, w.seqs i) ∈ w.created ∧ (st'.lookup p).isSome ∧
        (∀ g ∈ w.grants, g.2 < w.seqs i) ∧ w.seqs i ∉ w.abandoned)
    (hholding : 0 < m'.lockCount →
      m'.lockPath = l.lockNodePath (w.seqs i) ∧ (i, w.seqs i) ∈ w.grants ∧
        (st'.lookup m'.lockPath).isSome)
    (hdeleting : ∀ p, pc' = .deleting p →
      p = l.lockNodePath (w.seqs i) ∧ (i, w.seqs i) ∈ w.grants) :
    ClientInvariant l (w.after i (m', pc', st')) i := by
  obtain ⟨hseqs, hcreated, hgrants, habandoned⟩ := after_ghost_of_quiet m' st' hc hg ha
  constructor <;>
    simp only [after_mutexes, after_pcs, after_store, Function.update_self, hseqs, hcreated,
      hgrants, habandoned]
  · exact hint
  · exact hrange
  · exact hbusy
  · exact hwaiting
  · exact hholding
  · exact hdeleting

section Effects

variable (hl : l.Standard) (hinv : Invariant l w) (hbound : w.store.counter l.basePath ≤ 10 ^ 10)
include hl hinv hbound

theorem Invariant.of_move {pc' : LockPc}
    (hpath : pc'.ourPath? = none ∨ pc'.ourPath? = (w.pcs i).ourPath?)
    (hdel : ∀ p, pc' ≠ .deleting p)
    (hidle : pc'.isIdle = false → (w.pcs i).isIdle = false ∨ (w.mutexes i).lockCount ≤ 0)
    (hc : (w.pcs i).createdNode pc' = false) (hg : (w.pcs i).grantedLock pc' = false)
    (ha : (w.pcs i).abandonedNode pc' = false) :
    Invariant l (w.after i (w.mutexes i, pc', w.store)) := by
  have old := hinv.client i
  refine hinv.of_quiet hl hbound hc hg ha (fun q h => .inl h) rfl id
    (ClientInvariant.after_quiet hc hg ha old.internals old.range ?_ ?_ old.holding ?_)
  · intro hbusy
    rcases hidle hbusy with h | h
    · exact old.busy h
    · exact h
  · intro p hp
    rcases hpath with h | h
    · rw [h] at hp
      cases hp
    · exact old.waiting p (h ▸ hp)
  · intro p hp
    exact absurd hp (hdel p)

/-- A holder's nested acquire counts up in `int32`: after the count's
largest value it wraps to a negative count, and the client no longer holds
the lock, though its node stays. -/
theorem Invariant.of_reenter (hidle : (w.pcs i).isIdle = true) (hpos : 0 < (w.mutexes i).lockCount) :
    Invariant l (w.after i
      ({ w.mutexes i with lockCount := wrapInt32 ((w.mutexes i).lockCount + 1) },
        .acquireReturned true none, w.store)) := by
  have old := hinv.client i
  obtain ⟨hc, hg, ha⟩ := LockPc.flags_of_isIdle hidle (.acquireReturned true none)
  refine hinv.of_quiet hl hbound hc hg ha (fun q h => .inl h) rfl (fun _ => hpos)
    (ClientInvariant.after_quiet hc hg ha old.internals ⟨le_wrapInt32 _, wrapInt32_lt _⟩
      (fun h => by cases h) (fun p hp => by cases hp) (fun _ => old.holding hpos)
      (fun p hp => by cases hp))

theorem Invariant.of_releaseOne (hidle : (w.pcs i).isIdle = true)
    (hpos : 0 < (w.mutexes i).lockCount) :
    Invariant l (w.after i
      ({ w.mutexes i with lockCount := wrapInt32 ((w.mutexes i).lockCount - 1) },
        .releaseReturned none, w.store)) := by
  have old := hinv.client i
  obtain ⟨hc, hg, ha⟩ := LockPc.flags_of_isIdle hidle (.releaseReturned none)
  refine hinv.of_quiet hl hbound hc hg ha (fun q h => .inl h) rfl (fun _ => hpos)
    (ClientInvariant.after_quiet hc hg ha old.internals ⟨le_wrapInt32 _, wrapInt32_lt _⟩
      (fun h => by cases h) (fun p hp => by cases hp) (fun _ => old.holding hpos)
      (fun p hp => by cases hp))

/-- The last release starts deleting the node the client was granted. -/
theorem Invariant.of_releaseLast (hidle : (w.pcs i).isIdle = true)
    (hpos : 0 < (w.mutexes i).lockCount) :
    Invariant l (w.after i
      ({ w.mutexes i with lockCount := 0 }, .deleting (w.mutexes i).lockPath, w.store)) := by
  have old := hinv.client i
  obtain ⟨hc, hg, ha⟩ := LockPc.flags_of_isIdle hidle (.deleting (w.mutexes i).lockPath)
  obtain ⟨hpath, hmem, -⟩ := old.holding hpos
  refine hinv.of_quiet hl hbound hc hg ha (fun q h => .inl h) rfl (fun h => by cases h)
    (ClientInvariant.after_quiet hc hg ha old.internals ⟨by simp, by simp⟩ (fun _ => Int.le_refl 0)
      (fun p hp => by cases hp) (fun h => by cases h) ?_)
  intro p hp
  cases hp
  exact ⟨hpath, hmem⟩

theorem Invariant.of_makeDirs {pc' : LockPc} {st' : Store} (hbusy : (w.pcs i).isIdle = false)
    (hpath' : pc'.ourPath? = none) (hdel : ∀ p, pc' ≠ .deleting p)
    (hc : (w.pcs i).createdNode pc' = false) (hg : (w.pcs i).grantedLock pc' = false)
    (ha : (w.pcs i).abandonedNode pc' = false)
    (hkeep : ∀ q, (w.store.lookup q).isSome → (st'.lookup q).isSome)
    (hcounters : st'.counters = w.store.counters) :
    Invariant l (w.after i (w.mutexes i, pc', st')) := by
  have old := hinv.client i
  have hzero := old.busy hbusy
  refine hinv.of_quiet hl hbound hc hg ha (fun q h => .inl (hkeep q h)) hcounters id
    (ClientInvariant.after_quiet hc hg ha old.internals old.range (fun _ => hzero) ?_
      (fun h => by omega) (fun p hp => absurd hp (hdel p)))
  intro p hp
  rw [hpath'] at hp
  cases hp

/-- Deleting removes at most the deleting client's node. -/
theorem Invariant.of_delete {p : GoString} {st' : Store} {err : Option ZkError}
    (hpc : w.pcs i = .deleting p) (hst : st' = w.store ∨ st' = (w.store.delete p (-1)).2) :
    Invariant l (w.after i (w.mutexes i, .releaseReturned err, st')) := by
  have old := hinv.client i
  have hzero := old.busy (by rw [hpc]; rfl)
  have hc : (w.pcs i).createdNode (.releaseReturned err) = false := by rw [hpc]; rfl
  have hg : (w.pcs i).grantedLock (.releaseReturned err) = false := by rw [hpc]; rfl
  have ha : (w.pcs i).abandonedNode (.releaseReturned err) = false := by rw [hpc]; rfl
  have hkeep : ∀ q, (w.store.lookup q).isSome → (st'.lookup q).isSome ∨ w.pcs i = .deleting q := by
    intro q hq
    rcases hst with rfl | rfl
    · exact .inl hq
    · by_cases hqp : q = p
      · exact .inr (hqp ▸ hpc)
      · rw [Store.delete_frame (-1) hqp]
        exact .inl hq
  have hcounters : st'.counters = w.store.counters := by
    rcases hst with rfl | rfl
    · rfl
    · exact Store.delete_counters (-1)
  refine hinv.of_quiet hl hbound hc hg ha hkeep hcounters id
    (ClientInvariant.after_quiet hc hg ha old.internals old.range (fun h => by cases h)
      (fun p hp => by cases hp) (fun h => by omega) (fun p hp => by cases hp))

omit hbound in
/-- A created node is named after the counter, which it raises, and comes
after every node of the ghost history. -/
theorem Invariant.of_create {call : LockCall} {p : GoString} {st' : Store}
    (hcn : (w.pcs i).createdNode (.listing call p) = true)
    (hcreate : w.store.create (w.mutexes i).internals.lockPath
      ((w.mutexes i).lockNodeBytes.getD []) .ephemeralSequential = (.ok p, st')) :
    Invariant l (w.after i (w.mutexes i, .listing call p, st')) := by
  have old := hinv.client i
  have hok : (w.store.create (w.mutexes i).internals.lockPath
      ((w.mutexes i).lockNodeBytes.getD []) .ephemeralSequential).1 = .ok p := by rw [hcreate]
  have hlive : ∀ q, (w.store.lookup q).isSome → (st'.lookup q).isSome := by
    intro q hq
    have h := Store.create_isSome_lookup hq (w.mutexes i).internals.lockPath
      ((w.mutexes i).lockNodeBytes.getD []) .ephemeralSequential
    rwa [hcreate] at h
  have hnew : (st'.lookup p).isSome := by
    have h := Store.create_lookup_of_ok hok
    rwa [hcreate] at h
  have hparent : parentOf l.lockPath = l.basePath := by
    have h := parentOf_lockPath_append hl.valid (by simp : '/' ∉ ([] : GoString))
    rwa [List.append_nil, ← hl.lockPath] at h
  obtain ⟨-, -, hname, hst⟩ := Store.create_of_ok hok
  rw [hcreate, old.internals, hparent] at hst
  change st' = _ at hst
  rw [old.internals, hparent] at hname
  set c := w.store.counter l.basePath with hc
  have hp : p = l.lockNodePath c := by
    simpa [CreateMode.isSequential, LockInternals.lockNodePath] using hname
  have hcounter : st'.counter l.basePath = c + 1 := by
    rw [hst]
    simp only [CreateMode.isSequential, if_true]
    rw [Store.counter_cons, if_pos rfl]
  obtain ⟨hg, ha⟩ := (w.pcs i).flags_listing call p
  have hseqs :
      (w.after i (w.mutexes i, .listing call p, st')).seqs = Function.update w.seqs i c := by
    simp [after_seqs, hcn, old.internals, hc]
  have hcreated : (w.after i (w.mutexes i, .listing call p, st')).created =
      w.created ++ [(i, c)] := by
    simp [after_created, hcn, old.internals, hc]
  have hgrants : (w.after i (w.mutexes i, .listing call p, st')).grants = w.grants := by
    simp [after_grants, hg]
  have habandoned : (w.after i (w.mutexes i, .listing call p, st')).abandoned = w.abandoned := by
    simp [after_abandoned, ha]
  have hsub : ∀ e ∈ w.created, e ∈ w.created ++ [(i, c)] := fun e he => List.mem_append_left _ he
  refine ⟨fun j => ?_, ?_, ?_, ?_, ?_, ?_, ?_⟩
  · by_cases hji : j = i
    · subst hji
      have hzero := old.busy (LockPc.isIdle_of_createdNode hcn)
      constructor <;>
        simp only [after_mutexes, after_pcs, after_store, Function.update_self, hseqs, hcreated,
          hgrants, habandoned]
      · exact old.internals
      · exact old.range
      · exact fun _ => hzero
      · intro q hq
        cases hq
        refine ⟨hp, List.mem_append_right _ (List.mem_singleton_self _), hnew, ?_, ?_⟩
        · exact fun g hg => hinv.createdBound _ (hinv.grantsCreated _ hg)
        · intro hab
          obtain ⟨-, -, k, hk⟩ := hinv.abandoned c hab
          exact Nat.lt_irrefl c (hinv.createdBound _ hk)
      · intro hpos
        omega
      · intro q hq
        cases hq
    · refine (hinv.client j).frame (Function.update_of_ne hji _ _) (Function.update_of_ne hji _ _)
        (by rw [hseqs, Function.update_of_ne hji]) (by rw [hcreated]; exact hsub)
        (by rw [hgrants]; exact fun g hg => hg) hinv.grantsCreated (fun _ h => hlive _ h)
        (fun q hq => ?_)
      obtain ⟨-, -, -, hlt, hnot⟩ := (hinv.client j).waiting q hq
      rw [hgrants, habandoned]
      exact ⟨hlt, hnot⟩
  · rw [hcreated]
    exact List.pairwise_append.mpr ⟨hinv.createdOrder, List.pairwise_singleton _ _,
      fun a ha => List.forall_mem_singleton.mpr (hinv.createdBound a ha)⟩
  · rw [hcreated, after_store, hcounter, List.forall_mem_append, List.forall_mem_singleton]
    exact ⟨fun e he => Nat.lt_succ_of_lt (hinv.createdBound e he), Nat.lt_succ_self c⟩
  · rw [hgrants]
    exact hinv.grantsOrder
  · rw [hgrants, hcreated]
    exact fun g hg => hsub g (hinv.grantsCreated g hg)
  · rw [habandoned, hgrants, hcreated, after_store]
    intro s hs
    obtain ⟨hsome, hlt, k, hk⟩ := hinv.abandoned s hs
    exact ⟨hlive _ hsome, hlt, k, hsub _ hk⟩
  · simp only [after_mutexes, Function.update_eq_self]
    exact hinv.exclusive

/-- A grant goes to a waiting client whose node comes first: it comes after
every earlier grant and before every other live node, so no one else holds
the lock. -/
theorem Invariant.of_grant {call : LockCall} {p : GoString} {children : List GoString}
    {r : PredicateResults} (hpc : w.pcs i = .listing call p)
    (hchildren : (w.store.children (w.mutexes i).internals.basePath).1 = .ok children)
    (hgets : getsTheLock ((w.mutexes i).internals.sortChildren children)
      (p.drop ((w.mutexes i).internals.basePath.length + 1))
      (w.mutexes i).internals.maxLeases = .ok r)
    (hr : r.getsTheLock = true) :
    Invariant l (w.after i
      ({ w.mutexes i with lockPath := p, lockCount := 1 }, .acquireReturned true none,
        w.store)) := by
  have old := hinv.client i
  obtain ⟨hp, hmem, hsome, hbelow, hnotab⟩ := old.waiting p (by rw [hpc]; rfl)
  rw [old.internals] at hchildren
  rw [old.internals, hp] at hgets
  have hb : w.seqs i < w.store.counter l.basePath := hinv.createdBound _ hmem
  have hfirst : ∀ s, (w.store.lookup (l.lockNodePath s)).isSome →
      s < w.store.counter l.basePath → s ≠ w.seqs i → w.seqs i < s :=
    fun s hsome' hs hne => grant_lt hl hchildren hgets hr (by omega) (by omega) hsome' hne
  have hc : (w.pcs i).createdNode (.acquireReturned true none) = false := by rw [hpc]; rfl
  have hg : (w.pcs i).grantedLock (.acquireReturned true none) = true := by rw [hpc]; rfl
  have ha : (w.pcs i).abandonedNode (.acquireReturned true none) = false := by rw [hpc]; rfl
  set m' : InterProcessMutex := { w.mutexes i with lockPath := p, lockCount := 1 } with hm'
  have hseqs : (w.after i (m', .acquireReturned true none, w.store)).seqs = w.seqs := by
    simp [after_seqs, hc]
  have hcreated : (w.after i (m', .acquireReturned true none, w.store)).created = w.created := by
    simp [after_created, hc]
  have hgrants : (w.after i (m', .acquireReturned true none, w.store)).grants =
      w.grants ++ [(i, w.seqs i)] := by
    simp [after_grants, hg]
  have habandoned :
      (w.after i (m', .acquireReturned true none, w.store)).abandoned = w.abandoned := by
    simp [after_abandoned, ha]
  have hsub : ∀ g ∈ w.grants, g ∈ w.grants ++ [(i, w.seqs i)] :=
    fun g hg => List.mem_append_left _ hg
  have hholders : ∀ n,
      0 < ((w.after i (m', .acquireReturned true none, w.store)).mutexes n).lockCount → n = i := by
    intro n hn
    by_contra hni
    rw [after_mutexes, Function.update_of_ne hni] at hn
    obtain ⟨hpath, hgrant, hlive⟩ := (hinv.client n).holding hn
    have hlt := hbelow _ hgrant
    rw [hpath] at hlive
    exact Nat.lt_asymm hlt (hfirst _ hlive (hinv.createdBound _ (hinv.grantsCreated _ hgrant))
      (Nat.ne_of_lt hlt))
  refine ⟨fun j => ?_, ?_, ?_, ?_, ?_, ?_, ?_⟩
  · by_cases hji : j = i
    · subst hji
      constructor <;>
        simp only [after_mutexes, after_pcs, after_store, Function.update_self, hseqs,
          hcreated, hgrants, habandoned]
      · exact old.internals
      · exact ⟨by simp [hm'], by simp [hm']⟩
      · intro h
        cases h
      · intro q hq
        cases hq
      · exact fun _ => ⟨hp, List.mem_append_right _ (List.mem_singleton_self _), hsome⟩
      · intro q hq
        cases hq
    · refine (hinv.client j).frame (Function.update_of_ne hji _ _) (Function.update_of_ne hji _ _)
        (by rw [hseqs]) (by rw [hcreated]; exact fun e he => he) (by rw [hgrants]; exact hsub)
        hinv.grantsCreated (fun _ h => h) (fun q hq => ?_)
      obtain ⟨hpath, hmemj, hsomej, hlt, hnot⟩ := (hinv.client j).waiting q hq
      rw [hpath] at hsomej
      rw [hgrants, habandoned, List.forall_mem_append, List.forall_mem_singleton]
      exact ⟨⟨hlt, hfirst _ hsomej (hinv.createdBound _ hmemj)
        (fun heq => hji (hinv.created_inj hmemj (heq ▸ hmem)))⟩, hnot⟩
  · rw [hcreated]
    exact hinv.createdOrder
  · rw [hcreated]
    exact hinv.createdBound
  · rw [hgrants]
    exact List.pairwise_append.mpr ⟨hinv.grantsOrder, List.pairwise_singleton _ _,
      fun a ha => List.forall_mem_singleton.mpr (hbelow a ha)⟩
  · rw [hgrants, hcreated, List.forall_mem_append, List.forall_mem_singleton]
    exact ⟨hinv.grantsCreated, hmem⟩
  · rw [habandoned, hgrants, hcreated]
    intro s hs
    obtain ⟨hsomes, hlt, k, hk⟩ := hinv.abandoned s hs
    have hafter : w.seqs i < s :=
      hfirst s hsomes (hinv.createdBound _ hk) (fun heq => hnotab (heq ▸ hs))
    exact ⟨hsomes, List.forall_mem_append.mpr ⟨hlt, List.forall_mem_singleton.mpr hafter⟩, k, hk⟩
  · intro j k hj hk
    rw [hholders j hj, hholders k hk]

omit hl hbound in
/-- An acquire that ends without the lock leaves its node behind. -/
theorem Invariant.of_abandon {call : LockCall} {p : GoString} {err : Option ZkError}
    (hpc : w.pcs i = .listing call p) :
    Invariant l (w.after i (w.mutexes i, .acquireReturned false err, w.store)) := by
  have old := hinv.client i
  obtain ⟨rfl, hmem, hsome, hbelow, -⟩ := old.waiting p (by rw [hpc]; rfl)
  have hzero := old.busy (by rw [hpc]; rfl)
  have hc : (w.pcs i).createdNode (.acquireReturned false err) = false := by rw [hpc]; rfl
  have hg : (w.pcs i).grantedLock (.acquireReturned false err) = false := by rw [hpc]; rfl
  have ha : (w.pcs i).abandonedNode (.acquireReturned false err) = true := by rw [hpc]; rfl
  have hseqs : (w.after i (w.mutexes i, .acquireReturned false err, w.store)).seqs = w.seqs := by
    simp [after_seqs, hc]
  have hcreated :
      (w.after i (w.mutexes i, .acquireReturned false err, w.store)).created = w.created := by
    simp [after_created, hc]
  have hgrants :
      (w.after i (w.mutexes i, .acquireReturned false err, w.store)).grants = w.grants := by
    simp [after_grants, hg]
  have habandoned : (w.after i (w.mutexes i, .acquireReturned false err, w.store)).abandoned =
      w.abandoned ++ [w.seqs i] := by
    simp [after_abandoned, ha]
  refine ⟨fun j => ?_, ?_, ?_, ?_, ?_, ?_, ?_⟩
  · by_cases hji : j = i
    · subst hji
      constructor <;>
        simp only [after_mutexes, after_pcs, after_store, Function.update_self, hseqs,
          hcreated, hgrants, habandoned]
      · exact old.internals
      · exact old.range
      · intro h
        cases h
      · intro q hq
        cases hq
      · intro hpos
        omega
      · intro q hq
        cases hq
    · refine (hinv.client j).frame (Function.update_of_ne hji _ _) (Function.update_of_ne hji _ _)
        (by rw [hseqs]) (by rw [hcreated]; exact fun e he => he)
        (by rw [hgrants]; exact fun g hg => hg) hinv.grantsCreated (fun _ h => h) (fun q hq => ?_)
      obtain ⟨-, hmemj, -, hlt, hnot⟩ := (hinv.client j).waiting q hq
      rw [hgrants, habandoned]
      refine ⟨hlt, fun hab => ?_⟩
      rcases List.mem_append.mp hab with h | h
      · exact hnot h
      · rw [List.mem_singleton] at h
        exact hji (hinv.created_inj hmemj (h ▸ hmem))
  · rw [hcreated]
    exact hinv.createdOrder
  · rw [hcreated]
    exact hinv.createdBound
  · rw [hgrants]
    exact hinv.grantsOrder
  · rw [hgrants, hcreated]
    exact hinv.grantsCreated
  · rw [habandoned, hgrants, hcreated, List.forall_mem_append, List.forall_mem_singleton]
    exact ⟨hinv.abandoned, hsome, hbelow, i, hmem⟩
  · simp only [after_mutexes, Function.update_eq_self]
    exact hinv.exclusive

end Effects

end Invariant

/-! ### Every run -/

section Run

variable (policy : RetryPolicy) {l : LockInternals}

theorem step_effect (w : LockWorld) (e : ClientEvent) :
    InterProcessMutex.Effect (w.mutexes e.id) (w.pcs e.id) w.store
      ((w.mutexes e.id).step policy (w.pcs e.id) e.ev w.store) :=
  InterProcessMutex.step_effect _ policy _ _

/-- A step never lowers a counter, and raises it by one at most. -/
theorem counter_step (w : LockWorld) (e : ClientEvent) (q : GoString) :
    w.store.counter q ≤ (w.step policy e).store.counter q ∧
      (w.step policy e).store.counter q ≤ w.store.counter q + 1 := by
  have heff := step_effect policy w e
  unfold step
  generalize (w.mutexes e.id).step policy (w.pcs e.id) e.ev w.store = r at heff ⊢
  cases heff
  case create p st' _ hcreate =>
    have h := @Store.counter_create w.store (w.mutexes e.id).internals.lockPath
      ((w.mutexes e.id).lockNodeBytes.getD []) .ephemeralSequential q
    rwa [hcreate] at h
  case makeDirs st' _ _ _ _ _ _ _ _ hcounters =>
    have h : st'.counter q = w.store.counter q := by simp only [Store.counter, hcounters]
    simp only [after_store, h]
    omega
  case delete p st' _ _ hst =>
    rcases hst with rfl | rfl
    · simp only [after_store]
      omega
    · have h : (w.store.delete p (-1)).2.counter q = w.store.counter q := by
        simp only [Store.counter, Store.delete_counters]
      simp only [after_store, h]
      omega
  all_goals exact ⟨Nat.le_refl _, Nat.le_succ _⟩

/-- Over a run of `n` steps a counter grows by `n` at most. -/
theorem counter_foldl (es : List ClientEvent) (w : LockWorld) (q : GoString) :
    (es.foldl (step policy) w).store.counter q ≤ w.store.counter q + es.length := by
  induction es generalizing w with
  | nil => simp
  | cons e es ih =>
    have hstep := (counter_step policy w e q).2
    have hrest := ih (w.step policy e)
    rw [List.foldl_cons, List.length_cons]
    omega

/-- Every step keeps the invariant while the counter stays within ten
digits. -/
theorem Invariant.step (hl : l.Standard) {w : LockWorld} (hinv : Invariant l w)
    (hbound : w.store.counter l.basePath ≤ 10 ^ 10) (e : ClientEvent) :
    Invariant l (w.step policy e) := by
  have heff := step_effect policy w e
  unfold LockWorld.step
  generalize (w.mutexes e.id).step policy (w.pcs e.id) e.ev w.store = r at heff ⊢
  cases heff with
  | stay =>
    rw [after_stay]
    exact hinv
  | move hpath hdel hidle hc hg ha => exact hinv.of_move hl hbound hpath hdel hidle hc hg ha
  | reenter hidle hpos => exact hinv.of_reenter hl hbound hidle hpos
  | releaseOne hidle hpos _ => exact hinv.of_releaseOne hl hbound hidle hpos
  | releaseLast hidle hpos _ => exact hinv.of_releaseLast hl hbound hidle hpos
  | releaseNegative _ hpos hneg =>
    have hrange := (hinv.client e.id).range
    rw [wrapInt32_of_fits (by omega) (by omega)] at hneg
    omega
  | create hcn hcreate => exact hinv.of_create hl hcn hcreate
  | makeDirs hbusy _ hpath' hdel hc hg ha hkeep hcounters =>
    exact hinv.of_makeDirs hl hbound hbusy hpath' hdel hc hg ha hkeep hcounters
  | grant hpc hchildren hgets hr => exact hinv.of_grant hl hbound hpc hchildren hgets hr
  | abandon hpc => exact hinv.of_abandon hpc
  | delete hpc hst => exact hinv.of_delete hl hbound hpc hst

/-- The invariant holds of every reachable world whose counter is within ten
digits: the counters never go down, so it was within them all along. -/
theorem invariant_inductive (hl : l.Standard) {m : InterProcessMutex} {st : Store}
    (hm : m.internals = l) (hc : m.lockCount = 0) :
    TransitionSystem.Inductive (system policy m st)
      (fun w => w.store.counter l.basePath ≤ 10 ^ 10 → Invariant l w) where
  init := fun _ => invariant_init st hm hc
  step := by
    rintro w e w' hP rfl hbound
    have hbound' := Nat.le_trans (counter_step policy w e l.basePath).1 hbound
    exact (hP hbound').step policy hl hbound' e

end Run

/-- What the clients of one lock observe: at most one of them holds it, and
the lock goes to their nodes in increasing order. -/
structure LockSafety (w : LockWorld) : Prop where
  exclusive : ∀ i j, (w.mutexes i).isAcquiredInThisProcess = true →
    (w.mutexes j).isAcquiredInThisProcess = true → i = j
  grantsOrdered : w.grants.Pairwise (fun a b => a.2 < b.2)

theorem Invariant.lockSafety {l : LockInternals} {w : LockWorld} (hinv : Invariant l w) :
    LockSafety w where
  exclusive := by
    intro i j hi hj
    simp only [InterProcessMutex.isAcquiredInThisProcess, decide_eq_true_eq] at hi hj
    exact hinv.exclusive i j hi hj
  grantsOrdered := hinv.grantsOrder

end LockWorld

theorem lock_interleavings_mutualExclusion {policy : RetryPolicy} {basePath : GoString}
    {m : InterProcessMutex} {st : Store} {w : LockWorld}
    (hm : newInterProcessMutex basePath = .ok m)
    (hw : TransitionSystem.Reachable (LockWorld.system policy m st) w)
    (hbound : w.store.counter basePath ≤ 10 ^ 10) : LockWorld.LockSafety w := by
  obtain ⟨hl, hbase, hcount⟩ := newInterProcessMutex_standard hm
  rw [← hbase] at hbound
  exact (TransitionSystem.Reachable.of_inductive
    (LockWorld.invariant_inductive policy hl rfl hcount) hw hbound).lockSafety

/-- A hand-off on `/l`: client 0 gets the lock, client 1 queues behind it,
client 0 releases, and client 1 gets the lock. -/
theorem lock_interleavings_mutualExclusion_handoff :
    let m : InterProcessMutex :=
      ⟨"/l".toList, ⟨"/l".toList, lockPrefix, joinPath "/l".toList [lockPrefix], 1⟩, [], 0, none⟩
    let st : Store := ⟨[(pathSeparator, ⟨[], 0⟩), ("/l".toList, ⟨[], 0⟩)], []⟩
    let w := ([⟨0, .acquire .acquire⟩, ⟨0, .advance none 0⟩, ⟨0, .advance none 0⟩,
      ⟨1, .acquire .acquire⟩, ⟨1, .advance none 0⟩, ⟨1, .advance none 0⟩,
      ⟨0, .release⟩, ⟨0, .advance none 0⟩,
      ⟨1, .advance none 0⟩, ⟨1, .advance none 0⟩, ⟨1, .advance none 0⟩] : List ClientEvent).foldl
        (LockWorld.step (newRetryOneTime 0)) (LockWorld.init m st)
    newInterProcessMutex "/l".toList = .ok m ∧
      TransitionSystem.Reachable (LockWorld.system (newRetryOneTime 0) m st) w ∧
      w.store.counter "/l".toList ≤ 10 ^ 10 ∧ LockWorld.LockSafety w := by
  intro m st w
  have hm : newInterProcessMutex "/l".toList = .ok m := rfl
  have hw : TransitionSystem.Reachable (LockWorld.system (newRetryOneTime 0) m st) w :=
    TransitionSystem.reachable_foldl _
  have hbound : w.store.counter "/l".toList ≤ 10 ^ 10 :=
    Nat.le_trans (LockWorld.counter_foldl _ _ _ _) (by decide)
  exact ⟨hm, hw, hbound, lock_interleavings_mutualExclusion hm hw hbound⟩

/-- A node left behind by an acquire that ended without the lock stays, and
no client whose node came after it ever gets the lock. -/
theorem abandoned_node_blocks_later_grants {policy : RetryPolicy} {basePath : GoString}
    {m : InterProcessMutex} {st : Store} {w : LockWorld}
    (hm : newInterProcessMutex basePath = .ok m)
    (hw : TransitionSystem.Reachable (LockWorld.system policy m st) w)
    (hbound : w.store.counter basePath ≤ 10 ^ 10) {s : ℕ} (hs : s ∈ w.abandoned) :
    (w.store.lookup (m.internals.lockNodePath s)).isSome ∧
      ∀ e ∈ w.created, s < e.2 → e ∉ w.grants := by
  obtain ⟨hl, hbase, hcount⟩ := newInterProcessMutex_standard hm
  rw [← hbase] at hbound
  have hinv := TransitionSystem.Reachable.of_inductive
    (LockWorld.invariant_inductive policy hl rfl hcount) hw hbound
  obtain ⟨hlive, hbelow, -⟩ := hinv.abandoned s hs
  refine ⟨hlive, fun e _ hlt hgrant => ?_⟩
  exact Nat.lt_asymm hlt (hbelow e hgrant)

theorem acquire_leaves_node_when_listing_fails :
    let m : InterProcessMutex :=
      ⟨"/l".toList, ⟨"/l".toList, lockPrefix, joinPath "/l".toList [lockPrefix], 1⟩, [], 0, none⟩
    let st : Store := ⟨[(pathSeparator, ⟨[], 0⟩), ("/l".toList, ⟨[], 0⟩)], []⟩
    let w := ([⟨0, .acquire .acquire⟩, ⟨0, .advance none 0⟩,
      ⟨0, .advance (some .errConnectionLoss) 0⟩] : List ClientEvent).foldl
        (LockWorld.step (newRetryOneTime 0)) (LockWorld.init m st)
    w.pcs 0 = .acquireReturned false
        (some (.message "Lost connection while trying to acquire lock: /l")) ∧
      (w.store.lookup "/l/lock-0000000000".toList).isSome ∧ w.abandoned = [0] := by
  decide

end Curator
