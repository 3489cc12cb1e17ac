import Curator.Recipes.LockConcurrent

/-!
# The owner's bookkeeping of a re-entrant mutex

One goroutine calls `Acquire`, `AcquireTimeout` and `Release` on one
`InterProcessMutex`, one call at a time.  Every request it sends meets a store
that anyone else may have changed since, so each `attemptLock` and each node
deletion may have any outcome.

Ghost state records what the calls answered: the successful acquires and the
successful releases since `lockCount` was last 0, the node obtained by the
acquire that raised the count from 0, that node at each release that brought
the count from 1 to 0, and the node of every deletion the client sent.  Every
run keeps `OwnerWorld.Invariant`: `lockCount` is an `int32`, so the nested
acquire at its largest value wraps it to `-2^31`, where it stays until a new
attempt gets the lock; it is otherwise never negative and at most the
successful acquires minus the successful releases, which it is while it never
wrapped; `lockPath` is the node of the acquire that raised it from 0, and the
deletions sent, followed by the one about to be sent, are the nodes of the
releases that brought it from 1 to 0.
-/

namespace Curator

/-- The answer of the call a step ends, if it ends one: a call that answers at
once, or the last request of a running call.  An idle client sends nothing on
an `advance`, and a call scheduled while another runs does nothing. -/
def LockPc.endsWith (pc : LockPc) (ev : LockEvent) (pc' : LockPc) : Option LockPc :=
  match ev, pc.isIdle, pc'.isIdle with
  | .advance _ _, true, _ => none
  | .makeDirs _ _, true, _ => none
  | _, _, true => some pc'
  | _, _, false => none

/-- The node a client is about to delete. -/
def LockPc.deletingPath? : LockPc → Option GoString
  | .deleting p => some p
  | _ => none

/-- The node whose deletion a step sends. -/
def LockPc.deletes : LockPc → LockEvent → Option GoString
  | .deleting p, .advance _ _ => some p
  | _, _ => none

namespace LockPc

variable {pc pc' : LockPc} {ev : LockEvent}

theorem endsWith_eq_none_or (pc : LockPc) (ev : LockEvent) (pc' : LockPc) :
    pc.endsWith ev pc' = none ∨ pc.endsWith ev pc' = some pc' := by
  unfold endsWith
  split <;> simp

theorem endsWith_ne_of_ne {a : LockPc} (h : pc' ≠ a) : pc.endsWith ev pc' ≠ some a := by
  rcases endsWith_eq_none_or pc ev pc' with h' | h' <;> rw [h'] <;> simp [h]

theorem endsWith_of_busy (h : pc'.isIdle = false) : pc.endsWith ev pc' = none := by
  unfold endsWith
  split <;> simp_all

/-- A call that ends at an idle place answers it, whatever the event, once
the client was busy. -/
theorem endsWith_of_busy_idle (hpc : pc.isIdle = false) (hpc' : pc'.isIdle = true) :
    pc.endsWith ev pc' = some pc' := by
  unfold endsWith
  split <;> simp_all

theorem endsWith_call_idle (hpc' : pc'.isIdle = true)
    (hev : ∀ fault elapsed, ev ≠ .advance fault elapsed)
    (hdirs : ∀ faults elapsed, ev ≠ .makeDirs faults elapsed) : pc.endsWith ev pc' = some pc' := by
  unfold endsWith
  split
  · next fault elapsed _ => exact absurd rfl (hev fault elapsed)
  · next faults elapsed _ => exact absurd rfl (hdirs faults elapsed)
  · rfl
  · simp_all

@[simp] theorem deletingPath?_deleting (p : GoString) : (deleting p).deletingPath? = some p := rfl

@[simp] theorem deletingPath?_acquireReturned (locked : Bool) (err : Option ZkError) :
    (acquireReturned locked err).deletingPath? = none := rfl

@[simp] theorem deletingPath?_releaseReturned (err : Option ZkError) :
    (releaseReturned err).deletingPath? = none := rfl

theorem deletingPath?_of_isIdle (h : pc.isIdle = true) : pc.deletingPath? = none := by
  cases pc <;> first | rfl | cases h

theorem deletes_eq_none (h : pc.deletingPath? = none) (ev : LockEvent) : pc.deletes ev = none := by
  cases pc <;> first | rfl | cases h

theorem deletes_call {p : GoString} (h : pc.deletes ev = some p) :
    pc = .deleting p ∧ ∃ fault elapsed, ev = .advance fault elapsed := by
  unfold deletes at h
  split at h
  · next fault elapsed => exact ⟨by cases h; rfl, fault, elapsed, rfl⟩
  · cases h

end LockPc

/-! ### What one step does to the owner's bookkeeping -/

namespace InterProcessMutex

/-- The steps of a client, by what they do to its count and its lock path,
what the call they end answers, and which deletion they send. -/
inductive OwnerStep (m : InterProcessMutex) (pc : LockPc) (ev : LockEvent) :
    InterProcessMutex × LockPc → Prop
  | stay : pc.endsWith ev pc = none → pc.deletes ev = none → OwnerStep m pc ev (m, pc)
  /-- A move that keeps the mutex, answers no success and neither starts nor
  sends a deletion. -/
  | move {pc' : LockPc} : pc.deletingPath? = none → pc'.deletingPath? = none →
      (pc'.isIdle = false → pc.isIdle = false ∨ m.lockCount ≤ 0) →
      pc.endsWith ev pc' ≠ some (.acquireReturned true none) →
      pc.endsWith ev pc' ≠ some (.releaseReturned none) →
      OwnerStep m pc ev (m, pc')
  | reenter {call : LockCall} : pc.isIdle = true → 0 < m.lockCount → ev = .acquire call →
      OwnerStep m pc ev ({ m with lockCount := wrapInt32 (m.lockCount + 1) }, .acquireReturned true none)
  | releaseOne : pc.isIdle = true → 0 < m.lockCount → 0 < wrapInt32 (m.lockCount - 1) → ev = .release →
      OwnerStep m pc ev ({ m with lockCount := wrapInt32 (m.lockCount - 1) }, .releaseReturned none)
  | releaseLast : pc.isIdle = true → 0 < m.lockCount → wrapInt32 (m.lockCount - 1) = 0 →
      ev = .release → OwnerStep m pc ev ({ m with lockCount := 0 }, .deleting m.lockPath)
  | releaseNegative {err : Option ZkError} : pc.isIdle = true → 0 < m.lockCount →
      wrapInt32 (m.lockCount - 1) < 0 → ev = .release →
      OwnerStep m pc ev ({ m with lockCount := wrapInt32 (m.lockCount - 1) }, .releaseReturned err)
  | grant {call : LockCall} {p : GoString} : pc = .listing call p →
      OwnerStep m pc ev ({ m with lockPath := p, lockCount := 1 }, .acquireReturned true none)
  | delete {p : GoString} {err : Option ZkError} : pc.deletes ev = some p →
      OwnerStep m pc ev (m, .releaseReturned err)

section OwnerSteps

variable (m : InterProcessMutex) (policy : RetryPolicy) {st : Store}

/-- A busy client moving to a place that is no success and no deletion. -/
theorem ownerStep_busy {pc pc' : LockPc} {ev : LockEvent} (hpc : pc.isIdle = false)
    (hdel : pc.deletingPath? = none) (hdel' : pc'.deletingPath? = none)
    (hacq : pc' ≠ .acquireReturned true none) (hrel : pc' ≠ .releaseReturned none) :
    OwnerStep m pc ev (m, pc') :=
  .move hdel hdel' (fun _ => .inl hpc) (LockPc.endsWith_ne_of_ne hacq)
    (LockPc.endsWith_ne_of_ne hrel)

theorem ownerStep_attemptLockError {pc : LockPc} {ev : LockEvent} (hpc : pc.isIdle = false)
    (hdel : pc.deletingPath? = none) (call : LockCall) (retryCount : ℕ) (e : ZkError)
    (elapsed : Duration) :
    OwnerStep m pc ev (m, m.attemptLockError policy call retryCount e elapsed) := by
  rcases m.attemptLockError_cases policy call retryCount e elapsed with h | ⟨err, h⟩ <;> rw [h]
  · exact m.ownerStep_busy hpc hdel rfl (by simp) (by simp)
  · exact m.ownerStep_busy hpc hdel rfl (by simp) (by simp)

theorem ownerStep_answer_false {pc : LockPc} {ev : LockEvent} (hpc : pc.isIdle = false)
    (hdel : pc.deletingPath? = none) (call : LockCall) (err : Option ZkError) :
    OwnerStep m pc ev (m, m.answer call false err) := by
  obtain ⟨err', h⟩ := m.answer_false call err
  rw [h]
  exact m.ownerStep_busy hpc hdel rfl (by simp) (by simp)

theorem ownerStep_acquire (pc : LockPc) (call : LockCall) :
    OwnerStep m pc (.acquire call)
      ((m.step policy pc (.acquire call) st).1, (m.step policy pc (.acquire call) st).2.1) := by
  rcases m.step_acquire_cases policy pc call st with
    ⟨hidle, h⟩ | ⟨hidle, hpos, h⟩ | ⟨hidle, hcount, h⟩ <;> rw [h]
  · exact .stay (LockPc.endsWith_of_busy hidle) (by cases pc <;> rfl)
  · exact .reenter hidle hpos rfl
  · exact .move (LockPc.deletingPath?_of_isIdle hidle) rfl (fun _ => .inr hcount)
      (LockPc.endsWith_ne_of_ne (by simp)) (LockPc.endsWith_ne_of_ne (by simp))

theorem ownerStep_release (pc : LockPc) :
    OwnerStep m pc .release ((m.step policy pc .release st).1, (m.step policy pc .release st).2.1) := by
  rcases m.step_release_cases policy pc st with
    ⟨hidle, h⟩ | ⟨hidle, hpos, hmore, h⟩ | ⟨hidle, hpos, hzero, h⟩ | ⟨hidle, hpos, hneg, h⟩ |
      ⟨hidle, -, h⟩ <;> rw [h]
  · exact .stay (LockPc.endsWith_of_busy hidle) (by cases pc <;> rfl)
  · exact .releaseOne hidle hpos hmore rfl
  · exact .releaseLast hidle hpos hzero rfl
  · exact .releaseNegative hidle hpos hneg rfl
  · exact .move (LockPc.deletingPath?_of_isIdle hidle) rfl (fun h => by cases h)
      (LockPc.endsWith_ne_of_ne (by simp)) (LockPc.endsWith_ne_of_ne (by simp))

theorem ownerStep_creating (call : LockCall) (retryCount : ℕ) (fault : Option ZkError)
    (elapsed : Duration) :
    OwnerStep m (.creating call retryCount) (.advance fault elapsed)
      ((m.step policy (.creating call retryCount) (.advance fault elapsed) st).1,
        (m.step policy (.creating call retryCount) (.advance fault elapsed) st).2.1) := by
  simp only [step.eq_def, LockPc.isIdle]
  split
  · exact m.ownerStep_busy rfl rfl rfl (by simp) (by simp)
  · exact m.ownerStep_busy rfl rfl rfl (by simp) (by simp)
  · exact m.ownerStep_attemptLockError policy rfl rfl call retryCount _ elapsed

theorem ownerStep_makingDirs (call : LockCall) (retryCount : ℕ) (faults : ℕ → Option ZkError)
    (elapsed : Duration) :
    OwnerStep m (.makingDirs call retryCount) (.makeDirs faults elapsed)
      ((m.step policy (.makingDirs call retryCount) (.makeDirs faults elapsed) st).1,
        (m.step policy (.makingDirs call retryCount) (.makeDirs faults elapsed) st).2.1) := by
  simp only [step.eq_def, LockPc.isIdle]
  split
  · exact m.ownerStep_attemptLockError policy rfl rfl call retryCount _ elapsed
  · exact m.ownerStep_busy rfl rfl rfl (by simp) (by simp)

theorem ownerStep_creatingAgain (call : LockCall) (retryCount : ℕ) (fault : Option ZkError)
    (elapsed : Duration) :
    OwnerStep m (.creatingAgain call retryCount) (.advance fault elapsed)
      ((m.step policy (.creatingAgain call retryCount) (.advance fault elapsed) st).1,
        (m.step policy (.creatingAgain call retryCount) (.advance fault elapsed) st).2.1) := by
  simp only [step.eq_def, LockPc.isIdle]
  split
  · exact m.ownerStep_busy rfl rfl rfl (by simp) (by simp)
  · exact m.ownerStep_attemptLockError policy rfl rfl call retryCount _ elapsed

theorem ownerStep_listing (call : LockCall) (ourPath : GoString) (fault : Option ZkError)
    (elapsed : Duration) :
    OwnerStep m (.listing call ourPath) (.advance fault elapsed)
      ((m.step policy (.listing call ourPath) (.advance fault elapsed) st).1,
        (m.step policy (.listing call ourPath) (.advance fault elapsed) st).2.1) := by
  simp only [step.eq_def, LockPc.isIdle]
  split
  · simp only [afterLockLoop, Bool.false_eq_true, if_false]
    exact m.ownerStep_answer_false rfl rfl call none
  · split
    · simp only [afterLockLoop, Bool.false_eq_true, if_false]
      exact m.ownerStep_answer_false rfl rfl call none
    · split
      · simp only [afterLockLoop, if_true, answer_true]
        exact .grant rfl
      · exact m.ownerStep_busy rfl rfl rfl (by simp) (by simp)

theorem ownerStep_deleting (path : GoString) (fault : Option ZkError) (elapsed : Duration) :
    OwnerStep m (.deleting path) (.advance fault elapsed)
      ((m.step policy (.deleting path) (.advance fault elapsed) st).1,
        (m.step policy (.deleting path) (.advance fault elapsed) st).2.1) := by
  simp only [step.eq_def, LockPc.isIdle]
  exact .delete rfl

/-- Every step of a client is one of its owner steps. -/
theorem step_ownerStep (pc : LockPc) (ev : LockEvent) :
    OwnerStep m pc ev ((m.step policy pc ev st).1, (m.step policy pc ev st).2.1) := by
  cases ev with
  | acquire call => exact m.ownerStep_acquire policy pc call
  | release => exact m.ownerStep_release policy pc
  | advance fault elapsed =>
    cases pc with
    | creating call retryCount => exact m.ownerStep_creating policy call retryCount fault elapsed
    | creatingAgain call retryCount =>
      exact m.ownerStep_creatingAgain policy call retryCount fault elapsed
    | listing call ourPath => exact m.ownerStep_listing policy call ourPath fault elapsed
    | watching call ourPath pathToWatch =>
      simp only [step.eq_def, LockPc.isIdle]
      exact m.ownerStep_busy rfl rfl rfl (by simp) (by simp)
    | waiting call ourPath =>
      simp only [step.eq_def, LockPc.isIdle]
      exact m.ownerStep_busy rfl rfl rfl (by simp) (by simp)
    | deleting path => exact m.ownerStep_deleting policy path fault elapsed
    | idle | acquireReturned _ _ | releaseReturned _ | makingDirs _ _ => exact .stay rfl rfl
  | makeDirs faults elapsed =>
    cases pc with
    | makingDirs call retryCount => exact m.ownerStep_makingDirs policy call retryCount faults elapsed
    | _ => exact .stay rfl rfl

end OwnerSteps

end InterProcessMutex

/-! ### The owner's world -/

/-- One goroutine's mutex and place, with the ghost state its calls record. -/
structure OwnerWorld where
  mutex : InterProcessMutex
  pc : LockPc
  /-- Successful acquires since `lockCount` was last 0. -/
  acquires : ℕ
  /-- Successful releases since `lockCount` was last 0. -/
  releases : ℕ
  /-- The node obtained by the acquire that last raised the count from 0. -/
  grantPath : GoString
  /-- That node, at each release that brought the count from 1 to 0. -/
  zeroed : List GoString
  /-- The node of every deletion the client sent. -/
  deletions : List GoString

namespace OwnerWorld

variable (policy : RetryPolicy)

/-- The goroutine, idle with the mutex `m`. -/
def init (m : InterProcessMutex) : OwnerWorld := ⟨m, .idle, 0, 0, [], [], []⟩

/-- The world after a step under `ev` moved the client to `r`, with what the
step records. -/
def after (w : OwnerWorld) (ev : LockEvent) (r : InterProcessMutex × LockPc) : OwnerWorld :=
  let answer := w.pc.endsWith ev r.2
  { mutex := r.1
    pc := r.2
    acquires := if r.1.lockCount = 0 then 0
      else if answer = some (.acquireReturned true none) then w.acquires + 1 else w.acquires
    releases := if r.1.lockCount = 0 then 0
      else if answer = some (.releaseReturned none) then w.releases + 1 else w.releases
    grantPath := if w.mutex.lockCount ≤ 0 ∧ 0 < r.1.lockCount then w.pc.ourPath?.getD w.grantPath
      else w.grantPath
    zeroed := if w.mutex.lockCount = 1 ∧ r.1.lockCount = 0 then w.zeroed ++ [w.grantPath]
      else w.zeroed
    deletions := w.deletions ++ (w.pc.deletes ev).toList }

/-- A step of the goroutine: the event it is scheduled with, and the store
its request meets. -/
def step (w : OwnerWorld) (e : LockEvent × Store) : OwnerWorld :=
  let r := w.mutex.step policy w.pc e.1 e.2
  w.after e.1 (r.1, r.2.1)

/-- The goroutine calling on the mutex `m`. -/
def system (m : InterProcessMutex) : TransitionSystem.System OwnerWorld (LockEvent × Store) :=
  TransitionSystem.System.ofFun (init m) (step policy)

/-- What the count and the ghost counts keep: the count is an `int32`, never
negative but for the value a wrap leaves; a positive count is at most the
successes since it was last 0, and it is 0 only with no success counted; and
a wrapped count has acquires outstanding. -/
structure Counts (c : ℤ) (a r : ℕ) : Prop where
  lt : c < 2 ^ 31
  cases : 0 ≤ c ∨ c = -2 ^ 31
  le : 0 < c → c ≤ a - r
  zero : c = 0 → a = 0 ∧ r = 0
  releases_le : r ≤ a
  wrapped : c = -2 ^ 31 → r < a

/-- What every run of the goroutine keeps. -/
structure Invariant (w : OwnerWorld) : Prop where
  counts : Counts w.mutex.lockCount w.acquires w.releases
  busy : w.pc.isIdle = false → w.mutex.lockCount ≤ 0
  deleting : w.pc.deletingPath?.isSome → w.mutex.lockCount = 0
  held : 0 < w.mutex.lockCount → w.mutex.lockPath = w.grantPath
  zeroed_eq : w.zeroed = w.deletions ++ w.pc.deletingPath?.toList

section Counts

variable {c : ℤ} {a r : ℕ}

theorem counts_zero : Counts 0 0 0 where
  lt := by omega
  cases := .inl (Int.le_refl 0)
  le h := absurd h (Int.lt_irrefl 0)
  zero _ := ⟨rfl, rfl⟩
  releases_le := Nat.le_refl 0
  wrapped h := by omega

/-- A step that keeps the count resets the ghost counts when it is 0. -/
theorem Counts.reset (h : Counts c a r) :
    Counts c (if c = 0 then 0 else a) (if c = 0 then 0 else r) := by
  by_cases h0 : c = 0
  · subst h0
    simpa using counts_zero
  · simpa [h0] using h

/-- A nested acquire counts one more success, and wraps the count at its
largest value. -/
theorem Counts.reenter (h : Counts c a r) (hpos : 0 < c) : Counts (wrapInt32 (c + 1)) (a + 1) r := by
  have hle := h.le hpos
  have hlt := h.lt
  rcases Int.lt_or_le (c + 1) (2 ^ 31) with hfit | hmax
  · rw [wrapInt32_of_fits (by omega) hfit]
    exact ⟨hfit, .inl (by omega), fun _ => by push_cast; omega, fun h => by omega,
      by have := h.releases_le; omega, fun h => by omega⟩
  · have hwrap : wrapInt32 (c + 1) = -2 ^ 31 := by
      unfold wrapInt32
      omega
    rw [hwrap]
    exact ⟨by omega, .inr rfl, fun h => by omega, fun h => by omega,
      by have := h.releases_le; omega, fun _ => by omega⟩

/-- A release that leaves the count positive counts one more success. -/
theorem Counts.releaseOne (h : Counts c a r) (hpos : 0 < c) (hmore : 0 < wrapInt32 (c - 1)) :
    Counts (wrapInt32 (c - 1)) a (r + 1) := by
  have hle := h.le hpos
  have hlt := h.lt
  rw [wrapInt32_of_fits (by omega) (by omega)] at hmore ⊢
  exact ⟨by omega, .inl (by omega), fun _ => by push_cast; omega, fun h => by omega,
    by omega, fun h => by omega⟩

/-- A positive count never counts down below 0. -/
theorem Counts.not_negative (h : Counts c a r) (hpos : 0 < c) : ¬ wrapInt32 (c - 1) < 0 := by
  have hlt := h.lt
  rw [wrapInt32_of_fits (by omega) (by omega)]
  omega

/-- A grant sets the count to 1, as one more success. -/
theorem Counts.grant (h : Counts c a r) : Counts 1 (a + 1) r :=
  ⟨by omega, .inl (by omega), fun _ => by have := h.releases_le; omega, fun h => by omega,
    by have := h.releases_le; omega, fun h => by omega⟩

end Counts

section Step

variable {w : OwnerWorld} {ev : LockEvent} {r : InterProcessMutex × LockPc}

@[simp] theorem after_mutex : (w.after ev r).mutex = r.1 := rfl

@[simp] theorem after_pc : (w.after ev r).pc = r.2 := rfl

theorem after_acquires : (w.after ev r).acquires = if r.1.lockCount = 0 then 0
    else if w.pc.endsWith ev r.2 = some (.acquireReturned true none) then w.acquires + 1
    else w.acquires := rfl

theorem after_releases : (w.after ev r).releases = if r.1.lockCount = 0 then 0
    else if w.pc.endsWith ev r.2 = some (.releaseReturned none) then w.releases + 1
    else w.releases := rfl

theorem after_grantPath : (w.after ev r).grantPath =
    if w.mutex.lockCount ≤ 0 ∧ 0 < r.1.lockCount then w.pc.ourPath?.getD w.grantPath
    else w.grantPath := rfl

theorem after_zeroed : (w.after ev r).zeroed =
    if w.mutex.lockCount = 1 ∧ r.1.lockCount = 0 then w.zeroed ++ [w.grantPath]
    else w.zeroed := rfl

@[simp] theorem after_deletions :
    (w.after ev r).deletions = w.deletions ++ (w.pc.deletes ev).toList := rfl

theorem invariant_init {m : InterProcessMutex} (hm : m.lockCount = 0) : (init m).Invariant where
  counts := by simpa [init, hm] using counts_zero
  busy := fun h => by cases h
  deleting := fun h => by cases h
  held := fun h => by simp [init, hm] at h
  zeroed_eq := rfl

/-- A step that keeps the mutex and answers no success keeps the counts and
the grant path. -/
theorem Invariant.after_keep (hw : w.Invariant) {pc' : LockPc}
    (hacq : w.pc.endsWith ev pc' ≠ some (.acquireReturned true none))
    (hrel : w.pc.endsWith ev pc' ≠ some (.releaseReturned none))
    (hbusy : pc'.isIdle = false → w.mutex.lockCount ≤ 0)
    (hdeleting : pc'.deletingPath?.isSome → w.mutex.lockCount = 0)
    (hzeroed : w.zeroed = w.deletions ++ (w.pc.deletes ev).toList ++ pc'.deletingPath?.toList) :
    (w.after ev (w.mutex, pc')).Invariant where
  counts := by
    simpa only [after_mutex, after_acquires, after_releases, hacq, hrel, if_false,
      ite_self] using hw.counts.reset
  busy := hbusy
  deleting := hdeleting
  held := fun h => by
    have hpos : 0 < w.mutex.lockCount := h
    have hnot : ¬ (w.mutex.lockCount ≤ 0 ∧ 0 < w.mutex.lockCount) := by omega
    simp only [after_mutex, after_grantPath, hnot, if_false]
    exact hw.held hpos
  zeroed_eq := by
    have hzero : ¬ (w.mutex.lockCount = 1 ∧ w.mutex.lockCount = 0) := by omega
    simpa only [after_zeroed, hzero, if_false, after_deletions, after_pc] using hzeroed

theorem Invariant.of_stay (hw : w.Invariant) (hend : w.pc.endsWith ev w.pc = none)
    (hdel : w.pc.deletes ev = none) : (w.after ev (w.mutex, w.pc)).Invariant :=
  hw.after_keep (by simp [hend]) (by simp [hend]) hw.busy hw.deleting
    (by simp [hdel, hw.zeroed_eq])

theorem Invariant.of_move (hw : w.Invariant) {pc' : LockPc} (hdel : w.pc.deletingPath? = none)
    (hdel' : pc'.deletingPath? = none)
    (hidle : pc'.isIdle = false → w.pc.isIdle = false ∨ w.mutex.lockCount ≤ 0)
    (hacq : w.pc.endsWith ev pc' ≠ some (.acquireReturned true none))
    (hrel : w.pc.endsWith ev pc' ≠ some (.releaseReturned none)) :
    (w.after ev (w.mutex, pc')).Invariant := by
  refine hw.after_keep hacq hrel ?_ (fun h => by simp [hdel'] at h) ?_
  · intro h
    rcases hidle h with h' | h'
    · exact hw.busy h'
    · exact h'
  · simp [hw.zeroed_eq, hdel, hdel', LockPc.deletes_eq_none hdel]

/-- A nested acquire counts one more success; at the count's largest value
it wraps the count to `-2^31`, and the client no longer holds the lock. -/
theorem Invariant.of_reenter (hw : w.Invariant) {call : LockCall} (hidle : w.pc.isIdle = true)
    (hpos : 0 < w.mutex.lockCount) :
    (w.after (.acquire call)
      ({ w.mutex with lockCount := wrapInt32 (w.mutex.lockCount + 1) },
        .acquireReturned true none)).Invariant := by
  have hend : w.pc.endsWith (.acquire call) (.acquireReturned true none) =
      some (.acquireReturned true none) :=
    LockPc.endsWith_call_idle rfl (fun _ _ => by simp) (fun _ _ => by simp)
  have hnone := LockPc.deletingPath?_of_isIdle hidle
  have hcounts := hw.counts.reenter hpos
  have hne : wrapInt32 (w.mutex.lockCount + 1) ≠ 0 := fun h => by
    have := (hcounts.zero h).1
    omega
  refine ⟨?_, (fun h => by cases h), (fun h => by cases h), fun _ => ?_, ?_⟩
  · simpa [after_acquires, after_releases, hend, hne] using hcounts
  · have hnot : ¬ (w.mutex.lockCount ≤ 0 ∧ 0 < wrapInt32 (w.mutex.lockCount + 1)) := by omega
    simp only [after_mutex, after_grantPath, hnot, if_false]
    exact hw.held hpos
  · have hzero : ¬ (w.mutex.lockCount = 1 ∧ wrapInt32 (w.mutex.lockCount + 1) = 0) :=
      fun h => hne h.2
    simp [after_zeroed, hzero, hw.zeroed_eq, hnone, LockPc.deletes_eq_none hnone]

theorem Invariant.of_releaseOne (hw : w.Invariant) (hidle : w.pc.isIdle = true)
    (hpos : 0 < w.mutex.lockCount) (hmore : 0 < wrapInt32 (w.mutex.lockCount - 1)) :
    (w.after .release
      ({ w.mutex with lockCount := wrapInt32 (w.mutex.lockCount - 1) },
        .releaseReturned none)).Invariant := by
  have hend : w.pc.endsWith .release (.releaseReturned none) = some (.releaseReturned none) :=
    LockPc.endsWith_call_idle rfl (fun _ _ => by simp) (fun _ _ => by simp)
  have hnone := LockPc.deletingPath?_of_isIdle hidle
  have hne : wrapInt32 (w.mutex.lockCount - 1) ≠ 0 := by omega
  refine ⟨?_, (fun h => by cases h), (fun h => by cases h), fun _ => ?_, ?_⟩
  · simpa [after_acquires, after_releases, hend, hne] using hw.counts.releaseOne hpos hmore
  · have hnot : ¬ (w.mutex.lockCount ≤ 0 ∧ 0 < wrapInt32 (w.mutex.lockCount - 1)) := by omega
    simp only [after_mutex, after_grantPath, hnot, if_false]
    exact hw.held hpos
  · have hzero : ¬ (w.mutex.lockCount = 1 ∧ wrapInt32 (w.mutex.lockCount - 1) = 0) := by omega
    simp [after_zeroed, hzero, hw.zeroed_eq, hnone, LockPc.deletes_eq_none hnone]

/-- The last release starts deleting the node of the acquire that raised the
count from 0. -/
theorem Invariant.of_releaseLast (hw : w.Invariant) (hidle : w.pc.isIdle = true)
    (hpos : 0 < w.mutex.lockCount) (hzero : wrapInt32 (w.mutex.lockCount - 1) = 0) :
    (w.after .release ({ w.mutex with lockCount := 0 }, .deleting w.mutex.lockPath)).Invariant := by
  have hone : w.mutex.lockCount = 1 := by
    have hlt := hw.counts.lt
    rw [wrapInt32_of_fits (by omega) (by omega)] at hzero
    omega
  have hpath := hw.held hpos
  have hnone := LockPc.deletingPath?_of_isIdle hidle
  refine ⟨?_, fun _ => by simp, fun _ => rfl, (fun h => by simp at h), ?_⟩
  · simpa [after_acquires, after_releases] using counts_zero
  · simp [after_zeroed, hone, hw.zeroed_eq, hpath, hnone, LockPc.deletes_eq_none hnone]

/-- A grant raises a count that is not positive to 1 and records the node it
was granted. -/
theorem Invariant.of_grant (hw : w.Invariant) {call : LockCall} {p : GoString}
    (hpc : w.pc = .listing call p) :
    (w.after ev ({ w.mutex with lockPath := p, lockCount := 1 }, .acquireReturned true none)).Invariant := by
  have hle : w.mutex.lockCount ≤ 0 := hw.busy (by rw [hpc]; rfl)
  have hend : w.pc.endsWith ev (.acquireReturned true none) = some (.acquireReturned true none) :=
    LockPc.endsWith_of_busy_idle (by rw [hpc]; rfl) rfl
  have hnone : w.pc.deletingPath? = none := by rw [hpc]; rfl
  refine ⟨?_, (fun h => by cases h), (fun h => by cases h), fun _ => ?_, ?_⟩
  · simpa [after_acquires, after_releases, hend] using hw.counts.grant
  · have hgrant : w.mutex.lockCount ≤ 0 ∧ (0 : ℤ) < 1 := ⟨hle, by omega⟩
    simp [after_grantPath, hgrant, hpc, LockPc.ourPath?]
  · simp [after_zeroed, hw.zeroed_eq, hnone, LockPc.deletes_eq_none hnone]

/-- A deletion sent is the one the invariant expected next. -/
theorem Invariant.of_delete (hw : w.Invariant) {p : GoString} {err : Option ZkError}
    (hdel : w.pc.deletes ev = some p) :
    (w.after ev (w.mutex, .releaseReturned err)).Invariant := by
  obtain ⟨hpc, -⟩ := LockPc.deletes_call hdel
  have hzero : w.mutex.lockCount = 0 := hw.deleting (by rw [hpc]; rfl)
  refine ⟨?_, (fun h => by cases h), (fun h => by cases h), (fun h => by simp [hzero] at h), ?_⟩
  · simpa [after_acquires, after_releases, hzero] using counts_zero
  · simp only [after_zeroed, after_deletions, hdel]
    simp [hzero, hw.zeroed_eq, hpc]

theorem Invariant.step (hw : w.Invariant) (e : LockEvent × Store) : (w.step policy e).Invariant := by
  obtain ⟨ev, st⟩ := e
  have h : InterProcessMutex.OwnerStep w.mutex w.pc ev
      ((w.mutex.step policy w.pc ev st).1, (w.mutex.step policy w.pc ev st).2.1) :=
    w.mutex.step_ownerStep policy w.pc ev
  show (w.after ev ((w.mutex.step policy w.pc ev st).1, (w.mutex.step policy w.pc ev st).2.1)).Invariant
  generalize ((w.mutex.step policy w.pc ev st).1, (w.mutex.step policy w.pc ev st).2.1) = r at h ⊢
  cases h with
  | stay hend hdel => exact hw.of_stay hend hdel
  | move hdel hdel' hidle hacq hrel => exact hw.of_move hdel hdel' hidle hacq hrel
  | reenter hidle hpos hev =>
    subst hev
    exact hw.of_reenter hidle hpos
  | releaseOne hidle hpos hmore hev =>
    subst hev
    exact hw.of_releaseOne hidle hpos hmore
  | releaseLast hidle hpos hzero hev =>
    subst hev
    exact hw.of_releaseLast hidle hpos hzero
  | releaseNegative _ hpos hneg _ => exact absurd hneg (hw.counts.not_negative hpos)
  | grant hpc => exact hw.of_grant hpc
  | delete hdel => exact hw.of_delete hdel

theorem invariant_inductive {m : InterProcessMutex} (hm : m.lockCount = 0) :
    TransitionSystem.Inductive (system policy m) Invariant where
  init := invariant_init hm
  step := by
    rintro w e w' hw rfl
    exact hw.step policy e

end Step

end OwnerWorld

/-- A release without the lock answers an error and changes nothing. -/
theorem InterProcessMutex.release_of_not_acquired (m : InterProcessMutex) (policy : RetryPolicy)
    {pc : LockPc} (hidle : pc.isIdle = true) (hacq : m.isAcquiredInThisProcess = false)
    (st : Store) :
    m.step policy pc .release st = (m, .releaseReturned
      (some (.message ("You do not own the lock: " ++ String.ofList m.basePath))), st) := by
  simp [step.eq_def, hidle, hacq]

/-- What the owner of a mutex observes: `lockCount` is never negative but for
the value `-2^31` that the nested acquire at its largest value wraps it to,
with acquires outstanding; while it is not negative, the lock is held exactly
while more acquires than releases have succeeded since the count was last 0;
a release without the lock is refused and changes nothing; and the deletions
sent, with the one about to be sent, are those of the releases that brought
the count from 1 to 0, each for the node its acquire obtained. -/
structure OwnerWorld.Bookkeeping (policy : RetryPolicy) (w : OwnerWorld) : Prop where
  count_cases : 0 ≤ w.mutex.lockCount ∨ w.mutex.lockCount = -2 ^ 31
  wrapped : w.mutex.lockCount = -2 ^ 31 → w.releases < w.acquires
  acquired_iff : 0 ≤ w.mutex.lockCount →
    (w.mutex.isAcquiredInThisProcess = true ↔ w.releases < w.acquires)
  release_refused : ∀ st, w.pc.isIdle = true → w.mutex.isAcquiredInThisProcess = false →
    w.mutex.step policy w.pc .release st = (w.mutex, .releaseReturned
      (some (.message ("You do not own the lock: " ++ String.ofList w.mutex.basePath))), st)
  deletions_eq : w.zeroed = w.deletions ++ w.pc.deletingPath?.toList

theorem OwnerWorld.Invariant.bookkeeping {w : OwnerWorld} (hw : w.Invariant)
    (policy : RetryPolicy) : w.Bookkeeping policy where
  count_cases := hw.counts.cases
  wrapped := hw.counts.wrapped
  acquired_iff := by
    intro hnn
    simp only [InterProcessMutex.isAcquiredInThisProcess, decide_eq_true_eq]
    rcases Int.lt_or_eq_of_le hnn with hpos | hzero
    · have hle := hw.counts.le hpos
      exact ⟨fun _ => by omega, fun _ => hpos⟩
    · obtain ⟨ha, hr⟩ := hw.counts.zero hzero.symm
      rw [← hzero, ha, hr]
      exact ⟨fun h => absurd h (Int.lt_irrefl 0), fun h => absurd h (Nat.lt_irrefl 0)⟩
  release_refused := fun st hidle hacq => w.mutex.release_of_not_acquired policy hidle hacq st
  deletions_eq := hw.zeroed_eq

theorem mutex_owner_bookkeeping {policy : RetryPolicy} {path : GoString} {m : InterProcessMutex}
    (hm : newInterProcessMutex path = .ok m) {w : OwnerWorld}
    (hw : TransitionSystem.Reachable (OwnerWorld.system policy m) w) :
    OwnerWorld.Bookkeeping policy w := by
  obtain ⟨-, -, hcount⟩ := newInterProcessMutex_standard hm
  exact (TransitionSystem.Reachable.of_inductive
    (OwnerWorld.invariant_inductive policy hcount) hw).bookkeeping policy

/-- A nested acquire on /lock, released twice: the second release deletes the
node the first acquire obtained. -/
theorem mutex_owner_bookkeeping_nested :
    let m : InterProcessMutex :=
      ⟨"/lock".toList, ⟨"/lock".toList, lockPrefix, joinPath "/lock".toList [lockPrefix], 1⟩,
        [], 0, none⟩
    let st₀ : Store := ⟨[(pathSeparator, ⟨[], 0⟩), ("/lock".toList, ⟨[], 0⟩)], []⟩
    let st₁ : Store :=
      ⟨st₀.nodes ++ [("/lock/lock-0000000000".toList, ⟨[], 0⟩)], [("/lock".toList, 1)]⟩
    let w := ([(.acquire .acquire, st₀), (.advance none 0, st₀), (.advance none 0, st₁),
      (.acquire .acquire, st₁), (.release, st₁), (.release, st₁), (.advance none 0, st₁)] :
        List (LockEvent × Store)).foldl (OwnerWorld.step (newRetryOneTime 0)) (OwnerWorld.init m)
    newInterProcessMutex "/lock".toList = .ok m ∧
      TransitionSystem.Reachable (OwnerWorld.system (newRetryOneTime 0) m) w ∧
      OwnerWorld.Bookkeeping (newRetryOneTime 0) w := by
  intro m st₀ st₁ w
  have hm : newInterProcessMutex "/lock".toList = .ok m := rfl
  have hw : TransitionSystem.Reachable (OwnerWorld.system (newRetryOneTime 0) m) w :=
    TransitionSystem.reachable_foldl _
  exact ⟨hm, hw, mutex_owner_bookkeeping hm hw⟩

namespace OwnerWorld

variable (policy : RetryPolicy) (call : LockCall) (st : Store)

/-- A nested acquire of a holder: the count goes up in `int32`, and one more
success is counted. -/
theorem step_reenter {w : OwnerWorld} (hidle : w.pc.isIdle = true) (hpos : 0 < w.mutex.lockCount) :
    w.step policy (.acquire call, st) = w.after (.acquire call)
      ({ w.mutex with lockCount := wrapInt32 (w.mutex.lockCount + 1) }, .acquireReturned true none) := by
  rcases w.mutex.step_acquire_cases policy w.pc call st with
    ⟨hbusy, -⟩ | ⟨-, -, h⟩ | ⟨-, hle, -⟩
  · rw [hidle] at hbusy
    cases hbusy
  · simp only [step, h]
  · omega

/-- Nested acquires below the count's largest value count up one by one; by
induction on their number. -/
theorem foldl_reenter : ∀ (n : ℕ) {w : OwnerWorld}, w.pc.isIdle = true → 0 < w.mutex.lockCount →
    w.mutex.lockCount + n < 2 ^ 31 →
    let w' := (List.replicate n (LockEvent.acquire call, st)).foldl (step policy) w
    w'.pc.isIdle = true ∧ w'.mutex.lockCount = w.mutex.lockCount + n ∧
      w'.acquires = w.acquires + n ∧ w'.releases = w.releases
  | 0, w, hidle, _, _ => ⟨hidle, by simp, rfl, rfl⟩
  | n + 1, w, hidle, hpos, hfit => by
    have hstep := step_reenter policy call st hidle hpos
    have hwrap : wrapInt32 (w.mutex.lockCount + 1) = w.mutex.lockCount + 1 :=
      wrapInt32_of_fits (by omega) (by omega)
    have hend : w.pc.endsWith (.acquire call) (.acquireReturned true none) =
        some (.acquireReturned true none) :=
      LockPc.endsWith_call_idle rfl (fun _ _ => by simp) (fun _ _ => by simp)
    have hne : w.mutex.lockCount + 1 ≠ 0 := by omega
    have hcount : (w.step policy (.acquire call, st)).mutex.lockCount = w.mutex.lockCount + 1 := by
      rw [hstep, after_mutex, hwrap]
    have hacq : (w.step policy (.acquire call, st)).acquires = w.acquires + 1 := by
      rw [hstep, after_acquires]
      simp [hwrap, hne, hend]
    have hrel : (w.step policy (.acquire call, st)).releases = w.releases := by
      rw [hstep, after_releases]
      simp [hwrap, hne, hend]
    obtain ⟨hidle', hcount', hacq', hrel'⟩ := foldl_reenter n
      (w := w.step policy (.acquire call, st)) (by rw [hstep]; rfl) (by omega) (by omega)
    rw [List.replicate_succ, List.foldl_cons]
    refine ⟨hidle', ?_, ?_, ?_⟩
    · rw [hcount', hcount]
      push_cast
      omega
    · rw [hacq', hacq]
      omega
    · rw [hrel', hrel]

end OwnerWorld

/-- A nested acquire on /lock, repeated: after `2^31 - 1` nested acquires the
count wraps to `-2^31`, so `lockCount` is negative and the lock is not held
in this process, though more acquires than releases have succeeded since the
count was last 0 and the node is still there. -/
theorem mutex_owner_lockCount_wraps :
    let m : InterProcessMutex :=
      ⟨"/lock".toList, ⟨"/lock".toList, lockPrefix, joinPath "/lock".toList [lockPrefix], 1⟩,
        [], 0, none⟩
    let st₀ : Store := ⟨[(pathSeparator, ⟨[], 0⟩), ("/lock".toList, ⟨[], 0⟩)], []⟩
    let st₁ : Store :=
      ⟨st₀.nodes ++ [("/lock/lock-0000000000".toList, ⟨[], 0⟩)], [("/lock".toList, 1)]⟩
    let w₁ := ([(.acquire .acquire, st₀), (.advance none 0, st₀), (.advance none 0, st₁)] :
      List (LockEvent × Store)).foldl (OwnerWorld.step (newRetryOneTime 0)) (OwnerWorld.init m)
    let w := (List.replicate (2 ^ 31 - 1) (LockEvent.acquire .acquire, st₁)).foldl
      (OwnerWorld.step (newRetryOneTime 0)) w₁
    TransitionSystem.Reachable (OwnerWorld.system (newRetryOneTime 0) m) w ∧
      w.mutex.lockCount = -2 ^ 31 ∧ w.mutex.isAcquiredInThisProcess = false ∧
      w.releases < w.acquires := by
  intro m st₀ st₁ w₁ w
  have hw : TransitionSystem.Reachable (OwnerWorld.system (newRetryOneTime 0) m) w :=
    TransitionSystem.Reachable.foldl (TransitionSystem.reachable_foldl _) _
  have hs₁ : m.step (newRetryOneTime 0) .idle (.acquire .acquire) st₀ =
      (m, .creating .acquire 0, st₀) := by decide
  have hs₂ : m.step (newRetryOneTime 0) (.creating .acquire 0) (.advance none 0) st₀ =
      (m, .listing .acquire "/lock/lock-0000000000".toList, st₁) := by decide
  have hsorted : m.internals.getSortedChildren none st₁ = .ok ["lock-0000000000".toList] := by
    rw [LockInternals.getSortedChildren_of_children (show (st₁.children m.internals.basePath).1 =
      .ok ["lock-0000000000".toList] by decide), LockInternals.sortChildren, List.mergeSort_singleton]
  have hs₃ : m.step (newRetryOneTime 0) (.listing .acquire "/lock/lock-0000000000".toList)
      (.advance none 0) st₁ =
      ({ m with lockPath := "/lock/lock-0000000000".toList, lockCount := 1 },
        .acquireReturned true none, st₁) :=
    m.step_listing_of_grant (newRetryOneTime 0) hsorted
      (show _ = Except.ok (⟨true, []⟩ : PredicateResults) by decide) rfl
  have h₁ : w₁.pc.isIdle = true ∧ w₁.mutex.lockCount = 1 ∧ w₁.acquires = 1 ∧ w₁.releases = 0 := by
    simp only [w₁, List.foldl_cons, List.foldl_nil, OwnerWorld.step]
    simp only [OwnerWorld.init, hs₁, OwnerWorld.after_mutex, OwnerWorld.after_pc, hs₂, hs₃]
    decide
  obtain ⟨hidle, hcount, hacq, hrel⟩ := h₁
  obtain ⟨hidle', hcount', hacq', hrel'⟩ := OwnerWorld.foldl_reenter (newRetryOneTime 0) .acquire st₁
    (2 ^ 31 - 2) hidle (by omega) (by omega)
  set w' := (List.replicate (2 ^ 31 - 2) (LockEvent.acquire .acquire, st₁)).foldl
    (OwnerWorld.step (newRetryOneTime 0)) w₁ with hw'
  have hsplit : w = w'.step (newRetryOneTime 0) (.acquire .acquire, st₁) := by
    have hn : 2 ^ 31 - 1 = (2 ^ 31 - 2) + 1 := by omega
    show List.foldl _ w₁ (List.replicate (2 ^ 31 - 1) _) = _
    rw [hn, List.replicate_succ', List.foldl_append, List.foldl_cons, List.foldl_nil]
  clear_value w w'
  have hstep := OwnerWorld.step_reenter (newRetryOneTime 0) .acquire st₁ hidle' (by omega)
  have hwrap : wrapInt32 (w'.mutex.lockCount + 1) = -2 ^ 31 := by
    rw [hcount', hcount]
    unfold wrapInt32
    omega
  have hend : w'.pc.endsWith (.acquire .acquire) (.acquireReturned true none) =
      some (.acquireReturned true none) :=
    LockPc.endsWith_call_idle rfl (fun _ _ => by simp) (fun _ _ => by simp)
  have hne : (-2 ^ 31 : ℤ) ≠ 0 := by decide
  refine ⟨hw, ?_, ?_, ?_⟩
  · rw [hsplit, hstep, OwnerWorld.after_mutex, hwrap]
  · rw [hsplit, hstep, OwnerWorld.after_mutex, hwrap]
    simp [InterProcessMutex.isAcquiredInThisProcess]
  · rw [hsplit, hstep, OwnerWorld.after_acquires, OwnerWorld.after_releases]
    simp only [hwrap, hne, if_false, hend]
    simp [hacq', hrel', hacq, hrel]

end Curator
