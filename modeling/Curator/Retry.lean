import Curator.Basic

/-!
# Retry policies and the retry loop

`retry.go` defines the `RetryPolicy` interface, the sleeping policies built
on `SleepingRetry`, and `retryLoop.CallWithRetry`, through which every
foreground operation of the framework sends its ZooKeeper request.

A policy's `AllowRetry` both answers and sleeps; the model returns the answer
together with the durations handed to the sleeper.  The loop is run for at
most `fuel` passes of its `for` statement over the results `proc` returns and
the clock readings it takes, and it reports what it did (`RetryStep`), so that
statements can say when `proc` ran and when the policy was consulted.  A run
whose result is `none` for every amount of fuel is a loop that never returns.
-/

namespace Curator

/-- A `RetrySleeper`: `SleepFor` sleeps for the duration and returns its
error, if any. -/
structure RetrySleeper where
  sleepFor : Duration → Option ZkError

/-- `DefaultRetrySleeper` calls `time.Sleep` and never fails. -/
def defaultRetrySleeper : RetrySleeper := ⟨fun _ => none⟩

/-- A `RetryPolicy`.  `allowRetry retryCount elapsedTime sleeper` answers
whether another attempt may be made and lists, in order, the durations it
passed to `sleeper.SleepFor`. -/
structure RetryPolicy where
  allowRetry : ℕ → Duration → RetrySleeper → Bool × List Duration

/-- `SleepingRetry.AllowRetry`: below the bound `N` sleep once, and allow the
retry unless the sleep failed. -/
def SleepingRetry.allowRetry (N : ℤ) (getSleepTime : ℕ → Duration → Duration)
    (retryCount : ℕ) (elapsedTime : Duration) (sleeper : RetrySleeper) :
    Bool × List Duration :=
  if (retryCount : ℤ) < N then
    let d := getSleepTime retryCount elapsedTime
    ((sleeper.sleepFor d).isNone, [d])
  else (false, [])

/-- The policy of a `SleepingRetry` with bound `N` and sleep function
`getSleepTime`. -/
def sleepingRetry (N : ℤ) (getSleepTime : ℕ → Duration → Duration) :
    RetryPolicy :=
  ⟨SleepingRetry.allowRetry N getSleepTime⟩

/-- `NewRetryNTimes(n, sleepBetweenRetries)`. -/
def newRetryNTimes (n : ℤ) (sleepBetweenRetries : Duration) : RetryPolicy :=
  sleepingRetry n (fun _ _ => sleepBetweenRetries)

/-- `NewRetryOneTime(sleepBetweenRetry)`. -/
def newRetryOneTime (sleepBetweenRetry : Duration) : RetryPolicy :=
  newRetryNTimes 1 sleepBetweenRetry

/-- `MAX_RETRIES_LIMIT`. -/
def maxRetriesLimit : ℤ := 29

/-- `math.MaxInt64`. -/
def maxInt64 : ℤ := 2 ^ 63 - 1

/-- Two's-complement wrap-around of an `int64` result. -/
def wrapInt64 (x : ℤ) : ℤ := (x + 2 ^ 63) % 2 ^ 64 - 2 ^ 63

/-- The sleep function of `NewExponentialBackoffRetry`.  `int63n retryCount`
is the value `rand.Int63n(1<<uint(retryCount))` returns in this call; the
product is an `int64` product. -/
def exponentialBackoffSleepTime (baseSleepTime maxSleep : Duration)
    (int63n : ℕ → ℤ) (retryCount : ℕ) (_elapsedTime : Duration) : Duration :=
  let sleepTime := wrapInt64 (baseSleepTime * int63n retryCount)
  if sleepTime > maxSleep then maxSleep else sleepTime

/-- `NewExponentialBackoffRetry(baseSleepTime, maxRetries, maxSleep)`, with
the answers of the random source as `int63n`. -/
def newExponentialBackoffRetry (baseSleepTime : Duration) (maxRetries : ℤ)
    (maxSleep : Duration) (int63n : ℕ → ℤ) : RetryPolicy :=
  let maxRetries := if maxRetries > maxRetriesLimit then maxRetriesLimit
    else maxRetries
  sleepingRetry maxRetries
    (exponentialBackoffSleepTime baseSleepTime maxSleep int63n)

/-- `RetryUntilElapsed.AllowRetry`: the elapsed-time test comes first and
short-circuits the sleep. -/
def newRetryUntilElapsed (maxElapsedTime sleepBetweenRetries : Duration) :
    RetryPolicy :=
  ⟨fun retryCount elapsedTime sleeper =>
    if elapsedTime < maxElapsedTime then
      SleepingRetry.allowRetry maxInt64 (fun _ _ => sleepBetweenRetries)
        retryCount elapsedTime sleeper
    else (false, [])⟩

/-- The fields of `retryLoop` that `CallWithRetry` reads and writes. -/
structure RetryLoop where
  retryCount : ℕ
  retryPolicy : RetryPolicy
  retrySleeper : Option RetrySleeper

/-- `newRetryLoop(retryPolicy, tracer)`: no sleeper is set. -/
def newRetryLoop (retryPolicy : RetryPolicy) : RetryLoop :=
  { retryCount := 0, retryPolicy := retryPolicy, retrySleeper := none }

/-- The part of `curatorZookeeperClient` that `NewRetryLoop` reads. -/
structure CuratorZookeeperClient where
  retryPolicy : RetryPolicy

/-- `curatorZookeeperClient.NewRetryLoop()`, the loop every framework
operation uses. -/
def CuratorZookeeperClient.newRetryLoop (c : CuratorZookeeperClient) :
    RetryLoop :=
  Curator.newRetryLoop c.retryPolicy

/-- `retryLoop.ShouldRetry`, for a non-nil error. -/
def shouldRetry : ZkError → Bool
  | .errSessionExpired => true
  | .errSessionMoved => true
  | .netError timeout temporary => timeout || temporary
  | _ => false

/-- One observable action of the retry loop. -/
inductive RetryStep where
  /-- a call of `proc` -/
  | proc
  /-- a consultation `AllowRetry(retryCount, elapsed, sleeper)` with its
  answer and the sleeps the policy made -/
  | allowRetry (retryCount : ℕ) (answer : Bool) (sleeps : List Duration)
  /-- `tracer.AddCount(name, 1)` -/
  | addCount (name : String)
  deriving DecidableEq, Repr

/-- What a bounded run of the loop produced: the loop's final fields, what it
did, and its result, `none` when the passes ran out first. -/
structure LoopRun (α : Type*) where
  loop : RetryLoop
  steps : List RetryStep
  result : Option (α × Option ZkError)

/-- Record actions taken before the rest of a run. -/
def LoopRun.prepend {α : Type*} (xs : List RetryStep) (r : LoopRun α) :
    LoopRun α :=
  { r with steps := xs ++ r.steps }

@[simp] theorem LoopRun.prepend_loop {α : Type*} (xs : List RetryStep)
    (r : LoopRun α) : (r.prepend xs).loop = r.loop := rfl

@[simp] theorem LoopRun.prepend_steps {α : Type*} (xs : List RetryStep)
    (r : LoopRun α) : (r.prepend xs).steps = xs ++ r.steps := rfl

@[simp] theorem LoopRun.prepend_result {α : Type*} (xs : List RetryStep)
    (r : LoopRun α) : (r.prepend xs).result = r.result := rfl

variable {α : Type*}

/-- `retryLoop.CallWithRetry(proc)` for at most `fuel` passes.  `proc n` is
what the `n`-th call of `proc` returns and `elapsed n` the reading of
`time.Now().Sub(l.startTime)` taken after it. -/
def callWithRetry (proc : ℕ → α × Option ZkError) (elapsed : ℕ → Duration) :
    ℕ → ℕ → RetryLoop → LoopRun α
  | 0, _, l => ⟨l, [], none⟩
  | fuel + 1, n, l =>
    match proc n with
    | (ret, none) => ⟨l, [.proc], some (ret, none)⟩
    | (ret, some err) =>
      if !shouldRetry err then ⟨l, [.proc], some (ret, some err)⟩
      else
        let l := { l with retryCount := l.retryCount + 1 }
        match l.retrySleeper with
        -- the `if sleeper == nil` branch only stores the default sleeper
        | none => (callWithRetry proc elapsed fuel (n + 1) l).prepend [.proc]
        | some sleeper =>
          let answer := l.retryPolicy.allowRetry l.retryCount (elapsed n) sleeper
          if !answer.1 then
            ⟨l, [.proc, .allowRetry l.retryCount false answer.2,
              .addCount "retries-disallowed"], some (ret, some err)⟩
          else
            (callWithRetry proc elapsed fuel (n + 1) l).prepend
              [.proc, .allowRetry l.retryCount true answer.2,
                .addCount "retries-allowed"]

/-! ### One pass of the loop -/

section Passes

variable {proc : ℕ → α × Option ZkError} {elapsed : ℕ → Duration}
  {fuel n : ℕ} {l : RetryLoop}

/-- A nil error, or one `ShouldRetry` rejects, ends the loop with `proc`'s
own result. -/
theorem callWithRetry_of_final {ret : α} {err : Option ZkError}
    (hproc : proc n = (ret, err))
    (hfinal : ∀ e, err = some e → shouldRetry e = false) :
    callWithRetry proc elapsed (fuel + 1) n l = ⟨l, [.proc], some (ret, err)⟩ := by
  cases err with
  | none => simp [callWithRetry, hproc]
  | some e => simp [callWithRetry, hproc, hfinal e rfl]

/-- Without a sleeper, a retryable error starts the next pass at once: the
count is raised and the policy is not consulted. -/
theorem callWithRetry_retryable_of_no_sleeper {ret : α} {e : ZkError}
    (hproc : proc n = (ret, some e)) (he : shouldRetry e = true)
    (hl : l.retrySleeper = none) :
    callWithRetry proc elapsed (fuel + 1) n l =
      (callWithRetry proc elapsed fuel (n + 1)
        { l with retryCount := l.retryCount + 1 }).prepend [.proc] := by
  simp [callWithRetry, hproc, he, hl]

/-- With a sleeper, a retryable error consults the policy with the count
already raised by one. -/
theorem callWithRetry_retryable_of_sleeper {ret : α} {e : ZkError}
    {sleeper : RetrySleeper}
    (hproc : proc n = (ret, some e)) (he : shouldRetry e = true)
    (hl : l.retrySleeper = some sleeper) :
    callWithRetry proc elapsed (fuel + 1) n l =
      let answer := l.retryPolicy.allowRetry (l.retryCount + 1) (elapsed n) sleeper
      if answer.1 then
        (callWithRetry proc elapsed fuel (n + 1)
          { l with retryCount := l.retryCount + 1 }).prepend
          [.proc, .allowRetry (l.retryCount + 1) true answer.2,
            .addCount "retries-allowed"]
      else
        ⟨{ l with retryCount := l.retryCount + 1 },
          [.proc, .allowRetry (l.retryCount + 1) false answer.2,
            .addCount "retries-disallowed"], some (ret, some e)⟩ := by
  cases h : (l.retryPolicy.allowRetry (l.retryCount + 1) (elapsed n) sleeper).1 <;>
    simp [callWithRetry, hproc, he, hl, h]

end Passes

/-! ### Two loops over the same decisions

Whether the loop calls `proc` again depends only on whether the error it
returned is one `ShouldRetry` accepts.  Two closures whose errors agree on
that make the same passes, and each loop ends with its own closure's result
of the same pass. -/

section Decisions

variable {β : Type*}

theorem final_of_not_retryable {err : Option ZkError} (h : err.any shouldRetry = false) :
    ∀ e, err = some e → shouldRetry e = false := by
  rintro e rfl
  simpa using h

theorem exists_of_retryable {err : Option ZkError} (h : err.any shouldRetry = true) :
    ∃ e, err = some e ∧ shouldRetry e = true := by
  cases err with
  | none => cases h
  | some e => exact ⟨e, rfl, by simpa using h⟩

/-- Two closures whose errors agree on `ShouldRetry` at every pass make the
same passes, and end with results related as their passes are. -/
theorem callWithRetry_rel (R : α × Option ZkError → β × Option ZkError → Prop)
    (p : ℕ → α × Option ZkError) (q : ℕ → β × Option ZkError) (elapsed : ℕ → Duration)
    (hR : ∀ n, R (p n) (q n))
    (hretry : ∀ n, (p n).2.any shouldRetry = (q n).2.any shouldRetry) (fuel : ℕ) :
    ∀ n l, (callWithRetry q elapsed fuel n l).loop = (callWithRetry p elapsed fuel n l).loop ∧
      (callWithRetry q elapsed fuel n l).steps = (callWithRetry p elapsed fuel n l).steps ∧
      Option.Rel R (callWithRetry p elapsed fuel n l).result
        (callWithRetry q elapsed fuel n l).result := by
  induction fuel with
  | zero => exact fun n l => ⟨rfl, rfl, .none⟩
  | succ fuel ih =>
    intro n l
    cases hp : (p n).2.any shouldRetry with
    | false =>
      have hq : (q n).2.any shouldRetry = false := (hretry n).symm.trans hp
      have hpn : p n = ((p n).1, (p n).2) := rfl
      have hqn : q n = ((q n).1, (q n).2) := rfl
      rw [callWithRetry_of_final hpn (final_of_not_retryable hp),
        callWithRetry_of_final hqn (final_of_not_retryable hq)]
      exact ⟨rfl, rfl, .some (hR n)⟩
    | true =>
      obtain ⟨e, he, hre⟩ := exists_of_retryable hp
      obtain ⟨e', he', hre'⟩ := exists_of_retryable ((hretry n).symm.trans hp)
      have hpn : p n = ((p n).1, some e) := by rw [← he]
      have hqn : q n = ((q n).1, some e') := by rw [← he']
      cases hl : l.retrySleeper with
      | none =>
        rw [callWithRetry_retryable_of_no_sleeper hpn hre hl,
          callWithRetry_retryable_of_no_sleeper hqn hre' hl]
        obtain ⟨hloop, hsteps, hres⟩ := ih (n + 1) { l with retryCount := l.retryCount + 1 }
        exact ⟨hloop, by rw [LoopRun.prepend_steps, LoopRun.prepend_steps, hsteps], hres⟩
      | some sleeper =>
        rw [callWithRetry_retryable_of_sleeper hpn hre hl,
          callWithRetry_retryable_of_sleeper hqn hre' hl]
        dsimp only
        split
        · obtain ⟨hloop, hsteps, hres⟩ := ih (n + 1) { l with retryCount := l.retryCount + 1 }
          exact ⟨hloop, by rw [LoopRun.prepend_steps, LoopRun.prepend_steps, hsteps], hres⟩
        · exact ⟨rfl, rfl, .some (by rw [← hpn, ← hqn]; exact hR n)⟩

/-- A loop that returned returns the result of its last call of `proc`, the
one counted last among its steps. -/
theorem callWithRetry_result_eq_some {proc : ℕ → α × Option ZkError} {elapsed : ℕ → Duration}
    (fuel : ℕ) :
    ∀ n l r, (callWithRetry proc elapsed fuel n l).result = some r →
      ∃ k, (callWithRetry proc elapsed fuel n l).steps.count .proc = k + 1 ∧
        proc (n + k) = r := by
  induction fuel with
  | zero => intro n l r h; cases h
  | succ fuel ih =>
    intro n l r hr
    cases hp : (proc n).2.any shouldRetry with
    | false =>
      have hpn : proc n = ((proc n).1, (proc n).2) := rfl
      rw [callWithRetry_of_final hpn (final_of_not_retryable hp)] at hr ⊢
      exact ⟨0, rfl, Option.some.inj hr⟩
    | true =>
      obtain ⟨e, he, hre⟩ := exists_of_retryable hp
      have hpn : proc n = ((proc n).1, some e) := by rw [← he]
      have hlater : ∀ xs : List RetryStep, xs.count .proc = 1 →
          (callWithRetry proc elapsed fuel (n + 1) { l with retryCount := l.retryCount + 1 }).result =
            some r →
          ∃ k, ((callWithRetry proc elapsed fuel (n + 1)
              { l with retryCount := l.retryCount + 1 }).prepend xs).steps.count .proc = k + 1 ∧
            proc (n + k) = r := by
        intro xs hxs h
        obtain ⟨k, hk, hrk⟩ := ih (n + 1) _ r h
        refine ⟨k + 1, ?_, by rw [← hrk]; congr 1; omega⟩
        rw [LoopRun.prepend_steps, List.count_append, hxs, hk]
        omega
      cases hl : l.retrySleeper with
      | none =>
        rw [callWithRetry_retryable_of_no_sleeper hpn hre hl] at hr ⊢
        exact hlater [.proc] rfl hr
      | some sleeper =>
        rw [callWithRetry_retryable_of_sleeper hpn hre hl] at hr ⊢
        dsimp only at hr ⊢
        split at hr
        · next hallow =>
          rw [if_pos hallow]
          exact hlater _ (by simp) hr
        · next hallow =>
          rw [if_neg hallow]
          refine ⟨0, by simp, ?_⟩
          rw [Nat.add_zero, hpn]
          exact Option.some.inj hr

end Decisions

/-! ### Runs without a sleeper

`newRetryLoop` never sets `retrySleeper`, so every loop the framework builds
runs on the `sleeper == nil` branch, where nothing but `ShouldRetry` decides
whether `proc` runs again. -/

/-- Without a sleeper, while every error is retryable the loop calls `proc`
once per pass, never consults the policy and never returns. -/
theorem callWithRetry_no_sleeper_of_retryable
    {proc : ℕ → α × Option ZkError} {elapsed : ℕ → Duration}
    (hproc : ∀ k, ∃ ret e, proc k = (ret, some e) ∧ shouldRetry e = true)
    (fuel : ℕ) : ∀ (n : ℕ) (l : RetryLoop), l.retrySleeper = none →
      (callWithRetry proc elapsed fuel n l).steps = List.replicate fuel .proc ∧
        (callWithRetry proc elapsed fuel n l).result = none := by
  induction fuel with
  | zero =>
      intro n l _
      simp [callWithRetry]
  | succ fuel ih =>
      intro n l hl
      obtain ⟨ret, e, hpn, he⟩ := hproc n
      rw [callWithRetry_retryable_of_no_sleeper hpn he hl]
      obtain ⟨hsteps, hresult⟩ :=
        ih (n + 1) { l with retryCount := l.retryCount + 1 } hl
      refine ⟨?_, ?_⟩
      · rw [LoopRun.prepend_steps, hsteps, List.replicate_succ]
        rfl
      · rw [LoopRun.prepend_result, hresult]

/-- The loop the client hands out, with `RetryOneTime` as the policy and a
`proc` that always fails with `ErrSessionExpired`: for every bound on the
passes, `proc` has run once per pass, the policy has never been consulted,
and the loop has not returned. -/
theorem newRetryLoop_retryOneTime_expired_never_returns
    (d : Duration) (fuel : ℕ) :
    let r := callWithRetry (fun _ => ((), some ZkError.errSessionExpired))
      (fun _ => 0) fuel 0 (CuratorZookeeperClient.newRetryLoop ⟨newRetryOneTime d⟩)
    r.steps = List.replicate fuel .proc ∧ r.result = none :=
  callWithRetry_no_sleeper_of_retryable
    (fun _ => ⟨(), .errSessionExpired, rfl, rfl⟩) fuel 0 _ rfl

/-! ### Runs with a sleeper -/

/-- The count passed to `SleepingRetry.AllowRetry` must be below `N` for a
retry to be allowed; the allowed retry slept exactly once. -/
theorem SleepingRetry.allowRetry_true {N : ℤ}
    {getSleepTime : ℕ → Duration → Duration} {k : ℕ} {t : Duration}
    {sleeper : RetrySleeper}
    (h : (SleepingRetry.allowRetry N getSleepTime k t sleeper).1 = true) :
    (k : ℤ) < N ∧ (SleepingRetry.allowRetry N getSleepTime k t sleeper).2 =
      [getSleepTime k t] := by
  unfold SleepingRetry.allowRetry at h ⊢
  split_ifs at h ⊢ with hk
  exact ⟨hk, rfl⟩

/-- Even with a sleeper set, `RetryOneTime` never retries: the first
consultation passes the count 1, which is not below the bound 1. -/
theorem callWithRetry_retryOneTime_of_sleeper
    {proc : ℕ → α × Option ZkError} {elapsed : ℕ → Duration}
    {sleeper : RetrySleeper} {d : Duration} {ret : α} {e : ZkError}
    (hproc : proc 0 = (ret, some e)) (he : shouldRetry e = true) (fuel : ℕ) :
    (callWithRetry proc elapsed (fuel + 1) 0
        ⟨0, newRetryOneTime d, some sleeper⟩).result = some (ret, some e) := by
  rw [callWithRetry_retryable_of_sleeper hproc he rfl]
  simp [newRetryOneTime, newRetryNTimes, sleepingRetry, SleepingRetry.allowRetry]

/-! ### The sleeps of `ExponentialBackoffRetry`

`getSleepTime` multiplies the base sleep by the random factor as `int64`s and
caps the product only afterwards: while the exact product fits, the sleep is
the capped product, and past `MaxInt64` the product wraps before the cap. -/

section Backoff

variable {baseSleepTime maxSleep : Duration} {maxRetries : ℤ} {int63n : ℕ → ℤ}
  {retryCount : ℕ}

theorem wrapInt64_of_fits {x : ℤ} (hlo : -2 ^ 63 ≤ x) (hhi : x ≤ maxInt64) :
    wrapInt64 x = x := by
  unfold maxInt64 at hhi
  unfold wrapInt64
  omega

/-- While the product fits in an `int64`, the sleep is the product capped at
`maxSleep`. -/
theorem exponentialBackoffSleepTime_of_fits (elapsedTime : Duration)
    (hlo : -2 ^ 63 ≤ baseSleepTime * int63n retryCount)
    (hhi : baseSleepTime * int63n retryCount ≤ maxInt64) :
    exponentialBackoffSleepTime baseSleepTime maxSleep int63n retryCount elapsedTime =
      min maxSleep (baseSleepTime * int63n retryCount) := by
  unfold exponentialBackoffSleepTime
  rw [wrapInt64_of_fits hlo hhi]
  dsimp only
  rw [Int.min_def]
  split_ifs with hgt hle hle
  · rfl
  · exact absurd (Int.le_of_lt hgt) hle
  · exact Int.le_antisymm (Int.not_lt.mp hgt) hle
  · rfl

/-- Below its bound, `AllowRetry` of an `ExponentialBackoffRetry` sleeps once,
for what `getSleepTime` answers. -/
theorem newExponentialBackoffRetry_sleeps (elapsedTime : Duration) (sleeper : RetrySleeper)
    (hk : (retryCount : ℤ) < min maxRetries maxRetriesLimit) :
    ((newExponentialBackoffRetry baseSleepTime maxRetries maxSleep int63n).allowRetry
        retryCount elapsedTime sleeper).2 =
      [exponentialBackoffSleepTime baseSleepTime maxSleep int63n retryCount elapsedTime] := by
  have hbound : (retryCount : ℤ) <
      (if maxRetries > maxRetriesLimit then maxRetriesLimit else maxRetries) := by
    split_ifs <;> omega
  simp only [newExponentialBackoffRetry, sleepingRetry, SleepingRetry.allowRetry, hbound,
    if_true]

/-- When the base sleep times the largest factor fits in an `int64`, every sleep
below the bound is the factor times the base, capped at `maxSleep`, and lies in
`[0, maxSleep]`. -/
theorem newExponentialBackoffRetry_sleep_of_fits (elapsedTime : Duration)
    (sleeper : RetrySleeper) (hbase : 0 ≤ baseSleepTime) (hmax : 0 ≤ maxSleep)
    (hk : (retryCount : ℤ) < min maxRetries maxRetriesLimit)
    (hr : 0 ≤ int63n retryCount ∧ int63n retryCount < 2 ^ retryCount)
    (hfit : baseSleepTime * (2 ^ retryCount - 1) ≤ maxInt64) :
    ((newExponentialBackoffRetry baseSleepTime maxRetries maxSleep int63n).allowRetry
        retryCount elapsedTime sleeper).2 =
      [min maxSleep (baseSleepTime * int63n retryCount)] ∧
      0 ≤ min maxSleep (baseSleepTime * int63n retryCount) ∧
      min maxSleep (baseSleepTime * int63n retryCount) ≤ maxSleep ∧
      min maxSleep (baseSleepTime * int63n retryCount) ≤ baseSleepTime * (2 ^ retryCount - 1) := by
  have hle : baseSleepTime * int63n retryCount ≤ baseSleepTime * (2 ^ retryCount - 1) :=
    Int.mul_le_mul_of_nonneg_left (by omega) hbase
  have hnonneg : 0 ≤ baseSleepTime * int63n retryCount := Int.mul_nonneg hbase hr.1
  rw [newExponentialBackoffRetry_sleeps elapsedTime sleeper hk,
    exponentialBackoffSleepTime_of_fits elapsedTime (Int.le_trans (by decide) hnonneg)
      (Int.le_trans hle hfit)]
  exact ⟨rfl, Int.le_min.mpr ⟨hmax, hnonneg⟩, Int.min_le_left _ _,
    Int.le_trans (Int.min_le_right _ _) hle⟩

/-- A base sleep of `2^36` ns (about 69 s), the 29th attempt of a policy
allowing 30, and the factor `2^28 - 1` that `rand.Int63n(1<<28)` may return:
the exact product passes `MaxInt64` and wraps to `-2^36`, which the cap lets
through, so the sleeper gets a negative duration instead of `maxSleep`. -/
theorem exponentialBackoff_sleep_wraps :
    ((28 : ℕ) : ℤ) < min 30 maxRetriesLimit ∧ (0 ≤ (2 ^ 28 - 1 : ℤ) ∧ (2 ^ 28 - 1 : ℤ) < 2 ^ 28) ∧
      ((newExponentialBackoffRetry (2 ^ 36) 30 (10 ^ 12) fun _ => 2 ^ 28 - 1).allowRetry 28 0
        defaultRetrySleeper).2 = [-(2 ^ 36)] ∧
      min (10 ^ 12) ((2 : ℤ) ^ 36 * (2 ^ 28 - 1)) = 10 ^ 12 := by
  decide

end Backoff

/-! ### Closures over a world

The `proc` the framework hands to the loop is a closure that talks to the
server.  Over a world `σ` its `n`-th call sees the world the calls before it
left, so the loop runs on the results of those calls in order. -/

variable {σ : Type*}

/-- The world after `n` calls of `proc`. -/
def worldAfter (proc : σ → (α × Option ZkError) × σ) (w : σ) : ℕ → σ
  | 0 => w
  | n + 1 => (proc (worldAfter proc w n)).2

/-- `CallWithRetry(proc)` for a closure `proc` over the world `w`: the run,
and the world after the calls of `proc` it made. -/
def callWithRetryOn (proc : σ → (α × Option ZkError) × σ) (elapsed : ℕ → Duration)
    (fuel : ℕ) (l : RetryLoop) (w : σ) : LoopRun α × σ :=
  let r := callWithRetry (fun n => (proc (worldAfter proc w n)).1) elapsed fuel 0 l
  (r, worldAfter proc w (r.steps.count .proc))

theorem worldAfter_congr {β : Type*} {p : σ → (α × Option ZkError) × σ}
    {q : σ → (β × Option ZkError) × σ} (h : ∀ w, (q w).2 = (p w).2) (w : σ) (n : ℕ) :
    worldAfter q w n = worldAfter p w n := by
  induction n with
  | zero => rfl
  | succ n ih => simp only [worldAfter, ih, h]

/-- Two closures that leave the same worlds, and whose errors agree on
`ShouldRetry`, leave the same world and related results. -/
theorem callWithRetryOn_rel {β : Type*} (R : α × Option ZkError → β × Option ZkError → Prop)
    {p : σ → (α × Option ZkError) × σ} {q : σ → (β × Option ZkError) × σ}
    (hworld : ∀ w, (q w).2 = (p w).2) (hR : ∀ w, R (p w).1 (q w).1)
    (hretry : ∀ w, (p w).1.2.any shouldRetry = (q w).1.2.any shouldRetry)
    (elapsed : ℕ → Duration) (fuel : ℕ) (l : RetryLoop) (w : σ) :
    (callWithRetryOn q elapsed fuel l w).2 = (callWithRetryOn p elapsed fuel l w).2 ∧
      Option.Rel R (callWithRetryOn p elapsed fuel l w).1.result
        (callWithRetryOn q elapsed fuel l w).1.result := by
  have hq : (fun n => (q (worldAfter q w n)).1) = fun n => (q (worldAfter p w n)).1 := by
    funext n
    rw [worldAfter_congr hworld]
  obtain ⟨-, hsteps, hres⟩ := callWithRetry_rel R (fun n => (p (worldAfter p w n)).1)
    (fun n => (q (worldAfter p w n)).1) elapsed (fun n => hR _) (fun n => hretry _) fuel 0 l
  simp only [callWithRetryOn, hq]
  exact ⟨by rw [hsteps, worldAfter_congr hworld], hres⟩

/-- A loop that returned returns what its last call of `proc` returned, and
leaves the world that call left. -/
theorem callWithRetryOn_of_result {proc : σ → (α × Option ZkError) × σ}
    {elapsed : ℕ → Duration} {fuel : ℕ} {l : RetryLoop} {w : σ} {r : α × Option ZkError}
    (hr : (callWithRetryOn proc elapsed fuel l w).1.result = some r) :
    ∃ k, (proc (worldAfter proc w k)).1 = r ∧
      (callWithRetryOn proc elapsed fuel l w).2 = (proc (worldAfter proc w k)).2 := by
  obtain ⟨k, hk, hrk⟩ := callWithRetry_result_eq_some fuel 0 l r hr
  refine ⟨k, by simpa using hrk, ?_⟩
  simp only [callWithRetryOn, hk]
  rfl

/-- A first call that ends the loop leaves the world that call left. -/
theorem callWithRetryOn_of_final {proc : σ → (α × Option ZkError) × σ}
    {elapsed : ℕ → Duration} {fuel : ℕ} {l : RetryLoop} {w : σ} {ret : α}
    {err : Option ZkError} (hproc : (proc w).1 = (ret, err))
    (hfinal : ∀ e, err = some e → shouldRetry e = false) :
    callWithRetryOn proc elapsed (fuel + 1) l w = (⟨l, [.proc], some (ret, err)⟩, (proc w).2) := by
  have hfirst : (fun n => (proc (worldAfter proc w n)).1) 0 = (ret, err) := hproc
  simp only [callWithRetryOn]
  rw [callWithRetry_of_final hfirst hfinal]
  rfl

end Curator
