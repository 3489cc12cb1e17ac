import Curator.State.Lifecycle

/-!
# What the races between `Start`, `Close` and `Conn` leave behind

The handleHolder of `state.go` has no lock, so the routines of
`State.HolderSteps` that `Start`, `Close` and `Conn` run on the client's
`connectionState` interleave, one access of the holder at a time.

* A connection that is open, that the holder does not cache and that no
  goroutine holds between its dial and its write (`Leaked`) stays so for good:
  every step of every goroutine opens only what it dials and closes only the
  cached connection or its own dial.  Two `Conn` calls that find the holder's
  factory at once each dial and write their connection; the second write
  hides the first, which is then leaked.
* Once the framework is `STOPPED` with no `Start` or `Close` under way
  (`Settled`), the compare-and-swaps refuse every later call: the framework,
  its manager and its client's flag stay as they are, and only `Conn` calls
  of a started client still reach the holder.  Where every dial succeeds they
  keep it serving an open connection whenever none of them is under way
  (`Serving`).  So a `Close` that runs between `Start`'s compare-and-swap and
  its manager step leaves the manager `STARTED`, with its event goroutine,
  and the client started with a connection open, for good.
* A `Conn` past its `started` check when a `Close` runs either returns no
  connection and no error, or dials a connection that nothing closes any more.
-/

namespace Curator

namespace FrameworkPc

/-- Past `Conn`'s check, the goroutine will write the holder's helper before
it returns. -/
def WillWrite (helper : Option ZookeeperHelper) : FrameworkPc → Prop
  | .connecting p => p.WillWrite helper
  | _ => False

variable {p : FrameworkPc}

theorem held_of_isIdle (hp : p.isIdle) : p.held = none := by
  cases p <;> first | rfl | cases hp

theorem inConn_of_isIdle (hp : p.isIdle) : p.inConn = false := by
  cases p <;> first | rfl | cases hp

theorem not_willWrite_of_isIdle (hp : p.isIdle) (helper : Option ZookeeperHelper) :
    ¬ p.WillWrite helper := by
  cases p <;> first | exact id | cases hp

theorem inConn_of_willWrite {helper : Option ZookeeperHelper} (hw : p.WillWrite helper) :
    p.inConn = true := by
  cases p <;> first | rfl | exact hw.elim

/-- Outside the three calls' routines a goroutine holds no connection. -/
theorem held_eq_none (hs : p.inStart = false) (hc : p.inClose = false) (hq : p.inConn = false) :
    p.held = none := by
  cases p with
  | startingConnection _ => cases hs
  | closingConnection _ => cases hc
  | connecting _ => cases hq
  | _ => rfl

@[simp] theorem held_connecting (x : ConnPc ⊕ Except ZkError (Option ConnId)) :
    (Sum.elim connecting connReturned x).held = Sum.elim ConnPc.held (fun _ => none) x := by
  cases x <;> rfl

@[simp] theorem willWrite_connecting (helper : Option ZookeeperHelper)
    (x : ConnPc ⊕ Except ZkError (Option ConnId)) :
    (Sum.elim connecting connReturned x).WillWrite helper =
      Sum.elim (ConnPc.WillWrite helper) (fun _ => False) x := by
  cases x <;> rfl

@[simp] theorem inStart_connecting (x : ConnPc ⊕ Except ZkError (Option ConnId)) :
    (Sum.elim connecting connReturned x).inStart = false := by
  cases x <;> rfl

@[simp] theorem inClose_connecting (x : ConnPc ⊕ Except ZkError (Option ConnId)) :
    (Sum.elim connecting connReturned x).inClose = false := by
  cases x <;> rfl

end FrameworkPc

/-- Is this a goroutine's call of `Conn()`? -/
def FrameworkAction.isConnCall : FrameworkAction → Bool
  | .call _ .conn => true
  | _ => false

namespace FrameworkWorld

variable {w : FrameworkWorld} {i : ℕ}

/-! ### A leaked connection -/

/-- `c` is open, the client's holder does not cache it, and no goroutine
holds it between a dial and a write. -/
def Leaked (c : ConnId) (w : FrameworkWorld) : Prop :=
  w.conn.zooKeeper.OpenUncached c ∧ ∀ j, (w.pcs j).held ≠ some c

variable {c : ConnId}

theorem Leaked.congr (hl : w.Leaked c) {w' : FrameworkWorld} {p : FrameworkPc}
    (hpcs : w'.pcs = Function.update w.pcs i p) (hconn : w'.conn = w.conn) (hp : p.held ≠ some c) :
    w'.Leaked c := by
  refine ⟨by rw [hconn]; exact hl.1, ?_⟩
  rw [hpcs]
  exact (Function.forall_update_iff w.pcs fun _ q => q.held ≠ some c).mpr ⟨hp, fun j _ => hl.2 j⟩

/-- A step of the routine goroutine `i` runs on the client's
`connectionState` keeps `c` leaked when the step keeps it open and uncached
and does not come to hold it. -/
theorem Leaked.advance (hl : w.Leaked c) {π ρ : Type} {wrap : π → FrameworkPc}
    {ret : ρ → FrameworkPc} {heldAt : π → Option ConnId} (hwrap : ∀ p, (wrap p).held = heldAt p)
    (hret : ∀ x, (ret x).held = none) {p : π} (hpc : w.pcs i = wrap p)
    {r : (π ⊕ ρ) × ClientConnectionState}
    (hr : w.conn.zooKeeper.OpenUncached c → heldAt p ≠ some c →
      r.2.zooKeeper.OpenUncached c ∧ Sum.elim heldAt (fun _ => none) r.1 ≠ some c) :
    (w.advance i wrap ret r).Leaked c := by
  have hp : heldAt p ≠ some c := by
    rw [← hwrap, ← hpc]
    exact hl.2 i
  obtain ⟨hu, hheld⟩ := hr hl.1 hp
  have hi' : (Sum.elim wrap ret r.1).held ≠ some c := by
    rcases r with ⟨p' | x, s'⟩
    · rw [Sum.elim_inl, hwrap]
      exact hheld
    · rw [Sum.elim_inr, hret]
      exact (Option.some_ne_none c).symm
  refine ⟨hu, ?_⟩
  rw [advance_pcs]
  exact (Function.forall_update_iff w.pcs fun _ q => q.held ≠ some c).mpr ⟨hi', fun j _ => hl.2 j⟩

section Leak

variable (connStr : GoString) (ensembleError : Option ZkError)

/-- No step of any goroutine closes a leaked connection, caches it or comes
to hold it. -/
theorem Leaked.step (hl : w.Leaked c) (e : FrameworkAction) :
    (w.step connStr ensembleError e).Leaked c := by
  cases e with
  | call i c' =>
    by_cases hi : (w.pcs i).isIdle
    · cases c' with
      | start =>
        rw [step_call_start w i connStr ensembleError hi]
        unfold FrameworkWorld.callStart
        split <;> exact hl.congr rfl rfl (by simp [FrameworkPc.held])
      | close =>
        rw [step_call_close w i connStr ensembleError hi]
        unfold FrameworkWorld.callClose
        split <;> exact hl.congr rfl rfl (by simp [FrameworkPc.held])
      | conn =>
        rw [step_call_conn w i connStr ensembleError hi]
        unfold FrameworkWorld.callConn
        split <;> exact hl.congr rfl rfl (by simp [FrameworkPc.held, ConnPc.held])
    · rw [step_call_of_busy w i connStr ensembleError (by simpa using hi) c']
      exact hl
  | run i now =>
    rw [step_run]
    rcases runStep_cases connStr ensembleError w i now with
      ⟨p, hpc, he⟩ | ⟨p, hpc, he⟩ | ⟨p, hpc, he⟩ | ⟨p, hpcs, hconn, hp⟩
    · rw [he]
      exact hl.advance (fun _ => rfl) (fun _ => rfl) hpc
        (ClientConnectionState.startStep_effect connStr ensembleError p w.conn).openUncached
    · rw [he]
      exact hl.advance (fun _ => rfl) (fun _ => rfl) hpc
        (ClientConnectionState.closeStep_openUncached connStr)
    · rw [he]
      exact hl.advance (fun _ => rfl) (fun _ => rfl) hpc
        (ClientConnectionState.connStep_effect connStr now p w.conn).openUncached
    · exact hl.congr hpcs hconn (by rw [hp]; exact (Option.some_ne_none c).symm)
  | addListener l => exact hl
  | addUnhandledErrorListener l => exact hl

theorem Leaked.foldl (hl : w.Leaked c) (es : List FrameworkAction) :
    (es.foldl (FrameworkWorld.step connStr ensembleError) w).Leaked c := by
  induction es generalizing w with
  | nil => exact hl
  | cons e es ih => exact ih (hl.step connStr ensembleError e)

end Leak

/-! ### A framework closed for good -/

/-- A framework closed for good: `STOPPED`, with no goroutine inside `Start`
or `Close`. -/
structure Settled (w : FrameworkWorld) : Prop where
  stopped : w.state = .stopped
  noStart : Region.Empty FrameworkPc.inStart w.pcs
  noClose : Region.Empty FrameworkPc.inClose w.pcs

theorem Settled.setPc (h : w.Settled) {p : FrameworkPc} (hs : p.inStart = false)
    (hc : p.inClose = false) : (w.setPc i p).Settled :=
  ⟨h.stopped, h.noStart.update hs, h.noClose.update hc⟩

section Settle

variable (connStr : GoString) (ensembleError : Option ZkError)

/-- A call on a settled framework: its compare-and-swaps fail, and `Conn`
gets past its check only on a started client. -/
theorem Settled.step_call (h : w.Settled) (i : ℕ) (c : LifecycleCall) :
    w.step connStr ensembleError (.call i c) = w ∨
      (w.pcs i).isIdle ∧ ∃ p, w.step connStr ensembleError (.call i c) = w.setPc i p ∧
        (p.isIdle ∨ p = .connecting .dequeuing ∧ w.started = true ∧ c = .conn) := by
  have hne : w.state ≠ .latent := by
    rw [h.stopped]
    exact State.noConfusion
  have hns : w.state ≠ .started := by
    rw [h.stopped]
    exact State.noConfusion
  cases hi : (w.pcs i).isIdle with
  | false => exact .inl (step_call_of_busy w i connStr ensembleError hi c)
  | true =>
    refine .inr ⟨rfl, ?_⟩
    cases c with
    | start =>
      exact ⟨_, (step_call_start w i connStr ensembleError hi).trans (callStart_of_ne w i hne),
        .inl rfl⟩
    | close =>
      exact ⟨_, (step_call_close w i connStr ensembleError hi).trans (callClose_of_ne w i hns),
        .inl rfl⟩
    | conn =>
      rw [step_call_conn w i connStr ensembleError hi]
      unfold FrameworkWorld.callConn
      split
      · next hb => exact ⟨_, rfl, .inr ⟨rfl, hb, rfl⟩⟩
      · exact ⟨_, rfl, .inl rfl⟩

/-- A step of a goroutine of a settled framework: nothing, between calls, or a
step of `Conn`. -/
theorem Settled.runStep_cases (h : w.Settled) (i : ℕ) (now : Duration) :
    (w.pcs i).isIdle ∧ w.runStep connStr ensembleError i now = w ∨
      ∃ p, w.pcs i = .connecting p ∧ w.runStep connStr ensembleError i now =
        w.advance i .connecting .connReturned (w.conn.connStep connStr now p) := by
  have hs := h.noStart i
  have hc := h.noClose i
  cases hpc : w.pcs i with
  | connecting p => exact .inr ⟨p, rfl, runStep_connecting w i connStr ensembleError now hpc⟩
  | idle | startReturned _ | closeReturned _ | connReturned _ =>
    exact .inl ⟨rfl, runStep_of_isIdle w i connStr ensembleError now (by rw [hpc]; rfl)⟩
  | startingManager | startingClient | startingConnection _ =>
    rw [hpc] at hs
    cases hs
  | notifyingListeners | clearingListeners | closingManager | closingClient | closingConnection _ =>
    rw [hpc] at hc
    cases hc

/-- One step of a settled framework: it stays settled, with its manager and
its flag, and the holder's helper, if set, is not cleared. -/
theorem Settled.step (h : w.Settled) (e : FrameworkAction) :
    (w.step connStr ensembleError e).Settled ∧ (w.step connStr ensembleError e).manager = w.manager ∧
      (w.step connStr ensembleError e).started = w.started ∧
      (w.conn.zooKeeper.helper ≠ none →
        (w.step connStr ensembleError e).conn.zooKeeper.helper ≠ none) := by
  cases e with
  | call i c =>
    rcases h.step_call connStr ensembleError i c with he | ⟨-, p, he, hp⟩ <;> rw [he]
    · exact ⟨h, rfl, rfl, id⟩
    · have hout : p.inStart = false ∧ p.inClose = false := by
        rcases hp with hp | ⟨rfl, -, -⟩
        · exact ⟨FrameworkPc.inStart_of_isIdle hp, FrameworkPc.inClose_of_isIdle hp⟩
        · exact ⟨rfl, rfl⟩
      exact ⟨h.setPc hout.1 hout.2, rfl, rfl, id⟩
  | run i now =>
    rw [step_run]
    rcases h.runStep_cases connStr ensembleError i now with ⟨-, he⟩ | ⟨p, -, he⟩ <;> rw [he]
    · exact ⟨h, rfl, rfl, id⟩
    · exact ⟨⟨h.stopped, h.noStart.update (by simp), h.noClose.update (by simp)⟩, rfl, rfl,
        (ClientConnectionState.connStep_effect connStr now p w.conn).helper_ne_none⟩
  | addListener l => exact ⟨⟨h.stopped, h.noStart, h.noClose⟩, rfl, rfl, id⟩
  | addUnhandledErrorListener l => exact ⟨⟨h.stopped, h.noStart, h.noClose⟩, rfl, rfl, id⟩

/-- Over every run from a settled framework, by induction on the run. -/
theorem Settled.foldl (h : w.Settled) (es : List FrameworkAction) :
    let w' := es.foldl (FrameworkWorld.step connStr ensembleError) w
    w'.Settled ∧ w'.manager = w.manager ∧ w'.started = w.started ∧
      (w.conn.zooKeeper.helper ≠ none → w'.conn.zooKeeper.helper ≠ none) := by
  induction es generalizing w with
  | nil => exact ⟨h, rfl, rfl, id⟩
  | cons e es ih =>
    obtain ⟨h₁, hm₁, hb₁, hc₁⟩ := h.step connStr ensembleError e
    obtain ⟨h₂, hm₂, hb₂, hc₂⟩ := ih h₁
    exact ⟨h₂, hm₂.trans hm₁, hb₂.trans hb₁, hc₂ ∘ hc₁⟩

/-- With no goroutine past `Conn`'s check, a step of a settled framework that
is no `Conn` call, or any step once the client is not started, keeps it so and
leaves the client's `connectionState` as it is. -/
theorem Settled.step_quiet (h : w.Settled) (hq : ∀ j, (w.pcs j).inConn = false)
    {e : FrameworkAction} (he : w.started = false ∨ e.isConnCall = false) :
    (∀ j, ((w.step connStr ensembleError e).pcs j).inConn = false) ∧
      (w.step connStr ensembleError e).conn = w.conn := by
  cases e with
  | call i c =>
    rcases h.step_call connStr ensembleError i c with hs | ⟨-, p, hs, hp⟩ <;> rw [hs]
    · exact ⟨hq, rfl⟩
    · rcases hp with hp | ⟨rfl, hb, rfl⟩
      · refine ⟨?_, rfl⟩
        rw [setPc_pcs]
        exact (Function.forall_update_iff w.pcs fun _ q => q.inConn = false).mpr
          ⟨FrameworkPc.inConn_of_isIdle hp, fun j _ => hq j⟩
      · rcases he with he | he
        · rw [hb] at he
          cases he
        · cases he
  | run i now =>
    rw [step_run]
    rcases h.runStep_cases connStr ensembleError i now with ⟨-, hs⟩ | ⟨p, hp, -⟩
    · rw [hs]
      exact ⟨hq, rfl⟩
    · have hi := hq i
      rw [hp] at hi
      cases hi
  | addListener l => exact ⟨hq, rfl⟩
  | addUnhandledErrorListener l => exact ⟨hq, rfl⟩

theorem Settled.foldl_quiet (h : w.Settled) (hq : ∀ j, (w.pcs j).inConn = false)
    (es : List FrameworkAction) (he : w.started = false ∨ ∀ e ∈ es, e.isConnCall = false) :
    (∀ j, ((es.foldl (FrameworkWorld.step connStr ensembleError) w).pcs j).inConn = false) ∧
      (es.foldl (FrameworkWorld.step connStr ensembleError) w).conn = w.conn := by
  induction es generalizing w with
  | nil => exact ⟨hq, rfl⟩
  | cons e es ih =>
    obtain ⟨h₁, -, hb₁, -⟩ := h.step connStr ensembleError e
    obtain ⟨hq₁, hc₁⟩ :=
      h.step_quiet connStr ensembleError hq (he.imp id fun he => he e List.mem_cons_self)
    have he₁ : (w.step connStr ensembleError e).started = false ∨ ∀ e' ∈ es, e'.isConnCall = false :=
      he.imp (fun hb => hb₁.trans hb) fun he e' he' => he e' (List.mem_cons_of_mem e he')
    obtain ⟨hq₂, hc₂⟩ := ih h₁ hq₁ he₁
    exact ⟨hq₂, hc₂.trans hc₁⟩

end Settle

/-! ### A holder that keeps serving -/

section Serve

variable (connStr : GoString) (ensembleError : Option ZkError)

/-- Every dial succeeds; the connection the holder caches was dialed; every
connection a goroutine dialed and has not written is open, uncached and held
by that goroutine alone; and the holder serves an open connection, or some
`Conn` will still write it. -/
structure Serving (w : FrameworkWorld) : Prop where
  dials : w.conn.zooKeeper.dialer.DialsSucceed connStr
  cachedDialed : w.conn.zooKeeper.CachedDialed
  held : ∀ j c, (w.pcs j).held = some c →
    w.conn.zooKeeper.OpenUncached c ∧ ∀ k, k ≠ j → (w.pcs k).held ≠ some c
  serves : w.conn.zooKeeper.ServesOpen ∨ ∃ j, (w.pcs j).WillWrite w.conn.zooKeeper.helper

/-- A settled framework with no `Conn` under way, whose holder serves an open
connection. -/
theorem Settled.serving (h : w.Settled) (hq : ∀ j, (w.pcs j).inConn = false)
    (hd : w.conn.zooKeeper.dialer.DialsSucceed connStr) (hsv : w.conn.zooKeeper.ServesOpen) :
    w.Serving connStr where
  dials := hd
  cachedDialed := hsv.cachedDialed
  held j c hc := by
    rw [FrameworkPc.held_eq_none (h.noStart j) (h.noClose j) (hq j)] at hc
    cases hc
  serves := .inl hsv

/-- With no `Conn` under way, the holder serves an open connection. -/
theorem Serving.servesOpen (hs : w.Serving connStr) (hq : ∀ j, (w.pcs j).inConn = false) :
    w.conn.zooKeeper.ServesOpen := by
  rcases hs.serves with hsv | ⟨j, hj⟩
  · exact hsv
  · have hc := FrameworkPc.inConn_of_willWrite hj
    rw [hq j] at hc
    cases hc

/-- A goroutine that moves to a point where it holds nothing, from one where
it will not write, the `connectionState` unchanged. -/
theorem Serving.setPc (hs : w.Serving connStr) {p : FrameworkPc}
    (hw : ¬ (w.pcs i).WillWrite w.conn.zooKeeper.helper) (hp : p.held = none) :
    (w.setPc i p).Serving connStr := by
  refine ⟨hs.dials, hs.cachedDialed, fun j c hc => ?_, ?_⟩
  · have hji : j ≠ i := by
      rintro rfl
      rw [setPc_pcs, Function.update_self, hp] at hc
      cases hc
    rw [setPc_pcs, Function.update_of_ne hji] at hc
    obtain ⟨hu, huniq⟩ := hs.held j c hc
    refine ⟨hu, fun k hk => ?_⟩
    by_cases hki : k = i
    · rw [hki, setPc_pcs, Function.update_self, hp]
      exact (Option.some_ne_none c).symm
    · rw [setPc_pcs, Function.update_of_ne hki]
      exact huniq k hk
  · rcases hs.serves with hsv | ⟨j, hj⟩
    · exact .inl hsv
    · have hji : j ≠ i := by
        rintro rfl
        exact hw hj
      exact .inr ⟨j, by rw [setPc_pcs, Function.update_of_ne hji]; exact hj⟩

/-- A step of `Conn` keeps the holder serving: what it dials is fresh, what it
holds stays open, and a `Conn` that will write keeps so or leaves the holder
serving an open connection, while one that will not write leaves the holder
alone. -/
theorem Serving.advance (hs : w.Serving connStr) {k : ℕ} {p : ConnPc}
    (hk : w.pcs k = .connecting p) (now : Duration) :
    (w.advance k .connecting .connReturned (w.conn.connStep connStr now p)).Serving connStr := by
  have he := ClientConnectionState.connStep_effect connStr now p w.conn
  have hheld : ∀ c, p.held = some c →
      w.conn.zooKeeper.OpenUncached c ∧ ∀ j, j ≠ k → (w.pcs j).held ≠ some c := fun c hc =>
    hs.held k c (by rw [hk]; exact hc)
  refine ⟨fun n => ?_, he.cachedDialed hs.cachedDialed fun c hc => (hheld c hc).1.2.1,
    fun j c hc => ?_, ?_⟩
  · rw [advance_conn, he.dialError]
    exact hs.dials n
  · by_cases hjk : j = k
    · rw [hjk, advance_pcs, Function.update_self, FrameworkPc.held_connecting] at hc
      obtain ⟨hu, hle⟩ := he.held_fresh hs.cachedDialed hc
      refine ⟨hu, fun i hi hci => ?_⟩
      rw [advance_pcs, Function.update_of_ne (hjk ▸ hi)] at hci
      exact absurd (hs.held i c hci).1.2.1 (Nat.not_lt.mpr hle)
    · rw [advance_pcs, Function.update_of_ne hjk] at hc
      obtain ⟨hu, huniq⟩ := hs.held j c hc
      have hpk : p.held ≠ some c := by
        have := huniq k (Ne.symm hjk)
        rwa [hk] at this
      obtain ⟨hu', hk'⟩ := he.openUncached hu hpk
      refine ⟨hu', fun i hi => ?_⟩
      by_cases hik : i = k
      · rw [hik, advance_pcs, Function.update_self, FrameworkPc.held_connecting]
        exact hk'
      · rw [advance_pcs, Function.update_of_ne hik]
        exact huniq i hi
  · by_cases hw : p.WillWrite w.conn.zooKeeper.helper
    · rcases ClientConnectionState.connStep_willWrite hs.dials hw
        (fun c hc => ⟨(hheld c hc).1.1, (hheld c hc).1.2.1⟩) with hw' | hsv
      · exact .inr ⟨k, by rw [advance_pcs, Function.update_self, FrameworkPc.willWrite_connecting]; exact hw'⟩
      · exact .inl hsv
    · rw [advance_conn, ClientConnectionState.connStep_zooKeeper_of_not_willWrite hw]
      rcases hs.serves with hsv | ⟨j, hj⟩
      · exact .inl hsv
      · have hjk : j ≠ k := by
          rintro rfl
          rw [hk] at hj
          exact hw hj
        exact .inr ⟨j, by rw [advance_pcs, Function.update_of_ne hjk]; exact hj⟩

theorem Serving.step (hs : w.Serving connStr) (h : w.Settled) (e : FrameworkAction) :
    (w.step connStr ensembleError e).Serving connStr := by
  cases e with
  | call i c =>
    rcases h.step_call connStr ensembleError i c with he | ⟨hi, p, he, hp⟩ <;> rw [he]
    · exact hs
    · refine hs.setPc connStr (FrameworkPc.not_willWrite_of_isIdle hi _) ?_
      rcases hp with hp | ⟨rfl, -, -⟩
      · exact FrameworkPc.held_of_isIdle hp
      · rfl
  | run i now =>
    rw [step_run]
    rcases h.runStep_cases connStr ensembleError i now with ⟨-, he⟩ | ⟨p, hp, he⟩ <;> rw [he]
    · exact hs
    · exact hs.advance connStr hp now
  | addListener l => exact ⟨hs.dials, hs.cachedDialed, hs.held, hs.serves⟩
  | addUnhandledErrorListener l => exact ⟨hs.dials, hs.cachedDialed, hs.held, hs.serves⟩

/-- Over every run from a settled framework, by induction on the run. -/
theorem Serving.foldl (hs : w.Serving connStr) (h : w.Settled) (es : List FrameworkAction) :
    (es.foldl (FrameworkWorld.step connStr ensembleError) w).Serving connStr := by
  induction es generalizing w with
  | nil => exact hs
  | cons e es ih =>
    exact ih (hs.step connStr ensembleError h e) (h.step connStr ensembleError e).1

end Serve

/-! ### A `Conn` racing a `Close` -/

section Race

variable (connStr : GoString) (ensembleError : Option ZkError)

/-- Goroutine `j` runs `Close` to its end on a `STARTED` framework, then
goroutine `i`, already past `Conn`'s check, runs `Conn` to its end on the
closed `connectionState`. -/
theorem closeThenConn_eq {j : ℕ} (hij : i ≠ j) (hi : w.pcs i = .connecting .dequeuing)
    (hj : (w.pcs j).isIdle) (hst : w.state = .started) (t t' : Duration) :
    ((FrameworkAction.call j .close :: List.replicate 8 (.run j t)) ++
      List.replicate 9 (FrameworkAction.run i t')).foldl (FrameworkWorld.step connStr ensembleError) w =
      { w with
        state := .stopped, manager := w.manager.close, started := false,
        conn := ((w.conn.close connStr).2.conn t' connStr).2, listeners := [],
        unhandledErrorListeners := [], closing := w.closing ++ w.listeners,
        pcs := Function.update (Function.update w.pcs j (.closeReturned (w.conn.close connStr).1))
          i (.connReturned ((w.conn.close connStr).2.conn t' connStr).1) } := by
  rw [List.foldl_append, closeCall_eq connStr ensembleError hj hst t]
  refine Eq.trans (foldl_run_routine connStr ensembleError
    (fun v p hv => runStep_connecting v i connStr ensembleError t' hv) (fun _ => rfl) ?_
    (ClientConnectionState.run_connStep connStr t' (w.conn.close connStr).2)) rfl
  show Function.update w.pcs j _ i = _
  rw [Function.update_of_ne hij, hi]

end Race

end FrameworkWorld

open FrameworkWorld in
/-- A `Conn()` already past its `started` check when a `Close()` begins, on a
reachable framework `STARTED` with no `Start` under way and no other `Conn`
past its check: `Close` runs to its end, then the `Conn` runs to its end.  The
framework is `STOPPED` and the client not started, yet a connection the `Conn`
returns is open, and stays open whatever the goroutines do next, the
framework staying `STOPPED`: every later `Close` fails its compare-and-swap.
When the client held a connection, has no queued error and the `Conn` comes
before the smaller timeout, it returns no connection and no error. -/
theorem framework_conn_racing_close (connStr : GoString) (ensembleError : Option ZkError)
    (now sessionTimeout connectionTimeout : Duration) {dialer : Dialer} {w : FrameworkWorld}
    (hw : TransitionSystem.Reachable
      (system connStr ensembleError now sessionTimeout connectionTimeout dialer) w)
    (hst : w.state = .started) (hstart : ∀ k, (w.pcs k).inStart = false) {i j : ℕ} (hij : i ≠ j)
    (hi : w.pcs i = .connecting .dequeuing) (hj : (w.pcs j).isIdle)
    (hconn : ∀ k, k ≠ i → (w.pcs k).inConn = false) (t t' : Duration) :
    let w' := ((FrameworkAction.call j .close :: List.replicate 8 (.run j t)) ++
      List.replicate 9 (FrameworkAction.run i t')).foldl (FrameworkWorld.step connStr ensembleError) w
    w'.state = .stopped ∧ w'.started = false ∧
      (∀ c, w'.pcs i = .connReturned (.ok (some c)) → ∀ es : List FrameworkAction,
        (es.foldl (FrameworkWorld.step connStr ensembleError) w').state = .stopped ∧
        c ∈ (es.foldl (FrameworkWorld.step connStr ensembleError) w').conn.zooKeeper.dialer.openConns) ∧
      (w.conn.zooKeeper.cachedConn ≠ none → w.conn.backgroundErrors = [] →
        t' - w.conn.connectionStart < w.conn.timeouts.1 → w'.pcs i = .connReturned (.ok none)) := by
  intro w'
  have h := TransitionSystem.Reachable.of_inductive
    (invariant_inductive connStr ensembleError now sessionTimeout connectionTimeout dialer) hw
  have hw' : w' = _ := closeThenConn_eq connStr ensembleError hij hi hj hst t t'
  have hpcs : w'.pcs = Function.update (Function.update w.pcs j
      (.closeReturned (w.conn.close connStr).1)) i
        (.connReturned ((w.conn.close connStr).2.conn t' connStr).1) := by
    rw [hw']
  have hpc : w'.pcs i = .connReturned ((w.conn.close connStr).2.conn t' connStr).1 := by
    rw [hpcs, Function.update_self]
  have hflag : w'.started = false := by rw [hw']
  have hsettled : w'.Settled := by
    have hstart' : Region.Empty FrameworkPc.inStart w.pcs := hstart
    have hclose : Region.Empty FrameworkPc.inClose w.pcs :=
      h.inClose_of_ne_stopped (by rw [hst]; exact State.noConfusion)
    refine ⟨by rw [hw'], ?_, ?_⟩ <;> rw [hpcs]
    · exact (hstart'.update rfl).update rfl
    · exact (hclose.update rfl).update rfl
  have hquiet : ∀ k, (w'.pcs k).inConn = false := by
    rw [hpcs, Function.update_comm (Ne.symm hij)]
    exact (Region.Empty.update_of_only hconn rfl).update rfl
  refine ⟨hsettled.stopped, hflag, fun c hc es => ?_, fun hcached herr hnow => ?_⟩
  · rw [hpc, FrameworkPc.connReturned.injEq] at hc
    have hcached : (w.conn.close connStr).2.zooKeeper.CachedOpen :=
      HandleHolder.cachedOpen_of_cachedConn (HandleHolder.closeAndClear_cachedConn connStr)
    have hopen : c ∈ w'.conn.zooKeeper.dialer.openConns := by
      rw [hw']
      exact ClientConnectionState.conn_cachedOpen _ connStr t' hcached c
        (ClientConnectionState.conn_cachedConn _ connStr t' hc)
    refine ⟨(hsettled.foldl connStr ensembleError es).1.stopped, ?_⟩
    rw [(hsettled.foldl_quiet connStr ensembleError hquiet es (.inl hflag)).2]
    exact hopen
  · rw [hpc, ClientConnectionState.conn_of_cleared (s := (w.conn.close connStr).2)
      (HandleHolder.closeAndClear_helper_of_cached connStr hcached) rfl herr hnow]

/-- Goroutine `1` has passed `Conn`'s check on a started framework when
goroutine `2` closes it.  At clock time 100, past the larger timeout, the
`Conn` resets and dials connection `1`, which stays open after `Close`; at
clock time 5 it returns neither a connection nor an error. -/
theorem framework_conn_racing_close_leak :
    let connStr := "host:2181".toList
    let dialer : Dialer := ⟨fun _ _ => none, 0, []⟩
    let w := (FrameworkAction.call 0 .start :: List.replicate 7 (FrameworkAction.run 0 0) ++
      [FrameworkAction.call 1 .conn]).foldl
      (FrameworkWorld.step connStr none) (FrameworkWorld.init 0 60 15 dialer)
    let late := ((FrameworkAction.call 2 .close :: List.replicate 8 (.run 2 0)) ++
      List.replicate 9 (FrameworkAction.run 1 100)).foldl (FrameworkWorld.step connStr none) w
    let early := ((FrameworkAction.call 2 .close :: List.replicate 8 (.run 2 0)) ++
      List.replicate 9 (FrameworkAction.run 1 5)).foldl (FrameworkWorld.step connStr none) w
    w.conn.zooKeeper.dialer.openConns = [0] ∧ late.pcs 1 = .connReturned (.ok (some 1)) ∧
      late.conn.zooKeeper.dialer.openConns = [1] ∧ early.pcs 1 = .connReturned (.ok none) ∧
      (late.state = .stopped ∧ late.started = false ∧
        (∀ c, late.pcs 1 = .connReturned (.ok (some c)) → ∀ es : List FrameworkAction,
          (es.foldl (FrameworkWorld.step connStr none) late).state = .stopped ∧
          c ∈ (es.foldl (FrameworkWorld.step connStr none) late).conn.zooKeeper.dialer.openConns) ∧
        (w.conn.zooKeeper.cachedConn ≠ none → w.conn.backgroundErrors = [] →
          100 - w.conn.connectionStart < w.conn.timeouts.1 → late.pcs 1 = .connReturned (.ok none))) ∧
      (early.state = .stopped ∧ early.started = false ∧
        (∀ c, early.pcs 1 = .connReturned (.ok (some c)) → ∀ es : List FrameworkAction,
          (es.foldl (FrameworkWorld.step connStr none) early).state = .stopped ∧
          c ∈ (es.foldl (FrameworkWorld.step connStr none) early).conn.zooKeeper.dialer.openConns) ∧
        (w.conn.zooKeeper.cachedConn ≠ none → w.conn.backgroundErrors = [] →
          5 - w.conn.connectionStart < w.conn.timeouts.1 → early.pcs 1 = .connReturned (.ok none))) := by
  intro connStr dialer w
  have hw : TransitionSystem.Reachable (FrameworkWorld.system connStr none 0 60 15 dialer) w :=
    TransitionSystem.reachable_foldl _
  have hother : ∀ k, k ≠ 0 → k ≠ 1 → w.pcs k = .idle := by
    intro k h0 h1
    rw [FrameworkWorld.foldl_pcs_of_ne connStr none _
      (by simp [FrameworkAction.goroutine, Ne.symm h0, Ne.symm h1]) _]
    rfl
  have h0 : w.pcs 0 = .startReturned none := by decide
  have hstart : ∀ k, (w.pcs k).inStart = false := by
    intro k
    by_cases hk0 : k = 0
    · rw [hk0, h0]
      rfl
    · by_cases hk1 : k = 1
      · rw [hk1]
        decide
      · rw [hother k hk0 hk1]
        rfl
  have hconn : ∀ k, k ≠ 1 → (w.pcs k).inConn = false := by
    intro k hk1
    by_cases hk0 : k = 0
    · rw [hk0, h0]
      rfl
    · rw [hother k hk0 hk1]
      rfl
  have hst : w.state = .started := by decide
  have hi : w.pcs 1 = .connecting .dequeuing := by decide
  have hj : (w.pcs 2).isIdle := by rw [hother 2 (by decide) (by decide)]; rfl
  have h1 : w.conn.zooKeeper.dialer.openConns = [0] := by decide
  have h2 : (((FrameworkAction.call 2 .close :: List.replicate 8 (.run 2 0)) ++
      List.replicate 9 (FrameworkAction.run 1 100)).foldl (FrameworkWorld.step connStr none) w).pcs 1 =
        .connReturned (.ok (some 1)) := by decide
  have h3 : (((FrameworkAction.call 2 .close :: List.replicate 8 (.run 2 0)) ++
      List.replicate 9 (FrameworkAction.run 1 100)).foldl (FrameworkWorld.step connStr none) w).conn.zooKeeper.dialer.openConns =
        [1] := by decide
  have h4 : (((FrameworkAction.call 2 .close :: List.replicate 8 (.run 2 0)) ++
      List.replicate 9 (FrameworkAction.run 1 5)).foldl (FrameworkWorld.step connStr none) w).pcs 1 =
        .connReturned (.ok none) := by decide
  exact ⟨h1, h2, h3, h4,
    framework_conn_racing_close connStr none 0 60 15 hw hst hstart (by decide) hi hj hconn 0 100,
    framework_conn_racing_close connStr none 0 60 15 hw hst hstart (by decide) hi hj hconn 0 5⟩

end Curator
