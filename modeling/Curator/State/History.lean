import Mathlib.Data.List.Chain
import Mathlib.Data.List.Infix
import Curator.State.Manager

/-!
# What the framework posts

`curatorFramework` drives its `connectionStateManager` with four calls only
(`framework.go`): `validateConnection` turns a watched event's
`StateDisconnected` into `SetToSuspended`, and `StateExpired`,
`StateSyncConnected` and `StateConnectedReadOnly` into `AddStateChange` of
`LOST`, `RECONNECTED` and `READ_ONLY`; a `doSyncForSuspendedConnection` whose
sync fails adds `LOST`.

Over these calls the states the manager posts read as `state.go` documents
them (`WellFormedHistory`): no state is posted twice in a row, `CONNECTED` is
posted once and before any `RECONNECTED`, a `RECONNECTED` directly follows a
`SUSPENDED`, `LOST` or `READ_ONLY`, and a lost connection is not suspended.
The manager keeps `currentConnectionState` and `initialConnectMessageSent` in
step with the last post (`HistoryInv`), and the decision each call takes under
the lock keeps both (`HistoryInv.locked`).
-/

namespace Curator

/-- A call the framework makes on its state manager. -/
inductive FrameworkCall where
  /-- `processEvent` of a watched event in `state`: `validateConnection(state)`. -/
  | watched (state : ZkState)
  /-- A `doSyncForSuspendedConnection` whose sync failed: `AddStateChange(LOST)`. -/
  | syncFailed
  deriving DecidableEq, Repr

/-- The manager call a framework call makes, if any. -/
def FrameworkCall.stateCall : FrameworkCall → Option StateCall
  | .watched state => validateConnection state
  | .syncFailed => some (.addStateChange .lost)

/-- The manager calls of the framework: `SetToSuspended`, and `AddStateChange`
of `LOST`, `RECONNECTED` or `READ_ONLY`. -/
def StateCall.FromFramework : StateCall → Prop
  | .addStateChange s => s = .lost ∨ s = .reconnected ∨ s = .readOnly
  | .setToSuspended => True

theorem FrameworkCall.stateCall_fromFramework {c : FrameworkCall} {sc : StateCall}
    (h : c.stateCall = some sc) : sc.FromFramework := by
  cases c with
  | watched state =>
    cases state <;> simp only [stateCall, validateConnection, Option.some.injEq,
      reduceCtorEq] at h <;> subst h <;> simp [StateCall.FromFramework]
  | syncFailed =>
    simp only [stateCall, Option.some.injEq] at h
    subst h
    simp [StateCall.FromFramework]

/-- `b` may be posted right after `a`: never the same state twice, a
`RECONNECTED` only after a suspended, lost or read-only connection, and no
`SUSPENDED` right after `LOST`. -/
def MayFollow (a b : ConnectionState) : Prop :=
  b ≠ a ∧ (b = .reconnected → a = .suspended ∨ a = .lost ∨ a = .readOnly) ∧
    (b = .suspended → a ≠ .lost)

/-- A sequence of posted states that reads as `state.go` documents them:
`CONNECTED` for the first successful connection only, `RECONNECTED` for a
suspended, lost or read-only connection re-established, `SUSPENDED` only if
not already suspended and not lost. -/
structure WellFormedHistory (h : List ConnectionState) : Prop where
  chain : h.IsChain MayFollow
  unknown_not_mem : ConnectionState.unknown ∉ h
  connected_once : h.count .connected ≤ 1
  connected_before_reconnected : ∀ p, p ++ [.reconnected] <+: h → .connected ∈ p

theorem wellFormedHistory_nil : WellFormedHistory [] where
  chain := List.IsChain.nil
  unknown_not_mem := List.not_mem_nil
  connected_once := Nat.zero_le _
  connected_before_reconnected p hp := absurd (List.prefix_nil.mp hp) (by simp)

/-- Posting one more state keeps a history well formed under the local
conditions on that state. -/
theorem WellFormedHistory.snoc {h : List ConnectionState} {p : ConnectionState}
    (hw : WellFormedHistory h) (hfollow : ∀ a ∈ h.getLast?, MayFollow a p)
    (hunknown : p ≠ .unknown) (hconnected : p = .connected → .connected ∉ h)
    (hreconnected : p = .reconnected → .connected ∈ h) : WellFormedHistory (h ++ [p]) where
  chain := by
    refine List.isChain_append.mpr ⟨hw.chain, List.isChain_singleton p, ?_⟩
    intro a ha b hb
    have hbp : b = p := by simpa [eq_comm] using hb
    subst hbp
    exact hfollow a ha
  unknown_not_mem := by
    simp only [List.mem_append, List.mem_singleton, not_or]
    exact ⟨hw.unknown_not_mem, Ne.symm hunknown⟩
  connected_once := by
    rw [List.count_append]
    by_cases hp : p = .connected
    · subst hp
      rw [List.count_eq_zero_of_not_mem (hconnected rfl)]
      simp
    · have hcount : [p].count .connected = 0 :=
        List.count_eq_zero_of_not_mem (by simpa using Ne.symm hp)
      rw [hcount]
      exact hw.connected_once
  connected_before_reconnected q hq := by
    rcases List.prefix_concat_iff.mp hq with heq | hq
    · have hp : p = .reconnected := by simpa [eq_comm] using (List.append_inj' heq rfl).2
      rw [(List.append_inj' heq rfl).1]
      exact hreconnected hp
    · exact hw.connected_before_reconnected q hq

/-- The manager's fields agree with what it posted: its current state is the
last state posted (`RECONNECTED` behind an announced `CONNECTED`), never
`CONNECTED` itself, and the announcement flag says whether `CONNECTED` was
posted. -/
structure HistoryInv (m : ConnectionStateManager) (posted : List ConnectionState) : Prop where
  wellFormed : WellFormedHistory posted
  current : (posted = [] ∧ m.currentConnectionState = .unknown) ∨
    posted.getLast? = some m.currentConnectionState ∨
    (posted.getLast? = some .connected ∧ m.currentConnectionState = .reconnected)
  current_ne_connected : m.currentConnectionState ≠ .connected
  flag : m.initialConnectMessageSent = true ↔ .connected ∈ posted

theorem historyInv_new (m : ConnectionStateManager) (hcur : m.currentConnectionState = .unknown)
    (hflag : m.initialConnectMessageSent = false) : HistoryInv m [] where
  wellFormed := wellFormedHistory_nil
  current := .inl ⟨rfl, hcur⟩
  current_ne_connected := by simp [hcur]
  flag := by simp [hflag]

/-- The invariant reads only the current state and the announcement flag. -/
theorem HistoryInv.of_eq {m m' : ConnectionStateManager} {posted : List ConnectionState}
    (hinv : HistoryInv m posted) (hcur : m'.currentConnectionState = m.currentConnectionState)
    (hflag : m'.initialConnectMessageSent = m.initialConnectMessageSent) : HistoryInv m' posted where
  wellFormed := hinv.wellFormed
  current := by rw [hcur]; exact hinv.current
  current_ne_connected := by rw [hcur]; exact hinv.current_ne_connected
  flag := by rw [hflag]; exact hinv.flag

/-- A prefix of a well-formed history is well formed. -/
theorem WellFormedHistory.of_prefix {h h' : List ConnectionState} (hw : WellFormedHistory h)
    (hp : h' <+: h) : WellFormedHistory h' where
  chain := by
    obtain ⟨t, rfl⟩ := hp
    exact hw.chain.left_of_append
  unknown_not_mem hu := hw.unknown_not_mem (hp.subset hu)
  connected_once := (hp.sublist.count_le _).trans hw.connected_once
  connected_before_reconnected p hq := hw.connected_before_reconnected p (hq.trans hp)

/-! ### The decisions of the framework's calls -/

section Decisions

variable {m : ConnectionStateManager} {posted : List ConnectionState}

/-- A call that decides to post nothing leaves the manager as it was. -/
theorem StateCall.locked_of_none {sc : StateCall} (h : (sc.locked m).toPost = none) :
    (sc.locked m).manager = m := by
  cases sc with
  | addStateChange s =>
    by_cases hm : m.state = .started
    · obtain ⟨-, -, -, hsame, hchange⟩ := ConnectionStateManager.addStateChangeLocked_spec hm s
      by_cases hcur : m.currentConnectionState = s
      · exact (hsame hcur).1
      · have hto := (hchange hcur).2.1
        simp only [StateCall.locked] at h
        rw [hto] at h
        cases h
    · simp [StateCall.locked, ConnectionStateManager.addStateChangeLocked, hm]
  | setToSuspended =>
    simp only [StateCall.locked, ConnectionStateManager.setToSuspendedLocked] at h ⊢
    split_ifs at h ⊢ <;> rfl

/-- The part of the manager outside the lock's decision: its lifecycle state,
its buffer and its capacity. -/
theorem StateCall.locked_frame (sc : StateCall) (m : ConnectionStateManager) :
    (sc.locked m).manager.state = m.state ∧ (sc.locked m).manager.events = m.events ∧
      (sc.locked m).manager.queueSize = m.queueSize := by
  by_cases hm : m.state = .started
  · cases sc with
    | addStateChange s =>
      obtain ⟨hst, hq, hev, -⟩ := ConnectionStateManager.addStateChangeLocked_spec hm s
      exact ⟨hst.trans hm.symm, hev, hq⟩
    | setToSuspended =>
      obtain ⟨hst, hq, hev, -⟩ := ConnectionStateManager.setToSuspendedLocked_spec hm
      exact ⟨hst.trans hm.symm, hev, hq⟩
  · have hnone : (sc.locked m).toPost = none := by
      cases sc <;> simp [StateCall.locked, ConnectionStateManager.addStateChangeLocked,
        ConnectionStateManager.setToSuspendedLocked, hm]
    rw [StateCall.locked_of_none hnone]
    exact ⟨rfl, rfl, rfl⟩

/-- Only a started manager posts. -/
theorem StateCall.started_of_toPost {sc : StateCall} {p : ConnectionState}
    (h : (sc.locked m).toPost = some p) : m.state = .started := by
  by_contra hm
  cases sc <;> simp [StateCall.locked, ConnectionStateManager.addStateChangeLocked,
    ConnectionStateManager.setToSuspendedLocked, hm] at h

/-- The last post read off the invariant, for a current state other than
`RECONNECTED`. -/
theorem HistoryInv.getLast?_of_ne_reconnected (hinv : HistoryInv m posted)
    (hr : m.currentConnectionState ≠ .reconnected) :
    (posted = [] ∧ m.currentConnectionState = .unknown) ∨
      posted.getLast? = some m.currentConnectionState := by
  rcases hinv.current with h | h | ⟨-, h⟩
  · exact .inl h
  · exact .inr h
  · exact absurd h hr

/-- An empty history ends the current state at `UNKNOWN`; a non-empty one at a
posted state, hence never at `UNKNOWN`. -/
theorem HistoryInv.current_ne_unknown_of_ne_nil (hinv : HistoryInv m posted) (hne : posted ≠ []) :
    m.currentConnectionState ≠ .unknown := by
  intro hu
  rcases hinv.current with ⟨h, -⟩ | h | ⟨-, h⟩
  · exact hne h
  · rw [hu] at h
    exact hinv.wellFormed.unknown_not_mem (List.mem_of_getLast? h)
  · rw [hu] at h
    cases h

/-- A state other than `CONNECTED` that is not the current one is not the
last post. -/
theorem HistoryInv.getLast?_ne (hinv : HistoryInv m posted) {s : ConnectionState}
    (hcur : m.currentConnectionState ≠ s) (hs : s ≠ .connected) : ∀ a ∈ posted.getLast?, a ≠ s := by
  intro a ha
  rcases hinv.current with ⟨hnil, -⟩ | hlast | ⟨hlast, -⟩
  · simp [hnil] at ha
  · rw [hlast, Option.mem_def, Option.some.injEq] at ha
    rw [← ha]
    exact hcur
  · rw [hlast, Option.mem_def, Option.some.injEq] at ha
    rw [← ha]
    exact Ne.symm hs

/-- Posting the new current state itself, for `SUSPENDED`, `LOST` and
`READ_ONLY`, keeps the invariant; a suspension must not follow `LOST`. -/
theorem HistoryInv.snoc_self (hinv : HistoryInv m posted) {m' : ConnectionStateManager}
    {s : ConnectionState} (hs : s ≠ .unknown ∧ s ≠ .connected ∧ s ≠ .reconnected)
    (hcur : m.currentConnectionState ≠ s) (hsus : s = .suspended → m.currentConnectionState ≠ .lost)
    (hcur' : m'.currentConnectionState = s)
    (hflag : m'.initialConnectMessageSent = m.initialConnectMessageSent) :
    HistoryInv m' (posted ++ [s]) := by
  refine ⟨?_, .inr (.inl (by simp [hcur'])), by rw [hcur']; exact hs.2.1, ?_⟩
  · refine hinv.wellFormed.snoc (fun a ha => ?_) hs.1 (fun h => absurd h hs.2.1)
      (fun h => absurd h hs.2.2)
    refine ⟨(hinv.getLast?_ne hcur hs.2.1 a ha).symm, fun h => absurd h hs.2.2, fun h => ?_⟩
    rcases hinv.current with ⟨hnil, -⟩ | hlast | ⟨hlast, -⟩
    · simp [hnil] at ha
    · rw [hlast, Option.mem_def, Option.some.injEq] at ha
      rw [← ha]
      exact hsus h
    · rw [hlast, Option.mem_def, Option.some.injEq] at ha
      rw [← ha]
      decide
  · rw [hflag, hinv.flag]
    simp [Ne.symm hs.2.1]

/-- `SetToSuspended` keeps the invariant. -/
theorem HistoryInv.setToSuspended (hinv : HistoryInv m posted) (hm : m.state = .started) :
    HistoryInv m.setToSuspendedLocked.manager (posted ++ m.setToSuspendedLocked.toPost.toList) := by
  obtain ⟨-, -, -, hsent, hstay, hmove⟩ := ConnectionStateManager.setToSuspendedLocked_spec hm
  by_cases hls : m.currentConnectionState = .lost ∨ m.currentConnectionState = .suspended
  · obtain ⟨hman, hnone⟩ := hstay hls
    rw [hman, hnone, Option.toList_none, List.append_nil]
    exact hinv
  · have hl : m.currentConnectionState ≠ .lost := fun h => hls (.inl h)
    have hs : m.currentConnectionState ≠ .suspended := fun h => hls (.inr h)
    obtain ⟨hcur, hto⟩ := hmove hl hs
    rw [hto, Option.toList_some]
    exact hinv.snoc_self (by decide) hs (fun _ => hl) hcur hsent

/-- `AddStateChange` of a state the framework passes keeps the invariant. -/
theorem HistoryInv.addStateChange (hinv : HistoryInv m posted) (hm : m.state = .started)
    {s : ConnectionState} (hs : s = .lost ∨ s = .reconnected ∨ s = .readOnly) :
    HistoryInv (m.addStateChangeLocked s).manager
      (posted ++ (m.addStateChangeLocked s).toPost.toList) := by
  obtain ⟨-, -, -, hsame, hchange⟩ := ConnectionStateManager.addStateChangeLocked_spec hm s
  by_cases hcur : m.currentConnectionState = s
  · obtain ⟨hman, hnone⟩ := hsame hcur
    rw [hman, hnone, Option.toList_none, List.append_nil]
    exact hinv
  obtain ⟨hcur', hto, hflag⟩ := hchange hcur
  rw [hto, Option.toList_some]
  rcases hs with rfl | rfl | rfl
  case inl =>
    rw [if_neg (by simp [ConnectionState.NonNegative])]
    exact hinv.snoc_self (by decide) hcur (by simp) hcur'
      (by rw [hflag]; simp [ConnectionState.NonNegative])
  case inr.inr =>
    rw [if_neg (by simp [ConnectionState.NonNegative])]
    exact hinv.snoc_self (by decide) hcur (by simp) hcur'
      (by rw [hflag]; simp [ConnectionState.NonNegative])
  case inr.inl =>
    have hlast := hinv.getLast?_of_ne_reconnected hcur
    cases hsent : m.initialConnectMessageSent with
    | false =>
      have hnot : ConnectionState.connected ∉ posted := by
        rw [← hinv.flag, hsent]
        simp
      rw [if_pos (by simp [ConnectionState.NonNegative])]
      refine ⟨?_, .inr (.inr ⟨by simp, hcur'⟩), by simp [hcur'], ?_⟩
      · refine hinv.wellFormed.snoc (fun a ha => ?_) (by decide) (fun _ => hnot) (by simp)
        refine ⟨fun h => hnot ?_, by simp, by simp⟩
        subst h
        exact List.mem_of_getLast? ha
      · rw [hflag]
        simp [ConnectionState.NonNegative]
    | true =>
      have hmem : ConnectionState.connected ∈ posted := hinv.flag.mp hsent
      have hne : posted ≠ [] := List.ne_nil_of_mem hmem
      have hlast' : posted.getLast? = some m.currentConnectionState :=
        hlast.resolve_left fun h => hne h.1
      have hunk := hinv.current_ne_unknown_of_ne_nil hne
      rw [if_neg (by simp)]
      refine ⟨?_, .inr (.inl (by simp [hcur'])), by simp [hcur'], ?_⟩
      · refine hinv.wellFormed.snoc (fun a ha => ?_) (by decide) (by simp) (fun _ => hmem)
        rw [hlast', Option.mem_def, Option.some.injEq] at ha
        subst ha
        refine ⟨Ne.symm hcur, fun _ => ?_, by simp⟩
        have hcc := hinv.current_ne_connected
        cases hc : m.currentConnectionState <;> simp_all
      · rw [hflag, hsent]
        simp [hmem]

/-- The decision of every call the framework makes keeps the invariant. -/
theorem HistoryInv.locked (hinv : HistoryInv m posted) {sc : StateCall} (hsc : sc.FromFramework) :
    HistoryInv (sc.locked m).manager (posted ++ (sc.locked m).toPost.toList) := by
  by_cases hm : m.state = .started
  · cases sc with
    | addStateChange s => exact hinv.addStateChange hm hsc
    | setToSuspended => exact hinv.setToSuspended hm
  · have hnone : (sc.locked m).toPost = none := by
      cases hto : (sc.locked m).toPost with
      | none => rfl
      | some p => exact absurd (StateCall.started_of_toPost hto) hm
    rw [StateCall.locked_of_none hnone, hnone, Option.toList_none, List.append_nil]
    exact hinv

end Decisions

end Curator
