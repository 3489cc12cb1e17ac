import Mathlib.Data.List.Infix

/-!
# Buffered Go channels

A buffered channel as the statements of a Go program use it: a `select` with
a send case and a `default` case, a receive (blocking, or in a `select` with a
`default` case) and `close`.  Sending on a closed channel panics; a closed
channel still hands out what it buffers, then answers `ok == false`.  The
rendezvous of an unbuffered channel, where a send meets a waiting receiver,
is not covered: a send here only ever fills the buffer.

A `Log` records what went through a channel: every value sent, and every
value received, each receipt tagged with the goroutine that made it.  While
the log agrees with the buffer (`Log.Agrees`), the buffer is the part of what
was sent that nobody has received yet.  So each goroutine receives values in
the order they were sent, none twice and none that was not sent, and if only
one goroutine ever receives, it gets exactly what was sent.
-/

namespace GoChannel

/-- A buffered channel: its buffer, oldest first, its capacity, and whether
it has been closed. -/
structure Chan (α : Type*) where
  buf : List α
  cap : ℕ
  closed : Bool
  deriving DecidableEq, Repr

variable {α ρ : Type*}

/-- What a send in a `select` with a `default` case does. -/
inductive SendResult (α : Type*) where
  /-- There was room, and the value is buffered. -/
  | sent (c : Chan α)
  /-- The buffer is full; the `default` case runs. -/
  | full
  /-- The channel is closed; the send panics. -/
  | panics

/-- What a receive finds. -/
inductive RecvResult (α : Type*) where
  /-- The oldest buffered value, with `ok` true. -/
  | received (x : α) (c : Chan α)
  /-- A closed channel with nothing buffered: `ok` is false. -/
  | drained
  /-- An open channel with nothing buffered: a blocking receive waits, a
  `select` takes its `default` case. -/
  | empty

namespace Chan

/-- `select { case ch <- x: ... default: ... }`. -/
def trySend (c : Chan α) (x : α) : SendResult α :=
  if c.closed then .panics
  else if c.buf.length < c.cap then .sent { c with buf := c.buf ++ [x] }
  else .full

/-- A receive from the channel. -/
def recv (c : Chan α) : RecvResult α :=
  match c.buf with
  | x :: rest => .received x { c with buf := rest }
  | [] => if c.closed then .drained else .empty

/-- `close(ch)`; closing a closed channel panics (`none`). -/
def close (c : Chan α) : Option (Chan α) :=
  if c.closed then none else some { c with closed := true }

/-- The buffer holds no more than the capacity. -/
def WithinCap (c : Chan α) : Prop :=
  c.buf.length ≤ c.cap

variable {c c' : Chan α} {x : α}

/-! ### What each operation can do -/

theorem trySend_eq_sent (h : c.trySend x = .sent c') :
    c' = { c with buf := c.buf ++ [x] } ∧ c.closed = false ∧ c.buf.length < c.cap := by
  unfold trySend at h
  split_ifs at h with hclosed hroom
  · cases h
    exact ⟨rfl, by simpa using hclosed, hroom⟩

theorem trySend_eq_full (h : c.trySend x = .full) : c.closed = false ∧ c.cap ≤ c.buf.length := by
  unfold trySend at h
  split_ifs at h with hclosed hroom
  exact ⟨by simpa using hclosed, Nat.le_of_not_lt hroom⟩

theorem trySend_eq_panics (h : c.trySend x = .panics) : c.closed = true := by
  unfold trySend at h
  split_ifs at h with hclosed
  exact hclosed

theorem recv_eq_received (h : c.recv = .received x c') :
    c.buf = x :: c'.buf ∧ c' = { c with buf := c'.buf } := by
  unfold recv at h
  split at h
  · next y rest hbuf =>
    cases h
    exact ⟨hbuf, rfl⟩
  · split_ifs at h

theorem recv_eq_drained (h : c.recv = .drained) : c.buf = [] ∧ c.closed = true := by
  unfold recv at h
  split at h
  · cases h
  · next hbuf =>
    split_ifs at h with hclosed
    exact ⟨hbuf, hclosed⟩

theorem recv_eq_empty (h : c.recv = .empty) : c.buf = [] ∧ c.closed = false := by
  unfold recv at h
  split at h
  · cases h
  · next hbuf =>
    split_ifs at h with hclosed
    exact ⟨hbuf, by simpa using hclosed⟩

theorem close_eq_some (h : c.close = some c') : c' = { c with closed := true } ∧ c.closed = false := by
  unfold close at h
  split_ifs at h with hclosed
  cases h
  exact ⟨rfl, by simpa using hclosed⟩

theorem close_of_open (h : c.closed = false) : c.close = some { c with closed := true } := by
  simp [close, h]

/-- A send to an open channel that is not full buffers the value. -/
theorem trySend_of_room (hopen : c.closed = false) (hroom : c.buf.length < c.cap) :
    c.trySend x = .sent { c with buf := c.buf ++ [x] } := by
  simp [trySend, hopen, hroom]

theorem trySend_of_full (hopen : c.closed = false) (hfull : c.cap ≤ c.buf.length) :
    c.trySend x = .full := by
  simp [trySend, hopen, Nat.not_lt.mpr hfull]

theorem recv_cons {rest : List α} (h : c.buf = x :: rest) :
    c.recv = .received x { c with buf := rest } := by
  simp [recv, h]

/-! ### The capacity -/

theorem WithinCap.of_sent (h : c.trySend x = .sent c') : c'.WithinCap := by
  obtain ⟨rfl, -, hroom⟩ := trySend_eq_sent h
  simp only [WithinCap, List.length_append, List.length_singleton]
  omega

theorem WithinCap.of_received (hc : c.WithinCap) (h : c.recv = .received x c') : c'.WithinCap := by
  obtain ⟨hbuf, hc'⟩ := recv_eq_received h
  have hcap : c'.cap = c.cap := by rw [hc']
  unfold WithinCap at hc ⊢
  rw [hbuf, List.length_cons] at hc
  omega

/-- A receive that finds a value leaves room for one more. -/
theorem room_of_received (hc : c.WithinCap) (h : c.recv = .received x c') :
    c'.buf.length < c'.cap := by
  obtain ⟨hbuf, hc'⟩ := recv_eq_received h
  have hcap : c'.cap = c.cap := by rw [hc']
  unfold WithinCap at hc
  rw [hbuf, List.length_cons] at hc
  omega

end Chan

/-! ### What went through a channel -/

/-- Every value sent to a channel, and every value received from it with the
receiver that took it, both in order. -/
structure Log (ρ α : Type*) where
  sent : List α
  received : List (ρ × α)

namespace Log

/-- The empty log of a new channel. -/
def empty : Log ρ α := ⟨[], []⟩

/-- Record a send. -/
def send (l : Log ρ α) (x : α) : Log ρ α :=
  { l with sent := l.sent ++ [x] }

/-- Record a receipt by `r`. -/
def recv (l : Log ρ α) (r : ρ) (x : α) : Log ρ α :=
  { l with received := l.received ++ [(r, x)] }

/-- The values `r` received, in order. -/
def receivedBy [DecidableEq ρ] (l : Log ρ α) (r : ρ) : List α :=
  (l.received.filter fun e => e.1 = r).map Prod.snd

/-- The log accounts for the buffer: what was sent is what was received,
followed by what is still buffered. -/
def Agrees (l : Log ρ α) (c : Chan α) : Prop :=
  l.sent = l.received.map Prod.snd ++ c.buf

variable {l : Log ρ α} {c c' : Chan α} {x : α}

@[simp] theorem send_sent (x : α) : (l.send x).sent = l.sent ++ [x] := rfl

@[simp] theorem send_received (x : α) : (l.send x).received = l.received := rfl

@[simp] theorem recv_sent (r : ρ) (x : α) : (l.recv r x).sent = l.sent := rfl

@[simp] theorem recv_received (r : ρ) (x : α) : (l.recv r x).received = l.received ++ [(r, x)] :=
  rfl

section ReceivedBy

variable [DecidableEq ρ]

@[simp] theorem receivedBy_send (r : ρ) (x : α) : (l.send x).receivedBy r = l.receivedBy r := rfl

@[simp] theorem receivedBy_recv_self (r : ρ) (x : α) :
    (l.recv r x).receivedBy r = l.receivedBy r ++ [x] := by
  simp [receivedBy, recv, List.filter_append]

@[simp] theorem receivedBy_recv_of_ne {r r' : ρ} (h : r' ≠ r) (x : α) :
    (l.recv r' x).receivedBy r = l.receivedBy r := by
  simp [receivedBy, recv, List.filter_append, h]

/-- The last receipt is the last value its receiver got. -/
theorem getLast?_receivedBy {r : ρ} (h : l.received.getLast? = some (r, x)) :
    (l.receivedBy r).getLast? = some x := by
  obtain ⟨init, hinit⟩ := List.getLast?_eq_some_iff.mp h
  simp [receivedBy, hinit, List.filter_append]

end ReceivedBy

theorem agrees_empty (c : Chan α) (h : c.buf = []) : (empty : Log ρ α).Agrees c := by
  simp [Agrees, empty, h]

/-- A send that buffers its value keeps the log in agreement. -/
theorem Agrees.send (h : l.Agrees c) (hs : c.trySend x = .sent c') : (l.send x).Agrees c' := by
  obtain ⟨rfl, -, -⟩ := Chan.trySend_eq_sent hs
  simp only [Agrees, send_sent, send_received] at h ⊢
  rw [h, List.append_assoc]

/-- A receipt by anyone keeps the log in agreement. -/
theorem Agrees.recv (h : l.Agrees c) (hr : c.recv = .received x c') (r : ρ) :
    (l.recv r x).Agrees c' := by
  obtain ⟨hbuf, -⟩ := Chan.recv_eq_received hr
  simp only [Agrees, recv_sent, recv_received, List.map_append, List.map_singleton] at h ⊢
  rw [h, hbuf, List.append_assoc, List.singleton_append]

/-- A log agrees with the buffer as long as only the buffer's other fields
change. -/
theorem Agrees.of_buf_eq (h : l.Agrees c) (hbuf : c'.buf = c.buf) : l.Agrees c' := by
  rw [Agrees, hbuf]
  exact h

/-- The buffer is what was sent last. -/
theorem Agrees.buf_suffix (h : l.Agrees c) : c.buf <:+ l.sent := by
  rw [h]
  exact List.suffix_append _ _

/-- What one receiver got, followed by the buffer, was sent in that order:
no value is received out of order, twice, or without being sent. -/
theorem Agrees.receivedBy_append_sublist [DecidableEq ρ] (h : l.Agrees c) (r : ρ) :
    (l.receivedBy r ++ c.buf).Sublist l.sent := by
  rw [h]
  exact (List.filter_sublist.map Prod.snd).append_right c.buf

/-- If only `r` ever received, it got exactly what was sent, buffer aside. -/
theorem Agrees.receivedBy_append_eq [DecidableEq ρ] (h : l.Agrees c) {r : ρ}
    (hall : ∀ e ∈ l.received, e.1 = r) : l.receivedBy r ++ c.buf = l.sent := by
  have hfilter : (l.received.filter fun e => e.1 = r) = l.received :=
    List.filter_eq_self.mpr fun e he => by simpa using hall e he
  rw [h, receivedBy, hfilter]

/-- The newest value sent is the newest buffered one, while anything is
buffered. -/
theorem Agrees.getLast?_of_ne_nil (h : l.Agrees c) (hne : c.buf ≠ []) :
    l.sent.getLast? = c.buf.getLast? := by
  rw [h, List.getLast?_append_of_ne_nil _ hne]

/-- With nothing buffered, the newest value sent is the newest received. -/
theorem Agrees.getLast?_of_nil (h : l.Agrees c) (hnil : c.buf = []) :
    l.sent.getLast? = l.received.getLast?.map Prod.snd := by
  rw [h, hnil, List.append_nil, List.getLast?_map]

end Log

end GoChannel
