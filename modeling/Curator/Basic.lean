import Mathlib.Data.List.Basic
import Mathlib.Data.Int.Notation
import Mathlib.Algebra.Group.Nat.Defs
import Mathlib.Algebra.Group.Int.Defs

/-!
# Values shared by the whole client

The Go client passes three kinds of plain values between its components:
strings (paths and node names), byte payloads, and `error` values that are
compared against the sentinels of the ZooKeeper library.

A Go `string` is modelled as the list of its code points.  Every index and
every length that the modelled code computes is taken in this one unit, so a
byte offset found by searching for an ASCII separator becomes the matching
code-point offset and the two models of the code agree on every valid UTF-8
string.  A Go `[]byte` is a list of bytes, with `nil` the empty list, as
`bytes.Equal` treats them.
-/

namespace Curator

/-- A Go `string`, as the sequence of its code points. -/
abbrev GoString := List Char

/-- A Go `[]byte` payload; `nil` is the empty list. -/
abbrev Bytes := List UInt8

/-- A `time.Duration` or a clock reading, in nanoseconds. -/
abbrev Duration := ℤ

/-- The `error` values the modelled code returns or compares against.  The
first constructors are the sentinels of the ZooKeeper library and of
`state.go`; `netError` is a `net.Error` with its `Timeout()` and
`Temporary()` answers, and `message` an error built by `errors.New` or
`fmt.Errorf` from its text. -/
inductive ZkError where
  | errNoNode
  | errNodeExists
  | errBadVersion
  | errNotEmpty
  | errSessionExpired
  | errSessionMoved
  | errClosing
  | errAPIError
  | errConnectionLoss
  | errTimeout
  | netError (timeout temporary : Bool)
  | message (text : String)
  deriving DecidableEq, Repr

/-- The session states of the ZooKeeper library that the modelled code
names (`zk.State`); `stateOther` stands for the rest. -/
inductive ZkState where
  | stateDisconnected
  | stateConnecting
  | stateConnected
  | stateHasSession
  | stateExpired
  | stateSyncConnected
  | stateConnectedReadOnly
  | stateOther
  deriving DecidableEq, Repr

/-- The lifecycle `State` of a framework or a recipe (`utils.go`). -/
inductive State where
  | latent
  | started
  | stopped
  deriving DecidableEq, Repr

/-- `State.change`: the compare-and-swap from `oldState` to `newState`,
returning the new value and whether it swapped. -/
def State.change (s oldState newState : State) : State × Bool :=
  if s = oldState then (newState, true) else (s, false)

@[simp] theorem State.change_of_eq {s o n : State} (h : s = o) :
    s.change o n = (n, true) := by
  simp [State.change, h]

@[simp] theorem State.change_of_ne {s o n : State} (h : s ≠ o) :
    s.change o n = (s, false) := by
  simp [State.change, h]

end Curator
