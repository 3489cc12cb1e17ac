import Curator.Support.Reachable
import Curator.Support.Search
import Curator.Support.BoundedBuffer
import Curator.Support.GoChannel
import Curator.Support.GoRange
import Curator.Support.Region
import Curator.Support.GoSpawn
import Curator.Support.Decimal
import Curator.Support.Steps
import Curator.Basic
import Curator.Retry
import Curator.Paths
import Curator.Namespace
import Curator.Builders
import Curator.State.Manager
import Curator.State.Connection
import Curator.State.HolderSteps
import Curator.State.History
import Curator.State.Events
import Curator.State.Waiter
import Curator.State.Process
import Curator.State.Lifecycle
import Curator.State.Races
import Curator.State.Dispatch
import Curator.Server
import Curator.EnsurePath
import Curator.Recipes.Atomic
import Curator.Recipes.AtomicRegister
import Curator.Recipes.AtomicConcurrent
import Curator.Recipes.Locks
import Curator.Recipes.LockConcurrent
import Curator.Recipes.NodeCache
import Curator.PathGrammar
import Curator.PathSplit
import Curator.DeleteChildren
import Curator.Compression
import Curator.Recipes.LockOwner
