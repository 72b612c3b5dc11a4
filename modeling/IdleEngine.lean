import IdleEngine.Resource.DirtySet
import IdleEngine.Resource.Tracking
import IdleEngine.Resource.TickDelta
import IdleEngine.Production.CatchUp
import IdleEngine.Game.Queries
import IdleEngine.Game.Unlocks
import IdleEngine.Game.Wiring
import IdleEngine.CommandTransport.Outcomes
import IdleEngine.StateSync.Landing
import IdleEngine.StateSync.Copies
import IdleEngine.Game.Hydrate
import IdleEngine.StateSync.Bookkeeping
import IdleEngine.StateSync.Checksum
import IdleEngine.Resource.BufferPool
import IdleEngine.Runtime.BusBatches
import IdleEngine.Command.ReplayRun
import IdleEngine.Command.Followups
import IdleEngine.Replay.Permuted
import IdleEngine.Content.SharedCache
import IdleEngine.Entity.Runs
import IdleEngine.Command.Overflow
import IdleEngine.Content.ShortestCycle
import IdleEngine.Save.Migration
import IdleEngine.StateSync.Restore
import IdleEngine.Production.Overdraw
import IdleEngine.Production.AccumulatorSaves
import IdleEngine.Progression.Atomic
import IdleEngine.Game.Achievements
import IdleEngine.Events.FrameFormat
import IdleEngine.Events.Coalescing
import IdleEngine.Events.Hydration
import IdleEngine.Content.Conditions
import IdleEngine.Entity.Additions
import IdleEngine.Entity.Experience
import IdleEngine.Automation.Crossings
import IdleEngine.Transform.Pity
import IdleEngine.Content.WorkspaceOrder
import IdleEngine.Renderer.Hashing
import IdleEngine.Transform.Checkpoints
