import Mathlib.Data.Prod.Lex
import IdleEngine.Lib.Bisect
import IdleEngine.Lib.Compact
import IdleEngine.Command.Basic

/-!
# The command queue

The queue keeps one array per priority lane, sorted by timestamp with the enqueue sequence as
the tie-break, and beside the arrays a separately maintained total size. `enqueue` splices by
binary search and makes room first when the queue is full; `dequeueUpToStep` compacts every
lane in place.

Commands are snapshotted by the platform's structured clone when they are accepted. The clone
is a parameter: it may fail on a payload, and then `enqueue` throws after room was made.
-/

namespace IdleEngine

variable {Payload : Type*}

/-- A queued snapshot with its enqueue sequence number. -/
structure CommandQueueEntry (Payload : Type*) where
  command : Command Payload
  sequence : ℕ
  deriving DecidableEq

/-- The fields of the source's queue class; the configured size was validated on
construction. -/
structure CommandQueue (Payload : Type*) where
  lanes : CommandPriority → List (CommandQueueEntry Payload)
  nextSequence : ℕ
  totalSize : ℤ
  maxSize : ℚ
  maxSize_pos : 0 < maxSize

/-- `DEFAULT_MAX_QUEUE_SIZE`. -/
def defaultMaxQueueSize : JsNumber := .fin 10000

namespace CommandQueue

/-- The empty queue of a given capacity. -/
def empty (maxSize : ℚ) (hpos : 0 < maxSize) : CommandQueue Payload :=
  { lanes := fun _ => [], nextSequence := 0, totalSize := 0, maxSize, maxSize_pos := hpos }

/-- The constructor. -/
def create (maxSize : Option JsNumber) : Except String (CommandQueue Payload) :=
  match (maxSize.getD defaultMaxQueueSize).finite? with
  | none => .error "maxSize must be a positive finite number"
  | some configuredSize =>
      if hpos : 0 < configuredSize then .ok (empty configuredSize hpos)
      else .error "maxSize must be a positive finite number"

/-- The lane array of one priority, replaced. -/
def setLane (q : CommandQueue Payload) (priority : CommandPriority)
    (lane : List (CommandQueueEntry Payload)) : CommandQueue Payload :=
  { q with lanes := Function.update q.lanes priority lane }

/-- Drop the first entry of the first nonempty lane among `priorities`, skipping lanes that
outrank `maxPriority`. -/
def dropFrom (q : CommandQueue Payload) (maxPriority : CommandPriority) :
    List CommandPriority → Option (CommandQueueEntry Payload) × CommandQueue Payload
  | [] => (none, q)
  | priority :: rest =>
      if priority.toNat < maxPriority.toNat then dropFrom q maxPriority rest
      else
        match q.lanes priority with
        | [] => dropFrom q maxPriority rest
        | dropped :: lane =>
            (some dropped, { q.setLane priority lane with totalSize := q.totalSize - 1 })

/-- Make room: the lowest lane first, never a lane above the newcomer's. -/
def dropLowestPriorityUpTo (q : CommandQueue Payload) (maxPriority : CommandPriority) :
    Option (CommandQueueEntry Payload) × CommandQueue Payload :=
  q.dropFrom maxPriority commandPriorityOrder.reverse

/-- The binary search's test: `other` stays before the new entry. -/
def ordersBefore (other entry : CommandQueueEntry Payload) : Bool :=
  decide (other.command.timestamp < entry.command.timestamp) ||
    (decide (other.command.timestamp = entry.command.timestamp) &&
      decide (other.sequence < entry.sequence))

/-- Splice a snapshot into its lane under the next sequence number. -/
def insert (q : CommandQueue Payload) (command : Command Payload) : CommandQueue Payload :=
  let entry : CommandQueueEntry Payload := { command, sequence := q.nextSequence }
  let lane := Bisect.bisectInsert (fun other => ordersBefore other entry) entry
    (q.lanes command.priority)
  { q.setLane command.priority lane with
    nextSequence := q.nextSequence + 1
    totalSize := q.totalSize + 1 }

/-- Room for one more command: the entry dropped for it, if any, or `none` when the newcomer
has to be rejected. -/
def makeRoom (q : CommandQueue Payload) (priority : CommandPriority) :
    Option (Option (CommandQueueEntry Payload) × CommandQueue Payload) :=
  if q.maxSize ≤ (q.totalSize : ℚ) then
    match q.dropLowestPriorityUpTo priority with
    | (none, _) => none
    | (some dropped, q) => some (some dropped, q)
  else some (none, q)

/-- Queue a command; `false` when it is not authorized or there is no room for it. The clone
runs after room was made, so when it throws the dropped command stays dropped. -/
def enqueue (cloneStructured : Payload → Except String Payload) (q : CommandQueue Payload)
    (command : Command Payload) : Except String Bool × CommandQueue Payload :=
  if authorizeCommand command = false then (.ok false, q)
  else
    match q.makeRoom command.priority with
    | none => (.ok false, q)
    | some (_, q) =>
        match cloneStructured command.payload with
        | .error message => (.error message, q)
        | .ok payload => (.ok true, q.insert { command with payload })

/-- The lanes in execution order, each compacted in place: the drained commands, their number
and the lanes left. -/
def drainLanes (step : JsNumber) :
    List CommandPriority → List (Command Payload) × ℕ × CommandQueue Payload →
      List (Command Payload) × ℕ × CommandQueue Payload
  | [], state => state
  | priority :: rest, (drained, drainedCount, r) =>
      let due := fun entry : CommandQueueEntry Payload => entry.command.step.le step
      let (moved, kept) := Compact.compact due (r.lanes priority)
      drainLanes step rest
        (drained ++ moved.map (·.command), drainedCount + moved.length, r.setLane priority kept)

/-- Remove and return every queued command that is due at `step`. -/
def dequeueUpToStep (q : CommandQueue Payload) (step : JsNumber) :
    List (Command Payload) × CommandQueue Payload :=
  if q.totalSize = 0 then ([], q)
  else
    let (drained, drainedCount, r) := drainLanes step commandPriorityOrder ([], 0, q)
    (drained, { r with totalSize := r.totalSize - drainedCount })

/-- Remove and return every queued command. -/
def dequeueAll (q : CommandQueue Payload) : List (Command Payload) × CommandQueue Payload :=
  q.dequeueUpToStep .posInf

/-- Forget every queued command. -/
def clear (q : CommandQueue Payload) : CommandQueue Payload :=
  if q.totalSize = 0 then q
  else
    let emptied := commandPriorityOrder.foldl
      (fun r priority =>
        { r.setLane priority [] with totalSize := r.totalSize - (r.lanes priority).length }) q
    { emptied with totalSize := 0 }

/-- The number of queued commands. -/
def size (q : CommandQueue Payload) : ℤ := q.totalSize

/-- The queued entries, lane after lane. -/
def queued (q : CommandQueue Payload) : List (CommandQueueEntry Payload) :=
  commandPriorityOrder.flatMap q.lanes

end CommandQueue

end IdleEngine
