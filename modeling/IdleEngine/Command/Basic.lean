import Mathlib.Order.WithBot
import IdleEngine.Number

/-!
# Commands and their authorization

A command carries a type, a priority lane, a payload, a timestamp and the step that executes
it. `authorizeCommand` is the static policy table of the source: some types may only be queued
from some lanes, a type without a policy may come from any lane.
-/

namespace IdleEngine

/-- Priority lanes, in execution order. -/
inductive CommandPriority
  | system
  | player
  | automation
  deriving DecidableEq, Repr

/-- The numeric value of a lane; lower runs first. -/
def CommandPriority.toNat : CommandPriority → ℕ
  | system => 0
  | player => 1
  | automation => 2

/-- `COMMAND_PRIORITY_ORDER`: the execution order shared by queue and dispatcher. -/
def commandPriorityOrder : List CommandPriority := [.system, .player, .automation]

theorem mem_commandPriorityOrder (priority : CommandPriority) :
    priority ∈ commandPriorityOrder := by
  cases priority <;> decide

theorem commandPriorityOrder_sorted :
    commandPriorityOrder.Pairwise fun a b => a.toNat < b.toNat := by
  decide

/-- A timestamp is any number that can be compared, infinities included. -/
abbrev Timestamp := WithBot (WithTop ℚ)

/-- A command, as callers hand it to the queue and as the queue hands it back. -/
structure Command (Payload : Type*) where
  type : String
  priority : CommandPriority
  payload : Payload
  timestamp : Timestamp
  step : JsNumber
  requestId : Option String
  deriving DecidableEq

/-- `COMMAND_AUTHORIZATIONS`: the lanes each known command type may use. -/
def commandAuthorizations : List (String × List CommandPriority) :=
  [("PURCHASE_GENERATOR", commandPriorityOrder),
    ("PURCHASE_UPGRADE", commandPriorityOrder),
    ("TOGGLE_GENERATOR", commandPriorityOrder),
    ("TOGGLE_AUTOMATION", commandPriorityOrder),
    ("COLLECT_RESOURCE", commandPriorityOrder),
    ("PRESTIGE_RESET", [.system, .player]),
    ("OFFLINE_CATCHUP", [.system, .automation]),
    ("APPLY_MIGRATION", [.system]),
    ("RUN_TRANSFORM", [.system, .player]),
    ("MAKE_MISSION_DECISION", [.system, .player]),
    ("ADD_ENTITY", commandPriorityOrder),
    ("REMOVE_ENTITY", commandPriorityOrder),
    ("CREATE_ENTITY_INSTANCE", commandPriorityOrder),
    ("DESTROY_ENTITY_INSTANCE", commandPriorityOrder),
    ("ASSIGN_ENTITY_TO_MISSION", commandPriorityOrder),
    ("RETURN_ENTITY_FROM_MISSION", commandPriorityOrder),
    ("ADD_ENTITY_EXPERIENCE", [.system, .automation]),
    ("INPUT_EVENT", [.player])]

/-- The policy check in front of the queue. -/
def authorizeCommand {Payload : Type*} (command : Command Payload) : Bool :=
  match commandAuthorizations.lookup command.type with
  | none => true
  | some allowedPriorities => allowedPriorities.contains command.priority

end IdleEngine
