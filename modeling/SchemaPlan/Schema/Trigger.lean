/-!
# Triggers

A trigger runs a function on events of its table.  `Trigger.onEvent` keeps the events in their
fixed order.
-/

set_option autoImplicit false

namespace SchemaPlan

/-- When a trigger runs. -/
inductive TriggerTiming where
  | before
  | after
  | insteadOf
deriving DecidableEq, Repr

/-- The timing as SQL. -/
def TriggerTiming.sql : TriggerTiming → String
  | before => "BEFORE"
  | after => "AFTER"
  | insteadOf => "INSTEAD OF"

/-- What a trigger reacts to. -/
inductive TriggerEvent where
  | insert
  | update
  | delete
  | truncate
deriving DecidableEq, Repr

namespace TriggerEvent

/-- All events in their order. -/
def all : List TriggerEvent := [insert, update, delete, truncate]

/-- The event as SQL. -/
def sql : TriggerEvent → String
  | insert => "INSERT"
  | update => "UPDATE"
  | delete => "DELETE"
  | truncate => "TRUNCATE"

/-- The listed events in their order, each once. -/
def normalize (events : List TriggerEvent) : List TriggerEvent :=
  all.filter events.contains

end TriggerEvent

/-- Whether a trigger runs for every row or once for a statement. -/
inductive TriggerScope where
  | row
  | statement
deriving DecidableEq, Repr

/-- A trigger of a table. -/
structure Trigger where
  name : String
  table : String := ""
  function : String
  timing : TriggerTiming := .after
  events : List TriggerEvent := []
  scope : TriggerScope := .statement
  oldTable : Option String := none
  newTable : Option String := none
  condition : Option String := none
deriving DecidableEq, Repr

/-- Adds an event; a trigger that already has it stays as it is. -/
def Trigger.onEvent (trigger : Trigger) (event : TriggerEvent) : Trigger :=
  if trigger.events.contains event then trigger
  else { trigger with events := TriggerEvent.normalize (event :: trigger.events) }

end SchemaPlan
