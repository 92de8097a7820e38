/-
The message-bus envelope of `schemas/events.py`.

  • `BusMessage.check`: the field constraints.
-/
import CapitalCipher.Schemas.Json

namespace CapitalCipher

/-- `Topics.DEAD_LETTER` -/
def Topics.deadLetter : String := "dead_letter.events.v1"

/-- `^[a-z][a-z0-9_.-]+\.v[1-9][0-9]*$`: the version is the longest run of digits at the end -/
def validTopic (s : String) : Bool :=
  let reversed := s.toList.reverse
  match (reversed.takeWhile Char.isDigit).getLast?, reversed.dropWhile Char.isDigit with
  | some major, 'v' :: '.' :: name =>
    major != '0' &&
    match name.reverse with
    | first :: rest =>
      first.isLower && !rest.isEmpty &&
        rest.all fun c => c.isLower || c.isDigit || c ∈ ['_', '.', '-']
    | [] => false
  | _, _ => false

/-- `^[A-Z][A-Z0-9_]+$` -/
def validEventType (s : String) : Bool :=
  match s.toList with
  | first :: rest =>
    first.isUpper && !rest.isEmpty && rest.all fun c => c.isUpper || c.isDigit || c == '_'
  | [] => false

structure BusMessage where
  messageId : String
  eventId : String
  correlationId : String
  topic : String
  eventType : String
  source : String
  timestamp : Time
  payload : Json
  deriving DecidableEq

def BusMessage.check (m : BusMessage) : Except Error BusMessage :=
  validateModel
    [("message_id", decide (1 ≤ m.messageId.length)),
     ("event_id", decide (1 ≤ m.eventId.length)),
     ("correlation_id", decide (1 ≤ m.correlationId.length)),
     ("topic", validTopic m.topic),
     ("event_type", validEventType m.eventType),
     ("source", decide (1 ≤ m.source.length))] [] m

example : [validTopic "market.raw.v1", validTopic "market.v10", validTopic "m.v1", validTopic "a.b.v0"] =
    [true, true, false, false] := by decide +kernel

end CapitalCipher
