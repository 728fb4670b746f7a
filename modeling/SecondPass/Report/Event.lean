import SecondPass.Machine.Word
import SecondPass.Report.Diagnostic

/-!
# Events

Every step of the second pass that a reader of the log may want to see is an `Event`. An event is
written as its level, its message and its fields.
-/

namespace SecondPass

/-- How much an event matters. -/
inductive Level where
  | error
  | debug
  | trace
  deriving DecidableEq, Repr

/-- The name of a level in the log. -/
def Level.text : Level → String
  | error => "ERROR"
  | debug => "DEBUG"
  | trace => "TRACE"

/-- A step of the second pass. -/
inductive Event where
  /-- The addresses of data labels were moved past the code. -/
  | finalized (codeLength dataLabels : Nat)
  /-- The entries were checked. -/
  | entriesChecked (entries illegal : Nat)
  /-- A problem was reported. -/
  | reported (diagnostic : Diagnostic)
  /-- The operands of a line were resolved and its words come next. -/
  | encoding (line : Nat) (text : String)
  /-- A word was stored at an address. -/
  | emitted (address : Nat) (word : Word)
  /-- The image refused a word of code. -/
  | wordDropped (refusal : ImageFull)
  /-- Words were dropped in silence. -/
  | truncated (dropped : Nat)
  /-- The pass is over. -/
  | completed (codeWords dataWords errorCount : Nat)
  deriving DecidableEq, Repr

namespace Event

/-- The level of an event. -/
def level : Event → Level
  | finalized _ _ => .debug
  | entriesChecked _ _ => .debug
  | reported _ => .error
  | encoding _ _ => .trace
  | emitted _ _ => .trace
  | wordDropped _ => .trace
  | truncated _ => .debug
  | completed _ _ _ => .debug

/-- The message of an event. -/
def message : Event → String
  | finalized _ _ => "finalized data label addresses"
  | entriesChecked _ _ => "validated entry records"
  | reported diagnostic => diagnostic.problem.message
  | encoding _ _ => "encoding"
  | emitted _ _ => "emit"
  | wordDropped _ => "word dropped"
  | truncated _ => "memory image full; words truncated"
  | completed _ _ _ => "second pass complete"

/-- A line number that may be missing, as a field. -/
def lineField : Option Nat → String
  | some line => "Some(" ++ toString line ++ ")"
  | none => "None"

/-- The fields of an event, each a name and a value. -/
def fields : Event → List (String × String)
  | finalized codeLength dataLabels =>
    [("instruction_length", toString codeLength), ("data_labels", toString dataLabels)]
  | entriesChecked entries illegal =>
    [("entries", toString entries), ("illegal", toString illegal)]
  | reported diagnostic => [("line", lineField diagnostic.line)]
  | encoding line text => [("line", toString line), ("text", text)]
  | emitted address word => [("address", toString address), ("word", word.binary)]
  | wordDropped refusal => [("error", refusal.message)]
  | truncated dropped => [("dropped", toString dropped)]
  | completed codeWords dataWords errorCount =>
    [("code_words", toString codeWords), ("data_words", toString dataWords),
      ("error_count", toString errorCount)]

/-- How an event is written in the log. -/
def text (event : Event) : String :=
  event.fields.foldl (fun line field => line ++ " " ++ field.1 ++ "=" ++ field.2)
    (event.level.text ++ " " ++ event.message)

end Event

end SecondPass
