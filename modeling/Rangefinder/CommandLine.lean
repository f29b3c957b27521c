import Rangefinder.Node.Config

/-! The command line: an interface name and a node number, and options in any place. Words are taken
from left to right, and the first fault ends the reading. A value given as a word of its own is only
looked at when the next argument begins, so an unknown word behind a bad value is the fault that
counts; missing arguments are noticed at the end. A line read to its end can still fail to start the
program. -/
namespace Rangefinder

inductive StartupError
  | argument (text : String)
  | bus (interface cause : String)
  | sensor (chip cause : String)
  deriving DecidableEq, Repr

def StartupError.message : StartupError → String
  | argument text => s!"invalid argument: {text}"
  | bus interface cause => s!"cannot open CAN interface {interface}: {cause}"
  | sensor chip cause => s!"cannot set up sensor lines on {chip}: {cause}"

namespace CommandLine
open Bus (NodeId FailurePolicy)

structure Arguments where
  interface : String
  node : NodeId
  chip : String
  triggerLine : Nat
  echoLine : Nat
  dropFailed : Bool
  deriving DecidableEq, Repr

def defaultChip : String := "gpiochip0"

def defaultTriggerLine : Nat := 18

def Arguments.config (a : Arguments) : Config :=
  { Config.ofNode a.node with
    policy := if a.dropFailed then .drop else .retry
    echoLine := a.echoLine }

inductive UsageError
  | unknownArgument
  | missingArgument
  | missingValue
  | invalidValue
  | unexpectedValue
  | repeated
  deriving DecidableEq, Repr

inductive Halt
  | help
  | version
  | usage (error : UsageError)
  deriving DecidableEq, Repr

inductive Slot
  | chip
  | triggerLine
  | echoLine
  deriving DecidableEq, Repr

inductive Flag
  | dropFailed
  | help
  | version
  deriving DecidableEq, Repr

inductive Name
  | slot (slot : Slot)
  | flag (flag : Flag)
  | unknown
  deriving DecidableEq, Repr

def Name.ofLong : String → Name
  | "gpio-chip" => .slot .chip
  | "trigger-pin" => .slot .triggerLine
  | "echo-pin" => .slot .echoLine
  | "drop-failed-frames" => .flag .dropFailed
  | "help" => .flag .help
  | "version" => .flag .version
  | _ => .unknown

def Name.ofLetter : Char → Name
  | 'h' => .flag .help
  | 'V' => .flag .version
  | _ => .unknown

inductive Word
  | separator
  | long (name : String) (value : Option String)
  | short (letters : List Char)
  | plain (text : String)
  deriving DecidableEq, Repr

def Word.ofString (text : String) : Word :=
  match text.toList with
  | ['-', '-'] => .separator
  | '-' :: '-' :: rest =>
    let name := rest.takeWhile (· != '=')
    match rest.dropWhile (· != '=') with
    | [] => .long (String.ofList name) none
    | _ :: value => .long (String.ofList name) (some (String.ofList value))
  | '-' :: letter :: letters => .short (letter :: letters)
  | _ => .plain text

def digitValue? (c : Char) : Option Nat :=
  if '0' ≤ c ∧ c ≤ '9' then some (c.toNat - '0'.toNat) else none

def readDigits (value : Nat) : List Char → Option Nat
  | [] => some value
  | c :: rest => do
    let digit ← digitValue? c
    readDigits (value * 10 + digit) rest

def readNatural : List Char → Option Nat
  | [] => none
  | digits => readDigits 0 digits

def readNumber (limit : Nat) (text : String) : Option Nat :=
  match text.toList with
  | '-' :: digits => (readNatural digits).filter (· == 0)
  | '+' :: digits => (readNatural digits).filter (· < limit)
  | digits => (readNatural digits).filter (· < limit)

inductive Pending
  | nothing
  | awaiting (slot : Slot)
  | option (slot : Slot) (text : String)
  | interface (text : String)
  | node (text : String)
  deriving DecidableEq, Repr

structure Reading where
  interface : Option String
  node : Option NodeId
  chip : Option String
  triggerLine : Option Nat
  echoLine : Option Nat
  dropFailed : Bool
  positionals : Nat
  pending : Pending
  plainOnly : Bool
  deriving DecidableEq, Repr

namespace Reading

def start : Reading := ⟨none, none, none, none, none, false, 0, .nothing, false⟩

def fault {α : Type} (error : UsageError) : Except Halt α := .error (.usage error)

def line (text : String) : Except Halt Nat :=
  ((readNumber 4294967296 text).map .ok).getD (fault .invalidValue)

def store (r : Reading) (text : String) : Slot → Except Halt Reading
  | .chip => if r.chip.isSome then fault .repeated else .ok { r with chip := some text }
  | .triggerLine =>
    if r.triggerLine.isSome then fault .repeated
    else (line text).map fun n => { r with triggerLine := some n }
  | .echoLine =>
    if r.echoLine.isSome then fault .repeated
    else (line text).map fun n => { r with echoLine := some n }

def resolve (r : Reading) : Except Halt Reading :=
  let r' := { r with pending := .nothing }
  match r.pending with
  | .nothing => .ok r'
  | .awaiting _ => fault .missingValue
  | .option slot text => r'.store text slot
  | .interface text => .ok { r' with interface := some text }
  | .node text =>
    match readNumber 128 text with
    | some n => .ok { r' with node := some (.truncate n) }
    | none => fault .invalidValue

def act (r : Reading) : Flag → Except Halt Reading
  | .help => .error .help
  | .version => .error .version
  | .dropFailed => if r.dropFailed then fault .repeated else .ok { r with dropFailed := true }

def takeLong (r : Reading) (value : Option String) : Name → Except Halt Reading
  | .unknown => fault .unknownArgument
  | .flag flag => if value.isSome then fault .unexpectedValue else do (← r.resolve).act flag
  | .slot slot => do
    let r ← r.resolve
    match value with
    | some text => r.store text slot
    | none => .ok { r with pending := .awaiting slot }

def takeLetters (r : Reading) : List Char → Except Halt Reading
  | [] => .ok r
  | letter :: rest =>
    match Name.ofLetter letter with
    | .flag flag => do
      let r ← r.resolve
      let r ← r.act flag
      r.takeLetters rest
    | _ => fault .unknownArgument

def takePositional (r : Reading) (text : String) : Except Halt Reading :=
  if 2 ≤ r.positionals then fault .unknownArgument
  else do
    let first := r.positionals == 0
    let pending := if first then Pending.interface text else .node text
    let r ← r.resolve
    .ok { r with pending, positionals := r.positionals + 1 }

def takePlain (r : Reading) (text : String) : Except Halt Reading :=
  match r.pending with
  | .awaiting slot => .ok { r with pending := .option slot text }
  | _ => r.takePositional text

def take (r : Reading) (text : String) : Except Halt Reading :=
  if r.plainOnly then r.takePositional text
  else
    match Word.ofString text with
    | .separator => .ok { r with plainOnly := true }
    | .long name value => r.takeLong value (.ofLong name)
    | .short letters => r.takeLetters letters
    | .plain text => r.takePlain text

def finish (r : Reading) : Except Halt Arguments := do
  let r ← r.resolve
  match r.interface, r.node with
  | some interface, some node =>
    .ok
      { interface
        node
        chip := r.chip.getD defaultChip
        triggerLine := r.triggerLine.getD defaultTriggerLine
        echoLine := r.echoLine.getD Config.defaultEchoLine
        dropFailed := r.dropFailed }
  | _, _ => fault .missingArgument

end Reading

def read (words : List String) : Except Halt Arguments := do
  (← words.foldlM Reading.take .start).finish

end CommandLine

end Rangefinder
