import Rangefinder.CommandLine

/-! The program: reads the command line and opens the bus. No bus driver is part of this library, so
that a correct command line ends with the fault of an interface that cannot be opened. -/
namespace Rangefinder.Main
open CommandLine (Arguments Halt UsageError)

def usage : String :=
  "Usage: rangefinder [OPTIONS] <IFACE> <NODE_ID>\n\n" ++
  "Options:\n" ++
  "      --gpio-chip <CHIP>      line device of both sensor lines [default: gpiochip0]\n" ++
  "      --trigger-pin <OFFSET>  line of the trigger input [default: 18]\n" ++
  "      --echo-pin <OFFSET>     line of the echo output [default: 24]\n" ++
  "      --drop-failed-frames    drop refused frames instead of keeping them\n" ++
  "  -h, --help                  print help\n" ++
  "  -V, --version               print version"

def explain : UsageError → String
  | .unknownArgument => "unexpected argument"
  | .missingArgument => "required arguments are missing"
  | .missingValue => "a value is required"
  | .invalidValue => "invalid value"
  | .unexpectedValue => "unexpected value"
  | .repeated => "the argument cannot be used multiple times"

def run (a : Arguments) : Except StartupError Unit :=
  .error (.bus a.interface "no bus driver")

end Rangefinder.Main

open Rangefinder in
def main (words : List String) : IO UInt32 := do
  match CommandLine.read words with
  | .error .help => IO.println Main.usage; return 0
  | .error .version => IO.println "rangefinder 0.1.0"; return 0
  | .error (.usage error) => IO.eprintln s!"error: {Main.explain error}\n\n{Main.usage}"; return 1
  | .ok arguments =>
    match Main.run arguments with
    | .ok () => return 0
    | .error error => IO.eprintln s!"rangefinder: {error.message}"; return 1
