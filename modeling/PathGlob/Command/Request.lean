import PathGlob.Command.Argument
import PathGlob.Command.Help

/-!
# Requests

`Request.read` reads the words of a command line. The arguments after the verb are put into a
`Draft` one by one, and the first fault ends the reading.

The value of `--flags` is checked when the next argument that has a place comes, or the end. So
an argument without a place is the fault that is reported, and not a bad value before it.
-/

namespace PathGlob

/-- What a command line asks for. -/
inductive Request where
  | run (c : Command)
  | help (t : Topic)
  | version
  | refused (r : Refusal)
  deriving DecidableEq, Repr

/-- The value of the last `--flags`. -/
inductive FlagsValue where
  /-- It has been checked, or there is none. -/
  | settled
  /-- It is in the next word. -/
  | awaited
  /-- It has not been checked. -/
  | given (letters : String)
  deriving DecidableEq, Repr

/-- The part of a command that has been read. -/
structure Draft where
  switches : List Switch := []
  verbose : Nat := 0
  flags : Option Flags := none
  value : FlagsValue := .settled
  /-- The glob and the paths. -/
  operands : List String := []
  deriving DecidableEq, Repr

namespace Draft

/-- Sets the flags with the given letters. -/
def setFlags (d : Draft) (letters : String) : Except Refusal Draft :=
  match d.flags with
  | some _ => .error (.repeated "flags")
  | none =>
    match Flags.ofString letters with
    | .ok f => .ok { d with flags := some f, value := .settled }
    | .error e => .error (.badFlags e)

/-- Checks the value of the last `--flags`. -/
def settle (d : Draft) : Except Refusal Draft :=
  match d.value with
  | .settled => .ok d
  | .awaited => .error .missingValue
  | .given letters => d.setFlags letters

/-- The number of operands that a verb takes. -/
def capacity : Verb → Option Nat
  | .translate => some 1
  | .test => none

/-- Adds an operand, if the verb takes one more. -/
def addOperand (d : Draft) (v : Verb) (w : String) : Except Refusal Draft :=
  if (capacity v).any fun n => n ≤ d.operands.length then .error (.unknownArgument w)
  else d.settle.map fun d => { d with operands := d.operands ++ [w] }

/-- Turns a switch on. -/
def turnOn (d : Draft) (s : Switch) : Except Refusal Draft :=
  if s ∈ d.switches then .error (.repeated s.name)
  else .ok { d with switches := s :: d.switches }

/-- Puts an argument into the draft. The one for help ends the reading. -/
def add (v : Verb) (d : Draft) (a : Argument) : Except Request Draft :=
  match a with
  | .switch s => (d.settle.bind fun d => d.turnOn s).mapError .refused
  | .louder => (d.settle.map fun d => { d with verbose := d.verbose + 1 }).mapError .refused
  | .help => (d.settle.mapError .refused).bind fun _ => .error (.help (.verb v))
  | .flags letters => (d.settle.bind fun d => d.setFlags letters).mapError .refused
  | .flagsNext => (d.settle.map fun d => { d with value := .awaited }).mapError .refused
  | .word w =>
    if d.value = .awaited then .ok { d with value := .given w }
    else (d.addOperand v w).mapError .refused
  | .operand w => (d.addOperand v w).mapError .refused
  | .refused r => .error (.refused r)

/-- Puts arguments into the draft, from the left. -/
def addAll (v : Verb) (d : Draft) : List Argument → Except Request Draft
  | [] => .ok d
  | a :: as => (d.add v a).bind fun d => d.addAll v as

/-- The separator chosen by the switches. -/
def separator (d : Draft) : Separator :=
  if .windows ∈ d.switches then .windows else if .posix ∈ d.switches then .posix else .host

/-- The options chosen by the switches and the flags. -/
def options (d : Draft) : Options :=
  { extended := .extended ∈ d.switches, globstar := .globstar ∈ d.switches,
    strict := .strict ∈ d.switches, flags := d.flags.getD {}, separator := d.separator }

/-- The task of a verb. -/
def task (d : Draft) (v : Verb) (paths : List String) : Task :=
  match v with
  | .translate => .translate (.json ∈ d.switches)
  | .test => .test (.segments ∈ d.switches) paths

/-- The command of a draft to which nothing is added any more. -/
def finish (v : Verb) (d : Draft) : Except Refusal Command :=
  d.settle.bind fun d =>
    if .windows ∈ d.switches ∧ .posix ∈ d.switches then .error (.exclusive "windows" "posix")
    else match d.operands with
      | [] => .error .noGlob
      | glob :: paths =>
        .ok { task := d.task v paths, glob, options := d.options, verbose := min d.verbose 255 }

end Draft

namespace Request

/-- Reads the words after a verb. -/
def ofVerb (v : Verb) (ws : List String) : Request :=
  match ({} : Draft).addAll v (Argument.ofWords v ws) with
  | .error r => r
  | .ok d =>
    match d.finish v with
    | .ok c => .run c
    | .error r => .refused r

/-- Reads the words after `help`. -/
def ofHelp : List String → Request
  | [] => help .program
  | w :: ws =>
    match Verb.ofName? w, ws with
    | some v, [] => help (.verb v)
    | some _, x :: _ => refused (.unknownVerb x)
    | none, ws =>
      match w, ws with
      | "help", [] => help .help
      | "help", x :: _ => refused (.unknownVerb x)
      | _, _ => refused (.unknownVerb w)

/-- Reads an option before the verb. -/
def ofOption : List Char → Request
  | '-' :: cs =>
    match Argument.splitValue cs with
    | ("help", none) => help .program
    | ("version", none) => version
    | ("help", some _) => refused (.unneededValue "help")
    | ("version", some _) => refused (.unneededValue "version")
    | (name, _) => refused (.unknownArgument ("--" ++ name))
  | 'h' :: _ => help .program
  | 'V' :: _ => version
  | cs => refused (.unknownArgument (String.ofList ('-' :: cs.take 1)))

/-- Reads the words after `--` before the verb. No verb may stand there. -/
def ofEscaped : List String → Request
  | [] => refused .noVerb
  | w :: _ =>
    if w = "help" ∨ (Verb.ofName? w).isSome then refused (.unknownArgument w)
    else refused (.unknownVerb w)

/-- Reads the words of a command line. -/
def read : List String → Request
  | [] => refused .noVerb
  | "help" :: ws => ofHelp ws
  | "--" :: ws => ofEscaped ws
  | w :: ws =>
    match Verb.ofName? w with
    | some v => ofVerb v ws
    | none =>
      match w.toList with
      | '-' :: c :: cs => ofOption (c :: cs)
      | _ => refused (.unknownVerb w)

end Request

end PathGlob
