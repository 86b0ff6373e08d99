/-!
# Invocations

What the words of a command line ask for. Words are taken in order, and the first that cannot be
taken decides: a request for help ends reading at once, and so does a mistake. An option that takes
a value has it behind an equals sign, behind its letter, or as the next word, and may be given
once; behind two dashes every word is a file name.
-/

namespace LinearModel

namespace CommandLine

inductive Format where
  | pretty
  | json
  deriving DecidableEq, Repr

inductive Invocation where
  /-- Solve a problem file; the time limit is in seconds. -/
  | solve (file : String) (timeLimit : Option Nat) (format : Format) (verbose : Bool)
  | assemble (file : String) (format : Format)
  | demo
  deriving DecidableEq, Repr

/-- Why a command line asks for nothing. -/
inductive Usage where
  | help
  | mistake
  deriving DecidableEq, Repr

inductive Command where
  | solve
  | assemble
  | demo
  deriving DecidableEq, Repr

def Command.named? : String → Option Command
  | "solve" => some .solve
  | "assemble" => some .assemble
  | "demo" => some .demo
  | _ => none

/-- The words of a command that were taken so far. -/
structure Words where
  verbose : Bool
  file : Option String
  timeLimit : Option Nat
  format : Option Format
  deriving DecidableEq, Repr

inductive Setting where
  | timeLimit
  | format
  deriving DecidableEq, Repr

namespace Setting

def belongsTo : Setting → Command → Bool
  | timeLimit, .solve => true
  | format, .solve | format, .assemble => true
  | _, _ => false

def ofLetter? : Char → Option Setting
  | 't' => some timeLimit
  | 'f' => some format
  | _ => none

def ofName? : String → Option Setting
  | "time-limit" => some timeLimit
  | "format" => some format
  | _ => none

end Setting

/-- A 64-bit word in decimal digits, with or without a plus sign. -/
def word? (s : String) : Option Nat :=
  let ds := match s.toList with
    | '+' :: ds => ds
    | ds => ds
  if ds.isEmpty || !ds.all fun c => '0' ≤ c && c ≤ '9' then none
  else
    let n := ds.foldl (fun n c => 10 * n + (c.toNat - '0'.toNat)) 0
    if n < Nat.pow 2 64 then some n else none

def Format.named? : String → Option Format
  | "pretty" => some .pretty
  | "json" => some .json
  | _ => none

namespace Words

/-- Takes the value of an option, once. -/
def withSetting (w : Words) (setting : Setting) (value : String) : Except Usage Words :=
  match setting with
  | .timeLimit =>
    match w.timeLimit, word? value with
    | none, some n => .ok { w with timeLimit := some n }
    | _, _ => .error .mistake
  | .format =>
    match w.format, Format.named? value with
    | none, some f => .ok { w with format := some f }
    | _, _ => .error .mistake

/-- Takes a file name, once, for a command that has one. -/
def withFile (w : Words) (command : Command) (name : String) : Except Usage Words :=
  if command = .demo || w.file.isSome || name.isEmpty then .error .mistake
  else .ok { w with file := some name }

def finish (w : Words) (command : Command) : Except Usage Invocation :=
  match command, w.file with
  | .solve, some file => .ok (.solve file w.timeLimit (w.format.getD .pretty) w.verbose)
  | .assemble, some file => .ok (.assemble file (w.format.getD .pretty))
  | .demo, _ => .ok .demo
  | _, none => .error .mistake

end Words

/-- What a word is by its first letters. -/
inductive Shape where
  /-- Two dashes alone. -/
  | separator
  /-- A name behind two dashes, with the value behind an equals sign if there is one. -/
  | long (name : String) (value : Option String)
  /-- Letters behind one dash. -/
  | short (letters : List Char)
  | plain (word : String)

def Shape.ofWord (word : String) : Shape :=
  match word.toList with
  | ['-', '-'] => .separator
  | '-' :: '-' :: name =>
    match name.span (· ≠ '=') with
    | (name, _ :: value) => .long (String.ofList name) (some (String.ofList value))
    | (name, []) => .long (String.ofList name) none
  | '-' :: letter :: letters => .short (letter :: letters)
  | _ => .plain word

/-- What a cluster of letters asks for: some switches, and the last letter perhaps an option whose
value follows, in the cluster or behind it. -/
inductive Cluster where
  | switches
  | setting (setting : Setting) (value : Option String)

/-- Reads the letters of a cluster in order; true means that there was a switch for messages. -/
def cluster (command : Command) : List Char → Except Usage (Bool × Cluster)
  | [] => .ok (false, .switches)
  | 'v' :: rest => do return (true, (← cluster command rest).2)
  | 'h' :: _ => .error .help
  | letter :: rest =>
    match Setting.ofLetter? letter with
    | some setting =>
      if !setting.belongsTo command then .error .mistake
      else
        match rest with
        | [] => .ok (false, .setting setting none)
        | '=' :: value => .ok (false, .setting setting (some (String.ofList value)))
        | value => .ok (false, .setting setting (some (String.ofList value)))
    | none => .error .mistake

def files (command : Command) : Words → List String → Except Usage Words
  | w, [] => .ok w
  | w, name :: rest => do files command (← w.withFile command name) rest

def words (command : Command) : Words → List String → Except Usage Words
  | w, [] => .ok w
  | w, word :: rest =>
    match Shape.ofWord word with
    | .separator => files command w rest
    | .plain name => do words command (← w.withFile command name) rest
    | .long "verbose" none => words command { w with verbose := true } rest
    | .long "help" none => .error .help
    | .long name value =>
      match Setting.ofName? name with
      | some setting =>
        if setting.belongsTo command then
          match value, rest with
          | some value, rest => do words command (← w.withSetting setting value) rest
          | none, value :: rest => do words command (← follow w setting value) rest
          | none, [] => .error .mistake
        else .error .mistake
      | none => .error .mistake
    | .short letters => do
      let (verbose, c) ← cluster command letters
      let w := { w with verbose := w.verbose || verbose }
      match c, rest with
      | .switches, rest => words command w rest
      | .setting setting (some value), rest =>
        words command (← w.withSetting setting value) rest
      | .setting setting none, value :: rest =>
        words command (← follow w setting value) rest
      | .setting _ none, [] => .error .mistake
where
  /-- Takes the next word as a value, which must not look like an option. -/
  follow (w : Words) (setting : Setting) (value : String) : Except Usage Words :=
    match Shape.ofWord value with
    | .plain value => w.withSetting setting value
    | _ => .error .mistake

/-- Whether help can be given on what follows the word for help. -/
def helpOn : List String → Usage
  | [] => .help
  | [topic] => if topic = "help" || (Command.named? topic).isSome then .help else .mistake
  | _ => .mistake

/-- Letters that stand before the command: switches for messages, or a request for help. -/
def leadingLetters : List Char → Except Usage Unit
  | [] => .ok ()
  | 'v' :: rest => leadingLetters rest
  | 'h' :: _ => .error .help
  | _ => .error .mistake

def invocation (verbose : Bool) : List String → Except Usage Invocation
  | [] => .error .mistake
  | word :: rest =>
    match Shape.ofWord word with
    | .separator => .error .mistake
    | .long "verbose" none => invocation true rest
    | .long "help" none => .error .help
    | .long _ _ => .error .mistake
    | .short letters => do
      leadingLetters letters
      invocation true rest
    | .plain "help" => .error (helpOn rest)
    | .plain name =>
      match Command.named? name with
      | some command => do (← words command ⟨verbose, none, none, none⟩ rest).finish command
      | none => .error .mistake

end CommandLine

end LinearModel
