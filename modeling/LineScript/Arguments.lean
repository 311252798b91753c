namespace LineScript

-- What a command line asks for: an inline script whose lines are the contents, or source files to
-- run one after the other.
structure Options where
  files : Bool
  verbose : Bool
  contents : List String
deriving DecidableEq, Repr

inductive Command where
  | run (options : Options)
  | version
  | misuse
deriving DecidableEq, Repr

namespace Options

def initial : Options := ⟨false, false, []⟩

inductive Flag where
  | files
  | verbose
  | version
deriving DecidableEq, Repr

def Flag.ofLong? (name : String) : Option Flag :=
  if name = "--file" then some files
  else if name = "--verbose" then some verbose
  else if name = "--version" then some version
  else none

def Flag.ofShort? (letter : Char) : Option Flag :=
  if letter = 'f' then some files
  else if letter = 'v' then some verbose
  else if letter = 'V' then some version
  else none

-- Flags are taken from left to right. The version ends the reading, and so does a flag that is
-- unknown or given twice.
def addFlags (options : Options) : List (Option Flag) → Except Command Options
  | [] => .ok options
  | some .files :: rest =>
      if options.files then .error .misuse else addFlags { options with files := true } rest
  | some .verbose :: rest =>
      if options.verbose then .error .misuse else addFlags { options with verbose := true } rest
  | some .version :: _ => .error .version
  | none :: _ => .error .misuse

def add (options : Options) (contents : List String) : Options :=
  { options with contents := options.contents ++ contents }

-- There has to be something to run.
def command (options : Options) : Command :=
  if options.contents = [] then .misuse else .run options

-- Short flags may be clustered behind one dash, flags may follow contents, and a bare double dash
-- ends the flags. A single dash is no flag.
def read (options : Options) : List String → Command
  | [] => options.command
  | argument :: rest =>
      match argument.toList with
      | ['-', '-'] => (options.add rest).command
      | '-' :: '-' :: _ =>
          match options.addFlags [Flag.ofLong? argument] with
          | .ok extended => extended.read rest
          | .error command => command
      | '-' :: letter :: letters =>
          match options.addFlags ((letter :: letters).map Flag.ofShort?) with
          | .ok extended => extended.read rest
          | .error command => command
      | _ => (options.add [argument]).read rest

end Options

def Command.ofArguments (arguments : List String) : Command := Options.initial.read arguments

end LineScript
