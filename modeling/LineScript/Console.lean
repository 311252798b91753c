import LineScript.IoError
import LineScript.Text.Line

namespace LineScript

-- What is still to be read, what has been written since the output was last taken away, and how
-- much the output takes in between.
structure Console where
  input : List UInt8
  output : Text.Bytes
  limit : Option Nat
  flushFails : Bool
deriving Repr

namespace Console

def ofInput (input : Text.Bytes) : Console := ⟨input.toList, #[], none, false⟩

-- A write that does not fit keeps the part that does.
def write (console : Console) (text : String) : Console × Except IoError Unit :=
  let bytes := Text.encode text
  let output := console.output ++ bytes
  match console.limit with
  | none => ({ console with output := output }, .ok ())
  | some limit =>
      if output.size ≤ limit then ({ console with output := output }, .ok ())
      else ({ console with output := output.take limit }, .error .outputLimit)

def flush (console : Console) : Except IoError Unit :=
  if console.flushFails then .error .flushRefused else .ok ()

def takeLine : List UInt8 → List UInt8 × List UInt8
  | [] => ([], [])
  | byte :: rest =>
      if byte = Text.newline then ([byte], rest)
      else
        let line := takeLine rest
        (byte :: line.1, line.2)

-- The next line without its end; the empty text at the end of the input.
def readLine (console : Console) : Console × Except IoError String :=
  let line := takeLine console.input
  ({ console with input := line.2 },
    match Text.decode? line.1.toArray with
    | some text => .ok (Text.trimLineEnd text)
    | none => .error .invalidEncoding)

-- Takes the output away.
def drain (console : Console) : Text.Bytes × Console :=
  (console.output, { console with output := #[] })

end Console

end LineScript
