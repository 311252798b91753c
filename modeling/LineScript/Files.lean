import LineScript.Disk
import LineScript.RuntimeError
import LineScript.Text.Line

namespace LineScript

-- What stands behind a handle: a place in a file, or lines that have not reached their file yet.
inductive Channel where
  | closed
  | reading (path : Path) (offset : Nat)
  | writing (path : Path) (buffer : Text.Bytes)
deriving Repr

-- The disk, and the channel of every handle given out so far, by its number.
structure Files where
  disk : Disk
  channels : Array Channel
deriving Repr

-- The bytes a write channel holds back.
def bufferSize : Nat := 8192

namespace Files

def ofDisk (disk : Disk) : Files := ⟨disk, #[]⟩

def channel (files : Files) (handle : Handle) : Channel :=
  files.channels.getD handle.id .closed

def isOpen (files : Files) (handle : Handle) : Bool :=
  match files.channel handle with
  | .closed => false
  | _ => true

def anyOpen (files : Files) : Bool :=
  files.channels.any fun channel =>
    match channel with
    | .closed => false
    | _ => true

def setChannel (files : Files) (handle : Handle) (channel : Channel) : Files :=
  { files with channels := files.channels.setIfInBounds handle.id channel }

def give (files : Files) (name : String) (channel : Channel) : Files × Handle :=
  ({ files with channels := files.channels.push channel }, ⟨files.channels.size, name⟩)

def openRead (files : Files) (name : String) : Except RuntimeError (Files × Handle) :=
  match files.disk.find name with
  | .ok path => .ok (files.give name (.reading path 0))
  | .error e => .error (.file name e)

def openWrite (files : Files) (name : String) : Except RuntimeError (Files × Handle) :=
  match files.disk.findOrCreate name with
  | .ok (disk, path) => .ok ({ files with disk := disk }.give name (.writing path #[]))
  | .error e => .error (.file name e)

-- The line without its end, or `none` at the end of the file. Bytes that are no text are passed
-- over all the same.
def readLine (files : Files) (handle : Handle) : Files × Except RuntimeError (Option String) :=
  match files.channel handle with
  | .reading path offset =>
      if files.disk.node? path = some .directory then
        (files, .error (.file handle.name .isADirectory))
      else
        let content := files.disk.content path
        let stop := Text.lineEnd content offset
        if stop ≤ offset then (files, .ok none)
        else
          let moved := files.setChannel handle (.reading path stop)
          match Text.decode? (content.extract offset stop) with
          | some line => (moved, .ok (some (Text.trimLineEnd line)))
          | none => (moved, .error (.file handle.name .invalidEncoding))
  | _ => (files, .error (.fileClosed handle.name))

-- Hands the buffer over to the file. A file that refuses leaves it as it was.
def flush (files : Files) (handle : Handle) : Files × Except IoError Unit :=
  match files.channel handle with
  | .writing path buffer =>
      if buffer.isEmpty then (files, .ok ())
      else
        match files.disk.append path buffer with
        | .ok disk => ({ files with disk := disk }.setChannel handle (.writing path #[]), .ok ())
        | .error e => (files, .error e)
  | _ => (files, .ok ())

-- Puts bytes behind those in the buffer, or past an empty buffer if they are too many for one.
def store (files : Files) (handle : Handle) (bytes : Text.Bytes) : Files × Except IoError Unit :=
  match files.channel handle with
  | .writing path buffer =>
      if bufferSize ≤ bytes.size then
        match files.disk.append path bytes with
        | .ok disk => ({ files with disk := disk }, .ok ())
        | .error e => (files, .error e)
      else (files.setChannel handle (.writing path (buffer ++ bytes)), .ok ())
  | _ => (files, .ok ())

def spare (files : Files) (handle : Handle) : Nat :=
  match files.channel handle with
  | .writing _ buffer => bufferSize - buffer.size
  | _ => 0

-- Bytes that do not fit beside those in the buffer have the buffer flushed first.
def put (files : Files) (handle : Handle) (bytes : Text.Bytes) : Files × Except IoError Unit :=
  if bytes.size ≤ files.spare handle then files.store handle bytes
  else
    match files.flush handle with
    | (flushed, .ok ()) => flushed.store handle bytes
    | failed => failed

def writeLine (files : Files) (handle : Handle) (text : String) :
    Files × Except RuntimeError Unit :=
  match files.channel handle with
  | .writing _ _ =>
      let outcome :=
        match files.put handle (Text.encode text) with
        | (written, .ok ()) => written.put handle #[Text.newline]
        | failed => failed
      (outcome.1, outcome.2.mapError (.file handle.name))
  | _ => (files, .error (.fileClosed handle.name))

-- The handle is closed even when its last lines cannot be written. Closing twice does nothing.
def close (files : Files) (handle : Handle) : Files × Except RuntimeError Unit :=
  let outcome := files.flush handle
  (outcome.1.setChannel handle .closed, outcome.2.mapError (.file handle.name))

-- Closes one handle after the other, all of them even when one fails. Gives the number of those
-- that were open, or the first failure.
def closeAll (files : Files) : List Handle → Files × Except RuntimeError Nat
  | [] => (files, .ok 0)
  | handle :: rest =>
      let closed := files.close handle
      let later := closed.1.closeAll rest
      (later.1,
        match closed.2 with
        | .ok () => later.2.map (· + if files.isOpen handle then 1 else 0)
        | .error e => .error e)

-- Closes handles that nothing refers to any more; nobody is left to hear of a failure.
def release (files : Files) (handles : List Handle) : Files :=
  handles.foldl (fun files handle => (files.close handle).1) files

end Files

end LineScript
