import LineScript.Session.Need

open LineScript

namespace LineScript.Main

-- Looks at one name on the real disk. What can be read is a file, and what cannot although it is
-- there is taken for a directory.
def look (disk : Disk) (name : String) : IO Disk := do
  try
    let content ← IO.FS.readBinFile name
    return disk.place name (.file content.data)
  catch error =>
    match error with
    | .noFileOrDirectory .. => return disk
    | _ => return disk.place name .directory

-- The name and every shorter one it goes through.
def leading (name : String) : List String :=
  let components := Disk.splitName name
  ((List.range components.length).map fun n => "/".intercalate (components.take (n + 1))).filter
    (· ≠ "")

def isDevice (disk : Disk) (name : String) : Bool :=
  match disk.find name with
  | .ok path => disk.node? path = some .sink ∨ disk.node? path = some .full
  | .error _ => false

def lookAt (disk : Disk) (name : String) (create : Bool) : IO Disk := do
  if isDevice disk name then return disk
  if create then
    try discard <| IO.FS.Handle.mk name .append catch _ => pure ()
  (leading name).foldlM look disk

-- Lets the real disk follow what was appended to files in a step.
def follow (before after : Disk) : IO Unit :=
  after.entries.forM fun (path, node) => do
    let old := (before.content path).size
    match node with
    | .file content =>
        if old < content.size then
          let file ← IO.FS.Handle.mk ("/" ++ "/".intercalate path) .append
          file.write ⟨content.extract old content.size⟩
          file.flush
    | _ => pure ()

-- One line of standard input, byte by byte, since it need not be text.
partial def nextLine (input : IO.FS.Stream) (read : Text.Bytes) : IO Text.Bytes := do
  let byte ← input.read 1
  if byte.isEmpty then return read
  else if byte.data = #[Text.newline] then return read ++ byte.data
  else nextLine input (read ++ byte.data)

def supply (session : Session) : IO Session := do
  match session.need with
  | .nothing => return session
  | .line => return session.addInput (← nextLine (← IO.getStdin) #[])
  | .file name create =>
      match session.world? with
      | some world =>
          let disk ← lookAt world.files.disk name create
          return session.mapDisk fun _ => disk
      | none => return session
  | .pause duration =>
      IO.sleep (UInt32.ofNat (duration.seconds * 1000 + duration.nanoseconds / 1000000))
      return session

def emit (session : Session) : IO Session := do
  let output ← IO.getStdout
  output.write ⟨session.printed⟩
  output.flush
  IO.eprint session.complaints
  return { session with printed := #[], complaints := "" }

def diskOf (session : Session) : Disk :=
  match session.world? with
  | some world => world.files.disk
  | none => .empty

-- The exit code of a crash.
def crashCode : UInt32 := 101

partial def loop (session : Session) : IO UInt32 := do
  match session.stage with
  | .ended _ code => return UInt32.ofNat code
  | .crashed => return crashCode
  | _ =>
      let ready ← supply session
      let next := ready.advance
      follow (diskOf ready) (diskOf next)
      loop (← emit next)

-- The random words of a run: all 64-bit numbers from a seed on in large steps, each of them
-- scrambled.
def words (seed : UInt64) : Words := fun n =>
  let state := seed + (UInt64.ofNat n + 1) * 0x9E3779B97F4A7C15
  let x := (state ^^^ (state >>> 30)) * 0xBF58476D1CE4E5B9
  let y := (x ^^^ (x >>> 27)) * 0x94D049BB133111EB
  y ^^^ (y >>> 31)

def world : IO World := do
  let directory := (Disk.splitName (← IO.currentDir).toString).filter (· ≠ "")
  return {
    console := .ofInput #[]
    files := .ofDisk (.emptyAt directory)
    random := ⟨words (UInt64.ofNat (← IO.rand 0 (Number.twoTo 62)))⟩
    log := .upTo none }

end LineScript.Main

def main (arguments : List String) : IO UInt32 := do
  let level ← IO.getEnv "RUST_LOG"
  let session := Session.start arguments level (← LineScript.Main.world)
  LineScript.Main.loop (← LineScript.Main.emit session)
