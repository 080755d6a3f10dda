import SeriesBroker.Command.Run

/-! # The command line program

    The surroundings of a process, and the program that runs a command line in them. The
    process has no way to the network.
-/

namespace SeriesBroker

/-- The fault of an error of the system. -/
def faultOfError : IO.Error → FileFault
  | .noFileOrDirectory .. => .notFound
  | .permissionDenied .. => .denied
  | .alreadyExists .. => .alreadyExists
  | .inappropriateType _ code _ => if code = 20 then .notFolder else .isFolder
  | other => .reported (toString other)

/-- The outcome of an action on files. -/
def attempt {α : Type} (action : IO α) : IO (Except FileFault α) := do
  match ← action.toBaseIO with
  | .ok value => pure (.ok value)
  | .error error => pure (.error (faultOfError error))

def textOfBytes (bytes : ByteArray) : Except FileFault String :=
  match String.fromUTF8? bytes with
  | some text => .ok text
  | none => .error .notText

partial def readStream (stream : IO.FS.Stream) (sofar : ByteArray) : IO ByteArray := do
  let bytes ← stream.read 65536
  if bytes.isEmpty then pure sofar else readStream stream (sofar ++ bytes)

def isThereOnDisk (path : String) : IO Bool := do
  match ← attempt (IO.FS.Handle.mk path .read) with
  | .ok _ => pure true
  | .error fault => pure (fault != .notFound && fault != .notFolder)

def readOnDisk (path : String) : IO (Except FileFault String) := do
  pure ((← attempt (IO.FS.readBinFile path)).bind textOfBytes)

/-- Write a file at a path, making the folders on the way to it. -/
def writeOnDisk (path text : String) : IO (Except FileFault Unit) :=
  attempt do
    let parent := parentPath path
    if !parent.isEmpty then IO.FS.createDirAll parent
    IO.FS.writeFile path text

def processSurroundings : IO (Surroundings IO) := do
  let given ← variableNames.filterMapM fun name => do
    pure ((← IO.getEnv name).map fun text => (name, text))
  pure {
    environment := fun name => given.lookup name
    input := do
      let bytes ← attempt (do readStream (← IO.getStdin) ByteArray.empty)
      pure (bytes.bind textOfBytes)
    isThere := isThereOnDisk
    read := readOnDisk
    write := writeOnDisk
    reach := Client.offline }

end SeriesBroker

open SeriesBroker in
def main (words : List String) : IO UInt32 := do
  let outcome ← Command.run (← processSurroundings) words
  for event in outcome.events do
    IO.eprintln (event.line .pretty)
  IO.print outcome.output
  IO.eprint outcome.complaint
  pure (UInt32.ofNat outcome.exitCode)
