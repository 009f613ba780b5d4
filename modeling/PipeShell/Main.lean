import PipeShell.CommandLine.Files

/-! # The executable

Everything is decided by `runProgram`. Here the script, the input and the files that the lines ask for
are read, and what the program prints is written. -/

namespace PipeShell

/-- The reason that stands behind the number and the words of the system. The number may be given
with its sign changed. -/
def numberedError (code : UInt32) (details : String) : FileError :=
  let n := if code < 0x80000000 then code.toNat else UInt32.size - code.toNat
  if n = 2 then .notFound
  else if n = 20 then .notDirectory
  else if n = 21 then .isDirectory
  else if n = 36 then .nameTooLong
  else .refused (details.toList ++ " (os error ".toList ++ decimal n ++ [')'])

/-- The reason for which the system does not let a file be read. -/
def fileError : IO.Error → FileError
  | .noFileOrDirectory _ code details => numberedError code details
  | .permissionDenied _ code details => numberedError code details
  | .inappropriateType _ code details => numberedError code details
  | .invalidArgument _ code details => numberedError code details
  | .otherError code details => numberedError code details
  | e => .refused e.toString.toList

/-- What a path leads to. -/
def readPath (path : Text) : IO (Text × Except FileError Bytes) := do
  if '\x00' ∈ path then return (path, .error .holdsNul)
  try
    let content ← IO.FS.readBinFile (String.ofList path)
    return (path, .ok content.toList)
  catch e => return (path, .error (fileError e))

/-- Everything that can be read from a stream. -/
partial def readAll (stream : IO.FS.Stream) (before : ByteArray) : IO ByteArray := do
  let chunk ← stream.read 65536
  if chunk.isEmpty then return before
  readAll stream (before ++ chunk)

/-- The directory that the program runs in. -/
def currentDirectory : IO Text := do
  let workingDir ← try
      let dir ← IO.currentDir
      pure (some dir.toString.toList)
    catch _ => pure none
  return startingDirectory workingDir ((← IO.getEnv "PWD").map String.toList)

end PipeShell

open PipeShell in
/-- Run the program on the arguments, the standard input and the files of the system. -/
def main (args : List String) : IO UInt32 := do
  let args := args.map String.toList
  let dir ← currentDirectory
  let input ← if readsInput args then readAll (← IO.getStdin) .empty else pure .empty
  let scripts ← (scriptPaths args).mapM readPath
  let files ← (commandPaths dir (Disk.ofList scripts) args input.toList).mapM readPath
  let e := runProgram dir (Disk.ofList (scripts ++ files)) args input.toList
  (← IO.getStdout).write (ByteArray.mk e.out.toArray)
  (← IO.getStderr).write (ByteArray.mk e.err.toArray)
  return UInt32.ofNat e.code.toNat
