import HostProfile.Cli.Run

/-! The program: it gathers what its answer depends on, and prints the answer. The kernel's names
are read from its own files. -/
namespace HostProfile.Main

open Text

private def bytesOf (s : String) : List UInt8 :=
  Utf8.encode s.toList

private def readBytes? (path : String) : IO (Option (List UInt8)) := do
  try
    return some (← IO.FS.readBinFile path).toList
  catch _ => return none

/-- The text before and after a byte's first occurrence. -/
private def cutAt (b : UInt8) (bs : List UInt8) : List UInt8 × List UInt8 :=
  (bs.takeWhile (· != b), (bs.dropWhile (· != b)).drop 1)

private def splitAt (b : UInt8) (bs : List UInt8) : List (List UInt8) :=
  bs.foldr (fun c acc =>
    if c == b then [] :: acc
    else match acc with
      | [] => [[c]]
      | w :: ws => (c :: w) :: ws) [[]]

private def readEnvironment : IO (List (String × List UInt8)) := do
  let bytes ← readBytes? "/proc/self/environ"
  let entries := (splitAt 0 (bytes.getD [])).filter (!·.isEmpty)
  return entries.map fun e =>
    let (name, value) := cutAt 0x3D e
    (.ofList (Utf8.decodeLossy name), value)

/-- The home in the line of `/etc/passwd` that has a user's number. -/
private def homeOf? (user accounts : List UInt8) : Option (List UInt8) :=
  let account? := ((splitAt 0x0A accounts).map (splitAt 0x3A)).find? fun fields =>
    fields[2]? == some user
  account?.bind fun fields => fields[5]?

/-- The user's number is the first one on the line `Uid:` of the process's status. -/
private def readAccountHome : IO (Option (List UInt8)) := do
  let status ← readBytes? "/proc/self/status"
  let accounts ← readBytes? "/etc/passwd"
  let line? := ((splitAt 0x0A (status.getD [])).map (splitAt 0x09)).find? fun fields =>
    fields.head? == some (bytesOf "Uid:")
  return (line?.bind fun fields => fields[1]?).bind fun user => homeOf? user (accounts.getD [])

private def readWorkingDirectory : IO (Except String (List UInt8)) := do
  try
    return .ok (bytesOf (toString (← IO.currentDir)))
  catch e => return .error (toString e)

private def readCpuinfo : IO (Except String String) := do
  match ← readBytes? "/proc/cpuinfo" with
  | some bytes =>
    match Utf8.decode? bytes with
    | some cs => return .ok (.ofList cs)
    | none => return .error "not a text file"
  | none => return .error "not readable"

private def readPath (path : List UInt8) : IO PathState := do
  match Utf8.decode? path with
  | none => return .missing
  | some cs =>
    try
      let bytes := (← IO.FS.readBinFile (String.ofList cs)).toList
      match Utf8.decode? bytes with
      | some cs => return .text (.ofList cs)
      | none => return .unreadable
    catch
      | .noFileOrDirectory .. => return .missing
      | _ => return .notAFile

/-- The paths that a command line may lead to. -/
private def candidatePaths (words : List String) (h : Host) : List (List UInt8) :=
  match Cli.Invocation.ofArguments words with
  | .run options _ =>
    match options.config with
    | some path => [bytesOf path]
    | none => h.configPath?.toList
  | _ => []

private def readHost (words : List String) : IO Host := do
  let kernelName ← readBytes? "/proc/sys/kernel/ostype"
  let kernelRelease ← readBytes? "/proc/sys/kernel/osrelease"
  let stdoutTerminal ← (← IO.getStdout).isTty
  let stderrTerminal ← (← IO.getStderr).isTty
  let host : Host :=
    { environment := ← readEnvironment
      accountHome? := ← readAccountHome
      output? := fun
        | .kernelName => kernelName
        | .kernelRelease => kernelRelease
        | _ => none
      workingDirectory := ← readWorkingDirectory
      isTerminal := fun
        | .stdout => stdoutTerminal
        | .stderr => stderrTerminal
      cpuinfo := ← readCpuinfo }
  let states ← (candidatePaths words host).mapM fun path => return (path, ← readPath path)
  return { host with path := fun path => (states.lookup path).getD .missing }

end HostProfile.Main

def main (words : List String) : IO UInt32 := do
  let outcome := HostProfile.Cli.run words (← HostProfile.Main.readHost words)
  (← IO.getStdout).putStr outcome.stdout
  (← IO.getStderr).putStr outcome.stderr
  return outcome.exitCode.toUInt32
