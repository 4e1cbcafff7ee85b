import FolderWatch.Program.Watch

/-!
The command line: it looks at the file system, hands what it sees to the program and prints what the
program writes. An interrupt ends it.
-/

namespace FolderWatch.Main

open Program

def accessError : IO.Error → AccessError
  | .noFileOrDirectory .. => .missing
  | .inappropriateType .. => .notDirectory
  | error => .other (toString error)

def nameOf (path : Path) : String := path.text?.getD ""

def lookup (path : Path) : IO (Except AccessError Metadata) := do
  try
    let metadata ← (System.mkFilePath [nameOf path]).metadata
    match metadata.type with
    | .file =>
        let modified := metadata.modified
        return .ok (.file metadata.byteSize ⟨modified.sec, modified.nsec.toNat⟩)
    | .dir => return .ok .directory
    | _ => return .ok .other
  catch error => return .error (accessError error)

def list (path : Path) : IO (Except AccessError (List (List UInt8))) := do
  try
    let entries ← (System.mkFilePath [nameOf path]).readDir
    return .ok (entries.toList.map fun entry => Utf8.encode entry.fileName)
  catch error => return .error (accessError error)

def look (directory : Path) : IO DirectoryView := do
  let listing ← list directory
  let names := listing.toOption.getD []
  let paths := directory :: names.map (Snapshot.entryPath directory)
  let found ← paths.mapM fun path => return (path, ← lookup path)
  return {
    list := fun path =>
      if path = directory then listing.map (·.map .entry) else .error .missing
    lookup := fun path => (found.lookup path).getD (.error .missing) }

def read? (path : Path) : IO (Option (List UInt8)) := do
  try return some (← IO.FS.readBinFile (System.mkFilePath [nameOf path])).toList
  catch _ => return none

def environment : IO Environment := do
  let names := [Settings.delayVariable, Settings.stopTimeoutVariable, Settings.firstScanVariable]
  let found ← names.mapM fun name => do
    return (← IO.getEnv name).map fun text => (name, Utf8.encode text)
  return found.filterMap id

/-- What the program finds around it. The paths to look at are those of the command line. -/
def surroundings (arguments : List String) : IO Surroundings := do
  let workingDirectory := Path.ofString (← IO.currentDir).toString
  let arguments := Utf8.encode "dirpoll" :: arguments.map Utf8.encode
  let line := (CommandLine.ofArguments arguments).toOption.getD {}
  let path := line.watchPath workingDirectory
  let near ← look path
  let far ← look (workingDirectory.join path)
  let config ← line.config.mapM fun config => return (config, ← read? config)
  return {
    arguments, workingDirectory
    environment := ← environment
    view := {
      list := fun asked => if asked = path then near.list asked else far.list asked
      lookup := fun asked => if asked = path then near.lookup asked else far.lookup asked }
    read? := fun asked => do
      let (path, content) ← config
      if path = asked then content else none }

def print (shown : List Watch.Event) : IO Unit := do
  for line in Watch.written shown do
    IO.println line
  (← IO.getStdout).flush

partial def poll (watch : Watch) : IO Unit := do
  let view ← look watch.monitor.directory
  let (watch, shown) := watch.poll view
  print shown
  IO.sleep (UInt32.ofNat (min watch.monitor.delaySpan.wholeMillis 4294967295))
  poll watch

def run (arguments : List String) : IO UInt32 := do
  let surroundings ← surroundings arguments
  match plan surroundings >>= fun plan => return (plan, ← Watch.ofPlan surroundings plan) with
  | .error exit =>
      IO.print exit.output
      match exit.message? with
      | some message => IO.eprintln ("Error: " ++ message)
      | none => pure ()
      return UInt32.ofNat exit.status
  | .ok (plan, watch) =>
      IO.print plan.header
      let (watch, shown) := watch.settle surroundings.view
      print shown
      match watch.fault with
      | some fault =>
          IO.eprintln ("Error: " ++ fault.message)
          return 1
      | none =>
          poll watch
          return 0

end FolderWatch.Main

def main (arguments : List String) : IO UInt32 := FolderWatch.Main.run arguments
