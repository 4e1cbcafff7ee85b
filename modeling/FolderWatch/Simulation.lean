import FolderWatch.FileTree
import FolderWatch.Session

/-!
A session whose file system is held in memory and changes only by edits, done step by step.
-/

namespace FolderWatch

structure Simulation where
  tree : FileTree
  session : Session

namespace Simulation

open Session

def ofTree (tree : FileTree) (workingDirectory : Path) : Simulation where
  tree
  session := { view := tree.view workingDirectory, workingDirectory }

inductive Step where
  | edit (edit : FileTree.Edit)
  | capture (directory : Path)
  | check (directory : Path)
  /-- Another monitor; the old one is given up unless the new one cannot be made. -/
  | create (directory : Path) (settings : PollSettings)
  | drop
  | setDirectory (directory : Path)
  | request (request : Request)
  | scan
  | start
  | stop
  | startMany (count : Nat)
  | settle
  | gateWait (tag : String)
  | gateOpen (tag : String)
  | drainStart (tag : String)
  | drainStop (tag : String)
  | drainPending (tag : String)
  /-- Waits for changes in all batches since the last wait. -/
  | drainWait (tag : String) (count : Nat) (asBatches : Bool)

def applyEdit (simulation : Simulation) (edit : FileTree.Edit) : Simulation :=
  let directory := simulation.session.workingDirectory
  let tree := simulation.tree.apply directory edit
  { tree, session := { simulation.session with view := tree.view directory } }

def stepSession (session : Session) : Step → Session × Answer
  | .edit _ => (session, .done)
  | .capture directory =>
      match Snapshot.capture session.view directory with
      | .ok snapshot =>
          ({ session with
              log := session.log ++ Snapshot.captureLog session.view directory },
            .snapshot (some snapshot))
      | .error fault => (session, .fault fault)
  | .check directory =>
      match session.view.checkDirectory directory with
      | .ok () => (session, .done)
      | .error fault => (session, .fault fault)
  | .create directory settings => session.create directory settings
  | .drop => (session.dropMonitor, .nothing)
  | .setDirectory directory =>
      let session := session.operate (.setDirectory directory)
      (session, session.answer fun _ =>
        (session.monitor.map fun monitor => .path monitor.directory).getD .nothing)
  | .request request => session.perform request
  | .scan =>
      let session := session.operate .scan
      (session, session.answer .count)
  | .start =>
      let session := session.operate .start
      (session, session.answer fun _ => .done)
  | .stop =>
      let session := session.operate .stop
      (session, session.answer fun _ => .done)
  | .startMany count =>
      let (session, results) := session.startMany count
      (session, .faults results)
  | .settle =>
      let session := session.pollUntil isSettled mostCycles
      (session,
        if session.isSettled then .snapshot (session.monitor.bind Monitor.baseline) else .stuck)
  | .gateWait tag =>
      let session := session.pollUntil (fun session => decide (tag ∈ session.reached)) mostCycles
      (session, if tag ∈ session.reached then .flag true else .stuck)
  | .gateOpen tag => ({ session with opened := tag :: session.opened }.runCycles, .nothing)
  | .drainStart tag => session.operateDrain tag .start
  | .drainStop tag => session.operateDrain tag .stop
  | .drainPending tag =>
      let session := session.settleDrain tag
      (session, .count (session.drain tag).drain.pending)
  | .drainWait tag count asBatches => session.drainWait tag count asBatches

def step (simulation : Simulation) (step : Step) : Simulation × Answer :=
  let simulation := { simulation with session := { simulation.session with log := [] } }
  let simulation := match step with
    | .edit edit => simulation.applyEdit edit
    | _ => simulation
  let (session, answer) := stepSession simulation.session step
  ({ simulation with session }, answer)

end Simulation

end FolderWatch
