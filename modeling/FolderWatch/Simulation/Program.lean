import FolderWatch.Program.Watch
import FolderWatch.Simulation

/-!
The whole program in a simulated file system, from its start to the interrupt that ends it.
-/

namespace FolderWatch.Simulation

open Program

inductive ProgramStep where
  | lines (count : Nat)
  | edit (edit : FileTree.Edit)

structure Ending where
  status : Nat
  output : String
  message? : Option String := none

structure RunningProgram where
  watch : Watch
  simulation : Simulation
  output : String

namespace RunningProgram

def lineCount (program : RunningProgram) : Nat :=
  (program.output.toList.filter (· = '\n')).length

def display (program : RunningProgram) (turn : Watch × List Watch.Event) : RunningProgram :=
  { program with
    watch := turn.1
    output := program.output ++ String.join ((Watch.written turn.2).map (· ++ "\n")) }

def view (program : RunningProgram) : DirectoryView := program.simulation.session.view

def poll (program : RunningProgram) : RunningProgram :=
  program.display (program.watch.poll program.view)

def pollUntil (program : RunningProgram) (count : Nat) : Nat → RunningProgram
  | 0 => program
  | cycles + 1 =>
      if count ≤ program.lineCount then program else program.poll.pollUntil count cycles

def step (program : RunningProgram) : ProgramStep → RunningProgram
  | .lines count => program.pollUntil count Session.mostCycles
  | .edit edit => { program with simulation := program.simulation.applyEdit edit }

def finish (program : RunningProgram) : Ending :=
  let program := program.display (program.watch.interrupt program.view)
  match program.watch.fault with
  | none => ⟨0, program.output, none⟩
  | some fault => ⟨1, program.output, some fault.message⟩

end RunningProgram

def Ending.ofEarlyExit (exit : EarlyExit) : Ending := ⟨exit.status, exit.output, exit.message?⟩

/-- Starts the program; its first cycle comes before anything else happens. -/
def startProgram (simulation : Simulation) (arguments : List (List UInt8))
    (environment : Environment) : Except EarlyExit RunningProgram := do
  let directory := simulation.session.workingDirectory
  let surroundings : Surroundings := {
    arguments, environment
    workingDirectory := directory
    view := simulation.session.view
    read? := simulation.tree.read? directory }
  let plan ← plan surroundings
  let watch ← Watch.ofPlan surroundings plan
  let program : RunningProgram := ⟨watch, simulation, plan.header⟩
  return program.display (watch.settle surroundings.view)

def runProgram (simulation : Simulation) (arguments : List (List UInt8))
    (environment : Environment) (steps : List ProgramStep) : Ending :=
  match startProgram simulation arguments environment with
  | .error exit => .ofEarlyExit exit
  | .ok program => (steps.foldl RunningProgram.step program).finish

end FolderWatch.Simulation
