import FolderWatch.Main
import FolderWatch.Simulation.Program
import FolderWatch.Settings.Json
import FolderWatch.Snapshot.Json
import FolderWatch.Proofs.Drain.Conservation
import FolderWatch.Proofs.Monitor.Serial
import FolderWatch.Proofs.Monitor.Crossing
import FolderWatch.Proofs.Recognizer.Patch
import FolderWatch.Proofs.Drain.Batches
import FolderWatch.Proofs.Monitor.Hearings
import FolderWatch.Proofs.Monitor.Alone
import FolderWatch.Proofs.Watch.Stages
import FolderWatch.Proofs.Monitor.Delivering
import FolderWatch.Proofs.Watch.Output
import FolderWatch.Proofs.Failures
import FolderWatch.Proofs.Monitor.Turns
import FolderWatch.Proofs.Drain.Turns
import FolderWatch.Proofs.Lifecycles
import FolderWatch.Proofs.StateMachine.Tasks
import FolderWatch.StateMachine.Threads
import FolderWatch.Proofs.StateMachine.Paths
import FolderWatch.Proofs.Drain.Order
import FolderWatch.Proofs.Json.RoundTrip
import FolderWatch.Proofs.Recognizer.Exactness
import FolderWatch.Proofs.Recognizer.Spellings
import FolderWatch.Proofs.Monitor.Isolation
import FolderWatch.Proofs.StateMachine.Mirroring
import FolderWatch.Proofs.Json.Lines
import FolderWatch.Proofs.StateMachine.Tellings
import FolderWatch.Proofs.Drain.Stopping
import FolderWatch.Proofs.Drain.Recorded
import FolderWatch.Proofs.Drain.Wakeups
import FolderWatch.Proofs.Snapshot.Records
import FolderWatch.Proofs.Snapshot.Capture
import FolderWatch.Proofs.Listener
import FolderWatch.Proofs.Monitor.Dispatch
import FolderWatch.Proofs.Settings.Precedence
import FolderWatch.Proofs.Monitor.Registries
import FolderWatch.Proofs.Recognizer.Modifications
