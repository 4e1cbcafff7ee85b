import FolderWatch.Program
import FolderWatch.Proofs.Monitor.Moves
import FolderWatch.Proofs.Settings.Reading

/-!
Where each setting comes from: the command line, else its environment variable, else the settings
file, else its default. No source of one setting says anything about another.
-/

namespace FolderWatch

namespace Setting

open Toml

end Setting

structure Sources where
  file : Option SettingsFile
  environment : Environment
  line : CommandLine

def Sources.load (sources : Sources) : Except SettingsFile.Defect Settings := do
  return sources.line.applyTo (← Settings.loadOrDefault sources.file sources.environment)

namespace Setting

variable {setting : Setting} {line : CommandLine} {environment : Environment}
variable {entries : Toml.Members}

end Setting

namespace Sources

variable {sources : Sources} {settings : Settings}

end Sources

namespace Program

variable {surroundings : Surroundings}

theorem plan_eq_ok_iff {plan : Plan} :
    Program.plan surroundings = .ok plan ↔
      CommandLine.ofArguments surroundings.arguments = .ok plan.line ∧
        plan.line.defect? surroundings.view surroundings.workingDirectory = none ∧
        effectiveSettings surroundings plan.line = .ok plan.settings ∧
        plan.settings.defect? = none ∧
        plan.path = plan.line.watchPath surroundings.workingDirectory := by
  unfold Program.plan
  delta Except.mapError
  simp only [bind, Except.bind, throw, throwThe, MonadExceptOf.throw, pure,
    Except.pure]
  constructor
  · intro planned
    cases read : CommandLine.ofArguments surroundings.arguments with
    | error refusal => simp [read] at planned
    | ok line =>
        cases usable : line.defect? surroundings.view surroundings.workingDirectory with
        | some defect => simp [read, usable] at planned
        | none =>
            cases loaded : effectiveSettings surroundings line with
            | error defect => simp [read, usable, loaded] at planned
            | ok settings =>
                cases valid : settings.defect? with
                | some defect => simp [read, usable, loaded, valid] at planned
                | none =>
                    simp only [read, usable, loaded, valid, Except.ok.injEq] at planned
                    subst planned
                    exact ⟨rfl, usable, loaded, valid, rfl⟩
  · rintro ⟨read, usable, loaded, valid, path⟩
    simp only [read, usable, loaded, valid, ← path]

end Program

end FolderWatch
