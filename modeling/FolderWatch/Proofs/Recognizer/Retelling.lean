import Mathlib.Data.List.Forall2
import FolderWatch.Monitor.Cycle
import FolderWatch.Proofs.Recognizer.Patch

/-!
A subscriber that is told, cycle after cycle, what the built-in recognizers found between one
snapshot of a directory and the next can go from the first snapshot to the last.
-/

namespace FolderWatch

variable {directory : Path} {before after : Snapshot}

theorem Recognizer.compare_of_same (same : before.Same after) (beforeKeyed : before.Keyed)
    (afterKeyed : after.Keyed) (recognizer : Recognizer) :
    recognizer.compare before after = [] := by
  obtain ⟨-, agree⟩ := Snapshot.same_iff.mp same
  apply List.eq_nil_iff_forall_not_mem.mpr
  intro change member
  have reported := mem_changes_of_mem_compare member
  cases recognizer with
  | created =>
      obtain ⟨record, listed, missing, -⟩ := mem_createdChanges.mp reported
      have agrees := agree record.path
      rw [missing, (Snapshot.mem_records_iff afterKeyed).mp listed] at agrees
      cases agrees
  | deleted =>
      obtain ⟨record, listed, missing, -⟩ := mem_deletedChanges.mp reported
      have agrees := agree record.path
      rw [missing, (Snapshot.mem_records_iff beforeKeyed).mp listed] at agrees
      cases agrees
  | changed =>
      obtain ⟨record, listed, old, held, differs, -⟩ := mem_changedChanges.mp reported
      have agrees := agree record.path
      rw [held, (Snapshot.mem_records_iff afterKeyed).mp listed] at agrees
      cases agrees with
      | some unchanged =>
          have paths := unchanged.1
          exact (FileRecord.same_iff_not_differs paths).mp unchanged differs

/-- The report that a built-in recognizer makes of a comparison. -/
def Comparison.finding (comparison : Comparison) (recognizer : Recognizer) : Report :=
  ⟨recognizer.name, recognizer.compare comparison.before comparison.after⟩

/-- What one cycle tells a subscriber. -/
structure Hearing where
  comparison : Comparison
  reports : List Report

namespace Hearing

structure Complete (hearing : Hearing) : Prop where
  told : ∀ recognizer, (hearing.comparison.finding recognizer).changes ≠ [] →
    hearing.comparison.finding recognizer ∈ hearing.reports
  filled : ∀ report ∈ hearing.reports, report.changes ≠ []

/-- The reports picked are those told that built-in recognizers make, in any order and however
often. -/
def Picks (hearing : Hearing) (picked : List Report) : Prop :=
  ∀ report, report ∈ picked ↔
    report ∈ hearing.reports ∧ ∃ recognizer, report = hearing.comparison.finding recognizer

def builtIns (hearing : Hearing) : List Report :=
  hearing.reports.filter fun report =>
    Recognizer.all.any fun recognizer => report = hearing.comparison.finding recognizer

theorem picks_builtIns (hearing : Hearing) : hearing.Picks hearing.builtIns := by
  intro report
  simp only [builtIns, List.mem_filter, List.any_eq_true, decide_eq_true_eq]
  constructor
  · rintro ⟨told, recognizer, -, same⟩
    exact ⟨told, recognizer, same⟩
  · rintro ⟨told, recognizer, same⟩
    exact ⟨told, recognizer, by cases recognizer <;> decide, same⟩

theorem Complete.mem_picked {hearing : Hearing} (complete : hearing.Complete)
    {picked : List Report} (picks : hearing.Picks picked) (change : Change) :
    change ∈ picked.flatMap Report.changes ↔
      change ∈ Recognizer.patch hearing.comparison.before hearing.comparison.after := by
  simp only [List.mem_flatMap, Recognizer.patch]
  constructor
  · rintro ⟨report, member, listed⟩
    obtain ⟨-, recognizer, rfl⟩ := (picks report).mp member
    exact ⟨recognizer, by cases recognizer <;> decide, listed⟩
  · rintro ⟨recognizer, -, listed⟩
    have told := complete.told recognizer (List.ne_nil_of_mem listed)
    exact ⟨_, (picks _).mpr ⟨told, recognizer, rfl⟩, listed⟩

theorem Complete.silent {hearing : Hearing} (complete : hearing.Complete)
    (beforeKeyed : hearing.comparison.before.Keyed) (afterKeyed : hearing.comparison.after.Keyed)
    (same : hearing.comparison.before.Same hearing.comparison.after) (recognizer : Recognizer) :
    hearing.comparison.finding recognizer ∉ hearing.reports := by
  intro member
  have filled := complete.filled _ member
  exact filled (Recognizer.compare_of_same same beforeKeyed afterKeyed recognizer)

end Hearing

/-- Each snapshot of a directory compared with the one before it. -/
def comparisons (directory : Path) : List Snapshot → List Comparison
  | before :: after :: rest => ⟨directory, before, after⟩ :: comparisons directory (after :: rest)
  | _ => []

theorem comparisons_append {snapshots : List Snapshot}
    (latest : snapshots.getLast? = some before) :
    comparisons directory (snapshots ++ [after]) =
      comparisons directory snapshots ++ [⟨directory, before, after⟩] := by
  induction snapshots with
  | nil => simp at latest
  | cons first rest ih =>
      cases rest with
      | nil =>
          simp only [List.getLast?_singleton, Option.some.injEq] at latest
          subst first
          rfl
      | cons second rest =>
          rw [List.getLast?_cons_cons] at latest
          have further := ih latest
          simp only [List.cons_append] at further ⊢
          simp only [comparisons, List.cons_append, further]

def Snapshot.TakenOf (directory : Path) (snapshot : Snapshot) : Prop :=
  snapshot.Keyed ∧ snapshot.directory = directory

theorem takenOf_of_mem_comparisons {snapshots : List Snapshot}
    (taken : ∀ snapshot ∈ snapshots, snapshot.TakenOf directory) {comparison : Comparison}
    (member : comparison ∈ comparisons directory snapshots) :
    comparison.before.TakenOf directory ∧ comparison.after.TakenOf directory := by
  induction snapshots with
  | nil => simp [comparisons] at member
  | cons first rest ih =>
      cases rest with
      | nil => simp [comparisons] at member
      | cons second rest =>
          rcases List.mem_cons.mp member with rfl | later
          · exact ⟨taken first (by simp), taken second (by simp)⟩
          · refine ih ?_ later
            intro snapshot among
            exact taken snapshot (by simp [List.mem_cons.mp among])

/-- Told of every step of a chain, a subscriber gets from its first snapshot to its last. -/
theorem retell {origin : Snapshot} {rest : List Snapshot} {heard : List Hearing}
    {told : List (List Report)} {start : Snapshot}
    (chain : heard.map Hearing.comparison = comparisons directory (origin :: rest))
    (complete : ∀ hearing ∈ heard, hearing.Complete)
    (taken : ∀ snapshot ∈ origin :: rest, snapshot.TakenOf directory)
    (picks : List.Forall₂ Hearing.Picks heard told) (same : start.Same origin) :
    ∀ latest, (origin :: rest).getLast? = some latest →
      (start.replay (told.flatten.flatMap Report.changes)).Same latest := by
  induction rest generalizing origin heard told start with
  | nil =>
      have nothing : heard = [] := by simpa [comparisons] using chain
      subst nothing
      cases picks
      intro latest isLast
      cases isLast
      exact same
  | cons next rest ih =>
      obtain ⟨hearing, later, rfl, first, chain⟩ := List.map_eq_cons_iff.mp chain
      cases picks with
      | cons picked picks =>
          rename_i reports told
          obtain ⟨originKeyed, originDirectory⟩ := taken origin (by simp)
          obtain ⟨nextKeyed, nextDirectory⟩ := taken next (by simp)
          have members := (complete hearing (by simp)).mem_picked picked
          rw [first] at members
          have reached : (start.replay (reports.flatMap Report.changes)).Same next := by
            refine Recognizer.replay_patch same ?_ originKeyed nextKeyed members
            rw [originDirectory, nextDirectory]
            exact .refl _
          intro latest isLast
          rw [List.getLast?_cons_cons] at isLast
          have onward := ih chain (fun hearing among => complete hearing (by simp [among]))
            (fun snapshot among => taken snapshot (by simp [List.mem_cons.mp among])) picks reached
            latest isLast
          simpa [Snapshot.replay] using onward

end FolderWatch
