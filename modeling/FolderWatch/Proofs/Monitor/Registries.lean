import FolderWatch.Session
import FolderWatch.Proofs.Registry
import FolderWatch.Proofs.Monitor.Traces

/-!
The two registries of a monitor, while its poller and its callers do whatever they do. Only the
calls on a registry change it, and the objects that the monitor made itself stay in it for good.
-/

namespace FolderWatch

open Registry (Call)

def Identity.isInternal : Identity → Bool
  | held _ => false
  | internal _ => true

namespace Monitor

variable {first last monitor after : Monitor} {action : Action} {actions : List Action}
variable {shown : List Event}

def activityCalls (monitor : Monitor) : Action → List (Call Activity)
  | .addActivity activity => [.added [activity]]
  | .addBuiltIns => [.added (builtIns monitor.serials)]
  | .removeActivity identity => [.removed identity (Registry.holds monitor.activities identity)]
  | _ => []

def listenerCalls (monitor : Monitor) : Action → List (Call Subscriber)
  | .addListener subscriber => [.added [subscriber]]
  | .removeListener identity => [.removed identity (Registry.holds monitor.listeners identity)]
  | _ => []

/-- What a step has not touched. -/
def SameRegistries (before after : Monitor) : Prop :=
  after.activities = before.activities ∧ after.listeners = before.listeners

theorem CallerMove.sameRegistries (move : CallerMove monitor after shown) :
    SameRegistries monitor after := by
  cases move <;> exact ⟨rfl, rfl⟩

theorem sameRegistries_stepControl {signal : Signal}
    (taken : monitor.stepControl signal = some (after, shown)) : SameRegistries monitor after := by
  cases stepControl_callerStep taken with
  | acts move => exact move.sameRegistries
  | cycles control move =>
      rw [publish_eq]
      exact ⟨rfl, rfl⟩
  | scanned control => exact ⟨rfl, rfl⟩

theorem sameRegistries_step {actor : Actor} {signal : Signal}
    (taken : monitor.step (.go actor signal) = some (after, shown)) :
    SameRegistries monitor after := by
  cases actor with
  | caller => exact sameRegistries_stepControl taken
  | poller index =>
      obtain ⟨baseline, pollers, rfl, -⟩ := (pollerStep_of_step taken).frame
      exact ⟨rfl, rfl⟩

theorem sameRegistries_call {operation : Operation}
    (taken : monitor.step (.call operation) = some (after, shown)) :
    SameRegistries monitor after :=
  (call_move taken).sameRegistries

theorem served_activities (taken : monitor.step action = some (after, shown)) :
    Registry.Served monitor.activities (monitor.activityCalls action) after.activities := by
  cases action with
  | call =>
      rw [(sameRegistries_call taken).1]
      exact .rest _
  | go =>
      rw [(sameRegistries_step taken).1]
      exact .rest _
  | addActivity | addBuiltIns =>
      cases taken
      exact .adds _ (.rest _)
  | removeActivity identity =>
      cases taken
      exact .removes identity (.rest _)
  | addListener | removeListener | setDelay =>
      cases taken
      exact .rest _

theorem served_listeners (taken : monitor.step action = some (after, shown)) :
    Registry.Served monitor.listeners (monitor.listenerCalls action) after.listeners := by
  cases action with
  | call =>
      rw [(sameRegistries_call taken).2]
      exact .rest _
  | go =>
      rw [(sameRegistries_step taken).2]
      exact .rest _
  | addListener =>
      cases taken
      exact .adds _ (.rest _)
  | removeListener identity =>
      cases taken
      exact .removes identity (.rest _)
  | addActivity | addBuiltIns | removeActivity | setDelay =>
      cases taken
      exact .rest _

end Monitor

/-- A registry within a monitor, and what the monitor's actions are to it. -/
structure Registrar (α : Type) [Identified α] where
  registry : Monitor → Registry α
  calls : Monitor → Monitor.Action → List (Call α)
  removal : Identity → Monitor.Action
  serves : ∀ {monitor after : Monitor} {action : Monitor.Action} {shown : List Monitor.Event},
    monitor.step action = some (after, shown) →
      Registry.Served (registry monitor) (calls monitor action) (registry after)
  removes : ∀ (monitor : Monitor) (identity : Identity),
    calls monitor (removal identity) = [.removed identity ((registry monitor).holds identity)] ∧
      ∃ after, monitor.step (removal identity) = some (after, [])

def recognizers : Registrar Activity where
  registry := Monitor.activities
  calls := Monitor.activityCalls
  removal := .removeActivity
  serves := Monitor.served_activities
  removes _ _ := ⟨rfl, _, rfl⟩

def audience : Registrar Subscriber where
  registry := Monitor.listeners
  calls := Monitor.listenerCalls
  removal := .removeListener
  serves := Monitor.served_listeners
  removes _ _ := ⟨rfl, _, rfl⟩

namespace Registrar

open Monitor (Action Event anyStep)

variable {α : Type} [Identified α] (registrar : Registrar α)
variable {first last after : Monitor} {actions : List Action} {shown : List Event}

/-- The calls that these actions are, each in the state in which it is taken. -/
def callsOf (monitor : Monitor) : List Action → List (Call α)
  | [] => []
  | action :: rest =>
      registrar.calls monitor action ++
        match monitor.step action with
        | some (next, _) => callsOf next rest
        | none => []

theorem served (run : first.steps anyStep actions = some (last, shown)) :
    Registry.Served (registrar.registry first) (registrar.callsOf first actions)
      (registrar.registry last) := by
  induction actions generalizing first shown with
  | nil =>
      cases run
      exact .rest _
  | cons action rest ih =>
      simp only [Monitor.steps] at run
      split at run
      · rename_i next _ _ taken
        obtain ⟨⟨_, later⟩, goes, same⟩ := Option.map_eq_some_iff.1 run
        cases same
        simp only [callsOf, taken]
        exact (registrar.serves taken).trans (ih goes)
      · simp at run

theorem callsOf_cons {monitor next : Monitor} {action : Action}
    (taken : monitor.step action = some (next, shown)) :
    registrar.callsOf monitor (action :: actions) =
      registrar.calls monitor action ++ registrar.callsOf next actions := by
  simp only [callsOf, taken]

theorem exists_of_mem_callsOf {call : Call α} {monitor : Monitor}
    (member : call ∈ registrar.callsOf monitor actions) :
    ∃ action ∈ actions, ∃ state, call ∈ registrar.calls state action := by
  induction actions generalizing monitor with
  | nil => simp [callsOf] at member
  | cons action rest ih =>
      simp only [callsOf, List.mem_append] at member
      rcases member with here | later
      · exact ⟨action, by simp, monitor, here⟩
      · split at later
        · obtain ⟨other, among, found⟩ := ih later
          exact ⟨other, by simp [among], found⟩
        · simp at later

/-- Nothing ever hinders the removals of an object, and none of them adds anything. -/
theorem removable (monitor : Monitor) (identity : Identity) (times : Nat) :
    let calls := registrar.callsOf monitor (List.replicate times (registrar.removal identity))
    (∃ after, monitor.steps anyStep (List.replicate times (registrar.removal identity)) =
      some (after, [])) ∧
      Registry.additions calls = [] ∧ Registry.attempts calls identity = times := by
  induction times generalizing monitor with
  | zero => exact ⟨⟨monitor, rfl⟩, rfl, rfl⟩
  | succ times ih =>
      obtain ⟨call, next, taken⟩ := registrar.removes monitor identity
      obtain ⟨⟨after, goes⟩, adds, asks⟩ := ih next
      simp only [List.replicate_succ, registrar.callsOf_cons taken, call]
      refine ⟨⟨after, ?_⟩, adds, ?_⟩
      · simp [Monitor.steps, anyStep, taken, goes]
      · simp [asks]

/-- A registry after these actions, and what it takes to empty it of an object. -/
structure Keeps (first : Monitor) (actions : List Action) (last : Monitor) : Prop where
  account : Registry.Exact (registrar.callsOf first actions) (registrar.registry last)
  exhausts : ∀ identity times, ∃ after,
    last.steps anyStep (List.replicate times (registrar.removal identity)) = some (after, []) ∧
      Registry.removals
          (registrar.callsOf last (List.replicate times (registrar.removal identity))) identity =
        min (Registry.multiplicity (registrar.registry last) identity) times

theorem keeps (empty : registrar.registry first = [])
    (run : first.steps anyStep actions = some (last, shown)) :
    registrar.Keeps first actions last where
  account := (empty ▸ registrar.served run).isExact
  exhausts := by
    intro identity times
    obtain ⟨⟨after, goes⟩, adds, asks⟩ := registrar.removable last identity times
    refine ⟨after, goes, ?_⟩
    have lacks : Registry.Lacks (Registry.additions (registrar.callsOf last
        (List.replicate times (registrar.removal identity)))) identity := by
      simp [adds, Registry.Lacks]
    rw [(registrar.served goes).exhausts lacks, asks]

/-- A session that is to take an object out takes the step, and tells whether the object was there
and how many registrations are left. -/
def Answers (session : Session) (monitor : Monitor) (request : Session.Request) (tag : String) :
    Prop :=
  ∃ found after, monitor.step (registrar.removal (.held tag)) = some (after, []) ∧
    registrar.calls monitor (registrar.removal (.held tag)) = [.removed (.held tag) found] ∧
    Registry.Removal (registrar.registry monitor) (.held tag) found (registrar.registry after) ∧
    (session.perform request).1.monitor = some after ∧
    (session.perform request).2 = .removed found (registrar.registry after).length

end Registrar

namespace Monitor

variable {view : DirectoryView} {workingDirectory path : Path} {settings : PollSettings}
variable {first last : Monitor} {actions : List Action} {shown : List Event}

theorem answers_removeActivity {session : Session} {monitor : Monitor}
    (here : session.monitor = some monitor) (tag : String) :
    recognizers.Answers session monitor (.removeActivity tag) tag := by
  refine ⟨_, _, rfl, rfl, Registry.removal_remove .., ?_⟩
  simp only [Session.perform, here]
  exact ⟨rfl, rfl⟩

theorem answers_removeListener {session : Session} {monitor : Monitor}
    (here : session.monitor = some monitor) (tag : String) :
    audience.Answers session monitor (.removeListener tag) tag := by
  refine ⟨_, _, rfl, rfl, Registry.removal_remove .., ?_⟩
  simp only [Session.perform, here]
  exact ⟨rfl, rfl⟩

theorem mem_additions_activities {activity : Activity} {monitor : Monitor}
    (member : activity ∈ Registry.additions (recognizers.callsOf monitor actions)) :
    activity.identity.isInternal = true ∨ .addActivity activity ∈ actions := by
  obtain ⟨call, among, item⟩ := List.mem_flatMap.1 member
  obtain ⟨action, taken, state, found⟩ := recognizers.exists_of_mem_callsOf among
  cases action with
  | addActivity added =>
      cases List.mem_singleton.1 found
      cases List.mem_singleton.1 item
      exact .inr taken
  | addBuiltIns =>
      cases List.mem_singleton.1 found
      obtain ⟨⟨recognizer, index⟩, -, rfl⟩ := List.mem_map.1 item
      exact .inl rfl
  | removeActivity identity =>
      cases List.mem_singleton.1 found
      simp [Call.items] at item
  | _ => simp [recognizers, activityCalls] at found

theorem mem_additions_listeners {subscriber : Subscriber} {monitor : Monitor}
    (member : subscriber ∈ Registry.additions (audience.callsOf monitor actions)) :
    .addListener subscriber ∈ actions := by
  obtain ⟨call, among, item⟩ := List.mem_flatMap.1 member
  obtain ⟨action, taken, state, found⟩ := audience.exists_of_mem_callsOf among
  cases action with
  | addListener added =>
      cases List.mem_singleton.1 found
      cases List.mem_singleton.1 item
      exact taken
  | removeListener identity =>
      cases List.mem_singleton.1 found
      simp [Call.items] at item
  | _ => simp [audience, listenerCalls] at found

theorem removals_activities_eq_zero {identity : Identity} {monitor : Monitor}
    (unasked : .removeActivity identity ∉ actions) :
    Registry.removals (recognizers.callsOf monitor actions) identity = 0 := by
  refine List.countP_eq_zero.2 ?_
  intro call among
  obtain ⟨action, taken, state, found⟩ := recognizers.exists_of_mem_callsOf among
  cases action with
  | removeActivity asked =>
      cases List.mem_singleton.1 found
      have other : asked ≠ identity := by
        rintro rfl
        exact unasked taken
      simp [Call.takes, other]
  | addActivity | addBuiltIns =>
      cases List.mem_singleton.1 found
      simp [Call.takes]
  | _ => simp [recognizers, activityCalls] at found

/-- A monitor's registries are known from the calls on them, whatever else goes on. A removal says
whether the object is there and takes its earliest registration and no other; an object is found as
often as it was added; what is left is in the order in which it came. An object that was not added
itself is never found, and no caller gets at those that the monitor made. -/
theorem registrations_accounted
    (created : create view workingDirectory path settings = .ok first)
    (run : first.steps anyStep actions = some (last, shown)) :
    recognizers.Keeps first actions last ∧ audience.Keeps first actions last ∧
    (∀ tag, (∀ activity, .addActivity activity ∈ actions → activity.identity ≠ .held tag) →
      Registry.removals (recognizers.callsOf first actions) (.held tag) = 0) ∧
    (∀ identity, (∀ subscriber, .addListener subscriber ∈ actions →
        subscriber.identity ≠ identity) →
      Registry.removals (audience.callsOf first actions) identity = 0) ∧
    ((∀ identity, .removeActivity identity ∈ actions → identity.isInternal = false) →
      last.activities.filter (·.identity.isInternal) =
        (Registry.additions (recognizers.callsOf first actions)).filter
          (·.identity.isInternal)) ∧
    ∀ session : Session, session.monitor = some last →
      (session.perform .counts).2 = .counts last.activities.length last.listeners.length ∧
      ∀ tag, recognizers.Answers session last (.removeActivity tag) tag ∧
        audience.Answers session last (.removeListener tag) tag := by
  have empty := create_eq created
  have activities := recognizers.keeps (by rw [empty]; rfl) run
  have listeners := audience.keeps (by rw [empty]; rfl) run
  refine ⟨activities, listeners, ?_, ?_, ?_, ?_⟩
  · intro tag strange
    refine activities.account.stranger _ fun activity added => ?_
    rcases mem_additions_activities added with made | given
    · intro same
      rw [show activity.identity = .held tag from same] at made
      exact Bool.false_ne_true made
    · exact strange activity given
  · intro identity strange
    exact listeners.account.stranger identity fun subscriber added =>
      strange subscriber (mem_additions_listeners added)
  · intro held
    have whole : last.activities = Registry.left _ := activities.account.registrations
    rw [whole]
    refine Registry.filter_remaining Identity.isInternal (fun identity made => ?_) _
    refine removals_activities_eq_zero fun asked => ?_
    exact Bool.false_ne_true ((held identity asked).symm.trans made)
  · intro session here
    refine ⟨?_, fun tag => ⟨answers_removeActivity here tag, answers_removeListener here tag⟩⟩
    simp only [Session.perform, here]

/-- An object that is like a built-in one comes twice and goes once; another one like it never. -/
def likeBuiltIn (tag : String) : Activity := ⟨.held tag, .builtIn .created⟩

def duplicates : List Action := [
  .addBuiltIns, .addActivity (likeBuiltIn "twin"), .addListener ⟨.held "log"⟩,
  .addActivity (likeBuiltIn "other"), .addActivity (likeBuiltIn "twin"), .call .scan,
  .removeActivity (.held "stranger"), .removeActivity (.held "twin"), .addBuiltIns,
  .removeListener (.held "stranger"), .removeListener (.held "log"),
  .removeListener (.held "log")]

def deduplicated : Monitor := { freshMonitor with
  activities := builtIns 0 ++ [likeBuiltIn "other", likeBuiltIn "twin"] ++ builtIns 3
  serials := 6
  control := .scanning .waiting }

theorem registrations_accounted_duplicates :
    freshMonitor.steps anyStep duplicates = some (deduplicated, []) ∧
      recognizers.Keeps freshMonitor duplicates deduplicated ∧
      audience.Keeps freshMonitor duplicates deduplicated ∧
      Registry.removals (recognizers.callsOf freshMonitor duplicates) (.held "stranger") = 0 ∧
      Registry.removals (audience.callsOf freshMonitor duplicates) (.held "stranger") = 0 ∧
      deduplicated.activities.filter (·.identity.isInternal) = builtIns 0 ++ builtIns 3 ∧
      ∀ session : Session, session.monitor = some deduplicated →
        (session.perform .counts).2 = .counts 8 0 ∧
        recognizers.Answers session deduplicated (.removeActivity "twin") "twin" := by
  have run : freshMonitor.steps anyStep duplicates = some (deduplicated, []) := rfl
  obtain ⟨activities, listeners, strange, unheard, own, answers⟩ :=
    registrations_accounted create_freshMonitor run
  refine ⟨run, activities, listeners, strange "stranger" ?_, unheard (.held "stranger") ?_,
    (own ?_).trans (by decide +kernel), ?_⟩
  · simp [duplicates, likeBuiltIn]
  · simp [duplicates]
  · simp [duplicates, Identity.isInternal]
  · intro session here
    exact ⟨(answers session here).1, ((answers session here).2 "twin").1⟩

end Monitor

end FolderWatch
