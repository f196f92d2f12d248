import TestDouble.Run.Session
/-!
# Histories of sessions

What a run does to the cores of the doubles is told by its events: the observed calls and the values
configured. Each step has at most one event, read off the session that it starts from; the core of a double
after a run is what the events at its number have made of an empty one. Everything else a step does to
doubles is to make one, over a new core, or to put one over a core that exists under a name.
-/

namespace TestDouble.Run

inductive Event where
  /-- A call reached the core, through a double of the given mode. -/
  | observed (core : Nat) (mode : Mode) (call : CallRecord)
  | configured (core : Nat) (method : String) (value : Value)

namespace Event

def core : Event → Nat
  | observed core _ _ => core
  | configured core _ _ => core

/-- The event is a call through the double itself, not through a verifier. -/
def records (call : CallRecord) : Event → Bool
  | observed _ .stub made => made = call
  | _ => false

def setting? (method : String) : Event → Option Value
  | configured _ name value => if name = method then some value else none
  | observed .. => none

def reaching (number : Nat) (events : List Event) : List Event :=
  events.filter fun event => event.core = number

theorem reaching_append (number : Nat) (earlier later : List Event) :
    reaching number (earlier ++ later) = reaching number earlier ++ reaching number later :=
  List.filter_append earlier later

theorem reaching_singleton (number : Nat) (event : Event) :
    reaching number [event] = if event.core = number then [event] else [] := by
  by_cases here : event.core = number <;> simp [reaching, here]

end Event

namespace Core

/-- The core after an event; a call that fails its check leaves no trace. -/
def receive (core : Core) : Event → Core
  | .observed _ mode call =>
    match core.observe mode call with
    | .ok next => next
    | .error _ => core
  | .configured _ method value => core.configure method value

theorem receive_verifying (core : Core) (number expected : Nat) (call : CallRecord) :
    core.receive (.observed number (.verifying expected) call) = core := by
  unfold receive observe
  dsimp only
  cases core.ledger.check call expected <;> rfl

theorem count_receive (core : Core) (event : Event) (call : CallRecord) :
    (core.receive event).ledger.count call = core.ledger.count call + if event.records call then 1 else 0 := by
  cases event with
  | configured number method value => rfl
  | observed number mode made =>
      cases mode with
      | stub =>
          show (core.ledger.track made).count call = core.ledger.count call + if decide (made = call) = true then 1 else 0
          rw [Ledger.count_track]
          by_cases same : made = call
          · rw [if_pos same.symm, if_pos (decide_eq_true same)]
          · rw [if_neg (Ne.symm same), if_neg (mt of_decide_eq_true same)]
      | verifying expected =>
          rw [receive_verifying]
          rfl

theorem lookup_receive (core : Core) (event : Event) (method : String) :
    (core.receive event).overrides.lookup method =
      (event.setting? method).or (core.overrides.lookup method) := by
  cases event with
  | configured number name value =>
      show ((name, value) :: core.overrides).lookup method =
        (if name = method then some value else none).or (core.overrides.lookup method)
      rw [lookup_cons_ite]
      by_cases same : method = name
      · rw [if_pos same, if_pos same.symm, Option.some_or]
      · rw [if_neg same, if_neg (Ne.symm same), Option.none_or]
  | observed number mode made =>
      cases mode with
      | stub => rfl
      | verifying expected =>
          rw [receive_verifying]
          rfl

/-- A ledger counts the calls among the events received. -/
theorem count_receive_all (core : Core) (events : List Event) (call : CallRecord) :
    (events.foldl receive core).ledger.count call =
      core.ledger.count call + events.countP (Event.records call) := by
  induction events generalizing core with
  | nil => rfl
  | cons event rest ih =>
      rw [List.foldl_cons, ih, count_receive, List.countP_cons]
      omega

/-- The value held for a method is the one configured last. -/
theorem lookup_receive_all (core : Core) (events : List Event) (method : String) :
    (events.foldl receive core).overrides.lookup method =
      ((events.filterMap (Event.setting? method)).getLast?).or (core.overrides.lookup method) := by
  induction events generalizing core with
  | nil => rfl
  | cons event rest ih =>
      rw [List.foldl_cons, ih, lookup_receive, List.filterMap_cons]
      cases event.setting? method with
      | none => rfl
      | some value =>
          cases later : (rest.filterMap (Event.setting? method)).getLast? <;>
            simp [List.getLast?_cons, later]

end Core

def CoreStep.event? (number : Nat) : CoreStep → Option Event
  | .observe mode call => some (.observed number mode call)
  | .tryObserve mode call => some (.observed number mode call)
  | .configure method value => some (.configured number method value)
  | _ => none

theorem CoreStep.event?_core {number : Nat} {step : CoreStep} {event : Event}
    (found : step.event? number = some event) : event.core = number := by
  cases step <;> cases found <;> rfl

theorem CoreStep.run_core (number : Nat) (step : CoreStep) (core : Core) :
    (step.run core).1 = ((step.event? number).elim core core.receive) := by
  cases step with
  | ask query => rfl
  | inspectMode mode => rfl
  | configure method value => rfl
  | observe mode call =>
      show (CoreStep.run core (.observe mode call)).1 = core.receive (.observed number mode call)
      unfold CoreStep.run Core.receive
      dsimp only
      cases core.observe mode call <;> rfl
  | tryObserve mode call =>
      show (CoreStep.run core (.tryObserve mode call)).1 = core.receive (.observed number mode call)
      unfold CoreStep.run Core.receive
      dsimp only
      cases core.observe mode call <;> rfl
  | configured method type =>
      show (CoreStep.run core (.configured method type)).1 = core
      unfold CoreStep.run
      dsimp only
      rcases core.configured method type with error | found
      · rfl
      · cases found <;> rfl
  | returned method fallback =>
      show (CoreStep.run core (.returned method fallback)).1 = core
      unfold CoreStep.run
      dsimp only
      cases core.returned method fallback.type fallback.carried <;> rfl

namespace Method

/-- Whatever a call answers, its core only sees the observation. -/
theorem run_core (method : Method) (number : Nat) (mode : Mode) (core : Core) :
    (method.run mode core).1 = core.receive (.observed number mode method.call) := by
  unfold Method.run Core.receive
  dsimp only
  cases core.observe mode method.call with
  | error error => rfl
  | ok next =>
      cases fixed : method.fixed <;> simp

def answer (method : Method) (mode : Mode) (core : Core) : Answer :=
  match (method.run mode core).2 with
  | .ok value => .value value
  | .error error => .panicked error

end Method

namespace Double

def method? (double : Double) (name : String) : Option Method :=
  double.factory.methods.find? fun method => method.name == name

def callEvent? (double : Double) (name : String) : Option Event :=
  (double.method? name).map fun method => .observed double.core double.mode method.call

end Double

namespace Session

/-! ### Events and runs -/

/-- The double and the method that a step calls. -/
def target? (session : Session) : Step → Option (Double × Method)
  | .call name method =>
    (session.handles.lookup name).bind fun held => (held.double.method? method).map (held.double, ·)
  | .callBoxed name method =>
    (session.boxed.lookup name).bind fun double => (double.method? method).map (double, ·)
  | _ => none

def event? (session : Session) : Step → Option Event
  | .call name method => (session.handles.lookup name).bind fun held => held.double.callEvent? method
  | .callBoxed name method => (session.boxed.lookup name).bind fun double => double.callEvent? method
  | .configure name method value =>
    (session.handles.lookup name).bind fun held => some (.configured held.double.core method value)
  | .core name step =>
    (session.handles.lookup name).bind fun held => step.event? held.double.core
  | _ => none

def run (session : Session) : List Step → Session
  | [] => session
  | step :: rest => (session.step step).1.run rest

def history (session : Session) : List Step → List Event
  | [] => []
  | step :: rest => (session.event? step).toList ++ (session.step step).1.history rest

theorem run_append (session : Session) (earlier later : List Step) :
    session.run (earlier ++ later) = (session.run earlier).run later := by
  induction earlier generalizing session with
  | nil => rfl
  | cons step rest ih => exact ih (session.step step).1

theorem history_append (session : Session) (earlier later : List Step) :
    session.history (earlier ++ later) = session.history earlier ++ (session.run earlier).history later := by
  induction earlier generalizing session with
  | nil => rfl
  | cons step rest ih =>
      show (session.event? step).toList ++ (session.step step).1.history (rest ++ later) = _
      rw [ih, ← List.append_assoc]
      rfl

/-! ### What a step can do to doubles -/

/-- What becomes of the cores and the doubles in a step with the given event. -/
inductive Moves (session : Session) : Option Event → Session → Prop where
  | still {next : Session} (cores : next.cores = session.cores) (handles : next.handles = session.handles)
      (boxed : next.boxed = session.boxed) : Moves session none next
  | missing (event : Event) (missing : session.cores[event.core]? = none) :
      Moves session (some event) session
  | received (event : Event) {core : Core} (found : session.cores[event.core]? = some core) :
      Moves session (some event)
        { session with cores := session.cores.set event.core (core.receive event) }
  | made (key name : String) (factory : Factory) :
      Moves session none
        { session with
          cores := session.cores ++ [{}]
          handles := put name ⟨key, ⟨factory, .stub, session.cores.length⟩⟩ session.handles }
  | verified (name : String) (factory : Factory) (count : Nat) {handle : String} {held : Handle}
      (found : session.handles.lookup handle = some held) :
      Moves session none
        { session with boxed := put name ⟨factory, .verifying count, held.double.core⟩ session.boxed }
  | unwrapped (name : String) {handle : String} {held : Handle}
      (found : session.handles.lookup handle = some held) :
      Moves session none
        { session with
          handles := session.handles.filter fun entry => entry.1 ≠ handle
          boxed := put name held.double session.boxed }

theorem moves_refl (session : Session) : session.Moves none session := .still rfl rfl rfl

theorem moves_event (session : Session) (event : Event) (change : Core → Core × Answer)
    (changes : ∀ core, (change core).1 = core.receive event) :
    session.Moves (some event) (session.onCore event.core change).1 := by
  unfold onCore
  cases found : session.cores[event.core]? with
  | none => exact .missing event found
  | some core =>
      dsimp only
      rw [changes core]
      exact .received event found

theorem moves_question (session : Session) (number : Nat) (change : Core → Core × Answer)
    (keeps : ∀ core, (change core).1 = core) : session.Moves none (session.onCore number change).1 := by
  unfold onCore
  cases found : session.cores[number]? with
  | none => exact session.moves_refl
  | some core =>
      dsimp only
      rw [keeps core]
      refine .still ?_ rfl rfl
      obtain ⟨within, rfl⟩ := List.getElem?_eq_some_iff.mp found
      exact List.set_getElem_self within

theorem moves_make (session : Session) (registry : Registry) (key contract name : String)
    (failure : RunError → Answer) (success : Answer) :
    session.Moves none (session.settle failure success (session.make registry key contract name)).1 := by
  unfold make
  cases registry.factory key contract with
  | error error => exact session.moves_refl
  | ok factory => exact .made key name factory

theorem moves_verify (session : Session) (registry : Registry) {handle : String} {held : Handle}
    (found : session.handles.lookup handle = some held) (count : Nat) (name : String)
    (failure : RunError → Answer) (success : Answer) :
    session.Moves none (session.settle failure success (session.verify registry held count name)).1 := by
  unfold verify
  cases registry.factory held.key held.double.factory.contract with
  | error error => exact session.moves_refl
  | ok factory => exact .verified name factory count found

theorem moves_callDouble (session : Session) (double : Double) (name : String) :
    session.Moves (double.callEvent? name) (session.callDouble double name).1 := by
  unfold callDouble Double.callEvent? Double.method?
  cases double.factory.methods.find? fun method => method.name == name with
  | none => exact session.moves_refl
  | some method =>
      refine session.moves_event (.observed double.core double.mode method.call) _ ?_
      intro core
      rw [← method.run_core double.core double.mode core]
      rcases method.run double.mode core with ⟨next, error | value⟩ <;> rfl

theorem moves_ask (session : Session) (on : Nat) (question : Registry → Answer) :
    session.Moves none (session.askRegistry on question).1 := by
  unfold askRegistry
  cases session.registries[on]? <;> exact session.moves_refl

theorem moves_withHandle (session : Session) (name : String) (use : Handle → Session × Answer)
    (event? : Handle → Option Event)
    (moves : ∀ held, session.handles.lookup name = some held → session.Moves (event? held) (use held).1) :
    session.Moves ((session.handles.lookup name).bind event?) (session.withHandle name use).1 := by
  unfold withHandle
  cases found : session.handles.lookup name with
  | none => exact session.moves_refl
  | some held => exact moves held found

theorem moves_silently (session : Session) (name : String) (use : Handle → Session × Answer)
    (moves : ∀ held, session.handles.lookup name = some held → session.Moves none (use held).1) :
    session.Moves none (session.withHandle name use).1 := by
  have silent := session.moves_withHandle name use (fun _ => none) moves
  rwa [Option.bind_fun_none] at silent

theorem moves_coreStep (session : Session) (number : Nat) (step : CoreStep) :
    session.Moves (step.event? number) (session.onCore number fun core => step.run core).1 := by
  cases found : step.event? number with
  | none =>
      refine session.moves_question number _ ?_
      intro core
      rw [step.run_core number core, found]
      rfl
  | some event =>
      obtain rfl := CoreStep.event?_core found
      refine session.moves_event event _ ?_
      intro core
      rw [step.run_core event.core core, found]
      rfl

/-- A step makes at most one change, and its event says which. -/
theorem step_moves (session : Session) (step : Step) :
    session.Moves (session.event? step) (session.step step).1 := by
  cases step with
  | register on key factory =>
      dsimp only [event?, Session.step]
      cases session.registries[on]? <;> exact .still rfl rfl rfl
  | cloneRegistry on =>
      dsimp only [event?, Session.step]
      cases session.registries[on]? <;> exact .still rfl rfl rfl
  | contains on key => exact session.moves_ask on _
  | keys on => exact session.moves_ask on _
  | size on => exact session.moves_ask on _
  | isEmpty on => exact session.moves_ask on _
  | inspectRegistry on => exact session.moves_ask on _
  | summon on key contract name =>
      dsimp only [event?, Session.step]
      cases session.registries[on]? with
      | none => exact session.moves_refl
      | some registry => exact session.moves_make registry key contract name .failed (.made key)
  | create key contract name => exact session.moves_make session.dispatcher key contract name .panicked (.made key)
  | received on handle count name =>
      dsimp only [event?, Session.step]
      cases session.registries[on]? with
      | none => exact session.moves_refl
      | some registry =>
          exact session.moves_silently handle _ fun held found =>
            session.moves_verify registry found count name .failed .ok
  | receive handle count name =>
      exact session.moves_silently handle _ fun held found =>
        session.moves_verify session.dispatcher found count name .panicked .ok
  | call handle method =>
      exact session.moves_withHandle handle _ _ fun held found => session.moves_callDouble held.double method
  | callBoxed name method =>
      dsimp only [event?, Session.step]
      cases session.boxed.lookup name with
      | none => exact session.moves_refl
      | some double => exact session.moves_callDouble double method
  | calls handle method =>
      exact session.moves_silently handle _ fun held found =>
        session.moves_question held.double.core _ fun core => rfl
  | key handle => exact session.moves_silently handle _ fun held found => session.moves_refl
  | configure handle method value =>
      exact session.moves_withHandle handle _ _ fun held found =>
        session.moves_event (.configured held.double.core method value) _ fun core => rfl
  | unwrap handle name => exact session.moves_silently handle _ fun held found => .unwrapped name found
  | inspectHandle handle => exact session.moves_silently handle _ fun held found => session.moves_refl
  | core handle step =>
      exact session.moves_withHandle handle _ _ fun held found => session.moves_coreStep held.double.core step

end Session

end TestDouble.Run
