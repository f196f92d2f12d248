import Mathlib.Data.List.Nodup
import TestDouble.Proofs.Run.History
import TestDouble.Run.Samples
/-!
# The accounting of calls

In a session that a run comes to, the doubles held by name have cores of their own, and every verifier
stands over the core of a double. So the core at a number is the empty core that it was made as, after the
events of the run at that number. Its ledger counts the calls made through the double, whatever came of
them, and this is the count that its verifiers compare with.
-/

namespace TestDouble.Run

namespace Session

/-- A session in which no double was made yet. -/
def fresh (dispatcher : Registry) (registries : List Registry) : Session := { dispatcher, registries }

/-! ### Doubles and their cores -/

structure Sound (session : Session) : Prop where
  handles : ∀ entry ∈ session.handles,
    entry.2.double.mode = .stub ∧ entry.2.double.core < session.cores.length
  boxed : ∀ entry ∈ session.boxed, entry.2.core < session.cores.length
  distinct : (session.handles.map fun entry => entry.2.double.core).Nodup

theorem sound_fresh (dispatcher : Registry) (registries : List Registry) :
    (fresh dispatcher registries).Sound where
  handles := fun _ member => nomatch member
  boxed := fun _ member => nomatch member
  distinct := List.nodup_nil

theorem mem_of_lookup {α : Type} {name : String} {thing : α} {things : List (String × α)}
    (found : things.lookup name = some thing) : (name, thing) ∈ things := by
  induction things with
  | nil => cases found
  | cons entry rest ih =>
      obtain ⟨held, current⟩ := entry
      rw [lookup_cons_ite] at found
      by_cases same : name = held
      · rw [if_pos same] at found
        cases found
        rw [same]
        exact List.mem_cons_self
      · rw [if_neg same] at found
        exact List.mem_cons_of_mem _ (ih found)

theorem mem_put {α : Type} {name : String} {thing : α} {things : List (String × α)} {entry : String × α}
    (member : entry ∈ put name thing things) : entry = (name, thing) ∨ entry ∈ things := by
  rcases List.mem_cons.mp member with first | later
  · exact Or.inl first
  · exact Or.inr (List.mem_filter.mp later).1

theorem Sound.moves {session next : Session} {event? : Option Event} (sound : session.Sound)
    (moves : session.Moves event? next) : next.Sound := by
  cases moves with
  | still cores handles boxed =>
      refine ⟨?_, ?_, ?_⟩
      · rw [handles, cores]; exact sound.handles
      · rw [boxed, cores]; exact sound.boxed
      · rw [handles]; exact sound.distinct
  | missing event missing => exact sound
  | received event found =>
      refine ⟨?_, ?_, sound.distinct⟩
      · intro entry member
        rw [List.length_set]
        exact sound.handles entry member
      · intro entry member
        rw [List.length_set]
        exact sound.boxed entry member
  | made key name factory =>
      have longer : (session.cores ++ [({} : Core)]).length = session.cores.length + 1 := by
        rw [List.length_append, List.length_singleton]
      refine ⟨?_, ?_, ?_⟩
      · intro entry member
        rw [longer]
        rcases mem_put member with rfl | earlier
        · exact ⟨rfl, Nat.lt_succ_self _⟩
        · obtain ⟨stub, within⟩ := sound.handles entry earlier
          exact ⟨stub, Nat.lt_succ_of_lt within⟩
      · intro entry member
        rw [longer]
        exact Nat.lt_succ_of_lt (sound.boxed entry member)
      · -- the new number is the length, and all others are below it
        refine List.nodup_cons.mpr ⟨?_, ?_⟩
        · intro present
          obtain ⟨entry, member, same⟩ := List.mem_map.mp present
          have within := (sound.handles entry (List.mem_filter.mp member).1).2
          have number : entry.2.double.core = session.cores.length := same
          omega
        · exact sound.distinct.sublist (List.filter_sublist.map _)
  | verified name factory count found =>
      refine ⟨sound.handles, ?_, sound.distinct⟩
      intro entry member
      rcases mem_put member with rfl | earlier
      · exact (sound.handles _ (mem_of_lookup found)).2
      · exact sound.boxed entry earlier
  | unwrapped name found =>
      refine ⟨?_, ?_, sound.distinct.sublist (List.filter_sublist.map _)⟩
      · intro entry member
        exact sound.handles entry (List.mem_filter.mp member).1
      · intro entry member
        rcases mem_put member with rfl | earlier
        · exact (sound.handles _ (mem_of_lookup found)).2
        · exact sound.boxed entry earlier

theorem Sound.step {session : Session} (sound : session.Sound) (step : Step) : (session.step step).1.Sound :=
  sound.moves (session.step_moves step)

theorem Sound.run {session : Session} (sound : session.Sound) (steps : List Step) : (session.run steps).Sound := by
  induction steps generalizing session with
  | nil => exact sound
  | cons step rest ih => exact ih (sound.step step)

theorem Sound.core_ne {session : Session} (sound : session.Sound) {name other : String} {held heldOther : Handle}
    (found : session.handles.lookup name = some held) (foundOther : session.handles.lookup other = some heldOther)
    (different : name ≠ other) : held.double.core ≠ heldOther.double.core := by
  intro same
  have equal := List.inj_on_of_nodup_map sound.distinct (mem_of_lookup found) (mem_of_lookup foundOther) same
  exact different (congrArg Prod.fst equal)

theorem target?_cases {session : Session} {step : Step} {double : Double} {method : Method}
    (target : session.target? step = some (double, method)) :
    (∃ name called held, step = .call name called ∧ session.handles.lookup name = some held ∧
        held.double = double ∧ double.method? called = some method) ∨
      ∃ name called, step = .callBoxed name called ∧ session.boxed.lookup name = some double ∧
        double.method? called = some method := by
  cases step with
  | call name called =>
      obtain ⟨held, found, calls⟩ := Option.bind_eq_some_iff.mp target
      obtain ⟨_, has, same⟩ := Option.map_eq_some_iff.mp calls
      cases same
      exact Or.inl ⟨name, called, held, rfl, found, rfl, has⟩
  | callBoxed name called =>
      obtain ⟨held, found, calls⟩ := Option.bind_eq_some_iff.mp target
      obtain ⟨_, has, same⟩ := Option.map_eq_some_iff.mp calls
      cases same
      exact Or.inr ⟨name, called, rfl, found, has⟩
  | _ => cases target

theorem event?_of_target {session : Session} {step : Step} {double : Double} {method : Method}
    (target : session.target? step = some (double, method)) :
    session.event? step = some (.observed double.core double.mode method.call) := by
  rcases target?_cases target with ⟨name, called, held, rfl, found, rfl, has⟩ | ⟨name, called, rfl, found, has⟩
  · show (session.handles.lookup name).bind _ = _
    rw [found, Option.bind_some, Double.callEvent?, has, Option.map_some]
  · show (session.boxed.lookup name).bind _ = _
    rw [found, Option.bind_some, Double.callEvent?, has, Option.map_some]

theorem Sound.event_core {session : Session} (sound : session.Sound) {step : Step} {event : Event}
    (found : session.event? step = some event) : event.core < session.cores.length := by
  cases step with
  | call name called =>
      obtain ⟨held, known, calls⟩ := Option.bind_eq_some_iff.mp found
      obtain ⟨method, _, rfl⟩ := Option.map_eq_some_iff.mp calls
      exact (sound.handles _ (mem_of_lookup known)).2
  | callBoxed name called =>
      obtain ⟨double, known, calls⟩ := Option.bind_eq_some_iff.mp found
      obtain ⟨method, _, rfl⟩ := Option.map_eq_some_iff.mp calls
      exact sound.boxed _ (mem_of_lookup known)
  | configure name method value =>
      obtain ⟨held, known, same⟩ := Option.bind_eq_some_iff.mp found
      cases same
      exact (sound.handles _ (mem_of_lookup known)).2
  | core name step =>
      obtain ⟨held, known, happens⟩ := Option.bind_eq_some_iff.mp found
      rw [CoreStep.event?_core happens]
      exact (sound.handles _ (mem_of_lookup known)).2
  | _ => cases found

/-! ### The core of a number -/

/-- The core of a number, which is empty until its double is made. -/
def core (session : Session) (number : Nat) : Core := (session.cores[number]?).getD {}

theorem core_of_getElem? {session : Session} {number : Nat} {core : Core}
    (found : session.cores[number]? = some core) : session.core number = core := by
  rw [Session.core, found, Option.getD_some]

theorem getElem?_core {session : Session} {number : Nat} (within : number < session.cores.length) :
    session.cores[number]? = some (session.core number) := by
  rw [Session.core, List.getElem?_eq_getElem within, Option.getD_some]

@[simp] theorem core_fresh (dispatcher : Registry) (registries : List Registry) (number : Nat) :
    (fresh dispatcher registries).core number = {} := rfl

theorem core_moves {session next : Session} {event? : Option Event} (moves : session.Moves event? next)
    (exist : ∀ event, event? = some event → event.core < session.cores.length) (number : Nat) :
    next.core number = (Event.reaching number event?.toList).foldl Core.receive (session.core number) := by
  cases moves with
  | still cores handles boxed =>
      show (next.cores[number]?).getD {} = (session.cores[number]?).getD {}
      rw [cores]
  | missing event missing =>
      have within := exist event rfl
      rw [getElem?_core within] at missing
      cases missing
  | @received event core found =>
      show ((session.cores.set event.core (core.receive event))[number]?).getD {} = _
      rw [Option.toList_some, Event.reaching_singleton]
      by_cases here : event.core = number
      · subst here
        rw [List.getElem?_set_self (exist event rfl), if_pos rfl, core_of_getElem? found]
        rfl
      · rw [List.getElem?_set_ne here, if_neg here]
        rfl
  | made key name factory =>
      show ((session.cores ++ [({} : Core)])[number]?).getD {} = (session.cores[number]?).getD {}
      -- the new core is the empty one that stood at its number before
      rcases Nat.lt_trichotomy number session.cores.length with below | same | above
      · rw [List.getElem?_append_left below]
      · subst same
        rw [List.getElem?_concat_length, List.getElem?_eq_none (Nat.le_refl _)]
        rfl
      · have outside : (session.cores ++ [({} : Core)]).length ≤ number := by
          rw [List.length_append, List.length_singleton]
          exact above
        rw [List.getElem?_eq_none outside, List.getElem?_eq_none (Nat.le_of_lt above)]
  | verified name factory count found => rfl
  | unwrapped name found => rfl

theorem Sound.core_step {session : Session} (sound : session.Sound) (step : Step) (number : Nat) :
    (session.step step).1.core number =
      (Event.reaching number (session.event? step).toList).foldl Core.receive (session.core number) :=
  core_moves (session.step_moves step) (fun _ found => sound.event_core found) number

/-- The core of a number is what the events of the run have made of it. -/
theorem Sound.core_run {session : Session} (sound : session.Sound) (steps : List Step) (number : Nat) :
    (session.run steps).core number =
      (Event.reaching number (session.history steps)).foldl Core.receive (session.core number) := by
  induction steps generalizing session with
  | nil => rfl
  | cons step rest ih =>
      calc ((session.step step).1.run rest).core number
          = (Event.reaching number ((session.step step).1.history rest)).foldl Core.receive
              ((session.step step).1.core number) := ih (sound.step step)
        _ = (Event.reaching number ((session.event? step).toList ++ (session.step step).1.history rest)).foldl
              Core.receive (session.core number) := by
            rw [sound.core_step, Event.reaching_append, List.foldl_append]

/-! ### Calls and their answers -/

/-- How often a call was made through the double over a core. -/
def callsMade (session : Session) (steps : List Step) (number : Nat) (call : CallRecord) : Nat :=
  (Event.reaching number (session.history steps)).countP (Event.records call)

end Session

namespace Method

/-- What a call that is not refused answers, by the value configured last. -/
def yields (method : Method) (set? : Option Value) : Answer :=
  if method.fixed then .value ⟨method.type, method.baked⟩
  else
    match set? with
    | none => .value ⟨method.type, method.baked⟩
    | some value =>
      if value.type = method.type then .value value
      else .panicked (.configuredTypeMismatch method.name method.type.name)

/-- The answer to a call that is not refused: a value, or the failure for a value of the wrong type. -/
def Passes (method : Method) (answer : Answer) : Prop :=
  (∃ value, answer = .value value) ∨
    answer = .panicked (.configuredTypeMismatch method.name method.type.name)

theorem yields_passes (method : Method) (set? : Option Value) : method.Passes (method.yields set?) := by
  unfold yields
  split
  · exact Or.inl ⟨_, rfl⟩
  · split
    · exact Or.inl ⟨_, rfl⟩
    · split
      · exact Or.inl ⟨_, rfl⟩
      · exact Or.inr rfl

theorem answer_observed (method : Method) {mode : Mode} {core next : Core}
    (observed : core.observe mode method.call = .ok next) :
    method.answer mode core = method.yields (next.overrides.lookup method.name) := by
  unfold answer Method.run yields
  rw [observed]
  dsimp only
  cases method.fixed with
  | true => rfl
  | false =>
      simp only [Bool.false_eq_true, if_false, Core.returned, Core.configured]
      cases next.overrides.lookup method.name with
      | none => rfl
      | some value =>
          dsimp only
          by_cases same : value.type = method.type
          · obtain ⟨type, carried⟩ := value
            obtain ⟨name, _, baked, fixed⟩ := method
            cases same
            have back : (⟨type, carried⟩ : Value).at? type = some carried := Value.at?_self ⟨type, carried⟩
            rw [back, if_pos rfl]
            rfl
          · rw [Value.at?_eq_none_iff.mpr same, if_neg same]
            rfl

theorem answer_refused (method : Method) {mode : Mode} {core : Core} {error : VerificationError}
    (refused : core.observe mode method.call = .error error) :
    method.answer mode core = .panicked (.verification error) := by
  unfold answer Method.run
  rw [refused]

theorem answer_stub (method : Method) (core : Core) :
    method.answer .stub core = method.yields (core.overrides.lookup method.name) := by
  have observed : core.observe .stub method.call = .ok { core with ledger := core.ledger.track method.call } := rfl
  rw [method.answer_observed observed]

theorem answer_verifying (method : Method) (core : Core) (expected : Nat) :
    method.answer (.verifying expected) core =
      if core.ledger.count method.call = expected then method.yields (core.overrides.lookup method.name)
      else .panicked (.verification ⟨method.call, expected, core.ledger.count method.call⟩) := by
  by_cases exactly : core.ledger.count method.call = expected
  · rw [if_pos exactly]
    refine method.answer_observed ?_
    show (core.ledger.check method.call expected).map (fun _ => core) = .ok core
    rw [(core.ledger.check_eq_ok_iff method.call expected).mpr exactly]
    rfl
  · rw [if_neg exactly]
    refine method.answer_refused ?_
    show (core.ledger.check method.call expected).map (fun _ => core) = _
    rw [Ledger.check, if_neg exactly]
    rfl

end Method

namespace Session

theorem callDouble_answer {session : Session} {double : Double} {name : String} {method : Method}
    (has : double.method? name = some method) (within : double.core < session.cores.length) :
    (session.callDouble double name).2 = method.answer double.mode (session.core double.core) := by
  unfold Double.method? at has
  unfold callDouble onCore Method.answer
  rw [has]
  dsimp only
  rw [getElem?_core within]
  dsimp only
  rcases method.run double.mode (session.core double.core) with ⟨next, error | value⟩ <;> rfl

theorem Sound.answer_target {session : Session} (sound : session.Sound) {step : Step} {double : Double}
    {method : Method} (target : session.target? step = some (double, method)) :
    (session.step step).2 = method.answer double.mode (session.core double.core) := by
  have within : double.core < session.cores.length := sound.event_core (event?_of_target target)
  rcases target?_cases target with ⟨name, called, held, rfl, found, rfl, has⟩ | ⟨name, called, rfl, found, has⟩
  · show (session.withHandle name _).2 = _
    rw [withHandle, found]
    exact callDouble_answer has within
  · dsimp only [Session.step]
    rw [found]
    exact callDouble_answer has within

/-! ### The law of the ledgers -/

theorem Sound.count_run {session : Session} (sound : session.Sound) (steps : List Step) (number : Nat)
    (call : CallRecord) :
    ((session.run steps).core number).ledger.count call =
      (session.core number).ledger.count call + session.callsMade steps number call := by
  rw [sound.core_run, Core.count_receive_all]
  rfl

theorem callsMade_append (session : Session) (earlier later : List Step) (number : Nat) (call : CallRecord) :
    session.callsMade (earlier ++ later) number call =
      session.callsMade earlier number call + (session.run earlier).callsMade later number call := by
  unfold callsMade
  rw [history_append, Event.reaching_append, List.countP_append]

theorem Sound.ledger_step {session : Session} (sound : session.Sound) (step : Step) (number : Nat)
    (other : ∀ call, session.event? step ≠ some (.observed number .stub call)) :
    ((session.step step).1.core number).ledger = (session.core number).ledger := by
  rw [sound.core_step]
  cases happens : session.event? step with
  | none => rfl
  | some event =>
      rw [Option.toList_some, Event.reaching_singleton]
      by_cases here : event.core = number
      · rw [if_pos here, List.foldl_cons, List.foldl_nil]
        cases event with
        | configured core method value => rfl
        | observed core mode call =>
            cases mode with
            | verifying expected => rw [Core.receive_verifying]
            | stub =>
                cases here
                exact absurd happens (other call)
      · rw [if_neg here]
        rfl

theorem Moves.cores_length {session next : Session} {event? : Option Event} (moves : session.Moves event? next) :
    session.cores.length ≤ next.cores.length := by
  cases moves with
  | still cores handles boxed => exact Nat.le_of_eq (congrArg List.length cores.symm)
  | missing event missing => exact Nat.le_refl _
  | received event found => exact Nat.le_of_eq List.length_set.symm
  | made key name factory =>
      show session.cores.length ≤ (session.cores ++ [({} : Core)]).length
      rw [List.length_append]
      exact Nat.le_add_right _ _
  | verified name factory count found => exact Nat.le_refl _
  | unwrapped name found => exact Nat.le_refl _

/-- A call through the double itself counts, whatever it answers. -/
theorem callsMade_call {session : Session} {steps : List Step} {step : Step} {double : Double} {method : Method}
    (target : (session.run steps).target? step = some (double, method)) (stub : double.mode = .stub) :
    session.callsMade (steps ++ [step]) double.core method.call =
      session.callsMade steps double.core method.call + 1 := by
  have event := event?_of_target target
  rw [stub] at event
  have once : (session.run steps).callsMade [step] double.core method.call = 1 := by
    unfold callsMade history
    rw [event, history, List.append_nil, Option.toList_some, Event.reaching_singleton]
    simp [Event.core, Event.records]
  rw [callsMade_append, once]

/--
The accounting of calls over whole runs. Whatever a run did so far, the ledger of a double counts each call
as often as it was made through the double, also where the call then failed for a value of the wrong type.
A call through the double is never refused; a call through a verifier is refused unless the count is the
expected one just then, and the refusal states both. Nothing but calls through the double itself changes
its ledger. What is held by a name is a double itself, and no other name holds one with the same ledger.
-/
theorem ledger_accounts (dispatcher : Registry) (registries : List Registry) (steps : List Step) :
    let start := fresh dispatcher registries
    let session := start.run steps
    (∀ number core call, session.cores[number]? = some core →
        core.ledger.count call = start.callsMade steps number call) ∧
      (∀ step double method, session.target? step = some (double, method) →
        let made := start.callsMade steps double.core method.call
        match double.mode with
        | .stub =>
          method.Passes (session.step step).2 ∧
            start.callsMade (steps ++ [step]) double.core method.call = made + 1
        | .verifying expected =>
          if made = expected then method.Passes (session.step step).2
          else (session.step step).2 = .panicked (.verification ⟨method.call, expected, made⟩)) ∧
      (∀ step number core, session.cores[number]? = some core →
        (∀ call, session.event? step ≠ some (.observed number .stub call)) →
        ∃ next, (session.step step).1.cores[number]? = some next ∧ next.ledger = core.ledger) ∧
      ∀ name held, session.handles.lookup name = some held → held.double.mode = .stub ∧
        ∀ other heldOther, session.handles.lookup other = some heldOther → name ≠ other →
          held.double.core ≠ heldOther.double.core := by
  intro start session
  have sound : session.Sound := (sound_fresh dispatcher registries).run steps
  have counted : ∀ number call,
      (session.core number).ledger.count call = start.callsMade steps number call := by
    intro number call
    have counts := (sound_fresh dispatcher registries).count_run steps number call
    rwa [core_fresh, Ledger.count_empty, Nat.zero_add] at counts
  refine ⟨?_, ?_, ?_, ?_⟩
  · intro number core call found
    rw [← core_of_getElem? found]
    exact counted number call
  · intro step double method target made
    have answered := sound.answer_target target
    cases mode : double.mode with
    | stub =>
        rw [mode, Method.answer_stub] at answered
        exact ⟨answered ▸ method.yields_passes _, callsMade_call target mode⟩
    | verifying expected =>
        rw [mode, Method.answer_verifying, counted] at answered
        dsimp only
        by_cases exactly : made = expected
        · rw [if_pos exactly] at answered ⊢
          exact answered ▸ method.yields_passes _
        · rw [if_neg exactly] at answered ⊢
          exact answered
  · intro step number core found other
    obtain ⟨within, _⟩ := List.getElem?_eq_some_iff.mp found
    have still := Nat.lt_of_lt_of_le within (session.step_moves step).cores_length
    refine ⟨_, getElem?_core still, ?_⟩
    rw [sound.ledger_step step number other, core_of_getElem? found]
  · intro name held found
    refine ⟨(sound.handles _ (mem_of_lookup found)).1, ?_⟩
    intro other heldOther foundOther different
    exact sound.core_ne found foundOther different

/-- Two doubles that greet; the first is called twice, at the second time with a value of the wrong type. -/
def greetings : List Step :=
  [.create "samples::greets" "dyn samples::IGreeter" "ghost",
    .create "samples::greets" "dyn samples::IGreeter" "other",
    .receive "ghost" 3 "thrice", .call "ghost" "greet", .configure "ghost" "greet" ⟨.bool, true⟩,
    .call "ghost" "greet", .call "other" "greet", .receive "ghost" 2 "twice", .callBoxed "thrice" "greet"]

theorem ledger_accounts_greetings :
    let session := (fresh (Samples.dispatcher "samples") [{}]).run greetings
    (session.step (.callBoxed "thrice" "greet")).2 = .panicked (.verification ⟨⟨"greet", []⟩, 3, 2⟩) ∧
      (Samples.method "greet" .string (some "hello")).Passes (session.step (.callBoxed "twice" "greet")).2 ∧
      ∃ core, session.cores[0]? = some core ∧ core.ledger.count ⟨"greet", []⟩ = 2 := by
  obtain ⟨counts, calls, _, _⟩ := ledger_accounts (Samples.dispatcher "samples") [{}] greetings
  have twice : (fresh (Samples.dispatcher "samples") [{}]).callsMade greetings 0 ⟨"greet", []⟩ = 2 := rfl
  refine ⟨?_, ?_, _, rfl, ?_⟩
  · exact calls (.callBoxed "thrice" "greet") ⟨Samples.greets "samples", .verifying 3, 0⟩
      (Samples.method "greet" .string (some "hello")) rfl
  · exact calls (.callBoxed "twice" "greet") ⟨Samples.greets "samples", .verifying 2, 0⟩
      (Samples.method "greet" .string (some "hello")) rfl
  · rw [counts 0 _ ⟨"greet", []⟩ rfl, twice]

end Session

end TestDouble.Run
