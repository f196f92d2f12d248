import TestDouble.Proofs.Run.Accounting
/-!
# The values returned

A call that is not refused answers with the value that was configured last for its method at its double,
provided that the value has the type of the result; else it fails and the value stays. Without any it
answers with the value that is part of the generated type. A method whose value is fixed, as where the
result borrows, always answers with the latter.
-/

namespace TestDouble.Run

namespace Session

/-- The value configured last for a method of the double over a core. -/
def lastSet? (session : Session) (steps : List Step) (number : Nat) (method : String) : Option Value :=
  ((Event.reaching number (session.history steps)).filterMap (Event.setting? method)).getLast?

theorem Sound.lookup_run {session : Session} (sound : session.Sound) (steps : List Step) (number : Nat)
    (method : String) :
    ((session.run steps).core number).overrides.lookup method =
      (session.lastSet? steps number method).or ((session.core number).overrides.lookup method) := by
  rw [sound.core_run, Core.lookup_receive_all]
  rfl

/-- Steps that configure nothing for a method at a core keep what was configured last. -/
theorem lastSet?_append {session : Session} {earlier later : List Step} {number : Nat} {method : String}
    (untouched : ∀ event ∈ (session.run earlier).history later,
      event.core = number → event.setting? method = none) :
    session.lastSet? (earlier ++ later) number method = session.lastSet? earlier number method := by
  have nothing : (Event.reaching number ((session.run earlier).history later)).filterMap
      (Event.setting? method) = [] := by
    refine List.filterMap_eq_nil_iff.mpr ?_
    intro event member
    obtain ⟨happened, here⟩ := List.mem_filter.mp member
    exact untouched event happened (of_decide_eq_true here)
  unfold lastSet?
  rw [history_append, Event.reaching_append, List.filterMap_append, nothing, List.append_nil]

/-- A call through the double itself, or one that the count of calls allows just then. -/
def Allows (session : Session) (steps : List Step) (double : Double) (method : Method) : Prop :=
  double.mode = .stub ∨ double.mode = .verifying (session.callsMade steps double.core method.call)

theorem answer_allowed {dispatcher : Registry} {registries : List Registry} {steps : List Step} {step : Step}
    {double : Double} {method : Method}
    (target : ((fresh dispatcher registries).run steps).target? step = some (double, method))
    (allowed : (fresh dispatcher registries).Allows steps double method) :
    (((fresh dispatcher registries).run steps).step step).2 =
      method.yields ((fresh dispatcher registries).lastSet? steps double.core method.name) := by
  have start := sound_fresh dispatcher registries
  have answered := (start.run steps).answer_target target
  have counts := start.count_run steps double.core method.call
  have held := start.lookup_run steps double.core method.name
  rw [core_fresh, Ledger.count_empty, Nat.zero_add] at counts
  have found : ((fresh dispatcher registries).core double.core).overrides.lookup method.name = none := rfl
  rw [found, Option.or_none] at held
  rcases allowed with stub | verifying
  · rw [answered, stub, Method.answer_stub, held]
  · rw [answered, verifying, Method.answer_verifying, if_pos counts, held]

/-! ### Calls change no values -/

theorem Moves.handles_eq {session next : Session} {event : Event} (moves : session.Moves (some event) next) :
    next.handles = session.handles ∧ next.boxed = session.boxed := by
  cases moves with
  | missing event missing => exact ⟨rfl, rfl⟩
  | received event found => exact ⟨rfl, rfl⟩

theorem target?_congr {session next : Session} (handles : next.handles = session.handles)
    (boxed : next.boxed = session.boxed) (step : Step) : next.target? step = session.target? step := by
  unfold target?
  rw [handles, boxed]

theorem target?_step {session : Session} {step : Step} {double : Double} {method : Method}
    (target : session.target? step = some (double, method)) :
    (session.step step).1.target? step = some (double, method) := by
  have moves := session.step_moves step
  rw [event?_of_target target] at moves
  rw [target?_congr moves.handles_eq.1 moves.handles_eq.2 step, target]

theorem history_call {session : Session} {step : Step} {double : Double} {method : Method}
    (target : session.target? step = some (double, method)) :
    session.history [step] = [.observed double.core double.mode method.call] := by
  show (session.event? step).toList ++ [] = _
  rw [event?_of_target target]
  rfl

theorem Sound.overrides_call {session : Session} (sound : session.Sound) {step : Step} {double : Double}
    {method : Method} (target : session.target? step = some (double, method)) (number : Nat) :
    ((session.step step).1.core number).overrides = (session.core number).overrides := by
  rw [sound.core_step, event?_of_target target, Option.toList_some, Event.reaching_singleton]
  split
  · cases mode : double.mode with
    | stub => rfl
    | verifying expected => rw [List.foldl_cons, List.foldl_nil, Core.receive_verifying]
  · rfl

theorem Allows.again {session : Session} {steps : List Step} {step : Step} {double : Double} {method : Method}
    (target : (session.run steps).target? step = some (double, method))
    (allowed : session.Allows steps double method) : session.Allows (steps ++ [step]) double method := by
  rcases allowed with stub | verifying
  · exact Or.inl stub
  · have uncounted : (session.run steps).callsMade [step] double.core method.call = 0 := by
      unfold callsMade
      rw [history_call target, verifying, Event.reaching_singleton]
      split <;> rfl
    refine Or.inr ?_
    rw [callsMade_append, uncounted]
    exact verifying

end Session

end TestDouble.Run
