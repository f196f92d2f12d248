import Mathlib.Data.Finset.Card
import Mathlib.Data.String.Basic
import TestDouble.Proofs.Run.Accounting
/-!
# Lookups in registries

The book of a registry holds what was registered in it, from the first entry to the last. A lookup finds the type
that was registered last for the key, and fails if there is none or if it implements another contract; then nothing
changes. Doubles and their verifiers are made by such lookups, a verifier also in another registry than its double.
-/

namespace TestDouble.Run

/-- What was registered in a registry, in this order. -/
abbrev Book := List (String × Factory)

namespace Book

def enter (book : Book) (key : String) (factory : Factory) : Book := book ++ [(key, factory)]

/-- The type is the one that was registered last for the key. -/
def LastFor (book : Book) (key : String) (factory : Factory) : Prop :=
  ∃ earlier later, book = earlier ++ (key, factory) :: later ∧ ∀ entry ∈ later, entry.1 ≠ key

theorem lookup_eq_some_iff {book : Book} {key : String} {factory : Factory} :
    book.reverse.lookup key = some factory ↔ book.LastFor key factory := by
  rw [List.lookup_eq_some_iff]
  constructor
  · rintro ⟨later, earlier, same, silent⟩
    refine ⟨earlier.reverse, later.reverse, ?_, ?_⟩
    · rw [← List.reverse_reverse book, same, List.reverse_append, List.reverse_cons, List.append_assoc,
        List.singleton_append]
    · intro entry member
      exact Ne.symm (bne_iff_ne.mp (silent entry (List.mem_reverse.mp member)))
  · rintro ⟨earlier, later, same, silent⟩
    refine ⟨later.reverse, earlier.reverse, ?_, ?_⟩
    · rw [same, List.reverse_append, List.reverse_cons, List.append_assoc, List.singleton_append]
    · intro entry member
      exact bne_iff_ne.mpr (Ne.symm (silent entry (List.mem_reverse.mp member)))

theorem lookup_eq_none_iff {book : Book} {key : String} :
    book.reverse.lookup key = none ↔ ∀ entry ∈ book, entry.1 ≠ key := by
  rw [List.lookup_eq_none_iff]
  constructor
  · intro silent entry member
    exact Ne.symm (bne_iff_ne.mp (silent entry (List.mem_reverse.mpr member)))
  · intro silent entry member
    exact bne_iff_ne.mpr (Ne.symm (silent entry (List.mem_reverse.mp member)))

end Book

/-! ### The registry of a book -/

namespace Registry

def ofBook (book : Book) : Registry :=
  book.foldl (fun registry entry => registry.register entry.1 entry.2) {}

theorem ofBook_enter (book : Book) (key : String) (factory : Factory) :
    ofBook (book.enter key factory) = (ofBook book).register key factory := by
  rw [ofBook, Book.enter, List.foldl_append]
  rfl

theorem lookup_ofBook (book : Book) (key : String) :
    (ofBook book).factories.lookup key = book.reverse.lookup key := by
  induction book using List.reverseRecOn with
  | nil => rfl
  | append_singleton earlier entry ih =>
      obtain ⟨other, factory⟩ := entry
      show (ofBook (Book.enter earlier other factory)).factories.lookup key = _
      rw [ofBook_enter, register, lookup_place, ih, List.reverse_append, List.reverse_singleton,
        List.singleton_append, lookup_cons_ite]

theorem mem_keys_place {key other : String} {factory : Factory} {entries : List (String × Factory)} :
    other ∈ (place key factory entries).map Prod.fst ↔ other = key ∨ other ∈ entries.map Prod.fst := by
  induction entries with
  | nil => simp [place]
  | cons entry rest ih =>
      obtain ⟨held, current⟩ := entry
      unfold place
      by_cases found : key = held
      · subst found
        simp
      · rw [if_neg found]
        by_cases before : key < held
        · rw [if_pos before, List.map_cons, List.mem_cons]
        · rw [if_neg before, List.map_cons, List.mem_cons, ih, List.map_cons, List.mem_cons]
          exact or_left_comm

/-- An entry is put where the keys stay in ascending order. -/
theorem ascending_place {key : String} {factory : Factory} {entries : List (String × Factory)}
    (ascending : (entries.map Prod.fst).Pairwise (· < ·)) :
    ((place key factory entries).map Prod.fst).Pairwise (· < ·) := by
  induction entries with
  | nil => exact List.pairwise_singleton _ _
  | cons entry rest ih =>
      obtain ⟨held, current⟩ := entry
      obtain ⟨below, later⟩ := List.pairwise_cons.mp ascending
      unfold place
      by_cases found : key = held
      · subst found
        rw [if_pos rfl]
        exact ascending
      · rw [if_neg found]
        by_cases before : key < held
        · rw [if_pos before]
          refine List.pairwise_cons.mpr ⟨?_, ascending⟩
          intro other member
          rcases List.mem_cons.mp member with rfl | inside
          · exact before
          · exact before.trans (below other inside)
        · rw [if_neg before]
          refine List.pairwise_cons.mpr ⟨?_, ih later⟩
          intro other member
          rcases mem_keys_place.mp member with rfl | inside
          · exact lt_of_le_of_ne (not_lt.mp before) (Ne.symm found)
          · exact below other inside

theorem ascending_ofBook (book : Book) : (ofBook book).keys.Pairwise (· < ·) := by
  induction book using List.reverseRecOn with
  | nil => exact List.Pairwise.nil
  | append_singleton earlier entry ih =>
      show (ofBook (Book.enter earlier entry.1 entry.2)).keys.Pairwise (· < ·)
      rw [ofBook_enter]
      exact ascending_place ih

theorem mem_keys_ofBook {book : Book} {key : String} : key ∈ (ofBook book).keys ↔ key ∈ book.map Prod.fst := by
  induction book using List.reverseRecOn with
  | nil => exact Iff.rfl
  | append_singleton earlier entry ih =>
      show key ∈ (ofBook (Book.enter earlier entry.1 entry.2)).keys ↔ _
      rw [ofBook_enter, List.map_append, List.mem_append, List.map_singleton, List.mem_singleton, ← ih, or_comm]
      exact mem_keys_place

theorem size_ofBook (book : Book) : (ofBook book).size = (book.map Prod.fst).toFinset.card := by
  have distinct : (ofBook book).keys.Nodup := (ascending_ofBook book).imp ne_of_lt
  have same : (ofBook book).keys.toFinset = (book.map Prod.fst).toFinset := by
    ext key
    rw [List.mem_toFinset, List.mem_toFinset, mem_keys_ofBook]
  rw [← same, List.toFinset_card_of_nodup distinct, keys, List.length_map, size]

end Registry

/-! ### What a step registers -/

/-- What a step does to registries, or to anything that stands for them. -/
def Step.stock {α : Type} (enter : α → String → Factory → α) (shelves : List α) : Step → List α
  | .register on name factory =>
    match shelves[on]? with
    | some shelf => shelves.set on (enter shelf name factory)
    | none => shelves
  | .cloneRegistry on =>
    match shelves[on]? with
    | some shelf => shelves ++ [shelf]
    | none => shelves
  | _ => shelves

theorem Step.map_stock {α β : Type} {enter : α → String → Factory → α} {enterOther : β → String → Factory → β}
    {view : α → β} (same : ∀ shelf key factory, view (enter shelf key factory) = enterOther (view shelf) key factory)
    (shelves : List α) (step : Step) :
    (step.stock enter shelves).map view = step.stock enterOther (shelves.map view) := by
  cases step with
  | register on key factory =>
      unfold stock
      dsimp only
      rw [List.getElem?_map]
      cases shelves[on]? with
      | none => rfl
      | some shelf =>
          show (shelves.set on (enter shelf key factory)).map view = _
          rw [List.map_set, same]
          rfl
  | cloneRegistry on =>
      unfold stock
      dsimp only
      rw [List.getElem?_map]
      cases shelves[on]? with
      | none => rfl
      | some shelf => exact List.map_append
  | _ => rfl

namespace Session

theorem registries_withHandle {session : Session} {name : String} {use : Handle → Session × Answer}
    (keeps : ∀ held, (use held).1.registries = session.registries) :
    (session.withHandle name use).1.registries = session.registries := by
  unfold withHandle
  cases session.handles.lookup name with
  | none => rfl
  | some held => exact keeps held

theorem registries_onCore (session : Session) (number : Nat) (change : Core → Core × Answer) :
    (session.onCore number change).1.registries = session.registries := by
  unfold onCore
  cases session.cores[number]? <;> rfl

theorem registries_callDouble (session : Session) (double : Double) (name : String) :
    (session.callDouble double name).1.registries = session.registries := by
  unfold callDouble
  cases double.factory.methods.find? fun method => method.name == name with
  | none => rfl
  | some method => exact session.registries_onCore double.core _

theorem registries_make (session : Session) (registry : Registry) (key contract name : String)
    (failure : RunError → Answer) (success : Answer) :
    (session.settle failure success (session.make registry key contract name)).1.registries = session.registries := by
  unfold make
  cases registry.factory key contract <;> rfl

theorem registries_verify (session : Session) (registry : Registry) (held : Handle) (count : Nat) (name : String)
    (failure : RunError → Answer) (success : Answer) :
    (session.settle failure success (session.verify registry held count name)).1.registries = session.registries := by
  unfold verify
  cases registry.factory held.key held.double.factory.contract <;> rfl

theorem registries_ask (session : Session) (on : Nat) (question : Registry → Answer) :
    (session.askRegistry on question).1.registries = session.registries := by
  unfold askRegistry
  cases session.registries[on]? <;> rfl

theorem registries_step (session : Session) (step : Step) :
    (session.step step).1.registries = step.stock Registry.register session.registries := by
  cases step with
  | register on key factory =>
      dsimp only [Session.step, Step.stock]
      cases session.registries[on]? <;> rfl
  | cloneRegistry on =>
      dsimp only [Session.step, Step.stock]
      cases session.registries[on]? <;> rfl
  | contains on key => exact session.registries_ask on _
  | keys on => exact session.registries_ask on _
  | size on => exact session.registries_ask on _
  | isEmpty on => exact session.registries_ask on _
  | inspectRegistry on => exact session.registries_ask on _
  | summon on key contract name =>
      dsimp only [Session.step, Step.stock]
      cases session.registries[on]? with
      | none => rfl
      | some registry => exact session.registries_make registry key contract name _ _
  | create key contract name => exact session.registries_make session.dispatcher key contract name _ _
  | received on handle count name =>
      dsimp only [Session.step, Step.stock]
      cases session.registries[on]? with
      | none => rfl
      | some registry =>
          exact registries_withHandle fun held => session.registries_verify registry held count name _ _
  | receive handle count name =>
      exact registries_withHandle fun held => session.registries_verify session.dispatcher held count name _ _
  | call handle method => exact registries_withHandle fun held => session.registries_callDouble held.double method
  | callBoxed name method =>
      dsimp only [Session.step, Step.stock]
      cases session.boxed.lookup name with
      | none => rfl
      | some double => exact session.registries_callDouble double method
  | calls handle method => exact registries_withHandle fun held => session.registries_onCore held.double.core _
  | key handle => exact registries_withHandle fun held => rfl
  | configure handle method value =>
      exact registries_withHandle fun held => session.registries_onCore held.double.core _
  | unwrap handle name => exact registries_withHandle fun held => rfl
  | inspectHandle handle => exact registries_withHandle fun held => rfl
  | core handle step => exact registries_withHandle fun held => session.registries_onCore held.double.core _

/-- The books of all registries after a run that begins with some empty ones. -/
def books (count : Nat) (steps : List Step) : List Book :=
  steps.foldl (Step.stock Book.enter) (List.replicate count [])

/-- The registries stay those of their books. -/
theorem registries_run (session : Session) (kept : List Book) (steps : List Step)
    (same : session.registries = kept.map Registry.ofBook) :
    (session.run steps).registries = (steps.foldl (Step.stock Book.enter) kept).map Registry.ofBook := by
  induction steps generalizing session kept with
  | nil => exact same
  | cons step rest ih =>
      refine ih (session.step step).1 (step.stock Book.enter kept) ?_
      rw [registries_step, same, Step.map_stock Registry.ofBook_enter]

theorem registries_fresh (dispatcher : Registry) (count : Nat) (steps : List Step) :
    ((fresh dispatcher (List.replicate count {})).run steps).registries =
      (books count steps).map Registry.ofBook := by
  refine registries_run _ (List.replicate count []) steps ?_
  rw [List.map_replicate]
  rfl

/-- A step that registers nothing for a key in a registry keeps what is found there. -/
theorem lookup_stock {registries : List Registry} {on : Nat} {registry : Registry} {key : String} {step : Step}
    (held : registries[on]? = some registry) (other : ∀ factory, step ≠ .register on key factory) :
    ∃ next, (step.stock Registry.register registries)[on]? = some next ∧
      next.factories.lookup key = registry.factories.lookup key := by
  obtain ⟨within, _⟩ := List.getElem?_eq_some_iff.mp held
  cases step with
  | register there name factory =>
      unfold Step.stock
      dsimp only
      cases found : registries[there]? with
      | none => exact ⟨registry, held, rfl⟩
      | some shelf =>
          dsimp only
          by_cases here : there = on
          · subst here
            rw [held] at found
            cases found
            refine ⟨_, List.getElem?_set_self within, ?_⟩
            rw [Registry.register, Registry.lookup_place, if_neg]
            rintro rfl
            exact other factory rfl
          · exact ⟨registry, (List.getElem?_set_ne here).trans held, rfl⟩
  | cloneRegistry there =>
      unfold Step.stock
      dsimp only
      cases registries[there]? with
      | none => exact ⟨registry, held, rfl⟩
      | some shelf => exact ⟨registry, (List.getElem?_append_left within).trans held, rfl⟩
  | _ => exact ⟨registry, held, rfl⟩

theorem lookup_run {session : Session} {on : Nat} {registry : Registry} {key : String} {steps : List Step}
    (held : session.registries[on]? = some registry) (other : ∀ factory, .register on key factory ∉ steps) :
    ∃ next, (session.run steps).registries[on]? = some next ∧
      next.factories.lookup key = registry.factories.lookup key := by
  induction steps generalizing session registry with
  | nil => exact ⟨registry, held, rfl⟩
  | cons step rest ih =>
      have first : ∀ factory, step ≠ .register on key factory := by
        rintro factory rfl
        exact other factory List.mem_cons_self
      obtain ⟨next, heldNext, same⟩ := lookup_stock held first
      rw [← registries_step] at heldNext
      obtain ⟨last, heldLast, sameLast⟩ := ih heldNext fun factory member =>
        other factory (List.mem_cons_of_mem _ member)
      exact ⟨last, heldLast, sameLast.trans same⟩

/-! ### Making doubles and verifiers -/

/-- How a lookup for a contract turns out by a book, with the answer that stands for success. -/
structure Decides (book : Book) (key contract : String) (success answer : Answer) : Prop where
  succeeds : answer = success ↔ ∃ factory, book.LastFor key factory ∧ factory.contract = contract
  missing : answer = .failed (.noMatchingSpecification key) ↔ ∀ entry ∈ book, entry.1 ≠ key
  mismatch : answer = .failed (.contractMismatch key contract) ↔
    ∃ factory, book.LastFor key factory ∧ factory.contract ≠ contract
  cases : answer = success ∨ answer = .failed (.noMatchingSpecification key) ∨
    answer = .failed (.contractMismatch key contract)

/-- A step that makes something from what is looked up, or fails and leaves all as it is. -/
theorem settle_factory (session : Session) (book : Book) (key contract : String) {success : Answer}
    (passes : ∀ error, success ≠ .failed error) (change : Factory → Session) :
    let result := session.settle .failed success (((Registry.ofBook book).factory key contract).map change)
    Decides book key contract success result.2 ∧
      ((∃ error, result.2 = .failed error) → result.1 = session) ∧
      (result.2 = success → ∃ factory, book.LastFor key factory ∧ factory.contract = contract ∧
        result.1 = change factory) := by
  unfold Registry.factory
  rw [Registry.lookup_ofBook]
  cases found : book.reverse.lookup key with
  | none =>
      have silent := Book.lookup_eq_none_iff.mp found
      have nothing : ∀ factory, ¬book.LastFor key factory := by
        intro factory last
        rw [Book.lookup_eq_some_iff.mpr last] at found
        cases found
      refine ⟨⟨?_, ?_, ?_, Or.inr (Or.inl rfl)⟩, fun _ => rfl, fun wrong => absurd wrong.symm (passes _)⟩
      · exact ⟨fun wrong => absurd wrong.symm (passes _), fun ⟨factory, last, _⟩ => absurd last (nothing factory)⟩
      · exact ⟨fun _ => silent, fun _ => rfl⟩
      · exact ⟨fun wrong => (nomatch wrong), fun ⟨factory, last, _⟩ => absurd last (nothing factory)⟩
  | some factory =>
      have last := Book.lookup_eq_some_iff.mp found
      have only : ∀ other, book.LastFor key other → other = factory := by
        intro other lastOther
        rw [Book.lookup_eq_some_iff.mpr lastOther] at found
        exact Option.some.inj found
      have known : ¬∀ entry ∈ book, entry.1 ≠ key := by
        intro silent
        rw [Book.lookup_eq_none_iff.mpr silent] at found
        cases found
      by_cases same : factory.contract = contract
      · simp only [same, if_true]
        refine ⟨⟨?_, ?_, ?_, Or.inl rfl⟩, ?_, fun _ => ⟨factory, last, same, rfl⟩⟩
        · exact ⟨fun _ => ⟨factory, last, same⟩, fun _ => rfl⟩
        · exact ⟨fun wrong => absurd wrong (passes _), fun silent => absurd silent known⟩
        · refine ⟨fun wrong => absurd wrong (passes _), ?_⟩
          rintro ⟨other, lastOther, different⟩
          rw [only other lastOther] at different
          exact absurd same different
        · rintro ⟨error, wrong⟩
          exact absurd wrong (passes _)
      · simp only [same, if_false]
        refine ⟨⟨?_, ?_, ?_, Or.inr (Or.inr rfl)⟩, fun _ => rfl, fun wrong => absurd wrong.symm (passes _)⟩
        · refine ⟨fun wrong => absurd wrong.symm (passes _), ?_⟩
          rintro ⟨other, lastOther, equal⟩
          rw [only other lastOther] at equal
          exact absurd equal same
        · exact ⟨fun wrong => (nomatch wrong), fun silent => absurd silent known⟩
        · exact ⟨fun _ => ⟨factory, last, same⟩, fun _ => rfl⟩

theorem factory_congr {registry next : Registry} {key : String}
    (same : next.factories.lookup key = registry.factories.lookup key) (contract : String) :
    next.factory key contract = registry.factory key contract := by
  unfold Registry.factory
  rw [same]

theorem step_summon {session : Session} {on : Nat} {registry : Registry}
    (held : session.registries[on]? = some registry) (key contract name : String) :
    session.step (.summon on key contract name) =
      session.settle .failed (.made key) (session.make registry key contract name) := by
  dsimp only [Session.step]
  rw [held]

theorem step_received {session : Session} {on : Nat} {registry : Registry} {ghost : String} {handle : Handle}
    (held : session.registries[on]? = some registry) (known : session.handles.lookup ghost = some handle)
    (count : Nat) (name : String) :
    session.step (.received on ghost count name) =
      session.settle .failed .ok (session.verify registry handle count name) := by
  dsimp only [Session.step]
  rw [held]
  dsimp only [withHandle]
  rw [known]

theorem answer_settle (session : Session) (success : Answer) (found : Except RunError Factory)
    (change : Factory → Session) :
    (session.settle .failed success (found.map change)).2 =
      match found with
      | .ok _ => success
      | .error error => .failed error := by
  cases found <;> rfl

end Session

end TestDouble.Run
