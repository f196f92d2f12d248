import TestDouble.Run.Registry
/-!
# Sessions

A session is the state of a running program as far as doubles are concerned: its registries, the cores
of all doubles made so far, and the doubles that are held by name. One step does one operation and
answers; a step that fails leaves the session as it was, but for a call that was recorded before its
result turned out to have the wrong type.
-/

namespace TestDouble.Run

inductive Answer where
  | ok
  | flag (value : Bool)
  | number (value : Nat)
  | text (value : String)
  | texts (values : List String)
  /-- A double was made for the key. -/
  | made (key : String)
  | value (value : Value)
  | noValue
  | someValue (value : Value)
  /-- An expectation was not met, with its details. -/
  | unmet (error : VerificationError)
  | failed (error : RunError)
  /-- The program stops with the message of the error. -/
  | panicked (error : RunError)
  | unknownMethod
  | unknownName

/-! ### Ledgers and cores by themselves -/

inductive LedgerQuery where
  | count (call : CallRecord)
  | check (call : CallRecord) (expected : Nat)
  | total
  | isEmpty

namespace Ledger

def answer (ledger : Ledger) : LedgerQuery → Answer
  | .count call => .number (ledger.count call)
  | .check call expected =>
    match ledger.check call expected with
    | .ok () => .ok
    | .error error => .unmet error
  | .total => .number ledger.total
  | .isEmpty => .flag ledger.isEmpty

end Ledger

/-- An operation on several ledgers, by number. -/
inductive LedgerStep where
  | track (on : Nat) (call : CallRecord) (times : Nat)
  | clone (on : Nat)
  | new
  | ask (on : Nat) (query : LedgerQuery)

namespace LedgerStep

def run (ledgers : List Ledger) : LedgerStep → List Ledger × Answer
  | track on call times =>
    match ledgers[on]? with
    | some ledger =>
      let ledger := ledger.trackTimes call times
      (ledgers.set on ledger, .number ledger.total)
    | none => (ledgers, .unknownName)
  | clone on =>
    match ledgers[on]? with
    | some ledger => (ledgers ++ [ledger], .number ledgers.length)
    | none => (ledgers, .unknownName)
  | new => (ledgers ++ [{}], .number ledgers.length)
  | ask on query =>
    match ledgers[on]? with
    | some ledger => (ledgers, ledger.answer query)
    | none => (ledgers, .unknownName)

end LedgerStep

inductive CoreStep where
  | ask (query : LedgerQuery)
  | observe (mode : Mode) (call : CallRecord)
  | tryObserve (mode : Mode) (call : CallRecord)
  | inspectMode (mode : Mode)
  | configure (method : String) (value : Value)
  | configured (method : String) (type : ValueType)
  | returned (method : String) (fallback : Value)

namespace CoreStep

def run (core : Core) : CoreStep → Core × Answer
  | ask query => (core, core.ledger.answer query)
  | observe mode call =>
    match core.observe mode call with
    | .ok core => (core, .ok)
    | .error error => (core, .panicked (.verification error))
  | tryObserve mode call =>
    match core.observe mode call with
    | .ok core => (core, .ok)
    | .error error => (core, .failed (.verification error))
  | inspectMode mode => (core, .text mode.inspect)
  | configure method value => (core.configure method value, .ok)
  | configured method type =>
    match core.configured method type with
    | .ok none => (core, .noValue)
    | .ok (some carried) => (core, .someValue ⟨type, carried⟩)
    | .error error => (core, .failed error)
  | returned method fallback =>
    match core.returned method fallback.type fallback.carried with
    | .ok carried => (core, .value ⟨fallback.type, carried⟩)
    | .error error => (core, .panicked error)

end CoreStep

/-! ### Calls -/

namespace Method

def call (method : Method) : CallRecord := ⟨method.name, []⟩

/--
A call of a method over a core. The call is recorded or checked first; then comes the value, which may
turn out to have been configured at another type.
-/
def run (method : Method) (mode : Mode) (core : Core) : Core × Except RunError Value :=
  match core.observe mode method.call with
  | .error error => (core, .error (.verification error))
  | .ok core =>
    if method.fixed then (core, .ok ⟨method.type, method.baked⟩)
    else (core, (core.returned method.name method.type method.baked).map fun carried => ⟨method.type, carried⟩)

end Method

/-! ### Sessions -/

/-- The state of a running program as far as doubles are concerned. -/
structure Session where
  /-- The registry that the generated dispatcher holds. -/
  dispatcher : Registry
  registries : List Registry := [{}]
  cores : List Core := []
  /-- Doubles held by a test, by name. -/
  handles : List (String × Handle) := []
  /-- Doubles without their handle, by name. -/
  boxed : List (String × Double) := []

inductive Step where
  | register (on : Nat) (key : String) (factory : Factory)
  | cloneRegistry (on : Nat)
  | contains (on : Nat) (key : String)
  | keys (on : Nat)
  | size (on : Nat)
  | isEmpty (on : Nat)
  | inspectRegistry (on : Nat)
  | summon (on : Nat) (key contract name : String)
  | create (key contract name : String)
  | received (on : Nat) (handle : String) (count : Nat) (name : String)
  | receive (handle : String) (count : Nat) (name : String)
  | call (handle method : String)
  | callBoxed (boxed method : String)
  | calls (handle method : String)
  | key (handle : String)
  | configure (handle method : String) (value : Value)
  | unwrap (handle name : String)
  | inspectHandle (handle : String)
  | core (handle : String) (step : CoreStep)

namespace Session

/-- Puts a named thing first, in the place of any other of the name. -/
def put {α : Type} (name : String) (thing : α) (things : List (String × α)) : List (String × α) :=
  (name, thing) :: things.filter fun entry => entry.1 ≠ name

theorem lookup_put {α : Type} (name other : String) (thing : α) (things : List (String × α)) :
    (put name thing things).lookup other = if other = name then some thing else things.lookup other := by
  unfold put
  rw [lookup_cons_ite]
  by_cases same : other = name
  · rw [if_pos same, if_pos same]
  · rw [if_neg same, if_neg same]
    induction things with
    | nil => rfl
    | cons entry rest ih =>
      obtain ⟨held, current⟩ := entry
      by_cases dropped : held = name
      · have different : ¬other = held := fun equal => same (equal.trans dropped)
        rw [lookup_cons_ite, if_neg different, List.filter_cons_of_neg (by simp [dropped]), ih]
      · rw [List.filter_cons_of_pos (by simp [dropped]), lookup_cons_ite, lookup_cons_ite, ih]

/-- A double is made from a registry, with a core of its own, and held by the name. -/
def make (session : Session) (registry : Registry) (key contract name : String) :
    Except RunError Session :=
  (registry.factory key contract).map fun factory =>
    let handle : Handle := ⟨key, ⟨factory, .stub, session.cores.length⟩⟩
    { session with cores := session.cores ++ [{}], handles := put name handle session.handles }

/-- A verifier of a double is made from a registry, over the core of the double. -/
def verify (session : Session) (registry : Registry) (handle : Handle) (count : Nat) (name : String) :
    Except RunError Session :=
  (registry.factory handle.key handle.double.factory.contract).map fun factory =>
    let double : Double := ⟨factory, .verifying count, handle.double.core⟩
    { session with boxed := put name double session.boxed }

/-- Runs a change of one core, by number. -/
def onCore (session : Session) (number : Nat) (change : Core → Core × Answer) : Session × Answer :=
  match session.cores[number]? with
  | some core =>
    let (core, answer) := change core
    ({ session with cores := session.cores.set number core }, answer)
  | none => (session, .unknownName)

def callDouble (session : Session) (double : Double) (name : String) : Session × Answer :=
  match double.factory.methods.find? fun method => method.name == name with
  | none => (session, .unknownMethod)
  | some method => session.onCore double.core fun core =>
      match method.run double.mode core with
      | (core, .ok value) => (core, .value value)
      | (core, .error error) => (core, .panicked error)

/-- The session and answer that a fallible change leads to. -/
def settle (session : Session) (failure : RunError → Answer) (success : Answer) :
    Except RunError Session → Session × Answer
  | .ok next => (next, success)
  | .error error => (session, failure error)

/-- Answers a question to a registry, by number. -/
def askRegistry (session : Session) (on : Nat) (question : Registry → Answer) : Session × Answer :=
  match session.registries[on]? with
  | some registry => (session, question registry)
  | none => (session, .unknownName)

/-- Does something with a double that is held by name. -/
def withHandle (session : Session) (name : String) (use : Handle → Session × Answer) : Session × Answer :=
  match session.handles.lookup name with
  | some handle => use handle
  | none => (session, .unknownName)

def inspectHandle (session : Session) (handle : Handle) : String :=
  let ledger := ((session.cores[handle.double.core]?).map Core.ledger).getD {}
  "Ghosted \x7b key: " ++ Text.quoted handle.key ++ ", ledger: " ++ ledger.inspect ++ ", .. \x7d"

def step (session : Session) : Step → Session × Answer
  | .register on key factory =>
    match session.registries[on]? with
    | some registry =>
      let registry := registry.register key factory
      ({ session with registries := session.registries.set on registry }, .number registry.size)
    | none => (session, .unknownName)
  | .cloneRegistry on =>
    match session.registries[on]? with
    | some registry =>
      ({ session with registries := session.registries ++ [registry] }, .number session.registries.length)
    | none => (session, .unknownName)
  | .contains on key => session.askRegistry on fun r => .flag (r.contains key)
  | .keys on => session.askRegistry on fun r => .texts r.keys
  | .size on => session.askRegistry on fun r => .number r.size
  | .isEmpty on => session.askRegistry on fun r => .flag r.keys.isEmpty
  | .inspectRegistry on => session.askRegistry on fun r => .text r.inspect
  | .summon on key contract name =>
    match session.registries[on]? with
    | some registry => session.settle .failed (.made key) (session.make registry key contract name)
    | none => (session, .unknownName)
  | .create key contract name =>
    session.settle .panicked (.made key) (session.make session.dispatcher key contract name)
  | .received on handle count name =>
    match session.registries[on]? with
    | some registry => session.withHandle handle fun handle =>
        session.settle .failed .ok (session.verify registry handle count name)
    | none => (session, .unknownName)
  | .receive handle count name => session.withHandle handle fun handle =>
      session.settle .panicked .ok (session.verify session.dispatcher handle count name)
  | .call handle method => session.withHandle handle fun handle => session.callDouble handle.double method
  | .callBoxed name method =>
    match session.boxed.lookup name with
    | some double => session.callDouble double method
    | none => (session, .unknownName)
  | .calls handle method => session.withHandle handle fun handle =>
      session.onCore handle.double.core fun core => (core, .number (core.ledger.count ⟨method, []⟩))
  | .key handle => session.withHandle handle fun handle => (session, .text handle.key)
  | .configure handle method value => session.withHandle handle fun handle =>
      session.onCore handle.double.core fun core => (core.configure method value, .ok)
  | .unwrap name boxedName => session.withHandle name fun handle =>
      ({ session with
        handles := session.handles.filter fun entry => entry.1 ≠ name
        boxed := put boxedName handle.double session.boxed }, .ok)
  | .inspectHandle handle => session.withHandle handle fun handle =>
      (session, .text (session.inspectHandle handle))
  | .core handle step => session.withHandle handle fun handle =>
      session.onCore handle.double.core fun core => step.run core

end Session

end TestDouble.Run
