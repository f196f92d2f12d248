import TestDouble.Run.Record
/-!
# Ledgers

A ledger counts the calls of one double. It is a finite multiset of call records: every record that was
tracked stands in it once, with the number of times.
-/

namespace TestDouble.Run

structure VerificationError where
  call : CallRecord
  expected : Nat
  actual : Nat
  deriving DecidableEq

namespace VerificationError

def message (error : VerificationError) : String :=
  s!"Expected to receive exactly {error.expected} call(s) matching:\n\t" ++ error.call.text ++
    s!"\nActually received {error.actual} matching call(s):\n\t" ++ error.call.text

end VerificationError

/-- The first entry decides on its own key and leaves every other key to the rest. -/
theorem lookup_cons_ite {α β : Type} [DecidableEq α] (key other : α) (value : β) (rest : List (α × β)) :
    ((key, value) :: rest).lookup other = if other = key then some value else rest.lookup other := by
  by_cases same : other = key
  · simp [same]
  · rw [List.lookup_cons, beq_eq_false_iff_ne.mpr same, if_neg same]

/-- The calls recorded so far, with how often each was. -/
structure Ledger where
  calls : List (CallRecord × Nat) := []

namespace Ledger

/-- Counts one more call in a list of counted calls. -/
def increment (call : CallRecord) : List (CallRecord × Nat) → List (CallRecord × Nat)
  | [] => [(call, 1)]
  | (other, times) :: rest =>
    if other = call then (other, times + 1) :: rest else (other, times) :: increment call rest

theorem lookup_increment (call other : CallRecord) (calls : List (CallRecord × Nat)) :
    (increment call calls).lookup other =
      if other = call then some ((calls.lookup other).getD 0 + 1) else calls.lookup other := by
  induction calls with
  | nil => exact lookup_cons_ite call other 1 []
  | cons entry rest ih =>
    obtain ⟨held, times⟩ := entry
    unfold increment
    by_cases found : held = call
    · subst found
      simp only [if_true, lookup_cons_ite]
      by_cases same : other = held <;> simp [same]
    · rw [if_neg found, lookup_cons_ite, lookup_cons_ite, ih]
      by_cases same : other = held
      · simp [same, found]
      · simp [same]

def track (ledger : Ledger) (call : CallRecord) : Ledger := ⟨increment call ledger.calls⟩

def trackTimes (ledger : Ledger) (call : CallRecord) : Nat → Ledger
  | 0 => ledger
  | times + 1 => (ledger.track call).trackTimes call times

def count (ledger : Ledger) (call : CallRecord) : Nat := (ledger.calls.lookup call).getD 0

@[simp] theorem count_empty (call : CallRecord) : ({} : Ledger).count call = 0 := rfl

theorem count_track (ledger : Ledger) (call other : CallRecord) :
    (ledger.track call).count other = ledger.count other + if other = call then 1 else 0 := by
  unfold count track
  rw [lookup_increment]
  by_cases same : other = call <;> simp [same]

/-- Whether a call was recorded exactly as often as expected. -/
def check (ledger : Ledger) (call : CallRecord) (expected : Nat) : Except VerificationError Unit :=
  if ledger.count call = expected then .ok () else .error ⟨call, expected, ledger.count call⟩

theorem check_eq_ok_iff (ledger : Ledger) (call : CallRecord) (expected : Nat) :
    ledger.check call expected = .ok () ↔ ledger.count call = expected := by
  unfold check
  split <;> simp_all

def total (ledger : Ledger) : Nat := ledger.calls.foldr (fun entry found => entry.2 + found) 0

theorem total_track (ledger : Ledger) (call : CallRecord) :
    (ledger.track call).total = ledger.total + 1 := by
  obtain ⟨calls⟩ := ledger
  unfold total track
  induction calls with
  | nil => rfl
  | cons entry rest ih =>
    obtain ⟨held, times⟩ := entry
    simp only [increment] at ih ⊢
    by_cases found : held = call
    · simp only [if_pos found, List.foldr_cons]
      omega
    · simp only [if_neg found, List.foldr_cons, ih]
      omega

def isEmpty (ledger : Ledger) : Bool := ledger.calls.isEmpty

def inspect (ledger : Ledger) : String :=
  let entries := ledger.calls.map fun (call, times) => s!"{call.inspect}: {times}"
  "CallLedger \x7b calls: \x7b" ++ ", ".intercalate entries ++ "\x7d \x7d"

end Ledger

end TestDouble.Run
