import Mathlib
import TestDouble.Run.Session
/-!
# The content of ledgers

What a ledger holds is a multiset of calls: each recorded call as often as its counter says. Tracking a call adds it
to the content, and every question to a ledger is one about the content. So a ledger answers by the calls that were
tracked, and their order does not matter. No counter, and no sum of counters, exceeds the number of calls.
-/

namespace TestDouble.Run.Ledger

/-- Every recorded call stands in the ledger once, and was made at least once. -/
structure Sound (ledger : Ledger) : Prop where
  distinct : (ledger.calls.map Prod.fst).Nodup
  made : ∀ entry ∈ ledger.calls, 0 < entry.2

theorem sound_empty : Sound {} := ⟨List.nodup_nil, fun _ member => nomatch member⟩

/-! ### Tracking one call -/

theorem keys_increment (call : CallRecord) (calls : List (CallRecord × Nat)) :
    (increment call calls).map Prod.fst =
      if call ∈ calls.map Prod.fst then calls.map Prod.fst else calls.map Prod.fst ++ [call] := by
  induction calls with
  | nil => rfl
  | cons entry rest ih =>
      obtain ⟨held, times⟩ := entry
      unfold increment
      by_cases found : held = call
      · subst found
        simp
      · rw [if_neg found, List.map_cons, ih, List.map_cons]
        by_cases later : call ∈ rest.map Prod.fst
        · rw [if_pos later, if_pos (List.mem_cons_of_mem held later)]
        · have absent : call ∉ held :: rest.map Prod.fst := by
            rw [List.mem_cons, not_or]
            exact ⟨Ne.symm found, later⟩
          rw [if_neg later, if_neg absent, List.cons_append]

theorem made_increment {call : CallRecord} {calls : List (CallRecord × Nat)} (made : ∀ entry ∈ calls, 0 < entry.2) :
    ∀ entry ∈ increment call calls, 0 < entry.2 := by
  induction calls with
  | nil => exact List.forall_mem_singleton.mpr Nat.zero_lt_one
  | cons entry rest ih =>
      obtain ⟨held, times⟩ := entry
      obtain ⟨first, later⟩ := List.forall_mem_cons.mp made
      unfold increment
      by_cases found : held = call
      · rw [if_pos found]
        exact List.forall_mem_cons.mpr ⟨Nat.succ_pos times, later⟩
      · rw [if_neg found]
        exact List.forall_mem_cons.mpr ⟨first, ih later⟩

theorem Sound.track {ledger : Ledger} (sound : ledger.Sound) (call : CallRecord) : (ledger.track call).Sound where
  distinct := by
    show ((increment call ledger.calls).map Prod.fst).Nodup
    rw [keys_increment]
    by_cases known : call ∈ ledger.calls.map Prod.fst
    · rw [if_pos known]
      exact sound.distinct
    · rw [if_neg known]
      rw [← List.concat_eq_append]
      exact sound.distinct.concat known
  made := made_increment sound.made

/-! ### The multiset -/

/-- The calls that a ledger holds, each as often as its counter says. -/
def content (ledger : Ledger) : Multiset CallRecord :=
  (ledger.calls.map fun entry => Multiset.replicate entry.2 entry.1).sum

@[simp] theorem content_empty : ({} : Ledger).content = 0 := rfl

theorem content_track (ledger : Ledger) (call : CallRecord) :
    (ledger.track call).content = call ::ₘ ledger.content := by
  obtain ⟨calls⟩ := ledger
  unfold content track
  induction calls with
  | nil => rfl
  | cons entry rest ih =>
      obtain ⟨held, times⟩ := entry
      dsimp only at ih ⊢
      unfold increment
      by_cases found : held = call
      · subst found
        rw [if_pos rfl, List.map_cons, List.map_cons, List.sum_cons, List.sum_cons, Multiset.replicate_succ,
          Multiset.cons_add]
      · rw [if_neg found, List.map_cons, List.map_cons, List.sum_cons, List.sum_cons, ih, Multiset.add_cons]

theorem count_sum_replicate {call : CallRecord} {calls : List (CallRecord × Nat)}
    (absent : call ∉ calls.map Prod.fst) :
    (calls.map fun entry => Multiset.replicate entry.2 entry.1).sum.count call = 0 := by
  induction calls with
  | nil => rfl
  | cons entry rest ih =>
      obtain ⟨held, times⟩ := entry
      rw [List.map_cons, List.mem_cons, not_or] at absent
      rw [List.map_cons, List.sum_cons, Multiset.count_add, Multiset.count_replicate, if_neg (Ne.symm absent.1),
        Nat.zero_add, ih absent.2]

/-- The counter that is found for a call is its multiplicity. -/
theorem Sound.count_eq {ledger : Ledger} (sound : ledger.Sound) (call : CallRecord) :
    ledger.count call = ledger.content.count call := by
  obtain ⟨calls⟩ := ledger
  have distinct := sound.distinct
  clear sound
  unfold count content
  induction calls with
  | nil => rfl
  | cons entry rest ih =>
      obtain ⟨held, times⟩ := entry
      dsimp only at distinct ih ⊢
      obtain ⟨absent, later⟩ := List.nodup_cons.mp distinct
      rw [lookup_cons_ite, List.map_cons, List.sum_cons, Multiset.count_add, Multiset.count_replicate]
      by_cases found : call = held
      · subst found
        rw [if_pos rfl, if_pos rfl, Option.getD_some, count_sum_replicate absent, Nat.add_zero]
      · rw [if_neg found, if_neg (Ne.symm found), Nat.zero_add]
        exact ih later

theorem total_eq_sum (ledger : Ledger) : ledger.total = (ledger.calls.map Prod.snd).sum := by
  unfold total
  induction ledger.calls with
  | nil => rfl
  | cons entry rest ih => rw [List.foldr_cons, ih, List.map_cons, List.sum_cons]

theorem total_eq_card (ledger : Ledger) : ledger.total = ledger.content.card := by
  rw [total_eq_sum]
  unfold content
  induction ledger.calls with
  | nil => rfl
  | cons entry rest ih =>
      rw [List.map_cons, List.sum_cons, List.map_cons, List.sum_cons, Multiset.card_add, Multiset.card_replicate, ih]

/-- As no counter is zero, only the ledger without entries holds nothing. -/
theorem Sound.isEmpty_iff {ledger : Ledger} (sound : ledger.Sound) :
    ledger.isEmpty = true ↔ ledger.content = 0 := by
  unfold isEmpty
  rw [List.isEmpty_iff]
  constructor
  · intro none
    rw [content, none]
    rfl
  · intro nothing
    cases held : ledger.calls with
    | nil => rfl
    | cons entry rest =>
        have positive := sound.made entry (held ▸ List.mem_cons_self)
        have none : ledger.total = 0 := by
          rw [total_eq_card, nothing, Multiset.card_zero]
        rw [total_eq_sum, held, List.map_cons, List.sum_cons] at none
        omega

/-! ### Tracking many calls -/

def trackAll (ledger : Ledger) (calls : List CallRecord) : Ledger := calls.foldl track ledger

theorem Sound.trackAll {ledger : Ledger} (sound : ledger.Sound) (calls : List CallRecord) :
    (ledger.trackAll calls).Sound := by
  induction calls generalizing ledger with
  | nil => exact sound
  | cons call rest ih => exact ih (sound.track call)

theorem content_trackAll (ledger : Ledger) (calls : List CallRecord) :
    (ledger.trackAll calls).content = ledger.content + calls := by
  induction calls generalizing ledger with
  | nil => rw [Multiset.coe_nil, Multiset.add_zero]; rfl
  | cons call rest ih =>
      show ((ledger.track call).trackAll rest).content = _
      rw [ih, content_track, Multiset.cons_add, ← Multiset.cons_coe, Multiset.add_cons]

theorem content_tracked (calls : List CallRecord) : (({} : Ledger).trackAll calls).content = calls := by
  rw [content_trackAll, content_empty, Multiset.zero_add]

/-- Ledgers of the same content give the same answers. -/
theorem answer_congr {ledger other : Ledger} (sound : ledger.Sound) (soundOther : other.Sound)
    (same : ledger.content = other.content) (query : LedgerQuery) : ledger.answer query = other.answer query := by
  have counts : ∀ call, ledger.count call = other.count call := by
    intro call
    rw [sound.count_eq, soundOther.count_eq, same]
  cases query with
  | count call => exact congrArg Answer.number (counts call)
  | check call expected =>
      dsimp only [answer]
      rw [check, check, counts call]
  | total =>
      have totals : ledger.total = other.total := by rw [total_eq_card, total_eq_card, same]
      exact congrArg Answer.number totals
  | isEmpty =>
      have empty : ledger.isEmpty = other.isEmpty := by
        rw [Bool.eq_iff_iff, sound.isEmpty_iff, soundOther.isEmpty_iff, same]
      exact congrArg Answer.flag empty

/-- The counters of some of the entries, added up, are at most the total. -/
theorem sum_le_total {ledger : Ledger} {part : List (CallRecord × Nat)} (inside : part.Subperm ledger.calls) :
    (part.map Prod.snd).sum ≤ ledger.total := by
  obtain ⟨arranged, same, sub⟩ := inside
  rw [total_eq_sum, ← (same.map Prod.snd).sum_eq]
  exact (sub.map Prod.snd).sum_le_sum fun _ _ => Nat.zero_le _

/--
A ledger that has tracked fewer than `2 ^ 64` calls answers as the multiset of these calls does. A call is counted
as often as one of the same method with the same arguments was tracked; the total is the number of calls; the ledger
is empty if there were none; a check passes if the count is the expected one, and else fails with the call and both
numbers. In another order the same calls lead to the same answers. At no moment does a counter exceed 64 bits, nor
what is reached while some of the counters are added up, in whatever order.
-/
theorem trackAll_answers (calls : List CallRecord) (few : calls.length < 2 ^ 64) :
    let ledger := ({} : Ledger).trackAll calls
    (∀ method arguments,
        let times := calls.countP fun made => made.method = method ∧ made.arguments = arguments
        ledger.count ⟨method, arguments⟩ = times ∧
          ∀ expected,
            (ledger.check ⟨method, arguments⟩ expected = .ok () ↔ times = expected) ∧
              (times ≠ expected →
                ledger.check ⟨method, arguments⟩ expected = .error ⟨⟨method, arguments⟩, expected, times⟩)) ∧
      ledger.total = calls.length ∧
      (ledger.isEmpty = true ↔ calls = []) ∧
      (∀ others, others.Perm calls → ∀ query, (({} : Ledger).trackAll others).answer query = ledger.answer query) ∧
      ∀ earlier, earlier <+: calls →
        (∀ entry ∈ (({} : Ledger).trackAll earlier).calls, entry.2 < 2 ^ 64) ∧
          ∀ part : List (CallRecord × Nat), part.Subperm (({} : Ledger).trackAll earlier).calls →
            (part.map Prod.snd).sum < 2 ^ 64 := by
  intro ledger
  have sound : ledger.Sound := sound_empty.trackAll calls
  have content : ledger.content = calls := content_tracked calls
  refine ⟨?_, ?_, ?_, ?_, ?_⟩
  · intro method arguments times
    have counted : ledger.count ⟨method, arguments⟩ = times := by
      rw [sound.count_eq, content, Multiset.coe_count, List.count]
      refine List.countP_congr fun made _ => ?_
      rw [beq_iff_eq, decide_eq_true_iff, CallRecord.mk.injEq]
    refine ⟨counted, fun expected => ⟨?_, fun different => ?_⟩⟩
    · rw [check_eq_ok_iff, counted]
    · rw [check, counted, if_neg different]
  · rw [total_eq_card, content, Multiset.coe_card]
  · rw [sound.isEmpty_iff, content, Multiset.coe_eq_zero]
  · intro others arranged query
    refine answer_congr (sound_empty.trackAll others) sound ?_ query
    rw [content, content_tracked, Multiset.coe_eq_coe]
    exact arranged
  · intro earlier before
    have bounded : ∀ part : List (CallRecord × Nat), part.Subperm (({} : Ledger).trackAll earlier).calls →
        (part.map Prod.snd).sum < 2 ^ 64 := by
      intro part inside
      calc (part.map Prod.snd).sum
          ≤ (({} : Ledger).trackAll earlier).total := sum_le_total inside
        _ = earlier.length := by rw [total_eq_card, content_tracked, Multiset.coe_card]
        _ ≤ calls.length := before.length_le
        _ < 2 ^ 64 := few
    refine ⟨fun entry member => ?_, bounded⟩
    have alone := bounded [entry] (List.singleton_subperm_iff.mpr member)
    rwa [List.map_singleton, List.sum_singleton] at alone

/-- Three calls of two shapes. -/
theorem trackAll_answers_saved :
    let ledger := ({} : Ledger).trackAll [⟨"save", ["1"]⟩, ⟨"load", []⟩, ⟨"save", ["1"]⟩]
    ledger.count ⟨"save", ["1"]⟩ = 2 ∧ ledger.total = 3 ∧
      ledger.check ⟨"save", ["2"]⟩ 1 = .error ⟨⟨"save", ["2"]⟩, 1, 0⟩ := by
  obtain ⟨counts, total, _⟩ :=
    trackAll_answers [⟨"save", ["1"]⟩, ⟨"load", []⟩, ⟨"save", ["1"]⟩] (by decide)
  exact ⟨(counts "save" ["1"]).1, total, ((counts "save" ["2"]).2 1).2 (by decide)⟩

end TestDouble.Run.Ledger
