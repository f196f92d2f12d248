import Mathlib
import TestDouble.Proofs.Source.Fitting
import TestDouble.Source.Parse
/-!
# What readers keep

What is still to be read is *raw*: sound, and nothing but tokens and groups. A reader *reads* results of a kind if, on raw
trees, it takes no others and leaves raw trees. This is a triple about the reader, so that a rule of the grammar
is checked by running through its steps, each of which has such a triple of its own.
-/

open Std.Do

set_option mvcgen.warning false

namespace TestDouble.Parse

abbrev Reads {α : Type} (p : Parse α) (good : α → Prop) : Prop :=
  ⦃fun input => ⌜Tree.Raw input⌝⦄ p
  ⦃⇓? result after => ⌜good result ∧ Tree.Raw after⌝⦄

abbrev Peeks {α : Type} (p : Parse α) : Prop := Reads p fun _ => True

abbrev ReadsTree (p : Parse Tree) : Prop := Reads p fun tree => tree.sound = true

abbrev ReadsTrees (p : Parse (List Tree)) : Prop := Reads p fun trees => Tree.soundAll trees = true

section
variable {α β : Type} {p : Parse α} {good : α → Prop}

/-- A triple about a reader speaks of its results only; a failure satisfies it. -/
theorem triple_iff {before : List Tree → Prop} {after : α → List Tree → Prop} :
    ⦃fun input => ⌜before input⌝⦄ p ⦃⇓? result rest => ⌜after result rest⌝⦄ ↔
      ∀ input result rest, before input → p input = some (result, rest) → after result rest := by
  have same : ∀ found : Option (α × List Tree),
      ((wp found).apply (fun pair => ⌜after pair.1 pair.2⌝, ExceptConds.true)).down ↔
        ∀ result rest, found = some (result, rest) → after result rest := by
    intro found
    cases found with
    | none => exact ⟨fun _ _ _ eq => absurd eq (by simp), fun _ => trivial⟩
    | some pair => exact ⟨fun holds _ _ eq => by cases eq; exact holds, fun holds => holds pair.1 pair.2 rfl⟩
  constructor
  · intro triple input result rest holds eq
    exact (same (p input)).mp (triple input holds) result rest eq
  · intro results input holds
    exact (same (p input)).mpr fun result rest eq => results input result rest holds eq

theorem reads_iff :
    Reads p good ↔ ∀ input result after, Tree.Raw input → p input = some (result, after) → good result ∧ Tree.Raw after :=
  triple_iff

theorem Reads.mono {better : α → Prop} (reads : Reads p good) (weaker : ∀ result, good result → better result) :
    Reads p better := by
  rw [reads_iff] at reads ⊢
  intro input result after formed eq
  exact ⟨weaker result (reads input result after formed eq).1, (reads input result after formed eq).2⟩

theorem Reads.bind {next : α → Parse β} {better : β → Prop} (reads : Reads p good)
    (more : ∀ result, good result → Reads (next result) better) : Reads (p >>= next) better := by
  mvcgen [reads, more]
  all_goals simp_all

theorem Reads.ite {condition : Prop} [Decidable condition] {other : Parse α} (first : Reads p good)
    (second : Reads other good) : Reads (if condition then p else other) good := by
  split
  · exact first
  · exact second

@[spec] theorem fail_reads : Reads (fail : Parse α) fun _ => False := by
  rw [reads_iff]
  intro input result after _ eq
  cases eq

@[spec] theorem rest_reads : Reads rest Tree.Raw := by
  refine reads_iff.mpr ?_
  intro input result after formed eq
  cases eq
  exact ⟨formed, formed⟩

@[spec] theorem wouldSucceed_reads : Peeks (wouldSucceed p) := by
  refine reads_iff.mpr ?_
  intro input result after formed eq
  cases eq
  exact ⟨trivial, formed⟩

theorem maybe_reads (reads : Reads p good) :
    Reads (maybe p) fun found => ∀ result, found = some result → good result := by
  rw [reads_iff] at reads ⊢
  intro input found after formed eq
  unfold maybe at eq
  split at eq
  · rename_i result rest read
    cases eq
    have kept := reads input result after formed read
    exact ⟨fun _ same => by cases same; exact kept.1, kept.2⟩
  · cases eq
    exact ⟨by simp, formed⟩

@[spec] theorem require_reads {condition : Bool} : Reads (require condition) fun _ => condition = true := by
  mvcgen [require]
  simp_all

/-! ### Peeking and taking -/

@[spec] theorem atEnd_reads : Peeks atEnd := by
  mvcgen [atEnd]
  simp_all

@[spec] theorem seesAt_reads {skip : Nat} {sight : Sight} : Peeks (seesAt skip sight) := by
  mvcgen [seesAt]
  simp_all

@[spec] theorem peek_reads {sight : Sight} : Peeks (peek sight) := seesAt_reads

@[spec] theorem peekKeyword_reads {text : String} : Peeks (peekKeyword text) := seesAt_reads

@[spec] theorem peekOp_reads {text : String} : Peeks (peekOp text) := seesAt_reads

@[spec] theorem peekAny_reads {sights : List Sight} : Peeks (peekAny sights) := by
  mvcgen [peekAny]
  simp_all

@[spec] theorem peekKeywords_reads {texts : List String} : Peeks (peekKeywords texts) := by
  mvcgen [peekKeywords]
  simp_all

@[spec] theorem takeIf_reads {condition : Tree → Bool} :
    Reads (takeIf condition) fun tree => (tree.sound = true ∧ tree.isRaw = true) ∧ condition tree = true := by
  rw [reads_iff]
  intro input tree after formed eq
  unfold takeIf at eq
  split at eq
  · split at eq
    · rename_i holds
      cases eq
      have both := Tree.raw_cons.mp formed
      exact ⟨⟨both.1, holds⟩, both.2⟩
    · cases eq
  · cases eq

@[spec] theorem keyword_reads {text : String} :
    Reads (keyword text) fun tree => tree.sound = true ∧ isKeyword text tree = true ∧ tree.ident?.isSome = true :=
  takeIf_reads.mono fun _ ⟨formed, holds⟩ => ⟨formed.1, holds, Tree.ident_of_isKeyword holds⟩

@[spec] theorem name_reads :
    Reads name fun tree => tree.sound = true ∧ isName tree = true ∧ tree.ident?.isSome = true :=
  takeIf_reads.mono fun _ ⟨formed, holds⟩ => ⟨formed.1, holds, Tree.ident_of_isName holds⟩

@[spec] theorem word_reads : Reads word fun tree => tree.sound = true ∧ tree.ident?.isSome = true :=
  takeIf_reads.mono fun _ ⟨formed, holds⟩ => ⟨formed.1, holds⟩

@[spec] theorem lifetime_reads : ReadsTree lifetime := by
  mvcgen [lifetime]
  simp_all [Tree.sound_eq, Tree.fits, Tree.joined, Kind.joins]

@[spec] theorem op_reads {text : String} : Reads (op text) fun tree => tree = Tree.punct text := by
  rw [reads_iff]
  intro input tree after formed eq
  unfold op at eq
  split at eq
  · cases eq
    exact ⟨rfl, Tree.raw_sublist (List.drop_sublist ..) formed⟩
  · cases eq

@[spec] theorem keyword?_reads {text : String} :
    Reads (keyword? text) fun tree => tree.sound = true ∧ tree.isPlain = true := by
  have read := maybe_reads (keyword_reads : Reads (keyword text) _)
  mvcgen [keyword?, read]
  rename_i found after kept
  cases found with
  | none => simp_all
  | some tree => simp_all

@[spec] theorem op?_reads {text : String} :
    Reads (op? text) fun tree =>
      tree.isMark = true ∧ (text ≠ "::" → tree.sound = true) ∧ (tree.isColons || tree.sound) = true := by
  have read := maybe_reads (op_reads : Reads (op text) _)
  mvcgen [op?, read]
  rename_i found after kept
  cases found with
  | none => simp_all
  | some tree => by_cases same : text = "::" <;> simp_all

@[spec] theorem ifSees_reads {sight : Sight} {p : Parse Tree} (reads : ReadsTree p) : ReadsTree (ifSees sight p) := by
  mvcgen [ifSees, reads]
  all_goals simp_all

@[spec] theorem maybe_takeIf_reads {condition : Tree → Bool} :
    Reads (maybe (takeIf condition)) fun found => ∀ tree, found = some tree → tree.sound = true :=
  maybe_reads (takeIf_reads.mono fun _ ⟨formed, _⟩ => formed.1)

theorem within_reads_of {delimiter : Delimiter} {p : Parse (List Tree)} {good : List Tree → Prop}
    (reads : Reads p fun trees => Tree.soundAll trees = true ∧ good trees) :
    Reads (within delimiter p) fun tree =>
      ∃ children, tree = .group delimiter children ∧ Tree.soundAll children = true ∧ good children := by
  rw [reads_iff] at reads ⊢
  intro input tree after formed eq
  unfold within at eq
  split at eq
  · rename_i d content rest
    have both := Tree.raw_cons.mp formed
    split at eq
    · split at eq
      · rename_i children found
        cases eq
        have kept := reads content children [] (Tree.raw_group.mp both.1) found
        exact ⟨⟨children, rfl, kept.1⟩, both.2⟩
      · cases eq
    · cases eq
  · cases eq

@[spec] theorem within_reads {delimiter : Delimiter} {p : Parse (List Tree)} (reads : ReadsTrees p) :
    Reads (within delimiter p) fun tree =>
      tree.sound = true ∧ tree.isGroup = true ∧ Tree.soundAll tree.children = true := by
  have both : Reads p fun trees => Tree.soundAll trees = true ∧ True :=
    reads.mono fun _ formed => ⟨formed, trivial⟩
  refine (within_reads_of both).mono ?_
  rintro _ ⟨children, rfl, formed, -⟩
  exact ⟨Tree.sound_group.mpr formed, rfl, formed⟩

/-- What stands in braces behind its inner attributes. -/
theorem body_reads {p : Parse (List Tree)}
    (reads : Reads p fun trees => Tree.soundAll trees = true ∧ (Tree.group .brace trees).isBody = true) :
    Reads (within .brace p) fun tree => tree.sound = true ∧ tree.isBody = true := by
  refine (within_reads_of reads).mono ?_
  rintro _ ⟨children, rfl, formed, body⟩
  exact ⟨Tree.sound_group.mpr formed, body⟩

@[spec] theorem maybe_within_reads {delimiter : Delimiter} {p : Parse (List Tree)} (reads : ReadsTrees p) :
    Reads (maybe (within delimiter p)) fun found => ∀ tree, found = some tree → tree.sound = true :=
  maybe_reads ((within_reads reads).mono fun _ ⟨formed, _⟩ => formed)

@[spec] theorem anyGroup_reads : Reads anyGroup fun tree => tree.sound = true ∧ tree.isRaw = true :=
  takeIf_reads.mono fun _ ⟨formed, _⟩ => formed

/-! ### Repeating -/

def Round.Keeps (keeps : β → Prop) (good : α → Prop) : Round β α → Prop
  | .again state => keeps state
  | .finish result => good result

theorem iterate_reads (keeps : β → Prop) (good : α → Prop) {step : β → Parse (Round β α)} {state : β}
    (start : keeps state) (round : ∀ state, keeps state → Reads (step state) (Round.Keeps keeps good)) :
    Reads (iterate state step) good := by
  have bounded : ∀ fuel state, keeps state → Reads (iterateWith step fuel state) good := by
    intro fuel
    induction fuel with
    | zero =>
        intro state _
        exact fail_reads.mono (fun _ absurd => absurd.elim)
    | succ fuel ih =>
        intro state kept
        have next := round state kept
        mvcgen [iterateWith, next, ih]
        all_goals simp_all [Round.Keeps]
  rw [reads_iff]
  intro input result after formed eq
  exact reads_iff.mp (bounded _ state start) input result after formed eq

@[spec] theorem iterate_reads_tree {step : Tree → Parse (Round Tree Tree)} {state : Tree}
    (start : state.sound = true)
    (round : ∀ state, state.sound = true →
      Reads (step state) (Round.Keeps (·.sound = true) (·.sound = true))) :
    ReadsTree (iterate state step) := iterate_reads (·.sound = true) _ start round

/-- That parts of a path, the last one first, do not end with `::`. -/
def PathFound (found : List Tree) : Prop :=
  Tree.partsAll found = true ∧ Tree.isPath found = true ∧ Tree.flows false found.reverse = true

def PathParts (parts : List Tree) : Prop :=
  Tree.partsAll parts = true ∧ Tree.isPath parts = true ∧ Tree.flows false parts = true

theorem iterate_reads_path {step : List Tree → Parse (Round (List Tree) (List Tree))} {state : List Tree}
    (start : PathFound state)
    (round : ∀ state, PathFound state → Reads (step state) (Round.Keeps PathFound PathParts)) :
    Reads (iterate state step) PathParts :=
  iterate_reads _ _ start round

/-- That parts are those of a plain path from its first segment on. -/
def PathSegments (parts : List Tree) : Prop :=
  Tree.partsAll parts = true ∧ Tree.isPath parts = true ∧ Tree.isStillAll parts = true ∧
    Tree.flows true parts = true ∧ Tree.headIs (fun part => part.kind? == some .segment) parts = true

/-- That parts of a plain path, the last one first, may be followed by a segment. -/
def PathOpen (found : List Tree) : Prop :=
  Tree.partsAll found = true ∧ Tree.isPath found = true ∧ Tree.isStillAll found = true ∧
    Tree.flows true (found.reverse ++ [.node .segment []]) = true ∧
    Tree.headIs (fun part => part.kind? == some .segment) (found.reverse ++ [.node .segment []]) = true

theorem iterate_reads_segments {step : List Tree → Parse (Round (List Tree) (List Tree))} {state : List Tree}
    (start : PathOpen state)
    (round : ∀ state, PathOpen state → Reads (step state) (Round.Keeps PathOpen PathSegments)) :
    Reads (iterate state step) PathSegments :=
  iterate_reads _ _ start round

@[spec] theorem iterate_reads_trees {step : List Tree → Parse (Round (List Tree) (List Tree))} {state : List Tree}
    (start : Tree.soundAll state = true)
    (round : ∀ state, Tree.soundAll state = true →
      Reads (step state) (Round.Keeps (Tree.soundAll · = true) (Tree.soundAll · = true))) :
    ReadsTrees (iterate state step) := iterate_reads (Tree.soundAll · = true) _ start round

@[spec] theorem untilEnd_reads {p : Parse Tree} (reads : ReadsTree p) : ReadsTrees (untilEnd p) := by
  mvcgen [untilEnd, reads]
  all_goals simp_all [Round.Keeps]

@[spec] theorem whileHolds_reads {condition : Parse Bool} {p : Parse Tree} (holds : Peeks condition)
    (reads : ReadsTree p) : ReadsTrees (whileHolds condition p) := by
  mvcgen [whileHolds, holds, reads]
  all_goals simp_all [Round.Keeps]

@[spec] theorem separated_reads {separator : String} {stop : Parse Bool} {p : Parse Tree}
    (apart : separator ≠ "::") (stops : Peeks stop) (reads : ReadsTree p) : ReadsTrees (separated separator stop p) := by
  mvcgen [separated, stops, reads]
  all_goals simp_all [Round.Keeps]

@[spec] theorem commaList_reads {p : Parse Tree} (reads : ReadsTree p) : ReadsTrees (commaList p) :=
  separated_reads (by decide) atEnd_reads reads

@[spec] theorem chained_reads {separator : String} {stop : Parse Bool} {p : Parse Tree}
    (apart : separator ≠ "::") (stops : Peeks stop) (reads : ReadsTree p) : ReadsTrees (chained separator stop p) := by
  mvcgen [chained, stops, reads]
  all_goals simp_all [Round.Keeps]

/-! ### A word that was seen -/

theorem peekKeyword_sees {text : String} :
    ⦃fun input => ⌜Tree.Raw input⌝⦄ peekKeyword text
    ⦃⇓? seen rest => ⌜(seen = true → (rest.head?.map (isKeyword text)).getD false = true) ∧ Tree.Raw rest⌝⦄ := by
  rw [triple_iff]
  intro input seen rest formed eq
  cases eq
  exact ⟨id, formed⟩

theorem word_seen {text : String} :
    ⦃fun input => ⌜(input.head?.map (isKeyword text)).getD false = true ∧ Tree.Raw input⌝⦄ word
    ⦃⇓? own rest => ⌜(own.sound = true ∧ isKeyword text own = true) ∧ Tree.Raw rest⌝⦄ := by
  rw [triple_iff]
  rintro input own rest ⟨seen, formed⟩ eq
  have read := reads_iff.mp word_reads input own rest formed eq
  unfold word takeIf at eq
  split at eq
  · split at eq
    · cases eq
      exact ⟨⟨read.1.1, by simpa using seen⟩, read.2⟩
    · cases eq
  · cases eq

end

end TestDouble.Parse
