import TestDouble.Proofs.Source.Rules.Item
import TestDouble.Proofs.Source.Scanning
import TestDouble.Source.Grammar
/-!
# What is read is sound

Each level of the grammar reads sound trees if the level below does, and so all of them do. With the
tokens of a text this makes every tree that is read from source sound.
-/

namespace TestDouble

namespace Grammar
open Parse

theorem sound_fail : Sound (bounded 0) :=
  have nothing {good : Tree → Prop} : Reads (fail : Parse Tree) good := fail_reads.mono fun _ absurd => absurd.elim
  { path := fun _ => nothing
    type := fun _ => nothing
    pattern := nothing
    expr := fun _ => nothing
    unary := fun _ => nothing
    climb := fun _ _ _ _ => nothing
    ifExpr := nothing
    early := nothing
    block := fun _ => nothing
    item := nothing
    useTree := fun _ => nothing
    parameter := nothing
    field := nothing }

theorem sound_step {g : Grammar} [Sound g] : Sound (step g) where
  path _ := pathRule_reads
  type _ := typeRule_reads
  pattern := patternRule_reads
  expr _ := exprRule_reads
  unary _ := unaryRule_reads
  climb _ _ _ formed := climbRule_reads formed
  ifExpr := ifRule_reads
  early := earlyRule_reads
  block _ := blockRule_reads
  item := itemRule_reads
  useTree _ := useTreeRule_reads
  parameter := parameterRule_reads
  field := fieldRule_reads

instance sound_bounded (level : Nat) : Sound (bounded level) := by
  induction level with
  | zero => exact sound_fail
  | succ level ih => exact sound_step

/-- A text that reads by a rule which reads sound trees reads as one. -/
theorem sound_readText {text : String} {rule : Grammar → Parse Tree} {tree : Tree}
    (reads : ∀ g, [Sound g] → ReadsTree (rule g)) (read : readText text rule = some tree) :
    tree.sound = true := by
  unfold readText at read
  obtain ⟨trees, scanned, found⟩ := Option.bind_eq_some_iff.mp read
  unfold readAll complete at found
  split at found
  · rename_i result taken
    cases found
    have raw := Lexer.raw_readTrees scanned
    have kept : ReadsTree (rule (forTrees trees)) := @reads _ (sound_bounded _)
    exact (reads_iff.mp kept trees tree [] raw taken).1
  · cases found

end Grammar

namespace Tree
open Grammar Parse

theorem sound_readModule {text : String} {tree : Tree} (read : readModule text = some tree) :
    tree.sound = true := by
  refine sound_readText (fun g formed => ?_) read
  exact Reads.bind outerAttributes_reads fun attrs given => itemMod_reads given.1

theorem wellFormed_readModule {text : String} {tree : Tree} (read : readModule text = some tree) :
    tree.wellFormed = true :=
  wellFormed_of_sound (sound_readModule read)

end Tree

end TestDouble
