import TestDouble.Proofs.Source.Children
import TestDouble.Proofs.Source.Sound
/-!
# Computing soundness

Whether a tree is sound is computed from its parts. The lemmas follow the ways in which trees are built.
-/

namespace TestDouble

namespace Tree

variable {trees left right : List Tree}

@[simp] theorem soundAll_append :
    soundAll (left ++ right) = (soundAll left && soundAll right) := by
  simp [soundAll_eq_all]

@[simp] theorem soundAll_reverse : soundAll trees.reverse = soundAll trees := by
  simp [soundAll_eq_all]

theorem soundAll_sublist (below : left.Sublist right) (formed : soundAll right = true) :
    soundAll left = true := by
  rw [soundAll_eq_all, List.all_eq_true] at formed ⊢
  exact fun tree member => formed tree (below.subset member)

@[simp] theorem soundAll_nil : soundAll [] = true := rfl

@[simp] theorem soundAll_cons {tree : Tree} :
    soundAll (tree :: trees) = (tree.sound && soundAll trees) := rfl

@[simp] theorem isColons_punct {text : String} : (punct text).isColons = (text == "::") := rfl

@[simp] theorem sound_punct {text : String} : (punct text).sound = (text != "::") := rfl

@[simp] theorem isColons_node {kind : Kind} : (node kind trees).isColons = false := rfl

@[simp] theorem isColons_absent : absent.isColons = false := rfl

@[simp] theorem isColons_of_sound {tree : Tree} (sound : tree.sound = true) : tree.isColons = false := by
  cases tree with
  | token t =>
      rw [Tree.sound, Bool.and_eq_true] at sound
      simpa using sound.2
  | node kind children => rfl

@[simp] theorem sound_absent : absent.sound = true := rfl

@[simp] theorem isPlain_punct {text : String} : (punct text).isPlain = true := rfl

@[simp] theorem isPlain_absent : absent.isPlain = true := rfl

@[simp] theorem isMark_punct {text : String} : (punct text).isMark = true := rfl

@[simp] theorem isMark_absent : absent.isMark = true := rfl

@[simp] theorem sound_group {delimiter : Delimiter} :
    (group delimiter trees).sound = true ↔ soundAll trees = true := by
  simp [group, sound, fits, joined, Kind.joins]

/-! ### What stands behind what -/

@[simp] theorem partsAll_nil : partsAll [] = true := rfl

@[simp] theorem partsAll_cons {tree : Tree} :
    partsAll (tree :: trees) = ((tree.isColons || tree.sound) && partsAll trees) := rfl

@[simp] theorem partsAll_append : partsAll (left ++ right) = (partsAll left && partsAll right) := by
  simp [partsAll_eq_all]

@[simp] theorem partsAll_reverse : partsAll trees.reverse = partsAll trees := by
  simp [partsAll_eq_all]

@[simp] theorem partsAll_of_soundAll (sound : soundAll trees = true) : partsAll trees = true := by
  rw [soundAll_eq_all, List.all_eq_true] at sound
  rw [partsAll_eq_all, List.all_eq_true]
  exact fun tree member => by rw [sound tree member, Bool.or_true]

@[simp] theorem noColons_nil : noColons [] = true := rfl

@[simp] theorem noColons_cons {tree : Tree} : noColons (tree :: trees) = (!tree.isColons && noColons trees) := rfl

theorem noColons_eq_all : noColons trees = trees.all fun tree => !tree.isColons := by
  induction trees with
  | nil => rfl
  | cons first rest ih => simp [ih]

@[simp] theorem noColons_append : noColons (left ++ right) = (noColons left && noColons right) := by
  simp [noColons_eq_all]

@[simp] theorem noColons_of_soundAll (sound : soundAll trees = true) : noColons trees = true := by
  rw [soundAll_eq_all, List.all_eq_true] at sound
  rw [noColons_eq_all, List.all_eq_true]
  exact fun tree member => by simp [sound tree member]

@[simp] theorem flows_nil {behind : Bool} : flows behind [] = !behind := rfl

@[simp] theorem flows_cons {behind : Bool} {tree : Tree} :
    flows behind (tree :: trees) = ((!behind || tree.opens) && flows tree.isColons trees) := rfl

@[simp] theorem flows_of_noColons (none : noColons trees = true) : flows false trees = true := by
  induction trees with
  | nil => rfl
  | cons first rest ih =>
      rw [noColons_cons, Bool.and_eq_true, Bool.not_eq_true'] at none
      rw [flows_cons, none.1, ih none.2]
      rfl

/-- What ends a node has nothing to say about what follows. -/
@[simp] theorem flows_append {behind : Bool} (first : flows behind left = true) :
    flows behind (left ++ right) = flows false right := by
  induction left generalizing behind with
  | nil =>
      rw [flows_nil, Bool.not_eq_true'] at first
      rw [first]
      rfl
  | cons tree rest ih =>
      rw [flows_cons, Bool.and_eq_true] at first
      rw [List.cons_append, flows_cons, first.1, ih first.2, Bool.true_and]

@[simp] theorem flows_append_cons {behind : Bool} {tree next : Tree} (apart : tree.isColons = false) :
    flows behind (left ++ tree :: next :: right) = (flows behind (left ++ [tree]) && flows false (next :: right)) := by
  induction left generalizing behind with
  | nil => simp [apart]
  | cons first rest ih => simp only [List.cons_append, flows_cons, ih, Bool.and_assoc]

/-- What stands last in a segment plays no part in how the segment follows other trees. -/
@[simp] theorem flows_segment {behind : Bool} {own : Tree} :
    flows behind (left ++ [node .segment (own :: right)]) = flows behind (left ++ [node .segment []]) := by
  induction left generalizing behind with
  | nil => rfl
  | cons first rest ih => simp only [List.cons_append, flows_cons, ih]

@[simp] theorem headIs_segment {own : Tree} :
    headIs (fun part => part.kind? == some .segment) (left ++ [node .segment (own :: right)]) =
      headIs (fun part => part.kind? == some .segment) (left ++ [node .segment []]) := by
  cases left <;> rfl

@[simp] theorem headIs_tail_segment {own : Tree} :
    headIs (fun part => part.kind? == some .segment) (left ++ [node .segment (own :: right)]).tail =
      headIs (fun part => part.kind? == some .segment) (left ++ [node .segment []]).tail := by
  cases left <;> simp

@[simp] theorem headIs_tail_append {property : Tree → Bool} (found : headIs property left.tail = true) :
    headIs property (left ++ right).tail = true := by
  cases left with
  | nil => cases found
  | cons first rest =>
      cases rest with
      | nil => cases found
      | cons second more => exact found

@[simp] theorem flows_of_behind {behind : Bool} (flow : flows true trees = true) : flows behind trees = true := by
  cases behind with
  | true => exact flow
  | false =>
      cases trees with
      | nil => rfl
      | cons first rest =>
          rw [flows_cons, Bool.and_eq_true] at flow ⊢
          exact ⟨rfl, flow.2⟩

theorem flows_false {behind : Bool} (flow : flows behind trees = true) : flows false trees = true := by
  cases behind with
  | false => exact flow
  | true => exact flows_of_behind flow

@[simp] theorem opens_punct {text : String} : (punct text).opens = true := rfl

@[simp] theorem opens_node {kind : Kind} : (node kind trees).opens = kind.opens := rfl

@[simp] theorem opens_of_ident {tree : Tree} (word : tree.ident?.isSome = true) : tree.opens = true := by
  cases tree with
  | token t => rfl
  | node kind children => cases word

@[simp] theorem opens_of_isGroup {tree : Tree} (group : tree.isGroup = true) : tree.opens = true := by
  unfold isGroup at group
  split at group
  · rfl
  · cases group

@[simp] theorem opens_of_segment {tree : Tree} (segment : tree.kind? = some .segment) : tree.opens = true := by
  cases tree with
  | token t => cases segment
  | node kind children =>
      cases segment
      rfl

@[simp] theorem isColons_of_isGroup {tree : Tree} (group : tree.isGroup = true) : tree.isColons = false := by
  unfold isGroup at group
  split at group
  · rfl
  · cases group

/-! ### Without calls -/

@[simp] theorem isStillAll_nil : isStillAll [] = true := rfl

@[simp] theorem isStillAll_cons {tree : Tree} : isStillAll (tree :: trees) = (tree.isStill && isStillAll trees) := rfl

theorem isStillAll_eq_all : isStillAll trees = trees.all isStill := by
  induction trees with
  | nil => rfl
  | cons first rest ih => simp [ih]

@[simp] theorem isStillAll_append : isStillAll (left ++ right) = (isStillAll left && isStillAll right) := by
  simp [isStillAll_eq_all]

@[simp] theorem isStillAll_reverse : isStillAll trees.reverse = isStillAll trees := by
  simp [isStillAll_eq_all]

@[simp] theorem isStill_node {kind : Kind} :
    (node kind trees).isStill = (!([Kind.call, .methodCall, .arguments].contains kind) && isStillAll trees) := rfl

@[simp] theorem isStill_punct {text : String} : (punct text).isStill = true := rfl

@[simp] theorem isStill_absent : absent.isStill = true := rfl

@[simp] theorem isStill_of_isMark {tree : Tree} (mark : tree.isMark = true) : tree.isStill = true := by
  unfold isMark at mark
  split at mark
  · rfl
  · rfl
  · cases mark

@[simp] theorem isStill_of_ident {tree : Tree} (word : tree.ident?.isSome = true) : tree.isStill = true := by
  cases tree with
  | token t => rfl
  | node kind children => cases word

/-! ### Unread trees -/

@[simp] theorem isRawAll_nil : isRawAll [] = true := rfl

@[simp] theorem isRawAll_cons {tree : Tree} : isRawAll (tree :: trees) = (tree.isRaw && isRawAll trees) := rfl

theorem isRawAll_eq_all : isRawAll trees = trees.all isRaw := by
  induction trees with
  | nil => rfl
  | cons first rest ih => simp [ih]

@[simp] theorem isRawAll_append : isRawAll (left ++ right) = (isRawAll left && isRawAll right) := by
  simp [isRawAll_eq_all]

@[simp] theorem isRawAll_tokens {tokens : List Token} : isRawAll (tokens.map .token) = true := by
  simp [isRawAll_eq_all, isRaw]

@[simp] theorem isRaw_group {delimiter : Delimiter} : (group delimiter trees).isRaw = isRawAll trees := rfl

@[simp] theorem isRaw_token {t : Token} : (Tree.token t).isRaw = true := rfl

@[simp] theorem isRaw_attributes : (node .attributes trees).isRaw = false := rfl

/-- That trees can be read from: they are sound, and nothing but tokens and groups. -/
def Raw (trees : List Tree) : Prop := soundAll trees = true ∧ isRawAll trees = true

@[simp] theorem raw_nil : Raw [] := ⟨rfl, rfl⟩

@[simp] theorem raw_cons {tree : Tree} {rest : List Tree} :
    Raw (tree :: rest) ↔ (tree.sound = true ∧ tree.isRaw = true) ∧ Raw rest := by
  unfold Raw
  rw [soundAll_cons, isRawAll_cons, Bool.and_eq_true, Bool.and_eq_true]
  exact and_and_and_comm

theorem raw_sublist {left right : List Tree} (below : left.Sublist right) (raw : Raw right) : Raw left := by
  unfold Raw at raw ⊢
  rw [soundAll_eq_all, isRawAll_eq_all, List.all_eq_true, List.all_eq_true] at raw ⊢
  exact ⟨fun tree member => raw.1 tree (below.subset member), fun tree member => raw.2 tree (below.subset member)⟩

@[simp] theorem raw_reverse : Raw trees.reverse ↔ Raw trees := by
  simp [Raw, isRawAll_eq_all]

theorem raw_group {delimiter : Delimiter} {trees : List Tree} :
    ((group delimiter trees).sound = true ∧ (group delimiter trees).isRaw = true) ↔ Raw trees := by
  rw [sound_group, isRaw_group]
  exact Iff.rfl

/-! ### The children of one kind -/

@[simp] theorem headIs_cons {property : Tree → Bool} {tree : Tree} :
    headIs property (tree :: trees) = property tree := rfl

@[simp] theorem headIs_append_cons {property : Tree → Bool} {tree next : Tree} :
    headIs property (left ++ tree :: next :: right) = headIs property (left ++ [tree]) := by
  cases left <;> rfl

@[simp] theorem isBracketed_cons {lead opening : Tree} :
    isBracketed (lead :: opening :: trees) = (opening.opens && noColons (opening :: trees)) := rfl

@[simp] theorem isParenthesized_parts {lead inputs result : Tree} :
    isParenthesized [lead, inputs, result] = (lead.isMark && inputs.isGroup && !result.isColons) := rfl

@[simp] theorem isEnclosed_ends {opening close : Tree} :
    isEnclosed (opening :: (trees ++ [close])) = (opening.isMark && close.isMark) := by
  simp [isEnclosed]

@[simp] theorem isPlain_of_ident {tree : Tree} (word : tree.ident?.isSome = true) : tree.isPlain = true := by
  cases tree with
  | token t => rfl
  | node kind children => cases word

@[simp] theorem isPlain_of_isMark {tree : Tree} (mark : tree.isMark = true) : tree.isPlain = true := by
  unfold isMark at mark
  split at mark
  · rfl
  · rfl
  · cases mark

theorem ident_of_isName {tree : Tree} (named : Parse.isName tree = true) : tree.ident?.isSome = true := by
  unfold Parse.isName at named
  split at named
  · rfl
  · cases named

theorem ident_of_isKeyword {text : String} {tree : Tree} (keyword : Parse.isKeyword text tree = true) :
    tree.ident?.isSome = true := by
  unfold Parse.isKeyword at keyword
  split at keyword
  · rfl
  · cases keyword

@[simp] theorem isPath_nil : isPath [] = true := rfl

@[simp] theorem isPath_cons {tree : Tree} :
    isPath (tree :: trees) = ((tree.isPlain || tree.kind? == some .segment) && isPath trees) := rfl

@[simp] theorem isPath_append : isPath (left ++ right) = (isPath left && isPath right) := List.all_append

@[simp] theorem isPath_reverse : isPath trees.reverse = isPath trees := List.all_reverse

@[simp] theorem isSegment_word {own : Tree} : isSegment [own] = own.ident?.isSome := by
  unfold isSegment ident?
  grind

@[simp] theorem sound_node_path :
    (node .path trees).sound = (isPath trees && joined .path trees && partsAll trees) := rfl

@[simp] theorem sound_node_segment :
    (node .segment trees).sound = (isSegment trees && soundAll trees) := by
  simp [sound, fits, joined, Kind.joins]

@[simp] theorem sound_node_arguments :
    (node .genericArguments trees).sound =
      (isArguments trees && joined .genericArguments trees && partsAll trees) := rfl

@[simp] theorem isSegment_pair {own arguments : Tree} : isSegment [own, arguments] =
    (own.ident?.isSome &&
      (arguments.kind? == some .genericArguments || arguments.kind? == some .callArguments)) := by
  unfold isSegment ident? kind?
  grind

@[simp] theorem isArguments_enclosed {lead opening close : Tree} :
    isArguments (lead :: opening :: (trees ++ [close])) = (lead.isPlain && opening.isPlain && close.isPlain) := by
  simp [isArguments]

theorem ident_of_isSegment {own : Tree} (segment : isSegment (own :: trees) = true) : own.ident?.isSome = true := by
  obtain ⟨name, rest, same⟩ := isSegment_shape segment
  cases same
  rfl

@[simp] theorem children_node {kind : Kind} : (node kind trees).children = trees := rfl

@[simp] theorem sound_getD {found : Option Tree} (kept : ∀ tree, found = some tree → tree.sound = true) :
    (found.getD absent).sound = true := by
  cases found with
  | none => rfl
  | some tree => exact kept tree rfl

@[simp] theorem isColons_getD {found : Option Tree} (kept : ∀ tree, found = some tree → tree.sound = true) :
    (found.getD absent).isColons = false :=
  isColons_of_sound (sound_getD kept)

@[simp] theorem isStill_getD {found : Option Tree} (kept : ∀ tree, found = some tree → tree.isStill = true) :
    (found.getD absent).isStill = true := by
  cases found with
  | none => rfl
  | some tree => exact kept tree rfl

theorem partsAll_children {tree : Tree} (sound : tree.sound = true) : partsAll tree.children = true := by
  cases tree with
  | token t => rfl
  | node kind children =>
      have below := (Bool.and_eq_true_iff.mp sound).2
      split at below
      · exact below
      · exact partsAll_of_soundAll below

theorem soundAll_children {tree : Tree} {kind : Kind} (sound : tree.sound = true) (same : tree.kind? = some kind)
    (apart : kind.joins = false) : soundAll tree.children = true := by
  cases tree with
  | token t => rfl
  | node own children =>
      cases same
      have below := (Bool.and_eq_true_iff.mp sound).2
      rwa [if_neg (by simp [apart])] at below

theorem sound_eq {kind : Kind} :
    (node kind trees).sound =
      (fits kind trees && joined kind trees && if kind.joins then partsAll trees else soundAll trees) := rfl

@[simp] theorem isFunction_parts {attributes visibility signature body : Tree} :
    isFunction [attributes, visibility, signature, body] =
      (attributes.kind? == some .attributes && signature.kind? == some .signature && body.isBody) := by
  unfold isFunction kind?
  grind

@[simp] theorem isMethod_parts {attributes visibility early signature body : Tree} :
    isMethod [attributes, visibility, early, signature, body] = (signature.kind? == some .signature) := by
  unfold isMethod kind?
  grind

@[simp] theorem isBody_cons {tree : Tree} :
    (group .brace (tree :: trees)).isBody = (tree.kind? == some .attributes) := by
  unfold isBody group kind?
  grind

@[simp] theorem isPunct_punct {text : String} : (punct text).isPunct text = true := by
  simp [isPunct, punct]

@[simp] theorem isDeclared_of_isName {tree : Tree} (named : Parse.isName tree = true) : tree.isDeclared = true := by
  simp [isDeclared, named]

@[simp] theorem namesAt_zero {tree : Tree} : namesAt 0 (tree :: trees) = tree.isDeclared := rfl

@[simp] theorem namesAt_cons {position : Nat} {tree : Tree} :
    namesAt (position + 1) (tree :: trees) = namesAt position trees := rfl

@[simp] theorem namesAt_append {position : Nat} (named : namesAt position left = true) :
    namesAt position (left ++ right) = true := by
  unfold namesAt at named ⊢
  grind

@[simp high] theorem sound_ite {condition : Prop} [Decidable condition] {kind other : Kind} :
    (node (if condition then kind else other) trees).sound =
      if condition then (node kind trees).sound else (node other trees).sound := by
  split <;> rfl

@[simp] theorem kind?_node {kind : Kind} : (node kind trees).kind? = some kind := rfl

end Tree

end TestDouble
