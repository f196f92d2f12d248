import TestDouble.Proofs.Site.Binding
import TestDouble.Proofs.Source.Canonical
/-!
# What a creation site calls, before and after

Before binding, a creation site names the dispatcher where nothing stands before it. After binding, every name
of the path that is called stands behind `::`, apart from the word with which the path starts.
-/

namespace TestDouble

/-- The names that settings ask the search to look for. -/
def Settings.owns (settings : Settings) (name : String) : Bool :=
  name == settings.dispatcher || name == settings.returns

/-- That settings look for no word of the language. -/
structure Settings.Apart (settings : Settings) : Prop where
  blank : settings.owns "_" = false
  condition : settings.owns "where" = false
  here : settings.owns "self" = false
  above : settings.owns "super" = false

namespace Tree
open Token

variable {own : String → Bool} {behind : Bool}

/-! ### The path of a bound site -/

/-- Segments with these names and a last one, separated by `::`. -/
def joinedSegments (names : List String) (last : Tree) : List Tree :=
  (names.map (fun name => node .segment [ident name]) ++ [last]).intersperse (punct "::")

theorem joinedSegments_cons (name : String) (names : List String) (last : Tree) :
    joinedSegments (name :: names) last = node .segment [ident name] :: punct "::" :: joinedSegments names last :=
  intersperse_cons (by simp)

section
variable {last : Tree} (opened : last.opens = true) (apart : last.isColons = false)
include opened apart

theorem flows_joinedSegments (names : List String) : flows behind (joinedSegments names last) = true := by
  induction names generalizing behind with
  | nil =>
      show flows behind [last] = true
      rw [flows_cons, opened, apart, Bool.or_true]
      rfl
  | cons name rest ih =>
      rw [joinedSegments_cons, flows_cons, flows_cons, ih]
      simp [Kind.opens, Kind.leads]

theorem heads_joinedSegments (fluent : last.Fluent) (names : List String) :
    heads own true (tokensAll (joinedSegments names last)) = heads own true last.tokens := by
  induction names with
  | nil =>
      show heads own true (tokensAll [last]) = _
      rw [heads_tokensAll_cons fluent (by simp [opened, apart])]
      rfl
  | cons name rest ih =>
      rw [joinedSegments_cons, ← ih]
      simp [tokensAll, tokens, ident, punct, heads, Token.isColons, counted]

omit opened apart in
theorem fluent_joinedSegments (fluent : last.Fluent) (names : List String) :
    ∀ part ∈ joinedSegments names last, part.Fluent := by
  induction names with
  | nil => exact List.forall_mem_singleton.mpr fluent
  | cons name rest ih =>
      rw [joinedSegments_cons]
      refine List.forall_mem_cons.mpr ⟨?_, List.forall_mem_cons.mpr ⟨.token _, ih⟩⟩
      exact .node rfl (List.forall_mem_singleton.mpr (.token _))

/-- A path with names of which the first is none of those counted. -/
theorem weight_joinedSegments (fluent : last.Fluent) {name : String} (start : own name = false)
    (names : List String) : weight own (.node .path (absent :: joinedSegments (name :: names) last)) =
      heads own true last.tokens := by
  rw [weight, tokens_node (by simp), ← heads_joinedSegments opened apart fluent names, joinedSegments_cons]
  simp [tokensAll, tokens, absent, ident, punct, heads, Token.isColons, counted, start]

end

theorem normal_joinedSegments (names : List String) (last : Tree) :
    (joinedSegments names last).map normal = joinedSegments names last.normal := by
  rw [joinedSegments, map_intersperse, List.map_append, List.map_map]
  rfl

/-! ### The path of a site -/

theorem heads_member {trees : List Tree} {tree : Tree} (fluent : ∀ tree ∈ trees, tree.Fluent)
    (flow : flows behind trees = true) (member : tree ∈ trees) :
    heads own true tree.tokens ≤ heads own behind (tokensAll trees) := by
  induction trees generalizing behind with
  | nil => cases member
  | cons first rest ih =>
      obtain ⟨head, later⟩ := List.forall_mem_cons.mp fluent
      rw [heads_tokensAll_cons head flow]
      rcases List.mem_cons.mp member with rfl | inside
      · exact Nat.le_trans heads_behind_le (Nat.le_add_right _ _)
      · exact Nat.le_trans (ih later (flows_tail flow) inside) (Nat.le_add_left _ _)

/-- A segment with one of the names has it where nothing stands before the segment. -/
theorem heads_segment {segment : Tree} (sound : segment.sound = true) (kind : segment.kind? = some .segment)
    (named : own segment.segmentName = true) : 1 ≤ heads own false segment.normal.tokens := by
  cases segment with
  | token t => cases kind
  | node kind children =>
      cases kind
      have shape : isSegment children = true := (sound_parts sound).1
      obtain ⟨name, rest, rfl⟩ := isSegment_shape shape
      have counted : own name = true := named
      rw [normal_node (by decide) (by decide)]
      show 1 ≤ heads own false (tokensAll (.token (.ident name) :: rest.map normal))
      simp [tokensAll, tokens, heads, Token.counted, counted]

theorem sound_segment {children : List Tree} {segment : Tree} (sound : (node .path children).sound = true)
    (member : segment ∈ children) (kind : segment.kind? = some .segment) : segment.sound = true := by
  rcases (sound_parts sound).2.2 segment member with inside | ⟨-, colons⟩
  · exact inside
  · obtain ⟨joint, rfl⟩ := tokens_of_isColons colons
    cases kind

theorem sound_called {attributes own arguments : Tree} {children : List Tree}
    (sound : (node .call [attributes, node .pathExpr [own, node .path children], arguments]).sound = true) :
    attributes.sound = true ∧ (node .pathExpr [own, node .path children]).sound = true ∧
      (node .path children).sound = true := by
  have parts := soundAll_children sound rfl rfl
  simp only [children_node, soundAll_cons, soundAll_nil, Bool.and_eq_true] at parts
  obtain ⟨outer, called, -, -⟩ := parts
  have inner := soundAll_children called rfl rfl
  simp only [children_node, soundAll_cons, Bool.and_eq_true] at inner
  exact ⟨outer, called, inner.2.1⟩

/-- The path of a site has one of the names before the last segment. -/
theorem weight_path {children : List Tree} {first last : Tree} (sound : (node .path children).sound = true)
    (blank : own "_" = false) (word : own "where" = false)
    (segments : (node .path children).segments = [first, last]) (start : (node .path children).isRootPath = false)
    (named : own first.segmentName = true) :
    heads own true last.normal.tokens < weight own (node .path (children.map normal)) := by
  obtain ⟨-, joint, below⟩ := sound_parts sound
  have each : ∀ child ∈ children, Below own child.normal child := fun child member => by
    rcases below child member with inside | ⟨-, colons⟩
    · exact normal_below blank word inside
    · obtain ⟨joint, rfl⟩ := tokens_of_isColons colons
      exact .refl (.token _)
  have fluent : ∀ part ∈ children.map normal, part.Fluent := List.forall_mem_map.mpr fun child member => (each child member).fluent
  have flow : flows false (children.map normal) = true :=
    ((arranged_of_sound sound).map fun child _ => normal_alike child).flow
  rw [weight, tokens_node (by simp)]
  obtain ⟨lead, second, rest, rfl, opens⟩ : ∃ lead second rest, children = lead :: second :: rest ∧
      second.kind? = some .segment := by
    have found := (Bool.and_eq_true_iff.mp joint).2
    rcases children with _ | ⟨lead, _ | ⟨second, rest⟩⟩
    · cases found
    · cases found
    · exact ⟨lead, second, rest, rfl, eq_of_beq found⟩
  have apart : lead.normal.isColons = false := (normal_alike lead).isColons.trans start
  have listed : (lead :: second :: rest).filter (fun part => part.kind? == some .segment) = [first, last] := segments
  have others : (second :: rest).filter (fun part => part.kind? == some .segment) =
      second :: rest.filter fun part => part.kind? == some .segment := List.filter_cons_of_pos (by simp [opens])
  simp only [List.map_cons] at flow fluent ⊢
  obtain ⟨fluentLead, fluentRest⟩ := List.forall_mem_cons.mp fluent
  obtain ⟨fluentSecond, fluentMore⟩ := List.forall_mem_cons.mp fluentRest
  rw [heads_tokensAll_cons fluentLead flow, apart, heads_tokensAll_cons fluentSecond (apart ▸ flows_tail flow)]
  by_cases leads : (lead.kind? == some .segment) = true
  · -- the path begins with its first segment
    rw [List.filter_cons, if_pos leads, others] at listed
    obtain ⟨rfl, rfl, -⟩ : lead = first ∧ second = last ∧ _ := by simpa using listed
    have counted := heads_segment (sound_segment sound (by simp) (eq_of_beq leads)) (eq_of_beq leads) named
    have shown : heads own true second.normal.tokens ≤ heads own false second.normal.tokens := heads_behind_le
    omega
  · rw [List.filter_cons, if_neg leads, others] at listed
    obtain ⟨rfl, ends⟩ := List.cons.inj listed
    have inside : last ∈ rest := (List.mem_filter.mp (ends ▸ List.mem_singleton_self last)).1
    have counted := heads_segment (sound_segment sound (by simp) opens) opens named
    have shown : heads own true last.normal.tokens ≤
        heads own second.normal.isColons (tokensAll (rest.map normal)) :=
      heads_member fluentMore (flows_tail (flows_tail flow)) (List.mem_map_of_mem inside)
    omega

end Tree

namespace Binder
open TestDouble.Tree Token

variable {binder : Binder}

theorem callee_eq (binder : Binder) (place : Place) :
    ∃ start rest, (start = "self" ∨ start = "super") ∧ ∀ last, binder.callee place last =
      .node .pathExpr [.node .attributes [], .node .path (absent :: joinedSegments (start :: rest) last)] := by
  unfold callee Name.toRoot
  cases place.module.length with
  | zero => exact ⟨"self", [Name.aggregate, binder.settings.dispatcher], .inl rfl, fun _ => rfl⟩
  | succ depth =>
      exact ⟨"super", List.replicate depth "super" ++ [Name.aggregate, binder.settings.dispatcher], .inr rfl, fun _ => rfl⟩

theorem normal_path (children : List Tree) : (Tree.node .path children).normal = .node .path (children.map normal) := by
  rw [normal_node (by decide) (by decide)]
  rfl

theorem normal_callee (place : Place) (last : Tree) :
    (binder.callee place last).normal = binder.callee place last.normal := by
  obtain ⟨start, rest, -, same⟩ := binder.callee_eq place
  rw [same, same, normal_node (by decide) (by decide)]
  show Tree.node .pathExpr [.node .attributes [], (Tree.node .path _).normal] = _
  rw [normal_path, List.map_cons, normal_joinedSegments]
  rfl

theorem normal_boundCall (place : Place) (key : String) (attributes last : Tree) :
    (binder.boundCall place key attributes last).normal =
      binder.boundCall place key attributes.normal last.normal := by
  unfold boundCall
  rw [normal_node (by decide) (by decide), ← normal_callee]
  rfl

section
variable (apart : binder.settings.Apart) {attributes last : Tree} (fluent : last.Fluent) (opened : last.opens = true)
  (alone : last.isColons = false)
include apart fluent opened alone

theorem weight_callee (place : Place) : (binder.callee place last).Fluent ∧
    weight binder.settings.owns (binder.callee place last) = heads binder.settings.owns true last.tokens := by
  obtain ⟨start, rest, word, same⟩ := binder.callee_eq place
  have other : binder.settings.owns start = false := by
    rcases word with rfl | rfl
    · exact apart.here
    · exact apart.above
  rw [same]
  have path : (Tree.node .path (absent :: joinedSegments (start :: rest) last)).Fluent :=
    .node (flows_joinedSegments opened alone _)
      (List.forall_mem_cons.mpr ⟨fluent_absent, fluent_joinedSegments fluent _⟩)
  have each : ∀ part ∈ [Tree.node .attributes [], .node .path (absent :: joinedSegments (start :: rest) last)],
      part.Fluent := List.forall_mem_cons.mpr ⟨.node rfl (by simp), List.forall_mem_singleton.mpr path⟩
  refine ⟨.node rfl each, ?_⟩
  have nothing : weight binder.settings.owns (.node .attributes []) = 0 := rfl
  rw [weight_node (by simp) rfl each]
  simp [nothing, weight_joinedSegments opened alone fluent other]

theorem weight_boundCall (outer : attributes.Fluent) (start : attributes.isColons = false) (place : Place)
    (key : String) : (binder.boundCall place key attributes last).Fluent ∧
      weight binder.settings.owns (binder.boundCall place key attributes last) =
        weight binder.settings.owns attributes + heads binder.settings.owns true last.tokens := by
  obtain ⟨called, same⟩ := weight_callee apart fluent opened alone place
  let given := group .paren [.node .literal [.node .attributes [], .token (.literal (Text.stringLiteral key))]]
  have literal : given.Fluent := by
    refine .node rfl (List.forall_mem_singleton.mpr (.node rfl ?_))
    exact List.forall_mem_cons.mpr ⟨.node rfl (by simp), List.forall_mem_singleton.mpr (.token _)⟩
  have nothing : weight binder.settings.owns given = 0 := rfl
  have each : ∀ part ∈ [attributes, binder.callee place last, given], part.Fluent :=
    List.forall_mem_cons.mpr ⟨outer, List.forall_mem_cons.mpr ⟨called, List.forall_mem_singleton.mpr literal⟩⟩
  have none : noColons [attributes, binder.callee place last, given] = true := by
    simp [start, callee, given, group]
  refine ⟨.node (flows_of_noColons none) each, ?_⟩
  show weight _ (.node .call [attributes, binder.callee place last, given]) = _
  rw [weight_node (by simp) none each]
  simp [nothing, same]

end

end Binder

end TestDouble
