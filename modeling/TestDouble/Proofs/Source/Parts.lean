import TestDouble.Proofs.Source.Children
import TestDouble.Source.View
/-!
# What views show

A view takes trees of one shape apart, and whatever it shows stands inside the tree. So what passes from nodes to
their children passes to all that is shown.
-/

namespace TestDouble

theorem Call.asCall?_iff {tree : Tree} {call : Call} : tree.asCall? = some call ↔ tree = call.toTree := by
  constructor
  · intro viewed
    unfold Tree.asCall? at viewed
    split at viewed
    · cases viewed
      rfl
    · cases viewed
  · rintro rfl
    rfl

namespace Tree

/-! ### The shapes that are viewed -/

theorem asMethodCall?_iff {tree : Tree} {call : MethodCall} : tree.asMethodCall? = some call ↔
    ∃ attributes dot generics,
      tree = .node .methodCall [attributes, call.receiver, dot, ident call.name, generics, call.arguments] := by
  constructor
  · intro viewed
    unfold asMethodCall? at viewed
    split at viewed
    · cases viewed
      exact ⟨_, _, _, rfl⟩
    · cases viewed
  · rintro ⟨attributes, dot, generics, rfl⟩
    rfl

theorem attributePath?_iff {attr path : Tree} : attr.attributePath? = some path ↔
    ∃ mark inner rest, attr = .node .attr [mark, inner, .node (.group .bracket) (path :: rest)] := by
  constructor
  · intro found
    unfold attributePath? at found
    split at found
    · cases found
      exact ⟨_, _, _, rfl⟩
    · cases found
  · rintro ⟨mark, inner, rest, rfl⟩
    rfl

theorem methodSignature?_shape {member signature : Tree} (found : member.methodSignature? = some signature) :
    ∃ attributes body, member = .node .traitFn [attributes, signature, body] := by
  unfold methodSignature? at found
  split at found
  · cases found
    exact ⟨_, _, rfl⟩
  · cases found

theorem resultType?_shape {signature type : Tree} (found : signature.resultType? = some type) :
    ∃ constness asyncness unsafety abi word name generics inputs arrow condition, signature = .node .signature
      [constness, asyncness, unsafety, abi, word, ident name, generics, inputs, .node .returns [arrow, type],
        condition] := by
  unfold resultType? at found
  split at found
  · rename_i viewed
    cases found
    unfold asSignature? at viewed
    split at viewed
    · cases viewed
      exact ⟨_, _, _, _, _, _, _, _, _, _, rfl⟩
    · cases viewed
  · cases found

theorem function_shape {item : Tree} {function : Function} (found : item.asFunction? = some function) :
    ∃ outer visibility signature body, item = .node .itemFn [.node .attributes outer, visibility, signature, body] ∧
      function = ⟨outer ++ body.innerAttributes, signature, body⟩ := by
  unfold asFunction? at found
  split at found
  · cases found
    exact ⟨_, _, _, _, rfl, rfl⟩
  · cases found

theorem trait_shape {item : Tree} {contract : TraitItem} (found : item.asTrait? = some contract) :
    ∃ attributes visibility unsafety auto word name generics bounds clause inner members,
      item = .node .itemTrait [attributes, visibility, unsafety, auto, word, ident name, generics, bounds, clause,
        group .brace (inner :: members)] ∧
      contract = ⟨!unsafety.isAbsent, name, generics.parameters, bounds.boundList, members⟩ := by
  unfold asTrait? at found
  split at found
  · cases found
    exact ⟨_, _, _, _, _, _, _, _, _, _, _, rfl, rfl⟩
  · cases found

theorem inline_module_shape {item : Tree} {name : String} {content : List Tree}
    (module : item.asModule? = some ⟨name, some content⟩) :
    ∃ attributes visibility unsafety word inner,
      item = .node .itemMod
        [attributes, visibility, unsafety, word, ident name, group .brace (inner :: content)] := by
  unfold asModule? at module
  split at module
  · cases module
    exact ⟨_, _, _, _, _, rfl⟩
  · cases module
  · cases module

/-! ### Paths and lists -/

theorem segments_subset (path : Tree) : path.segments ⊆ path.subtrees := by
  intro segment member
  unfold segments at member
  split at member
  · exact mem_subtrees_child (List.mem_filter.mp member).1
  · cases member

theorem elements_subset (group : Tree) : group.elements ⊆ group.subtrees := by
  intro part member
  unfold elements at member
  split at member
  · exact mem_subtrees_child (List.mem_filter.mp member).1
  · cases member

theorem statements_subset (body : Tree) : body.statements ⊆ body.subtrees := by
  intro statement member
  unfold statements at member
  split at member
  · exact mem_subtrees_child (List.mem_cons_of_mem _ member)
  · cases member

/-! ### Calls -/

theorem callee_mem {tree : Tree} {call : Call} (found : tree.asCall? = some call) : call.callee ∈ tree.subtrees := by
  rw [Call.asCall?_iff.mp found]
  exact mem_subtrees_child (by simp)

theorem arguments_mem {tree : Tree} {call : MethodCall} (found : tree.asMethodCall? = some call) :
    call.arguments ∈ tree.subtrees := by
  obtain ⟨attributes, dot, generics, rfl⟩ := asMethodCall?_iff.mp found
  exact mem_subtrees_child (by simp)

/-! ### Items and signatures -/

theorem body_mem {item : Tree} {function : Function} (found : item.asFunction? = some function) :
    function.body ∈ item.subtrees := by
  obtain ⟨outer, visibility, signature, body, rfl, rfl⟩ := function_shape found
  exact mem_subtrees_child (by simp)

theorem members_subset {item : Tree} {contract : TraitItem} (found : item.asTrait? = some contract) :
    contract.members ⊆ item.subtrees := by
  obtain ⟨attributes, visibility, unsafety, auto, word, name, generics, bounds, clause, inner, members, rfl, rfl⟩ :=
    trait_shape found
  intro member inside
  have inBraces : member ∈ (group .brace (inner :: members)).subtrees :=
    mem_subtrees_child (List.mem_cons_of_mem _ inside)
  exact subtrees_child (by simp) inBraces

theorem content_subset {item : Tree} {name : String} {content : List Tree}
    (module : item.asModule? = some ⟨name, some content⟩) : content ⊆ item.subtrees := by
  obtain ⟨attributes, visibility, unsafety, word, inner, rfl⟩ := inline_module_shape module
  intro inside member
  have inBraces : inside ∈ (group .brace (inner :: content)).subtrees :=
    mem_subtrees_child (List.mem_cons_of_mem _ member)
  exact subtrees_child (by simp) inBraces

theorem constant?_mem {item : Tree} {name : String} {value : Tree} (found : item.constant? = some (name, value)) :
    value ∈ item.subtrees := by
  unfold constant? at found
  split at found
  · cases found
    exact mem_subtrees_child (by simp)
  · cases found

theorem methodSignature?_mem {member signature : Tree} (found : member.methodSignature? = some signature) :
    signature ∈ member.subtrees := by
  obtain ⟨attributes, body, rfl⟩ := methodSignature?_shape found
  exact mem_subtrees_child (by simp)

theorem resultType?_mem {signature type : Tree} (found : signature.resultType? = some type) :
    type ∈ signature.subtrees := by
  obtain ⟨_, _, _, _, _, _, _, _, arrow, _, rfl⟩ := resultType?_shape found
  have inResult : type ∈ (node .returns [arrow, type]).subtrees := mem_subtrees_child (by simp)
  exact subtrees_child (by simp) inResult

end Tree

end TestDouble
