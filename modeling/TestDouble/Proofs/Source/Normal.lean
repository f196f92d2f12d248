import Mathlib
import TestDouble.Proofs.Source.Arranged
import TestDouble.Proofs.Source.Heads
import TestDouble.Source.Canonical
/-!
# Names in canonical form

Writing a node in canonical form moves parts and adds or drops punctuation. Of the names that do not stand
behind `::` it drops only those in the visibility of a variant.
-/

namespace TestDouble

namespace Tree
open Token

variable {own : String → Bool}

/-! ### What a node becomes -/

theorem normalNode_fixed {kind : Kind} (fixed : kind.opens = true ∨ kind = .absent) (children : List Tree) :
    normalNode kind children = .node kind children := by
  rcases fixed with opens | rfl
  · cases kind
    all_goals first
      | rfl
      | cases opens
  · rfl

theorem normalNode_isNode (kind : Kind) (children : List Tree) :
    ∃ own parts, normalNode kind children = .node own parts := by
  fun_cases normalNode kind children
  all_goals exact ⟨_, _, rfl⟩

theorem normal_alike (tree : Tree) : Alike tree.normal tree := by
  cases tree with
  | token t => exact .token t
  | node kind children =>
      by_cases unread : kind = .unread
      · subst unread
        exact .node (by simp [absent]) (fun opened => by cases opened)
      · by_cases arguments : kind = .arguments
        · subst arguments
          exact .node (by simp [absent]) (fun opened => by cases opened)
        · have same : (Tree.node kind children).normal = normalNode kind (normalAll children) := by
            rw [normal]
            · exact unread
            · exact arguments
          by_cases none : Tree.node kind children = absent
          · cases none
            exact .absent
          · rw [same]
            by_cases fixed : kind.opens = true
            · rw [normalNode_fixed (.inl fixed)]
              exact .node none fun _ => rfl
            · obtain ⟨other, parts, found⟩ := normalNode_isNode kind (normalAll children)
              rw [found]
              exact .node none fun opened => absurd opened fixed

/-! ### Lifetimes first -/

theorem ofPairs_append (left right : List (Tree × Option Tree)) :
    ofPairs (left ++ right) = ofPairs left ++ ofPairs right :=
  List.flatMap_append

theorem ofPairs_commaPairs (trees : List Tree) : ofPairs (commaPairs trees) = trees := by
  fun_induction commaPairs trees with
  | case1 => rfl
  | case2 element => rfl
  | case3 element next rest comma ih =>
      show element :: next :: ofPairs (commaPairs rest) = element :: next :: rest
      rw [ih]
  | case4 element next rest other ih =>
      show element :: ofPairs (commaPairs (next :: rest)) = element :: next :: rest
      rw [ih]

/-- Putting the lifetimes first moves the elements, and adds a comma at most. -/
theorem lifetimesFirst_perm (elements : List Tree) :
    ∃ gap, (gap = [] ∨ gap = [punct ","]) ∧ (lifetimesFirst elements).Perm (gap ++ elements) := by
  have split : (ofPairs ((commaPairs elements).filter fun pair => isLifetime pair.1) ++
      ofPairs ((commaPairs elements).filter fun pair => !isLifetime pair.1)).Perm elements := by
    rw [← ofPairs_append]
    have moved := List.filter_append_perm (fun pair : Tree × Option Tree => isLifetime pair.1) (commaPairs elements)
    have same := moved.flatMap_right fun pair => pair.1 :: pair.2.toList
    rw [show (commaPairs elements).flatMap (fun pair => pair.1 :: pair.2.toList) = elements from
      ofPairs_commaPairs elements] at same
    exact same
  unfold lifetimesFirst
  dsimp only
  split
  · refine ⟨[punct ","], .inr rfl, ?_⟩
    rw [List.append_assoc]
    exact List.perm_middle.trans (split.cons _)
  · refine ⟨[], .inl rfl, ?_⟩
    rw [List.append_nil]
    exact split

theorem dropLast_append_last (trees : List Tree) : trees.dropLast ++ trees.getLast?.toList = trees := by
  cases ends : trees.getLast? with
  | none => simp [List.getLast?_eq_none_iff.mp ends]
  | some last => exact List.dropLast_append_getLast? last ends

theorem lifetimesFirst_dropLast_perm (front rest : List Tree) :
    ∃ gap, (gap = [] ∨ gap = [punct ","]) ∧
      (front ++ lifetimesFirst rest.dropLast ++ rest.getLast?.toList).Perm (gap ++ (front ++ rest)) := by
  obtain ⟨gap, shape, moved⟩ := lifetimesFirst_perm rest.dropLast
  refine ⟨gap, shape, ?_⟩
  have inner : (lifetimesFirst rest.dropLast ++ rest.getLast?.toList).Perm (gap ++ rest) := by
    have joined := moved.append_right rest.getLast?.toList
    rwa [List.append_assoc, dropLast_append_last] at joined
  have outer := inner.append_left front
  rw [List.append_assoc]
  exact outer.trans (List.perm_append_comm_assoc front gap rest)

/-! ### Names -/

/-- The children that are written: of a variant all but the visibility. -/
def kept : Kind → List Tree → List Tree
  | .variant, attributes :: _ :: rest => attributes :: absent :: rest
  | _, children => children

/-- That a tree has as many of the names as a node, wherever the node may stand. -/
structure Even (own : String → Bool) (tree : Tree) (kind : Kind) (children : List Tree) : Prop where
  fluent : tree.Fluent
  same : ∀ behind : Bool, (behind = true → kind.opens = true) →
    heads own behind tree.tokens = heads own behind (Tree.node kind children).tokens

/-- That parts without `::` between them have as many of the names as others. -/
structure Same (own : String → Bool) (parts children : List Tree) : Prop where
  none : noColons parts = true
  fluent : ∀ part ∈ parts, part.Fluent
  sum : (parts.map (weight own)).sum = (children.map (weight own)).sum

theorem weight_node {kind : Kind} (other : ∀ delimiter, kind ≠ .group delimiter) {children : List Tree}
    (none : noColons children = true) (fluent : ∀ child ∈ children, child.Fluent) :
    weight own (.node kind children) = (children.map (weight own)).sum := by
  rw [weight, tokens_node other, heads_noColons none fluent]

theorem weight_group {delimiter : Delimiter} {children : List Tree} (none : noColons children = true)
    (fluent : ∀ child ∈ children, child.Fluent) :
    weight own (group delimiter children) = (children.map (weight own)).sum := by
  rw [weight, group, heads_group, heads_noColons none fluent]

theorem fluent_absent : absent.Fluent := .node rfl (by simp)

theorem weight_literal (spelling : String) : weight own (.token (.literal spelling)) = 0 := rfl

theorem weight_of_isPunct {text : String} {tree : Tree} (punct : tree.isPunct text = true) : weight own tree = 0 := by
  obtain ⟨joint, rfl⟩ := token_of_isPunct punct
  rfl

theorem weight_of_isKeyword {text : String} {tree : Tree} (other : own text = false)
    (keyword : Parse.isKeyword text tree = true) : weight own tree = 0 := by
  unfold Parse.isKeyword at keyword
  split at keyword
  · rename_i name
    rw [eq_of_beq keyword]
    simp [weight, tokens, heads, counted, other]
  · cases keyword

theorem apart_of_closed {kind : Kind} (closed : kind.opens = false) (delimiter : Delimiter) : kind ≠ .group delimiter := by
  rintro rfl
  cases closed

theorem leads_of_closed {kind : Kind} (closed : kind.opens = false) : kind.leads = false := by
  cases kind
  case group d => exact absurd rfl (apart_of_closed closed d)
  all_goals exact closed

section
variable {kind : Kind} {children : List Tree}

theorem even_refl (arranged : Arranged kind children) (fluent : ∀ child ∈ children, child.Fluent) :
    Even own (.node kind children) kind children :=
  ⟨.node arranged.flow fluent, fun _ _ => rfl⟩

/-- A node that does not begin with a token of its own never stands behind `::`. -/
theorem even_closed {tree : Tree} (closed : kind.opens = false) (fluent : tree.Fluent)
    (same : weight own tree = weight own (.node kind children)) : Even own tree kind children where
  fluent := fluent
  same behind free := by
    cases behind with
    | true =>
        have opened := free rfl
        rw [closed] at opened
        cases opened
    | false => exact same

theorem even_of_sum {tree : Tree} (closed : kind.opens = false) (none : noColons children = true)
    (fluent : ∀ child ∈ children, child.Fluent) (own' : tree.Fluent)
    (sum : weight own tree = (children.map (weight own)).sum) : Even own tree kind children :=
  even_closed closed own' (sum.trans (weight_node (apart_of_closed closed) none fluent).symm)

/-- A node of a kind without `::` whose children make up the same names. -/
theorem even_node {other : Kind} {parts : List Tree} (closed : kind.opens = false) (still : other.opens = false)
    (none : noColons children = true) (fluent : ∀ child ∈ children, child.Fluent) (same : Same own parts children) :
    Even own (.node other parts) kind children := by
  refine even_of_sum closed none fluent (.node ?_ same.fluent) ?_
  · rw [leads_of_closed still]
    exact flows_of_noColons same.none
  · rw [weight_node (apart_of_closed still) same.none same.fluent, same.sum]

/-- A node that is left out because it says nothing. -/
theorem even_absent (children : List Tree) (closed : kind.opens = false) (none : noColons children = true)
    (fluent : ∀ child ∈ children, child.Fluent) (nothing : (children.map (weight own)).sum = 0) :
    Even own absent kind children :=
  even_of_sum closed none fluent fluent_absent (by rw [nothing]; rfl)

end

/-! ### Lists with lifetimes -/

/-- Parts that are moved around, with commas added. -/
theorem same_of_perm {parts gap children : List Tree} (none : noColons children = true)
    (fluent : ∀ child ∈ children, child.Fluent) (shape : gap = [] ∨ gap = [punct ","])
    (moved : parts.Perm (gap ++ children)) : Same own parts children := by
  have added : noColons gap = true ∧ (∀ part ∈ gap, part.Fluent) ∧ (gap.map (weight own)).sum = 0 := by
    rcases shape with rfl | rfl
    · exact ⟨rfl, by simp, rfl⟩
    · exact ⟨rfl, List.forall_mem_singleton.mpr (.token _), rfl⟩
  refine ⟨?_, fun part member => ?_, ?_⟩
  · rw [noColons_eq_all, moved.all_eq, ← noColons_eq_all, noColons_append, added.1, none]
    rfl
  · rcases List.mem_append.mp (moved.mem_iff.mp member) with inside | inside
    · exact added.2.1 part inside
    · exact fluent part inside
  · rw [(moved.map (weight own)).sum_eq, List.map_append, List.sum_append, added.2.2, Nat.zero_add]

theorem even_generics_nil {opening : Tree} {rest : List Tree} (arranged : Arranged .generics (opening :: rest))
    (fluent : ∀ child ∈ opening :: rest, child.Fluent) (few : rest.length ≤ 1) :
    Even own absent .generics (opening :: rest) := by
  have ends := Bool.and_eq_true_iff.mp (arranged.joint (by decide) (by decide))
  have opens : weight own opening = 0 := weight_of_isMark ends.1
  refine even_absent (opening :: rest) rfl (arranged.apart rfl) fluent ?_
  match rest, few with
  | [], _ => simp [opens]
  | [close], _ =>
      have closes : weight own close = 0 := weight_of_isMark ends.2
      simp [opens, closes]

theorem even_lifetimesFirst {kind : Kind} (front : List Tree) {rest : List Tree} (closed : kind.opens = false)
    (none : noColons (front ++ rest) = true) (fluent : ∀ child ∈ front ++ rest, child.Fluent) :
    Even own (.node kind (front ++ lifetimesFirst rest.dropLast ++ rest.getLast?.toList)) kind (front ++ rest) := by
  obtain ⟨gap, shape, moved⟩ := lifetimesFirst_dropLast_perm front rest
  exact even_node closed closed none fluent (same_of_perm none fluent shape moved)

/-- Arguments in angle brackets, of which the first may be `::`. -/
theorem weight_bracketed {kind : Kind} {lead opening : Tree} {rest : List Tree} (closed : kind.opens = false)
    (flow : flows false (lead :: opening :: rest) = true) (apart : opening.isColons = false)
    (none : noColons rest = true) (fluent : ∀ child ∈ lead :: opening :: rest, child.Fluent) :
    weight own (.node kind (lead :: opening :: rest)) =
      weight own lead + (heads own lead.isColons opening.tokens + (rest.map (weight own)).sum) := by
  rw [weight, tokens_node (apart_of_closed closed), heads_tokensAll_cons (fluent lead (by simp)) flow,
    heads_tokensAll_cons (fluent opening (by simp)) (flows_tail flow), apart,
    heads_noColons none fun child member => fluent child (by simp [member])]
  rfl

theorem even_genericArguments {lead opening : Tree} {rest : List Tree}
    (arranged : Arranged .genericArguments (lead :: opening :: rest))
    (fluent : ∀ child ∈ lead :: opening :: rest, child.Fluent) :
    Even own (normalNode .genericArguments (lead :: opening :: rest)) .genericArguments (lead :: opening :: rest) := by
  obtain ⟨opened, none⟩ := Bool.and_eq_true_iff.mp (arranged.joint (by decide) (by decide))
  rw [noColons_cons, Bool.and_eq_true, Bool.not_eq_true'] at none
  have later : ∀ child ∈ rest, child.Fluent := fun child member => fluent child (by simp [member])
  obtain ⟨gap, shape, moved⟩ := lifetimesFirst_dropLast_perm [] rest
  have same : Same own (lifetimesFirst rest.dropLast ++ rest.getLast?.toList) rest :=
    same_of_perm none.2 later shape moved
  have flowing : ∀ part ∈ lead :: opening :: (lifetimesFirst rest.dropLast ++ rest.getLast?.toList), part.Fluent :=
    List.forall_mem_cons.mpr ⟨fluent lead (by simp), List.forall_mem_cons.mpr ⟨fluent opening (by simp), same.fluent⟩⟩
  have flow : flows false (lead :: opening :: (lifetimesFirst rest.dropLast ++ rest.getLast?.toList)) = true := by
    simp [opened, none.1, flows_of_noColons same.none]
  refine even_closed rfl (.node flow flowing) ?_
  show weight own (.node _ (lead :: opening :: (lifetimesFirst rest.dropLast ++ rest.getLast?.toList))) = _
  rw [weight_bracketed rfl flow none.1 same.none flowing, weight_bracketed rfl arranged.flow none.1 none.2 fluent, same.sum]

theorem even_callArguments {lead inputs result : Tree} (arranged : Arranged .callArguments [lead, inputs, result])
    (fluent : ∀ child ∈ [lead, inputs, result], child.Fluent) :
    Even own (normalNode .callArguments [lead, inputs, result]) .callArguments [lead, inputs, result] := by
  have shape : ((lead.isMark && inputs.isGroup && !result.isColons) = true) := arranged.joint (by decide) (by decide)
  simp only [Bool.and_eq_true, Bool.not_eq_true'] at shape
  obtain ⟨⟨mark, grouped⟩, apart⟩ := shape
  obtain ⟨delimiter, parts, rfl⟩ : ∃ delimiter parts, inputs = group delimiter parts := by
    unfold isGroup at grouped
    split at grouped
    · exact ⟨_, _, rfl⟩
    · cases grouped
  have flowing : ∀ part ∈ [absent, group delimiter parts, result], part.Fluent :=
    List.forall_mem_cons.mpr ⟨fluent_absent, fun part member => fluent part (List.mem_cons_of_mem _ member)⟩
  have flow : flows false [absent, group delimiter parts, result] = true := by simp [group, apart]
  have last : noColons [result] = true := by simp [apart]
  refine even_closed rfl (.node flow flowing) ?_
  show weight own (.node _ [absent, group delimiter parts, result]) = _
  rw [weight_bracketed rfl flow rfl last flowing, weight_bracketed rfl arranged.flow rfl last fluent,
    weight_of_isMark mark, group, heads_group, heads_group]
  rfl

/-! ### Numbers of fields -/

theorem weight_fieldName (tree : Tree) : weight own tree.fieldName = weight own tree := by
  unfold fieldName
  split
  · split <;> rfl
  · rfl

theorem isColons_fieldName (tree : Tree) : tree.fieldName.isColons = tree.isColons := by
  unfold fieldName
  split
  · split <;> rfl
  · rfl

theorem fluent_fieldName {tree : Tree} (fluent : tree.Fluent) : tree.fieldName.Fluent := by
  unfold fieldName
  split
  · split <;> exact .token _
  · exact fluent

theorem mem_numberFields {dot part : Tree} {spelling : String} (member : part ∈ numberFields dot spelling) :
    part = dot ∨ ∃ text, part = .token (.literal text) := by
  unfold numberFields at member
  split at member
  · rcases List.mem_append.mp member with inside | last
    · obtain ⟨value, -, inside⟩ := List.mem_flatMap.mp inside
      rcases List.mem_cons.mp inside with rfl | inside
      · exact .inl rfl
      · exact .inr ⟨_, List.mem_singleton.mp inside⟩
    · split at last
      · exact .inl (List.mem_singleton.mp last)
      · cases last
  · rcases List.mem_cons.mp member with rfl | inside
    · exact .inl rfl
    · exact .inr ⟨_, List.mem_singleton.mp inside⟩

theorem even_field {attributes operand dot : Tree} {spelling : String}
    (arranged : Arranged .field [attributes, operand, dot, .token (.literal spelling)])
    (fluent : ∀ child ∈ [attributes, operand, dot, .token (.literal spelling)], child.Fluent) :
    Even own (.node .field (attributes :: operand :: numberFields dot spelling)) .field
      [attributes, operand, dot, .token (.literal spelling)] := by
  have none := arranged.apart rfl
  have apart : dot.isColons = false := by simp_all
  have mark : weight own dot = 0 := weight_of_isMark (arranged.joint (by decide) (by decide))
  have each : ∀ part ∈ numberFields dot spelling, part.isColons = false ∧ part.Fluent ∧ weight own part = 0 := by
    intro part member
    rcases mem_numberFields member with rfl | ⟨text, rfl⟩
    · exact ⟨apart, fluent part (by simp), mark⟩
    · exact ⟨rfl, .token _, rfl⟩
  have numbers : noColons (numberFields dot spelling) = true := by
    rw [noColons_eq_all, List.all_eq_true]
    exact fun part member => by simp [(each part member).1]
  have nothing : ((numberFields dot spelling).map (weight own)).sum = 0 :=
    List.sum_eq_zero (List.forall_mem_map.mpr fun part member => (each part member).2.2)
  refine even_node rfl rfl none fluent ⟨?_, ?_, ?_⟩
  · simp_all
  · refine List.forall_mem_cons.mpr ⟨fluent attributes (by simp), List.forall_mem_cons.mpr ⟨fluent operand (by simp), ?_⟩⟩
    exact fun part member => (each part member).2.1
  · simp [mark, nothing, weight_literal]

/-! ### Parentheses -/

theorem fluent_paren {children : List Tree} (none : noColons children = true)
    (fluent : ∀ child ∈ children, child.Fluent) : (group .paren children).Fluent :=
  .node (flows_of_noColons none) fluent

theorem fluent_parenthesized {attributes : List Tree} {inner : Tree}
    (outer : (Tree.node .attributes attributes).Fluent) (apart : inner.isColons = false) (fluent : inner.Fluent) :
    (parenthesized attributes inner).Fluent := by
  refine .node rfl (List.forall_mem_cons.mpr ⟨outer, List.forall_mem_singleton.mpr ?_⟩)
  exact fluent_paren (by simp [apart]) (by simpa using fluent)

theorem weight_parenthesized {attributes : List Tree} {inner : Tree}
    (outer : (Tree.node .attributes attributes).Fluent) (apart : inner.isColons = false) (fluent : inner.Fluent) :
    weight own (parenthesized attributes inner) = weight own (.node .attributes attributes) + weight own inner := by
  have none : noColons [inner] = true := by simp [apart]
  have flowing : ∀ part ∈ [inner], part.Fluent := by simpa using fluent
  unfold parenthesized
  rw [weight_node (by simp) rfl (by simpa using ⟨outer, fluent_paren none flowing⟩)]
  simp only [List.map_cons, List.map_nil, List.sum_cons, List.sum_nil, weight_group none flowing, Nat.add_zero]

/-! ### All kinds -/

variable {kind : Kind} {children : List Tree}

theorem even_fieldName {attributes name : Tree} {rest : List Tree} (closed : kind.opens = false)
    (none : noColons (attributes :: name :: rest) = true) (fluent : ∀ child ∈ attributes :: name :: rest, child.Fluent) :
    Even own (.node kind (attributes :: name.fieldName :: rest)) kind (attributes :: name :: rest) := by
  refine even_node closed closed none fluent ⟨?_, ?_, ?_⟩
  · simpa [isColons_fieldName] using none
  · simp only [List.mem_cons, forall_eq_or_imp] at fluent ⊢
    exact ⟨fluent.1, fluent_fieldName fluent.2.1, fluent.2.2⟩
  · simp [weight_fieldName]

theorem even_namelessInput {attributes type : Tree} (blank : own "_" = false)
    (arranged : Arranged .namelessInput [attributes, type]) (fluent : ∀ child ∈ [attributes, type], child.Fluent) :
    Even own (.node .input [attributes, ident "_", punct ":", type]) .namelessInput [attributes, type] := by
  have none := arranged.apart rfl
  have pattern : weight own (ident "_") = 0 := by simp [weight, ident, tokens, heads, counted, blank]
  have colon : weight own (punct ":") = 0 := rfl
  have apart : (ident "_").isColons = false := rfl
  refine even_node rfl rfl none fluent ⟨by simp_all, ?_, by simp [pattern, colon]⟩
  simp only [List.mem_cons, List.not_mem_nil, or_false, forall_eq_or_imp, forall_eq] at fluent ⊢
  exact ⟨fluent.1, .token _, .token _, fluent.2⟩

theorem even_rangePattern {start dots stop : Tree} (arranged : Arranged .rangePattern [start, dots, stop])
    (fluent : ∀ child ∈ [start, dots, stop], child.Fluent) :
    Even own (.node .rangePattern [start, if dots.isPunct "..." then punct "..=" else dots, stop]) .rangePattern
      [start, dots, stop] := by
  have none := arranged.apart rfl
  split
  · rename_i dotted
    have included : weight own (punct "..=") = 0 := rfl
    refine even_node rfl rfl none fluent ⟨by simp_all, ?_, by simp [included, weight_of_isPunct dotted]⟩
    simp only [List.mem_cons, List.not_mem_nil, or_false, forall_eq_or_imp, forall_eq] at fluent ⊢
    exact ⟨fluent.1, .token _, fluent.2.2⟩
  · exact even_refl arranged fluent

/-- A pattern behind attributes is put in parentheses. -/
theorem even_input {attributes pattern : Tree} (arranged : Arranged .input [attributes, pattern])
    (fluent : ∀ child ∈ [attributes, pattern], child.Fluent) :
    Even own (.node .input [attributes, group .paren [pattern]]) .input [attributes, pattern] := by
  have none := arranged.apart rfl
  have alone : noColons [pattern] = true := by simp_all
  have inner : ∀ part ∈ [pattern], part.Fluent := fun part member => fluent part (List.mem_cons_of_mem _ member)
  refine even_node rfl rfl none fluent ⟨by simp_all [group], ?_, by simp [weight_group alone inner]⟩
  simp only [List.mem_cons, List.not_mem_nil, or_false, forall_eq_or_imp, forall_eq] at fluent ⊢
  exact ⟨fluent.1, fluent_paren alone inner⟩

theorem even_range {attributes rest : List Tree} (arranged : Arranged .range (.node .attributes attributes :: rest))
    (fluent : ∀ child ∈ .node .attributes attributes :: rest, child.Fluent) :
    Even own (parenthesized attributes (.node .range (.node .attributes [] :: rest))) .range
      (.node .attributes attributes :: rest) := by
  have none := arranged.apart rfl
  obtain ⟨outer, later⟩ := List.forall_mem_cons.mp fluent
  have bare : noColons (.node .attributes [] :: rest) = true := none
  have flowing : ∀ part ∈ .node .attributes [] :: rest, part.Fluent :=
    List.forall_mem_cons.mpr ⟨.node rfl (by simp), later⟩
  have inner : (Tree.node .range (.node .attributes [] :: rest)).Fluent := .node (flows_of_noColons bare) flowing
  have nothing : weight own (.node .attributes []) = 0 := rfl
  refine even_of_sum rfl none fluent (fluent_parenthesized outer rfl inner) ?_
  rw [weight_parenthesized outer rfl inner, weight_node (by simp) bare flowing]
  simp [nothing]

theorem even_breakExpr {attributes word target value : Tree}
    (arranged : Arranged .breakExpr [attributes, word, target, value])
    (fluent : ∀ child ∈ [attributes, word, target, value], child.Fluent) :
    Even own (.node .breakExpr [attributes, word, target, parenthesized [] value]) .breakExpr
      [attributes, word, target, value] := by
  have none := arranged.apart rfl
  have apart : value.isColons = false := by simp_all
  have outer : (Tree.node .attributes []).Fluent := .node rfl (by simp)
  have nothing : weight own (.node .attributes []) = 0 := rfl
  have own' : value.Fluent := fluent value (by simp)
  have same : weight own (parenthesized [] value) = weight own value := by
    rw [weight_parenthesized outer apart own', nothing, Nat.zero_add]
  refine even_node rfl rfl none fluent ⟨by simp_all [parenthesized], ?_, by simp [same]⟩
  simp only [List.mem_cons, List.not_mem_nil, or_false, forall_eq_or_imp, forall_eq] at fluent ⊢
  exact ⟨fluent.1, fluent.2.1, fluent.2.2.1, fluent_parenthesized outer apart own'⟩

theorem even_variant {attributes visibility : Tree} {rest : List Tree}
    (arranged : Arranged .variant (attributes :: visibility :: rest))
    (fluent : ∀ child ∈ attributes :: visibility :: rest, child.Fluent) :
    Even own (.node .variant (attributes :: absent :: rest)) .variant (attributes :: absent :: rest) := by
  have none := arranged.apart rfl
  refine ⟨.node (flows_of_noColons (by simp_all)) ?_, fun _ _ => rfl⟩
  simp only [List.mem_cons, forall_eq_or_imp] at fluent ⊢
  exact ⟨fluent.1, fluent_absent, fluent.2.2⟩

/-- The canonical form of a node has the names of the children that are written, other than behind `::`. -/
theorem normalNode_even (blank : own "_" = false) (word : own "where" = false) (arranged : Arranged kind children)
    (fluent : ∀ child ∈ children, child.Fluent) : Even own (normalNode kind children) kind (kept kind children) := by
  fun_cases normalNode kind children
  case case1 opening rest few => exact even_generics_nil arranged fluent few
  case case2 opening rest _ => exact even_lifetimesFirst [opening] rfl (arranged.apart rfl) fluent
  case case3 lead opening rest => exact even_genericArguments arranged fluent
  case case4 use opening rest => exact even_lifetimesFirst [use, opening] rfl (arranged.apart rfl) fluent
  case case5 head =>
    have nothing : weight own head = 0 := weight_of_isMark (arranged.joint (by decide) (by decide))
    exact even_absent [head] rfl (arranged.apart rfl) fluent (by simp [nothing])
  case case6 head =>
    have nothing : weight own head = 0 := weight_of_isKeyword word (arranged.joint (by decide) (by decide))
    exact even_absent [head] rfl (arranged.apart rfl) fluent (by simp [nothing])
  case case7 lead inputs result => exact even_callArguments arranged fluent
  case case8 attributes operand dot spelling => exact even_field arranged fluent
  case case9 attributes type => exact even_namelessInput blank arranged fluent
  case case10 attributes visibility rest => exact even_variant arranged fluent
  case case11 attributes name rest => exact even_fieldName rfl (arranged.apart rfl) fluent
  case case12 attributes name rest => exact even_fieldName rfl (arranged.apart rfl) fluent
  case case13 start dots stop => exact even_rangePattern arranged fluent
  case case14 first more parts => exact even_input arranged fluent
  case case15 first more rest => exact even_range arranged fluent
  case case16 attributes word target value enclosedValue =>
    unfold enclosedValue
    split
    · exact even_breakExpr arranged fluent
    · exact even_refl arranged fluent
  case case17 _ _ _ _ _ _ _ _ other _ _ _ _ _ _ =>
    rw [kept]
    · exact even_refl arranged fluent
    · exact other

end Tree

end TestDouble
