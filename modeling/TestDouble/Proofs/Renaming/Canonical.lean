import TestDouble.Proofs.Renaming.Tree
import TestDouble.Source.Canonical
/-!
# Renaming and the canonical form

The canonical form looks at kinds and punctuation only, so it is that of the tree, renamed.
-/

namespace TestDouble.Tree

variable (σ : Equiv.Perm String)

theorem isLifetime_rename (tree : Tree) : (tree.rename σ).isLifetime = tree.isLifetime := by
  refine bool_rename σ (fun σ tree holds => ?_) tree
  unfold isLifetime at holds
  split at holds
  · rw [rename_node]
    rfl
  · rw [rename_node]
    rfl
  · cases holds

/-- A pair of an element and the comma behind it, renamed. -/
def renamePair (name : String → String) (pair : Tree × Option Tree) : Tree × Option Tree :=
  (pair.1.rename name, pair.2.map (rename name))

theorem commaPairs_rename (elements : List Tree) :
    commaPairs (elements.map (rename σ)) = (commaPairs elements).map (renamePair σ) := by
  fun_induction commaPairs elements with
  | case1 => rfl
  | case2 element => rfl
  | case3 element next rest comma ih =>
      rw [List.map_cons, List.map_cons, commaPairs, isPunct_rename, if_pos comma, ih]
      rfl
  | case4 element next rest comma ih =>
      rw [List.map_cons, List.map_cons, commaPairs, isPunct_rename, if_neg comma, ← List.map_cons, ih]
      rfl

theorem ofPairs_rename (pairs : List (Tree × Option Tree)) :
    ofPairs (pairs.map (renamePair σ)) = (ofPairs pairs).map (rename σ) := by
  rw [ofPairs, ofPairs, List.flatMap_map, List.map_flatMap]
  refine List.flatMap_congr fun pair _ => ?_
  obtain ⟨element, comma⟩ := pair
  cases comma <;> rfl

theorem lifetimesFirst_rename (elements : List Tree) :
    lifetimesFirst (elements.map (rename σ)) = (lifetimesFirst elements).map (rename σ) := by
  have kept : ∀ (wanted : Tree × Option Tree → Bool), (∀ pair, wanted (renamePair σ pair) = wanted pair) →
      ((commaPairs elements).map (renamePair σ)).filter wanted =
        ((commaPairs elements).filter wanted).map (renamePair σ) := by
    intro wanted same
    rw [List.filter_map]
    exact congrArg (List.map _) (List.filter_congr fun pair _ => same pair)
  have first := kept (fun pair => isLifetime pair.1) fun pair => isLifetime_rename σ pair.1
  have others := kept (fun pair => !isLifetime pair.1) fun pair => congrArg not (isLifetime_rename σ pair.1)
  simp only [lifetimesFirst, commaPairs_rename]
  rw [first, others]
  generalize (commaPairs elements).filter (fun pair => isLifetime pair.1) = before
  generalize (commaPairs elements).filter (fun pair => !isLifetime pair.1) = behind
  rw [ofPairs_rename, ofPairs_rename, List.map_append, List.map_append]
  -- what stands between the two parts depends on the last element in front of it
  refine congrArg (fun gap => (ofPairs before).map (rename σ) ++ gap ++ (ofPairs behind).map (rename σ)) ?_
  rw [List.getLast?_map]
  cases before.getLast? with
  | none => rfl
  | some pair =>
      obtain ⟨element, comma⟩ := pair
      cases comma <;> cases behind <;> rfl

theorem numberFields_rename (dot : Tree) (spelling : String) :
    numberFields (dot.rename σ) spelling = (numberFields dot spelling).map (rename σ) := by
  unfold numberFields
  split
  · rename_i numbers dotted _
    rw [List.map_append, List.map_flatMap]
    congr 1
    cases dotted <;> rfl
  · rfl

theorem fieldName_rename (tree : Tree) : fieldName (tree.rename σ) = (fieldName tree).rename σ := by
  cases tree with
  | token t =>
      cases t with
      | literal spelling =>
          simp only [rename_token, Token.rename, fieldName]
          split <;> rfl
      | _ => rfl
  | node kind children =>
      rw [rename_node]
      exact (rename_node σ kind children).symm

theorem leadsWithLabel_rename (tree : Tree) : (tree.rename σ).leadsWithLabel = tree.leadsWithLabel := by
  refine bool_rename σ (fun σ tree holds => ?_) tree
  induction tree using byChildren with
  | token t => cases holds
  | node kind children ih =>
      unfold leadsWithLabel at holds
      split at holds
      · rename_i own attributes first rest same
        cases same
        rw [rename_node, List.map_cons, List.map_cons]
        split at holds
        all_goals first
          | exact absurd holds Bool.false_ne_true
          | rw [leadsWithLabel, isAbsent_rename]; exact holds
          | exact ih first (List.mem_cons_of_mem _ List.mem_cons_self) holds
      · cases holds

theorem framed_rename (rest : List Tree) :
    lifetimesFirst (rest.map (rename σ)).dropLast ++ (rest.map (rename σ)).getLast?.toList =
      (lifetimesFirst rest.dropLast ++ rest.getLast?.toList).map (rename σ) := by
  rw [← List.map_dropLast, lifetimesFirst_rename, List.getLast?_map, List.map_append, Option.toList_map]

/-- The normal form of a node commutes with renaming, if the underscore stays. -/
theorem normalNode_rename (blank : σ "_" = "_") (kind : Kind) (children : List Tree) :
    normalNode kind (children.map (rename σ)) = (normalNode kind children).rename σ := by
  have back : ∀ (σ : Equiv.Perm String) (trees : List Tree), (trees.map (rename σ)).map (rename σ.symm) = trees := by
    intro σ trees
    rw [List.map_map]
    exact (List.map_congr_left fun tree _ => rename_symm σ tree).trans (List.map_id' trees)
  have alike : ∀ (σ : Equiv.Perm String) (trees : List Tree),
      node kind (trees.map (rename σ)) = (node kind trees).rename σ :=
    fun σ trees => (rename_node σ kind trees).symm
  refine commutes_of_forward (fun name => List.map (rename name)) rename (normalNode kind) (node kind) back
    rename_symm alike (fun σ fixed children => ?_) (List.forall_mem_singleton.mpr blank) children
  have blank := fixed "_" List.mem_cons_self
  unfold normalNode
  split
  -- in every case but the last the parts of the normal form are renamed one by one
  · right
    rename_i opening rest
    simp only [List.map_cons, List.length_map]
    split
    · rfl
    · rw [rename_node, List.cons_append, framed_rename, List.cons_append, List.map_cons]
  · right
    rename_i lead opening rest
    simp only [List.map_cons, List.cons_append, framed_rename, rename_node]
  · right
    rename_i word opening rest
    simp only [List.map_cons, List.cons_append, framed_rename, rename_node]
  · exact .inr rfl
  · exact .inr rfl
  · right
    simp
  · right
    rename_i attributes operand dot spelling
    simp only [List.map_cons, List.map_nil, rename_node, rename_token, Token.rename, numberFields_rename]
  · right
    simp [blank]
  · right
    simp
  · right
    simp [fieldName_rename]
  · right
    simp [fieldName_rename]
  · right
    rename_i start dots stop
    simp only [List.map_cons, List.map_nil, rename_node, isPunct_rename]
    split <;> rfl
  · right
    simp
  · right
    simp [parenthesized]
  · right
    rename_i attributes word target value
    simp only [List.map_cons, List.map_nil, rename_node, isAbsent_rename, leadsWithLabel_rename]
    split <;> simp [parenthesized]
  · exact .inl rfl

theorem normal_rename (blank : σ "_" = "_") (tree : Tree) : (tree.rename σ).normal = tree.normal.rename σ := by
  induction tree using byChildren with
  | token t => rfl
  | node kind children ih =>
      rw [rename_node]
      by_cases unread : kind = .unread
      · subst unread
        exact (rename_node σ .unread children).symm
      by_cases arguments : kind = .arguments
      · subst arguments
        exact (rename_node σ .arguments children).symm
      rw [normal_node unread arguments, normal_node unread arguments, List.map_map, ← normalNode_rename σ blank,
        List.map_map]
      exact congrArg (normalNode kind) (List.map_congr_left ih)

theorem isBareBlock_rename (tree : Tree) : (tree.rename σ).isBareBlock = tree.isBareBlock := by
  refine bool_rename σ (fun σ tree holds => ?_) tree
  unfold isBareBlock at holds
  split at holds
  · simp only [rename_node, List.map_cons, List.map_nil, isBareBlock, isAbsent_rename, innerAttributes_rename,
      List.isEmpty_map]
    exact holds
  · cases holds

theorem enclosedAll_rename {trees : List Tree}
    (each : ∀ tree ∈ trees, ∀ context, (tree.rename σ).enclosed context = (tree.enclosed context).rename σ)
    (context : OperandContext) (kind : Kind) (index : Nat) :
    enclosedAll context kind index (trees.map (rename σ)) = (enclosedAll context kind index trees).map (rename σ) := by
  induction trees generalizing index with
  | nil => rfl
  | cons first rest ih =>
      rw [List.map_cons, enclosedAll, enclosedAll, List.map_cons, each first List.mem_cons_self,
        ih fun tree member => each tree (List.mem_cons_of_mem _ member)]

theorem enclosedBody_rename {trees : List Tree}
    (each : ∀ tree ∈ trees, ∀ context, (tree.rename σ).enclosed context = (tree.enclosed context).rename σ)
    (context : OperandContext) :
    enclosedBody context (trees.map (rename σ)) = (enclosedBody context trees).map (rename σ) := by
  induction trees with
  | nil => rfl
  | cons first rest ih =>
      have later := ih fun tree member => each tree (List.mem_cons_of_mem _ member)
      cases rest with
      | nil => exact congrArg (· :: []) (each first List.mem_cons_self _)
      | cons second more => exact congrArg₂ (· :: ·) (each first List.mem_cons_self _) later

theorem enclosed_rename (context : OperandContext) (tree : Tree) :
    (tree.rename σ).enclosed context = (tree.enclosed context).rename σ := by
  induction tree using byChildren generalizing context with
  | token t => rfl
  | node kind children ih =>
      rw [rename_node]
      by_cases unread : kind = .unread
      · subst unread
        exact (rename_node σ .unread children).symm
      by_cases arguments : kind = .arguments
      · subst arguments
        exact (rename_node σ .arguments children).symm
      by_cases closure : kind = .closure
      · subst closure
        rw [enclosed, enclosed, enclosedBody_rename σ ih, rename_node]
      have bare := isBareBlock_rename σ (.node kind children)
      rw [rename_node] at bare
      rw [enclosed_other unread arguments closure, enclosed_other unread arguments closure, bare,
        enclosedAll_rename σ ih]
      split
      · simp [parenthesized]
      · rw [rename_node]

theorem canonical_rename (blank : σ "_" = "_") (tree : Tree) : (tree.rename σ).canonical = tree.canonical.rename σ := by
  rw [canonical, canonical, normal_rename σ blank, enclosed_rename]

end TestDouble.Tree
