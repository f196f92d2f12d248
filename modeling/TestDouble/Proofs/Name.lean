import TestDouble.Name
/-!
# Keys tell tests apart

A key joins the parts of a test with `::`. No identifier holds a colon, so the parts can be read off the key,
and tests that differ in them have different keys. Generated names are joined with underscores.
-/

namespace TestDouble

/-- What stands before the first occurrence of an element, and what behind it, is determined. -/
theorem List.split_unique {α : Type} {mark : α} {front front' back back' : List α} (clear : mark ∉ front)
    (clear' : mark ∉ front') (same : front ++ mark :: back = front' ++ mark :: back') :
    front = front' ∧ back = back' := by
  induction front generalizing front' with
  | nil =>
      cases front' with
      | nil => exact ⟨rfl, (List.cons.inj same).2⟩
      | cons first rest =>
          have first := (List.cons.inj same).1
          exact absurd (first ▸ List.mem_cons_self) clear'
  | cons first rest ih =>
      cases front' with
      | nil =>
          have first := (List.cons.inj same).1
          exact absurd (first ▸ List.mem_cons_self) clear
      | cons first' rest' =>
          obtain ⟨rfl, more⟩ := List.cons.inj same
          have clearRest : mark ∉ rest := fun member => clear (List.mem_cons_of_mem _ member)
          have clearRest' : mark ∉ rest' := fun member => clear' (List.mem_cons_of_mem _ member)
          obtain ⟨rfl, rfl⟩ := ih clearRest clearRest' more
          exact ⟨rfl, rfl⟩

namespace Name
open TestDouble.Text

theorem colon_of_isValid {name : String} (valid : isValid name = true) : ':' ∉ (unraw name).toList := by
  have spelled : Identifier.isSpelling (unraw name).toList = true := (Bool.and_eq_true_iff.mp valid).1
  have noStart : Identifier.isStart ':' = false := by decide
  have noContinue : Identifier.isContinue ':' = false := by decide
  intro member
  cases characters : (unraw name).toList with
  | nil =>
      rw [characters] at member
      cases member
  | cons first rest =>
      rw [characters] at member spelled
      have parts := Bool.and_eq_true_iff.mp spelled
      rcases List.mem_cons.mp member with rfl | later
      · rw [noStart] at parts
        cases parts.1
      · have continues := List.all_eq_true.mp parts.2 _ later
        rw [noContinue] at continues
        cases continues

theorem toList_join (first second : String) (more : List String) :
    ("::".intercalate (first :: second :: more)).toList =
      first.toList ++ ':' :: ':' :: ("::".intercalate (second :: more)).toList := by
  rw [String.intercalate_cons_cons, String.toList_append, String.toList_append, List.append_assoc]
  rfl

/-- Names without colons can be read off what joins them. -/
theorem join_injective {names names' : List String} (clear : ∀ name ∈ names, ':' ∉ name.toList)
    (clear' : ∀ name ∈ names', ':' ∉ name.toList) (filled : names ≠ []) (filled' : names' ≠ [])
    (same : "::".intercalate names = "::".intercalate names') : names = names' := by
  induction names generalizing names' with
  | nil => exact absurd rfl filled
  | cons first rest ih =>
      cases names' with
      | nil => exact absurd rfl filled'
      | cons first' rest' =>
          have texts := congrArg String.toList same
          have clearFirst := clear first List.mem_cons_self
          have clearFirst' := clear' first' List.mem_cons_self
          cases rest with
          | nil =>
              cases rest' with
              | nil =>
                  rw [String.intercalate_singleton, String.intercalate_singleton] at same
                  rw [same]
              | cons second' more' =>
                  rw [toList_join, String.intercalate_singleton] at texts
                  exact absurd (texts ▸ List.mem_append_right _ List.mem_cons_self) clearFirst
          | cons second more =>
              cases rest' with
              | nil =>
                  rw [toList_join, String.intercalate_singleton] at texts
                  exact absurd (texts ▸ List.mem_append_right _ List.mem_cons_self) clearFirst'
              | cons second' more' =>
                  rw [toList_join, toList_join] at texts
                  obtain ⟨sameFirst, sameRest⟩ := List.split_unique clearFirst clearFirst' texts
                  have joined := String.toList_inj.mp (List.cons.inj sameRest).2
                  have behind := ih (fun name member => clear name (List.mem_cons_of_mem _ member))
                    (fun name member => clear' name (List.mem_cons_of_mem _ member))
                    (List.cons_ne_nil _ _) (List.cons_ne_nil _ _) joined
                  rw [String.toList_inj.mp sameFirst, behind]

/-- Tests of one annotated module with the same key stand in the same module and have the same name. -/
theorem key_injective {root : String} {module module' : ModulePath} {function function' : String}
    (valid : isValid root = true) (below : ∀ name ∈ module, isValid name = true)
    (below' : ∀ name ∈ module', isValid name = true) (named : isValid function = true)
    (named' : isValid function' = true) (same : key root module function = key root module' function') :
    module.map unraw = module'.map unraw ∧ unraw function = unraw function' := by
  have clear : ∀ {module : ModulePath} {function : String}, (∀ name ∈ module, isValid name = true) →
      isValid function = true → ∀ name ∈ parts root module function, ':' ∉ name.toList := by
    intro module function below named name member
    rcases List.mem_append.mp member with front | last
    · rcases List.mem_cons.mp front with rfl | inside
      · exact colon_of_isValid valid
      · obtain ⟨own, ownIn, rfl⟩ := List.mem_map.mp inside
        exact colon_of_isValid (below own ownIn)
    · rw [List.mem_singleton.mp last]
      exact colon_of_isValid named
  have joined : parts root module function = parts root module' function' :=
    join_injective (clear below named) (clear below' named') (by simp [parts]) (by simp [parts]) same
  have tails := (List.cons.inj joined).2
  obtain ⟨modules, last⟩ := List.append_inj' tails rfl
  exact ⟨modules, (List.cons.inj last).1⟩

theorem not_keyword_of_isDeclarable {name : String} (declarable : isDeclarable name = true) :
    name ∉ Parse.keywords := by
  simpa using (Bool.and_eq_true_iff.mp declarable).2

/-- A generated name joins at least two parts. -/
theorem underscore_generated (root : String) (module : ModulePath) (function : String) :
    '_' ∈ (generated root module function).toList := by
  obtain ⟨second, more, tail⟩ : ∃ second more, module.map unraw ++ [unraw function] = second :: more :=
    List.exists_cons_of_ne_nil (by simp)
  have parts : generated root module function = "_".intercalate (unraw root :: second :: more) := by
    rw [← tail]
    rfl
  rw [parts, String.intercalate_cons_cons, String.toList_append, String.toList_append]
  simp

end Name

end TestDouble
