import TestDouble.Generated.Rereading
import TestDouble.Proofs.Source.Running
/-!
# Templates that read

Some parts of a unit and of the dispatcher are the same for every specification but for the names in them. They read
whatever the names are, if only none of them is a keyword.

Each template is written down once more as the tokens that it is cut into, since a run takes them one by one. Its fixed
stretches are read by computing; a stretch with a name in it is read by the lemmas on names.
-/

namespace TestDouble

namespace Tree

/-- A sign that another one follows without a gap. -/
def joint (sign : String) : Tree := .token (.punct sign true)

def literal (spelling : String) : Tree := .token (.literal spelling)

def lifetime (name : String) : Tree := .token (.lifetime name)

/-- Names, each behind its two colons. -/
def globally : List String → List Tree → List Tree
  | [], rest => rest
  | name :: names, rest => joint ":" :: punct ":" :: ident name :: globally names rest

end Tree

-- The words and signs of a template are told apart by computing, character by character.
set_option maxRecDepth 100000

open Grammar
open TestDouble.Parse hiding lifetime
open TestDouble.Tree (ident punct group joint literal lifetime globally plainPath)

variable {n : String}

/-- An implementation for a type reads if its members do. -/
theorem itemImpl_takes (named : n ∉ keywords) (level : Nat) {content functions : List Tree}
    (reads : untilEnd (implMember (bounded (level + 2))) content = some (functions, []))
    (bare : innerAttributes (bounded (level + 2)) content = some (.node .attributes [], content)) :
    Takes (attributed itemImpl (bounded (level + 2))) [ident "impl", ident n, group .brace content] [] := by
  have const := peekKeyword_name named "const" [group .brace content] (by decide)
  have type : (bounded (level + 2)).type true [ident n, group .brace content] = _ := typeRule_name named level
  have members : members (bounded (level + 2)) (implMember (bounded (level + 2))) [group .brace content] = _ :=
    within_taken (goesOn bare (goesOn reads rfl))
  iterate 8 refine .step rfl ?_
  refine .step const ?_
  iterate 5 refine .step rfl ?_
  exact .step type (.step rfl (.step rfl (.step rfl (.step members ⟨_, rfl⟩))))

namespace Specification

/-! ### The type -/

def fieldTokens : List Tree :=
  [ident "core", punct ":"] ++ globally ["std", "rc", "Rc"] (joint "<" :: globally ["pinky", "MockCore"]
    ([joint ">", punct ",", ident "mode", punct ":"] ++ globally ["pinky", "Mode"] [punct ","]))

theorem code_fields : code "core: ::std::rc::Rc<::pinky::MockCore>, mode: ::pinky::Mode," = fieldTokens := by
  rw [code_ofList]
  rfl

theorem fields_take (level : Nat) : Takes (structBody (bounded (level + 12))) [group .brace fieldTokens] [] :=
  ⟨_, rfl⟩

theorem type_takes (named : n ∉ keywords) (level : Nat) :
    Takes (attributed itemStruct (bounded (level + 12)))
      [ident "pub", ident "struct", ident n, group .brace fieldTokens] [] := by
  obtain ⟨fields, body⟩ := fields_take level
  exact .step rfl (.step rfl (.step rfl (.step (name_name named) (.step rfl (.step body ⟨_, rfl⟩)))))

theorem typeItem_tokens (specification : Specification) : specification.typeItem =
    [ident "pub", ident "struct", ident specification.generatedName, group .brace fieldTokens] := by
  rw [typeItem, code_fields]
  rfl

theorem typeItem_rereads {specification : Specification} (named : specification.generatedName ∉ keywords) :
    Tree.rereads (attributed itemStruct) specification.typeItem = true := by
  rw [typeItem_tokens]
  exact Tree.rereads_of_takes rfl 12 (by simp [Tree.sizeAll, Tree.size, group]; omega) (type_takes named)

/-! ### The constructor -/

/-- The value of the constructor: the double in one more box. -/
def boxingTokens : List Tree := globally ["std", "boxed", "Box", "new"] [group .paren [ident "mock"]]

/-- What stands behind the sign: the double itself, and then its boxing. -/
def doubleTokens : List Tree :=
  globally ["std", "boxed", "Box", "new"]
    (group .paren [ident "Self", group .brace [ident "core", punct ",", ident "mode"]] :: punct ";" :: boxingTokens)

def boxedType (contract : String) (rest : List Tree) : List Tree :=
  globally ["std", "boxed", "Box"] (punct "<" :: ident "dyn" :: ident contract :: punct ">" :: punct "=" :: rest)

def creationTokens (contract : String) : List Tree :=
  [ident "let", ident "mock", punct ":"] ++ boxedType contract doubleTokens

def constructorTokens (contract : String) : List Tree :=
  [ident "pub", ident "fn", ident "summon", group .paren fieldTokens, joint "-", punct ">"] ++
    globally ["std", "boxed", "Box"] ([punct "<", ident "dyn"] ++
      globally ["std", "any", "Any"] [punct ">", group .brace (creationTokens contract)])

/-- The segment `Box` is read with its argument, the segments in front of it by computing. -/
theorem boxedType_reads (named : n ∉ keywords) (level : Nat) (rest : List Tree) : ∃ children,
    typeRule (bounded (level + 3)) true (boxedType n rest) =
      some (.node .typePath [.node .path children], punct "=" :: rest) := by
  have arguments := genericArguments_object named level (punct "=" :: rest)
  have box : segment (bounded (level + 2)) false
      (ident "Box" :: punct "<" :: ident "dyn" :: ident n :: punct ">" :: punct "=" :: rest) = _ :=
    goesOn rfl (goesOn rfl (goesOn rfl (goesOn rfl (goesOn rfl (goesOn rfl (goesOn rfl (goesOn rfl
      (goesOn arguments rfl))))))))
  have path : (bounded (level + 3)).path false (boxedType n rest) = _ :=
    goesOn rfl (goesOn rfl (goesOn (rounds (again (goesOn rfl (goesOn rfl (goesOn rfl (goesOn rfl rfl))))
      (again (goesOn rfl (goesOn rfl (goesOn rfl (goesOn box rfl)))) (finish (goesOn rfl (goesOn rfl rfl)))))) rfl))
  have type : typePath (bounded (level + 3)) (boxedType n rest) = _ :=
    goesOn (goesOn rfl path) (goesOn (oneRound (goesOn rfl rfl)) rfl)
  exact ⟨_, goesOn rfl (goesOn rfl (goesOn rfl (goesOn rfl (goesOn rfl (goesOn rfl
    (goesOn type (goesOn rfl rfl)))))))⟩

theorem local_takes (named : n ∉ keywords) (level : Nat) :
    Takes (statement (bounded (level + 20))) (creationTokens n) boxingTokens := by
  obtain ⟨children, type⟩ := boxedType_reads named (level + 16) doubleTokens
  refine .step rfl (.step rfl (.step rfl (.step rfl ?_)))
  refine .step rfl (.step rfl (.step rfl (.step rfl (.step type ?_))))
  exact ⟨_, rfl⟩

theorem boxing_takes (level : Nat) : Takes (statement (bounded (level + 20))) boxingTokens [] :=
  ⟨_, rfl⟩

theorem creation_reads (named : n ∉ keywords) (level : Nat) : ∃ statements,
    blockRule (bounded (level + 20)) true [group .brace (creationTokens n)] = some (group .brace statements, []) := by
  obtain ⟨first, makes⟩ := local_takes named level
  obtain ⟨second, boxes⟩ := boxing_takes level
  have statements := untilEnd_yields
    (.cons makes (by simp [boxingTokens, doubleTokens, boxedType, globally]) (.cons boxes (by simp) .nil))
  exact ⟨_, within_taken (goesOn rfl (goesOn statements rfl))⟩

theorem function_takes (named : n ∉ keywords) (level : Nat) :
    Takes (implMember (bounded (level + 21))) (constructorTokens n) [] := by
  obtain ⟨statements, body⟩ := creation_reads named level
  iterate 10 refine .step rfl ?_
  exact .step (goesOn rfl body) ⟨_, rfl⟩

theorem code_signature : code "pub fn summon(core: ::std::rc::Rc<::pinky::MockCore>, mode: ::pinky::Mode,)" =
    [ident "pub", ident "fn", ident "summon", group .paren fieldTokens] := by
  rw [code_ofList]
  rfl

theorem code_result : code "-> ::std::boxed::Box<dyn ::std::any::Any>" =
    [joint "-", punct ">"] ++ globally ["std", "boxed", "Box"] ([punct "<", ident "dyn"] ++
      globally ["std", "any", "Any"] [punct ">"]) := by
  rw [code_ofList]
  rfl

theorem code_local : code "let mock: ::std::boxed::Box<dyn" =
    [ident "let", ident "mock", punct ":"] ++ globally ["std", "boxed", "Box"] [punct "<", ident "dyn"] := by
  rw [code_ofList]
  rfl

theorem code_boxing : code "> = ::std::boxed::Box::new(Self \x7b core, mode \x7d); ::std::boxed::Box::new(mock)" =
    [punct ">", punct "="] ++ doubleTokens := by
  rw [code_ofList]
  rfl

theorem constructor_tokens (specification : Specification) : specification.constructor =
    [ident "impl", ident specification.generatedName, group .brace (constructorTokens specification.contract)] := by
  rw [Specification.constructor, code_signature, code_result, code_local, code_boxing]
  rfl

theorem constructor_rereads {specification : Specification} (named : specification.generatedName ∉ keywords)
    (contract : specification.contract ∉ keywords) :
    Tree.rereads (attributed itemImpl) specification.constructor = true := by
  rw [constructor_tokens]
  refine Tree.rereads_of_takes rfl 21 (by simp [Tree.sizeAll, Tree.size, ident, group, constructorTokens]; omega)
    fun level => ?_
  obtain ⟨function, reads⟩ := function_takes contract level
  exact itemImpl_takes named (level + 19) (untilEnd_yields (.cons reads (by simp) .nil)) rfl

end Specification

namespace Dispatcher

/-! ### The import -/

def importTokens (name : String) : List Tree :=
  [punct "#", group .bracket [ident "allow", group .paren [ident "unused_imports"]], ident "use", ident "self",
    joint ":", punct ":", ident "__pinky_ghost", joint ":", punct ":", ident name, punct ";"]

theorem allowUnusedImports_tokens : allowUnusedImports =
    [punct "#", group .bracket [ident "allow", group .paren [ident "unused_imports"]]] := by
  rw [allowUnusedImports]
  repeat rw [code_ofList]
  rfl

theorem code_use : code "use self::__pinky_ghost::" =
    [ident "use", ident "self", joint ":", punct ":", ident "__pinky_ghost", joint ":", punct ":"] := by
  rw [code_ofList]
  rfl

theorem useTree_reads (named : n ∉ keywords) (level : Nat) :
    useTreeRule (bounded level) false [ident n, punct ";"] = some (.node .useName [ident n], [punct ";"]) := by
  have words := peekKeywords_name named importWords [punct ";"] (by decide)
  exact goesOn (peek_name named) (goesOn words (goesOn rfl (goesOn rfl (goesOn rfl rfl))))

theorem import_takes (named : n ∉ keywords) (level : Nat) :
    Takes (attributed itemUse (bounded (level + 3))) (importTokens n) [] := by
  have own := useTree_reads named level
  have inUnit : useTreeRule (bounded (level + 1)) false
      [ident "__pinky_ghost", joint ":", punct ":", ident n, punct ";"] = _ :=
    goesOn rfl (goesOn rfl (goesOn rfl (goesOn rfl (goesOn rfl (goesOn own rfl)))))
  have anchored : useTreeRule (bounded (level + 2)) true
      [ident "self", joint ":", punct ":", ident "__pinky_ghost", joint ":", punct ":", ident n, punct ";"] = _ :=
    goesOn rfl (goesOn rfl (goesOn rfl (goesOn rfl (goesOn rfl (goesOn inUnit rfl)))))
  iterate 5 refine .step rfl ?_
  exact .step anchored ⟨_, rfl⟩

theorem importItem_rereads {dispatcher : Dispatcher} (named : dispatcher.name ∉ keywords) :
    Tree.rereads (attributed itemUse) [dispatcher.importItem] = true := by
  have tokens : Tree.lexedAll (Tree.canonicalAll [dispatcher.importItem]) = importTokens dispatcher.name := by
    rw [importItem, allowUnusedImports_tokens, code_use]
    rfl
  have same : Tree.lexedAll (Tree.canonicalAll (importTokens dispatcher.name)) = importTokens dispatcher.name :=
    Tree.canonicalAll_lexed rfl
  rw [Tree.rereads, tokens, ← same, ← Tree.rereads]
  exact Tree.rereads_of_takes rfl 3 (by omega) (import_takes named)

/-! ### The registry -/

def summonTokens (registration : Registration) : List Tree :=
  [ident "super", joint ":", punct ":", ident registration.unit, joint ":", punct ":", ident registration.type,
    joint ":", punct ":", ident "summon"]

def argumentTokens (registration : Registration) : List Tree :=
  literal (Text.stringLiteral registration.key) :: punct "," :: summonTokens registration

def registrationTokens (registration : Registration) : List Tree :=
  [ident "registry", punct ".", ident "register", group .paren (argumentTokens registration), punct ";"]

/-- Whether what a registration names can be written as it stands. -/
def Named (registration : Registration) : Prop := registration.unit ∉ keywords ∧ registration.type ∉ keywords

variable {registration : Registration} {registrations : List Registration}

/-- The path to the constructor: up to the annotated module, into the unit, and to the type in it. -/
theorem summonPath_reads (named : Named registration) (level : Nat) : ∃ children,
    pathRule (bounded level) true (summonTokens registration) = some (.node .path children, []) := by
  obtain ⟨unit, type⟩ := named
  have inUnit := segment_name unit (bounded level) true
    [joint ":", punct ":", ident registration.type, joint ":", punct ":", ident "summon"] rfl rfl
  have inType := segment_name type (bounded level) true [joint ":", punct ":", ident "summon"] rfl rfl
  exact ⟨_, goesOn rfl (goesOn rfl (goesOn (rounds
    (again (goesOn rfl (goesOn rfl (goesOn rfl (goesOn inUnit rfl))))
      (again (goesOn rfl (goesOn rfl (goesOn rfl (goesOn inType rfl))))
        (again (goesOn rfl (goesOn rfl (goesOn rfl (goesOn rfl rfl))))
          (finish (goesOn rfl (goesOn rfl rfl))))))) rfl))⟩

theorem summon_takes (named : Named registration) (level : Nat) :
    Takes (exprRule (bounded (level + 2)) true) (summonTokens registration) [] := by
  obtain ⟨children, path⟩ := summonPath_reads named level
  have whole : pathOrInvocation (bounded (level + 1)) true (summonTokens registration) = _ :=
    goesOn (goesOn rfl path) (goesOn rfl (goesOn rfl (goesOn rfl rfl)))
  have begins : operand (bounded (level + 1)) true (summonTokens registration) = _ :=
    goesOn rfl (goesOn rfl (goesOn rfl whole))
  exact ⟨_, goesOn (goesOn rfl (goesOn rfl (goesOn rfl (goesOn rfl (goesOn begins (goesOn rfl rfl)))))) rfl⟩

theorem arguments_take (named : Named registration) (level : Nat) :
    Takes (commaList ((bounded (level + 3)).expr true)) (argumentTokens registration) [] := by
  obtain ⟨summon, path⟩ := summon_takes named level
  have key : (bounded (level + 3)).expr true (argumentTokens registration) =
      some (plain .literal [literal (Text.stringLiteral registration.key)],
        punct "," :: summonTokens registration) := by
    rfl
  exact ⟨_, commaList_two key path⟩

/-- A call of a method on a static name: its arguments are read first, then what they are attached to. -/
theorem registration_takes (named : Named registration) (level : Nat) (rest : List Tree) :
    Takes (statement (bounded (level + 5))) (registrationTokens registration ++ rest) rest := by
  obtain ⟨arguments, reads⟩ := arguments_take named level
  have call : member (bounded (level + 3)) (plain .pathExpr [plainPath ["registry"]]) (punct ".")
      (ident "register" :: group .paren (argumentTokens registration) :: punct ";" :: rest) = _ :=
    goesOn rfl (goesOn rfl (goesOn rfl (goesOn rfl (goesOn rfl (goesOn (within_taken reads) rfl)))))
  have attached : attachments (bounded (level + 3)) (plain .pathExpr [plainPath ["registry"]])
      (punct "." :: ident "register" :: group .paren (argumentTokens registration) :: punct ";" :: rest) = _ :=
    rounds (again (goesOn rfl (goesOn rfl (goesOn rfl (goesOn (goesOn rfl (goesOn rfl call)) rfl))))
      (finish (goesOn rfl (goesOn rfl (goesOn rfl (goesOn rfl (goesOn rfl rfl)))))))
  have unary : (bounded (level + 4)).unary true (registrationTokens registration ++ rest) = _ :=
    goesOn rfl (goesOn rfl (goesOn rfl (goesOn rfl (goesOn rfl (goesOn attached rfl)))))
  have early : (bounded (level + 5)).early (registrationTokens registration ++ rest) = _ :=
    goesOn rfl (goesOn rfl (goesOn rfl (goesOn unary rfl)))
  exact .step rfl (.step rfl (.step rfl (.step rfl (.step rfl (.step early (.step rfl ⟨_, rfl⟩))))))

/-- The registrations, and behind them the registry as the value. -/
def enteredTokens (registrations : List Registration) : List Tree :=
  registrations.flatMap registrationTokens ++ [ident "registry"]

def initialTokens (registrations : List Registration) : List Tree :=
  [ident "let", ident "mut", ident "registry", punct "="] ++ globally ["pinky", "Registry", "new"]
    (group .paren [] :: punct ";" :: enteredTokens registrations)

theorem value_takes (level : Nat) : Takes (statement (bounded (level + 20))) [ident "registry"] [] :=
  ⟨_, rfl⟩

theorem new_takes (level : Nat) (rest : List Tree) :
    Takes (statement (bounded (level + 20))) ([ident "let", ident "mut", ident "registry", punct "="] ++
      globally ["pinky", "Registry", "new"] (group .paren [] :: punct ";" :: rest)) rest :=
  ⟨_, rfl⟩

theorem entered_yields (named : ∀ registration ∈ registrations, Named registration) (level : Nat) : ∃ statements,
    Yields (statement (bounded (level + 20))) (enteredTokens registrations) statements := by
  induction registrations with
  | nil =>
      obtain ⟨value, reads⟩ := value_takes level
      exact ⟨_, .cons reads (by simp) .nil⟩
  | cons first more ih =>
      have others := fun registration member => named registration (List.mem_cons_of_mem first member)
      obtain ⟨statements, yields⟩ := ih others
      obtain ⟨one, reads⟩ := registration_takes (named first List.mem_cons_self) (level + 15) (enteredTokens more)
      rw [enteredTokens, List.flatMap_cons, List.append_assoc]
      exact ⟨_, .cons reads (Nat.le_add_right _ 4) yields⟩

theorem initial_reads (named : ∀ registration ∈ registrations, Named registration) (level : Nat) : ∃ statements,
    blockRule (bounded (level + 20)) true [group .brace (initialTokens registrations)] =
      some (group .brace statements, []) := by
  obtain ⟨first, makes⟩ := new_takes level (enteredTokens registrations)
  obtain ⟨statements, yields⟩ := entered_yields named level
  have all := untilEnd_yields (.cons makes (by simp [globally]; omega) yields)
  exact ⟨_, within_taken (goesOn rfl (goesOn all rfl))⟩

def closureTokens (registrations : List Registration) : List Tree :=
  [joint "|", punct "|", group .brace (initialTokens registrations)]

/-- The closure has no parameters; its body is a block, an operand of its own. -/
theorem closure_takes (named : ∀ registration ∈ registrations, Named registration) (level : Nat) :
    Takes (exprRule (bounded (level + 24)) true) (closureTokens registrations) [] := by
  obtain ⟨statements, body⟩ := initial_reads named level
  have block : operand (bounded (level + 21)) true [group .brace (initialTokens registrations)] = _ :=
    goesOn rfl (goesOn rfl (goesOn rfl (goesOn rfl (goesOn rfl (goesOn rfl (goesOn rfl (goesOn body rfl)))))))
  have unary : (bounded (level + 22)).unary true [group .brace (initialTokens registrations)] = _ :=
    goesOn rfl (goesOn rfl (goesOn rfl (goesOn rfl (goesOn block (goesOn rfl rfl)))))
  have value : (bounded (level + 23)).expr true [group .brace (initialTokens registrations)] = _ :=
    goesOn unary rfl
  have closure : closure (bounded (level + 23)) true (closureTokens registrations) = _ :=
    goesOn rfl (goesOn rfl (goesOn rfl (goesOn rfl (goesOn rfl (goesOn rfl (goesOn rfl (goesOn rfl (goesOn rfl
      (goesOn value rfl)))))))))
  have begins : operand (bounded (level + 23)) true (closureTokens registrations) = _ :=
    goesOn rfl (goesOn rfl closure)
  exact ⟨_, goesOn (goesOn rfl (goesOn rfl (goesOn rfl (goesOn rfl (goesOn begins (goesOn rfl rfl)))))) rfl⟩

def firstUseTokens (registrations : List Registration) : List Tree :=
  [ident "REGISTRY", punct ".", ident "get_or_init", group .paren (closureTokens registrations)]

theorem firstUse_takes (named : ∀ registration ∈ registrations, Named registration) (level : Nat) :
    Takes (statement (bounded (level + 27))) (firstUseTokens registrations) [] := by
  obtain ⟨made, closure⟩ := closure_takes named level
  have arguments : commaList ((bounded (level + 25)).expr true) (closureTokens registrations) = some ([made], []) :=
    commaList_one closure
  have call : member (bounded (level + 25)) (plain .pathExpr [plainPath ["REGISTRY"]]) (punct ".")
      [ident "get_or_init", group .paren (closureTokens registrations)] = _ :=
    goesOn rfl (goesOn rfl (goesOn rfl (goesOn rfl (goesOn rfl (goesOn (within_taken arguments) rfl)))))
  have attached : attachments (bounded (level + 25)) (plain .pathExpr [plainPath ["REGISTRY"]])
      [punct ".", ident "get_or_init", group .paren (closureTokens registrations)] = _ :=
    rounds (again (goesOn rfl (goesOn rfl (goesOn rfl (goesOn (goesOn rfl (goesOn rfl call)) rfl))))
      (finish (goesOn rfl (goesOn rfl (goesOn rfl (goesOn rfl (goesOn rfl rfl)))))))
  have unary : (bounded (level + 26)).unary true (firstUseTokens registrations) = _ :=
    goesOn rfl (goesOn rfl (goesOn rfl (goesOn rfl (goesOn rfl (goesOn attached rfl)))))
  have early : (bounded (level + 27)).early (firstUseTokens registrations) = _ :=
    goesOn rfl (goesOn rfl (goesOn rfl (goesOn unary rfl)))
  exact .step rfl (.step rfl (.step rfl (.step rfl (.step rfl (.step early (.step rfl ⟨_, rfl⟩))))))

def staticTokens (registrations : List Registration) : List Tree :=
  [ident "static", ident "REGISTRY", punct ":"] ++ globally ["std", "sync", "OnceLock"] (joint "<" ::
    globally ["pinky", "Registry"] ([punct ">", punct "="] ++ globally ["std", "sync", "OnceLock", "new"]
      (group .paren [] :: punct ";" :: firstUseTokens registrations)))

def registryTokens (registrations : List Registration) : List Tree :=
  [ident "fn", ident "registry", group .paren [], joint "-", punct ">", joint "&", lifetime "'static"] ++
    globally ["pinky", "Registry"] [group .brace (staticTokens registrations)]

theorem static_takes (registrations : List Registration) (level : Nat) :
    Takes (statement (bounded (level + 27))) (staticTokens registrations) (firstUseTokens registrations) :=
  ⟨_, rfl⟩

theorem registryBody_reads (named : ∀ registration ∈ registrations, Named registration) (level : Nat)
    (rest : List Tree) : ∃ statements,
    blockRule (bounded (level + 27)) true (group .brace (staticTokens registrations) :: rest) =
      some (group .brace statements, rest) := by
  obtain ⟨first, declares⟩ := static_takes registrations level
  obtain ⟨second, uses⟩ := firstUse_takes named level
  have statements := untilEnd_yields
    (.cons declares (by simp [firstUseTokens, globally]) (.cons uses (by simp) .nil))
  exact ⟨_, within_taken (goesOn rfl (goesOn statements rfl))⟩

theorem registry_takes (named : ∀ registration ∈ registrations, Named registration) (level : Nat)
    (rest : List Tree) :
    Takes (implMember (bounded (level + 28))) (registryTokens registrations ++ rest) rest := by
  obtain ⟨statements, body⟩ := registryBody_reads named level rest
  iterate 10 refine .step rfl ?_
  exact .step (goesOn rfl body) ⟨_, rfl⟩

/-! ### The functions of the dispatcher -/

def ofTokens : List Tree :=
  [punct "#", group .bracket [ident "doc", punct "=",
    literal "r\" Mock registered for the calling test function.\""], punct "#",
    group .bracket [ident "track_caller"], ident "pub", ident "fn", ident "of", punct "<", ident "T", punct ":",
    punct "?", ident "Sized", punct "+", lifetime "'static", punct ">", group .paren [ident "key", punct ":",
    joint "&", lifetime "'static", ident "str"], joint "-", punct ">"] ++ globally ["pinky", "Ghosted"] ([punct "<",
    ident "T", punct ">", group .brace ([ident "match", ident "Self"] ++ globally ["registry"] [group .paren [],
    punct ".", ident "summon", joint ":", joint ":", punct "<", ident "T", punct ">", group .paren [ident "key"],
    group .brace [ident "Ok", group .paren [ident "ghost"], joint "=", punct ">", ident "ghost", punct ",",
    ident "Err", group .paren [ident "err"], joint "=", punct ">", ident "panic", punct "!",
    group .paren [literal "\"\x7b\x7d\"", punct ",", ident "err"], punct ","]])])

theorem ofFunction_tokens : ofFunction = ofTokens := by
  rw [ofFunction]
  repeat rw [code_ofList]
  rfl

theorem of_takes (level : Nat) (rest : List Tree) :
    Takes (implMember (bounded (level + 28))) (ofTokens ++ rest) rest :=
  ⟨_, rfl⟩

def receivedTokens : List Tree :=
  [punct "#", group .bracket [ident "doc", punct "=",
    literal "r\" Verifier of `ghost` expecting exactly `count` calls of the\""], punct "#",
    group .bracket [ident "doc", punct "=", literal "r\" method invoked on it.\""], punct "#",
    group .bracket [ident "track_caller"], ident "pub", ident "fn", ident "received", punct "<", ident "T",
    punct ":", punct "?", ident "Sized", punct "+", lifetime "'static", punct ">", group .paren ([ident "ghost",
    punct ":", joint "&"] ++ globally ["pinky", "Ghosted"] [punct "<", ident "T", joint ">", punct ",",
    ident "count", punct ":", ident "usize", punct ","]), joint "-", punct ">"] ++ globally ["std", "boxed",
    "Box"] ([punct "<", ident "T", punct ">", group .brace ([ident "match", ident "Self"] ++
    globally ["registry"] [group .paren [], punct ".", ident "received", joint ":", joint ":", punct "<", ident "T",
    punct ">", group .paren [ident "ghost", punct ",", ident "count"], group .brace [ident "Ok",
    group .paren [ident "mock"], joint "=", punct ">", ident "mock", punct ",", ident "Err",
    group .paren [ident "err"], joint "=", punct ">", ident "panic", punct "!", group .paren [literal "\"\x7b\x7d\"",
    punct ",", ident "err"], punct ","]])])

theorem receivedFunction_tokens : receivedFunction = receivedTokens := by
  rw [receivedFunction]
  repeat rw [code_ofList]
  rfl

theorem received_takes (level : Nat) (rest : List Tree) :
    Takes (implMember (bounded (level + 28))) (receivedTokens ++ rest) rest :=
  ⟨_, rfl⟩

def didNotReceiveTokens : List Tree :=
  [punct "#", group .bracket [ident "doc", punct "=", literal "r\" Verifier of `ghost` expecting no call.\""],
    punct "#", group .bracket [ident "track_caller"], ident "pub", ident "fn", ident "did_not_receive", punct "<",
    ident "T", punct ":", punct "?", ident "Sized", punct "+", lifetime "'static", punct ">",
    group .paren ([ident "ghost", punct ":", joint "&"] ++ globally ["pinky", "Ghosted"] [punct "<", ident "T",
    joint ">", punct ","]), joint "-", punct ">"] ++ globally ["std", "boxed", "Box"] ([punct "<", ident "T",
    punct ">", group .brace ([ident "Self"] ++ globally ["received"] [group .paren [ident "ghost", punct ",",
    literal "0"]])])

theorem didNotReceiveFunction_tokens : didNotReceiveFunction = didNotReceiveTokens := by
  rw [didNotReceiveFunction]
  repeat rw [code_ofList]
  rfl

theorem didNotReceive_takes (level : Nat) :
    Takes (implMember (bounded (level + 28))) didNotReceiveTokens [] :=
  ⟨_, rfl⟩

/-! ### The implementation -/

def implementationTokens (registrations : List Registration) : List Tree :=
  registryTokens registrations ++ (ofTokens ++ (receivedTokens ++ didNotReceiveTokens))

theorem functions_yield (named : ∀ registration ∈ registrations, Named registration) (level : Nat) : ∃ functions,
    Yields (implMember (bounded (level + 28))) (implementationTokens registrations) functions := by
  obtain ⟨_, registry⟩ := registry_takes named level (ofTokens ++ (receivedTokens ++ didNotReceiveTokens))
  obtain ⟨_, creating⟩ := of_takes level (receivedTokens ++ didNotReceiveTokens)
  obtain ⟨_, counting⟩ := received_takes level didNotReceiveTokens
  obtain ⟨_, refusing⟩ := didNotReceive_takes level
  exact ⟨_, .cons registry (by simp; omega) (.cons creating (by simp; omega)
    (.cons counting (by simp; omega) (.cons refusing (by simp) .nil)))⟩

theorem code_registry : code "fn registry() -> &'static ::pinky::Registry" =
    [ident "fn", ident "registry", group .paren [], joint "-", punct ">", joint "&", lifetime "'static"] ++
      globally ["pinky", "Registry"] [] := by
  rw [code_ofList]
  rfl

theorem code_static :
    code "static REGISTRY: ::std::sync::OnceLock<::pinky::Registry> = ::std::sync::OnceLock::new();" =
      [ident "static", ident "REGISTRY", punct ":"] ++ globally ["std", "sync", "OnceLock"] (joint "<" ::
        globally ["pinky", "Registry"] ([punct ">", punct "="] ++ globally ["std", "sync", "OnceLock", "new"]
          [group .paren [], punct ";"])) := by
  rw [code_ofList]
  rfl

theorem code_firstUse : code "REGISTRY.get_or_init" = [ident "REGISTRY", punct ".", ident "get_or_init"] := by
  rw [code_ofList]
  rfl

theorem code_bars : code "||" = [joint "|", punct "|"] := by
  rw [code_ofList]
  rfl

theorem code_new : code "let mut registry = ::pinky::Registry::new();" =
    [ident "let", ident "mut", ident "registry", punct "="] ++ globally ["pinky", "Registry", "new"]
      [group .paren [], punct ";"] := by
  rw [code_ofList]
  rfl

theorem code_value : code "registry" = [ident "registry"] := by
  rw [code_ofList]
  rfl

theorem registryFunction_tokens (dispatcher : Dispatcher) :
    dispatcher.registryFunction = registryTokens dispatcher.registrations := by
  rw [registryFunction]
  simp only [code_registry, code_static, code_firstUse, code_bars, code_new, code_value]
  rfl

theorem implementation_tokens (dispatcher : Dispatcher) : dispatcher.implementation =
    [ident "impl", ident dispatcher.name, group .brace (implementationTokens dispatcher.registrations)] := by
  rw [implementation, registryFunction_tokens, ofFunction_tokens, receivedFunction_tokens, didNotReceiveFunction_tokens,
    List.append_assoc, List.append_assoc]
  rfl

theorem isLexed_entered (registrations : List Registration) :
    Tree.isLexedAll (enteredTokens registrations) = true := by
  induction registrations with
  | nil => rfl
  | cons first more ih =>
      rw [enteredTokens, List.flatMap_cons, List.append_assoc]
      exact ih

theorem isLexed_implementation (name : String) (registrations : List Registration) :
    Tree.isLexedAll [ident "impl", ident name, group .brace (implementationTokens registrations)] = true := by
  have entered := isLexed_entered registrations
  have registry : Tree.isLexedAll (registryTokens registrations) = true := by
    simp [registryTokens, staticTokens, firstUseTokens, closureTokens, initialTokens, globally, entered,
      Tree.isLexedAll, Tree.isLexed, joint, punct, ident, lifetime, group]
  have functions : Tree.isLexedAll (implementationTokens registrations) = true := by
    rw [implementationTokens, Tree.isLexedAll_append, registry]
    rfl
  simp [Tree.isLexedAll, Tree.isLexed, ident, group, functions]

theorem implementation_rereads {dispatcher : Dispatcher} (named : dispatcher.name ∉ keywords)
    (registered : ∀ registration ∈ dispatcher.registrations, Named registration) :
    Tree.rereads (attributed itemImpl) dispatcher.implementation = true := by
  rw [implementation_tokens]
  refine Tree.rereads_of_takes (isLexed_implementation _ _) 28
    (by simp [Tree.sizeAll, Tree.size, ident, group, implementationTokens, registryTokens]; omega) fun level => ?_
  obtain ⟨functions, yields⟩ := functions_yield registered level
  exact itemImpl_takes named (level + 26) (untilEnd_yields yields) rfl

end Dispatcher

end TestDouble
