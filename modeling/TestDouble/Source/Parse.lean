import TestDouble.Source.Tree
/-!
# Reading trees from token trees

`Parse α` takes what it recognises off the front of a list of token trees, or fails. There is one kind
of failure and no position, since a text that does not read is only ever reported as such.

The peeking functions follow one rule for operators: an operator is seen when its characters stand
there without a gap, also as the beginning of a longer one, so `=` is seen in front of `==`.
-/

namespace TestDouble

abbrev Parse (α : Type) := StateT (List Tree) Option α

namespace Parse

def fail {α : Type} : Parse α := fun _ => none

def rest : Parse (List Tree) := get

def atEnd : Parse Bool := return (← rest).isEmpty

/-- Whether the reader would succeed here; nothing is taken. -/
def wouldSucceed {α : Type} (p : Parse α) : Parse Bool := fun input => some ((p input).isSome, input)

/-- What the reader would find here; nothing is taken. -/
def lookAhead {α : Type} (p : Parse α) : Parse (Option α) := fun input => some ((p input).map (·.1), input)

/-- Takes what the reader finds, or nothing. -/
def maybe {α : Type} (p : Parse α) : Parse (Option α) := fun input =>
  match p input with
  | some (a, after) => some (some a, after)
  | none => some (none, input)

def require (condition : Bool) : Parse Unit := if condition then pure () else fail

/-! ### Peeking -/

/-- Whether the text of an operator stands at the front, its characters without a gap. -/
def seesPunct : (text : List Char) → List Tree → Bool
  | [], _ => false
  | [c], .token (.punct spelling _) :: _ => spelling == String.singleton c
  | c :: d :: more, .token (.punct spelling joint) :: after =>
    spelling == String.singleton c && joint && seesPunct (d :: more) after
  | _, _ => false

/-- The names that cannot be used as identifiers unless they are raw. -/
def keywords : List String :=
  ["_", "abstract", "as", "async", "await", "become", "box", "break", "const", "continue", "crate", "do",
    "dyn", "else", "enum", "extern", "false", "final", "fn", "for", "if", "impl", "in", "let", "loop",
    "macro", "match", "mod", "move", "mut", "override", "priv", "pub", "ref", "return", "Self", "self",
    "static", "struct", "super", "trait", "true", "try", "type", "typeof", "unsafe", "unsized", "use",
    "virtual", "where", "while", "yield"]

inductive Sight where
  /-- An identifier that is not a keyword. -/
  | name
  /-- Any identifier or keyword. -/
  | word
  | keyword (text : String)
  | op (text : String)
  | lifetime
  | literal
  | group (delimiter : Delimiter)

def isKeyword (text : String) : Tree → Bool
  | .token (.ident name) => name == text
  | _ => false

def isName : Tree → Bool
  | .token (.ident name) => !keywords.contains name
  | _ => false

def isGroup (delimiter : Delimiter) : Tree → Bool
  | .node (.group d) _ => d == delimiter
  | _ => false

/-- A literal, a truth value, or a minus with a number behind it. -/
def seesLiteral : List Tree → Bool
  | .token (.literal _) :: _ => true
  | .token (.ident name) :: _ => name == "true" || name == "false"
  | .token (.punct "-" _) :: .token (.literal text) :: _ =>
    match text.toList with
    | c :: _ => '0' ≤ c && c ≤ '9'
    | [] => false
  | _ => false

def sees (sight : Sight) (trees : List Tree) : Bool :=
  match sight with
  | .op text => seesPunct text.toList trees
  | .literal => seesLiteral trees
  | .name => (trees.head?.map isName).getD false
  | .word => (trees.head?.map fun t => t.ident?.isSome).getD false
  | .keyword text => (trees.head?.map (isKeyword text)).getD false
  | .lifetime =>
    match trees with
    | .token (.lifetime _) :: _ => true
    | _ => false
  | .group d => (trees.head?.map (isGroup d)).getD false

/-- Whether the trees behind the first `skip` ones begin with what is asked for. -/
def seesAt (skip : Nat) (sight : Sight) : Parse Bool := return sees sight ((← rest).drop skip)

def peek (sight : Sight) : Parse Bool := seesAt 0 sight

def peekKeyword (text : String) : Parse Bool := peek (.keyword text)

def peekOp (text : String) : Parse Bool := peek (.op text)

def peekAny (sights : List Sight) : Parse Bool := do
  let trees ← rest
  return sights.any fun sight => sees sight trees

def peekKeywords (texts : List String) : Parse Bool := do
  let trees ← rest
  return texts.any fun text => sees (.keyword text) trees

/-! ### Taking -/

def takeIf (condition : Tree → Bool) : Parse Tree := fun input =>
  match input with
  | tree :: after => if condition tree then some (tree, after) else none
  | [] => none

def keyword (text : String) : Parse Tree := takeIf (isKeyword text)

def name : Parse Tree := takeIf isName

def word : Parse Tree := takeIf fun t => t.ident?.isSome

def lifetime : Parse Tree := do
  let token ← takeIf fun
    | .token (.lifetime _) => true
    | _ => false
  return .node .lifetime [token]

/-- An operator, as one token. -/
def op (text : String) : Parse Tree := fun input =>
  if seesPunct text.toList input then some (.punct text, input.drop text.length) else none

/-- The keyword if it stands here, else `absent`. -/
def keyword? (text : String) : Parse Tree := do
  return (← maybe (keyword text)).getD .absent

/-- The operator if it stands here, else `absent`. -/
def op? (text : String) : Parse Tree := do
  return (← maybe (op text)).getD .absent

/-- What the reader takes if the sight is there, else `absent`. -/
def ifSees (sight : Sight) (p : Parse Tree) : Parse Tree := do
  if ← peek sight then p else return .absent

/-- Runs a reader on the content of a group, which it must use up. -/
def within (delimiter : Delimiter) (p : Parse (List Tree)) : Parse Tree := fun input =>
  match input with
  | .node (.group d) content :: after =>
    if d == delimiter then
      match p content with
      | some (children, []) => some (.group delimiter children, after)
      | _ => none
    else none
  | _ => none

/-- Any bracketed group, taken unread. -/
def anyGroup : Parse Tree := takeIf fun
  | .node (.group _) _ => true
  | _ => false

/-! ### Repeating -/

/-- What one round of a repetition decides. -/
inductive Round (β α : Type) where
  | again (state : β)
  | finish (result : α)

def iterateWith {β α : Type} (step : β → Parse (Round β α)) : Nat → β → Parse α
  | 0, _ => fail
  | fuel + 1, state => do
    match ← step state with
    | .again next => iterateWith step fuel next
    | .finish result => pure result

/--
Repeats rounds until one finishes. Every round but the last must take a tree, so the number of trees
bounds the number of rounds.
-/
def iterate {β α : Type} (state : β) (step : β → Parse (Round β α)) : Parse α := fun input =>
  iterateWith step (input.length + 1) state input

def untilEnd (p : Parse Tree) : Parse (List Tree) :=
  iterate [] fun found => do
    if ← atEnd then return .finish found.reverse
    return .again ((← p) :: found)

/-- Elements as long as the condition, tested before each, holds. -/
def whileHolds (condition : Parse Bool) (p : Parse Tree) : Parse (List Tree) :=
  iterate [] fun found => do
    if ← condition then return .again ((← p) :: found)
    return .finish found.reverse

/--
Elements and the separators between them, until `stop` holds; a separator may also end the list.
Without `stop` behind an element a separator must follow.
-/
def separated (separator : String) (stop : Parse Bool) (p : Parse Tree) : Parse (List Tree) :=
  iterate [] fun found => do
    if ← stop then return .finish found.reverse
    let element ← p
    if ← stop then return .finish (element :: found).reverse
    return .again ((← op separator) :: element :: found)

/-- Elements between commas up to the end of the input. -/
def commaList (p : Parse Tree) : Parse (List Tree) := separated "," atEnd p

/-- Elements between `separator`s: one goes on as long as a separator is there and `stop` does not hold. -/
def chained (separator : String) (stop : Parse Bool) (p : Parse Tree) : Parse (List Tree) :=
  iterate [] fun found => do
    if ← stop then return .finish found.reverse
    let element ← p
    if ← peekOp separator then return .again ((← op separator) :: element :: found)
    return .finish (element :: found).reverse

/-- Runs a reader on a whole list of token trees. -/
def complete {α : Type} (p : Parse α) (trees : List Tree) : Option α :=
  match p trees with
  | some (a, []) => some a
  | _ => none

end Parse

end TestDouble
