import TestDouble.Expansion
import TestDouble.Generated.Rereading
import TestDouble.Site.Callee
/-!
# Outcomes

An expansion reads again much of what it generates, and goes on with what it has read. Where that does not read,
it breaks off with neither a module nor problems.
-/

namespace TestDouble

inductive Outcome where
  | expanded (module : Tree)
  | reported (problems : List Problem)
  /-- Something generated does not read. -/
  | broken

/-- Whether a bound callee reads as an expression. -/
def calleeRereads (callee : Tree) : Bool := Tree.rereads (fun g => g.expr true) [callee]

/-- Whether all that is generated for some specifications reads. -/
def unitsReread (settings : Settings) (specifications : List Specification) : Bool :=
  specifications.all Specification.rereads &&
    (Dispatcher.ofSpecifications settings.dispatcher specifications).rereads

/--
Whether an expansion breaks off. Callees are made while the creation sites are bound, also if a creation site
outside of tests is found; units are made only if nothing is wrong.
-/
def breaks (settings : Settings) (module : Tree) : Bool :=
  match Catalog.ofModule module with
  | .error _ => false
  | .ok catalog =>
    match analyze settings catalog with
    | .error _ => false
    | .ok specifications =>
      let keys := specifications.map Specification.key
      !(boundCallees settings keys module).all calleeRereads ||
        ((bindSites settings keys module).2.isEmpty && !unitsReread settings specifications)

/-- What an expansion comes to. -/
def outcome (settings : Settings) (module : Tree) : Outcome :=
  if breaks settings module then .broken
  else
    match expand settings module with
    | .ok expanded => .expanded expanded
    | .error problems => .reported problems

end TestDouble
