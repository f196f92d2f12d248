import TestDouble.Descriptor
/-!
# Well-known names

The names of the language and its standard library that the analysis knows by itself, with what each of
them is as a result type, and whether it can be used without an import.
-/

namespace TestDouble

inductive Known where
  /-- A type with a descriptor of its own. -/
  | builtin (descriptor : Descriptor)
  /-- A type with a default value. -/
  | defaultable
  /-- A type without a default value. -/
  | withoutDefault
  /-- A trait, constructor or other name that is no type. -/
  | noType

namespace WellKnown

/-- The types that have a descriptor of their own and need no import. -/
def primitives : List (String × Descriptor) :=
  [("bool", .bool), ("char", .char), ("String", .str true)] ++
    IntKind.all.map (fun kind => (kind.name, .int kind)) ++
    [FloatKind.f32, .f64].map fun kind => (kind.name, .float kind)

def preludeDefaultable : List String := ["Option", "Vec", "Box"]

def defaultable : List String :=
  ["Rc", "Arc", "Cell", "RefCell", "HashMap", "HashSet", "BTreeMap", "BTreeSet", "VecDeque", "BinaryHeap",
    "LinkedList", "PathBuf", "OsString", "CString", "PhantomData", "Cow", "Mutex", "RwLock", "Wrapping",
    "Reverse"]

def preludeWithoutDefault : List String := ["Result", "str"]

def withoutDefault : List String :=
  ["SystemTime", "Instant", "Pin", "NonNull", "File", "Ordering", "IpAddr", "SocketAddr", "TcpStream",
    "Thread"]

def preludeNoType : List String :=
  ["Some", "None", "Ok", "Err", "Copy", "Send", "Sized", "Sync", "Unpin", "Drop", "Fn", "FnMut", "FnOnce",
    "Clone", "PartialEq", "PartialOrd", "Eq", "Ord", "AsRef", "AsMut", "Into", "From", "Default",
    "Iterator", "Extend", "IntoIterator", "DoubleEndedIterator", "ExactSizeIterator", "ToString",
    "ToOwned", "TryFrom", "TryInto", "FromIterator"]

def noType : List String := ["Debug", "Display", "Hash", "Any"]

/-- The crates and words that a path can begin with anywhere. -/
def everywhere : List String := ["Self", "self", "super", "crate", "std", "core", "alloc"]

def standardCrates : List String := ["std", "core", "alloc"]

def find? (name : String) : Option Known :=
  match primitives.lookup name with
  | some descriptor => some (.builtin descriptor)
  | none =>
    if name = "Duration" then some (.builtin .duration)
    else if preludeDefaultable.contains name || defaultable.contains name then some .defaultable
    else if preludeWithoutDefault.contains name || withoutDefault.contains name then some .withoutDefault
    else if preludeNoType.contains name || noType.contains name then some .noType
    else none

/-- Whether a name can be used without an import. -/
def isPrelude (name : String) : Bool :=
  everywhere.contains name || (primitives.lookup name).isSome || preludeDefaultable.contains name ||
    preludeWithoutDefault.contains name || preludeNoType.contains name

end WellKnown

end TestDouble
