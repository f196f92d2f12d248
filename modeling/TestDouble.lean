import TestDouble.Expansion
import TestDouble.Outcome
import TestDouble.Proofs.Catalog.Declared
import TestDouble.Proofs.Expansion.Cleared
import TestDouble.Proofs.Expansion.Independence
import TestDouble.Proofs.Expansion.Reports
import TestDouble.Proofs.Expansion.Units
import TestDouble.Proofs.Generated.Value
import TestDouble.Proofs.Import.Clashes
import TestDouble.Proofs.Import.Climbing
import TestDouble.Proofs.Import.Hidden
import TestDouble.Proofs.Import.Relocation
import TestDouble.Proofs.Renaming.Canonical
import TestDouble.Proofs.ResultType.Alias
import TestDouble.Proofs.ResultType.Imported
import TestDouble.Proofs.Run.Returned
import TestDouble.Proofs.Site.Frame
import TestDouble.Run.Samples
import TestDouble.Proofs.Renaming.Catalog
import TestDouble.Proofs.Renaming.Import
import TestDouble.Proofs.Renaming.Site
import TestDouble.Proofs.Renaming.ResultType
import TestDouble.Proofs.Renaming.Specification
import TestDouble.Proofs.Renaming.Analysis
import TestDouble.Proofs.Renaming.Binding
import TestDouble.Proofs.Renaming.Generated
import TestDouble.Proofs.Expansion.Renaming
import TestDouble.Proofs.Catalog.Importing
import TestDouble.Proofs.Constant.Derivation
import TestDouble.Proofs.Constant.Independence
import TestDouble.Proofs.Constant.Integer
import TestDouble.Proofs.Constant.Visibility
import TestDouble.Proofs.Constant.Cast
import TestDouble.Proofs.Constant.ReadBack
import TestDouble.Proofs.Specification.Usable
import TestDouble.Proofs.Expansion.Collisions
import TestDouble.Proofs.Generated.Borrowing
import TestDouble.Proofs.Site.Idempotence
import TestDouble.Proofs.Expansion.Breaking
import TestDouble.Proofs.Run.Content
import TestDouble.Proofs.Run.Lookup
import TestDouble.Proofs.Settings.Entries
import TestDouble.Proofs.Expansion.Enumeration
import TestDouble.Proofs.Site.Recorded
