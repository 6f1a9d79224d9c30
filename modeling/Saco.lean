import Saco.Arith.Signed
import Saco.Arith.SizeClass
import Saco.Build.Books
import Saco.Build.Builder
import Saco.Build.Construct
import Saco.Build.Contents
import Saco.Build.Elements
import Saco.Build.Exact
import Saco.Build.Faults
import Saco.Build.Ndebug
import Saco.Build.Passes
import Saco.Build.Unique
import Saco.Exec.Ledger
import Saco.Exec.Memory
import Saco.Exec.Refines
import Saco.Layout.Align
import Saco.Layout.Compare
import Saco.Layout.Offsets
import Saco.Layout.Oracle
import Saco.Layout.Order
import Saco.Samples.Foo
import Saco.Samples.OffsetPtr
import Saco.Shared.BuildShared
import Saco.Shared.Clients
import Saco.Shared.Dispatchers
import Saco.Shared.Lifetime
import Saco.Shared.Ownership
import Saco.Shared.Paths
