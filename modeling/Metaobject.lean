import Metaobject.Description
import Metaobject.Dispatcher
import Metaobject.Proofs.Hierarchy.Growth
import Metaobject.Proofs.Signature.Reading
import Metaobject.Proofs.Signature.Grammar
import Metaobject.Redirection
import Metaobject.Settings.Document
import Metaobject.Stub
import Metaobject.Proofs.Registry
import Metaobject.Proofs.Reference.RoundTrip
import Metaobject.Proofs.Reference.Captures
import Metaobject.Proofs.Invocation
import Metaobject.Proofs.World.Agreement
import Metaobject.Proofs.World.Calls
import Metaobject.Proofs.Contract
import Metaobject.Proofs.Hierarchy.Conversion
import Metaobject.Proofs.Hierarchy.Assignability
import Metaobject.Proofs.Proxy
import Metaobject.Proofs.World.Evolution
import Metaobject.Proofs.Instance.ReadBack
import Metaobject.Proofs.Extraction
import Metaobject.Proofs.Instance.Naming
import Metaobject.Proofs.Proxy.Call
import Metaobject.Proofs.Instance.Inherited
import Metaobject.Proofs.Instance.Datum
import Metaobject.Proofs.Instance.Equality
import Metaobject.Proofs.Instance.Digest
import Metaobject.Proofs.Value
import Metaobject.Proofs.Instance.Memory
import Metaobject.Proofs.Instance.Upkeep
import Metaobject.Proofs.Instance.Conduct
import Metaobject.Proofs.Instance.Interchange
import Metaobject.Proofs.Chain.Nesting
import Metaobject.Proofs.World.Delivery
import Metaobject.Proofs.Proxy.Classes
import Metaobject.Proofs.Proxy.Use
import Metaobject.Proofs.Proxy.Lazy
import Metaobject.Proofs.Proxy.Session
import Metaobject.Proofs.Proxy.Forwarding
import Metaobject.Proofs.Instance.Shares
import Metaobject.Proofs.Proxy.Names
import Metaobject.Proofs.Settings
import Metaobject.Proofs.Hierarchy.Conformance
import Metaobject.Proofs.Hierarchy.Overriding
import Metaobject.Proofs.Instance.Looseness
import Metaobject.Proofs.Instance.Recollection
import Metaobject.Proofs.Instance.Watch
import Metaobject.Proofs.Instance.Start
import Metaobject.Proofs.Instance.Caching
import Metaobject.Proofs.Instance.Completeness
import Metaobject.Proofs.Signature.Errors
import Metaobject.Proofs.Proxy.Dispatch
import Metaobject.Proofs.Hierarchy.Root
import Metaobject.Proofs.Proxy.Subtyping
import Metaobject.Proofs.Hierarchy.Preorder
import Metaobject.Proofs.Hierarchy.Fitting
import Metaobject.Proofs.Chain.Sequencing
import Metaobject.Proofs.Chain.Precedence
import Metaobject.Proofs.Dispatcher
import Metaobject.Proofs.World.Resolution
import Metaobject.Proofs.Instance.Comparison
import Metaobject.Proofs.Text.Hash
import Metaobject.Proofs.Hierarchy.Members
import Metaobject.Proofs.Reference.Namesakes
import Metaobject.Proofs.Reference.Parameters
import Metaobject.Proofs.Recorder
