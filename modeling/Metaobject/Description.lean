import Metaobject.Assignment
import Metaobject.Text.Quoted

/-!
Short descriptions for people who look into a running program: what a thing is, and as much of what
it holds as fits on a line.
-/
namespace Metaobject

/-- A description of a class. -/
def Hierarchy.describeClass (h : Hierarchy) (c : ClassId) : String :=
  "ClassRef(" ++ h.className c ++ ")"

/-- A description of a method. -/
def Hierarchy.describeMethod (h : Hierarchy) (m : MethodRef) : String :=
  "MethodRef(" ++ h.methodText m ++ ")"

/-- A description of an object. -/
def Hierarchy.describeObject (h : Hierarchy) (o : ObjectRef) : String :=
  "ObjectRef(" ++ h.objectText o ++ ")"

/-- A description of a chain: how many handlers it has. -/
def Chain.describe (k : Chain) : String :=
  "HandlerChain \x7b handlers: " ++ toString k.length ++ ", .. \x7d"

/-- A description of a contract: its class, and the names of its members. -/
def Contract.describe (h : Hierarchy) (k : Contract) : String :=
  "InterfaceContract \x7b class: " ++ h.describeClass k.cls ++ ", members: [" ++
    ", ".intercalate (k.members.map fun m => Text.quoted m.name) ++ "] \x7d"

/-- A description of a builder: its annotation type, and how many members have a value. -/
def InstanceBuilder.describe (h : Hierarchy) (b : InstanceBuilder) : String :=
  "AnnotationBuilder \x7b contract: " ++ Text.quoted (h.className b.contract.cls) ++
    ", assigned: " ++ toString b.assigned.length ++ " \x7d"

end Metaobject
