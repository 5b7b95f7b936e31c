import Metaobject.Contract
import Metaobject.Table

/-!
Classes by name. A registry opens with the classes that open every hierarchy, and a later class of a
name takes the place of an earlier one.
-/
namespace Metaobject

/-- Classes by the names under which they were registered. -/
abbrev Registry := Table String ClassId

namespace Registry

/-- The class of a name. -/
def lookup (r : Registry) (name : String) : Option ClassId :=
  Table.find? r name

/-- Register a class under its name. -/
def register (h : Hierarchy) (r : Registry) (c : ClassId) : Registry :=
  Table.set r (h.className c) c

/-- The registry of the opening classes. -/
def opening : Registry :=
  [("object", .object), ("annotation", .annotations), ("lazy_proxy", .lazyProxy)]

/-- The names in the order of their characters. -/
def names (r : Registry) : List String :=
  (Table.keys r).mergeSort fun a b => !(b < a)

/-- The members of an interface by name. -/
def contract? (h : Hierarchy) (r : Registry) (name : String) : Option Contract :=
  ((lookup r name).filter h.isInterface).map h.contract

theorem lookup_register (h : Hierarchy) (r : Registry) (c : ClassId) (name : String) :
    lookup (register h r c) name = if h.className c = name then some c else lookup r name :=
  Table.find?_set r (h.className c) name c

end Registry

end Metaobject
