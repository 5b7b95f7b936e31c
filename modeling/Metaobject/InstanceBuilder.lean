import Metaobject.Proxy

/-!
Building instances of annotation types. A builder holds values for members, each already converted
to the type of its member; building asks that every member without a default has one.
-/
namespace Metaobject

/-- Why an instance of an annotation type cannot be built so. -/
inductive InstanceError where
  | unknownName (contract : ClassId) (name : String)
  | unknownAccessor (contract : ClassId) (accessor : MethodRef)
  | typeMismatch (member : Member) (found : Value)
  | missingMembers (names : List String)
  | notMarker (contract : ClassId) (names : List String)
  | notAnAnnotationType (cls : ClassId)
  | proxy (error : ProxyError)

/-- Names in quotes, with commas between them. -/
def quotedNames (names : List String) : String :=
  ", ".intercalate (names.map fun name => "'" ++ name ++ "'")

/-- The message of an error. -/
def InstanceError.message (h : Hierarchy) : InstanceError → String
  | unknownName c name => "Annotation " ++ h.className c ++ " has no member '" ++ name ++ "'"
  | unknownAccessor c m =>
    "Annotation " ++ h.className c ++ " has no member '" ++ h.methodText m ++ "'"
  | typeMismatch m found =>
    "Member '" ++ m.name ++ "' expects " ++ h.tyText m.type ++ ", got " ++ h.typeName found
  | missingMembers names => "No value set for member(s) " ++ quotedNames names
  | notMarker c names =>
    "Annotation " ++ h.className c ++ " is not a marker, member(s) " ++ quotedNames names ++
      " have no default"
  | notAnAnnotationType c => "Type " ++ h.className c ++ " is not an annotation"
  | proxy error => error.message h

/-- Values assigned to members of an annotation type. -/
structure InstanceBuilder where
  contract : Contract
  assigned : Table String Value := []

namespace InstanceBuilder

variable {σ : Type}

/-- The first member whose default is null or not of its type. -/
def badDefault? (h : Hierarchy) : List Member → Option (Member × Value)
  | [] => none
  | m :: rest =>
    match m.default? with
    | some v =>
      if v.isNull || !h.isInstance v m.type then some (m, v) else badDefault? h rest
    | none => badDefault? h rest

/-- A builder for an annotation type, without values. -/
def of (h : Hierarchy) (c : ClassId) : Except InstanceError InstanceBuilder :=
  if !h.isAnnotationType c then .error (.notAnAnnotationType c)
  else
    match badDefault? h (h.contract c).members with
    | some (m, v) => .error (.typeMismatch m v)
    | none => .ok { contract := h.contract c }

variable (b : InstanceBuilder)

/-- The value assigned to a member. -/
def assigned? (name : String) : Option Value :=
  Table.find? b.assigned name

/-- The member that reads by a method. -/
def selectAccessor (m : MethodRef) : Except InstanceError Member :=
  match b.contract.memberFor? m with
  | some member => .ok member
  | none => .error (.unknownAccessor b.contract.cls m)

/-- The member of a name. -/
def selectName (name : String) : Except InstanceError Member :=
  match b.contract.member? name with
  | some member => .ok member
  | none => .error (.unknownName b.contract.cls name)

/-- A value as it is assigned to a member: converted to its type, and not null. -/
def fit (h : Hierarchy) (m : Member) (v : Value) : Except InstanceError Value :=
  match h.convert? v m.type with
  | some w => if w.isNull then .error (.typeMismatch m v) else .ok w
  | none => .error (.typeMismatch m v)

/-- Assign a value to the member of a name. -/
def assignName (h : Hierarchy) (name : String) (v : Value) :
    Except InstanceError InstanceBuilder := do
  let m ← b.selectName name
  let w ← fit h m v
  return { b with assigned := Table.set b.assigned m.name w }

/-- A builder for an annotation type, with values assigned to members by name, one after another. -/
def filled (h : Hierarchy) (c : ClassId) (values : List (String × Value)) :
    Except InstanceError InstanceBuilder := do
  let b ← of h c
  values.foldlM (fun b (name, v) => b.assignName h name v) b

/-- The names of members that have neither a value nor a default. -/
def missing : List String :=
  (b.contract.required.filter fun m => (b.assigned? m.name).isNone).map Member.name

/-- All that an instance would stand for if it were built now refers to what there is. -/
def isKnown (w : World σ) : Bool :=
  decide (w.hierarchy.Declared b.contract.cls) && b.contract.members.all fun m =>
    ((b.assigned? m.name).or m.default?).all w.knows

/-- A cell for the hash of an instance, if the settings ask for it. -/
def hashCell (wanted : Bool) : Run InstanceError σ (Option (Cell Int32)) :=
  if wanted then
    modifyGet fun w =>
      let (cell, hashes) := w.hashes.fresh
      (some cell, { w with hashes })
  else pure none

/-- A cell for the text of an instance, if the settings ask for it. -/
def textCell (wanted : Bool) : Run InstanceError σ (Option (Cell String)) :=
  if wanted then
    modifyGet fun w =>
      let (cell, texts) := w.texts.fresh
      (some cell, { w with texts })
  else pure none

/-- Build the instance. -/
def build : Run InstanceError σ ObjectRef := do
  if b.missing.isEmpty then
    let settings ← Settings.current
    let hashCell? ← hashCell settings.cacheHash
    let textCell? ← textCell settings.cacheText
    let x : Instance := ⟨b.contract, b.assigned, hashCell?, textCell?⟩
    Run.mapError .proxy (ProxyBuilder.single b.contract.cls (.values x)).build
  else Run.raise (.missingMembers b.missing)

/-- An instance of an annotation type whose members all have defaults. -/
def marker (c : ClassId) : Run InstanceError σ ObjectRef := do
  let b ← Run.ofExcept id (of (← Run.hierarchy) c)
  if b.contract.isMarker then b.build
  else Run.raise (.notMarker c (b.contract.required.map Member.name))

end InstanceBuilder

end Metaobject
