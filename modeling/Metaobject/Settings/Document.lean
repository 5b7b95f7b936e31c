import Metaobject.Settings
import Metaobject.Toml.Document

/-!
Settings as a TOML document, with one section for proxies and one for instances of annotation types.
What is missing keeps its default, and what is not known is passed over.

A section may also be written as an array, whose items are then the values of its keys in order; and
a date or time in place of a section sets nothing.
-/
namespace Metaobject.Settings

/-- Where a setting is looked up. -/
inductive Section where
  | entries (es : List (String × Toml.Value))
  | items (vs : List Toml.Value)

/-- The section that a value holds. -/
def sectionOf? : Toml.Value → Option Section
  | .table es => some (.entries es)
  | .array vs => some (.items vs)
  | .dateTime _ => some (.entries [])
  | _ => none

/-- A section of a document, without settings if the document does not have it. -/
def section? (es : List (String × Toml.Value)) (name : String) : Option Section :=
  match es.lookup name with
  | none => some (.entries [])
  | some v => sectionOf? v

/-- What a section says under a key that has a place among its keys. -/
def Section.find? (s : Section) (key : String) (place : Nat) : Option Toml.Value :=
  match s with
  | .entries es => es.lookup key
  | .items vs => vs[place]?

/-- A text, or the default where there is nothing. -/
def textOr (default : String) : Option Toml.Value → Option String
  | none => some default
  | some (.string s) => some s
  | some _ => none

/-- A switch, on where there is nothing. -/
def switch : Option Toml.Value → Option Bool
  | none => some true
  | some (.boolean b) => some b
  | some _ => none

/-- The settings that a document holds, if what it sets is of the right type. -/
def ofEntries? (es : List (String × Toml.Value)) : Option Settings := do
  let proxy ← section? es "proxy"
  let inst ← section? es "annotation"
  let classNamePrefix ← textOr "$Proxy" (proxy.find? "class_name_prefix" 0)
  let cacheClasses ← switch (proxy.find? "cache_classes" 1)
  let cacheHash ← switch (inst.find? "cache_hash_code" 0)
  let cacheText ← switch (inst.find? "cache_representation" 1)
  return { classNamePrefix, cacheClasses, cacheHash, cacheText }

/-- Read settings that can be used. -/
def parse (text : String) : Except SettingsError Settings :=
  match (Toml.parse text).bind ofEntries? with
  | none => .error .malformed
  | some s => (s.validate.mapError .invalid).map fun _ => s

/-- Read settings from what a file holds, if it can be read. -/
def load : Option String → Except SettingsError Settings
  | none => .error .unreadable
  | some text => parse text

/-- A switch as it is written. -/
def switchText (b : Bool) : String :=
  if b then "true" else "false"

/-- Settings as they are written. -/
def render (s : Settings) : String :=
  "[proxy]\nclass_name_prefix = " ++ Toml.writeText s.classNamePrefix ++
    "\ncache_classes = " ++ switchText s.cacheClasses ++
    "\n\n[annotation]\ncache_hash_code = " ++ switchText s.cacheHash ++
    "\ncache_representation = " ++ switchText s.cacheText ++ "\n"

end Metaobject.Settings
