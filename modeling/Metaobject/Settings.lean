import Metaobject.Text.Blank

/-!
Settings of the library: how the classes of proxies are named, and what is remembered. The names of
classes stand in signatures, so a name may not be started with a text that holds blanks or the
characters that separate types there.
-/
namespace Metaobject

/-- What can be set. -/
structure Settings where
  classNamePrefix : String := "$Proxy"
  cacheClasses : Bool := true
  cacheHash : Bool := true
  cacheText : Bool := true
deriving DecidableEq, Repr

/-- Why settings cannot be used. -/
inductive InvalidSettings where
  | emptyPrefix
  | forbiddenCharacter (classNamePrefix : String)
deriving DecidableEq, Repr

/-- The message of a cause. -/
def InvalidSettings.message : InvalidSettings → String
  | emptyPrefix => "proxy.class_name_prefix cannot be empty"
  | forbiddenCharacter p =>
    "proxy.class_name_prefix '" ++ p ++ "' contains characters not allowed in class names"

/-- Why settings cannot be read or installed. -/
inductive SettingsError where
  | unreadable
  | malformed
  | invalid (why : InvalidSettings)
  | alreadyInstalled
deriving DecidableEq, Repr

/-- The message of an error. -/
def SettingsError.message : SettingsError → String
  | unreadable => "Failed to read configuration file"
  | malformed => "Failed to parse configuration"
  | invalid why => "Invalid configuration: " ++ why.message
  | alreadyInstalled => "Configuration already installed"

namespace Settings

/-- A character that names of classes may not hold. -/
def isForbidden (c : Char) : Bool :=
  Text.isBlank c || c == '(' || c == ')' || c == '[' || c == ']' || c == ','

/-- Settings that can be used. -/
def validate (s : Settings) : Except InvalidSettings Unit :=
  if s.classNamePrefix.isEmpty then .error .emptyPrefix
  else if s.classNamePrefix.toList.any isForbidden then
    .error (.forbiddenCharacter s.classNamePrefix)
  else .ok ()

end Settings

end Metaobject
