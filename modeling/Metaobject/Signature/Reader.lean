import Metaobject.Signature
import Metaobject.Registry
import Metaobject.Text.Alphanumeric
import Metaobject.Text.Blank

/-!
Reading signatures. The grammar is

    signature := "(" [ type { "," type } ] ")" "->" type
    type      := "(" ")" | "[" type "]" | name

with blanks allowed between tokens. A name is a primitive type, `string`, `any`, `type`, or a class
of the registry, and is looked up as soon as it ends.

The reader takes one character at a time: `step` says what each character does to what has been read
so far, and `finish` what the end of the text does. An error is therefore settled by the characters
up to it, and the place of an error is the number of bytes in front of the character that caused it.
-/
namespace Metaobject

/-- What could have stood at the place of an error. -/
inductive Expected where
  | openParenthesis
  | closeParenthesis
  | closeBracket
  | commaOrClose
  | arrow
  | type
deriving DecidableEq, Repr

/-- How it is named in messages. -/
def Expected.text : Expected → String
  | openParenthesis => "'('"
  | closeParenthesis => "')'"
  | closeBracket => "']'"
  | commaOrClose => "',' or ')'"
  | arrow => "'->'"
  | type => "a type"

/-- Why a text is no signature. Places count bytes. -/
inductive SignatureError where
  | unexpectedEnd
  | expected (what : Expected) (offset : Nat)
  | unknownType (name : String)
  | trailingInput (offset : Nat)
deriving DecidableEq, Repr

/-- The message of an error. -/
def SignatureError.message : SignatureError → String
  | unexpectedEnd => "Unexpected end of signature"
  | expected what offset => "Expected " ++ what.text ++ " at offset " ++ toString offset
  | unknownType name => "Unknown type '" ++ name ++ "'"
  | trailingInput offset => "Unexpected input at offset " ++ toString offset

namespace Signature

/-- A character of a name. -/
def isNameChar (c : Char) : Bool :=
  Text.isAlphanumeric c || c == '_' || c == '.' || c == '$' || c == ':'

/-- The type that a name stands for. -/
def resolve (r : Registry) (name : String) : Option Ty :=
  match Primitive.ofName? name with
  | some p => some (.primitive p)
  | none =>
    if name = "string" then some .string
    else if name = "any" then some .any
    else if name = "type" then some .token
    else (r.lookup name).map .ofClass

namespace Reader

/-- Which type of the signature is being read. -/
inductive Slot where
  | parameter (before : List Ty)
  | result (parameters : List Ty)
deriving DecidableEq, Repr

/-- What has been read. A depth counts the brackets that are still open around a type. -/
inductive State where
  /-- Nothing yet. -/
  | start
  /-- The opening parenthesis: a first type or the closing parenthesis comes next. -/
  | opened
  /-- A type comes next. -/
  | type (slot : Slot) (depth : Nat)
  /-- The first half of the empty type. -/
  | void (slot : Slot) (depth : Nat)
  /-- A name that may go on. -/
  | name (slot : Slot) (depth : Nat) (read : List Char)
  /-- A whole type. -/
  | after (slot : Slot) (depth : Nat) (type : Ty)
  /-- The closing parenthesis: an arrow comes next. -/
  | closed (parameters : List Ty)
  /-- The shaft of the arrow. -/
  | shaft (parameters : List Ty)
deriving DecidableEq, Repr

/-- Why a character cannot follow. -/
inductive Fault where
  | expected (what : Expected)
  | unknownType (name : String)
  | trailing
deriving DecidableEq, Repr

/-- The error of a fault at a place. -/
def Fault.at (offset : Nat) : Fault → SignatureError
  | expected what => .expected what offset
  | unknownType name => .unknownType name
  | trailing => .trailingInput offset

/-- A character that is not blank, where a type comes next. -/
def stepType (slot : Slot) (depth : Nat) (c : Char) : Except Fault State :=
  if c = '(' then .ok (.void slot depth)
  else if c = '[' then .ok (.type slot (depth + 1))
  else if isNameChar c then .ok (.name slot depth [c])
  else .error (.expected .type)

/-- A character behind a whole type. -/
def stepAfter (slot : Slot) (depth : Nat) (t : Ty) (c : Char) : Except Fault State :=
  if Text.isBlank c then .ok (.after slot depth t)
  else
    match depth, slot with
    | depth + 1, slot =>
      if c = ']' then .ok (.after slot depth (.array t)) else .error (.expected .closeBracket)
    | 0, .parameter before =>
      if c = ',' then .ok (.type (.parameter (before ++ [t])) 0)
      else if c = ')' then .ok (.closed (before ++ [t]))
      else .error (.expected .commaOrClose)
    | 0, .result _ => .error .trailing

/-- The type of a name that has ended. -/
def endName (r : Registry) (read : List Char) : Except Fault Ty :=
  match resolve r (String.ofList read) with
  | some t => .ok t
  | none => .error (.unknownType (String.ofList read))

/-- What one more character does. -/
def step (r : Registry) : State → Char → Except Fault State
  | .start, c =>
    if Text.isBlank c then .ok .start
    else if c = '(' then .ok .opened
    else .error (.expected .openParenthesis)
  | .opened, c =>
    if Text.isBlank c then .ok .opened
    else if c = ')' then .ok (.closed [])
    else stepType (.parameter []) 0 c
  | .type slot depth, c =>
    if Text.isBlank c then .ok (.type slot depth) else stepType slot depth c
  | .void slot depth, c =>
    if Text.isBlank c then .ok (.void slot depth)
    else if c = ')' then .ok (.after slot depth .void)
    else .error (.expected .closeParenthesis)
  | .name slot depth read, c =>
    if isNameChar c then .ok (.name slot depth (read ++ [c]))
    else (endName r read).bind (stepAfter slot depth · c)
  | .after slot depth t, c => stepAfter slot depth t c
  | .closed parameters, c =>
    if Text.isBlank c then .ok (.closed parameters)
    else if c = '-' then .ok (.shaft parameters)
    else .error (.expected .arrow)
  | .shaft parameters, c =>
    if c = '>' then .ok (.type (.result parameters) 0) else .error (.expected .arrow)

/-- Read characters from a state on; the place of the first is given. -/
def run (r : Registry) (s : State) (offset : Nat) : List Char → Except SignatureError State
  | [] => .ok s
  | c :: rest =>
    match step r s c with
    | .ok s' => run r s' (offset + c.utf8Size) rest
    | .error fault => .error (fault.at offset)

/-- What the end of the text does behind a whole type. -/
def finishAfter : Slot → Nat → Ty → Except SignatureError Signature
  | .result parameters, 0, t => .ok ⟨parameters, t⟩
  | _, _, _ => .error .unexpectedEnd

/-- What the end of the text does. -/
def finish (r : Registry) : State → Except SignatureError Signature
  | .name slot depth read =>
    match endName r read with
    | .ok t => finishAfter slot depth t
    | .error fault => .error (fault.at 0)
  | .after slot depth t => finishAfter slot depth t
  | _ => .error .unexpectedEnd

end Reader

/-- Read a signature. -/
def parse (r : Registry) (text : String) : Except SignatureError Signature :=
  (Reader.run r .start 0 text.toList).bind (Reader.finish r)

end Signature

end Metaobject
