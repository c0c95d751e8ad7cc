import Interception.Outline.Printable
import Interception.System

/-!
# One-line outlines

Keys, interceptors and tables written out field by field, for people who look for
a fault.
-/

namespace Interception

namespace Outline

/-- A truth value. -/
def bool (b : Bool) : String :=
  if b then "true" else "false"

/-- The digits of hexadecimal notation that a character's number needs. -/
def codePoint (c : Char) : String :=
  String.ofList (Nat.toDigits 16 c.toNat)

/-- How one character of a quoted text is written: marks, backslashes and characters
that do not show themselves have escapes. -/
def char (c : Char) : String :=
  if c = '"' then "\\\""
  else if c = '\\' then "\\\\"
  else if c = '\n' then "\\n"
  else if c = '\r' then "\\r"
  else if c = '\t' then "\\t"
  else if c = '\x00' then "\\0"
  else if isPrintable c then String.singleton c
  else "\\u\x7b" ++ codePoint c ++ "\x7d"

/-- A text between quotation marks. -/
def text (s : String) : String :=
  "\"" ++ String.join (s.toList.map char) ++ "\""

/-- A name with fields. -/
def record (name : String) (fields : List (String × String)) : String :=
  name ++ " \x7b " ++ ", ".intercalate (fields.map fun field => field.1 ++ ": " ++ field.2) ++
    " \x7d"

/-- A list. -/
def list (items : List String) : String :=
  "[" ++ ", ".intercalate items ++ "]"

/-- A level. -/
def level : Level → String
  | .onInstance => "Instance"
  | .onType => "Type"

/-- **A key.** -/
def key (k : Key) : String :=
  record "OperationKey"
    [("type_name", text k.typeName), ("operation", text k.operation), ("kind", level k.level)]

/-- **An interceptor**, under whatever the reader calls it. -/
def interceptor (id : String) (handle : Handle) (view : InterceptorView) : String :=
  record "MethodInterceptor"
    [("id", id), ("key", key handle.key), ("enabled", bool view.enabled),
      ("before", bool view.before), ("replace", bool view.replace), ("after", bool view.after)]

/-- **A table**, by its operations and those that interceptors own. -/
def table (operations intercepted : List Key) : String :=
  record "DispatchTable"
    [("operations", list (operations.map key)), ("intercepted", list (intercepted.map key))]

end Outline

end Interception
