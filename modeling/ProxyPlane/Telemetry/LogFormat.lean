import ProxyPlane.Text.Blank

/-!
# The format of the log

Lines are objects or plain text; what names neither means objects.
-/

set_option autoImplicit false
namespace ProxyPlane

/-- The format of the lines of the log. -/
inductive LogFormat
  | json
  | pretty
  deriving DecidableEq, Repr

namespace LogFormat

/-- The name of a format. -/
def label : LogFormat → String
  | .json => "json"
  | .pretty => "pretty"

/-- The format that a text names, blanks around it and case aside. -/
def ofText (s : String) : LogFormat :=
  if ["pretty", "text"].contains (String.ofList ((Text.trimText s).toList.map Char.toLower)) then .pretty else .json

end LogFormat
end ProxyPlane
