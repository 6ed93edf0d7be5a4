/-!
# RespStore.Text.Record

Values with parts on one line, for people to read: a name with its fields between braces, and a
list between brackets.
-/

namespace RespStore.Text

/-- Items between brackets. -/
def bracketed (items : List String) : String := "[" ++ ", ".intercalate items ++ "]"

/-- Fields with their values between braces, after a name. -/
def record (name : String) (fields : List (String × String)) : String :=
  name ++ " \x7b " ++ ", ".intercalate (fields.map fun (field, value) => field ++ ": " ++ value)
    ++ " \x7d"

end RespStore.Text
