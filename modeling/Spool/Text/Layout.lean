namespace Spool.Text

def field (label : String × String) : String :=
  label.1 ++ ": " ++ label.2

-- All fields are shown. A value without fields is its name alone.
def layout (name : String) (fields : List (String × String)) : String :=
  match fields with
  | [] => name
  | fields => name ++ " \x7b " ++ ", ".intercalate (fields.map field) ++ " \x7d"

-- Two dots stand for the fields that are not shown.
def openLayout (name : String) (fields : List (String × String)) : String :=
  name ++ " \x7b " ++ ", ".intercalate (fields.map field ++ [".."]) ++ " \x7d"

end Spool.Text
