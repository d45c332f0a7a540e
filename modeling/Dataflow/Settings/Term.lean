/-!
# Terms

Settings are written as terms: numbers, strings and names, lists in brackets, maps in braces, and in
parentheses either items or named fields, with or without a name in front.

    (version: 1, bindings: { "speed": Float(2.0) }, expected_return_type: Some("vector"))
-/

namespace Dataflow

/-- what settings are written in -/
inductive Term where
  | name (text : String)
  /-- the number as written -/
  | number (text : String)
  | string (text : String)
  | list (items : List Term)
  | map (entries : List (Term × Term))
  | tuple (name : Option String) (items : List Term)
  | record (name : Option String) (fields : List (String × Term))

namespace Term

instance : Inhabited Term := ⟨.list []⟩

end Term

end Dataflow
