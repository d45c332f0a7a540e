/-!
# Lists of named things

Arguments, parameters, fields and bindings are lists of pairs of a name and a thing, in the order in
which the names first came.  `Named.put` keeps every name once: a name that comes again replaces
what it stood for and keeps its place.

* `Named.get?`     what a name stands for;
* `Named.put`      gives a name a meaning;
* `Named.ofList`   puts pairs one after the other;
* `Named.names`    the names in order.
-/

namespace Dataflow.Named

variable {α : Type}

def get? : List (String × α) → String → Option α
  | [], _ => none
  | (n, a) :: rest, name => if n = name then some a else get? rest name

def put (name : String) (a : α) : List (String × α) → List (String × α)
  | [] => [(name, a)]
  | (n, b) :: rest => if n = name then (n, a) :: rest else (n, b) :: put name a rest

def ofList (entries : List (String × α)) : List (String × α) :=
  entries.foldl (fun result (name, a) => put name a result) []

def names (entries : List (String × α)) : List String := entries.map Prod.fst

theorem get?_nil (name : String) : get? ([] : List (String × α)) name = none := rfl

theorem get?_cons (n : String) (a : α) (rest : List (String × α)) (name : String) :
    get? ((n, a) :: rest) name = if n = name then some a else get? rest name := rfl

theorem get?_put_self (name : String) (a : α) :
    ∀ entries : List (String × α), get? (put name a entries) name = some a
  | [] => by simp [put, get?_cons]
  | (n, b) :: rest => by
    by_cases h : n = name <;> simp [put, get?_cons, h, get?_put_self name a rest]

theorem get?_put_of_ne {name other : String} (h : name ≠ other) (a : α) :
    ∀ entries : List (String × α), get? (put name a entries) other = get? entries other
  | [] => by simp [put, get?_cons, h, get?_nil]
  | (n, b) :: rest => by
    by_cases hn : n = name
    · simp [put, get?_cons, hn, h]
    · simp [put, get?_cons, hn, get?_put_of_ne h a rest]

theorem names_cons (e : String × α) (rest : List (String × α)) :
    names (e :: rest) = e.1 :: names rest := rfl

end Dataflow.Named
