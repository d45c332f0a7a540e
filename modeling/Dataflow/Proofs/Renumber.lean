import Dataflow.Proofs.Replay

/-!
# Passes renumbered

Methods are told apart by the place where they were taken from their object, and a place names its
pass.  Nothing in the language looks at these numbers: what is done with renumbered values gives the
renumbered result.

* `Value.renumber ρ`       the value with every pass `p` in it renumbered as `ρ p`;
* `Host.Blind ρ`           the functions of the host give renumbered results on renumbered values;
* `Value.memberOf_renumber`, `call_renumber`, `apply_renumber`   so does what is done with values;
* `Machine.step_renumber`  and so does the machine, at a renumbered place.
-/

namespace Dataflow

variable (ρ : Nat → Nat)

def Site.renumber (site : Site) : Site := { site with pass := ρ site.pass }

def Origin.renumber : Origin → Origin
  | .bound index => .bound index
  | .fetched site count => .fetched (site.renumber ρ) count

def Function.renumber (f : Function) : Function := { f with origin := f.origin.renumber ρ }

namespace Value

mutual

/-- the value with its passes renumbered -/
def renumber : Value → Value
  | .void => .void
  | .float x => .float x
  | .string text => .string text
  | .vector items => .vector (renumberItems items)
  | .record typeName fields => .record typeName (renumberFields fields)
  | .body b => .body b
  | .function f => .function (f.renumber ρ)
  | .classRef origin name parameters =>
    .classRef (origin.renumber ρ) name (renumberParameters? parameters)

def renumberItems : List Value → List Value
  | [] => []
  | v :: rest => v.renumber :: renumberItems rest

def renumberFields : List (String × Value) → List (String × Value)
  | [] => []
  | (name, v) :: rest => (name, v.renumber) :: renumberFields rest

def renumberParameters? : Option (List (String × Option Value)) →
    Option (List (String × Option Value))
  | none => none
  | some parameters => some (renumberParameters parameters)

def renumberParameters : List (String × Option Value) → List (String × Option Value)
  | [] => []
  | (name, default) :: rest => (name, renumberDefault default) :: renumberParameters rest

def renumberDefault : Option Value → Option Value
  | none => none
  | some v => some v.renumber

end

theorem renumberItems_eq (items : List Value) :
    renumberItems ρ items = items.map (renumber ρ) := by
  induction items with
  | nil => rfl
  | cons v rest ih => rw [renumberItems, ih, List.map_cons]

theorem renumberFields_eq (fields : List (String × Value)) :
    renumberFields ρ fields = fields.map (Prod.map id (renumber ρ)) := by
  induction fields with
  | nil => rfl
  | cons first rest ih =>
    obtain ⟨name, v⟩ := first
    rw [renumberFields, ih]
    rfl

theorem renumberParameters_eq (parameters : List (String × Option Value)) :
    renumberParameters ρ parameters = parameters.map (Prod.map id (Option.map (renumber ρ))) := by
  induction parameters with
  | nil => rfl
  | cons first rest ih =>
    obtain ⟨name, v⟩ := first
    rw [renumberParameters, ih]
    cases v <;> rfl

end Value

/-- arguments with their passes renumbered -/
def Arguments.renumber (args : Arguments) : Arguments :=
  ⟨args.positional.map (Value.renumber ρ), args.named.map (Prod.map id (Value.renumber ρ))⟩

/-- the functions of the host do not look at the numbers of passes -/
structure Host.Blind (host : Host) : Prop where
  call : ∀ name args,
    host.call name (args.renumber ρ) = (host.call name args).map (Value.renumber ρ)
  construct : ∀ name args, host.construct name (args.map (Prod.map id (Value.renumber ρ))) =
    (host.construct name args).map (Value.renumber ρ)

theorem Host.blind_none : Host.none.Blind ρ := ⟨fun _ _ => rfl, fun _ _ => rfl⟩

theorem Named.get?_map {α β : Type} (f : α → β) (entries : List (String × α)) (name : String) :
    Named.get? (entries.map (Prod.map id f)) name = (Named.get? entries name).map f := by
  induction entries with
  | nil => rfl
  | cons first rest ih =>
    obtain ⟨n, a⟩ := first
    show Named.get? ((n, f a) :: rest.map (Prod.map id f)) name = _
    rw [Named.get?_cons, Named.get?_cons, ih]
    split <;> rfl

theorem Named.names_map {α β : Type} (f : α → β) (entries : List (String × α)) :
    Named.names (entries.map (Prod.map id f)) = Named.names entries := by
  rw [Named.names, List.map_map]
  rfl

/-! ## looking at values -/

namespace Value

theorem typeName_renumber (v : Value) : (v.renumber ρ).typeName = v.typeName := by
  cases v <;> rfl

theorem isFunction_renumber (v : Value) : (v.renumber ρ).isFunction = v.isFunction := by
  cases v <;> rfl

theorem float?_renumber (v : Value) : (v.renumber ρ).float? = v.float? := by
  cases v <;> rfl

theorem quoteInside_renumber (v : Value) (text : String) :
    quoteInside (v.renumber ρ) text = quoteInside v text := by
  cases v <;> rfl

mutual

/-- a value is shown the same -/
theorem text_renumber : ∀ v : Value, (v.renumber ρ).text = v.text
  | .void => rfl
  | .float _ => rfl
  | .string _ => rfl
  | .vector items => by rw [renumber, text, itemTexts_renumber items, ← text]
  | .record typeName fields => by rw [renumber, text, fieldTexts_renumber fields, ← text]
  | .body _ => rfl
  | .function _ => rfl
  | .classRef _ _ _ => rfl

theorem itemTexts_renumber : ∀ items : List Value,
    itemTexts (renumberItems ρ items) = itemTexts items
  | [] => rfl
  | v :: rest => by
    rw [renumberItems, itemTexts, quoteInside_renumber, text_renumber v, itemTexts_renumber rest,
      ← itemTexts]

theorem fieldTexts_renumber : ∀ fields : List (String × Value),
    fieldTexts (renumberFields ρ fields) = fieldTexts fields
  | [] => rfl
  | (name, v) :: rest => by
    rw [renumberFields, fieldTexts, isFunction_renumber, quoteInside_renumber, text_renumber v,
      fieldTexts_renumber rest, ← fieldTexts]

end

theorem floats?_renumber (v : Value) : (v.renumber ρ).floats? = v.floats? := by
  cases v with
  | vector items =>
    rw [renumber, floats?, floats?, renumberItems_eq]
    induction items with
    | nil => rfl
    | cons first rest ih => rw [List.map_cons, List.mapM_cons, List.mapM_cons, float?_renumber, ih]
  | _ => rfl

theorem point?_renumber (v : Value) : (v.renumber ρ).point? = v.point? := by
  cases v with
  | vector items =>
    rcases items with _ | ⟨a, _ | ⟨b, _ | ⟨c, rest⟩⟩⟩
    · rfl
    · cases a <;> rfl
    · cases a <;> cases b <;> rfl
    · cases a <;> cases b <;> rfl
  | _ => rfl

/-- of floats the numbers of passes are no part -/
theorem renumber_ofFloats (xs : List Single) : (ofFloats xs).renumber ρ = ofFloats xs := by
  rw [ofFloats, renumber, renumberItems_eq, List.map_map]
  rfl

/-! ## members -/

theorem members_renumber (origin : Origin) (v : Value) :
    (v.renumber ρ).members (origin.renumber ρ) =
      (v.members origin).map (Prod.map id (renumber ρ)) := by
  cases v with
  | record typeName fields => exact renumberFields_eq ρ fields
  | _ => rfl

theorem coordinate?_renumber (v : Value) (name : String) :
    (v.renumber ρ).coordinate? name = (v.coordinate? name).map (renumber ρ) := by
  unfold coordinate?
  rw [point?_renumber]
  split
  · split
    · rfl
    · split <;> rfl
  · rfl

theorem memberOf_renumber (origin : Origin) (v : Value) (name : String) :
    (v.renumber ρ).memberOf (origin.renumber ρ) name =
      (v.memberOf origin name).map (renumber ρ) := by
  have hmember : (v.renumber ρ).member? (origin.renumber ρ) name =
      (v.member? origin name).map (renumber ρ) := by
    rw [member?, members_renumber, Named.get?_map]
    rfl
  unfold memberOf
  rw [coordinate?_renumber, hmember, typeName_renumber]
  cases v.coordinate? name with
  | some found => rfl
  | none => cases v.member? origin name <;> rfl

/-! ## arithmetic -/

theorem floatElements_renumber (sign : Sign) (v : Value) :
    floatElements sign (v.renumber ρ) = floatElements sign v := by
  rw [floatElements, floats?_renumber, ← floatElements]

/-- a result that is made of floats alone -/
theorem map_ofFloats (r : Except Fault (List Single)) (f : List Single → List Single) :
    (r >>= fun xs => pure (ofFloats (f xs))) =
      (r >>= fun xs => pure (ofFloats (f xs))).map (renumber ρ) := by
  cases r with
  | error fault => rfl
  | ok xs => exact congrArg Except.ok (renumber_ofFloats ρ (f xs)).symm

theorem scaled_renumber (sign : Sign) (v : Value) (f : List Single → List Single) :
    (do let xs ← floatElements sign (v.renumber ρ); return ofFloats (f xs)) =
      (do let xs ← floatElements sign v; return ofFloats (f xs)).map (renumber ρ) := by
  rw [floatElements_renumber]
  exact map_ofFloats ρ (floatElements sign v) f

theorem added_renumber (sign : Sign) (a b : List Value) (f : List Single → List Single →
    List Single) :
    (do
      if (renumberItems ρ a).length ≠ (renumberItems ρ b).length then
        throw (.vectorLengthMismatch (renumberItems ρ a).length (renumberItems ρ b).length)
      let xs ← floatElements sign (.vector (renumberItems ρ a))
      let ys ← floatElements sign (.vector (renumberItems ρ b))
      return ofFloats (f xs ys) : Except Fault Value) =
    (do
      if a.length ≠ b.length then throw (.vectorLengthMismatch a.length b.length)
      let xs ← floatElements sign (.vector a)
      let ys ← floatElements sign (.vector b)
      return ofFloats (f xs ys) : Except Fault Value).map (renumber ρ) := by
  have hlength : ∀ items : List Value, (renumberItems ρ items).length = items.length := by
    intro items
    rw [renumberItems_eq, List.length_map]
  have hitems : ∀ items : List Value, floatElements sign (.vector (renumberItems ρ items)) =
      floatElements sign (.vector items) :=
    fun items => floatElements_renumber ρ sign (.vector items)
  rw [hlength, hlength, hitems, hitems]
  split
  · rfl
  · cases floatElements sign (.vector a) with
    | error fault => rfl
    | ok xs => exact map_ofFloats ρ (floatElements sign (.vector b)) (f xs)

theorem apply_renumber (sign : Sign) (left right : Value) :
    apply sign (left.renumber ρ) (right.renumber ρ) =
      (apply sign left right).map (renumber ρ) := by
  cases left with
  | float x =>
    cases right with
    | vector b =>
      cases sign with
      | times => exact scaled_renumber ρ .times (.vector b) _
      | _ => rfl
    | _ => cases sign <;> rfl
  | vector a =>
    cases right with
    | float k =>
      match sign with
      | .times => exact scaled_renumber ρ .times (.vector a) _
      | .over => exact scaled_renumber ρ .over (.vector a) _
      | .plus | .minus => rfl
    | vector b =>
      cases sign with
      | plus => exact added_renumber ρ .plus a b _
      | minus => exact added_renumber ρ .minus a b _
      | _ => rfl
    | _ => cases sign <;> rfl
  | _ => cases sign <;> cases right <;> rfl

end Value

/-! ## calls -/

namespace Arguments

theorem name_renumber (args : List (String × Value)) (n : String) (v : Value) :
    name (args.map (Prod.map id (Value.renumber ρ))) n (v.renumber ρ) =
      (name args n v).map (List.map (Prod.map id (Value.renumber ρ))) := by
  unfold name
  rw [Named.get?_map]
  cases Named.get? args n with
  | some found => rfl
  | none =>
    show Except.ok _ = Except.ok _
    rw [List.map_append]
    rfl

theorem onlyNamed_renumber (className : String) (given : List (ArgumentForm × Value))
    (args : List (String × Value)) :
    onlyNamed className (given.map (Prod.map id (Value.renumber ρ)))
        (args.map (Prod.map id (Value.renumber ρ))) =
      (onlyNamed className given args).map (List.map (Prod.map id (Value.renumber ρ))) := by
  induction given generalizing args with
  | nil => rfl
  | cons first rest ih =>
    obtain ⟨form, v⟩ := first
    cases form with
    | positional => rfl
    | named n =>
      show onlyNamed className ((.named n, v.renumber ρ) :: rest.map _) _ = _
      rw [onlyNamed, onlyNamed, name_renumber]
      cases name args n v with
      | error fault => rfl
      | ok args => exact ih args

theorem collect_renumber (given : List (ArgumentForm × Value)) (args : Arguments) :
    collect (given.map (Prod.map id (Value.renumber ρ))) (args.renumber ρ) =
      (collect given args).map (renumber ρ) := by
  induction given generalizing args with
  | nil => rfl
  | cons first rest ih =>
    obtain ⟨form, v⟩ := first
    cases form with
    | positional =>
      have hpush : (Arguments.renumber ρ { args with positional := args.positional ++ [v] }) =
          { args.renumber ρ with
            positional := (args.renumber ρ).positional ++ [v.renumber ρ] } := by
        simp [renumber]
      rw [collect, ← ih, hpush]
      rfl
    | named n =>
      show collect ((.named n, v.renumber ρ) :: rest.map _) _ = _
      have hname : name (args.renumber ρ).named n (v.renumber ρ) =
          (name args.named n v).map (List.map (Prod.map id (Value.renumber ρ))) :=
        name_renumber ρ args.named n v
      rw [collect, collect, hname]
      cases name args.named n v with
      | error fault => rfl
      | ok named => exact ih { args with named }

end Arguments

namespace Routine

/-- a function of floats is blind to the numbers of passes -/
theorem squareRoot_renumber (vs : List Value) :
    squareRoot (vs.map (Value.renumber ρ)) = (squareRoot vs).map (Value.renumber ρ) := by
  rcases vs with _ | ⟨v, _ | ⟨w, rest⟩⟩
  · rfl
  · show squareRoot [v.renumber ρ] = _
    unfold squareRoot
    dsimp only
    rw [Value.float?_renumber, Value.typeName_renumber]
    cases v.float? with
    | none => rfl
    | some x =>
      dsimp only
      split <;> rfl
  · simp [squareRoot, Except.map]

theorem vectorLength_renumber (vs : List Value) :
    vectorLength (vs.map (Value.renumber ρ)) = (vectorLength vs).map (Value.renumber ρ) := by
  rcases vs with _ | ⟨v, _ | ⟨w, rest⟩⟩
  · rfl
  · show vectorLength [v.renumber ρ] = _
    unfold vectorLength
    dsimp only
    rw [Value.floats?_renumber, Value.text_renumber]
    cases v.floats? <;> rfl
  · simp [vectorLength, Except.map]

theorem whereabouts_renumber (b : Body) (vs : List Value) :
    whereabouts b (vs.map (Value.renumber ρ)) = (whereabouts b vs).map (Value.renumber ρ) := by
  cases vs with
  | nil => rfl
  | cons v rest => simp [whereabouts, Except.map]

theorem movedBy_renumber (b : Body) (vs : List Value) :
    movedBy b (vs.map (Value.renumber ρ)) = (movedBy b vs).map (Value.renumber ρ) := by
  rcases vs with _ | ⟨v, _ | ⟨w, _ | ⟨u, rest⟩⟩⟩
  · rfl
  · rfl
  · show movedBy b [v.renumber ρ, w.renumber ρ] = _
    unfold movedBy
    dsimp only
    rw [Value.float?_renumber, Value.float?_renumber]
    cases v.float? <;> cases w.float? <;> rfl
  · simp [movedBy, Except.map]

theorem onlyPositional_renumber {run : List Value → Except Fault Value}
    (h : ∀ vs, run (vs.map (Value.renumber ρ)) = (run vs).map (Value.renumber ρ))
    (args : Arguments) :
    (args.renumber ρ).onlyPositional run = (args.onlyPositional run).map (Value.renumber ρ) := by
  unfold Arguments.onlyPositional
  show (if (args.named.map _).isEmpty then run (args.positional.map _) else _) = _
  rw [List.isEmpty_map, h]
  split <;> rfl

theorem run_renumber {host : Host} (hhost : host.Blind ρ) (r : Routine) (args : Arguments) :
    r.run host (args.renumber ρ) = (r.run host args).map (Value.renumber ρ) := by
  cases r with
  | sqrt => exact onlyPositional_renumber ρ (squareRoot_renumber ρ) args
  | length => exact onlyPositional_renumber ρ (vectorLength_renumber ρ) args
  | position b => exact onlyPositional_renumber ρ (whereabouts_renumber ρ b) args
  | moved b => exact onlyPositional_renumber ρ (movedBy_renumber ρ b) args
  | host name => exact hhost.call name args

end Routine

namespace Value

theorem parameterValue_renumber (className : String) (args : List (String × Value))
    (parameter : String × Option Value) :
    parameterValue className (args.map (Prod.map id (renumber ρ)))
        (Prod.map id (Option.map (renumber ρ)) parameter) =
      (parameterValue className args parameter).map (Prod.map id (renumber ρ)) := by
  obtain ⟨name, default⟩ := parameter
  unfold parameterValue
  simp only [Prod.map, Named.get?_map, id_eq]
  cases Named.get? args name with
  | some v => rfl
  | none => cases default <;> rfl

theorem construct_renumber (className : String) (parameters : List (String × Option Value))
    (args : List (String × Value)) :
    construct className (renumberParameters ρ parameters) (args.map (Prod.map id (renumber ρ))) =
      (construct className parameters args).map (renumber ρ) := by
  have hvalues : (parameters.map (Prod.map id (Option.map (renumber ρ)))).mapM
      (parameterValue className (args.map (Prod.map id (renumber ρ)))) =
      (parameters.mapM (parameterValue className args)).map
        (List.map (Prod.map id (renumber ρ))) := by
    induction parameters with
    | nil => rfl
    | cons first rest ih =>
      rw [List.map_cons, List.mapM_cons, List.mapM_cons, ih, parameterValue_renumber]
      cases parameterValue className args first with
      | error fault => rfl
      | ok v => cases rest.mapM (parameterValue className args) <;> rfl
  have hunknown : ∀ name,
      (Named.get? (parameters.map (Prod.map id (Option.map (renumber ρ)))) name).isNone =
        (Named.get? parameters name).isNone := by
    intro name
    rw [Named.get?_map, Option.isNone_map]
  unfold construct
  rw [renumberParameters_eq, Named.names_map, hvalues]
  simp only [hunknown]
  split
  · rfl
  · cases parameters.mapM (parameterValue className args) with
    | error fault => rfl
    | ok fields => exact congrArg Except.ok (congrArg (Value.record className)
        (renumberFields_eq ρ fields).symm)

theorem call_renumber {host : Host} (hhost : host.Blind ρ) (callee : Value)
    (forms : List ArgumentForm) (values : List Value) :
    (callee.renumber ρ).call host forms (values.map (renumber ρ)) =
      (callee.call host forms values).map (renumber ρ) := by
  have hzip : forms.zip (values.map (renumber ρ)) =
      (forms.zip values).map (Prod.map id (renumber ρ)) := by
    rw [List.zip_map_right]
  cases callee with
  | classRef origin name parameters =>
    have hargs : Arguments.onlyNamed name ((forms.zip values).map (Prod.map id (renumber ρ))) [] =
        (Arguments.onlyNamed name (forms.zip values) []).map
          (List.map (Prod.map id (renumber ρ))) :=
      Arguments.onlyNamed_renumber ρ name (forms.zip values) []
    simp only [renumber, call, hzip, hargs]
    cases Arguments.onlyNamed name (forms.zip values) [] with
    | error fault => rfl
    | ok args =>
      cases parameters with
      | some parameters => exact construct_renumber ρ name parameters args
      | none => exact hhost.construct name args
  | function f =>
    have hargs : Arguments.collect ((forms.zip values).map (Prod.map id (renumber ρ))) ⟨[], []⟩ =
        (Arguments.collect (forms.zip values) ⟨[], []⟩).map (Arguments.renumber ρ) :=
      Arguments.collect_renumber ρ (forms.zip values) ⟨[], []⟩
    simp only [renumber, call, hzip, hargs]
    cases Arguments.collect (forms.zip values) ⟨[], []⟩ with
    | error fault => rfl
    | ok args => exact f.routine.run_renumber ρ hhost args
  | _ => rfl

end Value

/-! ## the machine -/

def Feed.renumber (feed : Feed) : Feed := { feed with values := feed.values.map (Value.renumber ρ) }

def Scope.renumber (scope : Scope) : Scope := { scope with value := scope.value.renumber ρ }

def Scopes.renumber (scopes : Scopes) : Scopes := ⟨scopes.all.map (Scope.renumber ρ)⟩

def Stack.renumber (s : Stack) : Stack :=
  ⟨s.values.map (Value.renumber ρ), s.feed.renumber ρ, s.accesses⟩

/-- no binding names a pass that is renumbered -/
def Environment.Fixed (env : Environment) : Prop :=
  ∀ name v, env.get? name = some v → v.renumber ρ = v

namespace Scopes

theorem size_renumber (scopes : Scopes) : (scopes.renumber ρ).size = scopes.size := Array.size_map

theorem get?_renumber (scopes : Scopes) (id : Nat) :
    (scopes.renumber ρ).get? id = (scopes.get? id).map (Scope.renumber ρ) := Array.getElem?_map

theorem push_renumber (scopes : Scopes) (scope : Scope) :
    (scopes.push scope).renumber ρ = (scopes.renumber ρ).push (scope.renumber ρ) :=
  congrArg Scopes.mk Array.map_push

variable {env : Environment} {ρ}

theorem findWithin_renumber (henv : env.Fixed ρ) (scopes : Scopes) (name : String) (steps : Nat)
    (start : Option Nat) : (scopes.renumber ρ).findWithin env name steps start =
      (scopes.findWithin env name steps start).map (Value.renumber ρ) := by
  have hroot : env.get? name = (env.get? name).map (Value.renumber ρ) := by
    cases h : env.get? name with
    | none => rfl
    | some v => rw [Option.map_some, henv name v h]
  induction steps generalizing start with
  | zero =>
    cases start with
    | none => exact hroot
    | some id => rfl
  | succ steps ih =>
    cases start with
    | none => exact hroot
    | some id =>
      rw [findWithin, findWithin, get?_renumber]
      cases scopes.get? id with
      | none => rfl
      | some scope =>
        simp only [Option.map_some, Scope.renumber]
        split
        · rfl
        · exact ih scope.parent

theorem find?_renumber (henv : env.Fixed ρ) (scopes : Scopes) (start : Option Nat)
    (name : String) : (scopes.renumber ρ).find? env start name =
      (scopes.find? env start name).map (Value.renumber ρ) := by
  rw [find?, size_renumber]
  exact findWithin_renumber henv scopes name scopes.size start

end Scopes

theorem Feed.take_renumber (feed : Feed) : (feed.renumber ρ).take =
    feed.take.map (Prod.map (Value.renumber ρ) (Feed.renumber ρ)) := by
  unfold take
  show ((feed.values.map (Value.renumber ρ))[feed.next]?).map _ = _
  rw [Array.getElem?_map, Option.map_map, Option.map_map]
  rfl

namespace Stack

theorem top_renumber (s : Stack) : (s.renumber ρ).top = s.top.renumber ρ := by
  show (s.values.map (Value.renumber ρ)).headD .void = (s.values.headD .void).renumber ρ
  cases s.values <;> rfl

theorem drop_renumber (s : Stack) (n : Nat) : (s.renumber ρ).drop n = (s.drop n).renumber ρ := by
  simp only [drop, renumber, List.map_drop]

theorem topMost_renumber (s : Stack) (n : Nat) :
    (s.renumber ρ).topMost n = (s.topMost n).map (Value.renumber ρ) := by
  simp only [topMost, renumber, List.map_reverse, List.map_take]

end Stack

namespace Machine

theorem leave_renumber (s : Stack) (r : Except Fault Value) :
    leave (s.renumber ρ) (r.map (Value.renumber ρ)) =
      Prod.map id (Stack.renumber ρ) (leave s r) := by
  cases r <;> rfl

variable {ρ} {root : Root}

theorem step_renumber (henv : root.environment.Fixed ρ) (hhost : root.host.Blind ρ)
    (scopes : Scopes) (scope : Option Nat) (site : Site) (op : Op) (s : Stack) :
    (evaluating root (scopes.renumber ρ) scope (site.renumber ρ)).step op (s.renumber ρ) =
      Prod.map id (Stack.renumber ρ) ((evaluating root scopes scope site).step op s) := by
  cases op with
  | number digits => rfl
  | string text => rfl
  | input =>
    have htake : (s.renumber ρ).feed.take =
        s.feed.take.map (Prod.map (Value.renumber ρ) (Feed.renumber ρ)) :=
      Feed.take_renumber ρ s.feed
    simp only [evaluating, htake]
    cases s.feed.take <;> rfl
  | name name =>
    simp only [evaluating]
    rw [Scopes.find?_renumber henv]
    cases scopes.find? root.environment scope name <;> rfl
  | vector length =>
    have hvector : Value.vector ((s.renumber ρ).topMost length) =
        (Value.vector (s.topMost length)).renumber ρ := by
      rw [Stack.topMost_renumber, Value.renumber, Value.renumberItems_eq]
    simp only [evaluating]
    rw [Stack.drop_renumber, hvector]
    exact leave_renumber ρ _ (.ok _)
  | member name =>
    have hmember := s.top.memberOf_renumber ρ (.fetched site s.accesses) name
    rw [← Stack.top_renumber] at hmember
    simp only [evaluating]
    rw [Stack.drop_renumber]
    show leave _ ((s.renumber ρ).top.memberOf
      ((Origin.fetched site s.accesses).renumber ρ) name) = _
    rw [hmember]
    exact leave_renumber ρ { s.drop 1 with accesses := s.accesses + 1 } _
  | call forms =>
    simp only [evaluating]
    rw [Stack.drop_renumber, Stack.drop_renumber, Stack.top_renumber, Stack.topMost_renumber,
      Value.call_renumber ρ hhost]
    exact leave_renumber ρ _ _
  | binary sign =>
    simp only [evaluating]
    rw [Stack.drop_renumber, Stack.drop_renumber, Stack.top_renumber, Stack.top_renumber,
      Value.apply_renumber]
    exact leave_renumber ρ _ _

end Machine

end Dataflow
