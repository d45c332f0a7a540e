import Mathlib.Logic.Function.Basic
import Dataflow.Evaluation
import Dataflow.Proofs.Edits
import Dataflow.Proofs.Renumber

/-!
# The same diagram evaluated again

A second pass over a diagram does what the first one did, but at places of its own: its results are
those of the first pass with this pass renumbered as the second one.  So they are equal to the
results of the first pass just if these hold nothing that differs from itself, a NaN, and nothing
that came to be in the first pass, a method.

* `Results.renumber ρ`           results with their passes renumbered;
* `Value.steady pass`            no NaN, and no method taken in this pass or later, but for the
                                 members of objects;
* `Diagram.evaluate_renumber`    a pass at a renumbered place gives renumbered results;
* `Value.same_renumber`          a value equals itself with later passes renumbered if it is steady;
* `Diagram.evaluate_again`       when a second pass gives equal results.
-/

namespace Dataflow

/-! ## statements and nodes -/

section

variable (ρ : Nat → Nat) {σ : Type} {act : σ → σ} {root : Root} {sink : Sink σ}

/-- a session with its passes renumbered, and with the host that belongs to it -/
def Session.renumber (act : σ → σ) (s : Session σ) : Session σ :=
  ⟨s.scopes.renumber ρ, s.scope, s.feed.renumber ρ, act s.host⟩

def NodeResult.renumber (r : NodeResult) : NodeResult :=
  { r with outputs := r.outputs.map (Value.renumber ρ) }

/-- results with their passes renumbered; the messages stay -/
def Results.renumber (r : Results) : Results :=
  ⟨r.nodes.map (NodeResult.renumber ρ), r.scopes.renumber ρ⟩

def Collector.renumber (c : Collector) : Collector :=
  { c with
    shown := c.shown.map (Value.renumber ρ)
    returned := c.returned.map (Value.renumber ρ) }

/-- a sink that takes renumbered values as it takes the values -/
structure Sink.Blind (act : σ → σ) (sink : Sink σ) : Prop where
  display : ∀ v s, sink.display (v.renumber ρ) (act s) = act (sink.display v s)
  accept : ∀ v s, sink.accept (v.renumber ρ) (act s) = Prod.map id act (sink.accept v s)
  remark : ∀ message s, sink.remark message (act s) = act (sink.remark message s)

theorem Collector.keep_renumber (c : Collector) (v : Value) :
    (c.renumber ρ).keep (v.renumber ρ) = (c.keep v).renumber ρ := by
  obtain ⟨expected, shown, returned, log⟩ := c
  cases returned with
  | none => rfl
  | some previous =>
    show Collector.say _ _ (_ ++ (previous.renumber ρ).text) = _
    rw [Value.text_renumber]
    rfl

theorem Sink.blind_collecting : Sink.collecting.Blind ρ (Collector.renumber ρ) where
  display v c := by
    simp only [collecting, Value.text_renumber]
    simp [Collector.say, Collector.renumber]
  accept v c := by
    have hallows : (c.renumber ρ).allows (v.renumber ρ) = c.allows v := by
      simp only [Collector.allows, Collector.renumber, Value.typeName_renumber]
    simp only [collecting, hallows]
    cases c.allows v with
    | ok _ => exact congrArg (Prod.mk _) (c.keep_renumber ρ v)
    | error fault => rfl
  remark message c := rfl

end

section

variable {ρ : Nat → Nat} {σ : Type} {act : σ → σ} {root : Root} {sink : Sink σ}

theorem Statement.conclude_renumber (hsink : sink.Blind ρ act) (form : Form) (v : Value)
    (s : Session σ) : conclude sink form (v.renumber ρ) (s.renumber ρ act) =
      Prod.map (Except.map (Value.renumber ρ)) (Session.renumber ρ act)
        (conclude sink form v s) := by
  cases form with
  | display => exact congrArg (Prod.mk _) (congrArg (Session.mk _ _ _) (hsink.display v s.host))
  | result =>
    have haccept : sink.accept (v.renumber ρ) (s.renumber ρ act).host =
        Prod.map id act (sink.accept v s.host) := hsink.accept v s.host
    simp only [conclude, haccept]
    obtain ⟨_ | _, host⟩ := sink.accept v s.host <;> rfl
  | assignment name =>
    have hassign : ((s.renumber ρ act).assign name (v.renumber ρ)) =
        (s.assign name v).renumber ρ act := by
      simp only [Session.assign, Session.renumber, Scopes.push_renumber, Scopes.size_renumber]
      rfl
    have hremark : sink.remark (name ++ " = " ++ (v.renumber ρ).text) (act s.host) =
        act (sink.remark (name ++ " = " ++ v.text) s.host) := by
      rw [Value.text_renumber, hsink.remark]
    have hhost := congrArg (fun t : Session σ =>
      { t with host := act (sink.remark (name ++ " = " ++ v.text) s.host) }) hassign
    show (Except.ok Value.void, Session.mk _ _ _ (sink.remark _ (act s.host))) = _
    rw [hremark]
    exact congrArg (Prod.mk _) hhost
  | expression => rfl

theorem Statement.run_renumber (henv : root.environment.Fixed ρ) (hhost : root.host.Blind ρ)
    (hsink : sink.Blind ρ act) (site : Site) (text : String) (s : Session σ) :
    run root sink (site.renumber ρ) text (s.renumber ρ act) =
      Prod.map (Except.map (Value.renumber ρ)) (Session.renumber ρ act)
        (run root sink site text s) := by
  have hdrive : drive (.evaluating root (s.renumber ρ act).scopes (s.renumber ρ act).scope
      (site.renumber ρ)) text (.start (s.renumber ρ act).feed) = Prod.map id (Stack.renumber ρ)
        (drive (.evaluating root s.scopes s.scope site) text (.start s.feed)) :=
    drive_map (Machine.step_renumber henv hhost s.scopes s.scope site) text (.start s.feed)
  unfold run
  rw [hdrive]
  obtain ⟨outcome, stack⟩ := drive (.evaluating root s.scopes s.scope site) text (.start s.feed)
  cases outcome with
  | error fault => rfl
  | ok form =>
    have hconclude := conclude_renumber hsink form stack.top { s with feed := stack.feed }
    rw [← Stack.top_renumber] at hconclude
    exact hconclude

theorem runStatement_renumber (henv : root.environment.Fixed ρ) (hhost : root.host.Blind ρ)
    (hsink : sink.Blind ρ act) (site : Site) (text : String) (firstInput : Nat) (s : Session σ) :
    runStatement root sink (site.renumber ρ) text firstInput (s.renumber ρ act) =
      Prod.map (Except.map (Value.renumber ρ)) (Session.renumber ρ act)
        (runStatement root sink site text firstInput s) := by
  unfold runStatement
  split
  · rfl
  · exact Statement.run_renumber henv hhost hsink site text (s.seek firstInput)

theorem NodeResult.cons_renumber (statement : Statement) (lineCount : Nat)
    (outcome : Except Fault Value) (later : NodeResult) :
    NodeResult.cons statement lineCount (outcome.map (Value.renumber ρ)) (later.renumber ρ) =
      (NodeResult.cons statement lineCount outcome later).renumber ρ := by
  unfold NodeResult.cons
  cases outcome with
  | ok v =>
    cases statement.hasOutput <;> rfl
  | error fault =>
    cases statement.hasOutput <;> rfl

theorem runStatements_renumber (henv : root.environment.Fixed ρ) (hhost : root.host.Blind ρ)
    (hsink : sink.Blind ρ act) (pass slot : Nat) (statements : List (Statement × List Line))
    (index firstInput : Nat) (s : Session σ) :
    runStatements root sink (ρ pass) slot statements index firstInput (s.renumber ρ act) =
      Prod.map (NodeResult.renumber ρ) (Session.renumber ρ act)
        (runStatements root sink pass slot statements index firstInput s) := by
  induction statements generalizing index firstInput s with
  | nil => rfl
  | cons first rest ih =>
    obtain ⟨statement, lines⟩ := first
    have hrun : runStatement root sink ⟨ρ pass, slot, index⟩ (Node.textOf lines) firstInput
        (s.renumber ρ act) = Prod.map (Except.map (Value.renumber ρ)) (Session.renumber ρ act)
          (runStatement root sink ⟨pass, slot, index⟩ (Node.textOf lines) firstInput s) :=
      runStatement_renumber henv hhost hsink ⟨pass, slot, index⟩ (Node.textOf lines) firstInput s
    rw [runStatements, runStatements, hrun]
    obtain ⟨outcome, s'⟩ := runStatement root sink ⟨pass, slot, index⟩ (Node.textOf lines)
      firstInput s
    dsimp only [Prod.map]
    rw [ih]
    obtain ⟨later, s''⟩ := runStatements root sink pass slot rest (index + 1)
      (firstInput + Line.total lines) s'
    exact congrArg (Prod.mk · _) (NodeResult.cons_renumber statement lines.length outcome later)

theorem runNode_renumber (henv : root.environment.Fixed ρ) (hhost : root.host.Blind ρ)
    (hsink : sink.Blind ρ act) (pass slot : Nat) (n : Node) (inputs : List Value)
    (scopes : Scopes) (host : σ) :
    runNode root sink (ρ pass) slot n (inputs.map (Value.renumber ρ)) (scopes.renumber ρ)
        (act host) =
      Prod.map (NodeResult.renumber ρ) (Session.renumber ρ act)
        (runNode root sink pass slot n inputs scopes host) := by
  have hstart : Session.start (scopes.renumber ρ) (inputs.map (Value.renumber ρ)) (act host) =
      (Session.start scopes inputs host).renumber ρ act := by
    simp [Session.start, Session.renumber, Feed.ofList, Feed.renumber]
  unfold runNode
  rw [hstart]
  exact runStatements_renumber henv hhost hsink pass slot _ 0 0 _

/-! ## passes -/

namespace Results

theorem output?_renumber (r : Results) (source : Source) :
    (r.renumber ρ).output? source = (r.output? source).map (Value.renumber ρ) := by
  show ((r.nodes.map (NodeResult.renumber ρ))[source.node]?).bind _ = _
  rw [Array.getElem?_map, output?]
  cases r.nodes[source.node]? with
  | none => rfl
  | some node => exact List.getElem?_map

theorem inputValue_renumber (r : Results) (input : Option Source) :
    (r.renumber ρ).inputValue input = (r.inputValue input).renumber ρ := by
  cases input with
  | none => rfl
  | some source =>
    rw [inputValue, output?_renumber, inputValue]
    cases r.output? source <;> rfl

theorem set_renumber (r : Results) (slot : Nat) (node : NodeResult) :
    (r.nodes.setIfInBounds slot node).map (NodeResult.renumber ρ) =
      (r.nodes.map (NodeResult.renumber ρ)).setIfInBounds slot (node.renumber ρ) :=
  Array.map_setIfInBounds

end Results

namespace Diagram

theorem evaluateTurn_renumber (henv : root.environment.Fixed ρ) (hhost : root.host.Blind ρ)
    (hsink : sink.Blind ρ act) (d : Diagram) (pass : Nat) (state : Results × σ) (turn : Turn) :
    d.evaluateTurn root sink (ρ pass) (Prod.map (Results.renumber ρ) act state) turn =
      Prod.map (Results.renumber ρ) act (d.evaluateTurn root sink pass state turn) := by
  obtain ⟨r, host⟩ := state
  unfold evaluateTurn
  dsimp only [Prod.map]
  cases d.node? turn.slot with
  | none => rfl
  | some n =>
    dsimp only
    split
    · have hcyclic : (NodeResult.cyclic n).renumber ρ = .cyclic n := by
        simp [NodeResult.renumber, NodeResult.cyclic, Value.renumber]
      have hset : (r.nodes.setIfInBounds turn.slot (.cyclic n)).map (NodeResult.renumber ρ) = _ :=
        r.set_renumber turn.slot (.cyclic n)
      rw [hcyclic] at hset
      exact congrArg (Prod.mk · _) (congrArg (Results.mk · _) hset.symm)
    · have hinputs : n.inputs.map (r.renumber ρ).inputValue =
          (n.inputs.map r.inputValue).map (Value.renumber ρ) := by
        rw [List.map_map]
        exact List.map_congr_left fun input _ => r.inputValue_renumber input
      have hnode : runNode root sink (ρ pass) turn.slot n (n.inputs.map (r.renumber ρ).inputValue)
          (r.renumber ρ).scopes (act host) = Prod.map (NodeResult.renumber ρ) (Session.renumber ρ act)
            (runNode root sink pass turn.slot n (n.inputs.map r.inputValue) r.scopes host) := by
        rw [hinputs]
        exact runNode_renumber henv hhost hsink pass turn.slot n _ r.scopes host
      rw [hnode]
      obtain ⟨result, s⟩ := runNode root sink pass turn.slot n (n.inputs.map r.inputValue)
        r.scopes host
      exact congrArg (Prod.mk · _) (congrArg (Results.mk · _)
        (r.set_renumber turn.slot result).symm)

/-- a pass that does the same elsewhere gives the same from elsewhere -/
theorem evaluate_renumber (henv : root.environment.Fixed ρ) (hhost : root.host.Blind ρ)
    (hsink : sink.Blind ρ act) (d : Diagram) (pass : Nat) (earlier earlier' : Results)
    (host : σ) : d.evaluate root sink (ρ pass) earlier' (act host) =
      Prod.map (Results.renumber ρ) act (d.evaluate root sink pass earlier host) := by
  have hreset : (earlier'.reset d.slotCount, act host) =
      Prod.map (Results.renumber ρ) act (earlier.reset d.slotCount, host) := by
    simp [Results.reset, Results.renumber, NodeResult.renumber, NodeResult.empty,
      Scopes.renumber, Scopes.empty]
  unfold evaluate
  rw [hreset]
  generalize (earlier.reset d.slotCount, host) = state
  induction d.schedule generalizing state with
  | nil => rfl
  | cons turn turns ih =>
    rw [List.foldl_cons, List.foldl_cons, evaluateTurn_renumber henv hhost hsink, ih]

end Diagram

end

/-! ## equal to itself renumbered -/

/-- whether a function or a class was there before a pass -/
def Origin.isBefore (pass : Nat) : Origin → Bool
  | .bound _ => true
  | .fetched site _ => site.pass < pass

namespace Value

mutual

/-- no NaN, and no function or class that came to be in a pass or later, but for the members of
objects that are functions -/
def steady (pass : Nat) : Value → Bool
  | .void => true
  | .float x => x.same x
  | .string _ => true
  | .vector items => steadyItems pass items
  | .record _ fields => steadyFields pass fields
  | .body b => b.same b
  | .function f => f.origin.isBefore pass
  | .classRef origin _ _ => origin.isBefore pass

def steadyItems (pass : Nat) : List Value → Bool
  | [] => true
  | v :: rest => v.steady pass && steadyItems pass rest

def steadyFields (pass : Nat) : List (String × Value) → Bool
  | [] => true
  | (_, v) :: rest => (v.isFunction || v.steady pass) && steadyFields pass rest

end

end Value

section

variable {ρ : Nat → Nat} {pass : Nat}

theorem Origin.same_renumber (hρ : ∀ p, ρ p = p ↔ p < pass) (origin : Origin) :
    (origin == origin.renumber ρ) = origin.isBefore pass := by
  cases origin with
  | bound index => exact beq_self_eq_true _
  | fetched site count =>
    obtain ⟨p, slot, statement⟩ := site
    rw [Bool.eq_iff_iff, beq_iff_eq]
    simp [renumber, Site.renumber, isBefore, ← hρ, eq_comm]

namespace Value

mutual

theorem same_renumber (hρ : ∀ p, ρ p = p ↔ p < pass) : ∀ v : Value,
    v.same (v.renumber ρ) = v.steady pass
  | .void => rfl
  | .float _ => rfl
  | .string text => beq_self_eq_true text
  | .vector items => by rw [renumber, same, sameItems_renumber hρ items, ← steady]
  | .record typeName fields => by
    rw [renumber, same, beq_self_eq_true, sameFields_renumber hρ fields, Bool.true_and, ← steady]
  | .body _ => rfl
  | .function f => Origin.same_renumber hρ f.origin
  | .classRef origin _ _ => Origin.same_renumber hρ origin

theorem sameItems_renumber (hρ : ∀ p, ρ p = p ↔ p < pass) : ∀ items : List Value,
    sameItems items (renumberItems ρ items) = steadyItems pass items
  | [] => rfl
  | v :: rest => by
    rw [renumberItems, sameItems, same_renumber hρ v, sameItems_renumber hρ rest, ← steadyItems]

theorem sameFields_renumber (hρ : ∀ p, ρ p = p ↔ p < pass) : ∀ fields : List (String × Value),
    sameFields fields (renumberFields ρ fields) = steadyFields pass fields
  | [] => rfl
  | (name, v) :: rest => by
    rw [renumberFields, sameFields, beq_self_eq_true, isFunction_renumber, Bool.and_self,
      same_renumber hρ v, sameFields_renumber hρ rest, Bool.true_and, ← steadyFields]

end

theorem steadyItems_iff (items : List Value) :
    steadyItems pass items = true ↔ ∀ v ∈ items, v.steady pass = true := by
  induction items with
  | nil => simp [steadyItems]
  | cons v rest ih => simp [steadyItems, ih]

end Value

end

/-- no output and no binding differs from itself or came to be in a pass or later -/
def Results.Steady (pass : Nat) (r : Results) : Prop :=
  (∀ node ∈ r.nodes, ∀ v ∈ node.outputs, v.steady pass = true) ∧
    ∀ scope ∈ r.scopes.all, scope.value.steady pass = true

section

variable {ρ : Nat → Nat} {pass : Nat}

theorem NodeResult.same_renumber_iff (hρ : ∀ p, ρ p = p ↔ p < pass) (r : NodeResult) :
    r.same (r.renumber ρ) = true ↔ ∀ v ∈ r.outputs, v.steady pass = true := by
  unfold same renumber
  rw [← Value.renumberItems_eq, Value.sameItems_renumber hρ, beq_self_eq_true, Bool.and_true,
    Value.steadyItems_iff]

/-- a list against its image, place by place -/
theorem all_zip_map {α β : Type} (f : α → β) (p : α × β → Bool) (l : List α) :
    ((l.zip (l.map f)).all p = true) ↔ ∀ a ∈ l, p (a, f a) = true := by
  induction l with
  | nil => simp
  | cons a l ih =>
    rw [List.map_cons, List.zip_cons_cons, List.all_cons, Bool.and_eq_true, ih,
      List.forall_mem_cons]

theorem Scopes.same_renumber_iff (hρ : ∀ p, ρ p = p ↔ p < pass) (scopes : Scopes) :
    scopes.same (scopes.renumber ρ) = true ↔
      ∀ scope ∈ scopes.all, scope.value.steady pass = true := by
  have hlist : (scopes.renumber ρ).all.toList = scopes.all.toList.map (Scope.renumber ρ) :=
    Array.toList_map
  unfold same
  rw [size_renumber, beq_self_eq_true, Bool.true_and, hlist, all_zip_map]
  simp [Scope.renumber, Value.same_renumber hρ]

theorem Results.same_renumber_iff (hρ : ∀ p, ρ p = p ↔ p < pass) (r : Results) :
    r.same (r.renumber ρ) = true ↔ r.Steady pass := by
  have hlist : (r.renumber ρ).nodes.toList = r.nodes.toList.map (NodeResult.renumber ρ) :=
    Array.toList_map
  have hsize : (r.renumber ρ).nodes.size = r.nodes.size := Array.size_map
  have hscopes : r.scopes.same (r.renumber ρ).scopes = true ↔
      ∀ scope ∈ r.scopes.all, scope.value.steady pass = true := r.scopes.same_renumber_iff hρ
  unfold same
  rw [hsize, beq_self_eq_true, Bool.true_and, hlist, Bool.and_eq_true, all_zip_map, hscopes, Steady]
  simp only [NodeResult.same_renumber_iff hρ, Array.mem_toList_iff]

end

/-! ## passes moved along -/

/-- a second pass instead of a first one, and later passes moved along -/
def advance (first second p : Nat) : Nat := if p < first then p else p - first + second

section

variable {first second p q : Nat}

theorem advance_of_lt (h : p < first) : advance first second p = p := if_pos h

theorem advance_self : advance first second first = second := by simp [advance]

theorem advance_eq_iff (h : first < second) : advance first second p = p ↔ p < first := by
  unfold advance
  split <;> omega

theorem advance_injective (h : first < second) : Function.Injective (advance first second) := by
  intro p q hpq
  unfold advance at hpq
  split at hpq <;> split at hpq <;> omega

end

/-! ## what was there before a pass -/

namespace Value

mutual

/-- the origins of the functions and classes that a value holds -/
def origins : Value → List Origin
  | .vector items => itemOrigins items
  | .record _ fields => fieldOrigins fields
  | .function f => [f.origin]
  | .classRef origin _ parameters => origin :: parameterOrigins? parameters
  | _ => []

def itemOrigins : List Value → List Origin
  | [] => []
  | v :: rest => v.origins ++ itemOrigins rest

def fieldOrigins : List (String × Value) → List Origin
  | [] => []
  | (_, v) :: rest => v.origins ++ fieldOrigins rest

def parameterOrigins? : Option (List (String × Option Value)) → List Origin
  | none => []
  | some parameters => parameterOrigins parameters

def parameterOrigins : List (String × Option Value) → List Origin
  | [] => []
  | (_, default) :: rest => defaultOrigins default ++ parameterOrigins rest

def defaultOrigins : Option Value → List Origin
  | none => []
  | some v => v.origins

end

variable {ρ : Nat → Nat}

mutual

/-- a value is what it was if its origins are -/
theorem renumber_eq_self : ∀ v : Value, (∀ o ∈ v.origins, o.renumber ρ = o) → v.renumber ρ = v
  | .void, _ => rfl
  | .float _, _ => rfl
  | .string _, _ => rfl
  | .vector items, h => congrArg Value.vector (renumberItems_eq_self items h)
  | .record _ fields, h => congrArg (Value.record _) (renumberFields_eq_self fields h)
  | .body _, _ => rfl
  | .function f, h => by
    have horigin := h f.origin (List.mem_singleton_self _)
    rw [renumber, Function.renumber, horigin]
  | .classRef origin name parameters, h => by
    have horigin := h origin List.mem_cons_self
    have hparameters := renumberParameters?_eq_self parameters fun o ho =>
      h o (List.mem_cons_of_mem _ ho)
    rw [renumber, horigin, hparameters]

theorem renumberItems_eq_self : ∀ items : List Value,
    (∀ o ∈ itemOrigins items, o.renumber ρ = o) → renumberItems ρ items = items
  | [], _ => rfl
  | v :: rest, h => by
    rw [renumberItems, renumber_eq_self v fun o ho => h o (List.mem_append_left _ ho),
      renumberItems_eq_self rest fun o ho => h o (List.mem_append_right _ ho)]

theorem renumberFields_eq_self : ∀ fields : List (String × Value),
    (∀ o ∈ fieldOrigins fields, o.renumber ρ = o) → renumberFields ρ fields = fields
  | [], _ => rfl
  | (_, v) :: rest, h => by
    rw [renumberFields, renumber_eq_self v fun o ho => h o (List.mem_append_left _ ho),
      renumberFields_eq_self rest fun o ho => h o (List.mem_append_right _ ho)]

theorem renumberParameters?_eq_self : ∀ parameters : Option (List (String × Option Value)),
    (∀ o ∈ parameterOrigins? parameters, o.renumber ρ = o) →
      renumberParameters? ρ parameters = parameters
  | none, _ => rfl
  | some parameters, h => congrArg some (renumberParameters_eq_self parameters h)

theorem renumberParameters_eq_self : ∀ parameters : List (String × Option Value),
    (∀ o ∈ parameterOrigins parameters, o.renumber ρ = o) →
      renumberParameters ρ parameters = parameters
  | [], _ => rfl
  | (_, default) :: rest, h => by
    rw [renumberParameters,
      renumberDefault_eq_self default fun o ho => h o (List.mem_append_left _ ho),
      renumberParameters_eq_self rest fun o ho => h o (List.mem_append_right _ ho)]

theorem renumberDefault_eq_self : ∀ default : Option Value,
    (∀ o ∈ defaultOrigins default, o.renumber ρ = o) → renumberDefault ρ default = default
  | none, _ => rfl
  | some v, h => congrArg some (renumber_eq_self v h)

end

end Value

/-- nothing that is bound came to be in a pass or later -/
def Environment.Before (pass : Nat) (env : Environment) : Prop :=
  ∀ name v, env.get? name = some v → ∀ o ∈ v.origins, o.isBefore pass = true

/-- the functions of the host make no functions anew, and of those made in a pass or later they
only tell which are the same -/
def Host.Pure (pass : Nat) (host : Host) : Prop :=
  ∀ ρ, Function.Injective ρ → (∀ p < pass, ρ p = p) → host.Blind ρ

theorem Environment.before_empty (pass : Nat) : Environment.empty.Before pass := by
  intro name v hget
  rw [get?_empty] at hget
  cases hget

theorem Environment.Before.bind {env : Environment} {pass : Nat} (h : env.Before pass)
    {v : Value} (hv : ∀ o ∈ v.origins, o.isBefore pass = true) (name : String) :
    (env.bind name v).Before pass := by
  intro other w hget
  by_cases hname : name = other
  · subst hname
    rw [get?_bind_self] at hget
    obtain rfl := Option.some.inj hget
    exact hv
  · rw [get?_bind_of_ne hname] at hget
    exact h other w hget

theorem Environment.Before.fixed {env : Environment} {pass : Nat} (h : env.Before pass)
    {ρ : Nat → Nat} (hρ : ∀ p < pass, ρ p = p) : env.Fixed ρ := by
  intro name v hget
  refine v.renumber_eq_self fun o ho => ?_
  have hbefore := h name v hget o ho
  cases o with
  | bound index => rfl
  | fetched site count =>
    have hlt : site.pass < pass := of_decide_eq_true hbefore
    rw [Origin.renumber, Site.renumber, hρ site.pass hlt]

namespace Diagram

/-! ## a single node -/

/-- with no wires to follow the walk only leaves the node -/
theorem walk_unwired (d : Diagram) {slot : Nat} {pending : List (Option Source)}
    (h : ∀ source, some source ∉ pending) (cyclic : Bool) (progress : Array Progress)
    (order : Array Turn) : d.walk progress order [⟨slot, pending, cyclic⟩] =
      (progress.setIfInBounds slot (.closed cyclic), order.push ⟨slot, cyclic⟩) := by
  induction pending with
  | nil => rw [walk, Frame.passOn, walk]
  | cons input rest ih =>
    cases input with
    | none =>
      rw [walk]
      exact ih fun source hmem => h source (List.mem_cons_of_mem _ hmem)
    | some source => exact absurd List.mem_cons_self (h source)

theorem schedule_add_empty (text : String) : (empty.add text).schedule = [⟨0, false⟩] := by
  show ((empty.add text).walk #[.opened] #[] [⟨0, (Node.ofText text).inputs, false⟩]).2.toList = _
  rw [walk_unwired _ fun source => not_mem_inputs_ofText text]
  rfl

theorem evaluate_add_empty {σ : Type} (text : String) (root : Root) (sink : Sink σ) (pass : Nat)
    (earlier : Results) (host : σ) : (empty.add text).evaluate root sink pass earlier host =
      (empty.add text).evaluateTurn root sink pass (⟨#[.empty], .empty⟩, host) ⟨0, false⟩ := by
  rw [evaluate, schedule_add_empty]
  rfl

/-! ## a second pass -/

/-- **A second pass repeats the first.**  Where functions of the host are pure, and nothing bound
comes from this pass, a second pass over the same diagram gives the results of the first with its
methods taken in the second pass instead: the messages, the places and all other values are the
same.  To a host they are equal just if the first results are steady. -/
theorem evaluate_again (d : Diagram) {root : Root} {pass pass' : Nat} (hpass : pass < pass')
    (henv : root.environment.Before pass) (hhost : root.host.Pure pass)
    (expected : Option String) (earlier : Results) :
    let first := (d.evaluate root .collecting pass earlier (.expecting expected)).1
    let second := (d.evaluate root .collecting pass' first (.expecting expected)).1
    second = first.renumber (advance pass pass') ∧
      (first.same second = true ↔ first.Steady pass) := by
  intro first second
  have hsame : ∀ p < pass, advance pass pass' p = p := fun _ => advance_of_lt
  have hblind : root.host.Blind (advance pass pass') := hhost _ (advance_injective hpass) hsame
  have hagain := evaluate_renumber (henv.fixed hsame) hblind
    (Sink.blind_collecting (advance pass pass')) d pass earlier first (.expecting expected)
  have hstart : Collector.renumber (advance pass pass') (.expecting expected) =
      .expecting expected := by
    simp [Collector.renumber, Collector.expecting]
  rw [advance_self, hstart] at hagain
  have hsecond : second = first.renumber (advance pass pass') := congrArg Prod.fst hagain
  refine ⟨hsecond, ?_⟩
  rw [hsecond]
  exact Results.same_renumber_iff (fun _ => advance_eq_iff hpass) first

/-- an object made by a method of another one -/
theorem evaluate_again_moved :
    let body : Body := ⟨.zero false, .zero false, .zero false⟩
    let root : Root := ⟨Environment.empty.bind "b" (.body body), .none⟩
    let d := Diagram.empty.add "m = b.moved(1, 2)\nm"
    let first := (d.evaluate root .collecting 0 .empty (.expecting none)).1
    let second := (d.evaluate root .collecting 1 first (.expecting none)).1
    0 < 1 ∧ root.environment.Before 0 ∧ root.host.Pure 0 ∧ first.Steady 0 ∧
      first.same second = true := by
  intro body root d first second
  have hbody : ∀ o ∈ (Value.body body).origins, o.isBefore 0 = true := by
    intro o ho
    cases ho
  have henv : root.environment.Before 0 := (Environment.before_empty 0).bind hbody "b"
  have hhost : root.host.Pure 0 := fun ρ _ _ => Host.blind_none ρ
  have hsteady : first.Steady 0 := by
    simp only [first, d, evaluate_add_empty, Results.Steady]
    decide +kernel
  exact ⟨Nat.one_pos, henv, hhost, hsteady,
    (d.evaluate_again Nat.one_pos henv hhost none .empty).2.mpr hsteady⟩

/-- a NaN differs from itself, and a method from the same one taken again -/
theorem evaluate_again_differs :
    let body : Body := ⟨.zero false, .zero false, .zero false⟩
    let root : Root := ⟨Environment.empty.bind "b" (.body body), .none⟩
    root.host.Pure 0 ∧ ∀ text ∈ ["0/0", "b.moved"],
      let d := Diagram.empty.add text
      let first := (d.evaluate root .collecting 0 .empty (.expecting none)).1
      let second := (d.evaluate root .collecting 1 first (.expecting none)).1
      first.same second = false := by
  refine ⟨fun ρ _ _ => Host.blind_none ρ, ?_⟩
  -- the walk over the wires is no structural recursion, so it is not left to evaluation
  simp only [evaluate_add_empty]
  decide +kernel

end Diagram

end Dataflow
