import Dataflow.Proofs.Effect

/-!
# Names stand for the latest assignment of their own node

All nodes of a pass open their scopes in one row, and a lookup goes from scope to parent by number.

* `Scopes.Finds`        the search for a name, which need not end in scopes of any kind;
* `Scopes.Ordered`      every parent is an earlier scope, so every search ends, and it ends with what
                        `Scopes.find?` gives (`Scopes.Ordered.finds`);
* `Scopes.Holds`        the bindings from a scope outwards;
* `Due.assigned?`, `Due.opened?`   what a statement assigns, and the scope that it opens for it;
* `Due.meaning`         what a name stands for after the assignments of a node so far;
* `Due.Scoped`          the names and scopes that a statement finds, and those that it leaves;
* `Diagram.evaluate_scoped`   all statements of all passes are scoped.

The invariant of a node (`Session.Lexical`): the row of scopes is what the statements of the pass
have opened, and from the scope in force outwards there are the assignments of this node alone.
-/

namespace Dataflow

variable {σ : Type}

/-! ## searches -/

namespace Scopes

variable {scopes : Scopes} {env : Environment} {name : String} {start : Option Nat}

/-- a search for a name and what it ends with: the binding of a scope, nothing at a scope that does
not exist, or what the host has bound -/
inductive Finds (scopes : Scopes) (env : Environment) (name : String) :
    Option Nat → Option Value → Prop
  | host : Finds scopes env name none (env.get? name)
  | missing {id : Nat} (h : scopes.get? id = none) : Finds scopes env name (some id) none
  | here {id : Nat} {scope : Scope} (h : scopes.get? id = some scope) (hname : scope.name = name) :
    Finds scopes env name (some id) (some scope.value)
  | outward {id : Nat} {scope : Scope} {answer : Option Value} (h : scopes.get? id = some scope)
    (hname : scope.name ≠ name) (hrest : Finds scopes env name scope.parent answer) :
    Finds scopes env name (some id) answer

theorem Finds.unique {a b : Option Value} (h : scopes.Finds env name start a)
    (h' : scopes.Finds env name start b) : a = b := by
  induction h with
  | host =>
    cases h'
    rfl
  | missing h =>
    cases h' with
    | missing => rfl
    | here h₁ => rw [h] at h₁; cases h₁
    | outward h₁ => rw [h] at h₁; cases h₁
  | here h hname =>
    cases h' with
    | missing h₁ => rw [h] at h₁; cases h₁
    | here h₁ => rw [h] at h₁; cases h₁; rfl
    | outward h₁ hne => rw [h] at h₁; cases h₁; exact absurd hname hne
  | outward h hne _ ih =>
    cases h' with
    | missing h₁ => rw [h] at h₁; cases h₁
    | here h₁ hname => rw [h] at h₁; cases h₁; exact absurd hname hne
    | outward h₁ _ hrest => rw [h] at h₁; cases h₁; exact ih hrest

/-- every parent is an earlier scope -/
def Ordered (scopes : Scopes) : Prop :=
  ∀ id scope parent, scopes.get? id = some scope → scope.parent = some parent → parent < id

theorem Ordered.finds_findWithin (h : scopes.Ordered) (env : Environment) (name : String)
    {id steps : Nat} (hsteps : id < steps) :
    scopes.Finds env name (some id) (scopes.findWithin env name steps (some id)) := by
  -- on the scope: the search goes on at an earlier one, with one step less
  induction id using Nat.strongRecOn generalizing steps with
  | ind id ih =>
    obtain ⟨steps, rfl⟩ := Nat.exists_eq_succ_of_ne_zero (Nat.ne_zero_of_lt hsteps)
    rw [findWithin]
    cases hscope : scopes.get? id with
    | none => exact .missing hscope
    | some scope =>
      dsimp only
      split
      · next hname => exact .here hscope hname
      · next hname =>
        refine .outward hscope hname ?_
        cases hparent : scope.parent with
        | none =>
          rw [findWithin]
          exact .host
        | some parent =>
          have hlt : parent < id := h id scope parent hscope hparent
          exact ih parent hlt (by omega)

/-- every search ends, from whichever scope it starts -/
theorem Ordered.finds (h : scopes.Ordered) (env : Environment) (start : Option Nat)
    (name : String) :
    scopes.Finds env name start (scopes.find? env start name) := by
  cases start with
  | none =>
    rw [find?_none]
    exact .host
  | some id =>
    by_cases hid : id < scopes.size
    · exact h.finds_findWithin env name hid
    · have hnone : scopes.get? id = none := Array.getElem?_eq_none (Nat.le_of_not_lt hid)
      have hfind : scopes.find? env (some id) name = none := by
        unfold find?
        cases scopes.size with
        | zero => rfl
        | succ steps => rw [findWithin, hnone]
      rw [hfind]
      exact .missing hnone

/-- the bindings from a scope outwards, the innermost first -/
inductive Holds (scopes : Scopes) : Option Nat → List (String × Value) → Prop
  | nil : Holds scopes none []
  | cons {id : Nat} {scope : Scope} {bindings : List (String × Value)}
    (h : scopes.get? id = some scope) (hrest : Holds scopes scope.parent bindings) :
    Holds scopes (some id) ((scope.name, scope.value) :: bindings)

/-- the search finds the innermost binding of a name, or else the host's -/
theorem Holds.finds {bindings : List (String × Value)} (h : scopes.Holds start bindings)
    (env : Environment) (name : String) :
    scopes.Finds env name start ((Named.get? bindings name).or (env.get? name)) := by
  induction h with
  | nil =>
    rw [Named.get?_nil, Option.none_or]
    exact .host
  | cons h _ ih =>
    rw [Named.get?_cons]
    split
    · next hname => exact .here h hname
    · next hname => exact .outward h hname ih

/-- more scopes behind the others change no binding -/
theorem Holds.mono {more : Scopes} {bindings : List (String × Value)}
    (hmore : ∀ id scope, scopes.get? id = some scope → more.get? id = some scope)
    (h : scopes.Holds start bindings) : more.Holds start bindings := by
  induction h with
  | nil => exact .nil
  | cons h _ ih => exact .cons (hmore _ _ h) ih

theorem get?_push_of_some {id : Nat} {scope : Scope} (h : scopes.get? id = some scope)
    (new : Scope) : (scopes.push new).get? id = some scope := by
  have hlt : id < scopes.all.size := (Array.getElem?_eq_some_iff.mp h).1
  rw [get?, push, Array.getElem?_push, if_neg (Nat.ne_of_lt hlt)]
  exact h

end Scopes

/-! ## assignments -/

namespace Due

/-- what a statement assigns: the name and the value, if it is an assignment that succeeds -/
def assigned? (root : Root) (due : Due σ) : Option (String × Value) :=
  match due.concluded? root with
  | some (.assignment name, v) => some (name, v)
  | _ => none

/-- the scope that a statement opens, with the slot of its node -/
def opened? (root : Root) (due : Due σ) : Option (Nat × Scope) :=
  (due.assigned? root).map fun (name, v) => (due.site.slot, ⟨name, v, due.session.scope⟩)

/-- what the node in a slot has assigned in some statements, in order -/
def assignments (root : Root) (slot : Nat) (history : List (Due σ)) : List (String × Value) :=
  (history.filter (·.site.slot == slot)).filterMap (assigned? root)

/-- what a name stands for in a statement, given those before it: the latest assignment of its own
node, or else what the host has bound -/
def meaning (root : Root) (history : List (Due σ)) (due : Due σ) (name : String) : Option Value :=
  (Named.get? (assignments root due.site.slot history).reverse name).or (root.environment.get? name)

variable {root : Root} {sink : Sink σ} {due : Due σ}

/-- an assignment opens a scope inside the one in force; every other statement leaves the scopes and
the scope in force alone -/
theorem scopes_after (root : Root) (sink : Sink σ) (due : Due σ) :
    match due.assigned? root with
    | some (name, v) =>
      (due.after root sink).scopes = due.session.scopes.push ⟨name, v, due.session.scope⟩ ∧
        (due.after root sink).scope = some due.session.scopes.size
    | none =>
      (due.after root sink).scopes = due.session.scopes ∧
        (due.after root sink).scope = due.session.scope := by
  have hends := due.ends root sink
  unfold assigned? after
  generalize due.concluded? root = concluded, due.run root sink = out at hends
  cases hends with
  | blank => exact ⟨rfl, rfl⟩
  | failed => exact ⟨rfl, rfl⟩
  | concluded feed form v =>
    cases form with
    | display => exact ⟨rfl, rfl⟩
    | assignment name => exact ⟨rfl, rfl⟩
    | expression => exact ⟨rfl, rfl⟩
    | result =>
      simp only [Statement.conclude]
      split <;> exact ⟨rfl, rfl⟩

/-- a scope is opened behind those that are there -/
theorem all_after (root : Root) (sink : Sink σ) (due : Due σ) :
    (due.after root sink).scopes.all.toList =
      due.session.scopes.all.toList ++ (due.opened? root).toList.map Prod.snd := by
  have hafter := due.scopes_after root sink
  rw [opened?]
  cases hassigned : due.assigned? root with
  | none =>
    rw [hassigned] at hafter
    rw [hafter.1]
    exact (List.append_nil _).symm
  | some assigned =>
    rw [hassigned] at hafter
    rw [hafter.1]
    exact Array.toList_push

theorem outcome_of_assigned (sink : Sink σ) {name : String} {v : Value}
    (h : due.assigned? root = some (name, v)) : due.outcome root sink = .ok .void := by
  have hends := due.ends root sink
  unfold assigned? at h
  unfold outcome
  generalize due.concluded? root = concluded, due.run root sink = out at h hends
  cases hends with
  | blank => cases h
  | failed => cases h
  | concluded feed form v' =>
    cases form with
    | assignment name' => rfl
    | _ => cases h

theorem assignments_append (slot : Nat) (history : List (Due σ)) (due : Due σ) :
    assignments root slot (history ++ [due]) = assignments root slot history ++
      (if due.site.slot = slot then (due.assigned? root).toList else []) := by
  unfold assignments
  rw [List.filter_append, List.filterMap_append]
  by_cases hslot : due.site.slot = slot
  · cases h : due.assigned? root <;> simp [hslot, h]
  · simp [hslot]

theorem assignments_of_new {slot : Nat} {history : List (Due σ)}
    (hnew : ∀ due ∈ history, due.site.slot ≠ slot) : assignments root slot history = [] := by
  have hnone : history.filter (·.site.slot == slot) = [] := by
    rw [List.filter_eq_nil_iff]
    intro due hdue
    simpa using hnew due hdue
  rw [assignments, hnone, List.filterMap_nil]

end Due

/-! ## the invariant -/

/-- the scopes that some statements have opened, each with the slot of its node -/
def openedBy (root : Root) (history : List (Due σ)) : List (Nat × Scope) :=
  history.filterMap (Due.opened? root)

/-- scopes as they are opened: the parent of each is an earlier one of the same node, or the root -/
def Nested (opened : List (Nat × Scope)) : Prop :=
  ∀ (id slot : Nat) scope parent, opened[id]? = some (slot, scope) → scope.parent = some parent →
    parent < id ∧ ∃ outer, opened[parent]? = some (slot, outer)

/-- between two nodes: the scopes are those that were opened -/
structure Scopes.OpenedBy (root : Root) (history : List (Due σ)) (scopes : Scopes) : Prop where
  all : scopes.all.toList = (openedBy root history).map Prod.snd
  nested : Nested (openedBy root history)

/-- between two statements of the node in a slot -/
structure Session.Lexical (root : Root) (slot : Nat) (history : List (Due σ)) (s : Session σ) :
    Prop where
  opened : s.scopes.OpenedBy root history
  /-- the scope in force was opened by the node itself -/
  own : ∀ id, s.scope = some id → ∃ scope, (openedBy root history)[id]? = some (slot, scope)
  holds : s.scopes.Holds s.scope (Due.assignments root slot history).reverse

section
variable {root : Root} {sink : Sink σ} {history : List (Due σ)} {scopes : Scopes}

theorem Scopes.OpenedBy.get? (h : scopes.OpenedBy root history) (id : Nat) :
    scopes.get? id = ((openedBy root history)[id]?).map Prod.snd := by
  rw [Scopes.get?, ← Array.getElem?_toList, h.all, List.getElem?_map]

theorem Scopes.OpenedBy.size (h : scopes.OpenedBy root history) :
    scopes.size = (openedBy root history).length := by
  rw [Scopes.size, ← Array.length_toList, h.all, List.length_map]

theorem Scopes.OpenedBy.ordered (h : scopes.OpenedBy root history) : scopes.Ordered := by
  intro id scope parent hscope hparent
  rw [h.get?] at hscope
  obtain ⟨⟨slot, opened⟩, hopened, rfl⟩ := Option.map_eq_some_iff.mp hscope
  exact (h.nested id slot opened parent hopened hparent).1

theorem openedBy_append (root : Root) (history : List (Due σ)) (due : Due σ) :
    openedBy root (history ++ [due]) = openedBy root history ++ (due.opened? root).toList :=
  filterMap_append_singleton (Due.opened? root) history due

theorem Nested.concat {opened : List (Nat × Scope)} (h : Nested opened) {slot : Nat} {scope : Scope}
    (hparent : ∀ parent, scope.parent = some parent →
      ∃ outer, opened[parent]? = some (slot, outer)) : Nested (opened ++ [(slot, scope)]) := by
  intro id slot' scope' parent hid hp
  rcases Nat.lt_trichotomy id opened.length with hlt | rfl | hgt
  · rw [List.getElem?_append_left hlt] at hid
    obtain ⟨hpid, outer, houter⟩ := h id slot' scope' parent hid hp
    refine ⟨hpid, outer, ?_⟩
    rw [List.getElem?_append_left (Nat.lt_trans hpid hlt)]
    exact houter
  · rw [List.getElem?_concat_length] at hid
    obtain ⟨rfl, rfl⟩ := Prod.mk.inj (Option.some.inj hid)
    obtain ⟨outer, houter⟩ := hparent parent hp
    have hlt : parent < opened.length := (List.getElem?_eq_some_iff.mp houter).1
    refine ⟨hlt, outer, ?_⟩
    rw [List.getElem?_append_left hlt]
    exact houter
  · have hnone : (opened ++ [(slot, scope)])[id]? = none := by
      rw [List.getElem?_eq_none]
      rw [List.length_append, List.length_singleton]
      omega
    rw [hnone] at hid
    cases hid

/-- where a node begins -/
theorem Session.Lexical.start {slot : Nat} (hnew : ∀ due ∈ history, due.site.slot ≠ slot)
    (h : scopes.OpenedBy root history) (inputs : List Value) (host : σ) :
    (Session.start scopes inputs host).Lexical root slot history := by
  refine ⟨h, fun id hid => (by cases hid), ?_⟩
  rw [Due.assignments_of_new hnew]
  exact .nil

/-- a statement opens at most one scope, inside the one in force -/
theorem Session.Lexical.openedBy_after {due : Due σ}
    (h : due.session.Lexical root due.site.slot history) :
    (due.after root sink).scopes.OpenedBy root (history ++ [due]) := by
  constructor
  case all => rw [Due.all_after, h.opened.all, openedBy_append, List.map_append]
  case nested =>
    rw [openedBy_append]
    cases hopened : due.opened? root with
    | none =>
      rw [Option.toList_none, List.append_nil]
      exact h.opened.nested
    | some opened =>
      obtain ⟨assigned, -, rfl⟩ := Option.map_eq_some_iff.mp hopened
      exact h.opened.nested.concat h.own

/-- what a statement keeps -/
theorem Session.Lexical.step {due : Due σ}
    (h : due.session.Lexical root due.site.slot history) :
    (due.after root sink).Lexical root due.site.slot (history ++ [due]) := by
  have hafter := due.scopes_after root sink
  have hopened := openedBy_append root history due
  have hassignments : Due.assignments root due.site.slot (history ++ [due]) = _ :=
    Due.assignments_append due.site.slot history due
  rw [if_pos rfl] at hassignments
  rw [Due.opened?] at hopened
  cases hassigned : due.assigned? root with
  | none =>
    rw [hassigned] at hafter hassignments hopened
    rw [Option.map_none, Option.toList_none, List.append_nil] at hopened
    rw [Option.toList_none, List.append_nil] at hassignments
    obtain ⟨hscopes, hscope⟩ := hafter
    refine ⟨h.openedBy_after, ?_, ?_⟩
    · rw [hscope, hopened]
      exact h.own
    · rw [hscopes, hscope, hassignments]
      exact h.holds
  | some assigned =>
    obtain ⟨name, v⟩ := assigned
    rw [hassigned] at hafter hassignments hopened
    rw [Option.map_some, Option.toList_some] at hopened
    rw [Option.toList_some] at hassignments
    obtain ⟨hscopes, hscope⟩ := hafter
    refine ⟨h.openedBy_after, fun id hid => ?_, ?_⟩
    · rw [hscope] at hid
      obtain rfl := Option.some.inj hid
      rw [hopened, h.opened.size, List.getElem?_concat_length]
      exact ⟨_, rfl⟩
    · rw [hscopes, hscope, hassignments, List.reverse_append]
      refine .cons (Scopes.get?_push_size _ _) ?_
      exact h.holds.mono fun _ _ hid => Scopes.get?_push_of_some hid _

end

/-! ## passes -/

/-- the names and the scopes that a statement finds, and the scopes that it leaves, given the
statements of the pass before it -/
structure Due.Scoped (root : Root) (sink : Sink σ) (history : List (Due σ)) (due : Due σ) : Prop where
  /-- a name stands for what the same node assigned to it last, or else for what the host bound -/
  finds : ∀ name, due.session.scopes.Finds root.environment name due.session.scope
    (due.meaning root history name)
  /-- and whoever reads it gets that -/
  reads : ∀ step ∈ due.trace root, ∀ name, step.op = .name name →
    match due.meaning root history name with
    | some v => step.answer = .ok () ∧ step.after.values = v :: step.before.values
    | none => step.answer = .error (.unknownIdentifier name)
  /-- only a statement that succeeds assigns anything -/
  succeeds : ∀ name v, due.assigned? root = some (name, v) → due.outcome root sink = .ok .void
  /-- every search ends, from whichever scope it starts -/
  ends : ∀ env start name, due.session.scopes.Finds env name start
    (due.session.scopes.find? env start name)
  /-- a scope is opened behind those that are there, which stay as they are -/
  leaves : (due.after root sink).scopes.all.toList =
    due.session.scopes.all.toList ++ (due.opened? root).toList.map Prod.snd

namespace Session.Lexical

variable {root : Root} {sink : Sink σ} {history : List (Due σ)} {due : Due σ}

theorem reads (h : due.session.Lexical root due.site.slot history) {step : Machine.Step Stack}
    (hstep : step ∈ due.trace root) {name : String} (hop : step.op = .name name) :
    match due.meaning root history name with
    | some v => step.answer = .ok () ∧ step.after.values = v :: step.before.values
    | none => step.answer = .error (.unknownIdentifier name) := by
  obtain ⟨index, hindex⟩ := List.getElem?_of_mem hstep
  obtain ⟨-, -, hlast⟩ := Due.getElem?_trace hindex
  -- the search of the machine ends with what the bindings say
  have hfind : due.session.scopes.find? root.environment due.session.scope name =
      due.meaning root history name :=
    (h.opened.ordered.finds _ _ _).unique (h.holds.finds root.environment name)
  rw [hop] at hlast
  simp only [Machine.evaluating] at hlast
  rw [hfind] at hlast
  cases hmeaning : due.meaning root history name with
  | none =>
    rw [hmeaning] at hlast
    exact (Prod.mk.inj hlast).1.symm
  | some v =>
    rw [hmeaning] at hlast
    obtain ⟨hanswer, hafter⟩ := Prod.mk.inj hlast
    exact ⟨hanswer.symm, congrArg Stack.values hafter.symm⟩

theorem toScoped (h : due.session.Lexical root due.site.slot history) :
    due.Scoped root sink history := by
  exact ⟨h.holds.finds root.environment, fun step hstep name hop => h.reads hstep hop,
    fun name v => Due.outcome_of_assigned sink, h.opened.ordered.finds, due.all_after root sink⟩

end Session.Lexical

/-- **Names are scoped lexically.**  Every statement that a pass runs is scoped by the statements
before it, and what is written down for it is what running it does.  At the end the scopes are those
that the statements have opened, in that order: those that a statement has found are still there,
unchanged and in front, and the parent of each is an earlier one of the same node, so that every
search in them ends. -/
theorem Diagram.evaluate_scoped (d : Diagram) (root : Root) (sink : Sink σ) (pass : Nat)
    (earlier : Results) (host : σ) :
    let run := d.due root sink pass earlier host
    let final := (d.evaluate root sink pass earlier host).1.scopes
    run.map (Due.ran root sink) =
      (d.account root sink pass earlier host).flatMap NodeRan.statements ∧
    (∀ due ∈ run, due.TracesRun root sink) ∧
    (∀ before due after, run = before ++ due :: after →
      due.Scoped root sink before ∧
        due.session.scopes.all.toList = (openedBy root before).map Prod.snd) ∧
    final.all.toList = (openedBy root run).map Prod.snd ∧
    Nested (openedBy root run) ∧
    (∀ due ∈ run, ∃ later, final.all.toList = due.session.scopes.all.toList ++ later) ∧
    ∀ env start name, final.Finds env name start (final.find? env start name) := by
  intro run final
  obtain ⟨hrun, hfinal⟩ : (∀ before due after, run = before ++ due :: after →
      due.session.Lexical root due.site.slot before) ∧ final.OpenedBy root run :=
    due_induction (I := fun slot history s => s.Lexical root slot history)
      (P := fun history scopes _ => scopes.OpenedBy root history)
      (fun slot history scopes inputs host hnew h => .start hnew h inputs host)
      (fun history due h => h.step) (fun slot history s h => h.opened)
      ⟨rfl, fun id slot scope parent hid => by cases hid⟩
  refine ⟨d.map_ran_due root sink pass earlier host, fun due _ => due.tracesRun root sink,
    fun before due after hsplit => ?_, hfinal.all, hfinal.nested, fun due hdue => ?_,
    hfinal.ordered.finds⟩
  · have h := hrun before due after hsplit
    exact ⟨h.toScoped, h.opened.all⟩
  · obtain ⟨before, after, hsplit⟩ := List.append_of_mem hdue
    refine ⟨(openedBy root (due :: after)).map Prod.snd, ?_⟩
    rw [hfinal.all, (hrun before due after hsplit).opened.all, ← List.map_append, hsplit, openedBy,
      List.filterMap_append]
    rfl

end Dataflow
