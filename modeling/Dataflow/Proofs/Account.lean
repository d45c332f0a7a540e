import Dataflow.Proofs.Pass

/-!
# An account of a pass

A pass keeps the values and the messages, but not what led to them.  The account of a pass lists the
nodes in the order of their runs, and of every node the statements in the order of their lines, with
the outcome of each and the calls that it made on the host.

* `Call`, `Sink.recorded`   a call on a host, and the host that also writes every call down;
* `Ran`                     a statement as it was run;
* `Diagram.account`         the account of a pass;
* `Diagram.evaluate_calls`   the calls of a pass are those of its statements, one after the other;
* `Diagram.nodes_accountFrom`   the results of a node are those of its statements;
* `Diagram.faults`          the faults behind the messages on the lines of a node
                            (`Diagram.errors_eq_faults`).
-/

namespace Dataflow

open Relation

variable {σ τ : Type}

/-- a call that a statement makes on the host -/
inductive Call where
  | display (v : Value)
  | accept (v : Value)
  | remark (message : String)

/-- a host that does what another one does and writes every call down -/
def Sink.recorded (sink : Sink σ) : Sink (σ × List Call) where
  display v s := (sink.display v s.1, s.2 ++ [.display v])
  accept v s := ((sink.accept v s.1).1, ((sink.accept v s.1).2, s.2 ++ [.accept v]))
  remark message s := (sink.remark message s.1, s.2 ++ [.remark message])

/-- the same session with another host -/
def Session.withHost (s : Session σ) (host : τ) : Session τ := ⟨s.scopes, s.scope, s.feed, host⟩

/-- the calls that a statement makes on the host, written down while it runs -/
def statementCalls (root : Root) (sink : Sink σ) (site : Site) (text : String) (firstInput : Nat)
    (s : Session σ) : List Call :=
  (runStatement root sink.recorded site text firstInput (s.withHost (s.host, []))).2.host.2

/-- a statement as it was run -/
structure Ran where
  statement : Statement
  lines : List Line
  outcome : Except Fault Value
  calls : List Call

/-- the statements of a node from one of them on, as they are run -/
def statementsRan (root : Root) (sink : Sink σ) (pass slot : Nat) :
    List (Statement × List Line) → Nat → Nat → Session σ → List Ran
  | [], _, _, _ => []
  | (statement, lines) :: rest, index, firstInput, s =>
    let site : Site := ⟨pass, slot, index⟩
    let text := Node.textOf lines
    let (outcome, after) := runStatement root sink site text firstInput s
    ⟨statement, lines, outcome, statementCalls root sink site text firstInput s⟩
      :: statementsRan root sink pass slot rest (index + 1) (firstInput + Line.total lines) after

/-- a node as it was run -/
structure NodeRan where
  slot : Nat
  /-- its statements in the order of their lines -/
  statements : List Ran

namespace NodeRan

/-- the calls of its statements -/
def calls (r : NodeRan) : List Call := r.statements.flatMap Ran.calls

end NodeRan

namespace Diagram

/-- the statements of the node in a slot, as they are run in a state of the pass -/
def slotRan (d : Diagram) (root : Root) (sink : Sink σ) (pass : Nat) (state : Results × σ)
    (slot : Nat) : List Ran :=
  match d.node? slot with
  | none => []
  | some n =>
    statementsRan root sink pass slot (n.statements.zip n.statementLines) 0 0
      (.start state.1.scopes (n.inputs.map state.1.inputValue) state.2)

/-- the nodes of some turns that are run, one after the other -/
def accountFrom (d : Diagram) (root : Root) (sink : Sink σ) (pass : Nat) :
    List Turn → Results × σ → List NodeRan
  | [], _ => []
  | turn :: rest, state =>
    let later := accountFrom d root sink pass rest (d.evaluateTurn root sink pass state turn)
    if turn.cyclic then later else ⟨turn.slot, d.slotRan root sink pass state turn.slot⟩ :: later

/-- what a pass runs -/
def account (d : Diagram) (root : Root) (sink : Sink σ) (pass : Nat) (earlier : Results) (host : σ) :
    List NodeRan :=
  d.accountFrom root sink pass d.schedule (earlier.reset d.slotCount, host)

end Diagram

/-! ## the calls -/

section
variable {root : Root} {sink : Sink σ} {site : Site} {pass slot : Nat}

/-- a host that writes calls down behaves like the one it stands for, and an earlier log stays in
front of what is written -/
theorem Statement.conclude_recorded (form : Form) (v : Value) (s : Session σ) :
    ∃ calls, ∀ log, conclude sink.recorded form v (s.withHost (s.host, log)) =
      ((conclude sink form v s).1,
        (conclude sink form v s).2.withHost ((conclude sink form v s).2.host, log ++ calls)) := by
  cases form with
  | display => exact ⟨[.display v], fun _ => rfl⟩
  | result =>
    refine ⟨[.accept v], fun log => ?_⟩
    simp only [conclude, Sink.recorded, Session.withHost]
    cases sink.accept v s.host with
    | mk answer host => cases answer <;> rfl
  | assignment name => exact ⟨[.remark (name ++ " = " ++ v.text)], fun _ => rfl⟩
  | expression => exact ⟨[], fun log => by rw [List.append_nil]; rfl⟩

theorem Statement.run_recorded (text : String) (s : Session σ) :
    ∃ calls, ∀ log, run root sink.recorded site text (s.withHost (s.host, log)) =
      ((run root sink site text s).1,
        (run root sink site text s).2.withHost ((run root sink site text s).2.host, log ++ calls)) := by
  have hsame : ∀ log : List Call, drive
      (.evaluating root (s.withHost (s.host, log)).scopes (s.withHost (s.host, log)).scope site) text
      (.start (s.withHost (s.host, log)).feed)
      = drive (.evaluating root s.scopes s.scope site) text (.start s.feed) := fun _ => rfl
  simp only [run, hsame]
  generalize drive (.evaluating root s.scopes s.scope site) text (.start s.feed) = out
  obtain ⟨fault | form, stack⟩ := out
  · exact ⟨[], fun log => by rw [List.append_nil]; rfl⟩
  · exact conclude_recorded form stack.top { s with feed := stack.feed }

theorem runStatement_recorded (text : String) (firstInput : Nat) (s : Session σ) (log : List Call) :
    runStatement root sink.recorded site text firstInput (s.withHost (s.host, log)) =
      ((runStatement root sink site text firstInput s).1,
        (runStatement root sink site text firstInput s).2.withHost
          ((runStatement root sink site text firstInput s).2.host,
            log ++ statementCalls root sink site text firstInput s)) := by
  obtain ⟨calls, hcalls⟩ : ∃ calls, ∀ log,
      runStatement root sink.recorded site text firstInput (s.withHost (s.host, log)) =
        ((runStatement root sink site text firstInput s).1,
          (runStatement root sink site text firstInput s).2.withHost
            ((runStatement root sink site text firstInput s).2.host, log ++ calls)) := by
    unfold runStatement
    split
    · exact ⟨[], fun log => by rw [List.append_nil]; rfl⟩
    · exact Statement.run_recorded text (s.seek firstInput)
  have hthese : statementCalls root sink site text firstInput s = calls := by
    rw [statementCalls, hcalls []]
    rfl
  rw [hthese, hcalls log]

theorem runStatements_recorded (statements : List (Statement × List Line))
    (index firstInput : Nat) (s : Session σ) (log : List Call) :
    runStatements root sink.recorded pass slot statements index firstInput
        (s.withHost (s.host, log)) =
      ((runStatements root sink pass slot statements index firstInput s).1,
        (runStatements root sink pass slot statements index firstInput s).2.withHost
          ((runStatements root sink pass slot statements index firstInput s).2.host,
            log ++ (statementsRan root sink pass slot statements index firstInput s).flatMap
              Ran.calls)) := by
  induction statements generalizing index firstInput s log with
  | nil =>
    simp only [runStatements, statementsRan, List.flatMap_nil, List.append_nil]
  | cons first rest ih =>
    obtain ⟨statement, lines⟩ := first
    simp only [runStatements, statementsRan, runStatement_recorded, List.flatMap_cons]
    rw [ih, List.append_assoc]

end

namespace Diagram

variable {d : Diagram} {root : Root} {sink : Sink σ} {pass : Nat}

theorem runSlot_recorded (r : Results) (host : σ) (log : List Call) (slot : Nat) :
    d.runSlot root sink.recorded pass (r, (host, log)) slot =
      ((d.runSlot root sink pass (r, host) slot).1,
        ((d.runSlot root sink pass (r, host) slot).2,
          log ++ (d.slotRan root sink pass (r, host) slot).flatMap Ran.calls)) := by
  cases hn : d.node? slot with
  | none => simp [runSlot, slotRan, hn]
  | some n =>
    have hrun : runStatements root sink.recorded pass slot _ 0 0
        (.start r.scopes (n.inputs.map r.inputValue) (host, log)) = _ :=
      runStatements_recorded (n.statements.zip n.statementLines) 0 0
        (.start r.scopes (n.inputs.map r.inputValue) host) log
    simp only [runSlot, slotRan, hn, runNode, hrun]
    rfl

theorem foldl_evaluateTurn_recorded (turns : List Turn) (r : Results) (host : σ)
    (log : List Call) :
    turns.foldl (d.evaluateTurn root sink.recorded pass) (r, (host, log)) =
      ((turns.foldl (d.evaluateTurn root sink pass) (r, host)).1,
        ((turns.foldl (d.evaluateTurn root sink pass) (r, host)).2,
          log ++ (d.accountFrom root sink pass turns (r, host)).flatMap NodeRan.calls)) := by
  induction turns generalizing r host log with
  | nil => simp [accountFrom]
  | cons turn rest ih =>
    rw [List.foldl_cons, List.foldl_cons, accountFrom]
    cases hc : turn.cyclic with
    | true =>
      have hturn : ∀ {τ : Type} (sink : Sink τ) (host : τ),
          d.evaluateTurn root sink pass (r, host) turn = (d.markSlot r turn.slot, host) :=
        fun sink host => by rw [evaluateTurn_eq, if_pos hc]
      rw [hturn, hturn, ih]
      simp
    | false =>
      have hturn : ∀ {τ : Type} (sink : Sink τ) (host : τ),
          d.evaluateTurn root sink pass (r, host) turn
            = d.runSlot root sink pass (r, host) turn.slot :=
        fun sink host => by rw [evaluateTurn_eq, hc, if_neg Bool.false_ne_true]
      rw [hturn, hturn, runSlot_recorded, ih]
      simp [NodeRan.calls]

/-! ## the nodes -/

theorem map_slot_accountFrom (turns : List Turn) (state : Results × σ) :
    (d.accountFrom root sink pass turns state).map NodeRan.slot
      = (turns.filter fun t => !t.cyclic).map Turn.slot := by
  induction turns generalizing state with
  | nil => rfl
  | cons turn rest ih =>
    rw [accountFrom]
    cases hc : turn.cyclic <;> simp [hc, ih]

theorem map_slot_account (d : Diagram) (root : Root) (sink : Sink σ) (pass : Nat)
    (earlier : Results) (host : σ) :
    (d.account root sink pass earlier host).map NodeRan.slot = d.runOrder :=
  map_slot_accountFrom _ _

/-- what was run of a node are its statements in the order of their lines -/
theorem map_statementsRan {slot : Nat} (statements : List (Statement × List Line))
    (index firstInput : Nat) (s : Session σ) :
    (statementsRan root sink pass slot statements index firstInput s).map
      (fun r => (r.statement, r.lines)) = statements := by
  induction statements generalizing index firstInput s with
  | nil => rfl
  | cons first rest ih => rw [statementsRan, List.map_cons, ih]

/-- every node is run in some state of the pass -/
theorem exists_slotRan {turns : List Turn} {state : Results × σ} {r : NodeRan}
    (hr : r ∈ d.accountFrom root sink pass turns state) :
    ∃ state', r.statements = d.slotRan root sink pass state' r.slot := by
  induction turns generalizing state with
  | nil => cases hr
  | cons turn rest ih =>
    rw [accountFrom] at hr
    split at hr
    · exact ih hr
    · rcases List.mem_cons.mp hr with rfl | hr
      · exact ⟨state, rfl⟩
      · exact ih hr

theorem statements_accountFrom {turns : List Turn} {state : Results × σ} {r : NodeRan} {n : Node}
    (hr : r ∈ d.accountFrom root sink pass turns state) (hn : d.node? r.slot = some n) :
    r.statements.map (fun s => (s.statement, s.lines)) = n.statements.zip n.statementLines := by
  obtain ⟨state', h⟩ := exists_slotRan hr
  simp only [h, slotRan, hn]
  exact map_statementsRan _ _ _ _

/-- sources are run first, direct ones and others -/
theorem InRunOrder.depends_first {slots before after : List Nat} {slot feeder : Nat}
    (h : d.InRunOrder slots) (hsplit : slots = before ++ slot :: after)
    (hdepends : TransGen d.Reads slot feeder) : feeder ∈ before := by
  induction hdepends with
  | single hreads => exact h.sources_first before slot after hsplit _ hreads
  | @tail mid _ _ hreads ih =>
    obtain ⟨front, back, rfl⟩ := List.append_of_mem ih
    have hsplit' : slots = front ++ mid :: (back ++ slot :: after) := by simpa using hsplit
    have hfront := h.sources_first front mid _ hsplit' _ hreads
    exact List.mem_append_left _ hfront

/-- **The calls on the host are those of the statements, node after node.**  A pass runs every node
that reaches no cycle once and no other one, each after all the nodes that it depends on, directly
or through others.  The calls that it makes are those of the statements of these nodes in the order
of their lines, and writing them down changes nothing else. -/
theorem evaluate_calls (d : Diagram) (root : Root) (sink : Sink σ) (pass : Nat)
    (earlier : Results) (host : σ) :
    let ran := d.account root sink pass earlier host
    (ran.map NodeRan.slot).Nodup ∧
    (∀ slot, slot ∈ ran.map NodeRan.slot ↔ (d.node? slot).isSome ∧ ¬ d.ReachesCycle slot) ∧
    (∀ before slot after, ran.map NodeRan.slot = before ++ slot :: after →
      ∀ feeder, TransGen d.Reads slot feeder → feeder ∈ before) ∧
    (∀ r ∈ ran, ∀ n, d.node? r.slot = some n →
      r.statements.map (fun s => (s.statement, s.lines)) = n.statements.zip n.statementLines) ∧
    d.evaluate root sink.recorded pass earlier (host, []) =
      ((d.evaluate root sink pass earlier host).1,
        ((d.evaluate root sink pass earlier host).2,
          ran.flatMap fun r => r.statements.flatMap Ran.calls)) := by
  intro ran
  have horder : d.InRunOrder (ran.map NodeRan.slot) :=
    d.map_slot_account root sink pass earlier host ▸ d.inRunOrder
  refine ⟨horder.nodup, horder.mem_iff, fun before slot after hsplit feeder hdepends => ?_,
    fun r hr n hn => ?_, ?_⟩
  · exact horder.depends_first hsplit hdepends
  · exact statements_accountFrom hr hn
  · exact foldl_evaluateTurn_recorded d.schedule (earlier.reset d.slotCount) host []

end Diagram

/-! ## the results -/

namespace Ran

def fault? (r : Ran) : Option Fault :=
  match r.outcome with
  | .ok _ => none
  | .error fault => some fault

/-- its fault on each of its lines -/
def faults (r : Ran) : List (Option Fault) := List.replicate r.lines.length r.fault?

end Ran

/-- what stands on a line -/
def Fault.shown : Option Fault → String
  | none => ""
  | some fault => fault.message

namespace NodeResult

/-- the result of statements as they were run -/
def ofRan : List Ran → NodeResult
  | [] => .empty
  | r :: rest => .cons r.statement r.lines.length r.outcome (ofRan rest)

theorem errors_ofRan (rs : List Ran) :
    (ofRan rs).errors = (rs.flatMap Ran.faults).map Fault.shown := by
  induction rs with
  | nil => rfl
  | cons r rest ih =>
    rw [List.flatMap_cons, List.map_append, ← ih, Ran.faults, List.map_replicate]
    cases hr : r.outcome <;> simp [ofRan, cons, Ran.fault?, Fault.shown, hr]

theorem fst_runStatements {root : Root} {sink : Sink σ} {pass slot : Nat}
    (statements : List (Statement × List Line)) (index firstInput : Nat) (s : Session σ) :
    (runStatements root sink pass slot statements index firstInput s).1 =
      ofRan (statementsRan root sink pass slot statements index firstInput s) := by
  induction statements generalizing index firstInput s with
  | nil => rfl
  | cons first rest ih => simp only [runStatements, statementsRan, ofRan, ih]

end NodeResult

namespace Diagram

variable {d : Diagram} {root : Root} {sink : Sink σ} {pass : Nat}

theorem nodes_runSlot_self {state : Results × σ} {slot : Nat} (hn : (d.node? slot).isSome)
    (hlt : slot < state.1.nodes.size) :
    (d.runSlot root sink pass state slot).1.nodes[slot]? =
      some (.ofRan (d.slotRan root sink pass state slot)) := by
  obtain ⟨n, hn⟩ := Option.isSome_iff_exists.mp hn
  simp [runSlot, slotRan, hn, runNode, NodeResult.fst_runStatements, hlt]

theorem nodes_evaluateTurn_of_ne {state : Results × σ} {turn : Turn} {other : Nat}
    (h : turn.slot ≠ other) :
    (d.evaluateTurn root sink pass state turn).1.nodes[other]? = state.1.nodes[other]? := by
  rw [evaluateTurn_eq]
  split
  · exact nodes_markSlot_of_ne h
  · exact nodes_runSlot_of_ne h

theorem size_evaluateTurn (state : Results × σ) (turn : Turn) :
    (d.evaluateTurn root sink pass state turn).1.nodes.size = state.1.nodes.size := by
  rw [evaluateTurn_eq]
  split
  · exact size_markSlot _ _
  · exact size_runSlot _ _

theorem nodes_foldl_evaluateTurn {turns : List Turn} {state : Results × σ} {other : Nat}
    (h : other ∉ turns.map Turn.slot) :
    (turns.foldl (d.evaluateTurn root sink pass) state).1.nodes[other]? =
      state.1.nodes[other]? := by
  induction turns generalizing state with
  | nil => rfl
  | cons turn rest ih =>
    rw [List.map_cons, List.mem_cons, not_or] at h
    rw [List.foldl_cons, ih h.2, nodes_evaluateTurn_of_ne (Ne.symm h.1)]

/-- later turns leave the result of a node alone -/
theorem nodes_accountFrom {turns : List Turn} {state : Results × σ} {r : NodeRan}
    (hr : r ∈ d.accountFrom root sink pass turns state) (hn : (d.node? r.slot).isSome)
    (hlt : r.slot < state.1.nodes.size) (hnodup : (turns.map Turn.slot).Nodup) :
    (turns.foldl (d.evaluateTurn root sink pass) state).1.nodes[r.slot]? =
      some (.ofRan r.statements) := by
  induction turns generalizing state with
  | nil => cases hr
  | cons turn rest ih =>
    rw [List.map_cons, List.nodup_cons] at hnodup
    rw [List.foldl_cons]
    have hlt' : r.slot < (d.evaluateTurn root sink pass state turn).1.nodes.size := by
      rwa [size_evaluateTurn]
    rw [accountFrom] at hr
    cases hc : turn.cyclic with
    | true =>
      rw [if_pos hc] at hr
      exact ih hr hlt' hnodup.2
    | false =>
      rw [if_neg (by simp [hc])] at hr
      rcases List.mem_cons.mp hr with rfl | hr
      · rw [nodes_foldl_evaluateTurn hnodup.1, evaluateTurn_eq, if_neg (by simp [hc])]
        exact nodes_runSlot_self hn hlt
      · exact ih hr hlt' hnodup.2

/-- the faults that a pass leaves on the lines of a node: those of its statements, or that of a
cycle on every line -/
def faults (d : Diagram) (root : Root) (sink : Sink σ) (pass : Nat) (earlier : Results) (host : σ)
    (slot : Nat) : List (Option Fault) :=
  match (d.account root sink pass earlier host).find? (·.slot == slot), d.node? slot with
  | some r, _ => r.statements.flatMap Ran.faults
  | none, some n => List.replicate n.lines.length (some .cyclicDependency)
  | none, none => []

theorem faults_of_mem (root : Root) (sink : Sink σ) (pass : Nat) (earlier : Results) (host : σ)
    {slot : Nat} (hmem : slot ∈ d.runOrder) :
    ∃ r ∈ d.account root sink pass earlier host, r.slot = slot ∧
      d.faults root sink pass earlier host slot = r.statements.flatMap Ran.faults := by
  cases hfind : (d.account root sink pass earlier host).find? (·.slot == slot) with
  | none =>
    rw [← d.map_slot_account root sink pass earlier host] at hmem
    obtain ⟨r, hr, rfl⟩ := List.mem_map.mp hmem
    exact absurd (beq_self_eq_true r.slot) (List.find?_eq_none.mp hfind r hr)
  | some r =>
    refine ⟨r, List.mem_of_find?_eq_some hfind, by simpa using List.find?_some hfind, ?_⟩
    simp only [faults, hfind]

theorem faults_of_not_mem {earlier : Results} {host : σ} {slot : Nat} (hmem : slot ∉ d.runOrder) :
    d.faults root sink pass earlier host slot =
      ((d.node? slot).map fun n => List.replicate n.lines.length
        (some Fault.cyclicDependency)).getD [] := by
  have hfind : (d.account root sink pass earlier host).find? (·.slot == slot) = none := by
    rw [List.find?_eq_none]
    intro r hr hslot
    obtain rfl : r.slot = slot := by simpa using hslot
    rw [← d.map_slot_account root sink pass earlier host] at hmem
    exact hmem (List.mem_map_of_mem hr)
  cases hn : d.node? slot <;> simp [faults, hfind, hn]

/-- **The messages of a pass are those of its faults.** -/
theorem errors_eq_faults {earlier : Results} {host : σ} {slot : Nat} {result : NodeResult}
    (h : (d.evaluate root sink pass earlier host).1.nodes[slot]? = some result) :
    result.errors = (d.faults root sink pass earlier host slot).map Fault.shown := by
  by_cases hmem : slot ∈ d.runOrder
  · obtain ⟨r, hr, rfl, hfaults⟩ := faults_of_mem root sink pass earlier host hmem
    have hsome := (mem_runOrder.mp hmem).1
    have hlt : r.slot < (earlier.reset d.slotCount).nodes.size :=
      lt_of_lt_of_eq (lt_slotCount_of_node? hsome) Array.size_replicate.symm
    have hnode := nodes_accountFrom hr hsome hlt d.scheduled.nodup
    obtain rfl := Option.some.inj (h.symm.trans hnode)
    rw [hfaults, NodeResult.errors_ofRan]
  · rw [faults_of_not_mem hmem]
    cases hn : d.node? slot with
    | some n =>
      have hcycle : d.ReachesCycle slot := by
        by_contra hc
        exact hmem (mem_runOrder.mpr ⟨by rw [hn]; rfl, hc⟩)
      rw [nodes_evaluate_of_cyclic earlier host hn hcycle] at h
      obtain rfl := Option.some.inj h
      simp [NodeResult.cyclic, Fault.shown]
    | none =>
      rw [nodes_evaluate_of_none earlier host hn] at h
      split at h
      · obtain rfl := Option.some.inj h
        rfl
      · cases h

end Diagram

end Dataflow
