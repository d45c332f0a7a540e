import Dataflow.Proofs.Coherence
import Dataflow.Proofs.Failed
import Dataflow.Proofs.Steady

/-!
# What a pass carries out

* `Machine.traced`       a machine that writes down every operation that it is asked for, with the
                         state before it and after it;
* `Machine.steps`        what it writes down (`Machine.run_traced`, `Statement.drive_traced`);
* `Due`, `Diagram.due`   the statements of a pass, each in the session in which its turn comes, and
                         these are the ones of the account (`Diagram.map_ran_due`);
* `Due.trace`            what is carried out for such a statement, and this is what running it does
                         (`Due.TracesRun`);
* `Diagram.of_mem_due`   where in its node and in the pass a statement stands.
-/

namespace Dataflow

variable {σ : Type}

/-! ## machines -/

/-- an operation as a machine carried it out -/
structure Machine.Step (σ : Type) where
  op : Op
  before : σ
  answer : Except Fault Unit
  after : σ

namespace Machine

/-- a machine that does what another one does and writes every step down -/
def traced (m : Machine σ) : Machine (σ × List (Step σ)) where
  step op s :=
    let (answer, after) := m.step op s.1
    (answer, after, s.2 ++ [⟨op, s.1, answer, after⟩])

/-- the steps for some operations, up to the first that fails -/
def steps (m : Machine σ) : List Op → σ → List (Step σ)
  | [], _ => []
  | op :: ops, s =>
    match m.step op s with
    | (.ok (), after) => ⟨op, s, .ok (), after⟩ :: steps m ops after
    | (.error fault, after) => [⟨op, s, .error fault, after⟩]

variable {m : Machine σ}

theorem run_traced (ops : List Op) (s : σ) (log : List (Step σ)) :
    m.traced.run ops (s, log) = ((m.run ops s).1, (m.run ops s).2, log ++ m.steps ops s) := by
  induction ops generalizing s log with
  | nil =>
    rw [steps, List.append_nil]
    rfl
  | cons op ops ih =>
    cases h : m.step op s with
    | mk answer after =>
      cases answer with
      | ok _ =>
        have htraced : m.traced.step op (s, log) = (.ok (), after, log ++ [⟨op, s, .ok (), after⟩]) := by
          simp only [traced, h]
        rw [run_cons_of_ok htraced, run_cons_of_ok h, ih, steps, h, List.append_assoc,
          List.singleton_append]
      | error fault =>
        have htraced : m.traced.step op (s, log)
            = (.error fault, after, log ++ [⟨op, s, .error fault, after⟩]) := by
          simp only [traced, h]
        rw [run_cons_of_error htraced, run_cons_of_error h, steps, h]

/-- a step is that of its operation, after those before it have gone well -/
theorem getElem?_steps {ops : List Op} {s : σ} {index : Nat} {step : Step σ}
    (h : (m.steps ops s)[index]? = some step) :
    ops[index]? = some step.op ∧ m.run (ops.take index) s = (.ok (), step.before) ∧
      m.step step.op step.before = (step.answer, step.after) := by
  induction ops generalizing s index with
  | nil => cases h
  | cons op ops ih =>
    rw [steps] at h
    cases hstep : m.step op s with
    | mk answer after =>
      rw [hstep] at h
      cases answer with
      | ok _ =>
        cases index with
        | zero =>
          obtain rfl := Option.some.inj h
          exact ⟨rfl, rfl, hstep⟩
        | succ index =>
          obtain ⟨hop, hrun, hlast⟩ := ih h
          refine ⟨hop, ?_, hlast⟩
          rw [List.take_succ_cons, run_cons_of_ok hstep]
          exact hrun
      | error fault =>
        cases index with
        | zero =>
          obtain rfl := Option.some.inj h
          exact ⟨rfl, rfl, hstep⟩
        | succ index => cases h

end Machine

namespace Statement

/-- a text does on every machine what its operations do -/
theorem drive_eq_replay (text : String) : ∃ result, ∀ (σ : Type) (m : Machine σ) (s : σ),
    drive m text s = m.replay (operations text) result s := by
  obtain ⟨ops, result, h⟩ := exists_replay text
  have hops : operations text = ops := by
    rw [operations, h, Machine.replay, Machine.run_recording]
    rfl
  exact ⟨result, hops ▸ h⟩

/-- writing the steps down changes nothing else -/
theorem drive_traced (m : Machine σ) (text : String) (s : σ) (log : List (Machine.Step σ)) :
    drive m.traced text (s, log) =
      ((drive m text s).1, (drive m text s).2, log ++ m.steps (operations text) s) := by
  obtain ⟨result, h⟩ := drive_eq_replay text
  rw [h, h, Machine.replay, Machine.replay, Machine.run_traced]
  generalize m.run (operations text) s = out
  obtain ⟨_ | _, _⟩ := out <;> rfl

end Statement

/-! ## statements of a pass -/

/-- a statement whose turn has come -/
structure Due (σ : Type) where
  statement : Statement
  lines : List Line
  site : Site
  firstInput : Nat
  /-- what the statements before it have left -/
  session : Session σ

namespace Due

def text (due : Due σ) : String := Node.textOf due.lines

/-- what is carried out for a statement, which is nothing if it is blank -/
def trace (root : Root) (due : Due σ) : List (Machine.Step Stack) :=
  if Statement.isBlank due.text then []
  else
    let s := due.session.seek due.firstInput
    (Statement.drive (Machine.evaluating root s.scopes s.scope due.site).traced due.text
      (.start s.feed, [])).2.2

/-- the statement as it is run then -/
def ran (root : Root) (sink : Sink σ) (due : Due σ) : Ran where
  statement := due.statement
  lines := due.lines
  outcome := (runStatement root sink due.site due.text due.firstInput due.session).1
  calls := statementCalls root sink due.site due.text due.firstInput due.session

/-- what is written down for a statement is what running it does: the text is read to the same end
with the steps written down and without, and the run takes effect from that end -/
structure TracesRun (root : Root) (sink : Sink σ) (due : Due σ) : Prop where
  blank : Statement.isBlank due.text = true → due.trace root = []
  run : Statement.isBlank due.text = false →
    let s := due.session.seek due.firstInput
    let m := Machine.evaluating root s.scopes s.scope due.site
    ∃ read stack, Statement.drive m due.text (.start s.feed) = (read, stack) ∧
      Statement.drive m.traced due.text (.start s.feed, []) = (read, stack, due.trace root) ∧
      runStatement root sink due.site due.text due.firstInput due.session =
        match read with
        | .ok form => Statement.conclude sink form stack.top { s with feed := stack.feed }
        | .error fault => (.error fault, { s with feed := stack.feed })

theorem tracesRun (root : Root) (sink : Sink σ) (due : Due σ) : due.TracesRun root sink where
  blank h := if_pos h
  run h := by
    intro s m
    have htrace : due.trace root = (Statement.drive m.traced due.text (.start s.feed, [])).2.2 := by
      rw [trace, h]
      rfl
    cases hdrive : Statement.drive m due.text (.start s.feed) with
    | mk read stack =>
      refine ⟨read, stack, rfl, ?_, ?_⟩
      · rw [htrace, Statement.drive_traced, hdrive]
      · rw [runStatement, h, if_neg Bool.false_ne_true, Statement.run, hdrive]
        cases read <;> rfl

theorem getElem?_trace {root : Root} {due : Due σ} {index : Nat} {step : Machine.Step Stack}
    (h : (due.trace root)[index]? = some step) :
    let m := Machine.evaluating root due.session.scopes due.session.scope due.site
    let ops := Statement.operations due.text
    ops[index]? = some step.op ∧
      m.run (ops.take index) (.start (due.session.feed.seek due.firstInput)) = (.ok (), step.before) ∧
      m.step step.op step.before = (step.answer, step.after) := by
  intro m ops
  rw [trace] at h
  split at h
  · cases h
  · dsimp only at h
    rw [Statement.drive_traced, List.nil_append] at h
    exact Machine.getElem?_steps h

end Due

/-- the statements of a node from one of them on, each as its turn comes -/
def statementsDue (root : Root) (sink : Sink σ) (pass slot : Nat) :
    List (Statement × List Line) → Nat → Nat → Session σ → List (Due σ)
  | [], _, _, _ => []
  | (statement, lines) :: rest, index, firstInput, s =>
    let site : Site := ⟨pass, slot, index⟩
    let after := (runStatement root sink site (Node.textOf lines) firstInput s).2
    ⟨statement, lines, site, firstInput, s⟩
      :: statementsDue root sink pass slot rest (index + 1) (firstInput + Line.total lines) after

theorem values_runStatement (root : Root) (sink : Sink σ) (site : Site) (text : String)
    (firstInput : Nat) (s : Session σ) :
    (runStatement root sink site text firstInput s).2.feed.values = s.feed.values := by
  rw [runStatement]
  split
  · rfl
  · exact Statement.values_run root sink site text (s.seek firstInput)

section
variable {root : Root} {sink : Sink σ} {pass slot : Nat}

theorem map_ran_statementsDue (statements : List (Statement × List Line)) (index firstInput : Nat)
    (s : Session σ) :
    (statementsDue root sink pass slot statements index firstInput s).map (Due.ran root sink) =
      statementsRan root sink pass slot statements index firstInput s := by
  induction statements generalizing index firstInput s with
  | nil => rfl
  | cons first rest ih =>
    rw [statementsDue, List.map_cons, ih]
    rfl

/-- where among the statements of a node one stands, and which input it begins with -/
theorem of_mem_statementsDue {statements : List (Statement × List Line)} {index firstInput : Nat}
    {s : Session σ} {due : Due σ}
    (h : due ∈ statementsDue root sink pass slot statements index firstInput s) :
    ∃ before after, statements = before ++ (due.statement, due.lines) :: after ∧
      due.site = ⟨pass, slot, index + before.length⟩ ∧
      due.firstInput = firstInput + Line.total (before.flatMap Prod.snd) ∧
      due.session.feed.values = s.feed.values := by
  induction statements generalizing index firstInput s with
  | nil => cases h
  | cons first rest ih =>
    rcases List.mem_cons.mp h with rfl | h
    · exact ⟨[], rest, rfl, rfl, rfl, rfl⟩
    · obtain ⟨before, after, rfl, hsite, hfirst, hvalues⟩ := ih h
      refine ⟨first :: before, after, rfl, ?_, ?_, hvalues.trans (values_runStatement _ _ _ _ _ _)⟩
      · rw [hsite, List.length_cons, Nat.add_assoc, Nat.add_comm 1]
      · rw [hfirst, List.flatMap_cons, Node.total_append, Nat.add_assoc]

end

namespace Diagram

/-- the statements of the node in a slot, as their turns come in a state of the pass -/
def slotDue (d : Diagram) (root : Root) (sink : Sink σ) (pass : Nat) (state : Results × σ)
    (slot : Nat) : List (Due σ) :=
  match d.node? slot with
  | none => []
  | some n =>
    statementsDue root sink pass slot (n.statements.zip n.statementLines) 0 0
      (.start state.1.scopes (n.inputs.map state.1.inputValue) state.2)

/-- the statements of the nodes of some turns that are run, one after the other -/
def dueFrom (d : Diagram) (root : Root) (sink : Sink σ) (pass : Nat) :
    List Turn → Results × σ → List (Due σ)
  | [], _ => []
  | turn :: rest, state =>
    let later := dueFrom d root sink pass rest (d.evaluateTurn root sink pass state turn)
    if turn.cyclic then later else d.slotDue root sink pass state turn.slot ++ later

/-- the statements of a pass -/
def due (d : Diagram) (root : Root) (sink : Sink σ) (pass : Nat) (earlier : Results) (host : σ) :
    List (Due σ) :=
  d.dueFrom root sink pass d.schedule (earlier.reset d.slotCount, host)

variable {d : Diagram} {root : Root} {sink : Sink σ} {pass : Nat}

theorem map_ran_slotDue (state : Results × σ) (slot : Nat) :
    (d.slotDue root sink pass state slot).map (Due.ran root sink)
      = d.slotRan root sink pass state slot := by
  cases hn : d.node? slot with
  | none => simp only [slotDue, slotRan, hn, List.map_nil]
  | some n =>
    simp only [slotDue, slotRan, hn]
    exact map_ran_statementsDue _ _ _ _

theorem map_ran_dueFrom (turns : List Turn) (state : Results × σ) :
    (d.dueFrom root sink pass turns state).map (Due.ran root sink) =
      (d.accountFrom root sink pass turns state).flatMap NodeRan.statements := by
  induction turns generalizing state with
  | nil => rfl
  | cons turn rest ih =>
    rw [dueFrom, accountFrom]
    cases hc : turn.cyclic with
    | true => exact ih _
    | false =>
      rw [if_neg Bool.false_ne_true, if_neg Bool.false_ne_true, List.map_append, map_ran_slotDue, ih,
        List.flatMap_cons]

/-- **The statements whose turn comes are the ones that a pass runs.** -/
theorem map_ran_due (d : Diagram) (root : Root) (sink : Sink σ) (pass : Nat) (earlier : Results)
    (host : σ) :
    (d.due root sink pass earlier host).map (Due.ran root sink) =
      (d.account root sink pass earlier host).flatMap NodeRan.statements :=
  map_ran_dueFrom _ _

theorem exists_turn_of_mem_dueFrom {turns : List Turn} {state : Results × σ} {due : Due σ}
    (h : due ∈ d.dueFrom root sink pass turns state) :
    ∃ before slot after, turns = before ++ ⟨slot, false⟩ :: after ∧
      due ∈ d.slotDue root sink pass (before.foldl (d.evaluateTurn root sink pass) state) slot := by
  induction turns generalizing state with
  | nil => cases h
  | cons turn rest ih =>
    have hlater : due ∈ d.dueFrom root sink pass rest (d.evaluateTurn root sink pass state turn) →
        ∃ before slot after, turn :: rest = before ++ ⟨slot, false⟩ :: after ∧
          due ∈ d.slotDue root sink pass (before.foldl (d.evaluateTurn root sink pass) state) slot :=
      fun hrest => by
        obtain ⟨before, slot, after, rfl, hdue⟩ := ih hrest
        exact ⟨turn :: before, slot, after, rfl, hdue⟩
    obtain ⟨slot, cyclic⟩ := turn
    rw [dueFrom] at h
    cases cyclic with
    | true => exact hlater h
    | false =>
      rcases List.mem_append.mp h with h | h
      · exact ⟨[], slot, rest, rfl, h⟩
      · exact hlater h

end Diagram

end Dataflow
