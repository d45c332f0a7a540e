import Mathlib.Data.List.Forall2
import Dataflow.Proofs.Effect
import Dataflow.Report

/-!
# Whose fault it was

A pass marks the lines of a statement that failed with the message of its fault, and an empty
message stands for success.

* `Statement.failsWith_run`    the faults of a statement: malformed text, what is done with values,
                               and what the host answers;
* `Node.firstLine`, `Node.Contains`   the lines of a statement in its node;
* `Diagram.filter_due`         the statements of a pass that belong to one node;
* `Diagram.Attributed`         the messages of a node are those of its statements;
* `NodeReport.Of`              what a report says about a node;
* `Diagram.evaluate_attributed`   all messages of a pass, and of its report.
-/

namespace Dataflow

variable {σ : Type}

/-! ## the faults of a statement -/

section
variable {P : Fault → Prop}

theorem Machine.failsWith_leave {s : Stack} {r : Except Fault Value} (h : FailsWith P r) :
    FailsWith P (leave s r).1 := by
  cases r with
  | ok v => exact .ok ()
  | error fault => exact .error (h fault rfl)

variable (hP : ∀ fault : Fault, fault.Plain → P fault) {root : Root} (hroot : root.host.FailsWith P)
include hP hroot

namespace Machine

theorem failsWith_step (scopes : Scopes) (scope : Option Nat) (site : Site) (op : Op) (s : Stack) :
    FailsWith P ((evaluating root scopes scope site).step op s).1 := by
  cases op with
  | number digits => exact .ok ()
  | string text => exact .ok ()
  | input =>
    simp only [evaluating]
    split
    · exact .ok ()
    · exact .plain hP rfl (by rintro ⟨⟩)
  | name text =>
    simp only [evaluating]
    split
    · exact .ok ()
    · exact .plain hP rfl (by rintro ⟨⟩)
  | vector length => exact .ok ()
  | member name => exact failsWith_leave (Value.failsWith_memberOf hP _ _ _)
  | call forms => exact failsWith_leave (Value.failsWith_call hP hroot _ _ _)
  | binary sign => exact failsWith_leave (Value.failsWith_apply hP _ _ _)

theorem failsWith_run (scopes : Scopes) (scope : Option Nat) (site : Site) (ops : List Op)
    (s : Stack) : FailsWith P ((evaluating root scopes scope site).run ops s).1 := by
  induction ops generalizing s with
  | nil => exact .ok ()
  | cons op ops ih =>
    have hstep := failsWith_step hP hroot scopes scope site op s
    cases h : (evaluating root scopes scope site).step op s with
    | mk answer after =>
      rw [h] at hstep
      cases answer with
      | error fault =>
        rw [run_cons_of_error h]
        exact hstep
      | ok _ =>
        rw [run_cons_of_ok h]
        exact ih after

end Machine

/-- a statement fails because its text is malformed, or as values or the host do -/
theorem Statement.failsWith_run (hparse : ∀ fault : Fault, fault.kind = .parse → P fault)
    {sink : Sink σ} (hsink : sink.FailsWith P) (site : Site) (text : String) (s : Session σ) :
    FailsWith P (run root sink site text s).1 := by
  obtain ⟨ops, result, hresult, hreplay⟩ := exists_replay_parse text
  have hrun := Machine.failsWith_run hP hroot s.scopes s.scope site ops (.start s.feed)
  rw [run, hreplay, Machine.replay]
  generalize (Machine.evaluating root s.scopes s.scope site).run ops (.start s.feed) = out at hrun
  obtain ⟨fault | _, stack⟩ := out
  · exact .error (hrun fault rfl)
  · cases result with
    | error fault => exact .error (hparse fault (hresult fault rfl))
    | ok form =>
      cases form with
      | display => exact .ok _
      | assignment name => exact .ok _
      | expression => exact .ok _
      | result =>
        have haccept := hsink stack.top s.host
        simp only [conclude]
        split
        · exact .ok _
        · next fault host h =>
          rw [h] at haccept
          exact .error (haccept fault rfl)

theorem Due.failsWith_outcome (hparse : ∀ fault : Fault, fault.kind = .parse → P fault)
    {sink : Sink σ} (hsink : sink.FailsWith P) (due : Due σ) :
    FailsWith P (due.outcome root sink) := by
  unfold outcome Due.run runStatement
  split
  · exact .ok _
  · exact Statement.failsWith_run hP hroot hparse hsink _ _ _

end

namespace Due

variable {root : Root} {sink : Sink σ} {due : Due σ}

theorem outcome_of_blank (h : Statement.isBlank due.text = true) :
    due.outcome root sink = .ok .void := by
  unfold outcome run runStatement
  rw [if_pos h]

/-- what stands on the lines of a statement -/
def message (root : Root) (sink : Sink σ) (due : Due σ) : String :=
  Fault.shown (due.ran root sink).fault?

theorem message_of_ok {v : Value} (h : due.outcome root sink = .ok v) :
    due.message root sink = "" := by
  have houtcome : (due.ran root sink).outcome = .ok v := h
  rw [message, Ran.fault?, houtcome]
  rfl

theorem message_of_error {fault : Fault} (h : due.outcome root sink = .error fault) :
    due.message root sink = fault.message := by
  have houtcome : (due.ran root sink).outcome = .error fault := h
  rw [message, Ran.fault?, houtcome]
  rfl

/-- the faults of a statement have something to say, so a message tells of a fault -/
theorem message_ne_iff (hroot : root.host.FailsWith (·.message ≠ ""))
    (hsink : sink.FailsWith (·.message ≠ "")) (due : Due σ) :
    due.message root sink ≠ "" ↔ ∃ fault, due.outcome root sink = .error fault := by
  have hparse : ∀ fault : Fault, fault.kind = .parse → fault.message ≠ "" := fun fault hkind =>
    Fault.message_ne (by rintro rfl; cases hkind)
  have hfails := due.failsWith_outcome (fun _ hplain => hplain.message) hroot hparse hsink
  cases houtcome : due.outcome root sink with
  | ok v =>
    refine iff_of_false (fun hne => hne (message_of_ok houtcome)) ?_
    rintro ⟨fault, ⟨⟩⟩
  | error fault =>
    rw [message_of_error houtcome]
    exact iff_of_true (hfails fault houtcome) ⟨fault, rfl⟩

end Due

/-! ## lines -/

section
variable {α β : Type} {items : List α} {size : α → Nat} {label : α → β} {k line : Nat} {a : α}

/-- an item that is repeated is found between where it begins and where it ends -/
theorem getElem?_flatMap_replicate (hget : items[k]? = some a)
    (hlo : ((items.take k).map size).sum ≤ line)
    (hhi : line < ((items.take (k + 1)).map size).sum) :
    (items.flatMap fun a => List.replicate (size a) (label a))[line]? = some (label a) := by
  induction items generalizing k line with
  | nil => cases hget
  | cons first rest ih =>
    rw [List.take_succ_cons, List.map_cons, List.sum_cons] at hhi
    rw [List.flatMap_cons]
    cases k with
    | zero =>
      obtain rfl := Option.some.inj hget
      rw [List.take_zero, List.map_nil, List.sum_nil, Nat.add_zero] at hhi
      rw [List.getElem?_append_left (by rw [List.length_replicate]; exact hhi),
        List.getElem?_replicate_of_lt hhi]
    | succ k =>
      rw [List.take_succ_cons, List.map_cons, List.sum_cons] at hlo
      rw [List.getElem?_append_right (by rw [List.length_replicate]; omega), List.length_replicate]
      exact ih hget (by omega) (by omega)

/-- every place belongs to an item -/
theorem exists_item_of_lt (h : line < (items.map size).sum) :
    ∃ k a, items[k]? = some a ∧ ((items.take k).map size).sum ≤ line ∧
      line < ((items.take (k + 1)).map size).sum := by
  induction items generalizing line with
  | nil => cases h
  | cons first rest ih =>
    rw [List.map_cons, List.sum_cons] at h
    by_cases hfirst : line < size first
    · exact ⟨0, first, rfl, Nat.zero_le _, by simpa using hfirst⟩
    · have hrest : line - size first < (rest.map size).sum := by omega
      obtain ⟨k, a, hget, hlo, hhi⟩ := ih hrest
      refine ⟨k + 1, a, hget, ?_, ?_⟩
      · rw [List.take_succ_cons, List.map_cons, List.sum_cons]
        omega
      · rw [List.take_succ_cons, List.map_cons, List.sum_cons]
        omega

end

namespace Node

/-- the line on which a statement begins -/
def firstLine (n : Node) (index : Nat) : Nat :=
  ((n.statements.take index).map Statement.lineCount).sum

/-- a line belongs to a statement -/
def Contains (n : Node) (index line : Nat) : Prop :=
  n.firstLine index ≤ line ∧ line < n.firstLine (index + 1)

theorem Coherent.firstLine_eq {n : Node} (h : n.Coherent) (index : Nat) :
    n.firstLine index = ((n.statementLines.take index).map List.length).sum := by
  rw [firstLine, List.map_take, ← h.sizes, List.map_take]

end Node

/-! ## the statements of a node -/

section
variable {root : Root} {sink : Sink σ} {pass slot : Nat}

/-- the statements of a node are numbered in their order -/
theorem site_statementsDue {statements : List (Statement × List Line)} {index firstInput k : Nat}
    {s : Session σ} {due : Due σ}
    (h : (statementsDue root sink pass slot statements index firstInput s)[k]? = some due) :
    due.site = ⟨pass, slot, index + k⟩ := by
  induction statements generalizing index firstInput s k with
  | nil => cases h
  | cons first rest ih =>
    cases k with
    | zero =>
      obtain rfl := Option.some.inj h
      rfl
    | succ k => rw [ih h, Nat.add_assoc, Nat.add_comm 1]

theorem nodup_site_statementsDue (statements : List (Statement × List Line))
    (index firstInput : Nat) (s : Session σ) :
    ((statementsDue root sink pass slot statements index firstInput s).map Due.site).Nodup := by
  induction statements generalizing index firstInput s with
  | nil => exact List.nodup_nil
  | cons first rest ih =>
    rw [statementsDue, List.map_cons, List.nodup_cons]
    refine ⟨fun hmem => ?_, ih _ _ _⟩
    obtain ⟨due, hdue, hsite⟩ := List.mem_map.mp hmem
    obtain ⟨k, hk⟩ := List.getElem?_of_mem hdue
    have hindex : index + 1 + k = index :=
      congrArg Site.statement ((site_statementsDue hk).symm.trans hsite)
    omega

theorem map_lines_statementsDue (statements : List (Statement × List Line)) (index firstInput : Nat)
    (s : Session σ) :
    (statementsDue root sink pass slot statements index firstInput s).map Due.lines =
      statements.map Prod.snd := by
  induction statements generalizing index firstInput s with
  | nil => rfl
  | cons first rest ih => rw [statementsDue, List.map_cons, ih, List.map_cons]

end

namespace Diagram

variable {d : Diagram} {root : Root} {sink : Sink σ} {pass : Nat}

theorem dueFrom_append (before after : List Turn) (state : Results × σ) :
    d.dueFrom root sink pass (before ++ after) state =
      d.dueFrom root sink pass before state ++
        d.dueFrom root sink pass after (before.foldl (d.evaluateTurn root sink pass) state) := by
  induction before generalizing state with
  | nil => rfl
  | cons turn rest ih =>
    rw [List.cons_append, dueFrom, dueFrom, ih, List.foldl_cons]
    cases turn.cyclic with
    | true => rfl
    | false => exact (List.append_assoc _ _ _).symm

/-- a statement belongs to a node whose turn it is -/
theorem turn_of_mem_dueFrom {turns : List Turn} {state : Results × σ} {due : Due σ}
    (h : due ∈ d.dueFrom root sink pass turns state) : ⟨due.site.slot, false⟩ ∈ turns := by
  obtain ⟨before, slot, after, rfl, hdue⟩ := exists_turn_of_mem_dueFrom h
  rw [slot_of_mem_slotDue hdue]
  exact List.mem_append_right _ List.mem_cons_self

theorem filter_dueFrom_eq_nil {turns : List Turn} {state : Results × σ} {slot : Nat}
    (h : slot ∉ turns.map Turn.slot) :
    (d.dueFrom root sink pass turns state).filter (·.site.slot == slot) = [] := by
  rw [List.filter_eq_nil_iff]
  intro due hdue hslot
  obtain rfl : due.site.slot = slot := by simpa using hslot
  exact h (List.mem_map_of_mem (turn_of_mem_dueFrom hdue))

theorem size_foldl_evaluateTurn (turns : List Turn) (state : Results × σ) :
    (turns.foldl (d.evaluateTurn root sink pass) state).1.nodes.size = state.1.nodes.size := by
  induction turns generalizing state with
  | nil => rfl
  | cons turn rest ih => rw [List.foldl_cons, ih, size_evaluateTurn]

theorem size_evaluate (earlier : Results) (host : σ) :
    (d.evaluate root sink pass earlier host).1.nodes.size = d.slotCount := by
  rw [evaluate, size_foldl_evaluateTurn]
  exact Array.size_replicate

/-- the statements of a pass that belong to a node are its own, run in some state of the pass, and
they make up its result -/
theorem filter_due {slot : Nat} {n : Node} (hn : d.node? slot = some n) (hc : ¬ d.ReachesCycle slot)
    (root : Root) (sink : Sink σ) (pass : Nat) (earlier : Results) (host : σ) : ∃ state,
    (d.due root sink pass earlier host).filter (·.site.slot == slot) =
      d.slotDue root sink pass state slot ∧
    (d.evaluate root sink pass earlier host).1.nodes[slot]? =
      some (.ofRan (d.slotRan root sink pass state slot)) := by
  have hsome : (d.node? slot).isSome := by rw [hn]; rfl
  obtain ⟨turn, hturn, rfl⟩ := List.mem_map.mp ((d.scheduled.mem_iff slot).mpr hsome)
  obtain ⟨slot, cyclic⟩ := turn
  obtain rfl : cyclic = false := by
    cases cyclic with
    | false => rfl
    | true => exact absurd ((d.scheduled.cyclic_iff _ hturn).mp rfl) hc
  obtain ⟨before, after, hsplit⟩ := List.append_of_mem hturn
  have hnodup := d.scheduled.nodup
  rw [hsplit, List.map_append, List.map_cons, List.nodup_append] at hnodup
  obtain ⟨-, hafter, hbefore⟩ := hnodup
  have hnotAfter : slot ∉ after.map Turn.slot := (List.nodup_cons.mp hafter).1
  have hnotBefore : slot ∉ before.map Turn.slot := fun hmem =>
    hbefore slot hmem slot List.mem_cons_self rfl
  let start : Results × σ := (earlier.reset d.slotCount, host)
  let state := before.foldl (d.evaluateTurn root sink pass) start
  refine ⟨state, ?_, ?_⟩
  · have hown : (d.slotDue root sink pass state slot).filter (·.site.slot == slot) =
        d.slotDue root sink pass state slot :=
      List.filter_eq_self.mpr fun due hdue => beq_iff_eq.mpr (slot_of_mem_slotDue hdue)
    rw [due, hsplit, dueFrom_append, List.filter_append, filter_dueFrom_eq_nil hnotBefore,
      List.nil_append, dueFrom, if_neg Bool.false_ne_true, List.filter_append,
      filter_dueFrom_eq_nil hnotAfter, List.append_nil]
    exact hown
  · have hlt : slot < state.1.nodes.size := by
      rw [size_foldl_evaluateTurn]
      exact lt_of_lt_of_eq (lt_slotCount_of_node? hsome) Array.size_replicate.symm
    rw [evaluate, hsplit, List.foldl_append, List.foldl_cons,
      nodes_foldl_evaluateTurn hnotAfter, evaluateTurn_eq, if_neg Bool.false_ne_true]
    exact nodes_runSlot_self hsome hlt

/-- no statement comes twice -/
theorem nodup_site_dueFrom {turns : List Turn} (hnodup : (turns.map Turn.slot).Nodup)
    (state : Results × σ) : ((d.dueFrom root sink pass turns state).map Due.site).Nodup := by
  induction turns generalizing state with
  | nil => exact List.nodup_nil
  | cons turn rest ih =>
    rw [List.map_cons, List.nodup_cons] at hnodup
    rw [dueFrom]
    split
    · exact ih hnodup.2 _
    · rw [List.map_append, List.nodup_append]
      refine ⟨?_, ih hnodup.2 _, ?_⟩
      · unfold slotDue
        split
        · exact List.nodup_nil
        · exact nodup_site_statementsDue _ _ _ _
      · intro site hsite site' hsite' heq
        obtain ⟨due, hdue, rfl⟩ := List.mem_map.mp hsite
        obtain ⟨due', hdue', rfl⟩ := List.mem_map.mp hsite'
        have hlater : due'.site.slot ∈ rest.map Turn.slot :=
          List.mem_map_of_mem (turn_of_mem_dueFrom hdue')
        rw [← heq, slot_of_mem_slotDue hdue] at hlater
        exact hnodup.1 hlater

/-- the result of a node, given the statements of its pass: the lines of a statement that failed
have its message, and all lines of a node that reaches a cycle have that of the cycle -/
structure Attributed (d : Diagram) (root : Root) (sink : Sink σ) (run : List (Due σ)) (slot : Nat)
    (n : Node) (result : NodeResult) : Prop where
  fits : result.Fits n
  cyclic : d.ReachesCycle slot →
    result.errors = List.replicate n.lines.length "Cyclic dependency detected" ∧
      ∀ due ∈ run, due.site.slot ≠ slot
  /-- all its statements are run, in their order -/
  whole : ¬ d.ReachesCycle slot →
    (run.filter (·.site.slot == slot)).map Due.lines = n.statementLines
  /-- every line belongs to a statement, which is run -/
  covered : ¬ d.ReachesCycle slot → ∀ line < n.lines.length, ∃ due ∈ run,
    due.site.slot = slot ∧ n.Contains due.site.statement line
  text : ∀ due ∈ run, due.site.slot = slot →
    n.statementLines[due.site.statement]? = some due.lines
  succeeded : ∀ due ∈ run, due.site.slot = slot → ∀ v, due.outcome root sink = .ok v →
    ∀ line, n.Contains due.site.statement line → result.errors[line]? = some ""
  failed : ∀ due ∈ run, due.site.slot = slot → ∀ fault, due.outcome root sink = .error fault →
    ∀ line, n.Contains due.site.statement line → result.errors[line]? = some fault.message
  marked_iff : ∀ line message, result.errors[line]? = some message →
    (message ≠ "" ↔ d.ReachesCycle slot ∨ ∃ due ∈ run, due.site.slot = slot ∧
      n.Contains due.site.statement line ∧ ∃ fault, due.outcome root sink = .error fault)

section
variable {state : Results × σ} {slot : Nat} {n : Node} (hn : d.node? slot = some n)
include hn

theorem statement_slotDue {due : Due σ} {k : Nat}
    (h : (d.slotDue root sink pass state slot)[k]? = some due) : due.site.statement = k := by
  unfold slotDue at h
  simp only [hn] at h
  rw [site_statementsDue h]
  exact Nat.zero_add k

theorem map_lines_slotDue (root : Root) (sink : Sink σ) (pass : Nat) (state : Results × σ) :
    (d.slotDue root sink pass state slot).map Due.lines = n.statementLines := by
  have hlength : n.statementLines.length = n.statements.length := by
    rw [Node.statementLines, Node.length_pieces, List.length_map]
  unfold slotDue
  simp only [hn]
  rw [map_lines_statementsDue, List.map_snd_zip hlength.le]

/-- a statement begins where those before it end -/
theorem firstLine_slotDue (h : n.Coherent) (index : Nat) :
    (((d.slotDue root sink pass state slot).take index).map fun due => due.lines.length).sum =
      n.firstLine index := by
  rw [h.firstLine_eq, ← map_lines_slotDue hn root sink pass state, ← List.map_take, List.map_map]
  rfl

omit hn in
theorem errors_slotDue (root : Root) (sink : Sink σ) (pass : Nat) (state : Results × σ)
    (slot : Nat) :
    (NodeResult.ofRan (d.slotRan root sink pass state slot)).errors =
      (d.slotDue root sink pass state slot).flatMap fun due =>
        List.replicate due.lines.length (due.message root sink) := by
  rw [NodeResult.errors_ofRan, ← map_ran_slotDue, List.flatMap_map, List.map_flatMap]
  refine congrArg (List.flatMap · _) (funext fun due => ?_)
  exact List.map_replicate

/-- the messages of a node that is run are those of its statements, on the lines of each -/
theorem getElem?_errors_slotDue (h : n.Coherent) {due : Due σ}
    (hdue : due ∈ d.slotDue root sink pass state slot) {line : Nat}
    (hline : n.Contains due.site.statement line) :
    (NodeResult.ofRan (d.slotRan root sink pass state slot)).errors[line]? =
      some (due.message root sink) := by
  obtain ⟨k, hk⟩ := List.getElem?_of_mem hdue
  rw [statement_slotDue hn hk] at hline
  obtain ⟨hlo, hhi⟩ := hline
  rw [← firstLine_slotDue hn h] at hlo hhi
  rw [errors_slotDue]
  exact getElem?_flatMap_replicate hk hlo hhi

theorem exists_due_of_line (h : n.Coherent) (root : Root) (sink : Sink σ) (pass : Nat)
    (state : Results × σ) {line : Nat} (hline : line < n.lines.length) :
    ∃ due ∈ d.slotDue root sink pass state slot, n.Contains due.site.statement line := by
  have htotal :
      line < ((d.slotDue root sink pass state slot).map fun due => due.lines.length).sum := by
    have hlines := map_lines_slotDue hn root sink pass state
    have hsum : ((d.slotDue root sink pass state slot).map fun due => due.lines.length).sum =
        (n.statementLines.map List.length).sum := by
      rw [← hlines, List.map_map]
      rfl
    rw [hsum, h.sizes, h.total]
    exact hline
  obtain ⟨k, due, hget, hlo, hhi⟩ := exists_item_of_lt htotal
  refine ⟨due, List.mem_of_getElem? hget, ?_⟩
  rw [firstLine_slotDue hn h] at hlo hhi
  rw [statement_slotDue hn hget]
  exact ⟨hlo, hhi⟩

end

section
variable {earlier : Results} {host : σ} {slot : Nat} {n : Node} (hn : d.node? slot = some n)
include hn

/-- a node that reaches a cycle is not run, and all its lines say why -/
theorem attributed_of_cycle {result : NodeResult} (hfits : result.Fits n)
    (hc : d.ReachesCycle slot)
    (hresult : (d.evaluate root sink pass earlier host).1.nodes[slot]? = some result) :
    d.Attributed root sink (d.due root sink pass earlier host) slot n result := by
  have hnone : ∀ due ∈ d.due root sink pass earlier host, due.site.slot ≠ slot := by
    rintro due hdue rfl
    have hcyclic := (d.scheduled.cyclic_iff _ (turn_of_mem_dueFrom hdue)).mpr hc
    cases hcyclic
  have herrors : result.errors = List.replicate n.lines.length "Cyclic dependency detected" := by
    rw [nodes_evaluate_of_cyclic earlier host hn hc] at hresult
    obtain rfl := Option.some.inj hresult
    rfl
  constructor
  case fits => exact hfits
  case cyclic => exact fun _ => ⟨herrors, hnone⟩
  case whole => exact fun hnot => absurd hc hnot
  case covered => exact fun hnot => absurd hc hnot
  case text => exact fun due hdue hslot => absurd hslot (hnone due hdue)
  case succeeded => exact fun due hdue hslot => absurd hslot (hnone due hdue)
  case failed => exact fun due hdue hslot => absurd hslot (hnone due hdue)
  case marked_iff =>
    intro line message hline
    rw [herrors] at hline
    obtain rfl := List.eq_of_mem_replicate (List.mem_of_getElem? hline)
    exact iff_of_true (by decide) (.inl hc)

/-- a node that is run has the messages of its statements -/
theorem attributed_of_not_cycle {result : NodeResult} (hfits : result.Fits n)
    (hcoherent : n.Coherent) (hc : ¬ d.ReachesCycle slot)
    (hroot : root.host.FailsWith (·.message ≠ "")) (hsink : sink.FailsWith (·.message ≠ ""))
    (hresult : (d.evaluate root sink pass earlier host).1.nodes[slot]? = some result) :
    d.Attributed root sink (d.due root sink pass earlier host) slot n result := by
  obtain ⟨state, hfilter, hnode⟩ := filter_due hn hc root sink pass earlier host
  obtain rfl := Option.some.inj (hresult.symm.trans hnode)
  have hmem : ∀ due, (due ∈ d.due root sink pass earlier host ∧ due.site.slot = slot) ↔
      due ∈ d.slotDue root sink pass state slot := by
    intro due
    rw [← hfilter, List.mem_filter, beq_iff_eq]
  have hline : ∀ due ∈ d.due root sink pass earlier host, due.site.slot = slot → ∀ line,
      n.Contains due.site.statement line →
      (NodeResult.ofRan (d.slotRan root sink pass state slot)).errors[line]? =
        some (due.message root sink) := fun due hdue hslot line hcontains =>
    getElem?_errors_slotDue hn hcoherent ((hmem due).mp ⟨hdue, hslot⟩) hcontains
  have hcovered : ∀ line < n.lines.length, ∃ due ∈ d.due root sink pass earlier host,
      due.site.slot = slot ∧ n.Contains due.site.statement line := by
    intro line hlt
    obtain ⟨due, hdue, hcontains⟩ := exists_due_of_line hn hcoherent root sink pass state hlt
    obtain ⟨hrun, hslot⟩ := (hmem due).mpr hdue
    exact ⟨due, hrun, hslot, hcontains⟩
  constructor
  case fits => exact hfits
  case cyclic => exact fun hcycle => absurd hcycle hc
  case whole =>
    intro _
    rw [hfilter, map_lines_slotDue hn]
  case covered => exact fun _ => hcovered
  case text =>
    intro due hdue hslot
    obtain ⟨k, hk⟩ := List.getElem?_of_mem ((hmem due).mp ⟨hdue, hslot⟩)
    rw [statement_slotDue hn hk, ← map_lines_slotDue hn root sink pass state, List.getElem?_map, hk]
    rfl
  case succeeded =>
    intro due hdue hslot v hv line hcontains
    rw [hline due hdue hslot line hcontains, Due.message_of_ok hv]
  case failed =>
    intro due hdue hslot fault hfault line hcontains
    rw [hline due hdue hslot line hcontains, Due.message_of_error hfault]
  case marked_iff =>
    intro line message hget
    have hlt : line < n.lines.length := by
      rw [← hfits.errors]
      exact (List.getElem?_eq_some_iff.mp hget).1
    constructor
    · intro hne
      obtain ⟨due, hdue, hslot, hcontains⟩ := hcovered line hlt
      have heq := hline due hdue hslot line hcontains
      obtain rfl := Option.some.inj (hget.symm.trans heq)
      exact .inr ⟨due, hdue, hslot, hcontains, (due.message_ne_iff hroot hsink).mp hne⟩
    · rintro (hcycle | ⟨due, hdue, hslot, hcontains, hfault⟩)
      · exact absurd hcycle hc
      · have heq := hline due hdue hslot line hcontains
        obtain rfl := Option.some.inj (hget.symm.trans heq)
        exact (due.message_ne_iff hroot hsink).mpr hfault

/-- a pass attributes the messages of a node -/
theorem attributed (hshaped : n.Shaped) (hroot : root.host.FailsWith (·.message ≠ ""))
    (hsink : sink.FailsWith (·.message ≠ "")) (pass : Nat) (earlier : Results) (host : σ) :
    ∃ result, (d.evaluate root sink pass earlier host).1.nodes[slot]? = some result ∧
      d.Attributed root sink (d.due root sink pass earlier host) slot n result := by
  obtain ⟨result, hresult, hfits⟩ := exists_fits hn hshaped root sink pass earlier host
  refine ⟨result, hresult, ?_⟩
  by_cases hc : d.ReachesCycle slot
  · exact attributed_of_cycle hn hfits hc hresult
  · exact attributed_of_not_cycle hn hfits hshaped.coherent hc hroot hsink hresult

end

end Diagram

/-! ## reports -/

/-- what a report says about a node: all its outputs, and its failed lines in ascending order, the
first one being line 1 -/
structure NodeReport.Of (slot : Nat) (result : NodeResult) (r : NodeReport) : Prop where
  id : r.id = slot + 1
  outputs : r.outputs = result.outputs.map Value.text
  errors : ∀ line message, ⟨line, message⟩ ∈ r.errors ↔
    ∃ index, line = index + 1 ∧ result.errors[index]? = some message ∧ message ≠ ""
  ascending : r.errors.Pairwise fun a b => a.line < b.line

theorem NodeReport.of_ofResult (slot : Nat) (result : NodeResult) :
    NodeReport.Of slot result (.ofResult slot result) := by
  refine ⟨rfl, rfl, fun line message => ?_, ?_⟩
  · simp only [ofResult, LineReport.ofMessages, List.mem_filterMap, Prod.exists,
      List.mem_zipIdx_iff_getElem?]
    constructor
    · rintro ⟨text, index, hget, hsome⟩
      obtain ⟨hne, heq⟩ := Option.ite_none_left_eq_some.mp hsome
      obtain ⟨rfl, rfl⟩ := LineReport.mk.inj (Option.some.inj heq)
      exact ⟨index, rfl, hget, hne⟩
    · rintro ⟨index, rfl, hget, hne⟩
      exact ⟨message, index, hget, if_neg hne⟩
  · refine List.pairwise_filterMap.mpr ((Diagram.pairwise_zipIdx result.errors).imp ?_)
    rintro ⟨text, i⟩ ⟨text', j⟩ hlt a ha b hb
    obtain ⟨-, ha⟩ := Option.ite_none_left_eq_some.mp ha
    obtain ⟨-, hb⟩ := Option.ite_none_left_eq_some.mp hb
    obtain rfl := Option.some.inj ha
    obtain rfl := Option.some.inj hb
    exact Nat.succ_lt_succ hlt

theorem LineReport.length_ofMessages (messages : List String) :
    (ofMessages messages).length = messages.countP (· ≠ "") := by
  unfold ofMessages
  generalize 0 = start
  induction messages generalizing start with
  | nil => rfl
  | cons message rest ih =>
    rw [List.zipIdx_cons, List.filterMap_cons, List.countP_cons]
    by_cases hempty : message = ""
    · simpa [hempty] using ih (start + 1)
    · simpa [hempty] using ih (start + 1)

theorem Report.foldr_errors (nodes : List NodeResult) (start : Nat) :
    ((nodes.zipIdx start).filterMap fun (node, slot) =>
        if node.errors = [] then none else some (NodeReport.ofResult slot node)).foldr
      (fun node count => node.errors.length + count) 0 =
    (nodes.map fun r => r.errors.countP (· ≠ "")).sum := by
  induction nodes generalizing start with
  | nil => rfl
  | cons r rest ih =>
    rw [List.zipIdx_cons, List.map_cons, List.sum_cons, ← ih (start + 1)]
    by_cases hempty : r.errors = []
    · have hzero : r.errors.countP (· ≠ "") = 0 := by rw [hempty]; rfl
      rw [List.filterMap_cons_none (by exact if_pos hempty), hzero, Nat.zero_add]
    · rw [List.filterMap_cons_some (by exact if_neg hempty), ← LineReport.length_ofMessages]
      rfl

/-- the failed lines of all slots -/
theorem Report.errorCount_ofResults (results : Results) :
    (ofResults results).errorCount =
      (results.nodes.toList.map fun r => r.errors.countP (· ≠ "")).sum :=
  foldr_errors results.nodes.toList 0

theorem forall₂_filterMap_zipIdx {α β γ δ : Type} {R : γ → δ → Prop} {f : α × Nat → Option γ}
    {g : β × Nat → Option δ} {xs : List α} {ys : List β} (hlength : xs.length = ys.length)
    (start : Nat) (h : ∀ (i : Nat) x y, xs[i]? = some x → ys[i]? = some y →
      Option.Rel R (f (x, start + i)) (g (y, start + i))) :
    List.Forall₂ R ((xs.zipIdx start).filterMap f) ((ys.zipIdx start).filterMap g) := by
  induction xs generalizing ys start with
  | nil =>
    obtain rfl := List.eq_nil_of_length_eq_zero hlength.symm
    exact .nil
  | cons x xs ih =>
    cases ys with
    | nil => cases hlength
    | cons y ys =>
      have hrest := ih (Nat.succ.inj hlength) (start + 1) fun i x' y' hx hy => by
        rw [Nat.add_assoc, Nat.add_comm 1]
        exact h (i + 1) x' y' hx hy
      have hfirst := h 0 x y rfl rfl
      rw [Nat.add_zero] at hfirst
      rw [List.zipIdx_cons, List.zipIdx_cons, List.filterMap_cons, List.filterMap_cons]
      generalize f (x, start) = a, g (y, start) = b at hfirst
      cases hfirst with
      | none => exact hrest
      | some hab => exact .cons hab hrest

/-- **Every message of a pass is where it belongs**, for a host that never fails without a word.
The lines of a statement have its message if it failed, and none if it did not; the lines of a node
that reaches a cycle say so; blank statements do not fail.  The report lists the existing nodes in
ascending order, each with all its outputs and with its failed lines, and counts these. -/
theorem Diagram.evaluate_attributed {d : Diagram} (hd : d.Built) {root : Root} {sink : Sink σ}
    (hroot : root.host.FailsWith (·.message ≠ "")) (hsink : sink.FailsWith (·.message ≠ ""))
    (pass : Nat) (earlier : Results) (host : σ) :
    let results := (d.evaluate root sink pass earlier host).1
    let run := d.due root sink pass earlier host
    let report := Report.ofResults results
    run.map (Due.ran root sink) =
      (d.account root sink pass earlier host).flatMap NodeRan.statements ∧
    (run.map Due.site).Nodup ∧
    (∀ due ∈ run, Statement.isBlank due.text = true → due.outcome root sink = .ok .void) ∧
    List.Forall₂ (fun node r => ∃ result, results.nodes[node.1]? = some result ∧
      d.Attributed root sink run node.1 node.2 result ∧ r.Of node.1 result)
      d.existing report.nodes ∧
    report.errorCount = (results.nodes.toList.map fun r => r.errors.countP (· ≠ "")).sum := by
  intro results run report
  refine ⟨d.map_ran_due root sink pass earlier host, nodup_site_dueFrom d.scheduled.nodup _,
    fun due _ hblank => Due.outcome_of_blank hblank, ?_, Report.errorCount_ofResults results⟩
  refine forall₂_filterMap_zipIdx (Eq.symm (size_evaluate earlier host)) 0
    fun slot held result hheld hresult => ?_
  rw [Array.getElem?_toList] at hheld hresult
  rw [Nat.zero_add]
  cases held with
  | none =>
    have hn : d.node? slot = none := by rw [node?, hheld]; rfl
    have hlt : slot < d.slotCount := (Array.getElem?_eq_some_iff.mp hheld).1
    rw [nodes_evaluate_of_none earlier host hn, if_pos hlt] at hresult
    obtain rfl := Option.some.inj hresult
    exact .none
  | some n =>
    have hn : d.node? slot = some n := by rw [node?, hheld]; rfl
    have hshaped := hd.allShaped slot n hn
    obtain ⟨result', hresult', hattributed⟩ := attributed hn hshaped hroot hsink pass earlier host
    obtain rfl := Option.some.inj (hresult.symm.trans hresult')
    have hsome : result.errors ≠ [] := by
      have hlength := hattributed.fits.errors
      intro hnil
      rw [hnil] at hlength
      exact hshaped.coherent.lines (List.eq_nil_of_length_eq_zero hlength.symm)
    show Option.Rel _ (some (slot, n))
      (if result.errors = [] then none else some (NodeReport.ofResult slot result))
    rw [if_neg hsome]
    exact .some ⟨result, hresult, hattributed, NodeReport.of_ofResult slot result⟩

/-- an unknown name in a statement of two lines, and a good statement behind it -/
theorem Diagram.evaluate_attributed_unknown :
    let d := Diagram.empty.add "nope+(\n1)\n2"
    let root : Root := ⟨.empty, .none⟩
    let results := (d.evaluate root .collecting 0 .empty (.expecting none)).1
    let run := d.due root .collecting 0 .empty (.expecting none)
    d.Built ∧ root.host.FailsWith (·.message ≠ "") ∧ Sink.collecting.FailsWith (·.message ≠ "") ∧
      List.Forall₂ (fun node r => ∃ result, results.nodes[node.1]? = some result ∧
        d.Attributed root .collecting run node.1 node.2 result ∧ r.Of node.1 result)
        d.existing (Report.ofResults results).nodes ∧
      (Report.ofResults results).errorCount =
        (results.nodes.toList.map fun r => r.errors.countP (· ≠ "")).sum := by
  intro d root results run
  have hbuilt : d.Built := .add .empty _
  have hroot : root.host.FailsWith (·.message ≠ "") := Host.failsWith_none fun _ h => h.message
  have hsink : Sink.collecting.FailsWith (·.message ≠ "") :=
    Sink.failsWith_collecting fun _ _ => Fault.message_ne nofun
  obtain ⟨-, -, -, hlist, hcount⟩ :=
    evaluate_attributed hbuilt hroot hsink 0 .empty (.expecting none)
  exact ⟨hbuilt, hroot, hsink, hlist, hcount⟩

end Dataflow
