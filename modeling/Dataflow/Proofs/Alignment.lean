import Dataflow.Proofs.Check
import Dataflow.Proofs.Trace

/-!
# Every `$` gets the value of its own input

The inputs of a node are the `$` of its text, counted as characters, and the feed of a statement
begins at the first of its own.  The operations that ask for an input are counted by the machine.

* `Node.textBefore`          what stands in front of a statement, and how many `$` are in it;
* `Machine.advanced_run`     the feed moves on with every operation that asks for an input;
* `Diagram.inputs_settled`   the values that a node finds at its inputs are those of the whole pass;
* `Due.Aligned`              the `$` that a statement reads, and the inputs that they get;
* `Diagram.evaluate_aligned` all statements of all passes are aligned.
-/

namespace Dataflow

variable {σ : Type}

/-! ## counting in lists -/

section
variable {α : Type} [DecidableEq α]

theorem exists_split_of_lt_count {a : α} {k : Nat} {xs : List α} (h : k < xs.count a) :
    ∃ front back, xs = front ++ a :: back ∧ front.count a = k := by
  induction xs generalizing k with
  | nil => cases h
  | cons x rest ih =>
    by_cases hx : x = a
    · subst hx
      cases k with
      | zero => exact ⟨[], rest, rfl, rfl⟩
      | succ k =>
        rw [List.count_cons_self] at h
        obtain ⟨front, back, rfl, hfront⟩ := ih (Nat.lt_of_succ_lt_succ h)
        exact ⟨x :: front, back, rfl, by rw [List.count_cons_self, hfront]⟩
    · rw [List.count_cons_of_ne hx] at h
      obtain ⟨front, back, rfl, hfront⟩ := ih h
      exact ⟨x :: front, back, rfl, by rw [List.count_cons_of_ne hx, hfront]⟩

theorem count_take_lt {a : α} {index : Nat} {xs : List α} (h : xs[index]? = some a) :
    (xs.take index).count a < xs.count a := by
  obtain ⟨hlt, hget⟩ := List.getElem?_eq_some_iff.mp h
  have hsplit : xs.take index ++ a :: xs.drop (index + 1) = xs := by
    rw [← hget, List.getElem_cons_drop, List.take_append_drop]
  have hcount := congrArg (List.count a) hsplit
  rw [List.count_append, List.count_cons_self] at hcount
  omega

end

/-! ## the text of a node -/

namespace Text

theorem toList_joinLines_append (xs : List String) {ys : List String} (h : ys ≠ []) :
    (joinLines (xs ++ ys)).toList
      = (xs.flatMap fun x => x.toList ++ ['\n']) ++ (joinLines ys).toList := by
  obtain ⟨y, ys, rfl⟩ := List.exists_cons_of_ne_nil h
  rw [joinLines, joinLines, String.toList_ofList, String.toList_ofList]
  induction xs with
  | nil => rfl
  | cons x xs ih =>
    have hjoin : ['\n'].intercalate ((x :: (xs ++ y :: ys)).map String.toList) =
        x.toList ++ ['\n'] ++ ['\n'].intercalate ((xs ++ y :: ys).map String.toList) := by
      cases xs <;> exact List.intercalate_cons_cons ..
    rw [List.cons_append, hjoin, ih, List.flatMap_cons, List.append_assoc _ (xs.flatMap _)]

theorem exists_rest_joinLines {xs : List String} (h : xs ≠ []) (ys : List String) :
    ∃ rest, (joinLines (xs ++ ys)).toList = (joinLines xs).toList ++ rest := by
  induction xs with
  | nil => exact absurd rfl h
  | cons x xs ih =>
    have hcons : ∀ {zs : List String}, zs ≠ [] → (joinLines (x :: zs)).toList = _ ++ (joinLines zs).toList :=
      fun hzs => toList_joinLines_append [x] hzs
    cases xs with
    | nil =>
      cases ys with
      | nil => exact ⟨[], (List.append_nil _).symm⟩
      | cons y ys =>
        refine ⟨'\n' :: (joinLines (y :: ys)).toList, ?_⟩
        rw [List.singleton_append, hcons (List.cons_ne_nil y ys)]
        simp [joinLines]
    | cons x' xs =>
      obtain ⟨rest, hrest⟩ := ih (List.cons_ne_nil x' xs)
      refine ⟨rest, ?_⟩
      rw [List.cons_append, hcons (by simp), hrest, hcons (List.cons_ne_nil x' xs), List.append_assoc]

end Text

namespace Node

/-- the text of a node in front of a statement -/
def textBefore (n : Node) (index : Nat) : List Char :=
  (n.statementLines.take index).flatten.flatMap fun line => line.text.toList ++ ['\n']

variable {n : Node}

theorem Coherent.count_textBefore (h : n.Coherent) (index : Nat) :
    (n.textBefore index).count '$' = Line.total (n.statementLines.take index).flatten := by
  rw [textBefore, total_eq_sum, List.count_flatMap]
  refine congrArg List.sum (List.map_congr_left fun line hmem => ?_)
  have hline : line ∈ n.lines := by
    rw [← h.partition]
    obtain ⟨piece, hpiece, hmem⟩ := List.mem_flatten.mp hmem
    exact List.mem_flatten_of_mem (List.mem_of_mem_take hpiece) hmem
  rw [Function.comp_apply, List.count_append, (h.line line hline).1]
  rfl

/-- the statements and the pieces of the lines go together -/
theorem split_statements {before after : List (Statement × List Line)} {s : Statement}
    {lines : List Line} (h : n.statements.zip n.statementLines = before ++ (s, lines) :: after) :
    n.statements = before.map Prod.fst ++ s :: after.map Prod.fst ∧
      n.statementLines = before.map Prod.snd ++ lines :: after.map Prod.snd := by
  have hlength : n.statementLines.length = n.statements.length := by
    rw [statementLines, length_pieces, List.length_map]
  constructor
  · rw [← List.map_fst_zip hlength.ge, h, List.map_append, List.map_cons]
  · rw [← List.map_snd_zip hlength.le, h, List.map_append, List.map_cons]

theorem Coherent.lines_ne_nil (h : n.Coherent) {before after : List (Statement × List Line)}
    {s : Statement} {lines : List Line}
    (hsplit : n.statements.zip n.statementLines = before ++ (s, lines) :: after) : lines ≠ [] := by
  obtain ⟨hstatements, hpieces⟩ := split_statements hsplit
  have hsizes := h.sizes
  rw [hpieces, hstatements, List.map_append, List.map_append] at hsizes
  have hsize := (List.cons.inj (List.append_inj hsizes (by simp)).2).1
  have hone := h.lineCount s (hstatements ▸ by simp)
  rintro rfl
  rw [← hsize] at hone
  cases hone

/-- a statement stands in the text of its node behind the ones before it -/
theorem Coherent.text_eq (h : n.Coherent) {before after : List (Statement × List Line)}
    {s : Statement} {lines : List Line}
    (hsplit : n.statements.zip n.statementLines = before ++ (s, lines) :: after) :
    (n.statementLines.take before.length).flatten = before.flatMap Prod.snd ∧
    ∃ rest, n.text.toList = n.textBefore before.length ++ (textOf lines).toList ++ rest := by
  obtain ⟨-, hpieces⟩ := split_statements hsplit
  have htake : (n.statementLines.take before.length).flatten = before.flatMap Prod.snd := by
    rw [hpieces, List.take_left' (List.length_map _), List.flatMap_def]
  have hlines : lines.map Line.text ≠ [] := mt List.map_eq_nil_iff.mp (h.lines_ne_nil hsplit)
  have hall : n.lines.map Line.text = (before.flatMap Prod.snd).map Line.text ++
      (lines.map Line.text ++ (after.flatMap Prod.snd).map Line.text) := by
    rw [← h.partition, hpieces, List.flatten_append, List.flatten_cons, List.map_append,
      List.map_append, List.flatMap_def, List.flatMap_def]
  obtain ⟨rest, hrest⟩ := Text.exists_rest_joinLines hlines ((after.flatMap Prod.snd).map Line.text)
  refine ⟨htake, rest, ?_⟩
  rw [text, textOf, hall, Text.toList_joinLines_append _ (by simp [hlines]), hrest, textBefore, htake,
    List.flatMap_map, List.append_assoc]
  rfl

end Node

/-! ## feeds -/

namespace Machine

variable {root : Root} {scopes : Scopes} {scope : Option Nat} {site : Site}

theorem advanced_step {op : Op} {s after : Stack}
    (h : (evaluating root scopes scope site).step op s = (.ok (), after)) :
    s.feed.Advanced ([op].count .input) after.feed := by
  cases op with
  | input =>
    simp only [evaluating] at h
    split at h
    · next v feed htake =>
      obtain ⟨_, rfl⟩ := leave_ok h
      exact .take htake
    · cases h
  | name text =>
    simp only [evaluating] at h
    split at h
    · obtain ⟨_, rfl⟩ := leave_ok h
      exact .refl _
    · cases h
  | _ =>
    simp only [evaluating] at h
    obtain ⟨_, rfl⟩ := leave_ok h
    exact .refl _

theorem advanced_run {ops : List Op} {s after : Stack}
    (h : (evaluating root scopes scope site).run ops s = (.ok (), after)) :
    s.feed.Advanced (ops.count .input) after.feed := by
  induction ops generalizing s with
  | nil =>
    obtain rfl := (Prod.mk.inj h).2
    exact .refl _
  | cons op ops ih =>
    cases hstep : (evaluating root scopes scope site).step op s with
    | mk answer next =>
      cases answer with
      | ok _ =>
        rw [run_cons_of_ok hstep] at h
        rw [count_input_cons]
        exact (advanced_step hstep).trans (ih h)
      | error fault =>
        rw [run_cons_of_error hstep] at h
        cases h

/-- an input that is there is put on the stack -/
theorem step_input {s : Stack} {v : Value} (h : s.feed.values[s.feed.next]? = some v) :
    (evaluating root scopes scope site).step .input s =
      (.ok (), ⟨v :: s.values, ⟨s.feed.values, s.feed.next + 1⟩, s.accesses⟩) := by
  have htake : s.feed.take = some (v, ⟨s.feed.values, s.feed.next + 1⟩) := by
    rw [Feed.take, h]
    rfl
  simp only [evaluating, htake]
  rfl

end Machine

namespace Diagram

variable {d : Diagram} {root : Root} {sink : Sink σ} {pass : Nat}

/-- what a node finds at its inputs is what they are worth in the end -/
theorem inputs_settled {before after : List Turn} {slot : Nat} {n : Node}
    (hsplit : d.schedule = before ++ ⟨slot, false⟩ :: after) (hn : d.node? slot = some n)
    (state : Results × σ) :
    n.inputs.map (before.foldl (d.evaluateTurn root sink pass) state).1.inputValue =
      n.inputs.map (d.schedule.foldl (d.evaluateTurn root sink pass) state).1.inputValue := by
  have hscheduled := d.scheduled
  have hnodup : (before.map Turn.slot ++ slot :: after.map Turn.slot).Nodup := by
    have hslots := hscheduled.nodup
    rw [hsplit, List.map_append] at hslots
    exact hslots
  refine inputValues_congr fun source hsource => ?_
  have hlater : source.node ∉ (⟨slot, false⟩ :: after).map Turn.slot := by
    intro hmem
    have hslot : source.node ∈ d.schedule.map Turn.slot := by
      rw [hsplit, List.map_append]
      exact List.mem_append_right _ hmem
    have hreads : d.Reads slot source.node :=
      (reads_iff hn).mpr ⟨⟨source, hsource, rfl⟩, (hscheduled.mem_iff _).mp hslot⟩
    have hbefore := hscheduled.sources_first before slot after hsplit _ hreads
    exact (List.nodup_append.mp hnodup).2.2 _ (List.mem_map_of_mem hbefore) _ hmem rfl
  rw [hsplit, List.foldl_append]
  exact (nodes_foldl_evaluateTurn hlater).symm

end Diagram

/-! ## statements -/

/-- what the `$` of a statement get, in a pass with the given results -/
structure Due.Aligned (root : Root) (n : Node) (r : Results) (due : Due σ) : Prop where
  /-- its text stands in the text of the node behind those of the statements before it -/
  place : ∃ after, n.text.toList = n.textBefore due.site.statement ++ due.text.toList ++ after
  /-- the inputs never run out -/
  fed : ∀ step ∈ due.trace root, step.op = .input → step.answer = .ok ()
  /-- whatever asks for an input is a `$` of the text -/
  asked : '"' ∉ n.text.toList → ∀ (index : Nat) step, (due.trace root)[index]? = some step →
    step.op = .input → ∃ front back, due.text.toList = front ++ '$' :: back ∧
      Statement.ReadBy front back index
  /-- the `$` behind so many others of the node gets the value of the input behind as many -/
  value : '"' ∉ n.text.toList → ∀ front back, due.text.toList = front ++ '$' :: back →
    ∀ (index : Nat) step, Statement.ReadBy front back index → (due.trace root)[index]? = some step →
      ∃ input, n.inputs[(n.textBefore due.site.statement ++ front).count '$']? = some input ∧
        step.answer = .ok () ∧ step.after.values = r.inputValue input :: step.before.values

namespace Due

variable {root : Root} {n : Node} {r : Results} {due : Due σ}

/-- an operation that asks for an input gets the one that is its turn -/
theorem value_of_input
    (hinputs : due.firstInput + due.text.toList.count '$' ≤ n.inputs.length)
    (hvalues : due.session.feed.values = (n.inputs.map r.inputValue).toArray)
    {index : Nat} {step : Machine.Step Stack} (hstep : (due.trace root)[index]? = some step)
    (hop : step.op = .input) :
    ∃ input, n.inputs[due.firstInput + ((Statement.operations due.text).take index).count .input]?
        = some input ∧
      step.answer = .ok () ∧ step.after.values = r.inputValue input :: step.before.values := by
  obtain ⟨hops, hrun, hlast⟩ := getElem?_trace hstep
  rw [hop] at hops hlast
  have hadvanced := Machine.advanced_run hrun
  have htaken := count_take_lt hops
  have hwritten := Statement.count_operations_le due.text
  obtain ⟨input, hinput⟩ : ∃ input, n.inputs[due.firstInput
      + ((Statement.operations due.text).take index).count .input]? = some input :=
    ⟨_, List.getElem?_eq_getElem (by omega)⟩
  have hvalue : step.before.feed.values[step.before.feed.next]? = some (r.inputValue input) := by
    rw [hadvanced.values, hadvanced.next]
    show due.session.feed.values[due.firstInput + _]? = _
    rw [hvalues, List.getElem?_toArray, List.getElem?_map, hinput]
    rfl
  rw [Machine.step_input hvalue] at hlast
  obtain ⟨hanswer, hafter⟩ := Prod.mk.inj hlast
  exact ⟨input, hinput, hanswer.symm, congrArg Stack.values hafter.symm⟩

theorem aligned
    (hplace : ∃ after, n.text.toList =
      n.textBefore due.site.statement ++ due.text.toList ++ after)
    (hfirst : due.firstInput = (n.textBefore due.site.statement).count '$')
    (hinputs : n.inputs.length = n.text.toList.count '$')
    (hvalues : due.session.feed.values = (n.inputs.map r.inputValue).toArray) :
    due.Aligned root n r := by
  obtain ⟨after, htext⟩ := hplace
  have hlength : due.firstInput + due.text.toList.count '$' ≤ n.inputs.length := by
    rw [hinputs, htext, List.count_append, List.count_append, hfirst]
    omega
  have hquote : '"' ∉ n.text.toList → ∀ front back, due.text.toList = front ++ '$' :: back →
      '"' ∉ front ++ '$' :: back := fun hnone front back hsplit hmem => by
    refine hnone ?_
    rw [htext, hsplit]
    exact List.mem_append_left _ (List.mem_append_right _ hmem)
  have hoperations : ∀ front back, due.text.toList = front ++ '$' :: back →
      Statement.operations (.ofList (front ++ '$' :: back)) = Statement.operations due.text :=
    fun front back hsplit => by rw [← hsplit, String.ofList_toList]
  refine ⟨⟨after, htext⟩, fun step hstep hop => ?_, fun hnone index step hstep hop => ?_,
    fun hnone front back hsplit index step hread hstep => ?_⟩
  · obtain ⟨index, hindex⟩ := List.getElem?_of_mem hstep
    obtain ⟨input, -, hanswer, -⟩ := value_of_input hlength hvalues hindex hop
    exact hanswer
  · have hops := (getElem?_trace hstep).1
    rw [hop] at hops
    have hlt := Nat.lt_of_lt_of_le (count_take_lt hops) (Statement.count_operations_le due.text)
    obtain ⟨front, back, hsplit, hfront⟩ := exists_split_of_lt_count hlt
    refine ⟨front, back, hsplit, (Statement.readBy_iff (hquote hnone front back hsplit)).mpr ?_⟩
    rw [hoperations front back hsplit]
    exact ⟨hops, hfront.symm⟩
  · obtain ⟨hops, hcount⟩ := (Statement.readBy_iff (hquote hnone front back hsplit)).mp hread
    rw [hoperations front back hsplit] at hops hcount
    have hop : step.op = .input :=
      Option.some.inj ((getElem?_trace hstep).1.symm.trans hops)
    have hvalue := value_of_input hlength hvalues hstep hop
    rw [hcount, hfirst, ← List.count_append] at hvalue
    exact hvalue

end Due

namespace Diagram

/-- **Every `$` gets the value of its own input.**  What is written down for the statements that a
pass runs is what running them does.  None of them finds the inputs of its node used up.  In a node without quotes whatever asks for an input is one of its `$`,
and the `$` with `k` others in front of it in the text of the node gets what the `k`-th input is
worth, wherever the statements before it failed. -/
theorem evaluate_aligned {d : Diagram} (hd : d.Built) (root : Root) (sink : Sink σ)
    (pass : Nat) (earlier : Results) (host : σ) :
    (d.due root sink pass earlier host).map (Due.ran root sink) =
      (d.account root sink pass earlier host).flatMap NodeRan.statements ∧
    (∀ due ∈ d.due root sink pass earlier host, due.TracesRun root sink) ∧
    ∀ due ∈ d.due root sink pass earlier host, ∃ n, d.node? due.site.slot = some n ∧
      due.Aligned root n (d.evaluate root sink pass earlier host).1 := by
  refine ⟨d.map_ran_due root sink pass earlier host, fun due _ => due.tracesRun root sink,
    fun due hdue => ?_⟩
  obtain ⟨before, slot, after, hsplit, hdue⟩ := exists_turn_of_mem_dueFrom hdue
  rw [slotDue] at hdue
  split at hdue
  · cases hdue
  · next n hn =>
    obtain ⟨earlierOnes, laterOnes, hstatements, hsite, hfirst, hvalues⟩ := of_mem_statementsDue hdue
    have hcoherent := (hd.allShaped slot n hn).coherent
    obtain ⟨htake, hplace⟩ := hcoherent.text_eq hstatements
    have hindex : due.site.statement = earlierOnes.length := by
      rw [hsite]
      exact Nat.zero_add _
    have hslot : due.site.slot = slot := by rw [hsite]
    refine ⟨n, hslot.symm ▸ hn, Due.aligned (hindex.symm ▸ hplace) ?_ hcoherent.inputs ?_⟩
    · rw [hindex, hcoherent.count_textBefore, htake, hfirst, Nat.zero_add]
    · rw [hvalues]
      show (n.inputs.map _).toArray = _
      rw [inputs_settled hsplit hn]
      rfl

/-- a node whose first statement fails before it comes to its `$` -/
theorem evaluate_aligned_failing :
    let source : Node := .ofText "1\n2"
    let reader : Node := { Node.ofText "nope+$\n$" with inputs := [some ⟨0, 0⟩, some ⟨0, 1⟩] }
    let d : Diagram := ⟨#[some source, some reader]⟩
    d.Built ∧ ∀ due ∈ d.due ⟨.empty, .none⟩ .collecting 0 .empty (.expecting none), ∃ n,
      d.node? due.site.slot = some n ∧ due.Aligned ⟨.empty, .none⟩ n
        (d.evaluate ⟨.empty, .none⟩ .collecting 0 .empty (.expecting none)).1 := by
  intro source reader d
  have hfirst : ((Diagram.empty.add "1\n2").add "nope+$\n$").connect ⟨0, 0⟩ 1 0 =
      .ok ⟨#[some source, some { reader with inputs := [some ⟨0, 0⟩, none] }]⟩ := rfl
  have hsecond : Diagram.connect
      ⟨#[some source, some { reader with inputs := [some ⟨0, 0⟩, none] }]⟩ ⟨0, 1⟩ 1 1 = .ok d := rfl
  have hbuilt : d.Built := .connect (.connect (.add (.add .empty _) _) hfirst) hsecond
  exact ⟨hbuilt, (evaluate_aligned hbuilt _ _ _ _ _).2.2⟩

end Diagram

end Dataflow
