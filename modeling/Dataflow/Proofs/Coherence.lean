import Mathlib.Algebra.GroupWithZero.Nat
import Dataflow.Proofs.Account
import Dataflow.Proofs.Built

/-!
# The parts of a node fit together

* `Node.Coherent`   statements partition the lines, and inputs and outputs are the ones that lines
                    and statements ask for;
* `Node.Shaped.coherent`   a node with the shape of its text is coherent;
* `NodeResult.Fits`   a result with a value for every output and a message for every line;
* `Node.Built.coherent_fits`   the nodes that the operations make are coherent, and what a pass says
                    of them fits.
-/

namespace Dataflow

/-! ## counting characters -/

/-- newlines between lines are no other characters -/
theorem Text.count_joinLines {c : Char} (hc : c ≠ '\n') (lines : List String) :
    (joinLines lines).toList.count c = (lines.map fun line => line.toList.count c).sum := by
  rw [joinLines, String.toList_ofList]
  induction lines with
  | nil => rfl
  | cons line rest ih =>
    cases rest with
    | nil => simp
    | cons next rest =>
      have hnewline : List.count c ['\n'] = 0 := List.count_eq_zero.mpr (by simpa using hc)
      rw [List.map_cons, List.map_cons, List.intercalate_cons_cons, List.count_append,
        List.count_append, ← List.map_cons, ih, hnewline, Nat.add_zero]
      exact (List.sum_cons ..).symm

namespace Node

variable {n : Node} {lines : List Line}

theorem total_eq_sum (lines : List Line) :
    Line.total lines = (lines.map Line.inputs).sum := by
  rw [Line.total, List.sum, List.foldr_map]

theorem total_append (first second : List Line) :
    Line.total (first ++ second) = Line.total first + Line.total second := by
  rw [total_eq_sum, total_eq_sum, total_eq_sum, List.map_append, List.sum_append]

/-- lines that know how many inputs they read -/
theorem total_eq_count (h : ∀ line ∈ lines, line.inputs = line.text.toList.count '$') :
    Line.total lines = (textOf lines).toList.count '$' := by
  rw [total_eq_sum, textOf, Text.count_joinLines (by decide), List.map_map]
  exact congrArg List.sum (List.map_congr_left h)

/-! ## pieces -/

theorem flatten_pieces {α : Type} {sizes : List Nat} {items : List α}
    (h : sizes.sum = items.length) : (pieces sizes items).flatten = items := by
  induction sizes generalizing items with
  | nil => exact (List.eq_nil_of_length_eq_zero h.symm).symm
  | cons size sizes ih =>
    rw [List.sum_cons] at h
    rw [pieces_cons, List.flatten_cons, ih (by rw [List.length_drop]; omega),
      List.take_append_drop]

/-- a group has a line -/
theorem pos_groupFrom (lines : List String) (depth count : Nat) :
    ∀ size ∈ Statement.groupFrom depth count lines, 1 ≤ size := by
  induction lines generalizing depth count with
  | nil =>
    rw [Statement.groupFrom]
    split
    · exact List.forall_mem_nil _
    · next hcount =>
      rw [List.forall_mem_singleton]
      exact Nat.one_le_iff_ne_zero.mpr hcount
  | cons line rest ih =>
    rw [Statement.groupFrom]
    split
    · rw [List.forall_mem_cons]
      exact ⟨Nat.succ_pos count, ih 0 0⟩
    · exact ih _ _

/-! ## outputs -/

theorem mem_outputsOf {statements : List Statement} {index : Nat} :
    index ∈ outputsOf statements ↔
      ∃ s, statements[index]? = some s ∧ s.hasOutput = true := by
  simp only [outputsOf, List.mem_filterMap, Prod.exists, List.mem_zipIdx_iff_getElem?]
  constructor
  · rintro ⟨s, i, hget, hs⟩
    split at hs
    · next hout =>
      obtain rfl := Option.some.inj hs
      exact ⟨s, hget, hout⟩
    · cases hs
  · rintro ⟨s, hget, hout⟩
    exact ⟨s, index, hget, if_pos hout⟩

theorem pairwise_outputsOf (statements : List Statement) :
    (outputsOf statements).Pairwise (· < ·) := by
  refine List.pairwise_filterMap.mpr ((Diagram.pairwise_zipIdx statements).imp ?_)
  rintro ⟨s, i⟩ ⟨t, j⟩ hlt a ha b hb
  obtain ⟨-, ha⟩ := Option.ite_none_right_eq_some.mp ha
  obtain ⟨-, hb⟩ := Option.ite_none_right_eq_some.mp hb
  rwa [← Option.some.inj ha, ← Option.some.inj hb]

theorem length_outputsOf (statements : List Statement) :
    (outputsOf statements).length = (statements.filter Statement.hasOutput).length := by
  rw [outputsOf]
  generalize 0 = start
  induction statements generalizing start with
  | nil => rfl
  | cons s rest ih =>
    have hrest := ih (start + 1)
    cases hs : s.hasOutput <;> simp [hs, hrest]

/-! ## coherence -/

/-- how lines, statements, inputs and outputs of a node fit together -/
structure Coherent (n : Node) : Prop where
  lines : n.lines ≠ []
  line : ∀ line ∈ n.lines, line.inputs = line.text.toList.count '$' ∧ '\n' ∉ line.text.toList
  /-- every statement has a line -/
  lineCount : ∀ s ∈ n.statements, 1 ≤ s.lineCount
  total : (n.statements.map Statement.lineCount).sum = n.lines.length
  /-- the statements have their lines one after the other -/
  sizes : n.statementLines.map List.length = n.statements.map Statement.lineCount
  partition : n.statementLines.flatten = n.lines
  inputs : n.inputs.length = n.text.toList.count '$'
  outputs : n.outputs.Pairwise (· < ·)
  output_iff : ∀ index, index ∈ n.outputs ↔
    ∃ s, n.statements[index]? = some s ∧ s.hasOutput = true
  /-- the texts of the statements, by which an output is given or held -/
  texts : n.statementTexts.length = n.statements.length
  yields : ∀ (index : Nat) s text, n.statements[index]? = some s →
    n.statementTexts[index]? = some text → Statement.yields text = true → s.hasOutput = true
  held : ∀ (index : Nat) s text, n.statements[index]? = some s →
    n.statementTexts[index]? = some text → s.hasOutput = true → Statement.yields text = false →
    Statement.isBlank text = true ∨ Statement.isUnfinished text = true

/-- a node with the shape of its text is coherent -/
theorem Shaped.coherent (h : n.Shaped) : n.Coherent := by
  obtain ⟨texts, hne, hnewline, hlines⟩ := h.lines
  have hline : ∀ line ∈ n.lines,
      line.inputs = line.text.toList.count '$' ∧ '\n' ∉ line.text.toList := by
    rw [hlines]
    intro line hmem
    obtain ⟨text, htext, rfl⟩ := List.mem_map.mp hmem
    exact ⟨rfl, hnewline text htext⟩
  have htotal : (n.statements.map Statement.lineCount).sum = n.lines.length := by
    rw [h.groups]
    exact (Statement.total_group _).trans (List.length_map _)
  have hlength : n.statementLines.length = n.statements.length := by
    rw [statementLines, length_pieces, List.length_map]
  refine ⟨?_, hline, fun s hs => ?_, htotal, map_length_pieces (Nat.le_of_eq htotal),
    flatten_pieces htotal, ?_, ?_, fun index => ?_, ?_, fun index s text hs ht hyields => ?_,
    fun index s text hs ht hout hyields => ?_⟩
  · rw [hlines]
    exact mt List.map_eq_nil_iff.mp hne
  · have hmem : s.lineCount ∈ Statement.group (n.lines.map Line.text) :=
      h.groups ▸ List.mem_map_of_mem hs
    exact pos_groupFrom _ _ _ _ hmem
  · rw [h.inputs, total_eq_count fun line hmem => (hline line hmem).1]
    rfl
  · rw [h.outputs]
    exact pairwise_outputsOf _
  · rw [h.outputs]
    exact mem_outputsOf
  · rw [statementTexts, List.length_map, hlength]
  · rcases h.output index s text hs ht with hout | ⟨hout, -⟩
    · rw [hout, hyields]
    · exact hout
  · rcases h.output index s text hs ht with heq | ⟨-, hmay⟩
    · rw [heq, hyields] at hout
      cases hout
    · exact (Bool.or_eq_true _ _).mp hmay

end Node

/-! ## results -/

/-- a value for every output of a node, and a message for every line -/
structure NodeResult.Fits (n : Node) (r : NodeResult) : Prop where
  outputs : r.outputs.length = n.outputs.length
  errors : r.errors.length = n.lines.length

namespace NodeResult

variable {n : Node}

theorem fits_cyclic (n : Node) : (cyclic n).Fits n := ⟨List.length_replicate, List.length_replicate⟩

theorem length_outputs_ofRan (rs : List Ran) :
    (ofRan rs).outputs.length = ((rs.map Ran.statement).filter Statement.hasOutput).length := by
  induction rs with
  | nil => rfl
  | cons r rest ih => cases hs : r.statement.hasOutput <;> simp [ofRan, cons, hs, ih]

theorem length_errors_ofRan (rs : List Ran) :
    (ofRan rs).errors.length = ((rs.map Ran.lines).map List.length).sum := by
  induction rs with
  | nil => rfl
  | cons r rest ih => simp [ofRan, cons, ih]

/-- what was run of a node are its statements, each on its own lines -/
theorem columns_ran {rs : List Ran}
    (hrs : rs.map (fun r => (r.statement, r.lines)) = n.statements.zip n.statementLines) :
    rs.map Ran.statement = n.statements ∧ rs.map Ran.lines = n.statementLines := by
  have hlength : n.statements.length = n.statementLines.length := by
    rw [Node.statementLines, Node.length_pieces, List.length_map]
  have hfst := congrArg (List.map Prod.fst) hrs
  rw [List.map_map, List.map_fst_zip (Nat.le_of_eq hlength)] at hfst
  have hsnd := congrArg (List.map Prod.snd) hrs
  rw [List.map_map, List.map_snd_zip (Nat.le_of_eq hlength.symm)] at hsnd
  exact ⟨hfst, hsnd⟩

/-- the statements of a node make up its outputs and its lines -/
theorem fits_ofRan (h : n.Shaped) {rs : List Ran}
    (hrs : rs.map (fun r => (r.statement, r.lines)) = n.statements.zip n.statementLines) :
    (ofRan rs).Fits n := by
  obtain ⟨hstatements, hlines⟩ := columns_ran hrs
  constructor
  · rw [length_outputs_ofRan, hstatements, h.outputs, Node.length_outputsOf]
  · rw [length_errors_ofRan, hlines, h.coherent.sizes, h.coherent.total]

end NodeResult

namespace Diagram

variable {σ : Type} {d : Diagram} {slot : Nat} {n : Node}

/-- a pass gives every node with the shape of its text a result that fits it -/
theorem exists_fits (hn : d.node? slot = some n) (h : n.Shaped) (root : Root) (sink : Sink σ)
    (pass : Nat) (earlier : Results) (host : σ) : ∃ r,
      (d.evaluate root sink pass earlier host).1.nodes[slot]? = some r ∧ r.Fits n := by
  by_cases hc : d.ReachesCycle slot
  · exact ⟨.cyclic n, nodes_evaluate_of_cyclic earlier host hn hc, NodeResult.fits_cyclic n⟩
  · have hsome : (d.node? slot).isSome := by rw [hn]; rfl
    obtain ⟨ran, hran, rfl, -⟩ :=
      faults_of_mem root sink pass earlier host (mem_runOrder.mpr ⟨hsome, hc⟩)
    have hlt : ran.slot < (earlier.reset d.slotCount).nodes.size :=
      lt_of_lt_of_eq (lt_slotCount_of_node? hsome) Array.size_replicate.symm
    exact ⟨_, nodes_accountFrom hran hsome hlt d.scheduled.nodup,
      NodeResult.fits_ofRan h (statements_accountFrom hran hn)⟩

end Diagram

/-- **The parts of a node fit together**, whatever texts it was given and whichever outputs it was
told to keep, loaded or not; and every pass over a diagram, with cycles or without, and whatever
fails in it, gives every node a value for each of its outputs and a message for each of its lines. -/
theorem Node.Built.coherent_fits :
    (∀ n : Node, n.Built → n.Coherent) ∧
    ∀ d : Diagram, d.Built → ∀ slot n, d.node? slot = some n → n.Coherent ∧
      ∀ (σ : Type) (root : Root) (sink : Sink σ) pass earlier host, ∃ r,
        (d.evaluate root sink pass earlier host).1.nodes[slot]? = some r ∧ r.Fits n := by
  refine ⟨fun n hn => hn.shaped.coherent, fun d hd slot n hn => ?_⟩
  have hshaped := hd.allShaped slot n hn
  exact ⟨hshaped.coherent, fun σ root sink pass earlier host =>
    Diagram.exists_fits hn hshaped root sink pass earlier host⟩

/-- a node that holds an output for a blank line and reads from itself -/
theorem Node.Built.coherent_fits_looped :
    let n := (Node.ofText "5\n$").setText "\n$"
    let looped : Node := { n with inputs := [some ⟨0, 1⟩] }
    let d : Diagram := ⟨#[some looped]⟩
    n.Built ∧ n.outputs = [0, 1] ∧ n.Coherent ∧ d.Built ∧ d.node? 0 = some looped ∧
      looped.Coherent ∧
      ∃ r, (d.evaluate ⟨.empty, .none⟩ .collecting 0 .empty (.expecting none)).1.nodes[0]? = some r ∧
        r.Fits looped := by
  intro n looped d
  have hn : n.Built := .setText (.ofText "5\n$") "\n$"
  have hconnect : (Diagram.empty.push n).connect ⟨0, 1⟩ 0 0 = .ok d := rfl
  have hd : d.Built := .connect (.push .empty hn) hconnect
  obtain ⟨hcoherent, hfits⟩ := coherent_fits.2 d hd 0 looped rfl
  exact ⟨hn, rfl, coherent_fits.1 n hn, hd, rfl, hcoherent, hfits _ _ _ _ _ _⟩

end Dataflow
