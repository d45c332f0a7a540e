import Dataflow.Node

/-!
# The shape of nodes

* `Node.Shaped`   the statements partition the lines as their texts say; a statement has an output
                  if its text yields a value, or holds one where it may; inputs and outputs fit.

A text gives a node its shape, whatever the node was before (`Shaped.setText`), and no later change
spoils it (`Shaped.keepOutput`, `Shaped.moveTo`, `Shaped.refit`, `Shaped.withInputs`).
-/

namespace Dataflow

namespace Node

variable {α β : Type}

/-! ## pieces -/

theorem length_pieces (sizes : List Nat) (items : List α) :
    (pieces sizes items).length = sizes.length := by
  induction sizes generalizing items with
  | nil => rfl
  | cons n sizes ih => rw [pieces_cons, List.length_cons, ih, List.length_cons]

/-- pieces have the sizes that were asked for -/
theorem map_length_pieces {sizes : List Nat} {items : List α}
    (h : sizes.foldr (· + ·) 0 ≤ items.length) : (pieces sizes items).map List.length = sizes := by
  induction sizes generalizing items with
  | nil => rfl
  | cons n sizes ih =>
    rw [List.foldr_cons] at h
    rw [pieces_cons, List.map_cons, List.length_take, ih (by rw [List.length_drop]; omega),
      Nat.min_eq_left (by omega)]

/-- the statements of a text take all its lines -/
theorem map_length_group (texts : List String) :
    (pieces (Statement.group texts) texts).map List.length = Statement.group texts :=
  map_length_pieces (Nat.le_of_eq (Statement.total_group texts))

theorem pieces_map (f : α → β) (sizes : List Nat) (items : List α) :
    pieces sizes (items.map f) = (pieces sizes items).map (List.map f) := by
  induction sizes generalizing items with
  | nil => rfl
  | cons n sizes ih => rw [pieces_cons, pieces_cons, List.map_cons, ← List.map_drop, ih, List.map_take]

theorem map_text_lineOf (texts : List String) : (texts.map lineOf).map Line.text = texts := by
  rw [List.map_map]
  exact List.map_id texts

/-! ## shapes -/

/-- a statement has an output if its text yields a value; without a value it may hold one if its
text is blank or an unfinished assignment -/
def OutputFits (s : Statement) (text : String) : Prop :=
  s.hasOutput = Statement.yields text ∨ s.hasOutput = true ∧ Statement.mayHold text = true

/-- what a text makes of a node, and what every later change keeps -/
structure Shaped (n : Node) : Prop where
  /-- there is a line, and lines have no newlines -/
  lines : ∃ texts : List String, texts ≠ [] ∧ (∀ text ∈ texts, '\n' ∉ text.toList) ∧
    n.lines = texts.map lineOf
  /-- the statements take the lines in groups -/
  groups : n.statements.map Statement.lineCount = Statement.group (n.lines.map Line.text)
  output : ∀ (index : Nat) s text, n.statements[index]? = some s →
    n.statementTexts[index]? = some text → OutputFits s text
  inputs : n.inputs.length = Line.total n.lines
  outputs : n.outputs = outputsOf n.statements

/-- the texts of the statements are known from the lines -/
theorem statementTexts_of_groups {n : Node}
    (h : n.statements.map Statement.lineCount = Statement.group (n.lines.map Line.text)) :
    n.statementTexts =
      (pieces (Statement.group (n.lines.map Line.text)) (n.lines.map Line.text)).map
        Text.joinLines := by
  rw [statementTexts, statementLines, h, pieces_map, List.map_map]
  rfl

/-- every statement takes a line -/
theorem length_groupFrom_le (lines : List String) (depth count : Nat) :
    (Statement.groupFrom depth count lines).length ≤ lines.length + min count 1 := by
  induction lines generalizing depth count with
  | nil => by_cases h : count = 0 <;> simp [Statement.groupFrom, h]; omega
  | cons line rest ih =>
    rw [Statement.groupFrom]
    split
    · have hrest := ih 0 0
      rw [List.length_cons, List.length_cons]
      omega
    · have hrest := ih (Statement.depthAfter depth line) (count + 1)
      rw [List.length_cons]
      omega

theorem Shaped.length_statements_le {n : Node} (h : n.Shaped) :
    n.statements.length ≤ n.lines.length := by
  have hlength := congrArg List.length h.groups
  have hle := length_groupFrom_le (n.lines.map Line.text) 0 0
  rw [List.length_map] at hlength hle
  rw [hlength]
  exact hle

theorem Shaped.length_outputs_le {n : Node} (h : n.Shaped) :
    n.outputs.length ≤ n.statements.length := by
  rw [h.outputs, outputsOf]
  exact Nat.le_trans (List.length_filterMap_le _ _) (Nat.le_of_eq List.length_zipIdx)

/-! ## changes -/

theorem map_lineCount_regroup (previous : List Statement) (groups : List (List String)) :
    (regroup previous groups).map Statement.lineCount = groups.map List.length := by
  induction groups generalizing previous with
  | nil => rfl
  | cons piece rest ih => rw [regroup, List.map_cons, List.map_cons, ih]

/-- the statement in a place depends on the statement that was there before -/
theorem getElem?_regroup (previous : List Statement) (groups : List (List String)) (i : Nat) :
    (regroup previous groups)[i]? = (groups[i]?).map fun piece =>
      ⟨piece.length, (previous[i]?.map Statement.hasOutput).getD false &&
        Statement.mayHold (Text.joinLines piece) || Statement.yields (Text.joinLines piece)⟩ := by
  induction groups generalizing previous i with
  | nil => rfl
  | cons piece rest ih =>
    cases i with
    | zero =>
      rw [regroup, List.getElem?_cons_zero, List.getElem?_cons_zero, List.head?_eq_getElem?]
      rfl
    | succ i =>
      rw [regroup, List.getElem?_cons_succ, List.getElem?_cons_succ, ih, List.getElem?_tail]

theorem outputFits_regroup (previous : List Statement) (groups : List (List String)) (index : Nat)
    (s : Statement) (text : String) (hs : (regroup previous groups)[index]? = some s)
    (ht : (groups.map Text.joinLines)[index]? = some text) : OutputFits s text := by
  rw [List.getElem?_map] at ht
  obtain ⟨piece, hpiece, rfl⟩ := Option.map_eq_some_iff.mp ht
  rw [getElem?_regroup, hpiece, Option.map_some] at hs
  obtain rfl := Option.some.inj hs
  unfold OutputFits
  generalize (previous[index]?.map Statement.hasOutput).getD false = had
  cases had <;> cases Statement.mayHold (Text.joinLines piece) <;> simp

theorem not_mem_cutLines (text : List Char) : ∀ line ∈ Text.cutLines text, '\n' ∉ line := by
  induction text with
  | nil => simp [Text.cutLines]
  | cons c rest ih =>
    rw [Text.cutLines]
    split
    · simpa using ih
    · next hc =>
      split
      · simpa using Ne.symm hc
      · next line lines heq =>
        rw [heq] at ih
        obtain ⟨hline, hlines⟩ := List.forall_mem_cons.mp ih
        refine List.forall_mem_cons.mpr ⟨?_, hlines⟩
        simpa using ⟨Ne.symm hc, hline⟩

theorem not_mem_splitLines {text line : String} (h : line ∈ Text.splitLines text) :
    '\n' ∉ line.toList := by
  obtain ⟨cut, hcut, rfl⟩ := List.mem_map.mp h
  have hnot := not_mem_cutLines _ cut hcut
  rw [String.toList_ofList, Text.dropReturn]
  split
  · exact fun hmem => hnot (List.dropLast_subset cut hmem)
  · exact hnot

theorem Shaped.setText (n : Node) (text : String) : (n.setText text).Shaped := by
  have hlines : ((n.setText text).lines).map Line.text = Text.splitLines text :=
    map_text_lineOf (Text.splitLines text)
  have hstatements : (n.setText text).statements = regroup n.statements
      (pieces (Statement.group (Text.splitLines text)) (Text.splitLines text)) := rfl
  have hgroups : ((n.setText text).statements).map Statement.lineCount =
      Statement.group ((n.setText text).lines.map Line.text) := by
    rw [hlines, hstatements, map_lineCount_regroup, map_length_group]
  refine ⟨⟨Text.splitLines text, Text.splitLines_ne_nil text, fun _ => not_mem_splitLines, rfl⟩,
    hgroups, fun index s t hs ht => ?_, length_inputs_refit _, rfl⟩
  rw [statementTexts_of_groups hgroups, hlines] at ht
  rw [hstatements] at hs
  exact outputFits_regroup n.statements _ index s t hs ht

theorem Shaped.ofText (text : String) : (Node.ofText text).Shaped := Shaped.setText _ text

section

variable {n : Node}

theorem Shaped.moveTo (h : n.Shaped) (x y : Single) : (n.moveTo x y).Shaped := ⟨h.1, h.2, h.3, h.4, h.5⟩

theorem Shaped.refit (h : n.Shaped) : n.refit.Shaped :=
  ⟨h.lines, h.groups, h.output, length_inputs_refit n, rfl⟩

/-- other wires -/
theorem Shaped.withInputs (h : n.Shaped) {inputs : List (Option Source)}
    (hlen : inputs.length = n.inputs.length) : { n with inputs := inputs }.Shaped :=
  ⟨h.lines, h.groups, h.output, hlen.trans h.inputs, h.outputs⟩

/-- the statements with an output for one of them -/
def hold (statements : List Statement) (index : Nat) : List Statement :=
  statements.modify index fun s => { s with hasOutput := true }

theorem getElem?_hold (statements : List Statement) (index i : Nat) :
    (hold statements index)[i]? =
      (statements[i]?).map fun s => if i = index then { s with hasOutput := true } else s := by
  rw [hold, List.getElem?_modify]
  cases statements[i]? with
  | none => rfl
  | some s =>
    by_cases hi : i = index
    · simp [hi]
    · simp [hi, Ne.symm hi]

theorem map_lineCount_hold (statements : List Statement) (index : Nat) :
    (hold statements index).map Statement.lineCount = statements.map Statement.lineCount := by
  refine List.ext_getElem? fun i => ?_
  rw [List.getElem?_map, List.getElem?_map, getElem?_hold]
  cases statements[i]? with
  | none => rfl
  | some s =>
    simp only [Option.map_some]
    split <;> rfl

/-- the node with an output for one of its statements -/
def holdOutput (n : Node) (index : Nat) : Node :=
  { n with statements := hold n.statements index }.refit

theorem keepOutput?_eq (n : Node) (index : Nat) :
    n.keepOutput? index =
      match n.statementTexts[index]? with
      | some text => if Statement.mayHold text then some (n.holdOutput index) else none
      | none => none := rfl

theorem keepOutput?_some {n' : Node} {index : Nat} (h : n.keepOutput? index = some n') :
    (∃ text, n.statementTexts[index]? = some text ∧ Statement.mayHold text = true) ∧
      n' = n.holdOutput index := by
  rw [keepOutput?_eq] at h
  split at h
  · next text htext =>
    split at h
    · next hmay => exact ⟨⟨text, htext, hmay⟩, (Option.some.inj h).symm⟩
    · cases h
  · cases h

/-- the texts of the statements do not depend on their outputs -/
theorem statementTexts_congr {n' : Node} (hlines : n'.lines = n.lines)
    (hcounts : n'.statements.map Statement.lineCount = n.statements.map Statement.lineCount) :
    n'.statementTexts = n.statementTexts := by
  rw [statementTexts, statementTexts, statementLines, statementLines, hlines, hcounts]

theorem statementTexts_holdOutput (n : Node) (index : Nat) :
    (n.holdOutput index).statementTexts = n.statementTexts :=
  statementTexts_congr rfl (map_lineCount_hold n.statements index)

theorem Shaped.keepOutput (h : n.Shaped) {n' : Node} {index : Nat}
    (hk : n.keepOutput? index = some n') : n'.Shaped := by
  obtain ⟨⟨text, htext, hmay⟩, rfl⟩ := keepOutput?_some hk
  refine ⟨h.lines, (map_lineCount_hold n.statements index).trans h.groups, fun i s t hs ht => ?_,
    length_inputs_refit _, rfl⟩
  rw [statementTexts_holdOutput] at ht
  have hstatements : (n.holdOutput index).statements = hold n.statements index := rfl
  rw [hstatements, getElem?_hold] at hs
  obtain ⟨old, hold, rfl⟩ := Option.map_eq_some_iff.mp hs
  by_cases hi : i = index
  · obtain rfl := hi
    rw [htext] at ht
    obtain rfl := Option.some.inj ht
    rw [if_pos rfl]
    exact .inr ⟨rfl, hmay⟩
  · rw [if_neg hi]
    exact h.output i old t hold ht

end

end Node

end Dataflow
