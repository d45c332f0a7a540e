import Dataflow.Proofs.Shape
import Dataflow.Saved.Load

/-!
# Rebuilding a node from its lines and held outputs

* `Text.splitLines_joinLines`   lines that are joined are cut apart again, but for carriage returns;
* `Node.unwired`                a node without its wires;
* `Saved.holdOutputs_rebuild`   the text of a node and its held outputs give it back, unwired.
-/

namespace Dataflow

namespace Text

theorem cutLines_append {line : List Char} (rest : List Char) (h : '\n' ∉ line) :
    cutLines (line ++ '\n' :: rest) = line :: cutLines rest := by
  induction line with
  | nil => rfl
  | cons c line ih =>
    obtain ⟨hc, hline⟩ := not_or.mp (mt List.mem_cons.mpr h)
    rw [List.cons_append, cutLines, if_neg (Ne.symm hc), ih hline]

theorem cutLines_of_not_mem {line : List Char} (h : '\n' ∉ line) : cutLines line = [line] := by
  induction line with
  | nil => rfl
  | cons c line ih =>
    obtain ⟨hc, hline⟩ := not_or.mp (mt List.mem_cons.mpr h)
    rw [cutLines, if_neg (Ne.symm hc), ih hline]

theorem cutLines_intercalate (line : List Char) (lines : List (List Char))
    (h : ∀ l ∈ line :: lines, '\n' ∉ l) :
    cutLines (['\n'].intercalate (line :: lines)) = line :: lines := by
  induction lines generalizing line with
  | nil =>
    rw [List.intercalate_singleton]
    exact cutLines_of_not_mem (h line List.mem_cons_self)
  | cons next lines ih =>
    obtain ⟨hline, hlines⟩ := List.forall_mem_cons.mp h
    rw [List.intercalate_cons_cons, List.append_assoc, List.singleton_append,
      cutLines_append _ hline, ih next hlines]

theorem dropReturn_of_ne {line : List Char} (h : line.getLast? ≠ some '\r') :
    dropReturn line = line := if_neg h

/-- a line without the carriage return at its end, of several without the last one -/
def withoutReturn (line : String) : String := String.ofList (dropReturn line.toList)

theorem withoutReturn_of_ne {line : String} (h : line.toList.getLast? ≠ some '\r') :
    withoutReturn line = line := by
  rw [withoutReturn, dropReturn_of_ne h, String.ofList_toList]

/-- lines that are joined are cut apart again, each without a carriage return at its end -/
theorem splitLines_joinLines {lines : List String} (hne : lines ≠ [])
    (hnewline : ∀ line ∈ lines, '\n' ∉ line.toList) :
    splitLines (joinLines lines) = lines.map withoutReturn := by
  obtain ⟨line, rest, rfl⟩ := List.exists_cons_of_ne_nil hne
  have hcut := cutLines_intercalate line.toList (rest.map String.toList) (by
    intro l hl
    rw [← List.map_cons] at hl
    obtain ⟨text, htext, rfl⟩ := List.mem_map.mp hl
    exact hnewline text htext)
  rw [splitLines, joinLines, String.toList_ofList, List.map_cons, hcut, ← List.map_cons,
    List.map_map]
  rfl

/-- lines without carriage returns at their ends are cut apart as they were -/
theorem splitLines_joinLines_of_ne {lines : List String} (hne : lines ≠ [])
    (hnewline : ∀ line ∈ lines, '\n' ∉ line.toList)
    (hreturn : ∀ line ∈ lines, line.toList.getLast? ≠ some '\r') :
    splitLines (joinLines lines) = lines := by
  rw [splitLines_joinLines hne hnewline]
  exact (List.map_congr_left fun line hline => withoutReturn_of_ne (hreturn line hline)).trans
    (List.map_id lines)

end Text

namespace Node

variable {n : Node}

/-- a node without its wires -/
def unwired (n : Node) : Node := { n with inputs := List.replicate n.inputs.length none }

/-! ## several held outputs -/

theorem getElem?_foldl_hold (indices : List Nat) (statements : List Statement) (i : Nat) :
    (indices.foldl hold statements)[i]? =
      (statements[i]?).map fun s => if i ∈ indices then { s with hasOutput := true } else s := by
  induction indices generalizing statements with
  | nil => simp
  | cons index indices ih =>
    rw [List.foldl_cons, ih, getElem?_hold, Option.map_map]
    refine congrFun (congrArg Option.map (funext fun s => ?_)) _
    by_cases hi : i = index <;> by_cases hm : i ∈ indices <;> simp [hi, hm]

theorem getElem?_regroup_nil (groups : List (List String)) (i : Nat) :
    (regroup [] groups)[i]? = (groups[i]?).map fun piece =>
      ⟨piece.length, Statement.yields (Text.joinLines piece)⟩ := by
  rw [getElem?_regroup, List.getElem?_nil]
  rfl

theorem mem_heldOutputs (i : Nat) :
    i ∈ n.heldOutputs ↔ ∃ s text, n.statements[i]? = some s ∧ n.statementTexts[i]? = some text ∧
      s.hasOutput = true ∧ Statement.yields text = false := by
  unfold heldOutputs
  rw [List.mem_filterMap]
  constructor
  · rintro ⟨⟨⟨s, text⟩, j⟩, hmem, hsome⟩
    have hget := List.mem_zipIdx_iff_getElem?.mp hmem
    obtain ⟨hs, ht⟩ := List.getElem?_zip_eq_some.mp hget
    simp only [Bool.and_eq_true, Bool.not_eq_true', Option.ite_none_right_eq_some] at hsome
    obtain ⟨⟨hout, hyields⟩, hij⟩ := hsome
    obtain rfl := Option.some.inj hij
    exact ⟨s, text, hs, ht, hout, hyields⟩
  · rintro ⟨s, text, hs, ht, hout, hyields⟩
    refine ⟨((s, text), i), List.mem_zipIdx_iff_getElem?.mpr ?_, by simp [hout, hyields]⟩
    exact List.getElem?_zip_eq_some.mpr ⟨hs, ht⟩

/-- what a statement yields and what it holds say whether it has an output -/
theorem Shaped.statement_eq (h : n.Shaped) {i : Nat} {s : Statement} {text : String}
    (hs : n.statements[i]? = some s) (ht : n.statementTexts[i]? = some text) :
    (if i ∈ n.heldOutputs then ⟨s.lineCount, true⟩ else ⟨s.lineCount, Statement.yields text⟩) =
      s := by
  by_cases hmem : i ∈ n.heldOutputs
  · obtain ⟨s', _, hs', -, hout, -⟩ := (mem_heldOutputs i).mp hmem
    rw [hs] at hs'
    obtain rfl := Option.some.inj hs'
    rw [if_pos hmem, ← hout]
  · have hyields : s.hasOutput = Statement.yields text := by
      rcases h.output i s text hs ht with heq | ⟨hout, -⟩
      · exact heq
      · cases hy : Statement.yields text with
        | true => exact hout
        | false => exact absurd ((mem_heldOutputs i).mpr ⟨s, text, hs, ht, hout, hy⟩) hmem
    rw [if_neg hmem, ← hyields]

/-- a statement, the lines that it takes, and its text -/
theorem Shaped.statement_at (h : n.Shaped) (i : Nat) :
    n.statements[i]? = none ∧
        (pieces (Statement.group (n.lines.map Line.text)) (n.lines.map Line.text))[i]? = none ∨
      ∃ s piece, n.statements[i]? = some s ∧
        (pieces (Statement.group (n.lines.map Line.text)) (n.lines.map Line.text))[i]? =
          some piece ∧
        n.statementTexts[i]? = some (Text.joinLines piece) ∧ piece.length = s.lineCount := by
  have htexts := statementTexts_of_groups h.groups
  generalize hpieces : pieces (Statement.group (n.lines.map Line.text)) (n.lines.map Line.text)
    = groups at htexts
  have hcounts : n.statements.map Statement.lineCount = groups.map List.length := by
    rw [h.groups, ← hpieces, map_length_group]
  have hcount : (n.statements[i]?).map Statement.lineCount = (groups[i]?).map List.length := by
    rw [← List.getElem?_map, hcounts, List.getElem?_map]
  cases hs : n.statements[i]? with
  | none =>
    rw [hs, Option.map_none, eq_comm, Option.map_eq_none_iff] at hcount
    exact .inl ⟨rfl, hcount⟩
  | some s =>
    rw [hs, Option.map_some, eq_comm, Option.map_eq_some_iff] at hcount
    obtain ⟨piece, hpiece, hlength⟩ := hcount
    refine .inr ⟨s, piece, rfl, hpiece, ?_, hlength⟩
    rw [htexts, List.getElem?_map, hpiece, Option.map_some]

/-- the statements of a node are those that its lines yield, with the held outputs -/
theorem Shaped.statements_eq (h : n.Shaped) :
    n.heldOutputs.foldl hold (regroup []
      (pieces (Statement.group (n.lines.map Line.text)) (n.lines.map Line.text))) =
      n.statements := by
  refine List.ext_getElem? fun i => ?_
  rw [getElem?_foldl_hold, getElem?_regroup_nil, Option.map_map]
  rcases h.statement_at i with ⟨hs, hpiece⟩ | ⟨s, piece, hs, hpiece, htext, hlength⟩
  · rw [hpiece, hs]
    rfl
  · rw [hpiece, hs, Option.map_some, Option.some.injEq, ← h.statement_eq hs htext, ← hlength]
    rfl

/-! ## the node -/

theorem resize_replicate (count : Nat) :
    resize (List.replicate count none) count = List.replicate count none := by
  simp [resize]

/-- outputs that are held one after the other, in a node without wires -/
theorem foldl_holdOutput {m : Node} (hinputs : m.inputs = List.replicate (Line.total m.lines) none)
    (houtputs : m.outputs = outputsOf m.statements) (indices : List Nat) :
    indices.foldl holdOutput m = { m with
      statements := indices.foldl hold m.statements
      outputs := outputsOf (indices.foldl hold m.statements) } := by
  induction indices generalizing m with
  | nil =>
    rw [List.foldl_nil, List.foldl_nil, ← houtputs]
  | cons index indices ih =>
    have hinputs' : (m.holdOutput index).inputs = List.replicate (Line.total m.lines) none := by
      show resize m.inputs (Line.total m.lines) = _
      rw [hinputs, resize_replicate]
    rw [List.foldl_cons, ih hinputs' rfl, List.foldl_cons]
    show _ = ({ m with statements := _, outputs := _ } : Node)
    rw [show (m.holdOutput index).statements = hold m.statements index from rfl]
    simp only [holdOutput, refit, hinputs, resize_replicate]

end Node

namespace Saved

open Node

/-- outputs that can be held are held without a remark -/
theorem holdOutputs_eq (m : Node) (log : List LogLine) (held : List (Nat × Nat))
    (h : ∀ index ∈ held.map Prod.snd, ∃ text, m.statementTexts[index]? = some text ∧
      Statement.mayHold text = true) :
    holdOutputs m log held = ((held.map Prod.snd).foldl holdOutput m, log) := by
  induction held generalizing m with
  | nil => rfl
  | cons first rest ih =>
    obtain ⟨line, index⟩ := first
    rw [List.map_cons] at h
    obtain ⟨⟨text, htext, hmay⟩, hrest⟩ := List.forall_mem_cons.mp h
    have hk : m.keepOutput? index = some (m.holdOutput index) := by
      simp only [keepOutput?_eq, htext, hmay, if_true]
    rw [holdOutputs]
    simp only [hk]
    refine ih _ fun i hi => ?_
    rw [statementTexts_holdOutput]
    exact hrest i hi

/-- what a text makes of a new node -/
theorem ofText_eq {text : String} {texts : List String} (h : Text.splitLines text = texts)
    (x y : Single) :
    (Node.ofText text).moveTo x y =
      ⟨x, y, texts.map lineOf, regroup [] (pieces (Statement.group texts) texts),
        List.replicate (Line.total (texts.map lineOf)) none,
        outputsOf (regroup [] (pieces (Statement.group texts) texts))⟩ := by
  simp [Node.ofText, Node.setText, Node.moveTo, refit, resize, h]

/-- the text of a node and its held outputs give it back, unwired -/
theorem holdOutputs_rebuild {n : Node} (h : n.Shaped)
    (hreturn : ∀ line ∈ n.lines, line.text.toList.getLast? ≠ some '\r') (log : List LogLine)
    (held : List (Nat × Nat)) (hheld : held.map Prod.snd = n.heldOutputs) :
    holdOutputs ((Node.ofText (Text.joinLines (n.lines.map Line.text))).moveTo n.x n.y) log held =
      (n.unwired, log) := by
  obtain ⟨texts, hne, hnewline, hlines⟩ := h.lines
  have htexts : n.lines.map Line.text = texts := by rw [hlines, map_text_lineOf]
  have hsplit : Text.splitLines (Text.joinLines texts) = texts := by
    refine Text.splitLines_joinLines_of_ne hne hnewline fun text htext => ?_
    rw [← htexts] at htext
    obtain ⟨line, hline, rfl⟩ := List.mem_map.mp htext
    exact hreturn line hline
  have hstatements := h.statements_eq
  have hgroups := h.groups
  rw [htexts] at hstatements hgroups
  have hcounts : (regroup [] (pieces (Statement.group texts) texts)).map Statement.lineCount =
      n.statements.map Statement.lineCount := by
    rw [map_lineCount_regroup, hgroups, map_length_group]
  rw [htexts, ofText_eq hsplit, holdOutputs_eq, foldl_holdOutput rfl rfl, hheld]
  · -- every field is that of the node
    simp only [hstatements, ← h.outputs, ← hlines, ← h.inputs]
    rfl
  · intro index hindex
    rw [hheld] at hindex
    obtain ⟨s, text, hs, htext, hout, hyields⟩ := (mem_heldOutputs index).mp hindex
    refine ⟨text, (congrArg (·[index]?) (statementTexts_congr hlines.symm hcounts)).trans htext, ?_⟩
    rcases h.output index s text hs htext with heq | ⟨-, hmay⟩
    · rw [hout, hyields] at heq
      cases heq
    · exact hmay

end Saved

end Dataflow
