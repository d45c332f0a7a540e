import Dataflow.Proofs.Built
import Dataflow.Proofs.Graph
import Dataflow.Proofs.History
import Dataflow.Proofs.Scanning

/-!
# A node that is given its own text

A node joins its lines by newlines.  When they are cut apart again a carriage return at the end of a
line is taken for a part of the line break, so a line that has one loses it.

* `Text.Thinned`            a text without some of the carriage returns at the ends of its lines;
* `Text.thinned_joinLines`  such is the text of the lines that have lost theirs;
* `Statement.target?_thinned`, `yields_thinned`, `mayHold_thinned`   no statement is told from
                            another one by these carriage returns, nor is a group of lines
                            (`Statement.group_map_withoutReturn`);
* `Node.Shaped.regroup_self`   the lines of a node give the statements that it has, held outputs
                            included;
* `Node.setText_text`       a node that is given its own text keeps everything but the carriage
                            returns at the ends of its lines.
-/

namespace Dataflow

/-! ## carriage returns at the ends of lines -/

namespace Text

/-- the second text is the first one without some of the carriage returns that stand at the end of a
line -/
inductive Thinned : List Char → List Char → Prop where
  | nil : Thinned [] []
  | keep (c : Char) {text thin : List Char} (h : Thinned text thin) :
    Thinned (c :: text) (c :: thin)
  | drop {text thin : List Char} (hend : ∀ c ∈ text.head?, c = '\n') (h : Thinned text thin) :
    Thinned ('\r' :: text) thin

namespace Thinned

variable {text thin : List Char} {p : Char → Bool}

theorem append (front : List Char) (h : Thinned text thin) :
    Thinned (front ++ text) (front ++ thin) := by
  induction front with
  | nil => exact h
  | cons c front ih => exact .keep c ih

/-- a line in front of others, or of nothing -/
theorem line (line : List Char) (hend : ∀ c ∈ text.head?, c = '\n') (h : Thinned text thin) :
    Thinned (line ++ text) (dropReturn line ++ thin) := by
  unfold dropReturn
  split
  · next hlast =>
    obtain ⟨front, rfl⟩ := List.getLast?_eq_some_iff.mp hlast
    rw [List.dropLast_concat, List.append_assoc]
    exact (Thinned.drop hend h).append front
  · exact h.append line

theorem head?_eq (h : Thinned text thin) (hne : text.head? ≠ some '\r') :
    thin.head? = text.head? := by
  cases h with
  | nil => rfl
  | keep c h => rfl
  | drop hend h => exact absurd rfl hne

/-- behind a carriage return that is dropped the line is at its end -/
theorem head?_newline (h : Thinned text thin) (hend : ∀ c ∈ text.head?, c = '\n') :
    ∀ c ∈ thin.head?, c = '\n' := by
  have hne : text.head? ≠ some '\r' := fun hr => absurd (hend '\r' hr) (by decide)
  rw [h.head?_eq hne]
  exact hend

theorem drop_one (h : Thinned text thin) (hne : text.head? ≠ some '\r') :
    Thinned (text.drop 1) (thin.drop 1) := by
  cases h with
  | nil => exact .nil
  | keep c h => exact h
  | drop hend h => exact absurd rfl hne

theorem isBlankText_eq (h : Thinned text thin) : isBlankText thin = isBlankText text := by
  induction h with
  | nil => rfl
  | keep c h ih =>
    show (isBlank c && isBlankText _) = (isBlank c && isBlankText _)
    rw [ih]
  | drop hend h ih => exact ih

/-- characters of a kind that goes on over carriage returns -/
theorem dropWhile (hp : p '\r' = true) (h : Thinned text thin) :
    Thinned (text.dropWhile p) (thin.dropWhile p) := by
  induction h with
  | nil => exact .nil
  | keep c h ih =>
    cases hc : p c with
    | true =>
      rw [List.dropWhile_cons_of_pos hc, List.dropWhile_cons_of_pos hc]
      exact ih
    | false =>
      rw [List.dropWhile_cons_of_neg (by simp [hc]), List.dropWhile_cons_of_neg (by simp [hc])]
      exact .keep c h
  | drop hend h ih =>
    rw [List.dropWhile_cons_of_pos hp]
    exact ih

/-- characters of a kind that ends at the end of a line -/
theorem takeWhile_dropWhile (hr : p '\r' = false) (hn : p '\n' = false) (h : Thinned text thin) :
    thin.takeWhile p = text.takeWhile p ∧ Thinned (text.dropWhile p) (thin.dropWhile p) := by
  induction h with
  | nil => exact ⟨rfl, .nil⟩
  | keep c h ih =>
    cases hc : p c with
    | true =>
      rw [List.takeWhile_cons_of_pos hc, List.takeWhile_cons_of_pos hc,
        List.dropWhile_cons_of_pos hc, List.dropWhile_cons_of_pos hc, ih.1]
      exact ⟨rfl, ih.2⟩
    | false =>
      have hnot : ¬ p c = true := by simp [hc]
      rw [List.takeWhile_cons_of_neg hnot, List.takeWhile_cons_of_neg hnot,
        List.dropWhile_cons_of_neg hnot, List.dropWhile_cons_of_neg hnot]
      exact ⟨rfl, .keep c h⟩
  | @drop text thin hend h ih =>
    have hnot : ¬ p '\r' = true := by simp [hr]
    have hthin : ∀ c ∈ thin.head?, p c = false := fun c hc => by
      rw [h.head?_newline hend c hc, hn]
    obtain ⟨htake, hdrop⟩ : ([] ++ thin).takeWhile p = [] ∧ ([] ++ thin).dropWhile p = thin :=
      cut_run (List.forall_mem_nil _) hthin
    rw [List.nil_append] at htake hdrop
    rw [List.takeWhile_cons_of_neg hnot, List.dropWhile_cons_of_neg hnot, htake, hdrop]
    exact ⟨rfl, .drop hend h⟩

/-- a name in front is the same, and what follows it is thinned -/
theorem leadingName?_eq (h : Thinned text thin) :
    leadingName? text = none ∧ leadingName? thin = none ∨
      ∃ name rest rest', leadingName? text = some (name, rest) ∧
        leadingName? thin = some (name, rest') ∧ Thinned rest rest' := by
  cases h with
  | nil => exact .inl ⟨rfl, rfl⟩
  | @keep c text thin h =>
    obtain ⟨htake, hdrop⟩ := h.takeWhile_dropWhile (p := isNamePart) rfl rfl
    simp only [leadingName?]
    split
    · exact .inr ⟨_, _, _, rfl, by rw [htake], hdrop⟩
    · exact .inl ⟨rfl, rfl⟩
  | drop hend h =>
    have hthin : leadingName? thin = none := by
      cases thin with
      | nil => rfl
      | cons c rest =>
        obtain rfl := h.head?_newline hend c rfl
        rfl
    exact .inl ⟨rfl, hthin⟩

end Thinned

theorem thinned_intercalate (lines : List String) :
    Thinned (['\n'].intercalate (lines.map String.toList))
      (['\n'].intercalate ((lines.map withoutReturn).map String.toList)) := by
  induction lines with
  | nil => exact .nil
  | cons line rest ih =>
    have hline : (withoutReturn line).toList = dropReturn line.toList := String.toList_ofList
    cases rest with
    | nil =>
      have h := Thinned.nil.line line.toList (by simp)
      rw [List.append_nil, List.append_nil] at h
      rw [List.map_singleton, List.map_singleton, List.map_singleton, List.intercalate_singleton,
        List.intercalate_singleton, hline]
      exact h
    | cons next rest =>
      simp only [List.map_cons, List.intercalate_cons_cons, List.append_assoc,
        List.singleton_append, hline] at ih ⊢
      refine (Thinned.keep '\n' ih).line line.toList fun c hc => ?_
      exact (Option.some.inj hc).symm

/-- lines that lose the carriage returns at their ends -/
theorem thinned_joinLines (lines : List String) :
    Thinned (joinLines lines).toList (joinLines (lines.map withoutReturn)).toList := by
  rw [joinLines, joinLines, String.toList_ofList, String.toList_ofList]
  exact thinned_intercalate lines

end Text

/-! ## statements -/

namespace Statement

variable {text thin : String}

theorem isBlank_thinned (h : Text.Thinned text.toList thin.toList) : isBlank thin = isBlank text :=
  h.isBlankText_eq

theorem target?_thinned (h : Text.Thinned text.toList thin.toList) :
    target? thin = target? text := by
  have htrim := h.dropWhile (p := Text.isBlank) rfl
  unfold target? Text.trimStart
  rcases htrim.leadingName?_eq with ⟨hnone, hnone'⟩ | ⟨name, rest, rest', hsome, hsome', hrest⟩
  · rw [hnone, hnone']
  · have hback := hrest.dropWhile (p := Text.isBlank) rfl
    -- what follows the white space is no carriage return
    have hhead := hback.head?_eq fun hr => by
      have hblank := Text.head?_dropWhile Text.isBlank rest '\r' hr
      cases hblank
    rw [hsome, hsome']
    simp only [hhead]

theorem yields_thinned (h : Text.Thinned text.toList thin.toList) : yields thin = yields text := by
  rw [yields, yields, isBlank_thinned h, target?_thinned h]

theorem isUnfinished_thinned (h : Text.Thinned text.toList thin.toList) :
    isUnfinished thin = isUnfinished text := by
  have hdrop := h.dropWhile (p := (· != '=')) rfl
  have hafter := hdrop.drop_one fun hr => by
    have hequals := Text.head?_dropWhile (· != '=') text.toList '\r' hr
    cases hequals
  rw [isUnfinished, isUnfinished, target?_thinned h, afterEquals, afterEquals,
    hafter.isBlankText_eq]

theorem mayHold_thinned (h : Text.Thinned text.toList thin.toList) :
    mayHold thin = mayHold text := by
  rw [mayHold, mayHold, isBlank_thinned h, isUnfinished_thinned h]

/-- a carriage return is no bracket -/
theorem depthAfter_withoutReturn (depth : Nat) (line : String) :
    depthAfter depth (Text.withoutReturn line) = depthAfter depth line := by
  rw [depthAfter, depthAfter, Text.withoutReturn, String.toList_ofList, Text.dropReturn]
  split
  · next hlast =>
    obtain ⟨front, hfront⟩ := List.getLast?_eq_some_iff.mp hlast
    rw [hfront, List.dropLast_concat, List.foldl_append]
    rfl
  · rfl

theorem groupFrom_map_withoutReturn (depth count : Nat) (lines : List String) :
    groupFrom depth count (lines.map Text.withoutReturn) = groupFrom depth count lines := by
  induction lines generalizing depth count with
  | nil => rfl
  | cons line rest ih =>
    rw [List.map_cons, groupFrom, groupFrom, depthAfter_withoutReturn, ih, ih]

theorem group_map_withoutReturn (lines : List String) :
    group (lines.map Text.withoutReturn) = group lines :=
  groupFrom_map_withoutReturn 0 0 lines

end Statement

/-! ## nodes -/

/-- a line without the carriage return at its end -/
def Line.withoutReturn (line : Line) : Line := { line with text := Text.withoutReturn line.text }

theorem Line.withoutReturn_eq_self_iff (line : Line) :
    line.withoutReturn = line ↔ line.text.toList.getLast? ≠ some '\r' := by
  constructor
  · intro h hlast
    have htext := congrArg (fun l : Line => l.text.toList) h
    simp only [Line.withoutReturn, Text.withoutReturn, String.toList_ofList, Text.dropReturn,
      if_pos hlast] at htext
    have hlength := congrArg List.length htext
    have hne : line.text.toList ≠ [] := by
      rintro hnil
      rw [hnil] at hlast
      cases hlast
    have hpos := List.length_pos_iff.mpr hne
    rw [List.length_dropLast] at hlength
    omega
  · intro h
    rw [Line.withoutReturn, Text.withoutReturn_of_ne h]

namespace Node

variable {n : Node}

theorem lineOf_withoutReturn (text : String) :
    lineOf (Text.withoutReturn text) = (lineOf text).withoutReturn := by
  have hcount : Statement.countInputs (Text.withoutReturn text) = Statement.countInputs text := by
    rw [Statement.countInputs, Text.withoutReturn, String.toList_ofList,
      Text.count_dropReturn (by decide)]
    rfl
  rw [lineOf, hcount]
  rfl

/-- the carriage returns of a group of lines change nothing in its statement -/
theorem regroup_withoutReturn (previous : List Statement) (groups : List (List String)) :
    regroup previous (groups.map (List.map Text.withoutReturn)) = regroup previous groups := by
  induction groups generalizing previous with
  | nil => rfl
  | cons piece rest ih =>
    have hthin := Text.thinned_joinLines piece
    rw [List.map_cons, regroup, regroup, List.length_map, Statement.mayHold_thinned hthin,
      Statement.yields_thinned hthin, ih]

/-- the lines of a node give the statements that it has: an output that a text may hold is held -/
theorem Shaped.regroup_self (h : n.Shaped) :
    regroup n.statements
      (pieces (Statement.group (n.lines.map Line.text)) (n.lines.map Line.text)) =
      n.statements := by
  refine List.ext_getElem? fun i => ?_
  rw [getElem?_regroup]
  rcases h.statement_at i with ⟨hs, hpiece⟩ | ⟨s, piece, hs, hpiece, htext, hlength⟩
  · rw [hpiece, hs]
    rfl
  · have hfits := h.output i s _ hs htext
    rw [hpiece, hs, Option.map_some, Option.map_some, Option.getD_some, hlength]
    obtain ⟨count, hasOutput⟩ := s
    rcases hfits with hyields | ⟨hhas, hmay⟩
    · dsimp only at hyields ⊢
      rw [hyields]
      cases Statement.yields (Text.joinLines piece) <;> simp
    · dsimp only at hhas ⊢
      simp [hhas, hmay]

/-- a node that is given its own text, wires included -/
theorem Shaped.setText_own (h : n.Shaped) :
    n.setText n.text = { n with lines := n.lines.map Line.withoutReturn } := by
  obtain ⟨texts, hne, hnewline, hlines⟩ := h.lines
  have htexts : n.lines.map Line.text = texts := by rw [hlines, map_text_lineOf]
  have hsplit : Text.splitLines n.text = texts.map Text.withoutReturn := by
    rw [text, textOf, htexts, Text.splitLines_joinLines hne hnewline]
  have hnew : (texts.map Text.withoutReturn).map lineOf = n.lines.map Line.withoutReturn := by
    rw [hlines, List.map_map, List.map_map]
    exact List.map_congr_left fun text _ => lineOf_withoutReturn text
  have hstatements : regroup n.statements (pieces
      (Statement.group (texts.map Text.withoutReturn)) (texts.map Text.withoutReturn)) =
      n.statements := by
    rw [Statement.group_map_withoutReturn, pieces_map, regroup_withoutReturn, ← htexts,
      h.regroup_self]
  have htotal : Line.total (n.lines.map Line.withoutReturn) = Line.total n.lines := by
    rw [total_eq_sum, total_eq_sum, List.map_map]
    rfl
  show ({ n with
    lines := (Text.splitLines n.text).map lineOf
    statements := regroup n.statements _ } : Node).refit = _
  rw [hsplit, hnew, hstatements, Node.refit]
  show ({ n with
    lines := n.lines.map Line.withoutReturn
    inputs := resize n.inputs (Line.total (n.lines.map Line.withoutReturn))
    outputs := outputsOf n.statements } : Node) = _
  rw [htotal, resize_of_length h.inputs, ← h.outputs]

/-- **A node that is given its own text** keeps its statements, with the outputs that they hold, its
inputs with their wires, and its outputs; each of its lines loses a carriage return from its end.
So nothing changes just if no line ends in a carriage return. -/
theorem setText_text (h : n.Built) :
    n.setText n.text = { n with lines := n.lines.map Line.withoutReturn } ∧
      (n.setText n.text = n ↔ ∀ line ∈ n.lines, line.text.toList.getLast? ≠ some '\r') := by
  have heq := h.shaped.setText_own
  refine ⟨heq, ?_⟩
  have hlines : n.setText n.text = n ↔ n.lines.map Line.withoutReturn = n.lines.map id := by
    rw [heq, List.map_id]
    exact ⟨fun h => congrArg Node.lines h, fun h => by rw [h]⟩
  rw [hlines, List.map_inj_left]
  exact forall₂_congr fun line _ => line.withoutReturn_eq_self_iff

/-- an output that is held in a line with a carriage return at its end -/
theorem setText_text_held :
    let n := (ofText "a\r\r\n$").setText "a =\r\r\n$"
    n.Built ∧ n.lines = [⟨"a =\r", 0⟩, ⟨"$", 1⟩] ∧ n.heldOutputs = [0] ∧
      n.setText n.text = { n with lines := [⟨"a =", 0⟩, ⟨"$", 1⟩] } ∧ n.setText n.text ≠ n := by
  intro n
  have hbuilt : n.Built := (Built.ofText _).setText _
  have hlines : n.lines = [⟨"a =\r", 0⟩, ⟨"$", 1⟩] := by decide +kernel
  have hheld : n.heldOutputs = [0] := by decide +kernel
  obtain ⟨htext, hsame⟩ := setText_text hbuilt
  refine ⟨hbuilt, hlines, hheld, ?_, fun h => ?_⟩
  · rw [htext, hlines]
    rfl
  · exact hsame.mp h ⟨"a =\r", 0⟩ (hlines ▸ List.mem_cons_self) (by decide)

/-- no newline is anywhere, and the text of the node is not the same again -/
theorem setText_text_ne :
    let n := ofText "1\r\r"
    n.Built ∧ n.lines = [⟨"1\r", 0⟩] ∧ (n.setText n.text).lines = [⟨"1", 0⟩] ∧
      n.setText n.text ≠ n :=
  ⟨.ofText _, by decide +kernel⟩

end Node

end Dataflow
