import Mathlib.Data.List.Induction
import Dataflow.Proofs.Coherence
import Dataflow.Proofs.Shape

/-!
# Outputs over the history of a node

A node begins with a text; then its text is set and outputs are kept, in any order (`Node.Edit`).

* `Statement.texts`        the texts of the statements that a text has, at their places;
* `Node.hasOutput_edit`    what one edit does to the output of a place: it gives one (`Edit.Gives`),
                           or it leaves one that was there (`Edit.Spares`);
* `Node.hasOutput_after`   what a history does: some edit gave the output, and every later text left
                           it there.

A place outlives the statements in it: when a text has fewer statements its output is gone, and a
later text has to give it again.
-/

namespace Dataflow

namespace Statement

/-- the texts of the statements of a text -/
def texts (text : String) : List String :=
  (Node.pieces (group (Text.splitLines text)) (Text.splitLines text)).map Text.joinLines

/-- there is a statement in this place, and it yields a value -/
def YieldsAt (text : String) (place : Nat) : Prop :=
  ∃ s, (texts text)[place]? = some s ∧ yields s = true

/-- there is a statement in this place, and it is blank or an assignment without a value -/
def MayHoldAt (text : String) (place : Nat) : Prop :=
  ∃ s, (texts text)[place]? = some s ∧ mayHold s = true

end Statement

namespace Node

/-- what may be done to the text of a node and to the outputs that it holds -/
inductive Edit where
  | write (text : String)
  | keep (index : Nat)

/-- a request to keep an output may be refused -/
def edit (n : Node) : Edit → Node
  | .write text => n.setText text
  | .keep index => (n.keepOutput? index).getD n

/-- what a history makes of a node without any text -/
def after (history : List Edit) : Node :=
  history.foldl edit ⟨.zero false, .zero false, [], [], [], []⟩

namespace Edit

/-- the edit gives a place an output: by a text alone, or as a request that is granted -/
def Gives (n : Node) (place : Nat) : Edit → Prop
  | .write text => Statement.YieldsAt text place
  | .keep index => index = place ∧ ∃ n', n.keepOutput? index = some n'

/-- the edit leaves the output of a place where it is -/
def Spares (place : Nat) : Edit → Prop
  | .write text => Statement.MayHoldAt text place
  | .keep _ => True

/-- the text of a node after the edit -/
def textAfter (before : String) : Edit → String
  | .write text => text
  | .keep _ => before

end Edit

def HasOutput (n : Node) (place : Nat) : Prop :=
  ∃ s, n.statements[place]? = some s ∧ s.hasOutput = true

variable {n : Node} {place : Nat}

theorem Shaped.mem_outputs_iff (h : n.Shaped) : place ∈ n.outputs ↔ n.HasOutput place := by
  rw [h.outputs, mem_outputsOf]
  rfl

/-! ## texts -/

theorem statements_setText (n : Node) (text : String) :
    (n.setText text).statements = regroup n.statements
      (pieces (Statement.group (Text.splitLines text)) (Text.splitLines text)) := rfl

theorem hasOutput_setText (n : Node) (text : String) (place : Nat) :
    (n.setText text).HasOutput place ↔
      Statement.YieldsAt text place ∨
        n.HasOutput place ∧ Statement.MayHoldAt text place := by
  unfold HasOutput Statement.YieldsAt Statement.MayHoldAt Statement.texts
  rw [statements_setText, getElem?_regroup, List.getElem?_map]
  cases (pieces (Statement.group (Text.splitLines text)) (Text.splitLines text))[place]? with
  | none => simp
  | some piece =>
    cases n.statements[place]? with
    | none => simp
    | some s => cases s.hasOutput <;> simp [or_comm]

theorem statementTexts_setText (n : Node) (text : String) :
    (n.setText text).statementTexts = Statement.texts text := by
  have hlines : (n.setText text).lines.map Line.text = Text.splitLines text :=
    map_text_lineOf (Text.splitLines text)
  rw [statementTexts_of_groups (Shaped.setText n text).groups, hlines]
  rfl

/-- the second of two equal texts finds the outputs that it would hold -/
theorem regroup_regroup (previous : List Statement) (groups : List (List String)) :
    regroup (regroup previous groups) groups = regroup previous groups := by
  refine List.ext_getElem? fun i => ?_
  rw [getElem?_regroup, getElem?_regroup]
  cases groups[i]? with
  | none => rfl
  | some piece =>
    simp only [Option.map_some, Option.getD_some]
    generalize (previous[i]?.map Statement.hasOutput).getD false = had
    cases had <;> cases Statement.mayHold (Text.joinLines piece) <;>
      cases Statement.yields (Text.joinLines piece) <;> rfl

theorem resize_of_length {inputs : List (Option Source)} {count : Nat}
    (h : inputs.length = count) : resize inputs count = inputs := by
  rw [resize, ← h, Nat.sub_self, List.take_length, List.replicate_zero, List.append_nil]

theorem setText_setText (n : Node) (text : String) :
    (n.setText text).setText text = n.setText text := by
  have hinputs : (n.setText text).inputs.length =
      Line.total ((Text.splitLines text).map lineOf) := length_inputs_refit _
  have hstatements := regroup_regroup n.statements
    (pieces (Statement.group (Text.splitLines text)) (Text.splitLines text))
  rw [← statements_setText] at hstatements
  show ({ n.setText text with
    lines := (Text.splitLines text).map lineOf
    statements := regroup (n.setText text).statements _ } : Node).refit = n.setText text
  rw [hstatements, refit]
  show ({ n.setText text with
    inputs := resize (n.setText text).inputs (Line.total ((Text.splitLines text).map lineOf)) } :
      Node) = n.setText text
  rw [resize_of_length hinputs]

/-! ## requests -/

theorem exists_keepOutput?_iff {index : Nat} :
    (∃ n', n.keepOutput? index = some n') ↔
      ∃ text, n.statementTexts[index]? = some text ∧ Statement.mayHold text = true := by
  constructor
  · rintro ⟨n', h⟩
    exact (keepOutput?_some h).1
  · rintro ⟨text, htext, hmay⟩
    refine ⟨n.holdOutput index, ?_⟩
    simp only [keepOutput?_eq, htext, hmay, if_true]

theorem length_statementTexts (n : Node) : n.statementTexts.length = n.statements.length := by
  rw [statementTexts, statementLines, List.length_map, length_pieces, List.length_map]

theorem hasOutput_keep (n : Node) (index place : Nat) :
    (n.edit (.keep index)).HasOutput place ↔
      (Edit.keep index).Gives n place ∨ n.HasOutput place := by
  cases hk : n.keepOutput? index with
  | none =>
    have hedit : n.edit (.keep index) = n := by rw [edit, hk, Option.getD_none]
    have hgives : ¬(Edit.keep index).Gives n place := by
      rintro ⟨-, n', hn'⟩
      rw [hk] at hn'
      cases hn'
    rw [hedit, or_iff_right hgives]
  | some n' =>
    obtain ⟨⟨text, htext, -⟩, rfl⟩ := keepOutput?_some hk
    have hedit : n.edit (.keep index) = n.holdOutput index := by rw [edit, hk, Option.getD_some]
    have hgives : (Edit.keep index).Gives n place ↔ index = place :=
      and_iff_left ⟨_, hk⟩
    -- a statement whose text is known is there
    have hlt : index < n.statements.length := by
      rw [← length_statementTexts]
      exact (List.getElem?_eq_some_iff.mp htext).1
    have hstatements : (n.holdOutput index).statements = hold n.statements index := rfl
    rw [hedit, hgives, HasOutput, HasOutput, hstatements, getElem?_hold]
    by_cases hplace : index = place
    · obtain rfl := hplace
      rw [List.getElem?_eq_getElem hlt, Option.map_some, if_pos rfl]
      exact iff_of_true ⟨_, rfl, rfl⟩ (.inl rfl)
    · have hsame : (fun s : Statement => if place = index then { s with hasOutput := true } else s) =
          id := funext fun s => if_neg (Ne.symm hplace)
      rw [hsame, Option.map_id, or_iff_right hplace]
      rfl

/-! ## histories -/

/-- an output comes from the edit, or was there and is left there -/
theorem hasOutput_edit (n : Node) (e : Edit) (place : Nat) :
    (n.edit e).HasOutput place ↔ e.Gives n place ∨ n.HasOutput place ∧ e.Spares place := by
  cases e with
  | write text => exact hasOutput_setText n text place
  | keep index =>
    rw [hasOutput_keep]
    exact or_congr_right (and_true _).to_iff.symm

theorem after_concat (history : List Edit) (e : Edit) :
    after (history ++ [e]) = (after history).edit e := by
  rw [after, List.foldl_append]
  rfl

/-- an output comes from one of the edits, and no later one takes it away -/
theorem hasOutput_after (history : List Edit) (place : Nat) :
    (after history).HasOutput place ↔
      ∃ front e back, history = front ++ e :: back ∧ e.Gives (after front) place ∧
        ∀ later ∈ back, later.Spares place := by
  induction history using List.reverseRecOn with
  | nil =>
    constructor
    · rintro ⟨s, hs, -⟩
      cases hs
    · rintro ⟨front, e, back, hsplit, -, -⟩
      simp at hsplit
  | append_singleton history last ih =>
    rw [after_concat, hasOutput_edit, ih]
    constructor
    · rintro (hgives | ⟨⟨front, e, back, rfl, hgives, hspares⟩, hlast⟩)
      · exact ⟨history, last, [], rfl, hgives, fun _ h => nomatch h⟩
      · refine ⟨front, e, back ++ [last], by simp, hgives, fun later hlater => ?_⟩
        rcases List.mem_append.mp hlater with hback | hend
        · exact hspares later hback
        · rwa [List.mem_singleton.mp hend]
    · rintro ⟨front, e, back, hsplit, hgives, hspares⟩
      -- the giving edit is the last one, or it stands in the history before it
      rcases List.eq_nil_or_concat back with rfl | ⟨back, later, rfl⟩
      · obtain ⟨rfl, hlast⟩ := List.append_inj' hsplit rfl
        obtain rfl := List.singleton_inj.mp hlast
        exact .inl hgives
      · rw [List.concat_eq_append, ← List.cons_append, ← List.append_assoc] at hsplit
        obtain ⟨rfl, hlast⟩ := List.append_inj' hsplit rfl
        obtain rfl := List.singleton_inj.mp hlast
        rw [List.concat_eq_append] at hspares
        refine .inr ⟨⟨front, e, back, rfl, hgives, fun later hlater => ?_⟩, ?_⟩
        · exact hspares later (List.mem_append_left _ hlater)
        · exact hspares last (List.mem_append_right _ List.mem_cons_self)

/-- a node that began with a text is shaped, and its statements have the texts of its last text -/
theorem after_cons_write (first : String) (edits : List Edit) :
    (after (.write first :: edits)).Shaped ∧
      (after (.write first :: edits)).statementTexts =
        Statement.texts (edits.foldl Edit.textAfter first) := by
  induction edits using List.reverseRecOn with
  | nil => exact ⟨Shaped.setText _ first, statementTexts_setText _ first⟩
  | append_singleton edits e ih =>
    obtain ⟨hshaped, htexts⟩ := ih
    rw [← List.cons_append, after_concat, List.foldl_append]
    cases e with
    | write text => exact ⟨Shaped.setText _ text, statementTexts_setText _ text⟩
    | keep index =>
      show ((after (.write first :: edits)).edit (.keep index)).Shaped ∧ _ =
        Statement.texts (edits.foldl Edit.textAfter first)
      rw [edit]
      cases hk : (after (.write first :: edits)).keepOutput? index with
      | none => exact ⟨hshaped, htexts⟩
      | some n' =>
        refine ⟨hshaped.keepOutput hk, ?_⟩
        rw [Option.getD_some, (keepOutput?_some hk).2, statementTexts_holdOutput, htexts]

/-- A statement has an output if and only if an edit gave it one, by its text alone or as a request
that was granted, and in every later text there was a statement in its place and it was blank or an
assignment without a value.  Requests are granted for just such statements of the current text, and
a text that is set twice changes nothing the second time. -/
theorem mem_outputs_foldl_edit (first : String) (edits : List Edit) (place : Nat) :
    (place ∈ (edits.foldl edit (.ofText first)).outputs ↔
        ∃ front e back, .write first :: edits = front ++ e :: back ∧
          e.Gives (after front) place ∧
          ∀ text, .write text ∈ back → Statement.MayHoldAt text place) ∧
      ((∃ n', (edits.foldl edit (.ofText first)).keepOutput? place = some n') ↔
        Statement.MayHoldAt (edits.foldl Edit.textAfter first) place) ∧
      ∀ text, ((edits.foldl edit (.ofText first)).setText text).setText text =
        (edits.foldl edit (.ofText first)).setText text := by
  obtain ⟨hshaped, htexts⟩ := after_cons_write first edits
  have hafter : edits.foldl edit (.ofText first) = after (.write first :: edits) := rfl
  have hspares : ∀ back : List Edit, (∀ later ∈ back, later.Spares place) ↔
      ∀ text, .write text ∈ back → Statement.MayHoldAt text place := by
    refine fun back => ⟨fun h text htext => h _ htext, fun h later hlater => ?_⟩
    cases later with
    | write text => exact h text hlater
    | keep index => trivial
  rw [hafter]
  refine ⟨?_, ?_, setText_setText _⟩
  · rw [hshaped.mem_outputs_iff, hasOutput_after]
    simp only [hspares]
  · rw [exists_keepOutput?_iff, htexts]
    rfl

end Node

end Dataflow
