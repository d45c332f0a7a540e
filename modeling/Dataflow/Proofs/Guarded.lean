import Dataflow.Proofs.Coherence

/-!
# A pass stays within its tables

The tables of a pass are the marks of the walk over the wires, the results by slot, and for every
node its lines with their messages.  A guarded pass looks at every index before it uses it, and ends
without a result where one lies outside of its table.

* `Diagram.guardedWalk`, `guardedSchedule`   the walk and the schedule with guarded marks;
* `Diagram.guardedEvaluate`                  the pass with guarded results and lines as well;
* `Diagram.guardedEvaluate_eq`               none of the guards ever stops it.
-/

namespace Dataflow

namespace Node

/-- the lines of every statement, which come behind those of the statements before it, are lines of
the node -/
def LinesWithin (n : Node) : Prop :=
  ∀ k < n.statements.length,
    ((n.statements.take (k + 1)).map Statement.lineCount).sum ≤ n.lines.length

instance (n : Node) : Decidable n.LinesWithin :=
  inferInstanceAs (Decidable (∀ k < n.statements.length,
    ((n.statements.take (k + 1)).map Statement.lineCount).sum ≤ n.lines.length))

theorem Coherent.linesWithin {n : Node} (h : n.Coherent) : n.LinesWithin := by
  intro k _
  rw [← h.total]
  conv_rhs => rw [← List.take_append_drop (k + 1) n.statements, List.map_append, List.sum_append]
  exact Nat.le_add_right _ _

end Node

namespace Diagram

variable {σ : Type} {d : Diagram} {root : Root} {sink : Sink σ} {pass : Nat}

/-! ## the walk -/

/-- the walk from the frames on, which stops at an index outside of the marks -/
def guardedWalk (d : Diagram) (progress : Array Progress) (order : Array Turn) :
    List Frame → Option (Array Progress × Array Turn)
  | [] => some (progress, order)
  | ⟨slot, [], cyclic⟩ :: below =>
    if slot < progress.size then
      guardedWalk d (progress.setIfInBounds slot (.closed cyclic)) (order.push ⟨slot, cyclic⟩)
        (Frame.passOn cyclic below)
    else none
  | ⟨slot, none :: pending, cyclic⟩ :: below =>
    guardedWalk d progress order (⟨slot, pending, cyclic⟩ :: below)
  | ⟨slot, some source :: pending, cyclic⟩ :: below =>
    match d.node? source.node with
    | none => guardedWalk d progress order (⟨slot, pending, cyclic⟩ :: below)
    | some n =>
      match _h : progress[source.node]? with
      | some .untouched =>
        guardedWalk d (progress.setIfInBounds source.node .opened) order
          (⟨source.node, n.inputs, false⟩ :: ⟨slot, pending, cyclic⟩ :: below)
      | some .opened => guardedWalk d progress order (⟨slot, pending, true⟩ :: below)
      | some (.closed c) => guardedWalk d progress order (⟨slot, pending, cyclic || c⟩ :: below)
      | none => none
termination_by frames => (Progress.untouchedCount progress, Frame.size frames)
decreasing_by
  · exact lex_of_le (Progress.untouchedCount_set_le _ _ (by simp))
      (by rw [Frame.size_passOn, Frame.size]; omega)
  · exact lex_of_le (Nat.le_refl _) (by simp [Frame.size])
  · exact lex_of_le (Nat.le_refl _) (by simp [Frame.size])
  · exact Prod.Lex.left _ _ (Progress.untouchedCount_set_lt (by simp) _h)
  · exact lex_of_le (Nat.le_refl _) (by simp [Frame.size])
  · exact lex_of_le (Nat.le_refl _) (by simp [Frame.size])

/-- the walk from a node, unless it was come to before -/
def guardedWalkFrom (d : Diagram) (state : Array Progress × Array Turn) (start : Nat × Node) :
    Option (Array Progress × Array Turn) :=
  match state.1[start.1]? with
  | some .untouched =>
    d.guardedWalk (state.1.setIfInBounds start.1 .opened) state.2
      [⟨start.1, start.2.inputs, false⟩]
  | some _ => some state
  | none => none

def guardedSchedule (d : Diagram) : Option (List Turn) :=
  (d.existing.foldlM d.guardedWalkFrom (Array.replicate d.slotCount .untouched, #[])).map
    fun state => state.2.toList

theorem guardedWalk_eq {progress : Array Progress} {order : Array Turn} {frames : List Frame}
    (h : Walk.Sound d ⟨progress, order, frames⟩) :
    d.guardedWalk progress order frames = some (d.walk progress order frames) := by
  fun_induction d.walk progress order frames with
  | case1 => rw [guardedWalk]
  | case2 progress order slot cyclic below ih =>
    have hopen : progress[slot]? = some .opened := (h.opened slot).mpr (by simp)
    rw [guardedWalk, if_pos (Array.getElem?_eq_some_iff.mp hopen).1]
    exact ih (h.step .close)
  | case3 progress order slot pending cyclic below ih =>
    rw [guardedWalk]
    exact ih (h.step .unwired)
  | case4 progress order slot source pending cyclic below hn ih =>
    simp only [guardedWalk, hn]
    exact ih (h.step (.absent hn))
  | case5 progress order slot source pending cyclic below n hn hp ih =>
    simp only [guardedWalk, hn]
    split
    · exact ih (h.step (.enter hn hp))
    all_goals
      next hother => cases hp.symm.trans hother
  | case6 progress order slot source pending cyclic below n hn hp ih =>
    simp only [guardedWalk, hn]
    split
    case h_2 => exact ih (h.step (.back hn hp))
    all_goals
      next hother => cases hp.symm.trans hother
  | case7 progress order slot source pending cyclic below n hn c hp ih =>
    simp only [guardedWalk, hn]
    split
    case h_3 hsame =>
      obtain ⟨⟩ := hp.symm.trans hsame
      exact ih (h.step (.cross hn hp))
    all_goals
      next hother => cases hp.symm.trans hother
  | case8 progress order slot source pending cyclic below n hn hp ih =>
    -- an existing node lies within the marks
    have hlt : source.node < progress.size := h.size ▸ lt_slotCount_of_node? (by rw [hn]; rfl)
    exact absurd hlt (Nat.not_lt.mpr (Array.getElem?_eq_none_iff.mp hp))

/-- marks that are sound have a place for every node that exists -/
theorem guardedWalkFrom_eq {state : Array Progress × Array Turn}
    (h : Walk.Sound d ⟨state.1, state.2, []⟩) {start : Nat × Node}
    (hn : d.node? start.1 = some start.2) :
    d.guardedWalkFrom state start = some (d.walkFrom state start) := by
  have hlt : start.1 < state.1.size := h.size ▸ lt_slotCount_of_node? (by rw [hn]; rfl)
  unfold guardedWalkFrom walkFrom
  cases hp : state.1[start.1]? with
  | none => exact absurd hlt (Nat.not_lt.mpr (Array.getElem?_eq_none_iff.mp hp))
  | some p =>
    cases p with
    | untouched => exact guardedWalk_eq (h.enter hn hp rfl trivial)
    | _ => rfl

theorem foldlM_guardedWalkFrom {starts : List (Nat × Node)} {state : Array Progress × Array Turn}
    (h : Walk.Sound d ⟨state.1, state.2, []⟩) (hn : ∀ p ∈ starts, d.node? p.1 = some p.2) :
    starts.foldlM d.guardedWalkFrom state = some (starts.foldl d.walkFrom state) := by
  induction starts generalizing state with
  | nil => rfl
  | cons start rest ih =>
    obtain ⟨hstart, hrest⟩ := List.forall_mem_cons.mp hn
    rw [List.foldlM_cons, List.foldl_cons, guardedWalkFrom_eq h hstart]
    exact ih (Walk.sound_walkFrom h hstart).1 hrest

theorem guardedSchedule_eq (d : Diagram) : d.guardedSchedule = some d.schedule := by
  rw [guardedSchedule, foldlM_guardedWalkFrom (Walk.sound_start d) fun _ => mem_existing.mp]
  rfl

/-! ## the pass -/

/-- a turn, which is not taken where the slot lies outside of the results or a statement has lines
that the node has not -/
def guardedTurn (d : Diagram) (root : Root) (sink : Sink σ) (pass : Nat) (state : Results × σ)
    (turn : Turn) : Option (Results × σ) :=
  match d.node? turn.slot with
  | none => some state
  | some n =>
    if turn.slot < state.1.nodes.size ∧ n.LinesWithin then
      some (d.evaluateTurn root sink pass state turn)
    else none

/-- a pass, which ends without a result at an index outside of its table -/
def guardedEvaluate (d : Diagram) (root : Root) (sink : Sink σ) (pass : Nat) (earlier : Results)
    (host : σ) : Option (Results × σ) := do
  let turns ← d.guardedSchedule
  turns.foldlM (d.guardedTurn root sink pass) (earlier.reset d.slotCount, host)

theorem guardedTurn_eq {state : Results × σ} {turn : Turn}
    (hlines : ∀ n, d.node? turn.slot = some n → n.LinesWithin)
    (hlt : turn.slot < state.1.nodes.size) :
    d.guardedTurn root sink pass state turn = some (d.evaluateTurn root sink pass state turn) := by
  unfold guardedTurn
  cases hn : d.node? turn.slot with
  | none =>
    simp only [evaluateTurn, hn]
  | some n => exact if_pos ⟨hlt, hlines n hn⟩

/-- a turn keeps the number of slots, so later ones find theirs -/
theorem foldlM_guardedTurn {turns : List Turn} {state : Results × σ}
    (hlines : ∀ slot n, d.node? slot = some n → n.LinesWithin)
    (hlt : ∀ turn ∈ turns, turn.slot < state.1.nodes.size) :
    turns.foldlM (d.guardedTurn root sink pass) state =
      some (turns.foldl (d.evaluateTurn root sink pass) state) := by
  induction turns generalizing state with
  | nil => rfl
  | cons turn rest ih =>
    obtain ⟨hturn, hrest⟩ := List.forall_mem_cons.mp hlt
    rw [List.foldlM_cons, List.foldl_cons, guardedTurn_eq (hlines turn.slot) hturn]
    exact ih fun later hlater => (size_evaluateTurn state turn).symm ▸ hrest later hlater

/-- **No guard ever stops a pass** over a diagram whose nodes have the shapes of their texts: every
index lies within its table. -/
theorem guardedEvaluate_eq (h : d.AllShaped) (root : Root) (sink : Sink σ) (pass : Nat)
    (earlier : Results) (host : σ) :
    d.guardedEvaluate root sink pass earlier host =
      some (d.evaluate root sink pass earlier host) := by
  have hlt : ∀ turn ∈ d.schedule, turn.slot < (earlier.reset d.slotCount).nodes.size := by
    intro turn hturn
    have hsome := (d.scheduled.mem_iff turn.slot).mp (List.mem_map_of_mem hturn)
    exact lt_of_lt_of_eq (lt_slotCount_of_node? hsome) Array.size_replicate.symm
  rw [guardedEvaluate, guardedSchedule_eq]
  exact foldlM_guardedTurn (fun slot n hn => (h slot n hn).coherent.linesWithin) hlt

end Diagram

end Dataflow
