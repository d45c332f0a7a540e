import Dataflow.Proofs.Trace

/-!
# The statements of a pass, one after the other

* `Due.after`          what a statement leaves to the ones after it;
* `Due.concluded?`     the form of a statement whose expression came to a value, with that value;
* `Due.Ends`           the three ways in which a statement ends, with all that it leaves behind
                       (`Due.ends`): it is blank, it fails, or its value takes effect;
* `Along P`            `P` holds of every item and the items before it;
* `Diagram.due_induction`   what holds at every statement of a pass and at its end, from what holds
                       where a node begins, what a statement keeps and what a node hands on.

The scopes and the host go from node to node, the scope in force and the inputs do not.
-/

namespace Dataflow

variable {σ : Type}

/-! ## one statement -/

namespace Due

variable {root : Root} {sink : Sink σ} {due : Due σ}

/-- runs the statement -/
def run (root : Root) (sink : Sink σ) (due : Due σ) : Except Fault Value × Session σ :=
  runStatement root sink due.site due.text due.firstInput due.session

def outcome (root : Root) (sink : Sink σ) (due : Due σ) : Except Fault Value :=
  (due.run root sink).1

/-- what it leaves to the statements after it -/
def after (root : Root) (sink : Sink σ) (due : Due σ) : Session σ := (due.run root sink).2

/-- the form of a statement whose expression came to a value, and that value -/
def concluded? (root : Root) (due : Due σ) : Option (Form × Value) :=
  if Statement.isBlank due.text then none
  else
    let s := due.session.seek due.firstInput
    match Statement.drive (.evaluating root s.scopes s.scope due.site) due.text (.start s.feed) with
    | (.ok form, stack) => some (form, stack.top)
    | (.error _, _) => none

/-- how a statement ends; whatever it has read, only the feed has moved -/
inductive Ends (sink : Sink σ) (due : Due σ) :
    Option (Form × Value) → Except Fault Value × Session σ → Prop
  | blank (feed : Feed) (h : Statement.isBlank due.text = true) :
    Ends sink due none (.ok .void, { due.session with feed })
  | failed (feed : Feed) (fault : Fault) (h : Statement.isBlank due.text = false) :
    Ends sink due none (.error fault, { due.session with feed })
  | concluded (feed : Feed) (form : Form) (v : Value) (h : Statement.isBlank due.text = false) :
    Ends sink due (some (form, v)) (Statement.conclude sink form v { due.session with feed })

theorem ends (root : Root) (sink : Sink σ) (due : Due σ) :
    due.Ends sink (due.concluded? root) (due.run root sink) := by
  unfold run concluded? runStatement
  cases hblank : Statement.isBlank due.text with
  | true =>
    simp only [if_true]
    exact .blank (due.session.feed.seek due.firstInput) hblank
  | false =>
    simp only [Bool.false_eq_true, if_false, Statement.run]
    generalize Statement.drive _ due.text
      (Stack.start (due.session.seek due.firstInput).feed) = out
    obtain ⟨fault | form, stack⟩ := out
    · exact .failed stack.feed fault hblank
    · exact .concluded stack.feed form stack.top hblank

end Due

/-! ## one after the other -/

theorem filterMap_append_singleton {α β : Type} (f : α → Option β) (items : List α) (a : α) :
    (items ++ [a]).filterMap f = items.filterMap f ++ (f a).toList := by
  rw [List.filterMap_append]
  cases h : f a with
  | none => rw [List.filterMap_cons_none h]; rfl
  | some b => rw [List.filterMap_cons_some h]; rfl

/-- of every item and the items before it -/
def Along {α : Type} (P : List α → α → Prop) : List α → List α → Prop
  | _, [] => True
  | before, a :: rest => P before a ∧ Along P (before ++ [a]) rest

namespace Along

variable {α : Type} {P : List α → α → Prop} {before xs ys : List α} {a : α}

theorem append (h : Along P before xs) (h' : Along P (before ++ xs) ys) :
    Along P before (xs ++ ys) := by
  induction xs generalizing before with
  | nil =>
    rw [List.append_nil] at h'
    exact h'
  | cons x xs ih =>
    rw [List.append_cons] at h'
    exact ⟨h.1, ih h.2 h'⟩

theorem split (h : Along P before (xs ++ a :: ys)) : P (before ++ xs) a := by
  induction xs generalizing before with
  | nil =>
    rw [List.append_nil]
    exact h.1
  | cons x xs ih =>
    rw [List.append_cons]
    exact ih h.2

end Along

/-! ## a pass -/

section
variable {root : Root} {sink : Sink σ} {slot : Nat} {I : Nat → List (Due σ) → Session σ → Prop}

/-- what every statement of a node keeps, all of them keep -/
theorem statementsDue_induction
    (hstep : ∀ history (due : Due σ), I due.site.slot history due.session →
      I due.site.slot (history ++ [due]) (due.after root sink))
    (pass : Nat) (statements : List (Statement × List Line)) (index firstInput : Nat)
    {history : List (Due σ)} {s : Session σ} (h : I slot history s) :
    let run := statementsDue root sink pass slot statements index firstInput s
    Along (fun before due => I due.site.slot before due.session) history run ∧
      I slot (history ++ run)
        (runStatements root sink pass slot statements index firstInput s).2 := by
  induction statements generalizing index firstInput history s with
  | nil =>
    refine ⟨trivial, ?_⟩
    show I slot (history ++ []) s
    rwa [List.append_nil]
  | cons first rest ih =>
    obtain ⟨statement, lines⟩ := first
    let due : Due σ := ⟨statement, lines, ⟨pass, slot, index⟩, firstInput, s⟩
    have hnext : I slot (history ++ [due]) (due.after root sink) := hstep history due h
    obtain ⟨halong, hend⟩ := ih (index + 1) (firstInput + Line.total lines) hnext
    rw [← List.append_cons] at hend
    exact ⟨⟨h, halong⟩, hend⟩

end

namespace Diagram

variable {d : Diagram} {root : Root} {sink : Sink σ} {pass : Nat}
  {P : List (Due σ) → Scopes → σ → Prop} {I : Nat → List (Due σ) → Session σ → Prop}

theorem slot_of_mem_slotDue {state : Results × σ} {slot : Nat} {due : Due σ}
    (h : due ∈ d.slotDue root sink pass state slot) : due.site.slot = slot := by
  unfold slotDue at h
  split at h
  · cases h
  · obtain ⟨_, _, _, hsite, _⟩ := of_mem_statementsDue h
    rw [hsite]

section
variable
  (henter : ∀ slot history scopes inputs host, (∀ due ∈ history, due.site.slot ≠ slot) →
    P history scopes host → I slot history (.start scopes inputs host))
  (hstep : ∀ history (due : Due σ), I due.site.slot history due.session →
    I due.site.slot (history ++ [due]) (due.after root sink))
  (hleave : ∀ slot history s, I slot history s → P history s.scopes s.host)
include henter hstep hleave

/-- what a node that has not been run before takes over, it hands on -/
theorem slotDue_induction {history : List (Due σ)} {slot : Nat}
    (hfresh : ∀ due ∈ history, due.site.slot ≠ slot) (state : Results × σ)
    (h : P history state.1.scopes state.2) :
    let run := d.slotDue root sink pass state slot
    let last := d.runSlot root sink pass state slot
    Along (fun before due => I due.site.slot before due.session) history run ∧
      P (history ++ run) last.1.scopes last.2 := by
  unfold slotDue runSlot
  cases d.node? slot with
  | none =>
    refine ⟨trivial, ?_⟩
    show P (history ++ []) state.1.scopes state.2
    rwa [List.append_nil]
  | some n =>
    have hbegin := henter slot history state.1.scopes (n.inputs.map state.1.inputValue) state.2
      hfresh h
    obtain ⟨halong, hend⟩ := statementsDue_induction hstep pass
      (n.statements.zip n.statementLines) 0 0 hbegin
    exact ⟨halong, hleave _ _ _ hend⟩

theorem dueFrom_induction {turns : List Turn} (hnodup : (turns.map Turn.slot).Nodup)
    {history : List (Due σ)} (hnew : ∀ due ∈ history, due.site.slot ∉ turns.map Turn.slot)
    (state : Results × σ) (h : P history state.1.scopes state.2) :
    let run := d.dueFrom root sink pass turns state
    let last := turns.foldl (d.evaluateTurn root sink pass) state
    Along (fun before due => I due.site.slot before due.session) history run ∧
      P (history ++ run) last.1.scopes last.2 := by
  induction turns generalizing history state with
  | nil =>
    refine ⟨trivial, ?_⟩
    show P (history ++ []) state.1.scopes state.2
    rwa [List.append_nil]
  | cons turn rest ih =>
    rw [List.map_cons, List.nodup_cons] at hnodup
    simp only [dueFrom, List.foldl_cons, evaluateTurn_eq]
    have hlater : ∀ due ∈ history, due.site.slot ∉ rest.map Turn.slot := fun due hdue hmem =>
      hnew due hdue (List.mem_cons_of_mem _ hmem)
    cases turn.cyclic with
    | true =>
      -- a node that reaches a cycle touches neither the scopes nor the host
      refine ih hnodup.2 hlater _ ?_
      rw [if_pos rfl, scopes_markSlot]
      exact h
    | false =>
      simp only [Bool.false_eq_true, if_false]
      have hfresh : ∀ due ∈ history, due.site.slot ≠ turn.slot := fun due hdue heq =>
        hnew due hdue (List.mem_cons.mpr (.inl heq))
      obtain ⟨halong, hend⟩ := slotDue_induction henter hstep hleave hfresh state h
      have hnew' : ∀ due ∈ history ++ d.slotDue root sink pass state turn.slot,
          due.site.slot ∉ rest.map Turn.slot := by
        intro due hdue
        rcases List.mem_append.mp hdue with hdue | hdue
        · exact hlater due hdue
        · rw [slot_of_mem_slotDue hdue]
          exact hnodup.1
      obtain ⟨hrest, hlast⟩ := ih hnodup.2 hnew' _ hend
      refine ⟨halong.append hrest, ?_⟩
      rw [← List.append_assoc]
      exact hlast

/-- **Induction over the statements of a pass.**  `P` is about the scopes and the host between two
nodes, `I` about the session of a node between two of its statements, both with the statements of
the pass before. -/
theorem due_induction {earlier : Results} {host : σ} (hstart : P [] .empty host) :
    (∀ before due after, d.due root sink pass earlier host = before ++ due :: after →
      I due.site.slot before due.session) ∧
    P (d.due root sink pass earlier host) (d.evaluate root sink pass earlier host).1.scopes
      (d.evaluate root sink pass earlier host).2 := by
  have hnew : ∀ due ∈ ([] : List (Due σ)), due.site.slot ∉ d.schedule.map Turn.slot :=
    fun _ hdue => by cases hdue
  obtain ⟨halong, hend⟩ := dueFrom_induction henter hstep hleave d.scheduled.nodup hnew
    (earlier.reset d.slotCount, host) hstart
  refine ⟨fun before due after hsplit => ?_, hend⟩
  rw [Diagram.due] at hsplit
  rw [hsplit] at halong
  exact halong.split

end

end Diagram

end Dataflow
