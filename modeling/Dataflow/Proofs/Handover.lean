import Dataflow.Proofs.Trace

/-!
# What an expression hands to its machine

The operations that an expression hands on are fixed by its text.  A machine only decides how many
of them it gets: all, or those up to the first that it fails at.

* `Expression.handed`        the operations of a run as the machine carried them out, the last one
                             perhaps without success;
* `Machine.Unfailing`        a machine that fails at no operation;
* `Machine.FirstFails`       where among some operations a machine fails;
* `Machine.firstFails_iff`   there a run has its failed step, and only there;
* `Expression.drive_eq_of_unfailing`   the run of any machine, told by that of an unfailing one.
-/

namespace Dataflow

variable {σ τ : Type}

namespace Machine

/-- fails at no operation -/
def Unfailing (m : Machine σ) : Prop := ∀ op s, (m.step op s).1 = .ok ()

/-- of some operations the first `n` go well and the next one fails -/
def FirstFails (m : Machine σ) (ops : List Op) (s : σ) (n : Nat) (fault : Fault) : Prop :=
  ∃ op before, ops[n]? = some op ∧ m.run (ops.take n) s = (.ok (), before) ∧
    (m.step op before).1 = .error fault

variable {m : Machine σ} {op : Op} {ops : List Op} {s s' : σ} {n : Nat} {fault : Fault}

theorem Unfailing.run (h : m.Unfailing) (ops : List Op) (s : σ) : (m.run ops s).1 = .ok () := by
  induction ops generalizing s with
  | nil => rfl
  | cons op ops ih =>
    have hstep : m.step op s = (.ok (), (m.step op s).2) := Prod.ext (h op s) rfl
    rw [run_cons_of_ok hstep]
    exact ih _

/-! ## steps of a run -/

theorem steps_append_of_ok {first second : List Op} (h : m.run first s = (.ok (), s')) :
    m.steps (first ++ second) s = m.steps first s ++ m.steps second s' := by
  induction first generalizing s with
  | nil =>
    cases h
    rfl
  | cons op ops ih =>
    cases hstep : m.step op s with
    | mk answer after =>
      cases answer with
      | ok _ =>
        rw [run_cons_of_ok hstep] at h
        rw [List.cons_append, steps, steps, hstep]
        exact congrArg (_ :: ·) (ih h)
      | error fault =>
        rw [run_cons_of_error hstep] at h
        cases h

theorem map_op_steps_of_ok (h : (m.run ops s).1 = .ok ()) : (m.steps ops s).map Step.op = ops := by
  induction ops generalizing s with
  | nil => rfl
  | cons op ops ih =>
    cases hstep : m.step op s with
    | mk answer after =>
      cases answer with
      | ok _ =>
        rw [run_cons_of_ok hstep] at h
        rw [steps, hstep]
        exact congrArg (op :: ·) (ih h)
      | error fault =>
        rw [run_cons_of_error hstep] at h
        cases h

/-! ## where a machine fails -/

/-- the operations around the one that fails first -/
theorem FirstFails.split (h : m.FirstFails ops s n fault) :
    ∃ front op rest before after, ops = front ++ op :: rest ∧ front.length = n ∧
      m.run front s = (.ok (), before) ∧ m.step op before = (.error fault, after) := by
  obtain ⟨op, before, hop, hrun, hstep⟩ := h
  obtain ⟨hlt, rfl⟩ := List.getElem?_eq_some_iff.mp hop
  refine ⟨ops.take n, ops[n], ops.drop (n + 1), before, _, ?_, ?_, hrun, Prod.ext hstep rfl⟩
  · rw [← List.drop_eq_getElem_cons hlt, List.take_append_drop]
  · exact List.length_take_of_le (Nat.le_of_lt hlt)

/-- a run ends with its first failure -/
theorem FirstFails.run_steps (h : m.FirstFails ops s n fault) :
    (m.run ops s).1 = .error fault ∧ (m.steps ops s).map Step.op = ops.take (n + 1) ∧
      ∃ step, (m.steps ops s)[n]? = some step ∧ step.answer = .error fault := by
  obtain ⟨front, op, rest, before, after, rfl, rfl, hrun, hstep⟩ := h.split
  have hfront : (m.steps front s).map Step.op = front := by
    apply map_op_steps_of_ok
    rw [hrun]
  have hlength : (m.steps front s).length = front.length := by
    rw [← List.length_map, hfront]
  have hsteps : m.steps (front ++ op :: rest) s
      = m.steps front s ++ [⟨op, before, .error fault, after⟩] := by
    rw [steps_append_of_ok hrun, steps, hstep]
  rw [run_append_of_ok hrun, run_cons_of_error hstep, hsteps, List.map_append, hfront]
  refine ⟨rfl, ?_, ⟨op, before, .error fault, after⟩, ?_, rfl⟩
  · rw [List.take_length_add_append]
    rfl
  · rw [← hlength, List.getElem?_concat_length]

/-- **A machine fails where its run has a failed step.** -/
theorem firstFails_iff : m.FirstFails ops s n fault ↔
    ∃ step, (m.steps ops s)[n]? = some step ∧ step.answer = .error fault := by
  constructor
  · intro h
    exact h.run_steps.2.2
  · intro ⟨step, hget, hanswer⟩
    obtain ⟨hop, hrun, hstep⟩ := getElem?_steps hget
    refine ⟨step.op, step.before, hop, hrun, ?_⟩
    rw [hstep, hanswer]

/-- a run that fails has a first failure -/
theorem exists_firstFails (h : (m.run ops s).1 = .error fault) :
    ∃ n, m.FirstFails ops s n fault := by
  induction ops generalizing s with
  | nil => cases h
  | cons op ops ih =>
    cases hstep : m.step op s with
    | mk answer after =>
      cases answer with
      | ok _ =>
        rw [run_cons_of_ok hstep] at h
        obtain ⟨n, op', before, hop, hrun, hfail⟩ := ih h
        refine ⟨n + 1, op', before, hop, ?_, hfail⟩
        rw [List.take_succ_cons, run_cons_of_ok hstep]
        exact hrun
      | error fault' =>
        rw [run_cons_of_error hstep] at h
        refine ⟨0, op, s, rfl, rfl, ?_⟩
        rw [hstep]
        exact h

theorem run_ok_of_not_firstFails (h : ∀ n fault, ¬ m.FirstFails ops s n fault) :
    (m.run ops s).1 = .ok () := by
  cases hrun : (m.run ops s).1 with
  | ok _ => rfl
  | error fault =>
    obtain ⟨n, hfails⟩ := exists_firstFails hrun
    exact absurd hfails (h n fault)

/-- a replay ends with its result or with the fault of the machine -/
theorem fst_replay {α : Type} (result : Except Fault α) :
    (m.replay ops result s).1 =
      match (m.run ops s).1 with
      | .ok () => result
      | .error fault => .error fault := by
  rw [replay]
  generalize m.run ops s = out
  obtain ⟨_ | _, _⟩ := out <;> rfl

theorem replay_ok {α : Type} {result : Except Fault α} {found : α}
    (h : m.replay ops result s = (.ok found, s')) :
    m.run ops s = (.ok (), s') ∧ result = .ok found := by
  rw [replay] at h
  split at h
  · next heq =>
    obtain ⟨rfl, rfl⟩ := Prod.mk.inj h
    exact ⟨heq, rfl⟩
  · cases h

end Machine

namespace Expression

/-! ## expressions on machines -/

theorem uniform_complete : Uniform fun _ m => complete m :=
  .bind (uniform_expression maxNesting) fun _ => .finish

/-- the operations of a text -/
def operations (text : String) : List Op := (drive .recording text []).2

/-- a text does on every machine what its operations do -/
theorem drive_eq_replay (text : String) : ∃ result, ∀ (σ : Type) (m : Machine σ) (s : σ),
    drive m text s = m.replay (operations text) result s := by
  have hreplay : ∃ ops result, ∀ (σ : Type) (m : Machine σ) (s : σ),
      drive m text s = m.replay ops result s := by
    cases hscan : Token.scan text with
    | error fault =>
      refine ⟨[], .error fault, fun σ m s => ?_⟩
      rw [drive, hscan]
      rfl
    | ok tokens =>
      obtain ⟨ops, result, -, hread⟩ := uniform_complete tokens
      refine ⟨ops, result.map fun _ => (), fun σ m s => ?_⟩
      simp only [drive, hscan, hread, Machine.replay]
      generalize m.run ops s = out
      obtain ⟨_ | _, _⟩ := out
      · rfl
      · cases result <;> rfl
  obtain ⟨ops, result, h⟩ := hreplay
  have hops : operations text = ops := by
    rw [operations, h, Machine.replay, Machine.run_recording]
    rfl
  exact ⟨result, hops ▸ h⟩

/-- the operations that a machine is handed for a text, as it carries them out -/
def handed (m : Machine σ) (text : String) (s : σ) : List (Machine.Step σ) :=
  (drive m.traced text (s, [])).2.2

theorem handed_eq_steps (m : Machine σ) (text : String) (s : σ) :
    handed m text s = m.steps (operations text) s := by
  obtain ⟨result, h⟩ := drive_eq_replay text
  rw [handed, h, Machine.replay, Machine.run_traced]
  generalize m.run (operations text) s = out
  obtain ⟨_ | _, _⟩ := out <;> rfl

/-- **The grammar does not depend on its machine.**  Let `R` be the operations that a text hands to
a machine that never fails, and `r` the result.  On any machine, if the first `n` operations of `R`
go well and the next one fails, the machine is handed just these `n + 1` and the result is its fault;
if it fails at none of `R`, it is handed `R` and the result is `r`.  And a machine fails at an
operation of `R` just where its own run has a failed step. -/
theorem drive_eq_of_unfailing {m₀ : Machine τ} (h₀ : m₀.Unfailing) (text : String) (s₀ : τ)
    (m : Machine σ) (s : σ) :
    let R := (handed m₀ text s₀).map Machine.Step.op
    let r := (drive m₀ text s₀).1
    let delivered := (handed m text s).map Machine.Step.op
    let result := (drive m text s).1
    (∀ n fault, m.FirstFails R s n fault → delivered = R.take (n + 1) ∧ result = .error fault) ∧
    ((∀ n fault, ¬ m.FirstFails R s n fault) → delivered = R ∧ result = r) ∧
    (∀ n fault, m.FirstFails R s n fault ↔
      ∃ step, (handed m text s)[n]? = some step ∧ step.answer = .error fault) := by
  intro R r delivered result
  obtain ⟨ending, hdrive⟩ := drive_eq_replay text
  have hR : R = operations text := by
    show (handed m₀ text s₀).map Machine.Step.op = _
    rw [handed_eq_steps]
    exact Machine.map_op_steps_of_ok (h₀.run _ _)
  have hr : r = ending := by
    show (drive m₀ text s₀).1 = ending
    rw [hdrive, Machine.fst_replay, h₀.run]
  have hdelivered : delivered = (m.steps R s).map Machine.Step.op := by
    rw [hR]
    exact congrArg (List.map _) (handed_eq_steps m text s)
  have hresult : result = (m.replay R ending s).1 := by
    rw [hR]
    exact congrArg Prod.fst (hdrive σ m s)
  refine ⟨fun n fault hfails => ?_, fun hnone => ?_, fun n fault => ?_⟩
  · obtain ⟨hrun, hops, -⟩ := hfails.run_steps
    rw [hdelivered, hresult, Machine.fst_replay, hrun]
    exact ⟨hops, rfl⟩
  · have hrun := Machine.run_ok_of_not_firstFails hnone
    rw [hdelivered, hresult, Machine.fst_replay, hrun, hr]
    exact ⟨Machine.map_op_steps_of_ok hrun, rfl⟩
  · rw [handed_eq_steps, ← hR]
    exact Machine.firstFails_iff

/-- a text that is cut off, on a machine that refuses its input -/
theorem drive_eq_of_recording :
    let m := Machine.tallying false
    Machine.recording.Unfailing ∧
    (handed Machine.recording "[1, $](x" []).map Machine.Step.op =
      [.number "1", .input, .vector 2, .name "x"] ∧
    (drive Machine.recording "[1, $](x" []).1 = .error .missingCloseParen ∧
    (handed m "[1, $](x" ⟨0, 0⟩).map Machine.Step.op = [.number "1", .input] ∧
    (drive m "[1, $](x" ⟨0, 0⟩).1 = .error .inputRejected := by
  intro m
  have hunfailing : Machine.recording.Unfailing := fun _ _ => rfl
  have hops : (handed Machine.recording "[1, $](x" []).map Machine.Step.op =
      [.number "1", .input, .vector 2, .name "x"] := by decide +kernel
  have hfails : m.FirstFails [.number "1", .input, .vector 2, .name "x"] ⟨0, 0⟩ 1 .inputRejected :=
    ⟨.input, ⟨1, 0⟩, rfl, rfl, rfl⟩
  have hend : (drive Machine.recording "[1, $](x" []).1 = .error .missingCloseParen := by
    decide +kernel
  obtain ⟨hdelivered, hresult⟩ :=
    (drive_eq_of_unfailing hunfailing "[1, $](x" [] m ⟨0, 0⟩).1 1 .inputRejected (hops ▸ hfails)
  rw [hops] at hdelivered
  exact ⟨hunfailing, hops, hend, hdelivered, hresult⟩

end Expression

end Dataflow
