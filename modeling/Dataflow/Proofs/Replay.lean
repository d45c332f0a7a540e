import Dataflow.Proofs.Faults
import Dataflow.Proofs.Reading
import Dataflow.Statement.Run

/-!
# The grammar does not look at its machine

A reading step is UNIFORM when the tokens alone fix the operations that it hands on and how it ends:
on every machine it hands on these operations up to the first that fails, and if none fails it ends
in the same way, with a fault only if the text is malformed.  So the runs of two machines on one text
can be compared through the operations.

* `Machine.replay`                 hands on operations and ends with a result;
* `Uniform.bind`                   uniform steps one after the other are uniform;
* `Expression.uniform_expression`  the expressions, by induction on the levels;
* `Statement.uniform_read`         the statements;
* `Statement.exists_replay`        what a text does on every machine;
* `Statement.drive_map`            machines that act alike on corresponding states do so on any text.
-/

namespace Dataflow

open Parse

variable {σ τ α β : Type}

/-- hands on operations and ends with a result, unless an operation fails -/
def Machine.replay (m : Machine σ) (ops : List Op) (result : Except Fault α) (s : σ) :
    Except Fault α × σ :=
  match m.run ops s with
  | (.ok (), s) => (result, s)
  | (.error fault, s) => (.error fault, s)

/-- a step that does the same on every machine, and fails by itself only where a text is malformed -/
def Uniform (p : ∀ σ, Machine σ → Parse σ α) : Prop :=
  ∀ tokens, ∃ ops result, FailsWith (·.kind = .parse) result ∧
    ∀ (σ : Type) (m : Machine σ) (s : σ), p σ m tokens s = m.replay ops result s

namespace Uniform

theorem const {f : List Token → Except Fault (α × List Token)}
    (hf : ∀ tokens, FailsWith (·.kind = .parse) (f tokens)) :
    Uniform fun _ _ tokens s => (f tokens, s) :=
  fun tokens => ⟨[], f tokens, hf tokens, fun _ _ _ => rfl⟩

theorem pure (a : α) : Uniform fun _ _ => (Pure.pure a) := const fun _ => .ok _

theorem fail {fault : Fault} (h : fault.kind = .parse) :
    Uniform (α := α) fun _ _ => Parse.fail fault := const fun _ => .error h

theorem peek : Uniform fun _ _ => Parse.peek := const fun _ => .ok _

theorem peekSecond : Uniform fun _ _ => Parse.peekSecond := const fun _ => .ok _

theorem ahead : Uniform fun _ _ => Parse.ahead := const fun _ => .ok _

theorem bump : Uniform fun _ _ => Parse.bump := by
  intro tokens
  refine ⟨[], (Parse.bump tokens ()).1, ?_, fun σ m s => ?_⟩
  · unfold Parse.bump
    split <;> exact .ok _
  · show Parse.bump tokens s = ((Parse.bump tokens ()).1, s)
    unfold Parse.bump
    split <;> rfl

theorem eat (mark : Mark) : Uniform fun _ _ => Parse.eat mark := by
  intro tokens
  refine ⟨[], (Parse.eat mark tokens ()).1, ?_, fun σ m s => ?_⟩
  · unfold Parse.eat
    split
    · split <;> exact .ok _
    · exact .ok _
  · show Parse.eat mark tokens s = ((Parse.eat mark tokens ()).1, s)
    unfold Parse.eat
    split
    · split <;> rfl
    · rfl

theorem emit (op : Op) : Uniform fun _ m => Parse.emit m op := by
  intro tokens
  refine ⟨[op], .ok ((), tokens), .ok _, fun σ m s => ?_⟩
  show Parse.emit m op tokens s = _
  rw [← emitAll_singleton]
  rfl

theorem bind {p : ∀ σ, Machine σ → Parse σ α} {next : α → ∀ σ, Machine σ → Parse σ β}
    (hp : Uniform p) (hnext : ∀ a, Uniform (next a)) :
    Uniform fun σ m => p σ m >>= fun a => next a σ m := by
  intro tokens
  obtain ⟨ops, result, hparse, hfirst⟩ := hp tokens
  cases result with
  | error fault =>
    refine ⟨ops, .error fault, .error (hparse fault rfl), fun σ m s => ?_⟩
    show (p σ m >>= fun a => next a σ m) tokens s = _
    rw [bind_eq, hfirst, Machine.replay, Machine.replay]
    generalize m.run ops s = out
    obtain ⟨_ | _, _⟩ := out <;> rfl
  | ok found =>
    obtain ⟨a, rest⟩ := found
    obtain ⟨ops', result', hparse', hsecond⟩ := hnext a rest
    refine ⟨ops ++ ops', result', hparse', fun σ m s => ?_⟩
    show (p σ m >>= fun a => next a σ m) tokens s = _
    rw [bind_eq, hfirst, Machine.replay, Machine.replay]
    cases hrun : m.run ops s with
    | mk answer s' =>
      cases answer with
      | ok _ =>
        rw [Machine.run_append_of_ok hrun]
        exact hsecond σ m s'
      | error fault => rw [Machine.run_append_of_error hrun]

theorem ite {c : Prop} [Decidable c] {p q : ∀ σ, Machine σ → Parse σ α} (hp : Uniform p)
    (hq : Uniform q) : Uniform fun σ m => if c then p σ m else q σ m := by
  split
  · exact hp
  · exact hq

theorem closeParen : Uniform fun _ _ => Parse.closeParen :=
  bind (eat .closeParen) fun _ => ite (pure ()) (fail rfl)

theorem finish : Uniform fun _ _ => Parse.finish := by
  refine bind peek fun t => ?_
  cases t with
  | finish => exact pure ()
  | _ => exact fail rfl

end Uniform

namespace Expression

variable {inner operand : ∀ σ, Machine σ → Parse σ Unit} {sign? : Token → Option Sign}

theorem uniform_chainTail (hoperand : Uniform operand) (turns : List Token) :
    Uniform fun σ m => chainTail m sign? (operand σ m) turns := by
  induction turns with
  | nil => exact .pure ()
  | cons _ turns ih =>
    refine .bind .peek fun t => ?_
    cases sign? t with
    | none => exact .pure ()
    | some sign => exact .bind .bump fun _ => .bind hoperand fun _ => .bind (.emit _) fun _ => ih

theorem uniform_chain (hoperand : Uniform operand) :
    Uniform fun σ m => chain m sign? (operand σ m) :=
  .bind hoperand fun _ => .bind .ahead fun turns => uniform_chainTail hoperand turns

theorem uniform_memberName : Uniform fun _ m => memberName m := by
  refine .bind .bump fun t => ?_
  cases t with
  | name name => exact .emit (.member name)
  | _ => exact .fail rfl

theorem uniform_argument (hinner : Uniform inner) : Uniform fun σ m => argument (inner σ m) := by
  refine .bind .peek fun first => .bind .peekSecond fun second => ?_
  have hplain : Uniform fun σ m => (do inner σ m; pure ArgumentForm.positional) :=
    .bind hinner fun _ => .pure _
  have hnamed : ∀ name, Uniform fun σ m =>
      (do let _ ← bump; let _ ← bump; inner σ m; pure (ArgumentForm.named name)) := fun name =>
    .bind .bump fun _ => .bind .bump fun _ => .bind hinner fun _ => .pure _
  split
  · exact hnamed _
  · exact hplain

theorem uniform_argumentList (hinner : Uniform inner) (turns : List Token) :
    Uniform fun σ m => argumentList (inner σ m) turns := by
  induction turns with
  | nil => exact .pure []
  | cons _ turns ih =>
    exact .bind (uniform_argument hinner) fun _ => .bind (.eat .comma) fun _ =>
      .ite (.bind ih fun _ => .pure _) (.pure _)

theorem uniform_arguments (hinner : Uniform inner) :
    Uniform fun σ m => arguments (inner σ m) := by
  refine .bind .peek fun t => ?_
  have hlist : Uniform fun σ m => (do argumentList (inner σ m) (← ahead)) :=
    .bind .ahead fun turns => uniform_argumentList hinner turns
  split
  · exact .pure []
  · exact hlist

theorem uniform_accessTail (hinner : Uniform inner) (turns : List Token) :
    Uniform fun σ m => accessTail m (inner σ m) turns := by
  induction turns with
  | nil => exact .pure ()
  | cons _ turns ih =>
    refine .bind (.eat .dot) fun _ => .ite (.bind uniform_memberName fun _ => ih) ?_
    refine .bind (.eat .openParen) fun _ => .ite ?_ (.pure ())
    exact .bind (uniform_arguments hinner) fun _ => .bind .closeParen fun _ =>
      .bind (.emit _) fun _ => ih

theorem uniform_elements (hinner : Uniform inner) (turns : List Token) :
    Uniform fun σ m => elements (inner σ m) turns := by
  induction turns with
  | nil => exact .pure 0
  | cons _ turns ih =>
    refine .bind hinner fun _ => .bind (.eat .closeBracket) fun _ => .ite (.pure 1) ?_
    exact .bind (.eat .comma) fun _ => .ite (.bind ih fun _ => .pure _) (.fail rfl)

theorem uniform_vector (hinner : Uniform inner) : Uniform fun σ m => vector m (inner σ m) := by
  refine .bind (.eat .closeBracket) fun _ => .ite (.emit (.vector 0)) ?_
  exact .bind .ahead fun turns => .bind (uniform_elements hinner turns) fun length =>
    .emit (.vector length)

theorem uniform_primary (hinner : Uniform inner) : Uniform fun σ m => primary m (inner σ m) := by
  refine .bind .bump fun t => ?_
  cases t with
  | number digits => exact .emit (.number digits)
  | string text => exact .emit (.string text)
  | name text => exact .emit (.name text)
  | finish => exact .fail rfl
  | mark k =>
    cases k with
    | openParen => exact .bind hinner fun _ => .closeParen
    | dollar => exact .emit .input
    | openBracket => exact uniform_vector hinner
    | _ => exact .fail rfl

theorem uniform_access (hinner : Uniform inner) : Uniform fun σ m => access m (inner σ m) :=
  .bind (uniform_primary hinner) fun _ => .bind .ahead fun turns => uniform_accessTail hinner turns

theorem uniform_sum (hinner : Uniform inner) : Uniform fun σ m => sum m (inner σ m) :=
  uniform_chain (uniform_chain (uniform_access hinner))

/-- **Expressions are read alike on every machine.** -/
theorem uniform_expression (levels : Nat) : Uniform fun _ m => expression m levels := by
  induction levels with
  | zero => exact .fail rfl
  | succ levels ih => exact uniform_sum ih

end Expression

namespace Statement

theorem uniform_readForm : Uniform fun _ _ => readForm := by
  refine .bind .peek fun first => .bind .peekSecond fun second => ?_
  split
  · exact .bind .bump fun _ => .bind .bump fun _ => .pure _
  · exact .bind .bump fun _ => .pure _
  · exact .bind .bump fun _ => .bind .bump fun _ => .pure _
  · exact .pure _

theorem uniform_read : Uniform fun _ m => read m := by
  refine .bind uniform_readForm fun form => .bind (Expression.uniform_expression _) fun _ => ?_
  have hend : Uniform fun σ _ => (do finish; pure form : Parse σ Form) :=
    .bind .finish fun _ => .pure form
  exact .ite (.bind .closeParen fun _ => hend) hend

/-- **What a text does on every machine**: it hands on the same operations and ends alike, unless
one of them fails; and it fails by itself only if it is malformed. -/
theorem exists_replay_parse (text : String) : ∃ ops result, FailsWith (·.kind = .parse) result ∧
    ∀ (σ : Type) (m : Machine σ) (s : σ), drive m text s = m.replay ops result s := by
  cases hscan : Token.scan text with
  | error fault =>
    refine ⟨[], .error fault, .error (Token.failsWith_scan text fault hscan), fun σ m s => ?_⟩
    rw [drive, hscan]
    rfl
  | ok tokens =>
    obtain ⟨ops, result, hparse, hread⟩ := uniform_read tokens
    refine ⟨ops, result.map Prod.fst, hparse.map _, fun σ m s => ?_⟩
    simp only [drive, hscan, hread, Machine.replay]
    generalize m.run ops s = out
    obtain ⟨_ | _, _⟩ := out
    · rfl
    · cases result <;> rfl

theorem exists_replay (text : String) : ∃ ops result, ∀ (σ : Type) (m : Machine σ) (s : σ),
    drive m text s = m.replay ops result s := by
  obtain ⟨ops, result, -, h⟩ := exists_replay_parse text
  exact ⟨ops, result, h⟩

end Statement

/-! ## machines that act alike -/

section

variable {m : Machine σ} {m' : Machine τ} {act : σ → τ}

theorem Machine.run_map (h : ∀ op s, m'.step op (act s) = Prod.map id act (m.step op s))
    (ops : List Op) (s : σ) : m'.run ops (act s) = Prod.map id act (m.run ops s) := by
  induction ops generalizing s with
  | nil => rfl
  | cons op ops ih =>
    rw [run, run, h]
    obtain ⟨outcome, s'⟩ := m.step op s
    cases outcome with
    | ok _ => exact ih s'
    | error fault => rfl

/-- machines that act alike on corresponding states do so on any text -/
theorem Statement.drive_map (h : ∀ op s, m'.step op (act s) = Prod.map id act (m.step op s))
    (text : String) (s : σ) : drive m' text (act s) = Prod.map id act (drive m text s) := by
  obtain ⟨ops, result, hreplay⟩ := exists_replay text
  rw [hreplay, hreplay, Machine.replay, Machine.replay, Machine.run_map h]
  obtain ⟨outcome, s'⟩ := m.run ops s
  cases outcome <;> rfl

end

end Dataflow
