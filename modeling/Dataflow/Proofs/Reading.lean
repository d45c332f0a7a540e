import Dataflow.Expression.Parse

/-!
# Reading steps and runs of machines

* `Machine.run`       hands operations to a machine, one after the other, up to the first failure;
* `Parse.emitAll`     the same as a reading step;
* `Parse.Ends`        tokens that end with `finish`, as those of a statement do;
* `Parse.bind_ok`, `eat_ok`, `bump_ok`, `emit_ok`   what a step that succeeded has done.
-/

namespace Dataflow

variable {σ α β : Type}

namespace Machine

/-- hands operations to a machine, up to the first that fails -/
def run (m : Machine σ) : List Op → σ → Except Fault Unit × σ
  | [], s => (.ok (), s)
  | op :: ops, s =>
    match m.step op s with
    | (.ok (), s) => run m ops s
    | (.error fault, s) => (.error fault, s)

variable {m : Machine σ} {first second : List Op} {s s' : σ}

theorem run_append_of_ok (h : m.run first s = (.ok (), s')) :
    m.run (first ++ second) s = m.run second s' := by
  induction first generalizing s with
  | nil =>
    obtain ⟨-, rfl⟩ := Prod.mk.inj h
    rfl
  | cons op ops ih =>
    rw [run] at h
    rw [List.cons_append, run]
    split at h
    · exact ih h
    · cases h

theorem run_append_of_error {fault : Fault} (h : m.run first s = (.error fault, s')) :
    m.run (first ++ second) s = (.error fault, s') := by
  induction first generalizing s with
  | nil => cases h
  | cons op ops ih =>
    rw [run] at h
    rw [List.cons_append, run]
    split at h
    · exact ih h
    · exact h

theorem run_cons_of_ok {op : Op} (h : m.step op s = (.ok (), s')) :
    m.run (op :: first) s = m.run first s' := by
  rw [run, h]

theorem run_cons_of_error {op : Op} {fault : Fault} (h : m.step op s = (.error fault, s')) :
    m.run (op :: first) s = (.error fault, s') := by
  rw [run, h]

theorem run_singleton (op : Op) (s : σ) : m.run [op] s = m.step op s := by
  rw [run]
  split
  · next heq => rw [heq]; rfl
  · next heq => rw [heq]

/-- the recorder writes down what it is handed -/
theorem run_recording (ops done : List Op) : recording.run ops done = (.ok (), done ++ ops) := by
  induction ops generalizing done with
  | nil => simp [run]
  | cons op ops ih =>
    show recording.run ops (done ++ [op]) = _
    rw [ih, List.append_assoc, List.singleton_append]

end Machine

namespace Parse

variable {m : Machine σ} {p : Parse σ α} {next : α → Parse σ β} {tokens rest : List Token} {s s' : σ}

protected theorem bind_pure (p : Parse σ α) : (p >>= pure) = p := by
  funext tokens s
  rw [bind_eq]
  split <;> exact Eq.symm ‹_›

protected theorem bind_assoc {γ : Type} (p : Parse σ α) (f : α → Parse σ β) (g : β → Parse σ γ) :
    (p >>= f >>= g) = (p >>= fun a => f a >>= g) := by
  funext tokens s
  simp only [bind_eq]
  cases p tokens s with
  | mk result s => cases result <;> rfl

instance : LawfulMonad (Parse σ) :=
  .mk' (Parse σ) Parse.bind_pure (fun _ _ => rfl) Parse.bind_assoc

/-- the tokens end with `finish` -/
def Ends (tokens : List Token) : Prop := tokens.getLast? = some .finish

theorem Ends.tail {t : Token} (h : Ends (t :: rest)) (hne : t ≠ .finish) : Ends rest := by
  cases rest with
  | nil => exact absurd (Option.some.inj h) hne
  | cons u rest => exact (List.getLast?_cons_cons).symm.trans h

theorem Ends.length_pos (h : Ends tokens) : 0 < tokens.length := by
  cases tokens with
  | nil => cases h
  | cons t rest => exact Nat.succ_pos _

/-! ## steps that succeed -/

theorem bind_ok {b : β} (h : (p >>= next) tokens s = (.ok (b, rest), s')) :
    ∃ a mid s₁, p tokens s = (.ok (a, mid), s₁) ∧ next a mid s₁ = (.ok (b, rest), s') := by
  rw [bind_eq] at h
  split at h
  · next a mid s₁ heq => exact ⟨a, mid, s₁, heq, h⟩
  · cases h

theorem pure_ok {a b : α} (h : (pure a : Parse σ α) tokens s = (.ok (b, rest), s')) :
    a = b ∧ tokens = rest ∧ s = s' := by
  rw [pure_eq] at h
  cases h
  exact ⟨rfl, rfl, rfl⟩

theorem emit_ok {op : Op} {u : Unit} (h : emit m op tokens s = (.ok (u, rest), s')) :
    tokens = rest ∧ m.run [op] s = (.ok (), s') := by
  rw [m.run_singleton]
  unfold emit at h
  split at h
  · next heq =>
    cases h
    exact ⟨rfl, heq⟩
  · cases h

theorem eat_ok {mark : Mark} {found : Bool} (h : eat mark tokens s = (.ok (found, rest), s')) :
    s = s' ∧ (found = true ∧ tokens = .mark mark :: rest ∨ found = false ∧ tokens = rest) := by
  unfold eat at h
  split at h
  · split at h
    · next heq =>
      cases h
      exact ⟨rfl, .inl ⟨rfl, by rw [heq]⟩⟩
    · cases h
      exact ⟨rfl, .inr ⟨rfl, rfl⟩⟩
  · cases h
    exact ⟨rfl, .inr ⟨rfl, rfl⟩⟩

theorem bump_ok {t : Token} (h : bump tokens s = (.ok (t, rest), s')) :
    s = s' ∧ t = tokens.headD .finish ∧ (t ≠ .finish → tokens = t :: rest) := by
  unfold bump at h
  split at h
  · cases h
    exact ⟨rfl, rfl, fun hne => absurd rfl hne⟩
  · cases h
    exact ⟨rfl, rfl, fun hne => absurd rfl hne⟩
  · cases h
    exact ⟨rfl, rfl, fun _ => rfl⟩

theorem peek_ok {t : Token} (h : peek tokens s = (.ok (t, rest), s')) :
    t = tokens.headD .finish ∧ tokens = rest ∧ s = s' := by
  cases h
  exact ⟨rfl, rfl, rfl⟩

theorem ahead_ok {seen : List Token} (h : ahead tokens s = (.ok (seen, rest), s')) :
    seen = tokens ∧ tokens = rest ∧ s = s' := by
  cases h
  exact ⟨rfl, rfl, rfl⟩

theorem closeParen_ok {u : Unit} (h : closeParen tokens s = (.ok (u, rest), s')) :
    s = s' ∧ tokens = .mark .closeParen :: rest := by
  obtain ⟨found, mid, s₁, heat, h⟩ := bind_ok h
  obtain ⟨rfl, ⟨rfl, htokens⟩ | ⟨rfl, -⟩⟩ := eat_ok heat
  · obtain ⟨-, rfl, rfl⟩ := pure_ok h
    exact ⟨rfl, htokens⟩
  · cases h

theorem finish_ok {u : Unit} (h : finish tokens s = (.ok (u, rest), s')) :
    tokens.headD .finish = .finish := by
  obtain ⟨_, _, _, hpeek, hmatch⟩ := bind_ok h
  obtain ⟨rfl, rfl, rfl⟩ := peek_ok hpeek
  cases hhead : tokens.headD .finish with
  | finish => rfl
  | _ =>
    simp only [hhead] at hmatch
    cases hmatch

/-! ## steps on known tokens -/

theorem eat_mark (mark : Mark) : eat mark (.mark mark :: rest) s = (.ok (true, rest), s) := by
  simp [eat]

theorem eat_of_ne {mark : Mark} (h : tokens.headD .finish ≠ .mark mark) :
    eat mark tokens s = (.ok (false, tokens), s) := by
  unfold eat
  split
  · next found rest =>
    have hne : found ≠ mark := fun heq => h (congrArg Token.mark heq)
    rw [if_neg hne]
  · rfl

theorem bump_of_ne {t : Token} (h : t ≠ .finish) : bump (t :: rest) s = (.ok (t, rest), s) := by
  cases t with
  | finish => exact absurd rfl h
  | _ => rfl

theorem closeParen_mark : closeParen (.mark .closeParen :: rest) s = (.ok ((), rest), s) := by
  simp [closeParen, bind_eq, eat_mark, pure_eq]

/-! ## several operations -/

/-- hands operations to the machine -/
def emitAll (m : Machine σ) (ops : List Op) : Parse σ Unit := fun tokens s =>
  match m.run ops s with
  | (.ok (), s) => (.ok ((), tokens), s)
  | (.error fault, s) => (.error fault, s)

theorem emitAll_singleton (op : Op) : emitAll m [op] = emit m op := by
  funext tokens s
  simp only [emitAll, m.run_singleton]
  rfl

theorem emitAll_append (first second : List Op) :
    emitAll m (first ++ second) = (do emitAll m first; emitAll m second) := by
  funext tokens s
  rw [bind_eq]
  unfold emitAll
  cases h : m.run first s with
  | mk result s₁ =>
    cases result with
    | ok _ => simp only [Machine.run_append_of_ok h]
    | error fault => simp only [Machine.run_append_of_error h]

/-- what follows a step that does no more than another one -/
theorem bind_congr_left {q : Parse σ α} {tokens' : List Token} (next : α → Parse σ β)
    (h : p tokens s = q tokens' s) : (p >>= next) tokens s = (q >>= next) tokens' s := by
  rw [bind_eq, bind_eq, h]

/-- steps that agree wherever a first one succeeds -/
theorem bind_congr_right {next' : α → Parse σ β}
    (h : ∀ a rest s', p tokens s = (.ok (a, rest), s') → next a rest s' = next' a rest s') :
    (p >>= next) tokens s = (p >>= next') tokens s := by
  rw [bind_eq, bind_eq]
  split
  · next heq => exact h _ _ _ heq
  · rfl

end Parse

end Dataflow
