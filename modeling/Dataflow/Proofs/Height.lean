import Dataflow.Expression.Evaluate
import Dataflow.Proofs.Handover

/-!
# The height of the stack

An operation takes its operands from the stack and leaves one value.  The grammar hands it over only
when its operands are there, in a text that is malformed further on too, and an expression leaves
the stack one value higher than it found it.

* `Climbs`                       operations that find their operands, between two heights;
* `Parse.Raises`                 a reading step whose operations do, whether it succeeds or not;
* `Expression.raises_expression` the expressions, one lemma for each production;
* `Machine.Stacked`              a machine whose state has such a height (`stacked_evaluating`,
                                 `stacked_tallying`);
* `Stack.Serves`                 the values that an operation asks for are all there;
* `Expression.operands_on_stack` what this says about the runs of both machines.
-/

namespace Dataflow

open Parse

/-! ## operations -/

/-- the operations, each with its operands on the stack, lead from one height to another -/
inductive Climbs : Nat → List Op → Nat → Prop where
  | nil (height : Nat) : Climbs height [] height
  | cons {height height' : Nat} {op : Op} {ops : List Op} :
      Climbs (height + 1) ops height' → Climbs (height + op.pops) (op :: ops) height'

namespace Climbs

variable {a b c : Nat} {first second ops : List Op}

theorem single (op : Op) : Climbs op.pops [op] 1 := by
  have h : Climbs (0 + op.pops) [op] 1 := .cons (.nil 1)
  rwa [Nat.zero_add] at h

theorem append (hfirst : Climbs a first b) (hsecond : Climbs b second c) :
    Climbs a (first ++ second) c := by
  induction hfirst with
  | nil => exact hsecond
  | cons _ ih => exact .cons (ih hsecond)

/-- what lies below is left alone -/
theorem raise (h : Climbs a ops b) (k : Nat) : Climbs (a + k) ops (b + k) := by
  induction h with
  | nil height => exact .nil (height + k)
  | @cons height _ op _ _ ih =>
    rw [Nat.add_right_comm] at ih ⊢
    exact .cons ih

theorem split (h : Climbs a (first ++ second) c) : ∃ b, Climbs a first b ∧ Climbs b second c := by
  induction first generalizing a with
  | nil => exact ⟨a, .nil a, h⟩
  | cons op first ih =>
    cases h with
    | cons h =>
      obtain ⟨b, hfirst, hsecond⟩ := ih h
      exact ⟨b, .cons hfirst, hsecond⟩

/-- the height at which an operation comes -/
theorem take {n : Nat} {op : Op} (h : Climbs a ops c) (hop : ops[n]? = some op) :
    ∃ b, Climbs a (ops.take n) (b + op.pops) := by
  obtain ⟨hlt, rfl⟩ := List.getElem?_eq_some_iff.mp hop
  rw [← List.take_append_drop n ops, List.drop_eq_getElem_cons hlt] at h
  obtain ⟨_, hfront, hback⟩ := h.split
  cases hback with
  | @cons height => exact ⟨height, hfront⟩

end Climbs

/-! ## reading steps -/

namespace Parse

variable {α β : Type}

/-- a reading step that finds its operands above a height, and leaves another one with each of its
results -/
def Raises (need : Nat) (left : α → Nat) (p : Parse (List Op) α) : Prop :=
  ∀ tokens done, ∃ ops height, (p tokens done).2 = done ++ ops ∧ Climbs need ops height ∧
    ∀ a rest, (p tokens done).1 = .ok (a, rest) → height = left a

namespace Raises

variable {need : Nat} {left : α → Nat} {p q : Parse (List Op) α}

/-- a step that hands nothing on -/
theorem silent (h : ∀ tokens done, (p tokens done).2 = done) : Raises need (fun _ => need) p := by
  intro tokens done
  refine ⟨[], need, ?_, .nil need, fun _ _ _ => rfl⟩
  rw [h, List.append_nil]

theorem pure {a : α} (h : need = left a) : Raises need left (Pure.pure a) := by
  intro tokens done
  refine ⟨[], need, (List.append_nil done).symm, .nil need, fun b rest hok => ?_⟩
  cases hok
  exact h

theorem fail {fault : Fault} : Raises need left (Parse.fail fault) := by
  intro tokens done
  refine ⟨[], need, (List.append_nil done).symm, .nil _, fun _ _ h => ?_⟩
  cases h

theorem emit (op : Op) : Raises op.pops (fun _ => 1) (Parse.emit .recording op) :=
  fun _ _ => ⟨[op], 1, rfl, .single op, fun _ _ _ => rfl⟩

theorem raise (h : Raises need left p) (k : Nat) : Raises (need + k) (fun a => left a + k) p := by
  intro tokens done
  obtain ⟨ops, height, hops, hclimb, hleft⟩ := h tokens done
  refine ⟨ops, height + k, hops, hclimb.raise k, fun a rest hok => ?_⟩
  rw [hleft a rest hok]

theorem bind {next : α → Parse (List Op) β} {left' : β → Nat} (hp : Raises need left p)
    (hnext : ∀ a, Raises (left a) left' (next a)) : Raises need left' (p >>= next) := by
  intro tokens done
  obtain ⟨ops, height, hops, hclimb, hleft⟩ := hp tokens done
  rw [bind_eq]
  cases hrun : p tokens done with
  | mk result after =>
    rw [hrun] at hops hleft
    obtain rfl : after = done ++ ops := hops
    cases result with
    | error fault =>
      refine ⟨ops, height, rfl, hclimb, fun _ _ h => ?_⟩
      cases h
    | ok found =>
      obtain ⟨a, rest⟩ := found
      obtain rfl := hleft a rest rfl
      obtain ⟨ops', height', hops', hclimb', hleft'⟩ := hnext a rest (done ++ ops)
      refine ⟨ops ++ ops', height', ?_, hclimb.append hclimb', hleft'⟩
      rw [← List.append_assoc]
      exact hops'

theorem ite {c : Prop} [Decidable c] (hp : Raises need left p) (hq : Raises need left q) :
    Raises need left (if c then p else q) := by
  split
  · exact hp
  · exact hq

theorem peek : Raises need (fun _ => need) Parse.peek := silent fun _ _ => rfl

theorem peekSecond : Raises need (fun _ => need) Parse.peekSecond := silent fun _ _ => rfl

theorem ahead : Raises need (fun _ => need) Parse.ahead := silent fun _ _ => rfl

theorem bump : Raises need (fun _ => need) Parse.bump := by
  refine silent fun tokens done => ?_
  unfold Parse.bump
  split <;> rfl

theorem eat (mark : Mark) : Raises need (fun _ => need) (Parse.eat mark) := by
  refine silent fun tokens done => ?_
  unfold Parse.eat
  split
  · split <;> rfl
  · rfl

theorem closeParen : Raises need (fun _ => need) Parse.closeParen :=
  (eat .closeParen).bind fun _ => ite (pure rfl) fail

theorem finish : Raises need (fun _ => need) Parse.finish := by
  refine peek.bind fun t => ?_
  cases t with
  | finish => exact pure rfl
  | _ => exact fail

end Raises

end Parse

/-! ## productions -/

namespace Expression

variable {inner operand : Parse (List Op) Unit} {sign? : Token → Option Sign}

/-- the operand of a sign is read above the one before it -/
theorem raises_chainTail (hoperand : Raises 0 (fun _ => 1) operand) (turns : List Token) :
    Raises 1 (fun _ => 1) (chainTail .recording sign? operand turns) := by
  induction turns with
  | nil => exact .pure rfl
  | cons _ turns ih =>
    refine Raises.peek.bind fun t => ?_
    cases sign? t with
    | none => exact .pure rfl
    | some sign =>
      exact Raises.bump.bind fun _ => (hoperand.raise 1).bind fun _ =>
        (Raises.emit (.binary sign)).bind fun _ => ih

theorem raises_chain (hoperand : Raises 0 (fun _ => 1) operand) :
    Raises 0 (fun _ => 1) (chain .recording sign? operand) :=
  hoperand.bind fun _ => Raises.ahead.bind fun turns => raises_chainTail hoperand turns

theorem raises_memberName : Raises 1 (fun _ => 1) (memberName .recording) := by
  refine Raises.bump.bind fun t => ?_
  cases t with
  | name name => exact .emit (.member name)
  | _ => exact .fail

theorem raises_argument (hinner : Raises 0 (fun _ => 1) inner) :
    Raises 0 (fun _ => 1) (argument inner) := by
  refine Raises.peek.bind fun first => Raises.peekSecond.bind fun second => ?_
  split
  · exact Raises.bump.bind fun _ => Raises.bump.bind fun _ => hinner.bind fun _ => .pure rfl
  · exact hinner.bind fun _ => .pure rfl

theorem raises_argumentList (hinner : Raises 0 (fun _ => 1) inner) (turns : List Token) :
    Raises 0 List.length (argumentList inner turns) := by
  induction turns with
  | nil => exact .pure rfl
  | cons _ turns ih =>
    refine (raises_argument hinner).bind fun form => (Raises.eat .comma).bind fun _ => .ite ?_ ?_
    · exact (ih.raise 1).bind fun forms => .pure rfl
    · exact .pure rfl

theorem raises_arguments (hinner : Raises 0 (fun _ => 1) inner) :
    Raises 0 List.length (arguments inner) := by
  refine Raises.peek.bind fun t => ?_
  split
  · exact .pure rfl
  · exact Raises.ahead.bind fun turns => raises_argumentList hinner turns

/-- the arguments of a call are read above what is called -/
theorem raises_accessTail (hinner : Raises 0 (fun _ => 1) inner) (turns : List Token) :
    Raises 1 (fun _ => 1) (accessTail .recording inner turns) := by
  induction turns with
  | nil => exact .pure rfl
  | cons _ turns ih =>
    refine (Raises.eat .dot).bind fun _ => .ite (raises_memberName.bind fun _ => ih) ?_
    refine (Raises.eat .openParen).bind fun _ => .ite ?_ (.pure rfl)
    exact ((raises_arguments hinner).raise 1).bind fun forms => Raises.closeParen.bind fun _ =>
      (Raises.emit (.call forms)).bind fun _ => ih

theorem raises_elements (hinner : Raises 0 (fun _ => 1) inner) (turns : List Token) :
    Raises 0 id (elements inner turns) := by
  induction turns with
  | nil => exact .pure rfl
  | cons _ turns ih =>
    refine hinner.bind fun _ => (Raises.eat .closeBracket).bind fun _ => .ite (.pure rfl) ?_
    refine (Raises.eat .comma).bind fun _ => .ite ?_ .fail
    exact (ih.raise 1).bind fun more => .pure rfl

theorem raises_vector (hinner : Raises 0 (fun _ => 1) inner) :
    Raises 0 (fun _ => 1) (vector .recording inner) := by
  refine (Raises.eat .closeBracket).bind fun _ => .ite (.emit (.vector 0)) ?_
  exact Raises.ahead.bind fun turns => (raises_elements hinner turns).bind fun length =>
    .emit (.vector length)

theorem raises_primary (hinner : Raises 0 (fun _ => 1) inner) :
    Raises 0 (fun _ => 1) (primary .recording inner) := by
  refine Raises.bump.bind fun t => ?_
  cases t with
  | number digits => exact .emit (.number digits)
  | string text => exact .emit (.string text)
  | name text => exact .emit (.name text)
  | finish => exact .fail
  | mark k =>
    cases k with
    | openParen => exact hinner.bind fun _ => .closeParen
    | dollar => exact .emit .input
    | openBracket => exact raises_vector hinner
    | _ => exact .fail

theorem raises_access (hinner : Raises 0 (fun _ => 1) inner) :
    Raises 0 (fun _ => 1) (access .recording inner) :=
  (raises_primary hinner).bind fun _ => Raises.ahead.bind fun turns =>
    raises_accessTail hinner turns

/-- **An expression finds its operands and leaves one value.** -/
theorem raises_expression (levels : Nat) :
    Raises 0 (fun _ => 1) (expression .recording levels) := by
  induction levels with
  | zero => exact .fail
  | succ levels ih => exact raises_chain (raises_chain (raises_access ih))

theorem raises_complete : Raises 0 (fun _ => 1) (complete .recording) :=
  (raises_expression maxNesting).bind fun _ => .finish

end Expression

/-! ## machines -/

namespace Machine

variable {σ α : Type} {m : Machine σ} {height : σ → Nat} {a b n k : Nat} {op : Op} {ops : List Op}
  {s s' : σ}

/-- an operation that goes well takes its operands and leaves one value -/
def Stacked (m : Machine σ) (height : σ → Nat) : Prop :=
  ∀ op s s', op.pops ≤ height s → m.step op s = (.ok (), s') → height s' + op.pops = height s + 1

theorem Stacked.run (hm : m.Stacked height) (hclimb : Climbs a ops b) (hs : height s = a)
    (hrun : m.run ops s = (.ok (), s')) : height s' = b := by
  induction hclimb generalizing s with
  | nil =>
    cases hrun
    exact hs
  | @cons _ _ op _ _ ih =>
    cases hstep : m.step op s with
    | mk answer after =>
      cases answer with
      | ok _ =>
        rw [run_cons_of_ok hstep] at hrun
        have hafter := hm op s after (by omega) hstep
        exact ih (by omega) hrun
      | error fault =>
        rw [run_cons_of_error hstep] at hrun
        cases hrun

/-- the heights around a step of a run -/
theorem Stacked.steps (hm : m.Stacked height) {step : Step σ}
    (hget : (m.steps ops s)[n]? = some step)
    (hclimb : Climbs (height s) (ops.take n) (k + step.op.pops)) :
    height step.before = k + step.op.pops ∧ (step.answer = .ok () → height step.after = k + 1) := by
  obtain ⟨-, hrun, hstep⟩ := getElem?_steps hget
  have hbefore := hm.run hclimb rfl hrun
  refine ⟨hbefore, fun hanswer => ?_⟩
  rw [hanswer] at hstep
  have hafter := hm _ _ _ (by omega) hstep
  omega

theorem stacked_tallying (allowInputs : Bool) : (tallying allowInputs).Stacked Tally.depth := by
  intro op t t' hpops hstep
  have hcounted : ∀ inputs, t' = ⟨t.depth - op.pops + 1, inputs⟩ →
      t'.depth + op.pops = t.depth + 1 := by
    intro inputs h
    subst h
    show t.depth - op.pops + 1 + op.pops = t.depth + 1
    omega
  cases op with
  | input =>
    simp only [tallying] at hstep
    split at hstep
    · cases hstep
      exact hcounted _ rfl
    · cases hstep
  | _ =>
    cases hstep
    exact hcounted _ rfl

section
variable {root : Root} {scopes : Scopes} {scope : Option Nat} {site : Site} {s s' : Stack}

/-- the machine over values puts its result on what lies below the operands -/
theorem stack_step (h : (evaluating root scopes scope site).step op s = (.ok (), s')) :
    ∃ v, s'.values = v :: s.values.drop op.pops := by
  have hleave : ∀ {below : Stack} {found}, leave below found = (.ok (), s') →
      below.values = s.values.drop op.pops → ∃ v, s'.values = v :: s.values.drop op.pops := by
    intro below found hleft hbelow
    obtain ⟨v, rfl⟩ := leave_ok hleft
    exact ⟨v, congrArg (v :: ·) hbelow⟩
  cases op with
  | input =>
    simp only [evaluating] at h
    split at h
    · exact hleave h rfl
    · cases h
  | name text =>
    simp only [evaluating] at h
    split at h
    · exact hleave h rfl
    · cases h
  | call forms => exact hleave h List.drop_drop
  | _ =>
    simp only [evaluating] at h
    exact hleave h rfl

theorem stacked_evaluating :
    (evaluating root scopes scope site).Stacked fun s => s.values.length := by
  intro op s s' hpops hstep
  obtain ⟨v, hv⟩ := stack_step hstep
  show s'.values.length + op.pops = s.values.length + 1
  have hdrop : op.pops ≤ s.values.length := hpops
  rw [hv, List.length_cons, List.length_drop]
  omega

/-- the values below the operands stay where they are -/
theorem stack_run {top below : List Value} (hclimb : Climbs a ops b)
    (hs : s.values = top ++ below) (htop : top.length = a)
    (hrun : (evaluating root scopes scope site).run ops s = (.ok (), s')) :
    ∃ top', s'.values = top' ++ below ∧ top'.length = b := by
  induction hclimb generalizing s top with
  | nil =>
    cases hrun
    exact ⟨top, hs, htop⟩
  | @cons _ _ op _ _ ih =>
    cases hstep : (evaluating root scopes scope site).step op s with
    | mk answer after =>
      cases answer with
      | ok _ =>
        rw [run_cons_of_ok hstep] at hrun
        obtain ⟨v, hv⟩ := stack_step hstep
        have hafter : after.values = (v :: top.drop op.pops) ++ below := by
          rw [hv, hs, List.drop_append_of_le_length (by omega), List.cons_append]
        refine ih hafter ?_ hrun
        rw [List.length_cons, List.length_drop]
        omega
      | error fault =>
        rw [run_cons_of_error hstep] at hrun
        cases hrun

end

end Machine

namespace Stack

/-- what an operation takes from the stack is all there: as many values as it asks for, and on top a
value where it takes one alone -/
def Serves (s : Stack) : Op → Prop
  | .number _ | .string _ | .input | .name _ => True
  | .vector length => (s.topMost length).length = length
  | .member _ => s.values.head? = some s.top
  | .call forms =>
    (s.topMost forms.length).length = forms.length ∧
      (s.drop forms.length).values.head? = some (s.drop forms.length).top
  | .binary _ => s.values.head? = some s.top ∧ (s.drop 1).values.head? = some (s.drop 1).top

variable {s : Stack} {n : Nat} {op : Op}

theorem head?_eq_top (h : 0 < s.values.length) : s.values.head? = some s.top := by
  cases hvalues : s.values with
  | nil =>
    rw [hvalues] at h
    cases h
  | cons v rest =>
    rw [top, hvalues]
    rfl

theorem length_topMost (h : n ≤ s.values.length) : (s.topMost n).length = n := by
  rw [topMost, List.length_reverse, List.length_take_of_le h]

theorem length_drop (s : Stack) (n : Nat) : (s.drop n).values.length = s.values.length - n :=
  List.length_drop

theorem serves (h : op.pops ≤ s.values.length) : s.Serves op := by
  cases op with
  | number digits => trivial
  | string text => trivial
  | input => trivial
  | name text => trivial
  | vector length => exact length_topMost h
  | member name => exact head?_eq_top h
  | call forms =>
    have hpops : forms.length + 1 ≤ s.values.length := h
    refine ⟨length_topMost (Nat.le_of_succ_le h), head?_eq_top ?_⟩
    rw [length_drop]
    omega
  | binary sign =>
    have hpops : 2 ≤ s.values.length := h
    refine ⟨head?_eq_top (by omega), head?_eq_top ?_⟩
    rw [length_drop]
    omega

end Stack

/-! ## expressions on machines -/

/-- the operations of a step that does the same on every machine -/
theorem Uniform.exists_climb {α : Type} {p : ∀ σ, Machine σ → Parse σ α} {need : Nat}
    {left : α → Nat} (hp : Uniform p) (hraises : Raises need left (p _ .recording))
    (tokens : List Token) :
    ∃ ops height result, Climbs need ops height ∧
      (∀ a rest, result = .ok (a, rest) → height = left a) ∧
      ∀ (σ : Type) (m : Machine σ) (s : σ), p σ m tokens s = m.replay ops result s := by
  obtain ⟨ops, result, -, hreplay⟩ := hp tokens
  obtain ⟨ops', height, hops, hclimb, hleft⟩ := hraises tokens []
  rw [hreplay, Machine.replay, Machine.run_recording] at hops hleft
  obtain rfl : ops = ops' := hops
  exact ⟨ops, height, result, hclimb, hleft, hreplay⟩

namespace Expression

variable {σ : Type} {m : Machine σ} {height : σ → Nat}

theorem exists_climb_expression (levels : Nat) (tokens : List Token) :
    ∃ ops result, (∀ rest, result = .ok ((), rest) → Climbs 0 ops 1) ∧
      ∀ (σ : Type) (m : Machine σ) (s : σ),
        expression m levels tokens s = m.replay ops result s := by
  obtain ⟨ops, height, result, hclimb, hleft, hreplay⟩ :=
    (uniform_expression levels).exists_climb (raises_expression levels) tokens
  refine ⟨ops, result, fun rest hresult => ?_, hreplay⟩
  obtain rfl := hleft () rest hresult
  exact hclimb

/-- an expression leaves one value more, at every level -/
theorem height_expression (hm : m.Stacked height) {levels : Nat} {tokens rest : List Token}
    {s s' : σ} (h : expression m levels tokens s = (.ok ((), rest), s')) : height s' = height s + 1 := by
  obtain ⟨ops, result, hclimb, hreplay⟩ := exists_climb_expression levels tokens
  rw [hreplay] at h
  obtain ⟨hrun, hresult⟩ := Machine.replay_ok h
  have hclimb' := (hclimb rest hresult).raise (height s)
  rw [Nat.zero_add, Nat.add_comm 1] at hclimb'
  exact hm.run hclimb' rfl hrun

/-- and does not touch the values that it found -/
theorem values_expression {root : Root} {scopes : Scopes} {scope : Option Nat} {site : Site}
    {levels : Nat} {tokens rest : List Token} {s s' : Stack}
    (h : expression (.evaluating root scopes scope site) levels tokens s = (.ok ((), rest), s')) :
    ∃ v, s'.values = v :: s.values := by
  obtain ⟨ops, result, hclimb, hreplay⟩ := exists_climb_expression levels tokens
  rw [hreplay] at h
  obtain ⟨hrun, hresult⟩ := Machine.replay_ok h
  obtain ⟨top, hvalues, hlength⟩ :=
    Machine.stack_run (hclimb rest hresult) (List.nil_append s.values).symm List.length_nil hrun
  obtain ⟨v, rfl⟩ := List.length_eq_one_iff.mp hlength
  exact ⟨v, hvalues⟩

theorem climbs_operations (text : String) : ∃ height, Climbs 0 (operations text) height ∧
    ((drive .recording text []).1 = .ok () → height = 1) := by
  cases hscan : Token.scan text with
  | error fault =>
    have hops : operations text = [] := by rw [operations, drive, hscan]
    refine ⟨0, hops ▸ .nil 0, fun h => ?_⟩
    rw [drive, hscan] at h
    cases h
  | ok tokens =>
    obtain ⟨ops, height, hops, hclimb, hleft⟩ := raises_complete tokens []
    rw [operations, drive, hscan]
    simp only
    cases hread : complete Machine.recording tokens [] with
    | mk result done =>
      rw [hread] at hops hleft
      obtain rfl : done = ops := hops
      cases result with
      | ok found => exact ⟨height, hclimb, fun _ => hleft () found.2 rfl⟩
      | error fault =>
        refine ⟨height, hclimb, fun h => ?_⟩
        cases h

/-- the height at which a machine gets an operation of a text, the same for every machine -/
theorem exists_height (text : String) {n : Nat} {op : Op} (hop : (operations text)[n]? = some op) :
    ∃ k, Climbs 0 ((operations text).take n) (k + op.pops) := by
  obtain ⟨_, hclimb, -⟩ := climbs_operations text
  exact hclimb.take hop

theorem pops_le_height (hm : m.Stacked height) {text : String} {s : σ} (hs : height s = 0)
    {step : Machine.Step σ} (h : step ∈ handed m text s) : step.op.pops ≤ height step.before := by
  rw [handed_eq_steps] at h
  obtain ⟨n, hget⟩ := List.mem_iff_getElem?.mp h
  obtain ⟨k, hk⟩ := exists_height text (Machine.getElem?_steps hget).1
  rw [← hs] at hk
  rw [(hm.steps hget hk).1]
  exact Nat.le_add_left _ k

/-- two machines are at the same height when they come to an operation, and after it -/
theorem height_eq_height {τ : Type} {m' : Machine τ} {height' : τ → Nat} (hm : m.Stacked height)
    (hm' : m'.Stacked height') {text : String} {s : σ} {t : τ} (hs : height s = 0)
    (ht : height' t = 0) {n : Nat} {step : Machine.Step σ} {step' : Machine.Step τ}
    (h : (handed m text s)[n]? = some step) (h' : (handed m' text t)[n]? = some step') :
    step.op = step'.op ∧ height step.before = height' step'.before ∧
      (step.answer = .ok () → step'.answer = .ok () → height step.after = height' step'.after) := by
  rw [handed_eq_steps] at h h'
  have hop := (Machine.getElem?_steps h).1
  have hop' := (Machine.getElem?_steps h').1
  have hsame : step.op = step'.op := Option.some.inj (hop.symm.trans hop')
  obtain ⟨k, hk⟩ := exists_height text hop
  have hk' := hk
  rw [hsame, ← ht] at hk'
  rw [← hs] at hk
  obtain ⟨hbefore, hafter⟩ := hm.steps h hk
  obtain ⟨hbefore', hafter'⟩ := hm'.steps h' hk'
  refine ⟨hsame, ?_, fun hanswer hanswer' => ?_⟩
  · rw [hbefore, hbefore', hsame]
  · rw [hafter hanswer, hafter' hanswer']

theorem height_drive (hm : m.Stacked height) {text : String} {s s' : σ} (hs : height s = 0)
    (h : drive m text s = (.ok (), s')) : height s' = 1 := by
  obtain ⟨result, hreplay⟩ := drive_eq_replay text
  obtain ⟨top, hclimb, htop⟩ := climbs_operations text
  rw [hreplay] at h
  obtain ⟨hrun, hresult⟩ := Machine.replay_ok h
  have hok : (drive .recording text []).1 = .ok () := by
    rw [hreplay, Machine.replay, Machine.run_recording, hresult]
  obtain rfl := htop hok
  exact hm.run hclimb hs hrun

/-- **The operands of every operation are on the stack.**  Whatever the text, each operation that
the machine over values is handed finds all the values that it takes, so that none of them is made
up, and the counting machine never counts below zero; the two agree on the height of the stack
before every operation, and after it unless one of them has failed.  An expression that is read
leaves one value on what the stack held before, at every level, so a complete one leaves one value
alone. -/
theorem operands_on_stack (root : Root) (scopes : Scopes) (scope : Option Nat) (site : Site)
    (feed : Feed) (allowInputs : Bool) (text : String) :
    let valued := Machine.evaluating root scopes scope site
    let counted := Machine.tallying allowInputs
    (∀ step ∈ handed valued text (.start feed),
      step.op.pops ≤ step.before.values.length ∧ step.before.Serves step.op) ∧
    (∀ step ∈ handed counted text ⟨0, 0⟩, step.op.pops ≤ step.before.depth) ∧
    (∀ (n : Nat) (v : Machine.Step Stack) (t : Machine.Step Tally),
      (handed valued text (.start feed))[n]? = some v → (handed counted text ⟨0, 0⟩)[n]? = some t →
      v.op = t.op ∧ v.before.values.length = t.before.depth ∧
        (v.answer = .ok () → t.answer = .ok () → v.after.values.length = t.after.depth)) ∧
    (∀ levels tokens rest s s', expression valued levels tokens s = (.ok ((), rest), s') →
      ∃ v, s'.values = v :: s.values) ∧
    (∀ levels tokens rest t t', expression counted levels tokens t = (.ok ((), rest), t') →
      t'.depth = t.depth + 1) ∧
    (∀ s, drive valued text (.start feed) = (.ok (), s) → s.values = [s.top]) ∧
    (∀ t, drive counted text ⟨0, 0⟩ = (.ok (), t) → t.depth = 1) := by
  intro valued counted
  have hvalued : valued.Stacked fun s => s.values.length := Machine.stacked_evaluating
  have hcounted : counted.Stacked Tally.depth := Machine.stacked_tallying allowInputs
  refine ⟨fun step hstep => ?_, fun step hstep => ?_, fun n v t hv ht => ?_,
    fun levels tokens rest s s' h => values_expression h,
    fun levels tokens rest t t' h => height_expression hcounted h, fun s hs => ?_, fun t ht => ?_⟩
  · have hpops := pops_le_height hvalued rfl hstep
    exact ⟨hpops, Stack.serves hpops⟩
  · exact pops_le_height hcounted rfl hstep
  · exact height_eq_height hvalued hcounted rfl rfl hv ht
  · obtain ⟨v, hv⟩ := List.length_eq_one_iff.mp (height_drive hvalued rfl hs)
    rw [Stack.top, hv]
    rfl
  · exact height_drive hcounted rfl ht

end Expression

end Dataflow
