import Mathlib.Data.List.Nodup
import Dataflow.Proofs.Pass

/-!
# A node by itself

Nothing of a node's result depends on the nodes that were run before it but the values of its
inputs.

* `Scopes.Above k a b`    the scopes `a` are the scopes `b` on top of `k` other ones: lookups agree
                          (`Scopes.Above.find?`);
* `Sink.Keeps sink R`     the sink answers alike in states related by `R`, and keeps them related;
* `runNode_alike`         a node on top of other scopes gives what it gives on none;
* `Diagram.evaluate_local`   the results of a pass satisfy an equation at every node.
-/

namespace Dataflow

/-! ## scopes on top of others -/

namespace Scopes

variable {k : Nat} {a b : Scopes}

/-- a scope with so many more below it -/
def lift (k : Nat) (scope : Scope) : Scope := { scope with parent := scope.parent.map (k + ·) }

/-- scopes on top of `k` others that they do not lead to; in them a parent comes before its
children -/
structure Above (k : Nat) (a b : Scopes) : Prop where
  size : a.size = k + b.size
  get? : ∀ id, a.get? (k + id) = (b.get? id).map (lift k)
  parent_lt : ∀ id scope parent, b.get? id = some scope → scope.parent = some parent → parent < id

theorem above_empty (a : Scopes) : Above a.size a .empty := by
  refine ⟨rfl, fun id => ?_, fun id scope parent h => ?_⟩
  · have hnone : a.all[a.size + id]? = none := Array.getElem?_eq_none (Nat.le_add_right _ _)
    simpa [Scopes.get?, empty] using hnone
  · simp [Scopes.get?, empty] at h

/-- enough steps find the same from corresponding scopes -/
theorem Above.findWithin (h : Above k a b) (env : Environment) (name : String) {id : Nat} :
    ∀ {steps steps' : Nat}, id < steps → id < steps' →
      a.findWithin env name steps (some (k + id)) = b.findWithin env name steps' (some id) := by
  -- on the scope: its parent comes before it
  induction id using Nat.strongRecOn with
  | ind id ih =>
    intro steps steps' hs hs'
    obtain ⟨steps, rfl⟩ := Nat.exists_eq_succ_of_ne_zero (Nat.ne_zero_of_lt hs)
    obtain ⟨steps', rfl⟩ := Nat.exists_eq_succ_of_ne_zero (Nat.ne_zero_of_lt hs')
    rw [Scopes.findWithin, Scopes.findWithin, h.get? id]
    cases hb : b.get? id with
    | none => rfl
    | some scope =>
      simp only [Option.map_some, lift]
      split
      · rfl
      · cases hparent : scope.parent with
        | none => simp [Scopes.findWithin]
        | some parent =>
          have hlt := h.parent_lt id scope parent hb hparent
          exact ih parent hlt (by omega) (by omega)

/-- a name stands for the same from corresponding scopes -/
theorem Above.find? (h : Above k a b) (env : Environment) {scope : Option Nat}
    (hscope : ∀ id, scope = some id → id < b.size) (name : String) :
    a.find? env (scope.map (k + ·)) name = b.find? env scope name := by
  cases scope with
  | none => rw [Option.map_none, find?_none, find?_none]
  | some id =>
    have hlt := hscope id rfl
    exact h.findWithin env name (by rw [h.size]; omega) hlt

theorem Above.push (h : Above k a b) {scope : Scope}
    (hparent : ∀ parent, scope.parent = some parent → parent < b.size) :
    Above k (a.push (lift k scope)) (b.push scope) := by
  have hb : ∀ id, (b.push scope).get? id = if id = b.size then some scope else b.get? id :=
    fun id => Array.getElem?_push
  refine ⟨by rw [size_push, size_push, h.size, Nat.add_assoc], fun id => ?_, ?_⟩
  · have ha : (a.push (lift k scope)).get? (k + id) =
        if k + id = a.size then some (lift k scope) else a.get? (k + id) := Array.getElem?_push
    rw [ha, hb, h.size, h.get? id]
    by_cases hid : id = b.size
    · simp [hid]
    · simp [hid]
  · intro id s parent hs hp
    rw [hb] at hs
    split at hs
    · next hid =>
      obtain rfl := Option.some.inj hs
      exact hid ▸ hparent parent hp
    · exact h.parent_lt id s parent hs hp

end Scopes

/-- the machine over values sees the scopes through the names alone -/
theorem Machine.evaluating_congr {root : Root} {a b : Scopes} {scope scope' : Option Nat}
    (site : Site)
    (h : ∀ name, a.find? root.environment scope name = b.find? root.environment scope' name) :
    evaluating root a scope site = evaluating root b scope' site := by
  unfold evaluating
  simp only [h]

/-! ## related hosts -/

variable {σ : Type}

/-- a sink answers alike in related states of its host, and keeps them related -/
structure Sink.Keeps (sink : Sink σ) (R : σ → σ → Prop) : Prop where
  display : ∀ v s t, R s t → R (sink.display v s) (sink.display v t)
  accept : ∀ v s t, R s t →
    (sink.accept v s).1 = (sink.accept v t).1 ∧ R (sink.accept v s).2 (sink.accept v t).2
  remark : ∀ message s t, R s t → R (sink.remark message s) (sink.remark message t)

/-- collectors that expect the same type -/
def Collector.Expect (typeName : Option String) (c c' : Collector) : Prop :=
  c.expected = typeName ∧ c'.expected = typeName

theorem Collector.expected_keep (c : Collector) (v : Value) : (c.keep v).expected = c.expected := by
  unfold keep
  cases c.returned <;> rfl

/-- the standard host only looks at the type that it expects -/
theorem Sink.collecting_keeps (typeName : Option String) :
    Sink.collecting.Keeps (Collector.Expect typeName) := by
  refine ⟨fun _ _ _ h => h, fun v c c' h => ?_, fun _ _ _ h => h⟩
  have hallows : c.allows v = c'.allows v := by simp only [Collector.allows, h.1, h.2]
  simp only [collecting, hallows]
  cases c'.allows v with
  | error fault => exact ⟨rfl, h⟩
  | ok _ => exact ⟨rfl, (c.expected_keep v).trans h.1, (c'.expected_keep v).trans h.2⟩

/-! ## sessions on top of others -/

/-- a session on top of `k` other scopes, with a related host -/
structure Session.Alike (k : Nat) (R : σ → σ → Prop) (s t : Session σ) : Prop where
  scopes : s.scopes.Above k t.scopes
  scope : s.scope = t.scope.map (k + ·)
  scope_lt : ∀ id, t.scope = some id → id < t.scopes.size
  feed : s.feed = t.feed
  host : R s.host t.host

section
variable {k : Nat} {R : σ → σ → Prop} {root : Root} {sink : Sink σ} {site : Site}
  {s t : Session σ}

theorem Session.Alike.seek (h : s.Alike k R t) (index : Nat) :
    (s.seek index).Alike k R (t.seek index) :=
  ⟨h.scopes, h.scope, h.scope_lt, congrArg (·.seek index) h.feed, h.host⟩

theorem Session.Alike.assign (h : s.Alike k R t) (name : String) (v : Value) :
    (s.assign name v).Alike k R (t.assign name v) := by
  refine ⟨?_, ?_, fun id hid => ?_, h.feed, h.host⟩
  · have hparent : ∀ parent, (Scope.mk name v t.scope).parent = some parent →
        parent < t.scopes.size := h.scope_lt
    have hpush := h.scopes.push hparent
    simp only [Scopes.lift, ← h.scope] at hpush
    exact hpush
  · exact congrArg some h.scopes.size
  · obtain rfl := Option.some.inj hid
    exact lt_of_lt_of_eq (Nat.lt_succ_self _) (Scopes.size_push _ _).symm

theorem Statement.conclude_alike (hsink : sink.Keeps R) (form : Form) (v : Value)
    (h : s.Alike k R t) :
    (conclude sink form v s).1 = (conclude sink form v t).1 ∧
      (conclude sink form v s).2.Alike k R (conclude sink form v t).2 := by
  cases form with
  | display => exact ⟨rfl, h.scopes, h.scope, h.scope_lt, h.feed, hsink.display v _ _ h.host⟩
  | result =>
    obtain ⟨hanswer, hhost⟩ := hsink.accept v _ _ h.host
    simp only [conclude]
    generalize sink.accept v s.host = p at hanswer hhost
    generalize sink.accept v t.host = q at hanswer hhost
    obtain ⟨answer, host⟩ := p
    obtain ⟨answer', host'⟩ := q
    obtain rfl : answer = answer' := hanswer
    cases answer with
    | ok _ => exact ⟨rfl, h.scopes, h.scope, h.scope_lt, h.feed, hhost⟩
    | error fault => exact ⟨rfl, h.scopes, h.scope, h.scope_lt, h.feed, hhost⟩
  | assignment name =>
    refine ⟨rfl, Session.Alike.assign ?_ name v⟩
    exact ⟨h.scopes, h.scope, h.scope_lt, h.feed, hsink.remark _ _ _ h.host⟩
  | expression => exact ⟨rfl, h⟩

/-- a statement on top of other scopes gives what it gives on none -/
theorem Statement.run_alike (hsink : sink.Keeps R) (text : String) (h : s.Alike k R t) :
    (run root sink site text s).1 = (run root sink site text t).1 ∧
      (run root sink site text s).2.Alike k R (run root sink site text t).2 := by
  have hmachine : Machine.evaluating root s.scopes s.scope site
      = Machine.evaluating root t.scopes t.scope site := by
    refine Machine.evaluating_congr site fun name => ?_
    rw [h.scope]
    exact h.scopes.find? root.environment h.scope_lt name
  unfold run
  rw [hmachine, h.feed]
  split
  · next form stack _ =>
    exact conclude_alike hsink form stack.top ⟨h.scopes, h.scope, h.scope_lt, rfl, h.host⟩
  · exact ⟨rfl, h.scopes, h.scope, h.scope_lt, rfl, h.host⟩

theorem runStatement_alike (hsink : sink.Keeps R) (text : String) (firstInput : Nat)
    (h : s.Alike k R t) :
    (runStatement root sink site text firstInput s).1
        = (runStatement root sink site text firstInput t).1 ∧
      (runStatement root sink site text firstInput s).2.Alike k R
        (runStatement root sink site text firstInput t).2 := by
  unfold runStatement
  split
  · exact ⟨rfl, h.seek firstInput⟩
  · exact Statement.run_alike hsink text (h.seek firstInput)

theorem runStatements_alike (hsink : sink.Keeps R) {pass slot : Nat}
    (statements : List (Statement × List Line)) (index firstInput : Nat) (h : s.Alike k R t) :
    (runStatements root sink pass slot statements index firstInput s).1
        = (runStatements root sink pass slot statements index firstInput t).1 ∧
      (runStatements root sink pass slot statements index firstInput s).2.Alike k R
        (runStatements root sink pass slot statements index firstInput t).2 := by
  induction statements generalizing index firstInput s t with
  | nil => exact ⟨rfl, h⟩
  | cons first rest ih =>
    obtain ⟨statement, lines⟩ := first
    obtain ⟨houtcome, hsession⟩ : _ ∧ Session.Alike k R
        (runStatement root sink ⟨pass, slot, index⟩ (Node.textOf lines) firstInput s).2 _ :=
      runStatement_alike hsink (Node.textOf lines) firstInput h
    obtain ⟨hlater, hend⟩ := ih (index + 1) (firstInput + Line.total lines) hsession
    simp only [runStatements, houtcome, hlater, true_and]
    exact hend

end

/-- **A node on top of other scopes gives what it gives on none**, in a pass whose host is in a
related state. -/
theorem runNode_alike {R : σ → σ → Prop} {root : Root} {sink : Sink σ} (hsink : sink.Keeps R)
    {pass slot : Nat} {n : Node} {inputs : List Value} (scopes : Scopes) {host host' : σ}
    (h : R host host') :
    (runNode root sink pass slot n inputs scopes host).1
        = (runNode root sink pass slot n inputs .empty host').1 ∧
      R (runNode root sink pass slot n inputs scopes host).2.host
        (runNode root sink pass slot n inputs .empty host').2.host := by
  have hstart : (Session.start scopes inputs host).Alike scopes.size R
      (Session.start .empty inputs host') :=
    ⟨scopes.above_empty, rfl, fun _ hid => (by cases hid), rfl, h⟩
  obtain ⟨hresult, hend⟩ := runStatements_alike hsink (n.statements.zip n.statementLines) 0 0 hstart
  exact ⟨hresult, hend.host⟩

namespace Diagram

variable {d : Diagram} {root : Root} {sink : Sink σ} {pass : Nat}

/-- a run leaves its host in a related state -/
theorem foldl_runSlot_keeps {R : σ → σ → Prop} (hsink : sink.Keeps R) (slots : List Nat)
    {state : Results × σ} {host : σ} (h : R state.2 host) :
    ∃ host', R (slots.foldl (d.runSlot root sink pass) state).2 host' := by
  induction slots generalizing state host with
  | nil => exact ⟨host, h⟩
  | cons slot rest ih =>
    rw [List.foldl_cons]
    cases hn : d.node? slot with
    | none =>
      have hsame : d.runSlot root sink pass state slot = state := by simp [runSlot, hn]
      rw [hsame]
      exact ih h
    | some n =>
      have hhost : R (d.runSlot root sink pass state slot).2
          (runNode root sink pass slot n (n.inputs.map state.1.inputValue) .empty host).2.host := by
        simp only [runSlot, hn]
        exact (runNode_alike hsink state.1.scopes h).2
      exact ih hhost

/-- the sources of a node are not run after it, nor is the node itself -/
theorem InRunOrder.source_not_mem {slots before after : List Nat} {slot : Nat} {n : Node}
    {source : Source} (h : d.InRunOrder slots) (hsplit : slots = before ++ slot :: after)
    (hn : d.node? slot = some n) (hmem : some source ∈ n.inputs) :
    source.node ∉ slot :: after := by
  intro hlater
  have hin : source.node ∈ slots := by
    rw [hsplit]
    exact List.mem_append_right _ hlater
  have hreads : d.Reads slot source.node :=
    (reads_iff hn).mpr ⟨⟨source, hmem, rfl⟩, ((h.mem_iff _).mp hin).1⟩
  have hbefore : source.node ∈ before := h.sources_first before slot after hsplit _ hreads
  have hnodup : (before ++ slot :: after).Nodup := hsplit ▸ h.nodup
  exact (List.disjoint_of_nodup_append hnodup) hbefore hlater

end Diagram

end Dataflow
