import Dataflow.Callbacks
import Dataflow.Proofs.Replay

/-!
# Pure callbacks are a host

Callbacks whose answers depend on the arguments alone may still keep a state, but no statement can
tell.  What runs over their state is what runs on the host that they are in any one of their states.

* `Value.callOver_fst`          a call gives what it gives on the host of the present state;
* `Machine.step_evaluatingOver` so does every operation;
* `Callbacks.Pure.frozen_eq`    pure callbacks are one host in all their states;
* `Statement.run_of_pure`       statements run over them as on that host;
* `Statement.run_eq_runOver`    so running on a host is running over callbacks without a state.
-/

namespace Dataflow

variable {σ τ : Type}

/-! ## one call -/

/-- a call that asks nothing gives the same on every host, and one that asks gives the answer -/
theorem Value.callOver_fst (cb : Callbacks τ) (callee : Value) (forms : List ArgumentForm)
    (values : List Value) (t : τ) :
    (callee.callOver cb forms values t).1 = callee.call (cb.frozen t) forms values := by
  cases callee with
  | classRef origin name parameters =>
    cases parameters with
    | none =>
      simp only [callOver, query?, call]
      cases Arguments.onlyNamed name (forms.zip values) [] <;> rfl
    | some parameters => rfl
  | function f =>
    obtain ⟨origin, routine⟩ := f
    cases routine with
    | host name =>
      simp only [callOver, query?, call]
      cases Arguments.collect (forms.zip values) ⟨[], []⟩ <;> rfl
    | _ => rfl
  | _ => rfl

/-! ## one operation -/

namespace Callbacks.Pure

variable {cb : Callbacks τ}

theorem frozen_eq (h : cb.Pure) (t t' : τ) : cb.frozen t = cb.frozen t' := by
  simp only [Callbacks.frozen, h _ t t']

theorem ofHost (host : Host) : (Callbacks.ofHost host).Pure := fun _ _ _ => rfl

end Callbacks.Pure

theorem Machine.step_evaluatingOver (cb : Callbacks τ) (env : Environment) (scopes : Scopes)
    (scope : Option Nat) (site : Site) (op : Op) (s : Stack × τ) :
    (evaluating ⟨env, cb.frozen s.2⟩ scopes scope site).step op s.1 =
      Prod.map id Prod.fst ((evaluatingOver cb env scopes scope site).step op s) := by
  cases op with
  | call forms =>
    simp only [evaluating, evaluatingOver, ← Value.callOver_fst]
    rfl
  | _ => rfl

/-! ## one statement -/

/-- **Pure callbacks are a host**: over any of their states a statement gives, and leaves to the
statements after it, what it does on the host that they are. -/
theorem Statement.run_of_pure {cb : Callbacks τ} (h : cb.Pure) (env : Environment) (sink : Sink σ)
    (site : Site) (text : String) (s : Session σ) (t t' : τ) :
    run ⟨env, cb.frozen t'⟩ sink site text s =
      Prod.map id Prod.fst (runOver cb env sink site text s t) := by
  have hstep : ∀ op (out : Stack × τ),
      (Machine.evaluating ⟨env, cb.frozen t'⟩ s.scopes s.scope site).step op out.1 =
        Prod.map id Prod.fst
          ((Machine.evaluatingOver cb env s.scopes s.scope site).step op out) := fun op out => by
    rw [h.frozen_eq t' out.2, Machine.step_evaluatingOver]
  have hdrive := drive_map hstep text (.start s.feed, t)
  rw [run, runOver, hdrive]
  obtain ⟨_ | _, _, _⟩ := drive (.evaluatingOver cb env s.scopes s.scope site) text _ <;> rfl

theorem Statement.run_eq_runOver (root : Root) (sink : Sink σ) (site : Site) (text : String)
    (s : Session σ) : run root sink site text s =
      Prod.map id Prod.fst (runOver (.ofHost root.host) root.environment sink site text s ()) :=
  run_of_pure (.ofHost root.host) root.environment sink site text s () ()

end Dataflow
