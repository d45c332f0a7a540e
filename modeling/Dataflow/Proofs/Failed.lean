import Mathlib.Data.List.Basic
import Dataflow.Proofs.Callbacks

/-!
# Failed statements leave no trace

A statement that fails has changed nothing but which input comes next and what the callbacks of the
host keep for themselves.  The next statement begins at its own first input, so only callbacks that
do not answer by their arguments alone can tell that the failed statement was run.

* `Machine.run_keeps`, `Statement.drive_keeps`   what every operation preserves, a text preserves;
* `Sink.RefusesCleanly`       a refused return leaves the host alone;
* `Statement.seek_of_runOver_error`   after a failed statement, from a given input on, all is as
                              before;
* `Session.answers`, `answersOver`   what statements after it give, with the session that each
                              leaves, on a host and over callbacks;
* `Statement.runOver_error`   over pure callbacks they are the same as without the failed one;
* `Session.answers_succeeding`   so all failing statements of a series can be left out at once.
-/

namespace Dataflow

variable {σ τ : Type}

/-! ## what every operation preserves -/

namespace Machine

variable {m : Machine σ} {P : σ → Prop} {s : σ}

theorem run_keeps (hstep : ∀ op s, P s → P (m.step op s).2) (ops : List Op) (h : P s) :
    P (m.run ops s).2 := by
  induction ops generalizing s with
  | nil => exact h
  | cons op ops ih =>
    have hnext := hstep op s h
    rw [run]
    generalize m.step op s = out at hnext
    obtain ⟨_ | _, s'⟩ := out
    · exact hnext
    · exact ih hnext

end Machine

theorem Statement.drive_keeps {m : Machine σ} {P : σ → Prop} {s : σ}
    (hstep : ∀ op s, P s → P (m.step op s).2) (text : String) (h : P s) :
    P (drive m text s).2 := by
  obtain ⟨ops, result, hreplay⟩ := exists_replay text
  have hrun := Machine.run_keeps hstep ops h
  rw [hreplay, Machine.replay]
  generalize m.run ops s = out at hrun
  obtain ⟨_ | _, s'⟩ := out <;> exact hrun

namespace Machine

theorem feed_leave (s : Stack) (r : Except Fault Value) : (leave s r).2.feed = s.feed := by
  cases r <;> rfl

theorem leave_ok {s after : Stack} {r : Except Fault Value} (h : leave s r = (.ok (), after)) :
    ∃ v, after = s.push v := by
  cases r with
  | ok v => exact ⟨v, (Prod.mk.inj h).2.symm⟩
  | error fault => cases h

/-- the inputs of a node stay the same ones -/
theorem values_step (root : Root) (scopes : Scopes) (scope : Option Nat) (site : Site) (op : Op)
    (s : Stack) :
    ((evaluating root scopes scope site).step op s).2.feed.values = s.feed.values := by
  cases op with
  | input =>
    simp only [evaluating]
    split
    · next v feed htake =>
      obtain ⟨w, -, heq⟩ := Option.map_eq_some_iff.mp htake
      obtain ⟨-, rfl⟩ := Prod.mk.inj heq
      rw [feed_leave]
    · rfl
  | name text =>
    simp only [evaluating]
    split <;> rfl
  | _ => exact congrArg Feed.values (feed_leave _ _)

theorem values_stepOver (cb : Callbacks τ) (env : Environment) (scopes : Scopes)
    (scope : Option Nat) (site : Site) (op : Op) (s : Stack × τ) :
    ((evaluatingOver cb env scopes scope site).step op s).2.1.feed.values = s.1.feed.values := by
  have h := values_step ⟨env, cb.frozen s.2⟩ scopes scope site op s.1
  rwa [step_evaluatingOver] at h

end Machine

/-! ## a failed statement -/

/-- a refused return leaves the host as it was -/
def Sink.RefusesCleanly (sink : Sink σ) : Prop :=
  ∀ v host fault host', sink.accept v host = (.error fault, host') → host' = host

theorem Sink.refusesCleanly_collecting : Sink.collecting.RefusesCleanly := by
  intro v c fault c' h
  simp only [collecting] at h
  split at h
  · cases h
  · exact (Prod.mk.inj h).2.symm

namespace Statement

variable {cb : Callbacks τ} {env : Environment} {sink : Sink σ} {site : Site} {text : String}
  {s after : Session σ} {t t' : τ} {fault : Fault}

theorem feed_conclude (form : Form) (v : Value) (s : Session σ) :
    (conclude sink form v s).2.feed = s.feed := by
  cases form with
  | result =>
    simp only [conclude]
    split <;> rfl
  | _ => rfl

theorem values_runOver (cb : Callbacks τ) (env : Environment) (sink : Sink σ) (site : Site)
    (text : String) (s : Session σ) (t : τ) :
    (runOver cb env sink site text s t).2.1.feed.values = s.feed.values := by
  have hvalues := drive_keeps (P := fun out : Stack × τ => out.1.feed.values = s.feed.values)
    (fun op out hout => (Machine.values_stepOver cb env s.scopes s.scope site op out).trans hout)
    text (s := (.start s.feed, t)) rfl
  rw [runOver]
  generalize drive (.evaluatingOver cb env s.scopes s.scope site) text (.start s.feed, t) = out
    at hvalues
  obtain ⟨fault | form, stack, t'⟩ := out
  · exact hvalues
  · exact (congrArg Feed.values (feed_conclude form stack.top { s with feed := stack.feed })).trans
      hvalues

theorem values_run (root : Root) (sink : Sink σ) (site : Site) (text : String) (s : Session σ) :
    (run root sink site text s).2.feed.values = s.feed.values := by
  rw [run_eq_runOver]
  exact values_runOver _ _ sink site text s ()

/-- what fails while it takes effect has no effect -/
theorem conclude_error (hsink : sink.RefusesCleanly) {form : Form} {v : Value}
    (h : conclude sink form v s = (.error fault, after)) : after = s := by
  cases form with
  | result =>
    simp only [conclude] at h
    split at h
    · cases h
    · next host heq =>
      obtain ⟨-, rfl⟩ := Prod.mk.inj h
      rw [hsink v s.host _ host heq]
  | _ => cases h

/-- a failed statement moves the feed and nothing else of the session -/
theorem exists_feed_of_error (hsink : sink.RefusesCleanly)
    (h : runOver cb env sink site text s t = (.error fault, after, t')) :
    ∃ feed, after = { s with feed } := by
  rw [runOver] at h
  generalize drive (.evaluatingOver cb env s.scopes s.scope site) text (.start s.feed, t) = out at h
  obtain ⟨_ | form, stack, _⟩ := out
  · exact ⟨stack.feed, (Prod.mk.inj (Prod.mk.inj h).2).1.symm⟩
  · obtain ⟨houtcome, hstate⟩ := Prod.mk.inj h
    exact ⟨stack.feed, conclude_error hsink (Prod.ext houtcome (Prod.mk.inj hstate).1)⟩

/-- after a failed statement, from a given input on, all is as before it -/
theorem seek_of_runOver_error (hsink : sink.RefusesCleanly)
    (h : runOver cb env sink site text s t = (.error fault, after, t')) (index : Nat) :
    after.seek index = s.seek index := by
  have hvalues := values_runOver cb env sink site text s t
  obtain ⟨feed, rfl⟩ := exists_feed_of_error hsink h
  rw [h] at hvalues
  rw [Session.seek, Session.seek, Feed.seek, hvalues]
  rfl

theorem seek_of_run_error {root : Root} (hsink : sink.RefusesCleanly)
    (h : run root sink site text s = (.error fault, after)) (index : Nat) :
    after.seek index = s.seek index := by
  rw [run_eq_runOver] at h
  generalize hout : runOver (.ofHost root.host) root.environment sink site text s () = out at h
  obtain ⟨outcome, s', kept⟩ := out
  obtain ⟨rfl, rfl⟩ := Prod.mk.inj h
  exact seek_of_runOver_error hsink hout index

end Statement

/-! ## the statements after it -/

/-- a statement to be run from a given input on -/
structure Request where
  firstInput : Nat
  site : Site
  text : String

/-- what a statement gives, and what it leaves to the statements after it -/
structure Answer (σ : Type) where
  outcome : Except Fault Value
  scopes : Scopes
  scope : Option Nat
  host : σ

def Answer.succeeded (a : Answer σ) : Bool := a.outcome.toBool

namespace Session

variable {root : Root} {sink : Sink σ}

/-- runs a statement from its first input on -/
def ask (root : Root) (sink : Sink σ) (s : Session σ) (r : Request) :
    Except Fault Value × Session σ :=
  Statement.run root sink r.site r.text (s.seek r.firstInput)

/-- what statements give, one after the other -/
def answers (root : Root) (sink : Sink σ) : Session σ → List Request → List (Answer σ)
  | _, [] => []
  | s, r :: rest =>
    let (outcome, after) := s.ask root sink r
    ⟨outcome, after.scopes, after.scope, after.host⟩ :: answers root sink after rest

/-- what statements give, one after the other, over a state of the callbacks that they pass on -/
def answersOver (cb : Callbacks τ) (env : Environment) (sink : Sink σ) :
    Session σ → τ → List Request → List (Answer σ)
  | _, _, [] => []
  | s, t, r :: rest =>
    let (outcome, after, t) :=
      Statement.runOver cb env sink r.site r.text (s.seek r.firstInput) t
    ⟨outcome, after.scopes, after.scope, after.host⟩ :: answersOver cb env sink after t rest

/-- the statements that succeed when it is their turn -/
def succeeding (root : Root) (sink : Sink σ) : Session σ → List Request → List Request
  | _, [] => []
  | s, r :: rest =>
    match s.ask root sink r with
    | (.ok _, after) => r :: succeeding root sink after rest
    | (.error _, after) => succeeding root sink after rest

/-- only what a statement finds from its first input on matters to it -/
theorem answers_congr {s t : Session σ} (h : ∀ index, s.seek index = t.seek index)
    (requests : List Request) : s.answers root sink requests = t.answers root sink requests := by
  cases requests with
  | nil => rfl
  | cons r rest => rw [answers, answers, ask, ask, h r.firstInput]

theorem answersOver_congr (cb : Callbacks τ) (env : Environment) (sink : Sink σ)
    {s s' : Session σ} (h : ∀ index, s.seek index = s'.seek index) (t : τ)
    (requests : List Request) :
    s.answersOver cb env sink t requests = s'.answersOver cb env sink t requests := by
  cases requests with
  | nil => rfl
  | cons r rest => rw [answersOver, answersOver, h r.firstInput]

/-- over pure callbacks statements give what they give on the host that these are -/
theorem answersOver_of_pure {cb : Callbacks τ} (h : cb.Pure) (env : Environment) (s : Session σ)
    (t t' : τ) (requests : List Request) :
    s.answersOver cb env sink t requests = s.answers ⟨env, cb.frozen t'⟩ sink requests := by
  induction requests generalizing s t with
  | nil => rfl
  | cons r rest ih =>
    rw [answersOver, answers, ask, Statement.run_of_pure h env sink r.site r.text _ t t']
    generalize Statement.runOver cb env sink r.site r.text (s.seek r.firstInput) t = out
    obtain ⟨outcome, after, t⟩ := out
    exact congrArg (List.cons _) (ih after t)

/-- **Failing statements can be left out**: those that succeed give what they give without them. -/
theorem answers_succeeding (hsink : sink.RefusesCleanly) (s : Session σ)
    (requests : List Request) :
    s.answers root sink (s.succeeding root sink requests) =
      (s.answers root sink requests).filter Answer.succeeded := by
  induction requests generalizing s with
  | nil => rfl
  | cons r rest ih =>
    rw [succeeding, answers]
    cases h : s.ask root sink r with
    | mk outcome after =>
      cases outcome with
      | ok v =>
        show s.answers root sink (r :: after.succeeding root sink rest) = _
        rw [List.filter_cons_of_pos rfl, answers, h, ← ih after]
      | error fault =>
        show s.answers root sink (after.succeeding root sink rest) = _
        rw [List.filter_cons_of_neg Bool.false_ne_true, ← ih after]
        have hseek : ∀ index, s.seek index = after.seek index := fun index =>
          (Statement.seek_of_run_error hsink h index).symm
        exact answers_congr hseek _

end Session

/-- callbacks that count the queries, and answer by the count -/
def Callbacks.counting (answer : Nat → Value) : Callbacks Nat where
  answer _ count := (.ok (answer count), count + 1)

namespace Statement

/-- **A failed statement leaves no trace.**  Whatever it fails at, the scopes, the scope in force
and the collector are as they were before it.  Whichever statements follow, each from its first
input on, they give and leave behind what they would without it, from every state of the callbacks
that both series start in; and so from the state that the failed statement has left to the
callbacks, if these are pure. -/
theorem runOver_error {cb : Callbacks τ} {env : Environment} {site : Site} {text : String}
    {s after : Session Collector} {t t' : τ} {fault : Fault}
    (h : runOver cb env .collecting site text s t = (.error fault, after, t')) :
    after.scopes = s.scopes ∧ after.scope = s.scope ∧ after.host = s.host ∧
      (∀ kept requests, after.answersOver cb env .collecting kept requests =
        s.answersOver cb env .collecting kept requests) ∧
      (cb.Pure → ∀ requests, after.answersOver cb env .collecting t' requests =
        s.answersOver cb env .collecting t requests) := by
  have hsink := Sink.refusesCleanly_collecting
  have hanswers := Session.answersOver_congr cb env .collecting (seek_of_runOver_error hsink h)
  obtain ⟨feed, rfl⟩ := exists_feed_of_error hsink h
  refine ⟨rfl, rfl, rfl, hanswers, fun hpure requests => ?_⟩
  rw [hanswers, Session.answersOver_of_pure hpure env s t' t,
    Session.answersOver_of_pure hpure env s t t]

/-- a return that is refused after it has taken an input and called a function that counts its
calls but always gives the same -/
theorem runOver_error_refused :
    let cb := Callbacks.counting fun _ => .string "a"
    let env := Environment.empty.bind "next" (.function ⟨.bound 0, .host "next"⟩)
    let s : Session Collector := ⟨⟨#[⟨"x", .void, none⟩]⟩, some 0, ⟨#[.void], 0⟩,
      ⟨some "vector", #[.void], some (.vector []), #[]⟩⟩
    let after : Session Collector := ⟨s.scopes, some 0, ⟨#[.void], 1⟩, s.host⟩
    runOver cb env .collecting ⟨0, 0, 0⟩ "return next($)" s 0 =
        (.error (.returnTypeMismatch "vector" "string"), after, 1) ∧ cb.Pure ∧
      ∀ requests, after.answersOver cb env .collecting 1 requests =
        s.answersOver cb env .collecting 0 requests := by
  intro cb env s after
  have hscan : Token.scan "return next($)" = .ok [.name "return", .name "next", .mark .openParen,
      .mark .dollar, .mark .closeParen, .finish] := by
    decide +kernel
  have hrun : runOver cb env .collecting ⟨0, 0, 0⟩ "return next($)" s 0 =
      (.error (.returnTypeMismatch "vector" "string"), after, 1) := by
    rw [runOver, drive, hscan]
    rfl
  have hpure : cb.Pure := fun _ _ _ => rfl
  exact ⟨hrun, hpure, (runOver_error hrun).2.2.2.2 hpure⟩

/-- a function that answers by the number of its calls: the statement after a failed one can tell
that it was run -/
theorem runOver_error_counting :
    let cb := Callbacks.counting fun count => .float (Binary.ofNat (count + 1))
    let env := Environment.empty.bind "next" (.function ⟨.bound 0, .host "next"⟩)
    let s : Session Collector := .start .empty [] (.expecting none)
    let request : Request := ⟨0, ⟨0, 0, 1⟩, "next()"⟩
    runOver cb env .collecting ⟨0, 0, 0⟩ "next() + \"a\"" s 0 =
        (.error (.invalidOperands .plus "float" "string"), s, 1) ∧
      (s.answersOver cb env .collecting 1 [request]).map Answer.outcome =
        [.ok (.float (Binary.ofNat 2))] ∧
      (s.answersOver cb env .collecting 0 [request]).map Answer.outcome =
        [.ok (.float (Binary.ofNat 1))] ∧
      s.answersOver cb env .collecting 1 [request] ≠
        s.answersOver cb env .collecting 0 [request] := by
  intro cb env s request
  have hscan : Token.scan "next() + \"a\"" = .ok [.name "next", .mark .openParen,
      .mark .closeParen, .mark .plus, .string "a", .finish] := by
    decide +kernel
  have hnext : Token.scan "next()" = .ok [.name "next", .mark .openParen, .mark .closeParen,
      .finish] := by
    decide +kernel
  have hanswer : ∀ count, (s.answersOver cb env .collecting count [request]).map Answer.outcome =
      [.ok (.float (Binary.ofNat (count + 1)))] := by
    intro count
    rw [Session.answersOver, runOver, drive, hnext]
    rfl
  refine ⟨?_, hanswer 1, hanswer 0, fun h => ?_⟩
  · rw [runOver, drive, hscan]
    rfl
  · have houtcomes := congrArg (List.map Answer.outcome) h
    rw [hanswer, hanswer] at houtcomes
    have hfloats : (Binary.ofNat 2 : Single) = Binary.ofNat 1 := by
      simpa using houtcomes
    exact absurd hfloats (by decide +kernel)

end Statement

end Dataflow
