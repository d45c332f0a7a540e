import Dataflow.Proofs.Account
import Dataflow.Proofs.Replay
import Dataflow.Run

/-!
# Checking statements and running them

The check reads a statement into a machine that only counts, the run reads it into one that
computes.  Both hand on the same operations (`Statement.exists_replay`).  The counting machine never
refuses one, so the check fails just where the text is malformed; the computing machine may stop
earlier, but not with a fault of that kind.

* `NoParseFault`                  a failure that does not blame the text;
* `Feed.Advanced`                 so many inputs have been taken;
* `Machine.run_tallying`, `Machine.run_evaluating`   what the two machines make of the operations;
* `Statement.check_run`           the check against the run, for statements and for diagrams.
-/

namespace Dataflow

variable {σ α : Type}

/-- if this fails, then not because a text is malformed -/
def NoParseFault (r : Except Fault α) : Prop := ∀ fault, r = .error fault → fault.kind ≠ .parse

/-- no function and no constructor of the host blames a text -/
structure Host.NoParseFaults (host : Host) : Prop where
  call : ∀ name args, NoParseFault (host.call name args)
  construct : ∀ name args, NoParseFault (host.construct name args)

/-- no return is refused as malformed -/
def Sink.NoParseFaults (sink : Sink σ) : Prop := ∀ v s, NoParseFault (sink.accept v s).1

namespace NoParseFault

theorem ok (a : α) : NoParseFault (.ok a) := fun _ h => by cases h

theorem error {fault : Fault} (h : fault.kind ≠ .parse) :
    NoParseFault (.error fault : Except Fault α) := by
  rintro _ ⟨⟩
  exact h

end NoParseFault

/-- a fault of the language itself blames no text -/
theorem Fault.Plain.kind_ne_parse {fault : Fault} (h : fault.Plain) : fault.kind ≠ .parse := by
  rw [h.kind]
  decide

theorem Host.NoParseFaults.failsWith {host : Host} (h : host.NoParseFaults) :
    host.FailsWith (·.kind ≠ .parse) := ⟨h.call, h.construct⟩

theorem Host.noParseFaults_none : Host.none.NoParseFaults :=
  have h : Host.none.FailsWith (·.kind ≠ .parse) := Host.failsWith_none fun _ h => h.kind_ne_parse
  ⟨h.call, h.construct⟩

theorem Sink.noParseFaults_collecting : Sink.collecting.NoParseFaults :=
  Sink.failsWith_collecting fun _ _ => nofun

/-! ## inputs -/

/-- so many inputs were there and have been taken -/
structure Feed.Advanced (n : Nat) (before after : Feed) : Prop where
  values : after.values = before.values
  next : after.next = before.next + n
  remaining : after.remaining + n = before.remaining

namespace Feed.Advanced

theorem refl (feed : Feed) : feed.Advanced 0 feed := ⟨rfl, rfl, rfl⟩

theorem trans {m n : Nat} {a b c : Feed} (h : a.Advanced m b) (h' : b.Advanced n c) :
    a.Advanced (m + n) c := by
  have hnext := h'.next
  have hremaining := h'.remaining
  refine ⟨h'.values.trans h.values, ?_, ?_⟩
  · rw [hnext, h.next, Nat.add_assoc]
  · rw [← h.remaining, ← hremaining]
    omega

theorem take {feed after : Feed} {v : Value} (h : feed.take = some (v, after)) :
    feed.Advanced 1 after := by
  obtain ⟨w, hw, heq⟩ := Option.map_eq_some_iff.mp h
  obtain ⟨rfl, rfl⟩ := Prod.mk.inj heq
  have hlt : feed.next < feed.values.size := (Array.getElem?_eq_some_iff.mp hw).1
  refine ⟨rfl, rfl, ?_⟩
  simp only [Feed.remaining]
  omega

end Feed.Advanced

/-! ## the two machines -/

namespace Machine

theorem count_input_cons (op : Op) (ops : List Op) :
    (op :: ops).count .input = [op].count .input + ops.count .input := by
  rw [← List.singleton_append, List.count_append]

/-- the counting machine refuses nothing -/
theorem run_tallying (ops : List Op) (t : Tally) :
    ∃ depth, (tallying true).run ops t = (.ok (), ⟨depth, t.inputs + ops.count .input⟩) := by
  induction ops generalizing t with
  | nil => exact ⟨t.depth, rfl⟩
  | cons op ops ih =>
    obtain ⟨depth, hstep⟩ : ∃ depth, (tallying true).step op t
        = (.ok (), ⟨depth, t.inputs + [op].count .input⟩) := by
      cases op <;> exact ⟨_, rfl⟩
    obtain ⟨depth', hrun⟩ := ih ⟨depth, t.inputs + [op].count .input⟩
    refine ⟨depth', ?_⟩
    rw [run_cons_of_ok hstep, hrun, count_input_cons op ops, Nat.add_assoc]

/-- what an operation leaves, or a fault that does not blame the text -/
def Computes (n : Nat) (s : Stack) : Except Fault Unit × Stack → Prop
  | (.ok (), after) => s.feed.Advanced n after.feed
  | (.error fault, _) => fault.kind ≠ .parse

theorem computes_leave {s after : Stack} {r : Except Fault Value} {n : Nat}
    (hfeed : s.feed.Advanced n after.feed) (hr : NoParseFault r) :
    Computes n s (leave after r) := by
  cases r with
  | ok v => exact hfeed
  | error fault => exact hr fault rfl

theorem computes_step {root : Root} (hroot : root.host.NoParseFaults) (scopes : Scopes)
    (scope : Option Nat) (site : Site) (op : Op) (s : Stack) :
    Computes ([op].count .input) s ((evaluating root scopes scope site).step op s) := by
  have hplain : ∀ fault : Fault, fault.Plain → fault.kind ≠ .parse := fun _ h => h.kind_ne_parse
  cases op with
  | number digits => exact computes_leave (.refl _) (.ok _)
  | string text => exact computes_leave (.refl _) (.ok _)
  | input =>
    simp only [evaluating]
    split
    · next v feed htake => exact computes_leave (.take htake) (.ok v)
    · exact (nofun : Fault.noMoreInputs.kind ≠ .parse)
  | name text =>
    simp only [evaluating]
    split
    · next v _ => exact computes_leave (.refl _) (.ok v)
    · exact (nofun : (Fault.unknownIdentifier text).kind ≠ .parse)
  | vector length => exact computes_leave (.refl _) (.ok (.vector (s.topMost length)))
  | member name => exact computes_leave (.refl _) (Value.failsWith_memberOf hplain _ _ _)
  | call forms => exact computes_leave (.refl _) (Value.failsWith_call hplain hroot.failsWith _ _ _)
  | binary sign => exact computes_leave (.refl _) (Value.failsWith_apply hplain _ _ _)

/-- the computing machine takes an input for every operation that asks for one, and what it refuses
is not the text -/
theorem run_evaluating {root : Root} (hroot : root.host.NoParseFaults) (scopes : Scopes)
    (scope : Option Nat) (site : Site) (ops : List Op) (s : Stack) :
    Computes (ops.count .input) s ((evaluating root scopes scope site).run ops s) := by
  induction ops generalizing s with
  | nil => exact .refl s.feed
  | cons op ops ih =>
    have hstep := computes_step hroot scopes scope site op s
    rw [count_input_cons]
    cases h : (evaluating root scopes scope site).step op s with
    | mk answer after =>
      rw [h] at hstep
      cases answer with
      | error fault =>
        rw [run_cons_of_error h]
        exact hstep
      | ok _ =>
        rw [run_cons_of_ok h]
        have hrest := ih after
        cases h' : (evaluating root scopes scope site).run ops after with
        | mk answer' last =>
          rw [h'] at hrest
          cases answer' with
          | error fault => exact hrest
          | ok _ => exact hstep.trans hrest

end Machine

namespace Statement

variable {text : String} {ops : List Op} {result : Except Fault Form}

/-- the check fails where the reading fails, and otherwise counts the inputs asked for -/
theorem check_eq (h : ∀ (σ : Type) (m : Machine σ) (s : σ), drive m text s = m.replay ops result s) :
    check text = result.map fun _ => ops.count .input := by
  obtain ⟨depth, hrun⟩ := Machine.run_tallying ops ⟨0, 0⟩
  rw [check, h, Machine.replay, hrun]
  cases result <;> simp [Except.map]

/-- taking effect blames no text and takes no input -/
theorem conclude_spec {sink : Sink σ} (hsink : sink.NoParseFaults) (form : Form) (v : Value)
    {s : Session σ} {feed : Feed} {n : Nat} (h : feed.Advanced n s.feed) :
    NoParseFault (conclude sink form v s).1 ∧
      ∀ w after, conclude sink form v s = (.ok w, after) → feed.Advanced n after.feed := by
  cases form with
  | display => exact ⟨.ok _, by rintro _ _ ⟨⟩; exact h⟩
  | assignment name => exact ⟨.ok _, by rintro _ _ ⟨⟩; exact h⟩
  | expression => exact ⟨.ok _, by rintro _ _ ⟨⟩; exact h⟩
  | result =>
    have haccept := hsink v s.host
    simp only [conclude]
    cases hanswer : sink.accept v s.host with
    | mk answer host =>
      rw [hanswer] at haccept
      cases answer with
      | error fault => exact ⟨.error (haccept fault rfl), by rintro _ _ ⟨⟩⟩
      | ok _ => exact ⟨.ok _, by rintro _ _ ⟨⟩; exact h⟩

/-- a text that passes is not blamed when it is run, and a run without a fault takes as many inputs
as were counted -/
theorem run_of_check_ok {root : Root} (hroot : root.host.NoParseFaults) {sink : Sink σ}
    (hsink : sink.NoParseFaults) {n : Nat} (hcheck : check text = .ok n) (site : Site)
    (s : Session σ) :
    NoParseFault (run root sink site text s).1 ∧
      ∀ v after, run root sink site text s = (.ok v, after) → s.feed.Advanced n after.feed := by
  obtain ⟨ops, result, h⟩ := exists_replay text
  rw [check_eq h] at hcheck
  cases result with
  | error fault => cases hcheck
  | ok form =>
    obtain rfl : ops.count .input = n := Except.ok.inj hcheck
    have hrun := Machine.run_evaluating hroot s.scopes s.scope site ops (.start s.feed)
    rw [run, h, Machine.replay]
    generalize (Machine.evaluating root s.scopes s.scope site).run ops (.start s.feed) = out at hrun
    obtain ⟨fault | _, stack⟩ := out
    · exact ⟨.error hrun, fun _ _ heq => by cases heq⟩
    · exact conclude_spec hsink form stack.top hrun

/-- a text that does not pass fails before it has any effect -/
theorem run_of_check_error {root : Root} (hroot : root.host.NoParseFaults) {fault : Fault}
    (hcheck : check text = .error fault) (site : Site) (scopes : Scopes) (scope : Option Nat)
    (feed : Feed) :
    ∃ fault' after, (fault' = fault ∨ fault'.kind ≠ .parse) ∧
      ∀ (σ : Type) (sink : Sink σ) (host : σ), run root sink site text ⟨scopes, scope, feed, host⟩ =
        (.error fault', ⟨scopes, scope, after, host⟩) := by
  obtain ⟨ops, result, h⟩ := exists_replay text
  rw [check_eq h] at hcheck
  cases result with
  | ok form => cases hcheck
  | error fault' =>
    obtain rfl : fault' = fault := Except.error.inj hcheck
    have hrun := Machine.run_evaluating hroot scopes scope site ops (.start feed)
    cases hout : (Machine.evaluating root scopes scope site).run ops (.start feed) with
    | mk answer stack =>
      rw [hout] at hrun
      cases answer with
      | error other =>
        refine ⟨other, stack.feed, .inr hrun, fun σ sink host => ?_⟩
        simp only [run, h, Machine.replay, hout]
      | ok _ =>
        refine ⟨fault', stack.feed, .inl rfl, fun σ sink host => ?_⟩
        simp only [run, h, Machine.replay, hout]

end Statement

/-! ## passes -/

/-- a statement that the check of a diagram has nothing to say about -/
def Statement.Passes (text : String) : Prop := isBlank text = true ∨ ∃ n, check text = .ok n

theorem Node.passes_of_complaintsFrom {id line : Nat} {pieces : List (List Line)}
    (h : complaintsFrom id line pieces = []) :
    ∀ lines ∈ pieces, Statement.Passes (textOf lines) := by
  induction pieces generalizing line with
  | nil => exact fun _ hmem => by cases hmem
  | cons lines rest ih =>
    rw [complaintsFrom] at h
    rw [List.forall_mem_cons]
    cases hblank : Statement.isBlank (textOf lines) with
    | true =>
      rw [if_pos hblank] at h
      exact ⟨.inl hblank, ih h⟩
    | false =>
      rw [if_neg (by simp [hblank])] at h
      cases hcheck : Statement.check (textOf lines) with
      | ok n =>
        rw [hcheck] at h
        exact ⟨.inr ⟨n, hcheck⟩, ih h⟩
      | error fault =>
        rw [hcheck] at h
        cases h

namespace Diagram

variable {d : Diagram} {root : Root} {sink : Sink σ} {pass : Nat}

theorem passes_of_complaints (h : d.complaints = []) {slot : Nat} {n : Node}
    (hn : d.node? slot = some n) : ∀ lines ∈ n.statementLines, Statement.Passes (Node.textOf lines) :=
  Node.passes_of_complaintsFrom (List.flatMap_eq_nil_iff.mp h (slot, n) (mem_existing.mpr hn))

end Diagram

theorem noParseFault_runStatement {root : Root} (hroot : root.host.NoParseFaults) {sink : Sink σ}
    (hsink : sink.NoParseFaults) {text : String} (h : Statement.Passes text) (site : Site)
    (firstInput : Nat) (s : Session σ) :
    NoParseFault (runStatement root sink site text firstInput s).1 := by
  unfold runStatement
  split
  · exact .ok Value.void
  · next hblank =>
    obtain ⟨n, hcheck⟩ := h.resolve_left hblank
    exact (Statement.run_of_check_ok hroot hsink hcheck site (s.seek firstInput)).1

theorem noParseFault_statementsRan {root : Root} (hroot : root.host.NoParseFaults) {sink : Sink σ}
    (hsink : sink.NoParseFaults) {pass slot : Nat} {statements : List (Statement × List Line)}
    (h : ∀ p ∈ statements, Statement.Passes (Node.textOf p.2)) (index firstInput : Nat)
    (s : Session σ) :
    ∀ r ∈ statementsRan root sink pass slot statements index firstInput s,
      NoParseFault r.outcome := by
  induction statements generalizing index firstInput s with
  | nil => exact fun _ hr => by cases hr
  | cons first rest ih =>
    rw [List.forall_mem_cons] at h
    rw [statementsRan, List.forall_mem_cons]
    exact ⟨noParseFault_runStatement hroot hsink h.1 _ _ _, ih h.2 _ _ _⟩

namespace Diagram

/-- a pass over a diagram that the check has nothing to say about blames no text -/
theorem kind_of_mem_faults {d : Diagram} (hcheck : d.complaints = []) {root : Root}
    (hroot : root.host.NoParseFaults) {sink : Sink σ} (hsink : sink.NoParseFaults) {pass : Nat}
    {earlier : Results} {host : σ} {slot : Nat} {fault : Fault}
    (h : some fault ∈ d.faults root sink pass earlier host slot) : fault.kind ≠ .parse := by
  by_cases hmem : slot ∈ d.runOrder
  · obtain ⟨r, hr, rfl, hfaults⟩ := faults_of_mem root sink pass earlier host hmem
    obtain ⟨n, hn⟩ := Option.isSome_iff_exists.mp (mem_runOrder.mp hmem).1
    obtain ⟨state, hstate⟩ := exists_slotRan hr
    rw [hfaults, hstate] at h
    obtain ⟨ran, hran, hfault⟩ := List.mem_flatMap.mp h
    simp only [slotRan, hn] at hran
    have houtcome := noParseFault_statementsRan hroot hsink (fun p hp =>
      passes_of_complaints hcheck hn p.2 (List.of_mem_zip hp).2) _ _ _ ran hran
    have heq : ran.fault? = some fault := (List.eq_of_mem_replicate hfault).symm
    unfold Ran.fault? at heq
    split at heq
    · cases heq
    · next houtcome' =>
      obtain rfl := Option.some.inj heq
      exact houtcome _ houtcome'
  · rw [faults_of_not_mem hmem] at h
    cases hn : d.node? slot with
    | none =>
      rw [hn] at h
      cases h
    | some n =>
      rw [hn] at h
      obtain rfl := Option.some.inj (List.eq_of_mem_replicate h)
      decide

end Diagram

namespace Statement

/-- **The check and the run agree on what is malformed**, where neither the functions of the host
nor its answers blame a text.

* A text that passes is not blamed when it is run, and a run without a fault takes as many inputs as
  the check has counted.
* A text that does not pass fails when it is run, with the same fault or with one that does not
  blame the text; it fails alike for every host, which it does not call, and opens no scope.
* A pass over a diagram whose statements all pass leaves no fault of this kind on any line. -/
theorem check_run {root : Root} (hroot : root.host.NoParseFaults) :
    (∀ text n, check text = .ok n → ∀ (σ : Type) (sink : Sink σ), sink.NoParseFaults →
      ∀ site (s : Session σ), NoParseFault (run root sink site text s).1 ∧
        ∀ v after, run root sink site text s = (.ok v, after) → s.feed.Advanced n after.feed) ∧
    (∀ text fault, check text = .error fault → ∀ site scopes scope feed, ∃ fault' after,
      (fault' = fault ∨ fault'.kind ≠ .parse) ∧
      ∀ (σ : Type) (sink : Sink σ) (host : σ), run root sink site text ⟨scopes, scope, feed, host⟩ =
        (.error fault', ⟨scopes, scope, after, host⟩)) ∧
    (∀ d : Diagram, d.complaints = [] → ∀ (σ : Type) (sink : Sink σ), sink.NoParseFaults →
      ∀ pass earlier host slot,
        (∀ result, (d.evaluate root sink pass earlier host).1.nodes[slot]? = some result →
          result.errors = (d.faults root sink pass earlier host slot).map Fault.shown) ∧
        ∀ fault, some fault ∈ d.faults root sink pass earlier host slot → fault.kind ≠ .parse) := by
  refine ⟨fun text n hcheck σ sink hsink site s => ?_,
    fun text fault hcheck site scopes scope feed => ?_,
    fun d hcheck σ sink hsink pass earlier host slot => ⟨fun result hresult => ?_, fun fault h => ?_⟩⟩
  · exact run_of_check_ok hroot hsink hcheck site s
  · exact run_of_check_error hroot hcheck site scopes scope feed
  · exact Diagram.errors_eq_faults hresult
  · exact Diagram.kind_of_mem_faults hcheck hroot hsink h

/-- a vector of two inputs, a text that is not finished, and a diagram with an unknown name -/
theorem check_run_unknown :
    check "[$,$]" = .ok 2 ∧ check "show([z,$" = .error .missingCloseBracket ∧
    Diagram.complaints ⟨#[some ⟨.zero false, .zero false, [⟨"z", 0⟩], [⟨1, true⟩], [], [0]⟩]⟩ = [] ∧
    (∀ v after, run ⟨.empty, .none⟩ .collecting ⟨0, 0, 0⟩ "[$,$]"
        (.start .empty [.void, .string "a", .void] (.expecting none)) = (.ok v, after) →
      Feed.Advanced 2 (.ofList [.void, .string "a", .void]) after.feed) ∧
    (∃ fault after, (fault = .missingCloseBracket ∨ fault.kind ≠ .parse) ∧
      ∀ (σ : Type) (sink : Sink σ) (host : σ),
        run ⟨.empty, .none⟩ sink ⟨0, 0, 0⟩ "show([z,$" ⟨.empty, none, .ofList [], host⟩ =
          (.error fault, ⟨.empty, none, after, host⟩)) ∧
    ∀ fault, some fault ∈ Diagram.faults
        ⟨#[some ⟨.zero false, .zero false, [⟨"z", 0⟩], [⟨1, true⟩], [], [0]⟩]⟩
        ⟨.empty, .none⟩ .collecting 0 .empty (.expecting none) 0 → fault.kind ≠ .parse := by
  have hpair : check "[$,$]" = .ok 2 := by decide +kernel
  have hopen : check "show([z,$" = .error .missingCloseBracket := by decide +kernel
  have hname : Diagram.complaints
      ⟨#[some ⟨.zero false, .zero false, [⟨"z", 0⟩], [⟨1, true⟩], [], [0]⟩]⟩ = [] := by
    decide +kernel
  have hroot := Host.noParseFaults_none
  have hsink := Sink.noParseFaults_collecting
  obtain ⟨hok, herror, hpass⟩ := @check_run ⟨.empty, .none⟩ hroot
  refine ⟨hpair, hopen, hname, ?_, ?_, ?_⟩
  · exact (hok _ _ hpair _ _ hsink _ _).2
  · exact herror _ _ hopen _ _ _ _
  · exact (hpass _ hname _ _ hsink _ _ _ _).2

end Statement

end Dataflow
