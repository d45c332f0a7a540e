import Dataflow.Proofs.Brackets
import Dataflow.Proofs.Handover
import Dataflow.Proofs.Rebuild
import Dataflow.Proofs.Scanning

/-!
# Assignments as they are written and as they are run

The shape of a node is told from the characters of its statements, what a statement does from its
tokens.  The two tell the same texts apart wherever a statement can be read.

* `Statement.exists_of_target?`   the characters of a text that assigns to a name;
* `Statement.target?_iff`         the same told by the tokens;
* `Statement.form?`               the form that a run of a text takes;
* `Statement.form_of_drive`       of a text that is read the form is an assignment just if the text
                                  assigns to a name;
* `Statement.Binds`               what a run does to the scopes;
* `NodeResult.Voids`              the result of a node with nothing on the outputs that are held;
* `Statement.target_agrees`       all of this together.
-/

namespace Dataflow

open Parse Dataflow.Tree

variable {σ : Type}

/-! ## characters -/

namespace Text

theorem leadingName?_eq_some_iff {text name rest : List Char} :
    leadingName? text = some (name, rest) ↔
      text = name ++ rest ∧ IsName name ∧ ∀ c ∈ rest.head?, isNamePart c = false := by
  constructor
  · intro h
    refine ⟨(leadingName?_append h).symm, ?_⟩
    cases text with
    | nil => cases h
    | cons c more =>
      rw [leadingName?] at h
      split at h
      · next hstart =>
        cases h
        exact ⟨⟨c, _, rfl, hstart, fun u hu => List.mem_takeWhile_imp hu⟩, head?_dropWhile _ _⟩
      · cases h
  · intro h
    obtain ⟨htext, ⟨c, more, hname, hstart, hmore⟩, hrest⟩ := h
    obtain ⟨htake, hdrop⟩ := cut_run hmore hrest
    rw [htext, hname, List.cons_append, leadingName?, if_pos hstart, htake, hdrop]

end Text

namespace Statement

variable {text name : String} {tokens : List Token} {form : Form}

/-- a text that assigns to a name has it in front, with an equals sign behind -/
theorem exists_of_target? (h : target? text = some name) : ∃ gap gap' after,
    text.toList = gap ++ (name.toList ++ (gap' ++ '=' :: after)) ∧ Text.IsName name.toList ∧
      (∀ c ∈ gap, Text.isBlank c = true) ∧ ∀ c ∈ gap', Text.isBlank c = true := by
  rw [target?] at h
  split at h
  · next word rest hword =>
    obtain ⟨htrim, hname, -⟩ := Text.leadingName?_eq_some_iff.mp hword
    split at h
    · next hequals =>
      obtain rfl := Option.some.inj h
      obtain ⟨gap, htext, hgap⟩ := Text.exists_trimStart text.toList
      obtain ⟨gap', hrest, hgap'⟩ := Text.exists_trimStart rest
      obtain ⟨after, hafter⟩ := List.head?_eq_some_iff.mp hequals
      rw [String.toList_ofList]
      refine ⟨gap, gap', after, ?_, hname, hgap, hgap'⟩
      rw [← hafter, ← hrest, ← htrim, ← htext]
    · cases h
  · cases h

/-- what stands behind the equals sign is scanned behind the name and the sign -/
theorem scanChars_assignment {gap gap' after : List Char} (hname : Text.IsName name.toList)
    (hgap : ∀ c ∈ gap, Text.isBlank c = true) (hgap' : ∀ c ∈ gap', Text.isBlank c = true) :
    Token.scanChars (gap ++ (name.toList ++ (gap' ++ '=' :: after))) =
      Token.cons (.name name) (Token.cons (.mark .equals) (Token.scanChars after)) := by
  have hstops : Token.Stops (.name name) (gap' ++ '=' :: after) := by
    intro c hc
    cases gap' with
    | nil =>
      cases hc
      rfl
    | cons u more =>
      cases hc
      exact Text.isNamePart_of_isBlank (hgap' c List.mem_cons_self)
  have hproper : Token.Proper (.name name) := hname
  have hfirst := Token.scanChars_shown hproper hstops
  rw [Token.scanChars_gap hgap' _] at hfirst
  rw [Token.scanChars_gap hgap]
  exact hfirst.trans (congrArg _ (Token.scanChars_mark .equals after))

/-- **A text assigns to a name if its first two tokens are the name and an equals sign.** -/
theorem target?_iff (hscan : Token.scan text = .ok tokens) :
    target? text = some name ↔ ∃ rest, tokens = .name name :: .mark .equals :: rest := by
  constructor
  · intro h
    obtain ⟨gap, gap', after, htext, hname, hgap, hgap'⟩ := exists_of_target? h
    rw [Token.scan, htext, scanChars_assignment hname hgap hgap'] at hscan
    obtain ⟨later, hlater, rfl⟩ := Token.cons_ok hscan
    obtain ⟨rest, -, rfl⟩ := Token.cons_ok hlater
    exact ⟨rest, rfl⟩
  · intro h
    obtain ⟨rest, htokens⟩ := h
    rw [Token.scan, htokens] at hscan
    obtain ⟨after, htrim, hname, hstops, hlater⟩ := Token.scanChars_ok_cons hscan (by simp)
    obtain ⟨after', htrim', -⟩ := Token.scanChars_ok_cons hlater (by simp)
    rw [Token.toList_shown_mark] at htrim'
    have hword : Text.leadingName? (Text.trimStart text.toList) = some (name.toList, after) :=
      Text.leadingName?_eq_some_iff.mpr ⟨htrim, hname, hstops⟩
    have hequals : (Text.trimStart after).head? = some '=' := by
      rw [htrim']
      rfl
    simp only [target?, hword]
    rw [if_pos hequals, String.ofList_toList]

end Statement

/-! ## how expressions begin -/

namespace Tree

/-- tokens with a first one that is not an equals sign -/
def Leads (tokens : List Token) : Prop := ∃ t rest, tokens = t :: rest ∧ t ≠ .mark .equals

theorem Leads.append {tokens : List Token} (h : Leads tokens) (more : List Token) :
    Leads (tokens ++ more) := by
  obtain ⟨t, rest, rfl, hne⟩ := h
  exact ⟨t, rest ++ more, rfl, hne⟩

theorem Primary.leads (t : Primary) : Leads t.yield := by
  cases t with
  | parens inner => exact ⟨.mark .openParen, _, rfl, by decide⟩
  | number digits => exact ⟨.number digits, [], rfl, by simp⟩
  | string text => exact ⟨.string text, [], rfl, by simp⟩
  | input => exact ⟨.mark .dollar, [], rfl, by decide⟩
  | name text => exact ⟨.name text, [], rfl, by simp⟩
  | vector elements => exact ⟨.mark .openBracket, _, rfl, by decide⟩

theorem Access.leads (t : Access) : Leads t.yield := by
  cases t with
  | primary p => exact p.leads
  | member of name => exact of.leads.append _
  | call callee arguments => exact callee.leads.append _

theorem Product.leads (t : Product) : Leads t.yield := by
  cases t with
  | access a => exact a.leads
  | join left sign right => exact left.leads.append _

theorem Expr.leads (t : Expr) : Leads t.yield := by
  cases t with
  | product p => exact p.leads
  | join left sign right => exact left.leads.append _

end Tree

/-! ## forms -/

namespace Statement

variable {text name : String} {tokens : List Token} {form : Form}

/-- the form of a text, which a run takes before it reads the expression -/
def form? (text : String) : Option Form :=
  match Token.scan text with
  | .error _ => none
  | .ok tokens =>
    match (readForm tokens ()).1 with
    | .ok (form, _) => some form
    | .error _ => none

/-- the form depends on the tokens alone -/
theorem fst_readForm (tokens : List Token) :
    ∃ result, ∀ (σ : Type) (s : σ), (readForm tokens s).1 = result := by
  obtain ⟨ops, result, -, hreplay⟩ := uniform_readForm tokens
  refine ⟨result, fun σ s => ?_⟩
  let idle : Machine σ := ⟨fun _ s => (.ok (), s)⟩
  have hidle : idle.Unfailing := fun _ _ => rfl
  have hread : readForm tokens s = idle.replay ops result s := hreplay σ idle s
  rw [hread, Machine.fst_replay, hidle.run]

/-- a statement ends with the form that it began with -/
theorem exists_readForm {m : Machine σ} {s s' : σ} {rest : List Token}
    (h : read m tokens s = (.ok (form, rest), s')) :
    ∃ mid, (readForm tokens s).1 = .ok (form, mid) := by
  obtain ⟨form', mid, s₁, hform, hnext⟩ := bind_ok h
  obtain ⟨_, _, _, _, hlast⟩ := bind_ok hnext
  have hend : ∀ {ahead : List Token} {s₃ : σ},
      (do finish; pure form' : Parse σ Form) ahead s₃ = (.ok (form, rest), s') → form' = form := by
    intro ahead s₃ hend
    obtain ⟨_, _, _, _, hpure⟩ := bind_ok hend
    exact (pure_ok hpure).1
  have hsame : form' = form := by
    split at hlast
    · obtain ⟨_, _, _, _, hlast⟩ := bind_ok hlast
      exact hend hlast
    · exact hend hlast
  exact ⟨mid, by rw [hform, hsame]⟩

/-- a statement that is read has been read in its form, with the tokens of the form around a tree -/
theorem exists_of_drive {m : Machine σ} {s s' : σ} (h : drive m text s = (.ok form, s')) :
    form? text = some form ∧ ∃ (t : Expr) (more : List Token),
      Token.scan text = .ok (form.lead ++ (t.yield ++ form.trail) ++ .finish :: more) := by
  unfold drive at h
  split at h
  · cases h
  · next tokens hscan =>
    split at h
    · next found rest after hread =>
      cases h
      obtain ⟨mid, hform⟩ := exists_readForm hread
      obtain ⟨result, hresult⟩ := fst_readForm tokens
      have hunit : (readForm tokens ()).1 = .ok (form, mid) := by
        rw [hresult, ← hresult σ s, hform]
      obtain ⟨body, hbody, -⟩ := Token.scan_ok hscan
      have hends : Ends tokens := by
        rw [hbody]
        exact Ends.append body rfl
      obtain ⟨t, more, htokens⟩ := exists_yield hends hread
      refine ⟨?_, t, more, by rw [hscan, htokens]⟩
      simp only [form?, hscan, hunit]
    · cases h

/-- **A text that is read is an assignment just if it assigns to a name.** -/
theorem form_of_drive {m : Machine σ} {s s' : σ} (h : drive m text s = (.ok form, s'))
    (name : String) : target? text = some name ↔ form = .assignment name := by
  obtain ⟨-, t, more, hscan⟩ := exists_of_drive h
  rw [target?_iff hscan]
  obtain ⟨u, rest, hyield, hne⟩ := t.leads
  cases form with
  | display =>
    constructor
    · intro ⟨_, htokens⟩
      simp [Form.lead] at htokens
    · intro hform
      cases hform
  | result =>
    constructor
    · intro ⟨_, htokens⟩
      rw [hyield] at htokens
      simp [Form.lead, hne] at htokens
    · intro hform
      cases hform
  | assignment name' =>
    constructor
    · intro ⟨_, htokens⟩
      have hname : name' = name := by
        simp [Form.lead] at htokens
        exact htokens.1
      rw [hname]
    · intro hform
      cases hform
      exact ⟨_, rfl⟩
  | expression =>
    constructor
    · intro ⟨after, htokens⟩
      have hopens : Expression.Opens (t.yield ++ .finish :: more) :=
        Expression.opens_expr t (by simp)
      have hbegin : t.yield ++ .finish :: more = .name name :: .mark .equals :: after := by
        simpa [Form.lead, Form.trail] using htokens
      exact absurd hbegin (hopens.unnamed name after)
    · intro hform
      cases hform

theorem afterEquals_append {front after : List Char} (h : '=' ∉ front) :
    afterEquals (front ++ '=' :: after) = after := by
  have hfront : ∀ c ∈ front, (c != '=') = true := fun c hc => by
    rw [bne_iff_ne]
    exact fun heq => h (heq ▸ hc)
  rw [afterEquals, List.dropWhile_append_of_pos hfront, List.dropWhile_cons_of_neg (by simp)]
  rfl

/-- the tokens of an unfinished assignment -/
theorem scan_of_isUnfinished (h : isUnfinished text = true) :
    ∃ name, target? text = some name ∧
      Token.scan text = .ok [.name name, .mark .equals, .finish] := by
  obtain ⟨hsome, hblank⟩ := Bool.and_eq_true_iff.mp h
  obtain ⟨name, hname⟩ := Option.isSome_iff_exists.mp hsome
  obtain ⟨gap, gap', after, htext, hword, hgap, hgap'⟩ := exists_of_target? hname
  have hfront : '=' ∉ gap ++ (name.toList ++ gap') := by
    intro hmem
    rcases List.mem_append.mp hmem with hmem | hmem
    · cases hgap _ hmem
    · rcases List.mem_append.mp hmem with hmem | hmem
      · cases hword.parts _ hmem
      · cases hgap' _ hmem
  have hsplit : text.toList = gap ++ (name.toList ++ gap') ++ '=' :: after := by
    rw [htext, List.append_assoc, List.append_assoc]
  rw [hsplit, afterEquals_append hfront] at hblank
  refine ⟨name, hname, ?_⟩
  rw [Token.scan, htext, scanChars_assignment hword hgap hgap',
    Token.scanChars_of_isBlankText hblank]
  rfl

/-- **An expression has a token**, so nothing is read from a blank text, nor behind the equals sign
of an unfinished assignment. -/
theorem drive_ne_ok {m : Machine σ} {s s' : σ}
    (hempty : isBlank text = true ∨ isUnfinished text = true) :
    drive m text s ≠ (.ok form, s') := by
  intro h
  obtain ⟨-, t, more, hscan⟩ := exists_of_drive h
  obtain ⟨u, rest, hyield, -⟩ := t.leads
  rw [hyield] at hscan
  rcases hempty with hblank | hunfinished
  · have hfinish : Token.scan text = .ok [.finish] := Token.scanChars_of_isBlankText hblank
    have hlength := congrArg List.length (Except.ok.inj (hfinish.symm.trans hscan))
    simp only [List.length_append, List.length_cons, List.length_nil] at hlength
    omega
  · obtain ⟨name, hname, htokens⟩ := scan_of_isUnfinished hunfinished
    obtain rfl := (form_of_drive h name).mp hname
    have hlength := congrArg List.length (Except.ok.inj (htokens.symm.trans hscan))
    simp only [Form.lead, List.length_append, List.length_cons, List.length_nil] at hlength
    omega

/-! ## runs -/

/-- what a run does to the scopes if its text assigns to a name: it opens one that binds this name,
and puts it in force, if it succeeds; every other run leaves the scopes alone -/
def Binds (target : Option String) (s : Session σ) (out : Except Fault Value × Session σ) : Prop :=
  match target, out.1 with
  | some name, .ok _ =>
    ∃ v, out.2.scopes = s.scopes.push ⟨name, v, s.scope⟩ ∧ out.2.scope = some s.scopes.size
  | _, _ => out.2.scopes = s.scopes ∧ out.2.scope = s.scope

variable {root : Root} {sink : Sink σ} {site : Site} {s : Session σ}

/-- a run that succeeds has read its text and lets its value take effect -/
theorem run_ok {v : Value} {after : Session σ} (h : run root sink site text s = (.ok v, after)) :
    ∃ form stack,
      drive (.evaluating root s.scopes s.scope site) text (.start s.feed) = (.ok form, stack) ∧
        conclude sink form stack.top { s with feed := stack.feed } = (.ok v, after) := by
  rw [run] at h
  split at h
  · next form stack hdrive => exact ⟨form, stack, hdrive, h⟩
  · cases h

theorem scopes_conclude (hform : ∀ name, form ≠ .assignment name) (v : Value) :
    (conclude sink form v s).2.scopes = s.scopes ∧ (conclude sink form v s).2.scope = s.scope := by
  cases form with
  | display => exact ⟨rfl, rfl⟩
  | assignment name => exact absurd rfl (hform name)
  | expression => exact ⟨rfl, rfl⟩
  | result =>
    simp only [conclude]
    split <;> exact ⟨rfl, rfl⟩

theorem binds_run (root : Root) (sink : Sink σ) (site : Site) (text : String) (s : Session σ) :
    Binds (target? text) s (run root sink site text s) := by
  rw [run]
  split
  · next form stack hdrive =>
    have htarget := form_of_drive hdrive
    cases hname : target? text with
    | some name =>
      obtain rfl := (htarget name).mp hname
      exact ⟨stack.top, rfl, rfl⟩
    | none =>
      apply scopes_conclude
      intro name heq
      rw [(htarget name).mpr heq] at hname
      cases hname
  · cases target? text <;> exact ⟨rfl, rfl⟩

/-- a text that yields nothing is worth nothing -/
theorem eq_void_of_runStatement {firstInput : Nat} {v : Value} {after : Session σ}
    (hyields : yields text = false)
    (h : runStatement root sink site text firstInput s = (.ok v, after)) : v = .void := by
  rw [runStatement] at h
  split at h
  · cases h
    rfl
  · next hblank =>
    have hsome : (target? text).isSome = true := by
      simpa [yields, hblank] using hyields
    obtain ⟨name, hname⟩ := Option.isSome_iff_exists.mp hsome
    obtain ⟨form, stack, hdrive, hconclude⟩ := run_ok h
    obtain rfl := (form_of_drive hdrive name).mp hname
    cases hconclude
    rfl

end Statement

/-! ## outputs that are held -/

/-- the value that a statement gives to its output -/
def Ran.value (r : Ran) : Value :=
  match r.outcome with
  | .ok v => v
  | .error _ => .void

namespace Node

theorem outputsOf_cons (s : Statement) (rest : List Statement) :
    outputsOf (s :: rest) = (if s.hasOutput then [0] else []) ++ (outputsOf rest).map (· + 1) := by
  let pick : Statement × Nat → Option Nat := fun p => if p.1.hasOutput then some p.2 else none
  have hrest : (rest.zipIdx 1).filterMap pick = (outputsOf rest).map (· + 1) := by
    rw [outputsOf, List.map_filterMap, List.zipIdx_succ, List.filterMap_map]
    refine List.filterMap_congr fun p _ => ?_
    cases h : p.1.hasOutput <;> simp [pick, h]
  have hfirst : pick (s, 0) = if s.hasOutput then some 0 else none := rfl
  show ((s, 0) :: rest.zipIdx 1).filterMap pick = _
  cases h : s.hasOutput with
  | true =>
    rw [h] at hfirst
    rw [List.filterMap_cons_some hfirst, hrest]
    rfl
  | false =>
    rw [h] at hfirst
    rw [List.filterMap_cons_none hfirst, hrest]
    rfl

end Node

namespace NodeResult

/-- the value of an output is that of its statement -/
theorem getElem?_outputs_ofRan {rs : List Ran} {k index : Nat}
    (h : (Node.outputsOf (rs.map Ran.statement))[k]? = some index) :
    ∃ r, rs[index]? = some r ∧ (ofRan rs).outputs[k]? = some r.value := by
  induction rs generalizing k index with
  | nil => cases h
  | cons r rest ih =>
    rw [List.map_cons, Node.outputsOf_cons] at h
    have hlater : ∀ {k : Nat},
        ((Node.outputsOf (rest.map Ran.statement)).map (· + 1))[k]? = some index →
        ∃ r', (r :: rest)[index]? = some r' ∧ (ofRan rest).outputs[k]? = some r'.value := by
      intro k hk
      rw [List.getElem?_map] at hk
      obtain ⟨i, hi, rfl⟩ := Option.map_eq_some_iff.mp hk
      exact ih hi
    cases hout : r.statement.hasOutput with
    | false =>
      rw [hout] at h
      have houtputs : (ofRan (r :: rest)).outputs = (ofRan rest).outputs := by
        simp [ofRan, cons, hout]
      rw [houtputs]
      exact hlater h
    | true =>
      rw [hout] at h
      have houtputs : (ofRan (r :: rest)).outputs = r.value :: (ofRan rest).outputs := by
        unfold Ran.value
        cases hr : r.outcome <;> simp [ofRan, cons, hout, hr]
      rw [houtputs]
      cases k with
      | zero =>
        cases h
        exact ⟨r, rfl, rfl⟩
      | succ k => exact hlater h

/-- there is nothing on the outputs that are held although their text yields nothing -/
def Voids (n : Node) (r : NodeResult) : Prop :=
  ∀ k index : Nat, n.outputs[k]? = some index → index ∈ n.heldOutputs →
    r.outputs[k]? = some .void

variable {n : Node}

theorem voids_cyclic (n : Node) : Voids n (cyclic n) := by
  intro k index hk _
  obtain ⟨hlt, -⟩ := List.getElem?_eq_some_iff.mp hk
  show (List.replicate n.outputs.length Value.void)[k]? = some .void
  rw [List.getElem?_replicate, if_pos hlt]

/-- statements of a text that yields nothing are worth nothing -/
theorem value_of_mem_statementsRan {root : Root} {sink : Sink σ} {pass slot : Nat}
    {statements : List (Statement × List Line)} {index firstInput : Nat} {s : Session σ} {r : Ran}
    (h : r ∈ statementsRan root sink pass slot statements index firstInput s)
    (hyields : Statement.yields (Node.textOf r.lines) = false) : r.value = .void := by
  rw [← map_ran_statementsDue] at h
  obtain ⟨due, -, rfl⟩ := List.mem_map.mp h
  show (match (runStatement root sink due.site due.text due.firstInput due.session).1 with
    | .ok v => v
    | .error _ => .void) = Value.void
  cases hrun : runStatement root sink due.site due.text due.firstInput due.session with
  | mk outcome after =>
    cases outcome with
    | error fault => rfl
    | ok v => exact Statement.eq_void_of_runStatement hyields hrun

theorem voids_ofRan (h : n.Shaped) {rs : List Ran}
    (hrs : rs.map (fun r => (r.statement, r.lines)) = n.statements.zip n.statementLines)
    (hvalue : ∀ r ∈ rs, Statement.yields (Node.textOf r.lines) = false → r.value = .void) :
    Voids n (ofRan rs) := by
  obtain ⟨hstatements, hlines⟩ := columns_ran hrs
  intro k index hk hheld
  rw [h.outputs, ← hstatements] at hk
  obtain ⟨r, hr, hout⟩ := getElem?_outputs_ofRan hk
  obtain ⟨_, text, -, htext, -, hyields⟩ := (Node.mem_heldOutputs index).mp hheld
  rw [Node.statementTexts, ← hlines, List.map_map, List.getElem?_map, hr] at htext
  obtain rfl := Option.some.inj htext
  rw [hout, hvalue r (List.mem_of_getElem? hr) hyields]

end NodeResult

namespace Diagram

variable {d : Diagram} {slot : Nat} {n : Node}

/-- a pass puts nothing on the outputs that are held -/
theorem exists_voids (hn : d.node? slot = some n) (h : n.Shaped) (root : Root) (sink : Sink σ)
    (pass : Nat) (earlier : Results) (host : σ) : ∃ r,
      (d.evaluate root sink pass earlier host).1.nodes[slot]? = some r ∧ r.Voids n := by
  by_cases hc : d.ReachesCycle slot
  · exact ⟨.cyclic n, nodes_evaluate_of_cyclic earlier host hn hc, NodeResult.voids_cyclic n⟩
  · have hsome : (d.node? slot).isSome := by rw [hn]; rfl
    obtain ⟨ran, hran, rfl, -⟩ :=
      faults_of_mem root sink pass earlier host (mem_runOrder.mpr ⟨hsome, hc⟩)
    have hlt : ran.slot < (earlier.reset d.slotCount).nodes.size :=
      lt_of_lt_of_eq (lt_slotCount_of_node? hsome) Array.size_replicate.symm
    refine ⟨_, nodes_accountFrom hran hsome hlt d.scheduled.nodup,
      NodeResult.voids_ofRan h (statements_accountFrom hran hn) fun r hr hyields => ?_⟩
    obtain ⟨state, hstate⟩ := exists_slotRan hran
    simp only [hstate, slotRan, hn] at hr
    exact NodeResult.value_of_mem_statementsRan hr hyields

end Diagram

/-! ## the two together -/

namespace Statement

theorem exists_drive_of_check {text : String} {n : Nat} (h : check text = .ok n) :
    ∃ form t, drive (.tallying true) text ⟨0, 0⟩ = (.ok form, t) := by
  unfold check at h
  split at h
  · next form t hdrive => exact ⟨form, t, hdrive⟩
  · cases h

/-- **What a statement assigns to is told from its characters as it is from its tokens.**  A
statement that passes the check has one form, in which every machine reads it, and it is an
assignment to a name just if the text assigns to that name; then a run that succeeds opens one
scope, which binds the name, and no other run opens any.  Blank texts and unfinished assignments do
not pass, and whatever a pass does, it puts nothing on the outputs that a node holds for texts that
yield nothing. -/
theorem target_agrees :
    (∀ text n, check text = .ok n → ∃ form, form? text = some form ∧
      (∀ (σ : Type) (m : Machine σ) (s s' : σ) (form' : Form),
        drive m text s = (.ok form', s') → form' = form) ∧
      (∀ name, target? text = some name ↔ form = .assignment name) ∧
      ∀ (σ : Type) (root : Root) (sink : Sink σ) (site : Site) (s : Session σ),
        Binds (target? text) s (run root sink site text s)) ∧
    (∀ text n, isBlank text = true ∨ isUnfinished text = true → check text ≠ .ok n) ∧
    ∀ d : Diagram, d.Built → ∀ slot n, d.node? slot = some n →
      ∀ (σ : Type) (root : Root) (sink : Sink σ) (pass : Nat) (earlier : Results) (host : σ), ∃ r,
        (d.evaluate root sink pass earlier host).1.nodes[slot]? = some r ∧ r.Voids n := by
  refine ⟨fun text n hcheck => ?_, fun text n hempty hcheck => ?_,
    fun d hd slot n hn σ root sink pass earlier host => ?_⟩
  · obtain ⟨form, t, hdrive⟩ := exists_drive_of_check hcheck
    have hform := (exists_of_drive hdrive).1
    refine ⟨form, hform, fun σ m s s' form' hdrive' => ?_, form_of_drive hdrive,
      fun σ root sink site s => binds_run root sink site text s⟩
    have hform' := (exists_of_drive hdrive').1
    exact Option.some.inj (hform'.symm.trans hform)
  · obtain ⟨form, t, hdrive⟩ := exists_drive_of_check hcheck
    exact drive_ne_ok hempty hdrive
  · exact Diagram.exists_voids hn (hd.allShaped slot n hn) root sink pass earlier host

/-- the words of other forms are names like any other, and what is typed first keeps an output -/
theorem target_agrees_show :
    let n := (Node.ofText "5").setText "x ="
    let d := Diagram.empty.push n
    check "show =\n $" = .ok 1 ∧ target? "show =\n $" = some "show" ∧
      (∀ (σ : Type) (m : Machine σ) (s s' : σ) (form : Form),
        drive m "show =\n $" s = (.ok form, s') → form = .assignment "show") ∧
      (∀ s : Session Collector, Binds (some "show") s
        (run ⟨.empty, .none⟩ .collecting ⟨0, 0, 0⟩ "show =\n $" s)) ∧
      isUnfinished "x =" = true ∧ check "x =" ≠ .ok 0 ∧
      d.Built ∧ d.node? 0 = some n ∧ n.heldOutputs = [0] ∧
      ∃ r, (d.evaluate ⟨.empty, .none⟩ .collecting 0 .empty (.expecting none)).1.nodes[0]? = some r ∧
        r.Voids n := by
  intro n d
  obtain ⟨hforms, hempty, hvoids⟩ := target_agrees
  have hcheck : check "show =\n $" = .ok 1 := by decide +kernel
  have htarget : target? "show =\n $" = some "show" := by decide +kernel
  have hunfinished : isUnfinished "x =" = true := by decide +kernel
  have hheld : n.heldOutputs = [0] := by decide +kernel
  have hbuilt : d.Built := .push .empty (.setText (.ofText "5") "x =")
  obtain ⟨form, -, hread, hassigns, hbinds⟩ := hforms _ _ hcheck
  obtain rfl := (hassigns "show").mp htarget
  exact ⟨hcheck, htarget, hread, fun s => htarget ▸ hbinds _ _ _ _ s, hunfinished,
    hempty _ 0 (.inr hunfinished), hbuilt, rfl, hheld, hvoids d hbuilt 0 n rfl _ _ _ _ _ _⟩

end Statement

end Dataflow
