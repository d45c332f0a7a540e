import Mathlib.Data.String.Basic
import Dataflow.Command.Perform
import Dataflow.Proofs.Attribution
import Dataflow.Proofs.Reload

/-!
# The verdict of a run

A run succeeds when nothing failed and, where a type is asked for, a value was returned.

* `Due.effect?`           the value of a statement of some form that took effect;
* `Collector.Holds`       what the standard host holds is what the statements before have told it
                          (`Diagram.evaluate_holds`);
* `Diagram.GoesWell`      a node reaches no cycle and none of its statements fails;
* `Diagram.errorCount_eq_zero_iff`   no line is reported just if all nodes go well;
* `Work.Gives`            what a piece of work comes to on a folder that it only reads;
* `Folder.Finds`          the settings of a run;
* `Command.perform_run`   the exit code and the output of a run.
-/

namespace Dataflow

variable {σ : Type}

/-! ## what a statement tells the host -/

/-- the value of a statement, if it is of this form and has taken effect -/
def Form.effect? (form : Form) : Option (Form × Value) → Except Fault Value → Option Value
  | some (form', v), .ok _ => if form' = form then some v else none
  | _, _ => none

namespace Due

def effect? (form : Form) (root : Root) (sink : Sink σ) (due : Due σ) : Option Value :=
  form.effect? (due.concluded? root) (due.outcome root sink)

variable {form : Form} {root : Root} {sink : Sink σ} {due : Due σ} {v w : Value}

theorem concluded?_of_effect? (h : due.effect? form root sink = some v) :
    due.concluded? root = some (form, v) := by
  unfold effect? at h
  cases hconcluded : due.concluded? root with
  | none =>
    rw [hconcluded] at h
    cases h
  | some concluded =>
    cases houtcome : due.outcome root sink with
    | error fault =>
      rw [hconcluded, houtcome] at h
      cases h
    | ok w =>
      rw [hconcluded, houtcome] at h
      obtain ⟨hform, hv⟩ := Option.ite_none_right_eq_some.mp h
      exact congrArg some (Prod.ext hform (Option.some.inj hv))

theorem effect?_of_ok (h : due.concluded? root = some (form, v))
    (hok : due.outcome root sink = .ok w) : due.effect? form root sink = some v := by
  rw [effect?, h, hok]
  exact if_pos rfl

end Due

namespace Collector

/-- at most one more value was shown, and at most one put in place of the returned value; that one
has to be allowed -/
structure Told (shown returned : Option Value) (c c' : Collector) : Prop where
  asked : c'.expected = c.expected
  adds : c'.shown.toList = c.shown.toList ++ shown.toList
  replaces : c'.returned = returned.or c.returned
  allowed : ∀ v, returned = some v → c.allows v = .ok ()

variable {c : Collector}

theorem told_nothing : Told none none c c :=
  ⟨rfl, (List.append_nil _).symm, rfl, nofun⟩

theorem told_keep {v : Value} (h : c.allows v = .ok ()) : Told none (some v) c (c.keep v) := by
  unfold keep
  split
  · exact ⟨rfl, (List.append_nil _).symm, rfl, fun _ hv => Option.some.inj hv ▸ h⟩
  · exact ⟨rfl, (List.append_nil _).symm, rfl, fun _ hv => Option.some.inj hv ▸ h⟩

/-- what a statement tells the standard host -/
theorem told_of_ends {due : Due Collector} {concluded : Option (Form × Value)}
    {run : Except Fault Value × Session Collector} (h : due.Ends .collecting concluded run) :
    Told (Form.effect? .display concluded run.1) (Form.effect? .result concluded run.1)
      due.session.host run.2.host := by
  cases h with
  | blank feed _ => exact told_nothing
  | failed feed fault _ => exact told_nothing
  | concluded feed form v _ =>
    cases form with
    | display => exact ⟨rfl, Array.toList_push, rfl, nofun⟩
    | assignment name => exact ⟨rfl, (List.append_nil _).symm, rfl, nofun⟩
    | expression => exact told_nothing
    | result =>
      simp only [Statement.conclude, Sink.collecting]
      cases hallows : due.session.host.allows v with
      | error fault => exact told_nothing
      | ok _ => exact told_keep hallows

end Collector

/-! ## what the host holds -/

/-- the values shown are those of the statements that show something, in their order; the returned
value is that of the last return, and all returns have the type that is asked for -/
structure Collector.Holds (root : Root) (expected : Option String) (history : List (Due Collector))
    (c : Collector) : Prop where
  asked : c.expected = expected
  shown : c.shown.toList = history.filterMap (Due.effect? .display root .collecting)
  returned : c.returned = (history.filterMap (Due.effect? .result root .collecting)).getLast?
  typed : ∀ typeName, expected = some typeName →
    ∀ v ∈ history.filterMap (Due.effect? .result root .collecting), v.typeName = typeName

namespace Collector

variable {root : Root} {expected : Option String} {history : List (Due Collector)}

theorem typeName_of_allows {c : Collector} {v : Value} {typeName : String}
    (h : c.allows v = .ok ()) (hexpected : c.expected = some typeName) : v.typeName = typeName := by
  by_contra hne
  rw [allows, hexpected] at h
  simp only [if_neg hne] at h
  cases h

theorem Holds.step {due : Due Collector} (h : due.session.host.Holds root expected history) :
    (due.after root .collecting).host.Holds root expected (history ++ [due]) := by
  have htold : Told (due.effect? .display root .collecting) (due.effect? .result root .collecting)
      due.session.host (due.after root .collecting).host := told_of_ends (due.ends root .collecting)
  constructor
  case asked => rw [htold.asked, h.asked]
  case shown => rw [htold.adds, h.shown, filterMap_append_singleton]
  case returned =>
    rw [htold.replaces, h.returned, filterMap_append_singleton, List.getLast?_append]
    cases due.effect? .result root .collecting <;> rfl
  case typed =>
    intro typeName htype v hv
    rw [filterMap_append_singleton, List.mem_append] at hv
    rcases hv with hv | hv
    · exact h.typed typeName htype v hv
    · have hallowed := htold.allowed v (Option.mem_toList.mp hv)
      exact typeName_of_allows hallowed (h.asked.trans htype)

end Collector

/-- a pass leaves with the standard host what its statements told it -/
theorem Diagram.evaluate_holds (d : Diagram) (root : Root) (pass : Nat) (earlier : Results)
    (expected : Option String) :
    (d.evaluate root .collecting pass earlier (.expecting expected)).2.Holds root expected
      (d.due root .collecting pass earlier (.expecting expected)) := by
  let P : List (Due Collector) → Scopes → Collector → Prop := fun history _ host =>
    host.Holds root expected history
  let I : Nat → List (Due Collector) → Session Collector → Prop := fun _ history s =>
    s.host.Holds root expected history
  have henter : ∀ slot history scopes inputs host, (∀ due ∈ history, due.site.slot ≠ slot) →
      P history scopes host → I slot history (.start scopes inputs host) := fun _ _ _ _ _ _ h => h
  have hstart : P [] .empty (.expecting expected) := ⟨rfl, rfl, rfl, fun _ _ _ hv => by cases hv⟩
  exact (due_induction henter (fun _ _ h => h.step) (fun _ _ _ h => h) hstart).2

/-! ## nodes that go well -/

/-- a node that reaches no cycle and whose statements, blank ones aside, are run without a fault -/
structure Diagram.GoesWell (d : Diagram) (root : Root) (sink : Sink σ) (run : List (Due σ))
    (slot : Nat) (n : Node) : Prop where
  acyclic : ¬ d.ReachesCycle slot
  /-- all its statements are run, in their order -/
  whole : (run.filter (·.site.slot == slot)).map Due.lines = n.statementLines
  succeeds : ∀ due ∈ run, due.site.slot = slot → Statement.isBlank due.text = false →
    ∃ v, due.outcome root sink = .ok v

theorem Node.exists_line {n : Node} (h : n.Coherent) {index : Nat} {lines : List Line}
    (hlines : n.statementLines[index]? = some lines) : ∃ line, n.Contains index line := by
  have hlt : index < n.statements.length := by
    have hget := (List.getElem?_eq_some_iff.mp hlines).1
    rw [statementLines, length_pieces, List.length_map] at hget
    exact hget
  have hone := h.lineCount n.statements[index] (List.getElem_mem hlt)
  refine ⟨n.firstLine index, le_refl _, ?_⟩
  have hnext : n.firstLine (index + 1) = n.firstLine index + n.statements[index].lineCount := by
    rw [firstLine, firstLine, List.take_succ_eq_append_getElem hlt, List.map_append,
      List.sum_append]
    rfl
  omega

namespace Diagram

variable {d : Diagram} {root : Root} {sink : Sink σ} {run : List (Due σ)} {slot : Nat} {n : Node}
  {result : NodeResult}

/-- a node goes well just if none of its lines has a message -/
theorem Attributed.goesWell_iff (h : d.Attributed root sink run slot n result) (hn : n.Coherent)
    (hroot : root.host.FailsWith (·.message ≠ "")) (hsink : sink.FailsWith (·.message ≠ "")) :
    d.GoesWell root sink run slot n ↔ ∀ message ∈ result.errors, message = "" := by
  constructor
  · intro hwell message hmessage
    obtain ⟨line, hline⟩ := List.getElem?_of_mem hmessage
    by_contra hmarked
    obtain hcycle | ⟨due, hdue, hslot, -, fault, hfault⟩ :=
      (h.marked_iff line message hline).mp hmarked
    · exact hwell.acyclic hcycle
    · cases hblank : Statement.isBlank due.text with
      | true =>
        rw [Due.outcome_of_blank hblank] at hfault
        cases hfault
      | false =>
        obtain ⟨v, hv⟩ := hwell.succeeds due hdue hslot hblank
        rw [hv] at hfault
        cases hfault
  · intro hclean
    have hacyclic : ¬ d.ReachesCycle slot := by
      intro hcycle
      have hmem : "Cyclic dependency detected" ∈ result.errors := by
        rw [(h.cyclic hcycle).1]
        exact List.mem_replicate.mpr ⟨mt List.eq_nil_of_length_eq_zero hn.lines, rfl⟩
      exact absurd (hclean _ hmem) (by decide)
    refine ⟨hacyclic, h.whole hacyclic, fun due hdue hslot _ => ?_⟩
    cases houtcome : due.outcome root sink with
    | ok v => exact ⟨v, rfl⟩
    | error fault =>
      obtain ⟨line, hcontains⟩ := Node.exists_line hn (h.text due hdue hslot)
      have hline := h.failed due hdue hslot fault houtcome line hcontains
      rw [← Due.message_of_error houtcome] at hline
      have hmarked := (due.message_ne_iff hroot hsink).mpr ⟨fault, houtcome⟩
      exact absurd (hclean _ (List.mem_of_getElem? hline)) hmarked

/-- no failed line is reported just if all nodes go well -/
theorem errorCount_eq_zero_iff (hd : d.Built) (hroot : root.host.FailsWith (·.message ≠ ""))
    (hsink : sink.FailsWith (·.message ≠ "")) (pass : Nat) (earlier : Results) (host : σ) :
    (Report.ofResults (d.evaluate root sink pass earlier host).1).errorCount = 0 ↔
      ∀ slot n, d.node? slot = some n →
        d.GoesWell root sink (d.due root sink pass earlier host) slot n := by
  have hclean : (Report.ofResults (d.evaluate root sink pass earlier host).1).errorCount = 0 ↔
      ∀ result ∈ (d.evaluate root sink pass earlier host).1.nodes.toList,
        ∀ message ∈ result.errors, message = "" := by
    rw [Report.errorCount_ofResults, List.sum_eq_zero_iff_forall_eq_nat, List.forall_mem_map]
    simp only [List.countP_eq_zero, decide_not, Bool.not_eq_true', decide_eq_false_iff_not, not_not]
  rw [hclean]
  constructor
  · intro h slot n hn
    have hshaped := hd.allShaped slot n hn
    obtain ⟨result, hresult, hattributed⟩ := attributed hn hshaped hroot hsink pass earlier host
    refine (hattributed.goesWell_iff hshaped.coherent hroot hsink).mpr (h result ?_)
    exact Array.mem_toList_iff.mpr (Array.mem_of_getElem? hresult)
  · intro h result hmem
    obtain ⟨slot, hresult⟩ := List.getElem?_of_mem hmem
    rw [Array.getElem?_toList] at hresult
    cases hn : d.node? slot with
    | none =>
      rw [nodes_evaluate_of_none earlier host hn] at hresult
      obtain ⟨-, hempty⟩ := Option.ite_none_right_eq_some.mp hresult
      obtain rfl := Option.some.inj hempty
      exact fun _ hnil => by cases hnil
    | some n =>
      have hshaped := hd.allShaped slot n hn
      obtain ⟨result', hresult', hattributed⟩ := attributed hn hshaped hroot hsink pass earlier host
      obtain rfl := Option.some.inj (hresult.symm.trans hresult')
      exact (hattributed.goesWell_iff hshaped.coherent hroot hsink).mp (h slot n hn)

end Diagram

/-! ## runs -/

/-- the statements of a run -/
def Diagram.runDue (d : Diagram) (s : Settings) (expect : Option String) : List (Due Collector) :=
  d.due s.root .collecting 0 .empty (.expecting (expect.or s.expected))

/-- the values of the statements of some form in a run, in their order -/
def Diagram.runEffects (d : Diagram) (s : Settings) (expect : Option String) (form : Form) :
    List Value :=
  (d.runDue s expect).filterMap (Due.effect? form s.root .collecting)

theorem Due.not_blank_of_concluded? {root : Root} {due : Due σ} {concluded : Form × Value}
    (h : due.concluded? root = some concluded) : Statement.isBlank due.text = false := by
  unfold concluded? at h
  split at h
  · cases h
  · next hblank => exact Bool.eq_false_iff.mpr hblank

namespace Diagram

variable {d : Diagram} {s : Settings} {expect : Option String}

theorem node_of_mem_due {root : Root} {sink : Sink σ} {pass : Nat} {earlier : Results} {host : σ}
    {due : Due σ} (h : due ∈ d.due root sink pass earlier host) :
    ∃ n, d.node? due.site.slot = some n :=
  Option.isSome_iff_exists.mp
    ((d.scheduled.mem_iff _).mp (List.mem_map_of_mem (turn_of_mem_dueFrom h)))

/-- what is reported of the host is what its statements told it -/
theorem run_holds (d : Diagram) (s : Settings) (expect : Option String) :
    (d.run s expect).report.shown = (d.runEffects s expect .display).map Value.text ∧
    (d.run s expect).report.returned =
      (d.runEffects s expect .result).getLast?.map Value.text ∧
    ∀ typeName, expect.or s.expected = some typeName →
      ∀ v ∈ d.runEffects s expect .result, v.typeName = typeName := by
  have hholds := d.evaluate_holds s.root 0 .empty (expect.or s.expected)
  refine ⟨?_, ?_, hholds.typed⟩
  · exact congrArg (List.map Value.text) hholds.shown
  · exact congrArg (Option.map Value.text) hholds.returned

/-- once nothing fails, a value is returned just if a return is executed -/
theorem runEffects_ne_nil_iff
    (h : ∀ slot n, d.node? slot = some n →
      d.GoesWell s.root .collecting (d.runDue s expect) slot n) (form : Form) :
    d.runEffects s expect form ≠ [] ↔
      ∃ due ∈ d.runDue s expect, ∃ v, due.concluded? s.root = some (form, v) := by
  constructor
  · intro hne
    obtain ⟨v, hv⟩ := List.exists_mem_of_ne_nil _ hne
    obtain ⟨due, hdue, heffect⟩ := List.mem_filterMap.mp hv
    exact ⟨due, hdue, v, Due.concluded?_of_effect? heffect⟩
  · rintro ⟨due, hdue, v, hconcluded⟩
    obtain ⟨n, hn⟩ := node_of_mem_due hdue
    have hblank := Due.not_blank_of_concluded? hconcluded
    obtain ⟨w, hw⟩ := (h _ n hn).succeeds due hdue rfl hblank
    exact List.ne_nil_of_mem
      (List.mem_filterMap.mpr ⟨due, hdue, Due.effect?_of_ok hconcluded hw⟩)

theorem lacksValue_run (d : Diagram) (s : Settings) (expect : Option String) :
    (d.run s expect).lacksValue = true ↔
      (expect.or s.expected).isSome = true ∧ d.runEffects s expect .result = [] := by
  obtain ⟨-, hreturned, -⟩ := d.run_holds s expect
  rw [Run.lacksValue, hreturned, Bool.and_eq_true, Option.isNone_map,
    Option.isNone_iff_eq_none, List.getLast?_eq_none_iff]
  rfl

theorem succeeds_run_iff (hd : d.Built) (s : Settings) (expect : Option String) :
    (d.run s expect).succeeds = true ↔
      (∀ slot n, d.node? slot = some n →
        d.GoesWell s.root .collecting (d.runDue s expect) slot n) ∧
      ((expect.or s.expected).isSome = true →
        ∃ due ∈ d.runDue s expect, ∃ v, due.concluded? s.root = some (.result, v)) := by
  have hroot : s.root.host.FailsWith (·.message ≠ "") := Host.failsWith_none fun _ h => h.message
  have hsink : Sink.collecting.FailsWith (·.message ≠ "") :=
    Sink.failsWith_collecting fun _ _ => Fault.message_ne nofun
  have hcount : (d.run s expect).report.errorCount = 0 ↔ _ :=
    errorCount_eq_zero_iff hd hroot hsink 0 .empty (.expecting (expect.or s.expected))
  rw [Run.succeeds, Bool.and_eq_true, beq_iff_eq, hcount, Bool.not_eq_true', ← Bool.not_eq_true,
    lacksValue_run, and_comm, not_and]
  refine and_congr_right fun hwell => imp_congr_right fun _ => ?_
  exact runEffects_ne_nil_iff hwell .result

end Diagram

/-! ## work on a folder -/

/-- the work comes to a result, with what it has said before and after, and leaves the folder as it
was -/
def Work.Gives {α : Type} (folder : Folder) (work : Work (StateM Folder) α) (t : Transcript) (a : α)
    (t' : Transcript) : Prop :=
  (work.run.run t).run folder = pure ((.ok a, t'), folder)

namespace Work

variable {α β : Type} {folder : Folder} {t t' t'' : Transcript} {path text : String}

namespace Gives

variable {work : Work (StateM Folder) α} {next : α → Work (StateM Folder) β} {a : α} {b : β}

theorem pure (a : α) : Gives folder (pure a) t a t := rfl

theorem bind (h : Gives folder work t a t') (h' : Gives folder (next a) t' b t'') :
    Gives folder (work >>= next) t b t'' := by
  unfold Gives at h h' ⊢
  rw [ExceptT.run_bind, StateT.run_bind, StateT.run_bind, h]
  exact h'

theorem lift {action : StateM Folder α} (h : action.run folder = Pure.pure (a, folder)) :
    Gives folder (liftM action) t a t := by
  show (do
    let p ← action.run folder
    Pure.pure ((Except.ok p.1, t), p.2) : Id _) = Pure.pure ((Except.ok a, t), folder)
  rw [h]
  rfl

end Gives

theorem gives_read (h : folder.read path = .ok text) :
    Gives folder (read Folder.files path) t text t := by
  have hread : (Folder.files.read path).run folder = pure (folder.read path, folder) := rfl
  refine (Gives.lift hread).bind ?_
  rw [h]
  exact .pure text

theorem gives_note (log : List LogLine) :
    Gives folder (note log) t () { t with log := t.log ++ log } := rfl

theorem gives_print (text : String) :
    Gives folder (print text) t () { t with printed := t.printed ++ text } := rfl

theorem gives_loadDiagram {d : Diagram} (hread : folder.read path = .ok text)
    (hload : (Saved.load text).result = .ok d) :
    Gives folder (loadDiagram Folder.files path) t d
      { t with log := t.log ++ (Saved.load text).log } := by
  refine (gives_read hread).bind ((gives_note _).bind ?_)
  rw [hload]
  exact .pure d

theorem gives_loadSettings {formats : Formats} {s : Settings} (hread : folder.read path = .ok text)
    (hload : Settings.loadBy formats.readSettings text = .ok s) :
    Gives folder (loadSettings formats Folder.files path) t s t := by
  refine (gives_read hread).bind ?_
  rw [hload]
  exact .pure s

end Work

/-- the settings of a run: those of the file that is named, or of the one beside the diagram, or the
standard ones if there is none -/
inductive Folder.Finds (formats : Formats) (folder : Folder) (file : String) :
    Option String → Settings → Prop
  | named {path text : String} {s : Settings} (hread : folder.read path = .ok text)
    (hload : Settings.loadBy formats.readSettings text = .ok s) :
    Folder.Finds formats folder file (some path) s
  | beside {text : String} {s : Settings}
    (hread : folder.read (Path.beside file Command.settingsFile) = .ok text)
    (hload : Settings.loadBy formats.readSettings text = .ok s) :
    Folder.Finds formats folder file none s
  | standard {cause : FileFault}
    (hread : folder.read (Path.beside file Command.settingsFile) = .error cause) :
    Folder.Finds formats folder file none .standard

theorem Work.gives_findSettings {formats : Formats} {folder : Folder} {file : String}
    {config : Option String} {s : Settings} (h : folder.Finds formats file config s)
    (t : Transcript) : ∃ log,
    Gives folder (findSettings formats Folder.files config file) t s { t with log } := by
  have hisFile : (Folder.files.isFile (Path.beside file Command.settingsFile)).run folder =
      pure ((folder.read (Path.beside file Command.settingsFile)).isOk, folder) := rfl
  cases h with
  | named hread hload => exact ⟨t.log, gives_loadSettings hread hload⟩
  | beside hread hload =>
    let found := s!"Using config {Path.beside file Command.settingsFile}"
    refine ⟨t.log ++ [⟨.info, found⟩], (Gives.lift hisFile).bind ?_⟩
    rw [hread]
    exact (gives_note _).bind (gives_loadSettings hread hload)
  | standard hread =>
    refine ⟨t.log, (Gives.lift hisFile).bind ?_⟩
    rw [hread]
    exact .pure _

/-- what a piece of work comes to in the end -/
theorem Work.outcome_of_gives {folder : Folder} {work : Work (StateM Folder) Bool} {b : Bool}
    {t : Transcript} (h : Gives folder work ⟨"", []⟩ b t) : ∃ o,
    (outcome work).run folder = pure (o, folder) ∧ o.printed = t.printed ∧
      (o.code = 0 ↔ b = true) := by
  unfold Gives at h
  unfold outcome
  rw [StateT.run_bind, h]
  cases b with
  | true => exact ⟨_, rfl, rfl, iff_of_true rfl rfl⟩
  | false => exact ⟨_, rfl, rfl, iff_of_false Nat.one_ne_zero Bool.false_ne_true⟩

namespace Command

/-- the output of a run -/
def written (formats : Formats) (json : Bool) (report : Report) : String :=
  if json then formats.writeReport report.json ++ "\n" else report.text

theorem gives_run {formats : Formats} {folder : Folder} {file text : String}
    {config : Option String} {s : Settings} {d : Diagram}
    (hfinds : folder.Finds formats file config s) (hread : folder.read file = .ok text)
    (hload : (Saved.load text).result = .ok d) (expect : Option String) (json : Bool) : ∃ log,
    Work.Gives folder (work formats Folder.files (.run file config expect json)) ⟨"", []⟩
      (d.run s expect).succeeds ⟨written formats json (d.run s expect).report, log⟩ := by
  obtain ⟨log, hsettings⟩ := Work.gives_findSettings hfinds ⟨"", []⟩
  let r := d.run s expect
  let shown : Transcript := ⟨"" ++ written formats json r.report, log ++ (Saved.load text).log ++ r.log⟩
  -- a missing value is said in the log, and nothing more is printed
  have hrest : ∃ log, Work.Gives folder (do
      if r.lacksValue then Work.say .error "No value of the expected type was returned"
      return r.succeeds) shown r.succeeds { shown with log } := by
    cases r.lacksValue with
    | false => exact ⟨_, .pure _⟩
    | true => exact ⟨_, (Work.gives_note _).bind (.pure _)⟩
  obtain ⟨log', hrest⟩ := hrest
  have hprinted : shown.printed = written formats json r.report := String.empty_append
  rw [hprinted] at hrest
  exact ⟨log', hsettings.bind ((Work.gives_loadDiagram hread hload).bind
    ((Work.gives_note _).bind ((Work.gives_print _).bind hrest)))⟩

/-- **The verdict of a run**, for a diagram that loads, whatever the settings, and however libraries
read these and write reports.  It succeeds just if every node goes well and, where a type is asked
for, a return is executed; a type asked for by the command goes before that of the settings.  The
returned value is that of the last return that was accepted, all of which have the type asked for,
and the values shown are all that were shown. -/
theorem perform_run {formats : Formats} {folder : Folder} {file text : String}
    {config : Option String} {s : Settings} {d : Diagram}
    (hfinds : folder.Finds formats file config s) (hread : folder.read file = .ok text)
    (hload : (Saved.load text).result = .ok d) (expect : Option String) (json : Bool) :
    let run := d.runDue s expect
    let report := (d.run s expect).report
    ∃ o, (perform formats Folder.files (.run file config expect json)).run folder =
        pure (o, folder) ∧
      o.printed = written formats json report ∧
      (o.code = 0 ↔
        (∀ slot n, d.node? slot = some n → d.GoesWell s.root .collecting run slot n) ∧
        ((expect.or s.expected).isSome = true →
          ∃ due ∈ run, ∃ v, due.concluded? s.root = some (.result, v))) ∧
      report.returned = (d.runEffects s expect .result).getLast?.map Value.text ∧
      (∀ typeName, expect.or s.expected = some typeName →
        ∀ v ∈ d.runEffects s expect .result, v.typeName = typeName) ∧
      report.shown = (d.runEffects s expect .display).map Value.text := by
  intro run report
  obtain ⟨log, hgives⟩ := gives_run hfinds hread hload expect json
  obtain ⟨o, hperform, hprinted, hcode⟩ := Work.outcome_of_gives hgives
  obtain ⟨hshown, hreturned, htyped⟩ := d.run_holds s expect
  have hsucceeds := Diagram.succeeds_run_iff (.load hload) s expect
  exact ⟨o, hperform, hprinted, hcode.trans hsucceeds, hreturned, htyped, hshown⟩

/-- the settings ask for a vector, the command for a float, and both are returned -/
theorem perform_run_overridden :
    let text := "diagram \x7b node \x7b id: 1 line: \"return [1]\" line: \"return 2\" \x7d \x7d"
    let folder : Folder :=
      ⟨[(["a"], text), (["b"], "(expected_return_type:Some(\"vector\"))")]⟩
    let s : Settings := { Settings.standard with expected := some "vector" }
    let d := Diagram.empty.add "return [1]\nreturn 2"
    let run := d.runDue s (some "float")
    folder.Finds .standard "a" (some "b") s ∧ folder.read "a" = .ok text ∧
      (Saved.load text).result = .ok d ∧
      ∃ o, (perform .standard Folder.files (.run "a" (some "b") (some "float") false)).run folder =
          pure (o, folder) ∧
        (o.code = 0 ↔
          (∀ slot n, d.node? slot = some n → d.GoesWell s.root .collecting run slot n) ∧
          (((some "float").or s.expected).isSome = true →
            ∃ due ∈ run, ∃ v, due.concluded? s.root = some (.result, v))) := by
  intro text folder s d run
  have hparts : ∀ name, name = "a" ∨ name = "b" → Path.parts name = [name] := by
    -- one character, which is no slash, and then the end
    rintro name (rfl | rfl) <;>
      rw [Path.parts, String.splitOn, if_neg (by decide), String.splitOnAux,
        if_neg (by decide +kernel), if_neg (by decide +kernel), String.splitOnAux,
        if_pos (by decide +kernel)] <;>
      decide +kernel
  have hread : folder.read "a" = .ok text := by
    rw [Folder.read, hparts _ (.inl rfl)]
    decide +kernel
  have hsettings : folder.read "b" = .ok "(expected_return_type:Some(\"vector\"))" := by
    rw [Folder.read, hparts _ (.inr rfl)]
    decide +kernel
  -- equality of settings is not decided, that of their fields is
  have hfields : (Settings.load "(expected_return_type:Some(\"vector\"))").map (fun s =>
      (s.version, s.expected, s.bindings.length, s.classes.length, s.bodies.length, s.debounce)) =
        .ok (1, some "vector", 0, 0, 0, 250) := by
    decide +kernel
  have hasked : Settings.load "(expected_return_type:Some(\"vector\"))" = .ok s := by
    generalize Settings.load "(expected_return_type:Some(\"vector\"))" = loaded at hfields
    cases loaded with
    | error fault => cases hfields
    | ok found =>
      obtain ⟨version, expected, bindings, classes, bodies, debounce⟩ := found
      simp only [Except.map, Except.ok.injEq, Prod.mk.injEq, List.length_eq_zero_iff] at hfields
      obtain ⟨rfl, rfl, rfl, rfl, rfl, rfl⟩ := hfields
      rfl
  have hfinds : folder.Finds .standard "a" (some "b") s := .named hsettings hasked
  have hload : (Saved.load text).result = .ok d := Saved.load_of_slots (by decide +kernel)
  obtain ⟨o, hperform, -, hcode, -⟩ := perform_run hfinds hread hload (some "float") false
  exact ⟨hfinds, hread, hload, o, hperform, hcode⟩

end Command

end Dataflow
