import Dataflow.Evaluation
import Dataflow.Proofs.Schedule

/-!
# A pass runs the nodes that reach no cycle

* `Diagram.runOrder`     the nodes that reach no cycle, sources first (`Diagram.inRunOrder`);
* `Diagram.marked`       the results in which the nodes that reach a cycle have their message and
                         all else is empty;
* `Diagram.evaluate_eq`  a pass is a run of the nodes of `runOrder` from `marked` on.

The schedule mixes both sorts of turns.  A node that reaches no cycle reads from none that does, so
its run neither sees nor touches what a cyclic turn writes, and the cyclic turns can go first.
-/

namespace Dataflow

variable {σ : Type}

/-! ## results by slot -/

theorem Results.inputValue_congr {r r' : Results} {input : Option Source}
    (h : ∀ source, input = some source → r.nodes[source.node]? = r'.nodes[source.node]?) :
    r.inputValue input = r'.inputValue input := by
  cases input with
  | none => rfl
  | some source => simp only [inputValue, output?, h source rfl]

namespace Diagram

/-- the inputs of a node have the same values where its sources have the same results -/
theorem inputValues_congr {r r' : Results} {n : Node}
    (h : ∀ source, some source ∈ n.inputs → r.nodes[source.node]? = r'.nodes[source.node]?) :
    n.inputs.map r.inputValue = n.inputs.map r'.inputValue := by
  refine List.map_congr_left fun input hmem => Results.inputValue_congr ?_
  rintro source rfl
  exact h source hmem

variable {d : Diagram} {root : Root} {sink : Sink σ} {pass : Nat}

/-- runs the node in a slot -/
def runSlot (d : Diagram) (root : Root) (sink : Sink σ) (pass : Nat) (state : Results × σ)
    (slot : Nat) : Results × σ :=
  match d.node? slot with
  | none => state
  | some n =>
    let (result, s) :=
      runNode root sink pass slot n (n.inputs.map state.1.inputValue) state.1.scopes state.2
    (⟨state.1.nodes.setIfInBounds slot result, s.scopes⟩, s.host)

/-- gives a node the message of a cycle -/
def markSlot (d : Diagram) (r : Results) (slot : Nat) : Results :=
  match d.node? slot with
  | none => r
  | some n => { r with nodes := r.nodes.setIfInBounds slot (.cyclic n) }

theorem evaluateTurn_eq (state : Results × σ) (t : Turn) :
    d.evaluateTurn root sink pass state t =
      if t.cyclic then (d.markSlot state.1 t.slot, state.2)
      else d.runSlot root sink pass state t.slot := by
  obtain ⟨slot, cyclic⟩ := t
  cases hn : d.node? slot <;> cases cyclic <;> simp [evaluateTurn, markSlot, runSlot, hn]

theorem nodes_runSlot_of_ne {state : Results × σ} {slot other : Nat} (h : slot ≠ other) :
    (d.runSlot root sink pass state slot).1.nodes[other]? = state.1.nodes[other]? := by
  unfold runSlot
  split
  · rfl
  · simp [h]

theorem nodes_markSlot_of_ne {r : Results} {slot other : Nat} (h : slot ≠ other) :
    (d.markSlot r slot).nodes[other]? = r.nodes[other]? := by
  unfold markSlot
  split
  · rfl
  · simp [h]

theorem size_runSlot (state : Results × σ) (slot : Nat) :
    (d.runSlot root sink pass state slot).1.nodes.size = state.1.nodes.size := by
  unfold runSlot
  split <;> simp

theorem size_markSlot (r : Results) (slot : Nat) :
    (d.markSlot r slot).nodes.size = r.nodes.size := by
  unfold markSlot
  split <;> simp

theorem scopes_markSlot (r : Results) (slot : Nat) : (d.markSlot r slot).scopes = r.scopes := by
  unfold markSlot
  split <;> rfl

/-- a run leaves the other slots alone -/
theorem nodes_foldl_runSlot {slots : List Nat} {state : Results × σ} {other : Nat}
    (h : other ∉ slots) :
    (slots.foldl (d.runSlot root sink pass) state).1.nodes[other]? = state.1.nodes[other]? := by
  induction slots generalizing state with
  | nil => rfl
  | cons slot rest ih =>
    obtain ⟨hne, hrest⟩ := not_or.mp (mt List.mem_cons.mpr h)
    rw [List.foldl_cons, ih hrest, nodes_runSlot_of_ne (Ne.symm hne)]

theorem size_foldl_runSlot (slots : List Nat) (state : Results × σ) :
    (slots.foldl (d.runSlot root sink pass) state).1.nodes.size = state.1.nodes.size := by
  induction slots generalizing state with
  | nil => rfl
  | cons slot rest ih => rw [List.foldl_cons, ih, size_runSlot]

/-- a node that does not read from another one is run alike before and after that one is marked -/
theorem runSlot_markSlot {state : Results × σ} {slot other : Nat} (hne : slot ≠ other)
    (hreads : ¬ d.Reads slot other) :
    d.runSlot root sink pass (d.markSlot state.1 other, state.2) slot =
      (d.markSlot (d.runSlot root sink pass state slot).1 other,
        (d.runSlot root sink pass state slot).2) := by
  cases ho : d.node? other with
  | none => simp [markSlot, ho]
  | some m =>
    cases hn : d.node? slot with
    | none => simp [runSlot, hn]
    | some n =>
      have hinputs : n.inputs.map (d.markSlot state.1 other).inputValue
          = n.inputs.map state.1.inputValue := by
        refine inputValues_congr fun source hmem => nodes_markSlot_of_ne ?_
        rintro rfl
        exact hreads ((reads_iff hn).mpr ⟨⟨source, hmem, rfl⟩, by rw [ho]; rfl⟩)
      simp only [runSlot, hn, hinputs, scopes_markSlot]
      simp only [markSlot, ho, Array.setIfInBounds_comm _ _ hne]

/-! ## the cyclic turns first -/

/-- turns that commute with all later turns of another sort can go behind them -/
theorem foldl_filter {α β : Type} {f : β → α → β} (p : α → Bool) {l : List α}
    (h : l.Pairwise fun a b => p a = false → p b = true → ∀ s, f (f s a) b = f (f s b) a) (s : β) :
    l.foldl f s = (l.filter fun a => !p a).foldl f ((l.filter p).foldl f s) := by
  induction l generalizing s with
  | nil => rfl
  | cons a rest ih =>
    obtain ⟨ha, hrest⟩ := List.pairwise_cons.mp h
    rw [List.foldl_cons, ih hrest]
    cases hp : p a with
    | true => simp [hp]
    | false =>
      have hswap : ∀ (bs : List α) (s : β), (∀ b ∈ bs, b ∈ rest ∧ p b = true) →
          bs.foldl f (f s a) = f (bs.foldl f s) a := by
        intro bs
        induction bs with
        | nil => exact fun _ _ => rfl
        | cons b bs ihb =>
          intro s hbs
          obtain ⟨hb, hbp⟩ := hbs b List.mem_cons_self
          rw [List.foldl_cons, ha b hb hp hbp, ihb _ fun c hc => hbs c (List.mem_cons_of_mem _ hc),
            List.foldl_cons]
      rw [hswap _ _ fun b hb => List.mem_filter.mp hb]
      simp [hp]

/-- the nodes that reach no cycle, in the order of their runs -/
def runOrder (d : Diagram) : List Nat := (d.schedule.filter fun t => !t.cyclic).map Turn.slot

/-- the results before any node is run: nodes that reach a cycle have their message -/
def marked (d : Diagram) : Results :=
  ((d.schedule.filter Turn.cyclic).map Turn.slot).foldl d.markSlot (Results.empty.reset d.slotCount)

/-- an order of runs: every node that reaches no cycle is in it once, after its sources -/
structure InRunOrder (d : Diagram) (slots : List Nat) : Prop where
  nodup : slots.Nodup
  mem_iff : ∀ slot, slot ∈ slots ↔ (d.node? slot).isSome ∧ ¬ d.ReachesCycle slot
  sources_first : ∀ before slot after, slots = before ++ slot :: after →
    ∀ feeder, d.Reads slot feeder → feeder ∈ before

theorem mem_map_filter_cyclic {slot : Nat} :
    slot ∈ (d.schedule.filter Turn.cyclic).map Turn.slot ↔ d.ReachesCycle slot := by
  constructor
  · intro hmem
    obtain ⟨t, ht, rfl⟩ := List.mem_map.mp hmem
    obtain ⟨ht, hc⟩ := List.mem_filter.mp ht
    exact (d.scheduled.cyclic_iff t ht).mp hc
  · intro hc
    obtain ⟨feeder, ⟨n, source, hn, hrest⟩, _⟩ := hc.exists_reads
    obtain ⟨t, ht, rfl⟩ := List.mem_map.mp ((d.scheduled.mem_iff slot).mpr (by rw [hn]; rfl))
    exact List.mem_map.mpr ⟨t, List.mem_filter.mpr ⟨ht, (d.scheduled.cyclic_iff t ht).mpr hc⟩, rfl⟩

theorem mem_runOrder {slot : Nat} :
    slot ∈ d.runOrder ↔ (d.node? slot).isSome ∧ ¬ d.ReachesCycle slot := by
  constructor
  · intro hmem
    obtain ⟨t, ht, rfl⟩ := List.mem_map.mp hmem
    obtain ⟨ht, hc⟩ := List.mem_filter.mp ht
    refine ⟨(d.scheduled.mem_iff _).mp (List.mem_map_of_mem ht), fun hcycle => ?_⟩
    simp [(d.scheduled.cyclic_iff t ht).mpr hcycle] at hc
  · rintro ⟨hsome, hc⟩
    obtain ⟨t, ht, rfl⟩ := List.mem_map.mp ((d.scheduled.mem_iff slot).mpr hsome)
    refine List.mem_map.mpr ⟨t, List.mem_filter.mpr ⟨ht, ?_⟩, rfl⟩
    simpa using mt (d.scheduled.cyclic_iff t ht).mp hc

/-- **The order of runs has every node that reaches no cycle once, sources first.** -/
theorem inRunOrder (d : Diagram) : d.InRunOrder d.runOrder := by
  refine ⟨(List.filter_sublist.map _).nodup d.scheduled.nodup, fun _ => mem_runOrder, ?_⟩
  intro before slot after heq feeder hreads
  obtain ⟨turns, rest, hturns, rfl, hrest⟩ := List.map_eq_append_iff.mp heq
  obtain ⟨t, later, rfl, rfl, rfl⟩ := List.map_eq_cons_iff.mp hrest
  obtain ⟨front, back, hsplit, rfl, hback⟩ := List.filter_eq_append_iff.mp hturns
  obtain ⟨skipped, last, rfl, hskip, ht, rfl⟩ := List.filter_eq_cons_iff.mp hback
  obtain ⟨slot, cyclic⟩ := t
  obtain rfl : cyclic = false := by simpa using ht
  have hmem := d.scheduled.sources_first (front ++ skipped) slot last (by simp [hsplit]) feeder hreads
  refine List.mem_map.mpr ⟨⟨feeder, false⟩, List.mem_filter.mpr ⟨?_, rfl⟩, rfl⟩
  rcases List.mem_append.mp hmem with hmem | hmem
  · exact hmem
  · exact absurd rfl (hskip _ hmem)

/-! ## a pass as a run -/

theorem foldl_evaluateTurn_cyclic {turns : List Turn} (h : ∀ t ∈ turns, t.cyclic = true)
    (r : Results) (host : σ) :
    turns.foldl (d.evaluateTurn root sink pass) (r, host) =
      ((turns.map Turn.slot).foldl d.markSlot r, host) := by
  induction turns generalizing r with
  | nil => rfl
  | cons t rest ih =>
    rw [List.foldl_cons, evaluateTurn_eq, if_pos (h t List.mem_cons_self),
      ih fun u hu => h u (List.mem_cons_of_mem _ hu)]
    rfl

theorem foldl_evaluateTurn_acyclic {turns : List Turn} (h : ∀ t ∈ turns, t.cyclic = false)
    (state : Results × σ) :
    turns.foldl (d.evaluateTurn root sink pass) state =
      (turns.map Turn.slot).foldl (d.runSlot root sink pass) state := by
  induction turns generalizing state with
  | nil => rfl
  | cons t rest ih =>
    rw [List.foldl_cons, evaluateTurn_eq, h t List.mem_cons_self,
      ih fun u hu => h u (List.mem_cons_of_mem _ hu)]
    rfl

/-- a turn without a mark can be taken after a later one with a mark -/
theorem evaluateTurn_comm {t u : Turn} (ht : t ∈ d.schedule) (hu : u ∈ d.schedule)
    (hne : t.slot ≠ u.slot) (htc : t.cyclic = false) (huc : u.cyclic = true)
    (state : Results × σ) :
    d.evaluateTurn root sink pass (d.evaluateTurn root sink pass state t) u =
      d.evaluateTurn root sink pass (d.evaluateTurn root sink pass state u) t := by
  have hreads : ¬ d.Reads t.slot u.slot := fun hreads => by
    have hc := ((d.scheduled.cyclic_iff u hu).mp huc).of_reads hreads
    simp [(d.scheduled.cyclic_iff t ht).mpr hc] at htc
  simp only [evaluateTurn_eq, htc, huc, if_true, Bool.false_eq_true, if_false]
  exact (runSlot_markSlot hne hreads).symm

/-- **A pass is a run of the nodes that reach no cycle.** -/
theorem evaluate_eq (d : Diagram) (root : Root) (sink : Sink σ) (pass : Nat) (earlier : Results)
    (host : σ) :
    d.evaluate root sink pass earlier host =
      d.runOrder.foldl (d.runSlot root sink pass) (d.marked, host) := by
  have hcomm : d.schedule.Pairwise fun t u => t.cyclic = false → u.cyclic = true → ∀ state,
      d.evaluateTurn root sink pass (d.evaluateTurn root sink pass state t) u =
        d.evaluateTurn root sink pass (d.evaluateTurn root sink pass state u) t := by
    refine (List.pairwise_map.mp d.scheduled.nodup).imp_of_mem ?_
    intro t u ht hu hne htc huc state
    exact evaluateTurn_comm ht hu hne htc huc state
  have hcyclic : ∀ t ∈ d.schedule.filter Turn.cyclic, t.cyclic = true := fun t ht =>
    (List.mem_filter.mp ht).2
  have hacyclic : ∀ t ∈ d.schedule.filter (fun t => !t.cyclic), t.cyclic = false := fun t ht => by
    simpa using (List.mem_filter.mp ht).2
  rw [evaluate, foldl_filter Turn.cyclic hcomm, foldl_evaluateTurn_cyclic hcyclic,
    foldl_evaluateTurn_acyclic hacyclic]
  rfl

/-! ## the results before the run -/

theorem nodes_foldl_markSlot {slots : List Nat} {r : Results} {other : Nat} (h : other ∉ slots) :
    (slots.foldl d.markSlot r).nodes[other]? = r.nodes[other]? := by
  induction slots generalizing r with
  | nil => rfl
  | cons slot rest ih =>
    obtain ⟨hne, hrest⟩ := not_or.mp (mt List.mem_cons.mpr h)
    rw [List.foldl_cons, ih hrest, nodes_markSlot_of_ne (Ne.symm hne)]

theorem nodes_foldl_markSlot_of_mem {slots : List Nat} {r : Results} {slot : Nat} {n : Node}
    (hn : d.node? slot = some n) (hlt : slot < r.nodes.size) (h : slot ∈ slots) :
    (slots.foldl d.markSlot r).nodes[slot]? = some (.cyclic n) := by
  induction slots generalizing r with
  | nil => cases h
  | cons first rest ih =>
    rw [List.foldl_cons]
    by_cases hrest : slot ∈ rest
    · exact ih (by rw [size_markSlot]; exact hlt) hrest
    · obtain rfl : slot = first := (List.mem_cons.mp h).resolve_right hrest
      rw [nodes_foldl_markSlot hrest]
      simp [markSlot, hn, hlt]

/-- the results before any node is run: the nodes that reach a cycle have their message, and there
are no other results and no scopes -/
structure Marked (d : Diagram) (r : Results) : Prop where
  size : r.nodes.size = d.slotCount
  scopes : r.scopes = .empty
  cyclic : ∀ slot n, d.node? slot = some n → d.ReachesCycle slot →
    r.nodes[slot]? = some (.cyclic n)
  empty : ∀ slot, slot < d.slotCount → ¬ d.ReachesCycle slot → r.nodes[slot]? = some .empty

theorem marked_spec (d : Diagram) : d.Marked d.marked := by
  have hsize : ∀ (slots : List Nat) (r : Results),
      (slots.foldl d.markSlot r).nodes.size = r.nodes.size ∧
        (slots.foldl d.markSlot r).scopes = r.scopes := by
    intro slots
    induction slots with
    | nil => exact fun _ => ⟨rfl, rfl⟩
    | cons slot rest ih =>
      intro r
      obtain ⟨hs, hc⟩ := ih (d.markSlot r slot)
      exact ⟨hs.trans (size_markSlot r slot), hc.trans (scopes_markSlot r slot)⟩
  refine ⟨?_, (hsize _ _).2, fun slot n hn hc => ?_, fun slot hlt hc => ?_⟩
  · rw [marked, (hsize _ _).1]
    exact Array.size_replicate
  · refine nodes_foldl_markSlot_of_mem hn ?_ (mem_map_filter_cyclic.mpr hc)
    exact lt_of_lt_of_eq (lt_slotCount_of_node? (by rw [hn]; rfl)) Array.size_replicate.symm
  · rw [marked, nodes_foldl_markSlot (mt mem_map_filter_cyclic.mp hc)]
    simp [Results.reset, hlt]

/-- a node that reaches a cycle has the message of a cycle in the end -/
theorem nodes_evaluate_of_cyclic (earlier : Results) (host : σ) {slot : Nat} {n : Node}
    (hn : d.node? slot = some n) (hc : d.ReachesCycle slot) :
    (d.evaluate root sink pass earlier host).1.nodes[slot]? = some (.cyclic n) := by
  have hnot : slot ∉ d.runOrder := fun hmem => (mem_runOrder.mp hmem).2 hc
  rw [evaluate_eq, nodes_foldl_runSlot hnot]
  exact d.marked_spec.cyclic slot n hn hc

/-- a slot without a node is empty in the end -/
theorem nodes_evaluate_of_none (earlier : Results) (host : σ) {slot : Nat}
    (hn : d.node? slot = none) :
    (d.evaluate root sink pass earlier host).1.nodes[slot]? =
      if slot < d.slotCount then some .empty else none := by
  have hnot : slot ∉ d.runOrder := fun hmem => by
    have hsome := (mem_runOrder.mp hmem).1
    rw [hn] at hsome
    cases hsome
  rw [evaluate_eq, nodes_foldl_runSlot hnot]
  split
  · next hlt => exact d.marked_spec.empty slot hlt (not_reachesCycle_of_none hn)
  · next hlt => exact Array.getElem?_eq_none (d.marked_spec.size ▸ Nat.le_of_not_lt hlt)

/-- **Exactly the nodes that reach a cycle are not run.**  Turns of the walk over the wires do not
follow one another for ever, and a walk takes such turns until no frame is left.  A pass is a run,
once each, of the existing nodes that reach no cycle, from results on that hold nothing but the
messages of the others: these are not run, all their outputs are void, and every line has the
message of a cycle. -/
theorem evaluate_runs_acyclic (d : Diagram) (root : Root) (sink : Sink σ) (pass : Nat)
    (earlier : Results) (host : σ) :
    WellFounded (fun w' w => Walk.Step d w w') ∧
    (∀ progress order frames, Relation.ReflTransGen (Walk.Step d) ⟨progress, order, frames⟩
      ⟨(d.walk progress order frames).1, (d.walk progress order frames).2, []⟩) ∧
    ∃ (ran : List Nat) (start : Results), ran.Nodup ∧
      (∀ slot, slot ∈ ran ↔ (d.node? slot).isSome ∧ ¬ d.ReachesCycle slot) ∧
      d.Marked start ∧
      d.evaluate root sink pass earlier host =
        ran.foldl (d.runSlot root sink pass) (start, host) ∧
      ∀ slot n, d.node? slot = some n → d.ReachesCycle slot →
        (d.evaluate root sink pass earlier host).1.nodes[slot]? =
          some ⟨List.replicate n.outputs.length .void,
            List.replicate n.lines.length "Cyclic dependency detected"⟩ := by
  refine ⟨Walk.wellFounded_step d, d.walk_steps, d.runOrder, d.marked, d.inRunOrder.nodup, d.inRunOrder.mem_iff,
    d.marked_spec, d.evaluate_eq root sink pass earlier host, fun slot n hn hc => ?_⟩
  have hnot : slot ∉ d.runOrder := fun hmem => ((d.inRunOrder.mem_iff slot).mp hmem).2 hc
  rw [evaluate_eq, nodes_foldl_runSlot hnot]
  exact d.marked_spec.cyclic slot n hn hc

end Diagram

end Dataflow
