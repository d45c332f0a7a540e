import Dataflow.Proofs.Walk

/-!
# The schedule lists every node once, sources first, and marks the cyclic ones

`Diagram.Scheduled` says what a schedule is for:

* every existing node has one turn, and nothing else has one;
* a turn is marked exactly when its node reaches a cycle;
* a turn without a mark comes after those of all the nodes it reads from, which have none either.

`Diagram.scheduled` shows it of `Diagram.schedule`.  That a turn of a node that reaches a cycle is
marked follows from the order alone (`Walk.SourcesFirst.acc`): where every source comes before its
reader, no path of wires comes back.
-/

namespace Dataflow

open Relation

namespace Walk

variable {d : Diagram}

/-- from a node without a mark the wires end, whichever way they are followed -/
theorem SourcesFirst.acc {turns : List Turn} (h : SourcesFirst d turns) {slot : Nat}
    (hmem : ⟨slot, false⟩ ∈ turns) : Acc (fun feeder slot => d.Reads slot feeder) slot := by
  -- on the length of the part of the list before the turn
  obtain ⟨before, after, heq⟩ := List.append_of_mem hmem
  induction hn : before.length using Nat.strongRecOn generalizing slot before after with
  | ind n ih =>
    refine Acc.intro slot fun feeder hreads => ?_
    have hfeeder := h before slot after heq feeder hreads
    obtain ⟨front, mid, rfl⟩ := List.append_of_mem hfeeder
    refine ih front.length ?_ (heq ▸ ?_) front (mid ++ ⟨slot, false⟩ :: after) (by simp [heq]) rfl
    · rw [← hn, List.length_append, List.length_cons]
      omega
    · simp

theorem sound_start (d : Diagram) :
    Sound d ⟨Array.replicate d.slotCount .untouched, #[], []⟩ := by
  refine ⟨by simp, fun slot c => ?_, fun slot => ?_, by simp, by simp, ?_, ?_, trivial, ?_⟩
  · simp [Array.getElem?_replicate]
  · simp [Array.getElem?_replicate]
  · intro t ht
    cases Array.not_mem_empty t ht
  · intro t ht
    cases Array.not_mem_empty t ht
  · intro before slot after heq
    simp at heq

/-! ## what a walk leaves behind -/

/-- a turn of the schedule stays in it -/
theorem Step.mem_order {w w' : Walk} (h : Step d w w') {t : Turn} (ht : t ∈ w.order) :
    t ∈ w'.order := by
  cases h with
  | close => exact Array.mem_push.mpr (Or.inl ht)
  | _ => exact ht

/-- a slot that the walk has come to stays so -/
theorem Step.touched {w w' : Walk} (h : Step d w w') {slot : Nat}
    (hs : w.progress[slot]? ≠ some .untouched) : w'.progress[slot]? ≠ some .untouched := by
  cases h with
  | close =>
    rw [Array.getElem?_setIfInBounds]
    split
    · split <;> simp
    · exact hs
  | enter =>
    rw [Array.getElem?_setIfInBounds]
    split
    · split <;> simp
    · exact hs
  | _ => exact hs

theorem mem_order_of_steps {w w' : Walk} (h : ReflTransGen (Step d) w w') {t : Turn}
    (ht : t ∈ w.order) : t ∈ w'.order := by
  induction h with
  | refl => exact ht
  | tail _ hstep ih => exact hstep.mem_order ih

theorem touched_of_steps {w w' : Walk} (h : ReflTransGen (Step d) w w') {slot : Nat}
    (hs : w.progress[slot]? ≠ some .untouched) : w'.progress[slot]? ≠ some .untouched := by
  induction h with
  | refl => exact hs
  | tail _ hstep ih => exact hstep.touched ih

/-- between two walks a node that was come to is in the schedule -/
theorem Sound.mem_order_of_touched {progress : Array Progress} {order : Array Turn}
    (h : Sound d ⟨progress, order, []⟩) {slot : Nat} (hn : (d.node? slot).isSome)
    (hs : progress[slot]? ≠ some .untouched) : ∃ c, ⟨slot, c⟩ ∈ order := by
  have hlt : slot < progress.size := h.size ▸ Diagram.lt_slotCount_of_node? hn
  obtain ⟨p, hp⟩ : ∃ p, progress[slot]? = some p := ⟨_, Array.getElem?_eq_getElem hlt⟩
  cases p with
  | untouched => exact absurd hp hs
  | opened => cases (h.opened slot).mp hp
  | closed c => exact ⟨c, (h.closed slot c).mp hp⟩

/-- a walk from a node keeps the invariant and the schedule, and puts the node into it -/
theorem sound_walkFrom {state : Array Progress × Array Turn} (h : Sound d ⟨state.1, state.2, []⟩)
    {start : Nat × Node} (hn : d.node? start.1 = some start.2) :
    Sound d ⟨(d.walkFrom state start).1, (d.walkFrom state start).2, []⟩ ∧
      (∀ t ∈ state.2, t ∈ (d.walkFrom state start).2) ∧
      ∃ c, ⟨start.1, c⟩ ∈ (d.walkFrom state start).2 := by
  have hsome : (d.node? start.1).isSome := by rw [hn]; rfl
  unfold Diagram.walkFrom
  split
  · next hp =>
    have hsteps := d.walk_steps (state.1.setIfInBounds start.1 .opened) state.2
      [⟨start.1, start.2.inputs, false⟩]
    have hend := (h.enter hn hp rfl trivial).steps hsteps
    refine ⟨hend, fun t ht => mem_order_of_steps hsteps ht, ?_⟩
    refine hend.mem_order_of_touched hsome (touched_of_steps hsteps ?_)
    have hlt : start.1 < state.1.size := (Array.getElem?_eq_some_iff.mp hp).1
    simp [hlt]
  · next hp => exact ⟨h, fun _ ht => ht, h.mem_order_of_touched hsome hp⟩

/-- so do the walks from several nodes -/
theorem sound_foldl_walkFrom {starts : List (Nat × Node)} {state : Array Progress × Array Turn}
    (h : Sound d ⟨state.1, state.2, []⟩) (hn : ∀ p ∈ starts, d.node? p.1 = some p.2) :
    Sound d ⟨(starts.foldl d.walkFrom state).1, (starts.foldl d.walkFrom state).2, []⟩ ∧
      (∀ t ∈ state.2, t ∈ (starts.foldl d.walkFrom state).2) ∧
      ∀ p ∈ starts, ∃ c, ⟨p.1, c⟩ ∈ (starts.foldl d.walkFrom state).2 := by
  induction starts generalizing state with
  | nil => exact ⟨h, fun _ ht => ht, fun p hp => nomatch hp⟩
  | cons start rest ih =>
    obtain ⟨hone, hkeep, c, hc⟩ := sound_walkFrom h (hn start List.mem_cons_self)
    obtain ⟨hend, hkeep', hrest⟩ := ih hone fun p hp => hn p (List.mem_cons_of_mem _ hp)
    refine ⟨hend, fun t ht => hkeep' t (hkeep t ht), fun p hp => ?_⟩
    rcases List.mem_cons.mp hp with rfl | hp
    · exact ⟨c, hkeep' _ hc⟩
    · exact hrest p hp

end Walk

namespace Diagram

/-- what a schedule is for -/
structure Scheduled (d : Diagram) (turns : List Turn) : Prop where
  nodup : (turns.map Turn.slot).Nodup
  mem_iff : ∀ slot, slot ∈ turns.map Turn.slot ↔ (d.node? slot).isSome
  cyclic_iff : ∀ t ∈ turns, t.cyclic = true ↔ d.ReachesCycle t.slot
  sources_first : Walk.SourcesFirst d turns

/-- **The schedule has every node once, sources first, and marks those that reach a cycle.** -/
theorem scheduled (d : Diagram) : d.Scheduled d.schedule := by
  let state : Array Progress × Array Turn := (Array.replicate d.slotCount .untouched, #[])
  have hstart : Walk.Sound d ⟨state.1, state.2, []⟩ := Walk.sound_start d
  obtain ⟨hend, _, hall⟩ := Walk.sound_foldl_walkFrom hstart
    fun p (hp : p ∈ d.existing) => mem_existing.mp hp
  refine ⟨hend.order_nodup, fun slot => ?_, fun t ht => ?_, hend.sorted⟩
  · constructor
    · intro hmem
      obtain ⟨t, ht, rfl⟩ := List.mem_map.mp hmem
      exact hend.isSome t (Array.mem_toList_iff.mp ht)
    · intro hsome
      obtain ⟨n, hn⟩ := Option.isSome_iff_exists.mp hsome
      obtain ⟨c, hc⟩ := hall (slot, n) (mem_existing.mpr hn)
      exact List.mem_map.mpr ⟨_, Array.mem_toList_iff.mpr hc, rfl⟩
  · constructor
    · exact hend.due t (Array.mem_toList_iff.mp ht)
    · intro hc
      by_contra hfalse
      obtain ⟨slot, cyclic⟩ := t
      obtain rfl : cyclic = false := by simpa using hfalse
      exact not_reachesCycle_of_acc (hend.sorted.acc ht) hc

/-- following wires from a node that reaches no cycle one comes to an end -/
theorem acc_of_not_reachesCycle {d : Diagram} {slot : Nat} (hc : ¬ d.ReachesCycle slot) :
    Acc (fun feeder slot => d.Reads slot feeder) slot := by
  by_cases hn : (d.node? slot).isSome
  · obtain ⟨t, ht, rfl⟩ := List.mem_map.mp ((d.scheduled.mem_iff slot).mpr hn)
    have hfalse : t.cyclic = false := by simpa using mt (d.scheduled.cyclic_iff t ht).mp hc
    exact d.scheduled.sources_first.acc (hfalse ▸ ht)
  · refine Acc.intro slot fun feeder hreads => ?_
    obtain ⟨n, source, hsome, _⟩ := hreads
    exact absurd (by rw [hsome]; rfl) hn

end Diagram

end Dataflow
