import Dataflow.Diagram.Schedule
import Dataflow.Proofs.Cycle
import Dataflow.Proofs.Slots
import Mathlib.Data.Prod.Lex

/-!
# The walk over the wires, one turn at a time

`Walk.Step d` is one turn of the walk of `Diagram.schedule`: it opens a node, passes over an input
or closes a node.

* `Walk.wellFounded_step`   no walk goes on for ever;
* `Diagram.walk_steps`      `Diagram.walk` takes turns until no frame is left;
* `Walk.Sound`              what holds between the marks, the frames and the order; a turn keeps it
                            (`Walk.Sound.step`), so a whole walk does (`Walk.Sound.steps`).

The idea of the invariant: every frame reads from the one above it, so a wire into an opened node
closes a cycle; and a frame without a mark has all the sources that it has followed closed without a
mark, but for the one above it.
-/

namespace Dataflow

open Relation

/-- what the walk holds -/
structure Walk where
  progress : Array Progress
  order : Array Turn
  frames : List Frame

namespace Walk

variable {d : Diagram}

/-- one turn of the walk -/
inductive Step (d : Diagram) : Walk → Walk → Prop
  | close {progress order slot cyclic below} :
    Step d ⟨progress, order, ⟨slot, [], cyclic⟩ :: below⟩
      ⟨progress.setIfInBounds slot (.closed cyclic), order.push ⟨slot, cyclic⟩,
        Frame.passOn cyclic below⟩
  | unwired {progress order slot pending cyclic below} :
    Step d ⟨progress, order, ⟨slot, none :: pending, cyclic⟩ :: below⟩
      ⟨progress, order, ⟨slot, pending, cyclic⟩ :: below⟩
  | absent {progress order slot source pending cyclic below} (h : d.node? source.node = none) :
    Step d ⟨progress, order, ⟨slot, some source :: pending, cyclic⟩ :: below⟩
      ⟨progress, order, ⟨slot, pending, cyclic⟩ :: below⟩
  | enter {progress order slot source n pending cyclic below} (h : d.node? source.node = some n)
    (hp : progress[source.node]? = some .untouched) :
    Step d ⟨progress, order, ⟨slot, some source :: pending, cyclic⟩ :: below⟩
      ⟨progress.setIfInBounds source.node .opened, order,
        ⟨source.node, n.inputs, false⟩ :: ⟨slot, pending, cyclic⟩ :: below⟩
  | back {progress order slot source n pending cyclic below} (h : d.node? source.node = some n)
    (hp : progress[source.node]? = some .opened) :
    Step d ⟨progress, order, ⟨slot, some source :: pending, cyclic⟩ :: below⟩
      ⟨progress, order, ⟨slot, pending, true⟩ :: below⟩
  | cross {progress order slot source n pending cyclic c below} (h : d.node? source.node = some n)
    (hp : progress[source.node]? = some (.closed c)) :
    Step d ⟨progress, order, ⟨slot, some source :: pending, cyclic⟩ :: below⟩
      ⟨progress, order, ⟨slot, pending, cyclic || c⟩ :: below⟩
  | outside {progress order slot source n pending cyclic below} (h : d.node? source.node = some n)
    (hp : progress[source.node]? = none) :
    Step d ⟨progress, order, ⟨slot, some source :: pending, cyclic⟩ :: below⟩
      ⟨progress, order, ⟨slot, pending, cyclic⟩ :: below⟩

/-- untouched slots first, then what is left to do in the frames -/
def measure (w : Walk) : Nat × Nat := (Progress.untouchedCount w.progress, Frame.size w.frames)

theorem Step.measure_lt {w w' : Walk} (h : Step d w w') :
    Prod.Lex (· < ·) (· < ·) w'.measure w.measure := by
  cases h with
  | close =>
    refine Diagram.lex_of_le (Progress.untouchedCount_set_le _ _ (by simp)) ?_
    rw [Frame.size_passOn, Frame.size]
    omega
  | enter _ hp => exact Prod.Lex.left _ _ (Progress.untouchedCount_set_lt (by simp) hp)
  | unwired => exact Diagram.lex_of_le (Nat.le_refl _) (by simp [Frame.size])
  | absent => exact Diagram.lex_of_le (Nat.le_refl _) (by simp [Frame.size])
  | back => exact Diagram.lex_of_le (Nat.le_refl _) (by simp [Frame.size])
  | cross => exact Diagram.lex_of_le (Nat.le_refl _) (by simp [Frame.size])
  | outside => exact Diagram.lex_of_le (Nat.le_refl _) (by simp [Frame.size])

/-- no walk goes on for ever -/
theorem wellFounded_step (d : Diagram) : WellFounded fun w' w => Step d w w' :=
  Subrelation.wf Step.measure_lt (InvImage.wf measure (Prod.lex Nat.lt_wfRel Nat.lt_wfRel).wf)

end Walk

/-- the walk takes turns until no frame is left -/
theorem Diagram.walk_steps (d : Diagram) (progress : Array Progress) (order : Array Turn)
    (frames : List Frame) :
    ReflTransGen (Walk.Step d) ⟨progress, order, frames⟩
      ⟨(d.walk progress order frames).1, (d.walk progress order frames).2, []⟩ := by
  fun_induction d.walk progress order frames with
  | case1 => exact ReflTransGen.refl
  | case2 progress order slot cyclic below ih => exact ReflTransGen.head .close ih
  | case3 progress order slot pending cyclic below ih => exact ReflTransGen.head .unwired ih
  | case4 progress order slot source pending cyclic below h ih =>
    exact ReflTransGen.head (.absent h) ih
  | case5 progress order slot source pending cyclic below n h hp ih =>
    exact ReflTransGen.head (.enter h hp) ih
  | case6 progress order slot source pending cyclic below n h hp ih =>
    exact ReflTransGen.head (.back h hp) ih
  | case7 progress order slot source pending cyclic below n h c hp ih =>
    exact ReflTransGen.head (.cross h hp) ih
  | case8 progress order slot source pending cyclic below n h hp ih =>
    exact ReflTransGen.head (.outside h hp) ih

namespace Walk

variable {d : Diagram}

/-! ## frames -/

/-- a frame under the one of the node `above`: it reads from that node, a mark on it is due, and
without a mark the sources that it has followed are closed without one, but for `above` -/
structure Fits (d : Diagram) (order : Array Turn) (above : Option Nat) (f : Frame) : Prop where
  reads : ∀ slot, above = some slot → d.Reads f.slot slot
  due : f.cyclic = true → d.ReachesCycle f.slot
  followed : ∃ n seen, d.node? f.slot = some n ∧ n.inputs = seen ++ f.pending ∧
    (f.cyclic = false → ∀ source, some source ∈ seen → (d.node? source.node).isSome →
      ⟨source.node, false⟩ ∈ order ∨ above = some source.node)

/-- every frame fits under the one above it -/
def AllFit (d : Diagram) (order : Array Turn) : Option Nat → List Frame → Prop
  | _, [] => True
  | above, f :: below => Fits d order above f ∧ AllFit d order (some f.slot) below

theorem Fits.mono {order order' : Array Turn} {above : Option Nat} {f : Frame}
    (h : Fits d order above f) (hsub : ∀ t ∈ order, t ∈ order') : Fits d order' above f := by
  obtain ⟨n, seen, hn, hinputs, hdone⟩ := h.followed
  refine ⟨h.reads, h.due, n, seen, hn, hinputs, fun hc source hmem hsome => ?_⟩
  exact (hdone hc source hmem hsome).imp (hsub _) id

theorem AllFit.mono {order order' : Array Turn} (hsub : ∀ t ∈ order, t ∈ order') :
    ∀ {above : Option Nat} {frames : List Frame}, AllFit d order above frames →
      AllFit d order' above frames
  | _, [], _ => trivial
  | _, _ :: _, ⟨h, hbelow⟩ => ⟨h.mono hsub, AllFit.mono hsub hbelow⟩

/-- the frames lie on a path of wires to the uppermost one -/
theorem AllFit.path {order : Array Turn} {above : Option Nat} {f : Frame} {below : List Frame}
    (h : AllFit d order above (f :: below)) {slot : Nat}
    (hmem : slot ∈ (f :: below).map Frame.slot) : ReflTransGen d.Reads slot f.slot := by
  induction below generalizing above f with
  | nil =>
    obtain rfl : slot = f.slot := by simpa using hmem
    exact ReflTransGen.refl
  | cons g below ih =>
    obtain ⟨_, hg, hrest⟩ := h
    rcases List.mem_cons.mp hmem with rfl | hmem
    · exact ReflTransGen.refl
    · exact ReflTransGen.tail (ih ⟨hg, hrest⟩ hmem) (hg.reads _ rfl)

/-- a frame reads from the source that it comes to -/
theorem Fits.reads_next {order : Array Turn} {above : Option Nat} {slot : Nat} {source : Source}
    {pending : List (Option Source)} {cyclic : Bool}
    (h : Fits d order above ⟨slot, some source :: pending, cyclic⟩)
    (hs : (d.node? source.node).isSome) : d.Reads slot source.node := by
  obtain ⟨n, seen, hn, hinputs, _⟩ := h.followed
  exact ⟨n, source, hn, by rw [hinputs]; simp, rfl, hs⟩

/-- an input further: the mark changes, or a frame comes above -/
theorem Fits.follow {order : Array Turn} {above : Option Nat} {slot : Nat}
    {input : Option Source} {pending : List (Option Source)} {cyclic cyclic' : Bool}
    (h : Fits d order none ⟨slot, input :: pending, cyclic⟩)
    (hreads : ∀ s, above = some s → d.Reads slot s)
    (hdue : cyclic' = true → d.ReachesCycle slot)
    (hdone : cyclic' = false → cyclic = false ∧ ∀ source, input = some source →
      (d.node? source.node).isSome → ⟨source.node, false⟩ ∈ order ∨ above = some source.node) :
    Fits d order above ⟨slot, pending, cyclic'⟩ := by
  obtain ⟨n, seen, hn, hinputs, hseen⟩ := h.followed
  refine ⟨hreads, hdue, n, seen ++ [input], hn, by simp [hinputs], fun hc source hmem hsome => ?_⟩
  obtain ⟨hc', hnext⟩ := hdone hc
  rcases List.mem_append.mp hmem with hmem | hmem
  · rcases hseen hc' source hmem hsome with h | h
    · exact Or.inl h
    · cases h
  · exact hnext source (List.mem_singleton.mp hmem).symm hsome

/-- a frame whose child is closed takes over the mark of the child -/
theorem AllFit.passOn {order : Array Turn} {slot : Nat} {cyclic : Bool} {below : List Frame}
    (h : AllFit d order (some slot) below) (hdue : cyclic = true → d.ReachesCycle slot) :
    AllFit d (order.push ⟨slot, cyclic⟩) none (Frame.passOn cyclic below) := by
  cases below with
  | nil => trivial
  | cons g below =>
    obtain ⟨hg, hrest⟩ := h
    have hsub : ∀ t ∈ order, t ∈ order.push ⟨slot, cyclic⟩ := fun t ht =>
      Array.mem_push.mpr (Or.inl ht)
    refine ⟨⟨fun _ hs => (by cases hs), fun hc => ?_, ?_⟩, hrest.mono hsub⟩
    · rcases (Bool.or_eq_true _ _).mp hc with hc | hc
      · exact hg.due hc
      · exact (hdue hc).of_reads (hg.reads slot rfl)
    · obtain ⟨n, seen, hn, hinputs, hdone⟩ := hg.followed
      refine ⟨n, seen, hn, hinputs, fun hc source hmem hsome => Or.inl ?_⟩
      obtain ⟨hgc, rfl⟩ := Bool.or_eq_false_iff.mp hc
      rcases hdone hgc source hmem hsome with h | h
      · exact hsub _ h
      · obtain rfl := Option.some.inj h
        exact Array.mem_push_self

/-! ## the invariant -/

/-- every entry without a mark comes after all the nodes that it reads from -/
def SourcesFirst (d : Diagram) (turns : List Turn) : Prop :=
  ∀ before slot after, turns = before ++ ⟨slot, false⟩ :: after → ∀ feeder, d.Reads slot feeder →
    ⟨feeder, false⟩ ∈ before

theorem SourcesFirst.concat {turns : List Turn} (h : SourcesFirst d turns) {t : Turn}
    (ht : t.cyclic = false → ∀ feeder, d.Reads t.slot feeder → ⟨feeder, false⟩ ∈ turns) :
    SourcesFirst d (turns ++ [t]) := by
  intro before slot after heq feeder hreads
  rcases after.eq_nil_or_concat with rfl | ⟨after, u, rfl⟩
  · obtain ⟨rfl, hu⟩ := List.append_inj' heq rfl
    obtain rfl := List.head_eq_of_cons_eq hu
    exact ht rfl feeder hreads
  · have heq' : turns ++ [t] = (before ++ ⟨slot, false⟩ :: after) ++ [u] := by simp [heq]
    exact h before slot after (List.append_inj' heq' rfl).1 feeder hreads

/-- what holds between the marks, the order and the frames -/
structure Sound (d : Diagram) (w : Walk) : Prop where
  size : w.progress.size = d.slotCount
  closed : ∀ slot c, w.progress[slot]? = some (.closed c) ↔ ⟨slot, c⟩ ∈ w.order
  opened : ∀ slot, w.progress[slot]? = some .opened ↔ slot ∈ w.frames.map Frame.slot
  frames_nodup : (w.frames.map Frame.slot).Nodup
  order_nodup : (w.order.toList.map Turn.slot).Nodup
  isSome : ∀ t ∈ w.order, (d.node? t.slot).isSome
  due : ∀ t ∈ w.order, t.cyclic = true → d.ReachesCycle t.slot
  fit : AllFit d w.order none w.frames
  sorted : SourcesFirst d w.order.toList

/-- another uppermost frame for the same node -/
theorem Sound.reframe {progress : Array Progress} {order : Array Turn} {f f' : Frame}
    {below : List Frame} (h : Sound d ⟨progress, order, f :: below⟩) (hslot : f'.slot = f.slot)
    (hfits : Fits d order none f') : Sound d ⟨progress, order, f' :: below⟩ := by
  have hmap : (f' :: below).map Frame.slot = (f :: below).map Frame.slot := by simp [hslot]
  refine ⟨h.size, h.closed, fun slot => ?_, ?_, h.order_nodup, h.isSome, h.due, ⟨hfits, ?_⟩,
    h.sorted⟩
  · rw [h.opened slot, ← hmap]
  · rw [hmap]
    exact h.frames_nodup
  · rw [hslot]
    exact h.fit.2

/-- a node is opened that was untouched -/
theorem Sound.enter {progress : Array Progress} {order : Array Turn} {frames frames' : List Frame}
    {slot : Nat} {n : Node} (h : Sound d ⟨progress, order, frames⟩) (hn : d.node? slot = some n)
    (hp : progress[slot]? = some .untouched)
    (hmap : frames'.map Frame.slot = frames.map Frame.slot)
    (hfit : AllFit d order (some slot) frames') :
    Sound d ⟨progress.setIfInBounds slot .opened, order, ⟨slot, n.inputs, false⟩ :: frames'⟩ := by
  have hlt : slot < progress.size := (Array.getElem?_eq_some_iff.mp hp).1
  have hnew : slot ∉ frames'.map Frame.slot := fun hmem => by
    rw [hmap, ← h.opened slot, hp] at hmem
    cases hmem
  refine ⟨by simp [h.size], fun s c => ?_, fun s => ?_, ?_, h.order_nodup, h.isSome, h.due, ?_,
    h.sorted⟩
  · rw [← h.closed s c, Array.getElem?_setIfInBounds]
    by_cases hs : slot = s
    · subst hs
      simp only [if_true, hlt, hp, Option.some.injEq, reduceCtorEq]
    · rw [if_neg hs]
  · rw [Array.getElem?_setIfInBounds, List.map_cons, List.mem_cons, hmap, ← h.opened s]
    by_cases hs : slot = s
    · subst hs
      simp [hlt]
    · simp [hs, Ne.symm hs]
  · exact List.nodup_cons.mpr ⟨hnew, hmap ▸ h.frames_nodup⟩
  · refine ⟨⟨fun _ hs => (by cases hs), fun hc => (by cases hc), n, [], hn, rfl, ?_⟩, hfit⟩
    intro _ source hmem
    cases hmem

/-- the uppermost node is closed -/
theorem Sound.close {progress : Array Progress} {order : Array Turn} {slot : Nat} {cyclic : Bool}
    {below : List Frame} (h : Sound d ⟨progress, order, ⟨slot, [], cyclic⟩ :: below⟩) :
    Sound d ⟨progress.setIfInBounds slot (.closed cyclic), order.push ⟨slot, cyclic⟩,
      Frame.passOn cyclic below⟩ := by
  obtain ⟨hfits, hbelow⟩ := h.fit
  obtain ⟨n, seen, hn, hinputs, hdone⟩ := hfits.followed
  have hopen : progress[slot]? = some .opened := (h.opened slot).mpr (by simp)
  have hlt : slot < progress.size := (Array.getElem?_eq_some_iff.mp hopen).1
  have hnew : ∀ c, ⟨slot, c⟩ ∉ order := fun c hmem => by
    rw [← h.closed slot c, hopen] at hmem
    cases hmem
  obtain ⟨hnot, hnodup⟩ := List.nodup_cons.mp h.frames_nodup
  have hmap : (Frame.passOn cyclic below).map Frame.slot = below.map Frame.slot := by
    cases below <;> rfl
  refine ⟨by simp [h.size], fun s c => ?_, fun s => ?_, ?_, ?_, ?_, ?_, hbelow.passOn hfits.due,
    ?_⟩
  · rw [Array.getElem?_setIfInBounds, Array.mem_push, ← h.closed s c]
    by_cases hs : slot = s
    · subst hs
      simp only [if_true, hlt, hopen, Option.some.injEq, Progress.closed.injEq, reduceCtorEq,
        Turn.mk.injEq, true_and, false_or]
      exact eq_comm
    · simp [hs, Ne.symm hs]
  · rw [Array.getElem?_setIfInBounds, hmap]
    by_cases hs : slot = s
    · subst hs
      simpa [hlt] using hnot
    · rw [if_neg hs, h.opened s]
      simp [Ne.symm hs]
  · rw [hmap]
    exact hnodup
  · rw [Array.toList_push, List.map_append, List.nodup_append]
    refine ⟨h.order_nodup, by simp, ?_⟩
    rintro s hs t ht rfl
    obtain ⟨⟨s', c⟩, hmem, rfl⟩ := List.mem_map.mp hs
    obtain rfl : s' = slot := by simpa using ht
    exact hnew c (Array.mem_toList_iff.mp hmem)
  · intro t ht
    rcases Array.mem_push.mp ht with ht | rfl
    · exact h.isSome t ht
    · simp [hn]
  · intro t ht hc
    rcases Array.mem_push.mp ht with ht | rfl
    · exact h.due t ht hc
    · exact hfits.due hc
  · rw [Array.toList_push]
    refine h.sorted.concat fun hc feeder hreads => ?_
    obtain ⟨⟨source, hmem, rfl⟩, hsome⟩ := (Diagram.reads_iff hn).mp hreads
    rw [hinputs, List.append_nil] at hmem
    rcases hdone hc source hmem hsome with hmem | hnone
    · exact Array.mem_toList_iff.mpr hmem
    · cases hnone

/-- **A turn of the walk keeps the invariant.** -/
theorem Sound.step {w w' : Walk} (h : Sound d w) (hstep : Step d w w') : Sound d w' := by
  have hfit := h.fit
  cases hstep with
  | close => exact h.close
  | unwired =>
    refine h.reframe rfl (hfit.1.follow (fun _ hs => (by cases hs)) hfit.1.due fun hc => ⟨hc, ?_⟩)
    intro source hs
    cases hs
  | absent hnone =>
    refine h.reframe rfl (hfit.1.follow (fun _ hs => (by cases hs)) hfit.1.due fun hc => ⟨hc, ?_⟩)
    rintro source ⟨⟩ hsome
    simp [hnone] at hsome
  | enter hn hp =>
    have hreads := hfit.1.reads_next (by rw [hn]; rfl)
    refine h.enter hn hp rfl ⟨hfit.1.follow ?_ hfit.1.due fun hc => ⟨hc, ?_⟩, hfit.2⟩
    · rintro s ⟨⟩
      exact hreads
    · rintro source ⟨⟩ _
      exact Or.inr rfl
  | back hn hp =>
    -- the source is one of the frames, so the wire closes a cycle through the uppermost one
    have hreads := hfit.1.reads_next (by rw [hn]; rfl)
    have hpath := hfit.path ((h.opened _).mp hp)
    refine h.reframe rfl (hfit.1.follow (fun _ hs => (by cases hs)) (fun _ => ?_) fun hc => ?_)
    · exact ⟨_, ReflTransGen.refl, TransGen.head' hreads hpath⟩
    · cases hc
  | cross hn hp =>
    have hreads := hfit.1.reads_next (by rw [hn]; rfl)
    have hmem := (h.closed _ _).mp hp
    refine h.reframe rfl (hfit.1.follow (fun _ hs => (by cases hs)) (fun hc => ?_) fun hc => ?_)
    · rcases (Bool.or_eq_true _ _).mp hc with hc | hc
      · exact hfit.1.due hc
      · exact (h.due _ hmem hc).of_reads hreads
    · obtain ⟨hcyclic, rfl⟩ := Bool.or_eq_false_iff.mp hc
      refine ⟨hcyclic, ?_⟩
      rintro source ⟨⟩ _
      exact Or.inl hmem
  | outside hn hp =>
    -- an existing node lies within the marks
    have hlt := Diagram.lt_slotCount_of_node? (d := d) (by rw [hn]; rfl)
    have hge := Array.getElem?_eq_none_iff.mp hp
    rw [← h.size] at hlt
    exact absurd hlt (Nat.not_lt.mpr hge)

/-- a whole walk keeps the invariant -/
theorem Sound.steps {w w' : Walk} (h : Sound d w) (hsteps : ReflTransGen (Step d) w w') :
    Sound d w' := by
  induction hsteps with
  | refl => exact h
  | tail _ hstep ih => exact ih.step hstep

end Walk

end Dataflow
