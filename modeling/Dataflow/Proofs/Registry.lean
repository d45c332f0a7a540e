import Mathlib.Data.List.Induction
import Mathlib.Data.List.Nodup
import Dataflow.Observed

/-!
# What observers hear, told from the history of calls

The registry keeps a list of watches, which come and go with their observers.  The rule that it
follows needs no watches: it speaks of the calls so far and of what came of them.

* `Event`, `attached`     what came of a call; the observers attached to an identity and not removed
                          since, in the order in which they were attached;
* `ObservedSince`         the events since an identity last became observed;
* `Rule`                  what a call gives, who hears of it and what becomes of the host;
* `Registry.run_refines`  after any calls the registry shows what the rule says, and the next call
                          follows it;
* `Registry.handle_lt_handleCount`   handles fit 64 bits while no more observers are attached than
                          there are handles.

Copies of a diagram share an identity: every call brings its own diagram along.
-/

namespace Dataflow

variable {σ : Type}

namespace Registry

/-- what is asked of the registry, with the diagram that has the identity -/
inductive Call (σ : Type) where
  | observe (identity : Nat)
  | unobserve (identity handle : Nat)
  | notify (identity : Nat)
  | setText (identity : Nat) (d : Diagram) (slot : Nat) (text : String)
  | evaluate (identity : Nat) (d : Diagram) (root : Root) (sink : Sink σ) (pass : Nat)

def Call.attaches : Call σ → Bool
  | .observe _ => true
  | _ => false

/-- what came of a call, with the observers that heard of it -/
inductive Event where
  | observed (identity handle : Nat)
  | unobserved (identity handle : Nat) (found : Bool)
  | notified (identity : Nat) (told : List Nat)
  | edited (identity : Nat) (outcome : Except EditFault Diagram) (told : List Nat)
  | evaluated (identity : Nat) (outcome : Option Results) (told : List Nat)

namespace Event

/-- the handle that a new observer got -/
def handle? : Event → Option Nat
  | .observed _ handle => some handle
  | _ => none

/-- whether an observer was to be taken off an identity -/
def detaches (identity handle : Nat) : Event → Bool
  | .unobserved other h _ => other == identity && h == handle
  | _ => false

/-- the results of a pass over an identity -/
def results? (identity : Nat) : Event → Option Results
  | .evaluated other outcome _ => if other = identity then outcome else none
  | _ => none

/-- whether nothing was attached, detached or evaluated -/
def Quiet : Event → Prop
  | .observed .. | .unobserved _ _ true | .evaluated _ (some _) _ => False
  | _ => True

end Event

/-- the handles that were ever given out -/
def handles (history : List Event) : List Nat := history.filterMap Event.handle?

/-- the observers that were attached to an identity and not removed since -/
def attached (identity : Nat) : List Event → List Nat
  | [] => []
  | .observed other handle :: since =>
    if other = identity ∧ !since.any (·.detaches identity handle) then
      handle :: attached identity since
    else attached identity since
  | _ :: since => attached identity since

/-- the results of the latest pass over an identity, if there was one -/
def latest (identity : Nat) (events : List Event) : Results :=
  ((events.filterMap (·.results? identity)).getLast?).getD .empty

/-- nobody observed the identity before these events, and somebody at any time since -/
structure ObservedSince (identity : Nat) (history before since : List Event) : Prop where
  history_eq : history = before ++ since
  none_before : attached identity before = []
  some_since : ∀ front, front <+: since → front ≠ [] → attached identity (before ++ front) ≠ []
  ne_nil : since ≠ []

/-- what a call is to give after a history of calls -/
inductive Rule (history : List Event) (host : σ) : Call σ → Event → σ → Prop where
  | observe {identity handle : Nat} : handle ∉ handles history →
    Rule history host (.observe identity) (.observed identity handle) host
  | unobserve {identity handle : Nat} : handle ∈ attached identity history →
    Rule history host (.unobserve identity handle) (.unobserved identity handle true) host
  | unknown {identity handle : Nat} : handle ∉ attached identity history →
    Rule history host (.unobserve identity handle) (.unobserved identity handle false) host
  | notify {identity : Nat} :
    Rule history host (.notify identity) (.notified identity (attached identity history)) host
  | edit {identity : Nat} {d d' : Diagram} {slot : Nat} {text : String} :
    d.setText slot text = .ok d' →
    Rule history host (.setText identity d slot text)
      (.edited identity (.ok d') (attached identity history)) host
  | noEdit {identity : Nat} {d : Diagram} {slot : Nat} {text : String} {fault : EditFault} :
    d.setText slot text = .error fault →
    Rule history host (.setText identity d slot text) (.edited identity (.error fault) []) host
  | evaluate {identity : Nat} {d : Diagram} {root : Root} {sink : Sink σ} {pass : Nat}
      {results : Results} {host' : σ} : attached identity history ≠ [] →
    d.evaluate root sink pass .empty host = (results, host') →
    Rule history host (.evaluate identity d root sink pass)
      (.evaluated identity (some results) (attached identity history)) host'
  | noPass {identity : Nat} {d : Diagram} {root : Root} {sink : Sink σ} {pass : Nat} :
    attached identity history = [] →
    Rule history host (.evaluate identity d root sink pass) (.evaluated identity none []) host

end Registry

/-- the registry with the calls so far -/
structure Registry (σ : Type) where
  observed : Observed
  host : σ
  history : List Registry.Event

namespace Registry

def empty (host : σ) : Registry σ := ⟨.empty, host, []⟩

/-- what a call gives, and the registry and the host after it -/
def answer (o : Observed) (host : σ) : Call σ → Event × Observed × σ
  | .observe identity =>
    let (handle, o) := o.observe identity
    (.observed identity handle, o, host)
  | .unobserve identity handle =>
    match o.unobserve? identity handle with
    | some o => (.unobserved identity handle true, o, host)
    | none => (.unobserved identity handle false, o, host)
  | .notify identity => (.notified identity (o.notify identity), o, host)
  | .setText identity d slot text =>
    match o.setText identity d slot text with
    | .ok (d, told) => (.edited identity (.ok d) told, o, host)
    | .error fault => (.edited identity (.error fault) [], o, host)
  | .evaluate identity d root sink pass =>
    match o.evaluate? identity d root sink pass host with
    | some p => (.evaluated identity (some p.results) p.told, p.observed, p.host)
    | none => (.evaluated identity none [], o, host)

def next (r : Registry σ) (call : Call σ) : Registry σ :=
  let (event, observed, host) := answer r.observed r.host call
  ⟨observed, host, r.history ++ [event]⟩

/-- the registry after some calls -/
def run (host : σ) (calls : List (Call σ)) : Registry σ := calls.foldl next (.empty host)

/-! ## the history -/

section History

variable {identity handle : Nat} {history : List Event} {event : Event}

theorem handles_append (history : List Event) (event : Event) :
    handles (history ++ [event]) = handles history ++ handles [event] := List.filterMap_append ..

/-- an event takes observers off an identity and puts new ones at the end -/
theorem attached_append (identity : Nat) (history : List Event) (event : Event) :
    attached identity (history ++ [event]) =
      (attached identity history).filter (fun handle => !event.detaches identity handle) ++
        attached identity [event] := by
  induction history with
  | nil => rfl
  | cons first rest ih =>
    cases first with
    | observed other handle =>
      rw [List.cons_append, attached, attached, ih, List.any_append]
      by_cases hother : other = identity
      · cases rest.any (·.detaches identity handle) with
        | true => simp [hother]
        | false => cases hnow : event.detaches identity handle <;> simp [hother, hnow]
      · simp [hother]
    | _ => exact ih

theorem attached_sublist (identity : Nat) (history : List Event) :
    (attached identity history).Sublist (handles history) := by
  induction history with
  | nil => exact .slnil
  | cons first rest ih =>
    cases first with
    | observed other handle =>
      rw [attached]
      split
      · exact ih.cons_cons handle
      · exact ih.cons handle
    | _ => exact ih

theorem latest_append (identity : Nat) (events : List Event) (event : Event) :
    latest identity (events ++ [event]) =
      (event.results? identity).getD (latest identity events) := by
  rw [latest, List.filterMap_append]
  cases h : event.results? identity with
  | none => simp [h, latest]
  | some results => simp [h]

/-- an identity is observed after an event because it was before or because of the event -/
theorem ObservedSince.last {before since : List Event}
    (h : ObservedSince identity (history ++ [event]) before since) :
    ∃ earlier, since = earlier ++ [event] ∧ attached identity (history ++ [event]) ≠ [] ∧
      (attached identity history = [] ∧ earlier = [] ∨
        ObservedSince identity history before earlier) := by
  obtain ⟨heq, hnone, hsome, hne⟩ := h
  obtain ⟨earlier, last, rfl⟩ := (List.eq_nil_or_concat' since).resolve_left hne
  rw [← List.append_assoc] at heq
  obtain ⟨rfl, hlast⟩ := List.append_inj' heq rfl
  obtain rfl := List.singleton_inj.mp hlast
  have hnow := hsome _ (List.prefix_refl _) (List.append_ne_nil_of_right_ne_nil _ (by simp))
  rw [← List.append_assoc] at hnow
  refine ⟨earlier, rfl, hnow, ?_⟩
  by_cases hearlier : earlier = []
  · subst hearlier
    exact .inl ⟨by rwa [List.append_nil], rfl⟩
  · refine .inr ⟨rfl, hnone, fun front hfront => ?_, hearlier⟩
    exact hsome front (List.prefix_append_of_prefix hfront)

/-- what is observed became so at some time -/
theorem exists_observedSince (h : attached identity history ≠ []) :
    ∃ before since, ObservedSince identity history before since := by
  induction history using List.reverseRecOn with
  | nil => exact absurd rfl h
  | append_singleton earlier event ih =>
    by_cases hearlier : attached identity earlier = []
    · refine ⟨earlier, [event], rfl, hearlier, fun front hfront hne => ?_, by simp⟩
      have hlast : front <+: [] ++ [event] := hfront
      obtain rfl | hnil := List.prefix_concat_iff.mp hlast
      · exact h
      · exact absurd (List.prefix_nil.mp hnil) hne
    · obtain ⟨before, since, heq, hnone, hsome, -⟩ := ih hearlier
      refine ⟨before, since ++ [event], by rw [heq, List.append_assoc], hnone,
        fun front hfront hne => ?_, by simp⟩
      obtain rfl | hinner := List.prefix_concat_iff.mp hfront
      · rwa [← List.append_assoc, ← heq]
      · exact hsome front hinner hne

theorem ObservedSince.attached_ne_nil {before since : List Event}
    (h : ObservedSince identity history before since) : attached identity history ≠ [] := by
  rw [h.history_eq]
  exact h.some_since since (List.prefix_refl _) h.ne_nil

end History

end Registry

/-! ## the watches -/

namespace Observed

open Registry

variable {o o' : Observed} {identity other handle : Nat} {watches : List Watch}

/-- every identity is watched once, and for an observer -/
structure Sound (o : Observed) : Prop where
  distinct : (o.watches.map Watch.identity).Nodup
  observed : ∀ w ∈ o.watches, w.observers ≠ []

theorem sound_empty : empty.Sound := ⟨List.nodup_nil, nofun⟩

theorem find?_modify (change : Watch → Watch) (h : ∀ w, (change w).identity = w.identity) :
    (modify identity change watches).find? (·.identity == other) =
      if other = identity then (watches.find? (·.identity == other)).map change
      else watches.find? (·.identity == other) := by
  induction watches with
  | nil => simp [modify]
  | cons w rest ih =>
    rw [modify]
    by_cases hw : w.identity = identity
    · rw [if_pos hw, List.find?_cons, List.find?_cons, h w]
      by_cases hother : other = identity
      · simp [hw, hother]
      · have hne : (w.identity == other) = false := by simpa [hw] using Ne.symm hother
        simp [hne, hother]
    · rw [if_neg hw, List.find?_cons, List.find?_cons, ih]
      cases hfound : w.identity == other with
      | true =>
        have hne : other ≠ identity := by rwa [← eq_of_beq hfound]
        simp [hne]
      | false => rfl

theorem identities_modify (change : Watch → Watch) (h : ∀ w, (change w).identity = w.identity) :
    (modify identity change watches).map Watch.identity = watches.map Watch.identity := by
  induction watches with
  | nil => rfl
  | cons w rest ih =>
    rw [modify]
    split
    · rw [List.map_cons, List.map_cons, h]
    · rw [List.map_cons, List.map_cons, ih]

/-- a watch of a changed list is a watch of before or a changed one -/
theorem mem_modify {change : Watch → Watch} {w : Watch} (h : w ∈ modify identity change watches) :
    w ∈ watches ∨ ∃ before ∈ watches, change before = w := by
  induction watches with
  | nil => exact .inl h
  | cons first rest ih =>
    rw [modify] at h
    split at h
    · obtain rfl | hrest := List.mem_cons.mp h
      · exact .inr ⟨first, List.mem_cons_self, rfl⟩
      · exact .inl (List.mem_cons_of_mem _ hrest)
    · obtain rfl | hrest := List.mem_cons.mp h
      · exact .inl List.mem_cons_self
      · exact (ih hrest).imp (List.mem_cons_of_mem _)
          fun ⟨before, hbefore, heq⟩ => ⟨before, List.mem_cons_of_mem _ hbefore, heq⟩

/-- an identity that is watched once is not found again after its watch is dropped -/
theorem find?_filter_of_nodup (p : Watch → Bool) (h : (watches.map Watch.identity).Nodup) :
    (watches.filter p).find? (·.identity == other) =
      (watches.find? (·.identity == other)).filter p := by
  induction watches with
  | nil => rfl
  | cons w rest ih =>
    obtain ⟨hw, hrest⟩ := List.nodup_cons.mp h
    by_cases hfound : w.identity = other
    · rw [List.find?_cons, hfound, beq_self_eq_true]
      cases hp : p w with
      | true => simp [hp, hfound, Option.filter_some]
      | false =>
        rw [List.filter_cons, if_neg (by simp [hp]), ih hrest]
        have hnone : rest.find? (·.identity == other) = none := by
          refine List.find?_eq_none.mpr fun later hlater => ?_
          simpa [← hfound] using fun heq => hw (List.mem_map.mpr ⟨later, hlater, heq⟩)
        simp [hnone, hp, Option.filter_some]
    · have hne : (w.identity == other) = false := by simpa using hfound
      rw [List.find?_cons, hne, ← ih hrest, List.filter_cons]
      split
      · rw [List.find?_cons, hne]
      · rfl

theorem watch?_mem {w : Watch} (h : o.watch? identity = some w) : w ∈ o.watches :=
  List.mem_of_find?_eq_some h

theorem observers_of_watch? {w : Watch} (h : o.watch? identity = some w) :
    o.observers identity = w.observers := by rw [observers, h]; rfl

theorem observers_eq_nil_iff (hs : o.Sound) :
    o.observers identity = [] ↔ o.watch? identity = none := by
  cases h : o.watch? identity with
  | none => simp [observers, h]
  | some w =>
    rw [observers_of_watch? h]
    simp [hs.observed w (watch?_mem h)]

theorem isObserved_iff (hs : o.Sound) :
    o.isObserved identity = true ↔ o.observers identity ≠ [] := by
  rw [ne_eq, observers_eq_nil_iff hs, isObserved, Option.isSome_iff_ne_none]

theorem watch?_observe : (o.observe identity).2.watch? other =
    if other = identity then
      some ((o.watch? identity).elim ⟨identity, [o.next], .empty⟩
        fun w => { w with observers := w.observers ++ [o.next] })
    else o.watch? other := by
  unfold observe isObserved
  cases h : o.watch? identity with
  | some w =>
    refine (find?_modify (fun w => { w with observers := w.observers ++ [o.next] })
      fun _ => rfl).trans ?_
    split
    · next hother =>
      obtain rfl := hother
      exact congrArg (Option.map _) h
    · rfl
  | none =>
    refine List.find?_cons.trans ?_
    by_cases hother : other = identity
    · simp [hother]
    · have hne : (identity == other) = false := by simpa using Ne.symm hother
      rw [if_neg hother]
      simp only [hne]
      rfl

theorem unobserve?_eq_some (h : o.unobserve? identity handle = some o') :
    handle ∈ o.observers identity ∧
      o'.watches = (modify identity (fun w => { w with observers := w.observers.erase handle })
        o.watches).filter (·.observers != []) ∧ o'.next = o.next := by
  unfold unobserve? at h
  split at h
  · next hmem =>
    obtain rfl := Option.some.inj h
    exact ⟨hmem, rfl, rfl⟩
  · cases h

theorem watch?_unobserve (hs : o.Sound) (h : o.unobserve? identity handle = some o') :
    o'.watch? other = if other = identity then
      ((o.watch? identity).map fun w => { w with observers := w.observers.erase handle }).filter
        (·.observers != [])
    else o.watch? other := by
  obtain ⟨-, hwatches, -⟩ := unobserve?_eq_some h
  let change (w : Watch) : Watch := { w with observers := w.observers.erase handle }
  have hdistinct : ((modify identity change o.watches).map Watch.identity).Nodup := by
    rw [identities_modify change fun _ => rfl]
    exact hs.distinct
  rw [watch?, hwatches, find?_filter_of_nodup _ hdistinct, find?_modify change fun _ => rfl]
  split
  · next hother =>
    rw [hother]
    rfl
  · cases hw : o.watches.find? (·.identity == other) with
    | none => exact hw.symm
    | some w =>
      have hobserved := hs.observed w (List.mem_of_find?_eq_some hw)
      exact (Option.filter_some_eq_some.mpr (by simpa using hobserved)).trans hw.symm

theorem watch?_evaluate {p : Pass σ} {d : Diagram} {root : Root} {sink : Sink σ} {pass : Nat}
    {host : σ} (h : o.evaluate? identity d root sink pass host = some p) :
    p.observed.watch? other = if other = identity then
      (o.watch? identity).map fun w => { w with state := p.results }
    else o.watch? other := by
  obtain ⟨w, -, rfl⟩ := Option.map_eq_some_iff.mp h
  refine (find?_modify (fun v => { v with state := (d.evaluate root sink pass w.state host).1 })
    fun _ => rfl).trans ?_
  split
  · next hother =>
    obtain rfl := hother
    rfl
  · rfl

/-! ## what an event does to the watches -/

/-- the registry before and after an event, seen from outside -/
structure Moves (o : Observed) (event : Event) (o' : Observed) : Prop where
  sound : o'.Sound
  observers_eq : ∀ identity, o'.observers identity =
    (o.observers identity).filter (fun handle => !event.detaches identity handle) ++
      attached identity [event]
  state_eq : ∀ identity, o'.observers identity ≠ [] → o'.state? identity =
    some ((event.results? identity).getD ((o.state? identity).getD .empty))
  next_eq : handles [event] = [] ∧ o'.next = o.next ∨
    handles [event] = [o.next] ∧ o'.next = o.next + 1
  quiet : event.Quiet → o' = o

theorem state?_getD (hs : o.Sound) (h : o.observers identity ≠ []) :
    o.state? identity = some ((o.state? identity).getD .empty) := by
  cases hw : o.watch? identity with
  | none => exact absurd ((observers_eq_nil_iff hs).mpr hw) h
  | some w => simp [state?, hw]

/-- an event that nobody joins, that gives no results and that is about nobody who is there -/
theorem moves_self (hs : o.Sound) {event : Event} (hnone : event.handle? = none)
    (hresults : ∀ identity, event.results? identity = none)
    (hdetaches : ∀ identity, ∀ handle ∈ o.observers identity,
      event.detaches identity handle = false) : o.Moves event o where
  sound := hs
  observers_eq identity := by
    have hkept : (o.observers identity).filter (fun handle => !event.detaches identity handle) =
        o.observers identity := by
      refine List.filter_eq_self.mpr fun handle hmem => ?_
      rw [hdetaches identity handle hmem]
      rfl
    have hnew : attached identity [event] = [] := by
      cases event with
      | observed other handle => cases hnone
      | _ => rfl
    rw [hkept, hnew, List.append_nil]
  state_eq identity h := by
    rw [hresults]
    exact state?_getD hs h
  next_eq := .inl ⟨by simp [handles, hnone], rfl⟩
  quiet _ := rfl

theorem sound_modify (hs : o.Sound) (change : Watch → Watch)
    (hidentity : ∀ w, (change w).identity = w.identity)
    (hobservers : ∀ w, w.observers ≠ [] → (change w).observers ≠ []) (next : Nat) :
    Sound ⟨modify identity change o.watches, next⟩ where
  distinct := by
    rw [identities_modify change hidentity]
    exact hs.distinct
  observed w hw := by
    obtain hw | ⟨before, hbefore, rfl⟩ := mem_modify hw
    · exact hs.observed w hw
    · exact hobservers before (hs.observed before hbefore)

theorem sound_observe (hs : o.Sound) : (o.observe identity).2.Sound := by
  unfold observe
  cases h : o.isObserved identity with
  | true =>
    exact sound_modify hs (fun w => { w with observers := w.observers ++ [o.next] })
      (fun _ => rfl) (fun _ _ => List.append_ne_nil_of_right_ne_nil _ (List.cons_ne_nil _ _)) _
  | false =>
    have hnone : o.watch? identity = none := by simpa [isObserved] using h
    refine ⟨List.nodup_cons.mpr ⟨fun hmem => ?_, hs.distinct⟩, fun w hw => ?_⟩
    · obtain ⟨w, hw, heq⟩ := List.mem_map.mp hmem
      simpa [heq] using List.find?_eq_none.mp hnone w hw
    · obtain rfl | hw := List.mem_cons.mp hw
      · simp
      · exact hs.observed w hw

theorem sound_unobserve (hs : o.Sound) (h : o.unobserve? identity handle = some o') :
    o'.Sound := by
  obtain ⟨-, hwatches, -⟩ := unobserve?_eq_some h
  constructor
  · rw [hwatches]
    refine List.Nodup.sublist (List.filter_sublist.map _) ?_
    rw [identities_modify (fun w => { w with observers := w.observers.erase handle }) fun _ => rfl]
    exact hs.distinct
  · intro w hw
    rw [hwatches] at hw
    simpa using (List.mem_filter.mp hw).2

theorem moves_observe (hs : o.Sound) :
    o.Moves (.observed identity o.next) (o.observe identity).2 where
  sound := sound_observe hs
  observers_eq other := by
    have hkept : (o.observers other).filter
        (fun handle => !(Event.observed identity o.next).detaches other handle) =
        o.observers other := List.filter_eq_self.mpr fun _ _ => rfl
    rw [hkept, observers, watch?_observe]
    by_cases hother : other = identity
    · obtain rfl := hother
      cases hw : o.watch? other <;> simp [attached, observers, hw]
    · simp [attached, observers, hother, Ne.symm hother]
  state_eq other h := by
    by_cases hother : other = identity
    · obtain rfl := hother
      rw [state?, watch?_observe]
      cases hw : o.watch? other <;> simp [state?, hw, Event.results?]
    · have hsame : (o.observe identity).2.watch? other = o.watch? other := by
        rw [watch?_observe, if_neg hother]
      rw [observers, hsame] at h
      rw [state?, hsame]
      exact state?_getD hs h
  next_eq := .inr ⟨rfl, rfl⟩
  quiet := False.elim

theorem observers_unobserve (hs : o.Sound) (h : o.unobserve? identity handle = some o') :
    o'.observers other =
      if other = identity then (o.observers other).erase handle else o.observers other := by
  rw [observers, watch?_unobserve hs h]
  split
  · next hother =>
    obtain rfl := hother
    cases hw : o.watch? other with
    | none => simp [observers, hw]
    | some w =>
      rw [observers_of_watch? hw, Option.map_some, Option.filter_some]
      cases w.observers.erase handle <;> rfl
  · rfl

theorem state?_unobserve (hs : o.Sound) (h : o.unobserve? identity handle = some o')
    (hobserved : o'.observers other ≠ []) : o'.state? other = o.state? other := by
  rw [observers, watch?_unobserve hs h] at hobserved
  rw [state?, watch?_unobserve hs h]
  split
  · next hother =>
    obtain rfl := hother
    rw [if_pos rfl] at hobserved
    cases hw : o.watch? other with
    | none => simp [state?, hw]
    | some w =>
      rw [hw, Option.map_some, Option.filter_some] at hobserved
      rw [Option.map_some, Option.filter_some]
      split
      · simp [state?, hw]
      · next hnil => simp [hnil] at hobserved
  · rfl

theorem moves_unobserve (hs : o.Sound) (h : o.unobserve? identity handle = some o')
    (hnodup : (o.observers identity).Nodup) : o.Moves (.unobserved identity handle true) o' where
  sound := sound_unobserve hs h
  observers_eq other := by
    rw [observers_unobserve hs h]
    refine Eq.trans ?_ (List.append_nil _).symm
    split
    · next hother =>
      obtain rfl := hother
      rw [hnodup.erase_eq_filter]
      refine List.filter_congr fun found _ => ?_
      simp [Event.detaches, bne, Bool.beq_comm]
    · next hother =>
      refine (List.filter_eq_self.mpr fun found _ => ?_).symm
      simp [Event.detaches, Ne.symm hother]
  state_eq other hobserved := by
    have hsame := state?_unobserve hs h hobserved
    rw [hsame]
    refine state?_getD hs fun hnil => hobserved ?_
    rw [observers_unobserve hs h, hnil]
    split <;> rfl
  next_eq := .inl ⟨rfl, (unobserve?_eq_some h).2.2⟩
  quiet := False.elim

theorem evaluate?_eq_some {p : Pass σ} {d : Diagram} {root : Root} {sink : Sink σ}
    {pass : Nat} {host : σ} (h : o.evaluate? identity d root sink pass host = some p) :
    p.told = o.observers identity ∧
      d.evaluate root sink pass .empty host = (p.results, p.host) ∧
      p.observed =
        ⟨modify identity (fun w => { w with state := p.results }) o.watches, o.next⟩ := by
  obtain ⟨w, hw, rfl⟩ := Option.map_eq_some_iff.mp h
  exact ⟨(observers_of_watch? hw).symm, rfl, rfl⟩

theorem moves_evaluate (hs : o.Sound) {p : Pass σ} {d : Diagram} {root : Root} {sink : Sink σ}
    {pass : Nat} {host : σ} (h : o.evaluate? identity d root sink pass host = some p)
    (told : List Nat) :
    o.Moves (.evaluated identity (some p.results) told) p.observed where
  sound := by
    obtain ⟨-, -, hobserved⟩ := evaluate?_eq_some h
    rw [hobserved]
    exact sound_modify hs (fun w => { w with state := p.results }) (fun _ => rfl)
      (fun _ hw => hw) _
  observers_eq other := by
    have hkept : (o.observers other).filter
        (fun handle => !(Event.evaluated identity (some p.results) told).detaches other handle) =
        o.observers other := List.filter_eq_self.mpr fun _ _ => rfl
    rw [hkept, observers, watch?_evaluate h]
    refine Eq.trans ?_ (List.append_nil _).symm
    split
    · next hother =>
      obtain rfl := hother
      rw [Option.map_map]
      rfl
    · rfl
  state_eq other hobserved := by
    rw [observers, watch?_evaluate h] at hobserved
    rw [state?, watch?_evaluate h]
    split at hobserved
    · next hother =>
      obtain rfl := hother
      obtain ⟨w, hw, -⟩ := Option.map_eq_some_iff.mp h
      simp [hw, Event.results?]
    · next hother =>
      have hnone : (Event.evaluated identity (some p.results) told).results? other = none :=
        if_neg (Ne.symm hother)
      rw [hnone, if_neg hother]
      exact state?_getD hs hobserved
  next_eq := by
    obtain ⟨-, -, hobserved⟩ := evaluate?_eq_some h
    exact .inl ⟨rfl, by rw [hobserved]⟩
  quiet := False.elim

end Observed

/-! ## calls -/

namespace Registry

variable {r : Registry σ}

/-- the watches are what the history makes of them -/
structure Follows (r : Registry σ) : Prop where
  sound : r.observed.Sound
  observers_eq : ∀ identity, r.observed.observers identity = attached identity r.history
  handles_eq : handles r.history = List.range r.observed.next
  state_eq : ∀ identity before since, ObservedSince identity r.history before since →
    r.observed.state? identity = some (latest identity since)

theorem follows_empty (host : σ) : (empty host).Follows where
  sound := Observed.sound_empty
  observers_eq _ := rfl
  handles_eq := rfl
  state_eq _ _ _ h := absurd rfl h.attached_ne_nil

theorem Follows.distinct (h : r.Follows) : (handles r.history).Nodup :=
  h.handles_eq ▸ List.nodup_range

theorem Follows.nodup_observers (h : r.Follows) (identity : Nat) :
    (r.observed.observers identity).Nodup := by
  rw [h.observers_eq]
  exact h.distinct.sublist (attached_sublist identity r.history)

theorem answer_observe (h : r.Follows) (identity : Nat) :
    let a := answer r.observed r.host (.observe identity)
    r.observed.Moves a.1 a.2.1 ∧ Rule r.history r.host (.observe identity) a.1 a.2.2 :=
  ⟨Observed.moves_observe h.sound,
    .observe fun hmem => Nat.lt_irrefl _ (List.mem_range.mp (h.handles_eq ▸ hmem))⟩

theorem answer_unobserve (h : r.Follows) (identity handle : Nat) :
    let a := answer r.observed r.host (.unobserve identity handle)
    r.observed.Moves a.1 a.2.1 ∧ Rule r.history r.host (.unobserve identity handle) a.1 a.2.2 := by
  cases hun : r.observed.unobserve? identity handle with
  | some o =>
    have hmem := (Observed.unobserve?_eq_some hun).1
    rw [h.observers_eq] at hmem
    simp only [answer, hun]
    exact ⟨Observed.moves_unobserve h.sound hun (h.nodup_observers identity), .unobserve hmem⟩
  | none =>
    have hmem : handle ∉ r.observed.observers identity := by
      simpa [Observed.unobserve?] using hun
    simp only [answer, hun]
    refine ⟨Observed.moves_self h.sound rfl (fun _ => rfl) fun other found hfound => ?_,
      .unknown (h.observers_eq identity ▸ hmem)⟩
    refine Bool.eq_false_iff.mpr fun hdetaches => ?_
    simp only [Event.detaches, Bool.and_eq_true, beq_iff_eq] at hdetaches
    obtain ⟨rfl, rfl⟩ := hdetaches
    exact hmem hfound

theorem answer_notify (h : r.Follows) (identity : Nat) :
    let a := answer r.observed r.host (.notify identity)
    r.observed.Moves a.1 a.2.1 ∧ Rule r.history r.host (.notify identity) a.1 a.2.2 := by
  simp only [answer, Observed.notify, h.observers_eq]
  exact ⟨Observed.moves_self h.sound rfl (fun _ => rfl) fun _ _ _ => rfl, .notify⟩

theorem answer_setText (h : r.Follows) (identity : Nat) (d : Diagram) (slot : Nat)
    (text : String) :
    let a := answer r.observed r.host (.setText identity d slot text)
    r.observed.Moves a.1 a.2.1 ∧
      Rule r.history r.host (.setText identity d slot text) a.1 a.2.2 := by
  cases hset : d.setText slot text with
  | ok d' =>
    simp only [answer, Observed.setText, Observed.notify, hset, Except.map, h.observers_eq]
    exact ⟨Observed.moves_self h.sound rfl (fun _ => rfl) fun _ _ _ => rfl, .edit hset⟩
  | error fault =>
    simp only [answer, Observed.setText, hset, Except.map]
    exact ⟨Observed.moves_self h.sound rfl (fun _ => rfl) fun _ _ _ => rfl, .noEdit hset⟩

theorem answer_evaluate (h : r.Follows) (identity : Nat) (d : Diagram) (root : Root)
    (sink : Sink σ) (pass : Nat) :
    let a := answer r.observed r.host (.evaluate identity d root sink pass)
    r.observed.Moves a.1 a.2.1 ∧
      Rule r.history r.host (.evaluate identity d root sink pass) a.1 a.2.2 := by
  cases hpass : r.observed.evaluate? identity d root sink pass r.host with
  | some p =>
    obtain ⟨htold, hevaluate, -⟩ := Observed.evaluate?_eq_some hpass
    obtain ⟨w, hw, -⟩ := Option.map_eq_some_iff.mp hpass
    have hobserved : attached identity r.history ≠ [] := by
      rw [← h.observers_eq, ne_eq, Observed.observers_eq_nil_iff h.sound, hw]
      exact Option.some_ne_none w
    rw [h.observers_eq] at htold
    simp only [answer, hpass, htold]
    exact ⟨Observed.moves_evaluate h.sound hpass _, .evaluate hobserved hevaluate⟩
  | none =>
    have hunobserved : attached identity r.history = [] := by
      rw [← h.observers_eq, Observed.observers_eq_nil_iff h.sound]
      exact Option.map_eq_none_iff.mp hpass
    simp only [answer, hpass]
    refine ⟨Observed.moves_self h.sound rfl (fun other => ?_) fun _ _ _ => rfl,
      .noPass hunobserved⟩
    simp [Event.results?]

/-- what a call does -/
theorem answer_spec (h : r.Follows) (call : Call σ) :
    let a := answer r.observed r.host call
    r.observed.Moves a.1 a.2.1 ∧ Rule r.history r.host call a.1 a.2.2 := by
  cases call with
  | observe identity => exact answer_observe h identity
  | unobserve identity handle => exact answer_unobserve h identity handle
  | notify identity => exact answer_notify h identity
  | setText identity d slot text => exact answer_setText h identity d slot text
  | evaluate identity d root sink pass => exact answer_evaluate h identity d root sink pass

theorem follows_next (h : r.Follows) (call : Call σ) : (r.next call).Follows := by
  obtain ⟨hmoves, -⟩ := answer_spec h call
  unfold next
  generalize answer r.observed r.host call = a at hmoves
  obtain ⟨event, o', host'⟩ := a
  have hobservers : ∀ identity, o'.observers identity =
      attached identity (r.history ++ [event]) := by
    intro identity
    rw [hmoves.observers_eq, attached_append, h.observers_eq]
  refine ⟨hmoves.sound, hobservers, ?_, fun identity before since hsince => ?_⟩
  · rw [handles_append, h.handles_eq]
    obtain ⟨hnone, hnext⟩ | ⟨hnew, hnext⟩ := hmoves.next_eq
    · rw [hnone, hnext, List.append_nil]
    · rw [hnew, hnext, List.range_succ]
  · obtain ⟨earlier, rfl, hnow, hearlier⟩ := hsince.last
    rw [hmoves.state_eq identity (hobservers identity ▸ hnow), latest_append]
    obtain ⟨hnobody, rfl⟩ | hbefore := hearlier
    · -- nobody observed the identity, so its watch is a new one
      have hnone : r.observed.state? identity = none := by
        rw [Observed.state?, (Observed.observers_eq_nil_iff h.sound).mp
          ((h.observers_eq identity).trans hnobody)]
        rfl
      rw [hnone]
      rfl
    · rw [h.state_eq identity before earlier hbefore]
      rfl

theorem follows_run (host : σ) (calls : List (Call σ)) : (run host calls).Follows := by
  suffices h : ∀ r : Registry σ, r.Follows → (calls.foldl next r).Follows from
    h _ (follows_empty host)
  induction calls with
  | nil => exact fun _ hr => hr
  | cons call calls ih => exact fun r hr => ih _ (follows_next hr call)

/-- the next handle moves on with every observer that is attached -/
theorem next_observed_next (r : Registry σ) (call : Call σ) :
    (r.next call).observed.next = r.observed.next + if call.attaches then 1 else 0 := by
  cases call with
  | observe identity => rfl
  | unobserve identity handle =>
    cases hun : r.observed.unobserve? identity handle with
    | none => simp [next, answer, hun, Call.attaches]
    | some o => simp [next, answer, hun, Call.attaches, (Observed.unobserve?_eq_some hun).2.2]
  | notify identity => rfl
  | setText identity d slot text =>
    cases hset : r.observed.setText identity d slot text <;>
      simp [next, answer, hset, Call.attaches]
  | evaluate identity d root sink pass =>
    cases hwatch : r.observed.watch? identity <;>
      simp [next, answer, Observed.evaluate?, hwatch, Call.attaches]

theorem next_run (host : σ) (calls : List (Call σ)) :
    (run host calls).observed.next = calls.countP Call.attaches := by
  induction calls using List.reverseRecOn with
  | nil => rfl
  | append_singleton calls call ih =>
    rw [run, List.foldl_append, List.countP_append, List.countP_singleton, ← ih]
    exact next_observed_next _ call

/-- handles never run out as long as no more observers are attached than there are handles -/
theorem handle_lt_handleCount {host : σ} {calls : List (Call σ)}
    (h : calls.countP Call.attaches ≤ Observed.handleCount) {handle : Nat}
    (hmem : handle ∈ handles (run host calls).history) : handle < Observed.handleCount := by
  rw [(follows_run host calls).handles_eq, next_run] at hmem
  exact Nat.lt_of_lt_of_le (List.mem_range.mp hmem) h

/-- **The registry does what the history of calls says.**  After any calls about any diagrams,
every observer that was attached has got the next number as its handle, so none was given out twice;
the observers of an identity are those that were attached and not removed since, in that order; it
is observed just if there is one, and its state is then that of the latest pass since it became
observed, the empty one if there was none.  The next call follows the rule, and where it attaches,
detaches and evaluates nothing the registry stays as it is. -/
theorem run_refines (host : σ) (calls : List (Call σ)) :
    let r := run host calls
    (handles r.history).Nodup ∧
    handles r.history = List.range (calls.countP Call.attaches) ∧
    (∀ identity, r.observed.observers identity = attached identity r.history ∧
      (r.observed.isObserved identity = true ↔ attached identity r.history ≠ []) ∧
      (attached identity r.history = [] → r.observed.state? identity = none) ∧
      (attached identity r.history ≠ [] →
        ∃ before since, ObservedSince identity r.history before since) ∧
      ∀ before since, ObservedSince identity r.history before since →
        r.observed.state? identity = some (latest identity since)) ∧
    ∀ call, ∃ event, (r.next call).history = r.history ++ [event] ∧
      Rule r.history r.host call event (r.next call).host ∧
      (event.Quiet → (r.next call).observed = r.observed) := by
  intro r
  have h : r.Follows := follows_run host calls
  refine ⟨h.distinct, next_run host calls ▸ h.handles_eq, fun identity =>
    ⟨h.observers_eq identity, ?_, fun hnobody => ?_, exists_observedSince, h.state_eq identity⟩,
    fun call => ?_⟩
  · rw [Observed.isObserved_iff h.sound, h.observers_eq]
  · rw [← h.observers_eq, Observed.observers_eq_nil_iff h.sound] at hnobody
    rw [Observed.state?, hnobody]
    rfl
  · obtain ⟨hmoves, hrule⟩ := answer_spec h call
    exact ⟨_, rfl, hrule, hmoves.quiet⟩

end Registry

end Dataflow
