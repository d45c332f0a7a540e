import Mathlib.Data.List.Forall2
import Mathlib.Data.List.Nodup
import Dataflow.Value.Call

/-!
# Objects of record classes

* `Named.swapRemove`         takes a name out, and the last one into its place;
* `Arguments.Suit`           the arguments that a record class with some parameters takes;
* `Value.Fills`              what stands under a parameter in the object that is made of them;
* `Value.callRecord_ok_iff`  a call of a record class, told by the two;
* `Value.constructTaking`    construction that uses the arguments up, one with each parameter;
* `Value.call_record`        exactly such arguments make an object, in any order the same one.

An argument is in the list of a call or it is not; that is all `Suit` and `Fills` ask, so they say
the same of every order of the list.
-/

namespace Dataflow

/-! ## names that come once -/

namespace Named

variable {α : Type} {entries : List (String × α)} {name : String} {a : α}

theorem get?_eq_none_iff : get? entries name = none ↔ name ∉ names entries := by
  induction entries with
  | nil => simp [get?, names]
  | cons e rest ih =>
    obtain ⟨n, b⟩ := e
    rw [get?_cons, names_cons, List.mem_cons]
    by_cases h : n = name
    · simp [h]
    · rw [if_neg h, ih]
      simp [Ne.symm h]

theorem mem_of_get? (h : get? entries name = some a) : (name, a) ∈ entries := by
  induction entries with
  | nil => cases h
  | cons e rest ih =>
    obtain ⟨n, b⟩ := e
    rw [get?_cons] at h
    split at h
    · next hn =>
      obtain rfl := Option.some.inj h
      exact hn ▸ List.mem_cons_self
    · exact List.mem_cons_of_mem _ (ih h)

theorem mem_names_of_mem (h : (name, a) ∈ entries) : name ∈ names entries :=
  List.mem_map_of_mem (f := Prod.fst) h

theorem get?_eq_some_iff (hnodup : (names entries).Nodup) :
    get? entries name = some a ↔ (name, a) ∈ entries := by
  refine ⟨mem_of_get?, fun hmem => ?_⟩
  cases hget : get? entries name with
  | none => exact absurd (mem_names_of_mem hmem) (get?_eq_none_iff.mp hget)
  | some b =>
    have hpair := List.inj_on_of_nodup_map hnodup (mem_of_get? hget) hmem rfl
    exact congrArg some (Prod.mk.inj hpair).2

theorem get?_perm {entries' : List (String × α)} (hnodup : (names entries).Nodup)
    (hperm : entries.Perm entries') : get? entries name = get? entries' name := by
  have hnodup' : (names entries').Nodup := (hperm.map Prod.fst).nodup_iff.mp hnodup
  refine Option.ext fun a => ?_
  rw [get?_eq_some_iff hnodup, get?_eq_some_iff hnodup', hperm.mem_iff]

/-- takes a name out together with what it stands for; the last entry comes into its place, so the
others change their order -/
def swapRemove (name : String) : List (String × α) → Option (α × List (String × α))
  | [] => none
  | (n, a) :: rest =>
    if n = name then some (a, rest.getLast?.toList ++ rest.dropLast)
    else (swapRemove name rest).map fun (b, left) => (b, (n, a) :: left)

theorem swapRemove_cons_of_ne {n : String} (h : n ≠ name) (a : α) (rest : List (String × α)) :
    swapRemove name ((n, a) :: rest) =
      (swapRemove name rest).map fun (b, left) => (b, (n, a) :: left) := by
  rw [swapRemove, if_neg h]

theorem lastFirst_perm (entries : List (String × α)) :
    (entries.getLast?.toList ++ entries.dropLast).Perm entries := by
  refine List.perm_append_comm.trans ?_
  cases entries with
  | nil => rfl
  | cons e rest =>
    rw [List.getLast?_eq_some_getLast (List.cons_ne_nil e rest), Option.toList_some,
      List.dropLast_append_getLast (List.cons_ne_nil e rest)]

theorem swapRemove_eq_none_iff : swapRemove name entries = none ↔ name ∉ names entries := by
  induction entries with
  | nil => simp [swapRemove, names]
  | cons e rest ih =>
    obtain ⟨n, b⟩ := e
    rw [names_cons, List.mem_cons]
    by_cases h : n = name
    · simp [swapRemove, h]
    · rw [swapRemove_cons_of_ne h, Option.map_eq_none_iff, ih]
      simp [Ne.symm h]

/-- what is taken out and what is left are together what there was -/
theorem swapRemove_perm {left : List (String × α)} (h : swapRemove name entries = some (a, left)) :
    entries.Perm ((name, a) :: left) := by
  induction entries generalizing left with
  | nil => cases h
  | cons e rest ih =>
    obtain ⟨n, b⟩ := e
    by_cases hn : n = name
    · rw [swapRemove, if_pos hn] at h
      obtain ⟨rfl, rfl⟩ := Prod.mk.inj (Option.some.inj h)
      exact hn ▸ ((lastFirst_perm rest).cons (n, b)).symm
    · rw [swapRemove_cons_of_ne hn, Option.map_eq_some_iff] at h
      obtain ⟨⟨c, others⟩, hothers, heq⟩ := h
      obtain ⟨rfl, rfl⟩ := Prod.mk.inj heq
      exact ((ih hothers).cons (n, b)).trans (List.Perm.swap (name, c) (n, b) others)

end Named

/-! ## arguments -/

namespace Arguments

/-- arguments as a call writes them -/
def written (args : List (String × Value)) : List (ArgumentForm × Value) :=
  args.map (Prod.map .named id)

theorem name_eq (args : List (String × Value)) (n : String) (v : Value) :
    name args n v =
      if n ∈ Named.names args then .error (.duplicateArgument n) else .ok (args ++ [(n, v)]) := by
  unfold name
  split
  · next w hw => rw [if_pos (Named.mem_names_of_mem (Named.mem_of_get? hw))]
  · next hnone => rw [if_neg (Named.get?_eq_none_iff.mp hnone)]

theorem written_eq_cons_iff {args : List (String × Value)} {form : ArgumentForm} {v : Value}
    {rest : List (ArgumentForm × Value)} : (form, v) :: rest = written args ↔
      ∃ n later, form = .named n ∧ args = (n, v) :: later ∧ rest = written later := by
  constructor
  · intro h
    obtain ⟨⟨n, w⟩, later, rfl, hfirst, rfl⟩ := List.map_eq_cons_iff.mp h.symm
    obtain ⟨rfl, rfl⟩ := Prod.mk.inj hfirst
    exact ⟨n, later, rfl, rfl, rfl⟩
  · rintro ⟨n, later, rfl, rfl, rfl⟩
    rfl

theorem not_mem_of_nodup_append {done later : List (String × Value)} {n : String} {v : Value}
    (h : (Named.names (done ++ (n, v) :: later)).Nodup) : n ∉ Named.names done := by
  rw [Named.names, List.map_append, List.nodup_append] at h
  exact fun hmem => h.2.2 n hmem n (List.mem_map_of_mem List.mem_cons_self) rfl

/-- arguments are gathered where all are named and no name comes twice -/
theorem onlyNamed_ok_iff {className : String} {given : List (ArgumentForm × Value)}
    {done args : List (String × Value)} (hdone : (Named.names done).Nodup) :
    onlyNamed className given done = .ok args ↔
      ∃ later, given = written later ∧ args = done ++ later ∧ (Named.names args).Nodup := by
  induction given generalizing done with
  | nil =>
    rw [onlyNamed, Except.ok.injEq]
    constructor
    · rintro rfl
      exact ⟨[], rfl, (List.append_nil _).symm, hdone⟩
    · rintro ⟨later, hlater, rfl, -⟩
      obtain rfl := List.map_eq_nil_iff.mp hlater.symm
      exact (List.append_nil _).symm
  | cons first rest ih =>
    obtain ⟨form, v⟩ := first
    cases form with
    | positional =>
      rw [onlyNamed]
      constructor
      · intro h
        cases h
      · rintro ⟨later, hlater, -⟩
        obtain ⟨n, _, hform, -⟩ := written_eq_cons_iff.mp hlater
        cases hform
    | named n =>
      rw [onlyNamed, name_eq]
      by_cases hn : n ∈ Named.names done
      · rw [if_pos hn]
        constructor
        · intro h
          cases h
        · rintro ⟨later, hlater, rfl, hnodup⟩
          obtain ⟨m, later, hform, rfl, -⟩ := written_eq_cons_iff.mp hlater
          obtain rfl := ArgumentForm.named.inj hform
          exact absurd hn (not_mem_of_nodup_append hnodup)
      · have hnew : (Named.names (done ++ [(n, v)])).Nodup := by
          rw [Named.names, List.map_append]
          exact hdone.append (List.nodup_singleton n) (List.disjoint_singleton.mpr hn)
        rw [if_neg hn]
        dsimp only
        rw [ih hnew]
        constructor
        · rintro ⟨later, rfl, rfl, hnodup⟩
          exact ⟨(n, v) :: later, rfl, List.append_assoc done [(n, v)] later, hnodup⟩
        · rintro ⟨later, hlater, rfl, hnodup⟩
          obtain ⟨m, later, hform, rfl, rfl⟩ := written_eq_cons_iff.mp hlater
          obtain rfl := ArgumentForm.named.inj hform
          exact ⟨later, rfl, (List.append_assoc done [(n, v)] later).symm, hnodup⟩

theorem onlyNamed_nil_ok_iff {className : String} {given : List (ArgumentForm × Value)}
    {args : List (String × Value)} : onlyNamed className given [] = .ok args ↔
      given = written args ∧ (Named.names args).Nodup := by
  have hnil : (Named.names ([] : List (String × Value))).Nodup := List.nodup_nil
  rw [onlyNamed_ok_iff hnil]
  constructor
  · rintro ⟨_, rfl, rfl, hnodup⟩
    exact ⟨rfl, hnodup⟩
  · rintro ⟨rfl, hnodup⟩
    exact ⟨args, rfl, rfl, hnodup⟩

/-- the arguments that a record class with these parameters takes: all are named, no name comes
twice, every name is a parameter, and every parameter without a default has one -/
structure Suit (parameters : List (String × Option Value)) (args : List (ArgumentForm × Value)) :
    Prop where
  named : ∀ a ∈ args, ∃ name, a.1 = .named name
  once : (args.map Prod.fst).Nodup
  known : ∀ a ∈ args, ∀ name, a.1 = .named name → name ∈ Named.names parameters
  given : ∀ p ∈ parameters, p.2 = none → ∃ a ∈ args, a.1 = .named p.1

theorem mem_written {args : List (String × Value)} {n : String} {v : Value} :
    (.named n, v) ∈ written args ↔ (n, v) ∈ args := by
  constructor
  · intro h
    obtain ⟨⟨m, w⟩, hmem, heq⟩ := List.mem_map.mp h
    obtain ⟨hname, rfl⟩ := Prod.mk.inj heq
    exact ArgumentForm.named.inj hname ▸ hmem
  · exact fun h => List.mem_map_of_mem h

theorem forms_written (args : List (String × Value)) :
    (written args).map Prod.fst = (Named.names args).map .named := by
  rw [written, Named.names, List.map_map, List.map_map]
  rfl

theorem nodup_forms_written (args : List (String × Value)) :
    ((written args).map Prod.fst).Nodup ↔ (Named.names args).Nodup := by
  rw [forms_written]
  exact List.nodup_map_iff fun _ _ => ArgumentForm.named.inj

theorem exists_written {args : List (ArgumentForm × Value)}
    (h : ∀ a ∈ args, ∃ name, a.1 = .named name) : ∃ named, args = written named := by
  induction args with
  | nil => exact ⟨[], rfl⟩
  | cons a rest ih =>
    obtain ⟨form, v⟩ := a
    obtain ⟨name, rfl⟩ := h _ List.mem_cons_self
    obtain ⟨later, rfl⟩ := ih fun a ha => h a (List.mem_cons_of_mem _ ha)
    exact ⟨(name, v) :: later, rfl⟩

theorem exists_value_iff {args : List (String × Value)} {name : String} :
    (∃ a ∈ written args, a.1 = .named name) ↔ name ∈ Named.names args := by
  constructor
  · rintro ⟨⟨_, v⟩, hmem, rfl⟩
    exact Named.mem_names_of_mem (mem_written.mp hmem)
  · intro h
    obtain ⟨⟨_, v⟩, hmem, rfl⟩ := List.mem_map.mp h
    exact ⟨_, mem_written.mpr hmem, rfl⟩

section

variable {parameters : List (String × Option Value)} {args : List (ArgumentForm × Value)}

theorem suit_written_iff {named : List (String × Value)} :
    Suit parameters (written named) ↔ (Named.names named).Nodup ∧
      (∀ name ∈ Named.names named, name ∈ Named.names parameters) ∧
      ∀ p ∈ parameters, p.2 = none → p.1 ∈ Named.names named := by
  constructor
  · rintro ⟨-, honce, hknown, hgiven⟩
    refine ⟨(nodup_forms_written named).mp honce, fun name hname => ?_, fun p hp hnone => ?_⟩
    · obtain ⟨a, ha, hform⟩ := exists_value_iff.mpr hname
      exact hknown a ha name hform
    · exact exists_value_iff.mp (hgiven p hp hnone)
  · rintro ⟨honce, hknown, hgiven⟩
    refine ⟨fun a ha => ?_, (nodup_forms_written named).mpr honce, fun a ha name hform => ?_,
      fun p hp hnone => exists_value_iff.mpr (hgiven p hp hnone)⟩
    · obtain ⟨⟨name, v⟩, -, rfl⟩ := List.mem_map.mp ha
      exact ⟨name, rfl⟩
    · exact hknown name (exists_value_iff.mp ⟨a, ha, hform⟩)

theorem Suit.perm {args' : List (ArgumentForm × Value)} (h : Suit parameters args)
    (hperm : args.Perm args') : Suit parameters args' where
  named a ha := h.named a (hperm.mem_iff.mpr ha)
  once := (hperm.map Prod.fst).nodup_iff.mp h.once
  known a ha := h.known a (hperm.mem_iff.mpr ha)
  given p hp hnone := by
    obtain ⟨a, ha, hform⟩ := h.given p hp hnone
    exact ⟨a, hperm.mem_iff.mp ha, hform⟩

end

end Arguments

namespace Value

variable {className : String} {parameters : List (String × Option Value)}

/-- what stands under a parameter in an object: the argument of its name, or else the default -/
def Fills (args : List (ArgumentForm × Value)) (parameter : String × Option Value)
    (field : String × Value) : Prop :=
  field.1 = parameter.1 ∧
    ((.named parameter.1, field.2) ∈ args ∨
      (∀ v, (.named parameter.1, v) ∉ args) ∧ parameter.2 = some field.2)

theorem mapM_ok_iff {α β : Type} {f : α → Except Fault β} {items : List α} {results : List β} :
    items.mapM f = .ok results ↔ List.Forall₂ (fun a b => f a = .ok b) items results := by
  induction items generalizing results with
  | nil =>
    rw [List.mapM_nil, List.forall₂_nil_left_iff]
    exact ⟨fun h => (Except.ok.inj h).symm, fun h => congrArg Except.ok h.symm⟩
  | cons a rest ih =>
    rw [List.mapM_cons, List.forall₂_cons_left_iff]
    cases ha : f a with
    | error fault =>
      constructor
      · intro h
        cases h
      · rintro ⟨b, bs, h, -⟩
        cases h
    | ok b =>
      cases hrest : rest.mapM f with
      | error fault =>
        constructor
        · intro h
          cases h
        · rintro ⟨c, cs, -, h, -⟩
          rw [← ih, hrest] at h
          cases h
      | ok bs =>
        constructor
        · intro h
          exact ⟨b, bs, rfl, ih.mp hrest, (Except.ok.inj h).symm⟩
        · rintro ⟨c, cs, hc, h, rfl⟩
          rw [← ih, hrest] at h
          obtain rfl := Except.ok.inj hc
          obtain rfl := Except.ok.inj h
          rfl

/-- the arguments of a call of a record class, as the class gets them -/
theorem parameterValue_ok_iff {args : List (String × Value)} (honce : (Named.names args).Nodup)
    {parameter : String × Option Value} {field : String × Value} :
    parameterValue className args parameter = .ok field ↔
      Fills (Arguments.written args) parameter field := by
  obtain ⟨name, preset⟩ := parameter
  obtain ⟨name', v⟩ := field
  simp only [Fills, Arguments.mem_written]
  unfold parameterValue
  cases hget : Named.get? args name with
  | some w =>
    have hmem : (name, w) ∈ args := Named.mem_of_get? hget
    have honly : (name, v) ∈ args ↔ v = w := by
      rw [← Named.get?_eq_some_iff honce, hget, Option.some.injEq, eq_comm]
    simp only [Except.ok.injEq, Prod.mk.injEq, honly]
    constructor
    · rintro ⟨rfl, rfl⟩
      exact ⟨rfl, .inl rfl⟩
    · rintro ⟨rfl, rfl | ⟨hnone, -⟩⟩
      · exact ⟨rfl, rfl⟩
      · exact absurd hmem (hnone w)
  | none =>
    have hnone : ∀ w, (name, w) ∉ args := fun w hw =>
      Named.get?_eq_none_iff.mp hget (Named.mem_names_of_mem hw)
    cases preset with
    | some w =>
      simp only [Except.ok.injEq, Prod.mk.injEq, Option.some.injEq]
      constructor
      · rintro ⟨rfl, rfl⟩
        exact ⟨rfl, .inr ⟨hnone, rfl⟩⟩
      · rintro ⟨rfl, hmem | ⟨-, rfl⟩⟩
        · exact absurd hmem (hnone v)
        · exact ⟨rfl, rfl⟩
    | none =>
      constructor
      · intro h
        cases h
      · rintro ⟨-, hmem | ⟨-, h⟩⟩
        · exact absurd hmem (hnone v)
        · cases h

theorem construct_ok_iff {args : List (String × Value)} {v : Value} :
    construct className parameters args = .ok v ↔
      (∀ name ∈ Named.names args, name ∈ Named.names parameters) ∧
        ∃ fields, v = .record className fields ∧
          parameters.mapM (parameterValue className args) = .ok fields := by
  have hknown : (Named.names args).find? (fun name => (Named.get? parameters name).isNone) = none ↔
      ∀ name ∈ Named.names args, name ∈ Named.names parameters := by
    rw [List.find?_eq_none]
    simp only [Option.isNone_iff_eq_none, Named.get?_eq_none_iff, Classical.not_not]
  unfold construct
  cases hfind : (Named.names args).find? fun name => (Named.get? parameters name).isNone with
  | some name =>
    rw [hfind] at hknown
    constructor
    · intro h
      cases h
    · rintro ⟨h, -⟩
      cases hknown.mpr h
  | none =>
    dsimp only
    cases hmap : parameters.mapM (parameterValue className args) with
    | error fault =>
      constructor
      · intro h
        cases h
      · rintro ⟨-, _, -, h⟩
        cases h
    | ok fields =>
      constructor
      · intro h
        exact ⟨hknown.mp hfind, fields, (Except.ok.inj h).symm, rfl⟩
      · rintro ⟨-, fields', rfl, h⟩
        obtain rfl := Except.ok.inj h
        rfl

/-- what goes into an object: the parameters in their order, each with its argument or default -/
theorem names_of_fills {args : List (ArgumentForm × Value)} {fields : List (String × Value)}
    (h : List.Forall₂ (Fills args) parameters fields) :
    Named.names fields = Named.names parameters := by
  induction h with
  | nil => rfl
  | cons hfield _ ih => rw [Named.names_cons, Named.names_cons, hfield.1, ih]

/-- where a parameter is neither given nor has a default nothing stands under it; else something
does -/
theorem exists_fills_iff {args : List (ArgumentForm × Value)} {parameter : String × Option Value} :
    (∃ field, Fills args parameter field) ↔
      (parameter.2 = none → ∃ a ∈ args, a.1 = .named parameter.1) := by
  obtain ⟨name, preset⟩ := parameter
  constructor
  · rintro ⟨field, -, hgiven | ⟨-, hpreset⟩⟩ hnone
    · exact ⟨_, hgiven, rfl⟩
    · cases hnone.symm.trans hpreset
  · intro h
    by_cases hgiven : ∃ v, (.named name, v) ∈ args
    · obtain ⟨v, hv⟩ := hgiven
      exact ⟨(name, v), rfl, .inl hv⟩
    · cases preset with
      | some v => exact ⟨(name, v), rfl, .inr ⟨fun w hw => hgiven ⟨w, hw⟩, rfl⟩⟩
      | none =>
        obtain ⟨⟨_, v⟩, hv, rfl⟩ := h rfl
        exact absurd ⟨v, hv⟩ hgiven

theorem exists_fields_iff {args : List (ArgumentForm × Value)} :
    (∃ fields, List.Forall₂ (Fills args) parameters fields) ↔
      ∀ p ∈ parameters, p.2 = none → ∃ a ∈ args, a.1 = .named p.1 := by
  induction parameters with
  | nil => simp
  | cons p rest ih =>
    rw [List.forall_mem_cons, ← ih, ← exists_fills_iff]
    constructor
    · rintro ⟨_, hfield | ⟨hfield, hfields⟩⟩
      exact ⟨⟨_, hfield⟩, _, hfields⟩
    · rintro ⟨⟨field, hfield⟩, fields, hfields⟩
      exact ⟨field :: fields, .cons hfield hfields⟩

/-- a call with arguments each of which has its form -/
def callWith (host : Host) (callee : Value) (args : List (ArgumentForm × Value)) :
    Except Fault Value :=
  callee.call host (args.map Prod.fst) (args.map Prod.snd)

section

variable {host : Host} {origin : Origin}

theorem callRecord_eq (args : List (ArgumentForm × Value)) :
    callWith host (.classRef origin className (some parameters)) args =
      match Arguments.onlyNamed className args [] with
      | .error fault => .error fault
      | .ok named => construct className parameters named := by
  have hzip : (args.map Prod.fst).zip (args.map Prod.snd) = args := by
    simpa only [List.unzip_eq_map] using List.zip_unzip args
  cases hargs : Arguments.onlyNamed className args [] with
  | error fault => simp only [callWith, call, hzip, hargs]
  | ok named => simp only [callWith, call, hzip, hargs]

/-- **A call of a record class goes well where the arguments suit the parameters**, and then the
object has a field for every parameter. -/
theorem callRecord_ok_iff {args : List (ArgumentForm × Value)} {v : Value} :
    callWith host (.classRef origin className (some parameters)) args = .ok v ↔
      Arguments.Suit parameters args ∧
        ∃ fields, v = .record className fields ∧ List.Forall₂ (Fills args) parameters fields := by
  rw [callRecord_eq]
  cases hargs : Arguments.onlyNamed className args [] with
  | error fault =>
    constructor
    · intro h
      cases h
    · rintro ⟨hsuit, -⟩
      obtain ⟨named, rfl⟩ := Arguments.exists_written hsuit.named
      have honce := (Arguments.nodup_forms_written named).mp hsuit.once
      cases hargs.symm.trans (Arguments.onlyNamed_nil_ok_iff.mpr ⟨rfl, honce⟩)
  | ok named =>
    obtain ⟨rfl, honce⟩ := Arguments.onlyNamed_nil_ok_iff.mp hargs
    dsimp only
    rw [construct_ok_iff, Arguments.suit_written_iff]
    simp only [mapM_ok_iff, parameterValue_ok_iff honce]
    constructor
    · rintro ⟨hknown, fields, rfl, hfields⟩
      have hgiven := exists_fields_iff.mp ⟨fields, hfields⟩
      simp only [Arguments.exists_value_iff] at hgiven
      exact ⟨⟨honce, hknown, hgiven⟩, fields, rfl, hfields⟩
    · rintro ⟨⟨-, hknown, -⟩, hfields⟩
      exact ⟨hknown, hfields⟩

/-! ## arguments that are used up -/

/-- the fields for some parameters, each of which takes its argument out of those that are left -/
def fillFrom (className : String) :
    List (String × Option Value) → List (String × Value) → Except Fault (List (String × Value))
  | [], _ => .ok []
  | (name, preset) :: rest, args =>
    match Named.swapRemove name args, preset with
    | some (v, left), _ => (fillFrom className rest left).map ((name, v) :: ·)
    | none, some v => (fillFrom className rest args).map ((name, v) :: ·)
    | none, none => .error (.missingParameter className name)

/-- construction in which a parameter takes its argument out of the list, and the last argument
that is left comes into its place -/
def constructTaking (className : String) (parameters : List (String × Option Value))
    (args : List (String × Value)) : Except Fault Value :=
  match (Named.names args).find? fun name => (Named.get? parameters name).isNone with
  | some name => .error (.unknownParameter className name)
  | none => (fillFrom className parameters args).map (.record className)

/-- parameters that are still to come find their arguments among those that are left -/
theorem fillFrom_eq {args left : List (String × Value)}
    (hparameters : (Named.names parameters).Nodup) (hleft : (Named.names left).Nodup)
    (hsame : ∀ name ∈ Named.names parameters, Named.get? left name = Named.get? args name) :
    fillFrom className parameters left = parameters.mapM (parameterValue className args) := by
  induction parameters generalizing left with
  | nil => rfl
  | cons p rest ih =>
    obtain ⟨name, preset⟩ := p
    obtain ⟨hname, hrest⟩ := List.nodup_cons.mp hparameters
    rw [Named.names_cons, List.forall_mem_cons] at hsame
    obtain ⟨hfirst, hlater⟩ := hsame
    cases hswap : Named.swapRemove name left with
    | some taken =>
      obtain ⟨v, others⟩ := taken
      have hperm := Named.swapRemove_perm hswap
      have hothers : (Named.names ((name, v) :: others)).Nodup :=
        (hperm.map Prod.fst).nodup_iff.mp hleft
      -- the others stand for what they stood for, whatever their order is now
      have hkept : ∀ other ∈ Named.names rest, Named.get? others other = Named.get? args other := by
        intro other hother
        rw [← hlater other hother, Named.get?_perm hleft hperm, Named.get?_cons, if_neg]
        rintro rfl
        exact hname hother
      have hgiven : Named.get? args name = some v := by
        rw [← hfirst, Named.get?_perm hleft hperm, Named.get?_cons, if_pos rfl]
      simp only [fillFrom, hswap, parameterValue, hgiven, List.mapM_cons]
      rw [ih hrest (List.nodup_cons.mp hothers).2 hkept]
      cases rest.mapM (parameterValue className args) <;> rfl
    | none =>
      have hgiven : Named.get? args name = none := by
        rw [← hfirst, Named.get?_eq_none_iff.mpr (Named.swapRemove_eq_none_iff.mp hswap)]
      cases preset with
      | some v =>
        simp only [fillFrom, hswap, parameterValue, hgiven, List.mapM_cons]
        rw [ih hrest hleft hlater]
        cases rest.mapM (parameterValue className args) <;> rfl
      | none =>
        simp only [fillFrom, hswap, parameterValue, hgiven, List.mapM_cons]
        rfl

theorem constructTaking_eq {args : List (String × Value)}
    (hparameters : (Named.names parameters).Nodup) (hargs : (Named.names args).Nodup) :
    constructTaking className parameters args = construct className parameters args := by
  have hfields : fillFrom className parameters args =
      parameters.mapM (parameterValue className args) :=
    fillFrom_eq hparameters hargs fun _ _ => rfl
  cases hfind : (Named.names args).find? fun name => (Named.get? parameters name).isNone with
  | some name => simp only [constructTaking, construct, hfind]
  | none => simp only [constructTaking, construct, hfind, hfields]

/-! ## the theorem -/

theorem Fills.perm {args args' : List (ArgumentForm × Value)} (hperm : args.Perm args')
    {parameter : String × Option Value} {field : String × Value}
    (h : Fills args parameter field) : Fills args' parameter field := by
  simpa only [Fills, hperm.mem_iff] using h

theorem callRecord_ok_of_perm {args args' : List (ArgumentForm × Value)} (hperm : args.Perm args')
    {v : Value}
    (h : callWith host (.classRef origin className (some parameters)) args = .ok v) :
    callWith host (.classRef origin className (some parameters)) args' = .ok v := by
  obtain ⟨hsuit, fields, rfl, hfields⟩ := callRecord_ok_iff.mp h
  exact callRecord_ok_iff.mpr
    ⟨hsuit.perm hperm, fields, rfl, hfields.imp fun _ _ => Fills.perm hperm⟩

/-- **Records are made of exactly the arguments that suit, in any order.**  A call of a record class
goes well where all arguments are named, no name comes twice, every name is a parameter and every
parameter without a default is given, and only there.  The object has the name of the class for its
type, and for its members the parameters in their order, each with its argument or else its default.
The arguments in another order make the same object, or fail as well.  And it makes no difference
that a parameter takes its argument out of the list, which changes the order of those that are left. -/
theorem call_record (hparameters : (Named.names parameters).Nodup) (host : Host) (origin : Origin) :
    (∀ args, (∃ v, callWith host (.classRef origin className (some parameters)) args = .ok v) ↔
      Arguments.Suit parameters args) ∧
    (∀ args v, callWith host (.classRef origin className (some parameters)) args = .ok v →
      ∃ fields, v = .record className fields ∧ Named.names fields = Named.names parameters ∧
        List.Forall₂ (Fills args) parameters fields) ∧
    (∀ args args', args.Perm args' → ∀ v,
      callWith host (.classRef origin className (some parameters)) args = .ok v ↔
        callWith host (.classRef origin className (some parameters)) args' = .ok v) ∧
    ∀ named, (Named.names named).Nodup →
      constructTaking className parameters named = construct className parameters named := by
  refine ⟨fun args => ⟨?_, fun hsuit => ?_⟩, fun args v h => ?_, fun args args' hperm v => ?_,
    fun named hnamed => constructTaking_eq hparameters hnamed⟩
  · rintro ⟨v, h⟩
    exact (callRecord_ok_iff.mp h).1
  · obtain ⟨fields, hfields⟩ := exists_fields_iff.mpr hsuit.given
    exact ⟨.record className fields, callRecord_ok_iff.mpr ⟨hsuit, fields, rfl, hfields⟩⟩
  · obtain ⟨-, fields, rfl, hfields⟩ := callRecord_ok_iff.mp h
    exact ⟨fields, rfl, names_of_fills hfields, hfields⟩
  · exact ⟨callRecord_ok_of_perm hperm, callRecord_ok_of_perm hperm.symm⟩

/-- a class with a parameter that has to be given and one that does not -/
def offsetParameters : List (String × Option Value) :=
  [("dx", none), ("dy", some (.float (Binary.zero false)))]

theorem call_record_offset :
    (Named.names offsetParameters).Nodup ∧
      ∀ v, callWith .none (.classRef (.bound 0) "Offset" (some offsetParameters))
          [(.named "dx", .string "left"), (.named "dy", .string "up")] = .ok v ↔
        callWith .none (.classRef (.bound 0) "Offset" (some offsetParameters))
          [(.named "dy", .string "up"), (.named "dx", .string "left")] = .ok v :=
  ⟨by decide, (call_record (by decide) .none (.bound 0)).2.2.1 _ _ (.swap _ _ _)⟩

example : callWith .none (.classRef (.bound 0) "Offset" (some offsetParameters))
    [(.named "dx", .void)] =
      .ok (.record "Offset" [("dx", .void), ("dy", .float (Binary.zero false))]) := rfl

end

end Value

end Dataflow
