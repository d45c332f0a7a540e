import Dataflow.Proofs.Lexical

/-!
# Where chains of scopes end

The number of a scope is a plain index.  It outlives a clear, and may then be the number of a scope
that is opened later.

* `Scopes.Ends`            following parents from a scope, up to the host's bindings or to a scope
                           that does not exist;
* `Scopes.Ordered.ends`    so it goes where every parent is an earlier scope;
* `Scopes.Closed`          scopes whose parents are among them: no chain and no search comes to an
                           end there;
* `Arena`, `Arena.Call`    the calls that open scopes and drop them all, and the numbers that they
                           have given out;
* `Arena.Issued`, `Current`   every parent was given out before, or is the number of a scope that is
                           there;
* `Arena.ordered_run_iff`  the row is ordered just if the calls since the last clear were current;
* `Arena.run_ends`         then every chain ends, and every search.
-/

namespace Dataflow

namespace Scopes

variable {scopes : Scopes} {start : Option Nat}

/-! ## chains -/

/-- following parents ends after so many steps -/
inductive Ends (scopes : Scopes) : Option Nat → Nat → Prop
  | host : Ends scopes none 0
  | missing {id : Nat} (h : scopes.get? id = none) : Ends scopes (some id) 0
  | outward {id steps : Nat} {scope : Scope} (h : scopes.get? id = some scope)
    (hrest : Ends scopes scope.parent steps) : Ends scopes (some id) (steps + 1)

/-- from a scope there are no more steps than scopes up to it -/
theorem Ordered.ends_within (h : scopes.Ordered) (id : Nat) :
    ∃ steps ≤ id + 1, scopes.Ends (some id) steps := by
  -- on the scope: its parent is an earlier one
  induction id using Nat.strongRecOn with
  | ind id ih =>
    cases hscope : scopes.get? id with
    | none => exact ⟨0, Nat.zero_le _, .missing hscope⟩
    | some scope =>
      cases hparent : scope.parent with
      | none => exact ⟨1, by omega, .outward hscope (hparent ▸ .host)⟩
      | some parent =>
        have hlt : parent < id := h id scope parent hscope hparent
        obtain ⟨steps, hsteps, hends⟩ := ih parent hlt
        exact ⟨steps + 1, by omega, .outward hscope (hparent ▸ hends)⟩

/-- every chain ends, from whichever scope it starts -/
theorem Ordered.ends (h : scopes.Ordered) (start : Option Nat) :
    ∃ steps ≤ scopes.size, scopes.Ends start steps := by
  cases start with
  | none => exact ⟨0, Nat.zero_le _, .host⟩
  | some id =>
    by_cases hid : id < scopes.size
    · obtain ⟨steps, hsteps, hends⟩ := h.ends_within id
      exact ⟨steps, by omega, hends⟩
    · exact ⟨0, Nat.zero_le _, .missing (Array.getElem?_eq_none (Nat.le_of_not_lt hid))⟩

/-- there are these scopes, and the parent of each is one of them -/
def Closed (scopes : Scopes) (ids : List Nat) : Prop :=
  ∀ id ∈ ids, ∃ scope parent, scopes.get? id = some scope ∧ scope.parent = some parent ∧
    parent ∈ ids

theorem Closed.not_ends {ids : List Nat} (h : scopes.Closed ids) {id : Nat} (hid : id ∈ ids)
    (steps : Nat) : ¬ scopes.Ends (some id) steps := by
  induction steps generalizing id with
  | zero =>
    rintro (_ | hnone)
    obtain ⟨scope, _, hscope, -⟩ := h id hid
    rw [hscope] at hnone
    cases hnone
  | succ steps ih =>
    rintro (_ | _ | ⟨hscope', hrest⟩)
    obtain ⟨scope, parent, hscope, hparent, hmem⟩ := h id hid
    rw [hscope] at hscope'
    obtain rfl := Option.some.inj hscope'
    exact ih hmem (hparent ▸ hrest)

/-- a search for a name that none of these scopes binds does not end -/
theorem Closed.not_finds {ids : List Nat} (h : scopes.Closed ids) {env : Environment}
    {name : String}
    (hname : ∀ id ∈ ids, ∀ scope, scopes.get? id = some scope → scope.name ≠ name)
    {answer : Option Value} (hfinds : scopes.Finds env name start answer) :
    ∀ id ∈ ids, start ≠ some id := by
  induction hfinds with
  | host => exact fun _ _ => nofun
  | missing hnone =>
    intro id hid heq
    obtain ⟨scope, _, hscope, -⟩ := h id hid
    rw [← Option.some.inj heq, hnone] at hscope
    cases hscope
  | here hscope hbound =>
    intro id hid heq
    obtain rfl := Option.some.inj heq
    exact hname _ hid _ hscope hbound
  | outward hscope' _ _ ih =>
    intro id hid heq
    obtain rfl := Option.some.inj heq
    obtain ⟨scope, parent, hscope, hparent, hmem⟩ := h _ hid
    rw [hscope] at hscope'
    obtain rfl := Option.some.inj hscope'
    exact ih parent hmem hparent

/-! ## one scope more -/

theorem ordered_empty : empty.Ordered := nofun

/-- a scope keeps the order just if the one around it is there -/
theorem ordered_push_iff {scope : Scope} :
    (scopes.push scope).Ordered ↔
      scopes.Ordered ∧ ∀ parent ∈ scope.parent, parent < scopes.size := by
  have hold : ∀ id < scopes.size, (scopes.push scope).get? id = scopes.get? id := fun id hid =>
    Array.getElem?_push_lt hid |>.trans (Array.getElem?_eq_getElem hid).symm
  constructor
  · intro h
    refine ⟨fun id outer parent houter hparent => ?_, fun parent hparent => ?_⟩
    · have hid : id < scopes.size := (Array.getElem?_eq_some_iff.mp houter).1
      exact h id outer parent ((hold id hid).trans houter) hparent
    · exact h scopes.size scope parent (get?_push_size scopes scope) hparent
  · rintro ⟨h, hscope⟩ id outer parent houter hparent
    have hid : id < (scopes.push scope).size := (Array.getElem?_eq_some_iff.mp houter).1
    rw [size_push] at hid
    rcases Nat.lt_succ_iff_lt_or_eq.mp hid with hid | rfl
    · exact h id outer parent ((hold id hid).symm.trans houter) hparent
    · obtain rfl := Option.some.inj ((get?_push_size scopes scope).symm.trans houter)
      exact hscope parent hparent

end Scopes

/-! ## calls -/

/-- a row of scopes, with the numbers that it has given out -/
structure Arena where
  scopes : Scopes
  /-- the latest first, those from before a clear as well -/
  issued : List Nat

namespace Arena

/-- a call that opens a scope, or one that drops all scopes -/
inductive Call where
  | push (scope : Scope)
  | clear

def Call.isClear : Call → Bool
  | .push _ => false
  | .clear => true

/-- the scope in which a call opens one -/
def Call.parent? : Call → Option Nat
  | .push scope => scope.parent
  | .clear => none

variable {a : Arena} {calls : List Call}

def empty : Arena := ⟨.empty, []⟩

def call (a : Arena) : Call → Arena
  | .push scope => ⟨a.scopes.push scope, a.scopes.size :: a.issued⟩
  | .clear => ⟨.empty, a.issued⟩

def run (a : Arena) (calls : List Call) : Arena := calls.foldl call a

/-- every parent was given out before, maybe before a clear -/
def Issued : Arena → List Call → Prop
  | _, [] => True
  | a, c :: rest => (∀ parent ∈ c.parent?, parent ∈ a.issued) ∧ Issued (a.call c) rest

/-- every parent is a scope that is there, but for scopes that a later call drops -/
def Current : Arena → List Call → Prop
  | _, [] => True
  | a, c :: rest =>
    (rest.any Call.isClear = false → ∀ parent ∈ c.parent?, parent < a.scopes.size) ∧
      Current (a.call c) rest

/-- where nothing is dropped, what was given out is there, so it is enough to open scopes in those
that were opened before -/
theorem Issued.current (h : a.Issued calls) (hclear : calls.any Call.isClear = false)
    (ha : ∀ id ∈ a.issued, id < a.scopes.size) : a.Current calls := by
  induction calls generalizing a with
  | nil => trivial
  | cons c rest ih =>
    obtain ⟨hparent, hrest⟩ := h
    cases c with
    | clear => cases hclear
    | push scope =>
      refine ⟨fun _ parent hp => ha parent (hparent parent hp), ih hrest hclear ?_⟩
      show ∀ id ∈ a.scopes.size :: a.issued, id < (a.scopes.push scope).size
      rw [Scopes.size_push]
      exact List.forall_mem_cons.mpr ⟨by omega, fun id hid => Nat.lt_succ_of_lt (ha id hid)⟩

/-- every parent is an earlier scope just if those that stay were opened in scopes that were there -/
theorem ordered_run_iff :
    (a.run calls).scopes.Ordered ↔
      (calls.any Call.isClear = false → a.scopes.Ordered) ∧ a.Current calls := by
  -- on the calls: a clear leaves nothing of the row before it
  induction calls generalizing a with
  | nil => exact ⟨fun h => ⟨fun _ => h, trivial⟩, fun h => h.1 rfl⟩
  | cons c rest ih =>
    have hrun : a.run (c :: rest) = (a.call c).run rest := rfl
    rw [hrun, ih, List.any_cons, Current]
    cases c with
    | clear => simp [Call.isClear, Call.parent?, call, Scopes.ordered_empty]
    | push scope =>
      have hpush : (a.call (.push scope)).scopes.Ordered ↔
          a.scopes.Ordered ∧ ∀ parent ∈ scope.parent, parent < a.scopes.size :=
        Scopes.ordered_push_iff
      rw [hpush, Call.isClear, Bool.false_or, imp_and, and_assoc]
      exact Iff.rfl

/-- **Chains of scopes end** if, of the scopes that stay, each was opened in the host's bindings or
in a scope that was there, whether its number was given out before a clear or after it.  Then every
parent is an earlier scope; from wherever one starts, there are at most as many steps outwards as
there are scopes; and every search for a name ends. -/
theorem run_ends (h : Arena.empty.Current calls) :
    let scopes := (Arena.empty.run calls).scopes
    scopes.Ordered ∧ (∀ start, ∃ steps ≤ scopes.size, scopes.Ends start steps) ∧
      ∀ env start name, scopes.Finds env name start (scopes.find? env start name) := by
  intro scopes
  have hordered : scopes.Ordered := ordered_run_iff.mpr ⟨fun _ => Scopes.ordered_empty, h⟩
  exact ⟨hordered, hordered.ends, hordered.finds⟩

/-- a number from before a clear that has been given out again -/
theorem run_ends_again :
    let calls : List Call := [.push ⟨"a", .void, none⟩, .push ⟨"b", .void, some 0⟩, .clear,
      .push ⟨"c", .string "held", none⟩, .push ⟨"d", .void, some 0⟩]
    let scopes := (Arena.empty.run calls).scopes
    Arena.empty.Issued calls ∧ Arena.empty.Current calls ∧ scopes.Ordered ∧
      (∃ steps ≤ 2, scopes.Ends (some 1) steps) ∧
      ∀ env, scopes.Finds env "c" (some 1) (some (.string "held")) := by
  intro calls scopes
  have hissued : Arena.empty.Issued calls :=
    ⟨by decide, by decide, by decide, by decide, by decide, trivial⟩
  have hcurrent : Arena.empty.Current calls :=
    ⟨by decide, by decide, by decide, by decide, by decide, trivial⟩
  obtain ⟨hordered, hends, hfinds⟩ := run_ends hcurrent
  exact ⟨hissued, hcurrent, hordered, hends (some 1), fun env => hfinds env (some 1) "c"⟩

/-- a number from before a clear that has not been given out again: two scopes become the parents of
each other -/
theorem run_endless :
    let calls : List Call := [.push ⟨"a", .void, none⟩, .push ⟨"b", .void, none⟩, .clear,
      .push ⟨"c", .void, some 1⟩, .push ⟨"d", .void, some 0⟩]
    let scopes := (Arena.empty.run calls).scopes
    Arena.empty.Issued calls ∧ ¬ scopes.Ordered ∧ (∀ steps, ¬ scopes.Ends (some 0) steps) ∧
      ∀ env answer, ¬ scopes.Finds env "e" (some 0) answer := by
  intro calls scopes
  have hissued : Arena.empty.Issued calls :=
    ⟨by decide, by decide, by decide, by decide, by decide, trivial⟩
  have hall : ∀ id ∈ [0, 1], ∃ scope parent, scopes.get? id = some scope ∧
      scope.parent = some parent ∧ parent ∈ [0, 1] ∧ scope.name ≠ "e" := by
    simp only [List.forall_mem_cons]
    exact ⟨⟨⟨"c", .void, some 1⟩, 1, rfl, rfl, by decide, by decide⟩,
      ⟨⟨"d", .void, some 0⟩, 0, rfl, rfl, by decide, by decide⟩, nofun⟩
  have hclosed : scopes.Closed [0, 1] := fun id hid => by
    obtain ⟨scope, parent, hscope, hparent, hmem, -⟩ := hall id hid
    exact ⟨scope, parent, hscope, hparent, hmem⟩
  have hname : ∀ id ∈ [0, 1], ∀ scope, scopes.get? id = some scope → scope.name ≠ "e" := by
    intro id hid scope hscope
    obtain ⟨other, -, hother, -, -, hne⟩ := hall id hid
    exact Option.some.inj (hother.symm.trans hscope) ▸ hne
  have hmem : 0 ∈ [0, 1] := List.mem_cons_self
  refine ⟨hissued, fun hordered => ?_, hclosed.not_ends hmem, fun env answer hfinds => ?_⟩
  · exact absurd (hordered 0 _ 1 rfl rfl) (by decide)
  · exact hclosed.not_finds hname hfinds 0 hmem rfl

end Arena

end Dataflow
