import Mathlib.Data.List.Forall2
import Dataflow.Expression.Evaluate
import Dataflow.Proofs.Handover

/-!
# Numbers decide nothing

What an expression does on values without objects, functions and classes is decided by the shapes of
these values: what is a float, a string or a vector of how many items.  The numbers of the floats
decide neither whether it goes well nor which fault it ends with.

* `Value.Like`               values of one shape, whose floats may hold any numbers;
* `EndAlike`                 the same fault twice, or results that are related;
* `Value.apply_like`, `memberOf_like`, `call_like`   the operations on values of one shape;
* `Machine.step_like`        one operation on stacks of one shape, and `run_like` many of them;
* `Expression.evaluate_like` an expression in surroundings of one shape.
-/

namespace Dataflow

variable {α β : Type}

/-! ## results -/

/-- the same fault on both sides, or results that are related -/
inductive EndAlike (R : α → β → Prop) : Except Fault α → Except Fault β → Prop where
  | error (fault : Fault) : EndAlike R (.error fault) (.error fault)
  | ok {a : α} {b : β} : R a b → EndAlike R (.ok a) (.ok b)

theorem EndAlike.bind {γ δ : Type} {R : α → β → Prop} {S : γ → δ → Prop} {x : Except Fault α}
    {y : Except Fault β} {f : α → Except Fault γ} {g : β → Except Fault δ} (h : EndAlike R x y)
    (hnext : ∀ a b, R a b → EndAlike S (f a) (g b)) : EndAlike S (x >>= f) (y >>= g) := by
  cases h with
  | error fault => exact .error fault
  | ok hab => exact hnext _ _ hab

theorem forall₂_getElem? {R : α → β → Prop} {xs : List α} {ys : List β} (h : List.Forall₂ R xs ys)
    (n : Nat) : Option.Rel R xs[n]? ys[n]? := by
  induction h generalizing n with
  | nil => exact .none
  | cons hfirst _ ih =>
    cases n with
    | zero => exact .some hfirst
    | succ n =>
      rw [List.getElem?_cons_succ, List.getElem?_cons_succ]
      exact ih n

/-! ## values -/

namespace Value

/-- values of one shape: floats may hold any numbers, all else is the same, and there are no
objects, functions and classes -/
inductive Like : Value → Value → Prop where
  | void : Like .void .void
  | float (x y : Single) : Like (.float x) (.float y)
  | string (text : String) : Like (.string text) (.string text)
  | vector {items items' : List Value} :
    List.Forall₂ Like items items' → Like (.vector items) (.vector items')

variable {v v' left left' right right' : Value}

theorem Like.typeName_eq (h : v.Like v') : v.typeName = v'.typeName := by
  cases h <;> rfl

/-- floats stand at the same places -/
theorem floats?_like (h : v.Like v') :
    Option.Rel (fun xs ys => xs.length = ys.length) v.floats? v'.floats? := by
  cases h with
  | vector hitems =>
    unfold floats?
    induction hitems with
    | nil => exact .some rfl
    | @cons first first' rest rest' hfirst _ ih =>
      dsimp only at ih ⊢
      rw [List.mapM_cons, List.mapM_cons]
      generalize rest.mapM float? = xs at ih
      generalize rest'.mapM float? = ys at ih
      cases hfirst with
      | float x y =>
        cases ih with
        | none => exact .none
        | some hlength => exact .some (congrArg Nat.succ hlength)
      | _ => exact .none
  | _ => exact .none

theorem floatElements_like (sign : Sign) (h : v.Like v') :
    EndAlike (fun xs ys => xs.length = ys.length) (floatElements sign v)
      (floatElements sign v') := by
  have hfloats := floats?_like h
  unfold floatElements
  generalize v.floats? = xs at hfloats
  generalize v'.floats? = ys at hfloats
  cases hfloats with
  | none => exact .error _
  | some hlength => exact .ok hlength

theorem ofFloats_like {xs ys : List Single} (h : xs.length = ys.length) :
    (ofFloats xs).Like (ofFloats ys) := by
  refine .vector ?_
  induction xs generalizing ys with
  | nil =>
    obtain rfl := List.eq_nil_of_length_eq_zero h.symm
    exact .nil
  | cons x xs ih =>
    obtain ⟨y, ys, rfl⟩ := List.exists_cons_of_length_eq_add_one h.symm
    exact .cons (.float x y) (ih (Nat.succ.inj h))

/-- a vector of floats made of the floats of another one -/
theorem scaled_like {sign : Sign} {f g : Single → Single} (h : v.Like v') :
    EndAlike Like (floatElements sign v >>= fun xs => pure (ofFloats (xs.map f)))
      (floatElements sign v' >>= fun xs => pure (ofFloats (xs.map g))) := by
  refine (floatElements_like sign h).bind fun xs ys hlength => .ok (ofFloats_like ?_)
  rw [List.length_map, List.length_map, hlength]

/-- the lengths are compared before the elements are looked at -/
theorem zipped_like {sign : Sign} {f g : Single → Single → Single} {a a' b b' : List Value}
    (ha : List.Forall₂ Like a a') (hb : List.Forall₂ Like b b') :
    EndAlike Like
      (do
        if a.length ≠ b.length then throw (.vectorLengthMismatch a.length b.length)
        let xs ← floatElements sign (.vector a)
        let ys ← floatElements sign (.vector b)
        return ofFloats (List.zipWith f xs ys))
      (do
        if a'.length ≠ b'.length then throw (.vectorLengthMismatch a'.length b'.length)
        let xs ← floatElements sign (.vector a')
        let ys ← floatElements sign (.vector b')
        return ofFloats (List.zipWith g xs ys)) := by
  rw [ha.length_eq, hb.length_eq]
  split
  · exact .error _
  · refine (floatElements_like sign (.vector ha)).bind fun xs xs' hxs => ?_
    refine (floatElements_like sign (.vector hb)).bind fun ys ys' hys => .ok (ofFloats_like ?_)
    rw [List.length_zipWith, List.length_zipWith, hxs, hys]

/-- arithmetic looks at the shapes only; a quotient by zero is a float like any other -/
theorem apply_like (sign : Sign) (hleft : left.Like left') (hright : right.Like right') :
    EndAlike Like (apply sign left right) (apply sign left' right') := by
  cases hleft with
  | float x x' =>
    cases hright with
    | float y y' => exact .ok (.float _ _)
    | vector hb =>
      cases sign with
      | times => exact scaled_like (.vector hb)
      | _ => exact .error _
    | _ => cases sign <;> exact .error _
  | vector ha =>
    cases hright with
    | float y y' =>
      cases sign with
      | plus | minus => exact .error _
      | _ => exact scaled_like (.vector ha)
    | vector hb =>
      cases sign with
      | plus | minus => exact zipped_like ha hb
      | _ => exact .error _
    | _ => cases sign <;> exact .error _
  | _ => cases hright <;> cases sign <;> exact .error _

/-- a vector is a point by its shape -/
theorem point?_like (h : v.Like v') : Option.Rel (fun _ _ => True) v.point? v'.point? := by
  cases h with
  | vector hitems =>
    cases hitems with
    | nil => exact .none
    | cons hx hrest =>
      cases hrest with
      | nil => cases hx <;> exact .none
      | cons hy hrest =>
        cases hx with
        | float x x' =>
          cases hy with
          | float y y' =>
            cases hrest with
            | nil => exact .some trivial
            | cons _ _ => exact .none
          | _ => exact .none
        | _ => exact .none
  | _ => exact .none

theorem coordinate?_like (h : v.Like v') (name : String) :
    Option.Rel Like (v.coordinate? name) (v'.coordinate? name) := by
  have hpoint := point?_like h
  unfold coordinate?
  generalize v.point? = p at hpoint
  generalize v'.point? = q at hpoint
  cases hpoint with
  | none => exact .none
  | some _ =>
    dsimp only
    split
    · exact .some (.float _ _)
    · split
      · exact .some (.float _ _)
      · exact .none

theorem memberOf_like {origin origin' : Origin} (h : v.Like v') (name : String) :
    EndAlike Like (v.memberOf origin name) (v'.memberOf origin' name) := by
  have hcoordinate := coordinate?_like h name
  have hnone : v.member? origin name = none ∧ v'.member? origin' name = none := by
    cases h <;> exact ⟨rfl, rfl⟩
  unfold memberOf
  rw [hnone.1, hnone.2, h.typeName_eq]
  generalize v.coordinate? name = found at hcoordinate
  generalize v'.coordinate? name = found' at hcoordinate
  cases hcoordinate with
  | none => exact .error _
  | some hfound => exact .ok hfound

/-- nothing of such a shape can be called -/
theorem call_like {host host' : Host} (h : v.Like v') (forms : List ArgumentForm)
    (values values' : List Value) :
    EndAlike Like (v.call host forms values) (v'.call host' forms values') := by
  cases h <;> exact .error _

end Value

/-! ## inputs and names -/

/-- feeds that hold values of one shape and stand at the same input -/
structure Feed.Like (feed feed' : Feed) : Prop where
  values : List.Forall₂ Value.Like feed.values.toList feed'.values.toList
  next : feed.next = feed'.next

namespace Feed

variable {feed feed' : Feed}

theorem Like.ofList {values values' : List Value} (h : List.Forall₂ Value.Like values values') :
    (ofList values).Like (ofList values') :=
  ⟨h, rfl⟩

theorem Like.remaining_eq (h : feed.Like feed') : feed.remaining = feed'.remaining := by
  have hsize : feed.values.size = feed'.values.size := h.values.length_eq
  rw [remaining, remaining, hsize, h.next]

theorem Like.take (h : feed.Like feed') :
    Option.Rel (fun taken taken' => taken.1.Like taken'.1 ∧ taken.2.Like taken'.2)
      feed.take feed'.take := by
  have hvalue := forall₂_getElem? h.values feed.next
  unfold Feed.take
  rw [Array.getElem?_toList, Array.getElem?_toList] at hvalue
  rw [← h.next]
  generalize feed.values[feed.next]? = found at hvalue
  generalize feed'.values[feed.next]? = found' at hvalue
  cases hvalue with
  | none => exact .none
  | some hfound => exact .some ⟨hfound, h.values, rfl⟩

end Feed

/-- environments in which the same names stand for values of one shape -/
def Environment.Like (env env' : Environment) : Prop :=
  ∀ name, Option.Rel Value.Like (env.get? name) (env'.get? name)

theorem Environment.Like.empty : Environment.empty.Like Environment.empty := fun _ => .none

theorem Environment.Like.bind {env env' : Environment} (h : env.Like env') (name : String)
    {v v' : Value} (hv : v.Like v') : (env.bind name v).Like (env'.bind name v') := by
  intro other
  by_cases hname : name = other
  · rw [← hname, get?_bind_self, get?_bind_self]
    exact .some hv
  · rw [get?_bind_of_ne hname, get?_bind_of_ne hname]
    exact h other

structure Scope.Like (scope scope' : Scope) : Prop where
  name : scope.name = scope'.name
  value : scope.value.Like scope'.value
  parent : scope.parent = scope'.parent

/-- scopes that were opened by the same assignments of values of one shape -/
def Scopes.Like (scopes scopes' : Scopes) : Prop :=
  List.Forall₂ Scope.Like scopes.all.toList scopes'.all.toList

namespace Scopes

variable {scopes scopes' : Scopes} {env env' : Environment}

theorem Like.size_eq (h : scopes.Like scopes') : scopes.size = scopes'.size := h.length_eq

theorem Like.get? (h : scopes.Like scopes') (id : Nat) :
    Option.Rel Scope.Like (scopes.get? id) (scopes'.get? id) := by
  have hscope := forall₂_getElem? h id
  rwa [Array.getElem?_toList, Array.getElem?_toList] at hscope

theorem Like.find? (h : scopes.Like scopes') (henv : env.Like env') (start : Option Nat)
    (name : String) :
    Option.Rel Value.Like (scopes.find? env start name) (scopes'.find? env' start name) := by
  rw [Scopes.find?, Scopes.find?, h.size_eq]
  generalize scopes'.size = steps
  induction steps generalizing start with
  | zero =>
    cases start with
    | none => exact henv name
    | some id => exact .none
  | succ steps ih =>
    cases start with
    | none => exact henv name
    | some id =>
      have hscope := h.get? id
      unfold findWithin
      generalize scopes.get? id = found at hscope
      generalize scopes'.get? id = found' at hscope
      cases hscope with
      | none => exact .none
      | some hlike =>
        dsimp only
        rw [hlike.name, hlike.parent]
        split
        · exact .some hlike.value
        · exact ih _

end Scopes

/-! ## operations -/

/-- stacks of one height with values of one shape, whose feeds are alike as well -/
structure Stack.Like (s s' : Stack) : Prop where
  values : List.Forall₂ Value.Like s.values s'.values
  feed : s.feed.Like s'.feed

namespace Stack

variable {s s' : Stack}

theorem Like.start {feed feed' : Feed} (h : feed.Like feed') :
    (Stack.start feed).Like (Stack.start feed') :=
  ⟨.nil, h⟩

theorem Like.top (h : s.Like s') : s.top.Like s'.top := by
  obtain ⟨values, feed, accesses⟩ := s
  obtain ⟨values', feed', accesses'⟩ := s'
  cases h.values with
  | nil => exact .void
  | cons hfirst _ => exact hfirst

theorem Like.push (h : s.Like s') {v v' : Value} (hv : v.Like v') : (s.push v).Like (s'.push v') :=
  ⟨.cons hv h.values, h.feed⟩

theorem Like.drop (h : s.Like s') (n : Nat) : (s.drop n).Like (s'.drop n) :=
  ⟨List.forall₂_drop n h.values, h.feed⟩

theorem Like.topMost (h : s.Like s') (n : Nat) :
    List.Forall₂ Value.Like (s.topMost n) (s'.topMost n) :=
  List.rel_reverse (List.forall₂_take n h.values)

end Stack

namespace Machine

/-- the same answer, and stacks that are alike -/
structure Alike (out out' : Except Fault Unit × Stack) : Prop where
  answer : out.1 = out'.1
  stack : out.2.Like out'.2

/-- a run that ends by itself ends alike -/
theorem Alike.replay {m m' : Machine Stack} {ops : List Op} {s s' : Stack}
    (h : Alike (m.run ops s) (m'.run ops s')) (ending : Except Fault Unit) :
    Alike (m.replay ops ending s) (m'.replay ops ending s') := by
  unfold Machine.replay
  generalize m.run ops s = out at h
  generalize m'.run ops s' = out' at h
  obtain ⟨answer, s⟩ := out
  obtain ⟨answer', s'⟩ := out'
  obtain ⟨hanswer, hstack⟩ := h
  obtain rfl : answer = answer' := hanswer
  cases answer with
  | ok _ => exact ⟨rfl, hstack⟩
  | error fault => exact ⟨rfl, hstack⟩

theorem leave_like {s s' : Stack} {result result' : Except Fault Value} (hs : s.Like s')
    (h : EndAlike Value.Like result result') : Alike (leave s result) (leave s' result') := by
  cases h with
  | error fault => exact ⟨rfl, hs⟩
  | ok hv => exact ⟨rfl, hs.push hv⟩

section

variable {root root' : Root} {scopes scopes' : Scopes}

/-- **An operation makes of stacks that are alike stacks that are alike**, and answers alike. -/
theorem step_like (henv : root.environment.Like root'.environment) (hscopes : scopes.Like scopes')
    (scope : Option Nat) (site site' : Site) (op : Op) {s s' : Stack} (hs : s.Like s') :
    Alike ((evaluating root scopes scope site).step op s)
      ((evaluating root' scopes' scope site').step op s') := by
  cases op with
  | number digits => exact leave_like hs (.ok (.float _ _))
  | string text => exact leave_like hs (.ok (.string text))
  | input =>
    have htake := hs.feed.take
    simp only [evaluating]
    generalize s.feed.take = taken at htake
    generalize s'.feed.take = taken' at htake
    cases htake with
    | none => exact ⟨rfl, hs⟩
    | some h => exact leave_like ⟨hs.values, h.2⟩ (.ok h.1)
  | name name =>
    have hfind := hscopes.find? henv scope name
    simp only [evaluating]
    generalize scopes.find? root.environment scope name = found at hfind
    generalize scopes'.find? root'.environment scope name = found' at hfind
    cases hfind with
    | none => exact ⟨rfl, hs⟩
    | some h => exact leave_like hs (.ok h)
  | vector length => exact leave_like (hs.drop length) (.ok (.vector (hs.topMost length)))
  | member name =>
    have hbelow : (s.drop 1).Like (s'.drop 1) := hs.drop 1
    exact leave_like ⟨hbelow.values, hbelow.feed⟩ (Value.memberOf_like hs.top name)
  | call forms =>
    have hbelow : (s.drop forms.length).Like (s'.drop forms.length) := hs.drop forms.length
    exact leave_like (hbelow.drop 1) (Value.call_like hbelow.top forms _ _)
  | binary sign =>
    exact leave_like (hs.drop 2) (Value.apply_like sign (hs.drop 1).top hs.top)

theorem run_like (henv : root.environment.Like root'.environment) (hscopes : scopes.Like scopes')
    (scope : Option Nat) (site site' : Site) (ops : List Op) {s s' : Stack} (hs : s.Like s') :
    Alike ((evaluating root scopes scope site).run ops s)
      ((evaluating root' scopes' scope site').run ops s') := by
  induction ops generalizing s s' with
  | nil => exact ⟨rfl, hs⟩
  | cons op ops ih =>
    obtain ⟨hanswer, hstack⟩ := step_like henv hscopes scope site site' op hs
    cases hstep : (evaluating root scopes scope site).step op s with
    | mk answer after =>
      cases hstep' : (evaluating root' scopes' scope site').step op s' with
      | mk answer' after' =>
        rw [hstep, hstep'] at hanswer hstack
        obtain rfl : answer = answer' := hanswer
        cases answer with
        | ok _ =>
          rw [run_cons_of_ok hstep, run_cons_of_ok hstep']
          exact ih hstack
        | error fault =>
          rw [run_cons_of_error hstep, run_cons_of_error hstep']
          exact ⟨rfl, hstack⟩

end

end Machine

/-! ## the theorem -/

namespace Expression

/-- **Numbers decide nothing.**  Let two environments bind the same names to values of one shape,
and two feeds hold values of one shape; there are no objects, functions and classes among them, and
the floats may be any, zeros, infinities and NaN included.  Then a text ends with the same fault
under both, or under both with values of one shape, and leaves as many inputs. -/
theorem evaluate_like {root root' : Root} {scopes scopes' : Scopes} {feed feed' : Feed}
    (henv : root.environment.Like root'.environment) (hscopes : scopes.Like scopes')
    (hfeed : feed.Like feed') (scope : Option Nat) (site site' : Site) (text : String) :
    let one := evaluate root scopes scope site text feed
    let other := evaluate root' scopes' scope site' text feed'
    EndAlike Value.Like one.1 other.1 ∧ one.2.remaining = other.2.remaining := by
  intro one other
  obtain ⟨ending, hdrive⟩ := drive_eq_replay text
  have hrun := Machine.run_like henv hscopes scope site site' (operations text) (.start hfeed)
  have hends : Machine.Alike (drive (.evaluating root scopes scope site) text (.start feed))
      (drive (.evaluating root' scopes' scope site') text (.start feed')) := by
    rw [hdrive, hdrive]
    exact hrun.replay ending
  show EndAlike Value.Like (evaluate ..).1 (evaluate ..).1 ∧
    (evaluate ..).2.remaining = (evaluate ..).2.remaining
  unfold evaluate
  generalize drive (.evaluating root scopes scope site) text _ = out at hends
  generalize drive (.evaluating root' scopes' scope site') text _ = out' at hends
  obtain ⟨answer, s⟩ := out
  obtain ⟨answer', s'⟩ := out'
  obtain ⟨hanswer, hstack⟩ := hends
  obtain rfl : answer = answer' := hanswer
  cases answer with
  | ok _ => exact ⟨.ok hstack.top, hstack.feed.remaining_eq⟩
  | error fault => exact ⟨.error fault, hstack.feed.remaining_eq⟩

/-- numbers that have a quotient, and numbers that have none -/
theorem evaluate_like_quotient :
    let env (x : Single) := Environment.empty.bind "a" (.float x)
    let feed (x y : Single) := Feed.ofList [.point x y]
    let zero : Single := Binary.zero false
    let one : Single := Binary.ofDigits ['1']
    (env one).Like (env .nan) ∧ (feed one one).Like (feed zero .nan) ∧
    EndAlike Value.Like
      (evaluate ⟨env one, .none⟩ .empty none ⟨0, 0, 0⟩ "[a, 2] / $.x" (feed one one)).1
      (evaluate ⟨env .nan, .none⟩ .empty none ⟨0, 0, 0⟩ "[a, 2] / $.x" (feed zero .nan)).1 := by
  intro env feed zero one
  have henv : (env one).Like (env .nan) := Environment.Like.empty.bind "a" (.float one .nan)
  have hfeed : (feed one one).Like (feed zero .nan) :=
    .ofList (.cons (.vector (.cons (.float one zero) (.cons (.float one .nan) .nil))) .nil)
  have hscopes : Scopes.empty.Like .empty := List.Forall₂.nil
  exact ⟨henv, hfeed, (evaluate_like henv hscopes hfeed none ⟨0, 0, 0⟩ ⟨0, 0, 0⟩ "[a, 2] / $.x").1⟩

end Expression

end Dataflow
