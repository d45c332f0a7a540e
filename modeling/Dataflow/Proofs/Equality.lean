import Mathlib.Data.List.Forall2
import Dataflow.Value.Member
import Dataflow.Value.Same

/-!
# Equality of values is an equality, but for NaN

* `Value.members_induction`   an induction in which an object comes after its members;
* `Value.same_objects`        objects are equal when their types and their members are, wherever the
                              members are taken;
* `Value.numbers`             the numbers that a value holds;
* `Value.same_equality`       equality is symmetric and transitive, and only a NaN differs from its
                              copy.

A record and a body are compared by different definitions, and a record called `Body` may equal a
body.  Seen through their members all objects are compared alike, so the laws are shown of the
members and not of the four pairs of records and bodies.
-/

namespace Dataflow

/-! ## numbers -/

namespace Binary

variable {f : Format} {x y z : Binary f}

theorem same_trans (hxy : x.same y = true) (hyz : y.same z = true) : x.same z = true := by
  cases x with
  | nan => cases hxy
  | signed s a _ =>
    cases y with
    | nan => cases hxy
    | signed t b _ =>
      cases z with
      | nan => cases hyz
      | signed u c _ =>
        simp only [same, Bool.and_eq_true, Bool.or_eq_true, beq_iff_eq] at hxy hyz ⊢
        obtain ⟨rfl, hst⟩ := hxy
        obtain ⟨rfl, htu⟩ := hyz
        refine ⟨rfl, ?_⟩
        rcases hst with rfl | hzero
        · exact htu
        · exact .inr hzero

theorem same_self_iff : x.same x = true ↔ x ≠ .nan := by
  constructor
  · rintro h rfl
    cases h
  · exact same_self

end Binary

namespace Value

/-! ## objects and their members -/

def isObject : Value → Bool
  | .record .. | .body _ => true
  | _ => false

section

variable {P : Value → Prop} (void : P .void) (float : ∀ x, P (.float x))
  (string : ∀ text, P (.string text)) (vector : ∀ items, (∀ v ∈ items, P v) → P (.vector items))
  (function : ∀ f, P (.function f))
  (classRef : ∀ origin name parameters, P (.classRef origin name parameters))
  (object : ∀ v, v.isObject = true →
    (∀ origin, ∀ member ∈ v.members origin, P member.2) → P v)

include float vector function object in
/-- the members of a body are a point, a number and two functions -/
theorem body_induction (b : Body) : P (.body b) := by
  refine object (.body b) rfl fun origin member hmember => ?_
  simp only [members, Body.members, List.mem_cons, List.not_mem_nil, or_false] at hmember
  rcases hmember with rfl | rfl | rfl | rfl
  · refine vector _ fun v hv => ?_
    rcases List.mem_pair.mp hv with rfl | rfl
    · exact float b.x
    · exact float b.y
  · exact float b.rotation
  · exact function _
  · exact function _

include void float string vector function classRef object in
/-- a property of all values, by what they are made of: a vector comes after its items, and an
object after its members -/
theorem members_induction : ∀ v, P v
  | .void => void
  | .float x => float x
  | .string text => string text
  | .vector items => vector items fun v _ => members_induction v
  | .record typeName fields =>
    object (.record typeName fields) rfl fun _ (_, v) _ => members_induction v
  | .body b => body_induction float vector function object b
  | .function f => function f
  | .classRef origin name parameters => classRef origin name parameters
termination_by v => sizeOf v
decreasing_by
  · next hv =>
    have hlt := List.sizeOf_lt_of_mem hv
    simp only [Value.vector.sizeOf_spec]
    omega
  · next hfield =>
    have hlt : _ < sizeOf fields := List.sizeOf_lt_of_mem hfield
    simp only [Value.record.sizeOf_spec, Prod.mk.sizeOf_spec] at hlt ⊢
    omega

end

/-- the members of two objects under a name: functions come to be anew at every access, so two of
them count as equal -/
def sameMember (v w : Value) : Bool := v.isFunction && w.isFunction || v.same w

/-- fields with one name and equal members -/
def SameField (p q : String × Value) : Prop := p.1 = q.1 ∧ sameMember p.2 q.2 = true

theorem sameItems_iff {a b : List Value} :
    sameItems a b = true ↔ List.Forall₂ (fun v w => v.same w = true) a b := by
  induction a generalizing b with
  | nil => cases b <;> simp [sameItems]
  | cons v rest ih => cases b <;> simp [sameItems, ih]

theorem sameFields_iff {a b : List (String × Value)} :
    sameFields a b = true ↔ List.Forall₂ SameField a b := by
  induction a generalizing b with
  | nil => cases b <;> simp [sameFields]
  | cons p rest ih =>
    cases b with
    | nil => simp [sameFields]
    | cons q rest' =>
      rw [List.forall₂_cons, ← ih, SameField, sameMember]
      simp [sameFields]

theorem same_float_iff {v : Value} {x : Single} :
    v.same (.float x) = true ↔ ∃ y, v = .float y ∧ y.same x = true := by
  constructor
  · intro h
    cases v with
    | float y => exact ⟨y, rfl, h⟩
    | _ => cases h
  · rintro ⟨y, rfl, h⟩
    exact h

theorem same_point_iff {v : Value} {x y : Single} : v.same (.point x y) = true ↔
    ∃ x' y', v = .point x' y' ∧ x'.same x = true ∧ y'.same y = true := by
  constructor
  · intro h
    cases v with
    | vector items =>
      have hitems := sameItems_iff.mp h
      obtain ⟨v, rest, hv, hrest, rfl⟩ := List.forall₂_cons_right_iff.mp hitems
      obtain ⟨w, rest', hw, hnil, rfl⟩ := List.forall₂_cons_right_iff.mp hrest
      obtain rfl := List.forall₂_nil_right_iff.mp hnil
      obtain ⟨x', rfl, hx⟩ := same_float_iff.mp hv
      obtain ⟨y', rfl, hy⟩ := same_float_iff.mp hw
      exact ⟨x', y', rfl, hx, hy⟩
    | _ => cases h
  · rintro ⟨x', y', rfl, hx, hy⟩
    simp [point, same, sameItems, hx, hy]

/-- a member that equals a function is a function -/
theorem sameMember_function {v : Value} {f : Function} :
    sameMember v (.function f) = true ↔ ∃ g, v = .function g := by
  constructor
  · intro h
    cases v with
    | function g => exact ⟨g, rfl⟩
    | _ => simp [sameMember, isFunction, same] at h
  · rintro ⟨g, rfl⟩
    rfl

/-- and one that equals something else is none -/
theorem sameMember_of_not {v w : Value} (h : w.isFunction = false) :
    sameMember v w = v.same w := by
  rw [sameMember, h, Bool.and_false, Bool.false_or]

theorem sameAsBody_eq (fields : List (String × Value)) (b : Body) (origin : Origin) :
    sameAsBody fields b = sameFields fields (b.members origin) := by
  rw [Bool.eq_iff_iff, sameFields_iff]
  constructor
  · intro h
    unfold sameAsBody at h
    split at h
    · next n₁ x y n₂ r n₃ f n₄ g =>
      simp only [Bool.and_eq_true, beq_iff_eq, List.cons.injEq, and_true, Body.same] at h
      obtain ⟨⟨rfl, rfl, rfl, rfl⟩, ⟨hx, hy⟩, hr⟩ := h
      have hpoint : sameMember (.point x y) (.point b.x b.y) = true :=
        same_point_iff.mpr ⟨x, y, rfl, hx, hy⟩
      exact .cons ⟨rfl, hpoint⟩ (.cons ⟨rfl, hr⟩ (.cons ⟨rfl, rfl⟩ (.cons ⟨rfl, rfl⟩ .nil)))
    · cases h
  · intro h
    obtain ⟨⟨_, v₁⟩, _, ⟨rfl, h₁⟩, hafter₁, rfl⟩ := List.forall₂_cons_right_iff.mp h
    obtain ⟨⟨_, v₂⟩, _, ⟨rfl, h₂⟩, hafter₂, rfl⟩ := List.forall₂_cons_right_iff.mp hafter₁
    obtain ⟨⟨_, v₃⟩, _, ⟨rfl, h₃⟩, hafter₃, rfl⟩ := List.forall₂_cons_right_iff.mp hafter₂
    obtain ⟨⟨_, v₄⟩, _, ⟨rfl, h₄⟩, hafter₄, rfl⟩ := List.forall₂_cons_right_iff.mp hafter₃
    obtain rfl := List.forall₂_nil_right_iff.mp hafter₄
    obtain ⟨x, y, rfl, hx, hy⟩ := same_point_iff.mp ((sameMember_of_not rfl).symm.trans h₁)
    obtain ⟨r, rfl, hr⟩ := same_float_iff.mp ((sameMember_of_not rfl).symm.trans h₂)
    obtain ⟨f, rfl⟩ := sameMember_function.mp h₃
    obtain ⟨g, rfl⟩ := sameMember_function.mp h₄
    simp [sameAsBody, point, Body.same, hx, hy, hr]

/-! ## symmetry -/

/-- what is related both ways in every place -/
theorem forall₂_comm_of_mem {α : Type} {R : α → α → Prop} {a b : List α}
    (h : ∀ x ∈ a, ∀ y, R x y ↔ R y x) : List.Forall₂ R a b ↔ List.Forall₂ R b a := by
  induction a generalizing b with
  | nil => cases b <;> simp
  | cons x rest ih =>
    cases b with
    | nil => simp
    | cons y rest' =>
      rw [List.forall₂_cons, List.forall₂_cons, h x List.mem_cons_self y,
        ih fun z hz => h z (List.mem_cons_of_mem x hz)]

theorem sameFields_comm_of_mem {a b : List (String × Value)}
    (h : ∀ p ∈ a, ∀ w, p.2.same w = w.same p.2) : sameFields a b = sameFields b a := by
  rw [Bool.eq_iff_iff, sameFields_iff, sameFields_iff]
  refine forall₂_comm_of_mem fun p hp q => ?_
  rw [SameField, SameField, sameMember, sameMember, h p hp, Bool.and_comm]
  exact and_congr_left' eq_comm

theorem same_comm (v w : Value) : v.same w = w.same v := by
  induction v using members_induction generalizing w with
  | void => cases w <;> rfl
  | float x =>
    cases w with
    | float y => exact x.same_comm y
    | _ => rfl
  | string text =>
    cases w with
    | string other => exact Bool.beq_comm
    | _ => rfl
  | vector items ih =>
    cases w with
    | vector others =>
      rw [same, same, Bool.eq_iff_iff, sameItems_iff, sameItems_iff]
      exact forall₂_comm_of_mem fun v hv u => by rw [ih v hv u]
    | _ => rfl
  | function f =>
    cases w with
    | function g => exact Bool.beq_comm
    | _ => rfl
  | classRef origin name parameters =>
    cases w with
    | classRef origin' name' parameters' => exact Bool.beq_comm
    | _ => rfl
  | object v hv ih =>
    -- a record and a body are compared in one way from either side
    cases v with
    | record typeName fields =>
      cases w with
      | record typeName' fields' =>
        have hfields : sameFields fields fields' = sameFields fields' fields :=
          sameFields_comm_of_mem (ih (.bound 0))
        rw [same, same, Bool.beq_comm, hfields]
      | _ => rfl
    | body b =>
      cases w with
      | body c => simp only [same, Body.same, Binary.same_comm b.x, Binary.same_comm b.y,
          Binary.same_comm b.rotation]
      | _ => rfl
    | _ => cases hv

theorem sameFields_comm (a b : List (String × Value)) : sameFields a b = sameFields b a :=
  sameFields_comm_of_mem fun p _ w => p.2.same_comm w

/-! ## objects by their members -/

theorem isObject_of_same {v w : Value} (hv : v.isObject = true) (h : v.same w = true) :
    w.isObject = true := by
  cases v with
  | record typeName fields =>
    cases w with
    | record _ _ => rfl
    | body _ => rfl
    | _ => cases h
  | body b =>
    cases w with
    | record _ _ => rfl
    | body _ => rfl
    | _ => cases h
  | _ => cases hv

/-- **Objects are compared by their types and their members**, records and bodies alike, wherever
the members are taken. -/
theorem same_objects {v w : Value} (hv : v.isObject = true) (hw : w.isObject = true)
    (o o' : Origin) :
    v.same w = (v.typeName == w.typeName && sameFields (v.members o) (w.members o')) := by
  cases v with
  | record s a =>
    cases w with
    | record t b => rfl
    | body b => exact congrArg (s == "Body" && ·) (sameAsBody_eq a b o')
    | _ => cases hw
  | body a =>
    cases w with
    | record t b =>
      have hfields : sameFields (a.members o) b = sameAsBody b a :=
        (sameFields_comm _ _).trans (sameAsBody_eq b a o).symm
      have htype : ("Body" == t) = (t == "Body") := Bool.beq_comm
      show (t == "Body" && sameAsBody b a) = ("Body" == t && sameFields (a.members o) b)
      rw [hfields, htype]
    | body b =>
      simp [same, typeName, members, Body.members, sameFields, point, sameItems, Body.same,
        isFunction]
    | _ => cases hw
  | _ => cases hv

/-! ## transitivity -/

theorem forall₂_trans_of_mem {α : Type} {R : α → α → Prop} {a b c : List α}
    (h : ∀ x ∈ a, ∀ y z, R x y → R y z → R x z) (hab : List.Forall₂ R a b)
    (hbc : List.Forall₂ R b c) : List.Forall₂ R a c := by
  induction hab generalizing c with
  | nil => exact hbc
  | @cons x y rest rest' hxy _ ih =>
    obtain ⟨z, rest'', hyz, hrest, rfl⟩ := List.forall₂_cons_left_iff.mp hbc
    refine .cons (h x List.mem_cons_self y z hxy hyz) (ih (fun x' hx' => ?_) hrest)
    exact h x' (List.mem_cons_of_mem x hx')

theorem isFunction_of_same {v w : Value} (h : v.same w = true) : v.isFunction = w.isFunction := by
  have hfunction : ∀ {v w : Value}, v.same w = true → v.isFunction = true →
      w.isFunction = true := by
    intro v w h hv
    cases v with
    | function f =>
      cases w with
      | function g => rfl
      | _ => cases h
    | _ => cases hv
  exact Bool.eq_iff_iff.mpr ⟨hfunction h, hfunction ((same_comm w v).trans h)⟩

theorem sameMember_trans {u v w : Value}
    (htrans : u.same v = true → v.same w = true → u.same w = true)
    (huv : sameMember u v = true) (hvw : sameMember v w = true) : sameMember u w = true := by
  simp only [sameMember, Bool.or_eq_true, Bool.and_eq_true] at huv hvw ⊢
  rcases huv with ⟨hu, hv⟩ | huv
  · rcases hvw with ⟨-, hw⟩ | hvw
    · exact .inl ⟨hu, hw⟩
    · exact .inl ⟨hu, isFunction_of_same hvw ▸ hv⟩
  · rcases hvw with ⟨hv, hw⟩ | hvw
    · exact .inl ⟨(isFunction_of_same huv).trans hv, hw⟩
    · exact .inr (htrans huv hvw)

theorem same_trans {u v w : Value} (huv : u.same v = true) (hvw : v.same w = true) :
    u.same w = true := by
  induction u using members_induction generalizing v w with
  | void =>
    cases v with
    | void => exact hvw
    | _ => cases huv
  | float x =>
    cases v with
    | float y =>
      cases w with
      | float z => exact Binary.same_trans huv hvw
      | _ => cases hvw
    | _ => cases huv
  | string text =>
    cases v with
    | string other =>
      obtain rfl := beq_iff_eq.mp huv
      exact hvw
    | _ => cases huv
  | vector items ih =>
    cases v with
    | vector items' =>
      cases w with
      | vector items'' =>
        refine sameItems_iff.mpr (forall₂_trans_of_mem (fun x hx y z => ?_)
          (sameItems_iff.mp huv) (sameItems_iff.mp hvw))
        exact ih x hx
      | _ => cases hvw
    | _ => cases huv
  | function f =>
    cases v with
    | function g =>
      cases w with
      | function k => exact beq_iff_eq.mpr ((beq_iff_eq.mp huv).trans (beq_iff_eq.mp hvw))
      | _ => cases hvw
    | _ => cases huv
  | classRef origin name parameters =>
    cases v with
    | classRef origin' name' parameters' =>
      cases w with
      | classRef origin'' name'' parameters'' =>
        exact beq_iff_eq.mpr ((beq_iff_eq.mp huv).trans (beq_iff_eq.mp hvw))
      | _ => cases hvw
    | _ => cases huv
  | object u hu ih =>
    -- all three are objects, of whichever sort, and a place is chosen to take their members at
    have hv := isObject_of_same hu huv
    have hw := isObject_of_same hv hvw
    let o : Origin := .bound 0
    rw [same_objects hu hv o o, Bool.and_eq_true, beq_iff_eq, sameFields_iff] at huv
    rw [same_objects hv hw o o, Bool.and_eq_true, beq_iff_eq, sameFields_iff] at hvw
    rw [same_objects hu hw o o, Bool.and_eq_true, beq_iff_eq, sameFields_iff]
    refine ⟨huv.1.trans hvw.1, forall₂_trans_of_mem (fun p hp q r hpq hqr => ?_) huv.2 hvw.2⟩
    exact ⟨hpq.1.trans hqr.1, sameMember_trans (ih o p hp) hpq.2 hqr.2⟩

/-! ## reflexivity -/

mutual

/-- the numbers that a value holds; what its functions and classes hold is no part of it -/
def numbers : Value → List Single
  | .float x => [x]
  | .vector items => itemNumbers items
  | .record _ fields => fieldNumbers fields
  | .body b => [b.x, b.y, b.rotation]
  | _ => []

def itemNumbers : List Value → List Single
  | [] => []
  | v :: rest => v.numbers ++ itemNumbers rest

def fieldNumbers : List (String × Value) → List Single
  | [] => []
  | (_, v) :: rest => v.numbers ++ fieldNumbers rest

end

theorem itemNumbers_eq (items : List Value) : itemNumbers items = items.flatMap numbers := by
  induction items with
  | nil => rfl
  | cons v rest ih => rw [itemNumbers, ih, List.flatMap_cons]

theorem fieldNumbers_eq (fields : List (String × Value)) :
    fieldNumbers fields = fields.flatMap fun field => field.2.numbers := by
  induction fields with
  | nil => rfl
  | cons field rest ih => rw [fieldNumbers, ih, List.flatMap_cons]

/-- an object holds the numbers of its members -/
theorem numbers_object {v : Value} (hv : v.isObject = true) (o : Origin) :
    v.numbers = (v.members o).flatMap fun member => member.2.numbers := by
  cases v with
  | record typeName fields => exact fieldNumbers_eq fields
  | body b => rfl
  | _ => cases hv

theorem sameMember_self (v : Value) : sameMember v v = v.same v := by
  cases v with
  | function f => exact (beq_self_eq_true f.origin).symm
  | _ => rfl

theorem same_self_iff (v : Value) : v.same v = true ↔ .nan ∉ v.numbers := by
  induction v using members_induction with
  | void => simp [same, numbers]
  | float x =>
    rw [same, Binary.same_self_iff, numbers, List.mem_singleton, ne_comm]
  | string text => simp [same, numbers]
  | vector items ih =>
    rw [same, sameItems_iff, List.forall₂_same, numbers, itemNumbers_eq, List.mem_flatMap]
    push Not
    exact forall₂_congr ih
  | function f => simp [same, numbers]
  | classRef origin name parameters => simp [same, numbers]
  | object v hv ih =>
    let o : Origin := .bound 0
    rw [same_objects hv hv o o, beq_self_eq_true, Bool.true_and, sameFields_iff,
      List.forall₂_same, numbers_object hv o, List.mem_flatMap]
    push Not
    refine forall₂_congr fun member hmember => ?_
    rw [SameField, sameMember_self, ← ih o member hmember, eq_self_iff_true, true_and]

mutual

/-- a copy of a value: items and fields are copied, functions and classes are shared -/
def copy : Value → Value
  | .vector items => .vector (copyItems items)
  | .record typeName fields => .record typeName (copyFields fields)
  | .body b => .body ⟨b.x, b.y, b.rotation⟩
  | v => v

def copyItems : List Value → List Value
  | [] => []
  | v :: rest => v.copy :: copyItems rest

def copyFields : List (String × Value) → List (String × Value)
  | [] => []
  | (name, v) :: rest => (name, v.copy) :: copyFields rest

end

mutual

theorem copy_eq : ∀ v : Value, v.copy = v
  | .void => rfl
  | .float _ => rfl
  | .string _ => rfl
  | .vector items => congrArg Value.vector (copyItems_eq items)
  | .record typeName fields => congrArg (Value.record typeName) (copyFields_eq fields)
  | .body _ => rfl
  | .function _ => rfl
  | .classRef _ _ _ => rfl

theorem copyItems_eq : ∀ items : List Value, copyItems items = items
  | [] => rfl
  | v :: rest => by rw [copyItems, copy_eq v, copyItems_eq rest]

theorem copyFields_eq : ∀ fields : List (String × Value), copyFields fields = fields
  | [] => rfl
  | (name, v) :: rest => by rw [copyFields, copy_eq v, copyFields_eq rest]

end

/-! ## members by name -/

/-- members that are equal one by one are so under every name -/
theorem get?_of_sameFields {a b : List (String × Value)} (h : List.Forall₂ SameField a b)
    (name : String) :
    Option.Rel (fun v w => sameMember v w = true) (Named.get? a name) (Named.get? b name) := by
  induction h with
  | nil => exact .none
  | @cons p q _ _ hpq _ ih =>
    obtain ⟨n, v⟩ := p
    obtain ⟨m, w⟩ := q
    obtain ⟨rfl, hmember⟩ : n = m ∧ sameMember v w = true := hpq
    rw [Named.get?_cons, Named.get?_cons]
    split
    · exact .some hmember
    · exact ih

theorem names_of_sameFields {a b : List (String × Value)} (h : List.Forall₂ SameField a b) :
    Named.names a = Named.names b := by
  induction h with
  | nil => rfl
  | cons hpq _ ih => rw [Named.names_cons, Named.names_cons, ih, hpq.1]

/-- where no name comes twice, members that are equal under every name are so one by one -/
theorem sameFields_of_get? {a b : List (String × Value)} (hnodup : (Named.names a).Nodup)
    (hnames : Named.names a = Named.names b)
    (h : ∀ name ∈ Named.names a,
      Option.Rel (fun v w => sameMember v w = true) (Named.get? a name) (Named.get? b name)) :
    List.Forall₂ SameField a b := by
  induction a generalizing b with
  | nil =>
    cases b with
    | nil => exact .nil
    | cons q rest' => cases hnames
  | cons p rest ih =>
    cases b with
    | nil => cases hnames
    | cons q rest' =>
      obtain ⟨n, v⟩ := p
      obtain ⟨m, w⟩ := q
      obtain ⟨rfl, hrest⟩ : n = m ∧ Named.names rest = Named.names rest' := List.cons.inj hnames
      obtain ⟨hnew, hnodup⟩ := List.nodup_cons.mp hnodup
      refine .cons ⟨rfl, ?_⟩ (ih hnodup hrest fun name hname => ?_)
      · have hfirst := h n List.mem_cons_self
        rw [Named.get?_cons, Named.get?_cons, if_pos rfl, if_pos rfl] at hfirst
        cases hfirst with
        | some hmember => exact hmember
      · have hne : n ≠ name := fun heq => hnew (heq ▸ hname)
        have hlater := h name (List.mem_cons_of_mem n hname)
        rwa [Named.get?_cons, Named.get?_cons, if_neg hne, if_neg hne] at hlater

/-- **Equality of values is an equality, but for NaN.**  It is symmetric and transitive, and a value
equals its copy just if it holds no NaN.  Objects are equal just if their types, the names of their
members, and under every name the members are, two functions being equal to each other: whatever
place the members are taken at, so the methods of an object and of its copy make no difference. -/
theorem same_equality :
    (∀ v w : Value, v.same w = w.same v) ∧
    (∀ u v w : Value, u.same v = true → v.same w = true → u.same w = true) ∧
    (∀ v : Value, v.same v.copy = true ↔ .nan ∉ v.numbers) ∧
    ∀ v w : Value, v.isObject = true → w.isObject = true → ∀ o o' : Origin,
      (Named.names (v.members o)).Nodup →
        (v.same w = true ↔ v.typeName = w.typeName ∧
          Named.names (v.members o) = Named.names (w.members o') ∧
          ∀ name ∈ Named.names (v.members o),
            Option.Rel (fun p q => sameMember p q = true) (v.member? o name)
              (w.member? o' name)) := by
  refine ⟨same_comm, fun _ _ _ => same_trans, fun v => ?_, fun v w hv hw o o' hnodup => ?_⟩
  · rw [copy_eq]
    exact same_self_iff v
  · rw [same_objects hv hw o o', Bool.and_eq_true, beq_iff_eq, sameFields_iff]
    refine and_congr_right fun _ => ⟨fun hfields => ?_, fun ⟨hnames, hmembers⟩ => ?_⟩
    · exact ⟨names_of_sameFields hfields, fun name _ => get?_of_sameFields hfields name⟩
    · exact sameFields_of_get? hnodup hnames hmembers

/-- a body between two records that hold its members, with methods taken at different places -/
theorem same_equality_body :
    let b : Body := ⟨.zero false, .zero true, .infinity false⟩
    let r (origin : Origin) : Value := .record "Body" (b.members origin)
    (r (.bound 0)).same (.body b) = true ∧ (Value.body b).same (r (.bound 1)) = true ∧
      (r (.bound 0)).same (r (.bound 1)) = true := by
  intro b r
  have hleft : (r (.bound 0)).same (.body b) = true := by decide
  have hright : (Value.body b).same (r (.bound 1)) = true := by decide
  exact ⟨hleft, hright, same_equality.2.1 _ _ _ hleft hright⟩

end Value

end Dataflow
