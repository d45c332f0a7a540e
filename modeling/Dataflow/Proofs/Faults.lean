import Dataflow.Sink
import Dataflow.Token.Scan
import Dataflow.Value.Arithmetic
import Dataflow.Value.Member

/-!
# The faults that a computation may have

* `FailsWith P r`        if `r` fails, then with a fault for which `P` holds;
* `Fault.message_ne`     only a function of the host can fail without a word;
* `Fault.Plain`          a fault of the language itself;
* `Host.FailsWith`, `Sink.FailsWith`   the same for all that a host does;
* `Value.failsWith_call`, `failsWith_memberOf`, `failsWith_apply`   what is done with values fails
                         plainly, or as the host does;
* `Token.failsWith_scan`   a text that has no tokens is malformed.
-/

namespace Dataflow

variable {σ α β : Type} {P : Fault → Prop}

/-- if this fails, then with such a fault -/
def FailsWith (P : Fault → Prop) (r : Except Fault α) : Prop := ∀ fault, r = .error fault → P fault

namespace FailsWith

theorem ok (a : α) : FailsWith P (.ok a) := nofun

theorem error {fault : Fault} (h : P fault) : FailsWith P (.error fault : Except Fault α) := by
  rintro _ ⟨⟩
  exact h

theorem bind {x : Except Fault α} {f : α → Except Fault β} (hx : FailsWith P x)
    (hf : ∀ a, FailsWith P (f a)) : FailsWith P (x >>= f) := by
  cases x with
  | error fault => exact error (hx fault rfl)
  | ok a => exact hf a

theorem map {x : Except Fault α} (f : α → β) (hx : FailsWith P x) : FailsWith P (x.map f) := by
  cases x with
  | error fault => exact error (hx fault rfl)
  | ok a => exact ok (f a)

theorem mapM {f : α → Except Fault β} (hf : ∀ a, FailsWith P (f a)) (items : List α) :
    FailsWith P (items.mapM f) := by
  induction items with
  | nil => exact ok []
  | cons first rest ih =>
    rw [List.mapM_cons]
    exact (hf first).bind fun b => ih.bind fun bs => ok (b :: bs)

end FailsWith

/-- the functions and constructors of the host fail with such faults only -/
structure Host.FailsWith (P : Fault → Prop) (host : Host) : Prop where
  call : ∀ name args, Dataflow.FailsWith P (host.call name args)
  construct : ∀ name args, Dataflow.FailsWith P (host.construct name args)

/-- a return is refused with such faults only -/
def Sink.FailsWith (P : Fault → Prop) (sink : Sink σ) : Prop :=
  ∀ v s, Dataflow.FailsWith P (sink.accept v s).1

/-! ## messages -/

namespace Fault

theorem append_ne_left {a b : String} (h : a ≠ "") : a ++ b ≠ "" := fun hab =>
  h (String.append_eq_empty_iff.mp hab).1

theorem append_ne_right {a b : String} (h : b ≠ "") : a ++ b ≠ "" := fun hab =>
  h (String.append_eq_empty_iff.mp hab).2

/-- every fault has something to say, but for those that a function of the host words itself -/
theorem message_ne {fault : Fault} (h : fault ≠ .host "") : fault.message ≠ "" := by
  cases fault with
  | host message => exact fun hempty => h (congrArg Fault.host hempty)
  -- these begin with the name of a type
  | unknownMember => exact append_ne_left (append_ne_left (append_ne_right (by decide)))
  | missingParameter => exact append_ne_left (append_ne_left (append_ne_right (by decide)))
  | unknownParameter => exact append_ne_left (append_ne_left (append_ne_right (by decide)))
  -- these begin with a word of their own
  | invalidOperands =>
    exact append_ne_left
      (append_ne_left (append_ne_left (append_ne_left (append_ne_left (by decide)))))
  | unexpectedToken => exact append_ne_left (append_ne_left (append_ne_left (by decide)))
  | vectorLengthMismatch =>
    exact append_ne_left (append_ne_left (append_ne_left (append_ne_left (by decide))))
  | wrongArgumentCount => exact append_ne_left (append_ne_left (append_ne_left (by decide)))
  | returnTypeMismatch => exact append_ne_left (append_ne_left (append_ne_left (by decide)))
  | notCallable => exact append_ne_left (by decide)
  | unexpectedCharacter => exact append_ne_left (append_ne_left (by decide))
  | nestingTooDeep => exact append_ne_left (append_ne_left (by decide))
  | trailingInput => exact append_ne_left (append_ne_left (by decide))
  | unknownIdentifier => exact append_ne_left (append_ne_left (by decide))
  | nonFloatVectorElement => exact append_ne_left (append_ne_left (by decide))
  | positionalConstruction => exact append_ne_left (append_ne_left (by decide))
  | duplicateArgument => exact append_ne_left (append_ne_left (by decide))
  | _ => decide

/-- a fault of the language itself: the text is well-formed, and there is something to say -/
structure Plain (fault : Fault) : Prop where
  kind : fault.kind = .semantic
  message : fault.message ≠ ""

end Fault

/-! ## values -/

section
variable (hP : ∀ fault : Fault, fault.Plain → P fault)
include hP

theorem FailsWith.plain {fault : Fault} (hkind : fault.kind = .semantic) (h : fault ≠ .host "") :
    FailsWith P (.error fault : Except Fault α) := .error (hP fault ⟨hkind, Fault.message_ne h⟩)

/-- a host without functions only ever says so -/
theorem Host.failsWith_none : Host.none.FailsWith P :=
  ⟨fun _ _ => .plain hP rfl nofun, fun _ _ => .plain hP rfl nofun⟩

namespace Arguments

theorem failsWith_name (args : List (String × Value)) (n : String) (v : Value) :
    FailsWith P (name args n v) := by
  unfold name
  split
  · exact .plain hP rfl nofun
  · exact .ok _

theorem failsWith_onlyNamed (className : String) (given : List (ArgumentForm × Value))
    (args : List (String × Value)) : FailsWith P (onlyNamed className given args) := by
  induction given generalizing args with
  | nil => exact .ok _
  | cons first rest ih =>
    obtain ⟨form, v⟩ := first
    cases form with
    | positional => exact .plain hP rfl nofun
    | named n =>
      have hname := failsWith_name hP args n v
      rw [onlyNamed]
      split
      · exact ih _
      · next fault h => exact .error (hname fault h)

theorem failsWith_collect (given : List (ArgumentForm × Value)) (args : Arguments) :
    FailsWith P (collect given args) := by
  induction given generalizing args with
  | nil => exact .ok _
  | cons first rest ih =>
    obtain ⟨form, v⟩ := first
    cases form with
    | positional => exact ih _
    | named n =>
      have hname := failsWith_name hP args.named n v
      rw [collect]
      split
      · exact ih _
      · next fault h => exact .error (hname fault h)

theorem failsWith_onlyPositional (args : Arguments) {run : List Value → Except Fault Value}
    (h : ∀ vs, FailsWith P (run vs)) : FailsWith P (args.onlyPositional run) := by
  unfold onlyPositional
  split
  · exact h _
  · exact .plain hP rfl nofun

end Arguments

namespace Routine

/-- a fault in the words of a function -/
theorem failsWith_words {message : String} (h : message ≠ "") :
    FailsWith P (.error (.host message) : Except Fault α) := .error (hP _ ⟨rfl, h⟩)

theorem failsWith_squareRoot (vs : List Value) : FailsWith P (squareRoot vs) := by
  unfold squareRoot
  split
  · split
    · exact failsWith_words hP (Fault.append_ne_left (by decide))
    · split
      · exact failsWith_words hP (Fault.append_ne_left (by decide))
      · exact .ok _
  · exact .plain hP rfl nofun

theorem failsWith_vectorLength (vs : List Value) : FailsWith P (vectorLength vs) := by
  unfold vectorLength
  split
  · split
    · exact failsWith_words hP (Fault.append_ne_left (by decide))
    · exact .ok _
  · exact .plain hP rfl nofun

theorem failsWith_whereabouts (b : Body) (vs : List Value) : FailsWith P (whereabouts b vs) := by
  unfold whereabouts
  split
  · exact .ok _
  · exact .plain hP rfl nofun

theorem failsWith_movedBy (b : Body) (vs : List Value) : FailsWith P (movedBy b vs) := by
  unfold movedBy
  split
  · split
    · exact .ok _
    · exact failsWith_words hP (by decide)
  · exact .plain hP rfl nofun

theorem failsWith_run {host : Host} (hhost : host.FailsWith P) (r : Routine) (args : Arguments) :
    FailsWith P (r.run host args) := by
  cases r with
  | sqrt => exact args.failsWith_onlyPositional hP (failsWith_squareRoot hP)
  | length => exact args.failsWith_onlyPositional hP (failsWith_vectorLength hP)
  | position b => exact args.failsWith_onlyPositional hP (failsWith_whereabouts hP b)
  | moved b => exact args.failsWith_onlyPositional hP (failsWith_movedBy hP b)
  | host name => exact hhost.call name args

end Routine

namespace Value

theorem failsWith_parameterValue (className : String) (args : List (String × Value))
    (parameter : String × Option Value) : FailsWith P (parameterValue className args parameter) := by
  unfold parameterValue
  split
  · exact .ok _
  · exact .ok _
  · exact .plain hP rfl nofun

theorem failsWith_construct (className : String) (parameters : List (String × Option Value))
    (args : List (String × Value)) : FailsWith P (construct className parameters args) := by
  unfold construct
  split
  · exact .plain hP rfl nofun
  · exact .map _ (.mapM (failsWith_parameterValue hP className args) parameters)

/-- a call fails plainly, or as the host does -/
theorem failsWith_call {host : Host} (hhost : host.FailsWith P) (callee : Value)
    (forms : List ArgumentForm) (values : List Value) :
    FailsWith P (callee.call host forms values) := by
  cases callee with
  | classRef origin name parameters =>
    have hargs := Arguments.failsWith_onlyNamed hP name (forms.zip values) []
    simp only [call]
    cases h : Arguments.onlyNamed name (forms.zip values) [] with
    | error fault => exact .error (hargs fault h)
    | ok args =>
      cases parameters with
      | some parameters => exact failsWith_construct hP name parameters args
      | none => exact hhost.construct name args
  | function f =>
    have hargs := Arguments.failsWith_collect hP (forms.zip values) ⟨[], []⟩
    simp only [call]
    cases h : Arguments.collect (forms.zip values) ⟨[], []⟩ with
    | error fault => exact .error (hargs fault h)
    | ok args => exact f.routine.failsWith_run hP hhost args
  | _ => exact .plain hP rfl nofun

theorem failsWith_memberOf (origin : Origin) (v : Value) (name : String) :
    FailsWith P (v.memberOf origin name) := by
  unfold memberOf
  split
  · exact .ok _
  · split
    · exact .ok _
    · exact .plain hP rfl nofun

theorem failsWith_floatElements (sign : Sign) (v : Value) : FailsWith P (floatElements sign v) := by
  unfold floatElements
  split
  · exact .ok _
  · exact .plain hP rfl nofun

theorem failsWith_apply (sign : Sign) (left right : Value) :
    FailsWith P (apply sign left right) := by
  have hone : ∀ (v : Value) (f : List Single → Value),
      FailsWith P (do let xs ← floatElements sign v; return f xs) := fun v f =>
    (failsWith_floatElements hP sign v).bind fun xs => .ok (f xs)
  have htwo : ∀ (v w : Value) (f : List Single → List Single → Value), FailsWith P (do
      let xs ← floatElements sign v
      let ys ← floatElements sign w
      return f xs ys) := fun v w f =>
    (failsWith_floatElements hP sign v).bind fun xs => hone w (f xs)
  unfold apply
  split
  · exact .ok _
  · dsimp only
    split
    · exact .plain hP rfl nofun
    · exact htwo _ _ _
  · dsimp only
    split
    · exact .plain hP rfl nofun
    · exact htwo _ _ _
  · exact hone _ _
  · exact hone _ _
  · exact hone _ _
  · exact .plain hP rfl nofun

end Value

end

/-! ## the standard host -/

section
variable (h : ∀ expected found, P (.returnTypeMismatch expected found))
include h

theorem Collector.failsWith_allows (c : Collector) (v : Value) : FailsWith P (c.allows v) := by
  unfold allows
  split
  · split
    · exact .ok ()
    · exact .error (h _ _)
  · exact .ok ()

/-- it refuses a value for its type alone -/
theorem Sink.failsWith_collecting : Sink.collecting.FailsWith P := by
  intro v c
  have hallows := c.failsWith_allows h v
  simp only [collecting]
  split
  · exact .ok ()
  · next fault hfault => exact .error (hallows fault hfault)

end

/-! ## texts -/

theorem Token.failsWith_scan (text : String) : FailsWith (·.kind = .parse) (scan text) := by
  unfold scan
  fun_induction scanChars text.toList with
  | case1 => exact .ok _
  | case2 c rest _ ih => exact ih
  | case3 c rest _ _ ih => exact ih.map _
  | case4 c rest _ _ _ ih => exact ih.map _
  | case5 => exact .error rfl
  | case6 _ _ _ _ _ _ _ ih => exact ih.map _
  | case7 _ _ _ _ _ _ _ _ ih => exact ih.map _
  | case8 => exact .error rfl

end Dataflow
