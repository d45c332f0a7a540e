import Mathlib.Data.List.Basic
import Dataflow.Proofs.Unambiguous

/-!
# The texts that are expressions

* `Token.scan_ok`                   the tokens of a text end with `finish`, and only they do;
* `Expression.complete_recording`   what is read to the end is what has a tree;
* `Expression.drive_recording`      the same for texts.
-/

namespace Dataflow

open Parse Dataflow.Tree

namespace Token

/-- the end stands at the end of the tokens and nowhere else -/
def Ended (result : Except Fault (List Token)) : Prop :=
  ∀ tokens, result = .ok tokens → ∃ body, tokens = body ++ [.finish] ∧ .finish ∉ body

theorem Ended.cons {t : Token} {result : Except Fault (List Token)} (ht : t ≠ .finish)
    (h : Ended result) : Ended (Token.cons t result) := by
  intro tokens htokens
  cases result with
  | error fault => cases htokens
  | ok rest =>
    obtain ⟨body, rfl, hbody⟩ := h rest rfl
    obtain rfl := Except.ok.inj htokens
    exact ⟨t :: body, rfl, by simp [ht.symm, hbody]⟩

theorem ended_scanChars (text : List Char) : Ended (scanChars text) := by
  fun_induction scanChars text with
  | case1 =>
    intro tokens htokens
    obtain rfl := Except.ok.inj htokens
    exact ⟨[], rfl, by simp⟩
  | case2 c rest _ ih => exact ih
  | case3 c rest _ _ ih => exact ih.cons (by simp)
  | case4 c rest _ _ _ ih => exact ih.cons (by simp)
  | case5 => exact fun _ h => (by cases h)
  | case6 _ _ _ _ _ _ _ ih => exact ih.cons (by simp)
  | case7 _ _ _ _ _ _ _ _ ih => exact ih.cons (by simp)
  | case8 => exact fun _ h => (by cases h)

theorem scan_ok {text : String} {tokens : List Token} (h : scan text = .ok tokens) :
    ∃ body, tokens = body ++ [.finish] ∧ .finish ∉ body :=
  ended_scanChars text.toList tokens h

end Token

namespace Expression

variable {done : List Op}

theorem emitAll_recording (ops : List Op) (tokens : List Token) :
    emitAll .recording ops tokens done = (.ok ((), tokens), done ++ ops) := by
  rw [emitAll, Machine.run_recording]

/-- a tree is read to its end -/
theorem complete_yield {t : Expr} (ht : t.levels ≤ maxNesting) :
    complete .recording (t.yield ++ [.finish]) done = (.ok ((), [.finish]), done ++ t.ops) := by
  have hread := expression_yield Machine.recording maxNesting t ht [.finish] done rfl
    (afterExpr_finish rfl)
  rw [emitAll_recording] at hread
  show (outermost .recording >>= fun _ => finish) (t.yield ++ [.finish]) done = _
  rw [bind_eq, outermost, hread]
  rfl

/-- what is read to the end is a tree -/
theorem exists_tree {body rest : List Token} {ops : List Op} (hbody : .finish ∉ body)
    (h : complete .recording (body ++ [.finish]) done = (.ok ((), rest), ops)) :
    ∃ t : Expr, t.levels ≤ maxNesting ∧ t.yield = body := by
  obtain ⟨_, mid, _, hread, hfinish⟩ := bind_ok h
  have hends : Ends (body ++ [.finish]) := Ends.append body rfl
  obtain ⟨_, _, ⟨t, ht, rfl, rfl⟩, htokens, _, hends'⟩ :=
    expression_reads _ _ _ hends _ _ _ _ hread
  refine ⟨t, ht, ?_⟩
  -- the rest begins with an end, and there is only one
  have hhead := finish_ok hfinish
  cases mid with
  | nil => cases hends'
  | cons u more =>
    obtain rfl : u = .finish := hhead
    obtain ⟨hyield, -, -⟩ := (List.append_cons_inj_of_notMem hbody (by simp)).mp htokens
    exact hyield.symm

/-- **The expressions are the texts with a tree of at most 128 levels, and the tree says what they
do.**  A text is read without a fault just if its tokens are the yield of such a tree; no other tree
has this yield; and what is handed to the machine are the operations of the tree in postorder. -/
theorem drive_recording {text : String} {tokens : List Token} (hscan : Token.scan text = .ok tokens)
    (done : List Op) :
    ((drive .recording text done).1 = .ok () ↔
      ∃ t : Expr, t.levels ≤ 128 ∧ tokens = t.yield ++ [.finish]) ∧
    ∀ t : Expr, t.levels ≤ 128 → tokens = t.yield ++ [.finish] →
      drive .recording text done = (.ok (), done ++ t.ops) ∧
      ∀ t' : Expr, tokens = t'.yield ++ [.finish] → t' = t := by
  obtain ⟨body, rfl, hbody⟩ := Token.scan_ok hscan
  have hyield : ∀ t : Expr, t.levels ≤ 128 → body ++ [Token.finish] = t.yield ++ [.finish] →
      drive .recording text done = (.ok (), done ++ t.ops) := by
    intro t ht htokens
    rw [drive, hscan]
    simp only [htokens, complete_yield (show t.levels ≤ maxNesting from ht)]
  refine ⟨⟨fun hok => ?_, fun ⟨t, ht, htokens⟩ => ?_⟩, fun t ht htokens => ⟨hyield t ht htokens, ?_⟩⟩
  · rw [drive, hscan] at hok
    cases hread : complete .recording (body ++ [Token.finish]) done with
    | mk result ops =>
      cases result with
      | ok last =>
        obtain ⟨t, ht, rfl⟩ := exists_tree hbody hread
        exact ⟨t, ht, rfl⟩
      | error fault =>
        simp only [hread] at hok
        cases hok
  · rw [hyield t ht htokens]
  · intro t' htokens'
    exact yield_injective (List.append_cancel_right (htokens'.symm.trans htokens))

theorem drive_recording_difference :
    Token.scan "1-2*$" = .ok [.number "1", .mark .minus, .number "2", .mark .star, .mark .dollar,
      .finish] ∧
    drive .recording "1-2*$" [] =
      (.ok (), [.number "1", .number "2", .input, .binary .times, .binary .minus]) := by
  have hblank : "1-2*$".toList.all (! Text.isBlank ·) = true := by decide +kernel
  have hname : "-*$".toList.all (! Text.isNameStart ·) = true := by decide +kernel
  simp only [List.all_eq_true, Bool.not_eq_true'] at hblank hname
  have hscan : Token.scan "1-2*$" = .ok [.number "1", .mark .minus, .number "2", .mark .star,
      .mark .dollar, .finish] := by
    simp [Token.scan, Token.scanChars, Token.cons, Except.map, Mark.ofChar?, hblank, hname]
  let two : Product := .access (.primary (.number "2"))
  let t : Expr := .join (.product (.access (.primary (.number "1")))) .minus
    (.join two .times (.primary .input))
  exact ⟨hscan, ((drive_recording hscan []).2 t (by decide) rfl).1⟩

end Expression

end Dataflow
