import TableClient.Proofs.Expression.Grouping
import TableClient.Proofs.Expression.Reader

/-!
# Written expressions are read back

The reader takes exactly the tokens of a written tree, whatever follows, and gives the tree over its
placeholders. Two things need care. A leaf condition must not begin like a nested one, so the first
token of a tree is known (`Operand.tokens_eq`). And a value is read to the left: what comes out is
its left-grouped form, behind whatever stands before it (`SetValue.run_readerUpTo`).
-/

namespace TableClient

open Token TokenReader

namespace TokenReader

variable {α β : Type}

@[simp] theorem run_word (text : String) (rest : List Token) :
    word.run (.word text :: rest) = some (text, rest) :=
  rfl

@[simp] theorem run_expect (t : Token) (rest : List Token) :
    (expect t).run (t :: rest) = some ((), rest) :=
  if_pos rfl

@[simp] theorem run_accept (t : Token) (rest : List Token) :
    (accept t).run (t :: rest) = some (true, rest) :=
  if_pos rfl

theorem run_accept_of_ne {t : Token} {rest : List Token} (h : rest.head? ≠ some t) :
    (accept t).run rest = some (false, rest) := by
  cases rest with
  | nil => rfl
  | cons head rest => exact if_neg (by simpa using h)

@[simp] theorem run_ofOption (value : Option α) (rest : List Token) :
    (ofOption value).run rest = value.map (·, rest) :=
  rfl

theorem readText_eq {reader : TokenReader α} {text : String} {ts : List Token} {a : α}
    (htext : Scans text ts) (hreader : reader.run ts = some (a, [])) :
    readText reader text = some a := by
  rw [readText, htext.ofText_eq, hreader]

/-! ## Lists -/

section Lists

variable {item : TokenReader β} {tokens : α → List Token} {image : α → β}
  {Ends : List Token → Prop}

private theorem run_separatedUpTo (hcomma : ∀ rest, Ends (.comma :: rest)) {rest : List Token}
    (hrest : Ends rest) (hnext : rest.head? ≠ some .comma) (a : α) (as : List α) (bound : ℕ)
    (hitem : ∀ b ∈ a :: as, ∀ rest, Ends rest →
      item.run (tokens b ++ rest) = some (image b, rest)) :
    (separatedUpTo item (as.length + 1 + bound)).run
      (Token.separated ((a :: as).map tokens) ++ rest) = some ((a :: as).map image, rest) := by
  induction as generalizing a with
  | nil =>
    have hfirst := hitem a List.mem_cons_self rest hrest
    rw [List.length_nil, Nat.zero_add, Nat.add_comm]
    simp [separatedUpTo, Token.separated, hfirst, run_accept_of_ne hnext]
  | cons b bs ih =>
    have hfirst := hitem a List.mem_cons_self
      (.comma :: (Token.separated ((b :: bs).map tokens) ++ rest)) (hcomma _)
    have hothers := ih b fun c hc ↦ hitem c (List.mem_cons_of_mem a hc)
    have htokens : Token.separated ((a :: b :: bs).map tokens) ++ rest =
        tokens a ++ .comma :: (Token.separated ((b :: bs).map tokens) ++ rest) := by
      simp [Token.separated, List.intercalate_cons_cons]
    rw [List.length_cons, show bs.length + 1 + 1 + bound = bs.length + 1 + bound + 1 by omega,
      htokens, separatedUpTo]
    rw [List.map_cons] at hfirst hothers
    simp [hfirst, hothers]

/-- Each item but the first has a comma before it. -/
private theorem length_le_separated (items : List (List Token)) :
    items.length ≤ (Token.separated items).length + 1 := by
  induction items with
  | nil => simp
  | cons item items ih =>
    cases items with
    | nil => simp
    | cons other items =>
      simp only [Token.separated, List.intercalate_cons_cons, List.length_append,
        List.length_cons, List.length_nil] at ih ⊢
      omega

/-- Items that are read back one by one are read back with commas between them, if what follows
them may follow an item. -/
theorem run_separated (hcomma : ∀ rest, Ends (.comma :: rest)) {rest : List Token}
    (hrest : Ends rest) (hnext : rest.head? ≠ some .comma) {as : List α} (hne : as ≠ [])
    (hitem : ∀ a ∈ as, ∀ rest, Ends rest → item.run (tokens a ++ rest) = some (image a, rest)) :
    (separated item).run (Token.separated (as.map tokens) ++ rest) =
      some (as.map image, rest) := by
  obtain ⟨a, as, rfl⟩ := List.exists_cons_of_ne_nil hne
  have hlength := length_le_separated ((a :: as).map tokens)
  obtain ⟨bound, hbound⟩ : ∃ bound,
      (Token.separated ((a :: as).map tokens) ++ rest).length + 1 = as.length + 1 + bound := by
    rw [List.length_map, List.length_cons] at hlength
    exact Nat.exists_eq_add_of_le (by rw [List.length_append]; omega)
  have hread := run_separatedUpTo hcomma hrest hnext a as bound hitem
  rw [← hbound] at hread
  exact hread

end Lists

end TokenReader

/-! ## Paths and operands -/

/-- A path over the placeholders of its names. -/
abbrev Path.placeholders (p : Path ℕ) : Path String :=
  p.map Placeholder.name

/-- An operand over its placeholders. -/
abbrev Operand.placeholders (o : Operand ℕ ℕ) : Operand String String :=
  o.map Placeholder.name Placeholder.value

theorem Path.ofWord?_expression (p : Path ℕ) : ofWord? p.expression = some p.placeholders := by
  rw [ofWord?, expression, parse_textWith p isPlainName_name]
  rfl

@[simp] theorem Path.run_reader (p : Path ℕ) (rest : List Token) :
    Path.reader.run (.word p.expression :: rest) = some (p.placeholders, rest) := by
  simp [Path.reader, Path.ofWord?_expression]

/-- The first word of an operand: it is no word of the language apart from `size`. -/
structure IsOperandWord (text : String) : Prop where
  no_function : (Named.ofName? text : Option FunctionName) = none
  ne_not : text ≠ "NOT"
  ne_ifNotExists : text ≠ "if_not_exists"
  ne_listAppend : text ≠ "list_append"

private theorem isOperandWord_of_head {text : String} {c : Char}
    (h : text.toList.head? = some c) (hc : c = '#' ∨ c = ':') : IsOperandWord text := by
  have hne {other : String} (hother : other.toList.head? ≠ some '#')
      (hother' : other.toList.head? ≠ some ':') : text ≠ other := by
    rintro rfl
    rcases hc with rfl | rfl
    · exact hother h
    · exact hother' h
  refine ⟨?_, hne (by decide) (by decide), hne (by decide) (by decide),
    hne (by decide) (by decide)⟩
  rw [Option.eq_none_iff_forall_ne_some]
  intro f hf
  have hname := Named.name_of_ofName? hf
  cases f <;> exact hne (by decide) (by decide) hname.symm

private theorem Path.head?_expression (p : Path ℕ) : p.expression.toList.head? = some '#' := by
  simp [expression, textWith, Placeholder.name]

private theorem Placeholder.head?_value (n : ℕ) :
    (Placeholder.value n).toList.head? = some ':' := by
  simp [Placeholder.value]

/-- An operand is read from its first word and the tokens behind it. -/
theorem Operand.tokens_eq (o : Operand ℕ ℕ) : ∃ first others,
    o.tokens = .word first :: others ∧ IsOperandWord first ∧
      ∀ rest, (readerFrom first).run (others ++ rest) = some (o.placeholders, rest) := by
  cases o with
  | literal n =>
    have hhead := Placeholder.head?_value n
    have hsize : Placeholder.value n ≠ "size" := by
      intro heq
      rw [heq] at hhead
      exact absurd hhead (by decide)
    refine ⟨_, [], rfl, isOperandWord_of_head hhead (.inr rfl), fun rest ↦ ?_⟩
    rw [readerFrom, if_neg hsize, if_pos hhead]
    rfl
  | reference path =>
    have hhead := path.head?_expression
    have hsize : path.expression ≠ "size" := by
      intro heq
      rw [heq] at hhead
      exact absurd hhead (by decide)
    refine ⟨_, [], rfl, isOperandWord_of_head hhead (.inl rfl), fun rest ↦ ?_⟩
    rw [readerFrom, if_neg hsize, if_neg (by simp [hhead])]
    simp [Path.ofWord?_expression, Operand.map]
  | size path =>
    refine ⟨_, _, rfl, ⟨by decide, by decide, by decide, by decide⟩, fun rest ↦ ?_⟩
    simp [readerFrom, Token.separated, Operand.map]

@[simp] theorem Operand.run_reader (o : Operand ℕ ℕ) (rest : List Token) :
    Operand.reader.run (o.tokens ++ rest) = some (o.placeholders, rest) := by
  obtain ⟨first, others, htokens, -, hread⟩ := o.tokens_eq
  simp [Operand.reader, htokens, hread]

/-- Operands in brackets are read back; there may be none. -/
@[simp] theorem Operand.run_bracketed (os : List (Operand ℕ ℕ)) (rest : List Token) :
    (bracketed Operand.reader).run
      (.opening :: (Token.separated (os.map Operand.tokens) ++ .closing :: rest)) =
      some (os.map Operand.placeholders, rest) := by
  cases os with
  | nil => simp [bracketed, Token.separated]
  | cons o os =>
    have hitems : (separated Operand.reader).run
        (Token.separated ((o :: os).map Operand.tokens) ++ .closing :: rest) =
        some ((o :: os).map Operand.placeholders, .closing :: rest) :=
      run_separated (fun _ ↦ trivial) trivial (by simp) (List.cons_ne_nil o os)
        fun a _ rest (_ : True) ↦ Operand.run_reader a rest
    have hhead : (Token.separated ((o :: os).map Operand.tokens) ++ .closing :: rest).head? ≠
        some .closing := by
      obtain ⟨first, others, htokens, -, -⟩ := o.tokens_eq
      cases os <;> simp [Token.separated, List.intercalate_cons_cons, htokens]
    simp only [bracketed, StateT.run_bind, run_expect, Option.bind_eq_bind, Option.bind_some,
      run_accept_of_ne hhead, Bool.false_eq_true, if_false, hitems]
    rfl

/-! ## Conditions -/

namespace Condition

/-- A condition over its placeholders. -/
abbrev placeholders (c : Condition ℕ ℕ) : Condition String String :=
  c.map Placeholder.name Placeholder.value

/-- How deep conditions nest in a condition, itself included. -/
def depth : Condition ℕ ℕ → ℕ
  | .logical _ left right => max left.depth right.depth + 1
  | .not inner => inner.depth + 1
  | _ => 1

/-- Whether no part of the condition is a condition. -/
def isLeaf : Condition ℕ ℕ → Bool
  | .logical _ _ _ | .not _ => false
  | _ => true

/-- A leaf begins with a word that begins neither a nested condition nor a negation. -/
private theorem tokens_of_isLeaf {c : Condition ℕ ℕ} (h : c.isLeaf = true) :
    ∃ first others, c.tokens = .word first :: others ∧ first ≠ "NOT" := by
  cases c with
  | compare left op right =>
    obtain ⟨first, others, htokens, hword, -⟩ := left.tokens_eq
    exact ⟨first, _, by rw [tokens, htokens]; rfl, hword.ne_not⟩
  | between value low high =>
    obtain ⟨first, others, htokens, hword, -⟩ := value.tokens_eq
    exact ⟨first, _, by rw [tokens, htokens]; rfl, hword.ne_not⟩
  | among value candidates =>
    obtain ⟨first, others, htokens, hword, -⟩ := value.tokens_eq
    exact ⟨first, _, by rw [tokens, htokens]; rfl, hword.ne_not⟩
  | function name arguments =>
    exact ⟨Named.name name, _, rfl, by cases name <;> decide⟩
  | logical | not => simp [isLeaf] at h

/-- No condition begins with the word of a negation; the bracket before it comes first. -/
private theorem head?_tokens (c : Condition ℕ ℕ) (rest : List Token) :
    (c.tokens ++ rest).head? ≠ some (.word "NOT") := by
  cases hleaf : c.isLeaf with
  | true =>
    obtain ⟨first, others, htokens, hne⟩ := tokens_of_isLeaf hleaf
    simpa [htokens] using hne
  | false =>
    cases c with
    | logical op left right => simp [tokens]
    | not inner => simp [tokens]
    | compare | between | among | function => simp [isLeaf] at hleaf

private theorem run_leafReader {c : Condition ℕ ℕ} (h : c.isLeaf = true) (rest : List Token) :
    leafReader.run (c.tokens ++ rest) = some (c.placeholders, rest) := by
  cases c with
  | compare left op right =>
    obtain ⟨first, others, htokens, hword, hread⟩ := left.tokens_eq
    have hbetween : Named.name op ≠ "BETWEEN" := by cases op <;> decide
    have hin : Named.name op ≠ "IN" := by cases op <;> decide
    simp [leafReader, tokens, htokens, hword.no_function, hread, hbetween, hin,
      Named.ofName?_name, placeholders, map]
  | between value low high =>
    obtain ⟨first, others, htokens, hword, hread⟩ := value.tokens_eq
    simp [leafReader, tokens, htokens, hword.no_function, hread, placeholders, map]
  | among value candidates =>
    obtain ⟨first, others, htokens, hword, hread⟩ := value.tokens_eq
    simp [leafReader, tokens, htokens, hword.no_function, hread, placeholders, map]
  | function name arguments =>
    simp [leafReader, tokens, callTokens, Named.ofName?_name, placeholders, map]
  | logical | not => simp [isLeaf] at h

theorem run_readerUpTo (c : Condition ℕ ℕ) {bound : ℕ} (h : c.depth ≤ bound)
    (rest : List Token) :
    (readerUpTo bound).run (c.tokens ++ rest) = some (c.placeholders, rest) := by
  have hleaf {c : Condition ℕ ℕ} (hc : c.isLeaf = true) {bound : ℕ} (hpos : 1 ≤ bound)
      (rest : List Token) :
      (readerUpTo bound).run (c.tokens ++ rest) = some (c.placeholders, rest) := by
    obtain ⟨bound, rfl⟩ := Nat.exists_eq_add_of_le' hpos
    obtain ⟨first, others, htokens, -⟩ := tokens_of_isLeaf hc
    have hhead : (c.tokens ++ rest).head? ≠ some .opening := by simp [htokens]
    simp [readerUpTo, run_accept_of_ne hhead, run_leafReader hc]
  -- a parenthesis opens every other condition, so its first token tells it from these four
  induction c generalizing bound rest with
  | compare | between | among | function => exact hleaf rfl h rest
  | logical op left right ihl ihr =>
    obtain ⟨bound, rfl⟩ := Nat.exists_eq_add_of_le' (Nat.le_trans (Nat.le_add_left 1 _) h)
    simp only [depth, Nat.add_le_add_iff_right, Nat.max_le] at h
    have htokens : (logical op left right).tokens ++ rest = .opening ::
        (left.tokens ++ .word (Named.name op) :: (right.tokens ++ .closing :: rest)) := by
      simp [tokens]
    have hhead := head?_tokens left (.word (Named.name op) :: (right.tokens ++ .closing :: rest))
    rw [htokens]
    simp [readerUpTo, run_accept_of_ne hhead, ihl h.1, ihr h.2, Named.ofName?_name, placeholders,
      map]
  | not inner ih =>
    obtain ⟨bound, rfl⟩ := Nat.exists_eq_add_of_le' (Nat.le_trans (Nat.le_add_left 1 _) h)
    simp only [depth, Nat.add_le_add_iff_right] at h
    simp [readerUpTo, tokens, ih h, placeholders, map]

/-- Every nested condition has tokens of its own. -/
private theorem depth_le (c : Condition ℕ ℕ) : c.depth ≤ c.tokens.length + 1 := by
  induction c with
  | compare | between | among | function => simp [depth]
  | logical op left right ihl ihr =>
    simp only [depth, tokens, List.length_append, List.length_cons]
    omega
  | not inner ih =>
    simp only [depth, tokens, List.length_append, List.length_cons]
    omega

/-- A written condition is read back over its placeholders. -/
theorem readText_expression (c : Condition ℕ ℕ) :
    readText reader c.expression = some c.placeholders := by
  refine readText_eq c.scans ?_
  have hread := run_readerUpTo c c.depth_le []
  rw [List.append_nil] at hread
  exact hread

end Condition

/-! ## Updates -/

namespace SetValue

/-- A value over its placeholders. -/
abbrev placeholders (v : SetValue ℕ ℕ) : SetValue String String :=
  v.map Placeholder.name Placeholder.value

/-- How often a reader starts a term in the value. -/
def terms : SetValue ℕ ℕ → ℕ
  | .operand _ => 1
  | .plus left right | .minus left right => left.terms + right.terms
  | .ifNotExists _ value => value.terms + 1
  | .listAppend left right => left.terms + right.terms + 1

/-- What a reader does behind a value: it goes on if a sign comes next. -/
private def goOn (bound : ℕ) (value : SetValue String String) :
    TokenReader (SetValue String String) := do
  if ← accept (.word "+") then readerUpTo bound (.plus value)
  else if ← accept (.word "-") then readerUpTo bound (.minus value)
  else return value

/-- What follows a value does not continue it. -/
def Ends (rest : List Token) : Prop :=
  rest.head? ≠ some (.word "+") ∧ rest.head? ≠ some (.word "-")

private theorem run_goOn {rest : List Token} (h : Ends rest) (bound : ℕ)
    (value : SetValue String String) : (goOn bound value).run rest = some (value, rest) := by
  simp [goOn, run_accept_of_ne h.1, run_accept_of_ne h.2]

private theorem run_goOn_plus (bound : ℕ) (value : SetValue String String) (rest : List Token) :
    (goOn bound value).run (.word "+" :: rest) = (readerUpTo bound (.plus value)).run rest := by
  simp [goOn]

private theorem run_goOn_minus (bound : ℕ) (value : SetValue String String) (rest : List Token) :
    (goOn bound value).run (.word "-" :: rest) = (readerUpTo bound (.minus value)).run rest := by
  have hne : (.word "-" :: rest).head? ≠ some (.word "+") := by simp
  simp [goOn, run_accept_of_ne hne]

/-- A value is read to the left, behind what stands before it. -/
theorem run_readerUpTo (v : SetValue ℕ ℕ) (bound : ℕ)
    (join : SetValue String String → SetValue String String) (rest : List Token) :
    ∃ bound' ≥ bound, (readerUpTo (v.terms + bound) join).run (v.tokens ++ rest) =
      (goOn bound' (v.placeholders.onto join)).run rest := by
  -- `join` is generalized, since the right operand of a sign is read behind the left one; the bound
  -- only has to last, so each case gives back one that is no smaller
  induction v generalizing bound join rest with
  | operand source =>
    obtain ⟨first, others, htokens, hword, hread⟩ := source.tokens_eq
    refine ⟨bound, Nat.le_refl bound, ?_⟩
    rw [terms, Nat.add_comm, readerUpTo]
    simp [tokens, htokens, hword.ne_ifNotExists, hword.ne_listAppend, hread, placeholders, map,
      onto, goOn]
  | plus left right ihl ihr =>
    obtain ⟨between, hbetween, hleft⟩ :=
      ihl (right.terms + bound) join (.word "+" :: (right.tokens ++ rest))
    obtain ⟨more, rfl⟩ := Nat.exists_eq_add_of_le hbetween
    obtain ⟨bound', hbound', hright⟩ :=
      ihr (bound + more) (.plus (left.placeholders.onto join)) rest
    refine ⟨bound', Nat.le_trans (Nat.le_add_right _ _) hbound', ?_⟩
    rw [terms, tokens, List.append_assoc, Nat.add_assoc, List.cons_append, hleft, run_goOn_plus,
      Nat.add_assoc]
    exact hright
  | minus left right ihl ihr =>
    obtain ⟨between, hbetween, hleft⟩ :=
      ihl (right.terms + bound) join (.word "-" :: (right.tokens ++ rest))
    obtain ⟨more, rfl⟩ := Nat.exists_eq_add_of_le hbetween
    obtain ⟨bound', hbound', hright⟩ :=
      ihr (bound + more) (.minus (left.placeholders.onto join)) rest
    refine ⟨bound', Nat.le_trans (Nat.le_add_right _ _) hbound', ?_⟩
    rw [terms, tokens, List.append_assoc, Nat.add_assoc, List.cons_append, hleft, run_goOn_minus,
      Nat.add_assoc]
    exact hright
  | ifNotExists path value ih =>
    have hends : Ends (.closing :: rest) := ⟨by simp, by simp⟩
    obtain ⟨bound', -, hvalue⟩ := ih bound id (.closing :: rest)
    rw [run_goOn hends] at hvalue
    refine ⟨value.terms + bound, Nat.le_add_left _ _, ?_⟩
    rw [terms, Nat.add_right_comm, readerUpTo]
    simp [tokens, callTokens, Token.separated, hvalue, placeholders, map, onto, goOn]
  | listAppend left right ihl ihr =>
    have hcomma : Ends (.comma :: (right.tokens ++ .closing :: rest)) := ⟨by simp, by simp⟩
    have hclosing : Ends (.closing :: rest) := ⟨by simp, by simp⟩
    obtain ⟨bound', -, hleft⟩ := ihl (right.terms + bound) id _
    obtain ⟨bound'', -, hright⟩ := ihr (left.terms + bound) id _
    rw [run_goOn hcomma, ← Nat.add_assoc] at hleft
    rw [run_goOn hclosing, Nat.add_left_comm, ← Nat.add_assoc] at hright
    refine ⟨left.terms + right.terms + bound, Nat.le_add_left _ _, ?_⟩
    rw [terms, Nat.add_right_comm, readerUpTo]
    simp [tokens, callTokens, Token.separated, hleft, hright, placeholders, map, onto, goOn]

/-- Every term has a token of its own. -/
private theorem terms_le (v : SetValue ℕ ℕ) : v.terms ≤ v.tokens.length := by
  induction v with
  | operand source =>
    obtain ⟨first, others, htokens, -⟩ := source.tokens_eq
    simp [terms, tokens, htokens]
  | plus left right ihl ihr | minus left right ihl ihr =>
    simp only [terms, tokens, List.length_append, List.length_cons]
    omega
  | ifNotExists path value ih =>
    simp [terms, tokens, callTokens, Token.separated]
    omega
  | listAppend left right ihl ihr =>
    simp [terms, tokens, callTokens, Token.separated]
    omega

/-- A written value is read back grouped to the left. -/
theorem run_reader (v : SetValue ℕ ℕ) {rest : List Token} (h : Ends rest) :
    SetValue.reader.run (v.tokens ++ rest) = some (v.placeholders.leftGrouped, rest) := by
  have hlength : v.terms ≤ (v.tokens ++ rest).length + 1 := by
    have hterms := v.terms_le
    rw [List.length_append]
    omega
  obtain ⟨bound, hbound⟩ := Nat.exists_eq_add_of_le hlength
  obtain ⟨bound', -, hread⟩ := run_readerUpTo v bound id rest
  rw [run_goOn h, ← hbound] at hread
  exact hread

end SetValue

namespace UpdateAction

/-- An action over its placeholders. -/
abbrev placeholders (a : UpdateAction ℕ ℕ) : UpdateAction String String :=
  a.map Placeholder.name Placeholder.value

/-- An action is read in its own clause, with its value grouped to the left. -/
private theorem run_readerIn (a : UpdateAction ℕ ℕ) {rest : List Token}
    (h : SetValue.Ends rest) :
    (readerIn a.clause).run (a.tokens ++ rest) = some (a.placeholders.leftGrouped, rest) := by
  cases a with
  | set path value => simp [readerIn, tokens, clause, SetValue.run_reader value h, leftGrouped, map]
  | remove path | add path value | delete path value =>
    simp [readerIn, tokens, clause, leftGrouped, map]

/-- What may stand behind a clause: the end or another clause. -/
private def EndsClause (rest : List Token) : Prop :=
  SetValue.Ends rest ∧ rest.head? ≠ some .comma

private theorem run_clauseReader (actions : List (UpdateAction ℕ ℕ)) (clause : Clause)
    {rest : List Token} (hends : EndsClause rest)
    (hnext : rest.head? ≠ some (.word (Named.name clause))) :
    (clauseReader clause).run (clauseTokens actions clause ++ rest) =
      some ((inClause clause actions).map fun a ↦ a.placeholders.leftGrouped, rest) := by
  cases hown : inClause clause actions with
  | nil => simp [clauseReader, clauseTokens, hown, run_accept_of_ne hnext]
  | cons a as =>
    have hitem : ∀ b ∈ a :: as, ∀ rest, SetValue.Ends rest →
        (readerIn clause).run (b.tokens ++ rest) = some (b.placeholders.leftGrouped, rest) := by
      intro b hb rest hrest
      rw [← hown, inClause, List.mem_filter, decide_eq_true_eq] at hb
      rw [← hb.2]
      exact run_readerIn b hrest
    have hitems := run_separated (fun _ ↦ ⟨by simp, by simp⟩) hends.1 hends.2
      (List.cons_ne_nil a as) hitem
    rw [List.map_cons, List.map_cons] at hitems
    simp [clauseReader, clauseTokens, hown, hitems]

/-- The first token of clauses is the word of one of them. -/
private theorem head?_clauses (actions : List (UpdateAction ℕ ℕ)) (clauses : List Clause)
    (t : Token) (h : (clauses.flatMap (clauseTokens actions)).head? = some t) :
    ∃ clause ∈ clauses, t = .word (Named.name clause) := by
  induction clauses with
  | nil => simp at h
  | cons clause clauses ih =>
    rw [List.flatMap_cons, clauseTokens] at h
    split at h
    · obtain ⟨other, hother, rfl⟩ := ih (by simpa using h)
      exact ⟨other, List.mem_cons_of_mem _ hother, rfl⟩
    · exact ⟨clause, List.mem_cons_self, by simpa using h.symm⟩

/-- The clauses of an update are read back one after another. -/
private theorem run_mapM_clauseReader (actions : List (UpdateAction ℕ ℕ)) {clauses : List Clause}
    (h : clauses.Nodup) :
    (clauses.mapM clauseReader).run (clauses.flatMap (clauseTokens actions)) =
      some (clauses.map fun clause ↦
        (inClause clause actions).map fun a ↦ a.placeholders.leftGrouped, []) := by
  induction clauses with
  | nil => rfl
  | cons clause clauses ih =>
    obtain ⟨hnotin, hnodup⟩ := List.nodup_cons.mp h
    have hword {t : Token}
        (ht : (clauses.flatMap (clauseTokens actions)).head? = some t) :
        t ≠ .word "+" ∧ t ≠ .word "-" ∧ t ≠ .comma ∧ t ≠ .word (Named.name clause) := by
      obtain ⟨other, hother, rfl⟩ := head?_clauses actions clauses t ht
      refine ⟨?_, ?_, by simp, fun heq ↦ ?_⟩
      · cases other <;> decide
      · cases other <;> decide
      · have hclause := Named.name_injective _ _ (Token.word.inj heq)
        exact hnotin (hclause ▸ hother)
    have hown := run_clauseReader actions clause
      ⟨⟨fun ht ↦ (hword ht).1 rfl, fun ht ↦ (hword ht).2.1 rfl⟩, fun ht ↦ (hword ht).2.2.1 rfl⟩
      fun ht ↦ (hword ht).2.2.2 rfl
    simp [List.mapM_cons, hown, ih hnodup]

/-- A written update is read back clause by clause, with its values grouped to the left. -/
theorem readText_updateText (actions : List (UpdateAction ℕ ℕ)) :
    readText reader (updateText actions) =
      some ((byClause actions).map fun a ↦ a.placeholders.leftGrouped) := by
  refine readText_eq (scans_updateText actions) ?_
  have hread : ((Named.all : List Clause).mapM clauseReader).run _ = _ :=
    run_mapM_clauseReader actions (by decide)
  simp only [reader, StateT.run_map, hread]
  simp [byClause, List.flatMap_def, List.map_flatten, Function.comp_def]

end UpdateAction

/-! ## Projections -/

/-- Written paths are read back over their placeholders. -/
theorem Path.readText_commaSeparated (paths : List (Path ℕ)) :
    readText Path.listReader (commaSeparated (paths.map Path.expression)) =
      some (paths.map Path.placeholders) := by
  refine readText_eq (scans_projection paths) ?_
  cases paths with
  | nil => rfl
  | cons path paths =>
    have hitems : (separated Path.reader).run
        (Token.separated ((path :: paths).map fun p ↦ [.word p.expression]) ++ []) =
        some ((path :: paths).map Path.placeholders, []) :=
      run_separated (fun _ ↦ trivial) trivial (by simp) (List.cons_ne_nil path paths)
        fun p _ rest (_ : True) ↦ Path.run_reader p rest
    have hne : Token.separated ((path :: paths).map fun p ↦ [.word p.expression]) ≠ [] := by
      cases paths <;> simp [Token.separated, List.intercalate_cons_cons]
    rw [List.append_nil] at hitems
    simp only [listReader, StateT.run_bind, StateT.run_get, Option.pure_def, Option.bind_eq_bind,
      Option.bind_some, List.isEmpty_eq_false_iff.mpr hne, Bool.false_eq_true, if_false]
    exact hitems

end TableClient
