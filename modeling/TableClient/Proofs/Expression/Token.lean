import Mathlib.Data.List.Forall2
import TableClient.Expression.Text
import TableClient.Proofs.Expression.PathText

/-!
# The tokens of an expression

Spaces, brackets and commas cut an expression into tokens; a path with its points and indexes is one
word. Each kind of numbered tree has its tokens here, and its written form is cut into exactly these
(`Scans`). A word ends only where a space or a mark follows, so a statement about a text is about
every continuation that begins with one (`Breaks`). A text that ends in a space or a mark asks
nothing of what follows (`Opens`).
-/

namespace TableClient

/-- A piece of an expression. -/
inductive Token where
  /-- Characters that are neither spaces nor marks. -/
  | word (text : String)
  | opening
  | closing
  | comma
deriving DecidableEq

namespace Token

/-- The mark that a character is. -/
def mark? : Char → Option Token
  | '(' => some .opening
  | ')' => some .closing
  | ',' => some .comma
  | _ => none

/-- Whether a word ends before the character. -/
def separates (c : Char) : Bool :=
  c = ' ' || (mark? c).isSome

/-- The word of these characters, if there are any. -/
def ofPending (pending : List Char) : List Token :=
  if pending.isEmpty then [] else [.word (String.ofList pending)]

/-- The tokens of the characters of a word that began earlier and of what follows. -/
def scan (pending : List Char) : List Char → List Token
  | [] => ofPending pending
  | c :: cs =>
    if c = ' ' then ofPending pending ++ scan [] cs
    else match mark? c with
      | some mark => ofPending pending ++ mark :: scan [] cs
      | none => scan (pending ++ [c]) cs

/-- The tokens of a text. -/
def ofText (text : String) : List Token :=
  scan [] text.toList

/-- The tokens of items with a comma between them. -/
def separated (items : List (List Token)) : List Token :=
  [.comma].intercalate items

end Token

open Token

/-! ## Texts with known tokens -/

/-- A word that stands before these characters ends there. -/
def Breaks (rest : List Char) : Prop :=
  ∀ c ∈ rest.head?, separates c = true

/-- The text has these tokens wherever a word may end behind it. -/
def Scans (text : String) (ts : List Token) : Prop :=
  ∀ rest, Breaks rest → scan [] (text.toList ++ rest) = ts ++ scan [] rest

/-- The text has these tokens whatever follows. -/
def Opens (text : String) (ts : List Token) : Prop :=
  ∀ rest, scan [] (text.toList ++ rest) = ts ++ scan [] rest

/-- The text has these tokens whatever stands around it. -/
structure Parts (text : String) (ts : List Token) : Prop where
  opens : Opens text ts
  breaks : ∀ rest, Breaks (text.toList ++ rest)

theorem Scans.ofText_eq {text : String} {ts : List Token} (h : Scans text ts) :
    Token.ofText text = ts := by
  have hscan := h [] (by simp [Breaks])
  simpa [Token.ofText, scan, ofPending] using hscan

theorem Scans.empty : Scans "" [] :=
  fun _ _ ↦ rfl

theorem Opens.append {text text' : String} {ts ts' : List Token} (h : Opens text ts)
    (h' : Scans text' ts') : Scans (text ++ text') (ts ++ ts') := by
  intro rest hrest
  rw [String.toList_append, List.append_assoc, h, h' rest hrest, List.append_assoc]

theorem Scans.append {text part text' : String} {ts us ts' : List Token} (h : Scans text ts)
    (hpart : Parts part us) (h' : Scans text' ts') :
    Scans (text ++ part ++ text') (ts ++ us ++ ts') := by
  have hopens : Opens (text ++ part) (ts ++ us) := by
    intro rest
    rw [String.toList_append, List.append_assoc, h _ (hpart.breaks rest), hpart.opens,
      List.append_assoc]
  exact hopens.append h'

theorem Scans.close {text part : String} {ts us : List Token} (h : Scans text ts)
    (hpart : Parts part us) : Scans (text ++ part) (ts ++ us) := by
  have happend := h.append hpart .empty
  rwa [List.append_nil, String.append_empty] at happend

/-! ## Words -/

/-- A word that is about to end. -/
private theorem scan_of_breaks (pending : List Char) {rest : List Char} (h : Breaks rest) :
    scan pending rest = ofPending pending ++ scan [] rest := by
  cases rest with
  | nil => simp [scan, ofPending]
  | cons c cs =>
    have hc : separates c = true := h c rfl
    simp only [scan]
    split
    · simp [ofPending]
    · next hspace =>
      obtain ⟨mark, hmark⟩ := Option.isSome_iff_exists.mp (by simpa [separates, hspace] using hc)
      simp [hmark, ofPending]

private theorem scan_append (pending : List Char) {cs rest : List Char}
    (hcs : ∀ c ∈ cs, separates c = false) (h : Breaks rest) :
    scan pending (cs ++ rest) = ofPending (pending ++ cs) ++ scan [] rest := by
  induction cs generalizing pending with
  | nil => simpa using scan_of_breaks pending h
  | cons c cs ih =>
    have hc : c ≠ ' ' ∧ mark? c = none := by simpa [separates] using hcs c List.mem_cons_self
    rw [List.cons_append, scan, if_neg hc.1, hc.2,
      ih (pending ++ [c]) fun d hd ↦ hcs d (List.mem_cons_of_mem _ hd), List.append_assoc]
    rfl

/-- A text is one word if nothing in it separates words. -/
theorem scans_word {text : String} (hne : text.toList ≠ [])
    (h : ∀ c ∈ text.toList, separates c = false) : Scans text [.word text] := by
  intro rest hrest
  have hpending : ofPending text.toList = [.word text] := by
    simp [ofPending, hne]
  rw [scan_append [] h hrest, List.nil_append, hpending]

/-- The same for a fixed text, where both can be decided. -/
theorem scans_keyword {text : String} (hne : text.toList ≠ [])
    (h : text.toList.any separates = false) : Scans text [.word text] := by
  refine scans_word hne fun c hc ↦ ?_
  rw [← Bool.not_eq_true]
  exact List.any_eq_false.mp h c hc

theorem scans_compareOp (op : CompareOp) : Scans (Named.name op) [.word (Named.name op)] := by
  cases op <;> exact scans_keyword (by decide) (by decide)

theorem scans_logicalOp (op : LogicalOp) : Scans (Named.name op) [.word (Named.name op)] := by
  cases op <;> exact scans_keyword (by decide) (by decide)

theorem scans_functionName (name : FunctionName) :
    Scans (Named.name name) [.word (Named.name name)] := by
  cases name <;> exact scans_keyword (by decide) (by decide)

theorem scans_clause (clause : Clause) :
    Scans (Named.name clause) [.word (Named.name clause)] := by
  cases clause <;> exact scans_keyword (by decide) (by decide)

/-! ## Separators -/

theorem parts_space : Parts " " [] :=
  ⟨fun _ ↦ rfl, fun _ ↦ by simp [Breaks, separates]⟩

theorem parts_comma : Parts ", " [.comma] :=
  ⟨fun _ ↦ rfl, fun _ ↦ by simp [Breaks, separates, mark?]⟩

theorem parts_opening : Parts " (" [.opening] :=
  ⟨fun _ ↦ rfl, fun _ ↦ by simp [Breaks, separates]⟩

theorem parts_closing : Parts ")" [.closing] :=
  ⟨fun _ ↦ rfl, fun _ ↦ by simp [Breaks, separates, mark?]⟩

theorem scans_commaSeparated {texts : List String} {tokens : List (List Token)}
    (h : List.Forall₂ Scans texts tokens) : Scans (commaSeparated texts) (separated tokens) := by
  induction h with
  | nil => exact .empty
  | cons htext htexts ih =>
    cases htexts with
    | nil => simpa [commaSeparated, separated] using htext
    | cons htext' htexts =>
      have happend := htext.append parts_comma ih
      simpa [commaSeparated, separated, String.intercalate_cons_cons,
        List.intercalate_cons_cons] using happend

/-- The written forms of the items of a list have the tokens of these items. -/
theorem forall₂_scans {α : Type} {text : α → String} {tokens : α → List Token}
    (h : ∀ item, Scans (text item) (tokens item)) (items : List α) :
    List.Forall₂ Scans (items.map text) (items.map tokens) := by
  rw [List.forall₂_map_left_iff, List.forall₂_map_right_iff]
  exact List.forall₂_same.mpr fun item _ ↦ h item

/-- The tokens of a function with its arguments. -/
def callTokens (name : String) (arguments : List (List Token)) : List Token :=
  .word name :: .opening :: separated arguments ++ [.closing]

theorem scans_functionCall {name : String} {texts : List String} {tokens : List (List Token)}
    (hname : Scans name [.word name]) (h : List.Forall₂ Scans texts tokens) :
    Scans (functionCall name texts) (callTokens name tokens) :=
  (hname.append parts_opening (scans_commaSeparated h)).close parts_closing

/-! ## Placeholders and paths -/

private theorem separates_digit {n : ℕ} {c : Char} (h : c ∈ (toString n).toList) :
    separates c = false := by
  have hdigit := Decimal.isDigit_of_mem_toString h
  have hspace : c ≠ ' ' := Decimal.ne_of_isDigit hdigit rfl
  have hmark : mark? c = none := by
    unfold mark?
    split <;> simp_all [Decimal.isDigit]
  simp [separates, hspace, hmark]

theorem isPlainName_name (n : ℕ) : IsPlainName (Placeholder.name n) := by
  have hne {d : Char} (hd : Decimal.isDigit d = false) (hsharp : d ≠ '#') :
      ∀ c ∈ (Placeholder.name n).toList, c ≠ d := by
    intro c hc
    rw [Placeholder.name, String.toList_append] at hc
    rcases List.mem_append.mp hc with hc | hc
    · rw [List.mem_singleton.mp hc]
      exact hsharp.symm
    · exact Decimal.ne_of_isDigit (Decimal.isDigit_of_mem_toString hc) hd
  exact ⟨by simp [Placeholder.name], hne rfl (by decide), hne rfl (by decide), hne rfl (by decide)⟩

private theorem separates_of_mem_name {n : ℕ} {c : Char} (h : c ∈ (Placeholder.name n).toList) :
    separates c = false := by
  rw [Placeholder.name, String.toList_append] at h
  rcases List.mem_append.mp h with h | h
  · rw [List.mem_singleton.mp h]
    rfl
  · exact separates_digit h

private theorem separates_of_mem_stepText {step : PathElement ℕ} {c : Char}
    (h : c ∈ (Path.stepText Placeholder.name step).toList) : separates c = false := by
  cases step with
  | key n =>
    rw [Path.stepText, String.toList_append] at h
    rcases List.mem_append.mp h with h | h
    · rw [List.mem_singleton.mp h]
      rfl
    · exact separates_of_mem_name h
  | index position =>
    simp only [Path.stepText, String.toList_append, List.mem_append] at h
    rcases h with (h | h) | h
    · rw [List.mem_singleton.mp h]
      rfl
    · exact separates_digit h
    · rw [List.mem_singleton.mp h]
      rfl

theorem scans_path (p : Path ℕ) : Scans p.expression [.word p.expression] := by
  refine scans_word ?_ fun c hc ↦ ?_
  · simp [Path.expression, Path.textWith, Placeholder.name]
  · rw [Path.expression, Path.textWith, String.toList_append, List.mem_append] at hc
    rcases hc with hc | hc
    · exact separates_of_mem_name hc
    · rw [String.toList_join, List.mem_flatMap] at hc
      obtain ⟨text, htext, hc⟩ := hc
      obtain ⟨step, -, rfl⟩ := List.mem_map.mp htext
      exact separates_of_mem_stepText hc

theorem scans_value (n : ℕ) : Scans (Placeholder.value n) [.word (Placeholder.value n)] := by
  refine scans_word (by simp [Placeholder.value]) fun c hc ↦ ?_
  rw [Placeholder.value, String.toList_append] at hc
  rcases List.mem_append.mp hc with hc | hc
  · rw [List.mem_singleton.mp hc]
    rfl
  · exact separates_digit hc

/-! ## Tokens of trees -/

/-- The tokens of a written operand. -/
def Operand.tokens : Operand ℕ ℕ → List Token
  | .literal n => [.word (Placeholder.value n)]
  | .reference path => [.word path.expression]
  | .size path => callTokens "size" [[.word path.expression]]

/-- The tokens of a written condition. -/
def Condition.tokens : Condition ℕ ℕ → List Token
  | .compare left op right => left.tokens ++ .word (Named.name op) :: right.tokens
  | .between value low high =>
    value.tokens ++ .word "BETWEEN" :: low.tokens ++ .word "AND" :: high.tokens
  | .among value candidates =>
    value.tokens ++ .word "IN" :: .opening :: separated (candidates.map Operand.tokens) ++
      [.closing]
  | .function name arguments =>
    callTokens (Named.name name) (arguments.map Operand.tokens)
  | .logical op left right =>
    .opening :: left.tokens ++ .word (Named.name op) :: right.tokens ++ [.closing]
  | .not inner => .opening :: .word "NOT" :: inner.tokens ++ [.closing]

/-- The tokens of a written value. -/
def SetValue.tokens : SetValue ℕ ℕ → List Token
  | .operand source => source.tokens
  | .plus left right => left.tokens ++ .word "+" :: right.tokens
  | .minus left right => left.tokens ++ .word "-" :: right.tokens
  | .ifNotExists path value =>
    callTokens "if_not_exists" [[.word path.expression], value.tokens]
  | .listAppend left right => callTokens "list_append" [left.tokens, right.tokens]

/-- The tokens of an action written in its clause. -/
def UpdateAction.tokens : UpdateAction ℕ ℕ → List Token
  | .set path value => .word path.expression :: .word "=" :: value.tokens
  | .remove path => [.word path.expression]
  | .add path value | .delete path value => [.word path.expression, .word (Placeholder.value value)]

/-- The tokens of a clause, if it has actions. -/
def UpdateAction.clauseTokens (actions : List (UpdateAction ℕ ℕ)) (clause : Clause) : List Token :=
  match inClause clause actions with
  | [] => []
  | own => .word (Named.name clause) :: separated (own.map UpdateAction.tokens)

theorem Operand.scans : ∀ o : Operand ℕ ℕ, Scans o.expression o.tokens
  | .literal n => scans_value n
  | .reference path => scans_path path
  | .size path =>
    scans_functionCall (scans_keyword (by decide) (by decide)) (.cons (scans_path path) .nil)

theorem Condition.scans (c : Condition ℕ ℕ) : Scans c.expression c.tokens := by
  induction c with
  | compare left op right =>
    have hop := left.scans.append parts_space (scans_compareOp op)
    simpa [expression, tokens] using hop.append parts_space right.scans
  | between value low high =>
    have hbetween : Parts " BETWEEN " [.word "BETWEEN"] :=
      ⟨fun _ ↦ rfl, fun _ ↦ by simp [Breaks, separates]⟩
    have hand : Parts " AND " [.word "AND"] :=
      ⟨fun _ ↦ rfl, fun _ ↦ by simp [Breaks, separates]⟩
    have hlow := value.scans.append hbetween low.scans
    simpa [expression, tokens] using hlow.append hand high.scans
  | among value candidates =>
    have hin : Parts " IN (" [.word "IN", .opening] :=
      ⟨fun _ ↦ rfl, fun _ ↦ by simp [Breaks, separates]⟩
    have hlist := scans_commaSeparated (forall₂_scans Operand.scans candidates)
    simpa [expression, tokens] using (value.scans.append hin hlist).close parts_closing
  | function name arguments =>
    rw [expression, tokens]
    exact scans_functionCall (scans_functionName name) (forall₂_scans Operand.scans arguments)
  | logical op left right ihl ihr =>
    have hopen : Opens "(" [.opening] := fun _ ↦ rfl
    have hop := (hopen.append ihl).append parts_space (scans_logicalOp op)
    simpa [expression, tokens] using (hop.append parts_space ihr).close parts_closing
  | not inner ih =>
    have hopen : Opens "(NOT " [.opening, .word "NOT"] := fun _ ↦ rfl
    simpa [expression, tokens] using (hopen.append ih).close parts_closing

theorem SetValue.scans (v : SetValue ℕ ℕ) : Scans v.expression v.tokens := by
  induction v with
  | operand source =>
    rw [expression, tokens]
    exact source.scans
  | plus left right ihl ihr =>
    have hplus : Parts " + " [.word "+"] :=
      ⟨fun _ ↦ rfl, fun _ ↦ by simp [Breaks, separates]⟩
    simpa [expression, tokens] using ihl.append hplus ihr
  | minus left right ihl ihr =>
    have hminus : Parts " - " [.word "-"] :=
      ⟨fun _ ↦ rfl, fun _ ↦ by simp [Breaks, separates]⟩
    simpa [expression, tokens] using ihl.append hminus ihr
  | ifNotExists path value ih =>
    have hname : Scans "if_not_exists" [.word "if_not_exists"] :=
      scans_keyword (by decide) (by decide)
    simpa [expression, tokens] using
      scans_functionCall hname (.cons (scans_path path) (.cons ih .nil))
  | listAppend left right ihl ihr =>
    have hname : Scans "list_append" [.word "list_append"] := scans_keyword (by decide) (by decide)
    simpa [expression, tokens] using scans_functionCall hname (.cons ihl (.cons ihr .nil))

namespace UpdateAction

theorem scans (a : UpdateAction ℕ ℕ) : Scans a.expression a.tokens := by
  cases a with
  | set path value =>
    have hequals : Parts " = " [.word "="] :=
      ⟨fun _ ↦ rfl, fun _ ↦ by simp [Breaks, separates]⟩
    simpa [expression, tokens] using (scans_path path).append hequals value.scans
  | remove path => exact scans_path path
  | add path value | delete path value =>
    simpa [expression, tokens] using (scans_path path).append parts_space (scans_value value)

private theorem scans_clauseText? {actions : List (UpdateAction ℕ ℕ)} {clause : Clause}
    {text : String} (h : clauseText? actions clause = some text) :
    Scans text (clauseTokens actions clause) := by
  rw [clauseText?] at h
  rw [clauseTokens]
  split at h
  · cases h
  · obtain rfl := Option.some.inj h
    have hlist := scans_commaSeparated (forall₂_scans scans (inClause clause actions))
    have hclause := (scans_clause clause).append parts_space hlist
    simpa using hclause

private theorem clauseTokens_eq_nil {actions : List (UpdateAction ℕ ℕ)} {clause : Clause}
    (h : clauseText? actions clause = none) : clauseTokens actions clause = [] := by
  rw [clauseText?] at h
  split at h
  · next hnil => rw [clauseTokens, hnil]
  · cases h

/-- The tokens of a written update are those of its clauses, one after another. -/
theorem scans_updateText (actions : List (UpdateAction ℕ ℕ)) :
    Scans (updateText actions) ((Named.all : List Clause).flatMap (clauseTokens actions)) := by
  rw [updateText]
  induction (Named.all : List Clause) with
  | nil => exact .empty
  | cons clause clauses ih =>
    rw [List.flatMap_cons]
    cases hclause : clauseText? actions clause with
    | none =>
      rw [List.filterMap_cons_none hclause, clauseTokens_eq_nil hclause]
      exact ih
    | some text =>
      have htext := scans_clauseText? hclause
      rw [List.filterMap_cons_some hclause]
      rcases hrest : clauses.filterMap (clauseText? actions) with _ | ⟨text', texts⟩
      · rw [hrest] at ih
        rw [← show Token.ofText "" = clauses.flatMap (clauseTokens actions) from ih.ofText_eq]
        simpa [Token.ofText, scan, ofPending] using htext
      · rw [hrest] at ih
        simpa [String.intercalate_cons_cons] using htext.append parts_space ih

end UpdateAction

theorem scans_projection (paths : List (Path ℕ)) :
    Scans (commaSeparated (paths.map Path.expression))
      (separated (paths.map fun p ↦ [.word p.expression])) :=
  scans_commaSeparated (forall₂_scans scans_path paths)

end TableClient
