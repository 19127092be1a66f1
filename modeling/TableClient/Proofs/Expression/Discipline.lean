import Mathlib.Data.List.TakeWhile
import TableClient.Expression.Compile
import TableClient.Proofs.Expression.Clauses
import TableClient.Proofs.Expression.KeyCondition
import TableClient.Proofs.Expression.PlaceholderTable
import TableClient.Proofs.Expression.Token

/-!
# Placeholders in written expressions

The service refuses a request whose texts and dictionaries do not fit: every placeholder has to be
defined and every entry used. `Disciplined` is what requests satisfy, and it says more: literals
are numbered in the order in which their placeholders stand, and names in the order of their first
use.

The placeholders of a text are found by their marks alone, without reading the text as an
expression. A token has no mark or is an operand, so the placeholders of a written tree are those of
its operands, and these are what the numbering of the tree interned.
-/

namespace TableClient

open Token

/-! ## Finding placeholders -/

namespace Placeholder

/-- Each mark with the digits behind it. -/
def marked (mark : Char) : List Char → List String
  | [] => []
  | c :: cs =>
    if c = mark then String.ofList (c :: cs.takeWhile Decimal.isDigit) :: marked mark cs
    else marked mark cs

/-- The placeholders with this mark in a text, from left to right. -/
def occurrences (mark : Char) (text : String) : List String :=
  marked mark text.toList

theorem marked_eq_nil {mark : Char} {cs : List Char} (h : mark ∉ cs) : marked mark cs = [] := by
  induction cs with
  | nil => rfl
  | cons c cs ih =>
    obtain ⟨hc, hcs⟩ : mark ≠ c ∧ mark ∉ cs := by simpa using h
    rw [marked, if_neg (Ne.symm hc), ih hcs]

/-- Placeholders end where no digit follows. -/
theorem marked_append (mark : Char) (cs : List Char) {rest : List Char}
    (h : ∀ c ∈ rest.head?, Decimal.isDigit c = false) :
    marked mark (cs ++ rest) = marked mark cs ++ marked mark rest := by
  have hrest : rest.takeWhile Decimal.isDigit = [] := by
    cases rest with
    | nil => rfl
    | cons c rest => rw [List.takeWhile_cons, h c rfl, if_neg Bool.false_ne_true]
  induction cs with
  | nil => rfl
  | cons c cs ih =>
    have hdigits : (cs ++ rest).takeWhile Decimal.isDigit = cs.takeWhile Decimal.isDigit := by
      rw [List.takeWhile_append, hrest]
      split
      · next hall => rw [List.append_nil, (List.takeWhile_prefix _).eq_of_length hall]
      · rfl
    rw [List.cons_append, marked, marked, hdigits, ih]
    split <;> rfl

end Placeholder

open Placeholder

/-! ## Placeholders of tokens -/

/-- The placeholders with this mark in a token. -/
def Token.marked (mark : Char) : Token → List String
  | .word text => occurrences mark text
  | _ => []

/-- The two marks of placeholders. -/
def IsMark (mark : Char) : Prop :=
  mark = '#' ∨ mark = ':'

private theorem flatMap_marked_scan {mark : Char} (h : IsMark mark) (pending cs : List Char) :
    (scan pending cs).flatMap (Token.marked mark) = Placeholder.marked mark (pending ++ cs) := by
  have hpending (pending : List Char) :
      (ofPending pending).flatMap (Token.marked mark) = Placeholder.marked mark pending := by
    cases pending with
    | nil => rfl
    | cons c cs => simp [ofPending, Token.marked, occurrences]
  -- on the characters left; the word that began earlier is generalized, since a character that is
  -- no separator is added to it
  induction cs generalizing pending with
  | nil => rw [scan, hpending, List.append_nil]
  | cons c cs ih =>
    have hskip (hdigit : Decimal.isDigit c = false) (hmark : mark ≠ c) :
        Placeholder.marked mark (pending ++ c :: cs) =
          Placeholder.marked mark pending ++ Placeholder.marked mark cs := by
      rw [marked_append mark pending (by simpa using hdigit), Placeholder.marked,
        if_neg (Ne.symm hmark)]
    rw [scan]
    split
    · next hspace =>
      subst hspace
      rw [List.flatMap_append, hpending, ih, List.nil_append,
        hskip rfl (by rcases h with rfl | rfl <;> decide)]
    · split
      · next token htoken =>
        have hc : c = '(' ∨ c = ')' ∨ c = ',' := by
          unfold mark? at htoken
          split at htoken <;> simp_all
        have hnone : Token.marked mark token = [] := by
          rcases hc with rfl | rfl | rfl <;> · obtain rfl := Option.some.inj htoken; rfl
        rw [List.flatMap_append, List.flatMap_cons, hpending, hnone, ih, List.nil_append,
          List.nil_append, hskip (by rcases hc with rfl | rfl | rfl <;> rfl)
            (by rcases h with rfl | rfl <;> rcases hc with rfl | rfl | rfl <;> decide)]
      · rw [ih, List.append_assoc]
        rfl

/-- The placeholders of a text are those of its tokens. -/
theorem occurrences_eq {mark : Char} (h : IsMark mark) {text : String} {ts : List Token}
    (htext : Scans text ts) : occurrences mark text = ts.flatMap (Token.marked mark) := by
  rw [← htext.ofText_eq, Token.ofText, flatMap_marked_scan h, List.nil_append]
  rfl

@[simp] theorem Token.marked_opening (mark : Char) : Token.marked mark .opening = [] := rfl

@[simp] theorem Token.marked_closing (mark : Char) : Token.marked mark .closing = [] := rfl

@[simp] theorem Token.marked_comma (mark : Char) : Token.marked mark .comma = [] := rfl

/-! ## Placeholders of operands -/

/-- The placeholders with this mark in a written operand. -/
def Operand.marked (mark : Char) (o : Operand ℕ ℕ) : List String :=
  o.tokens.flatMap (Token.marked mark)

private theorem not_mem_digits {c : Char} (n : ℕ) (h : Decimal.isDigit c = false) :
    c ∉ (toString n).toList :=
  fun hc ↦ Decimal.ne_of_isDigit (Decimal.isDigit_of_mem_toString hc) h rfl

/-- A mark with the digits of a number is one placeholder. -/
private theorem marked_number {mark : Char} (h : Decimal.isDigit mark = false) (n : ℕ) :
    Placeholder.marked mark (mark :: (toString n).toList) =
      [String.ofList (mark :: (toString n).toList)] := by
  have hdigits : (toString n).toList.takeWhile Decimal.isDigit = (toString n).toList := by
    rw [List.takeWhile_eq_self_iff]
    intro c hc
    exact Decimal.isDigit_of_mem_toString hc
  rw [Placeholder.marked, if_pos rfl, hdigits, marked_eq_nil (not_mem_digits n h)]

/-- So it has this placeholder and none with another mark. -/
private theorem occurrences_number {mark other : Char} (hmark : Decimal.isDigit mark = false)
    (hother : Decimal.isDigit other = false) (hne : other ≠ mark) (n : ℕ) {text : String}
    (htext : text.toList = mark :: (toString n).toList) :
    occurrences mark text = [text] ∧ occurrences other text = [] := by
  refine ⟨?_, ?_⟩
  · rw [occurrences, htext, marked_number hmark, ← htext, String.ofList_toList]
  · rw [occurrences, htext]
    exact marked_eq_nil (List.not_mem_cons_of_ne_of_not_mem hne (not_mem_digits n hother))

private theorem occurrences_name (n : ℕ) :
    occurrences '#' (Placeholder.name n) = [Placeholder.name n] ∧
      occurrences ':' (Placeholder.name n) = [] := by
  apply occurrences_number rfl rfl (by decide) n
  rw [Placeholder.name, String.toList_append]
  rfl

private theorem occurrences_value (n : ℕ) :
    occurrences ':' (Placeholder.value n) = [Placeholder.value n] ∧
      occurrences '#' (Placeholder.value n) = [] := by
  apply occurrences_number rfl rfl (by decide) n
  rw [Placeholder.value, String.toList_append]
  rfl

private theorem occurrences_stepText {mark : Char} (h : IsMark mark) (step : PathElement ℕ) :
    occurrences mark (Path.stepText Placeholder.name step) =
      step.name?.toList.flatMap fun n ↦ occurrences mark (Placeholder.name n) := by
  cases step with
  | key n =>
    have hchars : (Path.stepText Placeholder.name (.key n)).toList =
        '.' :: (Placeholder.name n).toList := by
      rw [Path.stepText, String.toList_append]
      rfl
    have hne : '.' ≠ mark := by rcases h with rfl | rfl <;> decide
    rw [occurrences, hchars, Placeholder.marked, if_neg hne]
    simp [PathElement.name?, occurrences]
  | index position =>
    have hdigit : Decimal.isDigit mark = false := by rcases h with rfl | rfl <;> rfl
    have hmem : mark ∉ (Path.stepText Placeholder.name (.index position)).toList := by
      have hdigits := not_mem_digits position.toNat hdigit
      rcases h with rfl | rfl <;> simpa [Path.stepText] using hdigits
    exact marked_eq_nil hmem

private theorem occurrences_path {mark : Char} (h : IsMark mark) (p : Path ℕ) :
    occurrences mark p.expression =
      p.names.flatMap fun n ↦ occurrences mark (Placeholder.name n) := by
  have hhead (steps : List (PathElement ℕ)) :
      ∀ c ∈ (String.join (steps.map (Path.stepText Placeholder.name))).toList.head?,
        Decimal.isDigit c = false := by
    intro c hc
    cases steps with
    | nil => simp at hc
    | cons step steps =>
      cases step <;>
      · simp [Path.stepText] at hc
        rw [← hc]
        rfl
  have hsteps (steps : List (PathElement ℕ)) :
      Placeholder.marked mark (String.join (steps.map (Path.stepText Placeholder.name))).toList =
        (steps.filterMap PathElement.name?).flatMap
          fun n ↦ occurrences mark (Placeholder.name n) := by
    induction steps with
    | nil => rfl
    | cons step steps ih =>
      rw [List.map_cons, String.join_cons, String.toList_append, marked_append _ _ (hhead steps),
        ih, ← occurrences, occurrences_stepText h]
      cases step <;> simp [PathElement.name?, List.filterMap_cons]
  rw [occurrences, Path.expression, Path.textWith, String.toList_append,
    marked_append _ _ (hhead p.steps), hsteps]
  rfl

private theorem occurrences_size {mark : Char} (h : IsMark mark) : occurrences mark "size" = [] :=
  marked_eq_nil (by rcases h with rfl | rfl <;> decide)

/-- The placeholders of names in an operand. -/
theorem Operand.marked_name (o : Operand ℕ ℕ) :
    o.marked '#' = o.names.map Placeholder.name := by
  cases o with
  | literal n => simp [marked, tokens, Token.marked, occurrences_value, names, path?]
  | reference path =>
    simp [marked, tokens, Token.marked, occurrences_path (.inl rfl), occurrences_name, names, path?,
      List.map_eq_flatMap]
  | size path =>
    simp [marked, tokens, callTokens, separated, Token.marked, occurrences_size (.inl rfl),
      occurrences_path (.inl rfl), occurrences_name, names, path?, List.map_eq_flatMap]

/-- The placeholders of literals in an operand. -/
theorem Operand.marked_value (o : Operand ℕ ℕ) :
    o.marked ':' = o.literal?.toList.map Placeholder.value := by
  cases o with
  | literal n => simp [marked, tokens, Token.marked, occurrences_value, literal?]
  | reference path =>
    simp [marked, tokens, Token.marked, occurrences_path (.inr rfl), occurrences_name, literal?]
  | size path =>
    simp [marked, tokens, callTokens, separated, Token.marked, occurrences_size (.inr rfl),
      occurrences_path (.inr rfl), occurrences_name, literal?]

/-! ## Placeholders of written trees -/

/-- The texts have the placeholders of these operands, in their order, and no others. -/
def Prints (os : List (Operand ℕ ℕ)) (texts : List String) : Prop :=
  ∀ mark, IsMark mark → texts.flatMap (occurrences mark) = os.flatMap (Operand.marked mark)

namespace Prints

variable {os os' : List (Operand ℕ ℕ)} {texts texts' : List String}

theorem nil : Prints [] [] :=
  fun _ _ ↦ rfl

theorem append (h : Prints os texts) (h' : Prints os' texts') :
    Prints (os ++ os') (texts ++ texts') := by
  intro mark hmark
  rw [List.flatMap_append, List.flatMap_append, h mark hmark, h' mark hmark]

theorem of_scans {text : String} {ts : List Token} (htext : Scans text ts)
    (h : ∀ mark, IsMark mark → ts.flatMap (Token.marked mark) = os.flatMap (Operand.marked mark)) :
    Prints os [text] := by
  intro mark hmark
  rw [List.flatMap_singleton, occurrences_eq hmark htext, h mark hmark]

theorem occurrences_values (h : Prints os texts) :
    texts.flatMap (occurrences ':') = (os.filterMap Operand.literal?).map Placeholder.value := by
  rw [h ':' (.inr rfl), List.filterMap_eq_flatMap_toList, List.map_flatMap]
  exact List.flatMap_congr fun o _ ↦ o.marked_value

theorem occurrences_names (h : Prints os texts) :
    texts.flatMap (occurrences '#') = (os.flatMap Operand.names).map Placeholder.name := by
  rw [h '#' (.inl rfl), List.map_flatMap]
  exact List.flatMap_congr fun o _ ↦ o.marked_name

end Prints

section Tokens

variable {mark : Char}

private theorem marked_word (h : IsMark mark) {text : String} (hsharp : '#' ∉ text.toList)
    (hcolon : ':' ∉ text.toList) : Token.marked mark (.word text) = [] := by
  rcases h with rfl | rfl
  · exact marked_eq_nil hsharp
  · exact marked_eq_nil hcolon

private theorem flatMap_separated (items : List (List Token)) :
    (separated items).flatMap (Token.marked mark) =
      items.flatMap fun ts ↦ ts.flatMap (Token.marked mark) := by
  induction items with
  | nil => rfl
  | cons item items ih =>
    cases items with
    | nil => simp [separated]
    | cons other items =>
      rw [separated, List.intercalate_cons_cons, ← separated, List.flatMap_append,
        List.flatMap_append, ih]
      simp

private theorem flatMap_callTokens {name : String} (hname : Token.marked mark (.word name) = [])
    (items : List (List Token)) : (callTokens name items).flatMap (Token.marked mark) =
      items.flatMap fun ts ↦ ts.flatMap (Token.marked mark) := by
  simp [callTokens, hname, flatMap_separated]

@[simp] private theorem Operand.flatMap_tokens (o : Operand ℕ ℕ) :
    o.tokens.flatMap (Token.marked mark) = o.marked mark :=
  rfl

private theorem Condition.flatMap_tokens (h : IsMark mark) (c : Condition ℕ ℕ) :
    c.tokens.flatMap (Token.marked mark) = c.operands.flatMap (Operand.marked mark) := by
  induction c with
  | compare left op right =>
    have hop : Token.marked mark (.word (Named.name op)) = [] := by
      cases op <;> exact marked_word h (by decide) (by decide)
    simp [tokens, operands, hop]
  | between value low high =>
    have hbetween : Token.marked mark (.word "BETWEEN") = [] :=
      marked_word h (by decide) (by decide)
    have hand : Token.marked mark (.word "AND") = [] := marked_word h (by decide) (by decide)
    simp [tokens, operands, hbetween, hand]
  | among value candidates =>
    have hin : Token.marked mark (.word "IN") = [] := marked_word h (by decide) (by decide)
    simp [tokens, operands, hin, flatMap_separated, List.flatMap_map]
  | function name arguments =>
    have hname : Token.marked mark (.word (Named.name name)) = [] := by
      cases name <;> exact marked_word h (by decide) (by decide)
    simp [tokens, operands, flatMap_callTokens hname, List.flatMap_map]
  | logical op left right ihl ihr =>
    have hop : Token.marked mark (.word (Named.name op)) = [] := by
      cases op <;> exact marked_word h (by decide) (by decide)
    simp [tokens, operands, hop, ihl, ihr]
  | not inner ih =>
    have hnot : Token.marked mark (.word "NOT") = [] := marked_word h (by decide) (by decide)
    simp [tokens, operands, hnot, ih]

private theorem SetValue.flatMap_tokens (h : IsMark mark) (v : SetValue ℕ ℕ) :
    v.tokens.flatMap (Token.marked mark) = v.operands.flatMap (Operand.marked mark) := by
  induction v with
  | operand source => simp [tokens, operands]
  | plus left right ihl ihr =>
    have hplus : Token.marked mark (.word "+") = [] := marked_word h (by decide) (by decide)
    simp [tokens, operands, hplus, ihl, ihr]
  | minus left right ihl ihr =>
    have hminus : Token.marked mark (.word "-") = [] := marked_word h (by decide) (by decide)
    simp [tokens, operands, hminus, ihl, ihr]
  | ifNotExists path value ih =>
    have hname : Token.marked mark (.word "if_not_exists") = [] :=
      marked_word h (by decide) (by decide)
    simp [tokens, operands, flatMap_callTokens hname, ih, Operand.marked, Operand.tokens]
  | listAppend left right ihl ihr =>
    have hname : Token.marked mark (.word "list_append") = [] :=
      marked_word h (by decide) (by decide)
    simp [tokens, operands, flatMap_callTokens hname, ihl, ihr]

private theorem UpdateAction.flatMap_tokens (h : IsMark mark) (a : UpdateAction ℕ ℕ) :
    a.tokens.flatMap (Token.marked mark) = a.operands.flatMap (Operand.marked mark) := by
  cases a with
  | set path value =>
    have hequals : Token.marked mark (.word "=") = [] := marked_word h (by decide) (by decide)
    simp [tokens, operands, hequals, SetValue.flatMap_tokens h, Operand.marked, Operand.tokens]
  | remove path | add path value | delete path value =>
    simp [tokens, operands, Operand.marked, Operand.tokens]

private theorem UpdateAction.flatMap_clauseTokens (h : IsMark mark)
    (actions : List (UpdateAction ℕ ℕ)) (clause : Clause) :
    (clauseTokens actions clause).flatMap (Token.marked mark) =
      ((inClause clause actions).flatMap operands).flatMap (Operand.marked mark) := by
  have hword : Token.marked mark (.word (Named.name clause)) = [] := by
    cases clause <;> exact marked_word h (by decide) (by decide)
  cases hown : inClause clause actions with
  | nil => simp [clauseTokens, hown]
  | cons a as =>
    simp [clauseTokens, hown, hword, flatMap_separated, UpdateAction.flatMap_tokens h,
      List.flatMap_map, List.flatMap_assoc]

end Tokens

theorem Operand.prints (o : Operand ℕ ℕ) : Prints [o] [o.expression] :=
  .of_scans o.scans fun _ _ ↦ (List.append_nil _).symm

theorem Condition.prints (c : Condition ℕ ℕ) : Prints c.operands [c.expression] :=
  .of_scans c.scans fun _ hmark ↦ c.flatMap_tokens hmark

theorem UpdateAction.prints (actions : List (UpdateAction ℕ ℕ)) :
    Prints ((byClause actions).flatMap operands) [updateText actions] := by
  refine .of_scans (scans_updateText actions) fun mark hmark ↦ ?_
  simp [byClause, List.flatMap_assoc, UpdateAction.flatMap_clauseTokens hmark]

theorem Path.prints (paths : List (Path ℕ)) :
    Prints (paths.map .reference) [commaSeparated (paths.map Path.expression)] := by
  refine .of_scans (scans_projection paths) fun mark _ ↦ ?_
  simp [flatMap_separated, List.flatMap_map, Operand.marked, Operand.tokens]

/-! ## The discipline -/

/-- The texts of a request and its dictionaries fit: literals are numbered as their placeholders
stand, each once; names are numbered by their first use; the entries are exactly those of the
placeholders, and no two stand for one name. -/
structure Disciplined (texts : List String) (names : Dict String) (values : Dict AttributeValue) :
    Prop where
  values_eq : texts.flatMap (occurrences ':') = (List.range values.length).map Placeholder.value
  names_eq : (texts.flatMap (occurrences '#')).eraseDups =
    (List.range names.length).map Placeholder.name
  values_keys : values.names.Perm (texts.flatMap (occurrences ':'))
  names_keys : names.names.Perm (texts.flatMap (occurrences '#')).eraseDups
  names_injective : ∀ key key' name, names.get? key = some name → names.get? key' = some name →
    key = key'

private theorem eraseDups_map_name (ns : List ℕ) :
    (ns.map Placeholder.name).eraseDups = ns.eraseDups.map Placeholder.name := by
  induction hlength : ns.length using Nat.strongRecOn generalizing ns with
  | ind length ih =>
    cases ns with
    | nil => rfl
    | cons n ns =>
      have hrest : (ns.filter fun m ↦ !(m == n)).length < length := by
        have hle := List.length_filter_le (fun m ↦ !(m == n)) ns
        rw [← hlength, List.length_cons]
        omega
      have hfilter : (ns.map Placeholder.name).filter (fun s ↦ !(s == Placeholder.name n)) =
          (ns.filter fun m ↦ !(m == n)).map Placeholder.name := by
        rw [List.filter_map]
        congr 1
        refine List.filter_congr fun m _ ↦ ?_
        simp [name_injective.eq_iff]
      rw [List.map_cons, List.eraseDups_cons, hfilter, ih _ hrest _ rfl, List.eraseDups_cons,
        List.map_cons]

/-- Texts that print what was interned from the empty table fit the dictionaries of the table. -/
theorem NumberingOf.disciplined {t : PlaceholderTable} {os : List (Operand ℕ ℕ)}
    {texts : List String} (h : NumberingOf {} t os) (htexts : Prints os texts) :
    Disciplined texts t.attributeNames t.attributeValues := by
  have hvalues : texts.flatMap (occurrences ':') =
      (List.range t.values.length).map Placeholder.value := by
    have hliterals := h.literals_eq
    rw [show (({} : PlaceholderTable).values.length) = 0 from rfl, Nat.sub_zero,
      ← List.range_eq_range'] at hliterals
    rw [htexts.occurrences_values, hliterals]
  have hnames : (texts.flatMap (occurrences '#')).eraseDups =
      (List.range t.names.length).map Placeholder.name := by
    rw [htexts.occurrences_names, eraseDups_map_name, Introduces.eraseDups h.introduces]
  have hvalueCount : t.attributeValues.length = t.values.length := by
    have hlength := t.names_attributeValues.length_eq
    simpa [Dict.names] using hlength
  have hnameCount : t.attributeNames.length = t.names.length := by
    have hlength := t.names_attributeNames.length_eq
    simpa [Dict.names] using hlength
  refine ⟨by rw [hvalues, hvalueCount], by rw [hnames, hnameCount],
    hvalues ▸ t.names_attributeValues, hnames ▸ t.names_attributeNames, ?_⟩
  intro key key' name hkey hkey'
  exact PlaceholderTable.attributeNames_inj (h.nodup List.nodup_nil) hkey hkey'

/-! ## Compiled expressions -/

/-- Between two tables the placeholders in these texts were given out. -/
def Printed (t t' : PlaceholderTable) (texts : List String) : Prop :=
  ∃ os, NumberingOf t t' os ∧ Prints os texts

namespace Printed

variable {t u t' : PlaceholderTable} {texts texts' : List String}

theorem refl (t : PlaceholderTable) : Printed t t [] :=
  ⟨[], .refl t, .nil⟩

theorem append (h : Printed t u texts) (h' : Printed u t' texts') :
    Printed t t' (texts ++ texts') := by
  obtain ⟨os, hnum, hprints⟩ := h
  obtain ⟨os', hnum', hprints'⟩ := h'
  exact ⟨os ++ os', hnum.append hnum', hprints.append hprints'⟩

theorem disciplined (h : Printed {} t' texts) :
    Disciplined texts t'.attributeNames t'.attributeValues := by
  obtain ⟨os, hnum, hprints⟩ := h
  exact hnum.disciplined hprints

end Printed

theorem Condition.printed_of_compile {c : Condition String AttributeValue} {t t' : PlaceholderTable}
    {text : String} (h : c.compile.Yields t text t') : Printed t t' [text] := by
  obtain ⟨n, hn, rfl⟩ := Interning.yields_map_iff.mp h
  exact ⟨n.operands, (numbered_spec hn).1, n.prints⟩

theorem Condition.printed_of_compileKey {partition : Condition String AttributeValue}
    {sort : Option (Condition String AttributeValue)} {t t' : PlaceholderTable} {text : String}
    (h : (partition.compileKey sort).Yields t text t') : Printed t t' [text] :=
  printed_of_compile (compile_of_compileKey h)

theorem UpdateAction.printed_of_compile {actions : List (UpdateAction String AttributeValue)}
    {t t' : PlaceholderTable} {text : String} (h : (compile actions).Yields t text t') :
    Printed t t' [text] := by
  obtain ⟨ns, hns, rfl⟩ := numbered_of_compile h
  have hprints := UpdateAction.prints ns
  rw [byClause_numbered hns] at hprints
  exact ⟨ns.flatMap operands, (mapM_numbered_spec hns).1, hprints⟩

theorem Path.printed_of_compileProjection {paths : List (Path String)} {t t' : PlaceholderTable}
    {text : String} (h : (compileProjection paths).Yields t text t') : Printed t t' [text] := by
  simp only [compileProjection, Interning.yields_bind_iff, Interning.yields_pure_iff] at h
  obtain ⟨ns, t', hns, rfl, rfl⟩ := h
  exact ⟨ns.map .reference, (mapM_numbered_spec hns).1, Path.prints ns⟩

end TableClient
