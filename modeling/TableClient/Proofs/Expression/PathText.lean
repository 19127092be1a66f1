import Mathlib.Data.List.TakeWhile
import TableClient.Proofs.Decimal.Digits
import TableClient.Proofs.Except
import TableClient.Proofs.Expression.Renaming

/-!
# Written paths

A path is written with points before keys and brackets around indexes. Which texts are paths, and of
which segments, is said by a grammar (`Path.WrittenPath`): names that are not empty and hold no point
and no bracket, each with indexes behind it, and points between them. `Path.parse` reads exactly
these texts. The written form of a path is among them exactly if all its names are plain, and then it
is read back. The names of a path need not be texts: a path over numbers is written with a text for
each number, and is read back as the path over these texts.

A text is cut at its points first, so the argument groups the steps of a path in the same way: a
segment is a name with the indexes behind it.
-/

namespace TableClient

open Decimal (IsNumeral)

/-- A name that is read back from the written form of a path. -/
structure IsPlainName (name : String) : Prop where
  ne_empty : name.toList ≠ []
  not_point : ∀ c ∈ name.toList, c ≠ '.'
  not_open : ∀ c ∈ name.toList, c ≠ '['
  not_close : ∀ c ∈ name.toList, c ≠ ']'

namespace Path

/-! ## Grammar -/

/-- What stands between the brackets of an index: a numeral, with or without a plus sign, of a number
that is an index. -/
inductive WrittenIndex : List Char → UInt64 → Prop
  | unsigned {ds : List Char} {position : UInt64} (h : IsNumeral ds position.toNat) :
      WrittenIndex ds position
  | signed {ds : List Char} {position : UInt64} (h : IsNumeral ds position.toNat) :
      WrittenIndex ('+' :: ds) position

/-- Indexes in brackets, one behind the other. -/
inductive WrittenIndexes : List Char → List UInt64 → Prop
  | nil : WrittenIndexes [] []
  | cons {cs rest : List Char} {position : UInt64} {positions : List UInt64}
      (h : WrittenIndex cs position) (hrest : WrittenIndexes rest positions) :
      WrittenIndexes ('[' :: (cs ++ ']' :: rest)) (position :: positions)

/-- A name and the indexes behind it. -/
inductive WrittenSegment : List Char → String × List UInt64 → Prop
  | mk {name : String} {cs : List Char} {positions : List UInt64} (hname : IsPlainName name)
      (h : WrittenIndexes cs positions) : WrittenSegment (name.toList ++ cs) (name, positions)

/-- One segment or more with points between them. -/
inductive WrittenPath : List Char → List (String × List UInt64) → Prop
  | single {cs : List Char} {part : String × List UInt64} (h : WrittenSegment cs part) :
      WrittenPath cs [part]
  | cons {cs rest : List Char} {part : String × List UInt64} {parts : List (String × List UInt64)}
      (h : WrittenSegment cs part) (hrest : WrittenPath rest parts) :
      WrittenPath (cs ++ '.' :: rest) (part :: parts)

/-- The steps that segments stand for. -/
def stepsOf (parts : List (String × List UInt64)) : List (PathElement String) :=
  parts.flatMap fun (name, positions) ↦ .key name :: positions.map .index

theorem ofSegments_eq_some_iff {parts : List (String × List UInt64)} {p : Path String} :
    ofSegments parts = some p ↔ p.elements = stepsOf parts := by
  obtain ⟨root, steps⟩ := p
  rcases parts with _ | ⟨⟨name, positions⟩, parts⟩
  · simp [ofSegments, elements, stepsOf]
  · simp [ofSegments, elements, stepsOf, eq_comm]

theorem key_mem_stepsOf_iff {parts : List (String × List UInt64)} {name : String} :
    .key name ∈ stepsOf parts ↔ ∃ part ∈ parts, part.1 = name := by
  simp [stepsOf, eq_comm]

/-! ## Reading indexes -/

theorem WrittenIndex.ne_of_mem {cs : List Char} {position : UInt64} (h : WrittenIndex cs position)
    {c d : Char} (hc : c ∈ cs) (hd : d.isDigit = false) (hplus : d ≠ '+') : c ≠ d := by
  cases h with
  | unsigned h => exact h.ne_of_mem hc hd
  | signed h =>
    rcases List.mem_cons.mp hc with rfl | hc
    · exact hplus.symm
    · exact h.ne_of_mem hc hd

theorem position?_eq_some_iff {cs : List Char} {position : UInt64} :
    position? cs = some position ↔ WrittenIndex cs position := by
  rw [position?, Option.map_eq_some_iff]
  simp only [Decimal.IntegerRange.ofText?_unsigned_eq_some_iff, String.toList_ofList]
  constructor
  · rintro ⟨_, ⟨k, rfl, hlt, hk⟩, rfl⟩
    have hvalue : (UInt64.ofNat k).toNat = k := UInt64.toNat_ofNat_of_lt' hlt
    rcases hk with hk | ⟨ds, rfl, hk⟩
    · exact .unsigned (hvalue.symm ▸ hk)
    · exact .signed (hvalue.symm ▸ hk)
  · intro h
    refine ⟨position.toNat, ⟨position.toNat, rfl, position.toNat_lt, ?_⟩, by simp⟩
    cases h with
    | unsigned h => exact .inl h
    | signed h => exact .inr ⟨_, rfl, h⟩

/-- What stands before the first of a character. -/
private theorem takeWhile_of_forall_ne {cs : List Char} {c : Char} (h : ∀ d ∈ cs, d ≠ c)
    (rest : List Char) : (cs ++ c :: rest).takeWhile (· ≠ c) = cs := by
  rw [List.takeWhile_append_of_pos (by simpa using h)]
  simp

private theorem dropWhile_of_forall_ne {cs : List Char} {c : Char} (h : ∀ d ∈ cs, d ≠ c)
    (rest : List Char) : (cs ++ c :: rest).dropWhile (· ≠ c) = c :: rest := by
  rw [List.dropWhile_append_of_pos (by simpa using h)]
  simp

theorem indexes_of_written {cs : List Char} {positions : List UInt64}
    (h : WrittenIndexes cs positions) : indexes cs = .ok positions := by
  induction h with
  | nil => rw [indexes]
  | @cons cs rest position positions h _ ih =>
    have hclose : ∀ d ∈ cs, d ≠ ']' := fun d hd ↦ h.ne_of_mem hd rfl (by decide)
    rw [indexes, if_neg (not_not.mpr rfl)]
    split
    · next hnil =>
      rw [dropWhile_of_forall_ne hclose] at hnil
      cases hnil
    · next hcons =>
      obtain ⟨-, rfl⟩ := List.cons.inj ((dropWhile_of_forall_ne hclose rest).symm.trans hcons)
      rw [takeWhile_of_forall_ne hclose, position?_eq_some_iff.mpr h, ih]
      rfl

theorem written_of_indexes {cs : List Char} {positions : List UInt64}
    (h : indexes cs = .ok positions) : WrittenIndexes cs positions := by
  fun_induction indexes cs generalizing positions with
  | case1 =>
    cases h
    exact .nil
  | case2 | case3 | case4 => cases h
  | case5 c inner hopen close rest hdrop position hposition ih =>
    obtain ⟨positions, hrest, rfl⟩ := Except.map_eq_ok_iff.mp h
    obtain rfl : c = '[' := not_not.mp hopen
    obtain rfl : close = ']' := by
      have hhead := List.head?_dropWhile_not (· ≠ ']') inner
      rw [hdrop] at hhead
      simpa using hhead
    rw [← List.takeWhile_append_dropWhile (p := (· ≠ ']')) (l := inner), hdrop]
    exact .cons (position?_eq_some_iff.mp hposition) (ih hrest)

theorem indexes_eq_ok_iff {cs : List Char} {positions : List UInt64} :
    indexes cs = .ok positions ↔ WrittenIndexes cs positions :=
  ⟨written_of_indexes, indexes_of_written⟩

/-! ## Reading segments -/

theorem segment_of_written {cs : List Char} {part : String × List UInt64}
    (h : WrittenSegment cs part) : segment cs = .ok part := by
  obtain @⟨name, cs, positions, hname, hcs⟩ := h
  have hclose : name.toList.contains ']' = false := by
    simpa using fun hmem ↦ hname.not_close _ hmem rfl
  have hempty : name.toList.isEmpty = false := by simpa using hname.ne_empty
  -- the name ends at the first bracket, or it is everything
  obtain ⟨htake, hdrop⟩ : (name.toList ++ cs).takeWhile (· ≠ '[') = name.toList ∧
      (name.toList ++ cs).dropWhile (· ≠ '[') = cs := by
    cases hcs with
    | nil =>
      rw [List.append_nil]
      exact ⟨List.takeWhile_eq_self_iff.mpr (by simpa using hname.not_open),
        List.dropWhile_eq_nil_iff.mpr (by simpa using hname.not_open)⟩
    | cons => exact ⟨takeWhile_of_forall_ne hname.not_open _, dropWhile_of_forall_ne hname.not_open _⟩
  rw [segment, htake, hdrop, indexes_of_written hcs, hclose, hempty]
  simp [Except.map]

theorem written_of_segment {cs : List Char} {part : String × List UInt64}
    (hcs : ∀ c ∈ cs, c ≠ '.') (h : segment cs = .ok part) : WrittenSegment cs part := by
  rw [segment] at h
  split at h
  · cases h
  · next hempty =>
    split at h
    · cases h
    · next hclose =>
      obtain ⟨positions, hpositions, rfl⟩ := Except.map_eq_ok_iff.mp h
      have hname : IsPlainName (String.ofList (cs.takeWhile (· ≠ '['))) := by
        constructor <;> rw [String.toList_ofList]
        case ne_empty => simpa using hempty
        case not_point => exact fun c hc ↦ hcs c ((List.takeWhile_prefix _).subset hc)
        case not_open => exact fun c hc ↦ by simpa using List.mem_takeWhile_imp hc
        case not_close => exact fun c hc heq ↦ hclose (by simpa [heq] using hc)
      have hwritten := WrittenSegment.mk hname (indexes_eq_ok_iff.mp hpositions)
      rwa [String.toList_ofList, List.takeWhile_append_dropWhile] at hwritten

/-! ## Cutting at points -/

/-- The parts of a text between its points. -/
inductive Cut : List Char → List (List Char) → Prop
  | single {cs : List Char} (h : ∀ c ∈ cs, c ≠ '.') : Cut cs [cs]
  | cons {cs rest : List Char} {parts : List (List Char)} (h : ∀ c ∈ cs, c ≠ '.')
      (hrest : Cut rest parts) : Cut (cs ++ '.' :: rest) (cs :: parts)

theorem cut_segments (cs : List Char) : Cut cs (segments cs) := by
  induction cs with
  | nil => exact .single (List.forall_mem_nil _)
  | cons c cs ih =>
    rw [segments]
    split
    · next hpoint => exact hpoint ▸ .cons (List.forall_mem_nil _) ih
    · next hne =>
      generalize segments cs = parts at ih ⊢
      cases ih with
      | single h => exact .single (List.forall_mem_cons.mpr ⟨hne, h⟩)
      | cons h hrest => exact .cons (List.forall_mem_cons.mpr ⟨hne, h⟩) hrest

private theorem segments_of_no_point {cs : List Char} (h : ∀ c ∈ cs, c ≠ '.') :
    segments cs = [cs] := by
  induction cs with
  | nil => rfl
  | cons c cs ih =>
    obtain ⟨hne, hcs⟩ := List.forall_mem_cons.mp h
    rw [segments, if_neg hne, ih hcs]

private theorem segments_point {cs : List Char} (rest : List Char) (h : ∀ c ∈ cs, c ≠ '.') :
    segments (cs ++ '.' :: rest) = cs :: segments rest := by
  induction cs with
  | nil => rfl
  | cons c cs ih =>
    obtain ⟨hne, hcs⟩ := List.forall_mem_cons.mp h
    rw [List.cons_append, segments, if_neg hne, ih hcs]

theorem WrittenIndexes.not_point {cs : List Char} {positions : List UInt64}
    (h : WrittenIndexes cs positions) : ∀ c ∈ cs, c ≠ '.' := by
  induction h with
  | nil => exact List.forall_mem_nil _
  | cons h _ ih =>
    have hindex : ∀ c ∈ _, c ≠ '.' := fun c hc ↦ h.ne_of_mem hc rfl (by decide)
    simp only [List.forall_mem_cons, List.forall_mem_append]
    exact ⟨by decide, hindex, by decide, ih⟩

theorem WrittenSegment.not_point {cs : List Char} {part : String × List UInt64}
    (h : WrittenSegment cs part) : ∀ c ∈ cs, c ≠ '.' := by
  cases h with
  | mk hname h => exact List.forall_mem_append.mpr ⟨hname.not_point, h.not_point⟩

/-! ## Reading paths -/

theorem mapM_segment_eq_ok_iff {cs : List Char} {parts : List (String × List UInt64)} :
    (segments cs).mapM segment = .ok parts ↔ WrittenPath cs parts := by
  constructor
  · intro h
    have hsegments := Except.mapM_eq_ok_iff.mp h
    have hcut := cut_segments cs
    -- what is left of the text is cut in the same way, so the induction is on the cut
    generalize segments cs = texts at hcut hsegments
    clear h
    induction hcut generalizing parts with
    | single hcs =>
      obtain ⟨part, _, hpart, hnil, rfl⟩ := List.forall₂_cons_left_iff.mp hsegments
      cases hnil
      exact .single (written_of_segment hcs hpart)
    | cons hcs _ ih =>
      obtain ⟨part, parts, hpart, hparts, rfl⟩ := List.forall₂_cons_left_iff.mp hsegments
      exact .cons (written_of_segment hcs hpart) (ih hparts)
  · intro h
    induction h with
    | single h =>
      rw [segments_of_no_point h.not_point]
      exact Except.mapM_eq_ok_iff.mpr (.cons (segment_of_written h) .nil)
    | cons h _ ih =>
      rw [segments_point _ h.not_point]
      exact Except.mapM_eq_ok_iff.mpr (.cons (segment_of_written h) (Except.mapM_eq_ok_iff.mp ih))

theorem parse_eq_ok_iff {text : String} {p : Path String} : parse text = .ok p ↔
    ∃ parts, WrittenPath text.toList parts ∧ p.elements = stepsOf parts := by
  simp only [← mapM_segment_eq_ok_iff, ← ofSegments_eq_some_iff]
  rw [parse]
  rcases (segments text.toList).mapM segment with fault | parts
  · simp
  · rw [Except.elim_eq_ok_iff]
    simp only [Except.ok.injEq, exists_eq_left']

theorem WrittenPath.isPlainName {cs : List Char} {parts : List (String × List UInt64)}
    (h : WrittenPath cs parts) : ∀ part ∈ parts, IsPlainName part.1 := by
  induction h with
  | single h =>
    cases h with
    | mk hname => exact List.forall_mem_singleton.mpr hname
  | cons h _ ih =>
    cases h with
    | mk hname => exact List.forall_mem_cons.mpr ⟨hname, ih⟩

theorem WrittenPath.exists_ofSegments {cs : List Char} {parts : List (String × List UInt64)}
    (h : WrittenPath cs parts) : ∃ p, ofSegments parts = some p := by
  cases h <;> exact ⟨_, rfl⟩

theorem isPlainName_of_parse {text : String} {p : Path String} (h : parse text = .ok p)
    {name : String} (hname : .key name ∈ p.elements) : IsPlainName name := by
  obtain ⟨parts, hparts, helements⟩ := parse_eq_ok_iff.mp h
  obtain ⟨part, hpart, rfl⟩ := key_mem_stepsOf_iff.mp (helements ▸ hname)
  exact hparts.isPlainName part hpart

/-! ## The written form of a path -/

/-- The segments of a path whose last one so far has this name and these indexes. -/
def segmentsFrom (name : String) (positions : List UInt64) :
    List (PathElement String) → List (String × List UInt64)
  | [] => [(name, positions)]
  | .index position :: steps => segmentsFrom name (positions ++ [position]) steps
  | .key key :: steps => (name, positions) :: segmentsFrom key [] steps

theorem stepsOf_segmentsFrom (name : String) (positions : List UInt64)
    (steps : List (PathElement String)) :
    stepsOf (segmentsFrom name positions steps) = .key name :: positions.map .index ++ steps := by
  induction steps generalizing name positions with
  | nil => simp [segmentsFrom, stepsOf]
  | cons step steps ih =>
    cases step with
    | index position => simp [segmentsFrom, ih]
    | key key =>
      have hkey := ih key []
      simp only [stepsOf] at hkey
      simp [segmentsFrom, stepsOf, hkey]

/-- The digits of an index are one way to write it. -/
theorem writtenIndex_toString (position : UInt64) :
    WrittenIndex (toString position.toNat).toList position := by
  apply WrittenIndex.unsigned
  simpa using IsNumeral.toDigits position.toNat

theorem WrittenIndexes.append {cs cs' : List Char} {positions positions' : List UInt64}
    (h : WrittenIndexes cs positions) (h' : WrittenIndexes cs' positions') :
    WrittenIndexes (cs ++ cs') (positions ++ positions') := by
  induction h with
  | nil => exact h'
  | cons h _ ih => simpa using WrittenIndexes.cons h ih

/-- An index behind a segment belongs to it. -/
theorem WrittenSegment.index {cs : List Char} {name : String} {positions : List UInt64}
    (h : WrittenSegment cs (name, positions)) (position : UInt64) :
    WrittenSegment (cs ++ '[' :: ((toString position.toNat).toList ++ [']']))
      (name, positions ++ [position]) := by
  cases h with
  | mk hname h =>
    rw [List.append_assoc]
    exact .mk hname (h.append (.cons (writtenIndex_toString position) .nil))

theorem WrittenSegment.name {name : String} (h : IsPlainName name) :
    WrittenSegment name.toList (name, []) := by
  simpa using WrittenSegment.mk h .nil

/-- Steps behind a segment are written as the segments that they belong to. -/
theorem WrittenSegment.steps {cs : List Char} {name : String} {positions : List UInt64}
    (h : WrittenSegment cs (name, positions)) {steps : List (PathElement String)}
    (hsteps : ∀ key, .key key ∈ steps → IsPlainName key) :
    WrittenPath (cs ++ (String.join (steps.map (stepText id))).toList)
      (segmentsFrom name positions steps) := by
  -- an index is added to the segment that is open and a key opens the next one, so the open segment
  -- is generalized
  induction steps generalizing cs name positions with
  | nil => simpa [segmentsFrom] using WrittenPath.single h
  | cons step steps ih =>
    have hrest : ∀ key, .key key ∈ steps → IsPlainName key :=
      fun key hkey ↦ hsteps key (List.mem_cons_of_mem _ hkey)
    cases step with
    | index position => simpa [stepText, segmentsFrom] using ih (h.index position) hrest
    | key key =>
      have hkey : IsPlainName key := hsteps key List.mem_cons_self
      simpa [stepText, segmentsFrom] using WrittenPath.cons h (ih (.name hkey) hrest)

/-- A path whose names are plain is read back from its written form. -/
theorem parse_text {p : Path String} (h : ∀ name, .key name ∈ p.elements → IsPlainName name) :
    parse p.text = .ok p := by
  have hroot : IsPlainName p.root := h p.root List.mem_cons_self
  have hsteps : ∀ key, .key key ∈ p.steps → IsPlainName key :=
    fun key hkey ↦ h key (List.mem_cons_of_mem _ hkey)
  refine parse_eq_ok_iff.mpr ⟨segmentsFrom p.root [] p.steps, ?_, ?_⟩
  · simpa [text, textWith] using (WrittenSegment.name hroot).steps hsteps
  · exact (stepsOf_segmentsFrom p.root [] p.steps).symm

/-- A path over other names is written like the path over the texts of these names. -/
theorem textWith_eq_text_map {ν : Type} (nameText : ν → String) (p : Path ν) :
    p.textWith nameText = (p.map nameText).text := by
  have hstep : stepText nameText = stepText id ∘ PathElement.map nameText := by
    funext step
    cases step <;> rfl
  rw [text, textWith, textWith, hstep, ← List.map_map]
  rfl

/-- A path over other names is read back over the texts of these names, if all of them are plain. -/
theorem parse_textWith {ν : Type} {nameText : ν → String} (p : Path ν)
    (h : ∀ name, IsPlainName (nameText name)) :
    parse (p.textWith nameText) = .ok (p.map nameText) := by
  rw [textWith_eq_text_map]
  refine parse_text fun name hname ↦ ?_
  have helements : (p.map nameText).elements = p.elements.map (PathElement.map nameText) := rfl
  rw [helements, List.mem_map] at hname
  obtain ⟨step, -, hstep⟩ := hname
  cases step with
  | key n => exact PathElement.key.inj hstep ▸ h n
  | index position => cases hstep

end Path

/-- **Texts of paths.** A text is read as a path exactly if it is in the grammar of paths, and the
path has the names and the indexes that are written, in order. The written form of a path is read
back exactly if no name in it is empty or holds a point or a bracket; so every path that was read
from a text is read back from its own written form. -/
theorem paths_read_as_written :
    (∀ (text : String) (p : Path String), Path.parse text = .ok p ↔
      ∃ parts, Path.WrittenPath text.toList parts ∧ p.elements = Path.stepsOf parts) ∧
    (∀ text : String, (∃ p, Path.parse text = .ok p) ↔
      ∃ parts, Path.WrittenPath text.toList parts) ∧
    (∀ p : Path String, Path.parse p.text = .ok p ↔
      ∀ name, .key name ∈ p.elements → IsPlainName name) ∧
    ∀ (text : String) (p : Path String), Path.parse text = .ok p → Path.parse p.text = .ok p := by
  refine ⟨fun text p ↦ Path.parse_eq_ok_iff, fun text ↦ ⟨?_, ?_⟩, fun p ↦ ⟨?_, Path.parse_text⟩, ?_⟩
  · rintro ⟨p, hp⟩
    obtain ⟨parts, hparts, -⟩ := Path.parse_eq_ok_iff.mp hp
    exact ⟨parts, hparts⟩
  · rintro ⟨parts, hparts⟩
    obtain ⟨p, hp⟩ := hparts.exists_ofSegments
    exact ⟨p, Path.parse_eq_ok_iff.mpr ⟨parts, hparts, Path.ofSegments_eq_some_iff.mp hp⟩⟩
  · intro hp name hname
    exact Path.isPlainName_of_parse hp hname
  · intro text p hp
    exact Path.parse_text fun name hname ↦ Path.isPlainName_of_parse hp hname

/-- An index with a sign and a zero in front is read, and written without them. A point inside a name
is taken for its end, so the name is not read back. -/
theorem signed_index_read_as_number :
    let p : Path String := ⟨"a", [.index 7, .key "b", .index 0]⟩
    Path.parse "a[+07].b[0]" = .ok p ∧ p.text = "a[7].b[0]" ∧ Path.parse p.text = .ok p ∧
    Path.parse (⟨"user.name", []⟩ : Path String).text ≠ .ok ⟨"user.name", []⟩ := by
  intro p
  obtain ⟨hread, -, hback, hagain⟩ := paths_read_as_written
  have hp : Path.parse "a[+07].b[0]" = .ok p := by
    have ha : IsPlainName "a" := by constructor <;> simp
    have hb : IsPlainName "b" := by constructor <;> simp
    have hseven : Path.WrittenIndex ['+', '0', '7'] 7 :=
      .signed ⟨List.cons_ne_nil _ _, by simp [Char.isDigit], by rfl⟩
    have hzero : Path.WrittenIndex ['0'] 0 :=
      .unsigned ⟨List.cons_ne_nil _ _, by simp [Char.isDigit], by rfl⟩
    have hfirst : Path.WrittenSegment "a[+07]".toList ("a", [7]) := .mk ha (.cons hseven .nil)
    have hsecond : Path.WrittenSegment "b[0]".toList ("b", [0]) := .mk hb (.cons hzero .nil)
    exact (hread _ _).mpr ⟨_, .cons hfirst (.single hsecond), rfl⟩
  refine ⟨hp, by rfl, hagain _ _ hp, fun hname ↦ ?_⟩
  have hplain := (hback _).mp hname "user.name" List.mem_cons_self
  exact hplain.not_point '.' (by decide) rfl

end TableClient
