import Mathlib.Data.List.Basic
import TableClient.AttributeValue.Native
import TableClient.Proofs.Ascending
import TableClient.Proofs.AttributeValue.Format
import TableClient.Proofs.Decimal.Digits
import TableClient.Proofs.Dict

/-!
# Native values come back

A native value is encoded and decoded again. All that gets lost is the number of options around an
absent value: each of them is encoded as null, and null is decoded as the outermost one. So a value
comes back with every option around null absent (`NativeType.collapse`), and this is all that two
values with the same encoding can differ in.

Floating-point numbers are left out (`NativeType.isExact`); their literals are about nearest values,
not about the codec.
-/

namespace TableClient
namespace NativeType

/-! ## Types and values -/

/-- Whether no floating-point number is in the values of the type. -/
def isExact : NativeType → Bool
  | real => false
  | option element | list element | map element => element.isExact
  | _ => true

/-- The value is one of the program: the entries of a map stand in the order of their names, and a
set has members, each once, in ascending order. -/
def Proper : (t : NativeType) → t.Value → Prop
  | option _, none => True
  | option element, some x => element.Proper x
  | list element, xs => List.Forall element.Proper xs
  | map element, xs => Dict.Sorted xs ∧ List.Forall (fun entry ↦ element.Proper entry.2) xs
  | stringSet, xs => xs ≠ [] ∧ List.Pairwise (· < ·) (xs : List String)
  | numberSet, xs => xs ≠ [] ∧
      List.Pairwise (·.val < ·.val) (xs : List { n : Int // setRange.has n = true })
  | binarySet, xs => xs ≠ [] ∧ List.Pairwise (· < ·) (xs : List Bytes)
  | string, _ | bool, _ | bytes, _ | integer _, _ | real, _ => True

/-- The value with every option around a value that is encoded as null made absent. -/
def collapse : (t : NativeType) → t.Value → t.Value
  | option _, none => none
  | option element, some x =>
    if element.encode x = .absent then none else some (element.collapse x)
  | list element, xs => List.map element.collapse xs
  | map element, xs => Dict.mapValues element.collapse xs
  | string, x | bool, x | bytes, x | integer _, x | real, x => x
  | stringSet, xs | numberSet, xs | binarySet, xs => xs

/-- No option in the value is around a value that is encoded as null. -/
def Plain : (t : NativeType) → t.Value → Prop
  | option _, none => True
  | option element, some x => element.encode x ≠ .absent ∧ element.Plain x
  | list element, xs => List.Forall element.Plain xs
  | map element, xs => List.Forall (fun entry ↦ element.Plain entry.2) xs
  | string, _ | bool, _ | bytes, _ | integer _, _ | real, _ => True
  | stringSet, _ | numberSet, _ | binarySet, _ => True

/-- The attribute value of a native value, with its sets built by the functions that refuse empty
ones. -/
def encode? : (t : NativeType) → t.Value → Except CodecError AttributeValue
  | option _, none => .ok .absent
  | option element, some x => element.encode? x
  | list element, xs => (List.mapM element.encode? xs).map .list
  | map element, xs => (Dict.mapValuesM element.encode? xs).map .map
  | stringSet, xs => AttributeValue.stringSet? xs
  | numberSet, xs => AttributeValue.numberSet? (List.map (fun n ↦ toString n.val) xs)
  | binarySet, xs => AttributeValue.binarySet? xs
  | string, x => .ok (.string x)
  | bool, x => .ok (.bool x)
  | bytes, x => .ok (.binary x)
  | integer _, n => .ok (.ofInteger n.val)
  | real, x => .ok (.ofReal x)

/-! ## Numbers -/

theorem readInteger_toString {range : Decimal.IntegerRange}
    (n : { n : Int // range.has n = true }) :
    readInteger range (toString n.val) = .ok n := by
  rw [readInteger, Decimal.IntegerRange.ofText?_toString_int n.property]
  exact dif_pos n.property

/-! ## Encoding -/

/-- The only null that is encoded is the one of absent options. -/
theorem isNull_encode_iff {t : NativeType} {v : t.Value} :
    (t.encode v).isNull = true ↔ t.encode v = .absent := by
  induction t with
  | option element ih =>
    cases v with
    | none => exact iff_of_true rfl rfl
    | some x => exact ih
  | string | bool | bytes | integer | real | list | map | stringSet | numberSet | binarySet =>
    refine iff_of_false ?_ ?_
    · exact Bool.false_ne_true
    · intro h
      cases h

section Options

variable {element : NativeType} {x : element.Value}

theorem collapse_some_of_absent (h : element.encode x = .absent) :
    (option element).collapse (some x) = none :=
  if_pos h

theorem collapse_some_of_ne (h : element.encode x ≠ .absent) :
    (option element).collapse (some x) = some (element.collapse x) :=
  if_neg h

end Options

/-- Collapsed options are encoded as they were. -/
theorem encode_collapse {t : NativeType} (v : t.Value) : t.encode (t.collapse v) = t.encode v := by
  induction t with
  | option element ih =>
    cases v with
    | none => rfl
    | some x =>
      by_cases habsent : element.encode x = .absent
      · rw [collapse_some_of_absent habsent]
        exact habsent.symm
      · rw [collapse_some_of_ne habsent]
        exact ih x
  | list element ih =>
    obtain ⟨xs, rfl⟩ : ∃ xs : List element.Value, xs = v := ⟨v, rfl⟩
    refine congrArg AttributeValue.list ((List.map_map ..).trans ?_)
    exact List.map_congr_left fun x _ ↦ ih x
  | map element ih =>
    obtain ⟨xs, rfl⟩ : ∃ xs : Dict element.Value, xs = v := ⟨v, rfl⟩
    refine congrArg AttributeValue.map ((List.map_map ..).trans ?_)
    exact List.map_congr_left fun entry _ ↦ congrArg (Prod.mk entry.1) (ih entry.2)
  | string | bool | bytes | integer | real | stringSet | numberSet | binarySet => rfl

theorem collapse_eq_self_iff {t : NativeType} {v : t.Value} : t.collapse v = v ↔ t.Plain v := by
  induction t with
  | option element ih =>
    cases v with
    | none => exact iff_of_true rfl trivial
    | some x =>
      by_cases habsent : element.encode x = .absent
      · rw [collapse_some_of_absent habsent]
        exact iff_of_false (fun h ↦ nomatch h) fun h ↦ h.1 habsent
      · rw [collapse_some_of_ne habsent]
        exact Option.some_inj.trans (ih.trans (and_iff_right habsent).symm)
  | list element ih =>
    have hiff (xs : List element.Value) : xs.map element.collapse = xs.map id ↔
        ∀ x ∈ xs, element.collapse x = x := List.map_inj_left
    simp only [List.map_id, ih] at hiff
    exact (hiff v).trans List.forall_iff_forall_mem.symm
  | map element ih =>
    exact Dict.mapValues_eq_self_iff.trans
      ((forall₂_congr fun entry _ ↦ ih).trans List.forall_iff_forall_mem.symm)
  | string | bool | bytes | integer | real | stringSet | numberSet | binarySet =>
    exact iff_of_true rfl trivial

/-- Nothing in a value of the program is refused. -/
theorem encode?_eq_ok {t : NativeType} {v : t.Value} (h : t.Proper v) :
    t.encode? v = .ok (t.encode v) := by
  induction t with
  | option element ih =>
    cases v with
    | none => rfl
    | some x => exact ih h
  | list element ih =>
    have hitems := Except.mapM_eq_ok fun x hx ↦ ih (List.forall_iff_forall_mem.mp h x hx)
    exact Except.map_eq_ok_iff.mpr ⟨_, hitems, rfl⟩
  | map element ih =>
    have hentries := Dict.mapValuesM_eq_ok fun entry hentry ↦
      ih (List.forall_iff_forall_mem.mp h.2 entry hentry)
    exact Except.map_eq_ok_iff.mpr ⟨_, hentries, rfl⟩
  | stringSet => exact if_neg (mt List.isEmpty_iff.mp h.1)
  | numberSet => exact if_neg (mt List.isEmpty_iff.mp (mt List.map_eq_nil_iff.mp h.1))
  | binarySet => exact if_neg (mt List.isEmpty_iff.mp h.1)
  | string | bool | bytes | integer | real => rfl

/-! ## Decoding -/

theorem decode_encode {t : NativeType} (ht : t.isExact = true) {v : t.Value} (h : t.Proper v) :
    t.decode (t.encode v) = .ok (t.collapse v) := by
  induction t with
  | real => cases ht
  | string | bool | bytes => rfl
  | integer range => exact readInteger_toString v
  | option element ih =>
    cases v with
    | none => rfl
    | some x =>
      by_cases habsent : element.encode x = .absent
      · rw [collapse_some_of_absent habsent]
        exact if_pos (isNull_encode_iff.mpr habsent)
      · rw [collapse_some_of_ne habsent]
        exact (if_neg (mt isNull_encode_iff.mp habsent)).trans
          (Except.map_eq_ok_iff.mpr ⟨_, ih ht h, rfl⟩)
  | list element ih =>
    exact Except.mapM_map_eq_ok fun x hx ↦ ih ht (List.forall_iff_forall_mem.mp h x hx)
  | map element ih =>
    exact (Dict.mapValuesM_mapValues ..).trans (Dict.mapValuesM_eq_ok fun entry hentry ↦
      ih ht (List.forall_iff_forall_mem.mp h.2 entry hentry))
  | stringSet => exact congrArg Except.ok (ascending_eq_self (fun _ _ ↦ String.lt_asymm) h.2)
  | numberSet =>
    obtain ⟨xs, rfl⟩ : ∃ xs : List { n : Int // setRange.has n = true }, xs = v := ⟨v, rfl⟩
    have hliterals := Except.mapM_map_eq_ok fun n (_ : n ∈ xs) ↦ readInteger_toString n
    rw [List.map_id'] at hliterals
    exact Except.map_eq_ok_iff.mpr ⟨xs, hliterals, ascending_eq_self (fun _ _ ↦ Int.lt_asymm) h.2⟩
  | binarySet => exact congrArg Except.ok (ascending_eq_self (fun _ _ ↦ List.lt_asymm) h.2)

end NativeType

/-- **Native values.** A value of a program is encoded, and decoded from that, or from what is read
from its document, as itself with each option around null absent. It comes back as it was exactly if
there is no such option in it. Two values have the same encoding exactly if they come back as the
same value. -/
theorem native_values_round_trip {t : NativeType} (ht : t.isExact = true) :
    (∀ v : t.Value, t.Proper v → t.encode? v = .ok (t.encode v) ∧
      t.decode (t.encode v) = .ok (t.collapse v) ∧
      (∃ received, AttributeValue.ofJson (t.encode v).toJson = .ok received ∧
        t.decode received = .ok (t.collapse v)) ∧
      (t.decode (t.encode v) = .ok v ↔ t.Plain v)) ∧
    ∀ v w : t.Value, t.Proper v → t.Proper w →
      (t.encode v = t.encode w ↔ t.collapse v = t.collapse w) := by
  refine ⟨fun v hv ↦ ?_, fun v w hv hw ↦ ⟨fun hsame ↦ ?_, fun hsame ↦ ?_⟩⟩
  · have hdecode := NativeType.decode_encode ht hv
    refine ⟨NativeType.encode?_eq_ok hv, hdecode, ⟨_, AttributeValue.ofJson_toJson _, hdecode⟩, ?_⟩
    rw [hdecode, Except.ok.injEq]
    exact NativeType.collapse_eq_self_iff
  · have hv := NativeType.decode_encode ht hv
    rw [hsame, NativeType.decode_encode ht hw] at hv
    exact (Except.ok.inj hv).symm
  · rw [← NativeType.encode_collapse v, hsame, NativeType.encode_collapse]

/-- A map of sets that may be missing in two ways, which come back as one. -/
theorem maybe_maybe_extremes_round_trip :
    let t : NativeType := .map (.option (.option .numberSet))
    let extremes : NativeType.numberSet.Value :=
      [⟨-9223372036854775808, by decide⟩, ⟨9223372036854775807, by decide⟩]
    let v : t.Value := [("a", some none), ("b", some (some extremes))]
    t.isExact = true ∧ t.Proper v ∧ ¬ t.Plain v ∧
      t.encode v = .map [("a", .null true),
        ("b", .numberSet ["-9223372036854775808", "9223372036854775807"])] ∧
      t.decode (t.encode v) = .ok [("a", none), ("b", some (some extremes))] := by
  intro t extremes v
  have hproper : t.Proper v := by
    refine ⟨.cons ?_ (List.pairwise_singleton _ _), trivial, List.cons_ne_nil _ _, ?_⟩
    · intro entry hentry
      obtain rfl := List.mem_singleton.mp hentry
      decide
    · exact .cons (by decide) (List.pairwise_singleton _ _)
  have hcollapse : t.collapse v = [("a", none), ("b", some (some extremes))] := rfl
  refine ⟨rfl, hproper, ?_, by decide, ?_⟩
  · intro hplain
    exact hplain.1.1 rfl
  · exact ((native_values_round_trip rfl).1 v hproper).2.1.trans (congrArg Except.ok hcollapse)

end TableClient
