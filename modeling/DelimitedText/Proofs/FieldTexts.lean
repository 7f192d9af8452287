import DelimitedText.Value.Fields
import Mathlib.Data.List.Forall2

/-!
# A value as a record and as one field

A value is written in two ways: as a record and as the text of one field. Under the optional values and named types
around it (`Value.unwrapped`) it is made of items or it is not (`Value.items?`). A value made of items is the record of
their texts and has no text of its own; any other value is the record of its own text, or neither is there, for the same
reason (`fields_agree_with_fieldText`).

Items are written one by one until one fails: `mapM_eq_ok_iff` and `mapM_eq_error_iff` say so of any such walk.
-/

namespace DelimitedText

/-! ## Item by item -/

section Walk

variable {ε α β : Type} {f : α → Except ε β} {items : List α}

/-- What is done with a result changes no failure. -/
theorem map_eq_error_iff {g : α → β} {result : Except ε α} {error : ε} :
    result.map g = .error error ↔ result = .error error := by
  cases result with
  | error other => exact (Except.error.injEq other error).to_iff.trans (Except.error.injEq other error).to_iff.symm
  | ok a => exact iff_of_false (fun h => by cases h) (fun h => by cases h)

/-- What is done with a result is done with a result that is there. -/
theorem exists_of_map_eq_ok {g : α → β} {result : Except ε α} {b : β} (h : result.map g = .ok b) :
    ∃ a, result = .ok a ∧ g a = b := by
  cases result with
  | error error => cases h
  | ok a => exact ⟨a, rfl, Except.ok.inj h⟩

/-! A result that is there is passed on, and a change of results passes to what comes before or behind. -/

theorem ok_bind (a : α) (g : α → Except ε β) : Except.ok a >>= g = g a := rfl

theorem map_bind_eq {γ : Type} (result : Except ε α) (g : α → β) (h : β → Except ε γ) :
    result.map g >>= h = result >>= fun a => h (g a) := by
  cases result <;> rfl

theorem bind_map_eq {γ : Type} (result : Except ε α) (g : α → Except ε β) (h : β → γ) :
    (result >>= g).map h = result >>= fun a => (g a).map h := by
  cases result <;> rfl

theorem mapM_cons_of_ok {item : α} {result : β} (h : f item = .ok result) :
    (item :: items).mapM f = (items.mapM f).map (result :: ·) := by
  rw [List.mapM_cons, h, ok_bind]
  cases items.mapM f <;> rfl

theorem mapM_cons_of_error {item : α} {error : ε} (h : f item = .error error) :
    (item :: items).mapM f = .error error := by
  rw [List.mapM_cons, h]
  rfl

/-- A walk succeeds iff it succeeds at each item. -/
theorem mapM_eq_ok_iff {results : List β} :
    items.mapM f = .ok results ↔ List.Forall₂ (fun item result => f item = .ok result) items results := by
  induction items generalizing results with
  | nil =>
    rw [List.forall₂_nil_left_iff]
    constructor
    · intro h
      cases h
      rfl
    · rintro rfl
      rfl
  | cons item items ih =>
    rw [List.forall₂_cons_left_iff]
    cases hf : f item with
    | error error =>
      rw [mapM_cons_of_error hf]
      refine iff_of_false (fun h => by cases h) ?_
      rintro ⟨_, _, h, -⟩
      cases h
    | ok result =>
      rw [mapM_cons_of_ok hf]
      constructor
      · intro h
        obtain ⟨rest, hrest, rfl⟩ := exists_of_map_eq_ok h
        exact ⟨result, rest, rfl, ih.1 hrest, rfl⟩
      · rintro ⟨result, rest, h, hrest, rfl⟩
        cases h
        rw [ih.2 hrest]
        rfl

/-- A walk fails as the first item fails at which it does. -/
theorem mapM_eq_error_iff {error : ε} : items.mapM f = .error error ↔ ∃ (i : Nat) (item : α),
    items[i]? = some item ∧ f item = .error error ∧
      ∀ j < i, ∃ earlier result, items[j]? = some earlier ∧ f earlier = .ok result := by
  induction items with
  | nil =>
    refine iff_of_false (fun h => by cases h) ?_
    rintro ⟨i, item, h, -⟩
    cases h
  | cons item items ih =>
    cases hf : f item with
    | error first =>
      rw [mapM_cons_of_error hf, Except.error.injEq]
      constructor
      · rintro rfl
        exact ⟨0, item, rfl, hf, fun j hj => absurd hj (Nat.not_lt_zero j)⟩
      · rintro ⟨i, other, h, fails, before⟩
        cases i with
        | zero =>
          cases h
          exact Except.error.inj (hf.symm.trans fails)
        | succ i =>
          obtain ⟨earlier, result, h, ok⟩ := before 0 (Nat.succ_pos i)
          cases h
          cases hf.symm.trans ok
    | ok result =>
      rw [mapM_cons_of_ok hf, map_eq_error_iff, ih]
      constructor
      · rintro ⟨i, other, h, fails, before⟩
        refine ⟨i + 1, other, h, fails, fun j hj => ?_⟩
        cases j with
        | zero => exact ⟨item, result, rfl, hf⟩
        | succ j => exact before j (Nat.lt_of_succ_lt_succ hj)
      · rintro ⟨i, other, h, fails, before⟩
        cases i with
        | zero =>
          cases h
          cases hf.symm.trans fails
        | succ i => exact ⟨i, other, h, fails, fun j hj => before (j + 1) (Nat.succ_lt_succ hj)⟩

end Walk

/-- Lists are related item by item iff they are of one length and related at each place of the second. -/
theorem forall₂_iff_getElem? {α β : Type} {R : α → β → Prop} {as : List α} {bs : List β} : List.Forall₂ R as bs ↔
    bs.length = as.length ∧ ∀ (i : Nat) (b : β), bs[i]? = some b → ∃ a, as[i]? = some a ∧ R a b := by
  rw [List.forall₂_iff_get]
  constructor
  · rintro ⟨length, each⟩
    refine ⟨length.symm, fun i b hb => ?_⟩
    obtain ⟨bound, rfl⟩ := List.getElem?_eq_some_iff.1 hb
    have bound' : i < as.length := length ▸ bound
    exact ⟨as[i], List.getElem?_eq_getElem bound', each i bound' bound⟩
  · rintro ⟨length, each⟩
    refine ⟨length.symm, fun i bound bound' => ?_⟩
    obtain ⟨a, ha, related⟩ := each i bs[i] (List.getElem?_eq_getElem bound')
    obtain ⟨_, rfl⟩ := List.getElem?_eq_some_iff.1 ha
    exact related

/-! ## What a value is made of -/

namespace Value

/-- A value without the optional values and named types around it. -/
def unwrapped : Value → Value
  | .present value => value.unwrapped
  | .newtypeStruct _ value => value.unwrapped
  | value => value

/-- The items of a compound value, in order. Those of a map are its values, without their keys. -/
def items? : Value → Option (List Value)
  | .seq items | .tuple items | .tupleStruct _ items => some items
  | .map entries => some (entries.map Prod.snd)
  | .struct _ members => some (members.map Prod.snd)
  | _ => none

theorem fields_unwrapped (value : Value) : value.unwrapped.fields = value.fields := by
  fun_induction unwrapped value with
  | case1 value ih => exact ih
  | case2 name value ih => exact ih
  | case3 value => rfl

theorem fieldText_unwrapped (value : Value) : value.unwrapped.fieldText = value.fieldText := by
  fun_induction unwrapped value with
  | case1 value ih => exact ih
  | case2 name value ih => exact ih
  | case3 value => rfl

variable {value : Value} {items : List Value}

/-- Each item gets a field. -/
theorem fields_of_items (h : value.items? = some items) : value.fields = items.mapM fieldText := by
  cases value with
  | map entries =>
    obtain rfl := Option.some.inj h
    rw [List.mapM_map]
    rfl
  | struct name members =>
    obtain rfl := Option.some.inj h
    rw [List.mapM_map]
    rfl
  | seq _ => obtain rfl := Option.some.inj h; rfl
  | tuple _ => obtain rfl := Option.some.inj h; rfl
  | tupleStruct _ _ => obtain rfl := Option.some.inj h; rfl
  | _ => cases h

/-- No field holds several items. -/
theorem fieldText_of_items (h : value.items? = some items) :
    ∃ shape, value.fieldText = .error (.unsupportedShape shape) := by
  cases value with
  | seq _ => exact ⟨_, rfl⟩
  | tuple _ => exact ⟨_, rfl⟩
  | tupleStruct _ _ => exact ⟨_, rfl⟩
  | map _ => exact ⟨_, rfl⟩
  | struct _ _ => exact ⟨_, rfl⟩
  | _ => cases h

/-- An integer has the same text in the type to which it is widened, and is refused in the same types. -/
theorem fields_int (type : IntType) (n : Int) : (int type n).fields = (int type n).fieldText.map ([·]) := by
  cases type <;> rfl

/-- A value that is not made of items is a record of its text. -/
theorem fields_of_no_items (h : value.unwrapped.items? = none) : value.fields = value.fieldText.map ([·]) := by
  fun_induction unwrapped value with
  | case1 value ih => exact ih h
  | case2 name value ih => exact ih h
  | case3 value notPresent notNamed =>
    cases value with
    | present inner => exact absurd rfl (notPresent inner)
    | newtypeStruct name inner => exact absurd rfl (notNamed name inner)
    | int type n => exact fields_int type n
    | seq _ => cases h
    | tuple _ => cases h
    | tupleStruct _ _ => cases h
    | map _ => cases h
    | struct _ _ => cases h
    | _ => rfl

end Value

/-- **The two ways of writing agree.** Under optional values and named types, a value made of items is written as the
record of the texts of its items, fails as the first item that has no text, and has no text itself. Any other value is
written as the record of its text, and fails as its text does. -/
theorem fields_agree_with_fieldText (value : Value) :
    (∀ items, value.unwrapped.items? = some items →
      (∀ texts, value.fields = .ok texts ↔
        List.Forall₂ (fun item text => Value.fieldText item = .ok text) items texts) ∧
      (∀ error, value.fields = .error error ↔ ∃ (i : Nat) (item : Value),
        items[i]? = some item ∧ item.fieldText = .error error ∧
          ∀ j < i, ∃ earlier text, items[j]? = some earlier ∧ earlier.fieldText = .ok text) ∧
      ∃ shape, value.fieldText = .error (.unsupportedShape shape)) ∧
    (value.unwrapped.items? = none → value.fields = value.fieldText.map ([·])) := by
  refine ⟨fun items h => ?_, Value.fields_of_no_items⟩
  have record : value.fields = items.mapM Value.fieldText := by
    rw [← value.fields_unwrapped]
    exact Value.fields_of_items h
  rw [record, ← value.fieldText_unwrapped]
  exact ⟨fun texts => mapM_eq_ok_iff, fun error => mapM_eq_error_iff, Value.fieldText_of_items h⟩

/-- A map in which a key fails, which nobody sees, and two values fail, of which the first decides. -/
theorem fields_agree_with_fieldText_map :
    let items : List Value := [.int .i8 (-5), .present (.seq [.unit]), .failing "late"]
    let value : Value := .present (.newtypeStruct "Row" (.map ([.failing "key", .unit, .unit].zip items)))
    value.unwrapped.items? = some items ∧ value.fields = .error (.unsupportedShape "nested sequences") := by
  intro items value
  have made : value.unwrapped.items? = some items := rfl
  obtain ⟨-, fails, -⟩ := (fields_agree_with_fieldText value).1 items made
  refine ⟨made, (fails _).2 ⟨1, .present (.seq [.unit]), rfl, rfl, fun j hj => ?_⟩⟩
  obtain rfl : j = 0 := by omega
  exact ⟨.int .i8 (-5), "-5", rfl, by rfl⟩

end DelimitedText
