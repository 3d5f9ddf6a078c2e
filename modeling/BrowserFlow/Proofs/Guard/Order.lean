import BrowserFlow.Guard
/-! The six comparisons as one order. Whether two values have an order is a matter of the values alone, and
the comparisons of values that have one never contradict each other. -/
set_option autoImplicit false

namespace BrowserFlow

open Json Number

-- Two texts have an order, and so have two values that both stand for numbers. A text may stand for the
-- number that is none, which has no order.
inductive Ordered : Json → Json → Prop where
  | texts (left right : String) : Ordered (string left) (string right)
  | numbers (left right : Json) (one other : Extended) (stands : numeric? left = some one)
      (otherStands : numeric? right = some other) (proper : one ≠ .notANumber)
      (otherProper : other ≠ .notANumber) : Ordered left right

theorem compared_iff (one other : Extended) :
    (∃ order, one.compare? other = some order) ↔ one ≠ .notANumber ∧ other ≠ .notANumber := by
  cases one <;> cases other <;> simp [Extended.compare?]

theorem order_numbers (left right : Json) (apart : left.string? = none ∨ right.string? = none) :
    order? left right =
      (numeric? left).bind fun one => (numeric? right).bind fun other => one.compare? other := by
  unfold order?
  split
  · simp [string?] at apart
  · cases numeric? left with
    | none => rfl
    | some one => cases numeric? right <;> rfl

theorem order_iff (left right : Json) :
    (∃ order, order? left right = some order) ↔ Ordered left right := by
  by_cases texts : left.string? = none ∨ right.string? = none
  · rw [order_numbers left right texts]
    simp only [Option.bind_eq_some_iff]
    constructor
    · rintro ⟨order, one, stands, other, otherStands, compared⟩
      obtain ⟨proper, otherProper⟩ := (compared_iff one other).mp ⟨order, compared⟩
      exact .numbers left right one other stands otherStands proper otherProper
    · intro ordered
      cases ordered with
      | texts left right => simp [string?] at texts
      | numbers _ _ one other stands otherStands proper otherProper =>
          obtain ⟨order, compared⟩ := (compared_iff one other).mpr ⟨proper, otherProper⟩
          exact ⟨order, one, stands, other, otherStands, compared⟩
  · cases left <;> cases right <;> simp [string?] at texts
    case string.string left right => exact ⟨fun _ => .texts left right, fun _ => ⟨_, rfl⟩⟩

theorem double_stands (value : Json) (double : Double) (known : value.toDouble? = some double) :
    numeric? value = some (.finite double) := by
  cases value <;> cases known <;> rfl

theorem same_double_order (left right : Double) (same : left.same right = true) :
    (Extended.finite left).compare? (.finite right) = some .eq := by
  have units : left.signedUnits = right.signedUnits := by simpa [Double.same] using same
  simp [Extended.compare?, units]

theorem equal_order (actual expected : Json) (scalar : expected.isScalar = true)
    (equal : strictlyEqual actual expected = true) : order? actual expected = some .eq := by
  unfold strictlyEqual at equal
  split at equal
  · rename_i left right leftDouble rightDouble
    have apart : expected.string? = none := by
      cases expected with
      | string text => cases rightDouble
      | _ => rfl
    rw [order_numbers actual expected (.inr apart), double_stands actual left leftDouble,
      double_stands expected right rightDouble]
    exact same_double_order left right equal
  · rename_i unlike
    cases expected with
    | string text =>
        cases actual with
        | string other =>
            have alike : other = text := by simpa [same] using equal
            rw [alike]
            simp [order?]
        | _ => cases equal
    | bool flag =>
        cases actual with
        | bool other =>
            have alike : other = flag := by simpa [same] using equal
            rw [alike, order_numbers _ _ (.inl rfl)]
            exact same_double_order _ _ (by simp [Double.same])
        | _ => cases equal
    | integer value =>
        cases actual with
        | integer other => exact absurd rfl (unlike _ _ rfl)
        | _ => cases equal
    | float value =>
        cases actual with
        | float other => exact absurd rfl (unlike _ _ rfl)
        | _ => cases equal
    | _ => cases scalar

def Comparable (actual : Option Json) (expected : Json) : Prop :=
  ∃ value ∈ actual, Ordered value expected

def ExactlyOne (first second third : Prop) : Prop :=
  (first ∧ ¬second ∧ ¬third) ∨ (¬first ∧ second ∧ ¬third) ∨ (¬first ∧ ¬second ∧ third)

structure Consistent (actual : Option Json) (expected : Json) (holds : Comparison → Bool) :
    Prop where
  different : holds .notEqual = !holds .equal
  ordered : Comparable actual expected →
    ExactlyOne (holds .less = true) (holds .greater = true)
        (holds .greaterOrEqual = true ∧ holds .lessOrEqual = true) ∧
      holds .greaterOrEqual = (!holds .less) ∧ holds .lessOrEqual = !holds .greater
  unordered : ¬Comparable actual expected →
    holds .greater = false ∧ holds .less = false ∧ holds .greaterOrEqual = false ∧
      holds .lessOrEqual = false
  equal : holds .equal = true → holds .greaterOrEqual = true ∧ holds .lessOrEqual = true
  absent : actual = none → ∀ comparison, holds comparison = true ↔ comparison = .notEqual

namespace Comparison

def isRelational : Comparison → Bool
  | equal | notEqual => false
  | greater | less | greaterOrEqual | lessOrEqual => true

theorem relations_allow (order : Ordering) :
    ExactlyOne (less.allows order = true) (greater.allows order = true)
        (greaterOrEqual.allows order = true ∧ lessOrEqual.allows order = true) ∧
      greaterOrEqual.allows order = (!less.allows order) ∧
      lessOrEqual.allows order = !greater.allows order := by
  cases order <;> simp [ExactlyOne, allows]

theorem relation_holds (relation : Comparison) (relational : relation.isRelational = true)
    (actual : Option Json) (expected : Json) :
    relation.holds actual expected =
      (actual.bind fun actual => order? actual expected).any relation.allows := by
  cases relation with
  | equal => cases relational
  | notEqual => cases relational
  | _ =>
      unfold holds
      cases actual.bind fun actual => order? actual expected <;> rfl

theorem comparable_order (actual : Option Json) (expected : Json) :
    Comparable actual expected ↔
      ∃ order, (actual.bind fun actual => order? actual expected) = some order := by
  simp only [Comparable, ← order_iff, Option.bind_eq_some_iff, Option.mem_def]
  exact ⟨fun ⟨value, there, order, known⟩ => ⟨order, value, there, known⟩,
    fun ⟨order, value, there, known⟩ => ⟨value, there, order, known⟩⟩

theorem comparisons_consistent (actual : Option Json) (expected : Json)
    (scalar : expected.isScalar = true) :
    Consistent actual expected fun comparison => comparison.holds actual expected where
  different := rfl
  ordered := by
    intro comparable
    obtain ⟨order, known⟩ := (comparable_order actual expected).mp comparable
    have allowed : ∀ relation : Comparison, relation.isRelational = true →
        relation.holds actual expected = relation.allows order := fun relation relational => by
      rw [relation_holds relation relational, known, Option.any_some]
    rw [allowed less rfl, allowed greater rfl, allowed greaterOrEqual rfl, allowed lessOrEqual rfl]
    exact relations_allow order
  unordered := by
    intro incomparable
    have unknown : (actual.bind fun actual => order? actual expected) = none :=
      Option.eq_none_iff_forall_ne_some.mpr fun order known =>
        incomparable ((comparable_order actual expected).mpr ⟨order, known⟩)
    have refused : ∀ relation : Comparison, relation.isRelational = true →
        relation.holds actual expected = false := fun relation relational => by
      rw [relation_holds relation relational, unknown, Option.any_none]
    exact ⟨refused greater rfl, refused less rfl, refused greaterOrEqual rfl, refused lessOrEqual rfl⟩
  equal := by
    intro holdsEqual
    obtain ⟨value, there, equal⟩ := (Option.any_eq_true _ _).mp holdsEqual
    have known : (actual.bind fun actual => order? actual expected) = some .eq := by
      rw [Option.mem_def.mp there, Option.bind_some]
      exact equal_order value expected scalar equal
    rw [relation_holds greaterOrEqual rfl, relation_holds lessOrEqual rfl, known]
    exact ⟨rfl, rfl⟩
  absent := by
    rintro rfl comparison
    cases comparison <;> simp [holds]

end Comparison

namespace Guard

-- Guards that compare one reference with one fixed value never contradict each other: where there is an
-- order exactly one of before, behind and neither is the case, and where there is none no relation holds.
theorem comparisons_one_order (context : Context) (field : Reference) (expected : Json)
    (scalar : expected.isScalar = true) :
    Consistent (context.lookup field) expected fun comparison =>
      (compare field comparison expected).holds context := by
  simpa only [holds] using
    Comparison.comparisons_consistent (context.lookup field) expected scalar

def labelled : Context := ⟨[("label", string " 15000")], [], [], 0⟩

def label : Reference := ⟨.extract, ["label"]⟩

theorem comparisons_one_order_label :
    (integer 15000).isScalar = true ∧
      Consistent (labelled.lookup label) (integer 15000) (fun comparison =>
        (compare label comparison (integer 15000)).holds labelled) ∧
      (compare label .equal (integer 15000)).holds labelled = false ∧
      (compare label .greaterOrEqual (integer 15000)).holds labelled = true ∧
      (compare label .lessOrEqual (integer 15000)).holds labelled = true :=
  ⟨rfl, comparisons_one_order labelled label (integer 15000) rfl, by decide +kernel,
    by decide +kernel, by decide +kernel⟩

end Guard

end BrowserFlow
