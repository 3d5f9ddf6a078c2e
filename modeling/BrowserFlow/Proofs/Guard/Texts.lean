import BrowserFlow.Proofs.Guard.Order
import BrowserFlow.Proofs.Number.Decimal
import BrowserFlow.Proofs.Sources.Precedence
import BrowserFlow.Proofs.Text.Trimming
/-! Guards on whole numbers and on their texts. The cells of a batch are texts where other sources have
numbers; relations with numbers and truth values cannot tell the two apart. -/
set_option autoImplicit false

namespace BrowserFlow

open Json Number

def Spells (text : String) (value : Int) : Prop :=
  ∃ before after, (∀ c ∈ before ++ after, Text.isBlank c = true) ∧
    text.toList = before ++ (Text.ofInt value).toList ++ after

theorem numeral_unblank (c : Char) (numeral : isNumeral c = true) : Text.isBlank c = false := by
  simp only [isNumeral, Bool.or_eq_true, beq_iff_eq] at numeral
  rcases numeral with (((digit | rfl) | rfl) | rfl) | rfl
  · exact Text.identifier_unblank c (by simp [Text.continuesIdentifier, digit])
  all_goals decide

theorem spelled_trimmed (text : String) (value : Int) (spells : Spells text value) :
    Text.trimChars text.toList = (Text.ofInt value).toList := by
  obtain ⟨before, after, blank, written⟩ := spells
  rw [written, Text.trim_margin_behind _ after fun c member => blank c (List.mem_append_right _ member),
    Text.trim_margin before _ fun c member => blank c (List.mem_append_left _ member),
    Text.trim_free _ fun c member => numeral_unblank c (whole_numerals value c member)]

theorem spelled_number (text : String) (value : Int) (fits : fitsInteger value = true)
    (spells : Spells text value) : numeric? (string text) = numeric? (integer value) := by
  simp only [numeric?, spelled_trimmed text value spells, whole_read value fits]

def Stands (value : Json) (whole : Int) : Prop :=
  value = integer whole ∨ ∃ text, value = string text ∧ Spells text whole

theorem stands_number (value : Json) (whole : Int) (fits : fitsInteger whole = true)
    (stands : Stands value whole) : numeric? value = numeric? (integer whole) := by
  rcases stands with rfl | ⟨text, rfl, spells⟩
  · rfl
  · exact spelled_number text whole fits spells

def SameNumber (one other : Option Json) : Prop :=
  one = other ∨ ∃ whole left right, fitsInteger whole = true ∧ one = some left ∧
    other = some right ∧ Stands left whole ∧ Stands right whole

theorem stands_leaf (value : Json) (whole : Int) (stands : Stands value whole) (segment : String)
    (rest : List String) : Context.follow value (segment :: rest) = none := by
  rcases stands with rfl | ⟨text, rfl, _⟩
  · rfl
  · rfl

theorem set_same_number (context : Context) (scope : Scope) (key : String) (left right : Json)
    (whole : Int) (fits : fitsInteger whole = true) (leftStands : Stands left whole)
    (rightStands : Stands right whole) (field : Reference) :
    SameNumber ((context.set scope key left).lookup field)
      ((context.set scope key right).lookup field) := by
  unfold Context.lookup
  cases field.path with
  | nil => exact .inl rfl
  | cons first rest =>
      have leftFound := context.set_value_at scope field.scope key first left
      have rightFound := context.set_value_at scope field.scope key first right
      simp only [Context.valueAt] at leftFound rightFound
      simp only [leftFound, rightFound]
      split
      · cases rest with
        | nil => exact .inr ⟨whole, left, right, fits, rfl, rfl, leftStands, rightStands⟩
        | cons segment more =>
            refine .inl ?_
            rw [Option.bind_some, Option.bind_some, stands_leaf left whole leftStands,
              stands_leaf right whole rightStands]
      · exact .inl rfl

def isFixedNumber (value : Json) : Bool :=
  value.isNumber || value.isBool

theorem fixed_no_text (value : Json) (fixed : isFixedNumber value = true) : value.string? = none := by
  cases value with
  | string text => cases fixed
  | _ => rfl

theorem relation_agrees (relation : Comparison) (relational : relation.isRelational = true)
    (one other : Option Json) (same : SameNumber one other) (value : Json)
    (fixed : isFixedNumber value = true) : relation.holds one value = relation.holds other value := by
  rcases same with rfl | ⟨whole, left, right, fits, rfl, rfl, leftStands, rightStands⟩
  · rfl
  · have apart := fixed_no_text value fixed
    have ordered : order? left value = order? right value := by
      rw [order_numbers left value (.inr apart), order_numbers right value (.inr apart),
        stands_number left whole fits leftStands, stands_number right whole fits rightStands]
    rw [Comparison.relation_holds relation relational, Comparison.relation_holds relation relational,
      Option.bind_some, Option.bind_some, ordered]

namespace Guard

inductive Relational : Guard → Prop where
  | compare (field : Reference) (relation : Comparison) (value : Json)
      (relational : relation.isRelational = true) (fixed : isFixedNumber value = true) :
      Relational (.compare field relation value)
  | group (combination : Combination) (parts : List Guard) (each : ∀ part ∈ parts, Relational part) :
      Relational (.group combination parts)

theorem parts_agree (parts : List Guard) (one other : Context)
    (agree : ∀ part ∈ parts, part.holds one = part.holds other) :
    allHold one parts = allHold other parts ∧ anyHolds one parts = anyHolds other parts := by
  induction parts with
  | nil => exact ⟨rfl, rfl⟩
  | cons part rest ih =>
      obtain ⟨here, later⟩ := List.forall_mem_cons.mp agree
      obtain ⟨all, any⟩ := ih later
      rw [allHold, allHold, anyHolds, anyHolds, here, all, any]
      exact ⟨rfl, rfl⟩

theorem part_references (parts : List Guard) : partReferences parts = parts.flatMap references := by
  induction parts with
  | nil => rfl
  | cons part rest ih => rw [partReferences, ih, List.flatMap_cons]

theorem relational_agrees (guard : Guard) (relational : guard.Relational) (one other : Context)
    (same : ∀ field ∈ guard.references, SameNumber (one.lookup field) (other.lookup field)) :
    guard.holds one = guard.holds other := by
  induction relational with
  | compare field relation value relational fixed =>
      have here := same field (by simp [references])
      rw [holds, holds]
      exact relation_agrees relation relational _ _ here value fixed
  | group combination parts each ih =>
      have agree : ∀ part ∈ parts, part.holds one = part.holds other := fun part member =>
        ih part member fun field read => same field (by
          rw [references, part_references]
          exact List.mem_flatMap.mpr ⟨part, member, read⟩)
      obtain ⟨all, any⟩ := parts_agree parts one other agree
      cases combination with
      | all => exact all
      | any => exact any

-- A guard built of relations with numbers and truth values holds of a field with a whole number just when
-- it holds of the field with a text that spells the number, alone and for any choice of its fields.
theorem spellings_hold_alike (guard : Guard) (relational : guard.Relational) :
    (∀ one other : Context,
      (∀ field ∈ guard.references, SameNumber (one.lookup field) (other.lookup field)) →
        guard.holds one = guard.holds other) ∧
    ∀ (context : Context) (scope : Scope) (key text : String) (whole : Int),
      fitsInteger whole = true → Spells text whole →
        guard.holds (context.set scope key (integer whole)) =
          guard.holds (context.set scope key (string text)) := by
  refine ⟨relational_agrees guard relational, fun context scope key text whole fits spells => ?_⟩
  refine relational_agrees guard relational _ _ fun field _ => ?_
  exact set_same_number context scope key _ _ whole fits (.inl rfl) (.inr ⟨text, rfl, spells⟩) field

def balance : Reference := ⟨.extract, ["balance"]⟩

-- The balance is below one, and at least a number that doubles do not tell from it; or it is positive.
def overdrawn : Guard :=
  .group .any [
    .group .all [.compare balance .less (bool true),
      .compare balance .greaterOrEqual (integer (-9007199254740992))],
    .compare balance .greater (float .zero)]

theorem overdrawn_relational : overdrawn.Relational := by
  refine .group .any _ (List.forall_mem_cons.mpr ⟨?_, List.forall_mem_singleton.mpr ?_⟩)
  · refine .group .all _ (List.forall_mem_cons.mpr ⟨?_, List.forall_mem_singleton.mpr ?_⟩)
    · exact .compare balance .less (bool true) rfl rfl
    · exact .compare balance .greaterOrEqual _ rfl rfl
  · exact .compare balance .greater _ rfl rfl

theorem spellings_hold_alike_overdrawn :
    overdrawn.Relational ∧ fitsInteger (-9007199254740993) = true ∧
      Spells "\t-9007199254740993 " (-9007199254740993) ∧
      overdrawn.holds (Context.empty.set .extract "balance" (integer (-9007199254740993))) = true ∧
      overdrawn.holds (Context.empty.set .extract "balance" (string "\t-9007199254740993 ")) = true := by
  have fits : fitsInteger (-9007199254740993) = true := by decide +kernel
  have spells : Spells "\t-9007199254740993 " (-9007199254740993) :=
    ⟨['\t'], [' '], by simp [Text.isBlank], by decide +kernel⟩
  have number : overdrawn.holds (Context.empty.set .extract "balance" (integer (-9007199254740993))) =
      true := by decide +kernel
  have same := (spellings_hold_alike overdrawn overdrawn_relational).2 .empty .extract "balance" _ _ fits
    spells
  exact ⟨overdrawn_relational, fits, spells, number, same ▸ number⟩

end Guard

end BrowserFlow
