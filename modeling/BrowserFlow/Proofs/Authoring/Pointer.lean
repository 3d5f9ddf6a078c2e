import BrowserFlow.Authoring.Violation
import BrowserFlow.Proofs.Entries
import BrowserFlow.Proofs.Json.Numeral
import BrowserFlow.Text.Lines
/-! Pointers into a document. The text of a pointer that leads somewhere is an RFC 6901 pointer to the same
value, and two pointers that both lead somewhere in one document have different texts. -/
set_option autoImplicit false

namespace BrowserFlow.Json

-- A tilde stands only before `0`, for itself, or before `1`, for a slash.
def unescape? : List Char → Option (List Char)
  | [] => some []
  | '~' :: '0' :: rest => (unescape? rest).map ('~' :: ·)
  | '~' :: '1' :: rest => (unescape? rest).map ('/' :: ·)
  | c :: rest => if c = '~' then none else (unescape? rest).map (c :: ·)

-- An index has no zeros in front.
def arrayIndex? (token : List Char) : Option Nat :=
  if Text.isDigits token ∧ (token.head? = some '0' → token = ['0']) then some (Text.digitsValue token)
  else none

def member? (token : List Char) : Json → Option Json
  | object entries => (unescape? token).bind fun key => Entries.find? (String.ofList key) entries
  | array items => (arrayIndex? token).bind fun place => items[place]?
  | _ => none

def resolve? (pointer : String) (document : Json) : Option Json :=
  match Text.splitAt '/' pointer.toList with
  | [] :: tokens => tokens.foldlM (fun value token => member? token value) document
  | _ => none

end BrowserFlow.Json

namespace BrowserFlow.Authoring

open Json

def Token.step? : Token → Json → Option Json
  | .key name, object entries => Entries.find? name entries
  | .index place, array items => items[place]?
  | _, _ => none

def Pointer.follow? : Pointer → Json → Option Json
  | [], value => some value
  | token :: rest, value => (token.step? value).bind (Pointer.follow? rest)

namespace Token

theorem unescape_escaped (name : List Char) : unescape? (name.flatMap escapeChar) = some name := by
  induction name with
  | nil => rfl
  | cons c rest ih =>
      rw [List.flatMap_cons]
      by_cases tilde : c = '~'
      · simp [tilde, escapeChar, unescape?, ih]
      · by_cases slash : c = '/'
        · simp [slash, escapeChar, unescape?, ih]
        · rw [escapeChar, if_neg tilde, if_neg slash, List.singleton_append, unescape?, if_neg tilde, ih]
          · rfl
          · simp [tilde]
          · simp [tilde]

theorem escape_unslashed (name : List Char) : '/' ∉ name.flatMap escapeChar := by
  simp only [List.mem_flatMap, not_exists, not_and]
  intro c _
  unfold escapeChar
  split
  · decide
  · split
    · decide
    · rename_i other
      simpa using Ne.symm other

theorem text_unslashed (token : Token) : '/' ∉ token.text.toList := by
  cases token with
  | key name => simpa [text] using escape_unslashed name.toList
  | index place =>
      intro slash
      have digit := digits_digit place '/' (by simpa [text, Text.ofNat] using slash)
      exact absurd digit (by decide)

theorem array_index_digits (place : Nat) : arrayIndex? (Text.decimalDigits place) = some place := by
  have lead : (Text.decimalDigits place).head? = some '0' → Text.decimalDigits place = ['0'] := by
    intro zero
    cases written : Text.decimalDigits place with
    | nil => simp [written] at zero
    | cons c tail =>
        have same : c = '0' := by simpa [written] using zero
        subst same
        have nothing := digits_lead place tail written
        subst nothing
        exact written.symm.trans rfl
  have digits : Text.isDigits (Text.decimalDigits place) = true := by
    simp only [Text.isDigits, Bool.and_eq_true, List.all_eq_true]
    exact ⟨by simp [Text.decimalDigits, Nat.toDigits_ne_nil], digits_digit place⟩
  rw [arrayIndex?, if_pos ⟨digits, lead⟩, digits_value]

theorem step_member (token : Token) (value found : Json) (there : token.step? value = some found) :
    member? token.text.toList value = some found := by
  cases token with
  | key name =>
      cases value with
      | object entries =>
          rw [step?] at there
          simp [member?, text, unescape_escaped, there]
      | _ => cases there
  | index place =>
      cases value with
      | array items =>
          rw [step?] at there
          simp [member?, text, Text.ofNat, array_index_digits, there]
      | _ => cases there

theorem text_injective (left right : Token) (value leftFound rightFound : Json)
    (leftThere : left.step? value = some leftFound) (rightThere : right.step? value = some rightFound)
    (same : left.text = right.text) : left = right := by
  cases left with
  | key name =>
      cases right with
      | key other =>
          simp only [text, String.ofList_inj] at same
          have escaped := congrArg unescape? same
          rw [unescape_escaped, unescape_escaped, Option.some.injEq] at escaped
          rw [String.ext escaped]
      | index _ => cases value <;> simp [step?] at leftThere rightThere
  | index place =>
      cases right with
      | key _ => cases value <;> simp [step?] at leftThere rightThere
      | index other =>
          simp only [text, Text.ofNat, String.ofList_inj] at same
          have read := congrArg Text.digitsValue same
          rw [digits_value, digits_value] at read
          rw [read]

end Token

namespace Pointer

theorem text_nonempty (token : Token) (rest : Pointer) :
    (Pointer.text (token :: rest)).toList =
      ((token :: rest).map Token.text).flatMap fun text => '/' :: text.toList := by
  simp [Pointer.text, String.toList_join, List.flatMap_map]

theorem text_split (token : Token) (rest : Pointer) :
    Text.splitAt '/' (Pointer.text (token :: rest)).toList =
      [] :: (token :: rest).map fun token => token.text.toList := by
  rw [text_nonempty, Text.split_at_iff]
  refine ⟨by simp [List.flatMap_map], by simp, ?_⟩
  intro piece member
  obtain ⟨token, _, rfl⟩ := List.mem_map.mp member
  exact token.text_unslashed

theorem follow_members (pointer : Pointer) (value found : Json)
    (there : pointer.follow? value = some found) :
    (pointer.map fun token => token.text.toList).foldlM (fun value token => member? token value) value =
      some found := by
  induction pointer generalizing value with
  | nil => exact there
  | cons token rest ih =>
      obtain ⟨next, stepped, others⟩ := Option.bind_eq_some_iff.mp there
      rw [List.map_cons, List.foldlM_cons, token.step_member value next stepped]
      exact ih next others

theorem text_resolves (token : Token) (rest : Pointer) (document found : Json)
    (there : Pointer.follow? (token :: rest) document = some found) :
    resolve? (Pointer.text (token :: rest)) document = some found := by
  rw [resolve?, text_split]
  exact follow_members (token :: rest) document found there

example : resolve? "/a~1b/0" (object [("a/b", array [null])]) = some null := by rfl

theorem texts_injective (left right : Pointer) (value leftFound rightFound : Json)
    (leftThere : left.follow? value = some leftFound) (rightThere : right.follow? value = some rightFound)
    (same : (left.map fun token => token.text.toList) = right.map fun token => token.text.toList) :
    left = right := by
  induction left generalizing right value with
  | nil => simpa using same
  | cons token rest ih =>
      cases right with
      | nil => simp at same
      | cons other others =>
          rw [List.map_cons, List.map_cons, List.cons.injEq, String.toList_inj] at same
          obtain ⟨next, stepped, leftRest⟩ := Option.bind_eq_some_iff.mp leftThere
          obtain ⟨otherNext, otherStepped, rightRest⟩ := Option.bind_eq_some_iff.mp rightThere
          have equal := token.text_injective other value next otherNext stepped otherStepped same.1
          subst equal
          rw [stepped, Option.some.injEq] at otherStepped
          subst otherStepped
          rw [ih others next leftRest rightRest same.2]

theorem text_injective (left right : Pointer) (document leftFound rightFound : Json)
    (leftThere : left.follow? document = some leftFound)
    (rightThere : right.follow? document = some rightFound)
    (same : Pointer.text left = Pointer.text right) : left = right := by
  have rooted : ∀ (token : Token) (rest : Pointer), Pointer.text (token :: rest) ≠ "(root)" := by
    intro token rest equal
    have written := text_nonempty token rest
    rw [equal] at written
    simp at written
  cases left with
  | nil =>
      cases right with
      | nil => rfl
      | cons token rest => exact absurd same.symm (rooted token rest)
  | cons token rest =>
      cases right with
      | nil => exact absurd same (rooted token rest)
      | cons other others =>
          have split := congrArg (fun text : String => Text.splitAt '/' text.toList) same
          rw [text_split, text_split, List.cons.injEq] at split
          exact texts_injective _ _ document leftFound rightFound leftThere rightThere split.2

end Pointer

end BrowserFlow.Authoring
