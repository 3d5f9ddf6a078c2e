import BrowserFlow.Reference
import BrowserFlow.Proofs.Text.Pieces
/-! Tokens of authored texts. A token names a scope and a name in it, and no two spellings are one token. -/
set_option autoImplicit false

namespace BrowserFlow.Meaning

def scopeOf? : String → Option Scope
  | "extract" => some .extract
  | "input" => some .input
  | "constants" => some .constants
  | _ => none

-- A token such as `${input.keyword}` at the head of a text: its scope, its name, and the text that
-- follows.
def token? (chars : List Char) : Option (Scope × String × List Char) :=
  match chars with
  | '$' :: '\x7b' :: rest =>
    match scopeOf? (String.ofList (rest.takeWhile Text.isLetter)), rest.dropWhile Text.isLetter with
    | some scope, '.' :: tail =>
      let name := tail.takeWhile Text.continuesIdentifier
      match tail.dropWhile Text.continuesIdentifier with
      | '\x7d' :: after =>
        if Text.isIdentifier name then some (scope, String.ofList name, after) else none
      | _ => none
    | _, _ => none
  | _ => none

theorem scope_of_iff (word : String) (scope : Scope) :
    scopeOf? word = some scope ↔ word = scope.name := by
  constructor
  · intro known
    unfold scopeOf? at known
    split at known <;> cases known <;> rfl
  · rintro rfl
    cases scope <;> rfl

theorem scope_letters (scope : Scope) : ∀ c ∈ scope.name.toList, Text.isLetter c = true := by
  rw [← List.all_eq_true]
  cases scope <;> rfl

theorem token_iff (chars after : List Char) (scope : Scope) (name : String) :
    token? chars = some (scope, name, after) ↔
      chars = '$' :: '\x7b' :: (scope.name.toList ++ '.' :: (name.toList ++ '\x7d' :: after)) ∧
        Text.isIdentifier name.toList = true := by
  constructor
  · intro found
    unfold token? at found
    split at found
    · rename_i rest
      split at found
      · rename_i _ _ known tail inScope pointed
        dsimp only at found
        split at found
        · rename_i _ behind closed
          split at found
          · rename_i identifier
            simp only [Option.some.injEq, Prod.mk.injEq] at found
            obtain ⟨rfl, rfl, rfl⟩ := found
            have scopeWord := (scope_of_iff _ _).mp inScope
            have front := List.takeWhile_append_dropWhile (p := Text.isLetter) (l := rest)
            have back := List.takeWhile_append_dropWhile (p := Text.continuesIdentifier) (l := tail)
            rw [closed] at back
            rw [pointed, ← back] at front
            refine ⟨?_, by simpa using identifier⟩
            rw [← scopeWord, String.toList_ofList, String.toList_ofList, front]
          · cases found
        · cases found
      · cases found
    · cases found
  · rintro ⟨rfl, identifier⟩
    have letters := scope_letters scope
    have continues := Text.identifier_continues name.toList identifier
    have inScope := (scope_of_iff scope.name scope).mpr rfl
    simp only [token?,
      Text.take_while_stop Text.isLetter _ _ '.' letters (by decide),
      Text.drop_while_stop Text.isLetter _ _ '.' letters (by decide),
      Text.take_while_stop Text.continuesIdentifier _ _ '\x7d' continues (by decide),
      Text.drop_while_stop Text.continuesIdentifier _ _ '\x7d' continues (by decide),
      inScope, identifier, if_true, String.ofList_toList]

theorem token_shorter (chars after : List Char) (scope : Scope) (name : String)
    (token : token? chars = some (scope, name, after)) : after.length < chars.length := by
  rw [((token_iff chars after scope name).mp token).1]
  simp only [List.length_cons, List.length_append]
  omega

end BrowserFlow.Meaning
