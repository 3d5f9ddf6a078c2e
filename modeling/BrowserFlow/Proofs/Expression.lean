import Mathlib.Data.List.TakeWhile
import BrowserFlow.Proofs.Condition
/-! Values of steps. The scanner finds the tokens of a text where one reads them, and so an expression has
the value that its text means. -/
set_option autoImplicit false

namespace BrowserFlow

open Json

namespace Meaning

theorem substitute_token (context : Context) (c : Char) (rest after : List Char) (scope : Scope)
    (name : String) (token : token? (c :: rest) = some (scope, name, after)) :
    substitute context (c :: rest) = replacement context scope name ++ substitute context after := by
  rw [substitute]
  split
  · rename_i found
    rw [token] at found
    cases found
    rfl
  · rename_i found
    rw [token] at found
    cases found

theorem substitute_char (context : Context) (c : Char) (rest : List Char)
    (plain : token? (c :: rest) = none) :
    substitute context (c :: rest) = c :: substitute context rest := by
  rw [substitute]
  split
  · rename_i found
    rw [plain] at found
    cases found
  · rfl

end Meaning

namespace Segment

theorem split_token_iff (chars inside after : List Char) :
    splitToken chars = some (inside, after) ↔
      chars = '$' :: '\x7b' :: (inside ++ '\x7d' :: after) ∧ '\x7d' ∉ inside := by
  constructor
  · intro found
    unfold splitToken at found
    split at found
    · rename_i rest
      have whole := List.takeWhile_append_dropWhile (p := (· ≠ '\x7d')) (l := rest)
      have stopped := List.head?_dropWhile_not (· ≠ '\x7d') rest
      split at found
      · cases found
      · rename_i brace tail closed
        simp only [Option.some.injEq, Prod.mk.injEq] at found
        obtain ⟨rfl, rfl⟩ := found
        rw [closed] at stopped
        have stop : brace = '\x7d' := by simpa using stopped
        rw [closed, stop] at whole
        refine ⟨by rw [whole], fun member => ?_⟩
        simpa using List.mem_takeWhile_imp member
    · cases found
  · rintro ⟨rfl, free⟩
    have inner : ∀ c ∈ inside, decide (c ≠ '\x7d') = true := by
      intro c member
      simp only [decide_eq_true_iff]
      exact fun same => free (same ▸ member)
    simp only [splitToken, Text.take_while_stop _ inside after '\x7d' inner (by simp),
      Text.drop_while_stop _ inside after '\x7d' inner (by simp)]

end Segment

theorem identifier_free (word : List Char) (valid : Text.isIdentifier word = true) (c : Char)
    (foreign : Text.continuesIdentifier c = false) : c ∉ word :=
  Text.free_of_class _ word (Text.identifier_continues word valid) c foreign

theorem scope_free (scope : Scope) (c : Char) (foreign : Text.isLetter c = false) :
    c ∉ scope.name.toList :=
  Text.free_of_class _ _ (Meaning.scope_letters scope) c foreign

namespace Reference

theorem read_single_iff (chars : List Char) (reference : Reference) :
    readSingle? chars = some reference ↔
      ∃ scope name, reference = ⟨scope, [name]⟩ ∧
        chars = scope.name.toList ++ '.' :: name.toList ∧
        Text.isIdentifier name.toList = true := by
  constructor
  · intro found
    unfold readSingle? at found
    split at found
    · rename_i scopeWord name cut
      split at found
      · rename_i identifier
        obtain ⟨scope, known, rfl⟩ := Option.map_eq_some_iff.mp found
        have same := (scope_known_iff _ scope).mp known
        have written := (Text.split_at_written '.' chars scopeWord [name] cut).1
        refine ⟨scope, String.ofList name, rfl, ?_, by simpa using identifier⟩
        rw [← same, written]
        simp
      · cases found
    · cases found
  · rintro ⟨scope, name, rfl, rfl, identifier⟩
    have cut : Text.splitAt '.' (scope.name.toList ++ '.' :: name.toList) =
        [scope.name.toList, name.toList] := by
      rw [Text.split_at_piece '.' _ _ (scope_free scope '.' (by decide)),
        Text.split_at_free '.' _ (identifier_free _ identifier '.' (by decide))]
    have known := (scope_known_iff scope.name scope).mpr rfl
    simp [readSingle?, cut, identifier, known]

end Reference

namespace Segment

theorem read_token_iff (chars after : List Char) (reference : Reference) :
    readToken chars = some (reference, after) ↔
      ∃ scope name, reference = ⟨scope, [name]⟩ ∧
        Meaning.token? chars = some (scope, name, after) := by
  simp only [readToken, bind, Option.bind_eq_some_iff, pure, Option.some.injEq, Prod.exists,
    Prod.mk.injEq, split_token_iff, Reference.read_single_iff, Meaning.token_iff]
  constructor
  · rintro ⟨_, _, ⟨rfl, _⟩, _, ⟨scope, name, rfl, rfl, identifier⟩, rfl, rfl⟩
    exact ⟨scope, name, rfl, by simp, identifier⟩
  · rintro ⟨scope, name, rfl, rfl, identifier⟩
    refine ⟨scope.name.toList ++ '.' :: name.toList, after, ⟨by simp, ?_⟩, _,
      ⟨scope, name, rfl, rfl, identifier⟩, rfl, rfl⟩
    simp [scope_free scope '\x7d' (by decide), identifier_free _ identifier '\x7d' (by decide)]

theorem read_token_eq (chars : List Char) :
    readToken chars =
      (Meaning.token? chars).map fun token => (⟨token.1, [token.2.1]⟩, token.2.2) := by
  apply Option.ext
  rintro ⟨reference, after⟩
  rw [read_token_iff, Option.map_eq_some_iff]
  constructor
  · rintro ⟨scope, name, rfl, token⟩
    exact ⟨(scope, name, after), token, rfl⟩
  · rintro ⟨⟨scope, name, rest⟩, token, same⟩
    cases same
    exact ⟨scope, name, rfl, token⟩

def rendered (context : Context) (segments : List Segment) : List Char :=
  segments.flatMap fun segment => (segment.render context).toList

theorem rendered_with_text (context : Context) (front : List Char) (segments : List Segment) :
    rendered context (withText front segments) = front ++ rendered context segments := by
  cases front with
  | nil => simp [withText]
  | cons c rest => simp [withText, rendered, render]

theorem lookup_single (context : Context) (scope : Scope) (name : String) :
    context.lookup ⟨scope, [name]⟩ = Entries.find? name (context.scope scope) := by
  cases found : Entries.find? name (context.scope scope) <;>
    simp [Context.lookup, Context.follow, found]

theorem render_token (context : Context) (scope : Scope) (name : String) :
    ((Segment.reference ⟨scope, [name]⟩).render context).toList =
      Meaning.replacement context scope name := by
  rw [render, lookup_single, Meaning.replacement]
  cases Entries.find? name (context.scope scope) <;> rfl

theorem scan_substituted (context : Context) (fuel : Nat) (chars : List Char)
    (enough : chars.length ≤ fuel) :
    (scan fuel chars).1 ++ rendered context (scan fuel chars).2 =
      Meaning.substitute context chars := by
  induction fuel generalizing chars with
  | zero =>
      rw [List.length_eq_zero_iff.mp (Nat.le_zero.mp enough)]
      simp [scan, rendered, Meaning.substitute]
  | succ fuel ih =>
      cases chars with
      | nil => simp [scan, rendered, Meaning.substitute]
      | cons c rest =>
          cases token : Meaning.token? (c :: rest) with
          | some found =>
              rcases found with ⟨scope, name, after⟩
              have shorter := Meaning.token_shorter _ _ _ _ token
              have next := ih after (by simp only [List.length_cons] at enough shorter; omega)
              rw [Meaning.substitute_token context c rest after scope name token, ← next,
                ← rendered_with_text context (scan fuel after).1 (scan fuel after).2,
                ← render_token]
              simp only [scan, read_token_eq, token, Option.map_some]
              rfl
          | none =>
              have next := ih rest (by simpa using enough)
              rw [Meaning.substitute_char context c rest token, ← next]
              simp only [scan, read_token_eq, token, Option.map_none, List.cons_append]

theorem scan_plain (fuel : Nat) (chars : List Char) (enough : chars.length ≤ fuel)
    (plain : (scan fuel chars).2 = []) : (scan fuel chars).1 = chars := by
  induction fuel generalizing chars with
  | zero =>
      rw [List.length_eq_zero_iff.mp (Nat.le_zero.mp enough)]
      rfl
  | succ fuel ih =>
      cases chars with
      | nil => rfl
      | cons c rest =>
          rw [scan] at plain ⊢
          cases token : readToken (c :: rest) with
          | some found => simp [token] at plain
          | none =>
              simp only [token] at plain ⊢
              rw [ih rest (by simpa using enough) plain]

theorem scan_begins (fuel : Nat) (chars : List Char) (segment : Segment) (others : List Segment)
    (found : (scan fuel chars).2 = segment :: others) : ∃ target, segment = .reference target := by
  induction fuel generalizing chars with
  | zero => cases found
  | succ fuel ih =>
      cases chars with
      | nil => cases found
      | cons c rest =>
          rw [scan] at found
          cases token : readToken (c :: rest) with
          | some read =>
              simp only [token, List.cons.injEq] at found
              exact ⟨read.1, found.1.symm⟩
          | none =>
              simp only [token] at found
              exact ih rest found

theorem with_text_nil (front : List Char) (segments : List Segment)
    (empty : withText front segments = []) : front = [] ∧ segments = [] := by
  cases front with
  | nil => exact ⟨rfl, empty⟩
  | cons c rest => cases empty

theorem of_text_single (raw : String) (target : Reference) :
    ofText raw = [.reference target] ↔ readToken raw.toList = some (target, []) := by
  unfold ofText
  cases raw.toList with
  | nil => simp [scan, withText, readToken, splitToken]
  | cons c rest =>
      rw [List.length_cons, scan]
      cases token : readToken (c :: rest) with
      | none => simp [withText]
      | some found =>
          rcases found with ⟨first, after⟩
          have shorter : after.length ≤ rest.length := by
            obtain ⟨scope, name, _, known⟩ := (read_token_iff _ _ _).mp token
            have shorter := Meaning.token_shorter _ _ _ _ known
            simp only [List.length_cons] at shorter
            omega
          constructor
          · intro single
            simp only [withText, List.isEmpty_nil, if_true, List.cons.injEq, reference.injEq] at single
            obtain ⟨front, segments⟩ := with_text_nil _ _ single.2
            have whole := scan_plain rest.length after shorter segments
            rw [single.1, ← whole, front]
          · intro same
            cases same
            cases rest.length <;> rfl

theorem of_text_plain (raw : String)
    (plain : (ofText raw).any (fun segment => segment.reference?.isSome) = false) :
    (scan raw.toList.length raw.toList).2 = [] := by
  cases found : (scan raw.toList.length raw.toList).2 with
  | nil => rfl
  | cons segment others =>
      obtain ⟨target, rfl⟩ := scan_begins _ _ _ _ found
      have member : Segment.reference target ∈ ofText raw := by
        unfold ofText
        cases front : (scan raw.toList.length raw.toList).1 <;> simp [withText, front, found]
      rw [List.any_eq_false] at plain
      exact absurd rfl (plain _ member)

end Segment

namespace Expression

theorem of_text_value (context : Context) (raw : String) :
    (ofText raw).value context = Meaning.valueOf context (string raw) := by
  have meant := Segment.scan_substituted context _ raw.toList (Nat.le_refl _)
  by_cases single : ∃ scope name, Meaning.token? raw.toList = some (scope, name, [])
  · obtain ⟨scope, name, token⟩ := single
    have one := (Segment.of_text_single raw ⟨scope, [name]⟩).mpr (by
      rw [Segment.read_token_eq, token, Option.map_some])
    simp only [ofText, one, Meaning.valueOf, token, value, evaluate, Segment.lookup_single]
    cases Entries.find? name (context.scope scope) <;> rfl
  · have many : ∀ target, Segment.ofText raw ≠ [.reference target] := by
      intro target one
      obtain ⟨scope, name, _, token⟩ := (Segment.read_token_iff _ _ _).mp
        ((Segment.of_text_single raw target).mp one)
      exact single ⟨scope, name, token⟩
    have means : Meaning.valueOf context (string raw) =
        .ok (string (String.ofList (Meaning.substitute context raw.toList))) := by
      rw [Meaning.valueOf]
      split
      · rename_i scope name token
        exact absurd ⟨scope, name, token⟩ single
      · rfl
    rw [means, ofText]
    split
    · rename_i target one
      exact absurd one (many target)
    · split
      · rename_i some
        have joined : String.join ((Segment.ofText raw).map (Segment.render context)) =
            String.ofList (Meaning.substitute context raw.toList) := by
          apply String.toList_injective
          rw [String.toList_join, String.toList_ofList, List.flatMap_map, ← meant,
            ← Segment.rendered_with_text]
          rfl
        simp only [value, evaluate, joined]
      · rename_i none
        have plain := Segment.of_text_plain raw (by simpa using none)
        have front := Segment.scan_plain _ raw.toList (Nat.le_refl _) plain
        rw [plain, front] at meant
        simp only [value, evaluate, ← meant]
        simp [Segment.rendered]

theorem of_value_value (context : Context) (authored : Json) :
    (ofValue authored).value context = Meaning.valueOf context authored := by
  cases authored with
  | string raw => exact of_text_value context raw
  | _ => rfl

end Expression

end BrowserFlow
