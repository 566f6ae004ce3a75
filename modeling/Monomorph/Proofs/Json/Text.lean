import Mathlib
import Monomorph.Json.Reader

/-! String tokens.

The format lets a character be written as it is, by a letter, by its number, or by the two
numbers of a surrogate pair. Both readers of tokens, the one that looks for the closing quote
and the one that takes the text out, go over whatever is written for a character in one
go. So they go over a token character by character.
-/

set_option autoImplicit false

namespace Monomorph.Json

/-- How the format writes a character. -/
inductive Escapes : Char → List Char → Prop where
  | plain {char : Char} : char ≠ '"' → char ≠ '\\' → 0x20 ≤ char.toNat → Escapes char [char]
  | letter {char letter : Char} : unescapeChar? letter = some char → Escapes char ['\\', letter]
  | number {a b c d : Char} {unit : Nat} : hexUnit? a b c d = some unit → isLeading unit = false →
      isTrailing unit = false → Escapes (Char.ofNat unit) ['\\', 'u', a, b, c, d]
  | surrogates {a b c d e f g h : Char} {leading trailing : Nat} : hexUnit? a b c d = some leading →
      hexUnit? e f g h = some trailing → isLeading leading = true → isTrailing trailing = true →
      Escapes (pair leading trailing) ['\\', 'u', a, b, c, d, '\\', 'u', e, f, g, h]

inductive Token : List Char → List Char → Prop where
  | nil : Token [] []
  | cons {char : Char} {text written token : List Char} : Escapes char written → Token text token →
      Token (char :: text) (written ++ token)

theorem unescape?_append {char : Char} {written : List Char} (escapes : Escapes char written) (rest : List Char) :
    unescape? (written ++ rest) = (unescape? rest).map (char :: ·) := by
  cases escapes with
  | plain quote backslash high =>
    rw [List.cons_append, List.nil_append, unescape?]
    · cases unescape? rest <;> rfl
    all_goals simp [backslash]
  | letter named =>
    rw [List.cons_append, List.cons_append, List.nil_append, unescape?]
    · rw [named]
      cases unescape? rest <;> rfl
    · rintro _ _ _ _ _ rfl
      cases named
  | number unit leading trailing =>
    simp only [List.cons_append, List.nil_append]
    rw [unescape?, unit]
    simp only [Option.bind_eq_bind, Option.bind_some, leading, trailing, Bool.false_eq_true, if_false]
    cases unescape? rest <;> rfl
  | surrogates first second leading trailing =>
    simp only [List.cons_append, List.nil_append]
    rw [unescape?, first]
    simp only [Option.bind_eq_bind, Option.bind_some, leading, if_true, second, trailing]
    cases unescape? rest <;> rfl

theorem readString_append {char : Char} {written : List Char} (escapes : Escapes char written) (rest : List Char) :
    readString (written ++ rest) = (readString rest).map fun read => (written ++ read.1, read.2) := by
  cases escapes with
  | plain quote backslash high =>
    rw [List.cons_append, List.nil_append, readString]
    · rw [if_neg (by omega)]
      cases readString rest <;> rfl
    all_goals simp [quote, backslash]
  | letter named =>
    rw [List.cons_append, List.cons_append, List.nil_append, readString]
    · rw [named]
      cases readString rest <;> rfl
    · rintro _ _ _ _ _ rfl
      cases named
  | number unit leading trailing =>
    simp only [List.cons_append, List.nil_append]
    rw [readString, unit]
    cases readString rest <;> rfl
  | surrogates first second leading trailing =>
    simp only [List.cons_append, List.nil_append]
    rw [readString, first, readString, second]
    cases readString rest <;> rfl

theorem Token.unescape?_eq {text token : List Char} (written : Token text token) : unescape? token = some text := by
  induction written with
  | nil => rfl
  | cons escapes _ ih => rw [unescape?_append escapes, ih, Option.map_some]

theorem Token.readString_eq {text token : List Char} (written : Token text token) (rest : List Char) :
    readString (token ++ '"' :: rest) = some (token, rest) := by
  induction written with
  | nil => rfl
  | cons escapes _ ih => rw [List.append_assoc, readString_append escapes, ih, Option.map_some]

theorem hexUnit?_of_lt {code : Nat} (control : code < 0x20) :
    hexUnit? '0' '0' (Nat.digitChar (code / 16)) (Nat.digitChar (code % 16)) = some code := by
  revert code
  decide

theorem escapes_escapeChar (char : Char) : Escapes char (escapeChar char) := by
  unfold escapeChar
  -- seven characters have a letter
  iterate 7
    split
    · rename_i same
      rw [same]
      exact .letter rfl
  split
  · rename_i control
    have escapes : Escapes (Char.ofNat char.toNat) _ := .number (hexUnit?_of_lt control)
      (by simp only [isLeading, Bool.and_eq_false_iff, decide_eq_false_iff_not]; omega)
      (by simp only [isTrailing, Bool.and_eq_false_iff, decide_eq_false_iff_not]; omega)
    rwa [Char.ofNat_toNat] at escapes
  · exact .plain ‹_› ‹_› (Nat.le_of_not_lt ‹_›)

theorem token_escape (text : List Char) : Token text (escape text) := by
  induction text with
  | nil => exact .nil
  | cons char rest ih => exact .cons (escapes_escapeChar char) ih

end Monomorph.Json
