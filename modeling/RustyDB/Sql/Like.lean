import Mathlib
import RustyDB.Lib.Wildcard
import RustyDB.Sql.Types

/-!
# LIKE

`like_match` fills a table with a row for each text that has been read so far and a column for
each part of the pattern.

* `likeSymbol` — what a character of a pattern stands for.
* `matchRow` — a row as it should be; `likeFirstRow_eq` and `likeRow_eq` are the steps of the
  table, `likeTable_eq` is the whole table.
* `likeMatch_exact` — **a text is like a pattern if and only if it splits into pieces for the
  pattern's characters**, and this is what the recursive matcher says.
-/

namespace RustyDB
namespace Sql

open Wildcard

/-- What a character of a LIKE pattern stands for. -/
def likeSymbol (character : Char) : Symbol Char :=
  if character = '%' then .many
  else if character = '_' then .one
  else .exactly character

/-- The entries of a row, from the column of the symbols `front` on: whether the text
matches them. -/
def matchRow (text : List Char) : List (Symbol Char) → List (Symbol Char) → List Bool
  | front, [] => [matcher front text]
  | front, symbol :: back => matcher front text :: matchRow text (front ++ [symbol]) back

section Rows

variable {text pattern : List Char} {front back : List (Symbol Char)} {character p : Char}

theorem matchRow_eq_cons : matchRow text front back =
    matcher front text :: (matchRow text front back).tail := by
  cases back <;> rfl

/-! ## One entry -/

/-- An entry of the first row, from the entry before. -/
theorem matcher_first_entry : (p == '%' && matcher front []) =
    matcher (front ++ [likeSymbol p]) ([] : List Char) := by
  rw [Bool.eq_iff_iff, matcher_eq_true, Bool.and_eq_true, beq_iff_eq, matcher_eq_true, likeSymbol]
  split
  · rename_i hmany
    rw [matches_snoc_many_nil]
    exact ⟨fun h => h.2, fun h => ⟨hmany, h⟩⟩
  · rename_i hmany
    split
    · exact iff_of_false (fun h => hmany h.1) not_matches_snoc_one_nil
    · exact iff_of_false (fun h => hmany h.1) not_matches_snoc_exactly_nil

/-- **An entry of the table**, from the entries before it, above it and between these. -/
theorem matcher_entry :
    (if p = '%' then matcher front (text ++ [character]) || matcher (front ++ [likeSymbol p]) text
      else if p = '_' then matcher front text
      else p == character && matcher front text) =
    matcher (front ++ [likeSymbol p]) (text ++ [character]) := by
  rw [Bool.eq_iff_iff, matcher_eq_true, likeSymbol]
  split
  · rw [Bool.or_eq_true, matcher_eq_true, matcher_eq_true, matches_snoc_many]
  · split
    · rw [matcher_eq_true, matches_snoc_one]
    · rw [Bool.and_eq_true, beq_iff_eq, matcher_eq_true, matches_snoc_exactly]

/-! ## Rows -/

/-- The first row holds the matches of the empty text. -/
theorem likeFirstRow_eq : likeFirstRow pattern (matcher front []) =
    (matchRow [] front (pattern.map likeSymbol)).tail := by
  induction pattern generalizing front with
  | nil => rfl
  | cons p pattern ih =>
    rw [likeFirstRow, matcher_first_entry, List.map_cons, matchRow, List.tail_cons, ih,
      ← matchRow_eq_cons]

/-- **A row** holds the matches of the text that is one character longer. -/
theorem likeRow_eq : likeRow character pattern (matchRow text front (pattern.map likeSymbol))
      (matcher front (text ++ [character])) =
    (matchRow (text ++ [character]) front (pattern.map likeSymbol)).tail := by
  induction pattern generalizing front with
  | nil => rfl
  | cons p pattern ih =>
    have hnext := @ih (front ++ [likeSymbol p])
    rw [matchRow_eq_cons] at hnext
    rw [List.map_cons, matchRow, matchRow_eq_cons, likeRow, matcher_entry, hnext, matchRow,
      List.tail_cons, ← matchRow_eq_cons]

/-- **The table** ends with the matches of the whole text. -/
theorem likeTable_eq : likeTable text pattern = matchRow text [] (pattern.map likeSymbol) := by
  induction text using List.reverseRecOn with
  | nil =>
    have hfirst : matcher ([] : List (Symbol Char)) [] = true :=
      matcher_eq_true.mpr (matches_nil.mpr rfl)
    have hrow := @likeFirstRow_eq pattern []
    rw [hfirst] at hrow
    rw [likeTable, List.foldl_nil, hrow, matchRow_eq_cons, hfirst, List.tail_cons]
  | append_singleton text character ih =>
    have hfirst : matcher ([] : List (Symbol Char)) (text ++ [character]) = false := by
      rw [← Bool.not_eq_true, matcher_eq_true, matches_nil]
      exact List.append_ne_nil_of_right_ne_nil text (List.cons_ne_nil character [])
    have hrow := @likeRow_eq text pattern [] character
    rw [hfirst, ← ih] at hrow
    have hstep : likeTable (text ++ [character]) pattern =
        false :: likeRow character pattern (likeTable text pattern) false := by
      rw [likeTable, List.foldl_concat]
      rfl
    rw [hstep, hrow, matchRow_eq_cons, hfirst, List.tail_cons]

/-- The last entry of a row is that of the whole pattern. -/
theorem getLastD_matchRow : (matchRow text front back).getLastD false =
    matcher (front ++ back) text := by
  induction back generalizing front with
  | nil => rw [List.append_nil]; rfl
  | cons symbol back ih =>
    have hnext := @ih (front ++ [symbol])
    rw [List.append_assoc, List.singleton_append] at hnext
    rw [← hnext, matchRow, matchRow_eq_cons]
    rfl

end Rows

/-! ## The matching relation -/

/-- **LIKE is exact**, for every text and every pattern and whatever lower-casing does to them:
the text matches if and only if its characters split into consecutive pieces for the pattern's
characters, any piece for `%`, one character for `_` and the character itself for every other;
and this is the answer of the recursive matcher. -/
theorem likeMatch_exact (lowercase : String → String) (text pattern : String) :
    (likeMatch lowercase text pattern = true ↔
      Matches ((lowercase pattern).toList.map likeSymbol) (lowercase text).toList) ∧
    likeMatch lowercase text pattern =
      matcher ((lowercase pattern).toList.map likeSymbol) (lowercase text).toList := by
  have hmatcher : likeMatch lowercase text pattern =
      matcher ((lowercase pattern).toList.map likeSymbol) (lowercase text).toList := by
    rw [likeMatch, likeTable_eq, getLastD_matchRow, List.nil_append]
  exact ⟨by rw [hmatcher, matcher_eq_true], hmatcher⟩

end Sql
end RustyDB
