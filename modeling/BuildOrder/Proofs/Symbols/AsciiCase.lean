import BuildOrder.Proofs.Text.AsciiCase
import BuildOrder.Symbols.Extract

/-! The symbols of a text do not depend on the case of its ASCII letters. -/
namespace BuildOrder.Symbols
open Text

theorem includeName_map_toLower (operand : List Char) :
    includeName (String.ofList (operand.map Char.toLower)) =
      includeName (String.ofList operand) := by
  have hdelimiter : ∀ c : Char, c.toLower ∉ ['"', '\'', '<', '>'] ↔ c ∉ ['"', '\'', '<', '>'] := by
    simp (disch := decide) only [List.mem_cons, List.not_mem_nil, toLower_eq_iff, implies_true]
  rw [includeName, includeName, String.toList_ofList, String.toList_ofList, List.filter_map,
    upper_map_toLower]
  simp only [Function.comp_def, hdelimiter]

theorem ofStatement_map_toLower (keyword operand : List Char) :
    ofStatement (String.ofList (keyword.map Char.toLower))
        (String.ofList (operand.map Char.toLower)) =
      ofStatement (String.ofList keyword) (String.ofList operand) := by
  have hcomma : ∀ c : Char, c.toLower ≠ ',' ↔ c ≠ ',' :=
    fun c => not_congr (toLower_eq_iff (by decide))
  simp only [ofStatement, eqIgnoringAsciiCase_map_toLower, upper_map_toLower,
    String.toList_ofList, List.takeWhile_map, Function.comp_def, hcomma, List.map_eq_nil_iff]

theorem ofDirective_map_toLower (stem : String) (keyword operand : List Char) :
    ofDirective stem (String.ofList (keyword.map Char.toLower))
        (String.ofList (operand.map Char.toLower)) =
      ofDirective stem (String.ofList keyword) (String.ofList operand) := by
  rw [ofDirective, ofDirective, eqIgnoringAsciiCase_map_toLower, includeName_map_toLower]

theorem ofLine_map_toLower (dialect : Dialect) (stem : String) (line : List Char) :
    ofLine dialect stem (line.map Char.toLower) = ofLine dialect stem line := by
  rw [ofLine, ofLine, words_map_toLower]
  match words line with
  | [] => rfl
  | [_] => rfl
  | keyword :: operand :: rest =>
    cases dialect with
    | modules => exact ofStatement_map_toLower keyword operand
    | includes => exact ofDirective_map_toLower stem keyword operand

theorem ofText_map_toLower (dialect : Dialect) (fileName : String) (content : List Char) :
    ofText dialect fileName (content.map Char.toLower) = ofText dialect fileName content := by
  rw [ofText, ofText, lines_map_toLower, List.map_map]
  congr 2
  funext line
  exact ofLine_map_toLower dialect _ line

end BuildOrder.Symbols
