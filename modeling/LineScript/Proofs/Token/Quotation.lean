import LineScript.Proofs.Text.Quoted
import LineScript.Proofs.Token.StringLiteral
import LineScript.Proofs.Token.Surroundings

namespace LineScript

open Lexeme (LiteralBody)

theorem Text.literalBody_escapeChar (c : Char) {rest : List Char} (h : LiteralBody rest) :
    LiteralBody (escapeChar c ++ rest) := by
  rcases escapeChar_cases c with ⟨mark, hmark, hc, _⟩ | ⟨hslash, hquote, _, hc⟩
  · rw [hc]
    exact .pair hmark h
  · rw [hc]
    exact .plain hquote hslash h

-- No quote of a text ends its literal, and no backslash takes the quote along that does.
theorem Text.literalBody_escape (cs : List Char) : LiteralBody (cs.flatMap escapeChar) := by
  induction cs with
  | nil => exact .nil
  | cons c cs ih =>
      rw [List.flatMap_cons]
      exact literalBody_escapeChar c ih

namespace Token

-- The literal that denotes a text.
def quoting (text : String) : Token := ⟨.string, String.ofList (Text.quote text.toList)⟩

theorem readSingle_quoting (text : String) :
    readSingle (quoting text).text = .ok (quoting text) := by
  have hread := readChars_quote (Text.literalBody_escape text.toList) []
  rw [readSingle_eq_ok_iff, readAll, quoting, String.toList_ofList, Text.quote, hread, readChars,
    Lexeme.scan, tokensOf]
  rfl

theorem evaluate_quoting (text : String) (memory : Memory) :
    memory.evaluate (quoting text) = .ok (.string text) := by
  have hinner : (quoting text).innerChars = text.toList.flatMap Text.escapeChar := by
    simp [innerChars, quoting, Text.quote, Text.inner]
  rw [Memory.evaluate, show (quoting text).kind = .string from rfl, hinner, Text.unescape_escape,
    String.ofList_toList]

end Token

-- A value stays readable in any number of list literals around it. The induction is from the
-- innermost of them outwards.
theorem Surroundings.readSingle_nested {token : Token}
    (hread : Token.readSingle token.text = .ok token) (hvalue : token.kind ∈ Grammar.anyValue)
    (levels : List Surroundings) :
    Token.readSingle (levels.foldr Surroundings.around token).text =
        .ok (levels.foldr Surroundings.around token) ∧
      (levels.foldr Surroundings.around token).kind ∈ Grammar.anyValue := by
  induction levels with
  | nil => exact ⟨hread, hvalue⟩
  | cons place levels ih =>
      rw [List.foldr_cons]
      exact ⟨(place.items_around ih.1 ih.2).1, by simp [around, Grammar.anyValue]⟩

theorem Surroundings.evaluate_nested {token : Token}
    (hread : Token.readSingle token.text = .ok token) (hvalue : token.kind ∈ Grammar.anyValue)
    (levels : List Surroundings) (memory : Memory) :
    memory.evaluate (levels.foldr Surroundings.around token) =
      levels.foldr (fun place => place.value memory) (memory.evaluate token) := by
  induction levels with
  | nil => rfl
  | cons place levels ih =>
      obtain ⟨hinner, hkind⟩ := readSingle_nested hread hvalue levels
      rw [List.foldr_cons, List.foldr_cons, place.evaluate_around hinner hkind, ih]

-- The literal of a text has no newline in it, is read as one string token, and denotes that text
-- in any memory. All that stays so in list literals, whatever their other elements are and however
-- deep it stands in them: its token is the item in its place, and the text is the value there.
theorem Token.quoted_text_denotes_itself (text : String) :
    '\n' ∉ (quoting text).text.toList ∧
    readSingle (quoting text).text = .ok (quoting text) ∧
    (∀ memory : Memory, memory.evaluate (quoting text) = .ok (.string text)) ∧
    ∀ levels : List Surroundings,
      let literal := levels.foldr Surroundings.around (quoting text)
      readSingle literal.text = .ok literal ∧
      (∀ memory : Memory, memory.evaluate literal =
        levels.foldr (fun place => place.value memory) (.ok (.string text))) ∧
      ∀ place : Surroundings, (place.around literal).items =
        .ok (place.before.map Element.token ++ literal :: place.after.map Element.token) := by
  have hread := readSingle_quoting text
  have hvalue : (quoting text).kind ∈ Grammar.anyValue := by simp [quoting, Grammar.anyValue]
  refine ⟨?_, hread, evaluate_quoting text, fun levels => ?_⟩
  · rw [quoting, String.toList_ofList]
    exact Text.newline_not_mem_quote text.toList
  · obtain ⟨hsingle, hkind⟩ := Surroundings.readSingle_nested hread hvalue levels
    refine ⟨hsingle, fun memory => ?_, fun place => (place.items_around hsingle hkind).2⟩
    rw [Surroundings.evaluate_nested hread hvalue, evaluate_quoting]

-- Everything that could end a literal, a list or a line too early, and a backslash at the end.
def awkwardText : String := "\t\"),(\n#\\"

def awkwardPlaces : List Surroundings :=
  [{ before := [⟨" 1", ⟨.number, "1"⟩, by decide +kernel, by decide⟩]
     left := ""
     right := " "
     after := [⟨"x@0", ⟨.name, "x@0"⟩, by decide +kernel, by decide⟩]
     blank := by simp },
   { before := []
     left := " "
     right := "\t"
     after := [⟨"( )", ⟨.list, "( )"⟩, by decide +kernel, by decide⟩]
     blank := by simp }]

def awkwardLiteral : Token := ⟨.list, "( 1,( \"\\t\\\"),(\\n#\\\\\"\t,( )) ,x@0)"⟩

-- The last element of the outer list fails as long as there is no list in `x`.
theorem Token.awkward_text_denotes_itself :
    readSingle awkwardLiteral.text = .ok awkwardLiteral ∧
    (Memory.fresh.store "x" (.list [.null])).evaluate awkwardLiteral =
      .ok (.list [.integer 1, .list [.string awkwardText, .list []], .null]) ∧
    Memory.fresh.evaluate awkwardLiteral = .error (.notIndexable "x") := by
  have hliteral : awkwardPlaces.foldr Surroundings.around (quoting awkwardText) =
      awkwardLiteral := by
    decide +kernel
  obtain ⟨_, _, _, hnested⟩ := Token.quoted_text_denotes_itself awkwardText
  obtain ⟨hread, hvalue, _⟩ := hnested awkwardPlaces
  rw [hliteral] at hread hvalue
  have hnumber (memory : Memory) : memory.evaluate ⟨.number, "1"⟩ = .ok (.integer 1) := by
    rw [Memory.evaluate]
    rfl
  have hempty (memory : Memory) : memory.evaluate ⟨.list, "( )"⟩ = .ok (.list []) := by
    have hitems : Token.items ⟨.list, "( )"⟩ = .ok [] := by decide +kernel
    rw [Memory.evaluate_list rfl, hitems]
    rfl
  have hfound : (Memory.fresh.store "x" (.list [.null])).evaluate ⟨.name, "x@0"⟩ = .ok .null := by
    rw [Memory.evaluate]
    rfl
  have hmissing : Memory.fresh.evaluate ⟨.name, "x@0"⟩ = .error (.notIndexable "x") := by
    rw [Memory.evaluate]
    rfl
  refine ⟨hread, ?_, ?_⟩
  · rw [hvalue]
    simp only [awkwardPlaces, Surroundings.value, List.foldr, List.map, List.mapM_cons,
      List.mapM_nil, hnumber, hempty, hfound]
    rfl
  · rw [hvalue]
    simp only [awkwardPlaces, Surroundings.value, List.foldr, List.map, List.mapM_cons,
      List.mapM_nil, hnumber, hempty, hmissing]
    rfl

end LineScript
