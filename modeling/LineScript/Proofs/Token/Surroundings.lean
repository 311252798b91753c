import LineScript.Proofs.Token.Elements

namespace LineScript

namespace Token

theorem readChars_blanks {blanks : List Char} (h : ∀ c ∈ blanks, c = ' ' ∨ c = '\t')
    (rest : List Char) : readChars (blanks ++ rest) = readChars rest := by
  have hall : ∀ c ∈ blanks, Lexeme.isBlankChar c = true := by simpa [Lexeme.isBlankChar] using h
  rw [← readChars_dropWhile, List.dropWhile_append_of_pos hall, readChars_dropWhile]

-- Blanks around the text of a token make no difference.
theorem readSingle_padded {left text right : String} {token : Token}
    (h : readSingle text = .ok token) (hcomment : token.kind ≠ .comment)
    (hleft : ∀ c ∈ left.toList, c = ' ' ∨ c = '\t')
    (hright : ∀ c ∈ right.toList, c = ' ' ∨ c = '\t') :
    readSingle (left ++ text ++ right) = .ok token := by
  have hstop : ∀ c ∈ right.toList.head?,
      Lexeme.continuesWord c = false ∧ Lexeme.continuesNumber c = false := by
    intro c hc
    rcases hright c (List.mem_of_head? hc) with rfl | rfl <;> decide
  have hnone : readChars right.toList = .ok [] := by
    rw [← List.append_nil right.toList, readChars_blanks hright, readChars, Lexeme.scan, tokensOf]
  have htext : (left ++ text ++ right).toList = left.toList ++ (text.toList ++ right.toList) := by
    simp
  rw [readSingle_eq_ok_iff, readAll] at h ⊢
  rw [htext, readChars_blanks hleft, readChars_append h (by simpa using hcomment) hstop, hnone]
  rfl

-- Texts of one value each make a list literal, which has just the tokens of them as its items.
theorem list_of_elements {elements : List String} {tokens : List Token}
    (h : List.Forall₂ (fun element token =>
      readSingle element = .ok token ∧ token.kind ∈ Grammar.anyValue) elements tokens) :
    readSingle ("(" ++ ",".intercalate elements ++ ")") =
        .ok ⟨.list, "(" ++ ",".intercalate elements ++ ")"⟩ ∧
      items ⟨.list, "(" ++ ",".intercalate elements ++ ")"⟩ = .ok tokens := by
  obtain ⟨found, hbody, hfound⟩ := exists_body_of_elements h
  have htext : "(" ++ ",".intercalate elements ++ ")" =
      String.ofList ('(' :: ((",".intercalate elements).toList ++ [')'])) := by
    rw [← String.toList_inj]
    simp
  rw [htext]
  constructor
  · rw [readSingle_eq_ok_iff, readAll, String.toList_ofList, readChars_of_body hbody]
  · rw [items_of_body hbody, hfound]

end Token

-- A text that is read as one value.
structure Element where
  text : String
  token : Token
  reads : Token.readSingle text = .ok token
  isValue : token.kind ∈ Grammar.anyValue

-- All of a list literal but one of its items: the elements before and behind it, and the blanks
-- next to it.
structure Surroundings where
  before : List Element
  left : String
  right : String
  after : List Element
  blank : ∀ c ∈ left.toList ++ right.toList, c = ' ' ∨ c = '\t'

namespace Surroundings

variable (place : Surroundings)

-- The literal with a token in its place.
def around (token : Token) : Token :=
  ⟨.list, "(" ++ ",".intercalate (place.before.map Element.text ++
    (place.left ++ token.text ++ place.right) :: place.after.map Element.text) ++ ")"⟩

-- What the literal denotes, by what is denoted in its place.
def value (memory : Memory) (item : Except RuntimeError Value) : Except RuntimeError Value :=
  ((place.before.map Element.token).mapM memory.evaluate).bind fun front =>
    item.bind fun value =>
      ((place.after.map Element.token).mapM memory.evaluate).map fun back =>
        .list (front ++ value :: back)

theorem items_around {token : Token} (hread : Token.readSingle token.text = .ok token)
    (hvalue : token.kind ∈ Grammar.anyValue) :
    Token.readSingle (place.around token).text = .ok (place.around token) ∧
      (place.around token).items =
        .ok (place.before.map Element.token ++ token :: place.after.map Element.token) := by
  have hcomment : token.kind ≠ .comment := fun hkind => by simp [hkind, Grammar.anyValue] at hvalue
  have hpadded := Token.readSingle_padded hread hcomment
    (fun c hc => place.blank c (List.mem_append_left _ hc))
    (fun c hc => place.blank c (List.mem_append_right _ hc))
  have hothers (elements : List Element) : List.Forall₂ (fun text token =>
      Token.readSingle text = .ok token ∧ token.kind ∈ Grammar.anyValue)
      (elements.map Element.text) (elements.map Element.token) := by
    rw [List.forall₂_map_left_iff, List.forall₂_map_right_iff, List.forall₂_same]
    exact fun element _ => ⟨element.reads, element.isValue⟩
  exact Token.list_of_elements
    (List.rel_append (hothers place.before) (.cons ⟨hpadded, hvalue⟩ (hothers place.after)))

theorem evaluate_around {token : Token} (hread : Token.readSingle token.text = .ok token)
    (hvalue : token.kind ∈ Grammar.anyValue) (memory : Memory) :
    memory.evaluate (place.around token) = place.value memory (memory.evaluate token) := by
  rw [Memory.evaluate_list rfl, (place.items_around hread hvalue).2, value]
  dsimp only
  rw [List.mapM_append, List.mapM_cons]
  cases (place.before.map Element.token).mapM memory.evaluate <;>
    cases memory.evaluate token <;>
      cases (place.after.map Element.token).mapM memory.evaluate <;> rfl

end Surroundings

end LineScript
