import LineScript.Text.Line
import Mathlib.Data.List.TakeDrop

namespace LineScript.Text

-- A text that can stand in a line: it has no newline, and no carriage return that would be taken
-- for a part of the end of the line.
def IsLine (text : String) : Prop :=
  '\n' ∉ text.toList ∧ text.toList.getLast? ≠ some '\r'

instance (text : String) : Decidable (IsLine text) := inferInstanceAs (Decidable (_ ∧ _))

-- A line as it stands in a file.
def lineBytes (text : String) : List UInt8 := (encode text).toList ++ [newline]

theorem toList_encode (text : String) :
    (encode text).toList = text.toList.flatMap String.utf8EncodeChar := by
  rw [encode, String.toUTF8_eq_toByteArray, ← String.ofList_toList (s := text),
    String.toByteArray_ofList, List.utf8Encode, List.data_toByteArray, String.toList_ofList]

theorem encode_newline : (encode "\n").toList = [newline] := by
  rw [toList_encode]
  rfl

theorem lineBytes_eq (text : String) : lineBytes text = (encode (text ++ "\n")).toList := by
  rw [lineBytes, ← encode_newline, toList_encode, toList_encode, toList_encode,
    String.toList_append, List.flatMap_append]

theorem decode?_encode (text : String) : decode? (encode text) = some text := by
  have hvalid : (⟨encode text⟩ : ByteArray).IsValidUTF8 := text.isValidUTF8
  rw [decode?, String.fromUTF8?, dif_pos hvalid]
  rfl

-- Only a newline has the byte of a newline in it: those of a longer character are all greater.
theorem newline_not_mem_char {c : Char} (h : c ≠ '\n') : newline ∉ String.utf8EncodeChar c := by
  have hbyte {k : Nat} (hk : k < 256) (hne : k ≠ 10) : newline ≠ UInt8.ofNat k := by
    intro hsame
    have := congrArg UInt8.toNat hsame
    rw [UInt8.toNat_ofNat', Nat.mod_eq_of_lt hk] at this
    exact hne this.symm
  have hcode : c.val.toNat ≠ 10 := by
    intro hsame
    exact h (Char.toNat_inj.mp hsame)
  unfold String.utf8EncodeChar
  dsimp only
  split_ifs
  · simpa using hbyte (by omega) hcode
  · simp only [List.mem_cons, List.not_mem_nil, or_false, not_or]
    exact ⟨hbyte (by omega) (by omega), hbyte (by omega) (by omega)⟩
  · simp only [List.mem_cons, List.not_mem_nil, or_false, not_or]
    exact ⟨hbyte (by omega) (by omega), hbyte (by omega) (by omega), hbyte (by omega) (by omega)⟩
  · simp only [List.mem_cons, List.not_mem_nil, or_false, not_or]
    exact ⟨hbyte (by omega) (by omega), hbyte (by omega) (by omega), hbyte (by omega) (by omega),
      hbyte (by omega) (by omega)⟩

theorem newline_not_mem_encode {text : String} (h : '\n' ∉ text.toList) :
    newline ∉ (encode text).toList := by
  rw [toList_encode, List.mem_flatMap]
  rintro ⟨c, hc, hmem⟩
  exact newline_not_mem_char (ne_of_mem_of_not_mem hc h) hmem

theorem lineEnd_of_size_le {bytes : Bytes} {start : Nat} (h : bytes.size ≤ start) :
    lineEnd bytes start = bytes.size := by
  rw [lineEnd, dif_neg (Nat.not_lt.mpr h)]

-- The end of a line is found behind the first newline.
theorem lineEnd_eq {bytes : Bytes} {start : Nat} {front rest : List UInt8}
    (h : bytes.toList.drop start = front ++ newline :: rest) (hfront : newline ∉ front) :
    lineEnd bytes start = start + front.length + 1 := by
  induction front generalizing start with
  | nil =>
      have hget : bytes.toList[start]? = some newline := by
        rw [← List.head?_drop, h]
        rfl
      obtain ⟨hlt, hbyte⟩ := List.getElem?_eq_some_iff.mp hget
      have hinside : start < bytes.size := by simpa using hlt
      rw [lineEnd, dif_pos hinside, if_pos (by simpa using hbyte)]
      rfl
  | cons byte front ih =>
      obtain ⟨hbyte, hothers⟩ := not_or.mp (mt List.mem_cons.mpr hfront)
      have hget : bytes.toList[start]? = some byte := by
        rw [← List.head?_drop, h]
        rfl
      obtain ⟨hlt, hsame⟩ := List.getElem?_eq_some_iff.mp hget
      have hinside : start < bytes.size := by simpa using hlt
      have hother : ¬bytes[start] = newline := by
        rw [← Array.getElem_toList, hsame]
        exact Ne.symm hbyte
      have hdrop : bytes.toList.drop (start + 1) = front ++ newline :: rest := by
        rw [← List.tail_drop, h]
        rfl
      rw [lineEnd, dif_pos hinside, if_neg hother, ih hdrop hothers, List.length_cons]
      omega

-- What was written as a line is read as one, and the reading goes on behind it.
theorem lineEnd_of_line {bytes : Bytes} {start : Nat} {text : String} {rest : List UInt8}
    (htext : IsLine text) (h : bytes.toList.drop start = lineBytes text ++ rest) :
    start < lineEnd bytes start ∧
      decode? (bytes.extract start (lineEnd bytes start)) = some (text ++ "\n") ∧
      bytes.toList.drop (lineEnd bytes start) = rest := by
  have hfront := newline_not_mem_encode htext.1
  have hsplit : bytes.toList.drop start = (encode text).toList ++ newline :: rest := by
    rw [h, lineBytes, List.append_assoc, List.singleton_append]
  have hend := lineEnd_eq hsplit hfront
  have hlength : (lineBytes text).length = (encode text).toList.length + 1 := by
    simp [lineBytes]
  have hstop : lineEnd bytes start = start + (lineBytes text).length := by omega
  have hbytes : bytes.extract start (lineEnd bytes start) = encode (text ++ "\n") := by
    apply Array.toList_inj.mp
    rw [Array.toList_extract, List.extract, hstop, Nat.add_sub_cancel_left, h, List.take_left,
      lineBytes_eq]
  refine ⟨by omega, ?_, ?_⟩
  · rw [hbytes, decode?_encode]
  · rw [hstop, ← List.drop_drop, h, List.drop_left]

theorem trimLineEnd_of_line {text : String} (h : IsLine text) :
    trimLineEnd (text ++ "\n") = text := by
  have hchars : (text ++ "\n").toList = text.toList ++ ['\n'] := by simp
  have hkept : text.toList.reverse.dropWhile isLineEnd = text.toList.reverse := by
    cases hlast : text.toList.reverse with
    | nil => rfl
    | cons c rest =>
        have hget : text.toList.getLast? = some c := by
          rw [List.getLast?_eq_head?_reverse, hlast]
          rfl
        have hmem : c ∈ text.toList := List.mem_of_getLast? hget
        have hother : isLineEnd c = false := by
          have hnewline : c ≠ '\n' := ne_of_mem_of_not_mem hmem h.1
          have hreturn : c ≠ '\r' := by
            rintro rfl
            exact h.2 hget
          simp [isLineEnd, hnewline, hreturn]
        rw [List.dropWhile_cons_of_neg (by simp [hother])]
  rw [trimLineEnd, dropTrailing, hchars, List.reverse_append, List.reverse_singleton,
    List.singleton_append, List.dropWhile_cons_of_pos (by rfl), hkept, List.reverse_reverse,
    String.ofList_toList]

end LineScript.Text
