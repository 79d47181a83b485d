import TraceLog.Json.Render
import TraceLog.Json.Scan

/-!
# TraceLog.Proofs.Json.Strings

Strings read back from their texts.

A character inside a string stands for itself, or is escaped by a letter or by
its number; the reader takes each of them from the front of a text.

* `Json.Reader.escapedChar_escapeChar` — an escaped character;
* `Json.Reader.string_quote` — strings are read as they were written.
-/

namespace TraceLog.Json

namespace Reader

/-- What an escaped character is. -/
def IsEscaped (c : Char) : Prop := c = '"' ∨ c = '\\' ∨ c.toNat < 0x20

instance (c : Char) : Decidable (IsEscaped c) := inferInstanceAs (Decidable (_ ∨ _ ∨ _))

theorem escapeChar_of_not_isEscaped {c : Char} (h : ¬IsEscaped c) : escapeChar c = [c] := by
  simp only [IsEscaped, not_or] at h
  simp [escapeChar, h]

/-- The letter of a control character stands for it. -/
theorem escaped?_of_controlLetter? {c letter : Char} (h : controlLetter? c = some letter) :
    escaped? letter = some c ∧ letter ≠ 'u' := by
  rw [controlLetter?] at h
  repeat' split at h
  all_goals first
    | contradiction
    | subst_vars
      cases h
      exact ⟨rfl, by decide⟩

theorem hexValue?_digitChar {n : Nat} (h : n < 16) : hexValue? (Nat.digitChar n) = some n := by
  have hall : ∀ n < 16, hexValue? (Nat.digitChar n) = some n := by decide
  exact hall n h

/-- The number of a control character stands for it. -/
theorem numbered_control {c : Char} (h : c.toNat < 0x20) (rest : List Char) :
    numbered ('0' :: '0' :: Nat.digitChar (c.toNat / 16) :: Nat.digitChar (c.toNat % 16) :: rest) =
      .ok (c, rest) := by
  have hhigh := hexValue?_digitChar (show c.toNat / 16 < 16 by omega)
  have hlow := hexValue?_digitChar (show c.toNat % 16 < 16 by omega)
  have hzero : hexValue? '0' = some 0 := by decide
  have hvalue : ((0 * 16 + 0) * 16 + c.toNat / 16) * 16 + c.toNat % 16 = c.toNat := by omega
  have hfour : fourHex ('0' :: '0' :: Nat.digitChar (c.toNat / 16) ::
      Nat.digitChar (c.toNat % 16) :: rest) = .ok (c.toNat, rest) := by
    simp only [fourHex, hzero, hhigh, hlow, hvalue]
  have hsurrogate : ¬(0xDC00 ≤ c.toNat ∧ c.toNat < 0xE000) := by omega
  have hplain : c.toNat < 0xD800 ∨ 0xE000 ≤ c.toNat := by omega
  simp only [numbered, hfour, bind, Except.bind, if_neg hsurrogate, if_pos hplain,
    Char.ofNat_toNat]

/-- **An escaped character** stands behind a backslash and is read again. -/
theorem escapedChar_escapeChar {c : Char} (h : IsEscaped c) :
    ∃ letters, escapeChar c = '\\' :: letters ∧
      ∀ rest, escapedChar (letters ++ rest) = .ok (c, rest) := by
  rcases h with rfl | rfl | hcontrol
  · exact ⟨['"'], rfl, fun _ => rfl⟩
  · exact ⟨['\\'], rfl, fun _ => rfl⟩
  · have hquote : c ≠ '"' := by
      rintro rfl
      contradiction
    have hbackslash : c ≠ '\\' := by
      rintro rfl
      contradiction
    rw [escapeChar, if_neg hquote, if_neg hbackslash, if_pos hcontrol]
    cases hletter : controlLetter? c with
    | none => exact ⟨_, rfl, fun rest => numbered_control hcontrol rest⟩
    | some letter =>
        obtain ⟨hread, hnumber⟩ := escaped?_of_controlLetter? hletter
        refine ⟨[letter], rfl, fun rest => ?_⟩
        rw [List.singleton_append]
        unfold escapedChar
        split
        · contradiction
        · next heq =>
            rw [List.cons.injEq] at heq
            exact absurd heq.1 hnumber
        · next heq =>
            rw [List.cons.injEq] at heq
            rw [← heq.1, ← heq.2, hread]

/-! ## Strings -/

/-- Characters are read up to the closing quotation mark. -/
theorem stringChars_escape (cs rest : List Char) {fuel : Nat} (hfuel : cs.length < fuel) :
    stringChars fuel (escape cs ++ '"' :: rest) = .ok (cs, rest) := by
  induction cs generalizing fuel with
  | nil =>
      obtain ⟨fuel, rfl⟩ := Nat.exists_eq_add_of_lt hfuel
      rfl
  | cons c cs ih =>
      obtain ⟨fuel, rfl⟩ : ∃ n, fuel = n + 1 := ⟨fuel - 1, by omega⟩
      have hrest := ih (show cs.length < fuel by simpa using hfuel)
      rw [escape, List.append_assoc]
      by_cases hescaped : IsEscaped c
      · obtain ⟨letters, htext, hread⟩ := escapedChar_escapeChar hescaped
        rw [htext, List.cons_append, stringChars]
        simp only [hread, hrest, bind, Except.bind]
      · rw [escapeChar_of_not_isEscaped hescaped, List.singleton_append]
        simp only [IsEscaped, not_or] at hescaped
        obtain ⟨hquote, hbackslash, hcontrol⟩ := hescaped
        unfold stringChars
        split
        · contradiction
        · contradiction
        · next heq =>
            rw [List.cons.injEq] at heq
            exact absurd heq.1 hquote
        · next heq =>
            rw [List.cons.injEq] at heq
            exact absurd heq.1 hbackslash
        · next hcount heq =>
            obtain ⟨rfl, rfl⟩ := List.cons.inj heq
            cases hcount
            simp only [if_neg hcontrol, hrest, bind, Except.bind]

theorem length_le_length_escape (cs : List Char) : cs.length ≤ (escape cs).length := by
  induction cs with
  | nil => simp [escape]
  | cons c cs ih =>
      have hchar : 1 ≤ (escapeChar c).length := by
        by_cases hescaped : IsEscaped c
        · obtain ⟨letters, htext, -⟩ := escapedChar_escapeChar hescaped
          simp [htext]
        · simp [escapeChar_of_not_isEscaped hescaped]
      rw [escape, List.length_append, List.length_cons]
      omega

/-- A quoted string in front of a text, character by character. -/
theorem quote_append (s : String) (rest : List Char) :
    quote s ++ rest = '"' :: (escape s.toList ++ '"' :: rest) := by
  simp [quote]

/-- **Strings are read as they were written.** -/
theorem string_quote (s : String) (rest : List Char) :
    string (escape s.toList ++ '"' :: rest) = .ok (s, rest) := by
  have hlength := length_le_length_escape s.toList
  have hfuel : s.toList.length < (escape s.toList ++ '"' :: rest).length + 1 := by
    rw [List.length_append]
    omega
  have hchars := stringChars_escape s.toList rest hfuel
  simp only [string, hchars, bind, Except.bind, String.ofList_toList]

end Reader

end TraceLog.Json
