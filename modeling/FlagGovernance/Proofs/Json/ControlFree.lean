import FlagGovernance.Json.Writer
import Mathlib.Data.List.Basic
/-
Compact JSON text has no control character in it.

In a string, and so in a key, every control character is escaped, and an escape is spelled
with printed characters; a number is spelled with digits and a few marks, and what stands
between is punctuation.  So a document is written on one line, whatever it holds.
-/

namespace FlagGovernance

namespace Text

/-- No character is a control character. -/
def ControlFree (chars : List Char) : Prop := ∀ c ∈ chars, 0x20 ≤ c.toNat

-- Decided down the list: a search over all characters would not evaluate.
instance : DecidablePred ControlFree := fun chars => List.decidableBAll _ chars

@[simp] theorem controlFree_nil : ControlFree [] := List.forall_mem_nil _

@[simp] theorem controlFree_cons {c : Char} {rest : List Char} :
    ControlFree (c :: rest) ↔ 0x20 ≤ c.toNat ∧ ControlFree rest :=
  List.forall_mem_cons

@[simp] theorem controlFree_append {front rest : List Char} :
    ControlFree (front ++ rest) ↔ ControlFree front ∧ ControlFree rest :=
  List.forall_mem_append

theorem ControlFree.newline_not_mem {chars : List Char} (hfree : ControlFree chars) :
    '\n' ∉ chars :=
  fun hmem => absurd (hfree '\n' hmem) (by decide)

theorem le_toNat_digitChar (n : Nat) : 0x20 ≤ (Nat.digitChar n).toNat := by
  by_cases hn : n < 16
  · revert n
    decide
  · have hstar : Nat.digitChar n = '*' := by
      unfold Nat.digitChar
      repeat rw [if_neg (by omega)]
    rw [hstar]
    decide

theorem le_toNat_hexDigit (n : Nat) : 0x20 ≤ (hexDigit n).toNat := le_toNat_digitChar _

theorem controlFree_toString_nat (n : Nat) : ControlFree (toString n).toList := by
  intro c hmem
  rw [Nat.toString_eq_ofList_toDigits, String.toList_ofList] at hmem
  have hdigit := Nat.isDigit_of_mem_toDigits (by decide) (by decide) hmem
  exact Nat.le_trans (by decide) (Char.isDigit_iff_toNat.mp hdigit).1

theorem controlFree_toString_int (i : Int) : ControlFree (toString i).toList := by
  cases i with
  | ofNat n => exact controlFree_toString_nat n
  | negSucc n =>
      have hsigned : toString (Int.negSucc n) = "-" ++ toString (n + 1) := rfl
      rw [hsigned, String.toList_append, controlFree_append]
      exact ⟨by decide, controlFree_toString_nat (n + 1)⟩

end Text

open Text

namespace Double

theorem controlFree_digitText (digits : List Nat) : ControlFree (digitText digits).toList := by
  intro c hmem
  rw [digitText, String.toList_ofList, List.mem_map] at hmem
  obtain ⟨d, _, rfl⟩ := hmem
  exact le_toNat_digitChar d

theorem controlFree_positionalText {layout : Layout} (hmark : ControlFree layout.wholeMark.toList)
    (decimal : Decimal) : ControlFree (positionalText layout decimal).toList := by
  rw [positionalText]
  dsimp only
  split_ifs <;> simp only [String.toList_append, controlFree_append, controlFree_digitText, hmark,
    and_true, true_and] <;> decide

theorem controlFree_exponentText (decimal : Decimal) :
    ControlFree (exponentText decimal).toList := by
  have hsign (power : Int) : ControlFree (if power < 0 then "-" else "+" : String).toList := by
    split_ifs <;> decide
  rw [exponentText]
  simp only [String.toList_append, controlFree_append, controlFree_digitText, hsign,
    controlFree_toString_nat, and_true, true_and]
  refine ⟨?_, by decide⟩
  split
  · decide
  · rw [String.toList_append, controlFree_append]
    exact ⟨by decide, controlFree_digitText _⟩

theorem controlFree_finiteText {layout : Layout} (hmark : ControlFree layout.wholeMark.toList)
    (d : Double) : ControlFree (finiteText layout d).toList := by
  have hsign : ControlFree (if d.negative then "-" else "" : String).toList := by
    split_ifs <;> decide
  rw [finiteText]
  dsimp only
  split_ifs <;> simp only [String.toList_append, controlFree_append, hmark,
    controlFree_positionalText hmark, controlFree_exponentText, and_true] <;> decide

end Double

namespace Json

theorem controlFree_escapedChar (c : Char) : ControlFree (escapedChar c) := by
  unfold escapedChar
  split
  case h_8 =>
    split_ifs with hcontrol
    · simp only [controlFree_cons, le_toNat_hexDigit, controlFree_nil, and_true]
      decide
    · simpa using hcontrol
  all_goals decide

theorem controlFree_quoted (text : String) : ControlFree (quoted text) := by
  have hbody : ControlFree (text.toList.flatMap escapedChar) := by
    intro c hmem
    obtain ⟨raw, _, hc⟩ := List.mem_flatMap.mp hmem
    exact controlFree_escapedChar raw c hc
  simp only [quoted, controlFree_append, controlFree_cons, hbody, controlFree_nil, and_true]
  decide

theorem Number.controlFree_written (n : Number) : ControlFree (Number.written n) := by
  cases n with
  | integer i => exact controlFree_toString_int i
  | real d => exact Double.controlFree_finiteText (by decide) d

mutual

theorem controlFree_written (v : Json) : ControlFree v.written := by
  cases v with
  | null => decide
  | bool b => cases b <;> decide
  | number n => exact Number.controlFree_written n
  | string s => exact controlFree_quoted s
  | array items =>
      cases items with
      | nil => decide
      | cons v rest =>
          simp only [written, controlFree_append, controlFree_cons]
          exact ⟨⟨by decide, controlFree_written v⟩, controlFree_writtenItems rest⟩
  | object members =>
      cases members with
      | nil => decide
      | cons m rest =>
          obtain ⟨key, v⟩ := m
          simp only [written, controlFree_append, controlFree_cons]
          exact ⟨⟨⟨by decide, controlFree_quoted key⟩, by decide, controlFree_written v⟩,
            controlFree_writtenMembers rest⟩

theorem controlFree_writtenItems (items : List Json) : ControlFree (writtenItems items) := by
  cases items with
  | nil => decide
  | cons v rest =>
      simp only [writtenItems, controlFree_append, controlFree_cons]
      exact ⟨⟨by decide, controlFree_written v⟩, controlFree_writtenItems rest⟩

theorem controlFree_writtenMembers (members : List (String × Json)) :
    ControlFree (writtenMembers members) := by
  cases members with
  | nil => decide
  | cons m rest =>
      obtain ⟨key, v⟩ := m
      simp only [writtenMembers, controlFree_append, controlFree_cons]
      exact ⟨⟨⟨by decide, controlFree_quoted key⟩, by decide, controlFree_written v⟩,
        controlFree_writtenMembers rest⟩

end

/-- Compact text is one line with no control character in it. -/
theorem controlFree_text (v : Json) : ControlFree v.text.toList := by
  rw [text, String.toList_ofList]
  exact controlFree_written v

end Json

end FlagGovernance
