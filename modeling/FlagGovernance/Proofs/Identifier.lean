import FlagGovernance.Uuid
/-
The text of an identifier is read back as that identifier.

Thirty-two hexadecimal digits hold all of the 128 bits.  The groups have no hyphen of
their own and are not empty, so they are found again between the hyphens, and the first
digit starts neither of the wrappings.
-/

namespace FlagGovernance

namespace Text

/-- No digit is a hyphen, opens a brace or starts a scheme. -/
theorem hexDigit_apart (n : Nat) :
    hexDigit n ≠ '-' ∧ hexDigit n ≠ '{' ∧ (hexDigit n).toLower ≠ 'u' := by
  have below : ∀ m : Nat, m < 16 →
      Nat.digitChar m ≠ '-' ∧ Nat.digitChar m ≠ '{' ∧ (Nat.digitChar m).toLower ≠ 'u' := by
    decide
  exact below (n % 16) (Nat.mod_lt n (by decide))

end Text

namespace Uuid

theorem length_hexDigits (count n : Nat) : (hexDigits count n).length = count := by
  induction count generalizing n with
  | zero => rfl
  | succ count ih => rw [hexDigits, List.length_append, ih, List.length_singleton]

theorem exists_hexDigit_of_mem {count n : Nat} {c : Char} (hmem : c ∈ hexDigits count n) :
    ∃ m, c = Text.hexDigit m := by
  induction count generalizing n with
  | zero => contradiction
  | succ count ih =>
      rw [hexDigits, List.mem_append, List.mem_singleton] at hmem
      rcases hmem with hbefore | hlast
      · exact ih hbefore
      · exact ⟨n, hlast⟩

/-- The digits of a number hold it, up to what so many digits can hold. -/
theorem value_hexDigits (count n : Nat) :
    ((hexDigits count n).mapM Text.hexValue?).map (fun ds => ds.foldl (fun v d => v * 16 + d) 0) =
      some (n % Nat.pow 16 count) := by
  induction count generalizing n with
  | zero => exact congrArg some (Nat.mod_one n).symm
  | succ count ih =>
      obtain ⟨ds, hds, hvalue⟩ := Option.map_eq_some_iff.1 (ih (n / 16))
      have hsplit : n % Nat.pow 16 (count + 1) = n / 16 % Nat.pow 16 count * 16 + n % 16 := by
        have hpow : Nat.pow 16 (count + 1) = 16 * Nat.pow 16 count := Nat.mul_comm _ 16
        rw [hpow, Nat.mod_mul, Nat.add_comm, Nat.mul_comm]
      simp only [hexDigits, List.mapM_append, hds, List.mapM_cons, Text.hexValue?_hexDigit,
        List.mapM_nil, Option.pure_def, Option.bind_eq_bind, Option.bind_some, Option.map_some,
        List.foldl_append, hvalue, List.foldl_cons, List.foldl_nil, hsplit]

theorem ofDigits?_hexDigits (id : Uuid) : ofDigits? (hexDigits 32 id.value.val) = some id := by
  obtain ⟨ds, hds, hvalue⟩ := Option.map_eq_some_iff.1 (value_hexDigits 32 id.value.val)
  have hlimit : id.value.val < Nat.pow 16 32 := id.value.isLt
  rw [Nat.mod_eq_of_lt hlimit] at hvalue
  have hsame : ofNat id.value.val = id :=
    congrArg Uuid.mk (Fin.ext (Nat.mod_eq_of_lt id.value.isLt))
  rw [ofDigits?, if_pos (length_hexDigits 32 _), hds, Option.map_some, hvalue, hsame]

theorem flatten_groups (id : Uuid) : id.groups.flatten = hexDigits 32 id.value.val := by
  have hsplit : ∀ (digits : List Char) (first later : Nat),
      (digits.drop first).take later ++ digits.drop (first + later) = digits.drop first := by
    intro digits first later
    rw [← List.drop_drop, List.take_append_drop]
  simp only [groups, List.flatten_cons, List.flatten_nil, List.append_nil]
  rw [hsplit _ 16 4, hsplit _ 12 4, hsplit _ 8 4, List.take_append_drop]

theorem map_length_groups (id : Uuid) : id.groups.map List.length = groupLengths := by
  simp [groups, groupLengths, length_hexDigits]

theorem exists_hexDigit_of_mem_group {id : Uuid} {group : List Char} (hgroup : group ∈ id.groups)
    {c : Char} (hmem : c ∈ group) : ∃ m, c = Text.hexDigit m := by
  have hdigits : c ∈ hexDigits 32 id.value.val := by
    rw [← id.flatten_groups]
    exact List.mem_flatten_of_mem hgroup hmem
  exact exists_hexDigit_of_mem hdigits

theorem ofGroups?_groups (id : Uuid) :
    ofGroups? (List.intercalate ['-'] id.groups) = some id := by
  have hhyphen : ∀ group ∈ id.groups, ¬ '-' ∈ group := by
    intro group hgroup hmem
    obtain ⟨m, hm⟩ := exists_hexDigit_of_mem_group hgroup hmem
    exact (Text.hexDigit_apart m).1 hm.symm
  have hgroups : splitGroups (List.intercalate ['-'] id.groups) = id.groups :=
    List.splitOn_intercalate '-' hhyphen nofun
  rw [ofGroups?, hgroups, if_pos id.map_length_groups, id.flatten_groups, id.ofDigits?_hexDigits]

/-- What starts with a digit stands bare. -/
theorem unwrap_of_hexDigit (m : Nat) (rest : List Char) :
    unwrap (Text.hexDigit m :: rest) = (.bare, Text.hexDigit m :: rest) := by
  obtain ⟨-, hbrace, hscheme⟩ := Text.hexDigit_apart m
  rw [unwrap]
  · rw [if_neg]
    intro hlower
    exact hscheme (List.cons.inj hlower).1
  · intro rest hopen
    exact hbrace (List.cons.inj hopen).1

theorem exists_groups_eq_cons (id : Uuid) :
    ∃ m rest, List.intercalate ['-'] id.groups = Text.hexDigit m :: rest := by
  obtain ⟨first, digits, hdigits⟩ : ∃ first digits, hexDigits 32 id.value.val = first :: digits :=
    List.exists_cons_of_length_pos (by rw [length_hexDigits]; decide)
  obtain ⟨m, rfl⟩ := exists_hexDigit_of_mem (hdigits ▸ List.mem_cons_self)
  simp only [groups, hdigits]
  exact ⟨m, _, rfl⟩

/-- The text of an identifier is read as that identifier. -/
theorem ofText_text (id : Uuid) : ofText id.text = .ok id := by
  obtain ⟨m, rest, htext⟩ := id.exists_groups_eq_cons
  have hread := id.ofGroups?_groups
  rw [htext] at hread
  rw [ofText, text, String.toList_ofList, htext, unwrap_of_hexDigit]
  simp only [hread]
  rfl

/-- Two identifiers with one text are one. -/
theorem text_injective {a b : Uuid} (htext : a.text = b.text) : a = b := by
  have hread := a.ofText_text
  rw [htext, b.ofText_text] at hread
  exact (Except.ok.inj hread).symm

end Uuid

end FlagGovernance
