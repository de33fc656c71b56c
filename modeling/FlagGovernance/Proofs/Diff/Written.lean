import FlagGovernance.Proofs.Diff.Places
import FlagGovernance.Proofs.Decode.Laws
/-
Changes as they are written.

A side that is absent and one that is `null` are both written `null`.  So an entry tells
its two sides apart unless they are just these two, and it is read back as its change
unless a side is `null`.
-/

namespace FlagGovernance

open Json Decode Record

/-- What is read back of a side: nothing where it is `null`. -/
def readBack : Option Json → Option Json
  | some .null => none
  | v? => v?

theorem readBack_eq_self_iff (v? : Option Json) : readBack v? = v? ↔ v? ≠ some .null := by
  cases v? with
  | none => simp [readBack]
  | some v => cases v <;> simp [readBack]

theorem reads_side (v? : Option Json) :
    Reads (option json) (v?.getD .null) (readBack v?) := by
  intro reading
  cases v? with
  | none => rfl
  | some v => cases v <;> rfl

namespace FieldChange

/-- A written change is read back but for its sides that are `null`. -/
theorem reads_toJson (c : FieldChange) :
    Reads decode c.toJson ⟨c.path, readBack c.before, readBack c.after⟩ := by
  have hpath : Reads Decode.string (.string c.path) c.path := fun _ => rfl
  exact Reads.record ((((finds_field rfl hpath _).map _).seq
    (finds_field rfl (reads_side c.before) _)).seq (finds_field rfl (reads_side c.after) _)) _

theorem decode_toJson_eq_iff (c : FieldChange) (reading : Reading) :
    decode reading c.toJson = .ok c ↔ c.before ≠ some .null ∧ c.after ≠ some .null := by
  rw [c.reads_toJson reading, ← readBack_eq_self_iff, ← readBack_eq_self_iff]
  constructor
  · intro hsame
    have hchange := Except.ok.inj hsame
    exact ⟨congrArg FieldChange.before hchange, congrArg FieldChange.after hchange⟩
  · rintro ⟨hbefore, hafter⟩
    rw [hbefore, hafter]

end FieldChange

theorem null_equal_iff (v : Json) : Json.null.equal v = true ↔ v = .null := by
  cases v <;> simp [equal]

/-- Sides that differ are written alike just where one is absent and the other `null`. -/
theorem written_alike_iff {before after : Option Json} (hdiffer : alike before after = false) :
    (before.getD .null).equal (after.getD .null) = true ↔
      (before = some .null ∧ after = none) ∨ (before = none ∧ after = some .null) := by
  cases before with
  | none =>
      cases after with
      | none => contradiction
      | some b => simp [null_equal_iff]
  | some a =>
      cases after with
      | none => simp [equal_comm a, null_equal_iff]
      | some b =>
          have hapart : a.equal b = false := hdiffer
          simp [hapart]

/-- The report of the changes between two documents, either of which may be absent, has an
entry for each change.  The sides of an entry are written alike just where one is absent
and the other `null`, and the entry is read back as the change just where neither is
`null`. -/
theorem report_tells_changes {before after : Option Json} (hbefore : ∀ v ∈ before, v.WellFormed)
    (hafter : ∀ v ∈ after, v.WellFormed) (reading : Reading) :
    (diffReport before after).get? "fields" =
      some (.array ((diff before after).map FieldChange.toJson)) ∧
    ∀ c ∈ diff before after,
      (alike (c.toJson.get? "before") (c.toJson.get? "after") = true ↔
        (c.before = some .null ∧ c.after = none) ∨ (c.before = none ∧ c.after = some .null)) ∧
      (FieldChange.decode reading c.toJson = .ok c ↔
        c.before ≠ some .null ∧ c.after ≠ some .null) ∧
      FieldChange.decode reading c.toJson = .ok ⟨c.path, readBack c.before, readBack c.after⟩ := by
  refine ⟨rfl, fun c hmem => ⟨?_, c.decode_toJson_eq_iff reading, c.reads_toJson reading⟩⟩
  have hdiffer : alike c.before c.after = false := by
    rw [diff_eq_map hbefore hafter, List.mem_map] at hmem
    obtain ⟨d, hd, rfl⟩ := hmem
    obtain ⟨hpart, hold, hnew⟩ := (mem_differences_iff hafter).mp hd
    rw [Difference.changeAt, hold, hnew]
    exact hpart.differ.1
  exact written_alike_iff hdiffer

/-- An added member is read back as added, and one that was changed as changed. -/
theorem nested_changes_read_again :
    (∀ v ∈ some Sample.earlier, v.WellFormed) ∧ (∀ v ∈ some Sample.later, v.WellFormed) ∧
    FieldChange.decode .direct (FieldChange.toJson ⟨"a.x", none, some (.array [.null])⟩) =
      .ok ⟨"a.x", none, some (.array [.null])⟩ ∧
    FieldChange.decode .aside (FieldChange.toJson ⟨"a.b", some (.ofNat 1), some (.ofNat 2)⟩) =
      .ok ⟨"a.b", some (.ofNat 1), some (.ofNat 2)⟩ := by
  have htold := fun reading =>
    (report_tells_changes Sample.earlier_wellFormed Sample.later_wellFormed reading).2
  rw [Sample.diff_earlier_later] at htold
  refine ⟨Sample.earlier_wellFormed, Sample.later_wellFormed, ?_, ?_⟩
  · exact (htold .direct _ (by simp)).2.1.mpr ⟨nofun, nofun⟩
  · exact (htold .aside _ (by simp)).2.1.mpr ⟨nofun, nofun⟩

/-- Where a member that is `null` was removed, the entry has the same on either side and is
read back as a change from nothing to nothing. -/
theorem null_member_told_as_absent :
    (Json.object [("a", .null)]).WellFormed ∧ (Json.object []).WellFormed ∧
    diff (some (.object [("a", .null)])) (some (.object [])) = [⟨"a", some .null, none⟩] ∧
    (FieldChange.toJson ⟨"a", some .null, none⟩).get? "before" =
      (FieldChange.toJson ⟨"a", some .null, none⟩).get? "after" ∧
    FieldChange.decode .direct (FieldChange.toJson ⟨"a", some .null, none⟩) =
      .ok ⟨"a", none, none⟩ := by
  exact ⟨by decide +kernel, by decide +kernel, rfl, rfl, rfl⟩

end FlagGovernance
