import FlagGovernance.Json.Reader
import FlagGovernance.Proofs.Json.WellFormed
/-
A document that is read from text is well-formed.

Leading digits are taken while they fit a word, so a number is a word scaled by one
power of ten, and it is finite if it has a value at all.  Members are put in order as
the tree becomes a document.
-/

namespace FlagGovernance.Json

open OrderedMap

/-- Scaling a finite number leaves it finite, if it leaves a number. -/
theorem isFinite_of_scaleWord {fuel : Nat} {d scaled : Double} {e : Int} {limit : Nat}
    (hd : d.level ≤ limit) (hlimit : 1 ≤ limit) (hroom : limit + 5 * fuel < 2047)
    (hscaled : scaleWord fuel d e = some scaled) : scaled.isFinite = true := by
  have hpower : ∀ k, 1023 ≤ (Double.ofNat (Nat.pow 10 k)).level :=
    fun k => Double.le_level_ofNat (Nat.ne_of_gt (Nat.pow_pos (by decide)))
  have hfinite : d.isFinite = true := d.isFinite_iff_level.2 (by omega)
  induction fuel generalizing d e limit with
  | zero =>
      rw [← Option.some.inj hscaled]
      exact hfinite
  | succ fuel ih =>
      have hquotient := fun k => Double.level_div_le hd hlimit (hpower k)
      have hless := fun k => (d.div (Double.ofNat (Nat.pow 10 k))).isFinite_iff_level.2
        (Nat.lt_of_le_of_lt (hquotient k) (by omega))
      rw [scaleWord] at hscaled
      split at hscaled
      · dsimp only at hscaled
        split at hscaled
        · split at hscaled
          · next hproduct =>
            rw [← Option.some.inj hscaled]
            exact hproduct
          · contradiction
        · rw [← Option.some.inj hscaled]
          exact hless _
      · split at hscaled
        · rw [← Option.some.inj hscaled]
          exact hfinite
        · split at hscaled
          · contradiction
          · exact ih (hquotient 308) (by omega) (by omega) hscaled (hless 308)

variable {negative : Bool} {n : Nat} {number : Number} {text rest : List Char}

theorem wellFormed_of_realOf {e : Int} (hn : n < Text.wordLimit)
    (hnumber : realOf negative n e = some number) : number.WellFormed := by
  obtain ⟨d, hscaled, rfl⟩ := Option.map_eq_some_iff.1 hnumber
  have hfinite := isFinite_of_scaleWord (Double.level_whole_le hn false) (by decide) (by decide)
    hscaled
  cases negative with
  | false => exact hfinite
  | true => exact Double.isFinite_neg hfinite

theorem takeDigits_lt (hn : n < Text.wordLimit) (text : List Char) :
    (takeDigits n text).1 < Text.wordLimit := by
  induction text generalizing n with
  | nil => exact hn
  | cons c rest ih =>
      rw [takeDigits]
      split
      · split
        · next hfits => exact ih hfits
        · exact hn
      · exact hn

theorem wellFormed_of_finishReal {e : Int} (hn : n < Text.wordLimit)
    (hnumber : finishReal negative n e text = some (some number, rest)) : number.WellFormed := by
  unfold finishReal at hnumber
  split at hnumber
  · split at hnumber
    · obtain ⟨⟨down, power, more⟩, _, hscaled⟩ := Option.bind_eq_some_iff.1 hnumber
      dsimp only at hscaled
      split at hscaled
      · split at hscaled
        · cases hscaled
        · cases hscaled
          exact Double.isFinite_zero negative
      · exact wellFormed_of_realOf hn (congrArg Prod.fst (Option.some.inj hscaled))
    · exact wellFormed_of_realOf hn (congrArg Prod.fst (Option.some.inj hnumber))
  · exact wellFormed_of_realOf hn (congrArg Prod.fst (Option.some.inj hnumber))

theorem wellFormed_of_whole {dropped : Nat} (hn : n < Text.wordLimit)
    (hnumber : readUnsigned.whole negative n dropped = some number) : number.WellFormed := by
  rw [readUnsigned.whole] at hnumber
  split at hnumber
  · exact wellFormed_of_realOf hn hnumber
  split at hnumber
  · rw [← Option.some.inj hnumber]
    simp only [Text.wordLimit] at hn
    refine ⟨?_, ?_⟩ <;> omega
  split at hnumber
  · rw [← Option.some.inj hnumber]
    exact Double.isFinite_neg (Double.isFinite_whole hn false)
  · next hsmall =>
    rw [← Option.some.inj hnumber]
    simp only [Text.wordLimit] at hsmall
    refine ⟨?_, ?_⟩ <;> omega

theorem wellFormed_of_finish {dropped : Nat} (hn : n < Text.wordLimit)
    (hnumber : readUnsigned.finish negative n dropped text = some (some number, rest)) :
    number.WellFormed := by
  unfold readUnsigned.finish at hnumber
  split at hnumber
  · split at hnumber
    · contradiction
    · exact wellFormed_of_finishReal (takeDigits_lt hn _) hnumber
  · split at hnumber
    · exact wellFormed_of_finishReal hn hnumber
    · exact wellFormed_of_whole hn (congrArg Prod.fst (Option.some.inj hnumber))
  · exact wellFormed_of_whole hn (congrArg Prod.fst (Option.some.inj hnumber))

theorem wellFormed_of_readUnsigned
    (hnumber : readUnsigned negative text = some (some number, rest)) : number.WellFormed := by
  have hzero : 0 < Text.wordLimit := by decide
  unfold readUnsigned at hnumber
  split at hnumber
  · split at hnumber
    · contradiction
    · exact wellFormed_of_finish hzero hnumber
  · split at hnumber
    · contradiction
    · exact wellFormed_of_finish (takeDigits_lt hzero _) hnumber

theorem wellFormed_of_readNumber (hnumber : readNumber text = some (some number, rest)) :
    number.WellFormed := by
  unfold readNumber at hnumber
  split at hnumber
  · exact wellFormed_of_readUnsigned hnumber
  · exact wellFormed_of_readUnsigned hnumber

/-- The numbers of the tree keep to sixty-four bits. -/
inductive Tree.Fits : Tree → Prop
  | broken : Fits .broken
  | unusable : Fits .unusable
  | null : Fits .null
  | bool (b : Bool) : Fits (.bool b)
  | number {n : Number} (hn : n.WellFormed) : Fits (.number n)
  | string (s : String) : Fits (.string s)
  | array {items : List Tree} (hitems : ∀ t ∈ items, Fits t) : Fits (.array items)
  | object {members : List (Option String × Tree)} (hmembers : ∀ m ∈ members, Fits m.2) :
      Fits (.object members)

theorem fits_expectWord (word : List Char) {value : Tree} (hvalue : value.Fits)
    (text : List Char) : (expectWord word value text).1.Fits := by
  rw [expectWord]
  split
  · exact hvalue
  · exact .broken

mutual

theorem fits_readTree (fuel : Nat) (text : List Char) : (readTree fuel text).1.Fits := by
  cases fuel with
  | zero => exact .broken
  | succ fuel =>
      rw [readTree]
      split
      · exact .broken
      · exact fits_expectWord _ .null _
      · exact fits_expectWord _ (.bool true) _
      · exact fits_expectWord _ (.bool false) _
      · split
        · next s _ _ =>
          cases s with
          | none => exact .unusable
          | some s => exact .string s
        · exact .broken
      · split
        · exact .array (List.forall_mem_nil _)
        · exact .array (fits_readItems fuel _)
      · split
        · exact .object (List.forall_mem_nil _)
        · exact .object (fits_readMembers fuel _)
      · split
        · next n _ hnumber =>
          cases n with
          | none => exact .unusable
          | some n => exact .number (wellFormed_of_readNumber hnumber)
        · exact .broken

theorem fits_readItems (fuel : Nat) (text : List Char) : ∀ t ∈ (readItems fuel text).1, t.Fits := by
  cases fuel with
  | zero => exact List.forall_mem_singleton.2 .broken
  | succ fuel =>
      have hitem := fits_readTree fuel text
      rw [readItems]
      dsimp only
      split
      · exact List.forall_mem_cons.2 ⟨hitem, fits_readItems fuel _⟩
      · exact List.forall_mem_singleton.2 hitem
      · exact List.forall_mem_cons.2 ⟨hitem, List.forall_mem_singleton.2 .broken⟩

theorem fits_readMembers (fuel : Nat) (text : List Char) :
    ∀ m ∈ (readMembers fuel text).1, m.2.Fits := by
  cases fuel with
  | zero => exact List.forall_mem_singleton.2 .broken
  | succ fuel =>
      rw [readMembers]
      split
      · split
        · exact List.forall_mem_singleton.2 .broken
        · split
          · next rest _ =>
            have hvalue := fits_readTree fuel rest
            dsimp only
            split
            · exact List.forall_mem_cons.2 ⟨hvalue, fits_readMembers fuel _⟩
            · exact List.forall_mem_singleton.2 hvalue
            · exact List.forall_mem_cons.2 ⟨hvalue, List.forall_mem_singleton.2 .broken⟩
          · exact List.forall_mem_singleton.2 .broken
      · exact List.forall_mem_singleton.2 .broken

end

namespace Tree

theorem forall_mem_of_itemsToJson? {depth : Nat} {items : List Tree} {vs : List Json}
    (hitems : ∀ t ∈ items, ∀ v, t.toJson? depth = some v → v.WellFormed)
    (hvs : itemsToJson? depth items = some vs) : ∀ v ∈ vs, v.WellFormed := by
  induction items generalizing vs with
  | nil =>
      rw [← Option.some.inj hvs]
      exact List.forall_mem_nil _
  | cons t rest ih =>
      rw [List.forall_mem_cons] at hitems
      obtain ⟨v, hv, hrest⟩ := Option.bind_eq_some_iff.1 hvs
      obtain ⟨others, hothers, hall⟩ := Option.bind_eq_some_iff.1 hrest
      rw [← Option.some.inj hall, List.forall_mem_cons]
      exact ⟨hitems.1 v hv, ih hitems.2 hothers⟩

/-- Each member is put in order among those before it. -/
theorem wellFormed_of_membersToJson? {depth : Nat} {members : List (Option String × Tree)}
    {found all : List (String × Json)}
    (hmembers : ∀ m ∈ members, ∀ v, m.2.toJson? depth = some v → v.WellFormed)
    (hfound : (Json.object found).WellFormed)
    (hall : membersToJson? depth found members = some all) : (Json.object all).WellFormed := by
  induction members generalizing found with
  | nil =>
      rw [← Option.some.inj hall]
      exact hfound
  | cons m rest ih =>
      rw [List.forall_mem_cons] at hmembers
      obtain ⟨key, _, hvalue⟩ := Option.bind_eq_some_iff.1 hall
      obtain ⟨v, hv, hrest⟩ := Option.bind_eq_some_iff.1 hvalue
      cases hfound with
      | object hordered hvalues =>
          refine ih hmembers.2 (.object (pairwise_insertEntry key v hordered) fun entry hentry => ?_)
            hrest
          rcases fst_of_mem_insertEntry hentry with rfl | hold
          · exact hmembers.1 v hv
          · exact hvalues entry hold

theorem wellFormed_of_toJson? {t : Tree} (ht : t.Fits) {depth : Nat} {v : Json}
    (hv : t.toJson? depth = some v) : v.WellFormed := by
  induction ht generalizing depth v with
  | broken | unusable => contradiction
  | null => exact Option.some.inj hv ▸ .null
  | bool b => exact Option.some.inj hv ▸ .bool b
  | number hn => exact Option.some.inj hv ▸ .number hn
  | string s => exact Option.some.inj hv ▸ .string s
  | array _ ih =>
      rw [toJson?] at hv
      split at hv
      · contradiction
      · obtain ⟨vs, hvs, rfl⟩ := Option.map_eq_some_iff.1 hv
        exact .array (forall_mem_of_itemsToJson? (fun t ht v => ih t ht) hvs)
  | object _ ih =>
      rw [toJson?] at hv
      split at hv
      · contradiction
      · obtain ⟨all, hall, rfl⟩ := Option.map_eq_some_iff.1 hv
        exact wellFormed_of_membersToJson? (fun m hm v => ih m hm)
          (.object .nil (List.forall_mem_nil _)) hall

end Tree

/-- Every document that text spells is well-formed. -/
theorem wellFormed_of_ofText? {text : String} {doc : Json} (hdoc : ofText? text = some doc) :
    doc.WellFormed := by
  rw [ofText?, treeOf] at hdoc
  dsimp only at hdoc
  split at hdoc
  · exact Tree.wellFormed_of_toJson? (fits_readTree _ _) hdoc
  · contradiction

end FlagGovernance.Json
